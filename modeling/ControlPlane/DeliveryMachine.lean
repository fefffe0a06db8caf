import ControlPlane.CircuitBreaker
import ControlPlane.MediatedFetch
import ControlPlane.RetryBackoff
import ControlPlane.ThreadPool

/-!
# Webhook deliveries

The tables, the breakers of every process and all calls of `attemptDelivery`,
with one step for each SQL statement, target check and hop of a fetch. A call
keeps the rows it has read, and its writes hit the row as it stands at that
later time. The other steps are the operator's requests, enqueueing, the
reaper, the retry timers, retention and the clock.
-/

set_option autoImplicit false

namespace ControlPlane.DeliveryMachine
open ControlPlane.JsText ControlPlane.JsValue ControlPlane.CircuitBreaker
open ControlPlane.ConfigNumber (timerDelay)
open ControlPlane.MediatedFetch (maxRedirects)
open ControlPlane.RetryBackoff (backoffMs nextRetryAt)
open ControlPlane.RunMachine ControlPlane.ThreadPool

abbrev DeliveryId := Text

abbrev WebhookId := Text

abbrev Proc := ℕ

structure Webhook where
  url : Text
  events : List Text
  secret : Text
  active : Bool
  deriving DecidableEq, Repr

inductive DeliveryStatus where
  | pending
  | delivered
  | failed
  deriving DecidableEq, Repr

structure Delivery where
  webhookId : WebhookId
  eventType : Text
  payload : Json
  body : Option Text
  signature : Option Text
  status : DeliveryStatus
  attempts : ℕ
  statusCode : Option ℕ
  error : Option Text
  deliveredAt : Option Instant
  nextRetryAt : Option Instant
  createdAt : Instant

/-- The configuration, with HMAC-SHA256 in hex and the serialisation of the
four keys of a delivery body. -/
structure Service where
  retryAttempts : ℚ
  breaker : BreakerConfig
  hmac : Text → Text → Text
  canonicalBody : DeliveryId → Text → Json → Instant → Text

def deliverableEventTypes : List Text :=
  [js "agent.registered", js "agent.expired", js "agent.deregistered", js "handshake.complete",
    js "handshake.failed", js "tct.revoked"]

structure Post where
  delivery : DeliveryId
  attempts : ℕ
  url : Text
  eventType : Text
  body : Text
  signature : Text
  timestamp : ℤ
  timestampSignature : Text

structure Unsubscribed where
  targetId : WebhookId
  url : Text
  deliveryId : DeliveryId
  statusCode : ℕ

structure Timer where
  proc : Proc
  delivery : DeliveryId
  due : Instant
  deriving DecidableEq

/-- `owner` remembers every id that was ever enqueued, `flips` every webhook
that a 410 answer turned inactive, and `resent` every POST that a redirect sent
on, with its URL. -/
structure World where
  now : Instant
  webhooks : WebhookId → Option Webhook
  deliveries : DeliveryId → Option Delivery
  owner : DeliveryId → Option WebhookId
  breakers : Proc → WebhookId → BreakerEntry
  posts : List Post
  resent : List (DeliveryId × Text)
  audit : List Unsubscribed
  flips : List WebhookId
  timers : List Timer

def initial (now : Instant) : World :=
  ⟨now, fun _ => none, fun _ => none, fun _ => none, fun _ _ => fresh, [], [], [], [], []⟩

/-- What a call has read; `probe` says whether it claimed the half-open probe. -/
structure Attempt where
  delivery : Delivery
  webhook : Webhook
  probe : Bool

def Attempt.attempts (a : Attempt) : ℕ := a.delivery.attempts+1

def Attempt.webhookId (a : Attempt) : WebhookId := a.delivery.webhookId

inductive Outcome where
  | inactive
  | deferred (state : BreakerState) (nextRetryAt : Instant)
  | unsafeTarget (a : Attempt) (message : Text)
  | success (a : Attempt) (statusCode : ℕ) (deliveredAt : Instant)
  | gone (a : Attempt) (error : Text)
  | exhausted (a : Attempt) (statusCode : Option ℕ) (error : Text)
  | retry (a : Attempt) (statusCode : Option ℕ) (error : Text) (nextRetryAt : Instant)

def Outcome.status : Outcome → DeliveryStatus
  | .inactive => .failed
  | .deferred _ _ => .pending
  | .unsafeTarget _ _ => .failed
  | .success _ _ _ => .delivered
  | .gone _ _ => .failed
  | .exhausted _ _ _ => .failed
  | .retry _ _ _ _ => .pending

def Outcome.apply (o : Outcome) (d : Delivery) : Delivery :=
  match o with
  | .inactive => { d with status := o.status, error := some (js "webhook missing or inactive") }
  | .deferred state t =>
    { d with
      status := o.status, error := some (js "circuit breaker "++state.text), nextRetryAt := some t }
  | .unsafeTarget _ message =>
    { d with
      status := o.status, error := some (js "unsafe target: "++message), nextRetryAt := none }
  | .success _ code t =>
    { d with
      status := o.status, statusCode := some code, error := none, deliveredAt := some t
      nextRetryAt := none }
  | .gone _ error =>
    { d with
      status := o.status, statusCode := some 410, error := some error, nextRetryAt := none }
  | .exhausted _ code error =>
    { d with status := o.status, statusCode := code, error := some error, nextRetryAt := none }
  | .retry _ code error t =>
    { d with status := o.status, statusCode := code, error := some error, nextRetryAt := some t }

def Outcome.storable : Outcome → Bool
  | .inactive => true
  | .deferred _ t => instantStorable t
  | .unsafeTarget _ message => !hasNul message
  | .success _ _ t => instantStorable t
  | .gone _ error => !hasNul error
  | .exhausted _ _ error => !hasNul error
  | .retry _ _ error t => !hasNul error && instantStorable t

inductive Pc where
  | readRow
  | readWebhook (d : Delivery)
  | ask (a : Attempt)
  | claim (a : Attempt)
  | target (a : Attempt)
  | fetching (a : Attempt) (hops : ℕ)
  | settle (o : Outcome)
  | disable (a : Attempt)
  | failQueue (a : Attempt) (disabled : Bool)
  | audit (a : Attempt)
  | done

structure Call where
  proc : Proc
  delivery : DeliveryId
  pc : Pc

inductive Verdict where
  | safe
  | refused (message : Text)
  | threw

inductive Answer where
  | status (code : ℕ) (text : Text)
  | threw (message : Text)

/-- What the outside of the process decides about one step of a call. A
`redirect` has the status 307 or 308, which keep the method and the body; after
any other redirect the fetch goes on as a GET. -/
inductive Io where
  | ok
  | fault
  | jitter (ms : ℕ)
  | verdict (v : Verdict)
  | redirect (url : Text)
  | answer (ans : Answer)

def Answer.isOk : Answer → Bool
  | .status code _ => 200 ≤ code && code ≤ 299
  | .threw _ => false

def Answer.isGone : Answer → Bool
  | .status code _ => code = 410
  | .threw _ => false

def Answer.code : Answer → Option ℕ
  | .status code _ => some code
  | .threw _ => none

def Answer.errorText : Answer → Text
  | .status code text => js "non-2xx ("++js (toString code)++js "): "++text.take 200
  | .threw message => message

def Answer.outcome (ans : Answer) : AttemptOutcome :=
  if ans.isOk then .success else if ans.isGone then .gone else .failure

def isoOf (t : Instant) : Option Instant := if |t| ≤ maxDateMs then some t else none

/-- What is written after the fetch; nothing when the date of the next retry
is invalid and throws. -/
def conclude (svc : Service) (now : Instant) (a : Attempt) (ans : Answer) : Option Outcome :=
  if ans.isOk then some (.success a (ans.code.getD 0) now)
  else if ans.isGone then some (.gone a ans.errorText)
  else if svc.retryAttempts ≤ a.attempts then some (.exhausted a ans.code ans.errorText)
  else (nextRetryAt now a.attempts).map (.retry a ans.code ans.errorText)

def postBody (svc : Service) (id : DeliveryId) (a : Attempt) : Text × Text :=
  match a.delivery.body, a.delivery.signature with
  | some (u::body), some (v::signature) => (u::body, v::signature)
  | _, _ =>
    let body := svc.canonicalBody id a.delivery.eventType a.delivery.payload a.delivery.createdAt
    (body, svc.hmac a.webhook.secret body)

def postOf (svc : Service) (now : Instant) (id : DeliveryId) (a : Attempt) : Post :=
  let b := postBody svc id a
  let timestamp := now/1000
  ⟨id, a.attempts, a.webhook.url, a.delivery.eventType, b.1, js "sha256="++b.2, timestamp,
    js "sha256="++svc.hmac a.webhook.secret (js (toString timestamp)++js "."++b.1)⟩

def World.row (w : World) (id : DeliveryId) (f : Delivery → Delivery) : World :=
  { w with deliveries := Function.update w.deliveries id ((w.deliveries id).map f) }

def World.breaker (w : World) (p : Proc) (h : WebhookId) (e : BreakerEntry) : World :=
  { w with breakers := Function.update w.breakers p (Function.update (w.breakers p) h e) }

def Call.to (c : Call) (pc : Pc) : Call := { c with pc := pc }

def claimable (a : Attempt) (d : Delivery) : Bool :=
  d.attempts = a.delivery.attempts ∧ d.status = .pending

def claimRow (a : Attempt) (d : Delivery) : Delivery :=
  { d with attempts := a.attempts, status := .pending }

/-- The update of all pending deliveries of a webhook after a 410 answer. -/
def failPending (h : WebhookId) (d : Delivery) : Delivery :=
  if d.webhookId = h ∧ d.status = .pending then
    { d with
      status := .failed, error := some (js "webhook unsubscribed (410 Gone)"), nextRetryAt := none }
  else d

def isActive (w : World) (h : WebhookId) : Bool := ((w.webhooks h).map (·.active)).getD false

def afterSettle : Outcome → Pc
  | .gone a _ => .disable a
  | _ => .done

def afterSettleTimers (w : World) (c : Call) : Outcome → List Timer
  | .retry a _ _ _ => ⟨c.proc, c.delivery, w.now+timerDelay (backoffMs a.attempts)⟩::w.timers
  | _ => w.timers

/-- `shouldAttempt`, and for a refused attempt the time at which the reaper
may pick the row up again. -/
def askStep (svc : Service) (ms : ℕ) (w : World) (c : Call) (a : Attempt) : World × Call :=
  let r := shouldAttempt svc.breaker w.now (w.breakers c.proc a.webhookId)
  let w' := w.breaker c.proc a.webhookId r.2
  if r.1 then (w', c.to (.claim { a with probe := r.2.state = .halfOpen }))
  else
    match isoOf ((nextProbeAt svc.breaker r.2).getD (w.now+60000)+ms) with
    | some t => (w', c.to (.settle (.deferred r.2.state t)))
    | none => (w', c.to .done)

def claimStep (w : World) (c : Call) (a : Attempt) : World × Call :=
  if ((w.deliveries c.delivery).map (claimable a)).getD false then
    (w.row c.delivery (claimRow a), c.to (.target a))
  else (w, c.to .done)

def targetStep (svc : Service) (v : Verdict) (w : World) (c : Call) (a : Attempt) : World × Call :=
  match v with
  | .safe => ({ w with posts := postOf svc w.now c.delivery a::w.posts }, c.to (.fetching a 0))
  | .refused message => (w, c.to (.settle (.unsafeTarget a message)))
  | .threw => (w, c.to .done)

/-- `fetch` sends the same headers and body to the URL of the redirect. -/
def redirectStep (url : Text) (w : World) (c : Call) (a : Attempt) (hops : ℕ) : World × Call :=
  ({ w with resent := (c.delivery, url)::w.resent }, c.to (.fetching a (hops+1)))

def answerStep (svc : Service) (ans : Answer) (w : World) (c : Call) (a : Attempt) :
    World × Call :=
  (w.breaker c.proc a.webhookId
      (record svc.breaker w.now ans.outcome (w.breakers c.proc a.webhookId)),
    c.to (((conclude svc w.now a ans).map Pc.settle).getD .done))

def settleStep (w : World) (c : Call) (o : Outcome) : World × Call :=
  ({ w.row c.delivery o.apply with timers := afterSettleTimers w c o }, c.to (afterSettle o))

def disableStep (w : World) (c : Call) (a : Attempt) : World × Call :=
  if isActive w a.webhookId then
    ({ w with
        webhooks := Function.update w.webhooks a.webhookId
          ((w.webhooks a.webhookId).map (fun h => { h with active := false }))
        flips := a.webhookId::w.flips },
      c.to (.failQueue a true))
  else (w, c.to (.failQueue a false))

def failQueueStep (w : World) (c : Call) (a : Attempt) (disabled : Bool) : World × Call :=
  ({ w with deliveries := fun id => (w.deliveries id).map (failPending a.webhookId) },
    c.to (if disabled then .audit a else .done))

def auditStep (w : World) (c : Call) (a : Attempt) : World × Call :=
  ({ w with audit := ⟨a.webhookId, a.webhook.url, c.delivery, 410⟩::w.audit }, c.to .done)

def readRowStep (w : World) (c : Call) : Call :=
  match w.deliveries c.delivery with
  | none => c.to .done
  | some d => if d.status = .delivered then c.to .done else c.to (.readWebhook d)

def readWebhookStep (w : World) (c : Call) (d : Delivery) : Call :=
  match w.webhooks d.webhookId with
  | none => c.to (.settle .inactive)
  | some h => if h.active then c.to (.ask ⟨d, h, false⟩) else c.to (.settle .inactive)

def act (svc : Service) (io : Io) (w : World) (c : Call) : Option (World × Call) :=
  match c.pc, io with
  | .readRow, .ok => some (w, readRowStep w c)
  | .readWebhook d, .ok => some (w, readWebhookStep w c d)
  | .ask a, .jitter ms => if ms < 30000 then some (askStep svc ms w c a) else none
  | .claim a, .ok => some (claimStep w c a)
  | .target a, .verdict v => some (targetStep svc v w c a)
  | .fetching a hops, .redirect url =>
    if hops < maxRedirects then some (redirectStep url w c a hops) else none
  | .fetching a _, .answer ans => some (answerStep svc ans w c a)
  | .settle o, .ok => if o.storable then some (settleStep w c o) else none
  | .disable a, .ok => some (disableStep w c a)
  | .failQueue a disabled, .ok => some (failQueueStep w c a disabled)
  | .audit a, .ok => some (auditStep w c a)
  | .readRow, .fault => some (w, c.to .done)
  | .readWebhook _, .fault => some (w, c.to .done)
  | .claim _, .fault => some (w, c.to .done)
  | .settle _, .fault => some (w, c.to .done)
  | .disable _, .fault => some (w, c.to .done)
  | .failQueue _ _, .fault => some (w, c.to .done)
  | .audit _, .fault => some (w, c.to .done)
  | _, _ => none

structure Patch where
  url : Option Text
  events : Option (List Text)
  secret : Option Text
  active : Option Bool

def Patch.apply (p : Patch) (h : Webhook) : Webhook :=
  ⟨p.url.getD h.url, p.events.getD h.events, p.secret.getD h.secret, p.active.getD h.active⟩

inductive Env where
  | tick (ms : ℕ)
  | createWebhook (id : WebhookId) (h : Webhook)
  | updateWebhook (id : WebhookId) (p : Patch)
  | deleteWebhook (id : WebhookId)
  | resetBreaker (proc : Proc) (id : WebhookId)
  | enqueue (proc : Proc) (id : DeliveryId) (webhookId : WebhookId) (candidate : Webhook)
      (eventType : Text) (payload : Json)
  | timer (t : Timer)
  | reap (proc : Proc) (id : DeliveryId)
  | attempt (proc : Proc) (id : DeliveryId)
  | purge (id : DeliveryId)

def due (now : Instant) (d : Delivery) : Bool :=
  d.status = .pending ∧ ∀ t ∈ d.nextRetryAt, t ≤ now

def matching (candidate : Webhook) (eventType : Text) : Bool :=
  deliverableEventTypes.contains eventType && candidate.active &&
    (candidate.events.isEmpty || candidate.events.contains eventType)

def newDelivery (svc : Service) (now : Instant) (id : DeliveryId) (webhookId : WebhookId)
    (candidate : Webhook) (eventType : Text) (payload : Json) : Delivery :=
  let body := svc.canonicalBody id eventType payload now
  ⟨webhookId, eventType, payload, some body, some (svc.hmac candidate.secret body), .pending, 0,
    none, none, none, none, now⟩

def begin (proc : Proc) (id : DeliveryId) : Call := ⟨proc, id, .readRow⟩

/-- The candidate of a dispatch was read earlier, so the webhook may have
changed since, but its row must still exist. A reaper pass is one `reap` for
each due row it selects, and a call it makes later is one that starts with a
delay. Retention deletes delivered and failed rows. -/
def env (svc : Service) : Env → World → Option (World × Option Call)
  | .tick ms, w => some ({ w with now := w.now+ms }, none)
  | .createWebhook id h, w =>
    if w.webhooks id = none then
      some ({ w with webhooks := Function.update w.webhooks id (some h) }, none)
    else none
  | .updateWebhook id p, w =>
    some ({ w with webhooks := Function.update w.webhooks id ((w.webhooks id).map p.apply) }, none)
  | .deleteWebhook id, w =>
    some ({ w with
      webhooks := Function.update w.webhooks id none
      deliveries := fun d => (w.deliveries d).filter (fun r => r.webhookId ≠ id) }, none)
  | .resetBreaker proc id, w => some (w.breaker proc id fresh, none)
  | .enqueue proc id webhookId candidate eventType payload, w =>
    if w.owner id = none ∧ w.webhooks webhookId ≠ none ∧ matching candidate eventType = true then
      some ({ w with
        deliveries := Function.update w.deliveries id
          (some (newDelivery svc w.now id webhookId candidate eventType payload))
        owner := Function.update w.owner id (some webhookId) }, some (begin proc id))
    else none
  | .timer t, w =>
    if t ∈ w.timers ∧ t.due ≤ w.now then
      some ({ w with timers := w.timers.erase t }, some (begin t.proc t.delivery))
    else none
  | .reap proc id, w =>
    if ((w.deliveries id).map (due w.now)).getD false then some (w, some (begin proc id)) else none
  | .attempt proc id, w => some (w, some (begin proc id))
  | .purge id, w =>
    some ({ w with
      deliveries := Function.update w.deliveries id
        ((w.deliveries id).filter (fun r => r.status = .pending)) }, none)

def deliverySystem (svc : Service) : System World Call Env Io := ⟨env svc, act svc⟩

abbrev State := Pool World Call

abbrev Event := Label Env Io

abbrev next (svc : Service) : Event → State → Option State := step (deliverySystem svc)

def start (now : Instant) : State := ⟨initial now, []⟩

section Scenario

def service : Service := ⟨3, defaultConfig, fun _ body => body, fun id _ _ _ => id⟩

def hook : Webhook := ⟨js "https://example.com/", [], js "secret", true⟩

def created : Event := .env (.createWebhook [7] hook)

def enqueued (id : DeliveryId) : Event :=
  .env (.enqueue 0 id [7] hook (js "tct.revoked") .null)

def posting (i : ℕ) : List Event :=
  [.act i .ok, .act i .ok, .act i (.jitter 0), .act i .ok, .act i (.verdict .safe)]

def answered (i code : ℕ) (text : Text) : Event := .act i (.answer (.status code text))

end Scenario

end ControlPlane.DeliveryMachine
