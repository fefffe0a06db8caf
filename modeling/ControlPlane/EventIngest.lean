import ControlPlane.AdminRoutes
import ControlPlane.DeliveryMachine
import ControlPlane.EventId
import ControlPlane.Idempotency
import ControlPlane.JsonReader
import ControlPlane.NamedPool
import ControlPlane.SessionMonitor

/-!
# Batches of reported events

`POST /api/events` checks its entries, gives each an id and inserts those whose
id is not stored. The new ones are published and handed to the webhooks, all
of them are projected. Requests of several replicas run one statement at a
time over one database, and a webhook that answers a delivery with 410 is
switched off. `request` and `winners` record who wrote a row.
-/

set_option autoImplicit false

namespace ControlPlane.EventIngest
open ControlPlane.JsText ControlPlane.JsValue ControlPlane.HttpValidate ControlPlane.TctParse
open ControlPlane.EventNormalize ControlPlane.EventId
open ControlPlane.Idempotency
open ControlPlane.JsonReader (stringify)
open ControlPlane.RequestGate (Headers get)
open ControlPlane.AdminRoutes (RequestBody payloadTooLarge)
open ControlPlane.DeliveryMachine (deliverableEventTypes)
open ControlPlane.TctMonitor (Monitor Tables)
open ControlPlane.SessionMonitor (HandshakeSession)
open ControlPlane.RunMachine ControlPlane.NamedPool

structure Service where
  runtime : IdRuntime
  monitor : Monitor

/-- `random` is what `randomUUID()` gives to the entry at an index. -/
structure EventsRequest where
  headers : Headers
  body : RequestBody
  replica : ℕ
  random : ℕ → Text

def eventsScope : Text := js "events.ingest"

def maxBatchBytes : ℕ := 262144

def maxEventPayloadBytes : ℕ := 65536

def maxBatchEvents : ℕ := 500

def maxReportedErrors : ℕ := 20

def webhookDispatchConcurrency : ℕ := 8

def actorIdFromAuthHeader (sha256 : Text → List UInt8) : Option Text → Option Text
  | none => none
  | some authHeader =>
    let token := if (js "Bearer ").isPrefixOf authHeader then authHeader.drop 7 else authHeader
    if token = [] then none
    else some (js "apikey:"++((sha256 token).flatMap hexByte).take 16)

def producerKey (R : IdRuntime) (q : EventsRequest) : Option Text :=
  actorIdFromAuthHeader R.sha256 (get q.headers (js "authorization"))

structure ItemError where
  index : ℕ
  field : Text
  reason : Text
  deriving DecidableEq, Repr

inductive Answer where
  | refused (problem : Problem) (eventType : Option Text)
  | threw
  | counted (ingested dropped : ℕ) (errors : List ItemError) (inserted duplicates : ℕ)
  deriving DecidableEq, Repr

def answerStatus : Answer → ℕ
  | .refused problem _ => problem.status
  | .threw => 500
  | .counted _ _ _ _ _ => 200

structure Candidate where
  index : ℕ
  raw : Json
  event : EventRecord
  problem : Option ItemProblem

/-- Nothing if `events` is there but no array. -/
def rawEvents (body : Json) : Option (List Json) :=
  match body with
  | .arr items => some items
  | _ =>
    match body.get (js "events") with
    | none => some []
    | some .null => some []
    | some (.arr items) => some items
    | some _ => none

/-- Entries that are no objects are skipped; arrays are objects. -/
def candidatesFrom (parseDate : Text → Option Instant) (now : Instant) :
    ℕ → List Json → List Candidate
  | _, [] => []
  | index, raw::raws =>
    if raw.isObject then
      let event := normalize parseDate now raw []
      ⟨index, raw, event, itemProblem event⟩::candidatesFrom parseDate now (index+1) raws
    else candidatesFrom parseDate now (index+1) raws

def payloadSize (payload : Json) : ℕ := (stringify payload).length

/-- What is nested too deep is not measured. -/
def oversized (c : Candidate) : Bool :=
  !c.problem.any (·.tooDeep) && maxEventPayloadBytes < payloadSize c.event.payload

def identified (R : IdRuntime) (q : EventsRequest) (c : Candidate) : EventRecord :=
  { c.event with id := eventIdFor R c.raw (producerKey R q) (q.random c.index) }

def itemError (c : Candidate) : Option ItemError :=
  c.problem.map (fun p => ⟨c.index, p.field, p.reason⟩)

structure Batch where
  normalized : List EventRecord
  dropped : ℕ
  errors : List ItemError

/-- The handler up to its first statement. -/
def prepare (R : IdRuntime) (now : Instant) (q : EventsRequest) (body : Json) :
    Except Answer Batch :=
  match rawEvents body with
  | none => .error (.refused (badRequest (js "events must be an array")) none)
  | some raws =>
    if maxBatchEvents < raws.length then
      .error (.refused ⟨413, js "batch exceeds "++number maxBatchEvents++js " events (got "++
        number raws.length++js ")", js "PAYLOAD_TOO_LARGE"⟩ none)
    else
      let candidates := candidatesFrom R.parseDate now 0 raws
      match candidates.find? oversized with
      | some c =>
        .error (.refused ⟨413, js "event payload exceeds "++number maxEventPayloadBytes++
          js " bytes (got "++number (payloadSize c.event.payload)++js ")",
          js "PAYLOAD_TOO_LARGE"⟩ (some c.event.type))
      | none =>
        .ok { normalized := (candidates.filter (·.problem.isNone)).map (identified R q),
              dropped := candidates.countP (·.problem.isSome),
              errors := (candidates.filterMap itemError).take maxReportedErrors }

def firstOfEach : List Text → List EventRecord → List EventRecord
  | _, [] => []
  | seen, e::es => if e.id ∈ seen then firstOfEach seen es else e::firstOfEach (e.id::seen) es

theorem firstOfEach_sublist (seen : List Text) (es : List EventRecord) :
    (firstOfEach seen es).Sublist es := by
  induction es generalizing seen with
  | nil => exact List.Sublist.refl _
  | cons e es ih =>
    unfold firstOfEach
    split_ifs
    · exact (ih seen).cons e
    · exact (ih (e.id::seen)).cons_cons e

def Batch.unique (b : Batch) : List EventRecord := firstOfEach [] b.normalized

structure Webhook where
  id : Text
  events : List Text
  active : Bool
  deriving DecidableEq, Repr

/-- What the handler knows once it has listed the webhooks. -/
structure FanOut where
  batch : Batch
  insertedIds : List Text
  activeWebhooks : List Webhook

def FanOut.fresh (f : FanOut) : List EventRecord :=
  f.batch.unique.filter (fun e => e.id ∈ f.insertedIds)

def countAnswer (f : FanOut) : Answer :=
  .counted f.batch.normalized.length f.batch.dropped f.batch.errors f.insertedIds.length
    (f.batch.normalized.length-f.insertedIds.length)

def matching (candidates : List Webhook) (event : EventRecord) : List Webhook :=
  if event.type ∈ deliverableEventTypes then
    candidates.filter (fun w => w.active && (w.events = [] || event.type ∈ w.events))
  else []

structure Job where
  webhookId : Text
  event : EventRecord

def jobsOf (f : FanOut) (event : EventRecord) : List Job :=
  (matching f.activeWebhooks event).map (fun w => ⟨w.id, event⟩)

/-- A row of `audit_events`, and the request that has inserted it. -/
structure StoredEvent where
  request : ℕ
  row : EventRecord

structure Published where
  request : ℕ
  replica : ℕ
  event : EventRecord

structure Delivery where
  request : ℕ
  webhookId : Text
  eventType : Text
  payload : EventRecord

/-- The encoder of the columns replaces lone surrogates. -/
def toRow (e : EventRecord) : EventRecord :=
  { e with type := toWellFormed e.type, aidA := e.aidA.map toWellFormed,
           aidB := e.aidB.map toWellFormed, sessionId := e.sessionId.map toWellFormed,
           runId := e.runId.map toWellFormed, source := e.source.map toWellFormed }

/-- `manifests` are the stored manifests of the agents. -/
structure World where
  now : Instant
  webhooks : List Webhook
  manifests : Text → Option Text
  responses : List (StoredResponse Answer)
  winners : List (Text × ℕ)
  events : List StoredEvent
  published : List Published
  deliveries : List Delivery
  sessions : List HandshakeSession
  tables : Tables

/-- A request between two statements. `keyed` looks up its idempotency key,
`running` enters the handler, `projecting` and `tracing` run the two monitors
on an event, `dispatching` has the deliveries of one slice and the events
after it before it. The handler, where it has run, is kept to the end. -/
inductive Phase where
  | received
  | keyed (body : Json)
  | running (body : Json)
  | inserting (b : Batch)
  | listing (b : Batch) (insertedIds : List Text)
  | publishing (f : FanOut) (todo : List EventRecord)
  | projecting (f : FanOut) (event : EventRecord) (todo : List EventRecord)
  | tracing (f : FanOut) (event : EventRecord) (todo : List EventRecord)
  | dispatching (f : FanOut) (pending : List Job) (todo : List EventRecord)
  | finished (ran : Option FanOut) (a : Answer)
  | persisted (ran : Option FanOut) (a : Answer)
  | answered (ran : Option FanOut) (a : Answer) (replayed : Bool)

structure Thread where
  request : EventsRequest
  phase : Phase

/-- `job` and `lost` are about one delivery of the current slice. `gone` is a
410 answer to a delivery that the request has enqueued for the webhook. -/
inductive Io where
  | ok
  | fault
  | job (i : ℕ)
  | lost (i : ℕ)
  | gone (webhookId : Text)
  deriving DecidableEq

def begin (q : EventsRequest) : Phase :=
  if q.body.tooLarge then .answered none (.refused (payloadTooLarge maxBatchBytes) none) false
  else
    match q.body.parsed with
    | none => .answered none (.refused (badRequest (js "body must be JSON")) none) false
    | some body =>
      match keyHeader q.headers with
      | .absent => .running body
      | .invalid => .answered none (.refused keyInvalid none) false
      | .key _ => .keyed body

def lookupStep (w : World) (q : EventsRequest) (body : Json) : Phase :=
  match keyHeader q.headers with
  | .key k =>
    match lookup w.responses eventsScope k with
    | some r => .answered none r.responseBody true
    | none => .running body
  | _ => .running body

def prepareStep (S : Service) (w : World) (q : EventsRequest) (body : Json) : Phase :=
  match prepare S.runtime w.now q body with
  | .error a => .finished none a
  | .ok b => .inserting b

def newEvents (w : World) (b : Batch) : List EventRecord :=
  b.unique.filter (fun e => !w.events.any (fun r => r.row.id = e.id))

/-- `INSERT … ON CONFLICT DO NOTHING RETURNING id` -/
def insertStep (n : ℕ) (w : World) (b : Batch) : World × Phase :=
  ({ w with events := w.events++(newEvents w b).map (fun e => ⟨n, toRow e⟩) },
    .listing b ((newEvents w b).map (·.id)))

def publishStep (n : ℕ) (q : EventsRequest) (w : World) (f : FanOut) (e : EventRecord)
    (todo : List EventRecord) : World × Phase :=
  if e.id ∈ f.insertedIds then
    ({ w with published := w.published++[⟨n, q.replica, e⟩] }, .projecting f e todo)
  else (w, .projecting f e todo)

def projectStep (io : Io) (w : World) (e : EventRecord) : World :=
  if io = .ok then { w with sessions := SessionMonitor.onEvent w.now e w.sessions } else w

def traceStep (S : Service) (io : Io) (w : World) (e : EventRecord) : World :=
  if io = .ok then
    let event := e.toAuditEventRecord
    { w with tables := TctMonitor.onEvent S.monitor w.now w.manifests event w.tables }
  else w

def deliver (n : ℕ) (w : World) (j : Job) : World :=
  { w with deliveries := w.deliveries++[⟨n, j.webhookId, j.event.type, j.event⟩] }

/-- The next slice of events, or the end of the handler. -/
def sliceStep (f : FanOut) : List EventRecord → Phase
  | [] => .finished (some f) (countAnswer f)
  | e::es => .dispatching f (((e::es).take webhookDispatchConcurrency).flatMap (jobsOf f))
      ((e::es).drop webhookDispatchConcurrency)

def persistStep (io : Io) (n : ℕ) (w : World) (q : EventsRequest) (ran : Option FanOut)
    (a : Answer) : World × Phase :=
  match keyHeader q.headers with
  | .key k =>
    if isCacheable (answerStatus a) then
      if io = .ok then
        ({ w with responses := persist w.responses eventsScope k (answerStatus a) a,
                  winners := if (lookup w.responses eventsScope k).isSome then w.winners
                    else w.winners++[(k, n)] }, .persisted ran a)
      else (w, .answered ran a false)
    else (w, .answered ran a false)
  | _ => (w, .answered ran a false)

def settleStep (w : World) (q : EventsRequest) (ran : Option FanOut) (a : Answer) : Phase :=
  match keyHeader q.headers with
  | .key k =>
    let response := settle w.responses eventsScope k (answerStatus a) a
    .answered ran response.body response.replayed
  | _ => .answered ran a false

/-- Where no statement runs, none can fail. -/
def statementStep (S : Service) (n : ℕ) (q : EventsRequest) (io : Io) (w : World) :
    Phase → Option (World × Phase)
  | .received => if io = .ok then some (w, begin q) else none
  | .keyed body =>
    if io = .ok then some (w, lookupStep w q body)
    else if io = .fault then some (w, .answered none .threw false) else none
  | .running body => if io = .ok then some (w, prepareStep S w q body) else none
  | .inserting b =>
    if io = .ok then some (insertStep n w b)
    else if io = .fault then some (w, .answered none .threw false) else none
  | .listing b insertedIds =>
    if io = .ok then
      some (w, .publishing ⟨b, insertedIds, w.webhooks.filter (·.active)⟩ b.unique)
    else if io = .fault then some (w, .publishing ⟨b, insertedIds, []⟩ b.unique) else none
  | .publishing f [] => if io = .ok then some (w, .dispatching f [] f.fresh) else none
  | .publishing f (e::todo) => if io = .ok then some (publishStep n q w f e todo) else none
  | .projecting f e todo =>
    if io = .ok || io = .fault then some (projectStep io w e, .tracing f e todo) else none
  | .tracing f e todo =>
    if io = .ok || io = .fault then some (traceStep S io w e, .publishing f todo) else none
  | .dispatching f pending todo =>
    match io with
    | .ok => if pending.isEmpty then some (w, sliceStep f todo) else none
    | .fault | .gone _ => none
    | .job i => pending[i]?.map (fun j =>
        (deliver n w j, .dispatching f (pending.eraseIdx i) todo))
    | .lost i => pending[i]?.map (fun _ => (w, .dispatching f (pending.eraseIdx i) todo))
  | .finished ran a =>
    if io = .ok || io = .fault then some (persistStep io n w q ran a) else none
  | .persisted ran a =>
    if io = .ok then some (w, settleStep w q ran a)
    else if io = .fault then some (w, .answered ran .threw false) else none
  | .answered _ _ _ => none

def switchOff (webhookId : Text) (w : World) : World :=
  { w with webhooks := w.webhooks.map (fun h =>
      if h.id = webhookId then { h with active := false } else h) }

/-- The attempts of the deliveries go on by themselves, also after the answer. -/
def eventStep (S : Service) (n : ℕ) (q : EventsRequest) (io : Io) (w : World) (ph : Phase) :
    Option (World × Phase) :=
  match io with
  | .gone webhookId =>
    if w.deliveries.any (fun d => d.request = n && d.webhookId = webhookId) then
      some (switchOff webhookId w, ph)
    else none
  | io => statementStep S n q io w ph

theorem publish_phase (n : ℕ) (q : EventsRequest) (w : World) (f : FanOut) (e : EventRecord)
    (todo : List EventRecord) : (publishStep n q w f e todo).2 = .projecting f e todo := by
  unfold publishStep
  split_ifs <;> rfl

theorem settle_phase (w : World) (q : EventsRequest) (ran : Option FanOut) (a : Answer) :
    ∃ a' replayed, settleStep w q ran a = .answered ran a' replayed := by
  unfold settleStep
  split
  · exact ⟨_, _, rfl⟩
  · exact ⟨_, _, rfl⟩

theorem persist_phase (io : Io) (n : ℕ) (w : World) (q : EventsRequest) (ran : Option FanOut)
    (a : Answer) : (persistStep io n w q ran a).2 = .persisted ran a ∨
      (persistStep io n w q ran a).2 = .answered ran a false := by
  unfold persistStep
  split
  · split_ifs <;> simp
  · exact Or.inr rfl

inductive Move (S : Service) (n : ℕ) (q : EventsRequest) (w : World) :
    Io → Phase → World → Phase → Prop
  | receive : Move S n q w .ok .received w (begin q)
  | find (body : Json) : Move S n q w .ok (.keyed body) w (lookupStep w q body)
  | unfound (body : Json) : Move S n q w .fault (.keyed body) w (.answered none .threw false)
  | prepare (body : Json) : Move S n q w .ok (.running body) w (prepareStep S w q body)
  | insert (b : Batch) :
    Move S n q w .ok (.inserting b) (insertStep n w b).1 (insertStep n w b).2
  | uninserted (b : Batch) : Move S n q w .fault (.inserting b) w (.answered none .threw false)
  | list (b : Batch) (ids : List Text) : Move S n q w .ok (.listing b ids) w
      (.publishing ⟨b, ids, w.webhooks.filter (·.active)⟩ b.unique)
  | unlisted (b : Batch) (ids : List Text) : Move S n q w .fault (.listing b ids) w
      (.publishing ⟨b, ids, []⟩ b.unique)
  | published (f : FanOut) : Move S n q w .ok (.publishing f []) w (.dispatching f [] f.fresh)
  | publish (f : FanOut) (e : EventRecord) (todo : List EventRecord) :
    Move S n q w .ok (.publishing f (e::todo)) (publishStep n q w f e todo).1
      (.projecting f e todo)
  | project {io : Io} (f : FanOut) (e : EventRecord) (todo : List EventRecord)
      (h : io = .ok ∨ io = .fault) :
    Move S n q w io (.projecting f e todo) (projectStep io w e) (.tracing f e todo)
  | trace {io : Io} (f : FanOut) (e : EventRecord) (todo : List EventRecord)
      (h : io = .ok ∨ io = .fault) :
    Move S n q w io (.tracing f e todo) (traceStep S io w e) (.publishing f todo)
  | slice (f : FanOut) (todo : List EventRecord) :
    Move S n q w .ok (.dispatching f [] todo) w (sliceStep f todo)
  | deliver (f : FanOut) (pending : List Job) (todo : List EventRecord) (i : ℕ) (j : Job)
      (h : pending[i]? = some j) :
    Move S n q w (.job i) (.dispatching f pending todo) (deliver n w j)
      (.dispatching f (pending.eraseIdx i) todo)
  | lose (f : FanOut) (pending : List Job) (todo : List EventRecord) (i : ℕ) (j : Job)
      (h : pending[i]? = some j) :
    Move S n q w (.lost i) (.dispatching f pending todo) w
      (.dispatching f (pending.eraseIdx i) todo)
  | persist {io : Io} (ran : Option FanOut) (a : Answer) (h : io = .ok ∨ io = .fault) :
    Move S n q w io (.finished ran a) (persistStep io n w q ran a).1
      (persistStep io n w q ran a).2
  | settle (ran : Option FanOut) (a : Answer) :
    Move S n q w .ok (.persisted ran a) w (settleStep w q ran a)
  | unsettled (ran : Option FanOut) (a : Answer) :
    Move S n q w .fault (.persisted ran a) w (.answered ran .threw false)
  | gone (webhookId : Text) (ph : Phase)
      (h : ∃ d ∈ w.deliveries, d.request = n ∧ d.webhookId = webhookId) :
    Move S n q w (.gone webhookId) ph (switchOff webhookId w) ph

theorem statement_move (S : Service) (n : ℕ) (q : EventsRequest) (io : Io) (w v : World)
    (ph ph' : Phase) (h : statementStep S n q io w ph = some (v, ph')) :
    Move S n q w io ph v ph' := by
  cases ph with
  | received =>
    simp only [statementStep, Option.ite_none_right_eq_some, Option.some.injEq] at h
    obtain ⟨rfl, h⟩ := h
    cases h
    exact Move.receive
  | keyed body =>
    simp only [statementStep] at h
    split_ifs at h with hok hfault
    · cases h
      exact hok ▸ Move.find body
    · cases h
      exact hfault ▸ Move.unfound body
  | running body =>
    simp only [statementStep, Option.ite_none_right_eq_some, Option.some.injEq] at h
    obtain ⟨rfl, h⟩ := h
    cases h
    exact Move.prepare body
  | inserting b =>
    simp only [statementStep] at h
    split_ifs at h with hok hfault
    · cases h
      exact hok ▸ Move.insert b
    · cases h
      exact hfault ▸ Move.uninserted b
  | listing b ids =>
    simp only [statementStep] at h
    split_ifs at h with hok hfault
    · cases h
      exact hok ▸ Move.list b ids
    · cases h
      exact hfault ▸ Move.unlisted b ids
  | publishing f todo =>
    cases todo with
    | nil =>
      simp only [statementStep, Option.ite_none_right_eq_some, Option.some.injEq] at h
      obtain ⟨rfl, h⟩ := h
      cases h
      exact Move.published f
    | cons e todo =>
      simp only [statementStep, Option.ite_none_right_eq_some, Option.some.injEq] at h
      obtain ⟨rfl, h⟩ := h
      have hmove : Move S n q w .ok _ _ _ := .publish f e todo
      rw [← publish_phase n q w f e todo, h] at hmove
      exact hmove
  | projecting f e todo =>
    simp only [statementStep, Option.ite_none_right_eq_some, Option.some.injEq] at h
    obtain ⟨hio, h⟩ := h
    cases h
    exact Move.project f e todo (by simpa using hio)
  | tracing f e todo =>
    simp only [statementStep, Option.ite_none_right_eq_some, Option.some.injEq] at h
    obtain ⟨hio, h⟩ := h
    cases h
    exact Move.trace f e todo (by simpa using hio)
  | dispatching f pending todo =>
    cases io with
    | ok =>
      simp only [statementStep, Option.ite_none_right_eq_some, Option.some.injEq,
        List.isEmpty_iff] at h
      obtain ⟨rfl, h⟩ := h
      cases h
      exact Move.slice f todo
    | fault | gone _ => cases h
    | job i =>
      simp only [statementStep, Option.map_eq_some_iff, Prod.mk.injEq] at h
      obtain ⟨j, hj, rfl, rfl⟩ := h
      exact Move.deliver f pending todo i j hj
    | lost i =>
      simp only [statementStep, Option.map_eq_some_iff, Prod.mk.injEq] at h
      obtain ⟨j, hj, rfl, rfl⟩ := h
      exact Move.lose f pending todo i j hj
  | finished ran a =>
    simp only [statementStep, Option.ite_none_right_eq_some, Option.some.injEq] at h
    obtain ⟨hio, h⟩ := h
    have hmove : Move S n q w io _ _ _ := .persist ran a (by simpa using hio)
    rwa [h] at hmove
  | persisted ran a =>
    simp only [statementStep] at h
    split_ifs at h with hok hfault
    · cases h
      exact hok ▸ Move.settle ran a
    · cases h
      exact hfault ▸ Move.unsettled ran a
  | answered ran a replayed => cases h

theorem step_move (S : Service) (n : ℕ) (q : EventsRequest) (io : Io) (w v : World)
    (ph ph' : Phase) (h : eventStep S n q io w ph = some (v, ph')) :
    Move S n q w io ph v ph' := by
  cases io with
  | gone webhookId =>
    simp only [eventStep, Option.ite_none_right_eq_some, List.any_eq_true, Bool.and_eq_true,
      decide_eq_true_eq] at h
    obtain ⟨hd, h⟩ := h
    cases h
    exact Move.gone webhookId ph hd
  | ok => exact statement_move S n q .ok w v ph ph' h
  | fault => exact statement_move S n q .fault w v ph ph' h
  | job i => exact statement_move S n q (.job i) w v ph ph' h
  | lost i => exact statement_move S n q (.lost i) w v ph ph' h

theorem move_step (S : Service) (n : ℕ) (q : EventsRequest) (io : Io) (w v : World)
    (ph ph' : Phase) (h : Move S n q w io ph v ph') :
    eventStep S n q io w ph = some (v, ph') := by
  cases h with
  | publish f e todo =>
    show statementStep S n q .ok w (.publishing f (e::todo)) = _
    rw [statementStep, if_pos rfl, ← publish_phase n q w f e todo]
  | project f e todo hio => rcases hio with rfl | rfl <;> simp [eventStep, statementStep]
  | trace f e todo hio => rcases hio with rfl | rfl <;> simp [eventStep, statementStep]
  | deliver f pending todo i j hj => simp [eventStep, statementStep, hj]
  | lose f pending todo i j hj => simp [eventStep, statementStep, hj]
  | persist ran a hio => rcases hio with rfl | rfl <;> simp [eventStep, statementStep]
  | gone webhookId _ hd => simpa [eventStep] using hd
  | _ => rfl

/-- Time passes, and other routes change the webhooks and the registry. -/
inductive Env where
  | tick (ms : ℕ)
  | setWebhooks (webhooks : List Webhook)
  | setManifests (manifests : Text → Option Text)

def env : Env → World → Option World
  | .tick ms, w => some { w with now := w.now+ms }
  | .setWebhooks webhooks, w => some { w with webhooks := webhooks }
  | .setManifests manifests, w => some { w with manifests := manifests }

def act (S : Service) (n : ℕ) (io : Io) (w : World) (t : Thread) : Option (World × Thread) :=
  (eventStep S n t.request io w t.phase).map (fun r => (r.1, { t with phase := r.2 }))

def ingest (S : Service) : System World ℕ Thread Env Io EventsRequest :=
  ⟨env, fun q => ⟨q, .received⟩, act S⟩

abbrev State := Pool World ℕ Thread

abbrev Event := Label ℕ Env Io EventsRequest

abbrev next (S : Service) : Event → State → Option State := step (ingest S)

def start (now : Instant) (webhooks : List Webhook) : State :=
  idle ⟨now, webhooks, fun _ => none, [], [], [], [], [], [], Tables.empty⟩

end ControlPlane.EventIngest
