import ControlPlane.AgentRoute
import ControlPlane.ThreadPool

/-!
# The registry as a machine

`POST /api/registry/enroll` verifies a manifest and signs a token for it, and
`POST /api/registry/agents` spends the token: one transaction inserts its `jti`
and writes the agent. A transaction keeps its writes to itself until it
commits. While it is open it holds the keys it has inserted, and another
insert of such a key waits.
-/

set_option autoImplicit false

namespace ControlPlane.RegistrationMachine
open ControlPlane.JsText ControlPlane.JsValue ControlPlane.HttpValidate ControlPlane.RequestGate
open ControlPlane.AdminRoutes ControlPlane.EnrollmentToken ControlPlane.AgentRoute
open ControlPlane.RunMachine ControlPlane.ThreadPool

structure SdkError where
  code : Text
  message : Text

/-- The service and `verifyManifestJson` of the SDK, which gives no error for
a manifest that it accepts. -/
structure Registry where
  service : Service
  verifyManifestJson : Text → Option SdkError

/-- Decoding a body leaves no lone surrogate. -/
structure BodyText where
  text : Text
  wellFormed : isWellFormed text = true
  deriving DecidableEq

inductive Rejection where
  | sdk (e : SdkError)
  | manifest (message code : Text)

def manifestOf (P : Platform) (body : Text) : Json :=
  ((P.parse body).bind (·.get (js "manifest"))).getD .null

/-- `typeof expires_at === 'number'`, which zero is too. -/
def enrollExpiresTooSoon (now : Instant) (m : Json) : Bool :=
  match m.get (js "expires_at") with
  | some (.num (.finite e)) =>
    match toDouble (e*1000) with
    | .finite ms => ms < now+registrationExpiryGuardMs
    | .infinite negative => negative
  | some (.num (.infinite negative)) => negative
  | _ => false

def verifyAndIssueToken (R : Registry) (now : Instant) (body jti : Text) :
    Except Rejection EnrollmentPayload :=
  match R.verifyManifestJson body with
  | some e => .error (.sdk e)
  | none =>
    let m := manifestOf R.service.platform body
    match m.get (js "aid") with
    | some (.str aid) =>
      if !(js "aid:").isPrefixOf aid then
        .error (.manifest (js "manifest.aid missing or not an AID string") (js "MANIFEST_INVALID"))
      else if enrollExpiresTooSoon now m then
        .error (.manifest
          (js "manifest expires_at is in the past or within 5 minutes — re-issue with a longer TTL")
          (js "MANIFEST_EXPIRED"))
      else
        match checkManifestColumns m with
        | some message => .error (.manifest message (js "MANIFEST_INVALID"))
        | none => .ok (mint R.service.platform now aid body jti)
    | _ =>
      .error (.manifest (js "manifest.aid missing or not an AID string") (js "MANIFEST_INVALID"))

theorem verifyAndIssueToken_ok (R : Registry) (now : Instant) (body jti : Text)
    (p : EnrollmentPayload) (h : verifyAndIssueToken R now body jti = .ok p) :
    R.verifyManifestJson body = none ∧
      ∃ aid, (manifestOf R.service.platform body).get (js "aid") = some (.str aid) ∧
        (js "aid:").isPrefixOf aid = true ∧
        enrollExpiresTooSoon now (manifestOf R.service.platform body) = false ∧
        checkManifestColumns (manifestOf R.service.platform body) = none ∧
        p = mint R.service.platform now aid body jti := by
  unfold verifyAndIssueToken at h
  split at h
  · cases h
  · next hverify =>
    simp only at h
    split at h
    · next aid haid =>
      split_ifs at h with hpre hsoon
      split at h
      · cases h
      · next hcolumns =>
        exact ⟨hverify, aid, haid, by simpa using hpre, by simpa using hsoon, hcolumns,
          (Except.ok.inj h).symm⟩
    · cases h

def isManifestEnvelope (envelope : Json) : Bool :=
  ((envelope.get (js "manifest")).map Json.isObject).getD false

/-- The checks of the handler before the manifest is verified. -/
def enroll (R : Registry) (now : Instant) (body jti : Text) :
    Except (ℕ × Text) (Except Rejection EnrollmentPayload) :=
  match R.service.platform.parse body with
  | none => .error (400, js "BODY_INVALID")
  | some .null => .error (400, js "BODY_INVALID")
  | some envelope =>
    if isManifestEnvelope envelope then
      if R.service.secret.isSome then .ok (verifyAndIssueToken R now body jti)
      else .error (503, js "SERVER_MISCONFIGURED")
    else .error (400, js "MANIFEST_INVALID")

structure RegisterInput where
  aid : Text
  displayName : Text
  handshakeEndpoint : Text
  offeredCaps : Json
  manifestJson : Text
  manifestExpiresAt : Option Instant
  org : Option Text
  cloud : Option Text
  agentNamespace : Option Text

inductive AgentStatus where
  | active
  | expired
  | deregistered
  deriving DecidableEq, Repr

structure Agent where
  aid : Text
  displayName : Text
  handshakeEndpoint : Text
  offeredCaps : Json
  manifestJson : Text
  manifestExpiresAt : Option Instant
  status : AgentStatus
  registeredAt : Instant
  lastEnrolledAt : Option Instant
  org : Option Text
  cloud : Option Text
  agentNamespace : Text

structure EnrollmentJti where
  jti : Text
  expiresAt : Instant
  deriving DecidableEq, Repr

structure Tables where
  agents : List Agent
  enrollmentJtis : List EnrollmentJti

/-- What the transaction is asked to write; the `jti` is the text of its
column. Nothing stands for the expiry whose `toISOString` throws. -/
structure Consumption where
  jti : Text
  expiresAt : Option Instant
  input : RegisterInput

/-- A transaction whose first statement is done. -/
structure Consumed where
  jti : Text
  expiresAt : Instant
  input : RegisterInput
  registeredAt : Instant

structure Write extends Consumed where
  lastEnrolledAt : Instant

def aidKey (input : RegisterInput) : Text := toWellFormed input.aid

/-- The values of `onConflictDoUpdate` over a row that is there. -/
def reenroll (w : Write) (a : Agent) : Agent :=
  { a with
    displayName := toWellFormed w.input.displayName
    handshakeEndpoint := toWellFormed w.input.handshakeEndpoint
    offeredCaps := w.input.offeredCaps
    manifestJson := toWellFormed w.input.manifestJson
    manifestExpiresAt := w.input.manifestExpiresAt
    agentNamespace := toWellFormed (w.input.agentNamespace.getD (js "default"))
    status := .active
    lastEnrolledAt := some w.lastEnrolledAt }

def newAgent (w : Write) : Agent where
  aid := aidKey w.input
  displayName := toWellFormed w.input.displayName
  handshakeEndpoint := toWellFormed w.input.handshakeEndpoint
  offeredCaps := w.input.offeredCaps
  manifestJson := toWellFormed w.input.manifestJson
  manifestExpiresAt := w.input.manifestExpiresAt
  status := .active
  registeredAt := w.registeredAt
  lastEnrolledAt := some w.lastEnrolledAt
  org := w.input.org.map toWellFormed
  cloud := w.input.cloud.map toWellFormed
  agentNamespace := toWellFormed (w.input.agentNamespace.getD (js "default"))

def upsertAgent (w : Write) (agents : List Agent) : List Agent :=
  if agents.any (fun a => a.aid = aidKey w.input) then
    agents.map (fun a => if a.aid = aidKey w.input then reenroll w a else a)
  else agents++[newAgent w]

def Write.apply (tb : Tables) (w : Write) : Tables :=
  ⟨upsertAgent w tb.agents, tb.enrollmentJtis++[⟨w.jti, w.expiresAt⟩]⟩

/-- The columns of `agents`. -/
def RegisterInput.storable (input : RegisterInput) : Bool :=
  fitsVarchar 512 input.aid && fitsVarchar 256 input.displayName &&
    !hasNul input.handshakeEndpoint && input.offeredCaps.storable &&
      !hasNul input.manifestJson && input.manifestExpiresAt.all instantStorable &&
        input.agentNamespace.all (fitsVarchar 128)

/-- `Number(exp)`, where an absent member is not a number. -/
def numberOf (P : Platform) : Option Json → Option JsNumber
  | none => none
  | some (.num n) => some n
  | some v => P.toNumber v

/-- `new Date(exp * 1000).toISOString()` -/
def tokenExpiry (P : Platform) (payload : Json) : Option Instant :=
  match numberOf P (payload.get (js "exp")) with
  | some (.finite q) => toISOString (toDouble (q*1000))
  | _ => none

/-- `expires_at ? new Date(expires_at * 1000).toISOString() : null`, and
nothing where it throws. -/
def manifestExpiresAt (m : Json) : Option (Option Instant) :=
  match m.get (js "expires_at") with
  | none => some none
  | some v =>
    if v.truthy then
      match v with
      | .num (.finite e) => (toISOString (toDouble (e*1000))).map some
      | _ => none
    else some none

def consumption (P : Platform) (h : Headers) (m payload : Json) (body : Text) :
    Option Consumption :=
  (manifestExpiresAt m).map (fun expires =>
    { jti := toWellFormed ((stringField payload (js "jti")).getD [])
      expiresAt := tokenExpiry P payload
      input :=
        { aid := (stringField m (js "aid")).getD []
          displayName := ((displayName m).string?).getD []
          handshakeEndpoint := (stringField m (js "handshake_endpoint")).getD []
          offeredCaps := nullish (m.get (js "offered_capabilities")) (.arr [])
          manifestJson := body
          manifestExpiresAt := expires
          org := none
          cloud := none
          agentNamespace := agentNamespace h m } })

structure RegisterRequest where
  headers : Headers
  tooLarge : Bool
  body : BodyText

def bearerToken (h : Headers) : Text :=
  let auth := (get h (js "authorization")).getD []
  if (js "Bearer ").isPrefixOf auth then auth.drop 7 else auth

inductive Verdict where
  | refused (problem : Problem)
  | threw
  | passed (c : Consumption)

/-- `POST /api/registry/agents` up to the transaction. -/
def checkRequest (R : Registry) (now : Instant) (q : RegisterRequest) : Verdict :=
  if q.tooLarge then .refused (payloadTooLarge manifestBodyMaxBytes)
  else
    match parseEnvelope R.service q.body.text with
    | .error problem => .refused problem
    | .ok m =>
      match checkToken R.service now (bearerToken q.headers) m q.body.text with
      | .error problem => .refused problem
      | .ok payload =>
        match checkManifest now q.headers m with
        | some problem => .refused problem
        | none =>
          match consumption R.service.platform q.headers m payload q.body.text with
          | none => .threw
          | some c => .passed c

theorem checkRequest_passed (R : Registry) (now : Instant) (q : RegisterRequest)
    (c : Consumption) : checkRequest R now q = .passed c ↔
      q.tooLarge = false ∧ ∃ m payload, parseEnvelope R.service q.body.text = .ok m ∧
        checkToken R.service now (bearerToken q.headers) m q.body.text = .ok payload ∧
          checkManifest now q.headers m = none ∧
            consumption R.service.platform q.headers m payload q.body.text = some c := by
  constructor
  · intro h
    unfold checkRequest at h
    split_ifs at h with hlarge
    split at h
    · cases h
    next m hm =>
    split at h
    · cases h
    next payload hpayload =>
    split at h
    · cases h
    next hmanifest =>
    split at h
    · cases h
    next c' hc =>
    obtain rfl := Verdict.passed.inj h
    exact ⟨by simpa using hlarge, m, payload, hm, hpayload, hmanifest, hc⟩
  · rintro ⟨hlarge, m, payload, hm, hpayload, hmanifest, hc⟩
    simp only [checkRequest, hlarge, Bool.false_eq_true, if_false, hm, hpayload, hmanifest, hc]

/-- A request until its answer. `served` is the answer stored for its
idempotency key, and `answered` what follows the commit: the event and the
audit row. -/
inductive Phase where
  | received
  | served
  | refused (problem : Problem)
  | threw
  | checked (c : Consumption)
  | consumed (c : Consumed)
  | upserted (w : Write)
  | replayed (c : Consumption)
  | committed (w : Write)
  | answered (w : Write) (created : Bool)

structure Thread where
  request : RegisterRequest
  phase : Phase

/-- `issued` and `commits` record the accepted manifests with the payloads
signed for them, and the writes in the order of their commits. -/
structure World where
  now : Instant
  tables : Tables
  heldJtis : List Text
  heldAids : List Text
  issued : List (BodyText × EnrollmentPayload)
  commits : List Write

inductive Io where
  | ok
  | fault
  | serve
  deriving DecidableEq

def hasJti (tb : Tables) (jti : Text) : Bool := tb.enrollmentJtis.any (fun r => r.jti = jti)

/-- Waits for the transaction that holds the key. -/
def consumeEnrollmentJti (w : World) (c : Consumption) : Option (World × Phase) :=
  match c.expiresAt with
  | none => some (w, .threw)
  | some expiresAt =>
    if fitsVarchar 64 c.jti && instantStorable expiresAt then
      if hasJti w.tables c.jti then some (w, .replayed c)
      else if c.jti ∈ w.heldJtis then none
      else some ({ w with heldJtis := c.jti::w.heldJtis },
        .consumed ⟨c.jti, expiresAt, c.input, w.now⟩)
    else some (w, .threw)

def rollback (w : World) (jti : Text) : World := { w with heldJtis := w.heldJtis.erase jti }

def upsertStatement (w : World) (c : Consumed) : Option (World × Phase) :=
  if c.input.storable && instantStorable w.now then
    if aidKey c.input ∈ w.heldAids then none
    else some ({ w with heldAids := aidKey c.input::w.heldAids }, .upserted ⟨c, w.now⟩)
  else some (rollback w c.jti, .threw)

def release (w : World) (c : Write) : World :=
  { rollback w c.jti with heldAids := w.heldAids.erase (aidKey c.input) }

def commit (w : World) (c : Write) : World :=
  { release w c with tables := c.apply w.tables, commits := w.commits++[c] }

def registerStep (R : Registry) (io : Io) (w : World) (q : RegisterRequest) :
    Phase → Option (World × Phase)
  | .received =>
    match io with
    | .ok =>
      match checkRequest R w.now q with
      | .refused problem => some (w, .refused problem)
      | .threw => some (w, .threw)
      | .passed c => some (w, .checked c)
    | .fault => some (w, .threw)
    | .serve => if q.tooLarge then none else some (w, .served)
  | .checked c =>
    match io with
    | .ok => consumeEnrollmentJti w c
    | .fault => some (w, .threw)
    | .serve => none
  | .consumed c =>
    match io with
    | .ok => upsertStatement w c
    | .fault => some (rollback w c.jti, .threw)
    | .serve => none
  | .upserted c =>
    match io with
    | .ok => some (commit w c, .committed c)
    | .fault => some (release w c, .threw)
    | .serve => none
  | .committed c =>
    match io with
    | .ok => some (w, .answered c true)
    | .fault => some (w, .answered c false)
    | .serve => none
  | _ => none

inductive Env where
  | tick (ms : ℕ)
  | enroll (body : BodyText) (jti : Text)
  | post (q : RegisterRequest)

def env (R : Registry) : Env → World → Option (World × Option Thread)
  | .tick ms, w => some ({ w with now := w.now+ms }, none)
  | .enroll body jti, w =>
    match enroll R w.now body.text jti with
    | .ok (.ok payload) => some ({ w with issued := (body, payload)::w.issued }, none)
    | _ => some (w, none)
  | .post q, w => some (w, some ⟨q, .received⟩)

def act (R : Registry) (io : Io) (w : World) (t : Thread) : Option (World × Thread) :=
  (registerStep R io w t.request t.phase).map (fun r => (r.1, { t with phase := r.2 }))

def registration (R : Registry) : System World Thread Env Io := ⟨env R, act R⟩

abbrev State := Pool World Thread

abbrev Event := Label Env Io

abbrev next (R : Registry) : Event → State → Option State := step (registration R)

def start (now : Instant) (tb : Tables) : State := ⟨⟨now, tb, [], [], [], []⟩, []⟩

structure EnvMove (R : Registry) (e : Env) (w w' : World) (o : Option Thread) : Prop where
  tables : w'.tables = w.tables
  commits : w'.commits = w.commits
  heldJtis : w'.heldJtis = w.heldJtis
  heldAids : w'.heldAids = w.heldAids
  started : ∀ t ∈ o, t.phase = .received
  issued : w'.issued = w.issued ∨ ∃ body jti payload, e = .enroll body jti ∧
    enroll R w.now body.text jti = .ok (.ok payload) ∧ w'.issued = (body, payload)::w.issued

theorem env_move (R : Registry) (e : Env) (w w' : World) (o : Option Thread)
    (h : env R e w = some (w', o)) : EnvMove R e w w' o := by
  cases e with
  | tick ms =>
    cases h
    exact ⟨rfl, rfl, rfl, rfl, by simp, Or.inl rfl⟩
  | enroll body jti =>
    simp only [env] at h
    split at h
    · next payload hp =>
      cases h
      exact ⟨rfl, rfl, rfl, rfl, by simp, Or.inr ⟨body, jti, payload, rfl, hp, rfl⟩⟩
    · cases h
      exact ⟨rfl, rfl, rfl, rfl, by simp, Or.inl rfl⟩
  | post q =>
    cases h
    exact ⟨rfl, rfl, rfl, rfl, by simp, Or.inl rfl⟩

theorem act_next (R : Registry) (i : ℕ) (io : Io) (s t : State)
    (hs : next R (.act i io) s = some t) :
    ∃ q p w p', s.threads[i]? = some ⟨q, p⟩ ∧ registerStep R io s.world q p = some (w, p') ∧
      t = ⟨w, s.threads.set i ⟨q, p'⟩⟩ := by
  obtain ⟨⟨q, p⟩, w, u', hu, ha, rfl⟩ := (step_act_some _ _ _ _ _).mp hs
  simp only [registration, act, Option.map_eq_some_iff, Prod.exists, Prod.mk.injEq] at ha
  obtain ⟨w', p', hstep, rfl, rfl⟩ := ha
  exact ⟨q, p, w', p', hu, hstep, rfl⟩

end ControlPlane.RegistrationMachine
