import ControlPlane.RecursiveQuery
import ControlPlane.TctParse

/-!
# The projection of reported TCTs and delegations

Each audit event is projected onto two tables, and revocations cascade along
the parent edges. A statement that meets a value its column cannot hold
throws; what was inserted before it stays, and a transaction changes nothing.
Identifiers are compared as UUIDs, which the database keeps in lower case.
-/

set_option autoImplicit false

namespace ControlPlane.TctMonitor
open ControlPlane.JsText ControlPlane.JsValue ControlPlane.HttpValidate ControlPlane.TctParse

inductive VerificationMode where
  | off
  | warn
  | strict
  deriving DecidableEq, Repr

structure VerificationOutcome where
  attempted : Bool
  verified : Bool
  error : Option Text
  deriving DecidableEq, Repr

structure ProjectionDecision where
  project : Bool
  error : Option Text
  deriving DecidableEq, Repr

def noToken : VerificationOutcome := ⟨false, false, some (js "no signed token to verify")⟩

def decideProjection (mode : VerificationMode) (outcome : VerificationOutcome) :
    ProjectionDecision :=
  match mode with
  | .off => ⟨true, none⟩
  | .strict =>
    if outcome.attempted && outcome.verified then ⟨true, none⟩
    else ⟨false, some (outcome.error.getD (js "verification failed"))⟩
  | .warn => ⟨true, if outcome.attempted && !outcome.verified then outcome.error else none⟩

/-- The revocation policy of every verification here. -/
def observeRevocation : Text := js "fail_open"

/-- The verifying calls of the SDK at an instant; an error carries its message. -/
structure Sdk where
  getCpAgent : Except Text Unit
  verifyTct : Instant → Text → Text → Text → Text → Except Text Unit
  verifyDelegation : Instant → Text → Text → List Text → Text → Bool → Except Text Unit

structure Monitor where
  runtime : Runtime
  sdk : Sdk
  mode : VerificationMode
  insecureLocalhost : Bool

def ofCall : Except Text Unit → VerificationOutcome
  | .ok () => ⟨true, true, none⟩
  | .error message => ⟨true, false, some message⟩

def verifyObservedTct (M : Monitor) (now : Instant) (raw : Json) (parsed : ParsedTct) :
    VerificationOutcome :=
  match wrapperToken (some raw) with
  | none => noToken
  | some token =>
    match parsed.grants with
    | [] => ⟨true, false, some (js "cannot verify: TCT carries no grant to check")⟩
    | grant::_ => ofCall (M.sdk.getCpAgent.bind (fun _ =>
        M.sdk.verifyTct now token grant parsed.audienceAid observeRevocation))

def reportedAud (payload : Json) : Option Text :=
  nonEmptyString ((((delegationWrapper payload).bind (·.get (js "claims"))).filter
    Json.isObject).bind (·.get (js "aud")))

def verifyObservedDelegation (M : Monitor) (now : Instant) (payload : Json)
    (issuerManifests : List Text) : VerificationOutcome :=
  match wrapperToken (delegationWrapper payload) with
  | none => noToken
  | some token =>
    match reportedAud payload with
    | none => ⟨true, false, some (js "cannot verify: delegation claims carry no aud")⟩
    | some aud => ofCall (M.sdk.verifyDelegation now token aud issuerManifests observeRevocation
        M.insecureLocalhost)

def gateObserved (M : Monitor) (verify : Unit → VerificationOutcome) : Bool :=
  match M.mode with
  | .off => true
  | mode => (decideProjection mode (verify ())).project

structure RevocationEntry where
  jti : Text
  revokedAt : Instant
  reason : Option Text
  iss : Option Text
  deriving DecidableEq, Repr

structure IssuedTct extends ParsedTct where
  sessionId : Option Text
  revoked : Bool
  revokedAt : Option Instant
  deriving DecidableEq, Repr

structure Delegation extends ParsedDelegation where
  revoked : Bool
  revokedAt : Option Instant
  revokedReason : Option Text
  deriving DecidableEq, Repr

structure Tables where
  revocationEntries : List RevocationEntry
  issuedTcts : List IssuedTct
  delegations : List Delegation
  deriving DecidableEq, Repr

def Tables.empty : Tables := ⟨[], [], []⟩

structure AuditEventRecord where
  type : Text
  ts : Instant
  sessionId : Option Text
  payload : Json

def tctRevokedAt (t : Tables) (jti : Text) : Option Instant :=
  (t.revocationEntries.find? (fun e => e.jti = jti)).map (·.revokedAt)

def parentRevokedAt (t : Tables) (parentJti : Text) : Option Instant :=
  (tctRevokedAt t parentJti).or
    (((t.issuedTcts.find? (fun r => r.jti = parentJti && r.revoked)).bind (·.revokedAt)).or
      ((t.delegations.find? (fun d => d.jti = parentJti && d.revoked)).bind (·.revokedAt)))

def tctStorable (tct : ParsedTct) (sessionId : Option Text) : Bool :=
  [tct.issuerAid, tct.subjectAid, tct.audienceAid].all (takesVarchar 512) &&
    tct.grants.all textStorable && tct.bindingCnf.all (takesVarchar 128) &&
    instantStorable tct.issuedAt && tct.expiresAt.all instantStorable &&
    sessionId.all (takesVarchar 255)

/-- The column values of a parsed TCT: text is stored as UTF-8, cut to its column. -/
def storedTct (tct : ParsedTct) : ParsedTct :=
  { tct with jti := uuid tct.jti, issuerAid := varchar 512 tct.issuerAid,
             subjectAid := varchar 512 tct.subjectAid,
             audienceAid := varchar 512 tct.audienceAid,
             bindingCnf := tct.bindingCnf.map (varchar 128) }

def newTct (tct : ParsedTct) (sessionId : Option Text) (t : Tables) : IssuedTct :=
  let revokedAt := tctRevokedAt t (uuid tct.jti)
  { storedTct tct with sessionId := sessionId.map (varchar 255), revoked := revokedAt.isSome,
                       revokedAt := revokedAt }

/-- A held identifier leaves the table as it is. -/
def insertTct (tct : ParsedTct) (sessionId : Option Text) (t : Tables) : Option Tables :=
  if tctStorable tct sessionId then
    some (if t.issuedTcts.any (·.jti = uuid tct.jti) then t
      else { t with issuedTcts := t.issuedTcts++[newTct tct sessionId t] })
  else none

def parentRevoked : Text := js "parent_revoked"

def delegationStorable (d : ParsedDelegation) : Bool :=
  [d.delegatorAid, d.delegateeAid].all (takesVarchar 512) && d.scope.all textStorable &&
    instantStorable d.issuedAt && d.expiresAt.all instantStorable

def storedDelegation (d : ParsedDelegation) : ParsedDelegation :=
  { d with jti := uuid d.jti, parentJti := uuid d.parentJti,
           delegatorAid := varchar 512 d.delegatorAid,
           delegateeAid := varchar 512 d.delegateeAid }

def newDelegation (d : ParsedDelegation) (t : Tables) : Delegation :=
  let revokedAt := parentRevokedAt t (uuid d.parentJti)
  { storedDelegation d with revoked := revokedAt.isSome, revokedAt := revokedAt,
                            revokedReason := revokedAt.map (fun _ => parentRevoked) }

def insertDelegation (d : ParsedDelegation) (t : Tables) : Option Tables :=
  if delegationStorable d then
    some (if t.delegations.any (·.jti = uuid d.jti) then t
      else { t with delegations := t.delegations++[newDelegation d t] })
  else none

/-- A guarded update: rows that are revoked keep their columns. -/
def revokeTcts (jti : Text) (ts : Instant) (t : Tables) : Tables :=
  { t with issuedTcts := t.issuedTcts.map (fun r =>
      if r.jti = jti && !r.revoked then { r with revoked := true, revokedAt := some ts } else r) }

def revokeDelegations (jtis : List Text) (reason : Text) (ts : Instant) (t : Tables) : Tables :=
  { t with delegations := t.delegations.map (fun d =>
      if d.jti ∈ jtis && !d.revoked then
        { d with revoked := true, revokedAt := some ts, revokedReason := some reason }
      else d) }

def edges (t : Tables) : List (Text × Text) := t.delegations.map (fun d => (d.parentJti, d.jti))

def cascade (jti : Text) (ts : Instant) (t : Tables) : Tables :=
  revokeDelegations (RecursiveQuery.descendants (edges t) jti) parentRevoked ts t

def reportedTcts (payload : Json) : List Json :=
  match payload.get (js "tcts") with
  | some (.arr items) => items
  | _ =>
    match payload.get (js "tct") with
    | some raw => if raw.truthy then [raw] else []
    | none => []

/-- An entry that throws ends the loop; the rows before it stay. -/
def recordEntries (M : Monitor) (now : Instant) (event : AuditEventRecord) :
    List Json → Tables → Tables
  | [], t => t
  | raw::rest, t =>
    match parseTct raw event.ts with
    | none => t
    | some none => recordEntries M now event rest t
    | some (some tct) =>
      if gateObserved M (fun _ => verifyObservedTct M now raw tct) then
        match insertTct tct event.sessionId t with
        | none => t
        | some u => recordEntries M now event rest u
      else recordEntries M now event rest t

def recordIssuedTcts (M : Monitor) (now : Instant) (event : AuditEventRecord) (t : Tables) :
    Tables :=
  recordEntries M now event (reportedTcts event.payload) t

def revokedJti (event : AuditEventRecord) : Option Text :=
  ((readString event.payload [js "jti"]).filter isJtiUuid).map uuid

def recordRevocation (event : AuditEventRecord) (t : Tables) : Tables :=
  match revokedJti event with
  | none => t
  | some jti =>
    if instantStorable event.ts then cascade jti event.ts (revokeTcts jti event.ts t) else t

def recordDelegationRevocation (event : AuditEventRecord) (t : Tables) : Tables :=
  match revokedJti event with
  | none => t
  | some jti =>
    if instantStorable event.ts then
      cascade jti event.ts (revokeDelegations [jti] (js "explicit") event.ts t)
    else t

/-- The delegator's manifest, looked up only when verification runs. -/
def issuerManifests (M : Monitor) (getAgent : Text → Option Text) (d : ParsedDelegation) :
    List Text :=
  match M.mode with
  | .off => []
  | _ => (getAgent d.delegatorAid).toList

def recordDelegation (M : Monitor) (now : Instant) (getAgent : Text → Option Text)
    (event : AuditEventRecord) (t : Tables) : Tables :=
  match parseDelegation M.runtime event.payload event.ts with
  | some (some d) =>
    if gateObserved M (fun _ =>
        verifyObservedDelegation M now event.payload (issuerManifests M getAgent d)) then
      (insertDelegation d t).getD t
    else t
  | _ => t

def tctIssued : Text := js "tct.issued"

def handshakeComplete : Text := js "handshake.complete"

def tctRevoked : Text := js "tct.revoked"

def delegationIssued : Text := js "delegation.issued"

def delegationRevoked : Text := js "delegation.revoked"

def onEvent (M : Monitor) (now : Instant) (getAgent : Text → Option Text)
    (event : AuditEventRecord) (t : Tables) : Tables :=
  if event.type = tctIssued || event.type = handshakeComplete then recordIssuedTcts M now event t
  else if event.type = tctRevoked then recordRevocation event t
  else if event.type = delegationIssued then recordDelegation M now getAgent event t
  else if event.type = delegationRevoked then recordDelegationRevocation event t
  else t

end ControlPlane.TctMonitor
