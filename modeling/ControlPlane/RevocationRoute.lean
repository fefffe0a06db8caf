import ControlPlane.TctMonitor

/-!
# Recording a revocation

`POST /api/revocation/entries`: the checks of the body, the issuer that the
entry is attributed to, the upsert, and the `tct.revoked` event that the
monitor projects. A stored issuer is never changed; a missing one is filled.
-/

set_option autoImplicit false

namespace ControlPlane.RevocationRoute
open ControlPlane.JsText ControlPlane.JsValue ControlPlane.HttpValidate ControlPlane.TctMonitor

structure Revocation where
  jti : Text
  reason : Option Text
  iss : Option Text
  revokedAt : Instant
  deriving DecidableEq, Repr

def maxRevokedAtMs : Instant := 253402300799999

def readJti : Option Json → Except Problem Text
  | some (.str jti) =>
    if isJtiV4 jti then .ok jti
    else .error ⟨400, js "jti must be a lowercase UUID v4", js "JTI_INVALID"⟩
  | _ => .error ⟨400, js "jti must be a lowercase UUID v4", js "JTI_INVALID"⟩

def readReason : Option Json → Except Problem (Option Text)
  | none => .ok none
  | some .null => .ok none
  | some (.str reason) =>
    if 500 < reason.length then .error (badRequest (js "reason exceeds 500 character limit"))
    else if hasNul reason then
      .error (badRequest (js "reason must not contain a NUL character"))
    else .ok (some reason)
  | some _ => .error (badRequest (js "reason must be a string"))

def readIss : Option Json → Except Problem (Option Text)
  | none => .ok none
  | some .null => .ok none
  | some (.str iss) =>
    if isAid iss then .ok (some iss)
    else .error ⟨400, js "iss must be an issuer AID (aid:...)", js "ISS_INVALID"⟩
  | some _ => .error ⟨400, js "iss must be an issuer AID (aid:...)", js "ISS_INVALID"⟩

/-- `parseDate` is `new Date(text).getTime()`, with nothing for an invalid date. -/
def readRevokedAt (parseDate : Text → Option Instant) (now : Instant) :
    Option Json → Except Problem Instant
  | some (.str text) =>
    match parseDate text with
    | none => .error (badRequest
        (js "revokedAt must be a parseable date string (ISO-8601 recommended)"))
    | some ms =>
      if 0 ≤ ms && ms ≤ maxRevokedAtMs then .ok ms
      else .error (badRequest
        (js "revokedAt must be between 1970-01-01T00:00:00.000Z and 9999-12-31T23:59:59.999Z"))
  | _ => .ok now

def readRevocation (parseDate : Text → Option Instant) (now : Instant) (body : Json) :
    Except Problem Revocation := do
  let jti ← readJti (body.get (js "jti"))
  let reason ← readReason (body.get (js "reason"))
  let iss ← readIss (body.get (js "iss"))
  let revokedAt ← readRevokedAt parseDate now (body.get (js "revokedAt"))
  return ⟨jti, reason, iss, revokedAt⟩

def projectedIss (t : Tables) (jti : Text) : Option Text :=
  ((t.issuedTcts.find? (·.jti = jti)).map (·.issuerAid)).filter isAid

def storedIss (t : Tables) (jti : Text) : Option Text :=
  (t.revocationEntries.find? (·.jti = jti)).bind (·.iss)

def disagree (a b : Option Text) : Bool := a.isSome && b.isSome && a ≠ b

def resolveIss (t : Tables) (r : Revocation) : Except Problem Text :=
  let projected := projectedIss t r.jti
  let stored := storedIss t r.jti
  let known := projected.or stored
  if disagree projected stored then
    .error ⟨409, js "the stored entry names a different issuer than the TCT recorded for this jti",
      js "ISS_MISMATCH"⟩
  else if disagree known r.iss then
    .error ⟨409, js "iss does not match the issuer recorded for this jti", js "ISS_MISMATCH"⟩
  else
    match known.or r.iss with
    | some iss => .ok iss
    | none => .error ⟨400, js "iss is required: the CP has no TCT recorded for this jti",
        js "ISS_REQUIRED"⟩

def upsertEntry (r : Revocation) (iss : Text) (t : Tables) : Tables :=
  { t with revocationEntries :=
      if t.revocationEntries.any (·.jti = r.jti) then
        t.revocationEntries.map (fun e =>
          if e.jti = r.jti && e.iss.isNone then { e with iss := some iss } else e)
      else t.revocationEntries++
        [⟨r.jti, r.revokedAt, r.reason.map toWellFormed, some iss⟩] }

def entryStorable (r : Revocation) (iss : Text) : Bool :=
  r.reason.all (!hasNul ·) && fitsVarchar 512 iss && instantStorable r.revokedAt

def nullable (t : Option Text) : Json := (t.map .str).getD .null

def revokedEvent (r : Revocation) (iss : Text) : AuditEventRecord where
  type := tctRevoked
  ts := r.revokedAt
  sessionId := none
  payload := .obj [(js "jti", .str r.jti), (js "reason", nullable r.reason),
    (js "iss", .str iss)]

inductive Answer where
  | refused (problem : Problem)
  | threw
  | created (revocation : Revocation) (iss : Text)
  deriving DecidableEq, Repr

/-- `body` is the parsed object. A throw after the upsert leaves the entry. -/
def post (M : Monitor) (parseDate : Text → Option Instant) (now : Instant) (body : Json)
    (t : Tables) : Answer × Tables :=
  match readRevocation parseDate now body with
  | .error problem => (.refused problem, t)
  | .ok r =>
    match resolveIss t r with
    | .error problem => (.refused problem, t)
    | .ok iss =>
      if entryStorable r iss then
        let u := upsertEntry r iss t
        let event := revokedEvent r iss
        if event.payload.storable && instantStorable event.ts then
          (.created r iss, onEvent M now (fun _ => none) event u)
        else (.threw, u)
      else (.threw, t)

theorem readJti_ok (v : Option Json) (jti : Text) (h : readJti v = .ok jti) :
    isJtiV4 jti = true := by
  unfold readJti at h
  split at h
  · split at h
    · next hv => simp only [Except.ok.injEq] at h; exact h ▸ hv
    · cases h
  · cases h

theorem readRevocation_ok (parseDate : Text → Option Instant) (now : Instant) (body : Json)
    (r : Revocation) (h : readRevocation parseDate now body = .ok r) :
    readJti (body.get (js "jti")) = .ok r.jti ∧
      readReason (body.get (js "reason")) = .ok r.reason ∧
      readIss (body.get (js "iss")) = .ok r.iss ∧
      readRevokedAt parseDate now (body.get (js "revokedAt")) = .ok r.revokedAt := by
  simp only [readRevocation, bind, Except.bind, pure, Except.pure] at h
  split at h
  · cases h
  · split at h
    · cases h
    · split at h
      · cases h
      · split at h
        · cases h
        · simp only [Except.ok.injEq] at h
          subst h
          refine ⟨?_, ?_, ?_, ?_⟩ <;> assumption

theorem post_created (M : Monitor) (parseDate : Text → Option Instant) (now : Instant)
    (body : Json) (t u : Tables) (r : Revocation) (iss : Text)
    (h : post M parseDate now body t = (.created r iss, u)) :
    readRevocation parseDate now body = .ok r ∧ resolveIss t r = .ok iss ∧
      (revokedEvent r iss).payload.storable = true ∧ instantStorable r.revokedAt = true ∧
      u = recordRevocation (revokedEvent r iss) (upsertEntry r iss t) := by
  unfold post at h
  split at h
  · cases h
  · next hr =>
    split at h
    · cases h
    · next hiss =>
      split at h
      · simp only at h
        split at h
        · next hs =>
          simp only [Prod.mk.injEq, Answer.created.injEq] at h
          obtain ⟨⟨rfl, rfl⟩, hu⟩ := h
          simp only [Bool.and_eq_true] at hs
          exact ⟨hr, hiss, hs.1, hs.2, hu.symm⟩
        · cases h
      · cases h

theorem revokedJti_revokedEvent (r : Revocation) (iss : Text) (h : isJtiV4 r.jti = true) :
    revokedJti (revokedEvent r iss) = some r.jti := by
  obtain ⟨u, t, ht⟩ : ∃ u t, r.jti = u::t := by
    cases hj : r.jti with
    | nil => rw [hj] at h; exact absurd h (by decide)
    | cons u t => exact ⟨u, t, rfl⟩
  have hread : TctParse.readString (revokedEvent r iss).payload [js "jti"] = some r.jti := by
    simp only [TctParse.readString, revokedEvent, Json.get, List.lookup_cons_self, ht]
  simp only [revokedJti, hread, Option.filter, isJtiUuid_of_isJtiV4 _ h, if_true,
    Option.map_some, uuid_of_isJtiV4 _ h]

theorem created_tables (M : Monitor) (parseDate : Text → Option Instant) (now : Instant)
    (body : Json) (t u : Tables) (r : Revocation) (iss : Text)
    (h : post M parseDate now body t = (.created r iss, u)) :
    u = cascade r.jti r.revokedAt (revokeTcts r.jti r.revokedAt (upsertEntry r iss t)) := by
  obtain ⟨hr, -, -, hat, hu⟩ := post_created M parseDate now body t u r iss h
  have hv4 := readJti_ok _ _ (readRevocation_ok parseDate now body r hr).1
  simp only [recordRevocation, revokedJti_revokedEvent r iss hv4] at hu
  rw [hu]
  exact if_pos hat

end ControlPlane.RevocationRoute
