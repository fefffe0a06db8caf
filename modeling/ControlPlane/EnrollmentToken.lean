import ControlPlane.JsValue

/-!
# Enrollment tokens

A token is the base64url text of a signed payload and its HMAC, joined by a
dot. It names the agent and the digest of the manifest it was issued for, and
it lives for five minutes of whole seconds.
-/

set_option autoImplicit false

namespace ControlPlane.EnrollmentToken
open ControlPlane.JsText ControlPlane.JsValue

/-- The functions of the runtime: base64url of the UTF-8 bytes of a text, JSON,
HMAC-SHA256 in base64url and SHA-256 in hex. `toNumber` is the numeric value of
what is not a number, and `template` the text a value gives in a template
literal. -/
structure Platform extends Codec where
  encode : Text → Text
  stringify : Json → Text
  hmac : Text → Text → Text
  sha256Hex : Text → Text
  toNumber : Json → Option JsNumber
  template : Option Json → Text

structure EnrollmentPayload where
  sub : Text
  iat : ℤ
  exp : ℤ
  jti : Text
  msh : Text
  deriving DecidableEq, Repr

def tokenLifetimeSecs : ℤ := 300

def int (n : ℤ) : Json := .num (.finite n)

def EnrollmentPayload.json (p : EnrollmentPayload) : Json :=
  .obj [(js "sub", .str p.sub), (js "scope", .str (js "register")), (js "iat", int p.iat),
    (js "exp", int p.exp), (js "jti", .str p.jti), (js "msh", .str p.msh)]

def unixSecs (now : Instant) : ℤ := now/1000

/-- The payload that `verifyAndIssueToken` signs; `jti` is a random UUID. -/
def mint (P : Platform) (now : Instant) (aid body jti : Text) : EnrollmentPayload :=
  ⟨aid, unixSecs now, unixSecs now+tokenLifetimeSecs, jti, P.sha256Hex body⟩

def sign (P : Platform) (secret : Text) (p : EnrollmentPayload) : Text :=
  let data := P.encode (P.stringify p.json)
  data++dot::P.hmac secret data

def verify (P : Platform) (secret token : Text) : Except Text Json :=
  match token.splitOn dot with
  | [data, sig] =>
    if isBase64url data && isBase64url sig then
      if sig = P.hmac secret data then
        match P.parse (P.decode data) with
        | some payload => .ok payload
        | none => .error (js "token payload is not valid JSON")
      else .error (js "token signature invalid")
    else .error (js "malformed enrollment token")
  | _ => .error (js "malformed enrollment token")

/-- `now > exp`, where a missing `exp` is not a number. -/
def isExpired (P : Platform) (secs : ℤ) (exp : Option Json) : Bool :=
  match exp with
  | none => false
  | some (.num (.finite q)) => q < secs
  | some (.num (.infinite negative)) => negative
  | some v =>
    match P.toNumber v with
    | some (.finite q) => q < secs
    | some (.infinite negative) => negative
    | none => false

def checkPayload (P : Platform) (now : Instant) (expectedAid manifestEnvelopeJson : Text)
    (payload : Json) : Except Text Json :=
  if (payload.get (js "scope")).bind Json.string? ≠ some (js "register") then
    .error (js "token scope must be register")
  else if isExpired P (unixSecs now) (payload.get (js "exp")) then
    .error (js "enrollment token expired")
  else if (payload.get (js "sub")).bind Json.string? ≠ some expectedAid then
    .error (js "token sub "++P.template (payload.get (js "sub"))++
      js " does not match manifest aid "++expectedAid)
  else if nonEmptyString (payload.get (js "jti")) = none then
    .error (js "enrollment token missing jti")
  else
    match nonEmptyString (payload.get (js "msh")) with
    | none =>
      .error (js "enrollment token is not bound to a manifest — re-enroll to get a new token")
    | some msh =>
      if msh ≠ P.sha256Hex manifestEnvelopeJson then
        .error (js "enrollment token was issued for a different manifest than the one submitted")
      else .ok payload

def validateToken (P : Platform) (secret : Text) (now : Instant)
    (token expectedAid manifestEnvelopeJson : Text) : Except Text Json :=
  match verify P secret token with
  | .error e => .error e
  | .ok .null => .error (js "Cannot read properties of null (reading 'scope')")
  | .ok payload => checkPayload P now expectedAid manifestEnvelopeJson payload

/-- What the runtime does with one token: the texts it encodes are read back,
and both halves are in the base64url alphabet. -/
structure Readable (P : Platform) (secret : Text) (p : EnrollmentPayload) : Prop where
  data : isBase64url (P.encode (P.stringify p.json)) = true
  sig : isBase64url (P.hmac secret (P.encode (P.stringify p.json))) = true
  decode : P.decode (P.encode (P.stringify p.json)) = P.stringify p.json
  parse : P.parse (P.stringify p.json) = some p.json

theorem verify_sign (P : Platform) (secret : Text) (p : EnrollmentPayload)
    (hr : Readable P secret p) : verify P secret (sign P secret p) = .ok p.json := by
  have hdot := isBase64url_dot _ hr.data
  have hsig := isBase64url_dot _ hr.sig
  have hsplit : (sign P secret p).splitOn dot =
      [P.encode (P.stringify p.json), P.hmac secret (P.encode (P.stringify p.json))] := by
    simp only [sign]
    rw [List.splitOn_append_cons_self_of_not_mem hdot, List.splitOn_eq_singleton hsig]
  simp [verify, hsplit, hr.data, hr.sig, hr.decode, hr.parse]

@[simp] theorem json_scope (p : EnrollmentPayload) :
    p.json.get (js "scope") = some (.str (js "register")) := rfl

@[simp] theorem json_sub (p : EnrollmentPayload) : p.json.get (js "sub") = some (.str p.sub) := rfl

@[simp] theorem json_exp (p : EnrollmentPayload) : p.json.get (js "exp") = some (int p.exp) := rfl

@[simp] theorem json_jti (p : EnrollmentPayload) : p.json.get (js "jti") = some (.str p.jti) := rfl

@[simp] theorem json_msh (p : EnrollmentPayload) : p.json.get (js "msh") = some (.str p.msh) := rfl

theorem check_json (P : Platform) (now : Instant) (aid body : Text) (p : EnrollmentPayload) :
    checkPayload P now aid body p.json = .ok p.json ↔
      unixSecs now ≤ p.exp ∧ p.sub = aid ∧ p.jti ≠ [] ∧ p.msh ≠ [] ∧ p.msh = P.sha256Hex body := by
  have hexp : isExpired P (unixSecs now) (some (int p.exp)) = decide (p.exp < unixSecs now) := by
    simp [isExpired, int]
  simp only [checkPayload, json_scope, json_sub, json_exp, json_jti, json_msh, hexp,
    nonEmptyString_str, Option.bind_some, Json.string?]
  by_cases h1 : p.exp < unixSecs now
  · simp [h1]
  by_cases h2 : p.sub = aid
  · by_cases h3 : p.jti = []
    · simp [h1, h2, h3]
    · by_cases h4 : p.msh = []
      · simp [h1, h2, h3, h4]
      · by_cases h5 : p.msh = P.sha256Hex body
        · simp [h1, h2, h3, h4, ← h5, not_lt.mp h1]
        · simp [h1, h2, h3, h4, h5]
  · simp [h1, h2]

theorem check_payload (P : Platform) (now : Instant) (aid body : Text) (payload payload' : Json)
    (h : checkPayload P now aid body payload = .ok payload') : payload' = payload := by
  simp only [checkPayload] at h
  split_ifs at h
  split at h
  · cases h
  · split_ifs at h
    exact (Except.ok.inj h).symm

theorem validate_signed (P : Platform) (secret : Text) (p : EnrollmentPayload)
    (hr : Readable P secret p) (now : Instant) (aid body : Text) (payload : Json) :
    validateToken P secret now (sign P secret p) aid body = .ok payload ↔
      payload = p.json ∧ unixSecs now ≤ p.exp ∧ p.sub = aid ∧ p.jti ≠ [] ∧ p.msh ≠ [] ∧
        p.msh = P.sha256Hex body := by
  have hv : validateToken P secret now (sign P secret p) aid body =
      checkPayload P now aid body p.json := by
    rw [validateToken, verify_sign P secret p hr]
    rfl
  rw [hv, ← check_json]
  constructor
  · intro h
    obtain rfl := check_payload P now aid body _ _ h
    exact ⟨rfl, h⟩
  · rintro ⟨rfl, h⟩
    exact h

end ControlPlane.EnrollmentToken
