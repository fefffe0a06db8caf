import Mathlib.Data.List.DropRight
import Mathlib.Data.Nat.Digits.Defs
import ControlPlane.HttpValidate

/-!
# The request gate

Every request under `/api/` passes the gate, which authenticates it, limits
its rate and forwards it with a request id and its own attribution headers. A
header value is a text of bytes without NUL and line breaks, and without blanks
at its ends.
-/

set_option autoImplicit false

namespace ControlPlane.RequestGate
open ControlPlane.JsText ControlPlane.JsValue ControlPlane.HttpValidate

def isHeaderUnit (u : UInt16) : Bool := u ≤ 0xFF && u ≠ 0 && u ≠ 0x0A && u ≠ 0x0D

def isHttpSpace (u : UInt16) : Bool := u = 0x20 || u = 0x09 || u = 0x0A || u = 0x0D

def normalizeValue (t : Text) : Text := (t.dropWhile isHttpSpace).rdropWhile isHttpSpace

def isHeaderValue (t : Text) : Bool := t.all isHeaderUnit && normalizeValue t = t

/-- Names are in lower case, as a `Headers` object keeps them. -/
structure HeaderField where
  name : Text
  value : Text
  legal : isHeaderValue value = true
  deriving DecidableEq

abbrev Headers := List HeaderField

def get (h : Headers) (name : Text) : Option Text := (h.find? (·.name = name)).map (·.value)

def delete (h : Headers) (name : Text) : Headers := h.filter (fun f => ¬ f.name = name)

/-- Nothing when the value is refused with an exception. -/
def set (h : Headers) (name value : Text) : Option Headers :=
  if hv : isHeaderValue (normalizeValue value) = true then
    some (delete h name++[⟨name, normalizeValue value, hv⟩])
  else none

theorem get_legal (h : Headers) (name v : Text) (hg : get h name = some v) :
    isHeaderValue v = true := by
  obtain ⟨f, -, rfl⟩ := Option.map_eq_some_iff.mp hg
  exact f.legal

theorem get_delete_same (h : Headers) (name : Text) : get (delete h name) name = none := by
  simp [get, delete, List.find?_filter]

theorem get_delete_other (h : Headers) (name other : Text) (hne : other ≠ name) :
    get (delete h name) other = get h other := by
  simp only [get, delete, List.find?_filter]
  congr 2
  funext f
  by_cases hf : f.name = other
  · simp [hf, hne]
  · simp [hf]

theorem get_set_same (h h' : Headers) (name value : Text) (hs : set h name value = some h') :
    get h' name = some (normalizeValue value) := by
  simp only [set] at hs
  split at hs
  · simp only [Option.some.injEq] at hs
    subst hs
    have hnone : (delete h name).find? (·.name = name) = none :=
      Option.map_eq_none_iff.mp (get_delete_same h name)
    simp [get, List.find?_append, hnone]
  · cases hs

theorem get_set_other (h h' : Headers) (name other value : Text) (hne : other ≠ name)
    (hs : set h name value = some h') : get h' other = get h other := by
  simp only [set] at hs
  split at hs
  · simp only [Option.some.injEq] at hs
    subst hs
    rw [← get_delete_other h name other hne]
    simp [get, List.find?_append, Ne.symm hne]
  · cases hs

/-- `LABEL_RE`, which a label given for a missing one matches too. -/
def isKeyLabel (t : Text) : Bool :=
  let isAlnum := fun u => isDigit u || (0x41 ≤ u && u ≤ 0x5A) || (0x61 ≤ u && u ≤ 0x7A)
  match t with
  | [] => false
  | u::rest => isAlnum u && rest.length ≤ 39 &&
      rest.all (fun v => isAlnum v || v = 0x2E || v = 0x5F || v = 0x2D)

def isKeyLabelUnit (u : UInt16) : Bool :=
  (isDigit u || (0x41 ≤ u && u ≤ 0x5A) || (0x61 ≤ u && u ≤ 0x7A)) || u = 0x2E || u = 0x5F ||
    u = 0x2D

theorem isKeyLabel_units (t : Text) (h : isKeyLabel t = true) : t.all isKeyLabelUnit = true := by
  cases t with
  | nil => cases h
  | cons u rest =>
    simp only [isKeyLabel, Bool.and_eq_true] at h
    rw [List.all_cons, Bool.and_eq_true]
    apply And.intro _ h.2
    simp [isKeyLabelUnit, h.1.1]

structure ApiKeyEntry where
  label : Text
  key : Text
  labelled : isKeyLabel label = true
  deriving DecidableEq

structure IssuerKeyEntry extends ApiKeyEntry where
  aid : Text
  deriving DecidableEq

structure GateConfig where
  apiKeyEntries : List ApiKeyEntry
  issuerKeyEntries : List IssuerKeyEntry
  isProduction : Bool
  clientIpHeader : Text
  trustedProxyHops : ℚ
  rateLimitEnabled : Bool
  rateLimitEnrollPerIpMin : ℚ
  rateLimitPublicPerIpMin : ℚ
  rateLimitApiKeyMin : ℚ

structure Request where
  method : Text
  pathname : Text
  headers : Headers

/-- The clock and the random digits of a generated request id. -/
structure IdSource where
  now : ℕ
  random : Text
  valid : (now : ℤ) ≤ maxDateMs
  base36 : random.all (fun u => isDigit u || (0x61 ≤ u && u ≤ 0x7A)) = true
  short : random.length ≤ 8

def base36Digit (d : ℕ) : UInt16 := (if d < 10 then 0x30+d else 0x57+d).toUInt16

def toBase36 (n : ℕ) : Text :=
  if n = 0 then js "0" else ((Nat.digits 36 n).map base36Digit).reverse

def newRequestId (s : IdSource) : Text := js "cp-"++toBase36 s.now++js "-"++s.random

def requestIdHeader : Text := js "x-request-id"

def keyLabelHeader : Text := js "x-aitp-key-label"

def keyIssuerHeader : Text := js "x-aitp-key-issuer"

def clientIpForwardHeader : Text := js "x-aitp-client-ip"

def resolveRequestId (s : IdSource) (r : Request) : Text :=
  (get r.headers requestIdHeader).getD (newRequestId s)

def comma : UInt16 := 0x2C

def slash : UInt16 := 0x2F

def isJsSpace (u : UInt16) : Bool :=
  [0x09, 0x0A, 0x0B, 0x0C, 0x0D, 0x20, 0xA0, 0x1680, 0x2028, 0x2029, 0x202F, 0x205F, 0x3000,
    0xFEFF].contains u || (0x2000 ≤ u && u ≤ 0x200A)

def trim (t : Text) : Text := (t.dropWhile isJsSpace).rdropWhile isJsSpace

def present (v : Option Text) : Option Text := v.filter (· ≠ [])

/-- The trusted entry of `X-Forwarded-For`, counted from the right. -/
def forwardedEntry (hops : ℚ) (forwarded : Text) : Option Text :=
  let parts := ((forwarded.splitOn comma).map trim).filter (· ≠ [])
  let idx : ℚ := parts.length-hops
  if 0 ≤ idx && idx.den = 1 then parts[idx.num.toNat]? else none

def unknownIp : Text := js "unknown"

def getClientIp (cfg : GateConfig) (h : Headers) : Text :=
  let platform := if cfg.clientIpHeader = [] then none else present (get h cfg.clientIpHeader)
  match platform with
  | some v => trim ((v.splitOn comma).headD [])
  | none =>
    let entry := if 0 < cfg.trustedProxyHops then
        (present (get h (js "x-forwarded-for"))).bind (forwardedEntry cfg.trustedProxyHops)
      else none
    match entry with
    | some ip => ip
    | none =>
      match present (get h (js "x-real-ip")) with
      | some real => trim real
      | none => unknownIp

def setSome (h : Headers) (name : Text) (value : Option Text) : Option Headers :=
  match value with
  | some v => set h name v
  | none => some h

def passThrough (cfg : GateConfig) (s : IdSource) (r : Request)
    (keyLabel keyIssuer : Option Text) : Option Headers := do
  let ip := getClientIp cfg r.headers
  let identified ← set r.headers requestIdHeader (resolveRequestId s r)
  let stripped := delete (delete (delete identified keyLabelHeader) keyIssuerHeader)
    clientIpForwardHeader
  let labelled ← setSome stripped keyLabelHeader (present keyLabel)
  let bound ← setSome labelled keyIssuerHeader (present keyIssuer)
  setSome bound clientIpForwardHeader (if ip = unknownIp then none else some ip)

def publicPaths : List Text :=
  [js "/api/health", js "/api/readyz", js "/api/well-known/aitp-manifest",
    js "/api/registry/enroll", js "/api/registry/agents", js "/api/metrics"]

/-- One path segment, not empty. -/
def isSegment (t : Text) : Bool := t ≠ [] && !t.contains slash

def isPublicGet (pathname : Text) : Bool :=
  let base := js "/api/registry/agents/"
  let suffix := js "/manifest"
  let rest := pathname.drop base.length
  base.isPrefixOf pathname && (isSegment rest ||
    (suffix.isSuffixOf rest && isSegment (rest.take (rest.length-suffix.length))))

def isPublicRequest (pathname method : Text) : Bool :=
  publicPaths.contains pathname || (method = js "GET" && isPublicGet pathname)

def rateLimitExemptPaths : List Text := [js "/api/health", js "/api/readyz", js "/api/metrics"]

structure RateLimitChoice where
  bucketName : Text
  key : Text
  limit : ℚ
  deriving DecidableEq, Repr

def chooseRateLimit (cfg : GateConfig) (r : Request) (token : Option Text) (isPublic : Bool) :
    RateLimitChoice :=
  let ip := getClientIp cfg r.headers
  if r.pathname = js "/api/registry/enroll" then
    ⟨js "enroll-ip", ip, cfg.rateLimitEnrollPerIpMin⟩
  else
    match isPublic, present token with
    | false, some t => ⟨js "api-key", t.take 24, cfg.rateLimitApiKeyMin⟩
    | _, _ => ⟨js "public-ip", ip, cfg.rateLimitPublicPerIpMin⟩

def bearerToken (authHeader : Text) : Option Text :=
  if (js "Bearer ").isPrefixOf authHeader then some (authHeader.drop 7)
  else present (some authHeader)

inductive Answer where
  | next
  | preflight
  | denied (problem : Problem)
  | threw
  | forward (headers : Headers)

/-- The label and the bound issuer of the key that authenticates a request;
an error is the answer of the gate. -/
def authenticate (cfg : GateConfig) (r : Request) (token : Option Text) (isPublic : Bool) :
    Except Problem (Option Text × Option Text) :=
  let issuerKey := if r.pathname = js "/api/revocations" && r.method = js "GET" then
      (present token).bind (fun t => cfg.issuerKeyEntries.find? (·.key = t))
    else none
  match issuerKey with
  | some e => .ok (some e.label, some e.aid)
  | none =>
    if isPublic then .ok (none, none)
    else if cfg.apiKeyEntries = [] then
      if cfg.isProduction then
        .error ⟨503, js "server misconfigured: API_KEYS is required in production",
          js "SERVER_MISCONFIGURED"⟩
      else .ok (none, none)
    else
      match (present token).bind (fun t => cfg.apiKeyEntries.find? (·.key = t)) with
      | some e => .ok (some e.label, none)
      | none => .error ⟨401, js "Unauthorized", js "INVALID_API_KEY"⟩

/-- `allowed` is the decision of the rate limiter. -/
def proxy (cfg : GateConfig) (s : IdSource) (allowed : RateLimitChoice → Bool) (r : Request) :
    Answer :=
  if !(js "/api/").isPrefixOf r.pathname then .next
  else if r.method = js "OPTIONS" then .preflight
  else
    let isPublic := isPublicRequest r.pathname r.method
    let token := bearerToken ((get r.headers (js "authorization")).getD [])
    match authenticate cfg r token isPublic with
    | .error problem => .denied problem
    | .ok (keyLabel, keyIssuer) =>
      if cfg.rateLimitEnabled && !rateLimitExemptPaths.contains r.pathname &&
          !allowed (chooseRateLimit cfg r token isPublic) then
        .denied ⟨429, js "rate limit exceeded", js "RATE_LIMITED"⟩
      else
        match passThrough cfg s r keyLabel keyIssuer with
        | some headers => .forward headers
        | none => .threw

end ControlPlane.RequestGate
