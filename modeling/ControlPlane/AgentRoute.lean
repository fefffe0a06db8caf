import ControlPlane.AdminRoutes
import ControlPlane.EnrollmentToken

/-!
# Registering an agent

`POST /api/registry/agents`: the checks of the manifest and its columns, in
the order of the handler, the token, the transaction that consumes it, the
event and the audit row.
-/

set_option autoImplicit false

namespace ControlPlane.AgentRoute
open ControlPlane.JsText ControlPlane.JsValue ControlPlane.HttpValidate ControlPlane.RequestGate
open ControlPlane.AdminAudit ControlPlane.AdminRoutes ControlPlane.EnrollmentToken

def manifestBodyMaxBytes : ℕ := 262144

def aidMax : ℕ := 512

def displayNameMax : ℕ := 256

def namespaceMax : ℕ := 128

def registrationExpiryGuardMs : ℤ := 300000

def supportedManifestVersion : Text := js "aitp/0.3"

def nullish (v : Option Json) (default : Json) : Json :=
  match v with
  | none => default
  | some .null => default
  | some w => w

def isAbsent (v : Option Json) : Bool :=
  match v with
  | none => true
  | some .null => true
  | _ => false

def checkCap : Json → Option Text
  | .str cap =>
    if hasNul cap then
      some (js "manifest.offered_capabilities entries must not contain a NUL character")
    else if !isWellFormed cap then
      some (js "manifest.offered_capabilities entries must be well-formed Unicode")
    else none
  | _ => some (js "manifest.offered_capabilities must be an array of strings")

def checkCaps (m : Json) : Option Text :=
  match nullish (m.get (js "offered_capabilities")) (.arr []) with
  | .arr caps => caps.findSome? checkCap
  | _ => some (js "manifest.offered_capabilities must be an array of strings")

def checkAid (m : Json) : Option Text :=
  match m.get (js "aid") with
  | some (.str aid) => checkColumnString aid (js "manifest.aid") aidMax none
  | _ => some (js "manifest.aid must be a string")

def displayName (m : Json) : Json :=
  nullish (m.get (js "display_name")) ((m.get (js "aid")).getD .null)

def checkDisplayName (m : Json) : Option Text :=
  match displayName m with
  | .str name =>
    checkColumnString name
      (if isAbsent (m.get (js "display_name")) then
        js "manifest.aid (used as the display name when manifest.display_name is absent)"
      else js "manifest.display_name") displayNameMax none
  | _ => some (js "manifest.display_name must be a string when present")

def checkEndpoint (m : Json) : Option Text :=
  match m.get (js "handshake_endpoint") with
  | some (.str endpoint) =>
    if hasNul endpoint then
      some (js "manifest.handshake_endpoint must not contain a NUL character")
    else none
  | _ => some (js "manifest.handshake_endpoint must be a string")

def expiresAtMinSecs : ℚ := -62135596800

def expiresAtMaxSecs : ℚ := 253402300799

def checkExpiresAt (m : Json) : Option Text :=
  let message :=
    js "manifest.expires_at must be a Unix timestamp in seconds between year 0001 and 9999"
  match m.get (js "expires_at") with
  | none => none
  | some .null => none
  | some (.num (.finite e)) =>
    if e = 0 || (expiresAtMinSecs ≤ e && e ≤ expiresAtMaxSecs) then none else some message
  | some _ => some message

def checkManifestColumns (m : Json) : Option Text :=
  match m with
  | .obj _ =>
    (((checkAid m).or (checkDisplayName m)).or (checkEndpoint m)).or
      ((checkCaps m).or (checkExpiresAt m))
  | _ => some (js "manifest must be an object")

theorem columns_none (m : Json) (h : checkManifestColumns m = none) :
    checkAid m = none ∧ checkDisplayName m = none ∧ checkEndpoint m = none ∧
      checkCaps m = none ∧ checkExpiresAt m = none := by
  unfold checkManifestColumns at h
  split at h
  · simp only [Option.or_eq_none_iff] at h
    exact ⟨h.1.1.1, h.1.1.2, h.1.2, h.2.1, h.2.2⟩
  · cases h

/-- `exp * 1000 < now + guard`, for an expiry that is present and not zero. -/
def expiresTooSoon (now : Instant) (m : Json) : Bool :=
  match m.get (js "expires_at") with
  | some (.num (.finite e)) =>
    e ≠ 0 && (match toDouble (e*1000) with
      | .finite ms => ms < now+registrationExpiryGuardMs
      | .infinite negative => negative)
  | _ => false

def tokenInvalid (message : Text) : Problem := ⟨401, message, js "TOKEN_INVALID"⟩

structure Service where
  platform : Platform
  secret : Option Text

def serverMisconfigured : Problem :=
  ⟨503, js "agent registration is temporarily unavailable on this server",
    js "SERVER_MISCONFIGURED"⟩

def parseEnvelope (S : Service) (body : Text) : Except Problem Json :=
  match S.platform.parse body with
  | none => .error (badRequest (js "request body must be JSON ManifestEnvelope"))
  | some (.obj members) =>
    let manifest := (Json.obj members).get (js "manifest")
    if ((manifest.bind (·.get (js "aid"))).map Json.truthy).getD false then
      .ok (manifest.getD .null)
    else .error (badRequest (js "missing manifest.aid"))
  | some _ => .error (badRequest (js "request body must be a JSON object (ManifestEnvelope)"))

/-- An `aid` that is no string equals no `sub`. -/
def checkToken (S : Service) (now : Instant) (token : Text) (m : Json) (body : Text) :
    Except Problem Json :=
  match S.secret with
  | none => .error serverMisconfigured
  | some secret =>
    let expectedAid := (stringField m (js "aid")).getD (S.platform.template (m.get (js "aid")))
    match validateToken S.platform secret now token expectedAid body with
    | .error message => .error (tokenInvalid message)
    | .ok payload =>
      if (stringField m (js "aid")).isSome then .ok payload
      else .error (tokenInvalid (js "token sub "++expectedAid++
        js " does not match manifest aid "++expectedAid))

def headerNamespace (h : Headers) : Option Text := get h (js "x-aitp-namespace")

def checkHeaderNamespace (h : Headers) : Option Problem :=
  ((headerNamespace h).bind (fun name =>
    checkColumnString name (js "X-Aitp-Namespace") namespaceMax none)).map
      (fun message => ⟨400, message, js "BAD_REQUEST"⟩)

def extNamespace (m : Json) : Option Json :=
  (m.get (js "extensions")).bind (·.get (js "namespace"))

def checkExtNamespace (h : Headers) (m : Json) : Option Problem :=
  match extNamespace m with
  | none => none
  | some (.str name) =>
    if (headerNamespace h).isSome then none
    else (checkColumnString name (js "manifest.extensions.namespace") namespaceMax none).map
      badRequest
  | some _ => some (badRequest
      (js "manifest.extensions.namespace must be a string when present"))

def checkManifest (now : Instant) (h : Headers) (m : Json) : Option Problem :=
  ((checkHeaderNamespace h).or ((checkManifestColumns m).map badRequest)).or
    (if (m.get (js "version")).bind Json.string? ≠ some supportedManifestVersion then
      some ⟨400, js "manifest.version must be "++supportedManifestVersion++
        js " — re-enroll with a current SDK", js "MANIFEST_INVALID"⟩
    else if expiresTooSoon now m then
      some ⟨400,
        js "manifest expires_at is in the past or within 5 minutes — re-issue with a longer TTL",
        js "MANIFEST_EXPIRED"⟩
    else checkExtNamespace h m)

def agentNamespace (h : Headers) (m : Json) : Option Text :=
  (headerNamespace h).or ((extNamespace m).bind Json.string?)

def registeredPayload (h : Headers) (m : Json) : Json :=
  .obj [(js "displayName", displayName m),
    (js "namespace", .str ((agentNamespace h m).getD (js "default")))]

/-- `POST /api/registry/agents`. `registered` is the outcome of the transaction
that consumes the token, and nothing where it throws. -/
def registerAgent (S : Service) (now : Instant) (tooLarge : Bool) (body : Text)
    (registered : Option Bool) (h : Headers) (log : AuditLog) : Outcome :=
  if tooLarge then refuse (payloadTooLarge manifestBodyMaxBytes) log
  else
    let auth := (get h (js "authorization")).getD []
    let token := if (js "Bearer ").isPrefixOf auth then auth.drop 7 else auth
    match parseEnvelope S body with
    | .error problem => refuse problem log
    | .ok m =>
      match checkToken S now token m body with
      | .error problem => refuse problem log
      | .ok _ =>
        match checkManifest now h m with
        | some problem => refuse problem log
        | none =>
          match registered with
          | none => (.threw, log)
          | some false => refuse ⟨401, js "enrollment token already used", js "TOKEN_REPLAYED"⟩ log
          | some true =>
            if (registeredPayload h m).storable then
              audited 201 { action := js "agent.register", targetId := stringField m (js "aid"),
                            details := [] } (auditContext h (some (js "enrollment-token"))) log
            else (.threw, log)

end ControlPlane.AgentRoute
