import ControlPlane.AdminAudit
import ControlPlane.RevocationRoute

/-!
# The audited admin routes

The handlers that record revocations and change webhooks and trust anchors, as
far as their checks, their answer and their audit row go. What the database
finds (a row with the id, a held unique key) and what the webhook target guard
decides are inputs; both see whatever the checks let through.
-/

set_option autoImplicit false

namespace ControlPlane.AdminRoutes
open ControlPlane.JsText ControlPlane.JsValue ControlPlane.HttpValidate ControlPlane.RequestGate
open ControlPlane.AdminAudit ControlPlane.TctMonitor ControlPlane.RevocationRoute

/-- A body over its ceiling, or the value of its JSON text. -/
structure RequestBody where
  tooLarge : Bool
  parsed : Option Json

def adminJsonMaxBytes : ℕ := 65536

def payloadTooLarge (maxBytes : ℕ) : Problem :=
  ⟨413, js "request body exceeds "++number maxBytes++js " bytes", js "PAYLOAD_TOO_LARGE"⟩

def readJsonObject (b : RequestBody) : Except Problem Json :=
  if b.tooLarge then .error (payloadTooLarge adminJsonMaxBytes)
  else
    match b.parsed with
    | none => .error (badRequest (js "body must be JSON"))
    | some (.obj members) => .ok (.obj members)
    | some _ => .error (badRequest (js "body must be a JSON object"))

structure FreshId where
  text : Text
  valid : isUuid text = true

/-- The text of a date, as the runtime prints it. -/
structure Timestamp where
  text : Text
  valid : textStorable text = true

inductive Reply where
  | refused (problem : Problem)
  | threw
  | success (status : ℕ)
  deriving DecidableEq, Repr

abbrev Outcome := Reply × AuditLog

def refuse (problem : Problem) (log : AuditLog) : Outcome := (.refused problem, log)

/-- The end of a handler: one audit row, then the answer. -/
def audited (status : ℕ) (entry : AdminAuditEntry) (ctx : AuditContext) (log : AuditLog) :
    Outcome :=
  (.success status, writeAdminAudit entry ctx log)

def postRevocation (M : Monitor) (parseDate : Text → Option Instant) (now : Instant)
    (b : RequestBody) (h : Headers) (t : Tables) (log : AuditLog) : Outcome × Tables :=
  match readJsonObject b with
  | .error problem => (refuse problem log, t)
  | .ok body =>
    match post M parseDate now body t with
    | (.refused problem, u) => (refuse problem log, u)
    | (.threw, u) => ((.threw, log), u)
    | (.created r iss, u) =>
      (audited 201 { action := js "revocation.add", targetId := some r.jti,
                     details := [(js "reason", nullable r.reason), (js "iss", .str iss)] }
        (auditContext h none) log, u)

def invalidId : Problem := ⟨400, js "id must be a UUID", js "ID_INVALID"⟩

def notFound (error : Text) : Problem := ⟨404, error, js "NOT_FOUND"⟩

def deleteById (action : Text) (status : ℕ) (missing : Problem) (id : Text) (found : Bool)
    (h : Headers) (log : AuditLog) : Outcome :=
  if !isUuid id then refuse invalidId log
  else if found then
    audited status { action := action, targetId := some id, details := [] }
      (auditContext h none) log
  else refuse missing log

def deleteWebhook : Text → Bool → Headers → AuditLog → Outcome :=
  deleteById (js "webhook.delete") 200 (notFound (js "webhook not found"))

def deleteTrustAnchor : Text → Bool → Headers → AuditLog → Outcome :=
  deleteById (js "trust-anchor.delete") 204 (notFound (js "not found"))

/-- `POST /api/webhooks/:id/circuit-breaker/reset`, of any id. -/
def resetCircuitBreaker (id : Text) (h : Headers) (log : AuditLog) : Outcome :=
  if !isUuid id then refuse invalidId log
  else audited 200 { action := js "webhook.circuit-breaker.reset", targetId := some id,
                     details := [] } (auditContext h none) log

def stringField (body : Json) (key : Text) : Option Text := (body.get key).bind Json.string?

def boolField (body : Json) (key : Text) : Option Bool :=
  match body.get key with
  | some (.bool b) => some b
  | _ => none

/-- The strings of `events`, where it is an array. -/
def webhookEvents (body : Json) : Option (List Text) :=
  match body.get (js "events") with
  | some (.arr items) => some (items.filterMap Json.string?)
  | _ => none

def checkEvents : List Text → Option Text
  | [] => none
  | e::es =>
    if hasNul e then some (js "events must not contain a NUL character")
    else if !isWellFormed e then some (js "events entries must be well-formed Unicode")
    else checkEvents es

def webhookSecretMax : ℕ := 255

def checkUrl (body : Json) : Option Text :=
  match stringField body (js "url") with
  | some url => if hasNul url then some (js "url must not contain a NUL character") else none
  | none => none

def checkSecret (body : Json) : Option Text :=
  (stringField body (js "secret")).bind
    (fun secret => checkColumnString secret (js "secret") webhookSecretMax none)

def checkWebhookFields (body : Json) : Option Text :=
  ((checkUrl body).or (checkEvents ((webhookEvents body).getD []))).or (checkSecret body)

/-- `assertSafe` gives the message of an unsafe target. -/
def urlNotAllowed (message : Text) : Problem := ⟨400, message, js "URL_NOT_ALLOWED"⟩

def textArray (ts : List Text) : Json := .arr (ts.map .str)

/-- `POST /api/webhooks`: the audit row has the stored URL. -/
def createWebhook (assertSafe : Text → Option Text) (id : FreshId) (b : RequestBody)
    (h : Headers) (log : AuditLog) : Outcome :=
  match readJsonObject b with
  | .error problem => refuse problem log
  | .ok body =>
    match stringField body (js "url") with
    | none => refuse (badRequest (js "url must be an http(s) URL")) log
    | some url =>
      match checkWebhookFields body with
      | some message => refuse (badRequest message) log
      | none =>
        match assertSafe url with
        | some message => refuse (urlNotAllowed message) log
        | none =>
          audited 201 { action := js "webhook.create", targetId := some id.text,
                        details := [(js "url", .str (toWellFormed url)),
                          (js "events", textArray ((webhookEvents body).getD []))] }
            (auditContext h none) log

def member (key : Text) (value : Option Json) : List (Text × Json) :=
  (value.map (fun v => (key, v))).toList

/-- The changed fields, and of the secret only that it was rotated. -/
def webhookUpdateDetails (body : Json) : List (Text × Json) :=
  member (js "url") ((stringField body (js "url")).map .str)++
    member (js "events") ((webhookEvents body).map textArray)++
      member (js "active") ((boolField body (js "active")).map .bool)++
        member (js "secretRotated") ((stringField body (js "secret")).map (fun _ => .bool true))

def updateWebhook (assertSafe : Text → Option Text) (id : Text) (found : Bool) (b : RequestBody)
    (h : Headers) (log : AuditLog) : Outcome :=
  if !isUuid id then refuse invalidId log
  else
    match readJsonObject b with
    | .error problem => refuse problem log
    | .ok body =>
      match checkWebhookFields body with
      | some message => refuse (badRequest message) log
      | none =>
        match (stringField body (js "url")).bind assertSafe with
        | some message => refuse (urlNotAllowed message) log
        | none =>
          if found then
            audited 200 { action := js "webhook.update", targetId := some id,
                          details := webhookUpdateDetails body } (auditContext h none) log
          else refuse (notFound (js "webhook not found")) log

def nameMax : ℕ := 128

def urlMax : ℕ := 2048

/-- The message for a text that is no URL or that its column cannot hold. -/
def checkUrlColumn (field : Text) (maxBytes : Option ℕ) (url : Text) : Option Text :=
  if !isHttpUrl url then some (field++js " must be an http(s) URL")
  else checkColumnString url field urlMax maxBytes

def checkIssuerUrl : Text → Option Text := checkUrlColumn (js "issuerUrl") (some urlMax)

def checkJwksUrl : Text → Option Text := checkUrlColumn (js "jwksUrl") none

def checkName (field name : Text) : Option Text := checkColumnString name field nameMax none

def alreadyExists : Problem :=
  ⟨409, js "trust anchor already exists for this (namespace, issuerUrl)"++
    js " — PATCH the existing id to update", js "ALREADY_EXISTS"⟩

structure TrustAnchor where
  namespace_ : Text
  issuerUrl : Text
  jwksUrl : Option Text
  label : Option Text
  deriving DecidableEq, Repr

def readTrustAnchor (body : Json) : Except Text TrustAnchor :=
  match stringField body (js "issuerUrl") with
  | none => .error (js "issuerUrl must be an http(s) URL")
  | some issuerUrl =>
    let name := (nonEmptyString (body.get (js "namespace"))).getD (js "default")
    let jwksUrl := nonEmptyString (body.get (js "jwksUrl"))
    let label := stringField body (js "label")
    match (((checkIssuerUrl issuerUrl).or (checkName (js "namespace") name)).or
        (jwksUrl.bind checkJwksUrl)).or (label.bind (checkName (js "label"))) with
    | some message => .error message
    | none => .ok ⟨name, issuerUrl, jwksUrl, label⟩

def createTrustAnchor (id : FreshId) (conflict : Bool) (b : RequestBody) (h : Headers)
    (log : AuditLog) : Outcome :=
  match readJsonObject b with
  | .error problem => refuse problem log
  | .ok body =>
    match readTrustAnchor body with
    | .error message => refuse (badRequest message) log
    | .ok anchor =>
      if conflict then refuse alreadyExists log
      else audited 201 { action := js "trust-anchor.create", targetId := some id.text,
                         details := [(js "namespace", .str anchor.namespace_),
                           (js "issuerUrl", .str anchor.issuerUrl)] } (auditContext h none) log

structure AnchorChanges where
  issuerUrl : Option Text
  jwksUrl : Option (Option Text)
  label : Option (Option Text)
  deriving DecidableEq, Repr

/-- An absent or unusable field, a cleared one, or a text. -/
def clearable (emptyClears : Bool) (v : Option Json) : Option (Option Text) :=
  match v with
  | some (.str []) => some (if emptyClears then none else some [])
  | some (.str t) => some (some t)
  | some .null => some none
  | _ => none

def readAnchorChanges (body : Json) : Except Text AnchorChanges :=
  let issuerUrl := stringField body (js "issuerUrl")
  let jwksUrl := clearable true (body.get (js "jwksUrl"))
  let label := clearable false (body.get (js "label"))
  match ((issuerUrl.bind checkIssuerUrl).or (jwksUrl.join.bind checkJwksUrl)).or
      (label.join.bind (checkName (js "label"))) with
  | some message => .error message
  | none => .ok ⟨issuerUrl, jwksUrl, label⟩

def anchorUpdateDetails (changes : AnchorChanges) (updatedAt : Text) : List (Text × Json) :=
  member (js "issuerUrl") (changes.issuerUrl.map .str)++
    member (js "jwksUrl") (changes.jwksUrl.map nullable)++
      member (js "label") (changes.label.map nullable)++[(js "updatedAt", .str updatedAt)]

def updateTrustAnchor (id : Text) (found conflict : Bool) (updatedAt : Timestamp)
    (b : RequestBody) (h : Headers) (log : AuditLog) : Outcome :=
  if !isUuid id then refuse invalidId log
  else
    match readJsonObject b with
    | .error problem => refuse problem log
    | .ok body =>
      match readAnchorChanges body with
      | .error message => refuse (badRequest message) log
      | .ok changes =>
        if conflict && changes.issuerUrl.isSome then refuse alreadyExists log
        else if conflict then (.threw, log)
        else if found then
          audited 200 { action := js "trust-anchor.update", targetId := some id,
                        details := anchorUpdateDetails changes updatedAt.text }
            (auditContext h none) log
        else refuse (notFound (js "not found")) log

end ControlPlane.AdminRoutes
