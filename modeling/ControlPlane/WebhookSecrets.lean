import Mathlib.Logic.Equiv.Basic
import ControlPlane.AdminRoutes
import ControlPlane.Idempotency
import ControlPlane.RenamedRuns

/-!
# The secrets of webhooks

The admin routes of webhooks, one statement at a time: `POST`, `PATCH`,
`DELETE` and the listing, with the stored responses of `POST`. The secret of a
webhook is told by the answer that creates it. Otherwise the routes behave the
same whatever the secrets are: a run with other secrets in it is the same run.
-/

set_option autoImplicit false

namespace ControlPlane.WebhookSecrets
open ControlPlane.JsText ControlPlane.JsValue ControlPlane.HttpValidate ControlPlane.AdminAudit
open ControlPlane.AdminRoutes ControlPlane.Idempotency
open ControlPlane.RunMachine ControlPlane.NamedPool ControlPlane.RenamedRuns
open ControlPlane.RequestGate (Headers)

section Secrets

def secretProblem (t : Text) : Option Text :=
  checkColumnString t (js "secret") webhookSecretMax none

/-- A secret that has passed its check. -/
abbrev Given := {t : Text // secretProblem t = none}

/-- A secret in its column. -/
abbrev Secret := {t : Text // secretProblem t = none ∧ isWellFormed t = true}

theorem secretProblem_fits (t : Text) :
    secretProblem t = none ↔ fitsVarchar webhookSecretMax t = true := by
  rw [secretProblem, checkColumnString_iff, fitsVarchar_iff]

theorem secretProblem_toWellFormed (t : Text) (h : secretProblem t = none) :
    secretProblem (toWellFormed t) = none := by
  rw [secretProblem_fits] at h ⊢
  rwa [fits_toWellFormed]

/-- The encoder of a statement replaces lone surrogates. -/
def stored (g : Given) : Secret :=
  ⟨toWellFormed g.val, secretProblem_toWellFormed g.val g.property, isWellFormed_toWellFormed g.val⟩

def given (s : Secret) : Given := ⟨s.val, s.property.1⟩

theorem stored_given (s : Secret) : stored (given s) = s :=
  Subtype.ext (toWellFormed_of_isWellFormed s.val s.property.2)

theorem secret_storable (s : Secret) : textStorable s.val = true := by
  have hfits := (secretProblem_fits s.val).mp s.property.1
  simp only [fitsVarchar, Bool.and_eq_true] at hfits
  simp [textStorable, s.property.2, hfits.1]

end Secrets

section Route

structure Webhook where
  id : Text
  url : Text
  events : List Text
  secret : Secret
  active : Bool
  createdAt : Instant
  updatedAt : Instant

/-- `CreateWebhookInput` -/
structure Draft where
  url : Text
  events : List Text
  secret : Option Given
  active : Bool

/-- `UpdateWebhookInput` -/
structure Patch where
  url : Option Text
  events : Option (List Text)
  secret : Option Given
  active : Option Bool

structure Listed where
  id : Text
  url : Text
  events : List Text
  active : Bool
  createdAt : Instant
  updatedAt : Instant
  deriving DecidableEq

structure Created where
  id : Text
  url : Text
  events : List Text
  secret : Secret
  active : Bool
  createdAt : Instant
  deriving DecidableEq

structure Updated where
  id : Text
  url : Text
  events : List Text
  active : Bool
  updatedAt : Instant
  deriving DecidableEq

inductive Answer where
  | refused (problem : Problem)
  | threw
  | listed (ws : List Listed)
  | created (c : Created)
  | updated (u : Updated)
  | deleted (id : Text)
  deriving DecidableEq

def Webhook.listed (w : Webhook) : Listed :=
  ⟨w.id, w.url, w.events, w.active, w.createdAt, w.updatedAt⟩

def Webhook.created (w : Webhook) : Created :=
  ⟨w.id, w.url, w.events, w.secret, w.active, w.createdAt⟩

def Webhook.updated (w : Webhook) : Updated := ⟨w.id, w.url, w.events, w.active, w.updatedAt⟩

inductive Request where
  | list
  | create (h : Headers) (b : RequestBody)
  | update (h : Headers) (id : Text) (b : RequestBody)
  | remove (h : Headers) (id : Text)

def Request.headers : Request → Headers
  | .list => []
  | .create h _ => h
  | .update h _ _ => h
  | .remove h _ => h

/-- `keyed` looks up the idempotency key, `finished` has the result of the
handler of `POST`, and `closing` writes the audit row of another route. -/
inductive Phase where
  | received
  | listing
  | keyed (body : Json)
  | running (body : Json)
  | vetting (d : Draft)
  | inserting (d : Draft)
  | reading (id : Text)
  | noting (e : AdminAuditEntry) (a : Answer)
  | finished (a : Answer)
  | persisted (a : Answer)
  | vettingPatch (id : Text) (p : Patch)
  | updating (id : Text) (p : Patch)
  | removing (id : Text)
  | closing (e : AdminAuditEntry) (a : Answer)
  | answered (a : Answer) (replayed : Bool)

structure Thread where
  request : Request
  phase : Phase

structure World where
  now : Instant
  webhooks : List Webhook
  responses : List (StoredResponse Answer)
  log : AuditLog

/-- How a statement ends, the listing in the order that the database gives it,
what `assertSafeWebhookUrl` finds, and the random id and secret of a new
webhook. -/
inductive Io where
  | ok
  | fault
  | rows (rs : List Listed)
  | vetted (problem : Option Text)
  | ids (id : FreshId) (secret : Given)

def scope : Text := js "webhooks.create"

def refusal (problem : Problem) : Phase := .answered (.refused problem) false

def threw : Phase := .answered .threw false

/-- What is left of the secret of a body after `checkWebhookFields`. -/
def givenSecret (body : Json) : Option Given :=
  (stringField body (js "secret")).bind
    (fun t => if h : secretProblem t = none then some ⟨t, h⟩ else none)

def readDraft (url : Text) (body : Json) : Draft where
  url := url
  events := (webhookEvents body).getD []
  secret := givenSecret body
  active := (boolField body (js "active")).getD true

def readPatch (body : Json) : Patch where
  url := stringField body (js "url")
  events := webhookEvents body
  secret := givenSecret body
  active := boolField body (js "active")

def beginPatch (id : Text) (p : Patch) : Phase :=
  if p.url.isSome then .vettingPatch id p else .updating id p

def begin : Request → Phase
  | .list => .listing
  | .create h b =>
    match readJsonObject b with
    | .error problem => refusal problem
    | .ok body =>
      match keyHeader h with
      | .absent => .running body
      | .invalid => refusal keyInvalid
      | .key _ => .keyed body
  | .update _ id b =>
    if !isUuid id then refusal invalidId
    else
      match readJsonObject b with
      | .error problem => refusal problem
      | .ok body =>
        match checkWebhookFields body with
        | some message => refusal (badRequest message)
        | none => beginPatch id (readPatch body)
  | .remove _ id => if !isUuid id then refusal invalidId else .removing id

def lookupStep (w : World) (q : Request) (body : Json) : Phase :=
  match keyHeader q.headers with
  | .key k =>
    match lookup w.responses scope k with
    | some row => .answered row.responseBody true
    | none => .running body
  | _ => .running body

def checkStep (body : Json) : Phase :=
  match stringField body (js "url") with
  | none => .finished (.refused (badRequest (js "url must be an http(s) URL")))
  | some url =>
    match checkWebhookFields body with
    | some message => .finished (.refused (badRequest message))
    | none => .vetting (readDraft url body)

/-- How a `uuid` column gives a text back. -/
def uuidText (t : Text) : Text := t.map lowerUnit

def newRow (now : Instant) (d : Draft) (id : FreshId) (secret : Given) : Webhook where
  id := uuidText id.text
  url := toWellFormed d.url
  events := d.events
  secret := stored (d.secret.getD secret)
  active := d.active
  createdAt := now
  updatedAt := now

def insertStep (w : World) (d : Draft) (id : FreshId) (secret : Given) : World × Phase :=
  if w.webhooks.any (fun x => x.id = uuidText id.text) then (w, threw)
  else ({ w with webhooks := w.webhooks++[newRow w.now d id secret] }, .reading id.text)

def createEntry (x : Webhook) : AdminAuditEntry where
  action := js "webhook.create"
  targetId := some x.id
  details := [(js "url", .str x.url), (js "events", textArray x.events)]

def find (w : World) (id : Text) : Option Webhook :=
  w.webhooks.find? (fun x => x.id = uuidText id)

/-- `created[0]!` throws when the row is gone. -/
def readStep (w : World) (id : Text) : Phase :=
  match find w id with
  | some x => .noting (createEntry x) (.created x.created)
  | none => threw

def updateRow (now : Instant) (p : Patch) (x : Webhook) : Webhook :=
  { x with url := (p.url.map toWellFormed).getD x.url, events := p.events.getD x.events,
           secret := (p.secret.map stored).getD x.secret, active := p.active.getD x.active,
           updatedAt := now }

def patchRows (now : Instant) (p : Patch) (id : Text) (rows : List Webhook) : List Webhook :=
  rows.map (fun x => if x.id = id then updateRow now p x else x)

def updateAction : Text := js "webhook.update"

/-- The changed fields, and of the secret only that it was rotated. -/
def updateEntry (id : Text) (p : Patch) : AdminAuditEntry where
  action := updateAction
  targetId := some id
  details := member (js "url") (p.url.map .str)++
    member (js "events") (p.events.map textArray)++
      member (js "active") (p.active.map .bool)++
        member (js "secretRotated") (p.secret.map (fun _ => .bool true))

def webhookMissing : Phase := refusal (notFound (js "webhook not found"))

def updateStep (w : World) (id : Text) (p : Patch) : World × Phase :=
  match find w id with
  | some x =>
    ({ w with webhooks := patchRows w.now p x.id w.webhooks },
      .closing (updateEntry id p) (.updated (updateRow w.now p x).updated))
  | none => (w, webhookMissing)

def deleteEntry (id : Text) : AdminAuditEntry := ⟨js "webhook.delete", some id, []⟩

def removeStep (w : World) (id : Text) : World × Phase :=
  match find w id with
  | some x =>
    ({ w with webhooks := w.webhooks.filter (fun y => y.id ≠ x.id) },
      .closing (deleteEntry id) (.deleted id))
  | none => (w, webhookMissing)

def note (w : World) (q : Request) (e : AdminAuditEntry) : World :=
  { w with log := writeAdminAudit e (auditContext q.headers none) w.log }

/-- A failed insert is counted, and the request goes on. -/
def unnoted (w : World) : World :=
  { w with log := { w.log with insertFailures := w.log.insertFailures+1 } }

def answerStatus : Answer → ℕ
  | .refused problem => problem.status
  | .threw => 500
  | .created _ => 201
  | _ => 200

/-- A stored response is a JSON column. -/
def answerStorable : Answer → Bool
  | .refused problem => textStorable problem.error && textStorable problem.code
  | .created c =>
    textStorable c.id && textStorable c.url && c.events.all textStorable && textStorable c.secret
  | _ => true

def persistStep (stores : Bool) (w : World) (q : Request) (a : Answer) : World × Phase :=
  match keyHeader q.headers with
  | .key k =>
    if isCacheable (answerStatus a) then
      if stores && answerStorable a then
        ({ w with responses := persist w.responses scope k (answerStatus a) a }, .persisted a)
      else (w, .answered a false)
    else (w, .answered a false)
  | _ => (w, .answered a false)

def settleStep (w : World) (q : Request) (a : Answer) : Phase :=
  match keyHeader q.headers with
  | .key k =>
    let response := settle w.responses scope k (answerStatus a) a
    .answered response.body response.replayed
  | _ => .answered a false

def routeStep (q : Request) (w : World) : Io → Phase → Option (World × Phase)
  | .ok, .received => some (w, begin q)
  | .rows rs, .listing =>
    if rs.isPerm (w.webhooks.map Webhook.listed) then some (w, .answered (.listed rs) false)
    else none
  | .ok, .keyed body => some (w, lookupStep w q body)
  | .ok, .running body => some (w, checkStep body)
  | .vetted none, .vetting d => some (w, .inserting d)
  | .vetted (some message), .vetting _ => some (w, .finished (.refused (urlNotAllowed message)))
  | .ids id secret, .inserting d => some (insertStep w d id secret)
  | .ok, .reading id => some (w, readStep w id)
  | .ok, .noting e a => some (note w q e, .finished a)
  | .fault, .noting _ a => some (unnoted w, .finished a)
  | .ok, .finished a => some (persistStep true w q a)
  | .fault, .finished a => some (persistStep false w q a)
  | .ok, .persisted a => some (w, settleStep w q a)
  | .vetted none, .vettingPatch id p => some (w, .updating id p)
  | .vetted (some message), .vettingPatch _ _ => some (w, refusal (urlNotAllowed message))
  | .ok, .updating id p => some (updateStep w id p)
  | .ok, .removing id => some (removeStep w id)
  | .ok, .closing e a => some (note w q e, .answered a false)
  | .fault, .closing _ a => some (unnoted w, .answered a false)
  | .fault, .received => none
  | .fault, .running _ => none
  | .fault, .answered _ _ => none
  | .fault, _ => some (w, threw)
  | _, _ => none

def act (_ : ℕ) (io : Io) (w : World) (t : Thread) : Option (World × Thread) :=
  (routeStep t.request w io t.phase).map (fun r => (r.1, ⟨t.request, r.2⟩))

/-- `audited` is the audit row of a route of something else. -/
inductive Env where
  | tick (t : Instant)
  | audited (e : AdminAuditEntry) (ctx : AuditContext)

def env : Env → World → Option World
  | .tick t, w => if w.now ≤ t then some { w with now := t } else none
  | .audited e ctx, w =>
    if e.action = updateAction then none else some { w with log := writeAdminAudit e ctx w.log }

def admin : System World ℕ Thread Env Io Request := ⟨env, fun q => ⟨q, .received⟩, act⟩

end Route

section Renaming
variable (f : Secret → Secret)

def renameGiven (g : Given) : Given := given (f (stored g))

def renameText (t : Text) : Text :=
  if h : secretProblem t = none then (renameGiven f ⟨t, h⟩).val else t

def renameMember (m : Text × Json) : Text × Json :=
  match m with
  | (k, .str t) => if k = js "secret" then (k, .str (renameText f t)) else (k, .str t)
  | (k, v) => (k, v)

/-- Another secret in a body; one that is refused stays. -/
def renameSecret : Json → Json
  | .obj members => .obj (members.map (renameMember f))
  | v => v

def renameBody (b : RequestBody) : RequestBody := ⟨b.tooLarge, b.parsed.map (renameSecret f)⟩

def renameWebhook (x : Webhook) : Webhook := { x with secret := f x.secret }

def renameDraft (d : Draft) : Draft := { d with secret := d.secret.map (renameGiven f) }

def renamePatch (p : Patch) : Patch := { p with secret := p.secret.map (renameGiven f) }

def renameAnswer : Answer → Answer
  | .created c => .created { c with secret := f c.secret }
  | a => a

def renameRequest : Request → Request
  | .list => .list
  | .create h b => .create h (renameBody f b)
  | .update h id b => .update h id (renameBody f b)
  | .remove h id => .remove h id

def renamePhase : Phase → Phase
  | .keyed body => .keyed (renameSecret f body)
  | .running body => .running (renameSecret f body)
  | .vetting d => .vetting (renameDraft f d)
  | .inserting d => .inserting (renameDraft f d)
  | .noting e a => .noting e (renameAnswer f a)
  | .finished a => .finished (renameAnswer f a)
  | .persisted a => .persisted (renameAnswer f a)
  | .vettingPatch id p => .vettingPatch id (renamePatch f p)
  | .updating id p => .updating id (renamePatch f p)
  | .closing e a => .closing e (renameAnswer f a)
  | .answered a replayed => .answered (renameAnswer f a) replayed
  | ph => ph

def renameResponse (r : StoredResponse Answer) : StoredResponse Answer :=
  { r with responseBody := renameAnswer f r.responseBody }

def renameWorld (w : World) : World :=
  { w with webhooks := w.webhooks.map (renameWebhook f),
           responses := w.responses.map (renameResponse f) }

def renameIo : Io → Io
  | .ids id secret => .ids id (renameGiven f secret)
  | io => io

def otherSecrets : Renaming World Thread Env Io Request where
  world := renameWorld f
  thread := fun t => ⟨renameRequest f t.request, renamePhase f t.phase⟩
  env := id
  io := renameIo f
  request := renameRequest f

end Renaming

section Bodies
variable (f : Secret → Secret)

theorem renameText_problem (t : Text) :
    secretProblem (renameText f t) = secretProblem t := by
  unfold renameText
  split_ifs with h
  · rw [h]
    exact (renameGiven f ⟨t, h⟩).property
  · rfl

theorem renameMember_fst (m : Text × Json) : (renameMember f m).1 = m.1 := by
  obtain ⟨k, v⟩ := m
  cases v with
  | str t =>
    simp only [renameMember]
    split_ifs <;> rfl
  | _ => rfl

theorem lookup_rename (members : List (Text × Json)) (k : Text) :
    (members.map (renameMember f)).lookup k =
      (members.lookup k).map (fun v => (renameMember f (k, v)).2) := by
  induction members with
  | nil => rfl
  | cons m ms ih =>
    obtain ⟨j, v⟩ := m
    rw [List.map_cons, ← Prod.mk.eta (p := renameMember f (j, v)), renameMember_fst,
      List.lookup_cons, List.lookup_cons, ih]
    by_cases hk : k = j
    · subst hk
      simp
    · rw [beq_eq_false_iff_ne.mpr hk]

theorem get_rename (body : Json) (k : Text) :
    (renameSecret f body).get k = (body.get k).map (fun v => (renameMember f (k, v)).2) := by
  cases body with
  | obj members => exact lookup_rename f members k
  | _ => rfl

theorem get_other (body : Json) (k : Text) (hk : k ≠ js "secret") :
    (renameSecret f body).get k = body.get k := by
  rw [get_rename]
  cases body.get k with
  | none => rfl
  | some v => cases v <;> simp [renameMember, hk]

theorem secret_rename (body : Json) : stringField (renameSecret f body) (js "secret") =
    (stringField body (js "secret")).map (renameText f) := by
  rw [stringField, stringField, get_rename]
  cases body.get (js "secret") with
  | none => rfl
  | some v => cases v <;> simp [renameMember, Json.string?]

theorem url_rename (body : Json) :
    stringField (renameSecret f body) (js "url") = stringField body (js "url") := by
  rw [stringField, stringField, get_other f body _ (by decide)]

theorem events_rename (body : Json) : webhookEvents (renameSecret f body) = webhookEvents body := by
  rw [webhookEvents, webhookEvents, get_other f body _ (by decide)]

theorem active_rename (body : Json) :
    boolField (renameSecret f body) (js "active") = boolField body (js "active") := by
  rw [boolField, boolField, get_other f body _ (by decide)]

theorem fields_rename (body : Json) :
    checkWebhookFields (renameSecret f body) = checkWebhookFields body := by
  have hsecret : checkSecret (renameSecret f body) = checkSecret body := by
    rw [checkSecret, checkSecret, secret_rename, Option.bind_map]
    congr 1
    funext t
    exact renameText_problem f t
  rw [checkWebhookFields, checkWebhookFields, checkUrl, checkUrl, url_rename, events_rename,
    hsecret]

theorem given_rename (body : Json) :
    givenSecret (renameSecret f body) = (givenSecret body).map (renameGiven f) := by
  rw [givenSecret, givenSecret, secret_rename]
  cases stringField body (js "secret") with
  | none => rfl
  | some t =>
    have hproblem := renameText_problem f t
    by_cases h : secretProblem t = none
    · have h' : secretProblem (renameText f t) = none := hproblem.trans h
      simp only [Option.map_some, Option.bind_some, dif_pos h, dif_pos h', Option.some.injEq]
      apply Subtype.ext
      simp only [renameText, dif_pos h]
    · have h' : ¬secretProblem (renameText f t) = none := fun hn => h (hproblem.symm.trans hn)
      simp only [Option.map_some, Option.bind_some, dif_neg h, dif_neg h', Option.map_none]

theorem draft_rename (url : Text) (body : Json) :
    readDraft url (renameSecret f body) = renameDraft f (readDraft url body) := by
  rw [readDraft, events_rename, given_rename, active_rename]
  rfl

theorem patch_rename (body : Json) :
    readPatch (renameSecret f body) = renamePatch f (readPatch body) := by
  rw [readPatch, url_rename, events_rename, given_rename, active_rename]
  rfl

theorem object_rename (b : RequestBody) :
    readJsonObject (renameBody f b) = (readJsonObject b).map (renameSecret f) := by
  unfold readJsonObject renameBody
  split_ifs
  · rfl
  · cases b.parsed with
    | none => rfl
    | some v => cases v <;> rfl

end Bodies

section Steps
variable (f : Secret → Secret)

theorem beginPatch_rename (id : Text) (p : Patch) :
    beginPatch id (renamePatch f p) = renamePhase f (beginPatch id p) := by
  unfold beginPatch
  change (if p.url.isSome = true then _ else _) = _
  split_ifs <;> rfl

theorem begin_rename (q : Request) : begin (renameRequest f q) = renamePhase f (begin q) := by
  cases q with
  | list => rfl
  | create h b =>
    simp only [begin, renameRequest]
    rw [object_rename]
    cases readJsonObject b with
    | error problem => rfl
    | ok body =>
      simp only [Except.map]
      cases keyHeader h <;> rfl
  | update h id b =>
    simp only [begin, renameRequest]
    rw [object_rename]
    split_ifs
    · rfl
    · cases readJsonObject b with
      | error problem => rfl
      | ok body =>
        simp only [Except.map]
        rw [fields_rename, patch_rename, beginPatch_rename]
        cases checkWebhookFields body <;> rfl
  | remove h id =>
    simp only [begin, renameRequest]
    split_ifs <;> rfl

theorem headers_rename (q : Request) : (renameRequest f q).headers = q.headers := by
  cases q <;> rfl

theorem responses_rename (rows : List (StoredResponse Answer)) (k : Text) :
    lookup (rows.map (renameResponse f)) scope k =
      (lookup rows scope k).map (renameResponse f) := by
  rw [lookup, lookup, List.find?_map]
  rfl

theorem lookupStep_rename (w : World) (q : Request) (body : Json) :
    lookupStep (renameWorld f w) (renameRequest f q) (renameSecret f body) =
      renamePhase f (lookupStep w q body) := by
  unfold lookupStep
  rw [headers_rename]
  cases keyHeader q.headers with
  | key k =>
    simp only [renameWorld, responses_rename]
    cases lookup w.responses scope k <;> rfl
  | _ => rfl

theorem checkStep_rename (body : Json) :
    checkStep (renameSecret f body) = renamePhase f (checkStep body) := by
  unfold checkStep
  rw [url_rename, fields_rename]
  cases stringField body (js "url") with
  | none => rfl
  | some url =>
    dsimp only
    rw [draft_rename]
    cases checkWebhookFields body <;> rfl

theorem stored_rename (g : Given) : stored (renameGiven f g) = f (stored g) :=
  stored_given (f (stored g))

theorem newRow_rename (now : Instant) (d : Draft) (id : FreshId) (secret : Given) :
    newRow now (renameDraft f d) id (renameGiven f secret) =
      renameWebhook f (newRow now d id secret) := by
  simp only [newRow, renameDraft, renameWebhook, Webhook.mk.injEq, true_and, and_true]
  cases d.secret with
  | none => exact stored_rename f secret
  | some g => exact stored_rename f g

theorem insertStep_rename (w : World) (d : Draft) (id : FreshId) (secret : Given) :
    insertStep (renameWorld f w) (renameDraft f d) id (renameGiven f secret) =
      (renameWorld f (insertStep w d id secret).1,
        renamePhase f (insertStep w d id secret).2) := by
  have hany : ((renameWorld f w).webhooks.any (fun x => x.id = uuidText id.text)) =
      w.webhooks.any (fun x => x.id = uuidText id.text) := by
    simp only [renameWorld, List.any_map]
    rfl
  unfold insertStep
  rw [hany, newRow_rename]
  split_ifs
  · rfl
  · simp [renameWorld, renamePhase]

theorem find_rename (w : World) (id : Text) :
    find (renameWorld f w) id = (find w id).map (renameWebhook f) := by
  rw [find, find, renameWorld, List.find?_map]
  rfl

theorem readStep_rename (w : World) (id : Text) :
    readStep (renameWorld f w) id = renamePhase f (readStep w id) := by
  unfold readStep
  rw [find_rename]
  cases find w id <;> rfl

theorem updateRow_rename (now : Instant) (p : Patch) (x : Webhook) :
    updateRow now (renamePatch f p) (renameWebhook f x) = renameWebhook f (updateRow now p x) := by
  simp only [updateRow, renamePatch, renameWebhook, Webhook.mk.injEq, true_and, and_true]
  cases p.secret with
  | none => rfl
  | some g => exact stored_rename f g

theorem patchRows_rename (now : Instant) (p : Patch) (id : Text) (rows : List Webhook) :
    patchRows now (renamePatch f p) id (rows.map (renameWebhook f)) =
      (patchRows now p id rows).map (renameWebhook f) := by
  rw [patchRows, patchRows, List.map_map, List.map_map]
  apply List.map_congr_left
  intro x _
  rw [Function.comp_apply, Function.comp_apply]
  change (if x.id = id then _ else _) = _
  split_ifs
  · exact updateRow_rename f now p x
  · rfl

theorem updateEntry_rename (id : Text) (p : Patch) :
    updateEntry id (renamePatch f p) = updateEntry id p := by
  simp only [updateEntry, renamePatch, Option.map_map]
  rfl

theorem updateStep_rename (w : World) (id : Text) (p : Patch) :
    updateStep (renameWorld f w) id (renamePatch f p) =
      (renameWorld f (updateStep w id p).1, renamePhase f (updateStep w id p).2) := by
  unfold updateStep
  rw [find_rename]
  cases find w id with
  | none => rfl
  | some x =>
    dsimp only [Option.map_some]
    rw [updateEntry_rename, updateRow_rename]
    simp only [renameWorld, patchRows_rename]
    rfl

theorem removeStep_rename (w : World) (id : Text) : removeStep (renameWorld f w) id =
    (renameWorld f (removeStep w id).1, renamePhase f (removeStep w id).2) := by
  unfold removeStep
  rw [find_rename]
  cases find w id with
  | none => rfl
  | some x =>
    simp only [Option.map_some, renameWorld, List.filter_map]
    rfl

theorem answerStatus_rename (a : Answer) : answerStatus (renameAnswer f a) = answerStatus a := by
  cases a <;> rfl

theorem answerStorable_rename (a : Answer) :
    answerStorable (renameAnswer f a) = answerStorable a := by
  cases a with
  | created c => simp [renameAnswer, answerStorable, secret_storable]
  | _ => rfl

theorem persist_rename (rows : List (StoredResponse Answer)) (k : Text) (a : Answer) :
    persist (rows.map (renameResponse f)) scope k (answerStatus a) (renameAnswer f a) =
      (persist rows scope k (answerStatus a) a).map (renameResponse f) := by
  unfold persist
  rw [responses_rename, Option.isSome_map]
  split_ifs
  · rfl
  · rw [List.map_append]
    rfl

theorem persistStep_rename (stores : Bool) (w : World) (q : Request) (a : Answer) :
    persistStep stores (renameWorld f w) (renameRequest f q) (renameAnswer f a) =
      (renameWorld f (persistStep stores w q a).1, renamePhase f (persistStep stores w q a).2) := by
  unfold persistStep
  rw [headers_rename, answerStatus_rename, answerStorable_rename]
  cases keyHeader q.headers with
  | key k =>
    dsimp only
    split_ifs
    · simp only [renameWorld, persist_rename]
      rfl
    · rfl
    · rfl
  | _ => rfl

variable {f}

theorem renameAnswer_injective (hf : Function.Injective f) (a b : Answer) :
    renameAnswer f a = renameAnswer f b ↔ a = b := by
  constructor
  · intro h
    cases a with
    | created c =>
      cases b with
      | created d =>
        obtain ⟨id, url, events, secret, active, createdAt⟩ := c
        obtain ⟨id', url', events', secret', active', createdAt'⟩ := d
        simp only [renameAnswer, Answer.created.injEq, Created.mk.injEq] at h ⊢
        obtain ⟨hid, hurl, hevents, hsecret, hactive, hcreated⟩ := h
        exact ⟨hid, hurl, hevents, hf hsecret, hactive, hcreated⟩
      | _ => cases h
    | _ => cases b <;> first | exact h | cases h
  · rintro rfl
    rfl

theorem settleStep_rename (hf : Function.Injective f) (w : World) (q : Request) (a : Answer) :
    settleStep (renameWorld f w) (renameRequest f q) (renameAnswer f a) =
      renamePhase f (settleStep w q a) := by
  unfold settleStep
  rw [headers_rename, answerStatus_rename]
  cases keyHeader q.headers with
  | key k =>
    simp only [settle, renameWorld, responses_rename]
    cases lookup w.responses scope k with
    | none => rfl
    | some r =>
      simp only [Option.map_some, renameResponse, renameAnswer_injective hf]
      rfl
  | _ => rfl

theorem route_rename (hf : Function.Injective f) (q : Request) (w : World) (io : Io) (ph : Phase) :
    routeStep (renameRequest f q) (renameWorld f w) (renameIo f io) (renamePhase f ph) =
      (routeStep q w io ph).map (fun r => (renameWorld f r.1, renamePhase f r.2)) := by
  cases io with
  | ok =>
    cases ph with
    | received => simp only [renameIo, renamePhase, routeStep, begin_rename, Option.map_some]
    | keyed body =>
      simp only [renameIo, renamePhase, routeStep, lookupStep_rename, Option.map_some]
    | running body =>
      simp only [renameIo, renamePhase, routeStep, checkStep_rename, Option.map_some]
    | reading id => simp only [renameIo, renamePhase, routeStep, readStep_rename, Option.map_some]
    | noting e a =>
      simp only [renameIo, renamePhase, routeStep, note, headers_rename, Option.map_some]
      rfl
    | finished a =>
      simp only [renameIo, renamePhase, routeStep, persistStep_rename, Option.map_some]
    | persisted a =>
      simp only [renameIo, renamePhase, routeStep, settleStep_rename hf, Option.map_some]
    | updating id p =>
      simp only [renameIo, renamePhase, routeStep, updateStep_rename, Option.map_some]
    | removing id =>
      simp only [renameIo, renamePhase, routeStep, removeStep_rename, Option.map_some]
    | closing e a =>
      simp only [renameIo, renamePhase, routeStep, note, headers_rename, Option.map_some]
      rfl
    | _ => rfl
  | fault =>
    cases ph with
    | finished a =>
      simp only [renameIo, renamePhase, routeStep, persistStep_rename, Option.map_some]
    | _ => rfl
  | rows rs =>
    cases ph with
    | listing =>
      have hlisted : (renameWorld f w).webhooks.map Webhook.listed =
          w.webhooks.map Webhook.listed := List.map_map
      simp only [renameIo, renamePhase, routeStep, hlisted]
      split_ifs <;> rfl
    | _ => rfl
  | vetted problem => cases problem <;> cases ph <;> rfl
  | ids id secret =>
    cases ph with
    | inserting d =>
      simp only [renameIo, renamePhase, routeStep, insertStep_rename, Option.map_some]
    | _ => rfl

theorem admin_equivariant (hf : Function.Injective f) : Equivariant (otherSecrets f) admin where
  env e w := by
    change env e (renameWorld f w) = (env e w).map (renameWorld f)
    cases e with
    | tick t =>
      simp only [env]
      change (if w.now ≤ t then _ else _) = _
      split_ifs <;> rfl
    | audited e ctx =>
      simp only [env]
      split_ifs <;> rfl
  start q := rfl
  act n io w t := by
    change (routeStep (renameRequest f t.request) (renameWorld f w) (renameIo f io)
      (renamePhase f t.phase)).map _ = ((routeStep t.request w io t.phase).map _).map _
    rw [route_rename hf, Option.map_map, Option.map_map]
    rfl

end Steps

section Migration

def secretKey : Text := js "secret"

def rotatedKey : Text := js "secretRotated"

/-- Migration 0008 on one row. -/
def scrubRow (r : AdminAuditRow) : AdminAuditRow :=
  match r.details with
  | .obj members =>
    if r.action = updateAction && members.any (fun m => m.1 = secretKey) then
      let kept := members.filter (fun m => m.1 ≠ secretKey && m.1 ≠ rotatedKey)
      { r with details := .obj (kept++[(rotatedKey, .bool true)]) }
    else r
  | _ => r

def scrub (log : AuditLog) : AuditLog := { log with rows := log.rows.map scrubRow }

end Migration

section Scenario

def hookId : Text := js "00000000-0000-4000-8000-000000000001"

theorem hookId_valid : isUuid hookId = true := by decide

theorem drawn_checked : secretProblem (js "drawn") = none := by decide

def drawn : Given := ⟨js "drawn", drawn_checked⟩

theorem guess_checked : secretProblem (js "guess") = none := by decide

def swapped : Secret → Secret := Equiv.swap (stored drawn) (stored ⟨js "guess", guess_checked⟩)

theorem swapped_injective : Function.Injective swapped := (Equiv.swap _ _).injective

def leaked : World :=
  ⟨0, [], [], ⟨[⟨updateAction, none, none, .obj [(secretKey, .str (js "old"))], none⟩], 0⟩⟩

def migrated : World := { leaked with log := scrub leaked.log }

def hookUrl : Text := js "https://a.example/"

def hookBody : RequestBody := ⟨false, some (.obj [(js "url", .str hookUrl)])⟩

def rotateBody : RequestBody := ⟨false, some (.obj [(secretKey, .str (js "next"))])⟩

def rotation : List (Label ℕ Env Io Request) :=
  [.start 0 (.create [] hookBody), .act 0 .ok, .act 0 .ok, .act 0 (.vetted none),
    .act 0 (.ids ⟨hookId, hookId_valid⟩ drawn), .act 0 .ok, .act 0 .ok, .act 0 .ok, .env (.tick 5),
    .start 1 (.update [] hookId rotateBody), .act 1 .ok, .act 1 .ok, .act 1 .ok,
    .start 2 .list, .act 2 .ok, .act 2 (.rows [⟨hookId, hookUrl, [], true, 0, 5⟩])]

theorem rotation_runs : (run (step admin) rotation (idle migrated)).isSome = true := by
  decide +kernel

def rotationEnd : Pool World ℕ Thread :=
  (run (step admin) rotation (idle migrated)).get rotation_runs

theorem rotation_end : run (step admin) rotation (idle migrated) = some rotationEnd :=
  (Option.some_get rotation_runs).symm

end Scenario

/-- With other secrets in the requests and in the table, every run goes on as
before: the log, the listing and every answer are the same, but for the secret
in the answer that creates a webhook. -/
theorem secrets_confined (f : Secret → Secret) (hf : Function.Injective f) (w : World)
    (ls : List (Label ℕ Env Io Request)) (p : Pool World ℕ Thread)
    (hr : run (step admin) ls (idle w) = some p) :
    ∃ q, run (step admin) (ls.map (otherSecrets f).label) (idle (renameWorld f w)) = some q ∧
      q.world.log = p.world.log ∧
      q.world.webhooks.map Webhook.listed = p.world.webhooks.map Webhook.listed ∧
      ∀ n t a replayed, p.thread n = some t → t.phase = .answered a replayed →
        ∃ u, q.thread n = some u ∧ u.phase = .answered (renameAnswer f a) replayed := by
  have hrun := run_renamed (admin_equivariant hf) ls (idle w : Pool World ℕ Thread)
  rw [hr, Option.map_some] at hrun
  refine ⟨_, hrun, rfl, ?_, ?_⟩
  · change ((p.world.webhooks.map (renameWebhook f)).map Webhook.listed) = _
    rw [List.map_map]
    rfl
  · intro n t a replayed ht hph
    refine ⟨(otherSecrets f).thread t, ?_, ?_⟩
    · change (p.thread n).map _ = _
      rw [ht]
      rfl
    · change renamePhase f t.phase = _
      rw [hph]
      rfl

theorem secrets_confined_rotation :
    ∃ q, run (step admin) (rotation.map (otherSecrets swapped).label)
        (idle (renameWorld swapped migrated)) = some q ∧
      q.world.log = rotationEnd.world.log ∧ ∃ u, q.thread 2 = some u ∧
        u.phase = .answered (.listed [⟨hookId, hookUrl, [], true, 0, 5⟩]) false := by
  obtain ⟨q, hrun, hlog, _, hanswers⟩ :=
    secrets_confined swapped swapped_injective migrated rotation rotationEnd rotation_end
  exact ⟨q, hrun, hlog, hanswers 2 ⟨.list, .answered (.listed [_]) false⟩ _ false rfl rfl⟩

section Scrubbing

def Scrubbed (r : AdminAuditRow) : Prop :=
  r.action = updateAction → ∀ members, r.details = .obj members →
    ∀ m ∈ members, m.1 ≠ secretKey

theorem scrubRow_scrubbed (r : AdminAuditRow) : Scrubbed (scrubRow r) := by
  unfold scrubRow
  split
  · next members hd =>
    split_ifs with h
    · intro _ kept hkept m hm
      obtain rfl := Json.obj.inj hkept
      rcases List.mem_append.mp hm with hm | hm
      · have hkeys := (List.mem_filter.mp hm).2
        simp only [Bool.and_eq_true, decide_eq_true_eq] at hkeys
        exact hkeys.1
      · rw [List.mem_singleton.mp hm]
        decide
    · intro haction members' hd' m hm hkey
      rw [hd] at hd'
      obtain rfl := Json.obj.inj hd'
      apply h
      rw [Bool.and_eq_true, List.any_eq_true]
      exact ⟨decide_eq_true haction, m, hm, decide_eq_true hkey⟩
  · next hd =>
    intro _ members hmembers
    exact absurd hmembers (hd members)

theorem scrubRow_id (r : AdminAuditRow) (h : Scrubbed r) : scrubRow r = r := by
  unfold scrubRow
  split
  · next members hd =>
    rw [if_neg]
    rw [Bool.and_eq_true, List.any_eq_true]
    rintro ⟨haction, m, hm, hkey⟩
    exact h (of_decide_eq_true haction) members hd m hm (of_decide_eq_true hkey)
  · rfl

def Discreet (e : AdminAuditEntry) : Prop := ∀ m ∈ e.details, m.1 ≠ secretKey

theorem member_key (k : Text) (v : Option Json) (m : Text × Json) (h : m ∈ member k v) :
    m.1 = k := by
  cases v with
  | none => cases h
  | some v => rw [List.mem_singleton.mp h]

theorem discreet_create (x : Webhook) : Discreet (createEntry x) := by
  have hkeys : ∀ k ∈ (createEntry x).details.map Prod.fst, k ≠ secretKey := by
    simp only [createEntry, List.map_cons, List.map_nil]
    decide
  exact fun m hm => hkeys m.1 (List.mem_map_of_mem hm)

theorem discreet_delete (id : Text) : Discreet (deleteEntry id) := fun _ hm => by cases hm

theorem discreet_update (id : Text) (p : Patch) : Discreet (updateEntry id p) := by
  intro m hm
  simp only [updateEntry, List.mem_append] at hm
  rcases hm with ((hm | hm) | hm) | hm
  all_goals
    rw [member_key _ _ m hm]
    decide

theorem clientIp_not_secret : clientIpKey ≠ secretKey := by decide

theorem discreet_row (e : AdminAuditEntry) (ctx : AuditContext) (h : Discreet e) :
    Scrubbed (auditRow e ctx) := by
  intro _ members hd m hm hkey
  simp only [auditRow, auditDetails] at hd
  split at hd
  · obtain rfl := Json.obj.inj hd
    rcases List.mem_append.mp hm with hm | hm
    · exact h m (List.mem_filter.mp hm).1 hkey
    · rw [List.mem_singleton.mp hm] at hkey
      exact clientIp_not_secret hkey
  · obtain rfl := Json.obj.inj hd
    exact h m hm hkey

def Clean (w : World) : Prop := ∀ r ∈ w.log.rows, Scrubbed r

def pending : Phase → Option AdminAuditEntry
  | .noting e _ => some e
  | .closing e _ => some e
  | _ => none

def DiscreetThread (_ : ℕ) (_ : World) : Option Thread → Prop
  | some t => ∀ e, pending t.phase = some e → Discreet e
  | none => True

theorem clean_write (w : World) (e : AdminAuditEntry) (ctx : AuditContext) (hw : Clean w)
    (h : Scrubbed (auditRow e ctx)) : Clean { w with log := writeAdminAudit e ctx w.log } := by
  intro r hr
  simp only [writeAdminAudit] at hr
  split_ifs at hr
  · rcases List.mem_append.mp hr with hr | hr
    · exact hw r hr
    · rw [List.mem_singleton.mp hr]
      exact h
  · exact hw r hr

theorem pending_begin (q : Request) : pending (begin q) = none := by
  cases q with
  | list => rfl
  | create h b =>
    simp only [begin]
    split
    · rfl
    · split <;> rfl
  | update h id b =>
    simp only [begin]
    split_ifs
    · rfl
    · split
      · rfl
      · split
        · rfl
        · unfold beginPatch
          split_ifs <;> rfl
  | remove h id =>
    simp only [begin]
    split_ifs <;> rfl

theorem pending_lookup (w : World) (q : Request) (body : Json) :
    pending (lookupStep w q body) = none := by
  unfold lookupStep
  split
  · split <;> rfl
  · rfl

theorem pending_check (body : Json) : pending (checkStep body) = none := by
  unfold checkStep
  split
  · rfl
  · split <;> rfl

theorem pending_settle (w : World) (q : Request) (a : Answer) :
    pending (settleStep w q a) = none := by
  unfold settleStep
  split <;> rfl

theorem insert_log (w : World) (d : Draft) (id : FreshId) (secret : Given) :
    (insertStep w d id secret).1.log = w.log ∧ pending (insertStep w d id secret).2 = none := by
  unfold insertStep
  split_ifs <;> exact ⟨rfl, rfl⟩

theorem persist_log (stores : Bool) (w : World) (q : Request) (a : Answer) :
    (persistStep stores w q a).1.log = w.log ∧ pending (persistStep stores w q a).2 = none := by
  unfold persistStep
  split
  · split_ifs <;> exact ⟨rfl, rfl⟩
  · exact ⟨rfl, rfl⟩

theorem read_pending (w : World) (id : Text) (e : AdminAuditEntry)
    (h : pending (readStep w id) = some e) : Discreet e := by
  unfold readStep at h
  split at h
  · cases h
    exact discreet_create _
  · cases h

theorem update_log (w : World) (id : Text) (p : Patch) : (updateStep w id p).1.log = w.log ∧
    ∀ e, pending (updateStep w id p).2 = some e → Discreet e := by
  unfold updateStep
  split
  · refine ⟨rfl, fun e h => ?_⟩
    cases h
    exact discreet_update id p
  · exact ⟨rfl, fun e h => by cases h⟩

theorem remove_log (w : World) (id : Text) : (removeStep w id).1.log = w.log ∧
    ∀ e, pending (removeStep w id).2 = some e → Discreet e := by
  unfold removeStep
  split
  · refine ⟨rfl, fun e h => ?_⟩
    cases h
    exact discreet_delete id
  · exact ⟨rfl, fun e h => by cases h⟩

theorem route_log (q : Request) (w v : World) (io : Io) (ph ph' : Phase)
    (h : routeStep q w io ph = some (v, ph')) :
    (v.log.rows = w.log.rows ∨ ∃ e, pending ph = some e ∧ v = note w q e) ∧
      ∀ e, pending ph' = some e → Discreet e := by
  have hquiet : ∀ e, none = some e → Discreet e := fun e he => by cases he
  cases io with
  | ok =>
    cases ph with
    | received =>
      cases h
      exact ⟨Or.inl rfl, pending_begin q ▸ hquiet⟩
    | keyed body =>
      cases h
      exact ⟨Or.inl rfl, pending_lookup w q body ▸ hquiet⟩
    | running body =>
      cases h
      exact ⟨Or.inl rfl, pending_check body ▸ hquiet⟩
    | reading id =>
      cases h
      exact ⟨Or.inl rfl, read_pending w id⟩
    | noting e a =>
      cases h
      exact ⟨Or.inr ⟨e, rfl, rfl⟩, hquiet⟩
    | finished a =>
      obtain ⟨hlog, hnone⟩ := persist_log true w q a
      rw [Option.some.inj h] at hlog hnone
      exact ⟨Or.inl (congrArg AuditLog.rows hlog), hnone ▸ hquiet⟩
    | persisted a =>
      cases h
      exact ⟨Or.inl rfl, pending_settle w q a ▸ hquiet⟩
    | updating id p =>
      obtain ⟨hlog, hentry⟩ := update_log w id p
      rw [Option.some.inj h] at hlog hentry
      exact ⟨Or.inl (congrArg AuditLog.rows hlog), hentry⟩
    | removing id =>
      obtain ⟨hlog, hentry⟩ := remove_log w id
      rw [Option.some.inj h] at hlog hentry
      exact ⟨Or.inl (congrArg AuditLog.rows hlog), hentry⟩
    | closing e a =>
      cases h
      exact ⟨Or.inr ⟨e, rfl, rfl⟩, hquiet⟩
    | _ => cases h
  | fault =>
    cases ph with
    | finished a =>
      obtain ⟨hlog, hnone⟩ := persist_log false w q a
      rw [Option.some.inj h] at hlog hnone
      exact ⟨Or.inl (congrArg AuditLog.rows hlog), hnone ▸ hquiet⟩
    | _ =>
      cases h <;> exact ⟨Or.inl rfl, hquiet⟩
  | rows rs =>
    cases ph with
    | listing =>
      simp only [routeStep, Option.ite_none_right_eq_some, Option.some.injEq] at h
      obtain ⟨-, h⟩ := h
      cases h
      exact ⟨Or.inl rfl, hquiet⟩
    | _ => cases h
  | vetted problem =>
    cases problem <;> cases ph <;> cases h <;> exact ⟨Or.inl rfl, hquiet⟩
  | ids id secret =>
    cases ph with
    | inserting d =>
      obtain ⟨hlog, hnone⟩ := insert_log w d id secret
      rw [Option.some.inj h] at hlog hnone
      exact ⟨Or.inl (congrArg AuditLog.rows hlog), hnone ▸ hquiet⟩
    | _ => cases h

theorem clean_kept : Kept admin Clean DiscreetThread (fun _ => True) := by
  constructor
  · intro e w v _ hw hv
    refine ⟨?_, fun n o h => by cases o <;> exact h⟩
    cases e with
    | tick t =>
      simp only [admin, env, Option.ite_none_right_eq_some, Option.some.injEq] at hv
      obtain ⟨_, rfl⟩ := hv
      exact hw
    | audited e ctx =>
      simp only [admin, env, Option.ite_none_left_eq_some, Option.some.injEq] at hv
      obtain ⟨haction, rfl⟩ := hv
      exact clean_write w e ctx hw (fun h => absurd h haction)
  · exact fun n q w _ _ e h => by cases h
  · intro n io w t v u _ hw ht ha
    obtain ⟨⟨v', ph⟩, hs, heq⟩ := Option.map_eq_some_iff.mp ha
    cases heq
    obtain ⟨hlog, hph⟩ := route_log t.request w _ io t.phase ph hs
    refine ⟨?_, hph, fun m o _ h => by cases o <;> exact h⟩
    rcases hlog with hrows | ⟨e, he, rfl⟩
    · intro r hr
      rw [hrows] at hr
      exact hw r hr
    · exact clean_write w e _ hw (discreet_row e _ (ht e he))

end Scrubbing

/-- After the migration no update is recorded with a secret, whatever requests
run and whatever other routes record, and to migrate once more changes
nothing. -/
theorem audit_scrubbed (w : World) (ls : List (Label ℕ Env Io Request)) (p : Pool World ℕ Thread)
    (hr : run (step admin) ls (idle { w with log := scrub w.log }) = some p) :
    (∀ r ∈ p.world.log.rows, Scrubbed r) ∧ scrub p.world.log = p.world.log := by
  have hstart : Holds Clean DiscreetThread
      (idle { w with log := scrub w.log } : Pool World ℕ Thread) := by
    constructor
    · intro r hr
      obtain ⟨old, _, rfl⟩ := List.mem_map.mp hr
      exact scrubRow_scrubbed old
    · exact fun _ => trivial
  have hclean := (holds_run (fun _ => True) clean_kept ls _ p (fun _ _ => trivial) hstart hr).world
  refine ⟨hclean, ?_⟩
  have hrows : p.world.log.rows.map scrubRow = p.world.log.rows := by
    conv_rhs => rw [← List.map_id p.world.log.rows]
    exact List.map_congr_left (fun r hr => scrubRow_id r (hclean r hr))
  rw [scrub, hrows]

theorem audit_scrubbed_rotation :
    rotationEnd.world.log.rows.length = 3 ∧ ∀ r ∈ rotationEnd.world.log.rows, Scrubbed r :=
  ⟨by decide +kernel, (audit_scrubbed leaked rotation rotationEnd rotation_end).1⟩

end ControlPlane.WebhookSecrets
