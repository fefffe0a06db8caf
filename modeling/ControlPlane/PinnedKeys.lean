import ControlPlane.EventIngest
import ControlPlane.Idempotency
import ControlPlane.ListQueries
import ControlPlane.PoolSums
import ControlPlane.UpsertHistory

/-!
# Pinned keys

`POST /api/pinned-keys` checks a pin, upserts it, writes an audit row and reads
the row back, unless a response is stored for its idempotency key; `DELETE`
removes a row and `GET` looks one up. Requests run one statement at a time.
`writes` lists the upserts and deletes in the order of the database, and an
answer says how many of them it has seen.
-/

set_option autoImplicit false

namespace ControlPlane.PinnedKeys
open ControlPlane.JsText ControlPlane.JsValue ControlPlane.HttpValidate ControlPlane.AdminAudit
open ControlPlane.RunMachine ControlPlane.NamedPool ControlPlane.PoolSums
open ControlPlane.UpsertHistory ControlPlane.KeyedRows
open ControlPlane.RequestGate (Headers get present)
open ControlPlane.AdminRoutes (RequestBody readJsonObject)
open ControlPlane.EventIngest (actorIdFromAuthHeader)
open ControlPlane.Idempotency
open ControlPlane.ListQueries (Params nulProblem)

def namespaceMax : ℕ := 128

def aidMax : ℕ := 512

def labelMax : ℕ := 128

def defaultNamespace : Text := js "default"

/-- `ED25519_PUBKEY_B64URL` -/
def isPubkey (t : Text) : Bool := isBase64url t && t.length = 43

section Body

abbrev Column (field : Text) (max : ℕ) := {t : Text // checkColumnString t field max none = none}

def checked (value field : Text) (max : ℕ) : Except Text (Column field max) :=
  match h : checkColumnString value field max none with
  | some problem => .error problem
  | none => .ok ⟨value, h⟩

structure Pin where
  pinNamespace : {c : Column (js "namespace") namespaceMax // c.val ≠ []}
  aid : {c : Column (js "aid") aidMax // c.val ≠ []}
  pubkey : {t : Text // isPubkey t = true}
  label : Option (Column (js "label") labelMax)
  expiresAt : Option {t : Instant // instantStorable t = true}

def filled (value : {t : Text // t ≠ []}) (field : Text) (max : ℕ) :
    Except Text {c : Column field max // c.val ≠ []} :=
  match h : checkColumnString value field max none with
  | some problem => .error problem
  | none => .ok ⟨⟨value, h⟩, value.property⟩

def readAid (body : Json) : Except Text {c : Column (js "aid") aidMax // c.val ≠ []} :=
  match body.get (js "aid") with
  | some (.str aid) =>
    if h : aid = [] then .error (js "aid is required") else filled ⟨aid, h⟩ (js "aid") aidMax
  | _ => .error (js "aid is required")

def pubkeyProblem : Text := js "pubkey must be a 43-char base64url Ed25519 public key"

def readPubkey (body : Json) : Except Text {t : Text // isPubkey t = true} :=
  match body.get (js "pubkey") with
  | some (.str pubkey) => if h : isPubkey pubkey = true then .ok ⟨pubkey, h⟩
    else .error pubkeyProblem
  | _ => .error pubkeyProblem

theorem defaultNamespace_filled : defaultNamespace ≠ [] := by decide

/-- An empty namespace is the default one. -/
def namespaceOf (body : Json) : {t : Text // t ≠ []} :=
  match body.get (js "namespace") with
  | some (.str ns) => if h : ns = [] then ⟨defaultNamespace, defaultNamespace_filled⟩ else ⟨ns, h⟩
  | _ => ⟨defaultNamespace, defaultNamespace_filled⟩

def readNamespace (body : Json) :
    Except Text {c : Column (js "namespace") namespaceMax // c.val ≠ []} :=
  filled (namespaceOf body) (js "namespace") namespaceMax

def checkNullableString (body : Json) (field : Text) : Except Text (Option Text) :=
  match body.get field with
  | none => .ok none
  | some .null => .ok none
  | some (.str t) => .ok (some t)
  | some _ => .error (field++js " must be a string or null")

def readLabel : Option Text → Except Text (Option (Column (js "label") labelMax))
  | none => .ok none
  | some label => (checked label (js "label") labelMax).map some

def readExpiresAt (parseDate : Text → Option Instant) :
    Option Text → Except Text (Option {t : Instant // instantStorable t = true})
  | none => .ok none
  | some text =>
    match parseDate text with
    | none => .error (js "expiresAt must be a parseable date")
    | some t =>
      if h : instantStorable t = true then .ok (some ⟨t, h⟩)
      else .error
        (js "expiresAt must be between 0001-01-01T00:00:00.000Z and 9999-12-31T23:59:59.999Z")

def readPin (parseDate : Text → Option Instant) (body : Json) : Except Text Pin := do
  let aid ← readAid body
  let pubkey ← readPubkey body
  let pinNamespace ← readNamespace body
  let label ← checkNullableString body (js "label")
  let expiresAt ← checkNullableString body (js "expiresAt")
  let label ← readLabel label
  let expiresAt ← readExpiresAt parseDate expiresAt
  pure ⟨pinNamespace, aid, pubkey, label, expiresAt⟩

end Body

structure PinnedKey where
  pinNamespace : Text
  aid : Text
  pubkey : Text
  label : Option Text
  addedBy : Option Text
  expiresAt : Option Instant
  createdAt : Instant
  updatedAt : Instant
  deriving DecidableEq, Repr

abbrev PinKey := Text × Text

structure Opened where
  addedBy : Option Text
  createdAt : Instant
  deriving DecidableEq, Repr

structure Content where
  pubkey : Text
  label : Option Text
  expiresAt : Option Instant
  deriving DecidableEq, Repr

def PinnedKey.key (r : PinnedKey) : PinKey := (r.pinNamespace, r.aid)

/-- The row as the library sees it, without `updated_at`. -/
def view (r : PinnedKey) : Row PinKey Opened Content :=
  ⟨r.key, ⟨r.addedBy, r.createdAt⟩, ⟨r.pubkey, r.label, r.expiresAt⟩⟩

/-- The encoder of a statement's parameters replaces lone surrogates. -/
def storedKey (pinNamespace aid : Text) : PinKey := (toWellFormed pinNamespace, toWellFormed aid)

def Pin.key (p : Pin) : PinKey := storedKey p.pinNamespace.val.val p.aid.val.val

def Pin.content (p : Pin) : Content where
  pubkey := p.pubkey
  label := p.label.map (fun l => toWellFormed l.val)
  expiresAt := p.expiresAt.map (·.val)

def insertRow (now : Instant) (actor : Option Text) (p : Pin) : PinnedKey where
  pinNamespace := p.key.1
  aid := p.key.2
  pubkey := p.content.pubkey
  label := p.content.label
  addedBy := actor
  expiresAt := p.content.expiresAt
  createdAt := now
  updatedAt := now

/-- The statement carries `updatedAt`, the clock of the process. -/
def replaceRow (stamp : Instant) (p : Pin) (r : PinnedKey) : PinnedKey :=
  { r with pubkey := p.content.pubkey, label := p.content.label,
           expiresAt := p.content.expiresAt, updatedAt := stamp }

/-- `INSERT … ON CONFLICT (namespace, aid) DO UPDATE` -/
def upsertPin (now stamp : Instant) (actor : Option Text) (p : Pin) (rows : List PinnedKey) :
    List PinnedKey :=
  if rows.any (fun r => r.key = p.key) then
    rows.map (fun r => if r.key = p.key then replaceRow stamp p r else r)
  else rows++[insertRow now actor p]

def deletePin (key : PinKey) (rows : List PinnedKey) : List PinnedKey :=
  rows.filter (fun r => r.key ≠ key)

def findPin (key : PinKey) (rows : List PinnedKey) : Option PinnedKey :=
  rows.find? (fun r => r.key = key)

abbrev PinWrite := Write PinKey Opened Content

section Views
variable (rows : List PinnedKey)

theorem view_any (key : PinKey) : (rows.map view).any (fun r => r.key = key) =
    rows.any (fun r => r.key = key) := by
  rw [List.any_map]
  rfl

theorem upsert_view (now stamp : Instant) (actor : Option Text) (p : Pin) :
    (upsertPin now stamp actor p rows).map view =
      commit (rows.map view) (.put p.key ⟨actor, now⟩ p.content) := by
  simp only [upsertPin, commit, view_any]
  split_ifs
  · rw [updateWhere, List.map_map, List.map_map]
    apply List.map_congr_left
    intro r _
    rw [Function.comp_apply, Function.comp_apply]
    by_cases hr : r.key = p.key
    · have hv : (view r).key = p.key := hr
      rw [if_pos hr, if_pos (decide_eq_true hv)]
      rfl
    · have hv : ¬(view r).key = p.key := hr
      rw [if_neg hr, if_neg (by simp [hv])]
  · rw [List.map_append]
    rfl

theorem delete_view (key : PinKey) :
    (deletePin key rows).map view = commit (rows.map view) (.drop key) := by
  rw [deletePin, commit, List.filter_map]
  rfl

theorem find_view (key : PinKey) :
    (findPin key rows).map view = UpsertHistory.find key (rows.map view) := by
  rw [findPin, UpsertHistory.find, List.find?_map]
  rfl

end Views

def keyStorable (key : PinKey) : Bool :=
  fitsVarchar namespaceMax key.1 && !key.1.isEmpty && fitsVarchar aidMax key.2 && !key.2.isEmpty

def Content.storable (c : Content) : Bool :=
  isPubkey c.pubkey && c.label.all (fitsVarchar labelMax) && c.expiresAt.all instantStorable

/-- What the columns of `pinned_keys` hold. -/
def PinnedKey.storable (r : PinnedKey) : Bool := keyStorable r.key && (view r).content.storable

section Route

structure Target where
  pinNamespace : Text
  aid : Text

def Target.key (t : Target) : PinKey := storedKey t.pinNamespace t.aid

inductive Request where
  | get (sp : Params)
  | post (h : Headers) (body : RequestBody)
  | delete (h : Headers) (sp : Params)

inductive Answer where
  | refused (problem : Problem)
  | threw
  | created (r : PinnedKey)
  | gone
  | deleted
  | missing
  | found (r : PinnedKey)
  | listed (rs : List PinnedKey)

def bodyInvalid (error : Text) : Problem := ⟨400, error, js "BODY_INVALID"⟩

/-- What the handler of `POST` returns: `IdempotentResult`. -/
inductive Result where
  | invalid (error : Text)
  | upserted (r : PinnedKey)
  deriving DecidableEq

def Result.status : Result → ℕ
  | .invalid _ => 400
  | .upserted _ => 201

def Result.answer : Result → Answer
  | .invalid error => .refused (bodyInvalid error)
  | .upserted r => .created r

/-- `own` is the position of the write of this request, and `seen` the number
of writes that the answer has seen. `keyed` looks for a stored response,
`finished` has the result of the handler of `POST`, and `replayed` has been
answered with a stored response. -/
inductive Phase where
  | received
  | keyed (body : Json)
  | upserting (p : Pin) (stamp : Instant)
  | noting (p : Pin) (own : ℕ)
  | selecting (p : Pin) (own : ℕ)
  | deleting (t : Target)
  | unpinning (t : Target) (own : ℕ)
  | looking (t : Target)
  | listing (pinNamespace : Option Text)
  | finished (r : Result) (own : Option ℕ) (seen : ℕ)
  | persisted (r : Result) (own : Option ℕ) (seen : ℕ)
  | answered (a : Answer) (own : Option ℕ) (seen : ℕ)
  | replayed (r : Result) (own : Option ℕ)

structure Thread where
  request : Request
  phase : Phase

/-- `writers` and `storers` name the requests behind the writes and the stored
responses. -/
structure World where
  now : Instant
  rows : List PinnedKey
  log : AuditLog
  writes : List PinWrite
  writers : List ℕ
  responses : List (StoredResponse Result)
  storers : List ℕ

/-- How a statement ends; a listing leaves the order of equal times open. -/
inductive Io where
  | ok
  | fault
  | rows (rs : List PinnedKey)

structure Runtime where
  sha256 : Text → List UInt8
  parseDate : Text → Option Instant

variable (R : Runtime) (n : ℕ)

def scope : Text := js "pinned-keys.upsert"

def badQuery (sp : Params) : Option Problem := nulProblem sp [js "namespace", js "aid"]

/-- Without a namespace the default one is meant; an empty one stays empty. -/
def target (sp : Params) : Option Target :=
  (present (sp (js "aid"))).map (fun aid => ⟨(sp (js "namespace")).getD defaultNamespace, aid⟩)

def answer (w : World) (a : Answer) (own : Option ℕ) : Phase := .answered a own w.writes.length

def checkStep (w : World) (body : Json) : Phase :=
  match readPin R.parseDate body with
  | .error error => .finished (.invalid error) none w.writes.length
  | .ok p => .upserting p w.now

def begin (w : World) : Request → Phase
  | .post h body =>
    match readJsonObject body with
    | .error problem => answer w (.refused problem) none
    | .ok body =>
      match keyHeader h with
      | .absent => checkStep R w body
      | .invalid => answer w (.refused keyInvalid) none
      | .key _ => .keyed body
  | .delete _ sp =>
    match badQuery sp with
    | some problem => answer w (.refused problem) none
    | none =>
      match target sp with
      | some t => .deleting t
      | none => answer w (.refused ⟨400, js "aid query param required", js "BAD_REQUEST"⟩) none
  | .get sp =>
    match badQuery sp with
    | some problem => answer w (.refused problem) none
    | none =>
      match target sp with
      | some t => .looking t
      | none => .listing (present (sp (js "namespace")))

def Request.headers : Request → Headers
  | .get _ => []
  | .post h _ => h
  | .delete h _ => h

def actor (q : Request) : Option Text :=
  actorIdFromAuthHeader R.sha256 (get q.headers (js "authorization"))

def lookupStep (w : World) (q : Request) (body : Json) : Phase :=
  match keyHeader q.headers with
  | .key k =>
    match lookup w.responses scope k with
    | some row => .replayed row.responseBody none
    | none => checkStep R w body
  | _ => checkStep R w body

def commitWrite (w : World) (rows : List PinnedKey) (x : PinWrite) : World :=
  { w with rows := rows, writes := w.writes++[x], writers := w.writers++[n] }

def upsertStep (w : World) (q : Request) (p : Pin) (stamp : Instant) : World × Phase :=
  (commitWrite n w (upsertPin w.now stamp (actor R q) p w.rows)
      (.put p.key ⟨actor R q, w.now⟩ p.content),
    .noting p w.writes.length)

def deleteStep (w : World) (t : Target) : World × Phase :=
  (commitWrite n w (deletePin t.key w.rows) (.drop t.key),
    if (findPin t.key w.rows).isSome then .unpinning t w.writes.length
    else .answered .missing (some w.writes.length) (w.writes.length+1))

def upsertEntry (p : Pin) : AdminAuditEntry where
  action := js "pinned-key.upsert"
  targetId := some p.aid.val.val
  details := [(js "namespace", .str p.pinNamespace.val.val)]

def deleteEntry (t : Target) : AdminAuditEntry where
  action := js "pinned-key.delete"
  targetId := some t.aid
  details := [(js "namespace", .str t.pinNamespace)]

/-- A failed insert is counted, and the request goes on. -/
def noteStep (io : Io) (w : World) (q : Request) (entry : AdminAuditEntry) : Option World :=
  match io with
  | .ok => some { w with log := writeAdminAudit entry (auditContext q.headers none) w.log }
  | .fault => some { w with log := { w.log with insertFailures := w.log.insertFailures+1 } }
  | .rows _ => none

/-- `rows[0]!` throws when the row is gone. -/
def selectStep (w : World) (p : Pin) (own : ℕ) : Phase :=
  match findPin p.key w.rows with
  | some r => .finished (.upserted r) (some own) w.writes.length
  | none => answer w .gone (some own)

def storeResponse (w : World) (key : Text) (r : Result) : World :=
  { w with responses := persist w.responses scope key r.status r,
           storers := if (lookup w.responses scope key).isSome then w.storers
             else w.storers++[n] }

/-- A result that cannot be stored is sent all the same. -/
def persistStep (stores : Bool) (w : World) (q : Request) (r : Result) (own : Option ℕ)
    (seen : ℕ) : World × Phase :=
  match keyHeader q.headers with
  | .key k =>
    if isCacheable r.status && stores then (storeResponse n w k r, .persisted r own seen)
    else (w, .answered r.answer own seen)
  | _ => (w, .answered r.answer own seen)

def settleStep (w : World) (q : Request) (r : Result) (own : Option ℕ) (seen : ℕ) : Phase :=
  match keyHeader q.headers with
  | .key k =>
    let response := settle w.responses scope k r.status r
    if response.replayed then .replayed response.body own
    else .answered response.body.answer own seen
  | _ => .answered r.answer own seen

def lookStep (w : World) (t : Target) : Phase :=
  match findPin t.key w.rows with
  | some r => answer w (.found r) none
  | none => answer w .missing none

def inNamespace (pinNamespace : Option Text) (r : PinnedKey) : Bool :=
  pinNamespace.all (fun ns => r.pinNamespace = toWellFormed ns)

/-- `ORDER BY created_at DESC` -/
def listable (pinNamespace : Option Text) (w : World) (rs : List PinnedKey) : Bool :=
  rs.isPerm (w.rows.filter (inNamespace pinNamespace)) &&
    decide (rs.Pairwise (fun a b => b.createdAt ≤ a.createdAt))

def routeStep (q : Request) (io : Io) (w : World) : Phase → Option (World × Phase)
  | .received => some (w, begin R w q)
  | .keyed body =>
    match io with
    | .ok => some (w, lookupStep R w q body)
    | .fault => some (w, answer w .threw none)
    | .rows _ => none
  | .upserting p stamp =>
    match io with
    | .ok => some (upsertStep R n w q p stamp)
    | .fault => some (w, answer w .threw none)
    | .rows _ => none
  | .noting p own => (noteStep io w q (upsertEntry p)).map (fun v => (v, .selecting p own))
  | .selecting p own =>
    match io with
    | .ok => some (w, selectStep w p own)
    | .fault => some (w, answer w .threw (some own))
    | .rows _ => none
  | .deleting t =>
    match io with
    | .ok => some (deleteStep n w t)
    | .fault => some (w, answer w .threw none)
    | .rows _ => none
  | .unpinning t own =>
    (noteStep io w q (deleteEntry t)).map (fun v => (v, answer v .deleted (some own)))
  | .looking t =>
    match io with
    | .ok => some (w, lookStep w t)
    | .fault => some (w, answer w .threw none)
    | .rows _ => none
  | .listing ns =>
    match io with
    | .rows rs => if listable ns w rs then some (w, answer w (.listed rs) none) else none
    | .fault => some (w, answer w .threw none)
    | .ok => none
  | .finished r own seen =>
    match io with
    | .ok => some (persistStep n true w q r own seen)
    | .fault => some (persistStep n false w q r own seen)
    | .rows _ => none
  | .persisted r own seen =>
    match io with
    | .ok => some (w, settleStep w q r own seen)
    | .fault => some (w, answer w .threw own)
    | .rows _ => none
  | .answered _ _ _ => none
  | .replayed _ _ => none

def act (n : ℕ) (io : Io) (w : World) (t : Thread) : Option (World × Thread) :=
  (routeStep R n t.request io w t.phase).map (fun r => (r.1, ⟨t.request, r.2⟩))

def tick (t : Instant) (w : World) : Option World :=
  if w.now ≤ t then some { w with now := t } else none

def pins : System World ℕ Thread Instant Io Request := ⟨tick, fun q => ⟨q, .received⟩, act R⟩

def empty (now : Instant) : Pool World ℕ Thread := idle ⟨now, [], ⟨[], 0⟩, [], [], [], []⟩

end Route

section Rows

theorem key_storable (p : Pin) : keyStorable p.key = true := by
  have hns := checkColumnString_none _ _ _ _ p.pinNamespace.val.property
  have haid := checkColumnString_none _ _ _ _ p.aid.val.property
  have hns' := toWellFormed_filled _ p.pinNamespace.property
  have haid' := toWellFormed_filled _ p.aid.property
  simp only [keyStorable, Pin.key, storedKey, fits_toWellFormed, hns, haid, Bool.true_and,
    Bool.and_true, Bool.and_eq_true, Bool.not_eq_true', List.isEmpty_eq_false_iff]
  exact ⟨hns', haid'⟩

theorem content_storable (p : Pin) : p.content.storable = true := by
  have hlabel : p.content.label.all (fitsVarchar labelMax) = true := by
    simp only [Pin.content, Option.all_map, Option.all_eq_true_iff_get]
    intro h
    exact (fits_toWellFormed _ _).trans (checkColumnString_none _ _ _ _ (p.label.get h).property)
  have hexpires : p.content.expiresAt.all instantStorable = true := by
    simp only [Pin.content, Option.all_map, Option.all_eq_true_iff_get]
    exact fun h => (p.expiresAt.get h).property
  rw [Content.storable, hlabel, hexpires]
  exact congrArg (· && true && true) p.pubkey.property

theorem upsert_storable (now stamp : Instant) (actor : Option Text) (p : Pin)
    (rows : List PinnedKey) (h : ∀ r ∈ rows, r.storable = true) :
    ∀ r ∈ upsertPin now stamp actor p rows, r.storable = true := by
  intro r hr
  unfold upsertPin at hr
  split_ifs at hr
  · obtain ⟨old, hold, rfl⟩ := List.mem_map.mp hr
    split_ifs with hk
    · have hkey := key_storable p
      rw [← hk] at hkey
      exact Bool.and_eq_true_iff.mpr ⟨hkey, content_storable p⟩
    · exact h old hold
  · rcases List.mem_append.mp hr with hold | hnew
    · exact h r hold
    · rw [List.mem_singleton.mp hnew]
      exact Bool.and_eq_true_iff.mpr ⟨key_storable p, content_storable p⟩

/-- The rows are those that the writes leave, and their columns hold them. -/
structure Sound (w : World) : Prop where
  history : w.rows.map view = history w.writes
  storable : ∀ r ∈ w.rows, r.storable = true

variable (n : ℕ) (w : World)

theorem sound_upsert (R : Runtime) (q : Request) (p : Pin) (stamp : Instant) (h : Sound w) :
    Sound (upsertStep R n w q p stamp).1 := by
  constructor
  · change (upsertPin w.now stamp _ p w.rows).map view = UpsertHistory.history (w.writes++[_])
    rw [history_snoc, upsert_view, h.history]
  · exact upsert_storable _ _ _ _ _ h.storable

theorem sound_delete (t : Target) (h : Sound w) : Sound (deleteStep n w t).1 := by
  constructor
  · change (deletePin t.key w.rows).map view = UpsertHistory.history (w.writes++[_])
    rw [history_snoc, delete_view, h.history]
  · intro r hr
    exact h.storable r (List.mem_of_mem_filter hr)

theorem sound_rows (v : World) (h : Sound w) (hrows : v.rows = w.rows)
    (hwrites : v.writes = w.writes) : Sound v := by
  constructor
  · rw [hrows, hwrites, h.history]
  · exact hrows ▸ h.storable

theorem sound_find (key : PinKey) (h : Sound w) :
    (findPin key w.rows).map view = rowOf key (since key w.writes) := by
  rw [find_view, h.history, find_history]

end Rows

section Moves
variable (R : Runtime) (n : ℕ) (q : Request)

def attempts (log : AuditLog) : ℕ := log.rows.length+log.insertFailures

inductive Move (w : World) : Phase → World → Phase → Prop
  | receive : Move w .received w (begin R w q)
  | lookUp (body : Json) : Move w (.keyed body) w (lookupStep R w q body)
  | lookUpFails (body : Json) : Move w (.keyed body) w (answer w .threw none)
  | upsert (p : Pin) (stamp : Instant) :
    Move w (.upserting p stamp) (upsertStep R n w q p stamp).1 (upsertStep R n w q p stamp).2
  | note (p : Pin) (own : ℕ) (log : AuditLog) (h : attempts log = attempts w.log+1) :
    Move w (.noting p own) { w with log := log } (.selecting p own)
  | select (p : Pin) (own : ℕ) : Move w (.selecting p own) w (selectStep w p own)
  | unselected (p : Pin) (own : ℕ) : Move w (.selecting p own) w (answer w .threw (some own))
  | store (r : Result) (own : Option ℕ) (seen : ℕ) (k : Text) (hk : keyHeader q.headers = .key k) :
    Move w (.finished r own seen) (storeResponse n w k r) (.persisted r own seen)
  | close (r : Result) (own : Option ℕ) (seen : ℕ) :
    Move w (.finished r own seen) w (.answered r.answer own seen)
  | settle (r : Result) (own : Option ℕ) (seen : ℕ) :
    Move w (.persisted r own seen) w (settleStep w q r own seen)
  | unsettled (r : Result) (own : Option ℕ) (seen : ℕ) :
    Move w (.persisted r own seen) w (answer w .threw own)
  | delete (t : Target) : Move w (.deleting t) (deleteStep n w t).1 (deleteStep n w t).2
  | unpin (t : Target) (own : ℕ) (log : AuditLog) (h : attempts log = attempts w.log+1) :
    Move w (.unpinning t own) { w with log := log } (answer w .deleted (some own))
  | look (t : Target) : Move w (.looking t) w (lookStep w t)
  | list (ns : Option Text) (rs : List PinnedKey) (h : listable ns w rs = true) :
    Move w (.listing ns) w (answer w (.listed rs) none)
  | upsertFails (p : Pin) (stamp : Instant) :
    Move w (.upserting p stamp) w (answer w .threw none)
  | deleteFails (t : Target) : Move w (.deleting t) w (answer w .threw none)
  | lookFails (t : Target) : Move w (.looking t) w (answer w .threw none)
  | listFails (ns : Option Text) : Move w (.listing ns) w (answer w .threw none)

variable {R n q}

theorem writeAdminAudit_attempts (entry : AdminAuditEntry) (ctx : AuditContext) (log : AuditLog) :
    attempts (writeAdminAudit entry ctx log) = attempts log+1 := by
  unfold writeAdminAudit attempts
  split_ifs
  · simp only [List.length_append, List.length_singleton]
    omega
  · rfl

theorem note_some (io : Io) (w v : World) (entry : AdminAuditEntry)
    (h : noteStep io w q entry = some v) :
    ∃ log, v = { w with log := log } ∧ attempts log = attempts w.log+1 := by
  cases io with
  | ok =>
    cases h
    exact ⟨_, rfl, writeAdminAudit_attempts _ _ _⟩
  | fault =>
    cases h
    exact ⟨_, rfl, rfl⟩
  | rows rs => cases h

theorem persist_move (stores : Bool) (w v : World) (r : Result) (own : Option ℕ) (seen : ℕ)
    (ph : Phase) (h : persistStep n stores w q r own seen = (v, ph)) :
    Move R n q w (.finished r own seen) v ph := by
  unfold persistStep at h
  split at h
  · next k hk =>
    split_ifs at h
    · cases h
      exact .store r own seen k hk
    · cases h
      exact .close r own seen
  · cases h
    exact .close r own seen

theorem route_move (io : Io) (w v : World) (ph ph' : Phase)
    (h : routeStep R n q io w ph = some (v, ph')) : Move R n q w ph v ph' := by
  cases ph with
  | received =>
    cases h
    exact .receive
  | keyed body =>
    cases io <;> cases h
    · exact .lookUp body
    · exact .lookUpFails body
  | upserting p stamp =>
    cases io <;> cases h
    · exact .upsert p stamp
    · exact .upsertFails p stamp
  | noting p own =>
    obtain ⟨u, hu, heq⟩ := Option.map_eq_some_iff.mp h
    obtain ⟨log, rfl, hlog⟩ := note_some io w u _ hu
    cases heq
    exact .note p own log hlog
  | selecting p own =>
    cases io <;> cases h
    · exact .select p own
    · exact .unselected p own
  | deleting t =>
    cases io <;> cases h
    · exact .delete t
    · exact .deleteFails t
  | unpinning t own =>
    obtain ⟨u, hu, heq⟩ := Option.map_eq_some_iff.mp h
    obtain ⟨log, rfl, hlog⟩ := note_some io w u _ hu
    cases heq
    exact .unpin t own log hlog
  | looking t =>
    cases io <;> cases h
    · exact .look t
    · exact .lookFails t
  | listing ns =>
    cases io with
    | ok => cases h
    | fault =>
      cases h
      exact .listFails ns
    | rows rs =>
      simp only [routeStep] at h
      split_ifs at h with hl
      cases h
      exact .list ns rs hl
  | finished r own seen =>
    cases io with
    | ok => exact persist_move true w v r own seen ph' (Option.some.inj h)
    | fault => exact persist_move false w v r own seen ph' (Option.some.inj h)
    | rows rs => cases h
  | persisted r own seen =>
    cases io <;> cases h
    · exact .settle r own seen
    · exact .unsettled r own seen
  | answered a own seen => cases h
  | replayed a own => cases h

end Moves

section Answers
variable (R : Runtime)

def Request.sends (q : Request) (body : Json) : Prop :=
  ∃ h b, q = .post h b ∧ readJsonObject b = .ok body

def Request.posts (q : Request) (p : Pin) : Prop :=
  ∃ body, q.sends body ∧ readPin R.parseDate body = .ok p

def Request.keyed (q : Request) (k : Text) : Prop :=
  ∃ body, q.sends body ∧ keyHeader q.headers = .key k

def Request.deletes (q : Request) (t : Target) : Prop :=
  ∃ h sp, q = .delete h sp ∧ badQuery sp = none ∧ target sp = some t

def Request.looks (q : Request) (t : Target) : Prop :=
  ∃ sp, q = .get sp ∧ badQuery sp = none ∧ target sp = some t

def Request.lists (q : Request) (ns : Option Text) : Prop :=
  ∃ sp, q = .get sp ∧ badQuery sp = none ∧ target sp = none ∧ ns = present (sp (js "namespace"))

inductive Begun (w : World) (q : Request) : Phase → Prop
  | refused (problem : Problem) : Begun w q (answer w (.refused problem) none)
  | asks (body : Json) (hq : q.sends body) : Begun w q (.keyed body)
  | invalid (body : Json) (error : Text) (hq : q.sends body) :
    Begun w q (.finished (.invalid error) none w.writes.length)
  | posts (p : Pin) (hq : q.posts R p) : Begun w q (.upserting p w.now)
  | deletes (t : Target) (hq : q.deletes t) : Begun w q (.deleting t)
  | looks (t : Target) (hq : q.looks t) : Begun w q (.looking t)
  | lists (ns : Option Text) (hq : q.lists ns) : Begun w q (.listing ns)

def Upserted (ws : List PinWrite) (q : Request) (p : Pin) (own : ℕ) : Prop :=
  q.posts R p ∧ ∃ at', ws[own]? = some (.put p.key ⟨actor R q, at'⟩ p.content)

def inNamespaceRow (ns : Option Text) (r : Row PinKey Opened Content) : Bool :=
  ns.all (fun ns => r.key.1 = toWellFormed ns)

/-- An answer is what the writes that it has seen give, one after the other. -/
inductive Told (ws : List PinWrite) (q : Request) : Answer → Option ℕ → ℕ → Prop
  | refused (problem : Problem) (seen : ℕ) : Told ws q (.refused problem) none seen
  | threw (own : Option ℕ) (seen : ℕ) : Told ws q .threw own seen
  | created (p : Pin) (own seen : ℕ) (r : PinnedKey) (hput : Upserted R ws q p own)
    (hown : own < seen) (hseen : seen ≤ ws.length)
    (hrow : rowOf p.key (since p.key (ws.take seen)) = some (view r)) :
    Told ws q (.created r) (some own) seen
  | gone (p : Pin) (own seen dropped : ℕ) (hput : Upserted R ws q p own)
    (hown : own < dropped) (hdropped : dropped < seen)
    (hdrop : ws[dropped]? = some (.drop p.key)) : Told ws q .gone (some own) seen
  | deleted (t : Target) (own seen : ℕ) (hq : q.deletes t)
    (hdrop : ws[own]? = some (.drop t.key)) (hrow : since t.key (ws.take own) ≠ []) :
    Told ws q .deleted (some own) seen
  | absent (t : Target) (own seen : ℕ) (hq : q.deletes t)
    (hdrop : ws[own]? = some (.drop t.key)) (hrow : since t.key (ws.take own) = []) :
    Told ws q .missing (some own) seen
  | found (t : Target) (seen : ℕ) (r : PinnedKey) (hq : q.looks t) (hseen : seen ≤ ws.length)
    (hrow : rowOf t.key (since t.key (ws.take seen)) = some (view r)) :
    Told ws q (.found r) none seen
  | missing (t : Target) (seen : ℕ) (hq : q.looks t) (hseen : seen ≤ ws.length)
    (hrow : since t.key (ws.take seen) = []) : Told ws q .missing none seen
  | listed (ns : Option Text) (seen : ℕ) (rs : List PinnedKey) (hq : q.lists ns)
    (hseen : seen ≤ ws.length)
    (hrows : (rs.map view).Perm ((history (ws.take seen)).filter (inNamespaceRow ns)))
    (hsorted : rs.Pairwise (fun a b => b.createdAt ≤ a.createdAt)) :
    Told ws q (.listed rs) none seen

def Truthful (ws : List PinWrite) (q : Request) : Phase → Prop
  | .received => True
  | .keyed body => q.sends body
  | .upserting p _ => q.posts R p
  | .noting p own => Upserted R ws q p own
  | .selecting p own => Upserted R ws q p own
  | .deleting t => q.deletes t
  | .unpinning t own =>
    q.deletes t ∧ ws[own]? = some (.drop t.key) ∧ since t.key (ws.take own) ≠ []
  | .looking t => q.looks t
  | .listing ns => q.lists ns
  | .finished r own seen => (∃ body, q.sends body) ∧ Told R ws q r.answer own seen
  | .persisted r own seen => (∃ body, q.sends body) ∧ Told R ws q r.answer own seen
  | .answered a own seen => Told R ws q a own seen
  | .replayed _ own => ∀ i, own = some i → ∃ p, Upserted R ws q p i

section Growth
variable {R} {q : Request} {ws : List PinWrite} (more : List PinWrite)

theorem position_mono (i : ℕ) (x : PinWrite) (h : ws[i]? = some x) :
    (ws++more)[i]? = some x ∧ (ws++more).take i = ws.take i := by
  obtain ⟨hlt, _⟩ := List.getElem?_eq_some_iff.mp h
  rw [List.getElem?_append_left hlt, List.take_append_of_le_length hlt.le]
  exact ⟨h, rfl⟩

theorem upserted_mono (p : Pin) (own : ℕ) (h : Upserted R ws q p own) :
    Upserted R (ws++more) q p own := by
  obtain ⟨hq, at', hput⟩ := h
  exact ⟨hq, at', (position_mono more own _ hput).1⟩

theorem told_mono (a : Answer) (own : Option ℕ) (seen : ℕ) (h : Told R ws q a own seen) :
    Told R (ws++more) q a own seen := by
  have hlen : ws.length ≤ (ws++more).length := by simp
  have htake : ∀ n, n ≤ ws.length → (ws++more).take n = ws.take n :=
    fun n hn => List.take_append_of_le_length hn
  cases h with
  | refused problem => exact .refused problem seen
  | threw => exact .threw own seen
  | created p i _ r hput hown hseen hrow =>
    exact .created p i seen r (upserted_mono more p i hput) hown (hseen.trans hlen)
      (htake seen hseen ▸ hrow)
  | gone p i _ j hput hown hdropped hdrop =>
    exact .gone p i seen j (upserted_mono more p i hput) hown hdropped
      (position_mono more j _ hdrop).1
  | deleted t i _ hq hdrop hrow =>
    have hpos := position_mono more i _ hdrop
    exact .deleted t i seen hq hpos.1 (hpos.2 ▸ hrow)
  | absent t i _ hq hdrop hrow =>
    have hpos := position_mono more i _ hdrop
    exact .absent t i seen hq hpos.1 (hpos.2 ▸ hrow)
  | found t _ r hq hseen hrow =>
    exact .found t seen r hq (hseen.trans hlen) (htake seen hseen ▸ hrow)
  | missing t _ hq hseen hrow =>
    exact .missing t seen hq (hseen.trans hlen) (htake seen hseen ▸ hrow)
  | listed ns _ rs hq hseen hrows hsorted =>
    exact .listed ns seen rs hq (hseen.trans hlen) (htake seen hseen ▸ hrows) hsorted

theorem truthful_mono (ph : Phase) (h : Truthful R ws q ph) : Truthful R (ws++more) q ph := by
  cases ph with
  | noting p own => exact upserted_mono more p own h
  | selecting p own => exact upserted_mono more p own h
  | unpinning t own =>
    obtain ⟨hq, hdrop, hrow⟩ := h
    have hpos := position_mono more own _ hdrop
    exact ⟨hq, hpos.1, hpos.2 ▸ hrow⟩
  | finished r own seen => exact ⟨h.1, told_mono more r.answer own seen h.2⟩
  | persisted r own seen => exact ⟨h.1, told_mono more r.answer own seen h.2⟩
  | answered a own seen => exact told_mono more a own seen h
  | replayed r own =>
    intro i hi
    obtain ⟨p, hp⟩ := h i hi
    exact ⟨p, upserted_mono more p i hp⟩
  | _ => exact h

end Growth

section Step
variable {R} (n : ℕ) (q : Request) (w : World)

theorem check_begun (body : Json) (hq : q.sends body) : Begun R w q (checkStep R w body) := by
  unfold checkStep
  split
  · exact .invalid body _ hq
  · next p hp => exact .posts p ⟨body, hq, hp⟩

theorem begin_begun : Begun R w q (begin R w q) := by
  cases q with
  | post h body =>
    simp only [begin]
    split
    · exact .refused _
    · next v hv =>
      have hsends : (Request.post h body).sends v := ⟨h, body, rfl, hv⟩
      split
      · exact check_begun _ w v hsends
      · exact .refused _
      · exact .asks v hsends
  | delete h sp =>
    simp only [begin]
    split
    · exact .refused _
    · next hbad =>
      split
      · next t ht => exact .deletes t ⟨h, sp, rfl, hbad, ht⟩
      · exact .refused _
  | get sp =>
    simp only [begin]
    split
    · exact .refused _
    · next hbad =>
      split
      · next t ht => exact .looks t ⟨sp, rfl, hbad, ht⟩
      · next ht => exact .lists _ ⟨sp, rfl, hbad, ht, rfl⟩

theorem begun_truthful (ph : Phase) (h : Begun R w q ph) : Truthful R w.writes q ph := by
  cases h with
  | refused problem => exact .refused problem _
  | asks body hb => exact hb
  | invalid body error hb => exact ⟨⟨body, hb⟩, .refused _ _⟩
  | posts p hp => exact hp
  | deletes t ht => exact ht
  | looks t ht => exact ht
  | lists ns hns => exact hns

theorem lookup_cases (body : Json) :
    (∃ k row, keyHeader q.headers = .key k ∧ lookup w.responses scope k = some row ∧
      lookupStep R w q body = .replayed row.responseBody none) ∨
    lookupStep R w q body = checkStep R w body := by
  unfold lookupStep
  split
  · next k hk =>
    split
    · next row hrow => exact Or.inl ⟨k, row, hk, hrow, rfl⟩
    · exact Or.inr rfl
  · exact Or.inr rfl

theorem lookup_truthful (body : Json) (h : q.sends body) :
    Truthful R w.writes q (lookupStep R w q body) := by
  rcases lookup_cases (R := R) q w body with ⟨k, row, _, _, hfound⟩ | hnew
  · rw [hfound]
    intro i hi
    cases hi
  · rw [hnew]
    exact begun_truthful q w _ (check_begun q w body h)

theorem told_upserted (r : Result) (i seen : ℕ) (h : Told R w.writes q r.answer (some i) seen) :
    ∃ p, Upserted R w.writes q p i := by
  cases r with
  | invalid error => cases h
  | upserted row =>
    cases h with
    | created p own _ _ hput => exact ⟨p, hput⟩

theorem settle_truthful (r : Result) (own : Option ℕ) (seen : ℕ)
    (h : Told R w.writes q r.answer own seen) :
    Truthful R w.writes q (settleStep w q r own seen) := by
  unfold settleStep
  split
  · next k _ =>
    dsimp only
    split_ifs with hreplayed
    · rintro i rfl
      exact told_upserted q w r i seen h
    · rw [settle_unmarked _ _ _ _ _ (by simpa using hreplayed)]
      exact h
  · exact h

theorem last_write (x : PinWrite) :
    (w.writes++[x])[w.writes.length]? = some x ∧
      (w.writes++[x]).take w.writes.length = w.writes := by
  simp

theorem select_truthful (p : Pin) (own : ℕ) (hsound : Sound w)
    (h : Upserted R w.writes q p own) : Truthful R w.writes q (selectStep w p own) := by
  have hfind := sound_find w p.key hsound
  obtain ⟨_, at', hput⟩ := id h
  obtain ⟨hown, _⟩ := List.getElem?_eq_some_iff.mp hput
  unfold selectStep
  cases hr : findPin p.key w.rows with
  | some r =>
    rw [hr, Option.map_some] at hfind
    obtain ⟨⟨body, hb, _⟩, _⟩ := id h
    refine ⟨⟨body, hb⟩, Told.created p own w.writes.length r h hown le_rfl ?_⟩
    rw [List.take_length, hfind]
  | none =>
    rw [hr, Option.map_none] at hfind
    have hnone := (rowOf_none p.key _).mp hfind.symm
    obtain ⟨j, hj, hdrop⟩ := dropped_after w.writes p.key own _ _ hput hnone
    obtain ⟨hlt, _⟩ := List.getElem?_eq_some_iff.mp hdrop
    exact Told.gone p own w.writes.length j h hj hlt hdrop

theorem look_truthful (t : Target) (hsound : Sound w) (h : q.looks t) :
    Truthful R w.writes q (lookStep w t) := by
  have hfind := sound_find w t.key hsound
  unfold lookStep
  cases hr : findPin t.key w.rows with
  | some r =>
    rw [hr, Option.map_some] at hfind
    apply Told.found t w.writes.length r h le_rfl
    rw [List.take_length, hfind]
  | none =>
    rw [hr, Option.map_none] at hfind
    apply Told.missing t w.writes.length h le_rfl
    rw [List.take_length, (rowOf_none t.key _).mp hfind.symm]

theorem delete_truthful (t : Target) (hsound : Sound w) (h : q.deletes t) :
    Truthful R (deleteStep n w t).1.writes q (deleteStep n w t).2 := by
  have hfind := sound_find w t.key hsound
  obtain ⟨hlast, hbefore⟩ := last_write w (.drop t.key)
  cases hr : findPin t.key w.rows with
  | some r =>
    rw [hr, Option.map_some] at hfind
    have hrow : since t.key w.writes ≠ [] := by
      intro hnone
      rw [(rowOf_none t.key _).mpr hnone] at hfind
      cases hfind
    have hph : (deleteStep n w t).2 = .unpinning t w.writes.length := by
      simp [deleteStep, hr]
    rw [hph]
    exact ⟨h, hlast, by rwa [← hbefore] at hrow⟩
  | none =>
    rw [hr, Option.map_none] at hfind
    have hph : (deleteStep n w t).2 =
        .answered .missing (some w.writes.length) (w.writes.length+1) := by
      simp [deleteStep, hr]
    rw [hph]
    apply Told.absent t w.writes.length _ h hlast
    change since t.key ((w.writes++[_]).take _) = []
    rw [hbefore, (rowOf_none t.key _).mp hfind.symm]

theorem list_truthful (ns : Option Text) (rs : List PinnedKey) (hsound : Sound w)
    (h : q.lists ns) (hl : listable ns w rs = true) :
    Truthful R w.writes q (answer w (.listed rs) none) := by
  rw [listable, Bool.and_eq_true, List.isPerm_iff, decide_eq_true_eq] at hl
  apply Told.listed ns w.writes.length rs h le_rfl _ hl.2
  rw [List.take_length, ← hsound.history, List.filter_map]
  exact hl.1.map view

theorem truthful_step (v : World) (ph ph' : Phase) (hsound : Sound w)
    (h : Truthful R w.writes q ph) (hm : Move R n q w ph v ph') :
    Sound v ∧ (∃ more, v.writes = w.writes++more) ∧ Truthful R v.writes q ph' := by
  have hsame : ∃ more, w.writes = w.writes++more := ⟨[], by simp⟩
  cases hm with
  | receive => exact ⟨hsound, hsame, begun_truthful q w _ (begin_begun q w)⟩
  | lookUp body => exact ⟨hsound, hsame, lookup_truthful q w body h⟩
  | lookUpFails body => exact ⟨hsound, hsame, .threw _ _⟩
  | upsert p stamp =>
    exact ⟨sound_upsert n w R q p stamp hsound, ⟨_, rfl⟩, h, w.now, (last_write w _).1⟩
  | note p own log _ => exact ⟨sound_rows w _ hsound rfl rfl, hsame, h⟩
  | select p own => exact ⟨hsound, hsame, select_truthful q w p own hsound h⟩
  | unselected p own => exact ⟨hsound, hsame, .threw _ _⟩
  | store r own seen k _ => exact ⟨sound_rows w _ hsound rfl rfl, hsame, h⟩
  | close r own seen => exact ⟨hsound, hsame, h.2⟩
  | settle r own seen => exact ⟨hsound, hsame, settle_truthful q w r own seen h.2⟩
  | unsettled r own seen => exact ⟨hsound, hsame, .threw _ _⟩
  | delete t =>
    exact ⟨sound_delete n w t hsound, ⟨_, rfl⟩, delete_truthful n q w t hsound h⟩
  | unpin t own log _ =>
    exact ⟨sound_rows w _ hsound rfl rfl, hsame, .deleted t own _ h.1 h.2.1 h.2.2⟩
  | look t => exact ⟨hsound, hsame, look_truthful q w t hsound h⟩
  | list ns rs hl => exact ⟨hsound, hsame, list_truthful q w ns rs hsound h hl⟩
  | upsertFails p stamp => exact ⟨hsound, hsame, .threw _ _⟩
  | deleteFails t => exact ⟨hsound, hsame, .threw _ _⟩
  | lookFails t => exact ⟨hsound, hsame, .threw _ _⟩
  | listFails ns => exact ⟨hsound, hsame, .threw _ _⟩

theorem move_stores (v : World) (ph ph' : Phase) (hm : Move R n q w ph v ph') :
    v.responses = w.responses ∧ v.storers = w.storers ∨
      ∃ r own seen k, ph = .finished r own seen ∧ keyHeader q.headers = .key k ∧
        v.responses = w.responses++[⟨scope, k, r.status, r⟩] ∧ v.storers = w.storers++[n] := by
  cases hm with
  | store r own seen k hk =>
    by_cases hsome : (lookup w.responses scope k).isSome = true
    · exact Or.inl ⟨if_pos hsome, if_pos hsome⟩
    · exact Or.inr ⟨r, own, seen, k, rfl, hk, if_neg hsome, if_neg hsome⟩
  | _ => exact Or.inl ⟨rfl, rfl⟩

theorem move_replayed (v : World) (ph : Phase) (r : Result) (own : Option ℕ)
    (hm : Move R n q w ph v (.replayed r own)) (h : Truthful R w.writes q ph) :
    ∃ x ∈ w.responses, x.responseBody = r ∧ q.keyed x.key := by
  generalize hph' : Phase.replayed r own = ph' at hm
  have hbegun : ∀ ph', Begun R w q ph' → Phase.replayed r own ≠ ph' := by
    rintro _ hb rfl
    cases hb
  cases hm with
  | receive => exact (hbegun _ (begin_begun q w) hph').elim
  | lookUp body =>
    rcases lookup_cases (R := R) q w body with ⟨k, row, hk, hrow, hfound⟩ | hnew
    · rw [hfound] at hph'
      cases hph'
      obtain ⟨hmem, _, hkey⟩ := lookup_mem _ _ _ _ hrow
      exact ⟨row, hmem, rfl, body, h, hkey ▸ hk⟩
    · exact (hbegun _ (check_begun q w body h) (hph'.trans hnew)).elim
  | settle r' own' seen =>
    obtain ⟨⟨body, hbody⟩, _⟩ := h
    unfold settleStep at hph'
    split at hph'
    · next k hk =>
      dsimp only at hph'
      split_ifs at hph' with hreplayed
      cases hph'
      obtain ⟨row, hrow, hbody'⟩ := settle_marked _ _ _ _ _ hreplayed
      obtain ⟨hmem, _, hkey⟩ := lookup_mem _ _ _ _ hrow
      exact ⟨row, hmem, hbody'.symm, body, hbody, hkey ▸ hk⟩
    · cases hph'
  | select p own' =>
    unfold selectStep at hph'
    split at hph' <;> cases hph'
  | delete t =>
    simp only [deleteStep] at hph'
    split_ifs at hph'
  | look t =>
    unfold lookStep at hph'
    split at hph' <;> cases hph'
  | _ => cases hph'

end Step

section Runs
variable {R}

theorem tick_some (t : Instant) (w v : World) (h : tick t w = some v) :
    v = { w with now := t } := by
  simp only [tick, Option.ite_none_right_eq_some, Option.some.injEq] at h
  exact h.2.symm

def TruthfulThread (R : Runtime) (_ : ℕ) (w : World) : Option Thread → Prop
  | some t => Truthful R w.writes t.request t.phase
  | none => True

theorem act_move (n : ℕ) (io : Io) (w v : World) (t u : Thread)
    (h : act R n io w t = some (v, u)) :
    Move R n t.request w t.phase v u.phase ∧ u.request = t.request := by
  obtain ⟨⟨v', ph⟩, hs, heq⟩ := Option.map_eq_some_iff.mp h
  cases heq
  exact ⟨route_move io w _ t.phase ph hs, rfl⟩

/-- The responses that bear the name of a request are what it was due, and it
has been answered with a stored response of its key if with any. -/
structure Backed (R : Runtime) (n : ℕ) (w : World) (o : Option Thread) : Prop where
  stored : ∀ i : ℕ, w.storers[i]? = some n → ∃ (t : Thread) (x : StoredResponse Result)
    (own : Option ℕ) (seen : ℕ), o = some t ∧
    w.responses[i]? = some x ∧ t.request.keyed x.key ∧
      Told R w.writes t.request x.responseBody.answer own seen
  replayed : ∀ t r own, o = some t → t.phase = .replayed r own →
    ∃ (i : ℕ) (x : StoredResponse Result), w.responses[i]? = some x ∧ x.responseBody = r ∧
      t.request.keyed x.key

structure WorldOk (w : World) : Prop where
  sound : Sound w
  named : w.storers.length = w.responses.length

structure ThreadOk (R : Runtime) (n : ℕ) (w : World) (o : Option Thread) : Prop where
  truthful : TruthfulThread R n w o
  backed : Backed R n w o

structure Grown (n : ℕ) (w v : World) : Prop where
  writes : ∃ more, v.writes = w.writes++more
  responses : ∃ more, v.responses = w.responses++more
  storers : v.storers = w.storers ∨ v.storers = w.storers++[n]

theorem responses_grown (n i : ℕ) (w v : World) (h : Grown n w v) (x : StoredResponse Result)
    (hx : w.responses[i]? = some x) : v.responses[i]? = some x := by
  obtain ⟨more, hmore⟩ := h.responses
  obtain ⟨hlt, _⟩ := List.getElem?_eq_some_iff.mp hx
  rw [hmore, List.getElem?_append_left hlt, hx]

theorem storers_grown (n m i : ℕ) (w v : World) (h : Grown n w v)
    (hi : v.storers[i]? = some m) : w.storers[i]? = some m ∨ i = w.storers.length ∧ m = n := by
  rcases h.storers with hs | hs
  · exact Or.inl (hs ▸ hi)
  · rw [hs] at hi
    rcases Nat.lt_or_ge i w.storers.length with hlt | hge
    · rw [List.getElem?_append_left hlt] at hi
      exact Or.inl hi
    · rw [List.getElem?_append_right hge] at hi
      obtain ⟨hlt, hget⟩ := List.getElem?_eq_some_iff.mp hi
      have hzero : i-w.storers.length = 0 := by simpa using hlt
      simp only [hzero, List.getElem_cons_zero] at hget
      exact Or.inr ⟨by omega, hget.symm⟩

theorem truthful_grown (n m : ℕ) (w v : World) (h : Grown n w v) (o : Option Thread)
    (ho : TruthfulThread R m w o) : TruthfulThread R m v o := by
  obtain ⟨more, hmore⟩ := h.writes
  cases o with
  | none => trivial
  | some x =>
    rw [TruthfulThread, hmore]
    exact truthful_mono more x.phase ho

theorem backed_other (n m : ℕ) (hne : m ≠ n) (w v : World) (h : Grown n w v)
    (o : Option Thread) (hb : Backed R m w o) : Backed R m v o := by
  obtain ⟨more, hmore⟩ := h.writes
  constructor
  · intro i hi
    rcases storers_grown n m i w v h hi with hold | ⟨_, hmn⟩
    · obtain ⟨t, x, own, seen, ht, hx, hk, htold⟩ := hb.stored i hold
      refine ⟨t, x, own, seen, ht, responses_grown n i w v h x hx, hk, ?_⟩
      rw [hmore]
      exact told_mono more _ own seen htold
    · exact (hne hmn).elim
  · intro t r own ht hph
    obtain ⟨i, x, hx, hr, hk⟩ := hb.replayed t r own ht hph
    exact ⟨i, x, responses_grown n i w v h x hx, hr, hk⟩

theorem move_grown (n : ℕ) (w v : World) (t u : Thread) (hw : Sound w)
    (ht : Truthful R w.writes t.request t.phase) (hm : Move R n t.request w t.phase v u.phase) :
    Grown n w v := by
  obtain ⟨_, hwrites, _⟩ := truthful_step n t.request w v t.phase u.phase hw ht hm
  rcases move_stores n t.request w v t.phase u.phase hm with
    ⟨hr, hs⟩ | ⟨_, _, _, _, _, _, hr, hs⟩
  · exact ⟨hwrites, ⟨[], by rw [hr, List.append_nil]⟩, Or.inl hs⟩
  · exact ⟨hwrites, ⟨_, hr⟩, Or.inr hs⟩

theorem backed_self (n : ℕ) (w v : World) (t u : Thread) (hw : WorldOk w)
    (ht : ThreadOk R n w (some t)) (hm : Move R n t.request w t.phase v u.phase)
    (hq : u.request = t.request) : Backed R n v (some u) := by
  have hg := move_grown n w v t u hw.sound ht.truthful hm
  obtain ⟨more, hmore⟩ := hg.writes
  have hmono : ∀ a own seen, Told R w.writes t.request a own seen →
      Told R v.writes t.request a own seen := by
    intro a own seen htold
    rw [hmore]
    exact told_mono more a own seen htold
  constructor
  · intro i hi
    rcases storers_grown n n i w v hg hi with hold | ⟨hlast, _⟩
    · obtain ⟨t', x, own, seen, ht', hx, hk, htold⟩ := ht.backed.stored i hold
      obtain rfl := Option.some.inj ht'
      exact ⟨u, x, own, seen, rfl, responses_grown n i w v hg x hx, hq ▸ hk,
        hq ▸ hmono _ own seen htold⟩
    · have htruthful : Truthful R w.writes t.request t.phase := ht.truthful
      rcases move_stores n t.request w v t.phase u.phase hm with
        ⟨_, hs⟩ | ⟨r, own, seen, k, hph, hk, hr, hs⟩
      · rw [hs, List.getElem?_eq_none hlast.ge] at hi
        cases hi
      · rw [hph] at htruthful
        obtain ⟨⟨body, hbody⟩, htold⟩ := htruthful
        refine ⟨u, ⟨scope, k, r.status, r⟩, own, seen, rfl, ?_, hq ▸ ⟨body, hbody, hk⟩,
          hq ▸ hmono _ own seen htold⟩
        rw [hr, hlast, hw.named]
        simp
  · intro u' r own hu' hph
    obtain rfl := Option.some.inj hu'
    rw [hph] at hm
    obtain ⟨x, hx, hr, hk⟩ := move_replayed n t.request w v t.phase r own hm ht.truthful
    obtain ⟨i, hi⟩ := List.mem_iff_getElem?.mp hx
    exact ⟨i, x, responses_grown n i w v hg x hi, hr, hq ▸ hk⟩

theorem answers_kept : Kept (pins R) WorldOk (ThreadOk R) (fun _ => True) := by
  constructor
  · intro e w v _ hw hv
    cases tick_some e w v hv
    refine ⟨⟨sound_rows w _ hw.sound rfl rfl, hw.named⟩, fun n o h => ?_⟩
    exact ⟨by cases o <;> exact h.truthful, h.backed.stored, h.backed.replayed⟩
  · intro n q w _ h
    refine ⟨trivial, ?_, ?_⟩
    · intro i hi
      obtain ⟨t, _, _, _, ht, _⟩ := h.backed.stored i hi
      cases ht
    · intro t r own ht hph
      cases ht
      cases hph
  · intro n io w t v u _ hw ht ha
    obtain ⟨hm, hq⟩ := act_move n io w v t u ha
    have hg := move_grown n w v t u hw.sound ht.truthful hm
    obtain ⟨hv, _, hself⟩ := truthful_step n t.request w v t.phase u.phase hw.sound ht.truthful hm
    refine ⟨⟨hv, ?_⟩, ⟨?_, backed_self n w v t u hw ht hm hq⟩, fun m o hne ho =>
      ⟨truthful_grown n m w v hg o ho.truthful, backed_other n m hne w v hg o ho.backed⟩⟩
    · rcases move_stores n t.request w v t.phase u.phase hm with
        ⟨hr, hs⟩ | ⟨_, _, _, _, _, _, hr, hs⟩
      · rw [hr, hs, hw.named]
      · simp [hr, hs, hw.named]
    · rw [TruthfulThread, hq]
      exact hself

theorem empty_answers (now : Instant) : Holds WorldOk (ThreadOk R) (empty now) :=
  ⟨⟨⟨rfl, fun _ hr => by cases hr⟩, rfl⟩,
    fun _ => ⟨trivial, fun _ hi => (by cases hi), fun _ _ _ ht => (by cases ht)⟩⟩

def noted : Phase → ℤ
  | .selecting _ _ => 1
  | .finished _ (some _) _ => 1
  | .persisted _ (some _) _ => 1
  | .answered .missing _ _ => 0
  | .answered _ (some _) _ => 1
  | .replayed _ (some _) => 1
  | _ => 0

def notedBy : Option Thread → ℤ
  | some t => noted t.phase
  | none => 0

theorem begun_noted (w : World) (q : Request) (ph : Phase) (h : Begun R w q ph) :
    noted ph = 0 := by
  cases h <;> rfl

theorem lookup_noted (w : World) (q : Request) (body : Json) :
    noted (lookupStep R w q body) = 0 := by
  rcases lookup_cases (R := R) q w body with ⟨_, _, _, _, hfound⟩ | hnew
  · rw [hfound]
    rfl
  · rw [hnew, checkStep]
    split <;> rfl

theorem result_noted (r : Result) (own : Option ℕ) (seen : ℕ) :
    noted (.answered r.answer own seen) = noted (.finished r own seen) := by
  cases r <;> cases own <;> rfl

theorem settle_noted (w : World) (q : Request) (r : Result) (own : Option ℕ) (seen : ℕ) :
    noted (settleStep w q r own seen) = noted (.persisted r own seen) := by
  have hresult : ∀ r', noted (.answered (Result.answer r') own seen) =
      noted (.persisted r own seen) := by
    intro r'
    rw [result_noted]
    cases own <;> rfl
  unfold settleStep
  split
  · dsimp only
    split_ifs
    · cases own <;> rfl
    · exact hresult _
  · exact hresult r

theorem noted_step (n : ℕ) (q : Request) (w v : World) (ph ph' : Phase)
    (h : Move R n q w ph v ph') :
    attempts w.log+noted ph' = attempts v.log+noted ph := by
  cases h with
  | receive => rw [begun_noted w q _ (begin_begun q w)]; rfl
  | lookUp body => rw [lookup_noted]; rfl
  | store r own seen k _ => cases own <;> rfl
  | close r own seen => rw [result_noted]
  | settle r own seen => rw [settle_noted]
  | unsettled r own seen => cases own <;> rfl
  | note p own log hlog => simp [noted, hlog]
  | select p own =>
    unfold selectStep
    split <;> rfl
  | delete t =>
    simp only [deleteStep, commitWrite]
    split_ifs <;> rfl
  | unpin t own log hlog => simp [noted, answer, hlog]
  | look t =>
    unfold lookStep
    split <;> rfl
  | _ => rfl

theorem noted_exact :
    Exact (pins R) (fun w => (attempts w.log : ℤ)) notedBy (fun _ _ => True) where
  none := rfl
  env e w v h := by
    cases tick_some e w v h
    rfl
  start q := rfl
  act n io p t v u _ _ ha := by
    obtain ⟨hm, _⟩ := act_move n io p.world v t u ha
    exact noted_step n t.request p.world v t.phase u.phase hm

end Runs

section Scenario

def runtime : Runtime := ⟨fun _ => [0xAB], fun _ => none⟩

def pubkeyText : Text := List.replicate 43 0x41

def pinBody : RequestBody :=
  ⟨false, some (.obj [(js "aid", .str (js "did:a")), (js "pubkey", .str pubkeyText)])⟩

def unpinParams : Params := fun name => if name = js "aid" then some (js "did:a") else none

def labelBody : RequestBody :=
  ⟨false, some (.obj [(js "aid", .str (js "did:a")), (js "pubkey", .str pubkeyText),
    (js "label", .str (js "b"))])⟩

theorem key_legal : RequestGate.isHeaderValue (js "k") = true := by decide

def keyHeaders : Headers := [⟨js "idempotency-key", js "k", key_legal⟩]

/-- A pin is upserted and deleted before its request reads it back, and then
upserted and deleted once more. A pin with an idempotency key is overwritten by
one without, and asked for again with the key. -/
def contended : List (Label ℕ Instant Io Request) :=
  [.start 0 (.post [] pinBody), .start 1 (.delete [] unpinParams), .act 0 .ok, .act 0 .ok,
    .act 0 .ok, .act 1 .ok, .act 1 .ok, .act 1 .fault, .act 0 .ok, .env 5,
    .start 2 (.post [] pinBody), .act 2 .ok, .act 2 .ok, .act 2 .ok, .act 2 .ok, .act 2 .ok,
    .start 3 (.delete [] unpinParams), .act 3 .ok, .act 3 .ok, .act 3 .ok,
    .start 4 (.post keyHeaders pinBody), .act 4 .ok, .act 4 .ok, .act 4 .ok, .act 4 .ok,
    .act 4 .ok, .act 4 .ok, .act 4 .ok,
    .start 5 (.post [] labelBody), .act 5 .ok, .act 5 .ok, .act 5 .ok, .act 5 .ok, .act 5 .ok,
    .start 6 (.post keyHeaders pinBody), .act 6 .ok, .act 6 .ok]

def keyedResult : Result :=
  .upserted ⟨js "default", js "did:a", pubkeyText, none, none, none, 5, 5⟩

theorem contended_runs : (run (step (pins runtime)) contended (empty 0)).isSome = true := by
  decide +kernel

def contendedEnd : Pool World ℕ Thread :=
  (run (step (pins runtime)) contended (empty 0)).get contended_runs

theorem contended_end : run (step (pins runtime)) contended (empty 0) = some contendedEnd :=
  (Option.some_get contended_runs).symm

end Scenario

/-- Every answer of a run is that of one sequence of writes, which the rows
also come from, or the stored answer of a request with the same idempotency
key; and every upsert and delete that goes on has one audit row, or one that
was counted as lost. -/
theorem pins_serialize (R : Runtime) (now : Instant) (ls : List (Label ℕ Instant Io Request))
    (p : Pool World ℕ Thread) (hr : run (step (pins R)) ls (empty now) = some p) :
    p.world.rows.map view = history p.world.writes ∧
    (p.world.rows.map PinnedKey.key).Nodup ∧ (∀ r ∈ p.world.rows, r.storable = true) ∧
    (∀ n t a own seen, p.thread n = some t → t.phase = .answered a own seen →
      Told R p.world.writes t.request a own seen) ∧
    (∀ n t r own, p.thread n = some t → t.phase = .replayed r own →
      (∀ i, own = some i → ∃ pin, Upserted R p.world.writes t.request pin i) ∧
      ∃ k m u own' seen, t.request.keyed k ∧ p.thread m = some u ∧ u.request.keyed k ∧
        Told R p.world.writes u.request r.answer own' seen) ∧
    ∑ n ∈ names ls, notedBy (p.thread n) = attempts p.world.log := by
  have hholds := holds_run (fun _ => True) answers_kept ls _ p (fun _ _ => trivial)
    (empty_answers (R := R) now) hr
  refine ⟨hholds.world.sound.history, ?_, hholds.world.sound.storable, ?_, ?_, ?_⟩
  · have hkeys := history_keys p.world.writes
    rw [← hholds.world.sound.history, List.map_map] at hkeys
    exact hkeys
  · intro n t a own seen ht hph
    have hthread := (hholds.thread n).truthful
    rw [ht, TruthfulThread, hph] at hthread
    exact hthread
  · intro n t r own ht hph
    have hthread := (hholds.thread n).truthful
    rw [ht, TruthfulThread, hph] at hthread
    refine ⟨hthread, ?_⟩
    obtain ⟨i, x, hx, rfl, hk⟩ := (hholds.thread n).backed.replayed t r own ht hph
    obtain ⟨hlt, _⟩ := List.getElem?_eq_some_iff.mp hx
    obtain ⟨m, hm⟩ : ∃ m, p.world.storers[i]? = some m :=
      ⟨_, List.getElem?_eq_getElem (hholds.world.named.symm ▸ hlt)⟩
    obtain ⟨u, y, own', seen, hu, hy, hk', htold⟩ := (hholds.thread m).backed.stored i hm
    obtain rfl := Option.some.inj (hx.symm.trans hy)
    exact ⟨x.key, m, u, own', seen, hk, hu, hk', htold⟩
  · exact sums_eq noted_exact ls _ p (guarded_true _ _ _) rfl hr

theorem pins_serialize_contended :
    Told runtime contendedEnd.world.writes (.post [] pinBody) .gone (some 0) 2 ∧
    (∃ k m u own' seen, (Request.post keyHeaders pinBody).keyed k ∧
      contendedEnd.thread m = some u ∧ u.request.keyed k ∧
        Told runtime contendedEnd.world.writes u.request (Result.answer keyedResult) own' seen) ∧
    ∑ n ∈ names contended, notedBy (contendedEnd.thread n) = 6 := by
  obtain ⟨_, _, _, htold, hreplayed, hsum⟩ :=
    pins_serialize runtime 0 contended contendedEnd contended_end
  refine ⟨?_, ?_, ?_⟩
  · exact htold 0 ⟨.post [] pinBody, .answered .gone (some 0) 2⟩ .gone (some 0) 2 rfl rfl
  · exact (hreplayed 6 ⟨.post keyHeaders pinBody, .replayed keyedResult none⟩ keyedResult none
      rfl rfl).2
  · have hattempts : attempts contendedEnd.world.log = 6 := by decide +kernel
    rw [hsum, hattempts]
    rfl

end Answers

section Owners
variable {R : Runtime}

def ownOf : Phase → Option ℕ
  | .noting _ own => some own
  | .selecting _ own => some own
  | .unpinning _ own => some own
  | .finished _ own _ => own
  | .persisted _ own _ => own
  | .answered _ own _ => own
  | .replayed _ own => own
  | _ => none

def Signed (w : World) : Prop := w.writers.length = w.writes.length

def Owned (n : ℕ) (w : World) (o : Option Thread) : Prop :=
  ∀ t i, o = some t → ownOf t.phase = some i → w.writers[i]? = some n

theorem begun_own (w : World) (q : Request) (ph : Phase) (h : Begun R w q ph) :
    ownOf ph = none := by
  cases h <;> rfl

theorem lookup_own (w : World) (q : Request) (body : Json) :
    ownOf (lookupStep R w q body) = none := by
  rcases lookup_cases (R := R) q w body with ⟨_, _, _, _, hfound⟩ | hnew
  · rw [hfound]
    rfl
  · rw [hnew, checkStep]
    split <;> rfl

theorem settle_own (w : World) (q : Request) (r : Result) (own : Option ℕ) (seen : ℕ) :
    ownOf (settleStep w q r own seen) = own := by
  unfold settleStep
  split
  · dsimp only
    split_ifs <;> rfl
  · rfl

theorem select_own (w : World) (p : Pin) (own : ℕ) : ownOf (selectStep w p own) = some own := by
  unfold selectStep
  split <;> rfl

theorem delete_own (n : ℕ) (w : World) (t : Target) :
    ownOf (deleteStep n w t).2 = some w.writes.length := by
  simp only [deleteStep]
  split_ifs <;> rfl

theorem look_own (w : World) (t : Target) : ownOf (lookStep w t) = none := by
  unfold lookStep
  split <;> rfl

theorem move_own (n : ℕ) (q : Request) (w v : World) (ph ph' : Phase) (h : Move R n q w ph v ph') :
    v.writers = w.writers ∧ v.writes.length = w.writes.length ∧
        (ownOf ph' = ownOf ph ∨ ownOf ph' = none) ∨
      v.writers = w.writers++[n] ∧ v.writes.length = w.writes.length+1 ∧
        ownOf ph' = some w.writes.length := by
  cases h with
  | receive => exact Or.inl ⟨rfl, rfl, Or.inr (begun_own w q _ (begin_begun q w))⟩
  | lookUp body => exact Or.inl ⟨rfl, rfl, Or.inr (lookup_own w q body)⟩
  | settle r own seen => exact Or.inl ⟨rfl, rfl, Or.inl (settle_own w q r own seen)⟩
  | upsert p stamp => exact Or.inr ⟨rfl, by simp [upsertStep, commitWrite], rfl⟩
  | select p own => exact Or.inl ⟨rfl, rfl, Or.inl (select_own w p own)⟩
  | delete t =>
    exact Or.inr ⟨rfl, by simp [deleteStep, commitWrite], delete_own n w t⟩
  | look t => exact Or.inl ⟨rfl, rfl, Or.inr (look_own w t)⟩
  | _ => exact Or.inl ⟨rfl, rfl, Or.inl rfl⟩

theorem empty_owned (now : Instant) : Holds Signed Owned (empty now) :=
  ⟨rfl, fun _ _ _ h => by cases h⟩

theorem owned_kept : Kept (pins R) Signed Owned (fun _ => True) := by
  constructor
  · intro e w v _ hw hv
    cases tick_some e w v hv
    exact ⟨hw, fun n o h => h⟩
  · intro n q w _ _ t i ht hi
    cases ht
    cases hi
  · intro n io w t v u _ hw ht ha
    obtain ⟨hm, _⟩ := act_move n io w v t u ha
    rcases move_own n t.request w v t.phase u.phase hm with ⟨hs, hl, ho⟩ | ⟨hs, hl, ho⟩
    · refine ⟨?_, ?_, ?_⟩
      · rw [Signed, hs, hl, hw]
      · intro x i hx hi
        cases hx
        rw [hs]
        rcases ho with ho | ho
        · exact ht t i rfl (ho ▸ hi)
        · rw [ho] at hi
          cases hi
      · intro m o _ h x i hx hi
        rw [hs]
        exact h x i hx hi
    · refine ⟨?_, ?_, ?_⟩
      · rw [Signed, hs, hl, List.length_append, hw]
        rfl
      · intro x i hx hi
        cases hx
        rw [ho] at hi
        cases hi
        rw [hs, ← hw]
        simp
      · intro m o _ h x i hx hi
        have hold := h x i hx hi
        obtain ⟨hlt, _⟩ := List.getElem?_eq_some_iff.mp hold
        rw [hs, List.getElem?_append_left hlt]
        exact hold

theorem own_inj (now : Instant) (ls : List (Label ℕ Instant Io Request)) (p : Pool World ℕ Thread)
    (hr : run (step (pins R)) ls (empty now) = some p) (n m : ℕ) (t u : Thread) (i : ℕ)
    (hn : p.thread n = some t) (hm : p.thread m = some u) (ht : ownOf t.phase = some i)
    (hu : ownOf u.phase = some i) : n = m := by
  have hholds := holds_run (fun _ => True) owned_kept ls _ p (fun _ _ => trivial)
    (empty_owned now) hr
  have hni := hholds.thread n t i hn ht
  rw [hholds.thread m u i hm hu] at hni
  exact (Option.some.inj hni).symm

theorem deleted_between (ws : List PinWrite) (q : Request) (k : PinKey) (i j seen : ℕ)
    (hi : ws[i]? = some (.drop k)) (hj : ws[j]? = some (.drop k)) (hij : i < j)
    (h : Told R ws q .deleted (some j) seen) :
    ∃ l a b, i < l ∧ l < j ∧ ws[l]? = some (.put k a b) := by
  cases h with
  | deleted t _ _ _ hdrop hrow =>
    rw [hj] at hdrop
    cases hdrop
    have htake : (ws.take j)[i]? = some (.drop t.key) := by
      rw [List.getElem?_take_of_lt hij, hi]
    obtain ⟨l, a, b, hl, hput⟩ := put_after (ws.take j) t.key i htake hrow
    rw [List.getElem?_take] at hput
    split_ifs at hput with hlt
    exact ⟨l, a, b, hl, hlt, hput⟩

/-- Two requests that have both deleted a key had an upsert of it in between. -/
theorem pins_deleted_once (R : Runtime) (now : Instant)
    (ls : List (Label ℕ Instant Io Request)) (p : Pool World ℕ Thread)
    (hr : run (step (pins R)) ls (empty now) = some p) (n m : ℕ) (hnm : n ≠ m) (t u : Thread)
    (hn : p.thread n = some t) (hm : p.thread m = some u) (i j seen seen' : ℕ)
    (ht : t.phase = .answered .deleted (some i) seen)
    (hu : u.phase = .answered .deleted (some j) seen') (k : PinKey)
    (hi : p.world.writes[i]? = some (.drop k)) (hj : p.world.writes[j]? = some (.drop k)) :
    ∃ l a b, min i j < l ∧ l < max i j ∧ p.world.writes[l]? = some (.put k a b) := by
  have hholds := holds_run (fun _ => True) answers_kept ls _ p (fun _ _ => trivial)
    (empty_answers (R := R) now) hr
  have htold := (hholds.thread n).truthful
  rw [hn, TruthfulThread, ht] at htold
  have hutold := (hholds.thread m).truthful
  rw [hm, TruthfulThread, hu] at hutold
  have hne : i ≠ j := by
    rintro rfl
    exact hnm (own_inj now ls p hr n m t u i hn hm (by rw [ht]; rfl) (by rw [hu]; rfl))
  rcases Nat.lt_or_gt_of_ne hne with hlt | hlt
  · rw [Nat.min_eq_left hlt.le, Nat.max_eq_right hlt.le]
    exact deleted_between _ _ k i j seen' hi hj hlt hutold
  · rw [Nat.min_eq_right hlt.le, Nat.max_eq_left hlt.le]
    exact deleted_between _ _ k j i seen hj hi hlt htold

theorem pins_deleted_once_contended :
    ∃ l a b, 1 < l ∧ l < 3 ∧
      contendedEnd.world.writes[l]? = some (.put (js "default", js "did:a") a b) :=
  pins_deleted_once runtime 0 contended contendedEnd contended_end 1 3 (by decide)
    ⟨.delete [] unpinParams, .answered .deleted (some 1) 2⟩
    ⟨.delete [] unpinParams, .answered .deleted (some 3) 4⟩ rfl rfl 1 3 2 4 rfl rfl
    (js "default", js "did:a") rfl rfl

end Owners

end ControlPlane.PinnedKeys
