import ControlPlane.AdminRoutes
import ControlPlane.Idempotency
import ControlPlane.ThreadPool

/-!
# One statement of the revocation route at a time

`POST /api/revocation/entries` reads the projection and the stored entry,
decides the issuer, and writes the entry, the event, its projection and the
audit row in statements of their own. Other requests and the reports of agents
run in between, and each statement can fail.
-/

set_option autoImplicit false

namespace ControlPlane.RevocationMachine
open ControlPlane.JsText ControlPlane.JsValue ControlPlane.HttpValidate
open ControlPlane.RequestGate (Headers)
open ControlPlane.AdminAudit ControlPlane.AdminRoutes ControlPlane.TctMonitor
open ControlPlane.RevocationRoute ControlPlane.Idempotency
open ControlPlane.RunMachine ControlPlane.ThreadPool

structure Service where
  monitor : Monitor
  parseDate : Text → Option Instant

structure EntryRequest where
  headers : Headers
  body : RequestBody

def entriesScope : Text := js "revocation.entries"

/-- The decision of `resolveIss` on the two values that were read. -/
def resolveRead (projected stored given : Option Text) : Except Problem Text :=
  let known := projected.or stored
  if disagree projected stored then
    .error ⟨409, js "the stored entry names a different issuer than the TCT recorded for this jti",
      js "ISS_MISMATCH"⟩
  else if disagree known given then
    .error ⟨409, js "iss does not match the issuer recorded for this jti", js "ISS_MISMATCH"⟩
  else
    match known.or given with
    | some iss => .ok iss
    | none => .error ⟨400, js "iss is required: the CP has no TCT recorded for this jti",
        js "ISS_REQUIRED"⟩

theorem resolveIss_read (t : Tables) (r : Revocation) :
    resolveIss t r = resolveRead (projectedIss t r.jti) (storedIss t r.jti) r.iss := rfl

def addedEntry (r : Revocation) (iss : Text) : AdminAuditEntry where
  action := js "revocation.add"
  targetId := some r.jti
  details := [(js "reason", nullable r.reason), (js "iss", .str iss)]

/-- The columns of the `audit_events` row of a revocation. -/
def eventStorable (e : AuditEventRecord) : Bool :=
  fitsVarchar 128 e.type && instantStorable e.ts && e.sessionId.all (fitsVarchar 255) &&
    e.payload.storable

def answerStatus : Answer → ℕ
  | .refused problem => problem.status
  | .threw => 500
  | .created _ _ => 201

/-- A stored response is a JSON column. -/
def answerStorable : Answer → Bool
  | .refused problem => textStorable problem.error && textStorable problem.code
  | .threw => true
  | .created r iss => (revokedEvent r iss).payload.storable

/-- A request between two statements. `parsed` looks up its idempotency key,
`running` enters the handler, `finished` has the result of the handler and
`persisted` has tried to store it. -/
inductive Phase where
  | received
  | parsed (body : Json)
  | running (body : Json)
  | checked (r : Revocation)
  | projected (r : Revocation) (iss : Option Text)
  | resolved (r : Revocation) (iss : Text)
  | stored (r : Revocation) (iss : Text)
  | ingested (r : Revocation) (iss : Text)
  | cascaded (r : Revocation) (iss : Text)
  | finished (a : Answer)
  | persisted (a : Answer)
  | answered (a : Answer) (replayed : Bool)

/-- `events` are the rows of `audit_events` that the route has written, which
it also publishes and hands to the webhooks. -/
structure World where
  now : Instant
  tables : Tables
  responses : List (StoredResponse Answer)
  events : List AuditEventRecord
  log : AuditLog

inductive Io where
  | ok
  | fault
  deriving DecidableEq

def begin (q : EntryRequest) : Phase :=
  match readJsonObject q.body with
  | .error problem => .answered (.refused problem) false
  | .ok body =>
    match keyHeader q.headers with
    | .absent => .running body
    | .invalid => .answered (.refused keyInvalid) false
    | .key _ => .parsed body

def lookupStep (w : World) (q : EntryRequest) (body : Json) : Phase :=
  match keyHeader q.headers with
  | .key k =>
    match lookup w.responses entriesScope k with
    | some row => .answered row.responseBody true
    | none => .running body
  | _ => .running body

def checkStep (S : Service) (w : World) (body : Json) : Phase :=
  match readRevocation S.parseDate w.now body with
  | .error problem => .finished (.refused problem)
  | .ok r => .checked r

def resolveStep (w : World) (r : Revocation) (iss : Option Text) : Phase :=
  match resolveRead iss (storedIss w.tables r.jti) r.iss with
  | .error problem => .finished (.refused problem)
  | .ok iss => .resolved r iss

def upsertStep (w : World) (r : Revocation) (iss : Text) : World × Phase :=
  if entryStorable r iss then ({ w with tables := upsertEntry r iss w.tables }, .stored r iss)
  else (w, .answered .threw false)

def ingestStep (w : World) (r : Revocation) (iss : Text) : World × Phase :=
  if eventStorable (revokedEvent r iss) then
    ({ w with events := w.events++[revokedEvent r iss] }, .ingested r iss)
  else (w, .answered .threw false)

/-- The error of a projection that fails is caught. -/
def projectStep (S : Service) (io : Io) (w : World) (r : Revocation) (iss : Text) :
    World × Phase :=
  match io with
  | .ok =>
    let tables := onEvent S.monitor w.now (fun _ => none) (revokedEvent r iss) w.tables
    ({ w with tables := tables }, .cascaded r iss)
  | .fault => (w, .cascaded r iss)

def auditStep (io : Io) (w : World) (q : EntryRequest) (r : Revocation) (iss : Text) :
    World × Phase :=
  match io with
  | .ok =>
    let log := writeAdminAudit (addedEntry r iss) (auditContext q.headers none) w.log
    ({ w with log := log }, .finished (.created r iss))
  | .fault =>
    let log := { w.log with insertFailures := w.log.insertFailures+1 }
    ({ w with log := log }, .finished (.created r iss))

def persistStep (io : Io) (w : World) (q : EntryRequest) (a : Answer) : World × Phase :=
  match keyHeader q.headers with
  | .key k =>
    if isCacheable (answerStatus a) then
      if io = .ok && answerStorable a then
        ({ w with responses := persist w.responses entriesScope k (answerStatus a) a },
          .persisted a)
      else (w, .answered a false)
    else (w, .answered a false)
  | _ => (w, .answered a false)

def settleStep (w : World) (q : EntryRequest) (a : Answer) : Phase :=
  match keyHeader q.headers with
  | .key k =>
    let response := settle w.responses entriesScope k (answerStatus a) a
    .answered response.body response.replayed
  | _ => .answered a false

/-- Where no statement runs, none can fail. -/
def entryStep (S : Service) (q : EntryRequest) (io : Io) (w : World) :
    Phase → Option (World × Phase)
  | .received => if io = .ok then some (w, begin q) else none
  | .parsed body =>
    if io = .ok then some (w, lookupStep w q body) else some (w, .answered .threw false)
  | .running body => if io = .ok then some (w, checkStep S w body) else none
  | .checked r =>
    if io = .ok then some (w, .projected r (projectedIss w.tables r.jti))
    else some (w, .answered .threw false)
  | .projected r iss =>
    if io = .ok then some (w, resolveStep w r iss) else some (w, .answered .threw false)
  | .resolved r iss =>
    if io = .ok then some (upsertStep w r iss) else some (w, .answered .threw false)
  | .stored r iss =>
    if io = .ok then some (ingestStep w r iss) else some (w, .answered .threw false)
  | .ingested r iss => some (projectStep S io w r iss)
  | .cascaded r iss => some (auditStep io w q r iss)
  | .finished a => some (persistStep io w q a)
  | .persisted a =>
    if io = .ok then some (w, settleStep w q a) else some (w, .answered .threw false)
  | .answered _ _ => none

structure Thread where
  request : EntryRequest
  phase : Phase

/-- `report` projects an event that an agent has reported. -/
inductive Env where
  | tick (ms : ℕ)
  | post (q : EntryRequest)
  | report (getAgent : Text → Option Text) (event : AuditEventRecord)

def env (S : Service) : Env → World → Option (World × Option Thread)
  | .tick ms, w => some ({ w with now := w.now+ms }, none)
  | .post q, w => some (w, some ⟨q, .received⟩)
  | .report getAgent event, w =>
    some ({ w with tables := onEvent S.monitor w.now getAgent event w.tables }, none)

def act (S : Service) (io : Io) (w : World) (t : Thread) : Option (World × Thread) :=
  (entryStep S t.request io w t.phase).map (fun r => (r.1, { t with phase := r.2 }))

def entries (S : Service) : System World Thread Env Io := ⟨env S, act S⟩

abbrev State := Pool World Thread

abbrev Event := Label Env Io

abbrev next (S : Service) : Event → State → Option State := step (entries S)

/-- What one statement of a request does. Where its failure is not caught, the
request is answered by an error. -/
inductive Move (S : Service) (q : EntryRequest) (w : World) : Io → Phase → World → Phase → Prop
  | receive : Move S q w .ok .received w (begin q)
  | find (body : Json) : Move S q w .ok (.parsed body) w (lookupStep w q body)
  | check (body : Json) : Move S q w .ok (.running body) w (checkStep S w body)
  | read (r : Revocation) :
    Move S q w .ok (.checked r) w (.projected r (projectedIss w.tables r.jti))
  | resolve (r : Revocation) (iss : Option Text) :
    Move S q w .ok (.projected r iss) w (resolveStep w r iss)
  | upsert (r : Revocation) (iss : Text) :
    Move S q w .ok (.resolved r iss) (upsertStep w r iss).1 (upsertStep w r iss).2
  | ingest (r : Revocation) (iss : Text) :
    Move S q w .ok (.stored r iss) (ingestStep w r iss).1 (ingestStep w r iss).2
  | project (io : Io) (r : Revocation) (iss : Text) :
    Move S q w io (.ingested r iss) (projectStep S io w r iss).1 (projectStep S io w r iss).2
  | audit (io : Io) (r : Revocation) (iss : Text) :
    Move S q w io (.cascaded r iss) (auditStep io w q r iss).1 (auditStep io w q r iss).2
  | persist (io : Io) (a : Answer) :
    Move S q w io (.finished a) (persistStep io w q a).1 (persistStep io w q a).2
  | settle (a : Answer) : Move S q w .ok (.persisted a) w (settleStep w q a)
  | throw {p : Phase} (h : entryStep S q .fault w p = some (w, .answered .threw false)) :
    Move S q w .fault p w (.answered .threw false)

theorem step_move (S : Service) (q : EntryRequest) (io : Io) (w v : World) (p p' : Phase)
    (h : entryStep S q io w p = some (v, p')) : Move S q w io p v p' := by
  cases p with
  | received =>
    cases io with
    | ok =>
      cases h
      exact Move.receive
    | fault => cases h
  | parsed body =>
    cases io with
    | ok =>
      cases h
      exact Move.find body
    | fault =>
      cases h
      exact Move.throw rfl
  | running body =>
    cases io with
    | ok =>
      cases h
      exact Move.check body
    | fault => cases h
  | checked r =>
    cases io with
    | ok =>
      cases h
      exact Move.read r
    | fault =>
      cases h
      exact Move.throw rfl
  | projected r iss =>
    cases io with
    | ok =>
      cases h
      exact Move.resolve r iss
    | fault =>
      cases h
      exact Move.throw rfl
  | resolved r iss =>
    cases io with
    | ok =>
      have hmove : Move S q w .ok _ _ _ := .upsert r iss
      rwa [Option.some.inj h] at hmove
    | fault =>
      cases h
      exact Move.throw rfl
  | stored r iss =>
    cases io with
    | ok =>
      have hmove : Move S q w .ok _ _ _ := .ingest r iss
      rwa [Option.some.inj h] at hmove
    | fault =>
      cases h
      exact Move.throw rfl
  | ingested r iss =>
    have hmove : Move S q w io _ _ _ := .project io r iss
    rwa [Option.some.inj h] at hmove
  | cascaded r iss =>
    have hmove : Move S q w io _ _ _ := .audit io r iss
    rwa [Option.some.inj h] at hmove
  | finished a =>
    have hmove : Move S q w io _ _ _ := .persist io a
    rwa [Option.some.inj h] at hmove
  | persisted a =>
    cases io with
    | ok =>
      cases h
      exact Move.settle a
    | fault =>
      cases h
      exact Move.throw rfl
  | answered a replayed => cases h

theorem entryStep_tables (S : Service) (q : EntryRequest) (io : Io) (w w' : World) (p p' : Phase)
    (h : entryStep S q io w p = some (w', p')) :
    w'.tables = w.tables ∨ (∃ r iss, w'.tables = upsertEntry r iss w.tables) ∨
      ∃ r iss, w'.tables =
        onEvent S.monitor w.now (fun _ => none) (revokedEvent r iss) w.tables := by
  cases step_move S q io w w' p p' h with
  | upsert r iss =>
    unfold upsertStep
    split_ifs
    · exact Or.inr (Or.inl ⟨r, iss, rfl⟩)
    · exact Or.inl rfl
  | ingest r iss =>
    unfold ingestStep
    split_ifs <;> exact Or.inl rfl
  | project io r iss =>
    cases io with
    | ok => exact Or.inr (Or.inr ⟨r, iss, rfl⟩)
    | fault => exact Or.inl rfl
  | audit io r iss => cases io <;> exact Or.inl rfl
  | persist io a =>
    unfold persistStep
    split
    · split_ifs <;> exact Or.inl rfl
    · exact Or.inl rfl
  | _ => exact Or.inl rfl

theorem act_next (S : Service) (i : ℕ) (io : Io) (s t : State)
    (hs : next S (.act i io) s = some t) :
    ∃ u w p, s.threads[i]? = some u ∧ entryStep S u.request io s.world u.phase = some (w, p) ∧
      t = ⟨w, s.threads.set i { u with phase := p }⟩ := by
  obtain ⟨u, w, u', hu, ha, rfl⟩ := (step_act_some _ _ _ _ _).mp hs
  simp only [entries, act, Option.map_eq_some_iff, Prod.exists, Prod.mk.injEq] at ha
  obtain ⟨w', p, hstep, rfl, rfl⟩ := ha
  exact ⟨u, w', p, hu, hstep, rfl⟩

theorem next_tables (S : Service) (l : Event) (s t : State) (hs : next S l s = some t) :
    t.world.tables = s.world.tables ∨
      (∃ r iss, t.world.tables = upsertEntry r iss s.world.tables) ∨
      ∃ getAgent event, t.world.tables =
        onEvent S.monitor s.world.now getAgent event s.world.tables := by
  cases l with
  | env e =>
    obtain ⟨w, o, he, rfl⟩ := (step_env_some _ _ _ _).mp hs
    cases e with
    | tick ms =>
      cases he
      exact Or.inl rfl
    | post q =>
      cases he
      exact Or.inl rfl
    | report getAgent event =>
      cases he
      exact Or.inr (Or.inr ⟨getAgent, event, rfl⟩)
  | act i io =>
    obtain ⟨u, w', p', -, hstep, rfl⟩ := act_next S i io s t hs
    rcases entryStep_tables S u.request io s.world w' u.phase p' hstep with h | h | ⟨r, iss, h⟩
    · exact Or.inl h
    · exact Or.inr (Or.inl h)
    · exact Or.inr (Or.inr ⟨_, _, h⟩)

section Uninterrupted
variable (S : Service) (q : EntryRequest)

def uninterrupted : ℕ → World × Phase → World × Phase
  | 0, x => x
  | n+1, x => ((entryStep S q .ok x.1 x.2).map (uninterrupted n)).getD x

theorem set_same (i : ℕ) (ts : List Thread) (t : Thread) (h : ts[i]? = some t) :
    ts.set i t = ts := by
  obtain ⟨hi, rfl⟩ := List.getElem?_eq_some_iff.mp h
  exact List.set_getElem_self hi

theorem uninterrupted_run (i : ℕ) (ts : List Thread) (n : ℕ) (x : World × Phase)
    (ht : ts[i]? = some ⟨q, x.2⟩) :
    ∃ k, run (next S) (List.replicate k (.act i .ok)) ⟨x.1, ts⟩ =
      some ⟨(uninterrupted S q n x).1, ts.set i ⟨q, (uninterrupted S q n x).2⟩⟩ := by
  induction n generalizing x ts with
  | zero =>
    refine ⟨0, ?_⟩
    rw [uninterrupted, set_same i ts _ ht]
    rfl
  | succ n ih =>
    cases hstep : entryStep S q .ok x.1 x.2 with
    | none =>
      refine ⟨0, ?_⟩
      rw [uninterrupted, hstep, Option.map_none, Option.getD_none, set_same i ts _ ht]
      rfl
    | some y =>
      have hself := set_self ts i ⟨q, x.2⟩ (⟨q, y.2⟩ : Thread) ht
      obtain ⟨k, hk⟩ := ih (ts.set i ⟨q, y.2⟩) y hself
      have hnext : next S (.act i .ok) ⟨x.1, ts⟩ = some ⟨y.1, ts.set i ⟨q, y.2⟩⟩ := by
        apply (step_act_some _ _ _ _ _).mpr
        exact ⟨⟨q, x.2⟩, y.1, ⟨q, y.2⟩, ht, by simp [entries, act, hstep], rfl⟩
      apply Exists.intro (k+1)
      rw [List.replicate_succ, run, hnext, Option.bind_some, hk, List.set_set, uninterrupted,
        hstep]
      rfl

theorem eventStorable_revoked (r : Revocation) (iss : Text) :
    eventStorable (revokedEvent r iss) =
      ((revokedEvent r iss).payload.storable && instantStorable (revokedEvent r iss).ts) := by
  have htype : fitsVarchar 128 (revokedEvent r iss).type = true :=
    (by decide : fitsVarchar 128 tctRevoked = true)
  have hsession : (revokedEvent r iss).sessionId.all (fitsVarchar 255) = true := rfl
  rw [eventStorable, htype, hsession, Bool.true_and, Bool.and_true, Bool.and_comm]

theorem uninterrupted_post (w : World) (body : Json) (hb : readJsonObject q.body = .ok body)
    (hk : keyHeader q.headers = .absent) :
    (uninterrupted S q 9 (w, .received)).2 =
        .answered (post S.monitor S.parseDate w.now body w.tables).1 false ∧
      (uninterrupted S q 9 (w, .received)).1.tables =
        (post S.monitor S.parseDate w.now body w.tables).2 := by
  cases hr : readRevocation S.parseDate w.now body with
  | error problem =>
    simp [uninterrupted, entryStep, begin, hb, hk, checkStep, hr, persistStep, post]
  | ok r =>
    cases hiss : resolveIss w.tables r with
    | error problem =>
      have hread := hiss
      rw [resolveIss_read] at hread
      simp [uninterrupted, entryStep, begin, hb, hk, checkStep, hr, resolveStep, hread, hiss,
        persistStep, post]
    | ok iss =>
      have hread := hiss
      rw [resolveIss_read] at hread
      by_cases hs : entryStorable r iss = true
      · by_cases he : eventStorable (revokedEvent r iss) = true
        · have he' := (eventStorable_revoked r iss).symm.trans he
          simp [uninterrupted, entryStep, begin, hb, hk, checkStep, hr, resolveStep, hread, hiss,
            upsertStep, hs, ingestStep, he, he', projectStep, auditStep, persistStep, post]
        · have he' : ¬_ := fun h => he ((eventStorable_revoked r iss).trans h)
          simp [uninterrupted, entryStep, begin, hb, hk, checkStep, hr, resolveStep, hread, hiss,
            upsertStep, hs, ingestStep, he, he', post]
      · simp [uninterrupted, entryStep, begin, hb, hk, checkStep, hr, resolveStep, hread, hiss,
          upsertStep, hs, post]

/-- In any state, the statements of a request without a key that run one after
the other have the answer and the tables of `post`. -/
theorem post_run (p : State) (i : ℕ) (body : Json)
    (ht : p.threads[i]? = some ⟨q, .received⟩) (hb : readJsonObject q.body = .ok body)
    (hk : keyHeader q.headers = .absent) :
    ∃ n w, run (next S) (List.replicate n (.act i .ok)) p = some ⟨w, p.threads.set i
        ⟨q, .answered (post S.monitor S.parseDate p.world.now body p.world.tables).1 false⟩⟩ ∧
      w.tables = (post S.monitor S.parseDate p.world.now body p.world.tables).2 := by
  obtain ⟨n, hn⟩ := uninterrupted_run S q i p.threads 9 (p.world, .received) ht
  obtain ⟨hanswer, htables⟩ := uninterrupted_post S q p.world body hb hk
  rw [hanswer] at hn
  exact ⟨n, _, hn, htables⟩

end Uninterrupted

def start (now : Instant) (t : Tables) : State := ⟨⟨now, t, [], [], ⟨[], 0⟩⟩, []⟩

/-- The rows that `GET /api/revocations` serves to an issuer. -/
def relayed (t : Tables) (iss : Text) : List RevocationEntry :=
  t.revocationEntries.filter (fun e => e.iss = some iss)

end ControlPlane.RevocationMachine
