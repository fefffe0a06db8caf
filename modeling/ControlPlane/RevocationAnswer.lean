import ControlPlane.RevocationClosure
import ControlPlane.RevocationMachine

/-!
# What a created answer has done

One request alone, of which one statement may fail. Every failure is an answer
500 but those of the projection and of the audit row, which are caught; then
the answer is 201 all the same.
-/

set_option autoImplicit false

namespace ControlPlane.RevocationAnswer
open ControlPlane.JsText ControlPlane.JsValue ControlPlane.AdminRoutes ControlPlane.TctMonitor
open ControlPlane.RevocationRoute ControlPlane.RevocationMachine ControlPlane.Idempotency
open ControlPlane.RunMachine ControlPlane.RevocationClosure

def BelowRevoked (t : Tables) (jti : Text) : Prop :=
  (∀ x ∈ t.issuedTcts, x.jti = jti → x.revoked = true) ∧
    ∀ d ∈ t.delegations, Relation.TransGen (RecursiveQuery.Edge (edges t)) jti d.jti →
      d.revoked = true

def RevokedAll (t : Tables) (jti : Text) : Prop :=
  (∃ e ∈ t.revocationEntries, e.jti = jti) ∧ BelowRevoked t jti

theorem upsert_entry (r : Revocation) (iss : Text) (t : Tables) :
    ∃ e ∈ (upsertEntry r iss t).revocationEntries, e.jti = r.jti := by
  simp only [upsertEntry]
  split_ifs with hany
  · obtain ⟨e, he, hj⟩ := List.any_eq_true.mp hany
    refine ⟨_, List.mem_map_of_mem he, ?_⟩
    split_ifs
    · simpa using hj
    · simpa using hj
  · exact ⟨_, List.mem_append_right _ (List.mem_singleton_self _), rfl⟩

theorem cascade_below (jti : Text) (ts : Instant) (t : Tables) :
    BelowRevoked (cascade jti ts (revokeTcts jti ts t)) jti := by
  constructor
  · intro x hx hj
    simp only [cascade, revokeDelegations, revokeTcts, List.mem_map] at hx
    obtain ⟨y, -, rfl⟩ := hx
    split_ifs at hj ⊢ with h
    · rfl
    · simpa [hj] using h
  · intro d hd hreach
    simp only [cascade, edges_revokeDelegations] at hreach
    obtain ⟨c, hc, hj, -, hrev⟩ := revokeDelegations_from _ _ parentRevoked ts d hd
    apply hrev.mpr
    right
    exact (RecursiveQuery.mem_descendants _ _ _).mpr (hj ▸ hreach)

theorem onEvent_revoked (S : Service) (now : Instant) (r : Revocation) (iss : Text) (t : Tables)
    (hj : HttpValidate.isJtiV4 r.jti = true) (hts : instantStorable r.revokedAt = true) :
    onEvent S.monitor now (fun _ => none) (revokedEvent r iss) t =
      cascade r.jti r.revokedAt (revokeTcts r.jti r.revokedAt t) := by
  have h : onEvent S.monitor now (fun _ => none) (revokedEvent r iss) t =
      recordRevocation (revokedEvent r iss) t := rfl
  rw [h, recordRevocation, revokedJti_revokedEvent r iss hj]
  exact if_pos hts

abbrev alone (S : Service) (q : EntryRequest) (io : Io) (x : World × Phase) :
    Option (World × Phase) :=
  entryStep S q io x.1 x.2

def keyed (q : EntryRequest) : ℕ :=
  match keyHeader q.headers with
  | .key _ => 1
  | _ => 0

def projectionAt (q : EntryRequest) : ℕ := 6+keyed q

def Asked (q : EntryRequest) (r : Revocation) : Prop :=
  ∃ body, readJsonObject q.body = .ok body ∧ stringField body (js "jti") = some r.jti ∧
    HttpValidate.isJtiV4 r.jti = true

def Unanswered (q : EntryRequest) (w : World) : Prop :=
  ∀ k, keyHeader q.headers = .key k → lookup w.responses entriesScope k = none

/-- The entry is stored, and the rest is revoked or the projection has failed. -/
def Done (q : EntryRequest) (t : Tables) (ios : List Io) (w : World) (r : Revocation)
    (iss : Text) : Prop :=
  Asked q r ∧
    (w.tables = cascade r.jti r.revokedAt
      (revokeTcts r.jti r.revokedAt (upsertEntry r iss t)) ∨
    (w.tables = upsertEntry r iss t ∧ ios[projectionAt q]? = some .fault))

def Replayed (q : EntryRequest) (w0 : World) (ios : List Io) (w : World) (a : Answer) : Prop :=
  w.tables = w0.tables ∧ ios[1]? = some .ok ∧ ∃ k row, keyHeader q.headers = .key k ∧
    lookup w0.responses entriesScope k = some row ∧ row.responseBody = a

def Trace (q : EntryRequest) (w0 : World) (ios : List Io) : World × Phase → Prop
  | (w, .received) => w = w0 ∧ ios.length = 0
  | (w, .parsed body) => w = w0 ∧ ios.length = 1 ∧ keyed q = 1 ∧ readJsonObject q.body = .ok body
  | (w, .running body) =>
    w = w0 ∧ ios.length = 1+keyed q ∧ Unanswered q w ∧ readJsonObject q.body = .ok body
  | (w, .checked r) => w = w0 ∧ ios.length = 2+keyed q ∧ Unanswered q w ∧ Asked q r
  | (w, .projected r _) => w = w0 ∧ ios.length = 3+keyed q ∧ Unanswered q w ∧ Asked q r
  | (w, .resolved r _) => w = w0 ∧ ios.length = 4+keyed q ∧ Unanswered q w ∧ Asked q r
  | (w, .stored r iss) => w.tables = upsertEntry r iss w0.tables ∧ ios.length = 5+keyed q ∧
    Unanswered q w ∧ Asked q r
  | (w, .ingested r iss) => w.tables = upsertEntry r iss w0.tables ∧ ios.length = 6+keyed q ∧
    Unanswered q w ∧ Asked q r ∧ instantStorable r.revokedAt = true
  | (w, .cascaded r iss) => ios.length = 7+keyed q ∧ Unanswered q w ∧ Done q w0.tables ios w r iss
  | (w, .finished (.created r iss)) =>
    ios.length = 8+keyed q ∧ Unanswered q w ∧ Done q w0.tables ios w r iss
  | (w, .finished _) => ios.length ≤ 4+keyed q ∧ Unanswered q w
  | (w, .persisted (.created r iss)) => ios.length = 9+keyed q ∧
    settleStep w q (.created r iss) = .answered (.created r iss) false ∧
      Done q w0.tables ios w r iss
  | (w, .persisted a) => ios.length ≤ 5+keyed q ∧ settleStep w q a = .answered a false
  | (w, .answered (.created r iss) _) => Done q w0.tables ios w r iss ∨
    Replayed q w0 ios w (.created r iss)
  | (_, .answered _ _) => True

theorem get_snoc {α : Type*} (xs : List α) (x y : α) (n : ℕ) (h : xs[n]? = some x) :
    (xs++[y])[n]? = some x := by
  obtain ⟨hlt, _⟩ := List.getElem?_eq_some_iff.mp h
  rw [List.getElem?_append_left hlt, h]

theorem get_last {α : Type*} (xs : List α) (y : α) (n : ℕ) (h : xs.length = n) :
    (xs++[y])[n]? = some y := by
  subst h
  simp

theorem done_snoc (q : EntryRequest) (t : Tables) (ios : List Io) (io : Io) (w w' : World)
    (r : Revocation) (iss : Text) (ht : w'.tables = w.tables) (h : Done q t ios w r iss) :
    Done q t (ios++[io]) w' r iss := by
  obtain ⟨ha, h | ⟨h, hf⟩⟩ := h
  · exact ⟨ha, Or.inl (ht.trans h)⟩
  · exact ⟨ha, Or.inr ⟨ht.trans h, get_snoc _ _ _ _ hf⟩⟩

theorem trace_begin (q : EntryRequest) (w0 : World) (ios : List Io) (io : Io)
    (h : Trace q w0 ios (w0, .received)) : Trace q w0 (ios++[io]) (w0, begin q) := by
  obtain ⟨-, hlen⟩ := h
  unfold begin
  split
  · trivial
  · next body hbody =>
    split
    · next hk =>
      have hkey : keyed q = 0 := by simp [keyed, hk]
      exact ⟨rfl, by simp [hlen, hkey], fun k h => by simp [hk] at h, hbody⟩
    · trivial
    · next k hk => exact ⟨rfl, by simp [hlen], by simp [keyed, hk], hbody⟩

theorem trace_lookup (q : EntryRequest) (w0 : World) (ios : List Io) (body : Json)
    (h : Trace q w0 ios (w0, .parsed body)) :
    Trace q w0 (ios++[.ok]) (w0, lookupStep w0 q body) := by
  obtain ⟨-, hlen, hkeyed, hbody⟩ := h
  unfold lookupStep
  split
  · next k hk =>
    split
    · next row hrow =>
      cases hb : row.responseBody with
      | created r iss =>
        exact Or.inr ⟨rfl, get_last _ _ _ hlen, k, row, hk, hrow, hb⟩
      | refused problem => trivial
      | threw => trivial
    · next hnone =>
      refine ⟨rfl, by simp [hlen, hkeyed], ?_, hbody⟩
      intro k' hk'
      obtain rfl : k = k' := by simpa [hk] using hk'
      exact hnone
  · next hno =>
    exact ⟨rfl, by simp [hlen, hkeyed], fun k hk => (hno k hk).elim, hbody⟩

theorem trace_check (S : Service) (q : EntryRequest) (w0 : World) (ios : List Io) (body : Json)
    (h : Trace q w0 ios (w0, .running body)) :
    Trace q w0 (ios++[.ok]) (w0, checkStep S w0 body) := by
  obtain ⟨-, hlen, hun, hbody⟩ := h
  unfold checkStep
  split
  · refine ⟨?_, hun⟩
    simp only [List.length_append, List.length_singleton]
    omega
  · next r hr =>
    have hj := (readRevocation_ok _ _ _ _ hr).1
    have hv4 := readJti_ok _ _ hj
    have hfield : stringField body (js "jti") = some r.jti := by
      unfold readJti at hj
      split at hj
      · next jti hget =>
        split_ifs at hj
        simp only [Except.ok.injEq] at hj
        simp [stringField, hget, hj, Json.string?]
      · cases hj
    refine ⟨rfl, ?_, hun, body, hbody, hfield, hv4⟩
    simp only [List.length_append, List.length_singleton]
    omega

theorem trace_resolve (q : EntryRequest) (w0 : World) (ios : List Io) (r : Revocation)
    (read : Option Text) (h : Trace q w0 ios (w0, .projected r read)) :
    Trace q w0 (ios++[.ok]) (w0, resolveStep w0 r read) := by
  obtain ⟨-, hlen, hun, hasked⟩ := h
  unfold resolveStep
  split
  · refine ⟨?_, hun⟩
    simp only [List.length_append, List.length_singleton]
    omega
  · refine ⟨rfl, ?_, hun, hasked⟩
    simp only [List.length_append, List.length_singleton]
    omega

theorem trace_upsert (q : EntryRequest) (w0 : World) (ios : List Io) (r : Revocation)
    (iss : Text) (h : Trace q w0 ios (w0, .resolved r iss)) :
    Trace q w0 (ios++[.ok]) (upsertStep w0 r iss) := by
  obtain ⟨-, hlen, hun, hasked⟩ := h
  unfold upsertStep
  split_ifs
  · refine ⟨rfl, ?_, hun, hasked⟩
    simp only [List.length_append, List.length_singleton]
    omega
  · trivial

theorem trace_ingest (q : EntryRequest) (w0 w : World) (ios : List Io) (r : Revocation)
    (iss : Text) (h : Trace q w0 ios (w, .stored r iss)) :
    Trace q w0 (ios++[.ok]) (ingestStep w r iss) := by
  obtain ⟨ht, hlen, hun, hasked⟩ := h
  unfold ingestStep
  split_ifs with hs
  · refine ⟨ht, ?_, hun, hasked, ?_⟩
    · simp only [List.length_append, List.length_singleton]
      omega
    · simp only [eventStorable, Bool.and_eq_true] at hs
      exact hs.1.1.2
  · trivial

theorem trace_project (S : Service) (q : EntryRequest) (w0 w : World) (ios : List Io) (io : Io)
    (r : Revocation) (iss : Text) (h : Trace q w0 ios (w, .ingested r iss)) :
    Trace q w0 (ios++[io]) (projectStep S io w r iss) := by
  obtain ⟨ht, hlen, hun, hasked, hts⟩ := h
  have hlen' : (ios++[io]).length = 7+keyed q := by
    simp only [List.length_append, List.length_singleton]
    omega
  cases io with
  | ok =>
    refine ⟨hlen', hun, hasked, Or.inl ?_⟩
    obtain ⟨_, _, _, hv4⟩ := hasked
    rw [← ht]
    exact onEvent_revoked S w.now r iss w.tables hv4 hts
  | fault => exact ⟨hlen', hun, hasked, Or.inr ⟨ht, get_last _ _ _ hlen⟩⟩

theorem trace_audit (q : EntryRequest) (w0 w : World) (ios : List Io) (io : Io)
    (r : Revocation) (iss : Text) (h : Trace q w0 ios (w, .cascaded r iss)) :
    Trace q w0 (ios++[io]) (auditStep io w q r iss) := by
  obtain ⟨hlen, hun, hdone⟩ := h
  have hlen' : (ios++[io]).length = 8+keyed q := by
    simp only [List.length_append, List.length_singleton]
    omega
  cases io with
  | ok => exact ⟨hlen', hun, done_snoc q _ _ _ _ _ r iss rfl hdone⟩
  | fault => exact ⟨hlen', hun, done_snoc q _ _ _ _ _ r iss rfl hdone⟩

theorem settle_persisted (q : EntryRequest) (w : World) (a : Answer) (k : Text)
    (hk : keyHeader q.headers = .key k) (hun : Unanswered q w) :
    settleStep { w with responses := persist w.responses entriesScope k (answerStatus a) a } q a =
      .answered a false := by
  simp [settleStep, hk, settle_own _ _ _ _ _ (hun k hk)]

theorem trace_persist (q : EntryRequest) (w0 w : World) (ios : List Io) (io : Io) (a : Answer)
    (h : Trace q w0 ios (w, .finished a)) : Trace q w0 (ios++[io]) (persistStep io w q a) := by
  have hlen : (ios++[io]).length = ios.length+1 := by simp
  unfold persistStep
  cases a with
  | created r iss =>
    obtain ⟨hl, hun, hdone⟩ := h
    have hdone' := fun w' hw' => done_snoc q _ _ io w w' r iss hw' hdone
    split
    · next k hk =>
      split_ifs
      · exact ⟨by omega, settle_persisted q w _ k hk hun, hdone' _ rfl⟩
      · exact Or.inl (hdone' w rfl)
      · exact Or.inl (hdone' w rfl)
    · exact Or.inl (hdone' w rfl)
  | refused problem =>
    obtain ⟨hl, hun⟩ := h
    split
    · next k hk =>
      split_ifs
      · exact ⟨by omega, settle_persisted q w _ k hk hun⟩
      · trivial
      · trivial
    · trivial
  | threw =>
    obtain ⟨hl, hun⟩ := h
    split
    · next k hk =>
      split_ifs
      · exact ⟨by omega, settle_persisted q w _ k hk hun⟩
      · trivial
      · trivial
    · trivial

theorem trace_settle (q : EntryRequest) (w0 w : World) (ios : List Io) (a : Answer)
    (h : Trace q w0 ios (w, .persisted a)) :
    Trace q w0 (ios++[.ok]) (w, settleStep w q a) := by
  cases a with
  | created r iss =>
    obtain ⟨-, hs, hdone⟩ := h
    rw [hs]
    exact Or.inl (done_snoc q _ _ _ _ _ r iss rfl hdone)
  | refused problem =>
    rw [h.2]
    trivial
  | threw =>
    rw [h.2]
    trivial

theorem trace_step (S : Service) (q : EntryRequest) (w0 : World) (ios : List Io) (io : Io)
    (x y : World × Phase) (h : Trace q w0 ios x) (hs : alone S q io x = some y) :
    Trace q w0 (ios++[io]) y := by
  have hlen : (ios++[io]).length = ios.length+1 := by simp
  obtain ⟨w, p⟩ := x
  obtain ⟨v, p'⟩ := y
  cases step_move S q io w v p p' hs with
  | receive =>
    obtain rfl := h.1
    exact trace_begin q w ios .ok h
  | find body =>
    obtain rfl := h.1
    exact trace_lookup q w ios body h
  | check body =>
    obtain rfl := h.1
    exact trace_check S q w ios body h
  | read r =>
    obtain ⟨rfl, hl, hrest⟩ := h
    exact ⟨rfl, by omega, hrest⟩
  | resolve r read =>
    obtain rfl := h.1
    exact trace_resolve q w ios r read h
  | upsert r iss =>
    obtain rfl := h.1
    exact trace_upsert q w ios r iss h
  | ingest r iss => exact trace_ingest q w0 w ios r iss h
  | project io r iss => exact trace_project S q w0 w ios io r iss h
  | audit io r iss => exact trace_audit q w0 w ios io r iss h
  | persist io a => exact trace_persist q w0 w ios io a h
  | settle a => exact trace_settle q w0 w ios a h
  | throw => trivial

theorem trace_run (S : Service) (q : EntryRequest) (w0 : World) (ios : List Io)
    (x : World × Phase) (hr : run (alone S q) ios (w0, .received) = some x) :
    Trace q w0 ios x :=
  run_history (alone S q) (Trace q w0) (w0, .received) ⟨rfl, rfl⟩
    (fun ios io x y _ hx hs => trace_step S q w0 ios io x y hx hs) ios x hr

def NothingLeft (q : EntryRequest) (ios : List Io) (t : Tables) : Prop :=
  ios[projectionAt q]? = some .fault → ∀ body jti, readJsonObject q.body = .ok body →
    stringField body (js "jti") = some jti → BelowRevoked t jti

def StoredTrue (q : EntryRequest) (ios : List Io) (w : World) : Prop :=
  ∀ k row r iss, keyHeader q.headers = .key k → lookup w.responses entriesScope k = some row →
    row.responseBody = .created r iss → ios[1]? = some .ok → RevokedAll w.tables r.jti

theorem done_revoked (q : EntryRequest) (w0 w : World) (ios : List Io) (r : Revocation)
    (iss : Text) (hleft : NothingLeft q ios w0.tables) (h : Done q w0.tables ios w r iss) :
    RevokedAll w.tables r.jti := by
  obtain ⟨⟨body, hbody, hjti, -⟩, h | ⟨h, hf⟩⟩ := h
  · rw [h]
    exact ⟨upsert_entry r iss w0.tables, cascade_below r.jti r.revokedAt _⟩
  · rw [h]
    exact ⟨upsert_entry r iss w0.tables, hleft hf body r.jti hbody hjti⟩

theorem count_split (ios pre post : List Io) (h : ios = pre++.fault::post)
    (hone : ios.count .fault ≤ 1) : ∀ io ∈ post, io = .ok := by
  subst h
  simp only [List.count_append, List.count_cons_self] at hone
  intro io hio
  cases io with
  | ok => rfl
  | fault =>
    have := List.count_pos_iff.mpr hio
    omega

def Closing (q : EntryRequest) (t : Tables) (r : Revocation) (iss : Text) :
    World × Phase → Prop
  | (w, .cascaded r' iss') => w.tables = t ∧ Unanswered q w ∧ r' = r ∧ iss' = iss
  | (w, .finished a) => w.tables = t ∧ Unanswered q w ∧ a = .created r iss
  | (w, .persisted a) => w.tables = t ∧ settleStep w q a = .answered a false ∧ a = .created r iss
  | (w, .answered a _) => w.tables = t ∧ a = .created r iss
  | _ => False

theorem closing_step (S : Service) (q : EntryRequest) (t : Tables) (r : Revocation) (iss : Text)
    (io : Io) (x y : World × Phase) (hio : io = .ok) (h : Closing q t r iss x)
    (hs : alone S q io x = some y) : Closing q t r iss y := by
  subst hio
  obtain ⟨w, p⟩ := x
  simp only [alone] at hs
  cases p with
  | cascaded r' iss' =>
    obtain ⟨ht, hun, rfl, rfl⟩ := h
    obtain rfl := Option.some.inj hs
    exact ⟨ht, hun, rfl⟩
  | finished a =>
    obtain ⟨ht, hun, rfl⟩ := h
    obtain rfl := Option.some.inj hs
    unfold persistStep
    split
    · next k hk =>
      split_ifs
      · exact ⟨ht, settle_persisted q w _ k hk hun, rfl⟩
      · exact ⟨ht, rfl⟩
      · exact ⟨ht, rfl⟩
    · exact ⟨ht, rfl⟩
  | persisted a =>
    obtain ⟨ht, hsettle, rfl⟩ := h
    simp only [entryStep, if_true, hsettle] at hs
    obtain rfl := Option.some.inj hs
    exact ⟨ht, rfl⟩
  | answered a replayed => cases hs
  | _ => exact h.elim

theorem closing_run (S : Service) (q : EntryRequest) (r : Revocation) (iss : Text)
    (ios : List Io) (w w' : World) (a : Answer) (replayed : Bool) (hun : Unanswered q w)
    (hok : ∀ io ∈ ios, io = .ok)
    (hr : run (alone S q) ios (w, .cascaded r iss) = some (w', .answered a replayed)) :
    w'.tables = w.tables ∧ a = .created r iss := by
  have hstart : Closing q w.tables r iss (w, .cascaded r iss) := ⟨rfl, hun, rfl, rfl⟩
  exact run_invariant (alone S q) (fun io _ => io = .ok) (Closing q w.tables r iss)
    (fun io x y hio hx hs => closing_step S q w.tables r iss io x y hio hx hs) ios _ _
    (guarded_labels _ _ _ _ hok) hstart hr

theorem at_projection (S : Service) (q : EntryRequest) (w0 : World) (ios : List Io) (io : Io)
    (x y : World × Phase) (hlen : ios.length = projectionAt q) (h : Trace q w0 ios x)
    (hs : alone S q io x = some y) : ∃ w r iss, x = (w, .ingested r iss) := by
  obtain ⟨w, p⟩ := x
  simp only [projectionAt] at hlen
  cases p with
  | ingested r iss => exact ⟨w, r, iss, rfl⟩
  | received => have := h.2; omega
  | parsed body => have := h.2.1; omega
  | running body => have := h.2.1; omega
  | checked r => have := h.2.1; omega
  | projected r read => have := h.2.1; omega
  | resolved r iss => have := h.2.1; omega
  | stored r iss => have := h.2.1; omega
  | cascaded r iss => have := h.1; omega
  | finished a => cases a <;> have := h.1 <;> omega
  | persisted a => cases a <;> have := h.1 <;> omega
  | answered a replayed => cases hs

/-- With one failing statement at most, a 201 means that everything is revoked
unless the projection fails while something is left to revoke, or a stored
answer is repeated that is not true. -/
theorem created_means_revoked_iff (S : Service) (q : EntryRequest) (ios : List Io)
    (w w' : World) (a : Answer) (replayed : Bool) (hone : ios.count .fault ≤ 1)
    (hr : run (alone S q) ios (w, .received) = some (w', .answered a replayed)) :
    (∀ r iss, a = .created r iss → RevokedAll w'.tables r.jti) ↔
      NothingLeft q ios w.tables ∧ StoredTrue q ios w := by
  constructor
  · intro h
    constructor
    · intro hfault body jti hbody hjti
      obtain ⟨hlt, hget⟩ := List.getElem?_eq_some_iff.mp hfault
      have hios : ios = ios.take (projectionAt q)++.fault::ios.drop (projectionAt q+1) := by
        rw [← hget, List.cons_getElem_drop_succ, List.take_append_drop]
      rw [hios] at hr
      obtain ⟨x, hx, hrest⟩ := (run_append_some _ _ _ _ _).mp hr
      obtain ⟨y, hy, hpost⟩ := (run_cons_some _ _ _ _ _).mp hrest
      have htrace := trace_run S q w _ x hx
      obtain ⟨w1, r, iss, rfl⟩ := at_projection S q w _ _ x y (by simp; omega) htrace hy
      obtain ⟨ht, -, hun, ⟨body', hbody', hjti', -⟩, -⟩ := htrace
      obtain rfl := Option.some.inj hy
      obtain ⟨ht', rfl⟩ := closing_run S q r iss _ w1 w' a replayed hun
        (count_split ios _ _ hios hone) hpost
      obtain rfl := Except.ok.inj (hbody'.symm.trans hbody)
      obtain rfl := Option.some.inj (hjti'.symm.trans hjti)
      have hall := (h r iss rfl).2
      rw [ht', ht] at hall
      exact hall
    · intro k row r iss hk hrow hbody hlook
      obtain ⟨first, rest, rfl⟩ : ∃ first rest, ios = first::.ok::rest := by
        match ios, hlook with
        | first::second::rest, h => exact ⟨first, rest, by simpa using h⟩
      obtain ⟨x, hx, hrest⟩ := (run_cons_some _ _ _ _ _).mp hr
      obtain ⟨y, hy, hpost⟩ := (run_cons_some _ _ _ _ _).mp hrest
      simp only [alone, entryStep] at hx
      split_ifs at hx
      obtain rfl := Option.some.inj hx
      simp only [begin] at hy
      split at hy
      · cases hy
      simp only [hk, alone, entryStep, if_true, lookupStep, hrow, hbody] at hy
      obtain rfl := Option.some.inj hy
      cases rest with
      | nil =>
        simp only [run, Option.some.injEq, Prod.mk.injEq, Phase.answered.injEq] at hpost
        obtain ⟨rfl, rfl, -⟩ := hpost
        exact h r iss rfl
      | cons io rest => simp [run, alone, entryStep] at hpost
  · rintro ⟨hleft, hstored⟩ r iss rfl
    rcases trace_run S q w ios _ hr with hdone | ⟨ht, hlook, k, row, hk, hrow, hbody⟩
    · exact done_revoked q w w' ios r iss hleft hdone
    · rw [ht]
      exact hstored k row r iss hk hrow hbody hlook

section Scenario

def activeTct : IssuedTct where
  jti := tctJti
  issuerAid := js "aid:a"
  subjectAid := js "aid:b"
  audienceAid := js "aid:a"
  grants := []
  bindingCnf := none
  issuedAt := 0
  expiresAt := none
  sessionId := none
  revoked := false
  revokedAt := none

def projectedWorld : World where
  now := 0
  tables := ⟨[], [activeTct], []⟩
  responses := []
  events := []
  log := ⟨[], 0⟩

def service : Service := ⟨observer, fun _ => none⟩

def revokeRequest : EntryRequest :=
  ⟨[], ⟨false, some (.obj [(js "jti", .str tctJti)])⟩⟩

def withProjection (io : Io) : List Io := List.replicate 6 .ok++[io, .ok, .ok]

def answerOf (x : World × Phase) : Answer :=
  match x.2 with
  | .answered a _ => a
  | _ => .threw

def revocation : Revocation := ⟨tctJti, none, none, 0⟩

theorem answered_of (x : World × Phase) (r : Revocation) (iss : Text)
    (h : answerOf x = .created r iss) :
    ∃ replayed, x = (x.1, .answered (.created r iss) replayed) := by
  obtain ⟨w, p⟩ := x
  cases p with
  | answered a replayed => exact ⟨replayed, by simp only [answerOf] at h; rw [h]⟩
  | _ => cases h

theorem created_means_revoked_alone :
    ∃ w' replayed, run (alone service revokeRequest) (withProjection .ok)
        (projectedWorld, .received) =
          some (w', .answered (.created revocation (js "aid:a")) replayed) ∧
      RevokedAll w'.tables tctJti := by
  have hrun : (run (alone service revokeRequest) (withProjection .ok)
      (projectedWorld, .received)).map answerOf = some (.created revocation (js "aid:a")) := by
    decide +kernel
  obtain ⟨x, hx, ha⟩ := Option.map_eq_some_iff.mp hrun
  obtain ⟨replayed, hx'⟩ := answered_of x _ _ ha
  rw [hx'] at hx
  have hleft : NothingLeft revokeRequest (withProjection .ok) projectedWorld.tables :=
    fun h => absurd h (by decide)
  have hstored : StoredTrue revokeRequest (withProjection .ok) projectedWorld :=
    fun k _ _ _ hk => absurd hk (by simp [keyHeader, RequestGate.get, revokeRequest])
  exact ⟨x.1, replayed, hx, (created_means_revoked_iff service revokeRequest _ _ _ _ _
    (by decide) hx).mpr ⟨hleft, hstored⟩ revocation (js "aid:a") rfl⟩

/-- The projection fails, the answer is 201, and the TCT stays active. -/
theorem failed_projection_is_created :
    ¬ ∀ (S : Service) (q : EntryRequest) (ios : List Io) (w w' : World) (a : Answer)
      (replayed : Bool), ios.count .fault ≤ 1 →
      run (alone S q) ios (w, .received) = some (w', .answered a replayed) →
        ∀ r iss, a = .created r iss → RevokedAll w'.tables r.jti := by
  intro h
  have hrun : (run (alone service revokeRequest) (withProjection .fault)
      (projectedWorld, .received)).map (fun x => (answerOf x, x.1.tables.issuedTcts)) =
        some (.created revocation (js "aid:a"), [activeTct]) := by decide +kernel
  obtain ⟨x, hx, hax⟩ := Option.map_eq_some_iff.mp hrun
  obtain ⟨ha, htcts⟩ := Prod.mk.inj hax
  obtain ⟨replayed, hx'⟩ := answered_of x _ _ ha
  rw [hx'] at hx
  have hall := h service revokeRequest _ _ _ _ _ (by decide) hx revocation (js "aid:a") rfl
  have hactive := hall.2.1 activeTct (by simp [htcts]) rfl
  exact absurd hactive (by decide)

end Scenario

end ControlPlane.RevocationAnswer
