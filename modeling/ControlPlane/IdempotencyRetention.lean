import ControlPlane.IdempotencyAgreement
import ControlPlane.RetentionSweep
import ControlPlane.RunSimulation

/-!
# Replays under retention

The stored responses with the instants at which they were inserted, the clock
and the sweeps that delete expired ones. Without the instants this is the
machine of the requests with an arbitrary purge, and a stored response is
replayed to every later request until its window is over.
-/

set_option autoImplicit false

namespace ControlPlane.IdempotencyRetention
open ControlPlane.JsText ControlPlane.JsValue ControlPlane.Idempotency
open ControlPlane.IdempotencyAgreement
open ControlPlane.RetentionSweep
  (Config Earlier Expired IdempotencyRow Key allowed daysAgo_whole expired_mono plan stale)
open ControlPlane.AgentLifecycle (daysAgo)
open ControlPlane.RunMachine ControlPlane.ThreadPool ControlPlane.RunSimulation

variable {V : Type*}

structure Stored where
  response : Row
  createdAt : Instant

structure World where
  now : Instant
  rows : List Stored

def responses (rows : List Stored) : List Row := rows.map (·.response)

def keyOf (x : Stored) : Key := [x.response.scope, x.response.key]

def column (x : Stored) : IdempotencyRow := ⟨x.response.scope, x.response.key, x.createdAt⟩

def dueKeys (cutoff : Instant) (rows : List Stored) : List Key :=
  (rows.filter (fun x => stale .idempotencyKeys cutoff (column x))).map keyOf

/-- A row that a statement appends gets the clock of the database. -/
def stamp (now : Instant) (rows : List Stored) (after : List Row) : List Stored :=
  rows++(after.drop rows.length).map (fun r => ⟨r, now⟩)

def act (R : Runtime V) (io : Io V) (w : World) (t : Thread V) : Option (World × Thread V) :=
  (callStep R t.call io (responses w.rows) t.phase).map
    (fun r => (⟨w.now, stamp w.now w.rows r.1⟩, { t with phase := r.2 }))

/-- A sweep commits `lag` milliseconds after it read the clock. -/
inductive Env where
  | tick (ms : ℕ)
  | call (c : Call)
  | sweep (lag : ℕ) (chosen : List Key)

def purgeIdempotencyKeys (cfg : Config) (lag : ℕ) (chosen : List Key) (w : World) :
    Option World :=
  match plan cfg (w.now-lag) .idempotencyKeys with
  | .delete cutoff limit =>
    let due := dueKeys cutoff w.rows
    let batch := due.filter chosen.contains
    if allowed limit due batch then
      some ⟨w.now, w.rows.filter (fun x => !batch.contains (keyOf x))⟩
    else none
  | _ => some w

def env (cfg : Config) : Env → World → Option (World × Option (Thread V))
  | .tick ms, w => some (⟨w.now+ms, w.rows⟩, none)
  | .call c, w => some (w, some ⟨c, .received⟩)
  | .sweep lag chosen, w => (purgeIdempotencyKeys cfg lag chosen w).map (fun w' => (w', none))

def timed (cfg : Config) (R : Runtime V) : System World (Thread V) Env (Io V) := ⟨env cfg, act R⟩

abbrev TimedState (V : Type*) := Pool World (Thread V)

abbrev TimedEvent (V : Type*) := Label Env (Io V)

abbrev step (cfg : Config) (R : Runtime V) :
    TimedEvent V → TimedState V → Option (TimedState V) :=
  ThreadPool.step (timed cfg R)

def opened (now : Instant) : TimedState V := ⟨⟨now, []⟩, []⟩

def erase (p : TimedState V) : State V := ⟨responses p.world.rows, p.threads⟩

/-- The requests of these labels whose statements fail. -/
def Faulty (ls : List (TimedEvent V)) (i : ℕ) : Prop := .act i .fault ∈ ls

def Within (cfg : Config) (createdAt now : Instant) : Prop :=
  cfg.idempotencyKeyTtlDays ≤ 0 ∨ ¬Earlier createdAt (daysAgo now cfg.idempotencyKeyTtlDays)

def Held (x : Stored) (p : TimedState V) : Prop :=
  x ∈ p.world.rows ∧ ∀ y ∈ p.world.rows, keyOf y = keyOf x → y = x

section Steps
variable (cfg : Config) (R : Runtime V)

theorem stamp_same (now : Instant) (rows : List Stored) :
    stamp now rows (responses rows) = rows := by
  simp [stamp, responses]

theorem stamp_snoc (now : Instant) (rows : List Stored) (r : Row) :
    stamp now rows (responses rows++[r]) = rows++[⟨r, now⟩] := by
  simp [stamp, responses]

theorem responses_stamp (now : Instant) (rows : List Stored) (after : List Row)
    (h : after = responses rows ∨ ∃ r, after = responses rows++[r]) :
    responses (stamp now rows after) = after := by
  rcases h with rfl | ⟨r, rfl⟩
  · rw [stamp_same]
  · rw [stamp_snoc]
    simp [responses]

theorem persist_shape (rows : List Row) (scope key : Text) (status : ℕ) (body : Json) :
    persist rows scope key status body = rows ∨
      (lookup rows scope key = none ∧
        persist rows scope key status body = rows++[⟨scope, key, status, body⟩]) := by
  unfold persist
  split_ifs with h
  · exact Or.inl rfl
  · exact Or.inr ⟨by simpa using h, rfl⟩

theorem callStep_shape (c : Call) (io : Io V) (rows rows' : List Row) (ph ph' : Phase V)
    (h : callStep R c io rows ph = some (rows', ph')) :
    rows' = rows ∨ ∃ r, lookup rows r.scope r.key = none ∧ rows' = rows++[r] := by
  rcases callStep_rows R c io rows rows' ph ph' h with rfl | ⟨result, body, k, _, _, rfl, _⟩
  · exact Or.inl rfl
  · rcases persist_shape rows c.scope k result.status (R.jsonb body) with h | ⟨hn, h⟩
    · exact Or.inl h
    · exact Or.inr ⟨⟨c.scope, k, result.status, R.jsonb body⟩, hn, h⟩

theorem act_some (i : ℕ) (io : Io V) (p q : TimedState V)
    (h : step cfg R (.act i io) p = some q) : ∃ t rows ph, p.threads[i]? = some t ∧
      callStep R t.call io (responses p.world.rows) t.phase = some (rows, ph) ∧
      q = ⟨⟨p.world.now, stamp p.world.now p.world.rows rows⟩,
        p.threads.set i { t with phase := ph }⟩ := by
  obtain ⟨t, w, u, ht, ha, rfl⟩ := (step_act_some _ _ _ _ _).mp h
  obtain ⟨⟨rows, ph⟩, hc, he⟩ := Option.map_eq_some_iff.mp ha
  obtain ⟨rfl, rfl⟩ := Prod.mk.inj he
  exact ⟨t, rows, ph, ht, hc, rfl⟩

theorem purge_some (lag : ℕ) (chosen : List Key) (w w' : World)
    (h : purgeIdempotencyKeys cfg lag chosen w = some w') :
    ∃ gone : List Key, w' = ⟨w.now, w.rows.filter (fun x => keyOf x ∉ gone)⟩ ∧
      ∀ k ∈ gone, ∃ x ∈ w.rows, keyOf x = k ∧
        Expired cfg (w.now-lag) .idempotencyKeys (column x) := by
  simp only [purgeIdempotencyKeys] at h
  split at h
  · rename_i cutoff limit hp
    split_ifs at h
    obtain rfl := Option.some.inj h
    refine ⟨(dueKeys cutoff w.rows).filter chosen.contains, by simp, ?_⟩
    intro k hk
    have hdue := (List.mem_filter.mp hk).1
    obtain ⟨x, hx, rfl⟩ := List.mem_map.mp hdue
    obtain ⟨hmem, hstale⟩ := List.mem_filter.mp hx
    exact ⟨x, hmem, rfl, RetentionSweep.plan_expired _ _ cutoff limit hp _ hstale⟩
  · obtain rfl := Option.some.inj h
    exact ⟨[], by simp, by simp⟩

theorem within_not_expired (x : Stored) (now now' : Instant) (h : Within cfg x.createdAt now)
    (hle : now' ≤ now) : ¬ Expired cfg now' .idempotencyKeys (column x) := by
  intro hexp
  obtain ⟨_, hpos, hearlier⟩ := expired_mono now' now hle .idempotencyKeys (column x) hexp
  rcases h with h | h
  · exact absurd hpos (not_lt.mpr h)
  · exact h hearlier

theorem now_mono (l : TimedEvent V) (p q : TimedState V) (h : step cfg R l p = some q) :
    p.world.now ≤ q.world.now := by
  cases l with
  | act i io =>
    obtain ⟨t, rows, ph, _, _, rfl⟩ := act_some cfg R i io p q h
    exact le_rfl
  | env e =>
    obtain ⟨w, o, he, rfl⟩ := (step_env_some _ _ _ _).mp h
    cases e with
    | tick ms =>
      cases he
      exact le_add_of_nonneg_right (Int.natCast_nonneg ms)
    | call c =>
      cases he
      exact le_rfl
    | sweep lag chosen =>
      obtain ⟨w', hp, he⟩ := Option.map_eq_some_iff.mp he
      obtain ⟨rfl, _⟩ := Prod.mk.inj he
      obtain ⟨gone, rfl, _⟩ := purge_some cfg lag chosen _ _ hp
      exact le_rfl

theorem held_act (x : Stored) (ls : List (TimedEvent V)) (i : ℕ) (io : Io V) (p q : TimedState V)
    (hl : .act i io ∈ ls) (hi : Held x p) (h : step cfg R (.act i io) p = some q) :
    Held x q ∧ Matched (next R) (Spared (Faulty ls) x.response.scope x.response.key)
      (erase p) (erase q) := by
  obtain ⟨t, rows, ph, ht, hc, rfl⟩ := act_some cfg R i io p q h
  have hshape := callStep_shape R t.call io _ rows t.phase ph hc
  have herase : responses (stamp p.world.now p.world.rows rows) = rows :=
    responses_stamp _ _ _ (hshape.imp_right (fun ⟨r, _, hr⟩ => ⟨r, hr⟩))
  constructor
  · rcases hshape with rfl | ⟨r, hnone, rfl⟩
    · rw [stamp_same]
      exact hi
    · rw [stamp_snoc]
      refine ⟨List.mem_append_left _ hi.1, ?_⟩
      intro y hy hk
      rcases List.mem_append.mp hy with hy | hy
      · exact hi.2 y hy hk
      · obtain rfl := List.mem_singleton.mp hy
        simp only [keyOf, List.cons.injEq, and_true] at hk
        have hx : x.response ∈ responses p.world.rows := List.mem_map_of_mem hi.1
        rw [lookup, List.find?_eq_none] at hnone
        exact (hnone _ hx (by simp [hk.1, hk.2])).elim
  · apply matched_step _ _ (.act i io)
    · cases io with
      | fault => exact hl
      | ok | finish _ => trivial
    · apply (step_act_some _ _ _ _ _).mpr
      refine ⟨t, rows, { t with phase := ph }, ht, ?_, ?_⟩
      · show (callStep R t.call io (responses p.world.rows) t.phase).map _ = _
        rw [hc]
        rfl
      · simp [erase, herase]

theorem responses_filter (rows : List Stored) (gone : List Key) :
    responses (rows.filter (fun y => keyOf y ∉ gone)) =
      (responses rows).filter (fun r => !decide ([r.scope, r.key] ∈ gone)) := by
  rw [responses, responses, List.filter_map]
  congr 1
  apply List.filter_congr
  intro y _
  by_cases hy : keyOf y ∈ gone
  · rw [decide_eq_false (not_not.mpr hy), Function.comp_apply]
    exact (congrArg not (decide_eq_true hy)).symm
  · rw [decide_eq_true hy, Function.comp_apply]
    exact (congrArg not (decide_eq_false hy)).symm

theorem held_sweep (x : Stored) (faulty : ℕ → Prop) (bound : Instant)
    (hb : Within cfg x.createdAt bound) (lag : ℕ) (chosen : List Key) (p q : TimedState V)
    (hnow : p.world.now ≤ bound) (hi : Held x p)
    (h : step cfg R (.env (.sweep lag chosen)) p = some q) :
    Held x q ∧ Matched (next R) (Spared faulty x.response.scope x.response.key)
      (erase p) (erase q) := by
  obtain ⟨w, o, he, rfl⟩ := (step_env_some _ _ _ _).mp h
  obtain ⟨w', hp, he⟩ := Option.map_eq_some_iff.mp he
  obtain ⟨rfl, rfl⟩ := Prod.mk.inj he
  obtain ⟨gone, rfl, hgone⟩ := purge_some cfg lag chosen _ _ hp
  have hkept : keyOf x ∉ gone := by
    intro hx
    obtain ⟨y, hy, hk, hexp⟩ := hgone _ hx
    obtain rfl := hi.2 y hy hk
    have hlag : p.world.now-lag ≤ p.world.now := sub_le_self _ (Int.natCast_nonneg lag)
    exact within_not_expired cfg y bound _ hb (hlag.trans hnow) hexp
  constructor
  · refine ⟨List.mem_filter.mpr ⟨hi.1, by simpa using hkept⟩, ?_⟩
    intro y hy hk
    exact hi.2 y (List.mem_filter.mp hy).1 hk
  · apply matched_step _ _ (.env (.purge (fun r => [r.scope, r.key] ∈ gone)))
    · rintro r rs rk
      simpa [keyOf, rs, rk] using hkept
    · apply (step_env_some _ _ _ _).mpr
      refine ⟨_, none, rfl, ?_⟩
      simp only [erase, responses_filter]

theorem held_step (x : Stored) (ls : List (TimedEvent V)) (bound : Instant)
    (hb : Within cfg x.createdAt bound) (l : TimedEvent V) (p q : TimedState V) (hl : l ∈ ls)
    (hnow : p.world.now ≤ bound) (hi : Held x p) (h : step cfg R l p = some q) :
    Held x q ∧ Matched (next R) (Spared (Faulty ls) x.response.scope x.response.key)
      (erase p) (erase q) := by
  cases l with
  | act i io => exact held_act cfg R x ls i io p q hl hi h
  | env e =>
    cases e with
    | tick ms =>
      obtain ⟨w, o, he, rfl⟩ := (step_env_some _ _ _ _).mp h
      cases he
      refine ⟨hi, ?_⟩
      simpa [erase] using matched_stutter _ _ (erase p)
    | call c =>
      obtain ⟨w, o, he, rfl⟩ := (step_env_some _ _ _ _).mp h
      cases he
      have hspared : Spared (Faulty ls) x.response.scope x.response.key
          (.env (.call c) : Event V) (erase p) := trivial
      refine ⟨hi, matched_step _ _ (.env (.call c)) _ _ hspared ?_⟩
      exact (step_env_some _ _ _ _).mpr ⟨_, _, rfl, rfl⟩
    | sweep lag chosen => exact held_sweep cfg R x _ bound hb lag chosen p q hnow hi h

def Keyed (p : TimedState V) : Prop := (p.world.rows.map keyOf).Nodup

theorem keyed_step (l : TimedEvent V) (p q : TimedState V) (hi : Keyed p)
    (h : step cfg R l p = some q) : Keyed q := by
  cases l with
  | act i io =>
    obtain ⟨t, rows, ph, ht, hc, rfl⟩ := act_some cfg R i io p q h
    rcases callStep_shape R t.call io _ rows t.phase ph hc with rfl | ⟨r, hnone, rfl⟩
    · rw [stamp_same]
      exact hi
    · rw [stamp_snoc]
      simp only [Keyed, List.map_append, List.map_singleton]
      apply List.nodup_append.mpr
      refine ⟨hi, List.nodup_singleton _, ?_⟩
      rintro k hk k' hk' rfl
      obtain ⟨y, hy, he⟩ := List.mem_map.mp hk
      rw [List.mem_singleton.mp hk'] at he
      simp only [keyOf, List.cons.injEq, and_true] at he
      rw [lookup, List.find?_eq_none] at hnone
      exact hnone y.response (List.mem_map_of_mem hy) (by simp [he.1, he.2])
  | env e =>
    obtain ⟨w, o, he, rfl⟩ := (step_env_some _ _ _ _).mp h
    cases e with
    | tick ms =>
      cases he
      exact hi
    | call c =>
      cases he
      exact hi
    | sweep lag chosen =>
      obtain ⟨w', hp, he⟩ := Option.map_eq_some_iff.mp he
      obtain ⟨rfl, _⟩ := Prod.mk.inj he
      obtain ⟨gone, rfl, _⟩ := purge_some cfg lag chosen _ _ hp
      exact hi.sublist ((List.filter_sublist).map keyOf)

theorem keyed_run (now : Instant) (ls : List (TimedEvent V)) (p : TimedState V)
    (h : run (step cfg R) ls (opened now) = some p) : Keyed p :=
  run_invariant _ (fun _ _ => True) Keyed (fun l s t _ => keyed_step cfg R l s t) ls _ p
    (guarded_true _ ls _) (by simp [Keyed, opened]) h

end Steps

theorem held_of_keyed (x : Stored) (p : TimedState V) (hk : Keyed p) (hx : x ∈ p.world.rows) :
    Held x p :=
  ⟨hx, fun _ hy he => List.inj_on_of_nodup_map hk hy hx he⟩

theorem held_lookup (x : Stored) (p : TimedState V) (h : Held x p) :
    lookup (erase p).world x.response.scope x.response.key = some x.response := by
  cases hl : lookup (erase p).world x.response.scope x.response.key with
  | none =>
    rw [lookup, List.find?_eq_none] at hl
    exact (hl x.response (List.mem_map_of_mem h.1) (by simp)).elim
  | some r =>
    obtain ⟨hr, hscope, hkey⟩ := lookup_mem _ _ _ _ hl
    obtain ⟨y, hy, rfl⟩ := List.mem_map.mp hr
    rw [h.2 y hy (by simp [keyOf, hscope, hkey])]

/-- Until the window of a stored response is over, no sweep deletes it, and
every request with its key that comes later is answered with it and does not
run its handler, whatever other requests and sweeps do in between and whichever
statements fail; only a request whose own read fails is not answered. -/
theorem replay_within_ttl (cfg : Config) (R : Runtime V) (now : Instant)
    (before ls : List (TimedEvent V)) (s q : TimedState V) (x : Stored)
    (hs : run (step cfg R) before (opened now) = some s) (hx : x ∈ s.world.rows)
    (hq : run (step cfg R) ls s = some q) (hwithin : Within cfg x.createdAt q.world.now) :
    x ∈ q.world.rows ∧ ∀ (i : ℕ) (t : Thread V), s.threads.length ≤ i → q.threads[i]? = some t →
      IdempotencyAgreement.Keyed x.response.scope x.response.key t.call →
        t.phase = .received ∨ t.phase = .answered none (fromRow x.response true) ∨
          t.phase = .threw ∧ Faulty ls i := by
  have hheld := held_of_keyed x s (keyed_run cfg R now before s hs) hx
  have hbelow := (guarded_below (step cfg R) (fun p => p.world.now) (now_mono cfg R) ls s q hq).2
  have hlabels := guarded_labels (step cfg R) (fun l => l ∈ ls) ls s (fun _ hl => hl)
  have hguard := guarded_and _ _ _ ls s hlabels hbelow
  have hstep := fun (l : TimedEvent V) (a b : TimedState V)
    (hl : l ∈ ls ∧ a.world.now ≤ q.world.now) (hi : Held x a)
    (h : step cfg R l a = some b) => held_step cfg R x ls _ hwithin l a b hl.1 hl.2 hi h
  have hend := run_invariant _ _ (Held x) (fun l a b hl hi h => (hstep l a b hl hi h).1) ls s q
    hguard hheld hq
  obtain ⟨ls', hg', hr'⟩ := run_matched _ _ (next R)
    (Spared (Faulty ls) x.response.scope x.response.key) erase (Held x)
    (fun l a b hl hi h => (hstep l a b hl hi h).1) (fun l a b hl hi h => (hstep l a b hl hi h).2)
    ls s q hguard hheld hq
  have hlate := late_run R _ _ (Faulty ls) _ (fun _ _ h => h) x.response ls' (erase s) (erase q)
    hg' hr' (held_lookup x s hheld)
  apply And.intro hend.1
  intro i t hi ht hk
  apply (hlate i ?_).2 t ht hk
  intro u hu
  have hnone : s.threads[i]? = none := List.getElem?_eq_none hi
  rw [show (erase s).threads = s.threads from rfl, hnone] at hu
  cases hu

section Scenario

def stores : List (TimedEvent Bool) :=
  [.env (.call keyedCall), .act 0 .ok, .act 0 (.finish (some ⟨201, some true⟩)), .act 0 .ok,
    .act 0 .ok]

/-- A sweep at the last millisecond of the window, and two later requests, of
which the first fails to read. -/
def replays : List (TimedEvent Bool) :=
  [.env (.tick 604800000), .env (.sweep 0 [[js "webhooks.create", js "k1"]]),
    .env (.call keyedCall), .act 1 .fault, .env (.call keyedCall), .act 2 .ok]

def afterStore : TimedState Bool :=
  (run (step RetentionSweep.defaults bodies) stores (opened 0)).get (by decide +kernel)

def afterReplay : TimedState Bool :=
  (run (step RetentionSweep.defaults bodies) replays afterStore).get (by decide +kernel)

def storedRow : Stored :=
  ⟨⟨js "webhooks.create", js "k1", 201,
    .obj [(js "code", .null), (js "error", .str (js "taken"))]⟩, 0⟩

theorem replay_within_ttl_last : storedRow ∈ afterReplay.world.rows ∧
    ∀ (i : ℕ) (t : Thread Bool), afterStore.threads.length ≤ i → afterReplay.threads[i]? = some t →
      IdempotencyAgreement.Keyed (js "webhooks.create") (js "k1") t.call →
        t.phase = .received ∨ t.phase = .answered none (fromRow storedRow.response true) ∨
          t.phase = .threw ∧ Faulty replays i := by
  apply replay_within_ttl RetentionSweep.defaults bodies 0 stores replays afterStore afterReplay
    storedRow (Option.some_get _).symm ?_ (Option.some_get _).symm (Or.inr ?_)
  · exact List.mem_singleton.mpr rfl
  · rw [show afterReplay.world.now = 604800000 by decide +kernel]
    rw [show RetentionSweep.defaults.idempotencyKeyTtlDays = (7 : ℕ) from rfl,
      daysAgo_whole 604800000 7 (by decide) (by decide)]
    norm_num [Earlier, storedRow, AgentLifecycle.dayMs]

end Scenario

end ControlPlane.IdempotencyRetention
