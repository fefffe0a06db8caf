import Mathlib.Data.List.Basic
import Mathlib.Data.List.Induction
import Mathlib.Tactic.Common

/-!
# Replays over a keyed store

An entry of a log opens the row of a key unless it is there, or overwrites
parts of it where it is. Once the log is processed a row keeps its value under
any replay exactly if all its overwrites are one and the same and one of them
has met the row.
-/

set_option autoImplicit false

namespace ControlPlane.KeyedReplay

variable {K V O : Type*} [DecidableEq K]

inductive Entry (K O : Type*) where
  | opens (k : K)
  | sets (k : K) (o : O)
  | skips
  deriving DecidableEq

section Store
variable (act : O → V → V) (init : V)

def record : Entry K O → List (K × V) → List (K × V)
  | .opens k, s => if s.any (fun r => r.1 = k) then s else s++[(k, init)]
  | .sets k o, s => s.map (fun r => if r.1 = k then (r.1, act o r.2) else r)
  | .skips, s => s

def replay : List (Entry K O) → List (K × V) → List (K × V)
  | [], s => s
  | e::es, s => replay es (record act init e s)

def Has (s : List (K × V)) (k : K) : Prop := ∃ v, (k, v) ∈ s

/-- The overwrites of every key that the log leaves a row for are equal, and
one of them comes after the row. -/
def Repeatable (s : List (K × V)) (es : List (Entry K O)) : Prop :=
  ∀ k, Has s k ∨ .opens k ∈ es → (∀ o, .sets k o ∉ es) ∨
    ∃ o, (∀ o', .sets k o' ∈ es → o' = o) ∧
      ∃ as bs, es = as++.sets k o::bs ∧ (Has s k ∨ .opens k ∈ as)

theorem replay_append (as bs : List (Entry K O)) (s : List (K × V)) :
    replay act init (as++bs) s = replay act init bs (replay act init as s) := by
  induction as generalizing s with
  | nil => rfl
  | cons e as ih => exact ih _

theorem mem_record (e : Entry K O) (s : List (K × V)) (k : K) (v : V) :
    (k, v) ∈ record act init e s →
      (k, v) ∈ s ∧ (∀ o, e ≠ .sets k o) ∨ (e = .opens k ∧ v = init ∧ ¬ Has s k) ∨
        ∃ o w, e = .sets k o ∧ (k, w) ∈ s ∧ v = act o w := by
  intro h
  cases e with
  | opens j =>
    simp only [record] at h
    split_ifs at h with hany
    · exact Or.inl ⟨h, by simp⟩
    · rcases List.mem_append.mp h with h | h
      · exact Or.inl ⟨h, by simp⟩
      · obtain ⟨rfl, rfl⟩ := Prod.mk.inj (List.mem_singleton.mp h)
        refine Or.inr (Or.inl ⟨rfl, rfl, ?_⟩)
        rintro ⟨w, hw⟩
        exact hany (List.any_eq_true.mpr ⟨_, hw, by simp⟩)
  | sets j o =>
    simp only [record, List.mem_map] at h
    obtain ⟨⟨i, w⟩, hw, hiw⟩ := h
    by_cases hij : i = j
    · subst hij
      simp only [if_true, Prod.mk.injEq] at hiw
      obtain ⟨rfl, rfl⟩ := hiw
      exact Or.inr (Or.inr ⟨o, w, rfl, hw, rfl⟩)
    · simp only [if_neg hij, Prod.mk.injEq] at hiw
      obtain ⟨rfl, rfl⟩ := hiw
      refine Or.inl ⟨hw, ?_⟩
      rintro o' heq
      exact hij (Entry.sets.inj heq).1.symm
  | skips => exact Or.inl ⟨h, by simp⟩

theorem has_record (e : Entry K O) (s : List (K × V)) (k : K) :
    Has (record act init e s) k ↔ Has s k ∨ e = .opens k := by
  constructor
  · rintro ⟨v, hv⟩
    rcases mem_record act init e s k v hv with ⟨h, -⟩ | ⟨rfl, -, -⟩ | ⟨o, w, -, hw, -⟩
    · exact Or.inl ⟨v, h⟩
    · exact Or.inr rfl
    · exact Or.inl ⟨w, hw⟩
  · rintro (⟨v, hv⟩ | rfl)
    · cases e with
      | opens j =>
        simp only [record]
        split_ifs
        · exact ⟨v, hv⟩
        · exact ⟨v, List.mem_append_left _ hv⟩
      | sets j o =>
        by_cases hk : k = j
        · exact ⟨act o v, List.mem_map.mpr ⟨_, hv, by simp [hk]⟩⟩
        · exact ⟨v, List.mem_map.mpr ⟨_, hv, by simp [hk]⟩⟩
      | skips => exact ⟨v, hv⟩
    · simp only [record]
      split_ifs with hany
      · obtain ⟨⟨j, v⟩, hv, hj⟩ := List.any_eq_true.mp hany
        simp only [decide_eq_true_eq] at hj
        exact ⟨v, hj ▸ hv⟩
      · exact ⟨init, by simp⟩

theorem has_replay (es : List (Entry K O)) (s : List (K × V)) (k : K) :
    Has (replay act init es s) k ↔ Has s k ∨ .opens k ∈ es := by
  induction es generalizing s with
  | nil => simp [replay]
  | cons e es ih =>
    rw [replay, ih, has_record, List.mem_cons, or_assoc, eq_comm (a := e)]

def Struck (k : K) (o : O) (s : List (K × V)) : Prop :=
  Has s k ∧ ∀ v, (k, v) ∈ s → ∃ w, v = act o w

theorem struck_replay (k : K) (o : O) (es : List (Entry K O)) (s : List (K × V))
    (hone : ∀ o', .sets k o' ∈ es → o' = o) (h : Struck act k o s) :
    Struck act k o (replay act init es s) := by
  induction es generalizing s with
  | nil => exact h
  | cons e es ih =>
    apply ih _ (fun o' ho' => hone o' (List.mem_cons_of_mem e ho'))
    constructor
    · exact (has_record act init e s k).mpr (Or.inl h.1)
    · intro v hv
      rcases mem_record act init e s k v hv with ⟨hv, -⟩ | ⟨-, -, hn⟩ | ⟨o', w, rfl, -, rfl⟩
      · exact h.2 v hv
      · exact (hn h.1).elim
      · exact ⟨w, by rw [hone o' List.mem_cons_self]⟩

theorem struck_sets (k : K) (o : O) (s : List (K × V)) (h : Has s k) :
    Struck act k o (record act init (.sets k o) s) := by
  constructor
  · exact (has_record act init _ s k).mpr (Or.inl h)
  · intro v hv
    rcases mem_record act init _ s k v hv with ⟨-, hn⟩ | ⟨hn, -, -⟩ | ⟨o', w, ho, -, rfl⟩
    · exact (hn o rfl).elim
    · cases hn
    · obtain ⟨-, rfl⟩ := Entry.sets.inj ho
      exact ⟨w, rfl⟩

def Origin (s : List (K × V)) (es : List (Entry K O)) (k : K) (v : V) : Prop :=
  (∀ o, .sets k o ∉ es) ∨ v = init ∨
    ∃ o w as bs, v = act o w ∧ es = as++.sets k o::bs ∧ (Has s k ∨ .opens k ∈ as)

theorem origin_replay (es : List (Entry K O)) (s : List (K × V)) (k : K) (v : V)
    (h : (k, v) ∈ replay act init es s) : Origin act init s es k v := by
  induction es using List.reverseRecOn generalizing v with
  | nil => exact Or.inl (fun o => List.not_mem_nil)
  | append_singleton es e ih =>
    rw [replay_append] at h
    rcases mem_record act init e _ k v h with ⟨hv, hne⟩ | ⟨-, rfl, -⟩ | ⟨o, w, rfl, hw, rfl⟩
    · rcases ih v hv with hnone | hinit | ⟨o, w, as, bs, rfl, rfl, hk⟩
      · left
        intro o ho
        rcases List.mem_append.mp ho with ho | ho
        · exact hnone o ho
        · exact hne o (List.mem_singleton.mp ho).symm
      · exact Or.inr (Or.inl hinit)
      · exact Or.inr (Or.inr ⟨o, w, as, bs++[e], rfl, by simp, hk⟩)
    · exact Or.inr (Or.inl rfl)
    · have hk := (has_replay act init es s k).mp ⟨w, hw⟩
      exact Or.inr (Or.inr ⟨o, w, es, [], rfl, rfl, hk⟩)

theorem record_sets_fixed (s : List (K × V)) (k : K) (o : O) :
    record act init (.sets k o) s = s ↔ ∀ v, (k, v) ∈ s → act o v = v := by
  have hid : record act init (.sets k o) s = s ↔
      s.map (fun r => if r.1 = k then (r.1, act o r.2) else r) = s.map id := by
    rw [List.map_id]
    rfl
  rw [hid, List.map_inj_left]
  constructor
  · intro h v hv
    have := h _ hv
    simpa using this
  · rintro h ⟨j, v⟩ hv
    by_cases hj : j = k
    · subst hj
      simp [h v hv]
    · simp [hj]

theorem replay_fixed (rs : List (Entry K O)) (s : List (K × V))
    (h : ∀ e ∈ rs, record act init e s = s) : replay act init rs s = s := by
  induction rs with
  | nil => rfl
  | cons e rs ih =>
    rw [replay, h e List.mem_cons_self]
    exact ih (fun f hf => h f (List.mem_cons_of_mem e hf))

/-- Overwrites leave one another's traces, and the initial value none. -/
theorem replay_fixed_iff (hact : ∀ o o' v, act o (act o' v) = act o' v ↔ o = o')
    (hinit : ∀ o, act o init ≠ init) (s : List (K × V)) (es : List (Entry K O)) :
    (∀ rs, (∀ e ∈ rs, e ∈ es) →
      replay act init rs (replay act init es s) = replay act init es s) ↔ Repeatable s es := by
  constructor
  · intro h k hk
    have hfix : ∀ o, .sets k o ∈ es → ∀ v, (k, v) ∈ replay act init es s → act o v = v := by
      intro o ho
      have := h [.sets k o] (by simpa using ho)
      exact (record_sets_fixed act init _ k o).mp this
    obtain ⟨v, hv⟩ := (has_replay act init es s k).mpr hk
    rcases origin_replay act init es s k v hv with hnone | rfl | ⟨o, w, as, bs, rfl, hes, has⟩
    · exact Or.inl hnone
    · exact Or.inl (fun o ho => hinit o (hfix o ho _ hv))
    · right
      refine ⟨o, ?_, as, bs, hes, has⟩
      intro o' ho'
      exact (hact o' o w).mp (hfix o' ho' _ hv)
  · intro h rs hrs
    apply replay_fixed
    intro e he
    cases e with
    | opens k =>
      obtain ⟨v, hv⟩ := (has_replay act init es s k).mpr (Or.inr (hrs _ he))
      have hany : (replay act init es s).any (fun r => r.1 = k) = true :=
        List.any_eq_true.mpr ⟨_, hv, by simp⟩
      simp only [record, hany, if_true]
    | sets k o =>
      rw [record_sets_fixed]
      intro v hv
      rcases h k ((has_replay act init es s k).mp ⟨v, hv⟩) with hnone | ⟨o₁, hone, as, bs, hes, has⟩
      · exact (hnone o (hrs _ he)).elim
      · obtain rfl := hone o (hrs _ he)
        subst hes
        rw [replay_append] at hv
        have hk := (has_replay act init as s k).mpr has
        have hstruck := struck_replay act init k o bs _
          (fun o' ho' => hone o' (by simp [ho'])) (struck_sets act init k o _ hk)
        obtain ⟨w, rfl⟩ := hstruck.2 v hv
        exact (hact o o w).mpr rfl
    | skips => rfl

end Store

end ControlPlane.KeyedReplay
