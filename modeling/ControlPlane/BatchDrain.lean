import Mathlib.Data.Finset.Card
import Mathlib.Data.Set.Basic

/-!
# Draining a set in batches

A pass takes a batch of what is due, at most as many as its limit, and fewer
only when nothing else is due. Elements may come in between the passes, and
what is due later may be taken first, so the bound on the passes counts them
all.
-/

set_option autoImplicit false

namespace ControlPlane.BatchDrain

variable {α : Type*}

/-- What a selection with a limit and without an order may return. -/
structure Batch (limit : ℕ) (due : Set α) (batch : Finset α) : Prop where
  subset : ∀ x ∈ batch, x ∈ due
  card : batch.card ≤ limit
  full : batch.card < limit → ∀ x ∈ due, x ∈ batch

/-- Passes over a waiting set, with the number of the elements that came in.
The watched elements are due whenever they wait, and none of them comes in. -/
inductive Drain (limit : ℕ) (watched : Set α) : ℕ → ℕ → Finset α → Finset α → Prop
  | none (s : Finset α) : Drain limit watched 0 0 s s
  | pass (n m : ℕ) (s t u batch added : Finset α) (due : Set α) (hb : Batch limit due batch)
    (hd : ∀ x ∈ due, x ∈ s) (hw : ∀ x ∈ watched, x ∈ s → x ∈ due)
    (ht : ∀ x ∈ t, (x ∈ s ∧ x ∉ batch) ∨ x ∈ added) (ha : ∀ x ∈ watched, x ∉ added)
    (rest : Drain limit watched n m t u) : Drain limit watched (n+1) (m+added.card) s u

variable {limit n m : ℕ} {watched : Set α} {s u : Finset α}

theorem drain_watched (h : Drain limit watched n m s u) (x : α) (hx : x ∈ watched)
    (hu : x ∈ u) : x ∈ s := by
  induction h with
  | none s => exact hu
  | pass n m s t u batch added due hb hd hw ht ha rest ih =>
    rcases ht x (ih hu) with h | h
    · exact h.1
    · exact (ha x hx h).elim

theorem batch_full {due : Set α} {batch : Finset α} (hb : Batch limit due batch) (x : α)
    (hx : x ∈ due) (hn : x ∉ batch) : batch.card = limit := by
  apply le_antisymm hb.card
  apply Nat.le_of_not_lt
  intro hlt
  exact hn (hb.full hlt x hx)

variable [DecidableEq α]

theorem pass_card {t batch added : Finset α} (hs : ∀ x ∈ batch, x ∈ s)
    (ht : ∀ x ∈ t, (x ∈ s ∧ x ∉ batch) ∨ x ∈ added) :
    t.card+batch.card ≤ s.card+added.card := by
  have hsub : t ⊆ (s \ batch) ∪ added := by
    intro x hx
    simpa using ht x hx
  have hle := Finset.card_le_card hsub
  have hunion := Finset.card_union_le (s \ batch) added
  have hsplit := Finset.card_sdiff_add_card_eq_card (s := batch) (t := s) hs
  omega

/-- Either nothing watched is left or every pass was full. -/
theorem drain_cases (h : Drain limit watched n m s u) :
    (∀ x ∈ watched, x ∉ u) ∨ u.card+n*limit ≤ s.card+m := by
  induction h with
  | none s => exact Or.inr (by omega)
  | pass n m s t u batch added due hb hd hw ht ha rest ih =>
    rcases ih with ih | ih
    · exact Or.inl ih
    by_cases hleft : ∃ x ∈ watched, x ∈ t
    · right
      obtain ⟨x, hx, hxt⟩ := hleft
      rcases ht x hxt with hold | hnew
      · have hfull := batch_full hb x (hw x hx hold.1) hold.2
        have hcard : t.card+batch.card ≤ s.card+added.card :=
          pass_card (fun y hy => hd y (hb.subset y hy)) ht
        have hmul : (n+1)*limit = n*limit+limit := Nat.succ_mul n limit
        omega
      · exact (ha x hx hnew).elim
    · left
      intro x hx hxu
      exact hleft ⟨x, hx, drain_watched rest x hx hxu⟩

theorem drained (h : Drain limit watched n m s u) (hn : s.card+m ≤ n*limit) (x : α)
    (hx : x ∈ watched) : x ∉ u := by
  rcases drain_cases h with hcase | hcase
  · exact hcase x hx
  · have hzero : u.card = 0 := by omega
    simp [Finset.card_eq_zero.mp hzero]

end ControlPlane.BatchDrain
