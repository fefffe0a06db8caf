import Mathlib.Data.List.Nodup

/-!
# The first of each key

Of a list the first element with each key is kept, in the order of the list.
A loop that skips a key it has seen keeps these.
-/

set_option autoImplicit false

namespace ControlPlane.FirstByKey
variable {α κ : Type*} [DecidableEq κ] (key : α → κ)

def firsts : List α → List α
  | [] => []
  | x::xs => x::(firsts xs).filter (fun y => key y ≠ key x)

def First (x : α) (xs : List α) : Prop :=
  ∃ before after, xs = before++x::after ∧ ∀ y ∈ before, key y ≠ key x

omit [DecidableEq κ] in
theorem first_cons_iff (x y : α) (ys : List α) :
    First key x (y::ys) ↔ x = y ∨ key y ≠ key x ∧ First key x ys := by
  constructor
  · rintro ⟨before, after, hsplit, hnew⟩
    cases before with
    | nil =>
      rw [List.nil_append, List.cons.injEq] at hsplit
      exact Or.inl hsplit.1.symm
    | cons b before =>
      rw [List.cons_append, List.cons.injEq] at hsplit
      obtain ⟨rfl, hrest⟩ := hsplit
      rw [List.forall_mem_cons] at hnew
      exact Or.inr ⟨hnew.1, before, after, hrest, hnew.2⟩
  · intro h
    rcases h with rfl | ⟨hne, before, after, rfl, hnew⟩
    · exact ⟨[], ys, rfl, by simp⟩
    · exact ⟨y::before, after, rfl, List.forall_mem_cons.mpr ⟨hne, hnew⟩⟩

theorem mem_firsts_iff (x : α) (xs : List α) : x ∈ firsts key xs ↔ First key x xs := by
  induction xs with
  | nil =>
    constructor
    · intro h
      cases h
    · rintro ⟨before, after, hsplit, -⟩
      simp at hsplit
  | cons y ys ih =>
    rw [first_cons_iff, firsts, List.mem_cons, List.mem_filter, ih, decide_eq_true_eq]
    constructor
    · intro h
      rcases h with heq | ⟨hfirst, hne⟩
      · exact Or.inl heq
      · exact Or.inr ⟨Ne.symm hne, hfirst⟩
    · intro h
      rcases h with heq | ⟨hne, hfirst⟩
      · exact Or.inl heq
      · exact Or.inr ⟨hfirst, Ne.symm hne⟩

omit [DecidableEq κ] in
theorem first_mem (x : α) (xs : List α) (h : First key x xs) : x ∈ xs := by
  obtain ⟨before, after, rfl, -⟩ := h
  simp

theorem firsts_nodup (xs : List α) : ((firsts key xs).map key).Nodup := by
  induction xs with
  | nil => exact List.nodup_nil
  | cons x xs ih =>
    rw [firsts, List.map_cons, List.nodup_cons]
    constructor
    · intro hmem
      obtain ⟨y, hy, heq⟩ := List.mem_map.mp hmem
      rw [List.mem_filter, decide_eq_true_eq] at hy
      exact hy.2 heq
    · exact ih.sublist (List.filter_sublist.map key)

theorem exists_first (xs : List α) (x : α) (hx : x ∈ xs) :
    ∃ y, First key y xs ∧ key y = key x := by
  induction xs with
  | nil => cases hx
  | cons z zs ih =>
    by_cases hz : key z = key x
    · exact ⟨z, (first_cons_iff key z z zs).mpr (Or.inl rfl), hz⟩
    · have htail : x ∈ zs := (List.mem_cons.mp hx).resolve_left (fun h => hz (h ▸ rfl))
      obtain ⟨y, hy, heq⟩ := ih htail
      exact ⟨y, (first_cons_iff key y z zs).mpr (Or.inr ⟨fun h => hz (h.trans heq), hy⟩), heq⟩

theorem mem_keys_firsts (xs : List α) (k : κ) :
    k ∈ (firsts key xs).map key ↔ k ∈ xs.map key := by
  constructor
  · intro h
    obtain ⟨x, hx, rfl⟩ := List.mem_map.mp h
    exact List.mem_map_of_mem (first_mem key x xs ((mem_firsts_iff key x xs).mp hx))
  · intro h
    obtain ⟨x, hx, rfl⟩ := List.mem_map.mp h
    obtain ⟨y, hy, heq⟩ := exists_first key xs x hx
    rw [← heq]
    exact List.mem_map_of_mem ((mem_firsts_iff key y xs).mpr hy)

theorem firsts_of_nodup (xs : List α) (h : (xs.map key).Nodup) : firsts key xs = xs := by
  induction xs with
  | nil => rfl
  | cons x xs ih =>
    rw [List.map_cons, List.nodup_cons] at h
    rw [firsts, ih h.2, List.filter_eq_self.mpr]
    intro y hy
    rw [decide_eq_true_eq]
    intro heq
    exact h.1 (heq ▸ List.mem_map_of_mem hy)

theorem firsts_skip (kept xs : List α) (x : α) :
    (firsts key (x::xs)).filter (fun y => !kept.any (key · = key y)) =
      if kept.any (key · = key x) = true then
        (firsts key xs).filter (fun y => !kept.any (key · = key y))
      else x::(firsts key xs).filter (fun y => !(kept++[x]).any (key · = key y)) := by
  rw [firsts, List.filter_cons, List.filter_filter]
  by_cases hseen : kept.any (key · = key x) = true
  · rw [if_pos hseen, hseen]
    simp only [Bool.not_true, Bool.false_eq_true, if_false]
    apply List.filter_congr
    intro y _
    by_cases hy : key y = key x
    · rw [hy, hseen]
      rfl
    · simp [hy]
  · rw [if_neg hseen, Bool.not_eq_true] at *
    rw [hseen]
    simp only [Bool.not_false, if_true]
    congr 1
    apply List.filter_congr
    intro y _
    by_cases hy : key y = key x
    · simp [hy]
    · simp [hy, Ne.symm hy]

end ControlPlane.FirstByKey
