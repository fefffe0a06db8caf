import Mathlib.Algebra.GroupWithZero.Nat
import Mathlib.Algebra.BigOperators.Group.List.Basic
import Mathlib.Data.List.Induction
import Mathlib.Data.List.Nodup
import Mathlib.Tactic.SplitIfs

/-!
# Tallies

A table counts rows under their keys, in the order in which the keys come up.
A key that is there has its cell counted up, a new one gets a cell of its own.
The cells together count every row once.
-/

set_option autoImplicit false

namespace ControlPlane.TallyTable
variable {α κ γ : Type*} [DecidableEq κ]

/-- A `Map` keeps the place of a key that is set again. -/
def bump (k : κ) (fresh : γ) (up : γ → γ) : List (κ × γ) → List (κ × γ)
  | [] => [(k, fresh)]
  | (j, c)::rest => if j = k then (j, up c)::rest else (j, c)::bump k fresh up rest

def tally (key : α → κ) (fresh : α → γ) (up : γ → γ) (rows : List α) : List (κ × γ) :=
  rows.foldl (fun t x => bump (key x) (fresh x) up t) []

def cell (table : List (κ × γ)) (k : κ) : Option γ := table.lookup k

section Bump
variable (k : κ) (fresh : γ) (up : γ → γ)

theorem bump_keys (table : List (κ × γ)) : (bump k fresh up table).map Prod.fst =
    if k ∈ table.map Prod.fst then table.map Prod.fst else table.map Prod.fst++[k] := by
  induction table with
  | nil => simp [bump]
  | cons m rest ih =>
    obtain ⟨j, c⟩ := m
    rw [bump]
    by_cases hj : j = k
    · simp [hj]
    · rw [if_neg hj, List.map_cons, List.map_cons, ih]
      by_cases hk : k ∈ rest.map Prod.fst
      · rw [if_pos hk, if_pos (List.mem_cons_of_mem _ hk)]
      · have hnot : k ∉ j::rest.map Prod.fst := by
          simp only [List.mem_cons, hk, or_false]
          exact fun h => hj h.symm
        rw [if_neg hk, if_neg hnot]
        rfl

theorem bump_nodup (table : List (κ × γ)) (h : (table.map Prod.fst).Nodup) :
    ((bump k fresh up table).map Prod.fst).Nodup := by
  rw [bump_keys]
  split_ifs with hk
  · exact h
  · rw [← List.concat_eq_append]
    exact h.concat hk

theorem bump_sum (size : γ → ℕ) (hfresh : size fresh = 1) (hup : ∀ c, size (up c) = size c+1)
    (table : List (κ × γ)) : ((bump k fresh up table).map (fun m => size m.2)).sum =
      (table.map (fun m => size m.2)).sum+1 := by
  induction table with
  | nil => simp [bump, hfresh]
  | cons m rest ih =>
    rw [bump]
    split_ifs with hj
    · simp only [List.map_cons, List.sum_cons, hup]
      omega
    · simp only [List.map_cons, List.sum_cons, ih]
      omega

theorem cell_bump (table : List (κ × γ)) (j : κ) : cell (bump k fresh up table) j =
    if j = k then some (((cell table k).map up).getD fresh) else cell table j := by
  unfold cell
  induction table with
  | nil =>
    by_cases hj : j = k
    · simp [bump, hj]
    · have hbeq : (j == k) = false := beq_eq_false_iff_ne.mpr hj
      simp [bump, hj, List.lookup_cons, hbeq]
  | cons m rest ih =>
    obtain ⟨i, c⟩ := m
    rw [bump]
    by_cases hik : i = k
    · subst hik
      by_cases hj : j = i
      · simp [hj]
      · have hbeq : (j == i) = false := beq_eq_false_iff_ne.mpr hj
        simp [hj, List.lookup_cons, hbeq]
    · have hki : (k == i) = false := beq_eq_false_iff_ne.mpr (fun h => hik h.symm)
      rw [if_neg hik, List.lookup_cons, ih, List.lookup_cons, hki, List.lookup_cons]
      by_cases hj : j = i
      · subst hj
        simp [hik]
      · have hbeq : (j == i) = false := beq_eq_false_iff_ne.mpr hj
        simp only [hbeq]

theorem bump_seeded (f : κ → γ) (ks : List κ) (hks : ks.Nodup) (hk : k ∈ ks) :
    bump k fresh up (ks.map (fun j => (j, f j))) =
      ks.map (fun j => (j, if j = k then up (f j) else f j)) := by
  induction ks with
  | nil => cases hk
  | cons j ks ih =>
    obtain ⟨hj, hks⟩ := List.nodup_cons.mp hks
    rw [List.map_cons, bump]
    by_cases hjk : j = k
    · subst hjk
      have hrest : ∀ i ∈ ks, ¬i = j := fun i hi h => hj (h ▸ hi)
      simp only [if_true, List.map_cons, List.cons.injEq, true_and]
      exact List.map_congr_left (fun i hi => by rw [if_neg (hrest i hi)])
    · rw [if_neg hjk, ih hks (List.mem_of_ne_of_mem (Ne.symm hjk) hk), List.map_cons, if_neg hjk]

end Bump

theorem mem_cell (table : List (κ × γ)) (h : (table.map Prod.fst).Nodup) (m : κ × γ) :
    m ∈ table ↔ cell table m.1 = some m.2 := by
  induction table with
  | nil => simp [cell]
  | cons head rest ih =>
    rw [List.map_cons, List.nodup_cons] at h
    rw [cell] at ih ⊢
    rw [List.mem_cons, List.lookup_cons]
    by_cases hk : m.1 = head.1
    · have hrest : m ∉ rest := by
        intro hm
        exact h.1 (hk ▸ List.mem_map_of_mem hm)
      rw [beq_iff_eq.mpr hk]
      simp only [hrest, or_false, Option.some.injEq]
      rw [Prod.ext_iff]
      simp only [hk, true_and]
      exact eq_comm
    · rw [beq_eq_false_iff_ne.mpr hk, ← ih h.2]
      have hne : m ≠ head := fun heq => hk (congrArg Prod.fst heq)
      simp only [hne, false_or]

section Tally
variable (key : α → κ) (fresh : α → γ) (up : γ → γ)

theorem tally_snoc (rows : List α) (x : α) : tally key fresh up (rows++[x]) =
    bump (key x) (fresh x) up (tally key fresh up rows) := by
  rw [tally, List.foldl_append]
  rfl

theorem tally_nodup (rows : List α) : ((tally key fresh up rows).map Prod.fst).Nodup := by
  induction rows using List.reverseRecOn with
  | nil => exact List.nodup_nil
  | append_singleton rows x ih =>
    rw [tally_snoc]
    exact bump_nodup _ _ _ _ ih

theorem tally_sum (size : γ → ℕ) (hfresh : ∀ x, size (fresh x) = 1)
    (hup : ∀ c, size (up c) = size c+1) (rows : List α) :
    ((tally key fresh up rows).map (fun m => size m.2)).sum = rows.length := by
  induction rows using List.reverseRecOn with
  | nil => rfl
  | append_singleton rows x ih =>
    rw [tally_snoc, bump_sum _ _ _ size (hfresh x) hup, ih, List.length_append]
    rfl

theorem tally_cell (rows : List α) (k : κ) : cell (tally key fresh up rows) k =
    (rows.find? (fun x => key x = k)).map
      (fun x => up^[rows.countP (fun x => key x = k)-1] (fresh x)) := by
  induction rows using List.reverseRecOn with
  | nil => rfl
  | append_singleton rows x ih =>
    rw [tally_snoc, cell_bump, List.find?_append, List.countP_append]
    by_cases hk : k = key x
    · subst hk
      rw [if_pos rfl, ih]
      cases hf : rows.find? (fun y => key y = key x) with
      | none =>
        have hzero : rows.countP (fun y => key y = key x) = 0 := by
          rw [List.countP_eq_zero]
          exact List.find?_eq_none.mp hf
        simp [hzero]
      | some y =>
        have hkey : key y = key x := by simpa using List.find?_some hf
        have hpos : 0 < rows.countP (fun y => key y = key x) := by
          rw [List.countP_pos_iff]
          exact ⟨y, List.mem_of_find?_eq_some hf, decide_eq_true hkey⟩
        obtain ⟨n, hn⟩ := Nat.exists_eq_add_of_lt hpos
        rw [Nat.zero_add] at hn
        simp [hn, Function.iterate_succ_apply']
    · have hne : ¬key x = k := fun h => hk h.symm
      rw [if_neg hk, ih]
      simp [hne]

end Tally

end ControlPlane.TallyTable
