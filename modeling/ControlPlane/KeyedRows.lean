import Mathlib.Data.List.Nodup
import Mathlib.Tactic.SplitIfs

/-!
# Rows under a unique key

A table is a list of rows whose keys are all different. An insert appends a
row with a new key and an update changes the rows that it selects without
touching their keys.
-/

set_option autoImplicit false

namespace ControlPlane.KeyedRows

variable {α β : Type*} (key : α → β)

/-- `UPDATE … WHERE p` -/
def updateWhere (p : α → Bool) (f : α → α) (xs : List α) : List α :=
  xs.map (fun x => if p x then f x else x)

theorem nodup_snoc (xs : List α) (x : α) (h : (xs.map key).Nodup)
    (hx : ∀ y ∈ xs, key y ≠ key x) : ((xs++[x]).map key).Nodup := by
  rw [List.map_append, List.nodup_append']
  apply And.intro h
  apply And.intro (List.nodup_singleton _)
  intro b hb hb'
  obtain ⟨y, hy, rfl⟩ := List.mem_map.mp hb
  exact hx y hy (List.mem_singleton.mp hb')

theorem map_updateWhere (p : α → Bool) (f : α → α) (xs : List α) (hf : ∀ x, key (f x) = key x) :
    (updateWhere p f xs).map key = xs.map key := by
  rw [updateWhere, List.map_map]
  apply List.map_congr_left
  intro x _
  simp only [Function.comp_apply]
  split_ifs
  · exact hf x
  · rfl

theorem mem_updateWhere (p : α → Bool) (f : α → α) (xs : List α) (y : α)
    (h : y ∈ updateWhere p f xs) : ∃ x ∈ xs, y = if p x then f x else x := by
  obtain ⟨x, hx, rfl⟩ := List.mem_map.mp h
  exact ⟨x, hx, rfl⟩

theorem updateWhere_eq (p : α → Bool) (f : α → α) (xs : List α) (h : (xs.map key).Nodup)
    (hf : ∀ x, key (f x) = key x) (x y : α) (hx : x ∈ xs) (hy : y ∈ updateWhere p f xs)
    (hkey : key y = key x) : y = if p x then f x else x := by
  obtain ⟨z, hz, rfl⟩ := mem_updateWhere p f xs y hy
  have hzx : key z = key x := by
    rw [← hkey]
    split_ifs
    · exact (hf z).symm
    · rfl
  obtain rfl := List.inj_on_of_nodup_map h hz hx hzx
  rfl

theorem find_key_iff [DecidableEq β] (xs : List α) (h : (xs.map key).Nodup) (k : β) (x : α) :
    xs.find? (fun y => key y = k) = some x ↔ x ∈ xs ∧ key x = k := by
  constructor
  · intro hf
    exact ⟨List.mem_of_find?_eq_some hf, by simpa using List.find?_some hf⟩
  · rintro ⟨hx, rfl⟩
    cases hf : xs.find? (fun y => key y = key x) with
    | none => simpa using List.find?_eq_none.mp hf x hx
    | some y =>
      have hy : key y = key x := by simpa using List.find?_some hf
      rw [List.inj_on_of_nodup_map h (List.mem_of_find?_eq_some hf) hx hy]

theorem find_image [DecidableEq β] {γ : Type*} (f : α → γ) (name : γ → β)
    (hname : ∀ x, name (f x) = key x) (xs : List α) (h : ((xs.map f).map name).Nodup) (y : γ)
    (hy : y ∈ xs.map f) : ∃ x ∈ xs.find? (fun x => key x = name y), f x = y := by
  obtain ⟨x, hx, rfl⟩ := List.mem_map.mp hy
  have hkeys : (xs.map key).Nodup := by
    rw [List.map_map] at h
    simpa only [Function.comp_def, hname] using h
  apply Exists.intro x
  constructor
  · exact (find_key_iff key xs hkeys _ x).mpr ⟨hx, (hname x).symm⟩
  · rfl

theorem find_updateWhere [DecidableEq β] (p : α → Bool) (f : α → α) (xs : List α)
    (hf : ∀ x, key (f x) = key x) (k : β) :
    (updateWhere p f xs).find? (fun y => key y = k) =
      (xs.find? (fun y => key y = k)).map (fun x => if p x then f x else x) := by
  rw [updateWhere, List.find?_map]
  congr 2
  funext x
  simp only [Function.comp_apply]
  split_ifs
  · rw [hf x]
  · rfl

theorem filter_key [DecidableEq β] (xs : List α) (h : (xs.map key).Nodup) (k : β) :
    xs.filter (fun y => key y = k) = (xs.find? (fun y => key y = k)).toList := by
  induction xs with
  | nil => rfl
  | cons x xs ih =>
    rw [List.map_cons, List.nodup_cons] at h
    by_cases hx : key x = k
    · have hnone : xs.filter (fun y => key y = k) = [] := by
        rw [List.filter_eq_nil_iff]
        intro y hy hk
        apply h.1
        rw [hx, ← of_decide_eq_true hk]
        exact List.mem_map_of_mem hy
      simp [hx, hnone]
    · simp [hx, ih h.2]

end ControlPlane.KeyedRows
