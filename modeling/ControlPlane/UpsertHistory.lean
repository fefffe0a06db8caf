import Mathlib.Data.List.Induction
import Mathlib.Data.List.Nodup
import Mathlib.Tactic.Common
import ControlPlane.KeyedRows

/-!
# Histories of upserts and deletes

A row has a key, a part that it is opened with and a part that every later
upsert replaces. A delete removes the row. After any history the row of a key
was opened by the first upsert since the last delete and holds what the last
one wrote.
-/

set_option autoImplicit false

namespace ControlPlane.UpsertHistory
open ControlPlane.KeyedRows

variable {κ α β : Type*} [DecidableEq κ]

structure Row (κ α β : Type*) where
  key : κ
  opened : α
  content : β
  deriving DecidableEq

inductive Write (κ α β : Type*) where
  | put (key : κ) (opened : α) (content : β)
  | drop (key : κ)

def Write.key : Write κ α β → κ
  | .put k _ _ => k
  | .drop k => k

/-- `INSERT … ON CONFLICT DO UPDATE`, and `DELETE`. -/
def commit (table : List (Row κ α β)) : Write κ α β → List (Row κ α β)
  | .put k a b =>
    if table.any (fun r => r.key = k) then
      updateWhere (fun r => r.key = k) (fun r => { r with content := b }) table
    else table++[⟨k, a, b⟩]
  | .drop k => table.filter (fun r => r.key ≠ k)

def history (ws : List (Write κ α β)) : List (Row κ α β) := ws.foldl commit []

def puts (k : κ) (ps : List (α × β)) : Write κ α β → List (α × β)
  | .put j a b => if j = k then ps++[(a, b)] else ps
  | .drop j => if j = k then [] else ps

def since (k : κ) (ws : List (Write κ α β)) : List (α × β) := ws.foldl (puts k) []

def rowOf (k : κ) : List (α × β) → Option (Row κ α β)
  | [] => none
  | p::ps => some ⟨k, p.1, ((p::ps).getLast (List.cons_ne_nil p ps)).2⟩

omit [DecidableEq κ] in
theorem rowOf_none (k : κ) (ps : List (α × β)) : rowOf k ps = none ↔ ps = [] := by
  cases ps <;> simp [rowOf]

def find (k : κ) (table : List (Row κ α β)) : Option (Row κ α β) :=
  table.find? (fun r => r.key = k)

theorem history_snoc (ws : List (Write κ α β)) (w : Write κ α β) :
    history (ws++[w]) = commit (history ws) w := by
  rw [history, List.foldl_append]
  rfl

theorem since_snoc (k : κ) (ws : List (Write κ α β)) (w : Write κ α β) :
    since k (ws++[w]) = puts k (since k ws) w := by
  rw [since, List.foldl_append]
  rfl

omit [DecidableEq κ] in
theorem rowOf_snoc (k : κ) (ps : List (α × β)) (a : α) (b : β) : rowOf k (ps++[(a, b)]) =
    match rowOf k ps with
    | none => some ⟨k, a, b⟩
    | some r => some { r with content := b } := by
  cases ps with
  | nil => rfl
  | cons p ps => simp [rowOf]

section Commit
variable (table : List (Row κ α β)) (w : Write κ α β)

theorem commit_keys (h : (table.map Row.key).Nodup) : ((commit table w).map Row.key).Nodup := by
  cases w with
  | put k a b =>
    simp only [commit]
    split_ifs with hany
    · have hkeys := map_updateWhere Row.key (fun r : Row κ α β => r.key = k)
        (fun r => { r with content := b }) table (fun _ => rfl)
      rw [hkeys]
      exact h
    · apply nodup_snoc Row.key table _ h
      intro r hr hk
      exact hany (List.any_eq_true.mpr ⟨r, hr, decide_eq_true hk⟩)
  | drop k => exact h.sublist (List.filter_sublist.map _)

theorem find_update (k j : κ) (b : β) :
    find j (updateWhere (fun r => r.key = k) (fun r => { r with content := b }) table) =
      (find j table).map (fun r => if r.key = k then { r with content := b } else r) := by
  unfold find updateWhere
  rw [List.find?_map]
  have hkeys : (fun r : Row κ α β => decide (r.key = j)) ∘
      (fun r => if decide (r.key = k) = true then { r with content := b } else r) =
      fun r => decide (r.key = j) := by
    funext r
    simp only [Function.comp_apply]
    split_ifs <;> rfl
  rw [hkeys]
  simp only [decide_eq_true_eq]

theorem find_none (k : κ) : find k table = none ↔ ¬table.any (fun r => r.key = k) = true := by
  simp [find]

theorem find_key (k : κ) (r : Row κ α β) (h : find k table = some r) : r.key = k := by
  simpa using List.find?_some h

theorem find_commit (k : κ) : find k (commit table w) =
    match w with
    | .put j a b =>
      if j = k then
        match find k table with
        | none => some ⟨k, a, b⟩
        | some r => some { r with content := b }
      else find k table
    | .drop j => if j = k then none else find k table := by
  cases w with
  | put j a b =>
    simp only [commit]
    split_ifs with hany hj hj
    · subst hj
      rw [find_update]
      cases hf : find j table with
      | none => exact absurd hany ((find_none table j).mp hf)
      | some r => simp [find_key table j r hf]
    · rw [find_update]
      cases hf : find k table with
      | none => rfl
      | some r => simp [find_key table k r hf, Ne.symm hj]
    · subst hj
      have hf := (find_none table j).mpr hany
      rw [hf, find, List.find?_append]
      rw [find] at hf
      simp [hf]
    · rw [find, List.find?_append]
      simp [hj, find]
  | drop j =>
    simp only [commit]
    unfold find
    rw [List.find?_filter]
    split_ifs with hj
    · subst hj
      rw [List.find?_eq_none]
      simp
    · congr 1
      funext r
      by_cases hr : r.key = k
      · simp [hr, Ne.symm hj]
      · simp [hr]

end Commit

theorem history_keys (ws : List (Write κ α β)) : ((history ws).map Row.key).Nodup := by
  induction ws using List.reverseRecOn with
  | nil => exact List.nodup_nil
  | append_singleton ws w ih =>
    rw [history_snoc]
    exact commit_keys _ w ih

/-- The row of a key is opened by the first put since the key was dropped and
holds what the last one wrote. -/
theorem find_history (k : κ) (ws : List (Write κ α β)) :
    find k (history ws) = rowOf k (since k ws) := by
  induction ws using List.reverseRecOn with
  | nil => rfl
  | append_singleton ws w ih =>
    rw [history_snoc, find_commit _ w k, since_snoc, ih]
    cases w with
    | put j a b =>
      simp only [puts]
      split_ifs
      · rw [rowOf_snoc]
      · rfl
    | drop j =>
      simp only [puts]
      split_ifs <;> rfl

theorem since_put (k : κ) (a : α) (b : β) (before after : List (Write κ α β))
    (h : ∀ w ∈ after, w ≠ .drop k) : since k (before++.put k a b::after) ≠ [] := by
  induction after using List.reverseRecOn with
  | nil =>
    rw [since_snoc]
    simp [puts]
  | append_singleton after w ih =>
    have hrest := ih (fun x hx => h x (List.mem_append_left _ hx))
    have hw := h w (by simp)
    rw [← List.cons_append, ← List.append_assoc, since_snoc]
    cases w with
    | put j a' b' =>
      simp only [puts]
      split_ifs
      · simp
      · exact hrest
    | drop j =>
      simp only [puts]
      rw [if_neg (fun hj => hw (by rw [hj]))]
      exact hrest

theorem since_drop (k : κ) (before after : List (Write κ α β))
    (h : ∀ a b, .put k a b ∉ after) : since k (before++.drop k::after) = [] := by
  induction after using List.reverseRecOn with
  | nil =>
    rw [since_snoc]
    simp [puts]
  | append_singleton after w ih =>
    have hrest := ih (fun a b hm => h a b (List.mem_append_left _ hm))
    rw [← List.cons_append, ← List.append_assoc, since_snoc, hrest]
    cases w with
    | put j a b =>
      simp only [puts]
      rw [if_neg]
      rintro rfl
      exact h a b (by simp)
    | drop j =>
      simp only [puts]
      split_ifs <;> rfl

section Positions
variable (ws : List (Write κ α β)) (k : κ) (i : ℕ)

omit [DecidableEq κ] in
theorem split_at (w : Write κ α β) (h : ws[i]? = some w) :
    ws = ws.take i++w::ws.drop (i+1) := by
  obtain ⟨hlt, rfl⟩ := List.getElem?_eq_some_iff.mp h
  rw [← List.drop_eq_getElem_cons hlt, List.take_append_drop]

omit [DecidableEq κ] in
theorem mem_after (x : Write κ α β) (h : x ∈ ws.drop (i+1)) : ∃ j, i < j ∧ ws[j]? = some x := by
  obtain ⟨l, hl⟩ := List.mem_iff_getElem?.mp h
  rw [List.getElem?_drop] at hl
  exact ⟨i+1+l, by omega, hl⟩

theorem dropped_after (a : α) (b : β) (hput : ws[i]? = some (.put k a b)) (h : since k ws = []) :
    ∃ j, i < j ∧ ws[j]? = some (.drop k) := by
  apply mem_after
  by_contra hnone
  rw [split_at ws i _ hput] at h
  exact since_put k a b _ _ (fun w hw heq => hnone (heq ▸ hw)) h

theorem put_after (hdrop : ws[i]? = some (.drop k)) (h : since k ws ≠ []) :
    ∃ j a b, i < j ∧ ws[j]? = some (.put k a b) := by
  by_contra hnone
  apply h
  rw [split_at ws i _ hdrop]
  apply since_drop
  intro a b hm
  obtain ⟨j, hj, hx⟩ := mem_after ws i _ hm
  exact hnone ⟨j, a, b, hj, hx⟩

end Positions

end ControlPlane.UpsertHistory
