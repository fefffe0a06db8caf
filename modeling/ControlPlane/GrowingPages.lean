import Mathlib.Data.List.Nodup
import Mathlib.Tactic.Linarith
import ControlPlane.OffsetPaging

/-!
# Pages of rows that only grow

The rows of a query are strictly ordered by a key, and a key that is there
stays. Rows then only move towards the end, so a reader who cuts pages at the
multiples of a limit until one is short has left out no key that was there at
the start, however many rows have come in between.
-/

set_option autoImplicit false

namespace ControlPlane.GrowingPages
open ControlPlane.OffsetPaging

variable {α κ : Type*} [LinearOrder κ] (key : α → κ)

def Strict (rows : List α) : Prop := rows.Pairwise (fun a b => key a < key b)

/-- How many rows stand before a key. -/
def rank (rows : List α) (c : κ) : ℕ := rows.countP (fun x => key x < c)

section Rank
variable {key} (rows : List α)

theorem strict_nodup (h : Strict key rows) : (rows.map key).Nodup := by
  rw [List.Nodup, List.pairwise_map]
  exact h.imp (fun hlt => ne_of_lt hlt)

theorem rank_lt (x : α) (hx : x ∈ rows) : rank key rows (key x) < rows.length := by
  rw [rank, List.countP_eq_length_filter]
  apply List.length_filter_lt_length_iff_exists.mpr
  exact ⟨x, hx, by simp⟩

theorem rank_mono (more : List α) (h : Strict key rows) (hgrow : rows.map key ⊆ more.map key)
    (c : κ) : rank key rows c ≤ rank key more c := by
  have hcount : ∀ l : List α, rank key l c = ((l.map key).filter (· < c)).length := by
    intro l
    rw [rank, List.countP_eq_length_filter, List.filter_map, List.length_map]
    rfl
  rw [hcount, hcount]
  apply List.Subperm.length_le
  apply List.subperm_of_subset ((strict_nodup rows h).filter _)
  intro k hk
  rw [List.mem_filter] at hk ⊢
  exact ⟨hgrow hk.1, hk.2⟩

theorem row_at (h : Strict key rows) (x : α) (hx : x ∈ rows) :
    rows[rank key rows (key x)]? = some x := by
  obtain ⟨A, B, rfl⟩ := List.append_of_mem hx
  have hsplit := List.pairwise_append.mp h
  have hA : A.countP (fun y => key y < key x) = A.length := by
    rw [List.countP_eq_length]
    intro y hy
    exact decide_eq_true (hsplit.2.2 y hy x List.mem_cons_self)
  have hB : B.countP (fun y => key y < key x) = 0 := by
    rw [List.countP_eq_zero]
    intro y hy
    have hlt := (List.pairwise_cons.mp hsplit.2.1).1 y hy
    simpa using hlt.le
  have hrank : rank key (A++x::B) (key x) = A.length := by
    rw [rank, List.countP_append, List.countP_cons, hA, hB]
    simp
  rw [hrank]
  simp

theorem mem_slice (h : Strict key rows) (x : α) (hx : x ∈ rows) (limit offset : ℕ)
    (hlow : offset ≤ rank key rows (key x)) (hhigh : rank key rows (key x) < offset+limit) :
    x ∈ slice limit offset rows := by
  rw [slice, List.mem_iff_getElem?]
  refine ⟨rank key rows (key x)-offset, ?_⟩
  rw [List.getElem?_take_of_lt (by omega), List.getElem?_drop, Nat.add_sub_of_le hlow]
  exact row_at rows h x hx

end Rank

section Reader
variable (limit : ℕ)

/-- A page that is not full ends the walk. -/
def finished (pages : List (List α)) : Bool := pages.getLast?.any (·.length < limit)

def page (pages : List (List α)) (rows : List α) : List α :=
  slice limit (pages.length*limit) rows

/-- A key has been read in a row with a property, or is still to come. -/
def Ahead (pages : List (List α)) (rows : List α) (c : κ) (P : α → Prop) : Prop :=
  (∃ x ∈ pages.flatten, key x = c ∧ P x) ∨
    finished limit pages = false ∧ pages.length*limit ≤ rank key rows c

variable {key limit} {pages : List (List α)} {rows : List α} {c : κ} {P : α → Prop}

theorem ahead_start : Ahead key limit [] rows c P :=
  Or.inr ⟨rfl, by simp⟩

theorem ahead_grow (more : List α) (hs : Strict key rows) (hgrow : rows.map key ⊆ more.map key)
    (h : Ahead key limit pages rows c P) : Ahead key limit pages more c P := by
  rcases h with h | ⟨hopen, hle⟩
  · exact Or.inl h
  · exact Or.inr ⟨hopen, hle.trans (rank_mono rows more hs hgrow c)⟩

theorem ahead_page (hs : Strict key rows) (x : α) (hx : x ∈ rows) (hc : key x = c) (hp : P x)
    (h : Ahead key limit pages rows c P) :
    Ahead key limit (pages++[page limit pages rows]) rows c P := by
  subst hc
  rcases h with ⟨y, hy, hkey, hpy⟩ | ⟨hopen, hle⟩
  · left
    refine ⟨y, ?_, hkey, hpy⟩
    rw [List.flatten_append]
    exact List.mem_append_left _ hy
  · by_cases hin : rank key rows (key x) < pages.length*limit+limit
    · left
      refine ⟨x, ?_, rfl, hp⟩
      rw [List.flatten_append, List.flatten_singleton]
      exact List.mem_append_right _ (mem_slice rows hs x hx limit _ hle hin)
    · right
      have hlen : rank key rows (key x) < rows.length := rank_lt rows x hx
      constructor
      · rw [finished, List.getLast?_append]
        simp only [List.getLast?_singleton, Option.some_or, Option.any_some,
          decide_eq_false_iff_not, page, slice_length]
        omega
      · rw [List.length_append, List.length_singleton, Nat.succ_mul]
        omega

theorem ahead_finished (hdone : finished limit pages = true)
    (h : Ahead key limit pages rows c P) : ∃ x ∈ pages.flatten, key x = c ∧ P x := by
  rcases h with h | ⟨hopen, _⟩
  · exact h
  · rw [hdone] at hopen
    cases hopen

theorem page_full (hopen : finished limit (pages++[page limit pages rows]) = false)
    (hlimit : 0 < limit) : (pages.length+1)*limit ≤ rows.length := by
  rw [finished, List.getLast?_append] at hopen
  simp only [List.getLast?_singleton, Option.some_or, Option.any_some, decide_eq_false_iff_not,
    page, slice_length] at hopen
  rw [Nat.succ_mul]
  omega

end Reader

end ControlPlane.GrowingPages
