import Mathlib.Data.List.Sort
import Mathlib.Order.Lattice
import Mathlib.Tactic.Common

/-!
# Paging by a key

A query gives the first rows after a cursor, in the order of a key that tells
the rows apart. The loop hands on the rows of a page, moves the cursor to the
last one and ends with the first short page. Whatever the limit, it hands on
each row after the first cursor once, in order.
-/

set_option autoImplicit false

namespace ControlPlane.KeysetPaging
variable {α γ σ κ : Type*}

section Loop
variable (fetch : γ → Option (List α)) (cursorOf : α → γ) (feed : σ → α → σ) (limit : ℕ)

/-- Nothing if the rounds do not suffice, and nothing inside if a query fails
or a full page is empty. -/
def keysetLoop : ℕ → γ → σ → Option (Option σ)
  | 0, _, _ => none
  | rounds+1, cursor, s =>
    match fetch cursor with
    | none => some none
    | some page =>
      if page.length < limit then some (some (page.foldl feed s))
      else
        match page.getLast? with
        | none => some none
        | some last => keysetLoop rounds (cursorOf last) (page.foldl feed s)

end Loop

section Order
variable [LinearOrder κ] (key : α → κ)

def after (k : κ) (order : List α) : List α := order.filter (fun x => k < key x)

/-- `WHERE key > k ORDER BY key LIMIT limit` over rows that are in order. -/
def page (limit : ℕ) (k : κ) (order : List α) : List α := (after key k order).take limit

theorem after_of_all (k : κ) (order : List α) (h : ∀ x ∈ order, k < key x) :
    after key k order = order := by
  rw [after, List.filter_eq_self]
  intro x hx
  exact decide_eq_true (h x hx)

theorem after_after (k l : κ) (hkl : k ≤ l) (order : List α) :
    after key l (after key k order) = after key l order := by
  rw [after, after, after, List.filter_filter]
  apply List.filter_congr
  intro x _
  by_cases hx : l < key x
  · simp [hx, hkl.trans_lt hx]
  · simp [hx]

theorem after_last (order front rest : List α) (last : α)
    (horder : order.Pairwise (fun x y => key x < key y)) (hs : order = front++last::rest) :
    after key (key last) order = rest := by
  rw [hs, List.pairwise_append, List.pairwise_cons] at horder
  obtain ⟨-, ⟨hrest, -⟩, hfront⟩ := horder
  have hzero : after key (key last) front = [] := by
    rw [after, List.filter_eq_nil_iff]
    intro x hx
    simpa using (hfront x hx last List.mem_cons_self).le
  have hall : after key (key last) rest = rest := after_of_all key _ rest hrest
  rw [after] at hzero hall ⊢
  rw [hs, List.filter_append, hzero, List.filter_cons, hall]
  simp

theorem page_split (limit : ℕ) (hlimit : 0 < limit) (remaining : List α)
    (hfull : limit ≤ (remaining.take limit).length) :
    ∃ front last, remaining.take limit = front++[last] ∧
      remaining = front++last::remaining.drop limit := by
  have hne : remaining.take limit ≠ [] := by
    intro h
    rw [h, List.length_nil] at hfull
    omega
  have hsplit := List.dropLast_append_getLast hne
  apply Exists.intro (remaining.take limit).dropLast
  apply Exists.intro ((remaining.take limit).getLast hne)
  constructor
  · exact hsplit.symm
  · calc remaining = remaining.take limit++remaining.drop limit :=
        (List.take_append_drop limit remaining).symm
      _ = _ := by
        conv_lhs => rw [← hsplit]
        rw [List.append_assoc]
        rfl

section Complete
variable (fetch : γ → Option (List α)) (cursorOf : α → γ) (feed : σ → α → σ) (limit : ℕ)
variable (At : γ → κ → Prop) (order : List α)

/-- The queries page the rows of `order`, and the cursor of a row stands at
its key. -/
structure Pages : Prop where
  sorted : order.Pairwise (fun x y => key x < key y)
  fetched : ∀ c k, At c k → fetch c = some (page key limit k order)
  moved : ∀ x ∈ order, At (cursorOf x) (key x)

theorem keysetLoop_from (hp : Pages key fetch cursorOf limit At order)
    (hlimit : 0 < limit) (rounds : ℕ) (c : γ) (k : κ) (s : σ) (hc : At c k)
    (hrounds : (after key k order).length < rounds) :
    keysetLoop fetch cursorOf feed limit rounds c s =
      some (some ((after key k order).foldl feed s)) := by
  induction rounds generalizing c k s with
  | zero => omega
  | succ rounds ih =>
    rw [keysetLoop, hp.fetched c k hc]
    by_cases hshort : (page key limit k order).length < limit
    · have hall : page key limit k order = after key k order := by
        rw [page, List.length_take] at hshort
        rw [page, List.take_of_length_le (by omega)]
      simp only [if_pos hshort]
      rw [hall]
    · obtain ⟨front, last, htake, hsplit⟩ :=
        page_split limit hlimit (after key k order) (not_lt.mp hshort)
      have hmem : last ∈ after key k order := by
        rw [hsplit]
        exact List.mem_append_right _ List.mem_cons_self
      obtain ⟨hlast, hkey⟩ := List.mem_filter.mp hmem
      have hrest : after key (key last) order = (after key k order).drop limit := by
        rw [← after_after key k (key last) (of_decide_eq_true hkey).le]
        exact after_last key _ front _ last (hp.sorted.filter _) hsplit
      have hfewer : (after key (key last) order).length < rounds := by
        have hlong := congrArg List.length hsplit
        rw [List.length_append, List.length_cons] at hlong
        rw [hrest]
        omega
      have hnext := ih (cursorOf last) (key last) ((page key limit k order).foldl feed s)
        (hp.moved last hlast) hfewer
      have hget : (page key limit k order).getLast? = some last := by
        rw [page, htake]
        simp
      simp only [if_neg hshort, hget]
      rw [hnext, hrest, page, ← List.foldl_append, List.take_append_drop]

/-- From a cursor before all rows, the loop hands on the rows in order. -/
theorem keysetLoop_eq (hp : Pages key fetch cursorOf limit At order)
    (hlimit : 0 < limit) (rounds : ℕ) (c : γ) (k : κ) (s : σ) (hc : At c k)
    (hfirst : ∀ x ∈ order, k < key x) (hrounds : order.length < rounds) :
    keysetLoop fetch cursorOf feed limit rounds c s = some (some (order.foldl feed s)) := by
  have hall := after_of_all key k order hfirst
  have hloop := keysetLoop_from key fetch cursorOf feed limit At order hp hlimit rounds c k s hc
    (by rw [hall]; exact hrounds)
  rw [hloop, hall]

end Complete

theorem sorted_of_distinct (rows : List α) (h : (rows.map key).Nodup) :
    (rows.insertionSort (fun x y => key x ≤ key y)).Pairwise (fun x y => key x < key y) := by
  have htotal : Std.Total (fun x y : α => key x ≤ key y) := ⟨fun x y => le_total _ _⟩
  have htrans : IsTrans α (fun x y : α => key x ≤ key y) := ⟨fun x y z => le_trans⟩
  have hperm := (List.perm_insertionSort (fun x y => key x ≤ key y) rows).map key
  have hsorted := List.pairwise_insertionSort (fun x y => key x ≤ key y) rows
  have hdistinct := List.pairwise_map.mp (hperm.nodup_iff.mpr h)
  exact (hsorted.and hdistinct).imp (fun hxy => lt_of_le_of_ne hxy.1 hxy.2)

end Order

end ControlPlane.KeysetPaging
