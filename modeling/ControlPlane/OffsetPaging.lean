import Mathlib.Data.List.Nodup
import Mathlib.Data.List.Perm.Basic
import Mathlib.Data.List.Sort
import Mathlib.Tactic.Linarith
import Mathlib.Tactic.SplitIfs

/-!
# Paging by offsets

A query sorts its rows by a key and each query may order the rows of one key
as it likes. Pages are cut out of such orders at the multiples of a limit,
until one is short. They make up the rows exactly if no cut falls among rows
of one key, and the rows stay the same as long as there are more to read.
-/

set_option autoImplicit false

namespace ControlPlane.OffsetPaging
variable {α κ : Type*} [LinearOrder κ] (key : α → κ)

structure Ordering (rows order : List α) : Prop where
  perm : order.Perm rows
  sorted : order.Pairwise (fun a b => key a ≤ key b)

/-- `LIMIT limit OFFSET offset` -/
def slice (limit offset : ℕ) (order : List α) : List α := (order.drop offset).take limit

/-- The pages from the `k`th one on, up to the first short one. -/
def collect (pages : ℕ → List α) (limit : ℕ) : ℕ → ℕ → Option (List α)
  | 0, _ => none
  | fuel+1, k =>
    if (pages k).length < limit then some (pages k)
    else (collect pages limit fuel (k+1)).map (pages k++·)

def before (rows : List α) (x : α) : ℕ := rows.countP (fun y => key y < key x)

def upto (rows : List α) (x : α) : ℕ := rows.countP (fun y => key y ≤ key x)

/-- A cut falls among the rows that have the key of one of them. -/
def Splits (rows : List α) (cut : ℕ) : Prop :=
  ∃ x ∈ rows, before key rows x < cut ∧ cut < upto key rows x

theorem upto_le (rows : List α) (x : α) :
    upto key rows x ≤ before key rows x+(rows.map key).count (key x) := by
  induction rows with
  | nil => exact Nat.zero_le _
  | cons y ys ih =>
    rw [upto, before] at ih
    rw [upto, before, List.countP_cons, List.countP_cons, List.map_cons, List.count_cons]
    rcases lt_trichotomy (key y) (key x) with h | h | h
    · simp only [h.le, h, decide_true, if_true]
      omega
    · simp only [h, le_refl, lt_irrefl, decide_true, decide_false, if_true, beq_self_eq_true,
        Bool.false_eq_true, if_false]
      omega
    · simp only [not_le.mpr h, decide_false, Bool.false_eq_true, if_false]
      omega

theorem not_splits_of_distinct (rows : List α) (h : (rows.map key).Nodup) (cut : ℕ) :
    ¬Splits key rows cut := by
  rintro ⟨x, -, hbefore, hafter⟩
  have hupto := upto_le key rows x
  have hone := List.nodup_iff_count_le_one.mp h (key x)
  omega

/-- Every order of the rows at each of the queries gives all of them once. -/
def Complete (rows : ℕ → List α) (limit : ℕ) : Prop :=
  ∀ orders : ℕ → List α, (∀ k, Ordering key (rows k) (orders k)) →
    ∃ out, collect (fun k => slice limit (k*limit) (orders k)) limit ((rows 0).length+1) 0 =
      some out ∧ out.Perm (rows 0)

theorem slice_length (limit offset : ℕ) (order : List α) :
    (slice limit offset order).length = min limit (order.length-offset) := by
  rw [slice, List.length_take, List.length_drop]

omit [LinearOrder κ] in
theorem collect_from (pages : ℕ → List α) (limit last : ℕ)
    (hshort : (pages last).length < limit) (hfull : ∀ k < last, limit ≤ (pages k).length)
    (fuel k : ℕ) (hk : k ≤ last) (hfuel : last < k+fuel) :
    collect pages limit fuel k = some ((List.range' k (last+1-k)).flatMap pages) := by
  induction fuel generalizing k with
  | zero => omega
  | succ fuel ih =>
    rw [collect]
    by_cases heq : k = last
    · subst heq
      rw [if_pos hshort, Nat.add_sub_cancel_left]
      simp
    · have hlt : k < last := by omega
      have hcount : last+1-k = (last+1-(k+1))+1 := by omega
      rw [if_neg (not_lt.mpr (hfull k hlt)), ih (k+1) (by omega) (by omega), hcount,
        List.range'_succ, List.flatMap_cons]
      rfl

omit [LinearOrder κ] in
theorem collect_eq (pages : ℕ → List α) (limit last fuel : ℕ)
    (hshort : (pages last).length < limit) (hfull : ∀ k < last, limit ≤ (pages k).length)
    (hfuel : last < fuel) :
    collect pages limit fuel 0 = some ((List.range (last+1)).flatMap pages) := by
  rw [collect_from pages limit last hshort hfull fuel 0 (Nat.zero_le _) (by omega),
    List.range_eq_range']
  rfl

section Orders
variable (rows : List α)

theorem exists_ordering : ∃ order, Ordering key rows order := by
  have htotal : Std.Total (fun a b : α => key a ≤ key b) := ⟨fun a b => le_total _ _⟩
  have htrans : IsTrans α (fun a b : α => key a ≤ key b) := ⟨fun a b c => le_trans⟩
  exact ⟨rows.insertionSort (fun a b => key a ≤ key b), List.perm_insertionSort _ _,
    List.pairwise_insertionSort _ _⟩

variable {key rows} (order : List α) (h : Ordering key rows order)

include h in
theorem before_le (A B : List α) (x : α) (hs : order = A++x::B) :
    before key rows x ≤ A.length := by
  have hsorted := h.sorted
  rw [hs, List.pairwise_append, List.pairwise_cons] at hsorted
  have hzero : B.countP (fun y => key y < key x) = 0 := by
    rw [List.countP_eq_zero]
    intro y hy
    simpa using hsorted.2.1.1 y hy
  rw [before, ← h.perm.countP_eq, hs, List.countP_append, List.countP_cons, hzero]
  simpa using List.countP_le_length (p := fun y => decide (key y < key x)) (l := A)

include h in
theorem lt_upto (A B : List α) (x : α) (hs : order = A++x::B) :
    A.length < upto key rows x := by
  have hsorted := h.sorted
  rw [hs, List.pairwise_append] at hsorted
  have hall : A.countP (fun y => key y ≤ key x) = A.length := by
    rw [List.countP_eq_length]
    intro y hy
    simpa using hsorted.2.2 y hy x List.mem_cons_self
  rw [upto, ← h.perm.countP_eq, hs, List.countP_append, List.countP_cons, hall]
  simp

include h in
theorem take_eq_filter (cut : ℕ) (hcut : ¬Splits key rows cut) :
    order.take cut = order.filter (fun x => upto key rows x ≤ cut) := by
  have htake : (order.take cut).filter (fun x => upto key rows x ≤ cut) = order.take cut := by
    rw [List.filter_eq_self]
    intro x hx
    obtain ⟨A, B, hs⟩ := List.append_of_mem hx
    have hlen : A.length < cut := by
      have := congrArg List.length hs
      rw [List.length_take, List.length_append, List.length_cons] at this
      omega
    have hsplit : order = A++x::(B++order.drop cut) := by
      conv_lhs => rw [← List.take_append_drop cut order, hs]
      simp
    have hmem : x ∈ rows := h.perm.subset (List.mem_of_mem_take hx)
    have hbefore := before_le order h A _ x hsplit
    rw [decide_eq_true_eq]
    by_contra hlt
    exact hcut ⟨x, hmem, by omega, by omega⟩
  have hdrop : (order.drop cut).filter (fun x => upto key rows x ≤ cut) = [] := by
    rw [List.filter_eq_nil_iff]
    intro x hx
    obtain ⟨A, B, hs⟩ := List.append_of_mem hx
    have hlong : cut ≤ order.length := by
      by_contra hlt
      rw [List.drop_of_length_le (by omega)] at hx
      cases hx
    have hsplit : order = (order.take cut++A)++x::B := by
      conv_lhs => rw [← List.take_append_drop cut order, hs]
      simp
    have hafter := lt_upto order h _ _ x hsplit
    rw [List.length_append, List.length_take] at hafter
    rw [decide_eq_true_eq]
    omega
  conv_rhs => rw [← List.take_append_drop cut order, List.filter_append, htake, hdrop]
  rw [List.append_nil]

include h in
theorem tie_at (A B : List α) (a b : α) (hs : order = A++a::b::B)
    (hcut : Splits key rows (A.length+1)) : key a = key b := by
  obtain ⟨x, -, hbefore, hafter⟩ := hcut
  have hsorted := h.sorted
  rw [hs, List.pairwise_append, List.pairwise_cons, List.pairwise_cons] at hsorted
  obtain ⟨-, ⟨ha, hb, -⟩, hA⟩ := hsorted
  have hle : key a ≤ key b := ha b List.mem_cons_self
  by_contra hne
  have hlt : key a < key b := lt_of_le_of_ne hle hne
  rcases le_or_gt (key x) (key a) with hx | hx
  · have hzero : (b::B).countP (fun y => key y ≤ key x) = 0 := by
      rw [List.countP_eq_zero]
      intro y hy
      have hby : key b ≤ key y := by
        rcases List.mem_cons.mp hy with rfl | hy
        · exact le_rfl
        · exact hb y hy
      simpa using (hx.trans_lt hlt).trans_le hby
    have hA' := List.countP_le_length (p := fun y => decide (key y ≤ key x)) (l := A++[a])
    have hsplit : A++a::b::B = (A++[a])++(b::B) := by simp
    rw [upto, ← h.perm.countP_eq, hs, hsplit, List.countP_append, hzero] at hafter
    rw [List.length_append, List.length_singleton] at hA'
    omega
  · have hall : (A++[a]).countP (fun y => key y < key x) = (A++[a]).length := by
      rw [List.countP_eq_length]
      intro y hy
      have hya : key y ≤ key a := by
        rcases List.mem_append.mp hy with hy | hy
        · exact hA y hy a List.mem_cons_self
        · exact (List.mem_singleton.mp hy ▸ le_rfl)
      simpa using hya.trans_lt hx
    have hsplit : A++a::b::B = (A++[a])++(b::B) := by simp
    rw [before, ← h.perm.countP_eq, hs, hsplit, List.countP_append, hall, List.length_append,
      List.length_singleton] at hbefore
    omega

include h in
theorem swap_ordering (A B : List α) (a b : α) (hs : order = A++a::b::B) (hab : key a = key b) :
    Ordering key rows (A++b::a::B) := by
  have hsorted := h.sorted
  have hperm := h.perm
  rw [hs] at hsorted hperm
  rw [List.pairwise_append, List.pairwise_cons, List.pairwise_cons] at hsorted
  obtain ⟨hA, ⟨ha, hb, hB⟩, hrest⟩ := hsorted
  constructor
  · exact ((List.Perm.swap a b B).append_left A).trans hperm
  · rw [List.pairwise_append, List.pairwise_cons, List.pairwise_cons]
    refine ⟨hA, ⟨?_, ?_, hB⟩, ?_⟩
    · intro y hy
      rcases List.mem_cons.mp hy with rfl | hy
      · exact hab.ge
      · exact hb y hy
    · intro y hy
      exact ha y (List.mem_cons_of_mem b hy)
    · intro y hy z hz
      have hmem : z ∈ a::b::B := by
        rw [List.mem_cons, List.mem_cons] at hz ⊢
        tauto
      exact hrest y hy z hmem

end Orders

section Runs
variable (rows : ℕ → List α) (limit : ℕ) (hlimit : 0 < limit)
variable (hshrink : ∀ k, (rows (k+1)).Sublist (rows k))

include hshrink in
omit [LinearOrder κ] in
theorem rows_sublist (j k : ℕ) (hjk : j ≤ k) : (rows k).Sublist (rows j) := by
  induction k, hjk using Nat.le_induction with
  | base => exact List.Sublist.refl _
  | succ k _ ih => exact (hshrink k).trans ih

include hlimit hshrink in
omit [LinearOrder κ] in
theorem exists_last : ∃ last, last ≤ (rows 0).length ∧ (rows last).length < (last+1)*limit ∧
    ∀ k < last, (k+1)*limit ≤ (rows k).length := by
  have hex : ∃ k, (rows k).length < (k+1)*limit := by
    have hlen := (rows_sublist rows hshrink 0 (rows 0).length (Nat.zero_le _)).length_le
    exact ⟨(rows 0).length, by nlinarith⟩
  have hspec := Nat.find_spec hex
  have hmin : ∀ k < Nat.find hex, (k+1)*limit ≤ (rows k).length :=
    fun k hk => not_lt.mp (Nat.find_min hex hk)
  refine ⟨Nat.find hex, ?_, hspec, hmin⟩
  apply Nat.find_le
  have hlen := (rows_sublist rows hshrink 0 (rows 0).length (Nat.zero_le _)).length_le
  nlinarith

variable (orders : ℕ → List α) (horders : ∀ k, Ordering key (rows k) (orders k))

include horders in
theorem page_length (k : ℕ) : (slice limit (k*limit) (orders k)).length =
    min limit ((rows k).length-k*limit) := by
  rw [slice_length, (horders k).perm.length_eq]

include hlimit horders in
theorem collected (last : ℕ) (hle : last ≤ (rows 0).length)
    (hshort : (rows last).length < (last+1)*limit)
    (hfull : ∀ k < last, (k+1)*limit ≤ (rows k).length) :
    collect (fun k => slice limit (k*limit) (orders k)) limit ((rows 0).length+1) 0 =
      some ((List.range (last+1)).flatMap (fun k => slice limit (k*limit) (orders k))) := by
  apply collect_eq
  · rw [page_length key rows limit orders horders]
    rw [Nat.succ_mul] at hshort
    omega
  · intro k hk
    have hk := hfull k hk
    rw [page_length key rows limit orders horders]
    rw [Nat.succ_mul] at hk
    omega
  · omega

include horders in
theorem collected_length (last : ℕ)
    (hshort : (rows last).length < (last+1)*limit)
    (hfull : ∀ k < last, (k+1)*limit ≤ (rows k).length) :
    ((List.range (last+1)).flatMap (fun k => slice limit (k*limit) (orders k))).length =
      last*limit+((rows last).length-last*limit) := by
  have hpages : ∀ n ≤ last,
      ((List.range n).flatMap (fun k => slice limit (k*limit) (orders k))).length = n*limit := by
    intro n hn
    induction n with
    | zero => simp
    | succ n ih =>
      have hk := hfull n (by omega)
      rw [List.range_succ, List.flatMap_append, List.length_append, ih (by omega),
        List.flatMap_singleton, page_length key rows limit orders horders]
      rw [Nat.succ_mul] at hk ⊢
      omega
  rw [List.range_succ, List.flatMap_append, List.length_append, hpages last le_rfl,
    List.flatMap_singleton, page_length key rows limit orders horders]
  rw [Nat.succ_mul] at hshort
  omega

include hshrink in
theorem steady_of_length (last : ℕ) (hshort : (rows last).length < (last+1)*limit)
    (hfull : ∀ k < last, (k+1)*limit ≤ (rows k).length)
    (hlen : last*limit+((rows last).length-last*limit) = (rows 0).length)
    (k : ℕ) (hk : k*limit < (rows 0).length) : rows k = rows 0 := by
  apply (rows_sublist rows hshrink 0 k (Nat.zero_le _)).eq_of_length
  apply le_antisymm (rows_sublist rows hshrink 0 k (Nat.zero_le _)).length_le
  by_cases hrest : last*limit ≤ (rows last).length
  · have hlast : (rows last).length = (rows 0).length := by omega
    have hkl : k ≤ last := by
      by_contra hgt
      have hmul : (last+1)*limit ≤ k*limit := Nat.mul_le_mul_right limit (by omega)
      omega
    rw [← hlast]
    exact (rows_sublist rows hshrink k last hkl).length_le
  · have hkl : k < last := by
      by_contra hge
      have hmul : last*limit ≤ k*limit := Nat.mul_le_mul_right limit (not_lt.mp hge)
      omega
    have hprev := hfull (last-1) (by omega)
    rw [Nat.sub_add_cancel (by omega)] at hprev
    have hsub := (rows_sublist rows hshrink k (last-1) (by omega)).length_le
    omega

theorem exists_twice (all : List α) (cut : ℕ) (hcut : Splits key all cut) :
    ∃ left right a, Ordering key all left ∧ Ordering key all right ∧
      ∃ A B b, A.length+1 = cut ∧ left = A++a::b::B ∧ right = A++b::a::B := by
  obtain ⟨order, ho⟩ := exists_ordering key all
  have hpos : 0 < cut := by
    obtain ⟨x, -, hbefore, -⟩ := hcut
    omega
  have hlong : cut < order.length := by
    obtain ⟨x, -, -, hafter⟩ := hcut
    have hle : upto key all x ≤ all.length := List.countP_le_length
    rw [ho.perm.length_eq]
    omega
  have hsplit : order = order.take (cut-1)++order[cut-1]::order[cut]::order.drop (cut+1) := by
    have hnext : cut-1+1 = cut := by omega
    conv_lhs => rw [← List.take_append_drop (cut-1) order]
    rw [List.drop_eq_getElem_cons (by omega : cut-1 < order.length), hnext,
      List.drop_eq_getElem_cons hlong]
  have hlen : (order.take (cut-1)).length+1 = cut := by
    rw [List.length_take]
    omega
  have htie := tie_at order ho _ _ _ _ hsplit (hlen.symm ▸ hcut)
  exact ⟨order, _, order[cut-1], ho, swap_ordering order ho _ _ _ _ hsplit htie, _, _, _, hlen,
    hsplit, rfl⟩

theorem slice_perm (all order other : List α) (ho : Ordering key all order)
    (ho' : Ordering key all other) (hcut : ∀ k, ¬Splits key all (k*limit)) (k : ℕ) :
    (slice limit (k*limit) order).Perm (slice limit (k*limit) other) := by
  have hperm : ∀ k, (order.take (k*limit)).Perm (other.take (k*limit)) := by
    intro k
    rw [take_eq_filter order ho _ (hcut k), take_eq_filter other ho' _ (hcut k)]
    exact (ho.perm.trans ho'.perm.symm).filter _
  have hnext := hperm (k+1)
  rw [Nat.succ_mul, List.take_add, List.take_add] at hnext
  exact (List.perm_append_left_iff _).mp (hnext.trans ((hperm k).symm.append_right _))

omit [LinearOrder κ] in
theorem slices_eq (order : List α) (n : ℕ) :
    (List.range n).flatMap (fun k => slice limit (k*limit) order) = order.take (n*limit) := by
  induction n with
  | zero => simp
  | succ n ih =>
    rw [List.range_succ, List.flatMap_append, ih, List.flatMap_singleton, Nat.succ_mul,
      List.take_add]
    rfl

include hlimit in
omit [LinearOrder κ] in
theorem sides (A B : List α) (a b : α) (k : ℕ) (hcut : A.length+1 = (k+1)*limit) :
    a ∈ slice limit (k*limit) (A++a::b::B) ∧ a ∈ slice limit ((k+1)*limit) (A++b::a::B) := by
  rw [Nat.succ_mul] at hcut
  constructor
  · rw [slice, List.drop_append_of_le_length (by omega)]
    generalize hX : A.drop (k*limit) = X
    have hlen : limit = X.length+1 := by
      rw [← hX, List.length_drop]
      omega
    rw [List.take_append, hlen]
    simp
  · have hdrop : (A++b::a::B).drop (A.length+1) = a::B := by
      rw [List.drop_length_add_append]
      rfl
    rw [Nat.succ_mul, slice, ← hcut, hdrop]
    obtain ⟨l, rfl⟩ : ∃ l, limit = l+1 := ⟨limit-1, by omega⟩
    simp

include hlimit hshrink in
theorem steady_of_complete (h : Complete key rows limit) (k : ℕ)
    (hk : k*limit < (rows 0).length) : rows k = rows 0 := by
  obtain ⟨last, hle, hshort, hfull⟩ := exists_last rows limit hlimit hshrink
  obtain ⟨orders, horders⟩ := Classical.skolem.mp (fun k => exists_ordering key (rows k))
  obtain ⟨out, hout, hperm⟩ := h orders horders
  rw [collected key rows limit hlimit orders horders last hle hshort hfull] at hout
  cases hout
  have hlen := collected_length key rows limit orders horders last hshort hfull
  rw [hperm.length_eq] at hlen
  exact steady_of_length rows limit hshrink last hshort hfull hlen.symm k hk

include hlimit hshrink in
theorem unsplit_of_complete (hnodup : (rows 0).Nodup) (h : Complete key rows limit) (k : ℕ) :
    ¬Splits key (rows 0) (k*limit) := by
  intro hsplit
  have hsteady := steady_of_complete key rows limit hlimit hshrink h
  obtain ⟨last, hle, hshort, hfull⟩ := exists_last rows limit hlimit hshrink
  obtain ⟨left, right, a, hleft, hright, A, B, b, hcut, rfl, rfl⟩ :=
    exists_twice key (rows 0) _ hsplit
  have hpos : 0 < k := by
    by_contra hzero
    rw [Nat.eq_zero_of_not_pos hzero, Nat.zero_mul] at hcut
    omega
  obtain ⟨j, rfl⟩ : ∃ j, k = j+1 := ⟨k-1, by omega⟩
  have hlong : (j+1)*limit < (rows 0).length := by
    obtain ⟨x, -, -, hafter⟩ := hsplit
    exact hafter.trans_le List.countP_le_length
  obtain ⟨others, hothers⟩ := Classical.skolem.mp (fun k => exists_ordering key (rows k))
  let orders := fun i => if i = j then A++a::b::B else if i = j+1 then A++b::a::B else others i
  have horders : ∀ i, Ordering key (rows i) (orders i) := by
    intro i
    by_cases hi : i = j
    · have hj : j*limit < (rows 0).length :=
        lt_of_le_of_lt (Nat.mul_le_mul_right limit (Nat.le_succ j)) hlong
      simp only [orders, hi, if_true, hsteady j hj]
      exact hleft
    by_cases hi' : i = j+1
    · simp only [orders, hi', hsteady (j+1) hlong, if_true, Nat.succ_ne_self, if_false]
      exact hright
    · simp only [orders, hi, hi', if_false]
      exact hothers i
  obtain ⟨out, hout, hperm⟩ := h orders horders
  rw [collected key rows limit hlimit orders horders last hle hshort hfull] at hout
  cases hout
  have hlast : j+1 ≤ last := by
    by_contra hgt
    have hmul : (last+1)*limit ≤ (j+1)*limit := Nat.mul_le_mul_right limit (by omega)
    have hmul' : last*limit ≤ (j+1)*limit := Nat.mul_le_mul_right limit (by omega)
    rw [hsteady last (by omega)] at hshort
    omega
  have hdisjoint := (List.nodup_flatMap.mp (hperm.nodup_iff.mpr hnodup)).2
  rw [List.pairwise_iff_getElem] at hdisjoint
  have hpages := hdisjoint j (j+1) (by simp; omega) (by simp; omega) (Nat.lt_succ_self j)
  simp only [List.getElem_range, Function.onFun, orders, if_true, Nat.succ_ne_self, if_false]
    at hpages
  obtain ⟨ha, ha'⟩ := sides limit hlimit A B a b j hcut
  exact hpages ha ha'

include hshrink horders in
theorem steady_pages (hsteady : ∀ k, k*limit < (rows 0).length → rows k = rows 0)
    (hcut : ∀ k, ¬Splits key (rows 0) (k*limit)) (k : ℕ) :
    (slice limit (k*limit) (orders k)).Perm (slice limit (k*limit) (orders 0)) := by
  by_cases hk : k*limit < (rows 0).length
  · exact slice_perm key limit (rows 0) _ _ (hsteady k hk ▸ horders k) (horders 0) hcut k
  · have hlen := (rows_sublist rows hshrink 0 k (Nat.zero_le _)).length_le
    have hempty : ∀ order : List α, order.length ≤ k*limit → slice limit (k*limit) order = [] := by
      intro order horder
      rw [slice, List.drop_of_length_le horder, List.take_nil]
    rw [hempty (orders k) (by rw [(horders k).perm.length_eq]; omega),
      hempty (orders 0) (by rw [(horders 0).perm.length_eq]; omega)]

include hlimit hshrink in
/-- Paging is complete exactly for steady rows and cuts between the keys. -/
theorem complete_iff (hnodup : (rows 0).Nodup) : Complete key rows limit ↔
    (∀ k, k*limit < (rows 0).length → rows k = rows 0) ∧
      ∀ k, ¬Splits key (rows 0) (k*limit) := by
  constructor
  · intro h
    constructor
    · exact steady_of_complete key rows limit hlimit hshrink h
    · exact unsplit_of_complete key rows limit hlimit hshrink hnodup h
  · rintro ⟨hsteady, hcut⟩ orders horders
    obtain ⟨last, hle, hshort, hfull⟩ := exists_last rows limit hlimit hshrink
    refine ⟨_, collected key rows limit hlimit orders horders last hle hshort hfull, ?_⟩
    have hpage := fun k (_ : k ∈ List.range (last+1)) =>
      steady_pages key rows limit hshrink orders horders hsteady hcut k
    apply (List.Perm.flatMap_left _ hpage).trans
    rw [slices_eq, List.take_of_length_le]
    · exact (horders 0).perm
    · rw [(horders 0).perm.length_eq]
      by_cases hlast : last*limit < (rows 0).length
      · rw [← hsteady last hlast]
        exact hshort.le
      · rw [Nat.succ_mul]
        omega

end Runs

end ControlPlane.OffsetPaging
