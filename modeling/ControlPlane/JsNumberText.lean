import Mathlib.Data.Int.Log
import Mathlib.Data.List.TakeWhile
import Mathlib.Data.Nat.Digits.Lemmas
import Mathlib.Tactic.IntervalCases
import ControlPlane.JsValue

/-!
# Numbers as text

`Number::toString`: the fewest decimal digits that read back as the same
double, written plainly for a decimal point near the digits and with an
exponent otherwise. A reader of such literals gives back the decimal, so two
doubles with one text are equal.
-/

set_option autoImplicit false

namespace ControlPlane.JsNumberText
open ControlPlane.JsText ControlPlane.JsValue

/-- The place of the decimal point: `10^(n-1) ≤ q < 10^n`. -/
def pointOf (q : ℚ) : ℤ := Int.log 10 q+1

structure Decimal where
  s : ℕ
  e : ℤ
  deriving DecidableEq, Repr

def Decimal.value (d : Decimal) : ℚ := d.s*(10 : ℚ)^d.e

def withDigits (c k : ℕ) (e : ℤ) : Decimal := if c = 10^k then ⟨1, e+k⟩ else ⟨c, e⟩

/-- The closest decimal of `k` digits that reads back; an even one of two. -/
def candidate (q : ℚ) (k : ℕ) : Option Decimal :=
  let e := pointOf q-k
  let scaled := q/(10 : ℚ)^e
  let low := ⌊scaled⌋.toNat
  let below := withDigits low k e
  let above := withDigits (low+1) k e
  let first := if scaled-low < 1/2 || (scaled-low = 1/2 && low % 2 = 0) then [below, above]
    else [above, below]
  first.find? (fun d => toDouble d.value = .finite q)

def maxDigits (q : ℚ) : ℕ := (pointOf q+1074).toNat

def shortest (q : ℚ) : Option Decimal :=
  (List.range (maxDigits q)).findSome? (fun i => candidate q (i+1))

def digitUnit (d : ℕ) : UInt16 := 0x30+d.toUInt16

def digitsText (s : ℕ) : Text := (Nat.digits 10 s).reverse.map digitUnit

def zeros (n : ℕ) : Text := List.replicate n 0x30

def letterE : UInt16 := 0x65

def exponentText (n : ℤ) : Text :=
  letterE::(if n < 0 then 0x2D else 0x2B)::(if n = 0 then [0x30] else digitsText n.natAbs)

/-- The digits of a decimal with its point after the first `n`. -/
def placed (digits : Text) (n : ℤ) : Text :=
  let k : ℤ := digits.length
  if k ≤ n && n ≤ 21 then digits++zeros (n-k).toNat
  else if 0 < n && n ≤ 21 then digits.take n.toNat++dot::digits.drop n.toNat
  else if -6 < n && n ≤ 0 then 0x30::dot::zeros (-n).toNat++digits
  else
    match digits with
    | [d] => d::exponentText (n-1)
    | ds => ds.take 1++dot::ds.drop 1++exponentText (n-1)

def positiveText (q : ℚ) : Text :=
  match shortest q with
  | some d => placed (digitsText d.s) (d.e+(digitsText d.s).length)
  | none => []

def numberText (q : ℚ) : Text :=
  if q = 0 then [0x30] else if q < 0 then 0x2D::positiveText (-q) else positiveText q

/-- The values that a parsed number can have. -/
def IsDouble (q : ℚ) : Prop := toDouble |q| = .finite |q|

theorem withDigits_value (c k : ℕ) (e : ℤ) : (withDigits c k e).value = c*(10 : ℚ)^e := by
  unfold withDigits
  split_ifs with h
  · subst h
    simp [Decimal.value, zpow_add₀ (show (10 : ℚ) ≠ 0 by norm_num), mul_comm]
  · rfl

theorem candidate_reads (q : ℚ) (k : ℕ) (d : Decimal) (h : candidate q k = some d) :
    toDouble d.value = .finite q := by
  have := List.find?_some h
  simpa using this

theorem shortest_reads (q : ℚ) (d : Decimal) (h : shortest q = some d) :
    toDouble d.value = .finite q := by
  obtain ⟨i, -, hi⟩ := List.exists_of_findSome?_eq_some h
  exact candidate_reads q _ d hi

theorem double_scaled (q : ℚ) (h : toDouble q = .finite q) : ∃ m : ℤ, q*2^1074 = m := by
  unfold toDouble at h
  split_ifs at h with h0
  · exact ⟨0, by simp [h0]⟩
  · simp only at h
    split_ifs at h
    simp only [JsNumber.finite.injEq] at h
    generalize hr : roundHalfEven _ = r at h
    generalize hx : binaryExponent _ _-52 = x at h
    obtain ⟨n, hn⟩ : ∃ n : ℕ, max x (-1074)+1074 = n :=
      ⟨(max x (-1074)+1074).toNat, by omega⟩
    refine ⟨r*2^n, ?_⟩
    rw [← h, mul_assoc]
    push_cast
    congr 1
    rw [← zpow_natCast, ← zpow_natCast, ← hn, zpow_add₀ (by norm_num)]
    norm_num

theorem binaryExponent_nat (n : ℕ) (h : n ≠ 0) : binaryExponent n 1 = Nat.log2 n := by
  have hle : (2 : ℚ)^((Nat.log2 n : ℤ)-Nat.log2 1)*(1 : ℕ) ≤ n := by
    have hlog : 2^Nat.log2 n ≤ n := Nat.log2_self_le h
    have h1 : Nat.log2 1 = 0 := by decide
    rw [h1, Nat.cast_zero, sub_zero, zpow_natCast, Nat.cast_one, mul_one]
    exact_mod_cast hlog
  rw [binaryExponent]
  simp only [hle, if_true]
  have h1 : Nat.log2 1 = 0 := by decide
  rw [h1, Nat.cast_zero, sub_zero]

theorem roundHalfEven_int (z : ℤ) : roundHalfEven z = z := by
  simp [roundHalfEven]

theorem isDouble_nat (n : ℕ) (h : n ≤ 2^53) : IsDouble n := by
  unfold IsDouble
  rw [Nat.abs_cast]
  by_cases h0 : n = 0
  · subst h0
    rfl
  have hq : ((n : ℚ)) ≠ 0 := by exact_mod_cast h0
  rw [toDouble, if_neg hq]
  have hnum : (n : ℚ).num.natAbs = n := by simp
  have hden : (n : ℚ).den = 1 := by simp
  simp only [hnum, hden, binaryExponent_nat n h0]
  generalize hu : max ((Nat.log2 n : ℤ)-52) (-1074) = e
  obtain ⟨z, hz⟩ : ∃ z : ℤ, (n : ℚ)/2^e = z := by
    have hlog : Nat.log2 n < 54 := by
      rw [Nat.log2_lt h0]
      omega
    by_cases h53 : Nat.log2 n = 53
    · have hn : n = 2^53 := by
        have := Nat.log2_self_le h0
        rw [h53] at this
        omega
      have he : e = 1 := by omega
      subst hn he
      exact ⟨2^52, by norm_num⟩
    · obtain ⟨k, hk⟩ : ∃ k : ℕ, e = -(k : ℤ) := ⟨(-e).toNat, by omega⟩
      apply Exists.intro ((n : ℤ)*2^k)
      rw [hk, zpow_neg, zpow_natCast, div_inv_eq_mul]
      push_cast
      rfl
  rw [hz, roundHalfEven_int, ← hz, div_mul_cancel₀ _ (zpow_ne_zero _ (by norm_num)), Nat.abs_cast,
    if_neg]
  have hle : (n : ℚ) ≤ 2^53 := by exact_mod_cast h
  have hlt : (2 : ℚ)^53 < 2^1024 := pow_lt_pow_right₀ (by norm_num) (by norm_num)
  exact not_le.mpr (hle.trans_lt hlt)

theorem shortest_isSome (q : ℚ) (hq : 0 < q) (h : toDouble q = .finite q) :
    (shortest q).isSome = true := by
  obtain ⟨m, hm⟩ := double_scaled q h
  have hm1 : (1 : ℚ) ≤ m := by
    have hpos : (0 : ℚ) < m := hm ▸ by positivity
    have hpos' : 0 < m := by exact_mod_cast hpos
    exact_mod_cast hpos'
  have hpoint : -1073 ≤ pointOf q := by
    have hlow : ((10 : ℕ) : ℚ)^(-1074 : ℤ) ≤ q := by
      have h2 : ((2 : ℚ)^1074)⁻¹ ≤ q := by
        rw [inv_le_iff_one_le_mul₀ (by positivity)]
        exact hm ▸ hm1
      apply le_trans ?_ h2
      rw [show (-1074 : ℤ) = -((1074 : ℕ) : ℤ) from rfl, zpow_neg, zpow_natCast]
      apply inv_anti₀ (by positivity)
      exact pow_le_pow_left₀ (by norm_num) (by norm_num) 1074
    have := (Int.zpow_le_iff_le_log (by norm_num) hq).mp hlow
    unfold pointOf
    omega
  have hk : ((maxDigits q : ℕ) : ℤ) = pointOf q+1074 := by
    unfold maxDigits
    omega
  obtain ⟨c, hc⟩ : ∃ c : ℕ, (5 : ℚ)^1074 = c := ⟨5^1074, (Nat.cast_pow 5 1074).symm⟩
  have hint : q/(10 : ℚ)^(pointOf q-maxDigits q) = ((m*c : ℤ) : ℚ) := by
    rw [hk, show pointOf q-(pointOf q+1074) = -((1074 : ℕ) : ℤ) by push_cast; ring, zpow_neg,
      zpow_natCast, div_inv_eq_mul, show (10 : ℚ) = 2*5 by norm_num, mul_pow, ← mul_assoc, hm,
      hc]
    push_cast
    rfl
  unfold shortest
  rw [List.findSome?_isSome_iff]
  refine ⟨maxDigits q-1, List.mem_range.mpr (by omega), ?_⟩
  rw [show maxDigits q-1+1 = maxDigits q by omega]
  have hbelow : (withDigits ⌊q/(10 : ℚ)^(pointOf q-maxDigits q)⌋.toNat (maxDigits q)
      (pointOf q-maxDigits q)).value = q := by
    rw [withDigits_value, hint, Int.floor_intCast]
    have hm0 : 0 ≤ m := by
      have : (0 : ℚ) ≤ m := le_trans (by norm_num) hm1
      exact_mod_cast this
    have hcast : (((m*c).toNat : ℕ) : ℚ) = ((m*c : ℤ) : ℚ) := by
      exact_mod_cast Int.toNat_of_nonneg (mul_nonneg hm0 (Int.natCast_nonneg c))
    rw [hcast, ← hint]
    exact div_mul_cancel₀ q (zpow_ne_zero _ (by norm_num))
  unfold candidate
  simp only [List.find?_isSome, decide_eq_true_eq]
  refine ⟨_, ?_, (congrArg toDouble hbelow).trans h⟩
  split_ifs
  · exact List.mem_cons_self
  · exact List.mem_cons_of_mem _ List.mem_cons_self

def unitDigit (u : UInt16) : ℕ := (u-0x30).toNat

def digitsValue (t : Text) : ℕ := Nat.ofDigits 10 (t.reverse.map unitDigit)

def readExponent : Text → ℤ
  | _::sign::ds => if sign = 0x2D then -(digitsValue ds : ℤ) else digitsValue ds
  | _ => 0

def readDecimal (t : Text) : ℚ :=
  let mantissa := t.takeWhile (· ≠ letterE)
  let whole := mantissa.takeWhile (· ≠ dot)
  let fraction := (mantissa.dropWhile (· ≠ dot)).drop 1
  digitsValue (whole++fraction)*
    (10 : ℚ)^(readExponent (t.dropWhile (· ≠ letterE))-fraction.length)

theorem unitDigit_digitUnit (d : ℕ) (h : d < 10) : unitDigit (digitUnit d) = d := by
  interval_cases d <;> rfl

theorem isDigit_digitUnit (d : ℕ) (h : d < 10) : isDigit (digitUnit d) = true := by
  interval_cases d <;> rfl

theorem digitsText_digits (s : ℕ) : ∀ u ∈ digitsText s, isDigit u = true := by
  intro u hu
  simp only [digitsText, List.mem_map, List.mem_reverse] at hu
  obtain ⟨d, hd, rfl⟩ := hu
  exact isDigit_digitUnit d (Nat.digits_lt_base (by norm_num) hd)

theorem digitsValue_digitsText (s : ℕ) : digitsValue (digitsText s) = s := by
  unfold digitsValue digitsText
  rw [← List.map_reverse, List.reverse_reverse, List.map_map]
  have : (Nat.digits 10 s).map (unitDigit ∘ digitUnit) = Nat.digits 10 s := by
    conv_rhs => rw [← List.map_id (Nat.digits 10 s)]
    apply List.map_congr_left
    intro d hd
    exact unitDigit_digitUnit d (Nat.digits_lt_base (by norm_num) hd)
  rw [this, Nat.ofDigits_digits]

theorem digitsValue_append_zeros (t : Text) (n : ℕ) :
    digitsValue (t++zeros n) = digitsValue t*10^n := by
  have hz : (zeros n).reverse.map unitDigit = List.replicate n 0 := by
    simp [zeros, unitDigit]
  rw [digitsValue, List.reverse_append, List.map_append, Nat.ofDigits_append, hz]
  simp [digitsValue, mul_comm]

theorem digitsValue_zeros_append (t : Text) (n : ℕ) :
    digitsValue (zeros n++t) = digitsValue t := by
  have hz : (zeros n).reverse.map unitDigit = List.replicate n 0 := by
    simp [zeros, unitDigit]
  rw [digitsValue, List.reverse_append, List.map_append, hz, Nat.ofDigits_append_replicate_zero]
  rfl

theorem digit_ne (u : UInt16) (h : isDigit u = true) : u ≠ letterE ∧ u ≠ dot ∧ u ≠ 0x2D := by
  refine ⟨?_, ?_, ?_⟩
  · rintro rfl
    exact absurd h (by decide)
  · rintro rfl
    exact absurd h (by decide)
  · rintro rfl
    exact absurd h (by decide)

def Tail (x : Text) : Prop := x = [] ∨ ∃ rest, x = letterE::rest

theorem tail_split (t x : Text) (ht : ∀ u ∈ t, u ≠ letterE) (hx : Tail x) :
    (t++x).takeWhile (· ≠ letterE) = t ∧ (t++x).dropWhile (· ≠ letterE) = x := by
  have hp : ∀ u ∈ t, decide (u ≠ letterE) = true := fun u hu => decide_eq_true (ht u hu)
  rw [List.takeWhile_append_of_pos hp, List.dropWhile_append_of_pos hp]
  rcases hx with rfl | ⟨rest, rfl⟩ <;> simp

theorem whole_split (whole : Text) (hw : ∀ u ∈ whole, isDigit u = true) :
    whole.takeWhile (· ≠ dot) = whole ∧ whole.dropWhile (· ≠ dot) = [] := by
  have hp : ∀ u ∈ whole, decide (u ≠ dot) = true :=
    fun u hu => decide_eq_true (digit_ne u (hw u hu)).2.1
  exact ⟨List.takeWhile_eq_self_iff.mpr hp, List.dropWhile_eq_nil_iff.mpr hp⟩

theorem read_whole (whole x : Text) (hw : ∀ u ∈ whole, isDigit u = true) (hx : Tail x) :
    readDecimal (whole++x) = digitsValue whole*(10 : ℚ)^(readExponent x) := by
  obtain ⟨ht, hd⟩ := tail_split whole x (fun u hu => (digit_ne u (hw u hu)).1) hx
  obtain ⟨htake, hdrop⟩ := whole_split whole hw
  simp only [readDecimal, ht, hd, htake, hdrop, List.drop_nil, List.append_nil, List.length_nil,
    Nat.cast_zero, sub_zero]

theorem mantissa_units (whole fraction : Text) (hw : ∀ u ∈ whole, isDigit u = true)
    (hf : ∀ u ∈ fraction, isDigit u = true) :
    ∀ u ∈ whole++dot::fraction, u ≠ letterE := by
  intro u hu
  rcases List.mem_append.mp hu with hu | hu
  · exact (digit_ne u (hw u hu)).1
  · rcases List.mem_cons.mp hu with rfl | hu
    · decide
    · exact (digit_ne u (hf u hu)).1

theorem point_split (whole fraction : Text) (hw : ∀ u ∈ whole, isDigit u = true) :
    (whole++dot::fraction).takeWhile (· ≠ dot) = whole ∧
      (whole++dot::fraction).dropWhile (· ≠ dot) = dot::fraction := by
  have hp : ∀ u ∈ whole, decide (u ≠ dot) = true :=
    fun u hu => decide_eq_true (digit_ne u (hw u hu)).2.1
  rw [List.takeWhile_append_of_pos hp, List.dropWhile_append_of_pos hp]
  simp

theorem read_fraction (whole fraction x : Text) (hw : ∀ u ∈ whole, isDigit u = true)
    (hf : ∀ u ∈ fraction, isDigit u = true) (hx : Tail x) :
    readDecimal (whole++dot::fraction++x) =
      digitsValue (whole++fraction)*(10 : ℚ)^(readExponent x-fraction.length) := by
  obtain ⟨ht, hd⟩ := tail_split _ x (mantissa_units whole fraction hw hf) hx
  obtain ⟨htake, hdrop⟩ := point_split whole fraction hw
  simp only [readDecimal, ht, hd, htake, hdrop, List.drop_one, List.tail_cons]

theorem read_exponentText (n : ℤ) : readExponent (exponentText n) = n := by
  simp only [exponentText, readExponent]
  have hv : digitsValue (if n = 0 then [0x30] else digitsText n.natAbs) = n.natAbs := by
    split_ifs with h
    · subst h
      rfl
    · exact digitsValue_digitsText _
  rw [hv]
  by_cases hn : n < 0
  · rw [if_pos hn, if_pos rfl]
    omega
  · rw [if_neg hn, if_neg (by decide)]
    omega

theorem tail_exponent (n : ℤ) : Tail (exponentText n) := Or.inr ⟨_, rfl⟩

theorem zeros_digits (n : ℕ) : ∀ u ∈ zeros n, isDigit u = true := by
  intro u hu
  rw [List.eq_of_mem_replicate hu]
  rfl

theorem read_placed (ds : Text) (n : ℤ) (hds : ∀ u ∈ ds, isDigit u = true) (hne : ds ≠ []) :
    readDecimal (placed ds n) = digitsValue ds*(10 : ℚ)^(n-ds.length) := by
  have htake : ∀ i, ∀ u ∈ ds.take i, isDigit u = true :=
    fun i u hu => hds u (List.mem_of_mem_take hu)
  have hdrop : ∀ i, ∀ u ∈ ds.drop i, isDigit u = true :=
    fun i u hu => hds u (List.mem_of_mem_drop hu)
  unfold placed
  simp only [Bool.and_eq_true, decide_eq_true_eq]
  split_ifs with h1 h2 h3
  · have hw : ∀ u ∈ ds++zeros (n-ds.length).toNat, isDigit u = true := by
      intro u hu
      exact (List.mem_append.mp hu).elim (hds u) (zeros_digits _ u)
    have := read_whole _ [] hw (Or.inl rfl)
    rw [List.append_nil] at this
    rw [this, digitsValue_append_zeros]
    simp only [readExponent, zpow_zero, mul_one, Nat.cast_mul, Nat.cast_pow, Nat.cast_ofNat]
    rw [← zpow_natCast, show (((n-ds.length).toNat : ℕ) : ℤ) = n-ds.length by omega]
  · have := read_fraction _ _ [] (htake n.toNat) (hdrop n.toNat) (Or.inl rfl)
    rw [List.append_nil] at this
    rw [this, List.take_append_drop, List.length_drop]
    simp only [readExponent]
    congr 2
    omega
  · have hf : ∀ u ∈ zeros (-n).toNat++ds, isDigit u = true := by
      intro u hu
      exact (List.mem_append.mp hu).elim (zeros_digits _ u) (hds u)
    have hw : ∀ u ∈ zeros 1, isDigit u = true := zeros_digits 1
    have := read_fraction (zeros 1) _ [] hw hf (Or.inl rfl)
    rw [List.append_nil, digitsValue_zeros_append, digitsValue_zeros_append] at this
    rw [show 0x30::dot::zeros (-n).toNat++ds = zeros 1++dot::(zeros (-n).toNat++ds) from rfl, this]
    simp only [readExponent, List.length_append, zeros, List.length_replicate]
    congr 2
    omega
  · cases ds with
    | nil => exact absurd rfl hne
    | cons d rest =>
      cases rest with
      | nil =>
        have := read_whole [d] (exponentText (n-1)) hds (tail_exponent _)
        rw [read_exponentText] at this
        exact this
      | cons d' rest =>
        have := read_fraction _ _ (exponentText (n-1)) (htake 1) (hdrop 1) (tail_exponent _)
        rw [read_exponentText, List.take_append_drop, List.length_drop] at this
        apply this.trans ?_
        congr 2
        simp only [List.length_cons]
        omega

theorem digitsText_ne_nil (s : ℕ) (h : s ≠ 0) : digitsText s ≠ [] := by
  simp [digitsText, Nat.digits_ne_nil_iff_ne_zero.mpr h]

theorem toDouble_zero : toDouble 0 = .finite 0 := rfl

theorem reads_ne_zero (q : ℚ) (d : Decimal) (hq : 0 < q) (h : toDouble d.value = .finite q) :
    d.s ≠ 0 := by
  intro hs
  have hv : d.value = 0 := by simp [Decimal.value, hs]
  rw [hv, toDouble_zero] at h
  exact hq.ne (JsNumber.finite.inj h)

theorem read_positiveText (q : ℚ) (hq : 0 < q) (h : toDouble q = .finite q) :
    toDouble (readDecimal (positiveText q)) = .finite q := by
  obtain ⟨d, hd⟩ := Option.isSome_iff_exists.mp (shortest_isSome q hq h)
  have hreads := shortest_reads q d hd
  have hne := digitsText_ne_nil d.s (reads_ne_zero q d hq hreads)
  have hvalue := read_placed (digitsText d.s) (d.e+(digitsText d.s).length)
    (digitsText_digits d.s) hne
  rw [digitsValue_digitsText, add_sub_cancel_right] at hvalue
  simp only [positiveText, hd, hvalue]
  exact hreads

theorem placed_head (ds : Text) (n : ℤ) (hds : ∀ u ∈ ds, isDigit u = true) (hne : ds ≠ []) :
    ∃ u rest, placed ds n = u::rest ∧ isDigit u = true := by
  obtain ⟨u, rest, rfl⟩ := List.exists_cons_of_ne_nil hne
  have hu := hds u List.mem_cons_self
  unfold placed
  simp only [Bool.and_eq_true, decide_eq_true_eq]
  split_ifs with h1 h2 h3
  · exact ⟨u, _, rfl, hu⟩
  · obtain ⟨m, hm⟩ : ∃ m, n.toNat = m+1 := ⟨n.toNat-1, by omega⟩
    exact ⟨u, _, by rw [hm]; rfl, hu⟩
  · exact ⟨0x30, _, rfl, rfl⟩
  · match rest with
    | [] => exact ⟨u, _, rfl, hu⟩
    | _::_ => exact ⟨u, _, rfl, hu⟩

theorem positiveText_head (q : ℚ) (hq : 0 < q) (h : toDouble q = .finite q) :
    ∃ u rest, positiveText q = u::rest ∧ isDigit u = true := by
  obtain ⟨d, hd⟩ := Option.isSome_iff_exists.mp (shortest_isSome q hq h)
  simp only [positiveText, hd]
  exact placed_head _ _ (digitsText_digits d.s)
    (digitsText_ne_nil d.s (reads_ne_zero q d hq (shortest_reads q d hd)))

theorem numberText_cases (q : ℚ) (h : IsDouble q) :
    (q = 0 ∧ numberText q = [0x30]) ∨
      (q < 0 ∧ numberText q = 0x2D::positiveText (-q) ∧ toDouble (-q) = .finite (-q)) ∨
        (0 < q ∧ numberText q = positiveText q ∧ toDouble q = .finite q) := by
  unfold IsDouble at h
  rcases lt_trichotomy q 0 with hq | hq | hq
  · rw [abs_of_neg hq] at h
    exact Or.inr (Or.inl ⟨hq, by simp [numberText, hq, hq.ne], h⟩)
  · exact Or.inl ⟨hq, by simp [numberText, hq]⟩
  · rw [abs_of_pos hq] at h
    exact Or.inr (Or.inr ⟨hq, by simp [numberText, hq.ne', hq.not_gt], h⟩)

theorem numberText_head (q : ℚ) (h : IsDouble q) :
    ∃ u rest, numberText q = u::rest ∧ (isDigit u = true ∨ u = 0x2D) := by
  rcases numberText_cases q h with ⟨-, ht⟩ | ⟨-, ht, -⟩ | ⟨hq, ht, hd⟩
  · exact ⟨0x30, [], ht, Or.inl rfl⟩
  · exact ⟨0x2D, _, ht, Or.inr rfl⟩
  · obtain ⟨u, rest, hp, hu⟩ := positiveText_head q hq hd
    exact ⟨u, rest, ht.trans hp, Or.inl hu⟩

def isDigits (t : Text) : Bool := t ≠ [] && t.all isDigit

/-- `0`, or digits that do not start with it. -/
def isWhole (t : Text) : Bool := t = [0x30] || (isDigits t && t.head? ≠ some 0x30)

def isExponent : Text → Bool
  | [] => true
  | _::sign::ds => (sign = 0x2D || sign = 0x2B) && isDigits ds
  | _ => false

def isDecimal (t : Text) : Bool :=
  let mantissa := t.takeWhile (· ≠ letterE)
  let fraction := mantissa.dropWhile (· ≠ dot)
  isWhole (mantissa.takeWhile (· ≠ dot)) && (fraction = [] || isDigits (fraction.drop 1)) &&
    isExponent (t.dropWhile (· ≠ letterE))

def isNumber : Text → Bool
  | 0x2D::t => isDecimal t
  | t => isDecimal t

theorem isDigits_iff (t : Text) :
    isDigits t = true ↔ t ≠ [] ∧ ∀ u ∈ t, isDigit u = true := by
  simp [isDigits]

theorem isWhole_digits (t : Text) (h : isWhole t = true) : ∀ u ∈ t, isDigit u = true := by
  simp only [isWhole, Bool.or_eq_true, Bool.and_eq_true, decide_eq_true_eq] at h
  rcases h with rfl | h
  · simp [isDigit]
  · exact ((isDigits_iff t).mp h.1).2

theorem isDecimal_whole (whole x : Text) (hw : isWhole whole = true) (hx : Tail x)
    (hexp : isExponent x = true) : isDecimal (whole++x) = true := by
  have hdigits := isWhole_digits whole hw
  obtain ⟨ht, hd⟩ := tail_split whole x (fun u hu => (digit_ne u (hdigits u hu)).1) hx
  obtain ⟨htake, hdrop⟩ := whole_split whole hdigits
  simp only [isDecimal, ht, hd, htake, hdrop, hw, hexp, decide_true, Bool.true_or, Bool.and_self]

theorem isDecimal_fraction (whole fraction x : Text) (hw : isWhole whole = true)
    (hf : isDigits fraction = true) (hx : Tail x) (hexp : isExponent x = true) :
    isDecimal (whole++dot::fraction++x) = true := by
  have hdigits := isWhole_digits whole hw
  have hfraction := ((isDigits_iff fraction).mp hf).2
  obtain ⟨ht, hd⟩ := tail_split _ x (mantissa_units whole fraction hdigits hfraction) hx
  obtain ⟨htake, hdrop⟩ := point_split whole fraction hdigits
  simp only [isDecimal, ht, hd, htake, hdrop, hw, hexp, List.drop_one, List.tail_cons, hf,
    Bool.or_true, Bool.and_self]

theorem isExponent_text (n : ℤ) : isExponent (exponentText n) = true := by
  have hdigits : isDigits (if n = 0 then [0x30] else digitsText n.natAbs) = true := by
    split_ifs with h
    · decide
    · exact (isDigits_iff _).mpr
        ⟨digitsText_ne_nil _ (Int.natAbs_ne_zero.mpr h), digitsText_digits _⟩
  simp only [exponentText, isExponent, hdigits, Bool.and_true]
  split_ifs <;> decide

theorem isDecimal_placed (ds : Text) (n : ℤ) (hds : isDigits ds = true)
    (hhead : ds.head? ≠ some 0x30) : isDecimal (placed ds n) = true := by
  obtain ⟨hne, hall⟩ := (isDigits_iff ds).mp hds
  obtain ⟨u, rest, rfl⟩ := List.exists_cons_of_ne_nil hne
  have hu : isDigit u = true := hall u List.mem_cons_self
  have hrest : ∀ v ∈ rest, isDigit v = true := fun v hv => hall v (List.mem_cons_of_mem u hv)
  have hu0 : u ≠ 0x30 := by simpa using hhead
  have hwhole : ∀ t, (∀ v ∈ t, isDigit v = true) → isWhole (u::t) = true := by
    intro t ht
    simp [isWhole, isDigits, hu, hu0, List.all_eq_true.mpr ht]
  unfold placed
  simp only [Bool.and_eq_true, decide_eq_true_eq]
  split_ifs with h1 h2 h3
  · have h := isDecimal_whole (u::(rest++zeros (n-(u::rest).length).toNat)) []
      (hwhole _ (List.forall_mem_append.mpr ⟨hrest, zeros_digits _⟩)) (Or.inl rfl) rfl
    rwa [List.append_nil] at h
  · obtain ⟨m, hm⟩ : ∃ m, n.toNat = m+1 := ⟨n.toNat-1, by omega⟩
    have hlen : m < rest.length := by
      simp only [List.length_cons] at h1
      omega
    have hfraction : isDigits (rest.drop m) = true :=
      (isDigits_iff _).mpr ⟨by simp [hlen], fun v hv => hrest v (List.mem_of_mem_drop hv)⟩
    have h := isDecimal_fraction (u::rest.take m) (rest.drop m) []
      (hwhole _ (fun v hv => hrest v (List.mem_of_mem_take hv))) hfraction (Or.inl rfl) rfl
    rw [List.append_nil] at h
    rwa [hm]
  · have hfraction : isDigits (zeros (-n).toNat++u::rest) = true :=
      (isDigits_iff _).mpr ⟨by simp, List.forall_mem_append.mpr ⟨zeros_digits _, hall⟩⟩
    have h := isDecimal_fraction [0x30] _ [] rfl hfraction (Or.inl rfl) rfl
    rwa [List.append_nil] at h
  · have hexp := isExponent_text (n-1)
    match rest with
    | [] => exact isDecimal_whole [u] _ (hwhole [] (by simp)) (tail_exponent _) hexp
    | v::rest =>
      exact isDecimal_fraction [u] (v::rest) _ (hwhole [] (by simp))
        ((isDigits_iff _).mpr ⟨by simp, hrest⟩) (tail_exponent _) hexp

theorem digitsText_head (s : ℕ) (h : s ≠ 0) : (digitsText s).head? ≠ some 0x30 := by
  have hne : Nat.digits 10 s ≠ [] := Nat.digits_ne_nil_iff_ne_zero.mpr h
  have hlast := Nat.getLast_digit_ne_zero 10 h
  have hlt : (Nat.digits 10 s).getLast hne < 10 :=
    Nat.digits_lt_base (by norm_num) (List.getLast_mem hne)
  rw [digitsText, List.head?_map, List.head?_reverse, List.getLast?_eq_some_getLast hne,
    Option.map_some]
  intro hzero
  have hunit := unitDigit_digitUnit _ hlt
  rw [Option.some.inj hzero] at hunit
  exact hlast hunit.symm

theorem isDecimal_positiveText (q : ℚ) (hq : 0 < q) (h : toDouble q = .finite q) :
    isDecimal (positiveText q) = true := by
  obtain ⟨d, hd⟩ := Option.isSome_iff_exists.mp (shortest_isSome q hq h)
  have hs := reads_ne_zero q d hq (shortest_reads q d hd)
  simp only [positiveText, hd]
  exact isDecimal_placed _ _
    ((isDigits_iff _).mpr ⟨digitsText_ne_nil d.s hs, digitsText_digits d.s⟩)
    (digitsText_head d.s hs)

theorem isNumber_numberText (q : ℚ) (h : IsDouble q) : isNumber (numberText q) = true := by
  rcases numberText_cases q h with ⟨rfl, ht⟩ | ⟨hq, ht, hd⟩ | ⟨hq, ht, hd⟩
  · rfl
  · rw [ht]
    exact isDecimal_positiveText (-q) (by linarith) hd
  · obtain ⟨u, rest, hu, hdigit⟩ := positiveText_head q hq hd
    have hdecimal := isDecimal_positiveText q hq hd
    rw [ht, hu] at *
    unfold isNumber
    split
    · next heq =>
      obtain ⟨rfl, -⟩ := List.cons.inj heq
      exact absurd hdigit (by decide)
    · exact hdecimal

def readNumber : Text → JsNumber × Bool
  | 0x2D::t => (toDouble (readDecimal t), true)
  | t => (toDouble (readDecimal t), false)

theorem readNumber_positive (t : Text) (h : ∃ u rest, t = u::rest ∧ isDigit u = true) :
    readNumber t = (toDouble (readDecimal t), false) := by
  obtain ⟨u, rest, rfl, hu⟩ := h
  unfold readNumber
  split
  · next heq =>
    obtain ⟨rfl, -⟩ := List.cons.inj heq
    exact absurd hu (by decide)
  · rfl

theorem read_numberText (q : ℚ) (h : IsDouble q) :
    readNumber (numberText q) = (.finite |q|, decide (q < 0)) := by
  rcases numberText_cases q h with ⟨rfl, ht⟩ | ⟨hq, ht, hd⟩ | ⟨hq, ht, hd⟩
  · rw [ht]
    simp [readNumber, show readDecimal [0x30] = 0 by decide +kernel, toDouble_zero]
  · rw [ht, readNumber, read_positiveText (-q) (by linarith) hd, abs_of_neg hq]
    simp [hq]
  · rw [ht, readNumber_positive _ (positiveText_head q hq hd), read_positiveText q hq hd,
      abs_of_pos hq]
    simp [hq.le]

theorem numberText_injective (p q : ℚ) (hp : IsDouble p) (hq : IsDouble q)
    (h : numberText p = numberText q) : p = q := by
  have hread := (read_numberText p hp).symm.trans ((congrArg readNumber h).trans
    (read_numberText q hq))
  simp only [Prod.mk.injEq, JsNumber.finite.injEq, decide_eq_decide] at hread
  rcases abs_eq_abs.mp hread.1 with heq | heq
  · exact heq
  · have hsign := hread.2
    rw [heq, neg_lt_zero] at hsign
    rcases lt_trichotomy q 0 with h0 | h0 | h0
    · exact absurd (hsign.mpr h0) (not_lt.mpr h0.le)
    · simp [heq, h0]
    · exact absurd (hsign.mp h0) (not_lt.mpr h0.le)

def isNumberUnit (u : UInt16) : Bool :=
  isDigit u || u = 0x2D || u = 0x2B || u = dot || u = letterE

theorem digit_numberUnit (u : UInt16) (h : isDigit u = true) : isNumberUnit u = true := by
  simp [isNumberUnit, h]

theorem exponentText_units (n : ℤ) : ∀ u ∈ exponentText n, isNumberUnit u = true := by
  intro u hu
  simp only [exponentText, List.mem_cons] at hu
  rcases hu with rfl | rfl | hu
  · decide
  · split_ifs <;> decide
  · apply digit_numberUnit
    split_ifs at hu
    · rw [List.mem_singleton.mp hu]
      rfl
    · exact digitsText_digits _ u hu

theorem placed_units (ds : Text) (n : ℤ) (hds : ∀ u ∈ ds, isDigit u = true) :
    ∀ u ∈ placed ds n, isNumberUnit u = true := by
  have hdot : isNumberUnit dot = true := by decide
  have hd := fun u hu => digit_numberUnit u (hds u hu)
  have hz := fun m u hu => digit_numberUnit u (zeros_digits m u hu)
  have hx := exponentText_units (n-1)
  have htake : ∀ i, ∀ u ∈ ds.take i, isNumberUnit u = true :=
    fun i u hu => hd u (List.mem_of_mem_take hu)
  have hdrop : ∀ i, ∀ u ∈ ds.drop i, isNumberUnit u = true :=
    fun i u hu => hd u (List.mem_of_mem_drop hu)
  unfold placed
  simp only [Bool.and_eq_true, decide_eq_true_eq]
  split_ifs
  · exact List.forall_mem_append.mpr ⟨hd, hz _⟩
  · exact List.forall_mem_append.mpr ⟨htake _, List.forall_mem_cons.mpr ⟨hdot, hdrop _⟩⟩
  · exact List.forall_mem_cons.mpr ⟨by decide, List.forall_mem_append.mpr
      ⟨List.forall_mem_cons.mpr ⟨hdot, hz _⟩, hd⟩⟩
  · split
    · exact List.forall_mem_cons.mpr ⟨hd _ List.mem_cons_self, hx⟩
    · exact List.forall_mem_append.mpr ⟨List.forall_mem_append.mpr
        ⟨htake 1, List.forall_mem_cons.mpr ⟨hdot, hdrop 1⟩⟩, hx⟩

theorem numberText_units (q : ℚ) : ∀ u ∈ numberText q, isNumberUnit u = true := by
  have hp : ∀ p, ∀ u ∈ positiveText p, isNumberUnit u = true := by
    intro p
    unfold positiveText
    split
    · exact placed_units _ _ (digitsText_digits _)
    · exact fun u hu => (List.not_mem_nil hu).elim
  unfold numberText
  split_ifs
  · intro u hu
    rw [List.mem_singleton.mp hu]
    rfl
  · exact List.forall_mem_cons.mpr ⟨by decide, hp _⟩
  · exact hp q

example : numberText (-25/2) = js "-12.5" := by decide +kernel

def hexDigit (u : UInt16) : Option ℕ := (List.range 16).find? (fun d => hexUnit d = lowerUnit u)

def readHex (p : Text) : Option ℕ := (p.mapM hexDigit).map (fun ds => Nat.ofDigits 16 ds.reverse)

theorem mapM_some_iff {α β : Type} (f : α → Option β) (ps : List α) (ns : List β) :
    ps.mapM f = some ns ↔ List.Forall₂ (fun p n => f p = some n) ps ns := by
  induction ps generalizing ns with
  | nil => simp [eq_comm]
  | cons p ps ih =>
    rw [List.mapM_cons, List.forall₂_cons_left_iff]
    simp only [Option.bind_eq_bind, Option.bind_eq_some_iff, Option.pure_def, Option.some.injEq]
    constructor
    · rintro ⟨n, hn, ns', hns, rfl⟩
      exact ⟨n, ns', hn, (ih ns').mp hns, rfl⟩
    · rintro ⟨n, ns', hn, hns, rfl⟩
      exact ⟨n, hn, ns', (ih ns').mpr hns, rfl⟩

theorem hexDigit_hexUnit (d : ℕ) (h : d < 16) : hexDigit (hexUnit d) = some d := by
  interval_cases d <;> rfl

theorem hexDigit_some (u : UInt16) (d : ℕ) (h : hexDigit u = some d) :
    d < 16 ∧ hexUnit d = lowerUnit u := by
  have hmem := List.mem_of_find?_eq_some h
  have hsat := List.find?_some h
  exact ⟨List.mem_range.mp hmem, of_decide_eq_true hsat⟩

theorem mapM_hexUnit (ds : List ℕ) (h : ∀ d ∈ ds, d < 16) :
    (ds.map hexUnit).mapM hexDigit = some ds := by
  rw [mapM_some_iff, List.forall₂_map_left_iff, List.forall₂_same]
  intro d hd
  exact hexDigit_hexUnit d (h d hd)

end ControlPlane.JsNumberText
