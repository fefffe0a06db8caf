import Mathlib.Data.Rat.Lemmas
import Mathlib.Tactic.FieldSimp
import Mathlib.Tactic.Linarith
import ControlPlane.JsNumberText

/-!
# Rounding to doubles

A number is rounded on the grid of the doubles of its own size. A double that
bounds it is on that grid, or of a smaller size, so that rounding never passes
a double.
-/

set_option autoImplicit false

namespace ControlPlane.DoubleRounding
open ControlPlane.JsValue ControlPlane.JsNumberText

def exponent (q : ℚ) : ℤ := binaryExponent q.num.natAbs q.den

def spacing (q : ℚ) : ℚ := 2^(max (exponent q-52) (-1074))

def rounded (q : ℚ) : ℚ := roundHalfEven (q/spacing q)*spacing q

def OnGrid (unit x : ℚ) : Prop := ∃ z : ℤ, x = z*unit

theorem toDouble_eq (q : ℚ) (hq : q ≠ 0) : toDouble q =
    if (2 : ℚ)^1024 ≤ |rounded q| then .infinite (rounded q < 0) else .finite (rounded q) := by
  rw [toDouble, if_neg hq]
  rfl

theorem two_zpow_pos (e : ℤ) : (0 : ℚ) < 2^e := zpow_pos (by norm_num) e

theorem spacing_pos (q : ℚ) : 0 < spacing q := two_zpow_pos _

theorem log2_bounds (n : ℕ) (hn : n ≠ 0) :
    (2 : ℚ)^(Nat.log2 n : ℤ) ≤ n ∧ (n : ℚ) < 2^((Nat.log2 n : ℤ)+1) := by
  constructor
  · rw [zpow_natCast]
    exact_mod_cast Nat.log2_self_le hn
  · rw [← Nat.cast_succ, zpow_natCast]
    exact_mod_cast Nat.lt_log2_self

theorem binaryExponent_spec (n d : ℕ) (hn : n ≠ 0) (hd : d ≠ 0) :
    (2 : ℚ)^binaryExponent n d*d ≤ n ∧ (n : ℚ) < 2^(binaryExponent n d+1)*d := by
  have htwo : (2 : ℚ) ≠ 0 := by norm_num
  obtain ⟨hn1, hn2⟩ := log2_bounds n hn
  obtain ⟨hd1, hd2⟩ := log2_bounds d hd
  unfold binaryExponent
  simp only
  split_ifs with h
  · constructor
    · exact h
    · calc (n : ℚ) < 2^((Nat.log2 n : ℤ)+1) := hn2
        _ = 2^((Nat.log2 n : ℤ)-Nat.log2 d+1)*2^(Nat.log2 d : ℤ) := by
          rw [← zpow_add₀ htwo]
          congr 1
          omega
        _ ≤ 2^((Nat.log2 n : ℤ)-Nat.log2 d+1)*d :=
          mul_le_mul_of_nonneg_left hd1 (two_zpow_pos _).le
  · constructor
    · calc (2 : ℚ)^((Nat.log2 n : ℤ)-Nat.log2 d-1)*d
          ≤ 2^((Nat.log2 n : ℤ)-Nat.log2 d-1)*2^((Nat.log2 d : ℤ)+1) :=
            mul_le_mul_of_nonneg_left hd2.le (two_zpow_pos _).le
        _ = 2^(Nat.log2 n : ℤ) := by
          rw [← zpow_add₀ htwo]
          congr 1
          omega
        _ ≤ n := hn1
    · rw [show (Nat.log2 n : ℤ)-Nat.log2 d-1+1 = Nat.log2 n-Nat.log2 d by omega]
      exact not_le.mp h

theorem exponent_spec (q : ℚ) (hq : q ≠ 0) :
    (2 : ℚ)^exponent q ≤ |q| ∧ |q| < 2^(exponent q+1) := by
  have hn : q.num.natAbs ≠ 0 := by simpa using hq
  obtain ⟨h1, h2⟩ := binaryExponent_spec q.num.natAbs q.den hn q.den_ne_zero
  have hden : (0 : ℚ) < q.den := by exact_mod_cast q.den_pos
  have habs : |q| = (q.num.natAbs : ℚ)/q.den := by
    rw [Nat.cast_natAbs, Int.cast_abs]
    nth_rewrite 1 [← Rat.num_div_den q]
    rw [abs_div, abs_of_pos hden]
  rw [habs]
  exact ⟨(le_div_iff₀ hden).mpr h1, (div_lt_iff₀ hden).mpr h2⟩

theorem roundHalfEven_le (x : ℚ) (z : ℤ) (h : x ≤ z) : roundHalfEven x ≤ z := by
  have hfloor : ⌊x⌋ ≤ z := Int.floor_le_iff.mpr (by linarith)
  have hlow := Int.floor_le x
  by_cases hz : ⌊x⌋ = z
  · have hx : x = z := le_antisymm h (hz ▸ hlow)
    rw [hx, roundHalfEven_int]
  · have : ⌊x⌋+1 ≤ z := by omega
    unfold roundHalfEven
    simp only
    split_ifs <;> omega

theorem le_roundHalfEven (x : ℚ) (z : ℤ) (h : (z : ℚ) ≤ x) : z ≤ roundHalfEven x := by
  have hfloor : z ≤ ⌊x⌋ := Int.le_floor.mpr h
  unfold roundHalfEven
  simp only
  split_ifs <;> omega

theorem roundHalfEven_mono (x y : ℚ) (h : x ≤ y) : roundHalfEven x ≤ roundHalfEven y := by
  by_cases hf : ⌊x⌋ = ⌊y⌋
  · unfold roundHalfEven
    simp only [hf]
    split_ifs <;> first | omega | linarith
  · have hlt : ⌊x⌋ < ⌊y⌋ := lt_of_le_of_ne (Int.floor_mono h) hf
    have hxy : x ≤ ⌊y⌋ := (Int.floor_lt.mp hlt).le
    exact (roundHalfEven_le x _ hxy).trans (le_roundHalfEven y _ (Int.floor_le y))

theorem rounded_le (q x : ℚ) (hx : OnGrid (spacing q) x) (h : q ≤ x) : rounded q ≤ x := by
  obtain ⟨z, rfl⟩ := hx
  apply mul_le_mul_of_nonneg_right _ (spacing_pos q).le
  exact_mod_cast roundHalfEven_le _ z ((div_le_iff₀ (spacing_pos q)).mpr h)

theorem le_rounded (q x : ℚ) (hx : OnGrid (spacing q) x) (h : x ≤ q) : x ≤ rounded q := by
  obtain ⟨z, rfl⟩ := hx
  apply mul_le_mul_of_nonneg_right _ (spacing_pos q).le
  exact_mod_cast le_roundHalfEven _ z ((le_div_iff₀ (spacing_pos q)).mpr h)

theorem grid_coarser (d e : ℤ) (h : d ≤ e) (x : ℚ) (hx : OnGrid (2^e) x) : OnGrid (2^d) x := by
  obtain ⟨z, rfl⟩ := hx
  obtain ⟨n, hn⟩ : ∃ n : ℕ, e = n+d := ⟨(e-d).toNat, by omega⟩
  apply Exists.intro (z*2^n)
  rw [hn, zpow_add₀ (by norm_num), zpow_natCast]
  push_cast
  ring

theorem power_grid (p q : ℚ) (h : max (exponent p-52) (-1074) < max (exponent q-52) (-1074)) :
    OnGrid (spacing p) (2^exponent q) ∧ OnGrid (spacing q) (2^exponent q) := by
  constructor
  · exact grid_coarser _ (exponent q) (by omega) _ ⟨1, by simp⟩
  · exact grid_coarser _ (exponent q) (by omega) _ ⟨1, by simp⟩

theorem grid_neg (unit x : ℚ) (h : OnGrid unit x) : OnGrid unit (-x) := by
  obtain ⟨z, rfl⟩ := h
  exact ⟨-z, by push_cast; ring⟩

theorem rounded_mono_aligned (p q : ℚ) (h : p ≤ q) (hs : spacing p = spacing q) :
    rounded p ≤ rounded q := by
  unfold rounded
  rw [hs]
  apply mul_le_mul_of_nonneg_right _ (spacing_pos q).le
  exact_mod_cast roundHalfEven_mono _ _ (div_le_div_of_nonneg_right h (spacing_pos q).le)

theorem rounded_mono_nonzero (p q : ℚ) (hp : p ≠ 0) (hq : q ≠ 0) (h : p ≤ q) :
    rounded p ≤ rounded q := by
  rcases lt_trichotomy (max (exponent p-52) (-1074)) (max (exponent q-52) (-1074)) with
    hlt | heq | hgt
  · obtain ⟨hgp, hgq⟩ := power_grid p q hlt
    have hbelow : |p| < 2^exponent q :=
      (exponent_spec p hp).2.trans_le (zpow_le_zpow_right₀ (by norm_num) (by omega))
    have habove := (exponent_spec q hq).1
    have hpos : 0 < q := by
      by_contra hneg
      rw [abs_of_nonpos (not_lt.mp hneg)] at habove
      linarith [(abs_lt.mp hbelow).1]
    rw [abs_of_pos hpos] at habove
    exact (rounded_le p _ hgp (abs_lt.mp hbelow).2.le).trans (le_rounded q _ hgq habove)
  · exact rounded_mono_aligned p q h (by rw [spacing, spacing, heq])
  · obtain ⟨hgq, hgp⟩ := power_grid q p hgt
    have hbelow : |q| < 2^exponent p :=
      (exponent_spec q hq).2.trans_le (zpow_le_zpow_right₀ (by norm_num) (by omega))
    have habove := (exponent_spec p hp).1
    have hneg : p < 0 := by
      by_contra hpos
      rw [abs_of_nonneg (not_lt.mp hpos)] at habove
      linarith [(abs_lt.mp hbelow).2]
    rw [abs_of_neg hneg] at habove
    exact (rounded_le p _ (grid_neg _ _ hgp) (by linarith)).trans
      (le_rounded q _ (grid_neg _ _ hgq) (abs_lt.mp hbelow).1.le)

theorem rounded_zero : rounded 0 = 0 := by
  rw [rounded, zero_div, show (0 : ℚ) = (0 : ℤ) by norm_num, roundHalfEven_int]
  norm_num

theorem toDouble_rounded (q : ℚ) : toDouble q =
    if (2 : ℚ)^1024 ≤ |rounded q| then .infinite (rounded q < 0) else .finite (rounded q) := by
  by_cases hq : q = 0
  · rw [hq, rounded_zero, abs_zero, if_neg (not_le.mpr (by positivity))]
    rfl
  · exact toDouble_eq q hq

theorem rounded_nonneg (q : ℚ) (h : 0 ≤ q) : 0 ≤ rounded q := le_rounded q 0 ⟨0, by simp⟩ h

theorem rounded_nonpos (q : ℚ) (h : q ≤ 0) : rounded q ≤ 0 := rounded_le q 0 ⟨0, by simp⟩ h

theorem rounded_mono (p q : ℚ) (h : p ≤ q) : rounded p ≤ rounded q := by
  by_cases hp : p = 0
  · rw [hp, rounded_zero]
    exact rounded_nonneg q (hp ▸ h)
  by_cases hq : q = 0
  · rw [hq, rounded_zero]
    exact rounded_nonpos p (hq ▸ h)
  exact rounded_mono_nonzero p q hp hq h

theorem double_grid (a : ℚ) (ha : toDouble a = .finite a) : OnGrid (spacing a) a := by
  by_cases h0 : a = 0
  · exact ⟨0, by simp [h0]⟩
  · rw [toDouble_eq a h0] at ha
    split_ifs at ha
    exact ⟨_, (JsNumber.finite.inj ha).symm⟩

theorem grid_of_double (a q : ℚ) (ha : toDouble a = .finite a) (h0 : a ≠ 0) :
    OnGrid (spacing q) a ∨ |a| < 2^exponent q ∧ OnGrid (spacing q) (2^exponent q) := by
  have hgrid := double_grid a ha
  by_cases hle : max (exponent q-52) (-1074) ≤ max (exponent a-52) (-1074)
  · exact Or.inl (grid_coarser _ _ hle a hgrid)
  · right
    constructor
    · apply (exponent_spec a h0).2.trans_le
      exact zpow_le_zpow_right₀ (by norm_num) (by omega)
    · apply grid_coarser _ (exponent q) (by omega)
      exact ⟨1, by simp⟩

theorem le_rounded_of_double (a q : ℚ) (ha : toDouble a = .finite a) (hq : q ≠ 0) (h : a ≤ q) :
    a ≤ rounded q := by
  by_cases h0 : a = 0
  · exact le_rounded q a ⟨0, by simp [h0]⟩ h
  rcases grid_of_double a q ha h0 with hgrid | ⟨hlt, hgrid⟩
  · exact le_rounded q a hgrid h
  · have hexp := (exponent_spec q hq).1
    have hbound := abs_lt.mp (hlt.trans_le hexp)
    rcases lt_or_ge q 0 with hneg | hpos
    · rw [abs_of_neg hneg] at hbound
      linarith
    · rw [abs_of_nonneg hpos] at hexp
      have := le_rounded q _ hgrid hexp
      linarith [(abs_lt.mp hlt).2]

theorem rounded_le_of_double (b q : ℚ) (hb : toDouble b = .finite b) (hq : q ≠ 0) (h : q ≤ b) :
    rounded q ≤ b := by
  by_cases h0 : b = 0
  · exact rounded_le q b ⟨0, by simp [h0]⟩ h
  rcases grid_of_double b q hb h0 with hgrid | ⟨hlt, hgrid⟩
  · exact rounded_le q b hgrid h
  · have hexp := (exponent_spec q hq).1
    have hbound := abs_lt.mp (hlt.trans_le hexp)
    rcases lt_or_ge q 0 with hneg | hpos
    · rw [abs_of_neg hneg] at hexp
      obtain ⟨z, hz⟩ := hgrid
      have := rounded_le q (-2^exponent q) ⟨-z, by rw [hz]; push_cast; ring⟩ (by linarith)
      linarith [(abs_lt.mp hlt).1]
    · rw [abs_of_nonneg hpos] at hbound
      linarith

theorem double_lt (a : ℚ) (ha : toDouble a = .finite a) : |a| < 2^1024 := by
  by_cases h0 : a = 0
  · rw [h0, abs_zero]
    positivity
  · rw [toDouble_eq a h0] at ha
    split_ifs at ha with hlarge
    rw [← JsNumber.finite.inj ha]
    exact not_le.mp hlarge

theorem toDouble_between (a b q : ℚ) (ha : toDouble a = .finite a) (hb : toDouble b = .finite b)
    (haq : a ≤ q) (hqb : q ≤ b) : ∃ r, toDouble q = .finite r ∧ a ≤ r ∧ r ≤ b := by
  by_cases hq : q = 0
  · exact ⟨0, by rw [hq]; rfl, hq ▸ haq, hq ▸ hqb⟩
  · have hlow := le_rounded_of_double a q ha hq haq
    have hhigh := rounded_le_of_double b q hb hq hqb
    have hfinite : ¬(2 : ℚ)^1024 ≤ |rounded q| := by
      have h1 := abs_lt.mp (double_lt a ha)
      have h2 := abs_lt.mp (double_lt b hb)
      rw [not_le, abs_lt]
      constructor
      · exact h1.1.trans_le hlow
      · exact hhigh.trans_lt h2.2
    exact ⟨rounded q, by rw [toDouble_eq q hq, if_neg hfinite], hlow, hhigh⟩

theorem le_toDouble (a q : ℚ) (ha : toDouble a = .finite a) (h : a ≤ q) :
    (∃ r, toDouble q = .finite r ∧ a ≤ r) ∨ toDouble q = .infinite false := by
  by_cases hq : q = 0
  · exact Or.inl ⟨0, by rw [hq]; rfl, hq ▸ h⟩
  · have hlow := le_rounded_of_double a q ha hq h
    by_cases hlarge : (2 : ℚ)^1024 ≤ |rounded q|
    · right
      have habove := (abs_lt.mp (double_lt a ha)).1.trans_le hlow
      have hpos : ¬rounded q < 0 := by
        intro hneg
        rw [abs_of_neg hneg, le_neg] at hlarge
        exact not_le.mpr habove hlarge
      rw [toDouble_eq q hq, if_pos hlarge, decide_eq_false hpos]
    · exact Or.inl ⟨rounded q, by rw [toDouble_eq q hq, if_neg hlarge], hlow⟩

theorem toDouble_le (b q : ℚ) (hb : toDouble b = .finite b) (h : q ≤ b) :
    (∃ r, toDouble q = .finite r ∧ r ≤ b) ∨ toDouble q = .infinite true := by
  by_cases hq : q = 0
  · exact Or.inl ⟨0, by rw [hq]; rfl, hq ▸ h⟩
  · have hhigh := rounded_le_of_double b q hb hq h
    by_cases hlarge : (2 : ℚ)^1024 ≤ |rounded q|
    · right
      have hbelow := hhigh.trans_lt (abs_lt.mp (double_lt b hb)).2
      have hneg : rounded q < 0 := by
        by_contra hpos
        rw [abs_of_nonneg (not_lt.mp hpos)] at hlarge
        exact not_le.mpr hbelow hlarge
      rw [toDouble_eq q hq, if_pos hlarge, decide_eq_true hneg]
    · exact Or.inl ⟨rounded q, by rw [toDouble_eq q hq, if_neg hlarge], hhigh⟩

def Below : JsNumber → JsNumber → Prop
  | .infinite true, _ => True
  | .finite p, .finite q => p ≤ q
  | _, .infinite false => True
  | _, _ => False

theorem toDouble_mono (p q : ℚ) (h : p ≤ q) : Below (toDouble p) (toDouble q) := by
  have hr : rounded p ≤ rounded q := rounded_mono p q h
  rw [toDouble_rounded p, toDouble_rounded q]
  split_ifs with hbig hbig' hbig'
  · by_cases hneg : rounded p < 0
    · simp [Below, hneg]
    · have : ¬rounded q < 0 := by linarith
      simp [Below, hneg, this]
  · by_cases hneg : rounded p < 0
    · simp [Below, hneg]
    · rw [abs_of_nonneg (not_lt.mp hneg)] at hbig
      exact (hbig' ((hbig.trans hr).trans (le_abs_self _))).elim
  · have hneg : ¬rounded q < 0 := by
      intro hneg
      rw [abs_of_neg hneg] at hbig'
      exact hbig ((hbig'.trans (neg_le_neg hr)).trans (neg_le_abs _))
    simp [Below, hneg]
  · exact hr

theorem double_of_grid (q : ℚ) (hgrid : OnGrid (spacing q) q) (hlt : |q| < 2^1024) :
    toDouble q = .finite q := by
  by_cases hq : q = 0
  · rw [hq]
    rfl
  · have hself : rounded q = q :=
      le_antisymm (rounded_le q q hgrid le_rfl) (le_rounded q q hgrid le_rfl)
    rw [toDouble_eq q hq, hself, if_neg (not_le.mpr hlt)]

theorem toDouble_int (z : ℤ) (hz : |z| ≤ 2^53) : toDouble z = .finite z := by
  by_cases h0 : (z : ℚ) = 0
  · rw [h0]
    rfl
  have hle : |(z : ℚ)| ≤ 2^53 := by exact_mod_cast hz
  have hexp := (exponent_spec z h0).1.trans hle
  apply double_of_grid
  · have he : exponent z ≤ 53 := by
      rw [← zpow_natCast] at hexp
      exact (zpow_le_zpow_iff_right₀ (by norm_num)).mp hexp
    by_cases h53 : exponent z = 53
    · rw [h53] at hexp
      have habs : |(z : ℚ)| = 2^53 := by
        have := (exponent_spec z h0).1
        rw [h53] at this
        exact le_antisymm hle (by exact_mod_cast this)
      have hspace : spacing z = 2 := by
        rw [spacing, h53]
        norm_num
      rw [hspace]
      rcases abs_choice (z : ℚ) with hz | hz
      · exact ⟨2^52, by rw [← hz, habs]; norm_num⟩
      · exact ⟨-2^52, by rw [← neg_neg (z : ℚ), ← hz, habs]; norm_num⟩
    · apply grid_coarser _ 0 (by omega)
      exact ⟨z, by simp⟩
  · exact hle.trans_lt (pow_lt_pow_right₀ (by norm_num) (by norm_num))

end ControlPlane.DoubleRounding
