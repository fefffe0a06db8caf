import ControlPlane.ConfigNumber
import ControlPlane.DoubleRounding

/-!
# Delays of webhook retries

The backoff quadruples in doubles with every attempt. The delay of the timer
and the date of the next retry hold up to the ninth attempt, so the setting is
safe up to ten; past it the timer of Node falls back to one millisecond.
-/

set_option autoImplicit false

namespace ControlPlane.RetryBackoff
open ControlPlane.JsText ControlPlane.JsValue ControlPlane.ConfigNumber
open ControlPlane.DoubleRounding (le_toDouble toDouble_int toDouble_le)

def webhookRetryAttempts (v : Option Text) : ℚ := readNumber v 3

/-- `30_000 * Math.pow(4, attempts - 1)` -/
def backoffMs (attempts : ℕ) : JsNumber :=
  timesPositive 30000 (toDouble ((4 : ℚ)^((attempts : ℤ)-1)))

/-- The text of the next retry's date, or nothing when its date is invalid. -/
def nextRetryAt (now : Instant) (attempts : ℕ) : Option Instant :=
  toISOString (plusMs now (backoffMs attempts))

/-- `toISOString` writes the years from 0000 to 9999 with four digits. -/
def firstInstant : Instant := -62167219200000

def lastInstant : Instant := 253402300799999

def atMost (bound : ℚ) : JsNumber → Bool
  | .finite q => q ≤ bound
  | .infinite negative => negative

/-- What the delay and the date of a retry have to meet. -/
structure Kept (now : Instant) (attempts : ℕ) : Prop where
  honoured : atMost timeoutMax (backoffMs attempts) = true
  dated : ∃ t, nextRetryAt now attempts = some t ∧ firstInstant ≤ t ∧ t ≤ lastInstant
  due : atMost (timerDelay (backoffMs attempts)) (backoffMs attempts) = true

def Retried (limit : ℚ) (attempts : ℕ) : Prop := 1 ≤ attempts ∧ (attempts : ℚ) < limit

def exactMs (attempts : ℕ) : ℤ := 30000*4^(attempts-1)

theorem exactMs_mono (m n : ℕ) (h : m ≤ n) : exactMs m ≤ exactMs n := by
  have hpow : (4 : ℤ)^(m-1) ≤ 4^(n-1) := pow_le_pow_right₀ (by norm_num) (by omega)
  unfold exactMs
  omega

theorem exactMs_pos (n : ℕ) : 30000 ≤ exactMs n := by
  have hpow : (1 : ℤ) ≤ 4^(n-1) := one_le_pow₀ (by norm_num)
  unfold exactMs
  omega

theorem power_eq (n : ℕ) (hn : 1 ≤ n) : (4 : ℚ)^((n : ℤ)-1) = ((4^(n-1) : ℤ) : ℚ) := by
  have he : (n : ℤ)-1 = ((n-1 : ℕ) : ℤ) := by omega
  rw [he, zpow_natCast]
  push_cast
  rfl

theorem backoff_exact (n : ℕ) (hn : 1 ≤ n) (hle : n ≤ 20) :
    backoffMs n = .finite (exactMs n) := by
  have hmono := exactMs_mono n 20 hle
  have htop : exactMs 20 ≤ 2^53 := by decide
  have hpos := exactMs_pos n
  have hpow : (4 : ℤ)^(n-1) ≤ exactMs n := by
    have hone : (0 : ℤ) < 4^(n-1) := by positivity
    unfold exactMs
    omega
  have hfour : |(4 : ℤ)^(n-1)| ≤ 2^53 := by
    rw [abs_of_pos (by positivity)]
    omega
  have hall : |exactMs n| ≤ 2^53 := by
    rw [abs_of_pos (by omega)]
    omega
  rw [backoffMs, power_eq n hn, toDouble_int _ hfour, timesPositive]
  have hmul : (30000 : ℚ)*((4^(n-1) : ℤ) : ℚ) = (exactMs n : ℚ) := by
    unfold exactMs
    push_cast
    rfl
  rw [hmul, toDouble_int _ hall]

theorem backoff_large (m n : ℕ) (hm : 1 ≤ m) (hmn : m ≤ n)
    (hfour : toDouble ((4^(m-1) : ℤ) : ℚ) = .finite ((4^(m-1) : ℤ) : ℚ))
    (hexact : toDouble (exactMs m) = .finite (exactMs m)) :
    (∃ r : ℚ, backoffMs n = .finite r ∧ exactMs m ≤ r) ∨ backoffMs n = .infinite false := by
  have hpow : (4 : ℤ)^(m-1) ≤ 4^(n-1) := pow_le_pow_right₀ (by norm_num) (by omega)
  have hcast : ((4^(m-1) : ℤ) : ℚ) ≤ ((4^(n-1) : ℤ) : ℚ) := by exact_mod_cast hpow
  rw [backoffMs, power_eq n (hm.trans hmn)]
  rcases le_toDouble _ _ hfour hcast with ⟨p, hp, hmp⟩ | hinf
  · rw [hp, timesPositive]
    apply le_toDouble _ _ hexact
    unfold exactMs
    push_cast at hmp ⊢
    linarith
  · rw [hinf]
    exact Or.inr rfl

/-- From ten attempts on the delay is more than a timer takes. -/
theorem overflow (n : ℕ) (hn : 10 ≤ n) : atMost timeoutMax (backoffMs n) = false ∧
    timerDelay (backoffMs n) = 1 := by
  have hten : (timeoutMax : ℚ) < exactMs 10 := by
    exact_mod_cast (by decide : timeoutMax < exactMs 10)
  rcases backoff_large 10 n (by norm_num) hn (toDouble_int _ (by decide))
    (toDouble_int _ (by decide)) with ⟨r, hr, hle⟩ | hinf
  · have hlt := hten.trans_le hle
    rw [hr, atMost, timerDelay_over r hlt]
    exact ⟨decide_eq_false (not_le.mpr hlt), rfl⟩
  · rw [hinf]
    exact ⟨rfl, rfl⟩

theorem fits (n : ℕ) (hle : n ≤ 9) : exactMs n ≤ timeoutMax :=
  (exactMs_mono n 9 hle).trans (by decide)

theorem honoured_exact (n : ℕ) (hn : 1 ≤ n) (hle : n ≤ 9) :
    atMost timeoutMax (backoffMs n) = true ∧ timerDelay (backoffMs n) = exactMs n := by
  have hfits := fits n hle
  have hpos := exactMs_pos n
  rw [backoff_exact n hn (by omega)]
  constructor
  · exact decide_eq_true (by exact_mod_cast hfits)
  · exact timerDelay_int _ (by omega) hfits

theorem toISOString_int (t : ℤ) (h : |t| ≤ maxDateMs) : toISOString (.finite t) = some t := by
  have hrange : |(t : ℚ)| ≤ (maxDateMs : ℚ) := by exact_mod_cast h
  rw [toISOString, if_pos hrange, Int.floor_intCast, Int.ceil_intCast, ite_self]

theorem toISOString_beyond (q : ℚ) (h : (maxDateMs : ℚ) < |q|) :
    toISOString (.finite q) = none := by
  rw [toISOString, if_neg (not_le.mpr h)]

theorem beyond (z : ℤ) (h : maxDateMs < |z|) : toISOString (toDouble z) = none := by
  have hedge : ((maxDateMs+1 : ℤ) : ℚ) = maxDateMs+1 := by push_cast; rfl
  rcases lt_abs.mp h with hpos | hneg
  · have hle : ((maxDateMs+1 : ℤ) : ℚ) ≤ z := by exact_mod_cast hpos
    rcases le_toDouble _ _ (toDouble_int _ (by decide)) hle with ⟨r, hr, hr'⟩ | hinf
    · rw [hr]
      apply toISOString_beyond
      exact lt_of_lt_of_le (by linarith) (le_abs_self r)
    · rw [hinf]
      rfl
  · have hle : (z : ℚ) ≤ ((-(maxDateMs+1) : ℤ) : ℚ) := by
      exact_mod_cast (by omega : z ≤ -(maxDateMs+1))
    rcases toDouble_le _ _ (toDouble_int _ (by decide)) hle with ⟨r, hr, hr'⟩ | hinf
    · rw [hr]
      apply toISOString_beyond
      push_cast at hr'
      exact lt_of_lt_of_le (by linarith) (neg_le_abs r)
    · rw [hinf]
      rfl

theorem toISOString_whole (z : ℤ) : toISOString (toDouble z) =
    if |z| ≤ maxDateMs then some z else none := by
  by_cases h : |z| ≤ maxDateMs
  · rw [if_pos h, toDouble_int z (h.trans (by decide)), toISOString_int z h]
  · rw [if_neg h, beyond z (not_le.mp h)]

theorem nextRetryAt_exact (now : Instant) (n : ℕ) (hn : 1 ≤ n) (hle : n ≤ 20) :
    nextRetryAt now n = if |now+exactMs n| ≤ maxDateMs then some (now+exactMs n) else none := by
  have hsum : (now : ℚ)+(exactMs n : ℚ) = ((now+exactMs n : ℤ) : ℚ) := by push_cast; rfl
  rw [nextRetryAt, backoff_exact n hn hle, plusMs, hsum, toISOString_whole]

theorem nextRetryAt_some (now t : Instant) (n : ℕ) (hn : 1 ≤ n) (hle : n ≤ 20)
    (h : nextRetryAt now n = some t) : t = now+exactMs n := by
  rw [nextRetryAt_exact now n hn hle] at h
  split_ifs at h
  exact (Option.some.inj h).symm

theorem nextRetryAt_far (now : Instant) (hnow : -maxDateMs ≤ now) (n : ℕ) (hn : 20 < n) :
    nextRetryAt now n = none := by
  have htop : 2*maxDateMs < exactMs 21 := by decide
  rw [nextRetryAt]
  rcases backoff_large 21 n (by norm_num) hn (by decide +kernel)
    (by decide +kernel) with ⟨r, hr, hle⟩ | hinf
  · have hsum : ((maxDateMs+1 : ℤ) : ℚ) ≤ now+r := by
      have hlow : -(maxDateMs : ℚ) ≤ now := by exact_mod_cast hnow
      have htop' : 2*(maxDateMs : ℚ)+1 ≤ exactMs 21 := by exact_mod_cast htop
      push_cast
      linarith
    rw [hr, plusMs]
    rcases le_toDouble _ _ (toDouble_int _ (by decide)) hsum with ⟨s, hs, hs'⟩ | hinf'
    · rw [hs]
      apply toISOString_beyond
      push_cast at hs'
      exact lt_of_lt_of_le (by linarith) (le_abs_self s)
    · rw [hinf']
      rfl
  · rw [hinf]
    rfl

theorem toISOString_range (x : JsNumber) (t : Instant) (h : toISOString x = some t) :
    -maxDateMs ≤ t := by
  cases x with
  | infinite negative => cases h
  | finite q =>
    simp only [toISOString] at h
    split_ifs at h with hbound hsign
    · rw [← Option.some.inj h]
      exact (by decide : -maxDateMs ≤ 0).trans (Int.floor_nonneg.mpr hsign)
    · rw [← Option.some.inj h]
      have hlow : ((-maxDateMs : ℤ) : ℚ) ≤ q := by
        push_cast
        exact (abs_le.mp hbound).1
      exact_mod_cast hlow.trans (Int.le_ceil q)

theorem nextRetryAt_later (now t : Instant) (n : ℕ) (hn : 1 ≤ n)
    (h : nextRetryAt now n = some t) : now < t := by
  by_cases hle : n ≤ 20
  · have hpos := exactMs_pos n
    rw [nextRetryAt_some now t n hn hle h]
    exact Int.lt_add_of_pos_right now (by omega)
  · by_contra hpast
    have hnow := (toISOString_range _ t h).trans (not_lt.mp hpast)
    rw [nextRetryAt_far now hnow n (not_le.mp hle)] at h
    cases h

theorem kept_iff (now : Instant) (n : ℕ) (hn : 1 ≤ n) : Kept now n ↔
    n ≤ 9 ∧ firstInstant ≤ now+exactMs n ∧ now+exactMs n ≤ lastInstant := by
  constructor
  · intro h
    have hnine : n ≤ 9 := by
      by_contra hten
      have hover := (overflow n (by omega)).1
      rw [h.honoured] at hover
      cases hover
    obtain ⟨t, ht, hfirst, hlast⟩ := h.dated
    rw [nextRetryAt_exact now n hn (by omega)] at ht
    split_ifs at ht with hdate
    cases ht
    exact ⟨hnine, hfirst, hlast⟩
  · rintro ⟨hnine, hfirst, hlast⟩
    obtain ⟨honoured, hdelay⟩ := honoured_exact n hn hnine
    constructor
    · exact honoured
    · have hdate : |now+exactMs n| ≤ maxDateMs :=
        abs_le.mpr ⟨le_trans (by decide) hfirst, le_trans hlast (by decide)⟩
      rw [nextRetryAt_exact now n hn (by omega), if_pos hdate]
      exact ⟨_, rfl, hfirst, hlast⟩
    · rw [hdelay, backoff_exact n hn (by omega)]
      exact decide_eq_true le_rfl

/-- The retries are as meant exactly for settings up to ten, by a clock that
keeps the first and the last of them within the years of four digits. -/
theorem backoff_kept_iff (v : Option Text) (now : Instant) :
    (∀ attempts, Retried (webhookRetryAttempts v) attempts → Kept now attempts) ↔
      webhookRetryAttempts v ≤ 1 ∨ webhookRetryAttempts v ≤ 10 ∧
        firstInstant ≤ now+30000 ∧
          now+30000*4^(⌈webhookRetryAttempts v⌉-2).toNat ≤ lastInstant := by
  generalize webhookRetryAttempts v = limit
  constructor
  · intro h
    by_cases hone : limit ≤ 1
    · exact Or.inl hone
    · right
      have hceil : 1 < ⌈limit⌉ := Int.lt_ceil.mpr (by exact_mod_cast not_le.mp hone)
      have hbelow : ((⌈limit⌉-1 : ℤ) : ℚ) < limit := Int.lt_ceil.mp (by omega)
      have hlast := (kept_iff now (⌈limit⌉-1).toNat (by omega)).mp (h _ ⟨by omega, by
        have hcast : (((⌈limit⌉-1).toNat : ℕ) : ℚ) = ((⌈limit⌉-1 : ℤ) : ℚ) := by
          exact_mod_cast Int.toNat_of_nonneg (by omega : 0 ≤ ⌈limit⌉-1)
        rw [hcast]
        exact hbelow⟩)
      have hfirst := (kept_iff now 1 le_rfl).mp (h 1 ⟨le_rfl, by exact_mod_cast not_le.mp hone⟩)
      have hindex : (⌈limit⌉-1).toNat-1 = (⌈limit⌉-2).toNat := by omega
      rw [exactMs, hindex] at hlast
      constructor
      · have hten : ⌈limit⌉ ≤ 10 := by omega
        exact (Int.le_ceil limit).trans (by exact_mod_cast hten)
      · exact ⟨hfirst.2.1, hlast.2.2⟩
  · rintro h n ⟨hn, hlt⟩
    rcases h with hone | ⟨hten, hfirst, hlast⟩
    · have hn' : (1 : ℚ) ≤ n := by exact_mod_cast hn
      exact absurd (hlt.trans_le hone) (not_lt.mpr hn')
    · have hnine : n < 10 := by exact_mod_cast hlt.trans_le hten
      have hceil : (n : ℤ) < ⌈limit⌉ := Int.lt_ceil.mpr (by exact_mod_cast hlt)
      rw [kept_iff now n hn]
      have hlow : 30000 ≤ exactMs n := exactMs_pos n
      have hhigh : exactMs n ≤ 30000*4^(⌈limit⌉-2).toNat :=
        exactMs_mono n ((⌈limit⌉-2).toNat+1) (by omega)
      constructor
      · omega
      constructor
      · linarith
      · linarith

/-- With eleven attempts the tenth retry comes after a millisecond; it is
meant for the end of a hundred days. -/
theorem eleven_spins : webhookRetryAttempts (some (js "11")) = 11 ∧
    Retried (webhookRetryAttempts (some (js "11"))) 10 ∧
    backoffMs 10 = .finite 7864320000 ∧ timerDelay (backoffMs 10) = 1 ∧
    ¬∀ attempts, Retried (webhookRetryAttempts (some (js "11"))) attempts →
      Kept 1700000000000 attempts := by
  have hlimit : webhookRetryAttempts (some (js "11")) = 11 := by decide +kernel
  have hretried : Retried (webhookRetryAttempts (some (js "11"))) 10 := by
    rw [hlimit, Retried]
    norm_num
  constructor
  · exact hlimit
  constructor
  · exact hretried
  constructor
  · exact backoff_exact 10 (by norm_num) (by norm_num)
  constructor
  · exact (overflow 10 le_rfl).2
  · intro h
    have hnine := ((kept_iff _ 10 (by norm_num)).mp (h 10 hretried)).1
    omega

end ControlPlane.RetryBackoff
