import Mathlib.Data.List.Basic
import ControlPlane.JsValue

/-!
# Request checks

The identifier patterns, the AID pattern and the column check that the routes
share. A `uuid` column keeps its value in lower case.
-/

set_option autoImplicit false

namespace ControlPlane.HttpValidate
open ControlPlane.JsText ControlPlane.JsValue

structure Problem where
  status : ℕ
  error : Text
  code : Text
  deriving DecidableEq, Repr

def badRequest (error : Text) : Problem := ⟨400, error, js "BODY_INVALID"⟩

def dash : UInt16 := 0x2D

def isLowerHex (u : UInt16) : Bool := isDigit u || (0x61 ≤ u && u ≤ 0x66)

def isHex (u : UInt16) : Bool := isLowerHex u || (0x41 ≤ u && u ≤ 0x46)

/-- Digits in groups of 8, 4, 4, 4 and 12, with a pattern for the first digit
of the third and of the fourth group. -/
def uuidShape (digit version variant : UInt16 → Bool) (t : Text) : Bool :=
  match t.splitOn dash with
  | [a, b, c, d, e] =>
    a.length = 8 && b.length = 4 && c.length = 4 && d.length = 4 && e.length = 12 &&
      (a++b++c++d++e).all digit && (c.take 1).all version && (d.take 1).all variant
  | _ => false

def isLowerVariant (u : UInt16) : Bool := u = 0x38 || u = 0x39 || u = 0x61 || u = 0x62

def isVariant (u : UInt16) : Bool := isLowerVariant u || u = 0x41 || u = 0x42

/-- `JTI_UUID_RE` -/
def isJtiUuid : Text → Bool := uuidShape isHex (fun u => 0x31 ≤ u && u ≤ 0x35) isVariant

/-- `JTI_V4_RE` -/
def isJtiV4 : Text → Bool := uuidShape isLowerHex (· = 0x34) isLowerVariant

/-- `ANY_UUID_RE` -/
def isUuid : Text → Bool := uuidShape isHex (fun _ => true) (fun _ => true)

theorem all_mono (p q : UInt16 → Bool) (h : ∀ u, p u = true → q u = true) (t : Text)
    (ht : t.all p = true) : t.all q = true :=
  List.all_eq_true.mpr (fun u hu => h u (List.all_eq_true.mp ht u hu))

theorem uuidShape_mono (d v r d' v' r' : UInt16 → Bool) (hd : ∀ u, d u = true → d' u = true)
    (hv : ∀ u, v u = true → v' u = true) (hr : ∀ u, r u = true → r' u = true) (t : Text)
    (h : uuidShape d v r t = true) : uuidShape d' v' r' t = true := by
  simp only [uuidShape] at h ⊢
  split at h
  · simp only [Bool.and_eq_true] at h ⊢
    obtain ⟨⟨⟨hlen, hdigits⟩, hversion⟩, hvariant⟩ := h
    exact ⟨⟨⟨hlen, all_mono d d' hd _ hdigits⟩, all_mono v v' hv _ hversion⟩,
      all_mono r r' hr _ hvariant⟩
  · cases h

theorem isJtiUuid_of_isJtiV4 (t : Text) (h : isJtiV4 t = true) : isJtiUuid t = true := by
  apply uuidShape_mono _ _ _ _ _ _ ?_ ?_ ?_ t h
  · intro u hu
    simp [isHex, hu]
  · intro u hu
    simp only [decide_eq_true_eq] at hu
    subst hu
    decide
  · intro u hu
    simp [isVariant, hu]

/-- The text that a `uuid` column gives back. -/
def uuid (t : Text) : Text := t.map (fun u => if 0x41 ≤ u && u ≤ 0x5A then u+0x20 else u)

theorem mem_intercalate {α : Type*} (a u : α) (hne : u ≠ a) (parts : List (List α))
    (hu : u ∈ [a].intercalate parts) : ∃ part ∈ parts, u ∈ part := by
  induction parts with
  | nil => simp [List.intercalate] at hu
  | cons p ps ih =>
    cases ps with
    | nil => exact ⟨p, List.mem_cons_self, by simpa [List.intercalate] using hu⟩
    | cons q qs =>
      rw [List.intercalate_cons_cons] at hu
      simp only [List.mem_append, List.mem_singleton] at hu
      rcases hu with (hp | ha) | hq
      · exact ⟨p, List.mem_cons_self, hp⟩
      · exact (hne ha).elim
      · obtain ⟨part, hpart, hm⟩ := ih hq
        exact ⟨part, List.mem_cons_of_mem _ hpart, hm⟩

theorem mem_of_splitOn (a u : UInt16) (hne : u ≠ a) (t : Text) (hu : u ∈ t) :
    ∃ part ∈ t.splitOn a, u ∈ part := by
  have h : [a].intercalate (t.splitOn a) = t := List.intercalate_splitOn a
  exact mem_intercalate a u hne _ (h.symm ▸ hu)

theorem uuidShape_digits (d v r : UInt16 → Bool) (t : Text) (h : uuidShape d v r t = true)
    (u : UInt16) (hu : u ∈ t) : u = dash ∨ d u = true := by
  by_cases hne : u = dash
  · exact Or.inl hne
  · obtain ⟨part, hpart, hm⟩ := mem_of_splitOn dash u hne t hu
    right
    simp only [uuidShape] at h
    split at h
    case h_1 a b c e f hs =>
      simp only [Bool.and_eq_true, List.all_append] at h
      rw [hs] at hpart
      simp only [List.mem_cons, List.not_mem_nil, or_false, List.all_eq_true] at hpart h
      rcases hpart with rfl | rfl | rfl | rfl | rfl <;> tauto
    case h_2 => cases h

theorem uuid_of_isJtiV4 (t : Text) (h : isJtiV4 t = true) : uuid t = t := by
  simp only [uuid]
  conv_rhs => rw [← List.map_id t]
  apply List.map_congr_left (fun u hu => ?_)
  have hd := uuidShape_digits _ _ _ t h u hu
  have : (0x41 ≤ u && u ≤ 0x5A) = false := by
    rcases hd with rfl | hl
    · decide
    · simp only [isLowerHex, isDigit, Bool.or_eq_true, Bool.and_eq_true, decide_eq_true_eq,
        Bool.and_eq_false_iff, decide_eq_false_iff_not, UInt16.le_iff_toNat_le,
        UInt16.reduceToNat] at hl ⊢
      omega
  simp [this]

theorem uuidShape_length (d v r : UInt16 → Bool) (t : Text) (h : uuidShape d v r t = true) :
    t.length = 36 := by
  have hjoin : [dash].intercalate (t.splitOn dash) = t := List.intercalate_splitOn dash
  simp only [uuidShape] at h
  split at h
  case h_1 a b c e f hs =>
    simp only [Bool.and_eq_true, decide_eq_true_eq] at h
    obtain ⟨⟨⟨⟨⟨⟨⟨ha, hb⟩, hc⟩, he⟩, hf⟩, -⟩, -⟩, -⟩ := h
    rw [hs] at hjoin
    rw [← hjoin]
    simp only [List.intercalate_cons_cons, List.intercalate_singleton, List.length_append,
      List.length_singleton, ha, hb, hc, he, hf]
  case h_2 => cases h

theorem fitsVarchar_of_isUuid (n : ℕ) (hn : 36 ≤ n) (t : Text) (h : isUuid t = true) :
    fitsVarchar n t = true := by
  have hlen := (codePoints_le_length t).trans_eq (uuidShape_length _ _ _ t h)
  have hnul : hasNul t = false := by
    by_contra hc
    simp only [hasNul, Bool.not_eq_false, List.contains_iff_mem] at hc
    rcases uuidShape_digits _ _ _ t h 0 hc with h0 | h0
    · exact absurd h0 (by decide)
    · exact absurd h0 (by decide)
  simp only [fitsVarchar, hnul, Bool.not_false, Bool.true_and, decide_eq_true_eq]
  omega

/-- The length in UTF-8, where a lone surrogate becomes U+FFFD. -/
def utf8Length : Text → ℕ
  | [] => 0
  | [u] => if u < 0x80 then 1 else if u < 0x800 then 2 else 3
  | u::v::rest =>
    if isHigh u && isLow v then utf8Length rest+4
    else (if u < 0x80 then 1 else if u < 0x800 then 2 else 3)+utf8Length (v::rest)

def number (n : ℕ) : Text := js (toString n)

def checkColumnString (value field : Text) (max : ℕ) (maxBytes : Option ℕ) : Option Text :=
  if hasNul value then some (field++js " must not contain a NUL character")
  else if max < codePoints value then
    some (field++js " exceeds "++number max++js " character limit")
  else
    match maxBytes with
    | some bytes =>
      if bytes < utf8Length value then
        some (field++js " exceeds "++number bytes++js " byte limit")
      else none
    | none => none

theorem checkColumnString_none (value field : Text) (max : ℕ) (maxBytes : Option ℕ)
    (h : checkColumnString value field max maxBytes = none) : fitsVarchar max value = true := by
  unfold checkColumnString at h
  split at h
  · cases h
  · next hnul =>
    split at h
    · cases h
    · next hlen =>
      simp only [fitsVarchar, Bool.and_eq_true, Bool.not_eq_true', decide_eq_true_eq]
      exact ⟨by simpa using hnul, by omega⟩

theorem fitsVarchar_iff (max : ℕ) (t : Text) :
    fitsVarchar max t = true ↔ ¬(max < codePoints t ∨ 0 ∈ t) := by
  simp [fitsVarchar, hasNul, and_comm]

theorem fits_toWellFormed (n : ℕ) (t : Text) :
    fitsVarchar n (toWellFormed t) = fitsVarchar n t := by
  simp only [fitsVarchar, hasNul_toWellFormed, codePoints_toWellFormed]

theorem checkColumnString_iff (value field : Text) (max : ℕ) :
    checkColumnString value field max none = none ↔ ¬(max < codePoints value ∨ 0 ∈ value) := by
  unfold checkColumnString hasNul
  by_cases hnul : 0 ∈ value
  · simp [hnul]
  · by_cases hlen : max < codePoints value
    · simp [hnul, hlen]
    · simp [hnul, hlen]

def isAidUnit (u : UInt16) : Bool :=
  isDigit u || (0x41 ≤ u && u ≤ 0x5A) || (0x61 ≤ u && u ≤ 0x7A) || u = 0x3A || u = 0x2E ||
    u = 0x5F || u = 0x2D

/-- `AID_RE` -/
def isAid (t : Text) : Bool :=
  (js "aid:").isPrefixOf t &&
    (let name := t.drop 4
     1 ≤ name.length && name.length ≤ 500 && name.all isAidUnit)

theorem isAid_units (t : Text) (h : isAid t = true) : t.all isAidUnit = true := by
  simp only [isAid, Bool.and_eq_true, List.isPrefixOf_iff_prefix] at h
  obtain ⟨⟨name, rfl⟩, -, hunits⟩ := h
  have hdrop : (js "aid:"++name).drop 4 = name := rfl
  rw [hdrop] at hunits
  rw [List.all_append, hunits]
  decide

/-- `/^https?:\/\//` -/
def isHttpUrl (t : Text) : Bool :=
  (js "http://").isPrefixOf t || (js "https://").isPrefixOf t

end ControlPlane.HttpValidate
