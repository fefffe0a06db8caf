import Mathlib.Data.List.Basic
import Mathlib.Tactic.Common

/-!
# Strings of sixteen-bit code units

A string is a list of UTF-16 code units, in which a surrogate may stand alone.
Its length in code points is what a column of bounded width counts. Encoding
to UTF-8 replaces every lone surrogate by U+FFFD and keeps that length.
-/

set_option autoImplicit false

namespace ControlPlane.JsText

abbrev Text := List UInt16

instance decidableMemTexts (t : Text) (ts : List Text) : Decidable (t ∈ ts) :=
  List.instDecidableMemOfLawfulBEq t ts

def encode (c : Char) : Text :=
  if c.val < 0x10000 then [c.val.toUInt16]
  else [((c.val-0x10000)/0x400+0xD800).toUInt16, ((c.val-0x10000)%0x400+0xDC00).toUInt16]

/-- The bytes of an ASCII text are its code units. -/
def js (s : String) : Text :=
  let bytes := s.toByteArray.data.toList
  if bytes.all (· < 0x80) then bytes.map (·.toUInt16) else s.toList.flatMap encode

def isHigh (u : UInt16) : Bool := 0xD800 ≤ u && u ≤ 0xDBFF

def isLow (u : UInt16) : Bool := 0xDC00 ≤ u && u ≤ 0xDFFF

def dot : UInt16 := 0x2E

def isDigit (u : UInt16) : Bool := 0x30 ≤ u && u ≤ 0x39

def lowerUnit (u : UInt16) : UInt16 := if 0x41 ≤ u && u ≤ 0x5A then u+0x20 else u

def hexUnit (d : ℕ) : UInt16 := if d < 10 then 0x30+d.toUInt16 else 0x57+d.toUInt16

/-- `A-Z a-z 0-9 _ -`, at least one. -/
def isBase64url (t : Text) : Bool :=
  !t.isEmpty && t.all (fun u => (0x41 ≤ u && u ≤ 0x5A) || (0x61 ≤ u && u ≤ 0x7A) ||
    (0x30 ≤ u && u ≤ 0x39) || u = 0x5F || u = 0x2D)

theorem isBase64url_dot (t : Text) (h : isBase64url t = true) : dot ∉ t := by
  intro hd
  simp only [isBase64url, Bool.and_eq_true, List.all_eq_true] at h
  have := h.2 _ hd
  revert this
  decide

def hasNul (t : Text) : Bool := t.contains 0

/-- `[...value].length`: a surrogate pair is one element, a lone one too. -/
def codePoints : Text → ℕ
  | [] => 0
  | [_] => 1
  | u::v::rest => if isHigh u && isLow v then codePoints rest+1 else codePoints (v::rest)+1

def pastCodePoints : ℕ → Text → Text
  | 0, t => t
  | _+1, [] => []
  | _+1, [_] => []
  | n+1, u::v::rest =>
    if isHigh u && isLow v then pastCodePoints n rest else pastCodePoints n (v::rest)

def firstCodePoints : ℕ → Text → Text
  | 0, _ => []
  | _+1, [] => []
  | _+1, [u] => [u]
  | n+1, u::v::rest =>
    if isHigh u && isLow v then u::v::firstCodePoints n rest
    else u::firstCodePoints n (v::rest)

def isWellFormed : Text → Bool
  | [] => true
  | [u] => !isHigh u && !isLow u
  | u::v::rest =>
    if isHigh u && isLow v then isWellFormed rest
    else !isHigh u && !isLow u && isWellFormed (v::rest)

def toWellFormed : Text → Text
  | [] => []
  | [u] => if isHigh u || isLow u then [0xFFFD] else [u]
  | u::v::rest =>
    if isHigh u && isLow v then u::v::toWellFormed rest
    else (if isHigh u || isLow u then 0xFFFD else u)::toWellFormed (v::rest)

theorem toWellFormed_of_isWellFormed (t : Text) (h : isWellFormed t = true) :
    toWellFormed t = t := by
  induction t using isWellFormed.induct with
  | case1 => rfl
  | case2 u => simp_all [toWellFormed, isWellFormed]
  | case3 u v rest hp ih =>
    simp only [isWellFormed, hp, if_true] at h
    simp [toWellFormed, hp, ih h]
  | case4 u v rest hp ih =>
    simp only [isWellFormed, hp, Bool.false_eq_true, if_false, Bool.and_eq_true,
      Bool.not_eq_true'] at h
    simp [toWellFormed, h.1.1, h.1.2, ih h.2]

theorem isWellFormed_cons_plain (u : UInt16) (t : Text) (h : isHigh u = false)
    (hl : isLow u = false) : isWellFormed (u::t) = isWellFormed t := by
  cases t with
  | nil => simp [isWellFormed, h, hl]
  | cons v rest => simp [isWellFormed, h, hl]

theorem isWellFormed_toWellFormed (t : Text) : isWellFormed (toWellFormed t) = true := by
  induction t using isWellFormed.induct with
  | case1 => rfl
  | case2 u =>
    by_cases hu : isHigh u = true ∨ isLow u = true
    · simp only [toWellFormed, Bool.or_eq_true, hu, if_true]
      decide
    · simp only [not_or, Bool.not_eq_true] at hu
      simp [toWellFormed, isWellFormed, hu.1, hu.2]
  | case3 u v rest hp ih => simp [toWellFormed, isWellFormed, hp, ih]
  | case4 u v rest hp ih =>
    simp only [toWellFormed, hp, Bool.false_eq_true, if_false]
    by_cases hu : isHigh u = true ∨ isLow u = true
    · simp only [Bool.or_eq_true, hu, if_true]
      rw [isWellFormed_cons_plain _ _ (by decide) (by decide)]
      exact ih
    · simp only [not_or, Bool.not_eq_true] at hu
      simp only [hu.1, hu.2, Bool.or_self, Bool.false_eq_true, if_false]
      rw [isWellFormed_cons_plain _ _ hu.1 hu.2]
      exact ih

theorem zero_mem_toWellFormed (t : Text) : 0 ∈ toWellFormed t ↔ 0 ∈ t := by
  have hne : ∀ u : UInt16, 0 = (if (isHigh u || isLow u) = true then 0xFFFD else u) ↔ 0 = u := by
    intro u
    by_cases hu : (isHigh u || isLow u) = true
    · rw [if_pos hu]
      refine ⟨fun h => absurd h (by decide), ?_⟩
      rintro rfl
      exact absurd hu (by decide)
    · rw [if_neg hu]
  induction t using isWellFormed.induct with
  | case1 => simp [toWellFormed]
  | case2 u =>
    simp only [toWellFormed]
    split
    · next hu => simpa [hu] using hne u
    · rfl
  | case3 u v rest hp ih => simp [toWellFormed, hp, ih]
  | case4 u v rest hp ih =>
    simp only [toWellFormed, hp, Bool.false_eq_true, if_false, List.mem_cons, ih, hne u]

theorem hasNul_toWellFormed (t : Text) : hasNul (toWellFormed t) = hasNul t := by
  rw [Bool.eq_iff_iff]
  simp only [hasNul, List.contains_iff_mem, zero_mem_toWellFormed]

theorem codePoints_le_length (t : Text) : codePoints t ≤ t.length := by
  induction t using codePoints.induct with
  | case1 => simp [codePoints]
  | case2 u => simp [codePoints]
  | case3 u v rest hp ih =>
    simp only [codePoints, hp, if_true, List.length_cons]
    omega
  | case4 u v rest hp ih =>
    simp only [codePoints, hp, Bool.false_eq_true, if_false, List.length_cons] at *
    omega

theorem codePoints_cons (u : UInt16) (t : Text) (h : isHigh u = false) :
    codePoints (u::t) = codePoints t+1 := by
  cases t with
  | nil => rfl
  | cons v rest => simp [codePoints, h]

theorem first_append_past (n : ℕ) (t : Text) :
    firstCodePoints n t++pastCodePoints n t = t := by
  induction n, t using firstCodePoints.induct with
  | case1 t => simp [firstCodePoints, pastCodePoints]
  | case2 n => rfl
  | case3 n u => rfl
  | case4 n u v rest hp ih => simp [firstCodePoints, pastCodePoints, hp, ih]
  | case5 n u v rest hp ih => simp [firstCodePoints, pastCodePoints, hp, ih]

theorem pastCodePoints_nil (n : ℕ) (t : Text) :
    pastCodePoints n t = [] ↔ codePoints t ≤ n := by
  induction n, t using firstCodePoints.induct with
  | case1 t =>
    cases t with
    | nil => simp [pastCodePoints, codePoints]
    | cons u rest =>
      have hpos : 0 < codePoints (u::rest) := by
        cases rest with
        | nil => simp [codePoints]
        | cons v rest =>
          rw [codePoints]
          split_ifs <;> omega
      simp only [pastCodePoints, reduceCtorEq, false_iff]
      omega
  | case2 n => simp [pastCodePoints, codePoints]
  | case3 n u => simp [pastCodePoints, codePoints]
  | case4 n u v rest hp ih => simp [pastCodePoints, codePoints, hp, ih]
  | case5 n u v rest hp ih => simp [pastCodePoints, codePoints, hp, ih]

theorem firstCodePoints_of_le (n : ℕ) (t : Text) (h : codePoints t ≤ n) :
    firstCodePoints n t = t := by
  have happend := first_append_past n t
  rwa [(pastCodePoints_nil n t).mpr h, List.append_nil] at happend

theorem codePoints_toWellFormed (t : Text) : codePoints (toWellFormed t) = codePoints t := by
  have hlow : ∀ u : UInt16,
      isHigh (if (isHigh u || isLow u) = true then 0xFFFD else u) = false := by
    intro u
    split_ifs with hu
    · decide
    · rw [Bool.not_eq_true, Bool.or_eq_false_iff] at hu
      exact hu.1
  induction t using toWellFormed.induct with
  | case1 => rfl
  | case2 u hu => simp [toWellFormed, hu, codePoints]
  | case3 u hu => simp [toWellFormed, hu, codePoints]
  | case4 u v rest hp ih => simp [toWellFormed, hp, codePoints, ih]
  | case5 u v rest hp ih =>
    simp only [toWellFormed, hp, Bool.false_eq_true, if_false]
    rw [codePoints_cons _ _ (hlow u), ih, codePoints, if_neg hp]

theorem toWellFormed_filled (t : Text) (h : t ≠ []) : toWellFormed t ≠ [] := by
  cases t with
  | nil => exact absurd rfl h
  | cons u rest =>
    cases rest with
    | nil =>
      rw [toWellFormed]
      split_ifs <;> simp
    | cons v rest =>
      rw [toWellFormed]
      split_ifs <;> simp

end ControlPlane.JsText
