import ControlPlane.JsText

/-!
# Texts as bytes

`TextEncoder` reads a text of code units as characters, where a lone surrogate
becomes U+FFFD, and writes their UTF-8. Decoding gives back every well-formed
text, also from the bytes of several chunks in a row.
-/

set_option autoImplicit false

namespace ControlPlane.Utf8Text
open ControlPlane.JsText

def pairChar (u v : UInt16) : Char :=
  Char.ofNat ((u.toNat-0xD800)*0x400+(v.toNat-0xDC00)+0x10000)

def unitChar (u : UInt16) : Char :=
  if isHigh u || isLow u then Char.ofNat 0xFFFD else Char.ofNat u.toNat

def chars : Text → List Char
  | [] => []
  | [u] => [unitChar u]
  | u::v::rest =>
    if isHigh u && isLow v then pairChar u v::chars rest else unitChar u::chars (v::rest)

def encodeUtf8 (t : Text) : List UInt8 := (chars t).flatMap String.utf8EncodeChar

def decodeUtf8 (bytes : List UInt8) : Option Text :=
  bytes.toByteArray.utf8Decode?.map (fun cs => cs.toList.flatMap encode)

theorem isHigh_iff (u : UInt16) : isHigh u = true ↔ 0xD800 ≤ u.toNat ∧ u.toNat ≤ 0xDBFF := by
  simp [isHigh, UInt16.le_iff_toNat_le]

theorem isLow_iff (u : UInt16) : isLow u = true ↔ 0xDC00 ≤ u.toNat ∧ u.toNat ≤ 0xDFFF := by
  simp [isLow, UInt16.le_iff_toNat_le]

theorem encode_unitChar (u : UInt16) (hh : isHigh u = false) (hl : isLow u = false) :
    encode (unitChar u) = [u] := by
  have hu : u.toNat < 65536 := u.toNat_lt
  have hvalid : u.toNat.isValidChar := by
    have h1 : ¬(0xD800 ≤ u.toNat ∧ u.toNat ≤ 0xDBFF) := by
      rw [← isHigh_iff, hh]
      decide
    have h2 : ¬(0xDC00 ≤ u.toNat ∧ u.toNat ≤ 0xDFFF) := by
      rw [← isLow_iff, hl]
      decide
    unfold Nat.isValidChar
    omega
  have hval : (unitChar u).val.toNat = u.toNat := by
    simp only [unitChar, hh, hl, Bool.or_self, Bool.false_eq_true, if_false]
    rw [Char.ofNat, dif_pos hvalid]
    rfl
  have hlt : (unitChar u).val < 0x10000 := by
    rw [UInt32.lt_iff_toNat_lt, hval]
    exact hu
  rw [encode, if_pos hlt]
  congr 1
  apply UInt16.toNat_inj.mp
  rw [UInt32.toNat_toUInt16, hval]
  omega

theorem encode_pairChar (u v : UInt16) (hh : isHigh u = true) (hl : isLow v = true) :
    encode (pairChar u v) = [u, v] := by
  rw [isHigh_iff] at hh
  rw [isLow_iff] at hl
  have hvalid : ((u.toNat-0xD800)*0x400+(v.toNat-0xDC00)+0x10000).isValidChar := by
    unfold Nat.isValidChar
    omega
  have hval : (pairChar u v).val.toNat = (u.toNat-0xD800)*0x400+(v.toNat-0xDC00)+0x10000 := by
    rw [pairChar, Char.ofNat, dif_pos hvalid]
    rfl
  have hge : ¬(pairChar u v).val < 0x10000 := by
    rw [UInt32.lt_iff_toNat_lt, hval]
    exact Nat.not_lt.mpr (Nat.le_add_left _ _)
  have hle : (0x10000 : UInt32) ≤ (pairChar u v).val := by
    rw [UInt32.le_iff_toNat_le, hval]
    exact Nat.le_add_left _ _
  have hsub : ((pairChar u v).val-0x10000).toNat = (u.toNat-0xD800)*0x400+(v.toNat-0xDC00) := by
    rw [UInt32.toNat_sub_of_le _ _ hle, hval]
    exact Nat.add_sub_cancel _ _
  have hfirst : (((pairChar u v).val-0x10000)/0x400+0xD800).toUInt16 = u := by
    apply UInt16.toNat_inj.mp
    rw [UInt32.toNat_toUInt16, UInt32.toNat_add, UInt32.toNat_div, hsub]
    simp only [UInt32.reduceToNat]
    omega
  have hsecond : (((pairChar u v).val-0x10000)%0x400+0xDC00).toUInt16 = v := by
    apply UInt16.toNat_inj.mp
    rw [UInt32.toNat_toUInt16, UInt32.toNat_add, UInt32.toNat_mod, hsub]
    simp only [UInt32.reduceToNat]
    omega
  rw [encode, if_neg hge, hfirst, hsecond]

theorem encode_replacement : encode (Char.ofNat 0xFFFD) = [0xFFFD] := by decide

theorem encode_unit (u : UInt16) :
    encode (unitChar u) = [if isHigh u || isLow u then 0xFFFD else u] := by
  by_cases h : (isHigh u || isLow u) = true
  · rw [unitChar, if_pos h, if_pos h, encode_replacement]
  · simp only [Bool.or_eq_true, not_or, Bool.not_eq_true] at h
    rw [encode_unitChar u h.1 h.2]
    simp [h.1, h.2]

theorem flatMap_encode_chars (t : Text) : (chars t).flatMap encode = toWellFormed t := by
  induction t using chars.induct with
  | case1 => rfl
  | case2 u =>
    rw [chars, toWellFormed, List.flatMap_cons, encode_unit]
    split <;> rfl
  | case3 u v rest hp ih =>
    rw [chars, toWellFormed, if_pos hp, if_pos hp, List.flatMap_cons, ih]
    simp only [Bool.and_eq_true] at hp
    rw [encode_pairChar u v hp.1 hp.2]
    rfl
  | case4 u v rest hp ih =>
    rw [chars, toWellFormed, if_neg hp, if_neg hp, List.flatMap_cons, ih, encode_unit]
    rfl

theorem decodeUtf8_chars (cs : List Char) :
    decodeUtf8 (cs.flatMap String.utf8EncodeChar) = some (cs.flatMap encode) := by
  have h := List.utf8Decode?_utf8Encode (l := cs)
  rw [List.utf8Encode] at h
  rw [decodeUtf8, h]
  rfl

theorem decodeUtf8_chunks (ts : List Text) :
    decodeUtf8 (ts.flatMap encodeUtf8) = some (ts.flatMap toWellFormed) := by
  have hbytes : ts.flatMap encodeUtf8 = (ts.flatMap chars).flatMap String.utf8EncodeChar := by
    rw [List.flatMap_assoc]
    rfl
  rw [hbytes, decodeUtf8_chars, List.flatMap_assoc]
  congr 2
  funext t
  exact flatMap_encode_chars t

theorem chars_cons_low (u : UInt16) (t : Text) (h : isHigh u = false) :
    chars (u::t) = unitChar u::chars t := by
  cases t with
  | nil => rfl
  | cons v rest => simp [chars, h]

theorem chars_replaced (u : UInt16) (t : Text) :
    chars ((if isHigh u || isLow u then 0xFFFD else u)::t) = unitChar u::chars t := by
  by_cases hs : (isHigh u || isLow u) = true
  · rw [if_pos hs, chars_cons_low 0xFFFD t (by decide)]
    have hrep : unitChar 0xFFFD = unitChar u := by
      rw [unitChar, unitChar, if_pos hs]
      decide
    rw [hrep]
  · rw [if_neg hs]
    rw [Bool.or_eq_true, not_or, Bool.not_eq_true] at hs
    exact chars_cons_low u t hs.1

theorem chars_toWellFormed (t : Text) : chars (toWellFormed t) = chars t := by
  induction t using chars.induct with
  | case1 => rfl
  | case2 u =>
    have hone : toWellFormed [u] = [if isHigh u || isLow u then 0xFFFD else u] := by
      rw [toWellFormed]
      split_ifs
      · rfl
      · rfl
    rw [hone, chars_replaced]
    rfl
  | case3 u v rest hp ih => simp only [toWellFormed, chars, hp, if_true, ih]
  | case4 u v rest hp ih =>
    rw [toWellFormed, if_neg hp, chars_replaced, ih, chars, if_neg hp]

theorem encodeUtf8_eq_iff (s t : Text) :
    encodeUtf8 s = encodeUtf8 t ↔ toWellFormed s = toWellFormed t := by
  constructor
  · intro h
    have hs := decodeUtf8_chunks [s]
    have ht := decodeUtf8_chunks [t]
    simp only [List.flatMap_cons, List.flatMap_nil, List.append_nil] at hs ht
    rw [h, ht] at hs
    exact (Option.some.inj hs).symm
  · intro h
    rw [encodeUtf8, encodeUtf8, ← chars_toWellFormed s, h, chars_toWellFormed]

end ControlPlane.Utf8Text
