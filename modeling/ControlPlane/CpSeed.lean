import ControlPlane.JsNumberText
import ControlPlane.HttpValidate

/-!
# The seed of the control plane's identity

The seed is read as pairs of hexadecimal digits up to the first pair that is
none. It is usable when thirty-two pairs are read, whatever follows them, and
then it is the seed that its first sixty-four digits are.
-/

set_option autoImplicit false

namespace ControlPlane.CpSeed
open ControlPlane.JsText ControlPlane.JsNumberText ControlPlane.HttpValidate

def cpSeedBytes : ℕ := 32

def isHexUnit (u : UInt16) : Bool := (hexDigit u).isSome

/-- `Buffer.from(raw, 'hex')` -/
def decodeCpSeedHex : Text → List UInt8
  | a::b::rest =>
    match hexDigit a, hexDigit b with
    | some x, some y => UInt8.ofNat (16*x+y)::decodeCpSeedHex rest
    | _, _ => []
  | _ => []

def cpSeedProblem (raw : Text) : Option Text :=
  if raw = [] then some (js "CP_AID_SEED_HEX is required (a 32-byte seed as 64 hex characters)")
  else
    let decoded := (decodeCpSeedHex raw).length
    if decoded ≠ cpSeedBytes then
      some (js "CP_AID_SEED_HEX must be 64 hex characters (32 bytes); got "++
        number raw.length++js " characters that decode to "++number decoded++
        js " bytes (decoding stops at the first non-hex character, so a \"0x\" prefix or leading "++
        js "whitespace decodes to nothing)")
    else none

/-- `/^[0-9a-fA-F]{64}$/` -/
def isClean (raw : Text) : Bool := raw.length = 64 && raw.all isHexUnit

def cpSeedNotCleanWarning (raw : Text) : Option Text :=
  if raw = [] ∨ cpSeedProblem raw ≠ none ∨ isClean raw = true then none
  else some (js "[aitp-cp] CP_AID_SEED_HEX is "++number raw.length++
    js " characters, not exactly 64 hex digits (trailing whitespace or other characters after "++
    js "the seed). It is accepted: only the leading 64 hex digits are read, so the CP identity "++
    js "is unaffected. Store exactly the 64 hex digits to silence this warning — the derived "++
    js "AID stays the same.")

def startsPair : Text → Bool
  | a::b::_ => isHexUnit a && isHexUnit b
  | _ => false

theorem decode_pair (a b : UInt16) (rest : Text) (h : startsPair (a::b::rest) = true) :
    ∃ x, decodeCpSeedHex (a::b::rest) = x::decodeCpSeedHex rest ∧
      ∀ t, decodeCpSeedHex (a::b::t) = x::decodeCpSeedHex t := by
  simp only [startsPair, isHexUnit, Bool.and_eq_true, Option.isSome_iff_exists] at h
  obtain ⟨⟨x, hx⟩, y, hy⟩ := h
  exact ⟨UInt8.ofNat (16*x+y), by simp [decodeCpSeedHex, hx, hy],
    fun t => by simp [decodeCpSeedHex, hx, hy]⟩

theorem decode_stops (t : Text) (h : startsPair t = false) : decodeCpSeedHex t = [] := by
  match t with
  | [] | [_] => rfl
  | a::b::rest =>
    simp only [startsPair, isHexUnit, Bool.and_eq_false_iff, Option.isSome_eq_false_iff,
      Option.isNone_iff_eq_none] at h
    rcases h with h | h
    · simp [decodeCpSeedHex, h]
    · cases ha : hexDigit a with
      | none => simp [decodeCpSeedHex, ha]
      | some x => simp [decodeCpSeedHex, ha, h]

theorem decode_length_iff (n : ℕ) (t : Text) : (decodeCpSeedHex t).length = n ↔
    2*n ≤ t.length ∧ (t.take (2*n)).all isHexUnit = true ∧ startsPair (t.drop (2*n)) = false := by
  induction n generalizing t with
  | zero =>
    simp only [Nat.mul_zero, Nat.zero_le, List.take_zero, List.all_nil, List.drop_zero, true_and]
    cases hp : startsPair t with
    | false => simp [decode_stops t hp]
    | true =>
      match t, hp with
      | a::b::rest, hp =>
        obtain ⟨x, hx, _⟩ := decode_pair a b rest hp
        simp [hx]
  | succ n ih =>
    cases hp : startsPair t with
    | false =>
      simp only [decode_stops t hp, List.length_nil, Nat.right_eq_add,
        Nat.succ_ne_zero, false_iff]
      rintro ⟨hlen, hall, _⟩
      match t, hp, hlen with
      | a::b::rest, hp, _ =>
        simp only [Nat.mul_succ, List.take_succ_cons, List.all_cons] at hall
        simp only [startsPair, Bool.and_eq_false_iff] at hp
        rcases hp with hp | hp <;> simp [hp] at hall
    | true =>
      match t, hp with
      | a::b::rest, hp =>
        obtain ⟨x, hx, _⟩ := decode_pair a b rest hp
        simp only [startsPair, Bool.and_eq_true] at hp
        simp only [hx, List.length_cons, Nat.succ.injEq, ih rest, Nat.mul_succ,
          List.take_succ_cons, List.all_cons, hp.1, hp.2, Bool.true_and,
          List.drop_succ_cons]
        constructor
        · rintro ⟨hlen, hall, hno⟩
          exact ⟨by omega, hall, hno⟩
        · rintro ⟨hlen, hall, hno⟩
          exact ⟨by omega, hall, hno⟩

theorem decode_take (n : ℕ) (t : Text) (h : (decodeCpSeedHex t).length = n) :
    decodeCpSeedHex (t.take (2*n)) = decodeCpSeedHex t := by
  induction n generalizing t with
  | zero => simp [List.eq_nil_of_length_eq_zero h, decodeCpSeedHex]
  | succ n ih =>
    cases hp : startsPair t with
    | false => simp [decode_stops t hp] at h
    | true =>
      match t, hp with
      | a::b::rest, hp =>
        obtain ⟨x, hx, hcut⟩ := decode_pair a b rest hp
        have hrest : (decodeCpSeedHex rest).length = n := by simpa [hx] using h
        rw [hx, ← ih rest hrest, ← hcut]
        rfl

def Usable (raw : Text) : Prop := (decodeCpSeedHex raw).length = cpSeedBytes

theorem cpSeedProblem_none (raw : Text) : cpSeedProblem raw = none ↔ Usable raw := by
  by_cases hnil : raw = []
  · subst hnil
    simp [cpSeedProblem, Usable, decodeCpSeedHex, cpSeedBytes]
  · by_cases hlen : (decodeCpSeedHex raw).length = cpSeedBytes
    · simp [cpSeedProblem, Usable, hnil, hlen]
    · simp [cpSeedProblem, Usable, hnil, hlen]

theorem usable_leading (raw : Text) (h : Usable raw) : isClean (raw.take 64) = true ∧
    decodeCpSeedHex (raw.take 64) = decodeCpSeedHex raw := by
  obtain ⟨hlen, hall, _⟩ := (decode_length_iff cpSeedBytes raw).mp h
  constructor
  · simp only [cpSeedBytes] at hlen hall
    simp [isClean, hall, hlen]
  · exact decode_take cpSeedBytes raw h

end ControlPlane.CpSeed
