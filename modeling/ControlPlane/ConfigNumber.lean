import ControlPlane.JsNumberText
import ControlPlane.RequestGate

/-!
# Numbers of the configuration

`Number(text)` for decimal literals, `Infinity` and the three prefixed radices,
the fallback of `readNumber` for what is not a finite number, and the interval
that Node's timers honour.
-/

set_option autoImplicit false

namespace ControlPlane.ConfigNumber
open ControlPlane.JsText ControlPlane.JsValue ControlPlane.JsNumberText
open ControlPlane.RequestGate (trim)

def isExponentMark (u : UInt16) : Bool := u = letterE || u = 0x45

def digitsNumber (t : Text) : Option ℕ :=
  if t ≠ [] ∧ t.all isDigit then some (digitsValue t) else none

def signedInteger : Text → Option ℤ
  | 0x2B::ds => (digitsNumber ds).map Int.ofNat
  | 0x2D::ds => (digitsNumber ds).map (fun n => -(n : ℤ))
  | ds => (digitsNumber ds).map Int.ofNat

def exponentPart : Text → Option ℤ
  | [] => some 0
  | _::ds => signedInteger ds

/-- `StrUnsignedDecimalLiteral` -/
def unsignedDecimal (t : Text) : Option JsNumber :=
  if t = js "Infinity" then some (.infinite false)
  else
    let mantissa := t.takeWhile (!isExponentMark ·)
    let whole := mantissa.takeWhile (· ≠ dot)
    let fraction := (mantissa.dropWhile (· ≠ dot)).drop 1
    match digitsNumber (whole++fraction), exponentPart (t.dropWhile (!isExponentMark ·)) with
    | some n, some e => some (toDouble (n*(10 : ℚ)^(e-fraction.length)))
    | _, _ => none

def opposite : JsNumber → JsNumber
  | .finite q => .finite (-q)
  | .infinite negative => .infinite (!negative)

def decimalNumber : Text → Option JsNumber
  | 0x2B::t => unsignedDecimal t
  | 0x2D::t => (unsignedDecimal t).map opposite
  | t => unsignedDecimal t

def radixDigit (u : UInt16) : Option ℕ :=
  if isDigit u then some (unitDigit u)
  else if 0x61 ≤ lowerUnit u && lowerUnit u ≤ 0x66 then some ((lowerUnit u-0x61).toNat+10)
  else none

def radixNumber (base : ℕ) (t : Text) : Option JsNumber :=
  match t.mapM radixDigit with
  | some (d::ds) =>
    if (d::ds).all (· < base) then some (toDouble (Nat.ofDigits base (d::ds).reverse)) else none
  | _ => none

/-- `Number(text)`, with nothing for `NaN`. -/
def stringNumber (text : Text) : Option JsNumber :=
  match trim text with
  | [] => some (.finite 0)
  | 0x30::0x78::ds => radixNumber 16 ds
  | 0x30::0x58::ds => radixNumber 16 ds
  | 0x30::0x6F::ds => radixNumber 8 ds
  | 0x30::0x4F::ds => radixNumber 8 ds
  | 0x30::0x62::ds => radixNumber 2 ds
  | 0x30::0x42::ds => radixNumber 2 ds
  | t => decimalNumber t

/-- The value of a variable, where an empty one counts as missing. -/
def readNumber (v : Option Text) (dflt : ℚ) : ℚ :=
  match v with
  | none => dflt
  | some [] => dflt
  | some t =>
    match stringNumber t with
    | some (.finite n) => n
    | _ => dflt

example : readNumber (some (js " 0x1F ")) 3 = 31 := by decide +kernel

example : readNumber (some (js "-2.5e1")) 3 = -25 := by decide +kernel

example : readNumber (some (js "1e999")) 3 = 3 := by decide +kernel

def timeoutMax : ℤ := 2147483647

/-- What Node makes of a delay: one millisecond, unless it is from one up to
the largest signed 32-bit integer. -/
def timerDelay : JsNumber → ℤ
  | .finite q => if 1 ≤ q ∧ q ≤ timeoutMax then ⌊q⌋ else 1
  | .infinite _ => 1

theorem timerDelay_int (z : ℤ) (h1 : 1 ≤ z) (h2 : z ≤ timeoutMax) :
    timerDelay (.finite z) = z := by
  have hrange : (1 : ℚ) ≤ z ∧ (z : ℚ) ≤ timeoutMax := by
    constructor
    · exact_mod_cast h1
    · exact_mod_cast h2
  rw [timerDelay, if_pos hrange, Int.floor_intCast]

theorem timerDelay_over (q : ℚ) (h : (timeoutMax : ℚ) < q) : timerDelay (.finite q) = 1 := by
  rw [timerDelay, if_neg (fun hrange => absurd hrange.2 (not_le.mpr h))]

end ControlPlane.ConfigNumber
