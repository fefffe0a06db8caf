import Mathlib.Data.Rat.Floor
import ControlPlane.JsText

/-!
# JSON values, numbers and dates

Parsed JSON as a program sees it: numbers are doubles, an object is the list
of its own members and reading an absent member gives nothing. A number is
kept as the exact rational value of its double. A database that stores text
in UTF-8 refuses U+0000 everywhere, and in a JSON column also refuses the
escape of a lone surrogate.
-/

set_option autoImplicit false

namespace ControlPlane.JsValue
open ControlPlane.JsText

inductive JsNumber where
  | finite (q : ℚ)
  | infinite (negative : Bool)
  deriving DecidableEq, Repr

inductive Json where
  | null
  | bool (b : Bool)
  | num (n : JsNumber)
  | str (s : Text)
  | arr (items : List Json)
  | obj (members : List (Text × Json))

def Json.get : Json → Text → Option Json
  | .obj members, key => members.lookup key
  | _, _ => none

section Recursions
variable {α β : Type*}

theorem map_of_cons (rec : List α → List β) (f : α → β) (hnil : rec [] = [])
    (hcons : ∀ x xs, rec (x::xs) = f x::rec xs) (xs : List α) : rec xs = xs.map f := by
  induction xs with
  | nil => exact hnil
  | cons x xs ih => rw [hcons, ih, List.map_cons]

theorem forall_of_cons (rec : List α → Prop) (p : α → Prop) (hnil : rec [])
    (hcons : ∀ x xs, rec (x::xs) ↔ p x ∧ rec xs) (xs : List α) : rec xs ↔ ∀ x ∈ xs, p x := by
  induction xs with
  | nil => exact iff_of_true hnil (fun _ h => (List.not_mem_nil h).elim)
  | cons x xs ih => rw [hcons, ih, List.forall_mem_cons]

theorem lookup_map_values (f : α → β) (members : List (Text × α)) (k : Text) :
    (members.map (fun m => (m.1, f m.2))).lookup k = (members.lookup k).map f := by
  induction members with
  | nil => rfl
  | cons m ms ih =>
    obtain ⟨j, v⟩ := m
    simp only [List.map_cons, List.lookup_cons]
    split
    · rfl
    · exact ih

end Recursions

/-- `typeof v === 'object' && v !== null`: arrays are objects too. -/
def Json.isObject : Json → Bool
  | .arr _ => true
  | .obj _ => true
  | _ => false

def Json.string? : Json → Option Text
  | .str s => some s
  | _ => none

def nonEmptyString : Option Json → Option Text
  | some (.str (u::t)) => some (u::t)
  | _ => none

theorem nonEmptyString_str (t : Text) :
    nonEmptyString (some (.str t)) = if t = [] then none else some t := by
  cases t <;> rfl

structure Codec where
  decode : Text → Text
  parse : Text → Option Json

def Json.truthy : Json → Bool
  | .null => false
  | .bool b => b
  | .num (.finite q) => q ≠ 0
  | .num (.infinite _) => true
  | .str s => s ≠ []
  | .arr _ => true
  | .obj _ => true

def textStorable (t : Text) : Bool := !hasNul t && isWellFormed t

mutual

def Json.storable : Json → Bool
  | .str s => textStorable s
  | .arr items => storableItems items
  | .obj members => storableMembers members
  | _ => true

def storableItems : List Json → Bool
  | [] => true
  | v::vs => v.storable && storableItems vs

def storableMembers : List (Text × Json) → Bool
  | [] => true
  | (k, v)::ms => textStorable k && v.storable && storableMembers ms

end

theorem storableMembers_append (as bs : List (Text × Json)) :
    storableMembers (as++bs) = (storableMembers as && storableMembers bs) := by
  induction as with
  | nil => simp [storableMembers]
  | cons m ms ih => simp [storableMembers, ih, Bool.and_assoc]

theorem storableItems_map_str (ts : List Text) :
    storableItems (ts.map .str) = ts.all textStorable := by
  induction ts with
  | nil => rfl
  | cons t ts ih => simp [storableItems, Json.storable, ih]

/-- A `varchar(n)` column holds the text as it is, but for lone surrogates. -/
def fitsVarchar (n : ℕ) (t : Text) : Bool := !hasNul t && codePoints t ≤ n

/-- A `varchar(n)` column refuses a longer text unless the excess is blank. -/
def takesVarchar (n : ℕ) (t : Text) : Bool :=
  !hasNul t && (pastCodePoints n t).all (fun u => u = 0x20)

def varchar (n : ℕ) (t : Text) : Text := firstCodePoints n (toWellFormed t)

theorem takes_of_fits (n : ℕ) (t : Text) (h : fitsVarchar n t = true) :
    takesVarchar n t = true := by
  simp only [fitsVarchar, Bool.and_eq_true, decide_eq_true_eq] at h
  simp [takesVarchar, h.1, (pastCodePoints_nil n t).mpr h.2]

theorem all_takes_of_fits (n : ℕ) (t : Option Text) (h : t.all (fitsVarchar n) = true) :
    t.all (takesVarchar n) = true := by
  cases t with
  | none => rfl
  | some t => exact takes_of_fits n t h

theorem varchar_of_fits (n : ℕ) (t : Text) (h : fitsVarchar n t = true) :
    varchar n t = toWellFormed t := by
  simp only [fitsVarchar, Bool.and_eq_true, decide_eq_true_eq] at h
  exact firstCodePoints_of_le n _ ((codePoints_toWellFormed t).trans_le h.2)

def binaryExponent (n d : ℕ) : ℤ :=
  let e : ℤ := (Nat.log2 n : ℤ)-Nat.log2 d
  if (2 : ℚ)^e*d ≤ n then e else e-1

def roundHalfEven (q : ℚ) : ℤ :=
  let f := ⌊q⌋
  if q-f < 1/2 then f else if 1/2 < q-f then f+1 else if f % 2 = 0 then f else f+1

/-- The double nearest to a rational number. -/
def toDouble (q : ℚ) : JsNumber :=
  if q = 0 then .finite 0
  else
    let unit : ℚ := 2^(max (binaryExponent q.num.natAbs q.den-52) (-1074))
    let rounded := roundHalfEven (q/unit)*unit
    if (2 : ℚ)^1024 ≤ |rounded| then .infinite (rounded < 0) else .finite rounded

def timesPositive (c : ℚ) : JsNumber → JsNumber
  | .finite q => toDouble (c*q)
  | .infinite negative => .infinite negative

/-- Milliseconds since the epoch. -/
abbrev Instant := ℤ

/-- `Date.now() + ms` -/
def plusMs (now : Instant) : JsNumber → JsNumber
  | .finite q => toDouble (now+q)
  | .infinite negative => .infinite negative

/-- `Date.now() - ms` -/
def minusMs (now : Instant) : JsNumber → JsNumber
  | .finite q => toDouble (now-q)
  | .infinite negative => .infinite (!negative)

def maxDateMs : ℤ := 8640000000000000

/-- `new Date(ms).toISOString()`, which throws on an invalid date. -/
def toISOString : JsNumber → Option Instant
  | .finite q => if |q| ≤ maxDateMs then some (if 0 ≤ q then ⌊q⌋ else ⌈q⌉) else none
  | .infinite _ => none

/-- The years 0001 to 9999, which a timestamp column reads from ISO text. -/
def instantStorable (t : Instant) : Bool := -62135596800000 ≤ t && t ≤ 253402300799999

end ControlPlane.JsValue
