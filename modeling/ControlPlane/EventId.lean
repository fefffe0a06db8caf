import Mathlib.Data.List.Sort
import ControlPlane.EventNormalize
import ControlPlane.JsonText

/-!
# Content-derived event ids

The id of an event with a time of its own is a hash of its producer's key and
its canonical text. The text is written by a loop over an explicit stack of
frames: sorted keys, tokens as `JSON.stringify` writes them, a signed string
by its signing input and no detached signature.
-/

set_option autoImplicit false

namespace ControlPlane.EventId
open ControlPlane.JsText ControlPlane.JsValue ControlPlane.TctParse ControlPlane.JsonText
open ControlPlane.EventNormalize

/-- With the instant of a date text and the SHA-256 digest of a text. -/
structure IdRuntime extends Codec where
  parseDate : Text → Option Instant
  sha256 : Text → List UInt8

def jcsSignedBodies : List Text := [js "manifest", js "revocation_list"]

def isEnvelopeSignature (o : Json) (key : Text) : Bool :=
  key = js "signature" && ((o.get (js "signature")).bind Json.string?).isSome &&
    jcsSignedBodies.any (fun k => (o.get k).any Json.isObject)

/-- The order of UTF-16 code units. -/
def textLe : Text → Text → Bool
  | [], _ => true
  | _::_, [] => false
  | u::s, v::t => u < v || (u = v && textLe s t)

def sortKeys : List Text → List Text := List.insertionSort (fun s t => textLe s t = true)

def countedKeys (members : List (Text × Json)) : List Text :=
  sortKeys ((members.map Prod.fst).filter (fun k => !isEnvelopeSignature (.obj members) k))

def signingTag : Text := js "jws-signing-input:"

def tokenOf (C : Codec) : Json → Token
  | .str s =>
    match jwsSigningInput C s with
    | some signingInput => .text (signingTag++signingInput)
    | none => .text s
  | .bool b => .bool b
  | .num (.finite q) => .number q
  | _ => .null

inductive Frame where
  | lit (t : Text)
  | value (v : Json)

/-- The frames that are pushed for an array, the top one first. -/
def itemFrames : List Frame → List Json → List Frame
  | _, [] => []
  | sep, v::vs => sep++.value v::itemFrames [.lit [comma]] vs

def memberFrames (o : Json) : List Frame → List Text → List Frame
  | _, [] => []
  | sep, k::ks =>
    sep++.lit (quote k++[colon])::.value ((o.get k).getD .null)::
      memberFrames o [.lit [comma]] ks

def visit (C : Codec) : Json → Text × List Frame
  | .arr items => ([openBracket], itemFrames [] items++[.lit [closeBracket]])
  | .obj members =>
    ([openBrace], memberFrames (.obj members) [] (countedKeys members)++[.lit [closeBrace]])
  | v => (writeToken (tokenOf C v), [])

def loop (C : Codec) : ℕ → List Frame → Text → Option Text
  | _, [], out => some out
  | 0, _::_, _ => none
  | n+1, .lit t::stack, out => loop C n stack (out++t)
  | n+1, .value v::stack, out => loop C n ((visit C v).2++stack) (out++(visit C v).1)

mutual

def pops : Json → ℕ
  | .arr items => 2+popsItems items
  | .obj members => 2+members.length*(3+popsMax members)
  | _ => 1

def popsItems : List Json → ℕ
  | [] => 0
  | v::vs => 2+pops v+popsItems vs

def popsMax : List (Text × Json) → ℕ
  | [] => 1
  | (_, v)::ms => max (pops v) (popsMax ms)

end

def canonicalJson (C : Codec) (v : Json) : Text := (loop C (pops v) [.value v] []).getD []

def recipeTag : Text := js "aitp-event:v2"

/-- What is hashed: tag, producer and content, each ended by a NUL but the last. -/
def preimage (C : Codec) (producerKey : Option Text) (raw : Json) : Text :=
  recipeTag++0::producerKey.getD []++0::canonicalJson C raw

def uuidV8 (digest : List UInt8) : Text :=
  let b := digest.take 16
  let b := b.modify 6 (fun v => (v &&& 0x0F) ||| 0x80)
  let b := b.modify 8 (fun v => (v &&& 0x3F) ||| 0x80)
  let x := b.flatMap hexByte
  x.take 8++0x2D::(x.drop 8).take 4++0x2D::(x.drop 12).take 4++0x2D::(x.drop 16).take 4++
    0x2D::(x.drop 20).take 12

def hasTimestamp (R : IdRuntime) (raw : Json) : Bool :=
  (parseEventTimestamp R.parseDate (raw.get (js "ts"))).isSome

def contentId (R : IdRuntime) (producerKey : Option Text) (raw : Json) : Text :=
  uuidV8 (R.sha256 (preimage R.toCodec producerKey raw))

/-- `random` is what `randomUUID()` gives to an event without a valid time. -/
def eventIdFor (R : IdRuntime) (raw : Json) (producerKey : Option Text) (random : Text) : Text :=
  if hasTimestamp R raw then contentId R producerKey raw else random

mutual

def doc (C : Codec) : Json → Doc
  | .arr items => .arr (docItems C items)
  | .obj members =>
    .obj ((countedKeys members).map (fun k =>
      (k, ((docMembers C members).lookup k).getD (.token .null))))
  | v => .token (tokenOf C v)

def docItems (C : Codec) : List Json → List Doc
  | [] => []
  | v::vs => doc C v::docItems C vs

def docMembers (C : Codec) : List (Text × Json) → List (Text × Doc)
  | [] => []
  | (k, v)::ms => (k, doc C v)::docMembers C ms

end

section Loop
variable (C : Codec)

def emit : Frame → Text
  | .lit t => t
  | .value v => write (doc C v)

def framePops : Frame → ℕ
  | .lit _ => 1
  | .value v => pops v

def stackPops (stack : List Frame) : ℕ := (stack.map framePops).sum

theorem lookup_docMembers (members : List (Text × Json)) (k : Text) :
    (docMembers C members).lookup k = (members.lookup k).map (doc C) := by
  have hmap : docMembers C members = members.map (fun m => (m.1, doc C m.2)) :=
    map_of_cons _ _ rfl (fun _ _ => rfl) members
  rw [hmap, lookup_map_values]

theorem emit_items (sep : List Frame) (items : List Json) :
    (itemFrames sep items).flatMap (emit C) =
      writeItems (sep.flatMap (emit C)) (docItems C items) := by
  induction items generalizing sep with
  | nil => rfl
  | cons v vs ih =>
    simp only [itemFrames, docItems, writeItems, List.flatMap_append, List.flatMap_cons, ih,
      List.append_assoc]
    rfl

theorem emit_members (members : List (Text × Json)) (sep : List Frame) (ks : List Text) :
    (memberFrames (.obj members) sep ks).flatMap (emit C) =
      writeMembers (sep.flatMap (emit C)) (ks.map (fun k =>
        (k, ((docMembers C members).lookup k).getD (.token .null)))) := by
  induction ks generalizing sep with
  | nil => rfl
  | cons k ks ih =>
    have hvalue : emit C (.value (((Json.obj members).get k).getD .null)) =
        write (((docMembers C members).lookup k).getD (.token .null)) := by
      rw [lookup_docMembers]
      simp only [Json.get, emit]
      cases members.lookup k <;> rfl
    simp only [memberFrames, List.map_cons, writeMembers, List.flatMap_append, List.flatMap_cons,
      ih, hvalue, List.append_assoc]
    simp [emit]

theorem emit_visit (v : Json) :
    (visit C v).1++(visit C v).2.flatMap (emit C) = write (doc C v) := by
  cases v with
  | arr items =>
    simp only [visit, doc, write, List.flatMap_append, emit_items]
    rfl
  | obj members =>
    simp only [visit, doc, write, List.flatMap_append, emit_members]
    rfl
  | _ => simp [visit, doc, write]

theorem stackPops_append (as bs : List Frame) :
    stackPops (as++bs) = stackPops as+stackPops bs := by
  simp [stackPops]

theorem pops_items (sep : List Frame) (hsep : stackPops sep ≤ 1) (items : List Json) :
    stackPops (itemFrames sep items) ≤ popsItems items := by
  induction items generalizing sep with
  | nil => exact le_rfl
  | cons v vs ih =>
    have := ih [.lit [comma]] le_rfl
    simp only [itemFrames, popsItems, stackPops_append]
    simp only [stackPops, List.map_cons, List.sum_cons, framePops] at this hsep ⊢
    omega

theorem pops_lookup (members : List (Text × Json)) (k : Text) :
    pops ((members.lookup k).getD .null) ≤ popsMax members := by
  induction members with
  | nil => exact le_rfl
  | cons m ms ih =>
    obtain ⟨j, v⟩ := m
    simp only [List.lookup_cons, popsMax]
    split
    · exact le_max_left _ _
    · exact le_trans ih (le_max_right _ _)

theorem pops_members (members : List (Text × Json)) (sep : List Frame)
    (hsep : stackPops sep ≤ 1) (ks : List Text) :
    stackPops (memberFrames (.obj members) sep ks) ≤ ks.length*(3+popsMax members) := by
  induction ks generalizing sep with
  | nil => exact Nat.zero_le _
  | cons k ks ih =>
    have hrest := ih [.lit [comma]] le_rfl
    have hvalue := pops_lookup members k
    simp only [memberFrames, stackPops_append, List.length_cons, Nat.add_mul, Nat.one_mul]
    simp only [stackPops, List.map_cons, List.sum_cons, framePops, Json.get] at hrest hsep ⊢
    omega

theorem countedKeys_length (members : List (Text × Json)) :
    (countedKeys members).length ≤ members.length := by
  unfold countedKeys sortKeys
  rw [List.length_insertionSort]
  exact le_trans (List.length_filter_le _ _) (by simp)

theorem pops_visit (v : Json) : stackPops (visit C v).2+1 ≤ pops v := by
  cases v with
  | arr items =>
    have := pops_items [] (Nat.zero_le _) items
    simp only [visit, pops, stackPops_append]
    simp only [stackPops, List.map_cons, List.map_nil, List.sum_cons, List.sum_nil,
      framePops] at this ⊢
    omega
  | obj members =>
    have := pops_members members [] (Nat.zero_le _) (countedKeys members)
    have hlen := Nat.mul_le_mul_right (3+popsMax members) (countedKeys_length members)
    simp only [visit, pops, stackPops_append]
    simp only [stackPops, List.map_cons, List.map_nil, List.sum_cons, List.sum_nil,
      framePops] at this ⊢
    omega
  | _ => exact le_rfl

theorem loop_writes (n : ℕ) (stack : List Frame) (out : Text) (h : stackPops stack ≤ n) :
    loop C n stack out = some (out++stack.flatMap (emit C)) := by
  induction n generalizing stack out with
  | zero =>
    cases stack with
    | nil => simp [loop]
    | cons frame stack =>
      have hpos : 1 ≤ framePops frame := by
        cases frame with
        | lit t => exact le_rfl
        | value v => exact le_trans (Nat.le_add_left 1 _) (pops_visit C v)
      simp only [stackPops, List.map_cons, List.sum_cons] at h
      omega
  | succ n ih =>
    cases stack with
    | nil => simp [loop]
    | cons frame stack =>
      cases frame with
      | lit t =>
        simp only [stackPops, List.map_cons, List.sum_cons, framePops] at h
        rw [loop, ih stack _ (by simp only [stackPops]; omega)]
        simp [emit]
      | value v =>
        have hv := pops_visit C v
        have hle : stackPops ((visit C v).2++stack) ≤ n := by
          rw [stackPops_append]
          simp only [stackPops, List.map_cons, List.sum_cons, framePops] at h hv ⊢
          omega
        rw [loop, ih _ _ hle, List.flatMap_append, List.append_assoc,
          ← List.append_assoc (visit C v).1, emit_visit]
        rfl

theorem canonicalJson_eq (v : Json) : canonicalJson C v = write (doc C v) := by
  have hpops : stackPops [.value v] ≤ pops v := by simp [stackPops, framePops]
  unfold canonicalJson
  rw [loop_writes C (pops v) [.value v] [] hpops]
  simp [emit]

end Loop

end ControlPlane.EventId
