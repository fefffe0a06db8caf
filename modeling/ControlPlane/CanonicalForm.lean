import ControlPlane.EventIdentity
import ControlPlane.JsonReader
import ControlPlane.StackWalk

/-!
# The canonical form

The canonical text by recursion: scalars as `JSON.stringify` writes them or by
their signing input, arrays in order, members by their sorted keys. The loop
over the stack of frames writes it, with or without regard to signatures. A
text that regards none reads back as its value, with the keys in order.
-/

set_option autoImplicit false

namespace ControlPlane.CanonicalForm
open ControlPlane.JsText ControlPlane.JsValue ControlPlane.TctParse ControlPlane.JsonText
open ControlPlane.EventId ControlPlane.EventIdentity ControlPlane.StackWalk
open ControlPlane.JsonReader (docOf valueOf nulled nulledItems nulledMembers stringify parseText)

def scalarToken (C : Codec) (signedContent : Bool) : Json → Token
  | .str s =>
    match if signedContent then jwsSigningInput C s else none with
    | some signingInput => .text (signingTag++signingInput)
    | none => .text s
  | .bool b => .bool b
  | .num (.finite q) => .number q
  | _ => .null

def keptKeys (signedContent : Bool) (members : List (Text × Json)) : List Text :=
  sortKeys ((members.map Prod.fst).filter
    (fun k => !(signedContent && isEnvelopeSignature (.obj members) k)))

mutual

def canonicalForm (C : Codec) (signedContent : Bool) : Json → Text
  | .arr items => openBracket::[comma].intercalate (formItems C signedContent items)++[closeBracket]
  | .obj members =>
    openBrace::[comma].intercalate ((keptKeys signedContent members).map (fun k =>
      quote k++colon::((formMembers C signedContent members).lookup k).getD (writeToken .null)))++
      [closeBrace]
  | v => writeToken (scalarToken C signedContent v)

def formItems (C : Codec) (signedContent : Bool) : List Json → List Text
  | [] => []
  | v::vs => canonicalForm C signedContent v::formItems C signedContent vs

def formMembers (C : Codec) (signedContent : Bool) : List (Text × Json) → List (Text × Text)
  | [] => []
  | (k, v)::ms => (k, canonicalForm C signedContent v)::formMembers C signedContent ms

end

def sortMembers (members : List (Text × Json)) : List (Text × Json) :=
  members.insertionSort (fun m n => textLe m.1 n.1 = true)

mutual

/-- The value with the members of every object in the order of their keys. -/
def sortedValue : Json → Json
  | .arr items => .arr (sortedItems items)
  | .obj members => .obj (sortMembers (sortedMembers members))
  | v => v

def sortedItems : List Json → List Json
  | [] => []
  | v::vs => sortedValue v::sortedItems vs

def sortedMembers : List (Text × Json) → List (Text × Json)
  | [] => []
  | (k, v)::ms => (k, sortedValue v)::sortedMembers ms

end

mutual

/-- Equal up to the order of the members of objects. -/
def Reordered : Json → Json → Prop
  | .arr items, b =>
    match b with
    | .arr others => ReorderedItems items others
    | _ => False
  | .obj members, b =>
    match b with
    | .obj others => (members.map Prod.fst).Perm (others.map Prod.fst) ∧
        ReorderedMembers members (.obj others)
    | _ => False
  | a, b => a = b

def ReorderedItems : List Json → List Json → Prop
  | [], others => others = []
  | v::vs, others =>
    match others with
    | w::ws => Reordered v w ∧ ReorderedItems vs ws
    | [] => False

def ReorderedMembers : List (Text × Json) → Json → Prop
  | [], _ => True
  | (k, v)::ms, o => (∃ w, o.get k = some w ∧ Reordered v w) ∧ ReorderedMembers ms o

end

mutual

def AllFinite : Json → Prop
  | .num (.infinite _) => False
  | .arr items => FiniteItems items
  | .obj members => FiniteMembers members
  | _ => True

def FiniteItems : List Json → Prop
  | [] => True
  | v::vs => AllFinite v ∧ FiniteItems vs

def FiniteMembers : List (Text × Json) → Prop
  | [] => True
  | (_, v)::ms => AllFinite v ∧ FiniteMembers ms

end

/-- What a frame adds to the output, and the frames that it pushes. -/
def visitFrame (C : Codec) (signedContent : Bool) (out : Text) :
    Frame → Except Empty (Text × List Frame)
  | .lit t => .ok (out++t, [])
  | .value (.arr items) => .ok (out++[openBracket], itemFrames [] items++[.lit [closeBracket]])
  | .value (.obj members) =>
    .ok (out++[openBrace],
      memberFrames (.obj members) [] (keptKeys signedContent members)++[.lit [closeBrace]])
  | .value v => .ok (out++writeToken (scalarToken C signedContent v), [])

/-- Nothing if the rounds do not suffice. -/
def canonicalJson (C : Codec) (signedContent : Bool) (rounds : ℕ) (root : Json) : Option Text :=
  (walk (visitFrame C signedContent) rounds [] [.value root]).bind Except.toOption

theorem separated_eq {σ α : Type*} (write : σ → List α → Text) (sep : σ → Text) (c : σ)
    (text : α → Text) (hc : sep c = [comma]) (hnil : ∀ s, write s [] = [])
    (hcons : ∀ s x xs, write s (x::xs) = sep s++text x++write c xs) (s : σ) (xs : List α)
    (hs : sep s = []) : write s xs = [comma].intercalate (xs.map text) := by
  have hall : ∀ s x xs, write s (x::xs) = sep s++[comma].intercalate ((x::xs).map text) := by
    intro s x xs
    induction xs generalizing s x with
    | nil => simp [hcons, hnil]
    | cons y ys ih =>
      rw [hcons, ih, hc]
      simp only [List.map_cons, List.intercalate_cons_cons, List.append_assoc]
  cases xs with
  | nil => exact hnil s
  | cons x xs => rw [hall, hs, List.nil_append]

section Loop
variable (C : Codec) (signedContent : Bool)

theorem formItems_eq (items : List Json) :
    formItems C signedContent items = items.map (canonicalForm C signedContent) :=
  map_of_cons _ _ rfl (fun _ _ => rfl) items

theorem lookup_formMembers (members : List (Text × Json)) (k : Text) :
    (formMembers C signedContent members).lookup k =
      (members.lookup k).map (canonicalForm C signedContent) := by
  have hmap : formMembers C signedContent members =
      members.map (fun m => (m.1, canonicalForm C signedContent m.2)) :=
    map_of_cons _ _ rfl (fun _ _ => rfl) members
  rw [hmap, lookup_map_values]

theorem canonicalForm_arr (items : List Json) : canonicalForm C signedContent (.arr items) =
    openBracket::[comma].intercalate (items.map (canonicalForm C signedContent))++
      [closeBracket] := by
  rw [canonicalForm, formItems_eq]

def memberText (o : Json) (k : Text) : Text :=
  quote k++colon::canonicalForm C signedContent ((o.get k).getD .null)

theorem canonicalForm_obj (members : List (Text × Json)) :
    canonicalForm C signedContent (.obj members) =
      openBrace::[comma].intercalate ((keptKeys signedContent members).map
        (memberText C signedContent (.obj members)))++[closeBrace] := by
  rw [canonicalForm]
  congr 4
  funext k
  rw [memberText, Json.get, lookup_formMembers]
  cases members.lookup k <;> rfl

def emitted : Frame → Text
  | .lit t => t
  | .value v => canonicalForm C signedContent v

theorem emitted_items (items : List Json) :
    (itemFrames [] items).flatMap (emitted C signedContent) =
      [comma].intercalate (items.map (canonicalForm C signedContent)) := by
  apply separated_eq (fun sep vs => (itemFrames sep vs).flatMap (emitted C signedContent))
    (fun sep => sep.flatMap (emitted C signedContent)) [.lit [comma]]
  · rfl
  · intro sep
    rfl
  · intro sep v vs
    simp [itemFrames, emitted]
  · rfl

theorem emitted_members (o : Json) (ks : List Text) :
    (memberFrames o [] ks).flatMap (emitted C signedContent) =
      [comma].intercalate (ks.map (memberText C signedContent o)) := by
  apply separated_eq (fun sep ks => (memberFrames o sep ks).flatMap (emitted C signedContent))
    (fun sep => sep.flatMap (emitted C signedContent)) [.lit [comma]]
  · rfl
  · intro sep
    rfl
  · intro sep k ks
    simp [memberFrames, emitted, memberText]
  · rfl

theorem visitFrame_emitted (out out' : Text) (f : Frame) (pushed : List Frame)
    (h : visitFrame C signedContent out f = .ok (out', pushed)) :
    out++emitted C signedContent f = out'++pushed.flatMap (emitted C signedContent) := by
  cases f with
  | lit t =>
    cases h
    simp [emitted]
  | value v =>
    cases v with
    | arr items =>
      cases h
      rw [List.flatMap_append, emitted_items, emitted, canonicalForm_arr]
      simp [emitted]
    | obj members =>
      cases h
      rw [List.flatMap_append, emitted_members, emitted, canonicalForm_obj]
      simp [emitted]
    | _ =>
      cases h
      simp [emitted, canonicalForm]

theorem visitFrame_follows : Follows (visitFrame C signedContent)
    (fun out stack => .ok (out++stack.flatMap (emitted C signedContent))) where
  nil := by simp
  error := fun _ _ _ e => e.elim
  ok := by
    intro out f stack out' pushed h
    rw [List.flatMap_cons, ← List.append_assoc, visitFrame_emitted C signedContent out out' f
      pushed h, List.flatMap_append, List.append_assoc]

theorem keptKeys_length (members : List (Text × Json)) :
    (keptKeys signedContent members).length ≤ members.length := by
  rw [keptKeys, sortKeys, List.length_insertionSort]
  exact le_trans (List.length_filter_le _ _) (by simp)

theorem visitFrame_lowers : Lowers (visitFrame C signedContent) framePops where
  pos := by
    intro f
    cases f with
    | lit t => exact Nat.one_pos
    | value v => exact Nat.lt_of_lt_of_le (Nat.succ_pos _) (pops_visit C v)
  less := by
    intro out f out' pushed h
    change stackPops pushed < framePops f
    cases f with
    | lit t =>
      cases h
      exact Nat.one_pos
    | value v =>
      cases v with
      | arr items =>
        cases h
        exact pops_visit C (.arr items)
      | obj members =>
        cases h
        have hmembers := pops_members members [] (Nat.zero_le _) (keptKeys signedContent members)
        have hlen := Nat.mul_le_mul_right (3+popsMax members)
          (keptKeys_length signedContent members)
        rw [stackPops_append]
        simp only [stackPops, List.map_cons, List.map_nil, List.sum_cons, List.sum_nil, framePops,
          pops] at hmembers ⊢
        omega
      | _ =>
        cases h
        exact Nat.one_pos

theorem canonicalJson_eq_form (v : Json) (rounds : ℕ) (h : pops v ≤ rounds) :
    canonicalJson C signedContent rounds v = some (canonicalForm C signedContent v) := by
  have hsize : stackSize framePops [.value v] ≤ rounds := by simpa [stackSize, framePops] using h
  rw [canonicalJson, walk_follows _ framePops _ (visitFrame_lowers C signedContent)
    (visitFrame_follows C signedContent) rounds [] [.value v] hsize]
  simp [emitted, Except.toOption]

theorem keptKeys_signed (members : List (Text × Json)) :
    keptKeys true members = countedKeys members := by
  rw [keptKeys, countedKeys]
  simp only [Bool.true_and]

theorem scalarToken_signed (v : Json) : scalarToken C true v = tokenOf C v := by
  cases v with
  | num n => cases n <;> rfl
  | _ => rfl

theorem visitFrame_signed (out : Text) (v : Json) : visitFrame C true out (.value v) =
    .ok (out++(visit C v).1, (visit C v).2) := by
  cases v with
  | obj members => rw [visitFrame, keptKeys_signed, visit]
  | arr items => rfl
  | _ => simp only [visitFrame, scalarToken_signed, visit]

theorem walk_signed (n : ℕ) (out : Text) (stack : List Frame) :
    walk (visitFrame C true) n out stack = (loop C n stack out).map Except.ok := by
  induction n generalizing out stack with
  | zero =>
    cases stack with
    | nil => rfl
    | cons f stack => rfl
  | succ n ih =>
    cases stack with
    | nil => rfl
    | cons f stack =>
      cases f with
      | lit t => exact ih (out++t) stack
      | value v =>
        rw [walk, visitFrame_signed, loop]
        exact ih _ _

theorem eventId_canonicalJson (v : Json) : EventId.canonicalJson C v = canonicalForm C true v := by
  have hform := canonicalJson_eq_form C true v (pops v) le_rfl
  rw [canonicalJson, walk_signed] at hform
  rw [EventId.canonicalJson]
  cases hl : loop C (pops v) [.value v] [] with
  | none => simp [hl] at hform
  | some t => simpa [hl, Except.toOption] using hform

end Loop

section Sorted

theorem sortedItems_eq (items : List Json) : sortedItems items = items.map sortedValue :=
  map_of_cons _ _ rfl (fun _ _ => rfl) items

theorem sortedMembers_eq (members : List (Text × Json)) :
    sortedMembers members = members.map (fun m => (m.1, sortedValue m.2)) :=
  map_of_cons _ _ rfl (fun _ _ => rfl) members

theorem finiteItems_iff (items : List Json) : FiniteItems items ↔ ∀ v ∈ items, AllFinite v :=
  forall_of_cons _ _ trivial (fun _ _ => Iff.rfl) items

theorem finiteMembers_iff (members : List (Text × Json)) :
    FiniteMembers members ↔ ∀ m ∈ members, AllFinite m.2 :=
  forall_of_cons _ _ trivial (fun _ _ => Iff.rfl) members

theorem reorderedMembers_iff (members : List (Text × Json)) (o : Json) :
    ReorderedMembers members o ↔
      ∀ m ∈ members, ∃ w, o.get m.1 = some w ∧ Reordered m.2 w :=
  forall_of_cons (fun ms => ReorderedMembers ms o) _ trivial (fun _ _ => Iff.rfl) members

theorem sortMembers_perm (members : List (Text × Json)) : (sortMembers members).Perm members :=
  List.perm_insertionSort _ members

theorem sortMembers_keys (members : List (Text × Json)) :
    (sortMembers members).map Prod.fst = sortKeys (members.map Prod.fst) :=
  List.map_insertionSort _ _ Prod.fst members (fun _ _ _ _ => Iff.rfl)

theorem mem_sorted_iff (members : List (Text × Json)) (m : Text × Json) :
    m ∈ sortMembers (sortedMembers members) ↔ ∃ n ∈ members, (n.1, sortedValue n.2) = m := by
  rw [(sortMembers_perm _).mem_iff, sortedMembers_eq, List.mem_map]

theorem sorted_keys_perm (members : List (Text × Json)) :
    ((sortMembers (sortedMembers members)).map Prod.fst).Perm (members.map Prod.fst) := by
  have hkeys : (sortedMembers members).map Prod.fst = members.map Prod.fst := by
    rw [sortedMembers_eq, List.map_map]
    rfl
  rw [← hkeys]
  exact (sortMembers_perm _).map Prod.fst

theorem stringify_arr (items : List Json) : stringify (.arr items) =
    openBracket::[comma].intercalate (items.map stringify)++[closeBracket] := by
  have hitems : writeItems [] (JsonReader.docItems items) =
      [comma].intercalate (items.map stringify) := by
    apply separated_eq (fun sep vs => writeItems sep (JsonReader.docItems vs)) id [comma]
    · rfl
    · intro sep
      rfl
    · intro sep v vs
      rfl
    · rfl
  rw [stringify, docOf, write, hitems]

theorem stringify_obj (members : List (Text × Json)) : stringify (.obj members) =
    openBrace::[comma].intercalate (members.map (fun m => quote m.1++colon::stringify m.2))++
      [closeBrace] := by
  have hmembers : writeMembers [] (JsonReader.docMembers members) =
      [comma].intercalate (members.map (fun m => quote m.1++colon::stringify m.2)) := by
    apply separated_eq (fun sep ms => writeMembers sep (JsonReader.docMembers ms)) id [comma]
    · rfl
    · intro sep
      rfl
    · intro sep m ms
      simp [JsonReader.docMembers, writeMembers, stringify]
    · rfl
  rw [stringify, docOf, write, hmembers]

theorem docOf_items (items : List Json) : JsonReader.docItems items = items.map docOf :=
  map_of_cons _ _ rfl (fun _ _ => rfl) items

theorem docOf_members (members : List (Text × Json)) :
    JsonReader.docMembers members = members.map (fun m => (m.1, docOf m.2)) :=
  map_of_cons _ _ rfl (fun _ _ => rfl) members

theorem nulled_items (items : List Json) : nulledItems items = items.map nulled :=
  map_of_cons _ _ rfl (fun _ _ => rfl) items

theorem nulled_members (members : List (Text × Json)) :
    nulledMembers members = members.map (fun m => (m.1, nulled m.2)) :=
  map_of_cons _ _ rfl (fun _ _ => rfl) members

theorem sortedValue_token (v : Json) (hv : v.isObject = false) : sortedValue v = v := by
  cases v with
  | arr items => cases hv
  | obj members => cases hv
  | _ => rfl

theorem form_eq_stringify (C : Codec) (v : Json) (h : Parsed v) :
    canonicalForm C false v = stringify (sortedValue v) := by
  induction v using json_induction with
  | token v hv =>
    rw [sortedValue_token v hv]
    cases v with
    | arr items => cases hv
    | obj members => cases hv
    | num n => cases n <;> rfl
    | _ => rfl
  | arr items ih =>
    simp only [Parsed, parsedItems_iff] at h
    have hitems : items.map (canonicalForm C false) =
        (items.map sortedValue).map stringify := by
      rw [List.map_map]
      apply List.map_congr_left
      intro v hv
      exact ih v hv (h v hv)
    rw [canonicalForm_arr, sortedValue, stringify_arr, sortedItems_eq, hitems]
  | obj members ih =>
    simp only [Parsed, parsedMembers_iff] at h
    have hkeys : keptKeys false members =
        (sortMembers (sortedMembers members)).map Prod.fst := by
      rw [sortMembers_keys, sortedMembers_eq, List.map_map, keptKeys]
      simp only [Bool.false_and, Bool.not_false, List.filter_true]
      rfl
    have hmembers : (keptKeys false members).map (memberText C false (.obj members)) =
        (sortMembers (sortedMembers members)).map (fun m => quote m.1++colon::stringify m.2) := by
      rw [hkeys, List.map_map]
      apply List.map_congr_left
      intro m hm
      obtain ⟨n, hn, rfl⟩ := (mem_sorted_iff members m).mp hm
      have hget : members.lookup n.1 = some n.2 := (mem_lookup_iff members h.1 n.1 n.2).mp hn
      simp only [Function.comp_apply, memberText, Json.get, hget, Option.getD_some]
      rw [ih n hn (h.2 n hn)]
    rw [canonicalForm_obj, sortedValue, stringify_obj, hmembers]

theorem sorted_valid (v : Json) (h : Parsed v) : (docOf (sortedValue v)).Valid := by
  induction v using json_induction with
  | token v hv =>
    rw [sortedValue_token v hv]
    cases v with
    | arr items => cases hv
    | obj members => cases hv
    | num n =>
      cases n with
      | finite q => exact h
      | infinite negative => trivial
    | _ => trivial
  | arr items ih =>
    simp only [Parsed, parsedItems_iff] at h
    rw [sortedValue, docOf, Doc.Valid, itemsValid_iff, docOf_items, sortedItems_eq, List.map_map,
      List.forall_mem_map]
    exact fun v hv => ih v hv (h v hv)
  | obj members ih =>
    simp only [Parsed, parsedMembers_iff] at h
    rw [sortedValue, docOf, Doc.Valid, membersValid_iff, docOf_members, List.forall_mem_map]
    intro m hm
    obtain ⟨n, hn, rfl⟩ := (mem_sorted_iff members m).mp hm
    exact ih n hn (h.2 n hn)

theorem nulled_sorted (v : Json) (h : AllFinite v) : nulled (sortedValue v) = sortedValue v := by
  induction v using json_induction with
  | token v hv =>
    rw [sortedValue_token v hv]
    cases v with
    | arr items => cases hv
    | obj members => cases hv
    | num n =>
      cases n with
      | finite q => rfl
      | infinite negative => exact h.elim
    | _ => rfl
  | arr items ih =>
    simp only [AllFinite, finiteItems_iff] at h
    rw [sortedValue, nulled, nulled_items, sortedItems_eq, List.map_map]
    congr 1
    apply List.map_congr_left
    intro v hv
    exact ih v hv (h v hv)
  | obj members ih =>
    simp only [AllFinite, finiteMembers_iff] at h
    rw [sortedValue, nulled, nulled_members]
    congr 1
    calc _ = (sortMembers (sortedMembers members)).map id := by
          apply List.map_congr_left
          intro m hm
          obtain ⟨n, hn, rfl⟩ := (mem_sorted_iff members m).mp hm
          rw [ih n hn (h n hn)]
          rfl
      _ = _ := List.map_id _

theorem reordered_sorted (v : Json) (h : Parsed v) : Reordered v (sortedValue v) := by
  induction v using json_induction with
  | token v hv =>
    rw [sortedValue_token v hv]
    cases v with
    | arr items => cases hv
    | obj members => cases hv
    | _ => rfl
  | arr items ih =>
    simp only [Parsed, parsedItems_iff] at h
    rw [sortedValue, Reordered]
    induction items with
    | nil => rfl
    | cons v vs ihs =>
      rw [List.forall_mem_cons] at h ih
      exact ⟨ih.1 h.1, ihs ih.2 h.2⟩
  | obj members ih =>
    simp only [Parsed, parsedMembers_iff] at h
    have hkeys := sorted_keys_perm members
    have hnodup := hkeys.nodup_iff.mpr h.1
    rw [sortedValue, Reordered, reorderedMembers_iff]
    apply And.intro hkeys.symm
    intro m hm
    apply Exists.intro (sortedValue m.2)
    constructor
    · exact (mem_lookup_iff _ hnodup _ _).mp ((mem_sorted_iff members _).mpr ⟨m, hm, rfl⟩)
    · exact ih m hm (h.2 m hm)

/-- The loop writes the recursive form for either option and ends; what it
writes without regard to signatures reads back as the value in another order. -/
theorem canonical_json_form (C : Codec) (v : Json) (h : Parsed v) :
    (∀ signedContent rounds, pops v ≤ rounds →
      canonicalJson C signedContent rounds v = some (canonicalForm C signedContent v)) ∧
    EventId.canonicalJson C v = canonicalForm C true v ∧
    (AllFinite v → ∃ w, parseText (canonicalForm C false v) = some w ∧ Reordered v w) := by
  constructor
  · intro signedContent rounds hrounds
    exact canonicalJson_eq_form C signedContent v rounds hrounds
  constructor
  · exact eventId_canonicalJson C v
  · intro hfinite
    apply Exists.intro (sortedValue v)
    constructor
    · rw [form_eq_stringify C v h, JsonReader.parseText_stringify _ (sorted_valid v h),
        nulled_sorted v hfinite]
    · exact reordered_sorted v h

end Sorted

section Sample

/-- `{"b":[1,{"d":"x","c":null}],"a":true}` -/
def sampleValue : Json :=
  .obj [(js "b", .arr [.num (.finite 1), .obj [(js "d", .str (js "x")), (js "c", .null)]]),
    (js "a", .bool true)]

theorem sampleValue_parsed : Parsed sampleValue := by
  have hone : JsNumberText.IsDouble 1 := by simpa using JsNumberText.isDouble_nat 1 (by decide)
  simp only [sampleValue, Parsed, ParsedMembers, ParsedItems, and_true]
  exact ⟨by decide, hone, by decide⟩

theorem sample_form :
    (∀ signedContent rounds, pops sampleValue ≤ rounds →
      canonicalJson sampleRuntime.toCodec signedContent rounds sampleValue =
        some (canonicalForm sampleRuntime.toCodec signedContent sampleValue)) ∧
    ∃ w, parseText (canonicalForm sampleRuntime.toCodec false sampleValue) = some w ∧
      Reordered sampleValue w := by
  have h := canonical_json_form sampleRuntime.toCodec sampleValue sampleValue_parsed
  exact ⟨h.1, h.2.2 (by simp [sampleValue, AllFinite, FiniteMembers, FiniteItems])⟩

end Sample

end ControlPlane.CanonicalForm
