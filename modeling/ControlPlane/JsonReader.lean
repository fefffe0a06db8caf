import ControlPlane.JsonText

/-!
# Reading documents

A reader of the texts that `JSON.stringify` writes, by fuel, and the values it
gives back. It inverts the writer for enough fuel, and the length of the text
is enough. A number that is not finite is written as null, so it is read as
null. Blanks are not read, and neither is what the grammar excludes.
-/

set_option autoImplicit false

namespace ControlPlane.JsonReader
open ControlPlane.JsText ControlPlane.JsValue ControlPlane.JsNumberText ControlPlane.JsonText

def wordToken (w : Text) : Option Token :=
  if w = js "null" then some .null
  else if w = js "true" then some (.bool true)
  else if w = js "false" then some (.bool false)
  else if isNumber w then
    match readNumber w with
    | (.finite q, negative) => some (.number (if negative then -q else q))
    | (.infinite _, _) => none
  else none

mutual

def readValue : ℕ → Text → Option (Doc × Text)
  | 0, _ => none
  | n+1, t =>
    match t with
    | [] => none
    | u::rest =>
      if u = quoteMark then (readBody rest).map (fun r => (.token (.text r.1), r.2))
      else if u = openBracket then
        if rest.head? = some closeBracket then some (.arr [], rest.tail)
        else (readItems n rest).map (fun r => (.arr r.1, r.2))
      else if u = openBrace then
        if rest.head? = some closeBrace then some (.obj [], rest.tail)
        else (readMembers n rest).map (fun r => (.obj r.1, r.2))
      else (wordToken (t.takeWhile isWordUnit)).map (fun x => (.token x, t.dropWhile isWordUnit))

def readItems : ℕ → Text → Option (List Doc × Text)
  | 0, _ => none
  | n+1, t =>
    (readValue n t).bind (fun r =>
      match r.2 with
      | u::rest =>
        if u = closeBracket then some ([r.1], rest)
        else if u = comma then (readItems n rest).map (fun s => (r.1::s.1, s.2))
        else none
      | [] => none)

def readMembers : ℕ → Text → Option (List (Text × Doc) × Text)
  | 0, _ => none
  | n+1, t =>
    match t with
    | u::key =>
      if u = quoteMark then
        (readBody key).bind (fun k =>
          match k.2 with
          | v::value =>
            if v = colon then
              (readValue n value).bind (fun r =>
                match r.2 with
                | u::rest =>
                  if u = closeBrace then some ([(k.1, r.1)], rest)
                  else if u = comma then
                    (readMembers n rest).map (fun s => ((k.1, r.1)::s.1, s.2))
                  else none
                | [] => none)
            else none
          | [] => none)
      else none
    | [] => none

end

def readDoc (t : Text) : Option Doc :=
  (readValue (t.length+1) t).bind (fun r => if r.2 = [] then some r.1 else none)

mutual

def size : Doc → ℕ
  | .token _ => 1
  | .arr items => 1+itemsSize items
  | .obj members => 1+membersSize members

def itemsSize : List Doc → ℕ
  | [] => 0
  | d::ds => 1+size d+itemsSize ds

def membersSize : List (Text × Doc) → ℕ
  | [] => 0
  | (_, d)::ms => 1+size d+membersSize ms

end

theorem wordToken_write (x : Token) (hx : x.Valid) (hw : ∀ s, x ≠ .text s) :
    wordToken (writeToken x) = some x := by
  cases x with
  | null => rfl
  | bool b => cases b <;> rfl
  | text s => exact absurd rfl (hw s)
  | number q =>
    obtain ⟨u, rest, ht, hu⟩ := numberText_head q hx
    have hword : ∀ v w, isDigit v = false → v ≠ 0x2D → numberText q ≠ v::w := by
      intro v w hv hm h
      rw [ht] at h
      obtain ⟨rfl, -⟩ := List.cons.inj h
      rcases hu with hu | hu
      · rw [hv] at hu
        cases hu
      · exact hm hu
    have hnull : numberText q ≠ js "null" := hword 0x6E (js "ull") (by decide) (by decide)
    have htrue : numberText q ≠ js "true" := hword 0x74 (js "rue") (by decide) (by decide)
    have hfalse : numberText q ≠ js "false" := hword 0x66 (js "alse") (by decide) (by decide)
    rw [wordToken, writeToken, if_neg hnull, if_neg htrue, if_neg hfalse,
      if_pos (isNumber_numberText q hx), read_numberText q hx]
    by_cases hq : q < 0
    · simp [hq, abs_of_neg hq]
    · simp [hq, abs_of_nonneg (not_lt.mp hq)]

theorem readValue_token (n : ℕ) (x : Token) (hx : x.Valid) (r : Text) (hr : Ends r) :
    readValue (n+1) (writeToken x++r) = some (.token x, r) := by
  rcases token_words x with ⟨s, rfl⟩ | hwords
  · rw [writeToken, quote, List.append_assoc, List.cons_append, List.cons_append,
      List.nil_append, readValue, if_pos rfl, readBody_quoteBody]
    rfl
  · obtain ⟨u, rest, hu, -⟩ := token_head x hx
    have hne := token_not_bracket x hx u r ⟨rest++r, by rw [hu, List.cons_append]⟩
    have hword := hwords u (hu ▸ List.mem_cons_self)
    have hquote : u ≠ quoteMark := by
      rintro rfl
      exact absurd hword (by decide)
    have hnot : ∀ s, x ≠ .text s := by
      rintro s rfl
      exact hquote (List.cons.inj hu).1.symm
    obtain ⟨htake, hdrop⟩ := word_split (writeToken x) r hwords hr
    rw [hu, List.cons_append] at htake hdrop ⊢
    rw [readValue, if_neg hquote, if_neg hne.1, if_neg hne.2.1, htake, hdrop, ← hu,
      wordToken_write x hx hnot]
    rfl

mutual

theorem readValue_write (d : Doc) (n : ℕ) (r : Text) (hd : d.Valid) (hn : size d ≤ n)
    (hr : Ends r) : readValue n (write d++r) = some (d, r) := by
  match n, d with
  | 0, .token _ | 0, .arr _ | 0, .obj _ =>
    simp only [size] at hn
    omega
  | n+1, .token x => exact readValue_token n x hd r hr
  | n+1, .arr [] => rfl
  | n+1, .obj [] => rfl
  | n+1, .arr (d::ds) =>
    simp only [size] at hn
    obtain ⟨u, rest, hu, hne, -⟩ := write_head d hd.1
    have hitems := readItems_write (d::ds) n r hd (by omega) (by simp)
    have hhead : (writeItems [] (d::ds)++closeBracket::r).head? ≠ some closeBracket := by
      rw [writeItems, hu]
      simpa using hne
    rw [write, List.append_assoc, List.cons_append, List.singleton_append, readValue,
      if_neg (by decide), if_pos rfl, if_neg hhead, hitems]
    rfl
  | n+1, .obj ((k, d)::ms) =>
    simp only [size] at hn
    have hmembers := readMembers_write ((k, d)::ms) n r hd (by omega) (by simp)
    have hhead : (writeMembers [] ((k, d)::ms)++closeBrace::r).head? ≠ some closeBrace := by
      rw [writeMembers, quote]
      simp [show quoteMark ≠ closeBrace by decide]
    rw [write, List.append_assoc, List.cons_append, List.singleton_append, readValue,
      if_neg (by decide), if_neg (by decide), if_pos rfl, if_neg hhead, hmembers]
    rfl

theorem readItems_write (ds : List Doc) (n : ℕ) (r : Text) (hd : ItemsValid ds)
    (hn : itemsSize ds ≤ n) (hne : ds ≠ []) :
    readItems n (writeItems [] ds++closeBracket::r) = some (ds, r) := by
  match n, ds with
  | _, [] => exact absurd rfl hne
  | 0, d::ds =>
    simp only [itemsSize] at hn
    omega
  | n+1, [d] =>
    simp only [itemsSize] at hn
    have hvalue := readValue_write d n (closeBracket::r) hd.1 (by omega)
      (ends_cons _ _ (Or.inr (Or.inl rfl)))
    rw [writeItems, writeItems, List.nil_append, List.append_nil, readItems, hvalue]
    simp
  | n+1, d::e::es =>
    simp only [itemsSize] at hn
    have hvalue := readValue_write d n (writeItems [comma] (e::es)++closeBracket::r) hd.1
      (by omega) (ends_items _ _)
    have hitems := readItems_write (e::es) n r hd.2 (by simp only [itemsSize]; omega) (by simp)
    rw [writeItems, List.nil_append, List.append_assoc, readItems, hvalue, Option.bind_some]
    simp only [writeItems, List.nil_append, List.append_assoc, List.cons_append] at hitems ⊢
    rw [if_neg (by decide), if_pos trivial, hitems]
    rfl

theorem readMembers_write (ms : List (Text × Doc)) (n : ℕ) (r : Text) (hm : MembersValid ms)
    (hn : membersSize ms ≤ n) (hne : ms ≠ []) :
    readMembers n (writeMembers [] ms++closeBrace::r) = some (ms, r) := by
  match n, ms with
  | _, [] => exact absurd rfl hne
  | 0, (k, d)::ms =>
    simp only [membersSize] at hn
    omega
  | n+1, [(k, d)] =>
    simp only [membersSize] at hn
    have hvalue := readValue_write d n (closeBrace::r) hm.1 (by omega)
      (ends_cons _ _ (Or.inr (Or.inr rfl)))
    rw [writeMembers, writeMembers]
    simp only [quote, List.nil_append, List.append_nil, List.cons_append, List.append_assoc]
    rw [readMembers, if_pos rfl, readBody_quoteBody, Option.bind_some]
    simp only [if_true, hvalue, Option.bind_some]
  | n+1, (k, d)::(l, e)::ms =>
    simp only [membersSize] at hn
    have hvalue := readValue_write d n (writeMembers [comma] ((l, e)::ms)++closeBrace::r) hm.1
      (by omega) (ends_members _ _)
    have hmembers := readMembers_write ((l, e)::ms) n r hm.2
      (by simp only [membersSize]; omega) (by simp)
    rw [writeMembers]
    simp only [quote, List.nil_append, List.cons_append, List.append_assoc]
    rw [readMembers, if_pos rfl, readBody_quoteBody, Option.bind_some]
    simp only [if_true, hvalue, Option.bind_some]
    simp only [writeMembers, List.nil_append, List.append_assoc, List.cons_append] at hmembers ⊢
    rw [if_neg (by decide), if_pos trivial, hmembers]
    rfl

end

mutual

theorem size_le_length (d : Doc) (hd : d.Valid) : size d ≤ (write d).length := by
  match d with
  | .token x =>
    obtain ⟨u, rest, hu, -⟩ := token_head x hd
    rw [size, write, hu, List.length_cons]
    omega
  | .arr [] =>
    rw [size, itemsSize]
    decide
  | .arr (d::ds) =>
    have hsize := size_le_length d hd.1
    have hrest := itemsSize_le_length ds hd.2
    simp only [size, itemsSize, write, writeItems, List.length_append, List.length_cons,
      List.length_nil] at hrest ⊢
    omega
  | .obj ms =>
    have h := membersSize_le_length [] ms hd
    simp only [size, write, List.length_append, List.length_cons, List.length_nil] at h ⊢
    omega

theorem itemsSize_le_length (ds : List Doc) (hd : ItemsValid ds) :
    itemsSize ds ≤ (writeItems [comma] ds).length := by
  match ds with
  | [] => simp [itemsSize]
  | d::ds =>
    have hsize := size_le_length d hd.1
    have hrest := itemsSize_le_length ds hd.2
    simp only [itemsSize, writeItems, List.length_append, List.length_cons, List.length_nil]
    omega

theorem membersSize_le_length (sep : Text) (ms : List (Text × Doc)) (hm : MembersValid ms) :
    membersSize ms ≤ (writeMembers sep ms).length := by
  match ms with
  | [] => simp [membersSize]
  | (k, d)::ms =>
    have hsize := size_le_length d hm.1
    have hrest := membersSize_le_length [comma] ms hm.2
    simp only [membersSize, writeMembers, quote, List.length_append, List.length_cons]
    omega

end

theorem readDoc_write (d : Doc) (hd : d.Valid) : readDoc (write d) = some d := by
  have hend : Ends [] := fun u rest heq => by cases heq
  have hsize := size_le_length d hd
  have h := readValue_write d ((write d).length+1) [] hd (by omega) hend
  rw [List.append_nil] at h
  rw [readDoc, h]
  rfl

mutual

/-- The document of `JSON.stringify`. -/
def docOf : Json → Doc
  | .null => .token .null
  | .bool b => .token (.bool b)
  | .num (.finite q) => .token (.number q)
  | .num (.infinite _) => .token .null
  | .str s => .token (.text s)
  | .arr items => .arr (docItems items)
  | .obj members => .obj (docMembers members)

def docItems : List Json → List Doc
  | [] => []
  | v::vs => docOf v::docItems vs

def docMembers : List (Text × Json) → List (Text × Doc)
  | [] => []
  | (k, v)::ms => (k, docOf v)::docMembers ms

end

mutual

def valueOf : Doc → Json
  | .token .null => .null
  | .token (.bool b) => .bool b
  | .token (.number q) => .num (.finite q)
  | .token (.text s) => .str s
  | .arr items => .arr (valueItems items)
  | .obj members => .obj (valueMembers members)

def valueItems : List Doc → List Json
  | [] => []
  | d::ds => valueOf d::valueItems ds

def valueMembers : List (Text × Doc) → List (Text × Json)
  | [] => []
  | (k, d)::ms => (k, valueOf d)::valueMembers ms

end

mutual

/-- The value with every number that is not finite replaced by null. -/
def nulled : Json → Json
  | .num (.infinite _) => .null
  | .arr items => .arr (nulledItems items)
  | .obj members => .obj (nulledMembers members)
  | v => v

def nulledItems : List Json → List Json
  | [] => []
  | v::vs => nulled v::nulledItems vs

def nulledMembers : List (Text × Json) → List (Text × Json)
  | [] => []
  | (k, v)::ms => (k, nulled v)::nulledMembers ms

end

def stringify (v : Json) : Text := write (docOf v)

def parseText (t : Text) : Option Json := (readDoc t).map valueOf

mutual

theorem valueOf_docOf (v : Json) : valueOf (docOf v) = nulled v := by
  match v with
  | .null | .bool _ | .num (.finite _) | .num (.infinite _) | .str _ => rfl
  | .arr items => rw [docOf, valueOf, nulled, valueItems_docItems items]
  | .obj members => rw [docOf, valueOf, nulled, valueMembers_docMembers members]

theorem valueItems_docItems (vs : List Json) : valueItems (docItems vs) = nulledItems vs := by
  match vs with
  | [] => rfl
  | v::vs => rw [docItems, valueItems, nulledItems, valueOf_docOf v, valueItems_docItems vs]

theorem valueMembers_docMembers (ms : List (Text × Json)) :
    valueMembers (docMembers ms) = nulledMembers ms := by
  match ms with
  | [] => rfl
  | (k, v)::ms =>
    rw [docMembers, valueMembers, nulledMembers, valueOf_docOf v, valueMembers_docMembers ms]

end

theorem parseText_stringify (v : Json) (h : (docOf v).Valid) :
    parseText (stringify v) = some (nulled v) := by
  rw [parseText, stringify, readDoc_write _ h, Option.map_some, valueOf_docOf]

example : [js "[01]", js "[1.]", [quoteMark, 0x0A, quoteMark], js "\"\\u00gg\""].map
    (fun t => (parseText t).isNone) = [true, true, true, true] := by decide +kernel

section Units

def isPlain (u : UInt16) : Bool := 0x20 ≤ u && !isHigh u && !isLow u

theorem plain_wellFormed (t : Text) (h : ∀ u ∈ t, isPlain u = true) : isWellFormed t = true := by
  induction t with
  | nil => rfl
  | cons u t ih =>
    obtain ⟨hu, ht⟩ := List.forall_mem_cons.mp h
    simp only [isPlain, Bool.and_eq_true, Bool.not_eq_true'] at hu
    rw [isWellFormed_cons_plain u t hu.1.2 hu.2]
    exact ih ht

theorem isWellFormed_append (s t : Text) (hs : isWellFormed s = true) (ht : isWellFormed t = true) :
    isWellFormed (s++t) = true := by
  induction s using isWellFormed.induct with
  | case1 => exact ht
  | case2 u =>
    simp only [isWellFormed, Bool.and_eq_true, Bool.not_eq_true'] at hs
    rw [List.singleton_append, isWellFormed_cons_plain u t hs.1 hs.2]
    exact ht
  | case3 u v rest hp ih =>
    rw [isWellFormed, if_pos hp] at hs
    rw [List.cons_append, List.cons_append, isWellFormed, if_pos hp]
    exact ih hs
  | case4 u v rest hp ih =>
    rw [isWellFormed, if_neg hp] at hs
    simp only [Bool.and_eq_true] at hs
    rw [List.cons_append, List.cons_append, isWellFormed, if_neg hp]
    simp only [Bool.and_eq_true]
    exact ⟨hs.1, ih hs.2⟩

def Printable (t : Text) : Prop := (∀ u ∈ t, 0x20 ≤ u) ∧ isWellFormed t = true

theorem printable_plain (t : Text) (h : ∀ u ∈ t, isPlain u = true) : Printable t := by
  constructor
  · intro u hu
    have := h u hu
    simp only [isPlain, Bool.and_eq_true, decide_eq_true_eq] at this
    exact this.1.1
  · exact plain_wellFormed t h

theorem printable_nil : Printable [] := printable_plain [] (fun _ h => absurd h List.not_mem_nil)

theorem printable_unit (u : UInt16) (h : isPlain u = true) : Printable [u] :=
  printable_plain [u] (List.forall_mem_singleton.mpr h)

theorem printable_append (s t : Text) (hs : Printable s) (ht : Printable t) :
    Printable (s++t) := by
  constructor
  · exact List.forall_mem_append.mpr ⟨hs.1, ht.1⟩
  · exact isWellFormed_append s t hs.2 ht.2

theorem printable_cons (u : UInt16) (t : Text) (hu : isPlain u = true) (ht : Printable t) :
    Printable (u::t) :=
  printable_append [u] t (printable_unit u hu) ht

theorem escapeUnit_plain (u : UInt16) : ∀ v ∈ escapeUnit u, isPlain v = true := by
  have hhex : ∀ d < 16, isPlain (hexUnit d) = true := by decide
  rw [escapeUnit]
  split
  · next e he =>
    have hshort : shortEscapes.all (fun e => isPlain e.2) = true := by decide
    have h2 := List.all_eq_true.mp hshort e (List.mem_of_find?_eq_some he)
    intro v hv
    rcases List.mem_cons.mp hv with rfl | hv
    · decide
    · rw [List.mem_singleton.mp hv]
      exact h2
  · split_ifs with h
    · have hlt : u.toNat < 65536 := u.toNat_lt
      rw [List.forall_mem_cons, List.forall_mem_cons]
      refine ⟨by decide, by decide, ?_⟩
      intro v hv
      simp only [hex4, List.mem_cons, List.not_mem_nil, or_false] at hv
      rcases hv with rfl | rfl | rfl | rfl <;> exact hhex _ (by omega)
    · intro v hv
      rw [List.mem_singleton.mp hv]
      simp only [Bool.or_eq_true, decide_eq_true_eq, not_or, UInt16.not_lt,
        Bool.not_eq_true] at h
      simp [isPlain, h.1.1, h.1.2, h.2]

theorem quoteBody_printable (s : Text) : Printable (quoteBody s) := by
  induction s using quoteBody.induct with
  | case1 => exact printable_nil
  | case2 u => exact printable_plain _ (escapeUnit_plain u)
  | case3 u v rest hp ih =>
    rw [quoteBody, if_pos hp]
    simp only [Bool.and_eq_true] at hp
    apply printable_append [u, v] _ ?_ ih
    constructor
    · have hu := hp.1
      have hv := hp.2
      simp only [isHigh, isLow, Bool.and_eq_true, decide_eq_true_eq] at hu hv
      rw [List.forall_mem_cons, List.forall_mem_singleton]
      exact ⟨UInt16.le_trans (by decide) hu.1, UInt16.le_trans (by decide) hv.1⟩
    · simp [isWellFormed, hp.1, hp.2]
  | case4 u v rest hp ih =>
    rw [quoteBody, if_neg hp]
    exact printable_append _ _ (printable_plain _ (escapeUnit_plain u)) ih

theorem quote_printable (s : Text) : Printable (quote s) := by
  apply printable_cons _ _ (by decide)
  exact printable_append _ _ (quoteBody_printable s) (printable_unit _ (by decide))

theorem wordUnit_plain (u : UInt16) (h : isWordUnit u = true) : isPlain u = true := by
  have hlow : 0x20 ≤ u.toNat ∧ u.toNat < 0x80 := by
    simp only [isWordUnit, isNumberUnit, isDigit, Bool.or_eq_true, Bool.and_eq_true,
      decide_eq_true_eq, UInt16.le_iff_toNat_le] at h
    rcases h with ((((h | rfl) | rfl) | rfl) | rfl) | h
    · simp only [UInt16.reduceToNat] at h
      omega
    · decide
    · decide
    · decide
    · decide
    · simp only [UInt16.reduceToNat] at h
      omega
  simp only [isPlain, isHigh, isLow, Bool.and_eq_true, Bool.not_eq_true', Bool.and_eq_false_imp,
    decide_eq_true_eq, decide_eq_false_iff_not, UInt16.le_iff_toNat_le, UInt16.reduceToNat]
  omega

theorem writeToken_printable (x : Token) : Printable (writeToken x) := by
  rcases token_words x with ⟨s, rfl⟩ | hw
  · exact quote_printable s
  · exact printable_plain _ (fun u hu => wordUnit_plain u (hw u hu))

mutual

theorem write_printable (d : Doc) : Printable (write d) := by
  match d with
  | .token x => exact writeToken_printable x
  | .arr items =>
    rw [write]
    apply printable_cons _ _ (by decide)
    exact printable_append _ _ (writeItems_printable [] items printable_nil)
      (printable_unit _ (by decide))
  | .obj members =>
    rw [write]
    apply printable_cons _ _ (by decide)
    exact printable_append _ _ (writeMembers_printable [] members printable_nil)
      (printable_unit _ (by decide))

theorem writeItems_printable (sep : Text) (ds : List Doc) (hs : Printable sep) :
    Printable (writeItems sep ds) := by
  match ds with
  | [] => exact printable_nil
  | d::ds =>
    rw [writeItems]
    apply printable_append _ _ (printable_append _ _ hs (write_printable d))
    exact writeItems_printable [comma] ds (printable_unit _ (by decide))

theorem writeMembers_printable (sep : Text) (ms : List (Text × Doc)) (hs : Printable sep) :
    Printable (writeMembers sep ms) := by
  match ms with
  | [] => exact printable_nil
  | (k, d)::ms =>
    rw [writeMembers]
    have hkey := printable_append _ _ hs (quote_printable k)
    have hvalue := printable_cons colon _ (by decide) (write_printable d)
    apply printable_append _ _ (printable_append _ _ hkey hvalue)
    exact writeMembers_printable [comma] ms (printable_unit _ (by decide))

end

end Units

end ControlPlane.JsonReader
