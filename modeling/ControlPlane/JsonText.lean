import Mathlib.Data.Bool.AllAny
import ControlPlane.JsNumberText

/-!
# JSON documents as text

`JSON.stringify` of one token, and the text of a document with no blanks. A
quote ends a string, and a comma or a closing bracket ends every other value,
so a document is determined by its text.
-/

set_option autoImplicit false

namespace ControlPlane.JsonText
open ControlPlane.JsText ControlPlane.JsValue ControlPlane.JsNumberText

def quoteMark : UInt16 := 0x22

def backslash : UInt16 := 0x5C

def letterU : UInt16 := 0x75

def comma : UInt16 := 0x2C

def colon : UInt16 := 0x3A

def openBracket : UInt16 := 0x5B

def closeBracket : UInt16 := 0x5D

def openBrace : UInt16 := 0x7B

def closeBrace : UInt16 := 0x7D

def hex4 (u : UInt16) : Text :=
  let n := u.toNat
  [hexUnit (n/4096), hexUnit (n/256 % 16), hexUnit (n/16 % 16), hexUnit (n % 16)]

/-- `\b \t \n \f \r \" \\` -/
def shortEscapes : List (UInt16 × UInt16) :=
  [(0x08, 0x62), (0x09, 0x74), (0x0A, 0x6E), (0x0C, 0x66), (0x0D, 0x72),
    (quoteMark, quoteMark), (backslash, backslash)]

def escapeUnit (u : UInt16) : Text :=
  match shortEscapes.find? (fun e => e.1 = u) with
  | some e => [backslash, e.2]
  | none => if u < 0x20 || isHigh u || isLow u then backslash::letterU::hex4 u else [u]

/-- A surrogate pair stays as it is, a lone surrogate is escaped. -/
def quoteBody : Text → Text
  | [] => []
  | [u] => escapeUnit u
  | u::v::rest =>
    if isHigh u && isLow v then u::v::quoteBody rest else escapeUnit u++quoteBody (v::rest)

def quote (s : Text) : Text := quoteMark::quoteBody s++[quoteMark]

/-- A slash may be escaped as well. -/
def readEscapes : List (UInt16 × UInt16) := (0x2F, 0x2F)::shortEscapes

/-- The string up to its closing quote, and what follows. No control character
stands in it as it is. -/
def readBody : Text → Option (Text × Text)
  | [] => none
  | [u] => if u = quoteMark then some ([], []) else none
  | u::v::rest =>
    if u = quoteMark then some ([], v::rest)
    else if u = backslash then
      if v = letterU then
        match rest with
        | a::b::c::d::after =>
          (readHex [a, b, c, d]).bind (fun n =>
            (readBody after).map (fun r => (UInt16.ofNat n::r.1, r.2)))
        | _ => none
      else
        (readEscapes.find? (fun e => e.2 = v)).bind (fun e =>
          (readBody rest).map (fun r => (e.1::r.1, r.2)))
    else if u < 0x20 then none
    else (readBody (v::rest)).map (fun r => (u::r.1, r.2))

theorem readBody_cons (u v : UInt16) (rest : Text) :
    readBody (u::v::rest) =
      if u = quoteMark then some ([], v::rest)
      else if u = backslash then
        if v = letterU then
          match rest with
          | a::b::c::d::after =>
            (readHex [a, b, c, d]).bind (fun n =>
              (readBody after).map (fun r => (UInt16.ofNat n::r.1, r.2)))
          | _ => none
        else
          (readEscapes.find? (fun e => e.2 = v)).bind (fun e =>
            (readBody rest).map (fun r => (e.1::r.1, r.2)))
      else if u < 0x20 then none
      else (readBody (v::rest)).map (fun r => (u::r.1, r.2)) :=
  readBody.eq_def _

theorem readHex_hex4 (u : UInt16) : readHex (hex4 u) = some u.toNat := by
  have hu : u.toNat < 65536 := u.toNat_lt
  have hds : ∀ d ∈ [u.toNat/4096, u.toNat/256 % 16, u.toNat/16 % 16, u.toNat % 16], d < 16 := by
    simp only [List.forall_mem_cons, List.not_mem_nil, false_implies, implies_true, and_true]
    omega
  have hread : (hex4 u).mapM hexDigit = some _ := mapM_hexUnit _ hds
  rw [readHex, hread, Option.map_some]
  simp only [List.reverse_cons, List.reverse_nil, List.nil_append, List.cons_append,
    Nat.ofDigits_cons, Nat.ofDigits_nil]
  congr 1
  omega

theorem readBody_plain (u : UInt16) (r : Text) (hq : u ≠ quoteMark) (hb : u ≠ backslash)
    (hc : ¬u < 0x20) : readBody (u::r) = (readBody r).map (fun p => (u::p.1, p.2)) := by
  cases r with
  | nil => simp [readBody, hq]
  | cons v rest => rw [readBody_cons, if_neg hq, if_neg hb, if_neg hc]

theorem readBody_escape (u : UInt16) (r : Text) :
    readBody (escapeUnit u++r) = (readBody r).map (fun p => (u::p.1, p.2)) := by
  cases hf : shortEscapes.find? (fun e => e.1 = u) with
  | some e =>
    have he := List.mem_of_find?_eq_some hf
    have hu := List.find?_some hf
    simp only [decide_eq_true_eq] at hu
    have hall : shortEscapes.all (fun e => e.2 ≠ letterU ∧
        readEscapes.find? (fun x => x.2 = e.2) = some e) = true := by decide
    have hback := List.all_iff_forall_prop.mp hall e he
    have hne : backslash ≠ quoteMark := by decide
    simp only [escapeUnit, hf, List.cons_append, List.nil_append, readBody_cons, if_neg hne,
      if_true, if_neg hback.1, hback.2, Option.bind_some, hu]
  | none =>
    have hplain : u ≠ quoteMark ∧ u ≠ backslash := by
      have := List.find?_eq_none.mp hf
      constructor
      · rintro rfl
        exact this (quoteMark, quoteMark) (by decide) (by decide)
      · rintro rfl
        exact this (backslash, backslash) (by decide) (by decide)
    have hne : backslash ≠ quoteMark := by decide
    simp only [escapeUnit, hf]
    split_ifs with hescaped
    · have hhex := readHex_hex4 u
      simp only [hex4] at hhex ⊢
      simp only [List.cons_append, List.nil_append, readBody_cons, if_neg hne, if_true, hhex,
        Option.bind_some, UInt16.ofNat_toNat]
    · have hcontrol : ¬u < 0x20 := fun h => hescaped (by simp [h])
      exact readBody_plain u r hplain.1 hplain.2 hcontrol

theorem surrogate_plain (u : UInt16) (h : isHigh u = true ∨ isLow u = true) :
    u ≠ quoteMark ∧ u ≠ backslash ∧ ¬u < 0x20 := by
  refine ⟨?_, ?_, ?_⟩
  · rintro rfl
    exact absurd h (by decide)
  · rintro rfl
    exact absurd h (by decide)
  · intro hu
    rw [UInt16.lt_iff_toNat_lt] at hu
    simp only [isHigh, isLow, Bool.and_eq_true, decide_eq_true_eq, UInt16.le_iff_toNat_le] at h
    have h20 : (0x20 : UInt16).toNat = 32 := rfl
    have hhigh : (0xD800 : UInt16).toNat = 55296 := rfl
    have hlow : (0xDC00 : UInt16).toNat = 56320 := rfl
    omega

theorem readBody_quoteBody (s r : Text) :
    readBody (quoteBody s++quoteMark::r) = some (s, r) := by
  have hend : readBody (quoteMark::r) = some ([], r) := by
    cases r with
    | nil => rfl
    | cons v rest => rw [readBody_cons, if_pos rfl]
  induction s using quoteBody.induct with
  | case1 => exact hend
  | case2 u => rw [quoteBody, readBody_escape, hend]; rfl
  | case3 u v rest hp ih =>
    simp only [Bool.and_eq_true] at hp
    have hu := surrogate_plain u (Or.inl hp.1)
    have hv := surrogate_plain v (Or.inr hp.2)
    simp only [quoteBody, hp, Bool.and_self, if_true, List.cons_append]
    rw [readBody_plain u _ hu.1 hu.2.1 hu.2.2, readBody_plain v _ hv.1 hv.2.1 hv.2.2, ih]
    rfl
  | case4 u v rest hp ih =>
    simp only [quoteBody, hp, Bool.false_eq_true, if_false, List.append_assoc]
    rw [readBody_escape, ih]
    rfl

theorem quote_unique (s t r r' : Text) (h : quote s++r = quote t++r') : s = t ∧ r = r' := by
  simp only [quote, List.cons_append, List.append_assoc, List.nil_append, List.cons.injEq,
    true_and] at h
  have hread := (readBody_quoteBody s r).symm.trans
    ((congrArg readBody h).trans (readBody_quoteBody t r'))
  exact Prod.mk.inj (Option.some.inj hread)

inductive Token where
  | null
  | bool (b : Bool)
  | number (q : ℚ)
  | text (s : Text)
  deriving DecidableEq

def writeToken : Token → Text
  | .null => js "null"
  | .bool b => if b then js "true" else js "false"
  | .number q => numberText q
  | .text s => quote s

def Token.Valid : Token → Prop
  | .number q => IsDouble q
  | _ => True

def isWordUnit (u : UInt16) : Bool := isNumberUnit u || (0x61 ≤ u && u ≤ 0x7A)

def Ends (r : Text) : Prop :=
  ∀ u rest, r = u::rest → u = comma ∨ u = closeBracket ∨ u = closeBrace

theorem ends_cons (u : UInt16) (r : Text) (h : u = comma ∨ u = closeBracket ∨ u = closeBrace) :
    Ends (u::r) := by
  intro v rest heq
  obtain ⟨rfl, -⟩ := List.cons.inj heq
  exact h

theorem word_split (t r : Text) (ht : ∀ u ∈ t, isWordUnit u = true) (hr : Ends r) :
    (t++r).takeWhile isWordUnit = t ∧ (t++r).dropWhile isWordUnit = r := by
  rw [List.takeWhile_append_of_pos ht, List.dropWhile_append_of_pos ht]
  cases r with
  | nil => simp
  | cons u rest =>
    have hu : isWordUnit u = false := by
      rcases hr u rest rfl with rfl | rfl | rfl <;> decide
    simp [hu]

theorem token_words (x : Token) : (∃ s, x = .text s) ∨ ∀ u ∈ writeToken x, isWordUnit u = true := by
  cases x with
  | null => exact Or.inr (List.all_eq_true.mp rfl)
  | bool b => right; cases b <;> exact List.all_eq_true.mp rfl
  | number q => exact Or.inr (fun u hu => by simp [isWordUnit, numberText_units q u hu])
  | text s => exact Or.inl ⟨s, rfl⟩

def Token.kind : Token → ℕ
  | .null => 0
  | .bool true => 1
  | .bool false => 2
  | .text _ => 3
  | .number _ => 4

def unitKind (u : UInt16) : ℕ :=
  if u = 0x6E then 0 else if u = 0x74 then 1 else if u = 0x66 then 2
  else if u = quoteMark then 3 else 4

theorem unitKind_number (u : UInt16) (h : isDigit u = true ∨ u = 0x2D) : unitKind u = 4 := by
  unfold unitKind
  split_ifs with h1 h2 h3 h4
  · subst h1
    exact absurd h (by decide)
  · subst h2
    exact absurd h (by decide)
  · subst h3
    exact absurd h (by decide)
  · subst h4
    exact absurd h (by decide)
  · rfl

theorem token_head (x : Token) (hx : x.Valid) :
    ∃ u rest, writeToken x = u::rest ∧ unitKind u = x.kind := by
  cases x with
  | null => exact ⟨_, _, rfl, rfl⟩
  | bool b => cases b <;> exact ⟨_, _, rfl, rfl⟩
  | number q =>
    obtain ⟨u, rest, ht, hu⟩ := numberText_head q hx
    exact ⟨u, rest, ht, unitKind_number u hu⟩
  | text s => exact ⟨_, _, rfl, rfl⟩

theorem writeToken_injective (x y : Token) (hx : x.Valid) (hy : y.Valid)
    (h : writeToken x = writeToken y) : x = y := by
  obtain ⟨u, r, hu, hxu⟩ := token_head x hx
  obtain ⟨v, r', hv, hyv⟩ := token_head y hy
  obtain ⟨rfl, -⟩ := List.cons.inj (hu.symm.trans (h.trans hv))
  have hkind := hxu.symm.trans hyv
  match x, y with
  | .null, .null => rfl
  | .bool true, .bool true => rfl
  | .bool false, .bool false => rfl
  | .number p, .number q => rw [numberText_injective p q hx hy h]
  | .text s, .text t => rw [(quote_unique s t [] [] (by simpa [writeToken] using h)).1]
  | .null, .bool true | .null, .bool false | .null, .number _ | .null, .text _
  | .bool true, .null | .bool true, .bool false | .bool true, .number _ | .bool true, .text _
  | .bool false, .null | .bool false, .bool true | .bool false, .number _
  | .bool false, .text _ | .number _, .null | .number _, .bool true | .number _, .bool false
  | .number _, .text _ | .text _, .null | .text _, .bool true | .text _, .bool false
  | .text _, .number _ => cases hkind

theorem token_unique (x y : Token) (hx : x.Valid) (hy : y.Valid) (r r' : Text) (hr : Ends r)
    (hr' : Ends r') (h : writeToken x++r = writeToken y++r') : x = y ∧ r = r' := by
  obtain ⟨u, rx, hu, -⟩ := token_head x hx
  obtain ⟨v, ry, hv, -⟩ := token_head y hy
  have huv : u = v := by
    rw [hu, hv] at h
    exact (List.cons.inj h).1
  rcases token_words x with ⟨s, rfl⟩ | hxw
  · rcases token_words y with ⟨t, rfl⟩ | hyw
    · obtain ⟨rfl, hrr⟩ := quote_unique s t r r' h
      exact ⟨rfl, hrr⟩
    · have hq : v = quoteMark := huv ▸ (List.cons.inj hu).1.symm
      exact absurd (hyw v (hv ▸ List.mem_cons_self)) (by rw [hq]; decide)
  · rcases token_words y with ⟨t, rfl⟩ | hyw
    · have hq : u = quoteMark := huv ▸ (List.cons.inj hv).1.symm
      exact absurd (hxw u (hu ▸ List.mem_cons_self)) (by rw [hq]; decide)
    · obtain ⟨htx, hdx⟩ := word_split _ r hxw hr
      obtain ⟨hty, hdy⟩ := word_split _ r' hyw hr'
      rw [h] at htx hdx
      exact ⟨writeToken_injective x y hx hy (htx.symm.trans hty), hdx.symm.trans hdy⟩

inductive Doc where
  | token (x : Token)
  | arr (items : List Doc)
  | obj (members : List (Text × Doc))

mutual

def write : Doc → Text
  | .token x => writeToken x
  | .arr items => openBracket::writeItems [] items++[closeBracket]
  | .obj members => openBrace::writeMembers [] members++[closeBrace]

def writeItems : Text → List Doc → Text
  | _, [] => []
  | sep, d::ds => sep++write d++writeItems [comma] ds

def writeMembers : Text → List (Text × Doc) → Text
  | _, [] => []
  | sep, (k, d)::ms => sep++quote k++colon::write d++writeMembers [comma] ms

end

mutual

def Doc.Valid : Doc → Prop
  | .token x => x.Valid
  | .arr items => ItemsValid items
  | .obj members => MembersValid members

def ItemsValid : List Doc → Prop
  | [] => True
  | d::ds => d.Valid ∧ ItemsValid ds

def MembersValid : List (Text × Doc) → Prop
  | [] => True
  | (_, d)::ms => d.Valid ∧ MembersValid ms

end

theorem token_not_bracket (x : Token) (hx : x.Valid) (u : UInt16) (r : Text)
    (h : ∃ rest, writeToken x++r = u::rest) :
    u ≠ openBracket ∧ u ≠ openBrace ∧ u ≠ closeBracket ∧ u ≠ comma := by
  obtain ⟨rest, h⟩ := h
  obtain ⟨v, tail, hv, -⟩ := token_head x hx
  obtain rfl : v = u := by
    rw [hv] at h
    exact (List.cons.inj h).1
  have hword : v = quoteMark ∨ isWordUnit v = true := by
    rcases token_words x with ⟨s, rfl⟩ | hw
    · exact Or.inl (List.cons.inj hv).1.symm
    · exact Or.inr (hw v (hv ▸ List.mem_cons_self))
  refine ⟨?_, ?_, ?_, ?_⟩ <;>
  · rintro rfl
    exact absurd hword (by decide)

theorem write_head (d : Doc) (hd : d.Valid) : ∃ u rest, write d = u::rest ∧
    u ≠ closeBracket ∧ u ≠ comma := by
  cases d with
  | token x =>
    obtain ⟨u, rest, hu, -⟩ := token_head x hd
    have := token_not_bracket x hd u [] ⟨rest, by rw [List.append_nil, hu]⟩
    exact ⟨u, rest, hu, this.2.2⟩
  | arr items => exact ⟨_, _, rfl, by decide, by decide⟩
  | obj members => exact ⟨_, _, rfl, by decide, by decide⟩

theorem ends_items (ds : List Doc) (r : Text) : Ends (writeItems [comma] ds++closeBracket::r) := by
  cases ds with
  | nil => exact ends_cons _ _ (Or.inr (Or.inl rfl))
  | cons d ds => exact ends_cons _ _ (Or.inl rfl)

theorem ends_members (ms : List (Text × Doc)) (r : Text) :
    Ends (writeMembers [comma] ms++closeBrace::r) := by
  cases ms with
  | nil => exact ends_cons _ _ (Or.inr (Or.inr rfl))
  | cons m ms => exact ends_cons _ _ (Or.inl rfl)

theorem items_nil (sep : Text) (hsep : sep = [] ∨ sep = [comma]) (d : Doc) (hd : d.Valid)
    (ds : List Doc) (r r' : Text) :
    closeBracket::r ≠ writeItems sep (d::ds)++closeBracket::r' := by
  obtain ⟨u, rest, hu, hne, -⟩ := write_head d hd
  rcases hsep with rfl | rfl
  · simp only [writeItems, hu, List.nil_append, List.cons_append, ne_eq, List.cons.injEq, not_and]
    exact fun h => (hne h.symm).elim
  · simp only [writeItems, List.cons_append, ne_eq, List.cons.injEq, not_and]
    exact fun h => absurd h (by decide)

theorem members_nil (sep : Text) (hsep : sep = [] ∨ sep = [comma]) (m : Text × Doc)
    (ms : List (Text × Doc)) (r r' : Text) :
    closeBrace::r ≠ writeMembers sep (m::ms)++closeBrace::r' := by
  rcases hsep with rfl | rfl
  · simp only [writeMembers, quote, List.nil_append, List.cons_append, ne_eq, List.cons.injEq,
      not_and]
    exact fun h => absurd h (by decide)
  · simp only [writeMembers, List.cons_append, ne_eq, List.cons.injEq, not_and]
    exact fun h => absurd h (by decide)

mutual

/-- A document is determined by any text that starts with it and goes on
after it as a document can. -/
theorem write_unique (d e : Doc) (hd : d.Valid) (he : e.Valid) (r r' : Text) (hr : Ends r)
    (hr' : Ends r') (h : write d++r = write e++r') : d = e ∧ r = r' := by
  match d, e with
  | .token x, .token y =>
    obtain ⟨rfl, hrr⟩ := token_unique x y hd he r r' hr hr' h
    exact ⟨rfl, hrr⟩
  | .arr ds, .arr es =>
    simp only [write, List.cons_append, List.append_assoc, List.nil_append, List.cons.injEq,
      true_and] at h
    obtain ⟨rfl, hrr⟩ := items_unique ds es hd he [] (Or.inl rfl) r r' h
    exact ⟨rfl, hrr⟩
  | .obj ms, .obj ns =>
    simp only [write, List.cons_append, List.append_assoc, List.nil_append, List.cons.injEq,
      true_and] at h
    obtain ⟨rfl, hrr⟩ := members_unique ms ns hd he [] (Or.inl rfl) r r' h
    exact ⟨rfl, hrr⟩
  | .token x, .arr _ => exact ((token_not_bracket x hd _ r ⟨_, h⟩).1 rfl).elim
  | .token x, .obj _ => exact ((token_not_bracket x hd _ r ⟨_, h⟩).2.1 rfl).elim
  | .arr _, .token y => exact ((token_not_bracket y he _ r' ⟨_, h.symm⟩).1 rfl).elim
  | .obj _, .token y => exact ((token_not_bracket y he _ r' ⟨_, h.symm⟩).2.1 rfl).elim
  | .arr _, .obj _ => exact absurd (List.cons.inj h).1 (by decide)
  | .obj _, .arr _ => exact absurd (List.cons.inj h).1 (by decide)

theorem items_unique (ds es : List Doc) (hd : ItemsValid ds) (he : ItemsValid es) (sep : Text)
    (hsep : sep = [] ∨ sep = [comma]) (r r' : Text)
    (h : writeItems sep ds++closeBracket::r = writeItems sep es++closeBracket::r') :
    ds = es ∧ r = r' := by
  match ds, es with
  | [], [] => exact ⟨rfl, (List.cons.inj h).2⟩
  | [], e::es => exact (items_nil sep hsep e he.1 es r r' h).elim
  | d::ds, [] => exact (items_nil sep hsep d hd.1 ds r' r h.symm).elim
  | d::ds, e::es =>
    simp only [writeItems, List.append_assoc, List.append_cancel_left_eq] at h
    obtain ⟨rfl, hrest⟩ := write_unique d e hd.1 he.1 _ _ (ends_items ds r) (ends_items es r') h
    obtain ⟨rfl, hrr⟩ := items_unique ds es hd.2 he.2 [comma] (Or.inr rfl) r r' hrest
    exact ⟨rfl, hrr⟩

theorem members_unique (ms ns : List (Text × Doc)) (hm : MembersValid ms) (hn : MembersValid ns)
    (sep : Text) (hsep : sep = [] ∨ sep = [comma]) (r r' : Text)
    (h : writeMembers sep ms++closeBrace::r = writeMembers sep ns++closeBrace::r') :
    ms = ns ∧ r = r' := by
  match ms, ns with
  | [], [] => exact ⟨rfl, (List.cons.inj h).2⟩
  | [], n::ns => exact (members_nil sep hsep n ns r r' h).elim
  | m::ms, [] => exact (members_nil sep hsep m ms r' r h.symm).elim
  | (k, d)::ms, (l, e)::ns =>
    simp only [writeMembers, List.append_assoc, List.append_cancel_left_eq, List.cons_append] at h
    obtain ⟨rfl, hvalue⟩ := quote_unique k l _ _ h
    obtain ⟨rfl, hrest⟩ := write_unique d e hm.1 hn.1 _ _ (ends_members ms r)
      (ends_members ns r') (List.cons.inj hvalue).2
    obtain ⟨rfl, hrr⟩ := members_unique ms ns hm.2 hn.2 [comma] (Or.inr rfl) r r' hrest
    exact ⟨rfl, hrr⟩

end

theorem write_injective (d e : Doc) (hd : d.Valid) (he : e.Valid) (h : write d = write e) :
    d = e := by
  have hend : Ends [] := fun u rest heq => by cases heq
  exact (write_unique d e hd he [] [] hend hend (by rw [h])).1

end ControlPlane.JsonText
