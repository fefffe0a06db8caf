import ControlPlane.EventId

/-!
# Which events share an id

Two values are alike if they have the same arrays and the same counted
members, in any order, and related tokens. The canonical texts agree exactly
for values whose tokens are written alike. This forgets the third segment of
a signed string and the detached signature, and besides takes numbers beyond
the doubles for `null` and a signed string for its tagged signing input.
-/

set_option autoImplicit false

namespace ControlPlane.EventIdentity
open ControlPlane.JsText ControlPlane.JsValue ControlPlane.TctParse ControlPlane.JsNumberText
open ControlPlane.JsonText ControlPlane.EventNormalize ControlPlane.EventId

mutual

/-- The values that a JSON text can have. -/
def Parsed : Json → Prop
  | .num (.finite q) => IsDouble q
  | .arr items => ParsedItems items
  | .obj members => (members.map Prod.fst).Nodup ∧ ParsedMembers members
  | _ => True

def ParsedItems : List Json → Prop
  | [] => True
  | v::vs => Parsed v ∧ ParsedItems vs

def ParsedMembers : List (Text × Json) → Prop
  | [] => True
  | (_, v)::ms => Parsed v ∧ ParsedMembers ms

end

/-- A member that counts: all but the detached signature of an envelope. -/
def Counted (o : Json) (k : Text) : Prop :=
  (o.get k).isSome = true ∧ isEnvelopeSignature o k = false

mutual

/-- Equal up to the order of keys, the members that do not count, and a
relation of the values that are no arrays or objects. -/
def Alike (R : Json → Json → Prop) : Json → Json → Prop
  | .arr items, b =>
    match b with
    | .arr others => AlikeItems R items others
    | _ => False
  | .obj members, b =>
    match b with
    | .obj others => (∀ k, Counted (.obj members) k ↔ Counted (.obj others) k) ∧
        AlikeMembers R (.obj members) members (.obj others)
    | _ => False
  | a, b => b.isObject = false ∧ R a b

def AlikeItems (R : Json → Json → Prop) : List Json → List Json → Prop
  | [], others => others = []
  | v::vs, others =>
    match others with
    | w::ws => Alike R v w ∧ AlikeItems R vs ws
    | [] => False

def AlikeMembers (R : Json → Json → Prop) (o : Json) : List (Text × Json) → Json → Prop
  | [], _ => True
  | (k, v)::ms, other =>
    (Counted o k → ∀ w ∈ other.get k, Alike R v w) ∧ AlikeMembers R o ms other

end

/-- The same value, or two signed strings over one signing input. -/
def SameToken (C : Codec) (a b : Json) : Prop :=
  a = b ∨ ∃ s t signingInput, a = .str s ∧ b = .str t ∧
    jwsSigningInput C s = some signingInput ∧ jwsSigningInput C t = some signingInput

/-- `null`, or a number that overflows the doubles. -/
def Vague (a : Json) : Prop := a = .null ∨ ∃ negative, a = .num (.infinite negative)

def Reads (C : Codec) (signingInput : Text) (a : Json) : Prop :=
  ∃ s, a = .str s ∧ (jwsSigningInput C s = some signingInput ∨ s = signingTag++signingInput)

def MistakenToken (C : Codec) (a b : Json) : Prop :=
  SameToken C a b ∨ (Vague a ∧ Vague b) ∨ ∃ signingInput, Reads C signingInput a ∧
    Reads C signingInput b

def Same (C : Codec) : Json → Json → Prop := Alike (SameToken C)

def Mistaken (C : Codec) : Json → Json → Prop := Alike (MistakenToken C)

theorem json_induction (P : Json → Prop) (token : ∀ v, v.isObject = false → P v)
    (arr : ∀ items, (∀ v ∈ items, P v) → P (.arr items))
    (obj : ∀ members : List (Text × Json), (∀ m ∈ members, P m.2) → P (.obj members))
    (v : Json) : P v :=
  @Json.rec P (fun items => ∀ v ∈ items, P v)
    (fun members => ∀ m ∈ members, P m.2) (fun m => P m.2)
    (token _ rfl) (fun _ => token _ rfl) (fun _ => token _ rfl) (fun _ => token _ rfl)
    (fun items h => arr items h) (fun members h => obj members h)
    (fun _ h => (List.not_mem_nil h).elim)
    (fun _ _ hv hvs => List.forall_mem_cons.mpr ⟨hv, hvs⟩)
    (fun _ h => (List.not_mem_nil h).elim)
    (fun _ _ hm hms => List.forall_mem_cons.mpr ⟨hm, hms⟩)
    (fun _ _ h => h) v

theorem parsedItems_iff (items : List Json) : ParsedItems items ↔ ∀ v ∈ items, Parsed v :=
  forall_of_cons _ _ trivial (fun _ _ => Iff.rfl) items

theorem parsedMembers_iff (members : List (Text × Json)) :
    ParsedMembers members ↔ ∀ m ∈ members, Parsed m.2 :=
  forall_of_cons _ _ trivial (fun _ _ => Iff.rfl) members

theorem alikeMembers_iff (R : Json → Json → Prop) (o other : Json)
    (members : List (Text × Json)) : AlikeMembers R o members other ↔
      ∀ m ∈ members, Counted o m.1 → ∀ w ∈ other.get m.1, Alike R m.2 w := by
  apply forall_of_cons (fun ms => AlikeMembers R o ms other)
  · simp only [AlikeMembers]
  · rintro ⟨k, v⟩ ms
    simp only [AlikeMembers]

theorem alike_token (R : Json → Json → Prop) (a b : Json) (ha : a.isObject = false) :
    Alike R a b ↔ b.isObject = false ∧ R a b := by
  cases a with
  | arr items => cases ha
  | obj members => cases ha
  | _ => simp only [Alike]

section Order

theorem unit_trichotomy (u v : UInt16) : u < v ∨ u = v ∨ v < u := by
  rw [UInt16.lt_iff_toNat_lt, UInt16.lt_iff_toNat_lt, ← UInt16.toNat_inj]
  omega

theorem textLe_total (s t : Text) : textLe s t = true ∨ textLe t s = true := by
  induction s generalizing t with
  | nil => exact Or.inl rfl
  | cons u s ih =>
    cases t with
    | nil => exact Or.inr rfl
    | cons v t =>
      simp only [textLe, Bool.or_eq_true, Bool.and_eq_true, decide_eq_true_eq]
      rcases unit_trichotomy u v with h | rfl | h
      · exact Or.inl (Or.inl h)
      · exact (ih t).imp (fun h => Or.inr ⟨rfl, h⟩) (fun h => Or.inr ⟨rfl, h⟩)
      · exact Or.inr (Or.inl h)

theorem textLe_antisymm (s t : Text) (hst : textLe s t = true) (hts : textLe t s = true) :
    s = t := by
  induction s generalizing t with
  | nil =>
    cases t with
    | nil => rfl
    | cons v t => cases hts
  | cons u s ih =>
    cases t with
    | nil => cases hst
    | cons v t =>
      simp only [textLe, Bool.or_eq_true, Bool.and_eq_true, decide_eq_true_eq] at hst hts
      rcases hst with h | ⟨rfl, h⟩
      · rcases hts with h' | ⟨rfl, -⟩
        · exact (UInt16.lt_asymm h h').elim
        · exact (UInt16.lt_irrefl _ h).elim
      · rcases hts with h' | ⟨-, h'⟩
        · exact (UInt16.lt_irrefl _ h').elim
        · rw [ih t h h']

theorem textLe_trans (s t r : Text) (hst : textLe s t = true) (htr : textLe t r = true) :
    textLe s r = true := by
  induction s generalizing t r with
  | nil => rfl
  | cons u s ih =>
    cases t with
    | nil => cases hst
    | cons v t =>
      cases r with
      | nil => cases htr
      | cons w r =>
        simp only [textLe, Bool.or_eq_true, Bool.and_eq_true, decide_eq_true_eq] at hst htr ⊢
        rcases hst with h | ⟨rfl, h⟩
        · rcases htr with h' | ⟨rfl, -⟩
          · exact Or.inl (UInt16.lt_trans h h')
          · exact Or.inl h
        · rcases htr with h' | ⟨rfl, h'⟩
          · exact Or.inl h'
          · exact Or.inr ⟨rfl, ih t r h h'⟩

theorem sortKeys_sorted (ks : List Text) :
    (sortKeys ks).Pairwise (fun s t => textLe s t = true) :=
  have : Std.Total (fun s t : Text => textLe s t = true) := ⟨textLe_total⟩
  have : IsTrans Text (fun s t => textLe s t = true) := ⟨textLe_trans⟩
  List.pairwise_insertionSort _ ks

theorem mem_sortKeys (ks : List Text) (k : Text) : k ∈ sortKeys ks ↔ k ∈ ks :=
  List.mem_insertionSort _

theorem sortKeys_eq_iff (ks ls : List Text) (hk : ks.Nodup) (hl : ls.Nodup) :
    sortKeys ks = sortKeys ls ↔ ∀ k, k ∈ ks ↔ k ∈ ls := by
  constructor
  · intro h k
    rw [← mem_sortKeys ks, h, mem_sortKeys]
  · intro h
    have hperm : (sortKeys ks).Perm (sortKeys ls) :=
      (List.perm_insertionSort _ ks).trans
        (((List.perm_ext_iff_of_nodup hk hl).mpr h).trans (List.perm_insertionSort _ ls).symm)
    exact hperm.eq_of_pairwise (fun s t _ _ => textLe_antisymm s t) (sortKeys_sorted ks)
      (sortKeys_sorted ls)

end Order

section Keys

theorem mem_lookup_iff (members : List (Text × Json)) (h : (members.map Prod.fst).Nodup)
    (k : Text) (v : Json) : (k, v) ∈ members ↔ members.lookup k = some v := by
  induction members with
  | nil => simp
  | cons m ms ih =>
    obtain ⟨j, w⟩ := m
    rw [List.map_cons, List.nodup_cons] at h
    by_cases hk : k = j
    · subst hk
      have hnot : (k, v) ∉ ms := fun hm => h.1 (List.mem_map.mpr ⟨(k, v), hm, rfl⟩)
      simp [hnot, eq_comm]
    · have hbeq : (k == j) = false := beq_eq_false_iff_ne.mpr hk
      simp [List.lookup_cons, hk, hbeq, ih h.2]

theorem get_isSome_iff (members : List (Text × Json)) (k : Text) :
    ((Json.obj members).get k).isSome = true ↔ k ∈ members.map Prod.fst := by
  unfold Json.get
  induction members with
  | nil => simp
  | cons m ms ih =>
    obtain ⟨j, w⟩ := m
    by_cases hk : k = j
    · subst hk
      simp
    · have hbeq : (k == j) = false := beq_eq_false_iff_ne.mpr hk
      simp only [List.lookup_cons, hbeq, ih, List.map_cons, List.mem_cons, hk, false_or]

theorem mem_countedKeys (members : List (Text × Json)) (k : Text) :
    k ∈ countedKeys members ↔ Counted (.obj members) k := by
  unfold countedKeys Counted
  rw [mem_sortKeys, List.mem_filter, get_isSome_iff, Bool.not_eq_true']

theorem countedKeys_eq_iff (ms ns : List (Text × Json)) (hm : (ms.map Prod.fst).Nodup)
    (hn : (ns.map Prod.fst).Nodup) :
    countedKeys ms = countedKeys ns ↔ ∀ k, Counted (.obj ms) k ↔ Counted (.obj ns) k := by
  unfold countedKeys
  rw [sortKeys_eq_iff _ _ (hm.filter _) (hn.filter _)]
  apply forall_congr'
  intro k
  rw [← mem_countedKeys, ← mem_countedKeys]
  unfold countedKeys
  rw [mem_sortKeys, mem_sortKeys]

end Keys

section Tokens
variable (C : Codec)

theorem signingTag_unsigned (t : Text) : jwsSigningInput C (signingTag++t) = none := by
  by_cases hdot : dot ∈ t
  · obtain ⟨p, q, rfl, hp⟩ := List.eq_append_cons_of_mem hdot
    have hhead : dot ∉ signingTag++p := by
      rw [List.mem_append, not_or]
      exact ⟨by decide, hp⟩
    have hbad : isBase64url (signingTag++p) = false := by
      have hcolon : (signingTag++p).all (fun u => (0x41 ≤ u && u ≤ 0x5A) ||
          (0x61 ≤ u && u ≤ 0x7A) || (0x30 ≤ u && u ≤ 0x39) || u = 0x5F || u = 0x2D) = false := by
        rw [List.all_append]
        exact Bool.and_eq_false_imp.mpr (fun h => absurd h (by decide))
      rw [isBase64url, hcolon, Bool.and_false]
    unfold jwsSigningInput
    rw [← List.append_assoc, List.splitOn_append_cons_self_of_not_mem hhead]
    split
    · next heq =>
      obtain ⟨rfl, -⟩ := List.cons.inj heq
      simp [hbad]
    · rfl
  · have hnone : dot ∉ signingTag++t := by
      rw [List.mem_append, not_or]
      exact ⟨by decide, hdot⟩
    unfold jwsSigningInput
    rw [List.splitOn_eq_singleton hnone]

theorem tokenOf_str (s : Text) : tokenOf C (.str s) =
    .text (((jwsSigningInput C s).map (signingTag++·)).getD s) := by
  simp only [tokenOf]
  cases jwsSigningInput C s with
  | none => rfl
  | some t => rfl

theorem reads_iff (signingInput : Text) (v : Json) :
    Reads C signingInput v ↔ tokenOf C v = .text (signingTag++signingInput) := by
  unfold Reads
  cases v with
  | str s =>
    simp only [Json.str.injEq, exists_eq_left', tokenOf_str, Token.text.injEq]
    cases h : jwsSigningInput C s with
    | none => simp
    | some t =>
      have hs : s ≠ signingTag++signingInput := by
        rintro rfl
        rw [signingTag_unsigned] at h
        cases h
      simp [hs]
  | num n => cases n <;> simp [tokenOf]
  | _ => simp [tokenOf]

theorem vague_iff (v : Json) (hv : v.isObject = false) : Vague v ↔ tokenOf C v = .null := by
  unfold Vague
  cases v with
  | str s => simp [tokenOf_str]
  | num n => cases n <;> simp [tokenOf]
  | arr items => cases hv
  | obj members => cases hv
  | _ => simp [tokenOf]

theorem tokenOf_sameToken (a b : Json) (h : SameToken C a b) : tokenOf C a = tokenOf C b := by
  rcases h with rfl | ⟨s, t, signingInput, rfl, rfl, hs, ht⟩
  · rfl
  · rw [tokenOf_str, tokenOf_str, hs, ht]
    rfl

theorem tokenOf_bool (v : Json) (c : Bool) (h : tokenOf C v = .bool c) : v = .bool c := by
  cases v with
  | str s =>
    rw [tokenOf_str] at h
    cases h
  | bool d =>
    cases h
    rfl
  | num n => cases n <;> cases h
  | _ => cases h

theorem tokenOf_number (v : Json) (q : ℚ) (h : tokenOf C v = .number q) :
    v = .num (.finite q) := by
  cases v with
  | str s =>
    rw [tokenOf_str] at h
    cases h
  | num n =>
    cases n with
    | finite p =>
      cases h
      rfl
    | infinite negative => cases h
  | _ => cases h

theorem tokenOf_text (v : Json) (s : Text) (h : tokenOf C v = .text s) :
    v = .str s ∨ ∃ signingInput, s = signingTag++signingInput := by
  cases v with
  | str t =>
    rw [tokenOf_str, Token.text.injEq] at h
    cases ht : jwsSigningInput C t with
    | none =>
      rw [ht] at h
      exact Or.inl (congrArg Json.str h)
    | some u =>
      rw [ht] at h
      exact Or.inr ⟨u, h.symm⟩
  | num n => cases n <;> cases h
  | _ => cases h

theorem tokenOf_injective (a b : Json) (ha : a.isObject = false) (hvague : ¬Vague a)
    (hread : ¬∃ signingInput, Reads C signingInput a) (h : tokenOf C a = tokenOf C b) :
    a = b := by
  simp only [reads_iff, not_exists] at hread
  rw [vague_iff C a ha] at hvague
  cases htok : tokenOf C a with
  | null => exact absurd htok hvague
  | bool c => rw [tokenOf_bool C a c htok, tokenOf_bool C b c (h ▸ htok)]
  | number q => rw [tokenOf_number C a q htok, tokenOf_number C b q (h ▸ htok)]
  | text s =>
    have htag : ¬∃ signingInput, s = signingTag++signingInput := by
      rintro ⟨t, rfl⟩
      exact hread t htok
    rw [(tokenOf_text C a s htok).resolve_right htag,
      (tokenOf_text C b s (h ▸ htok)).resolve_right htag]

theorem tokenOf_eq_iff (a b : Json) (ha : a.isObject = false) (hb : b.isObject = false) :
    tokenOf C a = tokenOf C b ↔ MistakenToken C a b := by
  constructor
  · intro h
    by_cases hvague : Vague a
    · have hb' : Vague b := by
        rw [vague_iff C b hb, ← h, ← vague_iff C a ha]
        exact hvague
      exact Or.inr (Or.inl ⟨hvague, hb'⟩)
    · by_cases hread : ∃ signingInput, Reads C signingInput a
      · obtain ⟨signingInput, hs⟩ := hread
        have hb' : Reads C signingInput b := by
          rw [reads_iff, ← h, ← reads_iff]
          exact hs
        exact Or.inr (Or.inr ⟨signingInput, hs, hb'⟩)
      · exact Or.inl (Or.inl (tokenOf_injective C a b ha hvague hread h))
  · rintro (h | ⟨hva, hvb⟩ | ⟨signingInput, hra, hrb⟩)
    · exact tokenOf_sameToken C a b h
    · rw [(vague_iff C a ha).mp hva, (vague_iff C b hb).mp hvb]
    · rw [(reads_iff C _ a).mp hra, (reads_iff C _ b).mp hrb]

end Tokens

section Documents
variable (C : Codec)

theorem doc_token (v : Json) (hv : v.isObject = false) : doc C v = .token (tokenOf C v) := by
  cases v with
  | arr items => cases hv
  | obj members => cases hv
  | _ => rfl

theorem docItems_eq (items : List Json) : docItems C items = items.map (doc C) :=
  map_of_cons _ _ rfl (fun _ _ => rfl) items

theorem docMember_eq (members : List (Text × Json)) (k : Text) :
    ((docMembers C members).lookup k).getD (.token .null) =
      doc C (((Json.obj members).get k).getD .null) := by
  rw [lookup_docMembers, Json.get]
  cases members.lookup k with
  | none => rfl
  | some v => rfl

theorem docItems_eq_iff (items others : List Json)
    (h : ∀ v ∈ items, ∀ w ∈ others, doc C v = doc C w ↔ Mistaken C v w) :
    docItems C items = docItems C others ↔ AlikeItems (MistakenToken C) items others := by
  induction items generalizing others with
  | nil => cases others <;> simp [docItems, AlikeItems]
  | cons v vs ih =>
    cases others with
    | nil => simp [docItems, AlikeItems]
    | cons w ws =>
      simp only [List.forall_mem_cons] at h
      simp only [docItems, AlikeItems, List.cons.injEq, h.1.1, Mistaken]
      rw [ih ws (fun v hv w hw => (h.2 v hv).2 w hw)]

theorem docMembers_eq_iff (ms ns : List (Text × Json)) (hm : (ms.map Prod.fst).Nodup)
    (hn : (ns.map Prod.fst).Nodup) :
    doc C (.obj ms) = doc C (.obj ns) ↔ (∀ k, Counted (.obj ms) k ↔ Counted (.obj ns) k) ∧
      ∀ m ∈ ms, Counted (.obj ms) m.1 → ∀ w ∈ (Json.obj ns).get m.1, doc C m.2 = doc C w := by
  simp only [doc, Doc.obj.injEq, docMember_eq]
  rw [← countedKeys_eq_iff ms ns hm hn]
  constructor
  · intro h
    have hkeys : countedKeys ms = countedKeys ns := by
      have := congrArg (List.map Prod.fst) h
      simpa [List.map_map, Function.comp_def] using this
    refine ⟨hkeys, ?_⟩
    rintro ⟨k, v⟩ hmem hcounted w hw
    rw [hkeys] at h
    have hk : k ∈ countedKeys ns := hkeys ▸ (mem_countedKeys ms k).mpr hcounted
    have hdoc := (Prod.mk.inj (List.map_inj_left.mp h k hk)).2
    have hv : (Json.obj ms).get k = some v := (mem_lookup_iff ms hm k v).mp hmem
    rwa [hv, Option.mem_def.mp hw] at hdoc
  · rintro ⟨hkeys, h⟩
    rw [← hkeys]
    apply List.map_congr_left
    intro k hk
    have hms := (mem_countedKeys ms k).mp hk
    have hns := (mem_countedKeys ns k).mp (hkeys ▸ hk)
    obtain ⟨v, hv⟩ := Option.isSome_iff_exists.mp hms.1
    obtain ⟨w, hw⟩ := Option.isSome_iff_exists.mp hns.1
    rw [hv, hw]
    exact congrArg (Prod.mk k) (h (k, v) ((mem_lookup_iff ms hm k v).mpr hv) hms w hw)

theorem doc_eq_iff (a : Json) : ∀ b, Parsed a → Parsed b →
    (doc C a = doc C b ↔ Mistaken C a b) := by
  induction a using json_induction with
  | token a ha =>
    intro b _ _
    rw [Mistaken, alike_token _ a b ha, doc_token C a ha]
    cases b with
    | arr others => simp [doc, Json.isObject]
    | obj others => simp [doc, Json.isObject]
    | _ =>
      simp only [Json.isObject, true_and, doc, Doc.token.injEq]
      exact tokenOf_eq_iff C a _ ha rfl
  | arr items ih =>
    intro b hpa hpb
    cases b with
    | arr others =>
      simp only [Parsed, parsedItems_iff] at hpa hpb
      simp only [doc, Doc.arr.injEq, Mistaken, Alike]
      exact docItems_eq_iff C items others (fun v hv w hw => ih v hv w (hpa v hv) (hpb w hw))
    | _ => simp [doc, Mistaken, Alike]
  | obj ms ih =>
    intro b hpa hpb
    cases b with
    | obj ns =>
      simp only [Parsed, parsedMembers_iff] at hpa hpb
      rw [docMembers_eq_iff C ms ns hpa.1 hpb.1, Mistaken, Alike, alikeMembers_iff]
      apply and_congr_right
      intro hkeys
      apply forall₂_congr
      intro m hm
      apply forall_congr'
      intro hcounted
      apply forall₂_congr
      intro w hw
      exact ih m hm w (hpa.2 m hm) (hpb.2 (m.1, w) ((mem_lookup_iff ns hpb.1 m.1 w).mpr hw))
    | _ => simp [doc, Mistaken, Alike]

theorem tokenOf_valid (v : Json) (h : Parsed v) : (tokenOf C v).Valid := by
  cases v with
  | str s =>
    rw [tokenOf_str]
    trivial
  | num n =>
    cases n with
    | finite q => exact h
    | infinite negative => trivial
  | _ => trivial

theorem itemsValid_iff (ds : List Doc) : ItemsValid ds ↔ ∀ d ∈ ds, d.Valid :=
  forall_of_cons _ _ trivial (fun _ _ => Iff.rfl) ds

theorem membersValid_iff (ms : List (Text × Doc)) : MembersValid ms ↔ ∀ m ∈ ms, m.2.Valid :=
  forall_of_cons _ _ trivial (fun _ _ => Iff.rfl) ms

theorem doc_valid (v : Json) (h : Parsed v) : (doc C v).Valid := by
  induction v using json_induction with
  | token v hv =>
    rw [doc_token C v hv]
    exact tokenOf_valid C v h
  | arr items ih =>
    simp only [Parsed, parsedItems_iff] at h
    simp only [doc, Doc.Valid, itemsValid_iff, docItems_eq, List.forall_mem_map]
    exact fun v hv => ih v hv (h v hv)
  | obj members ih =>
    simp only [Parsed, parsedMembers_iff] at h
    simp only [doc, Doc.Valid, membersValid_iff, List.forall_mem_map, docMember_eq]
    intro k hk
    obtain ⟨v, hv⟩ := Option.isSome_iff_exists.mp ((mem_countedKeys members k).mp hk).1
    have hmem := (mem_lookup_iff members h.1 k v).mpr hv
    rw [hv]
    exact ih (k, v) hmem (h.2 (k, v) hmem)

theorem canonicalJson_eq_iff (a b : Json) (ha : Parsed a) (hb : Parsed b) :
    canonicalJson C a = canonicalJson C b ↔ Mistaken C a b := by
  rw [canonicalJson_eq, canonicalJson_eq, ← doc_eq_iff C a b ha hb]
  constructor
  · exact write_injective _ _ (doc_valid C a ha) (doc_valid C b hb)
  · exact congrArg write

theorem alikeItems_mono (R S : Json → Json → Prop) (items others : List Json)
    (hRS : ∀ v ∈ items, ∀ w, Alike R v w → Alike S v w) (h : AlikeItems R items others) :
    AlikeItems S items others := by
  induction items generalizing others with
  | nil => simpa only [AlikeItems] using h
  | cons v vs ih =>
    cases others with
    | nil => simp [AlikeItems] at h
    | cons w ws =>
      simp only [AlikeItems, List.forall_mem_cons] at h hRS ⊢
      exact ⟨hRS.1 w h.1, ih ws hRS.2 h.2⟩

theorem alike_mono (R S : Json → Json → Prop) (hRS : ∀ a b, R a b → S a b) (a : Json) :
    ∀ b, Alike R a b → Alike S a b := by
  induction a using json_induction with
  | token a ha =>
    intro b
    rw [alike_token R a b ha, alike_token S a b ha]
    exact And.imp_right (hRS a b)
  | arr items ih =>
    intro b h
    cases b with
    | arr others =>
      simp only [Alike] at h ⊢
      exact alikeItems_mono R S items others ih h
    | _ => simp [Alike] at h
  | obj ms ih =>
    intro b h
    cases b with
    | obj ns =>
      simp only [Alike, alikeMembers_iff] at h ⊢
      exact ⟨h.1, fun m hm hcounted w hw => ih m hm w (h.2 m hm hcounted w hw)⟩
    | _ => simp [Alike] at h

theorem mistaken_of_same (a b : Json) (h : Same C a b) : Mistaken C a b :=
  alike_mono (SameToken C) (MistakenToken C) (fun _ _ => Or.inl) a b h

theorem preimage_eq_iff (key : Option Text) (a b : Json) (ha : Parsed a) (hb : Parsed b) :
    preimage C key a = preimage C key b ↔ Mistaken C a b := by
  rw [← canonicalJson_eq_iff C a b ha hb]
  simp [preimage]

end Documents

theorem eventIdFor_eq_iff (R : IdRuntime) (a b : Json) (key : Option Text) (ra rb : Text)
    (ha : Parsed a) (hb : Parsed b) (hta : hasTimestamp R a = true)
    (htb : hasTimestamp R b = true)
    (hinj : contentId R key a = contentId R key b →
      preimage R.toCodec key a = preimage R.toCodec key b) :
    eventIdFor R a key ra = eventIdFor R b key rb ↔ Mistaken R.toCodec a b := by
  unfold eventIdFor
  rw [if_pos hta, if_pos htb, ← preimage_eq_iff R.toCodec key a b ha hb]
  constructor
  · exact hinj
  · intro h
    unfold contentId
    rw [h]

/-- An id tells apart what should be told apart exactly when the confusions do
not matter. -/
theorem event_identity_iff (R : IdRuntime) (a b : Json) (key : Option Text) (ra rb : Text)
    (ha : Parsed a) (hb : Parsed b) (hta : hasTimestamp R a = true)
    (htb : hasTimestamp R b = true)
    (hinj : contentId R key a = contentId R key b →
      preimage R.toCodec key a = preimage R.toCodec key b) :
    (eventIdFor R a key ra = eventIdFor R b key rb ↔ Same R.toCodec a b) ↔
      (Mistaken R.toCodec a b → Same R.toCodec a b) := by
  rw [eventIdFor_eq_iff R a b key ra rb ha hb hta htb hinj]
  constructor
  · exact Iff.mp
  · exact fun h => ⟨h, mistaken_of_same R.toCodec a b⟩

section Sample

def sampleTime : Text := js "2026-01-01T00:00:00Z"

def sampleHeader : Text := js "eyJhbGciOiJFZERTQSJ9"

def sampleKey : Option Text := some (js "apikey:2bb80d537b1da3e3")

def digestA : List UInt8 :=
  [226, 92, 8, 21, 153, 62, 132, 0, 135, 220, 160, 194, 0, 252, 121, 98, 178, 236, 62, 151, 233,
    31, 221, 54, 252, 167, 112, 146, 172, 7, 208, 229]

def digestB : List UInt8 :=
  [171, 118, 192, 150, 9, 195, 197, 123, 128, 46, 75, 23, 253, 231, 156, 22, 156, 190, 5, 110,
    98, 53, 136, 199, 11, 254, 165, 217, 101, 167, 79, 121]

def sampleRuntime : IdRuntime where
  decode t := if t = sampleHeader then js "\x7b\"alg\":\"EdDSA\"\x7d" else []
  parse t :=
    if t = js "\x7b\"alg\":\"EdDSA\"\x7d" then some (.obj [(js "alg", .str (js "EdDSA"))])
    else none
  parseDate t := if t = sampleTime then some 1767225600000 else none
  sha256 t :=
    if t = recipeTag++0::sampleKey.getD []++0::
      js "\x7b\"token\":\"jws-signing-input:eyJhbGciOiJFZERTQSJ9.e30\","++
      js "\"ts\":\"2026-01-01T00:00:00Z\"\x7d"
    then digestA else digestB

def tokenEvent (signature : Text) : Json :=
  .obj [(js "ts", .str sampleTime), (js "token", .str (sampleHeader++js ".e30."++signature))]

def countEvent (n : Json) : Json := .obj [(js "ts", .str sampleTime), (js "n", n)]

example : eventIdFor sampleRuntime (tokenEvent (js "AA")) sampleKey [] =
    js "e25c0815-993e-8400-87dc-a0c200fc7962" := by decide

theorem tokenEvent_parsed (signature : Text) : Parsed (tokenEvent signature) := by
  simp only [tokenEvent, Parsed, ParsedMembers, and_true, List.map_cons, List.map_nil]
  decide

theorem event_identity_resent_token :
    (eventIdFor sampleRuntime (tokenEvent (js "AA")) sampleKey [] =
        eventIdFor sampleRuntime (tokenEvent (js "AB")) sampleKey [] ↔
      Same sampleRuntime.toCodec (tokenEvent (js "AA")) (tokenEvent (js "AB"))) ↔
      (Mistaken sampleRuntime.toCodec (tokenEvent (js "AA")) (tokenEvent (js "AB")) →
        Same sampleRuntime.toCodec (tokenEvent (js "AA")) (tokenEvent (js "AB"))) :=
  event_identity_iff sampleRuntime _ _ sampleKey [] [] (tokenEvent_parsed _) (tokenEvent_parsed _)
    (by decide) (by decide) (fun _ => by decide)

/-- A count that overflows the doubles is taken for a count of `null`. -/
theorem overflow_taken_for_null :
    Parsed (countEvent (.num (.infinite false))) ∧ Parsed (countEvent .null) ∧
      hasTimestamp sampleRuntime (countEvent (.num (.infinite false))) = true ∧
      hasTimestamp sampleRuntime (countEvent .null) = true ∧
      preimage sampleRuntime.toCodec sampleKey (countEvent (.num (.infinite false))) =
        preimage sampleRuntime.toCodec sampleKey (countEvent .null) ∧
      eventIdFor sampleRuntime (countEvent (.num (.infinite false))) sampleKey [] =
        eventIdFor sampleRuntime (countEvent .null) sampleKey [] ∧
      ¬Same sampleRuntime.toCodec (countEvent (.num (.infinite false))) (countEvent .null) := by
  have hnull : ∀ v, Parsed v → Parsed (countEvent v) := by
    intro v hv
    simp only [countEvent, Parsed, ParsedMembers, and_true, true_and, List.map_cons, List.map_nil]
    exact ⟨by decide, hv⟩
  refine ⟨hnull _ trivial, hnull _ trivial, by decide, by decide, by decide, by decide, ?_⟩
  intro h
  simp only [Same, countEvent, Alike, AlikeMembers, and_true] at h
  have hcounted : Counted (countEvent (.num (.infinite false))) (js "n") := by
    constructor
    · decide
    · decide
  have hn := h.2.2 hcounted .null rfl
  rcases hn.2 with heq | ⟨s, t, signingInput, heq, -⟩
  · cases heq
  · cases heq

end Sample

end ControlPlane.EventIdentity
