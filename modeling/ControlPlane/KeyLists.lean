import ControlPlane.ApiKeys
import ControlPlane.FirstByKey

/-!
# What the key lists hold

The entries of a parsed list are the first of each key among its items: all of
`API_KEYS`, under their labels or their positions, and those of `ISSUER_KEYS`
that are well formed and not refused. A list that is written from entries reads
back as these.
-/

set_option autoImplicit false

namespace ControlPlane.KeyLists
open ControlPlane.JsText ControlPlane.HttpValidate ControlPlane.RequestGate ControlPlane.KeyedRows
open ControlPlane.ApiKeys ControlPlane.FirstByKey

/-- The items of `API_KEYS`. -/
def splitItems (raw : Option Text) : List SplitKey := (configItems raw).map splitItem

def allKeys (raw : Option Text) : List Text := (splitItems raw).map (·.key)

/-- The label of an item, unless it is none or looks like a secret. -/
def labelAt (keys : List Text) (position : ℕ) (s : SplitKey) : Text :=
  (s.label.filter (fun l => !looksLikeSecret l keys)).getD (unlabelledLabel position)

def named (keys : List Text) : ℕ → List SplitKey → List KeyEntry
  | _, [] => []
  | position, s::rest => ⟨labelAt keys position s, s.key⟩::named keys (position+1) rest

def namedItems (raw : Option Text) : List KeyEntry := named (allKeys raw) 1 (splitItems raw)

/-- An item of `ISSUER_KEYS` that no check refuses. -/
def acceptable (adminKeys : List Text) (item : Text) : Option IssuerEntry :=
  (splitIssuer item).filter
    (fun e => !looksLikeSecret e.label (e.key::adminKeys) && !adminKeys.contains e.key)

def issuerItems (raw : Option Text) (adminKeys : List Text) : List IssuerEntry :=
  (configItems raw).filterMap (acceptable adminKeys)

theorem addApiKey_entries (keys : List Text) (position : ℕ) (s : SplitKey) (acc : ParsedApiKeys) :
    (addApiKey keys position s acc).entries = if acc.entries.any (·.key = s.key) then acc.entries
      else acc.entries++[⟨labelAt keys position s, s.key⟩] := by
  unfold addApiKey
  split_ifs
  · rfl
  · rfl

theorem addApiKeys_entries (keys : List Text) (position : ℕ) (ss : List SplitKey)
    (acc : ParsedApiKeys) : (addApiKeys keys position ss acc).entries =
      acc.entries++(firsts KeyEntry.key (named keys position ss)).filter
        (fun e => !acc.entries.any (·.key = e.key)) := by
  induction ss generalizing position acc with
  | nil => exact (List.append_nil _).symm
  | cons s rest ih =>
    rw [addApiKeys, ih, addApiKey_entries, named, firsts_skip]
    by_cases hseen : acc.entries.any (·.key = s.key) = true
    · rw [if_pos hseen, if_pos hseen]
    · rw [if_neg hseen, if_neg hseen, List.append_assoc]
      rfl

theorem parseApiKeys_entries (raw : Option Text) :
    (parseApiKeys raw).entries = firsts KeyEntry.key (namedItems raw) := by
  rw [parseApiKeys, addApiKeys_entries]
  simp [namedItems, allKeys, splitItems]

theorem addIssuerKey_entries (adminKeys : List Text) (position : ℕ) (item : Text)
    (acc : ParsedIssuerKeys) : (addIssuerKey adminKeys position item acc).entries =
      match acceptable adminKeys item with
      | none => acc.entries
      | some e => if acc.entries.any (·.key = e.key) then acc.entries else acc.entries++[e] := by
  unfold addIssuerKey acceptable
  cases hs : splitIssuer item with
  | none => rfl
  | some e =>
    simp only [Option.filter]
    by_cases hsecret : looksLikeSecret e.label (e.key::adminKeys) = true
    · simp only [hsecret, if_true, Bool.not_true, Bool.false_and, Bool.false_eq_true, if_false]
    by_cases hadmin : adminKeys.contains e.key = true
    · simp only [hsecret, hadmin, if_true, Bool.not_true, Bool.and_false, Bool.false_eq_true,
        if_false]
    · simp only [hsecret, hadmin, Bool.not_false, Bool.and_self, if_true, Bool.false_eq_true,
        if_false]
      by_cases hseen : acc.entries.any (·.key = e.key) = true
      · simp only [if_pos hseen]
      · simp only [if_neg hseen]

theorem addIssuerKeys_entries (adminKeys : List Text) (position : ℕ) (items : List Text)
    (acc : ParsedIssuerKeys) : (addIssuerKeys adminKeys position items acc).entries =
      acc.entries++(firsts (fun e : IssuerEntry => e.key)
        (items.filterMap (acceptable adminKeys))).filter
          (fun e => !acc.entries.any (·.key = e.key)) := by
  induction items generalizing position acc with
  | nil => exact (List.append_nil _).symm
  | cons item rest ih =>
    rw [addIssuerKeys, ih, addIssuerKey_entries]
    cases ha : acceptable adminKeys item with
    | none => rw [List.filterMap_cons_none ha]
    | some e =>
      rw [List.filterMap_cons_some ha, firsts_skip]
      by_cases hseen : acc.entries.any (·.key = e.key) = true
      · simp only [hseen, if_true]
      · simp only [hseen, Bool.false_eq_true, if_false, List.append_assoc]
        rfl

theorem parseIssuerKeys_entries (raw : Option Text) (adminKeys : List Text) :
    (parseIssuerKeys raw adminKeys).entries =
      firsts (fun e : IssuerEntry => e.key) (issuerItems raw adminKeys) := by
  rw [parseIssuerKeys, addIssuerKeys_entries]
  simp [issuerItems]

def Distinct {α : Type} (label : α → Text) (entries : List α) : Prop := (entries.map label).Nodup

instance {α : Type} (label : α → Text) (entries : List α) : Decidable (Distinct label entries) :=
  inferInstanceAs (Decidable (entries.map label).Nodup)

theorem distinct_snoc {α : Type} (label : α → Text) (entries : List α) (e : α) :
    Distinct label (entries++[e]) ↔
      Distinct label entries ∧ entries.any (label · = label e) = false := by
  rw [Distinct, List.map_append, List.map_singleton, List.nodup_append]
  constructor
  · rintro ⟨hnodup, -, hne⟩
    constructor
    · exact hnodup
    · rw [List.any_eq_false]
      intro x hx
      rw [decide_eq_true_eq]
      exact hne _ (List.mem_map_of_mem hx) _ (List.mem_singleton_self _)
  · rintro ⟨hnodup, hany⟩
    apply And.intro hnodup
    apply And.intro (List.nodup_singleton _)
    intro l hl l' hl'
    obtain ⟨x, hx, rfl⟩ := List.mem_map.mp hl
    rw [List.mem_singleton.mp hl']
    simpa using List.any_eq_false.mp hany x hx

theorem addApiKey_errors (keys : List Text) (position : ℕ) (s : SplitKey) (acc : ParsedApiKeys)
    (h : acc.errors = [] ↔ Distinct KeyEntry.label acc.entries) :
    (addApiKey keys position s acc).errors = [] ↔
      Distinct KeyEntry.label (addApiKey keys position s acc).entries := by
  unfold addApiKey
  by_cases hseen : acc.entries.any (·.key = s.key) = true
  · simpa only [if_pos hseen] using h
  · simp only [if_neg hseen, distinct_snoc, ← h]
    split_ifs with hlabel
    · simp [labelTaken, hlabel]
    · simp [hlabel]

theorem addApiKeys_errors (keys : List Text) (position : ℕ) (ss : List SplitKey)
    (acc : ParsedApiKeys) (h : acc.errors = [] ↔ Distinct KeyEntry.label acc.entries) :
    (addApiKeys keys position ss acc).errors = [] ↔
      Distinct KeyEntry.label (addApiKeys keys position ss acc).entries := by
  induction ss generalizing position acc with
  | nil => exact h
  | cons s rest ih => exact ih _ _ (addApiKey_errors keys position s acc h)

theorem parseApiKeys_errors (raw : Option Text) :
    (parseApiKeys raw).errors = [] ↔ Distinct KeyEntry.label (parseApiKeys raw).entries :=
  addApiKeys_errors _ _ _ _ ⟨fun _ => List.nodup_nil, fun _ => rfl⟩

theorem addIssuerKey_errors (adminKeys : List Text) (position : ℕ) (item : Text)
    (acc : ParsedIssuerKeys)
    (h : acc.errors = [] ↔ Distinct (fun e : IssuerEntry => e.label) acc.entries) :
    (addIssuerKey adminKeys position item acc).errors = [] ↔
      Distinct (fun e : IssuerEntry => e.label)
        (addIssuerKey adminKeys position item acc).entries := by
  unfold addIssuerKey
  cases hs : splitIssuer item with
  | none => exact h
  | some e =>
    simp only
    by_cases hsecret : looksLikeSecret e.label (e.key::adminKeys) = true
    · simpa only [if_pos hsecret] using h
    by_cases hadmin : adminKeys.contains e.key = true
    · simpa only [if_neg hsecret, if_pos hadmin] using h
    by_cases hseen : acc.entries.any (·.key = e.key) = true
    · simpa only [if_neg hsecret, if_neg hadmin, if_pos hseen] using h
    · simp only [if_neg hsecret, if_neg hadmin, if_neg hseen, distinct_snoc, ← h]
      split_ifs with hlabel
      · simp [hlabel]
      · simp [hlabel]

theorem parseIssuerKeys_errors (raw : Option Text) (adminKeys : List Text) :
    (parseIssuerKeys raw adminKeys).errors = [] ↔
      Distinct (fun e : IssuerEntry => e.label) (parseIssuerKeys raw adminKeys).entries := by
  have hstep : ∀ items position acc,
      (acc.errors = [] ↔ Distinct (fun e : IssuerEntry => e.label) acc.entries) →
        ((addIssuerKeys adminKeys position items acc).errors = [] ↔
          Distinct (fun e : IssuerEntry => e.label)
            (addIssuerKeys adminKeys position items acc).entries) := by
    intro items
    induction items with
    | nil => exact fun _ _ h => h
    | cons item rest ih =>
      exact fun position acc h => ih _ _ (addIssuerKey_errors adminKeys position item acc h)
  exact hstep _ 1 _ ⟨fun _ => List.nodup_nil, fun _ => rfl⟩

theorem space_range (u : UInt16) (h : isJsSpace u = true) : u.toNat ≤ 0x20 ∨ 0xA0 ≤ u.toNat := by
  simp only [isJsSpace, Bool.or_eq_true, List.contains_iff_mem, List.mem_cons, List.not_mem_nil,
    or_false, Bool.and_eq_true, decide_eq_true_eq, UInt16.le_iff_toNat_le] at h
  rcases h with h | h
  · rcases h with rfl | rfl | rfl | rfl | rfl | rfl | rfl | rfl | rfl | rfl | rfl | rfl | rfl | rfl
    all_goals decide
  · right
    have hlow : (0x2000 : UInt16).toNat = 0x2000 := rfl
    omega

theorem label_range (u : UInt16) (h : isKeyLabelUnit u = true) :
    0x2D ≤ u.toNat ∧ u.toNat ≤ 0x7A ∧ u.toNat ≠ 0x3A ∧ u.toNat ≠ 0x40 ∧ u.toNat ≠ 0x3D := by
  simp only [isKeyLabelUnit, isDigit, Bool.or_eq_true, Bool.and_eq_true, decide_eq_true_eq,
    UInt16.le_iff_toNat_le, UInt16.reduceToNat, ← UInt16.toNat_inj] at h
  omega

theorem aid_range (u : UInt16) (h : isAidUnit u = true) :
    0x2D ≤ u.toNat ∧ u.toNat ≤ 0x7A ∧ u.toNat ≠ 0x40 ∧ u.toNat ≠ 0x3D := by
  simp only [isAidUnit, isDigit, Bool.or_eq_true, Bool.and_eq_true, decide_eq_true_eq,
    UInt16.le_iff_toNat_le, UInt16.reduceToNat, ← UInt16.toNat_inj] at h
  omega

theorem trim_last (t : Text) (h : trim t = t) (hne : t ≠ []) :
    isJsSpace (t.getLast hne) = false := by
  have hlast := List.rdropWhile_last_not isJsSpace (t.dropWhile isJsSpace)
  rw [trim] at h
  simp only [h] at hlast
  simpa using hlast hne

theorem trim_join (u : UInt16) (a b : Text) (hu : isJsSpace u = false) (hb : trim b = b)
    (hne : b ≠ []) : trim (u::(a++b)) = u::(a++b) := by
  have hlast := trim_last b hb hne
  rw [trim, List.dropWhile_cons_of_neg (by simp [hu]), List.rdropWhile_eq_self_iff]
  intro hall
  have heq : (u::(a++b)).getLast hall = b.getLast hne := by
    rw [List.getLast_cons (by simp [hne]), List.getLast_append_of_ne_nil _ hne]
  simp [heq, hlast]

theorem cutAt_join (sep : UInt16) (a b : Text) (h : sep ∉ a) :
    cutAt sep (a++sep::b) = some (a, b) := by
  have hall : ∀ u ∈ a, decide (u ≠ sep) = true := by
    intro u hu
    rw [decide_eq_true_eq]
    rintro rfl
    exact h hu
  have hmem : (a++sep::b).contains sep = true := by simp
  rw [cutAt, if_pos hmem, List.takeWhile_append_of_pos hall, List.dropWhile_append_of_pos hall]
  simp

theorem label_head (label : Text) (h : isKeyLabel label = true) : ∃ u rest, label = u::rest ∧
    ∀ v ∈ label, isKeyLabelUnit v = true := by
  have hunits := List.all_eq_true.mp (isKeyLabel_units label h)
  cases label with
  | nil => cases h
  | cons u rest => exact ⟨u, rest, rfl, hunits⟩

/-- An entry that an item can be written from. -/
structure Written (e : KeyEntry) : Prop where
  label : isKeyLabel e.label = true
  filled : e.key ≠ []
  trimmed : trim e.key = e.key
  comma : comma ∉ e.key

def renderApi (e : KeyEntry) : Text := e.label++0x3A::e.key

def renderIssuer (e : IssuerEntry) : Text := e.label++0x40::(e.aid++0x3D::e.key)

def joined (items : List Text) : Option Text := some ([comma].intercalate items)

theorem configItems_joined (items : List Text) (htrim : ∀ t ∈ items, trim t = t ∧ t ≠ [])
    (hcomma : ∀ t ∈ items, comma ∉ t) : configItems (joined items) = items := by
  rw [configItems, joined, Option.getD_some]
  cases items with
  | nil => rfl
  | cons t ts =>
    rw [List.splitOn_intercalate comma hcomma (by simp)]
    have hmap : (t::ts).map trim = t::ts := by
      conv_rhs => rw [← List.map_id (t::ts)]
      apply List.map_congr_left
      intro x hx
      exact (htrim x hx).1
    rw [hmap, List.filter_eq_self]
    intro x hx
    exact decide_eq_true (htrim x hx).2

theorem label_free (label : Text) (h : isKeyLabel label = true) (c : UInt16)
    (hc : c.toNat < 0x2D ∨ c.toNat = 0x3A ∨ c.toNat = 0x40 ∨ c.toNat = 0x3D) : c ∉ label := by
  obtain ⟨-, -, -, hunits⟩ := label_head label h
  intro hmem
  have := label_range c (hunits c hmem)
  omega

theorem label_start (label rest key : Text) (h : isKeyLabel label = true)
    (hk : trim key = key) (hne : key ≠ []) : trim (label++(rest++key)) = label++(rest++key) := by
  obtain ⟨u, tail, rfl, hunits⟩ := label_head label h
  have hspace : isJsSpace u = false := by
    by_contra hs
    have hrange := label_range u (hunits u List.mem_cons_self)
    have := space_range u (by simpa using hs)
    omega
  have := trim_join u (tail++rest) key hspace hk hne
  simpa [List.append_assoc] using this

theorem renderApi_item (e : KeyEntry) (h : Written e) : trim (renderApi e) = renderApi e ∧
    renderApi e ≠ [] ∧ comma ∉ renderApi e ∧ splitItem (renderApi e) = ⟨some e.label, e.key⟩ := by
  constructor
  · exact label_start e.label [0x3A] e.key h.label h.trimmed h.filled
  constructor
  · simp [renderApi]
  constructor
  · rw [renderApi, List.mem_append, List.mem_cons, not_or, not_or]
    exact ⟨label_free e.label h.label comma (by decide), by decide, h.comma⟩
  · rw [splitItem, renderApi, cutAt_join 0x3A _ _ (label_free e.label h.label 0x3A (by decide))]
    simp [h.label, h.trimmed, h.filled]

theorem renderIssuer_item (e : IssuerEntry) (h : Written e.toKeyEntry) (haid : isAid e.aid = true) :
    trim (renderIssuer e) = renderIssuer e ∧ renderIssuer e ≠ [] ∧ comma ∉ renderIssuer e ∧
      splitIssuer (renderIssuer e) = some e := by
  have hunits := List.all_eq_true.mp (isAid_units e.aid haid)
  have hsign : (0x3D : UInt16) ∉ e.aid := by
    intro hmem
    have hrange := aid_range 0x3D (hunits _ hmem)
    exact hrange.2.2.2 rfl
  have hcomma : comma ∉ e.aid := by
    intro hmem
    have hrange := aid_range comma (hunits _ hmem)
    exact absurd hrange.1 (by decide)
  constructor
  · have := label_start e.label (0x40::(e.aid++[0x3D])) e.key h.label h.trimmed h.filled
    simpa [renderIssuer] using this
  constructor
  · simp [renderIssuer]
  constructor
  · simp only [renderIssuer, List.mem_append, List.mem_cons, not_or]
    exact ⟨label_free e.label h.label comma (by decide), by decide, hcomma, by decide, h.comma⟩
  · rw [splitIssuer, renderIssuer,
      cutAt_join 0x40 _ _ (label_free e.label h.label 0x40 (by decide))]
    simp [cutAt_join 0x3D _ _ hsign, h.label, haid, h.trimmed, h.filled]

/-- Lists of entries whose labels and keys do not get in each other's way. -/
structure ApiList (es : List KeyEntry) : Prop where
  written : ∀ e ∈ es, Written e
  keys : (es.map KeyEntry.key).Nodup
  labels : Distinct KeyEntry.label es
  secret : ∀ e ∈ es, looksLikeSecret e.label (es.map KeyEntry.key) = false

structure IssuerList (adminKeys : List Text) (es : List IssuerEntry) : Prop where
  written : ∀ e ∈ es, Written e.toKeyEntry
  aid : ∀ e ∈ es, isAid e.aid = true
  keys : (es.map (fun e => e.key)).Nodup
  labels : Distinct (fun e : IssuerEntry => e.label) es
  secret : ∀ e ∈ es, looksLikeSecret e.label (e.key::adminKeys) = false
  admin : ∀ e ∈ es, e.key ∉ adminKeys

theorem named_written (keys : List Text) (position : ℕ) (es : List KeyEntry)
    (h : ∀ e ∈ es, looksLikeSecret e.label keys = false) :
    named keys position (es.map (fun e => ⟨some e.label, e.key⟩)) = es := by
  induction es generalizing position with
  | nil => rfl
  | cons e es ih =>
    rw [List.forall_mem_cons] at h
    rw [List.map_cons, named, ih _ h.2]
    simp [labelAt, Option.filter, h.1]

theorem named_keys (keys : List Text) (position : ℕ) (ss : List SplitKey) :
    (named keys position ss).map KeyEntry.key = ss.map (·.key) := by
  induction ss generalizing position with
  | nil => rfl
  | cons s ss ih => rw [named, List.map_cons, List.map_cons, ih]

theorem api_round_trip (es : List KeyEntry) (h : ApiList es) :
    (parseApiKeys (joined (es.map renderApi))).entries = es ∧
      (parseApiKeys (joined (es.map renderApi))).errors = [] := by
  have hitems : splitItems (joined (es.map renderApi)) =
      es.map (fun e => ⟨some e.label, e.key⟩) := by
    rw [splitItems, configItems_joined, List.map_map]
    · apply List.map_congr_left
      intro e he
      exact (renderApi_item e (h.written e he)).2.2.2
    · intro t ht
      obtain ⟨e, he, rfl⟩ := List.mem_map.mp ht
      have hitem := renderApi_item e (h.written e he)
      exact ⟨hitem.1, hitem.2.1⟩
    · intro t ht
      obtain ⟨e, he, rfl⟩ := List.mem_map.mp ht
      exact (renderApi_item e (h.written e he)).2.2.1
  have hkeys : allKeys (joined (es.map renderApi)) = es.map KeyEntry.key := by
    rw [allKeys, hitems, List.map_map]
    rfl
  have hentries : (parseApiKeys (joined (es.map renderApi))).entries = es := by
    rw [parseApiKeys_entries, namedItems, hkeys, hitems, named_written _ _ es h.secret,
      firsts_of_nodup _ es h.keys]
  constructor
  · exact hentries
  · rw [parseApiKeys_errors, hentries]
    exact h.labels

theorem issuer_round_trip (adminKeys : List Text) (es : List IssuerEntry)
    (h : IssuerList adminKeys es) :
    (parseIssuerKeys (joined (es.map renderIssuer)) adminKeys).entries = es ∧
      (parseIssuerKeys (joined (es.map renderIssuer)) adminKeys).errors = [] := by
  have hitem := fun e he => renderIssuer_item e (h.written e he) (h.aid e he)
  have hconfig : configItems (joined (es.map renderIssuer)) = es.map renderIssuer := by
    apply configItems_joined
    · intro t ht
      obtain ⟨e, he, rfl⟩ := List.mem_map.mp ht
      exact ⟨(hitem e he).1, (hitem e he).2.1⟩
    · intro t ht
      obtain ⟨e, he, rfl⟩ := List.mem_map.mp ht
      exact (hitem e he).2.2.1
  have hitems : issuerItems (joined (es.map renderIssuer)) adminKeys = es := by
    rw [issuerItems, hconfig, List.filterMap_map]
    conv_rhs => rw [← List.filterMap_some (l := es)]
    apply List.filterMap_congr
    intro e he
    have hadmin := h.admin e he
    simp [acceptable, (hitem e he).2.2.2, h.secret e he, hadmin]
  have hentries : (parseIssuerKeys (joined (es.map renderIssuer)) adminKeys).entries = es := by
    rw [parseIssuerKeys_entries, hitems, firsts_of_nodup _ es h.keys]
  constructor
  · exact hentries
  · rw [parseIssuerKeys_errors, hentries]
    exact h.labels

structure FirstOfEach {α : Type} (key : α → Text) (items entries : List α) : Prop where
  nodup : (entries.map key).Nodup
  first : ∀ e, e ∈ entries ↔ First key e items

theorem firstOfEach_firsts {α : Type} (key : α → Text) (items : List α) :
    FirstOfEach key items (firsts key items) :=
  ⟨firsts_nodup key items, fun e => mem_firsts_iff key e items⟩

/-- The entries are the first of each key, no issuer key is an admin key,
labels are told apart or refused, the indexes find the entries, and what is
written from entries reads back. -/
theorem key_lists_hold (api issuers : Option Text) :
    FirstOfEach KeyEntry.key (namedItems api) (parseApiKeys api).entries ∧
    (∀ s ∈ splitItems api, ∃ e ∈ (parseApiKeys api).entries, e.key = s.key) ∧
    (∀ adminKeys, FirstOfEach (fun e : IssuerEntry => e.key) (issuerItems issuers adminKeys)
      (parseIssuerKeys issuers adminKeys).entries) ∧
    (∀ e ∈ (parseIssuerKeys issuers ((parseApiKeys api).entries.map KeyEntry.key)).entries,
      ∀ a ∈ (parseApiKeys api).entries, e.key ≠ a.key) ∧
    ((parseApiKeys api).errors = [] ↔ Distinct KeyEntry.label (parseApiKeys api).entries) ∧
    (∀ adminKeys, (parseIssuerKeys issuers adminKeys).errors = [] ↔
      Distinct (fun e : IssuerEntry => e.label) (parseIssuerKeys issuers adminKeys).entries) ∧
    (∀ key label, labelIndex (parseApiKeys api).entries key = some label ↔
      ∃ e ∈ (parseApiKeys api).entries, e.key = key ∧ e.label = label) ∧
    (∀ adminKeys key e,
      issuerKeyIndex (parseIssuerKeys issuers adminKeys).entries key = some e ↔
        e ∈ (parseIssuerKeys issuers adminKeys).entries ∧ e.key = key) ∧
    (∀ es, ApiList es → (parseApiKeys (joined (es.map renderApi))).entries = es) ∧
    ∀ adminKeys es, IssuerList adminKeys es →
      (parseIssuerKeys (joined (es.map renderIssuer)) adminKeys).entries = es := by
  constructor
  · rw [parseApiKeys_entries]
    exact firstOfEach_firsts _ _
  constructor
  · intro s hs
    have hkey : s.key ∈ (namedItems api).map KeyEntry.key := by
      rw [namedItems, named_keys]
      exact List.mem_map_of_mem hs
    rw [← mem_keys_firsts, ← parseApiKeys_entries] at hkey
    exact List.mem_map.mp hkey
  constructor
  · intro adminKeys
    rw [parseIssuerKeys_entries]
    exact firstOfEach_firsts _ _
  constructor
  · intro e he a ha heq
    exact (parseIssuerKeys_taken issuers _).admin e he (heq ▸ List.mem_map_of_mem ha)
  constructor
  · exact parseApiKeys_errors api
  constructor
  · exact parseIssuerKeys_errors issuers
  constructor
  · exact labelIndex_iff api
  constructor
  · exact issuerKeyIndex_iff issuers
  constructor
  · exact fun es h => (api_round_trip es h).1
  · exact fun adminKeys es h => (issuer_round_trip adminKeys es h).1

def consoleKeys : List KeyEntry :=
  [⟨js "console", js "k:1"⟩, ⟨js "unlabelled-1", js "k=2@x"⟩]

def relayKeys : List IssuerEntry :=
  [⟨⟨js "relay-1", js "old@=:"⟩, js "aid:pubkey:a"⟩, ⟨⟨js "relay-2", js "new"⟩, js "aid:pubkey:a"⟩]

theorem written_keys :
    (parseApiKeys (some (js "console:k:1,unlabelled-1:k=2@x"))).entries = consoleKeys ∧
    (parseIssuerKeys (some (js "relay-1@aid:pubkey:a=old@=:,relay-2@aid:pubkey:a=new"))
      (consoleKeys.map KeyEntry.key)).entries = relayKeys := by
  obtain ⟨-, -, -, -, -, -, -, -, hapi, hissuer⟩ := key_lists_hold none none
  constructor
  · apply hapi consoleKeys
    constructor
    · intro e he
      simp only [consoleKeys, List.mem_cons, List.not_mem_nil, or_false] at he
      rcases he with rfl | rfl
      · exact ⟨by decide, by decide, by decide, by decide⟩
      · exact ⟨by decide, by decide, by decide, by decide⟩
    · decide
    · decide
    · decide
  · apply hissuer (consoleKeys.map KeyEntry.key) relayKeys
    constructor
    · intro e he
      simp only [relayKeys, List.mem_cons, List.not_mem_nil, or_false] at he
      rcases he with rfl | rfl
      · exact ⟨by decide, by decide, by decide, by decide⟩
      · exact ⟨by decide, by decide, by decide, by decide⟩
    · decide
    · decide
    · decide
    · decide
    · decide

/-- An empty key is trimmed and free of commas, but reads as a key with a
label before it. -/
theorem empty_key_lost : ¬∀ es : List KeyEntry,
    (∀ e ∈ es, isKeyLabel e.label = true ∧ trim e.key = e.key ∧ comma ∉ e.key ∧
      looksLikeSecret e.label (es.map KeyEntry.key) = false) →
    Distinct KeyEntry.label es → (es.map KeyEntry.key).Nodup →
      (parseApiKeys (joined (es.map renderApi))).entries = es := by
  intro h
  have hlost := h [⟨js "ops", []⟩] (by decide) (by decide) (by decide)
  revert hlost
  decide

end ControlPlane.KeyLists
