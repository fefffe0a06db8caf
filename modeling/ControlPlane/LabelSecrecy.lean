import Mathlib.Data.List.Infix
import ControlPlane.KeyLists

/-!
# Labels and secrets

Labels are logged and keys are not. The parsers compare the label of an item
with some of the keys; the other pairs are a generated label with any key, the
label of an API key with an issuer key, and that of an issuer key with the key
of another issuer.
-/

set_option autoImplicit false

namespace ControlPlane.LabelSecrecy
open ControlPlane.JsText ControlPlane.HttpValidate ControlPlane.ApiKeys ControlPlane.FirstByKey
open ControlPlane.KeyLists

def Leaks (label key : Text) : Prop :=
  label = key ∨ secretFragmentMin ≤ label.length ∧ label <:+: key

theorem includesText_iff (k label : Text) : includesText k label = true ↔ label <:+: k := by
  rw [includesText, List.any_eq_true, List.infix_iff_prefix_suffix]
  constructor
  · rintro ⟨t, ht, hp⟩
    exact ⟨t, List.isPrefixOf_iff_prefix.mp hp, (List.mem_tails t k).mp ht⟩
  · rintro ⟨t, hp, ht⟩
    exact ⟨t, (List.mem_tails t k).mpr ht, List.isPrefixOf_iff_prefix.mpr hp⟩

theorem looksLikeSecret_iff (label : Text) (keys : List Text) :
    looksLikeSecret label keys = true ↔ ∃ k ∈ keys, Leaks label k := by
  rw [looksLikeSecret, List.any_eq_true]
  apply exists_congr
  intro k
  rw [Bool.or_eq_true, Bool.and_eq_true, decide_eq_true_eq, decide_eq_true_eq, includesText_iff,
    Leaks, eq_comm]

theorem not_secret (label : Text) (keys : List Text) :
    looksLikeSecret label keys = false ↔ ∀ k ∈ keys, ¬Leaks label k := by
  rw [← Bool.not_eq_true, looksLikeSecret_iff]
  push Not
  rfl

theorem unlabelled_leaks (n : ℕ) (k : Text) :
    Leaks (unlabelledLabel n) k ↔ unlabelledLabel n <:+: k := by
  have hlong : secretFragmentMin ≤ (unlabelledLabel n).length := by
    have hstart : (js "unlabelled-").length = 11 := by decide
    rw [unlabelledLabel, List.length_append, hstart]
    exact (by decide : secretFragmentMin ≤ 11).trans (Nat.le_add_right 11 _)
  constructor
  · rintro (heq | hin)
    · exact heq ▸ List.infix_refl _
    · exact hin.2
  · exact fun hin => Or.inr ⟨hlong, hin⟩

def labels (api issuers : Option Text) : List Text :=
  let admin := (parseApiKeys api).entries
  admin.map KeyEntry.label++
    (parseIssuerKeys issuers (admin.map KeyEntry.key)).entries.map (fun e => e.label)

def keys (api issuers : Option Text) : List Text :=
  let admin := (parseApiKeys api).entries
  admin.map KeyEntry.key++
    (parseIssuerKeys issuers (admin.map KeyEntry.key)).entries.map (fun e => e.key)

def FirstAt (api : Option Text) (n : ℕ) (s : SplitKey) : Prop :=
  ∃ before after, splitItems api = before++s::after ∧ before.length+1 = n ∧
    ∀ t ∈ before, t.key ≠ s.key

/-- The items of `ISSUER_KEYS` that are well formed and that no check refuses. -/
def relayItems (api issuers : Option Text) : List IssuerEntry :=
  issuerItems issuers (allKeys api)

def Labelled (api : Option Text) (s : SplitKey) (label : Text) : Prop :=
  s.label = some label ∧ looksLikeSecret label (allKeys api) = false

/-- The pairs that no parser compares do not match. -/
structure Apart (api issuers : Option Text) : Prop where
  generated : ∀ n s, FirstAt api n s → (∀ l, ¬Labelled api s l) →
    (∀ k ∈ allKeys api, ¬unlabelledLabel n <:+: k) ∧
      ∀ e ∈ relayItems api issuers, ¬unlabelledLabel n <:+: e.key
  labelled : ∀ n s l, FirstAt api n s → Labelled api s l →
    ∀ e ∈ relayItems api issuers, ¬Leaks l e.key
  issuers : ∀ e, First (fun e : IssuerEntry => e.key) e (relayItems api issuers) →
    ∀ d ∈ relayItems api issuers, d.key ≠ e.key → ¬Leaks e.label d.key

theorem first_named (ks : List Text) (position : ℕ) (ss : List SplitKey) (e : KeyEntry) :
    First KeyEntry.key e (named ks position ss) ↔ ∃ before s after, ss = before++s::after ∧
      (∀ t ∈ before, t.key ≠ s.key) ∧ e = ⟨labelAt ks (position+before.length) s, s.key⟩ := by
  induction ss generalizing position with
  | nil =>
    constructor
    · rintro ⟨before, after, hsplit, -⟩
      simp [named] at hsplit
    · rintro ⟨before, s, after, hsplit, -⟩
      simp at hsplit
  | cons t ts ih =>
    rw [named, first_cons_iff, ih]
    constructor
    · intro h
      rcases h with rfl | ⟨hne, before, s, after, rfl, hnew, rfl⟩
      · exact ⟨[], t, ts, rfl, by simp, rfl⟩
      · have hpos : position+1+before.length = position+(t::before).length := by
          rw [List.length_cons]
          omega
        exact ⟨t::before, s, after, rfl, List.forall_mem_cons.mpr ⟨hne, hnew⟩, by rw [hpos]⟩
    · rintro ⟨before, s, after, hsplit, hnew, rfl⟩
      cases before with
      | nil =>
        rw [List.nil_append, List.cons.injEq] at hsplit
        obtain ⟨rfl, rfl⟩ := hsplit
        exact Or.inl rfl
      | cons b before =>
        rw [List.cons_append, List.cons.injEq] at hsplit
        obtain ⟨rfl, rfl⟩ := hsplit
        rw [List.forall_mem_cons] at hnew
        have hpos : position+(t::before).length = position+1+before.length := by
          rw [List.length_cons]
          omega
        exact Or.inr ⟨hnew.1, before, s, after, rfl, hnew.2, by rw [hpos]⟩

theorem api_entry_iff (api : Option Text) (e : KeyEntry) : e ∈ (parseApiKeys api).entries ↔
    ∃ n s, FirstAt api n s ∧ e = ⟨labelAt (allKeys api) n s, s.key⟩ := by
  rw [parseApiKeys_entries, mem_firsts_iff, namedItems, first_named]
  constructor
  · rintro ⟨before, s, after, hsplit, hnew, rfl⟩
    exact ⟨before.length+1, s, ⟨before, after, hsplit, rfl, hnew⟩, by rw [Nat.add_comm 1]⟩
  · rintro ⟨n, s, ⟨before, after, hsplit, rfl, hnew⟩, rfl⟩
    exact ⟨before, s, after, hsplit, hnew, by rw [Nat.add_comm 1]⟩

theorem api_keys_iff (api : Option Text) (k : Text) :
    k ∈ (parseApiKeys api).entries.map KeyEntry.key ↔ k ∈ allKeys api := by
  rw [parseApiKeys_entries, mem_keys_firsts, namedItems, named_keys, allKeys]

theorem labelAt_labelled (api : Option Text) (n : ℕ) (s : SplitKey) (l : Text)
    (h : Labelled api s l) : labelAt (allKeys api) n s = l := by
  simp [labelAt, Option.filter, h.1, h.2]

theorem labelAt_generated (api : Option Text) (n : ℕ) (s : SplitKey)
    (h : ∀ l, ¬Labelled api s l) : labelAt (allKeys api) n s = unlabelledLabel n := by
  cases hl : s.label with
  | none => simp [labelAt, hl]
  | some l =>
    have hsecret : looksLikeSecret l (allKeys api) = true := by
      by_contra hnot
      exact h l ⟨hl, Bool.eq_false_iff.mpr hnot⟩
    simp [labelAt, Option.filter, hl, hsecret]

theorem secret_congr (label : Text) (xs ys : List Text) (h : ∀ k, k ∈ xs ↔ k ∈ ys) :
    looksLikeSecret label xs = looksLikeSecret label ys := by
  rw [Bool.eq_iff_iff, looksLikeSecret_iff, looksLikeSecret_iff]
  simp only [h]

theorem issuerItems_congr (issuers : Option Text) (xs ys : List Text)
    (h : ∀ k, k ∈ xs ↔ k ∈ ys) : issuerItems issuers xs = issuerItems issuers ys := by
  have hitem : acceptable xs = acceptable ys := by
    ext1 item
    have hcontains : ∀ k, xs.contains k = ys.contains k := by
      intro k
      rw [Bool.eq_iff_iff, List.contains_iff_mem, List.contains_iff_mem, h]
    have hsecret : ∀ e : IssuerEntry,
        looksLikeSecret e.label (e.key::xs) = looksLikeSecret e.label (e.key::ys) := by
      intro e
      apply secret_congr
      intro k
      rw [List.mem_cons, List.mem_cons, h]
    simp only [acceptable, hcontains, hsecret]
  rw [issuerItems, issuerItems, hitem]

theorem issuer_entries (api issuers : Option Text) :
    (parseIssuerKeys issuers ((parseApiKeys api).entries.map KeyEntry.key)).entries =
      firsts (fun e : IssuerEntry => e.key) (relayItems api issuers) := by
  rw [parseIssuerKeys_entries, issuerItems_congr issuers _ _ (api_keys_iff api), relayItems]

theorem mem_keys_iff (api issuers : Option Text) (k : Text) :
    k ∈ keys api issuers ↔ k ∈ allKeys api ∨ ∃ e ∈ relayItems api issuers, e.key = k := by
  rw [keys, List.mem_append, api_keys_iff, issuer_entries, mem_keys_firsts, List.mem_map]

theorem mem_labels_iff (api issuers : Option Text) (l : Text) : l ∈ labels api issuers ↔
    (∃ n s, FirstAt api n s ∧ labelAt (allKeys api) n s = l) ∨
      ∃ e, First (fun e : IssuerEntry => e.key) e (relayItems api issuers) ∧ e.label = l := by
  rw [labels, List.mem_append, issuer_entries, List.mem_map, List.mem_map]
  simp only [api_entry_iff, mem_firsts_iff]
  apply or_congr _ Iff.rfl
  constructor
  · rintro ⟨_, ⟨n, s, hfirst, rfl⟩, rfl⟩
    exact ⟨n, s, hfirst, rfl⟩
  · rintro ⟨n, s, hfirst, rfl⟩
    exact ⟨_, ⟨n, s, hfirst, rfl⟩, rfl⟩

theorem relay_checked (api issuers : Option Text) (e : IssuerEntry)
    (he : e ∈ relayItems api issuers) :
    ¬Leaks e.label e.key ∧ ∀ k ∈ allKeys api, ¬Leaks e.label k := by
  obtain ⟨item, -, hitem⟩ := List.mem_filterMap.mp he
  rw [acceptable, Option.filter_eq_some_iff, Bool.and_eq_true, Bool.not_eq_true'] at hitem
  have hsafe := (not_secret e.label _).mp hitem.2.1
  rw [List.forall_mem_cons] at hsafe
  exact hsafe

/-- No label leaks a key exactly if the pairs that are not compared are apart. -/
theorem no_label_leaks_iff (api issuers : Option Text) :
    (∀ l ∈ labels api issuers, ∀ k ∈ keys api issuers, ¬Leaks l k) ↔ Apart api issuers := by
  have happly : ∀ s l, Labelled api s l → ∀ k ∈ allKeys api, ¬Leaks l k :=
    fun s l hl => (not_secret l _).mp hl.2
  constructor
  · intro h
    constructor
    · intro n s hfirst hnone
      have hlabel : unlabelledLabel n ∈ labels api issuers := by
        rw [mem_labels_iff]
        exact Or.inl ⟨n, s, hfirst, labelAt_generated api n s hnone⟩
      constructor
      · intro k hk hin
        exact h _ hlabel k ((mem_keys_iff api issuers k).mpr (Or.inl hk))
          ((unlabelled_leaks n k).mpr hin)
      · intro e he hin
        exact h _ hlabel e.key ((mem_keys_iff api issuers _).mpr (Or.inr ⟨e, he, rfl⟩))
          ((unlabelled_leaks n _).mpr hin)
    · intro n s l hfirst hl e he
      apply h l _ e.key ((mem_keys_iff api issuers _).mpr (Or.inr ⟨e, he, rfl⟩))
      rw [mem_labels_iff]
      exact Or.inl ⟨n, s, hfirst, labelAt_labelled api n s l hl⟩
    · intro e hfirst d hd _
      apply h e.label _ d.key ((mem_keys_iff api issuers _).mpr (Or.inr ⟨d, hd, rfl⟩))
      rw [mem_labels_iff]
      exact Or.inr ⟨e, hfirst, rfl⟩
  · intro h l hl k hk
    rw [mem_labels_iff] at hl
    rw [mem_keys_iff] at hk
    rcases hl with ⟨n, s, hfirst, rfl⟩ | ⟨e, hfirst, rfl⟩
    · by_cases hnone : ∀ l, ¬Labelled api s l
      · obtain ⟨hadmin, hrelay⟩ := h.generated n s hfirst hnone
        rw [labelAt_generated api n s hnone, unlabelled_leaks]
        rcases hk with hk | ⟨e, he, rfl⟩
        · exact hadmin k hk
        · exact hrelay e he
      · obtain ⟨l, hl⟩ := not_forall_not.mp hnone
        rw [labelAt_labelled api n s l hl]
        rcases hk with hk | ⟨e, he, rfl⟩
        · exact happly s l hl k hk
        · exact h.labelled n s l hfirst hl e he
    · obtain ⟨hown, hadmin⟩ := relay_checked api issuers e (first_mem _ e _ hfirst)
      rcases hk with hk | ⟨d, hd, rfl⟩
      · exact hadmin k hk
      · by_cases heq : d.key = e.key
        · rw [heq]
          exact hown
        · exact h.issuers e hfirst d hd heq

def leakingApi : Option Text := some (js "secretissuer:adminkey")

def leakingIssuers : Option Text := some (js "relay@aid:x=secretissuer")

theorem issuer_secret_leaks :
    js "secretissuer" ∈ labels leakingApi leakingIssuers ∧
    js "secretissuer" ∈ keys leakingApi leakingIssuers ∧
    ¬∀ l ∈ labels leakingApi leakingIssuers, ∀ k ∈ keys leakingApi leakingIssuers,
      ¬Leaks l k := by
  have hlabel : js "secretissuer" ∈ labels leakingApi leakingIssuers := by decide +kernel
  have hkey : js "secretissuer" ∈ keys leakingApi leakingIssuers := by decide +kernel
  constructor
  · exact hlabel
  constructor
  · exact hkey
  · exact fun h => h _ hlabel _ hkey (Or.inl rfl)

end ControlPlane.LabelSecrecy
