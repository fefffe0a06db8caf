import ControlPlane.KeyedRows
import ControlPlane.RequestGate

/-!
# The configured keys

`API_KEYS` and `ISSUER_KEYS` are lists of entries separated by commas. An
entry whose key an earlier one has is left out, and so is an issuer key that
is an API key. A label that two entries share refuses the start.
-/

set_option autoImplicit false

namespace ControlPlane.ApiKeys
open ControlPlane.JsText ControlPlane.HttpValidate ControlPlane.RequestGate ControlPlane.KeyedRows

structure KeyEntry where
  label : Text
  key : Text
  deriving DecidableEq, Repr

structure ParsedApiKeys where
  entries : List KeyEntry
  warnings : List Text
  errors : List Text

structure IssuerEntry extends KeyEntry where
  aid : Text
  deriving DecidableEq, Repr

structure ParsedIssuerKeys where
  entries : List IssuerEntry
  warnings : List Text
  errors : List Text

def secretFragmentMin : ℕ := 8

def includesText (k label : Text) : Bool := k.tails.any (label.isPrefixOf ·)

def looksLikeSecret (label : Text) (keys : List Text) : Bool :=
  keys.any (fun k => k = label || (secretFragmentMin ≤ label.length && includesText k label))

def unlabelledLabel (position : ℕ) : Text := js "unlabelled-"++number position

/-- `split(',')`, trimmed, without the empty ones. -/
def configItems (raw : Option Text) : List Text :=
  (((raw.getD []).splitOn comma).map trim).filter (· ≠ [])

def cutAt (sep : UInt16) (t : Text) : Option (Text × Text) :=
  if t.contains sep then
    some (t.takeWhile (· ≠ sep), (t.dropWhile (· ≠ sep)).drop 1)
  else none

structure SplitKey where
  label : Option Text
  key : Text

def splitItem (item : Text) : SplitKey :=
  match cutAt 0x3A item with
  | some (label, rest) =>
    if isKeyLabel label && trim rest ≠ [] then ⟨some label, trim rest⟩ else ⟨none, item⟩
  | none => ⟨none, item⟩

def apiEntry (position : ℕ) : Text := js "API_KEYS entry "++number position

def labelTaken (entry label rest : Text) : Text :=
  entry++js ": label \""++label++js "\" is already used by an earlier entry; "++rest

def addApiKey (allKeys : List Text) (position : ℕ) (s : SplitKey) (acc : ParsedApiKeys) :
    ParsedApiKeys :=
  let refused := s.label.filter (looksLikeSecret · allKeys)
  let label := (s.label.filter (fun l => !looksLikeSecret l allKeys)).getD
    (unlabelledLabel position)
  let warnings := acc.warnings++refused.toList.map (fun _ =>
    apiEntry position++js ": its label is part of a configured key and was "++
      js "refused (labels must never contain the secret); using "++unlabelledLabel position)
  if acc.entries.any (·.key = s.key) then
    { acc with
      warnings := warnings++[apiEntry position++js " ("++label++
        js "): duplicate key; the first entry's label is used"] }
  else
    { entries := acc.entries++[⟨label, s.key⟩]
      warnings := warnings
      errors := if acc.entries.any (·.label = label) then
          acc.errors++[labelTaken (apiEntry position) label
            (js "labels must be unique, or their audit rows cannot be told apart")]
        else acc.errors }

def addApiKeys (allKeys : List Text) : ℕ → List SplitKey → ParsedApiKeys → ParsedApiKeys
  | _, [], acc => acc
  | position, s::rest, acc =>
    addApiKeys allKeys (position+1) rest (addApiKey allKeys position s acc)

def parseApiKeys (raw : Option Text) : ParsedApiKeys :=
  let split := (configItems raw).map splitItem
  addApiKeys (split.map (·.key)) 1 split ⟨[], [], []⟩

def issuerItem (position : ℕ) : Text := js "ISSUER_KEYS entry "++number position

/-- `label@aid=key`, cut at the first of each sign. -/
def splitIssuer (item : Text) : Option IssuerEntry :=
  match cutAt 0x40 item with
  | some (label, rest) =>
    match cutAt 0x3D rest with
    | some (aid, key) =>
      if isKeyLabel label && isAid aid && trim key ≠ [] then some ⟨⟨label, trim key⟩, aid⟩
      else none
    | none => none
  | none => none

def addIssuerKey (adminKeys : List Text) (position : ℕ) (item : Text) (acc : ParsedIssuerKeys) :
    ParsedIssuerKeys :=
  let skip (reason : Text) : ParsedIssuerKeys :=
    { acc with warnings := acc.warnings++[issuerItem position++reason] }
  match splitIssuer item with
  | none => skip (js ": not of the form label@aid=key; skipped")
  | some e =>
    if looksLikeSecret e.label (e.key::adminKeys) then
      skip (js ": its label is part of a configured key; skipped")
    else if adminKeys.contains e.key then
      skip (js " ("++e.label++js "): its key is also an API_KEYS key; "++
        js "skipped (an issuer key must not be an admin key)")
    else if acc.entries.any (·.key = e.key) then
      skip (js " ("++e.label++js "): duplicate key; skipped")
    else
      { acc with
        entries := acc.entries++[e]
        errors := if acc.entries.any (·.label = e.label) then
            acc.errors++[labelTaken (issuerItem position) e.label
              (js "labels must be unique (rotate an AID's key under a new label)")]
          else acc.errors }

def addIssuerKeys (adminKeys : List Text) : ℕ → List Text → ParsedIssuerKeys → ParsedIssuerKeys
  | _, [], acc => acc
  | position, item::rest, acc =>
    addIssuerKeys adminKeys (position+1) rest (addIssuerKey adminKeys position item acc)

def parseIssuerKeys (raw : Option Text) (adminKeys : List Text) : ParsedIssuerKeys :=
  addIssuerKeys adminKeys 1 (configItems raw) ⟨[], [], []⟩

/-- The first entry for a key wins. -/
def labelIndex (entries : List KeyEntry) (key : Text) : Option Text :=
  (entries.find? (·.key = key)).map (·.label)

/-- The last entry for a key wins. -/
def issuerKeyIndex (entries : List IssuerEntry) (key : Text) : Option IssuerEntry :=
  entries.reverse.find? (·.key = key)

theorem addApiKeys_nodup (allKeys : List Text) (position : ℕ) (ss : List SplitKey)
    (acc : ParsedApiKeys) (h : (acc.entries.map (·.key)).Nodup) :
    ((addApiKeys allKeys position ss acc).entries.map (·.key)).Nodup := by
  induction ss generalizing position acc with
  | nil => exact h
  | cons s rest ih =>
    apply ih
    unfold addApiKey
    split_ifs with hany
    · exact h
    · apply nodup_snoc (fun e : KeyEntry => e.key) acc.entries ⟨_, s.key⟩ h
      simpa using hany

theorem parseApiKeys_nodup (raw : Option Text) :
    ((parseApiKeys raw).entries.map (·.key)).Nodup :=
  addApiKeys_nodup _ 1 _ _ List.nodup_nil

theorem labelIndex_iff (raw : Option Text) (key label : Text) :
    labelIndex (parseApiKeys raw).entries key = some label ↔
      ∃ e ∈ (parseApiKeys raw).entries, e.key = key ∧ e.label = label := by
  have hfind := find_key_iff (fun e : KeyEntry => e.key) _ (parseApiKeys_nodup raw) key
  simp only [labelIndex, Option.map_eq_some_iff, hfind, and_assoc]

structure Taken (adminKeys : List Text) (entries : List IssuerEntry) : Prop where
  nodup : (entries.map (·.key)).Nodup
  admin : ∀ e ∈ entries, e.key ∉ adminKeys
  label : ∀ e ∈ entries, isKeyLabel e.label = true
  aid : ∀ e ∈ entries, isAid e.aid = true

theorem splitIssuer_some (item : Text) (e : IssuerEntry) (h : splitIssuer item = some e) :
    isKeyLabel e.label = true ∧ isAid e.aid = true := by
  unfold splitIssuer at h
  split at h
  · split at h
    · split_ifs at h with hc
      cases h
      simp only [Bool.and_eq_true] at hc
      exact hc.1
    · cases h
  · cases h

theorem addIssuerKey_taken (adminKeys : List Text) (position : ℕ) (item : Text)
    (acc : ParsedIssuerKeys) (h : Taken adminKeys acc.entries) :
    Taken adminKeys (addIssuerKey adminKeys position item acc).entries := by
  unfold addIssuerKey
  cases hs : splitIssuer item with
  | none => exact h
  | some e =>
    obtain ⟨hlabel, haid⟩ := splitIssuer_some item e hs
    simp only
    by_cases hsecret : looksLikeSecret e.label (e.key::adminKeys) = true
    · rw [if_pos hsecret]
      exact h
    rw [if_neg hsecret]
    by_cases hadmin : adminKeys.contains e.key = true
    · rw [if_pos hadmin]
      exact h
    rw [if_neg hadmin]
    by_cases hany : acc.entries.any (·.key = e.key) = true
    · rw [if_pos hany]
      exact h
    · rw [if_neg hany]
      have hmem : ∀ x ∈ acc.entries++[e], x ∈ acc.entries ∨ x = e := by
        intro x hx
        exact (List.mem_append.mp hx).imp id List.mem_singleton.mp
      constructor
      · apply nodup_snoc (fun e : IssuerEntry => e.key) acc.entries e h.nodup
        simpa using hany
      · intro x hx
        rcases hmem x hx with hx | rfl
        · exact h.admin x hx
        · simpa using hadmin
      · intro x hx
        rcases hmem x hx with hx | rfl
        · exact h.label x hx
        · exact hlabel
      · intro x hx
        rcases hmem x hx with hx | rfl
        · exact h.aid x hx
        · exact haid

theorem parseIssuerKeys_taken (raw : Option Text) (adminKeys : List Text) :
    Taken adminKeys (parseIssuerKeys raw adminKeys).entries := by
  have hstep : ∀ items position acc, Taken adminKeys acc.entries →
      Taken adminKeys (addIssuerKeys adminKeys position items acc).entries := by
    intro items
    induction items with
    | nil => exact fun _ _ h => h
    | cons item rest ih =>
      exact fun position acc h => ih _ _ (addIssuerKey_taken adminKeys position item acc h)
  exact hstep _ 1 _ ⟨List.nodup_nil, by simp, by simp, by simp⟩

theorem issuerKeyIndex_iff (raw : Option Text) (adminKeys : List Text) (key : Text)
    (e : IssuerEntry) : issuerKeyIndex (parseIssuerKeys raw adminKeys).entries key = some e ↔
      e ∈ (parseIssuerKeys raw adminKeys).entries ∧ e.key = key := by
  have hnodup := (parseIssuerKeys_taken raw adminKeys).nodup
  have hrev : ((parseIssuerKeys raw adminKeys).entries.reverse.map (·.key)).Nodup := by
    rw [List.map_reverse, List.nodup_reverse]
    exact hnodup
  apply (find_key_iff (fun e : IssuerEntry => e.key) _ hrev key e).trans
  rw [List.mem_reverse]

end ControlPlane.ApiKeys
