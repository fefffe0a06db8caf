import ControlPlane.AdminRoutes
import ControlPlane.KeyedRows
import ControlPlane.ThreadPool

/-!
# The cached keysets of the trust anchors

A refresher pass lists the stale anchors, fetches the keyset of one after
another and writes it back where the URLs are still the ones that it read. A
patch clears the cache in the statement that changes a URL.
-/

set_option autoImplicit false

namespace ControlPlane.TrustAnchorCache
open ControlPlane.JsText ControlPlane.JsValue ControlPlane.HttpValidate ControlPlane.AdminRoutes
open ControlPlane.KeyedRows ControlPlane.RunMachine ControlPlane.ThreadPool

structure Anchor extends TrustAnchor where
  id : Text
  jwksCache : Option Json
  jwksCachedAt : Option Instant

/-- A keyset that `fetchJwks` returned for these URLs. -/
structure Fetch where
  issuerUrl : Text
  jwksUrl : Option Text
  jwks : Json

structure World where
  now : Instant
  trustAnchors : List Anchor
  fetches : List Fetch

def uuidText (id : Text) : Text := id.map lowerUnit

/-- Text is encoded as UTF-8 on its way to a column. -/
def storedAnchor (id : FreshId) (a : TrustAnchor) : Anchor :=
  ⟨⟨toWellFormed a.namespace_, toWellFormed a.issuerUrl, a.jwksUrl.map toWellFormed,
    a.label.map toWellFormed⟩, uuidText id.text, none, none⟩

/-- Nothing is inserted for a key or an issuer that is taken. -/
def insertAnchor (row : Anchor) (rows : List Anchor) : List Anchor :=
  if rows.any (fun r => r.id = row.id ||
      (r.namespace_ = row.namespace_ && r.issuerUrl = row.issuerUrl)) then rows
  else rows++[row]

def urlChanged (changes : AnchorChanges) (row : Anchor) : Bool :=
  changes.issuerUrl.any (fun u => row.issuerUrl ≠ toWellFormed u) ||
    changes.jwksUrl.any (fun u => row.jwksUrl ≠ u.map toWellFormed)

def patchRow (changes : AnchorChanges) (row : Anchor) : Anchor where
  id := row.id
  namespace_ := row.namespace_
  issuerUrl := (changes.issuerUrl.map toWellFormed).getD row.issuerUrl
  jwksUrl := (changes.jwksUrl.map (·.map toWellFormed)).getD row.jwksUrl
  label := (changes.label.map (·.map toWellFormed)).getD row.label
  jwksCache := if urlChanged changes row then none else row.jwksCache
  jwksCachedAt := if urlChanged changes row then none else row.jwksCachedAt

/-- An issuer that another anchor of the namespace has is refused. -/
def conflicts (changes : AnchorChanges) (rows : List Anchor) (row : Anchor) : Bool :=
  rows.any (fun r => r.id ≠ row.id && r.namespace_ = row.namespace_ &&
    r.issuerUrl = (patchRow changes row).issuerUrl)

def patchAnchor (changes : AnchorChanges) (id : Text) (rows : List Anchor) : List Anchor :=
  if rows.any (fun r => r.id = uuidText id && conflicts changes rows r) then rows
  else updateWhere (·.id = uuidText id) (patchRow changes) rows

def postStep (id : FreshId) (b : RequestBody) (rows : List Anchor) : List Anchor :=
  match readJsonObject b with
  | .error _ => rows
  | .ok body =>
    match readTrustAnchor body with
    | .error _ => rows
    | .ok a => insertAnchor (storedAnchor id a) rows

def patchStep (id : Text) (b : RequestBody) (rows : List Anchor) : List Anchor :=
  if !isUuid id then rows
  else
    match readJsonObject b with
    | .error _ => rows
    | .ok body =>
      match readAnchorChanges body with
      | .error _ => rows
      | .ok changes => patchAnchor changes id rows

def deleteStep (id : Text) (rows : List Anchor) : List Anchor :=
  if !isUuid id then rows else rows.filter (fun r => ¬ r.id = uuidText id)

inductive Phase where
  | started (staleThreshold : Instant)
  | working (todo : List Anchor)
  | fetched (anchor : Anchor) (jwks : Json) (rest : List Anchor)
  | done

/-- `respond` is the outcome of `fetchJwks`, at any time later. -/
inductive Io where
  | ok
  | fault
  | respond (jwks : Option Json)

inductive Env where
  | tick (ms : ℕ)
  | post (id : FreshId) (body : RequestBody)
  | patch (id : Text) (body : RequestBody)
  | delete (id : Text)
  | refresh

def stale (staleThreshold : Instant) (a : Anchor) : Bool :=
  a.jwksCachedAt.all (fun t => t < staleThreshold)

/-- An object whose `keys` are an array. -/
def isKeyset (jwks : Json) : Bool :=
  match jwks.get (js "keys") with
  | some (.arr _) => true
  | _ => false

def writeKeyset (now : Instant) (anchor : Anchor) (jwks : Json) (rows : List Anchor) :
    List Anchor :=
  updateWhere (fun r => r.id = anchor.id && r.issuerUrl = anchor.issuerUrl &&
      r.jwksUrl = anchor.jwksUrl)
    (fun r => { r with jwksCache := some jwks, jwksCachedAt := some now }) rows

/-- One statement or one fetch of `refreshStaleJwks`. -/
def passStep (io : Io) (w : World) : Phase → Option (World × Phase)
  | .started staleThreshold =>
    match io with
    | .ok => some (w, .working (w.trustAnchors.filter (stale staleThreshold)))
    | .fault => some (w, .done)
    | .respond _ => none
  | .working [] => some (w, .done)
  | .working (a::rest) =>
    match io with
    | .respond jwks =>
      match jwks.filter isKeyset with
      | some jwks =>
        some ({ w with fetches := ⟨a.issuerUrl, a.jwksUrl, jwks⟩::w.fetches },
          .fetched a jwks rest)
      | none => some (w, .working rest)
    | _ => none
  | .fetched a jwks rest =>
    match io with
    | .ok =>
      if jwks.storable then
        some ({ w with trustAnchors := writeKeyset w.now a jwks w.trustAnchors },
          .working rest)
      else some (w, .working rest)
    | .fault => some (w, .working rest)
    | .respond _ => none
  | .done => none

def env (staleAfter : ℕ) : Env → World → Option (World × Option Phase)
  | .tick ms, w => some ({ w with now := w.now+ms }, none)
  | .post id body, w =>
    some ({ w with trustAnchors := postStep id body w.trustAnchors }, none)
  | .patch id body, w =>
    some ({ w with trustAnchors := patchStep id body w.trustAnchors }, none)
  | .delete id, w => some ({ w with trustAnchors := deleteStep id w.trustAnchors }, none)
  | .refresh, w => some (w, some (.started (w.now-staleAfter)))

def passes (staleAfter : ℕ) : System World Phase Env Io := ⟨env staleAfter, passStep⟩

abbrev State := Pool World Phase

abbrev Event := Label Env Io

abbrev next (staleAfter : ℕ) : Event → State → Option State := step (passes staleAfter)

def start (now : Instant) : State := ⟨⟨now, [], []⟩, []⟩

theorem urlChanged_iff (changes : AnchorChanges) (row : Anchor) :
    urlChanged changes row = false ↔ (patchRow changes row).issuerUrl = row.issuerUrl ∧
      (patchRow changes row).jwksUrl = row.jwksUrl := by
  have hissuer : changes.issuerUrl.any (fun u => row.issuerUrl ≠ toWellFormed u) = false ↔
      (patchRow changes row).issuerUrl = row.issuerUrl := by
    change _ ↔ (changes.issuerUrl.map toWellFormed).getD row.issuerUrl = row.issuerUrl
    cases changes.issuerUrl with
    | none => simp
    | some u =>
      simp only [Option.any_some, Option.map_some, Option.getD_some, decide_eq_false_iff_not,
        ne_eq, not_not]
      exact eq_comm
  have hjwks : changes.jwksUrl.any (fun u => row.jwksUrl ≠ u.map toWellFormed) = false ↔
      (patchRow changes row).jwksUrl = row.jwksUrl := by
    change _ ↔ (changes.jwksUrl.map (·.map toWellFormed)).getD row.jwksUrl = row.jwksUrl
    cases changes.jwksUrl with
    | none => simp
    | some u =>
      simp only [Option.any_some, Option.map_some, Option.getD_some, decide_eq_false_iff_not,
        ne_eq, not_not]
      exact eq_comm
  rw [urlChanged, Bool.or_eq_false_iff, hissuer, hjwks]

/-- The cache of a row is dated and was fetched for the URLs of the row. -/
structure RowOk (fetches : List Fetch) (a : Anchor) : Prop where
  keyset : ∀ jwks, a.jwksCache = some jwks → ⟨a.issuerUrl, a.jwksUrl, jwks⟩ ∈ fetches
  dated : a.jwksCache = none ↔ a.jwksCachedAt = none

theorem rowOk_empty (fetches : List Fetch) (id : FreshId) (a : TrustAnchor) :
    RowOk fetches (storedAnchor id a) := by
  constructor
  · intro jwks h
    cases h
  · exact iff_of_true rfl rfl

theorem rowOk_patch (fetches : List Fetch) (changes : AnchorChanges) (a : Anchor)
    (h : RowOk fetches a) : RowOk fetches (patchRow changes a) := by
  by_cases hu : urlChanged changes a = true
  · constructor
    · intro jwks hj
      simp [patchRow, hu] at hj
    · simp [patchRow, hu]
  · obtain ⟨hissuer, hjwks⟩ := (urlChanged_iff changes a).mp (by simpa using hu)
    constructor
    · intro jwks hj
      rw [hissuer, hjwks]
      apply h.keyset
      simpa [patchRow, hu] using hj
    · simpa [patchRow, hu] using h.dated

structure Coherent (w : World) : Prop where
  rows : ∀ a ∈ w.trustAnchors, RowOk w.fetches a
  ids : (w.trustAnchors.map (·.id)).Nodup

theorem coherent_insert (w : World) (row : Anchor) (hrow : RowOk w.fetches row)
    (h : Coherent w) : Coherent { w with trustAnchors := insertAnchor row w.trustAnchors } := by
  unfold insertAnchor
  split_ifs with hany
  · exact h
  · simp only [Bool.not_eq_true, List.any_eq_false, Bool.or_eq_true, decide_eq_true_eq,
      not_or] at hany
    constructor
    · intro a ha
      rcases List.mem_append.mp ha with ha | ha
      · exact h.rows a ha
      · rw [List.mem_singleton.mp ha]
        exact hrow
    · exact nodup_snoc (fun a : Anchor => a.id) _ _ h.ids (fun r hr => (hany r hr).1)

theorem coherent_update (w : World) (q : Anchor → Bool) (f : Anchor → Anchor)
    (hid : ∀ a, (f a).id = a.id)
    (hf : ∀ a, q a = true → RowOk w.fetches a → RowOk w.fetches (f a)) (h : Coherent w) :
    Coherent { w with trustAnchors := updateWhere q f w.trustAnchors } := by
  constructor
  · intro a ha
    obtain ⟨b, hb, rfl⟩ := mem_updateWhere q f w.trustAnchors a ha
    split_ifs with hq
    · exact hf b hq (h.rows b hb)
    · exact h.rows b hb
  · have hkeys := map_updateWhere (fun a : Anchor => a.id) q f w.trustAnchors hid
    exact hkeys ▸ h.ids

theorem coherent_post (w : World) (id : FreshId) (b : RequestBody) (h : Coherent w) :
    Coherent { w with trustAnchors := postStep id b w.trustAnchors } := by
  unfold postStep
  split
  · exact h
  · split
    · exact h
    · next a _ => exact coherent_insert w _ (rowOk_empty w.fetches id a) h

theorem coherent_patch (w : World) (id : Text) (b : RequestBody) (h : Coherent w) :
    Coherent { w with trustAnchors := patchStep id b w.trustAnchors } := by
  unfold patchStep
  split
  · exact h
  · split
    · exact h
    · split
      · exact h
      · next changes _ =>
        unfold patchAnchor
        split_ifs
        · exact h
        · exact coherent_update w _ _ (fun _ => rfl)
            (fun a _ ha => rowOk_patch w.fetches changes a ha) h

theorem coherent_delete (w : World) (id : Text) (h : Coherent w) :
    Coherent { w with trustAnchors := deleteStep id w.trustAnchors } := by
  unfold deleteStep
  split
  · exact h
  · constructor
    · exact fun a ha => h.rows a (List.mem_of_mem_filter ha)
    · exact (List.filter_sublist.map _).nodup h.ids

theorem coherent_write (w : World) (anchor : Anchor) (jwks : Json)
    (hfetch : ⟨anchor.issuerUrl, anchor.jwksUrl, jwks⟩ ∈ w.fetches) (h : Coherent w) :
    Coherent { w with trustAnchors := writeKeyset w.now anchor jwks w.trustAnchors } := by
  apply coherent_update w _ (fun r => { r with jwksCache := some jwks, jwksCachedAt := some w.now })
  · exact fun _ => rfl
  · intro a hq _
    simp only [Bool.and_eq_true, decide_eq_true_eq] at hq
    obtain ⟨⟨-, hissuer⟩, hjwks⟩ := hq
    constructor
    · intro k hk
      obtain rfl : jwks = k := Option.some.inj hk
      simp only [hissuer, hjwks]
      exact hfetch
    · simp
  · exact h

def PhaseOk (w : World) : Phase → Prop
  | .fetched anchor jwks _ => ⟨anchor.issuerUrl, anchor.jwksUrl, jwks⟩ ∈ w.fetches
  | _ => True

theorem passStep_ok (io : Io) (w w' : World) (ph ph' : Phase) (hw : Coherent w)
    (hph : PhaseOk w ph) (h : passStep io w ph = some (w', ph')) :
    Coherent w' ∧ PhaseOk w' ph' ∧ w.fetches ⊆ w'.fetches := by
  cases ph with
  | started staleThreshold =>
    cases io with
    | ok => cases h; exact ⟨hw, trivial, List.Subset.refl _⟩
    | fault => cases h; exact ⟨hw, trivial, List.Subset.refl _⟩
    | respond jwks => cases h
  | working todo =>
    cases todo with
    | nil => cases h; exact ⟨hw, trivial, List.Subset.refl _⟩
    | cons a rest =>
      cases io with
      | ok => cases h
      | fault => cases h
      | respond jwks =>
        simp only [passStep] at h
        cases hk : jwks.filter isKeyset with
        | none =>
          rw [hk] at h
          cases h
          exact ⟨hw, trivial, List.Subset.refl _⟩
        | some k =>
          rw [hk] at h
          cases h
          constructor
          · constructor
            · intro b hb
              constructor
              · exact fun j hj => List.mem_cons_of_mem _ ((hw.rows b hb).keyset j hj)
              · exact (hw.rows b hb).dated
            · exact hw.ids
          · exact ⟨List.mem_cons_self, List.subset_cons_self _ _⟩
  | fetched anchor jwks rest =>
    cases io with
    | ok =>
      simp only [passStep] at h
      split_ifs at h with hs
      · cases h
        exact ⟨coherent_write w anchor jwks hph hw, trivial, List.Subset.refl _⟩
      · cases h
        exact ⟨hw, trivial, List.Subset.refl _⟩
    | fault => cases h; exact ⟨hw, trivial, List.Subset.refl _⟩
    | respond jwks => cases h
  | done => cases h

theorem env_ok (staleAfter : ℕ) (e : Env) (w w' : World) (o : Option Phase) (hw : Coherent w)
    (h : env staleAfter e w = some (w', o)) :
    Coherent w' ∧ w'.fetches = w.fetches ∧ ∀ ph ∈ o, PhaseOk w' ph := by
  cases e with
  | tick ms => cases h; exact ⟨⟨hw.rows, hw.ids⟩, rfl, by simp⟩
  | post id body => cases h; exact ⟨coherent_post w id body hw, rfl, by simp⟩
  | patch id body => cases h; exact ⟨coherent_patch w id body hw, rfl, by simp⟩
  | delete id => cases h; exact ⟨coherent_delete w id hw, rfl, by simp⟩
  | refresh =>
    cases h
    apply And.intro hw
    apply And.intro rfl
    intro ph hph
    obtain rfl : Phase.started (w.now-staleAfter) = ph := Option.some.inj hph
    trivial

def PatchKeeps (staleAfter : ℕ) (p : State) : Prop :=
  ∀ id body q, next staleAfter (.env (.patch id body)) p = some q →
    ∀ a ∈ p.world.trustAnchors, ∀ b ∈ q.world.trustAnchors, b.id = a.id →
      b.issuerUrl = a.issuerUrl → b.jwksUrl = a.jwksUrl →
        b.jwksCache = a.jwksCache ∧ b.jwksCachedAt = a.jwksCachedAt

theorem patchAnchor_keeps (changes : AnchorChanges) (id : Text) (rows : List Anchor)
    (hids : (rows.map (·.id)).Nodup) (a b : Anchor) (ha : a ∈ rows)
    (hb : b ∈ patchAnchor changes id rows) (hid : b.id = a.id)
    (hissuer : b.issuerUrl = a.issuerUrl) (hjwks : b.jwksUrl = a.jwksUrl) :
    b.jwksCache = a.jwksCache ∧ b.jwksCachedAt = a.jwksCachedAt := by
  unfold patchAnchor at hb
  split_ifs at hb
  · obtain rfl := List.inj_on_of_nodup_map hids hb ha hid
    exact ⟨rfl, rfl⟩
  · have heq := updateWhere_eq (fun r : Anchor => r.id) _ (patchRow changes) rows hids
      (fun _ => rfl) a b ha hb hid
    by_cases hsel : a.id = uuidText id
    · rw [if_pos (decide_eq_true hsel)] at heq
      rw [heq] at hissuer hjwks
      have hsame := (urlChanged_iff changes a).mpr ⟨hissuer, hjwks⟩
      rw [heq]
      simp [patchRow, hsame]
    · rw [if_neg (by simpa using hsel)] at heq
      rw [heq]
      exact ⟨rfl, rfl⟩

theorem patchStep_keeps (id : Text) (body : RequestBody) (rows : List Anchor)
    (hids : (rows.map (·.id)).Nodup) (a b : Anchor) (ha : a ∈ rows)
    (hb : b ∈ patchStep id body rows) (hid : b.id = a.id) (hissuer : b.issuerUrl = a.issuerUrl)
    (hjwks : b.jwksUrl = a.jwksUrl) :
    b.jwksCache = a.jwksCache ∧ b.jwksCachedAt = a.jwksCachedAt := by
  have hsame : b ∈ rows → b.jwksCache = a.jwksCache ∧ b.jwksCachedAt = a.jwksCachedAt := by
    intro h
    obtain rfl := List.inj_on_of_nodup_map hids h ha hid
    exact ⟨rfl, rfl⟩
  unfold patchStep at hb
  split at hb
  · exact hsame hb
  · split at hb
    · exact hsame hb
    · split at hb
      · exact hsame hb
      · next changes _ => exact patchAnchor_keeps changes id rows hids a b ha hb hid hissuer hjwks

theorem next_ok (staleAfter : ℕ) (l : Event) (p q : State)
    (h : Coherent p.world ∧ ∀ (i : ℕ) (ph : Phase), p.threads[i]? = some ph → PhaseOk p.world ph)
    (hs : next staleAfter l p = some q) :
    Coherent q.world ∧ ∀ (i : ℕ) (ph : Phase), q.threads[i]? = some ph → PhaseOk q.world ph := by
  have hmono : ∀ (w w' : World) (ph : Phase), w.fetches ⊆ w'.fetches → PhaseOk w ph →
      PhaseOk w' ph := by
    intro w w' ph hsub hph
    cases ph with
    | fetched anchor jwks rest => exact hsub hph
    | _ => trivial
  cases l with
  | env e =>
    obtain ⟨w, o, he, rfl⟩ := (step_env_some (passes staleAfter) e p q).mp hs
    obtain ⟨hw, hfetches, hnew⟩ := env_ok staleAfter e p.world w o h.1 he
    apply And.intro hw
    intro i ph hi
    rcases append_get p.threads o i ph hi with hi | ⟨-, ho⟩
    · exact hmono p.world w ph (hfetches ▸ List.Subset.refl _) (h.2 i ph hi)
    · exact hnew ph ho
  | act j io =>
    obtain ⟨t, w, u, hj, ha, rfl⟩ := (step_act_some (passes staleAfter) j io p q).mp hs
    obtain ⟨hw, hu, hsub⟩ := passStep_ok io p.world w t u h.1 (h.2 j t hj) ha
    apply And.intro hw
    intro i ph hi
    rcases set_get p.threads j i u ph hi with ⟨-, rfl⟩ | ⟨-, hi⟩
    · exact hu
    · exact hmono p.world w ph hsub (h.2 i ph hi)

/-- In every reachable state a cached keyset is one that was fetched for the
URLs that its row has now. -/
theorem jwks_cache_coherent (staleAfter : ℕ) (now : Instant) (ls : List Event) (p : State)
    (hr : run (next staleAfter) ls (start now) = some p) :
    (∀ a ∈ p.world.trustAnchors,
      (∀ jwks, a.jwksCache = some jwks → ⟨a.issuerUrl, a.jwksUrl, jwks⟩ ∈ p.world.fetches) ∧
        (a.jwksCache = none ↔ a.jwksCachedAt = none)) ∧ PatchKeeps staleAfter p := by
  have hstart : Coherent (start now).world ∧ ∀ (i : ℕ) (ph : Phase),
      (start now).threads[i]? = some ph → PhaseOk (start now).world ph := by
    constructor
    · constructor
      · simp [start]
      · simp [start]
    · simp [start]
  obtain ⟨hw, -⟩ := run_invariant (next staleAfter) (fun _ _ => True)
    (fun p : State => Coherent p.world ∧ ∀ (i : ℕ) (ph : Phase), p.threads[i]? = some ph →
      PhaseOk p.world ph)
    (fun l s t _ hi hs => next_ok staleAfter l s t hi hs) ls (start now) p
    (guarded_true _ ls _) hstart hr
  constructor
  · exact fun a ha => ⟨(hw.rows a ha).keyset, (hw.rows a ha).dated⟩
  · intro id body q hq a ha b hb
    obtain ⟨w, o, he, rfl⟩ := (step_env_some (passes staleAfter) _ p q).mp hq
    cases he
    exact patchStep_keeps id body p.world.trustAnchors hw.ids a b ha hb

def anchorId : Text := js "9b2d6c1e-5a47-4f0b-8d3e-2c1a0b9f8e7d"

def issuerBody (issuerUrl : Text) : RequestBody :=
  ⟨false, some (.obj [(js "issuerUrl", .str issuerUrl)])⟩

def changeAndBack : List Event :=
  [.env (.post ⟨anchorId, by decide⟩ (issuerBody (js "https://a.example"))), .env .refresh,
    .act 0 .ok, .env (.patch anchorId (issuerBody (js "https://b.example"))),
    .env (.patch anchorId (issuerBody (js "https://a.example"))),
    .act 0 (.respond (some (.obj [(js "keys", .arr [])]))), .act 0 .ok]

theorem jwks_cache_change_and_back :
    ∃ p, run (next 3600000) changeAndBack (start 1700000000000) = some p ∧
      (p.world.trustAnchors.map (fun a => (a.issuerUrl, a.jwksCache.isSome))) =
        [(js "https://a.example", true)] ∧ PatchKeeps 3600000 p := by
  obtain ⟨p, hp⟩ := Option.isSome_iff_exists.mp
    (show (run (next 3600000) changeAndBack (start 1700000000000)).isSome = true by decide)
  have hcached : (run (next 3600000) changeAndBack (start 1700000000000)).map (fun p =>
      p.world.trustAnchors.map (fun a => (a.issuerUrl, a.jwksCache.isSome))) =
        some [(js "https://a.example", true)] := by decide
  rw [hp] at hcached
  exact ⟨p, hp, Option.some.inj hcached,
    (jwks_cache_coherent 3600000 1700000000000 changeAndBack p hp).2⟩

end ControlPlane.TrustAnchorCache
