import Mathlib.Algebra.Order.Floor.Ring
import Mathlib.Data.Rat.Floor
import ControlPlane.JsNumberText
import ControlPlane.RateLimiter
import ControlPlane.RequestGate

/-!
# Budgets of the configured keys

A request that a configured key authenticates is counted under the first 24
units of the key. Requests of other keys leave its budget alone exactly when
no other key that a header can carry begins with the same 24 units.
-/

set_option autoImplicit false

namespace ControlPlane.KeyBudgets
open ControlPlane.JsText ControlPlane.JsValue ControlPlane.RequestGate
open ControlPlane.KeyedCells ControlPlane.RateLimiter

/-- The limiter's calls, each with its reading of the clock. -/
inductive Event where
  | request (now : Instant) (r : Request)
  | gc (now : Instant)

def tokenOf (r : Request) : Option Text :=
  bearerToken ((get r.headers (js "authorization")).getD [])

def isGated (r : Request) : Bool := (js "/api/").isPrefixOf r.pathname && r.method ≠ js "OPTIONS"

def admission (cfg : GateConfig) (r : Request) :
    Except HttpValidate.Problem (Option Text × Option Text) :=
  authenticate cfg r (tokenOf r) (isPublicRequest r.pathname r.method)

/-- The bucket that the gate asks the limiter for, if it gets that far. -/
def limited (cfg : GateConfig) (r : Request) : Option RateLimitChoice :=
  if isGated r then
    match admission cfg r with
    | .error _ => none
    | .ok _ =>
      if cfg.rateLimitEnabled && !rateLimitExemptPaths.contains r.pathname then
        some (chooseRateLimit cfg r (tokenOf r) (isPublicRequest r.pathname r.method))
      else none
  else none

def keyOf (cfg : GateConfig) (r : Request) : Option Text :=
  if isGated r then
    match admission cfg r with
    | .ok (some _, _) => present (tokenOf r)
    | _ => none
  else none

def serve (cfg : GateConfig) (windowMs : ℚ) (l : Limiter) : Event → Limiter × Option Bool
  | .request now r =>
    match limited cfg r with
    | none => (l, none)
    | some c =>
      let (l', d) := check l c.bucketName c.key c.limit windowMs now
      (l', some d.allowed)
  | .gc now => (RateLimiter.gc l now, none)

def madeWith (cfg : GateConfig) (k : Text) : Event → Bool
  | .request _ r => keyOf cfg r = some k
  | .gc _ => false

/-- Whether each request that a key authenticates is let through. -/
def decisions (cfg : GateConfig) (windowMs : ℚ) (k : Text) : List Event → Limiter → List Bool
  | [], _ => []
  | e::es, l =>
    if madeWith cfg k e then
      (serve cfg windowMs l e).2.all id::decisions cfg windowMs k es (serve cfg windowMs l e).1
    else decisions cfg windowMs k es (serve cfg windowMs l e).1

def configuredKeys (cfg : GateConfig) : List Text :=
  cfg.apiKeyEntries.map (·.key)++cfg.issuerKeyEntries.map (·.key)

def ofOther (cfg : GateConfig) (k : Text) : Event → Bool
  | .request _ r => (present (tokenOf r)).any (fun t => t ≠ k && (configuredKeys cfg).contains t)
  | .gc _ => false

/-- Whatever is requested with other keys, the decisions are the same. -/
def PerKey (cfg : GateConfig) (windowMs : ℚ) : Prop :=
  ∀ k, ∀ es es' : List Event,
    es.filter (fun e => !ofOther cfg k e) = es'.filter (fun e => !ofOther cfg k e) →
      decisions cfg windowMs k es .empty = decisions cfg windowMs k es' .empty

def Sendable (k : Text) : Prop := k ≠ [] ∧ isHeaderValue (js "Bearer "++k) = true

/-- The limit is off, or no two keys that can be sent share their first 24 units. -/
def Separate (cfg : GateConfig) : Prop :=
  cfg.rateLimitEnabled = false ∨ cfg.rateLimitApiKeyMin ≤ 0 ∨
    ∀ k ∈ configuredKeys cfg, ∀ k' ∈ configuredKeys cfg, Sendable k → Sendable k' →
      k ≠ k' → k.take 24 ≠ k'.take 24

/-- The gate asks the limiter about one bucket at most, and says no to a
request that has passed authentication only when the limiter does. -/
theorem proxy_asks (cfg : GateConfig) (s : IdSource) (allowed : RateLimitChoice → Bool)
    (r : Request) :
    proxy cfg s allowed r =
      if (limited cfg r).all allowed then proxy cfg s (fun _ => true) r
      else .denied ⟨429, js "rate limit exceeded", js "RATE_LIMITED"⟩ := by
  rw [proxy, proxy, limited, isGated]
  cases hp : (js "/api/").isPrefixOf r.pathname with
  | false => simp
  | true =>
    by_cases hm : r.method = js "OPTIONS"
    · simp [hm]
    · simp only [hm, Bool.not_true, Bool.false_eq_true, if_false, ne_eq, not_false_eq_true,
        decide_true, Bool.and_true, if_true, admission, tokenOf]
      cases authenticate cfg r (bearerToken ((get r.headers (js "authorization")).getD []))
          (isPublicRequest r.pathname r.method) with
      | error problem => simp
      | ok labels =>
        simp only [Bool.and_false, Bool.false_eq_true, if_false]
        cases cfg.rateLimitEnabled && !rateLimitExemptPaths.contains r.pathname with
        | false => simp
        | true => by_cases ha : allowed (chooseRateLimit cfg r
            (bearerToken ((get r.headers (js "authorization")).getD []))
            (isPublicRequest r.pathname r.method)) = true <;> simp [ha]

theorem present_some (v : Option Text) (t : Text) : present v = some t ↔ v = some t ∧ t ≠ [] := by
  simp [present, Option.filter_eq_some_iff]

theorem revocations_not_public : isPublicRequest (js "/api/revocations") (js "GET") = false := by
  decide +kernel

theorem keyOf_some (cfg : GateConfig) (r : Request) (k : Text) (h : keyOf cfg r = some k) :
    isGated r = true ∧ isPublicRequest r.pathname r.method = false ∧
      (∃ labels, admission cfg r = .ok labels) ∧ present (tokenOf r) = some k ∧
        k ∈ configuredKeys cfg := by
  rw [keyOf] at h
  split_ifs at h with hg
  cases ha : admission cfg r with
  | error problem => simp [ha] at h
  | ok labels =>
    obtain ⟨label, issuer⟩ := labels
    cases label with
    | none => simp [ha] at h
    | some label =>
      simp only [ha] at h
      simp only [hg, h, true_and, Except.ok.injEq, exists_eq']
      rw [admission, authenticate] at ha
      simp only [h] at ha
      split at ha
      · next e he =>
        split_ifs at he with hroute
        simp only [Bool.and_eq_true, decide_eq_true_eq] at hroute
        rw [hroute.1, hroute.2]
        apply And.intro revocations_not_public
        obtain ⟨hmem, hkey⟩ : e ∈ cfg.issuerKeyEntries ∧ e.key = k :=
          ⟨List.mem_of_find?_eq_some he, by simpa using List.find?_some he⟩
        exact List.mem_append_right _ (List.mem_map.mpr ⟨e, hmem, hkey⟩)
      · split_ifs at ha with hpub hempty hprod
        · simp at ha
        · simp at ha
        · apply And.intro (by simpa using hpub)
          split at ha
          · next e he =>
            obtain ⟨hmem, hkey⟩ : e ∈ cfg.apiKeyEntries ∧ e.key = k :=
              ⟨List.mem_of_find?_eq_some he, by simpa using List.find?_some he⟩
            exact List.mem_append_left _ (List.mem_map.mpr ⟨e, hmem, hkey⟩)
          · simp at ha

theorem public_paths (path method : Text) (h : isPublicRequest path method = false) :
    publicPaths.contains path = false := by
  rw [isPublicRequest, Bool.or_eq_false_iff] at h
  exact h.1

theorem not_public_path (path : Text) (h : publicPaths.contains path = false) :
    path ≠ js "/api/registry/enroll" ∧ rateLimitExemptPaths.contains path = false := by
  simp only [publicPaths, List.contains_cons, List.contains_nil, Bool.or_false,
    Bool.or_eq_false_iff, beq_eq_false_iff_ne] at h
  simp only [rateLimitExemptPaths, List.contains_cons, List.contains_nil, Bool.or_false,
    Bool.or_eq_false_iff, beq_eq_false_iff_ne]
  exact ⟨h.2.2.2.1, h.1, h.2.1, h.2.2.2.2.2⟩

theorem limited_keyed (cfg : GateConfig) (r : Request) (k : Text) (h : keyOf cfg r = some k) :
    limited cfg r = if cfg.rateLimitEnabled then
      some ⟨js "api-key", k.take 24, cfg.rateLimitApiKeyMin⟩ else none := by
  obtain ⟨hg, hpub, ⟨labels, ha⟩, ht, -⟩ := keyOf_some cfg r k h
  obtain ⟨henroll, hexempt⟩ := not_public_path _ (public_paths _ _ hpub)
  rw [limited, if_pos hg, ha, hexempt]
  simp only [Bool.not_false, Bool.and_true, chooseRateLimit, if_neg henroll, hpub, ht]

theorem normalize_last (t : Text) (hn : normalizeValue t = t) (ht : t ≠ []) :
    isHttpSpace (t.getLast ht) = false := by
  have hr : t.rdropWhile isHttpSpace = t := by
    have hd : t.dropWhile isHttpSpace = t := by
      apply (List.dropWhile_suffix isHttpSpace).eq_of_length_le
      calc t.length = (normalizeValue t).length := by rw [hn]
        _ ≤ (t.dropWhile isHttpSpace).length := (List.rdropWhile_prefix isHttpSpace _).length_le
    rw [normalizeValue, hd] at hn
    exact hn
  simpa using List.rdropWhile_eq_self_iff.mp hr ht

theorem bearer_legal (t : Text) (ht : t ≠ []) (h : isHeaderValue t = true) :
    isHeaderValue (js "Bearer "++t) = true := by
  simp only [isHeaderValue, Bool.and_eq_true, decide_eq_true_eq] at h ⊢
  constructor
  · rw [List.all_append, h.1]
    decide
  · have hlast : isHttpSpace ((js "Bearer "++t).getLast (by simp [ht])) = false := by
      rw [List.getLast_append_of_ne_nil _ ht]
      exact normalize_last t h.2 ht
    have hd : (js "Bearer "++t).dropWhile isHttpSpace = js "Bearer "++t := rfl
    rw [normalizeValue, hd, List.rdropWhile_eq_self_iff]
    intro _
    simpa using hlast

theorem token_sendable (r : Request) (t : Text) (h : present (tokenOf r) = some t) :
    Sendable t := by
  obtain ⟨htok, hne⟩ := (present_some _ t).mp h
  apply And.intro hne
  rw [tokenOf, bearerToken] at htok
  cases hg : get r.headers (js "authorization") with
  | none =>
    rw [hg] at htok
    exact absurd ((present_some _ t).mp htok).1 (by simp [Ne.symm hne])
  | some v =>
    have hv := get_legal r.headers _ v hg
    rw [hg, Option.getD_some] at htok
    split_ifs at htok with hp
    · obtain ⟨rest, hrest⟩ := List.isPrefixOf_iff_prefix.mp hp
      simp only [Option.some.injEq] at htok
      subst hrest
      have hdrop : (js "Bearer "++rest).drop 7 = rest := rfl
      rw [hdrop] at htok
      exact htok ▸ hv
    · obtain ⟨hvt, -⟩ := (present_some _ t).mp htok
      simp only [Option.some.injEq] at hvt
      exact bearer_legal t hne (hvt ▸ hv)

theorem find_isSome {α : Type*} (key : α → Text) (xs : List α) (k : Text)
    (h : k ∈ xs.map key) : ∃ x, xs.find? (fun x => key x = k) = some x := by
  obtain ⟨x, hx, rfl⟩ := List.mem_map.mp h
  rw [← Option.isSome_iff_exists, List.find?_isSome]
  exact ⟨x, hx, by simp⟩

section Carrying
variable (cfg : GateConfig) (r : Request) (k : Text) (ht : tokenOf r = some k) (hk : k ≠ [])
  (hm : r.method = js "GET")

include ht hk hm

theorem keyOf_api (hp : r.pathname = js "/api/webhooks")
    (hc : k ∈ cfg.apiKeyEntries.map (·.key)) : keyOf cfg r = some k := by
  have hpr : present (tokenOf r) = some k := (present_some _ _).mpr ⟨ht, hk⟩
  have hne : cfg.apiKeyEntries ≠ [] := by
    intro he
    simp [he] at hc
  obtain ⟨f, hf⟩ := find_isSome (·.key) cfg.apiKeyEntries k hc
  have hg : isGated r = true := by
    rw [isGated, hp, hm]
    decide
  have hpub : isPublicRequest (js "/api/webhooks") (js "GET") = false := by decide +kernel
  have hroute : ¬js "/api/webhooks" = js "/api/revocations" := by decide +kernel
  simp [keyOf, hg, admission, authenticate, hpr, hp, hm, hpub, hroute, hne, hf]

theorem keyOf_issuer (hp : r.pathname = js "/api/revocations")
    (hc : k ∈ cfg.issuerKeyEntries.map (·.key)) : keyOf cfg r = some k := by
  have hpr : present (tokenOf r) = some k := (present_some _ _).mpr ⟨ht, hk⟩
  obtain ⟨f, hf⟩ := find_isSome (·.key) cfg.issuerKeyEntries k hc
  have hg : isGated r = true := by
    rw [isGated, hp, hm]
    decide
  simp [keyOf, hg, admission, authenticate, hpr, hp, hm, hf]

end Carrying

def carrying (k : Text) (hk : Sendable k) (pathname : Text) : Request where
  method := js "GET"
  pathname := pathname
  headers := [⟨js "authorization", js "Bearer "++k, hk.2⟩]

theorem token_carrying (k : Text) (hk : Sendable k) (pathname : Text) :
    tokenOf (carrying k hk pathname) = some k := by
  have hp : (js "Bearer ").isPrefixOf (js "Bearer "++k) = true :=
    List.isPrefixOf_iff_prefix.mpr ⟨k, rfl⟩
  have hd : (js "Bearer "++k).drop 7 = k := rfl
  have hg : RequestGate.get (carrying k hk pathname).headers (js "authorization") =
      some (js "Bearer "++k) := by
    simp [RequestGate.get, carrying]
  rw [tokenOf, hg, Option.getD_some, bearerToken, if_pos hp, hd]

theorem exists_keyed (cfg : GateConfig) (k : Text) (hk : Sendable k)
    (hc : k ∈ configuredKeys cfg) : ∃ r, keyOf cfg r = some k := by
  rcases List.mem_append.mp hc with hapi | hissuer
  · exact ⟨_, keyOf_api cfg (carrying k hk (js "/api/webhooks")) k (token_carrying k hk _) hk.1
      rfl rfl hapi⟩
  · exact ⟨_, keyOf_issuer cfg (carrying k hk (js "/api/revocations")) k (token_carrying k hk _)
      hk.1 rfl rfl hissuer⟩

def touchOf (cfg : GateConfig) (windowMs : ℚ) :
    Event → Touch Text (Option Bucket) RateLimitDecision
  | .request now r =>
    match limited cfg r with
    | none => .idle
    | some c => checkTouch c.bucketName c.key c.limit windowMs now
  | .gc now => gcTouch now

theorem serve_touch (cfg : GateConfig) (windowMs : ℚ) (l : Limiter) (e : Event) :
    (serve cfg windowMs l e).1.buckets = apply (touchOf cfg windowMs e) l.buckets ∧
      (serve cfg windowMs l e).2.all id =
        (answer (touchOf cfg windowMs e) l.buckets).all (·.allowed) := by
  cases e with
  | gc now => exact ⟨gc_buckets l now, rfl⟩
  | request now r =>
    rw [serve, touchOf]
    cases limited cfg r with
    | none => exact ⟨rfl, rfl⟩
    | some c =>
      constructor
      · exact check_buckets l c.bucketName c.key c.limit windowMs now
      · simp only [Option.all_some, id_eq]
        by_cases h : c.limit ≤ 0
        · rw [check_disabled l _ _ _ _ _ h, checkTouch, if_pos h]
          rfl
        · rw [check_decision l _ _ _ _ _ h]
          rfl

theorem decisions_eq (cfg : GateConfig) (windowMs : ℚ) (k : Text) (es : List Event)
    (l : Limiter) :
    decisions cfg windowMs k es l =
      (answers (touchOf cfg windowMs) (madeWith cfg k) es l.buckets).map
        (fun d => d.all (·.allowed)) := by
  induction es generalizing l with
  | nil => rfl
  | cons e es ih =>
    obtain ⟨hb, hd⟩ := serve_touch cfg windowMs l e
    rw [decisions, answers, ← hb]
    by_cases h : madeWith cfg k e = true
    · rw [if_pos h, if_pos h, List.map_cons, ih, hd]
    · rw [if_neg h, if_neg h, ih]

def bucketOf (k : Text) : Text := fullKey (js "api-key") (k.take 24)

theorem fullKey_api (name key key' : Text) (hn : name = js "enroll-ip" ∨ name = js "public-ip") :
    fullKey name key ≠ fullKey (js "api-key") key' := by
  rintro h
  rcases hn with rfl | rfl <;> exact absurd (List.cons.inj h).1 (by decide)

theorem bucketOf_inj (k k' : Text) (h : bucketOf k = bucketOf k') : k.take 24 = k'.take 24 :=
  List.append_cancel_left h

theorem choose_cases (cfg : GateConfig) (r : Request) (token : Option Text) (isPublic : Bool) :
    ((chooseRateLimit cfg r token isPublic).bucketName = js "enroll-ip" ∨
      (chooseRateLimit cfg r token isPublic).bucketName = js "public-ip") ∨
    ∃ t, present token = some t ∧ chooseRateLimit cfg r token isPublic =
      ⟨js "api-key", t.take 24, cfg.rateLimitApiKeyMin⟩ := by
  unfold chooseRateLimit
  by_cases he : r.pathname = js "/api/registry/enroll"
  · exact Or.inl (Or.inl (by simp [he]))
  · rw [if_neg he]
    cases hp : present token with
    | none => cases isPublic <;> exact Or.inl (Or.inr rfl)
    | some t =>
      cases isPublic with
      | true => exact Or.inl (Or.inr rfl)
      | false => exact Or.inr ⟨t, rfl, rfl⟩

theorem limited_cases (cfg : GateConfig) (r : Request) (c : RateLimitChoice)
    (h : limited cfg r = some c) : cfg.rateLimitEnabled = true ∧
      ((c.bucketName = js "enroll-ip" ∨ c.bucketName = js "public-ip") ∨
        ∃ t, present (tokenOf r) = some t ∧
          c = ⟨js "api-key", t.take 24, cfg.rateLimitApiKeyMin⟩) := by
  rw [limited] at h
  split at h
  · cases ha : admission cfg r with
    | error problem => simp [ha] at h
    | ok labels =>
      rw [ha] at h
      simp only [Option.ite_none_right_eq_some, Option.some.injEq, Bool.and_eq_true] at h
      obtain ⟨⟨henabled, -⟩, rfl⟩ := h
      exact ⟨henabled, choose_cases cfg r _ _⟩
  · cases h

theorem checkTouch_touches (name key key' : Text) (limit windowMs : ℚ) (now : Instant)
    (h : fullKey name key ≠ key') :
    touches key' (checkTouch name key limit windowMs now) = false := by
  rw [checkTouch]
  by_cases hl : limit ≤ 0
  · rw [if_pos hl]
    rfl
  · rw [if_neg hl]
    exact decide_eq_false h

section Separated
variable (cfg : GateConfig) (windowMs : ℚ) (k : Text)

theorem keyed_at (e : Event) (h : madeWith cfg k e = true) :
    ofOther cfg k e = false ∧ At (bucketOf k) (touchOf cfg windowMs e) := by
  cases e with
  | gc now => cases h
  | request now r =>
    have hk : keyOf cfg r = some k := by simpa [madeWith] using h
    obtain ⟨-, -, -, ht, -⟩ := keyOf_some cfg r k hk
    constructor
    · simp [ofOther, ht]
    · rw [touchOf, limited_keyed cfg r k hk]
      by_cases he : cfg.rateLimitEnabled = true
      · rw [if_pos he]
        show At (bucketOf k)
          (checkTouch (js "api-key") (k.take 24) cfg.rateLimitApiKeyMin windowMs now)
        rw [checkTouch]
        split
        · trivial
        · rfl
      · rw [if_neg he]
        trivial

theorem other_untouched (hs : Separate cfg) (hc : k ∈ configuredKeys cfg) (hk : Sendable k)
    (e : Event) (h : ofOther cfg k e = true) :
    touches (bucketOf k) (touchOf cfg windowMs e) = false := by
  cases e with
  | gc now => cases h
  | request now r =>
    rw [touchOf]
    cases hl : limited cfg r with
    | none => rfl
    | some c =>
      obtain ⟨henabled, hip | ⟨t, ht, rfl⟩⟩ := limited_cases cfg r c hl
      · exact checkTouch_touches _ _ _ _ _ _ (fullKey_api _ _ _ hip)
      · simp only [ofOther, ht, Option.any_some, Bool.and_eq_true, decide_eq_true_eq,
          List.contains_iff_mem] at h
        rcases hs with hoff | hlimit | hsep
        · rw [hoff] at henabled
          cases henabled
        · simp only [checkTouch, if_pos hlimit]
          rfl
        · apply checkTouch_touches
          intro hkey
          exact hsep t h.2 k hc (token_sendable r t ht) hk h.1 (bucketOf_inj t k hkey)

theorem decisions_filter (hs : Separate cfg) (es : List Event) :
    decisions cfg windowMs k es .empty =
      decisions cfg windowMs k (es.filter (fun e => !ofOther cfg k e)) .empty := by
  rw [decisions_eq, decisions_eq]
  congr 1
  by_cases hck : k ∈ configuredKeys cfg ∧ Sendable k
  · apply answers_filter _ _ (bucketOf k) _ es _ _ rfl
    · intro e _ he
      obtain ⟨ho, hat⟩ := keyed_at cfg windowMs k e he
      exact ⟨by simp [ho], hat⟩
    · intro e _ he
      exact other_untouched cfg windowMs k hs hck.1 hck.2 e (by simpa using he)
  · have hnone : ∀ es : List Event, ∀ e ∈ es, madeWith cfg k e = false := by
      intro es e _
      cases e with
      | gc now => rfl
      | request now r =>
        simp only [madeWith, decide_eq_false_iff_not]
        intro hkey
        obtain ⟨-, -, -, ht, hc⟩ := keyOf_some cfg r k hkey
        exact hck ⟨hc, token_sendable r k ht⟩
    rw [answers_unwatched _ _ _ _ (hnone _), answers_unwatched _ _ _ _ (hnone _)]

theorem perKey_of_separate (hs : Separate cfg) : PerKey cfg windowMs := by
  intro k es es' h
  rw [decisions_filter cfg windowMs k hs es, decisions_filter cfg windowMs k hs es', h]

end Separated

section Shared
variable (limit windowMs q : ℚ) (now : Instant) (hnow : (now : ℚ) < q)

include hnow

theorem current_live (c : ℕ) :
    current windowMs now (some ⟨c, .finite q⟩) = ⟨c, .finite q⟩ := by
  have he : (some (⟨c, .finite q⟩ : Bucket)).filter (fun b => !expired now b) =
      some ⟨c, .finite q⟩ := by
    rw [Option.filter_eq_some_iff]
    apply And.intro rfl
    simpa [expired] using hnow
  rw [current, he]

theorem spend (e : Event) (touch : Event → Touch Text (Option Bucket) RateLimitDecision)
    (key : Text) (he : touch e = .one key (take limit windowMs now)) (m c : ℕ)
    (s : Text → Option Bucket) (hs : s key = some ⟨c, .finite q⟩) :
    ∃ c', after touch (List.replicate m e) s key = some ⟨c', .finite q⟩ ∧
      (limit ≤ c' ∨ c+m ≤ c') := by
  induction m generalizing c s with
  | zero => exact ⟨c, hs, Or.inr (le_refl _)⟩
  | succ m ih =>
    have hstep : apply (touch e) s key = (take limit windowMs now (s key)).1 := by
      rw [he]
      exact Function.update_self _ _ _
    by_cases hl : limit ≤ (c : ℚ)
    · have hnext : apply (touch e) s key = some ⟨c, .finite q⟩ := by
        rw [hstep, hs, take, current_live windowMs q now hnow, if_pos hl]
      obtain ⟨c', hc', hor⟩ := ih c _ hnext
      refine ⟨c', hc', Or.inl ?_⟩
      rcases hor with h | h
      · exact h
      · exact le_trans hl (Nat.cast_le.mpr (le_trans (Nat.le_add_right c m) h))
    · have hnext : apply (touch e) s key = some ⟨c+1, .finite q⟩ := by
        rw [hstep, hs, take, current_live windowMs q now hnow, if_neg hl]
      obtain ⟨c', hc', hor⟩ := ih (c+1) _ hnext
      refine ⟨c', hc', hor.imp_right ?_⟩
      omega

end Shared

def lastReading (windowMs : ℚ) : Instant := ⌈windowMs⌉-1

theorem lastReading_lt (windowMs : ℚ) : (lastReading windowMs : ℚ) < windowMs := by
  have := Int.ceil_lt_add_one windowMs
  rw [lastReading]
  push_cast
  linarith

def spent (cfg : GateConfig) (windowMs : ℚ) (r : Request) : List Event :=
  .request 0 r::List.replicate ⌈cfg.rateLimitApiKeyMin⌉₊ (.request (lastReading windowMs) r)

section Colliding
variable (cfg : GateConfig) (windowMs : ℚ) (k k' : Text) (hlimit : 0 < cfg.rateLimitApiKeyMin)
  (henabled : cfg.rateLimitEnabled = true)

include hlimit henabled

theorem keyed_touch (r : Request) (hr : keyOf cfg r = some k) (now : Instant) :
    touchOf cfg windowMs (.request now r) =
      .one (bucketOf k) (take cfg.rateLimitApiKeyMin windowMs now) := by
  rw [touchOf, limited_keyed cfg r k hr, if_pos henabled]
  exact if_neg (not_le.mpr hlimit)

omit hlimit henabled in
theorem spent_other (r' : Request) (hr' : keyOf cfg r' = some k') (hne : k ≠ k') (e : Event)
    (he : e ∈ spent cfg windowMs r') : ofOther cfg k e = true ∧ madeWith cfg k e = false := by
  obtain ⟨-, -, -, ht, hc⟩ := keyOf_some cfg r' k' hr'
  obtain ⟨now, rfl⟩ : ∃ now, e = .request now r' := by
    rcases List.mem_cons.mp he with rfl | he
    · exact ⟨0, rfl⟩
    · exact ⟨lastReading windowMs, List.eq_of_mem_replicate he⟩
  constructor
  · simp [ofOther, ht, hc, hne.symm]
  · simp [madeWith, hr', hne.symm]

theorem after_spent (hw : toDouble windowMs = .finite windowMs) (r' : Request)
    (hr' : keyOf cfg r' = some k') :
    ∃ c, after (touchOf cfg windowMs) (spent cfg windowMs r') Limiter.empty.buckets (bucketOf k') =
      some ⟨c, .finite windowMs⟩ ∧ cfg.rateLimitApiKeyMin ≤ c := by
  have hfirst : apply (touchOf cfg windowMs (.request 0 r')) Limiter.empty.buckets (bucketOf k') =
      some ⟨1, .finite windowMs⟩ := by
    have hcur : current windowMs 0 none = ⟨0, .finite windowMs⟩ := by
      simp [current, hw]
    have hpos : ¬cfg.rateLimitApiKeyMin ≤ ((0 : ℕ) : ℚ) := by simpa using hlimit
    rw [keyed_touch cfg windowMs k' hlimit henabled r' hr' 0, apply, Function.update_self]
    show (take cfg.rateLimitApiKeyMin windowMs 0 none).1 = _
    rw [take, hcur, if_neg hpos]
  obtain ⟨c, hc, hfull⟩ := spend cfg.rateLimitApiKeyMin windowMs windowMs (lastReading windowMs)
    (lastReading_lt windowMs) (.request (lastReading windowMs) r') (touchOf cfg windowMs)
    (bucketOf k') (keyed_touch cfg windowMs k' hlimit henabled r' hr' _)
    ⌈cfg.rateLimitApiKeyMin⌉₊ 1 _ hfirst
  refine ⟨c, hc, ?_⟩
  rcases hfull with h | h
  · exact h
  · exact le_trans (Nat.le_ceil _) (Nat.cast_le.mpr (by omega))

theorem starved (hw : toDouble windowMs = .finite windowMs) (r r' : Request)
    (hr : keyOf cfg r = some k) (hr' : keyOf cfg r' = some k') (hne : k ≠ k')
    (hb : bucketOf k' = bucketOf k) : ¬PerKey cfg windowMs := by
  intro h
  let own : Event := .request (lastReading windowMs) r
  have hmade : madeWith cfg k own = true := by simp [own, madeWith, hr]
  have hfilter : (spent cfg windowMs r'++[own]).filter (fun e => !ofOther cfg k e) =
      [own].filter (fun e => !ofOther cfg k e) := by
    rw [List.filter_append, List.filter_eq_nil_iff.mpr, List.nil_append]
    intro e he
    simp [(spent_other cfg windowMs k k' r' hr' hne e he).1]
  have hsame := h k _ _ hfilter
  rw [decisions_eq, decisions_eq, answers_append, answers_unwatched _ _ (spent cfg windowMs r') _
    (fun e he => (spent_other cfg windowMs k k' r' hr' hne e he).2), List.nil_append] at hsame
  obtain ⟨c, hc, hcap⟩ := after_spent cfg windowMs k' hlimit henabled hw r' hr'
  rw [hb] at hc
  have htouch : touchOf cfg windowMs own = _ :=
    keyed_touch cfg windowMs k hlimit henabled r hr (lastReading windowMs)
  simp only [answers, hmade, if_true, htouch, answer, hc, List.map_cons, List.map_nil,
    Option.all_some, List.cons.injEq, and_true] at hsame
  have hdenied : (take cfg.rateLimitApiKeyMin windowMs (lastReading windowMs)
      (some ⟨c, .finite windowMs⟩)).2.allowed = false := by
    rw [take, current_live windowMs windowMs _ (lastReading_lt windowMs), if_pos hcap]
  have hallowed : (take cfg.rateLimitApiKeyMin windowMs (lastReading windowMs)
      (Limiter.empty.buckets (bucketOf k))).2.allowed = true := by
    rw [take_allowed]
    simpa [current, Limiter.empty] using hlimit
  rw [hdenied, hallowed] at hsame
  cases hsame

end Colliding

theorem budgets_per_key_iff (cfg : GateConfig) (windowMs : ℚ)
    (hw : toDouble windowMs = .finite windowMs) : PerKey cfg windowMs ↔ Separate cfg := by
  constructor
  · intro h
    by_contra hs
    simp only [Separate, not_or, not_forall] at hs
    obtain ⟨henabled, hlimit, k, hk, k', hk', hsend, hsend', hne, hb⟩ := hs
    obtain ⟨r, hr⟩ := exists_keyed cfg k hsend hk
    obtain ⟨r', hr'⟩ := exists_keyed cfg k' hsend' hk'
    apply starved cfg windowMs k k' (not_le.mp hlimit) (by simpa using henabled) hw r r' hr hr' hne
      ?_ h
    rw [bucketOf, bucketOf, not_not.mp hb]
  · exact perKey_of_separate cfg windowMs

section Scenario

def keyA : Text := js "cp-prod-console-2026-05-a"

def keyB : Text := js "cp-prod-console-2026-05-b"

def twoKeys : GateConfig where
  apiKeyEntries := [⟨js "console-a", keyA, by decide⟩, ⟨js "console-b", keyB, by decide⟩]
  issuerKeyEntries := []
  isProduction := true
  clientIpHeader := []
  trustedProxyHops := 0
  rateLimitEnabled := true
  rateLimitEnrollPerIpMin := 5
  rateLimitPublicPerIpMin := 60
  rateLimitApiKeyMin := 1

theorem minute : toDouble 60000 = .finite 60000 := by
  have h := JsNumberText.isDouble_nat 60000 (by norm_num)
  simpa [JsNumberText.IsDouble] using h

theorem budgets_per_key_iff_minute : PerKey twoKeys 60000 ↔ Separate twoKeys :=
  budgets_per_key_iff twoKeys 60000 minute

theorem sendable_keys : Sendable keyA ∧ Sendable keyB := by
  constructor <;> constructor <;> decide +kernel

def requestA : Request := carrying keyA sendable_keys.1 (js "/api/webhooks")

def requestB : Request := carrying keyB sendable_keys.2 (js "/api/webhooks")

/-- Requests with the second key use up the budget of the first. -/
theorem shared_prefix_shares_budget :
    keyOf twoKeys requestA = some keyA ∧ keyOf twoKeys requestB = some keyB ∧ keyA ≠ keyB ∧
      ¬ PerKey twoKeys 60000 := by
  have ha : keyOf twoKeys requestA = some keyA := by decide +kernel
  have hb : keyOf twoKeys requestB = some keyB := by decide +kernel
  have hne : keyA ≠ keyB := by decide
  have hbucket : bucketOf keyB = bucketOf keyA := by decide
  exact ⟨ha, hb, hne, starved twoKeys 60000 keyA keyB (by decide) rfl minute requestA requestB
    ha hb hne hbucket⟩

end Scenario

end ControlPlane.KeyBudgets
