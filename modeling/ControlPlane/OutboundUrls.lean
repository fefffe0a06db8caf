import ControlPlane.MediatedFetch
import ControlPlane.TrustAnchorCache
import ControlPlane.UrlGuard

/-!
# The URLs that are requested

A delivery checks the URL of its webhook and then requests it, following the
redirects of the receiver. A refresh of a keyset checks every URL that it
requests and follows no redirect.
-/

set_option autoImplicit false

namespace ControlPlane.OutboundUrls
open ControlPlane.JsText ControlPlane.JsValue ControlPlane.HttpValidate ControlPlane.UrlGuard
open ControlPlane.MediatedFetch ControlPlane.TrustAnchorCache

/-- There is no text when reading the body fails. -/
structure Response where
  status : ℕ
  text : Option Text
  deriving DecidableEq, Repr

def Response.ok (r : Response) : Bool := 200 ≤ r.status && r.status ≤ 299

/-- How names resolve, and how the receivers answer each hop of a request. -/
structure Network where
  resolver : Resolver
  serve : ℕ → Url → Reply Url Response

inductive PostOutcome where
  | blocked (error : Text)
  | threw
  | answered (status : ℕ) (error : Option Text)
  deriving DecidableEq, Repr

def answeredWith (r : Response) : PostOutcome :=
  if r.ok then .answered r.status none
  else .answered r.status (some (js "non-2xx ("++number r.status++js "): "++
    (r.text.getD []).take 200))

def attemptDelivery (cfg : Config) (N : Network) (url : Text) : List (Event Url) × PostOutcome :=
  match assertSafeWebhookUrl N.resolver cfg url, N.resolver.parseUrl url with
  | some message, _ => ([], .blocked (js "unsafe target: "++message))
  | none, none => ([], .threw)
  | none, some u =>
    let request := fetch .follow N.serve u
    (.accepted u::request.1.map .contacted, match request.2 with
      | none => .threw
      | some r => answeredWith r)

inductive FetchError where
  | refused (message : Text)
  | threw
  | error (message : Text)
  deriving DecidableEq, Repr

abbrev Fetched (α : Type) := Traced Url FetchError α

def maxBodyBytes : ℕ := 1048576

def readBody (parse : Text → Option Json) (r : Response) : Except FetchError Json :=
  if !r.ok then .error (.error (js "fetch returned "++number r.status))
  else
    match r.text with
    | none => .error .threw
    | some text =>
      if maxBodyBytes < text.length then .error (.error (js "response too large"))
      else
        match parse text with
        | none => .error .threw
        | some v => .ok v

section Refresh
variable (cfg : Config) (parse : Text → Option Json)

def fetchJson (N : Network) (rawUrl : Text) : Fetched Json :=
  match assertSafeJwksUrl N.resolver cfg rawUrl with
  | .error message => ⟨[], .error (.refused message)⟩
  | .ok u =>
    let request := fetch .error N.serve u
    ⟨.accepted u::request.1.map .contacted, match request.2 with
      | none => .error .threw
      | some r => readBody parse r⟩

def stripSlash (t : Text) : Text := if t.getLast? = some 0x2F then t.dropLast else t

def discoverJwksUri (N : Network) (issuerUrl : Text) : Fetched Text :=
  (fetchJson cfg parse N (stripSlash issuerUrl++js "/.well-known/openid-configuration")).bind
    (fun metadata => match nonEmptyString (metadata.get (js "jwks_uri")) with
      | some uri => ⟨[], .ok uri⟩
      | none => ⟨[], .error (.error (js "jwks_uri missing from OIDC discovery document"))⟩)

/-- The network may change between the two requests. -/
def fetchJwks (N M : Network) (issuerUrl : Text) (jwksUrl : Option Text) : Fetched Json :=
  (jwksUrl.elim (discoverJwksUri cfg parse N issuerUrl) (fun uri => ⟨[], .ok uri⟩)).bind
    (fun uri => (fetchJson cfg parse M uri).bind
      (fun jwks => if isKeyset jwks then ⟨[], .ok jwks⟩
        else ⟨[], .error (.error (js "JWKS response missing \"keys\" array"))⟩))

/-- One anchor of a pass, and the network at its two requests. -/
structure Visit where
  anchor : Anchor
  discovery : Network
  keyset : Network

def refreshStaleJwks (visits : List Visit) : List (Event Url) :=
  visits.flatMap (fun v =>
    (fetchJwks cfg parse v.discovery v.keyset v.anchor.issuerUrl v.anchor.jwksUrl).log)

end Refresh

/-- What is contacted has been accepted before, and what has been accepted passes
the guard. -/
def Vetted (passes : Url → Prop) (log : List (Event Url)) : Prop :=
  Mediated log ∧ ∀ u, .accepted u ∈ log → passes u

def PassesWebhook (cfg : Config) (N : Network) (u : Url) : Prop :=
  ∃ rawUrl, N.resolver.parseUrl rawUrl = some u ∧ assertSafeWebhookUrl N.resolver cfg rawUrl = none

def PassesJwks (cfg : Config) (N : Network) (u : Url) : Prop :=
  ∃ rawUrl, assertSafeJwksUrl N.resolver cfg rawUrl = .ok u

theorem vetted_append (passes : Url → Prop) (xs ys : List (Event Url)) (hx : Vetted passes xs)
    (hy : Vetted passes ys) : Vetted passes (xs++ys) := by
  constructor
  · exact mediated_append xs ys hx.1 hy.1
  · intro u hu
    rcases List.mem_append.mp hu with hu | hu
    · exact hx.2 u hu
    · exact hy.2 u hu

theorem vetted_nil (passes : Url → Prop) : Vetted passes [] := by
  constructor
  · intro before u after h
    simp at h
  · simp

theorem vetted_bind {α β : Type} (passes : Url → Prop) (t : Fetched α) (f : α → Fetched β)
    (ht : Vetted passes t.log) (hf : ∀ a, Vetted passes (f a).log) :
    Vetted passes (t.bind f).log := by
  unfold Traced.bind
  cases t.result with
  | error e => exact ht
  | ok a => exact vetted_append passes _ _ ht (hf a)

theorem vetted_guarded (passes : Url → Prop) (u : Url) (us : List Url) (hu : passes u) :
    Vetted passes (.accepted u::us.map .contacted) ↔ ∀ v ∈ us, v = u := by
  rw [Vetted, mediated_guarded, and_iff_left_iff_imp]
  intro _ v hv
  simp only [List.mem_cons, Event.accepted.injEq, List.mem_map, reduceCtorEq, and_false,
    exists_false, or_false] at hv
  exact hv ▸ hu

theorem attemptDelivery_vetted (cfg : Config) (N : Network) (url : Text) :
    Vetted (PassesWebhook cfg N) (attemptDelivery cfg N url).1 ↔
      ∀ u, N.resolver.parseUrl url = some u → assertSafeWebhookUrl N.resolver cfg url = none →
        Stays N.serve maxRedirects 0 u := by
  unfold attemptDelivery
  cases hsafe : assertSafeWebhookUrl N.resolver cfg url with
  | some message => simp [vetted_nil]
  | none =>
    cases hparse : N.resolver.parseUrl url with
    | none => simp [vetted_nil]
    | some u =>
      have hpasses : PassesWebhook cfg N u := ⟨url, hparse, hsafe⟩
      have hstay := hops_stay N.serve maxRedirects 0 u
      simp only [Option.some.injEq, forall_const, forall_eq', ← hstay]
      exact vetted_guarded _ u _ hpasses

section Refresh
variable (cfg : Config) (parse : Text → Option Json)

theorem fetchJson_vetted (passes : Url → Prop) (N : Network) (rawUrl : Text)
    (h : ∀ u, PassesJwks cfg N u → passes u) :
    Vetted passes (fetchJson cfg parse N rawUrl).log := by
  unfold fetchJson
  cases hsafe : assertSafeJwksUrl N.resolver cfg rawUrl with
  | error message => exact vetted_nil passes
  | ok u =>
    simp only [vetted_guarded passes u _ (h u ⟨rawUrl, hsafe⟩), fetch,
      hops_single .error N.serve maxRedirects 0 u (by decide), List.mem_singleton, imp_self,
      implies_true]

theorem fetchJwks_vetted (passes : Url → Prop) (N M : Network) (issuerUrl : Text)
    (jwksUrl : Option Text) (hN : ∀ u, PassesJwks cfg N u → passes u)
    (hM : ∀ u, PassesJwks cfg M u → passes u) :
    Vetted passes (fetchJwks cfg parse N M issuerUrl jwksUrl).log := by
  unfold fetchJwks
  apply vetted_bind
  · cases jwksUrl with
    | some uri => exact vetted_nil passes
    | none =>
      apply vetted_bind
      · exact fetchJson_vetted cfg parse passes N _ hN
      · intro metadata
        cases nonEmptyString (metadata.get (js "jwks_uri")) <;> exact vetted_nil passes
  · intro uri
    apply vetted_bind
    · exact fetchJson_vetted cfg parse passes M _ hM
    · intro jwks
      split_ifs <;> exact vetted_nil passes

def PassesVisit (visits : List Visit) (u : Url) : Prop :=
  ∃ v ∈ visits, PassesJwks cfg v.discovery u ∨ PassesJwks cfg v.keyset u

theorem refresh_vetted (passes : Url → Prop) (visits : List Visit)
    (h : ∀ u, PassesVisit cfg visits u → passes u) :
    Vetted passes (refreshStaleJwks cfg parse visits) := by
  induction visits with
  | nil => exact vetted_nil passes
  | cons v visits ih =>
    apply vetted_append
    · apply fetchJwks_vetted
      · exact fun u hu => h u ⟨v, List.mem_cons_self, Or.inl hu⟩
      · exact fun u hu => h u ⟨v, List.mem_cons_self, Or.inr hu⟩
    · apply ih
      rintro u ⟨w, hw, hu⟩
      exact h u ⟨w, List.mem_cons_of_mem v hw, hu⟩

end Refresh

/-- A delivery contacts only what it has checked if and only if its receiver
redirects it nowhere else; a refresh always does. -/
theorem outbound_vetted_iff (cfg : Config) :
    (∀ N url, Vetted (PassesWebhook cfg N) (attemptDelivery cfg N url).1 ↔
      ∀ u, N.resolver.parseUrl url = some u → assertSafeWebhookUrl N.resolver cfg url = none →
        Stays N.serve maxRedirects 0 u) ∧
    ∀ parse visits, Vetted (PassesVisit cfg visits) (refreshStaleJwks cfg parse visits) := by
  constructor
  · exact attemptDelivery_vetted cfg
  · intro parse visits
    exact refresh_vetted cfg parse _ visits (fun _ hu => hu)

def hook : Url := ⟨js "https://hooks.example/", js "https:", js "hooks.example"⟩

def metadata : Url := ⟨js "http://169.254.169.254/", js "http:", js "169.254.169.254"⟩

def bouncing : Network where
  resolver := ⟨fun t => [hook, metadata].find? (fun u => u.href = t),
    fun _ => some [js "93.184.216.34"]⟩
  serve := fun _ u => if u = hook then .redirect (some metadata) ⟨307, some []⟩
    else .response ⟨200, some []⟩

theorem redirect_unvetted :
    (attemptDelivery ⟨true, []⟩ bouncing hook.href).1 =
      [.accepted hook, .contacted hook, .contacted metadata] ∧
    assertSafeWebhookUrl bouncing.resolver ⟨true, []⟩ metadata.href ≠ none ∧
    ¬ Vetted (PassesWebhook ⟨true, []⟩ bouncing)
      (attemptDelivery ⟨true, []⟩ bouncing hook.href).1 := by
  have hlog : (attemptDelivery ⟨true, []⟩ bouncing hook.href).1 =
      [.accepted hook, .contacted hook, .contacted metadata] := by decide +kernel
  have hunsafe : assertSafeWebhookUrl bouncing.resolver ⟨true, []⟩ metadata.href ≠ none := by
    decide +kernel
  constructor
  · exact hlog
  · constructor
    · exact hunsafe
    · rw [hlog]
      intro h
      have hmem := h.1 [.accepted hook, .contacted hook] metadata [] rfl
      exact absurd hmem (by decide)

end ControlPlane.OutboundUrls
