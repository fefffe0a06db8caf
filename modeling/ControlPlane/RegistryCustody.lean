import ControlPlane.RegistrationAtomicity

/-!
# From the verified manifest to the row

Registration does not verify the manifest again. The token carries the
verdict: it is signed, it names the agent, and it binds the digest of the body
that was verified.
-/

set_option autoImplicit false

namespace ControlPlane.RegistryCustody
open ControlPlane.JsText ControlPlane.JsValue ControlPlane.HttpValidate ControlPlane.AdminRoutes
open ControlPlane.EnrollmentToken ControlPlane.AgentRoute ControlPlane.RegistrationMachine
open ControlPlane.RunMachine ControlPlane.ThreadPool
open ControlPlane.RegistrationAtomicity (Move registerStep_move)

def manifestAid (P : Platform) (body : Text) : Option Text :=
  stringField (manifestOf P body) (js "aid")

/-- The runtime reads back what it has encoded in a token it signs. -/
def Reads (R : Registry) : Event → State → Prop
  | .env (.enroll body jti), s => ∀ payload secret,
      enroll R s.world.now body.text jti = .ok (.ok payload) → R.service.secret = some secret →
        Readable R.service.platform secret payload
  | _, _ => True

def halves (token : Text) : Option (Text × Text) :=
  match token.splitOn dot with
  | [data, sig] => some (data, sig)
  | _ => none

def Signed (P : Platform) (secret : Text) (w : World) (token : Text) : Prop :=
  ∀ parts ∈ halves token, parts.2 = P.hmac secret parts.1 →
    ∃ q ∈ w.issued, parts.1 = P.encode (P.stringify q.2.json)

instance decidableSigned (P : Platform) (secret : Text) (w : World) (token : Text) :
    Decidable (Signed P secret w token) :=
  inferInstanceAs (Decidable (∀ parts ∈ halves token, parts.2 = P.hmac secret parts.1 →
    ∃ q ∈ w.issued, parts.1 = P.encode (P.stringify q.2.json)))

/-- Nobody forges a tag. -/
def Unforged (R : Registry) : Event → State → Prop
  | .act i _, s => At s i (fun t => ∀ secret ∈ R.service.secret,
      Signed R.service.platform secret s.world (bearerToken t.request.headers))
  | _, _ => True

instance decidableUnforged (R : Registry) : ∀ l s, Decidable (Unforged R l s)
  | .act i _, s => inferInstanceAs (Decidable (At s i (fun t => ∀ secret ∈ R.service.secret,
      Signed R.service.platform secret s.world (bearerToken t.request.headers))))
  | .env _, _ => isTrue trivial

/-- An accepted enrollment of a body. -/
structure Minted (R : Registry) (q : BodyText × EnrollmentPayload) : Prop where
  verified : R.verifyManifestJson q.1.text = none
  call : ∃ now jti, verifyAndIssueToken R now q.1.text jti = .ok q.2
  sub : manifestAid R.service.platform q.1.text = some q.2.sub
  msh : q.2.msh = R.service.platform.sha256Hex q.1.text

def Backed (w : World) (input : RegisterInput) : Prop :=
  ∃ q ∈ w.issued, q.1.text = input.manifestJson ∧ q.2.sub = input.aid

def inputOf : Phase → Option RegisterInput
  | .checked c => some c.input
  | .consumed c => some c.input
  | .upserted w => some w.input
  | _ => none

def Kept (w : World) (a : Agent) : Prop :=
  ∃ q ∈ w.issued, q.1.text = a.manifestJson ∧ q.2.sub = a.aid

structure Chain (R : Registry) (s : State) : Prop where
  minted : ∀ q ∈ s.world.issued, Minted R q
  readable : ∀ q ∈ s.world.issued, ∀ secret, R.service.secret = some secret →
    Readable R.service.platform secret q.2
  backed : ∀ (i : ℕ) (t : Thread) (input : RegisterInput), s.threads[i]? = some t →
    inputOf t.phase = some input → Backed s.world input
  rows : ∀ a ∈ s.world.tables.agents, Kept s.world a

theorem token_sub (R : Registry) (now : Instant) (body jti : Text)
    (payload : EnrollmentPayload) (h : verifyAndIssueToken R now body jti = .ok payload) :
    R.verifyManifestJson body = none ∧ manifestAid R.service.platform body = some payload.sub ∧
      payload = mint R.service.platform now payload.sub body jti := by
  obtain ⟨hv, aid, haid, -, -, -, rfl⟩ := verifyAndIssueToken_ok R now body jti payload h
  exact ⟨hv, by simp [manifestAid, stringField, haid, Json.string?, mint], rfl⟩

theorem enroll_ok (R : Registry) (now : Instant) (body jti : Text) (payload : EnrollmentPayload)
    (h : enroll R now body jti = .ok (.ok payload)) :
    verifyAndIssueToken R now body jti = .ok payload := by
  simp only [enroll] at h
  split at h
  · cases h
  · cases h
  · split_ifs at h
    exact Except.ok.inj h

theorem enroll_minted (R : Registry) (now : Instant) (body : BodyText) (jti : Text)
    (payload : EnrollmentPayload)
    (h : enroll R now body.text jti = .ok (.ok payload)) : Minted R (body, payload) := by
  have hcall := enroll_ok R now body.text jti payload h
  obtain ⟨hv, hsub, hmint⟩ := token_sub R now body.text jti payload hcall
  exact ⟨hv, ⟨now, jti, hcall⟩, hsub, congrArg EnrollmentPayload.msh hmint⟩

theorem verify_issued (R : Registry) (s : State) (secret token : Text) (payload : Json)
    (hi : Chain R s) (hsecret : R.service.secret = some secret)
    (hsigned : Signed R.service.platform secret s.world token)
    (h : verify R.service.platform secret token = .ok payload) :
    ∃ q ∈ s.world.issued, payload = q.2.json := by
  simp only [verify] at h
  split at h
  · next data sig hsplit =>
    split_ifs at h with _ htag
    obtain ⟨q, hq, hdata⟩ := hsigned (data, sig) (by simp [halves, hsplit]) htag
    have hread := hi.readable q hq secret hsecret
    simp only at hdata
    rw [hdata, hread.decode, hread.parse] at h
    exact ⟨q, hq, (Except.ok.inj h).symm⟩
  · cases h

theorem validateToken_issued (R : Registry) (s : State) (now : Instant)
    (secret token aid body : Text) (payload : Json) (hi : Chain R s)
    (hsecret : R.service.secret = some secret)
    (hsigned : Signed R.service.platform secret s.world token)
    (h : validateToken R.service.platform secret now token aid body = .ok payload) :
    ∃ q ∈ s.world.issued, q.2.sub = aid ∧ q.2.msh = R.service.platform.sha256Hex body := by
  simp only [validateToken] at h
  split at h
  · cases h
  · cases h
  · next payload' hv =>
    obtain ⟨q, hq, hp⟩ := verify_issued R s secret token _ hi hsecret hsigned hv
    obtain rfl := check_payload _ _ _ _ _ _ h
    subst hp
    obtain ⟨_, hsub, _, _, hmsh⟩ := (check_json _ _ _ _ _).mp h
    exact ⟨q, hq, hsub, hmsh⟩

def Injective (P : Platform) : Prop :=
  ∀ a b, isWellFormed a = true → isWellFormed b = true → P.sha256Hex a = P.sha256Hex b → a = b

theorem checkRequest_backed (R : Registry) (s : State) (now : Instant) (q : RegisterRequest)
    (c : Consumption) (hsha : Injective R.service.platform) (hi : Chain R s)
    (hsigned : ∀ secret ∈ R.service.secret,
      Signed R.service.platform secret s.world (bearerToken q.headers))
    (h : checkRequest R now q = .passed c) : Backed s.world c.input := by
  obtain ⟨-, m, payload, -, htoken, -, hc⟩ := (checkRequest_passed R now q c).mp h
  simp only [consumption, Option.map_eq_some_iff] at hc
  obtain ⟨expires, -, rfl⟩ := hc
  simp only [checkToken] at htoken
  split at htoken
  · cases htoken
  next secret hsecret =>
  split at htoken
  · cases htoken
  next payload' hv =>
  split_ifs at htoken with haid
  obtain ⟨aid, haid⟩ := Option.isSome_iff_exists.mp haid
  obtain ⟨p, hp, hsub, hmsh⟩ := validateToken_issued R s now secret _ _ _ _ hi hsecret
    (hsigned secret hsecret) hv
  have hbody : p.1.text = q.body.text :=
    hsha _ _ p.1.wellFormed q.body.wellFormed ((hi.minted p hp).msh.symm.trans hmsh)
  refine ⟨p, hp, hbody, ?_⟩
  rw [hsub, haid]
  rfl

theorem backed_mono (w w' : World) (h : ∀ q ∈ w.issued, q ∈ w'.issued) (input : RegisterInput)
    (hb : Backed w input) : Backed w' input := by
  obtain ⟨q, hq, hrest⟩ := hb
  exact ⟨q, h q hq, hrest⟩

theorem kept_mono (w w' : World) (h : ∀ q ∈ w.issued, q ∈ w'.issued) (a : Agent)
    (hk : Kept w a) : Kept w' a := by
  obtain ⟨q, hq, hrest⟩ := hk
  exact ⟨q, h q hq, hrest⟩

/-- The SDK accepts no identifier with a lone surrogate. -/
def AidsWellFormed (R : Registry) : Prop :=
  ∀ body aid, R.verifyManifestJson body = none →
    manifestAid R.service.platform body = some aid → isWellFormed aid = true

theorem upsert_kept (R : Registry) (s : State) (w : Write) (hsdk : AidsWellFormed R)
    (hi : Chain R s) (hb : Backed s.world w.input) :
    ∀ a ∈ upsertAgent w s.world.tables.agents, Kept s.world a := by
  obtain ⟨q, hq, hbody, hsub⟩ := hb
  have hm := hi.minted q hq
  have haid : aidKey w.input = q.2.sub := by
    rw [aidKey, ← hsub]
    exact toWellFormed_of_isWellFormed _ (hsdk _ _ hm.verified hm.sub)
  have hjson : toWellFormed w.input.manifestJson = q.1.text := by
    rw [← hbody]
    exact toWellFormed_of_isWellFormed _ q.1.wellFormed
  intro a ha
  simp only [upsertAgent] at ha
  split_ifs at ha
  · obtain ⟨b, hb, rfl⟩ := List.mem_map.mp ha
    split_ifs with hkey
    · exact ⟨q, hq, hjson.symm, by simp [reenroll, hkey, haid]⟩
    · exact hi.rows b hb
  · rcases List.mem_append.mp ha with ha | ha
    · exact hi.rows a ha
    · obtain rfl := List.mem_singleton.mp ha
      exact ⟨q, hq, hjson.symm, haid.symm⟩

theorem chain_env (R : Registry) (e : Env) (s t : State) (hread : Reads R (.env e) s)
    (hi : Chain R s) (hs : next R (.env e) s = some t) : Chain R t := by
  obtain ⟨w, o, he, rfl⟩ := (step_env_some _ _ _ _).mp hs
  obtain ⟨htables, -, -, -, hnew, hissued⟩ := env_move R e s.world w o he
  have hsplit : ∀ q ∈ w.issued, q ∈ s.world.issued ∨ (Minted R q ∧
      ∀ secret, R.service.secret = some secret → Readable R.service.platform secret q.2) := by
    intro q hq
    rcases hissued with h | ⟨body, jti, payload, rfl, hp, h⟩
    · exact Or.inl (h ▸ hq)
    · rw [h] at hq
      rcases List.mem_cons.mp hq with rfl | hq
      · exact Or.inr ⟨enroll_minted R _ _ _ _ hp, fun secret => hread payload secret hp⟩
      · exact Or.inl hq
  have hgrow : ∀ q ∈ s.world.issued, q ∈ w.issued := by
    intro q hq
    rcases hissued with h | ⟨_, _, _, _, _, h⟩
    · exact h.symm ▸ hq
    · exact h.symm ▸ List.mem_cons_of_mem _ hq
  constructor
  · intro q hq
    rcases hsplit q hq with h | h
    · exact hi.minted q h
    · exact h.1
  · intro q hq
    rcases hsplit q hq with h | h
    · exact hi.readable q h
    · exact h.2
  · intro i u input hu hinput
    rcases append_get _ _ _ _ hu with h | ⟨_, h⟩
    · exact backed_mono _ _ hgrow _ (hi.backed i u input h hinput)
    · simp [hnew u h, inputOf] at hinput
  · intro a ha
    simp only [htables] at ha
    exact kept_mono _ _ hgrow a (hi.rows a ha)

theorem chain_act (R : Registry) (i : ℕ) (io : Io) (s t : State)
    (hsha : Injective R.service.platform) (hsdk : AidsWellFormed R)
    (hunforged : Unforged R (.act i io) s) (hi : Chain R s)
    (hs : next R (.act i io) s = some t) : Chain R t := by
  obtain ⟨q, p, w', p', hu, hstep, rfl⟩ := act_next R i io s t hs
  have hm := registerStep_move R io q s.world w' p p' hstep
  have hsame : w'.issued = s.world.issued := by cases hm <;> rfl
  have hinput : ∀ input, inputOf p' = some input → Backed s.world input := by
    intro input h
    cases hm with
    | stop _ _ _ hp' _ _ _ _ hchecked _ =>
      cases p' with
      | checked c =>
        obtain rfl := Option.some.inj h
        exact checkRequest_backed R s s.world.now q c hsha hi (hunforged _ hu) (hchecked c rfl)
      | consumed c => cases hp'
      | upserted c => cases hp'
      | _ => cases h
    | consume c _ _ _ => exact hi.backed i _ input hu h
    | upsert c => exact hi.backed i _ input hu h
    | rollback c => cases h
    | release c => cases h
    | commit c => cases h
    | answer c created => cases h
  have hrows : ∀ a ∈ w'.tables.agents, Kept s.world a := by
    cases hm with
    | commit c => exact upsert_kept R s c hsdk hi (hi.backed i _ c.input hu rfl)
    | stop => exact hi.rows
    | consume => exact hi.rows
    | upsert => exact hi.rows
    | rollback => exact hi.rows
    | release => exact hi.rows
    | answer => exact hi.rows
  have hgrow : ∀ q ∈ s.world.issued, q ∈ w'.issued := fun q hq => hsame.symm ▸ hq
  constructor
  · intro q hq
    exact hi.minted q (hsame ▸ hq)
  · intro q hq
    exact hi.readable q (hsame ▸ hq)
  · intro j u input hj h
    rcases set_get _ _ _ _ _ hj with ⟨_, rfl⟩ | ⟨_, hj⟩
    · exact backed_mono _ _ hgrow _ (hinput input h)
    · exact backed_mono _ _ hgrow _ (hi.backed j u input hj h)
  · intro a ha
    exact kept_mono _ _ hgrow a (hrows a ha)

theorem chain_step (R : Registry) (l : Event) (s t : State) (hsha : Injective R.service.platform)
    (hsdk : AidsWellFormed R) (hok : Reads R l s ∧ Unforged R l s) (hi : Chain R s)
    (hs : next R l s = some t) : Chain R t := by
  cases l with
  | env e => exact chain_env R e s t hok.1 hi hs
  | act i io => exact chain_act R i io s t hsha hsdk hok.2 hi hs

theorem chain_start (R : Registry) (now : Instant) : Chain R (start now ⟨[], []⟩) := by
  constructor <;> simp [start]

/-- Every row of `agents` holds a body that an earlier enrollment accepted,
under the identifier of the manifest in it. -/
theorem registry_custody (R : Registry) (hsha : Injective R.service.platform)
    (hsdk : AidsWellFormed R) (now : Instant) (ls : List Event) (s : State)
    (hg : Guarded (next R) (fun l s => Reads R l s ∧ Unforged R l s) ls (start now ⟨[], []⟩))
    (hr : run (next R) ls (start now ⟨[], []⟩) = some s) :
    ∀ a ∈ s.world.tables.agents,
      (∃ body payload at_ jti, (body, payload) ∈ s.world.issued ∧ body.text = a.manifestJson ∧
        verifyAndIssueToken R at_ a.manifestJson jti = .ok payload) ∧
      R.verifyManifestJson a.manifestJson = none ∧
      manifestAid R.service.platform a.manifestJson = some a.aid := by
  have hi := run_invariant (next R) _ (Chain R)
    (fun l s t hok hi hs => chain_step R l s t hsha hsdk hok hi hs) ls _ s hg (chain_start R now) hr
  intro a ha
  obtain ⟨⟨body, payload⟩, hq, hbody, hsub⟩ := hi.rows a ha
  have hm := hi.minted _ hq
  obtain ⟨at_, jti, hcall⟩ := hm.call
  simp only at hbody hsub hcall
  refine ⟨⟨body, payload, at_, jti, hq, hbody, hbody ▸ hcall⟩, hbody ▸ hm.verified, ?_⟩
  rw [← hbody, ← hsub]
  exact hm.sub

section Scenario
open ControlPlane.RegistrationAtomicity (registry request manifestBody signedPayload payloadText
  runtime secret presented)

theorem runtime_injective : Injective runtime := by
  have hmsh : ∀ t : Text, signedPayload.msh ≠ 0::t := by
    intro t h
    have hhead : signedPayload.msh.head? = some 0x36 := by decide
    rw [h] at hhead
    exact absurd hhead (by simp)
  intro a b _ _ h
  simp only [runtime] at h
  split_ifs at h with ha hb hb
  · exact ha.trans hb.symm
  · exact absurd h (hmsh b)
  · exact absurd h.symm (hmsh a)
  · exact List.tail_eq_of_cons_eq h

theorem registry_aids : AidsWellFormed registry := by
  intro body aid hv haid
  simp only [registry] at hv
  split_ifs at hv with hb
  subst hb
  have h : manifestAid runtime manifestBody.text = some (js "aid:x") := by decide +kernel
  obtain rfl := Option.some.inj (haid.symm.trans h)
  decide

theorem runtime_readable : Readable runtime secret signedPayload := by
  refine ⟨by decide +kernel, by decide +kernel, rfl, ?_⟩
  have hne : payloadText ≠ manifestBody.text := by decide +kernel
  simp [runtime, hne]

theorem presented_reads :
    Guarded (next registry) (Reads registry) presented (start 0 ⟨[], []⟩) := by
  constructor
  · intro payload key h hkey
    obtain rfl := Option.some.inj hkey
    obtain ⟨-, hsub, hmint⟩ := token_sub _ _ _ _ _ (enroll_ok _ _ _ _ _ h)
    have haid : manifestAid runtime manifestBody.text = some (js "aid:x") := by decide +kernel
    obtain hx : payload.sub = js "aid:x" := Option.some.inj (hsub.symm.trans haid)
    have hp : payload = signedPayload := by
      rw [hmint, hx]
      decide +kernel
    exact hp ▸ runtime_readable
  · intro t _
    apply guarded_always
    intro l hl s
    simp only [List.mem_cons, List.not_mem_nil, or_false] at hl
    rcases hl with rfl | rfl | rfl | rfl | rfl | rfl | rfl | rfl | rfl <;> trivial

theorem registry_custody_presented :
    ∃ s, run (next registry) presented (start 0 ⟨[], []⟩) = some s ∧
      s.world.tables.agents.length = 1 ∧ ∀ a ∈ s.world.tables.agents,
        registry.verifyManifestJson a.manifestJson = none ∧
          manifestAid runtime a.manifestJson = some a.aid := by
  have hrun : (run (next registry) presented (start 0 ⟨[], []⟩)).map
      (fun s => s.world.tables.agents.length) = some 1 := by decide +kernel
  obtain ⟨s, hs, h1⟩ := Option.map_eq_some_iff.mp hrun
  have hg : Guarded (next registry) (Unforged registry) presented (start 0 ⟨[], []⟩) := by
    decide +kernel
  have h := registry_custody registry runtime_injective registry_aids 0 presented s
    (guarded_and _ _ _ _ _ presented_reads hg) hs
  exact ⟨s, hs, h1, fun a ha => (h a ha).2⟩

end Scenario

end ControlPlane.RegistryCustody
