import ControlPlane.EnrollmentToken
import ControlPlane.ThreadPool

/-!
# One registration for one enrollment token

A registration request validates its token and later, in one transaction,
stores the `jti` and the agent. Retention deletes the stored `jti` once its
expiry is in the past, to the millisecond, while validation still accepts the
token until the second after its expiry has begun.
-/

set_option autoImplicit false

namespace ControlPlane.EnrollmentRetention
open ControlPlane.JsText ControlPlane.JsValue ControlPlane.EnrollmentToken
open ControlPlane.RunMachine ControlPlane.ThreadPool

structure Registry where
  platform : Platform
  secret : Text
  retentionBatchLimit : ℕ

structure Registration where
  aid : Text
  manifestJson : Text
  deriving DecidableEq, Repr

structure World where
  now : Instant
  enrollmentJtis : Text → Option Instant
  registrations : List Registration

def initial (now : Instant) : World := ⟨now, fun _ => none, []⟩

inductive Pc where
  | received
  | validated (payload : Json) (aid : Text)
  | registered
  | refused

structure Request where
  token : Text
  body : Text
  pc : Pc

/-- `check` is one of the answers 400 between the validation of the token and
the transaction; a fault rolls the transaction back. -/
inductive Io where
  | ok
  | check
  | fault

def manifestAid (P : Platform) (body : Text) : Option Text :=
  (((P.parse body).bind (·.get (js "manifest"))).bind (·.get (js "aid"))).bind Json.string?

def validateStep (R : Registry) (w : World) (r : Request) : Pc :=
  match manifestAid R.platform r.body with
  | none => .refused
  | some aid =>
    match validateToken R.platform R.secret w.now r.token aid r.body with
    | .ok payload => .validated payload aid
    | .error _ => .refused

/-- `new Date(exp * 1000).toISOString()`, for an `exp` whose product is exact. -/
def expiresAt (payload : Json) : Option Instant :=
  match payload.get (js "exp") with
  | some (.num (.finite q)) => (toISOString (.finite (q*1000))).filter instantStorable
  | _ => none

/-- The consumption of the `jti` and the upsert of the agent, as one
transaction; nothing when it throws. -/
def registerConsumingJti (payload : Json) (input : Registration) (w : World) :
    Option (World × Bool) :=
  match (payload.get (js "jti")).bind Json.string?, expiresAt payload with
  | some jti, some t =>
    if w.enrollmentJtis jti = none then
      some ({ w with
        enrollmentJtis := Function.update w.enrollmentJtis jti (some t)
        registrations := input::w.registrations }, true)
    else some (w, false)
  | _, _ => none

def act (R : Registry) (io : Io) (w : World) (r : Request) : Option (World × Request) :=
  match r.pc, io with
  | .received, .ok => some (w, { r with pc := validateStep R w r })
  | .validated payload aid, .ok =>
    match registerConsumingJti payload ⟨aid, r.body⟩ w with
    | some (w', inserted) => some (w', { r with pc := if inserted then .registered else .refused })
    | none => some (w, { r with pc := .refused })
  | .validated _ _, .check => some (w, { r with pc := .refused })
  | .validated _ _, .fault => some (w, { r with pc := .refused })
  | _, _ => none

/-- A sweep reads the clock, and its delete runs `lag` milliseconds later. The
database chooses which of the rows it deletes if there are too many. -/
inductive Env where
  | tick (ms : ℕ)
  | post (token body : Text)
  | sweep (lag : ℕ) (chosen : List Text)

def purgeEnrollmentJtis (cutoff : Instant) (chosen : List Text) (rows : Text → Option Instant) :
    Text → Option Instant :=
  fun jti => if jti ∈ chosen then (rows jti).filter (fun t => cutoff ≤ t) else rows jti

def env (R : Registry) : Env → World → Option (World × Option Request)
  | .tick ms, w => some ({ w with now := w.now+ms }, none)
  | .post token body, w => some (w, some ⟨token, body, .received⟩)
  | .sweep lag chosen, w =>
    if chosen.length ≤ R.retentionBatchLimit then
      some ({ w with
        enrollmentJtis := purgeEnrollmentJtis (w.now-lag) chosen w.enrollmentJtis }, none)
    else none

def registration (R : Registry) : System World Request Env Io := ⟨env R, act R⟩

abbrev State := Pool World Request

abbrev Event := Label Env Io

abbrev next (R : Registry) : Event → State → Option State := step (registration R)

def start (now : Instant) : State := ⟨initial now, []⟩

def isValidated : Pc → Bool
  | .validated _ _ => true
  | _ => false

def Presenting (token : Text) : Event → Prop
  | .env (.post t _) => t = token
  | _ => True

/-- A sweep whose cutoff lies after the expiry does not meet the stored `jti`
before the second of the expiry is over, nor while a request stands between
the validation of the token and its transaction. -/
def Spared (p : EnrollmentPayload) : Event → State → Prop
  | .env (.sweep lag chosen), s => p.jti ∈ chosen → s.world.enrollmentJtis p.jti ≠ none →
      p.exp*1000 < s.world.now-lag →
      (p.exp+1)*1000 ≤ s.world.now ∧ ∀ r ∈ s.threads, isValidated r.pc = false
  | _, _ => True

instance (p : EnrollmentPayload) : ∀ (l : Event) (s : State), Decidable (Spared p l s)
  | .env (.sweep _ chosen), _ => inferInstanceAs (Decidable (p.jti ∈ chosen → _))
  | .env (.tick _), _ | .env (.post _ _), _ | .act _ _, _ => isTrue trivial

def Dead (p : EnrollmentPayload) (s : State) : Prop :=
  (p.exp+1)*1000 ≤ s.world.now ∧
  ∀ (j : ℕ) (r : Request), s.threads[j]? = some r → isValidated r.pc = false

structure Once (R : Registry) (p : EnrollmentPayload) (s : State) : Prop where
  token : ∀ (j : ℕ) (r : Request), s.threads[j]? = some r →
    r.token = sign R.platform R.secret p
  payload : ∀ (j : ℕ) (r : Request) (payload : Json) (aid : Text), s.threads[j]? = some r →
    r.pc = .validated payload aid → payload = p.json
  stored : ∀ t, s.world.enrollmentJtis p.jti = some t → t = p.exp*1000
  once : s.world.registrations.length ≤ 1
  spent : s.world.registrations ≠ [] → s.world.enrollmentJtis p.jti ≠ none ∨ Dead p s

theorem expiresAt_json (p : EnrollmentPayload) (t : Instant) (h : expiresAt p.json = some t) :
    t = p.exp*1000 := by
  have hq : (p.exp : ℚ)*1000 = ((p.exp*1000 : ℤ) : ℚ) := by push_cast; rfl
  simp only [expiresAt, json_exp, int, toISOString, hq, Int.floor_intCast, Int.ceil_intCast,
    ite_self, Option.filter_eq_some_iff] at h
  split_ifs at h
  · exact (Option.some.inj h.1).symm
  · cases h.1

theorem unixSecs_le (now e : ℤ) : unixSecs now ≤ e ↔ now < (e+1)*1000 := by
  unfold unixSecs
  omega

section Steps
variable (R : Registry) (p : EnrollmentPayload)

theorem purge_some (cutoff : Instant) (chosen : List Text) (rows : Text → Option Instant)
    (jti : Text) (t : Instant) (h : purgeEnrollmentJtis cutoff chosen rows jti = some t) :
    rows jti = some t := by
  simp only [purgeEnrollmentJtis] at h
  split_ifs at h
  · exact (Option.filter_eq_some_iff.mp h).1
  · exact h

theorem purge_spares (cutoff : Instant) (chosen : List Text) (rows : Text → Option Instant)
    (jti : Text) (t : Instant) (ht : rows jti = some t) (hs : jti ∈ chosen → cutoff ≤ t) :
    purgeEnrollmentJtis cutoff chosen rows jti = some t := by
  simp only [purgeEnrollmentJtis]
  split_ifs with hc
  · rw [ht, Option.filter_some]
    simp [hs hc]
  · exact ht

theorem once_tick (ms : ℕ) (s : State) (hi : Once R p s) :
    Once R p ⟨{ s.world with now := s.world.now+ms }, s.threads⟩ := by
  refine ⟨hi.token, hi.payload, hi.stored, hi.once, ?_⟩
  intro hne
  rcases hi.spent hne with h | ⟨h, h'⟩
  · exact Or.inl h
  · have hle : s.world.now ≤ s.world.now+ms :=
      Int.le_add_of_nonneg_right (Int.natCast_nonneg ms)
    exact Or.inr ⟨le_trans h hle, h'⟩

theorem once_post (body : Text) (s : State) (hi : Once R p s) :
    Once R p ⟨s.world, s.threads++[⟨sign R.platform R.secret p, body, .received⟩]⟩ := by
  have hget : ∀ (j : ℕ) (r : Request),
      (s.threads++[⟨sign R.platform R.secret p, body, .received⟩])[j]? = some r →
        s.threads[j]? = some r ∨ r = ⟨sign R.platform R.secret p, body, .received⟩ := by
    intro j r hj
    rcases append_get s.threads (some _) j r hj with h | ⟨_, h⟩
    · exact Or.inl h
    · exact Or.inr (Option.some.inj h).symm
  refine ⟨?_, ?_, hi.stored, hi.once, ?_⟩
  · intro j r hj
    rcases hget j r hj with h | rfl
    · exact hi.token j r h
    · rfl
  · intro j r payload aid hj hpc
    rcases hget j r hj with h | rfl
    · exact hi.payload j r payload aid h hpc
    · cases hpc
  · intro hne
    rcases hi.spent hne with h | ⟨h, h'⟩
    · exact Or.inl h
    · refine Or.inr ⟨h, ?_⟩
      intro j r hj
      rcases hget j r hj with hr | rfl
      · exact h' j r hr
      · rfl

theorem once_sweep (lag : ℕ) (chosen : List Text) (s : State)
    (hok : Spared p (.env (.sweep lag chosen)) s) (hi : Once R p s) :
    Once R p ⟨{ s.world with
      enrollmentJtis := purgeEnrollmentJtis (s.world.now-lag) chosen s.world.enrollmentJtis },
      s.threads⟩ := by
  refine ⟨hi.token, hi.payload, fun t ht => hi.stored t (purge_some _ _ _ _ t ht), hi.once, ?_⟩
  intro hne
  rcases hi.spent hne with h | hdead
  · obtain ⟨t, ht⟩ := Option.ne_none_iff_exists'.mp h
    by_cases hdel : p.jti ∈ chosen ∧ t < s.world.now-lag
    · obtain ⟨hlate, hfree⟩ := hok hdel.1 h (hi.stored t ht ▸ hdel.2)
      exact Or.inr ⟨hlate, fun j r hj => hfree r (List.mem_of_getElem? hj)⟩
    · have hs : p.jti ∈ chosen → s.world.now-lag ≤ t := by
        intro hc
        by_contra hlt
        exact hdel ⟨hc, not_le.mp hlt⟩
      exact Or.inl (by simp [purge_spares _ _ _ _ t ht hs])
  · exact Or.inr hdead

theorem once_env (e : Env) (s t : State)
    (hp : Presenting (sign R.platform R.secret p) (.env e)) (hok : Spared p (.env e) s)
    (hi : Once R p s) (hs : next R (.env e) s = some t) : Once R p t := by
  obtain ⟨w, o, he, rfl⟩ := (step_env_some _ _ _ _).mp hs
  cases e with
  | tick ms =>
    simp only [registration, env, Option.some.injEq, Prod.mk.injEq] at he
    obtain ⟨rfl, rfl⟩ := he
    simpa using once_tick R p ms s hi
  | post token body =>
    simp only [registration, env, Option.some.injEq, Prod.mk.injEq] at he
    obtain ⟨rfl, rfl⟩ := he
    obtain rfl := hp
    exact once_post R p body s hi
  | sweep lag chosen =>
    simp only [registration, env] at he
    split_ifs at he
    simp only [Option.some.injEq, Prod.mk.injEq] at he
    obtain ⟨rfl, rfl⟩ := he
    simpa using once_sweep R p lag chosen s hok hi

theorem once_stop (i : ℕ) (r : Request) (pc : Pc) (s : State) (hi : Once R p s)
    (hr : s.threads[i]? = some r) (hpc : isValidated pc = false) :
    Once R p ⟨s.world, s.threads.set i { r with pc := pc }⟩ := by
  have hget : ∀ (j : ℕ) (u : Request), (s.threads.set i { r with pc := pc })[j]? = some u →
      s.threads[j]? = some u ∨ u = { r with pc := pc } := by
    intro j u hj
    rcases set_get _ _ _ _ _ hj with ⟨_, h⟩ | ⟨_, h⟩
    · exact Or.inr h
    · exact Or.inl h
  refine ⟨?_, ?_, hi.stored, hi.once, ?_⟩
  · intro j u hj
    rcases hget j u hj with h | rfl
    · exact hi.token j u h
    · exact hi.token i r hr
  · intro j u payload aid hj hu
    rcases hget j u hj with h | rfl
    · exact hi.payload j u payload aid h hu
    · simp only at hu
      simp [hu, isValidated] at hpc
  · intro hne
    rcases hi.spent hne with h | ⟨h, h'⟩
    · exact Or.inl h
    · refine Or.inr ⟨h, ?_⟩
      intro j u hj
      rcases hget j u hj with hu | rfl
      · exact h' j u hu
      · exact hpc

theorem validateStep_some (w : World) (r : Request)
    (hr : Readable R.platform R.secret p) (ht : r.token = sign R.platform R.secret p)
    (payload : Json) (aid : Text) (h : validateStep R w r = .validated payload aid) :
    payload = p.json ∧ unixSecs w.now ≤ p.exp := by
  simp only [validateStep] at h
  split at h
  · cases h
  · rename_i aid' _
    split at h
    · rename_i payload' hv
      rw [ht] at hv
      obtain ⟨rfl, hle, _⟩ := (validate_signed _ _ _ hr _ _ _ _).mp hv
      cases h
      exact ⟨rfl, hle⟩
    · cases h
theorem once_validate (i : ℕ) (r : Request) (s : State)
    (hR : Readable R.platform R.secret p) (hi : Once R p s) (hr : s.threads[i]? = some r) :
    Once R p ⟨s.world, s.threads.set i { r with pc := validateStep R s.world r }⟩ := by
  cases hv : isValidated (validateStep R s.world r) with
  | false => exact once_stop R p i r _ s hi hr hv
  | true =>
    obtain ⟨payload, aid, hpc⟩ :
        ∃ payload aid, validateStep R s.world r = .validated payload aid := by
      cases hpc : validateStep R s.world r <;> simp [hpc, isValidated] at hv
      exact ⟨_, _, rfl⟩
    obtain ⟨rfl, hle⟩ := validateStep_some R p s.world r hR (hi.token i r hr) payload aid hpc
    refine ⟨?_, ?_, hi.stored, hi.once, ?_⟩
    · intro j u hj
      rcases set_get _ _ _ _ _ hj with ⟨_, rfl⟩ | ⟨_, hu⟩
      · exact hi.token i r hr
      · exact hi.token j u hu
    · intro j u payload' aid' hj hu
      rcases set_get _ _ _ _ _ hj with ⟨_, rfl⟩ | ⟨_, hj⟩
      · rw [hpc] at hu
        cases hu
        rfl
      · exact hi.payload j u payload' aid' hj hu
    · intro hne
      rcases hi.spent hne with h | ⟨h, _⟩
      · exact Or.inl h
      · exact absurd ((unixSecs_le _ _).mp hle) (not_lt.mpr h)

theorem once_register (i : ℕ) (r : Request) (s : State) (aid : Text) (w : World)
    (inserted : Bool) (hi : Once R p s)
    (hr : s.threads[i]? = some r) (hpc : r.pc = .validated p.json aid)
    (hw : registerConsumingJti p.json ⟨aid, r.body⟩ s.world = some (w, inserted)) (pc : Pc)
    (hnv : isValidated pc = false) : Once R p ⟨w, s.threads.set i { r with pc := pc }⟩ := by
  have hstop := once_stop R p i r pc s hi hr hnv
  simp only [registerConsumingJti, json_jti, Option.bind_some, Json.string?] at hw
  split at hw
  · rename_i jti t hjti ht
    obtain rfl := Option.some.inj hjti
    split_ifs at hw with hfree
    · simp only [Option.some.injEq, Prod.mk.injEq] at hw
      obtain ⟨rfl, _⟩ := hw
      have hnone : s.world.registrations = [] := by
        by_contra hne
        rcases hi.spent hne with h | ⟨_, h⟩
        · exact h hfree
        · have := h i r hr
          simp [hpc, isValidated] at this
      refine ⟨hstop.token, hstop.payload, ?_, by simp [hnone], ?_⟩
      · intro t' ht'
        simp only [Function.update_self, Option.some.injEq] at ht'
        exact ht' ▸ expiresAt_json p t ht
      · intro _
        exact Or.inl (by simp)
    · simp only [Option.some.injEq, Prod.mk.injEq] at hw
      obtain ⟨rfl, _⟩ := hw
      exact hstop
  · cases hw

theorem once_act (i : ℕ) (io : Io) (s t : State)
    (hR : Readable R.platform R.secret p) (hi : Once R p s)
    (hs : next R (.act i io) s = some t) : Once R p t := by
  obtain ⟨r, w, r', hr, ha, rfl⟩ := (step_act_some _ _ _ _ _).mp hs
  simp only [registration, act] at ha
  split at ha
  · rw [Option.some.injEq, Prod.mk.injEq] at ha
    obtain ⟨rfl, rfl⟩ := ha
    exact once_validate R p i r s hR hi hr
  · rename_i payload aid hpc
    obtain rfl := hi.payload i r payload aid hr hpc
    split at ha
    · rename_i w' inserted hw
      rw [Option.some.injEq, Prod.mk.injEq] at ha
      obtain ⟨rfl, rfl⟩ := ha
      exact once_register R p i r s aid w' inserted hi hr hpc hw _ (by cases inserted <;> rfl)
    · rw [Option.some.injEq, Prod.mk.injEq] at ha
      obtain ⟨rfl, rfl⟩ := ha
      exact once_stop R p i r _ s hi hr rfl
  · rw [Option.some.injEq, Prod.mk.injEq] at ha
    obtain ⟨rfl, rfl⟩ := ha
    exact once_stop R p i r _ s hi hr rfl
  · rw [Option.some.injEq, Prod.mk.injEq] at ha
    obtain ⟨rfl, rfl⟩ := ha
    exact once_stop R p i r _ s hi hr rfl
  · cases ha

end Steps

/-- A minted token registers at most one agent, whatever requests present it,
if no sweep meets its `jti` too early. -/
theorem one_registration (R : Registry) (minted now : Instant) (aid body jti : Text)
    (hR : Readable R.platform R.secret (mint R.platform minted aid body jti))
    (ls : List Event) (s : State)
    (hp : ∀ l ∈ ls, Presenting (sign R.platform R.secret (mint R.platform minted aid body jti)) l)
    (hg : Guarded (next R) (Spared (mint R.platform minted aid body jti)) ls (start now))
    (hr : run (next R) ls (start now) = some s) : s.world.registrations.length ≤ 1 := by
  have hstart : Once R (mint R.platform minted aid body jti) (start now) :=
    ⟨by simp [start], by simp [start], by simp [start, initial], by simp [start, initial],
      by simp [start, initial]⟩
  apply (run_invariant _ _ (Once R _) ?_ ls _ s
    (guarded_and _ _ _ ls _ (guarded_labels _ _ ls _ hp) hg) hstart hr).once
  rintro l s t ⟨hpres, hok⟩ hi hs
  cases l with
  | env e => exact once_env R _ e s t hpres hok hi hs
  | act i io => exact once_act R _ i io s t hR hi hs

section Scenario

def manifestBody : Text := js "\x7b\"manifest\":\x7b\"aid\":\"aid:x\"\x7d\x7d"

def uuid : Text := js "6f1e4a52-0c3b-4d87-9a6e-2b5d8c7f1e90"

def payload : EnrollmentPayload :=
  ⟨js "aid:x", 0, 300, uuid, js "0e785430cf67c199d8d414dd96ed11407845706c3fab0804dba028b5c07d91ac"⟩

def payloadText : Text :=
  js "\x7b\"sub\":\"aid:x\",\"scope\":\"register\",\"iat\":0,\"exp\":300,\"jti\":\""++payload.jti++
    js "\",\"msh\":\""++payload.msh++js "\"\x7d"

def data : Text :=
  js "eyJzdWIiOiJhaWQ6eCIsInNjb3BlIjoicmVnaXN0ZXIiLCJpYXQiOjAsImV4cCI6MzAwLCJqdGkiOi"++
    js "I2ZjFlNGE1Mi0wYzNiLTRkODctOWE2ZS0yYjVkOGM3ZjFlOTAiLCJtc2giOiIwZTc4NTQzMGNmNjdj"++
    js "MTk5ZDhkNDE0ZGQ5NmVkMTE0MDc4NDU3MDZjM2ZhYjA4MDRkYmEwMjhiNWMwN2Q5MWFjIn0"

def runtime : Platform where
  encode _ := data
  decode _ := payloadText
  stringify _ := payloadText
  parse t :=
    if t = manifestBody then
      some (.obj [(js "manifest", .obj [(js "aid", .str (js "aid:x"))])])
    else some payload.json
  hmac _ _ := js "HdCLN_fhMeIche-_CvYY35PxB3SarJhKBeVkjRuwciw"
  sha256Hex _ := payload.msh
  toNumber _ := none
  template _ := []

def registry : Registry := ⟨runtime, js "0123456789abcdef0123456789abcdef", 1000⟩

theorem runtime_readable : Readable runtime registry.secret payload := by
  refine ⟨by decide +kernel, by decide +kernel, rfl, ?_⟩
  have hne : payloadText ≠ manifestBody := by decide +kernel
  simp [runtime, hne]

def token : Text := sign runtime registry.secret payload

def presented (time : ℕ) : List Event :=
  [.env (.post token manifestBody), .act 0 .ok, .act 0 .ok, .env (.tick time),
    .env (.sweep 0 [uuid]), .env (.post token manifestBody), .act 1 .ok, .act 1 .ok]

theorem presented_presenting (time : ℕ) : ∀ l ∈ presented time, Presenting token l := by
  intro l hl
  simp only [presented, List.mem_cons, List.not_mem_nil, or_false] at hl
  rcases hl with rfl | rfl | rfl | rfl | rfl | rfl | rfl | rfl <;> trivial

theorem one_registration_presented :
    ∃ s, run (next registry) (presented 300000) (start 0) = some s ∧
      s.world.registrations.length ≤ 1 := by
  have hrun : (run (next registry) (presented 300000) (start 0)).isSome = true := by decide +kernel
  obtain ⟨s, hs⟩ := Option.isSome_iff_exists.mp hrun
  exact ⟨s, hs, one_registration registry 0 0 (js "aid:x") manifestBody uuid runtime_readable
    (presented 300000) s (presented_presenting _) (by decide +kernel) hs⟩

/-- Half a second after the expiry the `jti` is deleted, and the token, which
is accepted until the next full second, registers again. -/
theorem late_token_registers_twice :
    ¬ ∀ (R : Registry) (minted now : Instant) (aid body jti : Text),
      Readable R.platform R.secret (mint R.platform minted aid body jti) →
      ∀ (ls : List Event) (s : State),
        (∀ l ∈ ls, Presenting (sign R.platform R.secret (mint R.platform minted aid body jti)) l) →
        run (next R) ls (start now) = some s → s.world.registrations.length ≤ 1 := by
  intro h
  have hrun : (run (next registry) (presented 300500) (start 0)).map
      (fun s => s.world.registrations.length) = some 2 := by decide +kernel
  obtain ⟨s, hs, h2⟩ := Option.map_eq_some_iff.mp hrun
  have := h registry 0 0 (js "aid:x") manifestBody uuid runtime_readable (presented 300500) s
    (presented_presenting _) hs
  omega

end Scenario

end ControlPlane.EnrollmentRetention
