import ControlPlane.AgentLifecycle
import ControlPlane.RegistrationAtomicity

/-!
# Casting the stored manifests

The sweep for the manifest version casts the stored text of every active
agent. The cast refuses two escapes that parsing accepts, for U+0000 and for a
lone surrogate, and a number out of range; registration checks neither.
-/

set_option autoImplicit false

namespace ControlPlane.ManifestCast
open ControlPlane.JsText ControlPlane.JsValue ControlPlane.HttpValidate ControlPlane.AgentRoute
open ControlPlane.EnrollmentToken ControlPlane.RegistrationMachine
open ControlPlane.RegistrationAtomicity ControlPlane.RunMachine ControlPlane.ThreadPool
open ControlPlane.AgentLifecycle (AgentRow Reason Setting claim castFails expiredRow setStatus
  unsupportedManifestVersion)
open ControlPlane.KeyedRows

def hexDigit (u : UInt16) : UInt16 :=
  if u ≤ 0x39 then u-0x30 else if u ≤ 0x46 then u-0x37 else u-0x57

def escapedUnit (a b c d : UInt16) : UInt16 :=
  hexDigit a*0x1000+hexDigit b*0x100+hexDigit c*0x10+hexDigit d

/-- Whether the database takes the escapes of a JSON text: none for U+0000,
and a surrogate only as the half of a pair. -/
def escapesOk (afterHigh : Bool) : Text → Bool
  | [] => !afterHigh
  | 0x5C::0x75::a::b::c::d::rest =>
    let u := escapedUnit a b c d
    if afterHigh then isLow u && escapesOk false rest
    else if isHigh u then escapesOk true rest
    else u ≠ 0 && !isLow u && escapesOk false rest
  | 0x5C::_::rest => !afterHigh && escapesOk false rest
  | _::rest => !afterHigh && escapesOk false rest

/-- The cast of a text to `jsonb`. The second argument tells whether the
numbers of a text are in the range of the database. -/
def jsonbCast (P : Platform) (numbersInRange : Text → Bool) (t : Text) : Option Json :=
  if escapesOk false t && numbersInRange t then P.parse t else none

section Cast
variable (R : Registry) (numbersInRange : Text → Bool)

def Castable (tb : Tables) : Prop :=
  ∀ a ∈ tb.agents, (jsonbCast R.service.platform numbersInRange a.manifestJson).isSome = true

def LeftOf (tb : Tables) (rows : List AgentRow) : Prop :=
  (rows.map (fun a => (a.aid, a.manifestJson))).Sublist
    (tb.agents.map (fun a => (a.aid, a.manifestJson)))

def unsupported (a : AgentRow) : Bool :=
  a.status = .active &&
    unsupportedManifestVersion (jsonbCast R.service.platform numbersInRange) a

/-- The second `UPDATE` of the expiry job retires the active rows with another
version, and does not throw. -/
def Retires (tb : Tables) : Prop :=
  ∀ rows days now, LeftOf tb rows →
    claim ⟨jsonbCast R.service.platform numbersInRange, days⟩ .manifestVersionUnsupported now
        rows =
      some (updateWhere (unsupported R numbersInRange) (setStatus .expired) rows,
        (rows.filter (unsupported R numbersInRange)).map expiredRow)

/-- In every state of a run the stored manifests cast and the sweep works. -/
def Unpoisoned (now : Instant) (ls : List Event) : Prop :=
  ∀ as bs u, ls = as++bs → run (next R) as (start now ⟨[], []⟩) = some u →
    Castable R numbersInRange u.world.tables ∧ Retires R numbersInRange u.world.tables

/-- The body of a registration that commits has no escape or number that the
cast refuses. -/
def Accepted (w : Write) : Prop :=
  escapesOk false w.input.manifestJson = true ∧ numbersInRange w.input.manifestJson = true

theorem retires_of_castable (tb : Tables) (h : Castable R numbersInRange tb) :
    Retires R numbersInRange tb := by
  intro rows days now hleft
  have hcast : castFails ⟨jsonbCast R.service.platform numbersInRange, days⟩ rows = false := by
    unfold castFails
    rw [List.any_eq_false]
    intro a ha
    have hmem := hleft.subset (List.mem_map_of_mem ha)
    obtain ⟨b, hb, heq⟩ := List.mem_map.mp hmem
    have hb' := h b hb
    rw [(Prod.mk.inj heq).2] at hb'
    simp [Option.isSome_iff_ne_none.mp hb']
  unfold claim
  rw [hcast, Bool.and_false, if_neg Bool.false_ne_true]
  rfl

end Cast

theorem carries_manifest (R : Registry) (q : RegisterRequest) (jti : Text)
    (input : RegisterInput) (h : Carries R q jti input) :
    toWellFormed input.manifestJson = input.manifestJson ∧
      (R.service.platform.parse input.manifestJson).isSome = true := by
  obtain ⟨now, c, hcheck, -, rfl⟩ := h
  obtain ⟨-, m, payload, henv, -, -, hcons⟩ := (checkRequest_passed R now q c).mp hcheck
  have hparse : (R.service.platform.parse q.body.text).isSome = true := by
    unfold parseEnvelope at henv
    cases hp : R.service.platform.parse q.body.text with
    | none =>
      rw [hp] at henv
      cases henv
    | some v => rfl
  obtain ⟨expires, -, rfl⟩ := Option.map_eq_some_iff.mp hcons
  exact ⟨toWellFormed_of_isWellFormed q.body.text q.body.wellFormed, hparse⟩

theorem commits_step (R : Registry) (l : Event) (s s' : State) (hs : next R l s = some s') :
    (s'.world.tables = s.world.tables ∧ s'.world.commits = s.world.commits) ∨
      ∃ w, s'.world.tables = w.apply s.world.tables ∧ s'.world.commits = s.world.commits++[w] := by
  cases l with
  | env e =>
    obtain ⟨w, o, he, rfl⟩ := (step_env_some _ _ _ _).mp hs
    have hm := env_move R e s.world w o he
    exact Or.inl ⟨hm.tables, hm.commits⟩
  | act i io =>
    obtain ⟨q, ph, w', p', -, hstep, rfl⟩ := act_next R i io s s' hs
    cases registerStep_move R io q s.world w' ph p' hstep with
    | commit c => exact Or.inr ⟨c, rfl, rfl⟩
    | _ => exact Or.inl ⟨rfl, rfl⟩

theorem upsertAgent_has (w : Write) (as : List Agent) :
    ∃ a ∈ upsertAgent w as, a.manifestJson = toWellFormed w.input.manifestJson := by
  unfold upsertAgent
  split_ifs with hany
  · obtain ⟨a, ha, haid⟩ := List.any_eq_true.mp hany
    apply Exists.intro (reenroll w a)
    constructor
    · rw [List.mem_map]
      exact ⟨a, ha, if_pos (of_decide_eq_true haid)⟩
    · rfl
  · exact ⟨newAgent w, List.mem_append_right _ (List.mem_singleton.mpr rfl), rfl⟩

theorem upsertAgent_mem (w : Write) (as : List Agent) (a : Agent) (ha : a ∈ upsertAgent w as) :
    a.manifestJson = toWellFormed w.input.manifestJson ∨
      ∃ b ∈ as, b.manifestJson = a.manifestJson := by
  unfold upsertAgent at ha
  split_ifs at ha with hany
  · obtain ⟨b, hb, rfl⟩ := List.mem_map.mp ha
    split_ifs
    · exact Or.inl rfl
    · exact Or.inr ⟨b, hb, rfl⟩
  · rcases List.mem_append.mp ha with ha | ha
    · exact Or.inr ⟨a, ha, rfl⟩
    · rw [List.mem_singleton.mp ha]
      exact Or.inl rfl

structure Stored (R : Registry) (now : Instant) (before : List Event) (s : State) : Prop where
  row : ∀ a ∈ s.world.tables.agents, ∃ w ∈ s.world.commits,
    a.manifestJson = toWellFormed w.input.manifestJson
  commit : ∀ w ∈ s.world.commits, ∃ as bs u, before = as++bs ∧
    run (next R) as (start now ⟨[], []⟩) = some u ∧
      ∃ a ∈ u.world.tables.agents, a.manifestJson = toWellFormed w.input.manifestJson

theorem run_stored (R : Registry) (now : Instant) (ls : List Event) (s : State)
    (hr : run (next R) ls (start now ⟨[], []⟩) = some s) : Stored R now ls s := by
  apply run_history (next R) (Stored R now) (start now ⟨[], []⟩) _ _ ls s hr
  · constructor
    · simp [start]
    · simp [start]
  · intro before l t u hrun hi hs
    have hrun' : run (next R) (before++[l]) (start now ⟨[], []⟩) = some u :=
      (run_append_some (next R) before [l] _ u).mpr
        ⟨t, hrun, (run_cons_some (next R) l [] t u).mpr ⟨u, hs, rfl⟩⟩
    have hold : ∀ w ∈ t.world.commits, ∃ as bs v, before++[l] = as++bs ∧
        run (next R) as (start now ⟨[], []⟩) = some v ∧
          ∃ a ∈ v.world.tables.agents, a.manifestJson = toWellFormed w.input.manifestJson := by
      intro w hw
      obtain ⟨as, bs, v, rfl, hv, ha⟩ := hi.commit w hw
      exact ⟨as, bs++[l], v, List.append_assoc as bs [l], hv, ha⟩
    rcases commits_step R l t u hs with ⟨htables, hcommits⟩ | ⟨w, htables, hcommits⟩
    · constructor
      · rw [htables, hcommits]
        exact hi.row
      · rw [hcommits]
        exact hold
    · constructor
      · intro a ha
        rw [htables] at ha
        rw [hcommits]
        rcases upsertAgent_mem w t.world.tables.agents a ha with hown | ⟨b, hb, hba⟩
        · exact ⟨w, List.mem_append_right _ (List.mem_singleton.mpr rfl), hown⟩
        · obtain ⟨v, hv, hbv⟩ := hi.row b hb
          exact ⟨v, List.mem_append_left _ hv, hba.symm.trans hbv⟩
      · intro v hv
        rw [hcommits] at hv
        rcases List.mem_append.mp hv with hv | hv
        · exact hold v hv
        · rw [List.mem_singleton.mp hv]
          apply Exists.intro (before++[l])
          apply Exists.intro []
          apply Exists.intro u
          apply And.intro (List.append_nil _).symm
          apply And.intro hrun'
          rw [htables]
          exact upsertAgent_has w t.world.tables.agents

theorem run_commits (R : Registry) (ls : List Event) (u s : State)
    (hr : run (next R) ls u = some s) : ∀ w ∈ u.world.commits, w ∈ s.world.commits := by
  apply run_invariant (next R) (fun _ _ => True)
    (fun v : State => ∀ w ∈ u.world.commits, w ∈ v.world.commits) _ ls u s
    (guarded_true _ ls _) (fun _ h => h) hr
  intro l v v' _ hi hs w hw
  rcases commits_step R l v v' hs with ⟨-, hcommits⟩ | ⟨c, -, hcommits⟩
  · rw [hcommits]
    exact hi w hw
  · rw [hcommits]
    exact List.mem_append_left _ (hi w hw)

theorem commits_carry (R : Registry) (now : Instant) (ls : List Event) (s : State)
    (hr : run (next R) ls (start now ⟨[], []⟩) = some s) :
    ∀ w ∈ s.world.commits, ∃ q, Carries R q w.jti w.input := by
  classical
  have hi := inv_run R now ⟨[], []⟩ ls s hr
  have hnone : s.threads.countP
      (wrote (fun w => decide (¬ ∃ q, Carries R q w.jti w.input))) = 0 := by
    rw [List.countP_eq_zero]
    intro t ht hw
    obtain ⟨i, hi'⟩ := List.mem_iff_getElem?.mp ht
    cases hp : written t.phase with
    | none =>
      simp only [wrote, hp] at hw
      cases hw
    | some w =>
      simp only [wrote, hp] at hw
      exact of_decide_eq_true hw ⟨_, origin_written R t w (hi.origin i t hi') hp⟩
  rw [← hi.commits, List.countP_eq_zero] at hnone
  intro w hw
  by_contra hno
  exact hnone w hw (decide_eq_true hno)

theorem cast_iff (R : Registry) (numbersInRange : Text → Bool) (t : Text)
    (hp : (R.service.platform.parse t).isSome = true) :
    (jsonbCast R.service.platform numbersInRange t).isSome = true ↔
      escapesOk false t = true ∧ numbersInRange t = true := by
  unfold jsonbCast
  split_ifs with hok
  · exact iff_of_true hp (by simpa using hok)
  · exact iff_of_false (by simp) (by simpa using hok)

/-- The version sweep works in every state of a run exactly if no registration
of the run has committed an escape or a number that the cast refuses. -/
theorem version_sweep_unpoisoned_iff (R : Registry) (numbersInRange : Text → Bool)
    (now : Instant) (ls : List Event) (s : State)
    (hr : run (next R) ls (start now ⟨[], []⟩) = some s) :
    Unpoisoned R numbersInRange now ls ↔ ∀ w ∈ s.world.commits, Accepted numbersInRange w := by
  have hcarry := commits_carry R now ls s hr
  have hmanifest : ∀ w ∈ s.world.commits,
      ((jsonbCast R.service.platform numbersInRange (toWellFormed w.input.manifestJson)).isSome =
        true ↔ Accepted numbersInRange w) := by
    intro w hw
    obtain ⟨q, hq⟩ := hcarry w hw
    obtain ⟨hwf, hparse⟩ := carries_manifest R q w.jti w.input hq
    rw [hwf]
    exact cast_iff R numbersInRange w.input.manifestJson hparse
  constructor
  · intro h w hw
    obtain ⟨as, bs, u, hls, hu, a, ha, heq⟩ := (run_stored R now ls s hr).commit w hw
    rw [← hmanifest w hw, ← heq]
    exact (h as bs u hls hu).1 a ha
  · rintro h as bs u rfl hu
    have hcast : Castable R numbersInRange u.world.tables := by
      intro a ha
      obtain ⟨w, hw, heq⟩ := (run_stored R now as u hu).row a ha
      obtain ⟨v, hv, hs⟩ := (run_append_some (next R) as bs _ s).mp hr
      obtain rfl : u = v := Option.some.inj (hu.symm.trans hv)
      have hws := run_commits R bs u s hs w hw
      rw [heq]
      exact (hmanifest w hws).mpr (h w hws)
    exact ⟨hcast, retires_of_castable R numbersInRange u.world.tables hcast⟩

theorem unpoisoned_presented : Unpoisoned registry (fun _ => true) 0 presented := by
  have hrun : (run (next registry) presented (start 0 ⟨[], []⟩)).map
      (fun s => s.world.commits.all (fun w => escapesOk false w.input.manifestJson)) =
        some true := by decide +kernel
  obtain ⟨s, hs, hall⟩ := Option.map_eq_some_iff.mp hrun
  apply (version_sweep_unpoisoned_iff registry (fun _ => true) 0 presented s hs).mpr
  exact fun w hw => ⟨List.all_eq_true.mp hall w hw, rfl⟩

def poisonBody : BodyText :=
  ⟨js "\x7b\"manifest\":\x7b\"version\":\"aitp/0.3\",\"aid\":\"aid:x\","++
    js "\"handshake_endpoint\":\"https://x/\",\"extensions\":\x7b\"note\":\"\\u0000\"\x7d\x7d\x7d",
    by decide +kernel⟩

def poisonPayload : EnrollmentPayload :=
  ⟨js "aid:x", 0, 300, signedPayload.jti,
    js "fbc9842daa2295c6968995caff1202a6642b414137e51c581dfb34bf0d8ef2b4"⟩

def poisonPayloadText : Text :=
  js "\x7b\"sub\":\"aid:x\",\"scope\":\"register\",\"iat\":0,\"exp\":300,\"jti\":\""++
    poisonPayload.jti++js "\",\"msh\":\""++poisonPayload.msh++js "\"\x7d"

def poisonManifest : Json :=
  .obj [(js "version", .str (js "aitp/0.3")), (js "aid", .str (js "aid:x")),
    (js "handshake_endpoint", .str (js "https://x/")),
    (js "extensions", .obj [(js "note", .str [0])])]

def poisonRuntime : Platform where
  encode _ :=
    js "eyJzdWIiOiJhaWQ6eCIsInNjb3BlIjoicmVnaXN0ZXIiLCJpYXQiOjAsImV4cCI6MzAwLCJqdGkiOiI2ZjFl"++
      js "NGE1Mi0wYzNiLTRkODctOWE2ZS0yYjVkOGM3ZjFlOTAiLCJtc2giOiJmYmM5ODQyZGFhMjI5NWM2OTY4OTk1"++
        js "Y2FmZjEyMDJhNjY0MmI0MTQxMzdlNTFjNTgxZGZiMzRiZjBkOGVmMmI0In0"
  decode _ := poisonPayloadText
  stringify _ := poisonPayloadText
  parse t :=
    if t = poisonBody.text then some (.obj [(js "manifest", poisonManifest)])
    else some poisonPayload.json
  hmac _ _ := js "w_jgkg8HbBKN8mLtQV0BQPap0Iyfj6_yq644jRp_E1c"
  sha256Hex t := if t = poisonBody.text then poisonPayload.msh else 0::t
  toNumber _ := none
  template _ := []

def poisonRegistry : Registry where
  service := ⟨poisonRuntime, some secret⟩
  verifyManifestJson t := if t = poisonBody.text then none else some ⟨js "malformed", []⟩

def poisonRequest : RegisterRequest where
  headers := [⟨js "authorization", js "Bearer "++sign poisonRuntime secret poisonPayload,
    by decide +kernel⟩]
  tooLarge := false
  body := poisonBody

def poisoning : List Event :=
  [.env (.enroll poisonBody poisonPayload.jti), .env (.post poisonRequest), .act 0 .ok,
    .act 0 .ok, .act 0 .ok, .act 0 .ok]

theorem poisoning_poisons : ¬ Unpoisoned poisonRegistry (fun _ => true) 0 poisoning := by
  intro h
  have hrun : (run (next poisonRegistry) poisoning (start 0 ⟨[], []⟩)).map
      (fun s => s.world.tables.agents.any (fun a =>
        (jsonbCast poisonRuntime (fun _ => true) a.manifestJson).isNone)) = some true := by
    decide +kernel
  obtain ⟨s, hs, hany⟩ := Option.map_eq_some_iff.mp hrun
  obtain ⟨a, ha, hnone⟩ := List.any_eq_true.mp hany
  obtain ⟨hcast, -⟩ := h poisoning [] s (List.append_nil _).symm hs
  have hsome : (jsonbCast poisonRuntime (fun _ => true) a.manifestJson).isSome = true :=
    hcast a ha
  rw [Option.isNone_iff_eq_none.mp hnone] at hsome
  cases hsome

end ControlPlane.ManifestCast
