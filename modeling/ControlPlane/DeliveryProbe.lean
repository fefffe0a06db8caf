import ControlPlane.DeliverySteps

/-!
# The half-open probe of a webhook

`shouldAttempt` hands out the probe before the claim and the target check. A
call that stops there has neither recorded an outcome nor reset the breaker,
and the probe stays taken.
-/

set_option autoImplicit false

namespace ControlPlane.DeliveryProbe
open ControlPlane.JsText ControlPlane.JsValue ControlPlane.CircuitBreaker
open ControlPlane.RunMachine ControlPlane.ThreadPool ControlPlane.DeliveryMachine
open ControlPlane.DeliverySteps

variable {svc : Service}

def admittedAttempt : Pc → Option Attempt
  | .claim a => some a
  | .target a => some a
  | .fetching a _ => some a
  | _ => none

def proceeds (w : World) (c : Call) (io : Io) : Bool :=
  match c.pc, io with
  | .claim a, .ok => ((w.deliveries c.delivery).map (claimable a)).getD false
  | .claim _, _ => false
  | .target _, .verdict .safe => true
  | .target _, _ => false
  | _, _ => true

/-- The call that was admitted as a half-open probe wins its claim and finds
a safe target. -/
def ProbeKept : Event → State → Prop
  | .act i io, p => At p i (fun c =>
      ∀ a ∈ admittedAttempt c.pc, a.probe = true → proceeds p.world c io = true)
  | .env _, _ => True

instance : ∀ (l : Event) (p : State), Decidable (ProbeKept l p)
  | .act i _, p => inferInstanceAs (Decidable (At p i _))
  | .env _, _ => isTrue trivial

def HoldsProbe (c : Call) (p : Proc) (h : WebhookId) : Prop :=
  c.proc = p ∧ ∃ a, admittedAttempt c.pc = some a ∧ a.probe = true ∧ a.webhookId = h

def Backed (s : State) : Prop :=
  ∀ p h, (s.world.breakers p h).probeInFlight = true →
    ∃ (j : ℕ) (c : Call), s.threads[j]? = some c ∧ HoldsProbe c p h

def AllDated (w : World) : Prop := ∀ p h, Dated (w.breakers p h)

theorem breaker_move {w w' : World} {c c' : Call} {io : Io} (hm : Move svc w c io w' c')
    (p : Proc) (h : WebhookId) :
    w'.breakers p h = w.breakers p h ∨
    (∃ a hops o, c.pc = .fetching a hops ∧ p = c.proc ∧ h = a.webhookId ∧
      w'.breakers p h = record svc.breaker w.now o (w.breakers p h)) ∨
    (∃ a, c.pc = .ask a ∧ w'.breakers p h = (shouldAttempt svc.breaker w.now (w.breakers p h)).2 ∧
      ((w'.breakers p h).state = .halfOpen →
        (shouldAttempt svc.breaker w.now (w.breakers p h)).1 = true → HoldsProbe c' p h)) := by
  cases hm with
  | answer a hops ans hpc =>
    simp only [answerStep]
    rcases breaker_cases w c.proc p a.webhookId h
      (record svc.breaker w.now ans.outcome (w.breakers c.proc a.webhookId)) with
      ⟨rfl, rfl, hb⟩ | ⟨_, hb⟩
    · exact Or.inr (Or.inl ⟨a, hops, _, hpc, rfl, rfl, hb⟩)
    · exact Or.inl hb
  | ask a ms hpc =>
    have hw : (askStep svc ms w c a).1 = w.breaker c.proc a.webhookId
        (shouldAttempt svc.breaker w.now (w.breakers c.proc a.webhookId)).2 := by
      simp only [askStep]
      split_ifs
      · rfl
      · split <;> rfl
    rw [hw]
    rcases breaker_cases w c.proc p a.webhookId h
      (shouldAttempt svc.breaker w.now (w.breakers c.proc a.webhookId)).2 with
      ⟨rfl, rfl, hb⟩ | ⟨_, hb⟩
    · refine Or.inr (Or.inr ⟨a, hpc, hb, ?_⟩)
      intro hh ht
      rw [hb] at hh
      refine ⟨(move_delivery (Move.ask (w := w) a ms hpc)).2, ?_⟩
      exact ⟨{ a with probe := true }, by simp [askStep, ht, hh, admittedAttempt], rfl, rfl⟩
    · exact Or.inl hb
  | disable a _ =>
    left
    simp only [disableStep]
    split_ifs <;> rfl
  | _ => exact Or.inl rfl

theorem probe_moves {w w' : World} {c c' : Call} {io : Io} (hm : Move svc w c io w' c')
    (p : Proc) (h : WebhookId) (hc : HoldsProbe c p h)
    (hok : ∀ a ∈ admittedAttempt c.pc, a.probe = true → proceeds w c io = true) :
    HoldsProbe c' p h ∨ (w'.breakers p h).probeInFlight = false := by
  obtain ⟨hp, a, ha, hprobe, hh⟩ := hc
  have hgo := hok a ha hprobe
  cases hm with
  | stop hst =>
    cases hpc : c.pc <;> simp [hpc, admittedAttempt] at ha
    · simp [proceeds, hpc] at hgo
    · simp [hpc, isStatement] at hst
    · simp [hpc, isStatement] at hst
  | lose b hpc hn => simp [proceeds, hpc, hn] at hgo
  | refuse b m hpc | throw b hpc => simp [proceeds, hpc] at hgo
  | claim b d hpc _ _ _ | post b hpc | redirect b hops url hpc _ =>
    simp only [hpc, admittedAttempt, Option.some.injEq] at ha
    subst ha
    exact Or.inl ⟨hp, b, rfl, hprobe, hh⟩
  | answer b hops ans hpc =>
    simp only [hpc, admittedAttempt, Option.some.injEq] at ha
    subst ha
    subst hp hh
    right
    simp [answerStep, World.breaker]
  | read hpc | find d hpc | ask b ms hpc | settle o hpc _ | disable b hpc | sweep b d hpc
  | audit b hpc => simp [hpc, admittedAttempt] at ha

theorem backed_act (svc : Service) (i : ℕ) (io : Io) (s t : State)
    (hok : ProbeKept (.act i io) s) (hi : Backed s) (hs : next svc (.act i io) s = some t) :
    Backed t := by
  obtain ⟨c, w, c', hc, hm, rfl⟩ := act_next svc i io s t hs
  intro p h hf
  have hold : (s.world.breakers p h).probeInFlight = true →
      ∃ (j : ℕ) (u : Call), (s.threads.set i c')[j]? = some u ∧ HoldsProbe u p h := by
    intro hbefore
    obtain ⟨j, u, hj, hu⟩ := hi p h hbefore
    by_cases hij : j = i
    · subst hij
      rw [hc, Option.some.injEq] at hj
      subst hj
      rcases probe_moves hm p h hu (hok c hc) with hk | hk
      · exact ⟨j, c', set_self _ _ _ _ hc, hk⟩
      · simp [hk] at hf
    · exact ⟨j, u, by rw [set_other _ _ _ _ hij]; exact hj, hu⟩
  rcases breaker_move hm p h with hb | ⟨a, _, o, _, _, _, hb⟩ | ⟨a, hpc, hb, hnew⟩
  · exact hold (hb ▸ hf)
  · simp [hb] at hf
  · rcases shouldAttempt_cases svc.breaker s.world.now (s.world.breakers p h) with
      ⟨_, ha⟩ | ⟨_, _, ha⟩ | ⟨_, ha⟩
    · rw [hb, ha] at hf
      exact hold hf
    · exact ⟨i, c', set_self _ _ _ _ hc, hnew (by rw [hb, ha]) (by rw [ha])⟩
    · rw [hb, ha] at hf
      exact hold hf

theorem backed_env (svc : Service) (e : Env) (s t : State) (hi : Backed s)
    (hs : next svc (.env e) s = some t) : Backed t := by
  obtain ⟨w, o, he, rfl⟩ := env_next svc e s t hs
  intro p h hf
  rcases he.breakers p h with hb | hb
  · obtain ⟨j, u, hj, hu⟩ := hi p h (hb ▸ hf)
    obtain ⟨hlt, _⟩ := List.getElem?_eq_some_iff.mp hj
    exact ⟨j, u, by rwa [List.getElem?_append_left hlt], hu⟩
  · simp [hb, fresh] at hf

theorem dated_step (svc : Service) (l : Event) (s t : State) (hi : AllDated s.world)
    (hs : next svc l s = some t) : AllDated t.world := by
  intro p h
  cases l with
  | env e =>
    obtain ⟨w, o, he, rfl⟩ := env_next svc e s t hs
    rcases he.breakers p h with hb | hb
    · exact hb ▸ hi p h
    · exact hb ▸ fresh_dated
  | act i io =>
    obtain ⟨c, w, c', _, hm, rfl⟩ := act_next svc i io s t hs
    rcases breaker_move hm p h with hb | ⟨a, _, o, _, _, _, hb⟩ | ⟨a, _, hb, _⟩
    · exact hb ▸ hi p h
    · exact hb ▸ record_dated _ _ _ _ (hi p h)
    · exact hb ▸ shouldAttempt_dated _ _ _ (hi p h)

theorem step_inv (svc : Service) (l : Event) (s t : State) (hok : ProbeKept l s)
    (hi : Backed s ∧ AllDated s.world) (hs : next svc l s = some t) :
    Backed t ∧ AllDated t.world := by
  refine ⟨?_, dated_step svc l s t hi.2 hs⟩
  cases l with
  | env e => exact backed_env svc e s t hi.1 hs
  | act i io => exact backed_act svc i io s t hok hi.1 hs

/-- Nothing is on its way to `h` in process `p`. -/
def Idle (s : State) (p : Proc) (h : WebhookId) : Prop :=
  ∀ c ∈ s.threads, c.proc = p → s.world.owner c.delivery = some h → isDone c.pc = true

instance (s : State) (p : Proc) (h : WebhookId) : Decidable (Idle s p h) := by
  unfold Idle
  infer_instance

def Resumes (svc : Service) (s : State) (p : Proc) (h : WebhookId) : Prop :=
  (s.world.breakers p h).probeInFlight = false ∧
  ∀ now : Instant, (∀ t, (s.world.breakers p h).openedAt = some t →
      svc.breaker.resetTimeoutMs ≤ now-t) →
    (shouldAttempt svc.breaker now (s.world.breakers p h)).1 = true

/-- In a run that keeps its probes, a webhook to which no call is on its way
is attempted again as soon as the reset timeout has elapsed. -/
theorem idle_resumes (svc : Service) (now : Instant) (ls : List Event) (s : State)
    (hg : Guarded (next svc) ProbeKept ls (start now))
    (hr : run (next svc) ls (start now) = some s) (p : Proc) (h : WebhookId)
    (hidle : Idle s p h) : Resumes svc s p h := by
  have hown := owned_run svc ls _ s (owned_start now) hr
  have hstart : Backed (start now) ∧ AllDated (start now).world :=
    ⟨fun p h hf => by simp [start, initial, fresh] at hf, fun p h => fresh_dated⟩
  obtain ⟨hback, hdated⟩ := run_invariant _ ProbeKept
    (fun s => Backed s ∧ AllDated s.world) (step_inv svc) ls _ s hg hstart hr
  have hfree : (s.world.breakers p h).probeInFlight = false := by
    by_contra hne
    rw [Bool.not_eq_false] at hne
    obtain ⟨j, c, hj, hp, a, ha, _, hh⟩ := hback p h hne
    have hd : snapshot c.pc = some a.delivery := by
      cases hpc : c.pc <;> simp [hpc, admittedAttempt] at ha <;> simp [snapshot, ha]
    rcases hown.thread j c hj with hk | hk | hk
    · simp [hk, snapshot] at hd
    · simp [hk, snapshot] at hd
    · have hdone := hidle c (List.mem_of_getElem? hj) hp
        ((hk.2 _ hd).trans (congrArg some hh))
      cases hpc : c.pc <;> simp [hpc, isDone] at hdone
      simp [hpc, snapshot] at hd
  exact ⟨hfree, fun t ht => shouldAttempt_free svc.breaker t _ (hdated p h) hfree ht⟩

def brittle : Service := { service with breaker := ⟨1, 60000, 1⟩ }

def opening : List Event :=
  [created, enqueued [1]]++posting 0++[answered 0 500 [], .act 0 .ok, .env (.tick 60000)]

def probed : List Event := opening++[enqueued [2]]++posting 1++[answered 1 200 [], .act 1 .ok]

theorem idle_resumes_probed : ∃ s, run (next brittle) probed (start 0) = some s ∧
    Resumes brittle s 0 [7] :=
  ⟨(run (next brittle) probed (start 0)).get (by decide +kernel), (Option.some_get _).symm,
    idle_resumes brittle 0 probed _ (by decide +kernel) (Option.some_get _).symm 0 [7]
      (by decide +kernel)⟩

def unsafeProbe : List Event :=
  opening++[enqueued [2]]++(posting 1).dropLast++[.act 1 (.verdict (.refused [])), .act 1 .ok]

/-- The call that gets the probe finds an unsafe target. No call is left, and
the breaker refuses every attempt from then on. -/
theorem unsafe_target_keeps_probe :
    ¬ ∀ (svc : Service) (now : Instant) (ls : List Event) (s : State),
      run (next svc) ls (start now) = some s → ∀ p h, Idle s p h → Resumes svc s p h := by
  intro h
  have hs := h brittle 0 unsafeProbe
    ((run (next brittle) unsafeProbe (start 0)).get (by decide +kernel)) (Option.some_get _).symm
    0 [7] (by decide +kernel)
  exact absurd hs.1 (by decide +kernel)

end ControlPlane.DeliveryProbe
