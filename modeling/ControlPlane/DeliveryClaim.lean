import ControlPlane.DeliverySteps

/-!
# One fetch at a time

The claim compares the attempt counter with the one the call has read, so it
turns away every call that read the row before another call claimed it. It
does not turn away a call that reads the row afterwards, while the claimant is
still on its way.
-/

set_option autoImplicit false

namespace ControlPlane.DeliveryClaim
open ControlPlane.JsValue ControlPlane.CircuitBreaker
open ControlPlane.RunMachine ControlPlane.ThreadPool ControlPlane.DeliveryMachine
open ControlPlane.DeliverySteps

variable {svc : Service}

/-- The attempt number of a call between its claim and the end of its fetch. -/
def Pc.holding : Pc → Option ℕ
  | .target a => some a.attempts
  | .fetching a _ => some a.attempts
  | _ => none

def Pc.isFetching : Pc → Bool
  | .fetching _ _ => true
  | _ => false

def InFlight (p : State) (i : ℕ) (id : DeliveryId) : Prop :=
  ∃ c ∈ p.threads[i]?, c.delivery = id ∧ Pc.isFetching c.pc = true

def SingleFlight (p : State) : Prop := ∀ id i j, InFlight p i id → InFlight p j id → i = j

/-- No claim succeeds with a row that was read after another call had claimed
it and before the fetch of that call has ended. -/
def NoReclaim : Event → State → Prop
  | .act i .ok, p => At p i (fun c => ∀ a ∈ claiming c.pc, ∀ d ∈ p.world.deliveries c.delivery,
      claimable a d = true → Others p i (fun u => u.delivery = c.delivery →
        ∀ n ∈ Pc.holding u.pc, a.delivery.attempts < n))
  | _, _ => True

instance : ∀ (l : Event) (p : State), Decidable (NoReclaim l p)
  | .act i .ok, p => inferInstanceAs (Decidable (At p i _))
  | .env _, _ | .act _ .fault, _ | .act _ (.jitter _), _ | .act _ (.verdict _), _
  | .act _ (.redirect _), _ | .act _ (.answer _), _ => isTrue trivial

def Counted (w : World) (c : Call) : Prop :=
  ∀ n d, Pc.holding c.pc = some n → w.deliveries c.delivery = some d → n ≤ d.attempts

def Alone (_ : World) (c u : Call) : Prop :=
  c.delivery = u.delivery → Pc.holding c.pc ≠ none → Pc.holding u.pc = none

abbrev Inv (p : State) : Prop := Holds (fun _ => True) Counted Alone p

theorem holding_move {w w' : World} {c c' : Call} {io : Io} (h : Move svc w c io w' c') :
    Pc.holding c'.pc = none ∨ Pc.holding c'.pc = Pc.holding c.pc ∨
    ∃ a d, c.pc = .claim a ∧ io = .ok ∧ w.deliveries c.delivery = some d ∧ claimable a d = true ∧
      w' = w.row c.delivery (claimRow a) ∧ Pc.holding c'.pc = some a.attempts := by
  cases h with
  | stop _ | lose _ _ _ | refuse _ _ _ | throw _ _ | audit _ _ => exact Or.inl rfl
  | read _ =>
    left
    simp only [readRowStep]
    split
    · rfl
    · split_ifs <;> rfl
  | find d _ =>
    left
    simp only [readWebhookStep]
    split
    · rfl
    · split_ifs <;> rfl
  | ask a ms _ =>
    left
    simp only [askStep]
    split_ifs
    · rfl
    · split <;> rfl
  | claim a d hpc hd ha hs =>
    exact Or.inr (Or.inr ⟨a, d, hpc, rfl, hd, by simp [claimable, ha, hs], rfl, rfl⟩)
  | post a hpc => exact Or.inr (Or.inl (by rw [hpc]; rfl))
  | redirect a hops url hpc _ => exact Or.inr (Or.inl (by rw [hpc]; rfl))
  | answer a hops ans _ =>
    left
    simp only [answerStep, to_pc]
    cases conclude svc w.now a ans <;> rfl
  | settle o _ _ =>
    left
    simp only [settleStep, to_pc]
    cases o <;> rfl
  | disable a _ =>
    left
    simp only [disableStep]
    split_ifs <;> rfl
  | sweep a b _ =>
    left
    cases b <;> rfl

theorem counted_other {w w' : World} {c c' u : Call} {io : Io} (h : Move svc w c io w' c')
    (hu : Counted w u) : Counted w' u := by
  intro n d' hn hd'
  obtain ⟨d, hd, _, hle⟩ := move_row h u.delivery d' hd'
  exact le_trans (hu n d hn hd) hle

theorem counted_self {w w' : World} {c c' : Call} {io : Io} (h : Move svc w c io w' c')
    (hc : Counted w c) : Counted w' c' := by
  intro n d' hn hd'
  rw [(move_delivery h).1] at hd'
  rcases holding_move h with h0 | h0 | ⟨a, d, _, _, hd, _, rfl, h0⟩
  · rw [h0] at hn
    cases hn
  · exact counted_other h hc n d' (h0 ▸ hn) hd'
  · rw [row_same, hd, Option.map_some, Option.some.injEq] at hd'
    rw [h0, Option.some.injEq] at hn
    rw [← hd', ← hn]
    rfl

theorem env_inv (svc : Service) (e : Env) (p q : State) (ho : Owned p) (hi : Inv p)
    (hs : next svc (.env e) p = some q) : Inv q := by
  obtain ⟨w, o, he, rfl⟩ := env_next svc e p q hs
  apply holds_env p w o trivial ?_ ?_ hi.pair ?_
  · intro j u hj n d hn hd
    rcases he.rows _ d hd with h | ⟨h, _⟩
    · exact hi.thread j u hj n d hn h
    · rcases ho.thread j u hj with hk | hk | hk
      · simp [hk, Pc.holding] at hn
      · simp [hk, Pc.holding] at hn
      · exact (hk.1 h).elim
  · intro t ht n d hn
    simp [he.started t ht, Pc.holding] at hn
  · intro t j u ht _
    have hn : Pc.holding t.pc = none := by rw [he.started t ht]; rfl
    exact ⟨fun _ h => (h hn).elim, fun _ _ => hn⟩

theorem act_inv (svc : Service) (i : ℕ) (io : Io) (p q : State)
    (hok : NoReclaim (.act i io) p) (hi : Inv p)
    (hs : next svc (.act i io) p = some q) : Inv q := by
  obtain ⟨c, w, c', hc, hm, rfl⟩ := act_next svc i io p q hs
  apply holds_act p i c' w trivial (counted_self hm (hi.thread i c hc))
  · intro j u _ hj
    exact counted_other hm (hi.thread j u hj)
  · intro j u hj hu
    have hd := (move_delivery hm).1
    have hq := hi.pair i j c u hj.symm hc hu
    have hq' := hi.pair j i u c hj hu hc
    rcases holding_move hm with h0 | h0 | ⟨a, d, hpc, rfl, hrow, hcl, _, h0⟩
    · exact ⟨fun _ h => (h h0).elim, fun _ _ => h0⟩
    · simp only [Alone, h0, hd]
      exact ⟨hq, hq'⟩
    · have hfree : c.delivery = u.delivery → Pc.holding u.pc = none := by
        intro hsame
        cases hn : Pc.holding u.pc with
        | none => rfl
        | some n =>
          have hlt := others_get p i j _ u
            (hok c hc a (by rw [hpc]; rfl) d hrow hcl) hj hu hsame.symm n hn
          have hle := hi.thread j u hu n d hn (hsame ▸ hrow)
          simp only [claimable, decide_eq_true_eq] at hcl
          omega
      rw [Alone, Alone, hd]
      exact ⟨fun hsame _ => hfree hsame, fun hsame h => (h (hfree hsame.symm)).elim⟩
  · intro j k u v _ _ hjk hj hk
    exact hi.pair j k u v hjk hj hk

theorem step_inv (svc : Service) (l : Event) (p q : State) (hok : NoReclaim l p)
    (hi : Owned p ∧ Inv p) (hs : next svc l p = some q) : Owned q ∧ Inv q := by
  refine ⟨owned_step svc l p q hi.1 hs, ?_⟩
  cases l with
  | env e => exact env_inv svc e p q hi.1 hi.2 hs
  | act i io => exact act_inv svc i io p q hok hi.2 hs

theorem fetching_holds (pc : Pc) (h : Pc.isFetching pc = true) : Pc.holding pc ≠ none := by
  cases pc <;> simp [Pc.isFetching, Pc.holding] at h ⊢

theorem inv_single (p : State) (hi : Inv p) : SingleFlight p := by
  rintro id i j ⟨c, hc, hcd, hcf⟩ ⟨u, hu, hud, huf⟩
  by_contra hne
  exact fetching_holds u.pc huf
    (hi.pair i j c u hne hc hu (hcd.trans hud.symm) (fetching_holds c.pc hcf))

/-- No two fetches of a delivery overlap in a run without reclaims. -/
theorem single_flight (svc : Service) (now : Instant) (ls : List Event) (p : State)
    (hg : Guarded (next svc) NoReclaim ls (start now))
    (hr : run (next svc) ls (start now) = some p) : SingleFlight p :=
  inv_single p (run_invariant _ NoReclaim (fun p => Owned p ∧ Inv p) (step_inv svc) ls _ p hg
    ⟨owned_start now, holds_empty _ trivial⟩ hr).2

def retried : List Event :=
  [created, enqueued [1]]++posting 0++
  [answered 0 500 [], .act 0 .ok, .env (.tick 30000), .env (.reap 1 [1])]++posting 1

theorem retried_guarded : Guarded (next service) NoReclaim retried (start 0) := by
  decide +kernel

theorem single_flight_retried : ∃ p, run (next service) retried (start 0) = some p ∧
    SingleFlight p :=
  ⟨(run (next service) retried (start 0)).get (by decide +kernel), (Option.some_get _).symm,
    single_flight service 0 retried _ retried_guarded (Option.some_get _).symm⟩

/-- While the first fetch is in flight its row is still pending and due, so
the next reaper pass reads it, claims it and posts it a second time. -/
theorem reaper_reclaims :
    ¬ ∀ (svc : Service) (now : Instant) (ls : List Event) (p : State),
      run (next svc) ls (start now) = some p → SingleFlight p := by
  intro h
  have hs := h service 0 ([created, enqueued [1]]++posting 0++[.env (.reap 0 [1])]++posting 1) _ rfl
  have := hs [1] 0 1 ⟨_, rfl, rfl, rfl⟩ ⟨_, rfl, rfl, rfl⟩
  omega

end ControlPlane.DeliveryClaim
