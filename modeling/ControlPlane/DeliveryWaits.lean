import ControlPlane.DeliverySignatures
import ControlPlane.DeliveryProbe

/-!
# How long a delivery waits for the reaper

A row waits until its `next_retry_at`, which a call writes either after a
failed attempt or because the breaker refused one. Both instants lie a
bounded time after the clock of the call, and the write itself may come later
still, so in every state a row becomes due within that bound.
-/

set_option autoImplicit false

namespace ControlPlane.DeliveryWaits
open ControlPlane.JsText ControlPlane.JsValue ControlPlane.CircuitBreaker
open ControlPlane.RunMachine ControlPlane.ThreadPool ControlPlane.DeliveryMachine
open ControlPlane.DeliverySteps
open ControlPlane.RetryBackoff (nextRetryAt)

/-- A bound on the backoff of every attempt that is retried and on the time
for which a breaker defers a row, its jitter included. -/
structure Longest (svc : Service) (bound : ℤ) : Prop where
  backoff : ∀ n : ℕ, 1 ≤ n → (n : ℚ) < svc.retryAttempts →
    ∀ now t, nextRetryAt now n = some t → t ≤ now+bound
  probe : svc.breaker.resetTimeoutMs+30000 ≤ bound
  held : 90000 ≤ bound

def nextRetry : Outcome → Option Instant
  | .deferred _ t => some t
  | .retry _ _ _ t => some t
  | _ => none

structure WaitingWorld (bound : ℤ) (w : World) : Prop where
  rows : ∀ id d t, w.deliveries id = some d → d.nextRetryAt = some t → t ≤ w.now+bound
  opened : ∀ p h t, (w.breakers p h).openedAt = some t → t ≤ w.now

def WaitingCall (bound : ℤ) (w : World) (c : Call) : Prop :=
  ∀ o t, c.pc = .settle o → nextRetry o = some t → t ≤ w.now+bound

abbrev Waiting (bound : ℤ) (p : State) : Prop :=
  Holds (WaitingWorld bound) (WaitingCall bound) (fun _ _ _ => True) p

variable {svc : Service} {bound : ℤ}

theorem apply_nextRetryAt (o : Outcome) (d : Delivery) (t : Instant)
    (h : (o.apply d).nextRetryAt = some t) : nextRetry o = some t ∨ d.nextRetryAt = some t := by
  cases o with
  | inactive => exact Or.inr h
  | deferred state u => exact Or.inl h
  | retry a code error u => exact Or.inl h
  | _ => cases h

theorem failPending_nextRetryAt (h : WebhookId) (d : Delivery) (t : Instant)
    (ht : (failPending h d).nextRetryAt = some t) : d.nextRetryAt = some t := by
  simp only [failPending] at ht
  split_ifs at ht
  exact ht

theorem isoOf_some (t u : Instant) (h : isoOf t = some u) : u = t := by
  simp only [isoOf] at h
  split_ifs at h
  exact (Option.some.inj h).symm

theorem conclude_nextRetry (hb : Longest svc bound) (now : Instant) (a : Attempt) (ans : Answer)
    (o : Outcome) (t : Instant) (h : conclude svc now a ans = some o)
    (ht : nextRetry o = some t) : t ≤ now+bound := by
  simp only [conclude] at h
  split_ifs at h with hok hgone hlast
  · rw [Option.some.injEq] at h
    subst h
    cases ht
  · rw [Option.some.injEq] at h
    subst h
    cases ht
  · rw [Option.some.injEq] at h
    subst h
    cases ht
  · obtain ⟨u, hu, rfl⟩ := Option.map_eq_some_iff.mp h
    obtain rfl : u = t := Option.some.inj ht
    exact hb.backoff a.attempts (Nat.succ_pos _) (not_le.mp hlast) now u hu

theorem deferred_bound (hb : Longest svc bound) (now : Instant) (e : BreakerEntry) (ms : ℕ)
    (hms : ms < 30000) (ho : ∀ t, e.openedAt = some t → t ≤ now) :
    (nextProbeAt svc.breaker e).getD (now+60000)+ms ≤ now+bound := by
  have hprobe := hb.probe
  have hheld := hb.held
  have hm : (ms : ℤ) < 30000 := by exact_mod_cast hms
  cases hn : nextProbeAt svc.breaker e with
  | none =>
    rw [Option.getD_none]
    linarith
  | some u =>
    simp only [nextProbeAt] at hn
    split_ifs at hn
    obtain ⟨t, ht, rfl⟩ := Option.map_eq_some_iff.mp hn
    have hle := ho t ht
    rw [Option.getD_some]
    linarith

theorem record_opened (cfg : BreakerConfig) (now : Instant) (o : AttemptOutcome)
    (e : BreakerEntry) (t : Instant) (h : (record cfg now o e).openedAt = some t) :
    t = now ∨ e.openedAt = some t := by
  cases o with
  | success =>
    simp only [record, recordSuccess] at h
    split_ifs at h
    · exact Or.inr h
    · exact Or.inr h
  | failure =>
    simp only [record, recordFailure] at h
    split_ifs at h
    · exact Or.inl (Option.some.inj h).symm
    · exact Or.inr h
  | gone => cases h

theorem shouldAttempt_opened (cfg : BreakerConfig) (now : Instant) (e : BreakerEntry) :
    (shouldAttempt cfg now e).2.openedAt = e.openedAt := by
  rcases shouldAttempt_cases cfg now e with ⟨_, hc⟩ | ⟨_, _, hc⟩ | ⟨_, hc⟩ <;> rw [hc]

theorem opened_move {w w' : World} {c c' : Call} {io : Io} (h : Move svc w c io w' c')
    (ho : ∀ p k t, (w.breakers p k).openedAt = some t → t ≤ w.now) (p : Proc) (k : WebhookId)
    (t : Instant) (ht : (w'.breakers p k).openedAt = some t) : t ≤ w.now := by
  rcases DeliveryProbe.breaker_move h p k with hb | ⟨a, _, o, _, _, _, hb⟩ | ⟨a, _, hb, _⟩
  · exact ho p k t (hb ▸ ht)
  · rw [hb] at ht
    rcases record_opened _ _ _ _ _ ht with rfl | hold
    · exact le_rfl
    · exact ho p k t hold
  · rw [hb, shouldAttempt_opened] at ht
    exact ho p k t ht

theorem waiting_move (hb : Longest svc bound) {w w' : World} {c c' : Call} {io : Io}
    (ha : act svc io w c = some (w', c')) (hw : WaitingWorld bound w) :
    WaitingCall bound w' c' := by
  have h := act_move svc io w w' c c' ha
  intro o t hpc ht
  rw [move_now h]
  cases h with
  | stop _ | lose _ _ _ | throw _ _ | audit _ _ | claim _ _ _ _ _ _ | post _ _
  | redirect _ _ _ _ _ => cases hpc
  | refuse a message _ =>
    obtain rfl : Outcome.unsafeTarget a message = o := by simpa using hpc
    cases ht
  | read _ =>
    simp only [readRowStep] at hpc
    split at hpc
    · cases hpc
    · split_ifs at hpc <;> cases hpc
  | find d _ =>
    simp only [readWebhookStep] at hpc
    split at hpc
    · obtain rfl : Outcome.inactive = o := by simpa using hpc
      cases ht
    · split_ifs at hpc
      · cases hpc
      · obtain rfl : Outcome.inactive = o := by simpa using hpc
        cases ht
  | ask a ms hask =>
    have hms : ms < 30000 := by
      by_contra hn
      simp [act, hask, hn] at ha
    simp only [askStep] at hpc
    split_ifs at hpc
    · cases hpc
    · split at hpc
      · rename_i u hu
        obtain rfl := (Pc.settle.inj hpc).symm
        obtain rfl : u = t := Option.some.inj ht
        rw [isoOf_some _ _ hu]
        apply deferred_bound hb w.now _ ms hms
        intro v hv
        rw [shouldAttempt_opened] at hv
        exact hw.opened _ _ v hv
      · cases hpc
  | answer a hops ans _ =>
    simp only [answerStep, to_pc] at hpc
    cases hcon : conclude svc w.now a ans with
    | none => simp [hcon] at hpc
    | some r =>
      obtain rfl : r = o := by simpa [hcon] using hpc
      exact conclude_nextRetry hb w.now a ans r t hcon ht
  | settle r _ _ => cases r <;> cases hpc
  | disable a _ =>
    simp only [disableStep] at hpc
    split_ifs at hpc <;> cases hpc
  | sweep a b _ => cases b <;> cases hpc

theorem waitingWorld_move {w w' : World} {c c' : Call} {io : Io} (h : Move svc w c io w' c')
    (hw : WaitingWorld bound w) (hc : WaitingCall bound w c) : WaitingWorld bound w' := by
  constructor
  · intro id d' t hd' ht
    rw [move_now h]
    obtain ⟨d, hd, hcases⟩ := row_move h id d' hd'
    rcases hcases with rfl | ⟨a, _, _, _, _, rfl⟩ | ⟨o, hpc, _, _, rfl⟩ | ⟨a, b, _, _, rfl⟩
    · exact hw.rows id d' t hd ht
    · exact hw.rows id d t hd ht
    · rcases apply_nextRetryAt o d t ht with hnew | hold
      · exact hc o t hpc hnew
      · exact hw.rows id d t hd hold
    · exact hw.rows id d t hd (failPending_nextRetryAt _ d t ht)
  · rw [move_now h]
    exact opened_move h hw.opened

theorem env_now (e : Env) (w w' : World) (o : Option Call) (h : env svc e w = some (w', o)) :
    w.now ≤ w'.now := by
  cases e with
  | tick ms =>
    simp only [env, Option.some.injEq, Prod.mk.injEq] at h
    obtain ⟨rfl, _⟩ := h
    exact le_add_of_nonneg_right (Int.natCast_nonneg ms)
  | createWebhook id r | enqueue proc id hook candidate eventType payload | timer t | reap p id =>
    simp only [env] at h
    split_ifs at h
    simp only [Option.some.injEq, Prod.mk.injEq] at h
    obtain ⟨rfl, _⟩ := h
    exact le_rfl
  | updateWebhook id p | deleteWebhook id | resetBreaker p id | attempt p id | purge id =>
    simp only [env, Option.some.injEq, Prod.mk.injEq] at h
    obtain ⟨rfl, _⟩ := h
    exact le_rfl

theorem env_nextRetryAt (e : Env) (w w' : World) (o : Option Call)
    (h : env svc e w = some (w', o)) (id : DeliveryId) (d : Delivery)
    (hd : w'.deliveries id = some d) : w.deliveries id = some d ∨ d.nextRetryAt = none := by
  rcases DeliverySignatures.env_rows e w w' o h with hrows | ⟨_, id', k, candidate, t, v, rfl⟩
  · exact Or.inl (hrows id d hd)
  · simp only [env] at h
    split_ifs at h
    simp only [Option.some.injEq, Prod.mk.injEq] at h
    obtain ⟨rfl, _⟩ := h
    by_cases hid : id = id'
    · subst hid
      simp only [Function.update_self, Option.some.injEq] at hd
      subst hd
      exact Or.inr rfl
    · simp only [ne_eq, hid, not_false_eq_true, Function.update_of_ne] at hd
      exact Or.inl hd

theorem waiting_step (hb : Longest svc bound) (l : Event) (p q : State) (hi : Waiting bound p)
    (hs : next svc l p = some q) : Waiting bound q := by
  cases l with
  | env e =>
    obtain ⟨w, o, he, rfl⟩ := (step_env_some _ _ _ _).mp hs
    have hnow := env_now e _ _ _ he
    have heffect := env_effect svc e _ _ _ he
    apply holds_env p w o ?_ ?_ ?_ (by simp) (by simp)
    · constructor
      · intro id d t hd ht
        rcases env_nextRetryAt e _ _ _ he id d hd with hold | hnone
        · exact (hi.world.rows id d t hold ht).trans (Int.add_le_add_right hnow bound)
        · simp [hnone] at ht
      · intro r k t ht
        rcases heffect.breakers r k with hsame | hfresh
        · exact (hi.world.opened r k t (hsame ▸ ht)).trans hnow
        · simp [hfresh, fresh] at ht
    · intro j c hj r t hpc ht
      exact (hi.thread j c hj r t hpc ht).trans (Int.add_le_add_right hnow bound)
    · intro c hc r t hpc
      simp [heffect.started c hc] at hpc
  | act i io =>
    obtain ⟨c, w, c', hc, ha, rfl⟩ := (step_act_some _ _ _ _ _).mp hs
    have hm := act_move svc io _ _ _ _ ha
    apply holds_act p i c' w (waitingWorld_move hm hi.world (hi.thread i c hc))
      (waiting_move hb ha hi.world) ?_ (by simp) (by simp)
    intro j u _ hj o t hpc ht
    rw [move_now hm]
    exact hi.thread j u hj o t hpc ht

theorem waiting_start (now : Instant) : Waiting bound (start now) := by
  apply holds_empty
  constructor
  · intro id d t h
    cases h
  · intro p h t ht
    cases ht

theorem waiting_run (hb : Longest svc bound) (ls : List Event) (p q : State)
    (hi : Waiting bound p) (hr : run (next svc) ls p = some q) : Waiting bound q :=
  run_invariant _ (fun _ _ => True) (Waiting bound) (fun l s t _ => waiting_step hb l s t) ls p q
    (guarded_true _ ls p) hi hr

theorem waiting_due (p : State) (hi : Waiting bound p) (id : DeliveryId) (d : Delivery)
    (hd : p.world.deliveries id = some d) (hs : d.status = .pending) (now : Instant)
    (hnow : p.world.now+bound ≤ now) : due now d = true := by
  simp only [due, decide_eq_true_eq]
  constructor
  · exact hs
  · intro t ht
    exact (hi.world.rows id d t hd ht).trans hnow

end ControlPlane.DeliveryWaits
