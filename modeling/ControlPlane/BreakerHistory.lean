import Mathlib.Data.List.Induction
import Mathlib.Logic.Function.Basic
import ControlPlane.CircuitBreaker

/-!
# What a breaker knows of its history

The breakers of all webhooks share one map. The entry of a webhook depends on
its own calls only. A closed one counts the failures since the last call that
ends a row of failures, and an open one remembers the failure that opened it.
-/

set_option autoImplicit false

namespace ControlPlane.BreakerHistory
open ControlPlane.JsText ControlPlane.JsValue ControlPlane.CircuitBreaker

inductive Op where
  | shouldAttempt
  | recordSuccess
  | recordFailure
  | reset
  deriving DecidableEq, Repr

structure Call where
  webhookId : Text
  instant : Instant
  op : Op

abbrev States := Text → Option BreakerEntry

def entry (states : States) (webhookId : Text) : BreakerEntry := (states webhookId).getD fresh

def perform (cfg : BreakerConfig) (c : Call) (e : BreakerEntry) : BreakerEntry :=
  match c.op with
  | .shouldAttempt => (shouldAttempt cfg c.instant e).2
  | .recordSuccess => recordSuccess cfg e
  | .recordFailure => recordFailure cfg c.instant e
  | .reset => fresh

def call (cfg : BreakerConfig) (states : States) (c : Call) : States :=
  Function.update states c.webhookId (some (perform cfg c (entry states c.webhookId)))

def after (cfg : BreakerConfig) (calls : List Call) : States :=
  calls.foldl (call cfg) (fun _ => none)

structure BreakerSnapshot where
  state : BreakerState
  failures : ℕ
  consecutiveSuccesses : ℕ
  openedAt : Option Instant
  nextProbeAt : Option Instant

def getSnapshot (cfg : BreakerConfig) (states : States) (webhookId : Text) : BreakerSnapshot :=
  let e := entry states webhookId
  ⟨e.state, e.failures, e.consecutiveSuccesses, e.openedAt, nextProbeAt cfg e⟩

def callsOf (webhookId : Text) (calls : List Call) : List Call :=
  calls.filter (·.webhookId = webhookId)

def endsRow (c : Call) : Bool := c.op = .recordSuccess || c.op = .reset

def consecutiveFailures (calls : List Call) : ℕ :=
  (calls.reverse.takeWhile (fun c => !endsRow c)).countP (·.op = .recordFailure)

/-- What the entry says about the calls of its webhook. -/
structure Kept (cfg : BreakerConfig) (calls : List Call) (e : BreakerEntry) : Prop where
  closed : e.state = .closed → e.openedAt = none ∧ e.probeInFlight = false ∧
    e.failures = consecutiveFailures calls ∧ e.failures < cfg.failureThreshold
  opened : e.state = .isOpen → e.probeInFlight = false ∧
    ∃ c ∈ calls, c.op = .recordFailure ∧ e.openedAt = some c.instant

theorem consecutive_snoc (calls : List Call) (c : Call) :
    consecutiveFailures (calls++[c]) = if endsRow c then 0
      else if c.op = .recordFailure then consecutiveFailures calls+1
      else consecutiveFailures calls := by
  simp only [consecutiveFailures, List.reverse_append, List.reverse_singleton,
    List.singleton_append, List.takeWhile_cons]
  cases endsRow c with
  | true => simp
  | false =>
    by_cases hf : c.op = .recordFailure
    · simp [hf]
    · simp [hf]

theorem callsOf_snoc (webhookId : Text) (calls : List Call) (c : Call) :
    callsOf webhookId (calls++[c]) =
      if c.webhookId = webhookId then callsOf webhookId calls++[c]
      else callsOf webhookId calls := by
  by_cases h : c.webhookId = webhookId
  · simp [callsOf, h]
  · simp [callsOf, h]

section Webhook
variable (cfg : BreakerConfig) (webhookId : Text)

theorem entry_snoc (calls : List Call) (c : Call) :
    entry (after cfg (calls++[c])) webhookId =
      if c.webhookId = webhookId then perform cfg c (entry (after cfg calls) webhookId)
      else entry (after cfg calls) webhookId := by
  have hafter : after cfg (calls++[c]) = call cfg (after cfg calls) c := by
    simp [after]
  rw [hafter]
  by_cases h : c.webhookId = webhookId
  · subst h
    simp [entry, call]
  · have hne : webhookId ≠ c.webhookId := fun heq => h heq.symm
    simp [entry, call, h, hne]

theorem fresh_kept (h : 1 ≤ cfg.failureThreshold) : Kept cfg [] fresh := by
  constructor
  · intro _
    refine ⟨rfl, rfl, rfl, ?_⟩
    show ((0 : ℕ) : ℤ) < cfg.failureThreshold
    omega
  · intro hopen
    cases hopen

variable {cfg} (calls : List Call) (e : BreakerEntry) (c : Call)

theorem opened_snoc (h : Kept cfg calls e) (hopen : e.state = .isOpen) :
    ∃ c' ∈ calls++[c], c'.op = .recordFailure ∧ e.openedAt = some c'.instant := by
  obtain ⟨-, c', hc', hfailure, hopened⟩ := h.opened hopen
  exact ⟨c', List.mem_append_left _ hc', hfailure, hopened⟩

theorem attempt_kept (h : Kept cfg calls e) (hop : c.op = .shouldAttempt) :
    Kept cfg (calls++[c]) (shouldAttempt cfg c.instant e).2 := by
  have hcount : consecutiveFailures (calls++[c]) = consecutiveFailures calls := by
    rw [consecutive_snoc]
    simp [endsRow, hop]
  have hsame : Kept cfg (calls++[c]) e := by
    constructor
    · rw [hcount]
      exact h.closed
    · exact fun hopen => ⟨(h.opened hopen).1, opened_snoc calls e c h hopen⟩
  rcases shouldAttempt_cases cfg c.instant e with ⟨-, ha⟩ | ⟨-, -, ha⟩ | ⟨-, ha⟩
  · rw [ha]
    exact hsame
  · rw [ha]
    constructor
    · intro hclosed
      cases hclosed
    · intro hopen
      cases hopen
  · rw [ha]
    exact hsame

theorem success_kept (ht : 1 ≤ cfg.failureThreshold) (h : Kept cfg calls e)
    (hop : c.op = .recordSuccess) : Kept cfg (calls++[c]) (recordSuccess cfg e) := by
  have hcount : consecutiveFailures (calls++[c]) = 0 := by
    rw [consecutive_snoc]
    simp [endsRow, hop]
  have hzero : ((0 : ℕ) : ℤ) < cfg.failureThreshold := by omega
  unfold recordSuccess
  split_ifs with hhalf hclose
  · constructor
    · exact fun _ => ⟨rfl, rfl, hcount.symm, hzero⟩
    · intro hopen
      cases hopen
  · constructor
    · intro hclosed
      rw [show e.state = .closed from hclosed] at hhalf
      cases hhalf
    · intro hopen
      rw [show e.state = .isOpen from hopen] at hhalf
      cases hhalf
  · constructor
    · exact fun hclosed => ⟨(h.closed hclosed).1, rfl, hcount.symm, hzero⟩
    · exact fun hopen => ⟨rfl, opened_snoc calls e c h hopen⟩

theorem failure_kept (h : Kept cfg calls e) (hop : c.op = .recordFailure) :
    Kept cfg (calls++[c]) (recordFailure cfg c.instant e) := by
  have hcount : consecutiveFailures (calls++[c]) = consecutiveFailures calls+1 := by
    rw [consecutive_snoc]
    simp [endsRow, hop]
  unfold recordFailure
  simp only
  split_ifs with hopens
  · constructor
    · intro hclosed
      cases hclosed
    · exact fun _ => ⟨rfl, c, by simp, hop, rfl⟩
  · rw [not_or, not_and, not_le] at hopens
    constructor
    · intro hclosed
      obtain ⟨hopened, -, hfailures, -⟩ := h.closed hclosed
      refine ⟨hopened, rfl, ?_, ?_⟩
      · rw [hcount, ← hfailures]
      · exact_mod_cast hopens.1 hclosed
    · exact fun hopen => ⟨rfl, opened_snoc calls e c h hopen⟩

theorem perform_kept (ht : 1 ≤ cfg.failureThreshold) (h : Kept cfg calls e) :
    Kept cfg (calls++[c]) (perform cfg c e) := by
  unfold perform
  split
  · next hop => exact attempt_kept calls e c h hop
  · next hop => exact success_kept calls e c ht h hop
  · next hop => exact failure_kept calls e c h hop
  · next hop =>
    have hcount : consecutiveFailures (calls++[c]) = 0 := by
      rw [consecutive_snoc]
      simp [endsRow, hop]
    have hfresh := (fresh_kept cfg ht).closed rfl
    constructor
    · exact fun _ => ⟨hfresh.1, hfresh.2.1, hcount.symm, hfresh.2.2.2⟩
    · intro hopen
      cases hopen

theorem entry_kept (ht : 1 ≤ cfg.failureThreshold) (all : List Call) :
    Kept cfg (callsOf webhookId all) (entry (after cfg all) webhookId) := by
  induction all using List.reverseRecOn with
  | nil => exact fresh_kept cfg ht
  | append_singleton all c ih =>
    rw [callsOf_snoc, entry_snoc]
    split_ifs with hid
    · exact perform_kept _ _ c ht ih
    · exact ih

theorem opens_iff (h : Kept cfg calls e) (hclosed : e.state = .closed) :
    (perform cfg c e).state = .isOpen ↔ c.op = .recordFailure ∧
      (consecutiveFailures calls+1 : ℤ) = cfg.failureThreshold := by
  obtain ⟨-, -, hfailures, hbelow⟩ := h.closed hclosed
  rw [hfailures] at hbelow
  unfold perform
  split
  · next hop => simp [shouldAttempt, hclosed, hop]
  · next hop => simp [recordSuccess, hclosed, hop]
  · next hop =>
    simp only [recordFailure, hclosed, true_and, reduceCtorEq, or_false, hop, hfailures]
    by_cases hreached : cfg.failureThreshold ≤ consecutiveFailures calls+1
    · rw [if_pos hreached]
      simp only [true_iff]
      omega
    · rw [if_neg hreached]
      simp only [reduceCtorEq, false_iff]
      omega
  · next hop => simp [fresh, hop]

theorem refused_iff (now t : Instant) (hopen : e.state = .isOpen) (ho : e.openedAt = some t) :
    (shouldAttempt cfg now e).1 = false ↔ now-t < cfg.resetTimeoutMs := by
  have helapsed : resetElapsed cfg now e = decide (cfg.resetTimeoutMs ≤ now-t) := by
    rw [resetElapsed, ho]
  by_cases h : cfg.resetTimeoutMs ≤ now-t
  · simp [shouldAttempt, hopen, helapsed, h]
  · simp [shouldAttempt, hopen, helapsed, h, not_le.mp h]

end Webhook

theorem breaker_refines_history (cfg : BreakerConfig) (ht : 1 ≤ cfg.failureThreshold)
    (calls : List Call) (webhookId : Text) :
    Kept cfg (callsOf webhookId calls) (entry (after cfg calls) webhookId) ∧
    (∀ c, c.webhookId = webhookId → (entry (after cfg calls) webhookId).state = .closed →
      ((entry (after cfg (calls++[c])) webhookId).state = .isOpen ↔ c.op = .recordFailure ∧
        (consecutiveFailures (callsOf webhookId calls)+1 : ℤ) = cfg.failureThreshold)) ∧
    ((entry (after cfg calls) webhookId).state = .isOpen →
      ∃ t, (entry (after cfg calls) webhookId).openedAt = some t ∧
        (getSnapshot cfg (after cfg calls) webhookId).nextProbeAt =
          some (t+cfg.resetTimeoutMs) ∧
        ∀ now, (shouldAttempt cfg now (entry (after cfg calls) webhookId)).1 = false ↔
          now-t < cfg.resetTimeoutMs) := by
  have hkept := entry_kept webhookId ht calls
  constructor
  · exact hkept
  constructor
  · intro c hid hclosed
    rw [entry_snoc, if_pos hid]
    exact opens_iff _ _ c hkept hclosed
  · intro hopen
    obtain ⟨-, c, -, -, ho⟩ := hkept.opened hopen
    refine ⟨c.instant, ho, ?_, fun now => refused_iff _ now c.instant hopen ho⟩
    simp [getSnapshot, nextProbeAt, hopen, ho]

def flaky : List Call :=
  [⟨js "w", 0, .recordFailure⟩, ⟨js "v", 1, .recordSuccess⟩, ⟨js "w", 2, .recordFailure⟩]

theorem breaker_flaky :
    ((entry (after ⟨3, 60000, 1⟩ (flaky++[⟨js "w", 5, .recordFailure⟩])) (js "w")).state =
      .isOpen ↔ Op.recordFailure = .recordFailure ∧
        (consecutiveFailures (callsOf (js "w") flaky)+1 : ℤ) = 3) :=
  (breaker_refines_history ⟨3, 60000, 1⟩ (by decide) flaky (js "w")).2.1
    ⟨js "w", 5, .recordFailure⟩ rfl (by decide)

end ControlPlane.BreakerHistory
