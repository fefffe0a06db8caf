import ControlPlane.JsValue

/-!
# The circuit breaker of one webhook

The entry and the four methods that decide about attempts and learn from
their outcomes. A method reads the clock and the configuration and returns
the new entry; nothing in an outcome says which attempt it belongs to.
-/

set_option autoImplicit false

namespace ControlPlane.CircuitBreaker
open ControlPlane.JsText ControlPlane.JsValue

inductive BreakerState where
  | closed
  | isOpen
  | halfOpen
  deriving DecidableEq, Repr

def BreakerState.text : BreakerState → Text
  | .closed => js "closed"
  | .isOpen => js "open"
  | .halfOpen => js "half_open"

structure BreakerConfig where
  failureThreshold : ℤ
  resetTimeoutMs : ℤ
  successThresholdToClose : ℤ
  deriving DecidableEq, Repr

def defaultConfig : BreakerConfig := ⟨5, 60000, 1⟩

structure BreakerEntry where
  state : BreakerState
  failures : ℕ
  consecutiveSuccesses : ℕ
  openedAt : Option Instant
  probeInFlight : Bool
  deriving DecidableEq, Repr

/-- What `entry` creates on first use and `reset` stores. -/
def fresh : BreakerEntry := ⟨.closed, 0, 0, none, false⟩

def resetElapsed (cfg : BreakerConfig) (now : Instant) (e : BreakerEntry) : Bool :=
  match e.openedAt with
  | some t => cfg.resetTimeoutMs ≤ now-t
  | none => false

def shouldAttempt (cfg : BreakerConfig) (now : Instant) (e : BreakerEntry) : Bool × BreakerEntry :=
  match e.state with
  | .closed => (true, e)
  | .isOpen =>
    if resetElapsed cfg now e then (true, { e with state := .halfOpen, probeInFlight := true })
    else (false, e)
  | .halfOpen => if e.probeInFlight then (false, e) else (true, { e with probeInFlight := true })

def recordSuccess (cfg : BreakerConfig) (e : BreakerEntry) : BreakerEntry :=
  if e.state = .halfOpen then
    if cfg.successThresholdToClose ≤ e.consecutiveSuccesses+1 then
      { e with
        state := .closed, failures := 0, openedAt := none, probeInFlight := false
        consecutiveSuccesses := e.consecutiveSuccesses+1 }
    else { e with probeInFlight := false, consecutiveSuccesses := e.consecutiveSuccesses+1 }
  else { e with probeInFlight := false, failures := 0, consecutiveSuccesses := 0 }

def recordFailure (cfg : BreakerConfig) (now : Instant) (e : BreakerEntry) : BreakerEntry :=
  let failed := { e with
    probeInFlight := false, consecutiveSuccesses := 0, failures := e.failures+1 }
  if e.state = .closed ∧ cfg.failureThreshold ≤ e.failures+1 ∨ e.state = .halfOpen then
    { failed with state := .isOpen, openedAt := some now }
  else failed

def nextProbeAt (cfg : BreakerConfig) (e : BreakerEntry) : Option Instant :=
  if e.state = .isOpen then e.openedAt.map (fun t => t+cfg.resetTimeoutMs) else none

inductive AttemptOutcome where
  | success
  | failure
  | gone
  deriving DecidableEq, Repr

/-- The breaker call an attempt ends with: a 410 answer resets. -/
def record (cfg : BreakerConfig) (now : Instant) (o : AttemptOutcome) (e : BreakerEntry) :
    BreakerEntry :=
  match o with
  | .success => recordSuccess cfg e
  | .failure => recordFailure cfg now e
  | .gone => fresh

@[simp] theorem record_probe (cfg : BreakerConfig) (now : Instant) (o : AttemptOutcome)
    (e : BreakerEntry) : (record cfg now o e).probeInFlight = false := by
  cases o with
  | success => simp only [record, recordSuccess]; split_ifs <;> rfl
  | failure => simp only [record, recordFailure]; split_ifs <;> rfl
  | gone => rfl

theorem record_not_opened (cfg : BreakerConfig) (now : Instant) (o : AttemptOutcome)
    (e : BreakerEntry) (h : (record cfg now o e).state = .halfOpen) : e.state = .halfOpen := by
  cases o with
  | success =>
    simp only [record, recordSuccess] at h
    split_ifs at h with h1 h2
    · exact h1
    · exact h
  | failure =>
    simp only [record, recordFailure] at h
    split_ifs at h with h1
    exact h
  | gone => simp [record, fresh] at h

theorem shouldAttempt_cases (cfg : BreakerConfig) (now : Instant) (e : BreakerEntry) :
    (e.state = .closed ∧ shouldAttempt cfg now e = (true, e)) ∨
    (e.state ≠ .closed ∧ (e.state = .halfOpen → e.probeInFlight = false) ∧
      shouldAttempt cfg now e = (true, { e with state := .halfOpen, probeInFlight := true })) ∨
    (e.state ≠ .closed ∧ shouldAttempt cfg now e = (false, e)) := by
  cases hs : e.state with
  | closed => exact Or.inl ⟨rfl, by simp [shouldAttempt, hs]⟩
  | isOpen =>
    by_cases hr : resetElapsed cfg now e = true
    · exact Or.inr (Or.inl ⟨by simp, by simp, by simp [shouldAttempt, hs, hr]⟩)
    · exact Or.inr (Or.inr ⟨by simp, by simp [shouldAttempt, hs, hr]⟩)
  | halfOpen =>
    by_cases hp : e.probeInFlight = true
    · exact Or.inr (Or.inr ⟨by simp, by simp [shouldAttempt, hs, hp]⟩)
    · refine Or.inr (Or.inl ⟨by simp, by simpa using hp, ?_⟩)
      rw [Bool.not_eq_true] at hp
      simp [shouldAttempt, hs, hp]

def Dated (e : BreakerEntry) : Prop := e.state = .isOpen → e.openedAt ≠ none

theorem fresh_dated : Dated fresh := by simp [Dated, fresh]

theorem record_dated (cfg : BreakerConfig) (now : Instant) (o : AttemptOutcome)
    (e : BreakerEntry) (h : Dated e) : Dated (record cfg now o e) := by
  cases o with
  | success =>
    simp only [record, recordSuccess, Dated]
    split_ifs with h1 h2
    · simp
    · simp [h1]
    · exact h
  | failure =>
    simp only [record, recordFailure, Dated]
    split_ifs with h1
    · simp
    · exact h
  | gone => exact fresh_dated

theorem shouldAttempt_dated (cfg : BreakerConfig) (now : Instant) (e : BreakerEntry)
    (h : Dated e) : Dated (shouldAttempt cfg now e).2 := by
  rcases shouldAttempt_cases cfg now e with ⟨_, hc⟩ | ⟨_, _, hc⟩ | ⟨_, hc⟩ <;> rw [hc]
  · exact h
  · simp [Dated]
  · exact h

theorem shouldAttempt_free (cfg : BreakerConfig) (now : Instant) (e : BreakerEntry)
    (hd : Dated e) (hp : e.probeInFlight = false)
    (ht : ∀ t, e.openedAt = some t → cfg.resetTimeoutMs ≤ now-t) :
    (shouldAttempt cfg now e).1 = true := by
  cases hs : e.state with
  | closed => simp [shouldAttempt, hs]
  | isOpen =>
    obtain ⟨t, ho⟩ := Option.ne_none_iff_exists'.mp (hd hs)
    simp [shouldAttempt, hs, resetElapsed, ho, ht t ho]
  | halfOpen => simp [shouldAttempt, hs, hp]

end ControlPlane.CircuitBreaker
