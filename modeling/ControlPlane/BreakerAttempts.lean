import ControlPlane.CircuitBreaker
import ControlPlane.ThreadPool

/-!
# Concurrent attempts through one breaker

An attempt is admitted by `shouldAttempt` and later reports one outcome. Any
number of attempts overlap, the clock advances at any time and an operator may
reset. The half-open periods are counted, and a flight remembers whether it
was admitted as a probe and in which period; the breaker itself does not.
-/

set_option autoImplicit false

namespace ControlPlane.BreakerAttempts
open ControlPlane.CircuitBreaker ControlPlane.JsValue
open ControlPlane.RunMachine ControlPlane.ThreadPool

structure Clocked where
  now : Instant
  entry : BreakerEntry
  period : ℕ
  deriving DecidableEq, Repr

inductive Flight where
  | flying (probe : Bool) (period : ℕ)
  | landed
  deriving DecidableEq, Repr

inductive Change where
  | tick (ms : ℕ)
  | reset
  | ask
  deriving DecidableEq, Repr

/-- `shouldAttempt` moves an open breaker to half open, and with that begins
a new period. -/
def beginsPeriod (cfg : BreakerConfig) (w : Clocked) : Bool :=
  w.entry.state = .isOpen ∧ (shouldAttempt cfg w.now w.entry).1

def change (cfg : BreakerConfig) : Change → Clocked → Option (Clocked × Option Flight)
  | .tick ms, w => some ({ w with now := w.now+ms }, none)
  | .reset, w => some ({ w with entry := fresh }, none)
  | .ask, w =>
    let r := shouldAttempt cfg w.now w.entry
    let period := if beginsPeriod cfg w then w.period+1 else w.period
    some ({ w with entry := r.2, period := period },
      if r.1 then some (.flying (decide (r.2.state = .halfOpen)) period) else none)

def land (cfg : BreakerConfig) (o : AttemptOutcome) (w : Clocked) :
    Flight → Option (Clocked × Flight)
  | .flying _ _ => some ({ w with entry := record cfg w.now o w.entry }, .landed)
  | .landed => none

def attempts (cfg : BreakerConfig) : System Clocked Flight Change AttemptOutcome :=
  ⟨change cfg, land cfg⟩

abbrev Sky := Pool Clocked Flight

abbrev Event := Label Change AttemptOutcome

def start (now : Instant) : Sky := ⟨⟨now, fresh, 0⟩, []⟩

def Flight.isProbe : Flight → Bool
  | .flying probe _ => probe
  | .landed => false

def Flight.stale (w : Clocked) : Flight → Bool
  | .flying _ n => n ≠ w.period
  | .landed => false

abbrev HalfOpen (p : Sky) : Prop := p.world.entry.state = .halfOpen

abbrev Probing (p : Sky) (j : ℕ) : Prop := ∃ t ∈ p.threads[j]?, t.isProbe

def OneProbe (p : Sky) : Prop := HalfOpen p → ∀ j k, Probing p j → Probing p k → j = k

abbrev Settles (p q : Sky) : Prop :=
  ¬ HalfOpen q ∨ p.world.entry.probeInFlight = true ∧ q.world.entry.probeInFlight = false

/-- The step that closes or reopens a half-open breaker or releases its probe
is a probe's outcome or a reset. -/
def OwnOutcome (l : Event) (p q : Sky) : Prop :=
  HalfOpen p → Settles p q → l = .env .reset ∨ ∃ i o, l = .act i o ∧ Probing p i

/-- No outcome reported in a half-open period is that of an attempt admitted
before it, and a period begins with no probe of an earlier one in flight. -/
def Timely (cfg : BreakerConfig) : Event → Sky → Prop
  | .act i _, p => HalfOpen p → At p i (fun t => t.stale p.world = false)
  | .env .ask, p => beginsPeriod cfg p.world = true → ∀ t ∈ p.threads, t.isProbe = false
  | .env _, _ => True

instance (cfg : BreakerConfig) : ∀ (l : Event) (p : Sky), Decidable (Timely cfg l p)
  | .act i _, p => inferInstanceAs (Decidable (HalfOpen p → At p i _))
  | .env .ask, p => inferInstanceAs (Decidable (beginsPeriod cfg p.world = true → _))
  | .env (.tick _), _ | .env .reset, _ => isTrue trivial

def Known (w : Clocked) (t : Flight) : Prop :=
  match t with
  | .flying probe n => n ≤ w.period ∧
      (w.entry.state = .halfOpen → n = w.period → probe = true) ∧
      (w.entry.state = .halfOpen → probe = true → w.entry.probeInFlight = true)
  | .landed => True

def Apart (w : Clocked) (t u : Flight) : Prop :=
  w.entry.state = .halfOpen → t.isProbe = true → u.isProbe = false

abbrev Inv (p : Sky) : Prop := Holds (fun _ => True) Known Apart p

theorem no_probe_free (p : Sky) (hi : Inv p) (hh : HalfOpen p)
    (hf : p.world.entry.probeInFlight = false) (j : ℕ) (t : Flight)
    (hj : p.threads[j]? = some t) : t.isProbe = false := by
  have hk := hi.thread j t hj
  cases t with
  | landed => rfl
  | flying probe n =>
    cases probe with
    | false => rfl
    | true => simp [hk.2.2 hh rfl] at hf

theorem open_ask (cfg : BreakerConfig) (w : Clocked) (hst : w.entry.state = .isOpen)
    (ha : shouldAttempt cfg w.now w.entry =
      (true, { w.entry with state := .halfOpen, probeInFlight := true })) :
    change cfg .ask w = some (⟨w.now, { w.entry with state := .halfOpen, probeInFlight := true },
      w.period+1⟩, some (.flying true (w.period+1))) := by
  simp [change, beginsPeriod, hst, ha]

theorem halfOpen_ask (cfg : BreakerConfig) (w : Clocked) (hst : w.entry.state = .halfOpen)
    (ha : shouldAttempt cfg w.now w.entry =
      (true, { w.entry with state := .halfOpen, probeInFlight := true })) :
    change cfg .ask w = some (⟨w.now, { w.entry with state := .halfOpen, probeInFlight := true },
      w.period⟩, some (.flying true w.period)) := by
  simp [change, beginsPeriod, hst, ha]

theorem closed_ask (cfg : BreakerConfig) (w : Clocked) (hst : w.entry.state = .closed)
    (ha : shouldAttempt cfg w.now w.entry = (true, w.entry)) :
    change cfg .ask w = some (w, some (.flying false w.period)) := by
  simp [change, beginsPeriod, hst, ha]

theorem refused_ask (cfg : BreakerConfig) (w : Clocked)
    (ha : shouldAttempt cfg w.now w.entry = (false, w.entry)) :
    change cfg .ask w = some (w, none) := by
  simp [change, beginsPeriod, ha]

theorem probe_inv (p : Sky) (hi : Inv p) (e : BreakerEntry) (n : ℕ) (hn : p.world.period ≤ n)
    (hf : e.probeInFlight = true)
    (hnone : ∀ (j : ℕ) (t : Flight), p.threads[j]? = some t → t.isProbe = false)
    (hcur : ∀ (j : ℕ) (m : ℕ), p.threads[j]? = some (.flying false m) → m ≠ n) :
    Inv ⟨⟨p.world.now, e, n⟩, p.threads++(some (.flying true n)).toList⟩ := by
  apply holds_env p _ _ trivial
  · intro j u hj
    have hk := hi.thread j u hj
    cases u with
    | landed => trivial
    | flying probe m =>
      have hp : probe = false := hnone j _ hj
      subst hp
      exact ⟨le_trans hk.1 hn, fun _ hm => absurd hm (hcur j m hj), by simp⟩
  · rintro t ht
    obtain rfl := Option.some.inj ht
    exact ⟨le_rfl, fun _ _ => rfl, fun _ _ => hf⟩
  · intro j k u v _ hj _ _ hu
    rw [hnone j u hj] at hu
    cases hu
  · intro t j u _ hj
    refine ⟨fun _ _ => hnone j u hj, fun _ hu => ?_⟩
    rw [hnone j u hj] at hu
    cases hu

theorem ask_inv (cfg : BreakerConfig) (p q : Sky) (hok : Timely cfg (.env .ask) p)
    (hi : Inv p) (hs : step (attempts cfg) (.env .ask) p = some q) : Inv q := by
  obtain ⟨w, o, hc, rfl⟩ := (step_env_some _ _ _ _).mp hs
  change change cfg .ask p.world = some (w, o) at hc
  rcases shouldAttempt_cases cfg p.world.now p.world.entry with ⟨h0, ha⟩ | ⟨h0, hf, ha⟩ | ⟨h0, ha⟩
  · rw [closed_ask cfg _ h0 ha, Option.some.injEq, Prod.mk.injEq] at hc
    obtain ⟨rfl, rfl⟩ := hc
    apply holds_env p _ _ trivial hi.thread ?_ hi.pair ?_
    · rintro t ht
      obtain rfl := Option.some.inj ht
      exact ⟨le_rfl, by simp [h0], by simp⟩
    · intro t j u _ _
      simp [Apart, h0]
  · cases hst : p.world.entry.state with
    | closed => exact (h0 hst).elim
    | isOpen =>
      rw [open_ask cfg _ hst ha, Option.some.injEq, Prod.mk.injEq] at hc
      obtain ⟨rfl, rfl⟩ := hc
      have hb : beginsPeriod cfg p.world = true := by simp [beginsPeriod, hst, ha]
      apply probe_inv p hi _ _ (Nat.le_succ _) rfl
      · intro j t hj
        exact hok hb t (List.mem_of_getElem? hj)
      · intro j m hj
        have := (hi.thread j _ hj).1
        omega
    | halfOpen =>
      rw [halfOpen_ask cfg _ hst ha, Option.some.injEq, Prod.mk.injEq] at hc
      obtain ⟨rfl, rfl⟩ := hc
      apply probe_inv p hi _ _ le_rfl rfl (no_probe_free p hi hst (hf hst))
      intro j m hj hm
      have := (hi.thread j _ hj).2.1 hst hm
      cases this
  · rw [refused_ask cfg _ ha, Option.some.injEq, Prod.mk.injEq] at hc
    obtain ⟨rfl, rfl⟩ := hc
    exact holds_env p _ _ trivial hi.thread (by simp) hi.pair (by simp)

theorem timely_probe (cfg : BreakerConfig) (i : ℕ) (o : AttemptOutcome) (p : Sky)
    (probe : Bool) (n : ℕ) (hok : Timely cfg (.act i o) p) (hi : Inv p)
    (ht : p.threads[i]? = some (.flying probe n)) (hh : HalfOpen p) : probe = true := by
  have hn := hok hh _ ht
  simp only [Flight.stale, decide_eq_false_iff_not, not_not] at hn
  exact (hi.thread i _ ht).2.1 hh hn

theorem land_inv (cfg : BreakerConfig) (i : ℕ) (o : AttemptOutcome) (p q : Sky)
    (hok : Timely cfg (.act i o) p) (hi : Inv p)
    (hs : step (attempts cfg) (.act i o) p = some q) : Inv q := by
  obtain ⟨t, w, u, ht, ha, rfl⟩ := (step_act_some _ _ _ _ _).mp hs
  cases t with
  | landed => simp [attempts, land] at ha
  | flying probe n =>
    simp only [attempts, land, Option.some.injEq, Prod.mk.injEq] at ha
    obtain ⟨rfl, rfl⟩ := ha
    have hout : ∀ (j : ℕ) (v : Flight), j ≠ i → p.threads[j]? = some v →
        (record cfg p.world.now o p.world.entry).state = .halfOpen → v.isProbe = false := by
      intro j v hj hv hr
      have hh := record_not_opened cfg _ o _ hr
      exact hi.pair i j _ v hj.symm ht hv hh (timely_probe cfg i o p probe n hok hi ht hh)
    apply holds_act p i _ _ trivial trivial
    · intro j v hj hv
      have hk := hi.thread j v hv
      cases v with
      | landed => trivial
      | flying b m =>
        refine ⟨hk.1, fun hr hm => hk.2.1 (record_not_opened cfg _ o _ hr) hm, fun hr hb => ?_⟩
        have := hout j _ hj hv hr
        simp [Flight.isProbe, hb] at this
    · intro j v hj hv
      exact ⟨fun _ h => by simp [Flight.isProbe] at h, fun _ _ => rfl⟩
    · intro j k v x hj _ _ hv _ hr hf
      rw [hout j v hj hv hr] at hf
      cases hf

theorem step_inv (cfg : BreakerConfig) (l : Event) (p q : Sky) (hok : Timely cfg l p)
    (hi : Inv p) (hs : step (attempts cfg) l p = some q) : Inv q := by
  cases l with
  | act i o => exact land_inv cfg i o p q hok hi hs
  | env e =>
    cases e with
    | ask => exact ask_inv cfg p q hok hi hs
    | tick ms =>
      obtain ⟨w, t, hc, rfl⟩ := (step_env_some _ _ _ _).mp hs
      simp only [attempts, change, Option.some.injEq, Prod.mk.injEq] at hc
      obtain ⟨rfl, rfl⟩ := hc
      exact holds_env p _ _ trivial hi.thread (by simp) hi.pair (by simp)
    | reset =>
      obtain ⟨w, t, hc, rfl⟩ := (step_env_some _ _ _ _).mp hs
      simp only [attempts, change, Option.some.injEq, Prod.mk.injEq] at hc
      obtain ⟨rfl, rfl⟩ := hc
      apply holds_env p _ _ trivial ?_ (by simp) (by simp [Apart, fresh]) (by simp)
      intro j u hj
      have hk := hi.thread j u hj
      cases u with
      | landed => trivial
      | flying b m => exact ⟨hk.1, by simp [fresh], by simp [fresh]⟩

theorem inv_one_probe (p : Sky) (hi : Inv p) : OneProbe p := by
  rintro hh j k ⟨t, ht, hp⟩ ⟨u, hu, hq⟩
  by_contra hne
  rw [hi.pair j k t u hne ht hu hh hp] at hq
  cases hq

theorem timely_own_outcome (cfg : BreakerConfig) (l : Event) (p q : Sky)
    (hok : Timely cfg l p) (hi : Inv p) (hs : step (attempts cfg) l p = some q) :
    OwnOutcome l p q := by
  intro hh hset
  cases l with
  | act i o =>
    obtain ⟨t, w, u, ht, ha, rfl⟩ := (step_act_some _ _ _ _ _).mp hs
    cases t with
    | landed => simp [attempts, land] at ha
    | flying probe n =>
      exact Or.inr ⟨i, o, rfl, _, ht, timely_probe cfg i o p probe n hok hi ht hh⟩
  | env e =>
    cases e with
    | reset => exact Or.inl rfl
    | tick ms =>
      obtain ⟨w, t, hc, rfl⟩ := (step_env_some _ _ _ _).mp hs
      simp only [attempts, change, Option.some.injEq, Prod.mk.injEq] at hc
      obtain ⟨rfl, rfl⟩ := hc
      rcases hset with h | ⟨h1, h2⟩
      · exact (h hh).elim
      · rw [h1] at h2
        cases h2
    | ask =>
      obtain ⟨w, t, hc, rfl⟩ := (step_env_some _ _ _ _).mp hs
      simp only [attempts, change, Option.some.injEq, Prod.mk.injEq] at hc
      obtain ⟨rfl, -⟩ := hc
      rcases shouldAttempt_cases cfg p.world.now p.world.entry with
        ⟨h0, ha⟩ | ⟨_, _, ha⟩ | ⟨_, ha⟩
      · rw [HalfOpen, h0] at hh
        cases hh
      · simp [Settles, ha] at hset
      · rcases hset with h | ⟨h1, h2⟩
        · exact (h (by simpa [ha] using hh)).elim
        · simp [ha, h1] at h2

/-- In a timely run the half-open breaker has at most one probe in flight, and
nothing but that probe's outcome or a reset closes it, reopens it or releases
the probe. -/
theorem timely_attribution (cfg : BreakerConfig) (now : Instant) (ls : List Event) (p : Sky)
    (hg : Guarded (step (attempts cfg)) (Timely cfg) ls (start now))
    (hr : run (step (attempts cfg)) ls (start now) = some p) :
    OneProbe p ∧ ∀ l q, Timely cfg l p → step (attempts cfg) l p = some q →
      OwnOutcome l p q := by
  have hi : Inv p := run_invariant _ (Timely cfg) Inv (step_inv cfg) ls _ p hg
    (holds_empty _ trivial) hr
  exact ⟨inv_one_probe p hi, fun l q hok hs => timely_own_outcome cfg l p q hok hi hs⟩

/-- Six attempts are admitted while closed and five of them fail; after the
timeout a seventh is the probe. -/
def overlap : List Event :=
  List.replicate 6 (.env .ask : Event)++
  ([.act 0 .failure, .act 1 .failure, .act 2 .failure, .act 3 .failure, .act 4 .failure,
    .env (.tick 60000), .env .ask] : List Event)

def overlapped : Sky :=
  ⟨⟨60000, ⟨.halfOpen, 5, 0, some 0, true⟩, 1⟩,
    List.replicate 5 .landed++[.flying false 0, .flying true 1]⟩

theorem overlap_run : run (step (attempts defaultConfig)) overlap (start 0) = some overlapped := rfl

theorem overlap_timely : Guarded (step (attempts defaultConfig)) (Timely defaultConfig)
    overlap (start 0) := by decide +kernel

theorem timely_attribution_overlap :
    OneProbe overlapped ∧ ∀ l q, Timely defaultConfig l overlapped →
      step (attempts defaultConfig) l overlapped = some q → OwnOutcome l overlapped q :=
  timely_attribution defaultConfig 0 overlap overlapped overlap_timely overlap_run

/-- The sixth attempt was admitted while closed; its late success closes the
half-open breaker under the probe that is still in flight. -/
theorem late_success_closes :
    ¬ ∀ (ls : List Event) (p q : Sky) (l : Event),
      run (step (attempts defaultConfig)) ls (start 0) = some p →
      step (attempts defaultConfig) l p = some q → OneProbe p ∧ OwnOutcome l p q := by
  intro h
  have h6 := (h overlap overlapped _ (.act 5 .success) overlap_run rfl).2
  rcases h6 rfl (Or.inl (by decide)) with hl | ⟨i, o, hl, t, ht, hp⟩
  · cases hl
  · cases hl
    simp only [overlapped, List.replicate, List.cons_append, List.nil_append,
      List.getElem?_cons_succ, List.getElem?_cons_zero, Option.mem_def, Option.some.injEq] at ht
    subst ht
    cases hp

end ControlPlane.BreakerAttempts
