import Mathlib.Data.List.Nodup
import ControlPlane.JsValue
import ControlPlane.RunMachine

/-!
# Shutting down

The first signal flips the readiness probe, stops the timers and starts the
hooks. The process exits when the hooks have settled or after ten seconds. One
step here is one turn of the event loop, with the promises that settle in it:
hooks that settle in the turn of the signal leave no turn in which the probe
could be asked.
-/

set_option autoImplicit false

namespace ControlPlane.Shutdown
open ControlPlane.JsText ControlPlane.JsValue ControlPlane.RunMachine

inductive Signal where
  | sigterm
  | sigint
  deriving DecidableEq, Repr

inductive Job where
  | expiry
  | retention
  | webhookReaper
  | rateLimiterGc
  | jwksRefresh
  deriving DecidableEq, Repr

def gracePeriodMs : ℤ := 10000

structure ReadyAnswer where
  status : ℕ
  reason : Option Text
  deriving DecidableEq, Repr

/-- The promises of a drain: the hooks that have not settled, and the timer. -/
structure Drain where
  deadline : Instant
  pending : List ℕ
  deriving DecidableEq, Repr

/-- The handles of `globalThis` and the timers of the runtime. -/
structure Timers where
  handle : Job → Option ℕ
  intervals : List (ℕ × Job)
  nextId : ℕ

structure Coordinator where
  now : Instant
  shuttingDown : Bool
  registered : Bool
  hooks : ℕ
  listening : List Signal
  drain : Option Drain
  exited : Option Instant
  timers : Timers
  probes : List ReadyAnswer
  passes : List Job

/-- `settled` are the hooks that settle in the turn of the signal. -/
inductive Event where
  | wait (ms : ℕ)
  | register (hooks : ℕ)
  | start (job : Job) (enabled : Bool)
  | signal (signal : Signal) (settled : List ℕ)
  | settle (hook : ℕ)
  | expire
  | tick (id : ℕ)
  | probe (dbReachable : Bool)
  deriving DecidableEq, Repr

def boot (now : Instant) : Coordinator :=
  ⟨now, false, false, 0, [], none, none, ⟨fun _ => none, [], 0⟩, [], []⟩

def shuttingDownAnswer : ReadyAnswer := ⟨503, some (js "shutting_down")⟩

/-- `GET /api/readyz` -/
def readyz (dbReachable : Bool) (t : Coordinator) : ReadyAnswer :=
  if t.shuttingDown then shuttingDownAnswer
  else if dbReachable then ⟨200, none⟩
  else ⟨503, some (js "db_unreachable")⟩

def registerShutdownHooks (hooks : ℕ) (t : Coordinator) : Coordinator :=
  if t.registered then t
  else { t with registered := true, hooks := hooks, listening := [.sigterm, .sigint] }

def firstPass : Job → List Job
  | .retention => [.retention]
  | .webhookReaper => [.webhookReaper]
  | .jwksRefresh => [.jwksRefresh]
  | _ => []

def setInterval (job : Job) (ts : Timers) : Timers where
  handle := Function.update ts.handle job (some ts.nextId)
  intervals := ts.intervals++[(ts.nextId, job)]
  nextId := ts.nextId+1

/-- A starter: nothing while the handle is there. -/
def startJob (job : Job) (enabled : Bool) (t : Coordinator) : Coordinator :=
  if (t.timers.handle job).isSome || !enabled then t
  else { t with timers := setInterval job t.timers, passes := t.passes++firstPass job }

def clearInterval (job : Job) (ts : Timers) : Timers :=
  match ts.handle job with
  | none => ts
  | some id => { ts with handle := Function.update ts.handle job none,
                         intervals := ts.intervals.filter (fun x => x.1 ≠ id) }

def clearBackgroundTimers (ts : Timers) : Timers :=
  clearInterval .rateLimiterGc (clearInterval .webhookReaper
    (clearInterval .retention (clearInterval .expiry ts)))

/-- `process.exit(0)` once the race is decided. -/
def race (d : Drain) (t : Coordinator) : Coordinator :=
  { t with drain := some d, exited := if d.pending = [] then some t.now else none }

/-- The listener of a signal, which `process.once` has taken off. -/
def handleSignal (settled : List ℕ) (t : Coordinator) : Coordinator :=
  if t.shuttingDown then t
  else
    race ⟨t.now+gracePeriodMs, (List.range t.hooks).filter (· ∉ settled)⟩
      { t with shuttingDown := true, timers := clearBackgroundTimers t.timers }

def receive (signal : Signal) (settled : List ℕ) (t : Coordinator) : Coordinator :=
  if signal ∈ t.listening then
    handleSignal settled { t with listening := t.listening.erase signal }
  else t

def settleHook (hook : ℕ) (t : Coordinator) : Option Coordinator :=
  match t.drain with
  | some d => if hook ∈ d.pending then
      some (race { d with pending := d.pending.erase hook } t) else none
  | none => none

def expire (t : Coordinator) : Option Coordinator :=
  match t.drain with
  | some d => if d.deadline ≤ t.now then some { t with exited := some t.now } else none
  | none => none

def tick (id : ℕ) (t : Coordinator) : Option Coordinator :=
  (t.timers.intervals.find? (fun x => x.1 = id)).map (fun x => { t with passes := t.passes++[x.2] })

/-- Nothing runs after `process.exit`. -/
def step (e : Event) (t : Coordinator) : Option Coordinator :=
  if t.exited.isSome then none
  else
    match e with
    | .wait ms => some { t with now := t.now+ms }
    | .register hooks => some (registerShutdownHooks hooks t)
    | .start job enabled => some (startJob job enabled t)
    | .signal signal settled => some (receive signal settled t)
    | .settle hook => settleHook hook t
    | .expire => expire t
    | .tick id => tick id t
    | .probe dbReachable => some { t with probes := t.probes++[readyz dbReachable t] }

structure Handled (ts : Timers) : Prop where
  live : ∀ id job, (id, job) ∈ ts.intervals ↔ ts.handle job = some id
  fresh : ∀ x ∈ ts.intervals, x.1 < ts.nextId
  unique : (ts.intervals.map Prod.fst).Nodup

section Timers
variable (ts : Timers) (job : Job)

theorem handled_none : Handled ⟨fun _ => none, [], 0⟩ := by
  constructor <;> simp

theorem one_interval (h : Handled ts) : (ts.intervals.map Prod.snd).Nodup := by
  apply List.Nodup.map_on
  · rintro ⟨i, j⟩ hx ⟨i', j'⟩ hy rfl
    have hi := (h.live i j).mp hx
    have hi' := (h.live i' j).mp hy
    exact congrArg (·, j) (Option.some.inj (hi.symm.trans hi'))
  · exact List.Nodup.of_map _ h.unique

theorem handled_set (h : Handled ts) (hjob : ts.handle job = none) :
    Handled (setInterval job ts) := by
  constructor
  · intro id j
    simp only [setInterval, List.mem_append, List.mem_singleton, Prod.mk.injEq, h.live]
    by_cases hj : j = job
    · subst hj
      simp [hjob, eq_comm]
    · simp [hj]
  · intro x hx
    rcases List.mem_append.mp hx with hx | hx
    · exact Nat.lt_succ_of_lt (h.fresh x hx)
    · obtain rfl := List.mem_singleton.mp hx
      exact Nat.lt_succ_self _
  · rw [setInterval, List.map_append]
    apply h.unique.append (List.nodup_singleton _)
    intro id hold hnew
    obtain ⟨x, hx, rfl⟩ := List.mem_map.mp hold
    exact (h.fresh x hx).ne (List.mem_singleton.mp hnew)

theorem clear_intervals (h : Handled ts) (x : ℕ × Job) :
    x ∈ (clearInterval job ts).intervals ↔ x ∈ ts.intervals ∧ x.2 ≠ job := by
  obtain ⟨id, j⟩ := x
  unfold clearInterval
  cases hjob : ts.handle job with
  | none =>
    simp only [iff_self_and]
    intro hx hj
    rw [h.live] at hx
    obtain rfl : j = job := hj
    rw [hjob] at hx
    cases hx
  | some i =>
    simp only [List.mem_filter, decide_eq_true_eq, and_congr_right_iff]
    intro hx
    apply not_congr
    constructor
    · intro hid
      have hmem := (h.live i job).mpr hjob
      exact congrArg Prod.snd (List.inj_on_of_nodup_map h.unique hx hmem hid)
    · rintro rfl
      exact Option.some.inj (((h.live id j).mp hx).symm.trans hjob)

theorem clear_handle (j : Job) :
    (clearInterval job ts).handle j = if j = job then none else ts.handle j := by
  unfold clearInterval
  cases hjob : ts.handle job with
  | none =>
    split_ifs with hj
    · rw [hj, hjob]
    · rfl
  | some i => exact Function.update_apply _ _ _ _

theorem handled_clear (h : Handled ts) : Handled (clearInterval job ts) := by
  constructor
  · intro id j
    rw [clear_intervals ts job h, clear_handle, h.live]
    split_ifs with hj
    · simp [hj]
    · simp [hj]
  · intro x hx
    have hlt := h.fresh x ((clear_intervals ts job h x).mp hx).1
    unfold clearInterval
    cases ts.handle job <;> exact hlt
  · unfold clearInterval
    cases ts.handle job with
    | none => exact h.unique
    | some i => exact h.unique.sublist (List.filter_sublist.map _)

theorem handled_timers (h : Handled ts) : Handled (clearBackgroundTimers ts) :=
  handled_clear _ _ (handled_clear _ _ (handled_clear _ _ (handled_clear _ _ h)))

theorem timers_cleared (h : Handled ts) (x : ℕ × Job)
    (hx : x ∈ (clearBackgroundTimers ts).intervals) : x.2 = .jwksRefresh := by
  unfold clearBackgroundTimers at hx
  have h1 := handled_clear ts .expiry h
  have h2 := handled_clear _ .retention h1
  have h3 := handled_clear _ .webhookReaper h2
  rw [clear_intervals _ _ h3, clear_intervals _ _ h2, clear_intervals _ _ h1,
    clear_intervals _ _ h] at hx
  obtain ⟨⟨⟨⟨_, hexpiry⟩, hretention⟩, hreaper⟩, hgc⟩ := hx
  cases hj : x.2 with
  | jwksRefresh => rfl
  | _ => contradiction

end Timers

theorem firstPass_self (job j : Job) (h : j ∈ firstPass job) : j = job := by
  cases job <;> simp_all [firstPass]

theorem handled_start (t : Coordinator) (job : Job) (enabled : Bool) (h : Handled t.timers) :
    Handled (startJob job enabled t).timers := by
  unfold startJob
  split_ifs with hskip
  · exact h
  · simp only [Bool.or_eq_true, not_or, Option.not_isSome_iff_eq_none] at hskip
    exact handled_set _ _ h hskip.1

def Event.isProbe : Event → Bool
  | .probe _ => true
  | _ => false

def Rearmed (ls : List Event) (job : Job) : Prop :=
  job = .jwksRefresh ∨ Event.start job true ∈ ls

theorem rearmed_mono (ls : List Event) (e : Event) (job : Job) (h : Rearmed ls job) :
    Rearmed (ls++[e]) job := by
  rcases h with h | h
  · exact Or.inl h
  · exact Or.inr (List.mem_append_left _ h)

structure Serving (t : Coordinator) : Prop where
  handled : Handled t.timers
  calm : t.shuttingDown = false →
    t.exited = none ∧ t.drain = none ∧ shuttingDownAnswer ∉ t.probes
  heard : t.listening ≠ [] → t.registered = true

/-- `pending` are the hooks that have not settled since the signal. -/
structure Pending (s : Coordinator) (settled : List ℕ) (ls : List Event) (t : Coordinator)
    (pending : List ℕ) : Prop where
  drain : t.drain = some ⟨s.now+gracePeriodMs, pending⟩
  nodup : pending.Nodup
  mem : ∀ i, i ∈ pending ↔ i < s.hooks ∧ i ∉ settled ∧ Event.settle i ∉ ls
  waits : t.exited = none → pending ≠ [] ∧ Event.expire ∉ ls
  exits : ∀ e, t.exited = some e →
    e = t.now ∧ (pending = [] ∨ Event.expire ∈ ls ∧ s.now+gracePeriodMs ≤ e)

structure Draining (s : Coordinator) (settled : List ℕ) (ls : List Event) (t : Coordinator) :
    Prop where
  flag : t.shuttingDown = true
  registered : t.registered = true
  hooks : ∃ pending, Pending s settled ls t pending
  clock : s.now ≤ t.now
  live : ∀ x ∈ t.timers.intervals, Rearmed ls x.2
  probes : t.probes = s.probes++List.replicate (ls.countP Event.isProbe) shuttingDownAnswer
  passes : ∃ xs, t.passes = s.passes++xs ∧ ∀ job ∈ xs, Rearmed ls job

theorem step_some (e : Event) (t u : Coordinator) (h : step e t = some u) : t.exited = none := by
  unfold step at h
  split_ifs at h with hexited
  exact Option.not_isSome_iff_eq_none.mp hexited

theorem readyz_calm (dbReachable : Bool) (t : Coordinator) (h : t.shuttingDown = false) :
    readyz dbReachable t ≠ shuttingDownAnswer := by
  rw [readyz, if_neg (by simp [h])]
  cases dbReachable <;> decide

theorem serving_boot (now : Instant) : Serving (boot now) := by
  constructor
  · exact handled_none
  · simp [boot]
  · simp [boot]

theorem serving_register (hooks : ℕ) (t : Coordinator) (h : Serving t) :
    Serving (registerShutdownHooks hooks t) := by
  unfold registerShutdownHooks
  split_ifs
  · exact h
  · exact ⟨h.handled, h.calm, fun _ => rfl⟩

theorem serving_start (job : Job) (enabled : Bool) (t : Coordinator) (h : Serving t) :
    Serving (startJob job enabled t) := by
  have hhandled := handled_start t job enabled h.handled
  unfold startJob at hhandled ⊢
  split_ifs at hhandled ⊢
  · exact h
  · exact ⟨hhandled, h.calm, h.heard⟩

theorem serving_receive (signal : Signal) (settled : List ℕ) (t : Coordinator) (h : Serving t) :
    Serving (receive signal settled t) := by
  unfold receive
  split_ifs with hl
  · have hheard : t.registered = true := h.heard (List.ne_nil_of_mem hl)
    unfold handleSignal
    split_ifs with hflag
    · exact ⟨h.handled, h.calm, fun _ => hheard⟩
    · exact ⟨handled_timers _ h.handled, fun hs => by simp [race] at hs, fun _ => hheard⟩
  · exact h

theorem serving_step (e : Event) (t u : Coordinator) (h : Serving t) (hstep : step e t = some u) :
    Serving u := by
  have hexited := step_some e t u hstep
  unfold step at hstep
  rw [if_neg (by simp [hexited])] at hstep
  cases e with
  | wait ms =>
    cases hstep
    exact ⟨h.handled, h.calm, h.heard⟩
  | register hooks =>
    cases hstep
    exact serving_register hooks t h
  | start job enabled =>
    cases hstep
    exact serving_start job enabled t h
  | signal signal settled =>
    cases hstep
    exact serving_receive signal settled t h
  | settle hook =>
    simp only [settleHook] at hstep
    split at hstep
    · next d hd =>
      split_ifs at hstep
      cases hstep
      exact ⟨h.handled, fun hs => by simp [(h.calm hs).2.1] at hd, h.heard⟩
    · cases hstep
  | expire =>
    simp only [expire] at hstep
    split at hstep
    · next d hd =>
      split_ifs at hstep
      cases hstep
      exact ⟨h.handled, fun hs => by simp [(h.calm hs).2.1] at hd, h.heard⟩
    · cases hstep
  | tick id =>
    obtain ⟨x, _, rfl⟩ := Option.map_eq_some_iff.mp hstep
    exact ⟨h.handled, h.calm, h.heard⟩
  | probe dbReachable =>
    cases hstep
    refine ⟨h.handled, ?_, h.heard⟩
    intro hs
    obtain ⟨hexit, hdrain, hprobes⟩ := h.calm hs
    refine ⟨hexit, hdrain, ?_⟩
    simp only [List.mem_append, List.mem_singleton, not_or]
    refine ⟨hprobes, ?_⟩
    exact (readyz_calm dbReachable t hs).symm

theorem serving_run (ls : List Event) (now : Instant) (t : Coordinator)
    (h : run step ls (boot now) = some t) : Serving t := by
  induction ls using List.reverseRecOn generalizing t with
  | nil =>
    cases h
    exact serving_boot now
  | append_singleton ls e ih =>
    obtain ⟨s, hs, hstep⟩ := (run_append_some step ls [e] _ t).mp h
    obtain ⟨u, hu, hnil⟩ := (run_cons_some step e [] s t).mp hstep
    cases hnil
    exact serving_step e s t (ih s hs) hu

section Drains
variable (s t u : Coordinator) (settled : List ℕ) (ls : List Event)

theorem draining_signal (signal : Signal) (h : Serving s) (hs : s.shuttingDown = false)
    (hl : signal ∈ s.listening) (hstep : step (.signal signal settled) s = some t) :
    Draining s settled [] t := by
  have hregistered := h.heard (List.ne_nil_of_mem hl)
  have hexited := (h.calm hs).1
  simp only [step, hexited, Option.isSome_none, Bool.false_eq_true, if_false,
    Option.some.injEq] at hstep
  rw [receive, if_pos hl, handleSignal, if_neg (by simp [hs])] at hstep
  subst hstep
  constructor
  · rfl
  · exact hregistered
  · refine ⟨_, rfl, List.nodup_range.filter _, ?_, ?_, ?_⟩
    · intro i
      simp
    · intro hnone
      simp only [race] at hnone
      split_ifs at hnone with hp
      exact ⟨hp, List.not_mem_nil⟩
    · intro e he
      simp only [race] at he
      split_ifs at he with hp
      exact ⟨(Option.some.inj he).symm, Or.inl hp⟩
  · exact le_rfl
  · exact fun x hx => Or.inl (timers_cleared _ h.handled x hx)
  · simp [race]
  · exact ⟨[], by simp [race], by simp⟩

theorem signal_now (signal : Signal) (hstep : step (.signal signal settled) s = some t) :
    t.now = s.now := by
  have hexited := step_some _ s t hstep
  unfold step at hstep
  rw [if_neg (by simp [hexited])] at hstep
  cases hstep
  unfold receive handleSignal
  split_ifs <;> rfl

theorem pending_step (e : Event) (pending : List ℕ) (h : Pending s settled ls t pending)
    (hd : u.drain = t.drain) (he : t.exited = none) (hu : u.exited = t.exited)
    (hother : (∀ i, e ≠ .settle i) ∧ e ≠ .expire) :
    Pending s settled (ls++[e]) u pending := by
  constructor
  · rw [hd, h.drain]
  · exact h.nodup
  · intro i
    rw [h.mem]
    simp [(hother.1 i).symm]
  · exact fun _ => ⟨(h.waits he).1, by simp [(h.waits he).2, hother.2.symm]⟩
  · intro e' he'
    rw [hu, he] at he'
    cases he'

theorem pending_settle (hook : ℕ) (pending : List ℕ) (h : Pending s settled ls t pending)
    (he : t.exited = none) : Pending s settled (ls++[.settle hook])
      (race ⟨s.now+gracePeriodMs, pending.erase hook⟩ t) (pending.erase hook) := by
  constructor
  · rfl
  · exact h.nodup.erase hook
  · intro i
    rw [h.nodup.mem_erase_iff, h.mem]
    simp only [List.mem_append, List.mem_singleton, Event.settle.injEq, not_or]
    tauto
  · intro hnone
    simp only [race] at hnone
    split_ifs at hnone with hp
    exact ⟨hp, by simp [(h.waits he).2]⟩
  · intro e' he'
    simp only [race] at he'
    split_ifs at he' with hp
    exact ⟨(Option.some.inj he').symm, Or.inl hp⟩

theorem pending_expire (pending : List ℕ) (h : Pending s settled ls t pending)
    (hd : u.drain = t.drain) (hn : u.now = t.now) (hu : u.exited = some t.now)
    (hdeadline : s.now+gracePeriodMs ≤ t.now) :
    Pending s settled (ls++[.expire]) u pending := by
  constructor
  · rw [hd, h.drain]
  · exact h.nodup
  · intro i
    rw [h.mem]
    simp
  · exact fun hnone => by simp [hu] at hnone
  · intro e he
    rw [hu] at he
    obtain rfl := Option.some.inj he
    exact ⟨hn.symm, Or.inr ⟨by simp, hdeadline⟩⟩

theorem draining_step (e : Event) (h : Draining s settled ls t) (hstep : step e t = some u) :
    Draining s settled (ls++[e]) u := by
  have hexited := step_some e t u hstep
  obtain ⟨pending, hpending⟩ := h.hooks
  obtain ⟨xs, hxs, hrearmed⟩ := h.passes
  have hrearmed' : ∀ job ∈ xs, Rearmed (ls++[e]) job :=
    fun job hjob => rearmed_mono ls e job (hrearmed job hjob)
  have hlive : ∀ x ∈ t.timers.intervals, Rearmed (ls++[e]) x.2 :=
    fun x hx => rearmed_mono ls e x.2 (h.live x hx)
  have hkept : ∀ v : Coordinator, v.drain = t.drain → v.exited = t.exited →
      (∀ i, e ≠ .settle i) ∧ e ≠ .expire → Pending s settled (ls++[e]) v pending :=
    fun v hd hv he => pending_step s t v settled ls e pending hpending hd hexited hv he
  have hquiet : e.isProbe = false → t.probes =
      s.probes++List.replicate ((ls++[e]).countP Event.isProbe) shuttingDownAnswer := by
    intro he
    rw [h.probes, List.countP_append, List.countP_singleton, he]
    rfl
  unfold step at hstep
  rw [if_neg (by simp [hexited])] at hstep
  cases e with
  | wait ms =>
    cases hstep
    refine ⟨h.flag, h.registered, ⟨pending, ?_⟩, ?_, hlive, ?_, xs, hxs, hrearmed'⟩
    · exact hkept _ rfl rfl (by simp)
    · exact h.clock.trans (Int.le_add_of_nonneg_right (Int.natCast_nonneg ms))
    · exact hquiet rfl
  | register hooks =>
    cases hstep
    rw [registerShutdownHooks, if_pos h.registered]
    exact ⟨h.flag, h.registered, ⟨pending, hkept _ rfl rfl (by simp)⟩, h.clock, hlive,
      hquiet rfl, xs, hxs, hrearmed'⟩
  | start job enabled =>
    cases hstep
    have hrearm : enabled = true → Rearmed (ls++[.start job enabled]) job := by
      rintro rfl
      exact Or.inr (List.mem_append_right _ (List.mem_singleton_self _))
    unfold startJob
    split_ifs with hskip
    · exact ⟨h.flag, h.registered, ⟨pending, hkept _ rfl rfl (by simp)⟩, h.clock,
        hlive, hquiet rfl, xs, hxs, hrearmed'⟩
    · have henabled : enabled = true := by simp_all
      refine ⟨h.flag, h.registered, ⟨pending, ?_⟩, h.clock, ?_, ?_, xs++firstPass job, ?_,
        ?_⟩
      · exact hkept _ rfl rfl (by simp)
      · intro x hx
        rcases List.mem_append.mp hx with hx | hx
        · exact hlive x hx
        · obtain rfl := List.mem_singleton.mp hx
          exact hrearm henabled
      · exact hquiet rfl
      · rw [hxs, List.append_assoc]
      · intro j hj
        rcases List.mem_append.mp hj with hj | hj
        · exact hrearmed' j hj
        · exact firstPass_self job j hj ▸ hrearm henabled
  | signal signal settled' =>
    cases hstep
    unfold receive handleSignal
    split_ifs with hl hflag
    · exact ⟨h.flag, h.registered, ⟨pending, hkept _ rfl rfl (by simp)⟩, h.clock,
        hlive, hquiet rfl, xs, hxs, hrearmed'⟩
    · exact absurd h.flag hflag
    · exact ⟨h.flag, h.registered, ⟨pending, hkept _ rfl rfl (by simp)⟩, h.clock,
        hlive, hquiet rfl, xs, hxs, hrearmed'⟩
  | settle hook =>
    simp only [settleHook, hpending.drain] at hstep
    split_ifs at hstep with hmem
    cases hstep
    exact ⟨h.flag, h.registered,
      ⟨pending.erase hook, pending_settle s t settled ls hook pending hpending hexited⟩,
      h.clock, hlive, hquiet rfl, xs, hxs, hrearmed'⟩
  | expire =>
    simp only [expire, hpending.drain] at hstep
    split_ifs at hstep with hdeadline
    cases hstep
    refine ⟨h.flag, h.registered, ⟨pending, ?_⟩, h.clock, hlive, hquiet rfl, xs, hxs,
      hrearmed'⟩
    exact pending_expire s t _ settled ls pending hpending hpending.drain.symm rfl rfl hdeadline
  | tick id =>
    obtain ⟨x, hx, rfl⟩ := Option.map_eq_some_iff.mp hstep
    refine ⟨h.flag, h.registered, ⟨pending, ?_⟩, h.clock, hlive, ?_, xs++[x.2], ?_, ?_⟩
    · exact hkept _ rfl rfl (by simp)
    · exact hquiet rfl
    · rw [hxs, List.append_assoc]
    · intro j hj
      rcases List.mem_append.mp hj with hj | hj
      · exact hrearmed' j hj
      · rw [List.mem_singleton.mp hj]
        exact hlive x (List.mem_of_find?_eq_some hx)
  | probe dbReachable =>
    cases hstep
    refine ⟨h.flag, h.registered, ⟨pending, ?_⟩, h.clock, hlive, ?_, xs, hxs, hrearmed'⟩
    · exact hkept _ rfl rfl (by simp)
    · rw [h.probes, readyz, if_pos h.flag, List.countP_append, List.append_assoc,
        ← List.replicate_succ']
      rfl

theorem draining_run (h : Draining s settled [] t) (hrun : run step ls t = some u) :
    Draining s settled ls u := by
  induction ls using List.reverseRecOn generalizing u with
  | nil =>
    cases hrun
    exact h
  | append_singleton ls e ih =>
    obtain ⟨v, hv, hstep⟩ := (run_append_some step ls [e] _ u).mp hrun
    obtain ⟨u', hu, hnil⟩ := (run_cons_some step e [] v u).mp hstep
    cases hnil
    exact draining_step s v u settled ls e (ih v hv) hu

theorem draining_expires (h : Draining s settled ls t) (he : t.exited = none) :
    ∃ v, run step [.wait 10000, .expire] t = some v ∧
      v.exited = some (t.now+gracePeriodMs) := by
  obtain ⟨pending, hpending⟩ := h.hooks
  have hdeadline : s.now+gracePeriodMs ≤ t.now+gracePeriodMs :=
    Int.add_le_add_right h.clock gracePeriodMs
  have hwait : step (.wait 10000) t = some { t with now := t.now+gracePeriodMs } := by
    unfold step
    rw [if_neg (by simp [he])]
    rfl
  refine ⟨{ t with now := t.now+gracePeriodMs, exited := some (t.now+gracePeriodMs) }, ?_, rfl⟩
  rw [run, hwait, Option.bind_some, run]
  unfold step
  rw [if_neg (by simp [he])]
  simp [expire, hpending.drain, hdeadline, run]

end Drains

theorem run_exited (ls : List Event) (t u : Coordinator) (he : t.exited ≠ none)
    (h : run step ls t = some u) : ls = [] ∧ u = t := by
  cases ls with
  | nil => exact ⟨rfl, (Option.some.inj h).symm⟩
  | cons e ls =>
    obtain ⟨v, hv, _⟩ := (run_cons_some step e ls t u).mp h
    exact absurd (step_some e t v hv) he

theorem drain_window (now : Instant) (before after : List Event) (signal : Signal)
    (settled : List ℕ) (s t u : Coordinator) (hbefore : run step before (boot now) = some s)
    (hfirst : s.shuttingDown = false) (hl : signal ∈ s.listening)
    (hsignal : step (.signal signal settled) s = some t) (hafter : run step after t = some u) :
    shuttingDownAnswer ∉ s.probes ∧
    u.probes = s.probes++List.replicate (after.countP Event.isProbe) shuttingDownAnswer ∧
    (u.exited = none ↔ Event.expire ∉ after ∧
      ∃ hook < s.hooks, hook ∉ settled ∧ Event.settle hook ∉ after) ∧
    (∀ e, u.exited = some e → s.now ≤ e ∧
      ((∀ hook < s.hooks, hook ∈ settled ∨ Event.settle hook ∈ after) ∨
        s.now+gracePeriodMs ≤ e)) ∧
    (u.exited = none → ∃ v, run step [.wait 10000, .expire] u = some v ∧
      v.exited = some (u.now+gracePeriodMs)) ∧
    ((∀ hook < s.hooks, hook ∈ settled) → after = [] ∧ u.exited = some s.now) ∧
    (∀ ls v, run step ls (boot now) = some v → (v.timers.intervals.map Prod.snd).Nodup) ∧
    ∃ xs, u.passes = s.passes++xs ∧ ∀ job ∈ xs, Rearmed after job := by
  have hserving := serving_run before now s hbefore
  have hstart := draining_signal s t settled signal hserving hfirst hl hsignal
  have hend := draining_run s t u settled after hstart hafter
  obtain ⟨pending, hpending⟩ := hend.hooks
  have hnone : pending = [] ↔
      ∀ hook < s.hooks, hook ∈ settled ∨ Event.settle hook ∈ after := by
    rw [List.eq_nil_iff_forall_not_mem]
    simp only [hpending.mem, not_and, not_not]
    exact forall_congr' fun hook => imp_congr_right fun _ => or_iff_not_imp_left.symm
  refine ⟨(hserving.calm hfirst).2.2, hend.probes, ?_, ?_, ?_, ?_, ?_, hend.passes⟩
  · constructor
    · intro hopen
      obtain ⟨hne, hexpire⟩ := hpending.waits hopen
      obtain ⟨hook, hmem⟩ := List.exists_mem_of_ne_nil pending hne
      obtain ⟨hlt, hset, hrest⟩ := (hpending.mem hook).mp hmem
      exact ⟨hexpire, hook, hlt, hset, hrest⟩
    · rintro ⟨hexpire, hook, hlt, hset, hrest⟩
      by_contra hexit
      obtain ⟨e, he⟩ := Option.ne_none_iff_exists'.mp hexit
      rcases (hpending.exits e he).2 with hempty | hdue
      · rcases hnone.mp hempty hook hlt with h | h
        · exact hset h
        · exact hrest h
      · exact hexpire hdue.1
  · intro e he
    obtain ⟨rfl, hcause⟩ := hpending.exits e he
    exact ⟨hend.clock, hcause.imp hnone.mp And.right⟩
  · exact draining_expires s u settled after hend
  · intro hall
    obtain ⟨first, hfirst⟩ := hstart.hooks
    have hexit : t.exited ≠ none := by
      intro hopen
      obtain ⟨hook, hmem⟩ := List.exists_mem_of_ne_nil first (hfirst.waits hopen).1
      obtain ⟨hlt, hset, _⟩ := (hfirst.mem hook).mp hmem
      exact hset (hall hook hlt)
    obtain ⟨rfl, rfl⟩ := run_exited after t u hexit hafter
    refine ⟨rfl, ?_⟩
    obtain ⟨e, he⟩ := Option.ne_none_iff_exists'.mp hexit
    rw [he, (hfirst.exits e he).1, signal_now s u settled signal hsignal]
  · intro ls v hv
    exact one_interval _ (serving_run ls now v hv).handled

section Flush

def served : Coordinator where
  now := 0
  shuttingDown := false
  registered := true
  hooks := 1
  listening := [.sigterm, .sigint]
  drain := none
  exited := none
  timers := setInterval .retention ⟨fun _ => none, [], 0⟩
  probes := [⟨200, none⟩]
  passes := [.retention]

def flushing : Coordinator :=
  { served with shuttingDown := true, listening := [.sigint], drain := some ⟨10000, [0]⟩,
                timers := clearBackgroundTimers served.timers }

def flushed : Coordinator :=
  { flushing with drain := some ⟨10000, []⟩, exited := some 0,
                  probes := [⟨200, none⟩, shuttingDownAnswer] }

theorem drain_window_flush :
    flushed.probes = served.probes++List.replicate 1 shuttingDownAnswer ∧
      flushed.exited ≠ none := by
  have h := drain_window 0 [.register 1, .start .retention true, .probe true]
    [.probe true, .settle 0] .sigterm [] served flushing flushed rfl rfl (by decide) rfl rfl
  exact ⟨h.2.1, by decide⟩

end Flush

end ControlPlane.Shutdown
