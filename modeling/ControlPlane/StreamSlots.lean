import ControlPlane.EventStream
import ControlPlane.ThreadPool

/-!
# Slots of the event streams

Every step of one stream leaves it open as it was or closes it, gives its slot
back in the same moment, and takes its listener off the bus and its timer
down. The count of slots is the count of streams that are not closed. A
failure in the middle of `start` closes the stream before its timer exists.
-/

set_option autoImplicit false

namespace ControlPlane.StreamSlots
open ControlPlane.RunMachine ControlPlane.EventStream
open ControlPlane.ThreadPool (countP_set_add set_get)

structure Sound (i : ℕ) (listeners : List ℕ) (s : Stream) : Prop where
  listed : i ∈ listeners ↔ s.unsubscribe = true
  silent : s.closed = true → s.unsubscribe = false
  still : s.closed = true → s.heartbeat = false
  once : s.released = if s.closed then 1 else 0
  first : s.signalled = s.closed

theorem sound_listeners {i : ℕ} {is js : List ℕ} {s : Stream} (h : Sound i is s)
    (hi : i ∈ js ↔ i ∈ is) : Sound i js s := by
  constructor
  · rw [hi]
    exact h.listed
  · exact h.silent
  · exact h.still
  · exact h.once
  · exact h.first

structure Effect (i : ℕ) (x y : Local) : Prop where
  sound : Sound i y.1.bus.listeners y.2
  others : ∀ j, j ≠ i → (j ∈ y.1.bus.listeners ↔ j ∈ x.1.bus.listeners)
  slot : (y.1.openCount = x.1.openCount ∧ y.2.closed = x.2.closed) ∨
    (y.1.openCount = max 0 (x.1.openCount-1) ∧ x.2.closed = false ∧ y.2.closed = true)

theorem effect_kept (i : ℕ) (x : Local) (s : Stream) (h : Sound i x.1.bus.listeners x.2)
    (hu : s.unsubscribe = x.2.unsubscribe) (hc : s.closed = x.2.closed)
    (hh : s.heartbeat = x.2.heartbeat) (hr : s.released = x.2.released)
    (hs : s.signalled = x.2.signalled) : Effect i x (x.1, s) := by
  constructor
  · constructor
    · rw [hu]
      exact h.listed
    · rw [hu, hc]
      exact h.silent
    · rw [hh, hc]
      exact h.still
    · rw [hr, hc]
      exact h.once
    · rw [hs, hc]
      exact h.first
  · exact fun j _ => Iff.rfl
  · exact Or.inl ⟨rfl, hc⟩

theorem terminate_closed (i : ℕ) (x : Local) (hc : x.2.closed = true) :
    terminate i x = (x.1, { x.2 with signalled := true }) := by
  rw [terminate, cleanup, if_pos hc]

theorem terminate_effect (i : ℕ) (x : Local) (h : Sound i x.1.bus.listeners x.2) :
    Effect i x (terminate i x) := by
  by_cases hc : x.2.closed = true
  · rw [terminate_closed i x hc]
    exact effect_kept i x _ h rfl rfl rfl rfl (h.first.trans hc).symm
  · rw [Bool.not_eq_true] at hc
    have hreleased : x.2.released = 0 := by
      rw [h.once, hc]
      rfl
    have hbus : (terminate i x).1.bus.listeners = x.1.bus.listeners.filter (· ≠ i) := by
      by_cases hu : x.2.unsubscribe = true
      · simp [terminate, cleanup, hc, hu, EventBus.unsubscribe, releaseSseSlot]
      · have hnot : i ∉ x.1.bus.listeners := fun hi => hu (h.listed.mp hi)
        have hfilter : x.1.bus.listeners.filter (· ≠ i) = x.1.bus.listeners := by
          rw [List.filter_eq_self]
          intro j hj
          rw [decide_eq_true_eq]
          rintro rfl
          exact hnot hj
        rw [hfilter]
        simp [terminate, cleanup, hc, hu, releaseSseSlot]
    constructor
    · constructor
      · rw [hbus]
        simp [terminate, cleanup, hc]
      · simp [terminate, cleanup, hc]
      · simp [terminate, cleanup, hc]
      · simp [terminate, cleanup, hc, hreleased]
      · simp [terminate, cleanup, hc]
    · intro j hj
      rw [hbus]
      simp [hj]
    · right
      simp [terminate, cleanup, hc, releaseSseSlot]

theorem closeController_effect (i : ℕ) (x y : Local) (h : Effect i x y) :
    Effect i x (closeController y) := by
  constructor
  · exact ⟨h.sound.listed, h.sound.silent, h.sound.still, h.sound.once, h.sound.first⟩
  · exact h.others
  · exact h.slot

theorem enqueue_some (fail : Bool) (frame : JsText.Text) (s s' : Stream)
    (h : enqueue fail frame s = some s') :
    s' = { s with out := s.out++[Utf8Text.encodeUtf8 frame] } := by
  rw [enqueue] at h
  split_ifs at h
  exact (Option.some.inj h).symm

theorem terminate_after (i : ℕ) (x : Local) (s : Stream) (h : Sound i x.1.bus.listeners x.2)
    (hu : s.unsubscribe = x.2.unsubscribe) (hc : s.closed = x.2.closed)
    (hh : s.heartbeat = x.2.heartbeat) (hr : s.released = x.2.released)
    (hs : s.signalled = x.2.signalled) : Effect i x (terminate i (x.1, s)) := by
  have hkept := effect_kept i x s h hu hc hh hr hs
  have hend := terminate_effect i (x.1, s) hkept.sound
  constructor
  · exact hend.sound
  · exact hend.others
  · rw [← hc]
    exact hend.slot

theorem sendEvent_effect (i : ℕ) (fail : Bool) (e : AuditEventRecord) (x : Local)
    (h : Sound i x.1.bus.listeners x.2) : Effect i x (sendEvent i fail e x) := by
  by_cases he : e.id ∈ x.2.seenIds
  · rw [sendEvent, if_pos he]
    exact effect_kept i x x.2 h rfl rfl rfl rfl rfl
  · rw [sendEvent, if_neg he]
    cases hq : enqueue fail (dataText e) { x.2 with seenIds := e.id::x.2.seenIds } with
    | none =>
      simp only [hq]
      exact terminate_after i x _ h rfl rfl rfl rfl rfl
    | some s =>
      simp only [hq]
      obtain rfl := enqueue_some _ _ _ _ hq
      exact effect_kept i x _ h rfl rfl rfl rfl rfl

theorem onPublish_effect (i : ℕ) (fail : Bool) (e : AuditEventRecord) (x : Local)
    (h : Sound i x.1.bus.listeners x.2) : Effect i x (onPublish i fail e x) := by
  rw [onPublish]
  split_ifs
  · exact effect_kept i x _ h rfl rfl rfl rfl rfl
  · exact sendEvent_effect i fail e x h
  · exact effect_kept i x x.2 h rfl rfl rfl rfl rfl

theorem tick_effect (i : ℕ) (fail : Bool) (x : Local) (h : Sound i x.1.bus.listeners x.2) :
    Effect i x (tick i fail x) := by
  rw [tick]
  split_ifs
  · exact closeController_effect i x _ (terminate_effect i x h)
  · cases hq : enqueue fail heartbeatText x.2 with
    | none => exact terminate_effect i x h
    | some s =>
      obtain rfl := enqueue_some _ _ _ _ hq
      exact effect_kept i x _ h rfl rfl rfl rfl rfl

theorem abort_effect (i : ℕ) (x : Local) (h : Sound i x.1.bus.listeners x.2) :
    Effect i x (abort i x) := by
  simp only [abort]
  split_ifs
  · exact effect_kept i x x.2 h rfl rfl rfl rfl rfl
  · exact closeController_effect i x _ (terminate_after i x _ h rfl rfl rfl rfl rfl)
  · exact effect_kept i x _ h rfl rfl rfl rfl rfl

theorem cancel_effect (i : ℕ) (x : Local) (h : Sound i x.1.bus.listeners x.2) :
    Effect i x (cancel i x) :=
  closeController_effect i x _ (terminate_effect i x h)

def isOpen (s : Stream) : Bool := !s.closed

structure Slots (n : ℕ) (p : Process) : Prop where
  count : p.shared.openCount = (p.streams.countP isOpen : ℤ)
  capped : p.shared.openCount ≤ n
  listed : ∀ j ∈ p.shared.bus.listeners, j < p.streams.length
  sound : ∀ (j : ℕ) (s : Stream), p.streams[j]? = some s → Sound j p.shared.bus.listeners s

theorem slots_on (n i : ℕ) (p : Process) (f : Local → Local) (hp : Slots n p)
    (hf : ∀ s, p.streams[i]? = some s → Effect i (p.shared, s) (f (p.shared, s))) :
    Slots n (p.on i f) := by
  rw [Process.on]
  cases hs : p.streams[i]? with
  | none => exact hp
  | some s =>
    have he := hf s hs
    have hcount := countP_set_add p.streams i s (f (p.shared, s)).2 isOpen hs
    have hopen := hp.count
    constructor
    · show (f (p.shared, s)).1.openCount = ((p.streams.set i (f (p.shared, s)).2).countP isOpen : ℤ)
      rcases he.slot with ⟨ho, hc⟩ | ⟨ho, hx, hy⟩
      · rw [show isOpen (f (p.shared, s)).2 = isOpen s by rw [isOpen, isOpen, hc]] at hcount
        rw [ho]
        show p.shared.openCount = _
        omega
      · rw [show isOpen (f (p.shared, s)).2 = false by rw [isOpen, hy]; rfl,
          show isOpen s = true by rw [isOpen, show s.closed = false from hx]; rfl] at hcount
        simp only [if_true, Bool.false_eq_true, if_false] at hcount
        rw [ho]
        show max 0 (p.shared.openCount-1) = _
        omega
    · have hcap := hp.capped
      rcases he.slot with ⟨ho, -⟩ | ⟨ho, -, -⟩
      · rw [ho]
        exact hcap
      · rw [ho]
        show max 0 (p.shared.openCount-1) ≤ _
        omega
    · intro j hj
      rw [List.length_set]
      by_cases hji : j = i
      · subst hji
        exact (List.getElem?_eq_some_iff.mp hs).1
      · exact hp.listed j ((he.others j hji).mp hj)
    · intro j t ht
      rcases set_get _ _ _ _ _ ht with ⟨rfl, rfl⟩ | ⟨hji, ht⟩
      · exact he.sound
      · exact sound_listeners (hp.sound j t ht) (he.others j hji)

theorem slots_deliver (n : ℕ) (fails : ℕ → Bool) (e : AuditEventRecord) (is : List ℕ)
    (p : Process) (hp : Slots n p) : Slots n (is.foldl (deliver fails e) p) := by
  induction is generalizing p with
  | nil => exact hp
  | cons i is ih =>
    apply ih
    exact slots_on n i p _ hp (fun s hs => onPublish_effect i _ e _ (hp.sound i s hs))

theorem slots_remember (n : ℕ) (e : AuditEventRecord) (p : Process) (hp : Slots n p) :
    Slots n (p.remember e) := by
  have hsame : (p.remember e).shared.bus.listeners = p.shared.bus.listeners :=
    p.shared.bus.remember_listeners e
  constructor
  · exact hp.count
  · exact hp.capped
  · rw [hsame]
    exact hp.listed
  · rw [hsame]
    exact hp.sound

theorem slots_publish (n : ℕ) (fails : ℕ → Bool) (e : AuditEventRecord) (p : Process)
    (hp : Slots n p) : Slots n (publish fails e p) :=
  slots_deliver n fails e _ _ (slots_remember n e p hp)

/-- No frame fails while an accepted request starts its stream. -/
def Started (cfg : Config) : Event → Process → Prop
  | .get param _ prelude fails, p =>
    p.shared.openCount < cfg.maxSseConnections →
      prelude = false ∧ ∀ n < (replayed (filtersOf param) p).length, fails n = false
  | _, _ => True

instance (cfg : Config) : ∀ (l : Event) (p : Process), Decidable (Started cfg l p)
  | .get param _ prelude fails, p =>
    inferInstanceAs (Decidable (p.shared.openCount < cfg.maxSseConnections →
      prelude = false ∧ ∀ n < (replayed (filtersOf param) p).length, fails n = false))
  | .publish _ _, _ | .tick _ _, _ | .abort _, _ | .cancel _, _ => isTrue trivial

theorem slots_get (cfg : Config) (n : ℕ) (hn : cfg.maxSseConnections = n)
    (param : JsText.Text → Option JsText.Text) (aborted prelude : Bool) (fails : ℕ → Bool)
    (p : Process) (hp : Slots n p) (hg : Started cfg (.get param aborted prelude fails) p) :
    Slots n (get cfg param aborted prelude fails p) := by
  rw [EventStream.get]
  split_ifs with hfull
  · exact ⟨hp.count, hp.capped, hp.listed, hp.sound⟩
  · have hroom : p.shared.openCount < n := by
      rw [hn, not_le] at hfull
      exact_mod_cast hfull
    obtain ⟨rfl, hfails⟩ := hg (not_le.mp hfull)
    have hnew : p.streams.length ∉ p.shared.bus.listeners :=
      fun h => absurd (hp.listed _ h) (lt_irrefl _)
    have hbus := p.shared.bus.subscribe_new p.streams.length hnew
    rw [accepted_sent cfg (filtersOf param) aborted fails p hfails]
    constructor
    · have hcount := hp.count
      simp only [acquireSseSlot, List.countP_append, List.countP_singleton, isOpen, opening,
        Bool.not_false, if_true]
      push_cast
      rw [hcount]
    · show p.shared.openCount+1 ≤ n
      exact hroom
    · intro j hj
      rw [List.length_append, List.length_singleton]
      change j ∈ (p.shared.bus.subscribe p.streams.length).listeners at hj
      rw [hbus, List.mem_append, List.mem_singleton] at hj
      rcases hj with hj | rfl
      · exact Nat.lt_succ_of_lt (hp.listed j hj)
      · exact Nat.lt_succ_self _
    · intro j s hs
      change Sound j (p.shared.bus.subscribe p.streams.length).listeners s
      rw [hbus]
      by_cases hj : j < p.streams.length
      · rw [List.getElem?_append_left hj] at hs
        apply sound_listeners (hp.sound j s hs)
        rw [List.mem_append, List.mem_singleton, or_iff_left hj.ne]
      · rw [List.getElem?_append_right (not_lt.mp hj), List.getElem?_singleton] at hs
        split_ifs at hs with hlast
        obtain rfl : j = p.streams.length := by omega
        obtain rfl := Option.some.inj hs
        constructor
        · simp
        · simp [opening]
        · simp [opening]
        · simp [opening]
        · simp [opening]

theorem slots_step (cfg : Config) (n : ℕ) (hn : cfg.maxSseConnections = n) (l : Event)
    (p q : Process) (hg : Started cfg l p) (hp : Slots n p) (hs : step cfg l p = some q) :
    Slots n q := by
  cases step_move hs with
  | get param aborted prelude fails =>
    exact slots_get cfg n hn param aborted prelude fails p hp hg
  | publish e fails =>
    exact slots_publish n fails e p hp
  | tick i fail =>
    exact slots_on n i p _ hp (fun s h => tick_effect i fail _ (hp.sound i s h))
  | abort i =>
    exact slots_on n i p _ hp (fun s h => abort_effect i _ (hp.sound i s h))
  | cancel i =>
    exact slots_on n i p _ hp (fun s h => cancel_effect i _ (hp.sound i s h))

def Lasting (p q : Process) : Prop :=
  ∀ (i : ℕ) (s : Stream), p.streams[i]? = some s → s.closed = true →
    ∃ t, q.streams[i]? = some t ∧ t.closed = true

theorem lasting_refl (p : Process) : Lasting p p := fun _ s hs hc => ⟨s, hs, hc⟩

theorem lasting_trans (p q r : Process) (hpq : Lasting p q) (hqr : Lasting q r) :
    Lasting p r := by
  intro i s hs hc
  obtain ⟨t, ht, hc'⟩ := hpq i s hs hc
  exact hqr i t ht hc'

theorem lasting_on (i : ℕ) (p : Process) (f : Local → Local)
    (hf : ∀ s, p.streams[i]? = some s → Effect i (p.shared, s) (f (p.shared, s))) :
    Lasting p (p.on i f) := by
  rw [Process.on]
  cases hs : p.streams[i]? with
  | none => exact lasting_refl p
  | some s =>
    intro j t ht hc
    by_cases hj : j = i
    · subst hj
      obtain rfl := Option.some.inj (hs.symm.trans ht)
      apply Exists.intro _
      constructor
      · exact ThreadPool.set_self _ _ _ _ hs
      · rcases (hf s hs).slot with ⟨-, hsame⟩ | ⟨-, hopen, -⟩
        · rw [hsame]
          exact hc
        · rw [show s.closed = false from hopen] at hc
          cases hc
    · exact ⟨t, by rw [ThreadPool.set_other _ _ _ _ hj, ht], hc⟩

theorem lasting_deliver (n : ℕ) (fails : ℕ → Bool) (e : AuditEventRecord) (is : List ℕ)
    (p : Process) (hp : Slots n p) : Lasting p (is.foldl (deliver fails e) p) := by
  induction is generalizing p with
  | nil => exact lasting_refl p
  | cons i is ih =>
    have hone := slots_deliver n fails e [i] p hp
    have hlast := lasting_on i p (onPublish i (fails i) e)
      (fun s hs => onPublish_effect i _ e _ (hp.sound i s hs))
    exact lasting_trans p _ _ hlast (ih _ hone)

theorem lasting_get (cfg : Config) (param : JsText.Text → Option JsText.Text)
    (aborted prelude : Bool) (fails : ℕ → Bool) (p : Process) :
    Lasting p (get cfg param aborted prelude fails p) := by
  rw [EventStream.get]
  split_ifs
  · exact lasting_refl p
  · intro i s hi hc
    apply Exists.intro s
    constructor
    · rw [List.getElem?_append_left (List.getElem?_eq_some_iff.mp hi).1]
      exact hi
    · exact hc

theorem lasting_step (cfg : Config) (n : ℕ) (l : Event) (p q : Process) (hp : Slots n p)
    (hs : step cfg l p = some q) : Lasting p q := by
  cases step_move hs with
  | get param aborted prelude fails =>
    exact lasting_get cfg param aborted prelude fails p
  | publish e fails =>
    exact lasting_deliver n fails e _ (p.remember e) (slots_remember n e p hp)
  | tick i fail =>
    exact lasting_on i p _ (fun s h => tick_effect i fail _ (hp.sound i s h))
  | abort i =>
    exact lasting_on i p _ (fun s h => abort_effect i _ (hp.sound i s h))
  | cancel i =>
    exact lasting_on i p _ (fun s h => cancel_effect i _ (hp.sound i s h))

theorem slots_initial (cfg : Config) (n : ℕ) : Slots n (initial cfg) := by
  constructor
  · rfl
  · exact Int.natCast_nonneg n
  · simp [initial]
  · simp [initial]

/-- The count is that of the accepted streams that are not cleaned up, within
its bounds; a stream has released its slot once if a signal to terminate it
was handled and never otherwise; and one that is cleaned up has no listener
and no timer. -/
structure Accounted (cfg : Config) (p : Process) : Prop where
  count : p.shared.openCount = (p.streams.countP isOpen : ℤ)
  nonnegative : 0 ≤ p.shared.openCount
  capped : (p.shared.openCount : ℚ) ≤ cfg.maxSseConnections
  once : ∀ s ∈ p.streams, s.released = if s.signalled then 1 else 0
  cleaned : ∀ (i : ℕ) (s : Stream), p.streams[i]? = some s → s.closed = true →
    i ∉ p.shared.bus.listeners ∧ s.heartbeat = false

theorem accounted_slots (cfg : Config) (n : ℕ) (hn : cfg.maxSseConnections = n) (p : Process)
    (hp : Slots n p) : Accounted cfg p := by
  constructor
  · exact hp.count
  · rw [hp.count]
    exact Int.natCast_nonneg _
  · rw [hn]
    exact_mod_cast hp.capped
  · intro s hs
    obtain ⟨i, hi⟩ := List.mem_iff_getElem?.mp hs
    have hsound := hp.sound i s hi
    rw [hsound.first]
    exact hsound.once
  · intro i s hs hc
    have hsound := hp.sound i s hs
    constructor
    · rw [hsound.listed, hsound.silent hc]
      exact Bool.false_ne_true
    · exact hsound.still hc

theorem slots_run (cfg : Config) (n : ℕ) (hn : cfg.maxSseConnections = n) (ls : List Event)
    (p q : Process) (hg : Guarded (step cfg) (Started cfg) ls p) (hp : Slots n p)
    (hr : run (step cfg) ls p = some q) : Slots n q ∧ Lasting p q :=
  run_invariant _ (Started cfg) (fun r => Slots n r ∧ Lasting p r)
    (fun l s t hok hi hs => ⟨slots_step cfg n hn l s t hok hi.1 hs,
      lasting_trans p s t hi.2 (lasting_step cfg n l s t hi.1 hs)⟩)
    ls p q hg ⟨hp, lasting_refl p⟩ hr

theorem slots_accounted (cfg : Config) (n : ℕ) (hn : cfg.maxSseConnections = n)
    (before after : List Event) (u p : Process)
    (hg : Guarded (step cfg) (Started cfg) (before++after) (initial cfg))
    (hu : run (step cfg) before (initial cfg) = some u) (hr : run (step cfg) after u = some p) :
    Accounted cfg p ∧ ∀ (i : ℕ) (s : Stream), u.streams[i]? = some s → s.closed = true →
      ∃ t, p.streams[i]? = some t ∧ i ∉ p.shared.bus.listeners ∧ t.heartbeat = false := by
  obtain ⟨hbefore, hafter⟩ := (guarded_append _ _ _ _ _ _ hu).mp hg
  have hslots := (slots_run cfg n hn before _ u hbefore (slots_initial cfg n) hu).1
  obtain ⟨hlater, hlasting⟩ := slots_run cfg n hn after u p hafter hslots hr
  have haccounted := accounted_slots cfg n hn p hlater
  constructor
  · exact haccounted
  · intro i s hs hc
    obtain ⟨t, ht, hclosed⟩ := hlasting i s hs hc
    exact ⟨t, ht, haccounted.cleaned i t ht hclosed⟩

section Scenario
open ControlPlane.JsText ControlPlane.JsValue

def twoStreams : Config := ⟨2, 15000, 500⟩

def record : AuditEventRecord :=
  ⟨[(js "id", .str (js "e-1"))], js "e-1", rfl, ⟨trivial, trivial⟩⟩

def connect (fails : ℕ → Bool) : Event := .get (fun _ => none) false false fails

def served : List Event :=
  [.publish record (fun _ => false), connect (fun _ => false), connect (fun _ => false),
    connect (fun _ => false), .publish record (fun i => i = 1), .tick 0 false, .abort 0]

def afterwards : List Event := [.cancel 0, .abort 0, .publish record (fun _ => true)]

theorem slots_accounted_served : ∃ u p, run (step twoStreams) served (initial twoStreams) = some u ∧
    run (step twoStreams) afterwards u = some p ∧ p.shared.rejectedTotal = 1 ∧
      Accounted twoStreams p ∧ ∃ t, p.streams[0]? = some t ∧ 0 ∉ p.shared.bus.listeners ∧
        t.heartbeat = false := by
  refine ⟨_, _, rfl, rfl, rfl, ?_, ?_⟩
  · exact (slots_accounted twoStreams 2 (by norm_num [twoStreams]) served afterwards _ _
      (by decide +kernel) rfl rfl).1
  · exact (slots_accounted twoStreams 2 (by norm_num [twoStreams]) served afterwards _ _
      (by decide +kernel) rfl rfl).2 0 _ rfl rfl

/-- A replayed record that cannot be enqueued closes the stream, and `start`
then arms its heartbeat. -/
theorem replay_failure_leaks_timer :
    ¬ ∀ (cfg : Config) (n : ℕ) (ls : List Event) (p : Process), cfg.maxSseConnections = n →
      run (step cfg) ls (initial cfg) = some p → Accounted cfg p := by
  intro h
  have ha := h twoStreams 2 [.publish record (fun _ => false), connect (fun _ => true)] _
    (by norm_num [twoStreams]) rfl
  have hstill := (ha.cleaned 0 _ rfl (by decide +kernel)).2
  exact absurd hstill (by decide +kernel)

end Scenario

end ControlPlane.StreamSlots
