import Mathlib.Data.Set.Card
import Mathlib.Tactic.IntervalCases
import ControlPlane.BatchDrain
import ControlPlane.DeliveryRecovery

/-!
# Recovery of the webhook outbox

The reaper of a restarted process flushes the due rows in passes of at most
five hundred. Once the longest wait of a row is over, as many passes as the
pending rows need leave none of them behind, whatever else the process is
asked to deliver meanwhile.
-/

set_option autoImplicit false

namespace ControlPlane.OutboxRecovery
open ControlPlane.JsText ControlPlane.JsValue ControlPlane.CircuitBreaker
open ControlPlane.RunMachine ControlPlane.ThreadPool ControlPlane.DeliveryMachine
open ControlPlane.DeliverySteps ControlPlane.DeliveryWaits ControlPlane.DeliveryRecovery
open ControlPlane.BatchDrain
open ControlPlane.RetryBackoff (exactMs exactMs_mono nextRetryAt_some)

def flushBatchLimit : ℕ := 500

variable {svc : Service}

def pendingIds (w : World) : Set DeliveryId :=
  {id | ∃ d, w.deliveries id = some d ∧ d.status = .pending}

def dueIds (w : World) : Set DeliveryId :=
  {id | ∃ d, w.deliveries id = some d ∧ due w.now d = true}

def Quiescent (k : ℕ) (t : State) : Prop :=
  ∀ j c, k ≤ j → t.threads[j]? = some c → c.pc = .done

/-- Calls of `flushDueRetries`, one after the other: each selects due rows up
to its limit, starts a call for every row it selected and is over when the
calls are. That it starts them in slices only excludes some of the orders. -/
inductive Passes (svc : Service) (p : Proc) (k : ℕ) : ℕ → State → State → Prop
  | none (s : State) : Passes svc p k 0 s s
  | pass (n : ℕ) (s t u : State) (batch : Finset DeliveryId) (ls : List Event)
    (hb : Batch flushBatchLimit (dueIds s.world) batch)
    (hg : Guarded (next svc) (Calm p k) ls s) (hr : run (next svc) ls s = some t)
    (hall : ∀ id ∈ batch, .env (.attempt p id) ∈ ls) (hq : Quiescent k t)
    (rest : Passes svc p k n t u) : Passes svc p k (n+1) s u

def HasCall (k : ℕ) (id : DeliveryId) (t : State) : Prop :=
  ∃ j c, k ≤ j ∧ t.threads[j]? = some c ∧ c.delivery = id

theorem hasCall_append (k : ℕ) (id : DeliveryId) (t : State) (w : World) (o : Option Call)
    (h : HasCall k id t) : HasCall k id ⟨w, t.threads++o.toList⟩ := by
  obtain ⟨j, c, hj, hc, hid⟩ := h
  obtain ⟨hlt, _⟩ := List.getElem?_eq_some_iff.mp hc
  exact ⟨j, c, hj, by rw [List.getElem?_append_left hlt, hc], hid⟩

theorem hasCall_new (k : ℕ) (t : State) (w : World) (c : Call) (hk : k ≤ t.threads.length) :
    HasCall k c.delivery ⟨w, t.threads++(some c).toList⟩ :=
  ⟨t.threads.length, c, hk, by simp, rfl⟩

theorem hasCall_step (k : ℕ) (id : DeliveryId) (l : Event) (t q : State) (h : HasCall k id t)
    (hs : next svc l t = some q) : HasCall k id q := by
  cases l with
  | env e =>
    obtain ⟨w, o, _, rfl⟩ := (step_env_some _ _ _ _).mp hs
    exact hasCall_append k id t w o h
  | act i io =>
    obtain ⟨c, w, c', hc, hm, rfl⟩ := act_next svc i io t q hs
    obtain ⟨j, u, hj, hu, hid⟩ := h
    by_cases hji : j = i
    · subst hji
      obtain rfl : c = u := Option.some.inj (hc.symm.trans hu)
      exact ⟨j, c', hj, set_self _ j c c' hc, (move_delivery hm).1.trans hid⟩
    · exact ⟨j, u, hj, (set_other _ i j c' hji).trans hu, hid⟩

theorem attempt_hasCall (s : State) (p : Proc) (ls : List Event) (t q : State) (id : DeliveryId)
    (hg : Guarded (next svc) (Calm p s.threads.length) ls t) (hi : Recovering s p t)
    (hr : run (next svc) ls t = some q) (hid : .env (.attempt p id) ∈ ls) :
    HasCall s.threads.length id q := by
  obtain ⟨before, after, rfl⟩ := List.append_of_mem hid
  obtain ⟨u, hu, hrest⟩ := (run_append_some _ before _ t q).mp hr
  obtain ⟨v, hv, hafter⟩ := (run_cons_some _ _ after u q).mp hrest
  obtain ⟨hbefore, _⟩ := (guarded_append _ _ before _ t u hu).mp hg
  have hlen := (recovering_run s p before t u hbefore hi hu).threads
  obtain ⟨w, o, he, rfl⟩ := (step_env_some _ _ _ _).mp hv
  simp only [deliverySystem, env, Option.some.injEq, Prod.mk.injEq] at he
  obtain ⟨rfl, rfl⟩ := he
  exact run_invariant _ (fun _ _ => True) (HasCall s.threads.length id)
    (fun l a b _ => hasCall_step _ id l a b) after _ q (guarded_true _ after _)
    (hasCall_new _ u u.world (begin p id) hlen) hafter

theorem hasCall_settled (s t : State) (p : Proc) (hi : Recovering s p t)
    (hq : Quiescent s.threads.length t) (id : DeliveryId) (hc : HasCall s.threads.length id t) :
    id ∉ pendingIds t.world := by
  rintro ⟨d, hd, hs⟩
  obtain ⟨j, c, hj, hc, hid⟩ := hc
  rcases hi.cared id d hd hs with ⟨j', u, hj', hu, _, hp⟩ | hcur
  · simp [hq j' u hj' hu, underway] at hp
  · exact (hcur j c hj hc hid).1 (hq j c hj hc)

theorem pending_good {w w' : World} {c c' : Call} (h : Good svc w c w' c') (id : DeliveryId)
    (hid : id ∈ pendingIds w') : id ∈ pendingIds w := by
  obtain ⟨d, hd, hs⟩ := hid
  cases h with
  | claim a d₀ _ hd₀ _ hs₀ =>
    rcases row_some _ _ _ _ _ hd with ⟨_, hold⟩ | ⟨rfl, _⟩
    · exact ⟨d, hold, hs⟩
    · exact ⟨d₀, hd₀, hs₀⟩
  | settle o _ ho =>
    rcases row_some _ _ _ _ _ hd with ⟨_, hold⟩ | ⟨rfl, d₀, _, rfl⟩
    · exact ⟨d, hold, hs⟩
    · exact (ho (by rwa [apply_status] at hs)).elim
  | _ => exact ⟨d, hd, hs⟩

def Attended (k : ℕ) (u t : State) : Prop :=
  ∀ id ∈ pendingIds t.world, id ∈ pendingIds u.world ∨ HasCall k id t

theorem attended_step (s u : State) (p : Proc) (l : Event) (t q : State)
    (hcalm : Calm p s.threads.length l t) (hi : Recovering s p t)
    (ha : Attended s.threads.length u t) (hs : next svc l t = some q) :
    Attended s.threads.length u q := by
  intro id hid
  have hstep : HasCall s.threads.length id t → HasCall s.threads.length id q :=
    fun h => hasCall_step _ id l t q h hs
  cases l with
  | act i io =>
    obtain ⟨c, w, c', hc, hm, rfl⟩ := act_next svc i io t q hs
    have hok := hi.calls i c hcalm.1 hc
    have hg := good_move hm hcalm.2 _ hok.course (hok.proc ▸ hi.closed)
    exact (ha id (pending_good hg id hid)).imp_right hstep
  | env e =>
    obtain ⟨w, o, he, rfl⟩ := (step_env_some _ _ _ _).mp hs
    obtain ⟨d, hd, hst⟩ := hid
    rcases DeliverySignatures.env_rows e _ _ _ he with hrows | ⟨proc, id', k, cand, ty, v, rfl⟩
    · exact (ha id ⟨d, hrows id d hd, hst⟩).imp_right hstep
    · simp only [deliverySystem, env] at he
      split_ifs at he
      simp only [Option.some.injEq, Prod.mk.injEq] at he
      obtain ⟨rfl, rfl⟩ := he
      by_cases hne : id = id'
      · subst hne
        exact Or.inr (hasCall_new _ t _ (begin proc id) hi.threads)
      · have hold : t.world.deliveries id = some d := by simpa [hne] using hd
        exact (ha id ⟨d, hold, hst⟩).imp_right hstep

theorem attended_run (s u : State) (p : Proc) (ls : List Event) (t q : State)
    (hg : Guarded (next svc) (Calm p s.threads.length) ls t) (hi : Recovering s p t)
    (ha : Attended s.threads.length u t) (hr : run (next svc) ls t = some q) :
    Attended s.threads.length u q :=
  (run_invariant _ (Calm p s.threads.length)
    (fun t => Recovering s p t ∧ Attended s.threads.length u t)
    (fun l a b hc hi hs => ⟨recovering_step s p l a b hc hi.1 hs,
      attended_step s u p l a b hc hi.1 hi.2 hs⟩) ls t q hg ⟨hi, ha⟩ hr).2

theorem pass_pending (s : State) (p : Proc) (ls : List Event) (t q : State)
    (batch : Finset DeliveryId) (hi : Recovering s p t)
    (hg : Guarded (next svc) (Calm p s.threads.length) ls t) (hr : run (next svc) ls t = some q)
    (hall : ∀ id ∈ batch, .env (.attempt p id) ∈ ls) (hq : Quiescent s.threads.length q)
    (id : DeliveryId) (hid : id ∈ pendingIds q.world) :
    id ∈ pendingIds t.world ∧ id ∉ batch := by
  have hend := recovering_run s p ls t q hg hi hr
  have hno : ¬ HasCall s.threads.length id q :=
    fun h => hasCall_settled s q p hend hq id h hid
  constructor
  · exact (attended_run s t p ls t q hg hi (fun _ h => Or.inl h) hr id hid).resolve_right hno
  · exact fun hb => hno (attempt_hasCall s p ls t q id hg hi hr (hall id hb))

theorem rows_finite_step (l : Event) (t q : State)
    (hi : {id | t.world.deliveries id ≠ none}.Finite) (hs : next svc l t = some q) :
    {id | q.world.deliveries id ≠ none}.Finite := by
  have hsubset : ∀ w : World, (∀ id d, w.deliveries id = some d →
      ∃ d', t.world.deliveries id = some d') → {id | w.deliveries id ≠ none}.Finite := by
    intro w hw
    apply hi.subset
    intro id hid
    obtain ⟨d, hd⟩ := Option.ne_none_iff_exists'.mp hid
    obtain ⟨d', hd'⟩ := hw id d hd
    simp [hd']
  cases l with
  | act i io =>
    obtain ⟨c, w, c', _, hm, rfl⟩ := act_next svc i io t q hs
    apply hsubset
    intro id d hd
    obtain ⟨d', hd', _⟩ := move_row hm id d hd
    exact ⟨d', hd'⟩
  | env e =>
    obtain ⟨w, o, he, rfl⟩ := (step_env_some _ _ _ _).mp hs
    rcases DeliverySignatures.env_rows e _ _ _ he with hrows | ⟨proc, id', k, cand, ty, v, rfl⟩
    · exact hsubset w (fun id d hd => ⟨d, hrows id d hd⟩)
    · simp only [deliverySystem, env] at he
      split_ifs at he
      simp only [Option.some.injEq, Prod.mk.injEq] at he
      obtain ⟨rfl, rfl⟩ := he
      apply (hi.insert id').subset
      intro id hid
      by_cases hne : id = id'
      · exact Or.inl hne
      · right
        simpa [hne] using hid

theorem pending_finite (now : Instant) (ls : List Event) (s : State)
    (hr : run (next svc) ls (start now) = some s) : (pendingIds s.world).Finite := by
  have hrows : {id | s.world.deliveries id ≠ none}.Finite := by
    apply run_invariant (next svc) (fun _ _ => True)
      (fun t => {id | t.world.deliveries id ≠ none}.Finite)
      (fun l t q _ => rows_finite_step l t q) ls (start now) s (guarded_true _ ls _) ?_ hr
    simp [start, initial]
  apply hrows.subset
  rintro id ⟨d, hd, _⟩
  simp [hd]

theorem due_pending (w : World) (id : DeliveryId) (h : id ∈ dueIds w) : id ∈ pendingIds w := by
  obtain ⟨d, hd, hdue⟩ := h
  simp only [due, decide_eq_true_eq] at hdue
  exact ⟨d, hd, hdue.1⟩

theorem waited_due (s t : State) (p : Proc) (bound : ℤ) (hw : Waiting bound s)
    (hi : Recovering s p t) (hnow : s.world.now+bound ≤ t.world.now) (id : DeliveryId)
    (hs : id ∈ pendingIds s.world) (ht : id ∈ pendingIds t.world) : id ∈ dueIds t.world := by
  obtain ⟨d, hd, hst⟩ := hs
  obtain ⟨d', hd', hst'⟩ := ht
  obtain ⟨d₁, hd₁, hrow⟩ := hi.rows id d hd hst
  obtain rfl : d₁ = d' := Option.some.inj (hd₁.symm.trans hd')
  have hdue := waiting_due s hw id d hd hst t.world.now hnow
  simp only [due, decide_eq_true_eq] at hdue
  refine ⟨d₁, hd₁, ?_⟩
  simp only [due, decide_eq_true_eq]
  exact ⟨hst', hrow.waits hst' ▸ hdue.2⟩

theorem now_step (l : Event) (t q : State) (hs : next svc l t = some q) :
    t.world.now ≤ q.world.now := by
  cases l with
  | env e =>
    obtain ⟨w, o, he, rfl⟩ := (step_env_some _ _ _ _).mp hs
    exact env_now e _ _ _ he
  | act i io =>
    obtain ⟨c, w, c', _, hm, rfl⟩ := act_next svc i io t q hs
    exact (move_now hm).ge

theorem now_run (ls : List Event) (t q : State) (hr : run (next svc) ls t = some q) :
    t.world.now ≤ q.world.now :=
  run_invariant _ (fun _ _ => True) (fun u => t.world.now ≤ u.world.now)
    (fun l a b _ hi hs => hi.trans (now_step l a b hs)) ls t q (guarded_true _ ls t) le_rfl hr

theorem passes_drain (s : State) (p : Proc) (bound : ℤ) (hw : Waiting bound s) (n : ℕ)
    (t u : State) (h : Passes svc p s.threads.length n t u) (hi : Recovering s p t)
    (hnow : s.world.now+bound ≤ t.world.now) (hfin : (pendingIds t.world).Finite) :
    Recovering s p u ∧ ∃ hfin' : (pendingIds u.world).Finite,
      Drain flushBatchLimit (pendingIds s.world) n 0 hfin.toFinset hfin'.toFinset := by
  induction h with
  | none t => exact ⟨hi, hfin, Drain.none _⟩
  | pass n t v u batch ls hb hg hr hall hq rest ih =>
    have hpending := pass_pending s p ls t v batch hi hg hr hall hq
    have hfin' : (pendingIds v.world).Finite := hfin.subset (fun id hid => (hpending id hid).1)
    obtain ⟨hend, hfin'', hdrain⟩ := ih (recovering_run s p ls t v hg hi hr)
      (hnow.trans (now_run ls t v hr)) hfin'
    refine ⟨hend, hfin'', ?_⟩
    have hpass := Drain.pass n 0 hfin.toFinset hfin'.toFinset hfin''.toFinset batch ∅
      (dueIds t.world) hb ?_ ?_ ?_ ?_ hdrain
    · simpa using hpass
    · intro id hid
      simpa using due_pending t.world id hid
    · intro id hs ht
      exact waited_due s t p bound hw hi hnow id hs (by simpa using ht)
    · intro id hid
      left
      simpa using hpending id (by simpa using hid)
    · simp

/-- After any run, and whatever it left unfinished, a process with closed
breakers that waits for the longest delay and then makes enough passes leaves
no row pending that was: it has posted each row of an active webhook and
recorded the delivery, and failed the others. -/
theorem outbox_recovers (svc : Service) (bound : ℤ) (hb : Longest svc bound) (now : Instant)
    (before wait : List Event) (s t u : State) (p : Proc) (n : ℕ)
    (hs : run (next svc) before (start now) = some s)
    (hp : ∀ h, (s.world.breakers p h).state = .closed)
    (hg : Guarded (next svc) (Calm p s.threads.length) wait s)
    (ht : run (next svc) wait s = some t) (hwait : s.world.now+bound ≤ t.world.now)
    (hu : Passes svc p s.threads.length n t u)
    (hn : (pendingIds t.world).ncard ≤ n*flushBatchLimit) (id : DeliveryId) (d : Delivery)
    (hd : s.world.deliveries id = some d) (hst : d.status = .pending) :
    ∃ d', u.world.deliveries id = some d' ∧
      if isActive s.world d.webhookId then
        d'.status = .delivered ∧ (postsOf s.world id).length < (postsOf u.world id).length
      else d'.status = .failed := by
  have howned := owned_run svc before _ s (owned_start now) hs
  have hwaiting := waiting_run hb before _ s (waiting_start now) hs
  have hstart := recovering_start s p howned hp
  have hmid := recovering_run s p wait s t hg hstart ht
  have hfin : (pendingIds t.world).Finite :=
    @pending_finite svc now (before++wait) t
      ((run_append_some _ before wait _ t).mpr ⟨s, hs, ht⟩)
  obtain ⟨hend, hfin', hdrain⟩ := passes_drain s p bound hwaiting n t u hu hmid hwait hfin
  have hgone : id ∉ pendingIds u.world := by
    have := drained hdrain (by rwa [Nat.add_zero, ← Set.ncard_eq_toFinset_card _ hfin]) id
      ⟨d, hd, hst⟩
    simpa using this
  obtain ⟨d', hd', hrow⟩ := hend.rows id d hd hst
  refine ⟨d', hd', ?_⟩
  cases hst' : d'.status with
  | pending => exact (hgone ⟨d', hd', hst'⟩).elim
  | delivered =>
    rw [if_pos (hrow.delivered hst').1]
    exact ⟨rfl, (hrow.delivered hst').2⟩
  | failed => rw [hrow.failed hst', if_neg Bool.false_ne_true]

def crashed : List Event := [created, enqueued [1]]++posting 0

def waited : List Event := [.env (.tick 120000)]

def resumed : List Event := .env (.attempt 1 [1])::posting 1++[answered 1 200 [], .act 1 .ok]

def afterCrash : State := (run (next service) crashed (start 0)).getD (start 0)

def afterWait : State := (run (next service) waited afterCrash).getD (start 0)

def afterPass : State := (run (next service) resumed afterWait).getD (start 0)

theorem service_longest : Longest service 120000 := by
  constructor
  · intro n hn hlt now t ht
    have hlt' : n < 3 := by exact_mod_cast (show (n : ℚ) < ((3 : ℕ) : ℚ) from hlt)
    rw [nextRetryAt_some now t n hn (by omega) ht]
    have hmono : exactMs n ≤ exactMs 2 := exactMs_mono n 2 (by omega)
    exact Int.add_le_add_left (hmono.trans (by decide)) now
  · decide
  · decide

theorem afterWait_pending (id : DeliveryId) (h : id ∈ pendingIds afterWait.world) : id = [1] := by
  obtain ⟨d, hd, _⟩ := h
  have howned := owned_run service (crashed++waited) _ afterWait (owned_start 0) rfl
  have howner : afterWait.world.owner = Function.update (fun _ => none) [1] (some [7]) := rfl
  have := howned.world id d hd
  by_contra hne
  simp [howner, hne] at this

theorem resumed_passes :
    Passes service 1 afterCrash.threads.length 1 afterWait afterPass := by
  apply Passes.pass 0 afterWait afterPass afterPass {[1]} resumed ?_ (by decide) rfl ?_ ?_
    (Passes.none _)
  · constructor
    · intro id hid
      obtain rfl := Finset.mem_singleton.mp hid
      exact ⟨_, rfl, rfl⟩
    · decide
    · intro _ id hid
      exact Finset.mem_singleton.mpr (afterWait_pending id (due_pending _ id hid))
  · intro id hid
    obtain rfl := Finset.mem_singleton.mp hid
    exact List.mem_cons_self
  · intro j c hj hc
    obtain ⟨hlt, _⟩ := List.getElem?_eq_some_iff.mp hc
    obtain rfl : j = 1 := by
      have h1 : afterCrash.threads.length = 1 := rfl
      have h2 : afterPass.threads.length = 2 := rfl
      omega
    cases hc
    rfl

theorem outbox_recovers_crashed : ∃ d', afterPass.world.deliveries [1] = some d' ∧
    if isActive afterCrash.world [7] then
      d'.status = .delivered ∧
        (postsOf afterCrash.world [1]).length < (postsOf afterPass.world [1]).length
    else d'.status = .failed := by
  apply outbox_recovers service 120000 service_longest 0 crashed waited afterCrash afterWait
    afterPass 1 1 rfl (fun _ => rfl) (by decide) rfl (by decide) resumed_passes ?_ [1] _ rfl rfl
  apply (Set.ncard_le_ncard (t := {[1]}) afterWait_pending (Set.finite_singleton _)).trans
  rw [Set.ncard_singleton]
  decide

end ControlPlane.OutboxRecovery
