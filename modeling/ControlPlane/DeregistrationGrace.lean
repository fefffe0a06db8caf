import ControlPlane.ExpiryEvents

/-!
# The grace of a deregistered agent

Retention deletes a deregistered row by its last sign of life, since no column
says when it was deregistered. A row that was silent before it was
deregistered is deleted before its grace is over.
-/

set_option autoImplicit false

namespace ControlPlane.DeregistrationGrace
open ControlPlane.JsText ControlPlane.JsValue
open ControlPlane.RegistrationMachine (AgentStatus newAgent)
open ControlPlane.AgentLifecycle ControlPlane.KeyedRows ControlPlane.RunMachine
open ControlPlane.ThreadPool ControlPlane.ExpiryEvents

def StaysDeregistered (s : Setting) (aid : Text) (ls : List Event) (u : State) : Prop :=
  Guarded (next s) (fun _ v => status v aid = some .deregistered) ls u

def DeregisteredFor (s : Setting) (now₀ : Instant) (before : List Event) (t : Instant)
    (aid : Text) : Prop :=
  ∃ as bs u, before = as++bs ∧ run (next s) as (start now₀) = some u ∧
    u.world.now+graceMs s ≤ t ∧ StaysDeregistered s aid bs u

def Deletes (aid : Text) (p q : State) : Prop :=
  (status p aid).isSome = true ∧ status q aid = none

/-- The last sign of life of a deregistered agent lies before the grace, and
its deregistration does not. -/
def Early (s : Setting) (p : State) (t : Instant) (a : AgentRow) : Prop :=
  0 < s.expiredAgentGraceDays ∧ (∃ cutoff ∈ graceCutoff s t, purgeable cutoff a = true) ∧
    ∃ since ∈ p.world.deregistrations.lookup a.aid, (t : ℚ) < since+graceMs s

def Spared (s : Setting) (p : State) (t : Instant) : Prop :=
  ∀ a ∈ p.world.agents, ¬ Early s p t a

/-- The rows that a sweep deletes had been deregistered for the whole grace
when it read the clock. -/
def DeletesOld (s : Setting) (now₀ : Instant) (before : List Event) (p : State) (lag : ℕ) :
    Prop :=
  ∀ q aid, next s (.env (.retain lag)) p = some q → Deletes aid p q →
    DeregisteredFor s now₀ before (p.world.now-lag) aid

def EverySweep (s : Setting) (now₀ : Instant) (ls : List Event)
    (P : List Event → State → ℕ → Prop) : Prop :=
  ∀ before lag after p, ls = before++.env (.retain lag)::after →
    run (next s) before (start now₀) = some p → P before p lag

theorem lookup_note (w : World) (aid aid' : Text) (h : isRegistered w.agents aid = false) :
    (noteDeregistration w aid').lookup aid = w.deregistrations.lookup aid := by
  unfold noteDeregistration
  split_ifs with hr
  · have hne : (aid == toWellFormed aid') = false := by
      rw [beq_eq_false_iff_ne]
      rintro rfl
      exact absurd hr (by simp [h])
    rw [List.lookup_cons, hne]
  · rfl

theorem env_deregistrations (s : Setting) (e : Env) (w w' : World) (o : Option Phase)
    (h : env s e w = some (w', o)) : w'.deregistrations = w.deregistrations ∨
      ∃ aid, e = .deactivate aid ∧ w'.deregistrations = noteDeregistration w aid := by
  cases e with
  | register r =>
    simp only [env] at h
    split_ifs at h
    cases h
    exact Or.inl rfl
  | deactivate aid => cases h; exact Or.inr ⟨aid, rfl, rfl⟩
  | _ => cases h; exact Or.inl rfl

theorem act_world (s : Setting) (i : ℕ) (io : Io) (p q : State)
    (h : next s (.act i io) p = some q) :
    q.world.deregistrations = p.world.deregistrations ∧ q.world.now = p.world.now := by
  obtain ⟨ph, w, ph', -, ha, rfl⟩ := (step_act_some (lifecycle s) i io p q).mp h
  cases ph with
  | claiming reason now =>
    simp only [lifecycle, expiryStep] at ha
    split at ha <;> (cases ha; exact ⟨rfl, rfl⟩)
  | emitting reason now todo =>
    cases todo with
    | cons r rest => cases ha; exact ⟨rfl, rfl⟩
    | nil => cases reason <;> (cases ha; exact ⟨rfl, rfl⟩)
  | done => cases ha

theorem deregistered_unregistered (p : State) (hk : Keyed p.world) (aid : Text)
    (h : status p aid = some .deregistered) : isRegistered p.world.agents aid = false := by
  obtain ⟨a, ha, haid, hst⟩ := (status_eq p hk aid .deregistered).mp h
  unfold isRegistered
  rw [List.any_eq_false]
  intro b hb
  simp only [Bool.and_eq_true, decide_eq_true_eq, not_and, ne_eq, not_not]
  intro hbaid
  rw [List.inj_on_of_nodup_map hk hb ha (hbaid.trans haid.symm), hst]

theorem lookup_kept (s : Setting) (l : Event) (p q : State) (hk : Keyed p.world) (aid : Text)
    (hst : status p aid = some .deregistered) (h : next s l p = some q) :
    q.world.deregistrations.lookup aid = p.world.deregistrations.lookup aid := by
  cases l with
  | act i io => rw [(act_world s i io p q h).1]
  | env e =>
    obtain ⟨w, o, he, rfl⟩ := (step_env_some (lifecycle s) e p q).mp h
    rcases env_deregistrations s e p.world w o he with hsame | ⟨aid', -, hnote⟩
    · rw [hsame]
    · rw [hnote]
      exact lookup_note p.world aid aid' (deregistered_unregistered p hk aid hst)

theorem becomes_deregistered (s : Setting) (l : Event) (p q : State) (hk : Keyed p.world)
    (aid : Text) (hp : status p aid ≠ some .deregistered)
    (hq : status q aid = some .deregistered) (h : next s l p = some q) :
    q.world.deregistrations.lookup aid = some q.world.now := by
  have hkq := keyed_next s l p q hk h
  cases l with
  | act i io =>
    rcases act_agent s i io p q hk h aid with ⟨hsame, -⟩ | ⟨-, hexpired, -⟩
    · exact absurd (hsame ▸ hq) hp
    · exact absurd (hexpired.symm.trans hq) (by decide)
  | env e =>
    obtain ⟨b, hb, hbaid, hbst⟩ := (status_eq q hkq aid .deregistered).mp hq
    obtain ⟨w, o, he, rfl⟩ := (step_env_some (lifecycle s) e p q).mp h
    rcases env_row s e p.world w o he b hb with ⟨a, ha, haaid, hast⟩ | hactive | ⟨aid', rfl, hw, -⟩
    · apply absurd _ hp
      exact (status_eq p hk aid .deregistered).mpr ⟨a, ha, haaid.trans hbaid, hast.trans hbst⟩
    · exact absurd (hactive.symm.trans hbst) (by decide)
    · cases he
      obtain ⟨a, ha, rfl⟩ := mem_updateWhere _ _ _ b hb
      have haaid : a.aid = aid := by
        rw [← hbaid]
        split_ifs <;> rfl
      have hreg : isRegistered p.world.agents aid = true := by
        unfold isRegistered
        rw [List.any_eq_true]
        apply Exists.intro a
        apply And.intro ha
        simp only [Bool.and_eq_true, decide_eq_true_eq]
        apply And.intro haaid
        intro hst
        exact hp ((status_eq p hk aid .deregistered).mpr ⟨a, ha, haaid, hst⟩)
      have hname : toWellFormed aid' = aid := hw.symm.trans hbaid
      simp [noteDeregistration, hname, hreg]

/-- A deregistered row has been so since a state of the run that the record
of its deregistration tells the moment of. -/
def Recorded (s : Setting) (now₀ : Instant) (before : List Event) (p : State) (aid : Text) :
    Prop :=
  ∃ as bs u, before = as++bs ∧ run (next s) as (start now₀) = some u ∧
    StaysDeregistered s aid bs u ∧ p.world.deregistrations.lookup aid = some u.world.now

theorem recorded_snoc (s : Setting) (now₀ : Instant) (before : List Event) (l : Event)
    (p q : State) (aid : Text) (hr : run (next s) before (start now₀) = some p)
    (hk : Keyed p.world) (h : next s l p = some q) (hst : status p aid = some .deregistered)
    (hrec : Recorded s now₀ before p aid) : Recorded s now₀ (before++[l]) q aid := by
  obtain ⟨as, bs, u, rfl, hu, hstays, hlookup⟩ := hrec
  obtain ⟨v, hv, hp⟩ := (run_append_some (next s) as bs (start now₀) p).mp hr
  obtain rfl : u = v := Option.some.inj (hu.symm.trans hv)
  apply Exists.intro as
  apply Exists.intro (bs++[l])
  apply Exists.intro u
  apply And.intro (List.append_assoc as bs [l])
  apply And.intro hu
  constructor
  · unfold StaysDeregistered
    rw [guarded_append (next s) _ bs [l] u p hp]
    exact ⟨hstays, hst, fun _ _ => trivial⟩
  · rw [lookup_kept s l p q hk aid hst h]
    exact hlookup

theorem run_recorded (s : Setting) (now₀ : Instant) (ls : List Event) (p : State)
    (hr : run (next s) ls (start now₀) = some p) : Keyed p.world ∧
      ∀ aid, status p aid = some .deregistered → Recorded s now₀ ls p aid := by
  apply run_history (next s)
    (fun before p => Keyed p.world ∧
      ∀ aid, status p aid = some .deregistered → Recorded s now₀ before p aid)
    (start now₀) _ _ ls p hr
  · constructor
    · exact keyed_start now₀
    · intro aid h
      cases h
  · intro before l t u hrun hi hs
    apply And.intro (keyed_next s l t u hi.1 hs)
    intro aid hst
    by_cases ht : status t aid = some .deregistered
    · exact recorded_snoc s now₀ before l t u aid hrun hi.1 hs ht (hi.2 aid ht)
    · have hlookup := becomes_deregistered s l t u hi.1 aid ht hst hs
      have hrun' : run (next s) (before++[l]) (start now₀) = some u :=
        (run_append_some (next s) before [l] (start now₀) u).mpr
          ⟨t, hrun, (run_cons_some (next s) l [] t u).mpr ⟨u, hs, rfl⟩⟩
      exact ⟨before++[l], [], u, (List.append_nil _).symm, hrun', trivial, hlookup⟩

theorem stays_lookup (s : Setting) (aid : Text) (ls : List Event) (u p : State)
    (hk : Keyed u.world) (hstays : StaysDeregistered s aid ls u)
    (hr : run (next s) ls u = some p) :
    p.world.deregistrations.lookup aid = u.world.deregistrations.lookup aid := by
  have hrule := run_invariant (next s) (fun _ v => status v aid = some .deregistered)
    (fun v : State => Keyed v.world ∧
      v.world.deregistrations.lookup aid = u.world.deregistrations.lookup aid)
    (fun l v w hst hi hs => ⟨keyed_next s l v w hi.1 hs,
      (lookup_kept s l v w hi.1 aid hst hs).trans hi.2⟩)
    ls u p hstays ⟨hk, rfl⟩ hr
  exact hrule.2

theorem next_now (s : Setting) (l : Event) (p q : State) (h : next s l p = some q) :
    p.world.now ≤ q.world.now := by
  cases l with
  | act i io => rw [(act_world s i io p q h).2]
  | env e =>
    obtain ⟨w, o, he, rfl⟩ := (step_env_some (lifecycle s) e p q).mp h
    cases e with
    | tick ms =>
      cases he
      simp
    | register r =>
      simp only [lifecycle, env] at he
      split_ifs at he
      cases he
      exact le_refl _
    | _ => cases he; exact le_refl _

theorem run_now (s : Setting) (ls : List Event) (p q : State) (hr : run (next s) ls p = some q) :
    p.world.now ≤ q.world.now :=
  run_invariant (next s) (fun _ _ => True) (fun v : State => p.world.now ≤ v.world.now)
    (fun l v w _ hi hs => hi.trans (next_now s l v w hs)) ls p q (guarded_true _ ls _)
    (le_refl _) hr

theorem retain_next (s : Setting) (lag : ℕ) (p : State) :
    ∃ q, next s (.env (.retain lag)) p = some q ∧
      q.world.agents = purgeDeregisteredAgents s (p.world.now-lag) p.world.agents := by
  obtain ⟨w, ts⟩ := p
  exact ⟨_, rfl, rfl⟩

theorem deletes_iff (s : Setting) (lag : ℕ) (p q : State) (hk : Keyed p.world)
    (h : next s (.env (.retain lag)) p = some q) (a : AgentRow) (ha : a ∈ p.world.agents) :
    Deletes a.aid p q ↔ 0 < s.expiredAgentGraceDays ∧
      ∃ cutoff ∈ graceCutoff s (p.world.now-lag), purgeable cutoff a = true := by
  obtain ⟨q', hq', hagents⟩ := retain_next s lag p
  obtain rfl : q = q' := Option.some.inj (h.symm.trans hq')
  have hthere : (status p a.aid).isSome = true := by
    rw [(status_eq p hk a.aid a.status).mpr ⟨a, ha, rfl, rfl⟩]
    rfl
  have hgone : status q a.aid = none ↔ a ∉ q.world.agents := by
    unfold status
    rw [Option.map_eq_none_iff, List.find?_eq_none]
    constructor
    · intro hall hmem
      exact absurd (hall a hmem) (by simp)
    · intro hnot b hb hkey
      have hbmem : b ∈ p.world.agents := by
        rw [hagents] at hb
        unfold purgeDeregisteredAgents at hb
        split at hb
        · exact hb
        · split at hb
          · exact hb
          · exact List.mem_of_mem_filter hb
      obtain rfl := List.inj_on_of_nodup_map hk hbmem ha (of_decide_eq_true hkey)
      exact hnot hb
  unfold Deletes
  rw [and_iff_right hthere, hgone, hagents]
  unfold purgeDeregisteredAgents
  by_cases hdays : s.expiredAgentGraceDays ≤ 0
  · rw [if_pos hdays]
    constructor
    · exact fun hnot => absurd ha hnot
    · exact fun hpos => absurd hpos.1 (not_lt.mpr hdays)
  · rw [if_neg hdays]
    cases hc : graceCutoff s (p.world.now-lag) with
    | none =>
      constructor
      · exact fun hnot => absurd ha hnot
      · rintro ⟨-, cutoff, hcut, -⟩
        cases hcut
    | some cutoff =>
      simp only [List.mem_filter, ha, true_and, Bool.not_eq_true', Bool.not_eq_false,
        Option.mem_def, Option.some.injEq, exists_eq_left', not_le.mp hdays]

theorem since_of_deregisteredFor (s : Setting) (now₀ : Instant) (before : List Event)
    (p : State) (t since : Instant) (aid : Text)
    (hr : run (next s) before (start now₀) = some p)
    (hst : status p aid = some .deregistered)
    (hfor : DeregisteredFor s now₀ before t aid)
    (hsince : p.world.deregistrations.lookup aid = some since) : since+graceMs s ≤ t := by
  obtain ⟨as, bs, u, rfl, hu, hle, hstays⟩ := hfor
  obtain ⟨v, hv, hp⟩ := (run_append_some (next s) as bs (start now₀) p).mp hr
  obtain rfl : u = v := Option.some.inj (hu.symm.trans hv)
  obtain ⟨hku, hrec⟩ := run_recorded s now₀ as u hu
  have hust : status u aid = some .deregistered := by
    cases bs with
    | nil =>
      obtain rfl : u = p := Option.some.inj hp
      exact hst
    | cons l ls => exact hstays.1
  obtain ⟨as', bs', x, rfl, hx, -, hlookup⟩ := hrec aid hust
  have hsame := stays_lookup s aid bs u p hku hstays hp
  rw [hsame, hlookup, Option.some.injEq] at hsince
  obtain ⟨y, hy, hu'⟩ := (run_append_some (next s) as' bs' (start now₀) u).mp hu
  obtain rfl : x = y := Option.some.inj (hx.symm.trans hy)
  have hnow : (since : ℚ) ≤ u.world.now := by
    rw [← hsince]
    exact_mod_cast run_now s bs' x u hu'
  linarith

theorem sweep_iff (s : Setting) (now₀ : Instant) (before : List Event) (p : State) (lag : ℕ)
    (hr : run (next s) before (start now₀) = some p) :
    DeletesOld s now₀ before p lag ↔ Spared s p (p.world.now-lag) := by
  obtain ⟨hk, hrec⟩ := run_recorded s now₀ before p hr
  obtain ⟨q, hq, -⟩ := retain_next s lag p
  have hstatus : ∀ a ∈ p.world.agents, ∀ cutoff, purgeable cutoff a = true →
      status p a.aid = some .deregistered := by
    intro a ha cutoff hp
    simp only [purgeable, Bool.and_eq_true, decide_eq_true_eq] at hp
    exact (status_eq p hk a.aid .deregistered).mpr ⟨a, ha, rfl, hp.1⟩
  constructor
  · rintro hold a ha ⟨hdays, ⟨cutoff, hcut, hp⟩, since, hsince, hlt⟩
    have hdel := (deletes_iff s lag p q hk hq a ha).mpr ⟨hdays, cutoff, hcut, hp⟩
    have hle := since_of_deregisteredFor s now₀ before p (p.world.now-lag) since a.aid hr
      (hstatus a ha cutoff hp) (hold q a.aid hq hdel) hsince
    exact absurd hlt (not_lt.mpr hle)
  · intro hspared q' aid hq' hdel
    obtain ⟨st, hst⟩ := Option.isSome_iff_exists.mp hdel.1
    obtain ⟨a, ha, rfl, -⟩ := (status_eq p hk aid st).mp hst
    obtain ⟨hdays, cutoff, hcut, hp⟩ := (deletes_iff s lag p q' hk hq' a ha).mp hdel
    obtain ⟨as, bs, u, hbefore, hu, hstays, hlookup⟩ := hrec a.aid (hstatus a ha cutoff hp)
    apply Exists.intro as
    apply Exists.intro bs
    apply Exists.intro u
    apply And.intro hbefore
    apply And.intro hu
    apply And.intro _ hstays
    by_contra hlt
    exact hspared a ha ⟨hdays, ⟨cutoff, hcut, hp⟩, u.world.now, hlookup, not_le.mp hlt⟩

/-- The sweeps of a run delete rows that were deregistered for the whole grace
exactly if none of them meets a row early. -/
theorem deregistration_grace (s : Setting) (now₀ : Instant) (ls : List Event) :
    EverySweep s now₀ ls (DeletesOld s now₀) ↔
      EverySweep s now₀ ls (fun _ p lag => Spared s p (p.world.now-lag)) := by
  constructor
  · intro h before lag after p hls hr
    exact (sweep_iff s now₀ before p lag hr).mp (h before lag after p hls hr)
  · intro h before lag after p hls hr
    exact (sweep_iff s now₀ before p lag hr).mpr (h before lag after p hls hr)

def idle : List Event :=
  [.env (.register shortLived), .env (.tick 3456000000), .env (.deactivate (js "aid:pubkey:abc")),
    .env (.tick 60000)]

def idleRow : AgentRow := setStatus .deregistered ⟨newAgent shortLived, none⟩

theorem idle_deleted_early :
    ¬ EverySweep supportedSetting 0 (idle++[.env (.retain 0)]) (DeletesOld supportedSetting 0) := by
  intro h
  let p : State :=
    ⟨⟨3456060000, [idleRow], [], [(js "aid:pubkey:abc", 3456000000)]⟩, []⟩
  have hp : run (next supportedSetting) idle (start 0) = some p := rfl
  have hspared := (sweep_iff supportedSetting 0 idle p 0 hp).mp (h idle 0 [] p rfl hp)
  apply hspared idleRow List.mem_cons_self
  have hcutoff : graceCutoff supportedSetting (3456060000-(0 : ℕ)) = some 864060000 := by
    decide +kernel
  apply And.intro (by decide)
  constructor
  · exact ⟨864060000, hcutoff, by decide⟩
  · exact ⟨3456000000, rfl, by decide +kernel⟩

end ControlPlane.DeregistrationGrace
