import ControlPlane.RegistrationMachine

/-!
# A token is spent by the registration that commits

The tables are what the committed transactions have made of them, one after
the other, and the open transactions hold the keys they have inserted. The
invariant counts, for each `jti`, who holds it and who has committed it.
-/

set_option autoImplicit false

namespace ControlPlane.RegistrationAtomicity
open ControlPlane.JsText ControlPlane.JsValue ControlPlane.EnrollmentToken
open ControlPlane.RegistrationMachine
open ControlPlane.RunMachine ControlPlane.ThreadPool

def openJti : Phase → Option Text
  | .consumed c => some c.jti
  | .upserted w => some w.jti
  | _ => none

def lockedAid : Phase → Option Text
  | .upserted w => some (aidKey w.input)
  | _ => none

def written : Phase → Option Write
  | .committed w => some w
  | .answered w _ => some w
  | _ => none

def opens (jti : Text) (t : Thread) : Bool := openJti t.phase = some jti

def locks (aid : Text) (t : Thread) : Bool := lockedAid t.phase = some aid

def wrote (P : Write → Bool) (t : Thread) : Bool := (written t.phase).any P

def committed (jti : Text) : Thread → Bool := wrote (fun w => w.jti = jti)

def Carries (R : Registry) (q : RegisterRequest) (jti : Text) (input : RegisterInput) : Prop :=
  ∃ now c, checkRequest R now q = .passed c ∧ c.jti = jti ∧ c.input = input

def Origin (R : Registry) (t : Thread) : Prop :=
  match t.phase with
  | .checked c => Carries R t.request c.jti c.input
  | .consumed c => Carries R t.request c.jti c.input
  | .upserted w => Carries R t.request w.jti w.input
  | .committed w => Carries R t.request w.jti w.input
  | .answered w _ => Carries R t.request w.jti w.input
  | .replayed c => Carries R t.request c.jti c.input
  | _ => True

inductive Move (R : Registry) (q : RegisterRequest) (w : World) :
    Phase → World → Phase → Prop where
  | stop (p p' : Phase) (hp : openJti p = none) (hp' : openJti p' = none)
      (hl : lockedAid p = none) (hl' : lockedAid p' = none) (hw : written p = none)
      (hw' : written p' = none)
      (hchecked : ∀ c, p' = .checked c → checkRequest R w.now q = .passed c)
      (hreplayed : ∀ c, p' = .replayed c → p = .checked c ∧ hasJti w.tables c.jti = true) :
      Move R q w p w p'
  | consume (c : Consumption) (expiresAt : Instant) (hfree : c.jti ∉ w.heldJtis)
      (hnew : hasJti w.tables c.jti = false) :
      Move R q w (.checked c) { w with heldJtis := c.jti::w.heldJtis }
        (.consumed ⟨c.jti, expiresAt, c.input, w.now⟩)
  | upsert (c : Consumed) :
      Move R q w (.consumed c) { w with heldAids := aidKey c.input::w.heldAids }
        (.upserted ⟨c, w.now⟩)
  | rollback (c : Consumed) : Move R q w (.consumed c) (rollback w c.jti) .threw
  | release (c : Write) : Move R q w (.upserted c) (release w c) .threw
  | commit (c : Write) : Move R q w (.upserted c) (commit w c) (.committed c)
  | answer (c : Write) (created : Bool) : Move R q w (.committed c) w (.answered c created)

theorem consume_move (R : Registry) (q : RegisterRequest) (w w' : World) (c : Consumption)
    (p' : Phase) (h : consumeEnrollmentJti w c = some (w', p')) :
    Move R q w (.checked c) w' p' := by
  simp only [consumeEnrollmentJti] at h
  split at h
  · cases h
    exact .stop _ _ rfl rfl rfl rfl rfl rfl (fun _ h => by cases h) (fun _ h => by cases h)
  · next expiresAt _ =>
    split_ifs at h with hs hj hheld
    · cases h
      exact .stop _ _ rfl rfl rfl rfl rfl rfl (fun _ h => by cases h)
        (fun d hd => by cases hd; exact ⟨rfl, hj⟩)
    · cases h
      exact .consume c expiresAt hheld (by simpa using hj)
    · cases h
      exact .stop _ _ rfl rfl rfl rfl rfl rfl (fun _ h => by cases h) (fun _ h => by cases h)

theorem upsert_move (R : Registry) (q : RegisterRequest) (w w' : World) (c : Consumed)
    (p' : Phase) (h : upsertStatement w c = some (w', p')) : Move R q w (.consumed c) w' p' := by
  simp only [upsertStatement] at h
  split_ifs at h
  · cases h
    exact .upsert c
  · cases h
    exact .rollback c

theorem check_move (R : Registry) (q : RegisterRequest) (w w' : World) (p' : Phase)
    (h : registerStep R .ok w q .received = some (w', p')) : Move R q w .received w' p' := by
  simp only [registerStep] at h
  split at h
  · cases h
    exact .stop _ _ rfl rfl rfl rfl rfl rfl (fun _ h => by cases h) (fun _ h => by cases h)
  · cases h
    exact .stop _ _ rfl rfl rfl rfl rfl rfl (fun _ h => by cases h) (fun _ h => by cases h)
  · next c hc =>
    cases h
    exact .stop _ _ rfl rfl rfl rfl rfl rfl (fun d hd => by cases hd; exact hc)
      (fun _ h => by cases h)

theorem registerStep_move (R : Registry) (io : Io) (q : RegisterRequest) (w w' : World)
    (p p' : Phase) (h : registerStep R io w q p = some (w', p')) : Move R q w p w' p' := by
  cases p with
  | received =>
    cases io with
    | ok => exact check_move R q w w' p' h
    | fault =>
      cases h
      exact .stop _ _ rfl rfl rfl rfl rfl rfl (fun _ h => by cases h) (fun _ h => by cases h)
    | serve =>
      simp only [registerStep] at h
      split_ifs at h
      cases h
      exact .stop _ _ rfl rfl rfl rfl rfl rfl (fun _ h => by cases h) (fun _ h => by cases h)
  | checked c =>
    cases io with
    | ok => exact consume_move R q w w' c p' h
    | fault =>
      cases h
      exact .stop _ _ rfl rfl rfl rfl rfl rfl (fun _ h => by cases h) (fun _ h => by cases h)
    | serve => cases h
  | consumed c =>
    cases io with
    | ok => exact upsert_move R q w w' c p' h
    | fault => cases h; exact .rollback c
    | serve => cases h
  | upserted c =>
    cases io with
    | ok => cases h; exact .commit c
    | fault => cases h; exact .release c
    | serve => cases h
  | committed c =>
    cases io with
    | ok => cases h; exact .answer c true
    | fault => cases h; exact .answer c false
    | serve => cases h
  | served => cases h
  | refused problem => cases h
  | threw => cases h
  | replayed c => cases h
  | answered c created => cases h

theorem stop_origin (R : Registry) (q : RegisterRequest) (w : World) (p p' : Phase)
    (hp' : openJti p' = none) (hw' : written p' = none)
    (hchecked : ∀ c, p' = .checked c → checkRequest R w.now q = .passed c)
    (hreplayed : ∀ c, p' = .replayed c → p = .checked c) (ho : Origin R ⟨q, p⟩) :
    Origin R ⟨q, p'⟩ := by
  cases p' with
  | checked c => exact ⟨w.now, c, hchecked c rfl, rfl, rfl⟩
  | replayed c =>
    obtain rfl := hreplayed c rfl
    exact ho
  | consumed c => cases hp'
  | upserted c => cases hp'
  | committed c => cases hw'
  | answered c created => cases hw'
  | received => trivial
  | served => trivial
  | refused problem => trivial
  | threw => trivial

theorem hasJti_apply (tb : Tables) (w : Write) (jti : Text) :
    hasJti (w.apply tb) jti = true ↔ hasJti tb jti = true ∨ w.jti = jti := by
  simp [hasJti, Write.apply]

def replay (tb : Tables) (ws : List Write) : Tables := ws.foldl (fun tb w => w.apply tb) tb

theorem replay_append (tb : Tables) (ws : List Write) (w : Write) :
    replay tb (ws++[w]) = w.apply (replay tb ws) := by
  simp [replay]

theorem hasJti_replay (tb : Tables) (ws : List Write) (jti : Text) :
    hasJti (replay tb ws) jti = true ↔ hasJti tb jti = true ∨ ∃ w ∈ ws, w.jti = jti := by
  induction ws generalizing tb with
  | nil => simp [replay]
  | cons w ws ih =>
    have h := ih (w.apply tb)
    simp only [replay, List.foldl_cons] at h ⊢
    rw [h, hasJti_apply]
    simp [or_assoc]

/-- Each `jti` is held or committed at most once, and the counters of the
world are those of the threads. -/
structure Inv (R : Registry) (tb : Tables) (s : State) : Prop where
  tables : s.world.tables = replay tb s.world.commits
  commits : ∀ P : Write → Bool, s.world.commits.countP P = s.threads.countP (wrote P)
  jtis : ∀ jti, s.world.heldJtis.count jti = s.threads.countP (opens jti)
  aids : ∀ aid, s.world.heldAids.count aid = s.threads.countP (locks aid)
  once : ∀ jti, s.world.heldJtis.count jti+s.threads.countP (committed jti)+
    (if hasJti tb jti = true then 1 else 0) ≤ 1
  origin : ∀ (i : ℕ) (t : Thread), s.threads[i]? = some t → Origin R t
  replayed : ∀ (i : ℕ) (t : Thread) (c : Consumption), s.threads[i]? = some t →
    t.phase = .replayed c → hasJti s.world.tables c.jti = true

theorem inv_start (R : Registry) (now : Instant) (tb : Tables) : Inv R tb (start now tb) := by
  constructor <;> try simp [start, replay]
  intro jti
  split <;> simp

theorem inv_hasJti (R : Registry) (tb : Tables) (s : State) (hi : Inv R tb s) (jti : Text) :
    hasJti s.world.tables jti = true ↔
      hasJti tb jti = true ∨ 0 < s.threads.countP (committed jti) := by
  rw [hi.tables, hasJti_replay, committed, ← hi.commits, List.countP_pos_iff]
  simp

theorem inv_env (R : Registry) (tb : Tables) (e : Env) (s t : State) (hi : Inv R tb s)
    (hs : next R (.env e) s = some t) : Inv R tb t := by
  obtain ⟨w, o, he, rfl⟩ := (step_env_some _ _ _ _).mp hs
  obtain ⟨htables, hcommits, hjtis, haids, hnew, -⟩ := env_move R e s.world w o he
  have hcount : ∀ P : Thread → Bool, (∀ q, P ⟨q, .received⟩ = false) →
      (s.threads++o.toList).countP P = s.threads.countP P := by
    intro P hP
    cases o with
    | none => simp
    | some u =>
      obtain ⟨q, phase⟩ := u
      obtain rfl : phase = .received := hnew _ rfl
      simp [hP]
  constructor
  · simp [htables, hcommits, hi.tables]
  · intro P
    simp [hcommits, hi.commits, hcount (wrote P) (fun _ => rfl)]
  · intro jti
    simp [hjtis, hi.jtis, hcount (opens jti) (fun _ => rfl)]
  · intro aid
    simp [haids, hi.aids, hcount (locks aid) (fun _ => rfl)]
  · intro jti
    have h := hi.once jti
    have hc := hcount (committed jti) (fun _ => rfl)
    simp only [hjtis, hc]
    exact h
  · intro i t ht
    rcases append_get _ _ _ _ ht with h | ⟨_, h⟩
    · exact hi.origin i t h
    · have hp := hnew t h
      obtain ⟨q, phase⟩ := t
      obtain rfl : phase = .received := hp
      trivial
  · intro i t c ht hc
    rcases append_get _ _ _ _ ht with h | ⟨_, h⟩
    · simp only [htables]
      exact hi.replayed i t c h hc
    · rw [hnew t h] at hc
      cases hc

abbrev one (b : Bool) : ℕ := if b then 1 else 0

structure Accounted (R : Registry) (tb : Tables) (s : State) (w : World) (t u : Thread) :
    Prop where
  tables : w.tables = replay tb w.commits
  commits : ∀ P, w.commits.countP P+one (wrote P t) = s.world.commits.countP P+one (wrote P u)
  jtis : ∀ jti, w.heldJtis.count jti+one (opens jti t) =
    s.world.heldJtis.count jti+one (opens jti u)
  aids : ∀ aid, w.heldAids.count aid+one (locks aid t) =
    s.world.heldAids.count aid+one (locks aid u)
  once : ∀ jti, one (opens jti u)+one (committed jti u) ≤ one (opens jti t)+one (committed jti t) ∨
    (s.world.heldJtis.count jti = 0 ∧ hasJti s.world.tables jti = false ∧ committed jti u = false)
  origin : Origin R t → Origin R u
  kept : ∀ jti, hasJti s.world.tables jti = true → hasJti w.tables jti = true
  replayed : ∀ c, u.phase = .replayed c → hasJti w.tables c.jti = true

theorem inv_set (R : Registry) (tb : Tables) (s : State) (w : World) (i : ℕ) (t u : Thread)
    (hi : Inv R tb s) (ht : s.threads[i]? = some t) (ha : Accounted R tb s w t u) :
    Inv R tb ⟨w, s.threads.set i u⟩ := by
  have hset : ∀ P : Thread → Bool, (s.threads.set i u).countP P+one (P t) =
      s.threads.countP P+one (P u) := fun P => countP_set_add s.threads i t u P ht
  constructor
  · exact ha.tables
  · intro P
    have h := ha.commits P
    have h' := hset (wrote P)
    have h'' := hi.commits P
    simp only at h ⊢
    omega
  · intro jti
    have h := ha.jtis jti
    have h' := hset (opens jti)
    have h'' := hi.jtis jti
    simp only at h ⊢
    omega
  · intro aid
    have h := ha.aids aid
    have h' := hset (locks aid)
    have h'' := hi.aids aid
    simp only at h ⊢
    omega
  · intro jti
    have h := ha.jtis jti
    have h' := hset (committed jti)
    have h'' := hi.once jti
    simp only at h ⊢
    rcases ha.once jti with hle | ⟨hheld, hnew, hu⟩
    · omega
    · have hno := (inv_hasJti R tb s hi jti).not.mp (by simp [hnew])
      simp only [not_or, Nat.not_lt, Nat.le_zero] at hno
      have hopen : one (opens jti u) ≤ 1 := by
        unfold one
        split <;> omega
      simp only [hno.1, Bool.false_eq_true, if_false, hu, one] at h h' h'' hopen ⊢
      omega
  · intro j v hv
    rcases set_get _ _ _ _ _ hv with ⟨_, rfl⟩ | ⟨_, hv⟩
    · exact ha.origin (hi.origin i t ht)
    · exact hi.origin j v hv
  · intro j v c hv hc
    rcases set_get _ _ _ _ _ hv with ⟨_, rfl⟩ | ⟨_, hv⟩
    · exact ha.replayed c hc
    · exact ha.kept _ (hi.replayed j v c hv hc)

theorem count_erase_add (l : List Text) (a b : Text) (h : a ∈ l) :
    (l.erase a).count b+(if a = b then 1 else 0) = l.count b := by
  have hpos := List.count_pos_iff.mpr h
  rw [List.count_erase]
  by_cases hab : a = b
  · subst hab
    simp only [beq_self_eq_true, if_true]
    omega
  · simp [hab]

theorem count_cons_add (l : List Text) (a b : Text) :
    (a::l).count b = l.count b+(if a = b then 1 else 0) := by
  simp [List.count_cons]

theorem held_jti (R : Registry) (tb : Tables) (s : State) (i : ℕ) (t : Thread) (jti : Text)
    (hi : Inv R tb s) (ht : s.threads[i]? = some t) (ho : openJti t.phase = some jti) :
    jti ∈ s.world.heldJtis := by
  rw [← List.count_pos_iff, hi.jtis, List.countP_pos_iff]
  exact ⟨t, List.mem_of_getElem? ht, by simp [opens, ho]⟩

theorem held_aid (R : Registry) (tb : Tables) (s : State) (i : ℕ) (t : Thread) (aid : Text)
    (hi : Inv R tb s) (ht : s.threads[i]? = some t) (ho : lockedAid t.phase = some aid) :
    aid ∈ s.world.heldAids := by
  rw [← List.count_pos_iff, hi.aids, List.countP_pos_iff]
  exact ⟨t, List.mem_of_getElem? ht, by simp [locks, ho]⟩

theorem accounted_commit (R : Registry) (tb : Tables) (s : State) (i : ℕ) (q : RegisterRequest)
    (c : Write) (hi : Inv R tb s) (ht : s.threads[i]? = some ⟨q, .upserted c⟩) :
    Accounted R tb s (commit s.world c) ⟨q, .upserted c⟩ ⟨q, .committed c⟩ := by
  have hj := held_jti R tb s i _ c.jti hi ht rfl
  have ha := held_aid R tb s i _ (aidKey c.input) hi ht rfl
  constructor
  · simp [commit, replay_append, hi.tables]
  · intro P
    by_cases hP : P c = true
    · simp [commit, wrote, written, one, hP]
    · simp [commit, wrote, written, one, hP]
  · intro jti
    have h := count_erase_add s.world.heldJtis c.jti jti hj
    simp only [commit, release, rollback, opens, openJti]
    simpa [one] using h
  · intro aid
    have h := count_erase_add s.world.heldAids (aidKey c.input) aid ha
    simp only [commit, release, rollback, locks, lockedAid]
    simpa [one] using h
  · intro jti
    left
    simp [opens, committed, wrote, openJti, written, one]
  · exact id
  · intro jti h
    exact (hasJti_apply _ _ _).mpr (Or.inl h)
  · intro d hd
    cases hd

theorem accounted (R : Registry) (tb : Tables) (s : State) (i : ℕ) (q : RegisterRequest)
    (p p' : Phase) (w : World) (hi : Inv R tb s) (ht : s.threads[i]? = some ⟨q, p⟩)
    (hm : Move R q s.world p w p') : Accounted R tb s w ⟨q, p⟩ ⟨q, p'⟩ := by
  cases hm with
  | stop _ _ hp hp' hl hl' hw hw' hchecked hreplayed =>
    constructor
    · exact hi.tables
    · simp [wrote, hw, hw']
    · simp [opens, hp, hp']
    · simp [locks, hl, hl']
    · intro jti
      left
      simp [opens, committed, wrote, hp, hp', hw, hw']
    · exact stop_origin R q s.world p p' hp' hw' hchecked (fun c hc => (hreplayed c hc).1)
    · exact fun _ h => h
    · exact fun c hc => (hreplayed c hc).2
  | consume c expiresAt hfree hnew =>
    constructor
    · exact hi.tables
    · simp [wrote, written]
    · intro jti
      simp only [opens, openJti, count_cons_add]
      simp [one]
    · simp [locks, lockedAid]
    · intro jti
      by_cases hj : c.jti = jti
      · subst hj
        exact Or.inr ⟨List.count_eq_zero.mpr hfree, hnew, rfl⟩
      · left
        simp [opens, committed, wrote, openJti, written, one, hj]
    · exact id
    · exact fun _ h => h
    · intro d hd
      cases hd
  | upsert c =>
    constructor
    · exact hi.tables
    · simp [wrote, written]
    · simp [opens, openJti]
    · intro aid
      simp only [locks, lockedAid, count_cons_add]
      simp [one]
    · intro jti
      left
      simp [opens, committed, wrote, openJti, written, one]
    · exact id
    · exact fun _ h => h
    · intro d hd
      cases hd
  | rollback c =>
    have hj := held_jti R tb s i _ c.jti hi ht rfl
    constructor
    · exact hi.tables
    · simp [rollback, wrote, written]
    · intro jti
      have h := count_erase_add s.world.heldJtis c.jti jti hj
      simp only [rollback, opens, openJti]
      simpa [one] using h
    · simp [rollback, locks, lockedAid]
    · intro jti
      left
      simp [opens, committed, wrote, openJti, written, one]
    · exact fun _ => trivial
    · exact fun _ h => h
    · intro d hd
      cases hd
  | release c =>
    have hj := held_jti R tb s i _ c.jti hi ht rfl
    have ha := held_aid R tb s i _ (aidKey c.input) hi ht rfl
    constructor
    · exact hi.tables
    · simp [release, rollback, wrote, written]
    · intro jti
      have h := count_erase_add s.world.heldJtis c.jti jti hj
      simp only [release, rollback, opens, openJti]
      simpa [one] using h
    · intro aid
      have h := count_erase_add s.world.heldAids (aidKey c.input) aid ha
      simp only [release, rollback, locks, lockedAid]
      simpa [one] using h
    · intro jti
      left
      simp [opens, committed, wrote, openJti, written, one]
    · exact fun _ => trivial
    · exact fun _ h => h
    · intro d hd
      cases hd
  | commit c => exact accounted_commit R tb s i q c hi ht
  | answer c created =>
    constructor
    · exact hi.tables
    · simp [wrote, written]
    · simp [opens, openJti]
    · simp [locks, lockedAid]
    · intro jti
      left
      simp [opens, committed, wrote, openJti, written]
    · exact id
    · exact fun _ h => h
    · intro d hd
      cases hd

theorem inv_act (R : Registry) (tb : Tables) (i : ℕ) (io : Io) (s t : State) (hi : Inv R tb s)
    (hs : next R (.act i io) s = some t) : Inv R tb t := by
  obtain ⟨q, p, w', p', hu, hstep, rfl⟩ := act_next R i io s t hs
  have hm := registerStep_move R io q s.world w' p p' hstep
  exact inv_set R tb s w' i ⟨q, p⟩ _ hi hu (accounted R tb s i q p p' w' hi hu hm)

theorem inv_step (R : Registry) (tb : Tables) (l : Event) (s t : State) (hi : Inv R tb s)
    (hs : next R l s = some t) : Inv R tb t := by
  cases l with
  | env e => exact inv_env R tb e s t hi hs
  | act i io => exact inv_act R tb i io s t hi hs

theorem inv_run (R : Registry) (now : Instant) (tb : Tables) (ls : List Event) (s : State)
    (hr : run (next R) ls (start now tb) = some s) : Inv R tb s :=
  run_invariant (next R) (fun _ _ => True) (Inv R tb)
    (fun l s t _ hi hs => inv_step R tb l s t hi hs) ls _ s (guarded_true _ _ _)
    (inv_start R now tb) hr

theorem tables_step (R : Registry) (l : Event) (s s' : State) (hs : next R l s = some s') :
    s'.world.tables = s.world.tables ∨ ∃ i q w, l = .act i .ok ∧
      s.threads[i]? = some ⟨q, .upserted w⟩ ∧ s'.threads[i]? = some ⟨q, .committed w⟩ ∧
        s'.world.tables = w.apply s.world.tables := by
  cases l with
  | env e =>
    obtain ⟨w, o, he, rfl⟩ := (step_env_some _ _ _ _).mp hs
    exact Or.inl (env_move R e s.world w o he).tables
  | act i io =>
    obtain ⟨q, p, w', p', hu, hstep, rfl⟩ := act_next R i io s s' hs
    cases registerStep_move R io q s.world w' p p' hstep with
    | stop => exact Or.inl rfl
    | consume => exact Or.inl rfl
    | upsert => exact Or.inl rfl
    | rollback => exact Or.inl rfl
    | release => exact Or.inl rfl
    | answer => exact Or.inl rfl
    | commit c =>
      right
      cases io with
      | ok => exact ⟨i, q, c, rfl, hu, set_self _ _ _ _ hu, rfl⟩
      | fault => simp [registerStep] at hstep
      | serve => simp [registerStep] at hstep

def accepted (now : Instant) (c : Consumption) : Bool :=
  c.expiresAt.any (fun e => fitsVarchar 64 c.jti && instantStorable e) && c.input.storable &&
    instantStorable now

def attempt (i : ℕ) : List Event := [.act i .ok, .act i .ok, .act i .ok, .act i .ok]

theorem advance (R : Registry) (i : ℕ) (io : Io) (ls : List Event) (s s' : State)
    (q : RegisterRequest) (p p' : Phase) (w : World) (ht : s.threads[i]? = some ⟨q, p⟩)
    (h : registerStep R io s.world q p = some (w, p'))
    (hr : run (next R) ls ⟨w, s.threads.set i ⟨q, p'⟩⟩ = some s') :
    run (next R) (.act i io::ls) s = some s' := by
  have hs : next R (.act i io) s = some ⟨w, s.threads.set i ⟨q, p'⟩⟩ :=
    (step_act_some _ _ _ _ _).mpr ⟨⟨q, p⟩, w, ⟨q, p'⟩, ht, by simp [registration, act, h], rfl⟩
  exact (run_cons_some _ _ _ _ _).mpr ⟨_, hs, hr⟩

theorem attempt_commits (R : Registry) (s : State) (i : ℕ) (q : RegisterRequest)
    (c : Consumption) (ht : s.threads[i]? = some ⟨q, .received⟩)
    (hc : checkRequest R s.world.now q = .passed c) (ha : accepted s.world.now c = true)
    (hnew : hasJti s.world.tables c.jti = false) (hfree : c.jti ∉ s.world.heldJtis)
    (haid : aidKey c.input ∉ s.world.heldAids) :
    ∃ s' w, run (next R) (attempt i) s = some s' ∧ s'.threads[i]? = some ⟨q, .committed w⟩ ∧
      w.jti = c.jti ∧ w.input = c.input := by
  simp only [accepted, Bool.and_eq_true, Option.any_eq_true] at ha
  obtain ⟨⟨⟨e, he, hjti, hexp⟩, hinput⟩, hclock⟩ := ha
  have h1 := set_self s.threads i _ ⟨q, .checked c⟩ ht
  have h2 := set_self _ i _ ⟨q, .consumed ⟨c.jti, e, c.input, s.world.now⟩⟩ h1
  have h3 := set_self _ i _ ⟨q, .upserted ⟨⟨c.jti, e, c.input, s.world.now⟩, s.world.now⟩⟩ h2
  have h4 := set_self _ i _ ⟨q, .committed ⟨⟨c.jti, e, c.input, s.world.now⟩, s.world.now⟩⟩ h3
  refine ⟨⟨?final, _⟩, ⟨⟨c.jti, e, c.input, s.world.now⟩, s.world.now⟩, ?_, h4, rfl, rfl⟩
  · exact commit { s.world with heldJtis := c.jti::s.world.heldJtis
                                heldAids := aidKey c.input::s.world.heldAids }
      ⟨⟨c.jti, e, c.input, s.world.now⟩, s.world.now⟩
  · apply advance R i .ok _ s _ q .received (.checked c) s.world ht
    · simp [registerStep, hc]
    apply advance R i .ok _ _ _ q (.checked c) (.consumed ⟨c.jti, e, c.input, s.world.now⟩)
      { s.world with heldJtis := c.jti::s.world.heldJtis } h1
    · simp [registerStep, consumeEnrollmentJti, he, hjti, hexp, hnew, hfree]
    apply advance R i .ok _ _ _ q (.consumed ⟨c.jti, e, c.input, s.world.now⟩)
      (.upserted ⟨⟨c.jti, e, c.input, s.world.now⟩, s.world.now⟩)
      { s.world with heldJtis := c.jti::s.world.heldJtis
                     heldAids := aidKey c.input::s.world.heldAids } h2
    · simp [registerStep, upsertStatement, hinput, hclock, haid]
    apply advance R i .ok _ _ _ q _
      (.committed ⟨⟨c.jti, e, c.input, s.world.now⟩, s.world.now⟩) _ h3 rfl
    rfl

/-- Registration, in one state of a run from the tables `tb`. -/
structure Atomic (R : Registry) (tb : Tables) (s : State) : Prop where
  row : ∀ jti, hasJti s.world.tables jti = true ↔
    hasJti tb jti = true ∨ s.threads.countP (committed jti) = 1
  once : ∀ jti, s.threads.countP (committed jti) ≤ 1
  spent : ∀ jti, hasJti tb jti = true → s.threads.countP (committed jti) = 0
  tables : s.world.tables = replay tb s.world.commits
  commits : ∀ P, s.world.commits.countP P = s.threads.countP (wrote P)
  own : ∀ (i : ℕ) (t : Thread) (w : Write), s.threads[i]? = some t →
    written t.phase = some w → Carries R t.request w.jti w.input
  replayed : ∀ (i : ℕ) (q : RegisterRequest) (c : Consumption),
    s.threads[i]? = some ⟨q, .replayed c⟩ →
      Carries R q c.jti c.input ∧ hasJti s.world.tables c.jti = true
  unchanged : ∀ l s', next R l s = some s' →
    s'.world.tables = s.world.tables ∨ ∃ i q w, l = .act i .ok ∧
      s.threads[i]? = some ⟨q, .upserted w⟩ ∧ s'.threads[i]? = some ⟨q, .committed w⟩ ∧
        s'.world.tables = w.apply s.world.tables
  usable : ∀ (i : ℕ) (q : RegisterRequest) (c : Consumption),
    s.threads[i]? = some ⟨q, .received⟩ → checkRequest R s.world.now q = .passed c →
    accepted s.world.now c = true → hasJti tb c.jti = false →
    s.threads.countP (committed c.jti) = 0 → s.threads.countP (opens c.jti) = 0 →
    s.threads.countP (locks (aidKey c.input)) = 0 →
      ∃ s' w, run (next R) (attempt i) s = some s' ∧ s'.threads[i]? = some ⟨q, .committed w⟩ ∧
        w.jti = c.jti ∧ w.input = c.input

theorem origin_written (R : Registry) (t : Thread) (w : Write) (ho : Origin R t)
    (hw : written t.phase = some w) : Carries R t.request w.jti w.input := by
  obtain ⟨q, p⟩ := t
  cases p with
  | committed v => cases hw; exact ho
  | answered v created => cases hw; exact ho
  | _ => cases hw

theorem registration_atomic (R : Registry) (now : Instant) (tb : Tables) (ls : List Event)
    (s : State) (hr : run (next R) ls (start now tb) = some s) : Atomic R tb s := by
  have hi := inv_run R now tb ls s hr
  constructor
  · intro jti
    have h := hi.once jti
    rw [inv_hasJti R tb s hi]
    constructor
    · rintro (h' | h')
      · exact Or.inl h'
      · right
        omega
    · rintro (h' | h')
      · exact Or.inl h'
      · right
        omega
  · intro jti
    have h := hi.once jti
    omega
  · intro jti hj
    have h := hi.once jti
    simp only [hj, if_true] at h
    omega
  · exact hi.tables
  · exact hi.commits
  · intro i t w ht hw
    exact origin_written R t w (hi.origin i t ht) hw
  · intro i q c ht
    exact ⟨hi.origin i _ ht, hi.replayed i _ c ht rfl⟩
  · exact fun l s' => tables_step R l s s'
  · intro i q c ht hc ha hb hcommitted hopens hlocks
    apply attempt_commits R s i q c ht hc ha
    · have hno := (inv_hasJti R tb s hi c.jti).not.mpr (by simp [hb, hcommitted])
      simpa using hno
    · exact List.count_eq_zero.mp ((hi.jtis c.jti).trans hopens)
    · exact List.count_eq_zero.mp ((hi.aids (aidKey c.input)).trans hlocks)

section Scenario

def manifestBody : BodyText :=
  ⟨js "\x7b\"manifest\":\x7b\"version\":\"aitp/0.3\",\"aid\":\"aid:x\","++
    js "\"handshake_endpoint\":\"https://x/\"\x7d\x7d", by decide +kernel⟩

def signedPayload : EnrollmentPayload :=
  ⟨js "aid:x", 0, 300, js "6f1e4a52-0c3b-4d87-9a6e-2b5d8c7f1e90",
    js "6133811d4c063e8450ac1b1fbf6978785b24d9e8bdb5dc6616eab9e999f75f5a"⟩

def payloadText : Text :=
  js "\x7b\"sub\":\"aid:x\",\"scope\":\"register\",\"iat\":0,\"exp\":300,\"jti\":\""++
    signedPayload.jti++js "\",\"msh\":\""++signedPayload.msh++js "\"\x7d"

def manifest : Json :=
  .obj [(js "version", .str (js "aitp/0.3")), (js "aid", .str (js "aid:x")),
    (js "handshake_endpoint", .str (js "https://x/"))]

def data : Text :=
  js "eyJzdWIiOiJhaWQ6eCIsInNjb3BlIjoicmVnaXN0ZXIiLCJpYXQiOjAsImV4cCI6MzAwLCJqdGkiOi"++
    js "I2ZjFlNGE1Mi0wYzNiLTRkODctOWE2ZS0yYjVkOGM3ZjFlOTAiLCJtc2giOiI2MTMzODExZDRjMDYz"++
    js "ZTg0NTBhYzFiMWZiZjY5Nzg3ODViMjRkOWU4YmRiNWRjNjYxNmVhYjllOTk5Zjc1ZjVhIn0"

def runtime : Platform where
  encode _ := data
  decode _ := payloadText
  stringify _ := payloadText
  parse t :=
    if t = manifestBody.text then some (.obj [(js "manifest", manifest)])
    else some signedPayload.json
  hmac _ _ := js "ONk7WHsfdH3RftN9ZfHrC10kcbu50oZkUP_FlxZiyWY"
  sha256Hex t := if t = manifestBody.text then signedPayload.msh else 0::t
  toNumber _ := none
  template _ := []

def secret : Text := js "0123456789abcdef0123456789abcdef"

def registry : Registry where
  service := ⟨runtime, some secret⟩
  verifyManifestJson t := if t = manifestBody.text then none else some ⟨js "malformed", []⟩

def bearer : Text := js "Bearer "++sign runtime secret signedPayload

def request : RegisterRequest where
  headers := [⟨js "authorization", bearer, by decide +kernel⟩]
  tooLarge := false
  body := manifestBody

/-- The token is issued, then two requests present it at once. The one that
has inserted its `jti` fails, and the other one registers. -/
def presented : List Event :=
  [.env (.enroll manifestBody signedPayload.jti), .env (.post request), .env (.post request),
    .act 0 .ok, .act 1 .ok, .act 0 .ok, .act 0 .fault, .act 1 .ok, .act 1 .ok, .act 1 .ok]

theorem registration_atomic_presented :
    ∃ s, run (next registry) presented (start 0 ⟨[], []⟩) = some s ∧
      s.world.commits.length = 1 ∧ Atomic registry ⟨[], []⟩ s := by
  have hrun : (run (next registry) presented (start 0 ⟨[], []⟩)).map
      (fun s => s.world.commits.length) = some 1 := by decide +kernel
  obtain ⟨s, hs, h1⟩ := Option.map_eq_some_iff.mp hrun
  exact ⟨s, hs, h1, registration_atomic registry 0 ⟨[], []⟩ presented s hs⟩

end Scenario

end ControlPlane.RegistrationAtomicity
