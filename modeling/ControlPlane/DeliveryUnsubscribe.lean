import ControlPlane.DeliverySteps

/-!
# Unsubscribing by a 410 answer

The answer is handled in four statements: fail this row, switch the webhook
off, fail its pending rows, audit. Calls for other deliveries of the webhook
that passed the active check run in between and afterwards.
-/

set_option autoImplicit false

namespace ControlPlane.DeliveryUnsubscribe
open ControlPlane.JsText ControlPlane.JsValue ControlPlane.CircuitBreaker
open ControlPlane.RunMachine ControlPlane.ThreadPool ControlPlane.DeliveryMachine
open ControlPlane.DeliverySteps

variable {svc : Service}

/-- A 410 answer that has not failed the pending rows of its webhook yet. -/
def unswept : Pc → Option Attempt
  | .settle (.gone a _) => some a
  | .disable a => some a
  | .failQueue a _ => some a
  | _ => none

def unaudited : Pc → Option Attempt
  | .failQueue a true => some a
  | .audit a => some a
  | _ => none

abbrev NoneUnswept (p : State) (i : ℕ) (h : Option WebhookId) : Prop :=
  Others p i (fun u => ∀ b ∈ unswept u.pc, h ≠ some b.webhookId)

def ExclusiveAnswer (p : State) (i : ℕ) (ans : Answer) (c : Call) : Prop :=
  ans.isGone = true → ∀ a ∈ fetchingAttempt c.pc, Others p i (fun u =>
    p.world.owner u.delivery = some a.webhookId → isTarget u.pc = false)

def ExclusiveClaim (p : State) (i : ℕ) (c : Call) : Prop :=
  ∀ a ∈ claiming c.pc, ∀ d ∈ p.world.deliveries c.delivery, claimable a d = true →
    NoneUnswept p i (p.world.owner c.delivery)

def ExclusiveSettle (p : State) (i : ℕ) (c : Call) : Prop :=
  ∀ o ∈ settling c.pc, ∀ d ∈ p.world.deliveries c.delivery,
    (o.status = .pending → d.status = .pending) ∧
    (o.status = .delivered → d.status ≠ .failed ∧ NoneUnswept p i (p.world.owner c.delivery))

/-- While a 410 answer is handled, no call stands between the claim of
another delivery of the webhook and its POST, and none is recorded as
delivered. Afterwards no late write makes a failed row pending or delivered.
The statements that handle the answer do not fail. -/
def Exclusive : Event → State → Prop
  | .act i (.answer ans), p => At p i (ExclusiveAnswer p i ans)
  | .act i .ok, p => At p i (fun c => ExclusiveClaim p i c ∧ ExclusiveSettle p i c)
  | .act i .fault, p => At p i (fun c => unswept c.pc = none ∧ unaudited c.pc = none)
  | _, _ => True

instance (p : State) (i : ℕ) (ans : Answer) (c : Call) : Decidable (ExclusiveAnswer p i ans c) := by
  unfold ExclusiveAnswer
  infer_instance

instance (p : State) (i : ℕ) (c : Call) : Decidable (ExclusiveClaim p i c) := by
  unfold ExclusiveClaim
  infer_instance

instance (p : State) (i : ℕ) (c : Call) : Decidable (ExclusiveSettle p i c) := by
  unfold ExclusiveSettle
  infer_instance

instance : ∀ (l : Event) (p : State), Decidable (Exclusive l p)
  | .act i (.answer ans), p => inferInstanceAs (Decidable (At p i (ExclusiveAnswer p i ans)))
  | .act i .ok, p => inferInstanceAs (Decidable (At p i _))
  | .act i .fault, p => inferInstanceAs (Decidable (At p i _))
  | .env _, _ | .act _ (.jitter _), _ | .act _ (.verdict _), _ | .act _ (.redirect _), _ =>
    isTrue trivial

def isOver : Pc → Bool
  | .audit _ => true
  | .done => true
  | _ => false

theorem unswept_move {w w' : World} {c c' : Call} {io : Io} (h : Move svc w c io w' c')
    (a : Attempt) (ha : unswept c.pc = some a) (hio : io ≠ .fault) :
    unswept c'.pc = some a ∨
    (isOver c'.pc = true ∧
      w'.deliveries = fun id => (w.deliveries id).map (failPending a.webhookId)) := by
  cases h with
  | stop _ => exact (hio rfl).elim
  | settle o hpc _ =>
    rw [hpc] at ha
    cases o with
    | gone b e => exact Or.inl ha
    | _ => cases ha
  | disable b hpc =>
    rw [hpc] at ha
    left
    simp only [disableStep]
    split_ifs <;> exact ha
  | sweep b d hpc =>
    simp only [hpc, unswept, Option.some.injEq] at ha
    subst ha
    right
    refine ⟨?_, rfl⟩
    cases d <;> rfl
  | read hpc | find d hpc | ask b ms hpc | claim b d hpc _ _ _ | lose b hpc _ | post b hpc
  | refuse b m hpc | throw b hpc | redirect b hops url hpc _ | answer b hops ans hpc
  | audit b hpc => simp [hpc, unswept] at ha

theorem over_move {w w' : World} {c c' : Call} {io : Io} (h : Move svc w c io w' c')
    (ho : isOver c.pc = true) : isOver c'.pc = true ∧ w'.deliveries = w.deliveries := by
  cases h with
  | stop _ | audit _ _ => exact ⟨rfl, rfl⟩
  | read hpc | find d hpc | ask b ms hpc | claim b d hpc _ _ _ | lose b hpc _ | post b hpc
  | refuse b m hpc | throw b hpc | redirect b hops url hpc _ | answer b hops ans hpc
  | settle o hpc _ | disable b hpc | sweep b d hpc => simp [hpc, isOver] at ho

/-- A delivery that was there when call `i` got a 410 answer from its webhook. -/
structure Closing (i : ℕ) (h : WebhookId) (id : DeliveryId) (s : DeliveryStatus)
    (posts : List Post) (p : State) : Prop where
  owned : Owned p
  owner : p.world.owner id = some h
  quiet : ∀ (j : ℕ) (u : Call), p.threads[j]? = some u → u.delivery = id → isTarget u.pc = false
  posts : postsOf p.world id = posts
  undelivered : s ≠ .delivered → ∀ d, p.world.deliveries id = some d → d.status ≠ .delivered
  phase : ∃ c : Call, p.threads[i]? = some c ∧ ((∃ a, unswept c.pc = some a ∧ a.webhookId = h) ∨
    (isOver c.pc = true ∧ ∀ d, p.world.deliveries id = some d → d.status ≠ .pending))

section Step

variable {i k : ℕ} {h : WebhookId} {id : DeliveryId} {s : DeliveryStatus} {posts : List Post}
variable {p : State} {io : Io} {c c' : Call} {w : World}

theorem closing_claim (hi : Closing i h id s posts p) (hc : p.threads[k]? = some c)
    (hok : Exclusive (.act k .ok) p) (a : Attempt) (d : Delivery) (hpc : c.pc = .claim a)
    (hid : c.delivery = id) (hd : p.world.deliveries id = some d) (hcl : claimable a d = true) :
    False := by
  obtain ⟨u, hu, hphase⟩ := hi.phase
  have hk : i ≠ k := by
    rintro rfl
    rw [hc, Option.some.injEq] at hu
    subst hu
    simp [hpc, unswept, isOver] at hphase
  rcases hphase with ⟨b, hb, hbh⟩ | ⟨_, hnp⟩
  · have hsettled := (hok c hc).1 a (by simp [hpc, claiming]) d (hid ▸ hd) hcl
    exact others_get p k i _ u hsettled hk hu b hb (by rw [hid, hi.owner, hbh])
  · simp only [claimable, decide_eq_true_eq] at hcl
    exact hnp d hd hcl.2

theorem closing_quiet (hi : Closing i h id s posts p) (hc : p.threads[k]? = some c)
    (hm : Move svc p.world c io w c') (hok : Exclusive (.act k io) p) (hid : c'.delivery = id) :
    isTarget c'.pc = false := by
  cases ht : isTarget c'.pc with
  | false => rfl
  | true =>
    obtain ⟨a, d, hpc, rfl, hd, ha, hs, -, -⟩ := target_move hm ht
    rw [(move_delivery hm).1] at hid
    exact (closing_claim hi hc hok a d hpc hid (hid ▸ hd) (by simp [claimable, ha, hs])).elim

theorem closing_undelivered (hi : Closing i h id s posts p) (hc : p.threads[k]? = some c)
    (hm : Move svc p.world c io w c') (hok : Exclusive (.act k io) p) (hs : s ≠ .delivered)
    (d' : Delivery) (hd' : w.deliveries id = some d') : d'.status ≠ .delivered := by
  rcases status_move hm id d' hd' with ⟨d, hd, he⟩ | ⟨_, _, _, _, _, _, he⟩ |
    ⟨o, d, hpc, rfl, rfl, hd, he⟩ | ⟨_, _, _, _, _, _, _, _, he⟩
  · rw [he]
    exact hi.undelivered hs d hd
  · simp [he]
  · rw [he]
    intro hod
    obtain ⟨hnf, hnone⟩ := ((hok c hc).2 o (by simp [hpc, settling]) d hd).2 hod
    obtain ⟨u, hu, hphase⟩ := hi.phase
    rcases hphase with ⟨b, hb, hbh⟩ | ⟨_, hnp⟩
    · have hk : i ≠ k := by
        rintro rfl
        rw [hc, Option.some.injEq] at hu
        subst hu
        rw [hpc] at hb
        cases o <;> simp [unswept] at hb
        simp [Outcome.status] at hod
      exact others_get p k i _ u hnone hk hu b hb (by rw [hi.owner, hbh])
    · cases hst : d.status with
      | pending => exact hnp d hd hst
      | failed => exact hnf hst
      | delivered => exact hi.undelivered hs d hd hst
  · simp [he]

theorem closing_unpending (hc : p.threads[k]? = some c) (hm : Move svc p.world c io w c')
    (hok : Exclusive (.act k io) p)
    (hnp : ∀ d, p.world.deliveries id = some d → d.status ≠ .pending) (d' : Delivery)
    (hd' : w.deliveries id = some d') : d'.status ≠ .pending := by
  rcases status_move hm id d' hd' with ⟨d, hd, he⟩ | ⟨_, d, _, _, hd, hp, _⟩ |
    ⟨o, d, hpc, rfl, rfl, hd, he⟩ | ⟨_, _, _, _, _, _, _, _, he⟩
  · rw [he]
    exact hnp d hd
  · exact (hnp d hd hp).elim
  · rw [he]
    intro hop
    exact hnp d hd (((hok c hc).2 o (by simp [hpc, settling]) d hd).1 hop)
  · simp [he]

theorem closing_phase (hi : Closing i h id s posts p) (hc : p.threads[k]? = some c)
    (hm : Move svc p.world c io w c') (hok : Exclusive (.act k io) p) :
    ∃ u : Call, (p.threads.set k c')[i]? = some u ∧
      ((∃ a, unswept u.pc = some a ∧ a.webhookId = h) ∨
        (isOver u.pc = true ∧ ∀ d, w.deliveries id = some d → d.status ≠ .pending)) := by
  obtain ⟨u, hu, hphase⟩ := hi.phase
  by_cases hki : i = k
  · subst hki
    rw [hc, Option.some.injEq] at hu
    subst hu
    refine ⟨c', set_self _ _ _ _ hc, ?_⟩
    rcases hphase with ⟨a, ha, hah⟩ | ⟨ho, hnp⟩
    · have hio : io ≠ .fault := by
        rintro rfl
        simp [(hok c hc).1] at ha
      rcases unswept_move hm a ha hio with hu | ⟨hover, hw⟩
      · exact Or.inl ⟨a, hu, hah⟩
      · refine Or.inr ⟨hover, ?_⟩
        intro d' hd'
        rw [hw] at hd'
        obtain ⟨d, hd, rfl⟩ := Option.map_eq_some_iff.mp hd'
        have hwid : d.webhookId = a.webhookId := by
          have := hi.owned.world id d hd
          rw [hi.owner, Option.some.injEq] at this
          rw [← this, hah]
        by_cases hp : d.status = .pending
        · simp [failPending, hwid, hp]
        · simp [failPending, hp]
    · obtain ⟨hover, hw⟩ := over_move hm ho
      exact Or.inr ⟨hover, by rw [hw]; exact hnp⟩
  · refine ⟨u, by rw [set_other _ _ _ _ hki]; exact hu, ?_⟩
    rcases hphase with ha | ⟨ho, hnp⟩
    · exact Or.inl ha
    · exact Or.inr ⟨ho, closing_unpending hc hm hok hnp⟩

theorem closing_act (svc : Service) (q : State) (hok : Exclusive (.act k io) p)
    (hi : Closing i h id s posts p) (hs : next svc (.act k io) p = some q) :
    Closing i h id s posts q := by
  have hown := owned_step svc _ p q hi.owned hs
  obtain ⟨c, w, c', hc, hm, rfl⟩ := act_next svc k io p q hs
  refine ⟨hown, by simpa only [move_owner hm] using hi.owner, ?_, ?_,
    fun hs => closing_undelivered hi hc hm hok hs, closing_phase hi hc hm hok⟩
  · intro j u hu hid
    rcases set_get _ _ _ _ _ hu with ⟨rfl, rfl⟩ | ⟨_, hu⟩
    · exact closing_quiet hi hc hm hok hid
    · exact hi.quiet j u hu hid
  · rw [← hi.posts]
    exact postsOf_move hm id (hi.quiet k c hc)

theorem closing_env (svc : Service) (e : Env) (q : State) (hi : Closing i h id s posts p)
    (hs : next svc (.env e) p = some q) : Closing i h id s posts q := by
  have hown := owned_step svc _ p q hi.owned hs
  obtain ⟨w, o, he, rfl⟩ := env_next svc e p q hs
  have hrow : ∀ d, w.deliveries id = some d → p.world.deliveries id = some d := by
    intro d hd
    rcases he.rows id d hd with h | ⟨h, _⟩
    · exact h
    · simp [hi.owner] at h
  obtain ⟨u, hu, hphase⟩ := hi.phase
  obtain ⟨hlt, _⟩ := List.getElem?_eq_some_iff.mp hu
  refine ⟨hown, he.owner id h hi.owner, ?_, by rw [← hi.posts, postsOf, postsOf, he.posts],
    fun hs d hd => hi.undelivered hs d (hrow d hd),
    u, by rwa [List.getElem?_append_left hlt], ?_⟩
  · intro j u hu hid
    rcases append_get _ _ _ _ hu with hj | ⟨_, hj⟩
    · exact hi.quiet j u hj hid
    · simp [he.started u hj, isTarget]
  · rcases hphase with ha | ⟨ho, hnp⟩
    · exact Or.inl ha
    · exact Or.inr ⟨ho, fun d hd => hnp d (hrow d hd)⟩

theorem closing_step (svc : Service) (l : Event) (q : State) (hok : Exclusive l p)
    (hi : Closing i h id s posts p) (hs : next svc l p = some q) : Closing i h id s posts q := by
  cases l with
  | env e => exact closing_env svc e q hi hs
  | act k io => exact closing_act svc q hok hi hs

end Step

section Audit

def audits (w : World) (h : WebhookId) : ℕ := w.audit.countP (·.targetId = h)

def auditDue (h : WebhookId) (c : Call) : Bool := (unaudited c.pc).any (·.webhookId = h)

def Audited (p : State) : Prop :=
  ∀ h, audits p.world h+p.threads.countP (auditDue h) = p.world.flips.count h

theorem askStep_audit (svc : Service) (ms : ℕ) (w : World) (c : Call) (a : Attempt) :
    (askStep svc ms w c a).1.audit = w.audit ∧ (askStep svc ms w c a).1.flips = w.flips ∧
      unaudited (askStep svc ms w c a).2.pc = none := by
  simp only [askStep]
  split_ifs
  · exact ⟨rfl, rfl, rfl⟩
  · split <;> exact ⟨rfl, rfl, rfl⟩

theorem disable_balance (w : World) (c : Call) (a : Attempt) (h : WebhookId) :
    audits (disableStep w c a).1 h+(if auditDue h (disableStep w c a).2 then 1 else 0)+
      w.flips.count h = audits w h+(disableStep w c a).1.flips.count h := by
  simp only [disableStep]
  split_ifs with h1 h2 h2
  · simp only [auditDue, to_pc, unaudited, Option.any_some, decide_eq_true_eq] at h2
    subst h2
    simp only [audits, List.count_cons_self]
    omega
  · simp only [auditDue, to_pc, unaudited, Option.any_some, decide_eq_true_eq] at h2
    simp [audits, List.count_cons_of_ne h2]
  · simp [auditDue, unaudited] at h2
  · simp [audits]

theorem auditDue_none (h : WebhookId) (c : Call) (hu : unaudited c.pc = none) :
    auditDue h c = false := by
  rw [auditDue, hu]
  rfl

theorem undue_balance (w w' : World) (c c' : Call) (h : WebhookId) (ha : w'.audit = w.audit)
    (hf : w'.flips = w.flips) (hc : unaudited c.pc = none) (hc' : unaudited c'.pc = none) :
    audits w' h+(if auditDue h c' then 1 else 0)+w.flips.count h =
      audits w h+(if auditDue h c then 1 else 0)+w'.flips.count h := by
  rw [auditDue_none h c hc, auditDue_none h c' hc', audits, audits, ha, hf]

theorem audit_balance {w w' : World} {c c' : Call} {io : Io} (hm : Move svc w c io w' c')
    (h : WebhookId) (hio : io = .fault → unaudited c.pc = none) :
    audits w' h+(if auditDue h c' then 1 else 0)+w.flips.count h =
      audits w h+(if auditDue h c then 1 else 0)+w'.flips.count h := by
  cases hm with
  | stop _ => exact undue_balance w w c _ h rfl rfl (hio rfl) rfl
  | ask a ms hpc =>
    obtain ⟨ha, hf, hu⟩ := askStep_audit svc ms w c a
    exact undue_balance w _ c _ h ha hf (by rw [hpc]; rfl) hu
  | disable a hpc =>
    rw [auditDue_none h c (by rw [hpc]; rfl)]
    exact disable_balance w c a h
  | sweep a b hpc =>
    have hc : auditDue h c = auditDue h (failQueueStep w c a b).2 := by
      cases b <;> simp only [auditDue, hpc] <;> rfl
    rw [hc]
    rfl
  | audit a hpc =>
    have hc : auditDue h c = decide (a.webhookId = h) := by simp only [auditDue, hpc]; rfl
    rw [auditDue_none h (auditStep w c a).2 rfl, hc]
    simp [auditStep, audits, List.countP_cons]
  | read hpc =>
    apply undue_balance w w c _ h rfl rfl (by rw [hpc]; rfl)
    simp only [readRowStep]
    split
    · rfl
    · split_ifs <;> rfl
  | find d hpc =>
    apply undue_balance w w c _ h rfl rfl (by rw [hpc]; rfl)
    simp only [readWebhookStep]
    split
    · rfl
    · split_ifs <;> rfl
  | answer a hops ans hpc =>
    apply undue_balance w _ c _ h rfl rfl (by rw [hpc]; rfl)
    simp only [answerStep, to_pc]
    cases conclude svc w.now a ans <;> rfl
  | settle o hpc _ =>
    exact undue_balance w _ c _ h rfl rfl (by rw [hpc]; rfl) (by cases o <;> rfl)
  | claim a d hpc _ _ _ | lose a hpc _ | post a hpc | refuse a m hpc | throw a hpc
  | redirect a hops url hpc _ =>
    exact undue_balance w _ c _ h rfl rfl (by rw [hpc]; rfl) rfl

theorem audited_step (svc : Service) (l : Event) (p q : State) (hok : Exclusive l p)
    (hi : Audited p) (hs : next svc l p = some q) : Audited q := by
  intro h
  cases l with
  | env e =>
    obtain ⟨w, o, he, rfl⟩ := env_next svc e p q hs
    have ho : o.toList.countP (auditDue h) = 0 := by
      cases o with
      | none => rfl
      | some t => simp [auditDue, he.started t rfl, unaudited]
    simp only [audits, he.audit, he.flips, List.countP_append, ho]
    exact hi h
  | act i io =>
    obtain ⟨c, w, c', hc, hm, rfl⟩ := act_next svc i io p q hs
    have hio : io = .fault → unaudited c.pc = none := by
      rintro rfl
      exact (hok c hc).2
    have hbal := audit_balance hm h hio
    have hcount := countP_set_add p.threads i c c' (auditDue h) hc
    have := hi h
    simp only
    omega

end Audit

section Switch

def switching : Pc → Option Attempt
  | .settle (.gone a _) => some a
  | .disable a => some a
  | _ => none

def Switching (i : ℕ) (h : WebhookId) (p : State) : Prop :=
  ∃ (c : Call) (a : Attempt), p.threads[i]? = some c ∧ switching c.pc = some a ∧ a.webhookId = h

theorem switching_unswept (pc : Pc) (a : Attempt) (h : switching pc = some a) :
    unswept pc = some a := by
  cases pc with
  | settle o =>
    cases o with
    | gone b e => exact h
    | _ => cases h
  | disable b => exact h
  | _ => cases h

theorem disableStep_inactive (w : World) (c : Call) (a : Attempt) :
    isActive (disableStep w c a).1 a.webhookId = false := by
  simp only [disableStep]
  split_ifs with h
  · cases w.webhooks a.webhookId <;> simp [isActive]
  · simpa using h

theorem switched_off (svc : Service) (i : ℕ) (h : WebhookId) (l : Event) (p q : State)
    (hok : Exclusive l p) (hp : Switching i h p) (hq : ¬ Switching i h q)
    (hs : next svc l p = some q) : isActive q.world h = false := by
  obtain ⟨u, a, hu, ha, hah⟩ := hp
  cases l with
  | env e =>
    obtain ⟨w, o, _, rfl⟩ := env_next svc e p q hs
    obtain ⟨hlt, _⟩ := List.getElem?_eq_some_iff.mp hu
    exact (hq ⟨u, a, by rwa [List.getElem?_append_left hlt], ha, hah⟩).elim
  | act k io =>
    obtain ⟨c, w, c', hc, hm, rfl⟩ := act_next svc k io p q hs
    by_cases hk : i = k
    · subst hk
      rw [hc, Option.some.injEq] at hu
      subst hu
      cases hm with
      | stop _ =>
        have hno := (hok c hc).1
        rw [switching_unswept c.pc a ha] at hno
        cases hno
      | settle o hpc _ =>
        rw [hpc] at ha
        cases o with
        | gone b e => exact (hq ⟨_, b, set_self _ _ _ _ hc, rfl, by cases ha; exact hah⟩).elim
        | _ => cases ha
      | disable b hpc =>
        simp only [hpc, switching, Option.some.injEq] at ha
        subst ha hah
        exact disableStep_inactive p.world c b
      | read hpc | find d hpc | ask b ms hpc | claim b d hpc _ _ _ | lose b hpc _ | post b hpc
      | refuse b m hpc | throw b hpc | redirect b hops url hpc _ | answer b hops ans hpc
      | sweep b d hpc | audit b hpc =>
        simp [hpc, switching] at ha
    · exact (hq ⟨u, a, by rw [set_other _ _ _ _ hk]; exact hu, ha, hah⟩).elim

end Switch

/-- What a 410 answer of webhook `h`, given in state `p`, leads to by the
state `q` in which it is handled. -/
structure Unsubscribes (svc : Service) (h : WebhookId) (p : State) (ms : List Event)
    (q : State) : Prop where
  inactive : ∃ as bs m, ms = as++bs ∧ run (next svc) as p = some m ∧ isActive m.world h = false
  failed : ∀ id d, p.world.deliveries id = some d → d.webhookId = h → d.status ≠ .delivered →
    ∀ d', q.world.deliveries id = some d' → d'.status = .failed
  unposted : ∀ id d, p.world.deliveries id = some d → d.webhookId = h →
    postsOf q.world id = postsOf p.world id
  audited : Audited q

theorem gone_answer (now : Instant) (a : Attempt) (ans : Answer) (hg : ans.isGone = true) :
    conclude svc now a ans = some (.gone a ans.errorText) := by
  cases ans with
  | threw m => cases hg
  | status code text =>
    simp only [Answer.isGone, decide_eq_true_eq] at hg
    subst hg
    rfl

section Result

variable {ls ms : List Event} {p p' q : State} {i : ℕ} {ans : Answer} {c : Call} {a : Attempt}
  {hops : ℕ}

theorem answer_next (hc : p.threads[i]? = some c) (hpc : c.pc = .fetching a hops)
    (hg : ans.isGone = true) (hs : next svc (.act i (.answer ans)) p = some p') :
    p'.threads = p.threads.set i (c.to (.settle (.gone a ans.errorText))) ∧
    p'.world.deliveries = p.world.deliveries ∧ p'.world.owner = p.world.owner := by
  obtain ⟨u, w, u', hu, hact, rfl⟩ := (step_act_some _ _ _ _ _).mp hs
  rw [hc, Option.some.injEq] at hu
  subst hu
  simp only [deliverySystem, act, hpc, Option.some.injEq] at hact
  have hw := congrArg Prod.fst hact
  have hu' := congrArg Prod.snd hact
  simp only [answerStep, gone_answer _ a ans hg, Option.map_some, Option.getD_some] at hw hu'
  subst hw hu'
  exact ⟨rfl, rfl, rfl⟩

theorem closing_start (ho : Owned p) (hc : p.threads[i]? = some c) (hpc : c.pc = .fetching a hops)
    (hg : ans.isGone = true) (hok : Exclusive (.act i (.answer ans)) p)
    (hs : next svc (.act i (.answer ans)) p = some p') (id : DeliveryId) (d : Delivery)
    (hd : p'.world.deliveries id = some d) (hw : d.webhookId = a.webhookId) :
    Closing i a.webhookId id d.status (postsOf p'.world id) p' := by
  obtain ⟨ht, hrows, howner⟩ := answer_next hc hpc hg hs
  have hown := owned_step svc _ p p' ho hs
  refine ⟨hown, by rw [hown.world id d hd, hw], ?_, rfl, ?_, ?_⟩
  · intro j u hu hid
    rw [ht] at hu
    rcases set_get _ _ _ _ _ hu with ⟨rfl, rfl⟩ | ⟨hj, hu⟩
    · rfl
    · apply others_get p i j _ u (hok c hc hg a (by simp [hpc, fetchingAttempt])) hj hu
      rw [hid, ho.world id d (hrows ▸ hd), hw]
  · intro hs d' hd'
    rw [hd, Option.some.injEq] at hd'
    exact hd' ▸ hs
  · exact ⟨_, by rw [ht]; exact set_self _ _ _ _ hc, Or.inl ⟨a, rfl, rfl⟩⟩

theorem closing_failed {id : DeliveryId} {h : WebhookId} {s : DeliveryStatus} {posts : List Post}
    {u : Call} (hcl : Closing i h id s posts q) (hu : q.threads[i]? = some u)
    (hdone : isDone u.pc = true) (hs : s ≠ .delivered) (d : Delivery)
    (hd : q.world.deliveries id = some d) : d.status = .failed := by
  obtain ⟨v, hv, hphase⟩ := hcl.phase
  rw [hu, Option.some.injEq] at hv
  subst hv
  have hnp : d.status ≠ .pending := by
    rcases hphase with ⟨b, hb, _⟩ | ⟨_, hnp⟩
    · cases hpc : u.pc <;> simp [hpc, isDone] at hdone
      simp [hpc, unswept] at hb
    · exact hnp d hd
  have hnd := hcl.undelivered hs d hd
  cases hst : d.status with
  | pending => exact (hnp hst).elim
  | delivered => exact (hnd hst).elim
  | failed => rfl

theorem switching_ends {h : WebhookId} {u : Call} (hp : Switching i h p')
    (hg : Guarded (next svc) Exclusive ms p') (hq : run (next svc) ms p' = some q)
    (hu : q.threads[i]? = some u) (hdone : isDone u.pc = true) :
    ∃ as bs m, ms = as++bs ∧ run (next svc) as p' = some m ∧ isActive m.world h = false := by
  have hafter : ¬ Switching i h q := by
    rintro ⟨v, b, hv, hb, _⟩
    rw [hu, Option.some.injEq] at hv
    subst hv
    cases hpc : u.pc <;> simp [hpc, isDone] at hdone
    simp [hpc, switching] at hb
  obtain ⟨as, l, bs, x, y, rfl, hx, hpx, hl, hpy, _⟩ :=
    run_crossing (next svc) _ ms p' q hp hafter hq
  obtain ⟨_, hokl, _⟩ := (guarded_append _ _ as _ _ x hx).mp hg
  refine ⟨as++[l], bs, y, by simp, ?_, switched_off svc i _ l x y hokl hpx hpy hl⟩
  exact (run_append_some _ as [l] p' y).mpr ⟨x, hx, by simp [run, hl]⟩

/-- In an exclusive run a 410 answer switches its webhook off, ends every
delivery of it that was not delivered as failed without another POST, and is
audited once for each time it switched a webhook off. -/
theorem gone_unsubscribes (svc : Service) (now : Instant) (ls ms : List Event) (p p' q : State)
    (i : ℕ) (ans : Answer) (c u : Call) (a : Attempt) (hops : ℕ)
    (hg : Guarded (next svc) Exclusive (ls++.act i (.answer ans)::ms) (start now))
    (hr : run (next svc) ls (start now) = some p) (hc : p.threads[i]? = some c)
    (hpc : c.pc = .fetching a hops) (hgone : ans.isGone = true)
    (hs : next svc (.act i (.answer ans)) p = some p') (hq : run (next svc) ms p' = some q)
    (hu : q.threads[i]? = some u) (hdone : isDone u.pc = true) :
    Unsubscribes svc a.webhookId p' ms q := by
  obtain ⟨hg₁, hok, hg₂⟩ := (guarded_append _ _ ls _ _ p hr).mp hg
  have hg₃ := hg₂ p' hs
  have hown := owned_run svc ls _ p (owned_start now) hr
  have hend : ∀ id d, p'.world.deliveries id = some d → d.webhookId = a.webhookId →
      Closing i a.webhookId id d.status (postsOf p'.world id) q := by
    intro id d hd hw
    exact run_invariant _ Exclusive _ (fun l s t => closing_step svc l t) ms p' q hg₃
      (closing_start hown hc hpc hgone hok hs id d hd hw) hq
  have haudit : Audited p :=
    run_invariant _ Exclusive Audited (audited_step svc) ls _ p hg₁
      (fun h => by simp [start, initial, audits]) hr
  refine ⟨?_, ?_, fun id d hd hw => (hend id d hd hw).posts, ?_⟩
  · obtain ⟨ht, _⟩ := answer_next hc hpc hgone hs
    exact switching_ends ⟨_, a, by rw [ht]; exact set_self _ _ _ _ hc, rfl, rfl⟩ hg₃ hq hu hdone
  · intro id d hd hw hnd
    exact closing_failed (hend id d hd hw) hu hdone hnd
  · have hp' := audited_step svc _ p p' hok haudit hs
    exact run_invariant _ Exclusive Audited (audited_step svc) ms p' q hg₃ hp' hq

end Result

def waiting : List Event :=
  [created, enqueued [1], enqueued [2]]++posting 1++[answered 1 500 [], .act 1 .ok]++posting 0

def handled : List Event :=
  [.act 0 .ok, .act 0 .ok, .act 0 .ok, .act 0 .ok]

def afterWaiting : State := (run (next service) waiting (start 0)).get (by decide +kernel)

def afterGone : State := (next service (answered 0 410 []) afterWaiting).get (by decide +kernel)

def afterHandled : State := (run (next service) handled afterGone).get (by decide +kernel)

def goneCall : Call := afterWaiting.threads[0]?.get (by decide +kernel)

def fetchingFor (c : Call) : Option WebhookId :=
  match c.pc with
  | .fetching a _ => some a.webhookId
  | _ => none

theorem fetchingFor_some (c : Call) (h : WebhookId) (hc : fetchingFor c = some h) :
    ∃ a hops, c.pc = .fetching a hops ∧ a.webhookId = h := by
  unfold fetchingFor at hc
  split at hc
  · rename_i a hops hpc
    exact ⟨a, hops, hpc, Option.some.inj hc⟩
  · cases hc

theorem gone_unsubscribes_waiting : ∃ p p' q, run (next service) waiting (start 0) = some p ∧
    next service (answered 0 410 []) p = some p' ∧ run (next service) handled p' = some q ∧
    Unsubscribes service [7] p' handled q := by
  obtain ⟨a, hops, hpc, hw⟩ := fetchingFor_some goneCall [7] (by decide +kernel)
  refine ⟨afterWaiting, afterGone, afterHandled, (Option.some_get _).symm,
    (Option.some_get _).symm, (Option.some_get _).symm, ?_⟩
  have hdone : (afterHandled.threads[0]?.map (fun c => isDone c.pc)) = some true := by
    decide +kernel
  obtain ⟨u, hu, hpcu⟩ := Option.map_eq_some_iff.mp hdone
  have hends := gone_unsubscribes service 0 waiting handled afterWaiting afterGone afterHandled 0
    (.status 410 []) goneCall u a hops (by decide +kernel) (Option.some_get _).symm
    (Option.some_get _).symm hpc rfl (Option.some_get _).symm (Option.some_get _).symm hu hpcu
  rwa [hw] at hends

/-- With U+0000 in the text of the 410 answer the first statement fails: the
webhook stays active, and its delivery pending. -/
theorem nul_text_keeps_webhook :
    ¬ ∀ (svc : Service) (now : Instant) (ls ms : List Event) (p p' q : State) (i : ℕ)
      (ans : Answer) (c u : Call) (a : Attempt) (hops : ℕ),
      Guarded (next svc) Reliable (ls++.act i (.answer ans)::ms) (start now) →
      run (next svc) ls (start now) = some p → p.threads[i]? = some c →
      c.pc = .fetching a hops →
      ans.isGone = true → next svc (.act i (.answer ans)) p = some p' →
      run (next svc) ms p' = some q → q.threads[i]? = some u → isDone u.pc = true →
      Unsubscribes svc a.webhookId p' ms q := by
  intro h
  have hu := h service 0 ([created, enqueued [1]]++posting 0) [.act 0 .fault] _ _ _ 0
    (.status 410 [0]) _ _ _ 0 (by decide +kernel) rfl rfl rfl rfl rfl rfl rfl rfl
  have := hu.failed [1] _ rfl rfl (by decide +kernel) _ rfl
  cases this

end ControlPlane.DeliveryUnsubscribe
