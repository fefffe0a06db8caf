import ControlPlane.DeliveryWaits

/-!
# Deliveries of a restarted process

A process that starts after any history, crashes included, takes rows up
again. While its statements succeed and the receivers answer with 2xx, a row
that was pending is delivered, or failed when its webhook is not active,
whatever the order in which its calls take their steps.
-/

set_option autoImplicit false

namespace ControlPlane.DeliveryRecovery
open ControlPlane.JsText ControlPlane.JsValue ControlPlane.CircuitBreaker
open ControlPlane.RunMachine ControlPlane.ThreadPool ControlPlane.DeliveryMachine
open ControlPlane.DeliverySteps ControlPlane.DeliveryWaits

def goodIo : Io → Bool
  | .ok => true
  | .fault => false
  | .jitter _ => true
  | .verdict .safe => true
  | .verdict _ => false
  | .redirect _ => false
  | .answer ans => ans.isOk

/-- The steps of a process that has just started, with the calls below `k`
gone with the processes that made them. A call starts for a row that exists,
a due row or a new one; every statement succeeds, every target is safe and
every POST is answered with 2xx. -/
def Calm (p : Proc) (k : ℕ) : Event → State → Prop
  | .env (.tick _), _ => True
  | .env (.enqueue proc _ _ _ _ _), _ => proc = p
  | .env (.reap proc id), s => proc = p ∧ s.world.owner id ≠ none
  | .env (.attempt proc id), s => proc = p ∧ s.world.owner id ≠ none
  | .env _, _ => False
  | .act i io, _ => k ≤ i ∧ goodIo io = true

instance (p : Proc) (k : ℕ) : ∀ (l : Event) (s : State), Decidable (Calm p k l s)
  | .env (.tick _), _ => isTrue trivial
  | .env (.enqueue proc _ _ _ _ _), _ => inferInstanceAs (Decidable (proc = p))
  | .env (.reap proc id), s => inferInstanceAs (Decidable (proc = p ∧ s.world.owner id ≠ none))
  | .env (.attempt proc id), s => inferInstanceAs (Decidable (proc = p ∧ s.world.owner id ≠ none))
  | .act i io, _ => inferInstanceAs (Decidable (k ≤ i ∧ goodIo io = true))
  | .env (.createWebhook _ _), _ | .env (.updateWebhook _ _), _ | .env (.deleteWebhook _), _
  | .env (.resetBreaker _ _), _ | .env (.timer _), _ | .env (.purge _), _ => isFalse id

def underway : Pc → Bool
  | .target _ => true
  | .fetching _ _ => true
  | .settle (.success _ _ _) => true
  | _ => false

def sent : Pc → Bool
  | .fetching _ _ => true
  | .settle (.success _ _ _) => true
  | _ => false

/-- The places a call passes in such a run, for a webhook that is active or
not. -/
def Course (active : Bool) : Pc → Prop
  | .readRow => True
  | .readWebhook _ => True
  | .ask _ => active = true
  | .claim _ => active = true
  | .target _ => active = true
  | .fetching _ _ => active = true
  | .settle .inactive => active = false
  | .settle (.success _ _ _) => active = true
  | .done => True
  | _ => False

def activeIn (s : State) (h : Option WebhookId) : Bool := (h.map (isActive s.world)).getD false

def postCount (s : State) (id : DeliveryId) : ℕ := (postsOf s.world id).length

structure CallOk (s t : State) (p : Proc) (c : Call) : Prop where
  proc : c.proc = p
  owner : t.world.owner c.delivery ≠ none
  course : Course (activeIn s (t.world.owner c.delivery)) c.pc
  sent : sent c.pc = true → postCount s c.delivery < postCount t c.delivery

/-- What became of a row that was pending when the process started. -/
structure RowOk (s t : State) (id : DeliveryId) (d d' : Delivery) : Prop where
  webhookId : d'.webhookId = d.webhookId
  waits : d'.status = .pending → d'.nextRetryAt = d.nextRetryAt
  delivered : d'.status = .delivered →
    isActive s.world d.webhookId = true ∧ postCount s id < postCount t id
  failed : d'.status = .failed → isActive s.world d.webhookId = false

def Current (d : Delivery) (c : Call) : Prop :=
  c.pc ≠ .done ∧ ∀ r, snapshot c.pc = some r → r.attempts = d.attempts

/-- A pending row that was claimed has a call that will record its answer;
one that was not has only calls that still go by its number of attempts. -/
def Cared (ts : List Call) (k : ℕ) (id : DeliveryId) (d : Delivery) : Prop :=
  (∃ j c, k ≤ j ∧ ts[j]? = some c ∧ c.delivery = id ∧ underway c.pc = true) ∨
  ∀ j c, k ≤ j → ts[j]? = some c → c.delivery = id → Current d c

structure Recovering (s : State) (p : Proc) (t : State) : Prop where
  owned : Owned t
  threads : s.threads.length ≤ t.threads.length
  hooks : t.world.webhooks = s.world.webhooks
  owner : ∀ id h, s.world.owner id = some h → t.world.owner id = some h
  now : s.world.now ≤ t.world.now
  posts : ∀ id, postCount s id ≤ postCount t id
  closed : ∀ h, (t.world.breakers p h).state = .closed
  calls : ∀ j c, s.threads.length ≤ j → t.threads[j]? = some c → CallOk s t p c
  rows : ∀ id d, s.world.deliveries id = some d → d.status = .pending →
    ∃ d', t.world.deliveries id = some d' ∧ RowOk s t id d d'
  cared : ∀ id d, t.world.deliveries id = some d → d.status = .pending →
    Cared t.threads s.threads.length id d

variable {svc : Service}

inductive Good (svc : Service) (w : World) (c : Call) : World → Call → Prop
  | skip (h : c.pc = .readRow)
    (hr : ∀ d, w.deliveries c.delivery = some d → d.status = .delivered) :
    Good svc w c w (c.to .done)
  | read (d : Delivery) (h : c.pc = .readRow) (hd : w.deliveries c.delivery = some d) :
    Good svc w c w (c.to (.readWebhook d))
  | inactive (d : Delivery) (h : c.pc = .readWebhook d) (ha : isActive w d.webhookId = false) :
    Good svc w c w (c.to (.settle .inactive))
  | find (d : Delivery) (h : c.pc = .readWebhook d) (hook : Webhook)
    (ha : isActive w d.webhookId = true) : Good svc w c w (c.to (.ask ⟨d, hook, false⟩))
  | ask (a : Attempt) (b : Bool) (h : c.pc = .ask a) :
    Good svc w c w (c.to (.claim { a with probe := b }))
  | claim (a : Attempt) (d : Delivery) (h : c.pc = .claim a)
    (hd : w.deliveries c.delivery = some d) (ha : d.attempts = a.delivery.attempts)
    (hs : d.status = .pending) : Good svc w c (w.row c.delivery (claimRow a)) (c.to (.target a))
  | lose (a : Attempt) (h : c.pc = .claim a)
    (hn : ∀ d, w.deliveries c.delivery = some d → d.status = .pending →
      d.attempts ≠ a.delivery.attempts) : Good svc w c w (c.to .done)
  | post (a : Attempt) (h : c.pc = .target a) :
    Good svc w c { w with posts := postOf svc w.now c.delivery a::w.posts } (c.to (.fetching a 0))
  | answer (a : Attempt) (hops code : ℕ) (h : c.pc = .fetching a hops) :
    Good svc w c (w.breaker c.proc a.webhookId
        (record svc.breaker w.now .success (w.breakers c.proc a.webhookId)))
      (c.to (.settle (.success a code w.now)))
  | settle (o : Outcome) (h : c.pc = .settle o) (ho : o.status ≠ .pending) :
    Good svc w c (w.row c.delivery o.apply) (c.to .done)

theorem breaker_same (w : World) (p : Proc) (h : WebhookId) :
    w.breaker p h (w.breakers p h) = w := by
  simp [World.breaker]

theorem conclude_ok (now : Instant) (a : Attempt) (ans : Answer) (h : ans.isOk = true) :
    ans.outcome = .success ∧ ∃ code, conclude svc now a ans = some (.success a code now) := by
  simp [Answer.outcome, conclude, h]

theorem good_move {w w' : World} {c c' : Call} {io : Io} (h : Move svc w c io w' c')
    (hio : goodIo io = true) (b : Bool) (hc : Course b c.pc)
    (hb : ∀ k, (w.breakers c.proc k).state = .closed) : Good svc w c w' c' := by
  cases h with
  | stop _ => cases hio
  | refuse a message _ | throw a _ | redirect a hops url _ _ => cases hio
  | disable a hpc | sweep a b hpc | audit a hpc => simp [Course, hpc] at hc
  | read hpc =>
    cases hd : w.deliveries c.delivery with
    | none =>
      have : Good svc w c _ _ := Good.skip hpc (by simp [hd])
      simpa [readRowStep, hd] using this
    | some d =>
      by_cases hs : d.status = .delivered
      · have : Good svc w c _ _ := Good.skip hpc (by simp [hd, hs])
        simpa [readRowStep, hd, hs] using this
      · have : Good svc w c _ _ := Good.read d hpc hd
        simpa [readRowStep, hd, hs] using this
  | find d hpc =>
    cases hh : w.webhooks d.webhookId with
    | none =>
      have : Good svc w c _ _ := Good.inactive d hpc (by simp [isActive, hh])
      simpa [readWebhookStep, hh] using this
    | some hook =>
      cases ha : hook.active with
      | false =>
        have : Good svc w c _ _ := Good.inactive d hpc (by simp [isActive, hh, ha])
        simpa [readWebhookStep, hh, ha] using this
      | true =>
        have : Good svc w c _ _ := Good.find d hpc hook (by simp [isActive, hh, ha])
        simpa [readWebhookStep, hh, ha] using this
  | ask a ms hpc =>
    have hclosed := hb a.webhookId
    have hask : shouldAttempt svc.breaker w.now (w.breakers c.proc a.webhookId) =
        (true, w.breakers c.proc a.webhookId) := by
      simp [shouldAttempt, hclosed]
    have : Good svc w c _ _ := Good.ask a false hpc
    simpa [askStep, hask, breaker_same, hclosed] using this
  | claim a d hpc hd ha hs => exact Good.claim a d hpc hd ha hs
  | lose a hpc hn =>
    apply Good.lose a hpc
    intro d hd hs ha
    simp [hd, claimable, ha, hs] at hn
  | post a hpc => exact Good.post a hpc
  | answer a hops ans hpc =>
    obtain ⟨ho, code, hcon⟩ := @conclude_ok svc w.now a ans hio
    have : Good svc w c _ _ := Good.answer a hops code hpc
    simpa [answerStep, hcon, ho] using this
  | settle o hpc _ =>
    rw [hpc] at hc
    cases o with
    | inactive => exact Good.settle _ hpc (by simp [Outcome.status])
    | success a code t => exact Good.settle _ hpc (by simp [Outcome.status])
    | _ => exact hc.elim

theorem posts_grow {w w' : World} {c c' : Call} {io : Io} (h : Move svc w c io w' c')
    (id : DeliveryId) : (postsOf w id).length ≤ (postsOf w' id).length := by
  rcases posts_move h with hp | ⟨a, _, _, _, hp⟩
  · rw [postsOf, postsOf, hp]
  · rw [postsOf, postsOf, hp, List.filter_cons]
    split_ifs
    · exact Nat.le_succ _
    · exact le_rfl

theorem closed_good {w w' : World} {c c' : Call} (h : Good svc w c w' c') (p : Proc)
    (hb : ∀ k, (w.breakers p k).state = .closed) (k : WebhookId) :
    (w'.breakers p k).state = .closed := by
  cases h with
  | answer a hops code _ =>
    rcases breaker_cases w c.proc p a.webhookId k
      (record svc.breaker w.now .success (w.breakers c.proc a.webhookId)) with
      ⟨rfl, rfl, he⟩ | ⟨_, he⟩
    · rw [he]
      simp [record, recordSuccess, hb]
    · rw [he]
      exact hb k
  | _ => exact hb k

section Act
variable {s t : State} {p : Proc} {c c' : Call} {w : World} {io : Io}

theorem known_owner (hk : Known t.world c) (d : Delivery) (hd : snapshot c.pc = some d) :
    t.world.owner c.delivery = some d.webhookId := by
  rcases hk with hk | hk | hk
  · simp [hk, snapshot] at hd
  · simp [hk, snapshot] at hd
  · exact hk.2 d hd

theorem isActive_same (h : t.world.webhooks = s.world.webhooks) (k : WebhookId) :
    isActive t.world k = isActive s.world k := by
  rw [isActive, isActive, h]

theorem activeIn_known (hk : Known t.world c) (hh : t.world.webhooks = s.world.webhooks)
    (d : Delivery) (hd : snapshot c.pc = some d) :
    activeIn s (t.world.owner c.delivery) = isActive t.world d.webhookId := by
  rw [known_owner hk d hd, isActive_same hh]
  rfl

theorem call_other (ts : List Call) (hc : CallOk s t p c) (ho : w.owner = t.world.owner)
    (hp : ∀ id, (postsOf t.world id).length ≤ (postsOf w id).length) :
    CallOk s ⟨w, ts⟩ p c := by
  refine ⟨hc.proc, ?_, ?_, ?_⟩
  · exact ho ▸ hc.owner
  · exact ho ▸ hc.course
  · intro hs
    exact (hc.sent hs).trans_le (hp c.delivery)

theorem call_self (ts : List Call) (hc : CallOk s t p c) (hm : Move svc t.world c io w c')
    (hg : Good svc t.world c w c') (hk : Known t.world c)
    (hh : t.world.webhooks = s.world.webhooks)
    (hle : postCount s c.delivery ≤ postCount t c.delivery) : CallOk s ⟨w, ts⟩ p c' := by
  have hid := (move_delivery hm).1
  have howner := move_owner hm
  have hcourse := hc.course
  have hsent := hc.sent
  refine ⟨(move_delivery hm).2.trans hc.proc, ?_, ?_, ?_⟩
  · rw [howner, hid]
    exact hc.owner
  · rw [howner, hid]
    cases hg with
    | skip _ _ | read d _ _ | lose a _ _ | settle o _ _ => trivial
    | inactive d hpc ha =>
      exact (activeIn_known hk hh d (by rw [hpc]; rfl)).trans ha
    | find d hpc hook ha =>
      exact (activeIn_known hk hh d (by rw [hpc]; rfl)).trans ha
    | ask a b hpc | claim a d hpc _ _ _ | post a hpc | answer a hops code hpc =>
      rw [hpc] at hcourse
      exact hcourse
  · intro hs
    rw [hid]
    cases hg with
    | skip _ _ | read d _ _ | lose a _ _ | settle o _ _ | inactive d _ _ | find d _ _ _
    | ask a b _ | claim a d _ _ _ _ => cases hs
    | post a hpc =>
      have hone : (postsOf { t.world with
          posts := postOf svc t.world.now c.delivery a::t.world.posts } c.delivery).length =
          (postsOf t.world c.delivery).length+1 := by
        simp [postsOf, postOf]
      exact Nat.lt_of_le_of_lt hle (by rw [postCount, postCount, hone]; exact Nat.lt_succ_self _)
    | answer a hops code hpc => exact hsent (by rw [hpc]; rfl)

theorem row_good (hc : CallOk s t p c) (hg : Good svc t.world c w c') (howned : Rows t.world)
    (hp : ∀ id, (postsOf t.world id).length ≤ (postsOf w id).length) (ts : List Call)
    (id : DeliveryId) (d d₁ : Delivery) (hd₁ : t.world.deliveries id = some d₁)
    (h : RowOk s t id d d₁) :
    ∃ d', w.deliveries id = some d' ∧ RowOk s ⟨w, ts⟩ id d d' := by
  have hkept : RowOk s ⟨w, ts⟩ id d d₁ :=
    ⟨h.webhookId, h.waits, fun hs => ⟨(h.delivered hs).1, (h.delivered hs).2.trans_le (hp id)⟩,
      h.failed⟩
  have hactive : id = c.delivery →
      activeIn s (t.world.owner c.delivery) = isActive s.world d.webhookId := by
    rintro rfl
    rw [howned _ _ hd₁, h.webhookId]
    rfl
  cases hg with
  | claim a d₀ hpc hd₀ ha hs =>
    by_cases hid : id = c.delivery
    · subst hid
      obtain rfl : d₀ = d₁ := Option.some.inj (hd₀.symm.trans hd₁)
      refine ⟨claimRow a d₀, by simp [hd₁], h.webhookId, fun _ => h.waits hs, ?_, ?_⟩
      · intro hst
        cases hst
      · intro hst
        cases hst
    · exact ⟨d₁, by rw [row_other _ _ _ _ hid, hd₁], hkept⟩
  | settle o hpc ho =>
    by_cases hid : id = c.delivery
    · have hcourse := hc.course
      rw [hpc, hactive hid] at hcourse
      have hsent := hc.sent
      subst hid
      refine ⟨o.apply d₁, by simp [hd₁], by rw [apply_webhookId, h.webhookId], ?_, ?_, ?_⟩
      · intro hst
        exact (ho (by rwa [apply_status] at hst)).elim
      · intro hst
        cases o with
        | success a code u => exact ⟨hcourse, hsent (by rw [hpc]; rfl)⟩
        | _ => cases hst
      · intro hst
        cases o with
        | inactive => exact hcourse
        | unsafeTarget _ _ | gone _ _ | exhausted _ _ _ => exact hcourse.elim
        | _ => cases hst
    · exact ⟨d₁, by rw [row_other _ _ _ _ hid, hd₁], hkept⟩
  | _ => exact ⟨d₁, hd₁, hkept⟩

theorem cared_other (ts : List Call) (k i : ℕ) (id : DeliveryId) (d : Delivery)
    (hi : ts[i]? = some c) (hne : c.delivery ≠ id) (hne' : c'.delivery ≠ id)
    (h : Cared ts k id d) : Cared (ts.set i c') k id d := by
  rcases h with ⟨j, u, hj, hu, hid, hp⟩ | h
  · have hji : j ≠ i := by
      rintro rfl
      exact hne (Option.some.inj (hi.symm.trans hu) ▸ hid)
    exact Or.inl ⟨j, u, hj, (set_other ts i j c' hji).trans hu, hid, hp⟩
  · right
    intro j u hj hu hid
    rcases set_get ts i j c' u hu with ⟨_, rfl⟩ | ⟨_, hu⟩
    · exact (hne' hid).elim
    · exact h j u hj hu hid

theorem cared_self (ts : List Call) (k i : ℕ) (id : DeliveryId) (d : Delivery)
    (hi : ts[i]? = some c) (hid : c'.delivery = c.delivery)
    (hp : underway c.pc = true → underway c'.pc = true) (hcur : Current d c → Current d c')
    (hk : k ≤ i) (h : Cared ts k id d) : Cared (ts.set i c') k id d := by
  rcases h with ⟨j, u, hj, hu, hjd, hpost⟩ | h
  · by_cases hji : j = i
    · subst hji
      obtain rfl : c = u := Option.some.inj (hi.symm.trans hu)
      exact Or.inl ⟨j, c', hj, set_self ts j c c' hi, hid.trans hjd, hp hpost⟩
    · exact Or.inl ⟨j, u, hj, (set_other ts i j c' hji).trans hu, hjd, hpost⟩
  · right
    intro j u hj hu hjd
    rcases set_get ts i j c' u hu with ⟨_, rfl⟩ | ⟨_, hu⟩
    · exact hcur (h i c hk hi (hid ▸ hjd))
    · exact h j u hj hu hjd

theorem cared_append (ts : List Call) (k : ℕ) (id : DeliveryId) (d : Delivery) (o : Option Call)
    (ho : ∀ u, o = some u → u.pc = .readRow) (h : Cared ts k id d) :
    Cared (ts++o.toList) k id d := by
  rcases h with ⟨j, u, hj, hu, hid, hp⟩ | h
  · left
    obtain ⟨hlt, _⟩ := List.getElem?_eq_some_iff.mp hu
    exact ⟨j, u, hj, by rw [List.getElem?_append_left hlt, hu], hid, hp⟩
  · right
    intro j u hj hu hid
    rcases append_get ts o j u hu with hold | ⟨_, hnew⟩
    · exact h j u hj hold hid
    · rw [Current, ho u hnew]
      exact ⟨by simp, by simp [snapshot]⟩

theorem cared_good (ts : List Call) (k i : ℕ) (hi : ts[i]? = some c) (hki : k ≤ i)
    (hg : Good svc t.world c w c') (id : DeliveryId) (d : Delivery)
    (hd : w.deliveries id = some d) (hs : d.status = .pending)
    (h : ∀ d₀, t.world.deliveries id = some d₀ → d₀.status = .pending → Cared ts k id d₀) :
    Cared (ts.set i c') k id d := by
  by_cases hid : id = c.delivery
  · subst hid
    cases hg with
    | skip hpc hr =>
      have := hr d hd
      simp [this] at hs
    | read d₀ hpc hd₀ =>
      obtain rfl : d₀ = d := Option.some.inj (hd₀.symm.trans hd)
      apply cared_self ts k i _ d₀ hi (to_delivery c _) ?_ ?_ hki (h d₀ hd hs)
      · simp [hpc, underway]
      · intro _
        exact ⟨by simp, by simp [snapshot]⟩
    | inactive d₀ hpc _ =>
      apply cared_self ts k i _ d hi (to_delivery c _) ?_ ?_ hki (h d hd hs)
      · simp [hpc, underway]
      · intro _
        exact ⟨by simp, by simp [snapshot, Outcome.attempt]⟩
    | find d₀ hpc hook _ | ask a b hpc =>
      apply cared_self ts k i _ d hi (to_delivery c _) ?_ ?_ hki (h d hd hs)
      · simp [hpc, underway]
      · intro hcur
        exact ⟨by simp, by simpa [Current, hpc, snapshot] using hcur.2⟩
    | claim a d₀ hpc hd₀ ha hs₀ =>
      exact Or.inl ⟨i, _, hki, set_self ts i c _ hi, rfl, rfl⟩
    | lose a hpc hn =>
      rcases h d hd hs with ⟨j, u, hj, hu, hjd, hp⟩ | hcur
      · have hji : j ≠ i := by
          rintro rfl
          obtain rfl : c = u := Option.some.inj (hi.symm.trans hu)
          simp [hpc, underway] at hp
        exact Or.inl ⟨j, u, hj, (set_other ts i j _ hji).trans hu, hjd, hp⟩
      · have hsame := (hcur i c hki hi rfl).2 a.delivery (by rw [hpc]; rfl)
        exact (hn d hd hs hsame.symm).elim
    | post a hpc | answer a hops code hpc =>
      apply cared_self ts k i _ d hi (to_delivery c _) ?_ ?_ hki (h d hd hs)
      · exact fun _ => rfl
      · intro hcur
        exact ⟨by simp, by simpa [Current, hpc, snapshot, Outcome.attempt] using hcur.2⟩
    | settle o hpc ho =>
      rw [row_same] at hd
      obtain ⟨d₀, _, rfl⟩ := Option.map_eq_some_iff.mp hd
      exact (ho (by rwa [apply_status] at hs)).elim
  · have hold : t.world.deliveries id = some d := by
      cases hg with
      | claim a d₀ _ _ _ _ | settle o _ _ => rwa [row_other _ _ _ _ hid] at hd
      | _ => exact hd
    have hdelivery : c'.delivery = c.delivery := by cases hg <;> rfl
    exact cared_other ts k i id d hi (Ne.symm hid) (hdelivery ▸ Ne.symm hid) (h d hold hs)

theorem recovering_act (i : ℕ) (q : State) (hcalm : Calm p s.threads.length (.act i io) t)
    (hi : Recovering s p t) (hs : next svc (.act i io) t = some q) : Recovering s p q := by
  have howned := owned_step svc _ t q hi.owned hs
  obtain ⟨c, w, c', hc, hm, rfl⟩ := act_next svc i io t q hs
  have hok := hi.calls i c hcalm.1 hc
  have hclosed : ∀ k, (t.world.breakers c.proc k).state = .closed := hok.proc ▸ hi.closed
  have hg := good_move hm hcalm.2 _ hok.course hclosed
  have hhooks : w.webhooks = t.world.webhooks := by
    cases hg <;> rfl
  constructor
  · exact howned
  · simpa using hi.threads
  · exact hhooks.trans hi.hooks
  · rw [move_owner hm]
    exact hi.owner
  · rw [move_now hm]
    exact hi.now
  · exact fun id => (hi.posts id).trans (posts_grow hm id)
  · exact fun k => closed_good hg p hi.closed k
  · intro j u hj hu
    rcases set_get _ _ _ _ _ hu with ⟨_, rfl⟩ | ⟨_, hu⟩
    · exact call_self _ hok hm hg (hi.owned.thread i c hc) hi.hooks (hi.posts c.delivery)
    · exact call_other _ (hi.calls j u hj hu) (move_owner hm) (posts_grow hm)
  · intro id d hd hst
    obtain ⟨d₁, hd₁, hrow⟩ := hi.rows id d hd hst
    exact row_good hok hg hi.owned.world (posts_grow hm) _ id d d₁ hd₁ hrow
  · intro id d hd hst
    exact cared_good t.threads _ i hc hcalm.1 hg id d hd hst (hi.cared id)

end Act

theorem recovering_env (s t : State) (p : Proc) (w : World) (o : Option Call)
    (he : EnvEffect t.world w o) (howned : Owned ⟨w, t.threads++o.toList⟩)
    (hkept : ∀ id d, t.world.deliveries id = some d → w.deliveries id = some d)
    (hhooks : w.webhooks = t.world.webhooks) (hnow : t.world.now ≤ w.now)
    (hbreakers : ∀ k, w.breakers p k = t.world.breakers p k)
    (hstart : ∀ c, o = some c → c.proc = p ∧ w.owner c.delivery ≠ none)
    (hi : Recovering s p t) : Recovering s p ⟨w, t.threads++o.toList⟩ := by
  have hposts : ∀ id, postsOf w id = postsOf t.world id := by
    intro id
    rw [postsOf, postsOf, he.posts]
  have hsame : ∀ id, t.world.owner id ≠ none → w.owner id = t.world.owner id := by
    intro id hne
    obtain ⟨k, hk⟩ := Option.ne_none_iff_exists'.mp hne
    rw [he.owner id k hk, hk]
  have hlen : s.threads.length ≤ (t.threads++o.toList).length := by
    rw [List.length_append]
    exact hi.threads.trans (Nat.le_add_right _ _)
  have hcalls : ∀ j c, s.threads.length ≤ j → (t.threads++o.toList)[j]? = some c →
      CallOk s ⟨w, t.threads++o.toList⟩ p c := by
    intro j c hj hc
    rcases append_get _ _ _ _ hc with hold | ⟨_, hnew⟩
    · have hok := hi.calls j c hj hold
      have howner := hsame _ hok.owner
      refine ⟨hok.proc, ?_, ?_, ?_⟩
      · rw [howner]
        exact hok.owner
      · rw [howner]
        exact hok.course
      · intro hs
        rw [postCount, postCount, hposts]
        exact hok.sent hs
    · refine ⟨(hstart c hnew).1, (hstart c hnew).2, ?_, ?_⟩
      · rw [he.started c hnew]
        trivial
      · intro hs
        rw [he.started c hnew] at hs
        cases hs
  constructor
  · exact howned
  · exact hlen
  · exact hhooks.trans hi.hooks
  · exact fun id k hk => he.owner id k (hi.owner id k hk)
  · exact hi.now.trans hnow
  · intro id
    rw [postCount, postCount, hposts]
    exact hi.posts id
  · intro k
    rw [hbreakers]
    exact hi.closed k
  · exact hcalls
  · intro id d hd hs
    obtain ⟨d', hd', hr⟩ := hi.rows id d hd hs
    refine ⟨d', hkept id d' hd', hr.webhookId, hr.waits, ?_, hr.failed⟩
    intro hst
    rw [postCount, postCount, hposts]
    exact hr.delivered hst
  · intro id d hd hs
    rcases he.rows id d hd with hold | ⟨hfree, _⟩
    · exact cared_append _ _ id d o he.started (hi.cared id d hold hs)
    · right
      intro j c hj hc hid
      rcases append_get _ _ _ _ hc with hc | ⟨_, hnew⟩
      · exact ((hi.calls j c hj hc).owner (hid ▸ hfree)).elim
      · rw [Current, he.started c hnew]
        exact ⟨by simp, by simp [snapshot]⟩

theorem recovering_step (s : State) (p : Proc) (l : Event) (t q : State)
    (hcalm : Calm p s.threads.length l t) (hi : Recovering s p t)
    (hs : next svc l t = some q) : Recovering s p q := by
  cases l with
  | act i io => exact recovering_act i q hcalm hi hs
  | env e =>
    have howned := owned_step svc _ t q hi.owned hs
    obtain ⟨w, o, he, rfl⟩ := (step_env_some _ _ _ _).mp hs
    have hnow := env_now e _ _ _ he
    have heffect := env_effect svc e _ _ _ he
    cases e with
    | tick ms =>
      simp only [deliverySystem, env, Option.some.injEq, Prod.mk.injEq] at he
      obtain ⟨rfl, rfl⟩ := he
      exact recovering_env s t p _ _ heffect howned (fun _ _ h => h) rfl hnow (fun _ => rfl)
        (by simp) hi
    | enqueue proc id hook candidate eventType payload =>
      simp only [deliverySystem, env] at he
      split_ifs at he with hc
      simp only [Option.some.injEq, Prod.mk.injEq] at he
      obtain ⟨rfl, rfl⟩ := he
      apply recovering_env s t p _ _ heffect howned ?_ rfl hnow (fun _ => rfl) ?_ hi
      · intro id' d hd
        have hne : id' ≠ id := by
          rintro rfl
          simp [hi.owned.world id' d hd] at hc
        simpa [hne] using hd
      · intro c hc
        obtain rfl := Option.some.inj hc
        exact ⟨hcalm, by simp [begin]⟩
    | reap proc id =>
      simp only [deliverySystem, env] at he
      split_ifs at he
      simp only [Option.some.injEq, Prod.mk.injEq] at he
      obtain ⟨rfl, rfl⟩ := he
      apply recovering_env s t p _ _ heffect howned (fun _ _ h => h) rfl hnow (fun _ => rfl) ?_ hi
      intro c hc
      obtain rfl := Option.some.inj hc
      exact hcalm
    | attempt proc id =>
      simp only [deliverySystem, env, Option.some.injEq, Prod.mk.injEq] at he
      obtain ⟨rfl, rfl⟩ := he
      apply recovering_env s t p _ _ heffect howned (fun _ _ h => h) rfl hnow (fun _ => rfl) ?_ hi
      intro c hc
      obtain rfl := Option.some.inj hc
      exact hcalm
    | _ => exact hcalm.elim

theorem recovering_run (s : State) (p : Proc) (ls : List Event) (t q : State)
    (hg : Guarded (next svc) (Calm p s.threads.length) ls t) (hi : Recovering s p t)
    (hr : run (next svc) ls t = some q) : Recovering s p q :=
  run_invariant _ (Calm p s.threads.length) (Recovering s p) (recovering_step s p) ls t q hg hi hr

theorem recovering_start (s : State) (p : Proc) (ho : Owned s)
    (hp : ∀ h, (s.world.breakers p h).state = .closed) : Recovering s p s := by
  have hnone : ∀ j c, s.threads.length ≤ j → s.threads[j]? ≠ some c := by
    intro j c hj hc
    obtain ⟨hlt, _⟩ := List.getElem?_eq_some_iff.mp hc
    omega
  constructor
  · exact ho
  · exact le_rfl
  · rfl
  · exact fun _ _ h => h
  · exact le_rfl
  · exact fun _ => le_rfl
  · exact hp
  · exact fun j c hj hc => (hnone j c hj hc).elim
  · intro id d hd hs
    exact ⟨d, hd, rfl, fun _ => rfl, by simp [hs], by simp [hs]⟩
  · exact fun id d _ _ => Or.inr (fun j c hj hc => (hnone j c hj hc).elim)

end ControlPlane.DeliveryRecovery
