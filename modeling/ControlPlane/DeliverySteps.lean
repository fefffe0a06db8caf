import ControlPlane.DeliveryMachine

/-!
# What one step of the delivery machine does

Every step of a call is one of fifteen moves, and every other step either
leaves a delivery alone, deletes it or enqueues it under an unused id. The
rows of one id always belong to the webhook it was enqueued for.
-/

set_option autoImplicit false

namespace ControlPlane.DeliverySteps
open ControlPlane.JsValue ControlPlane.CircuitBreaker
open ControlPlane.MediatedFetch (maxRedirects)
open ControlPlane.RunMachine ControlPlane.ThreadPool ControlPlane.DeliveryMachine

variable (svc : Service)

@[simp] theorem to_pc (c : Call) (pc : Pc) : (c.to pc).pc = pc := rfl

@[simp] theorem to_delivery (c : Call) (pc : Pc) : (c.to pc).delivery = c.delivery := rfl

@[simp] theorem to_proc (c : Call) (pc : Pc) : (c.to pc).proc = c.proc := rfl

@[simp] theorem row_same (w : World) (id : DeliveryId) (f : Delivery → Delivery) :
    (w.row id f).deliveries id = (w.deliveries id).map f := by simp [World.row]

theorem row_other (w : World) (id id' : DeliveryId) (f : Delivery → Delivery) (h : id' ≠ id) :
    (w.row id f).deliveries id' = w.deliveries id' := by simp [World.row, h]

theorem row_some (w : World) (id id' : DeliveryId) (f : Delivery → Delivery) (d : Delivery)
    (h : (w.row id f).deliveries id' = some d) :
    (id' ≠ id ∧ w.deliveries id' = some d) ∨
    (id' = id ∧ ∃ d₀, w.deliveries id = some d₀ ∧ d = f d₀) := by
  by_cases he : id' = id
  · subst he
    rw [row_same, Option.map_eq_some_iff] at h
    obtain ⟨d₀, h₀, rfl⟩ := h
    exact Or.inr ⟨rfl, d₀, h₀, rfl⟩
  · rw [row_other w id id' f he] at h
    exact Or.inl ⟨he, h⟩

@[simp] theorem apply_status (o : Outcome) (d : Delivery) : (o.apply d).status = o.status := by
  cases o <;> rfl

@[simp] theorem apply_attempts (o : Outcome) (d : Delivery) :
    (o.apply d).attempts = d.attempts := by
  cases o <;> rfl

@[simp] theorem apply_webhookId (o : Outcome) (d : Delivery) :
    (o.apply d).webhookId = d.webhookId := by
  cases o <;> rfl

@[simp] theorem failPending_attempts (h : WebhookId) (d : Delivery) :
    (failPending h d).attempts = d.attempts := by
  simp only [failPending]
  split_ifs <;> rfl

@[simp] theorem failPending_webhookId (h : WebhookId) (d : Delivery) :
    (failPending h d).webhookId = d.webhookId := by
  simp only [failPending]
  split_ifs <;> rfl

theorem failPending_status (h : WebhookId) (d : Delivery) :
    (failPending h d).status = d.status ∨
    (d.status = .pending ∧ d.webhookId = h ∧ (failPending h d).status = .failed) := by
  by_cases hd : d.webhookId = h ∧ d.status = .pending
  · exact Or.inr ⟨hd.2, hd.1, by simp [failPending, hd]⟩
  · exact Or.inl (by simp [failPending, hd])

/-- The steps that are one SQL statement, which may fail. -/
def isStatement : Pc → Bool
  | .ask _ => false
  | .target _ => false
  | .fetching _ _ => false
  | .done => false
  | _ => true

def fetchingAttempt : Pc → Option Attempt
  | .fetching a _ => some a
  | _ => none

inductive Move (w : World) (c : Call) : Io → World → Call → Prop
  | stop (h : isStatement c.pc = true) : Move w c .fault w (c.to .done)
  | read (h : c.pc = .readRow) : Move w c .ok w (readRowStep w c)
  | find (d : Delivery) (h : c.pc = .readWebhook d) : Move w c .ok w (readWebhookStep w c d)
  | ask (a : Attempt) (ms : ℕ) (h : c.pc = .ask a) :
    Move w c (.jitter ms) (askStep svc ms w c a).1 (askStep svc ms w c a).2
  | claim (a : Attempt) (d : Delivery) (h : c.pc = .claim a) (hd : w.deliveries c.delivery = some d)
      (ha : d.attempts = a.delivery.attempts) (hs : d.status = .pending) :
    Move w c .ok (w.row c.delivery (claimRow a)) (c.to (.target a))
  | lose (a : Attempt) (h : c.pc = .claim a)
    (hn : ((w.deliveries c.delivery).map (claimable a)).getD false = false) :
    Move w c .ok w (c.to .done)
  | post (a : Attempt) (h : c.pc = .target a) :
    Move w c (.verdict .safe) { w with posts := postOf svc w.now c.delivery a::w.posts }
      (c.to (.fetching a 0))
  | refuse (a : Attempt) (message : JsText.Text) (h : c.pc = .target a) :
    Move w c (.verdict (.refused message)) w (c.to (.settle (.unsafeTarget a message)))
  | throw (a : Attempt) (h : c.pc = .target a) : Move w c (.verdict .threw) w (c.to .done)
  | redirect (a : Attempt) (hops : ℕ) (url : JsText.Text) (h : c.pc = .fetching a hops)
      (hlt : hops < maxRedirects) :
    Move w c (.redirect url) (redirectStep url w c a hops).1 (redirectStep url w c a hops).2
  | answer (a : Attempt) (hops : ℕ) (ans : Answer) (h : c.pc = .fetching a hops) :
    Move w c (.answer ans) (answerStep svc ans w c a).1 (answerStep svc ans w c a).2
  | settle (o : Outcome) (h : c.pc = .settle o) (hs : o.storable = true) :
    Move w c .ok (settleStep w c o).1 (settleStep w c o).2
  | disable (a : Attempt) (h : c.pc = .disable a) :
    Move w c .ok (disableStep w c a).1 (disableStep w c a).2
  | sweep (a : Attempt) (b : Bool) (h : c.pc = .failQueue a b) :
    Move w c .ok (failQueueStep w c a b).1 (failQueueStep w c a b).2
  | audit (a : Attempt) (h : c.pc = .audit a) :
    Move w c .ok (auditStep w c a).1 (auditStep w c a).2

theorem claimStep_move (w : World) (c : Call) (a : Attempt) (h : c.pc = .claim a) :
    Move svc w c .ok (claimStep w c a).1 (claimStep w c a).2 := by
  cases hd : w.deliveries c.delivery with
  | none => simpa [claimStep, hd] using Move.lose a h (by simp [hd])
  | some d =>
    by_cases hc : claimable a d = true
    · have hc' := hc
      simp only [claimable, decide_eq_true_eq] at hc'
      simpa [claimStep, hd, hc] using Move.claim a d h hd hc'.1 hc'.2
    · simpa [claimStep, hd, hc] using Move.lose a h (by simpa [hd] using hc)

theorem act_move (io : Io) (w w' : World) (c c' : Call) (h : act svc io w c = some (w', c')) :
    Move svc w c io w' c' := by
  cases hpc : c.pc <;> cases io <;> simp only [act, hpc, reduceCtorEq, Option.some.injEq,
    Prod.mk.injEq] at h
  case readRow.fault | readWebhook.fault | claim.fault | settle.fault | disable.fault |
      failQueue.fault | audit.fault =>
    obtain ⟨rfl, rfl⟩ := h
    exact Move.stop (by simp [hpc, isStatement])
  case readRow.ok =>
    obtain ⟨rfl, rfl⟩ := h
    exact Move.read hpc
  case readWebhook.ok d =>
    obtain ⟨rfl, rfl⟩ := h
    exact Move.find d hpc
  case ask.jitter a ms =>
    split_ifs at h
    rw [Option.some.injEq] at h
    have : Move svc w c _ _ _ := .ask a ms hpc
    rwa [h] at this
  case claim.ok a =>
    have := claimStep_move svc w c a hpc
    rwa [h] at this
  case target.verdict a v =>
    cases v with
    | safe =>
      obtain ⟨rfl, rfl⟩ := Prod.mk.injEq _ _ _ _ ▸ h
      exact Move.post a hpc
    | refused message =>
      obtain ⟨rfl, rfl⟩ := Prod.mk.injEq _ _ _ _ ▸ h
      exact Move.refuse a message hpc
    | threw =>
      obtain ⟨rfl, rfl⟩ := Prod.mk.injEq _ _ _ _ ▸ h
      exact Move.throw a hpc
  case fetching.redirect a hops url =>
    split_ifs at h with hlt
    rw [Option.some.injEq] at h
    have : Move svc w c _ _ _ := .redirect a hops url hpc hlt
    rwa [h] at this
  case fetching.answer a hops ans =>
    have : Move svc w c _ _ _ := .answer a hops ans hpc
    rwa [h] at this
  case settle.ok o =>
    split_ifs at h with hs
    rw [Option.some.injEq] at h
    have : Move svc w c _ _ _ := .settle o hpc hs
    rwa [h] at this
  case disable.ok a =>
    have : Move svc w c _ _ _ := .disable a hpc
    rwa [h] at this
  case failQueue.ok a b =>
    have : Move svc w c _ _ _ := .sweep a b hpc
    rwa [h] at this
  case audit.ok a =>
    have : Move svc w c _ _ _ := .audit a hpc
    rwa [h] at this

theorem act_next (i : ℕ) (io : Io) (p q : State) (h : next svc (.act i io) p = some q) :
    ∃ c w c', p.threads[i]? = some c ∧ Move svc p.world c io w c' ∧
      q = ⟨w, p.threads.set i c'⟩ := by
  obtain ⟨c, w, c', hc, ha, rfl⟩ := (step_act_some _ _ _ _ _).mp h
  exact ⟨c, w, c', hc, act_move svc io _ _ _ _ ha, rfl⟩

structure EnvEffect (w w' : World) (o : Option Call) : Prop where
  rows : ∀ id d, w'.deliveries id = some d → w.deliveries id = some d ∨
    (w.owner id = none ∧ w'.owner id = some d.webhookId ∧ d.status = .pending ∧ d.attempts = 0)
  owner : ∀ id h, w.owner id = some h → w'.owner id = some h
  posts : w'.posts = w.posts
  resent : w'.resent = w.resent
  audit : w'.audit = w.audit
  flips : w'.flips = w.flips
  breakers : ∀ p h, w'.breakers p h = w.breakers p h ∨ w'.breakers p h = fresh
  started : ∀ c, o = some c → c.pc = .readRow

theorem untouched (w : World) (now : Instant) (hooks : WebhookId → Option Webhook)
    (ts : List Timer) (o : Option Call) (hs : ∀ c, o = some c → c.pc = .readRow) :
    EnvEffect w { w with now := now, webhooks := hooks, timers := ts } o :=
  ⟨fun _ _ h => Or.inl h, fun _ _ h => h, rfl, rfl, rfl, rfl, fun _ _ => Or.inl rfl, hs⟩

theorem breaker_cases (w : World) (p p' : Proc) (h h' : WebhookId) (e : BreakerEntry) :
    (p' = p ∧ h' = h ∧ (w.breaker p h e).breakers p' h' = e) ∨
    ((p' ≠ p ∨ h' ≠ h) ∧ (w.breaker p h e).breakers p' h' = w.breakers p' h') := by
  by_cases hp : p' = p
  · by_cases hh : h' = h
    · exact Or.inl ⟨hp, hh, by simp [World.breaker, hp, hh]⟩
    · exact Or.inr ⟨Or.inr hh, by simp [World.breaker, hp, hh]⟩
  · exact Or.inr ⟨Or.inl hp, by simp [World.breaker, hp]⟩

theorem enqueue_effect (w : World) (proc : Proc) (id : DeliveryId) (h : WebhookId)
    (d : Delivery) (hn : w.owner id = none) (hd : d.webhookId = h) (hs : d.status = .pending)
    (ha : d.attempts = 0) :
    EnvEffect w { w with
      deliveries := Function.update w.deliveries id (some d)
      owner := Function.update w.owner id (some h) } (some (begin proc id)) := by
  refine ⟨?_, ?_, rfl, rfl, rfl, rfl, by simp, by simp [begin]⟩
  · intro id' r hr
    by_cases he : id' = id
    · subst he
      simp only [Function.update_self, Option.some.injEq] at hr
      subst hr
      exact Or.inr ⟨hn, by simp [hd], hs, ha⟩
    · exact Or.inl (by simpa [he] using hr)
  · intro id' h' ho
    have he : id' ≠ id := by
      rintro rfl
      simp [hn] at ho
    simpa [he] using ho

theorem env_effect (e : Env) (w w' : World) (o : Option Call) (h : env svc e w = some (w', o)) :
    EnvEffect w w' o := by
  cases e with
  | tick ms | updateWebhook id p =>
    simp only [env, Option.some.injEq, Prod.mk.injEq] at h
    obtain ⟨rfl, rfl⟩ := h
    exact untouched w _ _ _ none (by simp)
  | createWebhook id r =>
    simp only [env] at h
    split_ifs at h
    simp only [Option.some.injEq, Prod.mk.injEq] at h
    obtain ⟨rfl, rfl⟩ := h
    exact untouched w _ _ _ none (by simp)
  | deleteWebhook id =>
    simp only [env, Option.some.injEq, Prod.mk.injEq] at h
    obtain ⟨rfl, rfl⟩ := h
    refine ⟨?_, by simp, rfl, rfl, rfl, rfl, by simp, by simp⟩
    intro id' d hd
    exact Or.inl (Option.filter_eq_some_iff.mp hd).1
  | resetBreaker p id =>
    simp only [env, Option.some.injEq, Prod.mk.injEq] at h
    obtain ⟨rfl, rfl⟩ := h
    refine ⟨fun _ _ h => Or.inl h, fun _ _ h => h, rfl, rfl, rfl, rfl, ?_, by simp⟩
    intro p' h'
    rcases breaker_cases w p p' id h' fresh with ⟨_, _, hb⟩ | ⟨_, hb⟩
    · exact Or.inr hb
    · exact Or.inl hb
  | enqueue proc id h' candidate eventType payload =>
    simp only [env] at h
    split_ifs at h with hc
    simp only [Option.some.injEq, Prod.mk.injEq] at h
    obtain ⟨rfl, rfl⟩ := h
    exact enqueue_effect w proc id h' _ hc.1 rfl rfl rfl
  | timer t | reap p id =>
    simp only [env] at h
    split_ifs at h
    simp only [Option.some.injEq, Prod.mk.injEq] at h
    obtain ⟨rfl, rfl⟩ := h
    apply untouched w _ _ _ _
    intro c hc
    cases hc
    rfl
  | attempt p id =>
    simp only [env, Option.some.injEq, Prod.mk.injEq] at h
    obtain ⟨rfl, rfl⟩ := h
    apply untouched w _ _ _ _
    intro c hc
    cases hc
    rfl
  | purge id =>
    simp only [env, Option.some.injEq, Prod.mk.injEq] at h
    obtain ⟨rfl, rfl⟩ := h
    refine ⟨?_, by simp, rfl, rfl, rfl, rfl, by simp, by simp⟩
    intro id' d hd
    by_cases he : id' = id
    · subst he
      simp only [Function.update_self] at hd
      exact Or.inl (Option.filter_eq_some_iff.mp hd).1
    · exact Or.inl (by simpa [he] using hd)

theorem env_next (e : Env) (p q : State) (h : next svc (.env e) p = some q) :
    ∃ w o, EnvEffect p.world w o ∧ q = ⟨w, p.threads++o.toList⟩ := by
  obtain ⟨w, o, he, rfl⟩ := (step_env_some _ _ _ _).mp h
  exact ⟨w, o, env_effect svc e _ _ _ he, rfl⟩

variable {svc}

theorem move_frame {w w' : World} {c c' : Call} {io : Io} (h : Move svc w c io w' c') :
    w'.owner = w.owner ∧ w'.now = w.now := by
  cases h with
  | ask a ms _ =>
    simp only [askStep]
    split_ifs
    · exact ⟨rfl, rfl⟩
    · split <;> exact ⟨rfl, rfl⟩
  | disable a _ =>
    simp only [disableStep]
    split_ifs <;> exact ⟨rfl, rfl⟩
  | _ => exact ⟨rfl, rfl⟩

theorem move_owner {w w' : World} {c c' : Call} {io : Io} (h : Move svc w c io w' c') :
    w'.owner = w.owner :=
  (move_frame h).1

theorem move_now {w w' : World} {c c' : Call} {io : Io} (h : Move svc w c io w' c') :
    w'.now = w.now :=
  (move_frame h).2

theorem move_delivery {w w' : World} {c c' : Call} {io : Io} (h : Move svc w c io w' c') :
    c'.delivery = c.delivery ∧ c'.proc = c.proc := by
  cases h with
  | read _ =>
    simp only [readRowStep]
    split
    · exact ⟨rfl, rfl⟩
    · split_ifs <;> exact ⟨rfl, rfl⟩
  | find d _ =>
    simp only [readWebhookStep]
    split
    · exact ⟨rfl, rfl⟩
    · split_ifs <;> exact ⟨rfl, rfl⟩
  | ask a ms _ =>
    simp only [askStep]
    split_ifs
    · exact ⟨rfl, rfl⟩
    · split <;> exact ⟨rfl, rfl⟩
  | disable a _ =>
    simp only [disableStep]
    split_ifs <;> exact ⟨rfl, rfl⟩
  | _ => exact ⟨rfl, rfl⟩

theorem askStep_rows (ms : ℕ) (w : World) (c : Call) (a : Attempt) :
    (askStep svc ms w c a).1.deliveries = w.deliveries := by
  simp only [askStep]
  split_ifs
  · rfl
  · split <;> rfl

theorem disableStep_rows (w : World) (c : Call) (a : Attempt) :
    (disableStep w c a).1.deliveries = w.deliveries := by
  simp only [disableStep]
  split_ifs <;> rfl

theorem askStep_sends (ms : ℕ) (w : World) (c : Call) (a : Attempt) :
    (askStep svc ms w c a).1.posts = w.posts ∧ (askStep svc ms w c a).1.resent = w.resent := by
  simp only [askStep]
  split_ifs
  · exact ⟨rfl, rfl⟩
  · split <;> exact ⟨rfl, rfl⟩

theorem disableStep_sends (w : World) (c : Call) (a : Attempt) :
    (disableStep w c a).1.posts = w.posts ∧ (disableStep w c a).1.resent = w.resent := by
  simp only [disableStep]
  split_ifs <;> exact ⟨rfl, rfl⟩

theorem row_move {w w' : World} {c c' : Call} {io : Io} (h : Move svc w c io w' c')
    (id : DeliveryId) (d' : Delivery) (hd' : w'.deliveries id = some d') :
    ∃ d, w.deliveries id = some d ∧ (d' = d ∨
      (∃ a, c.pc = .claim a ∧ c.delivery = id ∧ d.attempts = a.delivery.attempts ∧
        d.status = .pending ∧ d' = claimRow a d) ∨
      (∃ o, c.pc = .settle o ∧ io = .ok ∧ id = c.delivery ∧ d' = o.apply d) ∨
      ∃ a b, c.pc = .failQueue a b ∧ io = .ok ∧ d' = failPending a.webhookId d) := by
  cases h with
  | ask a ms _ =>
    rw [askStep_rows] at hd'
    exact ⟨d', hd', Or.inl rfl⟩
  | claim a d hpc hd ha hs =>
    rcases row_some _ _ _ _ _ hd' with ⟨_, h⟩ | ⟨rfl, d₀, h₀, rfl⟩
    · exact ⟨d', h, Or.inl rfl⟩
    · rw [hd, Option.some.injEq] at h₀
      subst h₀
      exact ⟨d, hd, Or.inr (Or.inl ⟨a, hpc, rfl, ha, hs, rfl⟩)⟩
  | settle o hpc _ =>
    rcases row_some _ _ _ _ _ hd' with ⟨_, h⟩ | ⟨rfl, d₀, h₀, rfl⟩
    · exact ⟨d', h, Or.inl rfl⟩
    · exact ⟨d₀, h₀, Or.inr (Or.inr (Or.inl ⟨o, hpc, rfl, rfl, rfl⟩))⟩
  | disable a _ =>
    rw [disableStep_rows] at hd'
    exact ⟨d', hd', Or.inl rfl⟩
  | sweep a b hpc =>
    obtain ⟨d₀, h₀, rfl⟩ := Option.map_eq_some_iff.mp hd'
    exact ⟨d₀, h₀, Or.inr (Or.inr (Or.inr ⟨a, b, hpc, rfl, rfl⟩))⟩
  | _ => exact ⟨d', hd', Or.inl rfl⟩

theorem move_row {w w' : World} {c c' : Call} {io : Io} (h : Move svc w c io w' c')
    (id : DeliveryId) (d' : Delivery) (hd' : w'.deliveries id = some d') :
    ∃ d, w.deliveries id = some d ∧ d'.webhookId = d.webhookId ∧ d.attempts ≤ d'.attempts := by
  obtain ⟨d, hd, hcases⟩ := row_move h id d' hd'
  apply Exists.intro d
  constructor
  · exact hd
  rcases hcases with rfl | ⟨a, _, _, ha, _, rfl⟩ | ⟨o, _, _, _, rfl⟩ | ⟨a, b, _, _, rfl⟩
  · exact ⟨rfl, le_rfl⟩
  · constructor
    · rfl
    · simp only [claimRow, Attempt.attempts]
      omega
  · simp
  · simp

def isTarget : Pc → Bool
  | .target _ => true
  | _ => false

def isDone : Pc → Bool
  | .done => true
  | _ => false

def claiming : Pc → Option Attempt
  | .claim a => some a
  | _ => none

def settling : Pc → Option Outcome
  | .settle o => some o
  | _ => none

def sweeping : Pc → Option Attempt
  | .failQueue a _ => some a
  | _ => none

def postsOf (w : World) (id : DeliveryId) : List Post := w.posts.filter (·.delivery = id)

def resentOf (w : World) (id : DeliveryId) : List (DeliveryId × JsText.Text) :=
  w.resent.filter (·.1 = id)

theorem target_move {w w' : World} {c c' : Call} {io : Io} (h : Move svc w c io w' c')
    (ht : isTarget c'.pc = true) :
    ∃ a d, c.pc = .claim a ∧ io = .ok ∧ w.deliveries c.delivery = some d ∧
      d.attempts = a.delivery.attempts ∧ d.status = .pending ∧
      w' = w.row c.delivery (claimRow a) ∧ c' = c.to (.target a) := by
  cases h with
  | claim a d hpc hd ha hs => exact ⟨a, d, hpc, rfl, hd, ha, hs, rfl, rfl⟩
  | stop _ | lose _ _ _ | refuse _ _ _ | throw _ _ | audit _ _ | post _ _
  | redirect _ _ _ _ _ => cases ht
  | read _ =>
    simp only [readRowStep] at ht
    split at ht
    · cases ht
    · split_ifs at ht <;> cases ht
  | find d _ =>
    simp only [readWebhookStep] at ht
    split at ht
    · cases ht
    · split_ifs at ht <;> cases ht
  | ask a ms _ =>
    simp only [askStep] at ht
    split_ifs at ht
    · cases ht
    · split at ht <;> cases ht
  | answer a hops ans _ =>
    simp only [answerStep, to_pc] at ht
    cases hcon : conclude svc w.now a ans <;> simp [hcon, isTarget] at ht
  | settle o _ _ => cases o <;> cases ht
  | disable a _ =>
    simp only [disableStep] at ht
    split_ifs at ht <;> cases ht
  | sweep a b _ => cases b <;> cases ht

theorem status_move {w w' : World} {c c' : Call} {io : Io} (h : Move svc w c io w' c')
    (id : DeliveryId) (d' : Delivery) (hd' : w'.deliveries id = some d') :
    (∃ d, w.deliveries id = some d ∧ d'.status = d.status) ∨
    (∃ a d, c.pc = .claim a ∧ c.delivery = id ∧ w.deliveries id = some d ∧
      d.status = .pending ∧ d'.status = .pending) ∨
    (∃ o d, c.pc = .settle o ∧ io = .ok ∧ id = c.delivery ∧ w.deliveries id = some d ∧
      d'.status = o.status) ∨
    (∃ a b d, c.pc = .failQueue a b ∧ io = .ok ∧ w.deliveries id = some d ∧
      d.webhookId = a.webhookId ∧ d.status = .pending ∧ d'.status = .failed) := by
  obtain ⟨d, hd, hcases⟩ := row_move h id d' hd'
  rcases hcases with rfl | ⟨a, hpc, hid, _, hs, rfl⟩ | ⟨o, hpc, hio, hid, rfl⟩ |
    ⟨a, b, hpc, hio, rfl⟩
  · exact Or.inl ⟨d', hd, rfl⟩
  · exact Or.inr (Or.inl ⟨a, d, hpc, hid, hd, hs, rfl⟩)
  · exact Or.inr (Or.inr (Or.inl ⟨o, d, hpc, hio, hid, hd, apply_status o d⟩))
  · rcases failPending_status a.webhookId d with hsame | ⟨hs, hw, hfailed⟩
    · exact Or.inl ⟨d, hd, hsame⟩
    · exact Or.inr (Or.inr (Or.inr ⟨a, b, d, hpc, hio, hd, hw, hs, hfailed⟩))

theorem posts_move {w w' : World} {c c' : Call} {io : Io} (h : Move svc w c io w' c') :
    w'.posts = w.posts ∨ ∃ a, io = .verdict .safe ∧ c.pc = .target a ∧
      c' = c.to (.fetching a 0) ∧ w'.posts = postOf svc w.now c.delivery a::w.posts := by
  cases h with
  | post a hpc => exact Or.inr ⟨a, rfl, hpc, rfl, rfl⟩
  | ask a ms _ => exact Or.inl (askStep_sends ms w c a).1
  | disable a _ => exact Or.inl (disableStep_sends w c a).1
  | _ => exact Or.inl rfl

theorem mem_posts_move {w w' : World} {c c' : Call} {io : Io} (h : Move svc w c io w' c')
    (t : Post) (ht : t ∈ w'.posts) : t ∈ w.posts ∨
      ∃ a, io = .verdict .safe ∧ c.pc = .target a ∧ t = postOf svc w.now c.delivery a := by
  rcases posts_move h with hp | ⟨a, hio, hpc, _, hp⟩
  · rw [hp] at ht
    exact Or.inl ht
  · rw [hp] at ht
    rcases List.mem_cons.mp ht with ht | ht
    · exact Or.inr ⟨a, hio, hpc, ht⟩
    · exact Or.inl ht

theorem resent_move {w w' : World} {c c' : Call} {io : Io} (h : Move svc w c io w' c') :
    w'.resent = w.resent ∨ ∃ a hops url, io = .redirect url ∧ c.pc = .fetching a hops ∧
      w'.resent = (c.delivery, url)::w.resent := by
  cases h with
  | redirect a hops url hpc _ => exact Or.inr ⟨a, hops, url, rfl, hpc, rfl⟩
  | ask a ms _ => exact Or.inl (askStep_sends ms w c a).2
  | disable a _ => exact Or.inl (disableStep_sends w c a).2
  | _ => exact Or.inl rfl

theorem postsOf_move {w w' : World} {c c' : Call} {io : Io} (h : Move svc w c io w' c')
    (id : DeliveryId) (hq : c.delivery = id → isTarget c.pc = false) :
    postsOf w' id = postsOf w id := by
  rcases posts_move h with hp | ⟨a, _, hpc, _, hp⟩
  · rw [postsOf, postsOf, hp]
  · have hne : c.delivery ≠ id := by
      intro hid
      have := hq hid
      simp [hpc, isTarget] at this
    simp [postsOf, hp, postOf, hne]

def Outcome.attempt : Outcome → Option Attempt
  | .inactive => none
  | .deferred _ _ => none
  | .unsafeTarget a _ => some a
  | .success a _ _ => some a
  | .gone a _ => some a
  | .exhausted a _ _ => some a
  | .retry a _ _ _ => some a

/-- Only a write whose values cannot be stored fails. -/
def Reliable : Event → State → Prop
  | .act i .fault, p => At p i (fun c => (settling c.pc).map (·.storable) = some false)
  | _, _ => True

instance : ∀ (l : Event) (p : State), Decidable (Reliable l p)
  | .act i .fault, p => inferInstanceAs (Decidable (At p i _))
  | .env _, _ | .act _ .ok, _ | .act _ (.jitter _), _ | .act _ (.verdict _), _
  | .act _ (.redirect _), _ | .act _ (.answer _), _ => isTrue trivial

def snapshot : Pc → Option Delivery
  | .readRow => none
  | .readWebhook d => some d
  | .ask a => some a.delivery
  | .claim a => some a.delivery
  | .target a => some a.delivery
  | .fetching a _ => some a.delivery
  | .settle o => (Outcome.attempt o).map (·.delivery)
  | .disable a => some a.delivery
  | .failQueue a _ => some a.delivery
  | .audit a => some a.delivery
  | .done => none

theorem conclude_attempt (now : Instant) (a : Attempt) (ans : Answer) (o : Outcome)
    (h : conclude svc now a ans = some o) : Outcome.attempt o = some a := by
  simp only [conclude] at h
  split_ifs at h
  · rw [Option.some.injEq] at h
    subst h
    rfl
  · rw [Option.some.injEq] at h
    subst h
    rfl
  · rw [Option.some.injEq] at h
    subst h
    rfl
  · obtain ⟨t, _, rfl⟩ := Option.map_eq_some_iff.mp h
    rfl

theorem snapshot_move {w w' : World} {c c' : Call} {io : Io} (h : Move svc w c io w' c')
    (d : Delivery) (hd : snapshot c'.pc = some d) :
    snapshot c.pc = some d ∨ w.deliveries c.delivery = some d := by
  cases h with
  | stop _ | lose _ _ _ | throw _ _ | audit _ _ => cases hd
  | read _ =>
    right
    simp only [readRowStep] at hd
    split at hd
    · cases hd
    · rename_i r hr
      split_ifs at hd
      · cases hd
      · rw [hr]
        exact hd
  | find r hpc =>
    left
    rw [hpc]
    simp only [readWebhookStep] at hd
    split at hd
    · cases hd
    · split_ifs at hd
      · exact hd
      · cases hd
  | ask a ms hpc =>
    left
    rw [hpc]
    simp only [askStep] at hd
    split_ifs at hd
    · exact hd
    · split at hd <;> cases hd
  | claim a r hpc _ _ _ | post a hpc | refuse a m hpc | redirect a hops url hpc _ =>
    left
    rw [hpc]
    exact hd
  | answer a hops ans hpc =>
    left
    rw [hpc]
    simp only [answerStep, to_pc] at hd
    cases hcon : conclude svc w.now a ans with
    | none => simp [hcon, snapshot] at hd
    | some o => simpa [hcon, snapshot, conclude_attempt _ _ _ _ hcon] using hd
  | settle o hpc _ =>
    left
    rw [hpc]
    cases o <;> first | exact hd | cases hd
  | disable a hpc =>
    left
    rw [hpc]
    simp only [disableStep] at hd
    split_ifs at hd <;> exact hd
  | sweep a b hpc =>
    left
    rw [hpc]
    cases b
    · cases hd
    · exact hd

/-- A call that has read its row works on an id that was enqueued, and the
row it keeps is one of that id. -/
def Known (w : World) (c : Call) : Prop :=
  c.pc = .readRow ∨ c.pc = .done ∨
  (w.owner c.delivery ≠ none ∧ ∀ d, snapshot c.pc = some d → w.owner c.delivery = some d.webhookId)

def Rows (w : World) : Prop :=
  ∀ id d, w.deliveries id = some d → w.owner id = some d.webhookId

abbrev Owned (p : State) : Prop := Holds Rows Known (fun _ _ _ => True) p

theorem rows_move {w w' : World} {c c' : Call} {io : Io} (h : Move svc w c io w' c')
    (hr : Rows w) : Rows w' := by
  intro id d' hd'
  obtain ⟨d, hd, hw, _⟩ := move_row h id d' hd'
  rw [move_owner h, hw]
  exact hr id d hd

theorem known_move {w w' : World} {c c' : Call} {io : Io} (h : Move svc w c io w' c')
    (hr : Rows w) (hk : Known w c) : Known w' c' := by
  have hsnap : ∀ d, snapshot c'.pc = some d → w.owner c.delivery = some d.webhookId := by
    intro d hd
    rcases snapshot_move h d hd with hs | hs
    · rcases hk with hk | hk | hk
      · simp [hk, snapshot] at hs
      · simp [hk, snapshot] at hs
      · exact hk.2 d hs
    · exact hr _ d hs
  unfold Known
  rw [move_owner h, (move_delivery h).1]
  cases h with
  | read _ =>
    simp only [readRowStep] at hsnap ⊢
    cases hd : w.deliveries c.delivery with
    | none => exact Or.inr (Or.inl rfl)
    | some d =>
      simp only [hd] at hsnap
      exact Or.inr (Or.inr ⟨by simp [hr _ _ hd], hsnap⟩)
  | stop _ | lose _ _ _ | throw _ _ | audit _ _ => exact Or.inr (Or.inl rfl)
  | find d hpc | ask a ms hpc | claim a d hpc _ _ _ | post a hpc | refuse a m hpc
  | redirect a hops url hpc _ | answer a hops ans hpc | settle o hpc _ | disable a hpc
  | sweep a b hpc =>
    rcases hk with h | h | h
    · simp [h] at hpc
    · simp [h] at hpc
    · exact Or.inr (Or.inr ⟨h.1, hsnap⟩)

theorem owned_step (svc : Service) (l : Event) (p q : State) (hi : Owned p)
    (hs : next svc l p = some q) : Owned q := by
  cases l with
  | env e =>
    obtain ⟨w, o, he, rfl⟩ := env_next svc e p q hs
    apply holds_env p w o ?_ ?_ ?_ (by simp) (by simp)
    · intro id d hd
      rcases he.rows id d hd with h | ⟨_, h, _⟩
      · exact he.owner id _ (hi.world id d h)
      · exact h
    · intro j u hj
      rcases hi.thread j u hj with h | h | h
      · exact Or.inl h
      · exact Or.inr (Or.inl h)
      · obtain ⟨k, hk⟩ := Option.ne_none_iff_exists'.mp h.1
        refine Or.inr (Or.inr ⟨by simp [he.owner _ k hk], ?_⟩)
        intro d hd
        exact he.owner _ _ (h.2 d hd)
    · intro t ht
      exact Or.inl (he.started t ht)
  | act i io =>
    obtain ⟨c, w, c', hc, hm, rfl⟩ := act_next svc i io p q hs
    apply holds_act p i c' w (rows_move hm hi.world)
      (known_move hm hi.world (hi.thread i c hc)) ?_ (by simp) (by simp)
    intro j u _ hj
    have hu := hi.thread j u hj
    unfold Known at hu ⊢
    rwa [move_owner hm]

theorem owned_start (now : Instant) : Owned (start now) :=
  holds_empty _ (by intro id d h; simp [initial] at h)

theorem owned_run (svc : Service) (ls : List Event) (p q : State) (hi : Owned p)
    (hr : run (next svc) ls p = some q) : Owned q :=
  run_invariant _ (fun _ _ => True) Owned (fun l s t _ => owned_step svc l s t) ls p q
    (guarded_true _ ls p) hi hr

end ControlPlane.DeliverySteps
