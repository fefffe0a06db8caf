import ControlPlane.DeliverySteps

/-!
# Finality of delivered and failed rows

Only the claim and the sweep after a 410 answer test the status of the row
they write. The other writes go to the row by its id, whatever has become of
it since the call read it. So a terminal row stays as it is when no call that
still holds it is refused, redirected or answered otherwise afterwards.
-/

set_option autoImplicit false

namespace ControlPlane.DeliveryFinality
open ControlPlane.JsText ControlPlane.JsValue ControlPlane.CircuitBreaker
open ControlPlane.RunMachine ControlPlane.ThreadPool ControlPlane.DeliveryMachine
open ControlPlane.DeliverySteps

variable (svc : Service)

def Final (p q : State) : Prop :=
  ∀ id d, p.world.deliveries id = some d → d.status ≠ .pending →
    (∀ d', q.world.deliveries id = some d' → d'.status = d.status) ∧
    postsOf q.world id = postsOf p.world id ∧ resentOf q.world id = resentOf p.world id

/-- The call is not between its claim and its POST, and if it has decided what
to write, then on this status. -/
def agrees (s : DeliveryStatus) : Pc → Bool
  | .target _ => false
  | .settle o => o.status = s
  | _ => true

def QuietSettle (p : State) (i : ℕ) (c : Call) : Prop :=
  ∀ o ∈ settling c.pc, o.status ≠ .pending → ∀ d ∈ p.world.deliveries c.delivery,
    d.status = .pending →
      Others p i (fun u => u.delivery = c.delivery → agrees o.status u.pc = true)

def QuietSweep (p : State) (i : ℕ) (c : Call) : Prop :=
  ∀ a ∈ sweeping c.pc, Others p i (fun u => ∀ d ∈ p.world.deliveries u.delivery,
    d.webhookId = a.webhookId → d.status = .pending → agrees .failed u.pc = true)

def finding : Pc → Option Delivery
  | .readWebhook d => some d
  | _ => none

def asking : Pc → Option Attempt
  | .ask a => some a
  | _ => none

abbrev Overtaken (w : World) (c : Call) (P : DeliveryStatus → Prop) : Prop :=
  ∀ r ∈ w.deliveries c.delivery, r.status ≠ .pending → P r.status

/-- When a call makes a row terminal, no other call on it stands between its
claim and its POST or has decided on another status. A call that is overtaken so
does not find its webhook switched off after the row was delivered, is not
refused by the breaker, and its POST is not redirected and is answered with what
leads to the same status. -/
def Orderly : Event → State → Prop
  | .act i .ok, p => At p i (fun c => QuietSettle p i c ∧ QuietSweep p i c ∧
      ∀ d ∈ finding c.pc, Overtaken p.world c (fun s => s = .delivered →
        isActive p.world d.webhookId = true))
  | .act i (.jitter _), p => At p i (fun c => ∀ a ∈ asking c.pc, Overtaken p.world c (fun _ =>
      (shouldAttempt svc.breaker p.world.now (p.world.breakers c.proc a.webhookId)).1 = true))
  | .act i (.redirect _), p => At p i (fun c =>
      (p.world.deliveries c.delivery).map (·.status) = some .pending)
  | .act i (.answer ans), p => At p i (fun c => ∀ a ∈ fetchingAttempt c.pc,
      Overtaken p.world c (fun s => ∀ o ∈ conclude svc p.world.now a ans, o.status = s))
  | _, _ => True

instance (p : State) (i : ℕ) (c : Call) : Decidable (QuietSettle p i c) := by
  unfold QuietSettle
  infer_instance

instance (p : State) (i : ℕ) (c : Call) : Decidable (QuietSweep p i c) := by
  unfold QuietSweep
  infer_instance

instance : ∀ (l : Event) (p : State), Decidable (Orderly svc l p)
  | .act i .ok, p => inferInstanceAs (Decidable (At p i _))
  | .act i (.jitter _), p => inferInstanceAs (Decidable (At p i _))
  | .act i (.redirect _), p => inferInstanceAs (Decidable (At p i _))
  | .act i (.answer _), p => inferInstanceAs (Decidable (At p i _))
  | .env _, _ | .act _ .fault, _ | .act _ (.verdict _), _ => isTrue trivial

variable {svc}

def Agreed (w : World) (c : Call) : Prop := Overtaken w c (fun s => agrees s c.pc = true)

abbrev Inv (p : State) : Prop := Holds (fun _ => True) Agreed (fun _ _ _ => True) p

section Act
variable {i : ℕ} {io : Io} {p : State} {c c' : Call} {w : World}

theorem agreed_ask (ms : ℕ) (a : Attempt) (hpc : c.pc = .ask a)
    (hok : Orderly svc (.act i (.jitter ms)) p) (hc : p.threads[i]? = some c) :
    Agreed (askStep svc ms p.world c a).1 (askStep svc ms p.world c a).2 := by
  intro r hr hs
  have hid : (askStep svc ms p.world c a).2.delivery = c.delivery :=
    (move_delivery (Move.ask a ms hpc)).1
  rw [askStep_rows, hid] at hr
  have hgo := hok c hc a (by simp [hpc, asking]) r hr hs
  simp [askStep, hgo, agrees]

theorem agreed_answer (a : Attempt) (hops : ℕ) (ans : Answer) (hpc : c.pc = .fetching a hops)
    (hok : Orderly svc (.act i (.answer ans)) p) (hc : p.threads[i]? = some c) :
    Agreed (answerStep svc ans p.world c a).1 (answerStep svc ans p.world c a).2 := by
  intro r hr hs
  have hsame := hok c hc a (by simp [hpc, fetchingAttempt]) r hr hs
  simp only [answerStep, to_pc]
  cases ho : conclude svc p.world.now a ans with
  | none => rfl
  | some o => simpa [agrees] using hsame o ho

theorem agreed_find (d : Delivery) (hpc : c.pc = .readWebhook d)
    (hok : Orderly svc (.act i .ok) p) (hc : p.threads[i]? = some c) :
    Agreed p.world (readWebhookStep p.world c d) := by
  intro r hr hs
  have hmove : Move svc p.world c .ok p.world (readWebhookStep p.world c d) := .find d hpc
  have hid := (move_delivery hmove).1
  rw [hid] at hr
  have hactive := (hok c hc).2.2 d (by simp [hpc, finding]) r hr hs
  have hfailed : isActive p.world d.webhookId = false → r.status = .failed := by
    intro hoff
    cases hst : r.status with
    | pending => exact (hs hst).elim
    | delivered => simp [hactive hst] at hoff
    | failed => rfl
  simp only [readWebhookStep]
  cases hh : p.world.webhooks d.webhookId with
  | none => simp [agrees, Outcome.status, hfailed (by simp [isActive, hh])]
  | some h =>
    by_cases ha : h.active = true
    · simp [ha, agrees]
    · simp [ha, agrees, Outcome.status, hfailed (by simp [isActive, hh, ha])]

theorem agreed_self (hok : Orderly svc (.act i io) p) (hc : p.threads[i]? = some c)
    (hi : Agreed p.world c) (hm : Move svc p.world c io w c') : Agreed w c' := by
  cases hm with
  | find d hpc => exact agreed_find d hpc hok hc
  | ask a ms hpc => exact agreed_ask ms a hpc hok hc
  | answer a hops ans hpc => exact agreed_answer a hops ans hpc hok hc
  | claim a d hpc hd _ _ =>
    intro r hr hs
    rw [to_delivery, row_same, hd] at hr
    obtain rfl := Option.some.inj hr
    exact (hs rfl).elim
  | refuse a message hpc =>
    intro r hr hs
    have := hi r hr hs
    simp [hpc, agrees] at this
  | read _ =>
    intro r _ _
    simp only [readRowStep]
    split
    · rfl
    · split_ifs <;> rfl
  | settle o _ _ =>
    intro r _ _
    cases o <;> rfl
  | disable a _ =>
    intro r _ _
    simp only [disableStep]
    split_ifs <;> rfl
  | sweep a b _ =>
    intro r _ _
    cases b <;> rfl
  | stop _ | lose _ _ _ | post _ _ | throw _ _ | redirect _ _ _ _ _ | audit _ _ =>
    exact fun _ _ _ => rfl

theorem agreed_other (j : ℕ) (u : Call) (hj : j ≠ i) (hu : p.threads[j]? = some u)
    (hok : Orderly svc (.act i io) p) (hc : p.threads[i]? = some c)
    (hi : Agreed p.world c) (ha : Agreed p.world u) (hm : Move svc p.world c io w c') :
    Agreed w u := by
  intro r hr hs
  rcases status_move hm _ r hr with ⟨d, hd, he⟩ | ⟨_, _, _, _, _, _, he⟩ |
    ⟨o, d, hpc, rfl, hid, hd, he⟩ | ⟨a, b, d, hpc, rfl, hd, hw, hp, he⟩
  · rw [he] at hs ⊢
    exact ha d hd hs
  · exact (hs he).elim
  · rw [he] at hs ⊢
    by_cases hp : d.status = .pending
    · exact others_get p i j _ u ((hok c hc).1 o (by simp [hpc, settling]) hs d (hid ▸ hd) hp) hj
        hu hid
    · have hown : o.status = d.status := by simpa [hpc, agrees] using hi d (hid ▸ hd) hp
      rw [hown]
      exact ha d hd hp
  · rw [he]
    exact others_get p i j _ u ((hok c hc).2.1 a (by simp [hpc, sweeping])) hj hu d hd hw hp

end Act

theorem act_inv (svc : Service) (i : ℕ) (io : Io) (p q : State) (hok : Orderly svc (.act i io) p)
    (hi : Inv p) (hs : next svc (.act i io) p = some q) : Inv q := by
  obtain ⟨c, w, c', hc, hm, rfl⟩ := act_next svc i io p q hs
  have hown := hi.thread i c hc
  apply holds_act p i c' w trivial (agreed_self hok hc hown hm) ?_ (by simp) (by simp)
  intro j u hj hu
  exact agreed_other j u hj hu hok hc hown (hi.thread j u hu) hm

theorem env_inv (svc : Service) (e : Env) (p q : State) (hi : Inv p)
    (hs : next svc (.env e) p = some q) : Inv q := by
  obtain ⟨w, o, he, rfl⟩ := env_next svc e p q hs
  apply holds_env p w o trivial ?_ ?_ (by simp) (by simp)
  · intro j u hu r hr hst
    rcases he.rows _ r hr with h | ⟨_, _, h, _⟩
    · exact hi.thread j u hu r h hst
    · exact (hst h).elim
  · intro t ht r _ _
    rw [he.started t ht]
    rfl

theorem step_inv (svc : Service) (l : Event) (p q : State) (hok : Orderly svc l p) (hi : Inv p)
    (hs : next svc l p = some q) : Inv q := by
  cases l with
  | env e => exact env_inv svc e p q hi hs
  | act i io => exact act_inv svc i io p q hok hi hs

structure Ended (id : DeliveryId) (s : DeliveryStatus) (posts : List Post)
    (resent : List (DeliveryId × Text)) (p : State) : Prop where
  owned : Owned p
  agreed : Inv p
  known : p.world.owner id ≠ none
  status : ∀ d, p.world.deliveries id = some d → d.status = s
  quiet : ∀ (j : ℕ) (u : Call), p.threads[j]? = some u → u.delivery = id → isTarget u.pc = false
  posts : postsOf p.world id = posts
  resent : resentOf p.world id = resent

section Ended
variable {id : DeliveryId} {s : DeliveryStatus} {posts : List Post}
  {resent : List (DeliveryId × Text)} {p q : State}

theorem ended_env (svc : Service) (e : Env) (hi : Ended id s posts resent p)
    (hs : next svc (.env e) p = some q) : Ended id s posts resent q := by
  have hown := owned_step svc _ p q hi.owned hs
  have hinv := env_inv svc e p q hi.agreed hs
  obtain ⟨w, o, he, rfl⟩ := env_next svc e p q hs
  obtain ⟨k, hk⟩ := Option.ne_none_iff_exists'.mp hi.known
  refine ⟨hown, hinv, by simp [he.owner id k hk], ?_, ?_, ?_, ?_⟩
  · intro d hd
    rcases he.rows id d hd with h | ⟨h, _⟩
    · exact hi.status d h
    · exact (hi.known h).elim
  · intro j u hu hid
    rcases append_get _ _ _ _ hu with h | ⟨_, h⟩
    · exact hi.quiet j u h hid
    · simp [he.started u h, isTarget]
  · rw [← hi.posts, postsOf, postsOf, he.posts]
  · rw [← hi.resent, resentOf, resentOf, he.resent]

theorem ended_status (hterm : s ≠ .pending) (hi : Ended id s posts resent p) {i : ℕ} {io : Io}
    {c c' : Call} {w : World} (hc : p.threads[i]? = some c) (hm : Move svc p.world c io w c')
    (d' : Delivery) (hd' : w.deliveries id = some d') : d'.status = s := by
  rcases status_move hm id d' hd' with ⟨d, hd, he⟩ | ⟨_, d, _, _, hd, hp, _⟩ |
    ⟨o, d, hpc, rfl, hid, hd, he⟩ | ⟨a, b, d, _, _, hd, _, hp, _⟩
  · rw [he, hi.status d hd]
  · exact (hterm ((hi.status d hd).symm.trans hp)).elim
  · have hst := hi.status d hd
    have hagree := hi.agreed.thread i c hc d (hid ▸ hd) (hst ▸ hterm)
    rw [he, ← hst]
    simpa [hpc, agrees] using hagree
  · exact (hterm ((hi.status d hd).symm.trans hp)).elim

theorem ended_resent (hterm : s ≠ .pending) (hi : Ended id s posts resent p) {i : ℕ} {io : Io}
    {c c' : Call} {w : World} (hok : Orderly svc (.act i io) p) (hc : p.threads[i]? = some c)
    (hm : Move svc p.world c io w c') : resentOf w id = resent := by
  rw [← hi.resent]
  rcases resent_move hm with hr | ⟨a, hops, url, rfl, _, hr⟩
  · rw [resentOf, resentOf, hr]
  · have hne : c.delivery ≠ id := by
      intro hid
      obtain ⟨d, hd, hp⟩ := Option.map_eq_some_iff.mp (hok c hc)
      exact hterm ((hi.status d (hid ▸ hd)).symm.trans hp)
    simp [resentOf, hr, hne]

theorem ended_act (svc : Service) (hterm : s ≠ .pending) (i : ℕ) (io : Io)
    (hok : Orderly svc (.act i io) p) (hi : Ended id s posts resent p)
    (hs : next svc (.act i io) p = some q) : Ended id s posts resent q := by
  have hown := owned_step svc _ p q hi.owned hs
  have hinv := act_inv svc i io p q hok hi.agreed hs
  obtain ⟨c, w, c', hc, hm, rfl⟩ := act_next svc i io p q hs
  refine ⟨hown, hinv, by simpa only [move_owner hm] using hi.known,
    ended_status hterm hi hc hm, ?_, ?_, ended_resent hterm hi hok hc hm⟩
  · intro j u hu hid
    rcases set_get _ _ _ _ _ hu with ⟨rfl, rfl⟩ | ⟨_, hu⟩
    · rw [(move_delivery hm).1] at hid
      cases ht : isTarget u.pc with
      | false => rfl
      | true =>
        obtain ⟨a, d, _, _, hd, _, hp, _⟩ := target_move hm ht
        exact (hterm ((hi.status d (hid ▸ hd)).symm.trans hp)).elim
    · exact hi.quiet j u hu hid
  · rw [← hi.posts]
    exact postsOf_move hm id (hi.quiet i c hc)

theorem ended_step (svc : Service) (hterm : s ≠ .pending) (l : Event) (p q : State)
    (hok : Orderly svc l p) (hi : Ended id s posts resent p) (hs : next svc l p = some q) :
    Ended id s posts resent q := by
  cases l with
  | env e => exact ended_env svc e hi hs
  | act i io => exact ended_act svc hterm i io hok hi hs

end Ended

theorem orderly_inv (svc : Service) (now : Instant) (ls : List Event) (p : State)
    (hg : Guarded (next svc) (Orderly svc) ls (start now))
    (hr : run (next svc) ls (start now) = some p) : Inv p :=
  run_invariant _ (Orderly svc) Inv (step_inv svc) ls _ p hg (holds_empty _ trivial) hr

def delivered : List Event :=
  [created, enqueued [1], .act 0 .ok, .env (.reap 1 [1]), .act 1 .ok]++(posting 0).tail++
    [answered 0 200 [], .act 0 .ok]

def overtaken : List Event := [.act 1 .ok, .act 1 (.jitter 0), .act 1 .ok]

end ControlPlane.DeliveryFinality
