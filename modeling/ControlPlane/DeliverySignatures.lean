import ControlPlane.DeliverySteps

/-!
# Two signatures of one request

The body and its signature are fixed when a delivery is enqueued, the
timestamped signature is made by each attempt. What was fixed stays with the
row, with every call that has read it and with every POST of its id; the
secret of the timestamped signature is the one the attempt has read. A row
without a stored pair is signed by the attempt alone.
-/

set_option autoImplicit false

namespace ControlPlane.DeliverySignatures
open ControlPlane.JsText ControlPlane.JsValue ControlPlane.RunMachine ControlPlane.ThreadPool
open ControlPlane.DeliveryMachine ControlPlane.DeliverySteps

variable (svc : Service)

/-- The stored body and signature, when both are present. -/
def stored (d : Delivery) : Option (Text × Text) :=
  match d.body, d.signature with
  | some (u::body), some (v::signature) => some (u::body, v::signature)
  | _, _ => none

theorem postBody_stored (id : DeliveryId) (a : Attempt) (b : Text × Text)
    (h : stored a.delivery = some b) : postBody svc id a = b := by
  simp only [stored] at h
  split at h
  · next hb hs =>
    rw [postBody, hb, hs]
    exact Option.some.inj h
  · cases h

theorem postBody_unstored (id : DeliveryId) (a : Attempt) (h : stored a.delivery = none) :
    (postBody svc id a).2 = svc.hmac a.webhook.secret (postBody svc id a).1 := by
  simp only [stored] at h
  split at h
  · cases h
  · next hne =>
    rw [postBody]
    split
    · next u body v signature hb hs => exact absurd hs (hne u body v signature hb)
    · rfl

@[simp] theorem stored_apply (o : Outcome) (d : Delivery) : stored (o.apply d) = stored d := by
  cases o <;> rfl

@[simp] theorem stored_claimRow (a : Attempt) (d : Delivery) :
    stored (claimRow a d) = stored d := rfl

@[simp] theorem stored_failPending (h : WebhookId) (d : Delivery) :
    stored (failPending h d) = stored d := by
  rw [failPending]
  split_ifs <;> rfl

/-- What an enqueue has signed, and the secret its dispatch had read. -/
structure Signed where
  body : Text
  signature : Text
  secret : Text

def Signed.pair (z : Signed) : Text × Text := (z.body, z.signature)

abbrev Stamps := DeliveryId → Option Signed

def stamp (d : Delivery) (secret : Text) : Option Signed :=
  (stored d).map (fun b => ⟨b.1, b.2, secret⟩)

theorem stamp_pair (d : Delivery) (secret : Text) :
    (stamp d secret).map Signed.pair = stored d := by
  rw [stamp, Option.map_map]
  exact Option.map_id'

theorem stamp_signed (now : Instant) (id : DeliveryId) (h : WebhookId) (candidate : Webhook)
    (eventType : Text) (payload : Json) (z : Signed)
    (hz : stamp (newDelivery svc now id h candidate eventType payload) candidate.secret = some z) :
    z.signature = svc.hmac z.secret z.body ∧ z.secret = candidate.secret := by
  obtain ⟨b, hb, rfl⟩ := Option.map_eq_some_iff.mp hz
  constructor
  · simp only [stored, newDelivery] at hb
    split at hb
    · next h1 h2 =>
      rw [← Option.some.inj hb, ← Option.some.inj h1, ← Option.some.inj h2]
    · cases hb
  · rfl

structure StampedWorld (x : Stamps) (w : World) : Prop where
  owned : ∀ id z, x id = some z → w.owner id ≠ none
  signed : ∀ id z, x id = some z → z.signature = svc.hmac z.secret z.body
  rows : ∀ id d, w.deliveries id = some d → stored d = (x id).map Signed.pair
  posted : ∀ t ∈ w.posts, w.owner t.delivery ≠ none
  posts : ∀ t ∈ w.posts, ∀ z, x t.delivery = some z →
    t.body = z.body ∧ t.signature = js "sha256="++z.signature

def StampedCall (x : Stamps) (_ : World) (c : Call) : Prop :=
  ∀ d, snapshot c.pc = some d → stored d = (x c.delivery).map Signed.pair

abbrev Stamped (x : Stamps) (p : State) : Prop :=
  Holds (StampedWorld svc x) (StampedCall x) (fun _ _ _ => True) p

variable {svc}

theorem move_stored {w w' : World} {c c' : Call} {io : Io} (h : Move svc w c io w' c')
    (id : DeliveryId) (d' : Delivery) (hd' : w'.deliveries id = some d') :
    ∃ d, w.deliveries id = some d ∧ stored d' = stored d := by
  obtain ⟨d, hd, hcases⟩ := row_move h id d' hd'
  apply Exists.intro d
  constructor
  · exact hd
  rcases hcases with rfl | ⟨a, _, _, _, _, rfl⟩ | ⟨o, _, _, _, rfl⟩ | ⟨a, b, _, _, rfl⟩
  · rfl
  · exact stored_claimRow a d
  · exact stored_apply o d
  · exact stored_failPending a.webhookId d

theorem stamped_move {x : Stamps} {w w' : World} {c c' : Call} {io : Io}
    (h : Move svc w c io w' c') (hw : StampedWorld svc x w) (hc : StampedCall x w c)
    (hk : Known w c) : StampedWorld svc x w' ∧ StampedCall x w' c' := by
  have howner := move_owner h
  have hcall : StampedCall x w' c' := by
    intro d hd
    rw [(move_delivery h).1]
    rcases snapshot_move h d hd with hs | hs
    · exact hc d hs
    · exact hw.rows _ d hs
  constructor
  · constructor
    · rw [howner]
      exact hw.owned
    · exact hw.signed
    · intro id d' hd'
      obtain ⟨d, hd, hst⟩ := move_stored h id d' hd'
      rw [hst]
      exact hw.rows id d hd
    · intro t ht
      rw [howner]
      rcases mem_posts_move h t ht with ht | ⟨a, _, hpc, rfl⟩
      · exact hw.posted t ht
      · rcases hk with hk | hk | hk
        · simp [hk] at hpc
        · simp [hk] at hpc
        · exact hk.1
    · intro t ht z hz
      rcases mem_posts_move h t ht with ht | ⟨a, _, hpc, rfl⟩
      · exact hw.posts t ht z hz
      · have hst := hc a.delivery (by rw [hpc]; rfl)
        rw [show x c.delivery = some z from hz, Option.map_some] at hst
        have hb := postBody_stored svc c.delivery a _ hst
        constructor
        · show (postBody svc c.delivery a).1 = _
          rw [hb]
          rfl
        · show js "sha256="++(postBody svc c.delivery a).2 = _
          rw [hb]
          rfl
  · exact hcall

theorem env_rows (e : Env) (w w' : World) (o : Option Call) (h : env svc e w = some (w', o)) :
    (∀ id d, w'.deliveries id = some d → w.deliveries id = some d) ∨
    ∃ proc id h candidate eventType payload,
      e = .enqueue proc id h candidate eventType payload := by
  cases e with
  | enqueue proc id hook candidate eventType payload =>
    exact Or.inr ⟨proc, id, hook, candidate, eventType, payload, rfl⟩
  | deleteWebhook id =>
    left
    simp only [env, Option.some.injEq, Prod.mk.injEq] at h
    obtain ⟨rfl, _⟩ := h
    intro id' d hd
    exact (Option.filter_eq_some_iff.mp hd).1
  | purge id =>
    left
    simp only [env, Option.some.injEq, Prod.mk.injEq] at h
    obtain ⟨rfl, _⟩ := h
    intro id' d hd
    by_cases he : id' = id
    · subst he
      simp only [Function.update_self] at hd
      exact (Option.filter_eq_some_iff.mp hd).1
    · simpa [he] using hd
  | createWebhook id r =>
    left
    simp only [env] at h
    split_ifs at h
    simp only [Option.some.injEq, Prod.mk.injEq] at h
    obtain ⟨rfl, _⟩ := h
    exact fun _ _ hd => hd
  | timer t | reap p id =>
    left
    simp only [env] at h
    split_ifs at h
    simp only [Option.some.injEq, Prod.mk.injEq] at h
    obtain ⟨rfl, _⟩ := h
    exact fun _ _ hd => hd
  | tick ms | updateWebhook id p | resetBreaker p id | attempt p id =>
    left
    simp only [env, Option.some.injEq, Prod.mk.injEq] at h
    obtain ⟨rfl, _⟩ := h
    exact fun _ _ hd => hd

theorem stamped_kept {x : Stamps} {p : State} {w : World} {o : Option Call}
    (he : EnvEffect p.world w o)
    (hrows : ∀ id d, w.deliveries id = some d → p.world.deliveries id = some d)
    (hi : Stamped svc x p) : Stamped svc x ⟨w, p.threads++o.toList⟩ := by
  have howned : ∀ id, p.world.owner id ≠ none → w.owner id ≠ none := by
    intro id h
    obtain ⟨k, hk⟩ := Option.ne_none_iff_exists'.mp h
    simp [he.owner id k hk]
  apply holds_env p w o ?_ hi.thread ?_ (by simp) (by simp)
  · constructor
    · exact fun id z hz => howned id (hi.world.owned id z hz)
    · exact hi.world.signed
    · exact fun id d hd => hi.world.rows id d (hrows id d hd)
    · rw [he.posts]
      exact fun t ht => howned _ (hi.world.posted t ht)
    · rw [he.posts]
      exact hi.world.posts
  · intro c hc d hd
    rw [he.started c hc] at hd
    cases hd

theorem stampedWorld_enqueue {x : Stamps} {w : World} (id : DeliveryId) (h : WebhookId)
    (candidate : Webhook) (eventType : Text) (payload : Json) (hw : StampedWorld svc x w)
    (hfree : w.owner id = none) :
    StampedWorld svc (Function.update x id
      (stamp (newDelivery svc w.now id h candidate eventType payload) candidate.secret))
      { w with
        deliveries := Function.update w.deliveries id
          (some (newDelivery svc w.now id h candidate eventType payload))
        owner := Function.update w.owner id (some h) } := by
  have hother : ∀ t, w.owner t ≠ none → t ≠ id := by
    rintro t ht rfl
    exact ht hfree
  constructor
  · intro id' z hz
    by_cases hid : id' = id
    · simp [hid]
    · simp only [ne_eq, hid, not_false_eq_true, Function.update_of_ne] at hz ⊢
      exact hw.owned id' z hz
  · intro id' z hz
    by_cases hid : id' = id
    · subst hid
      rw [Function.update_self] at hz
      exact (stamp_signed svc _ _ _ _ _ _ z hz).1
    · rw [Function.update_of_ne hid] at hz
      exact hw.signed id' z hz
  · intro id' d hd
    by_cases hid : id' = id
    · subst hid
      simp only [Function.update_self, Option.some.injEq] at hd ⊢
      rw [stamp_pair, hd]
    · simp only [ne_eq, hid, not_false_eq_true, Function.update_of_ne] at hd ⊢
      exact hw.rows id' d hd
  · intro t ht
    have := hw.posted t ht
    simpa [hother _ this] using this
  · intro t ht z hz
    rw [Function.update_of_ne (hother _ (hw.posted t ht))] at hz
    exact hw.posts t ht z hz

theorem stamped_enqueue {x : Stamps} {p q : State} (proc : Proc) (id : DeliveryId)
    (h : WebhookId) (candidate : Webhook) (eventType : Text) (payload : Json)
    (hi : Stamped svc x p) (ho : Owned p)
    (hs : next svc (.env (.enqueue proc id h candidate eventType payload)) p = some q) :
    p.world.owner id = none ∧
    Stamped svc (Function.update x id
      (stamp (newDelivery svc p.world.now id h candidate eventType payload)
        candidate.secret)) q := by
  obtain ⟨w, o, henv, rfl⟩ := (step_env_some _ _ _ _).mp hs
  simp only [deliverySystem, env] at henv
  split_ifs at henv with hc
  simp only [Option.some.injEq, Prod.mk.injEq] at henv
  obtain ⟨rfl, rfl⟩ := henv
  have hfree := hc.1
  have hsnap : ∀ (j : ℕ) (u : Call) (d : Delivery), p.threads[j]? = some u →
      snapshot u.pc = some d → u.delivery ≠ id := by
    intro j u d hu hd
    rcases ho.thread j u hu with hk | hk | hk
    · rw [hk] at hd
      cases hd
    · rw [hk] at hd
      cases hd
    · rintro rfl
      exact hk.1 hfree
  constructor
  · exact hfree
  · apply holds_env p _ _ ?_ ?_ ?_ (by simp) (by simp)
    · exact stampedWorld_enqueue id h candidate eventType payload hi.world hfree
    · intro j u hu d hd
      rw [Function.update_of_ne (hsnap j u d hu hd)]
      exact hi.thread j u hu d hd
    · intro c hc d hd
      cases hc
      cases hd

def dispatched (id : DeliveryId) : Event → Option Text
  | .env (.enqueue _ id' _ candidate _ _) => if id' = id then some candidate.secret else none
  | _ => none

theorem stamped_step {x : Stamps} {p q : State} (l : Event) (hi : Stamped svc x p) (ho : Owned p)
    (hs : next svc l p = some q) :
    ∃ y, Stamped svc y q ∧ (∀ id z, x id = some z → y id = some z) ∧
      ∀ id z, y id = some z → x id = some z ∨ dispatched id l = some z.secret := by
  cases l with
  | act i io =>
    obtain ⟨c, w, c', hc, hm, rfl⟩ := act_next svc i io p q hs
    obtain ⟨hw, hc'⟩ := stamped_move hm hi.world (hi.thread i c hc) (ho.thread i c hc)
    apply Exists.intro x
    constructor
    · exact holds_act p i c' w hw hc' (fun j u _ hu => hi.thread j u hu) (by simp) (by simp)
    · exact ⟨fun _ _ hz => hz, fun _ _ hz => Or.inl hz⟩
  | env e =>
    obtain ⟨w, o, henv, hq⟩ := (step_env_some _ _ _ _).mp hs
    rcases env_rows e _ _ _ henv with hrows | ⟨proc, id, h, candidate, eventType, payload, rfl⟩
    · subst hq
      exact ⟨x, stamped_kept (env_effect svc e _ _ _ henv) hrows hi, fun _ _ hz => hz,
        fun _ _ hz => Or.inl hz⟩
    · obtain ⟨hfree, hq⟩ := stamped_enqueue proc id h candidate eventType payload hi ho hs
      apply Exists.intro _
      constructor
      · exact hq
      · constructor
        · intro id' z hz
          have hne : id' ≠ id := by
            rintro rfl
            exact hi.world.owned _ z hz hfree
          rw [Function.update_of_ne hne]
          exact hz
        · intro id' z hz
          by_cases hid : id' = id
          · subst hid
            rw [Function.update_self] at hz
            rw [(stamp_signed svc _ _ _ _ _ _ z hz).2]
            exact Or.inr (by simp [dispatched])
          · rw [Function.update_of_ne hid] at hz
            exact Or.inl hz

def preparing : Pc → Option Attempt
  | .ask a => some a
  | .claim a => some a
  | .target a => some a
  | _ => none

theorem preparing_snapshot (pc : Pc) (a : Attempt) (h : preparing pc = some a) :
    snapshot pc = some a.delivery := by
  cases pc <;> simp_all [preparing, snapshot]

theorem preparing_move {w w' : World} {c c' : Call} {io : Io} (h : Move svc w c io w' c')
    (a' : Attempt) (ha : preparing c'.pc = some a') :
    (∃ a, preparing c.pc = some a ∧ a'.delivery = a.delivery ∧ a'.webhook = a.webhook) ∨
    w.webhooks a'.webhookId = some a'.webhook := by
  cases h with
  | stop _ | lose _ _ _ | throw _ _ | audit _ _ | post _ _ | refuse _ _ _
  | redirect _ _ _ _ _ => cases ha
  | read _ =>
    simp only [readRowStep] at ha
    split at ha
    · cases ha
    · split_ifs at ha <;> cases ha
  | find d hpc =>
    right
    simp only [readWebhookStep] at ha
    split at ha
    · cases ha
    · next hook hw =>
      split_ifs at ha
      · cases ha
        exact hw
      · cases ha
  | ask b ms hpc =>
    left
    rw [hpc]
    simp only [askStep] at ha
    split_ifs at ha
    · cases ha
      exact ⟨b, rfl, rfl, rfl⟩
    · split at ha <;> cases ha
  | claim b r hpc _ _ _ =>
    left
    rw [hpc]
    cases ha
    exact ⟨a', rfl, rfl, rfl⟩
  | answer a hops ans hpc =>
    simp only [answerStep, to_pc] at ha
    cases hcon : conclude svc w.now a ans with
    | none => simp [hcon, preparing] at ha
    | some o => simp [hcon, preparing] at ha
  | settle o hpc _ => cases o <;> cases ha
  | disable a hpc =>
    simp only [disableStep] at ha
    split_ifs at ha <;> cases ha
  | sweep a b hpc => cases b <;> cases ha

variable (svc)

def Held (p₀ : State) (ls : List Event) (h : WebhookId) (secret : Text) : Prop :=
  ∃ before after u hook, ls = before++after ∧ run (next svc) before p₀ = some u ∧
    u.world.webhooks h = some hook ∧ hook.secret = secret

/-- Both signatures of a POST are made with one secret of its webhook, over
the bytes it sends. -/
def OneSecret (p₀ : State) (ls : List Event) (w : World) (t : Post) : Prop :=
  ∃ h secret, w.owner t.delivery = some h ∧ Held svc p₀ ls h secret ∧
    t.signature = js "sha256="++svc.hmac secret t.body ∧
    t.timestampSignature =
      js "sha256="++svc.hmac secret (js (toString t.timestamp)++js "."++t.body)

/-- A call about to post a stored pair has read the secret its dispatch had
read. -/
def sameSecret (before : List Event) (c : Call) : Bool :=
  match c.pc with
  | .target a =>
    (stored a.delivery).isNone ||
      before.all (fun l => (dispatched c.delivery l).all (· = a.webhook.secret))
  | _ => true

def Unrotated : Event → List Event × State → Prop
  | .act i (.verdict .safe), s => At s.2 i (fun c => sameSecret s.1 c = true)
  | _, _ => True

instance : ∀ (l : Event) (s : List Event × State), Decidable (Unrotated l s)
  | .act i (.verdict .safe), s => inferInstanceAs (Decidable (At s.2 i _))
  | .env _, _ | .act _ .ok, _ | .act _ .fault, _ | .act _ (.jitter _), _
  | .act _ (.verdict (.refused _)), _ | .act _ (.verdict .threw), _ | .act _ (.redirect _), _
  | .act _ (.answer _), _ => isTrue trivial

/-- The start of a history: no call and no POST yet, and in the table only
rows without a stored pair. -/
structure Opening (p : State) : Prop where
  threads : p.threads = []
  posts : p.world.posts = []
  rows : ∀ id d, p.world.deliveries id = some d →
    p.world.owner id = some d.webhookId ∧ stored d = none

/-- What a history leaves behind: the stamps of its dispatches, the webhooks
its calls have read, and POSTs under one secret. -/
structure Signing (p₀ : State) (s : List Event × State) : Prop where
  ran : run (next svc) s.1 p₀ = some s.2
  owned : Owned s.2
  stamped : ∃ x, Stamped svc x s.2 ∧
    ∀ id z, x id = some z → ∃ l ∈ s.1, dispatched id l = some z.secret
  reads : ∀ (i : ℕ) (c : Call) (a : Attempt), s.2.threads[i]? = some c → preparing c.pc = some a →
    Held svc p₀ s.1 a.webhookId a.webhook.secret
  posts : ∀ t ∈ s.2.world.posts, OneSecret svc p₀ s.1 s.2.world t

variable {svc}

theorem held_later {p₀ : State} {ls : List Event} {h : WebhookId} {secret : Text} (l : Event)
    (hh : Held svc p₀ ls h secret) : Held svc p₀ (ls++[l]) h secret := by
  obtain ⟨before, after, u, hook, rfl, hr, hu, hs⟩ := hh
  exact ⟨before, after++[l], u, hook, List.append_assoc before after [l], hr, hu, hs⟩

theorem owner_next {p q : State} {l : Event} (hs : next svc l p = some q) (id : DeliveryId)
    (h : WebhookId) (ho : p.world.owner id = some h) : q.world.owner id = some h := by
  cases l with
  | env e =>
    obtain ⟨w, o, he, rfl⟩ := env_next svc e p q hs
    exact he.owner id h ho
  | act i io =>
    obtain ⟨c, w, c', hc, hm, rfl⟩ := act_next svc i io p q hs
    show w.owner id = some h
    rw [move_owner hm, ho]

theorem opening_stamped {p : State} (h : Opening p) : Owned p ∧ Stamped svc (fun _ => none) p := by
  obtain ⟨w, ts⟩ := p
  obtain rfl : ts = [] := h.threads
  constructor
  · exact holds_empty w (fun id d hd => (h.rows id d hd).1)
  · apply holds_empty
    constructor
    · simp
    · simp
    · exact fun id d hd => (h.rows id d hd).2
    · rw [show w.posts = [] from h.posts]
      simp
    · simp

theorem one_secret_later {p₀ : State} {ls : List Event} {p q : State} {l : Event} {t : Post}
    (hs : next svc l p = some q) (h : OneSecret svc p₀ ls p.world t) :
    OneSecret svc p₀ (ls++[l]) q.world t := by
  obtain ⟨hook, secret, ho, hh, hsig⟩ := h
  exact ⟨hook, secret, owner_next hs _ _ ho, held_later l hh, hsig⟩

theorem one_secret_post {p₀ : State} {s : List Event × State} (hi : Signing svc p₀ s) (i : ℕ)
    (c : Call) (a : Attempt) (hc : s.2.threads[i]? = some c) (ha : c.pc = .target a)
    (hg : sameSecret s.1 c = true) :
    OneSecret svc p₀ s.1 s.2.world (postOf svc s.2.world.now c.delivery a) := by
  obtain ⟨x, hx, hsecret⟩ := hi.stamped
  have hsnap : snapshot c.pc = some a.delivery := preparing_snapshot _ a (by rw [ha]; rfl)
  have howner : s.2.world.owner c.delivery = some a.webhookId := by
    rcases hi.owned.thread i c hc with hk | hk | hk
    · rw [ha] at hk
      cases hk
    · rw [ha] at hk
      cases hk
    · exact hk.2 a.delivery hsnap
  have hheld := hi.reads i c a hc (by rw [ha]; rfl)
  have hsig : (postBody svc c.delivery a).2 =
      svc.hmac a.webhook.secret (postBody svc c.delivery a).1 := by
    cases hst : stored a.delivery with
    | none => exact postBody_unstored svc c.delivery a hst
    | some b =>
      have hz := hx.thread i c hc a.delivery hsnap
      rw [hst] at hz
      obtain ⟨z, hxz, hzb⟩ := Option.map_eq_some_iff.mp hz.symm
      obtain ⟨l, hl, hd⟩ := hsecret _ z hxz
      have hsame : z.secret = a.webhook.secret := by
        simp only [sameSecret, ha, hst, Option.isNone_some, Bool.false_or,
          List.all_eq_true] at hg
        have := hg l hl
        rw [hd] at this
        simpa using this
      rw [postBody_stored svc c.delivery a b hst, ← hzb, ← hsame]
      exact hx.world.signed _ z hxz
  refine ⟨a.webhookId, a.webhook.secret, howner, hheld, ?_, rfl⟩
  exact congrArg (js "sha256="++·) hsig

theorem signing_reads {p₀ p q : State} {before : List Event} (l : Event)
    (hi : Signing svc p₀ (before, p)) (hn : next svc l p = some q) (i : ℕ) (c : Call)
    (a : Attempt) (hc : q.threads[i]? = some c) (ha : preparing c.pc = some a) :
    Held svc p₀ (before++[l]) a.webhookId a.webhook.secret := by
  cases l with
  | env e =>
    obtain ⟨w, o, he, rfl⟩ := env_next svc e p q hn
    rcases append_get _ _ _ _ hc with h | ⟨_, h⟩
    · exact held_later _ (hi.reads i c a h ha)
    · rw [he.started c h] at ha
      cases ha
  | act j io =>
    obtain ⟨u, w, u', hu, hm, rfl⟩ := act_next svc j io p q hn
    rcases set_get _ _ _ _ _ hc with ⟨rfl, rfl⟩ | ⟨_, h⟩
    · rcases preparing_move hm a ha with ⟨b, hb, hd, hw⟩ | hw
      · have hh := held_later (.act i io) (hi.reads i u b hu hb)
        rwa [Attempt.webhookId, hd, hw]
      · exact ⟨before, [.act i io], p, _, rfl, hi.ran, hw, rfl⟩
    · exact held_later _ (hi.reads i c a h ha)

theorem signing_posts {p₀ p q : State} {before : List Event} (l : Event)
    (hg : Unrotated l (before, p)) (hi : Signing svc p₀ (before, p))
    (hn : next svc l p = some q) (t : Post) (ht : t ∈ q.world.posts) :
    OneSecret svc p₀ (before++[l]) q.world t := by
  apply one_secret_later hn
  cases l with
  | env e =>
    obtain ⟨w, o, he, rfl⟩ := env_next svc e p q hn
    change t ∈ w.posts at ht
    rw [he.posts] at ht
    exact hi.posts t ht
  | act j io =>
    obtain ⟨u, w, u', hu, hm, rfl⟩ := act_next svc j io p q hn
    rcases mem_posts_move hm t ht with ht | ⟨a, rfl, ha, rfl⟩
    · exact hi.posts t ht
    · exact one_secret_post hi j u a hu ha (hg u hu)

theorem signing_step (p₀ : State) (l : Event) (s t : List Event × State) (hg : Unrotated l s)
    (hi : Signing svc p₀ s) (hs : recorded (next svc) l s = some t) : Signing svc p₀ t := by
  obtain ⟨before, p⟩ := s
  obtain ⟨ls, q⟩ := t
  obtain ⟨hn, hl⟩ := (recorded_some _ _ _ _).mp hs
  obtain rfl : ls = before++[l] := hl
  have hran : run (next svc) before p₀ = some p := hi.ran
  constructor
  · show run (next svc) (before++[l]) p₀ = some q
    rw [run_append, hran, Option.bind_some]
    simp [run, show next svc l p = some q from hn]
  · exact owned_step svc l p q hi.owned hn
  · obtain ⟨x, hx, hsecret⟩ := hi.stamped
    obtain ⟨y, hy, _, hnew⟩ := stamped_step l hx hi.owned hn
    apply Exists.intro y
    constructor
    · exact hy
    · intro id z hz
      rcases hnew id z hz with h | h
      · obtain ⟨m, hm, hd⟩ := hsecret id z h
        exact ⟨m, List.mem_append_left [l] hm, hd⟩
      · exact ⟨l, by simp, h⟩
  · exact signing_reads l hi hn
  · exact signing_posts l hg hi hn

theorem signing_opening {p : State} (h : Opening p) : Signing svc p ([], p) := by
  obtain ⟨howned, hstamped⟩ : Owned _ ∧ Stamped svc (fun _ => none) _ := opening_stamped h
  constructor
  · rfl
  · exact howned
  · exact ⟨_, hstamped, by simp⟩
  · intro i c a hc
    rw [show p.threads = [] from h.threads] at hc
    simp at hc
  · intro t ht
    rw [show p.world.posts = [] from h.posts] at ht
    simp at ht

theorem stamped_run (ls : List Event) (x : Stamps) (p q : State) (hi : Stamped svc x p)
    (ho : Owned p) (hr : run (next svc) ls p = some q) :
    ∃ y, Stamped svc y q ∧ ∀ id z, x id = some z → y id = some z := by
  induction ls generalizing x p with
  | nil =>
    simp only [run, Option.some.injEq] at hr
    subst hr
    exact ⟨x, hi, fun _ _ hz => hz⟩
  | cons l ls ih =>
    obtain ⟨u, hu, hrest⟩ := (run_cons_some _ _ _ _ _).mp hr
    obtain ⟨y, hy, hxy, _⟩ := stamped_step l hi ho hu
    obtain ⟨z, hz, hyz⟩ := ih y u hy (owned_step svc l p u ho hu) hrest
    exact ⟨z, hz, fun id s hs => hyz id s (hxy id s hs)⟩

theorem posts_fixed (p₀ u q : State) (before after : List Event) (h : Opening p₀)
    (hu : run (next svc) before p₀ = some u) (hq : run (next svc) after u = some q)
    (id : DeliveryId) (d : Delivery) (b : Text × Text) (hd : u.world.deliveries id = some d)
    (hb : stored d = some b) (t : Post) (ht : t ∈ q.world.posts) (hid : t.delivery = id) :
    t.body = b.1 ∧ t.signature = js "sha256="++b.2 := by
  obtain ⟨howned, hstamped⟩ : Owned _ ∧ Stamped svc (fun _ => none) _ := opening_stamped h
  obtain ⟨x, hx, _⟩ := stamped_run before _ p₀ u hstamped howned hu
  obtain ⟨y, hy, hxy⟩ := stamped_run after x u q hx (owned_run svc before p₀ u howned hu) hq
  have hrow := hx.world.rows id d hd
  rw [hb] at hrow
  obtain ⟨z, hz, rfl⟩ := Option.map_eq_some_iff.mp hrow.symm
  subst hid
  exact hy.world.posts t ht z (hxy _ z hz)

theorem one_secret_per_request (svc : Service) (p₀ q : State) (ls : List Event)
    (h : Opening p₀) (hr : run (next svc) ls p₀ = some q) :
    (Guarded (recorded (next svc)) Unrotated ls ([], p₀) →
      ∀ t ∈ q.world.posts, OneSecret svc p₀ ls q.world t) ∧
    ∀ before after u id d b, ls = before++after → run (next svc) before p₀ = some u →
      u.world.deliveries id = some d → stored d = some b →
      ∀ t ∈ q.world.posts, t.delivery = id → t.body = b.1 ∧ t.signature = js "sha256="++b.2 := by
  constructor
  · intro hg
    have hrec : run (recorded (next svc)) ls ([], p₀) = some (ls, q) := by
      rw [run_recorded, hr]
      rfl
    exact (run_invariant _ Unrotated (Signing svc p₀)
      (fun l s t hok hi hs => signing_step p₀ l s t hok hi hs) ls _ _ hg (signing_opening h)
      hrec).posts
  · rintro before after u id d b rfl hu hd hb t ht hid
    obtain ⟨v, hv, hq⟩ := (run_append_some _ _ _ _ _).mp hr
    obtain rfl : v = u := Option.some.inj (hv.symm.trans hu)
    exact posts_fixed p₀ v q before after h hu hq id d b hd hb t ht hid

section Rotation

def rotated : Event := .env (.updateWebhook [7] ⟨none, none, some (js "other"), none⟩)

def early : List Event :=
  [created, rotated,
    .env (.enqueue 0 [1] [7] { hook with secret := js "other" } (js "tct.revoked") .null)]++
  posting 0++[answered 0 500 [], .act 0 .ok, .env (.tick 30000),
    .env (.timer ⟨0, [1], 30000⟩)]++posting 1

theorem one_secret_per_request_early : ∃ q, run (next service) early (start 0) = some q ∧
    q.world.posts.length = 2 ∧ ∀ t ∈ q.world.posts, OneSecret service (start 0) early q.world t :=
  ⟨(run (next service) early (start 0)).get (by decide +kernel), (Option.some_get _).symm,
    by decide +kernel, (one_secret_per_request service (start 0) _ early
      ⟨rfl, rfl, by simp [start, initial]⟩ (Option.some_get _).symm).1 (by decide +kernel)⟩

def late : List Event :=
  [created, enqueued [1]]++posting 0++[answered 0 500 [], .act 0 .ok, rotated,
    .env (.tick 30000), .env (.timer ⟨0, [1], 30000⟩)]++posting 1

def readable : Service := { service with hmac := fun secret body => secret++body }

def afterLate : State := (run (next readable) late (start 0)).get (by decide +kernel)

theorem afterLate_retry : ∃ t ∈ afterLate.world.posts,
    t.signature = js "sha256="++(js "secret"++t.body) ∧ t.timestampSignature =
      js "sha256="++(js "other"++(js (toString t.timestamp)++js "."++t.body)) := by
  decide +kernel

theorem rotation_splits_request :
    ¬ ∀ (svc : Service) (p₀ q : State) (ls : List Event), Opening p₀ →
      run (next svc) ls p₀ = some q → ∀ t ∈ q.world.posts, OneSecret svc p₀ ls q.world t := by
  intro h
  obtain ⟨t, ht, hown, hown'⟩ := afterLate_retry
  obtain ⟨_, secret, _, _, hbody, htime⟩ := h readable (start 0) afterLate late
    ⟨rfl, rfl, by simp [start, initial]⟩ (Option.some_get _).symm t ht
  have hfirst : js "secret" = secret :=
    List.append_cancel_right (List.append_cancel_left (hown.symm.trans hbody))
  have hsecond : js "other" = secret :=
    List.append_cancel_right (List.append_cancel_left (hown'.symm.trans htime))
  exact absurd (hfirst.trans hsecond.symm) (by decide)

end Rotation

end ControlPlane.DeliverySignatures
