import ControlPlane.DeliverySteps

/-!
# What an attempt leaves behind

One attempt alone: its statements in order, each after some time has passed,
with a closed breaker, a safe target and, after some redirects, one answer of
the receiver. Its last
writes go through exactly when the columns can hold what the answer put into
them, and then the row says what the answer was.
-/

set_option autoImplicit false

namespace ControlPlane.AttemptOutcome
open ControlPlane.JsText ControlPlane.JsValue ControlPlane.CircuitBreaker
open ControlPlane.MediatedFetch (maxRedirects)
open ControlPlane.RunMachine ControlPlane.ThreadPool ControlPlane.DeliveryMachine
open ControlPlane.DeliverySteps
open ControlPlane.RetryBackoff (nextRetryAt nextRetryAt_later)

variable (svc : Service)

def wait (w : World) (ms : ℕ) : World := { w with now := w.now+ms }

/-- The steps of one call, each with the time that passes before it. -/
def solo : List (ℕ × Io) → World × Call → Option (World × Call)
  | [], s => some s
  | (ms, io)::rest, (w, c) => (act svc io (wait w ms) c).bind (solo rest)

def labels (i : ℕ) (steps : List (ℕ × Io)) : List Event :=
  steps.flatMap (fun s => [.env (.tick s.1), .act i s.2])

/-- While nothing else moves, a run of the pool is the run of its one call. -/
theorem run_solo (i : ℕ) (steps : List (ℕ × Io)) (w : World) (ts : List Call) (c : Call)
    (h : ts[i]? = some c) :
    run (next svc) (labels i steps) ⟨w, ts⟩ =
      (solo svc steps (w, c)).map (fun s => ⟨s.1, ts.set i s.2⟩) := by
  induction steps generalizing w ts c with
  | nil =>
    obtain ⟨hi, rfl⟩ := List.getElem?_eq_some_iff.mp h
    simp [labels, run, solo]
  | cons s rest ih =>
    obtain ⟨ms, io⟩ := s
    have htick : next svc (.env (.tick ms)) ⟨w, ts⟩ = some ⟨wait w ms, ts⟩ := by
      simp [next, step, deliverySystem, env, wait]
    have hact : next svc (.act i io) ⟨wait w ms, ts⟩ =
        (act svc io (wait w ms) c).map (fun r => ⟨r.1, ts.set i r.2⟩) := by
      simp [next, step, deliverySystem, h]
    rw [labels, List.flatMap_cons]
    show ((next svc (.env (.tick ms)) ⟨w, ts⟩).bind (fun p =>
      (next svc (.act i io) p).bind (run (next svc) (labels i rest)))) = _
    rw [htick, Option.bind_some, hact, solo]
    cases act svc io (wait w ms) c with
    | none => rfl
    | some r =>
      obtain ⟨w', c'⟩ := r
      simp only [Option.map_some, Option.bind_some]
      rw [ih w' (ts.set i c') c' (set_self ts i c c' h)]
      simp [List.set_set]

structure Claimable (w : World) (c : Call) (d : Delivery) (h : Webhook) : Prop where
  begins : c.pc = .readRow
  row : w.deliveries c.delivery = some d
  pending : d.status = .pending
  hook : w.webhooks d.webhookId = some h
  active : h.active = true
  closed : (w.breakers c.proc d.webhookId).state = .closed

/-- The redirects of a fetch, each with the time that passes before it. -/
abbrev Hops := List (ℕ × Text)

def hopSteps (hops : Hops) : List (ℕ × Io) := hops.map (fun r => (r.1, .redirect r.2))

def postSteps (k : ℕ → ℕ) (jitter : ℕ) : List (ℕ × Io) :=
  [(k 0, .ok), (k 1, .ok), (k 2, .jitter jitter), (k 3, .ok), (k 4, .verdict .safe)]

def attemptSteps (k : ℕ → ℕ) (jitter : ℕ) (hops : Hops) (ans : Answer) : List (ℕ × Io) :=
  postSteps k jitter++hopSteps hops++[(k 5, .answer ans)]

/-- The statements after the answer; an answer of 410 has three more. -/
def settleSteps (k : ℕ → ℕ) (ans : Answer) : List (ℕ × Io) :=
  (k 6, .ok)::(if ans.isGone then [(k 7, .ok), (k 8, .ok), (k 9, .ok)] else [])

def answeredAt (w : World) (k : ℕ → ℕ) (hops : Hops) : Instant :=
  w.now+k 0+k 1+k 2+k 3+k 4+(hops.map Prod.fst).sum+k 5

def claimed (d : Delivery) (h : Webhook) : Attempt := ⟨d, h, false⟩

structure Answered (w w' : World) (k : ℕ → ℕ) (hops : Hops) (c : Call) (d : Delivery)
    (h : Webhook) (ans : Answer) : Prop where
  clock : w'.now = answeredAt w k hops
  row : w'.deliveries c.delivery = some (claimRow (claimed d h) d)
  hooks : w'.webhooks = w.webhooks
  breakers : w'.breakers = Function.update w.breakers c.proc
    (Function.update (w.breakers c.proc) d.webhookId
      (record svc.breaker (answeredAt w k hops) ans.outcome (w.breakers c.proc d.webhookId)))

theorem act_read (w : World) (c : Call) (d : Delivery) (hp : c.pc = .readRow)
    (hd : w.deliveries c.delivery = some d) (hs : d.status = .pending) :
    act svc .ok w c = some (w, c.to (.readWebhook d)) := by
  simp [act, hp, readRowStep, hd, hs]

theorem act_find (w : World) (c : Call) (d : Delivery) (h : Webhook) (hp : c.pc = .readWebhook d)
    (hh : w.webhooks d.webhookId = some h) (ha : h.active = true) :
    act svc .ok w c = some (w, c.to (.ask (claimed d h))) := by
  simp [act, hp, readWebhookStep, hh, ha, claimed]

theorem act_ask (w : World) (c : Call) (a : Attempt) (jitter : ℕ) (hp : c.pc = .ask a)
    (hj : jitter < 30000) (hc : (w.breakers c.proc a.webhookId).state = .closed)
    (hpr : a.probe = false) :
    act svc (.jitter jitter) w c = some (w, c.to (.claim a)) := by
  have hsame : w.breaker c.proc a.webhookId (w.breakers c.proc a.webhookId) = w := by
    simp [World.breaker]
  have hprobe : { a with probe := false } = a := by
    obtain ⟨d, h, p⟩ := a
    simpa using hpr.symm
  simp [act, hp, hj, askStep, shouldAttempt, hc, hsame, hprobe]

theorem act_claim (w : World) (c : Call) (a : Attempt) (hp : c.pc = .claim a)
    (hd : w.deliveries c.delivery = some a.delivery) (hs : a.delivery.status = .pending) :
    act svc .ok w c = some (w.row c.delivery (claimRow a), c.to (.target a)) := by
  simp [act, hp, claimStep, hd, claimable, hs]

theorem act_target (w : World) (c : Call) (a : Attempt) (hp : c.pc = .target a) :
    act svc (.verdict .safe) w c =
      some ({ w with posts := postOf svc w.now c.delivery a::w.posts }, c.to (.fetching a 0)) := by
  simp [act, hp, targetStep]

theorem act_redirect (w : World) (c : Call) (a : Attempt) (n : ℕ) (url : Text)
    (hp : c.pc = .fetching a n) (hn : n < maxRedirects) :
    act svc (.redirect url) w c = some (redirectStep url w c a n) := by
  simp [act, hp, hn]

theorem act_answer (w : World) (c : Call) (a : Attempt) (n : ℕ) (ans : Answer)
    (hp : c.pc = .fetching a n) :
    act svc (.answer ans) w c = some (answerStep svc ans w c a) := by
  simp [act, hp]

def posted (w : World) (c : Call) (d : Delivery) (h : Webhook) (k : ℕ → ℕ) : World :=
  let w₃ := (wait (wait (wait (wait w (k 0)) (k 1)) (k 2)) (k 3)).row c.delivery
    (claimRow (claimed d h))
  let w₄ := wait w₃ (k 4)
  { w₄ with posts := postOf svc w₄.now c.delivery (claimed d h)::w₄.posts }

def resent (hops : Hops) (w : World) (id : DeliveryId) : World :=
  { w with now := w.now+(hops.map Prod.fst).sum,
           resent := (hops.map (fun r => (id, r.2))).reverse++w.resent }

theorem solo_hops (hops : Hops) (w : World) (c : Call) (a : Attempt) (n : ℕ)
    (hn : n+hops.length ≤ maxRedirects) :
    solo svc (hopSteps hops) (w, c.to (.fetching a n)) =
      some (resent hops w c.delivery, c.to (.fetching a (n+hops.length))) := by
  induction hops generalizing w n with
  | nil => simp [hopSteps, solo, resent]
  | cons r hops ih =>
    obtain ⟨ms, url⟩ := r
    rw [List.length_cons] at hn
    have hact := act_redirect svc (wait w ms) (c.to (.fetching a n)) a n url rfl (by omega)
    rw [hopSteps, List.map_cons, solo, hact, Option.bind_some]
    have hrest := ih (redirectStep url (wait w ms) (c.to (.fetching a n)) a n).1 (n+1) (by omega)
    rw [hopSteps] at hrest
    show solo svc _ ((redirectStep url (wait w ms) (c.to (.fetching a n)) a n).1,
      c.to (.fetching a (n+1))) = _
    rw [hrest, List.length_cons]
    have hlen : n+1+hops.length = n+(hops.length+1) := by omega
    rw [hlen]
    simp [resent, redirectStep, wait, add_assoc]

theorem solo_append (as bs : List (ℕ × Io)) (s : World × Call) :
    solo svc (as++bs) s = (solo svc as s).bind (solo svc bs) := by
  induction as generalizing s with
  | nil => rfl
  | cons a as ih =>
    obtain ⟨ms, io⟩ := a
    obtain ⟨w, c⟩ := s
    rw [List.cons_append, solo, solo, Option.bind_assoc]
    congr 1
    funext r
    exact ih r

theorem solo_post (w : World) (c : Call) (d : Delivery) (h : Webhook) (k : ℕ → ℕ)
    (jitter : ℕ) (hj : jitter < 30000) (hc : Claimable w c d h) :
    solo svc (postSteps k jitter) (w, c) =
      some (posted svc w c d h k, c.to (.fetching (claimed d h) 0)) := by
  have hread := act_read svc (wait w (k 0)) c d hc.begins hc.row hc.pending
  have hfind := act_find svc (wait (wait w (k 0)) (k 1)) (c.to (.readWebhook d)) d h rfl hc.hook
    hc.active
  have hask := act_ask svc (wait (wait (wait w (k 0)) (k 1)) (k 2)) (c.to (.ask (claimed d h)))
    (claimed d h) jitter rfl hj hc.closed rfl
  have hclaim := act_claim svc (wait (wait (wait (wait w (k 0)) (k 1)) (k 2)) (k 3))
    (c.to (.claim (claimed d h))) (claimed d h) rfl hc.row hc.pending
  have htarget := act_target svc (wait ((wait (wait (wait (wait w (k 0)) (k 1)) (k 2)) (k 3)).row
    c.delivery (claimRow (claimed d h))) (k 4)) (c.to (.target (claimed d h))) (claimed d h) rfl
  rw [postSteps, solo, hread, Option.bind_some, solo]
  show (act svc .ok (wait (wait w (k 0)) (k 1)) (c.to (.readWebhook d))).bind _ = _
  rw [hfind, Option.bind_some, solo]
  show (act svc (.jitter jitter) (wait (wait (wait w (k 0)) (k 1)) (k 2))
    (c.to (.ask (claimed d h)))).bind _ = _
  rw [hask, Option.bind_some, solo]
  show (act svc .ok (wait (wait (wait (wait w (k 0)) (k 1)) (k 2)) (k 3))
    (c.to (.claim (claimed d h)))).bind _ = _
  rw [hclaim, Option.bind_some, solo]
  show (act svc (.verdict .safe) (wait ((wait (wait (wait (wait w (k 0)) (k 1)) (k 2)) (k 3)).row
    c.delivery (claimRow (claimed d h))) (k 4)) (c.to (.target (claimed d h)))).bind _ = _
  rw [htarget]
  rfl

theorem solo_attempt (w : World) (c : Call) (d : Delivery) (h : Webhook) (k : ℕ → ℕ)
    (jitter : ℕ) (hj : jitter < 30000) (hops : Hops) (hn : hops.length ≤ maxRedirects)
    (ans : Answer) (hc : Claimable w c d h) :
    solo svc (attemptSteps k jitter hops ans) (w, c) =
      some (answerStep svc ans (wait (resent hops (posted svc w c d h k) c.delivery) (k 5))
        (c.to (.fetching (claimed d h) hops.length)) (claimed d h)) := by
  have hhops := solo_hops svc hops (posted svc w c d h k) c (claimed d h) 0 (by omega)
  have hanswer := act_answer svc (wait (resent hops (posted svc w c d h k) c.delivery) (k 5))
    (c.to (.fetching (claimed d h) (0+hops.length))) (claimed d h) _ ans rfl
  rw [attemptSteps, solo_append, solo_append, solo_post svc w c d h k jitter hj hc,
    Option.bind_some, hhops, Option.bind_some, solo, hanswer, Nat.zero_add]
  rfl

theorem attempt_answered (w : World) (c : Call) (d : Delivery) (h : Webhook) (k : ℕ → ℕ)
    (jitter : ℕ) (hj : jitter < 30000) (hops : Hops) (hn : hops.length ≤ maxRedirects)
    (ans : Answer) (hc : Claimable w c d h) :
    ∃ w', solo svc (attemptSteps k jitter hops ans) (w, c) =
        some (w', c.to (((conclude svc (answeredAt w k hops) (claimed d h) ans).map
          Pc.settle).getD .done)) ∧ Answered svc w w' k hops c d h ans := by
  have hrow : (posted svc w c d h k).deliveries c.delivery = some (claimRow (claimed d h) d) := by
    simp [posted, wait, World.row, hc.row]
  have hnow : (wait (resent hops (posted svc w c d h k) c.delivery) (k 5)).now =
      answeredAt w k hops := rfl
  apply Exists.intro (answerStep svc ans (wait (resent hops (posted svc w c d h k) c.delivery)
    (k 5)) (c.to (.fetching (claimed d h) hops.length)) (claimed d h)).1
  constructor
  · rw [solo_attempt svc w c d h k jitter hj hops hn ans hc]
    rfl
  · constructor
    · exact hnow
    · exact hrow
    · rfl
    · rfl

/-- The columns hold what the answer puts into them. -/
def Writable (now : Instant) (d : Delivery) (ans : Answer) : Prop :=
  if ans.isOk then instantStorable now = true
  else hasNul ans.errorText = false ∧ (ans.isGone = true ∨ svc.retryAttempts ≤ (d.attempts+1 : ℕ) ∨
    (nextRetryAt now (d.attempts+1)).any instantStorable = true)

/-- What the row says about the answer. -/
structure Says (now : Instant) (d : Delivery) (ans : Answer) (r : Delivery) : Prop where
  attempts : r.attempts = d.attempts+1
  status : r.status =
    if ans.isOk then .delivered
    else if ans.isGone = true ∨ svc.retryAttempts ≤ (d.attempts+1 : ℕ) then .failed
    else .pending
  later : r.status = .pending → ∃ t, r.nextRetryAt = some t ∧ now < t

theorem conclude_writable (now : Instant) (d : Delivery) (h : Webhook) (ans : Answer) :
    (∃ o, conclude svc now (claimed d h) ans = some o ∧ o.storable = true) ↔
      Writable svc now d ans := by
  have ha : (claimed d h).attempts = d.attempts+1 := rfl
  by_cases hok : ans.isOk = true
  · rw [conclude, if_pos hok]
    simp [Writable, hok, Outcome.storable]
  · by_cases hg : ans.isGone = true
    · rw [conclude, if_neg hok, if_pos hg]
      simp [Writable, hok, hg, Outcome.storable]
    · rw [conclude, if_neg hok, if_neg hg, Writable, if_neg hok, ha]
      by_cases hn : svc.retryAttempts ≤ (d.attempts+1 : ℕ)
      · rw [if_pos hn]
        simp only [hn, Option.some.injEq, exists_eq_left', Outcome.storable]
        simp
      · rw [if_neg hn]
        simp only [hn, false_or]
        cases ht : nextRetryAt now (d.attempts+1) with
        | none => simp [hg]
        | some t => simp [hg, Outcome.storable]

theorem conclude_answer (now : Instant) (d : Delivery) (h : Webhook) (ans : Answer) (o : Outcome)
    (hc : conclude svc now (claimed d h) ans = some o) :
    Says svc now d ans (o.apply (claimRow (claimed d h) d)) := by
  have ha : (claimed d h).attempts = d.attempts+1 := rfl
  by_cases hok : ans.isOk = true
  · rw [conclude, if_pos hok, Option.some.injEq] at hc
    subst hc
    constructor <;> simp [Outcome.status, claimRow, ha, hok]
  · by_cases hg : ans.isGone = true
    · rw [conclude, if_neg hok, if_pos hg, Option.some.injEq] at hc
      subst hc
      constructor <;> simp [Outcome.status, claimRow, ha, hok, hg]
    · rw [conclude, if_neg hok, if_neg hg, ha] at hc
      by_cases hn : svc.retryAttempts ≤ (d.attempts+1 : ℕ)
      · rw [if_pos hn, Option.some.injEq] at hc
        subst hc
        constructor
        · rfl
        · rw [if_neg hok, if_pos (Or.inr hn)]
          rfl
        · simp [Outcome.status]
      · rw [if_neg hn] at hc
        obtain ⟨t, ht, rfl⟩ := Option.map_eq_some_iff.mp hc
        have hlater := nextRetryAt_later now t (d.attempts+1) (Nat.succ_pos _) ht
        constructor
        · rfl
        · rw [if_neg hok, if_neg (not_or.mpr ⟨hg, hn⟩)]
          rfl
        · intro _
          exact ⟨t, rfl, hlater⟩

theorem gone_outcome (now : Instant) (a : Attempt) (ans : Answer) (o : Outcome)
    (hc : conclude svc now a ans = some o) :
    afterSettle o = if ans.isGone then .disable a else .done := by
  have hnot : ans.isOk = true → ans.isGone = false := by
    intro hok
    cases ans with
    | threw message => rfl
    | status code text =>
      simp only [Answer.isOk, Answer.isGone, Bool.and_eq_true, decide_eq_true_eq,
        decide_eq_false_iff_not] at hok ⊢
      omega
  rw [conclude] at hc
  split_ifs at hc with hok hg hn
  · rw [Option.some.injEq] at hc
    subst hc
    simp [afterSettle, hnot hok]
  · rw [Option.some.injEq] at hc
    subst hc
    simp [afterSettle, hg]
  · rw [Option.some.injEq] at hc
    subst hc
    simp [afterSettle, hg]
  · obtain ⟨t, _, rfl⟩ := Option.map_eq_some_iff.mp hc
    simp [afterSettle, hg]

theorem act_settle (w : World) (c : Call) (o : Outcome) (hp : c.pc = .settle o)
    (hs : o.storable = true) : act svc .ok w c = some (settleStep w c o) := by
  simp [act, hp, hs]

theorem act_disable (w : World) (c : Call) (a : Attempt) (hp : c.pc = .disable a)
    (ha : isActive w a.webhookId = true) :
    act svc .ok w c = some ({ w with
        webhooks := Function.update w.webhooks a.webhookId
          ((w.webhooks a.webhookId).map (fun h => { h with active := false }))
        flips := a.webhookId::w.flips },
      c.to (.failQueue a true)) := by
  simp [act, hp, disableStep, ha]

theorem act_failQueue (w : World) (c : Call) (a : Attempt) (hp : c.pc = .failQueue a true) :
    act svc .ok w c =
      some ({ w with deliveries := fun id => (w.deliveries id).map (failPending a.webhookId) },
        c.to (.audit a)) := by
  simp [act, hp, failQueueStep]

theorem act_audit (w : World) (c : Call) (a : Attempt) (hp : c.pc = .audit a) :
    act svc .ok w c = some (auditStep w c a) := by
  simp [act, hp]

theorem failPending_settled (h : WebhookId) (d : Delivery) (hs : d.status ≠ .pending) :
    failPending h d = d := by
  rw [failPending, if_neg]
  intro hd
  exact hs hd.2

theorem settle_runs (w w' : World) (c : Call) (d : Delivery) (h : Webhook) (k : ℕ → ℕ)
    (hops : Hops) (ans : Answer) (o : Outcome) (hc : Claimable w c d h)
    (ha : Answered svc w w' k hops c d h ans)
    (ho : conclude svc (answeredAt w k hops) (claimed d h) ans = some o) (hs : o.storable = true) :
    ∃ w'', solo svc (settleSteps k ans) (w', c.to (.settle o)) = some (w'', c.to .done) ∧
      w''.deliveries c.delivery = some (o.apply (claimRow (claimed d h) d)) ∧
      w''.breakers = w'.breakers := by
  let w₁ := (settleStep (wait w' (k 6)) (c.to (.settle o)) o).1
  have hset : act svc .ok (wait w' (k 6)) (c.to (.settle o)) = some (w₁, c.to (afterSettle o)) :=
    act_settle svc _ _ o rfl hs
  have hrow : w₁.deliveries c.delivery = some (o.apply (claimRow (claimed d h) d)) := by
    show Function.update w'.deliveries c.delivery ((w'.deliveries c.delivery).map o.apply)
      c.delivery = _
    rw [Function.update_self, ha.row]
    rfl
  have hnext := gone_outcome svc _ _ _ _ ho
  by_cases hg : ans.isGone = true
  · rw [if_pos hg] at hnext
    have hactive : isActive (wait w₁ (k 7)) (claimed d h).webhookId = true := by
      show ((w'.webhooks d.webhookId).map (·.active)).getD false = true
      rw [ha.hooks, hc.hook]
      exact hc.active
    have hfailed : (o.apply (claimRow (claimed d h) d)).status ≠ .pending := by
      have hstatus := (conclude_answer svc _ d h ans o ho).status
      rw [hstatus]
      split_ifs with h1 h2
      · decide
      · decide
      · exact absurd (Or.inl hg) h2
    rw [settleSteps, if_pos hg, solo, hset, Option.bind_some, hnext, solo,
      act_disable svc _ _ (claimed d h) rfl hactive, Option.bind_some, solo,
      act_failQueue svc _ _ (claimed d h) rfl, Option.bind_some, solo,
      act_audit svc _ _ (claimed d h) rfl, Option.bind_some]
    apply Exists.intro
    constructor
    · rfl
    · constructor
      · show (w₁.deliveries c.delivery).map _ = _
        rw [hrow, Option.map_some, failPending_settled _ _ hfailed]
      · rfl
  · rw [if_neg hg] at hnext
    rw [settleSteps, if_neg hg, solo, hset, Option.bind_some, hnext]
    exact ⟨w₁, rfl, hrow, rfl⟩

theorem settle_stuck (w w' : World) (c : Call) (d : Delivery) (h : Webhook) (k : ℕ → ℕ)
    (hops : Hops) (ans : Answer)
    (hw : ¬ ∃ o, conclude svc (answeredAt w k hops) (claimed d h) ans = some o ∧
      o.storable = true) :
    solo svc (settleSteps k ans) (w', c.to (((conclude svc (answeredAt w k hops) (claimed d h)
      ans).map Pc.settle).getD .done)) = none := by
  cases ho : conclude svc (answeredAt w k hops) (claimed d h) ans with
  | none => simp [settleSteps, solo, act]
  | some o =>
    have hs : o.storable = false := by
      by_contra hne
      exact hw ⟨o, ho, by simpa using hne⟩
    simp [settleSteps, solo, act, hs]

/-- The call has returned, the row says what the answer was, and the breaker
of the webhook has recorded it once. -/
structure Settled (w : World) (k : ℕ → ℕ) (hops : Hops) (i : ℕ) (c : Call) (d : Delivery)
    (ans : Answer) (q : State) : Prop where
  returned : ∃ c', q.threads[i]? = some c' ∧ c'.pc = .done
  row : ∃ r, q.world.deliveries c.delivery = some r ∧ Says svc (answeredAt w k hops) d ans r
  breakers : q.world.breakers = Function.update w.breakers c.proc
    (Function.update (w.breakers c.proc) d.webhookId
      (record svc.breaker (answeredAt w k hops) ans.outcome (w.breakers c.proc d.webhookId)))

theorem outcome_recorded_iff (p : State) (i : ℕ) (c : Call) (d : Delivery) (h : Webhook)
    (k : ℕ → ℕ) (jitter : ℕ) (hops : Hops) (ans : Answer) (hi : p.threads[i]? = some c)
    (hc : Claimable p.world c d h) (hj : jitter < 30000) (hn : hops.length ≤ maxRedirects) :
    (∃ q, run (next svc) (labels i (attemptSteps k jitter hops ans++settleSteps k ans)) p =
        some q ∧ Settled svc p.world k hops i c d ans q) ↔
      Writable svc (answeredAt p.world k hops) d ans := by
  obtain ⟨w', hsolo, ha⟩ := attempt_answered svc p.world c d h k jitter hj hops hn ans hc
  have hrun := run_solo svc i (attemptSteps k jitter hops ans++settleSteps k ans) p.world
    p.threads c hi
  rw [solo_append, hsolo, Option.bind_some] at hrun
  rw [← conclude_writable svc _ d h ans]
  constructor
  · rintro ⟨q, hq, _⟩
    by_contra hw
    rw [settle_stuck svc p.world w' c d h k hops ans hw] at hrun
    rw [show run (next svc) _ p = none from hrun] at hq
    cases hq
  · rintro ⟨o, ho, hs⟩
    rw [ho, Option.map_some, Option.getD_some] at hrun
    obtain ⟨w'', hsettle, hrow, hb⟩ := settle_runs svc p.world w' c d h k hops ans o hc ha ho hs
    rw [hsettle, Option.map_some] at hrun
    refine ⟨_, hrun, ?_⟩
    constructor
    · exact ⟨c.to .done, set_self p.threads i c _ hi, rfl⟩
    · exact ⟨_, hrow, conclude_answer svc _ d h ans o ho⟩
    · show w''.breakers = _
      rw [hb, ha.breakers]

def waiting : List Event := [created, enqueued [1]]

def moved : Hops := [(5, js "https://example.com/hook")]

theorem outcome_recorded_iff_refused : ∃ p d, run (next service) waiting (start 0) = some p ∧
    ((∃ q, run (next service) (labels 0 (attemptSteps (fun _ => 5) 0 moved (.status 503 [65])++
      settleSteps (fun _ => 5) (.status 503 [65]))) p = some q ∧
      Settled service p.world (fun _ => 5) moved 0 (begin 0 [1]) d (.status 503 [65]) q) ↔
      Writable service (answeredAt p.world (fun _ => 5) moved) d (.status 503 [65])) :=
  ⟨_, _, rfl, outcome_recorded_iff service _ 0 (begin 0 [1]) _ hook (fun _ => 5) 0 moved
    (.status 503 [65]) rfl ⟨rfl, rfl, rfl, rfl, rfl, rfl⟩ (by decide) (by decide)⟩

/-- With U+0000 in the text of the answer the write of the outcome is refused;
the call ends by throwing. -/
theorem nul_text_unrecorded :
    ¬ ∀ (svc : Service) (now : Instant) (ls : List Event) (p : State) (i : ℕ) (c : Call)
      (d : Delivery) (h : Webhook) (k : ℕ → ℕ) (jitter : ℕ) (hops : Hops) (ans : Answer),
      run (next svc) ls (start now) = some p → p.threads[i]? = some c →
      Claimable p.world c d h → jitter < 30000 → hops.length ≤ maxRedirects →
      ∃ q, run (next svc) (labels i (attemptSteps k jitter hops ans++settleSteps k ans)) p =
        some q ∧ Settled svc p.world k hops i c d ans q := by
  intro h
  obtain ⟨q, hq, _⟩ := h service 0 waiting _ 0 (begin 0 [1]) _ hook (fun _ => 0) 0 []
    (.status 500 [0]) rfl rfl ⟨rfl, rfl, rfl, rfl, rfl, rfl⟩ (by decide) (by decide)
  exact absurd ((congrArg Option.isSome hq).trans Option.isSome_some) (by decide +kernel)

end ControlPlane.AttemptOutcome
