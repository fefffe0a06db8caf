import ControlPlane.EventFanout
import ControlPlane.ProducerIds

/-!
# Producers are kept apart

What a producer stores, publishes and enqueues in a run is what it does in the
run from which the requests of all others are erased, as long as none of its
requests finds a response that another producer's request has stored under
its idempotency key, and no webhook is switched off for a delivery of another
producer's event.
-/

set_option autoImplicit false

namespace ControlPlane.ProducerIsolation
open ControlPlane.JsText ControlPlane.JsValue ControlPlane.EventNormalize ControlPlane.EventId
open ControlPlane.Idempotency ControlPlane.EventIngest ControlPlane.ProducerIds
open ControlPlane.RunMachine ControlPlane.NamedPool

def isOf (R : IdRuntime) (key : Option Text) (ls : List Event) (n : ℕ) : Bool :=
  (starts ls).any (fun x => x.1 = n && producerKey R x.2 = key)

/-- Who has stored the response that a request is about to find. -/
def foundWinner (p : State) (n : ℕ) : Option ℕ :=
  (p.thread n).bind (fun t =>
    match t.phase, keyHeader t.request.headers with
    | .keyed _, .key k => p.world.winners.lookup k
    | _, _ => none)

def activeWebhook (w : World) (webhookId : Text) : Bool :=
  w.webhooks.any (fun h => h.id = webhookId && h.active)

/-- A lookup that finds a response finds one of the producer's own, and a 410
answer to a delivery of another producer finds its webhook inactive. -/
def Undisturbed (mine : ℕ → Bool) : Event → State → Prop
  | .act n (.gone webhookId), p => mine n = false → activeWebhook p.world webhookId = false
  | .act n _, p => mine n = true → ∀ m ∈ foundWinner p n, mine m = true
  | _, _ => True

instance (mine : ℕ → Bool) (l : Event) (p : State) : Decidable (Undisturbed mine l p) :=
  match l with
  | .env _ => isTrue trivial
  | .start _ _ => isTrue trivial
  | .act n (.gone webhookId) =>
    inferInstanceAs (Decidable (mine n = false → activeWebhook p.world webhookId = false))
  | .act n .ok | .act n .fault | .act n (.job _) | .act n (.lost _) =>
    inferInstanceAs (Decidable (mine n = true → ∀ m ∈ foundWinner p n, mine m = true))

section Origins
variable (R : IdRuntime) (legal : ℕ → EventsRequest → Prop)

def Origin (q : EventsRequest) : Phase → Prop
  | .keyed body => q.body.parsed = some body
  | .running body => q.body.parsed = some body
  | .inserting b => ∀ e ∈ b.normalized, Gives R q e.id
  | _ => True

def Sent (n : ℕ) (_ : World) : Option Thread → Prop
  | none => True
  | some t => legal n t.request ∧ Origin R t.request t.phase

structure Recorded (w : World) : Prop where
  rows : ∀ r ∈ w.events, ∃ q, legal r.request q ∧ Gives R q r.row.id
  winners : ∀ k, (lookup w.responses eventsScope k).isSome = (w.winners.lookup k).isSome

variable {R legal}

theorem origin_begin (q : EventsRequest) : Origin R q (begin q) := by
  unfold begin
  split_ifs
  · trivial
  · split
    · trivial
    · next body hbody => split <;> first | exact hbody | trivial

theorem origin_lookup (w : World) (q : EventsRequest) (body : Json)
    (h : q.body.parsed = some body) : Origin R q (lookupStep w q body) := by
  unfold lookupStep
  split
  · split
    · trivial
    · exact h
  · exact h

theorem origin_prepare (S : Service) (w : World) (q : EventsRequest) (body : Json)
    (h : q.body.parsed = some body) : Origin S.runtime q (prepareStep S w q body) := by
  unfold prepareStep
  split
  · trivial
  · next b hb => exact prepare_ids S.runtime w.now q body b h hb

theorem origin_step (S : Service) (n : ℕ) (q : EventsRequest) (io : Io) (w v : World)
    (ph ph' : Phase) (h : Origin S.runtime q ph) (hs : eventStep S n q io w ph = some (v, ph')) :
    Origin S.runtime q ph' := by
  cases step_move S n q io w v ph ph' hs with
  | receive => exact origin_begin q
  | find body => exact origin_lookup w q body h
  | prepare body => exact origin_prepare S w q body h
  | slice f todo => cases todo <;> trivial
  | persist ran a =>
    rcases persist_phase io n w q ran a with hp | hp
    · rw [hp]
      trivial
    · rw [hp]
      trivial
  | settle ran a =>
    obtain ⟨a', replayed, hp⟩ := settle_phase w q ran a
    rw [hp]
    trivial
  | _ => trivial

theorem recorded_insert (n : ℕ) (q : EventsRequest) (w : World) (b : Batch) (hq : legal n q)
    (hw : Recorded R legal w) (hb : ∀ e ∈ b.normalized, Gives R q e.id) :
    Recorded R legal (insertStep n w b).1 := by
  constructor
  · intro r hr
    rcases List.mem_append.mp hr with hr | hr
    · exact hw.rows r hr
    · obtain ⟨e, he, rfl⟩ := List.mem_map.mp hr
      have hnorm := (firstOfEach_sublist [] b.normalized).subset (List.mem_of_mem_filter he)
      exact ⟨q, hq, hb e hnorm⟩
  · exact hw.winners

def stored (n : ℕ) (a : Answer) (k : Text) (w : World) : World :=
  { w with responses := persist w.responses eventsScope k (answerStatus a) a,
           winners := if (lookup w.responses eventsScope k).isSome then w.winners
             else w.winners++[(k, n)] }

theorem persist_stores (io : Io) (n : ℕ) (q : EventsRequest) (ran : Option FanOut) (a : Answer) :
    (∀ w, (persistStep io n w q ran a).1 = w) ∨
      ∃ k, ∀ w, (persistStep io n w q ran a).1 = stored n a k w := by
  unfold persistStep
  split
  · next k _ =>
    split_ifs
    · exact Or.inr ⟨k, fun w => rfl⟩
    · exact Or.inl (fun w => rfl)
    · exact Or.inl (fun w => rfl)
  · exact Or.inl (fun w => rfl)

theorem lookup_stored (n : ℕ) (a : Answer) (k k' : Text) (w : World) :
    lookup (stored n a k w).responses eventsScope k' = if k' = k
      then some ((lookup w.responses eventsScope k).getD ⟨eventsScope, k, answerStatus a, a⟩)
      else lookup w.responses eventsScope k' := by
  split_ifs with hk
  · subst hk
    exact lookup_persist_self _ _ _ _ _
  · exact lookup_persist_other _ _ _ _ _ _ _ (fun h => hk h.2.symm)

theorem winner_stored (n : ℕ) (a : Answer) (k k' : Text) (w : World)
    (h : (lookup w.responses eventsScope k).isSome = (w.winners.lookup k).isSome) :
    (stored n a k w).winners.lookup k' = if k' = k then some ((w.winners.lookup k).getD n)
      else w.winners.lookup k' := by
  have hother : k' ≠ k → (w.winners++[(k, n)]).lookup k' = w.winners.lookup k' := by
    intro hk
    have hbeq : (k' == k) = false := beq_eq_false_iff_ne.mpr hk
    rw [List.lookup_append, List.lookup_cons, hbeq]
    simp
  cases hwin : w.winners.lookup k with
  | none =>
    rw [hwin, Option.isSome_none] at h
    simp only [stored, h, Bool.false_eq_true, if_false]
    split_ifs with hk
    · subst hk
      rw [List.lookup_append, hwin]
      simp
    · exact hother hk
  | some m =>
    rw [hwin, Option.isSome_some] at h
    simp only [stored, h, if_true]
    split_ifs with hk
    · subst hk
      exact hwin
    · rfl

theorem recorded_persist (io : Io) (n : ℕ) (q : EventsRequest) (w : World)
    (ran : Option FanOut) (a : Answer) (hw : Recorded R legal w) :
    Recorded R legal (persistStep io n w q ran a).1 := by
  rcases persist_stores io n q ran a with hsame | ⟨k, hstored⟩
  · rw [hsame]
    exact hw
  · rw [hstored]
    constructor
    · exact hw.rows
    · intro k'
      rw [lookup_stored, winner_stored n a k k' w (hw.winners k)]
      split_ifs
      · rfl
      · exact hw.winners k'

theorem recorded_step (S : Service) (n : ℕ) (q : EventsRequest) (io : Io) (w v : World)
    (ph ph' : Phase) (hq : legal n q) (hw : Recorded S.runtime legal w)
    (ho : Origin S.runtime q ph) (hs : eventStep S n q io w ph = some (v, ph')) :
    Recorded S.runtime legal v := by
  cases step_move S n q io w v ph ph' hs with
  | insert b => exact recorded_insert n q w b hq hw ho
  | publish f e todo =>
    unfold publishStep
    split_ifs
    · exact ⟨hw.rows, hw.winners⟩
    · exact hw
  | project f e todo =>
    unfold projectStep
    split_ifs
    · exact ⟨hw.rows, hw.winners⟩
    · exact hw
  | trace f e todo =>
    unfold traceStep
    split_ifs
    · exact ⟨hw.rows, hw.winners⟩
    · exact hw
  | deliver f pending todo i j => exact ⟨hw.rows, hw.winners⟩
  | gone webhookId => exact ⟨hw.rows, hw.winners⟩
  | persist ran a => exact recorded_persist io n q w ran a hw
  | _ => exact hw

end Origins

section Views
variable (mine : ℕ → Bool)

/-- A world, and the one that its producer alone has made of it. -/
structure View (w v : World) : Prop where
  now : v.now = w.now
  webhooks : v.webhooks = w.webhooks
  events : v.events = w.events.filter (fun r => mine r.request)
  published : v.published = w.published.filter (fun x => mine x.request)
  deliveries : v.deliveries = w.deliveries.filter (fun d => mine d.request)
  absent : ∀ k, lookup w.responses eventsScope k = none → lookup v.responses eventsScope k = none
  own : ∀ k m, w.winners.lookup k = some m → mine m = true →
    lookup v.responses eventsScope k = lookup w.responses eventsScope k

def SamePhase (ph ph' : Phase) : Prop :=
  ph = ph' ∨ ∃ ran a a' replayed replayed', ph = .answered ran a replayed ∧
    ph' = .answered ran a' replayed'

def SameThread (t s : Thread) : Prop := t.request = s.request ∧ SamePhase t.phase s.phase

variable {mine}

theorem view_gone (n : ℕ) (hn : mine n = true) (webhookId : Text) (w v : World)
    (h : View mine w v) (hd : ∃ d ∈ w.deliveries, d.request = n ∧ d.webhookId = webhookId) :
    (∃ d ∈ v.deliveries, d.request = n ∧ d.webhookId = webhookId) ∧
      View mine (switchOff webhookId w) (switchOff webhookId v) := by
  constructor
  · obtain ⟨d, hmem, hreq, hhook⟩ := hd
    refine ⟨d, ?_, hreq, hhook⟩
    rw [h.deliveries]
    exact List.mem_filter.mpr ⟨hmem, hreq ▸ hn⟩
  · exact { h with webhooks := by simp only [switchOff, h.webhooks] }

theorem switchOff_inactive (webhookId : Text) (w : World)
    (h : activeWebhook w webhookId = false) : switchOff webhookId w = w := by
  have hsame : w.webhooks.map (fun x => if x.id = webhookId then { x with active := false }
      else x) = w.webhooks := by
    conv_rhs => rw [← List.map_id w.webhooks]
    apply List.map_congr_left
    intro x hx
    have hx' := List.any_eq_false.mp h x hx
    simp only [Bool.and_eq_true, decide_eq_true_eq, not_and, Bool.not_eq_true] at hx'
    split_ifs with hid
    · rw [← hx' hid]
      rfl
    · rfl
  rw [switchOff, hsame]

theorem view_env (e : Env) (w w' v : World) (h : View mine w v) (he : env e w = some w') :
    ∃ v', env e v = some v' ∧ View mine w' v' := by
  cases e with
  | tick ms =>
    cases he
    exact ⟨_, rfl, { h with now := by rw [h.now] }⟩
  | setWebhooks webhooks =>
    cases he
    exact ⟨_, rfl, { h with webhooks := rfl }⟩
  | setManifests manifests =>
    cases he
    exact ⟨_, rfl, { h with }⟩

theorem view_project (io : Io) (w v : World) (e : EventRecord) (h : View mine w v) :
    View mine (projectStep io w e) (projectStep io v e) := by
  unfold projectStep
  split_ifs
  · exact { h with }
  · exact h

theorem view_trace (S : Service) (io : Io) (w v : World) (e : EventRecord) (h : View mine w v) :
    View mine (traceStep S io w e) (traceStep S io v e) := by
  unfold traceStep
  split_ifs
  · exact { h with }
  · exact h

theorem view_unprojected (io : Io) (w v : World) (e : EventRecord) (h : View mine w v) :
    View mine (projectStep io w e) v := by
  unfold projectStep
  split_ifs
  · exact { h with }
  · exact h

theorem view_untraced (S : Service) (io : Io) (w v : World) (e : EventRecord)
    (h : View mine w v) : View mine (traceStep S io w e) v := by
  unfold traceStep
  split_ifs
  · exact { h with }
  · exact h

section Others
variable (n : ℕ) (hn : mine n = false)

include hn

theorem view_other_insert (w v : World) (b : Batch) (h : View mine w v) :
    View mine (insertStep n w b).1 v := by
  refine ⟨h.now, h.webhooks, ?_, h.published, h.deliveries, h.absent, h.own⟩
  have hnone : ((newEvents w b).map (fun e => (⟨n, toRow e⟩ : StoredEvent))).filter
      (fun r => mine r.request) = [] := by
    rw [List.filter_eq_nil_iff]
    intro r hr
    obtain ⟨e, -, rfl⟩ := List.mem_map.mp hr
    simp [hn]
  simp only [insertStep, List.filter_append, hnone, List.append_nil, h.events]

theorem view_other_publish (q : EventsRequest) (w v : World) (f : FanOut) (e : EventRecord)
    (todo : List EventRecord) (h : View mine w v) :
    View mine (publishStep n q w f e todo).1 v := by
  unfold publishStep
  split_ifs
  · refine ⟨h.now, h.webhooks, h.events, ?_, h.deliveries, h.absent, h.own⟩
    simp [List.filter_append, hn, h.published]
  · exact h

theorem view_other_deliver (w v : World) (j : Job) (h : View mine w v) :
    View mine (deliver n w j) v := by
  refine ⟨h.now, h.webhooks, h.events, h.published, ?_, h.absent, h.own⟩
  simp [deliver, List.filter_append, hn, h.deliveries]

theorem view_other_persist (io : Io) (q : EventsRequest) (w v : World) (ran : Option FanOut)
    (a : Answer) (hrec : ∀ k, (lookup w.responses eventsScope k).isSome =
      (w.winners.lookup k).isSome) (h : View mine w v) :
    View mine (persistStep io n w q ran a).1 v := by
  rcases persist_stores io n q ran a with hsame | ⟨k, hstored⟩
  · rw [hsame]
    exact h
  · rw [hstored]
    refine ⟨h.now, h.webhooks, h.events, h.published, h.deliveries, ?_, ?_⟩
    · intro k' hk'
      rw [lookup_stored] at hk'
      split_ifs at hk'
      exact h.absent k' hk'
    · intro k' m hm hmine
      rw [winner_stored n a k k' w (hrec k)] at hm
      rw [lookup_stored]
      split_ifs at hm ⊢ with hk
      · subst hk
        have hsome := hrec k'
        cases hwin : w.winners.lookup k' with
        | none =>
          rw [hwin] at hm
          cases hm
          exact absurd (hn.symm.trans hmine) Bool.false_ne_true
        | some m' =>
          rw [hwin] at hm hsome
          cases hm
          obtain ⟨r, hr⟩ := Option.isSome_iff_exists.mp hsome
          rw [h.own k' m' hwin hmine, hr]
          rfl
      · exact h.own k' m hm hmine

end Others

section Own
variable (n : ℕ) (hn : mine n = true)

theorem newEvents_view (w v : World) (b : Batch) (h : View mine w v)
    (hapart : ∀ e ∈ b.normalized, ∀ r ∈ w.events, mine r.request = false → r.row.id ≠ e.id) :
    newEvents v b = newEvents w b := by
  unfold newEvents
  apply List.filter_congr
  intro e he
  have hnorm := (firstOfEach_sublist [] b.normalized).subset he
  congr 1
  rw [h.events, Bool.eq_iff_iff, List.any_eq_true, List.any_eq_true]
  constructor
  · rintro ⟨r, hr, hid⟩
    exact ⟨r, List.mem_of_mem_filter hr, hid⟩
  · rintro ⟨r, hr, hid⟩
    refine ⟨r, List.mem_filter.mpr ⟨hr, ?_⟩, hid⟩
    by_contra hmine
    exact hapart e hnorm r hr (Bool.not_eq_true _ ▸ hmine) (of_decide_eq_true hid)

include hn

theorem view_own_insert (w v : World) (b : Batch) (h : View mine w v)
    (hnew : newEvents v b = newEvents w b) :
    View mine (insertStep n w b).1 (insertStep n v b).1 := by
  have hall : ((newEvents w b).map (fun e => (⟨n, toRow e⟩ : StoredEvent))).filter
      (fun r => mine r.request) = (newEvents w b).map (fun e => ⟨n, toRow e⟩) := by
    rw [List.filter_eq_self]
    intro r hr
    obtain ⟨e, -, rfl⟩ := List.mem_map.mp hr
    exact hn
  exact { h with events := by simp only [insertStep, List.filter_append, hall, h.events, hnew] }

theorem view_own_publish (q : EventsRequest) (w v : World) (f : FanOut) (e : EventRecord)
    (todo : List EventRecord) (h : View mine w v) :
    View mine (publishStep n q w f e todo).1 (publishStep n q v f e todo).1 := by
  unfold publishStep
  split_ifs
  · exact { h with published := by simp [List.filter_append, hn, h.published] }
  · exact h

theorem view_own_deliver (w v : World) (j : Job) (h : View mine w v) :
    View mine (deliver n w j) (deliver n v j) :=
  { h with deliveries := by simp [deliver, List.filter_append, hn, h.deliveries] }

omit hn in
theorem view_own_persist (io : Io) (q : EventsRequest) (w v : World) (ran : Option FanOut)
    (a : Answer) (hrec : ∀ k, (lookup w.responses eventsScope k).isSome =
      (w.winners.lookup k).isSome) (h : View mine w v) :
    View mine (persistStep io n w q ran a).1 (persistStep io n v q ran a).1 := by
  rcases persist_stores io n q ran a with hsame | ⟨k, hstored⟩
  · rw [hsame, hsame]
    exact h
  · rw [hstored, hstored]
    refine ⟨h.now, h.webhooks, h.events, h.published, h.deliveries, ?_, ?_⟩
    · intro k' hk'
      rw [lookup_stored] at hk' ⊢
      split_ifs at hk' ⊢
      exact h.absent k' hk'
    · intro k' m hm hmine
      rw [winner_stored n a k k' w (hrec k)] at hm
      rw [lookup_stored, lookup_stored]
      split_ifs at hm ⊢ with hk
      · subst hk
        have hsome := hrec k'
        cases hwin : w.winners.lookup k' with
        | none =>
          rw [hwin, Option.isSome_none, Option.isSome_eq_false_iff,
            Option.isNone_iff_eq_none] at hsome
          rw [hsome, h.absent k' hsome]
        | some m' =>
          rw [hwin] at hm
          cases hm
          rw [h.own k' m' hwin hmine]
      · exact h.own k' m hm hmine

omit hn in
theorem lookup_view (q : EventsRequest) (w v : World) (body : Json) (h : View mine w v)
    (hrec : ∀ k, (lookup w.responses eventsScope k).isSome = (w.winners.lookup k).isSome)
    (hguard : ∀ k m, keyHeader q.headers = .key k → w.winners.lookup k = some m →
      mine m = true) : lookupStep v q body = lookupStep w q body := by
  unfold lookupStep
  cases hkey : keyHeader q.headers with
  | key k =>
    have hsome := hrec k
    cases hwin : w.winners.lookup k with
    | none =>
      rw [hwin, Option.isSome_none, Option.isSome_eq_false_iff, Option.isNone_iff_eq_none] at hsome
      simp only [hsome, h.absent k hsome]
    | some m => simp only [h.own k m hwin (hguard k m hkey hwin)]
  | _ => rfl

omit hn in
theorem persist_phase_view (io : Io) (q : EventsRequest) (w v : World) (ran : Option FanOut)
    (a : Answer) : (persistStep io n w q ran a).2 = (persistStep io n v q ran a).2 := by
  unfold persistStep
  split
  · split_ifs <;> rfl
  · rfl

theorem own_step (S : Service) (q : EventsRequest) (io : Io) (w v w' : World) (ph ph' : Phase)
    (h : View mine w v)
    (hrec : ∀ k, (lookup w.responses eventsScope k).isSome = (w.winners.lookup k).isSome)
    (hguard : ∀ body k m, io = .ok → ph = .keyed body → keyHeader q.headers = .key k →
      w.winners.lookup k = some m → mine m = true)
    (hapart : ∀ b, ph = .inserting b → ∀ e ∈ b.normalized, ∀ r ∈ w.events,
      mine r.request = false → r.row.id ≠ e.id)
    (hs : eventStep S n q io w ph = some (w', ph')) :
    ∃ v' ph'', eventStep S n q io v ph = some (v', ph'') ∧ View mine w' v' ∧
      SamePhase ph' ph'' := by
  have hmove : ∃ v' ph'', Move S n q v io ph v' ph'' ∧ View mine w' v' ∧ SamePhase ph' ph'' := by
    cases step_move S n q io w w' ph ph' hs with
    | receive => exact ⟨v, _, .receive, h, Or.inl rfl⟩
    | find body =>
      have hphase := lookup_view q w v body h hrec (fun k m => hguard body k m rfl rfl)
      exact ⟨v, _, .find body, h, Or.inl hphase.symm⟩
    | unfound body => exact ⟨v, _, .unfound body, h, Or.inl rfl⟩
    | prepare body =>
      have hphase : prepareStep S w q body = prepareStep S v q body := by
        unfold prepareStep
        rw [h.now]
      exact ⟨v, _, .prepare body, h, Or.inl hphase⟩
    | insert b =>
      have hnew := newEvents_view w v b h (hapart b rfl)
      have hphase : (insertStep n w b).2 = (insertStep n v b).2 := by
        simp only [insertStep, hnew]
      exact ⟨_, _, .insert b, view_own_insert n hn w v b h hnew, Or.inl hphase⟩
    | uninserted b => exact ⟨v, _, .uninserted b, h, Or.inl rfl⟩
    | list b ids => exact ⟨v, _, .list b ids, h, Or.inl (by rw [h.webhooks])⟩
    | unlisted b ids => exact ⟨v, _, .unlisted b ids, h, Or.inl rfl⟩
    | published f => exact ⟨v, _, .published f, h, Or.inl rfl⟩
    | publish f e todo =>
      exact ⟨_, _, .publish f e todo, view_own_publish n hn q w v f e todo h, Or.inl rfl⟩
    | project f e todo hio =>
      exact ⟨_, _, .project f e todo hio, view_project io w v e h, Or.inl rfl⟩
    | trace f e todo hio =>
      exact ⟨_, _, .trace f e todo hio, view_trace S io w v e h, Or.inl rfl⟩
    | slice f todo => exact ⟨v, _, .slice f todo, h, Or.inl rfl⟩
    | deliver f pending todo i j hj =>
      exact ⟨_, _, .deliver f pending todo i j hj, view_own_deliver n hn w v j h, Or.inl rfl⟩
    | lose f pending todo i j hj => exact ⟨v, _, .lose f pending todo i j hj, h, Or.inl rfl⟩
    | persist ran a hio =>
      exact ⟨_, _, .persist ran a hio, view_own_persist n io q w v ran a hrec h,
        Or.inl (persist_phase_view n io q w v ran a)⟩
    | settle ran a =>
      obtain ⟨a₁, replayed₁, hp₁⟩ := settle_phase w q ran a
      obtain ⟨a₂, replayed₂, hp₂⟩ := settle_phase v q ran a
      exact ⟨v, _, .settle ran a, h, Or.inr ⟨ran, a₁, a₂, replayed₁, replayed₂, hp₁, hp₂⟩⟩
    | unsettled ran a => exact ⟨v, _, .unsettled ran a, h, Or.inl rfl⟩
    | gone webhookId _ hd =>
      obtain ⟨hd', hview⟩ := view_gone n hn webhookId w v h hd
      exact ⟨_, _, .gone webhookId ph hd', hview, Or.inl rfl⟩
  obtain ⟨v', ph'', hm, hview, hphase⟩ := hmove
  exact ⟨v', ph'', move_step S n q io v v' ph ph'' hm, hview, hphase⟩

end Own

end Views

section Isolation

/-- Digests are of full length, random ids are random, and no two producers
hash what collides. -/
structure Independent (R : IdRuntime) (ls : List Event) : Prop where
  digest : ∀ t, (R.sha256 t).length = 32
  random : ∀ n q, .start n q ∈ ls → RandomIds q
  apart : ∀ n q m q', .start n q ∈ ls → .start m q' ∈ ls →
    producerKey R q ≠ producerKey R q' → Apart R q q'

theorem isOf_true (R : IdRuntime) (key : Option Text) (ls : List Event) (n : ℕ)
    (h : isOf R key ls n = true) : ∃ q, .start n q ∈ ls ∧ producerKey R q = key := by
  obtain ⟨⟨m, q⟩, hx, hp⟩ := List.any_eq_true.mp h
  simp only [Bool.and_eq_true, decide_eq_true_eq] at hp
  obtain ⟨rfl, hkey⟩ := hp
  exact ⟨q, (mem_starts ls m q).mp hx, hkey⟩

theorem isOf_false (R : IdRuntime) (key : Option Text) (ls : List Event) (n : ℕ)
    (q : EventsRequest) (h : isOf R key ls n = false) (hq : .start n q ∈ ls) :
    producerKey R q ≠ key := by
  intro hkey
  have := List.any_eq_false.mp h (n, q) ((mem_starts ls n q).mpr hq)
  simp [hkey] at this

theorem sent_kept (S : Service) (legal : ℕ → EventsRequest → Prop) :
    Kept (ingest S) (Recorded S.runtime legal) (Sent S.runtime legal)
      (fun l => ∀ n q, l = .start n q → legal n q) := by
  constructor
  · intro e w v _ hw he
    cases e with
    | tick ms => cases he; exact ⟨⟨hw.rows, hw.winners⟩, fun _ _ h => h⟩
    | setWebhooks webhooks => cases he; exact ⟨⟨hw.rows, hw.winners⟩, fun _ _ h => h⟩
    | setManifests manifests => cases he; exact ⟨⟨hw.rows, hw.winners⟩, fun _ _ h => h⟩
  · exact fun n q w hlegal _ => ⟨hlegal n q rfl, trivial⟩
  · intro n io w t v u _ hw ht ha
    simp only [ingest, act, Option.map_eq_some_iff, Prod.exists, Prod.mk.injEq] at ha
    obtain ⟨v', ph, hs, rfl, rfl⟩ := ha
    exact ⟨recorded_step S n t.request io w v' t.phase ph ht.1 hw ht.2 hs,
      ⟨ht.1, origin_step S n t.request io w v' t.phase ph ht.2 hs⟩, fun _ _ _ h => h⟩

theorem view_other (S : Service) (mine : ℕ → Bool) (n : ℕ) (q : EventsRequest) (io : Io)
    (w w' v : World) (ph ph' : Phase) (hn : mine n = false)
    (hrec : ∀ k, (lookup w.responses eventsScope k).isSome = (w.winners.lookup k).isSome)
    (hoff : ∀ webhookId, io = .gone webhookId → activeWebhook w webhookId = false)
    (hs : eventStep S n q io w ph = some (w', ph')) (h : View mine w v) : View mine w' v := by
  cases step_move S n q io w w' ph ph' hs with
  | insert b => exact view_other_insert n hn w v b h
  | publish f e todo => exact view_other_publish n hn q w v f e todo h
  | project f e todo => exact view_unprojected io w v e h
  | trace f e todo => exact view_untraced S io w v e h
  | deliver f pending todo i j => exact view_other_deliver n hn w v j h
  | persist ran a => exact view_other_persist n hn io q w v ran a hrec h
  | gone webhookId _ _ =>
    rw [switchOff_inactive webhookId w (hoff webhookId rfl)]
    exact h
  | _ => exact h

theorem isolated (S : Service) (key : Option Text) (ls : List Event) (s p : State)
    (hids : Independent S.runtime ls) (hr : run (next S) ls s = some p) :
    Repeatable (isOf S.runtime key ls) (ingest S) (View (isOf S.runtime key ls)) SameThread
      (fun l p => Holds (Recorded S.runtime (fun n q => .start n q ∈ ls))
        (Sent S.runtime (fun n q => .start n q ∈ ls)) p ∧
        Undisturbed (isOf S.runtime key ls) l p) := by
  constructor
  · exact fun e p w v _ h he => view_env e p.world w v h he
  · exact fun q => ⟨rfl, Or.inl rfl⟩
  · intro n io p t w u v hn hok ht ha h
    simp only [ingest, act, Option.map_eq_some_iff, Prod.exists, Prod.mk.injEq] at ha
    obtain ⟨w', ph, hs, rfl, rfl⟩ := ha
    apply view_other S _ n t.request io p.world w' v t.phase ph hn hok.1.world.winners _ hs h
    rintro webhookId rfl
    exact hok.2 hn
  · intro n io p t w u v x hn hok ht ha h hsame
    simp only [ingest, act, Option.map_eq_some_iff, Prod.exists, Prod.mk.injEq] at ha ⊢
    obtain ⟨w', ph, hs, rfl, rfl⟩ := ha
    obtain ⟨q, hq, hkey⟩ := isOf_true S.runtime key ls n hn
    have hsent := hok.1.thread n
    rw [ht] at hsent
    have hown : producerKey S.runtime t.request = key :=
      started_once (ingest S) ls s _ hr n q t.request hq hsent.1 ▸ hkey
    have hapart : ∀ b, t.phase = .inserting b → ∀ e ∈ b.normalized, ∀ r ∈ p.world.events,
        isOf S.runtime key ls r.request = false → r.row.id ≠ e.id := by
      intro b hb e he r hrow hmine hid
      have hgives := hsent.2
      rw [hb] at hgives
      obtain ⟨q', hq', hgives'⟩ := hok.1.world.rows r hrow
      have hne : producerKey S.runtime t.request ≠ producerKey S.runtime q' :=
        fun heq => isOf_false S.runtime key ls r.request q' hmine hq' (heq.symm.trans hown)
      exact gives_apart S.runtime hids.digest t.request q' (hids.random _ _ hsent.1)
        (hids.random _ _ hq') (hids.apart _ _ _ _ hsent.1 hq' hne) hne e.id (hgives e he)
        (hid ▸ hgives')
    obtain ⟨hreq, hphase⟩ := hsame
    rcases hphase with hphase | ⟨ran, a, a', replayed, replayed', hphase, hphase'⟩
    · have hguard : ∀ body k m, io = .ok → t.phase = .keyed body →
          keyHeader t.request.headers = .key k → p.world.winners.lookup k = some m →
            isOf S.runtime key ls m = true := by
        rintro body k m rfl hb hk hm
        apply hok.2 hn m
        simp only [foundWinner, ht, Option.bind_some, hb, hk]
        exact hm
      obtain ⟨v', ph'', hs', hview, hsame'⟩ := own_step n hn S t.request io p.world v w' t.phase
        ph h hok.1.world.winners hguard hapart hs
      rw [hreq, hphase] at hs'
      exact ⟨v', _, ⟨v', ph'', hs', rfl, rfl⟩, hview, hreq, hsame'⟩
    · rw [hphase] at hs
      cases step_move S n t.request io p.world w' _ ph hs with
      | gone webhookId _ hd =>
        obtain ⟨hd', hview⟩ := view_gone n hn webhookId p.world v h hd
        have hs' := move_step S n x.request (.gone webhookId) v _ x.phase _ (.gone webhookId _ hd')
        exact ⟨_, _, ⟨_, _, hs', rfl, rfl⟩, hview, hreq,
          Or.inr ⟨ran, a, a', replayed, replayed', rfl, hphase'⟩⟩

/-- What a producer stores, publishes and enqueues is what it does alone, and its
requests get as far. -/
theorem producer_isolation (S : Service) (now : Instant) (webhooks : List Webhook)
    (key : Option Text) (ls : List Event) (p : State) (hids : Independent S.runtime ls)
    (hg : Guarded (next S) (Undisturbed (isOf S.runtime key ls)) ls (start now webhooks))
    (hr : run (next S) ls (start now webhooks) = some p) :
    ∃ q, run (next S) (ls.filter (keeps (isOf S.runtime key ls))) (start now webhooks) = some q ∧
      q.world.events = p.world.events.filter (fun r => isOf S.runtime key ls r.request) ∧
      q.world.published = p.world.published.filter (fun x => isOf S.runtime key ls x.request) ∧
      q.world.deliveries =
        p.world.deliveries.filter (fun d => isOf S.runtime key ls d.request) ∧
      ∀ n, isOf S.runtime key ls n = true → Option.Rel SameThread (p.thread n) (q.thread n) := by
  have hinv := guarded_holds (fun l => ∀ n q, l = .start n q → .start n q ∈ ls)
    (sent_kept S (fun n q => .start n q ∈ ls)) ls (start now webhooks)
    (fun l hl n q heq => heq ▸ hl)
    ⟨⟨fun r hr => absurd hr List.not_mem_nil, fun k => rfl⟩, fun n => trivial⟩
  have hshows : Shows (isOf S.runtime key ls) (View (isOf S.runtime key ls)) SameThread
      (start now webhooks) (start now webhooks) := by
    constructor
    · exact ⟨rfl, rfl, rfl, rfl, rfl, fun k h => h, fun k m h => by cases h⟩
    · exact fun n _ => Option.Rel.none
    · exact fun n _ => rfl
  obtain ⟨q, hq, hshow⟩ := run_erased (isolated S key ls (start now webhooks) p hids hr) ls
    (start now webhooks) p (start now webhooks) (guarded_and _ _ _ _ _ hinv hg) hshows hr
  exact ⟨q, hq, hshow.world.events, hshow.world.published, hshow.world.deliveries, hshow.own⟩

end Isolation

section Scenario
open ControlPlane.EventFanout
open ControlPlane.EventIdentity (sampleRuntime)
open ControlPlane.RequestGate (HeaderField)

def otherAuthorization : HeaderField := ⟨js "authorization", js "Bearer other", by decide⟩

def otherProducer : Option Text := some (js "apikey:d9298a10d1b07358")

def otherId : Text := js "7b8f6d52-93c1-4f0e-8a64-5d2e9c1b7a30"

def firstRequest : EventsRequest := batch [authorization, idempotencyKey] [.obj []] [randomId]

def secondRequest : EventsRequest :=
  batch [otherAuthorization, idempotencyKey] [.obj []] [otherId]

def oneKey : List Event :=
  .start 0 firstRequest::List.replicate 13 (.act 0 .ok : Event)++
    .start 1 secondRequest::List.replicate 2 (.act 1 .ok : Event)

/-- The second producer comes first, and finds its own response later. -/
def ownKey : List Event :=
  .start 1 secondRequest::List.replicate 13 (.act 1 .ok : Event)++
    .start 0 firstRequest::List.replicate 2 (.act 0 .ok : Event)++
    .start 2 secondRequest::List.replicate 2 (.act 2 .ok : Event)

theorem digest_length (t : Text) : (runtime.sha256 t).length = 32 := by
  simp only [runtime, sampleRuntime]
  split_ifs <;> rfl

theorem apart_untimed (q q' : EventsRequest) (h : entries q = [.obj []])
    (h' : entries q' = [.obj []]) (hne : q.random 0 ≠ q'.random 0) : Apart runtime q q' := by
  constructor
  · intro i hi j hj
    rw [h, List.length_singleton] at hi
    rw [h', List.length_singleton] at hj
    obtain rfl : i = 0 := by omega
    obtain rfl : j = 0 := by omega
    exact hne
  · intro raw hraw raw' _ ht
    rw [h, List.mem_singleton] at hraw
    subst hraw
    exact absurd ht (by decide)

theorem random_untimed (q : EventsRequest) (h : entries q = [.obj []])
    (hv : (q.random 0)[14]? = some 0x34) : RandomIds q := by
  intro i hi
  rw [h, List.length_singleton] at hi
  obtain rfl : i = 0 := by omega
  exact hv

theorem independent_samples (ls : List Event)
    (h : ∀ x ∈ starts ls, x.2 = firstRequest ∨ x.2 = secondRequest) : Independent runtime ls := by
  constructor
  · exact digest_length
  · intro n q hq
    rcases h (n, q) ((mem_starts ls n q).mpr hq) with rfl | rfl
    · exact random_untimed _ rfl (by decide)
    · exact random_untimed _ rfl (by decide)
  · intro n q m q' hq hq' hne
    rcases h (n, q) ((mem_starts ls n q).mpr hq) with rfl | rfl
    · rcases h (m, q') ((mem_starts ls m q').mpr hq') with rfl | rfl
      · exact absurd rfl hne
      · exact apart_untimed _ _ rfl rfl (by decide)
    · rcases h (m, q') ((mem_starts ls m q').mpr hq') with rfl | rfl
      · exact apart_untimed _ _ rfl rfl (by decide)
      · exact absurd rfl hne

theorem producer_isolation_own_key :
    ∃ p, run (next service) ownKey (start 0 []) = some p ∧ answersOf p 2 =
        some (.counted 1 0 [] 1 0, true) ∧
      ∃ q, run (next service) (ownKey.filter (keeps (isOf runtime otherProducer ownKey)))
          (start 0 []) = some q ∧
        q.world.events =
          p.world.events.filter (fun r => isOf runtime otherProducer ownKey r.request) ∧
        q.world.published =
          p.world.published.filter (fun x => isOf runtime otherProducer ownKey x.request) ∧
        q.world.deliveries =
          p.world.deliveries.filter (fun d => isOf runtime otherProducer ownKey d.request) ∧
        ∀ n, isOf runtime otherProducer ownKey n = true →
          Option.Rel SameThread (p.thread n) (q.thread n) := by
  have hrun : (run (next service) ownKey (start 0 [])).map (fun p => answersOf p 2) =
      some (some (.counted 1 0 [] 1 0, true)) := by decide +kernel
  obtain ⟨p, hp, hanswer⟩ := Option.map_eq_some_iff.mp hrun
  have hids : Independent runtime ownKey :=
    independent_samples ownKey (by
      have hstarts : starts ownKey = [(1, secondRequest), (0, firstRequest), (2, secondRequest)] :=
        rfl
      rw [hstarts]
      simp)
  exact ⟨p, hp, hanswer, producer_isolation service 0 [] otherProducer ownKey p hids
    (by decide +kernel) hp⟩

/-- The second producer is answered with the first one's response, and its
event is lost. Without the first one it is stored. -/
theorem foreign_response_suppresses :
    Independent runtime oneKey ∧
      (∃ p, run (next service) oneKey (start 0 []) = some p ∧
        answersOf p 1 = some (.counted 1 0 [] 1 0, true) ∧
        (p.world.events.filter (fun r => isOf runtime otherProducer oneKey r.request)).length =
          0) ∧
      ∃ q, run (next service) (oneKey.filter (keeps (isOf runtime otherProducer oneKey))++
          List.replicate 11 (.act 1 .ok)) (start 0 []) = some q ∧
        answersOf q 1 = some (.counted 1 0 [] 1 0, false) ∧ q.world.events.length = 1 := by
  refine ⟨?_, ?_, ?_⟩
  · apply independent_samples
    have hstarts : starts oneKey = [(0, firstRequest), (1, secondRequest)] := rfl
    rw [hstarts]
    simp
  · have hrun : (run (next service) oneKey (start 0 [])).map (fun p => (answersOf p 1,
        (p.world.events.filter (fun r => isOf runtime otherProducer oneKey r.request)).length)) =
          some (some (.counted 1 0 [] 1 0, true), 0) := by decide +kernel
    obtain ⟨p, hp, h⟩ := Option.map_eq_some_iff.mp hrun
    exact ⟨p, hp, Prod.mk.inj h⟩
  · have hrun : (run (next service) (oneKey.filter (keeps (isOf runtime otherProducer oneKey))++
        List.replicate 11 (.act 1 .ok)) (start 0 [])).map (fun q =>
          (answersOf q 1, q.world.events.length)) =
            some (some (.counted 1 0 [] 1 0, false), 1) := by decide +kernel
    obtain ⟨q, hq, h⟩ := Option.map_eq_some_iff.mp hrun
    exact ⟨q, hq, Prod.mk.inj h⟩

end Scenario

end ControlPlane.ProducerIsolation
