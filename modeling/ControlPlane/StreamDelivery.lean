import ControlPlane.EventStream
import ControlPlane.SseText
import ControlPlane.ThreadPool

/-!
# What an event stream delivers

The frames of one stream, while its own frames do not fail and whatever the
others do. It starts with the replay of the backlog, goes on with every later
publish until it is closed, and sends each identifier once; a reader of the
bytes gets the records back, with numbers that JSON cannot write as null.
-/

set_option autoImplicit false

namespace ControlPlane.StreamDelivery
open ControlPlane.JsText ControlPlane.JsValue ControlPlane.JsonReader ControlPlane.Utf8Text
open ControlPlane.RunMachine ControlPlane.EventStream
open ControlPlane.ThreadPool (set_self set_other)

def Detached (i : ℕ) (x y : Local) : Prop :=
  y.1.bus.listeners = x.1.bus.listeners ∨
    y.1.bus.listeners = x.1.bus.listeners.filter (· ≠ i)

theorem detached_trans (i : ℕ) (x y z : Local) (hxy : Detached i x y) (hyz : Detached i y z) :
    Detached i x z := by
  rcases hxy with hxy | hxy
  · rw [Detached, ← hxy]
    exact hyz
  · right
    rcases hyz with hyz | hyz
    · rw [hyz, hxy]
    · rw [hyz, hxy, List.filter_filter]
      simp

theorem detached_terminate (i : ℕ) (w : Shared) (s : Stream) (x : Local)
    (h : w.bus.listeners = x.1.bus.listeners) : Detached i x (terminate i (w, s)) := by
  rw [Detached, ← h]
  simp only [terminate, cleanup]
  split_ifs
  · exact Or.inl rfl
  · exact Or.inr rfl
  · exact Or.inl rfl

theorem detached_sendEvent (i : ℕ) (fail : Bool) (e : AuditEventRecord) (x : Local) :
    Detached i x (sendEvent i fail e x) := by
  simp only [sendEvent]
  split_ifs
  · exact Or.inl rfl
  · split
    · exact Or.inl rfl
    · exact detached_terminate i _ _ x rfl

theorem detached_sendAll (i : ℕ) (fails : ℕ → Bool) (es : List AuditEventRecord) (x : Local) :
    Detached i x (sendAll i fails es x) := by
  induction es generalizing x with
  | nil => exact Or.inl rfl
  | cons e es ih => exact detached_trans i _ _ _ (detached_sendEvent i _ e x) (ih _)

theorem detached_onPublish (i : ℕ) (fail : Bool) (e : AuditEventRecord) (x : Local) :
    Detached i x (onPublish i fail e x) := by
  simp only [onPublish]
  split_ifs
  · exact Or.inl rfl
  · exact detached_sendEvent i fail e x
  · exact Or.inl rfl

theorem detached_tick (i : ℕ) (fail : Bool) (x : Local) : Detached i x (tick i fail x) := by
  simp only [tick]
  split_ifs
  · exact detached_terminate i _ _ x rfl
  · split
    · exact Or.inl rfl
    · exact detached_terminate i _ _ x rfl

theorem detached_abort (i : ℕ) (x : Local) : Detached i x (abort i x) := by
  simp only [abort]
  split_ifs
  · exact Or.inl rfl
  · exact detached_terminate i _ _ x rfl
  · exact Or.inl rfl

theorem detached_cancel (i : ℕ) (x : Local) : Detached i x (cancel i x) :=
  detached_terminate i _ _ x rfl

theorem detached_replay (i : ℕ) (fails : ℕ → Bool) (x : Local) :
    Detached i x (replay i fails x) := detached_sendAll i fails _ x

theorem detached_drain (i : ℕ) (fails : ℕ → Bool) (x : Local) : Detached i x (drain i fails x) := by
  have h := detached_sendAll i fails x.2.subscriptionBuffer (x.1, { x.2 with draining := false })
  simp only [Detached, drain] at h ⊢
  exact h

theorem accepted_listeners (cfg : Config) (filters : Filters) (aborted prelude : Bool)
    (fails : ℕ → Bool) (p : Process) (hnew : p.streams.length ∉ p.shared.bus.listeners) :
    (accepted cfg filters aborted prelude fails p).1.bus.listeners = p.shared.bus.listeners ∨
    (accepted cfg filters aborted prelude fails p).1.bus.listeners =
      p.shared.bus.listeners++[p.streams.length] := by
  have hkeep : (p.shared.bus.listeners++[p.streams.length]).filter (· ≠ p.streams.length) =
      p.shared.bus.listeners := by
    rw [List.filter_append, List.filter_eq_self.mpr]
    · simp
    · intro j hj
      rw [decide_eq_true_eq]
      rintro rfl
      exact hnew hj
  rw [accepted]
  cases hq : enqueue prelude (preludeText cfg.sseHeartbeatMs) (opening filters aborted) with
  | none =>
    rw [start_failed _ _ _ _ _ _ hq]
    exact Or.inl rfl
  | some s =>
    have hx := (acquireSseSlot p.shared).bus.subscribe_new p.streams.length hnew
    have hd := detached_trans _ _ _ _
      (detached_replay p.streams.length fails
        (subscribed p.streams.length (acquireSseSlot p.shared, s)))
      (detached_drain p.streams.length fails _)
    rw [start_shared _ _ _ _ _ _ s hq]
    rcases hd with hd | hd
    · exact Or.inr (hd.trans hx)
    · exact Or.inl (hd.trans ((congrArg (List.filter _) hx).trans hkeep))

structure Wired (p : Process) : Prop where
  nodup : p.shared.bus.listeners.Nodup
  listed : ∀ j ∈ p.shared.bus.listeners, j < p.streams.length

theorem wired_on (i : ℕ) (p : Process) (f : Local → Local) (hp : Wired p)
    (hf : ∀ x, Detached i x (f x)) : Wired (p.on i f) := by
  rw [Process.on]
  cases hs : p.streams[i]? with
  | none => exact hp
  | some s =>
    have hsub : ∀ j ∈ (f (p.shared, s)).1.bus.listeners, j ∈ p.shared.bus.listeners := by
      rcases hf (p.shared, s) with h | h
      · rw [h]
        exact fun j hj => hj
      · rw [h]
        exact fun j hj => List.mem_of_mem_filter hj
    constructor
    · show (f (p.shared, s)).1.bus.listeners.Nodup
      rcases hf (p.shared, s) with h | h
      · rw [h]
        exact hp.nodup
      · rw [h]
        exact hp.nodup.filter _
    · intro j hj
      rw [List.length_set]
      exact hp.listed j (hsub j hj)

theorem wired_remember (p : Process) (e : AuditEventRecord) (hp : Wired p) :
    Wired (p.remember e) := by
  have hsame : (p.remember e).shared.bus.listeners = p.shared.bus.listeners :=
    p.shared.bus.remember_listeners e
  constructor
  · rw [hsame]
    exact hp.nodup
  · rw [hsame]
    exact hp.listed

theorem wired_deliver (fails : ℕ → Bool) (e : AuditEventRecord) (is : List ℕ) (p : Process)
    (hp : Wired p) : Wired (is.foldl (deliver fails e) p) := by
  induction is generalizing p with
  | nil => exact hp
  | cons i is ih => exact ih _ (wired_on i p _ hp (detached_onPublish i _ e))

theorem wired_get (cfg : Config) (param : Text → Option Text) (aborted prelude : Bool)
    (fails : ℕ → Bool) (p : Process) (hp : Wired p) :
    Wired (EventStream.get cfg param aborted prelude fails p) := by
  have hnew : p.streams.length ∉ p.shared.bus.listeners :=
    fun h => absurd (hp.listed _ h) (lt_irrefl _)
  rw [EventStream.get]
  split_ifs
  · exact ⟨hp.nodup, hp.listed⟩
  · have hlength : ∀ j, j < p.streams.length → j < p.streams.length+1 :=
      fun j hj => Nat.lt_succ_of_lt hj
    rcases accepted_listeners cfg (filtersOf param) aborted prelude fails p hnew with h | h
    · constructor
      · rw [h]
        exact hp.nodup
      · rw [h, List.length_append]
        exact fun j hj => hlength j (hp.listed j hj)
    · constructor
      · rw [h, List.nodup_append]
        refine ⟨hp.nodup, by simp, ?_⟩
        intro j hj k hk
        rw [List.mem_singleton.mp hk]
        rintro rfl
        exact hnew hj
      · rw [h, List.length_append]
        intro j hj
        rcases List.mem_append.mp hj with hj | hj
        · exact hlength j (hp.listed j hj)
        · rw [List.mem_singleton.mp hj]
          exact Nat.lt_succ_self _

theorem wired_step (cfg : Config) (l : Event) (p q : Process) (hp : Wired p)
    (hs : step cfg l p = some q) : Wired q := by
  cases step_move hs with
  | get param aborted prelude fails => exact wired_get cfg param aborted prelude fails p hp
  | publish e fails => exact wired_deliver fails e _ _ (wired_remember p e hp)
  | tick i fail => exact wired_on i p _ hp (detached_tick i fail)
  | abort i => exact wired_on i p _ hp (detached_abort i)
  | cancel i => exact wired_on i p _ hp (detached_cancel i)

theorem wired_run (cfg : Config) (ls : List Event) (p : Process)
    (hr : run (step cfg) ls (initial cfg) = some p) : Wired p :=
  run_invariant _ (fun _ _ => True) Wired (fun l s t _ => wired_step cfg l s t) ls _ p
    (guarded_true _ ls _) ⟨List.nodup_nil, fun _ hj => absurd hj List.not_mem_nil⟩ hr

theorem firsts_append (seen : List Text) (as bs : List AuditEventRecord) :
    firsts seen (as++bs) =
      firsts seen as++firsts (((firsts seen as).map (·.id)).reverse++seen) bs := by
  induction as generalizing seen with
  | nil => rfl
  | cons a as ih =>
    by_cases ha : a.id ∈ seen
    · rw [List.cons_append, firsts, if_pos ha, firsts, if_pos ha]
      exact ih seen
    · rw [List.cons_append, firsts, if_neg ha, firsts, if_neg ha, ih]
      simp

theorem filter_dataText (es : List AuditEventRecord) :
    (es.map dataText).filter (· ≠ heartbeatText) = es.map dataText := by
  rw [List.filter_eq_self]
  intro t ht
  obtain ⟨e, -, rfl⟩ := List.mem_map.mp ht
  rw [decide_eq_true_eq]
  intro heq
  exact absurd (List.cons.inj heq).1 (by decide)

/-- Stream `i` has sent these records so far, among the beats of its timer. -/
structure Following (cfg : Config) (i : ℕ) (f : Filters) (es : List AuditEventRecord)
    (p : Process) (s : Stream) : Prop where
  stream : p.streams[i]? = some s
  nodup : p.shared.bus.listeners.Nodup
  listed : i ∈ p.shared.bus.listeners ↔ s.closed = false
  subscribed : s.unsubscribe = !s.closed
  beating : s.heartbeat = !s.closed
  ended : s.ended = s.closed
  filters : s.filters = f
  live : s.draining = false
  seen : s.seenIds = ((firsts [] es).map (·.id)).reverse
  sent : ∃ ts, s.out = (preludeText cfg.sseHeartbeatMs::ts).map encodeUtf8 ∧
    ts.filter (· ≠ heartbeatText) = (firsts [] es).map dataText

section Steps
variable {cfg : Config} {i : ℕ} {f : Filters} {es : List AuditEventRecord} {p : Process}
  {s : Stream}

theorem on_some (h : p.streams[i]? = some s) (g : Local → Local) :
    p.on i g = ⟨(g (p.shared, s)).1, p.streams.set i (g (p.shared, s)).2⟩ := by
  rw [Process.on, h]

theorem follow_kept (h : Following cfg i f es p s) (q : Process) (hs : q.streams[i]? = some s)
    (hn : q.shared.bus.listeners.Nodup)
    (hl : i ∈ q.shared.bus.listeners ↔ i ∈ p.shared.bus.listeners) :
    Following cfg i f es q s := by
  constructor
  · exact hs
  · exact hn
  · exact hl.trans h.listed
  · exact h.subscribed
  · exact h.beating
  · exact h.ended
  · exact h.filters
  · exact h.live
  · exact h.seen
  · exact h.sent

theorem follow_other (j : ℕ) (g : Local → Local) (hj : j ≠ i) (hg : ∀ x, Detached j x (g x))
    (h : Following cfg i f es p s) : Following cfg i f es (p.on j g) s := by
  cases hs : p.streams[j]? with
  | none =>
    rw [Process.on, hs]
    exact h
  | some t =>
    rw [on_some hs]
    apply follow_kept h
    · show (p.streams.set j _)[i]? = some s
      rw [set_other _ _ _ _ hj.symm]
      exact h.stream
    · show (g (p.shared, t)).1.bus.listeners.Nodup
      rcases hg (p.shared, t) with hd | hd
      · rw [hd]
        exact h.nodup
      · rw [hd]
        exact h.nodup.filter _
    · show i ∈ (g (p.shared, t)).1.bus.listeners ↔ _
      rcases hg (p.shared, t) with hd | hd
      · rw [hd]
      · rw [hd]
        simp [hj.symm]

theorem follow_others (fails : ℕ → Bool) (e : AuditEventRecord) (is : List ℕ) (hi : i ∉ is)
    (h : Following cfg i f es p s) : Following cfg i f es (is.foldl (deliver fails e) p) s := by
  induction is generalizing p with
  | nil => exact h
  | cons j is ih =>
    rw [List.mem_cons, not_or] at hi
    exact ih hi.2 (follow_other j _ (Ne.symm hi.1) (detached_onPublish j _ e) h)

theorem follow_remember (e : AuditEventRecord) (h : Following cfg i f es p s) :
    Following cfg i f es (p.remember e) s := by
  have hsame : (p.remember e).shared.bus.listeners = p.shared.bus.listeners :=
    p.shared.bus.remember_listeners e
  apply follow_kept h
  · exact h.stream
  · rw [hsame]
    exact h.nodup
  · rw [hsame]

theorem follow_deliver (fails : ℕ → Bool) (e : AuditEventRecord) (hf : fails i = false)
    (ho : s.closed = false) (h : Following cfg i f es p s) :
    ∃ t, Following cfg i f (es++[e].filter (eventMatches f)) (deliver fails e p i) t ∧
      t.closed = false := by
  by_cases hm : eventMatches f e = true
  · have hlocal : onPublish i (fails i) e (p.shared, s) =
        (p.shared, s.sent (firsts s.seenIds [e])) := by
      rw [onPublish, h.filters, if_pos hm, h.live, if_neg Bool.false_ne_true, hf]
      exact sendEvent_sent i e (p.shared, s) (h.ended.trans ho)
    have hfirsts : firsts [] (es++[e]) = firsts [] es++firsts s.seenIds [e] := by
      rw [firsts_append, h.seen, List.append_nil]
    rw [deliver, on_some h.stream, hlocal, List.filter_cons, if_pos hm, List.filter_nil]
    apply Exists.intro (s.sent (firsts s.seenIds [e]))
    constructor
    · constructor
      · exact set_self _ _ _ _ h.stream
      · exact h.nodup
      · exact h.listed
      · exact h.subscribed
      · exact h.beating
      · exact h.ended
      · exact h.filters
      · exact h.live
      · rw [hfirsts, List.map_append, List.reverse_append, ← h.seen]
        rfl
      · obtain ⟨ts, hout, hts⟩ := h.sent
        apply Exists.intro (ts++(firsts s.seenIds [e]).map dataText)
        constructor
        · simp [Stream.sent, hout]
        · rw [List.filter_append, hts, hfirsts, List.map_append, filter_dataText]
    · exact ho
  · have hlocal : onPublish i (fails i) e (p.shared, s) = (p.shared, s) := by
      rw [onPublish, h.filters, if_neg hm]
    have hsame : deliver fails e p i = p := by
      obtain ⟨hlt, hget⟩ := List.getElem?_eq_some_iff.mp h.stream
      rw [deliver, on_some h.stream, hlocal]
      show (⟨p.shared, p.streams.set i s⟩ : Process) = p
      rw [← hget, List.set_getElem_self]
    rw [hsame, List.filter_cons, if_neg hm, List.filter_nil, List.append_nil]
    exact ⟨s, h, ho⟩

theorem follow_ended (a b : Bool) (h : Following cfg i f es p s) (y : Local)
    (hy : y = closeController (terminate i (p.shared, { s with aborted := a, onAbort := b }))) :
    Following cfg i f es ⟨y.1, p.streams.set i y.2⟩ y.2 := by
  by_cases hc : s.closed = true
  · have hlocal : y = (p.shared,
        { s with aborted := a, onAbort := b, signalled := true, ended := true }) := by
      rw [hy, terminate, cleanup, if_pos hc]
      rfl
    rw [hlocal]
    constructor
    · exact set_self _ _ _ _ h.stream
    · exact h.nodup
    · exact h.listed
    · exact h.subscribed
    · exact h.beating
    · exact hc.symm
    · exact h.filters
    · exact h.live
    · exact h.seen
    · exact h.sent
  · rw [Bool.not_eq_true] at hc
    have hu : s.unsubscribe = true := by
      rw [h.subscribed, hc]
      rfl
    have hbus : y.1.bus.listeners = p.shared.bus.listeners.filter (· ≠ i) := by
      simp [hy, closeController, terminate, cleanup, hc, hu, EventBus.unsubscribe,
        releaseSseSlot]
    have hstream : y.2 =
        { s with
          aborted := a, onAbort := b, signalled := true, ended := true, closed := true
          unsubscribe := false, heartbeat := false, released := s.released+1 } := by
      simp [hy, closeController, terminate, cleanup, hc]
    constructor
    · exact set_self _ _ _ _ h.stream
    · show y.1.bus.listeners.Nodup
      rw [hbus]
      exact h.nodup.filter _
    · show i ∈ y.1.bus.listeners ↔ _
      rw [hbus, hstream]
      simp
    · rw [hstream]
      rfl
    · rw [hstream]
      rfl
    · rw [hstream]
    · rw [hstream]
      exact h.filters
    · rw [hstream]
      exact h.live
    · rw [hstream]
      exact h.seen
    · rw [hstream]
      exact h.sent

theorem follow_beat (h : Following cfg i f es p s) :
    Following cfg i f es
      ⟨p.shared, p.streams.set i { s with out := s.out++[encodeUtf8 heartbeatText] }⟩
      { s with out := s.out++[encodeUtf8 heartbeatText] } := by
  constructor
  · exact set_self _ _ _ _ h.stream
  · exact h.nodup
  · exact h.listed
  · exact h.subscribed
  · exact h.beating
  · exact h.ended
  · exact h.filters
  · exact h.live
  · exact h.seen
  · obtain ⟨ts, hout, hts⟩ := h.sent
    apply Exists.intro (ts++[heartbeatText])
    constructor
    · simp [hout]
    · rw [List.filter_append, hts]
      simp

def Unfailing (i : ℕ) : Event → Prop
  | .publish _ fails => fails i = false
  | .tick j fail => j = i → fail = false
  | _ => True

/-- What a step publishes while stream `i` is not closed. -/
def published (i : ℕ) : Event → Process → List AuditEventRecord
  | .publish e _, p => if (p.streams[i]?.map (·.closed)).getD true then [] else [e]
  | _, _ => []

theorem follow_get (param : Text → Option Text) (aborted prelude : Bool) (fails : ℕ → Bool)
    (hw : Wired p) (h : Following cfg i f es p s) :
    Following cfg i f es (EventStream.get cfg param aborted prelude fails p) s := by
  have hnew : p.streams.length ∉ p.shared.bus.listeners :=
    fun hm => absurd (hw.listed _ hm) (lt_irrefl _)
  have hlt : i < p.streams.length := (List.getElem?_eq_some_iff.mp h.stream).1
  have hwired := wired_get cfg param aborted prelude fails p hw
  rw [EventStream.get] at hwired ⊢
  split_ifs at hwired ⊢
  · exact follow_kept h _ h.stream h.nodup Iff.rfl
  · apply follow_kept h
    · show (p.streams++_)[i]? = some s
      rw [List.getElem?_append_left hlt]
      exact h.stream
    · exact hwired.nodup
    · show i ∈ (accepted cfg (filtersOf param) aborted prelude fails p).1.bus.listeners ↔ _
      rcases accepted_listeners cfg (filtersOf param) aborted prelude fails p hnew with hl | hl
      · rw [hl]
      · rw [hl, List.mem_append, List.mem_singleton, or_iff_left hlt.ne]

theorem follow_publish (e : AuditEventRecord) (fails : ℕ → Bool) (hf : fails i = false)
    (h : Following cfg i f es p s) :
    ∃ t, Following cfg i f
      (es++(published i (.publish e fails) p).filter (eventMatches f)) (publish fails e p) t := by
  have hremember := follow_remember e h
  by_cases hc : s.closed = true
  · have hi : i ∉ p.shared.bus.listeners := by
      rw [h.listed, hc]
      decide
    rw [published, h.stream]
    simp only [Option.map_some, Option.getD_some, hc, if_true, List.filter_nil, List.append_nil]
    exact ⟨s, follow_others fails e _ hi hremember⟩
  · rw [Bool.not_eq_true] at hc
    obtain ⟨as, bs, hsplit⟩ := List.append_of_mem (h.listed.mpr hc)
    have hnodup := h.nodup
    rw [hsplit, List.nodup_append, List.nodup_cons] at hnodup
    have has : i ∉ as := fun hi => hnodup.2.2 i hi i List.mem_cons_self rfl
    obtain ⟨t, ht, -⟩ := follow_deliver fails e hf hc (follow_others fails e as has hremember)
    rw [published, h.stream, publish, hsplit, List.foldl_append, List.foldl_cons]
    simp only [Option.map_some, Option.getD_some, hc, Bool.false_eq_true, if_false]
    exact ⟨t, follow_others fails e bs hnodup.2.1.1 ht⟩

theorem follow_tick (fail : Bool) (hf : fail = false) (hb : s.heartbeat = true)
    (h : Following cfg i f es p s) : ∃ t, Following cfg i f es (p.on i (tick i fail)) t := by
  have hc : s.closed = false := by
    rw [h.beating] at hb
    simpa using hb
  rw [on_some h.stream]
  by_cases ha : s.aborted = true
  · exact ⟨_, follow_ended s.aborted s.onAbort h _ (by rw [tick, if_pos ha])⟩
  · have hlocal : tick i fail (p.shared, s) =
        (p.shared, { s with out := s.out++[encodeUtf8 heartbeatText] }) := by
      rw [tick, if_neg ha, enqueue, hf, h.ended, hc]
      rfl
    rw [hlocal]
    exact ⟨_, follow_beat h⟩

theorem follow_abort (h : Following cfg i f es p s) :
    ∃ t, Following cfg i f es (p.on i (abort i)) t := by
  rw [on_some h.stream]
  by_cases ha : s.aborted = true
  · have hlocal : abort i (p.shared, s) = (p.shared, s) := by rw [abort, if_pos ha]
    obtain ⟨hlt, hget⟩ := List.getElem?_eq_some_iff.mp h.stream
    have hset : p.streams.set i s = p.streams := by rw [← hget, List.set_getElem_self]
    rw [hlocal]
    simp only [hset]
    exact ⟨s, h⟩
  · by_cases hl : s.onAbort = true
    · apply Exists.intro _
      apply follow_ended true false h
      simp [abort, ha, hl]
    · have hlocal : abort i (p.shared, s) = (p.shared, { s with aborted := true }) := by
        simp [abort, ha, hl]
      rw [hlocal]
      apply Exists.intro { s with aborted := true }
      exact ⟨set_self _ _ _ _ h.stream, h.nodup, h.listed, h.subscribed, h.beating, h.ended,
        h.filters, h.live, h.seen, h.sent⟩

theorem follow_cancel (h : Following cfg i f es p s) :
    ∃ t, Following cfg i f es (p.on i (cancel i)) t := by
  rw [on_some h.stream]
  exact ⟨_, follow_ended s.aborted s.onAbort h _ rfl⟩

theorem follow_step (l : Event) (q : Process) (hl : Unfailing i l) (hw : Wired p)
    (h : Following cfg i f es p s) (hs : step cfg l p = some q) :
    ∃ t, Following cfg i f (es++(published i l p).filter (eventMatches f)) q t := by
  cases step_move hs with
  | get param aborted prelude fails =>
    simp only [published, List.filter_nil, List.append_nil]
    exact ⟨s, follow_get param aborted prelude fails hw h⟩
  | publish e fails =>
    exact follow_publish e fails hl h
  | tick j fail harmed =>
    simp only [published, List.filter_nil, List.append_nil]
    by_cases hj : j = i
    · subst hj
      rw [h.stream] at harmed
      exact follow_tick fail (hl rfl) harmed h
    · exact ⟨s, follow_other j _ hj (detached_tick j fail) h⟩
  | abort j =>
    simp only [published, List.filter_nil, List.append_nil]
    by_cases hj : j = i
    · subst hj
      exact follow_abort h
    · exact ⟨s, follow_other j _ hj (detached_abort j) h⟩
  | cancel j =>
    simp only [published, List.filter_nil, List.append_nil]
    by_cases hj : j = i
    · subst hj
      exact follow_cancel h
    · exact ⟨s, follow_other j _ hj (detached_cancel j) h⟩

end Steps

def later (cfg : Config) (i : ℕ) : List Event → Process → List AuditEventRecord
  | [], _ => []
  | l::ls, p => published i l p++((step cfg l p).map (later cfg i ls)).getD []

theorem follow_run (cfg : Config) (i : ℕ) (f : Filters) (ls : List Event)
    (es : List AuditEventRecord) (p q : Process) (s : Stream) (hl : ∀ l ∈ ls, Unfailing i l)
    (hw : Wired p) (h : Following cfg i f es p s) (hr : run (step cfg) ls p = some q) :
    ∃ t, Following cfg i f (es++(later cfg i ls p).filter (eventMatches f)) q t := by
  induction ls generalizing es p s with
  | nil =>
    simp only [run, Option.some.injEq] at hr
    subst hr
    rw [later, List.filter_nil, List.append_nil]
    exact ⟨s, h⟩
  | cons l ls ih =>
    obtain ⟨u, hu, hrest⟩ := (run_cons_some _ _ _ _ _).mp hr
    obtain ⟨hfirst, hothers⟩ := List.forall_mem_cons.mp hl
    obtain ⟨t, ht⟩ := follow_step l u hfirst hw h hu
    obtain ⟨v, hv⟩ := ih _ u t hothers (wired_step cfg l p u hw hu) ht hrest
    rw [later, hu, Option.map_some, Option.getD_some, List.filter_append, ← List.append_assoc]
    exact ⟨v, hv⟩

theorem follow_accepted (cfg : Config) (param : Text → Option Text) (aborted : Bool) (p : Process)
    (hw : Wired p) (hroom : p.shared.openCount < cfg.maxSseConnections) :
    ∃ s, Following cfg p.streams.length (filtersOf param)
      ((p.shared.bus.getBacklog 100).filter (eventMatches (filtersOf param)))
      (EventStream.get cfg param aborted false (fun _ => false) p) s := by
  have hnew : p.streams.length ∉ p.shared.bus.listeners :=
    fun h => absurd (hw.listed _ h) (lt_irrefl _)
  have hbus := p.shared.bus.subscribe_new p.streams.length hnew
  have hwired := wired_get cfg param aborted false (fun _ => false) p hw
  rw [EventStream.get, if_neg (not_le.mpr hroom)] at hwired ⊢
  rw [accepted_sent cfg (filtersOf param) aborted _ p (fun _ _ => rfl)] at hwired ⊢
  apply Exists.intro _
  constructor
  · simp only
    rw [List.getElem?_append_right (le_refl _), Nat.sub_self]
    rfl
  · exact hwired.nodup
  · show p.streams.length ∈ (p.shared.bus.subscribe p.streams.length).listeners ↔ _
    rw [hbus]
    simp [opening]
  · rfl
  · rfl
  · rfl
  · rfl
  · rfl
  · rfl
  · apply Exists.intro ((replayed (filtersOf param) p).map dataText)
    constructor
    · simp
    · exact filter_dataText _

section Reading
open ControlPlane.SseText ControlPlane.JsNumberText

/-- A reader of the bytes: UTF-8, the messages of the event stream, and JSON. -/
def readStream (bytes : Bytes) : Option (List Json) :=
  (decodeUtf8 bytes).bind (fun t => (messages t).mapM parseText)

def dataFrame (e : AuditEventRecord) : Frame := .message (stringify e.value)

def beatFrame : Frame := .quiet [js ": heartbeat", []]

def preludeFrame (heartbeatMs : ℚ) : Frame :=
  .quiet [js "retry: "++numberText heartbeatMs, js ": connected", []]

theorem dataFrame_text (e : AuditEventRecord) : (dataFrame e).text = dataText e := by
  have hend : js "\n\n" = [lineFeed, lineFeed] := by decide
  simp [dataFrame, Frame.text, Frame.lines, framed, dataLine, dataText, hend]

theorem beatFrame_text : beatFrame.text = heartbeatText := by decide

theorem preludeFrame_text (heartbeatMs : ℚ) :
    (preludeFrame heartbeatMs).text = preludeText heartbeatMs := by
  have hend : js "\n: connected\n\n" = lineFeed::(js ": connected"++[lineFeed, lineFeed]) := by
    decide
  simp [preludeFrame, Frame.text, Frame.lines, framed, preludeText, hend]

theorem unbroken_printable (t : Text) (h : Printable t) : Unbroken t := by
  intro u hu
  have hle := h.1 u hu
  constructor
  · rintro rfl
    exact absurd hle (by decide)
  · rintro rfl
    exact absurd hle (by decide)

theorem number_printable (q : ℚ) : Printable (numberText q) :=
  printable_plain _ (fun u hu => wordUnit_plain u (by
    rw [JsonText.isWordUnit, numberText_units q u hu, Bool.true_or]))

theorem dataFrame_proper (e : AuditEventRecord) : (dataFrame e).Proper :=
  unbroken_printable _ (write_printable _)

theorem printable_ascii (t : Text) (h : t.all isPlain = true) : Printable t :=
  printable_plain t (List.all_eq_true.mp h)

theorem beatFrame_proper : beatFrame.Proper := by
  intro line hline
  rcases List.mem_cons.mp hline with rfl | hline
  · exact ⟨unbroken_printable _ (printable_ascii _ (by decide)), by decide⟩
  · rw [List.mem_singleton.mp hline]
    exact ⟨unbroken_printable _ printable_nil, by decide⟩

theorem retryLine_printable (q : ℚ) : Printable (js "retry: "++numberText q) :=
  printable_append _ _ (printable_ascii _ (by decide)) (number_printable q)

theorem preludeFrame_proper (heartbeatMs : ℚ) : (preludeFrame heartbeatMs).Proper := by
  intro line hline
  rcases List.mem_cons.mp hline with rfl | hline
  · constructor
    · exact unbroken_printable _ (retryLine_printable heartbeatMs)
    · rw [show fieldName (js "retry: "++numberText heartbeatMs) = js "retry" from rfl]
      decide
  · rcases List.mem_cons.mp hline with rfl | hline
    · exact ⟨unbroken_printable _ (printable_ascii _ (by decide)), by decide⟩
    · rw [List.mem_singleton.mp hline]
      exact ⟨unbroken_printable _ printable_nil, by decide⟩

theorem dataText_wellFormed (e : AuditEventRecord) : isWellFormed (dataText e) = true := by
  apply isWellFormed_append
  · exact isWellFormed_append _ _ (by decide) (write_printable _).2
  · decide

theorem preludeText_wellFormed (heartbeatMs : ℚ) :
    isWellFormed (preludeText heartbeatMs) = true :=
  isWellFormed_append _ _ (retryLine_printable heartbeatMs).2 (by decide)

theorem texts_frames (ts : List Text) (es : List AuditEventRecord)
    (h : ts.filter (· ≠ heartbeatText) = es.map dataText) :
    (∀ t ∈ ts, isWellFormed t = true) ∧ ∃ fs : List Frame, (∀ f ∈ fs, f.Proper) ∧
      fs.map Frame.text = ts ∧ fs.flatMap Frame.data = es.map (fun e => stringify e.value) := by
  induction ts generalizing es with
  | nil =>
    rw [List.filter_nil, eq_comm, List.map_eq_nil_iff] at h
    subst h
    exact ⟨by simp, [], by simp, rfl, rfl⟩
  | cons t ts ih =>
    by_cases ht : t = heartbeatText
    · subst ht
      rw [List.filter_cons, if_neg (by simp)] at h
      obtain ⟨hw, fs, hp, htext, hdata⟩ := ih es h
      constructor
      · exact List.forall_mem_cons.mpr ⟨by decide, hw⟩
      · apply Exists.intro (beatFrame::fs)
        constructor
        · exact List.forall_mem_cons.mpr ⟨beatFrame_proper, hp⟩
        · constructor
          · rw [List.map_cons, beatFrame_text, htext]
          · rw [List.flatMap_cons, hdata]
            rfl
    · rw [List.filter_cons, if_pos (by simpa using ht)] at h
      cases es with
      | nil => cases h
      | cons e es =>
        rw [List.map_cons] at h
        obtain ⟨rfl, hrest⟩ := List.cons.inj h
        obtain ⟨hw, fs, hp, htext, hdata⟩ := ih es hrest
        constructor
        · exact List.forall_mem_cons.mpr ⟨dataText_wellFormed e, hw⟩
        · apply Exists.intro (dataFrame e::fs)
          constructor
          · exact List.forall_mem_cons.mpr ⟨dataFrame_proper e, hp⟩
          · constructor
            · rw [List.map_cons, dataFrame_text, htext]
            · rw [List.flatMap_cons, hdata, List.map_cons]
              rfl

theorem flatMap_wellFormed (ts : List Text) (h : ∀ t ∈ ts, isWellFormed t = true) :
    ts.flatMap toWellFormed = ts.flatMap id := by
  apply List.flatMap_congr
  intro t ht
  exact toWellFormed_of_isWellFormed t (h t ht)

theorem mapM_parseText (es : List AuditEventRecord) :
    (es.map (fun e => stringify e.value)).mapM parseText =
      some (es.map (fun e => nulled e.value)) := by
  induction es with
  | nil => rfl
  | cons e es ih =>
    rw [List.map_cons, List.mapM_cons, parseText_stringify e.value e.numbers, ih]
    rfl

theorem readStream_sent (heartbeatMs : ℚ) (ts : List Text) (es : List AuditEventRecord)
    (h : ts.filter (· ≠ heartbeatText) = es.map dataText) :
    readStream (((preludeText heartbeatMs::ts).map encodeUtf8).flatten) =
      some (es.map (fun e => nulled e.value)) := by
  obtain ⟨hw, fs, hp, htext, hdata⟩ := texts_frames ts es h
  have hdecode : decodeUtf8 (((preludeText heartbeatMs::ts).map encodeUtf8).flatten) =
      some ((preludeFrame heartbeatMs::fs).flatMap Frame.text) := by
    rw [← List.flatMap_def, decodeUtf8_chunks, flatMap_wellFormed, ← htext,
      ← preludeFrame_text, ← List.map_cons, List.flatMap_map]
    · rfl
    · exact List.forall_mem_cons.mpr ⟨preludeText_wellFormed heartbeatMs, hw⟩
  have hmark : withoutMark ((preludeFrame heartbeatMs::fs).flatMap Frame.text) =
      (preludeFrame heartbeatMs::fs).flatMap Frame.text := by
    rw [List.flatMap_cons, preludeFrame_text]
    rfl
  have hmessages := messages_frames (preludeFrame heartbeatMs::fs)
    (List.forall_mem_cons.mpr ⟨preludeFrame_proper heartbeatMs, hp⟩) hmark
  rw [readStream, hdecode, Option.bind_some, hmessages, List.flatMap_cons, hdata]
  exact mapM_parseText es

end Reading

/-- The records a stream owes that was accepted in the first state: the
matching ones of the replay and of what is published until it is closed, each
identifier once. -/
def owed (cfg : Config) (param : Text → Option Text) (aborted : Bool) (p : Process)
    (ls : List Event) : List AuditEventRecord :=
  firsts [] ((p.shared.bus.getBacklog 100++later cfg p.streams.length ls
    (EventStream.get cfg param aborted false (fun _ => false) p)).filter
      (eventMatches (filtersOf param)))

theorem stream_sends (cfg : Config) (param : Text → Option Text) (aborted : Bool)
    (before after : List Event) (p q : Process)
    (hp : run (step cfg) before (initial cfg) = some p)
    (hroom : p.shared.openCount < cfg.maxSseConnections)
    (hl : ∀ l ∈ after, Unfailing p.streams.length l)
    (hq : run (step cfg) after (EventStream.get cfg param aborted false (fun _ => false) p) =
      some q) :
    ∃ s ts, q.streams[p.streams.length]? = some s ∧
      s.out = (preludeText cfg.sseHeartbeatMs::ts).map encodeUtf8 ∧
      ts.filter (· ≠ heartbeatText) = (owed cfg param aborted p after).map dataText := by
  have hw := wired_run cfg before p hp
  obtain ⟨s, hs⟩ := follow_accepted cfg param aborted p hw hroom
  obtain ⟨t, ht⟩ := follow_run cfg _ _ after _ _ q s hl (wired_get cfg param aborted _ _ p hw) hs hq
  obtain ⟨ts, hout, hts⟩ := ht.sent
  apply Exists.intro t
  apply Exists.intro ts
  rw [owed, List.filter_append]
  exact ⟨ht.stream, hout, hts⟩

theorem stream_delivers (cfg : Config) (param : Text → Option Text) (aborted : Bool)
    (before after : List Event) (p q : Process)
    (hp : run (step cfg) before (initial cfg) = some p)
    (hroom : p.shared.openCount < cfg.maxSseConnections)
    (hl : ∀ l ∈ after, Unfailing p.streams.length l)
    (hq : run (step cfg) after (EventStream.get cfg param aborted false (fun _ => false) p) =
      some q) :
    ∃ s ts, q.streams[p.streams.length]? = some s ∧
      s.out = (preludeText cfg.sseHeartbeatMs::ts).map encodeUtf8 ∧
      ts.filter (· ≠ heartbeatText) = (owed cfg param aborted p after).map dataText ∧
      readStream s.out.flatten =
        some ((owed cfg param aborted p after).map (fun e => nulled e.value)) := by
  obtain ⟨s, ts, hs, hout, hts⟩ := stream_sends cfg param aborted before after p q hp hroom hl hq
  refine ⟨s, ts, hs, hout, hts, ?_⟩
  rw [hout]
  exact readStream_sent cfg.sseHeartbeatMs ts _ hts

section Scenario

def small : Config := ⟨1, 15000, 500⟩

def unfiltered : Text → Option Text := fun _ => none

def named (id : Text) : AuditEventRecord := ⟨[(js "id", .str id)], id, rfl, ⟨trivial, trivial⟩⟩

def earlier : List Event := [.publish (named (js "e-1")) (fun _ => false)]

def afterwards : List Event :=
  [.publish (named (js "e-1")) (fun _ => false), .tick 0 false,
    .publish (named (js "e-2")) (fun _ => false), .cancel 0]

theorem stream_delivers_replay : ∃ p q, run (step small) earlier (initial small) = some p ∧
    run (step small) afterwards
      (EventStream.get small unfiltered false false (fun _ => false) p) = some q ∧
    ∃ s ts, q.streams[p.streams.length]? = some s ∧
      s.out = (preludeText small.sseHeartbeatMs::ts).map encodeUtf8 ∧
      ts.filter (· ≠ heartbeatText) = (owed small unfiltered false p afterwards).map dataText ∧
      readStream s.out.flatten =
        some ((owed small unfiltered false p afterwards).map (fun e => nulled e.value)) := by
  have hp : run (step small) earlier (initial small) =
      some ⟨⟨0, 0, 0, ⟨[], [named (js "e-1")], 500, 0⟩⟩, []⟩ := rfl
  have hl : ∀ l ∈ afterwards, Unfailing 0 l := by
    simp [afterwards, Unfailing]
  obtain ⟨q, hq⟩ : ∃ q, run (step small) afterwards
      (EventStream.get small unfiltered false false (fun _ => false)
        ⟨⟨0, 0, 0, ⟨[], [named (js "e-1")], 500, 0⟩⟩, []⟩) = some q :=
    Option.isSome_iff_exists.mp (by decide +kernel)
  exact ⟨_, q, hp, hq, stream_delivers small unfiltered false earlier afterwards _ q hp
    (by decide +kernel) hl hq⟩

def unbounded : AuditEventRecord :=
  ⟨[(js "id", .str (js "e-1")), (js "n", .num (.infinite false))], js "e-1", rfl,
    ⟨trivial, trivial, trivial⟩⟩

/-- A number beyond the doubles comes back as null. -/
theorem infinite_number_is_lost :
    ¬ ∀ (cfg : Config) (param : Text → Option Text) (aborted : Bool) (before after : List Event)
      (p q : Process), run (step cfg) before (initial cfg) = some p →
      p.shared.openCount < cfg.maxSseConnections →
      (∀ l ∈ after, Unfailing p.streams.length l) →
      run (step cfg) after (EventStream.get cfg param aborted false (fun _ => false) p) = some q →
      ∃ s, q.streams[p.streams.length]? = some s ∧
        readStream s.out.flatten = some ((owed cfg param aborted p after).map (·.value)) := by
  intro h
  have hp : run (step small) [.publish unbounded (fun _ => false)] (initial small) =
      some ⟨⟨0, 0, 0, ⟨[], [unbounded], 500, 0⟩⟩, []⟩ := rfl
  have hroom : ((0 : ℤ) : ℚ) < small.maxSseConnections := by decide +kernel
  have hnone : ∀ l ∈ ([] : List Event), Unfailing 0 l := fun l hl => absurd hl List.not_mem_nil
  obtain ⟨s, hs, hread⟩ := h small unfiltered false _ [] _ _ hp hroom hnone rfl
  obtain ⟨t, ts, ht, hout, hts⟩ :=
    stream_sends small unfiltered false _ [] _ _ hp hroom hnone rfl
  obtain rfl := Option.some.inj (hs.symm.trans ht)
  rw [hout, readStream_sent small.sseHeartbeatMs ts _ hts] at hread
  have hone : some ([unbounded].map (nulled ·.value)) = some ([unbounded].map (·.value)) := hread
  simp [unbounded, AuditEventRecord.value, nulled, nulledMembers] at hone

end Scenario

end ControlPlane.StreamDelivery
