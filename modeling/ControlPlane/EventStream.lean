import ControlPlane.JsonReader
import ControlPlane.Utf8Text
import ControlPlane.RunMachine

/-!
# Live event streams

The event bus of one process and all its streams. A request that is accepted
takes a slot and runs `start` to its end before anything else happens; the
other steps are a publish, which calls every listener in turn, a tick of a
heartbeat, an abort of the request and a cancel by the consumer. Each frame
may fail to be enqueued, and always does after the controller has ended.
-/

set_option autoImplicit false

namespace ControlPlane.EventStream
open ControlPlane.JsText ControlPlane.JsValue ControlPlane.JsNumberText ControlPlane.JsonReader
open ControlPlane.Utf8Text ControlPlane.RunMachine

/-- The members of a record in their order, with an identifier and with
numbers that a program can hold. -/
structure AuditEventRecord where
  members : List (Text × Json)
  id : Text
  ident : members.lookup (js "id") = some (.str id)
  numbers : (docOf (.obj members)).Valid

def AuditEventRecord.value (e : AuditEventRecord) : Json := .obj e.members

def AuditEventRecord.text (e : AuditEventRecord) (name : Text) : Option Text :=
  (e.members.lookup name).bind Json.string?

structure Filters where
  type : Option Text
  runId : Option Text
  aid : Option Text

def filtersOf (param : Text → Option Text) : Filters :=
  ⟨param (js "type"), (param (js "run_id")).or (param (js "runId")), param (js "aid")⟩

/-- An absent or empty filter selects everything. -/
def selects (filter : Option Text) (values : List (Option Text)) : Bool :=
  match nonEmptyString (filter.map .str) with
  | none => true
  | some t => values.contains (some t)

def eventMatches (f : Filters) (e : AuditEventRecord) : Bool :=
  selects f.type [e.text (js "type")] && selects f.runId [e.text (js "runId")] &&
    selects f.aid [e.text (js "aidA"), e.text (js "aidB")]

structure Config where
  maxSseConnections : ℚ
  sseHeartbeatMs : ℚ
  maxAuditEventsInMemory : ℚ

abbrev Bytes := List UInt8

def preludeText (heartbeatMs : ℚ) : Text :=
  js "retry: "++numberText heartbeatMs++js "\n: connected\n\n"

def heartbeatText : Text := js ": heartbeat\n\n"

def dataText (e : AuditEventRecord) : Text := js "data: "++stringify e.value++js "\n\n"

/-- A listener is the index of its stream. -/
structure EventBus where
  listeners : List ℕ
  backlog : List AuditEventRecord
  maxBacklog : ℚ
  dropped : ℕ

/-- What `publish` does before it calls the listeners. -/
def EventBus.remember (b : EventBus) (e : AuditEventRecord) : EventBus :=
  let backlog := b.backlog++[e]
  if b.maxBacklog < backlog.length then
    { b with backlog := backlog.tail, dropped := b.dropped+1 }
  else { b with backlog := backlog }

def EventBus.subscribe (b : EventBus) (i : ℕ) : EventBus :=
  { b with listeners := if i ∈ b.listeners then b.listeners else b.listeners++[i] }

theorem EventBus.remember_listeners (b : EventBus) (e : AuditEventRecord) :
    (b.remember e).listeners = b.listeners := by
  rw [EventBus.remember]
  split_ifs <;> rfl

theorem EventBus.subscribe_new (b : EventBus) (i : ℕ) (h : i ∉ b.listeners) :
    (b.subscribe i).listeners = b.listeners++[i] := if_neg h

def EventBus.unsubscribe (b : EventBus) (i : ℕ) : EventBus :=
  { b with listeners := b.listeners.filter (· ≠ i) }

def EventBus.getBacklog (b : EventBus) (limit : ℕ) : List AuditEventRecord :=
  b.backlog.drop (b.backlog.length-limit)

structure Shared where
  openCount : ℤ
  openedTotal : ℕ
  rejectedTotal : ℕ
  bus : EventBus

def acquireSseSlot (w : Shared) : Shared :=
  { w with openCount := w.openCount+1, openedTotal := w.openedTotal+1 }

def releaseSseSlot (w : Shared) : Shared := { w with openCount := max 0 (w.openCount-1) }

def recordSseRejected (w : Shared) : Shared := { w with rejectedTotal := w.rejectedTotal+1 }

/-- The variables of one `GET`. `constructed` says that `start` has returned,
`ended` that the controller refuses frames, and `out` is what was enqueued.
`released` counts its releases, and `signalled` remembers that a signal to
terminate was handled. -/
structure Stream where
  filters : Filters
  aborted : Bool
  onAbort : Bool
  closed : Bool
  unsubscribe : Bool
  heartbeat : Bool
  constructed : Bool
  ended : Bool
  draining : Bool
  seenIds : List Text
  subscriptionBuffer : List AuditEventRecord
  out : List Bytes
  released : ℕ
  signalled : Bool

def opening (filters : Filters) (aborted : Bool) : Stream where
  filters := filters
  aborted := aborted
  onAbort := false
  closed := false
  unsubscribe := false
  heartbeat := false
  constructed := false
  ended := false
  draining := false
  seenIds := []
  subscriptionBuffer := []
  out := []
  released := 0
  signalled := false

/-- One stream and what it shares with the others. -/
abbrev Local := Shared × Stream

def cleanup (i : ℕ) (x : Local) : Local :=
  if x.2.closed then x
  else
    let w := releaseSseSlot x.1
    ({ w with bus := if x.2.unsubscribe then w.bus.unsubscribe i else w.bus },
      { x.2 with
        closed := true, unsubscribe := false, heartbeat := false, released := x.2.released+1 })

def terminate (i : ℕ) (x : Local) : Local := cleanup i (x.1, { x.2 with signalled := true })

def enqueue (fail : Bool) (frame : Text) (s : Stream) : Option Stream :=
  if fail || s.ended then none else some { s with out := s.out++[encodeUtf8 frame] }

def closeController (x : Local) : Local := (x.1, { x.2 with ended := true })

def sendEvent (i : ℕ) (fail : Bool) (e : AuditEventRecord) (x : Local) : Local :=
  if e.id ∈ x.2.seenIds then x
  else
    let s := { x.2 with seenIds := e.id::x.2.seenIds }
    match enqueue fail (dataText e) s with
    | some s' => (x.1, s')
    | none => terminate i (x.1, s)

/-- `fails n` is the fate of the frame that follows `n` others. -/
def sendAll (i : ℕ) (fails : ℕ → Bool) : List AuditEventRecord → Local → Local
  | [], x => x
  | e::es, x => sendAll i fails es (sendEvent i (fails x.2.seenIds.length) e x)

def onPublish (i : ℕ) (fail : Bool) (e : AuditEventRecord) (x : Local) : Local :=
  if eventMatches x.2.filters e then
    if x.2.draining then
      (x.1, { x.2 with subscriptionBuffer := x.2.subscriptionBuffer++[e] })
    else sendEvent i fail e x
  else x

def subscribed (i : ℕ) (x : Local) : Local :=
  ({ x.1 with bus := x.1.bus.subscribe i }, { x.2 with draining := true, unsubscribe := true })

def replay (i : ℕ) (fails : ℕ → Bool) (x : Local) : Local :=
  sendAll i fails ((x.1.bus.getBacklog 100).filter (eventMatches x.2.filters)) x

def drain (i : ℕ) (fails : ℕ → Bool) (x : Local) : Local :=
  let y := sendAll i fails x.2.subscriptionBuffer (x.1, { x.2 with draining := false })
  (y.1, { y.2 with subscriptionBuffer := [] })

/-- A prelude that fails throws out of `start`. -/
def start (heartbeatMs : ℚ) (i : ℕ) (prelude : Bool) (fails : ℕ → Bool) (x : Local) : Local :=
  match enqueue prelude (preludeText heartbeatMs) x.2 with
  | none => (x.1, { x.2 with signalled := true })
  | some s =>
    let y := drain i fails (replay i fails (subscribed i (x.1, s)))
    (y.1, { y.2 with heartbeat := true, onAbort := true, constructed := true })

theorem start_shared (heartbeatMs : ℚ) (i : ℕ) (prelude : Bool) (fails : ℕ → Bool) (w : Shared)
    (s t : Stream) (h : enqueue prelude (preludeText heartbeatMs) s = some t) :
    (start heartbeatMs i prelude fails (w, s)).1 =
      (drain i fails (replay i fails (subscribed i (w, t)))).1 := by
  simp only [start, h]

theorem start_failed (heartbeatMs : ℚ) (i : ℕ) (prelude : Bool) (fails : ℕ → Bool) (w : Shared)
    (s : Stream) (h : enqueue prelude (preludeText heartbeatMs) s = none) :
    (start heartbeatMs i prelude fails (w, s)).1 = w := by
  simp only [start, h]

def tick (i : ℕ) (fail : Bool) (x : Local) : Local :=
  if x.2.aborted then closeController (terminate i x)
  else
    match enqueue fail heartbeatText x.2 with
    | some s => (x.1, s)
    | none => terminate i x

/-- The signal fires once, and a listener that was added later hears nothing. -/
def abort (i : ℕ) (x : Local) : Local :=
  if x.2.aborted then x
  else
    let s := { x.2 with aborted := true }
    if s.onAbort then closeController (terminate i (x.1, { s with onAbort := false }))
    else (x.1, s)

def cancel (i : ℕ) (x : Local) : Local := closeController (terminate i x)

structure Process where
  shared : Shared
  streams : List Stream

def initial (cfg : Config) : Process :=
  ⟨⟨0, 0, 0, ⟨[], [], cfg.maxAuditEventsInMemory, 0⟩⟩, []⟩

def Process.on (p : Process) (i : ℕ) (f : Local → Local) : Process :=
  match p.streams[i]? with
  | none => p
  | some s => ⟨(f (p.shared, s)).1, p.streams.set i (f (p.shared, s)).2⟩

def Process.remember (p : Process) (e : AuditEventRecord) : Process :=
  { p with shared := { p.shared with bus := p.shared.bus.remember e } }

def deliver (fails : ℕ → Bool) (e : AuditEventRecord) (p : Process) (i : ℕ) : Process :=
  p.on i (onPublish i (fails i) e)

def publish (fails : ℕ → Bool) (e : AuditEventRecord) (p : Process) : Process :=
  p.shared.bus.listeners.foldl (deliver fails e) (p.remember e)

def accepted (cfg : Config) (filters : Filters) (aborted prelude : Bool) (fails : ℕ → Bool)
    (p : Process) : Local :=
  start cfg.sseHeartbeatMs p.streams.length prelude fails
    (acquireSseSlot p.shared, opening filters aborted)

def get (cfg : Config) (param : Text → Option Text) (aborted prelude : Bool) (fails : ℕ → Bool)
    (p : Process) : Process :=
  if cfg.maxSseConnections ≤ p.shared.openCount then
    { p with shared := recordSseRejected p.shared }
  else
    let x := accepted cfg (filtersOf param) aborted prelude fails p
    ⟨x.1, p.streams++[x.2]⟩

/-- The flags say which frames fail. -/
inductive Event where
  | get (param : Text → Option Text) (aborted prelude : Bool) (fails : ℕ → Bool)
  | publish (e : AuditEventRecord) (fails : ℕ → Bool)
  | tick (i : ℕ) (fail : Bool)
  | abort (i : ℕ)
  | cancel (i : ℕ)

def step (cfg : Config) : Event → Process → Option Process
  | .get param aborted prelude fails, p => some (get cfg param aborted prelude fails p)
  | .publish e fails, p => some (publish fails e p)
  | .tick i fail, p =>
    if (p.streams[i]?.map (·.heartbeat)).getD false then some (p.on i (tick i fail)) else none
  | .abort i, p => some (p.on i (abort i))
  | .cancel i, p =>
    if (p.streams[i]?.map (·.constructed)).getD false then some (p.on i (cancel i)) else none

inductive Move (cfg : Config) (p : Process) : Event → Process → Prop where
  | get (param : Text → Option Text) (aborted prelude : Bool) (fails : ℕ → Bool) :
    Move cfg p (.get param aborted prelude fails) (get cfg param aborted prelude fails p)
  | publish (e : AuditEventRecord) (fails : ℕ → Bool) :
    Move cfg p (.publish e fails) (publish fails e p)
  | tick (i : ℕ) (fail : Bool) (armed : (p.streams[i]?.map (·.heartbeat)).getD false = true) :
    Move cfg p (.tick i fail) (p.on i (tick i fail))
  | abort (i : ℕ) : Move cfg p (.abort i) (p.on i (abort i))
  | cancel (i : ℕ) (constructed : (p.streams[i]?.map (·.constructed)).getD false = true) :
    Move cfg p (.cancel i) (p.on i (cancel i))

theorem step_move {cfg : Config} {l : Event} {p q : Process} (h : step cfg l p = some q) :
    Move cfg p l q := by
  cases l with
  | get param aborted prelude fails =>
    rw [step, Option.some.injEq] at h
    subst h
    exact .get param aborted prelude fails
  | publish e fails =>
    rw [step, Option.some.injEq] at h
    subst h
    exact .publish e fails
  | tick i fail =>
    rw [step] at h
    split_ifs at h with harmed
    rw [Option.some.injEq] at h
    subst h
    exact .tick i fail harmed
  | abort i =>
    rw [step, Option.some.injEq] at h
    subst h
    exact .abort i
  | cancel i =>
    rw [step] at h
    split_ifs at h with hconstructed
    rw [Option.some.injEq] at h
    subst h
    exact .cancel i hconstructed

def firsts : List Text → List AuditEventRecord → List AuditEventRecord
  | _, [] => []
  | seen, e::es => if e.id ∈ seen then firsts seen es else e::firsts (e.id::seen) es

def replayed (filters : Filters) (p : Process) : List AuditEventRecord :=
  firsts [] ((p.shared.bus.getBacklog 100).filter (eventMatches filters))

def Stream.sent (s : Stream) (es : List AuditEventRecord) : Stream :=
  { s with
    seenIds := (es.map (·.id)).reverse++s.seenIds
    out := s.out++es.map (fun e => encodeUtf8 (dataText e)) }

theorem sendEvent_sent (i : ℕ) (e : AuditEventRecord) (x : Local) (h : x.2.ended = false) :
    sendEvent i false e x = (x.1, x.2.sent (firsts x.2.seenIds [e])) := by
  by_cases he : e.id ∈ x.2.seenIds
  · simp [sendEvent, he, firsts, Stream.sent]
  · simp [sendEvent, he, firsts, Stream.sent, enqueue, h]

theorem sendAll_sent (i : ℕ) (fails : ℕ → Bool) (es : List AuditEventRecord) (x : Local)
    (h : x.2.ended = false)
    (hf : ∀ n < (firsts x.2.seenIds es).length, fails (x.2.seenIds.length+n) = false) :
    sendAll i fails es x = (x.1, x.2.sent (firsts x.2.seenIds es)) := by
  induction es generalizing x with
  | nil => simp [sendAll, firsts, Stream.sent]
  | cons e es ih =>
    by_cases he : e.id ∈ x.2.seenIds
    · have hsame : sendEvent i (fails x.2.seenIds.length) e x = x := by simp [sendEvent, he]
      have hfirsts : firsts x.2.seenIds (e::es) = firsts x.2.seenIds es := by
        rw [firsts, if_pos he]
      rw [sendAll, hsame, hfirsts]
      rw [hfirsts] at hf
      exact ih x h hf
    · have hfirsts : firsts x.2.seenIds (e::es) = e::firsts (e.id::x.2.seenIds) es := by
        rw [firsts, if_neg he]
      rw [hfirsts, List.length_cons] at hf
      have hfirst := hf 0 (Nat.succ_pos _)
      rw [Nat.add_zero] at hfirst
      have hsent : sendEvent i false e x = (x.1, x.2.sent [e]) := by
        rw [sendEvent_sent i e x h]
        simp [firsts, he]
      have hrest := ih (x.1, x.2.sent [e]) h (by
        intro n hn
        have hlater := hf (n+1) (Nat.succ_lt_succ hn)
        have hlength : (x.2.sent [e]).seenIds.length+n = x.2.seenIds.length+(n+1) := by
          simp only [Stream.sent, List.map_cons, List.map_nil, List.reverse_singleton,
            List.singleton_append, List.length_cons]
          omega
        rw [hlength]
        exact hlater)
      rw [sendAll, hfirst, hsent, hrest, hfirsts]
      simp [Stream.sent]

theorem accepted_sent (cfg : Config) (filters : Filters) (aborted : Bool) (fails : ℕ → Bool)
    (p : Process) (hf : ∀ n < (replayed filters p).length, fails n = false) :
    accepted cfg filters aborted false fails p =
      ({ acquireSseSlot p.shared with bus := p.shared.bus.subscribe p.streams.length },
        { opening filters aborted with
          unsubscribe := true
          heartbeat := true
          onAbort := true
          constructed := true
          seenIds := ((replayed filters p).map (·.id)).reverse
          out := encodeUtf8 (preludeText cfg.sseHeartbeatMs)::
            (replayed filters p).map (fun e => encodeUtf8 (dataText e)) }) := by
  have hsent := sendAll_sent p.streams.length fails
    ((p.shared.bus.getBacklog 100).filter (eventMatches filters))
    (subscribed p.streams.length (acquireSseSlot p.shared,
      { opening filters aborted with out := [encodeUtf8 (preludeText cfg.sseHeartbeatMs)] }))
    rfl (fun n hn => (congrArg fails (Nat.zero_add n)).trans (hf n hn))
  have hreplay : replay p.streams.length fails (subscribed p.streams.length
      (acquireSseSlot p.shared,
        { opening filters aborted with out := [encodeUtf8 (preludeText cfg.sseHeartbeatMs)] })) =
      _ := hsent
  rw [accepted, start]
  simp only [enqueue, opening, Bool.or_self, Bool.false_eq_true, if_false, List.nil_append]
  simp only [opening] at hreplay
  rw [hreplay]
  simp [drain, sendAll, Stream.sent, subscribed, replayed, acquireSseSlot]

end ControlPlane.EventStream
