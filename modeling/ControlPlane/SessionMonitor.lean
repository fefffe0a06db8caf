import ControlPlane.EventNormalize
import ControlPlane.KeyedReplay

/-!
# The projection of handshake sessions

A started session is inserted unless it is there, and a completed or failed
one is overwritten, whichever report came last. Re-sent reports are projected
again: an insert then finds its row, but an overwrite takes place once more.
-/

set_option autoImplicit false

namespace ControlPlane.SessionMonitor
open ControlPlane.JsText ControlPlane.JsValue ControlPlane.TctMonitor ControlPlane.EventNormalize
open ControlPlane.KeyedReplay

inductive SessionStatus where
  | started
  | complete
  | failed
  deriving DecidableEq, Repr

structure HandshakeSession where
  sessionId : Text
  aidA : Option Text
  aidB : Option Text
  status : SessionStatus
  grants : List Text
  runId : Option Text
  boundary : Option Text
  error : Option Text
  startedAt : Option Instant
  completedAt : Option Instant
  updatedAt : Instant
  deriving DecidableEq, Repr

def handshakeStarted : Text := js "handshake.started"

def handshakeFailed : Text := js "handshake.failed"

def deriveBoundary (event : EventRecord) : Option Text :=
  (event.payload.get (js "boundary")).bind Json.string?

/-- The columns take the values of an inserted row. -/
def startStorable (sid : Text) (event : EventRecord) : Bool :=
  takesVarchar 255 sid && event.aidA.all (takesVarchar 512) && event.aidB.all (takesVarchar 512) &&
    event.runId.all (takesVarchar 255) && (deriveBoundary event).all (takesVarchar 32) &&
    instantStorable event.ts

def newSession (now : Instant) (sid : Text) (event : EventRecord) : HandshakeSession where
  sessionId := varchar 255 sid
  aidA := event.aidA.map (varchar 512)
  aidB := event.aidB.map (varchar 512)
  status := .started
  grants := []
  runId := event.runId.map (varchar 255)
  boundary := (deriveBoundary event).map (varchar 32)
  error := none
  startedAt := some event.ts
  completedAt := none
  updatedAt := now

def reportedError (event : EventRecord) : Option Text :=
  (event.payload.get (js "error")).bind Json.string?

def completeStorable (sid : Text) (event : EventRecord) : Bool :=
  !hasNul sid && instantStorable event.ts && (event.grants.getD []).all textStorable

def failedStorable (sid : Text) (event : EventRecord) : Bool :=
  !hasNul sid && (reportedError event).all (fun e => !hasNul e)

/-- A statement that cannot store its values throws, which is caught. An insert
cuts the session id to its column, an update compares it uncut. -/
def onEvent (now : Instant) (event : EventRecord) (rows : List HandshakeSession) :
    List HandshakeSession :=
  match nonEmptyString (event.sessionId.map .str) with
  | none => rows
  | some sid =>
    if event.type = handshakeStarted then
      if startStorable sid event then
        if rows.any (fun r => r.sessionId = varchar 255 sid) then rows
        else rows++[newSession now sid event]
      else rows
    else if event.type = handshakeComplete then
      if completeStorable sid event then
        rows.map (fun r => if r.sessionId = toWellFormed sid then
          { r with status := .complete, completedAt := some event.ts,
                   grants := event.grants.getD [], updatedAt := now } else r)
      else rows
    else if event.type = handshakeFailed then
      if failedStorable sid event then
        rows.map (fun r => if r.sessionId = toWellFormed sid then
          { r with status := .failed, error := (reportedError event).map toWellFormed,
                   updatedAt := now } else r)
      else rows
    else rows

structure Processed where
  now : Instant
  event : EventRecord

def project : List Processed → List HandshakeSession → List HandshakeSession
  | [], rows => rows
  | p::ps, rows => project ps (onEvent p.now p.event rows)

structure Outcome where
  status : SessionStatus
  completedAt : Option Instant
  grants : List Text
  error : Option Text
  deriving DecidableEq, Repr

def outcome (r : HandshakeSession) : Outcome := ⟨r.status, r.completedAt, r.grants, r.error⟩

/-- The rows up to the columns that a re-sent event must not change. -/
def outcomes (rows : List HandshakeSession) : List (Text × Outcome) :=
  rows.map (fun r => (r.sessionId, outcome r))

inductive Overwrite where
  | complete (ts : Instant) (grants : List Text)
  | failed (error : Option Text)
  deriving DecidableEq, Repr

def overwrite : Overwrite → Outcome → Outcome
  | .complete ts grants, v => ⟨.complete, some ts, grants, v.error⟩
  | .failed error, v => ⟨.failed, v.completedAt, v.grants, error⟩

def initial : Outcome := ⟨.started, none, [], none⟩

def sessionEntry (event : EventRecord) : Entry Text Overwrite :=
  match nonEmptyString (event.sessionId.map .str) with
  | none => .skips
  | some sid =>
    if event.type = handshakeStarted then
      if startStorable sid event then .opens (varchar 255 sid) else .skips
    else if event.type = handshakeComplete then
      if completeStorable sid event then
        .sets (toWellFormed sid) (.complete event.ts (event.grants.getD []))
      else .skips
    else if event.type = handshakeFailed then
      if failedStorable sid event then
        .sets (toWellFormed sid) (.failed ((reportedError event).map toWellFormed))
      else .skips
    else .skips

theorem overwrite_again (o o' : Overwrite) (v : Outcome) :
    overwrite o (overwrite o' v) = overwrite o' v ↔ o = o' := by
  cases o <;> cases o' <;> simp [overwrite]

theorem overwrite_initial (o : Overwrite) : overwrite o initial ≠ initial := by
  cases o <;> simp [overwrite, initial]

theorem outcomes_onEvent (now : Instant) (event : EventRecord) (rows : List HandshakeSession) :
    outcomes (onEvent now event rows) =
      record overwrite initial (sessionEntry event) (outcomes rows) := by
  cases hsid : nonEmptyString (event.sessionId.map .str) with
  | none =>
    simp only [onEvent, sessionEntry, hsid]
    rfl
  | some sid =>
    simp only [onEvent, sessionEntry, hsid]
    by_cases hstart : event.type = handshakeStarted
    · by_cases hs : startStorable sid event = true
      · simp only [hstart, hs, if_true, record, outcomes, List.any_map, Function.comp_def]
        split_ifs
        · rfl
        · simp [newSession, outcome, initial]
      · simp only [hstart, hs, if_true]
        rfl
    · by_cases hcomplete : event.type = handshakeComplete
      · by_cases hs : completeStorable sid event = true
        · simp only [hcomplete, hs, if_true, if_neg (hcomplete ▸ hstart), record, outcomes,
            List.map_map]
          apply List.map_congr_left
          intro r _
          simp only [Function.comp_apply]
          split_ifs <;> rfl
        · simp only [hcomplete, hs, if_true, if_neg (hcomplete ▸ hstart)]
          rfl
      · by_cases hfailed : event.type = handshakeFailed
        · by_cases hs : failedStorable sid event = true
          · simp only [hfailed, hs, if_true, if_neg (hfailed ▸ hstart),
              if_neg (hfailed ▸ hcomplete), record, outcomes, List.map_map]
            apply List.map_congr_left
            intro r _
            simp only [Function.comp_apply]
            split_ifs <;> rfl
          · simp only [hfailed, hs, if_true, if_neg (hfailed ▸ hstart),
              if_neg (hfailed ▸ hcomplete)]
            rfl
        · simp only [if_neg hstart, if_neg hcomplete, if_neg hfailed]
          rfl

theorem outcomes_project (ps : List Processed) (rows : List HandshakeSession) :
    outcomes (project ps rows) =
      replay overwrite initial (ps.map (fun p => sessionEntry p.event)) (outcomes rows) := by
  induction ps generalizing rows with
  | nil => rfl
  | cons p ps ih =>
    rw [project, ih, outcomes_onEvent]
    rfl

/-- Re-sending changes no session exactly if each one that has a row was
reported as complete at one time with one list of grants, or as failed with
one error, and once at least after its row was there. -/
theorem resend_safe_iff (rows : List HandshakeSession) (history : List Processed) :
    (∀ again : List Processed, (∀ p ∈ again, ∃ q ∈ history, p.event = q.event) →
      outcomes (project again (project history rows)) = outcomes (project history rows)) ↔
      Repeatable (outcomes rows) (history.map (fun p => sessionEntry p.event)) := by
  rw [← replay_fixed_iff overwrite initial overwrite_again overwrite_initial]
  constructor
  · intro h rs hrs
    have hevents : ∃ again : List Processed, (∀ p ∈ again, ∃ q ∈ history, p.event = q.event) ∧
        again.map (fun p => sessionEntry p.event) = rs := by
      induction rs with
      | nil => exact ⟨[], by simp, rfl⟩
      | cons e rs ih =>
        obtain ⟨again, hagain, hmap⟩ := ih (fun f hf => hrs f (List.mem_cons_of_mem e hf))
        obtain ⟨q, hq, hqe⟩ := List.mem_map.mp (hrs e List.mem_cons_self)
        refine ⟨q::again, ?_, by simp [hmap, hqe]⟩
        intro p hp
        rcases List.mem_cons.mp hp with rfl | hp
        · exact ⟨p, hq, rfl⟩
        · exact hagain p hp
    obtain ⟨again, hagain, rfl⟩ := hevents
    rw [← outcomes_project history rows, ← outcomes_project again]
    exact h again hagain
  · intro h again hagain
    rw [outcomes_project again, outcomes_project history rows]
    apply h
    intro e he
    obtain ⟨p, hp, rfl⟩ := List.mem_map.mp he
    obtain ⟨q, hq, hpq⟩ := hagain p hp
    exact List.mem_map.mpr ⟨q, hq, by rw [hpq]⟩

section Scenario

def report (type : Text) (ts : Instant) : Processed :=
  ⟨ts, { type := type, ts := ts, sessionId := some (js "s-1"), payload := .obj [], id := [],
         aidA := none, aidB := none, runId := none, grants := none, source := none }⟩

def retriedHandshake : List Processed :=
  [report handshakeStarted 1000, report handshakeFailed 2000, report handshakeComplete 3000]

theorem resent_failure_overwrites :
    ¬ ∀ (rows : List HandshakeSession) (history again : List Processed),
      (∀ p ∈ again, ∃ q ∈ history, p.event = q.event) →
        outcomes (project again (project history rows)) = outcomes (project history rows) := by
  intro h
  have hsame := h [] retriedHandshake [report handshakeFailed 2000]
    (by
      intro p hp
      obtain rfl := List.mem_singleton.mp hp
      exact ⟨report handshakeFailed 2000, by simp [retriedHandshake], rfl⟩)
  have hflip : outcomes (project [report handshakeFailed 2000] (project retriedHandshake [])) ≠
      outcomes (project retriedHandshake []) := by decide +kernel
  exact hflip hsame

end Scenario

end ControlPlane.SessionMonitor
