import ControlPlane.EventValidation
import ControlPlane.SessionMonitor

/-!
# Accepted events and session writes

An entry is accepted by the limits of the audit columns. The session writes
put the same fields under the same limits, and the texts of the payload hold
no NUL, so every write goes through but one: `payload.boundary` is not measured
before it meets a column of 32 characters, which cuts off blanks only.
-/

set_option autoImplicit false

namespace ControlPlane.SessionCompleteness
open ControlPlane.JsText ControlPlane.JsValue ControlPlane.HttpValidate
open ControlPlane.TctMonitor (handshakeComplete)
open ControlPlane.EventNormalize ControlPlane.SessionMonitor
open ControlPlane.EventValidation (itemProblem_iff fits_textFields jsonTexts_storable)

/-- The entry has no problem, and its audit row could be dated. -/
structure Accepted (event : EventRecord) : Prop where
  sound : itemProblem event = none
  dated : instantStorable event.ts = true

instance (event : EventRecord) : Decidable (Accepted event) :=
  decidable_of_iff (itemProblem event = none ∧ instantStorable event.ts = true)
    ⟨fun h => ⟨h.1, h.2⟩, fun h => ⟨h.sound, h.dated⟩⟩

/-- `if (!sid) return` -/
def sessionOf (event : EventRecord) : Option Text := nonEmptyString (event.sessionId.map .str)

/-- The statement of the event, if there is one, can store its values. -/
def writeFits (event : EventRecord) : Bool :=
  (sessionOf event).all (fun sid =>
    if event.type = handshakeStarted then startStorable sid event
    else if event.type = handshakeComplete then completeStorable sid event
    else if event.type = handshakeFailed then failedStorable sid event
    else true)

/-- Every write of the event goes through, whatever the rows are. -/
structure Projected (event : EventRecord) : Prop where
  started : event.type = handshakeStarted → ∀ sid ∈ sessionOf event, ∀ now rows,
    ∃ r ∈ onEvent now event rows, r.sessionId = toWellFormed sid
  complete : event.type = handshakeComplete → ∀ sid ∈ sessionOf event, ∀ now rows, ∀ r ∈ rows,
    r.sessionId = toWellFormed sid →
      { r with status := .complete, completedAt := some event.ts,
               grants := event.grants.getD [], updatedAt := now } ∈ onEvent now event rows
  failed : event.type = handshakeFailed → ∀ sid ∈ sessionOf event, ∀ now rows, ∀ r ∈ rows,
    r.sessionId = toWellFormed sid →
      { r with status := .failed, error := (reportedError event).map toWellFormed,
               updatedAt := now } ∈ onEvent now event rows
  written : writeFits event = true

/-- A started session reports no boundary with more than blanks behind 32 characters. -/
def BoundaryFits (event : EventRecord) : Prop :=
  event.type = handshakeStarted → sessionOf event ≠ none →
    ∀ boundary ∈ deriveBoundary event, ∀ u ∈ pastCodePoints 32 boundary, u = 0x20

instance (event : EventRecord) : Decidable (BoundaryFits event) :=
  inferInstanceAs (Decidable (_ → _ → _))

theorem textsOf_member (members : List (Text × Json)) (key s : Text)
    (h : members.lookup key = some (.str s)) : s ∈ textsOfMembers members := by
  induction members with
  | nil => simp at h
  | cons m ms ih =>
    obtain ⟨k, v⟩ := m
    rw [textsOfMembers, List.mem_append, List.mem_cons]
    by_cases hk : key = k
    · simp only [hk, List.lookup_cons_self, Option.some.injEq] at h
      subst h
      exact Or.inl (Or.inr (by simp [textsOf]))
    · rw [List.lookup_cons, beq_eq_false_iff_ne.mpr hk] at h
      exact Or.inr (ih h)

theorem textsOf_get (payload : Json) (key s : Text)
    (h : (payload.get key).bind Json.string? = some s) : s ∈ textsOf payload := by
  obtain ⟨v, hv, hs⟩ := Option.bind_eq_some_iff.mp h
  obtain rfl : v = .str s := by
    cases v <;> simp_all [Json.string?]
  cases payload with
  | obj members =>
    rw [textsOf]
    exact textsOf_member members key s hv
  | _ => simp [Json.get] at hv

structure Fits (event : EventRecord) : Prop where
  aidA : event.aidA.all (fitsVarchar 512) = true
  aidB : event.aidB.all (fitsVarchar 512) = true
  sessionId : event.sessionId.all (fitsVarchar 255) = true
  runId : event.runId.all (fitsVarchar 255) = true
  grants : (event.grants.getD []).all textStorable = true
  payload : ∀ t ∈ textsOf event.payload, textStorable t = true

theorem fits_of_itemProblem (event : EventRecord) (h : itemProblem event = none) : Fits event := by
  have hsound := (itemProblem_iff event).mp h
  have hfield := fits_textFields event (fun ht => hsound (Or.inr (Or.inl ht)))
  have hjson := jsonTexts_storable event (fun hj => hsound (Or.inr (Or.inr hj)))
  constructor
  · exact hfield (js "aidA") event.aidA 512 (by simp [textFields])
  · exact hfield (js "aidB") event.aidB 512 (by simp [textFields])
  · exact hfield (js "sessionId") event.sessionId 255 (by simp [textFields])
  · exact hfield (js "runId") event.runId 255 (by simp [textFields])
  · apply List.all_eq_true.mpr
    exact fun g hg => hjson g (List.mem_append_left _ hg)
  · exact fun t ht => hjson t (List.mem_append_right _ ht)

theorem sessionOf_some (event : EventRecord) (sid : Text) (h : sessionOf event = some sid) :
    event.sessionId = some sid := by
  cases hs : event.sessionId with
  | none => simp [sessionOf, hs, nonEmptyString] at h
  | some t =>
    rw [sessionOf, hs, Option.map_some, nonEmptyString_str] at h
    split_ifs at h
    exact h

section Accepting
variable (event : EventRecord) (h : Accepted event) (sid : Text)
  (hs : sessionOf event = some sid)

include h hs

theorem sid_fits : fitsVarchar 255 sid = true := by
  have hf := (fits_of_itemProblem event h.sound).sessionId
  rw [sessionOf_some event sid hs] at hf
  exact hf

omit hs in
theorem boundary_storable (b : Text) (hb : deriveBoundary event = some b) : hasNul b = false := by
  have ht := (fits_of_itemProblem event h.sound).payload b (textsOf_get _ _ _ hb)
  simp only [textStorable, Bool.and_eq_true, Bool.not_eq_true'] at ht
  exact ht.1

theorem startStorable_iff :
    startStorable sid event = true ↔
      ∀ b ∈ deriveBoundary event, ∀ u ∈ pastCodePoints 32 b, u = 0x20 := by
  have hf := fits_of_itemProblem event h.sound
  simp only [startStorable, takes_of_fits 255 sid (sid_fits event h sid hs),
    all_takes_of_fits 512 _ hf.aidA, all_takes_of_fits 512 _ hf.aidB,
    all_takes_of_fits 255 _ hf.runId, h.dated, Bool.true_and, Bool.and_true]
  cases hb : deriveBoundary event with
  | none => simp
  | some b => simp [takesVarchar, boundary_storable event h b hb]

theorem completeStorable_accepted : completeStorable sid event = true := by
  have hn := sid_fits event h sid hs
  simp only [fitsVarchar, Bool.and_eq_true] at hn
  simp [completeStorable, hn.1, h.dated, (fits_of_itemProblem event h.sound).grants]

theorem failedStorable_accepted : failedStorable sid event = true := by
  have hn := sid_fits event h sid hs
  simp only [fitsVarchar, Bool.and_eq_true] at hn
  simp only [failedStorable, hn.1, Bool.true_and]
  cases he : reportedError event with
  | none => rfl
  | some e =>
    have ht := (fits_of_itemProblem event h.sound).payload e (textsOf_get _ _ _ he)
    simp only [textStorable, Bool.and_eq_true] at ht
    exact ht.1

end Accepting

theorem started_ne : handshakeStarted ≠ handshakeComplete ∧ handshakeStarted ≠ handshakeFailed ∧
    handshakeComplete ≠ handshakeFailed := by
  decide +kernel

theorem writeFits_iff (event : EventRecord) (h : Accepted event) :
    writeFits event = true ↔ BoundaryFits event := by
  cases hs : sessionOf event with
  | none => simp [writeFits, BoundaryFits, hs]
  | some sid =>
    simp only [writeFits, BoundaryFits, hs, Option.all_some, ne_eq, reduceCtorEq,
      not_false_eq_true, forall_const]
    by_cases ht : event.type = handshakeStarted
    · rw [if_pos ht, startStorable_iff event h sid hs]
      simp [ht]
    · rw [if_neg ht]
      simp [ht, completeStorable_accepted event h sid hs, failedStorable_accepted event h sid hs]

theorem started_row (event : EventRecord) (sid : Text) (hs : sessionOf event = some sid)
    (ht : event.type = handshakeStarted) (hf : startStorable sid event = true) (now : Instant)
    (rows : List HandshakeSession) :
    ∃ r ∈ onEvent now event rows, r.sessionId = varchar 255 sid := by
  have he : onEvent now event rows =
      if rows.any (fun r => r.sessionId = varchar 255 sid) then rows
      else rows++[newSession now sid event] := by
    rw [onEvent]
    rw [sessionOf] at hs
    simp [hs, ht, hf]
  rw [he]
  by_cases hr : rows.any (fun r => r.sessionId = varchar 255 sid) = true
  · rw [if_pos hr]
    obtain ⟨r, hr, hid⟩ := List.any_eq_true.mp hr
    exact ⟨r, hr, of_decide_eq_true hid⟩
  · rw [if_neg hr]
    exact ⟨newSession now sid event, List.mem_append_right _ (List.mem_singleton.mpr rfl), rfl⟩

theorem completed_row (event : EventRecord) (sid : Text) (hs : sessionOf event = some sid)
    (ht : event.type = handshakeComplete) (hf : completeStorable sid event = true) (now : Instant)
    (rows : List HandshakeSession) (r : HandshakeSession) (hr : r ∈ rows)
    (hid : r.sessionId = toWellFormed sid) :
    { r with status := .complete, completedAt := some event.ts,
             grants := event.grants.getD [], updatedAt := now } ∈ onEvent now event rows := by
  have hne : event.type ≠ handshakeStarted := ht ▸ started_ne.1.symm
  rw [onEvent]
  rw [sessionOf] at hs
  simp only [hs, if_neg hne, if_pos ht, if_pos hf]
  apply List.mem_map.mpr
  exact ⟨r, hr, if_pos hid⟩

theorem failed_row (event : EventRecord) (sid : Text) (hs : sessionOf event = some sid)
    (ht : event.type = handshakeFailed) (hf : failedStorable sid event = true) (now : Instant)
    (rows : List HandshakeSession) (r : HandshakeSession) (hr : r ∈ rows)
    (hid : r.sessionId = toWellFormed sid) :
    { r with status := .failed, error := (reportedError event).map toWellFormed,
             updatedAt := now } ∈ onEvent now event rows := by
  have hstart : event.type ≠ handshakeStarted := ht ▸ started_ne.2.1.symm
  have hcomplete : event.type ≠ handshakeComplete := ht ▸ started_ne.2.2.symm
  rw [onEvent]
  rw [sessionOf] at hs
  simp only [hs, if_neg hstart, if_neg hcomplete, if_pos ht, if_pos hf]
  apply List.mem_map.mpr
  exact ⟨r, hr, if_pos hid⟩

theorem projected_iff (event : EventRecord) (h : Accepted event) :
    Projected event ↔ BoundaryFits event := by
  rw [← writeFits_iff event h]
  constructor
  · exact fun hp => hp.written
  intro hw
  constructor
  · intro ht sid hs
    have hf := (startStorable_iff event h sid hs).mpr
      ((writeFits_iff event h).mp hw ht (by simp [Option.mem_def.mp hs]))
    rw [← varchar_of_fits 255 sid (sid_fits event h sid hs)]
    exact started_row event sid hs ht hf
  · intro ht sid hs
    exact completed_row event sid hs ht (completeStorable_accepted event h sid hs)
  · intro ht sid hs
    exact failed_row event sid hs ht (failedStorable_accepted event h sid hs)
  · exact hw

theorem session_projection_iff (parseDate : Text → Option Instant) (now : Instant) (raw : Json)
    (id : Text) (h : Accepted (normalize parseDate now raw id)) :
    Projected (normalize parseDate now raw id) ↔ BoundaryFits (normalize parseDate now raw id) :=
  projected_iff _ h

def startedWith (boundary : Text) : Json :=
  .obj [(js "type", .str handshakeStarted), (js "sessionId", .str (js "s-1")),
    (js "payload", .obj [(js "boundary", .str boundary)])]

theorem session_projection_iff_short :
    Projected (normalize (fun _ => none) 1000 (startedWith (js "org")) (js "e-1")) ↔
      BoundaryFits (normalize (fun _ => none) 1000 (startedWith (js "org")) (js "e-1")) :=
  session_projection_iff (fun _ => none) 1000 (startedWith (js "org")) (js "e-1")
    (by decide +kernel)

/-- The blank behind 32 characters is cut off, and the session has its row. -/
example : (onEvent 1000 (normalize (fun _ => none) 1000
    (startedWith (List.replicate 32 0x61++[0x20])) (js "e-1")) []).map (·.boundary) =
      [some (List.replicate 32 0x61)] := by decide +kernel

/-- 33 characters of boundary are accepted and leave the session without a row. -/
theorem long_boundary_leaves_no_session :
    onEvent 1000 (normalize (fun _ => none) 1000 (startedWith (List.replicate 33 0x61))
      (js "e-1")) [] = [] ∧
    ¬ ∀ raw, Accepted (normalize (fun _ => none) 1000 raw (js "e-1")) →
      Projected (normalize (fun _ => none) 1000 raw (js "e-1")) := by
  have hnone : onEvent 1000 (normalize (fun _ => none) 1000
      (startedWith (List.replicate 33 0x61)) (js "e-1")) [] = [] := by decide +kernel
  apply And.intro hnone
  intro h
  have hp := h (startedWith (List.replicate 33 0x61)) (by decide +kernel)
  obtain ⟨r, hr, -⟩ := hp.started (by decide +kernel) (js "s-1") (by decide +kernel) 1000 []
  rw [hnone] at hr
  simp at hr

end ControlPlane.SessionCompleteness
