import ControlPlane.RevocationClosure

/-!
# Entries of one report

The entries of one event are projected in a loop whose only handler is outside
of it, so the first entry that throws ends the loop. An entry on its own loses
nothing else. The two agree exactly when nothing after the first throwing
entry would be inserted.
-/

set_option autoImplicit false

namespace ControlPlane.EntryIsolation
open ControlPlane.JsText ControlPlane.JsValue ControlPlane.HttpValidate ControlPlane.TctParse
open ControlPlane.TctMonitor

/-- The report of one entry alone, with the type, time and session of its event. -/
def alone (event : AuditEventRecord) (raw : Json) : AuditEventRecord :=
  { event with payload := .obj [(js "tcts", .arr [raw])] }

def projectAlone (M : Monitor) (now : Instant) (getAgent : Text → Option Text)
    (event : AuditEventRecord) (entries : List Json) (t : Tables) : Tables :=
  entries.foldl (fun t raw => onEvent M now getAgent (alone event raw) t) t

inductive Entry where
  | throws
  | skipped
  | stored (tct : ParsedTct)

def readEntry (event : AuditEventRecord) (raw : Json) : Entry :=
  match parseTct raw event.ts with
  | none => .throws
  | some none => .skipped
  | some (some tct) => if tctStorable tct event.sessionId then .stored tct else .throws

def storedJti (event : AuditEventRecord) (raw : Json) : Option Text :=
  match readEntry event raw with
  | .stored tct => some (uuid tct.jti)
  | _ => none

def heldJtis (t : Tables) : List Text := t.issuedTcts.map (·.jti)

/-- Behind the first entry that throws, every entry that could be stored names
an identifier that is held by then. -/
def Unblocked (event : AuditEventRecord) : List Json → List Text → Prop
  | [], _ => True
  | raw::rest, held =>
    match readEntry event raw with
    | .throws => ∀ jti ∈ rest.filterMap (storedJti event), jti ∈ held
    | .skipped => Unblocked event rest held
    | .stored tct => Unblocked event rest (uuid tct.jti::held)

def decideUnblocked (event : AuditEventRecord) :
    ∀ entries held, Decidable (Unblocked event entries held)
  | [], _ => isTrue trivial
  | raw::rest, held =>
    match h : readEntry event raw with
    | .throws =>
      decidable_of_iff (∀ jti ∈ rest.filterMap (storedJti event), jti ∈ held)
        (by rw [Unblocked, h])
    | .skipped =>
      have := decideUnblocked event rest held
      decidable_of_iff (Unblocked event rest held) (by rw [Unblocked, h])
    | .stored tct =>
      have := decideUnblocked event rest (uuid tct.jti::held)
      decidable_of_iff (Unblocked event rest (uuid tct.jti::held)) (by rw [Unblocked, h])

instance (event : AuditEventRecord) (entries : List Json) (held : List Text) :
    Decidable (Unblocked event entries held) :=
  decideUnblocked event entries held

theorem unblocked_congr (event : AuditEventRecord) (entries : List Json) (as bs : List Text)
    (h : ∀ x, x ∈ as ↔ x ∈ bs) : Unblocked event entries as ↔ Unblocked event entries bs := by
  induction entries generalizing as bs with
  | nil => rfl
  | cons raw rest ih =>
    simp only [Unblocked]
    cases readEntry event raw with
    | throws => simp only [h]
    | skipped => exact ih as bs h
    | stored tct =>
      apply ih
      intro x
      simp only [List.mem_cons, h]

def stored (event : AuditEventRecord) (tct : ParsedTct) (t : Tables) : Tables :=
  if uuid tct.jti ∈ heldJtis t then t
  else { t with issuedTcts := t.issuedTcts++[newTct tct event.sessionId t] }

theorem any_held (jti : Text) (t : Tables) :
    t.issuedTcts.any (·.jti = jti) = true ↔ jti ∈ heldJtis t := by
  simp [heldJtis]

theorem insertTct_stored (event : AuditEventRecord) (tct : ParsedTct) (t : Tables)
    (h : tctStorable tct event.sessionId = true) :
    insertTct tct event.sessionId t = some (stored event tct t) := by
  rw [insertTct, if_pos h, stored]
  simp only [any_held]

theorem newTct_jti (tct : ParsedTct) (sessionId : Option Text) (t : Tables) :
    (newTct tct sessionId t).jti = uuid tct.jti := rfl

theorem heldJtis_stored (event : AuditEventRecord) (tct : ParsedTct) (t : Tables) (x : Text) :
    x ∈ heldJtis (stored event tct t) ↔ x ∈ uuid tct.jti::heldJtis t := by
  by_cases h : uuid tct.jti ∈ heldJtis t
  · rw [stored, if_pos h, List.mem_cons]
    constructor
    · exact Or.inr
    · rintro (rfl | hx)
      · exact h
      · exact hx
  · rw [stored, if_neg h]
    simp only [heldJtis, List.map_append, List.map_cons, List.map_nil, newTct_jti, List.mem_append,
      List.mem_cons, List.not_mem_nil, or_false]
    exact or_comm

section Off
variable (M : Monitor) (hM : M.mode = .off) (now : Instant) (getAgent : Text → Option Text)
  (event : AuditEventRecord)

include hM

theorem recordEntries_cons (raw : Json) (rest : List Json) (t : Tables) :
    recordEntries M now event (raw::rest) t =
      match readEntry event raw with
      | .throws => t
      | .skipped => recordEntries M now event rest t
      | .stored tct => recordEntries M now event rest (stored event tct t) := by
  rw [recordEntries, readEntry]
  cases parseTct raw event.ts with
  | none => rfl
  | some parsed =>
    cases parsed with
    | none => rfl
    | some tct =>
      by_cases hs : tctStorable tct event.sessionId = true
      · simp [gateObserved, hM, insertTct_stored event tct t hs, hs]
      · simp [gateObserved, hM, insertTct, hs]

variable (ht : event.type = tctIssued ∨ event.type = handshakeComplete)

include ht

theorem onEvent_reported (payload : Json) (t : Tables) :
    onEvent M now getAgent { event with payload := payload } t =
      recordEntries M now event (reportedTcts payload) t := by
  have hd : (decide (event.type = tctIssued) ||
      decide (event.type = handshakeComplete)) = true := by
    simpa using ht
  rw [onEvent, if_pos hd, recordIssuedTcts]
  induction reportedTcts payload generalizing t with
  | nil => rfl
  | cons raw rest ih =>
    simp only [recordEntries_cons M hM]
    have hr : readEntry { event with payload := payload } raw = readEntry event raw := rfl
    rw [hr]
    cases readEntry event raw with
    | throws => rfl
    | skipped => exact ih t
    | stored tct => exact ih _

theorem projectAlone_cons (raw : Json) (rest : List Json) (t : Tables) :
    projectAlone M now getAgent event (raw::rest) t =
      match readEntry event raw with
      | .stored tct => projectAlone M now getAgent event rest (stored event tct t)
      | _ => projectAlone M now getAgent event rest t := by
  have hone : onEvent M now getAgent (alone event raw) t =
      recordEntries M now event [raw] t :=
    onEvent_reported M hM now getAgent event ht (.obj [(js "tcts", .arr [raw])]) t
  rw [projectAlone, List.foldl_cons, hone, recordEntries_cons M hM]
  cases readEntry event raw <;> rfl

theorem projectAlone_length (entries : List Json) (t : Tables) :
    t.issuedTcts.length ≤ (projectAlone M now getAgent event entries t).issuedTcts.length := by
  induction entries generalizing t with
  | nil => exact le_refl _
  | cons raw rest ih =>
    rw [projectAlone_cons M hM now getAgent event ht]
    cases readEntry event raw with
    | throws => exact ih t
    | skipped => exact ih t
    | stored tct =>
      apply le_trans ?_ (ih (stored event tct t))
      rw [stored]
      split
      · exact le_refl _
      · simp

theorem projectAlone_eq_self (entries : List Json) (t : Tables) :
    projectAlone M now getAgent event entries t = t ↔
      ∀ jti ∈ entries.filterMap (storedJti event), jti ∈ heldJtis t := by
  induction entries generalizing t with
  | nil => simp [projectAlone]
  | cons raw rest ih =>
    rw [projectAlone_cons M hM now getAgent event ht]
    cases he : readEntry event raw with
    | throws => simpa [storedJti, he] using ih t
    | skipped => simpa [storedJti, he] using ih t
    | stored tct =>
      have hj : storedJti event raw = some (uuid tct.jti) := by rw [storedJti, he]
      rw [List.filterMap_cons_some hj, List.forall_mem_cons]
      by_cases hh : uuid tct.jti ∈ heldJtis t
      · have hs : stored event tct t = t := if_pos hh
        simp only [hs, hh, true_and]
        exact ih t
      · simp only [hh, false_and, iff_false]
        intro h
        have hlen := projectAlone_length M hM now getAgent event ht rest (stored event tct t)
        rw [h, stored, if_neg hh, List.length_append, List.length_singleton] at hlen
        omega

theorem loop_isolated_iff (entries : List Json) (t : Tables) :
    recordEntries M now event entries t = projectAlone M now getAgent event entries t ↔
      Unblocked event entries (heldJtis t) := by
  induction entries generalizing t with
  | nil => simp [recordEntries, projectAlone, Unblocked]
  | cons raw rest ih =>
    rw [recordEntries_cons M hM, projectAlone_cons M hM now getAgent event ht, Unblocked]
    cases readEntry event raw with
    | throws =>
      simp only
      rw [eq_comm]
      exact projectAlone_eq_self M hM now getAgent event ht rest t
    | skipped => exact ih t
    | stored tct =>
      exact (ih (stored event tct t)).trans
        (unblocked_congr event rest _ _ (heldJtis_stored event tct t))

theorem entries_isolated_iff (t : Tables) :
    onEvent M now getAgent event t =
        projectAlone M now getAgent event (reportedTcts event.payload) t ↔
      Unblocked event (reportedTcts event.payload) (heldJtis t) := by
  have hloop : onEvent M now getAgent event t =
      recordEntries M now event (reportedTcts event.payload) t :=
    onEvent_reported M hM now getAgent event ht event.payload t
  rw [hloop]
  exact loop_isolated_iff M hM now getAgent event ht (reportedTcts event.payload) t

end Off

section Scenario
open ControlPlane.RevocationClosure (observer tctJti hopJti)

def reported (jti : Text) (claims : List (Text × Json)) : Json :=
  .obj ([(js "jti", .str jti), (js "iss", .str (js "aid:a")),
    (js "sub", .str (js "aid:b"))]++claims)

def badDateFirst : AuditEventRecord where
  type := tctIssued
  ts := 1000
  sessionId := none
  payload := .obj [(js "tcts", .arr [reported tctJti [(js "iat", .num (.finite (10^15)))],
    reported hopJti []])]

def badDateLast : AuditEventRecord :=
  { badDateFirst with
    payload := .obj [(js "tcts", .arr [reported hopJti [],
      reported tctJti [(js "iat", .num (.finite (10^15)))]])] }

theorem entries_isolated_iff_last :
    onEvent observer 1000 (fun _ => none) badDateLast Tables.empty =
        projectAlone observer 1000 (fun _ => none) badDateLast
          (reportedTcts badDateLast.payload) Tables.empty ↔
      Unblocked badDateLast (reportedTcts badDateLast.payload) (heldJtis Tables.empty) :=
  entries_isolated_iff observer rfl 1000 (fun _ => none) badDateLast (Or.inl rfl) Tables.empty

theorem bad_date_blocks_entry :
    onEvent observer 1000 (fun _ => none) badDateFirst Tables.empty = Tables.empty ∧
      (projectAlone observer 1000 (fun _ => none) badDateFirst
        (reportedTcts badDateFirst.payload) Tables.empty).issuedTcts.map (·.jti) = [hopJti] ∧
      ¬ ∀ event t, event.type = tctIssued ∨ event.type = handshakeComplete →
        onEvent observer 1000 (fun _ => none) event t =
          projectAlone observer 1000 (fun _ => none) event (reportedTcts event.payload) t := by
  have hloop : onEvent observer 1000 (fun _ => none) badDateFirst Tables.empty = Tables.empty := by
    decide +kernel
  have halone : (projectAlone observer 1000 (fun _ => none) badDateFirst
      (reportedTcts badDateFirst.payload) Tables.empty).issuedTcts.map (·.jti) = [hopJti] := by
    decide +kernel
  apply And.intro hloop
  apply And.intro halone
  intro h
  rw [← h badDateFirst Tables.empty (Or.inl rfl), hloop] at halone
  simp [Tables.empty] at halone

end Scenario

end ControlPlane.EntryIsolation
