import ControlPlane.TctMonitor

/-!
# Received events

An entry of a batch is normalized through chains of accepted names, with a
default for what it lacks. Its time is its own if that is a storable instant,
else the time of the request. An entry that the database could not store is
refused with the first field that stands in the way.
-/

set_option autoImplicit false

namespace ControlPlane.EventNormalize
open ControlPlane.JsText ControlPlane.JsValue ControlPlane.HttpValidate ControlPlane.TctParse
open ControlPlane.TctMonitor

structure EventRecord extends AuditEventRecord where
  id : Text
  aidA : Option Text
  aidB : Option Text
  runId : Option Text
  grants : Option (List Text)
  source : Option Text

/-- `parseDate` is `new Date(text).getTime()`; numbers below 1e12 are seconds. -/
def parseEventTimestamp (parseDate : Text → Option Instant) : Option Json → Option Instant
  | some (.str text) => (parseDate text).filter instantStorable
  | some (.num (.finite q)) =>
    (toISOString (if q < 10^12 then toDouble (q*1000) else .finite q)).filter instantStorable
  | _ => none

def pickString : List (Option Json) → Option Text
  | [] => none
  | v::vs =>
    match nonEmptyString v with
    | some t => some t
    | none => pickString vs

def pickStringArray (value : Option Json) : Option (List Text) := value.bind strings?

/-- The payload, or the entry itself where it has none. -/
def payloadOf (raw : Json) : Json :=
  match raw.get (js "payload") with
  | some payload => if payload.isObject then payload else raw
  | none => raw

def normalize (parseDate : Text → Option Instant) (now : Instant) (raw : Json) (id : Text) :
    EventRecord where
  id := id
  type := ((raw.get (js "type")).bind Json.string?).getD (js "unknown")
  ts := (parseEventTimestamp parseDate (raw.get (js "ts"))).getD now
  aidA := pickString [raw.get (js "aidA"), raw.get (js "aid_a"), raw.get (js "initiator")]
  aidB := pickString [raw.get (js "aidB"), raw.get (js "aid_b"), raw.get (js "target")]
  sessionId := pickString [raw.get (js "sessionId"), raw.get (js "session_id")]
  runId := pickString [raw.get (js "runId"), raw.get (js "run_id"),
    (raw.get (js "playground")).bind (·.get (js "run_id"))]
  grants := pickStringArray (raw.get (js "grants"))
  payload := payloadOf raw
  source := some ((pickString [raw.get (js "source")]).getD (js "playground"))

def maxPayloadDepth : ℕ := 64

mutual

def nestedOver : ℕ → Json → Bool
  | n, .arr items => n = 0 || itemsOver (n-1) items
  | n, .obj members => n = 0 || membersOver (n-1) members
  | _, _ => false

def itemsOver : ℕ → List Json → Bool
  | _, [] => false
  | n, v::vs => nestedOver n v || itemsOver n vs

def membersOver : ℕ → List (Text × Json) → Bool
  | _, [] => false
  | n, (_, v)::ms => nestedOver n v || membersOver n ms

end

mutual

def textsOf : Json → List Text
  | .str s => [s]
  | .arr items => textsOfItems items
  | .obj members => textsOfMembers members
  | _ => []

def textsOfItems : List Json → List Text
  | [] => []
  | v::vs => textsOf v++textsOfItems vs

def textsOfMembers : List (Text × Json) → List Text
  | [] => []
  | (k, v)::ms => k::textsOf v++textsOfMembers ms

end

structure ItemProblem where
  field : Text
  reason : Text
  tooDeep : Bool
  deriving DecidableEq, Repr

def jsonValueProblem (root : Json) (field : Text) : Option ItemProblem :=
  if nestedOver maxPayloadDepth root then
    some ⟨field, field++js " is nested too deep (more than "++number maxPayloadDepth++
      js " levels)", true⟩
  else if (textsOf root).any hasNul then
    some ⟨field, field++js " contains a NUL character", false⟩
  else if (textsOf root).any (fun t => !isWellFormed t) then
    some ⟨field, field++js " contains a lone UTF-16 surrogate", false⟩
  else none

def textProblem : List (Text × Option Text × ℕ) → Option ItemProblem
  | [] => none
  | (_, none, _)::fields => textProblem fields
  | (field, some value, max)::fields =>
    match checkColumnString value field max none with
    | some reason => some ⟨field, reason, false⟩
    | none => textProblem fields

def textFields (event : EventRecord) : List (Text × Option Text × ℕ) :=
  [(js "type", some event.type, 128), (js "aidA", event.aidA, 512),
    (js "aidB", event.aidB, 512), (js "sessionId", event.sessionId, 255),
    (js "runId", event.runId, 255), (js "source", event.source, 128)]

def itemProblem (event : EventRecord) : Option ItemProblem :=
  let payloadProblem := jsonValueProblem event.payload (js "payload")
  if payloadProblem.any (·.tooDeep) then payloadProblem
  else
    match textProblem (textFields event) with
    | some problem => some problem
    | none =>
      match event.grants.bind (fun grants =>
          jsonValueProblem (.arr (grants.map .str)) (js "grants")) with
      | some problem => some problem
      | none => payloadProblem

end ControlPlane.EventNormalize
