import ControlPlane.AuditReview
import ControlPlane.JsonLines
import ControlPlane.ListQueries

/-!
# Exports of a session and of an agent

An export reads the row it is about and then everything that belongs to it,
each by a query of its own, and gives the rows either as one document or one a
line. What a reader gets back are the rows that the queries gave.
-/

set_option autoImplicit false

namespace ControlPlane.ExportRoutes
open ControlPlane.JsText ControlPlane.JsValue ControlPlane.JsonReader ControlPlane.JsonLines
open ControlPlane.HttpValidate ControlPlane.Utf8Text ControlPlane.OffsetPaging
open ControlPlane.RequestGate (isHeaderUnit isHeaderValue isHttpSpace normalizeValue)
open ControlPlane.RevocationRoute (nullable)
open ControlPlane.AuditReview (Stamp)
open ControlPlane.ListQueries (Params countParam)

/-- A `jsonb` value as the driver reads it. -/
structure JsonColumn where
  value : Json
  numbers : (docOf value).Valid

structure AgentRow where
  aid : Text
  displayName : Text
  handshakeEndpoint : Text
  offeredCaps : JsonColumn
  manifestJson : Text
  manifestExpiresAt : Option Stamp
  status : Text
  registeredAt : Stamp
  lastEnrolledAt : Option Stamp
  lastSeenAt : Option Stamp
  org : Option Text
  cloud : Option Text
  agentNamespace : Text
  metadata : JsonColumn

structure SessionRow where
  sessionId : Text
  aidA : Option Text
  aidB : Option Text
  status : Text
  grants : JsonColumn
  runId : Option Text
  boundary : Option Text
  error : Option Text
  startedAt : Option Stamp
  completedAt : Option Stamp
  createdAt : Stamp
  updatedAt : Stamp

structure TctRow where
  jti : Text
  issuerAid : Text
  subjectAid : Text
  audienceAid : Text
  grants : JsonColumn
  bindingCnf : Option Text
  issuedAt : Stamp
  expiresAt : Option Stamp
  sessionId : Option Text
  revoked : Bool
  revokedAt : Option Stamp
  createdAt : Stamp

structure EventRow where
  id : Text
  type : Text
  ts : Stamp
  aidA : Option Text
  aidB : Option Text
  sessionId : Option Text
  runId : Option Text
  grants : Option JsonColumn
  payload : JsonColumn
  source : Option Text
  createdAt : Stamp

section Rows
variable (stampText : Stamp → Text)

def stamp (t : Stamp) : Json := .str (stampText t)

def nullableStamp (t : Option Stamp) : Json := nullable (t.map stampText)

def AgentRow.json (r : AgentRow) : Json :=
  .obj [(js "aid", .str r.aid), (js "displayName", .str r.displayName),
    (js "handshakeEndpoint", .str r.handshakeEndpoint), (js "offeredCaps", r.offeredCaps.value),
    (js "manifestJson", .str r.manifestJson),
    (js "manifestExpiresAt", nullableStamp stampText r.manifestExpiresAt),
    (js "status", .str r.status), (js "registeredAt", stamp stampText r.registeredAt),
    (js "lastEnrolledAt", nullableStamp stampText r.lastEnrolledAt),
    (js "lastSeenAt", nullableStamp stampText r.lastSeenAt), (js "org", nullable r.org),
    (js "cloud", nullable r.cloud), (js "namespace", .str r.agentNamespace),
    (js "metadata", r.metadata.value)]

def SessionRow.json (r : SessionRow) : Json :=
  .obj [(js "sessionId", .str r.sessionId), (js "aidA", nullable r.aidA),
    (js "aidB", nullable r.aidB), (js "status", .str r.status), (js "grants", r.grants.value),
    (js "runId", nullable r.runId), (js "boundary", nullable r.boundary),
    (js "error", nullable r.error), (js "startedAt", nullableStamp stampText r.startedAt),
    (js "completedAt", nullableStamp stampText r.completedAt),
    (js "createdAt", stamp stampText r.createdAt), (js "updatedAt", stamp stampText r.updatedAt)]

def TctRow.json (r : TctRow) : Json :=
  .obj [(js "jti", .str r.jti), (js "issuerAid", .str r.issuerAid),
    (js "subjectAid", .str r.subjectAid), (js "audienceAid", .str r.audienceAid),
    (js "grants", r.grants.value), (js "bindingCnf", nullable r.bindingCnf),
    (js "issuedAt", stamp stampText r.issuedAt),
    (js "expiresAt", nullableStamp stampText r.expiresAt),
    (js "sessionId", nullable r.sessionId), (js "revoked", .bool r.revoked),
    (js "revokedAt", nullableStamp stampText r.revokedAt),
    (js "createdAt", stamp stampText r.createdAt)]

def EventRow.json (r : EventRow) : Json :=
  .obj [(js "id", .str r.id), (js "type", .str r.type), (js "ts", stamp stampText r.ts),
    (js "aidA", nullable r.aidA), (js "aidB", nullable r.aidB),
    (js "sessionId", nullable r.sessionId), (js "runId", nullable r.runId),
    (js "grants", (r.grants.map (·.value)).getD .null), (js "payload", r.payload.value),
    (js "source", nullable r.source), (js "createdAt", stamp stampText r.createdAt)]

theorem nullable_valid (t : Option Text) : (docOf (nullable t)).Valid := by
  cases t <;> exact trivial

theorem AgentRow.json_valid (r : AgentRow) : (docOf (r.json stampText)).Valid := by
  simp only [AgentRow.json, docOf, docMembers, JsonText.Doc.Valid, JsonText.MembersValid,
    JsonText.Token.Valid, stamp, nullableStamp, nullable_valid, r.offeredCaps.numbers,
    r.metadata.numbers, and_self]

theorem SessionRow.json_valid (r : SessionRow) : (docOf (r.json stampText)).Valid := by
  simp only [SessionRow.json, docOf, docMembers, JsonText.Doc.Valid, JsonText.MembersValid,
    JsonText.Token.Valid, stamp, nullableStamp, nullable_valid, r.grants.numbers, and_self]

theorem TctRow.json_valid (r : TctRow) : (docOf (r.json stampText)).Valid := by
  simp only [TctRow.json, docOf, docMembers, JsonText.Doc.Valid, JsonText.MembersValid,
    JsonText.Token.Valid, stamp, nullableStamp, nullable_valid, r.grants.numbers, and_self]

theorem EventRow.json_valid (r : EventRow) : (docOf (r.json stampText)).Valid := by
  have hgrants : (docOf ((r.grants.map (·.value)).getD .null)).Valid := by
    cases r.grants with
    | none => exact trivial
    | some c => exact c.numbers
  simp only [EventRow.json, docOf, docMembers, JsonText.Doc.Valid, JsonText.MembersValid,
    JsonText.Token.Valid, stamp, nullable_valid, hgrants, r.payload.numbers, and_self]

end Rows

inductive Response where
  | problem (p : Problem)
  | threw
  | file (contentType disposition : Text) (body : List UInt8)
  | json (body : List UInt8)

/-- A name that cannot stand in a header is refused with an exception. -/
def download (name : Text) (records : List Json) : Response :=
  let disposition := normalizeValue (js "attachment; filename=\""++name++js ".jsonl\"")
  if isHeaderValue disposition then
    .file (js "application/x-ndjson") disposition (encodeLines records)
  else .threw

def document (members : List (Text × Json)) : Response :=
  .json (encodeUtf8 (stringify (.obj members)))

def line (kind : Text) (record : Json) : Json :=
  .obj [(js "kind", .str kind), (js "record", record)]

section Routes
variable (stampText : Stamp → Text)

def sessionRecords (session : SessionRow) (tcts : List TctRow) (events : List EventRow) :
    List Json :=
  line (js "session") (session.json stampText)::
    (tcts.map (fun t => line (js "tct") (t.json stampText))++
      events.map (fun e => line (js "event") (e.json stampText)))

/-- `GET /api/sessions/:sessionId/export`, with what its queries gave. -/
def sessionExport (sessionId : Text) (format : Option Text) (session : Option SessionRow)
    (events : List EventRow) (tcts : List TctRow) (exportedAt : Text) : Response :=
  if hasNul sessionId then .threw
  else
    match session with
    | none => .problem ⟨404, js "session not found", js "NOT_FOUND"⟩
    | some session =>
      if format.getD (js "json") = js "jsonl" then
        download (js "session-"++sessionId) (sessionRecords stampText session tcts events)
      else document [(js "session", session.json stampText),
        (js "tcts", .arr (tcts.map (·.json stampText))),
        (js "events", .arr (events.map (·.json stampText))), (js "exportedAt", .str exportedAt)]

def agentRecords (agent : AgentRow) (sessions : List SessionRow) (tcts : List TctRow)
    (events : List EventRow) : List Json :=
  line (js "agent") (agent.json stampText)::
    (sessions.map (fun s => line (js "session") (s.json stampText))++
      (tcts.map (fun t => line (js "tct") (t.json stampText))++
        events.map (fun e => line (js "event") (e.json stampText))))

def isUnreserved (b : UInt8) : Bool :=
  (0x30 ≤ b && b ≤ 0x39) || (0x41 ≤ b && b ≤ 0x5A) || (0x61 ≤ b && b ≤ 0x7A) ||
    [0x2D, 0x5F, 0x2E, 0x21, 0x7E, 0x2A, 0x27, 0x28, 0x29].contains b

def upperHex (d : ℕ) : UInt16 := if d < 10 then 0x30+d.toUInt16 else 0x37+d.toUInt16

/-- Nothing when the text has half of a surrogate pair. -/
def encodeURIComponent (t : Text) : Option Text :=
  if isWellFormed t then
    some ((encodeUtf8 t).flatMap (fun b =>
      if isUnreserved b then [b.toUInt16]
      else [0x25, upperHex (b.toNat/16), upperHex (b.toNat%16)]))
  else none

def eventLimit (sp : Params) : ℕ :=
  (min (max (countParam sp (js "eventLimit") (js "1000") 1000) 1) 10000).toNat

/-- `GET /api/registry/agents/:aid/export`; `aid` is decoded, or decoding it
failed. -/
def agentExport (aid : Option Text) (sp : Params) (agent : Option AgentRow)
    (sessions : List SessionRow) (tcts : List TctRow) (events : List EventRow)
    (exportedAt : Text) : Response :=
  match aid with
  | none => .threw
  | some aid =>
    if hasNul aid then .threw
    else
      match agent with
      | none => .problem ⟨404, js "agent not found", js "NOT_FOUND"⟩
      | some agent =>
        if (sp (js "format")).getD (js "json") = js "jsonl" then
          match encodeURIComponent aid with
          | none => .threw
          | some name =>
            download (js "agent-"++name) (agentRecords stampText agent sessions tcts events)
        else document [(js "agent", agent.json stampText),
          (js "sessions", .arr (sessions.map (·.json stampText))),
          (js "tcts", .arr (tcts.map (·.json stampText))),
          (js "events", .arr (events.map (·.json stampText))), (js "exportedAt", .str exportedAt)]

end Routes

structure SessionAnswers (sessions : List SessionRow) (events : List EventRow)
    (tcts : List TctRow) (sessionId : Text) (session : Option SessionRow) (evs : List EventRow)
    (ts : List TctRow) : Prop where
  session : session = sessions.find? (·.sessionId = toWellFormed sessionId)
  events : Ordering EventRow.ts (events.filter (·.sessionId = some (toWellFormed sessionId))) evs
  tcts : ts.Perm (tcts.filter (·.sessionId = some (toWellFormed sessionId)))

def tookPart (aid : Text) (s : SessionRow) : Bool := s.aidA = some aid || s.aidB = some aid

def isParty (aid : Text) (t : TctRow) : Bool :=
  t.issuerAid = aid || t.subjectAid = aid || t.audienceAid = aid

def concerns (aid : Text) (e : EventRow) : Bool := e.aidA = some aid || e.aidB = some aid

/-- `ORDER BY started_at DESC`, where null comes first. -/
def latestStart (s : SessionRow) : OrderDual (WithTop Stamp) := OrderDual.toDual s.startedAt

def latest (e : EventRow) : OrderDual Stamp := OrderDual.toDual e.ts

structure AgentAnswers (agents : List AgentRow) (sessions : List SessionRow)
    (tcts : List TctRow) (events : List EventRow) (aid : Text) (limit : ℕ)
    (agent : Option AgentRow) (ss : List SessionRow) (ts : List TctRow) (evs : List EventRow) :
    Prop where
  agent : agent = agents.find? (·.aid = aid)
  sessions : Ordering latestStart (sessions.filter (tookPart aid)) ss
  tcts : ts.Perm (tcts.filter (isParty aid))
  events : ∃ order, Ordering latest (events.filter (concerns aid)) order ∧
    evs = slice limit 0 order

def recordsOf (kind : Text) (lines : List Json) : List Json :=
  lines.filterMap (fun v =>
    if (v.get (js "kind")).bind Json.string? = some kind then v.get (js "record") else none)

theorem recordsOf_append (kind : Text) (as bs : List Json) :
    recordsOf kind (as++bs) = recordsOf kind as++recordsOf kind bs :=
  List.filterMap_append

theorem recordsOf_lines {α : Type} (kind other : Text) (f : α → Json) (xs : List α) :
    recordsOf kind ((xs.map (fun x => line other (f x))).map nulled) =
      if other = kind then xs.map (fun x => nulled (f x)) else [] := by
  have hline : ∀ x, nulled (line other (f x)) = line other (nulled (f x)) := fun _ => rfl
  have hkind : ∀ r, ((line other r).get (js "kind")).bind Json.string? = some other :=
    fun _ => rfl
  have hrecord : ∀ r, (line other r).get (js "record") = some r := fun _ => rfl
  have hrow : ∀ x, (if ((nulled (line other (f x))).get (js "kind")).bind Json.string? = some kind
      then (nulled (line other (f x))).get (js "record") else none) =
      if other = kind then some (nulled (f x)) else none := by
    intro x
    simp only [hline, hkind, hrecord, Option.some.injEq]
  rw [recordsOf, List.map_map, List.filterMap_map]
  simp only [Function.comp_def, hrow]
  by_cases h : other = kind
  · simp [h]
  · simp [h]

theorem line_valid (kind : Text) (record : Json) (h : (docOf record).Valid) :
    (docOf (line kind record)).Valid := ⟨trivial, h, trivial⟩

theorem normalizeValue_ends (u v : UInt16) (t : Text) (hu : isHttpSpace u = false)
    (hv : isHttpSpace v = false) : normalizeValue (u::(t++[v])) = u::(t++[v]) := by
  rw [normalizeValue, List.dropWhile_cons_of_neg (by simp [hu]), List.rdropWhile_eq_self_iff]
  intro hne
  have hlast : (u::(t++[v])).getLast hne = v := by
    rw [List.getLast_cons (by simp), List.getLast_append_of_ne_nil _ (by simp)]
    rfl
  simp [hlast, hv]

theorem disposition_kept (name : Text) :
    normalizeValue (js "attachment; filename=\""++name++js ".jsonl\"") =
      js "attachment; filename=\""++name++js ".jsonl\"" := by
  have hstart : js "attachment; filename=\"" = 0x61::js "ttachment; filename=\"" := by decide
  have hend : js ".jsonl\"" = js ".jsonl"++[0x22] := by decide
  have hkept := normalizeValue_ends 0x61 0x22 (js "ttachment; filename=\""++name++js ".jsonl")
    (by decide) (by decide)
  simpa [hstart, hend] using hkept

theorem disposition_legal (name : Text) :
    isHeaderValue (js "attachment; filename=\""++name++js ".jsonl\"") = name.all isHeaderUnit := by
  have hstart : (js "attachment; filename=\"").all isHeaderUnit = true := by decide
  have hend : (js ".jsonl\"").all isHeaderUnit = true := by decide
  rw [isHeaderValue, disposition_kept]
  simp [hstart, hend]

theorem download_eq (name : Text) (records : List Json) :
    download name records = if name.all isHeaderUnit then .file (js "application/x-ndjson")
      (js "attachment; filename=\""++name++js ".jsonl\"") (encodeLines records) else .threw := by
  simp only [download, disposition_kept, disposition_legal]

section Sessions
variable (stampText : Stamp → Text)

theorem sessionRecords_valid (session : SessionRow) (tcts : List TctRow) (events : List EventRow) :
    ∀ v ∈ sessionRecords stampText session tcts events, (docOf v).Valid := by
  simp only [sessionRecords, List.forall_mem_cons, List.forall_mem_append, List.forall_mem_map]
  exact ⟨line_valid _ _ (session.json_valid stampText),
    fun t _ => line_valid _ _ (t.json_valid stampText),
    fun e _ => line_valid _ _ (e.json_valid stampText)⟩

/-- What a reader finds in the file of a session: its row, and the rows of the
tables that have its id, the events by their time. -/
structure SessionFile (row : SessionRow) (ts : List TctRow) (evs : List EventRow)
    (lines : List Json) : Prop where
  session : recordsOf (js "session") lines = [nulled (row.json stampText)]
  tcts : (recordsOf (js "tct") lines).Perm (ts.map (fun t => nulled (t.json stampText)))
  events : recordsOf (js "event") lines = evs.map (fun e => nulled (e.json stampText))
  length : lines.length = 1+ts.length+evs.length

theorem sessionRecords_file (session : SessionRow) (ts tcts : List TctRow) (evs : List EventRow)
    (hts : ts.Perm tcts) : SessionFile stampText session tcts evs
      ((sessionRecords stampText session ts evs).map nulled) := by
  have hsplit : (sessionRecords stampText session ts evs).map nulled =
      ([session].map (fun s => line (js "session") (s.json stampText))).map nulled++
        ((ts.map (fun t => line (js "tct") (t.json stampText))).map nulled++
          (evs.map (fun e => line (js "event") (e.json stampText))).map nulled) := by
    simp [sessionRecords]
  have hkinds : [js "session", js "tct", js "event"].Nodup := by decide
  simp only [List.nodup_cons, List.mem_cons, List.not_mem_nil, or_false, not_or,
    List.nodup_nil, and_true] at hkinds
  obtain ⟨⟨h1, h2⟩, h3, _⟩ := hkinds
  rw [hsplit]
  constructor
  · simp only [recordsOf_append, recordsOf_lines, if_neg (Ne.symm h1), if_neg (Ne.symm h2),
      if_true]
    rfl
  · simp only [recordsOf_append, recordsOf_lines, if_neg h1, if_neg (Ne.symm h3), if_true,
      List.nil_append, List.append_nil]
    exact hts.map _
  · simp only [recordsOf_append, recordsOf_lines, if_neg h2, if_neg h3, if_true, List.nil_append]
  · simp [hts.length_eq]
    omega

/-- The file of a session is refused for an id that no header can hold, and
otherwise reads back as all its rows. -/
theorem session_export_reads (sessions : List SessionRow) (events : List EventRow)
    (tcts : List TctRow) (sessionId exportedAt : Text) (row : SessionRow) (evs : List EventRow)
    (ts : List TctRow) (hnul : hasNul sessionId = false)
    (ha : SessionAnswers sessions events tcts sessionId (some row) evs ts) :
    if sessionId.all isHeaderUnit then ∃ disposition body lines,
      sessionExport stampText sessionId (some (js "jsonl")) (some row) evs ts exportedAt =
        .file (js "application/x-ndjson") disposition body ∧ decodeLines body = some lines ∧
      SessionFile stampText row
        (tcts.filter (·.sessionId = some (toWellFormed sessionId))) evs lines
    else sessionExport stampText sessionId (some (js "jsonl")) (some row) evs ts exportedAt =
      .threw := by
  have hprefix : (js "session-").all isHeaderUnit = true := by decide
  have hfile : sessionExport stampText sessionId (some (js "jsonl")) (some row) evs ts exportedAt =
      download (js "session-"++sessionId) (sessionRecords stampText row ts evs) := by
    simp [sessionExport, hnul]
  rw [hfile, download_eq, List.all_append, hprefix, Bool.true_and]
  split_ifs
  · exact ⟨_, _, _, rfl, decodeLines_encodeLines _ (sessionRecords_valid stampText row ts evs),
      sessionRecords_file stampText row ts _ evs ha.tcts⟩
  · rfl

end Sessions

section Agents
variable (stampText : Stamp → Text)

theorem agentRecords_valid (agent : AgentRow) (sessions : List SessionRow) (tcts : List TctRow)
    (events : List EventRow) :
    ∀ v ∈ agentRecords stampText agent sessions tcts events, (docOf v).Valid := by
  simp only [agentRecords, List.forall_mem_cons, List.forall_mem_append, List.forall_mem_map]
  exact ⟨line_valid _ _ (agent.json_valid stampText),
    fun s _ => line_valid _ _ (s.json_valid stampText),
    fun t _ => line_valid _ _ (t.json_valid stampText),
    fun e _ => line_valid _ _ (e.json_valid stampText)⟩

structure AgentFile (row : AgentRow) (ss : List SessionRow) (ts : List TctRow)
    (evs : List EventRow) (lines : List Json) : Prop where
  agent : recordsOf (js "agent") lines = [nulled (row.json stampText)]
  sessions : recordsOf (js "session") lines = ss.map (fun s => nulled (s.json stampText))
  tcts : (recordsOf (js "tct") lines).Perm (ts.map (fun t => nulled (t.json stampText)))
  events : recordsOf (js "event") lines = evs.map (fun e => nulled (e.json stampText))
  length : lines.length = 1+ss.length+ts.length+evs.length

theorem agentRecords_file (row : AgentRow) (ss : List SessionRow) (ts tcts : List TctRow)
    (evs : List EventRow) (hts : ts.Perm tcts) : AgentFile stampText row ss tcts evs
      ((agentRecords stampText row ss ts evs).map nulled) := by
  have hsplit : (agentRecords stampText row ss ts evs).map nulled =
      ([row].map (fun a => line (js "agent") (a.json stampText))).map nulled++
        ((ss.map (fun s => line (js "session") (s.json stampText))).map nulled++
          ((ts.map (fun t => line (js "tct") (t.json stampText))).map nulled++
            (evs.map (fun e => line (js "event") (e.json stampText))).map nulled)) := by
    simp [agentRecords]
  have hkinds : [js "agent", js "session", js "tct", js "event"].Nodup := by decide
  simp only [List.nodup_cons, List.mem_cons, List.not_mem_nil, or_false, not_or,
    List.nodup_nil, and_true] at hkinds
  obtain ⟨⟨h1, h2, h3⟩, ⟨h4, h5⟩, h6, _⟩ := hkinds
  rw [hsplit]
  constructor
  · simp only [recordsOf_append, recordsOf_lines, if_neg (Ne.symm h1), if_neg (Ne.symm h2),
      if_neg (Ne.symm h3), if_true]
    rfl
  · simp only [recordsOf_append, recordsOf_lines, if_neg h1, if_neg (Ne.symm h4),
      if_neg (Ne.symm h5), if_true, List.nil_append, List.append_nil]
  · simp only [recordsOf_append, recordsOf_lines, if_neg h2, if_neg h4, if_neg (Ne.symm h6),
      if_true, List.nil_append, List.append_nil]
    exact hts.map _
  · simp only [recordsOf_append, recordsOf_lines, if_neg h3, if_neg h5, if_neg h6, if_true,
      List.nil_append]
  · simp [hts.length_eq]
    omega

theorem unreserved_legal (b : UInt8) (h : isUnreserved b = true) :
    isHeaderUnit b.toUInt16 = true := by
  have hlt := b.toNat_lt
  have hno : ∀ n : ℕ, b.toUInt16.toNat = n → isUnreserved (UInt8.ofNat n) = true := by
    intro n hn
    rw [UInt8.toNat_toUInt16] at hn
    rw [← hn, UInt8.ofNat_toNat]
    exact h
  simp only [isHeaderUnit, Bool.and_eq_true, decide_eq_true_eq, UInt16.le_iff_toNat_le,
    UInt8.toNat_toUInt16, UInt16.reduceToNat]
  refine ⟨⟨⟨by omega, ?_⟩, ?_⟩, ?_⟩
  · intro h0
    exact absurd (hno 0 (congrArg UInt16.toNat h0)) (by decide)
  · intro h0
    exact absurd (hno 10 (congrArg UInt16.toNat h0)) (by decide)
  · intro h0
    exact absurd (hno 13 (congrArg UInt16.toNat h0)) (by decide)

theorem encodeURIComponent_legal (t name : Text) (h : encodeURIComponent t = some name) :
    name.all isHeaderUnit = true := by
  unfold encodeURIComponent at h
  split_ifs at h
  cases h
  have hhex : ∀ d < 16, isHeaderUnit (upperHex d) = true := by decide
  rw [List.all_eq_true]
  intro u hu
  obtain ⟨b, _, hb⟩ := List.mem_flatMap.mp hu
  have hlt := b.toNat_lt
  split_ifs at hb with hfree
  · rw [List.mem_singleton.mp hb]
    exact unreserved_legal b hfree
  · simp only [List.mem_cons, List.not_mem_nil, or_false] at hb
    rcases hb with rfl | rfl | rfl
    · decide
    · exact hhex _ (by omega)
    · exact hhex _ (by omega)

theorem slice_latest (rows order : List EventRow) (limit : ℕ) (h : Ordering latest rows order) :
    (slice limit 0 order).length = min limit rows.length ∧
      ∀ e ∈ rows, e ∈ slice limit 0 order ∨ ∀ x ∈ slice limit 0 order, e.ts ≤ x.ts := by
  have hsplit : order.take limit++order.drop limit = order := List.take_append_drop limit order
  constructor
  · simp [slice, h.perm.length_eq]
  · intro e he
    have hmem := h.perm.mem_iff.mpr he
    rw [← hsplit] at hmem
    rcases List.mem_append.mp hmem with hin | hout
    · exact Or.inl hin
    · right
      intro x hx
      have hsorted := h.sorted
      rw [← hsplit] at hsorted
      exact (List.pairwise_append.mp hsorted).2.2 x hx e hout

theorem agent_export_reads (agents : List AgentRow) (sessions : List SessionRow)
    (tcts : List TctRow) (events : List EventRow) (aid exportedAt : Text) (sp : Params)
    (row : AgentRow) (ss : List SessionRow) (ts : List TctRow) (evs : List EventRow)
    (hnul : hasNul aid = false) (haid : isWellFormed aid = true)
    (hformat : sp (js "format") = some (js "jsonl"))
    (ha : AgentAnswers agents sessions tcts events aid (eventLimit sp) (some row) ss ts evs) :
    ∃ disposition body lines,
      agentExport stampText (some aid) sp (some row) ss ts evs exportedAt =
        .file (js "application/x-ndjson") disposition body ∧ decodeLines body = some lines ∧
      AgentFile stampText row ss (tcts.filter (isParty aid)) evs lines ∧
      evs.length = min (eventLimit sp) (events.filter (concerns aid)).length ∧
      ∀ e ∈ events.filter (concerns aid), e ∈ evs ∨ ∀ x ∈ evs, e.ts ≤ x.ts := by
  obtain ⟨order, horder, rfl⟩ := ha.events
  obtain ⟨name, hname⟩ : ∃ name, encodeURIComponent aid = some name := by
    simp [encodeURIComponent, haid]
  have hprefix : (js "agent-").all isHeaderUnit = true := by decide
  have hlegal : (js "agent-"++name).all isHeaderUnit = true := by
    rw [List.all_append, hprefix, encodeURIComponent_legal aid name hname]
    rfl
  have hfile : agentExport stampText (some aid) sp (some row) ss ts (slice (eventLimit sp) 0 order)
      exportedAt = .file (js "application/x-ndjson")
        (js "attachment; filename=\""++(js "agent-"++name)++js ".jsonl\"")
        (encodeLines (agentRecords stampText row ss ts (slice (eventLimit sp) 0 order))) := by
    simp only [agentExport, hnul, Bool.false_eq_true, if_false, hformat, Option.getD_some, if_true,
      hname, download_eq, hlegal]
  exact ⟨_, _, _, hfile,
    decodeLines_encodeLines _ (agentRecords_valid stampText row ss ts _),
    agentRecords_file stampText row ss ts _ _ ha.tcts, slice_latest _ order _ horder⟩

end Agents

section Scenario

def midnight : Stamp := .finite 0

def midnightText : Stamp → Text := fun _ => js "1970-01-01 00:00:00+00"

def noItems : JsonColumn := ⟨.arr [], trivial⟩

def noMembers : JsonColumn := ⟨.obj [], trivial⟩

def alice : Text := js "aid:pubkey:alice"

def handshake : SessionRow :=
  ⟨js "s1", some alice, none, js "started", noItems, none, none, none, some midnight, none,
    midnight, midnight⟩

def issued : TctRow :=
  ⟨js "00000000-0000-4000-8000-00000000000a", js "aid:pubkey:bob", alice, alice, noItems, none,
    midnight, none, some (js "s1"), false, none, midnight⟩

def aliceEvent (digit type : Text) (ts : Stamp) (sessionId : Option Text) : EventRow :=
  ⟨js "00000000-0000-4000-8000-00000000000"++digit, type, ts, some alice, none, sessionId, none,
    none, noMembers, none, ts⟩

def enrolled : EventRow := aliceEvent (js "1") (js "agent.registered") midnight none

def started : EventRow :=
  aliceEvent (js "2") (js "handshake.started") (.finite 1000) (some (js "s1"))

def completed : EventRow :=
  aliceEvent (js "3") (js "handshake.complete") (.finite 2000) (some (js "s1"))

def registered : AgentRow :=
  ⟨alice, js "Alice", js "https://alice.example", noItems, js "\x7b\x7d", none, js "active",
    midnight, none, none, none, none, js "default", noMembers⟩

theorem enrolled_started : enrolled.ts ≤ started.ts := by decide

theorem started_completed : started.ts ≤ completed.ts := by decide

theorem session_ordered : Ordering EventRow.ts
    ([completed, enrolled, started].filter (·.sessionId = some (toWellFormed (js "s1"))))
    [started, completed] := by
  have hfilter : [completed, enrolled, started].filter
      (·.sessionId = some (toWellFormed (js "s1"))) = [completed, started] := by
    rw [List.filter_cons_of_pos (by decide), List.filter_cons_of_neg (by decide),
      List.filter_cons_of_pos (by decide), List.filter_nil]
  constructor
  · rw [hfilter]
    exact List.Perm.swap completed started []
  · exact List.pairwise_pair.mpr started_completed

theorem alice_ordered : Ordering latest
    ([completed, enrolled, started].filter (concerns alice)) [completed, started, enrolled] := by
  have hfilter : [completed, enrolled, started].filter (concerns alice) =
      [completed, enrolled, started] := by
    rw [List.filter_cons_of_pos (by decide), List.filter_cons_of_pos (by decide),
      List.filter_cons_of_pos (by decide), List.filter_nil]
  constructor
  · rw [hfilter]
    exact (List.Perm.swap enrolled started []).cons completed
  · have htrans : latest completed ≤ latest enrolled := enrolled_started.trans started_completed
    rw [List.pairwise_cons, List.forall_mem_cons, List.forall_mem_singleton, List.pairwise_pair]
    exact ⟨⟨started_completed, htrans⟩, enrolled_started⟩

theorem session_export_reads_handshake :
    if (js "s1").all isHeaderUnit then ∃ disposition body lines,
      sessionExport midnightText (js "s1") (some (js "jsonl")) (some handshake)
        [started, completed] [issued] [] = .file (js "application/x-ndjson") disposition body ∧
      decodeLines body = some lines ∧
      SessionFile midnightText handshake
        ([issued].filter (·.sessionId = some (toWellFormed (js "s1")))) [started, completed] lines
    else sessionExport midnightText (js "s1") (some (js "jsonl")) (some handshake)
      [started, completed] [issued] [] = .threw := by
  apply session_export_reads midnightText [handshake] [completed, enrolled, started] [issued]
    (js "s1") [] handshake [started, completed] [issued] (by decide)
  constructor
  · have h : handshake.sessionId = toWellFormed (js "s1") := by decide
    simp [h]
  · exact session_ordered
  · rw [List.filter_cons_of_pos (by decide), List.filter_nil]

def latestTwo : Params := fun name =>
  if name = js "format" then some (js "jsonl") else some (js "2")

theorem agent_export_reads_alice : ∃ disposition body lines,
    agentExport midnightText (some alice) latestTwo (some registered) [handshake] [issued]
        [completed, started] [] = .file (js "application/x-ndjson") disposition body ∧
      decodeLines body = some lines ∧
      AgentFile midnightText registered [handshake] ([issued].filter (isParty alice))
        [completed, started] lines ∧
      [completed, started].length = min (eventLimit latestTwo)
        ([completed, enrolled, started].filter (concerns alice)).length ∧
      ∀ e ∈ [completed, enrolled, started].filter (concerns alice), e ∈ [completed, started] ∨
        ∀ x ∈ [completed, started], e.ts ≤ x.ts := by
  have hlimit : eventLimit latestTwo = 2 := by decide
  apply agent_export_reads midnightText [registered] [handshake] [issued]
    [completed, enrolled, started] alice [] latestTwo registered [handshake] [issued]
    [completed, started] (by decide) (by decide) rfl
  constructor
  · have h : registered.aid = alice := rfl
    simp [h]
  · constructor
    · have h : tookPart alice handshake = true := by decide
      simp [h]
    · exact List.pairwise_singleton _ _
  · rw [List.filter_cons_of_pos (by decide), List.filter_nil]
  · refine ⟨[completed, started, enrolled], alice_ordered, ?_⟩
    rw [hlimit]
    rfl

end Scenario

end ControlPlane.ExportRoutes
