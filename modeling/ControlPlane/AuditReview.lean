import Mathlib.Data.Prod.Lex
import Mathlib.Order.Lattice
import ControlPlane.JsonReader
import ControlPlane.KeysetPaging
import ControlPlane.RateWindows
import ControlPlane.RequestGate
import ControlPlane.TallyTable

/-!
# The review of the admin audit log

The script pages the rows of a range of time by the pair of their time and id,
whose texts are the cursor, and hands each one to an aggregator. This counts
the rows by action and by group, under a JSON text of what makes up a group,
and keeps those whose actor is not on a list.
-/

set_option autoImplicit false

namespace ControlPlane.AuditReview
open ControlPlane.JsText ControlPlane.JsValue ControlPlane.JsonText ControlPlane.JsonReader
open ControlPlane.RequestGate
open ControlPlane.KeysetPaging ControlPlane.TallyTable
open ControlPlane.RateWindows (inheritedNames)

/-- `timestamptz`: microseconds, between `-infinity` and `infinity`. -/
inductive Stamp where
  | negInfinity
  | finite (micros : ℤ)
  | infinity
  deriving DecidableEq

def Stamp.rank : Stamp → ℤ ×ₗ ℤ
  | .negInfinity => toLex (-1, 0)
  | .finite micros => toLex (0, micros)
  | .infinity => toLex (1, 0)

theorem Stamp.rank_injective : Function.Injective Stamp.rank := by
  intro s t h
  have hpair := congrArg ofLex h
  cases s <;> cases t <;> simp_all [Stamp.rank]

instance : LinearOrder Stamp := LinearOrder.lift' Stamp.rank Stamp.rank_injective

theorem Stamp.negInfinity_le (t : Stamp) : Stamp.negInfinity ≤ t := by
  change Stamp.rank .negInfinity ≤ t.rank
  cases t with
  | negInfinity => exact le_rfl
  | finite micros => exact Prod.Lex.toLex_le_toLex.mpr (Or.inl (by simp))
  | infinity => exact Prod.Lex.toLex_le_toLex.mpr (Or.inl (by simp))

abbrev Uuid := Fin (2^128)

structure LogRow where
  id : Uuid
  action : Text
  actorId : Option Text
  targetId : Option Text
  details : Option Json
  requestId : Option Text
  createdAt : Stamp

/-- How the database writes and reads times and ids, and the milliseconds of
the `Date` that its driver makes of a time. -/
structure Postgres where
  stampText : Stamp → Text
  readStamp : Text → Option Stamp
  uuidText : Uuid → Text
  readUuid : Text → Option Uuid
  dateOf : Stamp → JsNumber

structure AdminAuditRow where
  id : Text
  action : Text
  actorId : Option Text
  targetId : Option Text
  details : Option Json
  requestId : Option Text
  createdAt : JsNumber

structure PageRow extends AdminAuditRow where
  cursorTs : Text

structure CliArgs where
  since : Text
  untilIso : Text
  pageSize : ℕ
  knownActors : List Text

def rowKey (r : LogRow) : Stamp ×ₗ Uuid := toLex (r.createdAt, r.id)

def inRange (since stop : Stamp) (r : LogRow) : Bool := since ≤ r.createdAt && r.createdAt < stop

/-- `ORDER BY created_at, id` -/
def ordered (rows : List LogRow) : List LogRow :=
  rows.insertionSort (fun r s => rowKey r ≤ rowKey s)

/-- The query fails on a text that it cannot read. -/
def adminAuditPage (P : Postgres) (table : List LogRow) (args : CliArgs)
    (cursor : Text × Text) : Option (List LogRow) :=
  match P.readStamp args.since, P.readStamp args.untilIso, P.readStamp cursor.1,
    P.readUuid cursor.2 with
  | some since, some stop, some ts, some id =>
    some (page rowKey args.pageSize (toLex (ts, id)) (ordered (table.filter (inRange since stop))))
  | _, _, _, _ => none

def fetched (P : Postgres) (r : LogRow) : PageRow where
  id := P.uuidText r.id
  action := r.action
  actorId := r.actorId
  targetId := r.targetId
  details := r.details
  requestId := r.requestId
  createdAt := P.dateOf r.createdAt
  cursorTs := P.stampText r.createdAt

def actionRoutes : List (Text × Text) :=
  [(js "agent.register", js "POST /api/registry/agents"),
    (js "agent.deregister", js "DELETE /api/registry/agents/:aid"),
    (js "revocation.add", js "POST /api/revocation/entries"),
    (js "webhook.create", js "POST /api/webhooks"),
    (js "webhook.update", js "PATCH /api/webhooks/:id"),
    (js "webhook.delete", js "DELETE /api/webhooks/:id"),
    (js "webhook.circuit-breaker.reset", js "POST /api/webhooks/:id/circuit-breaker/reset"),
    (js "webhook.unsubscribed", js "(system: webhook delivery got 410 Gone)"),
    (js "trust-anchor.create", js "POST /api/trust-anchors"),
    (js "trust-anchor.update", js "PATCH /api/trust-anchors/:id"),
    (js "trust-anchor.delete", js "DELETE /api/trust-anchors/:id"),
    (js "pinned-key.upsert", js "POST /api/pinned-keys"),
    (js "pinned-key.delete", js "DELETE /api/pinned-keys")]

/-- The routes are members of a plain object, so that an action can also name
one of its inherited members. -/
inductive Route where
  | path (t : Text)
  | inherited (name : Text)
  deriving DecidableEq

def routeForAction (action : Text) : Route :=
  match actionRoutes.lookup action with
  | some route => .path route
  | none =>
    if action ∈ inheritedNames then .inherited action
    else .path (js "(unmapped action "++action++js ")")

def keyLabelOf (actorId : Option Text) : Text :=
  match present actorId with
  | none => js "(none recorded)"
  | some a => if (js "key:").isPrefixOf a then a.drop 4 else a

def notRecorded : Text := js "(not recorded)"

def sourceIpOf (row : AdminAuditRow) : Text :=
  (nonEmptyString (row.details.bind (·.get (js "client_ip")))).getD notRecorded

/-- An exact id, or a prefix that ends in `*`. -/
def knows (actor k : Text) : Bool :=
  if k.getLast? = some 0x2A then k.dropLast.isPrefixOf actor else actor = k

def isKnownActor (actorId : Option Text) (known : List Text) : Bool :=
  (present actorId).any (fun actor => known.any (knows actor))

structure Group where
  keyLabel : Text
  route : Route
  sourceIp : Text
  outcome : Text
  count : ℕ
  deriving DecidableEq

def groupOf (row : AdminAuditRow) : Group where
  keyLabel := keyLabelOf row.actorId
  route := routeForAction row.action
  sourceIp := sourceIpOf row
  outcome := js "success"
  count := 1

/-- `JSON.stringify` leaves out a function and writes the prototype as `{}`. -/
def routeMember : Route → List (Text × Json)
  | .path t => [(js "route", .str t)]
  | .inherited name => if name = js "__proto__" then [(js "route", .obj [])] else []

def groupJson (g : Group) : Json :=
  .obj ((js "keyLabel", .str g.keyLabel)::routeMember g.route++
    [(js "sourceIp", .str g.sourceIp), (js "outcome", .str g.outcome)])

def groupKey (g : Group) : Text := stringify (groupJson g)

structure AdminAuditAggregator where
  groups : List (Text × Group)
  actions : List (Text × ℕ)
  flagged : List AdminAuditRow
  total : ℕ
  withActor : ℕ
  withIp : ℕ
  withRequestId : ℕ

def AdminAuditAggregator.empty : AdminAuditAggregator := ⟨[], [], [], 0, 0, 0, 0⟩

def AdminAuditAggregator.add (known : List Text) (agg : AdminAuditAggregator)
    (row : AdminAuditRow) : AdminAuditAggregator where
  groups := bump (groupKey (groupOf row)) (groupOf row) (fun g => { g with count := g.count+1 })
    agg.groups
  actions := bump row.action 1 (·+1) agg.actions
  flagged := if isKnownActor row.actorId known then agg.flagged else agg.flagged++[row]
  total := agg.total+1
  withActor := if (present row.actorId).isSome then agg.withActor+1 else agg.withActor
  withIp := if sourceIpOf row ≠ notRecorded then agg.withIp+1 else agg.withIp
  withRequestId := if (present row.requestId).isSome then agg.withRequestId+1
    else agg.withRequestId

def firstCursor : Text × Text := (js "-infinity", js "00000000-0000-0000-0000-000000000000")

def auditReview (P : Postgres) (table : List LogRow) (args : CliArgs) (rounds : ℕ) :
    Option (Option AdminAuditAggregator) :=
  keysetLoop (adminAuditPage P table args) (fun r => ((fetched P r).cursorTs, (fetched P r).id))
    (fun agg r => agg.add args.knownActors (fetched P r).toAdminAuditRow) args.pageSize rounds
    firstCursor .empty

def scriptRow (P : Postgres) (r : LogRow) : AdminAuditRow := (fetched P r).toAdminAuditRow

def aggregated (known : List Text) (rows : List AdminAuditRow) : AdminAuditAggregator :=
  rows.foldl (fun agg row => agg.add known row) .empty

/-- The database reads its own texts, and those of the first cursor. -/
structure ReadsBack (P : Postgres) (table : List LogRow) : Prop where
  stamps : ∀ r ∈ table, P.readStamp (P.stampText r.createdAt) = some r.createdAt
  ids : ∀ r ∈ table, P.readUuid (P.uuidText r.id) = some r.id
  least : P.readStamp firstCursor.1 = some .negInfinity
  zero : P.readUuid firstCursor.2 = some 0

section Aggregator
variable (known : List Text) (rows : List AdminAuditRow)

theorem aggregated_total : (aggregated known rows).total = rows.length := by
  induction rows using List.reverseRecOn with
  | nil => rfl
  | append_singleton rows row ih =>
    rw [aggregated, List.foldl_append, List.length_append, ← ih]
    rfl

theorem aggregated_actions : (aggregated known rows).actions =
    tally AdminAuditRow.action (fun _ => 1) (·+1) rows :=
  (List.foldl_hom AdminAuditAggregator.actions (fun _ _ => rfl)).symm

theorem aggregated_groups : (aggregated known rows).groups =
    tally (fun row => groupKey (groupOf row)) groupOf (fun g => { g with count := g.count+1 })
      rows :=
  (List.foldl_hom AdminAuditAggregator.groups (fun _ _ => rfl)).symm

theorem aggregated_flagged : (aggregated known rows).flagged =
    rows.filter (fun row => !isKnownActor row.actorId known) := by
  induction rows using List.reverseRecOn with
  | nil => rfl
  | append_singleton rows row ih =>
    rw [List.filter_append, ← ih, aggregated, List.foldl_append]
    change (if isKnownActor row.actorId known then _ else _) = _
    cases hk : isKnownActor row.actorId known with
    | true => simp [hk, aggregated]
    | false => simp [hk, aggregated]

theorem action_counts_sum : ((aggregated known rows).actions.map Prod.snd).sum =
    (aggregated known rows).total := by
  rw [aggregated_total, aggregated_actions]
  exact tally_sum _ _ _ id (fun _ => rfl) (fun _ => rfl) rows

theorem group_counts_sum : ((aggregated known rows).groups.map (fun m => m.2.count)).sum =
    (aggregated known rows).total := by
  rw [aggregated_total, aggregated_groups]
  exact tally_sum _ _ _ Group.count (fun _ => rfl) (fun _ => rfl) rows

theorem aggregated_distinct : ((aggregated known rows).actions.map Prod.fst).Nodup ∧
    ((aggregated known rows).groups.map Prod.fst).Nodup := by
  rw [aggregated_actions, aggregated_groups]
  exact ⟨tally_nodup _ _ _ rows, tally_nodup _ _ _ rows⟩

theorem groupJson_valid (g : Group) : (docOf (groupJson g)).Valid := by
  have hrest : MembersValid (JsonReader.docMembers [(js "sourceIp", .str g.sourceIp),
      (js "outcome", .str g.outcome)]) := ⟨trivial, trivial, trivial⟩
  cases hr : g.route with
  | path t =>
    rw [groupJson, hr]
    exact ⟨trivial, trivial, hrest⟩
  | inherited name =>
    rw [groupJson, hr, routeMember]
    split
    · exact ⟨trivial, trivial, hrest⟩
    · exact ⟨trivial, hrest⟩

theorem groupKey_eq_iff (g h : Group) (t : Text) (hg : g.route = .path t) :
    groupKey h = groupKey g ↔ h.keyLabel = g.keyLabel ∧ h.route = g.route ∧
      h.sourceIp = g.sourceIp ∧ h.outcome = g.outcome := by
  constructor
  · intro hkey
    have hdoc := write_injective _ _ (groupJson_valid h) (groupJson_valid g) hkey
    cases hr : h.route with
    | path t' =>
      simpa [groupJson, hg, hr, routeMember, docOf, JsonReader.docMembers] using hdoc
    | inherited name =>
      rw [groupJson, groupJson, hg, hr, routeMember, routeMember] at hdoc
      split at hdoc
      · simp [docOf, JsonReader.docMembers] at hdoc
      · simp [docOf, JsonReader.docMembers] at hdoc
  · rintro ⟨hlabel, hroute, hip, houtcome⟩
    rw [groupKey, groupKey, groupJson, groupJson, hlabel, hroute, hip, houtcome]

theorem countUp_iterate (g : Group) (n : ℕ) :
    (fun g : Group => { g with count := g.count+1 })^[n] g = { g with count := g.count+n } := by
  induction n with
  | zero => rfl
  | succ n ih =>
    rw [Function.iterate_succ_apply', ih]
    rfl

theorem group_of_row (row : AdminAuditRow) (hrow : row ∈ rows) (t : Text)
    (ht : routeForAction row.action = .path t) :
    cell (aggregated known rows).groups (groupKey (groupOf row)) =
      some { groupOf row with count := rows.countP (fun r => groupOf r = groupOf row) } := by
  have hkey : ∀ r : AdminAuditRow, groupKey (groupOf r) = groupKey (groupOf row) ↔
      groupOf r = groupOf row := by
    intro r
    rw [groupKey_eq_iff (groupOf row) (groupOf r) t ht, Group.mk.injEq]
    simp [groupOf]
  have hpos : 0 < rows.countP (fun r => groupOf r = groupOf row) := by
    rw [List.countP_pos_iff]
    exact ⟨row, hrow, decide_eq_true rfl⟩
  rw [aggregated_groups, tally_cell]
  simp only [hkey]
  cases hf : rows.find? (fun r => groupOf r = groupOf row) with
  | none => exact (List.find?_eq_none.mp hf row hrow (decide_eq_true rfl)).elim
  | some first =>
    have hfirst : groupOf first = groupOf row := by simpa using List.find?_some hf
    have hcount : (groupOf row).count+(rows.countP (fun r => groupOf r = groupOf row)-1) =
        rows.countP (fun r => groupOf r = groupOf row) := by
      simp only [groupOf] at hpos ⊢
      omega
    rw [Option.map_some, hfirst, countUp_iterate, hcount]

end Aggregator

section Pages
variable (P : Postgres) (table : List LogRow) (args : CliArgs) (since stop : Stamp)

def firstKey : Stamp ×ₗ Uuid := toLex (Stamp.negInfinity, 0)

theorem firstKey_lt (r : LogRow) (h : r.id ≠ 0) : firstKey < rowKey r := by
  rw [firstKey, rowKey, Prod.Lex.toLex_lt_toLex]
  rcases (Stamp.negInfinity_le r.createdAt).eq_or_lt with heq | hlt
  · exact Or.inr ⟨heq, Fin.pos_of_ne_zero h⟩
  · exact Or.inl hlt

theorem rowKey_distinct (rows : List LogRow) (h : (rows.map (·.id)).Nodup) :
    (rows.map rowKey).Nodup := by
  have hids : rows.map (·.id) = (rows.map rowKey).map (fun k => (ofLex k).2) := by
    rw [List.map_map]
    rfl
  rw [hids] at h
  exact h.of_map _

theorem ordered_perm (rows : List LogRow) : (ordered rows).Perm rows :=
  List.perm_insertionSort _ rows

theorem review_pages (hP : ReadsBack P table) (hids : (table.map (·.id)).Nodup)
    (hsince : P.readStamp args.since = some since) (hstop : P.readStamp args.untilIso = some stop) :
    Pages rowKey (adminAuditPage P table args)
      (fun r => ((fetched P r).cursorTs, (fetched P r).id)) args.pageSize
      (fun c k => P.readStamp c.1 = some (ofLex k).1 ∧ P.readUuid c.2 = some (ofLex k).2)
      (ordered (table.filter (inRange since stop))) where
  sorted := by
    apply sorted_of_distinct
    apply rowKey_distinct
    exact hids.sublist (List.filter_sublist.map _)
  fetched := by
    rintro c k ⟨hts, hid⟩
    simp only [adminAuditPage, hsince, hstop, hts, hid]
    rfl
  moved := by
    intro r hr
    have hr' := List.mem_of_mem_filter ((ordered_perm _).subset hr)
    exact ⟨hP.stamps r hr', hP.ids r hr'⟩

/-- The loop ends and has fed each row of the range once and no other; the
counts add up, the flagged rows are those of unknown actors, and the group of a
row with a route counts the rows that agree with it. -/
theorem audit_review_complete (hP : ReadsBack P table) (hids : (table.map (·.id)).Nodup)
    (hzero : ∀ r ∈ table, r.id ≠ 0) (hsince : P.readStamp args.since = some since)
    (hstop : P.readStamp args.untilIso = some stop) (hsize : 1 ≤ args.pageSize) :
    ∃ (fed : List LogRow) (agg : AdminAuditAggregator),
      fed.Perm (table.filter (inRange since stop)) ∧
      agg = aggregated args.knownActors (fed.map (scriptRow P)) ∧
      (∀ rounds, table.length < rounds → auditReview P table args rounds = some (some agg)) ∧
      agg.total = (table.filter (inRange since stop)).length ∧
      (agg.actions.map Prod.snd).sum = agg.total ∧
      (agg.groups.map (fun m => m.2.count)).sum = agg.total ∧
      agg.flagged = (fed.map (scriptRow P)).filter
        (fun row => !isKnownActor row.actorId args.knownActors) ∧
      ((agg.actions.map Prod.fst).Nodup ∧ (agg.groups.map Prod.fst).Nodup) ∧
      ∀ row ∈ fed.map (scriptRow P), ∀ t, routeForAction row.action = .path t →
        cell agg.groups (groupKey (groupOf row)) = some { groupOf row with
          count := (fed.map (scriptRow P)).countP (fun r => groupOf r = groupOf row) } := by
  have hpages := review_pages P table args since stop hP hids hsince hstop
  have hperm := ordered_perm (table.filter (inRange since stop))
  apply Exists.intro (ordered (table.filter (inRange since stop)))
  apply Exists.intro (aggregated args.knownActors
    ((ordered (table.filter (inRange since stop))).map (scriptRow P)))
  constructor
  · exact hperm
  constructor
  · rfl
  constructor
  · intro rounds hrounds
    have hfirst : ∀ r ∈ ordered (table.filter (inRange since stop)), firstKey < rowKey r :=
      fun r hr => firstKey_lt r (hzero r (List.mem_of_mem_filter (hperm.subset hr)))
    have hfew : (ordered (table.filter (inRange since stop))).length < rounds := by
      rw [hperm.length_eq]
      exact (List.length_filter_le _ _).trans_lt hrounds
    rw [auditReview, keysetLoop_eq _ _ _ _ _ _ _ hpages hsize rounds firstCursor firstKey
      AdminAuditAggregator.empty ⟨hP.least, hP.zero⟩ hfirst hfew, aggregated, List.foldl_map]
    rfl
  constructor
  · rw [aggregated_total, List.length_map, hperm.length_eq]
  constructor
  · exact action_counts_sum _ _
  constructor
  · exact group_counts_sum _ _
  constructor
  · exact aggregated_flagged _ _
  constructor
  · exact aggregated_distinct _ _
  · exact group_of_row _ _

end Pages

section Sample

def sampleStamp : Stamp := .finite 1767225600000001

def sampleSince : Stamp := .finite 1767225600000000

def sampleStop : Stamp := .finite 1769904000000000

def sampleIds : List (Text × Uuid) :=
  [(firstCursor.2, 0), (js "00000000-0000-0000-0000-000000000001", 1),
    (js "00000000-0000-0000-0000-000000000002", 2)]

def sampleStamps : List (Text × Stamp) :=
  [(firstCursor.1, .negInfinity), (js "2026-01-01 00:00:00.000001+00", sampleStamp),
    (js "2026-01-01T00:00:00.000Z", sampleSince), (js "2026-02-01T00:00:00.000Z", sampleStop)]

def samplePostgres : Postgres where
  stampText t := ((sampleStamps.find? (·.2 = t)).map Prod.fst).getD []
  readStamp t := sampleStamps.lookup t
  uuidText u := ((sampleIds.find? (·.2 = u)).map Prod.fst).getD []
  readUuid t := sampleIds.lookup t
  dateOf _ := .finite 1767225600000

def sampleTable : List LogRow :=
  [⟨2, js "webhook.create", none, none, none, none, sampleStamp⟩,
    ⟨1, js "webhook.create", some (js "key:console"), none, none, none, sampleStamp⟩]

def sampleArgs : CliArgs :=
  ⟨js "2026-01-01T00:00:00.000Z", js "2026-02-01T00:00:00.000Z", 1, [js "key:*"]⟩

theorem samplePostgres_reads : ReadsBack samplePostgres sampleTable where
  stamps := by decide
  ids := by decide
  least := by decide
  zero := by decide

/-- Pages of one row take three queries. -/
theorem sample_review : ∃ (fed : List LogRow) (agg : AdminAuditAggregator),
    fed.Perm (sampleTable.filter (inRange sampleSince sampleStop)) ∧
      agg = aggregated [js "key:*"] (fed.map (scriptRow samplePostgres)) ∧
      (∀ rounds, sampleTable.length < rounds →
        auditReview samplePostgres sampleTable sampleArgs rounds = some (some agg)) ∧
      agg.total = (sampleTable.filter (inRange sampleSince sampleStop)).length ∧
      (agg.actions.map Prod.snd).sum = agg.total ∧
      (agg.groups.map (fun m => m.2.count)).sum = agg.total ∧
      agg.flagged = (fed.map (scriptRow samplePostgres)).filter
        (fun row => !isKnownActor row.actorId [js "key:*"]) ∧
      ((agg.actions.map Prod.fst).Nodup ∧ (agg.groups.map Prod.fst).Nodup) ∧
      ∀ row ∈ fed.map (scriptRow samplePostgres), ∀ t, routeForAction row.action = .path t →
        cell agg.groups (groupKey (groupOf row)) = some { groupOf row with
          count := (fed.map (scriptRow samplePostgres)).countP
            (fun r => groupOf r = groupOf row) } :=
  audit_review_complete samplePostgres sampleTable sampleArgs sampleSince sampleStop
    samplePostgres_reads (by decide) (by decide) (by decide) (by decide) (by decide)

end Sample

end ControlPlane.AuditReview
