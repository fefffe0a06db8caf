import ControlPlane.CircuitBreaker
import ControlPlane.Exposition
import ControlPlane.JsNumberText
import ControlPlane.RequestGate

/-!
# The scrape of the metrics

`GET /api/metrics` joins the lines of its series. In a label value it escapes
quotes only.
-/

set_option autoImplicit false

namespace ControlPlane.MetricsRoute
open ControlPlane.JsText ControlPlane.JsValue ControlPlane.JsNumberText ControlPlane.Exposition
open ControlPlane.CircuitBreaker

structure Count where
  value : ℚ
  isDouble : IsDouble value

def zero : Count := ⟨0, isDouble_nat 0 (by norm_num)⟩

def one : Count := ⟨1, isDouble_nat 1 (by norm_num)⟩

/-- Counting by ones stops at the largest number that it can tell apart. -/
def countUp (n : ℕ) : Count := ⟨(min n (2^53) : ℕ), isDouble_nat _ (min_le_right n _)⟩

/-- What the queries return; a count without a row is zero. -/
structure Counts where
  activeAgents : Option Count
  expiredAgents : Option Count
  totalSessions : Option Count
  deliveriesPending : Option Count
  deliveriesFailed : Option Count
  eventsByType : List (Text × Count)

def bucketNames : List Text := [js "enroll-ip", js "public-ip", js "api-key"]

structure LastPull where
  issuer : Text
  aid : Text
  secs : Count
  isLabel : RequestGate.isKeyLabel issuer = true
  isIssuer : HttpValidate.isAid aid = true

/-- The counters of the process, and the database unless a query fails. -/
structure Snapshot where
  database : Option Counts
  drops : List (Text × Count)
  dropsNamed : ∀ d ∈ drops, d.1 ∈ bucketNames
  breakers : List BreakerState
  adminAuditInsertFailures : Count
  enrollFailureTotals : Text → Count
  lastPulls : List LastPull
  eventBacklogDropped : Count
  eventsDroppedTotal : Count
  eventsDuplicateTotal : Count
  sseOpen : Count
  sseOpenedTotal : Count
  sseRejectedTotal : Count

/-- `replace(/"/g, '\\"')` -/
def escapeQuotes (t : Text) : Text :=
  t.flatMap (fun u => if u = quoteMark then [backslash, quoteMark] else [u])

def labelText (l : Text × Text) : Text := l.1++equals::quoteMark::(escapeQuotes l.2++[quoteMark])

def labelsText (ls : List (Text × Text)) : Text :=
  if ls = [] then [] else openBrace::([comma].intercalate (ls.map labelText)++[closeBrace])

def rowText : Item Count → Text
  | .comment line => line
  | .sample s => s.name++(labelsText s.labels++0x20::numberText s.value.value)

def isMetric (name help kind : Text) : Bool :=
  name.all isMetricUnit && name.head?.any (!isDigit ·) && !help.contains lineFeed &&
    !kind.contains lineFeed

structure Metric where
  name : Text
  help : Text
  kind : Text
  valid : isMetric name help kind = true

def metric (m : Metric) (samples : List (List (Text × Text) × Count)) : List (Item Count) :=
  .comment (js "# HELP "++(m.name++0x20::m.help))::
    .comment (js "# TYPE "++(m.name++0x20::m.kind))::
      samples.map (fun s => .sample ⟨m.name, s.1, s.2⟩)

def agentsActive : Metric :=
  ⟨js "aitp_control_plane_agents_active", js "Active agents in registry", js "gauge",
    by decide +kernel⟩

def agentsExpired : Metric :=
  ⟨js "aitp_control_plane_agents_expired",
    js "Agents with expired manifests awaiting re-enrollment", js "gauge", by decide +kernel⟩

def sessionsTotal : Metric :=
  ⟨js "aitp_control_plane_sessions_total", js "Total handshake sessions ever observed",
    js "counter", by decide +kernel⟩

def webhookDeliveries : Metric :=
  ⟨js "aitp_control_plane_webhook_deliveries", js "Webhook deliveries by status", js "gauge",
    by decide +kernel⟩

def auditEvents : Metric :=
  ⟨js "aitp_control_plane_audit_events", js "Total audit events by type", js "counter",
    by decide +kernel⟩

def dbUp : Metric :=
  ⟨js "aitp_control_plane_db_up", js "Whether the database was reachable for this scrape",
    js "gauge", by decide +kernel⟩

def rateLimitDrops : Metric :=
  ⟨js "aitp_control_plane_rate_limit_drops",
    js "Requests rejected by the rate limiter, by bucket", js "counter", by decide +kernel⟩

def circuitBreakerOpen : Metric :=
  ⟨js "aitp_control_plane_webhook_circuit_breaker_open",
    js "Webhooks whose circuit breaker is open or half_open", js "gauge", by decide +kernel⟩

def auditInsertFailures : Metric :=
  ⟨js "aitp_control_plane_admin_audit_insert_failures",
    js "Admin-audit inserts that failed since process start", js "counter", by decide +kernel⟩

def enrollVerificationFailures : Metric :=
  ⟨js "aitp_control_plane_enroll_verification_failures",
    js "Failed enrollment manifest verifications since process start, by code "++
      js "(\"none\" = rejected by this service rather than the SDK, "++
      js "\"other\" = an SDK code this build does not recognize)",
    js "counter", by decide +kernel⟩

def revocationLastPull : Metric :=
  ⟨js "aitp_control_plane_revocation_last_pull_timestamp_seconds",
    js "Unix time of the last successful GET /api/revocations by each issuer key, "++
      js "by key label and the AID the key is bound to (absent until that issuer first pulls)",
    js "gauge", by decide +kernel⟩

def eventBacklogDropped : Metric :=
  ⟨js "aitp_control_plane_event_backlog_dropped",
    js "Audit events evicted from the in-memory SSE backlog since process start",
    js "counter", by decide +kernel⟩

def eventsDroppedTotal : Metric :=
  ⟨js "aitp_control_plane_events_dropped_total",
    js "Ingest items dropped by POST /api/events per-item validation since process start",
    js "counter", by decide +kernel⟩

def eventsDuplicateTotal : Metric :=
  ⟨js "aitp_control_plane_events_duplicate_total",
    js "Ingest items POST /api/events recognised as already-stored duplicates "++
      js "since process start",
    js "counter", by decide +kernel⟩

def sseStreamsOpen : Metric :=
  ⟨js "aitp_control_plane_sse_streams_open",
    js "/api/events/stream connections open right now on this replica", js "gauge",
    by decide +kernel⟩

def sseStreamsOpenedTotal : Metric :=
  ⟨js "aitp_control_plane_sse_streams_opened_total",
    js "/api/events/stream connections accepted since process start", js "counter",
    by decide +kernel⟩

def sseStreamsRejectedTotal : Metric :=
  ⟨js "aitp_control_plane_sse_streams_rejected_total",
    js "/api/events/stream connections refused by MAX_SSE_CONNECTIONS since process start",
    js "counter", by decide +kernel⟩

def knownVerifyCodes : List Text :=
  [js "signature_invalid", js "pop_failed", js "aid_mismatch", js "expired",
    js "version_unknown", js "identity_hint_malformed", js "incompatible_identity_type",
    js "unknown_field", js "malformed"]

def otherLabel : Text := js "other"

def noneLabel : Text := js "none"

def enrollFailureLabels : List Text := knownVerifyCodes++[otherLabel, noneLabel]

def databaseRows (c : Counts) : List (Item Count) :=
  metric agentsActive [([], c.activeAgents.getD zero)]++
  metric agentsExpired [([], c.expiredAgents.getD zero)]++
  metric sessionsTotal [([], c.totalSessions.getD zero)]++
  metric webhookDeliveries
    [([(js "status", js "pending")], c.deliveriesPending.getD zero),
      ([(js "status", js "failed")], c.deliveriesFailed.getD zero)]++
  metric auditEvents (c.eventsByType.map (fun r => ([(js "type", r.1)], r.2)))

def unavailable : Text :=
  js "# DB unavailable: cause logged server-side, deliberately not published here"

def processRows (s : Snapshot) : List (Item Count) :=
  metric dbUp [([], if s.database.isSome then one else zero)]++
  metric rateLimitDrops (s.drops.map (fun d => ([(js "bucket", d.1)], d.2)))++
  metric circuitBreakerOpen
    [([(js "state", js "open")], countUp (s.breakers.count .isOpen)),
      ([(js "state", js "half_open")], countUp (s.breakers.count .halfOpen))]++
  metric auditInsertFailures [([], s.adminAuditInsertFailures)]++
  metric enrollVerificationFailures
    (enrollFailureLabels.map (fun code => ([(js "code", code)], s.enrollFailureTotals code)))++
  metric revocationLastPull
    (s.lastPulls.map (fun p => ([(js "issuer", p.issuer), (js "aid", p.aid)], p.secs)))++
  metric eventBacklogDropped [([], s.eventBacklogDropped)]++
  metric eventsDroppedTotal [([], s.eventsDroppedTotal)]++
  metric eventsDuplicateTotal [([], s.eventsDuplicateTotal)]++
  metric sseStreamsOpen [([], s.sseOpen)]++
  metric sseStreamsOpenedTotal [([], s.sseOpenedTotal)]++
  metric sseStreamsRejectedTotal [([], s.sseRejectedTotal)]

def rows (s : Snapshot) : List (Item Count) :=
  s.database.elim [.comment unavailable] databaseRows++processRows s

/-- `GET /api/metrics` -/
def metrics (s : Snapshot) : Text := [lineFeed].intercalate ((rows s).map rowText)++[lineFeed]

theorem escapeQuotes_quote (t : Text) :
    escapeQuotes (quoteMark::t) = backslash::quoteMark::escapeQuotes t := rfl

theorem escapeQuotes_cons (u : UInt16) (t : Text) (h : u ≠ quoteMark) :
    escapeQuotes (u::t) = u::escapeQuotes t := by
  simp [escapeQuotes, h]

theorem readQuoted_quotes (v t : Text) (h : backslash ∉ v) :
    readQuoted (escapeQuotes v++quoteMark::t) = some (v, t) := by
  induction v with
  | nil => exact readQuoted_quote t
  | cons u v ih =>
    have hu : u ≠ backslash := fun hb => h (hb ▸ List.mem_cons_self)
    have hv := ih (fun hm => h (List.mem_cons_of_mem u hm))
    by_cases hq : u = quoteMark
    · subst hq
      rw [escapeQuotes_quote, List.cons_append, List.cons_append, readQuoted_escape, hv]
      rfl
    · rw [escapeQuotes_cons u v hq, List.cons_append, readQuoted_plain u _ hq hu, hv]
      rfl

def Closing (x : Text) : Prop := x = [] ∨ ∃ t, x = quoteMark::t ∧ quoteMark ∉ t

theorem readQuoted_escape_some (v : UInt16) (t w r : Text)
    (h : readQuoted (backslash::v::t) = some (w, r)) :
    ∃ w', readQuoted t = some (w', r) ∧ w.length = w'.length+1 := by
  rw [readQuoted_escape] at h
  simp only [Option.bind_eq_some_iff, Option.map_eq_some_iff, Prod.mk.injEq] at h
  obtain ⟨c, -, ⟨w', r'⟩, hw, rfl, rfl⟩ := h
  exact ⟨w', hw, List.length_cons⟩

theorem readQuoted_plain_some (u : UInt16) (t w r : Text) (hq : u ≠ quoteMark)
    (hb : u ≠ backslash) (h : readQuoted (u::t) = some (w, r)) :
    ∃ w', readQuoted t = some (w', r) ∧ w.length = w'.length+1 := by
  rw [readQuoted_plain u t hq hb] at h
  simp only [Option.map_eq_some_iff, Prod.mk.injEq] at h
  obtain ⟨⟨w', r'⟩, hw, rfl, rfl⟩ := h
  exact ⟨w', hw, List.length_cons⟩

theorem readQuoted_length (x : Text) (hx : Closing x) (v w r : Text)
    (h : readQuoted (escapeQuotes v++x) = some (w, r)) :
    w.length ≤ v.length ∧ (backslash ∈ v → w.length < v.length) := by
  induction hn : v.length using Nat.strong_induction_on generalizing v w with
  | _ n ih =>
    subst hn
    cases v with
    | nil =>
      rcases hx with rfl | ⟨t, rfl, -⟩
      · cases h
      · change readQuoted (quoteMark::t) = some (w, r) at h
        rw [readQuoted_quote] at h
        cases h
        simp
    | cons u v =>
      have hkept : u ≠ backslash →
          (∃ w', readQuoted (escapeQuotes v++x) = some (w', r) ∧ w.length = w'.length+1) →
          w.length ≤ (u::v).length ∧ (backslash ∈ u::v → w.length < (u::v).length) := by
        rintro hb ⟨w', hw, hlen⟩
        obtain ⟨hle, hlt⟩ := ih v.length (by simp) v w' hw rfl
        rw [List.length_cons, hlen]
        constructor
        · omega
        · intro hm
          have := hlt ((List.mem_cons.mp hm).resolve_left (Ne.symm hb))
          omega
      by_cases hq : u = quoteMark
      · subst hq
        rw [escapeQuotes_quote, List.cons_append, List.cons_append] at h
        exact hkept (by decide) (readQuoted_escape_some quoteMark _ w r h)
      rw [escapeQuotes_cons u v hq, List.cons_append] at h
      by_cases hb : u = backslash
      · subst hb
        have hshort : w.length < (backslash::v).length := by
          cases v with
          | nil =>
            change readQuoted (backslash::x) = some (w, r) at h
            rcases hx with rfl | ⟨t, rfl, ht⟩
            · cases h
            · rw [readQuoted_escape, readQuoted_unclosed t ht] at h
              cases h
          | cons y v =>
            by_cases hy : y = quoteMark
            · subst hy
              rw [escapeQuotes_quote, List.cons_append, List.cons_append, readQuoted_escape,
                readQuoted_quote] at h
              cases h
              simp
            · rw [escapeQuotes_cons y v hy, List.cons_append] at h
              obtain ⟨w', hw, hlen⟩ := readQuoted_escape_some y _ w r h
              have hv : v.length < (backslash::y::v).length := by
                simp only [List.length_cons]
                omega
              obtain ⟨hle, -⟩ := ih v.length hv v w' hw rfl
              simp only [List.length_cons]
              omega
        exact ⟨hshort.le, fun _ => hshort⟩
      · exact hkept hb (readQuoted_plain_some u _ w r hq hb h)

def PlainText (t : Text) : Prop := backslash ∉ t ∧ lineFeed ∉ t

theorem readPair_label (l : Text × Text) (hl : IsName isLabelUnit l.1) (t : Text)
    (hv : backslash ∉ l.2) : readPair (labelText l++t) = some (l, t) := by
  have htext : labelText l++t = l.1++equals::quoteMark::(escapeQuotes l.2++quoteMark::t) := by
    simp [labelText]
  rw [htext, readPair_quoted l.1 _ hl, readQuoted_quotes l.2 t hv]
  rfl

theorem readLabels_text (n : ℕ) (ls : List (Text × Text)) (t : Text) (hne : ls ≠ [])
    (hn : ls.length ≤ n) (hl : ∀ l ∈ ls, IsName isLabelUnit l.1 ∧ backslash ∉ l.2) :
    readLabels n ([comma].intercalate (ls.map labelText)++closeBrace::t) = some (ls, t) := by
  induction ls generalizing n with
  | nil => exact absurd rfl hne
  | cons l ls ih =>
    obtain ⟨⟨hname, hv⟩, hrest⟩ := List.forall_mem_cons.mp hl
    have hexpect : ∀ x, expect closeBrace (labelText l++x) = none := by
      intro x
      rw [labelText, List.append_assoc]
      exact expect_label l.1 _ hname
    cases n with
    | zero => simp at hn
    | succ n =>
      cases ls with
      | nil =>
        have hcomma : expect comma (closeBrace::t) = none :=
          expect_other comma closeBrace t (by decide) (by decide)
        rw [List.map_cons, List.map_nil, List.intercalate_singleton]
        simp only [readLabels, hexpect, readPair_label l hname _ hv, Option.bind_some, hcomma,
          expect_mark closeBrace t (by decide), Option.map_some]
      | cons l' ls =>
        have hlen : (l'::ls).length ≤ n := Nat.le_of_succ_le_succ hn
        have htail := ih n (by simp) hlen hrest
        rw [List.map_cons] at htail
        rw [List.map_cons, List.map_cons, List.intercalate_cons_cons, List.append_assoc,
          List.append_assoc, List.singleton_append]
        simp only [readLabels, hexpect, readPair_label l hname _ hv, Option.bind_some,
          expect_mark comma _ (by decide), htail, Option.map_some]

theorem labels_length (ls : List (Text × Text)) :
    ls.length ≤ ([comma].intercalate (ls.map labelText)).length := by
  induction ls with
  | nil => simp
  | cons l ls ih =>
    have hpos : 1 ≤ (labelText l).length := by
      simp only [labelText, List.length_append, List.length_cons]
      omega
    cases ls with
    | nil =>
      rw [List.map_cons, List.map_nil, List.intercalate_singleton]
      exact hpos
    | cons l' ls =>
      rw [List.map_cons] at ih
      rw [List.map_cons, List.map_cons, List.intercalate_cons_cons]
      simp only [List.length_append, List.length_cons] at ih ⊢
      omega

theorem numberUnit_plain (q : ℚ) (u : UInt16) (hu : u ∈ numberText q) : isBlank u = false ∧
    u ≠ quoteMark ∧ u ≠ lineFeed ∧ u ≠ openBrace := by
  have hne : ∀ v, isNumberUnit v = false → u ≠ v := by
    rintro v hv rfl
    rw [numberText_units q u hu] at hv
    cases hv
  constructor
  · simp only [isBlank, Bool.or_eq_false_iff, decide_eq_false_iff_not]
    exact ⟨hne 0x20 (by decide), hne 0x09 (by decide)⟩
  · exact ⟨hne quoteMark (by decide), hne lineFeed (by decide), hne openBrace (by decide)⟩

theorem skipBlanks_number (q : ℚ) : skipBlanks (0x20::numberText q) = numberText q := by
  have hcons : skipBlanks (0x20::numberText q) = skipBlanks (numberText q) := rfl
  rw [hcons]
  cases hq : numberText q with
  | nil => rfl
  | cons u t => exact skipBlanks_cons u t (numberUnit_plain q u (hq ▸ List.mem_cons_self)).1

theorem expect_number (q : ℚ) : expect openBrace (0x20::numberText q) = none := by
  rw [expect, skipBlanks_number]
  cases hq : numberText q with
  | nil => rfl
  | cons u t => exact if_neg (numberUnit_plain q u (hq ▸ List.mem_cons_self)).2.2.2

theorem readBraces_text (ls : List (Text × Text)) (q : ℚ)
    (hl : ∀ l ∈ ls, IsName isLabelUnit l.1 ∧ backslash ∉ l.2) :
    readBraces (labelsText ls++0x20::numberText q) = some (ls, 0x20::numberText q) := by
  by_cases hne : ls = []
  · subst hne
    rw [labelsText, if_pos rfl, List.nil_append, readBraces, expect_number]
  · have htext : labelsText ls++0x20::numberText q = openBrace::
        ([comma].intercalate (ls.map labelText)++closeBrace::0x20::numberText q) := by
      simp [labelsText, hne]
    rw [htext, readBraces, expect_mark openBrace _ (by decide)]
    apply readLabels_text _ ls _ hne _ hl
    have := labels_length ls
    rw [List.length_append]
    omega

theorem labelsText_head (ls : List (Text × Text)) (t : Text) : ∃ u rest,
    labelsText ls++0x20::t = u::rest ∧ isMetricUnit u = false := by
  unfold labelsText
  split_ifs
  · exact ⟨0x20, t, rfl, by decide⟩
  · exact ⟨openBrace, _, rfl, by decide⟩

section Rows
variable (readValue : Text → Option Count)
variable (hread : ∀ c : Count, readValue (numberText c.value) = some c)
include hread

theorem readSample_text (s : Sample Count) (hname : IsName isMetricUnit s.name)
    (hl : ∀ l ∈ s.labels, IsName isLabelUnit l.1 ∧ backslash ∉ l.2) :
    readSample readValue (rowText (.sample s)) = some s := by
  obtain ⟨u, rest, hu, hunit⟩ := labelsText_head s.labels (numberText s.value.value)
  have hn := readName_append isMetricUnit s.name u rest hname hunit
  rw [← hu] at hn
  have hall : ∀ v ∈ numberText s.value.value, (!isBlank v) = true := by
    intro v hv
    simp [(numberUnit_plain _ v hv).1]
  have htake : (numberText s.value.value).takeWhile (!isBlank ·) = numberText s.value.value :=
    List.takeWhile_eq_self_iff.mpr hall
  have hdrop : (numberText s.value.value).dropWhile (!isBlank ·) = [] :=
    List.dropWhile_eq_nil_iff.mpr hall
  simp only [readSample, rowText, hn, Option.bind_some, readBraces_text s.labels _ hl,
    skipBlanks_number, htake, hdrop, hread]
  rfl

end Rows

/-- The labels of a sample are named, and at most one value is not plain. -/
def ShapedLabels (ls : List (Text × Text)) : Prop :=
  (∀ l ∈ ls, IsName isLabelUnit l.1) ∧ ((∀ l ∈ ls, PlainText l.2) ∨ ∃ k v, ls = [(k, v)])

def PlainLabels (ls : List (Text × Text)) : Prop := ∀ l ∈ ls, PlainText l.2

def Shaped : Item Count → Prop
  | .comment line => (∃ t, line = hash::t) ∧ lineFeed ∉ line
  | .sample s => IsName isMetricUnit s.name ∧ ShapedLabels s.labels

def Plain : Item Count → Prop
  | .comment _ => True
  | .sample s => PlainLabels s.labels

theorem mem_escapeQuotes (u : UInt16) (t : Text) (h : u ∈ escapeQuotes t) :
    u ∈ t ∨ u = backslash := by
  simp only [escapeQuotes, List.mem_flatMap] at h
  obtain ⟨v, hv, hu⟩ := h
  split_ifs at hu with hq
  · simp only [List.mem_cons, List.not_mem_nil, or_false] at hu
    rcases hu with hu | hu
    · exact Or.inr hu
    · exact Or.inl (by rw [hu, ← hq]; exact hv)
  · exact Or.inl (by rw [List.mem_singleton.mp hu]; exact hv)

theorem lineFeed_escape (t : Text) (h : lineFeed ∉ t) : lineFeed ∉ escapeQuotes t := by
  intro hm
  rcases mem_escapeQuotes lineFeed t hm with ht | ht
  · exact h ht
  · exact absurd ht (by decide)

theorem not_mem_units (p : UInt16 → Bool) (t : Text) (h : t.all p = true) (u : UInt16)
    (hp : p u = false) : u ∉ t := by
  intro hm
  rw [List.all_eq_true.mp h u hm] at hp
  cases hp

theorem lineFeed_number (q : ℚ) : lineFeed ∉ 0x20::numberText q := by
  intro hm
  rcases List.mem_cons.mp hm with h | h
  · exact absurd h (by decide)
  · exact (numberUnit_plain q lineFeed h).2.2.1 rfl

theorem lineFeed_label (l : Text × Text) (hl : IsName isLabelUnit l.1) (hv : lineFeed ∉ l.2) :
    lineFeed ∉ labelText l := by
  have hname := not_mem_units isLabelUnit l.1 hl.1 lineFeed (by decide)
  have hvalue := lineFeed_escape l.2 hv
  simp [labelText, hname, hvalue, show lineFeed ≠ equals by decide,
    show lineFeed ≠ quoteMark by decide]

theorem lineFeed_labels (ls : List (Text × Text))
    (h : ∀ l ∈ ls, IsName isLabelUnit l.1 ∧ lineFeed ∉ l.2) : lineFeed ∉ labelsText ls := by
  have hjoin : lineFeed ∉ [comma].intercalate (ls.map labelText) := by
    intro hm
    obtain ⟨p, hp, hmem⟩ := HttpValidate.mem_intercalate comma lineFeed (by decide) _ hm
    obtain ⟨l, hl, rfl⟩ := List.mem_map.mp hp
    exact lineFeed_label l (h l hl).1 (h l hl).2 hmem
  unfold labelsText
  split_ifs
  · simp
  · simp [hjoin, show lineFeed ≠ openBrace by decide, show lineFeed ≠ closeBrace by decide]

theorem lineFeed_row (r : Item Count) (hs : Shaped r) (hp : Plain r) : lineFeed ∉ rowText r := by
  cases r with
  | comment line => exact hs.2
  | sample s =>
    have hname := not_mem_units isMetricUnit s.name hs.1.1 lineFeed (by decide)
    have hlabels := lineFeed_labels s.labels (fun l hl => ⟨hs.2.1 l hl, (hp l hl).2⟩)
    have hvalue := lineFeed_number s.value.value
    simp only [rowText, List.mem_append, hname, hlabels, hvalue, or_self, not_false_eq_true]

theorem rowText_single (name k v : Text) (c : Count) :
    rowText (.sample ⟨name, [(k, v)], c⟩) = (name++openBrace::(k++[equals, quoteMark]))++
      (escapeQuotes v++quoteMark::(closeBrace::0x20::numberText c.value)) := by
  simp [rowText, labelsText, labelText]

theorem row_cut (v rest pre : Text) (hpre : lineFeed ∉ pre) (hrest : lineFeed ∉ rest)
    (hquote : quoteMark ∉ rest) (hv : ¬ PlainText v) :
    ∃ x ps, (pre++(escapeQuotes v++quoteMark::rest)).splitOn lineFeed = (pre++x)::ps ∧
      ∀ w r, readQuoted x = some (w, r) → w.length < v.length := by
  by_cases hl : lineFeed ∈ v
  · obtain ⟨a, b, rfl, ha⟩ := List.eq_append_cons_of_mem hl
    have hesc : escapeQuotes (a++lineFeed::b) = escapeQuotes a++lineFeed::escapeQuotes b := by
      simp [escapeQuotes, show lineFeed ≠ quoteMark by decide]
    have hhead : lineFeed ∉ pre++escapeQuotes a := by
      rw [List.mem_append, not_or]
      exact ⟨hpre, lineFeed_escape a ha⟩
    have hsplit := List.splitOn_append_cons_self_of_not_mem hhead
      (escapeQuotes b++quoteMark::rest)
    apply Exists.intro (escapeQuotes a)
    apply Exists.intro ((escapeQuotes b++quoteMark::rest).splitOn lineFeed)
    constructor
    · rw [← hsplit, hesc]
      simp
    · intro w r h
      have h' : readQuoted (escapeQuotes a++[]) = some (w, r) := by rwa [List.append_nil]
      have hle := (readQuoted_length [] (Or.inl rfl) a w r h').1
      rw [List.length_append, List.length_cons]
      omega
  · have hb : backslash ∈ v := by
      by_contra hb
      exact hv ⟨hb, hl⟩
    have hline : lineFeed ∉ pre++(escapeQuotes v++quoteMark::rest) := by
      simp [hpre, hrest, lineFeed_escape v hl, show lineFeed ≠ quoteMark by decide]
    apply Exists.intro (escapeQuotes v++quoteMark::rest)
    apply Exists.intro []
    constructor
    · exact List.splitOn_eq_singleton hline
    · intro w r h
      exact (readQuoted_length _ (Or.inr ⟨rest, rfl, hquote⟩) v w r h).2 hb

section Scrape
variable (readValue : Text → Option Count)
variable (hread : ∀ c : Count, readValue (numberText c.value) = some c)
include hread

theorem row_read (r : Item Count) (hs : Shaped r) (hp : Plain r) :
    readLine readValue (rowText r) = some (some r) := by
  cases r with
  | comment line =>
    obtain ⟨⟨t, rfl⟩, -⟩ := hs
    exact readLine_comment readValue t
  | sample s =>
    have hl : ∀ l ∈ s.labels, IsName isLabelUnit l.1 ∧ backslash ∉ l.2 :=
      fun l hl => ⟨hs.2.1 l hl, (hp l hl).1⟩
    have hsample := readSample_text readValue hread s hs.1 hl
    rw [rowText] at hsample ⊢
    rw [readLine_name readValue _ _ hs.1, hsample]
    rfl

omit hread in
theorem row_misread (r : Item Count) (hs : Shaped r) (hp : ¬ Plain r) :
    ∃ p ps, (rowText r).splitOn lineFeed = p::ps ∧
      ∀ item, readLine readValue p = some item → ∃ i, item = some i ∧ i ≠ r := by
  cases r with
  | comment line => exact absurd trivial hp
  | sample s =>
    obtain ⟨hname, hlabels, hvalues⟩ := hs
    obtain ⟨k, v, hkv⟩ := hvalues.resolve_left hp
    have hk : IsName isLabelUnit k := hlabels (k, v) (by simp [hkv])
    have hv : ¬ PlainText v := by
      intro hv
      apply hp
      intro l hl
      rw [hkv, List.mem_singleton] at hl
      rw [hl]
      exact hv
    have hnum := lineFeed_number s.value.value
    have hrow : rowText (.sample s) = (s.name++openBrace::(k++[equals, quoteMark]))++
        (escapeQuotes v++quoteMark::(closeBrace::0x20::numberText s.value.value)) := by
      have hs : s = ⟨s.name, [(k, v)], s.value⟩ := by rw [← hkv]
      rw [hs, rowText_single]
    have hpre : lineFeed ∉ s.name++openBrace::(k++[equals, quoteMark]) := by
      have h1 := not_mem_units isMetricUnit s.name hname.1 lineFeed (by decide)
      have h2 := not_mem_units isLabelUnit k hk.1 lineFeed (by decide)
      simp [h1, h2, show lineFeed ≠ openBrace by decide, show lineFeed ≠ equals by decide,
        show lineFeed ≠ quoteMark by decide]
    have hrest : lineFeed ∉ closeBrace::0x20::numberText s.value.value := by
      rw [List.mem_cons, not_or]
      exact ⟨by decide, hnum⟩
    have hquote : quoteMark ∉ closeBrace::0x20::numberText s.value.value := by
      simp only [List.mem_cons, not_or]
      exact ⟨by decide, by decide, fun hm => (numberUnit_plain _ _ hm).2.1 rfl⟩
    obtain ⟨x, ps, hsplit, hshort⟩ := row_cut v _ _ hpre hrest hquote hv
    apply Exists.intro _
    apply Exists.intro ps
    constructor
    · rw [hrow]
      exact hsplit
    · intro item hitem
      have hline : (s.name++openBrace::(k++[equals, quoteMark]))++x =
          s.name++openBrace::(k++equals::quoteMark::x) := by simp
      rw [hline, readLine_name readValue _ _ hname, Option.map_eq_some_iff] at hitem
      obtain ⟨s', hs', rfl⟩ := hitem
      obtain ⟨w, r, ls, hw, hfirst⟩ := readSample_first readValue s.name k x hname hk s' hs'
      apply Exists.intro (.sample s')
      constructor
      · rfl
      · intro heq
        cases heq
        rw [hkv] at hfirst
        cases hfirst
        exact absurd (hshort v r hw) (lt_irrefl _)

theorem readLines_rows (rs : List (Item Count)) (hs : ∀ r ∈ rs, Shaped r) :
    readLines readValue ((rs.map rowText).flatMap (List.splitOn lineFeed)) = some rs ↔
      ∀ r ∈ rs, Plain r := by
  induction rs with
  | nil => simp [readLines, List.reduceOption_nil]
  | cons r rs ih =>
    obtain ⟨hr, hrs⟩ := List.forall_mem_cons.mp hs
    rw [List.map_cons, List.flatMap_cons, List.forall_mem_cons]
    by_cases hp : Plain r
    · rw [List.splitOn_eq_singleton (lineFeed_row r hr hp), List.singleton_append,
        readLines_cons, row_read readValue hread r hr hp, Option.bind_some]
      simp only [Option.map_eq_some_iff, Option.toList_some, List.singleton_append,
        List.cons.injEq, true_and, exists_eq_right, hp]
      exact ih hrs
    · obtain ⟨p, ps, hsplit, hmis⟩ := row_misread readValue r hr hp
      rw [hsplit, List.cons_append, readLines_cons]
      simp only [hp, false_and, iff_false]
      intro h
      simp only [Option.bind_eq_some_iff, Option.map_eq_some_iff] at h
      obtain ⟨item, hitem, items, -, heq⟩ := h
      obtain ⟨i, rfl, hne⟩ := hmis item hitem
      rw [Option.toList_some, List.singleton_append, List.cons.injEq] at heq
      exact hne heq.1

end Scrape

section Metrics
variable (m : Metric) (samples : List (List (Text × Text) × Count))

theorem metric_shaped (h : ∀ x ∈ samples, ShapedLabels x.1) : ∀ r ∈ metric m samples, Shaped r := by
  have hvalid := m.valid
  simp only [isMetric, Bool.and_eq_true, Bool.not_eq_true', List.contains_eq_mem,
    decide_eq_false_iff_not] at hvalid
  obtain ⟨⟨⟨hunits, hhead⟩, hhelp⟩, hkind⟩ := hvalid
  have hname := not_mem_units isMetricUnit m.name hunits lineFeed (by decide)
  have hline : ∀ s t, lineFeed ∉ s → lineFeed ∉ t → lineFeed ∉ s++(m.name++0x20::t) := by
    intro s t hs ht
    simp [hs, hname, ht, show lineFeed ≠ 0x20 by decide]
  rw [metric, List.forall_mem_cons, List.forall_mem_cons, List.forall_mem_map]
  constructor
  · exact ⟨⟨_, rfl⟩, hline (js "# HELP ") m.help (by decide) hhelp⟩
  · constructor
    · exact ⟨⟨_, rfl⟩, hline (js "# TYPE ") m.kind (by decide) hkind⟩
    · intro x hx
      exact ⟨⟨hunits, hhead⟩, h x hx⟩

theorem metric_plain : (∀ r ∈ metric m samples, Plain r) ↔ ∀ x ∈ samples, PlainLabels x.1 := by
  simp only [metric, List.forall_mem_cons, List.forall_mem_map, Plain, true_and]

end Metrics

theorem single_shaped (k v : Text) (hk : IsName isLabelUnit k) : ShapedLabels [(k, v)] := by
  constructor
  · simp [hk]
  · exact Or.inr ⟨k, v, rfl⟩

theorem plainLabels_nil : PlainLabels [] := by
  simp [PlainLabels]

theorem plainLabels_single (k v : Text) : PlainLabels [(k, v)] ↔ PlainText v := by
  simp [PlainLabels]

theorem metric_settled (m : Metric) (samples : List (List (Text × Text) × Count))
    (hn : ∀ x ∈ samples, ∀ l ∈ x.1, IsName isLabelUnit l.1)
    (hp : ∀ x ∈ samples, PlainLabels x.1) : ∀ r ∈ metric m samples, Shaped r ∧ Plain r := by
  intro r hr
  constructor
  · exact metric_shaped m samples (fun x hx => ⟨hn x hx, Or.inl (hp x hx)⟩) r hr
  · exact (metric_plain m samples).mpr hp r hr

theorem unlabelled_settled (m : Metric) (c : Count) :
    ∀ r ∈ metric m [([], c)], Shaped r ∧ Plain r := by
  apply metric_settled
  · simp
  · simp [plainLabels_nil]

theorem labelled_settled {α : Type} (m : Metric) (k : Text) (hk : IsName isLabelUnit k)
    (xs : List α) (label : α → Text) (count : α → Count) (hx : ∀ x ∈ xs, PlainText (label x)) :
    ∀ r ∈ metric m (xs.map (fun x => ([(k, label x)], count x))), Shaped r ∧ Plain r := by
  apply metric_settled
  · simp [hk]
  · simpa [plainLabels_single] using hx

theorem plainText_of_all (p : UInt16 → Bool) (t : Text) (h : t.all p = true)
    (hb : p backslash = false) (hl : p lineFeed = false) : PlainText t :=
  ⟨not_mem_units p t h backslash hb, not_mem_units p t h lineFeed hl⟩

def isPlainUnit (u : UInt16) : Bool := 0x20 ≤ u && u ≠ backslash

theorem plainText_of_mem (ts : List Text) (h : ts.all (·.all isPlainUnit) = true) (t : Text)
    (ht : t ∈ ts) : PlainText t := by
  have hunits : t.all isPlainUnit = true := List.all_eq_true.mp h t ht
  exact plainText_of_all isPlainUnit t hunits (by decide) (by decide)

theorem keyLabel_plain (t : Text) (h : RequestGate.isKeyLabel t = true) : PlainText t :=
  plainText_of_all RequestGate.isKeyLabelUnit t (RequestGate.isKeyLabel_units t h) (by decide)
    (by decide)

theorem aid_plain (t : Text) (h : HttpValidate.isAid t = true) : PlainText t :=
  plainText_of_all HttpValidate.isAidUnit t (HttpValidate.isAid_units t h) (by decide)
    (by decide)

theorem labelName_decide (k : Text) (h : (k.all isLabelUnit && k.head?.any (!isDigit ·)) = true) :
    IsName isLabelUnit k := by
  rwa [Bool.and_eq_true] at h

theorem pulls_settled (pulls : List LastPull) :
    ∀ r ∈ metric revocationLastPull
      (pulls.map (fun p => ([(js "issuer", p.issuer), (js "aid", p.aid)], p.secs))),
      Shaped r ∧ Plain r := by
  have hissuer := labelName_decide (js "issuer") (by decide)
  have haid := labelName_decide (js "aid") (by decide)
  apply metric_settled
  · intro x hx
    obtain ⟨p, -, rfl⟩ := List.mem_map.mp hx
    exact List.forall_mem_cons.mpr ⟨hissuer, List.forall_mem_singleton.mpr haid⟩
  · intro x hx
    obtain ⟨p, -, rfl⟩ := List.mem_map.mp hx
    have hplain := List.forall_mem_singleton.mpr (aid_plain p.aid p.isIssuer)
    exact List.forall_mem_cons.mpr ⟨keyLabel_plain p.issuer p.isLabel, by simpa using hplain⟩

theorem states_settled (opened half : Count) :
    ∀ r ∈ metric circuitBreakerOpen
      [([(js "state", js "open")], opened), ([(js "state", js "half_open")], half)],
      Shaped r ∧ Plain r := by
  have hplain := plainText_of_mem [js "open", js "half_open"] (by decide)
  exact labelled_settled circuitBreakerOpen (js "state") (labelName_decide _ (by decide))
    [(js "open", opened), (js "half_open", half)] Prod.fst Prod.snd
    (by simpa using hplain)

theorem processRows_settled (s : Snapshot) : ∀ r ∈ processRows s, Shaped r ∧ Plain r := by
  have hdrops : ∀ d ∈ s.drops, PlainText d.1 :=
    fun d hd => plainText_of_mem bucketNames (by decide) d.1 (s.dropsNamed d hd)
  have hcodes : ∀ code ∈ enrollFailureLabels, PlainText code :=
    plainText_of_mem enrollFailureLabels (by decide)
  have hbucket := labelName_decide (js "bucket") (by decide)
  have hcode := labelName_decide (js "code") (by decide)
  simp only [processRows, List.forall_mem_append, and_assoc]
  exact ⟨unlabelled_settled _ _, labelled_settled _ _ hbucket s.drops _ _ hdrops,
    states_settled _ _, unlabelled_settled _ _, labelled_settled _ _ hcode _ _ _ hcodes,
    pulls_settled _, unlabelled_settled _ _, unlabelled_settled _ _, unlabelled_settled _ _,
    unlabelled_settled _ _, unlabelled_settled _ _, unlabelled_settled _ _⟩

theorem deliveries_settled (pending failed : Count) :
    ∀ r ∈ metric webhookDeliveries
      [([(js "status", js "pending")], pending), ([(js "status", js "failed")], failed)],
      Shaped r ∧ Plain r := by
  have hplain := plainText_of_mem [js "pending", js "failed"] (by decide)
  exact labelled_settled webhookDeliveries (js "status") (labelName_decide _ (by decide))
    [(js "pending", pending), (js "failed", failed)] Prod.fst Prod.snd
    (by simpa using hplain)

theorem databaseRows_split (c : Counts) : ∃ counted, (∀ r ∈ counted, Shaped r ∧ Plain r) ∧
    databaseRows c =
      counted++metric auditEvents (c.eventsByType.map (fun r => ([(js "type", r.1)], r.2))) := by
  apply Exists.intro _
  constructor
  · show ∀ r ∈ metric agentsActive [([], c.activeAgents.getD zero)]++
        metric agentsExpired [([], c.expiredAgents.getD zero)]++
        metric sessionsTotal [([], c.totalSessions.getD zero)]++
        metric webhookDeliveries
          [([(js "status", js "pending")], c.deliveriesPending.getD zero),
            ([(js "status", js "failed")], c.deliveriesFailed.getD zero)], Shaped r ∧ Plain r
    simp only [List.forall_mem_append, and_assoc]
    exact ⟨unlabelled_settled _ _, unlabelled_settled _ _, unlabelled_settled _ _,
      deliveries_settled _ _⟩
  · rfl

theorem databaseRows_shaped (c : Counts) : ∀ r ∈ databaseRows c, Shaped r := by
  obtain ⟨counted, hcounted, heq⟩ := databaseRows_split c
  rw [heq, List.forall_mem_append]
  constructor
  · exact fun r hr => (hcounted r hr).1
  · apply metric_shaped
    intro x hx
    obtain ⟨r, -, rfl⟩ := List.mem_map.mp hx
    exact single_shaped _ _ (labelName_decide (js "type") (by decide))

theorem databaseRows_plain (c : Counts) :
    (∀ r ∈ databaseRows c, Plain r) ↔ ∀ r ∈ c.eventsByType, PlainText r.1 := by
  obtain ⟨counted, hcounted, heq⟩ := databaseRows_split c
  have hplain : ∀ r ∈ counted, Plain r := fun r hr => (hcounted r hr).2
  rw [heq, List.forall_mem_append, metric_plain, List.forall_mem_map]
  simp only [plainLabels_single]
  exact and_iff_right hplain

theorem rows_shaped (s : Snapshot) : ∀ r ∈ rows s, Shaped r := by
  have hprocess : ∀ r ∈ processRows s, Shaped r := fun r hr => (processRows_settled s r hr).1
  rw [rows, List.forall_mem_append]
  constructor
  · cases s.database with
    | none => simpa using show Shaped (.comment unavailable) from ⟨⟨_, rfl⟩, by decide⟩
    | some c => exact databaseRows_shaped c
  · exact hprocess

theorem rows_plain (s : Snapshot) : (∀ r ∈ rows s, Plain r) ↔
    ∀ c, s.database = some c → ∀ r ∈ c.eventsByType, PlainText r.1 := by
  have hprocess : ∀ r ∈ processRows s, Plain r := fun r hr => (processRows_settled s r hr).2
  rw [rows, List.forall_mem_append]
  cases s.database with
  | none =>
    have hcomment : ∀ r ∈ [Item.comment unavailable], Plain r :=
      List.forall_mem_singleton.mpr trivial
    exact iff_of_true ⟨hcomment, hprocess⟩ (fun c hc => by cases hc)
  | some c =>
    show (∀ r ∈ databaseRows c, Plain r) ∧ (∀ r ∈ processRows s, Plain r) ↔ _
    rw [databaseRows_plain]
    constructor
    · intro h c' hc'
      cases hc'
      exact h.1
    · intro h
      exact ⟨h c rfl, hprocess⟩

theorem rows_ne_nil (s : Snapshot) : (rows s).map rowText ≠ [] := by
  simp [rows, processRows, metric]

section Body
variable (readValue : Text → Option Count)
variable (hread : ∀ c : Count, readValue (numberText c.value) = some c)
include hread

theorem readBody_rows (s : Snapshot) :
    readBody readValue (metrics s) = some (rows s) ↔ ∀ r ∈ rows s, Plain r := by
  rw [metrics, readBody_joined readValue _ (rows_ne_nil s)]
  exact readLines_rows readValue hread (rows s) (rows_shaped s)

/-- A scrape is read back as its rows if and only if no type of a stored event
has a backslash or a line feed. -/
theorem metrics_read_iff (s : Snapshot) : readBody readValue (metrics s) = some (rows s) ↔
    ∀ c, s.database = some c → ∀ r ∈ c.eventsByType, backslash ∉ r.1 ∧ lineFeed ∉ r.1 := by
  rw [readBody_rows readValue hread s, rows_plain]
  rfl

end Body

instance (q : ℚ) : Decidable (IsDouble q) :=
  inferInstanceAs (Decidable (toDouble |q| = .finite |q|))

def readCount (t : Text) : Option Count :=
  match readNumber t with
  | (.finite q, negative) =>
    let value := if negative then -q else q
    if h : IsDouble value then some ⟨value, h⟩ else none
  | (.infinite _, _) => none

theorem readCount_text (c : Count) : readCount (numberText c.value) = some c := by
  obtain ⟨q, hq⟩ := c
  have hvalue : (if decide (q < 0) = true then -|q| else |q|) = q := by
    by_cases h : q < 0
    · simp [h, abs_of_neg h]
    · simp [h, abs_of_nonneg (not_lt.mp h)]
  simp only [readCount, read_numberText q hq, hvalue, dif_pos hq]

theorem api_key_named (c : Count) : ∀ d ∈ [(js "api-key", c)], d.1 ∈ bucketNames :=
  List.forall_mem_singleton.mpr (show js "api-key" ∈ bucketNames by decide)

theorem relay_named : RequestGate.isKeyLabel (js "relay-1") = true := by decide

theorem relay_bound : HttpValidate.isAid (js "aid:pubkey:abc") = true := by decide

def relayPull : LastPull where
  issuer := js "relay-1"
  aid := js "aid:pubkey:abc"
  secs := ⟨1792889239, isDouble_nat 1792889239 (by norm_num)⟩
  isLabel := relay_named
  isIssuer := relay_bound

/-- A database with one event, and a process that has refused a request, opened
a breaker and seen a pull. -/
def firstScrape (type : Text) : Snapshot where
  database := some ⟨none, none, none, none, none, [(type, one)]⟩
  drops := [(js "api-key", one)]
  dropsNamed := api_key_named one
  breakers := [.isOpen]
  adminAuditInsertFailures := zero
  enrollFailureTotals := fun _ => zero
  lastPulls := [relayPull]
  eventBacklogDropped := zero
  eventsDroppedTotal := zero
  eventsDuplicateTotal := zero
  sseOpen := zero
  sseOpenedTotal := zero
  sseRejectedTotal := zero

theorem quoted_type_read : readBody readCount (metrics (firstScrape (js "say \"hello\""))) =
    some (rows (firstScrape (js "say \"hello\""))) := by
  apply (metrics_read_iff readCount readCount_text _).mpr
  intro c hc
  cases hc
  exact List.forall_mem_singleton.mpr (by decide)

def forgedType : Text := js "x"++lineFeed::(js "aitp_control_plane_db_up 0"++lineFeed::js "#")

theorem row_lines (s : Snapshot) (r : Item Count) (hr : r ∈ rows s) (line : Text)
    (hl : line ∈ (rowText r).splitOn lineFeed) : line ∈ (metrics s).splitOn lineFeed := by
  rw [metrics, splitOn_joined _ (rows_ne_nil s), List.mem_append, List.mem_flatMap]
  exact Or.inl ⟨rowText r, List.mem_map_of_mem hr, hl⟩

theorem forged_line : js "aitp_control_plane_db_up 0" ∈
    (metrics (firstScrape forgedType)).splitOn lineFeed := by
  have hrow : Item.sample ⟨auditEvents.name, [(js "type", forgedType)], one⟩ ∈
      rows (firstScrape forgedType) := by
    simp [rows, firstScrape, databaseRows, metric]
  apply row_lines _ _ hrow
  have hescape : escapeQuotes forgedType = forgedType := by decide +kernel
  have htext : rowText (.sample ⟨auditEvents.name, [(js "type", forgedType)], one⟩) =
      (auditEvents.name++openBrace::(js "type"++equals::quoteMark::js "x"))++lineFeed::
        (js "aitp_control_plane_db_up 0"++lineFeed::
          (js "#"++quoteMark::closeBrace::0x20::numberText one.value)) := by
    rw [rowText_single, hescape, forgedType]
    simp
  have hfirst : lineFeed ∉ auditEvents.name++openBrace::(js "type"++equals::quoteMark::js "x") := by
    decide +kernel
  have hsecond : lineFeed ∉ js "aitp_control_plane_db_up 0" := by decide +kernel
  rw [htext, List.splitOn_append_cons_self_of_not_mem hfirst,
    List.splitOn_append_cons_self_of_not_mem hsecond]
  exact List.mem_cons_of_mem _ List.mem_cons_self

/-- The type is stored, and its scrape has a line that says the database is down
besides the line that says it is up. -/
theorem forged_type_unread :
    HttpValidate.checkColumnString forgedType (js "type") 128 none = none ∧
    js "aitp_control_plane_db_up 0" ∈ (metrics (firstScrape forgedType)).splitOn lineFeed ∧
    rowText (.sample ⟨dbUp.name, [], one⟩) ∈
      (metrics (firstScrape forgedType)).splitOn lineFeed ∧
    readBody readCount (metrics (firstScrape forgedType)) ≠
      some (rows (firstScrape forgedType)) := by
  constructor
  · decide +kernel
  constructor
  · exact forged_line
  constructor
  · have hrow : Item.sample ⟨dbUp.name, [], one⟩ ∈ processRows (firstScrape forgedType) := by
      simp [firstScrape, processRows, metric]
    obtain ⟨hshaped, hplain⟩ := processRows_settled _ _ hrow
    apply row_lines _ _ (List.mem_append_right _ hrow)
    rw [List.splitOn_eq_singleton (lineFeed_row _ hshaped hplain)]
    exact List.mem_singleton_self _
  · intro h
    rw [readBody_rows readCount readCount_text, rows_plain] at h
    have hplain := h _ rfl (forgedType, one) List.mem_cons_self
    exact absurd hplain.2 (by decide)

end ControlPlane.MetricsRoute
