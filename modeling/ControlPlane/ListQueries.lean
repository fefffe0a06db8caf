import Mathlib.Data.Int.ConditionallyCompleteOrder
import ControlPlane.EventNormalize
import ControlPlane.JsNumberText
import ControlPlane.JsonText
import ControlPlane.KeyLists
import ControlPlane.OffsetPaging
import ControlPlane.RegistrationMachine

/-!
# List queries

Event history, agents, TCTs and delegations are listed by a filter and one sort
key, a page at a time. Events that come in one batch have one time, so a page
may end among rows that the database is free to order anew for the next one.
-/

set_option autoImplicit false

namespace ControlPlane.ListQueries
open ControlPlane.JsText ControlPlane.JsValue ControlPlane.HttpValidate ControlPlane.JsNumberText
open ControlPlane.JsonText ControlPlane.OffsetPaging ControlPlane.TctMonitor
open ControlPlane.EventNormalize (EventRecord)
open ControlPlane.RegistrationMachine (Agent AgentStatus)
open ControlPlane.RequestGate (isJsSpace present)

inductive Refusal where
  | invalidFilter (message : Text)
  | badRequest (problem : Problem)
  | database
  | tree

structure Query (α : Type) where
  keep : α → Bool
  limit : ℕ
  offset : ℕ

/-- What a query may give, by any order of the rows with equal keys. -/
def Answers {α : Type} (key : α → ℤ) (table : List α) (q : Query α) (page : List α) : Prop :=
  ∃ order, Ordering key (table.filter q.keep) order ∧ page = slice q.limit q.offset order

/-- `ORDER BY … DESC` -/
def descending (t : Instant) : ℤ := -t

/-- An empty filter is none; the driver writes lone surrogates as U+FFFD. -/
def column (filter value : Option Text) : Bool :=
  (present filter).all (fun t => value = some (toWellFormed t))

/-- The parameters of `LIMIT` and `OFFSET`, which are whole numbers. -/
def sqlCount (q : ℚ) : Option ℕ := if 0 ≤ q ∧ q.den = 1 then some q.num.toNat else none

def limited {α : Type} (keep : α → Bool) (limit offset : ℚ) : Except Refusal (Query α) :=
  match sqlCount limit, sqlCount offset with
  | some l, some o => .ok ⟨keep, l, o⟩
  | _, _ => .error .database

structure HistoryFilters where
  type : Option Text
  aid : Option Text
  sessionId : Option Text
  runId : Option Text
  since : Option Text
  untilText : Option Text
  limit : Option ℚ
  offset : Option ℚ

def parseIsoOrThrow (parseDate : Text → Option Instant) (name raw : Text) :
    Except Refusal Instant :=
  match parseDate raw with
  | some t => .ok t
  | none => .error (.invalidFilter (name++
      js " must be a parseable date string (ISO-8601 recommended); got "++quote raw))

def dateFilter (parseDate : Text → Option Instant) (name : Text) (v : Option Text) :
    Except Refusal (Option Instant) :=
  match present v with
  | none => .ok none
  | some raw => (parseIsoOrThrow parseDate name raw).map some

/-- What the database cannot take for a text or a time. -/
def unreadable (texts : List (Option Text)) (times : List (Option Instant)) : Bool :=
  texts.any (fun t => (present t).any hasNul) || times.any (fun t => t.any (!instantStorable ·))

def historyKeep (f : HistoryFilters) (since untilTime : Option Instant) (r : EventRecord) : Bool :=
  column f.type (some r.type) && column f.sessionId r.sessionId && column f.runId r.runId &&
    (column f.aid r.aidA || column f.aid r.aidB) && since.all (· ≤ r.ts) &&
      untilTime.all (r.ts ≤ ·)

def historyClause (parseDate : Text → Option Instant) (f : HistoryFilters) :
    Except Refusal (EventRecord → Bool) := do
  let since ← dateFilter parseDate (js "since") f.since
  let untilTime ← dateFilter parseDate (js "until") f.untilText
  if unreadable [f.type, f.sessionId, f.runId, f.aid] [since, untilTime] then .error .database
  else .ok (historyKeep f since untilTime)

def queryHistory (parseDate : Text → Option Instant) (f : HistoryFilters) :
    Except Refusal (Query EventRecord) := do
  let keep ← historyClause parseDate f
  limited keep (min (max (f.limit.getD 100) 1) 1000) (max (f.offset.getD 0) 0)

structure RegistryFilters where
  capability : Option Text
  aid : Option Text
  displayName : Option Text
  status : Option Text
  agentNamespace : Option Text
  limit : Option ℚ
  offset : Option ℚ

def statusText : AgentStatus → Text
  | .active => js "active"
  | .expired => js "expired"
  | .deregistered => js "deregistered"

/-- `caps @> '["capability"]'` -/
def containsCapability (caps : Json) (capability : Text) : Bool :=
  match caps with
  | .arr items => items.any (fun v => v.string? = some capability)
  | _ => false

def agentKeep (f : RegistryFilters) (now : Instant) (a : Agent) : Bool :=
  statusText a.status = toWellFormed (f.status.getD (js "active")) &&
    a.manifestExpiresAt.all (now ≤ ·) && column f.aid (some a.aid) &&
      column f.displayName (some a.displayName) &&
        column f.agentNamespace (some a.agentNamespace) &&
        (present f.capability).all (containsCapability a.offeredCaps)

def unreadableJson (t : Option Text) : Bool :=
  (present t).any (fun t => hasNul t || !isWellFormed t)

def agentClause (f : RegistryFilters) : Except Refusal (Instant → Agent → Bool) :=
  if unreadable [f.status, f.aid, f.displayName, f.agentNamespace] [] ||
    unreadableJson f.capability then .error .database
  else .ok (agentKeep f)

/-- `Math.trunc` -/
def trunc (q : ℚ) : ℤ := if 0 ≤ q then ⌊q⌋ else ⌈q⌉

def listAgents (f : RegistryFilters) (now : Instant) : Except Refusal (Query Agent) := do
  let keep ← agentClause f
  limited (keep now) (min (max (trunc (f.limit.getD 200)) 1) 1000 : ℤ)
    (max (trunc (f.offset.getD 0)) 0 : ℤ)

abbrev Params := Text → Option Text

def leadingDigits (t : Text) : Option ℤ :=
  if t.takeWhile isDigit = [] then none else some (digitsValue (t.takeWhile isDigit))

/-- `parseInt(text, 10)`, without the rounding of numbers beyond 53 bits. -/
def parseInt (t : Text) : Option ℤ :=
  match t.dropWhile isJsSpace with
  | 0x2B::ds => leadingDigits ds
  | 0x2D::ds => (leadingDigits ds).map (-·)
  | ds => leadingDigits ds

/-- `parseInt(sp.get(name) ?? text, 10) || dflt` -/
def countParam (sp : Params) (name text : Text) (dflt : ℤ) : ℤ :=
  match parseInt ((sp name).getD text) with
  | some n => if n = 0 then dflt else n
  | none => dflt

def pageOf {α : Type} (sp : Params) (keep : α → Bool) : Except Refusal (Query α) :=
  limited keep (min (max (countParam sp (js "limit") (js "100") 100) 1) 1000 : ℤ)
    (max (countParam sp (js "offset") (js "0") 0) 0 : ℤ)

def checkQueryParam (value : Option Text) (name : Text) : Option Text :=
  if value.any hasNul then some (name++js " must not contain a NUL character") else none

def nulProblem (sp : Params) (names : List Text) : Option Problem :=
  (names.findSome? (fun name => checkQueryParam (sp name) name)).map
    (fun problem => ⟨400, problem, js "BAD_REQUEST"⟩)

/-- `revoked = false` and `expires_at` is null or later than now. -/
def activeOnly (sp : Params) (now : Instant) (revoked : Bool) (expiresAt : Option Instant) :
    Bool :=
  sp (js "active") ≠ some (js "true") || (!revoked && expiresAt.all (now < ·))

def tctKeep (sp : Params) (now : Instant) (r : IssuedTct) : Bool :=
  column (sp (js "issuer")) (some r.issuerAid) && column (sp (js "subject")) (some r.subjectAid) &&
    column (sp (js "audience")) (some r.audienceAid) &&
      (present (sp (js "capability"))).all (r.grants.contains ·) &&
        column (sp (js "sessionId")) r.sessionId && activeOnly sp now r.revoked r.expiresAt

def tctClause (sp : Params) : Except Refusal (Instant → IssuedTct → Bool) :=
  match nulProblem sp
      [js "issuer", js "subject", js "audience", js "capability", js "sessionId"] with
  | some problem => .error (.badRequest problem)
  | none =>
    if unreadableJson (sp (js "capability")) then .error .database else .ok (tctKeep sp)

def getTcts (sp : Params) (now : Instant) : Except Refusal (Query IssuedTct) := do
  let keep ← tctClause sp
  pageOf sp (keep now)

def parentParam (sp : Params) : Option Text :=
  present ((sp (js "parent_jti")).or (sp (js "parentJti")))

def delegationKeep (sp : Params) (now : Instant) (r : Delegation) : Bool :=
  (parentParam sp).all (fun jti => r.parentJti = jti.map lowerUnit) &&
    column (sp (js "delegator")) (some r.delegatorAid) &&
      column (sp (js "delegatee")) (some r.delegateeAid) &&
        activeOnly sp now r.revoked r.expiresAt

/-- With a root the tree is asked for, without limit and offset. -/
def delegationClause (sp : Params) : Except Refusal (Instant → Delegation → Bool) :=
  if (present ((sp (js "root_jti")).or (sp (js "rootJti")))).isSome then .error .tree
  else
    match nulProblem sp [js "delegator", js "delegatee"] with
    | some problem => .error (.badRequest problem)
    | none =>
      if (parentParam sp).any (fun jti => !isJtiUuid jti) then
        .error (.badRequest ⟨400, js "parent_jti must be a UUID", js "BAD_REQUEST"⟩)
      else .ok (delegationKeep sp)

def getDelegations (sp : Params) (now : Instant) : Except Refusal (Query Delegation) := do
  let keep ← delegationClause sp
  pageOf sp (keep now)

/-- Each page is an answer to its query; those up to the first short one are
the rows that matched at first, each once. -/
def ReadsAll {α : Type} (key : α → ℤ) (table : List α) (query : ℕ → Except Refusal (Query α))
    (limit : ℕ) : Prop :=
  ∀ answers : ℕ → List α, (∀ k, ∃ q, query k = .ok q ∧ Answers key table q (answers k)) →
    ∃ q out, query 0 = .ok q ∧
      collect answers limit ((table.filter q.keep).length+1) 0 = some out ∧
        out.Perm (table.filter q.keep)

/-- Nothing that matched expires while there is more to read, and no page ends
among rows of one sort key. -/
structure Undivided {α : Type} (key : α → ℤ) (table : List α)
    (query : ℕ → Except Refusal (Query α)) (limit : ℕ) : Prop where
  steady : ∀ k q q', query 0 = .ok q → query k = .ok q' →
    k*limit < (table.filter q.keep).length → table.filter q'.keep = table.filter q.keep
  uncut : ∀ q, query 0 = .ok q → ∀ k, ¬Splits key (table.filter q.keep) (k*limit)

def Paged {α : Type} (clause : Except Refusal (Instant → α → Bool)) (limit : ℕ)
    (now : ℕ → Instant) (query : ℕ → Except Refusal (Query α)) : Prop :=
  ∀ k, query k = clause.map (fun keep => ⟨keep (now k), limit, k*limit⟩)

def Fading {α : Type} (clause : Except Refusal (Instant → α → Bool)) : Prop :=
  ∀ keep, clause = .ok keep → ∀ s t, s ≤ t → ∀ r, keep t r = true → keep s r = true

section Reading
variable {α : Type} (key : α → ℤ) (table : List α) (limit : ℕ)

theorem readsAll_complete (keep : ℕ → α → Bool) (query : ℕ → Except Refusal (Query α))
    (hquery : ∀ k, query k = .ok ⟨keep k, limit, k*limit⟩) :
    ReadsAll key table query limit ↔ Complete key (fun k => table.filter (keep k)) limit := by
  constructor
  · intro h orders horders
    obtain ⟨q, out, hq, hout, hperm⟩ := h (fun k => slice limit (k*limit) (orders k))
      (fun k => ⟨_, hquery k, orders k, horders k, rfl⟩)
    rw [hquery 0] at hq
    cases hq
    exact ⟨out, hout, hperm⟩
  · intro h answers hanswers
    have hpage : ∀ k, ∃ order, Ordering key (table.filter (keep k)) order ∧
        answers k = slice limit (k*limit) order := by
      intro k
      obtain ⟨q, hq, order, horder, hpage⟩ := hanswers k
      rw [hquery k] at hq
      cases hq
      exact ⟨order, horder, hpage⟩
    obtain ⟨orders, horders⟩ := Classical.skolem.mp hpage
    obtain ⟨out, hout, hperm⟩ := h orders (fun k => (horders k).1)
    have hall : answers = fun k => slice limit (k*limit) (orders k) := by
      ext1 k
      exact (horders k).2
    rw [← hall] at hout
    exact ⟨_, out, hquery 0, hout, hperm⟩

theorem readsAll_iff (hlimit : 0 < limit) (hnodup : table.Nodup)
    (clause : Except Refusal (Instant → α → Bool)) (now : ℕ → Instant) (hnow : Monotone now)
    (query : ℕ → Except Refusal (Query α)) (hpaged : Paged clause limit now query)
    (hfading : Fading clause) :
    ReadsAll key table query limit ↔ Undivided key table query limit := by
  cases hclause : clause with
  | error refusal =>
    have hrefused : ∀ k q, query k ≠ .ok q := by
      intro k q hq
      rw [hpaged k, hclause] at hq
      cases hq
    constructor
    · intro _
      exact ⟨fun k q q' hq => absurd hq (hrefused 0 q), fun q hq => absurd hq (hrefused 0 q)⟩
    · intro _ answers hanswers
      obtain ⟨q, hq, -⟩ := hanswers 0
      exact absurd hq (hrefused 0 q)
  | ok keep =>
    have hquery : ∀ k, query k = .ok ⟨keep (now k), limit, k*limit⟩ := by
      intro k
      rw [hpaged k, hclause]
      rfl
    have hshrink : ∀ k, (table.filter (keep (now (k+1)))).Sublist
        (table.filter (keep (now k))) := by
      intro k
      apply List.monotone_filter_right
      intro r hr
      exact hfading keep hclause _ _ (hnow (Nat.le_succ k)) r hr
    rw [readsAll_complete key table limit (fun k => keep (now k)) query hquery,
      complete_iff key _ limit hlimit hshrink (hnodup.filter _)]
    constructor
    · rintro ⟨hsteady, hcut⟩
      constructor
      · intro k q q' hq hq'
        rw [hquery 0] at hq
        rw [hquery k] at hq'
        cases hq
        cases hq'
        exact hsteady k
      · intro q hq
        rw [hquery 0] at hq
        cases hq
        exact hcut
    · intro h
      exact ⟨fun k => h.steady k _ _ (hquery 0) (hquery k), h.uncut _ (hquery 0)⟩

end Reading

theorem sqlCount_nat (n : ℕ) : sqlCount n = some n := by
  have hn : (0 : ℚ) ≤ n ∧ (n : ℚ).den = 1 := ⟨by positivity, rfl⟩
  rw [sqlCount, if_pos hn]
  rfl

theorem limited_nat {α : Type} (keep : α → Bool) (limit offset : ℚ) (l o : ℕ) (hl : limit = l)
    (ho : offset = o) : limited keep limit offset = .ok ⟨keep, l, o⟩ := by
  rw [limited, hl, ho, sqlCount_nat, sqlCount_nat]

def HistoryFilters.page (f : HistoryFilters) (limit offset : ℕ) : HistoryFilters :=
  { f with limit := some limit, offset := some offset }

def RegistryFilters.page (f : RegistryFilters) (limit offset : ℕ) : RegistryFilters :=
  { f with limit := some limit, offset := some offset }

def decimal (n : ℕ) : Text := if n = 0 then [0x30] else digitsText n

def pageParams (sp : Params) (limit offset : ℕ) : Params := fun name =>
  if name = js "limit" then some (decimal limit)
  else if name = js "offset" then some (decimal offset) else sp name

theorem decimal_digits (n : ℕ) : decimal n ≠ [] ∧ (∀ u ∈ decimal n, isDigit u = true) ∧
    digitsValue (decimal n) = n := by
  by_cases hn : n = 0
  · subst hn
    exact ⟨by decide, by simp [decimal]; decide, by decide⟩
  · rw [decimal, if_neg hn]
    exact ⟨digitsText_ne_nil n hn, digitsText_digits n, digitsValue_digitsText n⟩

theorem digit_unit (u : UInt16) (h : isDigit u = true) :
    isJsSpace u = false ∧ u ≠ 0x2B ∧ u ≠ 0x2D := by
  have hrange : 0x30 ≤ u.toNat ∧ u.toNat ≤ 0x39 := by
    simpa [isDigit, UInt16.le_iff_toNat_le] using h
  constructor
  · by_contra hspace
    have := KeyLists.space_range u (by simpa using hspace)
    omega
  constructor
  · rintro rfl
    exact absurd hrange.1 (by decide)
  · rintro rfl
    exact absurd hrange.1 (by decide)

theorem parseInt_decimal (n : ℕ) : parseInt (decimal n) = some (n : ℤ) := by
  obtain ⟨hne, hdigits, hvalue⟩ := decimal_digits n
  generalize decimal n = t at hne hdigits hvalue
  have htake : t.takeWhile isDigit = t := List.takeWhile_eq_self_iff.mpr hdigits
  cases t with
  | nil => exact absurd rfl hne
  | cons u rest =>
    obtain ⟨hspace, hplus, hminus⟩ := digit_unit u (hdigits u List.mem_cons_self)
    have hdrop : (u::rest).dropWhile isJsSpace = u::rest :=
      List.dropWhile_cons_of_neg (by simp [hspace])
    unfold parseInt
    rw [hdrop]
    split
    · next heq =>
      cases heq
      exact absurd rfl hplus
    · next heq =>
      cases heq
      exact absurd rfl hminus
    · rw [leadingDigits, htake, if_neg hne, hvalue]

section Endpoints
variable (limit : ℕ) (h1 : 1 ≤ limit) (h2 : limit ≤ 1000) (now : ℕ → Instant)

include h1 h2 in
theorem clamped : (min (max (limit : ℤ) 1) 1000 : ℤ) = limit := by omega

theorem trunc_nat (n : ℕ) : trunc (n : ℚ) = n := by
  rw [trunc, if_pos (by positivity), Int.floor_natCast]

include h1 h2 in
theorem history_paged (parseDate : Text → Option Instant) (f : HistoryFilters) :
    Paged ((historyClause parseDate f).map (fun keep _ => keep)) limit now
      (fun k => queryHistory parseDate (f.page limit (k*limit))) := by
  intro k
  have hclause : historyClause parseDate (f.page limit (k*limit)) = historyClause parseDate f := rfl
  have hlimit : min (max (limit : ℚ) 1) 1000 = limit := by
    have h1' : (1 : ℚ) ≤ limit := by exact_mod_cast h1
    have h2' : (limit : ℚ) ≤ 1000 := by exact_mod_cast h2
    rw [max_eq_left h1', min_eq_left h2']
  have hoffset : max ((k*limit : ℕ) : ℚ) 0 = ((k*limit : ℕ) : ℚ) := max_eq_left (by positivity)
  simp only [queryHistory, hclause]
  cases historyClause parseDate f with
  | error refusal => rfl
  | ok keep => exact limited_nat keep _ _ limit (k*limit) hlimit hoffset

include h1 h2 in
theorem agents_paged (f : RegistryFilters) : Paged (agentClause f) limit now
    (fun k => listAgents (f.page limit (k*limit)) (now k)) := by
  intro k
  have hclause : agentClause (f.page limit (k*limit)) = agentClause f := rfl
  simp only [listAgents, hclause]
  cases agentClause f with
  | error refusal => rfl
  | ok keep =>
    apply limited_nat
    · show ((min (max (trunc (limit : ℚ)) 1) 1000 : ℤ) : ℚ) = limit
      rw [trunc_nat, clamped limit h1 h2]
      rfl
    · show ((max (trunc ((k*limit : ℕ) : ℚ)) 0 : ℤ) : ℚ) = ((k*limit : ℕ) : ℚ)
      rw [trunc_nat, max_eq_left (by positivity)]
      rfl

include h1 h2 in
theorem pageOf_params {α : Type} (sp : Params) (keep : α → Bool) (offset : ℕ) :
    pageOf (pageParams sp limit offset) keep = .ok ⟨keep, limit, offset⟩ := by
  have hlimit : countParam (pageParams sp limit offset) (js "limit") (js "100") 100 = limit := by
    have hget : pageParams sp limit offset (js "limit") = some (decimal limit) := if_pos rfl
    rw [countParam, hget, Option.getD_some, parseInt_decimal]
    exact if_neg (by omega)
  have hoffset : countParam (pageParams sp limit offset) (js "offset") (js "0") 0 = offset := by
    have hget : pageParams sp limit offset (js "offset") = some (decimal offset) := by
      rw [pageParams, if_neg (by decide), if_pos rfl]
    rw [countParam, hget, Option.getD_some, parseInt_decimal]
    show (if (offset : ℤ) = 0 then 0 else (offset : ℤ)) = offset
    split_ifs with hzero
    · exact hzero.symm
    · rfl
  rw [pageOf, hlimit, hoffset]
  apply limited_nat
  · rw [clamped limit h1 h2]
    rfl
  · rw [max_eq_left (by positivity)]
    rfl

theorem pageParams_other (sp : Params) (offset : ℕ) (name : Text)
    (hl : name ≠ js "limit") (ho : name ≠ js "offset") :
    pageParams sp limit offset name = sp name := by
  rw [pageParams, if_neg hl, if_neg ho]

include h1 h2 in
theorem clause_paged {α : Type} (clause : Params → Except Refusal (Instant → α → Bool))
    (sp : Params) (hclause : ∀ offset, clause (pageParams sp limit offset) = clause sp) :
    Paged (clause sp) limit now (fun k => do
      let keep ← clause (pageParams sp limit (k*limit))
      pageOf (pageParams sp limit (k*limit)) (keep (now k))) := by
  intro k
  simp only [hclause]
  cases clause sp with
  | error refusal => rfl
  | ok keep => exact pageOf_params limit h1 h2 sp (keep (now k)) (k*limit)

include h1 h2 in
theorem tcts_paged (sp : Params) : Paged (tctClause sp) limit now
    (fun k => getTcts (pageParams sp limit (k*limit)) (now k)) := by
  apply clause_paged limit h1 h2 now tctClause sp
  intro offset
  have hget := pageParams_other limit sp offset
  have hkeep : tctKeep (pageParams sp limit offset) = tctKeep sp := by
    ext t r
    simp (disch := decide) only [tctKeep, activeOnly, hget]
  simp (disch := decide) only [tctClause, nulProblem, List.findSome?_cons, List.findSome?_nil,
    hget, hkeep]

include h1 h2 in
theorem delegations_paged (sp : Params) : Paged (delegationClause sp) limit now
    (fun k => getDelegations (pageParams sp limit (k*limit)) (now k)) := by
  apply clause_paged limit h1 h2 now delegationClause sp
  intro offset
  have hget := pageParams_other limit sp offset
  have hkeep : delegationKeep (pageParams sp limit offset) = delegationKeep sp := by
    ext t r
    simp (disch := decide) only [delegationKeep, parentParam, activeOnly, hget]
  simp (disch := decide) only [delegationClause, nulProblem, parentParam, List.findSome?_cons,
    List.findSome?_nil, hget, hkeep]
  rfl

end Endpoints

theorem history_fading (clause : Except Refusal (EventRecord → Bool)) :
    Fading (clause.map (fun keep _ => keep)) := by
  intro keep hkeep s t _ r hr
  cases clause with
  | error refusal => cases hkeep
  | ok k =>
    cases hkeep
    exact hr

theorem all_earlier (e : Option Instant) (p : Instant → Instant → Bool) (s t : Instant)
    (hp : ∀ x, p t x = true → p s x = true) (h : e.all (p t) = true) : e.all (p s) = true := by
  cases e with
  | none => rfl
  | some x => exact hp x h

theorem active_earlier (sp : Params) (s t : Instant) (hst : s ≤ t) (revoked : Bool)
    (e : Option Instant) (h : activeOnly sp t revoked e = true) :
    activeOnly sp s revoked e = true := by
  rw [activeOnly, Bool.or_eq_true, Bool.and_eq_true] at h ⊢
  rcases h with h | ⟨hrevoked, hlater⟩
  · exact Or.inl h
  · right
    apply And.intro hrevoked
    apply all_earlier e (fun now x => now < x) s t _ hlater
    intro x hx
    exact decide_eq_true (hst.trans_lt (of_decide_eq_true hx))

theorem agents_fading (f : RegistryFilters) : Fading (agentClause f) := by
  intro keep hkeep s t hst a ha
  rw [agentClause] at hkeep
  split_ifs at hkeep
  cases hkeep
  simp only [agentKeep, Bool.and_eq_true] at ha ⊢
  obtain ⟨⟨⟨⟨⟨hstatus, hexpires⟩, haid⟩, hname⟩, hspace⟩, hcap⟩ := ha
  have hearlier : a.manifestExpiresAt.all (s ≤ ·) = true := by
    apply all_earlier _ (fun now x => now ≤ x) s t _ hexpires
    intro x hx
    exact decide_eq_true (hst.trans (of_decide_eq_true hx))
  exact ⟨⟨⟨⟨⟨hstatus, hearlier⟩, haid⟩, hname⟩, hspace⟩, hcap⟩

theorem tctClause_ok (sp : Params) (keep : Instant → IssuedTct → Bool)
    (h : tctClause sp = .ok keep) : keep = tctKeep sp := by
  unfold tctClause at h
  cases hnul : nulProblem sp
      [js "issuer", js "subject", js "audience", js "capability", js "sessionId"] with
  | some problem =>
    rw [hnul] at h
    cases h
  | none =>
    rw [hnul] at h
    by_cases hjson : unreadableJson (sp (js "capability")) = true
    · simp [hjson] at h
    · simp only [hjson, Bool.false_eq_true, if_false, Except.ok.injEq] at h
      exact h.symm

theorem delegationClause_ok (sp : Params) (keep : Instant → Delegation → Bool)
    (h : delegationClause sp = .ok keep) : keep = delegationKeep sp := by
  unfold delegationClause at h
  by_cases hroot : (present ((sp (js "root_jti")).or (sp (js "rootJti")))).isSome = true
  · rw [if_pos hroot] at h
    cases h
  rw [if_neg hroot] at h
  cases hnul : nulProblem sp [js "delegator", js "delegatee"] with
  | some problem =>
    rw [hnul] at h
    cases h
  | none =>
    rw [hnul] at h
    by_cases hjti : (parentParam sp).any (fun jti => !isJtiUuid jti) = true
    · simp [hjti] at h
    · simp only [hjti, Bool.false_eq_true, if_false, Except.ok.injEq] at h
      exact h.symm

theorem tcts_fading (sp : Params) : Fading (tctClause sp) := by
  intro keep hkeep s t hst r hr
  rw [tctClause_ok sp keep hkeep, tctKeep, Bool.and_eq_true] at hr ⊢
  exact ⟨hr.1, active_earlier sp s t hst _ _ hr.2⟩

theorem delegations_fading (sp : Params) : Fading (delegationClause sp) := by
  intro keep hkeep s t hst r hr
  rw [delegationClause_ok sp keep hkeep, delegationKeep, Bool.and_eq_true] at hr ⊢
  exact ⟨hr.1, active_earlier sp s t hst _ _ hr.2⟩

def historyKey (r : EventRecord) : ℤ := descending r.ts

def agentKey (a : Agent) : ℤ := a.registeredAt

def tctKey (r : IssuedTct) : ℤ := descending r.issuedAt

def delegationKey (r : Delegation) : ℤ := descending r.issuedAt

/-- Paging reads the rows of a listing once each exactly if no page ends among
rows of one time and none of them expires on the way. -/
theorem list_pages_iff (parseDate : Text → Option Instant) (limit : ℕ) (h1 : 1 ≤ limit)
    (h2 : limit ≤ 1000) (now : ℕ → Instant) (hnow : Monotone now) :
    (∀ (f : HistoryFilters) (table : List EventRecord), (table.map (fun r => r.id)).Nodup →
      (ReadsAll historyKey table
          (fun k => queryHistory parseDate (f.page limit (k*limit))) limit ↔
        Undivided historyKey table
          (fun k => queryHistory parseDate (f.page limit (k*limit))) limit)) ∧
    (∀ (f : RegistryFilters) (table : List Agent), (table.map (fun a => a.aid)).Nodup →
      (ReadsAll agentKey table (fun k => listAgents (f.page limit (k*limit)) (now k)) limit ↔
        Undivided agentKey table (fun k => listAgents (f.page limit (k*limit)) (now k)) limit)) ∧
    (∀ (sp : Params) (table : List IssuedTct), (table.map (fun r => r.jti)).Nodup →
      (ReadsAll tctKey table (fun k => getTcts (pageParams sp limit (k*limit)) (now k)) limit ↔
        Undivided tctKey table
          (fun k => getTcts (pageParams sp limit (k*limit)) (now k)) limit)) ∧
    ∀ (sp : Params) (table : List Delegation), (table.map (fun r => r.jti)).Nodup →
      (ReadsAll delegationKey table
          (fun k => getDelegations (pageParams sp limit (k*limit)) (now k)) limit ↔
        Undivided delegationKey table
          (fun k => getDelegations (pageParams sp limit (k*limit)) (now k)) limit) := by
  constructor
  · intro f table hkeys
    exact readsAll_iff historyKey table limit h1 (List.Nodup.of_map _ hkeys) _ now hnow _
      (history_paged limit h1 h2 now parseDate f) (history_fading _)
  constructor
  · intro f table hkeys
    exact readsAll_iff agentKey table limit h1 (List.Nodup.of_map _ hkeys) _ now hnow _
      (agents_paged limit h1 h2 now f) (agents_fading f)
  constructor
  · intro sp table hkeys
    exact readsAll_iff tctKey table limit h1 (List.Nodup.of_map _ hkeys) _ now hnow _
      (tcts_paged limit h1 h2 now sp) (tcts_fading sp)
  · intro sp table hkeys
    exact readsAll_iff delegationKey table limit h1 (List.Nodup.of_map _ hkeys) _ now hnow _
      (delegations_paged limit h1 h2 now sp) (delegations_fading sp)

def eventAt (id : Text) (ts : Instant) : EventRecord :=
  ⟨⟨js "tct.issued", ts, none, .obj []⟩, id, none, none, none, none, none⟩

def first : EventRecord := eventAt (js "0b7f6f4e-6d0a-4c58-9a55-6a3d1f6d7a01") 0

def second : EventRecord := eventAt (js "0b7f6f4e-6d0a-4c58-9a55-6a3d1f6d7a02") 0

def later : EventRecord := eventAt (js "0b7f6f4e-6d0a-4c58-9a55-6a3d1f6d7a03") 1

def anyEvent : HistoryFilters := ⟨none, none, none, none, none, none, none, none⟩

def single (k : ℕ) : Except Refusal (Query EventRecord) :=
  queryHistory (fun _ => none) (anyEvent.page 1 (k*1))

theorem single_eq (k : ℕ) : single k = .ok ⟨historyKeep anyEvent none none, 1, k*1⟩ :=
  history_paged 1 le_rfl (by norm_num) (fun _ => 0) (fun _ => none) anyEvent k

theorem later_read : ReadsAll historyKey [first, later] single 1 := by
  obtain ⟨hhistory, -⟩ :=
    list_pages_iff (fun _ => none) 1 le_rfl (by norm_num) (fun _ => 0) monotone_const
  apply (hhistory anyEvent [first, later] (by decide)).mpr
  constructor
  · intro k q q' hq hq' _
    have hq0 : single 0 = .ok q := hq
    have hqk : single k = .ok q' := hq'
    rw [single_eq] at hq0 hqk
    cases hq0
    cases hqk
    rfl
  · intro q hq k
    have hq0 : single 0 = .ok q := hq
    rw [single_eq] at hq0
    cases hq0
    exact not_splits_of_distinct historyKey _ (by decide) _

def twice : ℕ → List EventRecord
  | 0 => [first]
  | 1 => [first]
  | _ => []

theorem batch_order (a b : EventRecord) (h : a = first ∧ b = second ∨ a = second ∧ b = first) :
    Ordering historyKey [first, second] [a, b] := by
  rcases h with ⟨rfl, rfl⟩ | ⟨rfl, rfl⟩
  · exact ⟨List.Perm.refl _, by simp [historyKey, first, second, eventAt]⟩
  · exact ⟨List.Perm.swap _ _ _, by simp [historyKey, first, second, eventAt]⟩

/-- Of two events of one time the pages may show one twice, and the other never. -/
theorem batch_read_twice :
    (∀ k, ∃ q, single k = .ok q ∧ Answers historyKey [first, second] q (twice k)) ∧
    collect twice 1 3 0 = some [first, first] ∧
    ¬ReadsAll historyKey [first, second] single 1 := by
  have hkeep : [first, second].filter (historyKeep anyEvent none none) = [first, second] := rfl
  have hanswers : ∀ k, ∃ q, single k = .ok q ∧ Answers historyKey [first, second] q (twice k) := by
    intro k
    refine ⟨_, single_eq k, ?_⟩
    rw [Answers, hkeep]
    match k with
    | 0 => exact ⟨[first, second], batch_order _ _ (Or.inl ⟨rfl, rfl⟩), rfl⟩
    | 1 => exact ⟨[second, first], batch_order _ _ (Or.inr ⟨rfl, rfl⟩), rfl⟩
    | k+2 =>
      refine ⟨[first, second], batch_order _ _ (Or.inl ⟨rfl, rfl⟩), ?_⟩
      simp [twice, slice]
  have hcollect : collect twice 1 3 0 = some [first, first] := rfl
  apply And.intro hanswers
  apply And.intro hcollect
  intro h
  obtain ⟨q, out, hq, hout, hperm⟩ := h twice hanswers
  rw [single_eq] at hq
  cases hq
  rw [hkeep] at hout hperm
  have heq : out = [first, first] := Option.some.inj (hout.symm.trans hcollect)
  have hmem : second ∈ [first, first] := heq ▸ hperm.mem_iff.mpr (by simp)
  have hid : second.id = first.id := by
    rcases List.mem_cons.mp hmem with h | h
    · rw [h]
    · rw [List.mem_singleton.mp h]
  revert hid
  decide

end ControlPlane.ListQueries
