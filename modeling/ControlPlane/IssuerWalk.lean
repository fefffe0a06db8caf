import Mathlib.Data.List.Lex
import Mathlib.Data.List.Sort
import ControlPlane.ConfigNumber
import ControlPlane.GrowingPages
import ControlPlane.ListQueries
import ControlPlane.RevocationAttribution
import ControlPlane.RevocationRelay
import ControlPlane.TallyTable

/-!
# Reading the revocation lists of all issuers

An admin walks `GET /api/revocation/issuers` page by page and asks
`GET /api/revocations` for every issuer that is listed, while entries are
recorded. Each page and each list is one statement.
-/

set_option autoImplicit false

namespace ControlPlane.IssuerWalk
open ControlPlane.JsText ControlPlane.JsValue ControlPlane.HttpValidate ControlPlane.ConfigNumber
open ControlPlane.RequestGate (Headers get keyIssuerHeader)
open ControlPlane.TctMonitor ControlPlane.RevocationRoute ControlPlane.RevocationMachine
open ControlPlane.RevocationAttribution ControlPlane.RevocationRelay ControlPlane.TctRows
open ControlPlane.ListQueries (Params trunc)
open ControlPlane.OffsetPaging ControlPlane.GrowingPages ControlPlane.TallyTable
open ControlPlane.RunMachine

section Route

structure Pagination where
  limit : ℕ
  offset : ℕ
  deriving DecidableEq, Repr

/-- `Number` of a parameter; a missing one has a default. -/
def parsed (sp : Params) (name : Text) (dflt : ℕ) : Option JsNumber :=
  match sp name with
  | some raw => stringNumber raw
  | none => some (.finite dflt)

def parsePagination (sp : Params) (defaultLimit maxLimit : ℕ) : Pagination where
  limit :=
    match parsed sp (js "limit") defaultLimit with
    | some (.finite q) => (min (max (trunc q) 1) (maxLimit : ℤ)).toNat
    | _ => defaultLimit
  offset :=
    match parsed sp (js "offset") 0 with
    | some (.finite q) => (max (trunc q) 0).toNat
    | _ => 0

theorem limit_bounds (sp : Params) (defaultLimit maxLimit : ℕ) (h : 1 ≤ defaultLimit)
    (hmax : defaultLimit ≤ maxLimit) : 1 ≤ (parsePagination sp defaultLimit maxLimit).limit ∧
      (parsePagination sp defaultLimit maxLimit).limit ≤ maxLimit := by
  simp only [parsePagination]
  split
  · omega
  · exact ⟨h, hmax⟩

/-- The largest `bigint`. -/
def offsetMax : ℕ := 9223372036854775807

abbrev IssuerCount := Text × ℕ

/-- `GROUP BY iss`, without the entries that have none. -/
def issuerCounts (t : Tables) : List IssuerCount :=
  tally (fun iss => iss) (fun _ => 1) (· + 1) (t.revocationEntries.filterMap (·.iss))

variable {κ : Type*} [LinearOrder κ] (collate : Text → κ)

/-- `ORDER BY iss` under the collation of the database. -/
def issuerRows (t : Tables) : List IssuerCount :=
  (issuerCounts t).insertionSort (fun a b => collate a.1 ≤ collate b.1)

/-- Nothing when the database refuses the offset. -/
def getIssuers (sp : Params) (t : Tables) : Option (List IssuerCount) :=
  let p := parsePagination sp 100 1000
  if offsetMax < p.offset then none else some (slice p.limit p.offset (issuerRows collate t))

end Route

section Counts
variable (t : Tables)

theorem relayed_count (iss : Text) : (t.revocationEntries.filterMap (·.iss)).countP (· = iss) =
    (relayed t iss).length := by
  rw [List.countP_filterMap, relayed, ← List.countP_eq_length_filter]
  apply List.countP_congr
  intro e _
  cases e.iss <;> simp

theorem counts_cell (iss : Text) : cell (issuerCounts t) iss =
    if relayed t iss = [] then none else some (relayed t iss).length := by
  have hcount := relayed_count t iss
  rw [issuerCounts, tally_cell]
  simp only [hcount]
  cases hf : (t.revocationEntries.filterMap (·.iss)).find? (fun x => x = iss) with
  | none =>
    have hzero := List.countP_eq_zero.mpr (List.find?_eq_none.mp hf)
    rw [hcount, List.length_eq_zero_iff] at hzero
    rw [if_pos hzero, Option.map_none]
  | some x =>
    have hx : x = iss := by simpa using List.find?_some hf
    have hpos : 0 < (relayed t iss).length := by
      rw [← hcount, List.countP_pos_iff]
      exact ⟨x, List.mem_of_find?_eq_some hf, decide_eq_true hx⟩
    rw [if_neg (List.ne_nil_of_length_pos hpos), Option.map_some, add_right_iterate]
    simp only [nsmul_eq_mul, mul_one, Nat.cast_id, Option.some.injEq]
    omega

theorem mem_counts (r : IssuerCount) : r ∈ issuerCounts t ↔
    relayed t r.1 ≠ [] ∧ r.2 = (relayed t r.1).length := by
  have hnodup : ((issuerCounts t).map Prod.fst).Nodup := tally_nodup _ _ _ _
  rw [mem_cell _ hnodup r, counts_cell]
  split_ifs with h
  · simp [h]
  · simp only [h, Option.some.injEq, ne_eq, not_false_eq_true, true_and]
    exact eq_comm

end Counts

section Rows
variable {κ : Type*} [LinearOrder κ] (collate : Text → κ)

def rowKey (r : IssuerCount) : κ := collate r.1

theorem mem_rows (t : Tables) (r : IssuerCount) : r ∈ issuerRows collate t ↔
    relayed t r.1 ≠ [] ∧ r.2 = (relayed t r.1).length := by
  rw [issuerRows, List.mem_insertionSort, mem_counts]

theorem rows_strict (hcollate : Function.Injective collate) (t : Tables) :
    Strict (rowKey collate) (issuerRows collate t) := by
  have hperm := List.perm_insertionSort (fun a b : IssuerCount => collate a.1 ≤ collate b.1)
    (issuerCounts t)
  have htotal : Std.Total (fun a b : IssuerCount => collate a.1 ≤ collate b.1) :=
    ⟨fun a b => le_total (collate a.1) (collate b.1)⟩
  have htrans : IsTrans IssuerCount (fun a b => collate a.1 ≤ collate b.1) :=
    ⟨fun a b c hab hbc => le_trans hab hbc⟩
  have hsorted := List.pairwise_insertionSort
    (fun a b : IssuerCount => collate a.1 ≤ collate b.1) (issuerCounts t)
  have hnodup : ((issuerRows collate t).map Prod.fst).Nodup :=
    (hperm.map Prod.fst).nodup_iff.mpr (tally_nodup _ _ _ _)
  have hdistinct : (issuerRows collate t).Pairwise (fun a b => a.1 ≠ b.1) :=
    List.pairwise_map.mp hnodup
  apply (hsorted.and hdistinct).imp
  rintro a b ⟨hle, hne⟩
  exact lt_of_le_of_ne hle (fun heq => hne (hcollate heq))

end Rows

section Growth

def Grows (t u : Tables) : Prop := ∀ iss, (relayed t iss).Sublist (relayed u iss)

theorem filter_fill (r : Revocation) (given iss : Text) (es : List RevocationEntry) :
    (es.filter (fun e => e.iss = some iss)).Sublist
      ((es.map (fill r given)).filter (fun e => e.iss = some iss)) := by
  induction es with
  | nil => exact List.Sublist.slnil
  | cons e es ih =>
    rw [List.map_cons]
    by_cases he : e.iss = some iss
    · have hfill : fill r given e = e := by
        rw [fill, if_neg]
        simp [he]
      rw [hfill, List.filter_cons_of_pos (by simpa using he),
        List.filter_cons_of_pos (by simpa using he)]
      exact ih.cons_cons e
    · rw [List.filter_cons_of_neg (by simpa using he), List.filter_cons]
      split_ifs
      · exact ih.cons _
      · exact ih

theorem grows_upsert (r : Revocation) (given : Text) (t : Tables) :
    Grows t (upsertEntry r given t) := by
  intro iss
  rw [relayed, relayed, upsertEntry_entries]
  split_ifs
  · exact filter_fill r given iss _
  · rw [List.filter_append]
    exact List.sublist_append_left _ _

theorem grows_next (S : Service) (l : Event) (s u : State) (hs : next S l s = some u) :
    Grows s.world.tables u.world.tables := by
  rcases next_tables S l s u hs with h | ⟨r, given, h⟩ | ⟨getAgent, event, h⟩
  · rw [h]
    exact fun iss => List.Sublist.refl _
  · rw [h]
    exact grows_upsert r given _
  · rw [h]
    intro iss
    rw [relayed, relayed, entries_onEvent]

variable {κ : Type*} [LinearOrder κ] (collate : Text → κ)

theorem grows_keys (t u : Tables) (h : Grows t u) :
    (issuerRows collate t).map (rowKey collate) ⊆ (issuerRows collate u).map (rowKey collate) := by
  intro k hk
  obtain ⟨r, hr, rfl⟩ := List.mem_map.mp hk
  obtain ⟨hne, _⟩ := (mem_rows collate t r).mp hr
  apply List.mem_map.mpr
  refine ⟨(r.1, (relayed u r.1).length), (mem_rows collate u _).mpr ⟨?_, rfl⟩, rfl⟩
  intro hnil
  exact hne (List.eq_nil_of_sublist_nil (hnil ▸ h r.1))

end Growth

section Reader
variable {κ : Type*} [LinearOrder κ] (collate : Text → κ) (limit : ℕ)

structure Reader where
  server : State
  pages : List (List IssuerCount)
  lists : List (Text × Reply)

def Reader.tables (s : Reader) : Tables := s.server.world.tables

/-- The server goes on, or the admin asks for the next page or for the list of
an issuer. -/
inductive Ask where
  | serve (l : Event)
  | page (sp : Params)
  | list (iss : Text) (h : Headers)

def listOf (s : State) (iss : Text) (h : Headers) : Reply :=
  (revocations s.world.now (some iss) h (some s.world.tables.revocationEntries) []).1

/-- An admin key is bound to no issuer. -/
def read (S : Service) : Ask → Reader → Option Reader
  | .serve l, s => (next S l s.server).map (fun server => { s with server := server })
  | .page sp, s =>
    if !finished limit s.pages &&
        parsePagination sp 100 1000 = ⟨limit, s.pages.length*limit⟩ then
      (getIssuers collate sp s.tables).map (fun rows => { s with pages := s.pages++[rows] })
    else none
  | .list iss h, s =>
    if s.pages.flatten.any (·.1 = iss) && (get h keyIssuerHeader).isNone then
      some { s with lists := s.lists++[(iss, listOf s.server iss h)] }
    else none

def opening (s : State) : Reader := ⟨s, [], []⟩

def served (t : Tables) (iss : Text) : List RelayEntry :=
  ((relayed t iss).mergeSort relayOrder).map relayEntry

theorem listOf_admin (s : State) (iss : Text) (h : Headers) (haid : isAid iss = true)
    (hadmin : get h keyIssuerHeader = none) :
    listOf s iss h = .entries iss (served s.world.tables iss) := by
  have hkept : (some iss).filter isAid = some iss := Option.filter_eq_some_iff.mpr ⟨rfl, haid⟩
  simp [listOf, revocations, hkept, hadmin, served, relayed]

theorem mem_served (t : Tables) (iss : Text) (x : RelayEntry) :
    x ∈ served t iss ↔ ∃ e ∈ relayed t iss, relayEntry e = x := by
  simp only [served, List.mem_map, List.mem_mergeSort]

theorem served_grows (t u : Tables) (iss : Text) (h : Grows t u) :
    served t iss ⊆ served u iss := by
  intro x hx
  obtain ⟨e, he, rfl⟩ := (mem_served t iss x).mp hx
  exact (mem_served u iss _).mpr ⟨e, (h iss).subset he, rfl⟩

structure Reading (t : Tables) (s : Reader) : Prop where
  grows : Grows t s.tables
  ahead : ∀ iss, relayed t iss ≠ [] → Ahead (rowKey collate) limit s.pages
    (issuerRows collate s.tables) (collate iss) (fun r => (relayed t iss).length ≤ r.2)
  counted : ∀ r ∈ s.pages.flatten, 0 < r.2 ∧ r.2 ≤ (relayed s.tables r.1).length
  strict : ∀ p ∈ s.pages, Strict (rowKey collate) p
  full : (s.pages.length-1)*limit ≤ (issuerRows collate s.tables).length ∧
    (finished limit s.pages = false →
      s.pages.length*limit ≤ (issuerRows collate s.tables).length)
  lists : ∀ x ∈ s.lists, isAid x.1 = true → ∃ es, x.2 = .entries x.1 es ∧
    served t x.1 ⊆ es ∧ es ⊆ served s.tables x.1

variable {collate limit} (hcollate : Function.Injective collate) (t : Tables)

theorem reading_opening (s : State) : Reading collate limit s.world.tables (opening s) where
  grows := fun iss => List.Sublist.refl _
  ahead := fun iss _ => ahead_start
  counted := by simp [opening]
  strict := by simp [opening]
  full := by simp [opening]
  lists := by simp [opening]

include hcollate in
theorem reading_serve (S : Service) (l : Event) (s : Reader) (u : State)
    (h : Reading collate limit t s) (hs : next S l s.server = some u) :
    Reading collate limit t { s with server := u } := by
  have hgrow : Grows s.tables u.world.tables := grows_next S l s.server u hs
  have hkeys := grows_keys collate s.tables u.world.tables hgrow
  have hstrict := rows_strict collate hcollate s.tables
  have hlength : (issuerRows collate s.tables).length ≤
      (issuerRows collate u.world.tables).length := by
    have hsub := List.subperm_of_subset (strict_nodup _ hstrict) hkeys
    simpa using hsub.length_le
  constructor
  · exact fun iss => (h.grows iss).trans (hgrow iss)
  · exact fun iss hiss => ahead_grow _ hstrict hkeys (h.ahead iss hiss)
  · exact fun r hr => ⟨(h.counted r hr).1, (h.counted r hr).2.trans (hgrow r.1).length_le⟩
  · exact h.strict
  · exact ⟨h.full.1.trans hlength, fun hopen => (h.full.2 hopen).trans hlength⟩
  · intro x hx haid
    obtain ⟨es, heq, hlow, hhigh⟩ := h.lists x hx haid
    exact ⟨es, heq, hlow, List.Subset.trans hhigh (served_grows _ _ _ hgrow)⟩

include hcollate in
theorem reading_page (s : Reader) (hlimit : 0 < limit) (h : Reading collate limit t s)
    (hopen : finished limit s.pages = false) :
    Reading collate limit t
      { s with pages := s.pages++[page limit s.pages (issuerRows collate s.tables)] } := by
  have hstrict := rows_strict collate hcollate s.tables
  have hsub : (page limit s.pages (issuerRows collate s.tables)).Sublist
      (issuerRows collate s.tables) :=
    (List.take_sublist _ _).trans (List.drop_sublist _ _)
  constructor
  · exact h.grows
  · intro iss hiss
    have hgrow := (h.grows iss).length_le
    have hrow : (iss, (relayed s.tables iss).length) ∈ issuerRows collate s.tables := by
      refine (mem_rows collate s.tables _).mpr ⟨?_, rfl⟩
      intro hnil
      exact hiss (List.eq_nil_of_sublist_nil (hnil ▸ h.grows iss))
    exact ahead_page hstrict _ hrow rfl hgrow (h.ahead iss hiss)
  · intro r hr
    rw [List.flatten_append, List.flatten_singleton, List.mem_append] at hr
    rcases hr with hr | hr
    · exact h.counted r hr
    · obtain ⟨hne, hcount⟩ := (mem_rows collate s.tables r).mp (hsub.subset hr)
      rw [hcount]
      exact ⟨List.length_pos_of_ne_nil hne, le_rfl⟩
  · intro p hp
    rcases List.mem_append.mp hp with hp | hp
    · exact h.strict p hp
    · rw [List.mem_singleton.mp hp]
      exact hstrict.sublist hsub
  · constructor
    · rw [List.length_append, List.length_singleton, Nat.add_sub_cancel]
      exact h.full.2 hopen
    · intro hnext
      rw [List.length_append, List.length_singleton]
      exact page_full hnext hlimit
  · exact h.lists

theorem reading_list (s : Reader) (iss : Text) (hs : Headers)
    (hadmin : get hs keyIssuerHeader = none) (h : Reading collate limit t s) :
    Reading collate limit t { s with lists := s.lists++[(iss, listOf s.server iss hs)] } := by
  refine ⟨h.grows, h.ahead, h.counted, h.strict, h.full, ?_⟩
  intro x hx haid
  rcases List.mem_append.mp hx with hx | hx
  · exact h.lists x hx haid
  · rw [List.mem_singleton.mp hx] at haid ⊢
    exact ⟨_, listOf_admin s.server iss hs haid hadmin, served_grows _ _ _ h.grows,
      fun y hy => hy⟩

include hcollate in
theorem reading_step (S : Service) (a : Ask) (s u : Reader)
    (h : Reading collate limit t s) (hs : read collate limit S a s = some u) :
    Reading collate limit t u := by
  cases a with
  | serve l =>
    obtain ⟨v, hv, rfl⟩ := Option.map_eq_some_iff.mp hs
    exact reading_serve hcollate t S l s v h hv
  | page sp =>
    simp only [read] at hs
    split_ifs at hs with hq
    rw [Bool.and_eq_true, Bool.not_eq_true', decide_eq_true_eq] at hq
    obtain ⟨rows, hrows, rfl⟩ := Option.map_eq_some_iff.mp hs
    simp only [getIssuers, hq.2] at hrows
    split_ifs at hrows
    obtain rfl := Option.some.inj hrows
    have hlimit := (limit_bounds sp 100 1000 (by decide) (by decide)).1
    rw [hq.2] at hlimit
    exact reading_page hcollate t s hlimit h hq.1
  | list iss hd =>
    simp only [read] at hs
    split_ifs at hs with hq
    rw [Bool.and_eq_true, Option.isNone_iff_eq_none] at hq
    obtain rfl := Option.some.inj hs
    exact reading_list t s iss hd hq.2 h

end Reader

/-- An admin who reads all pages, until one is short, and the lists of the
issuers in them, misses nothing that was there at the start, and is told
nothing that is not there at the end. -/
theorem issuers_read (S : Service) {κ : Type*} [LinearOrder κ] (collate : Text → κ)
    (hcollate : Function.Injective collate) (limit : ℕ) (s : State)
    (asks : List Ask) (u : Reader) (hr : run (read collate limit S) asks (opening s) = some u)
    (hdone : finished limit u.pages = true) :
    (∀ iss, relayed s.world.tables iss ≠ [] →
      ∃ c, (iss, c) ∈ u.pages.flatten ∧ (relayed s.world.tables iss).length ≤ c) ∧
    (∀ r ∈ u.pages.flatten, 0 < r.2 ∧ r.2 ≤ (relayed u.tables r.1).length) ∧
    (∀ p ∈ u.pages, Strict (rowKey collate) p) ∧
    (u.pages.length-1)*limit ≤ (issuerRows collate u.tables).length ∧
    ∀ x ∈ u.lists, isAid x.1 = true → ∃ es, x.2 = .entries x.1 es ∧
      served s.world.tables x.1 ⊆ es ∧ es ⊆ served u.tables x.1 := by
  have h : Reading collate limit s.world.tables u :=
    run_invariant (read collate limit S) (fun _ _ => True) (Reading collate limit s.world.tables)
      (fun a v w _ hv hs => reading_step hcollate s.world.tables S a v w hv hs)
      asks (opening s) u (guarded_true _ _ _) (reading_opening s) hr
  refine ⟨?_, h.counted, h.strict, h.full.1, h.lists⟩
  intro iss hiss
  obtain ⟨r, hr, hkey, hcount⟩ := ahead_finished hdone (h.ahead iss hiss)
  obtain rfl : r.1 = iss := hcollate hkey
  exact ⟨r.2, hr, hcount⟩

section Scenario

def units (t : Text) : List ℕ := t.map UInt16.toNat

theorem units_injective : Function.Injective units :=
  List.map_injective_iff.mpr (fun _ _ h => UInt16.toNat_inj.mp h)

def otherJti : Text := js "0d8f2c3a-1b2c-4d3e-8f4a-5b6c7d8e9f00"

def recordedTables : Tables := ⟨[⟨otherJti, 0, none, some aidB⟩], [], []⟩

def pageParams (offset : Text) : Params := fun name =>
  if name = js "limit" then some (js "1") else if name = js "offset" then some offset else none

def interrupted : List Ask :=
  [.page (pageParams (js "0")), .serve (.env (.post (namedRequest aidA)))]++
    List.replicate 9 (.serve (.act 0 .ok))++
      [.page (pageParams (js "1")), .page (pageParams (js "2")), .list aidB []]

end Scenario

theorem issuers_read_interrupted :
    ∃ u, run (read units 1 service) interrupted (opening (start 0 recordedTables)) = some u ∧
      (relayed u.tables aidA).length = 1 ∧ ∃ c, (aidB, c) ∈ u.pages.flatten ∧ 1 ≤ c := by
  have hrun : (run (read units 1 service) interrupted (opening (start 0 recordedTables))).map
      (fun u => (finished 1 u.pages, (relayed u.tables aidA).length)) = some (true, 1) := by
    decide +kernel
  obtain ⟨u, hu, h⟩ := Option.map_eq_some_iff.mp hrun
  obtain ⟨hdone, hlength⟩ := Prod.mk.inj h
  have hread := issuers_read service units units_injective 1 _ interrupted u hu hdone
  exact ⟨u, hu, hlength, hread.1 aidB (by decide)⟩

end ControlPlane.IssuerWalk
