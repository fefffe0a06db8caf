import ControlPlane.LateRevocation
import ControlPlane.RevocationAnswer
import ControlPlane.TctCustody

/-!
# Projection in any order

An event reports the identifiers of the rows it would store, or names one to
revoke; which it is does not depend on the tables. So the projection is the
processing of such reports, and its order is immaterial exactly where theirs is.
-/

set_option autoImplicit false

namespace ControlPlane.ProjectionOrder
open ControlPlane.JsText ControlPlane.JsValue ControlPlane.HttpValidate ControlPlane.TctParse
open ControlPlane.TctMonitor ControlPlane.RevocationClosure
open ControlPlane.TctCustody (Ingest)
open ControlPlane.TctRows (EventKeeps onEvent_keeps)
open ControlPlane.RevocationAnswer ControlPlane.LateRevocation

def view (t : Tables) : View Text where
  entry := {j | ∃ e ∈ t.revocationEntries, e.jti = j}
  root := {j | ∃ r ∈ t.issuedTcts, r.jti = j}
  rootRevoked := {j | ∃ r ∈ t.issuedTcts, r.jti = j ∧ r.revoked = true}
  edge := {e | e ∈ edges t}
  revoked := {j | ∃ d ∈ t.delegations, d.jti = j ∧ d.revoked = true}

/-- The rows of a report, up to the entry that ends its loop. -/
def storedJtis (M : Monitor) (now : Instant) (event : AuditEventRecord) : List Json → List Text
  | [] => []
  | raw::rest =>
    match parseTct raw event.ts with
    | none => []
    | some none => storedJtis M now event rest
    | some (some tct) =>
      if gateObserved M (fun _ => verifyObservedTct M now raw tct) then
        if tctStorable tct event.sessionId then uuid tct.jti::storedJtis M now event rest else []
      else storedJtis M now event rest

def reportedLink (M : Monitor) (i : Ingest) : Event Text :=
  match parseDelegation M.runtime i.event.payload i.event.ts with
  | some (some d) =>
    if gateObserved M (fun _ => verifyObservedDelegation M i.now i.event.payload
        (issuerManifests M i.getAgent d)) && delegationStorable d then
      .link (uuid d.jti) (uuid d.parentJti)
    else .other
  | _ => .other

def namedRevocation (revoke : Text → Event Text) (event : AuditEventRecord) : Event Text :=
  match revokedJti event with
  | none => .other
  | some jti => if instantStorable event.ts then revoke jti else .other

/-- What an event reports or revokes, whatever the tables hold. -/
def reported (M : Monitor) (i : Ingest) : Event Text :=
  if i.event.type = tctIssued || i.event.type = handshakeComplete then
    .roots (storedJtis M i.now i.event (reportedTcts i.event.payload))
  else if i.event.type = tctRevoked then namedRevocation .revokeRoot i.event
  else if i.event.type = delegationIssued then reportedLink M i
  else if i.event.type = delegationRevoked then namedRevocation .revokeLink i.event
  else .other

def projectAll (M : Monitor) : List Ingest → Tables → Tables
  | [], t => t
  | i::is, t => projectAll M is (onEvent M i.now i.getAgent i.event t)

section Simulation
variable (t : Tables)

@[simp] theorem mem_root (j : Text) : j ∈ (view t).root ↔ ∃ r ∈ t.issuedTcts, r.jti = j := Iff.rfl

@[simp] theorem mem_rootRevoked (j : Text) :
    j ∈ (view t).rootRevoked ↔ ∃ r ∈ t.issuedTcts, r.jti = j ∧ r.revoked = true := Iff.rfl

@[simp] theorem mem_edge (e : Text × Text) : e ∈ (view t).edge ↔ e ∈ edges t := Iff.rfl

@[simp] theorem mem_revoked (j : Text) :
    j ∈ (view t).revoked ↔ ∃ d ∈ t.delegations, d.jti = j ∧ d.revoked = true := Iff.rfl

theorem row_view (x : Text) : (view t).Row x ↔ ∃ d ∈ t.delegations, d.jti = x := by
  simp [View.Row, view, edges]

theorem below_view (x y : Text) :
    (view t).Below x y ↔ y ∈ RecursiveQuery.descendants (edges t) x :=
  (RecursiveQuery.mem_descendants (edges t) x y).symm

theorem recorded_view (p : Text) : (view t).Recorded p ↔ Revoked t p := Iff.rfl

theorem wellFormed_view : WellFormed (view t) := by
  constructor
  · rintro j ⟨r, hr, hj, -⟩
    exact ⟨r, hr, hj⟩
  · rintro x ⟨d, hd, hx, -⟩
    exact (row_view t x).mpr ⟨d, hd, hx⟩

theorem view_insertTct (tct : ParsedTct) (sessionId : Option Text) (u : Tables)
    (h : insertTct tct sessionId t = some u) :
    view u = apply (.roots [uuid tct.jti]) (view t) := by
  simp only [insertTct] at h
  split_ifs at h with hs hany
  · obtain rfl := Option.some.inj h
    obtain ⟨r, hr, hj⟩ := List.any_eq_true.mp hany
    have hroot : uuid tct.jti ∈ (view t).root := ⟨r, hr, by simpa using hj⟩
    ext x
    · rfl
    · simp only [apply, List.mem_singleton, Set.mem_union, Set.mem_ofPred_eq]
      exact ⟨Or.inl, fun h => h.elim id (fun h => h ▸ hroot)⟩
    · simp only [apply, List.mem_singleton, Set.mem_union, Set.mem_ofPred_eq]
      exact ⟨Or.inl, fun h => h.elim id (fun h => (h.2.1 (h.1 ▸ hroot)).elim)⟩
    · rfl
    · rfl
  · obtain rfl := Option.some.inj h
    have hnone : ∀ r ∈ t.issuedTcts, r.jti ≠ uuid tct.jti := by simpa using hany
    ext x
    · rfl
    · simp [apply, newTct, storedTct, or_and_right, exists_or, eq_comm, or_comm]
    · have hborn := tctRevokedAt_isSome t (uuid tct.jti)
      simp only [mem_rootRevoked, apply, newTct, storedTct, List.mem_append, List.mem_singleton,
        Set.mem_union, Set.mem_ofPred_eq, or_and_right, exists_or, exists_eq_left, hborn]
      apply or_congr_right
      constructor
      · rintro ⟨rfl, h⟩
        exact ⟨rfl, fun hroot => hroot.elim (fun r hr => hnone r hr.1 hr.2), h⟩
      · rintro ⟨rfl, -, h⟩
        exact ⟨rfl, h⟩
    · rfl
    · rfl

theorem view_insertDelegation (ht : Dated t) (d : ParsedDelegation) (u : Tables)
    (h : insertDelegation d t = some u) :
    view u = apply (.link (uuid d.jti) (uuid d.parentJti)) (view t) := by
  simp only [insertDelegation] at h
  split_ifs at h with hs hany
  · obtain rfl := Option.some.inj h
    obtain ⟨c, hc, hj⟩ := List.any_eq_true.mp hany
    have hrow : (view t).Row (uuid d.jti) := (row_view t _).mpr ⟨c, hc, by simpa using hj⟩
    ext x <;> simp [apply, hrow]
  · obtain rfl := Option.some.inj h
    have hrow : ¬ (view t).Row (uuid d.jti) := by
      rw [row_view]
      simpa using hany
    have hborn := parentRevokedAt_isSome t (uuid d.parentJti) ht
    ext x
    · rfl
    · rfl
    · rfl
    · simp [apply, hrow, edges, newDelegation, storedDelegation, eq_comm, or_comm]
    · simp only [apply, Set.mem_union, Set.mem_ofPred_eq, hrow, not_false_eq_true, true_and,
        recorded_view, mem_revoked, newDelegation, storedDelegation, List.mem_append,
        List.mem_singleton, or_and_right, exists_or, exists_eq_left, hborn]
      apply or_congr_right
      constructor
      · exact fun h => ⟨h.2, h.1.symm⟩
      · exact fun h => ⟨h.2.symm, h.1⟩

theorem view_revokeTcts (jti : Text) (ts : Instant) (x : Text) :
    x ∈ (view (revokeTcts jti ts t)).rootRevoked ↔
      x ∈ (view t).rootRevoked ∨ x = jti ∧ x ∈ (view t).root := by
  simp only [mem_rootRevoked, mem_root, revokeTcts, List.mem_map]
  constructor
  · rintro ⟨_, ⟨r, hr, rfl⟩, hx, hrev⟩
    split_ifs at hx hrev with h
    · simp only [Bool.and_eq_true, decide_eq_true_eq] at h
      exact Or.inr ⟨hx ▸ h.1, r, hr, hx⟩
    · exact Or.inl ⟨r, hr, hx, hrev⟩
  · rintro (⟨r, hr, hx, hrev⟩ | ⟨rfl, r, hr, hx⟩)
    · exact ⟨r, ⟨r, hr, by simp [hrev]⟩, hx, hrev⟩
    · by_cases hrev : r.revoked = true
      · exact ⟨r, ⟨r, hr, by simp [hrev]⟩, hx, hrev⟩
      · exact ⟨_, ⟨r, hr, rfl⟩, by simp [hx, hrev], by simp [hx, hrev]⟩

theorem roots_revokeTcts (jti : Text) (ts : Instant) :
    (view (revokeTcts jti ts t)).root = (view t).root := by
  ext x
  simp only [mem_root, revokeTcts, List.mem_map]
  constructor
  · rintro ⟨_, ⟨r, hr, rfl⟩, hx⟩
    split_ifs at hx
    · exact ⟨r, hr, hx⟩
    · exact ⟨r, hr, hx⟩
  · rintro ⟨r, hr, hx⟩
    refine ⟨_, ⟨r, hr, rfl⟩, ?_⟩
    split_ifs
    · exact hx
    · exact hx

theorem view_revokeDelegations (jtis : List Text) (reason : Text) (ts : Instant) (x : Text) :
    x ∈ (view (revokeDelegations jtis reason ts t)).revoked ↔
      x ∈ (view t).revoked ∨ x ∈ jtis ∧ (view t).Row x := by
  rw [row_view]
  constructor
  · rintro ⟨d, hd, hx, hrev⟩
    obtain ⟨c, hc, hj, -, hrevc⟩ := revokeDelegations_from t jtis reason ts d hd
    rcases hrevc.mp hrev with h | h
    · exact Or.inl ⟨c, hc, hj ▸ hx, h⟩
    · exact Or.inr ⟨(hj ▸ hx : c.jti = x) ▸ h, c, hc, hj ▸ hx⟩
  · rintro (⟨c, hc, hx, hrev⟩ | ⟨hx, c, hc, hj⟩)
    · exact ⟨c, (mem_revokeDelegations t jtis reason ts c).mpr ⟨c, hc, by simp [hrev]⟩, hx, hrev⟩
    · by_cases hrev : c.revoked = true
      · exact ⟨c, (mem_revokeDelegations t jtis reason ts c).mpr ⟨c, hc, by simp [hrev]⟩, hj,
          hrev⟩
      · exact ⟨_, (mem_revokeDelegations t jtis reason ts _).mpr ⟨c, hc, rfl⟩,
          by simp [hj, hx, hrev], by simp [hj, hx, hrev]⟩

theorem cascade_view (jti : Text) (ts : Instant) (x : Text) :
    x ∈ (view (cascade jti ts t)).revoked ↔ x ∈ (view t).revoked ∨ (view t).Below jti x := by
  rw [cascade, view_revokeDelegations, below_view]
  apply or_congr_right
  constructor
  · exact And.left
  · intro h
    refine ⟨h, ?_⟩
    cases (RecursiveQuery.mem_descendants (edges t) jti x).mp h with
    | single he => exact ⟨_, he⟩
    | tail _ he => exact ⟨_, he⟩

theorem view_recordEntries (M : Monitor) (now : Instant) (event : AuditEventRecord)
    (raws : List Json) :
    view (recordEntries M now event raws t) =
      apply (.roots (storedJtis M now event raws)) (view t) := by
  induction raws generalizing t with
  | nil => exact (apply_roots_nil _).symm
  | cons raw rest ih =>
    rcases hparse : parseTct raw event.ts with _ | _ | tct
    · simp only [recordEntries, storedJtis, hparse, apply_roots_nil]
    · simp only [recordEntries, storedJtis, hparse]
      exact ih t
    · simp only [recordEntries, storedJtis, hparse]
      by_cases hgate : gateObserved M (fun _ => verifyObservedTct M now raw tct) = true
      · by_cases hs : tctStorable tct event.sessionId = true
        · obtain ⟨u, hu⟩ : ∃ u, insertTct tct event.sessionId t = some u := by
            simp only [insertTct, if_pos hs]
            exact ⟨_, rfl⟩
          simp only [hgate, hs, if_true, hu]
          rw [apply_roots_cons, ← view_insertTct t tct event.sessionId u hu]
          exact ih u
        · simp [hgate, hs, insertTct, apply_roots_nil]
      · simp only [hgate]
        exact ih t

theorem view_recordRevocation (event : AuditEventRecord) :
    view (recordRevocation event t) = apply (namedRevocation .revokeRoot event) (view t) := by
  cases hj : revokedJti event with
  | none =>
    simp only [recordRevocation, namedRevocation, hj]
    rfl
  | some jti =>
    simp only [recordRevocation, namedRevocation, hj]
    split_ifs
    · ext x
      · rfl
      · exact Set.ext_iff.mp (roots_revokeTcts t jti event.ts) x
      · exact view_revokeTcts t jti event.ts x
      · simp only [mem_edge, cascade, edges_revokeDelegations]
        rfl
      · exact cascade_view (revokeTcts jti event.ts t) jti event.ts x
    · rfl

theorem view_recordDelegationRevocation (event : AuditEventRecord) :
    view (recordDelegationRevocation event t) =
      apply (namedRevocation .revokeLink event) (view t) := by
  cases hj : revokedJti event with
  | none =>
    simp only [recordDelegationRevocation, namedRevocation, hj]
    rfl
  | some jti =>
    have hedge : (view (revokeDelegations [jti] (js "explicit") event.ts t)).edge =
        (view t).edge := by
      ext e
      simp only [mem_edge, edges_revokeDelegations]
    simp only [recordDelegationRevocation, namedRevocation, hj]
    split_ifs
    · ext x
      · rfl
      · rfl
      · rfl
      · simp only [mem_edge, cascade, edges_revokeDelegations]
        rfl
      · rw [cascade_view, view_revokeDelegations]
        simp only [apply, Set.mem_union, Set.mem_ofPred_eq, List.mem_singleton, View.Below,
          hedge, or_assoc]
    · rfl

theorem view_recordDelegation (ht : Dated t) (M : Monitor) (i : Ingest) :
    view (recordDelegation M i.now i.getAgent i.event t) = apply (reportedLink M i) (view t) := by
  rcases hparse : parseDelegation M.runtime i.event.payload i.event.ts with _ | _ | d
  · simp only [recordDelegation, reportedLink, hparse]
    rfl
  · simp only [recordDelegation, reportedLink, hparse]
    rfl
  · simp only [recordDelegation, reportedLink, hparse]
    by_cases hgate : gateObserved M (fun _ => verifyObservedDelegation M i.now i.event.payload
        (issuerManifests M i.getAgent d)) = true
    · by_cases hs : delegationStorable d = true
      · obtain ⟨u, hu⟩ : ∃ u, insertDelegation d t = some u := by
          simp only [insertDelegation, if_pos hs]
          exact ⟨_, rfl⟩
        simp only [hgate, hs, Bool.and_self, if_true, hu, Option.getD_some]
        exact view_insertDelegation t ht d u hu
      · simp [hgate, hs, insertDelegation, apply]
    · simp [hgate, apply]

theorem view_onEvent (ht : Dated t) (M : Monitor) (i : Ingest) :
    view (onEvent M i.now i.getAgent i.event t) = apply (reported M i) (view t) := by
  unfold onEvent reported
  split_ifs
  · exact view_recordEntries t M i.now i.event _
  · exact view_recordRevocation t i.event
  · exact view_recordDelegation t ht M i
  · exact view_recordDelegationRevocation t i.event
  · rfl

end Simulation

theorem dated_onEvent (t : Tables) (ht : Dated t) (M : Monitor) (i : Ingest) :
    Dated (onEvent M i.now i.getAgent i.event t) := by
  have hkeeps : EventKeeps M i.now i.getAgent i.event t Dated := by
    constructor
    · intro _ _ tct _ _ _ u hu _
      exact dated_newTct tct i.event.sessionId u hu
    · intro _ d _ _ _ _
      exact dated_newDelegation d t ht
    · intro jti
      exact dated_cascade _ _ _ (dated_revokeTcts t _ _ ht)
    · intro jti
      exact dated_cascade _ _ _ (dated_revokeDelegations t _ _ _ ht)
  exact onEvent_keeps hkeeps ht

theorem view_projectAll (M : Monitor) (is : List Ingest) (t : Tables) (ht : Dated t) :
    view (projectAll M is t) = process (is.map (reported M)) (view t) := by
  induction is generalizing t with
  | nil => rfl
  | cons i is ih =>
    simp only [projectAll, List.map_cons, process, ← view_onEvent t ht M i]
    exact ih _ (dated_onEvent t ht M i)

theorem order_of_reports (M : Monitor) (is : List Ingest) (σ : List (Event Text))
    (h : σ.Perm (is.map (reported M))) :
    ∃ js : List Ingest, js.Perm is ∧ js.map (reported M) = σ := by
  have hc := congrFun (congrFun (List.eq_map_comp_perm (reported M)) σ) is
  obtain ⟨js, hjs, hp⟩ := hc.mpr h
  exact ⟨js, hp, hjs.symm⟩

/-- Every order leaves the same revoked rows exactly if what some order would
revoke is struck or marked by the revocations over the starting tables. -/
theorem projection_order_iff (M : Monitor) (is : List Ingest) (t : Tables) (ht : Dated t)
    (hd : (is.flatMap (fun i => issued (reported M i))).Nodup) :
    (∀ σ τ : List Ingest, σ.Perm is → τ.Perm is → ∀ jti : Text,
      ((∃ r ∈ (projectAll M σ t).issuedTcts, r.jti = jti ∧ r.revoked = true) ↔
        ∃ r ∈ (projectAll M τ t).issuedTcts, r.jti = jti ∧ r.revoked = true) ∧
      ((∃ d ∈ (projectAll M σ t).delegations, d.jti = jti ∧ d.revoked = true) ↔
        ∃ d ∈ (projectAll M τ t).delegations, d.jti = jti ∧ d.revoked = true)) ↔
      Settled (view t) (is.map (reported M)) := by
  rw [← confluent_iff (view t) _ (wellFormed_view t) (by rw [List.flatMap_map]; exact hd)]
  constructor
  · intro h σ τ hσ hτ
    obtain ⟨σ', hσ', rfl⟩ := order_of_reports M is σ hσ
    obtain ⟨τ', hτ', rfl⟩ := order_of_reports M is τ hτ
    rw [← view_projectAll M σ' t ht, ← view_projectAll M τ' t ht]
    constructor
    · ext jti
      exact (h σ' τ' hσ' hτ' jti).1
    · ext jti
      exact (h σ' τ' hσ' hτ' jti).2
  · intro h σ τ hσ hτ jti
    obtain ⟨hr, hd⟩ := h _ _ (hσ.map (reported M)) (hτ.map (reported M))
    rw [← view_projectAll M σ t ht, ← view_projectAll M τ t ht] at hr hd
    exact ⟨Set.ext_iff.mp hr jti, Set.ext_iff.mp hd jti⟩

section Scenario

def hopReport : Ingest :=
  ⟨1000, fun _ => none,
    { type := delegationIssued, ts := 1000, sessionId := none,
      payload := .obj [(js "jti", .str hopJti), (js "parent_jti", .str tctJti),
        (js "delegator", .str (js "aid:a")), (js "delegatee", .str (js "aid:b"))] }⟩

def parentRevocation : Ingest :=
  ⟨2000, fun _ => none,
    { type := tctRevoked, ts := 2000, sessionId := none,
      payload := .obj [(js "jti", .str tctJti)] }⟩

theorem reported_scenario :
    [hopReport, parentRevocation].map (reported observer) =
      [.link hopJti tctJti, .revokeRoot tctJti] := by decide +kernel

def parentStored : Tables :=
  ⟨[], [{ jti := tctJti, issuerAid := js "aid:a", subjectAid := js "aid:b",
          audienceAid := js "aid:b", grants := [], bindingCnf := none, issuedAt := 0,
          expiresAt := none, sessionId := none, revoked := false, revokedAt := none }], []⟩

theorem settled_scenario :
    Settled (view parentStored) [.link hopJti tctJti, .revokeRoot tctJti] := by
  constructor
  · intro ids h
    simp at h
  · rintro x ⟨p, hp⟩
    cases hp
  · intro x p h _ _
    obtain ⟨rfl, rfl⟩ : x = hopJti ∧ p = tctJti := by simpa using h
    exact Or.inr ⟨.revokeRoot tctJti, by simp, Or.inl ⟨⟨_, List.mem_singleton_self _, rfl⟩, rfl⟩⟩

theorem projection_order_stored_parent :
    (∃ d ∈ (projectAll observer [parentRevocation, hopReport] parentStored).delegations,
      d.jti = hopJti ∧ d.revoked = true) ↔
      ∃ d ∈ (projectAll observer [hopReport, parentRevocation] parentStored).delegations,
        d.jti = hopJti ∧ d.revoked = true :=
  ((projection_order_iff observer [hopReport, parentRevocation] parentStored
    ⟨by decide, by decide⟩ (by decide +kernel)).mpr (reported_scenario ▸ settled_scenario)
      [parentRevocation, hopReport] [hopReport, parentRevocation] (List.Perm.swap _ _ _)
      (List.Perm.refl _) hopJti).2

/-- Over empty tables the revocation that comes first leaves the hop active. -/
theorem late_report_stays_active :
    ¬ ∀ (M : Monitor) (is : List Ingest) (t : Tables), Dated t →
      (is.flatMap (fun i => issued (reported M i))).Nodup →
        ∀ σ τ : List Ingest, σ.Perm is → τ.Perm is → ∀ jti : Text,
          ((∃ r ∈ (projectAll M σ t).issuedTcts, r.jti = jti ∧ r.revoked = true) ↔
            ∃ r ∈ (projectAll M τ t).issuedTcts, r.jti = jti ∧ r.revoked = true) ∧
          ((∃ d ∈ (projectAll M σ t).delegations, d.jti = jti ∧ d.revoked = true) ↔
            ∃ d ∈ (projectAll M τ t).delegations, d.jti = jti ∧ d.revoked = true) := by
  intro h
  have hsame := (h observer [hopReport, parentRevocation] Tables.empty
    ⟨by decide, by decide⟩ (by decide +kernel) _ _ (List.Perm.refl _) (List.Perm.swap _ _ _)
    hopJti).2
  have hstruck : ∃ d ∈ (projectAll observer [hopReport, parentRevocation]
      Tables.empty).delegations, d.jti = hopJti ∧ d.revoked = true := by decide +kernel
  have hactive : ¬ ∃ d ∈ (projectAll observer [parentRevocation, hopReport]
      Tables.empty).delegations, d.jti = hopJti ∧ d.revoked = true := by decide +kernel
  exact hactive (hsame.mp hstruck)

end Scenario

end ControlPlane.ProjectionOrder
