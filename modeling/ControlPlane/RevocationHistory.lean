import ControlPlane.KeyedRows
import ControlPlane.RevocationAttribution

/-!
# Revocations are written once

Two inserts, two guarded updates, a cascade and an upsert write the revocation
columns. What each of these statements preserves, every event and every run of
the route preserves: the columns of a row agree, and a revoked row is kept as
it is.
-/

set_option autoImplicit false

namespace ControlPlane.RevocationHistory
open ControlPlane.JsText ControlPlane.JsValue ControlPlane.HttpValidate ControlPlane.TctParse
open ControlPlane.TctMonitor ControlPlane.RevocationRoute ControlPlane.RevocationMachine
open ControlPlane.RevocationAttribution (fill fill_jti upsertEntry_entries keyed_upsert)
open ControlPlane.RunMachine ControlPlane.ThreadPool ControlPlane.KeyedRows
open ControlPlane.TctRows (EventKeeps onEvent_keeps)

structure Preserved (I : Tables → Prop) : Prop where
  insertTct : ∀ tct sessionId t, I t →
    (∀ r ∈ t.issuedTcts, r.jti ≠ uuid tct.jti) →
      I { t with issuedTcts := t.issuedTcts++[newTct tct sessionId t] }
  insertDelegation : ∀ d t, I t → (∀ c ∈ t.delegations, c.jti ≠ uuid d.jti) →
    I { t with delegations := t.delegations++[newDelegation d t] }
  revokeTcts : ∀ jti ts t, I t → I (revokeTcts jti ts t)
  revokeDelegations : ∀ jtis reason ts t, I t → I (revokeDelegations jtis reason ts t)
  upsertEntry : ∀ r iss t, I t → I (upsertEntry r iss t)

section Preserved
variable {I : Tables → Prop} (hI : Preserved I)
include hI

theorem preserved_onEvent (M : Monitor) (now : Instant) (getAgent : Text → Option Text)
    (event : AuditEventRecord) (t : Tables) (h : I t) : I (onEvent M now getAgent event t) := by
  have hkeeps : EventKeeps M now getAgent event t I := by
    constructor
    · intro _ _ tct _ _ _ u hu hfresh
      exact hI.insertTct tct event.sessionId u hu hfresh
    · intro _ d _ _ _ hfresh
      exact hI.insertDelegation d t h hfresh
    · intro jti
      exact hI.revokeDelegations _ _ _ _ (hI.revokeTcts _ _ t h)
    · intro jti
      exact hI.revokeDelegations _ _ _ _ (hI.revokeDelegations _ _ _ t h)
  exact onEvent_keeps hkeeps h

theorem preserved_next (S : Service) (l : Event) (s t : State) (hs : next S l s = some t)
    (h : I s.world.tables) : I t.world.tables := by
  rcases next_tables S l s t hs with ht | ⟨r, iss, ht⟩ | ⟨getAgent, event, ht⟩
  · rwa [ht]
  · rw [ht]
    exact hI.upsertEntry r iss _ h
  · rw [ht]
    exact preserved_onEvent hI S.monitor _ getAgent event _ h

theorem preserved_run (S : Service) (ls : List Event) (s t : State)
    (hr : run (next S) ls s = some t) (h : I s.world.tables) : I t.world.tables :=
  run_invariant (next S) (fun _ _ => True) (fun u => I u.world.tables)
    (fun l u v _ hu hs => preserved_next hI S l u v hs hu) ls s t (guarded_true _ _ _) h hr

end Preserved

section Coherence

/-- The columns of a row say the same about its revocation. -/
structure Coherent (t : Tables) : Prop where
  tcts : ∀ r ∈ t.issuedTcts, (r.revoked = true ↔ r.revokedAt.isSome = true)
  delegations : ∀ d ∈ t.delegations, (d.revoked = true ↔ d.revokedAt.isSome = true) ∧
    (d.revoked = true ↔ d.revokedReason.isSome = true)

structure Unique (t : Tables) : Prop where
  entries : (t.revocationEntries.map (·.jti)).Nodup
  tcts : (t.issuedTcts.map (·.jti)).Nodup
  delegations : (t.delegations.map (·.jti)).Nodup

/-- What is still there: every revoked row as it was, and every entry with its
instant and reason. -/
structure Lasting (t u : Tables) : Prop where
  tcts : ∀ r ∈ t.issuedTcts, r.revoked = true → r ∈ u.issuedTcts
  delegations : ∀ d ∈ t.delegations, d.revoked = true → d ∈ u.delegations
  entries : ∀ e ∈ t.revocationEntries, ∃ e' ∈ u.revocationEntries, e'.jti = e.jti ∧
    e'.revokedAt = e.revokedAt ∧ e'.reason = e.reason

theorem coherent_preserved : Preserved Coherent := by
  constructor
  · intro tct sessionId t h _
    constructor
    · intro r hr
      rcases List.mem_append.mp hr with hr | hr
      · exact h.tcts r hr
      · rw [List.mem_singleton.mp hr]
        rfl
    · exact h.delegations
  · intro d t h _
    constructor
    · exact h.tcts
    · intro c hc
      rcases List.mem_append.mp hc with hc | hc
      · exact h.delegations c hc
      · rw [List.mem_singleton.mp hc]
        simp [newDelegation]
  · intro jti ts t h
    constructor
    · intro r hr
      obtain ⟨q, hq, rfl⟩ := List.mem_map.mp hr
      split_ifs
      · simp
      · exact h.tcts q hq
    · exact h.delegations
  · intro jtis reason ts t h
    constructor
    · exact h.tcts
    · intro d hd
      obtain ⟨c, hc, rfl⟩ := List.mem_map.mp hd
      split_ifs
      · simp
      · exact h.delegations c hc
  · exact fun r iss t h => ⟨h.tcts, h.delegations⟩

theorem unique_preserved : Preserved Unique := by
  constructor
  · exact fun tct sessionId t h hnew => ⟨h.entries, nodup_snoc _ _ _ h.tcts hnew, h.delegations⟩
  · exact fun d t h hnew => ⟨h.entries, h.tcts, nodup_snoc _ _ _ h.delegations hnew⟩
  · intro jti ts t h
    have hkeys : (revokeTcts jti ts t).issuedTcts.map (·.jti) = t.issuedTcts.map (·.jti) := by
      simp only [revokeTcts, List.map_map]
      apply List.map_congr_left
      intro r _
      simp only [Function.comp_apply]
      split_ifs <;> rfl
    exact ⟨h.entries, hkeys ▸ h.tcts, h.delegations⟩
  · intro jtis reason ts t h
    have hkeys : (revokeDelegations jtis reason ts t).delegations.map (·.jti) =
        t.delegations.map (·.jti) := by
      simp only [revokeDelegations, List.map_map]
      apply List.map_congr_left
      intro d _
      simp only [Function.comp_apply]
      split_ifs <;> rfl
    exact ⟨h.entries, h.tcts, hkeys ▸ h.delegations⟩
  · exact fun r iss t h => ⟨keyed_upsert r iss t h.entries, h.tcts, h.delegations⟩

theorem lasting_refl (t : Tables) : Lasting t t :=
  ⟨fun _ hr _ => hr, fun _ hd _ => hd, fun e he => ⟨e, he, rfl, rfl, rfl⟩⟩

theorem lasting_preserved (t : Tables) : Preserved (Lasting t) := by
  constructor
  · intro tct sessionId u h _
    exact ⟨fun r hr hrev => List.mem_append_left _ (h.tcts r hr hrev), h.delegations, h.entries⟩
  · intro d u h _
    exact ⟨h.tcts, fun c hc hrev => List.mem_append_left _ (h.delegations c hc hrev), h.entries⟩
  · intro jti ts u h
    constructor
    · intro r hr hrev
      exact List.mem_map.mpr ⟨r, h.tcts r hr hrev, by simp [hrev]⟩
    · exact h.delegations
    · exact h.entries
  · intro jtis reason ts u h
    constructor
    · exact h.tcts
    · intro d hd hrev
      exact List.mem_map.mpr ⟨d, h.delegations d hd hrev, by simp [hrev]⟩
    · exact h.entries
  · intro r iss u h
    constructor
    · exact h.tcts
    · exact h.delegations
    · intro e he
      obtain ⟨e', he', hj, hat, hreason⟩ := h.entries e he
      rw [upsertEntry_entries]
      split_ifs
      · apply Exists.intro (fill r iss e')
        apply And.intro (List.mem_map_of_mem he')
        unfold fill
        split_ifs <;> exact ⟨hj, hat, hreason⟩
      · exact ⟨e', List.mem_append_left _ he', hj, hat, hreason⟩

/-- In every reachable state the columns agree, and whatever runs next keeps
the rows that are revoked and what the entries say. -/
theorem revocation_monotone (S : Service) (now : Instant) (before after : List Event)
    (s t : State) (hs : run (next S) before (start now Tables.empty) = some s)
    (ht : run (next S) after s = some t) :
    Coherent s.world.tables ∧ Unique s.world.tables ∧ Coherent t.world.tables ∧
      Unique t.world.tables ∧ Lasting s.world.tables t.world.tables := by
  have hempty : Coherent Tables.empty ∧ Unique Tables.empty :=
    ⟨⟨by simp [Tables.empty], by simp [Tables.empty]⟩,
      ⟨List.nodup_nil, List.nodup_nil, List.nodup_nil⟩⟩
  have hcoherent := preserved_run coherent_preserved S before _ s hs hempty.1
  have hunique := preserved_run unique_preserved S before _ s hs hempty.2
  exact ⟨hcoherent, hunique, preserved_run coherent_preserved S after s t ht hcoherent,
    preserved_run unique_preserved S after s t ht hunique,
    preserved_run (lasting_preserved _) S after s t ht (lasting_refl _)⟩

end Coherence

section Scenario
open ControlPlane.RevocationClosure (tctJti hopJti)
open ControlPlane.RevocationAttribution (service namedRequest aidA aidB)

def hopIssued : AuditEventRecord where
  type := delegationIssued
  ts := 1000
  sessionId := none
  payload := .obj [(js "jti", .str hopJti), (js "parent_jti", .str tctJti),
    (js "delegator", .str aidA), (js "delegatee", .str aidB)]

def revokedOnce : List Event :=
  [.env (.report (fun _ => none) hopIssued), .env (.tick 2000),
    .env (.post (namedRequest aidA))]++List.replicate 9 (.act 0 .ok : Event)

def revokedAgain : List Event :=
  [.env (.report (fun _ => none)
      { type := delegationRevoked, ts := 5000, sessionId := none,
        payload := .obj [(js "jti", .str hopJti)] }),
    .env (.tick 4000), .env (.post (namedRequest aidA))]++List.replicate 9 (.act 1 .ok : Event)

theorem revocation_monotone_again :
    ∃ s t, run (next service) revokedOnce (start 0 Tables.empty) = some s ∧
      run (next service) revokedAgain s = some t ∧
      t.world.tables.delegations.map (fun d => (d.revokedAt, d.revokedReason)) =
        [(some 2000, some parentRevoked)] ∧
      Lasting s.world.tables t.world.tables := by
  have hrun : ((run (next service) revokedOnce (start 0 Tables.empty)).bind
      (run (next service) revokedAgain)).map (fun t => t.world.tables.delegations.map
        (fun d => (d.revokedAt, d.revokedReason))) =
          some [(some 2000, some parentRevoked)] := by decide +kernel
  obtain ⟨t, ht, hrow⟩ := Option.map_eq_some_iff.mp hrun
  obtain ⟨s, hs, hst⟩ := Option.bind_eq_some_iff.mp ht
  exact ⟨s, t, hs, hst, hrow,
    (revocation_monotone service 0 revokedOnce revokedAgain s t hs hst).2.2.2.2⟩

end Scenario

end ControlPlane.RevocationHistory
