import ControlPlane.TctMonitor

/-!
# What an event does to the projected columns

Rows are inserted by reports and never deleted, and a revocation touches only
the revocation columns. So a property of the projected columns holds of every
row if it holds of what the reports store. An event runs an insert for each
report or one transaction of updates: what these keep, the event keeps.
-/

set_option autoImplicit false

namespace ControlPlane.TctRows
open ControlPlane.JsText ControlPlane.JsValue ControlPlane.HttpValidate ControlPlane.TctParse
open ControlPlane.TctMonitor

theorem insertTct_cases (tct : ParsedTct) (sessionId : Option Text) (t u : Tables)
    (h : insertTct tct sessionId t = some u) :
    u = t ∨ tctStorable tct sessionId = true ∧ (∀ r ∈ t.issuedTcts, r.jti ≠ uuid tct.jti) ∧
      u = { t with issuedTcts := t.issuedTcts++[newTct tct sessionId t] } := by
  simp only [insertTct] at h
  split_ifs at h with hs hany
  · exact Or.inl (Option.some.inj h).symm
  · exact Or.inr ⟨hs, by simpa using hany, (Option.some.inj h).symm⟩

theorem insertDelegation_cases (d : ParsedDelegation) (t u : Tables)
    (h : insertDelegation d t = some u) :
    u = t ∨ delegationStorable d = true ∧ (∀ c ∈ t.delegations, c.jti ≠ uuid d.jti) ∧
      u = { t with delegations := t.delegations++[newDelegation d t] } := by
  simp only [insertDelegation] at h
  split_ifs at h with hs hany
  · exact Or.inl (Option.some.inj h).symm
  · exact Or.inr ⟨hs, by simpa using hany, (Option.some.inj h).symm⟩

/-- The statements of an event keep a property: the insert of a report whose
`jti` is new, and the updates of a revocation. -/
structure EventKeeps (M : Monitor) (now : Instant) (getAgent : Text → Option Text)
    (event : AuditEventRecord) (t : Tables) (I : Tables → Prop) : Prop where
  tct : ∀ raw ∈ reportedTcts event.payload, ∀ tct, parseTct raw event.ts = some (some tct) →
    gateObserved M (fun _ => verifyObservedTct M now raw tct) = true →
      tctStorable tct event.sessionId = true → ∀ u, I u →
      (∀ r ∈ u.issuedTcts, r.jti ≠ uuid tct.jti) →
        I { u with issuedTcts := u.issuedTcts++[newTct tct event.sessionId u] }
  delegation : event.type = delegationIssued → ∀ d,
    parseDelegation M.runtime event.payload event.ts = some (some d) →
      gateObserved M (fun _ =>
        verifyObservedDelegation M now event.payload (issuerManifests M getAgent d)) = true →
      delegationStorable d = true → (∀ c ∈ t.delegations, c.jti ≠ uuid d.jti) →
        I { t with delegations := t.delegations++[newDelegation d t] }
  revocation : ∀ jti, I (cascade jti event.ts (revokeTcts jti event.ts t))
  delegationRevocation : ∀ jti,
    I (cascade jti event.ts (revokeDelegations [jti] (js "explicit") event.ts t))

section EventKeeps
variable {M : Monitor} {now : Instant} {getAgent : Text → Option Text} {event : AuditEventRecord}
  {t : Tables} {I : Tables → Prop} (hk : EventKeeps M now getAgent event t I)
include hk

theorem recordEntries_keeps (raws : List Json)
    (hraws : ∀ raw ∈ raws, raw ∈ reportedTcts event.payload) (u : Tables) (hu : I u) :
    I (recordEntries M now event raws u) := by
  induction raws generalizing u with
  | nil => exact hu
  | cons raw rest ih =>
    have hrest := ih (fun r hr => hraws r (List.mem_cons_of_mem raw hr))
    simp only [recordEntries]
    split
    · exact hu
    · exact hrest u hu
    · next tct hparse =>
      split_ifs with hgate
      · cases hins : insertTct tct event.sessionId u with
        | none => exact hu
        | some v =>
          apply hrest v
          rcases insertTct_cases tct event.sessionId u v hins with rfl | ⟨hs, hfresh, rfl⟩
          · exact hu
          · exact hk.tct raw (hraws raw List.mem_cons_self) tct hparse hgate hs u hu hfresh
      · exact hrest u hu

theorem recordRevocation_keeps (hi : I t) : I (recordRevocation event t) := by
  unfold recordRevocation
  split
  · exact hi
  · split_ifs
    · exact hk.revocation _
    · exact hi

theorem recordDelegation_keeps (htype : event.type = delegationIssued) (hi : I t) :
    I (recordDelegation M now getAgent event t) := by
  unfold recordDelegation
  split
  · next d hparse =>
    split_ifs with hgate
    · cases hins : insertDelegation d t with
      | none => exact hi
      | some u =>
        rcases insertDelegation_cases d t u hins with rfl | ⟨hs, hfresh, rfl⟩
        · exact hi
        · exact hk.delegation htype d hparse hgate hs hfresh
    · exact hi
  · exact hi

theorem recordDelegationRevocation_keeps (hi : I t) : I (recordDelegationRevocation event t) := by
  unfold recordDelegationRevocation
  split
  · exact hi
  · split_ifs
    · exact hk.delegationRevocation _
    · exact hi

theorem onEvent_keeps (hi : I t) : I (onEvent M now getAgent event t) := by
  unfold onEvent
  split_ifs with htct hrevoked hissued
  · exact recordEntries_keeps hk _ (fun _ h => h) t hi
  · exact recordRevocation_keeps hk hi
  · exact recordDelegation_keeps hk hissued hi
  · exact recordDelegationRevocation_keeps hk hi
  · exact hi

end EventKeeps

def Rows (P : ParsedTct → Prop) (Q : ParsedDelegation → Prop) (t : Tables) : Prop :=
  (∀ r ∈ t.issuedTcts, P r.toParsedTct) ∧ ∀ d ∈ t.delegations, Q d.toParsedDelegation

section Rows
variable (P : ParsedTct → Prop) (Q : ParsedDelegation → Prop) (t : Tables)

theorem rows_revokeTcts (jti : Text) (ts : Instant) (h : Rows P Q t) :
    Rows P Q (revokeTcts jti ts t) := by
  refine ⟨?_, h.2⟩
  intro r hr
  obtain ⟨q, hq, rfl⟩ := List.mem_map.mp hr
  split
  · exact h.1 q hq
  · exact h.1 q hq

theorem rows_revokeDelegations (jtis : List Text) (reason : Text) (ts : Instant)
    (h : Rows P Q t) : Rows P Q (revokeDelegations jtis reason ts t) := by
  refine ⟨h.1, ?_⟩
  intro d hd
  obtain ⟨c, hc, rfl⟩ := List.mem_map.mp hd
  split
  · exact h.2 c hc
  · exact h.2 c hc

theorem rows_onEvent (M : Monitor) (now : Instant) (getAgent : Text → Option Text)
    (event : AuditEventRecord)
    (hp : ∀ raw ∈ reportedTcts event.payload, ∀ tct, parseTct raw event.ts = some (some tct) →
      gateObserved M (fun _ => verifyObservedTct M now raw tct) = true →
        tctStorable tct event.sessionId = true → P (storedTct tct))
    (hq : ∀ d, parseDelegation M.runtime event.payload event.ts = some (some d) →
      gateObserved M (fun _ =>
        verifyObservedDelegation M now event.payload (issuerManifests M getAgent d)) = true →
      delegationStorable d = true → Q (storedDelegation d))
    (h : Rows P Q t) : Rows P Q (onEvent M now getAgent event t) := by
  have hnew : EventKeeps M now getAgent event t (Rows P Q) := by
    constructor
    · intro raw hraw tct hparse hgate hs u hu _
      constructor
      · rintro r hr
        rcases List.mem_append.mp hr with hold | hnew
        · exact hu.1 r hold
        · obtain rfl := List.mem_singleton.mp hnew
          exact hp raw hraw tct hparse hgate hs
      · exact hu.2
    · intro _ d hparse hgate hs _
      constructor
      · exact h.1
      · intro c hc
        rcases List.mem_append.mp hc with hold | hnew
        · exact h.2 c hold
        · obtain rfl := List.mem_singleton.mp hnew
          exact hq d hparse hgate hs
    · intro jti
      exact rows_revokeDelegations P Q _ _ _ _ (rows_revokeTcts P Q t _ _ h)
    · intro jti
      exact rows_revokeDelegations P Q _ _ _ _ (rows_revokeDelegations P Q t _ _ _ h)
  exact onEvent_keeps hnew h

end Rows

theorem entries_onEvent (t : Tables) (M : Monitor) (now : Instant)
    (getAgent : Text → Option Text) (event : AuditEventRecord) :
    (onEvent M now getAgent event t).revocationEntries = t.revocationEntries := by
  have hkept : EventKeeps M now getAgent event t
      (fun u => u.revocationEntries = t.revocationEntries) :=
    ⟨fun _ _ _ _ _ _ _ hu _ => hu, fun _ _ _ _ _ _ => rfl, fun _ => rfl, fun _ => rfl⟩
  exact onEvent_keeps hkept rfl

end ControlPlane.TctRows
