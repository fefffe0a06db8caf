import ControlPlane.RevocationClosure

/-!
# The revocation cascade

A revocation runs two statements in one transaction: the guarded update of the
named row, then the update of every row that the recursive query finds below
it. Each may fail, and a failure rolls back what ran before it. The query ends
on every table, so that without a failure the marked rows are the unrevoked
ones that parent edges lead to.
-/

set_option autoImplicit false

namespace ControlPlane.CascadeReach
open ControlPlane.JsText ControlPlane.JsValue ControlPlane.HttpValidate ControlPlane.TctParse
open ControlPlane.TctMonitor
open ControlPlane.RevocationClosure (edges_revokeDelegations)

/-- Nothing when it throws. -/
abbrev Statement := Tables → Option Tables

/-- The statements in order, counted for the fault oracle. -/
def runStatements (fault : ℕ → Bool) : ℕ → List Statement → Statement
  | _, [], t => some t
  | n, s::rest, t => if fault n then none else (s t).bind (runStatements fault (n+1) rest)

def transaction (fault : ℕ → Bool) (statements : List Statement) (t : Tables) : Option Tables :=
  runStatements fault 0 statements t

/-- An update whose parameter the driver can send. -/
def dated (ts : Instant) (update : Tables → Tables) : Statement :=
  fun t => if instantStorable ts then some (update t) else none

def cascadeStatement (jti : Text) (ts : Instant) : Statement := fun t =>
  if instantStorable ts then
    (RecursiveQuery.descendants? (edges t) jti).map
      (fun jtis => revokeDelegations jtis parentRevoked ts t)
  else none

def begin : Statement := some

def commit : Statement := some

def revocationStatements (jti : Text) (ts : Instant) : List Statement :=
  [begin, dated ts (revokeTcts jti ts), cascadeStatement jti ts, commit]

def delegationStatements (jti : Text) (ts : Instant) : List Statement :=
  [begin, dated ts (revokeDelegations [jti] (js "explicit") ts), cascadeStatement jti ts, commit]

/-- The table after a transaction whose failure the handler swallows. -/
def afterTransaction (fault : ℕ → Bool) (statements : List Statement) (t : Tables) : Tables :=
  (transaction fault statements t).getD t

def runRevocation (fault : ℕ → Bool) (event : AuditEventRecord) (t : Tables) : Tables :=
  match revokedJti event with
  | none => t
  | some jti => afterTransaction fault (revocationStatements jti event.ts) t

def runDelegationRevocation (fault : ℕ → Bool) (event : AuditEventRecord) (t : Tables) : Tables :=
  match revokedJti event with
  | none => t
  | some jti => afterTransaction fault (delegationStatements jti event.ts) t

/-- One or more parent edges lead from the first identifier to the second. -/
def Reaches (t : Tables) : Text → Text → Prop :=
  Relation.TransGen (fun p c => ∃ d ∈ t.delegations, d.parentJti = p ∧ d.jti = c)

theorem edge_iff (t : Tables) (p c : Text) :
    RecursiveQuery.Edge (edges t) p c ↔ ∃ d ∈ t.delegations, d.parentJti = p ∧ d.jti = c := by
  simp [RecursiveQuery.Edge, edges]

theorem mem_descendants_iff (t : Tables) (jti x : Text) :
    x ∈ RecursiveQuery.descendants (edges t) jti ↔ Reaches t jti x := by
  rw [RecursiveQuery.mem_descendants, Reaches]
  have he : RecursiveQuery.Edge (edges t) =
      fun p c => ∃ d ∈ t.delegations, d.parentJti = p ∧ d.jti = c := by
    ext p c
    exact edge_iff t p c
  rw [he]

instance (t : Tables) (jti x : Text) : Decidable (Reaches t jti x) :=
  decidable_of_iff _ (mem_descendants_iff t jti x)

def cascadedRow (t : Tables) (jti : Text) (ts : Instant) (d : Delegation) : Delegation :=
  if d.revoked = false ∧ Reaches t jti d.jti then
    { d with revoked := true, revokedAt := some ts, revokedReason := some parentRevoked }
  else d

def revokedTct (jti : Text) (ts : Instant) (r : IssuedTct) : IssuedTct :=
  if r.revoked = false ∧ r.jti = jti then { r with revoked := true, revokedAt := some ts } else r

def revokedDelegation (t : Tables) (jti : Text) (ts : Instant) (d : Delegation) : Delegation :=
  if d.revoked = false ∧ d.jti = jti then
    { d with revoked := true, revokedAt := some ts, revokedReason := some (js "explicit") }
  else cascadedRow t jti ts d

def cascaded (jti : Text) (ts : Instant) (t : Tables) : Tables :=
  { t with issuedTcts := t.issuedTcts.map (revokedTct jti ts),
           delegations := t.delegations.map (cascadedRow t jti ts) }

def cascadedDelegation (jti : Text) (ts : Instant) (t : Tables) : Tables :=
  { t with delegations := t.delegations.map (revokedDelegation t jti ts) }

theorem reaches_edges (t u : Tables) (h : edges t = edges u) (jti x : Text) :
    Reaches t jti x ↔ Reaches u jti x := by
  rw [← mem_descendants_iff, ← mem_descendants_iff, h]

theorem cascadedRow_eq (t : Tables) (jti : Text) (ts : Instant) (d : Delegation) :
    (if d.jti ∈ RecursiveQuery.descendants (edges t) jti && !d.revoked then
      { d with revoked := true, revokedAt := some ts, revokedReason := some parentRevoked }
      else d) = cascadedRow t jti ts d := by
  have hm := mem_descendants_iff t jti d.jti
  by_cases hr : Reaches t jti d.jti
  · cases hd : d.revoked <;> simp [cascadedRow, hr, hd, hm.mpr hr]
  · have hn : d.jti ∉ RecursiveQuery.descendants (edges t) jti := fun h => hr (hm.mp h)
    simp [cascadedRow, hr, hn]

theorem cascade_eq (jti : Text) (ts : Instant) (t : Tables) :
    cascade jti ts t = { t with delegations := t.delegations.map (cascadedRow t jti ts) } := by
  simp only [cascade, revokeDelegations]
  congr 1
  apply List.map_congr_left
  intro d _
  exact cascadedRow_eq t jti ts d

theorem revokeTcts_eq (jti : Text) (ts : Instant) (t : Tables) :
    revokeTcts jti ts t = { t with issuedTcts := t.issuedTcts.map (revokedTct jti ts) } := by
  simp only [revokeTcts]
  congr 1
  apply List.map_congr_left
  intro r _
  by_cases hj : r.jti = jti <;> cases hr : r.revoked <;> simp [revokedTct, hj, hr]

theorem revocation_cascades (jti : Text) (ts : Instant) (t : Tables) :
    cascade jti ts (revokeTcts jti ts t) = cascaded jti ts t := by
  rw [cascade_eq, cascaded, revokeTcts_eq]
  rfl

theorem cascadedRow_edges (t u : Tables) (h : edges t = edges u) (jti : Text) (ts : Instant) :
    cascadedRow t jti ts = cascadedRow u jti ts := by
  funext d
  simp only [cascadedRow, reaches_edges t u h]

theorem delegation_cascades (jti : Text) (ts : Instant) (t : Tables) :
    cascade jti ts (revokeDelegations [jti] (js "explicit") ts t) =
      cascadedDelegation jti ts t := by
  rw [cascade_eq, cascadedRow_edges _ t (edges_revokeDelegations t [jti] (js "explicit") ts)]
  simp only [cascadedDelegation, revokeDelegations, List.map_map]
  congr 1
  apply List.map_congr_left
  intro d _
  by_cases hj : d.jti = jti
  · cases hd : d.revoked <;> simp [revokedDelegation, cascadedRow, hj, hd]
  · simp [revokedDelegation, hj]

theorem cascadeStatement_eq (jti : Text) (ts : Instant) (t : Tables) :
    cascadeStatement jti ts t = if instantStorable ts then some (cascade jti ts t) else none := by
  simp [cascadeStatement, RecursiveQuery.descendants_eq, cascade]

def Undisturbed (fault : ℕ → Bool) (ts : Instant) : Prop :=
  (∀ n < 4, fault n = false) ∧ instantStorable ts = true

instance (fault : ℕ → Bool) (ts : Instant) : Decidable (Undisturbed fault ts) :=
  inferInstanceAs (Decidable (_ ∧ _))

theorem runStatements_fault (fault : ℕ → Bool) (k : ℕ) (statements : List Statement) (t : Tables)
    (n : ℕ) (hn : n < statements.length) (hf : fault (k+n) = true) :
    runStatements fault k statements t = none := by
  induction statements generalizing k t n with
  | nil => simp at hn
  | cons s rest ih =>
    rw [runStatements]
    by_cases hk : fault k = true
    · rw [if_pos hk]
    · rw [if_neg hk, Option.bind_eq_none_iff]
      intro u _
      cases n with
      | zero => exact absurd hf hk
      | succ n =>
        apply ih (k+1) u n (by simpa using hn)
        rw [← hf]
        congr 1
        omega

theorem transaction_fault (fault : ℕ → Bool) (jti : Text) (ts : Instant)
    (update : Tables → Tables) (t : Tables) (h : ¬Undisturbed fault ts) :
    transaction fault [begin, dated ts update, cascadeStatement jti ts, commit] t = none := by
  by_cases hf : ∃ n < 4, fault n = true
  · obtain ⟨n, hn, hf⟩ := hf
    exact runStatements_fault fault 0 _ t n hn (by simpa using hf)
  · have hs : instantStorable ts = false := by
      by_contra hs
      apply h
      constructor
      · intro n hn
        simpa using fun hn' => hf ⟨n, hn, hn'⟩
      · simpa using hs
    simp [transaction, runStatements, begin, dated, hs]

theorem transaction_undisturbed (fault : ℕ → Bool) (jti : Text) (ts : Instant)
    (update : Tables → Tables) (t : Tables) (h : Undisturbed fault ts) :
    transaction fault [begin, dated ts update, cascadeStatement jti ts, commit] t =
      some (cascade jti ts (update t)) := by
  have h0 := h.1 0 (by omega)
  have h1 := h.1 1 (by omega)
  have h2 := h.1 2 (by omega)
  have h3 := h.1 3 (by omega)
  simp [transaction, runStatements, begin, dated, commit, cascadeStatement_eq, h.2, h0, h1, h2, h3]

theorem undisturbed_cases (fault : ℕ → Bool) (ts : Instant) (t u : Tables) :
    (if Undisturbed fault ts then u else t) =
      if ∀ n : ℕ, n < 4 → fault n = false then if instantStorable ts then u else t else t := by
  by_cases hf : ∀ n : ℕ, n < 4 → fault n = false
  · by_cases hs : instantStorable ts = true
    · rw [if_pos ⟨hf, hs⟩, if_pos hf, if_pos hs]
    · rw [if_neg (fun hu => hs hu.2), if_pos hf, if_neg hs]
  · rw [if_neg (fun hu => hf hu.1), if_neg hf]

theorem afterTransaction_eq (fault : ℕ → Bool) (jti : Text) (ts : Instant)
    (update : Tables → Tables) (t : Tables) :
    afterTransaction fault [begin, dated ts update, cascadeStatement jti ts, commit] t =
      if ∀ n : ℕ, n < 4 → fault n = false then
        if instantStorable ts then cascade jti ts (update t) else t
      else t := by
  rw [afterTransaction, ← undisturbed_cases]
  by_cases hu : Undisturbed fault ts
  · rw [transaction_undisturbed _ _ _ _ _ hu, if_pos hu, Option.getD_some]
  · rw [transaction_fault _ _ _ _ _ hu, if_neg hu, Option.getD_none]

/-- Without a fault the transaction is the pure cascade of the monitor. -/
theorem runRevocation_eq (fault : ℕ → Bool) (event : AuditEventRecord) (t : Tables) :
    runRevocation fault event t =
      if ∀ n : ℕ, n < 4 → fault n = false then recordRevocation event t else t := by
  cases hj : revokedJti event with
  | none => simp [runRevocation, recordRevocation, hj]
  | some jti =>
    simp only [runRevocation, recordRevocation, hj, revocationStatements]
    exact afterTransaction_eq fault jti event.ts _ t

theorem runDelegationRevocation_eq (fault : ℕ → Bool) (event : AuditEventRecord) (t : Tables) :
    runDelegationRevocation fault event t =
      if ∀ n : ℕ, n < 4 → fault n = false then recordDelegationRevocation event t else t := by
  cases hj : revokedJti event with
  | none => simp [runDelegationRevocation, recordDelegationRevocation, hj]
  | some jti =>
    simp only [runDelegationRevocation, recordDelegationRevocation, hj, delegationStatements]
    exact afterTransaction_eq fault jti event.ts _ t

/-- The query of a revocation ends on every table, without a failure the marks
are reachability, and with one the tables are what they were. -/
theorem cascade_is_reachability (fault : ℕ → Bool) (event : AuditEventRecord) (t : Tables)
    (jti : Text) (h : revokedJti event = some jti) :
    (RecursiveQuery.descendants? (edges t) jti).isSome = true ∧
      runRevocation fault event t =
        (if Undisturbed fault event.ts then cascaded jti event.ts t else t) ∧
      runDelegationRevocation fault event t =
        (if Undisturbed fault event.ts then cascadedDelegation jti event.ts t else t) := by
  constructor
  · exact RecursiveQuery.descendants?_isSome _ _
  rw [runRevocation_eq, runDelegationRevocation_eq, undisturbed_cases, undisturbed_cases]
  simp only [recordRevocation, recordDelegationRevocation, h, revocation_cascades,
    delegation_cascades, and_self]

section Scenario
open ControlPlane.RevocationClosure (tctJti hopJti leafJti)

def hop (jti parentJti : Text) : Delegation where
  jti := jti
  parentJti := parentJti
  delegatorAid := js "aid:a"
  delegateeAid := js "aid:b"
  scope := []
  issuedAt := 1000
  expiresAt := none
  revoked := false
  revokedAt := none
  revokedReason := none

def looped : Tables :=
  { Tables.empty with
    delegations := [hop hopJti leafJti, hop leafJti hopJti, hop tctJti tctJti] }

def hopRevoked : AuditEventRecord where
  type := delegationRevoked
  ts := 5000
  sessionId := none
  payload := .obj [(js "jti", .str hopJti)]

theorem cascade_is_reachability_looped :
    (looped.delegations.map (fun d => (revokedDelegation looped hopJti 5000 d).revokedReason) =
      [some (js "explicit"), some parentRevoked, none]) ∧
    (RecursiveQuery.descendants? (edges looped) hopJti).isSome = true ∧
      runRevocation (fun _ => false) hopRevoked looped =
        (if Undisturbed (fun _ => false) hopRevoked.ts then
          cascaded hopJti hopRevoked.ts looped else looped) ∧
      runDelegationRevocation (fun _ => false) hopRevoked looped =
        (if Undisturbed (fun _ => false) hopRevoked.ts then
          cascadedDelegation hopJti hopRevoked.ts looped else looped) :=
  ⟨by decide +kernel,
    cascade_is_reachability (fun _ => false) hopRevoked looped hopJti (by decide +kernel)⟩

end Scenario

end ControlPlane.CascadeReach
