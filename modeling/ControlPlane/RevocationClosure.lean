import ControlPlane.RevocationRoute
import ControlPlane.RunMachine
import ControlPlane.TctRows

/-!
# Closure of the recorded revocations

A delegation is revoked once its parent is: by a revocation entry, a revoked
TCT row or a revoked delegation row. Cascades restore this along any recorded
chain. An inserted delegation looks up its own parent only, so the one step
that can break the closure inserts a row that is born revoked while an active
row already names it as parent.
-/

set_option autoImplicit false

namespace ControlPlane.RevocationClosure
open ControlPlane.JsText ControlPlane.JsValue ControlPlane.HttpValidate ControlPlane.TctParse
open ControlPlane.TctMonitor ControlPlane.RevocationRoute ControlPlane.RunMachine
open ControlPlane.TctRows (EventKeeps onEvent_keeps)

inductive Op where
  | event (now : Instant) (getAgent : Text → Option Text) (event : AuditEventRecord)
  | revoke (now : Instant) (body : Json)

/-- One processed event, or one revocation request that is answered with success. -/
def step (M : Monitor) (parseDate : Text → Option Instant) (op : Op) (t : Tables) :
    Option Tables :=
  match op with
  | .event now getAgent event => some (onEvent M now getAgent event t)
  | .revoke now body =>
    match post M parseDate now body t with
    | (.created _ _, u) => some u
    | _ => none

def Revoked (t : Tables) (jti : Text) : Prop :=
  (∃ e ∈ t.revocationEntries, e.jti = jti) ∨
    (∃ r ∈ t.issuedTcts, r.jti = jti ∧ r.revoked = true) ∨
    ∃ d ∈ t.delegations, d.jti = jti ∧ d.revoked = true

instance (t : Tables) (jti : Text) : Decidable (Revoked t jti) :=
  inferInstanceAs (Decidable (_ ∨ _ ∨ _))

def Closed (t : Tables) : Prop := ∀ d ∈ t.delegations, Revoked t d.parentJti → d.revoked = true

instance (t : Tables) : Decidable (Closed t) :=
  inferInstanceAs (Decidable (∀ d ∈ t.delegations, _))

def Dated (t : Tables) : Prop :=
  (∀ r ∈ t.issuedTcts, r.revoked = true → r.revokedAt.isSome = true) ∧
    ∀ d ∈ t.delegations, d.revoked = true → d.revokedAt.isSome = true

def Parent (t : Tables) (child parent : Text) : Prop :=
  ∃ d ∈ t.delegations, d.jti = child ∧ d.parentJti = parent

/-- No row that is born revoked arrives above a stored active child. -/
def LateParentsChildless (M : Monitor) (op : Op) (t : Tables) : Prop :=
  match op with
  | .event _ _ event => event.type = delegationIssued →
      ∀ r ∈ parseDelegation M.runtime event.payload event.ts, ∀ d ∈ r,
        Revoked t (uuid d.parentJti) → (∀ c ∈ t.delegations, c.jti ≠ uuid d.jti) →
          ∀ c ∈ t.delegations, c.parentJti = uuid d.jti → c.revoked = true
  | .revoke _ _ => True

instance (M : Monitor) : ∀ op t, Decidable (LateParentsChildless M op t)
  | .event _ _ event, t => inferInstanceAs (Decidable (event.type = delegationIssued →
      ∀ r ∈ parseDelegation M.runtime event.payload event.ts, ∀ d ∈ r,
        Revoked t (uuid d.parentJti) → (∀ c ∈ t.delegations, c.jti ≠ uuid d.jti) →
          ∀ c ∈ t.delegations, c.parentJti = uuid d.jti → c.revoked = true))
  | .revoke _ _, _ => isTrue trivial

/-- Closed but for the direct children of one identifier. -/
def ClosedBut (t : Tables) (jti : Text) : Prop :=
  ∀ d ∈ t.delegations, Revoked t d.parentJti → d.revoked = true ∨ d.parentJti = jti

theorem closedBut_of_closed (t : Tables) (jti : Text) (h : Closed t) : ClosedBut t jti :=
  fun d hd hr => Or.inl (h d hd hr)

theorem tctRevokedAt_isSome (t : Tables) (jti : Text) :
    (tctRevokedAt t jti).isSome = true ↔ ∃ e ∈ t.revocationEntries, e.jti = jti := by
  simp [tctRevokedAt]

theorem find_bind_isSome {α : Type*} (p : α → Bool) (f : α → Option Instant) (xs : List α)
    (h : ∀ x ∈ xs, p x = true → (f x).isSome = true) :
    ((xs.find? p).bind f).isSome = true ↔ ∃ x ∈ xs, p x = true := by
  cases hf : xs.find? p with
  | none =>
    simp only [Option.bind_none, Option.isSome_none, Bool.false_eq_true, false_iff]
    rintro ⟨x, hx, hp⟩
    exact List.find?_eq_none.mp hf x hx hp
  | some x =>
    have hx := List.mem_of_find?_eq_some hf
    have hp := List.find?_some hf
    simp only [Option.bind_some, h x hx hp, true_iff]
    exact ⟨x, hx, hp⟩

theorem parentRevokedAt_isSome (t : Tables) (jti : Text) (h : Dated t) :
    (parentRevokedAt t jti).isSome = true ↔ Revoked t jti := by
  have ht := find_bind_isSome (fun r => r.jti = jti && r.revoked) (·.revokedAt) t.issuedTcts
    (fun r hr hp => h.1 r hr (by simp only [Bool.and_eq_true] at hp; exact hp.2))
  have hd := find_bind_isSome (fun d => d.jti = jti && d.revoked) (·.revokedAt) t.delegations
    (fun d hd hp => h.2 d hd (by simp only [Bool.and_eq_true] at hp; exact hp.2))
  simp only [parentRevokedAt, Option.isSome_or, Bool.or_eq_true, tctRevokedAt_isSome, ht, hd,
    Bool.and_eq_true, decide_eq_true_eq, Revoked]

section Revoking
variable (t : Tables) (jtis : List Text) (jti reason : Text) (ts : Instant)

theorem mem_revokeDelegations (d : Delegation) :
    d ∈ (revokeDelegations jtis reason ts t).delegations ↔
      ∃ c ∈ t.delegations, (if c.jti ∈ jtis && !c.revoked then
        { c with revoked := true, revokedAt := some ts, revokedReason := some reason }
        else c) = d :=
  List.mem_map

theorem revokeDelegations_from (d : Delegation)
    (h : d ∈ (revokeDelegations jtis reason ts t).delegations) :
    ∃ c ∈ t.delegations, d.jti = c.jti ∧ d.parentJti = c.parentJti ∧
      (d.revoked = true ↔ c.revoked = true ∨ c.jti ∈ jtis) := by
  obtain ⟨c, hc, rfl⟩ := (mem_revokeDelegations t jtis reason ts d).mp h
  refine ⟨c, hc, ?_⟩
  split
  · next hm =>
    simp only [Bool.and_eq_true, decide_eq_true_eq] at hm
    simp [hm.1]
  · next hm =>
    simp only [Bool.and_eq_true, decide_eq_true_eq, Bool.not_eq_true', not_and] at hm
    refine ⟨rfl, rfl, fun hr => Or.inl hr, ?_⟩
    rintro (hr | hj)
    · exact hr
    · simpa using hm hj

theorem revoked_revokeDelegations (x : Text)
    (h : Revoked (revokeDelegations jtis reason ts t) x) : Revoked t x ∨ x ∈ jtis := by
  rcases h with h | h | ⟨d, hd, rfl, hr⟩
  · exact Or.inl (Or.inl h)
  · exact Or.inl (Or.inr (Or.inl h))
  · obtain ⟨c, hc, hj, -, hrev⟩ := revokeDelegations_from t jtis reason ts d hd
    rcases hrev.mp hr with hr' | hm
    · exact Or.inl (Or.inr (Or.inr ⟨c, hc, hj.symm, hr'⟩))
    · exact Or.inr (hj ▸ hm)

theorem closedBut_revokeDelegations (h : ClosedBut t jti) :
    ClosedBut (revokeDelegations [jti] reason ts t) jti := by
  intro d hd hr
  obtain ⟨c, hc, -, hp, hrev⟩ := revokeDelegations_from t [jti] reason ts d hd
  rcases revoked_revokeDelegations t [jti] reason ts _ hr with hr' | hm
  · rcases h c hc (hp ▸ hr') with hcr | hcp
    · exact Or.inl (hrev.mpr (Or.inl hcr))
    · exact Or.inr (hp.trans hcp)
  · exact Or.inr (List.mem_singleton.mp hm)

theorem dated_revokeDelegations (h : Dated t) : Dated (revokeDelegations jtis reason ts t) := by
  refine ⟨h.1, ?_⟩
  intro d hd
  obtain ⟨c, hc, rfl⟩ := (mem_revokeDelegations t jtis reason ts d).mp hd
  split
  · simp
  · exact h.2 c hc

theorem revoked_revokeTcts (x : Text) (h : Revoked (revokeTcts jti ts t) x) :
    Revoked t x ∨ x = jti := by
  rcases h with h | ⟨r, hr, rfl, hrev⟩ | h
  · exact Or.inl (Or.inl h)
  · simp only [revokeTcts, List.mem_map] at hr
    obtain ⟨q, hq, rfl⟩ := hr
    split at hrev
    · next hm =>
      simp only [Bool.and_eq_true, decide_eq_true_eq] at hm
      right
      rw [if_pos (by simpa using hm)]
      exact hm.1
    · next hm =>
      left
      rw [if_neg hm]
      exact Or.inr (Or.inl ⟨q, hq, rfl, hrev⟩)
  · exact Or.inl (Or.inr (Or.inr h))

theorem closedBut_revokeTcts (h : ClosedBut t jti) : ClosedBut (revokeTcts jti ts t) jti := by
  intro d hd hr
  rcases revoked_revokeTcts t jti ts _ hr with hr' | hp
  · exact h d hd hr'
  · exact Or.inr hp

theorem dated_revokeTcts (h : Dated t) : Dated (revokeTcts jti ts t) := by
  refine ⟨?_, h.2⟩
  intro r hr
  simp only [revokeTcts, List.mem_map] at hr
  obtain ⟨q, hq, rfl⟩ := hr
  split
  · simp
  · exact h.1 q hq

theorem edges_revokeDelegations : edges (revokeDelegations jtis reason ts t) = edges t := by
  simp only [edges, revokeDelegations, List.map_map]
  apply List.map_congr_left
  intro d _
  simp only [Function.comp_apply]
  split <;> rfl

theorem edges_mem (d : Delegation) (h : d ∈ t.delegations) : (d.parentJti, d.jti) ∈ edges t :=
  List.mem_map.mpr ⟨d, h, rfl⟩

theorem closed_cascade (h : ClosedBut t jti) : Closed (cascade jti ts t) := by
  intro d hd hr
  obtain ⟨c, hc, -, hp, hrev⟩ := revokeDelegations_from t _ parentRevoked ts d hd
  apply hrev.mpr
  rcases revoked_revokeDelegations t _ parentRevoked ts _ hr with hr' | hm
  · rcases h c hc (hp ▸ hr') with hcr | hcp
    · exact Or.inl hcr
    · exact Or.inr ((RecursiveQuery.mem_descendants _ _ _).mpr
        (.single (hcp ▸ edges_mem t c hc)))
  · exact Or.inr ((RecursiveQuery.mem_descendants _ _ _).mpr
      (((RecursiveQuery.mem_descendants _ _ _).mp (hp ▸ hm)).tail (edges_mem t c hc)))

theorem dated_cascade (h : Dated t) : Dated (cascade jti ts t) :=
  dated_revokeDelegations t _ parentRevoked ts h

end Revoking

structure Inv (t : Tables) : Prop where
  closed : Closed t
  dated : Dated t

theorem inv_empty : Inv Tables.empty :=
  ⟨fun _ h => (List.not_mem_nil h).elim, fun _ h => (List.not_mem_nil h).elim,
    fun _ h => (List.not_mem_nil h).elim⟩

theorem dated_newTct (tct : ParsedTct) (sessionId : Option Text) (t : Tables) (h : Dated t) :
    Dated { t with issuedTcts := t.issuedTcts++[newTct tct sessionId t] } := by
  constructor
  · intro r hr hrev
    rcases List.mem_append.mp hr with hold | hnew
    · exact h.1 r hold hrev
    · obtain rfl := List.mem_singleton.mp hnew
      exact hrev
  · exact h.2

theorem dated_newDelegation (d : ParsedDelegation) (t : Tables) (h : Dated t) :
    Dated { t with delegations := t.delegations++[newDelegation d t] } := by
  constructor
  · exact h.1
  · intro c hc hrev
    rcases List.mem_append.mp hc with hold | hnew
    · exact h.2 c hold hrev
    · obtain rfl := List.mem_singleton.mp hnew
      exact hrev

theorem newTct_inv (tct : ParsedTct) (sessionId : Option Text) (t : Tables) (hi : Inv t) :
    Inv { t with issuedTcts := t.issuedTcts++[newTct tct sessionId t] } := by
  constructor
  · intro d hd hr
    apply hi.closed d hd
    rcases hr with hr | ⟨r, hmem, hj, hrev⟩ | hr
    · exact Or.inl hr
    · rcases List.mem_append.mp hmem with hold | hnew
      · exact Or.inr (Or.inl ⟨r, hold, hj, hrev⟩)
      · obtain rfl := List.mem_singleton.mp hnew
        obtain ⟨e, he, hej⟩ := (tctRevokedAt_isSome t _).mp hrev
        exact Or.inl ⟨e, he, hej.trans hj⟩
    · exact Or.inr (Or.inr hr)
  · exact dated_newTct tct sessionId t hi.dated

theorem newDelegation_inv (d : ParsedDelegation) (t : Tables)
    (hok : Revoked t (uuid d.parentJti) →
      ∀ c ∈ t.delegations, c.parentJti = uuid d.jti → c.revoked = true) (hi : Inv t) :
    Inv { t with delegations := t.delegations++[newDelegation d t] } := by
  have hborn : (newDelegation d t).revoked = true ↔ Revoked t (uuid d.parentJti) :=
    parentRevokedAt_isSome t _ hi.dated
  constructor
  · intro c hc hr
    have hr' : Revoked t c.parentJti ∨
        uuid d.jti = c.parentJti ∧ Revoked t (uuid d.parentJti) := by
      rcases hr with hr | hr | ⟨e, hmem, hj, hrev⟩
      · exact Or.inl (Or.inl hr)
      · exact Or.inl (Or.inr (Or.inl hr))
      · rcases List.mem_append.mp hmem with hold | hnew
        · exact Or.inl (Or.inr (Or.inr ⟨e, hold, hj, hrev⟩))
        · obtain rfl := List.mem_singleton.mp hnew
          exact Or.inr ⟨hj, hborn.mp hrev⟩
    rcases List.mem_append.mp hc with hold | hnew
    · rcases hr' with hr' | ⟨hj, hp⟩
      · exact hi.closed c hold hr'
      · exact hok hp c hold hj.symm
    · obtain rfl := List.mem_singleton.mp hnew
      exact hborn.mpr (hr'.elim id And.right)
  · exact dated_newDelegation d t hi.dated

theorem revocation_inv (t : Tables) (jti : Text) (ts : Instant) (hc : ClosedBut t jti)
    (hd : Dated t) : Inv (cascade jti ts (revokeTcts jti ts t)) :=
  ⟨closed_cascade _ jti ts (closedBut_revokeTcts t jti ts hc),
    dated_cascade _ jti ts (dated_revokeTcts t jti ts hd)⟩

theorem delegationRevocation_inv (t : Tables) (jti reason : Text) (ts : Instant)
    (hc : ClosedBut t jti) (hd : Dated t) :
    Inv (cascade jti ts (revokeDelegations [jti] reason ts t)) :=
  ⟨closed_cascade _ jti ts (closedBut_revokeDelegations t jti reason ts hc),
    dated_cascade _ jti ts (dated_revokeDelegations t [jti] reason ts hd)⟩

theorem onEvent_inv (M : Monitor) (now : Instant) (getAgent : Text → Option Text)
    (event : AuditEventRecord) (t : Tables) (hi : Inv t)
    (hok : LateParentsChildless M (.event now getAgent event) t) :
    Inv (onEvent M now getAgent event t) := by
  have hbut := fun jti => closedBut_of_closed t jti hi.closed
  have hkeeps : EventKeeps M now getAgent event t Inv := by
    constructor
    · intro _ _ tct _ _ _ u hu _
      exact newTct_inv tct event.sessionId u hu
    · intro htype d hparse _ _ hfresh
      exact newDelegation_inv d t (fun hr => hok htype (some d) hparse d rfl hr hfresh) hi
    · intro jti
      exact revocation_inv t jti event.ts (hbut jti) hi.dated
    · intro jti
      exact delegationRevocation_inv t jti (js "explicit") event.ts (hbut jti) hi.dated
  exact onEvent_keeps hkeeps hi

theorem upsertEntry_closedBut (r : Revocation) (iss : Text) (t : Tables) (hi : Inv t) :
    ClosedBut (upsertEntry r iss t) r.jti ∧ Dated (upsertEntry r iss t) := by
  refine ⟨?_, hi.dated⟩
  intro d hd hr
  have hr' : Revoked t d.parentJti ∨ d.parentJti = r.jti := by
    rcases hr with ⟨e, he, hj⟩ | hr
    · simp only [upsertEntry] at he
      split at he
      · simp only [List.mem_map] at he
        obtain ⟨e', he', rfl⟩ := he
        refine Or.inl (Or.inl ⟨e', he', ?_⟩)
        split at hj <;> exact hj
      · rcases List.mem_append.mp he with hold | hnew
        · exact Or.inl (Or.inl ⟨e, hold, hj⟩)
        · simp only [List.mem_singleton] at hnew
          subst hnew
          exact Or.inr hj.symm
    · exact Or.inl (Or.inr hr)
  exact hr'.imp (fun h => hi.closed d hd h) id

theorem step_inv (M : Monitor) (parseDate : Text → Option Instant) (op : Op) (t u : Tables)
    (hok : LateParentsChildless M op t) (hi : Inv t) (h : step M parseDate op t = some u) :
    Inv u := by
  cases op with
  | event now getAgent event =>
    simp only [step, Option.some.injEq] at h
    exact h ▸ onEvent_inv M now getAgent event t hi hok
  | revoke now body =>
    simp only [step] at h
    split at h
    · next r iss v hpost =>
      simp only [Option.some.injEq] at h
      subst h
      rw [created_tables M parseDate now body t v r iss hpost]
      obtain ⟨hc, hd⟩ := upsertEntry_closedBut r iss t hi
      exact revocation_inv _ r.jti r.revokedAt hc hd
    · cases h

theorem ancestors_active (t : Tables) (hc : Closed t) (d : Delegation) (hd : d ∈ t.delegations)
    (hactive : d.revoked = false) (a : Text)
    (hchain : Relation.ReflTransGen (Parent t) d.parentJti a) : ¬ Revoked t a := by
  induction hchain with
  | refl =>
    intro hr
    simp [hc d hd hr] at hactive
  | tail _ hparent ih =>
    obtain ⟨e, he, hj, hp⟩ := hparent
    intro hr
    exact ih (Or.inr (Or.inr ⟨e, he, hj, hc e he (hp ▸ hr)⟩))

/-- In a run whose every late parent is active or childless, what is stored
as active has no revoked parent, and no revoked ancestor. -/
theorem revocation_closure (M : Monitor) (parseDate : Text → Option Instant) (ops : List Op)
    (t : Tables)
    (hg : Guarded (step M parseDate) (LateParentsChildless M) ops Tables.empty)
    (hr : run (step M parseDate) ops Tables.empty = some t) :
    (∀ d ∈ t.delegations, Revoked t d.parentJti → d.revoked = true) ∧
      ∀ d ∈ t.delegations, d.revoked = false →
        ∀ a, Relation.ReflTransGen (Parent t) d.parentJti a → ¬ Revoked t a := by
  have hi := run_invariant (step M parseDate) (LateParentsChildless M) Inv
    (fun op s u hok hs h => step_inv M parseDate op s u hok hs h) ops _ t hg inv_empty hr
  exact ⟨hi.closed, fun d hd ha a hchain => ancestors_active t hi.closed d hd ha a hchain⟩

def observer : Monitor where
  runtime := { decode := fun _ => [], parse := fun _ => none, sha1 := fun _ => [] }
  sdk := { getCpAgent := .error [], verifyTct := fun _ _ _ _ _ => .error [],
           verifyDelegation := fun _ _ _ _ _ _ => .error [] }
  mode := .off
  insecureLocalhost := false

def tctJti : Text := js "7d9f2c1e-0b6a-4e55-9c3d-1f2a3b4c5d6e"

def hopJti : Text := js "3a1b5c7d-2e4f-4a6b-8c9d-0e1f2a3b4c5d"

def leafJti : Text := js "c0ffee00-1234-4abc-9def-0123456789ab"

def delegationReport (jti parentJti : Text) : Op :=
  .event 1000 (fun _ => none)
    { type := delegationIssued, ts := 1000, sessionId := none,
      payload := .obj [(js "jti", .str jti), (js "parent_jti", .str parentJti),
        (js "delegator", .str (js "aid:a")), (js "delegatee", .str (js "aid:b"))] }

def revocationRequest : Op :=
  .revoke 2000 (.obj [(js "jti", .str tctJti), (js "iss", .str (js "aid:a"))])

def runFrom (ops : List Op) : Option Tables :=
  run (step observer (fun _ => none)) ops Tables.empty

def chainInOrder : List Op :=
  [delegationReport hopJti tctJti, revocationRequest, delegationReport leafJti hopJti]

def leafFirst : List Op :=
  [revocationRequest, delegationReport leafJti hopJti, delegationReport hopJti tctJti]

theorem revocation_closure_chain :
    ∃ t, runFrom chainInOrder = some t ∧ t.delegations.map (·.revoked) = [true, true] ∧
      (∀ d ∈ t.delegations, Revoked t d.parentJti → d.revoked = true) ∧
        ∀ d ∈ t.delegations, d.revoked = false →
          ∀ a, Relation.ReflTransGen (Parent t) d.parentJti a → ¬ Revoked t a := by
  have hg : Guarded (step observer (fun _ => none)) (LateParentsChildless observer)
      chainInOrder Tables.empty := by decide +kernel
  have hrun : (runFrom chainInOrder).map (fun t => t.delegations.map (·.revoked)) =
      some [true, true] := by decide +kernel
  obtain ⟨t, ht, hrows⟩ := Option.map_eq_some_iff.mp hrun
  exact ⟨t, ht, hrows, revocation_closure observer (fun _ => none) chainInOrder t hg ht⟩

/-- A leaf that is stored before its hop stays active under the revoked hop. -/
theorem late_hop_leaves_leaf_active :
    ¬ ∀ ops t, runFrom ops = some t →
      ∀ d ∈ t.delegations, Revoked t d.parentJti → d.revoked = true := by
  intro h
  have hrun : (runFrom leafFirst).map (fun t => decide (Closed t)) = some false := by
    decide +kernel
  obtain ⟨t, ht, hopen⟩ := Option.map_eq_some_iff.mp hrun
  exact of_decide_eq_false hopen (h leafFirst t ht)

end ControlPlane.RevocationClosure
