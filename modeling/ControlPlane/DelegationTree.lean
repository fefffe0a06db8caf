import ControlPlane.CascadeReach

/-!
# The tree view of the delegations

`root_jti` starts a recursive query at the row that has this identifier and
follows the parent edges over whole rows. A cascade starts at the rows whose
parent it is, so the two agree except for a root without a row that some row
names as its parent.
-/

set_option autoImplicit false

namespace ControlPlane.DelegationTree
open ControlPlane.JsText ControlPlane.JsValue ControlPlane.HttpValidate ControlPlane.TctParse
open ControlPlane.TctMonitor ControlPlane.CascadeReach

structure DelegationOut where
  jti : Text
  parentJti : Text
  delegator : Text
  delegatee : Text
  scope : List Text
  issuedAt : Instant
  expiresAt : Option Instant
  revoked : Bool
  revokedAt : Option Instant
  revokedReason : Option Text
  deriving DecidableEq, Repr

def rowOut (r : Delegation) : DelegationOut where
  jti := r.jti
  parentJti := r.parentJti
  delegator := r.delegatorAid
  delegatee := r.delegateeAid
  scope := r.scope
  issuedAt := r.issuedAt
  expiresAt := r.expiresAt
  revoked := r.revoked
  revokedAt := r.revokedAt
  revokedReason := r.revokedReason

inductive Answer where
  | badRequest (problem : Problem)
  | rows (delegations : List DelegationOut)
  deriving DecidableEq, Repr

/-- The join of the recursive part. -/
def joins (t : Tables) : List (Delegation × Delegation) :=
  t.delegations.flatMap (fun p =>
    (t.delegations.filter (fun d => d.parentJti = p.jti)).map (fun d => (p, d)))

def rootRows (t : Tables) (root : Text) : List Delegation :=
  (t.delegations.filter (fun d => d.jti = root)).dedup

/-- `with recursive tree` -/
def tree? (t : Tables) (root : Text) : Option (List Delegation) :=
  RecursiveQuery.rounds (joins t) (t.delegations.length+1) (rootRows t root) (rootRows t root)

/-- `select * from tree order by issued_at asc` -/
def tree (t : Tables) (root : Text) : List Delegation :=
  ((tree? t root).getD []).mergeSort (fun a b => a.issuedAt ≤ b.issuedAt)

/-- `sp.get('root_jti') ?? sp.get('rootJti')`, when it is not empty -/
def rootJti (sp : Text → Option Text) : Option Text :=
  ((sp (js "root_jti")).or (sp (js "rootJti"))).filter (fun s => !s.isEmpty)

def rootProblem : Problem := ⟨400, js "root_jti must be a UUID", js "BAD_REQUEST"⟩

/-- The answer of a query with a root; nothing for one that only filters. -/
def rootedAnswer (t : Tables) (sp : Text → Option Text) : Option Answer :=
  (rootJti sp).map (fun root =>
    if isJtiUuid root then .rows ((tree t (uuid root)).map rowOut)
    else .badRequest rootProblem)

theorem mem_joins (t : Tables) (p d : Delegation) :
    (p, d) ∈ joins t ↔ p ∈ t.delegations ∧ d ∈ t.delegations ∧ d.parentJti = p.jti := by
  simp only [joins, List.mem_flatMap, List.mem_map, List.mem_filter, decide_eq_true_eq,
    Prod.mk.injEq]
  constructor
  · rintro ⟨q, hq, c, ⟨hc, hp⟩, rfl, rfl⟩
    exact ⟨hq, hc, hp⟩
  · rintro ⟨hp, hd, he⟩
    exact ⟨p, hp, d, ⟨hd, he⟩, rfl, rfl⟩

theorem mem_rootRows (t : Tables) (root : Text) (d : Delegation) :
    d ∈ rootRows t root ↔ d ∈ t.delegations ∧ d.jti = root := by
  simp [rootRows]

theorem tree?_isSome (t : Tables) (root : Text) : (tree? t root).isSome = true := by
  apply RecursiveQuery.rounds_isSome_within (joins t) t.delegations
  · intro p d h
    exact ((mem_joins t p d).mp h).2.1
  · exact List.nodup_dedup _
  · intro d hd
    exact ((mem_rootRows t root d).mp hd).1
  · right
    omega

theorem tree_eq (t : Tables) (root : Text) :
    tree? t root = some ((tree? t root).getD []) := by
  obtain ⟨rows, h⟩ := Option.isSome_iff_exists.mp (tree?_isSome t root)
  simp [h]

theorem tree_perm (t : Tables) (root : Text) : (tree t root).Perm ((tree? t root).getD []) :=
  List.mergeSort_perm _ _

theorem tree_nodup (t : Tables) (root : Text) : (tree t root).Nodup := by
  rw [(tree_perm t root).nodup_iff]
  exact RecursiveQuery.rounds_nodup _ _ _ _ _ (tree_eq t root) (List.nodup_dedup _)

theorem chain_joins (t : Tables) (p d : Delegation) (hp : p ∈ t.delegations)
    (h : Relation.ReflTransGen (RecursiveQuery.Edge (joins t)) p d) :
    d ∈ t.delegations ∧ (d = p ∨ Reaches t p.jti d.jti) := by
  induction h with
  | refl => exact ⟨hp, Or.inl rfl⟩
  | tail _ hb ih =>
    obtain ⟨-, hd, he⟩ := (mem_joins t _ _).mp hb
    apply And.intro hd
    right
    obtain ⟨-, rfl | hr⟩ := ih
    · exact .single ⟨_, hd, he, rfl⟩
    · exact hr.tail ⟨_, hd, he, rfl⟩

theorem joins_chain (t : Tables) (p : Delegation) (hp : p ∈ t.delegations) (x : Text)
    (h : Reaches t p.jti x) :
    ∃ q ∈ t.delegations, q.jti = x ∧
      Relation.ReflTransGen (RecursiveQuery.Edge (joins t)) p q := by
  induction h with
  | single hb =>
    obtain ⟨d, hd, he, rfl⟩ := hb
    exact ⟨d, hd, rfl, .single ((mem_joins t p d).mpr ⟨hp, hd, he⟩)⟩
  | tail _ hb ih =>
    obtain ⟨q, hq, rfl, hchain⟩ := ih
    obtain ⟨d, hd, he, rfl⟩ := hb
    exact ⟨d, hd, rfl, hchain.tail ((mem_joins t q d).mpr ⟨hq, hd, he⟩)⟩

theorem mem_tree (t : Tables) (root : Text) (d : Delegation) :
    d ∈ tree t root ↔ ∃ p ∈ t.delegations, p.jti = root ∧
      Relation.ReflTransGen (RecursiveQuery.Edge (joins t)) p d := by
  rw [(tree_perm t root).mem_iff, RecursiveQuery.mem_rounds _ _ _ _ (tree_eq t root)]
  simp only [mem_rootRows, and_assoc]

section Keyed
variable (t : Tables) (root : Text) (hk : (t.delegations.map (·.jti)).Nodup)

include hk

theorem row_unique (p q : Delegation) (hp : p ∈ t.delegations) (hq : q ∈ t.delegations)
    (h : p.jti = q.jti) : p = q :=
  List.inj_on_of_nodup_map hk hp hq h

theorem mem_tree_of_row (p : Delegation) (hp : p ∈ t.delegations) (hj : p.jti = root)
    (d : Delegation) :
    d ∈ tree t root ↔ d ∈ t.delegations ∧ (d.jti = root ∨ Reaches t root d.jti) := by
  subst hj
  constructor
  · intro h
    obtain ⟨q, hq, he, hc⟩ := (mem_tree t p.jti d).mp h
    obtain rfl := row_unique t hk q p hq hp he
    obtain ⟨hd, rfl | hr⟩ := chain_joins t q d hq hc
    · exact ⟨hd, Or.inl rfl⟩
    · exact ⟨hd, Or.inr hr⟩
  · rintro ⟨hd, he | hr⟩
    · obtain rfl := row_unique t hk d p hd hp he
      exact (mem_tree t d.jti d).mpr ⟨d, hd, rfl, .refl⟩
    · obtain ⟨q, hq, he, hc⟩ := joins_chain t p hp d.jti hr
      obtain rfl := row_unique t hk q d hq hd he
      exact (mem_tree t p.jti q).mpr ⟨p, hp, rfl, hc⟩

omit hk in
theorem tree_of_rowless (h : ∀ d ∈ t.delegations, d.jti ≠ root) : tree t root = [] := by
  rw [List.eq_nil_iff_forall_not_mem]
  intro d hd
  obtain ⟨p, hp, he, -⟩ := (mem_tree t root d).mp hd
  exact h p hp he

omit hk in
theorem reaches_child (x : Text) (h : Reaches t root x) :
    ∃ d ∈ t.delegations, d.parentJti = root := by
  induction h with
  | single hb => exact ⟨hb.choose, hb.choose_spec.1, hb.choose_spec.2.1⟩
  | tail _ _ ih => exact ih

theorem tree_jtis_nodup : ((tree t root).map (·.jti)).Nodup := by
  apply List.Nodup.map_on ?_ (tree_nodup t root)
  intro a ha b hb h
  obtain ⟨p, hp, -, hpa⟩ := (mem_tree t root a).mp ha
  obtain ⟨q, hq, -, hqb⟩ := (mem_tree t root b).mp hb
  exact row_unique t hk a b (chain_joins t p a hp hpa).1 (chain_joins t q b hq hqb).1 h

end Keyed

/-- The view: once each, the row of the root and the rows that a cascade from
the root ranges over. -/
def Agrees (t : Tables) (root : Text) (rows : List DelegationOut) : Prop :=
  (rows.map (·.jti)).Nodup ∧ ∀ out, out ∈ rows ↔ ∃ d ∈ t.delegations,
    (d.jti = root ∨ d.jti ∈ RecursiveQuery.descendants (edges t) root) ∧ rowOut d = out

def RootHasRow (t : Tables) (root : Text) : Prop :=
  (∃ d ∈ t.delegations, d.jti = root) ∨ ∀ d ∈ t.delegations, d.parentJti ≠ root

instance (t : Tables) (root : Text) : Decidable (RootHasRow t root) :=
  inferInstanceAs (Decidable (_ ∨ _))

theorem tree_agrees (t : Tables) (root : Text) (hk : (t.delegations.map (·.jti)).Nodup) :
    Agrees t root ((tree t root).map rowOut) ↔ RootHasRow t root := by
  have hjtis : (((tree t root).map rowOut).map (·.jti)).Nodup := by
    rw [List.map_map]
    exact tree_jtis_nodup t root hk
  simp only [Agrees, hjtis, true_and, mem_descendants_iff]
  constructor
  · intro h
    by_contra hn
    simp only [RootHasRow, not_or, not_exists, not_and, not_forall, not_not] at hn
    obtain ⟨hrow, d, hd, hp⟩ := hn
    have hd' := (h (rowOut d)).mpr ⟨d, hd, Or.inr (.single ⟨d, hd, hp, rfl⟩), rfl⟩
    rw [tree_of_rowless t root hrow] at hd'
    simp at hd'
  · rintro (⟨p, hp, hj⟩ | hn) out
    · simp only [List.mem_map, mem_tree_of_row t root hk p hp hj, and_assoc]
    · by_cases hrow : ∃ p ∈ t.delegations, p.jti = root
      · obtain ⟨p, hp, hj⟩ := hrow
        simp only [List.mem_map, mem_tree_of_row t root hk p hp hj, and_assoc]
      · push Not at hrow
        rw [tree_of_rowless t root hrow]
        simp only [List.map_nil, List.not_mem_nil, false_iff]
        rintro ⟨d, hd, he | hr, -⟩
        · exact hrow d hd he
        · obtain ⟨c, hc, hp⟩ := reaches_child t root d.jti hr
          exact hn c hc hp

theorem tree_view_agrees_iff (t : Tables) (sp : Text → Option Text) (root : Text)
    (hk : (t.delegations.map (·.jti)).Nodup) (hr : rootJti sp = some root) :
    (∃ rows, rootedAnswer t sp = some (.rows rows) ∧ Agrees t (uuid root) rows) ↔
      isJtiUuid root = true ∧ RootHasRow t (uuid root) := by
  rw [rootedAnswer, hr, Option.map_some]
  by_cases hu : isJtiUuid root = true
  · rw [if_pos hu]
    simp only [Option.some.injEq, Answer.rows.injEq, exists_eq_left', hu, true_and]
    exact tree_agrees t (uuid root) hk
  · rw [if_neg hu]
    simp [hu]

section Scenario
open ControlPlane.RevocationClosure (tctJti hopJti leafJti)

def asked (root : Text) : Text → Option Text :=
  fun name => if name = js "root_jti" then some root else none

def issuedUnderTct : Tables :=
  { Tables.empty with delegations := [hop hopJti tctJti, hop leafJti hopJti] }

theorem tree_view_agrees_iff_hop :
    (∃ rows, rootedAnswer issuedUnderTct (asked hopJti) = some (.rows rows) ∧
      Agrees issuedUnderTct (uuid hopJti) rows) ↔
        isJtiUuid hopJti = true ∧ RootHasRow issuedUnderTct (uuid hopJti) :=
  tree_view_agrees_iff issuedUnderTct (asked hopJti) hopJti (by decide +kernel) (by decide +kernel)

/-- A TCT's identifier has no row, so its tree is shown empty while a
revocation of the TCT revokes two rows. -/
theorem tct_root_hides_descendants :
    rootedAnswer issuedUnderTct (asked tctJti) = some (.rows []) ∧
      RecursiveQuery.descendants (edges issuedUnderTct) (uuid tctJti) = [hopJti, leafJti] ∧
      ¬ ∀ t sp root, (t.delegations.map (·.jti)).Nodup → rootJti sp = some root →
        isJtiUuid root = true →
          ∃ rows, rootedAnswer t sp = some (.rows rows) ∧ Agrees t (uuid root) rows := by
  have hanswer : rootedAnswer issuedUnderTct (asked tctJti) = some (.rows []) := by
    decide +kernel
  apply And.intro hanswer
  constructor
  · decide +kernel
  intro h
  obtain ⟨rows, hrows, hagrees⟩ :=
    h issuedUnderTct (asked tctJti) tctJti (by decide +kernel) (by decide +kernel)
      (by decide +kernel)
  rw [hanswer] at hrows
  simp only [Option.some.injEq, Answer.rows.injEq] at hrows
  subst hrows
  have hmem := (hagrees.2 (rowOut (hop hopJti tctJti))).mpr
    ⟨hop hopJti tctJti, by decide +kernel, Or.inr (by decide +kernel), rfl⟩
  simp at hmem

end Scenario

end ControlPlane.DelegationTree
