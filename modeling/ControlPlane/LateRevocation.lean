import Mathlib.Data.List.Perm.Lattice
import Mathlib.Data.Set.Basic
import Mathlib.Logic.Relation

/-!
# Reports and revocations in any order

Roots and links from a parent to a child are reported one by one, and a
revocation reaches what is reported below its target by then. A reported link
is born revoked under a parent that is recorded as revoked. The final revoked
sets are the same for every order exactly if the revocations alone, before any
report, already strike or mark what some order revokes.
-/

set_option autoImplicit false

namespace ControlPlane.LateRevocation

variable {J : Type*}

@[ext] structure View (J : Type*) where
  entry : Set J
  root : Set J
  rootRevoked : Set J
  edge : Set (J × J)
  revoked : Set J

inductive Event (J : Type*) where
  | roots (js : List J)
  | link (child parent : J)
  | revokeRoot (j : J)
  | revokeLink (j : J)
  | other
  deriving DecidableEq

def View.Row (v : View J) (x : J) : Prop := ∃ p, (p, x) ∈ v.edge

def View.Below (v : View J) : J → J → Prop := Relation.TransGen (fun a b => (a, b) ∈ v.edge)

/-- What the insert of a link looks up of its parent. -/
def View.Recorded (v : View J) (p : J) : Prop := p ∈ v.entry ∨ p ∈ v.rootRevoked ∨ p ∈ v.revoked

def apply (e : Event J) (v : View J) : View J :=
  match e with
  | .roots js =>
    { v with root := v.root ∪ {j | j ∈ js},
             rootRevoked := v.rootRevoked ∪ {j | j ∈ js ∧ j ∉ v.root ∧ j ∈ v.entry} }
  | .link d p =>
    { v with edge := v.edge ∪ {a | ¬ v.Row d ∧ a = (p, d)},
             revoked := v.revoked ∪ {x | ¬ v.Row d ∧ v.Recorded p ∧ x = d} }
  | .revokeRoot j =>
    { v with rootRevoked := v.rootRevoked ∪ {x | x = j ∧ x ∈ v.root},
             revoked := v.revoked ∪ {x | v.Below j x} }
  | .revokeLink j =>
    { v with revoked := v.revoked ∪ ({x | x = j ∧ v.Row x} ∪ {x | v.Below j x}) }
  | .other => v

def process : List (Event J) → View J → View J
  | [], v => v
  | e::es, v => process es (apply e v)

def issued : Event J → List J
  | .roots js => js
  | .link d _ => [d]
  | _ => []

def isRevocation : Event J → Bool
  | .revokeRoot _ => true
  | .revokeLink _ => true
  | _ => false

def Event.Revokes (e : Event J) (j : J) : Prop := e = .revokeRoot j ∨ e = .revokeLink j

structure WellFormed (v : View J) : Prop where
  root : ∀ j ∈ v.rootRevoked, j ∈ v.root
  row : ∀ x ∈ v.revoked, v.Row x

def Full (v : View J) (es : List (Event J)) (a b : J) : Prop :=
  (a, b) ∈ v.edge ∨ .link b a ∈ es ∧ ¬ v.Row b

/-- What some order may revoke. -/
inductive Doomed (v : View J) (es : List (Event J)) : J → Prop
  | old (x : J) (h : x ∈ v.revoked) : Doomed v es x
  | hit (x a : J) (h : .revokeLink x ∈ es) (hrow : Full v es a x) : Doomed v es x
  | reached (x t : J) (e : Event J) (h : e ∈ es) (ht : e.Revokes t)
      (hx : Relation.TransGen (Full v es) t x) : Doomed v es x
  | recorded (x p : J) (h : .link x p ∈ es) (hnew : ¬ v.Row x)
      (hp : p ∈ v.entry ∨ p ∈ v.rootRevoked) : Doomed v es x
  | born (x p : J) (h : .link x p ∈ es) (hnew : ¬ v.Row x) (hp : Doomed v es p) : Doomed v es x

def Hits (v : View J) (x : J) (e : Event J) : Prop :=
  v.Row x ∧ e = .revokeLink x ∨ ∃ t, e.Revokes t ∧ v.Below t x

def Marks (v : View J) (p : J) (e : Event J) : Prop :=
  p ∈ v.root ∧ e = .revokeRoot p ∨ Hits v p e

/-- The reports of these events add nothing that only some order revokes. -/
structure Settled (v : View J) (es : List (Event J)) : Prop where
  root : ∀ js, .roots js ∈ es → ∀ j ∈ js, j ∉ v.root → .revokeRoot j ∈ es → j ∈ v.entry
  old : ∀ x, v.Row x → Doomed v es x → x ∈ v.revoked ∨ ∃ e ∈ es, Hits v x e
  new : ∀ x p, .link x p ∈ es → ¬ v.Row x → Doomed v es x →
    v.Recorded p ∨ ∃ e ∈ es, Marks v p e

section Step
variable (e : Event J) (v : View J)

theorem entry_apply : (apply e v).entry = v.entry := by
  cases e <;> rfl

theorem root_apply (j : J) :
    j ∈ (apply e v).root ↔ j ∈ v.root ∨ ∃ js, e = .roots js ∧ j ∈ js := by
  cases e <;> simp [apply]

theorem rootRevoked_apply (j : J) :
    j ∈ (apply e v).rootRevoked ↔ j ∈ v.rootRevoked ∨
      (∃ js, e = .roots js ∧ j ∈ js ∧ j ∉ v.root ∧ j ∈ v.entry) ∨
        e = .revokeRoot j ∧ j ∈ v.root := by
  cases e <;> simp [apply, eq_comm]

theorem edge_apply (p d : J) :
    (p, d) ∈ (apply e v).edge ↔ (p, d) ∈ v.edge ∨ e = .link d p ∧ ¬ v.Row d := by
  cases e with
  | link c q =>
    simp only [apply, Set.mem_union, Set.mem_ofPred_eq, Prod.mk.injEq, Event.link.injEq]
    constructor
    · rintro (h | ⟨hn, rfl, rfl⟩)
      · exact Or.inl h
      · exact Or.inr ⟨⟨rfl, rfl⟩, hn⟩
    · rintro (h | ⟨⟨rfl, rfl⟩, hn⟩)
      · exact Or.inl h
      · exact Or.inr ⟨hn, rfl, rfl⟩
  | _ => simp [apply]

theorem revoked_apply (x : J) :
    x ∈ (apply e v).revoked ↔ x ∈ v.revoked ∨
      (∃ p, e = .link x p ∧ ¬ v.Row x ∧ v.Recorded p) ∨ Hits v x e := by
  cases e with
  | link d p =>
    simp only [apply, Set.mem_union, Set.mem_ofPred_eq, Hits, Event.Revokes, Event.link.injEq,
      reduceCtorEq, and_false, or_self, false_and, exists_false, or_false]
    constructor
    · rintro (h | ⟨hn, hp, rfl⟩)
      · exact Or.inl h
      · exact Or.inr ⟨p, ⟨rfl, rfl⟩, hn, hp⟩
    · rintro (h | ⟨q, ⟨rfl, rfl⟩, hn, hq⟩)
      · exact Or.inl h
      · exact Or.inr ⟨hn, hq, rfl⟩
  | revokeLink j =>
    simp only [apply, Set.mem_union, Set.mem_ofPred_eq, Hits, Event.Revokes, reduceCtorEq,
      false_and, exists_false, false_or, Event.revokeLink.injEq, exists_eq_left', and_comm,
      eq_comm]
  | _ => simp [apply, Hits, Event.Revokes]

end Step

theorem apply_roots_cons (j : J) (js : List J) (v : View J) :
    apply (.roots (j::js)) v = apply (.roots js) (apply (.roots [j]) v) := by
  ext x
  · rfl
  · show x ∈ v.root ∨ x ∈ j::js ↔ (x ∈ v.root ∨ x ∈ [j]) ∨ x ∈ js
    rw [List.mem_cons, List.mem_singleton, or_assoc]
  · simp only [apply, List.mem_cons, List.not_mem_nil, or_false, Set.mem_union,
      Set.mem_ofPred_eq, not_or]
    by_cases hx : x = j <;> simp [hx]
  · rfl
  · rfl

theorem apply_roots_nil (v : View J) : apply (.roots []) v = v := by
  ext x <;> simp [apply]

structure Extends (v u : View J) : Prop where
  entry : u.entry = v.entry
  root : v.root ⊆ u.root
  rootRevoked : v.rootRevoked ⊆ u.rootRevoked
  edge : v.edge ⊆ u.edge
  revoked : v.revoked ⊆ u.revoked

theorem extends_refl (v : View J) : Extends v v :=
  ⟨rfl, fun _ h => h, fun _ h => h, fun _ h => h, fun _ h => h⟩

theorem extends_apply (e : Event J) (v u : View J) (h : Extends v u) :
    Extends v (apply e u) := by
  constructor
  · rw [entry_apply, h.entry]
  · exact fun j hj => (root_apply e u j).mpr (Or.inl (h.root hj))
  · exact fun j hj => (rootRevoked_apply e u j).mpr (Or.inl (h.rootRevoked hj))
  · exact fun ⟨p, d⟩ hpd => (edge_apply e u p d).mpr (Or.inl (h.edge hpd))
  · exact fun x hx => (revoked_apply e u x).mpr (Or.inl (h.revoked hx))

theorem extends_process (es : List (Event J)) (v u : View J) (h : Extends v u) :
    Extends v (process es u) := by
  induction es generalizing u with
  | nil => exact h
  | cons e es ih => exact ih _ (extends_apply e v u h)

theorem process_extends (es : List (Event J)) (v : View J) : Extends v (process es v) :=
  extends_process es v v (extends_refl v)

theorem process_append (as bs : List (Event J)) (v : View J) :
    process (as++bs) v = process bs (process as v) := by
  induction as generalizing v with
  | nil => rfl
  | cons e as ih => exact ih (apply e v)

theorem row_extends (v u : View J) (h : Extends v u) (x : J) (hx : v.Row x) : u.Row x := by
  obtain ⟨p, hp⟩ := hx
  exact ⟨p, h.edge hp⟩

theorem below_extends (v u : View J) (h : Extends v u) (t x : J) (hx : v.Below t x) :
    u.Below t x :=
  Relation.TransGen.mono (fun _ _ hab => h.edge hab) t x hx

theorem recorded_extends (v u : View J) (h : Extends v u) (p : J) (hp : v.Recorded p) :
    u.Recorded p := by
  rcases hp with hp | hp | hp
  · exact Or.inl (h.entry ▸ hp)
  · exact Or.inr (Or.inl (h.rootRevoked hp))
  · exact Or.inr (Or.inr (h.revoked hp))

theorem hits_extends (v u : View J) (h : Extends v u) (x : J) (e : Event J) (hx : Hits v x e) :
    Hits u x e := by
  rcases hx with ⟨hr, he⟩ | ⟨t, ht, hb⟩
  · exact Or.inl ⟨row_extends v u h x hr, he⟩
  · exact Or.inr ⟨t, ht, below_extends v u h t x hb⟩

theorem marks_extends (v u : View J) (h : Extends v u) (p : J) (e : Event J)
    (hp : Marks v p e) : Marks u p e := by
  rcases hp with ⟨hr, he⟩ | hx
  · exact Or.inl ⟨h.root hr, he⟩
  · exact Or.inr (hits_extends v u h p e hx)

theorem marks_recorded (v : View J) (p : J) (e : Event J) (h : Marks v p e) :
    (apply e v).Recorded p := by
  rcases h with ⟨hr, he⟩ | hx
  · exact Or.inr (Or.inl ((rootRevoked_apply e v p).mpr (Or.inr (Or.inr ⟨he, hr⟩))))
  · exact Or.inr (Or.inr ((revoked_apply e v p).mpr (Or.inr (Or.inr hx))))

theorem hits_row (v : View J) (x : J) (e : Event J) (h : Hits v x e) : v.Row x := by
  rcases h with ⟨h, -⟩ | ⟨t, -, hb⟩
  · exact h
  · cases hb with
    | single h => exact ⟨t, h⟩
    | tail _ h => exact ⟨_, h⟩

theorem marks_hits (v : View J) (p x : J) (e : Event J) (h : Marks v p e)
    (hx : (p, x) ∈ v.edge) : Hits v x e := by
  rcases h with ⟨-, he⟩ | ⟨-, he⟩ | ⟨t, ht, hb⟩
  · exact Or.inr ⟨p, Or.inl he, .single hx⟩
  · exact Or.inr ⟨p, Or.inr he, .single hx⟩
  · exact Or.inr ⟨t, ht, hb.tail hx⟩

section Run
variable (es : List (Event J)) (v : View J)

theorem hits_revoked (x : J) (e : Event J) (he : e ∈ es) (h : Hits v x e) :
    x ∈ (process es v).revoked := by
  obtain ⟨as, bs, rfl⟩ := List.append_of_mem he
  rw [process_append]
  apply (process_extends bs _).revoked
  exact (revoked_apply e _ x).mpr
    (Or.inr (Or.inr (hits_extends v _ (process_extends as v) x e h)))

theorem marks_recorded_run (p : J) (e : Event J) (he : e ∈ es) (h : Marks v p e) :
    (process es v).Recorded p := by
  obtain ⟨as, bs, rfl⟩ := List.append_of_mem he
  rw [process_append]
  apply recorded_extends _ _ (process_extends bs _)
  exact marks_recorded _ p e (marks_extends v _ (process_extends as v) p e h)

theorem root_revoked (j : J) (he : .revokeRoot j ∈ es) (hj : j ∈ v.root) :
    j ∈ (process es v).rootRevoked := by
  obtain ⟨as, bs, rfl⟩ := List.append_of_mem he
  rw [process_append]
  apply (process_extends bs _).rootRevoked
  exact (rootRevoked_apply _ _ j).mpr
    (Or.inr (Or.inr ⟨rfl, (process_extends as v).root hj⟩))

theorem root_stored (js : List J) (he : .roots js ∈ es) (j : J) (hj : j ∈ js) :
    j ∈ (process es v).root := by
  obtain ⟨as, bs, rfl⟩ := List.append_of_mem he
  rw [process_append]
  apply (process_extends bs _).root
  exact (root_apply _ _ j).mpr (Or.inr ⟨js, rfl, hj⟩)

end Run

structure Within (v : View J) (es : List (Event J)) (u : View J) : Prop where
  extends_ : Extends v u
  root : ∀ j ∈ u.root, j ∈ v.root ∨ ∃ js, .roots js ∈ es ∧ j ∈ js
  rootRevoked : ∀ j ∈ u.rootRevoked, j ∈ v.rootRevoked ∨
    ((∃ js, .roots js ∈ es ∧ j ∈ js) ∧ j ∉ v.root ∧ j ∈ v.entry) ∨
      .revokeRoot j ∈ es ∧ (j ∈ v.root ∨ ∃ js, .roots js ∈ es ∧ j ∈ js)
  edge : ∀ p d, (p, d) ∈ u.edge → Full v es p d
  revoked : ∀ x ∈ u.revoked, Doomed v es x

theorem within_apply (v : View J) (es : List (Event J)) (e : Event J) (he : e ∈ es)
    (u : View J) (h : Within v es u) : Within v es (apply e u) := by
  constructor
  · exact extends_apply e v u h.extends_
  · intro j hj
    rcases (root_apply e u j).mp hj with hold | ⟨js, rfl, hnew⟩
    · exact h.root j hold
    · exact Or.inr ⟨js, he, hnew⟩
  · intro j hj
    rcases (rootRevoked_apply e u j).mp hj with hold | ⟨js, rfl, hjs, hn, hentry⟩ | ⟨rfl, hr⟩
    · exact h.rootRevoked j hold
    · exact Or.inr (Or.inl ⟨⟨js, he, hjs⟩, fun hv => hn (h.extends_.root hv),
        h.extends_.entry ▸ hentry⟩)
    · exact Or.inr (Or.inr ⟨he, h.root j hr⟩)
  · intro p d hpd
    rcases (edge_apply e u p d).mp hpd with hpd | ⟨rfl, hn⟩
    · exact h.edge p d hpd
    · exact Or.inr ⟨he, fun hv => hn (row_extends v u h.extends_ d hv)⟩
  · intro x hx
    rcases (revoked_apply e u x).mp hx with hx | ⟨p, rfl, hn, hp⟩ | hx
    · exact h.revoked x hx
    · have hnew : ¬ v.Row x := fun hv => hn (row_extends v u h.extends_ x hv)
      rcases hp with hp | hp | hp
      · exact .recorded x p he hnew (Or.inl (h.extends_.entry ▸ hp))
      · rcases h.rootRevoked p hp with hp | ⟨-, -, hp⟩ | ⟨hp, -⟩
        · exact .recorded x p he hnew (Or.inr hp)
        · exact .recorded x p he hnew (Or.inl hp)
        · exact .reached x p _ hp (Or.inl rfl) (.single (Or.inr ⟨he, hnew⟩))
      · exact .born x p he hnew (h.revoked p hp)
    · rcases hx with ⟨⟨a, ha⟩, rfl⟩ | ⟨t, ht, hb⟩
      · exact .hit x a he (h.edge a x ha)
      · exact .reached x t e he ht (Relation.TransGen.mono (fun a b hab => h.edge a b hab) t x hb)

theorem within_process (v : View J) (es σ : List (Event J)) (hσ : ∀ e ∈ σ, e ∈ es) (u : View J)
    (h : Within v es u) : Within v es (process σ u) := by
  induction σ generalizing u with
  | nil => exact h
  | cons e σ ih =>
    apply ih (fun f hf => hσ f (List.mem_cons_of_mem e hf))
    exact within_apply v es e (hσ e List.mem_cons_self) u h

theorem process_within (v : View J) (es σ : List (Event J)) (hσ : ∀ e ∈ σ, e ∈ es) :
    Within v es (process σ v) := by
  apply within_process v es σ hσ
  exact ⟨extends_refl v, fun j hj => Or.inl hj, fun j hj => Or.inl hj,
    fun p d hpd => Or.inl hpd, fun x hx => .old x hx⟩

theorem full_row (v : View J) (es : List (Event J)) (a x : J) (h : Full v es a x) :
    v.Row x ∨ ∃ p, .link x p ∈ es ∧ ¬ v.Row x := by
  rcases h with h | h
  · exact Or.inl ⟨a, h⟩
  · exact Or.inr ⟨a, h⟩

theorem doomed_row (v : View J) (es : List (Event J)) (hv : WellFormed v) (x : J)
    (h : Doomed v es x) : v.Row x ∨ ∃ p, .link x p ∈ es ∧ ¬ v.Row x := by
  cases h with
  | old _ h => exact Or.inl (hv.row x h)
  | hit _ a _ hrow => exact full_row v es a x hrow
  | reached _ t _ _ _ hx =>
    cases hx with
    | single h => exact full_row v es t x h
    | tail _ h => exact full_row v es _ x h
  | recorded _ p h hnew _ => exact Or.inr ⟨p, h, hnew⟩
  | born _ p h hnew _ => exact Or.inr ⟨p, h, hnew⟩

theorem link_once (as bs : List (Event J)) (x p : J)
    (hd : ((as++.link x p::bs).flatMap issued).Nodup) (q : J) :
    .link x q ∉ as ∧ .link x q ∉ bs := by
  simp only [List.flatMap_append, List.flatMap_cons, issued, List.singleton_append,
    List.nodup_append, List.nodup_cons, List.mem_cons, List.mem_flatMap] at hd
  constructor
  · intro h
    exact hd.2.2 x ⟨_, h, List.mem_singleton_self x⟩ x (Or.inl rfl) rfl
  · intro h
    exact hd.2.1.1 ⟨_, h, List.mem_singleton_self x⟩

theorem row_process (v : View J) (as : List (Event J)) (x : J) (hn : ∀ q, .link x q ∉ as)
    (h : (process as v).Row x) : v.Row x := by
  obtain ⟨p, hp⟩ := h
  rcases (process_within v as as (fun _ h => h)).edge p x hp with h | ⟨h, -⟩
  · exact ⟨p, h⟩
  · exact (hn p h).elim

theorem link_stored (v : View J) (es : List (Event J)) (hd : (es.flatMap issued).Nodup)
    (x p : J) (h : .link x p ∈ es) (hx : ¬ v.Row x) : (p, x) ∈ (process es v).edge := by
  obtain ⟨as, bs, rfl⟩ := List.append_of_mem h
  rw [process_append]
  apply (process_extends bs _).edge
  have hn := row_process v as x (fun q => (link_once as bs x p hd q).1)
  exact (edge_apply _ _ p x).mpr (Or.inr ⟨rfl, fun hu => hx (hn hu)⟩)

theorem marked_born (v : View J) (es : List (Event J)) (hd : (es.flatMap issued).Nodup)
    (x p : J) (h : .link x p ∈ es) (hx : ¬ v.Row x)
    (hp : v.Recorded p ∨ ∃ e ∈ es, Marks v p e) : x ∈ (process es v).revoked := by
  obtain ⟨as, bs, rfl⟩ := List.append_of_mem h
  have hn : ¬ (process as v).Row x :=
    fun hu => hx (row_process v as x (fun q => (link_once as bs x p hd q).1) hu)
  rw [process_append]
  have hborn : (process as v).Recorded p →
      x ∈ (process (.link x p::bs) (process as v)).revoked := by
    intro hr
    apply (process_extends bs _).revoked
    exact (revoked_apply _ _ x).mpr (Or.inr (Or.inl ⟨p, rfl, hn, hr⟩))
  rcases hp with hp | ⟨e, he, hm⟩
  · exact hborn (recorded_extends v _ (process_extends as v) p hp)
  · rcases List.mem_append.mp he with has | hbs
    · exact hborn (marks_recorded_run as v p e has hm)
    · rcases List.mem_cons.mp hbs with rfl | hbs
      · rcases hm with ⟨-, he⟩ | ⟨-, he⟩ | ⟨t, he | he, -⟩ <;> cases he
      · have hedge : (p, x) ∈ (apply (.link x p) (process as v)).edge :=
          (edge_apply _ _ p x).mpr (Or.inr ⟨rfl, hn⟩)
        have hext := extends_apply (.link x p) v _ (process_extends as v)
        exact hits_revoked bs _ x e hbs (marks_hits _ p x e (marks_extends v _ hext p e hm) hedge)

theorem root_born (v u : View J) (σ : List (Event J)) (he : Extends v u)
    (h : ∀ j ∈ u.root, j ∉ v.root → j ∈ v.entry → j ∈ u.rootRevoked) :
    ∀ j ∈ (process σ u).root, j ∉ v.root → j ∈ v.entry → j ∈ (process σ u).rootRevoked := by
  induction σ generalizing u with
  | nil => exact h
  | cons e σ ih =>
    apply ih _ (extends_apply e v u he)
    intro j hj hn hentry
    apply (rootRevoked_apply e u j).mpr
    by_cases hu : j ∈ u.root
    · exact Or.inl (h j hu hn hentry)
    · rcases (root_apply e u j).mp hj with hold | ⟨js, rfl, hjs⟩
      · exact (hu hold).elim
      · exact Or.inr (Or.inl ⟨js, rfl, hjs, hu, he.entry ▸ hentry⟩)

theorem settled_revoked (v : View J) (es σ : List (Event J)) (hv : WellFormed v)
    (hd : (es.flatMap issued).Nodup) (hσ : σ.Perm es) (hs : Settled v es) :
    (process σ v).revoked = {x | Doomed v es x} := by
  have hdσ : (σ.flatMap issued).Nodup := (hσ.flatMap_right issued).nodup_iff.mpr hd
  ext x
  constructor
  · exact (process_within v es σ (fun e he => hσ.mem_iff.mp he)).revoked x
  · intro hx
    rcases doomed_row v es hv x hx with hrow | ⟨p, hp, hnew⟩
    · rcases hs.old x hrow hx with hold | ⟨e, he, hit⟩
      · exact (process_extends σ v).revoked hold
      · exact hits_revoked σ v x e (hσ.mem_iff.mpr he) hit
    · apply marked_born v σ hdσ x p (hσ.mem_iff.mpr hp) hnew
      rcases hs.new x p hp hnew hx with hr | ⟨e, he, hm⟩
      · exact Or.inl hr
      · exact Or.inr ⟨e, hσ.mem_iff.mpr he, hm⟩

theorem settled_rootRevoked (v : View J) (es σ : List (Event J)) (hσ : σ.Perm es)
    (hs : Settled v es) (j : J) :
    j ∈ (process σ v).rootRevoked ↔ j ∈ v.rootRevoked ∨
      ((∃ js, .roots js ∈ es ∧ j ∈ js) ∧ j ∉ v.root ∧ j ∈ v.entry) ∨
        .revokeRoot j ∈ es ∧ j ∈ v.root := by
  constructor
  · intro hj
    rcases (process_within v es σ (fun e he => hσ.mem_iff.mp he)).rootRevoked j hj with
      h | h | ⟨h, hroot⟩
    · exact Or.inl h
    · exact Or.inr (Or.inl h)
    · by_cases hold : j ∈ v.root
      · exact Or.inr (Or.inr ⟨h, hold⟩)
      · obtain ⟨js, hjs, hmem⟩ := hroot.resolve_left hold
        exact Or.inr (Or.inl ⟨⟨js, hjs, hmem⟩, hold, hs.root js hjs j hmem hold h⟩)
  · rintro (h | ⟨⟨js, hjs, hmem⟩, hn, hentry⟩ | ⟨h, hroot⟩)
    · exact (process_extends σ v).rootRevoked h
    · have hroot := root_stored σ v js (hσ.mem_iff.mpr hjs) j hmem
      exact root_born v v σ (extends_refl v) (fun i hi hi' => (hi' hi).elim) j hroot hn hentry
    · exact root_revoked σ v j (hσ.mem_iff.mpr h) hroot

/-- The final revoked sets are the same for every order. -/
def Confluent (v : View J) (es : List (Event J)) : Prop :=
  ∀ σ τ, σ.Perm es → τ.Perm es →
    (process σ v).rootRevoked = (process τ v).rootRevoked ∧
      (process σ v).revoked = (process τ v).revoked

theorem confluent_of_settled (v : View J) (es : List (Event J)) (hv : WellFormed v)
    (hd : (es.flatMap issued).Nodup) (hs : Settled v es) : Confluent v es := by
  intro σ τ hσ hτ
  constructor
  · ext j
    rw [settled_rootRevoked v es σ hσ hs j, settled_rootRevoked v es τ hτ hs j]
  · rw [settled_revoked v es σ hv hd hσ hs, settled_revoked v es τ hv hd hτ hs]

section Orders
variable (v : View J) (es : List (Event J))

theorem revokes_isRevocation (e : Event J) (t : J) (h : e.Revokes t) : isRevocation e = true := by
  rcases h with rfl | rfl <;> rfl

theorem hits_isRevocation (x : J) (e : Event J) (h : Hits v x e) : isRevocation e = true := by
  rcases h with ⟨-, rfl⟩ | ⟨t, ht, -⟩
  · rfl
  · exact revokes_isRevocation e t ht

theorem doomed_revocations (x : J) (hr : ∀ e ∈ es, isRevocation e = true)
    (h : Doomed v es x) : x ∈ v.revoked ∨ ∃ e ∈ es, Hits v x e := by
  have hfull : ∀ a b, Full v es a b → (a, b) ∈ v.edge := by
    rintro a b (hab | ⟨hab, -⟩)
    · exact hab
    · cases hr _ hab
  cases h with
  | old _ h => exact Or.inl h
  | hit _ a h hrow => exact Or.inr ⟨_, h, Or.inl ⟨⟨a, hfull a x hrow⟩, rfl⟩⟩
  | reached _ t e h ht hx =>
    exact Or.inr ⟨e, h, Or.inr ⟨t, ht, Relation.TransGen.mono hfull t x hx⟩⟩
  | recorded _ p h _ _ => cases hr _ h
  | born _ p h _ _ => cases hr _ h

theorem doomed_reports (x : J) (hr : ∀ e ∈ es, isRevocation e = false) (hrow : v.Row x)
    (h : Doomed v es x) : x ∈ v.revoked := by
  cases h with
  | old _ h => exact h
  | hit _ a h _ => cases hr _ h
  | reached _ t e h ht _ => exact absurd (revokes_isRevocation e t ht) (by simp [hr e h])
  | recorded _ p _ hnew _ => exact (hnew hrow).elim
  | born _ p _ hnew _ => exact (hnew hrow).elim

def revocations (es : List (Event J)) : List (Event J) := es.filter isRevocation

def reports (es : List (Event J)) : List (Event J) := es.filter (fun e => !isRevocation e)

theorem mem_revocations (e : Event J) :
    e ∈ revocations es ↔ e ∈ es ∧ isRevocation e = true := by
  simp [revocations]

theorem mem_reports (e : Event J) : e ∈ reports es ↔ e ∈ es ∧ isRevocation e = false := by
  simp [reports]

theorem revocations_first : (revocations es++reports es).Perm es :=
  List.filter_append_perm isRevocation es

theorem reports_first : (reports es++revocations es).Perm es :=
  List.perm_append_comm.trans (revocations_first es)

theorem full_stored (hd : (es.flatMap issued).Nodup) (a b : J) (h : Full v es a b) :
    (a, b) ∈ (process (reports es) v).edge := by
  rcases h with h | ⟨h, hn⟩
  · exact (process_extends (reports es) v).edge h
  · have hdr : ((reports es++revocations es).flatMap issued).Nodup :=
      ((reports_first es).flatMap_right issued).nodup_iff.mpr hd
    rw [List.flatMap_append] at hdr
    exact link_stored v (reports es) hdr.of_append_left b a ((mem_reports es _).mpr ⟨h, rfl⟩) hn

theorem struck_revoked (hc : Confluent v es) (x : J) (e : Event J) (he : e ∈ es)
    (h : Hits (process (reports es) v) x e) (σ : List (Event J)) (hσ : σ.Perm es) :
    x ∈ (process σ v).revoked := by
  rw [(hc σ _ hσ (reports_first es)).2, process_append]
  have hmem := (mem_revocations es e).mpr ⟨he, hits_isRevocation _ x e h⟩
  exact hits_revoked (revocations es) _ x e hmem h

theorem born_last (hd : (es.flatMap issued).Nodup) (hc : Confluent v es) (x p : J)
    (h : .link x p ∈ es) (hx : ¬ v.Row x)
    (hp : ∀ σ : List (Event J), σ.Perm es → p ∈ (process σ v).revoked)
    (σ : List (Event J)) (hσ : σ.Perm es) : x ∈ (process σ v).revoked := by
  by_cases hxp : p = x
  · exact hxp ▸ hp σ hσ
  · obtain ⟨as, bs, rfl⟩ := List.append_of_mem h
    have hlast : ((as++bs)++[Event.link x p]).Perm (as++Event.link x p::bs) :=
      (List.perm_append_singleton _ _).trans List.perm_middle.symm
    have hpl := hp _ hlast
    rw [process_append] at hpl
    rw [(hc σ _ hσ hlast).2, process_append]
    have hn : ¬ (process (as++bs) v).Row x := by
      intro hu
      apply hx
      apply row_process v (as++bs) x _ hu
      intro q hq
      obtain ⟨ha, hb⟩ := link_once as bs x p hd q
      exact (List.mem_append.mp hq).elim ha hb
    apply (revoked_apply _ _ x).mpr
    rcases (revoked_apply _ _ p).mp hpl with hold | ⟨q, hq, -⟩ | hit
    · exact Or.inr (Or.inl ⟨p, rfl, hn, Or.inr (Or.inr hold)⟩)
    · obtain ⟨rfl, -⟩ := Event.link.inj hq
      exact (hxp rfl).elim
    · cases hits_isRevocation _ p _ hit

theorem doomed_revoked (hd : (es.flatMap issued).Nodup) (hc : Confluent v es) (x : J)
    (h : Doomed v es x) (σ : List (Event J)) (hσ : σ.Perm es) : x ∈ (process σ v).revoked := by
  induction h generalizing σ with
  | old x h => exact (process_extends σ v).revoked h
  | hit x a h hrow =>
    apply struck_revoked v es hc x _ h _ σ hσ
    exact Or.inl ⟨⟨a, full_stored v es hd a x hrow⟩, rfl⟩
  | reached x t e h ht hx =>
    apply struck_revoked v es hc x e h _ σ hσ
    exact Or.inr ⟨t, ht, Relation.TransGen.mono (fun a b => full_stored v es hd a b) t x hx⟩
  | recorded x p h hnew hp =>
    apply marked_born v σ _ x p (hσ.mem_iff.mpr h) hnew
    · rcases hp with hp | hp
      · exact Or.inl (Or.inl hp)
      · exact Or.inl (Or.inr (Or.inl hp))
    · exact (hσ.flatMap_right issued).nodup_iff.mpr hd
  | born x p h hnew _ ih => exact born_last v es hd hc x p h hnew ih σ hσ

theorem revocations_within : Within v (revocations es) (process (revocations es) v) :=
  process_within v _ _ (fun _ h => h)

theorem held_of_revocations (x : J) (h : x ∈ (process (revocations es) v).revoked) :
    x ∈ v.revoked ∨ ∃ e ∈ es, Hits v x e := by
  have hdoomed := (revocations_within v es).revoked x h
  rcases doomed_revocations v _ x (fun e he => ((mem_revocations es e).mp he).2) hdoomed with
    h | ⟨e, he, hit⟩
  · exact Or.inl h
  · exact Or.inr ⟨e, ((mem_revocations es e).mp he).1, hit⟩

theorem known_of_revocations (p : J) (h : (process (revocations es) v).Recorded p) :
    v.Recorded p ∨ ∃ e ∈ es, Marks v p e := by
  have hw := revocations_within v es
  rcases h with h | h | h
  · exact Or.inl (Or.inl (hw.extends_.entry ▸ h))
  · rcases hw.rootRevoked p h with h | ⟨⟨js, hjs, -⟩, -⟩ | ⟨h, hroot⟩
    · exact Or.inl (Or.inr (Or.inl h))
    · cases ((mem_revocations es _).mp hjs).2
    · rcases hroot with hroot | ⟨js, hjs, -⟩
      · exact Or.inr ⟨_, ((mem_revocations es _).mp h).1, Or.inl ⟨hroot, rfl⟩⟩
      · cases ((mem_revocations es _).mp hjs).2
  · rcases held_of_revocations v es p h with h | ⟨e, he, hit⟩
    · exact Or.inl (Or.inr (Or.inr h))
    · exact Or.inr ⟨e, he, Or.inr hit⟩

theorem row_of_revocations (x : J) (h : (process (revocations es) v).Row x) : v.Row x := by
  apply row_process v _ x _ h
  intro q hq
  cases ((mem_revocations es _).mp hq).2

theorem reports_frame (u : View J) (as : List (Event J)) (x : J)
    (hr : ∀ e ∈ as, isRevocation e = false) (hrow : u.Row x)
    (h : x ∈ (process as u).revoked) : x ∈ u.revoked :=
  doomed_reports u as x hr hrow ((process_within u as as (fun _ h => h)).revoked x h)

theorem settled_root (hv : WellFormed v) (hc : Confluent v es) (js : List J)
    (hjs : .roots js ∈ es) (j : J) (hj : j ∈ js) (hn : j ∉ v.root)
    (he : .revokeRoot j ∈ es) : j ∈ v.entry := by
  have hlast : j ∈ (process (reports es++revocations es) v).rootRevoked := by
    rw [process_append]
    apply root_revoked _ _ j ((mem_revocations es _).mpr ⟨he, rfl⟩)
    exact root_stored _ v js ((mem_reports es _).mpr ⟨hjs, rfl⟩) j hj
  rw [(hc _ _ (reports_first es) (revocations_first es)).1, process_append] at hlast
  have hw := revocations_within v es
  have hu := process_within (process (revocations es) v) (reports es) _ (fun _ h => h)
  rcases hu.rootRevoked j hlast with h | ⟨-, -, h⟩ | ⟨h, -⟩
  · rcases hw.rootRevoked j h with h | ⟨-, -, h⟩ | ⟨-, h | ⟨ks, hks, -⟩⟩
    · exact (hn (hv.root j h)).elim
    · exact h
    · exact (hn h).elim
    · cases ((mem_revocations es _).mp hks).2
  · exact hw.extends_.entry ▸ h
  · cases ((mem_reports es _).mp h).2

theorem settled_old (hd : (es.flatMap issued).Nodup) (hc : Confluent v es) (x : J)
    (hrow : v.Row x) (h : Doomed v es x) : x ∈ v.revoked ∨ ∃ e ∈ es, Hits v x e := by
  have hx := doomed_revoked v es hd hc x h _ (revocations_first es)
  rw [process_append] at hx
  apply held_of_revocations v es x
  apply reports_frame _ (reports es) x (fun e he => ((mem_reports es e).mp he).2) _ hx
  exact row_extends v _ (process_extends _ v) x hrow

theorem settled_new (hv : WellFormed v) (hd : (es.flatMap issued).Nodup)
    (hc : Confluent v es) (x p : J) (hp : .link x p ∈ es) (hnew : ¬ v.Row x)
    (h : Doomed v es x) : v.Recorded p ∨ ∃ e ∈ es, Marks v p e := by
  obtain ⟨as, bs, rfl⟩ := List.append_of_mem hp
  have hrev : revocations (as++.link x p::bs) = revocations (as++bs) := by
    simp [revocations, isRevocation]
  have hfirst : (revocations (as++bs)++.link x p::reports (as++bs)).Perm
      (as++.link x p::bs) :=
    List.perm_middle.trans (((revocations_first (as++bs)).cons _).trans List.perm_middle.symm)
  have hx := doomed_revoked v _ hd hc x h _ hfirst
  rw [process_append, ← hrev] at hx
  have hn : ¬ (process (revocations (as++.link x p::bs)) v).Row x :=
    fun hu => hnew (row_of_revocations v _ x hu)
  have hborn := reports_frame (apply (.link x p) _) (reports (as++bs)) x
    (fun e he => ((mem_reports _ e).mp he).2) ⟨p, (edge_apply _ _ p x).mpr (Or.inr ⟨rfl, hn⟩)⟩ hx
  rcases (revoked_apply _ _ x).mp hborn with hold | ⟨q, hq, -, hrec⟩ | hit
  · exfalso
    rcases held_of_revocations v _ x hold with hold | ⟨e, -, hit⟩
    · exact hnew (hv.row x hold)
    · exact hnew (hits_row v x e hit)
  · obtain ⟨-, rfl⟩ := Event.link.inj hq
    exact known_of_revocations v _ p hrec
  · cases hits_isRevocation _ x _ hit

/-- The order is immaterial exactly if the revocations, met with what is stored
at the start, already strike or mark everything that some order revokes. -/
theorem confluent_iff (hv : WellFormed v) (hd : (es.flatMap issued).Nodup) :
    Confluent v es ↔ Settled v es := by
  constructor
  · intro hc
    exact ⟨fun js hjs j hj hn he => settled_root v es hv hc js hjs j hj hn he,
      fun x hrow h => settled_old v es hd hc x hrow h,
      fun x p hp hnew h => settled_new v es hv hd hc x p hp hnew h⟩
  · exact confluent_of_settled v es hv hd

end Orders

end ControlPlane.LateRevocation
