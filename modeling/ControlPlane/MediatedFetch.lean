import Mathlib.Data.List.Basic
import Mathlib.Tactic.Common

/-!
# Requests that a check must precede

A log records what has been accepted and what has been contacted. A request is
a chain of hops, since the receiver may answer with a redirect, and which hops
are followed is a mode of the request. At most twenty redirects are followed.
-/

set_option autoImplicit false

namespace ControlPlane.MediatedFetch

inductive Event (U : Type) where
  | accepted (u : U)
  | contacted (u : U)
  deriving DecidableEq, Repr

/-- Every URL is accepted before it is contacted. -/
def Mediated {U : Type} (log : List (Event U)) : Prop :=
  ∀ before u after, log = before++.contacted u::after → .accepted u ∈ before

structure Traced (U ε α : Type) where
  log : List (Event U)
  result : Except ε α

def Traced.bind {U ε α β : Type} (t : Traced U ε α) (f : α → Traced U ε β) : Traced U ε β :=
  match t.result with
  | .error e => ⟨t.log, .error e⟩
  | .ok a => ⟨t.log++(f a).log, (f a).result⟩

inductive RedirectMode where
  | follow
  | error
  | manual
  deriving DecidableEq, Repr

/-- A redirect without a target names no URL that can be requested. -/
inductive Reply (U R : Type) where
  | response (r : R)
  | redirect (target : Option U) (r : R)
  | failed
  deriving DecidableEq, Repr

def maxRedirects : ℕ := 20

section Fetch
variable {U R : Type} (mode : RedirectMode) (serve : ℕ → U → Reply U R)

/-- The URLs that are contacted from a hop on, and the final response. -/
def hops : ℕ → ℕ → U → List U × Option R
  | left, hop, u =>
    match serve hop u with
    | .response r => ([u], some r)
    | .failed => ([u], none)
    | .redirect target r =>
      match mode with
      | .error => ([u], none)
      | .manual => ([u], some r)
      | .follow =>
        match left, target with
        | left+1, some v => (u::(hops left (hop+1) v).1, (hops left (hop+1) v).2)
        | _, _ => ([u], none)

def fetch (u : U) : List U × Option R := hops mode serve maxRedirects 0 u

def RedirectsTo (hop : ℕ) (u v : U) : Prop := ∃ r, serve hop u = .redirect (some v) r

/-- No redirect that is followed from this URL on names another one. -/
def Stays (left hop : ℕ) (u : U) : Prop :=
  ∀ n < left, (∀ m < n, RedirectsTo serve (hop+m) u u) →
    ∀ v, RedirectsTo serve (hop+n) u v → v = u

theorem stays_succ (left hop : ℕ) (u : U) : Stays serve (left+1) hop u ↔
    ∀ v, RedirectsTo serve hop u v → v = u ∧ Stays serve left (hop+1) u := by
  constructor
  · intro h v hv
    have hvu : v = u := h 0 (Nat.succ_pos left) (fun m hm => absurd hm (Nat.not_lt_zero m)) v hv
    subst hvu
    constructor
    · rfl
    · intro n hn hloop w hw
      apply h (n+1) (Nat.succ_lt_succ hn)
      · intro m hm
        cases m with
        | zero => exact hv
        | succ m =>
          have := hloop m (Nat.lt_of_succ_lt_succ hm)
          rwa [Nat.add_right_comm] at this
      · rwa [Nat.add_right_comm] at hw
  · intro h n hn hloop v hv
    cases n with
    | zero => exact (h v hv).1
    | succ n =>
      apply (h u (hloop 0 (Nat.succ_pos n))).2 n (Nat.lt_of_succ_lt_succ hn)
      · intro m hm
        have := hloop (m+1) (Nat.succ_lt_succ hm)
        rwa [← Nat.add_assoc, Nat.add_right_comm] at this
      · rwa [← Nat.add_assoc, Nat.add_right_comm] at hv

theorem hops_single (left hop : ℕ) (u : U) (h : mode ≠ .follow) :
    (hops mode serve left hop u).1 = [u] := by
  unfold hops
  cases serve hop u with
  | response r => rfl
  | failed => rfl
  | redirect target r =>
    cases mode with
    | follow => exact absurd rfl h
    | error => rfl
    | manual => rfl

theorem hops_follow (left hop : ℕ) (u : U) :
    (hops .follow serve left hop u).1 = [u] ∨
      ∃ v n, RedirectsTo serve hop u v ∧ left = n+1 ∧
        (hops .follow serve left hop u).1 = u::(hops .follow serve n (hop+1) v).1 := by
  rw [hops]
  cases hs : serve hop u with
  | response r => exact Or.inl rfl
  | failed => exact Or.inl rfl
  | redirect target r =>
    cases left with
    | zero => exact Or.inl rfl
    | succ left =>
      cases target with
      | none => exact Or.inl rfl
      | some v => exact Or.inr ⟨v, left, ⟨r, hs⟩, rfl, rfl⟩

theorem hops_redirect (left hop : ℕ) (u v : U) (h : RedirectsTo serve hop u v) :
    (hops .follow serve (left+1) hop u).1 = u::(hops .follow serve left (hop+1) v).1 := by
  obtain ⟨r, hr⟩ := h
  rw [hops, hr]

theorem mem_hops (left hop : ℕ) (u : U) : u ∈ (hops .follow serve left hop u).1 := by
  rcases hops_follow serve left hop u with h | ⟨v, n, -, -, h⟩
  · rw [h]
    exact List.mem_singleton_self u
  · rw [h]
    exact List.mem_cons_self

theorem hops_stay (left hop : ℕ) (u : U) :
    (∀ v ∈ (hops .follow serve left hop u).1, v = u) ↔ Stays serve left hop u := by
  induction left generalizing hop with
  | zero =>
    rcases hops_follow serve 0 hop u with h | ⟨v, n, -, hn, -⟩
    · rw [h]
      simp [Stays]
    · cases hn
  | succ left ih =>
    rw [stays_succ]
    constructor
    · intro h v hv
      rw [hops_redirect serve left hop u v hv, List.forall_mem_cons] at h
      have hvu : v = u := h.2 v (mem_hops serve left (hop+1) v)
      subst hvu
      exact ⟨rfl, (ih (hop+1)).mp h.2⟩
    · intro h
      rcases hops_follow serve (left+1) hop u with hu | ⟨v, n, hv, hn, hu⟩
      · rw [hu]
        simp
      · cases hn
        obtain ⟨rfl, hstay⟩ := h v hv
        rw [hu, List.forall_mem_cons]
        exact ⟨rfl, (ih (hop+1)).mpr hstay⟩

end Fetch

section Mediation
variable {U : Type}

theorem mediated_append (xs ys : List (Event U)) (hx : Mediated xs) (hy : Mediated ys) :
    Mediated (xs++ys) := by
  intro before u after h
  rcases List.append_eq_append_iff.mp h with ⟨as, rfl, hys⟩ | ⟨bs, hxs, hbs⟩
  · exact List.mem_append_right xs (hy as u after hys)
  · cases bs with
    | nil =>
      rw [List.append_nil] at hxs
      subst hxs
      exact absurd (hy [] u after hbs.symm) List.not_mem_nil
    | cons e bs =>
      rw [List.cons_append] at hbs
      obtain ⟨rfl, -⟩ := List.cons.inj hbs
      exact hx before u bs hxs

theorem mediated_guarded (u : U) (us : List U) :
    Mediated (.accepted u::us.map .contacted) ↔ ∀ v ∈ us, v = u := by
  constructor
  · intro h v hv
    obtain ⟨as, bs, rfl⟩ := List.append_of_mem hv
    have hmem := h (.accepted u::as.map .contacted) v (bs.map .contacted) (by simp)
    simpa using hmem
  · intro h before v after heq
    cases before with
    | nil => cases heq
    | cons e before =>
      rw [List.cons_append] at heq
      obtain ⟨rfl, htail⟩ := List.cons.inj heq
      have hv : Event.contacted v ∈ us.map Event.contacted := by
        rw [htail]
        simp
      obtain ⟨w, hw, hwv⟩ := List.mem_map.mp hv
      cases hwv
      rw [h v hw]
      exact List.mem_cons_self

end Mediation

end ControlPlane.MediatedFetch
