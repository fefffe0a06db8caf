import Mathlib.Algebra.BigOperators.Group.Finset.Piecewise
import Mathlib.Algebra.Order.BigOperators.Group.Finset
import Mathlib.Algebra.Order.Ring.Int
import ControlPlane.NamedPool

/-!
# Sums over the threads of a pool

Each thread has a share of a quantity of the world. If every step of a thread
raises the quantity by at least as much as the share of that thread, the
quantity is at least the sum of all shares, and if it raises it by exactly as
much it is their sum. Only finitely many threads have started, and the others
have no share.
-/

set_option autoImplicit false

namespace ControlPlane.PoolSums
open ControlPlane.RunMachine ControlPlane.NamedPool

variable {ω ν τ ε ι ρ : Type*} [DecidableEq ν]

def Covers (ns : Finset ν) (p : Pool ω ν τ) : Prop := ∀ n ∉ ns, p.thread n = none

def names (ls : List (Label ν ε ι ρ)) : Finset ν := ((starts ls).map Prod.fst).toFinset

theorem mem_names (ls : List (Label ν ε ι ρ)) (n : ν) :
    n ∈ names ls ↔ ∃ r, Label.start n r ∈ ls := by
  simp [names, mem_starts]

theorem covers_names (sys : System ω ν τ ε ι ρ) (ls : List (Label ν ε ι ρ)) (w : ω)
    (q : Pool ω ν τ) (hr : run (step sys) ls (idle w) = some q) : Covers (names ls) q := by
  apply run_history (step sys) (fun ls q => Covers (names ls) q) (idle w) _ _ ls q hr
  · exact fun n _ => rfl
  · intro before l p q _ hp hs n hn
    have hbefore : n ∉ names before := by
      rw [mem_names] at hn ⊢
      rintro ⟨r, hr⟩
      exact hn ⟨r, List.mem_append_left _ hr⟩
    have hnone := hp n hbefore
    cases l with
    | env e =>
      obtain ⟨v, _, rfl⟩ := (step_env_some sys e p q).mp hs
      exact hnone
    | start m r =>
      obtain ⟨_, rfl⟩ := (step_start_some sys m r p q).mp hs
      have hne : n ≠ m := by
        rintro rfl
        exact hn ((mem_names _ n).mpr ⟨r, by simp⟩)
      exact (Function.update_of_ne hne _ _).trans hnone
    | act m io =>
      obtain ⟨t, v, u, ht, _, rfl⟩ := (step_act_some sys m io p q).mp hs
      have hne : n ≠ m := by
        rintro rfl
        rw [hnone] at ht
        cases ht
      exact (Function.update_of_ne hne _ _).trans hnone

section Sums
variable (g : Option τ → ℤ) (ns : Finset ν) (thread : ν → Option τ)

theorem sum_update (n : ν) (u : Option τ) (hn : n ∈ ns) :
    ∑ m ∈ ns, g (Function.update thread n u m)+g (thread n) =
      ∑ m ∈ ns, g (thread m)+g u := by
  have hshift : ∀ m, g (Function.update thread n u m) =
      Function.update (fun k => g (thread k)) n (g u) m := by
    intro m
    by_cases hm : m = n
    · subst hm
      simp
    · simp [hm]
  rw [Finset.sum_congr rfl (fun m _ => hshift m), Finset.sum_update_of_mem hn,
    Finset.sdiff_singleton_eq_erase, ← Finset.sum_erase_add ns _ hn]
  omega

theorem covers_update (n : ν) (v : ω) (u : τ)
    (h : Covers ns (⟨v, Function.update thread n (some u)⟩ : Pool ω ν τ)) :
    n ∈ ns ∧ ∀ m ∉ ns, m ≠ n → thread m = none := by
  constructor
  · by_contra hn
    have hnone : Function.update thread n (some u) n = none := h n hn
    rw [Function.update_self] at hnone
    cases hnone
  · intro m hm hne
    have hnone : Function.update thread n (some u) m = none := h m hm
    rwa [Function.update_of_ne hne] at hnone

end Sums

section Rules
variable (sys : System ω ν τ ε ι ρ) (c : ω → ℤ) (g : Option τ → ℤ)
variable (ok : Label ν ε ι ρ → Pool ω ν τ → Prop)

/-- The quantity keeps up with the shares. -/
structure Feeds : Prop where
  none : g none = 0
  env : ∀ e w v, sys.env e w = some v → c w ≤ c v
  start : ∀ r, g (some (sys.start r)) ≤ 0
  act : ∀ n io p t v u, ok (.act n io) p → p.thread n = some t →
    sys.act n io p.world t = some (v, u) → c p.world+g (some u) ≤ c v+g (some t)

variable {sys c g ok}

theorem feeds_step (h : Feeds sys c g ok) (l : Label ν ε ι ρ) (p q : Pool ω ν τ) (hl : ok l p)
    (hp : ∀ ns, Covers ns p → ∑ n ∈ ns, g (p.thread n) ≤ c p.world)
    (hs : step sys l p = some q) (ns : Finset ν) (hq : Covers ns q) :
    ∑ n ∈ ns, g (q.thread n) ≤ c q.world := by
  cases l with
  | env e =>
    obtain ⟨w, hw, rfl⟩ := (step_env_some sys e p q).mp hs
    exact (hp ns hq).trans (h.env e p.world w hw)
  | start n r =>
    obtain ⟨hn, rfl⟩ := (step_start_some sys n r p q).mp hs
    obtain ⟨hmem, hrest⟩ := covers_update ns p.thread n _ _ hq
    have hcovers : Covers ns p := by
      intro m hm
      by_cases hne : m = n
      · rw [hne, hn]
      · exact hrest m hm hne
    have hsum := sum_update g ns p.thread n (some (sys.start r)) hmem
    rw [hn, h.none] at hsum
    have := hp ns hcovers
    have := h.start r
    dsimp only
    omega
  | act n io =>
    obtain ⟨t, w, u, ht, ha, rfl⟩ := (step_act_some sys n io p q).mp hs
    obtain ⟨hmem, hrest⟩ := covers_update ns p.thread n _ _ hq
    have hcovers : Covers ns p := by
      intro m hm
      by_cases hne : m = n
      · exact absurd (hne ▸ hmem) hm
      · exact hrest m hm hne
    have hsum := sum_update g ns p.thread n (some u) hmem
    rw [ht] at hsum
    have := hp ns hcovers
    have := h.act n io p t w u hl ht ha
    dsimp only
    omega

theorem sums_le (h : Feeds sys c g ok) (ls : List (Label ν ε ι ρ)) (w : ω) (q : Pool ω ν τ)
    (hok : Guarded (step sys) ok ls (idle w)) (hw : 0 ≤ c w)
    (hr : run (step sys) ls (idle w) = some q) :
    ∑ n ∈ names ls, g (q.thread n) ≤ c q.world := by
  have hall := run_invariant (step sys) ok
    (fun p => ∀ ns, Covers ns p → ∑ n ∈ ns, g (p.thread n) ≤ c p.world)
    (fun l s t hl hs ht => feeds_step h l s t hl hs ht) ls (idle w) q hok
  apply hall _ hr (names ls) (covers_names sys ls w q hr)
  intro ns _
  simp only [idle, h.none, Finset.sum_const_zero]
  exact hw

/-- The quantity changes as the shares do. -/
structure Exact (sys : System ω ν τ ε ι ρ) (c : ω → ℤ) (g : Option τ → ℤ)
    (ok : Label ν ε ι ρ → Pool ω ν τ → Prop) : Prop where
  none : g none = 0
  env : ∀ e w v, sys.env e w = some v → c w = c v
  start : ∀ r, g (some (sys.start r)) = 0
  act : ∀ n io p t v u, ok (.act n io) p → p.thread n = some t →
    sys.act n io p.world t = some (v, u) → c p.world+g (some u) = c v+g (some t)

omit [DecidableEq ν] in
theorem Exact.feeds (h : Exact sys c g ok) : Feeds sys c g ok where
  none := h.none
  env e w v hw := (h.env e w v hw).le
  start r := (h.start r).le
  act n io p t v u hl ht ha := (h.act n io p t v u hl ht ha).le

omit [DecidableEq ν] in
theorem Exact.feeds_neg (h : Exact sys c g ok) :
    Feeds sys (fun w => -c w) (fun o => -g o) ok where
  none := by simp [h.none]
  env e w v hw := by simp [h.env e w v hw]
  start r := by simp [h.start r]
  act n io p t v u hl ht ha := by
    have := h.act n io p t v u hl ht ha
    omega

theorem sums_eq (h : Exact sys c g ok) (ls : List (Label ν ε ι ρ)) (w : ω) (q : Pool ω ν τ)
    (hok : Guarded (step sys) ok ls (idle w)) (hw : c w = 0)
    (hr : run (step sys) ls (idle w) = some q) :
    ∑ n ∈ names ls, g (q.thread n) = c q.world := by
  have hle := sums_le h.feeds ls w q hok hw.ge hr
  have hge := sums_le h.feeds_neg ls w q hok (by omega) hr
  rw [Finset.sum_neg_distrib] at hge
  omega

end Rules

end ControlPlane.PoolSums
