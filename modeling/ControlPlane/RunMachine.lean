import Mathlib.Logic.Basic
import Mathlib.Data.List.Induction

/-!
# Runs of a labelled machine

A machine is a partial step function. The label of a step resolves every
choice that the environment makes, so a list of labels is one interleaving.
A guarded run takes each step in a state where a condition on that state and
label holds; invariants are proved for guarded runs and the empty condition
gives back every run.
-/

set_option autoImplicit false

namespace ControlPlane.RunMachine

variable {σ ι : Type*}

def run (step : ι → σ → Option σ) : List ι → σ → Option σ
  | [], s => some s
  | l::ls, s => (step l s).bind (run step ls)

def Guarded (step : ι → σ → Option σ) (ok : ι → σ → Prop) : List ι → σ → Prop
  | [], _ => True
  | l::ls, s => ok l s ∧ ∀ t, step l s = some t → Guarded step ok ls t

instance decidableGuarded (step : ι → σ → Option σ) (ok : ι → σ → Prop)
    [∀ l s, Decidable (ok l s)] : ∀ ls s, Decidable (Guarded step ok ls s)
  | [], _ => isTrue trivial
  | l::ls, s =>
    have := decidableGuarded step ok ls
    inferInstanceAs (Decidable (ok l s ∧ ∀ t ∈ step l s, Guarded step ok ls t))

theorem run_cons_some (step : ι → σ → Option σ) (l : ι) (ls : List ι) (s t : σ) :
    run step (l::ls) s = some t ↔ ∃ u, step l s = some u ∧ run step ls u = some t := by
  simp [run, Option.bind_eq_some_iff]

theorem run_append (step : ι → σ → Option σ) (as bs : List ι) (s : σ) :
    run step (as++bs) s = (run step as s).bind (run step bs) := by
  induction as generalizing s with
  | nil => rfl
  | cons l ls ih =>
    simp only [List.cons_append, run, Option.bind_assoc]
    congr 1
    funext t
    exact ih t

theorem run_append_some (step : ι → σ → Option σ) (as bs : List ι) (s t : σ) :
    run step (as++bs) s = some t ↔ ∃ u, run step as s = some u ∧ run step bs u = some t := by
  simp [run_append, Option.bind_eq_some_iff]

theorem guarded_append (step : ι → σ → Option σ) (ok : ι → σ → Prop) (as bs : List ι) (s t : σ)
    (hr : run step as s = some t) :
    Guarded step ok (as++bs) s ↔ Guarded step ok as s ∧ Guarded step ok bs t := by
  induction as generalizing s with
  | nil => simp only [run, Option.some.injEq] at hr; simp [Guarded, hr]
  | cons l ls ih =>
    obtain ⟨u, hu, hrest⟩ := (run_cons_some step l ls s t).mp hr
    simp [Guarded, hu, ih u hrest, and_assoc]

theorem guarded_and (step : ι → σ → Option σ) (ok ok' : ι → σ → Prop) (ls : List ι) (s : σ)
    (hg : Guarded step ok ls s) (hg' : Guarded step ok' ls s) :
    Guarded step (fun l s => ok l s ∧ ok' l s) ls s := by
  induction ls generalizing s with
  | nil => trivial
  | cons l ls ih => exact ⟨⟨hg.1, hg'.1⟩, fun t ht => ih t (hg.2 t ht) (hg'.2 t ht)⟩

theorem guarded_always (step : ι → σ → Option σ) (ok : ι → σ → Prop) (ls : List ι) (s : σ)
    (h : ∀ l ∈ ls, ∀ s, ok l s) : Guarded step ok ls s := by
  induction ls generalizing s with
  | nil => trivial
  | cons l ls ih =>
    constructor
    · exact h l List.mem_cons_self s
    · exact fun t _ => ih t (fun m hm => h m (List.mem_cons_of_mem l hm))

theorem guarded_labels (step : ι → σ → Option σ) (P : ι → Prop) (ls : List ι) (s : σ)
    (h : ∀ l ∈ ls, P l) : Guarded step (fun l _ => P l) ls s :=
  guarded_always step (fun l _ => P l) ls s (fun l hl _ => h l hl)

theorem guarded_true (step : ι → σ → Option σ) (ls : List ι) (s : σ) :
    Guarded step (fun _ _ => True) ls s :=
  guarded_always step (fun _ _ => True) ls s (fun _ _ _ => trivial)

/-- What every admitted step preserves, every guarded run preserves. -/
theorem run_invariant (step : ι → σ → Option σ) (ok : ι → σ → Prop) (I : σ → Prop)
    (hstep : ∀ l s t, ok l s → I s → step l s = some t → I t)
    (ls : List ι) (s t : σ) (hg : Guarded step ok ls s) (hi : I s)
    (hr : run step ls s = some t) : I t := by
  induction ls generalizing s with
  | nil => simp only [run, Option.some.injEq] at hr; exact hr ▸ hi
  | cons l ls ih =>
    obtain ⟨u, hu, hrest⟩ := (run_cons_some step l ls s t).mp hr
    exact ih u (hg.2 u hu) (hstep l s u hg.1 hi hu) hrest

/-- An invariant that may speak about the labels so far. -/
theorem run_history (step : ι → σ → Option σ) (I : List ι → σ → Prop) (s : σ) (h0 : I [] s)
    (hstep : ∀ before l t u, run step before s = some t → I before t → step l t = some u →
      I (before++[l]) u)
    (ls : List ι) (t : σ) (hr : run step ls s = some t) : I ls t := by
  induction ls using List.reverseRecOn generalizing t with
  | nil => simp only [run, Option.some.injEq] at hr; exact hr ▸ h0
  | append_singleton before l ih =>
    obtain ⟨u, hu, hl⟩ := (run_append_some step before [l] s t).mp hr
    obtain ⟨v, hv, ht⟩ := (run_cons_some step l [] u t).mp hl
    simp only [run, Option.some.injEq] at ht
    exact hstep before l u t hu (ih u hu) (ht ▸ hv)

def recorded (step : ι → σ → Option σ) (l : ι) (s : List ι × σ) : Option (List ι × σ) :=
  (step l s.2).map (fun t => (s.1++[l], t))

theorem recorded_some (step : ι → σ → Option σ) (l : ι) (s t : List ι × σ) :
    recorded step l s = some t ↔ step l s.2 = some t.2 ∧ t.1 = s.1++[l] := by
  obtain ⟨ls, t⟩ := t
  simp only [recorded, Option.map_eq_some_iff, Prod.mk.injEq]
  constructor
  · rintro ⟨u, hu, rfl, rfl⟩
    exact ⟨hu, rfl⟩
  · rintro ⟨hu, rfl⟩
    exact ⟨t, hu, rfl, rfl⟩

theorem run_recorded (step : ι → σ → Option σ) (ls before : List ι) (s : σ) :
    run (recorded step) ls (before, s) = (run step ls s).map (fun t => (before++ls, t)) := by
  induction ls generalizing before s with
  | nil => simp [run]
  | cons l ls ih =>
    rw [run, run, recorded]
    cases step l s with
    | none => rfl
    | some u =>
      rw [Option.map_some, Option.bind_some, Option.bind_some, ih, List.append_assoc]
      rfl

theorem run_crossing (step : ι → σ → Option σ) (P : σ → Prop) (ls : List ι) (s t : σ)
    (hs : P s) (ht : ¬ P t) (hr : run step ls s = some t) :
    ∃ before l after u v, ls = before++l::after ∧ run step before s = some u ∧ P u ∧
      step l u = some v ∧ ¬ P v ∧ run step after v = some t := by
  induction ls generalizing s with
  | nil => simp only [run, Option.some.injEq] at hr; exact (ht (hr ▸ hs)).elim
  | cons l ls ih =>
    obtain ⟨u, hu, hrest⟩ := (run_cons_some step l ls s t).mp hr
    by_cases hp : P u
    · obtain ⟨before, m, after, x, y, hls, hx, hpx, hm, hpy, ha⟩ := ih u hp hrest
      refine ⟨l::before, m, after, x, y, by simp [hls], ?_, hpx, hm, hpy, ha⟩
      exact (run_cons_some step l before s x).mpr ⟨u, hu, hx⟩
    · exact ⟨[], l, ls, s, u, rfl, rfl, hs, hu, hp, hrest⟩

def countSteps (step : ι → σ → Option σ) (P : ι → σ → σ → Bool) : List ι → σ → ℕ
  | [], _ => 0
  | l::ls, s =>
    match step l s with
    | none => 0
    | some t => (if P l s t then 1 else 0)+countSteps step P ls t

theorem run_count (step : ι → σ → Option σ) (P : ι → σ → σ → Bool) (I : σ → Prop) (f : σ → ℕ)
    (hinv : ∀ l s t, I s → step l s = some t → I t)
    (hstep : ∀ l s t, I s → step l s = some t → f t = f s+(if P l s t then 1 else 0))
    (ls : List ι) (s t : σ) (hi : I s) (hr : run step ls s = some t) :
    f t = f s+countSteps step P ls s := by
  induction ls generalizing s with
  | nil => simp only [run, Option.some.injEq] at hr; simp [countSteps, hr]
  | cons l ls ih =>
    obtain ⟨u, hu, hrest⟩ := (run_cons_some step l ls s t).mp hr
    simp only [countSteps, hu]
    rw [ih u (hinv l s u hi hu) hrest, hstep l s u hi hu, Nat.add_assoc]

end ControlPlane.RunMachine
