import Mathlib.Order.Basic
import ControlPlane.RunMachine

/-!
# Simulation of runs

A machine simulates another when each admitted step of the one is an admitted
run of the other between the images of its states, possibly an empty one.
Whatever holds of all runs of the simulating machine then holds of the images
of the runs of the simulated one.
-/

set_option autoImplicit false

namespace ControlPlane.RunSimulation
open ControlPlane.RunMachine

variable {σ ι τ κ : Type*}

def Matched (step' : κ → τ → Option τ) (ok' : κ → τ → Prop) (s t : τ) : Prop :=
  ∃ ls, Guarded step' ok' ls s ∧ run step' ls s = some t

theorem matched_stutter (step' : κ → τ → Option τ) (ok' : κ → τ → Prop) (s : τ) :
    Matched step' ok' s s := ⟨[], trivial, rfl⟩

theorem matched_step (step' : κ → τ → Option τ) (ok' : κ → τ → Prop) (l : κ) (s t : τ)
    (hok : ok' l s) (h : step' l s = some t) : Matched step' ok' s t := by
  refine ⟨[l], ⟨hok, fun _ _ => trivial⟩, ?_⟩
  exact (run_cons_some step' l [] s t).mpr ⟨t, h, rfl⟩

theorem matched_trans (step' : κ → τ → Option τ) (ok' : κ → τ → Prop) (s t u : τ)
    (h : Matched step' ok' s t) (h' : Matched step' ok' t u) : Matched step' ok' s u := by
  obtain ⟨as, hga, hra⟩ := h
  obtain ⟨bs, hgb, hrb⟩ := h'
  refine ⟨as++bs, ?_, ?_⟩
  · exact (guarded_append step' ok' as bs s t hra).mpr ⟨hga, hgb⟩
  · exact (run_append_some step' as bs s u).mpr ⟨t, hra, hrb⟩

theorem run_matched (step : ι → σ → Option σ) (ok : ι → σ → Prop) (step' : κ → τ → Option τ)
    (ok' : κ → τ → Prop) (f : σ → τ) (I : σ → Prop)
    (hinv : ∀ l s t, ok l s → I s → step l s = some t → I t)
    (hstep : ∀ l s t, ok l s → I s → step l s = some t → Matched step' ok' (f s) (f t))
    (ls : List ι) (s t : σ) (hg : Guarded step ok ls s) (hi : I s)
    (hr : run step ls s = some t) : Matched step' ok' (f s) (f t) := by
  induction ls generalizing s with
  | nil =>
    simp only [run, Option.some.injEq] at hr
    exact hr ▸ matched_stutter step' ok' (f s)
  | cons l ls ih =>
    obtain ⟨u, hu, hrest⟩ := (run_cons_some step l ls s t).mp hr
    have hfirst := hstep l s u hg.1 hi hu
    have hlast := ih u (hg.2 u hu) (hinv l s u hg.1 hi hu) hrest
    exact matched_trans step' ok' _ _ _ hfirst hlast

theorem guarded_below {α : Type*} [Preorder α] (step : ι → σ → Option σ) (f : σ → α)
    (hmono : ∀ l s t, step l s = some t → f s ≤ f t) (ls : List ι) (s t : σ)
    (hr : run step ls s = some t) : f s ≤ f t ∧ Guarded step (fun _ u => f u ≤ f t) ls s := by
  induction ls generalizing s with
  | nil =>
    simp only [run, Option.some.injEq] at hr
    exact ⟨hr ▸ le_rfl, trivial⟩
  | cons l ls ih =>
    obtain ⟨u, hu, hrest⟩ := (run_cons_some step l ls s t).mp hr
    obtain ⟨hle, hg⟩ := ih u hrest
    have hs := (hmono l s u hu).trans hle
    refine ⟨hs, hs, ?_⟩
    intro v hv
    obtain rfl : u = v := Option.some.inj (hu.symm.trans hv)
    exact hg

end ControlPlane.RunSimulation
