import ControlPlane.NamedPool

/-!
# Renamed runs

A renaming acts on the world, the threads and the labels of a pool. If every
step of the system commutes with it, so does every run: the renamed labels run
from the renamed state to the renamed end.
-/

set_option autoImplicit false

namespace ControlPlane.RenamedRuns
open ControlPlane.RunMachine ControlPlane.NamedPool

variable {ω ν τ ε ι ρ : Type*} [DecidableEq ν]

structure Renaming (ω τ ε ι ρ : Type*) where
  world : ω → ω
  thread : τ → τ
  env : ε → ε
  io : ι → ι
  request : ρ → ρ

variable (r : Renaming ω τ ε ι ρ)

def Renaming.label : Label ν ε ι ρ → Label ν ε ι ρ
  | .env e => .env (r.env e)
  | .start n q => .start n (r.request q)
  | .act n io => .act n (r.io io)

def Renaming.pool (p : Pool ω ν τ) : Pool ω ν τ :=
  ⟨r.world p.world, fun n => (p.thread n).map r.thread⟩

structure Equivariant (sys : System ω ν τ ε ι ρ) : Prop where
  env : ∀ e w, sys.env (r.env e) (r.world w) = (sys.env e w).map r.world
  start : ∀ q, sys.start (r.request q) = r.thread (sys.start q)
  act : ∀ n io w t, sys.act n (r.io io) (r.world w) (r.thread t) =
    (sys.act n io w t).map (fun c => (r.world c.1, r.thread c.2))

theorem pool_update (w : ω) (thread : ν → Option τ) (n : ν) (t : τ) :
    r.pool ⟨w, Function.update thread n (some t)⟩ =
      ⟨r.world w, Function.update (r.pool ⟨w, thread⟩).thread n (some (r.thread t))⟩ := by
  simp only [Renaming.pool, Pool.mk.injEq, true_and]
  funext m
  by_cases hm : m = n
  · subst hm
    simp
  · simp [hm]

variable {r} {sys : System ω ν τ ε ι ρ}

theorem step_renamed (h : Equivariant r sys) (l : Label ν ε ι ρ) (p : Pool ω ν τ) :
    step sys (r.label l) (r.pool p) = (step sys l p).map r.pool := by
  cases l with
  | env e =>
    change (sys.env (r.env e) (r.world p.world)).map _ = ((sys.env e p.world).map _).map _
    rw [h.env, Option.map_map, Option.map_map]
    rfl
  | start n q =>
    simp only [step, Renaming.label]
    have hnone : ((r.pool p).thread n).isNone = (p.thread n).isNone := by
      simp [Renaming.pool]
    rw [hnone]
    split_ifs
    · rw [Option.map_some, pool_update, h.start]
      rfl
    · rfl
  | act n io =>
    simp only [step, Renaming.label]
    have hthread : (r.pool p).thread n = (p.thread n).map r.thread := rfl
    rw [hthread]
    cases p.thread n with
    | none => rfl
    | some t =>
      simp only [Option.map_some, Option.bind_some]
      change (sys.act n (r.io io) (r.world p.world) (r.thread t)).map _ = _
      rw [h.act, Option.map_map, Option.map_map]
      congr 1
      funext c
      exact (pool_update r c.1 p.thread n c.2).symm

theorem run_renamed (h : Equivariant r sys) (ls : List (Label ν ε ι ρ)) (p : Pool ω ν τ) :
    run (step sys) (ls.map r.label) (r.pool p) = (run (step sys) ls p).map r.pool := by
  induction ls generalizing p with
  | nil => rfl
  | cons l ls ih =>
    rw [List.map_cons, run, run, step_renamed h]
    cases step sys l p with
    | none => rfl
    | some q =>
      rw [Option.map_some, Option.bind_some, Option.bind_some]
      exact ih q

end ControlPlane.RenamedRuns
