import Mathlib.Data.List.Nodup
import Mathlib.Data.Option.Basic
import Mathlib.Logic.Function.Basic
import ControlPlane.RunMachine

/-!
# Named threads over a shared world

Each thread has a name that no other thread gets. An invariant has a part about
the world and a part about each name, which holds of a name before its thread
starts too. A view relates the world of a run to that of a second run from
which the labels of some threads are erased; if an erased step keeps the view
and every other step can be repeated in it, the second run is a run.
-/

set_option autoImplicit false

namespace ControlPlane.NamedPool
open ControlPlane.RunMachine

variable {ω ν τ ε ι ρ : Type*} [DecidableEq ν]

structure Pool (ω ν τ : Type*) where
  world : ω
  thread : ν → Option τ

structure System (ω ν τ ε ι ρ : Type*) where
  env : ε → ω → Option ω
  start : ρ → τ
  act : ν → ι → ω → τ → Option (ω × τ)

inductive Label (ν ε ι ρ : Type*) where
  | env (e : ε)
  | start (n : ν) (r : ρ)
  | act (n : ν) (io : ι)

def step (sys : System ω ν τ ε ι ρ) : Label ν ε ι ρ → Pool ω ν τ → Option (Pool ω ν τ)
  | .env e, p => (sys.env e p.world).map (fun w => ⟨w, p.thread⟩)
  | .start n r, p =>
    if (p.thread n).isNone then
      some ⟨p.world, Function.update p.thread n (some (sys.start r))⟩
    else none
  | .act n io, p => (p.thread n).bind (fun t =>
      (sys.act n io p.world t).map (fun c => ⟨c.1, Function.update p.thread n (some c.2)⟩))

def idle (w : ω) : Pool ω ν τ := ⟨w, fun _ => none⟩

theorem step_env_some (sys : System ω ν τ ε ι ρ) (e : ε) (p q : Pool ω ν τ) :
    step sys (.env e) p = some q ↔ ∃ w, sys.env e p.world = some w ∧ q = ⟨w, p.thread⟩ := by
  simp only [step, Option.map_eq_some_iff]
  exact exists_congr (fun w => and_congr_right (fun _ => eq_comm))

theorem step_start_some (sys : System ω ν τ ε ι ρ) (n : ν) (r : ρ) (p q : Pool ω ν τ) :
    step sys (.start n r) p = some q ↔ p.thread n = none ∧
      q = ⟨p.world, Function.update p.thread n (some (sys.start r))⟩ := by
  simp only [step, Option.isNone_iff_eq_none, Option.ite_none_right_eq_some, Option.some.injEq]
  exact and_congr_right (fun _ => eq_comm)

theorem step_act_some (sys : System ω ν τ ε ι ρ) (n : ν) (io : ι) (p q : Pool ω ν τ) :
    step sys (.act n io) p = some q ↔ ∃ t w u, p.thread n = some t ∧
      sys.act n io p.world t = some (w, u) ∧
      q = ⟨w, Function.update p.thread n (some u)⟩ := by
  simp only [step, Option.bind_eq_some_iff, Option.map_eq_some_iff, Prod.exists]
  constructor
  · rintro ⟨t, ht, w, u, ha, rfl⟩
    exact ⟨t, w, u, ht, ha, rfl⟩
  · rintro ⟨t, w, u, ht, ha, rfl⟩
    exact ⟨t, ht, w, u, ha, rfl⟩

section Invariant

/-- `T` speaks about a name and its thread, if that has started. -/
structure Holds (W : ω → Prop) (T : ν → ω → Option τ → Prop) (p : Pool ω ν τ) : Prop where
  world : W p.world
  thread : ∀ n, T n p.world (p.thread n)

variable (sys : System ω ν τ ε ι ρ) (W : ω → Prop) (T : ν → ω → Option τ → Prop)

structure Kept (ok : Label ν ε ι ρ → Prop) : Prop where
  env : ∀ e w v, ok (.env e) → W w → sys.env e w = some v → W v ∧ ∀ n o, T n w o → T n v o
  start : ∀ n r w, ok (.start n r) → T n w none → T n w (some (sys.start r))
  act : ∀ n io w t v u, ok (.act n io) → W w → T n w (some t) → sys.act n io w t = some (v, u) →
    W v ∧ T n v (some u) ∧ ∀ m o, m ≠ n → T m w o → T m v o

variable {sys W T}

theorem holds_step (ok : Label ν ε ι ρ → Prop) (hkept : Kept sys W T ok) (l : Label ν ε ι ρ)
    (p q : Pool ω ν τ) (hl : ok l) (h : Holds W T p) (hs : step sys l p = some q) :
    Holds W T q := by
  cases l with
  | env e =>
    obtain ⟨w, hw, rfl⟩ := (step_env_some sys e p q).mp hs
    have := hkept.env e p.world w hl h.world hw
    exact ⟨this.1, fun n => this.2 n _ (h.thread n)⟩
  | start n r =>
    obtain ⟨hn, rfl⟩ := (step_start_some sys n r p q).mp hs
    constructor
    · exact h.world
    · intro m
      by_cases hm : m = n
      · subst hm
        simp only [Function.update_self]
        exact hkept.start m r p.world hl (hn ▸ h.thread m)
      · simp only [Function.update_of_ne hm]
        exact h.thread m
  | act n io =>
    obtain ⟨t, w, u, ht, ha, rfl⟩ := (step_act_some sys n io p q).mp hs
    obtain ⟨hw, hself, hother⟩ := hkept.act n io p.world t w u hl h.world (ht ▸ h.thread n) ha
    constructor
    · exact hw
    · intro m
      by_cases hm : m = n
      · subst hm
        simp only [Function.update_self]
        exact hself
      · simp only [Function.update_of_ne hm]
        exact hother m _ hm (h.thread m)

theorem holds_run (ok : Label ν ε ι ρ → Prop) (hkept : Kept sys W T ok)
    (ls : List (Label ν ε ι ρ)) (p q : Pool ω ν τ) (hls : ∀ l ∈ ls, ok l) (h : Holds W T p)
    (hr : run (step sys) ls p = some q) : Holds W T q :=
  run_invariant (step sys) (fun l _ => ok l) (Holds W T)
    (fun l s t hl hs ht => holds_step ok hkept l s t hl hs ht) ls p q
    (guarded_labels (step sys) ok ls p hls) h hr

theorem guarded_holds (ok : Label ν ε ι ρ → Prop) (hkept : Kept sys W T ok)
    (ls : List (Label ν ε ι ρ)) (p : Pool ω ν τ) (hls : ∀ l ∈ ls, ok l) (h : Holds W T p) :
    Guarded (step sys) (fun _ p => Holds W T p) ls p := by
  induction ls generalizing p with
  | nil => trivial
  | cons l ls ih =>
    rw [List.forall_mem_cons] at hls
    constructor
    · exact h
    · exact fun q hq => ih q hls.2 (holds_step ok hkept l p q hls.1 h hq)

end Invariant

section Names
variable (sys : System ω ν τ ε ι ρ)

def starts (ls : List (Label ν ε ι ρ)) : List (ν × ρ) :=
  ls.filterMap (fun l =>
    match l with
    | .start n r => some (n, r)
    | _ => none)

omit [DecidableEq ν] in
theorem mem_starts (ls : List (Label ν ε ι ρ)) (n : ν) (r : ρ) :
    (n, r) ∈ starts ls ↔ .start n r ∈ ls := by
  induction ls with
  | nil => simp [starts]
  | cons l ls ih =>
    unfold starts at ih ⊢
    cases l with
    | env e => simp [ih]
    | start m r' => simp [ih]
    | act m io => simp [ih]

theorem starts_fresh (ls : List (Label ν ε ι ρ)) (p q : Pool ω ν τ)
    (hr : run (step sys) ls p = some q) :
    ((starts ls).map Prod.fst).Nodup ∧ ∀ x ∈ starts ls, p.thread x.1 = none := by
  induction ls generalizing p with
  | nil => exact ⟨List.nodup_nil, by simp [starts]⟩
  | cons l ls ih =>
    obtain ⟨u, hu, hrest⟩ := (run_cons_some (step sys) l ls p q).mp hr
    obtain ⟨hnodup, hnone⟩ := ih u hrest
    have hold : ∀ n t, u.thread n = some t → ∀ x ∈ starts ls, x.1 ≠ n := by
      rintro n t ht x hx rfl
      rw [hnone x hx] at ht
      cases ht
    cases l with
    | env e =>
      obtain ⟨w, -, rfl⟩ := (step_env_some sys e p u).mp hu
      exact ⟨hnodup, hnone⟩
    | start n r =>
      obtain ⟨hn, rfl⟩ := (step_start_some sys n r p u).mp hu
      have hne := hold n _ (Function.update_self n _ p.thread)
      change (((n, r)::starts ls).map Prod.fst).Nodup ∧ ∀ x ∈ (n, r)::starts ls, _
      rw [List.map_cons, List.nodup_cons, List.forall_mem_cons]
      refine ⟨⟨?_, hnodup⟩, hn, ?_⟩
      · intro hmem
        obtain ⟨x, hx, hxn⟩ := List.mem_map.mp hmem
        exact hne x hx hxn
      · intro x hx
        simpa only [Function.update_of_ne (hne x hx)] using hnone x hx
    | act n io =>
      obtain ⟨t, w, t', -, -, rfl⟩ := (step_act_some sys n io p u).mp hu
      refine ⟨hnodup, ?_⟩
      intro x hx
      have hne := hold n _ (Function.update_self n _ p.thread) x hx
      simpa only [Function.update_of_ne hne] using hnone x hx

theorem started_once (ls : List (Label ν ε ι ρ)) (p q : Pool ω ν τ)
    (hr : run (step sys) ls p = some q) (n : ν) (r r' : ρ) (h : .start n r ∈ ls)
    (h' : .start n r' ∈ ls) : r = r' := by
  rw [← mem_starts] at h h'
  exact congrArg Prod.snd (List.inj_on_of_nodup_map (starts_fresh sys ls p q hr).1 h h' rfl)

end Names

section Erasure
variable (mine : ν → Bool)

def keeps : Label ν ε ι ρ → Bool
  | .env _ => true
  | .start n _ => mine n
  | .act n _ => mine n

/-- `V` relates the worlds and `E` the threads of both runs. -/
structure Shows (V : ω → ω → Prop) (E : τ → τ → Prop) (p q : Pool ω ν τ) : Prop where
  world : V p.world q.world
  own : ∀ n, mine n = true → Option.Rel E (p.thread n) (q.thread n)
  other : ∀ n, mine n = false → q.thread n = none

/-- An erased step keeps the view, and the others can be repeated. -/
structure Repeatable (sys : System ω ν τ ε ι ρ) (V : ω → ω → Prop) (E : τ → τ → Prop)
    (ok : Label ν ε ι ρ → Pool ω ν τ → Prop) : Prop where
  env : ∀ e p w v, ok (.env e) p → V p.world v → sys.env e p.world = some w →
    ∃ v', sys.env e v = some v' ∧ V w v'
  start : ∀ r, E (sys.start r) (sys.start r)
  other : ∀ n io p t w u v, mine n = false → ok (.act n io) p → p.thread n = some t →
    sys.act n io p.world t = some (w, u) → V p.world v → V w v
  own : ∀ n io p t w u v s, mine n = true → ok (.act n io) p → p.thread n = some t →
    sys.act n io p.world t = some (w, u) → V p.world v → E t s →
    ∃ v' s', sys.act n io v s = some (v', s') ∧ V w v' ∧ E u s'

variable {mine} {sys : System ω ν τ ε ι ρ} {V : ω → ω → Prop} {E : τ → τ → Prop}
  {ok : Label ν ε ι ρ → Pool ω ν τ → Prop}

theorem shows_update (p q : Pool ω ν τ) (w v : ω) (n : ν) (t s : τ) (h : Shows mine V E p q)
    (hn : mine n = true) (hv : V w v) (ht : E t s) :
    Shows mine V E ⟨w, Function.update p.thread n (some t)⟩
      ⟨v, Function.update q.thread n (some s)⟩ := by
  constructor
  · exact hv
  · intro m hm
    by_cases hmn : m = n
    · subst hmn
      simp only [Function.update_self]
      exact Option.Rel.some ht
    · simp only [Function.update_of_ne hmn]
      exact h.own m hm
  · intro m hm
    have hmn : m ≠ n := by
      rintro rfl
      rw [hn] at hm
      cases hm
    simp only [Function.update_of_ne hmn]
    exact h.other m hm

theorem shows_erased (p q : Pool ω ν τ) (w : ω) (n : ν) (t : τ) (h : Shows mine V E p q)
    (hn : mine n = false) (hv : V w q.world) :
    Shows mine V E ⟨w, Function.update p.thread n (some t)⟩ q := by
  constructor
  · exact hv
  · intro m hm
    have hmn : m ≠ n := by
      rintro rfl
      rw [hn] at hm
      cases hm
    simp only [Function.update_of_ne hmn]
    exact h.own m hm
  · exact h.other

theorem step_kept (hrep : Repeatable mine sys V E ok) (l : Label ν ε ι ρ) (p p' q : Pool ω ν τ)
    (hl : ok l p) (hk : keeps mine l = true) (h : Shows mine V E p q)
    (hs : step sys l p = some p') : ∃ q', step sys l q = some q' ∧ Shows mine V E p' q' := by
  cases l with
  | env e =>
    obtain ⟨w, hw, rfl⟩ := (step_env_some sys e p p').mp hs
    obtain ⟨v, hv, hview⟩ := hrep.env e p w q.world hl h.world hw
    exact ⟨_, (step_env_some sys e q _).mpr ⟨v, hv, rfl⟩, hview, h.own, h.other⟩
  | start n r =>
    obtain ⟨hn, rfl⟩ := (step_start_some sys n r p p').mp hs
    have hq : q.thread n = none := by
      have := h.own n hk
      rw [hn] at this
      cases hqn : q.thread n with
      | none => rfl
      | some s =>
        rw [hqn] at this
        cases this
    exact ⟨_, (step_start_some sys n r q _).mpr ⟨hq, rfl⟩,
      shows_update p q p.world q.world n _ _ h hk h.world (hrep.start r)⟩
  | act n io =>
    obtain ⟨t, w, u, ht, ha, rfl⟩ := (step_act_some sys n io p p').mp hs
    have hrel := h.own n hk
    rw [ht] at hrel
    cases hqn : q.thread n with
    | none =>
      rw [hqn] at hrel
      cases hrel
    | some s =>
      rw [hqn] at hrel
      cases hrel with
      | some he =>
        obtain ⟨v, s', hv, hview, he'⟩ := hrep.own n io p t w u q.world s hk hl ht ha h.world he
        exact ⟨_, (step_act_some sys n io q _).mpr ⟨s, v, s', hqn, hv, rfl⟩,
          shows_update p q w v n u s' h hk hview he'⟩

theorem step_erased (hrep : Repeatable mine sys V E ok) (l : Label ν ε ι ρ) (p p' q : Pool ω ν τ)
    (hl : ok l p) (hk : keeps mine l = false) (h : Shows mine V E p q)
    (hs : step sys l p = some p') : Shows mine V E p' q := by
  cases l with
  | env e => cases hk
  | start n r =>
    obtain ⟨hn, rfl⟩ := (step_start_some sys n r p p').mp hs
    exact shows_erased p q p.world n _ h hk h.world
  | act n io =>
    obtain ⟨t, w, u, ht, ha, rfl⟩ := (step_act_some sys n io p p').mp hs
    exact shows_erased p q w n u h hk (hrep.other n io p t w u q.world hk hl ht ha h.world)

/-- What is left of a run is a run, and shows the same. -/
theorem run_erased (hrep : Repeatable mine sys V E ok) (ls : List (Label ν ε ι ρ))
    (p p' q : Pool ω ν τ) (hg : Guarded (step sys) ok ls p) (h : Shows mine V E p q)
    (hr : run (step sys) ls p = some p') :
    ∃ q', run (step sys) (ls.filter (keeps mine)) q = some q' ∧ Shows mine V E p' q' := by
  induction ls generalizing p q with
  | nil =>
    simp only [run, Option.some.injEq] at hr
    subst hr
    exact ⟨q, rfl, h⟩
  | cons l ls ih =>
    obtain ⟨u, hu, hrest⟩ := (run_cons_some (step sys) l ls p p').mp hr
    cases hk : keeps mine l with
    | false =>
      rw [List.filter_cons_of_neg (by simp [hk])]
      exact ih u q (hg.2 u hu) (step_erased hrep l p u q hg.1 hk h hu) hrest
    | true =>
      obtain ⟨v, hv, hview⟩ := step_kept hrep l p u q hg.1 hk h hu
      obtain ⟨q', hq', hshow⟩ := ih u v (hg.2 u hu) hview hrest
      rw [List.filter_cons_of_pos hk]
      exact ⟨q', (run_cons_some _ l _ q q').mpr ⟨v, hv, hq'⟩, hshow⟩

end Erasure

end ControlPlane.NamedPool
