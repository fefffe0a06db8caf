import Mathlib.Algebra.GroupWithZero.Nat
import ControlPlane.RunMachine

/-!
# Threads over a shared world

The environment may change the world and start one thread; a thread acts by
changing the world and itself, one atomic statement at a time. A modular
invariant has a part about the world, a part about each thread and a
symmetric part about each pair of threads. Its rule asks what one action does
to the acting thread, to the others and to the pairs it belongs to.
-/

set_option autoImplicit false

namespace ControlPlane.ThreadPool
open ControlPlane.RunMachine

variable {ω τ ε ι : Type*}

structure Pool (ω τ : Type*) where
  world : ω
  threads : List τ

structure System (ω τ ε ι : Type*) where
  env : ε → ω → Option (ω × Option τ)
  act : ι → ω → τ → Option (ω × τ)

inductive Label (ε ι : Type*) where
  | env (e : ε)
  | act (i : ℕ) (io : ι)
  deriving DecidableEq

def step (sys : System ω τ ε ι) : Label ε ι → Pool ω τ → Option (Pool ω τ)
  | .env e, p => (sys.env e p.world).map (fun r => ⟨r.1, p.threads++r.2.toList⟩)
  | .act i io, p => p.threads[i]?.bind (fun t =>
      (sys.act io p.world t).map (fun r => ⟨r.1, p.threads.set i r.2⟩))

theorem step_env_some (sys : System ω τ ε ι) (e : ε) (p q : Pool ω τ) :
    step sys (.env e) p = some q ↔
      ∃ w t, sys.env e p.world = some (w, t) ∧ q = ⟨w, p.threads++t.toList⟩ := by
  simp only [step, Option.map_eq_some_iff, Prod.exists]
  constructor
  · rintro ⟨w, t, he, rfl⟩
    exact ⟨w, t, he, rfl⟩
  · rintro ⟨w, t, he, rfl⟩
    exact ⟨w, t, he, rfl⟩

theorem step_act_some (sys : System ω τ ε ι) (i : ℕ) (io : ι) (p q : Pool ω τ) :
    step sys (.act i io) p = some q ↔
      ∃ t w u, p.threads[i]? = some t ∧ sys.act io p.world t = some (w, u) ∧
        q = ⟨w, p.threads.set i u⟩ := by
  simp only [step, Option.bind_eq_some_iff, Option.map_eq_some_iff, Prod.exists]
  constructor
  · rintro ⟨t, ht, w, u, ha, rfl⟩
    exact ⟨t, w, u, ht, ha, rfl⟩
  · rintro ⟨t, w, u, ht, ha, rfl⟩
    exact ⟨t, ht, w, u, ha, rfl⟩

theorem set_self (ts : List τ) (i : ℕ) (t u : τ) (h : ts[i]? = some t) :
    (ts.set i u)[i]? = some u := by
  obtain ⟨hi, _⟩ := List.getElem?_eq_some_iff.mp h
  simp [hi]

theorem set_other (ts : List τ) (i j : ℕ) (u : τ) (h : j ≠ i) :
    (ts.set i u)[j]? = ts[j]? := by
  simp [h.symm]

theorem set_get (ts : List τ) (i j : ℕ) (u v : τ) (h : (ts.set i u)[j]? = some v) :
    (j = i ∧ v = u) ∨ (j ≠ i ∧ ts[j]? = some v) := by
  by_cases hj : j = i
  · subst hj
    obtain ⟨hlt, hv⟩ := List.getElem?_eq_some_iff.mp h
    exact Or.inl ⟨rfl, by simpa using hv.symm⟩
  · exact Or.inr ⟨hj, set_other ts i j u hj ▸ h⟩

theorem countP_set_add (ts : List τ) (i : ℕ) (t u : τ) (P : τ → Bool) (h : ts[i]? = some t) :
    (ts.set i u).countP P+(if P t then 1 else 0) = ts.countP P+(if P u then 1 else 0) := by
  obtain ⟨hi, rfl⟩ := List.getElem?_eq_some_iff.mp h
  have hle : (if P ts[i] then 1 else 0) ≤ ts.countP P := List.boole_getElem_le_countP hi
  rw [List.countP_set hi]
  omega

theorem sum_set_add (ts : List τ) (i : ℕ) (t u : τ) (f : τ → ℕ) (h : ts[i]? = some t) :
    ((ts.set i u).map f).sum+f t = (ts.map f).sum+f u := by
  induction ts generalizing i with
  | nil => simp at h
  | cons x xs ih =>
    cases i with
    | zero =>
      obtain rfl : x = t := by simpa using h
      simp only [List.set_cons_zero, List.map_cons, List.sum_cons]
      omega
    | succ i =>
      have hrest := ih i (by simpa using h)
      simp only [List.set_cons_succ, List.map_cons, List.sum_cons]
      omega

theorem append_get (ts : List τ) (o : Option τ) (j : ℕ) (u : τ)
    (h : (ts++o.toList)[j]? = some u) :
    ts[j]? = some u ∨ (j = ts.length ∧ o = some u) := by
  rcases Nat.lt_or_ge j ts.length with hj | hj
  · exact Or.inl (by rwa [List.getElem?_append_left hj] at h)
  · rw [List.getElem?_append_right hj] at h
    cases o with
    | none => simp at h
    | some t =>
      right
      simp only [Option.toList_some, List.getElem?_singleton] at h
      split_ifs at h with h0
      exact ⟨by omega, h⟩

abbrev At (p : Pool ω τ) (i : ℕ) (P : τ → Prop) : Prop := ∀ t ∈ p.threads[i]?, P t

def Others (p : Pool ω τ) (i : ℕ) (P : τ → Prop) : Prop :=
  ∀ j < p.threads.length, j ≠ i → At p j P

instance (p : Pool ω τ) (i : ℕ) (P : τ → Prop) [DecidablePred P] : Decidable (Others p i P) := by
  unfold Others
  infer_instance

theorem others_get (p : Pool ω τ) (i j : ℕ) (P : τ → Prop) (u : τ) (h : Others p i P)
    (hj : j ≠ i) (hu : p.threads[j]? = some u) : P u := by
  obtain ⟨hlt, _⟩ := List.getElem?_eq_some_iff.mp hu
  exact h j hlt hj u hu

structure Holds (W : ω → Prop) (T : ω → τ → Prop) (Q : ω → τ → τ → Prop)
    (p : Pool ω τ) : Prop where
  world : W p.world
  thread : ∀ (j : ℕ) (u : τ), p.threads[j]? = some u → T p.world u
  pair : ∀ (j k : ℕ) (u v : τ), j ≠ k → p.threads[j]? = some u → p.threads[k]? = some v →
    Q p.world u v

variable {W : ω → Prop} {T : ω → τ → Prop} {Q : ω → τ → τ → Prop}

theorem holds_empty (w : ω) (hw : W w) : Holds W T Q ⟨w, []⟩ :=
  ⟨hw, by simp, by simp⟩

theorem holds_env (p : Pool ω τ) (w : ω) (o : Option τ) (hw : W w)
    (hold : ∀ (j : ℕ) (u : τ), p.threads[j]? = some u → T w u) (hnew : ∀ t, o = some t → T w t)
    (hpair : ∀ (j k : ℕ) (u v : τ), j ≠ k → p.threads[j]? = some u → p.threads[k]? = some v →
      Q w u v)
    (hstart : ∀ (t : τ) (j : ℕ) (u : τ), o = some t → p.threads[j]? = some u → Q w t u ∧ Q w u t) :
    Holds W T Q ⟨w, p.threads++o.toList⟩ := by
  refine ⟨hw, ?_, ?_⟩
  · intro j u hj
    rcases append_get p.threads o j u hj with h | ⟨_, h⟩
    · exact hold j u h
    · exact hnew u h
  · intro j k u v hjk hj hk
    rcases append_get p.threads o j u hj with hu | ⟨hju, hu⟩ <;>
      rcases append_get p.threads o k v hk with hv | ⟨hkv, hv⟩
    · exact hpair j k u v hjk hu hv
    · exact (hstart v j u hv hu).2
    · exact (hstart u k v hu hv).1
    · omega

theorem holds_act (p : Pool ω τ) (i : ℕ) (t' : τ) (w : ω) (hw : W w) (hself : T w t')
    (hother : ∀ (j : ℕ) (u : τ), j ≠ i → p.threads[j]? = some u → T w u)
    (hmine : ∀ (j : ℕ) (u : τ), j ≠ i → p.threads[j]? = some u → Q w t' u ∧ Q w u t')
    (hrest : ∀ (j k : ℕ) (u v : τ), j ≠ i → k ≠ i → j ≠ k → p.threads[j]? = some u →
      p.threads[k]? = some v → Q w u v) :
    Holds W T Q ⟨w, p.threads.set i t'⟩ := by
  refine ⟨hw, ?_, ?_⟩
  · intro j u hj
    rcases set_get _ _ _ _ _ hj with ⟨_, rfl⟩ | ⟨h, hu⟩
    · exact hself
    · exact hother j u h hu
  · intro j k u v hjk hj hk
    rcases set_get _ _ _ _ _ hj with ⟨rfl, rfl⟩ | ⟨h, hu⟩ <;>
      rcases set_get _ _ _ _ _ hk with ⟨h', rfl⟩ | ⟨h', hv⟩
    · exact (hjk h'.symm).elim
    · exact (hmine k v h' hv).1
    · exact (hmine j u h hu).2
    · exact hrest j k u v h h' hjk hu hv

end ControlPlane.ThreadPool
