import Mathlib.Algebra.GroupWithZero.Nat
import Mathlib.Algebra.BigOperators.Group.List.Basic

/-!
# Walks over an explicit stack

A walk pops a value, and the visit of the value ends the walk or pushes more
values. Where a visit pushes less than it pops, the walk ends, and its outcome
is that of any function that follows the visits.
-/

set_option autoImplicit false

namespace ControlPlane.StackWalk
variable {α σ ε : Type*}

/-- Nothing if the rounds do not suffice. -/
def walk (visit : σ → α → Except ε (σ × List α)) : ℕ → σ → List α → Option (Except ε σ)
  | _, s, [] => some (.ok s)
  | 0, _, _::_ => none
  | n+1, s, a::stack =>
    match visit s a with
    | .error e => some (.error e)
    | .ok (s', pushed) => walk visit n s' (pushed++stack)

def stackSize (size : α → ℕ) (stack : List α) : ℕ := (stack.map size).sum

theorem stackSize_append (size : α → ℕ) (as bs : List α) :
    stackSize size (as++bs) = stackSize size as+stackSize size bs := by
  simp [stackSize]

theorem stackSize_reverse (size : α → ℕ) (as : List α) :
    stackSize size as.reverse = stackSize size as := by
  simp [stackSize]

section Visit
variable (visit : σ → α → Except ε (σ × List α))

structure Lowers (size : α → ℕ) : Prop where
  pos : ∀ a, 0 < size a
  less : ∀ s a s' pushed, visit s a = .ok (s', pushed) → stackSize size pushed < size a

structure Follows (outcome : σ → List α → Except ε σ) : Prop where
  nil : ∀ s, outcome s [] = .ok s
  error : ∀ s a stack e, visit s a = .error e → outcome s (a::stack) = .error e
  ok : ∀ s a stack s' pushed, visit s a = .ok (s', pushed) →
    outcome s (a::stack) = outcome s' (pushed++stack)

theorem walk_follows (size : α → ℕ) (outcome : σ → List α → Except ε σ)
    (hl : Lowers visit size) (hf : Follows visit outcome) (n : ℕ) (s : σ) (stack : List α)
    (hn : stackSize size stack ≤ n) : walk visit n s stack = some (outcome s stack) := by
  induction n generalizing s stack with
  | zero =>
    cases stack with
    | nil => rw [walk, hf.nil]
    | cons a stack =>
      have hpos := hl.pos a
      simp only [stackSize, List.map_cons, List.sum_cons] at hn
      omega
  | succ n ih =>
    cases stack with
    | nil => rw [walk, hf.nil]
    | cons a stack =>
      rw [walk]
      cases hv : visit s a with
      | error e => simp only [hf.error s a stack e hv]
      | ok r =>
        obtain ⟨s', pushed⟩ := r
        have hless := hl.less s a s' pushed hv
        have hsize : stackSize size (a::stack) = size a+stackSize size stack := by
          simp [stackSize]
        simp only [hf.ok s a stack s' pushed hv]
        apply ih
        rw [stackSize_append]
        omega

end Visit

end ControlPlane.StackWalk
