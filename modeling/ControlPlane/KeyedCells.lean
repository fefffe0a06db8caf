import Mathlib.Data.List.Basic
import Mathlib.Logic.Function.Basic

/-!
# Runs over independent cells

A state is one cell for each key. An event leaves the cells alone, works on
the cell of one key and answers, or does the same to every cell. What a run
answers at one key is a matter of the events that touch its cell.
-/

set_option autoImplicit false

namespace ControlPlane.KeyedCells

variable {κ σ ω ε : Type*} [DecidableEq κ]

inductive Touch (κ σ ω : Type*) where
  | idle
  | one (key : κ) (f : σ → σ × ω)
  | all (f : σ → σ)

def apply : Touch κ σ ω → (κ → σ) → κ → σ
  | .idle, s => s
  | .one key f, s => Function.update s key (f (s key)).1
  | .all f, s => fun k => f (s k)

def answer : Touch κ σ ω → (κ → σ) → Option ω
  | .one key f, s => some (f (s key)).2
  | _, _ => none

def touches (k : κ) : Touch κ σ ω → Bool
  | .idle => false
  | .one key _ => key = k
  | .all _ => true

def At (k : κ) : Touch κ σ ω → Prop
  | .idle => True
  | .one key _ => key = k
  | .all _ => True

theorem apply_untouched (k : κ) (a : Touch κ σ ω) (s : κ → σ) (h : touches k a = false) :
    apply a s k = s k := by
  cases a with
  | idle => rfl
  | one key f =>
    have hne : k ≠ key := by
      rintro rfl
      simp [touches] at h
    simp [apply, hne]
  | all f => cases h

theorem apply_congr (k : κ) (a : Touch κ σ ω) (s t : κ → σ) (h : s k = t k) :
    apply a s k = apply a t k := by
  cases a with
  | idle => exact h
  | one key f =>
    by_cases hk : k = key
    · subst hk
      simp [apply, h]
    · simp [apply, hk, h]
  | all f => simp [apply, h]

omit [DecidableEq κ] in
theorem answer_congr (k : κ) (a : Touch κ σ ω) (s t : κ → σ) (h : s k = t k) (ha : At k a) :
    answer a s = answer a t := by
  cases a with
  | idle => rfl
  | one key f =>
    obtain rfl : key = k := ha
    simp [answer, h]
  | all f => rfl

section Runs
variable (touch : ε → Touch κ σ ω) (watched : ε → Bool)

def after (es : List ε) (s : κ → σ) : κ → σ := es.foldl (fun s e => apply (touch e) s) s

def answers : List ε → (κ → σ) → List (Option ω)
  | [], _ => []
  | e::es, s =>
    if watched e then answer (touch e) s::answers es (apply (touch e) s)
    else answers es (apply (touch e) s)

theorem answers_append (es es' : List ε) (s : κ → σ) :
    answers touch watched (es++es') s =
      answers touch watched es s++answers touch watched es' (after touch es s) := by
  induction es generalizing s with
  | nil => rfl
  | cons e es ih =>
    rw [List.cons_append, answers, answers, ih]
    by_cases h : watched e = true
    · rw [if_pos h, if_pos h]
      rfl
    · rw [if_neg h, if_neg h]
      rfl

theorem answers_unwatched (es : List ε) (s : κ → σ) (h : ∀ e ∈ es, watched e = false) :
    answers touch watched es s = [] := by
  induction es generalizing s with
  | nil => rfl
  | cons e es ih =>
    rw [answers, if_neg (by simp [h e List.mem_cons_self])]
    exact ih _ (fun x hx => h x (List.mem_cons_of_mem e hx))

theorem answers_filter (k : κ) (p : ε → Bool) (es : List ε) (s t : κ → σ) (h : s k = t k)
    (hw : ∀ e ∈ es, watched e = true → p e = true ∧ At k (touch e))
    (hp : ∀ e ∈ es, p e = false → touches k (touch e) = false) :
    answers touch watched es s = answers touch watched (es.filter p) t := by
  induction es generalizing s t with
  | nil => rfl
  | cons e es ih =>
    have hw' : ∀ x ∈ es, watched x = true → p x = true ∧ At k (touch x) :=
      fun x hx => hw x (List.mem_cons_of_mem e hx)
    have hp' : ∀ x ∈ es, p x = false → touches k (touch x) = false :=
      fun x hx => hp x (List.mem_cons_of_mem e hx)
    cases he : p e with
    | true =>
      rw [List.filter_cons_of_pos he, answers, answers]
      have hnext := ih _ _ (apply_congr k (touch e) s t h) hw' hp'
      by_cases hwe : watched e = true
      · rw [if_pos hwe, if_pos hwe, hnext,
          answer_congr k (touch e) s t h (hw e List.mem_cons_self hwe).2]
      · rw [if_neg hwe, if_neg hwe, hnext]
    | false =>
      have hwe : ¬ watched e = true := by
        intro hwe
        have hpe := (hw e List.mem_cons_self hwe).1
        rw [he] at hpe
        cases hpe
      rw [List.filter_cons_of_neg (by simp [he]), answers, if_neg hwe]
      apply ih _ _ ?_ hw' hp'
      rw [apply_untouched k (touch e) s (hp e List.mem_cons_self he), h]

end Runs

end ControlPlane.KeyedCells
