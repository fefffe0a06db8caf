import Mathlib.Data.List.Dedup
import Mathlib.Data.List.Perm.Subperm
import Mathlib.Logic.Relation

/-!
# Recursive queries over a finite edge list

`with recursive … union …`: the result starts as the targets of one node, each
round adds the targets of the last round's rows that are not yet in the
result, and the query ends with a round that adds nothing. The bound on the
rounds is never reached, and the result is the set of nodes reachable by one
or more edges, for any graph.
-/

set_option autoImplicit false

namespace ControlPlane.RecursiveQuery

variable {α : Type*} [DecidableEq α]

def targets (edges : List (α × α)) (working : List α) : List α :=
  (edges.filter (fun e => e.1 ∈ working)).map Prod.snd

theorem mem_targets (edges : List (α × α)) (working : List α) (x : α) :
    x ∈ targets edges working ↔ ∃ a ∈ working, (a, x) ∈ edges := by
  simp only [targets, List.mem_map, List.mem_filter, decide_eq_true_eq]
  constructor
  · rintro ⟨e, ⟨he, hw⟩, rfl⟩
    exact ⟨e.1, hw, he⟩
  · rintro ⟨a, ha, he⟩
    exact ⟨(a, x), ⟨he, ha⟩, rfl⟩

def added (edges : List (α × α)) (found working : List α) : List α :=
  ((targets edges working).filter (· ∉ found)).dedup

theorem mem_added (edges : List (α × α)) (found working : List α) (x : α) :
    x ∈ added edges found working ↔ (∃ a ∈ working, (a, x) ∈ edges) ∧ x ∉ found := by
  simp [added, mem_targets]

/-- Nothing when the bound runs out before a round adds no row. -/
def rounds (edges : List (α × α)) : ℕ → List α → List α → Option (List α)
  | _, found, [] => some found
  | 0, _, _::_ => none
  | n+1, found, a::working =>
    let next := added edges found (a::working)
    rounds edges n (found++next) next

def base (edges : List (α × α)) (root : α) : List α := (targets edges [root]).dedup

theorem mem_base (edges : List (α × α)) (root x : α) :
    x ∈ base edges root ↔ (root, x) ∈ edges := by
  simp [base, mem_targets]

def descendants? (edges : List (α × α)) (root : α) : Option (List α) :=
  rounds edges (edges.length+1) (base edges root) (base edges root)

def descendants (edges : List (α × α)) (root : α) : List α :=
  (descendants? edges root).getD []

def Edge (edges : List (α × α)) (a b : α) : Prop := (a, b) ∈ edges

theorem added_nodup (edges : List (α × α)) (found working : List α) (hn : found.Nodup) :
    (found++added edges found working).Nodup := by
  apply List.nodup_append.mpr ⟨hn, List.nodup_dedup _, ?_⟩
  rintro x hx y hy rfl
  exact ((mem_added edges found working x).mp hy).2 hx

section Universe
variable (edges : List (α × α)) (rows : List α) (hu : ∀ a b, (a, b) ∈ edges → b ∈ rows)

include hu

theorem added_within (found working : List α) (hs : found ⊆ rows) :
    found++added edges found working ⊆ rows := by
  intro x hx
  rcases List.mem_append.mp hx with hf | ha
  · exact hs hf
  · obtain ⟨⟨a, -, he⟩, -⟩ := (mem_added edges found working x).mp ha
    exact hu a x he

theorem rounds_isSome_within (n : ℕ) (found working : List α) (hn : found.Nodup)
    (hs : found ⊆ rows) (hb : working = [] ∨ rows.length < n+found.length) :
    (rounds edges n found working).isSome = true := by
  induction n generalizing found working with
  | zero =>
    cases working with
    | nil => rfl
    | cons a ws =>
      have := (hn.subperm hs).length_le
      simp only [reduceCtorEq, false_or] at hb
      omega
  | succ n ih =>
    cases working with
    | nil => rfl
    | cons a ws =>
      simp only [reduceCtorEq, false_or] at hb
      apply ih _ _ (added_nodup edges found _ hn) (added_within edges rows hu found _ hs)
      by_cases he : added edges found (a::ws) = []
      · exact Or.inl he
      · have := List.length_pos_of_ne_nil he
        right
        simp only [List.length_append]
        omega

end Universe

theorem rounds_isSome (edges : List (α × α)) (n : ℕ) (found working : List α)
    (hn : found.Nodup) (hs : ∀ x ∈ found, ∃ a, (a, x) ∈ edges)
    (hb : working = [] ∨ edges.length < n+found.length) :
    (rounds edges n found working).isSome = true := by
  apply rounds_isSome_within edges (edges.map Prod.snd) ?_ n found working hn ?_ (by simpa using hb)
  · intro a b he
    exact List.mem_map.mpr ⟨(a, b), he, rfl⟩
  · intro x hx
    obtain ⟨a, ha⟩ := hs x hx
    exact List.mem_map.mpr ⟨(a, x), ha, rfl⟩

theorem rounds_nodup (edges : List (α × α)) (n : ℕ) (found working result : List α)
    (hr : rounds edges n found working = some result) (hn : found.Nodup) : result.Nodup := by
  induction n generalizing found working with
  | zero =>
    cases working with
    | nil => simp only [rounds, Option.some.injEq] at hr; exact hr ▸ hn
    | cons a ws => simp [rounds] at hr
  | succ n ih =>
    cases working with
    | nil => simp only [rounds, Option.some.injEq] at hr; exact hr ▸ hn
    | cons a ws => exact ih _ _ hr (added_nodup edges found _ hn)

theorem descendants?_isSome (edges : List (α × α)) (root : α) :
    (descendants? edges root).isSome = true := by
  apply rounds_isSome edges _ _ _ (List.nodup_dedup _) ?_ (Or.inr (by omega))
  intro x hx
  exact ⟨root, (mem_base edges root x).mp hx⟩

theorem rounds_sound (edges : List (α × α)) (P : α → Prop)
    (hP : ∀ a b, P a → (a, b) ∈ edges → P b) (n : ℕ) (found working result : List α)
    (hr : rounds edges n found working = some result)
    (hf : ∀ x ∈ found, P x) (hw : ∀ x ∈ working, x ∈ found) : ∀ x ∈ result, P x := by
  induction n generalizing found working with
  | zero =>
    cases working with
    | nil => simp only [rounds, Option.some.injEq] at hr; exact hr ▸ hf
    | cons a ws => simp [rounds] at hr
  | succ n ih =>
    cases working with
    | nil => simp only [rounds, Option.some.injEq] at hr; exact hr ▸ hf
    | cons a ws =>
      apply ih _ _ hr ?_ (fun x hx => List.mem_append_right _ hx)
      intro x hx
      rcases List.mem_append.mp hx with h | h
      · exact hf x h
      · obtain ⟨⟨b, hb, he⟩, -⟩ := (mem_added edges found _ x).mp h
        exact hP b x (hf b (hw b hb)) he

/-- Only the rows of the last round may have targets outside of the result. -/
def Frontier (edges : List (α × α)) (found working : List α) : Prop :=
  ∀ a ∈ found, a ∉ working → ∀ b, (a, b) ∈ edges → b ∈ found

theorem frontier_added (edges : List (α × α)) (found working : List α)
    (h : Frontier edges found working) :
    Frontier edges (found++added edges found working) (added edges found working) := by
  intro a ha hn b hb
  have hfound : a ∈ found := (List.mem_append.mp ha).resolve_right hn
  by_cases hw : a ∈ working
  · by_cases hbf : b ∈ found
    · exact List.mem_append_left _ hbf
    · exact List.mem_append_right _ ((mem_added edges found working b).mpr ⟨⟨a, hw, hb⟩, hbf⟩)
  · exact List.mem_append_left _ (h a hfound hw b hb)

theorem rounds_closed (edges : List (α × α)) (n : ℕ) (found working result : List α)
    (hr : rounds edges n found working = some result) (h : Frontier edges found working) :
    (∀ x ∈ found, x ∈ result) ∧ ∀ a ∈ result, ∀ b, (a, b) ∈ edges → b ∈ result := by
  induction n generalizing found working with
  | zero =>
    cases working with
    | nil =>
      simp only [rounds, Option.some.injEq] at hr
      exact hr ▸ ⟨fun x hx => hx, fun a ha => h a ha List.not_mem_nil⟩
    | cons a ws => simp [rounds] at hr
  | succ n ih =>
    cases working with
    | nil =>
      simp only [rounds, Option.some.injEq] at hr
      exact hr ▸ ⟨fun x hx => hx, fun a ha => h a ha List.not_mem_nil⟩
    | cons a ws =>
      obtain ⟨hsub, hclosed⟩ := ih _ _ hr (frontier_added edges found _ h)
      exact ⟨fun x hx => hsub x (List.mem_append_left _ hx), hclosed⟩

theorem descendants_eq (edges : List (α × α)) (root : α) :
    descendants? edges root = some (descendants edges root) := by
  obtain ⟨result, h⟩ := Option.isSome_iff_exists.mp (descendants?_isSome edges root)
  simp [descendants, h]

theorem descendants_child (edges : List (α × α)) (root x : α) (h : (root, x) ∈ edges) :
    x ∈ descendants edges root := by
  have hc := rounds_closed edges _ _ _ _ (descendants_eq edges root)
    (fun a ha hn => (hn ha).elim)
  exact hc.1 x ((mem_base edges root x).mpr h)

theorem descendants_closed (edges : List (α × α)) (root a b : α)
    (ha : a ∈ descendants edges root) (h : (a, b) ∈ edges) : b ∈ descendants edges root := by
  have hc := rounds_closed edges _ _ _ _ (descendants_eq edges root)
    (fun a ha hn => (hn ha).elim)
  exact hc.2 a ha b h

/-- The result is reachability by one or more edges. -/
theorem mem_descendants (edges : List (α × α)) (root x : α) :
    x ∈ descendants edges root ↔ Relation.TransGen (Edge edges) root x := by
  constructor
  · apply rounds_sound edges (Relation.TransGen (Edge edges) root) ?_ _ _ _ _
      (descendants_eq edges root) ?_ (fun x hx => hx) x
    · intro a b ha hb
      exact ha.tail hb
    · intro y hy
      exact .single ((mem_base edges root y).mp hy)
  · intro h
    induction h with
    | single hb => exact descendants_child edges root _ hb
    | tail _ hb ih => exact descendants_closed edges root _ _ ih hb

theorem mem_rounds (edges : List (α × α)) (n : ℕ) (start result : List α)
    (hr : rounds edges n start start = some result) (x : α) :
    x ∈ result ↔ ∃ a ∈ start, Relation.ReflTransGen (Edge edges) a x := by
  have hc := rounds_closed edges n start start result hr (fun a ha hn => (hn ha).elim)
  constructor
  · apply rounds_sound edges (fun y => ∃ a ∈ start, Relation.ReflTransGen (Edge edges) a y) ?_
      n start start result hr ?_ (fun y hy => hy) x
    · rintro a b ⟨s, hs, h⟩ hb
      exact ⟨s, hs, h.tail hb⟩
    · intro y hy
      exact ⟨y, hy, .refl⟩
  · rintro ⟨a, ha, h⟩
    induction h with
    | refl => exact hc.1 a ha
    | tail _ hb ih => exact hc.2 _ ih _ hb

end ControlPlane.RecursiveQuery
