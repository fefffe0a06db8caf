import Mathlib.Data.List.Count
import Mathlib.Data.List.Induction
import Mathlib.Order.Lattice

/-!
# Counters of fixed windows

A window starts with the first request that finds no window open, and counts
the requests it lets through. A window is past from some time on. Two requests
with two windows between them are further apart than one window is long.
-/

set_option autoImplicit false

namespace ControlPlane.FixedWindow
variable {τ β : Type*}

structure Counter (β : Type*) where
  count : ℕ
  ends : β

structure Rule (τ β : Type*) where
  past : β → τ → Bool
  endOf : τ → β
  limit : ℕ

/-- The counter, if there is one, and the number of windows so far. -/
structure Cell (β : Type*) where
  counter : Option (Counter β)
  windows : ℕ

structure Admission (τ β : Type*) where
  time : τ
  window : ℕ
  ends : β
  allowed : Bool

variable (R : Rule τ β)

def live (now : τ) (c : Option (Counter β)) : Option (Counter β) :=
  c.filter (fun c => !R.past c.ends now)

def arrive (now : τ) (s : Cell β) : Cell β × Admission τ β :=
  let c := (live R now s.counter).getD ⟨0, R.endOf now⟩
  let n := if (live R now s.counter).isNone then s.windows+1 else s.windows
  if R.limit ≤ c.count then (⟨some c, n⟩, ⟨now, n, c.ends, false⟩)
  else (⟨some ⟨c.count+1, c.ends⟩, n⟩, ⟨now, n, c.ends, true⟩)

def allowedIn (n : ℕ) (as : List (Admission τ β)) : ℕ :=
  as.countP (fun a => a.allowed && a.window = n)

theorem allowedIn_snoc (n : ℕ) (as : List (Admission τ β)) (a : Admission τ β) :
    allowedIn n (as++[a]) =
      if a.allowed = true ∧ a.window = n then allowedIn n as+1 else allowedIn n as := by
  simp only [allowedIn, List.countP_append, List.countP_singleton, Bool.and_eq_true,
    decide_eq_true_eq]
  split_ifs <;> rfl

theorem allowedIn_zero (n : ℕ) (as : List (Admission τ β)) (h : ∀ a ∈ as, a.window ≠ n) :
    allowedIn n as = 0 := by
  rw [allowedIn, List.countP_eq_zero]
  intro a ha
  simp [h a ha]

theorem arrive_live (now : τ) (s : Cell β) (c : Counter β) (h : live R now s.counter = some c) :
    arrive R now s =
      if R.limit ≤ c.count then (⟨some c, s.windows⟩, ⟨now, s.windows, c.ends, false⟩)
      else (⟨some ⟨c.count+1, c.ends⟩, s.windows⟩, ⟨now, s.windows, c.ends, true⟩) := by
  simp only [arrive, h, Option.getD_some, Option.isNone_some, Bool.false_eq_true, if_false]

theorem arrive_fresh (hpos : 0 < R.limit) (now : τ) (s : Cell β) (h : live R now s.counter = none) :
    arrive R now s = (⟨some ⟨1, R.endOf now⟩, s.windows+1⟩,
      ⟨now, s.windows+1, R.endOf now, true⟩) := by
  simp only [arrive, h, Option.getD_none, Option.isNone_none, if_true, Nat.le_zero]
  rw [if_neg (by omega)]

theorem live_some (now : τ) (o : Option (Counter β)) (c : Counter β)
    (h : live R now o = some c) : o = some c ∧ R.past c.ends now = false := by
  simpa [live, Option.filter_eq_some_iff] using h

theorem past_of_live_none (now : τ) (c : Counter β) (h : live R now (some c) = none) :
    R.past c.ends now = true := by
  simpa [live, Option.filter_eq_none_iff] using h

theorem arrive_last (now : τ) (s : Cell β) : (arrive R now s).2.time = now ∧
    (arrive R now s).2.window = (arrive R now s).1.windows ∧
    ∃ c, (arrive R now s).1.counter = some c ∧ c.ends = (arrive R now s).2.ends := by
  simp only [arrive]
  split_ifs <;> exact ⟨rfl, rfl, _, rfl, rfl⟩

variable [LinearOrder τ]

inductive Reached : List (Admission τ β) → Cell β → Prop
  | start : Reached [] ⟨none, 0⟩
  | arrive (as : List (Admission τ β)) (s : Cell β) (now : τ) (h : Reached as s)
      (ht : ∀ a ∈ as, a.time ≤ now) :
      Reached (as++[(arrive R now s).2]) (arrive R now s).1

def Lasting : Prop := ∀ e s t, R.past e s = true → s ≤ t → R.past e t = true

/-- The counter counts the current window, which one of the admissions has
started, and the earlier ones were past by then. -/
structure Counted (as : List (Admission τ β)) (s : Cell β) : Prop where
  unused : s.counter = none → as = []
  count : ∀ c, s.counter = some c → c.count = allowedIn s.windows as ∧ c.count ≤ R.limit
  started : ∀ c, s.counter = some c → ∃ b ∈ as, c.ends = R.endOf b.time ∧
    ∀ a ∈ as, a.window = s.windows ∧ a.ends = c.ends ∨
      a.window < s.windows ∧ R.past a.ends b.time = true

section Rules
variable {R} (hpos : 0 < R.limit) (hlast : Lasting R)

omit [LinearOrder τ] in
theorem live_counted (as : List (Admission τ β)) (s : Cell β) (now : τ) (c : Counter β)
    (hl : live R now s.counter = some c) (h : Counted R as s) :
    Counted R (as++[(arrive R now s).2]) (arrive R now s).1 := by
  obtain ⟨hc, -⟩ := live_some R now _ c hl
  obtain ⟨hcount, hle⟩ := h.count c hc
  obtain ⟨b, hb, hends, hall⟩ := h.started c hc
  rw [arrive_live R now s c hl]
  split_ifs with hfull
  · constructor
    · intro hnone
      cases hnone
    · rintro _ ⟨⟩
      rw [allowedIn_snoc]
      exact ⟨by simpa using hcount, hle⟩
    · rintro _ ⟨⟩
      refine ⟨b, List.mem_append_left _ hb, hends, ?_⟩
      rw [List.forall_mem_append, List.forall_mem_singleton]
      exact ⟨hall, Or.inl ⟨rfl, rfl⟩⟩
  · constructor
    · intro hnone
      cases hnone
    · rintro _ ⟨⟩
      rw [allowedIn_snoc]
      exact ⟨by simpa using hcount, by simp only; omega⟩
    · rintro _ ⟨⟩
      refine ⟨b, List.mem_append_left _ hb, hends, ?_⟩
      rw [List.forall_mem_append, List.forall_mem_singleton]
      exact ⟨hall, Or.inl ⟨rfl, rfl⟩⟩

include hpos hlast in
theorem fresh_counted (as : List (Admission τ β)) (s : Cell β) (now : τ)
    (hl : live R now s.counter = none) (ht : ∀ a ∈ as, a.time ≤ now) (h : Counted R as s) :
    Counted R (as++[(arrive R now s).2]) (arrive R now s).1 := by
  have hbefore : ∀ a ∈ as, a.window < s.windows+1 ∧ R.past a.ends now = true := by
    cases hc : s.counter with
    | none =>
      rw [h.unused hc]
      simp
    | some c =>
      rw [hc] at hl
      have hpast := past_of_live_none R now c hl
      obtain ⟨b, hb, -, hall⟩ := h.started c hc
      intro a ha
      rcases hall a ha with ⟨hw, he⟩ | ⟨hw, hp⟩
      · exact ⟨by omega, he ▸ hpast⟩
      · exact ⟨by omega, hlast _ _ _ hp (ht b hb)⟩
  rw [arrive_fresh R hpos now s hl]
  constructor
  · intro hnone
    cases hnone
  · rintro _ ⟨⟩
    rw [allowedIn_snoc, allowedIn_zero (s.windows+1) as (fun a ha => Nat.ne_of_lt (hbefore a ha).1)]
    exact ⟨by simp, hpos⟩
  · rintro _ ⟨⟩
    refine ⟨_, List.mem_append_right _ (List.mem_singleton_self _), rfl, ?_⟩
    rw [List.forall_mem_append, List.forall_mem_singleton]
    exact ⟨fun a ha => Or.inr (hbefore a ha), Or.inl ⟨rfl, rfl⟩⟩

include hpos hlast in
theorem reached_counted (as : List (Admission τ β)) (s : Cell β) (h : Reached R as s) :
    Counted R as s := by
  induction h with
  | start =>
    constructor
    · exact fun _ => rfl
    · intro c hc
      cases hc
    · intro c hc
      cases hc
  | arrive as s now h ht ih =>
    cases hl : live R now s.counter with
    | none => exact fresh_counted hpos hlast as s now hl ht ih
    | some c => exact live_counted as s now c hl ih

include hpos hlast in
theorem window_bound (as : List (Admission τ β)) (s : Cell β) (h : Reached R as s) (n : ℕ) :
    allowedIn n as ≤ R.limit := by
  induction h with
  | start => exact Nat.zero_le _
  | arrive as s now h ht ih =>
    have hcounted := reached_counted hpos hlast _ _ (Reached.arrive as s now h ht)
    obtain ⟨-, hwindow, c, hc, -⟩ := arrive_last R now s
    obtain ⟨hcount, hle⟩ := hcounted.count c hc
    by_cases hn : (arrive R now s).2.window = n
    · rw [← hn, hwindow, ← hcount]
      exact hle
    · rw [allowedIn_snoc, if_neg (fun hand => hn hand.2)]
      exact ih

omit [LinearOrder τ] in
include hpos in
theorem denied_full (as : List (Admission τ β)) (s : Cell β) (now : τ)
    (hcount : ∀ c, s.counter = some c → c.count = allowedIn s.windows as ∧ c.count ≤ R.limit)
    (hd : (arrive R now s).2.allowed = false) :
    allowedIn (arrive R now s).2.window as = R.limit := by
  cases hl : live R now s.counter with
  | none =>
    rw [arrive_fresh R hpos now s hl] at hd
    cases hd
  | some c =>
    obtain ⟨hc, -⟩ := live_some R now _ c hl
    obtain ⟨heq, hle⟩ := hcount c hc
    rw [arrive_live R now s c hl] at hd ⊢
    split_ifs at hd ⊢ with hfull
    · show allowedIn s.windows as = R.limit
      omega

theorem reached_prefix (as bs : List (Admission τ β)) (s : Cell β) (h : Reached R (as++bs) s) :
    ∃ s', Reached R as s' := by
  induction bs using List.reverseRecOn generalizing s with
  | nil => exact ⟨s, by simpa using h⟩
  | append_singleton bs b ih =>
    rw [← List.append_assoc] at h
    generalize hcs : as++bs++[b] = cs at h
    cases h with
    | start => simp at hcs
    | arrive cs s' now h ht =>
      obtain ⟨rfl, -⟩ := List.append_inj' hcs rfl
      exact ih s' h

include hpos hlast in
theorem denied_bound (as bs : List (Admission τ β)) (d : Admission τ β) (s : Cell β)
    (h : Reached R (as++d::bs) s) (hd : d.allowed = false) : allowedIn d.window as = R.limit := by
  obtain ⟨s', hs'⟩ := reached_prefix (as++[d]) bs s (by simpa using h)
  generalize hcs : as++[d] = cs at hs'
  cases hs' with
  | start => simp at hcs
  | arrive cs s'' now h'' ht =>
    obtain ⟨rfl, hlast'⟩ := List.append_inj' hcs rfl
    obtain rfl := List.singleton_inj.mp hlast'
    exact denied_full hpos _ s'' now (reached_counted hpos hlast _ s'' h'').count hd

/-- Of two admissions in order, the later is in the same window, or in one that
has started when that of the earlier was past. -/
def Ordered (a b : Admission τ β) : Prop :=
  a.window = b.window ∨ ∃ start, R.past a.ends start = true ∧ start ≤ b.time ∧
    b.ends = R.endOf start

include hpos hlast in
theorem reached_ordered (as : List (Admission τ β)) (s : Cell β) (h : Reached R as s) :
    as.Pairwise (Ordered (R := R)) := by
  induction h with
  | start => exact List.Pairwise.nil
  | arrive as s now h ht ih =>
    have hcounted := reached_counted hpos hlast _ _ (Reached.arrive as s now h ht)
    obtain ⟨htime, hwindow, c, hc, hends⟩ := arrive_last R now s
    obtain ⟨b, hb, hstart, hall⟩ := hcounted.started c hc
    have hle : b.time ≤ now := by
      rw [List.mem_append, List.mem_singleton] at hb
      rcases hb with hb | rfl
      · exact ht b hb
      · exact htime.le
    rw [List.pairwise_append]
    refine ⟨ih, List.pairwise_singleton _ _, ?_⟩
    intro a ha a' ha'
    rw [List.mem_singleton.mp ha']
    rcases hall a (List.mem_append_left _ ha) with ⟨hw, -⟩ | ⟨-, hp⟩
    · exact Or.inl (hw.trans hwindow.symm)
    · exact Or.inr ⟨b.time, hp, hle.trans_eq htime.symm, hends.symm.trans hstart⟩

theorem reached_open (as : List (Admission τ β)) (s : Cell β) (h : Reached R as s)
    (hopen : ∀ a ∈ as, R.past (R.endOf a.time) a.time = false) :
    ∀ a ∈ as, R.past a.ends a.time = false := by
  induction h with
  | start => simp
  | arrive as s now h ht ih =>
    rw [List.forall_mem_append, List.forall_mem_singleton] at hopen ⊢
    refine ⟨ih hopen.1, ?_⟩
    have hfresh := hopen.2
    simp only [arrive] at hfresh ⊢
    cases hl : live R now s.counter with
    | none =>
      rw [hl] at hfresh
      split_ifs at hfresh ⊢ <;> exact hfresh
    | some c =>
      have := (live_some R now _ c hl).2
      split_ifs <;> exact this

include hlast in
theorem spread (a b c : Admission τ β) (hab : Ordered (R := R) a b) (hbc : Ordered (R := R) b c)
    (ha : R.past a.ends a.time = false) (h1 : a.window ≠ b.window) (h2 : b.window ≠ c.window) :
    ∃ start, a.time < start ∧ R.past (R.endOf start) c.time = true := by
  obtain ⟨s1, hp1, -, he1⟩ := hab.resolve_left h1
  obtain ⟨s2, hp2, hle, -⟩ := hbc.resolve_left h2
  refine ⟨s1, ?_, hlast _ _ _ (he1 ▸ hp2) hle⟩
  by_contra hlt
  rw [hlast _ _ _ hp1 (not_lt.mp hlt)] at ha
  cases ha

theorem two_labels {α : Type*} (label : α → ℕ) (xs : List α)
    (h : ∀ x y z, [x, y, z].Sublist xs → label x = label y ∨ label y = label z) :
    ∃ m n, ∀ x ∈ xs, label x = m ∨ label x = n := by
  cases xs with
  | nil => exact ⟨0, 0, by simp⟩
  | cons x xs =>
    have hrest : ∀ y z, [y, z].Sublist xs → label x = label y ∨ label y = label z :=
      fun y z hs => h x y z (hs.cons_cons x)
    clear h
    have hn : ∃ n, ∀ z ∈ xs, label z = label x ∨ label z = n := by
      induction xs with
      | nil => exact ⟨0, by simp⟩
      | cons y ys ih =>
        by_cases hy : label y = label x
        · obtain ⟨n, hn⟩ := ih (fun u v hs => hrest u v (hs.cons y))
          exact ⟨n, List.forall_mem_cons.mpr ⟨Or.inl hy, hn⟩⟩
        · refine ⟨label y, List.forall_mem_cons.mpr ⟨Or.inr rfl, ?_⟩⟩
          intro z hz
          have := hrest y z ((List.singleton_sublist.mpr hz).cons_cons y)
          exact Or.inr ((this.resolve_left (fun heq => hy heq.symm)).symm)
    obtain ⟨n, hn⟩ := hn
    exact ⟨label x, n, List.forall_mem_cons.mpr ⟨Or.inl rfl, hn⟩⟩

theorem countP_le_add {α : Type*} (p q r : α → Bool) (xs : List α)
    (h : ∀ x ∈ xs, p x = true → q x = true ∨ r x = true) :
    xs.countP p ≤ xs.countP q+xs.countP r := by
  induction xs with
  | nil => exact Nat.zero_le _
  | cons x xs ih =>
    have htail := ih (fun y hy => h y (List.mem_cons_of_mem x hy))
    have hhead := h x List.mem_cons_self
    rw [List.countP_cons, List.countP_cons, List.countP_cons]
    by_cases hp : p x = true
    · rcases hhead hp with hq | hr
      · simp only [hp, hq, if_true]
        omega
      · simp only [hp, hr, if_true]
        omega
    · simp only [hp, Bool.false_eq_true, if_false]
      omega

include hpos hlast in
theorem interval_bound (as : List (Admission τ β)) (s : Cell β) (h : Reached R as s)
    (inside : τ → Bool) (hopen : ∀ a ∈ as, R.past (R.endOf a.time) a.time = false)
    (hshort : ∀ a ∈ as, ∀ c ∈ as, inside a.time = true → inside c.time = true →
      ∀ start, a.time < start → R.past (R.endOf start) c.time = false) :
    as.countP (fun a => a.allowed && inside a.time) ≤ 2*R.limit := by
  have hordered := reached_ordered hpos hlast as s h
  have hpast := reached_open as s h hopen
  obtain ⟨m, n, hmn⟩ := two_labels Admission.window (as.filter (fun a => inside a.time)) (by
    intro a b c hs
    have hsub := hs.trans List.filter_sublist
    have hp := hordered.sublist hsub
    have ha := List.mem_filter.mp (hs.subset (by simp : a ∈ [a, b, c]))
    have hc := List.mem_filter.mp (hs.subset (by simp : c ∈ [a, b, c]))
    simp only [List.pairwise_cons, List.mem_cons, List.not_mem_nil, or_false, forall_eq_or_imp,
      forall_eq] at hp
    by_contra hne
    rw [not_or] at hne
    obtain ⟨start, hlt, hend⟩ := spread hlast a b c hp.1.1 hp.2.1 (hpast a ha.1) hne.1 hne.2
    rw [hshort a ha.1 c hc.1 ha.2 hc.2 start hlt] at hend
    cases hend)
  have hsplit : as.countP (fun a => a.allowed && inside a.time) ≤
      allowedIn m as+allowedIn n as := by
    apply countP_le_add
    intro a ha hin
    rw [Bool.and_eq_true] at hin
    rcases hmn a (List.mem_filter.mpr ⟨ha, hin.2⟩) with hw | hw
    · exact Or.inl (by simp [hin.1, hw])
    · exact Or.inr (by simp [hin.1, hw])
  have hm := window_bound hpos hlast as s h m
  have hn := window_bound hpos hlast as s h n
  omega

end Rules

end ControlPlane.FixedWindow
