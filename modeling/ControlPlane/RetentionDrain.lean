import ControlPlane.RetentionSweep

/-!
# What repeated sweeps leave behind

A completed sweep deletes either its full limit of a table or every stale
row. The rows that had expired at some instant are therefore gone once enough
sweeps have completed for all rows of the table and for those written
meanwhile, whichever rows the database prefers and whichever replica sweeps.
-/

set_option autoImplicit false

namespace ControlPlane.RetentionDrain
open ControlPlane.JsText ControlPlane.JsValue ControlPlane.RetentionSweep
open ControlPlane.DoubleRounding (Below)
open ControlPlane.RunMachine ControlPlane.ThreadPool

def isCompleted : Sweep → Bool
  | .done r => r.status = .completed
  | _ => false

def completedSweeps (p : State) : ℕ := p.threads.countP isCompleted

def insertsInto (t : Table) : Event → Bool
  | .env (.insert t' _) => t' = t
  | _ => false

/-- The rows of `t` in `s` that are stale by the cutoff. -/
def Watched (s : State) (t : Table) (cutoff : Instant) (x : Row t) : Prop :=
  x ∈ s.world.tables t ∧ stale t cutoff x = true

/-- A write does not bring a row back that was expired in `s` and is gone. -/
def Forward (s : State) (t : Table) (cutoff : Instant) : Event → State → Prop
  | .env (.insert t' r), p => ∀ x : Row t', t' = t → Watched s t' cutoff x → r = x →
    x ∈ p.world.tables t'
  | .env (.update t' r), p => ∀ x : Row t', t' = t → Watched s t' cutoff x → r = x →
    x ∈ p.world.tables t'
  | _, _ => True

variable {cfg : Config} {s : State} {t : Table} {cutoff : Instant} {n : ℕ}

structure Draining (s : State) (t : Table) (cutoff : Instant) (n m : ℕ) (p : State) : Prop where
  now : s.world.now ≤ p.world.now
  since : ∀ (j : ℕ) (since : Instant) (todo : List Table) (counts : Table → ℕ),
    p.threads[j]? = some (.sweeping since todo counts) → s.world.now ≤ since
  taken : ∀ (j : ℕ) (since : Instant) (todo : List Table) (counts : Table → ℕ),
    p.threads[j]? = some (.sweeping since todo counts) → t ∉ todo →
    (p.world.deleted t).length = n ∨
      ∀ x, Watched s t cutoff x → x ∈ p.world.tables t → key t x ∈ p.world.deleted t
  bound : (∀ x, Watched s t cutoff x → x ∉ p.world.tables t) ∨
    (p.world.tables t).length+completedSweeps p*n ≤
      (s.world.tables t).length+completedSweeps s*n+m

theorem iso_mono (x y : JsNumber) (h : Below x y) (c c' : Instant)
    (hc : toISOString x = some c) (hc' : toISOString y = some c') : c ≤ c' := by
  cases x with
  | infinite negative => cases hc
  | finite q =>
    cases y with
    | infinite negative => cases hc'
    | finite q' =>
      have hle : q ≤ q' := h
      simp only [toISOString] at hc hc'
      split_ifs at hc hc' with h1 h2 h3 h4
      · rw [Option.some.injEq] at hc hc'
        rw [← hc, ← hc']
        exact Int.floor_mono hle
      · exact (h4 (h2.trans hle)).elim
      · rw [Option.some.injEq] at hc hc'
        rw [← hc, ← hc']
        exact (Int.ceil_nonpos.mpr (not_le.mp h2).le).trans (Int.floor_nonneg.mpr (by assumption))
      · rw [Option.some.injEq] at hc hc'
        rw [← hc, ← hc']
        exact Int.ceil_mono hle

theorem stale_mono (c c' : Instant) (h : c ≤ c') (x : Row t) (hx : stale t c x = true) :
    stale t c' x = true := by
  simp only [stale, Bool.and_eq_true, decide_eq_true_eq] at hx ⊢
  exact ⟨hx.1, hx.2.trans_le h⟩

theorem deletePlan_limit (o : Option Instant) (c : Instant) (l : Option ℕ)
    (h : deletePlan cfg t o = .delete c l) (hl : isLimited t = true) :
    limitParam cfg.retentionBatchLimit = l := by
  simp only [deletePlan] at h
  split at h
  · cases h
  · rw [if_pos hl] at h
    split at h
    · cases h
    · rename_i m hm
      simp only [Plan.delete.injEq] at h
      rw [hm, h.2]

theorem deletePlan_later (o o' : Option Instant) (c : Instant) (hl : isLimited t = true)
    (hmono : ∀ c c', o = some c → o' = some c' → c ≤ c')
    (hp : deletePlan cfg t o = .delete c (some n)) :
    deletePlan cfg t o' ≠ .off ∧
      ∀ c' l, deletePlan cfg t o' = .delete c' l → c ≤ c' ∧ l = some n := by
  constructor
  · simp only [deletePlan]
    split
    · simp
    · split_ifs
      split <;> simp
  · intro c' l hp'
    have hlim := (deletePlan_limit _ c _ hp hl).symm.trans (deletePlan_limit _ c' _ hp' hl)
    exact ⟨hmono c c' (deletePlan_some t _ c _ hp).1 (deletePlan_some t _ c' _ hp').1, hlim.symm⟩

theorem plan_later (now now' : Instant) (h : now ≤ now') (c : Instant)
    (hl : isLimited t = true) (hp : plan cfg now t = .delete c (some n)) :
    plan cfg now' t ≠ .off ∧
      ∀ c' l, plan cfg now' t = .delete c' l → c ≤ c' ∧ l = some n := by
  have hq : (now : ℚ) ≤ now' := by exact_mod_cast h
  simp only [plan] at hp ⊢
  cases hd : ttlDays cfg t with
  | none =>
    simp only [hd] at hp ⊢
    exact deletePlan_later _ _ c hl (iso_mono (.finite now) (.finite now') hq) hp
  | some days =>
    simp only [hd] at hp ⊢
    split_ifs at hp ⊢
    exact deletePlan_later _ _ c hl (iso_mono _ _ (daysAgo_mono now now' h days)) hp

theorem purge_takes (w : World) (lag : ℕ) (c' : Instant) (l : Option ℕ)
    (batch : List Key) (now : Instant) (hl : isLimited t = true)
    (hp : plan cfg now t = .delete cutoff (some n)) (hnow : now ≤ w.now-lag)
    (hp' : plan cfg (w.now-lag) t = .delete c' l) (hb : List.Sublist batch (dueKeys w t c'))
    (ha : allowed l (dueKeys w t c') batch = true) (hclean : w.deleted t = []) :
    batch.length = n ∨ ∀ x ∈ w.tables t, stale t cutoff x = true → key t x ∈ batch := by
  obtain ⟨hle, rfl⟩ := (plan_later now _ hnow cutoff hl hp).2 c' l hp'
  simp only [allowed, decide_eq_true_eq] at ha
  rcases Nat.le_total n (dueKeys w t c').length with hfull | hall
  · left
    rw [ha, Nat.min_eq_left hfull]
  · right
    intro x hx hs
    rw [Nat.min_eq_right hall] at ha
    rw [hb.eq_of_length ha]
    exact (mem_dueKeys w t c' _).mpr ⟨x, hx, stale_mono _ _ hle x hs, by simp [hclean], rfl⟩

theorem completed_set (p : State) (i : ℕ) (u u' : Sweep) (w : World)
    (hu : p.threads[i]? = some u) (hc : isCompleted u = false) :
    completedSweeps ⟨w, p.threads.set i u'⟩ =
      completedSweeps p+(if isCompleted u' then 1 else 0) := by
  have hset := countP_set_add p.threads i u u' isCompleted hu
  simp only [hc, Bool.false_eq_true, if_false, Nat.add_zero] at hset
  exact hset

theorem completed_append (p : State) (w : World) (o : Option Sweep)
    (ho : o = none ∨ o = some .ready) :
    completedSweeps ⟨w, p.threads++o.toList⟩ = completedSweeps p := by
  rcases ho with rfl | rfl <;> simp [completedSweeps, isCompleted]

theorem env_table (e : Env) (w w' : World) (o : Option Sweep) (h : env e w = some (w', o))
    (t : Table) : (w'.tables t).length ≤
        (w.tables t).length+(if insertsInto t (.env e) then 1 else 0) ∧
      ∀ x ∈ w'.tables t, x ∈ w.tables t ∨ e = .insert t x ∨ e = .update t x := by
  cases e with
  | tick ms | sweep =>
    simp only [env, Option.some.injEq, Prod.mk.injEq] at h
    obtain ⟨rfl, _⟩ := h
    exact ⟨Nat.le_add_right _ _, fun x hx => Or.inl hx⟩
  | insert t' r =>
    simp only [env] at h
    split_ifs at h
    simp only [Option.some.injEq, Prod.mk.injEq] at h
    obtain ⟨rfl, _⟩ := h
    by_cases ht : t = t'
    · subst ht
      rw [setTable_self]
      constructor
      · simp [insertsInto]
      · intro x hx
        rw [List.mem_append, List.mem_singleton] at hx
        exact hx.imp_right (fun he => Or.inl (by rw [he]))
    · rw [setTable_other _ _ _ _ ht]
      exact ⟨Nat.le_add_right _ _, fun x hx => Or.inl hx⟩
  | update t' r =>
    simp only [env] at h
    split_ifs at h
    simp only [Option.some.injEq, Prod.mk.injEq] at h
    obtain ⟨rfl, _⟩ := h
    by_cases ht : t = t'
    · subst ht
      rw [setTable_self]
      constructor
      · simp
      · intro x hx
        rw [List.mem_map] at hx
        obtain ⟨y, hy, he⟩ := hx
        split_ifs at he
        · exact Or.inr (Or.inr (by rw [he]))
        · exact Or.inl (he ▸ hy)
    · rw [setTable_other _ _ _ _ ht]
      exact ⟨Nat.le_add_right _ _, fun x hx => Or.inl hx⟩
  | delete t' k =>
    simp only [env] at h
    split_ifs at h
    simp only [Option.some.injEq, Prod.mk.injEq] at h
    obtain ⟨rfl, _⟩ := h
    by_cases ht : t = t'
    · subst ht
      rw [setTable_self]
      constructor
      · exact (List.length_filter_le _ _).trans (Nat.le_add_right _ _)
      · exact fun x hx => Or.inl (List.mem_filter.mp hx).1
    · rw [setTable_other _ _ _ _ ht]
      exact ⟨Nat.le_add_right _ _, fun x hx => Or.inl hx⟩

theorem forward_kept (e : Env) (p : State) (w' : World) (o : Option Sweep)
    (h : env e p.world = some (w', o)) (hf : Forward s t cutoff (.env e) p) (x : Row t)
    (hx : Watched s t cutoff x) (hx' : x ∈ w'.tables t) : x ∈ p.world.tables t := by
  rcases (env_table e _ _ o h t).2 x hx' with hold | rfl | rfl
  · exact hold
  · exact hf x rfl hx rfl
  · exact hf x rfl hx rfl

theorem draining_env (e : Env) (p q : State) (m : ℕ) (hf : Forward s t cutoff (.env e) p)
    (hi : Draining s t cutoff n m p) (hs : next cfg (.env e) p = some q) :
    Draining s t cutoff n (m+(if insertsInto t (.env e) then 1 else 0)) q := by
  obtain ⟨w, o, he, rfl⟩ := (step_env_some _ _ _ _).mp hs
  obtain ⟨heffect, ho⟩ := env_effect e _ _ _ he
  have hkept := fun x => forward_kept e p w o he hf x
  have hlen := (env_table e _ _ o he t).1
  have hold : ∀ (j : ℕ) (since : Instant) (todo : List Table) (counts : Table → ℕ),
      (p.threads++o.toList)[j]? = some (.sweeping since todo counts) →
      p.threads[j]? = some (.sweeping since todo counts) := by
    intro j since todo counts hj
    rcases append_get _ _ _ _ hj with hj | ⟨_, hnew⟩
    · exact hj
    · rcases ho with rfl | rfl <;> cases hnew
  constructor
  · exact hi.now.trans heffect.now
  · intro j since todo counts hj
    exact hi.since j since todo counts (hold j since todo counts hj)
  · intro j since todo counts hj ht
    rw [show (⟨w, p.threads++o.toList⟩ : State).world.deleted = p.world.deleted from
      heffect.deleted]
    apply (hi.taken j since todo counts (hold j since todo counts hj) ht).imp_right
    exact fun h x hx hxw => h x hx (hkept x hx hxw)
  · rw [completed_append p w o ho]
    rcases hi.bound with hgone | hle
    · exact Or.inl (fun x hx hxw => hgone x hx (hkept x hx hxw))
    · right
      show (w.tables t).length+completedSweeps p*n ≤ _
      omega

theorem sweeping_set (p : State) (i j : ℕ) (u u' : Sweep) (since : Instant) (todo : List Table)
    (counts : Table → ℕ) (hsw : Swept cfg p) (hu : p.threads[i]? = some u)
    (hsweep : isSweeping u = true)
    (hj : (p.threads.set i u')[j]? = some (.sweeping since todo counts)) :
    u' = .sweeping since todo counts := by
  rcases set_get _ _ _ _ _ hj with ⟨_, rfl⟩ | ⟨hne, hj⟩
  · rfl
  · rcases hsw.pair i j u _ (Ne.symm hne) hu hj with h | h
    · simp [h] at hsweep
    · cases h

theorem resting_set (p : State) (i j : ℕ) (u' : Sweep) (since : Instant) (todo : List Table)
    (counts : Table → ℕ) (hno : isSweeping u' = false)
    (hj : (p.threads.set i u')[j]? = some (.sweeping since todo counts)) :
    p.threads[j]? = some (.sweeping since todo counts) := by
  rcases set_get _ _ _ _ _ hj with ⟨_, rfl⟩ | ⟨_, hj⟩
  · cases hno
  · exact hj

theorem commit_bound (p : State) (m : ℕ) (hk : Keyed p.world) (hn : (p.world.deleted t).Nodup)
    (hd : ∀ k ∈ p.world.deleted t, ∃ r ∈ p.world.tables t, key t r = k)
    (htaken : (p.world.deleted t).length = n ∨
      ∀ x, Watched s t cutoff x → x ∈ p.world.tables t → key t x ∈ p.world.deleted t)
    (hbound : (∀ x, Watched s t cutoff x → x ∉ p.world.tables t) ∨
      (p.world.tables t).length+completedSweeps p*n ≤
        (s.world.tables t).length+completedSweeps s*n+m) :
    (∀ x, Watched s t cutoff x → x ∉ p.world.commit.tables t) ∨
      (p.world.commit.tables t).length+(completedSweeps p+1)*n ≤
        (s.world.tables t).length+completedSweeps s*n+m := by
  have hgone : ∀ x, x ∈ p.world.commit.tables t → x ∈ p.world.tables t ∧
      key t x ∉ p.world.deleted t := by
    intro x hx
    simpa [World.commit] using hx
  rcases hbound with hall | hbound
  · exact Or.inl (fun x hx hxp => hall x hx (hgone x hxp).1)
  · rcases htaken with hfull | hevery
    · right
      have hlen := commit_length p.world t hk hn hd
      rw [Nat.succ_mul]
      omega
    · exact Or.inl (fun x hx hxp => (hgone x hxp).2 (hevery x hx (hgone x hxp).1))

theorem draining_act (i : ℕ) (io : Io) (p q : State) (m : ℕ) (hl : isLimited t = true)
    (hp : plan cfg s.world.now t = .delete cutoff (some n)) (hsw : Swept cfg p)
    (hi : Draining s t cutoff n m p) (hs : next cfg (.act i io) p = some q) :
    Draining s t cutoff n m q := by
  obtain ⟨u, w, u', hu, ha, rfl⟩ := (step_act_some _ _ _ _ _).mp hs
  have hm := act_move io _ _ _ _ ha
  have hself := hsw.thread i u hu
  have hothers := fun j since todo counts =>
    sweeping_set p i j u u' since todo counts hsw hu
  have hrest := fun j since todo counts => resting_set p i j u' since todo counts
  cases hm with
  | leave r hr =>
    refine ⟨hi.now, fun j since todo counts hj => hi.since j since todo counts
      (hrest j since todo counts rfl hj), fun j since todo counts hj => hi.taken j since todo counts
      (hrest j since todo counts rfl hj), ?_⟩
    rw [completed_set p i _ _ _ hu rfl]
    simpa [isCompleted, hr] using hi.bound
  | fail =>
    refine ⟨hi.now, fun j since todo counts hj => hi.since j since todo counts
      (hrest j since todo counts rfl hj), fun j since todo counts hj => hi.taken j since todo counts
      (hrest j since todo counts rfl hj), ?_⟩
    rw [completed_set p i _ _ _ hu rfl]
    simpa [isCompleted] using hi.bound
  | rollback since todo counts =>
    refine ⟨hi.now, fun j since' todo' counts' hj => ?_, fun j since' todo' counts' hj => ?_, ?_⟩
    · cases hothers j since' todo' counts' rfl hj
    · cases hothers j since' todo' counts' rfl hj
    · rw [completed_set p i _ _ _ hu rfl]
      simpa [isCompleted, World.rollback] using hi.bound
  | take hlock =>
    have hnone : ∀ (j : ℕ) (since : Instant) (todo : List Table) (counts : Table → ℕ),
        (p.threads.set i (.sweeping p.world.now sweepOrder (fun _ => 0)))[j]? =
          some (.sweeping since todo counts) → since = p.world.now ∧ todo = sweepOrder := by
      intro j since todo counts hj
      rcases set_get _ _ _ _ _ hj with ⟨_, he⟩ | ⟨_, hj⟩
      · simp only [Sweep.sweeping.injEq] at he
        exact ⟨he.1, he.2.1⟩
      · exact (Bool.false_ne_true (hlock.symm.trans (hsw.thread j _ hj).lock)).elim
    refine ⟨hi.now, ?_, ?_, ?_⟩
    · intro j since todo counts hj
      rw [(hnone j since todo counts hj).1]
      exact hi.now
    · intro j since todo counts hj ht
      rw [(hnone j since todo counts hj).2] at ht
      exact (ht (by cases t <;> decide)).elim
    · rw [completed_set p i _ _ _ hu rfl]
      simpa [isCompleted] using hi.bound
  | pass since t' todo counts lag hle hoff =>
    have hne : t ≠ t' := by
      rintro rfl
      have hsince := (hi.since i since _ counts hu).trans hle
      exact (plan_later s.world.now _ hsince cutoff hl hp).1 hoff
    refine ⟨hi.now, ?_, ?_, ?_⟩
    · intro j since' todo' counts' hj
      have he := hothers j since' todo' counts' rfl hj
      simp only [Sweep.sweeping.injEq] at he
      exact he.1 ▸ hi.since i since _ counts hu
    · intro j since' todo' counts' hj ht
      have he := hothers j since' todo' counts' rfl hj
      simp only [Sweep.sweeping.injEq] at he
      apply hi.taken i since _ counts hu
      simpa [hne, he.2.1] using ht
    · rw [completed_set p i _ _ _ hu rfl]
      simpa [isCompleted] using hi.bound
  | purge since t' todo counts lag c' limit batch hle hplan hb hal =>
    have hclean : p.world.deleted t' = [] := hself.todo t' List.mem_cons_self
    refine ⟨hi.now, ?_, ?_, ?_⟩
    · intro j since' todo' counts' hj
      have he := hothers j since' todo' counts' rfl hj
      simp only [Sweep.sweeping.injEq] at he
      exact he.1 ▸ hi.since i since _ counts hu
    · intro j since' todo' counts' hj ht
      have he := hothers j since' todo' counts' rfl hj
      simp only [Sweep.sweeping.injEq] at he
      by_cases hne : t = t'
      · subst hne
        rw [deleteRows_self]
        have htakes := purge_takes p.world lag c' limit batch s.world.now hl hp
          ((hi.since i since _ counts hu).trans hle) hplan hb hal hclean
        exact htakes.imp_right (fun h x hx hxp => h x hxp hx.2)
      · rw [deleteRows_other _ _ _ _ hne]
        apply hi.taken i since _ counts hu
        simpa [hne, he.2.1] using ht
    · rw [completed_set p i _ _ _ hu rfl]
      simpa [isCompleted, World.deleteRows] using hi.bound
  | commit since counts =>
    refine ⟨hi.now, fun j since' todo' counts' hj => ?_, fun j since' todo' counts' hj => ?_, ?_⟩
    · cases hothers j since' todo' counts' rfl hj
    · cases hothers j since' todo' counts' rfl hj
    · rw [completed_set p i _ _ _ hu rfl]
      have hfound : ∀ k ∈ p.world.deleted t, ∃ r ∈ p.world.tables t, key t r = k := by
        intro k hk
        obtain ⟨y, hy, hky, _⟩ := hself.expired t k hk
        exact ⟨y, hy, hky⟩
      exact commit_bound p m hsw.world.keyed (hself.nodup t) hfound
        (hi.taken i since [] counts hu List.not_mem_nil) hi.bound

theorem draining_run (hl : isLimited t = true)
    (hp : plan cfg s.world.now t = .delete cutoff (some n)) (ls : List Event) (p q : State) (m : ℕ)
    (hg : Guarded (next cfg) (Forward s t cutoff) ls p) (hsw : Swept cfg p)
    (hi : Draining s t cutoff n m p) (hr : run (next cfg) ls p = some q) :
    Draining s t cutoff n (m+ls.countP (insertsInto t)) q := by
  induction ls generalizing p m with
  | nil =>
    simp only [run, Option.some.injEq] at hr
    subst hr
    simpa using hi
  | cons l ls ih =>
    obtain ⟨u, hu, hrest⟩ := (run_cons_some _ l ls p q).mp hr
    have hstep : Draining s t cutoff n (m+(if insertsInto t l then 1 else 0)) u := by
      cases l with
      | env e => exact draining_env e p u m hg.1 hi hu
      | act i io => simpa [insertsInto] using draining_act i io p u m hl hp hsw hi hu
    have hend := ih u _ (hg.2 u hu) (swept_step l p u hsw hu) hstep hrest
    rw [List.countP_cons, Nat.add_comm (List.countP _ ls), ← Nat.add_assoc]
    exact hend

theorem draining_start (hsw : Swept cfg s) (hlock : s.world.lock = false) :
    Draining s t cutoff n 0 s := by
  have hnone : ∀ (j : ℕ) (since : Instant) (todo : List Table) (counts : Table → ℕ),
      s.threads[j]? ≠ some (.sweeping since todo counts) := by
    intro j since todo counts hj
    exact Bool.false_ne_true (hlock.symm.trans (hsw.thread j _ hj).lock)
  exact ⟨le_rfl, fun j since todo counts hj => (hnone j since todo counts hj).elim,
    fun j since todo counts hj => (hnone j since todo counts hj).elim, Or.inr le_rfl⟩

def Sparing (cfg : Config) (s : State) (ls : List Event) : Prop :=
  ∀ as i io bs u v, ls = as++.act i io::bs → run (next cfg) as s = some u →
    next cfg (.act i io) u = some v → ∀ (t : Table) (x : Row t), x ∈ u.world.tables t →
      x ∉ v.world.tables t → Expired cfg u.world.now t x

theorem sparing_run (hsw : Swept cfg s) (ls : List Event) : Sparing cfg s ls := by
  intro as i io bs u v _ hu hv t x hx hgone
  exact sweep_takes_expired u v i io (swept_run as s u hsw hu) hv t x hx hgone

/-- Between two states without an open sweep in the first: when the sweeps
that completed could delete all rows of a table and all that were inserted
since, none of the rows that had expired is left, whatever the replicas, the
choices of the database, failed sweeps and other statements did meanwhile. No
sweep takes a row that has not expired. -/
theorem retention_drains (cfg : Config) (now : Instant) (tables : (t : Table) → List (Row t))
    (hk : ∀ t, ((tables t).map (key t)).Nodup) (before ls : List Event) (s q : State) (t : Table)
    (hl : isLimited t = true) (cutoff : Instant) (n : ℕ)
    (hb : run (next cfg) before (start now tables) = some s) (hlock : s.world.lock = false)
    (hp : plan cfg s.world.now t = .delete cutoff (some n))
    (hg : Guarded (next cfg) (Forward s t cutoff) ls s) (hr : run (next cfg) ls s = some q)
    (k : ℕ) (hsweeps : completedSweeps q = completedSweeps s+k)
    (hn : (s.world.tables t).length+ls.countP (insertsInto t) ≤ k*n) :
    (∀ x ∈ s.world.tables t, stale t cutoff x = true → x ∉ q.world.tables t) ∧
      Sparing cfg s ls := by
  have hsw := swept_run before _ s (swept_start now tables hk) hb
  have hend := draining_run hl hp ls s q 0 hg hsw (draining_start hsw hlock) hr
  refine ⟨?_, sparing_run hsw ls⟩
  intro x hx hs
  rcases hend.bound with hgone | hle
  · exact hgone x ⟨hx, hs⟩
  · rw [hsweeps, Nat.add_mul] at hle
    have hempty : (q.world.tables t).length = 0 := by omega
    simp [List.eq_nil_of_length_eq_zero hempty]

def oneSweep : List Event := .env .sweep::sweeps 0 [[[1]]]++[.act 0 .ok]

def drained : State :=
  (run (next defaults) oneSweep (start hundredDays twoEvents)).get (by decide +kernel)

theorem retention_drains_events :
    (∀ x ∈ (start hundredDays twoEvents).world.tables .auditEvents,
      stale .auditEvents 864000000 x = true → x ∉ drained.world.tables .auditEvents) ∧
    Sparing defaults (start hundredDays twoEvents) oneSweep := by
  apply retention_drains defaults hundredDays twoEvents twoEvents_keyed [] oneSweep
    (start hundredDays twoEvents) drained .auditEvents rfl 864000000 10000 rfl rfl
    (by decide +kernel) ?_ (Option.some_get _).symm 1 (by decide +kernel) (by decide)
  apply guarded_always
  intro l hl p
  cases l with
  | act i io => trivial
  | env e =>
    cases e with
    | insert t r | update t r => simp [oneSweep, sweeps] at hl
    | _ => trivial

end ControlPlane.RetentionDrain
