import ControlPlane.AgentLifecycle
import ControlPlane.DeliveryMachine
import ControlPlane.DoubleRounding

/-!
# Retention sweeps

Every replica sweeps six tables in one transaction, which it opens only when
it gets the advisory lock. A statement of a sweep deletes rows that are stale
by the clock it reads, up to a limit; nobody else sees the deletion before
the commit, and an update or a delete of such a row waits. A failed statement
rolls the whole sweep back.
-/

set_option autoImplicit false

namespace ControlPlane.RetentionSweep
open ControlPlane.JsText ControlPlane.JsValue
open ControlPlane.DeliveryMachine (DeliveryStatus)
open ControlPlane.AgentLifecycle (AgentRow lastSign dayMs daysAgo daysAgoIso)
open ControlPlane.DoubleRounding (Below toDouble_int toDouble_mono)
open ControlPlane.RunMachine ControlPlane.ThreadPool

inductive Table where
  | auditEvents
  | webhookDeliveries
  | adminAuditLog
  | agents
  | idempotencyKeys
  | enrollmentJtis
  deriving DecidableEq, Repr

structure AuditEventRow where
  id : Text
  ts : Instant
  deriving DecidableEq

structure DeliveryRow where
  id : Text
  status : DeliveryStatus
  createdAt : Instant
  deriving DecidableEq

structure AdminAuditRow where
  id : Text
  createdAt : Instant
  deriving DecidableEq

structure IdempotencyRow where
  scope : Text
  key : Text
  createdAt : Instant
  deriving DecidableEq

structure JtiRow where
  jti : Text
  expiresAt : Instant
  deriving DecidableEq

/-- The columns of each table that a sweep reads. -/
def Row : Table → Type
  | .auditEvents => AuditEventRow
  | .webhookDeliveries => DeliveryRow
  | .adminAuditLog => AdminAuditRow
  | .agents => AgentRow
  | .idempotencyKeys => IdempotencyRow
  | .enrollmentJtis => JtiRow

abbrev Key := List Text

def key : (t : Table) → Row t → Key
  | .auditEvents, r => [r.id]
  | .webhookDeliveries, r => [r.id]
  | .adminAuditLog, r => [r.id]
  | .agents, r => [r.aid]
  | .idempotencyKeys, r => [r.scope, r.key]
  | .enrollmentJtis, r => [r.jti]

/-- The instant a sweep compares with its cutoff. -/
def stamp : (t : Table) → Row t → Instant
  | .auditEvents, r => r.ts
  | .webhookDeliveries, r => r.createdAt
  | .adminAuditLog, r => r.createdAt
  | .agents, r => lastSign r
  | .idempotencyKeys, r => r.createdAt
  | .enrollmentJtis, r => r.expiresAt

/-- Pending deliveries and agents that are not deregistered are kept. -/
def terminal : (t : Table) → Row t → Bool
  | .webhookDeliveries, r => r.status = .delivered || r.status = .failed
  | .agents, r => r.status = .deregistered
  | .auditEvents, _ | .adminAuditLog, _ | .idempotencyKeys, _ | .enrollmentJtis, _ => true

def stale (t : Table) (cutoff : Instant) (r : Row t) : Bool :=
  terminal t r && stamp t r < cutoff

structure Config where
  retentionEnabled : Bool
  retentionBatchLimit : ℚ
  auditEventsTtlDays : ℚ
  webhookDeliveryTtlDays : ℚ
  adminAuditTtlDays : ℚ
  expiredAgentGraceDays : ℚ
  idempotencyKeyTtlDays : ℚ

/-- An expired `jti` has no window of its own. -/
def ttlDays (cfg : Config) : Table → Option ℚ
  | .auditEvents => some cfg.auditEventsTtlDays
  | .webhookDeliveries => some cfg.webhookDeliveryTtlDays
  | .adminAuditLog => some cfg.adminAuditTtlDays
  | .agents => some cfg.expiredAgentGraceDays
  | .idempotencyKeys => some cfg.idempotencyKeyTtlDays
  | .enrollmentJtis => none

def isLimited : Table → Bool
  | .agents => false
  | _ => true

/-- The parameter of a `limit`, which has to be a `bigint`. -/
def limitParam (q : ℚ) : Option ℕ :=
  if q.den = 1 ∧ 0 ≤ q.num ∧ q.num < 9223372036854775808 then some q.num.toNat else none

inductive Plan where
  | off
  | throws
  | delete (cutoff : Instant) (limit : Option ℕ)
  deriving DecidableEq

/-- The delete with a cutoff that a timestamp column reads. -/
def deletePlan (cfg : Config) (t : Table) (cutoff : Option Instant) : Plan :=
  match cutoff.filter instantStorable with
  | none => .throws
  | some c =>
    if isLimited t then
      match limitParam cfg.retentionBatchLimit with
      | none => .throws
      | some n => .delete c (some n)
    else .delete c none

/-- What one of the six purges does at the clock it reads. -/
def plan (cfg : Config) (now : Instant) (t : Table) : Plan :=
  match ttlDays cfg t with
  | some days => if days ≤ 0 then .off else deletePlan cfg t (daysAgoIso now days)
  | none => deletePlan cfg t (toISOString (.finite now))

structure World where
  now : Instant
  tables : (t : Table) → List (Row t)
  lock : Bool
  deleted : Table → List Key

inductive Status where
  | completed
  | skipped
  | disabled
  deriving DecidableEq, Repr

structure SweepResult where
  status : Status
  deleted : Table → ℕ

inductive Sweep where
  | ready
  | sweeping (since : Instant) (todo : List Table) (counts : Table → ℕ)
  | done (r : SweepResult)
  | failed

def sweepOrder : List Table :=
  [.auditEvents, .webhookDeliveries, .adminAuditLog, .agents, .idempotencyKeys, .enrollmentJtis]

/-- The keys a delete may choose from, by the snapshot of the sweep. -/
def dueKeys (w : World) (t : Table) (cutoff : Instant) : List Key :=
  ((w.tables t).filter (fun r => stale t cutoff r && key t r ∉ w.deleted t)).map (key t)

/-- A `limit` without an order leaves the choice to the database. -/
def allowed (limit : Option ℕ) (due batch : List Key) : Bool :=
  match limit with
  | none => batch.length = due.length
  | some n => batch.length = min n due.length

def World.commit (w : World) : World :=
  { w with
    tables := fun t => (w.tables t).filter (fun r => key t r ∉ w.deleted t)
    lock := false
    deleted := fun _ => [] }

/-- The rows are gone for the sweep only. -/
def World.deleteRows (w : World) (t : Table) (batch : List Key) : World :=
  { w with deleted := Function.update w.deleted t batch }

def World.rollback (w : World) : World := { w with lock := false, deleted := fun _ => [] }

/-- A statement reads the clock `lag` milliseconds before it runs. -/
inductive Io where
  | ok
  | fault
  | purge (lag : ℕ) (chosen : List Key)

def purgeStep (cfg : Config) (w : World) (since : Instant) (t : Table) (todo : List Table)
    (counts : Table → ℕ) (lag : ℕ) (chosen : List Key) : Option (World × Sweep) :=
  if since ≤ w.now-lag then
    match plan cfg (w.now-lag) t with
    | .off => some (w, .sweeping since todo counts)
    | .throws => some (w.rollback, .failed)
    | .delete cutoff limit =>
      let due := dueKeys w t cutoff
      let batch := due.filter (· ∈ chosen)
      if allowed limit due batch then
        some (w.deleteRows t batch, .sweeping since todo (Function.update counts t batch.length))
      else none
  else none

def act (cfg : Config) : Io → World → Sweep → Option (World × Sweep)
  | .ok, w, .ready =>
    if cfg.retentionEnabled = false then some (w, .done ⟨.disabled, fun _ => 0⟩)
    else if w.lock then some (w, .done ⟨.skipped, fun _ => 0⟩)
    else some ({ w with lock := true }, .sweeping w.now sweepOrder (fun _ => 0))
  | .purge lag chosen, w, .sweeping since (t::todo) counts =>
    purgeStep cfg w since t todo counts lag chosen
  | .ok, w, .sweeping _ [] counts => some (w.commit, .done ⟨.completed, counts⟩)
  | .fault, w, .sweeping _ _ _ => some (w.rollback, .failed)
  | .fault, w, .ready => some (w, .failed)
  | _, _, _ => none

inductive Env where
  | tick (ms : ℕ)
  | insert (t : Table) (r : Row t)
  | update (t : Table) (r : Row t)
  | delete (t : Table) (k : Key)
  | sweep

def setTable (w : World) (t : Table) (rows : List (Row t)) : World :=
  { w with tables := Function.update w.tables t rows }

def env : Env → World → Option (World × Option Sweep)
  | .tick ms, w => some ({ w with now := w.now+ms }, none)
  | .insert t r, w =>
    if key t r ∈ (w.tables t).map (key t) then none
    else some (setTable w t (w.tables t++[r]), none)
  | .update t r, w =>
    if key t r ∈ w.deleted t then none
    else
      some (setTable w t ((w.tables t).map (fun r' => if key t r' = key t r then r else r')), none)
  | .delete t k, w =>
    if k ∈ w.deleted t then none
    else some (setTable w t ((w.tables t).filter (fun r => key t r ≠ k)), none)
  | .sweep, w => some (w, some .ready)

def retention (cfg : Config) : System World Sweep Env Io := ⟨env, act cfg⟩

abbrev State := Pool World Sweep

abbrev Event := Label Env Io

abbrev next (cfg : Config) : Event → State → Option State := step (retention cfg)

def start (now : Instant) (tables : (t : Table) → List (Row t)) : State :=
  ⟨⟨now, tables, false, fun _ => []⟩, []⟩

def isSweeping : Sweep → Bool
  | .sweeping _ _ _ => true
  | _ => false

def Earlier (t : Instant) : JsNumber → Prop
  | .finite q => (t : ℚ) < q
  | .infinite negative => negative = false

def WindowOver (now stamp : Instant) : Option ℚ → Prop
  | some days => 0 < days ∧ Earlier stamp (daysAgo now days)
  | none => stamp < now

def Expired (cfg : Config) (now : Instant) (t : Table) (r : Row t) : Prop :=
  terminal t r = true ∧ WindowOver now (stamp t r) (ttlDays cfg t)

def Keyed (w : World) : Prop := ∀ t, ((w.tables t).map (key t)).Nodup

structure WorldOk (w : World) : Prop where
  keyed : Keyed w
  clean : w.lock = false → ∀ t, w.deleted t = []

structure SweepOk (cfg : Config) (w : World) (since : Instant) (todo : List Table)
    (counts : Table → ℕ) : Prop where
  lock : w.lock = true
  since : since ≤ w.now
  order : todo <:+ sweepOrder
  counts : ∀ t, counts t = (w.deleted t).length
  todo : ∀ t ∈ todo, w.deleted t = []
  nodup : ∀ t, (w.deleted t).Nodup
  expired : ∀ t, ∀ k ∈ w.deleted t, ∃ r ∈ w.tables t, key t r = k ∧ Expired cfg w.now t r
  limit : ∀ t, isLimited t = true → w.deleted t ≠ [] →
    (w.deleted t).length ≤ cfg.retentionBatchLimit

def ThreadOk (cfg : Config) (w : World) : Sweep → Prop
  | .sweeping since todo counts => SweepOk cfg w since todo counts
  | _ => True

def Apart (_ : World) (u v : Sweep) : Prop := isSweeping u = false ∨ isSweeping v = false

abbrev Swept (cfg : Config) (p : State) : Prop := Holds WorldOk (ThreadOk cfg) Apart p

@[simp] theorem setTable_self (w : World) (t : Table) (rows : List (Row t)) :
    (setTable w t rows).tables t = rows := by simp [setTable]

theorem setTable_other (w : World) (t t' : Table) (rows : List (Row t)) (h : t' ≠ t) :
    (setTable w t rows).tables t' = w.tables t' := by simp [setTable, h]

@[simp] theorem deleteRows_self (w : World) (t : Table) (batch : List Key) :
    (w.deleteRows t batch).deleted t = batch := by simp [World.deleteRows]

theorem deleteRows_other (w : World) (t t' : Table) (batch : List Key) (h : t' ≠ t) :
    (w.deleteRows t batch).deleted t' = w.deleted t' := by simp [World.deleteRows, h]

variable {cfg : Config}

theorem lt_of_iso (x : JsNumber) (c s : Instant) (hc : toISOString x = some c) (hs : s < c) :
    Earlier s x := by
  cases x with
  | infinite negative => cases hc
  | finite q =>
    simp only [toISOString] at hc
    split_ifs at hc with hbound hsign
    · rw [Option.some.injEq] at hc
      have hfloor : (s : ℚ) < (⌊q⌋ : ℤ) := by exact_mod_cast hc ▸ hs
      exact hfloor.trans_le (Int.floor_le q)
    · rw [Option.some.injEq] at hc
      exact Int.lt_ceil.mp (hc ▸ hs)

theorem earlier_of_below (t : Instant) (x y : JsNumber) (h : Below x y) (ht : Earlier t x) :
    Earlier t y := by
  cases x with
  | finite p =>
    cases y with
    | finite q => exact lt_of_lt_of_le ht h
    | infinite negative => cases negative <;> first | rfl | exact h.elim
  | infinite negative =>
    obtain rfl : negative = false := ht
    cases y with
    | finite q => exact h.elim
    | infinite negative => cases negative <;> first | rfl | exact h.elim

theorem daysAgo_mono (now now' : Instant) (h : now ≤ now') (days : ℚ) :
    Below (daysAgo now days) (daysAgo now' days) := by
  have hq : (now : ℚ) ≤ now' := by exact_mod_cast h
  unfold daysAgo
  generalize timesPositive 1000 (timesPositive 60 (timesPositive 60 (toDouble (24*days)))) = x
  cases x with
  | finite q => exact toDouble_mono _ _ (sub_le_sub_right hq q)
  | infinite negative => cases negative <;> trivial

theorem daysAgo_whole (now : Instant) (d : ℕ) (hd : (d : ℤ)*86400000 ≤ 2^53)
    (hnow : |now-d*86400000| ≤ 2^53) : daysAgo now d = .finite (now-d*dayMs) := by
  have hexact : ∀ z : ℤ, 0 ≤ z → z ≤ d*86400000 → toDouble (z : ℚ) = .finite z :=
    fun z h0 hz => toDouble_int z (by rw [abs_of_nonneg h0]; omega)
  have h1 : toDouble (24*(d : ℚ)) = .finite (24*d) := by
    exact_mod_cast hexact (24*d) (by omega) (by omega)
  have h2 : toDouble (60*(24*(d : ℚ))) = .finite (60*(24*d)) := by
    exact_mod_cast hexact (60*(24*d)) (by omega) (by omega)
  have h3 : toDouble (60*(60*(24*(d : ℚ)))) = .finite (60*(60*(24*d))) := by
    exact_mod_cast hexact (60*(60*(24*d))) (by omega) (by omega)
  have h4 : toDouble (1000*(60*(60*(24*(d : ℚ))))) = .finite (1000*(60*(60*(24*d)))) := by
    exact_mod_cast hexact (1000*(60*(60*(24*d)))) (by omega) (by omega)
  have hms : (1000*(60*(60*(24*(d : ℚ))))) = d*dayMs := by
    rw [dayMs]
    ring
  have hsub : (now : ℚ)-d*dayMs = ((now-d*86400000 : ℤ) : ℚ) := by
    rw [dayMs]
    push_cast
    ring
  rw [daysAgo, h1, timesPositive, h2, timesPositive, h3, timesPositive, h4, minusMs, hms, hsub,
    toDouble_int _ hnow]

theorem deletePlan_some (t : Table) (o : Option Instant) (c : Instant) (l : Option ℕ)
    (h : deletePlan cfg t o = .delete c l) : o = some c ∧
      (l = none → isLimited t = false) ∧
      ∀ n, l = some n → isLimited t = true ∧ (n : ℚ) = cfg.retentionBatchLimit := by
  simp only [deletePlan] at h
  split at h
  · cases h
  · rename_i c' hc
    have ho : o = some c' := (Option.filter_eq_some_iff.mp hc).1
    split_ifs at h with hl
    · split at h
      · cases h
      · rename_i n hn
        simp only [Plan.delete.injEq] at h
        obtain ⟨rfl, rfl⟩ := h
        refine ⟨ho, by simp, ?_⟩
        intro m hm
        obtain rfl := Option.some.inj hm
        refine ⟨hl, ?_⟩
        simp only [limitParam] at hn
        split_ifs at hn with hq
        obtain rfl := Option.some.inj hn
        have hnum :
            ((cfg.retentionBatchLimit.num.toNat : ℤ) : ℚ) = cfg.retentionBatchLimit.num := by
          rw [Int.toNat_of_nonneg hq.2.1]
        rw [← Int.cast_natCast, hnum]
        exact Rat.coe_int_num_of_den_eq_one hq.1
    · simp only [Plan.delete.injEq] at h
      obtain ⟨rfl, rfl⟩ := h
      exact ⟨ho, fun _ => by simpa using hl, by simp⟩

theorem expired_mono (now now' : Instant) (h : now ≤ now') (t : Table) (r : Row t)
    (he : Expired cfg now t r) : Expired cfg now' t r := by
  obtain ⟨hterminal, hwindow⟩ := he
  refine ⟨hterminal, ?_⟩
  cases hd : ttlDays cfg t with
  | none =>
    rw [hd] at hwindow
    exact lt_of_lt_of_le hwindow h
  | some days =>
    rw [hd] at hwindow
    exact ⟨hwindow.1, earlier_of_below _ _ _ (daysAgo_mono now now' h days) hwindow.2⟩

theorem plan_expired (now : Instant) (t : Table) (c : Instant) (l : Option ℕ)
    (h : plan cfg now t = .delete c l) (r : Row t) (hr : stale t c r = true) :
    Expired cfg now t r := by
  simp only [stale, Bool.and_eq_true, decide_eq_true_eq] at hr
  refine ⟨hr.1, ?_⟩
  simp only [plan] at h
  cases hd : ttlDays cfg t with
  | none =>
    simp only [hd] at h
    exact Int.cast_lt.mp (lt_of_iso (.finite now) c _ (deletePlan_some t _ c l h).1 hr.2)
  | some days =>
    simp only [hd] at h
    split_ifs at h with hpos
    exact ⟨not_le.mp hpos, lt_of_iso _ _ _ (deletePlan_some t _ c l h).1 hr.2⟩

theorem plan_limit (now : Instant) (t : Table) (c : Instant) (l : Option ℕ)
    (h : plan cfg now t = .delete c l) : (l = none → isLimited t = false) ∧
      ∀ n, l = some n → isLimited t = true ∧ (n : ℚ) = cfg.retentionBatchLimit := by
  simp only [plan] at h
  cases hd : ttlDays cfg t with
  | none =>
    simp only [hd] at h
    exact (deletePlan_some t _ c l h).2
  | some days =>
    simp only [hd] at h
    split_ifs at h
    exact (deletePlan_some t _ c l h).2

theorem mem_dueKeys (w : World) (t : Table) (c : Instant) (k : Key) :
    k ∈ dueKeys w t c ↔ ∃ r ∈ w.tables t, stale t c r = true ∧ k ∉ w.deleted t ∧ key t r = k := by
  simp only [dueKeys, List.mem_map, List.mem_filter, Bool.and_eq_true, decide_eq_true_eq]
  constructor
  · rintro ⟨r, ⟨hr, hs, hn⟩, rfl⟩
    exact ⟨r, hr, hs, hn, rfl⟩
  · rintro ⟨r, hr, hs, hn, rfl⟩
    exact ⟨r, ⟨hr, hs, hn⟩, rfl⟩

theorem dueKeys_nodup (w : World) (t : Table) (c : Instant) (hk : Keyed w) :
    (dueKeys w t c).Nodup :=
  (hk t).sublist ((List.filter_sublist).map (key t))

theorem commit_length (w : World) (t : Table) (hk : Keyed w) (hn : (w.deleted t).Nodup)
    (hd : ∀ k ∈ w.deleted t, ∃ r ∈ w.tables t, key t r = k) :
    (w.commit.tables t).length+(w.deleted t).length = (w.tables t).length := by
  have hperm : (((w.tables t).filter (fun r => key t r ∈ w.deleted t)).map (key t)).Perm
      (w.deleted t) := by
    apply (List.perm_ext_iff_of_nodup ((hk t).sublist ((List.filter_sublist).map (key t))) hn).mpr
    intro k
    simp only [List.mem_map, List.mem_filter, decide_eq_true_eq]
    constructor
    · rintro ⟨r, ⟨_, hr⟩, rfl⟩
      exact hr
    · intro hkd
      obtain ⟨r, hr, rfl⟩ := hd k hkd
      exact ⟨r, ⟨hr, hkd⟩, rfl⟩
  have hsplit := List.length_eq_length_filter_add (l := w.tables t)
    (fun r => decide (key t r ∈ w.deleted t))
  have hlen := hperm.length_eq
  rw [List.length_map] at hlen
  have hcommit : w.commit.tables t =
      (w.tables t).filter (fun r => !decide (key t r ∈ w.deleted t)) := by
    simp [World.commit]
  rw [hcommit, ← hlen]
  omega

inductive Move (cfg : Config) (w : World) : Sweep → World → Sweep → Prop
  | leave (r : SweepResult) (hr : r.status ≠ .completed) : Move cfg w .ready w (.done r)
  | fail : Move cfg w .ready w .failed
  | take (h : w.lock = false) :
    Move cfg w .ready { w with lock := true } (.sweeping w.now sweepOrder (fun _ => 0))
  | pass (since : Instant) (t : Table) (todo : List Table) (counts : Table → ℕ) (lag : ℕ)
    (h : since ≤ w.now-lag) (hp : plan cfg (w.now-lag) t = .off) :
    Move cfg w (.sweeping since (t::todo) counts) w (.sweeping since todo counts)
  | purge (since : Instant) (t : Table) (todo : List Table) (counts : Table → ℕ) (lag : ℕ)
    (cutoff : Instant) (limit : Option ℕ) (batch : List Key) (h : since ≤ w.now-lag)
    (hp : plan cfg (w.now-lag) t = .delete cutoff limit)
    (hb : List.Sublist batch (dueKeys w t cutoff))
    (ha : allowed limit (dueKeys w t cutoff) batch = true) :
    Move cfg w (.sweeping since (t::todo) counts) (w.deleteRows t batch)
      (.sweeping since todo (Function.update counts t batch.length))
  | rollback (since : Instant) (todo : List Table) (counts : Table → ℕ) :
    Move cfg w (.sweeping since todo counts) w.rollback .failed
  | commit (since : Instant) (counts : Table → ℕ) :
    Move cfg w (.sweeping since [] counts) w.commit (.done ⟨.completed, counts⟩)

theorem purgeStep_move (w w' : World) (since : Instant) (t : Table) (todo : List Table)
    (counts : Table → ℕ) (lag : ℕ) (chosen : List Key) (u : Sweep)
    (h : purgeStep cfg w since t todo counts lag chosen = some (w', u)) :
    Move cfg w (.sweeping since (t::todo) counts) w' u := by
  simp only [purgeStep] at h
  split_ifs at h with hs
  split at h
  · rename_i hp
    simp only [Option.some.injEq, Prod.mk.injEq] at h
    obtain ⟨rfl, rfl⟩ := h
    exact Move.pass since t todo counts lag hs hp
  · simp only [Option.some.injEq, Prod.mk.injEq] at h
    obtain ⟨rfl, rfl⟩ := h
    exact Move.rollback since (t::todo) counts
  · rename_i cutoff limit hp
    split_ifs at h with ha
    simp only [Option.some.injEq, Prod.mk.injEq] at h
    obtain ⟨rfl, rfl⟩ := h
    exact Move.purge since t todo counts lag cutoff limit _ hs hp List.filter_sublist ha

theorem act_move (io : Io) (w w' : World) (u u' : Sweep) (h : act cfg io w u = some (w', u')) :
    Move cfg w u w' u' := by
  cases u with
  | ready =>
    cases io with
    | ok =>
      simp only [act] at h
      split_ifs at h with he hl <;> simp only [Option.some.injEq, Prod.mk.injEq] at h <;>
        obtain ⟨rfl, rfl⟩ := h
      · exact Move.leave _ (by simp)
      · exact Move.leave _ (by simp)
      · exact Move.take (by simpa using hl)
    | fault =>
      simp only [act, Option.some.injEq, Prod.mk.injEq] at h
      obtain ⟨rfl, rfl⟩ := h
      exact Move.fail
    | purge lag chosen => cases h
  | sweeping since todo counts =>
    cases todo with
    | nil =>
      cases io with
      | ok =>
        simp only [act, Option.some.injEq, Prod.mk.injEq] at h
        obtain ⟨rfl, rfl⟩ := h
        exact Move.commit since counts
      | fault =>
        simp only [act, Option.some.injEq, Prod.mk.injEq] at h
        obtain ⟨rfl, rfl⟩ := h
        exact Move.rollback since [] counts
      | purge lag chosen => cases h
    | cons t todo =>
      cases io with
      | ok => cases h
      | fault =>
        simp only [act, Option.some.injEq, Prod.mk.injEq] at h
        obtain ⟨rfl, rfl⟩ := h
        exact Move.rollback since (t::todo) counts
      | purge lag chosen => exact purgeStep_move w w' since t todo counts lag chosen u' h
  | done r => cases io <;> cases h
  | failed => cases io <;> cases h

structure EnvEffect (w w' : World) : Prop where
  now : w.now ≤ w'.now
  lock : w'.lock = w.lock
  deleted : w'.deleted = w.deleted
  keyed : Keyed w → Keyed w'
  kept : ∀ t r, r ∈ w.tables t → key t r ∈ w.deleted t → r ∈ w'.tables t

theorem setTable_effect (w : World) (t : Table) (rows : List (Row t))
    (hn : ((w.tables t).map (key t)).Nodup → (rows.map (key t)).Nodup)
    (hk : ∀ r ∈ w.tables t, key t r ∈ w.deleted t → r ∈ rows) :
    EnvEffect w (setTable w t rows) := by
  refine ⟨le_rfl, rfl, rfl, ?_, ?_⟩
  · intro hkeyed t'
    by_cases ht : t' = t
    · subst ht
      simpa using hn (hkeyed t')
    · simpa [setTable_other _ _ _ _ ht] using hkeyed t'
  · intro t' r hr hd
    by_cases ht : t' = t
    · subst ht
      simpa using hk r hr hd
    · simpa [setTable_other _ _ _ _ ht] using hr

theorem env_effect (e : Env) (w w' : World) (o : Option Sweep) (h : env e w = some (w', o)) :
    EnvEffect w w' ∧ (o = none ∨ o = some .ready) := by
  cases e with
  | tick ms =>
    simp only [env, Option.some.injEq, Prod.mk.injEq] at h
    obtain ⟨rfl, rfl⟩ := h
    exact ⟨⟨le_add_of_nonneg_right (Int.natCast_nonneg ms), rfl, rfl, fun hk => hk,
      fun _ _ hr _ => hr⟩, Or.inl rfl⟩
  | insert t r =>
    simp only [env] at h
    split_ifs at h with hc
    simp only [Option.some.injEq, Prod.mk.injEq] at h
    obtain ⟨rfl, rfl⟩ := h
    refine ⟨setTable_effect w t _ ?_ ?_, Or.inl rfl⟩
    · intro hn
      rw [List.map_append, List.map_singleton]
      exact List.nodup_append.mpr ⟨hn, List.nodup_singleton _, by
        rintro a ha b hb rfl
        exact hc (List.mem_singleton.mp hb ▸ ha)⟩
    · exact fun r' hr _ => List.mem_append_left _ hr
  | update t r =>
    simp only [env] at h
    split_ifs at h with hc
    simp only [Option.some.injEq, Prod.mk.injEq] at h
    obtain ⟨rfl, rfl⟩ := h
    refine ⟨setTable_effect w t _ ?_ ?_, Or.inl rfl⟩
    · intro hn
      have hsame : ((w.tables t).map (fun r' => if key t r' = key t r then r else r')).map (key t) =
          (w.tables t).map (key t) := by
        rw [List.map_map]
        apply List.map_congr_left
        intro r' _
        simp only [Function.comp_apply]
        split_ifs with he
        · exact he.symm
        · rfl
      rw [hsame]
      exact hn
    · intro r' hr hd
      apply List.mem_map.mpr
      refine ⟨r', hr, if_neg ?_⟩
      intro he
      exact hc (he ▸ hd)
  | delete t k =>
    simp only [env] at h
    split_ifs at h with hc
    simp only [Option.some.injEq, Prod.mk.injEq] at h
    obtain ⟨rfl, rfl⟩ := h
    refine ⟨setTable_effect w t _ ?_ ?_, Or.inl rfl⟩
    · exact fun hn => hn.sublist ((List.filter_sublist).map (key t))
    · intro r hr hd
      apply List.mem_filter.mpr
      refine ⟨hr, ?_⟩
      simp only [ne_eq, decide_not, Bool.not_eq_eq_eq_not, Bool.not_true, decide_eq_false_iff_not]
      rintro rfl
      exact hc hd
  | sweep =>
    simp only [env, Option.some.injEq, Prod.mk.injEq] at h
    obtain ⟨rfl, rfl⟩ := h
    exact ⟨⟨le_rfl, rfl, rfl, fun hk => hk, fun _ _ hr _ => hr⟩, Or.inr rfl⟩

theorem worldOk_env (w w' : World) (h : EnvEffect w w') (hw : WorldOk w) : WorldOk w' :=
  ⟨h.keyed hw.keyed, fun hl t => by rw [h.deleted]; exact hw.clean (h.lock ▸ hl) t⟩

theorem threadOk_env (w w' : World) (h : EnvEffect w w') (u : Sweep) (hu : ThreadOk cfg w u) :
    ThreadOk cfg w' u := by
  cases u with
  | sweeping since todo counts =>
    constructor
    · exact h.lock.trans hu.lock
    · exact hu.since.trans h.now
    · exact hu.order
    · rw [h.deleted]
      exact hu.counts
    · rw [h.deleted]
      exact hu.todo
    · rw [h.deleted]
      exact hu.nodup
    · intro t k hk
      rw [h.deleted] at hk
      obtain ⟨r, hr, rfl, he⟩ := hu.expired t k hk
      exact ⟨r, h.kept t r hr hk, rfl, expired_mono _ _ h.now t r he⟩
    · rw [h.deleted]
      exact hu.limit
  | _ => trivial

theorem allowed_limit (limit : Option ℕ) (due batch : List Key) (n : ℕ) (hl : limit = some n)
    (h : allowed limit due batch = true) : batch.length ≤ n := by
  subst hl
  simp only [allowed, decide_eq_true_eq] at h
  omega

theorem worldOk_move {w w' : World} {u u' : Sweep} (h : Move cfg w u w' u') (hw : WorldOk w)
    (hu : ThreadOk cfg w u) : WorldOk w' := by
  cases h with
  | leave r _ | fail => exact hw
  | take hl => exact ⟨hw.keyed, fun hf => by cases hf⟩
  | pass since t todo counts lag _ _ => exact hw
  | purge since t todo counts lag cutoff limit batch _ _ _ _ =>
    refine ⟨hw.keyed, ?_⟩
    intro hf
    have hlock : w.lock = true := hu.lock
    exact (Bool.false_ne_true (hf.symm.trans hlock)).elim
  | rollback since todo counts => exact ⟨hw.keyed, fun _ _ => rfl⟩
  | commit since counts =>
    exact ⟨fun t => (hw.keyed t).sublist ((List.filter_sublist).map (key t)), fun _ _ => rfl⟩

theorem sweepOk_purge {w : World} {since : Instant} {t : Table} {todo : List Table}
    {counts : Table → ℕ} {lag : ℕ} {cutoff : Instant} {limit : Option ℕ} {batch : List Key}
    (hp : plan cfg (w.now-lag) t = .delete cutoff limit)
    (hb : List.Sublist batch (dueKeys w t cutoff))
    (ha : allowed limit (dueKeys w t cutoff) batch = true) (hw : WorldOk w)
    (hu : SweepOk cfg w since (t::todo) counts) :
    SweepOk cfg (w.deleteRows t batch) since todo (Function.update counts t batch.length) := by
  have hnotin : t ∉ todo := by
    have hnodup : (t::todo).Nodup := (by decide : sweepOrder.Nodup).sublist hu.order.sublist
    exact (List.nodup_cons.mp hnodup).1
  have hlimits := plan_limit (w.now-lag) t cutoff limit hp
  constructor
  · exact hu.lock
  · exact hu.since
  · exact (List.suffix_cons t todo).trans hu.order
  · intro t'
    by_cases ht : t' = t
    · subst ht
      simp
    · rw [deleteRows_other w t t' batch ht, Function.update_of_ne ht]
      exact hu.counts t'
  · intro t' ht'
    have hne : t' ≠ t := fun he => hnotin (he ▸ ht')
    rw [deleteRows_other w t t' batch hne]
    exact hu.todo t' (List.mem_cons_of_mem t ht')
  · intro t'
    by_cases ht : t' = t
    · subst ht
      rw [deleteRows_self]
      exact (dueKeys_nodup w t' cutoff hw.keyed).sublist hb
    · rw [deleteRows_other w t t' batch ht]
      exact hu.nodup t'
  · intro t' k hk
    by_cases ht : t' = t
    · subst ht
      rw [deleteRows_self] at hk
      obtain ⟨r, hr, hs, _, rfl⟩ := (mem_dueKeys w t' cutoff k).mp (hb.subset hk)
      have hexp := plan_expired (w.now-lag) t' cutoff limit hp r hs
      exact ⟨r, hr, rfl, expired_mono _ _ (sub_le_self _ (Int.natCast_nonneg lag)) t' r hexp⟩
    · rw [deleteRows_other w t t' batch ht] at hk
      exact hu.expired t' k hk
  · intro t' hlt hne
    by_cases ht : t' = t
    · subst ht
      rw [deleteRows_self]
      cases limit with
      | none => simp [hlimits.1 rfl] at hlt
      | some n =>
        rw [← (hlimits.2 n rfl).2]
        exact_mod_cast allowed_limit _ _ _ n rfl ha
    · rw [deleteRows_other w t t' batch ht] at hne ⊢
      exact hu.limit t' hlt hne

theorem threadOk_move {w w' : World} {u u' : Sweep} (h : Move cfg w u w' u') (hw : WorldOk w)
    (hu : ThreadOk cfg w u) : ThreadOk cfg w' u' := by
  cases h with
  | leave r _ | fail | rollback since todo counts | commit since counts => trivial
  | take hl =>
    have hclean := hw.clean hl
    constructor
    · rfl
    · exact le_rfl
    · exact List.suffix_rfl
    · simp [hclean]
    · exact fun t _ => hclean t
    · intro t
      rw [hclean t]
      exact List.nodup_nil
    · intro t k hk
      rw [hclean t] at hk
      cases hk
    · exact fun t _ hne => (hne (hclean t)).elim
  | pass since t todo counts lag _ _ =>
    exact ⟨hu.lock, hu.since, (List.suffix_cons t todo).trans hu.order, hu.counts,
      fun t' ht => hu.todo t' (List.mem_cons_of_mem t ht), hu.nodup, hu.expired, hu.limit⟩
  | purge since t todo counts lag cutoff limit batch _ hp hb ha =>
    exact sweepOk_purge hp hb ha hw hu

theorem move_apart {w w' : World} {u u' v : Sweep} (h : Move cfg w u w' u')
    (hv : ThreadOk cfg w v) (ha : Apart w u v) : ThreadOk cfg w' v ∧ Apart w' u' v := by
  cases v with
  | sweeping since todo counts =>
    cases h with
    | leave r _ | fail => exact ⟨hv, Or.inl rfl⟩
    | take hl => exact (Bool.false_ne_true (hl.symm.trans hv.lock)).elim
    | pass _ _ _ _ _ _ _ | purge _ _ _ _ _ _ _ _ _ _ _ _ | rollback _ _ _ | commit _ _ =>
      rcases ha with ha | ha <;> cases ha
  | _ => exact ⟨trivial, Or.inr rfl⟩

theorem apart_symm (w : World) (u v : Sweep) (h : Apart w u v) : Apart w v u := Or.symm h

theorem swept_step (l : Event) (p q : State) (hi : Swept cfg p) (hs : next cfg l p = some q) :
    Swept cfg q := by
  cases l with
  | env e =>
    obtain ⟨w, o, he, rfl⟩ := (step_env_some _ _ _ _).mp hs
    obtain ⟨heffect, ho⟩ := env_effect e _ _ _ he
    apply holds_env p w o (worldOk_env _ _ heffect hi.world)
    · exact fun j u hj => threadOk_env _ _ heffect u (hi.thread j u hj)
    · rintro u rfl
      rcases ho with ho | ho <;> cases ho
      trivial
    · exact hi.pair
    · rintro u j v rfl _
      rcases ho with ho | ho <;> cases ho
      exact ⟨Or.inl rfl, Or.inr rfl⟩
  | act i io =>
    obtain ⟨u, w, u', hu, ha, rfl⟩ := (step_act_some _ _ _ _ _).mp hs
    have hm := act_move io _ _ _ _ ha
    have hself := hi.thread i u hu
    have hother : ∀ (j : ℕ) (v : Sweep), j ≠ i → p.threads[j]? = some v →
        ThreadOk cfg w v ∧ Apart w u' v :=
      fun j v hj hv => move_apart hm (hi.thread j v hv) (hi.pair i j u v (Ne.symm hj) hu hv)
    apply holds_act p i u' w (worldOk_move hm hi.world hself) (threadOk_move hm hi.world hself)
    · exact fun j v hj hv => (hother j v hj hv).1
    · exact fun j v hj hv => ⟨(hother j v hj hv).2, apart_symm w _ _ (hother j v hj hv).2⟩
    · exact fun j k v v' _ _ hjk hj hk => hi.pair j k v v' hjk hj hk

theorem swept_run (ls : List Event) (p q : State) (hi : Swept cfg p)
    (hr : run (next cfg) ls p = some q) : Swept cfg q :=
  run_invariant _ (fun _ _ => True) (Swept cfg) (fun l s t _ => swept_step l s t) ls p q
    (guarded_true _ ls p) hi hr

theorem swept_start (now : Instant) (tables : (t : Table) → List (Row t))
    (hk : ∀ t, ((tables t).map (key t)).Nodup) : Swept cfg (start now tables) :=
  holds_empty _ ⟨hk, fun _ _ => rfl⟩

/-- What the result of a sweep says about the tables before and after it
committed. -/
structure Accounted (cfg : Config) (before after : World) (r : SweepResult) : Prop where
  expired : ∀ t, ∀ x ∈ before.tables t, x ∉ after.tables t → Expired cfg before.now t x
  kept : ∀ t, List.Sublist (after.tables t) (before.tables t)
  counts : ∀ t, (after.tables t).length+r.deleted t = (before.tables t).length
  limit : ∀ t, isLimited t = true → r.deleted t ≠ 0 → r.deleted t ≤ cfg.retentionBatchLimit

theorem commit_accounted (w : World) (since : Instant) (counts : Table → ℕ) (hw : WorldOk w)
    (hu : SweepOk cfg w since [] counts) : Accounted cfg w w.commit ⟨.completed, counts⟩ := by
  constructor
  · intro t x hx hgone
    have hk : key t x ∈ w.deleted t := by
      by_contra hn
      exact hgone (List.mem_filter.mpr ⟨hx, by simpa using hn⟩)
    obtain ⟨y, hy, hky, hexp⟩ := hu.expired t _ hk
    obtain rfl := List.inj_on_of_nodup_map (hw.keyed t) hy hx hky
    exact hexp
  · exact fun t => List.filter_sublist
  · intro t
    show (w.commit.tables t).length+counts t = (w.tables t).length
    rw [hu.counts t]
    apply commit_length w t hw.keyed (hu.nodup t)
    intro k hk
    obtain ⟨y, hy, hky, _⟩ := hu.expired t k hk
    exact ⟨y, hy, hky⟩
  · intro t hl hne
    have hcount : counts t = (w.deleted t).length := hu.counts t
    show (counts t : ℚ) ≤ cfg.retentionBatchLimit
    rw [hcount]
    apply hu.limit t hl
    intro he
    exact hne (hcount.trans (by rw [he]; rfl))

def purged : Sweep → Bool
  | .sweeping _ [] _ => true
  | _ => false

def commits (p : State) (i : ℕ) : Io → Bool
  | .ok => p.threads[i]?.any purged
  | _ => false

theorem sweep_step (p q : State) (i : ℕ) (io : Io) (hi : Swept cfg p)
    (hs : next cfg (.act i io) p = some q) :
    (commits p i io = true → ∃ r, q.threads[i]? = some (.done r) ∧ r.status = .completed ∧
      Accounted cfg p.world q.world r) ∧
    (commits p i io = false → q.world.tables = p.world.tables) := by
  obtain ⟨u, w, u', hu, ha, rfl⟩ := (step_act_some _ _ _ _ _).mp hs
  have hm := act_move io _ _ _ _ ha
  have hself := hi.thread i u hu
  cases hm with
  | commit since counts =>
    refine ⟨fun _ => ⟨_, set_self _ i _ _ hu, rfl,
      commit_accounted p.world since counts hi.world hself⟩, ?_⟩
    intro hno
    cases io with
    | ok => simp [commits, hu, purged] at hno
    | fault => cases (Prod.mk.inj (Option.some.inj ha)).2
    | purge lag chosen => cases ha
  | leave _ _ | fail | take _ | pass _ _ _ _ _ _ _ | purge _ _ _ _ _ _ _ _ _ _ _ _ =>
    refine ⟨?_, fun _ => rfl⟩
    intro hyes
    cases io <;> simp [commits, hu, purged] at hyes
  | rollback since todo counts =>
    refine ⟨?_, fun _ => rfl⟩
    intro hyes
    cases io with
    | ok =>
      cases todo with
      | nil => cases (Prod.mk.inj (Option.some.inj ha)).2
      | cons t todo => simp [commits, hu, purged] at hyes
    | fault | purge _ _ => cases hyes

/-- At any time at most one replica sweeps, and a step of a sweep changes the
tables only when it commits: what has gone then had expired, and the result
counts it exactly. -/
theorem sweep_accounts (cfg : Config) (now : Instant) (tables : (t : Table) → List (Row t))
    (hk : ∀ t, ((tables t).map (key t)).Nodup) (ls : List Event) (p q : State) (i : ℕ) (io : Io)
    (hr : run (next cfg) ls (start now tables) = some p)
    (hs : next cfg (.act i io) p = some q) :
    (∀ (j k : ℕ) (u v : Sweep), p.threads[j]? = some u → p.threads[k]? = some v →
      isSweeping u = true → isSweeping v = true → j = k) ∧
    (commits p i io = true → ∃ r, q.threads[i]? = some (.done r) ∧ r.status = .completed ∧
      Accounted cfg p.world q.world r) ∧
    (commits p i io = false → q.world.tables = p.world.tables) := by
  have hi := swept_run ls _ p (swept_start now tables hk) hr
  refine ⟨?_, sweep_step p q i io hi hs⟩
  intro j k u v hj hv hu hv'
  by_contra hne
  rcases hi.pair j k u v hne hj hv with h | h
  · simp [hu] at h
  · simp [hv'] at h

theorem sweep_takes_expired (p q : State) (i : ℕ) (io : Io) (hi : Swept cfg p)
    (hs : next cfg (.act i io) p = some q) (t : Table) (x : Row t) (hx : x ∈ p.world.tables t)
    (hgone : x ∉ q.world.tables t) : Expired cfg p.world.now t x := by
  obtain ⟨hcommit, hother⟩ := sweep_step p q i io hi hs
  cases hc : commits p i io with
  | false => exact (hgone (hother hc ▸ hx)).elim
  | true =>
    obtain ⟨r, _, _, haccounted⟩ := hcommit hc
    exact haccounted.expired t x hx hgone

section Scenario

def defaults : Config := ⟨true, 10000, 90, 14, 365, 30, 7⟩

def nothing : (t : Table) → List (Row t) := fun _ => []

def events : List (Row .auditEvents) := [AuditEventRow.mk [1] 0, AuditEventRow.mk [2] 8640000000]

def twoEvents : (t : Table) → List (Row t) := Function.update nothing .auditEvents events

def hundredDays : Instant := 8640000000

def sweeps (i : ℕ) (chosen : List Key) : List Event :=
  .act i .ok::List.replicate 6 (.act i (.purge 0 chosen))

def swept : State :=
  (run (next defaults) (.env .sweep::.env .sweep::sweeps 0 [[[1]]])
    (start hundredDays twoEvents)).get (by decide +kernel)

def committed : State := (next defaults (.act 0 .ok) swept).get (by decide +kernel)

theorem twoEvents_keyed (t : Table) : ((twoEvents t).map (key t)).Nodup := by
  cases t <;> decide

theorem sweep_accounts_events :
    (∀ (j k : ℕ) (u v : Sweep), swept.threads[j]? = some u → swept.threads[k]? = some v →
      isSweeping u = true → isSweeping v = true → j = k) ∧
    ∃ r, committed.threads[0]? = some (.done r) ∧ r.status = .completed ∧
      Accounted defaults swept.world committed.world r := by
  obtain ⟨hsingle, hcommit, _⟩ := sweep_accounts defaults hundredDays twoEvents twoEvents_keyed _
    swept committed 0 .ok (Option.some_get _).symm (Option.some_get _).symm
  exact ⟨hsingle, hcommit (by decide +kernel)⟩

end Scenario

end ControlPlane.RetentionSweep
