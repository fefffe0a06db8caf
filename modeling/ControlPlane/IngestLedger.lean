import ControlPlane.EventFanout
import ControlPlane.PoolSums

/-!
# The counters of the event route

A replica counts the entries that it drops and those that are stored already.
The counters, the rows of `audit_events` and the requests that have run
balance: every entry that is an object is in one of them.
-/

set_option autoImplicit false

namespace ControlPlane.IngestLedger
open ControlPlane.JsText ControlPlane.JsValue ControlPlane.EventNormalize ControlPlane.EventIngest
open ControlPlane.EventFanout ControlPlane.RunMachine ControlPlane.NamedPool ControlPlane.PoolSums

/-- `eventsDroppedTotal` and `eventsDuplicateTotal` of each replica. -/
structure Ledger where
  world : World
  dropped : ℕ → ℕ
  duplicate : ℕ → ℕ

def recordEvents (replica n : ℕ) (totals : ℕ → ℕ) : ℕ → ℕ :=
  Function.update totals replica (totals replica+n)

/-- What a statement passes to `recordEventsDropped`. -/
def droppedBy (S : Service) (io : Io) (w : World) (t : Thread) : ℕ :=
  match t.phase, io with
  | .running body, .ok =>
    match prepare S.runtime w.now t.request body with
    | .ok b => b.dropped
    | .error _ => 0
  | _, _ => 0

/-- What it passes to `recordEventsDuplicate`. -/
def duplicatesBy (io : Io) (w : World) (t : Thread) : ℕ :=
  match t.phase, io with
  | .inserting b, .ok => b.normalized.length-(newEvents w b).length
  | _, _ => 0

def record (S : Service) (io : Io) (t : Thread) (l : Ledger) (w : World) : Ledger where
  world := w
  dropped := recordEvents t.request.replica (droppedBy S io l.world t) l.dropped
  duplicate := recordEvents t.request.replica (duplicatesBy io l.world t) l.duplicate

def meteredAct (S : Service) (n : ℕ) (io : Io) (l : Ledger) (t : Thread) :
    Option (Ledger × Thread) :=
  (act S n io l.world t).map (fun r => (record S io t l r.1, r.2))

def meteredEnv (e : Env) (l : Ledger) : Option Ledger :=
  (env e l.world).map (fun w => { l with world := w })

def metered (S : Service) : System Ledger ℕ Thread Env Io EventsRequest :=
  ⟨meteredEnv, fun q => ⟨q, .received⟩, meteredAct S⟩

def opened (now : Instant) (webhooks : List Webhook) : Pool Ledger ℕ Thread :=
  idle ⟨(start now webhooks).world, fun _ => 0, fun _ => 0⟩

def unmetered (p : Pool Ledger ℕ Thread) : State := ⟨p.world.world, p.thread⟩

theorem unmetered_step (S : Service) (l : Label ℕ Env Io EventsRequest)
    (p q : Pool Ledger ℕ Thread) (h : step (metered S) l p = some q) :
    next S l (unmetered p) = some (unmetered q) := by
  cases l with
  | env e =>
    obtain ⟨v, hv, rfl⟩ := (step_env_some (metered S) e p q).mp h
    obtain ⟨w, hw, rfl⟩ := Option.map_eq_some_iff.mp hv
    exact (step_env_some (ingest S) e _ _).mpr ⟨w, hw, rfl⟩
  | start n r =>
    obtain ⟨hn, rfl⟩ := (step_start_some (metered S) n r p q).mp h
    exact (step_start_some (ingest S) n r _ _).mpr ⟨hn, rfl⟩
  | act n io =>
    obtain ⟨t, v, u, ht, ha, rfl⟩ := (step_act_some (metered S) n io p q).mp h
    obtain ⟨r, hr, hv⟩ := Option.map_eq_some_iff.mp ha
    obtain ⟨rfl, rfl⟩ := Prod.mk.inj hv
    exact (step_act_some (ingest S) n io _ _).mpr ⟨t, r.1, r.2, ht, hr, rfl⟩

/-- The counters only watch the machine of the event route. -/
theorem unmetered_run (S : Service) (now : Instant) (webhooks : List Webhook)
    (ls : List (Label ℕ Env Io EventsRequest)) (p : Pool Ledger ℕ Thread)
    (hr : run (step (metered S)) ls (opened now webhooks) = some p) :
    run (next S) ls (start now webhooks) = some (unmetered p) := by
  apply run_history (step (metered S)) (fun ls p => run (next S) ls (start now webhooks) =
    some (unmetered p)) (opened now webhooks) rfl _ ls p hr
  intro before l t u _ ht hs
  rw [run_append_some]
  exact ⟨unmetered t, ht, by simp [run, unmetered_step S l t u hs]⟩

def batchOf : Phase → Option (Batch × Option (List Text))
  | .inserting b => some (b, none)
  | .listing b ids => some (b, some ids)
  | .publishing f _ => some (f.batch, some f.insertedIds)
  | .projecting f _ _ => some (f.batch, some f.insertedIds)
  | .tracing f _ _ => some (f.batch, some f.insertedIds)
  | .dispatching f _ _ => some (f.batch, some f.insertedIds)
  | .finished ran _ => ran.map (fun f => (f.batch, some f.insertedIds))
  | .persisted ran _ => ran.map (fun f => (f.batch, some f.insertedIds))
  | .answered ran _ _ => ran.map (fun f => (f.batch, some f.insertedIds))
  | _ => none

def droppedIn (ph : Phase) : ℕ :=
  match batchOf ph with
  | some (b, _) => b.dropped
  | none => 0

def insertedIn (ph : Phase) : ℕ :=
  match batchOf ph with
  | some (_, some ids) => ids.length
  | _ => 0

def duplicatesIn (ph : Phase) : ℕ :=
  match batchOf ph with
  | some (b, some ids) => b.normalized.length-ids.length
  | _ => 0

def share (replica : ℕ) (f : Phase → ℕ) : Option Thread → ℤ
  | some t => if t.request.replica = replica then f t.phase else 0
  | none => 0

def storedShare : Option Thread → ℤ
  | some t => insertedIn t.phase
  | none => 0

section Steps
variable (S : Service) (n : ℕ) (q : EventsRequest)

inductive Counting (S : Service) (n : ℕ) (q : EventsRequest) (w : World) :
    Io → Phase → World → Phase → Prop
  | refuse (body : Json) (a : Answer) (h : prepare S.runtime w.now q body = .error a) :
    Counting S n q w .ok (.running body) w (.finished none a)
  | prepare (body : Json) (b : Batch) (h : prepare S.runtime w.now q body = .ok b) :
    Counting S n q w .ok (.running body) w (.inserting b)
  | insert (b : Batch) :
    Counting S n q w .ok (.inserting b) (insertStep n w b).1
      (.listing b ((newEvents w b).map (·.id)))
  | fail (b : Batch) : Counting S n q w .fault (.inserting b) w (.answered none .threw false)
  | other {io : Io} {ph : Phase} {v : World} {ph' : Phase}
    (hrun : io = .ok → ∀ body, ph ≠ .running body)
    (hinsert : io = .ok → ∀ b, ph ≠ .inserting b) (hbatch : batchOf ph' = batchOf ph)
    (hrows : v.events = w.events) :
    Counting S n q w io ph v ph'

theorem begin_batch : batchOf (begin q) = none := by
  unfold begin
  split_ifs
  · rfl
  · split
    · rfl
    · split <;> rfl

theorem lookup_batch (w : World) (body : Json) : batchOf (lookupStep w q body) = none := by
  unfold lookupStep
  split
  · split <;> rfl
  · rfl

theorem slice_batch (f : FanOut) (todo : List EventRecord) :
    batchOf (sliceStep f todo) = some (f.batch, some f.insertedIds) := by
  cases todo <;> rfl

theorem persist_batch (io : Io) (w : World) (ran : Option FanOut) (a : Answer) :
    batchOf (persistStep io n w q ran a).2 = ran.map (fun f => (f.batch, some f.insertedIds)) := by
  rcases persist_phase io n w q ran a with h | h
  · rw [h, batchOf]
  · rw [h, batchOf]

theorem settle_batch (w : World) (ran : Option FanOut) (a : Answer) :
    batchOf (settleStep w q ran a) = ran.map (fun f => (f.batch, some f.insertedIds)) := by
  obtain ⟨a', replayed, h⟩ := settle_phase w q ran a
  rw [h, batchOf]

theorem publish_rows (w : World) (f : FanOut) (e : EventRecord) (todo : List EventRecord) :
    (publishStep n q w f e todo).1.events = w.events := by
  unfold publishStep
  split_ifs <;> rfl

theorem project_rows (io : Io) (w : World) (e : EventRecord) :
    (projectStep io w e).events = w.events := by
  unfold projectStep
  split_ifs <;> rfl

theorem trace_rows (io : Io) (w : World) (e : EventRecord) :
    (traceStep S io w e).events = w.events := by
  unfold traceStep
  split_ifs <;> rfl

theorem persist_rows (io : Io) (w : World) (ran : Option FanOut) (a : Answer) :
    (persistStep io n w q ran a).1.events = w.events := by
  unfold persistStep
  split
  · split_ifs <;> rfl
  · rfl

theorem step_counting (io : Io) (w v : World) (ph ph' : Phase)
    (h : eventStep S n q io w ph = some (v, ph')) : Counting S n q w io ph v ph' := by
  cases step_move S n q io w v ph ph' h with
  | receive => exact .other (by simp) (by simp) (begin_batch q) rfl
  | find body => exact .other (by simp) (by simp) (lookup_batch q w body) rfl
  | prepare body =>
    unfold prepareStep
    cases hp : prepare S.runtime w.now q body with
    | error a => exact .refuse body a hp
    | ok b => exact .prepare body b hp
  | insert b => exact .insert b
  | uninserted b => exact .fail b
  | publish f e todo => exact .other (by simp) (by simp) rfl (publish_rows n q w f e todo)
  | project f e todo => exact .other (by simp) (by simp) rfl (project_rows io w e)
  | trace f e todo => exact .other (by simp) (by simp) rfl (trace_rows S io w e)
  | slice f todo => exact .other (by simp) (by simp) (slice_batch f todo) rfl
  | persist ran a =>
    exact .other (by simp) (by simp) (persist_batch n q io w ran a) (persist_rows n q io w ran a)
  | settle ran a => exact .other (by simp) (by simp) (settle_batch q w ran a) rfl
  | _ => exact .other (by simp) (by simp) rfl rfl

variable {S n q} {io : Io} {w v : World} {ph ph' : Phase}

theorem duplicates_step (h : Counting S n q w io ph v ph') :
    duplicatesBy io w ⟨q, ph⟩+duplicatesIn ph = duplicatesIn ph' := by
  cases h with
  | refuse body a h => rfl
  | prepare body b h => rfl
  | insert b => simp [duplicatesBy, duplicatesIn, batchOf]
  | fail b => rfl
  | other hrun hinsert hbatch hrows =>
    have hzero : duplicatesBy io w ⟨q, ph⟩ = 0 := by
      cases ph with
      | inserting b =>
        cases io with
        | ok => exact absurd rfl (hinsert rfl b)
        | _ => rfl
      | _ => rfl
    rw [hzero, duplicatesIn, duplicatesIn, hbatch, Nat.zero_add]

theorem rows_step (h : Counting S n q w io ph v ph') :
    w.events.length+insertedIn ph' = v.events.length+insertedIn ph := by
  cases h with
  | refuse body a h => rfl
  | prepare body b h => rfl
  | insert b => simp [insertStep, insertedIn, batchOf]
  | fail b => rfl
  | other hrun hinsert hbatch hrows => rw [hrows, insertedIn, insertedIn, hbatch]

theorem dropped_step (h : Counting S n q w io ph v ph') :
    droppedIn ph' ≤ droppedBy S io w ⟨q, ph⟩+droppedIn ph ∧
      (io = .fault ∧ (∃ b, ph = .inserting b) ∨
        droppedBy S io w ⟨q, ph⟩+droppedIn ph = droppedIn ph') := by
  cases h with
  | refuse body a h => simp [droppedBy, droppedIn, batchOf, h]
  | prepare body b h => simp [droppedBy, droppedIn, batchOf, h]
  | insert b => simp [droppedBy, droppedIn, batchOf]
  | fail b => exact ⟨Nat.zero_le _, Or.inl ⟨rfl, b, rfl⟩⟩
  | other hrun hinsert hbatch hrows =>
    have hzero : droppedBy S io w ⟨q, ph⟩ = 0 := by
      cases ph with
      | running body =>
        cases io with
        | ok => exact absurd rfl (hrun rfl body)
        | _ => rfl
      | _ => rfl
    rw [hzero, droppedIn, droppedIn, hbatch, Nat.zero_add]
    exact ⟨le_rfl, Or.inr rfl⟩

end Steps

section Balance
variable (S : Service)

theorem metered_step (n : ℕ) (io : Io) (l l' : Ledger) (t u : Thread)
    (h : meteredAct S n io l t = some (l', u)) :
    Counting S n t.request l.world io t.phase l'.world u.phase ∧ u.request = t.request ∧
      l' = record S io t l l'.world := by
  simp only [meteredAct, act, Option.map_map, Option.map_eq_some_iff, Prod.exists, Prod.mk.injEq,
    Function.comp_apply] at h
  obtain ⟨v, ph, hs, rfl, rfl⟩ := h
  exact ⟨step_counting S n t.request io l.world v t.phase ph hs, rfl, rfl⟩

def InsertsSucceed (l : Label ℕ Env Io EventsRequest) (p : Pool Ledger ℕ Thread) : Prop :=
  ∀ n, l = .act n .fault → ∀ t, p.thread n = some t → ∀ b, t.phase ≠ .inserting b

theorem counter_step (r k : ℕ) (f : Phase → ℕ) (totals : ℕ → ℕ) (t u : Thread)
    (hq : u.request = t.request) :
    (f u.phase ≤ k+f t.phase → (totals r : ℤ)+share r f (some u) ≤
      recordEvents t.request.replica k totals r+share r f (some t)) ∧
    (k+f t.phase = f u.phase → (totals r : ℤ)+share r f (some u) =
      recordEvents t.request.replica k totals r+share r f (some t)) := by
  simp only [share, hq, recordEvents]
  by_cases hr : t.request.replica = r
  · subst hr
    simp only [if_true, Function.update_self]
    omega
  · rw [if_neg hr, if_neg hr, Function.update_of_ne (Ne.symm hr)]
    omega

theorem feeds_dropped (r : ℕ) : Feeds (metered S) (fun l => (l.dropped r : ℤ))
    (share r droppedIn) (fun _ _ => True) where
  none := rfl
  env e l l' h := by
    obtain ⟨w, _, rfl⟩ := Option.map_eq_some_iff.mp h
    exact le_rfl
  start q := by simp [share, metered, droppedIn, batchOf]
  act n io p t l' u _ _ ha := by
    obtain ⟨hstep, hq, hl⟩ := metered_step S n io p.world l' t u ha
    rw [hl]
    exact (counter_step r _ droppedIn p.world.dropped t u hq).1 (dropped_step hstep).1

theorem exact_dropped (r : ℕ) : Exact (metered S) (fun l => (l.dropped r : ℤ))
    (share r droppedIn) InsertsSucceed where
  none := rfl
  env e l l' h := by
    obtain ⟨w, _, rfl⟩ := Option.map_eq_some_iff.mp h
    rfl
  start q := by simp [share, metered, droppedIn, batchOf]
  act n io p t l' u hok ht ha := by
    obtain ⟨hstep, hq, hl⟩ := metered_step S n io p.world l' t u ha
    rw [hl]
    apply (counter_step r _ droppedIn p.world.dropped t u hq).2
    rcases (dropped_step hstep).2 with ⟨rfl, b, hb⟩ | h
    · exact absurd hb (hok n rfl t ht b)
    · exact h

theorem exact_duplicate (r : ℕ) : Exact (metered S) (fun l => (l.duplicate r : ℤ))
    (share r duplicatesIn) (fun _ _ => True) where
  none := rfl
  env e l l' h := by
    obtain ⟨w, _, rfl⟩ := Option.map_eq_some_iff.mp h
    rfl
  start q := by simp [share, metered, duplicatesIn, batchOf]
  act n io p t l' u _ _ ha := by
    obtain ⟨hstep, hq, hl⟩ := metered_step S n io p.world l' t u ha
    rw [hl]
    exact (counter_step r _ duplicatesIn p.world.duplicate t u hq).2 (duplicates_step hstep)

theorem exact_rows : Exact (metered S) (fun l => (l.world.events.length : ℤ)) storedShare
    (fun _ _ => True) where
  none := rfl
  env e l l' h := by
    obtain ⟨w, hw, rfl⟩ := Option.map_eq_some_iff.mp h
    cases e <;> cases hw <;> rfl
  start q := by simp [storedShare, metered, insertedIn, batchOf]
  act n io p t l' u _ _ ha := by
    obtain ⟨hstep, hq, hl⟩ := metered_step S n io p.world l' t u ha
    have hrows := rows_step hstep
    simp only [storedShare]
    omega

end Balance

section Entries

structure Known (q : EventsRequest) (ph : Phase) : Prop where
  parsed : ∀ body, ph = .keyed body ∨ ph = .running body → q.body.parsed = some body
  counted : ∀ b ids, batchOf ph = some (b, ids) →
    b.normalized.length+b.dropped = (objectEntries q).length
  inserted : ∀ b ids, batchOf ph = some (b, some ids) → ids.length ≤ b.normalized.length

def KnownThread (_ : ℕ) (_ : Ledger) : Option Thread → Prop
  | some t => Known t.request t.phase
  | none => True

theorem known_unread (q : EventsRequest) (ph : Phase) (h : batchOf ph = none)
    (hparsed : ∀ body, ph = .keyed body ∨ ph = .running body → q.body.parsed = some body) :
    Known q ph :=
  ⟨hparsed, by simp [h], by simp [h]⟩

theorem known_begin (q : EventsRequest) : Known q (begin q) := by
  apply known_unread q _ (begin_batch q)
  intro body hbody
  unfold begin at hbody
  split_ifs at hbody
  · simp at hbody
  · split at hbody
    · simp at hbody
    · next body' hparsed =>
      split at hbody
      · simp only [reduceCtorEq, Phase.running.injEq, false_or] at hbody
        rw [hparsed, hbody]
      · simp at hbody
      · simp only [reduceCtorEq, Phase.keyed.injEq, or_false] at hbody
        rw [hparsed, hbody]

theorem parsed_step (S : Service) (n : ℕ) (q : EventsRequest) (io : Io) (w v : World)
    (ph ph' : Phase) (h : Known q ph) (hs : eventStep S n q io w ph = some (v, ph')) (body : Json)
    (hbody : ph' = .keyed body ∨ ph' = .running body) : q.body.parsed = some body := by
  cases step_move S n q io w v ph ph' hs with
  | receive => exact (known_begin q).parsed body hbody
  | find body' =>
    unfold lookupStep at hbody
    split at hbody
    · split at hbody
      · simp at hbody
      · simp only [reduceCtorEq, Phase.running.injEq, false_or] at hbody
        exact hbody ▸ h.parsed body' (Or.inl rfl)
    · simp only [reduceCtorEq, Phase.running.injEq, false_or] at hbody
      exact hbody ▸ h.parsed body' (Or.inl rfl)
  | prepare body' =>
    unfold prepareStep at hbody
    split at hbody <;> simp at hbody
  | insert b => simp [insertStep] at hbody
  | slice f todo => cases todo <;> simp [sliceStep] at hbody
  | persist ran a => rcases persist_phase io n w q ran a with hp | hp <;> simp [hp] at hbody
  | settle ran a =>
    obtain ⟨a', replayed, hp⟩ := settle_phase w q ran a
    simp [hp] at hbody
  | gone webhookId => exact h.parsed body hbody
  | _ => simp at hbody

theorem known_step (S : Service) (n : ℕ) (q : EventsRequest) (io : Io) (w v : World)
    (ph ph' : Phase) (h : Known q ph) (hs : eventStep S n q io w ph = some (v, ph')) :
    Known q ph' := by
  have hparsed := parsed_step S n q io w v ph ph' h hs
  cases step_counting S n q io w v ph ph' hs with
  | refuse body a hp => exact known_unread q _ rfl hparsed
  | prepare body b hp =>
    refine ⟨hparsed, ?_, by simp [batchOf]⟩
    intro b' ids hb
    cases hb
    exact prepare_counts S.runtime w.now q body b (h.parsed body (Or.inr rfl)) hp
  | insert b =>
    refine ⟨hparsed, ?_, ?_⟩
    · intro b' ids hb
      cases hb
      exact h.counted b none rfl
    · intro b' ids hb
      cases hb
      rw [List.length_map]
      exact (List.length_filter_le _ _).trans (unique_length b)
  | fail b => exact known_unread q _ rfl hparsed
  | other hrun hinsert hbatch hrows =>
    exact ⟨hparsed, hbatch ▸ h.counted, hbatch ▸ h.inserted⟩

theorem known_kept (S : Service) :
    Kept (metered S) (fun _ => True) KnownThread (fun _ => True) := by
  constructor
  · intro e w v _ _ _
    exact ⟨trivial, fun n o h => by cases o <;> exact h⟩
  · intro n q w _ _
    exact known_unread q _ rfl (fun body h => by rcases h with h | h <;> cases h)
  · intro n io w t v u _ _ ht ha
    simp only [metered, meteredAct, act, Option.map_map, Option.map_eq_some_iff, Prod.exists,
      Prod.mk.injEq, Function.comp_apply] at ha
    obtain ⟨v', ph, hs, rfl, rfl⟩ := ha
    exact ⟨trivial, known_step S n t.request io w.world v' t.phase ph ht hs,
      fun m o _ h => by cases o <;> exact h⟩

end Entries

theorem ingest_balances (S : Service) (now : Instant) (webhooks : List Webhook)
    (ls : List (Label ℕ Env Io EventsRequest)) (p : Pool Ledger ℕ Thread)
    (hr : run (step (metered S)) ls (opened now webhooks) = some p) :
    (∑ n ∈ names ls, storedShare (p.thread n) = p.world.world.events.length) ∧
    (∀ r, ∑ n ∈ names ls, share r duplicatesIn (p.thread n) = p.world.duplicate r) ∧
    (∀ r, ∑ n ∈ names ls, share r droppedIn (p.thread n) ≤ p.world.dropped r) ∧
    (Guarded (step (metered S)) InsertsSucceed ls (opened now webhooks) →
      ∀ r, ∑ n ∈ names ls, share r droppedIn (p.thread n) = p.world.dropped r) ∧
    (∀ n t b ids, p.thread n = some t → batchOf t.phase = some (b, some ids) →
      (objectEntries t.request).length =
        insertedIn t.phase+duplicatesIn t.phase+droppedIn t.phase) ∧
    run (next S) ls (start now webhooks) = some (unmetered p) := by
  have hfree : Guarded (step (metered S)) (fun _ _ => True) ls (opened now webhooks) :=
    guarded_always _ _ ls _ (fun _ _ _ => trivial)
  have hknown : Holds (fun _ => True) KnownThread p := by
    apply holds_run (fun _ => True) (known_kept S) ls _ p (fun _ _ => trivial) _ hr
    exact ⟨trivial, fun _ => trivial⟩
  refine ⟨sums_eq (exact_rows S) ls _ p hfree rfl hr, ?_, ?_, ?_, ?_, ?_⟩
  · exact fun r => sums_eq (exact_duplicate S r) ls _ p hfree rfl hr
  · exact fun r => sums_le (feeds_dropped S r) ls _ p hfree le_rfl hr
  · exact fun hok r => sums_eq (exact_dropped S r) ls _ p hok rfl hr
  · intro n t b ids ht hbatch
    have hthread := hknown.thread n
    rw [ht] at hthread
    have hcounted := hthread.counted b (some ids) hbatch
    have hinserted := hthread.inserted b ids hbatch
    simp only [insertedIn, duplicatesIn, droppedIn, hbatch]
    omega
  · exact unmetered_run S now webhooks ls p hr

theorem ingest_balances_resent :
    ∃ p, run (step (metered service)) resent (opened 0 [hook]) = some p ∧
      p.world.duplicate 0 = 1 ∧
      ∑ n ∈ names resent, storedShare (p.thread n) = 2 ∧
      ∑ n ∈ names resent, share 0 duplicatesIn (p.thread n) = 1 := by
  have hrun : (run (step (metered service)) resent (opened 0 [hook])).map (fun p =>
      (p.world.world.events.length, p.world.duplicate 0)) = some (2, 1) := by decide +kernel
  obtain ⟨p, hp, h⟩ := Option.map_eq_some_iff.mp hrun
  obtain ⟨hrows, hduplicate⟩ := Prod.mk.inj h
  obtain ⟨hstored, hshares, _⟩ := ingest_balances service 0 [hook] resent p hp
  refine ⟨p, hp, hduplicate, ?_, ?_⟩
  · rw [hstored, hrows]
    rfl
  · rw [hshares 0, hduplicate]
    rfl

end ControlPlane.IngestLedger
