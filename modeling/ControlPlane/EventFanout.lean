import ControlPlane.EventIdentity
import ControlPlane.EventIngest

/-!
# Every event is fanned out once

A request leaves a footprint in the shared tables: the rows it has inserted,
the events it has published and the deliveries it has enqueued. Along its
phases the footprint grows to one row, one publication and one delivery for
each matching webhook for every event that was new when it inserted. The rows
of all requests have different ids.
-/

set_option autoImplicit false

namespace ControlPlane.EventFanout
open ControlPlane.JsText ControlPlane.JsValue ControlPlane.EventNormalize ControlPlane.EventId
open ControlPlane.Idempotency ControlPlane.EventIngest
open ControlPlane.RunMachine ControlPlane.NamedPool

section Batches

def objectEntries (q : EventsRequest) : List Json :=
  ((q.body.parsed.bind rawEvents).getD []).filter Json.isObject

theorem candidatesFrom_length (parseDate : Text → Option Instant) (now : Instant)
    (raws : List Json) (index : ℕ) :
    (candidatesFrom parseDate now index raws).length = (raws.filter Json.isObject).length := by
  induction raws generalizing index with
  | nil => rfl
  | cons raw raws ih =>
    unfold candidatesFrom
    by_cases h : raw.isObject = true
    · rw [if_pos h, List.filter_cons_of_pos h, List.length_cons, List.length_cons, ih]
    · rw [if_neg h, List.filter_cons_of_neg h, ih]

theorem prepare_counts (R : IdRuntime) (now : Instant) (q : EventsRequest) (body : Json) (b : Batch)
    (hbody : q.body.parsed = some body) (h : prepare R now q body = .ok b) :
    b.normalized.length+b.dropped = (objectEntries q).length := by
  unfold prepare at h
  cases hraws : rawEvents body with
  | none =>
    rw [hraws] at h
    cases h
  | some raws =>
    simp only [hraws] at h
    split at h
    · cases h
    · split at h
      · cases h
      · simp only [Except.ok.injEq] at h
        subst h
        have hobj : objectEntries q = raws.filter Json.isObject := by
          simp [objectEntries, hbody, hraws]
        rw [hobj, ← candidatesFrom_length R.parseDate now raws 0, List.length_map,
          ← List.countP_eq_length_filter]
        have hsome : (fun c : Candidate => c.problem.isSome) =
            fun c => decide ¬c.problem.isNone = true := by
          funext c
          cases c.problem <;> rfl
        rw [hsome]
        exact (List.length_eq_countP_add_countP _).symm

theorem firstOfEach_unseen (seen : List Text) (es : List EventRecord) :
    ∀ e ∈ firstOfEach seen es, e.id ∉ seen := by
  induction es generalizing seen with
  | nil => simp [firstOfEach]
  | cons e es ih =>
    unfold firstOfEach
    split_ifs with h
    · exact ih seen
    · rw [List.forall_mem_cons]
      constructor
      · exact h
      · exact fun x hx hseen => ih (e.id::seen) x hx (List.mem_cons_of_mem _ hseen)

theorem firstOfEach_nodup (seen : List Text) (es : List EventRecord) :
    ((firstOfEach seen es).map (·.id)).Nodup := by
  induction es generalizing seen with
  | nil => exact List.nodup_nil
  | cons e es ih =>
    unfold firstOfEach
    split_ifs
    · exact ih seen
    · rw [List.map_cons, List.nodup_cons]
      constructor
      · intro hmem
        obtain ⟨x, hx, hid⟩ := List.mem_map.mp hmem
        exact firstOfEach_unseen (e.id::seen) es x hx (hid ▸ List.mem_cons_self)
      · exact ih (e.id::seen)

theorem firstOfEach_covers (seen : List Text) (es : List EventRecord) :
    ∀ e ∈ es, e.id ∈ seen ∨ ∃ x ∈ firstOfEach seen es, x.id = e.id := by
  induction es generalizing seen with
  | nil => simp
  | cons e es ih =>
    intro x hx
    unfold firstOfEach
    by_cases h : e.id ∈ seen
    · rw [if_pos h]
      rcases List.mem_cons.mp hx with rfl | hx
      · exact Or.inl h
      · exact ih seen x hx
    · rw [if_neg h]
      rcases List.mem_cons.mp hx with rfl | hx
      · exact Or.inr ⟨x, List.mem_cons_self, rfl⟩
      · rcases ih (e.id::seen) x hx with hseen | ⟨y, hy, hid⟩
        · rcases List.mem_cons.mp hseen with heq | hseen
          · exact Or.inr ⟨e, List.mem_cons_self, heq.symm⟩
          · exact Or.inl hseen
        · exact Or.inr ⟨y, List.mem_cons_of_mem e hy, hid⟩

theorem unique_nodup (b : Batch) : (b.unique.map (·.id)).Nodup := firstOfEach_nodup [] b.normalized

theorem unique_length (b : Batch) : b.unique.length ≤ b.normalized.length :=
  (firstOfEach_sublist [] b.normalized).length_le

theorem unique_covers (b : Batch) (e : EventRecord) (he : e ∈ b.normalized) :
    ∃ x ∈ b.unique, x.id = e.id :=
  (firstOfEach_covers [] b.normalized e he).resolve_left List.not_mem_nil

end Batches

section Footprints

def rowsOf (w : World) (n : ℕ) : List EventRecord :=
  (w.events.filter (·.request = n)).map (·.row)

def publishedBy (w : World) (n : ℕ) : List EventRecord :=
  (w.published.filter (·.request = n)).map (·.event)

def jobsBy (w : World) (n : ℕ) : List Job :=
  (w.deliveries.filter (·.request = n)).map (fun d => ⟨d.webhookId, d.payload⟩)

structure Footprint (w : World) (n : ℕ) (fresh published : List EventRecord)
    (jobs : List Job) : Prop where
  rows : rowsOf w n = fresh.map toRow
  published : publishedBy w n = published
  jobs : jobsBy w n = jobs

/-- A world in which a request has left no more, and all rows are still there. -/
structure Frame (n : ℕ) (w v : World) : Prop where
  rows : rowsOf v n = rowsOf w n
  published : publishedBy v n = publishedBy w n
  jobs : jobsBy v n = jobsBy w n
  events : w.events ⊆ v.events

theorem frame_of_eq (n : ℕ) (w v : World) (he : v.events = w.events)
    (hp : v.published = w.published) (hd : v.deliveries = w.deliveries) : Frame n w v := by
  constructor
  · unfold rowsOf
    rw [he]
  · unfold publishedBy
    rw [hp]
  · unfold jobsBy
    rw [hd]
  · rw [he]
    exact List.Subset.refl _

theorem footprint_frame (n : ℕ) (w v : World) (fresh published : List EventRecord)
    (jobs : List Job) (hf : Frame n w v) (h : Footprint w n fresh published jobs) :
    Footprint v n fresh published jobs :=
  ⟨hf.rows.trans h.rows, hf.published.trans h.published, hf.jobs.trans h.jobs⟩

end Footprints

section Progress

structure Inserted (w : World) (n : ℕ) (q : EventsRequest) (b : Batch) (ids : List Text) :
    Prop where
  counted : b.normalized.length+b.dropped = (objectEntries q).length
  ids : ids = (b.unique.filter (fun e => e.id ∈ ids)).map (·.id)
  stored : ∀ e ∈ b.normalized, ∃ r ∈ w.events, r.row.id = e.id

structure Complete (w : World) (n : ℕ) (q : EventsRequest) (f : FanOut) : Prop where
  inserted : Inserted w n q f.batch f.insertedIds
  footprint : ∃ jobs, Footprint w n f.fresh f.fresh jobs ∧
    jobs.Perm (f.fresh.flatMap (jobsOf f))

def Publishing (w : World) (n : ℕ) (q : EventsRequest) (f : FanOut)
    (todo : List EventRecord) : Prop :=
  Inserted w n q f.batch f.insertedIds ∧ ∃ done, f.batch.unique = done++todo ∧
    Footprint w n f.fresh (done.filter (fun e => e.id ∈ f.insertedIds)) []

def Dispatching (w : World) (n : ℕ) (q : EventsRequest) (f : FanOut) (pending : List Job)
    (todo : List EventRecord) : Prop :=
  Inserted w n q f.batch f.insertedIds ∧ ∃ jobs, Footprint w n f.fresh f.fresh jobs ∧
    (jobs++pending++todo.flatMap (jobsOf f)).Perm (f.fresh.flatMap (jobsOf f))

def Left (w : World) (n : ℕ) (q : EventsRequest) : Option FanOut → Prop
  | none => Footprint w n [] [] []
  | some f => Complete w n q f

def Progress (w : World) (n : ℕ) (q : EventsRequest) : Phase → Prop
  | .received => Footprint w n [] [] []
  | .keyed body => q.body.parsed = some body ∧ Footprint w n [] [] []
  | .running body => q.body.parsed = some body ∧ Footprint w n [] [] []
  | .inserting b =>
    b.normalized.length+b.dropped = (objectEntries q).length ∧ Footprint w n [] [] []
  | .listing b ids =>
    Inserted w n q b ids ∧ Footprint w n (b.unique.filter (fun e => e.id ∈ ids)) [] []
  | .publishing f todo => Publishing w n q f todo
  | .projecting f _ todo => Publishing w n q f todo
  | .tracing f _ todo => Publishing w n q f todo
  | .dispatching f pending todo => Dispatching w n q f pending todo
  | .finished ran a => Left w n q ran ∧ ∀ f ∈ ran, a = countAnswer f
  | .persisted ran a => Left w n q ran ∧ ∀ f ∈ ran, a = countAnswer f
  | .answered ran a replayed =>
    Left w n q ran ∧ ∀ f ∈ ran, replayed = false → a = countAnswer f

def Tracked (n : ℕ) (w : World) : Option Thread → Prop
  | none => Footprint w n [] [] []
  | some t => Progress w n t.request t.phase

def Keyed (w : World) : Prop := (w.events.map (·.row.id)).Nodup

theorem inserted_frame (n : ℕ) (w v : World) (q : EventsRequest) (b : Batch) (ids : List Text)
    (hf : Frame n w v) (h : Inserted w n q b ids) : Inserted v n q b ids := by
  refine ⟨h.counted, h.ids, ?_⟩
  intro e he
  obtain ⟨r, hr, hid⟩ := h.stored e he
  exact ⟨r, hf.events hr, hid⟩

theorem left_frame (n : ℕ) (w v : World) (q : EventsRequest) (ran : Option FanOut)
    (hf : Frame n w v) (h : Left w n q ran) : Left v n q ran := by
  cases ran with
  | none => exact footprint_frame n w v _ _ _ hf h
  | some f =>
    obtain ⟨jobs, hfoot, hperm⟩ := h.footprint
    exact ⟨inserted_frame n w v q _ _ hf h.inserted, jobs, footprint_frame n w v _ _ _ hf hfoot,
      hperm⟩

theorem publishing_frame (n : ℕ) (w v : World) (q : EventsRequest) (f : FanOut)
    (todo : List EventRecord) (hf : Frame n w v) (h : Publishing w n q f todo) :
    Publishing v n q f todo := by
  obtain ⟨hins, done, hdone, hfoot⟩ := h
  exact ⟨inserted_frame n w v q _ _ hf hins, done, hdone, footprint_frame n w v _ _ _ hf hfoot⟩

theorem progress_frame (n : ℕ) (w v : World) (q : EventsRequest) (ph : Phase) (hf : Frame n w v)
    (h : Progress w n q ph) : Progress v n q ph := by
  cases ph with
  | received => exact footprint_frame n w v _ _ _ hf h
  | keyed body => exact ⟨h.1, footprint_frame n w v _ _ _ hf h.2⟩
  | running body => exact ⟨h.1, footprint_frame n w v _ _ _ hf h.2⟩
  | inserting b => exact ⟨h.1, footprint_frame n w v _ _ _ hf h.2⟩
  | listing b ids =>
    exact ⟨inserted_frame n w v q _ _ hf h.1, footprint_frame n w v _ _ _ hf h.2⟩
  | publishing f todo => exact publishing_frame n w v q f todo hf h
  | projecting f e todo => exact publishing_frame n w v q f todo hf h
  | tracing f e todo => exact publishing_frame n w v q f todo hf h
  | dispatching f pending todo =>
    obtain ⟨hins, jobs, hfoot, hperm⟩ := h
    exact ⟨inserted_frame n w v q _ _ hf hins, jobs, footprint_frame n w v _ _ _ hf hfoot, hperm⟩
  | finished ran a => exact ⟨left_frame n w v q ran hf h.1, h.2⟩
  | persisted ran a => exact ⟨left_frame n w v q ran hf h.1, h.2⟩
  | answered ran a replayed => exact ⟨left_frame n w v q ran hf h.1, h.2⟩

theorem tracked_frame (n : ℕ) (w v : World) (o : Option Thread) (hf : Frame n w v)
    (h : Tracked n w o) : Tracked n v o := by
  cases o with
  | none => exact footprint_frame n w v _ _ _ hf h
  | some t => exact progress_frame n w v t.request t.phase hf h

end Progress

section Writes

theorem filter_tagged {α β : Type*} (tag : β → ℕ) (f : α → β) (n m : ℕ) (xs : List α)
    (htag : ∀ x, tag (f x) = n) :
    (xs.map f).filter (fun y => tag y = m) = if n = m then xs.map f else [] := by
  split_ifs with h
  · apply List.filter_eq_self.mpr
    intro y hy
    obtain ⟨x, -, rfl⟩ := List.mem_map.mp hy
    simp [htag, h]
  · apply List.filter_eq_nil_iff.mpr
    intro y hy
    obtain ⟨x, -, rfl⟩ := List.mem_map.mp hy
    simp [htag, h]

theorem rowsOf_insert (n m : ℕ) (w : World) (b : Batch) :
    rowsOf (insertStep n w b).1 m =
      rowsOf w m++if n = m then (newEvents w b).map toRow else [] := by
  unfold rowsOf insertStep
  rw [List.filter_append, filter_tagged _ _ n m _ (fun _ => rfl), List.map_append]
  split_ifs
  · rw [List.map_map]
    rfl
  · rfl

theorem publishedBy_publish (n m : ℕ) (q : EventsRequest) (w : World) (f : FanOut)
    (e : EventRecord) (todo : List EventRecord) :
    publishedBy (publishStep n q w f e todo).1 m =
      publishedBy w m++if n = m then [e].filter (fun e => e.id ∈ f.insertedIds) else [] := by
  unfold publishStep
  by_cases hins : e.id ∈ f.insertedIds
  · by_cases hm : n = m
    · simp [publishedBy, hins, hm]
    · simp [publishedBy, hins, hm]
  · simp [hins]

theorem jobsBy_deliver (n m : ℕ) (w : World) (j : Job) :
    jobsBy (deliver n w j) m = jobsBy w m++if n = m then [j] else [] := by
  unfold jobsBy deliver
  by_cases hm : n = m
  · simp [hm]
  · simp [hm]

theorem frame_insert (n m : ℕ) (w : World) (b : Batch) (hm : m ≠ n) :
    Frame m w (insertStep n w b).1 := by
  constructor
  · rw [rowsOf_insert, if_neg hm.symm, List.append_nil]
  · rfl
  · rfl
  · exact List.subset_append_left _ _

theorem frame_publish (n m : ℕ) (q : EventsRequest) (w : World) (f : FanOut) (e : EventRecord)
    (todo : List EventRecord) (hm : m ≠ n) : Frame m w (publishStep n q w f e todo).1 := by
  have hpub := publishedBy_publish n m q w f e todo
  rw [if_neg hm.symm, List.append_nil] at hpub
  unfold publishStep at hpub ⊢
  split at hpub
  · next h => rw [if_pos h]; exact ⟨rfl, hpub, rfl, List.Subset.refl _⟩
  · next h => rw [if_neg h]; exact ⟨rfl, rfl, rfl, List.Subset.refl _⟩

theorem frame_deliver (n m : ℕ) (w : World) (j : Job) (hm : m ≠ n) :
    Frame m w (deliver n w j) := by
  constructor
  · rfl
  · rfl
  · rw [jobsBy_deliver, if_neg hm.symm, List.append_nil]
  · exact List.Subset.refl _

theorem frame_project (n : ℕ) (io : Io) (w : World) (e : EventRecord) :
    Frame n w (projectStep io w e) := by
  unfold projectStep
  split_ifs
  · exact frame_of_eq n _ _ rfl rfl rfl
  · exact frame_of_eq n _ _ rfl rfl rfl

theorem frame_trace (S : Service) (n : ℕ) (io : Io) (w : World) (e : EventRecord) :
    Frame n w (traceStep S io w e) := by
  unfold traceStep
  split_ifs
  · exact frame_of_eq n _ _ rfl rfl rfl
  · exact frame_of_eq n _ _ rfl rfl rfl

theorem frame_persist (n m : ℕ) (io : Io) (w : World) (q : EventsRequest) (ran : Option FanOut)
    (a : Answer) : Frame m w (persistStep io n w q ran a).1 := by
  unfold persistStep
  split
  · split_ifs <;> exact frame_of_eq m _ _ rfl rfl rfl
  · exact frame_of_eq m _ _ rfl rfl rfl

theorem newEvents_eq (w : World) (b : Batch) :
    b.unique.filter (fun e => e.id ∈ (newEvents w b).map (·.id)) = newEvents w b := by
  apply List.filter_congr
  intro e he
  rw [Bool.eq_iff_iff, decide_eq_true_eq, List.mem_map]
  constructor
  · rintro ⟨x, hx, hid⟩
    have := (List.mem_filter.mp hx).2
    rwa [hid] at this
  · exact fun h => ⟨e, List.mem_filter.mpr ⟨he, h⟩, rfl⟩

theorem keyed_insert (n : ℕ) (w : World) (b : Batch) (h : Keyed w) :
    Keyed (insertStep n w b).1 := by
  have hids : ((insertStep n w b).1.events.map (·.row.id)) =
      w.events.map (·.row.id)++(newEvents w b).map (·.id) := by
    simp [insertStep, toRow, Function.comp_def]
  unfold Keyed
  rw [hids, List.nodup_append']
  refine ⟨h, (List.filter_sublist.map _).nodup (unique_nodup b), ?_⟩
  intro id hold hnew
  obtain ⟨r, hr, rfl⟩ := List.mem_map.mp hold
  obtain ⟨e, he, hid⟩ := List.mem_map.mp hnew
  have hfree := (List.mem_filter.mp he).2
  simp only [Bool.not_eq_true', List.any_eq_false, decide_eq_true_eq] at hfree
  exact hfree r hr hid.symm

theorem inserted_insert (n : ℕ) (w : World) (q : EventsRequest) (b : Batch)
    (h : b.normalized.length+b.dropped = (objectEntries q).length) :
    Inserted (insertStep n w b).1 n q b ((newEvents w b).map (·.id)) := by
  constructor
  · exact h
  · rw [newEvents_eq]
  · intro e he
    obtain ⟨x, hx, hid⟩ := unique_covers b e he
    by_cases hold : w.events.any (fun r => r.row.id = x.id) = true
    · obtain ⟨r, hr, hrid⟩ := List.any_eq_true.mp hold
      exact ⟨r, List.mem_append_left _ hr, (of_decide_eq_true hrid).trans hid⟩
    · have hnew : x ∈ newEvents w b := List.mem_filter.mpr ⟨hx, by simp [hold]⟩
      exact ⟨⟨n, toRow x⟩, List.mem_append_right _ (List.mem_map_of_mem hnew), hid⟩

end Writes

section Steps

def Succeeds : Event → Prop
  | .act _ .fault => False
  | .act _ (.lost _) => False
  | _ => True

theorem frame_step (S : Service) (n m : ℕ) (q : EventsRequest) (io : Io) (w v : World)
    (ph ph' : Phase) (hm : m ≠ n) (h : eventStep S n q io w ph = some (v, ph')) :
    Frame m w v := by
  cases step_move S n q io w v ph ph' h with
  | insert b => exact frame_insert n m w b hm
  | publish f e todo => exact frame_publish n m q w f e todo hm
  | project f e todo => exact frame_project m io w e
  | trace f e todo => exact frame_trace S m io w e
  | deliver f pending todo i j => exact frame_deliver n m w j hm
  | persist ran a => exact frame_persist n m io w q ran a
  | _ => exact frame_of_eq m _ _ rfl rfl rfl

theorem keyed_step (S : Service) (n : ℕ) (q : EventsRequest) (io : Io) (w v : World)
    (ph ph' : Phase) (h : Keyed w) (hs : eventStep S n q io w ph = some (v, ph')) : Keyed v := by
  cases step_move S n q io w v ph ph' hs with
  | insert b => exact keyed_insert n w b h
  | publish f e todo =>
    unfold publishStep
    split_ifs <;> exact h
  | project f e todo =>
    unfold projectStep
    split_ifs <;> exact h
  | trace f e todo =>
    unfold traceStep
    split_ifs <;> exact h
  | persist ran a =>
    unfold persistStep
    split
    · split_ifs <;> exact h
    · exact h
  | _ => exact h

instance : DecidablePred Succeeds := fun l =>
  match l with
  | .env _ => isTrue trivial
  | .start _ _ => isTrue trivial
  | .act _ .ok => isTrue trivial
  | .act _ .fault => isFalse id
  | .act _ (.job _) => isTrue trivial
  | .act _ (.lost _) => isFalse id
  | .act _ (.gone _) => isTrue trivial

theorem progress_begin (w : World) (n : ℕ) (q : EventsRequest) (h : Footprint w n [] [] []) :
    Progress w n q (begin q) := by
  unfold begin
  split_ifs
  · exact ⟨h, by simp⟩
  · split
    · exact ⟨h, by simp⟩
    · next body hbody =>
      split
      · exact ⟨hbody, h⟩
      · exact ⟨h, by simp⟩
      · exact ⟨hbody, h⟩

theorem progress_lookup (w : World) (n : ℕ) (q : EventsRequest) (body : Json)
    (hbody : q.body.parsed = some body) (h : Footprint w n [] [] []) :
    Progress w n q (lookupStep w q body) := by
  unfold lookupStep
  split
  · split
    · exact ⟨h, by simp⟩
    · exact ⟨hbody, h⟩
  · exact ⟨hbody, h⟩

theorem progress_prepare (S : Service) (w : World) (n : ℕ) (q : EventsRequest) (body : Json)
    (hbody : q.body.parsed = some body) (h : Footprint w n [] [] []) :
    Progress w n q (prepareStep S w q body) := by
  unfold prepareStep
  split
  · exact ⟨h, by simp⟩
  · next b hb => exact ⟨prepare_counts S.runtime w.now q body b hbody hb, h⟩

theorem progress_insert (w : World) (n : ℕ) (q : EventsRequest) (b : Batch)
    (h : Progress w n q (.inserting b)) :
    Progress (insertStep n w b).1 n q (insertStep n w b).2 := by
  refine ⟨inserted_insert n w q b h.1, ?_, h.2.published, h.2.jobs⟩
  rw [rowsOf_insert, if_pos rfl, newEvents_eq, h.2.rows]
  rfl

theorem progress_publish (w : World) (n : ℕ) (q : EventsRequest) (f : FanOut) (e : EventRecord)
    (todo : List EventRecord) (h : Publishing w n q f (e::todo)) :
    Progress (publishStep n q w f e todo).1 n q (publishStep n q w f e todo).2 := by
  obtain ⟨hins, done, hdone, hfoot⟩ := h
  have hpub := publishedBy_publish n n q w f e todo
  rw [if_pos rfl, hfoot.published, ← List.filter_append] at hpub
  have hdone' : f.batch.unique = (done++[e])++todo := by rw [hdone, List.append_assoc]; rfl
  unfold publishStep at hpub ⊢
  split_ifs with h
  · rw [if_pos h] at hpub
    exact ⟨⟨hins.counted, hins.ids, hins.stored⟩, done++[e], hdone',
      ⟨hfoot.rows, hpub, hfoot.jobs⟩⟩
  · rw [if_neg h] at hpub
    exact ⟨hins, done++[e], hdone', ⟨hfoot.rows, hpub, hfoot.jobs⟩⟩

theorem progress_published (w : World) (n : ℕ) (q : EventsRequest) (f : FanOut)
    (h : Publishing w n q f []) : Dispatching w n q f [] f.fresh := by
  obtain ⟨hins, done, hdone, hfoot⟩ := h
  rw [List.append_nil] at hdone
  subst hdone
  exact ⟨hins, [], hfoot, List.Perm.refl _⟩

theorem progress_deliver (w : World) (n : ℕ) (q : EventsRequest) (f : FanOut)
    (pending : List Job) (todo : List EventRecord) (i : ℕ) (j : Job) (hj : pending[i]? = some j)
    (h : Dispatching w n q f pending todo) :
    Dispatching (deliver n w j) n q f (pending.eraseIdx i) todo := by
  obtain ⟨hins, jobs, hfoot, hperm⟩ := h
  obtain ⟨hi, rfl⟩ := List.getElem?_eq_some_iff.mp hj
  refine ⟨⟨hins.counted, hins.ids, hins.stored⟩, jobs++[pending[i]],
    ⟨hfoot.rows, hfoot.published, ?_⟩, List.Perm.trans ?_ hperm⟩
  · rw [jobsBy_deliver, if_pos rfl, hfoot.jobs]
  · apply List.Perm.append_right
    rw [List.append_assoc]
    exact (List.getElem_cons_eraseIdx_perm hi).append_left jobs

theorem progress_slice (w : World) (n : ℕ) (q : EventsRequest) (f : FanOut)
    (todo : List EventRecord) (h : Dispatching w n q f [] todo) :
    Progress w n q (sliceStep f todo) := by
  obtain ⟨hins, jobs, hfoot, hperm⟩ := h
  cases todo with
  | nil =>
    refine ⟨⟨hins, jobs, hfoot, ?_⟩, ?_⟩
    · simpa using hperm
    · rintro g ⟨⟩
      rfl
  | cons e es =>
    refine ⟨hins, jobs, hfoot, ?_⟩
    rw [List.append_assoc, ← List.flatMap_append, List.take_append_drop]
    simpa using hperm

theorem settle_unmarked (rows : List (StoredResponse Answer)) (scope key : Text) (status : ℕ)
    (a : Answer) (h : (settle rows scope key status a).replayed = false) :
    (settle rows scope key status a).body = a := by
  unfold settle at h ⊢
  cases hl : lookup rows scope key with
  | none => rfl
  | some r =>
    simp only [hl, Bool.not_eq_false', Bool.and_eq_true, decide_eq_true_eq] at h ⊢
    exact h.2

theorem progress_settle (w : World) (n : ℕ) (q : EventsRequest) (ran : Option FanOut)
    (a : Answer) (h : Progress w n q (.persisted ran a)) :
    Progress w n q (settleStep w q ran a) := by
  unfold settleStep
  split
  · exact ⟨h.1, fun f hf hr => (settle_unmarked _ _ _ _ _ hr).trans (h.2 f hf)⟩
  · exact ⟨h.1, fun f hf _ => h.2 f hf⟩

theorem progress_persist (io : Io) (w : World) (n : ℕ) (q : EventsRequest) (ran : Option FanOut)
    (a : Answer) (h : Progress w n q (.finished ran a)) :
    Progress (persistStep io n w q ran a).1 n q (persistStep io n w q ran a).2 := by
  have hleft := left_frame n w _ q ran (frame_persist n n io w q ran a) h.1
  rcases persist_phase io n w q ran a with hp | hp
  · rw [hp]
    exact ⟨hleft, h.2⟩
  · rw [hp]
    exact ⟨hleft, fun f hf _ => h.2 f hf⟩

theorem progress_step (S : Service) (n : ℕ) (q : EventsRequest) (io : Io) (w v : World)
    (ph ph' : Phase) (hio : Succeeds (.act n io)) (h : Progress w n q ph)
    (hs : eventStep S n q io w ph = some (v, ph')) : Progress v n q ph' := by
  cases step_move S n q io w v ph ph' hs with
  | receive => exact progress_begin w n q h
  | find body => exact progress_lookup w n q body h.1 h.2
  | prepare body => exact progress_prepare S w n q body h.1 h.2
  | insert b => exact progress_insert w n q b h
  | list b ids => exact ⟨h.1, [], rfl, h.2⟩
  | published f => exact progress_published w n q f h
  | publish f e todo =>
    have hprogress := progress_publish w n q f e todo h
    rwa [publish_phase] at hprogress
  | project f e todo => exact publishing_frame n w _ q f todo (frame_project n io w e) h
  | trace f e todo => exact publishing_frame n w _ q f todo (frame_trace S n io w e) h
  | slice f todo => exact progress_slice w n q f todo h
  | deliver f pending todo i j hj => exact progress_deliver w n q f pending todo i j hj h
  | persist ran a => exact progress_persist io w n q ran a h
  | settle ran a => exact progress_settle w n q ran a h
  | gone webhookId =>
    exact progress_frame n w _ q ph (frame_of_eq n _ _ rfl rfl rfl) h
  | _ => exact hio.elim

theorem kept (S : Service) : Kept (ingest S) Keyed Tracked Succeeds := by
  constructor
  · intro e w v _ hw he
    cases e with
    | tick ms =>
      cases he
      exact ⟨hw, fun n o h => tracked_frame n w _ o (frame_of_eq n _ _ rfl rfl rfl) h⟩
    | setWebhooks webhooks =>
      cases he
      exact ⟨hw, fun n o h => tracked_frame n w _ o (frame_of_eq n _ _ rfl rfl rfl) h⟩
    | setManifests manifests =>
      cases he
      exact ⟨hw, fun n o h => tracked_frame n w _ o (frame_of_eq n _ _ rfl rfl rfl) h⟩
  · exact fun n q w _ h => h
  · intro n io w t v u hio hw ht ha
    simp only [ingest, act, Option.map_eq_some_iff, Prod.exists, Prod.mk.injEq] at ha
    obtain ⟨v', ph, hs, rfl, rfl⟩ := ha
    refine ⟨keyed_step S n t.request io w v' t.phase ph hw hs,
      progress_step S n t.request io w v' t.phase ph hio ht hs, ?_⟩
    intro m o hm h
    exact tracked_frame m w v' o (frame_step S n m t.request io w v' t.phase ph hm hs) h

theorem tracked_run (S : Service) (now : Instant) (webhooks : List Webhook) (ls : List Event)
    (p : State) (hls : ∀ l ∈ ls, Succeeds l) (hr : run (next S) ls (start now webhooks) = some p) :
    Holds Keyed Tracked p := by
  apply holds_run Succeeds (kept S) ls _ p hls _ hr
  exact ⟨List.nodup_nil, fun n => ⟨rfl, rfl, rfl⟩⟩

end Steps

section Once

theorem countP_le_one {α : Type*} (f : α → Text) (xs : List α) (a : Text)
    (h : (xs.map f).Nodup) : xs.countP (fun x => f x = a) ≤ 1 := by
  have hcount := List.nodup_iff_count_le_one.mp h a
  have hbeq : (fun y => y == a) ∘ f = fun x => decide (f x = a) := by
    funext x
    exact beq_eq_decide _ _
  rwa [List.count_eq_countP, List.countP_map, hbeq] at hcount

theorem filter_eq_singleton {α : Type*} (f : α → Text) (xs : List α) (x : α) (hx : x ∈ xs)
    (h : (xs.map f).Nodup) : xs.filter (fun y => f y = f x) = [x] := by
  have hle := countP_le_one f xs (f x) h
  rw [List.countP_eq_length_filter] at hle
  have hmem : x ∈ xs.filter (fun y => f y = f x) := List.mem_filter.mpr ⟨hx, by simp⟩
  match xs.filter (fun y => f y = f x), hle, hmem with
  | [y], _, hmem => rw [List.mem_singleton.mp hmem]
  | _::_::_, hle, _ => simp at hle

structure Bounded (w : World) (n : ℕ) : Prop where
  footprint : ∃ fresh published jobs, Footprint w n fresh published jobs ∧
    (fresh.map (·.id)).Nodup ∧ published.Sublist fresh ∧ ∀ j ∈ jobs, j.event ∈ fresh

theorem fresh_nodup (f : FanOut) : (f.fresh.map (·.id)).Nodup :=
  (List.filter_sublist.map _).nodup (unique_nodup f.batch)

theorem mem_jobs (f : FanOut) (es : List EventRecord) (j : Job) (hj : j ∈ es.flatMap (jobsOf f)) :
    j.event ∈ es := by
  obtain ⟨e, he, hj⟩ := List.mem_flatMap.mp hj
  obtain ⟨h, -, rfl⟩ := List.mem_map.mp hj
  exact he

theorem bounded_empty (w : World) (n : ℕ) (h : Footprint w n [] [] []) : Bounded w n :=
  ⟨[], [], [], h, List.nodup_nil, List.Sublist.refl _, by simp⟩

theorem bounded_left (w : World) (n : ℕ) (q : EventsRequest) (ran : Option FanOut)
    (h : Left w n q ran) : Bounded w n := by
  cases ran with
  | none => exact bounded_empty w n h
  | some f =>
    obtain ⟨jobs, hfoot, hperm⟩ := h.footprint
    exact ⟨f.fresh, f.fresh, jobs, hfoot, fresh_nodup f, List.Sublist.refl _,
      fun j hj => mem_jobs f f.fresh j (hperm.mem_iff.mp hj)⟩

theorem bounded_publishing (w : World) (n : ℕ) (q : EventsRequest) (f : FanOut)
    (todo : List EventRecord) (h : Publishing w n q f todo) : Bounded w n := by
  obtain ⟨-, done, hdone, hfoot⟩ := h
  refine ⟨f.fresh, _, [], hfoot, fresh_nodup f, ?_, by simp⟩
  unfold FanOut.fresh
  rw [hdone]
  exact (List.sublist_append_left done todo).filter _

theorem bounded_tracked (w : World) (n : ℕ) (o : Option Thread) (h : Tracked n w o) :
    Bounded w n := by
  cases o with
  | none => exact bounded_empty w n h
  | some t =>
    obtain ⟨q, ph⟩ := t
    change Progress w n q ph at h
    cases ph with
    | received => exact bounded_empty w n h
    | keyed body => exact bounded_empty w n h.2
    | running body => exact bounded_empty w n h.2
    | inserting b => exact bounded_empty w n h.2
    | listing b ids =>
      exact ⟨_, [], [], h.2, (List.filter_sublist.map _).nodup (unique_nodup b),
        List.nil_sublist _, by simp⟩
    | publishing f todo => exact bounded_publishing w n q f todo h
    | projecting f e todo => exact bounded_publishing w n q f todo h
    | tracing f e todo => exact bounded_publishing w n q f todo h
    | dispatching f pending todo =>
      obtain ⟨-, jobs, hfoot, hperm⟩ := h
      refine ⟨f.fresh, f.fresh, jobs, hfoot, fresh_nodup f, List.Sublist.refl _, ?_⟩
      intro j hj
      apply mem_jobs f f.fresh j
      rw [← hperm.mem_iff, List.append_assoc]
      exact List.mem_append_left _ hj
    | finished ran a => exact bounded_left w n q ran h.1
    | persisted ran a => exact bounded_left w n q ran h.1
    | answered ran a replayed => exact bounded_left w n q ran h.1

theorem fresh_row (w : World) (n : ℕ) (fresh published : List EventRecord) (jobs : List Job)
    (h : Footprint w n fresh published jobs) (e : EventRecord) (he : e ∈ fresh) :
    ∃ r ∈ w.events, r.request = n ∧ r.row = toRow e := by
  have hmem : toRow e ∈ rowsOf w n := h.rows ▸ List.mem_map_of_mem he
  obtain ⟨r, hr, hrow⟩ := List.mem_map.mp hmem
  obtain ⟨hr, hn⟩ := List.mem_filter.mp hr
  exact ⟨r, hr, of_decide_eq_true hn, hrow⟩

theorem row_fresh (w : World) (n : ℕ) (fresh published : List EventRecord) (jobs : List Job)
    (h : Footprint w n fresh published jobs) (r : StoredEvent) (hr : r ∈ w.events)
    (hn : r.request = n) : ∃ e ∈ fresh, r.row = toRow e := by
  have hmem : r.row ∈ fresh.map toRow :=
    h.rows ▸ List.mem_map_of_mem (List.mem_filter.mpr ⟨hr, decide_eq_true hn⟩)
  obtain ⟨e, he, hrow⟩ := List.mem_map.mp hmem
  exact ⟨e, he, hrow.symm⟩

theorem published_row (p : State) (h : Holds Keyed Tracked p) (x : Published)
    (hx : x ∈ p.world.published) :
    ∃ r ∈ p.world.events, r.request = x.request ∧ r.row.id = x.event.id := by
  obtain ⟨fresh, published, jobs, hfoot, -, hsub, -⟩ :=
    (bounded_tracked _ _ _ (h.thread x.request)).footprint
  have hmem : x.event ∈ publishedBy p.world x.request :=
    List.mem_map_of_mem (List.mem_filter.mpr ⟨hx, by simp⟩)
  obtain ⟨r, hr, hn, hrow⟩ := fresh_row _ _ _ _ _ hfoot x.event
    (hsub.subset (hfoot.published ▸ hmem))
  exact ⟨r, hr, hn, by rw [hrow]; rfl⟩

theorem delivered_row (p : State) (h : Holds Keyed Tracked p) (d : Delivery)
    (hd : d ∈ p.world.deliveries) :
    ∃ r ∈ p.world.events, r.request = d.request ∧ r.row.id = d.payload.id := by
  obtain ⟨fresh, published, jobs, hfoot, -, -, hjobs⟩ :=
    (bounded_tracked _ _ _ (h.thread d.request)).footprint
  have hmem : (⟨d.webhookId, d.payload⟩ : Job) ∈ jobsBy p.world d.request :=
    List.mem_map.mpr ⟨d, List.mem_filter.mpr ⟨hd, by simp⟩, rfl⟩
  obtain ⟨r, hr, hn, hrow⟩ := fresh_row _ _ _ _ _ hfoot d.payload
    (hjobs _ (hfoot.jobs ▸ hmem))
  exact ⟨r, hr, hn, by rw [hrow]; rfl⟩

theorem keyed_eq (w : World) (h : Keyed w) (r s : StoredEvent) (hr : r ∈ w.events)
    (hs : s ∈ w.events) (hid : r.row.id = s.row.id) : r = s :=
  List.inj_on_of_nodup_map h hr hs hid

end Once

section FannedOut

/-- The event of a row has been published by its request and nobody else, and
handed to every webhook that was active and matched, and to no other. -/
structure FannedOutOnce (w : World) (r : StoredEvent) (f : FanOut) (e : EventRecord) : Prop where
  fresh : e ∈ f.fresh
  row : r.row = toRow e
  published : (w.published.filter (fun x => x.event.id = r.row.id)).map
    (fun x => (x.request, x.event)) = [(r.request, e)]
  delivered : ((w.deliveries.filter (fun d => d.payload.id = r.row.id)).map (·.webhookId)).Perm
    ((matching f.activeWebhooks e).map (·.id))

theorem filter_own {α : Type*} (request : α → ℕ) (idOf : α → Text) (xs : List α) (n : ℕ)
    (id : Text) (h : ∀ x ∈ xs, idOf x = id → request x = n) :
    xs.filter (fun x => idOf x = id) =
      (xs.filter (fun x => request x = n)).filter (fun x => idOf x = id) := by
  rw [List.filter_filter]
  apply List.filter_congr
  intro x hx
  rw [Bool.eq_iff_iff, Bool.and_eq_true, decide_eq_true_eq, decide_eq_true_eq]
  constructor
  · exact fun hid => ⟨hid, h x hx hid⟩
  · exact And.left

theorem publisher (p : State) (h : Holds Keyed Tracked p) (r : StoredEvent)
    (hr : r ∈ p.world.events) : ∀ x ∈ p.world.published, x.event.id = r.row.id →
      x.request = r.request := by
  intro x hx hid
  obtain ⟨s, hs, hreq, hsid⟩ := published_row p h x hx
  rw [← hreq, keyed_eq p.world h.world s r hs hr (hsid.trans hid)]

theorem deliverer (p : State) (h : Holds Keyed Tracked p) (r : StoredEvent)
    (hr : r ∈ p.world.events) : ∀ d ∈ p.world.deliveries, d.payload.id = r.row.id →
      d.request = r.request := by
  intro d hd hid
  obtain ⟨s, hs, hreq, hsid⟩ := delivered_row p h d hd
  rw [← hreq, keyed_eq p.world h.world s r hs hr (hsid.trans hid)]

theorem published_once (p : State) (h : Holds Keyed Tracked p) (r : StoredEvent)
    (hr : r ∈ p.world.events) (f : FanOut) (e : EventRecord) (he : e ∈ f.fresh)
    (hrow : r.row = toRow e) (hpub : publishedBy p.world r.request = f.fresh) :
    (p.world.published.filter (fun x => x.event.id = r.row.id)).map
      (fun x => (x.request, x.event)) = [(r.request, e)] := by
  have hid : r.row.id = e.id := by
    rw [hrow]
    rfl
  have hown := filter_own (·.request) (·.event.id) p.world.published r.request r.row.id
    (publisher p h r hr)
  simp only [hid] at hown ⊢
  have hmap : ∀ xs : List Published, (∀ x ∈ xs, x.request = r.request) →
      (xs.filter (fun x => x.event.id = e.id)).map (fun x => (x.request, x.event)) =
        ((xs.map (·.event)).filter (fun y => y.id = e.id)).map (fun y => (r.request, y)) := by
    intro xs hxs
    rw [List.filter_map, List.map_map]
    apply List.map_congr_left
    intro x hx
    simp [hxs x (List.mem_of_mem_filter hx)]
  rw [hown, hmap _ (fun x hx => of_decide_eq_true (List.mem_filter.mp hx).2)]
  change ((publishedBy p.world r.request).filter (fun y => y.id = e.id)).map _ = _
  rw [hpub, filter_eq_singleton (·.id) f.fresh e he (fresh_nodup f)]
  rfl

theorem jobs_filter (f : FanOut) (es : List EventRecord) (id : Text) :
    (es.flatMap (jobsOf f)).filter (fun j => j.event.id = id) =
      (es.filter (fun e => e.id = id)).flatMap (jobsOf f) := by
  induction es with
  | nil => rfl
  | cons e es ih =>
    rw [List.flatMap_cons, List.filter_append, ih]
    by_cases h : e.id = id
    · have hall : (jobsOf f e).filter (fun j => j.event.id = id) = jobsOf f e := by
        apply List.filter_eq_self.mpr
        intro j hj
        obtain ⟨hook, -, rfl⟩ := List.mem_map.mp hj
        simp [h]
      rw [hall, List.filter_cons_of_pos (by simp [h]), List.flatMap_cons]
    · have hnone : (jobsOf f e).filter (fun j => j.event.id = id) = [] := by
        apply List.filter_eq_nil_iff.mpr
        intro j hj
        obtain ⟨hook, -, rfl⟩ := List.mem_map.mp hj
        simp [h]
      rw [hnone, List.filter_cons_of_neg (by simp [h]), List.nil_append]

theorem delivered_once (p : State) (h : Holds Keyed Tracked p) (r : StoredEvent)
    (hr : r ∈ p.world.events) (f : FanOut) (e : EventRecord) (he : e ∈ f.fresh)
    (hrow : r.row = toRow e) (jobs : List Job) (hjobs : jobsBy p.world r.request = jobs)
    (hperm : jobs.Perm (f.fresh.flatMap (jobsOf f))) :
    ((p.world.deliveries.filter (fun d => d.payload.id = r.row.id)).map (·.webhookId)).Perm
      ((matching f.activeWebhooks e).map (·.id)) := by
  have hid : r.row.id = e.id := by
    rw [hrow]
    rfl
  have hown := filter_own (·.request) (·.payload.id) p.world.deliveries r.request r.row.id
    (deliverer p h r hr)
  simp only [hid] at hown ⊢
  have hmap : ∀ ds : List Delivery, (ds.filter (fun d => d.payload.id = e.id)).map (·.webhookId) =
      ((ds.map (fun d => (⟨d.webhookId, d.payload⟩ : Job))).filter
        (fun j => j.event.id = e.id)).map (·.webhookId) := by
    intro ds
    rw [List.filter_map, List.map_map]
    rfl
  rw [hown, hmap]
  have hone : (f.fresh.flatMap (jobsOf f)).filter (fun j => j.event.id = e.id) = jobsOf f e := by
    rw [jobs_filter, filter_eq_singleton (·.id) f.fresh e he (fresh_nodup f)]
    simp
  have hjob := (hperm.filter (fun j : Job => j.event.id = e.id)).map (fun j : Job => j.webhookId)
  rw [hone, jobsOf, List.map_map, ← hjobs] at hjob
  exact hjob

def Done (p : State) (n : ℕ) (f : FanOut) : Prop :=
  ∃ q a replayed, p.thread n = some ⟨q, .answered (some f) a replayed⟩

theorem done_complete (p : State) (h : Holds Keyed Tracked p) (n : ℕ) (f : FanOut)
    (hd : Done p n f) : ∃ q, Complete p.world n q f := by
  obtain ⟨q, a, replayed, ht⟩ := hd
  have := h.thread n
  rw [ht] at this
  exact ⟨q, this.1⟩

theorem stored_once (p : State) (h : Holds Keyed Tracked p) (n : ℕ) (f : FanOut)
    (hd : Done p n f) (e : EventRecord) (he : e ∈ f.batch.normalized) :
    p.world.events.countP (fun r => r.row.id = e.id) = 1 := by
  obtain ⟨q, hcomplete⟩ := done_complete p h n f hd
  obtain ⟨r, hr, hid⟩ := hcomplete.inserted.stored e he
  have hle := countP_le_one (fun r : StoredEvent => r.row.id) p.world.events e.id h.world
  have hpos : 0 < p.world.events.countP (fun r => r.row.id = e.id) :=
    List.countP_pos_iff.mpr ⟨r, hr, by simp [hid]⟩
  omega

theorem published_le_one (p : State) (h : Holds Keyed Tracked p) (id : Text) :
    p.world.published.countP (fun x => x.event.id = id) ≤ 1 := by
  by_cases hx : ∃ x ∈ p.world.published, x.event.id = id
  · obtain ⟨x, hx, rfl⟩ := hx
    obtain ⟨r, hr, hreq, hid⟩ := published_row p h x hx
    obtain ⟨fresh, published, jobs, hfoot, hnodup, hsub, -⟩ :=
      (bounded_tracked _ _ _ (h.thread r.request)).footprint
    have hown := filter_own (·.request) (·.event.id) p.world.published r.request x.event.id
      (fun y hy hyx => publisher p h r hr y hy (hyx.trans hid.symm))
    have hcount : published.countP (fun e => e.id = x.event.id) ≤ 1 :=
      hsub.countP_le.trans (countP_le_one (·.id) fresh x.event.id hnodup)
    rw [← hfoot.published, publishedBy, List.countP_map, List.countP_eq_length_filter] at hcount
    rw [List.countP_eq_length_filter, hown]
    exact hcount
  · have hzero : p.world.published.countP (fun x => x.event.id = id) = 0 := by
      rw [List.countP_eq_zero]
      intro x hxm hid
      exact hx ⟨x, hxm, of_decide_eq_true hid⟩
    omega

theorem fanned_out (p : State) (h : Holds Keyed Tracked p) (r : StoredEvent)
    (hr : r ∈ p.world.events) : ∃ t, p.thread r.request = some t ∧
      ∀ ran a replayed, t.phase = .answered ran a replayed →
        ∃ f ∈ ran, ∃ e, FannedOutOnce p.world r f e := by
  have htrack := h.thread r.request
  cases ht : p.thread r.request with
  | none =>
    rw [ht] at htrack
    obtain ⟨e, he, -⟩ := row_fresh _ _ _ _ _ htrack r hr rfl
    exact absurd he List.not_mem_nil
  | some t =>
    refine ⟨t, rfl, ?_⟩
    intro ran a replayed hphase
    rw [ht] at htrack
    obtain ⟨q, ph⟩ := t
    obtain rfl : ph = .answered ran a replayed := hphase
    obtain ⟨hleft, -⟩ := htrack
    cases ran with
    | none =>
      obtain ⟨e, he, -⟩ := row_fresh _ _ _ _ _ hleft r hr rfl
      exact absurd he List.not_mem_nil
    | some f =>
      obtain ⟨jobs, hfoot, hperm⟩ := hleft.footprint
      obtain ⟨e, he, hrow⟩ := row_fresh _ _ _ _ _ hfoot r hr rfl
      exact ⟨f, rfl, e, he, hrow, published_once p h r hr f e he hrow hfoot.published,
        delivered_once p h r hr f e he hrow jobs hfoot.jobs hperm⟩

theorem own_counts (p : State) (h : Holds Keyed Tracked p) (n : ℕ) (q : EventsRequest)
    (f : FanOut) (ingested dropped : ℕ) (errors : List ItemError) (inserted duplicates : ℕ)
    (ht : p.thread n = some ⟨q, .answered (some f)
      (.counted ingested dropped errors inserted duplicates) false⟩) :
    ingested+dropped = (objectEntries q).length ∧ inserted+duplicates = ingested := by
  have htrack := h.thread n
  rw [ht] at htrack
  obtain ⟨hcomplete, hanswer⟩ := htrack
  have hids : f.insertedIds.length ≤ f.batch.normalized.length := by
    rw [hcomplete.inserted.ids, List.length_map]
    exact (List.length_filter_le _ _).trans (unique_length f.batch)
  have hcounted := hcomplete.inserted.counted
  have heq := hanswer f rfl rfl
  simp only [countAnswer, Answer.counted.injEq] at heq
  obtain ⟨rfl, rfl, -, rfl, rfl⟩ := heq
  exact ⟨hcounted, by omega⟩

/-- Each id has one row at most and, once a request that had it is answered,
one. Each row is fanned out once by the request that has inserted it, nothing
else is, and the counts of the requests that answer for themselves are right. -/
theorem event_fan_out (S : Service) (now : Instant) (webhooks : List Webhook) (ls : List Event)
    (p : State) (hls : ∀ l ∈ ls, Succeeds l)
    (hr : run (next S) ls (start now webhooks) = some p) :
    ((p.world.events.map (·.row.id)).Nodup ∧ ∀ n f, Done p n f → ∀ e ∈ f.batch.normalized,
        p.world.events.countP (fun r => r.row.id = e.id) = 1) ∧
      (∀ r ∈ p.world.events, ∃ t, p.thread r.request = some t ∧
        ∀ ran a replayed, t.phase = .answered ran a replayed →
          ∃ f ∈ ran, ∃ e, FannedOutOnce p.world r f e) ∧
      (∀ id, p.world.published.countP (fun x => x.event.id = id) ≤ 1) ∧
      (∀ x ∈ p.world.published, ∃ r ∈ p.world.events,
        r.request = x.request ∧ r.row.id = x.event.id) ∧
      (∀ d ∈ p.world.deliveries, ∃ r ∈ p.world.events,
        r.request = d.request ∧ r.row.id = d.payload.id) ∧
      ∀ n q f ingested dropped errors inserted duplicates,
        p.thread n = some ⟨q, .answered (some f)
          (.counted ingested dropped errors inserted duplicates) false⟩ →
        ingested+dropped = (objectEntries q).length ∧ inserted+duplicates = ingested := by
  have h := tracked_run S now webhooks ls p hls hr
  exact ⟨⟨h.world, stored_once p h⟩, fanned_out p h, published_le_one p h, published_row p h,
    delivered_row p h, own_counts p h⟩

end FannedOut

section Scenario
open ControlPlane.EventIdentity
open ControlPlane.RequestGate (Headers HeaderField)

def digestOfKey : List UInt8 :=
  [43, 184, 13, 83, 123, 29, 163, 227, 139, 211, 3, 97, 170, 133, 86, 134, 189, 224, 234, 205,
    113, 98, 254, 246, 162, 95, 233, 123, 245, 39, 162, 91]

def digestOfOther : List UInt8 :=
  [217, 41, 138, 16, 209, 176, 115, 88, 55, 220, 75, 216, 93, 172, 100, 27, 15, 60, 239, 39, 164,
    126, 93, 83, 165, 79, 47, 63, 91, 47, 207, 250]

def runtime : IdRuntime :=
  { sampleRuntime with
    sha256 := fun t =>
      if t = js "secret" then digestOfKey
      else if t = js "other" then digestOfOther
      else sampleRuntime.sha256 t }

def service : Service where
  runtime := runtime
  monitor :=
    { runtime := { runtime.toCodec with sha1 := fun _ => [] },
      sdk := { getCpAgent := .error [], verifyTct := fun _ _ _ _ _ => .error [],
               verifyDelegation := fun _ _ _ _ _ _ => .error [] },
      mode := .off, insecureLocalhost := false }

def authorization : HeaderField := ⟨js "authorization", js "Bearer secret", by decide⟩

def idempotencyKey : HeaderField := ⟨js "idempotency-key", js "k", by decide⟩

def batch (headers : Headers) (events : List Json) (ids : List Text) : EventsRequest where
  headers := headers
  body := ⟨false, some (.obj [(js "events", .arr events)])⟩
  replica := 0
  random i := ids.getD i []

def hook : Webhook := ⟨js "w-1", [], true⟩

def completed : Json := .obj [(js "type", .str TctMonitor.handshakeComplete)]

def randomId : Text := js "0e4c1f9a-6a53-4d5b-9a3f-2f1d1a7c9b10"

/-- One token is reported by two requests, which insert one after the other
before either goes on. -/
def resent : List Event :=
  ([.start 0 (batch [authorization] [tokenEvent (js "AA"), completed] [[], randomId]),
    .start 1 (batch [authorization] [tokenEvent (js "AB"), .null] [])] : List Event)++
    List.replicate 3 (.act 0 .ok : Event)++List.replicate 3 (.act 1 .ok : Event)++
    List.replicate 9 (.act 0 .ok : Event)++[(.act 0 (.job 0) : Event)]++
    List.replicate 2 (.act 0 .ok : Event)++List.replicate 7 (.act 1 .ok : Event)

def answersOf (p : State) (n : ℕ) : Option (Answer × Bool) :=
  (p.thread n).bind (fun t =>
    match t.phase with
    | .answered _ a replayed => some (a, replayed)
    | _ => none)

theorem event_fan_out_resent :
    ∃ p, run (next service) resent (start 0 [hook]) = some p ∧
      (p.world.events.length = 2 ∧ p.world.published.length = 2 ∧
        p.world.deliveries.length = 1 ∧
        answersOf p 1 = some (.counted 1 0 [] 0 1, false)) ∧
      ((p.world.events.map (·.row.id)).Nodup ∧ ∀ n f, Done p n f → ∀ e ∈ f.batch.normalized,
          p.world.events.countP (fun r => r.row.id = e.id) = 1) ∧
        (∀ r ∈ p.world.events, ∃ t, p.thread r.request = some t ∧
          ∀ ran a replayed, t.phase = .answered ran a replayed →
            ∃ f ∈ ran, ∃ e, FannedOutOnce p.world r f e) ∧
        (∀ id, p.world.published.countP (fun x => x.event.id = id) ≤ 1) ∧
        (∀ x ∈ p.world.published, ∃ r ∈ p.world.events,
          r.request = x.request ∧ r.row.id = x.event.id) ∧
        (∀ d ∈ p.world.deliveries, ∃ r ∈ p.world.events,
          r.request = d.request ∧ r.row.id = d.payload.id) ∧
        ∀ n q f ingested dropped errors inserted duplicates,
          p.thread n = some ⟨q, .answered (some f)
            (.counted ingested dropped errors inserted duplicates) false⟩ →
          ingested+dropped = (objectEntries q).length ∧ inserted+duplicates = ingested := by
  have hrun : (run (next service) resent (start 0 [hook])).map (fun p =>
      (p.world.events.length, p.world.published.length, p.world.deliveries.length,
        answersOf p 1)) = some (2, 2, 1, some (.counted 1 0 [] 0 1, false)) := by decide +kernel
  obtain ⟨p, hp, h⟩ := Option.map_eq_some_iff.mp hrun
  simp only [Prod.mk.injEq] at h
  exact ⟨p, hp, h, event_fan_out service 0 [hook] resent p (by decide) hp⟩

def raced : List Event :=
  ([.start 0 (batch [idempotencyKey] [.obj []] [js "id-0"]),
    .start 1 (batch [idempotencyKey] [.obj [], .obj []] [js "id-1", js "id-2"])] : List Event)++
    List.replicate 2 (.act 0 .ok : Event)++List.replicate 2 (.act 1 .ok : Event)++
    List.replicate 11 (.act 0 .ok : Event)++List.replicate 14 (.act 1 .ok : Event)

def countOf (p : State) (n : ℕ) : Option (ℕ × ℕ) :=
  (p.thread n).bind (fun t =>
    match t.phase with
    | .answered (some _) (.counted ingested dropped _ _ _) _ =>
      some (ingested+dropped, (objectEntries t.request).length)
    | _ => none)

theorem countOf_some (p : State) (n a b : ℕ) (h : countOf p n = some (a, b)) :
    ∃ q f ingested dropped errors inserted duplicates replayed,
      p.thread n = some ⟨q, .answered (some f)
        (.counted ingested dropped errors inserted duplicates) replayed⟩ ∧
      ingested+dropped = a ∧ (objectEntries q).length = b := by
  unfold countOf at h
  obtain ⟨⟨q, ph⟩, ht, hph⟩ := Option.bind_eq_some_iff.mp h
  split at hph
  · next f ingested dropped errors inserted duplicates replayed heq =>
    simp only [Option.some.injEq, Prod.mk.injEq] at hph
    obtain rfl : ph = _ := heq
    exact ⟨q, f, ingested, dropped, errors, inserted, duplicates, replayed, ht, hph⟩
  · cases hph

/-- The request that comes second is answered with the counts of the first. -/
theorem raced_batch_is_miscounted :
    ¬ ∀ (S : Service) (now : Instant) (webhooks : List Webhook) (ls : List Event) (p : State),
      (∀ l ∈ ls, Succeeds l) → run (next S) ls (start now webhooks) = some p →
        ∀ n q f ingested dropped errors inserted duplicates replayed,
          p.thread n = some ⟨q, .answered (some f)
            (.counted ingested dropped errors inserted duplicates) replayed⟩ →
          ingested+dropped = (objectEntries q).length ∧ inserted+duplicates = ingested := by
  intro h
  have hrun : (run (next service) raced (start 0 [])).map (fun p => countOf p 1) =
      some (some (1, 2)) := by decide +kernel
  obtain ⟨p, hp, hcount⟩ := Option.map_eq_some_iff.mp hrun
  obtain ⟨q, f, ingested, dropped, errors, inserted, duplicates, replayed, ht, hone, htwo⟩ :=
    countOf_some p 1 1 2 hcount
  have := (h service 0 [] raced p (by decide) hp 1 q f ingested dropped errors inserted duplicates
    replayed ht).1
  omega

end Scenario

end ControlPlane.EventFanout
