import ControlPlane.RevocationClosure
import ControlPlane.RevocationMachine
import ControlPlane.TctRows

/-!
# The issuer of a recorded revocation

The handler decides on an issuer from what it has read, and the upsert fills
the entry only if it has none. The two agree as long as no upsert meets an
entry with another issuer, which two concurrent requests for an unknown `jti`
can bring about.
-/

set_option autoImplicit false

namespace ControlPlane.RevocationAttribution
open ControlPlane.JsText ControlPlane.JsValue ControlPlane.HttpValidate ControlPlane.AdminAudit
open ControlPlane.AdminRoutes ControlPlane.TctMonitor ControlPlane.RevocationRoute
open ControlPlane.RevocationMachine ControlPlane.Idempotency
open ControlPlane.RunMachine ControlPlane.ThreadPool ControlPlane.TctRows

def fill (r : Revocation) (iss : Text) (e : RevocationEntry) : RevocationEntry :=
  if e.jti = r.jti && e.iss.isNone then { e with iss := some iss } else e

theorem fill_jti (r : Revocation) (iss : Text) (e : RevocationEntry) :
    (fill r iss e).jti = e.jti := by
  unfold fill
  split_ifs <;> rfl

theorem find_fill (r : Revocation) (iss jti : Text) (es : List RevocationEntry) :
    (es.map (fill r iss)).find? (·.jti = jti) = (es.find? (·.jti = jti)).map (fill r iss) := by
  rw [List.find?_map]
  congr 2
  funext e
  simp [fill_jti]

theorem upsertEntry_entries (r : Revocation) (iss : Text) (t : Tables) :
    (upsertEntry r iss t).revocationEntries =
      if t.revocationEntries.any (·.jti = r.jti) then t.revocationEntries.map (fill r iss)
      else t.revocationEntries++[⟨r.jti, r.revokedAt, r.reason.map toWellFormed, some iss⟩] := rfl

theorem storedIss_upsert (r : Revocation) (iss : Text) (t : Tables) (jti : Text) :
    storedIss (upsertEntry r iss t) jti =
      if jti = r.jti then some ((storedIss t jti).getD iss) else storedIss t jti := by
  simp only [storedIss, upsertEntry_entries]
  split_ifs with hany hj hj
  · subst hj
    have hsome : (t.revocationEntries.find? (·.jti = r.jti)).isSome = true := by
      simpa [List.find?_isSome] using hany
    obtain ⟨e, he⟩ := Option.isSome_iff_exists.mp hsome
    have hej : e.jti = r.jti := by simpa using List.find?_some he
    rw [find_fill, he]
    cases hi : e.iss <;> simp [fill, hej, hi]
  · rw [find_fill]
    cases he : t.revocationEntries.find? (·.jti = jti) with
    | none => rfl
    | some e =>
      have hej : e.jti = jti := by simpa using List.find?_some he
      simp [fill, hej, hj]
  · subst hj
    have hnone : t.revocationEntries.find? (·.jti = r.jti) = none := by
      simpa using hany
    simp [List.find?_append, hnone]
  · simp [List.find?_append, Ne.symm hj]

def Keyed (t : Tables) : Prop := (t.revocationEntries.map (·.jti)).Nodup

theorem keyed_upsert (r : Revocation) (iss : Text) (t : Tables) (hk : Keyed t) :
    Keyed (upsertEntry r iss t) := by
  simp only [Keyed, upsertEntry_entries]
  split_ifs with hany
  · have h : (t.revocationEntries.map (fill r iss)).map (·.jti) =
        t.revocationEntries.map (·.jti) := by
      simp [Function.comp_def, fill_jti]
    rw [h]
    exact hk
  · simp only [List.map_append, List.map_cons, List.map_nil]
    apply List.nodup_append_comm.mp
    simp only [List.singleton_append, List.nodup_cons, List.mem_map, not_exists, not_and]
    exact ⟨fun e he hj => hany (List.any_eq_true.mpr ⟨e, he, by simpa using hj⟩), hk⟩

theorem relayed_iff (t : Tables) (hk : Keyed t) (jti iss : Text)
    (h : storedIss t jti = some iss) (asked : Text) :
    (∃ e ∈ relayed t asked, e.jti = jti) ↔ asked = iss := by
  simp only [storedIss, Option.bind_eq_some_iff] at h
  obtain ⟨e, he, hiss⟩ := h
  have hej : e.jti = jti := by simpa using List.find?_some he
  have hm := List.mem_of_find?_eq_some he
  simp only [relayed, List.mem_filter, decide_eq_true_eq]
  constructor
  · rintro ⟨e', ⟨hm', hiss'⟩, hej'⟩
    obtain rfl := List.inj_on_of_nodup_map hk hm' hm (hej'.trans hej.symm)
    exact Option.some.inj (hiss'.symm.trans hiss)
  · rintro rfl
    exact ⟨e, ⟨hm, hiss⟩, hej⟩

def namedAnswer : Answer → Option (Revocation × Text)
  | .created r iss => some (r, iss)
  | _ => none

def named : Phase → Option (Revocation × Text)
  | .stored r iss => some (r, iss)
  | .ingested r iss => some (r, iss)
  | .cascaded r iss => some (r, iss)
  | .finished a => namedAnswer a
  | .persisted a => namedAnswer a
  | .answered a _ => namedAnswer a
  | _ => none

/-- An upsert that is about to meet an entry of another issuer. -/
def contested (w : World) : Phase → Bool
  | .resolved r iss => entryStorable r iss && (storedIss w.tables r.jti).any (· ≠ iss)
  | _ => false

def Uncontested : Event → State → Prop
  | .act i .ok, s => At s i (fun t => contested s.world t.phase = false)
  | _, _ => True

instance decidableUncontested : ∀ l s, Decidable (Uncontested l s)
  | .act i .ok, s =>
    inferInstanceAs (Decidable (At s i (fun t => contested s.world t.phase = false)))
  | .act _ .fault, _ => isTrue trivial
  | .env _, _ => isTrue trivial

def Kept (w w' : World) : Prop :=
  ∀ jti iss, storedIss w.tables jti = some iss → storedIss w'.tables jti = some iss

theorem kept_upsert (w : World) (r : Revocation) (iss : Text) :
    Kept w { w with tables := upsertEntry r iss w.tables } := by
  intro jti x hx
  simp only [storedIss_upsert]
  split_ifs with hj
  · subst hj
    simp [hx]
  · exact hx

theorem storedIss_onEvent (M : Monitor) (now : Instant) (getAgent : Text → Option Text)
    (event : AuditEventRecord) (t : Tables) (jti : Text) :
    storedIss (onEvent M now getAgent event t) jti = storedIss t jti := by
  simp only [storedIss, entries_onEvent]

/-- What the route has told, and to whom it would tell it again. -/
structure Recorded (w : World) : Prop where
  keyed : Keyed w.tables
  events : ∀ e ∈ w.events, ∃ r iss, e = revokedEvent r iss ∧ storedIss w.tables r.jti = some iss
  rows : ∀ a ∈ w.log.rows, ∃ r iss ctx, a = auditRow (addedEntry r iss) ctx ∧
    storedIss w.tables r.jti = some iss
  responses : ∀ x ∈ w.responses, ∀ r iss, namedAnswer x.responseBody = some (r, iss) →
    storedIss w.tables r.jti = some iss

def Named (w : World) (p : Phase) : Prop :=
  ∀ r iss, named p = some (r, iss) → storedIss w.tables r.jti = some iss

theorem named_none (w : World) (p : Phase) (h : named p = none) : Named w p := by
  intro r iss hn
  rw [h] at hn
  cases hn

theorem named_mono (w w' : World) (p : Phase) (hk : Kept w w') (h : Named w p) : Named w' p :=
  fun r iss hn => hk _ _ (h r iss hn)

theorem named_begin (q : EntryRequest) : named (begin q) = none := by
  unfold begin
  split
  · rfl
  · split <;> rfl

theorem named_check (S : Service) (w : World) (body : Json) :
    named (checkStep S w body) = none := by
  unfold checkStep
  split <;> rfl

theorem named_resolve (w : World) (r : Revocation) (iss : Option Text) :
    named (resolveStep w r iss) = none := by
  unfold resolveStep
  split <;> rfl

theorem named_lookup (w : World) (q : EntryRequest) (body : Json) (hw : Recorded w) :
    Named w (lookupStep w q body) := by
  unfold lookupStep
  split
  · split
    · next row hrow => exact hw.responses row (lookup_mem _ _ _ _ hrow).1
    · exact named_none w _ rfl
  · exact named_none w _ rfl

theorem named_settle (w : World) (q : EntryRequest) (a : Answer) (hw : Recorded w)
    (hp : Named w (.persisted a)) : Named w (settleStep w q a) := by
  unfold settleStep
  split
  · next k _ =>
    intro r iss hn
    simp only [named] at hn
    rcases settle_body w.responses entriesScope k (answerStatus a) a with hb | ⟨row, hm, _, _, hb⟩
    · exact hp r iss (hb ▸ hn)
    · exact hw.responses row hm r iss (hb ▸ hn)
  · exact hp

theorem named_threw (w : World) : Named w (.answered .threw false) := named_none w _ rfl

theorem recorded_mono (w w' : World) (hk : Kept w w') (hkeyed : Keyed w'.tables)
    (hevents : w'.events = w.events) (hlog : w'.log = w.log)
    (hresponses : w'.responses = w.responses) (hw : Recorded w) : Recorded w' := by
  constructor
  · exact hkeyed
  · intro e he
    obtain ⟨r, iss, h, hs⟩ := hw.events e (hevents ▸ he)
    exact ⟨r, iss, h, hk _ _ hs⟩
  · intro a ha
    obtain ⟨r, iss, ctx, h, hs⟩ := hw.rows a (hlog ▸ ha)
    exact ⟨r, iss, ctx, h, hk _ _ hs⟩
  · intro x hx r iss h
    exact hk _ _ (hw.responses x (hresponses ▸ hx) r iss h)

theorem upsert_recorded (w : World) (r : Revocation) (iss : Text) (hw : Recorded w)
    (hc : contested w (.resolved r iss) = false) :
    Recorded (upsertStep w r iss).1 ∧ Named (upsertStep w r iss).1 (upsertStep w r iss).2 := by
  unfold upsertStep
  split_ifs with hs
  · have hk := kept_upsert w r iss
    constructor
    · exact recorded_mono w _ hk (keyed_upsert r iss w.tables hw.keyed) rfl rfl rfl hw
    · rintro _ _ ⟨rfl, rfl⟩
      simp only [contested, hs, Bool.true_and] at hc
      simp only [storedIss_upsert, if_true]
      cases hx : storedIss w.tables r.jti with
      | none => rfl
      | some x =>
        simp only [hx, Option.any_some, decide_eq_false_iff_not, not_not] at hc
        simp [hc]
  · exact ⟨hw, named_threw w⟩

theorem ingest_recorded (w : World) (r : Revocation) (iss : Text) (hw : Recorded w)
    (hp : Named w (.stored r iss)) :
    Recorded (ingestStep w r iss).1 ∧ Named (ingestStep w r iss).1 (ingestStep w r iss).2 := by
  unfold ingestStep
  split_ifs with hs
  · constructor
    · constructor
      · exact hw.keyed
      · intro e he
        rcases List.mem_append.mp he with he | he
        · exact hw.events e he
        · exact ⟨r, iss, List.mem_singleton.mp he, hp r iss rfl⟩
      · exact hw.rows
      · exact hw.responses
    · exact hp
  · exact ⟨hw, named_threw w⟩

theorem project_recorded (S : Service) (io : Io) (w : World) (r : Revocation) (iss : Text)
    (hw : Recorded w) (hp : Named w (.ingested r iss)) :
    Recorded (projectStep S io w r iss).1 ∧
      Named (projectStep S io w r iss).1 (projectStep S io w r iss).2 := by
  cases io with
  | ok =>
    have hk : Kept w (projectStep S .ok w r iss).1 := by
      intro jti x hx
      simp only [projectStep, storedIss_onEvent]
      exact hx
    constructor
    · apply recorded_mono w _ hk _ rfl rfl rfl hw
      simp only [projectStep, Keyed, entries_onEvent]
      exact hw.keyed
    · exact named_mono w _ (.ingested r iss) hk hp
  | fault => exact ⟨hw, hp⟩

theorem audit_recorded (io : Io) (w : World) (q : EntryRequest) (r : Revocation) (iss : Text)
    (hw : Recorded w) (hp : Named w (.cascaded r iss)) :
    Recorded (auditStep io w q r iss).1 ∧
      Named (auditStep io w q r iss).1 (auditStep io w q r iss).2 := by
  cases io with
  | ok =>
    constructor
    · constructor
      · exact hw.keyed
      · exact hw.events
      · intro a ha
        simp only [auditStep, writeAdminAudit] at ha
        split_ifs at ha
        · rcases List.mem_append.mp ha with ha | ha
          · exact hw.rows a ha
          · exact ⟨r, iss, _, List.mem_singleton.mp ha, hp r iss rfl⟩
        · exact hw.rows a ha
      · exact hw.responses
    · exact hp
  | fault => exact ⟨⟨hw.keyed, hw.events, hw.rows, hw.responses⟩, hp⟩

theorem persist_recorded (io : Io) (w : World) (q : EntryRequest) (a : Answer)
    (hw : Recorded w) (hp : Named w (.finished a)) :
    Recorded (persistStep io w q a).1 ∧
      Named (persistStep io w q a).1 (persistStep io w q a).2 := by
  unfold persistStep
  split
  · split_ifs
    · constructor
      · constructor
        · exact hw.keyed
        · exact hw.events
        · exact hw.rows
        · intro x hx r iss h
          rcases mem_persist _ _ _ _ _ _ hx with hx | rfl
          · exact hw.responses x hx r iss h
          · exact hp r iss h
      · exact hp
    · exact ⟨hw, hp⟩
    · exact ⟨hw, hp⟩
  · exact ⟨hw, hp⟩

theorem entryStep_recorded (S : Service) (q : EntryRequest) (io : Io) (w w' : World)
    (p p' : Phase) (h : entryStep S q io w p = some (w', p')) (hw : Recorded w) (hp : Named w p)
    (hc : io = .ok → contested w p = false) : Recorded w' ∧ Named w' p' := by
  cases step_move S q io w w' p p' h with
  | receive => exact ⟨hw, named_none w _ (named_begin q)⟩
  | find body => exact ⟨hw, named_lookup w q body hw⟩
  | check body => exact ⟨hw, named_none w _ (named_check S w body)⟩
  | read r => exact ⟨hw, named_none w _ rfl⟩
  | resolve r iss => exact ⟨hw, named_none w _ (named_resolve w r iss)⟩
  | upsert r iss => exact upsert_recorded w r iss hw (hc rfl)
  | ingest r iss => exact ingest_recorded w r iss hw hp
  | project io r iss => exact project_recorded S io w r iss hw hp
  | audit io r iss => exact audit_recorded io w q r iss hw hp
  | persist io a => exact persist_recorded io w q a hw hp
  | settle a => exact ⟨hw, named_settle w q a hw hp⟩
  | throw => exact ⟨hw, named_threw w⟩

theorem kept_next (S : Service) (l : Event) (s t : State) (hs : next S l s = some t) :
    Kept s.world t.world := by
  intro jti x hx
  rcases next_tables S l s t hs with ht | ⟨r, iss, ht⟩ | ⟨getAgent, event, ht⟩
  · rwa [ht]
  · rw [ht]
    exact kept_upsert s.world r iss jti x hx
  · rw [ht, storedIss_onEvent]
    exact hx

theorem kept_run (S : Service) (ls : List Event) (s t : State) (hr : run (next S) ls s = some t) :
    Kept s.world t.world :=
  run_invariant (next S) (fun _ _ => True) (fun u => Kept s.world u.world)
    (fun l u v _ hu hs jti iss hx => kept_next S l u v hs jti iss (hu jti iss hx)) ls s t
    (guarded_true _ _ _) (fun _ _ hx => hx) hr

structure Inv (s : State) : Prop where
  recorded : Recorded s.world
  threads : ∀ (i : ℕ) (t : Thread), s.threads[i]? = some t → Named s.world t.phase

theorem inv_next (S : Service) (l : Event) (s t : State) (hok : Uncontested l s) (hi : Inv s)
    (hs : next S l s = some t) : Inv t := by
  have hk := kept_next S l s t hs
  cases l with
  | env e =>
    obtain ⟨w, o, he, rfl⟩ := (step_env_some _ _ _ _).mp hs
    have hnew : ∀ u ∈ o, named u.phase = none := by
      cases e <;> cases he <;> simp [named]
    have hw : Recorded w := by
      cases e with
      | tick ms => cases he; exact recorded_mono _ _ hk hi.recorded.keyed rfl rfl rfl hi.recorded
      | post q => cases he; exact hi.recorded
      | report getAgent event =>
        cases he
        apply recorded_mono _ _ hk _ rfl rfl rfl hi.recorded
        simp only [Keyed, entries_onEvent]
        exact hi.recorded.keyed
    constructor
    · exact hw
    · intro i u hu
      rcases append_get _ _ _ _ hu with h | ⟨_, h⟩
      · exact named_mono _ _ _ hk (hi.threads i u h)
      · exact named_none _ _ (hnew u h)
  | act i io =>
    obtain ⟨u, w', p', hu, hstep, rfl⟩ := act_next S i io s t hs
    have hc : io = .ok → contested s.world u.phase = false := by
      rintro rfl
      exact hok u hu
    obtain ⟨hw, hp⟩ := entryStep_recorded S u.request io s.world w' u.phase p' hstep hi.recorded
      (hi.threads i u hu) hc
    constructor
    · exact hw
    · intro j v hv
      rcases set_get _ _ _ _ _ hv with ⟨_, rfl⟩ | ⟨_, hv⟩
      · exact hp
      · exact named_mono _ _ _ hk (hi.threads j v hv)

def Serves (t : Tables) (jti iss : Text) : Prop :=
  storedIss t jti = some iss ∧ ∀ asked, (∃ e ∈ relayed t asked, e.jti = jti) ↔ asked = iss

/-- Events, webhooks, audit rows and answers name the issuer that is served. -/
structure Attributed (s : State) : Prop where
  events : ∀ e ∈ s.world.events, ∃ r iss, e = revokedEvent r iss ∧ Serves s.world.tables r.jti iss
  rows : ∀ a ∈ s.world.log.rows, ∃ r iss ctx, a = auditRow (addedEntry r iss) ctx ∧
    Serves s.world.tables r.jti iss
  answers : ∀ (i : ℕ) (q : EntryRequest) (r : Revocation) (iss : Text) (replayed : Bool),
    s.threads[i]? = some ⟨q, .answered (.created r iss) replayed⟩ →
      Serves s.world.tables r.jti iss

theorem inv_attributed (s : State) (hi : Inv s) : Attributed s := by
  have hserves : ∀ jti iss, storedIss s.world.tables jti = some iss →
      Serves s.world.tables jti iss :=
    fun jti iss h => ⟨h, relayed_iff s.world.tables hi.recorded.keyed jti iss h⟩
  constructor
  · intro e he
    obtain ⟨r, iss, h, hs⟩ := hi.recorded.events e he
    exact ⟨r, iss, h, hserves _ _ hs⟩
  · intro a ha
    obtain ⟨r, iss, ctx, h, hs⟩ := hi.recorded.rows a ha
    exact ⟨r, iss, ctx, h, hserves _ _ hs⟩
  · intro i q r iss replayed ht
    exact hserves _ _ (hi.threads i _ ht r iss rfl)

/-- In a run without a contested upsert every report names the issuer that the
entry is served to, and in no run does a stored issuer change. -/
theorem revocation_attribution (S : Service) (now : Instant) (t : Tables) (hk : Keyed t)
    (ls : List Event) (s : State) (hr : run (next S) ls (start now t) = some s) :
    (Guarded (next S) Uncontested ls (start now t) → Attributed s) ∧
      ∀ ls' s', run (next S) ls' s = some s' → ∀ jti iss,
        storedIss s.world.tables jti = some iss → storedIss s'.world.tables jti = some iss := by
  constructor
  · intro hg
    have hstart : Inv (start now t) := by
      constructor
      · constructor
        · exact hk
        · intro e he
          cases he
        · intro a ha
          cases ha
        · intro x hx
          cases hx
      · intro i u hu
        simp [start] at hu
    exact inv_attributed s (run_invariant (next S) Uncontested Inv
      (fun l u v hok hi hs => inv_next S l u v hok hi hs) ls _ s hg hstart hr)
  · exact fun ls' s' hr' => kept_run S ls' s s' hr'

section Scenario
open ControlPlane.RevocationClosure (observer tctJti)

def service : Service := ⟨observer, fun _ => none⟩

def namedRequest (iss : Text) : EntryRequest :=
  ⟨[], ⟨false, some (.obj [(js "jti", .str tctJti), (js "iss", .str iss)])⟩⟩

def concurrent (a b : Text) : List Event :=
  ([.env (.post (namedRequest a)), .env (.post (namedRequest b))] : List Event)++
    List.replicate 4 (.act 0 .ok : Event)++List.replicate 4 (.act 1 .ok : Event)++
      List.replicate 5 (.act 0 .ok : Event)++List.replicate 5 (.act 1 .ok : Event)

def aidA : Text := js "aid:a"

def aidB : Text := js "aid:b"

theorem revocation_attribution_concurrent :
    ∃ s, run (next service) (concurrent aidA aidA) (start 0 Tables.empty) = some s ∧
      s.world.events.length = 2 ∧ Attributed s := by
  have hrun : (run (next service) (concurrent aidA aidA) (start 0 Tables.empty)).map
      (fun s => s.world.events.length) = some 2 := by decide +kernel
  obtain ⟨s, hs, h2⟩ := Option.map_eq_some_iff.mp hrun
  have h := revocation_attribution service 0 Tables.empty List.nodup_nil _ s hs
  exact ⟨s, hs, h2, h.1 (by decide +kernel)⟩

def answerOf (s : State) (i : ℕ) : Option (Text × Text) :=
  (s.threads[i]?.bind (fun t => namedAnswer (match t.phase with
    | .answered a _ => a
    | _ => .threw))).map (fun x => (x.1.jti, x.2))

/-- The second request is answered with an issuer that nobody stored. -/
theorem second_issuer_is_only_echoed :
    ¬ ∀ (S : Service) (now : Instant) (t : Tables) (ls : List Event) (s : State), Keyed t →
      run (next S) ls (start now t) = some s → Attributed s := by
  intro h
  have hrun : (run (next service) (concurrent aidA aidB) (start 0 Tables.empty)).map
      (fun s => (answerOf s 1, storedIss s.world.tables tctJti)) =
        some (some (tctJti, aidB), some aidA) := by decide +kernel
  obtain ⟨s, hs, h1⟩ := Option.map_eq_some_iff.mp hrun
  obtain ⟨hanswer, hstored⟩ := Prod.mk.inj h1
  have ha := h service 0 Tables.empty _ s List.nodup_nil hs
  simp only [answerOf, Option.map_eq_some_iff, Option.bind_eq_some_iff] at hanswer
  obtain ⟨⟨r, iss⟩, ⟨⟨q, p⟩, ht, hp⟩, hri⟩ := hanswer
  obtain ⟨hjti, hiss⟩ := Prod.mk.inj hri
  cases p with
  | answered a replayed =>
    cases a with
    | created r' iss' =>
      obtain ⟨rfl, rfl⟩ := Prod.mk.inj (Option.some.inj hp)
      have hs := (ha.answers 1 q r' iss' replayed ht).1
      simp only at hjti hiss
      rw [hjti, hiss, hstored] at hs
      exact absurd hs (by decide)
    | refused problem => cases hp
    | threw => cases hp
  | _ => cases hp

end Scenario

end ControlPlane.RevocationAttribution
