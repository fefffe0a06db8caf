import ControlPlane.DoubleRounding
import ControlPlane.KeyBudgets
import ControlPlane.MetricsRoute
import ControlPlane.RevocationRelay

/-!
# What a scrape shows of the gate

The limiter counts the requests that it refuses by the name of their bucket,
and the relay keeps the last pull of each issuer key. Both hear only of
requests that the gate has judged, so every label that they bring to a scrape
comes from the source or from the configuration.
-/

set_option autoImplicit false

namespace ControlPlane.ScrapedProcess
open ControlPlane.JsText ControlPlane.JsValue ControlPlane.JsNumberText ControlPlane.HttpValidate
open ControlPlane.RequestGate ControlPlane.RateLimiter ControlPlane.RevocationRelay
open ControlPlane.MetricsRoute ControlPlane.Exposition
open ControlPlane.AuditCompleteness (ids proxy_authenticated passThrough_keyLabel)
open ControlPlane.TctMonitor (RevocationEntry)
open ControlPlane.KeyBudgets (limited)

/-- `dropped` are the keys of the drop totals, in insertion order. -/
structure Process where
  limiter : Limiter
  dropped : List Text
  pulls : IssuerPulls

def Process.start : Process := ⟨.empty, [], []⟩

/-- `iss` is the query of a pull, and `rows` is what the database answers. -/
inductive Event where
  | request (now : Instant) (source : IdSource) (r : Request) (iss : Option Text)
      (rows : Option (List RevocationEntry))
  | gc (now : Instant)

section Serve
variable (cfg : GateConfig) (windowMs : ℚ)

def countDrop (r : Request) (decision : Option Bool) (dropped : List Text) : List Text :=
  match limited cfg r, decision with
  | some c, some false => if c.bucketName ∈ dropped then dropped else dropped++[c.bucketName]
  | _, _ => dropped

def recordPull (now : Instant) (source : IdSource) (r : Request) (iss : Option Text)
    (rows : Option (List RevocationEntry)) (decision : Option Bool) (pulls : IssuerPulls) :
    IssuerPulls :=
  match proxy cfg source (fun _ => decision.all id) r with
  | .forward h => if isRelayRequest r then (revocations now iss h rows pulls).2 else pulls
  | _ => pulls

def serve (p : Process) : Event → Process
  | .request now source r iss rows =>
    let served := KeyBudgets.serve cfg windowMs p.limiter (.request now r)
    ⟨served.1, countDrop cfg r served.2 p.dropped,
      recordPull cfg now source r iss rows served.2 p.pulls⟩
  | .gc now => { p with limiter := gc p.limiter now }

end Serve

def Clocked : Event → Prop
  | .request now _ _ _ _ => |now| ≤ maxDateMs
  | .gc _ => True

structure Shown (x : Text × IssuerPull) : Prop where
  label : isKeyLabel x.1 = true
  aid : isAid x.2.aid = true
  clock : |x.2.secs| ≤ 2^53

structure Scrapable (p : Process) : Prop where
  named : ∀ name ∈ p.dropped, name ∈ bucketNames
  distinct : p.dropped.Nodup
  counted : ∀ name, name ∈ p.dropped ↔ p.limiter.drops name ≠ 0
  shown : ∀ x ∈ p.pulls, Shown x

theorem chosen_named (cfg : GateConfig) (r : Request) (c : RateLimitChoice)
    (h : limited cfg r = some c) : c.bucketName ∈ bucketNames := by
  have hchoice : ∀ token isPublic, (chooseRateLimit cfg r token isPublic).bucketName ∈
      bucketNames := by
    intro token isPublic
    unfold chooseRateLimit
    dsimp only
    split
    · exact List.mem_cons_self
    · split
      · exact List.mem_cons_of_mem _ (List.mem_cons_of_mem _ List.mem_cons_self)
      · exact List.mem_cons_of_mem _ List.mem_cons_self
  unfold limited at h
  split at h
  · split at h
    · cases h
    · split at h
      · exact Option.some.inj h ▸ hchoice _ _
      · cases h
  · cases h

theorem check_drops (l : Limiter) (bucketName key : Text) (limit windowMs : ℚ) (now : Instant)
    (name : Text) : (check l bucketName key limit windowMs now).1.drops name =
      l.drops name+(if (check l bucketName key limit windowMs now).2.allowed = false ∧
        name = bucketName then 1 else 0) := by
  unfold check
  split_ifs with hlimit hdrop hdrop
  · exact absurd hdrop.1 (by simp)
  · rfl
  · obtain ⟨hrefused, rfl⟩ := hdrop
    simp only at hrefused ⊢
    rw [hrefused]
    simp
  · simp only at hdrop ⊢
    split_ifs with hallowed
    · rfl
    · have hname : name ≠ bucketName := fun h => hdrop ⟨by simpa using hallowed, h⟩
      rw [Function.update_of_ne hname]
      rfl

section Step
variable (raw rawIssuer : Option Text) (cfg : GateConfig) (hc : Configured raw rawIssuer cfg)
  (windowMs : ℚ)

theorem drops_step (p : Process) (h : Scrapable p) (now : Instant) (r : Request) :
    let served := KeyBudgets.serve cfg windowMs p.limiter (.request now r)
    let dropped := countDrop cfg r served.2 p.dropped
    (∀ name ∈ dropped, name ∈ bucketNames) ∧ dropped.Nodup ∧
      ∀ name, name ∈ dropped ↔ served.1.drops name ≠ 0 := by
  cases hl : limited cfg r with
  | none =>
    simp only [KeyBudgets.serve, countDrop, hl]
    exact ⟨h.named, h.distinct, h.counted⟩
  | some c =>
    have hname := chosen_named cfg r c hl
    have hdrops := check_drops p.limiter c.bucketName c.key c.limit windowMs now
    simp only [KeyBudgets.serve, countDrop, hl]
    generalize check p.limiter c.bucketName c.key c.limit windowMs now = checked at hdrops ⊢
    obtain ⟨l, d⟩ := checked
    simp only at hdrops ⊢
    cases ha : d.allowed with
    | true =>
      simp only [ha, Bool.true_eq_false, false_and, if_false, Nat.add_zero] at hdrops
      refine ⟨h.named, h.distinct, fun name => ?_⟩
      rw [hdrops]
      exact h.counted name
    | false =>
      simp only [ha, true_and] at hdrops
      simp only [hdrops]
      split_ifs with hmem
      · refine ⟨h.named, h.distinct, fun name => ?_⟩
        rw [h.counted]
        split_ifs with heq
        · subst heq
          simp [(h.counted _).mp hmem]
        · rfl
      · refine ⟨?_, ?_, ?_⟩
        · exact List.forall_mem_append.mpr ⟨h.named, List.forall_mem_singleton.mpr hname⟩
        · exact h.distinct.append (List.nodup_singleton _) (by simpa using hmem)
        · intro name
          rw [List.mem_append, List.mem_singleton, h.counted]
          split_ifs with heq
          · simp [heq]
          · simp [heq]

theorem recorded_shown (now : Instant) (label aid : Text) (pulls : IssuerPulls)
    (h : ∀ x ∈ pulls, Shown x) (hnew : Shown (label, ⟨aid, now/1000⟩)) :
    ∀ x ∈ recordIssuerPull now label aid pulls, Shown x := by
  unfold recordIssuerPull
  split_ifs
  · intro x hx
    obtain ⟨y, hy, rfl⟩ := List.mem_map.mp hx
    split_ifs
    · exact hnew
    · exact h y hy
  · exact List.forall_mem_append.mpr ⟨h, List.forall_mem_singleton.mpr hnew⟩

theorem secs_bound (now : ℤ) (h : |now| ≤ maxDateMs) : |now/1000| ≤ 2^53 := by
  obtain ⟨hlow, hhigh⟩ := abs_le.mp h
  unfold maxDateMs at hlow hhigh
  have hbound : (2 : ℤ)^53 = 9007199254740992 := by norm_num
  rw [abs_le, hbound]
  omega

include hc

theorem forwarded_shown (now : Instant) (hnow : |now| ≤ maxDateMs) (source : IdSource)
    (allowed : RateLimitChoice → Bool) (r : Request) (h : Headers) (label aid : Text)
    (hf : proxy cfg source allowed r = .forward h) (haid : get h keyIssuerHeader = some aid)
    (hlabel : present (get h keyLabelHeader) = some label) :
    Shown (label, ⟨aid, now/1000⟩) := by
  obtain ⟨keyLabel, keyIssuer, hauth, hpass⟩ := proxy_authenticated cfg source allowed r h hf
  obtain ⟨rfl, rfl, -⟩ := authenticate_ok cfg r keyLabel keyIssuer hauth
  rw [passThrough_keyIssuer cfg r source _ _ h hpass, forwarded_issuer raw rawIssuer cfg hc r]
    at haid
  obtain ⟨e, he, rfl⟩ := Option.map_eq_some_iff.mp haid
  rw [passThrough_keyLabel cfg source r _ _ h hpass, forwarded_label, he, Option.map_some,
    Option.some_or, present_keyLabel e.label e.labelled] at hlabel
  obtain rfl := Option.some.inj hlabel
  have hopen := (matchedIssuer_iff raw rawIssuer cfg hc r _).mp ⟨e, he, rfl⟩
  have htaken := ApiKeys.parseIssuerKeys_taken rawIssuer ((apiKeyEntries raw).map (·.key))
  exact ⟨e.labelled, htaken.aid _ hopen.1, secs_bound now hnow⟩

theorem pulls_step (now : Instant) (hnow : |now| ≤ maxDateMs) (source : IdSource) (r : Request)
    (iss : Option Text) (rows : Option (List RevocationEntry)) (decision : Option Bool)
    (pulls : IssuerPulls) (h : ∀ x ∈ pulls, Shown x) :
    ∀ x ∈ recordPull cfg now source r iss rows decision pulls, Shown x := by
  unfold recordPull
  split
  · next headers hf =>
    split
    · unfold revocations
      split
      · exact h
      · simp only
        split
        · exact h
        · split
          · exact h
          · simp only
            split
            · next bound label hbound hlabel =>
              apply recorded_shown now label bound pulls h
              exact forwarded_shown raw rawIssuer cfg hc now hnow source _ r headers label bound hf
                hbound hlabel
            · exact h
    · exact h
  · exact h

theorem scrapable_step (p : Process) (e : Event) (h : Scrapable p) (he : Clocked e) :
    Scrapable (serve cfg windowMs p e) := by
  cases e with
  | gc now => exact ⟨h.named, h.distinct, h.counted, h.shown⟩
  | request now source r iss rows =>
    obtain ⟨hnamed, hdistinct, hcounted⟩ := drops_step cfg windowMs p h now r
    exact ⟨hnamed, hdistinct, hcounted,
      pulls_step raw rawIssuer cfg hc now he source r iss rows _ p.pulls h.shown⟩

theorem scrapable_run (es : List Event) (h : ∀ e ∈ es, Clocked e) :
    Scrapable (es.foldl (serve cfg windowMs) .start) := by
  induction es using List.reverseRecOn with
  | nil => exact ⟨by simp [Process.start], List.nodup_nil, by simp [Process.start, Limiter.empty],
      by simp [Process.start]⟩
  | append_singleton es e ih =>
    rw [List.foldl_append, List.foldl_cons, List.foldl_nil]
    obtain ⟨hes, he⟩ := List.forall_mem_append.mp h
    exact scrapable_step raw rawIssuer cfg hc windowMs _ e (ih hes)
      (he e (List.mem_singleton_self e))

end Step

theorem isDouble_int (z : ℤ) (hz : |z| ≤ 2^53) : IsDouble z := by
  have hself : |(|z|)| ≤ 2^53 := by rw [abs_abs]; exact hz
  have habs := DoubleRounding.toDouble_int |z| hself
  unfold IsDouble
  rw [← Int.cast_abs]
  exact habs

def shownPull (x : Text × IssuerPull) (h : Shown x) : LastPull where
  issuer := x.1
  aid := x.2.aid
  secs := ⟨x.2.secs, isDouble_int x.2.secs h.clock⟩
  isLabel := h.label
  isIssuer := h.aid

section Scrape
variable (p : Process) (h : Scrapable p) (rest : Snapshot)

def lastPulls : List LastPull := p.pulls.pmap shownPull h.shown

def dropTotals : List (Text × Count) :=
  p.dropped.map (fun name => (name, countUp (p.limiter.drops name)))

include h in
theorem dropTotals_named : ∀ d ∈ dropTotals p, d.1 ∈ bucketNames := by
  intro d hd
  obtain ⟨name, hname, rfl⟩ := List.mem_map.mp hd
  exact h.named name hname

def snapshot : Snapshot :=
  { rest with drops := dropTotals p, dropsNamed := dropTotals_named p h,
              lastPulls := lastPulls p h }

theorem snapshot_pulls :
    (snapshot p h rest).lastPulls.map (fun x => (x.issuer, x.aid, x.secs.value)) =
      p.pulls.map (fun x => (x.1, x.2.aid, (x.2.secs : ℚ))) := by
  simp only [snapshot, lastPulls, List.map_pmap, shownPull]
  exact List.pmap_eq_map h.shown

theorem snapshot_read
    (hplain : ∀ c, rest.database = some c → ∀ r ∈ c.eventsByType, PlainText r.1) :
    readBody readCount (metrics (snapshot p h rest)) = some (rows (snapshot p h rest)) := by
  rw [readBody_rows readCount readCount_text, rows_plain]
  exact hplain

end Scrape

/-- Whatever the gate has judged, the drops and the pulls of the process are
read back from its scrape, if the types of the stored events are plain. -/
theorem scrape_run (raw rawIssuer : Option Text) (cfg : GateConfig)
    (hc : Configured raw rawIssuer cfg) (windowMs : ℚ) (es : List Event)
    (hclock : ∀ e ∈ es, Clocked e) (rest : Snapshot)
    (hplain : ∀ c, rest.database = some c → ∀ r ∈ c.eventsByType, PlainText r.1) :
    ∃ h : Scrapable (es.foldl (serve cfg windowMs) .start),
      readBody readCount (metrics (snapshot _ h rest)) = some (rows (snapshot _ h rest)) := by
  have h := scrapable_run raw rawIssuer cfg hc windowMs es hclock
  exact ⟨h, snapshot_read _ h rest hplain⟩

/-- The second pull of the minute is refused. -/
def twoPulls : List Event :=
  [.request 1792889239500 ids relayRequest (some (js "aid:pubkey:abc")) (some []),
    .request 1792889239600 ids relayRequest (some (js "aid:pubkey:abc")) (some [])]

example :
    let p := twoPulls.foldl (serve { relayConfig with rateLimitApiKeyMin := 1 } 60000) .start
    p.dropped = [js "api-key"] ∧ p.limiter.drops (js "api-key") = 1 ∧
      p.pulls = [(js "relay-1", ⟨js "aid:pubkey:abc", 1792889239⟩)] := by
  decide +kernel

end ControlPlane.ScrapedProcess
