import ControlPlane.DoubleRounding
import ControlPlane.FixedWindow
import ControlPlane.RateLimiter

/-!
# Windows of the rate limiter

Checks and collections of stale buckets in the order of their times. Each
bucket is a counter of fixed windows, whose ends are rounded to doubles. The
totals of the drops are members of a plain object, which has some members from
the start.
-/

set_option autoImplicit false

namespace ControlPlane.RateWindows
open ControlPlane.JsText ControlPlane.JsValue ControlPlane.RateLimiter
open ControlPlane.FixedWindow (Rule Counter Cell Admission Reached Lasting)

/-- A total, or the text that an inherited member gives with a number added. -/
inductive Total where
  | number (n : ℕ)
  | text
  deriving DecidableEq, Repr

abbrev DropTotals := Text → Option Total

/-- The members of `Object.prototype`. -/
def inheritedNames : List Text :=
  [js "constructor", js "__defineGetter__", js "__defineSetter__", js "hasOwnProperty",
    js "__lookupGetter__", js "__lookupSetter__", js "isPrototypeOf",
    js "propertyIsEnumerable", js "toString", js "valueOf", js "__proto__",
    js "toLocaleString"]

/-- `drops[name] = (drops[name] ?? 0) + 1`; a prototype that is no object is
not set. -/
def countDrop (drops : DropTotals) (name : Text) : DropTotals :=
  if name = js "__proto__" then drops
  else Function.update drops name (some (match drops name with
    | some (.number n) => .number (n+1)
    | some .text => .text
    | none => if name ∈ inheritedNames then .text else .number 1))

structure Settings where
  limit : Text → ℤ
  windowMs : Text → ℚ

inductive Event where
  | check (now : Instant) (bucketName key : Text)
  | gc (now : Instant)
  deriving DecidableEq

def Event.now : Event → Instant
  | .check now _ _ => now
  | .gc now => now

def Event.isCheck : Event → Bool
  | .check _ _ _ => true
  | .gc _ => false

/-- `windows` counts the windows that each bucket has started. -/
structure State where
  limiter : Limiter
  drops : DropTotals
  windows : Text → ℕ

structure Decided where
  now : Instant
  bucketName : Text
  key : Text
  window : ℕ
  decision : RateLimitDecision

def Decided.bucket (d : Decided) : Text := fullKey d.bucketName d.key

def start : State := ⟨Limiter.empty, fun _ => none, fun _ => 0⟩

def windowOf (s : State) (bucket : Text) (now : Instant) : ℕ :=
  if ((s.limiter.buckets bucket).filter (fun b => !expired now b)).isNone then
    s.windows bucket+1
  else s.windows bucket

def serveCheck (S : Settings) (now : Instant) (bucketName key : Text) (s : State) :
    State × Decided :=
  let bucket := fullKey bucketName key
  let served := check s.limiter bucketName key (S.limit bucket) (S.windowMs bucket) now
  let window := windowOf s bucket now
  (⟨served.1, if served.2.allowed then s.drops else countDrop s.drops bucketName,
    Function.update s.windows bucket window⟩, ⟨now, bucketName, key, window, served.2⟩)

def next (S : Settings) (r : State × List Decided) : Event → State × List Decided
  | .check now bucketName key =>
    ((serveCheck S now bucketName key r.1).1,
      r.2++[(serveCheck S now bucketName key r.1).2])
  | .gc now => ({ r.1 with limiter := gc r.1.limiter now }, r.2)

def outcome (S : Settings) (es : List Event) : State × List Decided :=
  es.foldl (next S) (start, [])

def past (resetAt : JsNumber) (now : Instant) : Bool :=
  match resetAt with
  | .finite q => q ≤ now
  | .infinite negative => negative

def rule (S : Settings) (bucket : Text) : Rule Instant JsNumber where
  past := past
  endOf now := toDouble (now+S.windowMs bucket)
  limit := (S.limit bucket).toNat

def counterOf (b : Bucket) : Counter JsNumber := ⟨b.count, b.resetAt⟩

def Decided.admission (d : Decided) : Admission Instant JsNumber :=
  ⟨d.now, d.window, d.decision.resetAt, d.decision.allowed⟩

def admissionsOf (bucket : Text) (ds : List Decided) : List (Admission Instant JsNumber) :=
  (ds.filter (·.bucket = bucket)).map Decided.admission

theorem outcome_snoc (S : Settings) (es : List Event) (e : Event) :
    outcome S (es++[e]) = next S (outcome S es) e := by
  simp [outcome]

theorem past_mono (resetAt : JsNumber) (s t : Instant) (hs : past resetAt s = true)
    (hle : s ≤ t) : past resetAt t = true := by
  cases resetAt with
  | finite q =>
    simp only [past, decide_eq_true_eq] at hs ⊢
    exact hs.trans (by exact_mod_cast hle)
  | infinite negative => exact hs

theorem past_lasting (S : Settings) (bucket : Text) : Lasting (rule S bucket) :=
  past_mono

theorem filter_collected (now t : Instant) (hle : now ≤ t) (b : Option Bucket) :
    (b.filter (fun b => !expired now b)).filter (fun b => !expired t b) =
      b.filter (fun b => !expired t b) := by
  cases b with
  | none => rfl
  | some b =>
    by_cases h : expired now b = true
    · have ht : expired t b = true := past_mono b.resetAt now t h hle
      simp [Option.filter, h, ht]
    · simp [Option.filter, h]

theorem live_counterOf (S : Settings) (bucket : Text) (now : Instant) (b : Option Bucket) :
    FixedWindow.live (rule S bucket) now (b.map counterOf) =
      (b.filter (fun b => !expired now b)).map counterOf := by
  cases b with
  | none => rfl
  | some b =>
    have hp : past b.resetAt now = expired now b := rfl
    by_cases h : expired now b = true
    · simp [FixedWindow.live, rule, counterOf, Option.filter, hp, h]
    · simp [FixedWindow.live, rule, counterOf, Option.filter, hp, h]

section Buckets
variable (S : Settings) (hlimit : ∀ bucket, 1 ≤ S.limit bucket)

theorem take_live (bucket : Text) (now : Instant) (b : Option Bucket) (c : Bucket)
    (hb : b.filter (fun b => !expired now b) = some c) :
    take (S.limit bucket) (S.windowMs bucket) now b =
      if (S.limit bucket).toNat ≤ c.count then
        (some c, ⟨false, .finite 0, c.resetAt, S.limit bucket⟩)
      else (some { c with count := c.count+1 },
        ⟨true, toDouble (S.limit bucket-(c.count+1)), c.resetAt, S.limit bucket⟩) := by
  have hcurrent : current (S.windowMs bucket) now b = c := by
    rw [current, hb]
  have hle : ((S.limit bucket : ℚ) ≤ c.count) ↔ (S.limit bucket).toNat ≤ c.count := by
    rw [Int.toNat_le]
    exact_mod_cast Iff.rfl
  simp only [take, hcurrent, hle]

include hlimit in
theorem take_fresh (bucket : Text) (now : Instant) (b : Option Bucket)
    (hb : b.filter (fun b => !expired now b) = none) :
    take (S.limit bucket) (S.windowMs bucket) now b =
      (some ⟨1, toDouble (now+S.windowMs bucket)⟩,
        ⟨true, toDouble (S.limit bucket-1), toDouble (now+S.windowMs bucket),
          S.limit bucket⟩) := by
  have hcurrent : current (S.windowMs bucket) now b = ⟨0, toDouble (now+S.windowMs bucket)⟩ := by
    rw [current, hb]
  have hpos : ¬((S.limit bucket : ℚ) ≤ 0) := by
    have := hlimit bucket
    rw [not_le]
    exact_mod_cast (by omega : 0 < S.limit bucket)
  simp [take, hcurrent, hpos]

include hlimit in
theorem rule_pos (bucket : Text) : 0 < (rule S bucket).limit := by
  have := hlimit bucket
  show 0 < (S.limit bucket).toNat
  omega

include hlimit in
theorem take_arrive (bucket : Text) (now : Instant) (b : Option Bucket) (c : Cell JsNumber)
    (hlive : FixedWindow.live (rule S bucket) now (b.map counterOf) =
      FixedWindow.live (rule S bucket) now c.counter) :
    (take (S.limit bucket) (S.windowMs bucket) now b).1.map counterOf =
      (FixedWindow.arrive (rule S bucket) now c).1.counter ∧
    (take (S.limit bucket) (S.windowMs bucket) now b).2.allowed =
      (FixedWindow.arrive (rule S bucket) now c).2.allowed ∧
    (take (S.limit bucket) (S.windowMs bucket) now b).2.resetAt =
      (FixedWindow.arrive (rule S bucket) now c).2.ends := by
  rw [live_counterOf] at hlive
  cases hb : b.filter (fun b => !expired now b) with
  | none =>
    rw [hb] at hlive
    rw [take_fresh S hlimit bucket now b hb,
      FixedWindow.arrive_fresh (rule S bucket) (rule_pos S hlimit bucket) now c hlive.symm]
    exact ⟨rfl, rfl, rfl⟩
  | some d =>
    rw [hb] at hlive
    rw [take_live S bucket now b d hb,
      FixedWindow.arrive_live (rule S bucket) now c (counterOf d) hlive.symm]
    by_cases hfull : (S.limit bucket).toNat ≤ d.count
    · have hrule : (rule S bucket).limit ≤ (counterOf d).count := hfull
      rw [if_pos hfull, if_pos hrule]
      exact ⟨rfl, rfl, rfl⟩
    · have hrule : ¬(rule S bucket).limit ≤ (counterOf d).count := hfull
      rw [if_neg hfull, if_neg hrule]
      exact ⟨rfl, rfl, rfl⟩

include hlimit in
theorem check_take (l : Limiter) (bucketName key : Text) (now : Instant) :
    (check l bucketName key (S.limit (fullKey bucketName key))
        (S.windowMs (fullKey bucketName key)) now).1.buckets =
      Function.update l.buckets (fullKey bucketName key)
        (take (S.limit (fullKey bucketName key)) (S.windowMs (fullKey bucketName key)) now
          (l.buckets (fullKey bucketName key))).1 ∧
    (check l bucketName key (S.limit (fullKey bucketName key))
        (S.windowMs (fullKey bucketName key)) now).2 =
      (take (S.limit (fullKey bucketName key)) (S.windowMs (fullKey bucketName key)) now
        (l.buckets (fullKey bucketName key))).2 := by
  have hpos : ¬((S.limit (fullKey bucketName key) : ℚ) ≤ 0) := by
    have := hlimit (fullKey bucketName key)
    rw [not_le]
    exact_mod_cast (by omega : 0 < S.limit (fullKey bucketName key))
  rw [check, if_neg hpos]
  exact ⟨rfl, rfl⟩

/-- The decisions for a bucket are those of a cell that is live as the bucket
is from the last event on. -/
def Follows (es : List Event) (bucket : Text) (c : Cell JsNumber) : Prop :=
  Reached (rule S bucket) (admissionsOf bucket (outcome S es).2) c ∧
    (outcome S es).1.windows bucket = c.windows ∧
    ∀ t, (∀ e ∈ es, e.now ≤ t) →
      FixedWindow.live (rule S bucket) t (((outcome S es).1.limiter.buckets bucket).map counterOf) =
        FixedWindow.live (rule S bucket) t c.counter

theorem decided_event (es : List Event) (d : Decided) (hd : d ∈ (outcome S es).2) :
    Event.check d.now d.bucketName d.key ∈ es := by
  induction es using List.reverseRecOn with
  | nil => cases hd
  | append_singleton es e ih =>
    rw [outcome_snoc] at hd
    cases e with
    | check now bucketName key =>
      rw [next, List.mem_append, List.mem_singleton] at hd
      rcases hd with hd | rfl
      · exact List.mem_append_left _ (ih hd)
      · exact List.mem_append_right _ (List.mem_singleton_self _)
    | gc now => exact List.mem_append_left _ (ih hd)

theorem admissionsOf_snoc (bucket : Text) (ds : List Decided) (d : Decided) :
    admissionsOf bucket (ds++[d]) = if d.bucket = bucket then admissionsOf bucket ds++[d.admission]
      else admissionsOf bucket ds := by
  by_cases h : d.bucket = bucket
  · simp [admissionsOf, h]
  · simp [admissionsOf, h]

theorem served_bucket (s : State) (bucketName key : Text) (now : Instant) :
    (serveCheck S now bucketName key s).2.bucket = fullKey bucketName key := rfl

include hlimit in
theorem check_admission (s : State) (bucketName key : Text) (now : Instant) (c : Cell JsNumber)
    (hwindows : s.windows (fullKey bucketName key) = c.windows)
    (hlive : FixedWindow.live (rule S (fullKey bucketName key)) now
        ((s.limiter.buckets (fullKey bucketName key)).map counterOf) =
      FixedWindow.live (rule S (fullKey bucketName key)) now c.counter) :
    (serveCheck S now bucketName key s).2.admission =
      (FixedWindow.arrive (rule S (fullKey bucketName key)) now c).2 ∧
    (serveCheck S now bucketName key s).2.window =
      (FixedWindow.arrive (rule S (fullKey bucketName key)) now c).1.windows := by
  obtain ⟨-, hdecision⟩ := check_take S hlimit s.limiter bucketName key now
  obtain ⟨-, hallowed, hends⟩ := take_arrive S hlimit _ now _ c hlive
  obtain ⟨htime, hwindow, -⟩ := FixedWindow.arrive_last (rule S (fullKey bucketName key)) now c
  have hnumber : windowOf s (fullKey bucketName key) now =
      (FixedWindow.arrive (rule S (fullKey bucketName key)) now c).1.windows := by
    rw [live_counterOf] at hlive
    have hnone : (FixedWindow.live (rule S (fullKey bucketName key)) now c.counter).isNone =
        ((s.limiter.buckets (fullKey bucketName key)).filter
          (fun b => !expired now b)).isNone := by
      rw [← hlive, Option.isNone_map]
    simp only [FixedWindow.arrive, windowOf, hwindows, hnone]
    split_ifs <;> rfl
  constructor
  · simp only [Decided.admission, serveCheck, hdecision, hallowed, hends, hnumber, ← hwindow]
    exact congrArg (fun t => Admission.mk t _ _ _) htime.symm
  · exact hnumber

include hlimit in
theorem follows_check (es : List Event) (bucketName key : Text) (now : Instant)
    (hnow : ∀ e ∈ es, e.now ≤ now) (bucket : Text) (c : Cell JsNumber)
    (h : Follows S es bucket c) :
    ∃ c', Follows S (es++[.check now bucketName key]) bucket c' := by
  obtain ⟨hreached, hwindows, hlive⟩ := h
  obtain ⟨hbuckets, -⟩ := check_take S hlimit (outcome S es).1.limiter bucketName key now
  by_cases hkey : fullKey bucketName key = bucket
  · subst hkey
    have hnext := check_admission S hlimit (outcome S es).1 bucketName key now c hwindows
      (hlive now hnow)
    have htimes : ∀ a ∈ admissionsOf (fullKey bucketName key) (outcome S es).2,
        a.time ≤ now := by
      intro a ha
      obtain ⟨d, hd, rfl⟩ := List.mem_map.mp ha
      exact hnow _ (decided_event S es d (List.mem_of_mem_filter hd))
    refine ⟨(FixedWindow.arrive (rule S (fullKey bucketName key)) now c).1, ?_, ?_, ?_⟩
    · rw [outcome_snoc, next, admissionsOf_snoc, served_bucket, if_pos rfl, hnext.1]
      exact Reached.arrive _ c now hreached htimes
    · rw [outcome_snoc, next, ← hnext.2]
      exact Function.update_self _ _ _
    · intro t _
      rw [outcome_snoc, next, ← (take_arrive S hlimit _ now _ c (hlive now hnow)).1]
      simp only [serveCheck, hbuckets, Function.update_self]
  · refine ⟨c, ?_, ?_, ?_⟩
    · rw [outcome_snoc, next, admissionsOf_snoc, served_bucket, if_neg hkey]
      exact hreached
    · rw [outcome_snoc, next, ← hwindows]
      exact Function.update_of_ne (Ne.symm hkey) _ _
    · intro t ht
      rw [outcome_snoc, next]
      simp only [serveCheck, hbuckets, Function.update_of_ne (Ne.symm hkey)]
      exact hlive t (fun e he => ht e (List.mem_append_left _ he))

theorem follows_gc (es : List Event) (now : Instant) (bucket : Text) (c : Cell JsNumber)
    (h : Follows S es bucket c) : Follows S (es++[.gc now]) bucket c := by
  obtain ⟨hreached, hwindows, hlive⟩ := h
  rw [Follows, outcome_snoc, next]
  refine ⟨hreached, hwindows, ?_⟩
  intro t ht
  have hle : now ≤ t := ht (.gc now) (List.mem_append_right _ (List.mem_singleton_self _))
  rw [← hlive t (fun e he => ht e (List.mem_append_left _ he)), live_counterOf, live_counterOf]
  exact congrArg (Option.map counterOf) (filter_collected now t hle _)

include hlimit in
theorem run_follows (es : List Event) (htimes : es.Pairwise (fun a b => a.now ≤ b.now))
    (bucket : Text) : ∃ c, Follows S es bucket c := by
  induction es using List.reverseRecOn with
  | nil => exact ⟨⟨none, 0⟩, Reached.start, rfl, fun _ _ => rfl⟩
  | append_singleton es e ih =>
    rw [List.pairwise_append] at htimes
    obtain ⟨hes, -, hlast⟩ := htimes
    obtain ⟨c, hc⟩ := ih hes
    cases e with
    | check now bucketName key =>
      exact follows_check S hlimit es bucketName key now
        (fun e he => hlast e he _ (List.mem_singleton_self _)) bucket c hc
    | gc now => exact ⟨c, follows_gc S es now bucket c hc⟩

theorem countP_admissions (bucket : Text) (ds : List Decided)
    (p : Admission Instant JsNumber → Bool) :
    (admissionsOf bucket ds).countP p =
      ds.countP (fun d => d.bucket = bucket && p d.admission) := by
  rw [admissionsOf, List.countP_map, List.countP_filter]
  apply List.countP_congr
  intro d _
  simp [and_comm]

def allowedInWindow (ds : List Decided) (bucket : Text) (window : ℕ) : ℕ :=
  ds.countP (fun d => d.bucket = bucket && (d.decision.allowed && d.window = window))

theorem allowedIn_admissions (bucket : Text) (ds : List Decided) (window : ℕ) :
    FixedWindow.allowedIn window (admissionsOf bucket ds) = allowedInWindow ds bucket window :=
  countP_admissions bucket ds _

def allowedWithin (ds : List Decided) (bucket : Text) (a b : ℚ) : ℕ :=
  ds.countP (fun d => d.bucket = bucket && (d.decision.allowed && (a ≤ d.now && d.now < b)))

theorem date_next (y : ℤ) (hy : |y| ≤ 8640000000000000) : |y+1| ≤ 2^53 := by
  rw [abs_le] at hy ⊢
  constructor <;> omega

theorem window_outlasts (w : ℚ) (x y start : Instant) (hy : |y| ≤ maxDateMs) (hstart : x < start)
    (hshort : (y : ℚ) < x+w) : past (toDouble (start+w)) y = false := by
  have hdouble : toDouble ((y+1 : ℤ) : ℚ) = .finite ((y+1 : ℤ) : ℚ) := by
    apply DoubleRounding.toDouble_int
    exact date_next y hy
  have hnext : (x : ℚ)+1 ≤ start := by exact_mod_cast hstart
  rcases DoubleRounding.le_toDouble _ (start+w) hdouble (by push_cast; linarith) with
    ⟨r, hr, hle⟩ | hinf
  · rw [hr, past, decide_eq_false_iff_not, not_le]
    push_cast at hle
    linarith
  · rw [hinf, past]

include hlimit in
theorem interval_limit (es : List Event) (htimes : es.Pairwise (fun a b => a.now ≤ b.now))
    (hdates : ∀ e ∈ es, |e.now| ≤ maxDateMs) (bucket : Text)
    (hopen : ∀ now bucketName key, Event.check now bucketName key ∈ es →
      fullKey bucketName key = bucket → past (toDouble (now+S.windowMs bucket)) now = false)
    (a : ℚ) : (allowedWithin (outcome S es).2 bucket a (a+S.windowMs bucket) : ℤ) ≤
      2*S.limit bucket := by
  obtain ⟨c, hreached, -, -⟩ := run_follows S hlimit es htimes bucket
  have hevent : ∀ x ∈ admissionsOf bucket (outcome S es).2, ∃ bucketName key,
      Event.check x.time bucketName key ∈ es ∧ fullKey bucketName key = bucket := by
    intro x hx
    obtain ⟨d, hd, rfl⟩ := List.mem_map.mp hx
    rw [List.mem_filter, decide_eq_true_eq] at hd
    exact ⟨d.bucketName, d.key, decided_event S es d hd.1, hd.2⟩
  have hbound := FixedWindow.interval_bound (rule_pos S hlimit bucket) (past_lasting S bucket) _ c
    hreached (fun t => a ≤ t && t < a+S.windowMs bucket) (by
      intro x hx
      obtain ⟨bucketName, key, he, hkey⟩ := hevent x hx
      exact hopen x.time bucketName key he hkey) (by
      intro x hx y hy hxin hyin start hstart
      obtain ⟨bucketName, key, he, -⟩ := hevent y hy
      simp only [Bool.and_eq_true, decide_eq_true_eq] at hxin hyin
      exact window_outlasts (S.windowMs bucket) x.time y.time start (hdates _ he) hstart
        (by linarith [hxin.1, hyin.2]))
  rw [countP_admissions] at hbound
  have hlimit' := hlimit bucket
  have hrule : (rule S bucket).limit = (S.limit bucket).toNat := rfl
  rw [hrule] at hbound
  have hcount : allowedWithin (outcome S es).2 bucket a (a+S.windowMs bucket) ≤
      2*(S.limit bucket).toNat := hbound
  omega

include hlimit in
theorem window_limit (es : List Event) (htimes : es.Pairwise (fun a b => a.now ≤ b.now))
    (bucket : Text) (window : ℕ) :
    (allowedInWindow (outcome S es).2 bucket window : ℤ) ≤ S.limit bucket := by
  obtain ⟨c, hreached, -, -⟩ := run_follows S hlimit es htimes bucket
  have hbound := FixedWindow.window_bound (rule_pos S hlimit bucket) (past_lasting S bucket) _ c
    hreached window
  rw [allowedIn_admissions] at hbound
  have hcount : allowedInWindow (outcome S es).2 bucket window ≤ (S.limit bucket).toNat := hbound
  have hpos := hlimit bucket
  omega

include hlimit in
theorem denied_limit (es : List Event) (htimes : es.Pairwise (fun a b => a.now ≤ b.now))
    (ds ds' : List Decided) (d : Decided) (hds : (outcome S es).2 = ds++d::ds')
    (hd : d.decision.allowed = false) :
    (allowedInWindow ds d.bucket d.window : ℤ) = S.limit d.bucket := by
  obtain ⟨c, hreached, -, -⟩ := run_follows S hlimit es htimes d.bucket
  have hsplit : admissionsOf d.bucket (outcome S es).2 =
      admissionsOf d.bucket ds++d.admission::admissionsOf d.bucket ds' := by
    simp [hds, admissionsOf]
  rw [hsplit] at hreached
  have hfull := FixedWindow.denied_bound (rule_pos S hlimit d.bucket)
    (past_lasting S d.bucket) _ _ d.admission c hreached hd
  rw [allowedIn_admissions] at hfull
  have hcount : allowedInWindow ds d.bucket d.window = (S.limit d.bucket).toNat := hfull
  have hpos := hlimit d.bucket
  omega

structure Alike (es : List Event) (r r' : State × List Decided) : Prop where
  decided : r.2 = r'.2
  drops : r.1.drops = r'.1.drops
  windows : r.1.windows = r'.1.windows
  live : ∀ t, (∀ e ∈ es, e.now ≤ t) → ∀ bucket,
    (r.1.limiter.buckets bucket).filter (fun b => !expired t b) =
      (r'.1.limiter.buckets bucket).filter (fun b => !expired t b)

include hlimit in
theorem serve_alike (es : List Event) (now : Instant) (bucketName key : Text)
    (hnow : ∀ e ∈ es, e.now ≤ now) (r r' : State × List Decided) (h : Alike es r r') :
    Alike (es++[.check now bucketName key]) (next S r (.check now bucketName key))
      (next S r' (.check now bucketName key)) := by
  have hlive := h.live now hnow (fullKey bucketName key)
  have htake : take (S.limit (fullKey bucketName key)) (S.windowMs (fullKey bucketName key)) now
      (r.1.limiter.buckets (fullKey bucketName key)) =
        take (S.limit (fullKey bucketName key)) (S.windowMs (fullKey bucketName key)) now
          (r'.1.limiter.buckets (fullKey bucketName key)) := by
    have hcurrent : current (S.windowMs (fullKey bucketName key)) now
        (r.1.limiter.buckets (fullKey bucketName key)) =
          current (S.windowMs (fullKey bucketName key)) now
            (r'.1.limiter.buckets (fullKey bucketName key)) := by
      rw [current, current, hlive]
    rw [take, take, hcurrent]
  have hwindow : windowOf r.1 (fullKey bucketName key) now =
      windowOf r'.1 (fullKey bucketName key) now := by
    simp only [windowOf, hlive, h.windows]
  have hcheck := check_take S hlimit r.1.limiter bucketName key now
  have hcheck' := check_take S hlimit r'.1.limiter bucketName key now
  constructor
  · simp only [next, serveCheck, h.decided, hcheck.2, hcheck'.2, htake, hwindow]
  · simp only [next, serveCheck, h.drops, hcheck.2, hcheck'.2, htake]
  · simp only [next, serveCheck, h.windows, hwindow]
  · intro t ht bucket
    simp only [next, serveCheck, hcheck.1, hcheck'.1, htake]
    by_cases hb : bucket = fullKey bucketName key
    · rw [hb, Function.update_self, Function.update_self]
    · rw [Function.update_of_ne hb, Function.update_of_ne hb]
      exact h.live t (fun e he => ht e (List.mem_append_left _ he)) bucket

theorem gc_alike (es : List Event) (now : Instant) (r r' : State × List Decided)
    (h : Alike es r r') : Alike (es++[.gc now]) (next S r (.gc now)) r' := by
  constructor
  · exact h.decided
  · exact h.drops
  · exact h.windows
  · intro t ht bucket
    have hle : now ≤ t := ht (.gc now) (List.mem_append_right _ (List.mem_singleton_self _))
    rw [← h.live t (fun e he => ht e (List.mem_append_left _ he)) bucket]
    exact filter_collected now t hle _

include hlimit in
theorem checks_alike (es : List Event) (htimes : es.Pairwise (fun a b => a.now ≤ b.now)) :
    Alike es (outcome S es) (outcome S (es.filter Event.isCheck)) := by
  induction es using List.reverseRecOn with
  | nil =>
    constructor
    · rfl
    · rfl
    · rfl
    · intro t _ bucket
      rfl
  | append_singleton es e ih =>
    rw [List.pairwise_append] at htimes
    obtain ⟨hes, -, hlast⟩ := htimes
    cases e with
    | check now bucketName key =>
      have hkeep : (es++[Event.check now bucketName key]).filter Event.isCheck =
          es.filter Event.isCheck++[Event.check now bucketName key] := by
        simp [Event.isCheck]
      rw [hkeep, outcome_snoc, outcome_snoc]
      exact serve_alike S hlimit es now bucketName key
        (fun e he => hlast e he _ (List.mem_singleton_self _)) _ _ (ih hes)
    | gc now =>
      have hdrop : (es++[Event.gc now]).filter Event.isCheck = es.filter Event.isCheck := by
        simp [Event.isCheck]
      rw [hdrop, outcome_snoc]
      exact gc_alike S es now _ _ (ih hes)

def denials (ds : List Decided) (bucketName : Text) : ℕ :=
  ds.countP (fun d => d.bucketName = bucketName && !d.decision.allowed)

def totalOf : ℕ → Option Total
  | 0 => none
  | n+1 => some (.number (n+1))

theorem countDrop_total (drops : DropTotals) (name : Text) (hname : name ∉ inheritedNames)
    (n : ℕ) (h : drops name = totalOf n) : countDrop drops name name = totalOf (n+1) := by
  have hproto : name ≠ js "__proto__" := by
    intro heq
    apply hname
    rw [heq]
    decide
  cases n with
  | zero => simp [countDrop, hproto, h, totalOf, hname]
  | succ n => simp [countDrop, hproto, h, totalOf]

theorem countDrop_other (drops : DropTotals) (name other : Text) (h : other ≠ name) :
    countDrop drops name other = drops other := by
  rw [countDrop]
  by_cases hproto : name = js "__proto__"
  · rw [if_pos hproto]
  · rw [if_neg hproto, Function.update_of_ne h]

theorem drops_count (es : List Event) (name : Text) (hname : name ∉ inheritedNames) :
    (outcome S es).1.drops name = totalOf (denials (outcome S es).2 name) := by
  induction es using List.reverseRecOn with
  | nil => rfl
  | append_singleton es e ih =>
    rw [outcome_snoc]
    cases e with
    | gc now => exact ih
    | check now bucketName key =>
      rw [next, denials, List.countP_append, List.countP_singleton]
      show (if (serveCheck S now bucketName key (outcome S es).1).2.decision.allowed = true then
        (outcome S es).1.drops else countDrop (outcome S es).1.drops bucketName) name = _
      have hbucket :
          (serveCheck S now bucketName key (outcome S es).1).2.bucketName = bucketName := rfl
      generalize (serveCheck S now bucketName key (outcome S es).1).2 = d at hbucket ⊢
      by_cases hallowed : d.decision.allowed = true
      · simp [hallowed, ih, denials]
      · by_cases hn : bucketName = name
        · subst hn
          rw [if_neg hallowed, countDrop_total _ bucketName hname _ ih]
          simp [hallowed, denials, hbucket]
        · rw [if_neg hallowed, countDrop_other _ _ _ (Ne.symm hn), ih]
          simp [denials, hbucket, hn]

end Buckets

/-- Windows keep to their limits, those that open also where they meet; denials
are due, collections change nothing, and the totals are those of the denials. -/
theorem limits_hold (S : Settings) (hlimit : ∀ bucket, 1 ≤ S.limit bucket) (es : List Event)
    (htimes : es.Pairwise (fun a b => a.now ≤ b.now)) (hdates : ∀ e ∈ es, |e.now| ≤ maxDateMs) :
    (∀ bucket window,
      (allowedInWindow (outcome S es).2 bucket window : ℤ) ≤ S.limit bucket) ∧
    (∀ bucket, (∀ now bucketName key, Event.check now bucketName key ∈ es →
        fullKey bucketName key = bucket →
          past (toDouble (now+S.windowMs bucket)) now = false) →
      ∀ a, (allowedWithin (outcome S es).2 bucket a (a+S.windowMs bucket) : ℤ) ≤
        2*S.limit bucket) ∧
    (∀ ds d ds', (outcome S es).2 = ds++d::ds' → d.decision.allowed = false →
      (allowedInWindow ds d.bucket d.window : ℤ) = S.limit d.bucket) ∧
    (∀ es', es'.Sublist es → es'.filter Event.isCheck = es.filter Event.isCheck →
      (outcome S es').2 = (outcome S es).2) ∧
    ∀ name, name ∉ inheritedNames →
      (outcome S es).1.drops name = totalOf (denials (outcome S es).2 name) := by
  constructor
  · exact window_limit S hlimit es htimes
  constructor
  · intro bucket hopen
    exact interval_limit S hlimit es htimes hdates bucket hopen
  constructor
  · intro ds d ds' hds hd
    exact denied_limit S hlimit es htimes ds ds' d hds hd
  constructor
  · intro es' hsub hchecks
    rw [(checks_alike S hlimit es htimes).decided, ← hchecks]
    exact (checks_alike S hlimit es' (htimes.sublist hsub)).decided
  · exact drops_count S es

def minute : Settings := ⟨fun _ => 1, fun _ => 60000⟩

def boundary : List Event :=
  [.check 0 (js "public-ip") (js "a"), .check 59999 (js "public-ip") (js "a"), .gc 60000,
    .check 60000 (js "public-ip") (js "a")]

theorem boundary_opens (e : Event) (he : e ∈ boundary) :
    past (toDouble (e.now+60000)) e.now = false := by
  have hall : ∀ e ∈ boundary, past (toDouble (e.now+60000)) e.now = false := by
    decide +kernel
  exact hall e he

theorem boundary_limits :
    (outcome minute boundary).2.map (fun d => (d.window, d.decision.allowed)) =
      [(1, true), (1, false), (2, true)] ∧
    (outcome minute (boundary.filter Event.isCheck)).2 = (outcome minute boundary).2 ∧
    (outcome minute boundary).1.drops (js "public-ip") = some (.number 1) ∧
    (allowedWithin (outcome minute boundary).2 (js "public-ip:a") 1 (1+60000) : ℤ) ≤ 2*1 := by
  obtain ⟨-, hinterval, -, hgc, hdrops⟩ := limits_hold minute (fun _ => le_rfl) boundary
    (by decide) (by decide)
  constructor
  · decide +kernel
  constructor
  · exact hgc _ List.filter_sublist (by decide)
  constructor
  · rw [hdrops _ (by decide)]
    decide +kernel
  · apply hinterval (js "public-ip:a")
    intro now bucketName key he _
    exact boundary_opens _ he

/-- Windows that are shorter than the clock can tell. -/
def sliver : Settings := ⟨fun _ => 1, fun _ => 1/1048576⟩

/-- Such a window is past as it opens; nor is each total a number. -/
theorem sliver_reopens : (¬∀ (S : Settings) (es : List Event),
    (∀ bucket, 1 ≤ S.limit bucket ∧ 0 < S.windowMs bucket) →
      es.Pairwise (fun a b => a.now ≤ b.now) →
      ∀ bucket a, (allowedWithin (outcome S es).2 bucket a (a+S.windowMs bucket) : ℤ) ≤
        2*S.limit bucket) ∧
    (outcome minute (List.replicate 2 (.check 0 (js "constructor") (js "a")))).1.drops
      (js "constructor") = some .text := by
  constructor
  · intro h
    have hthree := h sliver (List.replicate 3 (.check 1700000000000 (js "enroll-ip") (js "a")))
      (fun _ => ⟨le_rfl, by norm_num [sliver]⟩) (by decide) (js "enroll-ip:a") 1700000000000
    revert hthree
    decide +kernel
  · decide +kernel

end ControlPlane.RateWindows
