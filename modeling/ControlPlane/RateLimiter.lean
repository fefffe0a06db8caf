import Mathlib.Logic.Function.Basic
import ControlPlane.JsValue
import ControlPlane.KeyedCells

/-!
# The rate limiter

A bucket counts the requests of a fixed window, which starts with the first
request after the last window has ended. Names and keys of buckets share one
map. The clock is read once for each call.
-/

set_option autoImplicit false

namespace ControlPlane.RateLimiter
open ControlPlane.JsText ControlPlane.JsValue ControlPlane.KeyedCells

structure RateLimitDecision where
  allowed : Bool
  remaining : JsNumber
  resetAt : JsNumber
  limit : ℚ
  deriving DecidableEq, Repr

structure Bucket where
  count : ℕ
  resetAt : JsNumber
  deriving DecidableEq, Repr

structure Limiter where
  buckets : Text → Option Bucket
  drops : Text → ℕ

def Limiter.empty : Limiter := ⟨fun _ => none, fun _ => 0⟩

/-- `bucket.resetAt <= now` -/
def expired (now : Instant) (b : Bucket) : Bool :=
  match b.resetAt with
  | .finite q => q ≤ now
  | .infinite negative => negative

def current (windowMs : ℚ) (now : Instant) (b : Option Bucket) : Bucket :=
  match b.filter (fun b => !expired now b) with
  | some b => b
  | none => ⟨0, toDouble (now+windowMs)⟩

def take (limit windowMs : ℚ) (now : Instant) (b : Option Bucket) :
    Option Bucket × RateLimitDecision :=
  let bucket := current windowMs now b
  if limit ≤ bucket.count then (some bucket, ⟨false, .finite 0, bucket.resetAt, limit⟩)
  else
    (some { bucket with count := bucket.count+1 },
      ⟨true, toDouble (limit-(bucket.count+1)), bucket.resetAt, limit⟩)

def fullKey (bucketName key : Text) : Text := bucketName++js ":"++key

/-- A limit of zero or less disables the bucket. -/
def check (l : Limiter) (bucketName key : Text) (limit windowMs : ℚ) (now : Instant) :
    Limiter × RateLimitDecision :=
  if limit ≤ 0 then (l, ⟨true, .infinite false, .finite 0, limit⟩)
  else
    let (bucket, decision) := take limit windowMs now (l.buckets (fullKey bucketName key))
    (⟨Function.update l.buckets (fullKey bucketName key) bucket,
      if decision.allowed then l.drops
      else Function.update l.drops bucketName (l.drops bucketName+1)⟩, decision)

def gc (l : Limiter) (now : Instant) : Limiter :=
  { l with buckets := fun k => (l.buckets k).filter (fun b => !expired now b) }

def checkTouch (bucketName key : Text) (limit windowMs : ℚ) (now : Instant) :
    Touch Text (Option Bucket) RateLimitDecision :=
  if limit ≤ 0 then .idle else .one (fullKey bucketName key) (take limit windowMs now)

def gcTouch (now : Instant) : Touch Text (Option Bucket) RateLimitDecision :=
  .all (fun b => b.filter (fun b => !expired now b))

theorem check_buckets (l : Limiter) (bucketName key : Text) (limit windowMs : ℚ)
    (now : Instant) : (check l bucketName key limit windowMs now).1.buckets =
      apply (checkTouch bucketName key limit windowMs now) l.buckets := by
  rw [check, checkTouch]
  by_cases h : limit ≤ 0
  · rw [if_pos h, if_pos h]
    rfl
  · rw [if_neg h, if_neg h]
    rfl

theorem gc_buckets (l : Limiter) (now : Instant) :
    (gc l now).buckets = apply (gcTouch now) l.buckets := rfl

theorem check_disabled (l : Limiter) (bucketName key : Text) (limit windowMs : ℚ) (now : Instant)
    (h : limit ≤ 0) : (check l bucketName key limit windowMs now).2.allowed = true := by
  rw [check, if_pos h]

theorem check_decision (l : Limiter) (bucketName key : Text) (limit windowMs : ℚ) (now : Instant)
    (h : ¬limit ≤ 0) : answer (checkTouch bucketName key limit windowMs now) l.buckets =
      some (check l bucketName key limit windowMs now).2 := by
  rw [check, checkTouch, if_neg h, if_neg h]
  rfl

theorem take_allowed (limit windowMs : ℚ) (now : Instant) (b : Option Bucket) :
    (take limit windowMs now b).2.allowed = true ↔ (current windowMs now b).count < limit := by
  rw [take]
  by_cases h : limit ≤ (current windowMs now b).count
  · simp [h]
  · simp only [if_neg h, true_iff]
    exact not_le.mp h

end ControlPlane.RateLimiter
