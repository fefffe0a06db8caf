import ControlPlane.AdminRoutes
import ControlPlane.ConfigNumber
import ControlPlane.Utf8Decoder

/-!
# Bodies under a ceiling

A body is read chunk by chunk, and its chunks are kept until the stream ends.
The first chunk that takes the total over the ceiling is dropped, the stream is
cancelled and nothing more is read. A declared length over the ceiling is
refused without a read.
-/

set_option autoImplicit false

namespace ControlPlane.BoundedBody
open ControlPlane.JsText ControlPlane.JsValue ControlPlane.ConfigNumber ControlPlane.Utf8Text
open ControlPlane.Utf8Decoder
open ControlPlane.HttpValidate (Problem)
open ControlPlane.AdminRoutes (payloadTooLarge)

abbrev Bytes := List UInt8

/-- What `reader.read()` comes to. -/
inductive Read where
  | done
  | value (chunk : Option Bytes)
  | failed (error : Text)

/-- The answer to each read, in order. -/
abbrev Stream := ℕ → Read

structure Reading where
  reads : ℕ
  chunks : List Bytes
  total : ℕ

inductive Outcome where
  | text (t : Text)
  | bodyTooLarge (maxBytes : ℕ)
  | failed (error : Text)
  deriving DecidableEq

inductive State where
  | reading (r : Reading)
  | ended (r : Reading) (cancelled : Bool) (o : Outcome)

def State.progress : State → Reading
  | .reading r => r
  | .ended r _ _ => r

section Loop
variable (stream : Stream) (maxBytes : ℕ)

def readStep : State → State
  | .reading r =>
    match stream r.reads with
    | .done => .ended { r with reads := r.reads+1 } false (.text (decode r.chunks.flatten))
    | .failed error => .ended { r with reads := r.reads+1 } false (.failed error)
    | .value none => .reading { r with reads := r.reads+1 }
    | .value (some chunk) =>
      let total := r.total+chunk.length
      if maxBytes < total then
        .ended { r with reads := r.reads+1, total := total } true (.bodyTooLarge maxBytes)
      else .reading ⟨r.reads+1, r.chunks++[chunk], total⟩
  | .ended r cancelled o => .ended r cancelled o

def stateAfter : ℕ → State
  | 0 => .reading ⟨0, [], 0⟩
  | n+1 => readStep stream maxBytes (stateAfter n)

end Loop

/-- `buffered` is what `req.text()` gives where there is no stream. -/
structure Request where
  body : Option Stream
  buffered : Text
  contentLength : Option Text

/-- Nothing if the rounds do not suffice. -/
def readBodyTextWithLimit (req : Request) (maxBytes rounds : ℕ) : Option Outcome :=
  match req.body with
  | none =>
    if maxBytes < (encodeUtf8 req.buffered).length then some (.bodyTooLarge maxBytes)
    else some (.text req.buffered)
  | some stream =>
    match stateAfter stream maxBytes rounds with
    | .reading _ => none
    | .ended _ _ o => some o

inductive LimitedBodyResult where
  | ok (text : Text)
  | refused (response : Problem)
  | threw (error : Text)
  deriving DecidableEq

def limited : Outcome → LimitedBodyResult
  | .text t => .ok t
  | .bodyTooLarge maxBytes => .refused (payloadTooLarge maxBytes)
  | .failed error => .threw error

/-- An absent header counts as zero. -/
def declaredOver (req : Request) (maxBytes : ℕ) : Bool :=
  match stringNumber (req.contentLength.getD []) with
  | some (.finite declared) => maxBytes < declared
  | _ => false

def readLimitedBody (req : Request) (maxBytes rounds : ℕ) : Option LimitedBodyResult :=
  if declaredOver req maxBytes then some (.refused (payloadTooLarge maxBytes))
  else (readBodyTextWithLimit req maxBytes rounds).map limited

def valueBytes : Read → Bytes
  | .value (some chunk) => chunk
  | _ => []

def taken (stream : Stream) (n : ℕ) : Bytes :=
  (List.range n).flatMap (fun k => valueBytes (stream k))

def chunked : List (Option Bytes) → Stream → Stream
  | [], rest, n => rest n
  | v::_, _, 0 => .value v
  | _::vs, rest, n+1 => chunked vs rest n

def closed : Stream := fun _ => .done

def bodyOf (values : List (Option Bytes)) : Bytes := values.flatMap (fun v => v.getD [])

section Taken
variable (stream : Stream)

theorem taken_succ (n : ℕ) : taken stream (n+1) = taken stream n++valueBytes (stream n) := by
  rw [taken, List.range_succ, List.flatMap_append, List.flatMap_singleton]
  rfl

theorem taken_first (n : ℕ) :
    taken stream (n+1) = valueBytes (stream 0)++taken (fun k => stream (k+1)) n := by
  rw [taken, List.range_succ_eq_map, List.flatMap_cons, List.flatMap_map]
  rfl

theorem taken_chunked (values : List (Option Bytes)) (rest : Stream) :
    taken (chunked values rest) values.length = bodyOf values := by
  induction values with
  | nil => rfl
  | cons v vs ih =>
    have hvalue : valueBytes (chunked (v::vs) rest 0) = v.getD [] := by
      cases v <;> rfl
    rw [List.length_cons, taken_first, hvalue, bodyOf, List.flatMap_cons, ← bodyOf, ← ih]
    rfl

theorem chunked_value (values : List (Option Bytes)) (rest : Stream) (k : ℕ)
    (hk : k < values.length) : ∃ v, chunked values rest k = .value v := by
  induction values generalizing k with
  | nil => cases hk
  | cons v vs ih =>
    cases k with
    | zero => exact ⟨v, rfl⟩
    | succ k => exact ih k (Nat.lt_of_succ_lt_succ hk)

theorem chunked_rest (values : List (Option Bytes)) (rest : Stream) :
    chunked values rest values.length = rest 0 := by
  induction values with
  | nil => rfl
  | cons v vs ih => exact ih

end Taken

section Rounds
variable (stream : Stream) (maxBytes : ℕ)

/-- What is kept is what was read, and is not over the ceiling. -/
def Holds : State → Prop
  | .reading r => r.chunks.flatten = taken stream r.reads ∧
      r.total = (taken stream r.reads).length ∧ r.total ≤ maxBytes
  | .ended r _ _ => r.chunks.flatten.length ≤ maxBytes

theorem holds_step (s : State) (h : Holds stream maxBytes s) :
    Holds stream maxBytes (readStep stream maxBytes s) := by
  cases s with
  | ended r cancelled o => exact h
  | reading r =>
    obtain ⟨hchunks, htotal, hunder⟩ := h
    have hkept : r.chunks.flatten.length ≤ maxBytes := by
      rw [hchunks, ← htotal]
      exact hunder
    rw [readStep]
    cases hr : stream r.reads with
    | done => exact hkept
    | failed error => exact hkept
    | value v =>
      cases v with
      | none => simpa [Holds, taken_succ, hr, valueBytes] using ⟨hchunks, htotal, hunder⟩
      | some chunk =>
        by_cases hover : maxBytes < r.total+chunk.length
        · simp only [if_pos hover]
          exact hkept
        · simp only [if_neg hover]
          simp only [Holds, taken_succ, hr, valueBytes, List.flatten_append, hchunks, htotal,
            List.flatten_singleton, List.length_append, true_and]
          omega

theorem holds_after (n : ℕ) : Holds stream maxBytes (stateAfter stream maxBytes n) := by
  induction n with
  | zero => exact ⟨rfl, rfl, Nat.zero_le _⟩
  | succ n ih => exact holds_step stream maxBytes _ ih

theorem ended_stays (n m : ℕ) (hnm : n ≤ m) (r : Reading) (cancelled : Bool) (o : Outcome)
    (h : stateAfter stream maxBytes n = .ended r cancelled o) :
    stateAfter stream maxBytes m = .ended r cancelled o := by
  induction m, hnm using Nat.le_induction with
  | base => exact h
  | succ m _ ih => rw [stateAfter, ih, readStep]

theorem reading_after (n : ℕ) (hv : ∀ k < n, ∃ v, stream k = .value v)
    (hfit : (taken stream n).length ≤ maxBytes) :
    ∃ r, stateAfter stream maxBytes n = .reading r ∧ r.reads = n := by
  induction n with
  | zero => exact ⟨_, rfl, rfl⟩
  | succ n ih =>
    rw [taken_succ, List.length_append] at hfit
    obtain ⟨r, hr, hreads⟩ := ih (fun k hk => hv k (by omega)) (by omega)
    have hholds := holds_after stream maxBytes n
    rw [hr, Holds, hreads] at hholds
    obtain ⟨v, hvalue⟩ := hv n (Nat.lt_succ_self n)
    rw [stateAfter, hr, readStep, hreads, hvalue]
    rw [hvalue] at hfit
    cases v with
    | none => exact ⟨_, rfl, rfl⟩
    | some chunk =>
      have hunder : ¬maxBytes < r.total+chunk.length := by
        rw [hholds.2.1]
        exact Nat.not_lt.mpr hfit
      simp only [if_neg hunder]
      exact ⟨_, rfl, rfl⟩

theorem overrun_after (n : ℕ) (hv : ∀ k < n, ∃ v, stream k = .value v)
    (hover : maxBytes < (taken stream n).length) :
    ∃ r, stateAfter stream maxBytes n = .ended r true (.bodyTooLarge maxBytes) := by
  induction n with
  | zero => simp [taken] at hover
  | succ n ih =>
    by_cases hfit : (taken stream n).length ≤ maxBytes
    · obtain ⟨r, hr, hreads⟩ := reading_after stream maxBytes n (fun k hk => hv k (by omega)) hfit
      have hholds := holds_after stream maxBytes n
      rw [hr, Holds, hreads] at hholds
      obtain ⟨v, hvalue⟩ := hv n (Nat.lt_succ_self n)
      rw [taken_succ, hvalue, List.length_append] at hover
      rw [stateAfter, hr, readStep, hreads, hvalue]
      cases v with
      | none => simp [valueBytes] at hover; omega
      | some chunk =>
        have htotal : maxBytes < r.total+chunk.length := by
          rw [hholds.2.1]
          exact hover
        simp only [if_pos htotal]
        exact ⟨_, rfl⟩
    · obtain ⟨r, hr⟩ := ih (fun k hk => hv k (by omega)) (Nat.not_le.mp hfit)
      exact ⟨r, ended_stays stream maxBytes n (n+1) (Nat.le_succ n) r _ _ hr⟩

theorem stays_after_overrun (n m : ℕ) (hnm : n ≤ m)
    (hover : maxBytes < (taken stream (stateAfter stream maxBytes n).progress.reads).length) :
    stateAfter stream maxBytes m = stateAfter stream maxBytes n := by
  have hholds := holds_after stream maxBytes n
  cases hs : stateAfter stream maxBytes n with
  | reading r =>
    rw [hs] at hholds hover
    have hlen := hholds.2.1
    have hunder := hholds.2.2
    simp only [State.progress] at hover
    omega
  | ended r cancelled o => exact ended_stays stream maxBytes n m hnm r cancelled o hs

theorem kept_under (n : ℕ) :
    (stateAfter stream maxBytes n).progress.chunks.flatten.length ≤ maxBytes := by
  have hholds := holds_after stream maxBytes n
  cases hs : stateAfter stream maxBytes n with
  | reading r =>
    rw [hs] at hholds
    simp only [State.progress, hholds.1, ← hholds.2.1]
    exact hholds.2.2
  | ended r cancelled o =>
    rw [hs] at hholds
    exact hholds

theorem text_wellFormed (n : ℕ) (r : Reading) (cancelled : Bool) (t : Text)
    (h : stateAfter stream maxBytes n = .ended r cancelled (.text t)) : isWellFormed t = true := by
  induction n with
  | zero => cases h
  | succ n ih =>
    rw [stateAfter] at h
    cases hs : stateAfter stream maxBytes n with
    | ended r' cancelled' o =>
      rw [hs, readStep] at h
      exact ih (hs.trans h)
    | reading r' =>
      rw [hs, readStep] at h
      cases hr : stream r'.reads with
      | done =>
        simp only [hr, State.ended.injEq, Outcome.text.injEq] at h
        rw [← h.2.2]
        exact decode_wellFormed _
      | failed error => simp [hr] at h
      | value v =>
        cases v with
        | none => simp [hr] at h
        | some chunk =>
          simp only [hr] at h
          split at h
          · simp at h
          · cases h

end Rounds

def streaming (stream : Stream) (contentLength : Option Text) : Request :=
  ⟨some stream, [], contentLength⟩

section Outcome
variable (maxBytes : ℕ) (values : List (Option Bytes)) (contentLength : Option Text)

theorem read_over (rest : Stream) (rounds : ℕ) (hover : maxBytes < (bodyOf values).length)
    (hrounds : values.length ≤ rounds) :
    readBodyTextWithLimit (streaming (chunked values rest) contentLength) maxBytes rounds =
      some (.bodyTooLarge maxBytes) := by
  rw [← taken_chunked values rest] at hover
  obtain ⟨r, hr⟩ := overrun_after _ maxBytes values.length (chunked_value values rest) hover
  have hend := ended_stays _ maxBytes values.length rounds hrounds r _ _ hr
  simp only [readBodyTextWithLimit, streaming, hend]

theorem read_closed (rounds : ℕ) (hrounds : values.length < rounds) :
    readBodyTextWithLimit (streaming (chunked values closed) contentLength) maxBytes rounds =
      some (if (bodyOf values).length ≤ maxBytes then .text (decode (bodyOf values))
        else .bodyTooLarge maxBytes) := by
  by_cases hfit : (bodyOf values).length ≤ maxBytes
  · have htaken := taken_chunked values closed
    rw [if_pos hfit]
    rw [← htaken] at hfit
    obtain ⟨r, hr, hreads⟩ := reading_after _ maxBytes values.length (chunked_value values closed)
      hfit
    have hholds := holds_after (chunked values closed) maxBytes values.length
    rw [hr, Holds, hreads, htaken] at hholds
    have hdone : chunked values closed r.reads = .done := by
      rw [hreads, chunked_rest]
      rfl
    have hstep : stateAfter (chunked values closed) maxBytes (values.length+1) =
        .ended { r with reads := r.reads+1 } false (.text (decode (bodyOf values))) := by
      rw [stateAfter, hr, readStep, hdone, hholds.1]
    have hend := ended_stays _ maxBytes _ rounds hrounds _ _ _ hstep
    simp only [readBodyTextWithLimit, streaming, hend]
  · rw [if_neg hfit]
    exact read_over maxBytes values contentLength closed rounds (Nat.not_le.mp hfit) hrounds.le

theorem limited_body_read (rounds : ℕ) (hrounds : values.length < rounds) :
    readLimitedBody (streaming (chunked values closed) contentLength) maxBytes rounds =
      some (if declaredOver (streaming (chunked values closed) contentLength) maxBytes = false ∧
        (bodyOf values).length ≤ maxBytes then .ok (decode (bodyOf values))
        else .refused (payloadTooLarge maxBytes)) := by
  unfold readLimitedBody
  cases hd : declaredOver (streaming (chunked values closed) contentLength) maxBytes with
  | true => simp
  | false =>
    rw [read_closed maxBytes values contentLength rounds hrounds]
    by_cases hfit : (bodyOf values).length ≤ maxBytes
    · simp [hfit, limited]
    · simp [hfit, limited]

theorem text_read_wellFormed (stream : Stream) (rounds : ℕ) (t : Text)
    (h : readBodyTextWithLimit (streaming stream contentLength) maxBytes rounds =
      some (.text t)) : isWellFormed t = true := by
  simp only [readBodyTextWithLimit, streaming] at h
  cases hs : stateAfter stream maxBytes rounds with
  | reading r => simp [hs] at h
  | ended r cancelled o =>
    simp only [hs, Option.some.injEq] at h
    rw [h] at hs
    exact text_wellFormed stream maxBytes rounds r cancelled t hs

theorem text_read (t : Text) (rounds : ℕ) (hrounds : values.length < rounds)
    (ht : bodyOf values = encodeUtf8 t) (hmark : ∀ c ∈ (chars t).head?, c.toNat ≠ 0xFEFF)
    (hfit : (encodeUtf8 t).length ≤ maxBytes) :
    readBodyTextWithLimit (streaming (chunked values closed) contentLength) maxBytes rounds =
      some (.text (toWellFormed t)) := by
  rw [read_closed maxBytes values contentLength rounds hrounds, ht, if_pos hfit,
    decode_encodeUtf8 t hmark]

/-- The text of what the chunks make up or an error, by the total alone; at any
time the chunks that are kept fit, and after an overrun nothing is read. What
is read is well formed, and a text's own UTF-8 comes back as that text. -/
theorem bounded_body_read :
    (∀ values rounds, values.length < rounds →
      readBodyTextWithLimit (streaming (chunked values closed) contentLength) maxBytes rounds =
        some (if (bodyOf values).length ≤ maxBytes then .text (decode (bodyOf values))
          else .bodyTooLarge maxBytes)) ∧
    (∀ values rest rounds, maxBytes < (bodyOf values).length → values.length ≤ rounds →
      readBodyTextWithLimit (streaming (chunked values rest) contentLength) maxBytes rounds =
        some (.bodyTooLarge maxBytes)) ∧
    (∀ values others rounds, bodyOf values = bodyOf others → values.length < rounds →
      others.length < rounds →
      readBodyTextWithLimit (streaming (chunked values closed) contentLength) maxBytes rounds =
        readBodyTextWithLimit (streaming (chunked others closed) contentLength) maxBytes rounds) ∧
    (∀ stream n, (stateAfter stream maxBytes n).progress.chunks.flatten.length ≤ maxBytes) ∧
    (∀ stream n m, n ≤ m →
      maxBytes < (taken stream (stateAfter stream maxBytes n).progress.reads).length →
      stateAfter stream maxBytes m = stateAfter stream maxBytes n) ∧
    (∀ stream rounds t, readBodyTextWithLimit (streaming stream contentLength) maxBytes rounds =
      some (.text t) → isWellFormed t = true) ∧
    (∀ values t rounds, values.length < rounds → bodyOf values = encodeUtf8 t →
      (∀ c ∈ (chars t).head?, c.toNat ≠ 0xFEFF) → (encodeUtf8 t).length ≤ maxBytes →
      readBodyTextWithLimit (streaming (chunked values closed) contentLength) maxBytes rounds =
        some (.text (toWellFormed t))) ∧
    ∀ values rounds, values.length < rounds →
      readLimitedBody (streaming (chunked values closed) contentLength) maxBytes rounds =
        some (if declaredOver (streaming (chunked values closed) contentLength) maxBytes = false ∧
          (bodyOf values).length ≤ maxBytes then .ok (decode (bodyOf values))
          else .refused (payloadTooLarge maxBytes)) := by
  constructor
  · exact fun values rounds => read_closed maxBytes values contentLength rounds
  constructor
  · exact fun values rest rounds => read_over maxBytes values contentLength rest rounds
  constructor
  · intro values others rounds hsame hv ho
    rw [read_closed maxBytes values contentLength rounds hv,
      read_closed maxBytes others contentLength rounds ho, hsame]
  constructor
  · exact fun stream n => kept_under stream maxBytes n
  constructor
  · exact fun stream n m hnm => stays_after_overrun stream maxBytes n m hnm
  constructor
  · exact fun stream rounds t => text_read_wellFormed maxBytes contentLength stream rounds t
  constructor
  · exact fun values t rounds => text_read maxBytes values contentLength t rounds
  · exact fun values rounds => limited_body_read maxBytes values contentLength rounds

/-- `€` in two chunks, with an empty one between them, under three bytes. -/
theorem euro_read :
    readBodyTextWithLimit (streaming (chunked [some [0xE2], some [], some [0x82, 0xAC]] closed)
      none) 3 4 = some (.text [0x20AC]) := by
  have h := (bounded_body_read 3 none).1 [some [0xE2], some [], some [0x82, 0xAC]] 4 (by decide)
  exact h.trans (by decide)

end Outcome

end ControlPlane.BoundedBody
