import Mathlib.Data.List.ReduceOption
import ControlPlane.JsText

/-!
# The text exposition format

A body is a sequence of lines. A line is blank, a comment or a sample, which is
a name, labels with quoted values, a number and perhaps a time. In a quoted
value a backslash stands before a backslash, a quote or the letter of a line
feed, and nowhere else.
-/

set_option autoImplicit false

namespace ControlPlane.Exposition
open ControlPlane.JsText

def lineFeed : UInt16 := 0x0A

def hash : UInt16 := 0x23

def quoteMark : UInt16 := 0x22

def backslash : UInt16 := 0x5C

def openBrace : UInt16 := 0x7B

def closeBrace : UInt16 := 0x7D

def equals : UInt16 := 0x3D

def comma : UInt16 := 0x2C

structure Sample (V : Type) where
  name : Text
  labels : List (Text × Text)
  value : V
  deriving DecidableEq, Repr

inductive Item (V : Type) where
  | comment (line : Text)
  | sample (s : Sample V)
  deriving DecidableEq, Repr

/-- `a-z A-Z 0-9 _` -/
def isLabelUnit (u : UInt16) : Bool :=
  isDigit u || (0x61 ≤ u && u ≤ 0x7A) || (0x41 ≤ u && u ≤ 0x5A) || u = 0x5F

/-- The same and `:` -/
def isMetricUnit (u : UInt16) : Bool := isLabelUnit u || u = 0x3A

def isBlank (u : UInt16) : Bool := u = 0x20 || u = 0x09

def skipBlanks (t : Text) : Text := t.dropWhile isBlank

/-- The rest behind a mark and the blanks before it. -/
def expect (mark : UInt16) (t : Text) : Option Text :=
  match skipBlanks t with
  | u::rest => if u = mark then some rest else none
  | [] => none

/-- A name does not start with a digit. -/
def readName (isUnit : UInt16 → Bool) (t : Text) : Option (Text × Text) :=
  match t with
  | u::_ =>
    if isUnit u && !isDigit u then some (t.takeWhile isUnit, t.dropWhile isUnit) else none
  | [] => none

def unescape (u : UInt16) : Option UInt16 :=
  if u = backslash then some backslash
  else if u = quoteMark then some quoteMark
  else if u = 0x6E then some lineFeed
  else none

def readQuoted : Text → Option (Text × Text)
  | [] => none
  | [u] => if u = quoteMark then some ([], []) else none
  | u::v::t =>
    if u = quoteMark then some ([], v::t)
    else if u = backslash then
      (unescape v).bind (fun w => (readQuoted t).map (fun r => (w::r.1, r.2)))
    else (readQuoted (v::t)).map (fun r => (u::r.1, r.2))

def readPair (t : Text) : Option ((Text × Text) × Text) :=
  (readName isLabelUnit (skipBlanks t)).bind (fun n =>
    ((expect equals n.2).bind (expect quoteMark)).bind (fun x =>
      (readQuoted x).map (fun q => ((n.1, q.1), q.2))))

def readLabels : ℕ → Text → Option (List (Text × Text) × Text)
  | 0, _ => none
  | n+1, t =>
    match expect closeBrace t with
    | some rest => some ([], rest)
    | none =>
      (readPair t).bind (fun p =>
        match expect comma p.2 with
        | some rest => (readLabels n rest).map (fun r => (p.1::r.1, r.2))
        | none => (expect closeBrace p.2).map (fun rest => ([p.1], rest)))

def readBraces (t : Text) : Option (List (Text × Text) × Text) :=
  match expect openBrace t with
  | some rest => readLabels rest.length rest
  | none => some ([], t)

def isInteger (t : Text) : Bool :=
  let digits := if t.head? = some 0x2D then t.drop 1 else t
  !digits.isEmpty && digits.all isDigit

/-- Nothing, or a time in milliseconds. -/
def isTimestamp (t : Text) : Bool :=
  t.isEmpty || (isInteger (t.takeWhile (!isBlank ·)) && (t.dropWhile (!isBlank ·)).all isBlank)

section Reader
variable {V : Type} (readValue : Text → Option V)

def readSample (line : Text) : Option (Sample V) :=
  (readName isMetricUnit line).bind (fun n =>
    (readBraces n.2).bind (fun l =>
      let t := skipBlanks l.2
      (readValue (t.takeWhile (!isBlank ·))).bind (fun v =>
        if isTimestamp (skipBlanks (t.dropWhile (!isBlank ·))) then some ⟨n.1, l.1, v⟩
        else none)))

def readLine (line : Text) : Option (Option (Item V)) :=
  match skipBlanks line with
  | [] => some none
  | u::t =>
    if u = hash then some (some (.comment line))
    else (readSample readValue (u::t)).map (fun s => some (.sample s))

def readLines (lines : List Text) : Option (List (Item V)) :=
  (lines.mapM (readLine readValue)).map List.reduceOption

def readBody (body : Text) : Option (List (Item V)) :=
  if (body.splitOn lineFeed).getLast? = some [] then
    readLines readValue (body.splitOn lineFeed).dropLast
  else none

end Reader

theorem skipBlanks_cons (u : UInt16) (t : Text) (h : isBlank u = false) :
    skipBlanks (u::t) = u::t := by
  simp [skipBlanks, h]

theorem expect_mark (u : UInt16) (t : Text) (h : isBlank u = false) :
    expect u (u::t) = some t := by
  simp [expect, skipBlanks_cons u t h]

theorem expect_other (mark u : UInt16) (t : Text) (h : isBlank u = false) (hu : u ≠ mark) :
    expect mark (u::t) = none := by
  simp [expect, skipBlanks_cons u t h, hu]

theorem readQuoted_quote (t : Text) : readQuoted (quoteMark::t) = some ([], t) := by
  cases t with
  | nil => simp [readQuoted]
  | cons v t => simp [readQuoted]

theorem readQuoted_plain (u : UInt16) (t : Text) (hq : u ≠ quoteMark) (hb : u ≠ backslash) :
    readQuoted (u::t) = (readQuoted t).map (fun r => (u::r.1, r.2)) := by
  cases t with
  | nil => simp [readQuoted, hq]
  | cons v t => simp [readQuoted, hq, hb]

theorem readQuoted_escape (v : UInt16) (t : Text) : readQuoted (backslash::v::t) =
    (unescape v).bind (fun w => (readQuoted t).map (fun r => (w::r.1, r.2))) := by
  have hne : backslash ≠ quoteMark := by decide
  simp [readQuoted, hne]

theorem readQuoted_unclosed (t : Text) (h : quoteMark ∉ t) : readQuoted t = none := by
  induction t using readQuoted.induct with
  | case1 => rfl
  | case2 => simp at h
  | case3 u hu => simp [readQuoted, hu]
  | case4 v t => simp at h
  | case5 v t hne ih =>
    rw [readQuoted_escape, ih (fun hm => h (by simp [hm]))]
    simp
  | case6 u v t hq hb ih =>
    rw [readQuoted_plain u _ hq hb, ih (fun hm => h (List.mem_cons_of_mem u hm))]
    rfl

def IsName (isUnit : UInt16 → Bool) (name : Text) : Prop :=
  name.all isUnit = true ∧ name.head?.any (!isDigit ·) = true

theorem readName_append (isUnit : UInt16 → Bool) (name : Text) (u : UInt16) (t : Text)
    (hn : IsName isUnit name) (hu : isUnit u = false) :
    readName isUnit (name++u::t) = some (name, u::t) := by
  obtain ⟨hname, hhead⟩ := hn
  cases name with
  | nil => cases hhead
  | cons v name =>
    have hunits := List.all_eq_true.mp hname
    have hv : isUnit v = true ∧ isDigit v = false := by
      simp only [List.head?_cons, Option.any_some, Bool.not_eq_true'] at hhead
      exact ⟨hunits v List.mem_cons_self, hhead⟩
    have htake : (v::name++u::t).takeWhile isUnit = v::name := by
      rw [List.takeWhile_append_of_pos hunits, List.takeWhile_cons_of_neg (by simp [hu]),
        List.append_nil]
    have hdrop : (v::name++u::t).dropWhile isUnit = u::t := by
      rw [List.dropWhile_append_of_pos hunits, List.dropWhile_cons_of_neg (by simp [hu])]
    rw [List.cons_append] at htake hdrop ⊢
    simp only [readName, hv, Bool.not_false, Bool.and_self, if_true, htake, hdrop]

theorem metricUnit_plain (u : UInt16) (h : isMetricUnit u = true) : isBlank u = false ∧
    u ≠ openBrace ∧ u ≠ closeBrace ∧ u ≠ equals ∧ u ≠ lineFeed ∧ u ≠ hash := by
  have hne : ∀ v, isMetricUnit v = false → u ≠ v := by
    rintro v hv rfl
    rw [h] at hv
    cases hv
  constructor
  · simp only [isBlank, Bool.or_eq_false_iff, decide_eq_false_iff_not]
    exact ⟨hne 0x20 (by decide), hne 0x09 (by decide)⟩
  · exact ⟨hne openBrace (by decide), hne closeBrace (by decide), hne equals (by decide),
      hne lineFeed (by decide), hne hash (by decide)⟩

theorem labelUnit_metricUnit (u : UInt16) (h : isLabelUnit u = true) : isMetricUnit u = true := by
  simp [isMetricUnit, h]

theorem isName_head (isUnit : UInt16 → Bool) (name x : Text) (h : IsName isUnit name) :
    ∃ u t, name++x = u::t ∧ isUnit u = true := by
  obtain ⟨hunits, hhead⟩ := h
  cases name with
  | nil => cases hhead
  | cons u name => exact ⟨u, name++x, rfl, List.all_eq_true.mp hunits u List.mem_cons_self⟩

section Label
variable (k x : Text) (hk : IsName isLabelUnit k)
include hk

theorem label_head : ∃ u t, k++x = u::t ∧ isBlank u = false ∧ u ≠ closeBrace := by
  obtain ⟨u, t, ht, hu⟩ := isName_head isLabelUnit k x hk
  have hplain := metricUnit_plain u (labelUnit_metricUnit u hu)
  exact ⟨u, t, ht, hplain.1, hplain.2.2.1⟩

theorem expect_label : expect closeBrace (k++x) = none := by
  obtain ⟨u, t, ht, hblank, hne⟩ := label_head k x hk
  rw [ht, expect_other closeBrace u t hblank hne]

theorem readPair_quoted : readPair (k++equals::quoteMark::x) =
    (readQuoted x).map (fun q => ((k, q.1), q.2)) := by
  have hread := readName_append isLabelUnit k equals (quoteMark::x) hk (by decide)
  have hskip : skipBlanks (k++equals::quoteMark::x) = k++equals::quoteMark::x := by
    obtain ⟨u, t, ht, hblank, -⟩ := label_head k (equals::quoteMark::x) hk
    rw [ht]
    exact skipBlanks_cons u t hblank
  rw [readPair, hskip, hread, Option.bind_some, expect_mark equals _ (by decide),
    Option.bind_some, expect_mark quoteMark _ (by decide), Option.bind_some]

theorem readLabels_first (n : ℕ) (t : Text) (ls : List (Text × Text))
    (h : readLabels n (k++equals::quoteMark::x) = some (ls, t)) :
    ∃ w r ls', readQuoted x = some (w, r) ∧ ls = (k, w)::ls' := by
  cases n with
  | zero => cases h
  | succ n =>
    simp only [readLabels, expect_label k _ hk, readPair_quoted k x hk, Option.bind_eq_some_iff,
      Option.map_eq_some_iff] at h
    obtain ⟨p, ⟨⟨w, r⟩, hw, rfl⟩, hp⟩ := h
    apply Exists.intro w
    apply Exists.intro r
    cases hc : expect comma r with
    | some rest =>
      simp only [hc, Option.map_eq_some_iff, Prod.mk.injEq] at hp
      obtain ⟨q, -, hls, -⟩ := hp
      exact ⟨q.1, hw, hls.symm⟩
    | none =>
      simp only [hc, Option.map_eq_some_iff, Prod.mk.injEq] at hp
      obtain ⟨rest, -, hls, -⟩ := hp
      exact ⟨[], hw, hls.symm⟩

end Label

section Lines
variable {V : Type} (readValue : Text → Option V)

theorem readLines_cons (line : Text) (lines : List Text) :
    readLines readValue (line::lines) = (readLine readValue line).bind (fun item =>
      (readLines readValue lines).map (fun items => item.toList++items)) := by
  rw [readLines, List.mapM_cons]
  cases readLine readValue line with
  | none => rfl
  | some item =>
    rw [readLines]
    cases lines.mapM (readLine readValue) with
    | none => rfl
    | some items => cases item <;> rfl

theorem readSample_first (name k x : Text) (hname : IsName isMetricUnit name)
    (hk : IsName isLabelUnit k) (s : Sample V)
    (h : readSample readValue (name++openBrace::(k++equals::quoteMark::x)) = some s) :
    ∃ w r ls, readQuoted x = some (w, r) ∧ s.labels = (k, w)::ls := by
  have hn := readName_append isMetricUnit name openBrace (k++equals::quoteMark::x) hname
    (by decide)
  simp only [readSample, hn, Option.bind_some, readBraces, expect_mark openBrace _ (by decide),
    Option.bind_eq_some_iff] at h
  obtain ⟨⟨ls, t⟩, hls, v, -, hs⟩ := h
  obtain ⟨w, r, ls', hw, hcons⟩ := readLabels_first k x hk _ t ls hls
  rw [Option.ite_none_right_eq_some] at hs
  obtain ⟨-, hs⟩ := hs
  cases hs
  exact ⟨w, r, ls', hw, hcons⟩

theorem readLine_name (name x : Text) (hname : IsName isMetricUnit name) :
    readLine readValue (name++x) =
      (readSample readValue (name++x)).map (fun s => some (.sample s)) := by
  obtain ⟨u, t, ht, hu⟩ := isName_head isMetricUnit name x hname
  have hplain := metricUnit_plain u hu
  rw [ht, readLine, skipBlanks_cons u t hplain.1]
  simp [hplain.2.2.2.2.2]

theorem readLine_comment (t : Text) :
    readLine readValue (hash::t) = some (some (.comment (hash::t))) := by
  rw [readLine, skipBlanks_cons hash t (by decide)]
  simp

theorem splitOn_joined (lines : List Text) (h : lines ≠ []) :
    ([lineFeed].intercalate lines++[lineFeed]).splitOn lineFeed =
      lines.flatMap (List.splitOn lineFeed)++[[]] := by
  induction lines with
  | nil => exact absurd rfl h
  | cons line lines ih =>
    cases lines with
    | nil => simp [List.intercalate_singleton, List.splitOn_append_cons_self]
    | cons line' lines =>
      rw [List.intercalate_cons_cons, List.append_assoc, List.append_assoc, List.singleton_append,
        List.splitOn_append_cons_self, ih (by simp)]
      simp

theorem readBody_joined (lines : List Text) (h : lines ≠ []) :
    readBody readValue ([lineFeed].intercalate lines++[lineFeed]) =
      readLines readValue (lines.flatMap (List.splitOn lineFeed)) := by
  rw [readBody, splitOn_joined lines h]
  simp

end Lines

end ControlPlane.Exposition
