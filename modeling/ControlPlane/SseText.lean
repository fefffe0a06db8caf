import ControlPlane.JsText

/-!
# Event streams as text

The messages that a reader of `text/event-stream` dispatches. Lines end with a
line feed, a carriage return or both; a data line adds to the buffer, an empty
line dispatches a buffer that is not empty, and comments and other fields add
nothing. An unfinished line or message at the end is dropped.
-/

set_option autoImplicit false

namespace ControlPlane.SseText
open ControlPlane.JsText

def lineFeed : UInt16 := 0x0A

def carriageReturn : UInt16 := 0x0D

def fieldColon : UInt16 := 0x3A

/-- The finished lines, with what the current line has so far. -/
def lines : Text → Text → List Text
  | _, [] => []
  | line, [u] => if u = lineFeed || u = carriageReturn then [line] else []
  | line, u::v::rest =>
    if u = carriageReturn && v = lineFeed then line::lines [] rest
    else if u = lineFeed || u = carriageReturn then line::lines [] (v::rest)
    else lines (line++[u]) (v::rest)

def fieldName (line : Text) : Text := line.takeWhile (· ≠ fieldColon)

/-- What stands after the colon, without one leading space. -/
def fieldValue (line : Text) : Text :=
  match line.dropWhile (· ≠ fieldColon) with
  | _::0x20::value => value
  | _::value => value
  | [] => []

/-- The data buffer and the messages dispatched so far. -/
abbrev Reading := Text × List Text

def readLine (r : Reading) (line : Text) : Reading :=
  if line = [] then if r.1 = [] then r else ([], r.2++[r.1.dropLast])
  else if fieldName line = js "data" then (r.1++fieldValue line++[lineFeed], r.2)
  else r

def withoutMark : Text → Text
  | 0xFEFF::t => t
  | t => t

def messages (t : Text) : List Text := ((lines [] (withoutMark t)).foldl readLine ([], [])).2

def Unbroken (line : Text) : Prop := ∀ u ∈ line, u ≠ lineFeed ∧ u ≠ carriageReturn

theorem lines_unit (line : Text) (u : UInt16) (t : Text) (h : u ≠ lineFeed ∧ u ≠ carriageReturn) :
    lines line (u::t) = lines (line++[u]) t := by
  cases t with
  | nil => simp [lines, h.1, h.2]
  | cons v rest => simp [lines, h.1, h.2]

theorem lines_feed (line t : Text) : lines line (lineFeed::t) = line::lines [] t := by
  cases t with
  | nil => rfl
  | cons v rest =>
    have hne : lineFeed ≠ carriageReturn := by decide
    simp [lines, hne]

theorem lines_line (line pre t : Text) (h : Unbroken line) :
    lines pre (line++lineFeed::t) = (pre++line)::lines [] t := by
  induction line generalizing pre with
  | nil => rw [List.nil_append, lines_feed, List.append_nil]
  | cons u line ih =>
    obtain ⟨hu, hline⟩ := List.forall_mem_cons.mp h
    rw [List.cons_append, lines_unit _ _ _ hu, ih _ hline, List.append_assoc,
      List.singleton_append]

def framed (ls : List Text) : Text := ls.flatMap (fun line => line++[lineFeed])

theorem lines_framed (ls : List Text) (h : ∀ line ∈ ls, Unbroken line) :
    lines [] (framed ls) = ls := by
  induction ls with
  | nil => rfl
  | cons line ls ih =>
    obtain ⟨hline, hls⟩ := List.forall_mem_cons.mp h
    rw [framed, List.flatMap_cons, List.append_assoc, List.singleton_append,
      lines_line _ _ _ hline, List.nil_append]
    congr 1
    exact ih hls

def dataLine (data : Text) : Text := js "data: "++data

theorem readLine_data (data : Text) (r : Reading) :
    readLine r (dataLine data) = (r.1++data++[lineFeed], r.2) := rfl

theorem readLine_end (data : Text) (ms : List Text) :
    readLine (data++[lineFeed], ms) [] = ([], ms++[data]) := by
  simp [readLine]

theorem readLine_quiet (line : Text) (ms : List Text) (h : fieldName line ≠ js "data") :
    readLine ([], ms) line = ([], ms) := by
  rw [readLine, if_neg h]
  simp

theorem foldl_quiet (ls ms : List Text) (h : ∀ line ∈ ls, fieldName line ≠ js "data") :
    ls.foldl readLine ([], ms) = ([], ms) := by
  induction ls with
  | nil => rfl
  | cons line ls ih =>
    obtain ⟨hline, hls⟩ := List.forall_mem_cons.mp h
    rw [List.foldl_cons, readLine_quiet line ms hline]
    exact ih hls

theorem foldl_message (data : Text) (ms : List Text) :
    [dataLine data, []].foldl readLine ([], ms) = ([], ms++[data]) := by
  rw [List.foldl_cons, readLine_data, List.nil_append, List.foldl_cons, readLine_end]
  rfl

inductive Frame where
  | message (data : Text)
  | quiet (ls : List Text)

def Frame.lines : Frame → List Text
  | .message data => [dataLine data, []]
  | .quiet ls => ls

def Frame.data : Frame → List Text
  | .message data => [data]
  | .quiet _ => []

def Frame.text (f : Frame) : Text := framed f.lines

def Frame.Proper : Frame → Prop
  | .message data => Unbroken data
  | .quiet ls => ∀ line ∈ ls, Unbroken line ∧ fieldName line ≠ js "data"

theorem dataLine_unbroken (data : Text) (h : Unbroken data) : Unbroken (dataLine data) := by
  intro u hu
  rcases List.mem_append.mp hu with hu | hu
  · have hall : (js "data: ").all (fun u => u ≠ lineFeed ∧ u ≠ carriageReturn) = true := by decide
    simpa using List.all_eq_true.mp hall u hu
  · exact h u hu

theorem proper_unbroken (f : Frame) (h : f.Proper) : ∀ line ∈ f.lines, Unbroken line := by
  cases f with
  | message data =>
    intro line hline
    rcases List.mem_cons.mp hline with rfl | hline
    · exact dataLine_unbroken data h
    · rw [List.mem_singleton.mp hline]
      exact fun u hu => absurd hu List.not_mem_nil
  | quiet ls => exact fun line hline => (h line hline).1

theorem foldl_frames (fs : List Frame) (ms : List Text) (h : ∀ f ∈ fs, f.Proper) :
    (fs.flatMap Frame.lines).foldl readLine ([], ms) = ([], ms++fs.flatMap Frame.data) := by
  induction fs generalizing ms with
  | nil => simp
  | cons f fs ih =>
    obtain ⟨hf, hfs⟩ := List.forall_mem_cons.mp h
    rw [List.flatMap_cons, List.foldl_append, List.flatMap_cons, ← List.append_assoc]
    cases f with
    | message data =>
      show (fs.flatMap Frame.lines).foldl readLine ([dataLine data, []].foldl readLine ([], ms)) = _
      rw [foldl_message, ih _ hfs]
      rfl
    | quiet ls =>
      show (fs.flatMap Frame.lines).foldl readLine (ls.foldl readLine ([], ms)) = _
      rw [foldl_quiet ls ms (fun line hline => (hf line hline).2), ih _ hfs]
      simp [Frame.data]

theorem messages_frames (fs : List Frame) (h : ∀ f ∈ fs, f.Proper)
    (hm : withoutMark (fs.flatMap Frame.text) = fs.flatMap Frame.text) :
    messages (fs.flatMap Frame.text) = fs.flatMap Frame.data := by
  have hlines : fs.flatMap Frame.text = framed (fs.flatMap Frame.lines) := by
    rw [framed, List.flatMap_assoc]
    rfl
  have hunbroken : ∀ line ∈ fs.flatMap Frame.lines, Unbroken line := by
    intro line hline
    obtain ⟨f, hf, hl⟩ := List.mem_flatMap.mp hline
    exact proper_unbroken f (h f hf) line hl
  rw [messages, hm, hlines, lines_framed _ hunbroken, foldl_frames fs [] h]
  rfl

end ControlPlane.SseText
