import ControlPlane.JsonReader
import ControlPlane.Utf8Text

/-!
# Values one a line

A text with one JSON value a line, each line ended by a newline. The writer
never puts a newline into a value, so the lines read back as the values.
-/

set_option autoImplicit false

namespace ControlPlane.JsonLines
open ControlPlane.JsText ControlPlane.JsValue ControlPlane.JsonText ControlPlane.JsonReader
open ControlPlane.Utf8Text

def newline : UInt16 := 0x0A

/-- `lines.join('\n')+'\n'` -/
def writeLines (vs : List Json) : Text := [newline].intercalate (vs.map stringify)++[newline]

/-- Empty lines are skipped. -/
def readLines (t : Text) : Option (List Json) :=
  ((t.splitOn newline).filter (· ≠ [])).mapM parseText

def encodeLines (vs : List Json) : List UInt8 := encodeUtf8 (writeLines vs)

def decodeLines (bytes : List UInt8) : Option (List Json) := (decodeUtf8 bytes).bind readLines

theorem stringify_printable (v : Json) : Printable (stringify v) := write_printable (docOf v)

theorem stringify_unbroken (v : Json) : newline ∉ stringify v := by
  intro h
  exact absurd ((stringify_printable v).1 _ h) (by decide)

theorem stringify_ne_nil (v : Json) (h : (docOf v).Valid) : stringify v ≠ [] := by
  obtain ⟨u, rest, hu, _⟩ := write_head (docOf v) h
  simp [stringify, hu]

theorem intercalate_snoc (ls : List Text) (h : ls ≠ []) :
    [newline].intercalate ls++[newline] = [newline].intercalate (ls++[[]]) := by
  induction ls with
  | nil => exact absurd rfl h
  | cons l ls ih =>
    cases ls with
    | nil => simp [List.intercalate]
    | cons m ms =>
      have hrest := ih (List.cons_ne_nil m ms)
      simp only [List.intercalate, List.cons_append, List.intersperse_cons_cons, List.flatten_cons,
        List.append_assoc] at hrest ⊢
      rw [hrest]

theorem lines_written (vs : List Json) (h : ∀ v ∈ vs, (docOf v).Valid) :
    ((writeLines vs).splitOn newline).filter (· ≠ []) = vs.map stringify := by
  have hne : ∀ l ∈ vs.map stringify, l ≠ [] := by
    intro l hl
    obtain ⟨v, hv, rfl⟩ := List.mem_map.mp hl
    exact stringify_ne_nil v (h v hv)
  by_cases hnil : vs = []
  · subst hnil
    decide
  · rw [writeLines, intercalate_snoc _ (by simpa using hnil),
      List.splitOn_intercalate newline ?_ (by simp)]
    · rw [List.filter_append, List.filter_eq_self.mpr (fun l hl => by simpa using hne l hl)]
      simp
    · intro l hl
      rcases List.mem_append.mp hl with hl | hl
      · obtain ⟨v, _, rfl⟩ := List.mem_map.mp hl
        exact stringify_unbroken v
      · simp [List.mem_singleton.mp hl]

theorem readLines_writeLines (vs : List Json) (h : ∀ v ∈ vs, (docOf v).Valid) :
    readLines (writeLines vs) = some (vs.map nulled) := by
  rw [readLines, lines_written vs h]
  induction vs with
  | nil => rfl
  | cons v vs ih =>
    obtain ⟨hv, hvs⟩ := List.forall_mem_cons.mp h
    simp [List.mapM_cons, parseText_stringify v hv, ih hvs]

theorem writeLines_wellFormed (vs : List Json) : isWellFormed (writeLines vs) = true := by
  have hall : ∀ ts : List Text, (∀ t ∈ ts, isWellFormed t = true) →
      isWellFormed ([newline].intercalate ts) = true := by
    intro ts
    induction ts with
    | nil => exact fun _ => rfl
    | cons t ts ih =>
      intro h
      obtain ⟨ht, hts⟩ := List.forall_mem_cons.mp h
      cases ts with
      | nil => simpa [List.intercalate] using ht
      | cons s ss =>
        have hrest := ih hts
        simp only [List.intercalate, List.intersperse_cons_cons, List.flatten_cons] at hrest ⊢
        exact isWellFormed_append _ _ ht (isWellFormed_append _ _ (by decide) hrest)
  apply isWellFormed_append _ _ (hall _ ?_) (by decide)
  intro t ht
  obtain ⟨v, _, rfl⟩ := List.mem_map.mp ht
  exact (stringify_printable v).2

theorem decodeUtf8_wellFormed (t : Text) (h : isWellFormed t = true) :
    decodeUtf8 (encodeUtf8 t) = some t := by
  have hchunk := decodeUtf8_chunks [t]
  simpa [toWellFormed_of_isWellFormed t h] using hchunk

theorem decodeLines_encodeLines (vs : List Json) (h : ∀ v ∈ vs, (docOf v).Valid) :
    decodeLines (encodeLines vs) = some (vs.map nulled) := by
  rw [decodeLines, encodeLines, decodeUtf8_wellFormed _ (writeLines_wellFormed vs),
    Option.bind_some, readLines_writeLines vs h]

end ControlPlane.JsonLines
