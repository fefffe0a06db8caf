import ControlPlane.JsonReader
import ControlPlane.Utf8Text

/-!
# Decoding any bytes

The decoder of `TextDecoder`: one byte a step, where an ill-formed sequence
becomes U+FFFD and the byte that ends it is looked at again. A byte order mark
at the start is dropped. The UTF-8 of a text decodes to the text, up to lone
surrogates.
-/

set_option autoImplicit false

namespace ControlPlane.Utf8Decoder
open ControlPlane.JsText ControlPlane.Utf8Text

/-- The bytes that a character still needs, the bounds of the next one and the
bits so far. -/
structure Pending where
  needed : ℕ
  lower : ℕ
  upper : ℕ
  codePoint : ℕ
  deriving DecidableEq, Repr

def replacement : ℕ := 0xFFFD

def lead (b : ℕ) : Option Pending × List ℕ :=
  if b ≤ 0x7F then (none, [b])
  else if 0xC2 ≤ b ∧ b ≤ 0xDF then (some ⟨1, 0x80, 0xBF, b-0xC0⟩, [])
  else if 0xE0 ≤ b ∧ b ≤ 0xEF then
    (some ⟨2, if b = 0xE0 then 0xA0 else 0x80, if b = 0xED then 0x9F else 0xBF, b-0xE0⟩, [])
  else if 0xF0 ≤ b ∧ b ≤ 0xF4 then
    (some ⟨3, if b = 0xF0 then 0x90 else 0x80, if b = 0xF4 then 0x8F else 0xBF, b-0xF0⟩, [])
  else (none, [replacement])

def feed : Option Pending → ℕ → Option Pending × List ℕ
  | none, b => lead b
  | some p, b =>
    if p.lower ≤ b ∧ b ≤ p.upper then
      if p.needed = 1 then (none, [p.codePoint*64+(b-0x80)])
      else (some ⟨p.needed-1, 0x80, 0xBF, p.codePoint*64+(b-0x80)⟩, [])
    else ((lead b).1, replacement::(lead b).2)

/-- At the end a character that lacks bytes is ill-formed. -/
def decodeFrom : Option Pending → List ℕ → List ℕ
  | none, [] => []
  | some _, [] => [replacement]
  | s, b::rest => (feed s b).2++decodeFrom (feed s b).1 rest

def dropMark : List ℕ → List ℕ
  | 0xFEFF::rest => rest
  | codePoints => codePoints

/-- `new TextDecoder().decode(bytes)` -/
def decode (bytes : List UInt8) : Text :=
  (dropMark (decodeFrom none (bytes.map UInt8.toNat))).flatMap (fun n => encode (Char.ofNat n))

example : decode [0xEF, 0xBB, 0xBF, 0xE2, 0x82, 0xAC, 0xE2, 0x82, 0x41] =
    [0x20AC, 0xFFFD, 0x41] := by
  decide

theorem lead_two (b : ℕ) (hl : 0xC2 ≤ b) (hu : b ≤ 0xDF) :
    lead b = (some ⟨1, 0x80, 0xBF, b-0xC0⟩, []) := by
  rw [lead, if_neg (by omega), if_pos ⟨hl, hu⟩]

theorem lead_three (b : ℕ) (hl : 0xE0 ≤ b) (hu : b ≤ 0xEF) :
    lead b = (some ⟨2, if b = 0xE0 then 0xA0 else 0x80, if b = 0xED then 0x9F else 0xBF,
      b-0xE0⟩, []) := by
  rw [lead, if_neg (by omega), if_neg (by omega), if_pos ⟨hl, hu⟩]

theorem lead_four (b : ℕ) (hl : 0xF0 ≤ b) (hu : b ≤ 0xF4) :
    lead b = (some ⟨3, if b = 0xF0 then 0x90 else 0x80, if b = 0xF4 then 0x8F else 0xBF,
      b-0xF0⟩, []) := by
  rw [lead, if_neg (by omega), if_neg (by omega), if_neg (by omega), if_pos ⟨hl, hu⟩]

theorem decodeFrom_start (b : ℕ) (p : Pending) (rest : List ℕ) (h : lead b = (some p, [])) :
    decodeFrom none (b::rest) = decodeFrom (some p) rest := by
  rw [decodeFrom, feed, h]
  rfl

theorem decodeFrom_more (needed lower upper codePoint b : ℕ) (rest : List ℕ) (hl : lower ≤ b)
    (hu : b ≤ upper) : decodeFrom (some ⟨needed+2, lower, upper, codePoint⟩) (b::rest) =
      decodeFrom (some ⟨needed+1, 0x80, 0xBF, codePoint*64+(b-0x80)⟩) rest := by
  rw [decodeFrom, feed, if_pos ⟨hl, hu⟩, if_neg (by simp)]
  rfl

theorem decodeFrom_last (lower upper codePoint b : ℕ) (rest : List ℕ) (hl : lower ≤ b)
    (hu : b ≤ upper) : decodeFrom (some ⟨1, lower, upper, codePoint⟩) (b::rest) =
      (codePoint*64+(b-0x80))::decodeFrom none rest := by
  rw [decodeFrom, feed, if_pos ⟨hl, hu⟩, if_pos rfl]
  rfl

theorem decodeFrom_cons (s : Option Pending) (b : ℕ) (rest : List ℕ) :
    decodeFrom s (b::rest) = (feed s b).2++decodeFrom (feed s b).1 rest := by
  cases s <;> rfl

theorem char_range (c : Char) :
    c.toNat < 0xD800 ∨ (0xDFFF < c.toNat ∧ c.toNat < 0x110000) := c.valid

theorem encoded_bytes (c : Char) : (String.utf8EncodeChar c).map UInt8.toNat =
    if c.toNat ≤ 0x7F then [c.toNat]
    else if c.toNat ≤ 0x7FF then [c.toNat/64+0xC0, c.toNat%64+0x80]
    else if c.toNat ≤ 0xFFFF then [c.toNat/4096+0xE0, c.toNat/64%64+0x80, c.toNat%64+0x80]
    else [c.toNat/262144+0xF0, c.toNat/4096%64+0x80, c.toNat/64%64+0x80, c.toNat%64+0x80] := by
  have hrange := char_range c
  unfold String.utf8EncodeChar
  change List.map _ (if c.toNat ≤ 0x7F then _ else if c.toNat ≤ 0x7FF then _ else
    if c.toNat ≤ 0xFFFF then _ else _) = _
  split_ifs with h1 h2 h3
  · simp
    omega
  · simp
    omega
  · simp
    omega
  · simp
    omega

theorem decodeFrom_char (c : Char) (rest : List ℕ) :
    decodeFrom none ((String.utf8EncodeChar c).map UInt8.toNat++rest) =
      c.toNat::decodeFrom none rest := by
  have hrange := char_range c
  generalize hv : c.toNat = v at hrange
  rw [encoded_bytes, hv]
  split_ifs with h1 h2 h3
  · rw [List.singleton_append, decodeFrom, feed, lead, if_pos h1]
    rfl
  · have hcode : (v/64+0xC0-0xC0)*64+(v%64+0x80-0x80) = v := by omega
    rw [List.cons_append, decodeFrom_start _ _ _ (lead_two _ (by omega) (by omega)),
      List.singleton_append, decodeFrom_last _ _ _ _ _ (by omega) (by omega), hcode]
  · have hcode : ((v/4096+0xE0-0xE0)*64+(v/64%64+0x80-0x80))*64+(v%64+0x80-0x80) = v := by omega
    have hlower : (if v/4096+0xE0 = 0xE0 then 0xA0 else 0x80) ≤ v/64%64+0x80 := by
      split_ifs <;> omega
    have hupper : v/64%64+0x80 ≤ if v/4096+0xE0 = 0xED then 0x9F else 0xBF := by
      split_ifs <;> omega
    rw [List.cons_append, decodeFrom_start _ _ _ (lead_three _ (by omega) (by omega)),
      List.cons_append, decodeFrom_more _ _ _ _ _ _ hlower hupper, List.singleton_append,
      decodeFrom_last _ _ _ _ _ (by omega) (by omega), hcode]
  · have hcode : (((v/262144+0xF0-0xF0)*64+(v/4096%64+0x80-0x80))*64+(v/64%64+0x80-0x80))*64+
        (v%64+0x80-0x80) = v := by omega
    have hlower : (if v/262144+0xF0 = 0xF0 then 0x90 else 0x80) ≤ v/4096%64+0x80 := by
      split_ifs <;> omega
    have hupper : v/4096%64+0x80 ≤ if v/262144+0xF0 = 0xF4 then 0x8F else 0xBF := by
      split_ifs <;> omega
    rw [List.cons_append, decodeFrom_start _ _ _ (lead_four _ (by omega) (by omega)),
      List.cons_append, decodeFrom_more _ _ _ _ _ _ hlower hupper, List.cons_append,
      decodeFrom_more _ _ _ _ _ _ (by omega) (by omega), List.singleton_append,
      decodeFrom_last _ _ _ _ _ (by omega) (by omega), hcode]

theorem decodeFrom_chars (cs : List Char) :
    decodeFrom none ((cs.flatMap String.utf8EncodeChar).map UInt8.toNat) = cs.map Char.toNat := by
  induction cs with
  | nil => rfl
  | cons c cs ih => rw [List.flatMap_cons, List.map_append, decodeFrom_char, ih, List.map_cons]

/-- The UTF-8 of a text, without a byte order mark, decodes to the text. -/
theorem decode_encodeUtf8 (t : Text) (h : ∀ c ∈ (chars t).head?, c.toNat ≠ 0xFEFF) :
    decode (encodeUtf8 t) = toWellFormed t := by
  have hmark : dropMark ((chars t).map Char.toNat) = (chars t).map Char.toNat := by
    cases hc : chars t with
    | nil => rfl
    | cons c cs =>
      rw [hc] at h
      have hne := h c rfl
      rw [List.map_cons, dropMark]
      intro rest hrest
      exact hne (List.cons.inj hrest).1
  rw [decode, encodeUtf8, decodeFrom_chars, hmark, ← flatMap_encode_chars, List.flatMap_map]
  apply List.flatMap_congr
  intro c _
  rw [Char.ofNat_toNat]

def Completes : ℕ → ℕ → ℕ → ℕ → Prop
  | 0, _, _, _ => False
  | 1, lower, upper, codePoint =>
    ∀ b, lower ≤ b → b ≤ upper → (codePoint*64+(b-0x80)).isValidChar
  | needed+2, lower, upper, codePoint =>
    ∀ b, lower ≤ b → b ≤ upper → Completes (needed+1) 0x80 0xBF (codePoint*64+(b-0x80))

def Sound (s : Option Pending) : Prop :=
  ∀ p ∈ s, Completes p.needed p.lower p.upper p.codePoint

theorem lead_sound (b : ℕ) : Sound (lead b).1 ∧ ∀ n ∈ (lead b).2, n.isValidChar := by
  have hpending : ∀ p : Pending, lead b = (some p, []) →
      Completes p.needed p.lower p.upper p.codePoint →
      Sound (lead b).1 ∧ ∀ n ∈ (lead b).2, n.isValidChar := by
    intro p hp hc
    rw [hp]
    exact ⟨fun q hq => Option.some.inj hq ▸ hc, fun n hn => (List.not_mem_nil hn).elim⟩
  by_cases h2 : 0xC2 ≤ b ∧ b ≤ 0xDF
  · apply hpending _ (lead_two b h2.1 h2.2)
    simp only [Completes, Nat.isValidChar]
    omega
  by_cases h3 : 0xE0 ≤ b ∧ b ≤ 0xEF
  · apply hpending _ (lead_three b h3.1 h3.2)
    simp only [Completes, Nat.isValidChar]
    intro c hc hc' d hd hd'
    split_ifs at hc hc' <;> omega
  by_cases h4 : 0xF0 ≤ b ∧ b ≤ 0xF4
  · apply hpending _ (lead_four b h4.1 h4.2)
    simp only [Completes, Nat.isValidChar]
    intro c hc hc' d hd hd' e he he'
    split_ifs at hc hc' <;> omega
  by_cases h1 : b ≤ 0x7F
  · simp [lead, h1, Sound, Nat.isValidChar]
    omega
  · simp [lead, h1, h2, h3, h4, Sound, replacement, Nat.isValidChar]

theorem feed_sound (s : Option Pending) (b : ℕ) (hs : Sound s) :
    Sound (feed s b).1 ∧ ∀ n ∈ (feed s b).2, n.isValidChar := by
  have hlead := lead_sound b
  cases s with
  | none => exact hlead
  | some p =>
    have hp := hs p rfl
    obtain ⟨needed, lower, upper, codePoint⟩ := p
    rw [feed]
    by_cases hb : lower ≤ b ∧ b ≤ upper
    · rw [if_pos hb]
      match needed, hp with
      | 1, hp =>
        rw [if_pos rfl]
        simpa [Sound] using hp b hb.1 hb.2
      | needed+2, hp =>
        rw [if_neg (by simp)]
        simpa [Sound] using hp b hb.1 hb.2
    · rw [if_neg hb]
      apply And.intro hlead.1
      rw [List.forall_mem_cons]
      exact ⟨by decide, hlead.2⟩

theorem decodeFrom_valid (s : Option Pending) (bytes : List ℕ) (hs : Sound s) :
    ∀ n ∈ decodeFrom s bytes, n.isValidChar := by
  induction bytes generalizing s with
  | nil =>
    cases s with
    | none => simp [decodeFrom]
    | some p => simp [decodeFrom, replacement, Nat.isValidChar]
  | cons b rest ih =>
    have hfeed := feed_sound s b hs
    rw [decodeFrom_cons, List.forall_mem_append]
    exact ⟨hfeed.2, ih _ hfeed.1⟩

theorem encode_wellFormed (c : Char) : isWellFormed (encode c) = true := by
  have hrange := char_range c
  have hval : c.val.toNat = c.toNat := rfl
  by_cases hc : c.val < 0x10000
  · have hsmall : c.toNat < 0x10000 := by
      rw [UInt32.lt_iff_toNat_lt] at hc
      exact hc
    have hunit : c.val.toUInt16.toNat = c.toNat := by
      rw [UInt32.toNat_toUInt16, hval]
      omega
    have hhigh : isHigh c.val.toUInt16 = false := by
      rw [Bool.eq_false_iff, ne_eq, isHigh_iff, hunit]
      omega
    have hlow : isLow c.val.toUInt16 = false := by
      rw [Bool.eq_false_iff, ne_eq, isLow_iff, hunit]
      omega
    rw [encode, if_pos hc, isWellFormed, hhigh, hlow]
    rfl
  · have hge : (0x10000 : UInt32) ≤ c.val := by
      rw [UInt32.lt_iff_toNat_lt] at hc
      rw [UInt32.le_iff_toNat_le]
      exact Nat.not_lt.mp hc
    have hlarge : 0x10000 ≤ c.toNat := by
      rw [UInt32.le_iff_toNat_le] at hge
      exact hge
    have hhigh : isHigh ((c.val-0x10000)/0x400+0xD800).toUInt16 = true := by
      rw [isHigh_iff, UInt32.toNat_toUInt16, UInt32.toNat_add, UInt32.toNat_div,
        UInt32.toNat_sub_of_le _ _ hge, hval]
      simp only [UInt32.reduceToNat]
      omega
    have hlow : isLow ((c.val-0x10000)%0x400+0xDC00).toUInt16 = true := by
      rw [isLow_iff, UInt32.toNat_toUInt16, UInt32.toNat_add, UInt32.toNat_mod,
        UInt32.toNat_sub_of_le _ _ hge, hval]
      simp only [UInt32.reduceToNat]
      omega
    rw [encode, if_neg hc, isWellFormed, hhigh, hlow]
    rfl

theorem mem_dropMark (codePoints : List ℕ) (n : ℕ) (h : n ∈ dropMark codePoints) :
    n ∈ codePoints := by
  unfold dropMark at h
  split at h
  · exact List.mem_cons_of_mem _ h
  · exact h

theorem decode_chars (bytes : List UInt8) : ∃ cs : List Char,
    cs.map Char.toNat = dropMark (decodeFrom none (bytes.map UInt8.toNat)) ∧
      decode bytes = cs.flatMap encode := by
  have hvalid := decodeFrom_valid none (bytes.map UInt8.toNat) (fun p hp => nomatch hp)
  apply Exists.intro ((dropMark (decodeFrom none (bytes.map UInt8.toNat))).map Char.ofNat)
  constructor
  · rw [List.map_map]
    conv_rhs => rw [← List.map_id (dropMark _)]
    apply List.map_congr_left
    intro n hn
    have hn' := hvalid n (mem_dropMark _ n hn)
    rw [Function.comp_apply, Char.ofNat, dif_pos hn']
    rfl
  · rw [decode, List.flatMap_map]

theorem decode_wellFormed (bytes : List UInt8) : isWellFormed (decode bytes) = true := by
  obtain ⟨cs, -, hcs⟩ := decode_chars bytes
  rw [hcs]
  clear hcs
  induction cs with
  | nil => rfl
  | cons c cs ih =>
    rw [List.flatMap_cons]
    exact JsonReader.isWellFormed_append _ _ (encode_wellFormed c) ih

end ControlPlane.Utf8Decoder
