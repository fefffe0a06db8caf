import ControlPlane.EventIngest

/-!
# The ids that a producer can give

The id of a timed entry is a version 8 UUID over the producer's key and the
content, and any other id is a random UUID of version 4. Two producers whose
hashed inputs do not collide never give one id.
-/

set_option autoImplicit false

namespace ControlPlane.ProducerIds
open ControlPlane.JsText ControlPlane.JsValue ControlPlane.TctParse ControlPlane.EventNormalize
open ControlPlane.EventId ControlPlane.EventIngest

def entries (q : EventsRequest) : List Json := (q.body.parsed.bind rawEvents).getD []

def entryId (R : IdRuntime) (q : EventsRequest) (i : ℕ) (raw : Json) : Text :=
  eventIdFor R raw (producerKey R q) (q.random i)

def Gives (R : IdRuntime) (q : EventsRequest) (id : Text) : Prop :=
  ∃ i raw, (entries q)[i]? = some raw ∧ id = entryId R q i raw

def RandomIds (q : EventsRequest) : Prop :=
  ∀ i < (entries q).length, (q.random i)[14]? = some 0x34

/-- The random ids of two requests differ, and no hashed inputs collide. -/
structure Apart (R : IdRuntime) (q q' : EventsRequest) : Prop where
  random : ∀ i < (entries q).length, ∀ j < (entries q').length, q.random i ≠ q'.random j
  digest : ∀ raw ∈ entries q, ∀ raw' ∈ entries q', hasTimestamp R raw = true →
    hasTimestamp R raw' = true →
    contentId R (producerKey R q) raw = contentId R (producerKey R q') raw' →
    preimage R.toCodec (producerKey R q) raw = preimage R.toCodec (producerKey R q') raw'

theorem candidates_index (parseDate : Text → Option Instant) (now : Instant) (raws : List Json)
    (index : ℕ) (c : Candidate) (hc : c ∈ candidatesFrom parseDate now index raws) :
    ∃ i, c.index = index+i ∧ raws[i]? = some c.raw := by
  induction raws generalizing index with
  | nil => cases hc
  | cons raw raws ih =>
    have hrest : c ∈ candidatesFrom parseDate now (index+1) raws →
        ∃ i, c.index = index+i ∧ (raw::raws)[i]? = some c.raw := by
      intro hc
      obtain ⟨i, hi, hraw⟩ := ih (index+1) hc
      exact ⟨i+1, by omega, hraw⟩
    unfold candidatesFrom at hc
    split_ifs at hc
    · rcases List.mem_cons.mp hc with rfl | hc
      · exact ⟨0, rfl, rfl⟩
      · exact hrest hc
    · exact hrest hc

theorem prepare_ids (R : IdRuntime) (now : Instant) (q : EventsRequest) (body : Json) (b : Batch)
    (hbody : q.body.parsed = some body) (h : prepare R now q body = .ok b) :
    ∀ e ∈ b.normalized, Gives R q e.id := by
  unfold prepare at h
  cases hraws : rawEvents body with
  | none =>
    rw [hraws] at h
    cases h
  | some raws =>
    simp only [hraws] at h
    split at h
    · cases h
    · split at h
      · cases h
      · simp only [Except.ok.injEq] at h
        subst h
        intro e he
        obtain ⟨c, hc, rfl⟩ := List.mem_map.mp he
        obtain ⟨i, hi, hraw⟩ := candidates_index _ _ _ _ c (List.mem_of_mem_filter hc)
        rw [Nat.zero_add] at hi
        refine ⟨i, c.raw, ?_, ?_⟩
        · simpa [entries, hbody, hraws] using hraw
        · rw [← hi]
          rfl

theorem hexDigit_ne_zero (n : UInt8) : hexDigit n ≠ 0 := by
  have h : ∀ k : Fin 256, hexDigit (UInt8.ofNat k) ≠ 0 := by decide +kernel
  have := h ⟨n.toNat, n.toNat_lt⟩
  rwa [UInt8.ofNat_toNat] at this

theorem version_digit (v : UInt8) : hexDigit (((v &&& 0x0F) ||| 0x80)/16) = 0x38 := by
  have h : ∀ k : Fin 256,
      hexDigit (((UInt8.ofNat k &&& 0x0F) ||| 0x80)/16) = 0x38 := by decide +kernel
  have := h ⟨v.toNat, v.toNat_lt⟩
  rwa [UInt8.ofNat_toNat] at this

theorem uuidV8_version (digest : List UInt8) (h : 16 ≤ digest.length) :
    (uuidV8 digest)[14]? = some 0x38 := by
  match digest, h with
  | b0::b1::b2::b3::b4::b5::b6::b7::b8::b9::b10::b11::b12::b13::b14::b15::rest, _ =>
    exact congrArg some (version_digit b6)

theorem producerKey_form (R : IdRuntime) (q : EventsRequest) : producerKey R q = none ∨
    ∃ token, producerKey R q =
      some (js "apikey:"++((R.sha256 token).flatMap hexByte).take 16) := by
  unfold producerKey actorIdFromAuthHeader
  split
  · exact Or.inl rfl
  · next authHeader _ =>
    simp only
    generalize (if (js "Bearer ").isPrefixOf authHeader then authHeader.drop 7
      else authHeader) = token
    by_cases h : token = []
    · exact Or.inl (if_pos h)
    · exact Or.inr ⟨token, if_neg h⟩

theorem producerKey_nul (R : IdRuntime) (q : EventsRequest) : 0 ∉ (producerKey R q).getD [] := by
  rcases producerKey_form R q with h | ⟨token, h⟩
  · rw [h]
    exact List.not_mem_nil
  · rw [h, Option.getD_some, List.mem_append, not_or]
    constructor
    · decide
    · intro hmem
      obtain ⟨b, -, hb⟩ := List.mem_flatMap.mp (List.mem_of_mem_take hmem)
      simp only [hexByte, List.mem_cons, List.not_mem_nil, or_false] at hb
      rcases hb with hb | hb
      · exact hexDigit_ne_zero _ hb.symm
      · exact hexDigit_ne_zero _ hb.symm

theorem producerKey_ne_nil (R : IdRuntime) (q : EventsRequest) : producerKey R q ≠ some [] := by
  rcases producerKey_form R q with h | ⟨token, h⟩
  · rw [h]
    simp
  · rw [h]
    exact fun heq => absurd (List.append_eq_nil_iff.mp (Option.some.inj heq)).1 (by decide)

theorem before_nul (s t : Text) (h : 0 ∉ s) : (s++0::t).takeWhile (· ≠ 0) = s := by
  rw [List.takeWhile_append_of_pos]
  · simp
  · intro u hu
    rw [decide_eq_true_eq]
    rintro rfl
    exact h hu

theorem preimage_producer (R : IdRuntime) (q q' : EventsRequest) (raw raw' : Json)
    (h : preimage R.toCodec (producerKey R q) raw = preimage R.toCodec (producerKey R q') raw') :
    producerKey R q = producerKey R q' := by
  unfold preimage at h
  simp only [List.append_assoc, List.append_cancel_left_eq, List.cons_append, List.cons.injEq,
    true_and] at h
  have hkeys := congrArg (List.takeWhile (· ≠ 0)) h
  rw [before_nul _ _ (producerKey_nul R q), before_nul _ _ (producerKey_nul R q')] at hkeys
  have hq := producerKey_ne_nil R q
  have hq' := producerKey_ne_nil R q'
  cases hk : producerKey R q with
  | none =>
    cases hk' : producerKey R q' with
    | none => rfl
    | some k' => simp_all
  | some k =>
    cases hk' : producerKey R q' with
    | none => simp_all
    | some k' => simp_all

theorem gives_apart (R : IdRuntime) (hsha : ∀ t, (R.sha256 t).length = 32)
    (q q' : EventsRequest) (hr : RandomIds q) (hr' : RandomIds q') (ha : Apart R q q')
    (hne : producerKey R q ≠ producerKey R q') (id : Text) (h : Gives R q id) :
    ¬Gives R q' id := by
  rintro ⟨j, raw', hraw', hid'⟩
  obtain ⟨i, raw, hraw, hid⟩ := h
  obtain ⟨hi, hgi⟩ := List.getElem?_eq_some_iff.mp hraw
  obtain ⟨hj, hgj⟩ := List.getElem?_eq_some_iff.mp hraw'
  have heq := hid.symm.trans hid'
  have hversion : ∀ key raw, (contentId R key raw)[14]? = some 0x38 := by
    intro key raw
    exact uuidV8_version _ (by rw [hsha]; omega)
  unfold entryId eventIdFor at heq
  split_ifs at heq with ht ht' ht'
  · have hmem := List.mem_of_getElem? hraw
    have hmem' := List.mem_of_getElem? hraw'
    exact hne (preimage_producer R q q' raw raw' (ha.digest raw hmem raw' hmem' ht ht' heq))
  · have := hversion (producerKey R q) raw
    rw [heq, hr' j hj] at this
    cases this
  · have := hversion (producerKey R q') raw'
    rw [← heq, hr i hi] at this
    cases this
  · exact ha.random i hi j hj heq

end ControlPlane.ProducerIds
