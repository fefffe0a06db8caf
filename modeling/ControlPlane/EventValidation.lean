import ControlPlane.EventIngest
import ControlPlane.PayloadWalk

/-!
# Which entries of a batch are dropped

An entry is dropped exactly if the insert could not store its record. The
first twenty of the dropped are reported with their place in the batch, and
what is nested too deep is neither measured nor stored.
-/

set_option autoImplicit false

namespace ControlPlane.EventValidation
open ControlPlane.JsText ControlPlane.JsValue ControlPlane.HttpValidate ControlPlane.TctParse
open ControlPlane.EventNormalize ControlPlane.EventId ControlPlane.EventIngest
open ControlPlane.PayloadWalk

def record (R : IdRuntime) (now : Instant) (raw : Json) : EventRecord :=
  normalize R.parseDate now raw []

def TextUnfit (event : EventRecord) : Prop :=
  ∃ f ∈ textFields event, ∃ t ∈ f.2.1, f.2.2 < codePoints t ∨ 0 ∈ t

def jsonTexts (event : EventRecord) : List Text := event.grants.getD []++textsOf event.payload

def JsonUnfit (event : EventRecord) : Prop :=
  ∃ t ∈ jsonTexts event, 0 ∈ t ∨ isWellFormed t = false

def Unstorable (event : EventRecord) : Prop :=
  maxPayloadDepth < depth event.payload ∨ TextUnfit event ∨ JsonUnfit event

instance (event : EventRecord) : Decidable (TextUnfit event) :=
  inferInstanceAs (Decidable (∃ f ∈ textFields event, ∃ t ∈ f.2.1, f.2.2 < codePoints t ∨ 0 ∈ t))

instance (event : EventRecord) : Decidable (JsonUnfit event) :=
  inferInstanceAs (Decidable (∃ t ∈ jsonTexts event, 0 ∈ t ∨ isWellFormed t = false))

instance (event : EventRecord) : Decidable (Unstorable event) :=
  inferInstanceAs (Decidable (_ ∨ _ ∨ _))

def objects (raws : List Json) : List (Json × ℕ) := raws.zipIdx.filter (·.1.isObject)

def refused (R : IdRuntime) (now : Instant) (raws : List Json) : List (Json × ℕ) :=
  (objects raws).filter (fun e => Unstorable (record R now e.1))

def kept (R : IdRuntime) (now : Instant) (raws : List Json) : List (Json × ℕ) :=
  (objects raws).filter (fun e => ¬Unstorable (record R now e.1))

def tooDeepProblem : ItemProblem :=
  ⟨js "payload", js "payload is nested too deep (more than 64 levels)", true⟩

/-- What the size check hands to `JSON.stringify`, and what it refuses. -/
def sizePass : List Candidate → List Json × Option Candidate
  | [] => ([], none)
  | c::cs =>
    if c.problem.any (·.tooDeep) then sizePass cs
    else if maxEventPayloadBytes < payloadSize c.event.payload then ([c.event.payload], some c)
    else (c.event.payload::(sizePass cs).1, (sizePass cs).2)

/-- The columns of `audit_events`. -/
structure Insertable (e : EventRecord) : Prop where
  id : isUuid e.id = true
  type : fitsVarchar 128 e.type = true
  ts : instantStorable e.ts = true
  aidA : e.aidA.all (fitsVarchar 512) = true
  aidB : e.aidB.all (fitsVarchar 512) = true
  sessionId : e.sessionId.all (fitsVarchar 255) = true
  runId : e.runId.all (fitsVarchar 255) = true
  grants : ∀ grants ∈ e.grants, (Json.arr (grants.map .str)).storable = true
  payload : e.payload.storable = true
  source : e.source.all (fitsVarchar 128) = true

/-- What one statement can carry, at ten values a row. -/
def maxParameters : ℕ := 65535

theorem textProblem_iff (fields : List (Text × Option Text × ℕ)) :
    textProblem fields = none ↔
      ¬∃ f ∈ fields, ∃ t ∈ f.2.1, f.2.2 < codePoints t ∨ 0 ∈ t := by
  induction fields with
  | nil => simp [textProblem]
  | cons f fs ih =>
    obtain ⟨name, value, max⟩ := f
    cases value with
    | none =>
      rw [textProblem, ih]
      simp
    | some v =>
      have hv := checkColumnString_iff v name max
      rw [textProblem]
      cases hc : checkColumnString v name max none with
      | some reason =>
        rw [hc] at hv
        simp only [reduceCtorEq, false_iff, not_not] at hv ⊢
        exact ⟨_, List.mem_cons_self, v, rfl, hv⟩
      | none =>
        rw [hc] at hv
        simp only [true_iff] at hv
        simp only [ih, List.exists_mem_cons_iff, Option.mem_def, Option.some.injEq,
          exists_eq_left', hv, false_or]

theorem textProblem_tooDeep (fields : List (Text × Option Text × ℕ)) (p : ItemProblem)
    (h : textProblem fields = some p) : p.tooDeep = false := by
  induction fields with
  | nil => cases h
  | cons f fs ih =>
    obtain ⟨name, value, max⟩ := f
    cases value with
    | none => exact ih h
    | some v =>
      rw [textProblem] at h
      split at h
      · cases h
        rfl
      · exact ih h

theorem jsonValueProblem_deep (root : Json) (field : Text) (h : maxPayloadDepth < depth root) :
    jsonValueProblem root field = some ⟨field, field++js " is nested too deep (more than "++
      number maxPayloadDepth++js " levels)", true⟩ := by
  rw [jsonValueProblem, if_pos ((nestedOver_iff _ root).mpr h)]

theorem jsonValueProblem_flat (root : Json) (field : Text) (h : ¬maxPayloadDepth < depth root)
    (p : ItemProblem) (hp : jsonValueProblem root field = some p) : p.tooDeep = false := by
  rw [jsonValueProblem, if_neg (mt (nestedOver_iff _ root).mp h)] at hp
  split_ifs at hp
  · cases hp
    rfl
  · cases hp
    rfl

theorem jsonValueProblem_any (root : Json) (field : Text) (h : ¬maxPayloadDepth < depth root) :
    (jsonValueProblem root field).any (·.tooDeep) = false := by
  cases hp : jsonValueProblem root field with
  | none => rfl
  | some p => exact jsonValueProblem_flat root field h p hp

theorem jsonValueProblem_iff (root : Json) (field : Text) :
    jsonValueProblem root field = none ↔ ¬(maxPayloadDepth < depth root ∨
      ∃ t ∈ textsOf root, 0 ∈ t ∨ isWellFormed t = false) := by
  have hnul : (textsOf root).any hasNul = true ↔ ∃ t ∈ textsOf root, 0 ∈ t := by
    simp [List.any_eq_true, hasNul]
  have hlone : (textsOf root).any (fun t => !isWellFormed t) = true ↔
      ∃ t ∈ textsOf root, isWellFormed t = false := by
    simp [List.any_eq_true]
  have hor : (∃ t ∈ textsOf root, 0 ∈ t ∨ isWellFormed t = false) ↔
      (∃ t ∈ textsOf root, 0 ∈ t) ∨ ∃ t ∈ textsOf root, isWellFormed t = false := by
    simp only [and_or_left, exists_or]
  rw [hor, ← hnul, ← hlone, ← nestedOver_iff, jsonValueProblem]
  split_ifs with h1 h2 h3
  · simp [h1]
  · simp [h2]
  · simp [h3]
  · simp [h1, h2, h3]

theorem depth_texts (texts : List Text) : depth (.arr (texts.map .str)) = 1 := by
  have h : depthOfItems (texts.map .str) = 0 := by
    induction texts with
    | nil => rfl
    | cons t ts ih => simp [depthOfItems, depth, ih]
  rw [depth, h]

theorem textsOf_texts (texts : List Text) : textsOf (.arr (texts.map .str)) = texts := by
  rw [textsOf, textsOfItems_eq]
  induction texts with
  | nil => rfl
  | cons t ts ih => simp [textsOf, ih]

theorem grantsProblem_iff (grants : Option (List Text)) :
    grants.bind (fun grants => jsonValueProblem (.arr (grants.map .str)) (js "grants")) = none ↔
      ¬∃ t ∈ grants.getD [], 0 ∈ t ∨ isWellFormed t = false := by
  cases grants with
  | none => simp
  | some grants =>
    rw [Option.bind_some, jsonValueProblem_iff, depth_texts, textsOf_texts]
    simp [maxPayloadDepth]

theorem itemProblem_deep (event : EventRecord) (h : maxPayloadDepth < depth event.payload) :
    itemProblem event = some tooDeepProblem := by
  rw [itemProblem, jsonValueProblem_deep _ _ h]
  rfl

theorem itemProblem_flat (event : EventRecord) (h : ¬maxPayloadDepth < depth event.payload) :
    (itemProblem event).any (·.tooDeep) = false := by
  have hpayload := jsonValueProblem_any event.payload (js "payload") h
  rw [itemProblem, hpayload]
  simp only [Bool.false_eq_true, if_false]
  split
  · next p hp => simp [textProblem_tooDeep _ p hp]
  · split
    · next p hp =>
      cases hgrants : event.grants with
      | none => simp [hgrants] at hp
      | some grants =>
        rw [hgrants, Option.bind_some] at hp
        have hflat : ¬maxPayloadDepth < depth (.arr (grants.map .str)) := by
          rw [depth_texts]
          decide
        simp [jsonValueProblem_flat _ _ hflat p hp]
    · exact hpayload

theorem itemProblem_tooDeep (event : EventRecord) :
    (itemProblem event).any (·.tooDeep) = decide (maxPayloadDepth < depth event.payload) := by
  by_cases h : maxPayloadDepth < depth event.payload
  · simp [itemProblem_deep event h, h, tooDeepProblem]
  · simp [itemProblem_flat event h, h]

theorem itemProblem_iff (event : EventRecord) :
    itemProblem event = none ↔ ¬Unstorable event := by
  by_cases hdeep : maxPayloadDepth < depth event.payload
  · rw [itemProblem_deep event hdeep]
    simp [Unstorable, hdeep]
  have hpayload := jsonValueProblem_any event.payload (js "payload") hdeep
  have htext := textProblem_iff (textFields event)
  have hgrants := grantsProblem_iff event.grants
  have hvalue := jsonValueProblem_iff event.payload (js "payload")
  have hjson : JsonUnfit event ↔ (∃ t ∈ event.grants.getD [], 0 ∈ t ∨ isWellFormed t = false) ∨
      ∃ t ∈ textsOf event.payload, 0 ∈ t ∨ isWellFormed t = false := by
    simp only [JsonUnfit, jsonTexts, List.mem_append, or_and_right, exists_or]
  rw [Unstorable, hjson, TextUnfit, itemProblem, hpayload]
  simp only [Bool.false_eq_true, if_false]
  cases ht : textProblem (textFields event) with
  | some p =>
    rw [ht] at htext
    simp only [reduceCtorEq, false_iff, not_not] at htext
    exact iff_of_false (Option.some_ne_none p) (not_not.mpr (Or.inr (Or.inl htext)))
  | none =>
    rw [ht] at htext
    cases hg : event.grants.bind
        (fun grants => jsonValueProblem (.arr (grants.map .str)) (js "grants")) with
    | some p =>
      rw [hg] at hgrants
      simp only [reduceCtorEq, false_iff, not_not] at hgrants
      exact iff_of_false (Option.some_ne_none p) (not_not.mpr (Or.inr (Or.inr (Or.inl hgrants))))
    | none =>
      rw [hg] at hgrants
      simp only [true_iff] at htext hgrants
      simp only [hvalue, hdeep, htext, hgrants, false_or]

mutual

theorem storable_iff (v : Json) : v.storable = true ↔ ∀ t ∈ textsOf v, textStorable t = true := by
  cases v with
  | arr items =>
    rw [Json.storable, textsOf]
    exact storableItems_iff items
  | obj members =>
    rw [Json.storable, textsOf]
    exact storableMembers_iff members
  | _ => simp [Json.storable, textsOf]

theorem storableItems_iff (items : List Json) :
    storableItems items = true ↔ ∀ t ∈ textsOfItems items, textStorable t = true := by
  cases items with
  | nil => simp [storableItems, textsOfItems]
  | cons v vs =>
    simp only [storableItems, textsOfItems, Bool.and_eq_true, storable_iff v, storableItems_iff vs,
      List.forall_mem_append]

theorem storableMembers_iff (members : List (Text × Json)) :
    storableMembers members = true ↔ ∀ t ∈ textsOfMembers members, textStorable t = true := by
  cases members with
  | nil => simp [storableMembers, textsOfMembers]
  | cons m ms =>
    simp only [storableMembers, textsOfMembers, Bool.and_eq_true, storable_iff m.2,
      storableMembers_iff ms, List.forall_mem_cons, List.forall_mem_append, and_assoc]

end

theorem textStorable_iff (t : Text) :
    textStorable t = true ↔ ¬(0 ∈ t ∨ isWellFormed t = false) := by
  simp [textStorable, hasNul]

theorem isHex_hexDigit (n : UInt8) (h : n < 16) : isHex (hexDigit n) = true := by
  have hall : ∀ k : Fin 16, isHex (hexDigit (UInt8.ofNat k)) = true := by decide +kernel
  have := hall ⟨n.toNat, h⟩
  rwa [UInt8.ofNat_toNat] at this

theorem isHex_hexByte (b : UInt8) (u : UInt16) (hu : u ∈ hexByte b) : isHex u = true := by
  simp only [hexByte, List.mem_cons, List.not_mem_nil, or_false] at hu
  rcases hu with rfl | rfl
  · apply isHex_hexDigit
    rw [UInt8.lt_iff_toNat_lt, UInt8.toNat_div]
    have := b.toNat_lt
    simp only [UInt8.reduceToNat]
    omega
  · apply isHex_hexDigit
    rw [UInt8.lt_iff_toNat_lt, UInt8.toNat_mod]
    simp only [UInt8.reduceToNat]
    omega

theorem length_hexBytes (bytes : List UInt8) : (bytes.flatMap hexByte).length = 2*bytes.length := by
  induction bytes with
  | nil => rfl
  | cons b bs ih =>
    rw [List.flatMap_cons, List.length_append, ih, List.length_cons]
    simp only [hexByte, List.length_cons, List.length_nil]
    omega

theorem isUuid_groups (x : Text) (hlen : x.length = 32) (hx : ∀ u ∈ x, isHex u = true) :
    isUuid (x.take 8++dash::(x.drop 8).take 4++dash::(x.drop 12).take 4++
      dash::(x.drop 16).take 4++dash::(x.drop 20).take 12) = true := by
  have hno : ∀ part : Text, (∀ u ∈ part, u ∈ x) → dash ∉ part := by
    intro part hpart hd
    exact absurd (hx dash (hpart dash hd)) (by decide)
  have htake : ∀ i n, ∀ u ∈ (x.drop i).take n, u ∈ x :=
    fun i n u hu => List.mem_of_mem_drop (List.mem_of_mem_take hu)
  have hfirst : ∀ u ∈ x.take 8, u ∈ x := fun u hu => List.mem_of_mem_take hu
  have hsplit : (x.take 8++dash::(x.drop 8).take 4++dash::(x.drop 12).take 4++
      dash::(x.drop 16).take 4++dash::(x.drop 20).take 12).splitOn dash =
      [x.take 8, (x.drop 8).take 4, (x.drop 12).take 4, (x.drop 16).take 4,
        (x.drop 20).take 12] := by
    simp only [List.append_assoc, List.cons_append]
    rw [List.splitOn_append_cons_self_of_not_mem (hno _ hfirst),
      List.splitOn_append_cons_self_of_not_mem (hno _ (htake 8 4)),
      List.splitOn_append_cons_self_of_not_mem (hno _ (htake 12 4)),
      List.splitOn_append_cons_self_of_not_mem (hno _ (htake 16 4)),
      List.splitOn_eq_singleton (hno _ (htake 20 12))]
  have hall : ∀ u ∈ x.take 8++(x.drop 8).take 4++(x.drop 12).take 4++(x.drop 16).take 4++
      (x.drop 20).take 12, isHex u = true := by
    intro u hu
    apply hx
    simp only [List.mem_append] at hu
    rcases hu with (((hu | hu) | hu) | hu) | hu
    · exact hfirst u hu
    · exact htake 8 4 u hu
    · exact htake 12 4 u hu
    · exact htake 16 4 u hu
    · exact htake 20 12 u hu
  simp only [isUuid, uuidShape]
  rw [hsplit]
  simp only [List.all_eq_true.mpr hall, List.length_take, List.length_drop, hlen, Bool.and_true,
    List.all_eq_true.mpr (fun _ _ => rfl)]
  rfl

theorem isUuid_uuidV8 (digest : List UInt8) (h : 16 ≤ digest.length) :
    isUuid (uuidV8 digest) = true := by
  apply isUuid_groups
  · rw [length_hexBytes]
    simp only [List.length_modify, List.length_take]
    omega
  · intro u hu
    obtain ⟨b, -, hb⟩ := List.mem_flatMap.mp hu
    exact isHex_hexByte b u hb

theorem sizePass_refuses (cs : List Candidate) : (sizePass cs).2 = cs.find? oversized := by
  induction cs with
  | nil => rfl
  | cons c cs ih =>
    rw [sizePass, List.find?_cons, oversized]
    split_ifs with hdeep hsize
    · simp [hdeep, ih]
    · simp [hdeep, hsize]
    · simp [hdeep, hsize, ih]

theorem sizePass_measures (cs : List Candidate) (p : Json) (hp : p ∈ (sizePass cs).1) :
    ∃ c ∈ cs, c.event.payload = p ∧ c.problem.any (·.tooDeep) = false := by
  induction cs with
  | nil => cases hp
  | cons c cs ih =>
    rw [sizePass] at hp
    split_ifs at hp with hdeep hsize
    · obtain ⟨d, hd, hpd⟩ := ih hp
      exact ⟨d, List.mem_cons_of_mem c hd, hpd⟩
    · rw [List.mem_singleton] at hp
      exact ⟨c, List.mem_cons_self, hp.symm, by simpa using hdeep⟩
    · rcases List.mem_cons.mp hp with rfl | hp
      · exact ⟨c, List.mem_cons_self, rfl, by simpa using hdeep⟩
      · obtain ⟨d, hd, hpd⟩ := ih hp
        exact ⟨d, List.mem_cons_of_mem c hd, hpd⟩

section Batch
variable (R : IdRuntime) (now : Instant) (q : EventsRequest)

def candidate (e : Json × ℕ) : Candidate :=
  ⟨e.2, e.1, record R now e.1, itemProblem (record R now e.1)⟩

theorem candidates_eq (raws : List Json) (index : ℕ) :
    candidatesFrom R.parseDate now index raws =
      ((raws.zipIdx index).filter (·.1.isObject)).map (candidate R now) := by
  induction raws generalizing index with
  | nil => rfl
  | cons raw raws ih =>
    rw [candidatesFrom, List.zipIdx_cons, List.filter_cons]
    split_ifs with h
    · rw [List.map_cons, ih]
      rfl
    · exact ih (index+1)

theorem problem_isNone (e : Json × ℕ) :
    (candidate R now e).problem.isNone = decide ¬Unstorable (record R now e.1) := by
  rw [Bool.eq_iff_iff, Option.isNone_iff_eq_none, decide_eq_true_eq]
  exact itemProblem_iff _

theorem problem_isSome (e : Json × ℕ) :
    (candidate R now e).problem.isSome = decide (Unstorable (record R now e.1)) := by
  rw [← Option.not_isNone, problem_isNone, decide_not, Bool.not_not]

def stored (e : Json × ℕ) : EventRecord := identified R q (candidate R now e)

theorem normalized_eq (raws : List Json) :
    (((objects raws).map (candidate R now)).filter (·.problem.isNone)).map (identified R q) =
      (kept R now raws).map (stored R now q) := by
  have hfilter : (objects raws).filter ((·.problem.isNone) ∘ candidate R now) =
      kept R now raws := by
    apply List.filter_congr
    intro e _
    exact problem_isNone R now e
  rw [List.filter_map, hfilter, List.map_map]
  rfl

theorem dropped_eq (raws : List Json) :
    ((objects raws).map (candidate R now)).countP (·.problem.isSome) =
      (refused R now raws).length := by
  rw [List.countP_map, refused, ← List.countP_eq_length_filter]
  apply List.countP_congr
  intro e _
  simp only [Function.comp_apply, problem_isSome]

def report (e : Json × ℕ) : Option ItemError := itemError (candidate R now e)

theorem report_isSome (e : Json × ℕ) :
    (report R now e).isSome = decide (Unstorable (record R now e.1)) := by
  rw [report, itemError, Option.isSome_map, problem_isSome]

theorem errors_eq (raws : List Json) :
    ((objects raws).map (candidate R now)).filterMap itemError =
      (refused R now raws).filterMap (report R now) := by
  rw [List.filterMap_map, refused, List.filterMap_filter]
  apply List.filterMap_congr
  intro e _
  have hsome := report_isSome R now e
  by_cases hu : Unstorable (record R now e.1)
  · rw [if_pos (decide_eq_true hu)]
    rfl
  · rw [decide_eq_false hu, Option.isSome_eq_false_iff, Option.isNone_iff_eq_none] at hsome
    rw [if_neg (by simpa using hu)]
    exact hsome

theorem prepare_ok (body : Json) (raws : List Json) (hraws : rawEvents body = some raws)
    (b : Batch) (h : prepare R now q body = .ok b) :
    raws.length ≤ maxBatchEvents ∧ b.normalized = (kept R now raws).map (stored R now q) ∧
      b.dropped = (refused R now raws).length ∧
      b.errors = ((refused R now raws).filterMap (report R now)).take maxReportedErrors := by
  have hcandidates : candidatesFrom R.parseDate now 0 raws =
      (objects raws).map (candidate R now) := candidates_eq R now raws 0
  unfold prepare at h
  rw [hraws] at h
  simp only at h
  split_ifs at h with hlen
  split at h
  · cases h
  · simp only [Except.ok.injEq] at h
    subst h
    rw [hcandidates]
    exact ⟨by omega, normalized_eq R now q raws, dropped_eq R now raws,
      congrArg (List.take _) (errors_eq R now raws)⟩

theorem report_indices (es : List (Json × ℕ)) (h : ∀ e ∈ es, Unstorable (record R now e.1)) :
    (es.filterMap (report R now)).map (·.index) = es.map Prod.snd := by
  induction es with
  | nil => rfl
  | cons e es ih =>
    have hsome := report_isSome R now e
    rw [decide_eq_true (h e List.mem_cons_self), Option.isSome_iff_exists] at hsome
    obtain ⟨err, herr⟩ := hsome
    have hindex : err.index = e.2 := by
      simp only [report, itemError, Option.map_eq_some_iff] at herr
      obtain ⟨p, -, rfl⟩ := herr
      rfl
    rw [List.filterMap_cons_some herr, List.map_cons, List.map_cons, hindex,
      ih (fun e he => h e (List.mem_cons_of_mem _ he))]

theorem mem_objects (raws : List Json) (e : Json × ℕ) :
    e ∈ objects raws ↔ raws[e.2]? = some e.1 ∧ e.1.isObject = true := by
  rw [objects, List.mem_filter, List.mem_zipIdx_iff_getElem?]

theorem mem_refused (raws : List Json) (e : Json × ℕ) : e ∈ refused R now raws ↔
    raws[e.2]? = some e.1 ∧ e.1.isObject = true ∧ Unstorable (record R now e.1) := by
  rw [refused, List.mem_filter, mem_objects, decide_eq_true_eq, and_assoc]

theorem mem_kept (raws : List Json) (e : Json × ℕ) : e ∈ kept R now raws ↔
    raws[e.2]? = some e.1 ∧ e.1.isObject = true ∧ ¬Unstorable (record R now e.1) := by
  rw [kept, List.mem_filter, mem_objects, decide_eq_true_eq, and_assoc]

theorem record_ts (hnow : instantStorable now = true) (raw : Json) :
    instantStorable (record R now raw).ts = true := by
  have hparse : ∀ t ∈ parseEventTimestamp R.parseDate (raw.get (js "ts")),
      instantStorable t = true := by
    intro t ht
    rw [Option.mem_def] at ht
    unfold parseEventTimestamp at ht
    split at ht
    · exact (Option.filter_eq_some_iff.mp ht).2
    · exact (Option.filter_eq_some_iff.mp ht).2
    · cases ht
  show instantStorable ((parseEventTimestamp R.parseDate (raw.get (js "ts"))).getD now) = true
  cases hp : parseEventTimestamp R.parseDate (raw.get (js "ts")) with
  | none => exact hnow
  | some t => exact hparse t hp

end Batch

theorem fits_textFields (event : EventRecord) (h : ¬TextUnfit event) (field : Text)
    (value : Option Text) (max : ℕ) (hm : (field, value, max) ∈ textFields event) :
    value.all (fitsVarchar max) = true := by
  cases value with
  | none => rfl
  | some t =>
    rw [Option.all_some, fitsVarchar_iff]
    exact fun hbad => h ⟨_, hm, t, rfl, hbad⟩

theorem jsonTexts_storable (event : EventRecord) (h : ¬JsonUnfit event) (t : Text)
    (ht : t ∈ jsonTexts event) : textStorable t = true := by
  rw [textStorable_iff]
  exact fun hbad => h ⟨t, ht, hbad⟩

theorem insertable_of_storable (event : EventRecord) (h : ¬Unstorable event)
    (hid : isUuid event.id = true) (hts : instantStorable event.ts = true) :
    Insertable event := by
  have htext := fits_textFields event (fun ht => h (Or.inr (Or.inl ht)))
  have hjson := jsonTexts_storable event (fun hj => h (Or.inr (Or.inr hj)))
  constructor
  · exact hid
  · have := htext (js "type") (some event.type) 128 (by simp [textFields])
    rwa [Option.all_some] at this
  · exact hts
  · exact htext (js "aidA") event.aidA 512 (by simp [textFields])
  · exact htext (js "aidB") event.aidB 512 (by simp [textFields])
  · exact htext (js "sessionId") event.sessionId 255 (by simp [textFields])
  · exact htext (js "runId") event.runId 255 (by simp [textFields])
  · intro grants hg
    rw [storable_iff, textsOf_texts]
    intro t ht
    apply hjson
    rw [jsonTexts, Option.mem_def.mp hg]
    exact List.mem_append_left _ ht
  · rw [storable_iff]
    exact fun t ht => hjson t (List.mem_append_right _ ht)
  · exact htext (js "source") event.source 128 (by simp [textFields])

theorem isUuid_eventIdFor (R : IdRuntime) (hsha : ∀ t, (R.sha256 t).length = 32) (raw : Json)
    (producer : Option Text) (random : Text) (hrandom : isUuid random = true) :
    isUuid (eventIdFor R raw producer random) = true := by
  unfold eventIdFor
  split_ifs
  · apply isUuid_uuidV8
    rw [hsha]
    decide
  · exact hrandom

/-- Exactly what the insert could not store is dropped. What is nested too deep
is found so whatever else is wrong with it, and is not measured. -/
theorem validation_exact (R : IdRuntime) (hsha : ∀ t, (R.sha256 t).length = 32) (now : Instant)
    (hnow : instantStorable now = true) (q : EventsRequest)
    (hrandom : ∀ i, isUuid (q.random i) = true) (body : Json) (raws : List Json)
    (hraws : rawEvents body = some raws) :
    (∀ root field, jsonValueWalk root field = some (jsonValueProblem root field)) ∧
    (∀ raw, maxPayloadDepth < depth (record R now raw).payload →
      itemProblem (record R now raw) = some tooDeepProblem) ∧
    (sizePass (candidatesFrom R.parseDate now 0 raws)).2 =
      (candidatesFrom R.parseDate now 0 raws).find? oversized ∧
    (∀ p ∈ (sizePass (candidatesFrom R.parseDate now 0 raws)).1, depth p ≤ maxPayloadDepth) ∧
    ∀ b, prepare R now q body = .ok b →
      b.normalized = (kept R now raws).map (stored R now q) ∧
      (∀ e ∈ b.normalized, Insertable e ∧ depth e.payload ≤ maxPayloadDepth) ∧
      b.unique.length*10 ≤ maxParameters ∧
      b.dropped = (refused R now raws).length ∧
      b.errors.map (·.index) = ((refused R now raws).map Prod.snd).take maxReportedErrors ∧
      ∀ err ∈ b.errors, ∃ raw p, raws[err.index]? = some raw ∧ raw.isObject = true ∧
        itemProblem (record R now raw) = some p ∧ err.field = p.field ∧ err.reason = p.reason ∧
        (p.tooDeep = true ↔ maxPayloadDepth < depth (record R now raw).payload) := by
  constructor
  · exact jsonValueWalk_eq
  constructor
  · exact fun raw h => itemProblem_deep _ h
  constructor
  · exact sizePass_refuses _
  constructor
  · intro p hp
    obtain ⟨c, hc, rfl, hdeep⟩ := sizePass_measures _ p hp
    rw [candidates_eq] at hc
    obtain ⟨e, -, rfl⟩ := List.mem_map.mp hc
    have := itemProblem_tooDeep (record R now e.1)
    rw [show (itemProblem (record R now e.1)).any (·.tooDeep) = false from hdeep] at this
    have hflat := of_decide_eq_false this.symm
    show depth (record R now e.1).payload ≤ maxPayloadDepth
    omega
  intro b hb
  obtain ⟨hlen, hnormalized, hdropped, herrors⟩ := prepare_ok R now q body raws hraws b hb
  have hindices := report_indices R now (refused R now raws)
    (fun e he => ((mem_refused R now raws e).mp he).2.2)
  constructor
  · exact hnormalized
  constructor
  · intro e he
    rw [hnormalized] at he
    obtain ⟨entry, hentry, rfl⟩ := List.mem_map.mp he
    have hfit := ((mem_kept R now raws entry).mp hentry).2.2
    constructor
    · exact insertable_of_storable (stored R now q entry) hfit
        (isUuid_eventIdFor R hsha _ _ _ (hrandom _)) (record_ts R now hnow entry.1)
    · have : ¬maxPayloadDepth < depth (record R now entry.1).payload := fun h => hfit (Or.inl h)
      show depth (record R now entry.1).payload ≤ maxPayloadDepth
      omega
  constructor
  · have hunique : b.unique.length ≤ b.normalized.length :=
      (firstOfEach_sublist [] b.normalized).length_le
    have hkept : (kept R now raws).length ≤ raws.length :=
      (List.length_filter_le _ _).trans ((List.length_filter_le _ _).trans_eq List.length_zipIdx)
    rw [hnormalized, List.length_map] at hunique
    simp only [maxBatchEvents, maxParameters] at *
    omega
  constructor
  · exact hdropped
  constructor
  · rw [herrors, List.map_take, hindices]
  · intro err herr
    rw [herrors] at herr
    obtain ⟨entry, hentry, hreport⟩ := List.mem_filterMap.mp (List.mem_of_mem_take herr)
    have hraw := (mem_refused R now raws entry).mp hentry
    simp only [report, itemError, Option.map_eq_some_iff] at hreport
    obtain ⟨p, hp, rfl⟩ := hreport
    have hdeep := itemProblem_tooDeep (record R now entry.1)
    rw [show itemProblem (record R now entry.1) = some p from hp, Option.any_some] at hdeep
    exact ⟨entry.1, p, hraw.1, hraw.2.1, hp, rfl, rfl, by rw [hdeep, decide_eq_true_eq]⟩

def plainRuntime : IdRuntime := ⟨⟨id, fun _ => none⟩, fun _ => none, fun _ => List.replicate 32 0⟩

def plainId : Text := js "6f1d3a52-0c4e-4b7a-9d21-5e8f7a6b4c30"

theorem isUuid_plainId : isUuid plainId = true := by decide

def plainRequest : EventsRequest := ⟨[], ⟨false, none⟩, 0, fun _ => plainId⟩

def mixedBatch : List Json :=
  [.null, .obj [(js "type", .str (js "tct.issued"))], .obj [(js "runId", .str [0x72, 0])]]

theorem validation_mixed : ∃ b, prepare plainRuntime 0 plainRequest (.arr mixedBatch) = .ok b ∧
    b.dropped = 1 ∧ b.errors.map (·.index) = [2] ∧ ∀ e ∈ b.normalized, Insertable e := by
  have h := validation_exact plainRuntime (fun _ => rfl) 0 (by decide) plainRequest
    (fun _ => isUuid_plainId) (.arr mixedBatch) mixedBatch rfl
  obtain ⟨-, -, -, -, h⟩ := h
  refine ⟨_, rfl, ?_⟩
  obtain ⟨-, hstored, -, hdropped, hindices, -⟩ := h _ rfl
  exact ⟨hdropped.trans (by decide), hindices.trans (by decide), fun e he => (hstored e he).1⟩

def nested : ℕ → Json
  | 0 => .null
  | n+1 => .arr [nested n]

def deepEntry : Json := .obj [(js "payload", nested 65)]

/-- Of twenty-one entries that are nested too deep one is not reported. -/
theorem reports_capped : ∃ b,
    prepare plainRuntime 0 plainRequest (.arr (List.replicate 21 deepEntry)) = .ok b ∧
      maxPayloadDepth < depth (record plainRuntime 0 deepEntry).payload ∧ b.dropped = 21 ∧
      ∀ err ∈ b.errors, err.index ≠ 20 := by
  refine ⟨_, rfl, ?_⟩
  decide +kernel

end ControlPlane.EventValidation
