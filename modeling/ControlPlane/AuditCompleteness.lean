import Mathlib.Data.Nat.Digits.Lemmas
import ControlPlane.AgentRoute

/-!
# Completeness of the admin audit log

A successful mutation is recorded if its row can be stored. The gate forwards
the client's request id at any length, and four fields of two bodies reach
the JSON details as the client wrote them; everything else that a row holds
fits its column.
-/

set_option autoImplicit false

namespace ControlPlane.AuditCompleteness
open ControlPlane.JsText ControlPlane.JsValue ControlPlane.HttpValidate ControlPlane.RequestGate
open ControlPlane.AdminAudit ControlPlane.AdminRoutes ControlPlane.AgentRoute
open ControlPlane.TctMonitor ControlPlane.RevocationRoute

/-- The audited mutations, each with what its handler meets. -/
inductive Mutation where
  | postRevocation (M : Monitor) (parseDate : Text → Option Instant) (now : Instant)
      (body : RequestBody) (tables : Tables)
  | createWebhook (assertSafe : Text → Option Text) (id : FreshId) (body : RequestBody)
  | updateWebhook (assertSafe : Text → Option Text) (id : Text) (found : Bool)
      (body : RequestBody)
  | deleteWebhook (id : Text) (found : Bool)
  | resetCircuitBreaker (id : Text)
  | createTrustAnchor (id : FreshId) (conflict : Bool) (body : RequestBody)
  | updateTrustAnchor (id : Text) (found conflict : Bool) (updatedAt : Timestamp)
      (body : RequestBody)
  | deleteTrustAnchor (id : Text) (found : Bool)
  | registerAgent (service : Service) (now : Instant) (tooLarge : Bool) (body : Text)
      (registered : Option Bool)

def handle (h : Headers) (log : AuditLog) : Mutation → Outcome
  | .postRevocation M parseDate now body t => (postRevocation M parseDate now body h t log).1
  | .createWebhook assertSafe id body => createWebhook assertSafe id body h log
  | .updateWebhook assertSafe id found body => updateWebhook assertSafe id found body h log
  | .deleteWebhook id found => deleteWebhook id found h log
  | .resetCircuitBreaker id => resetCircuitBreaker id h log
  | .createTrustAnchor id conflict body => createTrustAnchor id conflict body h log
  | .updateTrustAnchor id found conflict updatedAt body =>
    updateTrustAnchor id found conflict updatedAt body h log
  | .deleteTrustAnchor id found => deleteTrustAnchor id found h log
  | .registerAgent service now tooLarge body registered =>
    registerAgent service now tooLarge body registered h log

def action : Mutation → Text
  | .postRevocation _ _ _ _ _ => js "revocation.add"
  | .createWebhook _ _ _ => js "webhook.create"
  | .updateWebhook _ _ _ _ => js "webhook.update"
  | .deleteWebhook _ _ => js "webhook.delete"
  | .resetCircuitBreaker _ => js "webhook.circuit-breaker.reset"
  | .createTrustAnchor _ _ _ => js "trust-anchor.create"
  | .updateTrustAnchor _ _ _ _ _ => js "trust-anchor.update"
  | .deleteTrustAnchor _ _ => js "trust-anchor.delete"
  | .registerAgent _ _ _ _ _ => js "agent.register"

def WellFormedField (b : RequestBody) (key : Text) : Prop :=
  ∀ body ∈ b.parsed, ∀ t ∈ stringField body key, isWellFormed t = true

instance (b : RequestBody) (key : Text) : Decidable (WellFormedField b key) :=
  inferInstanceAs (Decidable (∀ body ∈ b.parsed, ∀ t ∈ stringField body key, _))

def copiedFields : Mutation → Option (RequestBody × List Text)
  | .updateWebhook _ _ _ body => some (body, [js "url"])
  | .createTrustAnchor _ _ body => some (body, [js "namespace", js "issuerUrl"])
  | .updateTrustAnchor _ _ _ _ body => some (body, [js "issuerUrl", js "jwksUrl", js "label"])
  | _ => none

def WellFormedDetails (m : Mutation) : Prop :=
  ∀ c ∈ copiedFields m, ∀ key ∈ c.2, WellFormedField c.1 key

instance (m : Mutation) : Decidable (WellFormedDetails m) :=
  inferInstanceAs (Decidable (∀ c ∈ copiedFields m, ∀ key ∈ c.2, _))

def RequestIdFits (r : Request) : Prop :=
  ∀ v ∈ get r.headers requestIdHeader, codePoints v ≤ 255

instance (r : Request) : Decidable (RequestIdFits r) :=
  inferInstanceAs (Decidable (∀ v ∈ get r.headers requestIdHeader, _))

/-- A handler wrote one audit entry whose target and action fit, and whose
details fit exactly under a condition. -/
def Writes (act : Text) (fits : Prop) (h : Headers) (log log' : AuditLog) : Prop :=
  ∃ entry fallback, log' = writeAdminAudit entry (auditContext h fallback) log ∧
    entry.action = act ∧ fitsVarchar 128 act = true ∧
      entry.targetId.all (fitsVarchar 512) = true ∧
        (present fallback).all (fitsVarchar 255) = true ∧
          clientIpKey ∉ entry.details.map Prod.fst ∧
            (storableMembers entry.details = true ↔ fits)

section Gate
variable (cfg : GateConfig) (s : IdSource) (r : Request) (keyLabel keyIssuer : Option Text)

theorem get_setSome_other (h h' : Headers) (name other : Text) (value : Option Text)
    (hne : other ≠ name) (hs : setSome h name value = some h') : get h' other = get h other := by
  cases value with
  | none => simp only [setSome, Option.some.injEq] at hs; rw [hs]
  | some v => exact get_set_other h h' name other v hne hs

theorem get_setSome_same (h h' : Headers) (name : Text) (value : Option Text)
    (hnone : get h name = none) (hs : setSome h name value = some h') :
    get h' name = value.map normalizeValue := by
  cases value with
  | none => simp only [setSome, Option.some.injEq] at hs; rw [← hs, hnone]; rfl
  | some v => exact get_set_same h h' name v hs

theorem passThrough_requestId (h : Headers)
    (hp : passThrough cfg s r keyLabel keyIssuer = some h) :
    get h requestIdHeader = some (normalizeValue (resolveRequestId s r)) := by
  simp only [passThrough, Option.bind_eq_bind, Option.bind_eq_some_iff] at hp
  obtain ⟨identified, hid, labelled, hlabel, bound, hbound, hip⟩ := hp
  rw [get_setSome_other _ _ _ _ _ (by decide) hip, get_setSome_other _ _ _ _ _ (by decide) hbound,
    get_setSome_other _ _ _ _ _ (by decide) hlabel, get_delete_other _ _ _ (by decide),
    get_delete_other _ _ _ (by decide), get_delete_other _ _ _ (by decide)]
  exact get_set_same _ _ _ _ hid

theorem passThrough_keyLabel (h : Headers)
    (hp : passThrough cfg s r keyLabel keyIssuer = some h) :
    get h keyLabelHeader = (present keyLabel).map normalizeValue := by
  simp only [passThrough, Option.bind_eq_bind, Option.bind_eq_some_iff] at hp
  obtain ⟨identified, -, labelled, hlabel, bound, hbound, hip⟩ := hp
  rw [get_setSome_other _ _ _ _ _ (by decide) hip, get_setSome_other _ _ _ _ _ (by decide) hbound]
  apply get_setSome_same _ _ _ _ ?_ hlabel
  rw [get_delete_other _ _ _ (by decide), get_delete_other _ _ _ (by decide)]
  exact get_delete_same _ _

theorem normalizeValue_length (t : Text) : (normalizeValue t).length ≤ t.length :=
  (List.rdropWhile_prefix _ _).length_le.trans (List.dropWhile_sublist _).length_le

theorem toBase36_length (n : ℕ) (h : (n : ℤ) ≤ maxDateMs) : (toBase36 n).length ≤ 11 := by
  unfold toBase36
  split
  · decide
  · rw [List.length_reverse, List.length_map, Nat.digits_length_le_iff (by norm_num)]
    simp only [maxDateMs] at h
    omega

theorem newRequestId_length : (newRequestId s).length ≤ 23 := by
  have hnow := toBase36_length s.now s.valid
  have hshort := s.short
  have hcp : (js "cp-").length = 3 := by decide
  have hdash : (js "-").length = 1 := by decide
  simp only [newRequestId, List.length_append, hcp, hdash]
  omega

theorem requestId_fits (h : Headers) (hp : passThrough cfg s r keyLabel keyIssuer = some h) :
    (present (get h requestIdHeader)).all (fitsVarchar 255) = true ↔ RequestIdFits r := by
  have hget := passThrough_requestId cfg s r keyLabel keyIssuer h hp
  have hlegal := get_legal h _ _ hget
  have hall : (present (get h requestIdHeader)).all (fitsVarchar 255) = true ↔
      (normalizeValue (resolveRequestId s r)).length ≤ 255 := by
    rw [hget]
    by_cases hv : normalizeValue (resolveRequestId s r) = []
    · simp [present, Option.filter, hv]
    · simp [present, Option.filter, hv, headerValue_fits 255 _ hlegal]
  rw [hall]
  cases hc : get r.headers requestIdHeader with
  | none =>
    have hlen := (normalizeValue_length (newRequestId s)).trans (newRequestId_length s)
    simp only [resolveRequestId, hc, Option.getD_none, RequestIdFits, Option.mem_def, reduceCtorEq,
      false_implies, implies_true, iff_true]
    omega
  | some v =>
    have hv := Bool.and_eq_true_iff.mp (get_legal r.headers _ _ hc)
    have hnorm : normalizeValue v = v := of_decide_eq_true hv.2
    simp [resolveRequestId, hc, RequestIdFits, hnorm, codePoints_of_headerUnits v hv.1]

theorem keyLabel_length (label : Text) (h : isKeyLabel label = true) : label.length ≤ 40 := by
  unfold isKeyLabel at h
  split at h
  · cases h
  · simp only [Bool.and_eq_true, decide_eq_true_eq] at h
    simp only [List.length_cons]
    omega

theorem authenticate_label (token : Option Text) (isPublic : Bool) (label : Text)
    (h : authenticate cfg r token isPublic = .ok (some label, keyIssuer)) :
    isKeyLabel label = true := by
  unfold authenticate at h
  simp only at h
  split at h
  · next e _ =>
    simp only [Except.ok.injEq, Prod.mk.injEq, Option.some.injEq] at h
    exact h.1 ▸ e.labelled
  · split at h
    · simp at h
    · split at h
      · split at h <;> simp at h
      · split at h
        · next e _ =>
          simp only [Except.ok.injEq, Prod.mk.injEq, Option.some.injEq] at h
          exact h.1 ▸ e.labelled
        · cases h

theorem actor_fits (h : Headers) (fallback : Option Text)
    (hp : passThrough cfg s r keyLabel keyIssuer = some h)
    (hlabel : ∀ label ∈ keyLabel, isKeyLabel label = true)
    (hf : (present fallback).all (fitsVarchar 255) = true) :
    (auditContext h fallback).actorId.all (fitsVarchar 255) = true := by
  simp only [auditContext]
  cases hc : present (get h keyLabelHeader) with
  | none => exact hf
  | some v =>
    obtain ⟨hget, -⟩ := Option.filter_eq_some_iff.mp hc
    have hlegal := get_legal h _ _ hget
    have hlen : v.length ≤ 40 := by
      rw [passThrough_keyLabel cfg s r keyLabel keyIssuer h hp] at hget
      obtain ⟨label, hl, rfl⟩ := Option.map_eq_some_iff.mp hget
      obtain ⟨hl', -⟩ := Option.filter_eq_some_iff.mp hl
      exact (normalizeValue_length label).trans (keyLabel_length label (hlabel label hl'))
    have hkey : hasNul (js "key:") = false := by decide
    have hkeylen : (js "key:").length = 4 := by decide
    have hnul := hasNul_of_headerUnits v (Bool.and_eq_true_iff.mp hlegal).1
    have hcp := codePoints_le_length (js "key:"++v)
    simp only [List.length_append, hkeylen] at hcp
    simp only [hasNul, List.contains_eq_mem, decide_eq_false_iff_not] at hkey hnul
    simp only [Option.map_some, Option.some_or, Option.all_some, actorIdForKeyLabel, fitsVarchar,
      Bool.and_eq_true, Bool.not_eq_true', decide_eq_true_eq, hasNul, List.contains_eq_mem,
      decide_eq_false_iff_not, List.mem_append]
    exact ⟨fun hm => hm.elim hkey hnul, by omega⟩

end Gate

section Handlers
variable (h : Headers) (log log' : AuditLog) (status : ℕ)

theorem audited_log (st : ℕ) (entry : AdminAuditEntry) (ctx : AuditContext)
    (ha : audited st entry ctx log = (.success status, log')) :
    log' = writeAdminAudit entry ctx log := (Prod.mk.inj ha).2.symm

theorem writes_uuid (act : Text) (fits : Prop) (st : ℕ) (id : Text)
    (details : List (Text × Json)) (hact : fitsVarchar 128 act = true) (hid : isUuid id = true)
    (hkeys : clientIpKey ∉ details.map Prod.fst)
    (hdetails : storableMembers details = true ↔ fits)
    (hh : audited st ⟨act, some id, details⟩ (auditContext h none) log =
      (.success status, log')) : Writes act fits h log log' := by
  have hlog := audited_log log log' status st _ _ hh
  have htarget : fitsVarchar 512 id = true := fitsVarchar_of_isUuid 512 (by omega) id hid
  exact ⟨_, none, hlog, rfl, hact, htarget, rfl, hkeys, hdetails⟩

theorem member_keys (key other : Text) (value : Option Json) (hne : other ≠ key) :
    other ∉ (member key value).map Prod.fst := by
  cases value with
  | none => simp [member]
  | some v => simpa [member] using hne

theorem storable_member (key : Text) (value : Option Json) (hk : textStorable key = true) :
    storableMembers (member key value) = true ↔ ∀ v ∈ value, v.storable = true := by
  cases value with
  | none => simp [member, storableMembers]
  | some v => simp [member, storableMembers, hk]

theorem textStorable_iff (t : Text) (h : hasNul t = false) :
    textStorable t = true ↔ isWellFormed t = true := by simp [textStorable, h]

theorem checkEvents_none (es : List Text) (hc : checkEvents es = none) :
    es.all textStorable = true := by
  induction es with
  | nil => rfl
  | cons e es ih =>
    simp only [checkEvents] at hc
    split at hc
    · cases hc
    · next hnul =>
      split at hc
      · cases hc
      · next hwf =>
        simp only [List.all_cons, Bool.and_eq_true]
        exact ⟨(textStorable_iff e (by simpa using hnul)).mpr (by simpa using hwf), ih hc⟩

theorem textArray_storable (es : List Text) : (textArray es).storable = es.all textStorable :=
  storableItems_map_str es

theorem checkWebhookFields_none (body : Json) (hc : checkWebhookFields body = none) :
    (∀ url ∈ stringField body (js "url"), hasNul url = false) ∧
      ((webhookEvents body).getD []).all textStorable = true := by
  simp only [checkWebhookFields, Option.or_eq_none_iff] at hc
  refine ⟨?_, checkEvents_none _ hc.1.2⟩
  intro url hurl
  have hcu := hc.1.1
  rw [Option.mem_def] at hurl
  simp only [checkUrl, hurl] at hcu
  split at hcu
  · cases hcu
  · next hnul => simpa using hnul

theorem deleteById_writes (act : Text) (st : ℕ) (missing : Problem) (id : Text) (found : Bool)
    (hact : fitsVarchar 128 act = true)
    (hh : deleteById act st missing id found h log = (.success status, log')) :
    Writes act True h log log' := by
  unfold deleteById at hh
  split at hh
  · cases hh
  · next hid =>
    split at hh
    · apply writes_uuid h log log' status act True st id [] hact _ (by simp) _ hh
      · simpa using hid
      · simp [storableMembers]
    · cases hh

theorem resetCircuitBreaker_writes (id : Text)
    (hh : resetCircuitBreaker id h log = (.success status, log')) :
    Writes (js "webhook.circuit-breaker.reset") True h log log' := by
  unfold resetCircuitBreaker at hh
  split at hh
  · cases hh
  · next hid =>
    apply writes_uuid h log log' status _ True 200 id [] (by decide) _ (by simp) _ hh
    · simpa using hid
    · simp [storableMembers]

theorem isUuid_of_isJtiV4 (t : Text) (ht : isJtiV4 t = true) : isUuid t = true := by
  apply uuidShape_mono _ _ _ _ _ _ ?_ (fun _ _ => rfl) (fun _ _ => rfl) t ht
  intro u hu
  simp [isHex, hu]

theorem postRevocation_writes (M : Monitor) (parseDate : Text → Option Instant) (now : Instant)
    (b : RequestBody) (t : Tables)
    (hh : (postRevocation M parseDate now b h t log).1 = (.success status, log')) :
    Writes (js "revocation.add") True h log log' := by
  unfold postRevocation at hh
  split at hh
  · cases hh
  · next body _ =>
    split at hh
    · cases hh
    · cases hh
    · next r iss u hpost =>
      obtain ⟨hr, -, hs, -, -⟩ := post_created M parseDate now body t u r iss hpost
      have hv4 := readJti_ok _ _ (readRevocation_ok parseDate now body r hr).1
      apply writes_uuid h log log' status _ True 201 r.jti _ (by decide) _ _ _ hh
      · exact isUuid_of_isJtiV4 _ hv4
      · simp only [List.map_cons, List.map_nil]
        decide
      · simp only [revokedEvent, Json.storable, storableMembers, Bool.and_eq_true] at hs
        obtain ⟨-, hreason, hiss, -⟩ := hs
        simp [storableMembers, Json.storable, hreason, hiss]

theorem createWebhook_writes (assertSafe : Text → Option Text) (id : FreshId) (b : RequestBody)
    (hh : createWebhook assertSafe id b h log = (.success status, log')) :
    Writes (js "webhook.create") True h log log' := by
  unfold createWebhook at hh
  split at hh
  · cases hh
  · next body _ =>
    split at hh
    · cases hh
    · next url hurl =>
      split at hh
      · cases hh
      · next hcheck =>
        split at hh
        · cases hh
        · obtain ⟨hnul, hevents⟩ := checkWebhookFields_none body hcheck
          apply writes_uuid h log log' status _ True 201 id.text _ (by decide) _ _ _ hh
          · exact id.valid
          · simp only [List.map_cons, List.map_nil]
            decide
          · have hs : textStorable (toWellFormed url) = true := by
              simp [textStorable, hasNul_toWellFormed, hnul url hurl, isWellFormed_toWellFormed]
            have hk1 : textStorable (js "url") = true := by decide
            have hk2 : textStorable (js "events") = true := by decide
            simp [storableMembers, Json.storable, hs, hk1, hk2, textArray_storable, hevents]

theorem readJsonObject_ok (b : RequestBody) (body : Json) (hb : readJsonObject b = .ok body) :
    b.parsed = some body := by
  unfold readJsonObject at hb
  split at hb
  · cases hb
  · split at hb
    · cases hb
    · next members hp =>
      simp only [Except.ok.injEq] at hb
      rw [hp, hb]
    · cases hb

theorem wellFormedField_iff (b : RequestBody) (body : Json) (key : Text)
    (hb : readJsonObject b = .ok body) :
    WellFormedField b key ↔ ∀ t ∈ stringField body key, isWellFormed t = true := by
  simp [WellFormedField, readJsonObject_ok b body hb]

theorem storable_texts (o : Option Text) (hn : ∀ t ∈ o, hasNul t = false) :
    (∀ v ∈ o.map Json.str, v.storable = true) ↔ ∀ t ∈ o, isWellFormed t = true := by
  simp only [Option.mem_map, forall_exists_index, and_imp, forall_apply_eq_imp_iff₂,
    Json.storable]
  exact forall₂_congr (fun t ht => textStorable_iff t (hn t ht))

theorem hasNul_of_check (value field : Text) (max : ℕ) (maxBytes : Option ℕ)
    (hc : checkColumnString value field max maxBytes = none) : hasNul value = false := by
  have := checkColumnString_none value field max maxBytes hc
  simp only [fitsVarchar, Bool.and_eq_true, Bool.not_eq_true'] at this
  exact this.1

theorem hasNul_of_checkUrlColumn (field url : Text) (maxBytes : Option ℕ)
    (hc : checkUrlColumn field maxBytes url = none) : hasNul url = false := by
  unfold checkUrlColumn at hc
  split at hc
  · cases hc
  · exact hasNul_of_check _ _ _ _ hc

theorem webhookUpdateDetails_keys (body : Json) :
    clientIpKey ∉ (webhookUpdateDetails body).map Prod.fst := by
  simp only [webhookUpdateDetails, List.map_append, List.mem_append, not_or]
  exact ⟨⟨⟨member_keys _ _ _ (by decide), member_keys _ _ _ (by decide)⟩,
    member_keys _ _ _ (by decide)⟩, member_keys _ _ _ (by decide)⟩

theorem webhookUpdateDetails_storable (body : Json) (hc : checkWebhookFields body = none) :
    storableMembers (webhookUpdateDetails body) = true ↔
      ∀ t ∈ stringField body (js "url"), isWellFormed t = true := by
  obtain ⟨hnul, hevents⟩ := checkWebhookFields_none body hc
  have hev : ∀ v ∈ (webhookEvents body).map textArray, v.storable = true := by
    intro v hv
    obtain ⟨es, hes, rfl⟩ := Option.mem_map.mp hv
    rw [textArray_storable]
    rw [Option.mem_def] at hes
    simpa [hes] using hevents
  have hact : ∀ v ∈ (boolField body (js "active")).map Json.bool, v.storable = true := by
    intro v hv
    obtain ⟨x, -, rfl⟩ := Option.mem_map.mp hv
    rfl
  have hrot : ∀ v ∈ (stringField body (js "secret")).map (fun _ => Json.bool true),
      v.storable = true := by
    intro v hv
    obtain ⟨x, -, rfl⟩ := Option.mem_map.mp hv
    rfl
  simp only [webhookUpdateDetails, storableMembers_append, Bool.and_eq_true,
    storable_member _ _ (by decide : textStorable (js "url") = true),
    storable_member _ _ (by decide : textStorable (js "events") = true),
    storable_member _ _ (by decide : textStorable (js "active") = true),
    storable_member _ _ (by decide : textStorable (js "secretRotated") = true)]
  rw [storable_texts _ hnul]
  exact ⟨fun hs => hs.1.1.1, fun hs => ⟨⟨⟨hs, hev⟩, hact⟩, hrot⟩⟩

theorem updateWebhook_writes (assertSafe : Text → Option Text) (id : Text) (found : Bool)
    (b : RequestBody) (hh : updateWebhook assertSafe id found b h log = (.success status, log')) :
    Writes (js "webhook.update") (WellFormedField b (js "url")) h log log' := by
  unfold updateWebhook at hh
  split at hh
  · cases hh
  · next hid =>
    split at hh
    · cases hh
    · next body hbody =>
      split at hh
      · cases hh
      · next hcheck =>
        split at hh
        · cases hh
        · split at hh
          · apply writes_uuid h log log' status _ _ 200 id _ (by decide) _
              (webhookUpdateDetails_keys body) _ hh
            · simpa using hid
            · rw [webhookUpdateDetails_storable body hcheck, wellFormedField_iff b body _ hbody]
          · cases hh

theorem readTrustAnchor_ok (body : Json) (a : TrustAnchor) (ha : readTrustAnchor body = .ok a) :
    stringField body (js "issuerUrl") = some a.issuerUrl ∧
      a.namespace_ = (nonEmptyString (body.get (js "namespace"))).getD (js "default") ∧
        hasNul a.issuerUrl = false ∧ hasNul a.namespace_ = false := by
  unfold readTrustAnchor at ha
  split at ha
  · cases ha
  · next url hurl =>
    simp only at ha
    split at ha
    · cases ha
    · next hcheck =>
      simp only [Except.ok.injEq] at ha
      subst ha
      simp only [Option.or_eq_none_iff] at hcheck
      exact ⟨hurl, rfl, hasNul_of_checkUrlColumn _ _ _ hcheck.1.1.1,
        hasNul_of_check _ _ _ _ hcheck.1.1.2⟩

theorem nonEmpty_wellFormed (v : Option Json) (default : Text)
    (hd : isWellFormed default = true) :
    isWellFormed ((nonEmptyString v).getD default) = true ↔
      ∀ t ∈ v.bind Json.string?, isWellFormed t = true := by
  match v with
  | some (.str []) => simpa [nonEmptyString, Json.string?, isWellFormed] using hd
  | some (.str (u::t)) => simp [nonEmptyString, Json.string?]
  | none => simpa [nonEmptyString] using hd
  | some .null => simpa [nonEmptyString, Json.string?] using hd
  | some (.bool _) => simpa [nonEmptyString, Json.string?] using hd
  | some (.num _) => simpa [nonEmptyString, Json.string?] using hd
  | some (.arr _) => simpa [nonEmptyString, Json.string?] using hd
  | some (.obj _) => simpa [nonEmptyString, Json.string?] using hd

theorem createTrustAnchor_writes (id : FreshId) (conflict : Bool) (b : RequestBody)
    (hh : createTrustAnchor id conflict b h log = (.success status, log')) :
    Writes (js "trust-anchor.create")
      (WellFormedField b (js "namespace") ∧ WellFormedField b (js "issuerUrl")) h log log' := by
  unfold createTrustAnchor at hh
  split at hh
  · cases hh
  · next body hbody =>
    split at hh
    · cases hh
    · next a ha =>
      split at hh
      · cases hh
      · obtain ⟨hissuer, hname, hn1, hn2⟩ := readTrustAnchor_ok body a ha
        apply writes_uuid h log log' status _ _ 201 id.text _ (by decide) _ _ _ hh
        · exact id.valid
        · simp only [List.map_cons, List.map_nil]
          decide
        · have hk1 : textStorable (js "namespace") = true := by decide
          have hk2 : textStorable (js "issuerUrl") = true := by decide
          have hns : textStorable a.namespace_ = true ↔
              ∀ t ∈ stringField body (js "namespace"), isWellFormed t = true := by
            rw [textStorable_iff _ hn2, hname]
            exact nonEmpty_wellFormed _ _ (by decide)
          rw [wellFormedField_iff b body _ hbody, wellFormedField_iff b body _ hbody, hissuer]
          simp only [storableMembers, hk1, hk2, Json.storable, Bool.true_and, Bool.and_true,
            Bool.and_eq_true, textStorable_iff _ hn1, hns, Option.mem_some_iff, forall_eq']

theorem clearable_texts (emptyClears : Bool) (v : Option Json) :
    (∀ t ∈ (clearable emptyClears v).join, isWellFormed t = true) ↔
      ∀ t ∈ v.bind Json.string?, isWellFormed t = true := by
  match v with
  | some (.str []) => cases emptyClears <;> simp [clearable, Json.string?, isWellFormed]
  | some (.str (u::t)) => simp [clearable, Json.string?]
  | none => simp [clearable]
  | some .null => simp [clearable, Json.string?]
  | some (.bool _) => simp [clearable, Json.string?]
  | some (.num _) => simp [clearable, Json.string?]
  | some (.arr _) => simp [clearable, Json.string?]
  | some (.obj _) => simp [clearable, Json.string?]

theorem storable_nullable (o : Option (Option Text)) (hn : ∀ t ∈ o.join, hasNul t = false) :
    (∀ v ∈ o.map nullable, v.storable = true) ↔ ∀ t ∈ o.join, isWellFormed t = true := by
  match o with
  | none => simp
  | some none => simp [nullable, Json.storable]
  | some (some t) =>
    have ht : hasNul t = false := hn t (by simp)
    simp [nullable, Json.storable, textStorable_iff t ht]

theorem readAnchorChanges_ok (body : Json) (c : AnchorChanges)
    (hc : readAnchorChanges body = .ok c) :
    c = ⟨stringField body (js "issuerUrl"), clearable true (body.get (js "jwksUrl")),
      clearable false (body.get (js "label"))⟩ ∧
      (∀ t ∈ c.issuerUrl, hasNul t = false) ∧ (∀ t ∈ c.jwksUrl.join, hasNul t = false) ∧
        ∀ t ∈ c.label.join, hasNul t = false := by
  unfold readAnchorChanges at hc
  simp only at hc
  split at hc
  · cases hc
  · next hcheck =>
    simp only [Except.ok.injEq] at hc
    subst hc
    simp only [Option.or_eq_none_iff, Option.bind_eq_none_iff] at hcheck
    obtain ⟨⟨hissuer, hjwks⟩, hlabel⟩ := hcheck
    exact ⟨rfl, fun t ht => hasNul_of_checkUrlColumn _ _ _ (hissuer t ht),
      fun t ht => hasNul_of_checkUrlColumn _ _ _ (hjwks t ht),
      fun t ht => hasNul_of_check _ _ _ _ (hlabel t ht)⟩

theorem anchorUpdateDetails_keys (c : AnchorChanges) (updatedAt : Text) :
    clientIpKey ∉ (anchorUpdateDetails c updatedAt).map Prod.fst := by
  have hlast : clientIpKey ∉ [(js "updatedAt", Json.str updatedAt)].map Prod.fst := by
    simp only [List.map_cons, List.map_nil]
    decide
  simp only [anchorUpdateDetails, List.map_append, List.mem_append, not_or]
  exact ⟨⟨⟨member_keys _ _ _ (by decide), member_keys _ _ _ (by decide)⟩,
    member_keys _ _ _ (by decide)⟩, hlast⟩

theorem anchorUpdateDetails_storable (body : Json) (c : AnchorChanges) (updatedAt : Timestamp)
    (hc : readAnchorChanges body = .ok c) :
    storableMembers (anchorUpdateDetails c updatedAt.text) = true ↔
      (∀ t ∈ stringField body (js "issuerUrl"), isWellFormed t = true) ∧
        (∀ t ∈ stringField body (js "jwksUrl"), isWellFormed t = true) ∧
          ∀ t ∈ stringField body (js "label"), isWellFormed t = true := by
  obtain ⟨hfields, hn1, hn2, hn3⟩ := readAnchorChanges_ok body c hc
  have hlast : storableMembers [(js "updatedAt", .str updatedAt.text)] = true := by
    have hk : textStorable (js "updatedAt") = true := by decide
    simp [storableMembers, Json.storable, hk, updatedAt.valid]
  simp only [anchorUpdateDetails, storableMembers_append, Bool.and_eq_true,
    storable_member _ _ (by decide : textStorable (js "issuerUrl") = true),
    storable_member _ _ (by decide : textStorable (js "jwksUrl") = true),
    storable_member _ _ (by decide : textStorable (js "label") = true), hlast, and_true]
  rw [storable_texts _ hn1, storable_nullable _ hn2, storable_nullable _ hn3, hfields]
  simp only [clearable_texts]
  exact and_assoc

theorem updateTrustAnchor_writes (id : Text) (found conflict : Bool) (updatedAt : Timestamp)
    (b : RequestBody)
    (hh : updateTrustAnchor id found conflict updatedAt b h log = (.success status, log')) :
    Writes (js "trust-anchor.update") (WellFormedField b (js "issuerUrl") ∧
      WellFormedField b (js "jwksUrl") ∧ WellFormedField b (js "label")) h log log' := by
  unfold updateTrustAnchor at hh
  split at hh
  · cases hh
  · next hid =>
    split at hh
    · cases hh
    · next body hbody =>
      split at hh
      · cases hh
      · next c hc =>
        split at hh
        · cases hh
        · split at hh
          · cases hh
          · split at hh
            · apply writes_uuid h log log' status _ _ 200 id _ (by decide) _
                (anchorUpdateDetails_keys c updatedAt.text) _ hh
              · simpa using hid
              · rw [anchorUpdateDetails_storable body c updatedAt hc]
                simp only [wellFormedField_iff b body _ hbody]
            · cases hh

theorem checkManifest_aid (now : Instant) (m : Json) (hc : checkManifest now h m = none) :
    (stringField m (js "aid")).all (fitsVarchar 512) = true := by
  simp only [checkManifest, Option.or_eq_none_iff, Option.map_eq_none_iff] at hc
  have haid := (columns_none m hc.1.2).1
  unfold checkAid at haid
  split at haid
  · next aid ha =>
    simp only [stringField, ha, Option.bind_some, Json.string?, Option.all_some]
    exact checkColumnString_none _ _ _ _ haid
  · cases haid

theorem registerAgent_writes (S : Service) (now : Instant) (tooLarge : Bool) (body : Text)
    (registered : Option Bool)
    (hh : registerAgent S now tooLarge body registered h log = (.success status, log')) :
    Writes (js "agent.register") True h log log' := by
  unfold registerAgent at hh
  split at hh
  · cases hh
  · simp only at hh
    split at hh
    · cases hh
    · next m _ =>
      split at hh
      · cases hh
      · split at hh
        · cases hh
        · next hcheck =>
          split at hh
          · cases hh
          · cases hh
          · split at hh
            · refine ⟨_, _, audited_log log log' status _ _ _ hh, rfl, by decide, ?_, by decide,
                by simp, ?_⟩
              · exact checkManifest_aid h now m hcheck
              · simp [storableMembers]
            · cases hh

theorem handle_writes (m : Mutation) (hh : handle h log m = (.success status, log')) :
    Writes (action m) (WellFormedDetails m) h log log' := by
  have hnone : ∀ act, copiedFields m = none → Writes act True h log log' →
      Writes act (WellFormedDetails m) h log log' := by
    intro act hc hw
    have htrue : WellFormedDetails m ↔ True := by simp [WellFormedDetails, hc]
    rwa [propext htrue]
  cases m with
  | postRevocation M parseDate now body t =>
    exact hnone _ rfl (postRevocation_writes h log log' status M parseDate now body t hh)
  | createWebhook assertSafe id body =>
    exact hnone _ rfl (createWebhook_writes h log log' status assertSafe id body hh)
  | updateWebhook assertSafe id found body =>
    have hw := updateWebhook_writes h log log' status assertSafe id found body hh
    simpa [WellFormedDetails, copiedFields, action] using hw
  | deleteWebhook id found =>
    exact hnone _ rfl (deleteById_writes h log log' status (js "webhook.delete") _ _ id found
      (by decide) hh)
  | resetCircuitBreaker id =>
    exact hnone _ rfl (resetCircuitBreaker_writes h log log' status id hh)
  | createTrustAnchor id conflict body =>
    have hw := createTrustAnchor_writes h log log' status id conflict body hh
    simpa [WellFormedDetails, copiedFields, action] using hw
  | updateTrustAnchor id found conflict updatedAt body =>
    have hw := updateTrustAnchor_writes h log log' status id found conflict updatedAt body hh
    simpa [WellFormedDetails, copiedFields, action] using hw
  | deleteTrustAnchor id found =>
    exact hnone _ rfl (deleteById_writes h log log' status (js "trust-anchor.delete") _ _ id found
      (by decide) hh)
  | registerAgent service now tooLarge body registered =>
    exact hnone _ rfl
      (registerAgent_writes h log log' status service now tooLarge body registered hh)

end Handlers

theorem proxy_authenticated (cfg : GateConfig) (s : IdSource) (allowed : RateLimitChoice → Bool)
    (r : Request) (h : Headers) (hf : proxy cfg s allowed r = .forward h) :
    ∃ keyLabel keyIssuer,
      authenticate cfg r (bearerToken ((get r.headers (js "authorization")).getD []))
          (isPublicRequest r.pathname r.method) = .ok (keyLabel, keyIssuer) ∧
        passThrough cfg s r keyLabel keyIssuer = some h := by
  unfold proxy at hf
  split at hf
  · cases hf
  · split at hf
    · cases hf
    · simp only at hf
      split at hf
      · cases hf
      · next keyLabel keyIssuer hauth =>
        split at hf
        · cases hf
        · split at hf
          · next headers hpass =>
            simp only [RequestGate.Answer.forward.injEq] at hf
            subst hf
            exact ⟨keyLabel, keyIssuer, hauth, hpass⟩
          · cases hf

theorem proxy_forward (cfg : GateConfig) (s : IdSource) (allowed : RateLimitChoice → Bool)
    (r : Request) (h : Headers) (hf : proxy cfg s allowed r = .forward h) :
    ∃ keyLabel keyIssuer, passThrough cfg s r keyLabel keyIssuer = some h ∧
      ∀ label ∈ keyLabel, isKeyLabel label = true := by
  obtain ⟨keyLabel, keyIssuer, hauth, hpass⟩ := proxy_authenticated cfg s allowed r h hf
  apply Exists.intro keyLabel
  apply Exists.intro keyIssuer
  apply And.intro hpass
  rintro label rfl
  exact authenticate_label cfg r keyIssuer _ _ label hauth

theorem details_storable (entry : AdminAuditEntry) (h : Headers) (fallback : Option Text)
    (hkeys : clientIpKey ∉ entry.details.map Prod.fst) :
    (auditDetails entry (auditContext h fallback)).storable = storableMembers entry.details := by
  unfold auditDetails
  split
  · next ip hip =>
    have hip' : get h clientIpForwardHeader = some ip := by
      obtain ⟨hctx, -⟩ := Option.filter_eq_some_iff.mp hip
      exact (Option.filter_eq_some_iff.mp hctx).1
    have hs := headerValue_storable ip (get_legal h _ _ hip')
    have hk : textStorable clientIpKey = true := by decide
    have hfilter : entry.details.filter (fun m => ¬ m.1 = clientIpKey) = entry.details := by
      apply List.filter_eq_self.mpr (fun m hm => ?_)
      simp only [decide_eq_true_eq]
      rintro heq
      exact hkeys (heq ▸ List.mem_map_of_mem hm)
    rw [hfilter]
    simp [Json.storable, storableMembers_append, storableMembers, hs, hk]
  · rfl

/-- A mutation that the gate forwards and that succeeds is recorded, by one
row, if and only if the client's request id and the copied fields fit. -/
theorem audit_complete (cfg : GateConfig) (s : IdSource) (allowed : RateLimitChoice → Bool)
    (r : Request) (h : Headers) (hf : proxy cfg s allowed r = .forward h) (m : Mutation)
    (log log' : AuditLog) (status : ℕ) (hh : handle h log m = (.success status, log')) :
    (∃ row, row.action = action m ∧ log'.rows = log.rows++[row]) ↔
      RequestIdFits r ∧ WellFormedDetails m := by
  obtain ⟨keyLabel, keyIssuer, hpass, hlabel⟩ := proxy_forward cfg s allowed r h hf
  obtain ⟨entry, fallback, rfl, hact, hfits, htarget, hfallback, hkeys, hdetails⟩ :=
    handle_writes h log log' status m hh
  have hactor := actor_fits cfg s r keyLabel keyIssuer h fallback hpass hlabel hfallback
  have hid := requestId_fits cfg s r keyLabel keyIssuer h hpass
  have hrow : auditStorable entry (auditContext h fallback) = true ↔
      RequestIdFits r ∧ WellFormedDetails m := by
    simp only [auditStorable, hact, hfits, hactor, htarget, details_storable entry h fallback hkeys,
      Bool.true_and, Bool.and_eq_true, hdetails]
    rw [and_comm, ← hid]
    rfl
  rw [← hrow, ← writeAdminAudit_recorded entry (auditContext h fallback) log]
  constructor
  · rintro ⟨row, -, hrows⟩
    exact ⟨row, hrows⟩
  · intro hrows
    refine ⟨auditRow entry (auditContext h fallback), hact, ?_⟩
    rw [writeAdminAudit_recorded] at hrows
    simp [writeAdminAudit, hrows]

section Scenario

def forwarded : RequestGate.Answer → Option Headers
  | .forward h => some h
  | _ => none

def serve (cfg : GateConfig) (s : IdSource) (r : Request) (m : Mutation) : Option Outcome :=
  (forwarded (proxy cfg s (fun _ => true) r)).map (fun h => handle h ⟨[], 0⟩ m)

theorem forwarded_some (a : RequestGate.Answer) (h : Headers) (ha : forwarded a = some h) :
    a = .forward h := by
  unfold forwarded at ha
  split at ha
  · rw [Option.some.inj ha]
  · cases ha

theorem serve_some (cfg : GateConfig) (s : IdSource) (r : Request) (m : Mutation) (o : Outcome)
    (hs : serve cfg s r m = some o) :
    ∃ h, proxy cfg s (fun _ => true) r = .forward h ∧ handle h ⟨[], 0⟩ m = o := by
  obtain ⟨h, hh, ho⟩ := Option.map_eq_some_iff.mp hs
  exact ⟨h, forwarded_some _ h hh, ho⟩

def config : GateConfig where
  apiKeyEntries := [⟨js "ops", js "k3y", by decide⟩]
  issuerKeyEntries := []
  isProduction := true
  clientIpHeader := []
  trustedProxyHops := 0
  rateLimitEnabled := true
  rateLimitEnrollPerIpMin := 5
  rateLimitPublicPerIpMin := 60
  rateLimitApiKeyMin := 600

def ids : IdSource := ⟨1700000000000, js "4fzyo82m", by decide, by decide, by decide⟩

def anchorId : Text := js "9b2d6c1e-5a47-4f0b-8d3e-2c1a0b9f8e7d"

def request (requestId : Text) (hl : isHeaderValue requestId = true) : Request where
  method := js "PATCH"
  pathname := js "/api/trust-anchors/"++anchorId
  headers := [⟨js "authorization", js "Bearer k3y", by decide⟩, ⟨requestIdHeader, requestId, hl⟩]

def relabel : Mutation :=
  .updateTrustAnchor anchorId true false ⟨js "2024-01-01T00:00:00.000Z", by decide⟩
    ⟨false, some (.obj [(js "label", .str (js "primary"))])⟩

theorem audit_complete_relabel :
    ∃ h log', proxy config ids (fun _ => true) (request (js "req-1") (by decide)) = .forward h ∧
      handle h ⟨[], 0⟩ relabel = (.success 200, log') ∧
        RequestIdFits (request (js "req-1") (by decide)) ∧ WellFormedDetails relabel ∧
          ((∃ row, row.action = action relabel ∧ log'.rows = []++[row]) ↔
            RequestIdFits (request (js "req-1") (by decide)) ∧ WellFormedDetails relabel) := by
  have hserve : (serve config ids (request (js "req-1") (by decide)) relabel).map Prod.fst =
      some (.success 200) := by decide +kernel
  obtain ⟨⟨reply, log'⟩, ho, rfl⟩ := Option.map_eq_some_iff.mp hserve
  obtain ⟨h, hf, hh⟩ := serve_some _ _ _ _ _ ho
  exact ⟨h, log', hf, hh, by decide +kernel, by decide +kernel,
    audit_complete config ids (fun _ => true) _ h hf relabel ⟨[], 0⟩ log' 200 hh⟩

def longRequestId : Text := List.replicate 256 0x61

theorem longRequestId_legal : isHeaderValue longRequestId = true := by decide +kernel

/-- A request id of 256 characters keeps a successful mutation out of the log. -/
theorem long_request_id_unaudited :
    ¬ ∀ (cfg : GateConfig) (s : IdSource) (allowed : RateLimitChoice → Bool) (r : Request)
      (h : Headers), proxy cfg s allowed r = .forward h →
        ∀ (m : Mutation) (log log' : AuditLog) (status : ℕ),
          handle h log m = (.success status, log') →
            ∃ row, row.action = action m ∧ log'.rows = log.rows++[row] := by
  intro hall
  have hserve : (serve config ids (request longRequestId longRequestId_legal) relabel).map
      (fun o => (o.1, o.2.rows.length)) = some (.success 200, 0) := by decide +kernel
  obtain ⟨⟨reply, log'⟩, ho, hpair⟩ := Option.map_eq_some_iff.mp hserve
  obtain ⟨rfl, hlen⟩ := Prod.mk.inj hpair
  obtain ⟨h, hf, hh⟩ := serve_some _ _ _ _ _ ho
  obtain ⟨row, -, hrows⟩ := hall config ids _ _ h hf relabel _ log' 200 hh
  simp [hrows] at hlen

end Scenario

end ControlPlane.AuditCompleteness
