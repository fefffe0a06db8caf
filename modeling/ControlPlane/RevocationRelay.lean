import ControlPlane.ApiKeys
import ControlPlane.AuditCompleteness

/-!
# The revocation relay behind the gate

`GET /api/revocations` answers an issuer with the entries of its own tokens.
The gate forwards which key authenticated a request in headers of its own,
and the relay trusts them.
-/

set_option autoImplicit false

namespace ControlPlane.RevocationRelay
open ControlPlane.JsText ControlPlane.JsValue ControlPlane.HttpValidate ControlPlane.RequestGate
open ControlPlane.ApiKeys ControlPlane.AuditCompleteness ControlPlane.TctMonitor
open ControlPlane.KeyedRows

structure IssuerPull where
  aid : Text
  secs : ℤ
  deriving DecidableEq, Repr

/-- The last pulls by label, in insertion order. -/
abbrev IssuerPulls := List (Text × IssuerPull)

def recordIssuerPull (now : Instant) (label aid : Text) (pulls : IssuerPulls) : IssuerPulls :=
  if pulls.any (·.1 = label) then
    pulls.map (fun p => if p.1 = label then (label, ⟨aid, now/1000⟩) else p)
  else pulls++[(label, ⟨aid, now/1000⟩)]

structure RelayEntry where
  jti : Text
  revokedAt : ℤ
  reason : Option Text
  deriving DecidableEq, Repr

def relayEntry (e : RevocationEntry) : RelayEntry := ⟨e.jti, e.revokedAt/1000, e.reason⟩

/-- By time and then by `jti`, whose text orders as the `uuid` does. -/
def relayOrder (a b : RevocationEntry) : Bool :=
  a.revokedAt < b.revokedAt || (a.revokedAt = b.revokedAt && decide (a.jti ≤ b.jti))

inductive Reply where
  | refused (problem : Problem)
  | entries (iss : Text) (entries : List RelayEntry)
  deriving DecidableEq

/-- The handler of `GET /api/revocations`; there are no rows when the read
fails. -/
def revocations (now : Instant) (iss : Option Text) (h : Headers)
    (rows : Option (List RevocationEntry)) (pulls : IssuerPulls) : Reply × IssuerPulls :=
  match iss.filter isAid with
  | none =>
    (.refused ⟨400, js "iss must be an issuer AID (aid:...)", js "ISS_INVALID"⟩, pulls)
  | some iss =>
    let boundIssuer := get h keyIssuerHeader
    if boundIssuer.any (· ≠ iss) then
      (.refused ⟨403, js "this key may only read its own issuer", js "ISSUER_MISMATCH"⟩, pulls)
    else
      match rows with
      | none =>
        (.refused ⟨503, js "revocation entries temporarily unavailable",
          js "REVOCATION_UNAVAILABLE"⟩, pulls)
      | some rows =>
        (.entries iss (((rows.filter (·.iss = some iss)).mergeSort relayOrder).map relayEntry),
          match boundIssuer, present (get h keyLabelHeader) with
          | some bound, some label => recordIssuerPull now label bound pulls
          | _, _ => pulls)

def requestToken (r : Request) : Option Text :=
  present (bearerToken ((get r.headers (js "authorization")).getD []))

def isRelayRequest (r : Request) : Bool :=
  r.pathname = js "/api/revocations" && r.method = js "GET"

def plainKey (e : ApiKeyEntry) : KeyEntry := ⟨e.label, e.key⟩

def plainIssuer (e : IssuerKeyEntry) : IssuerEntry := ⟨⟨e.label, e.key⟩, e.aid⟩

section Configuration
variable (raw rawIssuer : Option Text)

def apiKeyEntries : List KeyEntry := (parseApiKeys raw).entries

def issuerKeyEntries : List IssuerEntry :=
  (parseIssuerKeys rawIssuer ((apiKeyEntries raw).map (·.key))).entries

structure Configured (cfg : GateConfig) : Prop where
  apiKeys : cfg.apiKeyEntries.map plainKey = apiKeyEntries raw
  issuerKeys : cfg.issuerKeyEntries.map plainIssuer = issuerKeyEntries raw rawIssuer

/-- The request carries this issuer key on the one route it opens. -/
def OpensRelay (r : Request) (e : IssuerEntry) : Prop :=
  e ∈ issuerKeyEntries raw rawIssuer ∧ isRelayRequest r = true ∧ requestToken r = some e.key

/-- The request carries this API key on a route that is not public. -/
def OpensRoute (r : Request) (e : KeyEntry) : Prop :=
  e ∈ apiKeyEntries raw ∧ isPublicRequest r.pathname r.method = false ∧
    requestToken r = some e.key

end Configuration

/-- The client's headers without its copies of what the gate forwards. The
operator may name one as the header that the platform sets. -/
def withoutCopies (cfg : GateConfig) (h : Headers) : Headers :=
  h.filter (fun f => f.name = cfg.clientIpHeader ||
    !([keyLabelHeader, keyIssuerHeader, clientIpForwardHeader].contains f.name))

structure Gated (raw rawIssuer : Option Text) (cfg : GateConfig) (s : IdSource)
    (allowed : RateLimitChoice → Bool) (r : Request) (h : Headers) : Prop where
  authorized : isPublicRequest r.pathname r.method = true ∨
    (∃ e, OpensRelay raw rawIssuer r e) ∨ (∃ e, OpensRoute raw r e) ∨
      (apiKeyEntries raw = [] ∧ cfg.isProduction = false)
  keyLabel : ∀ label, get h keyLabelHeader = some label ↔
    (∃ e, OpensRelay raw rawIssuer r e ∧ e.label = label) ∨
      (∃ e, OpensRoute raw r e ∧ e.label = label)
  keyIssuer : ∀ aid, get h keyIssuerHeader = some aid ↔
    ∃ e, OpensRelay raw rawIssuer r e ∧ e.aid = aid
  clientIp : get h clientIpForwardHeader =
    if getClientIp cfg r.headers = unknownIp then none
    else some (normalizeValue (getClientIp cfg r.headers))
  copies : proxy cfg s allowed { r with headers := withoutCopies cfg r.headers } = .forward h
  ownRows : ∀ e, OpensRelay raw rawIssuer r e → ∀ now iss rows pulls asked entries,
    (revocations now iss h rows pulls).1 = .entries asked entries →
      asked = e.aid ∧ ∀ x ∈ entries, ∃ row ∈ rows.getD [],
        row.iss = some e.aid ∧ relayEntry row = x

theorem normalizeValue_of_all (t : Text) (h : ∀ u ∈ t, isHttpSpace u = false) :
    normalizeValue t = t := by
  have hdrop : t.dropWhile isHttpSpace = t := by
    cases t with
    | nil => rfl
    | cons u rest => simp [h u]
  rw [normalizeValue, hdrop, List.rdropWhile_eq_self_iff]
  intro hne
  simp [h _ (List.getLast_mem hne)]

theorem httpSpace_cases (u : UInt16) (h : isHttpSpace u = true) :
    u = 0x20 ∨ u = 0x09 ∨ u = 0x0A ∨ u = 0x0D := by
  simpa only [isHttpSpace, Bool.or_eq_true, decide_eq_true_eq, or_assoc] using h

theorem normalizeValue_of_units (p : UInt16 → Bool) (t : Text) (hp : t.all p = true)
    (hspace : [0x20, 0x09, 0x0A, 0x0D].any p = false) : normalizeValue t = t := by
  apply normalizeValue_of_all
  intro u hu
  by_contra hc
  have hpu : p u = true := List.all_eq_true.mp hp u hu
  have hmem : u ∈ [(0x20 : UInt16), 0x09, 0x0A, 0x0D] := by
    simpa using httpSpace_cases u (by simpa using hc)
  exact absurd hpu (by simpa using List.any_eq_false.mp hspace u hmem)

theorem normalizeValue_keyLabel (t : Text) (h : isKeyLabel t = true) : normalizeValue t = t :=
  normalizeValue_of_units isKeyLabelUnit t (isKeyLabel_units t h) (by decide)

theorem normalizeValue_aid (t : Text) (h : isAid t = true) : normalizeValue t = t :=
  normalizeValue_of_units isAidUnit t (isAid_units t h) (by decide)

theorem present_keyLabel (t : Text) (h : isKeyLabel t = true) : present (some t) = some t := by
  cases t with
  | nil => cases h
  | cons u rest => rfl

theorem present_aid (t : Text) (h : isAid t = true) : present (some t) = some t := by
  cases t with
  | nil => cases h
  | cons u rest => rfl

section Keys
variable (raw rawIssuer : Option Text) (cfg : GateConfig) (hc : Configured raw rawIssuer cfg)
include hc

theorem plainIssuer_mem (e : IssuerKeyEntry) (he : e ∈ cfg.issuerKeyEntries) :
    plainIssuer e ∈ issuerKeyEntries raw rawIssuer := by
  rw [← hc.issuerKeys]
  exact List.mem_map_of_mem he

theorem plainKey_mem (e : ApiKeyEntry) (he : e ∈ cfg.apiKeyEntries) :
    plainKey e ∈ apiKeyEntries raw := by
  rw [← hc.apiKeys]
  exact List.mem_map_of_mem he

theorem find_issuer (e : IssuerEntry) (he : e ∈ issuerKeyEntries raw rawIssuer) :
    ∃ e' ∈ cfg.issuerKeyEntries.find? (·.key = e.key), plainIssuer e' = e := by
  have hnodup := (parseIssuerKeys_taken rawIssuer ((apiKeyEntries raw).map (·.key))).nodup
  change ((issuerKeyEntries raw rawIssuer).map (·.key)).Nodup at hnodup
  rw [← hc.issuerKeys] at hnodup he
  exact find_image (fun x : IssuerKeyEntry => x.key) plainIssuer (fun x => x.key) (fun _ => rfl) _
    hnodup e he

theorem find_key (e : KeyEntry) (he : e ∈ apiKeyEntries raw) :
    ∃ e' ∈ cfg.apiKeyEntries.find? (·.key = e.key), plainKey e' = e := by
  have hnodup := parseApiKeys_nodup raw
  change ((apiKeyEntries raw).map (·.key)).Nodup at hnodup
  rw [← hc.apiKeys] at hnodup he
  exact find_image (fun x : ApiKeyEntry => x.key) plainKey (fun x => x.key) (fun _ => rfl) _
    hnodup e he

end Keys

section Authentication
variable (cfg : GateConfig) (r : Request)

def matchedIssuer : Option IssuerKeyEntry :=
  if isRelayRequest r then
    (requestToken r).bind (fun t => cfg.issuerKeyEntries.find? (·.key = t))
  else none

def matchedKey : Option ApiKeyEntry :=
  if isPublicRequest r.pathname r.method then none
  else (requestToken r).bind (fun t => cfg.apiKeyEntries.find? (·.key = t))

theorem authenticate_ok (keyLabel keyIssuer : Option Text)
    (h : authenticate cfg r (bearerToken ((get r.headers (js "authorization")).getD []))
      (isPublicRequest r.pathname r.method) = .ok (keyLabel, keyIssuer)) :
    keyIssuer = (matchedIssuer cfg r).map (·.aid) ∧
      keyLabel = ((matchedIssuer cfg r).map (·.label)).or ((matchedKey cfg r).map (·.label)) ∧
        (isPublicRequest r.pathname r.method = true ∨ (matchedIssuer cfg r).isSome = true ∨
          (matchedKey cfg r).isSome = true ∨
            (cfg.apiKeyEntries = [] ∧ cfg.isProduction = false)) := by
  have hissuer : (if r.pathname = js "/api/revocations" && r.method = js "GET" then
      (present (bearerToken ((get r.headers (js "authorization")).getD []))).bind
        (fun t => cfg.issuerKeyEntries.find? (·.key = t))
      else none) = matchedIssuer cfg r := rfl
  simp only [authenticate, hissuer] at h
  cases hm : matchedIssuer cfg r with
  | some e =>
    rw [hm] at h
    cases h
    simp
  | none =>
    rw [hm] at h
    simp only at h
    by_cases hpub : isPublicRequest r.pathname r.method = true
    · rw [if_pos hpub] at h
      cases h
      simp [matchedKey, hpub]
    rw [if_neg hpub] at h
    by_cases hempty : cfg.apiKeyEntries = []
    · rw [if_pos hempty] at h
      by_cases hprod : cfg.isProduction = true
      · rw [if_pos hprod] at h
        cases h
      rw [if_neg hprod] at h
      cases h
      have hnone : matchedKey cfg r = none := by
        unfold matchedKey
        rw [if_neg hpub, hempty]
        cases requestToken r <;> rfl
      simp [hnone, hempty, hprod]
    · rw [if_neg hempty] at h
      have hkey : matchedKey cfg r =
          (present (bearerToken ((get r.headers (js "authorization")).getD []))).bind
            (fun t => cfg.apiKeyEntries.find? (·.key = t)) := if_neg hpub
      rw [← hkey] at h
      cases hk : matchedKey cfg r with
      | none =>
        rw [hk] at h
        cases h
      | some e =>
        rw [hk] at h
        cases h
        simp

theorem passThrough_keyIssuer (s : IdSource) (keyLabel keyIssuer : Option Text) (h : Headers)
    (hp : passThrough cfg s r keyLabel keyIssuer = some h) :
    get h keyIssuerHeader = (present keyIssuer).map normalizeValue := by
  simp only [passThrough, Option.bind_eq_bind, Option.bind_eq_some_iff] at hp
  obtain ⟨identified, -, labelled, hlabel, bound, hbound, hip⟩ := hp
  rw [get_setSome_other _ _ _ _ _ (by decide) hip]
  apply get_setSome_same _ _ _ _ _ hbound
  rw [get_setSome_other _ _ _ _ _ (by decide) hlabel, get_delete_other _ _ _ (by decide)]
  exact get_delete_same _ _

theorem passThrough_clientIp (s : IdSource) (keyLabel keyIssuer : Option Text) (h : Headers)
    (hp : passThrough cfg s r keyLabel keyIssuer = some h) :
    get h clientIpForwardHeader = if getClientIp cfg r.headers = unknownIp then none
      else some (normalizeValue (getClientIp cfg r.headers)) := by
  simp only [passThrough, Option.bind_eq_bind, Option.bind_eq_some_iff] at hp
  obtain ⟨identified, -, labelled, hlabel, bound, hbound, hip⟩ := hp
  rw [get_setSome_same _ _ _ _ _ hip]
  · split_ifs <;> rfl
  · rw [get_setSome_other _ _ _ _ _ (by decide) hbound,
      get_setSome_other _ _ _ _ _ (by decide) hlabel]
    exact get_delete_same _ _

theorem get_withoutCopies (h : Headers) (name : Text)
    (hname : name = cfg.clientIpHeader ∨
      name ∉ [keyLabelHeader, keyIssuerHeader, clientIpForwardHeader]) :
    get (withoutCopies cfg h) name = get h name := by
  simp only [RequestGate.get, withoutCopies, List.find?_filter]
  congr 2
  funext f
  by_cases hf : f.name = name
  · rcases hname with hname | hname
    · simp [hf, hname]
    · simpa [hf] using Or.inr hname
  · simp [hf]

theorem getClientIp_withoutCopies (h : Headers) :
    getClientIp cfg (withoutCopies cfg h) = getClientIp cfg h := by
  unfold getClientIp
  rw [get_withoutCopies cfg h cfg.clientIpHeader (Or.inl rfl),
    get_withoutCopies cfg h (js "x-forwarded-for") (Or.inr (by decide)),
    get_withoutCopies cfg h (js "x-real-ip") (Or.inr (by decide))]

theorem strip_withoutCopies (h : Headers) (name : Text) (fs : Headers) :
    delete (delete (delete (delete (withoutCopies cfg h) name++fs) keyLabelHeader)
        keyIssuerHeader) clientIpForwardHeader =
      delete (delete (delete (delete h name++fs) keyLabelHeader) keyIssuerHeader)
        clientIpForwardHeader := by
  simp only [delete, withoutCopies, List.filter_append, List.filter_filter]
  congr 1
  apply List.filter_congr
  intro f _
  by_cases h1 : f.name = keyLabelHeader
  · simp [h1]
  by_cases h2 : f.name = keyIssuerHeader
  · simp [h2]
  by_cases h3 : f.name = clientIpForwardHeader
  · simp [h3]
  simp [h1, h2, h3]

theorem passThrough_withoutCopies (s : IdSource) (keyLabel keyIssuer : Option Text) :
    passThrough cfg s { r with headers := withoutCopies cfg r.headers } keyLabel keyIssuer =
      passThrough cfg s r keyLabel keyIssuer := by
  have hid : resolveRequestId s { r with headers := withoutCopies cfg r.headers } =
      resolveRequestId s r := by
    unfold resolveRequestId
    rw [get_withoutCopies cfg r.headers requestIdHeader (Or.inr (by decide))]
  unfold passThrough
  rw [getClientIp_withoutCopies, hid]
  unfold RequestGate.set
  split_ifs
  · simp only [Option.bind_eq_bind, Option.bind_some, strip_withoutCopies]
  · rfl

theorem proxy_withoutCopies (s : IdSource) (allowed : RateLimitChoice → Bool) :
    proxy cfg s allowed { r with headers := withoutCopies cfg r.headers } =
      proxy cfg s allowed r := by
  have hauth := get_withoutCopies cfg r.headers (js "authorization") (Or.inr (by decide))
  have hkeys : ∀ token isPublic,
      authenticate cfg { r with headers := withoutCopies cfg r.headers } token isPublic =
        authenticate cfg r token isPublic := fun _ _ => rfl
  have hchoice : ∀ token isPublic,
      chooseRateLimit cfg { r with headers := withoutCopies cfg r.headers } token isPublic =
        chooseRateLimit cfg r token isPublic := by
    intro token isPublic
    unfold chooseRateLimit
    rw [getClientIp_withoutCopies]
  simp only [proxy, hkeys, hchoice, passThrough_withoutCopies, hauth]

end Authentication

theorem opensRelay_not_opensRoute (raw rawIssuer : Option Text) (r : Request) (e : IssuerEntry)
    (k : KeyEntry) (he : OpensRelay raw rawIssuer r e) : ¬ OpensRoute raw r k := by
  rintro ⟨hk, -, ht⟩
  have hkey : k.key = e.key := Option.some.inj (ht.symm.trans he.2.2)
  have htaken := parseIssuerKeys_taken rawIssuer ((apiKeyEntries raw).map (·.key))
  apply htaken.admin e he.1
  rw [← hkey]
  exact List.mem_map_of_mem hk

section Matched
variable (raw rawIssuer : Option Text) (cfg : GateConfig) (hc : Configured raw rawIssuer cfg)
  (r : Request)
include hc

theorem matchedIssuer_iff (e : IssuerEntry) :
    (∃ e' ∈ matchedIssuer cfg r, plainIssuer e' = e) ↔ OpensRelay raw rawIssuer r e := by
  unfold matchedIssuer OpensRelay
  constructor
  · rintro ⟨e', he', rfl⟩
    rw [Option.mem_def] at he'
    split_ifs at he' with hr
    obtain ⟨t, ht, hfind⟩ := Option.bind_eq_some_iff.mp he'
    have hkey : e'.key = t := by simpa using List.find?_some hfind
    apply And.intro (plainIssuer_mem raw rawIssuer cfg hc e' (List.mem_of_find?_eq_some hfind))
    apply And.intro hr
    rw [ht, ← hkey]
    rfl
  · rintro ⟨he, hr, ht⟩
    rw [if_pos hr, ht]
    exact find_issuer raw rawIssuer cfg hc e he

theorem matchedKey_iff (e : KeyEntry) :
    (∃ e' ∈ matchedKey cfg r, plainKey e' = e) ↔ OpensRoute raw r e := by
  unfold matchedKey OpensRoute
  constructor
  · rintro ⟨e', he', rfl⟩
    rw [Option.mem_def] at he'
    split_ifs at he' with hr
    obtain ⟨t, ht, hfind⟩ := Option.bind_eq_some_iff.mp he'
    have hkey : e'.key = t := by simpa using List.find?_some hfind
    apply And.intro (plainKey_mem raw rawIssuer cfg hc e' (List.mem_of_find?_eq_some hfind))
    apply And.intro (by simpa using hr)
    rw [ht, ← hkey]
    rfl
  · rintro ⟨he, hr, ht⟩
    rw [if_neg (by simp [hr]), ht]
    exact find_key raw rawIssuer cfg hc e he

theorem forwarded_issuer :
    (present ((matchedIssuer cfg r).map (·.aid))).map normalizeValue =
      (matchedIssuer cfg r).map (·.aid) := by
  cases hm : matchedIssuer cfg r with
  | none => rfl
  | some e =>
    have hopen := (matchedIssuer_iff raw rawIssuer cfg hc r _).mp ⟨e, hm, rfl⟩
    have htaken := parseIssuerKeys_taken rawIssuer ((apiKeyEntries raw).map (·.key))
    have haid : isAid e.aid = true := htaken.aid _ hopen.1
    rw [Option.map_some, present_aid e.aid haid, Option.map_some, normalizeValue_aid e.aid haid]

theorem matchedLabel_iff (label : Text) :
    ((matchedIssuer cfg r).map (·.label)).or ((matchedKey cfg r).map (·.label)) = some label ↔
      (∃ e, OpensRelay raw rawIssuer r e ∧ e.label = label) ∨
        (∃ e, OpensRoute raw r e ∧ e.label = label) := by
  have hissuer := matchedIssuer_iff raw rawIssuer cfg hc r
  have hkey := matchedKey_iff raw rawIssuer cfg hc r
  constructor
  · intro h
    cases hm : matchedIssuer cfg r with
    | some e =>
      rw [hm] at h
      exact Or.inl ⟨plainIssuer e, (hissuer _).mp ⟨e, hm, rfl⟩, Option.some.inj h⟩
    | none =>
      rw [hm] at h
      obtain ⟨k, hk, rfl⟩ := Option.map_eq_some_iff.mp h
      exact Or.inr ⟨plainKey k, (hkey _).mp ⟨k, hk, rfl⟩, rfl⟩
  · rintro (⟨e, he, rfl⟩ | ⟨k, hk, rfl⟩)
    · obtain ⟨e', he', rfl⟩ := (hissuer e).mpr he
      rw [Option.mem_def.mp he']
      rfl
    · obtain ⟨k', hk', rfl⟩ := (hkey k).mpr hk
      cases hm : matchedIssuer cfg r with
      | none =>
        rw [Option.mem_def.mp hk']
        rfl
      | some e =>
        have he := (hissuer _).mp ⟨e, hm, rfl⟩
        exact absurd hk (opensRelay_not_opensRoute raw rawIssuer r _ _ he)

end Matched

theorem forwarded_label (cfg : GateConfig) (r : Request) :
    (present (((matchedIssuer cfg r).map (·.label)).or ((matchedKey cfg r).map (·.label)))).map
        normalizeValue =
      ((matchedIssuer cfg r).map (·.label)).or ((matchedKey cfg r).map (·.label)) := by
  have hlabel : ∀ e : ApiKeyEntry, (present (some e.label)).map normalizeValue = some e.label := by
    intro e
    rw [present_keyLabel e.label e.labelled, Option.map_some,
      normalizeValue_keyLabel e.label e.labelled]
  cases matchedIssuer cfg r with
  | some e => exact hlabel e.toApiKeyEntry
  | none =>
    cases matchedKey cfg r with
    | some e => exact hlabel e
    | none => rfl

theorem revocations_bound (now : Instant) (iss : Option Text) (h : Headers)
    (rows : Option (List RevocationEntry)) (pulls : IssuerPulls) (aid asked : Text)
    (entries : List RelayEntry) (hbound : get h keyIssuerHeader = some aid)
    (hr : (revocations now iss h rows pulls).1 = .entries asked entries) :
    asked = aid ∧ ∀ x ∈ entries, ∃ row ∈ rows.getD [], row.iss = some aid ∧
      relayEntry row = x := by
  unfold revocations at hr
  split at hr
  · cases hr
  · next iss' _ =>
    simp only [hbound, Option.any_some] at hr
    by_cases hne : aid ≠ iss'
    · rw [if_pos (by simpa using hne)] at hr
      cases hr
    rw [if_neg (by simpa using hne)] at hr
    cases rows with
    | none => cases hr
    | some rows =>
      simp only [Reply.entries.injEq] at hr
      obtain ⟨rfl, rfl⟩ := hr
      apply And.intro (not_not.mp hne).symm
      intro x hx
      obtain ⟨row, hrow, rfl⟩ := List.mem_map.mp hx
      obtain ⟨hmem, hiss⟩ := List.mem_filter.mp (List.mem_mergeSort.mp hrow)
      have hiss := of_decide_eq_true hiss
      rw [← not_not.mp hne] at hiss
      exact ⟨row, hmem, hiss, rfl⟩

/-- The gate forwards what a configured key opens, says which key it was, and
an issuer key gets the rows of its own issuer. -/
theorem request_gate (raw rawIssuer : Option Text) (cfg : GateConfig)
    (hc : Configured raw rawIssuer cfg) (s : IdSource) (allowed : RateLimitChoice → Bool)
    (r : Request) (h : Headers) (hf : proxy cfg s allowed r = .forward h) :
    Gated raw rawIssuer cfg s allowed r h := by
  obtain ⟨keyLabel, keyIssuer, hauth, hpass⟩ := proxy_authenticated cfg s allowed r h hf
  obtain ⟨rfl, rfl, hopen⟩ := authenticate_ok cfg r keyLabel keyIssuer hauth
  have hissuer := matchedIssuer_iff raw rawIssuer cfg hc r
  have hkey := matchedKey_iff raw rawIssuer cfg hc r
  have haid : ∀ aid, RequestGate.get h keyIssuerHeader = some aid ↔
      ∃ e, OpensRelay raw rawIssuer r e ∧ e.aid = aid := by
    intro aid
    rw [passThrough_keyIssuer cfg r s _ _ h hpass, forwarded_issuer raw rawIssuer cfg hc r]
    constructor
    · intro hm
      obtain ⟨e, he, rfl⟩ := Option.map_eq_some_iff.mp hm
      exact ⟨plainIssuer e, (hissuer _).mp ⟨e, he, rfl⟩, rfl⟩
    · rintro ⟨e, he, rfl⟩
      obtain ⟨e', he', rfl⟩ := (hissuer e).mpr he
      rw [he']
      rfl
  constructor
  · rcases hopen with hpub | hm | hm | ⟨hempty, hprod⟩
    · exact Or.inl hpub
    · obtain ⟨e, he⟩ := Option.isSome_iff_exists.mp hm
      exact Or.inr (Or.inl ⟨plainIssuer e, (hissuer _).mp ⟨e, he, rfl⟩⟩)
    · obtain ⟨e, he⟩ := Option.isSome_iff_exists.mp hm
      exact Or.inr (Or.inr (Or.inl ⟨plainKey e, (hkey _).mp ⟨e, he, rfl⟩⟩))
    · have hnone : apiKeyEntries raw = [] := by rw [← hc.apiKeys, hempty, List.map_nil]
      exact Or.inr (Or.inr (Or.inr ⟨hnone, hprod⟩))
  · intro label
    rw [passThrough_keyLabel cfg s r _ _ h hpass, forwarded_label]
    exact matchedLabel_iff raw rawIssuer cfg hc r label
  · exact haid
  · exact passThrough_clientIp cfg r s _ _ h hpass
  · rw [proxy_withoutCopies, hf]
  · intro e he now iss rows pulls asked entries hr
    exact revocations_bound now iss h rows pulls e.aid asked entries ((haid _).mpr ⟨e, he, rfl⟩) hr

def relayConfig : GateConfig where
  apiKeyEntries := [⟨js "console", js "k3y", by decide⟩]
  issuerKeyEntries := [⟨⟨js "relay-1", js "s3cret", by decide⟩, js "aid:pubkey:abc"⟩]
  isProduction := true
  clientIpHeader := []
  trustedProxyHops := 0
  rateLimitEnabled := true
  rateLimitEnrollPerIpMin := 5
  rateLimitPublicPerIpMin := 60
  rateLimitApiKeyMin := 600

def relayRequest : Request where
  method := js "GET"
  pathname := js "/api/revocations"
  headers := [⟨js "authorization", js "Bearer s3cret", by decide⟩,
    ⟨keyIssuerHeader, js "aid:pubkey:xyz", by decide⟩]

theorem request_gate_relay :
    ∃ h, proxy relayConfig ids (fun _ => true) relayRequest = .forward h ∧
      RequestGate.get h keyIssuerHeader = some (js "aid:pubkey:abc") ∧
        Gated (some (js "console:k3y,")) (some (js " relay-1@aid:pubkey:abc=s3cret")) relayConfig
          ids (fun _ => true) relayRequest h := by
  have hc : Configured (some (js "console:k3y,")) (some (js " relay-1@aid:pubkey:abc=s3cret"))
      relayConfig := ⟨by decide, by decide⟩
  have hforward : (forwarded (proxy relayConfig ids (fun _ => true) relayRequest)).isSome =
      true := by decide
  obtain ⟨h, hh⟩ := Option.isSome_iff_exists.mp hforward
  have hf := forwarded_some _ h hh
  have hg := request_gate _ _ relayConfig hc ids (fun _ => true) relayRequest h hf
  have hopen : OpensRelay (some (js "console:k3y,")) (some (js " relay-1@aid:pubkey:abc=s3cret"))
      relayRequest ⟨⟨js "relay-1", js "s3cret"⟩, js "aid:pubkey:abc"⟩ :=
    ⟨by decide, by decide, by decide⟩
  exact ⟨h, hf, (hg.keyIssuer _).mpr ⟨_, hopen, rfl⟩, hg⟩

end ControlPlane.RevocationRelay
