import ControlPlane.RunMachine
import ControlPlane.TctRows

/-!
# What a projected row owes to its signed token

With strict verification a report is projected when the SDK accepts its
token, and the row is built from the claims beside the token. The SDK itself
ties one grant and the audience of a TCT, and the issuer and the audience of a
delegation, to the token. Every other column is the reporter's word.
-/

set_option autoImplicit false

namespace ControlPlane.TctCustody
open ControlPlane.JsText ControlPlane.JsValue ControlPlane.HttpValidate ControlPlane.TctParse
open ControlPlane.TctMonitor ControlPlane.TctRows ControlPlane.RunMachine

structure TctClaims where
  jti : Text
  iss : Text
  sub : Text
  aud : Text
  grants : List Text
  iat : ℚ
  exp : ℚ
  deriving DecidableEq, Repr

/-- The claims of a signed delegation, with the TCT that its voucher names. -/
structure DelegationClaims where
  jti : Option Text
  iss : Text
  sub : Text
  aud : Text
  scope : List Text
  iat : Option ℚ
  exp : ℚ
  srcJti : Text
  deriving DecidableEq, Repr

/-- A text of a token, which is UTF-8 and has no lone surrogate. -/
def textClaim (o : Json) (key : Text) : Option Text :=
  (nonEmptyString (o.get key)).filter isWellFormed

def listClaim (o : Json) (key : Text) : Option (List Text) := (o.get key).bind strings?

def numberClaim (o : Json) (key : Text) : Option ℚ := readNumber o [key]

/-- The payload of a compact JWS under the claim names of a TCT. -/
def tctClaims (C : Codec) (token : Text) : Option TctClaims := do
  let p ← decodeJwsClaims C (some (.str token))
  let jti ← textClaim p (js "jti")
  let iss ← textClaim p (js "iss")
  let sub ← textClaim p (js "sub")
  let aud ← textClaim p (js "aud")
  let grants ← listClaim p (js "grants")
  let iat ← numberClaim p (js "iat")
  let exp ← numberClaim p (js "exp")
  return ⟨jti, iss, sub, aud, grants, iat, exp⟩

def delegationTokenClaims (C : Codec) (token : Text) : Option DelegationClaims := do
  let p ← decodeJwsClaims C (some (.str token))
  let iss ← textClaim p (js "iss")
  let sub ← textClaim p (js "sub")
  let aud ← textClaim p (js "aud")
  let scope ← listClaim p (js "scope")
  let exp ← numberClaim p (js "exp")
  let voucher ← textClaim p (js "voucher")
  let source ← decodeJwsClaims C (some (.str voucher))
  let srcJti ← textClaim source (js "src_jti")
  return ⟨textClaim p (js "jti"), iss, sub, aud, scope, numberClaim p (js "iat"), exp, srcJti⟩

theorem textClaim_wellFormed (o : Json) (key t : Text) (h : textClaim o key = some t) :
    isWellFormed t = true := (Option.filter_eq_some_iff.mp h).2

theorem tctClaims_wellFormed (C : Codec) (token : Text) (c : TctClaims)
    (h : tctClaims C token = some c) :
    isWellFormed c.iss = true ∧ isWellFormed c.sub = true ∧ isWellFormed c.aud = true := by
  simp only [tctClaims, Option.bind_eq_bind, Option.bind_eq_some_iff, Option.pure_def,
    Option.some.injEq] at h
  obtain ⟨p, -, jti, -, iss, hiss, sub, hsub, aud, haud, grants, -, iat, -, exp, -, rfl⟩ := h
  exact ⟨textClaim_wellFormed _ _ _ hiss, textClaim_wellFormed _ _ _ hsub,
    textClaim_wellFormed _ _ _ haud⟩

theorem delegationTokenClaims_wellFormed (C : Codec) (token : Text) (c : DelegationClaims)
    (h : delegationTokenClaims C token = some c) :
    isWellFormed c.iss = true ∧ isWellFormed c.sub = true := by
  simp only [delegationTokenClaims, Option.bind_eq_bind, Option.bind_eq_some_iff,
    Option.pure_def, Option.some.injEq] at h
  obtain ⟨p, -, iss, hiss, sub, hsub, aud, -, scope, -, exp, -, voucher, -, source, -, srcJti, -,
    rfl⟩ := h
  exact ⟨textClaim_wellFormed _ _ _ hiss, textClaim_wellFormed _ _ _ hsub⟩

/-- One event that is processed at an instant, over the registry of that time. -/
structure Ingest where
  now : Instant
  getAgent : Text → Option Text
  event : AuditEventRecord

def ingest (M : Monitor) (i : Ingest) (t : Tables) : Option Tables :=
  some (onEvent M i.now i.getAgent i.event t)

/-- The tokens that agents signed, and the AID of a manifest that verifies at
an instant, with or without insecure loopback endpoints. -/
structure Signed where
  tct : Text → Prop
  delegation : Text → Prop
  manifest : Instant → Bool → Text → Option Text

/-- The SDK accepts exactly the genuine, unexpired tokens: a TCT for one of its
grants and its audience; a delegation for its audience under the key of a
manifest of its issuer. -/
structure Exact (M : Monitor) (S : Signed) : Prop where
  tct : ∀ now token grant aud,
    M.sdk.verifyTct now token grant aud observeRevocation = .ok () ↔ S.tct token ∧
      ∃ c, tctClaims M.runtime.toCodec token = some c ∧ (now : ℚ) < c.exp*1000 ∧
        grant ∈ c.grants ∧ c.aud = aud
  delegation : ∀ now token aud manifests insecure,
    M.sdk.verifyDelegation now token aud manifests observeRevocation insecure = .ok () ↔
      S.delegation token ∧ ∃ c, delegationTokenClaims M.runtime.toCodec token = some c ∧
        (now : ℚ) < c.exp*1000 ∧ c.aud = aud ∧
          ∃ m ∈ manifests, S.manifest now insecure m = some c.iss

/-- The registry keeps a manifest under the AID that it names. -/
def Filed (S : Signed) (i : Ingest) : Prop :=
  ∀ aid m, i.getAgent aid = some m →
    ∀ now insecure x, S.manifest now insecure m = some x → x = aid

/-- A row holds the values of a TCT's claims; identifiers up to letter case. -/
structure CarriesTct (c : TctClaims) (row : ParsedTct) : Prop where
  jti : row.jti = uuid c.jti
  issuer : row.issuerAid = c.iss
  subject : row.subjectAid = c.sub
  audience : row.audienceAid = c.aud
  grants : row.grants = c.grants
  issuedAt : epochToIso c.iat = some row.issuedAt
  expiresAt : (epochToIso c.exp).map some = some row.expiresAt

/-- Without an issue time in the token the row has the time of the report. -/
structure CarriesDelegation (c : DelegationClaims) (ts : Instant) (row : ParsedDelegation) :
    Prop where
  jti : ∀ j ∈ c.jti, row.jti = uuid j
  parent : row.parentJti = uuid c.srcJti
  delegator : row.delegatorAid = c.iss
  delegatee : row.delegateeAid = c.sub
  scope : row.scope = c.scope
  issuedAt : (match c.iat with | some q => epochToIso q | none => some ts) = some row.issuedAt
  expiresAt : (epochToIso c.exp).map some = some row.expiresAt

/-- A column of 512 characters does not take the AID for the blanks at its end. -/
def Uncut (aid : Text) : Prop := takesVarchar 512 aid = true → fitsVarchar 512 aid = true

instance (aid : Text) : Decidable (Uncut aid) := inferInstanceAs (Decidable (_ → _))

theorem varchar_of_uncut (aid : Text) (ht : takesVarchar 512 aid = true) (hu : Uncut aid)
    (hw : isWellFormed aid = true) : varchar 512 aid = aid :=
  (varchar_of_fits 512 aid (hu ht)).trans (toWellFormed_of_isWellFormed aid hw)

/-- Where the SDK accepts a reported token, the claims beside it say of the
identifier, the parties, the grants and the times what the token says, and the
columns cut no party of the token. -/
def HonestTct (M : Monitor) (now : Instant) (raw : Json) : Prop :=
  let claims := claimsOf raw
  ∀ token ∈ wrapperToken (some raw), ∀ grant ∈ (readStringArray claims [js "grants"]).head?,
    ∀ aud ∈ (readString claims audienceKeys).or (readString claims subjectKeys),
      M.sdk.verifyTct now token grant aud observeRevocation = .ok () →
        ∀ c ∈ tctClaims M.runtime.toCodec token,
          readString claims [js "jti"] = some c.jti ∧ readString claims issuerKeys = some c.iss ∧
            readString claims subjectKeys = some c.sub ∧
              readStringArray claims [js "grants"] = c.grants ∧
                readNumber claims issuedAtKeys = some c.iat ∧
                  readNumber claims expiresAtKeys = some c.exp ∧
                    ∀ aid ∈ [c.iss, c.sub, c.aud], Uncut aid

instance (M : Monitor) (now : Instant) (raw : Json) : Decidable (HonestTct M now raw) :=
  inferInstanceAs (Decidable (∀ token ∈ wrapperToken (some raw), _))

/-- The same of a delegation, over the explicit fields and the claims. -/
def HonestDelegation (M : Monitor) (i : Ingest) : Prop :=
  let payload := i.event.payload
  let claims := delegationClaims payload
  ∀ token ∈ wrapperToken (delegationWrapper payload), ∀ aud ∈ reportedAud payload,
    ∀ delegator ∈ readDelegator payload claims,
      M.sdk.verifyDelegation i.now token aud (i.getAgent delegator).toList observeRevocation
          M.insecureLocalhost = .ok () →
        ∀ c ∈ delegationTokenClaims M.runtime.toCodec token,
          (∀ j ∈ c.jti, reportedJti payload claims = some j) ∧
            readParentJti M.runtime.toCodec payload claims = some c.srcJti ∧
              readDelegatee payload claims = some c.sub ∧
                readStringArray claims [js "scope", js "grants"] = c.scope ∧
                  readNumber claims issuedAtKeys = c.iat ∧
                    readNumber claims expiresAtKeys = some c.exp ∧
                      ∀ aid ∈ [c.iss, c.sub], Uncut aid

instance (M : Monitor) (i : Ingest) : Decidable (HonestDelegation M i) :=
  inferInstanceAs (Decidable (∀ token ∈ wrapperToken (delegationWrapper i.event.payload), _))

def Honest (M : Monitor) (i : Ingest) : Prop :=
  (∀ raw ∈ reportedTcts i.event.payload, HonestTct M i.now raw) ∧ HonestDelegation M i

instance (M : Monitor) (i : Ingest) : Decidable (Honest M i) :=
  inferInstanceAs (Decidable (_ ∧ _))

def TctBacked (M : Monitor) (S : Signed) (is : List Ingest) (row : ParsedTct) : Prop :=
  ∃ i ∈ is, ∃ raw ∈ reportedTcts i.event.payload, ∃ token c,
    wrapperToken (some raw) = some token ∧ S.tct token ∧
      tctClaims M.runtime.toCodec token = some c ∧ CarriesTct c row

def DelegationBacked (M : Monitor) (S : Signed) (is : List Ingest) (row : ParsedDelegation) :
    Prop :=
  ∃ i ∈ is, ∃ token c, wrapperToken (delegationWrapper i.event.payload) = some token ∧
    S.delegation token ∧ delegationTokenClaims M.runtime.toCodec token = some c ∧
      CarriesDelegation c i.event.ts row

theorem gate_strict (M : Monitor) (hs : M.mode = .strict) (verify : Unit → VerificationOutcome)
    (h : gateObserved M verify = true) : (verify ()).verified = true := by
  simp only [gateObserved, hs, decideProjection] at h
  split at h
  · next hv => exact (Bool.and_eq_true_iff.mp hv).2
  · cases h

theorem ofCall_verified (call : Except Text Unit) (h : (ofCall call).verified = true) :
    call = .ok () := by
  cases call with
  | ok u => rfl
  | error e => cases h

theorem verifyObservedTct_verified (M : Monitor) (now : Instant) (raw : Json)
    (parsed : ParsedTct) (h : (verifyObservedTct M now raw parsed).verified = true) :
    ∃ token grant, wrapperToken (some raw) = some token ∧ parsed.grants.head? = some grant ∧
      M.sdk.verifyTct now token grant parsed.audienceAid observeRevocation = .ok () := by
  unfold verifyObservedTct at h
  split at h
  · cases h
  · next token htoken =>
    split at h
    · cases h
    · next grant rest hgrants =>
      refine ⟨token, grant, htoken, by rw [hgrants]; rfl, ?_⟩
      have hcall := ofCall_verified _ h
      cases hagent : M.sdk.getCpAgent with
      | ok u => simpa [hagent, Except.bind] using hcall
      | error e => simp [hagent, Except.bind] at hcall

theorem verifyObservedDelegation_verified (M : Monitor) (now : Instant) (payload : Json)
    (manifests : List Text)
    (h : (verifyObservedDelegation M now payload manifests).verified = true) :
    ∃ token aud, wrapperToken (delegationWrapper payload) = some token ∧
      reportedAud payload = some aud ∧
        M.sdk.verifyDelegation now token aud manifests observeRevocation M.insecureLocalhost =
          .ok () := by
  unfold verifyObservedDelegation at h
  split at h
  · cases h
  · next token htoken =>
    split at h
    · cases h
    · next aud haud => exact ⟨token, aud, htoken, haud, ofCall_verified _ h⟩

theorem parseTct_fields (raw : Json) (ts : Instant) (tct : ParsedTct)
    (h : parseTct raw ts = some (some tct)) :
    readString (claimsOf raw) [js "jti"] = some tct.jti ∧
      readString (claimsOf raw) issuerKeys = some tct.issuerAid ∧
        readString (claimsOf raw) subjectKeys = some tct.subjectAid ∧
          tct.audienceAid = (readString (claimsOf raw) audienceKeys).getD tct.subjectAid ∧
            tct.grants = readStringArray (claimsOf raw) [js "grants"] ∧
              readTimes (claimsOf raw) ts = some (tct.issuedAt, tct.expiresAt) := by
  unfold parseTct at h
  split at h
  · cases h
  · simp only at h
    split at h
    · next jti issuer subject hjti hissuer hsubject =>
      split at h
      · simp only [Option.map_eq_some_iff, Option.some.injEq] at h
        obtain ⟨times, htimes, rfl⟩ := h
        exact ⟨hjti, hissuer, hsubject, rfl, rfl, htimes⟩
      · cases h
    · cases h

theorem parseDelegation_fields (C : Runtime) (payload : Json) (ts : Instant)
    (d : ParsedDelegation) (h : parseDelegation C payload ts = some (some d)) :
    let claims := delegationClaims payload
    readDelegationJti C payload claims = some d.jti ∧
      readParentJti C.toCodec payload claims = some d.parentJti ∧
        readDelegator payload claims = some d.delegatorAid ∧
          readDelegatee payload claims = some d.delegateeAid ∧
            d.scope = readStringArray claims [js "scope", js "grants"] ∧
              readTimes claims ts = some (d.issuedAt, d.expiresAt) := by
  unfold parseDelegation at h
  simp only at h
  split at h
  · next jti parentJti delegator delegatee hjti hparent hdelegator hdelegatee =>
    split at h
    · simp only [Option.map_eq_some_iff, Option.some.injEq] at h
      obtain ⟨times, htimes, rfl⟩ := h
      exact ⟨hjti, hparent, hdelegator, hdelegatee, rfl, htimes⟩
    · cases h
  · cases h

theorem readTimes_eq (claims : Json) (ts issuedAt : Instant) (expiresAt : Option Instant)
    (exp : ℚ) (h : readTimes claims ts = some (issuedAt, expiresAt))
    (hexp : readNumber claims expiresAtKeys = some exp) :
    (match readNumber claims issuedAtKeys with
      | some q => epochToIso q
      | none => some ts) = some issuedAt ∧
      (epochToIso exp).map some = some expiresAt := by
  simp only [readTimes, hexp, Option.bind_eq_some_iff, Option.map_eq_some_iff,
    Prod.mk.injEq] at h
  obtain ⟨i, hi, e, ⟨e', he', rfl⟩, rfl, rfl⟩ := h
  exact ⟨hi, by rw [he']; rfl⟩

theorem stored_tct_backed (M : Monitor) (S : Signed) (hs : M.mode = .strict) (hE : Exact M S)
    (is : List Ingest) (i : Ingest) (hi : i ∈ is) (raw : Json)
    (hraw : raw ∈ reportedTcts i.event.payload) (hok : HonestTct M i.now raw) (tct : ParsedTct)
    (hparse : parseTct raw i.event.ts = some (some tct))
    (hgate : gateObserved M (fun _ => verifyObservedTct M i.now raw tct) = true)
    (hstor : tctStorable tct i.event.sessionId = true) : TctBacked M S is (storedTct tct) := by
  obtain ⟨token, grant, htoken, hgrant, hcall⟩ :=
    verifyObservedTct_verified M i.now raw tct (gate_strict M hs _ hgate)
  obtain ⟨hsigned, c, hc, -, -, haud⟩ := (hE.tct _ _ _ _).mp hcall
  obtain ⟨hjti, hissuer, hsubject, haudience, hgrants, htimes⟩ := parseTct_fields _ _ _ hparse
  have hauds : (readString (claimsOf raw) audienceKeys).or
      (readString (claimsOf raw) subjectKeys) = some tct.audienceAid := by
    rw [haudience, hsubject]
    cases readString (claimsOf raw) audienceKeys <;> rfl
  obtain ⟨bj, bi, bs, bg, biat, bexp, huncut⟩ :=
    hok token htoken grant (hgrants ▸ hgrant) _ hauds hcall c hc
  obtain ⟨hiat, hexp⟩ := readTimes_eq _ _ _ _ _ htimes bexp
  obtain ⟨wi, ws, wa⟩ := tctClaims_wellFormed _ _ _ hc
  rw [hjti, Option.some.injEq] at bj
  rw [hissuer, Option.some.injEq] at bi
  rw [hsubject, Option.some.injEq] at bs
  rw [biat] at hiat
  simp only [List.forall_mem_cons, List.not_mem_nil, false_implies, implies_true,
    and_true] at huncut
  obtain ⟨ui, us, ua⟩ := huncut
  simp only [tctStorable, List.all_cons, List.all_nil, Bool.and_true, Bool.and_eq_true] at hstor
  obtain ⟨ti, ts, ta⟩ := hstor.1.1.1.1.1
  refine ⟨i, hi, raw, hraw, token, c, htoken, hsigned, hc, ?_⟩
  exact {
    jti := congrArg uuid bj
    issuer := bi ▸ varchar_of_uncut _ ti (bi ▸ ui) (bi ▸ wi)
    subject := bs ▸ varchar_of_uncut _ ts (bs ▸ us) (bs ▸ ws)
    audience := haud ▸ varchar_of_uncut _ ta (haud ▸ ua) (haud ▸ wa)
    grants := hgrants.trans bg
    issuedAt := hiat
    expiresAt := hexp }

theorem stored_delegation_backed (M : Monitor) (S : Signed) (hs : M.mode = .strict)
    (hE : Exact M S) (is : List Ingest) (i : Ingest) (hi : i ∈ is) (hf : Filed S i)
    (hok : HonestDelegation M i) (d : ParsedDelegation)
    (hparse : parseDelegation M.runtime i.event.payload i.event.ts = some (some d))
    (hgate : gateObserved M (fun _ => verifyObservedDelegation M i.now i.event.payload
      (issuerManifests M i.getAgent d)) = true) (hstor : delegationStorable d = true) :
    DelegationBacked M S is (storedDelegation d) := by
  obtain ⟨token, aud, htoken, haud, hcall⟩ :=
    verifyObservedDelegation_verified M i.now _ _ (gate_strict M hs _ hgate)
  have hmanifests : issuerManifests M i.getAgent d = (i.getAgent d.delegatorAid).toList := by
    simp [issuerManifests, hs]
  rw [hmanifests] at hcall
  obtain ⟨hsigned, c, hc, -, -, m, hm, hsigner⟩ := (hE.delegation _ _ _ _ _).mp hcall
  obtain ⟨hjti, hparent, hdelegator, hdelegatee, hscope, htimes⟩ :=
    parseDelegation_fields _ _ _ _ hparse
  have hiss : c.iss = d.delegatorAid :=
    hf d.delegatorAid m (Option.mem_toList.mp hm) i.now M.insecureLocalhost c.iss hsigner
  obtain ⟨bj, bp, bs, bscope, biat, bexp, huncut⟩ :=
    hok token htoken aud haud _ hdelegator hcall c hc
  obtain ⟨hiat, hexp⟩ := readTimes_eq _ _ _ _ _ htimes bexp
  obtain ⟨wi, ws⟩ := delegationTokenClaims_wellFormed _ _ _ hc
  rw [hparent, Option.some.injEq] at bp
  rw [hdelegatee, Option.some.injEq] at bs
  rw [biat] at hiat
  simp only [List.forall_mem_cons, List.not_mem_nil, false_implies, implies_true,
    and_true] at huncut
  simp only [delegationStorable, List.all_cons, List.all_nil, Bool.and_true,
    Bool.and_eq_true] at hstor
  obtain ⟨ti, ts⟩ := hstor.1.1.1
  refine ⟨i, hi, token, c, htoken, hsigned, hc, ?_⟩
  exact {
    jti := by
      intro j hj
      simp only [readDelegationJti, bj j hj, Option.some_or, Option.some.injEq] at hjti
      exact congrArg uuid hjti.symm
    parent := congrArg uuid bp
    delegator := (varchar_of_uncut _ ti (hiss ▸ huncut.1) (hiss ▸ wi)).trans hiss.symm
    delegatee := bs ▸ varchar_of_uncut _ ts (bs ▸ huncut.2) (bs ▸ ws)
    scope := hscope.trans bscope
    issuedAt := hiat
    expiresAt := hexp }

/-- Where no report says other than its verified token, every row carries the
values of a token that was reported and signed. -/
theorem rows_carry_token (M : Monitor) (S : Signed) (hs : M.mode = .strict) (hE : Exact M S)
    (is : List Ingest) (hf : ∀ i ∈ is, Filed S i) (hok : ∀ i ∈ is, Honest M i) (t : Tables)
    (hr : run (ingest M) is Tables.empty = some t) :
    (∀ row ∈ t.issuedTcts, TctBacked M S is row.toParsedTct) ∧
      ∀ row ∈ t.delegations, DelegationBacked M S is row.toParsedDelegation := by
  have hempty : Rows (TctBacked M S is) (DelegationBacked M S is) Tables.empty :=
    ⟨fun _ h => (List.not_mem_nil h).elim, fun _ h => (List.not_mem_nil h).elim⟩
  apply run_invariant (ingest M) (fun i _ => i ∈ is) (Rows _ _) ?_ is _ t
    (guarded_labels _ (· ∈ is) is _ (fun i hi => hi)) hempty hr
  intro i u v hi hu hstep
  simp only [ingest, Option.some.injEq] at hstep
  subst hstep
  apply rows_onEvent _ _ u M i.now i.getAgent i.event ?_ ?_ hu
  · intro raw hraw tct hparse hgate hstor
    exact stored_tct_backed M S hs hE is i hi raw hraw ((hok i hi).1 raw hraw) tct hparse hgate
      hstor
  · intro d hparse hgate hstor
    exact stored_delegation_backed M S hs hE is i hi (hf i hi) (hok i hi).2 d hparse hgate hstor

section Ideal
variable (C : Codec) (S : Signed) [DecidablePred S.tct] [DecidablePred S.delegation]

def idealSdk : Sdk where
  getCpAgent := .ok ()
  verifyTct now token grant aud _ :=
    if S.tct token ∧ ∃ c ∈ tctClaims C token,
        (now : ℚ) < c.exp*1000 ∧ grant ∈ c.grants ∧ c.aud = aud then .ok ()
    else .error (js "TCT rejected")
  verifyDelegation now token aud manifests _ insecure :=
    if S.delegation token ∧ ∃ c ∈ delegationTokenClaims C token,
        (now : ℚ) < c.exp*1000 ∧ c.aud = aud ∧
          ∃ m ∈ manifests, S.manifest now insecure m = some c.iss then .ok ()
    else .error (js "delegation rejected")

theorem accepted_iff (p : Prop) [Decidable p] (e : Text) :
    (if p then Except.ok () else .error e) = (.ok () : Except Text Unit) ↔ p := by
  by_cases hp : p <;> simp [hp]

theorem idealSdk_exact (M : Monitor) (hM : M.runtime.toCodec = C) (hS : M.sdk = idealSdk C S) :
    Exact M S := by
  subst hM
  constructor
  · intro now token grant aud
    rw [hS]
    exact accepted_iff _ _
  · intro now token aud manifests insecure
    rw [hS]
    exact accepted_iff _ _

end Ideal

section Scenario

def header : Text := js "eyJhbGciOiJFZERTQSJ9"

def tctJti : Text := js "7d9f2c1e-0b6a-4e55-9c3d-1f2a3b4c5d6e"

def tctBag (jti : Text) : Json :=
  .obj [(js "jti", .str jti), (js "iss", .str (js "aid:a")), (js "sub", .str (js "aid:b")),
    (js "aud", .str (js "aid:b")), (js "grants", .arr [.str (js "read")]),
    (js "iat", .num (.finite 1000)), (js "exp", .num (.finite 2000))]

def voucher : Text :=
  header++dot::js "eyJzcmNfanRpIjoiN2Q5ZjJjMWUtMGI2YS00ZTU1LTljM2QtMWYyYTNiNGM1ZDZlIn0"++
    dot::js "c2ln"

def delegationBag : Json :=
  .obj [(js "aud", .str (js "aid:a")), (js "exp", .num (.finite 2000)),
    (js "iss", .str (js "aid:b")), (js "scope", .arr [.str (js "read")]),
    (js "sub", .str (js "aid:c")), (js "voucher", .str voucher)]

def tctSegment : Text :=
  js "eyJqdGkiOiI3ZDlmMmMxZS0wYjZhLTRlNTUtOWMzZC0xZjJhM2I0YzVkNmUiLCJpc3MiOiJhaWQ6YSIs"++
    js "InN1YiI6ImFpZDpiIiwiYXVkIjoiYWlkOmIiLCJncmFudHMiOlsicmVhZCJdLCJpYXQiOjEwMDAsImV4"++
    js "cCI6MjAwMH0"

def delegationSegment : Text :=
  js "eyJhdWQiOiJhaWQ6YSIsImV4cCI6MjAwMCwiaXNzIjoiYWlkOmIiLCJzY29wZSI6WyJyZWFkIl0sInN1"++
    js "YiI6ImFpZDpjIiwidm91Y2hlciI6ImV5SmhiR2NpT2lKRlpFUlRRU0o5LmV5SnpjbU5mYW5ScElqb2lO"++
    js "MlE1WmpKak1XVXRNR0kyWVMwMFpUVTFMVGxqTTJRdE1XWXlZVE5pTkdNMVpEWmxJbjAuYzJsbiJ9"

def decoded : List (Text × Text × Json) :=
  [(header, js "\x7b\"alg\":\"EdDSA\"\x7d", .obj [(js "alg", .str (js "EdDSA"))]),
    (tctSegment, js "\x7b\"jti\":\""++tctJti++js "\",\"iss\":\"aid:a\",\"sub\":\"aid:b\","++
      js "\"aud\":\"aid:b\",\"grants\":[\"read\"],\"iat\":1000,\"exp\":2000\x7d", tctBag tctJti),
    (js "eyJzcmNfanRpIjoiN2Q5ZjJjMWUtMGI2YS00ZTU1LTljM2QtMWYyYTNiNGM1ZDZlIn0",
      js "\x7b\"src_jti\":\""++tctJti++js "\"\x7d", .obj [(js "src_jti", .str tctJti)]),
    (delegationSegment, js "\x7b\"aud\":\"aid:a\",\"exp\":2000,\"iss\":\"aid:b\","++
      js "\"scope\":[\"read\"],\"sub\":\"aid:c\",\"voucher\":\""++voucher++js "\"\x7d",
      delegationBag)]

def runtime : Runtime where
  decode s := ((decoded.find? (·.1 = s)).map (·.2.1)).getD []
  parse t := (decoded.find? (·.2.1 = t)).map (·.2.2)
  sha1 _ := [49, 77, 82, 5, 240, 52, 125, 72, 169, 76, 94, 45, 43, 217, 92, 211, 173, 190, 155, 140]

def tctToken : Text := header++dot::tctSegment++dot::js "c2ln"

def delegationToken : Text := header++dot::delegationSegment++dot::js "c2ln"

def signed : Signed where
  tct token := token = tctToken
  delegation token := token = delegationToken
  manifest _ _ m := if m = js "manifest of aid:b" then some (js "aid:b") else none

instance : DecidablePred signed.tct := fun token => inferInstanceAs (Decidable (token = tctToken))

instance : DecidablePred signed.delegation :=
  fun token => inferInstanceAs (Decidable (token = delegationToken))

def monitor : Monitor where
  runtime := runtime
  sdk := idealSdk runtime.toCodec signed
  mode := .strict
  insecureLocalhost := false

def report (type token : Text) (claims : Json) : Ingest where
  now := 1500000
  getAgent aid := if aid = js "aid:b" then some (js "manifest of aid:b") else none
  event := { type := type, ts := 1500000, sessionId := none,
             payload := .obj [(js "tct", .obj [(js "token", .str token), (js "claims", claims)])] }

def honestReports : List Ingest :=
  [report tctIssued tctToken (tctBag tctJti),
    report delegationIssued delegationToken delegationBag]

theorem monitor_exact : Exact monitor signed :=
  idealSdk_exact runtime.toCodec signed monitor rfl rfl

theorem report_filed (type token : Text) (claims : Json) :
    Filed signed (report type token claims) := by
  intro aid m hm now insecure x hx
  simp only [report, Option.ite_none_right_eq_some, Option.some.injEq] at hm
  simp only [signed, Option.ite_none_right_eq_some, Option.some.injEq] at hx
  exact hx.2.symm.trans hm.1.symm

theorem honestReports_honest : ∀ i ∈ honestReports, Honest monitor i := by decide +kernel

theorem rows_carry_token_honest :
    ∃ t, run (ingest monitor) honestReports Tables.empty = some t ∧
      t.issuedTcts.length = 1 ∧ t.delegations.length = 1 ∧
        (∀ row ∈ t.issuedTcts, TctBacked monitor signed honestReports row.toParsedTct) ∧
          ∀ row ∈ t.delegations,
            DelegationBacked monitor signed honestReports row.toParsedDelegation := by
  have hrun : (run (ingest monitor) honestReports Tables.empty).map
      (fun t => (t.issuedTcts.length, t.delegations.length)) = some (1, 1) := by decide +kernel
  obtain ⟨t, ht, hn⟩ := Option.map_eq_some_iff.mp hrun
  obtain ⟨h1, h2⟩ := Prod.mk.inj hn
  have hf : ∀ i ∈ honestReports, Filed signed i := by
    intro i hi
    simp only [honestReports, List.mem_cons, List.not_mem_nil, or_false] at hi
    rcases hi with rfl | rfl
    · exact report_filed _ _ _
    · exact report_filed _ _ _
  exact ⟨t, ht, h1, h2, rows_carry_token monitor signed rfl monitor_exact honestReports hf
    honestReports_honest t ht⟩

def forgedJti : Text := js "00000000-0000-4000-8000-000000000000"

def forgedReport : List Ingest := [report tctIssued tctToken (tctBag forgedJti)]

theorem forged_jti_projected :
    ¬ ∀ (M : Monitor) (S : Signed), M.mode = .strict → Exact M S → ∀ is : List Ingest,
      (∀ i ∈ is, Filed S i) → ∀ t, run (ingest M) is Tables.empty = some t →
        (∀ row ∈ t.issuedTcts, TctBacked M S is row.toParsedTct) ∧
          ∀ row ∈ t.delegations, DelegationBacked M S is row.toParsedDelegation := by
  intro h
  have hrun : (run (ingest monitor) forgedReport Tables.empty).map
      (fun t => t.issuedTcts.map (·.jti)) = some [forgedJti] := by decide +kernel
  obtain ⟨t, ht, hrows⟩ := Option.map_eq_some_iff.mp hrun
  obtain ⟨row, hrow, hjti⟩ : ∃ row ∈ t.issuedTcts, row.jti = forgedJti :=
    List.mem_map.mp (by rw [hrows]; exact List.mem_singleton_self _)
  have hf : ∀ i ∈ forgedReport, Filed signed i := by
    intro i hi
    rw [List.mem_singleton.mp hi]
    exact report_filed _ _ _
  obtain ⟨i, -, raw, -, token, c, -, htoken, hc, hcarries⟩ :=
    (h monitor signed rfl monitor_exact forgedReport hf t ht).1 row hrow
  have hgenuine : (tctClaims runtime.toCodec tctToken).map (·.jti) = some tctJti := by
    decide +kernel
  have hcj : c.jti = tctJti := by
    rw [show token = tctToken from htoken] at hc
    rw [show tctClaims runtime.toCodec tctToken = some c from hc] at hgenuine
    exact Option.some.inj hgenuine
  have hne : forgedJti ≠ uuid tctJti := by decide +kernel
  exact hne (hjti.symm.trans (hcj ▸ hcarries.jti))

end Scenario

end ControlPlane.TctCustody
