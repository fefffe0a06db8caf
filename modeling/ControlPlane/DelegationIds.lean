import ControlPlane.TctCustody
import ControlPlane.Utf8Text

/-!
# Synthetic ids of delegations

A delegation without an id of its own gets one from a digest over the UTF-8 of
its token: of the signing input for a compact JWS and of the whole token
otherwise. Nothing marks which of the two was hashed, and lone surrogates all
have the same bytes.
-/

set_option autoImplicit false

namespace ControlPlane.DelegationIds
open ControlPlane.JsText ControlPlane.JsValue ControlPlane.HttpValidate ControlPlane.TctParse
open ControlPlane.Utf8Text

/-- A digest over bytes, for texts as `update` reads them. -/
def hashing (C : Codec) (digest : List UInt8 → List UInt8) : Runtime :=
  { C with sha1 := fun t => digest (encodeUtf8 t) }

/-- What the id of a token is made from. -/
def content (C : Codec) (token : Text) : Text := (jwsSigningInput C token).getD token

def hashed (C : Codec) (token : Text) : List UInt8 :=
  encodeUtf8 (js "aitp-delegation:v2"++0::content C token)

/-- Compact JWS with the same first two segments, or the same token. -/
def SameDelegation (C : Codec) (s t : Text) : Prop :=
  s = t ∨ ∃ signingInput, jwsSigningInput C s = some signingInput ∧
    jwsSigningInput C t = some signingInput

/-- One token is the signing input of the other, or both are no JWS and differ
in lone surrogates only. -/
inductive Confused (C : Codec) (s t : Text) : Prop where
  | left (h : jwsSigningInput C s = some t)
  | right (h : jwsSigningInput C t = some s)
  | surrogates (hs : jwsSigningInput C s = none) (ht : jwsSigningInput C t = none) (hne : s ≠ t)
      (h : toWellFormed s = toWellFormed t)

theorem eq_toWellFormed (t : Text) (h : (0xFFFD : UInt16) ∉ toWellFormed t) :
    toWellFormed t = t := by
  induction t using toWellFormed.induct with
  | case1 => rfl
  | case2 u hu =>
    rw [toWellFormed, if_pos hu] at h
    exact absurd (List.mem_singleton_self _) h
  | case3 u hu => rw [toWellFormed, if_neg hu]
  | case4 u v rest hp ih =>
    rw [toWellFormed, if_pos hp] at h ⊢
    rw [ih (fun hmem => h (List.mem_cons_of_mem _ (List.mem_cons_of_mem _ hmem)))]
  | case5 u v rest hp ih =>
    rw [toWellFormed, if_neg hp] at h ⊢
    by_cases hu : (isHigh u || isLow u) = true
    · rw [if_pos hu] at h
      exact absurd List.mem_cons_self h
    · rw [if_neg hu, ih (fun hmem => h (List.mem_cons_of_mem _ hmem))]

def Low (t : Text) : Prop := ∀ u ∈ t, u.toNat < 0xD800

theorem low_units (u : UInt16) (h : u.toNat < 0xD800) : isHigh u = false ∧ isLow u = false := by
  rw [← Bool.not_eq_true, ← Bool.not_eq_true, isHigh_iff, isLow_iff]
  omega

theorem toWellFormed_low (s t : Text) (h : Low s) : toWellFormed (s++t) = s++toWellFormed t := by
  induction s with
  | nil => rfl
  | cons u s ih =>
    obtain ⟨hu, hs⟩ := List.forall_mem_cons.mp h
    obtain ⟨hhigh, hlow⟩ := low_units u hu
    rw [List.cons_append, List.cons_append, ← ih hs]
    cases hst : s++t with
    | nil => simp [toWellFormed, hhigh, hlow]
    | cons v rest => simp [toWellFormed, hhigh, hlow]

theorem toWellFormed_of_low (s : Text) (h : Low s) : toWellFormed s = s := by
  have hs := toWellFormed_low s [] h
  rwa [List.append_nil, toWellFormed, List.append_nil] at hs

theorem base64url_low (t : Text) (h : isBase64url t = true) : Low t := by
  intro u hu
  rw [isBase64url, Bool.and_eq_true, List.all_eq_true] at h
  have hunit := h.2 u hu
  simp only [Bool.or_eq_true, Bool.and_eq_true, decide_eq_true_eq, UInt16.le_iff_toNat_le,
    UInt16.reduceToNat, ← UInt16.toNat_inj] at hunit
  omega

section Tokens
variable (C : Codec)

theorem signingInput_parts (s signingInput : Text) (h : jwsSigningInput C s = some signingInput) :
    ∃ header payload, signingInput = header++dot::payload ∧ isBase64url header = true ∧
      isBase64url payload = true := by
  unfold jwsSigningInput at h
  split at h
  · next header payload signature _ =>
    split at h
    · next hparts =>
      rw [Bool.and_eq_true, Bool.and_eq_true] at hparts
      split at h
      · split at h
        · cases h
          exact ⟨header, payload, rfl, hparts.1.1, hparts.1.2⟩
        · cases h
      · cases h
    · cases h
  · cases h

theorem signingInput_low (s signingInput : Text) (h : jwsSigningInput C s = some signingInput) :
    Low signingInput := by
  obtain ⟨header, payload, rfl, hheader, hpayload⟩ := signingInput_parts C s signingInput h
  intro u hu
  rw [List.mem_append, List.mem_cons] at hu
  rcases hu with hu | rfl | hu
  · exact base64url_low header hheader u hu
  · decide
  · exact base64url_low payload hpayload u hu

theorem signingInput_unsigned (s signingInput : Text)
    (h : jwsSigningInput C s = some signingInput) : jwsSigningInput C signingInput = none := by
  obtain ⟨header, payload, rfl, hheader, hpayload⟩ := signingInput_parts C s signingInput h
  rw [jwsSigningInput, List.splitOn_append_cons_self_of_not_mem (isBase64url_dot header hheader),
    List.splitOn_eq_singleton (isBase64url_dot payload hpayload)]

theorem eq_signingInput (s t signingInput : Text)
    (h : jwsSigningInput C s = some signingInput)
    (heq : toWellFormed signingInput = toWellFormed t) : t = signingInput := by
  have hlow := signingInput_low C s signingInput h
  rw [toWellFormed_of_low signingInput hlow] at heq
  have hself := eq_toWellFormed t (by
    rw [← heq]
    intro hmem
    exact absurd (hlow _ hmem) (by decide))
  rw [heq, hself]

theorem content_eq_iff (s t : Text) : toWellFormed (content C s) = toWellFormed (content C t) ↔
    SameDelegation C s t ∨ Confused C s t := by
  constructor
  · intro h
    cases hs : jwsSigningInput C s with
    | some i =>
      cases ht : jwsSigningInput C t with
      | some j =>
        simp only [content, hs, ht, Option.getD_some] at h
        rw [eq_signingInput C s j i hs h] at ht
        exact Or.inl (Or.inr ⟨i, hs, ht⟩)
      | none =>
        simp only [content, hs, ht, Option.getD_some, Option.getD_none] at h
        rw [eq_signingInput C s t i hs h]
        exact Or.inr (.left hs)
    | none =>
      cases ht : jwsSigningInput C t with
      | some j =>
        simp only [content, hs, ht, Option.getD_some, Option.getD_none] at h
        rw [eq_signingInput C t s j ht h.symm]
        exact Or.inr (.right ht)
      | none =>
        simp only [content, hs, ht, Option.getD_none] at h
        by_cases hst : s = t
        · exact Or.inl (Or.inl hst)
        · exact Or.inr (.surrogates hs ht hst h)
  · intro h
    rcases h with (rfl | ⟨i, hs, ht⟩) | hconfused
    · rfl
    · simp only [content, hs, ht, Option.getD_some]
    · cases hconfused with
      | left h => simp only [content, h, signingInput_unsigned C s t h, Option.getD_some,
          Option.getD_none]
      | right h => simp only [content, h, signingInput_unsigned C t s h, Option.getD_some,
          Option.getD_none]
      | surrogates hs ht hne h => simpa only [content, hs, ht, Option.getD_none] using h

theorem not_confused (s t : Text) (h : SameDelegation C s t) : ¬Confused C s t := by
  intro hconfused
  rcases h with rfl | ⟨i, hs, ht⟩
  · cases hconfused with
    | left h =>
      rw [signingInput_unsigned C s s h] at h
      cases h
    | right h =>
      rw [signingInput_unsigned C s s h] at h
      cases h
    | surrogates hs ht hne h => exact hne rfl
  · cases hconfused with
    | left h =>
      rw [signingInput_unsigned C s t h] at ht
      cases ht
    | right h =>
      rw [signingInput_unsigned C t s h] at hs
      cases hs
    | surrogates hs' ht' hne h =>
      rw [hs] at hs'
      cases hs'

theorem hashed_eq_iff (s t : Text) : hashed C s = hashed C t ↔
    toWellFormed (content C s) = toWellFormed (content C t) := by
  have htag : Low (js "aitp-delegation:v2"++[0]) := by
    have hall : (js "aitp-delegation:v2"++[0]).all (fun u => u.toNat < 0xD800) = true := by decide
    intro u hu
    exact of_decide_eq_true (List.all_eq_true.mp hall u hu)
  have hsplit : ∀ x, js "aitp-delegation:v2"++0::x = (js "aitp-delegation:v2"++[0])++x := by
    intro x
    rw [List.append_assoc]
    rfl
  rw [hashed, hashed, encodeUtf8_eq_iff, hsplit (content C s), hsplit (content C t),
    toWellFormed_low _ _ htag, toWellFormed_low _ _ htag, List.append_cancel_left_eq]

end Tokens

def idText (digest : List UInt8) : Text :=
  let b := digest.take 16
  let b := b.modify 6 (fun v => (v &&& 0x0F) ||| 0x50)
  let b := b.modify 8 (fun v => (v &&& 0x3F) ||| 0x80)
  let x := b.flatMap hexByte
  x.take 8++0x2D::(x.drop 8).take 4++0x2D::(x.drop 12).take 4++0x2D::(x.drop 16).take 4++
    0x2D::(x.drop 20).take 12

theorem synthetic_idText (C : Codec) (digest : List UInt8 → List UInt8) (token : Text) :
    syntheticDelegationJti (hashing C digest) token = idText (digest (hashed C token)) := rfl

theorem parsed_jti (R : Runtime) (payload : Json) (ts : Instant) (token : Text)
    (d : ParsedDelegation) (hd : parseDelegation R payload ts = some (some d))
    (htoken : wrapperToken (delegationWrapper payload) = some token)
    (hjti : reportedJti payload (delegationClaims payload) = none) :
    d.jti = syntheticDelegationJti R token := by
  have hfields := (TctCustody.parseDelegation_fields R payload ts d hd).1
  rw [readDelegationJti, hjti, htoken] at hfields
  exact (Option.some.inj hfields).symm

/-- Ids are shared exactly by reports of one delegation, unless the tokens are
confused. -/
theorem delegation_ids_iff (C : Codec) (digest : List UInt8 → List UInt8) (p q : Json)
    (ps qs : Instant) (s t : Text) (d e : ParsedDelegation)
    (hd : parseDelegation (hashing C digest) p ps = some (some d))
    (he : parseDelegation (hashing C digest) q qs = some (some e))
    (hs : wrapperToken (delegationWrapper p) = some s)
    (ht : wrapperToken (delegationWrapper q) = some t)
    (hp : reportedJti p (delegationClaims p) = none)
    (hq : reportedJti q (delegationClaims q) = none)
    (hinj : syntheticDelegationJti (hashing C digest) s =
      syntheticDelegationJti (hashing C digest) t → hashed C s = hashed C t) :
    (d.jti = e.jti ↔ SameDelegation C s t) ↔ ¬Confused C s t := by
  have hids : d.jti = e.jti ↔ SameDelegation C s t ∨ Confused C s t := by
    rw [parsed_jti _ p ps s d hd hs hp, parsed_jti _ q qs t e he ht hq, ← content_eq_iff,
      ← hashed_eq_iff]
    apply Iff.intro hinj
    intro h
    rw [synthetic_idText, synthetic_idText, h]
  rw [hids]
  constructor
  · intro h hconfused
    exact not_confused C s t (h.mp (Or.inr hconfused)) hconfused
  · intro h
    exact ⟨fun hor => hor.resolve_right h, Or.inl⟩

def tokenHeader : Text := js "eyJhbGciOiJFZERTQSJ9"

def tokenCodec : Codec where
  decode t := if t = tokenHeader then js "\x7b\"alg\":\"EdDSA\"\x7d" else []
  parse t :=
    if t = js "\x7b\"alg\":\"EdDSA\"\x7d" then some (.obj [(js "alg", .str (js "EdDSA"))])
    else none

def tokenDigest (bytes : List UInt8) : List UInt8 :=
  if bytes = encodeUtf8 (js "aitp-delegation:v2"++0::(tokenHeader++js ".e30")) then
    [34, 10, 78, 246, 53, 68, 33, 55, 166, 74, 84, 172, 67, 97, 54, 193, 240, 252, 94, 87]
  else []

def issued (token : Text) : Json :=
  .obj [(js "parent_jti", .str (js "5b1d3c1e-4f0a-4f3e-9d53-0c8f5b6a7e21")),
    (js "delegator", .str (js "aid:pubkey:a")), (js "delegatee", .str (js "aid:pubkey:b")),
    (js "delegation", .obj [(js "token", .str token)])]

def issuedRow : ParsedDelegation :=
  ⟨js "220a4ef6-3544-5137-a64a-54ac436136c1", js "5b1d3c1e-4f0a-4f3e-9d53-0c8f5b6a7e21",
    js "aid:pubkey:a", js "aid:pubkey:b", [], 0, none⟩

theorem resigned_delegation :
    (issuedRow.jti = issuedRow.jti ↔
      SameDelegation tokenCodec (tokenHeader++js ".e30.AA") (tokenHeader++js ".e30.AB")) ↔
      ¬Confused tokenCodec (tokenHeader++js ".e30.AA") (tokenHeader++js ".e30.AB") :=
  delegation_ids_iff tokenCodec tokenDigest (issued (tokenHeader++js ".e30.AA"))
    (issued (tokenHeader++js ".e30.AB")) 0 0 _ _ issuedRow issuedRow (by decide +kernel)
    (by decide +kernel) (by decide) (by decide) (by decide) (by decide)
    (fun _ => by decide +kernel)

/-- A token that is no JWS takes the id of the one it is the signing input of. -/
theorem signing_input_taken :
    parseDelegation (hashing tokenCodec tokenDigest) (issued (tokenHeader++js ".e30.AA")) 0 =
      some (some issuedRow) ∧
    parseDelegation (hashing tokenCodec tokenDigest) (issued (tokenHeader++js ".e30")) 0 =
      some (some issuedRow) ∧
    jwsSigningInput tokenCodec (tokenHeader++js ".e30") = none ∧
    ¬SameDelegation tokenCodec (tokenHeader++js ".e30.AA") (tokenHeader++js ".e30") := by
  constructor
  · decide +kernel
  constructor
  · decide +kernel
  constructor
  · decide
  · rintro (heq | ⟨i, -, hnone⟩)
    · revert heq
      decide
    · have : jwsSigningInput tokenCodec (tokenHeader++js ".e30") = none := by decide
      rw [this] at hnone
      cases hnone

end ControlPlane.DelegationIds
