import ControlPlane.HttpValidate

/-!
# Reported TCTs and delegations

An event payload is projected onto column values through chains of accepted
names. The values come from the claims bag of the report, from explicit
payload fields and, for the parent of a delegation, from the voucher inside
the claims. Nothing is read from the signed token beside the bag.
-/

set_option autoImplicit false

namespace ControlPlane.TctParse
open ControlPlane.JsText ControlPlane.JsValue ControlPlane.HttpValidate

/-- With the SHA-1 digest of a text. -/
structure Runtime extends Codec where
  sha1 : Text → List UInt8

def readString (o : Json) : List Text → Option Text
  | [] => none
  | k::ks =>
    match o.get k with
    | some (.str (u::t)) => some (u::t)
    | _ => readString o ks

/-- The strings of an array that holds nothing else. -/
def strings? : Json → Option (List Text)
  | .arr items => items.mapM Json.string?
  | _ => none

def readStringArray (o : Json) : List Text → List Text
  | [] => []
  | k::ks =>
    match (o.get k).bind strings? with
    | some ts => ts
    | none => readStringArray o ks

def readNumber (o : Json) : List Text → Option ℚ
  | [] => none
  | k::ks =>
    match o.get k with
    | some (.num (.finite q)) => some q
    | _ => readNumber o ks

/-- `new Date(secs * 1000).toISOString()`, which throws on an invalid date. -/
def epochToIso (secs : ℚ) : Option Instant := toISOString (toDouble (secs*1000))

def readCnf (claims : Json) : Option Text :=
  match nonEmptyString ((claims.get (js "cnf")).bind (·.get (js "jkt"))) with
  | some t => some t
  | none =>
    match nonEmptyString (claims.get (js "cnf")) with
    | some t => some t
    | none => nonEmptyString ((claims.get (js "binding")).bind (·.get (js "cnf")))

def claimsOf (raw : Json) : Json :=
  match raw.get (js "claims") with
  | some claims => if claims.isObject then claims else raw
  | none => raw

def decodeJwsClaims (C : Codec) (jws : Option Json) : Option Json :=
  match jws with
  | some (.str t) =>
    match t.splitOn dot with
    | _::seg::_ => if seg = [] then none else (C.parse (C.decode seg)).filter Json.isObject
    | _ => none
  | _ => none

def embeddedVoucher (C : Codec) (claims : Json) : Option Text :=
  match claims.get (js "voucher") with
  | some (.str t) => some t
  | _ =>
    match claims.get (js "chain") with
    | some (.arr (first::_)) =>
      ((decodeJwsClaims C (some first)).bind (·.get (js "voucher"))).bind Json.string?
    | _ => none

def wrapperToken (wrapper : Option Json) : Option Text :=
  nonEmptyString (wrapper.bind (·.get (js "token")))

def jwsSigningInput (C : Codec) (s : Text) : Option Text :=
  match s.splitOn dot with
  | [header, payload, signature] =>
    if isBase64url header && isBase64url payload && isBase64url signature then
      match C.parse (C.decode header) with
      | some (.obj members) =>
        if (((Json.obj members).get (js "alg")).bind Json.string?).isSome then
          some (header++dot::payload)
        else none
      | _ => none
    else none
  | _ => none

def hexDigit (n : UInt8) : UInt16 :=
  if n < 10 then 0x30+n.toUInt16 else 0x57+n.toUInt16

def hexByte (b : UInt8) : Text := [hexDigit (b/16), hexDigit (b%16)]

def syntheticDelegationJti (C : Runtime) (token : Text) : Text :=
  let content := (jwsSigningInput C.toCodec token).getD token
  let b := (C.sha1 (js "aitp-delegation:v2"++0::content)).take 16
  let b := b.modify 6 (fun v => (v &&& 0x0F) ||| 0x50)
  let b := b.modify 8 (fun v => (v &&& 0x3F) ||| 0x80)
  let x := b.flatMap hexByte
  x.take 8++0x2D::(x.drop 8).take 4++0x2D::(x.drop 12).take 4++0x2D::(x.drop 16).take 4++
    0x2D::(x.drop 20).take 12

structure ParsedTct where
  jti : Text
  issuerAid : Text
  subjectAid : Text
  audienceAid : Text
  grants : List Text
  bindingCnf : Option Text
  issuedAt : Instant
  expiresAt : Option Instant
  deriving DecidableEq, Repr

def issuerKeys : List Text := [js "iss", js "issuer", js "issuer_aid", js "issuerAid"]

def subjectKeys : List Text := [js "sub", js "subject", js "subject_aid", js "subjectAid"]

def audienceKeys : List Text := [js "aud", js "audience", js "audience_aid", js "audienceAid"]

def issuedAtKeys : List Text := [js "iat", js "issued_at"]

def expiresAtKeys : List Text := [js "exp", js "expires_at"]

/-- The issue and expiry times of a claims bag; nothing when a date throws. -/
def readTimes (claims : Json) (fallbackTs : Instant) : Option (Instant × Option Instant) :=
  let issuedAt := match readNumber claims issuedAtKeys with
    | some secs => epochToIso secs
    | none => some fallbackTs
  let expiresAt := match readNumber claims expiresAtKeys with
    | some secs => (epochToIso secs).map some
    | none => some none
  issuedAt.bind (fun i => expiresAt.map (fun e => (i, e)))

/-- The outer option is empty when the projection throws. -/
def parseTct (raw : Json) (fallbackTs : Instant) : Option (Option ParsedTct) :=
  if raw.isObject = false then some none
  else
    let claims := claimsOf raw
    match readString claims [js "jti"], readString claims issuerKeys,
      readString claims subjectKeys with
    | some jti, some issuer, some subject =>
      if isJtiUuid jti then
        (readTimes claims fallbackTs).map (fun times =>
          some ⟨jti, issuer, subject, (readString claims audienceKeys).getD subject,
            readStringArray claims [js "grants"], readCnf claims, times.1, times.2⟩)
      else some none
    | _, _, _ => some none

structure ParsedDelegation where
  jti : Text
  parentJti : Text
  delegatorAid : Text
  delegateeAid : Text
  scope : List Text
  issuedAt : Instant
  expiresAt : Option Instant
  deriving DecidableEq, Repr

/-- `payload.tct ?? payload.delegation`. -/
def delegationWrapper (payload : Json) : Option Json :=
  match payload.get (js "tct") with
  | some .null => payload.get (js "delegation")
  | some v => some v
  | none => payload.get (js "delegation")

def delegationClaims (payload : Json) : Json :=
  match delegationWrapper payload with
  | some wrapper => if wrapper.isObject then claimsOf wrapper else claimsOf payload
  | none => claimsOf payload

def readDelegator (payload claims : Json) : Option Text :=
  (readString payload [js "delegator_aid", js "delegator"]).or
    (readString claims [js "delegator", js "delegator_aid", js "iss"])

def readDelegatee (payload claims : Json) : Option Text :=
  (readString payload [js "delegatee_aid", js "delegatee"]).or
    (readString claims [js "delegatee", js "delegatee_aid", js "sub"])

/-- The parent that a claims bag names, itself or in its voucher. -/
def claimedParent (C : Codec) (claims : Json) : Option Text :=
  (readString claims [js "src_jti", js "parent_jti", js "parentJti"]).or
    ((decodeJwsClaims C ((embeddedVoucher C claims).map .str)).bind
      (readString · [js "src_jti", js "parent_jti"]))

def readParentJti (C : Codec) (payload claims : Json) : Option Text :=
  (readString payload [js "parent_jti", js "parentJti", js "src_jti"]).or (claimedParent C claims)

def reportedJti (payload claims : Json) : Option Text :=
  (readString payload [js "jti", js "child_jti"]).or
    (readString claims [js "jti", js "child_jti"])

def readDelegationJti (C : Runtime) (payload claims : Json) : Option Text :=
  (reportedJti payload claims).or
    ((wrapperToken (delegationWrapper payload)).map (syntheticDelegationJti C))

def parseDelegation (C : Runtime) (payload : Json) (fallbackTs : Instant) :
    Option (Option ParsedDelegation) :=
  let claims := delegationClaims payload
  match readDelegationJti C payload claims, readParentJti C.toCodec payload claims,
    readDelegator payload claims, readDelegatee payload claims with
  | some jti, some parentJti, some delegator, some delegatee =>
    if isJtiUuid jti && isJtiUuid parentJti then
      (readTimes claims fallbackTs).map (fun times =>
        some ⟨jti, parentJti, delegator, delegatee,
          readStringArray claims [js "scope", js "grants"], times.1, times.2⟩)
    else some none
  | _, _, _, _ => some none

end ControlPlane.TctParse
