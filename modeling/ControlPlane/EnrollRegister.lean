import ControlPlane.ManifestStorage
import ControlPlane.RegistrationAtomicity

/-!
# Enrolling and then registering

Both routes check the manifest by copies of their own. A body that is given a
token passes all of the checks of the other route at the same instant. What is
left is the transaction and then the event, whose `jsonb` payload takes the
display name only if it is well formed.
-/

set_option autoImplicit false

namespace ControlPlane.EnrollRegister
open ControlPlane.JsText ControlPlane.JsValue ControlPlane.HttpValidate
open ControlPlane.RequestGate (Headers get)
open ControlPlane.AdminAudit ControlPlane.AdminRoutes ControlPlane.EnrollmentToken
open ControlPlane.AgentRoute ControlPlane.RegistrationMachine ControlPlane.ManifestStorage
open ControlPlane.RegistrationAtomicity (runtime registry manifestBody signedPayload secret)

/-- The verifier accepts only an object with a manifest of the supported version. -/
def VersionVerified (R : Registry) : Prop :=
  ∀ body, R.verifyManifestJson body = none →
    (∃ members, R.service.platform.parse body = some (.obj members)) ∧
      (manifestOf R.service.platform body).get (js "version") =
        some (.str supportedManifestVersion)

def tokenReplayed : Problem := ⟨401, js "enrollment token already used", js "TOKEN_REPLAYED"⟩

def Settled (reply : Reply) : Prop := reply = .success 201 ∨ reply = .refused tokenReplayed

/-- Every check passes, and whether the transaction registers the agent or
finds the token used decides the answer. -/
def Agrees (R : Registry) (now : Instant) (h : Headers) (body : BodyText) : Prop :=
  (∃ c, checkRequest R now ⟨h, false, body⟩ = .passed c) ∧
    ∀ registered log,
      Settled (registerAgent R.service now false body.text (some registered) h log).1

def WellNamed (m : Json) : Prop := ∀ name, displayName m = .str name → isWellFormed name = true

section Presented
variable (R : Registry) (key : Text) (hsecret : R.service.secret = some key)
  (hversion : VersionVerified R) (hdigest : ∀ t, R.service.platform.sha256Hex t ≠ [])
  (now : Instant) (body : BodyText) (jti : Text) (hjti : isUuid jti = true)
  (p : EnrollmentPayload) (hp : verifyAndIssueToken R now body.text jti = .ok p)
  (hr : Readable R.service.platform key p) (h : Headers)
  (hauth : get h (js "authorization") = some (js "Bearer "++sign R.service.platform key p))
  (hheader : headerNamespace h = none)
  (hext : extNamespace (manifestOf R.service.platform body.text) = none)

theorem expires_agree (m : Json) (hsoon : enrollExpiresTooSoon now m = false) :
    expiresTooSoon now m = false := by
  unfold enrollExpiresTooSoon at hsoon
  unfold expiresTooSoon
  split
  · next e he =>
    rw [he] at hsoon
    exact Bool.and_eq_false_iff.mpr (Or.inr hsoon)
  · rfl

include hversion hp in
theorem parse_minted :
    parseEnvelope R.service body.text = .ok (manifestOf R.service.platform body.text) := by
  obtain ⟨hverify, aid, haid, hpre, -⟩ := verifyAndIssueToken_ok R now body.text jti p hp
  obtain ⟨⟨members, hparse⟩, -⟩ := hversion body.text hverify
  have hmanifest : ∃ m, (Json.obj members).get (js "manifest") = some m ∧
      manifestOf R.service.platform body.text = m := by
    rw [manifestOf, hparse, Option.bind_some] at haid ⊢
    cases hm : (Json.obj members).get (js "manifest") with
    | none =>
      rw [hm] at haid
      cases haid
    | some m => exact ⟨m, rfl, rfl⟩
  obtain ⟨m, hm, hof⟩ := hmanifest
  rw [hof] at haid ⊢
  have htruthy : (Json.str aid).truthy = true := by
    cases aid with
    | nil => cases hpre
    | cons u t => rfl
  simp only [parseEnvelope, hparse, hm, Option.bind_some, haid, Option.map_some, htruthy,
    Option.getD_some, if_true]

include hsecret hdigest hjti hp hr in
theorem token_minted :
    checkToken R.service now (sign R.service.platform key p)
      (manifestOf R.service.platform body.text) body.text = .ok p.json := by
  obtain ⟨-, aid, haid, -, -, -, hmint⟩ := verifyAndIssueToken_ok R now body.text jti p hp
  have hstring : stringField (manifestOf R.service.platform body.text) (js "aid") = some aid := by
    rw [stringField, haid]
    rfl
  have hnonempty : jti ≠ [] := by
    rintro rfl
    exact absurd hjti (by decide)
  have hvalid : validateToken R.service.platform key now (sign R.service.platform key p) aid
      body.text = .ok p.json := by
    rw [validate_signed R.service.platform key p hr]
    rw [hmint]
    refine ⟨rfl, ?_, rfl, hnonempty, hdigest body.text, rfl⟩
    show unixSecs now ≤ unixSecs now+tokenLifetimeSecs
    rw [tokenLifetimeSecs]
    omega
  simp only [checkToken, hsecret, hstring, Option.getD_some, hvalid, Option.isSome_some, if_true]

include hheader in
theorem header_absent : checkHeaderNamespace h = none := by
  rw [checkHeaderNamespace, hheader]
  rfl

include hext in
theorem ext_absent : checkExtNamespace h (manifestOf R.service.platform body.text) = none := by
  rw [checkExtNamespace, hext]

include hversion hp hheader hext in
theorem manifest_minted :
    checkManifest now h (manifestOf R.service.platform body.text) = none := by
  obtain ⟨hverify, aid, haid, -, hsoon, hcolumns, -⟩ :=
    verifyAndIssueToken_ok R now body.text jti p hp
  obtain ⟨-, hv⟩ := hversion body.text hverify
  have hversionOk : ((manifestOf R.service.platform body.text).get (js "version")).bind
      Json.string? = some supportedManifestVersion := by
    rw [hv]
    rfl
  rw [checkManifest, header_absent h hheader, hcolumns, hversionOk, expires_agree now _ hsoon,
    ext_absent R body h hext]
  rfl

include hauth in
theorem bearer_presented : bearerToken h = sign R.service.platform key p := by
  have hpre : (js "Bearer ").isPrefixOf (js "Bearer "++sign R.service.platform key p) = true :=
    List.isPrefixOf_iff_prefix.mpr (List.prefix_append _ _)
  have hlength : (js "Bearer ").length = 7 := by decide
  rw [bearerToken, hauth, Option.getD_some]
  simp only [hpre, if_true]
  rw [← hlength, List.drop_left]

include hsecret hversion hdigest hjti hp hr hauth hheader hext in
theorem checks_pass : ∃ c, checkRequest R now ⟨h, false, body⟩ = .passed c ∧
    RowFits (manifestOf R.service.platform body.text) c.input := by
  have hparse := parse_minted R hversion now body jti p hp
  have htoken := token_minted R key hsecret hdigest now body jti hjti p hp hr
  have hmanifest := manifest_minted R hversion now body jti p hp h hheader hext
  obtain ⟨-, aid, -, -, -, hcolumns, -⟩ := verifyAndIssueToken_ok R now body.text jti p hp
  obtain ⟨c, hc, hfits⟩ := consumption_fits R.service.platform h _ p.json body.text hcolumns
    (header_absent h hheader) (ext_absent R body h hext)
  rw [← bearer_presented R key p h hauth] at htoken
  apply Exists.intro c
  constructor
  · exact (checkRequest_passed R now _ c).mpr ⟨rfl, _, _, hparse, htoken, hmanifest, hc⟩
  · exact hfits

include hheader hext in
theorem payload_storable (hcolumns : checkManifestColumns
    (manifestOf R.service.platform body.text) = none) :
    (registeredPayload h (manifestOf R.service.platform body.text)).storable = true ↔
      WellNamed (manifestOf R.service.platform body.text) := by
  obtain ⟨-, hdisplay, -⟩ := columns_none _ hcolumns
  obtain ⟨name, hname, -, hnul⟩ := displayName_fits _ hdisplay
  have hkeys : textStorable (js "displayName") = true ∧ textStorable (js "namespace") = true ∧
      textStorable (js "default") = true := by decide
  have hspace : agentNamespace h (manifestOf R.service.platform body.text) = none := by
    rw [agentNamespace, hheader, hext]
    rfl
  have hwell : textStorable name = true ↔ isWellFormed name = true := by
    simp [textStorable, hasNul, hnul]
  simp only [registeredPayload, hspace, hname, Option.getD_none, Json.storable, storableMembers,
    hkeys, Bool.true_and, Bool.and_true, hwell, WellNamed, Json.str.injEq, forall_eq']

include hsecret hversion hdigest hjti hp hr hauth hheader hext in
theorem answer_registered (registered : Bool) (log : AuditLog) :
    Settled (registerAgent R.service now false body.text (some registered) h log).1 ↔
      (registered = true → WellNamed (manifestOf R.service.platform body.text)) := by
  have hparse := parse_minted R hversion now body jti p hp
  have htoken := token_minted R key hsecret hdigest now body jti hjti p hp hr
  have hmanifest := manifest_minted R hversion now body jti p hp h hheader hext
  have hbearer := bearer_presented R key p h hauth
  obtain ⟨-, aid, -, -, -, hcolumns, -⟩ := verifyAndIssueToken_ok R now body.text jti p hp
  have hstorable := payload_storable R body h hheader hext hcolumns
  rw [bearerToken] at hbearer
  cases registered with
  | false =>
    simp only [registerAgent, Bool.false_eq_true, if_false, hparse, hbearer, htoken, hmanifest,
      false_implies, iff_true]
    exact Or.inr rfl
  | true =>
    simp only [registerAgent, Bool.false_eq_true, if_false, hparse, hbearer, htoken, hmanifest,
      true_implies, ← hstorable]
    split_ifs with hs
    · simp only [hs, iff_true]
      exact Or.inl rfl
    · simp [hs, Settled]

include hsecret hversion hdigest hjti hp hr hauth hheader hext in
/-- The two routes agree on all checks, and the answer is one of the two
promised ones if and only if the display name is well formed. -/
theorem enroll_register_agree_iff :
    (∃ c, checkRequest R now ⟨h, false, body⟩ = .passed c ∧
      RowFits (manifestOf R.service.platform body.text) c.input) ∧
    (Agrees R now h body ↔ WellNamed (manifestOf R.service.platform body.text)) := by
  have hpass := checks_pass R key hsecret hversion hdigest now body jti hjti p hp hr h hauth
    hheader hext
  have hanswer := answer_registered R key hsecret hversion hdigest now body jti hjti p hp hr h
    hauth hheader hext
  constructor
  · exact hpass
  constructor
  · intro hagrees
    exact (hanswer true ⟨[], 0⟩).mp (hagrees.2 true ⟨[], 0⟩) rfl
  · intro hwell
    obtain ⟨c, hc, -⟩ := hpass
    exact ⟨⟨c, hc⟩, fun registered log => (hanswer registered log).mpr (fun _ => hwell)⟩

end Presented

section Scenario

theorem registry_version : VersionVerified registry := by
  intro body hverify
  by_cases h : body = manifestBody.text
  · subst h
    constructor
    · exact ⟨_, rfl⟩
    · rfl
  · simp [registry, h] at hverify

def presentedHeaders : Headers :=
  [⟨js "authorization", js "Bearer "++sign runtime secret signedPayload, by decide +kernel⟩]

theorem agrees_presented : Agrees registry 0 presentedHeaders manifestBody := by
  have hreadable : Readable runtime secret signedPayload := by
    constructor
    · decide +kernel
    · decide +kernel
    · rfl
    · rfl
  apply (enroll_register_agree_iff registry secret rfl registry_version ?_ 0 manifestBody
    signedPayload.jti ?_ signedPayload rfl hreadable presentedHeaders ?_ ?_ ?_).2.mpr
  · intro name hname
    cases hname
    decide
  · intro t
    by_cases ht : t = manifestBody.text
    · subst ht
      exact (by decide : signedPayload.msh ≠ [])
    · simp [registry, runtime, ht]
  · decide +kernel
  · rfl
  · rfl
  · rfl

def surrogateBody : BodyText :=
  ⟨js "\x7b\"manifest\":\x7b\"version\":\"aitp/0.3\",\"aid\":\"aid:x\","++
    js "\"handshake_endpoint\":\"https://x/\",\"display_name\":\"\\ud800\"\x7d\x7d",
      by decide +kernel⟩

def surrogatePayload : EnrollmentPayload :=
  { signedPayload with
    msh := js "53a65e6b1fbab2dd80f3d164ec230f0db9d9b007bbd1345f6ac9d1c40074ec09" }

def surrogateText : Text :=
  js "\x7b\"sub\":\"aid:x\",\"scope\":\"register\",\"iat\":0,\"exp\":300,\"jti\":\""++
    surrogatePayload.jti++js "\",\"msh\":\""++surrogatePayload.msh++js "\"\x7d"

def surrogateManifest : Json :=
  .obj [(js "version", .str (js "aitp/0.3")), (js "aid", .str (js "aid:x")),
    (js "handshake_endpoint", .str (js "https://x/")), (js "display_name", .str [0xD800])]

def surrogateRuntime : Platform where
  encode _ :=
    js "eyJzdWIiOiJhaWQ6eCIsInNjb3BlIjoicmVnaXN0ZXIiLCJpYXQiOjAsImV4cCI6MzAwLCJqdGkiOiI2ZjFl"++
      js "NGE1Mi0wYzNiLTRkODctOWE2ZS0yYjVkOGM3ZjFlOTAiLCJtc2giOiI1M2E2NWU2YjFmYmFiMmRkODBmM2Qx"++
        js "NjRlYzIzMGYwZGI5ZDliMDA3YmJkMTM0NWY2YWM5ZDFjNDAwNzRlYzA5In0"
  decode _ := surrogateText
  stringify _ := surrogateText
  parse t :=
    if t = surrogateBody.text then some (.obj [(js "manifest", surrogateManifest)])
    else some surrogatePayload.json
  hmac _ _ := js "xuJrDkMiUJJMhhwymsnbu8lO8yTAbnrsZTPC_97wjlo"
  sha256Hex t := if t = surrogateBody.text then surrogatePayload.msh else 0::t
  toNumber _ := none
  template _ := []

def surrogateRegistry : Registry where
  service := ⟨surrogateRuntime, some secret⟩
  verifyManifestJson t := if t = surrogateBody.text then none else some ⟨js "malformed", []⟩

def surrogateHeaders : Headers :=
  [⟨js "authorization", js "Bearer "++sign surrogateRuntime secret surrogatePayload,
    by decide +kernel⟩]

/-- The token is given, the transaction commits, and the answer is a 500. -/
theorem surrogate_name_throws : VersionVerified surrogateRegistry ∧
    verifyAndIssueToken surrogateRegistry 0 surrogateBody.text surrogatePayload.jti =
      .ok surrogatePayload ∧
    (registerAgent surrogateRegistry.service 0 false surrogateBody.text (some true)
      surrogateHeaders ⟨[], 0⟩).1 = .threw ∧
    ¬Agrees surrogateRegistry 0 surrogateHeaders surrogateBody := by
  have hthrew : (registerAgent surrogateRegistry.service 0 false surrogateBody.text (some true)
      surrogateHeaders ⟨[], 0⟩).1 = .threw := by decide +kernel
  constructor
  · intro body hverify
    by_cases h : body = surrogateBody.text
    · subst h
      constructor
      · exact ⟨_, rfl⟩
      · rfl
    · simp [surrogateRegistry, h] at hverify
  constructor
  · rfl
  constructor
  · exact hthrew
  · intro hagrees
    have := hagrees.2 true ⟨[], 0⟩
    rw [hthrew] at this
    simp [Settled] at this

end Scenario

end ControlPlane.EnrollRegister
