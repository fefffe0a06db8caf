import ControlPlane.CpSeed
import ControlPlane.JsonReader
import ControlPlane.KeyLists
import ControlPlane.ThreadPool

/-!
# Boot checks and the requests that rely on them

A process checks its settings when it starts and stops in production on those
that its requests could not use. Later requests build the identity, its signed
manifest and the enrollment service on first use and keep them. Processes on
any number of replicas start, serve and are started again.
-/

set_option autoImplicit false

namespace ControlPlane.ProcessBoot
open ControlPlane.JsText ControlPlane.JsValue ControlPlane.JsonReader ControlPlane.HttpValidate
open ControlPlane.JsonText (quote)
open ControlPlane.RequestGate (trim)
open ControlPlane.ApiKeys ControlPlane.KeyLists ControlPlane.CpSeed
open ControlPlane.RunMachine ControlPlane.ThreadPool

structure Settings where
  nodeEnv : Option Text
  cpBaseUrl : Text
  cpAidSeedHex : Text
  enrollmentSecret : Text
  apiKeys : Option Text
  issuerKeys : Option Text

def readNodeEnv (s : Settings) : Text := trim (s.nodeEnv.getD [])

def isProduction (s : Settings) : Bool := readNodeEnv s = js "production"

def nodeEnvBootWarning (s : Settings) : Option Text :=
  if readNodeEnv s ∈ [js "production", js "development", js "test"] then none
  else
    let seen := (s.nodeEnv.map quote).getD (js "unset")
    some (js "[aitp-cp] NODE_ENV is "++seen++js ", which is neither \"production\" nor a "++
      js "recognised development value (development, test), so this process runs as NOT "++
      js "production and every production safeguard is INACTIVE: an empty API_KEYS leaves gated "++
      js "routes unauthenticated instead of answering 503, a bad ENROLLMENT_SECRET or a missing "++
      js "or malformed CP_AID_SEED_HEX no longer stops the boot (a missing seed becomes a random "++
      js "key, so the CP AID changes on every restart), webhook URLs may be plain http, and logs "++
      js "use the dev pretty-printer. Set NODE_ENV=production for any deployed instance "++
      js "(a staging environment included).")

def enrollmentSecretMinLength : ℕ := 32

def generateHint : Text :=
  js "Generate with: node -e \"console.log(require('crypto').randomBytes(32).toString('hex'))\""

def enrollmentSecretProblem (raw : Text) : Option Text :=
  if raw = [] then some (js "ENROLLMENT_SECRET is required")
  else if raw.length < enrollmentSecretMinLength then
    some (js "ENROLLMENT_SECRET must be at least 32 characters (got "++number raw.length++
      js "). "++generateHint)
  else none

structure BootFailure where
  fatal : Bool
  message : Text

def secretHead (problem : Text) : Text :=
  problem++js " — POST /api/registry/enroll cannot mint enrollment tokens and "++
    js "POST /api/registry/agents cannot verify them: both answer 503 SERVER_MISCONFIGURED "++
    js "for every request."

def enrollmentSecretBootFailure (s : Settings) : Option BootFailure :=
  (enrollmentSecretProblem s.enrollmentSecret).map (fun problem =>
    if isProduction s then
      ⟨true, js "[aitp-cp] FATAL: "++secretHead problem++js " Refusing to start rather than "++
        js "serving a deployment that reports ready and then fails every enrollment. Set "++
        js "ENROLLMENT_SECRET and redeploy."⟩
    else
      ⟨false, js "[aitp-cp] "++secretHead problem++js " Starting anyway because NODE_ENV is not "++
        js "production; a production boot with this configuration exits non-zero instead."⟩)

def seedHead (problem : Text) : Text :=
  problem++js " — The CP cannot build its identity, so /.well-known/aitp-manifest and "++
    js "/api/health would fail on every request."

def cpSeedBootFailure (s : Settings) : Option BootFailure :=
  (cpSeedProblem s.cpAidSeedHex).map (fun problem =>
    if isProduction s then
      ⟨true, js "[aitp-cp] FATAL: "++seedHead problem++js " Refusing to start rather than "++
        js "serving a deployment without a stable identity. Set CP_AID_SEED_HEX and redeploy. "++
        generateHint⟩
    else if s.cpAidSeedHex = [] then
      ⟨false, js "[aitp-cp] CP_AID_SEED_HEX is not set — using an ephemeral key, so the CP AID "++
        js "changes on every restart. Starting anyway because NODE_ENV is not production; "++
        js "a production boot with this configuration exits non-zero instead."⟩
    else
      ⟨false, js "[aitp-cp] "++seedHead problem++js " Starting anyway because NODE_ENV is not "++
        js "production; a production boot with this configuration exits non-zero instead."⟩)

def apiKeyEntries (s : Settings) : List KeyEntry := (parseApiKeys s.apiKeys).entries

def keyLabelErrors (s : Settings) : List Text :=
  (parseApiKeys s.apiKeys).errors++
    (parseIssuerKeys s.issuerKeys ((apiKeyEntries s).map (·.key))).errors

def keyLabelBootFailure (s : Settings) : Option BootFailure :=
  if keyLabelErrors s = [] then none
  else some ⟨true, js "[aitp-cp] FATAL: "++(js "; ").intercalate (keyLabelErrors s)++
    js ". Refusing to start: give every key in API_KEYS and in ISSUER_KEYS its own label "++
    js "(a rotation adds the new key under a new label) and redeploy."⟩

inductive Level where
  | error
  | warn
  deriving DecidableEq

structure Boot where
  lines : List (Level × Text)
  running : Bool

def say (level : Level) (line : Option Text) (b : Boot) : Boot :=
  if b.running then { b with lines := b.lines++(line.map (level, ·)).toList } else b

/-- A fatal failure is printed and ends the process. -/
def enforce (failure : Option BootFailure) (b : Boot) : Boot :=
  match failure with
  | none => b
  | some f =>
    if f.fatal then { say .error (some f.message) b with running := false }
    else say .warn (some f.message) b

/-- Without the warning about `CP_BASE_URL`. -/
def register (s : Settings) : Boot :=
  enforce (keyLabelBootFailure s)
    (say .warn (cpSeedNotCleanWarning s.cpAidSeedHex)
      (enforce (cpSeedBootFailure s)
        (enforce (enrollmentSecretBootFailure s)
          (say .error (nodeEnvBootWarning s) ⟨[], true⟩))))

/-- The native binding. -/
structure Sdk where
  Agent : Type
  fromSeed : List UInt8 → Option Agent
  aid : Agent → Text
  buildManifest : Agent → Text → ℕ → ℕ → Text
  seedRefused : Text

def manifestField (name text : Text) : Option Json :=
  ((parseText text).bind (·.get (js "manifest"))).bind (·.get name)

/-- A seed of thirty-two bytes makes an agent, whose manifests say who it is
and when they end. -/
structure Genuine (sdk : Sdk) : Prop where
  seed : ∀ bytes, (sdk.fromSeed bytes).isSome = true ↔ bytes.length = cpSeedBytes
  aid : ∀ agent endpoint ttl now, now+ttl ≤ 2^53 → manifestField (js "aid")
    (sdk.buildManifest agent endpoint ttl now) = some (.str (sdk.aid agent))
  expires : ∀ agent endpoint ttl now, now+ttl ≤ 2^53 → manifestField (js "expires_at")
    (sdk.buildManifest agent endpoint ttl now) = some (.num (.finite (now+ttl : ℕ)))

inductive Reply where
  | manifest (text : Text)
  | health (db : Bool) (aid : Text)
  | enrollment
  | misconfigured (problem : Text)
  | fault (problem : Text)
  deriving DecidableEq

/-- `seed` is what `randomBytes` would give. -/
inductive Io where
  | manifest (seed : List UInt8)
  | health (db : Bool) (seed : List UInt8)
  | enrollment

structure Process (sdk : Sdk) where
  settings : Settings
  boot : Boot
  agent : Option sdk.Agent
  manifest : Option Text
  enrollment : Bool
  replies : List (ℕ × Reply)

variable (sdk : Sdk)

def manifestTtlSecs : ℕ := 86400

def manifestRebuildMarginSecs : ℕ := 3600

def nowSecs (now : ℕ) : ℕ := now/1000

def maxTime : ℕ := 8640000000000000

variable {sdk} in
def buildManifestJson (agent : sdk.Agent) (s : Settings) (now : ℕ) : Text :=
  sdk.buildManifest agent (s.cpBaseUrl++js "/api/aitp/handshake/hello") manifestTtlSecs
    (nowSecs now)

def seedOf (s : Settings) (random : List UInt8) : Except Text (List UInt8) :=
  if s.cpAidSeedHex = [] then
    if isProduction s then .error (js "CP_AID_SEED_HEX is required in production") else .ok random
  else
    match cpSeedProblem s.cpAidSeedHex with
    | some problem => .error problem
    | none => .ok (decodeCpSeedHex s.cpAidSeedHex)

variable {sdk} in
def initCpIdentity (random : List UInt8) (now : ℕ) (p : Process sdk) :
    Except Text (Process sdk) :=
  if p.agent.isSome then .ok p
  else
    match seedOf p.settings random with
    | .error problem => .error problem
    | .ok bytes =>
      match sdk.fromSeed bytes with
      | none => .error sdk.seedRefused
      | some agent =>
        let built := buildManifestJson agent p.settings now
        .ok { p with agent := some agent, manifest := some built }

def nearsExpiry (text : Text) (now : ℕ) : Bool :=
  match manifestField (js "expires_at") text with
  | some (.num (.finite q)) => q-nowSecs now ≤ manifestRebuildMarginSecs
  | _ => false

variable {sdk} in
def getCpManifestJson (random : List UInt8) (now : ℕ) (p : Process sdk) :
    Except Text (Process sdk × Text) :=
  match if p.manifest.isSome then .ok p else initCpIdentity random now p with
  | .error problem => .error problem
  | .ok p =>
    match p.manifest, p.agent with
    | some text, some agent =>
      if nearsExpiry text now then
        let rebuilt := buildManifestJson agent p.settings now
        .ok ({ p with manifest := some rebuilt }, rebuilt)
      else .ok (p, text)
    | _, _ => .error (js "no identity")

variable {sdk} in
def getCpAgent (random : List UInt8) (now : ℕ) (p : Process sdk) :
    Except Text (Process sdk × Text) :=
  match initCpIdentity random now p with
  | .error problem => .error problem
  | .ok p =>
    match p.agent with
    | some agent => .ok (p, sdk.aid agent)
    | none => .error (js "no identity")

variable {sdk} in
def getEnrollmentService (p : Process sdk) : Except Text (Process sdk) :=
  if p.enrollment then .ok p
  else
    match enrollmentSecretProblem p.settings.enrollmentSecret with
    | some problem => .error problem
    | none => .ok { p with enrollment := true }

variable {sdk} in
def reply (now : ℕ) (r : Reply) (p : Process sdk) : Process sdk :=
  { p with replies := p.replies++[(now, r)] }

variable {sdk} in
def answer (now : ℕ) (p : Process sdk) : Io → Process sdk
  | .manifest random =>
    match getCpManifestJson random now p with
    | .error problem => reply now (.fault problem) p
    | .ok (p', text) => reply now (.manifest text) p'
  | .health db random =>
    match getCpAgent random now p with
    | .error problem => reply now (.fault problem) p
    | .ok (p', aid) => reply now (.health db aid) p'
  | .enrollment =>
    match getEnrollmentService p with
    | .error problem => reply now (.misconfigured problem) p
    | .ok p' => reply now .enrollment p'

inductive Env where
  | tick (ms : ℕ)
  | boot (s : Settings)

def env : Env → ℕ → Option (ℕ × Option (Process sdk))
  | .tick ms, now => if now+ms ≤ maxTime then some (now+ms, none) else none
  | .boot s, now => some (now, some ⟨s, register s, none, none, false, []⟩)

def act (io : Io) (now : ℕ) (p : Process sdk) : Option (ℕ × Process sdk) :=
  if p.boot.running then some (now, answer now p io) else none

def processes : System ℕ (Process sdk) Env Io := ⟨env sdk, act sdk⟩

abbrev State := Pool ℕ (Process sdk)

abbrev Event := Label Env Io

abbrev next : Event → State sdk → Option (State sdk) := step (processes sdk)

def start (now : ℕ) : State sdk := ⟨now, []⟩

section Checks
variable (s : Settings)

def issuerKeyEntries : List IssuerEntry :=
  (parseIssuerKeys s.issuerKeys ((apiKeyEntries s).map (·.key))).entries

structure Accepted : Prop where
  secret : enrollmentSecretMinLength ≤ s.enrollmentSecret.length
  seed : Usable s.cpAidSeedHex
  labels : Distinct KeyEntry.label (apiKeyEntries s)
  issuers : Distinct (fun e : IssuerEntry => e.label) (issuerKeyEntries s)

theorem enrollmentSecretProblem_none (raw : Text) :
    enrollmentSecretProblem raw = none ↔ enrollmentSecretMinLength ≤ raw.length := by
  by_cases hnil : raw = []
  · subst hnil
    simp [enrollmentSecretProblem, enrollmentSecretMinLength]
  · by_cases hlen : raw.length < enrollmentSecretMinLength
    · simp [enrollmentSecretProblem, hnil, hlen]
    · simp [enrollmentSecretProblem, hnil, hlen, Nat.le_of_not_lt hlen]

theorem keyLabelErrors_nil : keyLabelErrors s = [] ↔
    Distinct KeyEntry.label (apiKeyEntries s) ∧
      Distinct (fun e : IssuerEntry => e.label) (issuerKeyEntries s) := by
  rw [keyLabelErrors, List.append_eq_nil_iff, parseApiKeys_errors, parseIssuerKeys_errors]
  rfl

theorem enforce_running (failure : Option BootFailure) (b : Boot) :
    (enforce failure b).running = true ↔
      b.running = true ∧ ∀ f, failure = some f → f.fatal = false := by
  cases failure with
  | none => simp [enforce]
  | some f => cases h : f.fatal <;> cases hb : b.running <;> simp [enforce, say, h, hb]

theorem say_running (level : Level) (line : Option Text) (b : Boot) :
    (say level line b).running = b.running := by
  unfold say
  split_ifs <;> rfl

theorem register_running (hprod : isProduction s = true) :
    (register s).running = true ↔ Accepted s := by
  have hsecret : (∀ f, enrollmentSecretBootFailure s = some f → f.fatal = false) ↔
      enrollmentSecretMinLength ≤ s.enrollmentSecret.length := by
    rw [← enrollmentSecretProblem_none]
    cases h : enrollmentSecretProblem s.enrollmentSecret with
    | none => simp [enrollmentSecretBootFailure, h]
    | some problem => simp [enrollmentSecretBootFailure, h, hprod]
  have hseed : (∀ f, cpSeedBootFailure s = some f → f.fatal = false) ↔
      Usable s.cpAidSeedHex := by
    rw [← cpSeedProblem_none]
    cases h : cpSeedProblem s.cpAidSeedHex with
    | none => simp [cpSeedBootFailure, h]
    | some problem => simp [cpSeedBootFailure, h, hprod]
  have hlabels : (∀ f, keyLabelBootFailure s = some f → f.fatal = false) ↔
      keyLabelErrors s = [] := by
    by_cases h : keyLabelErrors s = []
    · simp [keyLabelBootFailure, h]
    · simp [keyLabelBootFailure, h]
  simp only [register, enforce_running, say_running, hsecret, hseed, hlabels,
    keyLabelErrors_nil, true_and]
  constructor
  · rintro ⟨⟨h1, h2⟩, h3, h4⟩
    exact ⟨h1, h2, h3, h4⟩
  · rintro ⟨h1, h2, h3, h4⟩
    exact ⟨⟨h1, h2⟩, h3, h4⟩

end Checks

section Serving
variable {sdk}

/-- `Cache-Control: max-age=3600` -/
def cacheMaxAgeSecs : ℕ := 3600

/-- The manifest names the agent and outlives every copy of this answer. -/
def Served (agent : sdk.Agent) : ℕ × Reply → Prop
  | (t, .manifest text) => manifestField (js "aid") text = some (.str (sdk.aid agent)) ∧
    ∃ e : ℕ, manifestField (js "expires_at") text = some (.num (.finite e)) ∧
      ∀ t', t' ≤ t+1000*cacheMaxAgeSecs → nowSecs t' < e
  | (_, .health _ aid) => aid = sdk.aid agent
  | (_, .enrollment) => True
  | _ => False

structure Sound (agent : sdk.Agent) (p : Process sdk) : Prop where
  identity : (p.agent = none ∧ p.manifest = none) ∨ (p.agent = some agent ∧
    ∃ built ≤ maxTime, p.manifest = some (buildManifestJson agent p.settings built))
  replies : ∀ x ∈ p.replies, Served agent x

theorem built_small (built : ℕ) (hb : built ≤ maxTime) :
    nowSecs built+manifestTtlSecs ≤ 2^53 := by
  simp only [nowSecs, manifestTtlSecs, maxTime] at *
  omega

theorem built_expires (hs : Genuine sdk) (agent : sdk.Agent) (s : Settings) (built : ℕ)
    (hb : built ≤ maxTime) : manifestField (js "expires_at") (buildManifestJson agent s built) =
      some (.num (.finite (nowSecs built+manifestTtlSecs : ℕ))) :=
  hs.expires _ _ _ _ (built_small built hb)

theorem built_served (hs : Genuine sdk) (agent : sdk.Agent) (s : Settings) (built now : ℕ)
    (hb : built ≤ maxTime) (h : nearsExpiry (buildManifestJson agent s built) now = false) :
    Served agent (now, .manifest (buildManifestJson agent s built)) := by
  refine ⟨hs.aid _ _ _ _ (built_small built hb), nowSecs built+manifestTtlSecs,
    built_expires hs agent s built hb, ?_⟩
  intro t' ht'
  simp only [nearsExpiry, built_expires hs agent s built hb, decide_eq_false_iff_not, not_le,
    lt_sub_iff_add_lt] at h
  have hlt : manifestRebuildMarginSecs+nowSecs now < nowSecs built+manifestTtlSecs := by
    exact_mod_cast h
  simp only [nowSecs, cacheMaxAgeSecs, manifestRebuildMarginSecs, manifestTtlSecs] at *
  omega

theorem rebuilt_fresh (hs : Genuine sdk) (agent : sdk.Agent) (s : Settings) (now : ℕ)
    (hnow : now ≤ maxTime) : nearsExpiry (buildManifestJson agent s now) now = false := by
  simp only [nearsExpiry, built_expires hs agent s now hnow, decide_eq_false_iff_not, not_le]
  norm_num [manifestTtlSecs, manifestRebuildMarginSecs]

structure Same (p p' : Process sdk) : Prop where
  settings : p'.settings = p.settings
  boot : p'.boot = p.boot

theorem initCpIdentity_same (random : List UInt8) (now : ℕ) (p p' : Process sdk)
    (h : initCpIdentity random now p = .ok p') : Same p p' := by
  unfold initCpIdentity at h
  split_ifs at h
  · cases h
    exact ⟨rfl, rfl⟩
  · split at h
    · cases h
    · split at h
      · cases h
      · cases h
        exact ⟨rfl, rfl⟩

theorem getCpManifestJson_same (random : List UInt8) (now : ℕ) (p p' : Process sdk) (text : Text)
    (h : getCpManifestJson random now p = .ok (p', text)) : Same p p' := by
  unfold getCpManifestJson at h
  split at h
  · cases h
  · next p₁ hready =>
    have hsame : Same p p₁ := by
      split_ifs at hready
      · cases hready
        exact ⟨rfl, rfl⟩
      · exact initCpIdentity_same random now p p₁ hready
    split at h
    · split_ifs at h
      · cases h
        exact ⟨hsame.settings, hsame.boot⟩
      · cases h
        exact hsame
    · cases h

theorem getCpAgent_same (random : List UInt8) (now : ℕ) (p p' : Process sdk) (aid : Text)
    (h : getCpAgent random now p = .ok (p', aid)) : Same p p' := by
  unfold getCpAgent at h
  split at h
  · cases h
  · next p₁ hinit =>
    split at h
    · cases h
      exact initCpIdentity_same random now p _ hinit
    · cases h

theorem getEnrollmentService_same (p p' : Process sdk) (h : getEnrollmentService p = .ok p') :
    Same p p' := by
  unfold getEnrollmentService at h
  split_ifs at h
  · cases h
    exact ⟨rfl, rfl⟩
  · split at h
    · cases h
    · cases h
      exact ⟨rfl, rfl⟩

theorem answer_same (now : ℕ) (p : Process sdk) (io : Io) : Same p (answer now p io) := by
  have hreply : ∀ r p', Same p p' → Same p (reply now r p') := fun _ _ h => ⟨h.settings, h.boot⟩
  cases io with
  | manifest random =>
    simp only [answer]
    split
    · exact hreply _ _ ⟨rfl, rfl⟩
    · next h => exact hreply _ _ (getCpManifestJson_same random now p _ _ h)
  | health db random =>
    simp only [answer]
    split
    · exact hreply _ _ ⟨rfl, rfl⟩
    · next h => exact hreply _ _ (getCpAgent_same random now p _ _ h)
  | enrollment =>
    simp only [answer]
    split
    · exact hreply _ _ ⟨rfl, rfl⟩
    · next h => exact hreply _ _ (getEnrollmentService_same p _ h)

variable {agent : sdk.Agent}

theorem initCpIdentity_sound (random : List UInt8) (now : ℕ) (hnow : now ≤ maxTime)
    (p : Process sdk) (hseed : Usable p.settings.cpAidSeedHex)
    (ha : sdk.fromSeed (decodeCpSeedHex p.settings.cpAidSeedHex) = some agent)
    (hp : Sound agent p) : ∃ p', initCpIdentity random now p = .ok p' ∧
      p'.agent = some agent ∧ Sound agent p' := by
  rcases hp.identity with ⟨hnone, _⟩ | ⟨hsome, _⟩
  · have hne : p.settings.cpAidSeedHex ≠ [] := by
      intro hnil
      simp [Usable, hnil, decodeCpSeedHex, cpSeedBytes] at hseed
    have hbytes : seedOf p.settings random = .ok (decodeCpSeedHex p.settings.cpAidSeedHex) := by
      simp [seedOf, hne, (cpSeedProblem_none _).mpr hseed]
    refine ⟨{ p with
      agent := some agent, manifest := some (buildManifestJson agent p.settings now) },
      ?_, rfl, Or.inr ⟨rfl, now, hnow, rfl⟩, hp.replies⟩
    simp [initCpIdentity, hnone, hbytes, ha]
  · exact ⟨p, by simp [initCpIdentity, hsome], hsome, hp⟩

theorem getCpManifestJson_sound (hs : Genuine sdk) (random : List UInt8) (now : ℕ)
    (hnow : now ≤ maxTime) (p : Process sdk) (hseed : Usable p.settings.cpAidSeedHex)
    (ha : sdk.fromSeed (decodeCpSeedHex p.settings.cpAidSeedHex) = some agent)
    (hp : Sound agent p) : ∃ p' text, getCpManifestJson random now p = .ok (p', text) ∧
      Sound agent p' ∧ Served agent (now, .manifest text) := by
  have hready : ∃ p', (if p.manifest.isSome then .ok p else initCpIdentity random now p) =
      Except.ok p' ∧ p'.agent = some agent ∧ Sound agent p' := by
    rcases hp.identity with ⟨_, hnone⟩ | ⟨hsome, built, _, hbuilt⟩
    · simpa [hnone] using initCpIdentity_sound random now hnow p hseed ha hp
    · exact ⟨p, by simp [hbuilt], hsome, hp⟩
  obtain ⟨p', hp', hagent, hsound⟩ := hready
  rcases hsound.identity with ⟨hnone, _⟩ | ⟨_, built, hle, hbuilt⟩
  · simp [hnone] at hagent
  · by_cases hnear : nearsExpiry (buildManifestJson agent p'.settings built) now = true
    · refine ⟨{ p' with manifest := some (buildManifestJson agent p'.settings now) }, _,
        ?_, ⟨Or.inr ⟨hagent, now, hnow, rfl⟩, hsound.replies⟩, built_served hs agent p'.settings
          now now hnow (rebuilt_fresh hs agent p'.settings now hnow)⟩
      simp [getCpManifestJson, hp', hbuilt, hagent, hnear]
    · refine ⟨p', _, ?_, hsound, built_served hs agent p'.settings built now hle
        (Bool.eq_false_of_not_eq_true hnear)⟩
      simp [getCpManifestJson, hp', hbuilt, hagent, hnear]

theorem getCpAgent_sound (random : List UInt8) (now : ℕ) (hnow : now ≤ maxTime)
    (p : Process sdk) (hseed : Usable p.settings.cpAidSeedHex)
    (ha : sdk.fromSeed (decodeCpSeedHex p.settings.cpAidSeedHex) = some agent)
    (hp : Sound agent p) : ∃ p', getCpAgent random now p = .ok (p', sdk.aid agent) ∧
      Sound agent p' := by
  obtain ⟨p', hp', hagent, hsound⟩ := initCpIdentity_sound random now hnow p hseed ha hp
  exact ⟨p', by simp [getCpAgent, hp', hagent], hsound⟩

theorem getEnrollmentService_sound (p : Process sdk)
    (hsecret : enrollmentSecretMinLength ≤ p.settings.enrollmentSecret.length)
    (hp : Sound agent p) : ∃ p', getEnrollmentService p = .ok p' ∧ Sound agent p' := by
  by_cases hold : p.enrollment = true
  · exact ⟨p, by simp [getEnrollmentService, hold], hp⟩
  · refine ⟨{ p with enrollment := true }, ?_, hp.identity, hp.replies⟩
    simp [getEnrollmentService, hold, (enrollmentSecretProblem_none _).mpr hsecret]

theorem reply_sound (now : ℕ) (r : Reply) (p : Process sdk) (hp : Sound agent p)
    (hr : Served agent (now, r)) : Sound agent (reply now r p) := by
  constructor
  · exact hp.identity
  · intro x hx
    rcases List.mem_append.mp hx with hx | hx
    · exact hp.replies x hx
    · rwa [List.mem_singleton.mp hx]

theorem answer_sound (hs : Genuine sdk) (now : ℕ) (hnow : now ≤ maxTime) (p : Process sdk) (io : Io)
    (hok : Accepted p.settings)
    (ha : sdk.fromSeed (decodeCpSeedHex p.settings.cpAidSeedHex) = some agent)
    (hp : Sound agent p) : Sound agent (answer now p io) := by
  cases io with
  | manifest random =>
    obtain ⟨p', text, hget, hsound, hserved⟩ :=
      getCpManifestJson_sound hs random now hnow p hok.seed ha hp
    simp only [answer, hget]
    exact reply_sound now _ p' hsound hserved
  | health db random =>
    obtain ⟨p', hget, hsound⟩ := getCpAgent_sound random now hnow p hok.seed ha hp
    simp only [answer, hget]
    exact reply_sound now _ p' hsound rfl
  | enrollment =>
    obtain ⟨p', hget, hsound⟩ := getEnrollmentService_sound p hok.secret hp
    simp only [answer, hget]
    exact reply_sound now _ p' hsound trivial

structure Kept (p : Process sdk) : Prop where
  boot : p.boot = register p.settings
  sound : isProduction p.settings = true → ∀ agent,
    sdk.fromSeed (decodeCpSeedHex p.settings.cpAidSeedHex) = some agent → Sound agent p

structure AllKept (s : State sdk) : Prop where
  now : s.world ≤ maxTime
  process : ∀ (i : ℕ) (p : Process sdk), s.threads[i]? = some p → Kept p

theorem kept_step (hs : Genuine sdk) (l : Event) (s t : State sdk) (hi : AllKept s)
    (h : next sdk l s = some t) : AllKept t := by
  cases l with
  | env e =>
    obtain ⟨w, o, he, rfl⟩ := (step_env_some _ _ _ _).mp h
    cases e with
    | tick ms =>
      simp only [processes, env] at he
      split_ifs at he with hle
      simp only [Option.some.injEq, Prod.mk.injEq] at he
      obtain ⟨rfl, rfl⟩ := he
      exact ⟨hle, fun i p hp => hi.process i p (by simpa using hp)⟩
    | boot settings =>
      simp only [processes, env, Option.some.injEq, Prod.mk.injEq] at he
      obtain ⟨rfl, rfl⟩ := he
      refine ⟨hi.now, fun i p hp => ?_⟩
      rcases append_get s.threads _ i p hp with hold | ⟨_, hnew⟩
      · exact hi.process i p hold
      · cases hnew
        exact ⟨rfl, fun _ _ _ => ⟨Or.inl ⟨rfl, rfl⟩, fun x hx => absurd hx List.not_mem_nil⟩⟩
  | act j io =>
    obtain ⟨p₀, w, p₁, hp₀, ha, rfl⟩ := (step_act_some _ _ _ _ _).mp h
    have hkept := hi.process j p₀ hp₀
    simp only [processes, act] at ha
    split_ifs at ha with hrun
    simp only [Option.some.injEq, Prod.mk.injEq] at ha
    obtain ⟨rfl, rfl⟩ := ha
    refine ⟨hi.now, fun i p hp => ?_⟩
    rcases set_get s.threads j i _ p hp with ⟨rfl, rfl⟩ | ⟨_, hold⟩
    · obtain ⟨hsettings, hboot⟩ := answer_same s.world p₀ io
      constructor
      · rw [hboot, hsettings, hkept.boot]
      · intro hprod agent hagent
        rw [hsettings] at hprod hagent
        have hok := (register_running p₀.settings hprod).mp (hkept.boot ▸ hrun)
        exact answer_sound hs s.world hi.now p₀ io hok hagent (hkept.sound hprod agent hagent)
    · exact hi.process i p hold

theorem kept_run (hs : Genuine sdk) (now : ℕ) (hnow : now ≤ maxTime) (ls : List Event)
    (q : State sdk) (hr : run (next sdk) ls (start sdk now) = some q) : AllKept q := by
  apply run_invariant (next sdk) (fun _ _ => True) AllKept
    (fun l s t _ hi h => kept_step hs l s t hi h) ls _ q (guarded_true _ ls _) ⟨hnow, ?_⟩ hr
  intro i p hp
  simp [start] at hp

/-- In production the processes that start are those whose requests can use
the settings. No request to one of them fails for the settings, all of them
answer for the agent of the first sixty-four digits, and no manifest ends
before the copies that were cached of it. -/
theorem boot_serves (hs : Genuine sdk) (now : ℕ) (hnow : now ≤ maxTime) (ls : List Event)
    (q : State sdk) (hr : run (next sdk) ls (start sdk now) = some q) (i : ℕ) (p : Process sdk)
    (hp : q.threads[i]? = some p) (hprod : isProduction p.settings = true) :
    (p.boot.running = true ↔ Accepted p.settings) ∧ (p.boot.running = true → ∃ agent,
      sdk.fromSeed (decodeCpSeedHex (p.settings.cpAidSeedHex.take 64)) = some agent ∧
        ∀ x ∈ p.replies, Served agent x) := by
  have hkept := (kept_run hs now hnow ls q hr).process i p hp
  have hiff : p.boot.running = true ↔ Accepted p.settings := by
    rw [hkept.boot, register_running p.settings hprod]
  refine ⟨hiff, fun hrun => ?_⟩
  have hok := hiff.mp hrun
  obtain ⟨agent, hagent⟩ := Option.isSome_iff_exists.mp ((hs.seed _).mpr hok.seed)
  rw [(usable_leading _ hok.seed).2]
  exact ⟨agent, hagent, (hkept.sound hprod agent hagent).replies⟩

end Serving

section Scenario

def bindings : Sdk where
  Agent := {bytes : List UInt8 // bytes.length = cpSeedBytes}
  fromSeed bytes := if h : bytes.length = cpSeedBytes then some ⟨bytes, h⟩ else none
  aid agent := js "aid:pubkey:"++agent.val.map (·.toUInt16)
  buildManifest agent endpoint ttl now := stringify (.obj [(js "manifest", .obj
    [(js "aid", .str (js "aid:pubkey:"++agent.val.map (·.toUInt16))),
      (js "handshake_endpoint", .str endpoint),
      (js "expires_at", .num (.finite (now+ttl : ℕ)))])])
  seedRefused := js "seed must be 32 bytes"

theorem bindings_genuine : Genuine bindings := by
  constructor
  · intro bytes
    by_cases h : bytes.length = cpSeedBytes
    · simp [bindings, h]
    · simp [bindings, h]
  all_goals
    intro agent endpoint ttl now h
    simp only [manifestField, bindings]
    rw [parseText_stringify]
    · rfl
    · exact ⟨⟨trivial, trivial, JsNumberText.isDouble_nat _ h, trivial⟩, trivial⟩

def trailing : Settings where
  nodeEnv := some (js "production")
  cpBaseUrl := js "https://cp.example"
  cpAidSeedHex := List.replicate 64 0x61++[0x0A]
  enrollmentSecret := List.replicate 32 0x73
  apiKeys := some (js "ops:k1,ci:k2")
  issuerKeys := none

theorem trailing_running : (register trailing).running = true := by decide +kernel

def booted : Process bindings := ⟨trailing, register trailing, none, none, false, []⟩

def served : Process bindings := answer 1000 booted (.manifest [])

theorem boot_serves_trailing : (served.boot.running = true ↔ Accepted served.settings) ∧
    (served.boot.running = true → ∃ agent,
      bindings.fromSeed (decodeCpSeedHex (served.settings.cpAidSeedHex.take 64)) = some agent ∧
        ∀ x ∈ served.replies, Served agent x) := by
  apply boot_serves bindings_genuine 1000 (by decide) [.env (.boot trailing), .act 0 (.manifest [])]
    ⟨1000, [served]⟩ ?_ 0 served rfl
  · rw [served, (answer_same 1000 booted _).settings]
    decide +kernel
  · simp [run, step, processes, env, act, start, trailing_running, served, booted]

end Scenario
end ControlPlane.ProcessBoot
