import ControlPlane.RegistrationMachine
import ControlPlane.MetricsRoute
import ControlPlane.TallyTable

/-!
# Who is blamed for a failed enrollment

`POST /api/registry/enroll` answers `400` with the code of the SDK when the SDK
refused the manifest, `400` without one when this service did, and throws what
it cannot place. What came out of the verifier is known by its identity: the
call site marks the object, and only a marked one is read as a verdict. Every
rejection is counted under one of eleven labels.
-/

set_option autoImplicit false

namespace ControlPlane.EnrollRoute
open ControlPlane.JsText ControlPlane.JsValue ControlPlane.RequestGate ControlPlane.AgentRoute
open ControlPlane.EnrollmentToken ControlPlane.TallyTable
open ControlPlane.MetricsRoute (knownVerifyCodes otherLabel noneLabel enrollFailureLabels)
open ControlPlane.RegistrationMachine (Rejection isManifestEnvelope)

/-- A thrown value. A primitive has no identity; `code` is what reading that
property gives, if it is a string, and `text` is `err.message` or `String(err)`,
which can throw. -/
structure Thrown where
  object : Option ℕ
  code : Option Text
  text : Option Text

/-- One request with what the calls of its handler give. The body is missing
when it is over the ceiling. -/
structure EnrollRequest where
  now : Instant
  requestId : Option Text
  body : Option Text
  jti : Text
  serviceFault : Bool
  verdict : Option Thrown
  mintFault : Option Thrown
  logFails : Bool

structure LogLine where
  requestId : Option Text
  code : Text
  verifyCode : Option Text
  deriving DecidableEq, Repr

/-- `sdkVerifyFailures`, `totals` of `enroll-metrics.ts` and the log. -/
structure Process where
  marked : List ℕ
  totals : List (Text × ℕ)
  lines : List LogLine

inductive EnrollAnswer where
  | issued (token aid : Text) (expiresIn : ℤ)
  | reply (status : ℕ) (error code : Text) (verifyCode : Option Text)
  | threw
  deriving DecidableEq

def EnrollAnswer.status : EnrollAnswer → ℕ
  | .issued _ _ _ => 200
  | .reply status _ _ _ => status
  | .threw => 500

def EnrollAnswer.verifyCode : EnrollAnswer → Option Text
  | .reply _ _ _ verifyCode => verifyCode
  | _ => none

def maxLoggedRequestId : ℕ := 200

def maxVerifyCodeLength : ℕ := 64

def rejectionCodes : List Text := [js "MANIFEST_INVALID", js "MANIFEST_EXPIRED"]

def defaultRejectionCode : Text := js "MANIFEST_INVALID"

def sdkExpiredCode : Text := js "expired"

def failureLabel : Option Text → Text
  | none => noneLabel
  | some verifyCode => if verifyCode ∈ knownVerifyCodes then verifyCode else otherLabel

def recordEnrollFailure (verifyCode : Option Text) (totals : List (Text × ℕ)) :
    List (Text × ℕ) :=
  bump (failureLabel verifyCode) 1 (·+1) totals

def markSdkVerifyFailure (e : Thrown) (marked : List ℕ) : List ℕ :=
  match e.object with
  | some o => if o ∈ marked then marked else marked++[o]
  | none => marked

def usableCode (e : Thrown) : Option Text :=
  e.code.filter (fun raw => (trim raw).length ≠ 0 && raw.length ≤ maxVerifyCodeLength)

def sdkVerifyCode (marked : List ℕ) (e : Thrown) : Option Text :=
  match e.object with
  | some o => if o ∈ marked then usableCode e else none
  | none => none

def logLine (q : EnrollRequest) (code : Text) (verifyCode : Option Text) : LogLine :=
  ⟨(q.requestId.map (·.take maxLoggedRequestId)).filter (fun id => !id.isEmpty), code, verifyCode⟩

def recordFailure (q : EnrollRequest) (code : Text) (verifyCode : Option Text) (s : Process) :
    Process where
  marked := s.marked
  totals := recordEnrollFailure verifyCode s.totals
  lines := if q.logFails then s.lines else s.lines++[logLine q code verifyCode]

def rejectManifest (q : EnrollRequest) (message cpCode : Text) (s : Process) :
    Process × EnrollAnswer :=
  let code := if cpCode ∈ rejectionCodes then cpCode else defaultRejectionCode
  (recordFailure q code none s, .reply 400 message code none)

/-- The rest of the `catch`. -/
def rejectThrown (q : EnrollRequest) (e : Thrown) (s : Process) : Process × EnrollAnswer :=
  match sdkVerifyCode s.marked e, e.text with
  | some verifyCode, some text =>
    let code := if verifyCode = sdkExpiredCode then js "MANIFEST_EXPIRED" else defaultRejectionCode
    (recordFailure q code (some verifyCode) s, .reply 400 text code (some verifyCode))
  | _, _ => (s, .threw)

/-- What `verifyAndIssueToken` does once the SDK has accepted the manifest. -/
def issue (svc : Service) (q : EnrollRequest) (body : Text) : Except Rejection EnrollmentPayload :=
  RegistrationMachine.verifyAndIssueToken ⟨svc, fun _ => none⟩ q.now body q.jti

def verifyAndIssueToken (svc : Service) (secret : Text) (q : EnrollRequest) (body : Text)
    (s : Process) : Process × EnrollAnswer :=
  match q.verdict with
  | some e => rejectThrown q e { s with marked := markSdkVerifyFailure e s.marked }
  | none =>
    match issue svc q body with
    | .error (.manifest message code) => rejectManifest q message code s
    | .error (.sdk _) => (s, .threw)
    | .ok p =>
      match q.mintFault with
      | some e => rejectThrown q e s
      | none => (s, .issued (sign svc.platform secret p) p.sub tokenLifetimeSecs)

def post (svc : Service) (q : EnrollRequest) (s : Process) : Process × EnrollAnswer :=
  match q.body with
  | none =>
    (s, .reply 413 (js "request body exceeds 262144 bytes") (js "PAYLOAD_TOO_LARGE") none)
  | some body =>
    match svc.platform.parse body with
    | none | some .null => (s, .reply 400 (js "body must be valid JSON") (js "BODY_INVALID") none)
    | some envelope =>
      if isManifestEnvelope envelope then
        if q.serviceFault then (s, .threw)
        else
          match svc.secret with
          | none =>
            (s, .reply 503 (js "enrollment is temporarily unavailable on this server")
              (js "SERVER_MISCONFIGURED") none)
          | some secret => verifyAndIssueToken svc secret q body s
      else
        (s, .reply 400 (js "body must be a ManifestEnvelope: \x7b\"manifest\": \x7b...\x7d\x7d")
          (js "MANIFEST_INVALID") none)

def start : Process := ⟨[], enrollFailureLabels.map (fun label => (label, 0)), []⟩

structure Exchange where
  request : EnrollRequest
  answer : EnrollAnswer

structure World where
  process : Process
  exchanges : List Exchange

def next (svc : Service) (w : World) (q : EnrollRequest) : World :=
  ⟨(post svc q w.process).1, w.exchanges++[⟨q, (post svc q w.process).2⟩]⟩

def serve (svc : Service) (qs : List EnrollRequest) : World := qs.foldl (next svc) ⟨start, []⟩

theorem serve_snoc (svc : Service) (qs : List EnrollRequest) (q : EnrollRequest) :
    serve svc (qs++[q]) = next svc (serve svc qs) q := by
  rw [serve, List.foldl_append]
  rfl

/-- The body that gets to the verifier. -/
def EnrollRequest.reached (svc : Service) (q : EnrollRequest) : Option Text :=
  q.body.filter (fun body =>
    ((svc.platform.parse body).map (fun envelope => isManifestEnvelope envelope)).getD false &&
      !q.serviceFault && svc.secret.isSome)

def EnrollRequest.refusal (svc : Service) (q : EnrollRequest) : Option Thrown :=
  (q.reached svc).bind (fun _ => q.verdict)

/-- What is thrown by the verifier, or by the minting of a token after it. -/
def EnrollRequest.thrown (svc : Service) (q : EnrollRequest) : Option Thrown :=
  (q.reached svc).bind (fun body => q.verdict.or
    (match issue svc q body with
      | .ok _ => q.mintFault
      | .error _ => none))

def EnrollRequest.refuses (svc : Service) (q : EnrollRequest) (o : ℕ) : Prop :=
  ∃ e, q.refusal svc = some e ∧ e.object = some o

def Exchange.rejected (svc : Service) (x : Exchange) : Bool :=
  (x.request.reached svc).isSome && x.answer.status = 400

def Exchange.logged (svc : Service) (x : Exchange) : Bool :=
  x.rejected svc && !x.request.logFails

def Exchange.rejectedAs (svc : Service) (label : Text) (x : Exchange) : Bool :=
  x.rejected svc && failureLabel x.answer.verifyCode = label

def Exchange.line (x : Exchange) : Option LogLine :=
  match x.answer with
  | .reply _ _ code verifyCode => some (logLine x.request code verifyCode)
  | _ => none

section Parts
variable (svc : Service) (q : EnrollRequest) (s : Process)

theorem failureLabel_mem (verifyCode : Option Text) :
    failureLabel verifyCode ∈ enrollFailureLabels := by
  unfold enrollFailureLabels
  rw [List.mem_append]
  cases verifyCode with
  | none => exact Or.inr (by simp [failureLabel])
  | some c =>
    by_cases hc : c ∈ knownVerifyCodes
    · left
      rw [failureLabel, if_pos hc]
      exact hc
    · right
      simp [failureLabel, hc]

theorem labels_nodup : enrollFailureLabels.Nodup := by decide

theorem mem_mark (e : Thrown) (marked : List ℕ) (o : ℕ) :
    o ∈ markSdkVerifyFailure e marked ↔ o ∈ marked ∨ e.object = some o := by
  unfold markSdkVerifyFailure
  cases he : e.object with
  | none => simp
  | some i =>
    by_cases hi : i ∈ marked
    · simp only [hi, if_true, Option.some.injEq]
      constructor
      · exact Or.inl
      · rintro (h | rfl)
        · exact h
        · exact hi
    · simp only [hi, if_false, List.mem_append, List.mem_singleton, Option.some.injEq, eq_comm]

theorem sdkVerifyCode_some (marked : List ℕ) (e : Thrown) (c : Text) :
    sdkVerifyCode marked e = some c ↔
      ∃ o, e.object = some o ∧ o ∈ marked ∧ usableCode e = some c := by
  unfold sdkVerifyCode
  cases e.object with
  | none => simp
  | some o => by_cases ho : o ∈ marked <;> simp [ho]

theorem issue_not_sdk (body : Text) (e : RegistrationMachine.SdkError) :
    issue svc q body ≠ .error (.sdk e) := by
  intro h
  unfold issue RegistrationMachine.verifyAndIssueToken at h
  simp only at h
  split at h
  · split_ifs at h
    · cases h
    · cases h
    · split at h <;> cases h
  · cases h

def marksOf : List ℕ :=
  match q.refusal svc with
  | some e => markSdkVerifyFailure e s.marked
  | none => s.marked

theorem mem_marksOf (o : ℕ) : o ∈ marksOf svc q s ↔ o ∈ s.marked ∨ q.refuses svc o := by
  unfold marksOf EnrollRequest.refuses
  cases q.refusal svc with
  | none => simp
  | some e => simp [mem_mark]

inductive Handled : Process × EnrollAnswer → Prop
  | early (a : EnrollAnswer) (h : q.reached svc = none) (ha : a.verifyCode = none) :
    Handled (s, a)
  | thrown (e : Thrown) (h : (q.reached svc).isSome = true) (he : q.thrown svc = some e) :
    Handled (rejectThrown q e { s with marked := marksOf svc q s })
  | manifest (message code : Text) (h : (q.reached svc).isSome = true)
    (hn : q.thrown svc = none) (hr : q.refusal svc = none) :
    Handled (rejectManifest q message code s)
  | issued (token aid : Text) (expiresIn : ℤ) (h : (q.reached svc).isSome = true)
    (hn : q.thrown svc = none) (hr : q.refusal svc = none) :
    Handled (s, .issued token aid expiresIn)

theorem post_reached (body : Text) (h : q.reached svc = some body) :
    ∃ secret, svc.secret = some secret ∧
      post svc q s = verifyAndIssueToken svc secret q body s := by
  obtain ⟨hbody, hpass⟩ := Option.filter_eq_some_iff.mp h
  simp only [Bool.and_eq_true, Bool.not_eq_true', Option.isSome_iff_exists] at hpass
  obtain ⟨⟨henvelope, hfault⟩, secret, hsecret⟩ := hpass
  refine ⟨secret, hsecret, ?_⟩
  cases hparse : svc.platform.parse body with
  | none => simp [hparse] at henvelope
  | some envelope =>
    simp only [hparse, Option.map_some, Option.getD_some] at henvelope
    cases envelope with
    | null => simp [isManifestEnvelope, Json.get] at henvelope
    | _ => simp [post, hbody, hparse, henvelope, hfault, hsecret]

theorem post_unreached (h : q.reached svc = none) :
    (post svc q s).1 = s ∧ (post svc q s).2.verifyCode = none ∧
      (post svc q s).2.status ≠ 200 := by
  unfold post
  cases hbody : q.body with
  | none => exact ⟨rfl, rfl, by simp [EnrollAnswer.status]⟩
  | some body =>
    simp only
    cases hparse : svc.platform.parse body with
    | none => exact ⟨rfl, rfl, by simp [EnrollAnswer.status]⟩
    | some envelope =>
      simp only [EnrollRequest.reached, hbody, Option.filter_eq_none_iff] at h
      cases envelope with
      | null => exact ⟨rfl, rfl, by simp [EnrollAnswer.status]⟩
      | _ =>
        simp only
        split_ifs with henvelope hfault
        · exact ⟨rfl, rfl, by simp [EnrollAnswer.status]⟩
        · cases hsecret : svc.secret with
          | none => exact ⟨rfl, rfl, by simp [EnrollAnswer.status]⟩
          | some secret => simp [hparse, henvelope, hfault, hsecret] at h
        · exact ⟨rfl, rfl, by simp [EnrollAnswer.status]⟩

theorem post_handled : Handled svc q s (post svc q s) := by
  cases hreached : q.reached svc with
  | none =>
    obtain ⟨hs, hcode, _⟩ := post_unreached svc q s hreached
    rw [show post svc q s = (s, (post svc q s).2) from Prod.ext hs rfl]
    exact Handled.early _ hreached hcode
  | some body =>
    have hsome : (q.reached svc).isSome = true := by simp [hreached]
    obtain ⟨secret, _, hpost⟩ := post_reached svc q s body hreached
    rw [hpost]
    unfold verifyAndIssueToken
    cases hverdict : q.verdict with
    | some e =>
      have hrefusal : q.refusal svc = some e := by
        simp [EnrollRequest.refusal, hreached, hverdict]
      have hthrown : Handled svc q s _ := Handled.thrown e hsome
        (by simp [EnrollRequest.thrown, hreached, hverdict])
      simpa [marksOf, hrefusal] using hthrown
    | none =>
      have hrefusal : q.refusal svc = none := by
        simp [EnrollRequest.refusal, hreached, hverdict]
      cases hissue : issue svc q body with
      | error rejection =>
        have hnone : q.thrown svc = none := by
          simp [EnrollRequest.thrown, hreached, hverdict, hissue]
        cases rejection with
        | sdk e => exact absurd hissue (issue_not_sdk svc q body e)
        | manifest message code => exact Handled.manifest message code hsome hnone hrefusal
      | ok p =>
        cases hmint : q.mintFault with
        | none =>
          have hnone : q.thrown svc = none := by
            simp [EnrollRequest.thrown, hreached, hverdict, hissue, hmint]
          exact Handled.issued _ _ _ hsome hnone hrefusal
        | some e =>
          have hthrown : Handled svc q s _ := Handled.thrown e hsome
            (by simp [EnrollRequest.thrown, hreached, hverdict, hissue, hmint])
          simpa [marksOf, hrefusal] using hthrown

end Parts

section Effects
variable (svc : Service) (q : EnrollRequest) (s : Process) (r : Process × EnrollAnswer)

theorem rejectThrown_marked (e : Thrown) : (rejectThrown q e s).1.marked = s.marked := by
  unfold rejectThrown
  split <;> rfl

theorem rejectThrown_verifyCode (e : Thrown) (c : Text) :
    (rejectThrown q e s).2.verifyCode = some c ↔
      sdkVerifyCode s.marked e = some c ∧ e.text.isSome = true := by
  unfold rejectThrown
  cases hcode : sdkVerifyCode s.marked e with
  | none => simp [EnrollAnswer.verifyCode]
  | some c' => cases htext : e.text <;> simp [EnrollAnswer.verifyCode]

theorem handled_marked (h : Handled svc q s r) (o : ℕ) :
    o ∈ r.1.marked ↔ o ∈ s.marked ∨ q.refuses svc o := by
  cases h with
  | early a h ha => simp [EnrollRequest.refuses, EnrollRequest.refusal, h]
  | thrown e h he => rw [rejectThrown_marked, mem_marksOf]
  | manifest message code h hn hr => simp [rejectManifest, recordFailure, EnrollRequest.refuses, hr]
  | issued token aid expiresIn h hn hr => simp [EnrollRequest.refuses, hr]

theorem handled_totals (h : Handled svc q s r) : r.1.totals =
    if Exchange.rejected svc ⟨q, r.2⟩ then recordEnrollFailure r.2.verifyCode s.totals
    else s.totals := by
  cases h with
  | early a h ha => simp [Exchange.rejected, h]
  | thrown e h he =>
    unfold rejectThrown
    split
    · simp [Exchange.rejected, EnrollAnswer.status, EnrollAnswer.verifyCode, recordFailure, h]
    · simp [Exchange.rejected, EnrollAnswer.status]
  | manifest message code h hn hr =>
    simp [Exchange.rejected, EnrollAnswer.status, EnrollAnswer.verifyCode, rejectManifest,
      recordFailure, h]
  | issued token aid expiresIn h hn hr => simp [Exchange.rejected, EnrollAnswer.status]

theorem handled_lines (h : Handled svc q s r) : r.1.lines = s.lines++
    (if Exchange.logged svc ⟨q, r.2⟩ then (Exchange.line ⟨q, r.2⟩).toList else []) := by
  cases h with
  | early a h ha => simp [Exchange.logged, Exchange.rejected, h]
  | thrown e h he =>
    unfold rejectThrown
    split
    · cases hlog : q.logFails <;>
        simp [Exchange.logged, Exchange.rejected, EnrollAnswer.status, Exchange.line,
          recordFailure, h, hlog]
    · simp [Exchange.logged, Exchange.rejected, EnrollAnswer.status]
  | manifest message code h hn hr =>
    cases hlog : q.logFails <;>
      simp [Exchange.logged, Exchange.rejected, EnrollAnswer.status, Exchange.line,
        rejectManifest, recordFailure, h, hlog]
  | issued token aid expiresIn h hn hr =>
    simp [Exchange.logged, Exchange.rejected, EnrollAnswer.status]

theorem handled_verifyCode (h : Handled svc q s r) (c : Text) : r.2.verifyCode = some c ↔
    ∃ e o, q.thrown svc = some e ∧ e.object = some o ∧ e.text.isSome = true ∧
      usableCode e = some c ∧ (o ∈ s.marked ∨ q.refuses svc o) := by
  cases h with
  | early a h ha => simp [ha, EnrollRequest.thrown, h]
  | thrown e h he =>
    rw [rejectThrown_verifyCode, sdkVerifyCode_some]
    constructor
    · rintro ⟨⟨o, ho, hm, hu⟩, htext⟩
      exact ⟨e, o, he, ho, htext, hu, (mem_marksOf svc q s o).mp hm⟩
    · rintro ⟨e', o, he', ho, htext, hu, hm⟩
      obtain rfl := Option.some.inj (he.symm.trans he')
      exact ⟨⟨o, ho, (mem_marksOf svc q s o).mpr hm, hu⟩, htext⟩
  | manifest message code h hn hr => simp [hn, rejectManifest, EnrollAnswer.verifyCode]
  | issued token aid expiresIn h hn hr => simp [hn, EnrollAnswer.verifyCode]

theorem handled_threw (h : Handled svc q s r) (e : Thrown) (he : q.thrown svc = some e)
    (hcode : r.2.verifyCode = none) : r.2 = .threw := by
  cases h with
  | early a h ha => simp [EnrollRequest.thrown, h] at he
  | thrown e' h he' =>
    unfold rejectThrown at hcode ⊢
    split
    · next h1 h2 => simp [h1, h2, EnrollAnswer.verifyCode] at hcode
    · rfl
  | manifest message code h hn hr => rw [he] at hn; cases hn
  | issued token aid expiresIn h hn hr => rw [he] at hn; cases hn

end Effects

structure Accounted (svc : Service) (qs : List EnrollRequest) (w : World) : Prop where
  marked : ∀ o, o ∈ w.process.marked ↔ ∃ p ∈ qs, p.refuses svc o
  totals : w.process.totals = enrollFailureLabels.map (fun label =>
    (label, w.exchanges.countP (Exchange.rejectedAs svc label)))
  lines : w.process.lines = (w.exchanges.filter (Exchange.logged svc)).filterMap Exchange.line

theorem accounted_next (svc : Service) (qs : List EnrollRequest) (w : World) (q : EnrollRequest)
    (h : Accounted svc qs w) : Accounted svc (qs++[q]) (next svc w q) := by
  have hpost := post_handled svc q w.process
  constructor
  · intro o
    simp only [next, handled_marked svc q _ _ hpost, h.marked, List.mem_append,
      List.mem_singleton, or_and_right, exists_or, exists_eq_left]
  · simp only [next]
    rw [handled_totals svc q _ _ hpost, h.totals]
    split_ifs with hrejected
    · rw [recordEnrollFailure, bump_seeded _ _ _ _ _ labels_nodup (failureLabel_mem _)]
      apply List.map_congr_left
      intro label _
      by_cases hl : label = failureLabel (post svc q w.process).2.verifyCode
      · simp [hl, List.countP_append, Exchange.rejectedAs, hrejected]
      · have hl' := Ne.symm hl
        simp [hl, hl', List.countP_append, Exchange.rejectedAs, hrejected]
    · apply List.map_congr_left
      intro label _
      simp [List.countP_append, Exchange.rejectedAs, hrejected]
  · simp only [next]
    rw [handled_lines svc q _ _ hpost, h.lines, List.filter_append, List.filterMap_append]
    congr 1
    split_ifs with hlogged
    · rw [List.filter_cons_of_pos hlogged, List.filter_nil, List.filterMap_cons]
      cases Exchange.line ⟨q, (post svc q w.process).2⟩ <;> rfl
    · rw [List.filter_cons_of_neg hlogged]
      rfl

theorem accounted_serve (svc : Service) (qs : List EnrollRequest) :
    Accounted svc qs (serve svc qs) := by
  induction qs using List.reverseRecOn with
  | nil => exact ⟨by simp [serve, start], by simp [serve, start], rfl⟩
  | append_singleton qs q ih =>
    rw [serve_snoc]
    exact accounted_next svc qs _ q ih

/-- A verification code is published when the verifier has thrown that very
object, and every rejection is in the totals and the log by its answer alone. -/
theorem enroll_failures_attributed (svc : Service) (qs : List EnrollRequest)
    (q : EnrollRequest) :
    let answer := (post svc q (serve svc qs).process).2
    (∀ c, answer.verifyCode = some c ↔ ∃ e o, q.thrown svc = some e ∧ e.object = some o ∧
      e.text.isSome = true ∧ usableCode e = some c ∧ ∃ p ∈ qs++[q], p.refuses svc o) ∧
    (∀ e, q.thrown svc = some e → answer.verifyCode = none → answer = .threw) ∧
    Accounted svc (qs++[q]) (serve svc (qs++[q])) := by
  have hpost := post_handled svc q (serve svc qs).process
  have hmarked := (accounted_serve svc qs).marked
  constructor
  · intro c
    simp only [handled_verifyCode svc q _ _ hpost, hmarked, List.mem_append, List.mem_singleton,
      or_and_right, exists_or, exists_eq_left]
  · constructor
    · exact handled_threw svc q _ _ hpost
    · exact accounted_serve svc (qs++[q])

end ControlPlane.EnrollRoute
