import ControlPlane.ProcessBoot
import ControlPlane.RevocationRelay

/-!
# Who an audit row names

A process that has started has one label for each key. So the actor of an
audit row tells which key its request was admitted with, whatever headers the
clients sent, and the registrations that no key admits have an actor of their
own.
-/

set_option autoImplicit false

namespace ControlPlane.AuditAttribution
open ControlPlane.JsText ControlPlane.JsValue ControlPlane.HttpValidate ControlPlane.RequestGate
open ControlPlane.ApiKeys ControlPlane.AdminAudit ControlPlane.AdminRoutes ControlPlane.AgentRoute
open ControlPlane.AuditCompleteness
open ControlPlane.RevocationRelay (requestToken plainKey matchedKey matchedIssuer Configured)
open ControlPlane.KeyLists (Distinct)
open ControlPlane.ProcessBoot (Settings register)

def isRegistration : Mutation → Bool
  | .registerAgent _ _ _ _ _ => true
  | _ => false

/-- A mutation comes in by a route that is not read with `GET`, and only a
registration comes in by a public one. -/
structure Submission where
  source : IdSource
  allowed : RateLimitChoice → Bool
  request : Request
  mutation : Mutation
  writes : request.method ≠ js "GET"
  route : isPublicRequest request.pathname request.method = isRegistration mutation

def submit (cfg : GateConfig) (log : AuditLog) (x : Submission) : AuditLog :=
  match proxy cfg x.source x.allowed x.request with
  | .forward h => (handle h log x.mutation).2
  | _ => log

def submitAll (cfg : GateConfig) (xs : List Submission) (log : AuditLog) : AuditLog :=
  xs.foldl (submit cfg) log

/-- The key that admits a submission; none admits a registration. -/
def principal (x : Submission) : Option Text :=
  if isRegistration x.mutation then none else requestToken x.request

def fallbackActor (m : Mutation) : Option Text :=
  if isRegistration m then some (js "enrollment-token") else none

section Handlers
variable (h : Headers) (log : AuditLog)

def Adds (fallback : Option Text) (log' : AuditLog) : Prop :=
  log'.rows = log.rows ∨ ∃ row, log'.rows = log.rows++[row] ∧
    row.actorId = (auditContext h fallback).actorId

theorem adds_none (fallback : Option Text) : Adds h log fallback log := Or.inl rfl

theorem adds_audited (fallback : Option Text) (status : ℕ) (entry : AdminAuditEntry) :
    Adds h log fallback (audited status entry (auditContext h fallback) log).2 := by
  simp only [audited, writeAdminAudit]
  split_ifs
  · exact Or.inr ⟨_, rfl, rfl⟩
  · exact Or.inl rfl

theorem postRevocation_adds (M : TctMonitor.Monitor) (parseDate : Text → Option Instant)
    (now : Instant) (body : RequestBody) (t : TctMonitor.Tables) :
    Adds h log none (postRevocation M parseDate now body h t log).1.2 := by
  unfold postRevocation
  split
  · exact adds_none h log none
  · split
    · exact adds_none h log none
    · exact adds_none h log none
    · exact adds_audited h log none _ _

theorem createWebhook_adds (assertSafe : Text → Option Text) (id : FreshId) (body : RequestBody) :
    Adds h log none (createWebhook assertSafe id body h log).2 := by
  unfold createWebhook
  repeat' split
  all_goals first | exact adds_none h log none | exact adds_audited h log none _ _

theorem updateWebhook_adds (assertSafe : Text → Option Text) (id : Text) (found : Bool)
    (body : RequestBody) : Adds h log none (updateWebhook assertSafe id found body h log).2 := by
  unfold updateWebhook
  repeat' split
  all_goals first | exact adds_none h log none | exact adds_audited h log none _ _

theorem deleteById_adds (act : Text) (status : ℕ) (missing : Problem) (id : Text) (found : Bool) :
    Adds h log none (deleteById act status missing id found h log).2 := by
  unfold deleteById
  split_ifs
  · exact adds_none h log none
  · exact adds_audited h log none _ _
  · exact adds_none h log none

theorem resetCircuitBreaker_adds (id : Text) :
    Adds h log none (resetCircuitBreaker id h log).2 := by
  unfold resetCircuitBreaker
  split_ifs
  · exact adds_none h log none
  · exact adds_audited h log none _ _

theorem createTrustAnchor_adds (id : FreshId) (conflict : Bool) (body : RequestBody) :
    Adds h log none (createTrustAnchor id conflict body h log).2 := by
  unfold createTrustAnchor
  repeat' split
  all_goals first | exact adds_none h log none | exact adds_audited h log none _ _

theorem updateTrustAnchor_adds (id : Text) (found conflict : Bool) (updatedAt : Timestamp)
    (body : RequestBody) :
    Adds h log none (updateTrustAnchor id found conflict updatedAt body h log).2 := by
  unfold updateTrustAnchor
  repeat' split
  all_goals first | exact adds_none h log none | exact adds_audited h log none _ _

theorem registerAgent_adds (service : Service) (now : Instant) (tooLarge : Bool) (body : Text)
    (registered : Option Bool) : Adds h log (some (js "enrollment-token"))
      (registerAgent service now tooLarge body registered h log).2 := by
  unfold registerAgent
  dsimp only
  repeat' split
  all_goals first | exact adds_none h log _ | exact adds_audited h log _ _ _

theorem handle_adds (m : Mutation) : Adds h log (fallbackActor m) (handle h log m).2 := by
  cases m with
  | postRevocation M parseDate now body t => exact postRevocation_adds h log M parseDate now body t
  | createWebhook assertSafe id body => exact createWebhook_adds h log assertSafe id body
  | updateWebhook assertSafe id found body =>
    exact updateWebhook_adds h log assertSafe id found body
  | deleteWebhook id found => exact deleteById_adds h log _ _ _ id found
  | resetCircuitBreaker id => exact resetCircuitBreaker_adds h log id
  | createTrustAnchor id conflict body => exact createTrustAnchor_adds h log id conflict body
  | updateTrustAnchor id found conflict updatedAt body =>
    exact updateTrustAnchor_adds h log id found conflict updatedAt body
  | deleteTrustAnchor id found => exact deleteById_adds h log _ _ _ id found
  | registerAgent service now tooLarge body registered =>
    exact registerAgent_adds h log service now tooLarge body registered

end Handlers

section Keys
variable (s : Settings)

def keyEntries : List KeyEntry := (parseApiKeys s.apiKeys).entries

def actorOf : Option Text → Option Text
  | none => some (js "enrollment-token")
  | some key => (labelIndex (keyEntries s) key).map actorIdForKeyLabel

def IsPrincipal : Option Text → Prop
  | none => True
  | some key => ∃ label, labelIndex (keyEntries s) key = some label

theorem running_distinct (hboot : (register s).running = true) :
    Distinct KeyEntry.label (keyEntries s) := by
  simp only [register, ProcessBoot.enforce_running] at hboot
  have herrors : ProcessBoot.keyLabelErrors s = [] := by
    by_contra hne
    have := hboot.2 _ (by simp only [ProcessBoot.keyLabelBootFailure, if_neg hne]; rfl)
    cases this
  exact ((ProcessBoot.keyLabelErrors_nil s).mp herrors).1

theorem actor_registration (label : Text) :
    actorIdForKeyLabel label ≠ js "enrollment-token" := by
  intro h
  have hhead := congrArg List.head? h
  simp only [actorIdForKeyLabel, show js "key:" = 0x6B::js "ey:" by decide,
    show js "enrollment-token" = 0x65::js "nrollment-token" by decide, List.cons_append,
    List.head?_cons] at hhead
  exact absurd hhead (by decide)

theorem actorOf_injective (hboot : (register s).running = true) (p q : Option Text)
    (hp : IsPrincipal s p) (hq : IsPrincipal s q) (h : actorOf s p = actorOf s q) : p = q := by
  have hlabels := running_distinct s hboot
  match p, q with
  | none, none => rfl
  | none, some key =>
    obtain ⟨label, hl⟩ := hq
    simp only [actorOf, hl, Option.map_some, Option.some.injEq] at h
    exact absurd h.symm (actor_registration label)
  | some key, none =>
    obtain ⟨label, hl⟩ := hp
    simp only [actorOf, hl, Option.map_some, Option.some.injEq] at h
    exact absurd h (actor_registration label)
  | some key, some key' =>
    obtain ⟨label, hl⟩ := hp
    obtain ⟨label', hl'⟩ := hq
    simp only [actorOf, hl, hl', Option.map_some, Option.some.injEq, actorIdForKeyLabel,
      List.append_cancel_left_eq] at h
    obtain ⟨e, he, rfl, rfl⟩ := (labelIndex_iff s.apiKeys key label).mp hl
    obtain ⟨e', he', rfl, rfl⟩ := (labelIndex_iff s.apiKeys key' label').mp hl'
    rw [List.inj_on_of_nodup_map hlabels he he' h]

end Keys

section Rows
variable {s : Settings} {cfg : GateConfig}

theorem forwarded_actor (hc : Configured s.apiKeys s.issuerKeys cfg)
    (hne : cfg.apiKeyEntries ≠ []) (x : Submission) (h : Headers)
    (hf : proxy cfg x.source x.allowed x.request = .forward h) :
    IsPrincipal s (principal x) ∧
      (auditContext h (fallbackActor x.mutation)).actorId = actorOf s (principal x) := by
  obtain ⟨keyLabel, keyIssuer, hauth, hpass⟩ := proxy_authenticated cfg _ _ x.request h hf
  obtain ⟨_, hlabel, hwhy⟩ := RevocationRelay.authenticate_ok cfg x.request keyLabel keyIssuer hauth
  have hissuer : matchedIssuer cfg x.request = none := by
    simp [matchedIssuer, RevocationRelay.isRelayRequest, x.writes]
  have hget := passThrough_keyLabel cfg x.source x.request keyLabel keyIssuer h hpass
  rw [hissuer, Option.map_none, Option.none_or] at hlabel
  by_cases hreg : isRegistration x.mutation = true
  · have hpub := x.route.trans hreg
    have hnone : matchedKey cfg x.request = none := by simp [matchedKey, hpub]
    rw [hlabel, hnone] at hget
    have hno : present (get h keyLabelHeader) = none := by rw [hget]; rfl
    refine ⟨by simp [principal, hreg, IsPrincipal], ?_⟩
    simp only [auditContext, hno, fallbackActor, principal, if_pos hreg]
    rfl
  · have hpub := x.route.trans (Bool.eq_false_of_not_eq_true hreg)
    obtain ⟨e, he⟩ : ∃ e, matchedKey cfg x.request = some e := by
      rcases hwhy with h | h | h | h
      · simp [hpub] at h
      · simp [hissuer] at h
      · exact Option.isSome_iff_exists.mp h
      · exact absurd h.1 hne
    rw [hlabel, he, Option.map_some, RevocationRelay.present_keyLabel _ e.labelled,
      Option.map_some, RevocationRelay.normalizeValue_keyLabel _ e.labelled] at hget
    simp only [matchedKey, hpub, Bool.false_eq_true, if_false, Option.bind_eq_some_iff] at he
    obtain ⟨key, hkey, hfind⟩ := he
    obtain rfl : e.key = key := by simpa using List.find?_some hfind
    have hmem : plainKey e ∈ keyEntries s :=
      RevocationRelay.plainKey_mem s.apiKeys s.issuerKeys cfg hc e (List.mem_of_find?_eq_some hfind)
    have hindex : labelIndex (keyEntries s) e.key = some e.label :=
      (labelIndex_iff s.apiKeys e.key e.label).mpr ⟨plainKey e, hmem, rfl, rfl⟩
    have hprincipal : principal x = some e.key := by
      rw [principal, if_neg hreg, hkey]
    rw [hprincipal]
    refine ⟨⟨e.label, hindex⟩, ?_⟩
    simp [auditContext, hget, RevocationRelay.present_keyLabel _ e.labelled, actorOf, hindex]

/-- The gate forwards the submission, its handler adds the row, and the row
names the key that admitted it. -/
def Names (s : Settings) (cfg : GateConfig) (x : Submission) (row : AdminAuditRow) : Prop :=
  (∃ h log, proxy cfg x.source x.allowed x.request = .forward h ∧
    (handle h log x.mutation).2.rows = log.rows++[row]) ∧
  IsPrincipal s (principal x) ∧ row.actorId = actorOf s (principal x)

theorem submit_names (hc : Configured s.apiKeys s.issuerKeys cfg) (hne : cfg.apiKeyEntries ≠ [])
    (log : AuditLog) (x : Submission) : (submit cfg log x).rows = log.rows ∨
      ∃ row, (submit cfg log x).rows = log.rows++[row] ∧ Names s cfg x row := by
  unfold submit
  split
  · next h hf =>
    obtain ⟨hprincipal, hactor⟩ := forwarded_actor hc hne x h hf
    rcases handle_adds h log x.mutation with hsame | ⟨row, hrow, hid⟩
    · exact Or.inl hsame
    · exact Or.inr ⟨row, hrow, ⟨h, log, hf, hrow⟩, hprincipal, hid.trans hactor⟩
  · exact Or.inl rfl

theorem submitAll_names (hc : Configured s.apiKeys s.issuerKeys cfg)
    (hne : cfg.apiKeyEntries ≠ []) (xs : List Submission) (log : AuditLog) :
    ∃ ys rows, ys.Sublist xs ∧ (submitAll cfg xs log).rows = log.rows++rows ∧
      List.Forall₂ (Names s cfg) ys rows := by
  induction xs generalizing log with
  | nil => exact ⟨[], [], List.Sublist.refl _, (List.append_nil _).symm, List.Forall₂.nil⟩
  | cons x xs ih =>
    obtain ⟨ys, rows, hsub, hrows, hnames⟩ := ih (submit cfg log x)
    rcases submit_names hc hne log x with hsame | ⟨row, hrow, hname⟩
    · exact ⟨ys, rows, hsub.cons x, hsame ▸ hrows, hnames⟩
    · refine ⟨x::ys, row::rows, hsub.cons_cons x, ?_, List.Forall₂.cons hname hnames⟩
      rw [show submitAll cfg (x::xs) log = submitAll cfg xs (submit cfg log x) from rfl, hrows,
        hrow, List.append_assoc]
      rfl

/-- The rows that a started process writes are those of some of its forwarded
submissions, each beside its own, in their order, and two of them name the same
actor exactly if the same key admitted both, or none because both registered an
agent. -/
theorem audit_tells_keys_apart (s : Settings) (cfg : GateConfig)
    (hboot : (register s).running = true) (hc : Configured s.apiKeys s.issuerKeys cfg)
    (hne : cfg.apiKeyEntries ≠ []) (xs : List Submission) (log : AuditLog) :
    ∃ (ys : List Submission) (rows : List AdminAuditRow), ys.Sublist xs ∧
      (submitAll cfg xs log).rows = log.rows++rows ∧ List.Forall₂ (Names s cfg) ys rows ∧
        ∀ (i j : ℕ) (x y : Submission) (r r' : AdminAuditRow),
          ys[i]? = some x → rows[i]? = some r → ys[j]? = some y → rows[j]? = some r' →
            (r.actorId = r'.actorId ↔ principal x = principal y) := by
  obtain ⟨ys, rows, hsub, hrows, hnames⟩ := submitAll_names hc hne xs log
  refine ⟨ys, rows, hsub, hrows, hnames, ?_⟩
  have hname : ∀ (i : ℕ) (x : Submission) (r : AdminAuditRow), ys[i]? = some x →
      rows[i]? = some r → Names s cfg x r := by
    intro i x r hx hr
    obtain ⟨hi, rfl⟩ := List.getElem?_eq_some_iff.mp hx
    obtain ⟨hi', rfl⟩ := List.getElem?_eq_some_iff.mp hr
    exact (List.forall₂_iff_get.mp hnames).2 i hi hi'
  intro i j x y r r' hx hr hy hr'
  obtain ⟨_, hpx, hax⟩ := hname i x r hx hr
  obtain ⟨_, hpy, hay⟩ := hname j y r' hy hr'
  rw [hax, hay]
  constructor
  · exact actorOf_injective s hboot _ _ hpx hpy
  · exact congrArg (actorOf s)

end Rows

section Scenario

theorem ops_label : isKeyLabel (js "ops") = true := by decide

theorem ci_label : isKeyLabel (js "ci") = true := by decide

def keyed : GateConfig where
  apiKeyEntries := [⟨js "ops", js "k1", ops_label⟩, ⟨js "ci", js "k2", ci_label⟩]
  issuerKeyEntries := []
  isProduction := true
  clientIpHeader := []
  trustedProxyHops := 0
  rateLimitEnabled := false
  rateLimitEnrollPerIpMin := 5
  rateLimitPublicPerIpMin := 60
  rateLimitApiKeyMin := 600

def clock : IdSource := ⟨0, [], by decide, by decide, by decide⟩

def breakerId : Text := js "00000000-0000-4000-8000-000000000000"

def resets (value : Text) (legal : isHeaderValue value = true) : Submission where
  source := clock
  allowed := fun _ => true
  request := ⟨js "POST", js "/api/webhooks/"++breakerId++js "/circuit-breaker/reset",
    [⟨js "authorization", value, legal⟩]⟩
  mutation := .resetCircuitBreaker breakerId
  writes := show js "POST" ≠ js "GET" by decide
  route := show isPublicRequest
    (js "/api/webhooks/"++breakerId++js "/circuit-breaker/reset") (js "POST") = false by decide

def twoResets : List Submission :=
  [resets (js "Bearer k1") (by decide), resets (js "Bearer k2") (by decide)]

theorem keyed_configured :
    Configured ProcessBoot.trailing.apiKeys ProcessBoot.trailing.issuerKeys keyed := by
  constructor <;> decide +kernel

theorem audit_tells_keys_apart_resets :
    ∃ (ys : List Submission) (rows : List AdminAuditRow), ys.Sublist twoResets ∧
      (submitAll keyed twoResets ⟨[], 0⟩).rows = []++rows ∧
        List.Forall₂ (Names ProcessBoot.trailing keyed) ys rows ∧
        ∀ (i j : ℕ) (x y : Submission) (r r' : AdminAuditRow),
          ys[i]? = some x → rows[i]? = some r → ys[j]? = some y → rows[j]? = some r' →
            (r.actorId = r'.actorId ↔ principal x = principal y) :=
  audit_tells_keys_apart ProcessBoot.trailing keyed ProcessBoot.trailing_running keyed_configured
    (by decide) twoResets ⟨[], 0⟩

example : (submitAll keyed twoResets ⟨[], 0⟩).rows.map (·.actorId) =
    [some (js "key:ops"), some (js "key:ci")] := by decide +kernel

end Scenario

end ControlPlane.AuditAttribution
