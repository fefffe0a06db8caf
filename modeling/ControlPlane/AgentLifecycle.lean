import ControlPlane.KeyedRows
import ControlPlane.RegistrationMachine

/-!
# The life of a registered agent

A registration sets the row of an agent to active, a `DELETE` deregisters it,
a sighting touches it, the expiry job retires the active rows whose manifest
has expired or has another version, and retention deletes deregistered rows.
-/

set_option autoImplicit false

namespace ControlPlane.AgentLifecycle
open ControlPlane.JsText ControlPlane.JsValue ControlPlane.RegistrationMachine
open ControlPlane.AgentRoute (supportedManifestVersion)
open ControlPlane.KeyedRows ControlPlane.RunMachine ControlPlane.ThreadPool

structure AgentRow extends Agent where
  lastSeenAt : Option Instant

/-- The cast of a text to `jsonb`, which may throw, and the configuration. -/
structure Setting where
  cast : Text → Option Json
  expiredAgentGraceDays : ℚ

inductive Reason where
  | manifestExpired
  | manifestVersionUnsupported
  deriving DecidableEq, Repr

def Reason.text : Reason → Text
  | .manifestExpired => js "manifest_expired"
  | .manifestVersionUnsupported => js "manifest_version_unsupported"

structure ExpiredRow where
  aid : Text
  displayName : Text
  agentNamespace : Text
  deriving DecidableEq, Repr

structure ExpiredEvent where
  aidA : Text
  ts : Instant
  displayName : Text
  agentNamespace : Text
  reason : Reason
  deriving DecidableEq, Repr

/-- `deregistrations` records when a row became deregistered, the newest
first. -/
structure World where
  now : Instant
  agents : List AgentRow
  published : List ExpiredEvent
  deregistrations : List (Text × Instant)

/-- `#>> '{manifest,version}'`, for a string. -/
def manifestVersion (v : Json) : Option Text :=
  ((v.get (js "manifest")).bind (·.get (js "version"))).bind Json.string?

def unsupportedManifestVersion (cast : Text → Option Json) (a : AgentRow) : Bool :=
  (cast a.manifestJson).bind manifestVersion ≠ some supportedManifestVersion

def expiredManifest (now : Instant) (a : AgentRow) : Bool :=
  a.manifestExpiresAt.any (fun t => t < now)

def reenrollRow (w : Write) (a : AgentRow) : AgentRow := { a with toAgent := reenroll w a.toAgent }

def upsertRow (w : Write) (rows : List AgentRow) : List AgentRow :=
  if rows.any (fun a => a.aid = aidKey w.input) then
    updateWhere (fun a => a.aid = aidKey w.input) (reenrollRow w) rows
  else rows++[⟨newAgent w, none⟩]

def setStatus (status : AgentStatus) (a : AgentRow) : AgentRow := { a with status := status }

def deactivateAgent (aid : Text) (rows : List AgentRow) : List AgentRow :=
  updateWhere (fun a => a.aid = toWellFormed aid) (setStatus .deregistered) rows

def touchLastSeenBatch (now : Instant) (aids : List Text) (rows : List AgentRow) :
    List AgentRow :=
  updateWhere (fun a => a.aid ∈ aids.map toWellFormed)
    (fun a => { a with lastSeenAt := some now }) rows

def expiredRow (a : AgentRow) : ExpiredRow := ⟨a.aid, a.displayName, a.agentNamespace⟩

def selects (s : Setting) (reason : Reason) (now : Instant) (a : AgentRow) : Bool :=
  a.status = .active &&
    match reason with
    | .manifestExpired => expiredManifest now a
    | .manifestVersionUnsupported => unsupportedManifestVersion s.cast a

def castFails (s : Setting) (rows : List AgentRow) : Bool :=
  rows.any (fun a => a.status = .active && (s.cast a.manifestJson).isNone)

/-- `UPDATE … RETURNING`, or nothing when it throws. -/
def claim (s : Setting) (reason : Reason) (now : Instant) (rows : List AgentRow) :
    Option (List AgentRow × List ExpiredRow) :=
  if reason = .manifestVersionUnsupported && castFails s rows then none
  else some (updateWhere (selects s reason now) (setStatus .expired) rows,
    (rows.filter (selects s reason now)).map expiredRow)

def lastSign (a : AgentRow) : Instant := a.lastSeenAt.getD a.registeredAt

def purgeable (cutoff : Instant) (a : AgentRow) : Bool :=
  a.status = .deregistered && lastSign a < cutoff

def dayMs : ℚ := 86400000

def graceMs (s : Setting) : ℚ := s.expiredAgentGraceDays*dayMs

/-- `Date.now() - days * 24 * 60 * 60 * 1000` -/
def daysAgo (now : Instant) (days : ℚ) : JsNumber :=
  minusMs now (timesPositive 1000 (timesPositive 60 (timesPositive 60 (toDouble (24*days)))))

/-- An invalid date throws. -/
def daysAgoIso (now : Instant) (days : ℚ) : Option Instant := toISOString (daysAgo now days)

def graceCutoff (s : Setting) (now : Instant) : Option Instant :=
  daysAgoIso now s.expiredAgentGraceDays

/-- Nothing is deleted when the window is switched off or the date throws. -/
def purgeDeregisteredAgents (s : Setting) (now : Instant) (rows : List AgentRow) :
    List AgentRow :=
  if s.expiredAgentGraceDays ≤ 0 then rows
  else
    match graceCutoff s now with
    | none => rows
    | some cutoff => rows.filter (fun a => !purgeable cutoff a)

/-- A run of `enforceManifestExpiry`; `now` is read at its start. -/
inductive Phase where
  | claiming (reason : Reason) (now : Instant)
  | emitting (reason : Reason) (now : Instant) (todo : List ExpiredRow)
  | done
  deriving DecidableEq

inductive Io where
  | ok
  | fault
  deriving DecidableEq

def expiredEvent (reason : Reason) (now : Instant) (r : ExpiredRow) : ExpiredEvent :=
  ⟨r.aid, now, r.displayName, r.agentNamespace, reason⟩

/-- A failed insert of the audit row does not keep the event from being
published. -/
def expiryStep (s : Setting) (io : Io) (w : World) : Phase → Option (World × Phase)
  | .claiming reason now =>
    match io, claim s reason now w.agents with
    | .ok, some (rows, out) => some ({ w with agents := rows }, .emitting reason now out)
    | _, _ => some (w, .done)
  | .emitting reason now (r::rest) =>
    some ({ w with published := w.published++[expiredEvent reason now r] },
      .emitting reason now rest)
  | .emitting .manifestExpired now [] => some (w, .claiming .manifestVersionUnsupported now)
  | .emitting .manifestVersionUnsupported _ [] => some (w, .done)
  | .done => none

/-- A sighting and a retention sweep read the clock `lag` milliseconds before
their statement, and a registration commits after its transaction began. -/
inductive Env where
  | tick (ms : ℕ)
  | register (w : Write)
  | deactivate (aid : Text)
  | touch (aids : List Text) (lag : ℕ)
  | retain (lag : ℕ)
  | expire

def isRegistered (rows : List AgentRow) (aid : Text) : Bool :=
  rows.any (fun a => a.aid = aid && a.status ≠ .deregistered)

def noteDeregistration (w : World) (aid : Text) : List (Text × Instant) :=
  if isRegistered w.agents (toWellFormed aid) then (toWellFormed aid, w.now)::w.deregistrations
  else w.deregistrations

def env (s : Setting) : Env → World → Option (World × Option Phase)
  | .tick ms, w => some ({ w with now := w.now+ms }, none)
  | .register r, w =>
    if r.input.storable && r.registeredAt ≤ w.now && r.lastEnrolledAt ≤ w.now then
      some ({ w with agents := upsertRow r w.agents }, none)
    else none
  | .deactivate aid, w =>
    some ({ w with
      agents := deactivateAgent aid w.agents
      deregistrations := noteDeregistration w aid }, none)
  | .touch aids lag, w =>
    some ({ w with agents := touchLastSeenBatch (w.now-lag) aids w.agents }, none)
  | .retain lag, w =>
    some ({ w with agents := purgeDeregisteredAgents s (w.now-lag) w.agents }, none)
  | .expire, w => some (w, some (.claiming .manifestExpired w.now))

def lifecycle (s : Setting) : System World Phase Env Io := ⟨env s, expiryStep s⟩

abbrev State := Pool World Phase

abbrev Event := Label Env Io

abbrev next (s : Setting) : Event → State → Option State := step (lifecycle s)

def start (now : Instant) : State := ⟨⟨now, [], [], []⟩, []⟩

/-- The upsert is the one of the registration transaction. -/
theorem upsertRow_agents (w : Write) (rows : List AgentRow) :
    (upsertRow w rows).map (·.toAgent) = upsertAgent w (rows.map (·.toAgent)) := by
  unfold upsertRow upsertAgent
  rw [List.any_map]
  change _ = if rows.any (fun a => a.aid = aidKey w.input) then _ else _
  split_ifs
  · rw [updateWhere, List.map_map, List.map_map]
    apply List.map_congr_left
    intro a _
    simp only [Function.comp_apply, decide_eq_true_eq]
    split_ifs <;> rfl
  · rw [List.map_append]
    rfl

def status (p : State) (aid : Text) : Option AgentStatus :=
  (p.world.agents.find? (·.aid = aid)).map (·.status)

def Keyed (w : World) : Prop := (w.agents.map (·.aid)).Nodup

theorem keyed_upsert (w : Write) (rows : List AgentRow) (h : (rows.map (·.aid)).Nodup) :
    ((upsertRow w rows).map (·.aid)).Nodup := by
  unfold upsertRow
  split_ifs with hany
  · have hkeys := map_updateWhere (fun a : AgentRow => a.aid) (fun a => a.aid = aidKey w.input)
      (reenrollRow w) rows (fun _ => rfl)
    exact hkeys ▸ h
  · apply nodup_snoc (fun a : AgentRow => a.aid) rows ⟨newAgent w, none⟩ h
    simpa [newAgent] using hany

theorem keyed_update (q : AgentRow → Bool) (f : AgentRow → AgentRow) (rows : List AgentRow)
    (hf : ∀ a, (f a).aid = a.aid) (h : (rows.map (·.aid)).Nodup) :
    ((updateWhere q f rows).map (·.aid)).Nodup := by
  have hkeys := map_updateWhere (fun a : AgentRow => a.aid) q f rows hf
  exact hkeys ▸ h

theorem keyed_purge (s : Setting) (now : Instant) (rows : List AgentRow)
    (h : (rows.map (·.aid)).Nodup) :
    ((purgeDeregisteredAgents s now rows).map (·.aid)).Nodup := by
  unfold purgeDeregisteredAgents
  split_ifs
  · exact h
  · split
    · exact h
    · exact (List.filter_sublist.map _).nodup h

theorem status_eq (p : State) (h : Keyed p.world) (aid : Text) (st : AgentStatus) :
    status p aid = some st ↔ ∃ a ∈ p.world.agents, a.aid = aid ∧ a.status = st := by
  unfold status
  rw [Option.map_eq_some_iff]
  constructor
  · rintro ⟨a, ha, hst⟩
    obtain ⟨hmem, hkey⟩ := (find_key_iff (fun a : AgentRow => a.aid) _ h aid a).mp ha
    exact ⟨a, hmem, hkey, hst⟩
  · rintro ⟨a, hmem, hkey, hst⟩
    exact ⟨a, (find_key_iff (fun a : AgentRow => a.aid) _ h aid a).mpr ⟨hmem, hkey⟩, hst⟩

theorem env_row (s : Setting) (e : Env) (w w' : World) (o : Option Phase)
    (h : env s e w = some (w', o)) (b : AgentRow) (hb : b ∈ w'.agents) :
    (∃ a ∈ w.agents, a.aid = b.aid ∧ a.status = b.status) ∨ b.status = .active ∨
      ∃ aid, e = .deactivate aid ∧ b.aid = toWellFormed aid ∧ b.status = .deregistered := by
  have hsame : b ∈ w.agents → ∃ a ∈ w.agents, a.aid = b.aid ∧ a.status = b.status :=
    fun hmem => ⟨b, hmem, rfl, rfl⟩
  cases e with
  | tick ms => cases h; exact Or.inl (hsame hb)
  | expire => cases h; exact Or.inl (hsame hb)
  | register r =>
    simp only [env] at h
    split_ifs at h
    cases h
    simp only [upsertRow] at hb
    split_ifs at hb with hany
    · obtain ⟨a, ha, rfl⟩ := mem_updateWhere _ _ _ b hb
      split_ifs
      · exact Or.inr (Or.inl rfl)
      · exact Or.inl ⟨a, ha, rfl, rfl⟩
    · rcases List.mem_append.mp hb with hb | hb
      · exact Or.inl (hsame hb)
      · rw [List.mem_singleton.mp hb]
        exact Or.inr (Or.inl rfl)
  | deactivate aid =>
    cases h
    obtain ⟨a, ha, rfl⟩ := mem_updateWhere _ _ _ b hb
    split_ifs with hsel
    · exact Or.inr (Or.inr ⟨aid, rfl, of_decide_eq_true hsel, rfl⟩)
    · exact Or.inl ⟨a, ha, rfl, rfl⟩
  | touch aids lag =>
    cases h
    obtain ⟨a, ha, rfl⟩ := mem_updateWhere _ _ _ b hb
    left
    apply Exists.intro a
    apply And.intro ha
    split_ifs <;> exact ⟨rfl, rfl⟩
  | retain lag =>
    cases h
    left
    simp only [purgeDeregisteredAgents] at hb
    split at hb
    · exact hsame hb
    · split at hb
      · exact hsame hb
      · exact hsame (List.mem_of_mem_filter hb)

theorem keyed_claim (s : Setting) (reason : Reason) (now : Instant) (rows rows' : List AgentRow)
    (out : List ExpiredRow) (h : (rows.map (·.aid)).Nodup)
    (hc : claim s reason now rows = some (rows', out)) : (rows'.map (·.aid)).Nodup := by
  unfold claim at hc
  split_ifs at hc
  · cases hc
    exact keyed_update _ _ rows (fun _ => rfl) h

theorem keyed_next (s : Setting) (l : Event) (p q : State) (h : Keyed p.world)
    (hs : next s l p = some q) : Keyed q.world := by
  cases l with
  | env e =>
    obtain ⟨w, o, he, rfl⟩ := (step_env_some (lifecycle s) e p q).mp hs
    cases e with
    | tick ms => cases he; exact h
    | register r =>
      simp only [lifecycle, env] at he
      split_ifs at he
      · cases he
        exact keyed_upsert r p.world.agents h
    | deactivate aid => cases he; exact keyed_update _ _ p.world.agents (fun _ => rfl) h
    | touch aids lag => cases he; exact keyed_update _ _ p.world.agents (fun _ => rfl) h
    | retain lag => cases he; exact keyed_purge s _ p.world.agents h
    | expire => cases he; exact h
  | act i io =>
    obtain ⟨ph, w, ph', -, ha, rfl⟩ := (step_act_some (lifecycle s) i io p q).mp hs
    cases ph with
    | claiming reason now =>
      simp only [lifecycle, expiryStep] at ha
      split at ha
      · next rows out hc =>
        cases ha
        exact keyed_claim s reason now p.world.agents rows out h hc
      · cases ha
        exact h
    | emitting reason now todo =>
      cases todo with
      | cons r rest => cases ha; exact h
      | nil => cases reason <;> (cases ha; exact h)
    | done => cases ha

theorem keyed_start (now : Instant) : Keyed (start now).world := List.nodup_nil

end ControlPlane.AgentLifecycle
