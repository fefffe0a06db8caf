import ControlPlane.AgentLifecycle

/-!
# One event for each expiry

A run of the expiry job claims its rows in the statement that retires them
and publishes an event for each row it was given. Over all replicas the
events that are published or about to be are as many as the rows that went
from active to expired.
-/

set_option autoImplicit false

namespace ControlPlane.ExpiryEvents
open ControlPlane.JsText ControlPlane.JsValue
open ControlPlane.RegistrationMachine (AgentStatus Write)
open ControlPlane.AgentLifecycle ControlPlane.KeyedRows ControlPlane.RunMachine
open ControlPlane.ThreadPool

def moved (aid : Text) (p q : State) : Bool :=
  status p aid = some .active && status q aid = some .expired

def updateOf (l : Event) (p : State) : Option Reason :=
  match l with
  | .act i .ok =>
    match p.threads[i]? with
    | some (.claiming reason _) => some reason
    | _ => none
  | _ => none

/-- How often the row of an agent went from active to expired. -/
def moves (s : Setting) (aid : Text) (ls : List Event) (p : State) : ℕ :=
  countSteps (next s) (fun _ => moved aid) ls p

def movesBy (s : Setting) (aid : Text) (reason : Reason) (ls : List Event) (p : State) : ℕ :=
  countSteps (next s) (fun l p q => moved aid p q && updateOf l p = some reason) ls p

def publishedFor (aid : Text) (reason : Reason) (p : State) : ℕ :=
  p.world.published.countP (fun e => e.aidA = aid && e.reason = reason)

def phasePending (aid : Text) (reason : Reason) : Phase → ℕ
  | .emitting r _ todo => if r = reason then todo.countP (fun x => x.aid = aid) else 0
  | _ => 0

def pendingFor (aid : Text) (reason : Reason) (p : State) : ℕ :=
  (p.threads.map (phasePending aid reason)).sum

theorem claim_agent (s : Setting) (reason : Reason) (now : Instant) (rows rows' : List AgentRow)
    (out : List ExpiredRow) (h : (rows.map (·.aid)).Nodup)
    (hc : claim s reason now rows = some (rows', out)) (aid : Text) :
    (out.countP (fun x => x.aid = aid) = 0 ∧
      rows'.find? (fun a => a.aid = aid) = rows.find? (fun a => a.aid = aid)) ∨
    (out.countP (fun x => x.aid = aid) = 1 ∧
      ((rows.find? (fun a => a.aid = aid)).map (·.status) = some .active) ∧
        (rows'.find? (fun a => a.aid = aid)).map (·.status) = some .expired) := by
  unfold claim at hc
  split_ifs at hc
  cases hc
  have hfind := find_updateWhere (fun a : AgentRow => a.aid) (selects s reason now)
    (setStatus .expired) rows (fun _ => rfl) aid
  have hcount : ((rows.filter (selects s reason now)).map expiredRow).countP
      (fun x => x.aid = aid) =
        ((rows.find? (fun a => a.aid = aid)).toList.filter (selects s reason now)).length := by
    rw [List.countP_map, List.countP_eq_length_filter,
      ← filter_key (fun a : AgentRow => a.aid) rows h aid, List.filter_filter,
      List.filter_filter]
    congr 1
    apply List.filter_congr
    intro a _
    exact Bool.and_comm _ _
  rw [hcount, hfind]
  cases hrow : rows.find? (fun a => a.aid = aid) with
  | none => exact Or.inl ⟨rfl, rfl⟩
  | some a =>
    by_cases hsel : selects s reason now a = true
    · have hactive : a.status = .active := by
        simp only [selects, Bool.and_eq_true, decide_eq_true_eq] at hsel
        exact hsel.1
      right
      simp [hsel, hactive, setStatus]
    · left
      simp [hsel]

theorem pending_append (aid : Text) (reason : Reason) (p : State) (w : World)
    (o : Option Phase) (ho : ∀ ph ∈ o, phasePending aid reason ph = 0) :
    pendingFor aid reason ⟨w, p.threads++o.toList⟩ = pendingFor aid reason p := by
  unfold pendingFor
  rw [List.map_append, List.sum_append]
  cases o with
  | none => simp
  | some ph => simp [ho ph rfl]

def eventsFor (aid : Text) (reason : Reason) (p : State) : ℕ :=
  publishedFor aid reason p+pendingFor aid reason p

theorem moved_same (aid : Text) (p q : State) (h : status q aid = status p aid) :
    moved aid p q = false := by
  simp only [moved, h, Bool.and_eq_false_iff, decide_eq_false_iff_not]
  by_cases hp : status p aid = some .active
  · right
    simp [hp]
  · exact Or.inl hp

theorem act_agent (s : Setting) (i : ℕ) (io : Io) (p q : State) (hk : Keyed p.world)
    (h : next s (.act i io) p = some q) (aid : Text) :
    (status q aid = status p aid ∧ ∀ reason, eventsFor aid reason q = eventsFor aid reason p) ∨
    (status p aid = some .active ∧ status q aid = some .expired ∧
      ∃ r, updateOf (.act i io) p = some r ∧ ∀ reason, eventsFor aid reason q =
        eventsFor aid reason p+(if r = reason then 1 else 0)) := by
  obtain ⟨ph, w, ph', hi, ha, rfl⟩ := (step_act_some (lifecycle s) i io p q).mp h
  have hsum : ∀ reason, pendingFor aid reason ⟨w, p.threads.set i ph'⟩+phasePending aid reason ph =
      pendingFor aid reason p+phasePending aid reason ph' :=
    fun reason => sum_set_add p.threads i ph ph' (phasePending aid reason) hi
  cases ph with
  | claiming reason now =>
    simp only [lifecycle, expiryStep] at ha
    split at ha
    · next rows out hc =>
      cases ha
      rcases claim_agent s reason now p.world.agents rows out hk hc aid with
        ⟨hzero, hrow⟩ | ⟨hone, hactive, hexpired⟩
      · left
        constructor
        · exact congrArg (·.map (·.status)) hrow
        · intro r
          have hr := hsum r
          simp only [phasePending, hzero, ite_self] at hr
          simp only [eventsFor, publishedFor]
          omega
      · right
        apply And.intro hactive
        apply And.intro hexpired
        apply Exists.intro reason
        constructor
        · simp [updateOf, hi]
        · intro r
          have hr := hsum r
          simp only [phasePending, hone] at hr
          simp only [eventsFor, publishedFor]
          omega
    · cases ha
      left
      apply And.intro rfl
      intro r
      have hr := hsum r
      simp only [phasePending] at hr
      simp only [eventsFor, publishedFor]
      omega
  | emitting reason now todo =>
    left
    cases todo with
    | cons x rest =>
      cases ha
      apply And.intro rfl
      intro r
      have hr := hsum r
      simp only [phasePending, List.countP_cons, decide_eq_true_eq] at hr
      simp only [eventsFor, publishedFor, List.countP_append, List.countP_singleton, expiredEvent,
        Bool.and_eq_true, decide_eq_true_eq]
      by_cases hreason : reason = r
      · simp only [pendingFor, hreason, if_true, and_true] at hr ⊢
        omega
      · simp only [pendingFor, hreason, if_false, and_false] at hr ⊢
        omega
    | nil =>
      have hdone : w = p.world ∧ phasePending aid .manifestExpired ph' = 0 ∧
          phasePending aid .manifestVersionUnsupported ph' = 0 := by
        cases reason <;> (cases ha; exact ⟨rfl, rfl, rfl⟩)
      obtain ⟨rfl, hz, hz'⟩ := hdone
      apply And.intro rfl
      intro r
      have hr := hsum r
      have hnil : phasePending aid r (.emitting reason now []) = 0 := by simp [phasePending]
      have hzr : phasePending aid r ph' = 0 := by
        cases r with
        | manifestExpired => exact hz
        | manifestVersionUnsupported => exact hz'
      rw [hnil, hzr] at hr
      simp only [eventsFor, publishedFor]
      omega
  | done => cases ha

theorem env_agent (s : Setting) (e : Env) (p q : State) (hk : Keyed p.world)
    (h : next s (.env e) p = some q) (aid : Text) :
    moved aid p q = false ∧ ∀ reason, eventsFor aid reason q = eventsFor aid reason p := by
  have hq := keyed_next s (.env e) p q hk h
  obtain ⟨w, o, he, rfl⟩ := (step_env_some (lifecycle s) e p q).mp h
  have hnew : ∀ reason, ∀ ph ∈ o, phasePending aid reason ph = 0 := by
    intro reason ph hph
    cases e with
    | expire =>
      cases he
      obtain rfl : Phase.claiming .manifestExpired p.world.now = ph := Option.some.inj hph
      rfl
    | register r =>
      simp only [lifecycle, env] at he
      split_ifs at he
      cases he
      cases hph
    | _ => cases he; cases hph
  have hpublished : w.published = p.world.published := by
    cases e with
    | register r =>
      simp only [lifecycle, env] at he
      split_ifs at he
      cases he
      rfl
    | _ => cases he; rfl
  constructor
  · rw [Bool.eq_false_iff]
    intro hm
    simp only [moved, Bool.and_eq_true, decide_eq_true_eq] at hm
    obtain ⟨hactive, hexpired⟩ := hm
    obtain ⟨b, hb, hbaid, hbst⟩ := (status_eq _ hq aid .expired).mp hexpired
    obtain ⟨a, ha, haaid, hast⟩ := (status_eq p hk aid .active).mp hactive
    rcases env_row s e p.world w o he b hb with ⟨c, hc, hcaid, hcst⟩ | hact | ⟨-, -, -, hdereg⟩
    · obtain rfl := List.inj_on_of_nodup_map hk hc ha (hcaid.trans (hbaid.trans haaid.symm))
      exact absurd (hast.symm.trans (hcst.trans hbst)) (by decide)
    · exact absurd (hact.symm.trans hbst) (by decide)
    · exact absurd (hdereg.symm.trans hbst) (by decide)
  · intro reason
    unfold eventsFor
    rw [pending_append aid reason p w o (hnew reason)]
    simp only [publishedFor, hpublished]

theorem next_agent (s : Setting) (l : Event) (p q : State) (hk : Keyed p.world)
    (h : next s l p = some q) (aid : Text) :
    (moved aid p q = false ∧ ∀ reason, eventsFor aid reason q = eventsFor aid reason p) ∨
    (moved aid p q = true ∧ ∃ r, updateOf l p = some r ∧ ∀ reason, eventsFor aid reason q =
      eventsFor aid reason p+(if r = reason then 1 else 0)) := by
  cases l with
  | env e => exact Or.inl (env_agent s e p q hk h aid)
  | act i io =>
    rcases act_agent s i io p q hk h aid with ⟨hsame, hcount⟩ | ⟨hactive, hexpired, hmove⟩
    · exact Or.inl ⟨moved_same aid p q hsame, hcount⟩
    · exact Or.inr ⟨by simp [moved, hactive, hexpired], hmove⟩

def Quiescent (p : State) : Prop :=
  ∀ (i : ℕ) (reason : Reason) (now : Instant) (todo : List ExpiredRow),
    p.threads[i]? = some (.emitting reason now todo) → todo = []

theorem pending_quiescent (p : State) (h : Quiescent p) (aid : Text) (reason : Reason) :
    pendingFor aid reason p = 0 := by
  unfold pendingFor
  apply List.sum_eq_zero
  intro n hn
  obtain ⟨ph, hph, rfl⟩ := List.mem_map.mp hn
  obtain ⟨i, hi⟩ := List.mem_iff_getElem?.mp hph
  cases ph with
  | emitting r now todo =>
    rw [h i r now todo hi]
    simp [phasePending]
  | _ => rfl

theorem eventsFor_start (now : Instant) (aid : Text) (reason : Reason) :
    eventsFor aid reason (start now) = 0 := rfl

structure ExactlyOnce (s : Setting) (ls : List Event) (p₀ p : State) : Prop where
  byReason : ∀ aid reason, publishedFor aid reason p+pendingFor aid reason p =
    movesBy s aid reason ls p₀
  settled : Quiescent p → ∀ aid,
    p.world.published.countP (fun e => e.aidA = aid) = moves s aid ls p₀
  onlyActive : ∀ i io q, next s (.act i io) p = some q → ∀ aid, status q aid ≠ status p aid →
    status p aid = some .active ∧ status q aid = some .expired ∧
      (updateOf (.act i io) p).isSome = true

theorem countP_reasons (aid : Text) (es : List ExpiredEvent) :
    es.countP (fun e => e.aidA = aid) =
      es.countP (fun e => e.aidA = aid && e.reason = .manifestExpired)+
        es.countP (fun e => e.aidA = aid && e.reason = .manifestVersionUnsupported) := by
  induction es with
  | nil => rfl
  | cons e es ih =>
    simp only [List.countP_cons, ih]
    cases e.reason <;> simp <;> omega

/-- Over all replicas there is one event for each row that went from active to
expired, with the reason of the sweep that moved it. -/
theorem expired_exactly_once (s : Setting) (now : Instant) (ls : List Event) (p : State)
    (hr : run (next s) ls (start now) = some p) : ExactlyOnce s ls (start now) p := by
  have hkeyed : Keyed p.world := run_invariant (next s) (fun _ _ => True)
    (fun p : State => Keyed p.world) (fun l a b _ hi hs => keyed_next s l a b hi hs) ls
    (start now) p (guarded_true _ ls _) (keyed_start now) hr
  have hcount : ∀ aid reason, eventsFor aid reason p = movesBy s aid reason ls (start now) := by
    intro aid reason
    have hrule := run_count (next s)
      (fun l p q => moved aid p q && updateOf l p = some reason)
      (fun p : State => Keyed p.world) (eventsFor aid reason)
      (fun l a b hi hs => keyed_next s l a b hi hs)
      (fun l a b hi hs => by
        rcases next_agent s l a b hi hs aid with ⟨hm, hsame⟩ | ⟨hm, r, hu, hadd⟩
        · simp [hm, hsame reason]
        · simp [hm, hu, hadd reason])
      ls (start now) p (keyed_start now) hr
    rw [hrule]
    simp only [eventsFor_start, Nat.zero_add]
    rfl
  have hmoves : ∀ aid, eventsFor aid .manifestExpired p+
      eventsFor aid .manifestVersionUnsupported p = moves s aid ls (start now) := by
    intro aid
    have hrule := run_count (next s) (fun _ => moved aid) (fun p : State => Keyed p.world)
      (fun p => eventsFor aid .manifestExpired p+eventsFor aid .manifestVersionUnsupported p)
      (fun l a b hi hs => keyed_next s l a b hi hs)
      (fun l a b hi hs => by
        rcases next_agent s l a b hi hs aid with ⟨hm, hsame⟩ | ⟨hm, r, hu, hadd⟩
        · simp [hm, hsame]
        · cases r <;> simp [hm, hadd] <;> omega)
      ls (start now) p (keyed_start now) hr
    rw [hrule]
    simp only [eventsFor_start, Nat.zero_add]
    rfl
  constructor
  · exact hcount
  · intro hq aid
    rw [countP_reasons, ← hmoves aid]
    simp only [eventsFor, pending_quiescent p hq, Nat.add_zero]
    rfl
  · intro i io q hq aid hne
    rcases act_agent s i io p q hkeyed hq aid with ⟨hsame, -⟩ | ⟨hactive, hexpired, r, hu, -⟩
    · exact absurd hsame hne
    · exact ⟨hactive, hexpired, by rw [hu]; rfl⟩

def manifestText : Text := js "\x7b\"manifest\":\x7b\"version\":\"aitp/0.3\"\x7d\x7d"

def supportedSetting : Setting where
  cast t :=
    if t = manifestText then
      some (.obj [(js "manifest", .obj [(js "version", .str (js "aitp/0.3"))])])
    else none
  expiredAgentGraceDays := 30

def shortLived : Write where
  jti := js "6f0c4f5e-3a52-4f0b-9d3e-2c1a0b9f8e7d"
  expiresAt := 600000
  input :=
    { aid := js "aid:pubkey:abc"
      displayName := js "a"
      handshakeEndpoint := js "https://a.example/aitp"
      offeredCaps := .arr []
      manifestJson := manifestText
      manifestExpiresAt := some 1000
      org := none
      cloud := none
      agentNamespace := none }
  registeredAt := 0
  lastEnrolledAt := 0

/-- Two replicas sweep, and the agent enrolls again before one of them ends. -/
def twoReplicas : List Event :=
  [.env (.register shortLived), .env (.tick 2000), .env .expire, .env .expire, .act 0 .ok,
    .env (.register shortLived), .act 1 .ok, .act 0 .ok, .act 1 .ok, .act 0 .ok]

theorem expired_two_replicas : ∃ p, run (next supportedSetting) twoReplicas (start 0) = some p ∧
    movesBy supportedSetting (js "aid:pubkey:abc") .manifestExpired twoReplicas (start 0) = 2 ∧
      ExactlyOnce supportedSetting twoReplicas (start 0) p := by
  obtain ⟨p, hp⟩ := Option.isSome_iff_exists.mp
    (show (run (next supportedSetting) twoReplicas (start 0)).isSome = true by decide)
  exact ⟨p, hp, by decide, expired_exactly_once supportedSetting 0 twoReplicas p hp⟩

end ControlPlane.ExpiryEvents
