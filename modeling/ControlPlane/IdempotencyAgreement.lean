import ControlPlane.Idempotency
import ControlPlane.JsValue
import ControlPlane.ThreadPool

/-!
# Agreement of the stored responses

Requests with one idempotency key read, run their handlers, insert and read
again in any order. The row of a key is written once, so every request that
can be answered from it is answered with the same response.
-/

set_option autoImplicit false

namespace ControlPlane.IdempotencyAgreement
open ControlPlane.JsText ControlPlane.JsValue ControlPlane.RequestGate ControlPlane.Idempotency
open ControlPlane.RunMachine ControlPlane.ThreadPool

variable {V : Type*}

mutual

/-- `isDeepStrictEqual` of two JSON values: the order of keys does not count. -/
def deepEqual : Json → Json → Bool
  | .null, .null => true
  | .bool a, .bool b => a = b
  | .num a, .num b => a = b
  | .str a, .str b => a = b
  | .arr items, .arr others => deepEqualItems items others
  | .obj members, .obj others =>
    members.length = others.length && deepEqualMembers members others
  | _, _ => false

def deepEqualItems : List Json → List Json → Bool
  | [], [] => true
  | v::vs, w::ws => deepEqual v w && deepEqualItems vs ws
  | _, _ => false

def deepEqualMembers : List (Text × Json) → List (Text × Json) → Bool
  | [], _ => true
  | (k, v)::ms, others =>
    (match others.lookup k with
      | some w => deepEqual v w
      | none => false) && deepEqualMembers ms others

end

/-- `JSON.parse(JSON.stringify(v))`, which may throw, and what a JSON column
gives back. -/
structure Runtime (V : Type*) where
  stringify : V → Option Json
  jsonb : Json → Json

def KeepsValues (R : Runtime V) : Prop :=
  ∀ v, (v = .null ∨ ∃ body, R.stringify body = some v) → deepEqual (R.jsonb v) v = true

/-- There is no body when it is `undefined` or `null`. -/
structure Result (V : Type*) where
  status : ℕ
  body : Option V

def normalizeBody (R : Runtime V) : Option V → Option Json
  | none => some .null
  | some v => R.stringify v

def nullBodyStatuses : List ℕ := [101, 204, 205, 304]

/-- An unencodable body is sent as `null`. -/
def makeResponse (status : ℕ) (body : Option Json) (replayed : Bool) : Response (Option Json) :=
  ⟨status, if status ∈ nullBodyStatuses then none else some (body.getD .null), replayed⟩

def keyInvalidResponse : Response (Option Json) :=
  makeResponse keyInvalid.status (some (.obj [(js "error", .str keyInvalid.error),
    (js "code", .str keyInvalid.code)])) false

abbrev Row := StoredResponse Json

def fromRow (r : Row) (replayed : Bool) : Response (Option Json) :=
  makeResponse r.responseStatus (some r.responseBody) replayed

def wonByUs (r : Row) (result : Result V) (body : Json) : Bool :=
  r.responseStatus = result.status && deepEqual r.responseBody body

inductive Phase (V : Type*) where
  | received
  | running
  | encoded (result : Result V) (body : Json)
  | persisted (result : Result V) (body : Json)
  | answered (ran : Option (Result V)) (response : Response (Option Json))
  | threw

structure Call where
  scope : Text
  headers : Headers

structure Thread (V : Type*) where
  call : Call
  phase : Phase V

inductive Io (V : Type*) where
  | ok
  | fault
  | finish (result : Option (Result V))

inductive Env where
  | call (c : Call)
  | purge (chosen : Row → Bool)

def begin (c : Call) (rows : List Row) : Phase V :=
  match keyHeader c.headers with
  | .absent => .running
  | .invalid => .answered none keyInvalidResponse
  | .key k =>
    match lookup rows c.scope k with
    | some r => .answered none (fromRow r true)
    | none => .running

def finished (R : Runtime V) (c : Call) (result : Result V) : Phase V :=
  let own := makeResponse result.status (normalizeBody R result.body) false
  match keyHeader c.headers with
  | .key _ =>
    if isCacheable result.status then
      match normalizeBody R result.body with
      | some body => .encoded result body
      | none => .answered (some result) own
    else .answered (some result) own
  | _ => .answered (some result) own

def settled (rows : List Row) (scope key : Text) (result : Result V) (body : Json) :
    Response (Option Json) :=
  match lookup rows scope key with
  | some winner => fromRow winner (!wonByUs winner result body)
  | none => makeResponse result.status (some body) false

/-- One statement of `withIdempotency`, or the end of its handler. -/
def callStep (R : Runtime V) (c : Call) (io : Io V) (rows : List Row) :
    Phase V → Option (List Row × Phase V)
  | .received =>
    match io with
    | .ok => some (rows, begin c rows)
    | .fault => some (rows, .threw)
    | .finish _ => none
  | .running =>
    match io with
    | .finish (some result) => some (rows, finished R c result)
    | .finish none => some (rows, .threw)
    | _ => none
  | .encoded result body =>
    match keyHeader c.headers, io with
    | .key k, .ok =>
      some (persist rows c.scope k result.status (R.jsonb body), .persisted result body)
    | .key _, .fault =>
      some (rows, .answered (some result) (makeResponse result.status (some body) false))
    | _, _ => none
  | .persisted result body =>
    match keyHeader c.headers, io with
    | .key k, .ok => some (rows, .answered (some result) (settled rows c.scope k result body))
    | .key _, .fault => some (rows, .threw)
    | _, _ => none
  | .answered _ _ => none
  | .threw => none

def env : Env → List Row → Option (List Row × Option (Thread V))
  | .call c, rows => some (rows, some ⟨c, .received⟩)
  | .purge chosen, rows => some (rows.filter (fun r => !chosen r), none)

def act (R : Runtime V) (io : Io V) (rows : List Row) (t : Thread V) :
    Option (List Row × Thread V) :=
  (callStep R t.call io rows t.phase).map (fun r => (r.1, { t with phase := r.2 }))

def calls (R : Runtime V) : System (List Row) (Thread V) Env (Io V) := ⟨env, act R⟩

abbrev State (V : Type*) := Pool (List Row) (Thread V)

abbrev Event (V : Type*) := Label Env (Io V)

abbrev next (R : Runtime V) : Event V → State V → Option (State V) := step (calls R)

def start : State V := ⟨[], []⟩

def Quiet (scope key : Text) : Event V → State V → Prop
  | .env (.purge chosen), _ => ∀ r : Row, r.scope = scope → r.key = key → chosen r = false
  | .env (.call _), _ => True
  | .act _ .fault, _ => False
  | .act _ _, _ => True

/-- Statements of these requests may fail, and the sweep leaves the row alone. -/
def Spared (faulty : ℕ → Prop) (scope key : Text) : Event V → State V → Prop
  | .env (.purge chosen), _ => ∀ r : Row, r.scope = scope → r.key = key → chosen r = false
  | .env (.call _), _ => True
  | .act i .fault, _ => faulty i
  | .act _ _, _ => True

theorem spared_of_quiet (faulty : ℕ → Prop) (scope key : Text) (l : Event V) (p : State V)
    (h : Quiet scope key l p) : Spared faulty scope key l p := by
  cases l with
  | env e => cases e <;> exact h
  | act i io =>
    cases io with
    | fault => exact h.elim
    | ok | finish _ => trivial

def Keyed (scope key : Text) (c : Call) : Prop :=
  c.scope = scope ∧ keyHeader c.headers = .key key

def Storable (R : Runtime V) (result : Result V) (body : Json) : Prop :=
  isCacheable result.status = true ∧ normalizeBody R result.body = some body

def PastInsert (t : Thread V) (result : Result V) (body : Json) : Prop :=
  t.phase = .persisted result body ∨ ∃ response, t.phase = .answered (some result) response

section Steps
variable (R : Runtime V) (scope key : Text)

theorem callStep_rows (c : Call) (io : Io V) (rows rows' : List Row) (ph ph' : Phase V)
    (h : callStep R c io rows ph = some (rows', ph')) :
    rows' = rows ∨ ∃ result body k, ph = .encoded result body ∧
      keyHeader c.headers = .key k ∧
        rows' = persist rows c.scope k result.status (R.jsonb body) ∧
          ph' = .persisted result body := by
  unfold callStep at h
  split at h
  · split at h
    · cases h; exact Or.inl rfl
    · cases h; exact Or.inl rfl
    · cases h
  · split at h
    · cases h; exact Or.inl rfl
    · cases h; exact Or.inl rfl
    · cases h
  · next result body =>
    split at h
    · next k hk =>
      cases h
      exact Or.inr ⟨result, body, k, rfl, hk, rfl, rfl⟩
    · cases h; exact Or.inl rfl
    · cases h
  · split at h
    · cases h; exact Or.inl rfl
    · cases h; exact Or.inl rfl
    · cases h
  · cases h
  · cases h

theorem lookup_persist_some (rows : List Row) (scope' key' : Text) (status : ℕ) (body : Json)
    (r : Row) (h : lookup rows scope key = some r) :
    lookup (persist rows scope' key' status body) scope key = some r := by
  by_cases hk : scope' = scope ∧ key' = key
  · obtain ⟨rfl, rfl⟩ := hk
    rw [lookup_persist_self, h, Option.getD_some]
  · rw [lookup_persist_other rows scope' key' scope key status body hk, h]

theorem lookup_purge (rows : List Row) (chosen : Row → Bool)
    (h : ∀ r : Row, r.scope = scope → r.key = key → chosen r = false) :
    lookup (rows.filter (fun r => !chosen r)) scope key = lookup rows scope key := by
  simp only [lookup, List.find?_filter]
  congr 1
  funext r
  by_cases hr : r.scope = scope ∧ r.key = key
  · simp [hr, h r hr.1 hr.2]
  · simp only [Bool.and_eq_true, decide_eq_true_eq, not_and] at hr ⊢
    grind

theorem lookup_next (faulty : ℕ → Prop) (l : Event V) (p q : State V)
    (hq : Spared faulty scope key l p)
    (h : next R l p = some q) (r : Row) (hr : lookup p.world scope key = some r) :
    lookup q.world scope key = some r := by
  cases l with
  | env e =>
    obtain ⟨w, t, he, rfl⟩ := (step_env_some (calls R) e p q).mp h
    cases e with
    | call c => cases he; exact hr
    | purge chosen =>
      cases he
      exact (lookup_purge scope key p.world chosen hq).trans hr
  | act i io =>
    obtain ⟨t, w, u, -, ha, rfl⟩ := (step_act_some (calls R) i io p q).mp h
    obtain ⟨⟨w', ph⟩, hstep, hw⟩ := Option.map_eq_some_iff.mp ha
    obtain ⟨rfl, rfl⟩ := Prod.mk.inj hw
    rcases callStep_rows R t.call io p.world _ t.phase ph hstep with hw | ⟨o, b, k, -, -, hw, -⟩
    · exact (congrArg (lookup · scope key) hw).trans hr
    · rw [hw]
      exact lookup_persist_some scope key p.world _ _ _ _ r hr

def ThreadOk (rows : List Row) (t : Thread V) : Prop :=
  Keyed scope key t.call →
    match t.phase with
    | .encoded result body => Storable R result body
    | .persisted result body =>
      Storable R result body ∧ ∃ r, lookup rows scope key = some r
    | .answered none response =>
      ∃ r, lookup rows scope key = some r ∧ response = fromRow r true
    | .answered (some result) response =>
      (∀ body, Storable R result body →
        ∃ r, lookup rows scope key = some r ∧ response = fromRow r (!wonByUs r result body)) ∧
      ((∀ body, ¬ Storable R result body) →
        response = makeResponse result.status (normalizeBody R result.body) false)
    | _ => True

theorem threadOk_mono (rows rows' : List Row) (t : Thread V)
    (hrows : ∀ r, lookup rows scope key = some r → lookup rows' scope key = some r)
    (h : ThreadOk R scope key rows t) : ThreadOk R scope key rows' t := by
  intro hk
  have hp := h hk
  cases hph : t.phase with
  | received => trivial
  | running => trivial
  | threw => trivial
  | encoded result body =>
    rw [hph] at hp
    exact hp
  | persisted result body =>
    rw [hph] at hp
    obtain ⟨hs, r, hr⟩ := hp
    exact ⟨hs, r, hrows r hr⟩
  | answered ran response =>
    rw [hph] at hp
    cases ran with
    | none =>
      obtain ⟨r, hr, hresp⟩ := hp
      exact ⟨r, hrows r hr, hresp⟩
    | some result =>
      constructor
      · intro body hs
        obtain ⟨r, hr, hresp⟩ := hp.1 body hs
        exact ⟨r, hrows r hr, hresp⟩
      · exact hp.2

theorem callStep_ok (c : Call) (io : Io V) (rows rows' : List Row) (ph ph' : Phase V)
    (hio : io ≠ .fault) (hok : ThreadOk R scope key rows ⟨c, ph⟩)
    (h : callStep R c io rows ph = some (rows', ph')) :
    ThreadOk R scope key rows' ⟨c, ph'⟩ := by
  intro hkeyed
  have hp := hok hkeyed
  obtain ⟨rfl, hkey⟩ := hkeyed
  cases ph with
  | received =>
    cases io with
    | ok =>
      cases h
      simp only [begin, hkey]
      cases hl : lookup rows c.scope key with
      | none => trivial
      | some r => exact ⟨r, rfl, rfl⟩
    | fault => exact absurd rfl hio
    | finish result => cases h
  | running =>
    cases io with
    | ok => cases h
    | fault => cases h
    | finish result =>
      cases result with
      | none => cases h; trivial
      | some result =>
        cases h
        simp only [finished, hkey]
        by_cases hc : isCacheable result.status = true
        · rw [if_pos hc]
          cases hn : normalizeBody R result.body with
          | some body => exact ⟨hc, hn⟩
          | none =>
            constructor
            · intro body hs
              exact absurd (hn.symm.trans hs.2) (by simp)
            · exact fun _ => by rw [hn]
        · rw [if_neg hc]
          exact ⟨fun body hs => absurd hs.1 hc, fun _ => rfl⟩
  | encoded result body =>
    simp only [callStep, hkey] at h
    cases io with
    | ok =>
      cases h
      exact ⟨hp, _, lookup_persist_self rows c.scope key result.status (R.jsonb body)⟩
    | fault => exact absurd rfl hio
    | finish _ => cases h
  | persisted result body =>
    simp only [callStep, hkey] at h
    cases io with
    | ok =>
      cases h
      obtain ⟨hs, r, hr⟩ := hp
      constructor
      · intro body' hs'
        obtain rfl : body = body' := Option.some.inj (hs.2.symm.trans hs'.2)
        apply Exists.intro r
        simp [settled, hr]
      · exact fun hnone => absurd hs (hnone body)
    | fault => exact absurd rfl hio
    | finish _ => cases h
  | answered ran response => cases h
  | threw => cases h

theorem act_some (i : ℕ) (io : Io V) (p q : State V) (h : next R (.act i io) p = some q) :
    ∃ c ph rows ph', p.threads[i]? = some ⟨c, ph⟩ ∧ callStep R c io p.world ph = some (rows, ph') ∧
      q = ⟨rows, p.threads.set i ⟨c, ph'⟩⟩ := by
  obtain ⟨⟨c, ph⟩, w, u, ht, ha, rfl⟩ := (step_act_some (calls R) i io p q).mp h
  obtain ⟨⟨rows, ph'⟩, hstep, hw⟩ := Option.map_eq_some_iff.mp ha
  obtain ⟨rfl, rfl⟩ := Prod.mk.inj hw
  exact ⟨c, ph, rows, ph', ht, hstep, rfl⟩

theorem threadOk_next (l : Event V) (p q : State V) (hq : Quiet scope key l p)
    (h : next R l p = some q)
    (hok : ∀ (i : ℕ) (t : Thread V), p.threads[i]? = some t → ThreadOk R scope key p.world t) :
    ∀ (i : ℕ) (t : Thread V), q.threads[i]? = some t → ThreadOk R scope key q.world t := by
  have hspared := spared_of_quiet (fun _ => False) scope key l p hq
  have hmono := lookup_next R scope key _ l p q hspared h
  cases l with
  | env e =>
    obtain ⟨w, o, he, rfl⟩ := (step_env_some (calls R) e p q).mp h
    intro i t ht
    rcases append_get p.threads o i t ht with ht | ⟨-, rfl⟩
    · exact threadOk_mono R scope key p.world w t hmono (hok i t ht)
    · cases e with
      | call c => cases he; exact fun _ => trivial
      | purge chosen => cases he
  | act j io =>
    obtain ⟨c, ph, rows, ph', hj, hstep, rfl⟩ := act_some R j io p q h
    intro i t ht
    rcases set_get p.threads j i _ t ht with ⟨-, rfl⟩ | ⟨-, ht⟩
    · have hio : io ≠ .fault := by
        rintro rfl
        exact hq
      exact callStep_ok R scope key c io p.world rows ph ph' hio (hok j _ hj) hstep
    · exact threadOk_mono R scope key p.world rows t hmono (hok i t ht)

theorem pastInsert_next (l : Event V) (p q : State V) (h : next R l p = some q) (i : ℕ)
    (t : Thread V) (result : Result V) (body : Json) (hq : Quiet scope key l p)
    (ht : p.threads[i]? = some t) (hpast : PastInsert t result body) :
    ∃ t', q.threads[i]? = some t' ∧ t'.call = t.call ∧ PastInsert t' result body := by
  cases l with
  | env e =>
    obtain ⟨w, o, -, rfl⟩ := (step_env_some (calls R) e p q).mp h
    obtain ⟨hi, -⟩ := List.getElem?_eq_some_iff.mp ht
    exact ⟨t, by rw [List.getElem?_append_left hi, ht], rfl, hpast⟩
  | act j io =>
    obtain ⟨c, ph, rows, ph', hj, hstep, rfl⟩ := act_some R j io p q h
    by_cases hij : i = j
    · subst hij
      obtain rfl : t = ⟨c, ph⟩ := Option.some.inj (ht.symm.trans hj)
      apply Exists.intro (⟨c, ph'⟩ : Thread V)
      apply And.intro (set_self p.threads i _ _ ht)
      apply And.intro rfl
      rcases hpast with hph | ⟨response, hph⟩
      · obtain rfl : ph = .persisted result body := hph
        simp only [callStep] at hstep
        split at hstep
        · cases hstep
          exact Or.inr ⟨_, rfl⟩
        · exact hq.elim
        · cases hstep
      · obtain rfl : ph = .answered (some result) response := hph
        cases hstep
    · exact ⟨t, by rw [set_other p.threads j i _ hij, ht], rfl, hpast⟩

def StoredBy (p : State V) (r : Row) : Prop :=
  ∃ (i : ℕ) (t : Thread V) (result : Result V) (body : Json), p.threads[i]? = some t ∧
    Keyed scope key t.call ∧ PastInsert t result body ∧ Storable R result body ∧
      r = ⟨scope, key, result.status, R.jsonb body⟩

theorem storedBy_next (l : Event V) (p q : State V) (hq : Quiet scope key l p)
    (h : next R l p = some q)
    (hok : ∀ (i : ℕ) (t : Thread V), p.threads[i]? = some t → ThreadOk R scope key p.world t)
    (hstored : ∀ r, lookup p.world scope key = some r → StoredBy R scope key p r) :
    ∀ r, lookup q.world scope key = some r → StoredBy R scope key q r := by
  have hspared := spared_of_quiet (fun _ => False) scope key l p hq
  intro r hr
  cases hp : lookup p.world scope key with
  | some r' =>
    obtain rfl : r' = r :=
      Option.some.inj ((lookup_next R scope key _ l p q hspared h r' hp).symm.trans hr)
    obtain ⟨i, t, result, body, ht, hk, hpast, hs, hrow⟩ := hstored r' hp
    obtain ⟨t', ht', hcall, hpast'⟩ :=
      pastInsert_next R scope key l p q h i t result body hq ht hpast
    exact ⟨i, t', result, body, ht', hcall ▸ hk, hpast', hs, hrow⟩
  | none =>
    cases l with
    | env e =>
      obtain ⟨w, o, he, rfl⟩ := (step_env_some (calls R) e p q).mp h
      cases e with
      | call c =>
        cases he
        exact absurd (hp.symm.trans hr) (by simp)
      | purge chosen =>
        cases he
        have hsame := lookup_purge scope key p.world chosen hq
        exact absurd (hp.symm.trans (hsame.symm.trans hr)) (by simp)
    | act i io =>
      obtain ⟨c, ph, rows, ph', hi, hstep, rfl⟩ := act_some R i io p q h
      rcases callStep_rows R c io p.world rows ph ph' hstep with
        rfl | ⟨result, body, k, rfl, hkey, rfl, rfl⟩
      · exact absurd (hp.symm.trans hr) (by simp)
      · by_cases hk : c.scope = scope ∧ k = key
        · obtain ⟨rfl, rfl⟩ := hk
          rw [lookup_persist_self, hp, Option.getD_none] at hr
          apply Exists.intro i
          apply Exists.intro (⟨c, .persisted result body⟩ : Thread V)
          exact ⟨result, body, set_self p.threads i _ _ hi, ⟨rfl, hkey⟩, Or.inl rfl,
            hok i _ hi ⟨rfl, hkey⟩, (Option.some.inj hr).symm⟩
        · rw [lookup_persist_other p.world c.scope k scope key _ _ hk, hp] at hr
          cases hr

def keyRows (rows : List Row) : List Row := rows.filter (fun r => r.scope = scope && r.key = key)

theorem keyRows_persist (rows : List Row) (scope' key' : Text) (status : ℕ) (body : Json)
    (h : (keyRows scope key rows).length ≤ 1) :
    (keyRows scope key (persist rows scope' key' status body)).length ≤ 1 := by
  unfold persist
  split_ifs with hsome
  · exact h
  · by_cases hk : scope' = scope ∧ key' = key
    · obtain ⟨rfl, rfl⟩ := hk
      have hnone : keyRows scope' key' rows = [] := by
        rw [keyRows, List.filter_eq_nil_iff]
        rw [Option.not_isSome_iff_eq_none, lookup, List.find?_eq_none] at hsome
        exact hsome
      rw [keyRows, List.filter_append, ← keyRows, hnone]
      simp
    · have hrest : keyRows scope key [⟨scope', key', status, body⟩] = [] := by
        simpa [keyRows] using hk
      rw [keyRows, List.filter_append, ← keyRows, ← keyRows, hrest, List.append_nil]
      exact h

theorem keyRows_next (l : Event V) (p q : State V) (h : next R l p = some q)
    (hone : (keyRows scope key p.world).length ≤ 1) :
    (keyRows scope key q.world).length ≤ 1 := by
  cases l with
  | env e =>
    obtain ⟨w, o, he, rfl⟩ := (step_env_some (calls R) e p q).mp h
    cases e with
    | call c =>
      cases he
      exact hone
    | purge chosen =>
      cases he
      exact (List.Sublist.filter _ List.filter_sublist).length_le.trans hone
  | act i io =>
    obtain ⟨c, ph, rows, ph', -, hstep, rfl⟩ := act_some R i io p q h
    rcases callStep_rows R c io p.world rows ph ph' hstep with
      rfl | ⟨result, body, k, rfl, -, rfl, rfl⟩
    · exact hone
    · exact keyRows_persist scope key p.world _ _ _ _ hone

/-- The request at `i` has not read yet, was answered from the row, or its own
read failed. -/
def Late (faulty : ℕ → Prop) (r : Row) (i : ℕ) (p : State V) : Prop :=
  lookup p.world scope key = some r ∧ ∀ t, p.threads[i]? = some t → Keyed scope key t.call →
    t.phase = .received ∨ t.phase = .answered none (fromRow r true) ∨ t.phase = .threw ∧ faulty i

theorem late_next (faulty : ℕ → Prop) (r : Row) (i : ℕ) (l : Event V) (p q : State V)
    (hq : Spared faulty scope key l p) (hlate : Late scope key faulty r i p)
    (h : next R l p = some q) : Late scope key faulty r i q := by
  obtain ⟨hr, hphase⟩ := hlate
  apply And.intro (lookup_next R scope key faulty l p q hq h r hr)
  cases l with
  | env e =>
    obtain ⟨w, o, he, rfl⟩ := (step_env_some (calls R) e p q).mp h
    intro t ht
    rcases append_get p.threads o i t ht with ht | ⟨-, rfl⟩
    · exact hphase t ht
    · cases e with
      | call c => cases he; exact fun _ => Or.inl rfl
      | purge chosen => cases he
  | act j io =>
    obtain ⟨c, ph, rows, ph', hj, hstep, rfl⟩ := act_some R j io p q h
    intro t ht hkeyed
    rcases set_get p.threads j i _ t ht with ⟨rfl, rfl⟩ | ⟨-, ht⟩
    · rcases hphase ⟨c, ph⟩ hj hkeyed with rfl | rfl | ⟨rfl, _⟩
      · cases io with
        | ok =>
          cases hstep
          obtain ⟨rfl, hkey⟩ := hkeyed
          right
          left
          simp only [begin, hkey, hr]
        | fault =>
          cases hstep
          exact Or.inr (Or.inr ⟨rfl, hq⟩)
        | finish result => cases hstep
      · cases hstep
      · cases hstep
    · exact hphase t ht hkeyed

theorem late_run (faulty : ℕ → Prop) (ok : Event V → State V → Prop)
    (hok : ∀ l p, ok l p → Spared faulty scope key l p) (r : Row) (ls : List (Event V))
    (p q : State V) (hg : Guarded (next R) ok ls p) (hq : run (next R) ls p = some q)
    (hr : lookup p.world scope key = some r) (i : ℕ)
    (hi : ∀ t, p.threads[i]? = some t → t.phase = .received) : Late scope key faulty r i q :=
  run_invariant (next R) ok (Late scope key faulty r i)
    (fun l s t hl hs hst => late_next R scope key faulty r i l s t (hok l s hl) hs hst) ls p q hg
    ⟨hr, fun t ht _ => Or.inl (hi t ht)⟩ hq

end Steps

structure Agreement (R : Runtime V) (scope key : Text) (p : State V) : Prop where
  single : (keyRows scope key p.world).length ≤ 1
  stored : ∀ r, lookup p.world scope key = some r →
    ∃ (i : ℕ) (t : Thread V) (result : Result V) (body : Json), p.threads[i]? = some t ∧
      Keyed scope key t.call ∧ PastInsert t result body ∧ Storable R result body ∧
        r = ⟨scope, key, result.status, R.jsonb body⟩ ∧ wonByUs r result body = true
  hit : ∀ (i : ℕ) (t : Thread V) (response : Response (Option Json)),
    p.threads[i]? = some t → Keyed scope key t.call → t.phase = .answered none response →
      ∃ r, lookup p.world scope key = some r ∧ response = fromRow r true
  stable : ∀ (i : ℕ) (t : Thread V) (result : Result V) (body : Json)
    (response : Response (Option Json)), p.threads[i]? = some t → Keyed scope key t.call →
      t.phase = .answered (some result) response → Storable R result body →
        ∃ r, lookup p.world scope key = some r ∧
          response = fromRow r (!wonByUs r result body)
  unstable : ∀ (i : ℕ) (t : Thread V) (result : Result V)
    (response : Response (Option Json)), p.threads[i]? = some t → Keyed scope key t.call →
      t.phase = .answered (some result) response → (∀ body, ¬ Storable R result body) →
        response = makeResponse result.status (normalizeBody R result.body) false

def NotStarted (p : State V) (i : ℕ) : Prop :=
  ∀ t, p.threads[i]? = some t → t.phase = .received

/-- From here on the row stays, and who comes later is answered from it
without running its handler. -/
def Settles (R : Runtime V) (scope key : Text) (p : State V) (r : Row) : Prop :=
  ∀ (ls : List (Event V)) (q : State V), Guarded (next R) (Quiet scope key) ls p →
    run (next R) ls p = some q → lookup q.world scope key = some r ∧
      ∀ i, NotStarted p i → ∀ t, q.threads[i]? = some t → Keyed scope key t.call →
        t.phase = .received ∨ t.phase = .answered none (fromRow r true)

theorem wonByUs_own (R : Runtime V) (hR : KeepsValues R) (scope key : Text) (result : Result V)
    (body : Json) (h : Storable R result body) :
    wonByUs ⟨scope, key, result.status, R.jsonb body⟩ result body = true := by
  have hkeep : deepEqual (R.jsonb body) body = true := by
    apply hR
    obtain ⟨-, hbody⟩ := h
    unfold normalizeBody at hbody
    split at hbody
    · exact Or.inl (Option.some.inj hbody).symm
    · next v _ => exact Or.inr ⟨v, hbody⟩
  simp [wonByUs, hkeep]

theorem run_agreement (R : Runtime V) (scope key : Text) (ls : List (Event V)) (p : State V)
    (hg : Guarded (next R) (Quiet scope key) ls start) (hr : run (next R) ls start = some p) :
    (keyRows scope key p.world).length ≤ 1 ∧
      (∀ (i : ℕ) (t : Thread V), p.threads[i]? = some t → ThreadOk R scope key p.world t) ∧
        ∀ r, lookup p.world scope key = some r → StoredBy R scope key p r := by
  apply run_invariant (next R) (Quiet scope key) (fun p : State V =>
    (keyRows scope key p.world).length ≤ 1 ∧
      (∀ (i : ℕ) (t : Thread V), p.threads[i]? = some t → ThreadOk R scope key p.world t) ∧
        ∀ r, lookup p.world scope key = some r → StoredBy R scope key p r) _ ls start p hg _ hr
  · intro l s t hl hi hs
    constructor
    · exact keyRows_next R scope key l s t hs hi.1
    · constructor
      · exact threadOk_next R scope key l s t hl hs hi.2.1
      · exact storedBy_next R scope key l s t hl hs hi.2.1 hi.2.2
  · simp [start, keyRows, lookup]

theorem settles (R : Runtime V) (scope key : Text) (p : State V) (r : Row)
    (h : lookup p.world scope key = some r) : Settles R scope key p r := by
  intro ls q hg hq
  have hrule := late_run R scope key (fun _ => False) (Quiet scope key)
    (spared_of_quiet (fun _ => False) scope key) r ls p q hg hq h
  constructor
  · apply (hrule p.threads.length ?_).1
    intro t ht
    rw [List.getElem?_eq_none le_rfl] at ht
    cases ht
  · intro i hi t ht hkeyed
    exact ((hrule i hi).2 t ht hkeyed).imp_right (fun h => h.resolve_right And.right)

/-- The requests with one key agree on the first response that is stored. -/
theorem idempotency_agreement (R : Runtime V) (hR : KeepsValues R) (scope key : Text)
    (ls : List (Event V)) (p : State V) (hg : Guarded (next R) (Quiet scope key) ls start)
    (hr : run (next R) ls start = some p) :
    Agreement R scope key p ∧
      ∀ r, lookup p.world scope key = some r → Settles R scope key p r := by
  obtain ⟨hsingle, hthreads, hstored⟩ := run_agreement R scope key ls p hg hr
  constructor
  · constructor
    · exact hsingle
    · intro r hrow
      obtain ⟨i, t, result, body, ht, hk, hpast, hs, hr⟩ := hstored r hrow
      exact ⟨i, t, result, body, ht, hk, hpast, hs, hr,
        hr ▸ wonByUs_own R hR scope key result body hs⟩
    · intro i t response ht hk hph
      have h := hthreads i t ht hk
      rw [hph] at h
      exact h
    · intro i t result body response ht hk hph hs
      have h := hthreads i t ht hk
      rw [hph] at h
      exact h.1 body hs
    · intro i t result response ht hk hph hs
      have h := hthreads i t ht hk
      rw [hph] at h
      exact h.2 hs
  · exact fun r hrow => settles R scope key p r hrow

/-- A body that is an object, or one that JSON cannot write. A JSON column
sorts the shorter key first. -/
def bodies : Runtime Bool where
  stringify encodable :=
    if encodable then some (.obj [(js "error", .str (js "taken")), (js "code", .null)]) else none
  jsonb
    | .obj [m, n] => .obj [n, m]
    | v => v

theorem bodies_keep : KeepsValues bodies := by
  rintro v (rfl | ⟨encodable, hv⟩)
  · rfl
  · cases encodable with
    | true =>
      cases hv
      decide
    | false => cases hv

def keyedCall : Call :=
  ⟨js "webhooks.create", [⟨js "idempotency-key", js "k1", by decide⟩]⟩

def bothRead : List (Event Bool) :=
  [.env (.call keyedCall), .env (.call keyedCall), .act 0 .ok, .act 1 .ok]

def race : List (Event Bool) :=
  bothRead++([.act 0 (.finish (some ⟨201, some true⟩)), .act 1 (.finish (some ⟨409, some true⟩)),
    .act 1 .ok, .act 0 .ok, .act 0 .ok, .act 1 .ok] : List (Event Bool))

theorem race_agrees : ∃ p, run (next bodies) race start = some p ∧
    Agreement bodies (js "webhooks.create") (js "k1") p := by
  have hg : Guarded (next bodies) (Quiet (js "webhooks.create") (js "k1")) race start := by
    apply guarded_always
    simp [race, bothRead, Quiet]
  obtain ⟨p, hp⟩ := Option.isSome_iff_exists.mp (show (run (next bodies) race start).isSome = true
    by decide)
  exact ⟨p, hp, (idempotency_agreement bodies bodies_keep _ _ race p hg hp).1⟩

/-- A request that ran its handler is marked exactly if its status is
cacheable and the stored response is another one. -/
def MarkedWhenDifferent (R : Runtime V) (scope key : Text) (p : State V) : Prop :=
  ∀ (i : ℕ) (t : Thread V) (result : Result V) (response : Response (Option Json)) (r : Row),
    p.threads[i]? = some t → Keyed scope key t.call →
      t.phase = .answered (some result) response → lookup p.world scope key = some r →
        (response.replayed = true ↔ isCacheable result.status = true ∧
          ∀ body, normalizeBody R result.body = some body → wonByUs r result body = false)

def GetsStoredBody (R : Runtime V) (scope key : Text) (p : State V) : Prop :=
  ∀ (i : ℕ) (t : Thread V) (result : Result V) (body : Json)
    (response : Response (Option Json)) (r : Row), p.threads[i]? = some t →
      Keyed scope key t.call → t.phase = .answered (some result) response →
        Storable R result body → lookup p.world scope key = some r →
          response.body = some r.responseBody

def loser : List (Event Bool) :=
  bothRead++[.act 0 (.finish (some ⟨204, some true⟩)), .act 0 .ok, .act 0 .ok,
    .act 1 (.finish (some ⟨400, some false⟩))]

theorem loser_unmarked : ∃ p, Guarded (next bodies) (Quiet (js "webhooks.create") (js "k1")) loser
    start ∧ run (next bodies) loser start = some p ∧
      ¬ MarkedWhenDifferent bodies (js "webhooks.create") (js "k1") p ∧
        ¬ GetsStoredBody bodies (js "webhooks.create") (js "k1") p := by
  have hg : Guarded (next bodies) (Quiet (js "webhooks.create") (js "k1")) loser start := by
    apply guarded_always
    simp [loser, bothRead, Quiet]
  have hkey : Keyed (js "webhooks.create") (js "k1") keyedCall := ⟨rfl, by decide⟩
  let row : Row := ⟨js "webhooks.create", js "k1", 204,
    .obj [(js "code", .null), (js "error", .str (js "taken"))]⟩
  have hrow : lookup [row] (js "webhooks.create") (js "k1") = some row := rfl
  let first : Thread Bool := ⟨keyedCall, .answered (some ⟨204, some true⟩) (fromRow row false)⟩
  let second : Thread Bool :=
    ⟨keyedCall, .answered (some ⟨400, some false⟩) (makeResponse 400 none false)⟩
  apply Exists.intro (⟨[row], [first, second]⟩ : State Bool)
  apply And.intro hg
  constructor
  · rfl
  · constructor
    · intro h
      have hmarked := (h 1 second ⟨400, some false⟩ _ row rfl hkey rfl hrow).mpr
      exact absurd (hmarked ⟨by decide, fun body hb => by cases hb⟩) (by decide)
    · intro h
      have hbody := h 0 first ⟨204, some true⟩ _ _ row rfl hkey rfl ⟨by decide, rfl⟩ hrow
      cases hbody

end ControlPlane.IdempotencyAgreement
