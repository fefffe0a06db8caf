import ControlPlane.RequestGate

/-!
# Stored responses

A request that carries an idempotency key is answered with the response stored
for it, if there is one. Otherwise its handler runs, and a stable response is
stored unless another request has stored one in the meantime; the stored one
is what both are answered with.
-/

set_option autoImplicit false

namespace ControlPlane.Idempotency
open ControlPlane.JsText ControlPlane.HttpValidate ControlPlane.RequestGate

variable {β : Type*}

structure StoredResponse (β : Type*) where
  scope : Text
  key : Text
  responseStatus : ℕ
  responseBody : β

structure Response (β : Type*) where
  status : ℕ
  body : β
  replayed : Bool

def maxKeyLength : ℕ := 255

def cacheableStatuses : List ℕ := [200, 201, 202, 204, 400, 409, 422]

def isCacheable (status : ℕ) : Bool := status ∈ cacheableStatuses

/-- Control characters are looked for before the blanks are cut off. -/
def normalizeKey (raw : Text) : Option Text :=
  if raw.any (· ≤ 0x1F) then none
  else
    let trimmed := trim raw
    if trimmed = [] || maxKeyLength < trimmed.length then none else some trimmed

inductive KeyHeader where
  | absent
  | invalid
  | key (k : Text)
  deriving DecidableEq, Repr

def keyHeader (h : Headers) : KeyHeader :=
  match get h (js "idempotency-key") with
  | none => .absent
  | some raw =>
    match normalizeKey raw with
    | none => .invalid
    | some k => .key k

def keyInvalid : Problem :=
  ⟨400, js "invalid Idempotency-Key header (empty, too long, or contains control characters)",
    js "IDEMPOTENCY_KEY_INVALID"⟩

def lookup (rows : List (StoredResponse β)) (scope key : Text) : Option (StoredResponse β) :=
  rows.find? (fun r => r.scope = scope && r.key = key)

/-- `INSERT … ON CONFLICT DO NOTHING` -/
def persist (rows : List (StoredResponse β)) (scope key : Text) (status : ℕ) (body : β) :
    List (StoredResponse β) :=
  if (lookup rows scope key).isSome then rows else rows++[⟨scope, key, status, body⟩]

/-- The response stored for the key, marked unless it is the own one. -/
def settle [DecidableEq β] (rows : List (StoredResponse β)) (scope key : Text) (status : ℕ)
    (body : β) : Response β :=
  match lookup rows scope key with
  | some r =>
    ⟨r.responseStatus, r.responseBody, !(r.responseStatus = status && r.responseBody = body)⟩
  | none => ⟨status, body, false⟩

theorem lookup_mem (rows : List (StoredResponse β)) (scope key : Text) (r : StoredResponse β)
    (h : lookup rows scope key = some r) : r ∈ rows ∧ r.scope = scope ∧ r.key = key := by
  have hp := List.find?_some h
  simp only [Bool.and_eq_true, decide_eq_true_eq] at hp
  exact ⟨List.mem_of_find?_eq_some h, hp.1, hp.2⟩

theorem lookup_persist_self (rows : List (StoredResponse β)) (scope key : Text) (status : ℕ)
    (body : β) : lookup (persist rows scope key status body) scope key =
      some ((lookup rows scope key).getD ⟨scope, key, status, body⟩) := by
  unfold persist
  cases h : lookup rows scope key with
  | some r => simp [h]
  | none =>
    simp only [lookup] at h
    simp [lookup, List.find?_append, h]

theorem lookup_persist_other (rows : List (StoredResponse β)) (scope key scope' key' : Text)
    (status : ℕ) (body : β) (hne : ¬ (scope = scope' ∧ key = key')) :
    lookup (persist rows scope key status body) scope' key' = lookup rows scope' key' := by
  unfold persist
  split_ifs
  · rfl
  · simp only [lookup, List.find?_append]
    have : (decide (scope = scope') && decide (key = key')) = false := by
      simpa using fun h h' => hne ⟨h, h'⟩
    simp [this]

theorem mem_persist (rows : List (StoredResponse β)) (scope key : Text) (status : ℕ) (body : β)
    (r : StoredResponse β) (h : r ∈ persist rows scope key status body) :
    r ∈ rows ∨ r = ⟨scope, key, status, body⟩ := by
  unfold persist at h
  split_ifs at h
  · exact Or.inl h
  · simpa using h

theorem settle_body [DecidableEq β] (rows : List (StoredResponse β)) (scope key : Text)
    (status : ℕ) (body : β) : (settle rows scope key status body).body = body ∨
      ∃ r ∈ rows, r.scope = scope ∧ r.key = key ∧
        (settle rows scope key status body).body = r.responseBody := by
  unfold settle
  cases h : lookup rows scope key with
  | none => exact Or.inl rfl
  | some r =>
    obtain ⟨hm, hs, hk⟩ := lookup_mem rows scope key r h
    exact Or.inr ⟨r, hm, hs, hk, rfl⟩

theorem settle_unmarked [DecidableEq β] (rows : List (StoredResponse β)) (scope key : Text)
    (status : ℕ) (body : β) (h : (settle rows scope key status body).replayed = false) :
    (settle rows scope key status body).body = body := by
  unfold settle at h ⊢
  split at h
  · simp only [Bool.not_eq_false', Bool.and_eq_true, decide_eq_true_eq] at h
    exact h.2
  · rfl

theorem settle_marked [DecidableEq β] (rows : List (StoredResponse β)) (scope key : Text)
    (status : ℕ) (body : β) (h : (settle rows scope key status body).replayed = true) :
    ∃ r, lookup rows scope key = some r ∧
      (settle rows scope key status body).body = r.responseBody := by
  unfold settle at h ⊢
  cases hr : lookup rows scope key with
  | some r => exact ⟨r, rfl, rfl⟩
  | none =>
    rw [hr] at h
    cases h

theorem settle_own [DecidableEq β] (rows : List (StoredResponse β)) (scope key : Text)
    (status : ℕ) (body : β) (h : lookup rows scope key = none) :
    settle (persist rows scope key status body) scope key status body = ⟨status, body, false⟩ := by
  simp [settle, lookup_persist_self, h]

end ControlPlane.Idempotency
