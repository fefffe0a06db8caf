import ControlPlane.EventNormalize
import ControlPlane.StackWalk

/-!
# The walk over a payload

`jsonValueProblem` walks a value with an explicit stack, stops at the first
container below the cap and otherwise looks at every key and string. The
recursive problem of `EventNormalize` is what that walk reports.
-/

set_option autoImplicit false

namespace ControlPlane.PayloadWalk
open ControlPlane.JsText ControlPlane.JsValue ControlPlane.HttpValidate
open ControlPlane.EventNormalize ControlPlane.StackWalk

/-- `hasNul` and `hasLoneSurrogate` -/
structure Found where
  nul : Bool
  loneSurrogate : Bool

def check (f : Found) (text : Text) : Found :=
  ⟨f.nul || hasNul text, f.loneSurrogate || !isWellFormed text⟩

/-- A value on the stack, and its depth. -/
abbrev Pending := Json × ℕ

/-- The last value pushed is the first that is popped. -/
def pushAll (values : List Json) (depth : ℕ) : List Pending :=
  (values.map (fun v => (v, depth))).reverse

def visit (f : Found) : Pending → Except Unit (Found × List Pending)
  | (.str s, _) => .ok (check f s, [])
  | (.arr items, depth) =>
    if maxPayloadDepth < depth then .error () else .ok (f, pushAll items (depth+1))
  | (.obj members, depth) =>
    if maxPayloadDepth < depth then .error ()
    else .ok ((members.map Prod.fst).foldl check f, pushAll (members.map Prod.snd) (depth+1))
  | _ => .ok (f, [])

mutual

def nodes : Json → ℕ
  | .arr items => nodesOfItems items+1
  | .obj members => nodesOfMembers members+1
  | _ => 1

def nodesOfItems : List Json → ℕ
  | [] => 0
  | v::vs => nodes v+nodesOfItems vs

def nodesOfMembers : List (Text × Json) → ℕ
  | [] => 0
  | (_, v)::ms => nodes v+nodesOfMembers ms

end

/-- `jsonValueProblem`; nothing at all would be a walk that does not end. -/
def jsonValueWalk (root : Json) (field : Text) : Option (Option ItemProblem) :=
  (walk visit (nodes root) ⟨false, false⟩ [(root, 1)]).map (fun
    | .error _ => some ⟨field, field++js " is nested too deep (more than "++
        number maxPayloadDepth++js " levels)", true⟩
    | .ok f =>
      if f.nul then some ⟨field, field++js " contains a NUL character", false⟩
      else if f.loneSurrogate then
        some ⟨field, field++js " contains a lone UTF-16 surrogate", false⟩
      else none)

mutual

/-- The number of containers on the longest path into a value. -/
def depth : Json → ℕ
  | .arr items => depthOfItems items+1
  | .obj members => depthOfMembers members+1
  | _ => 0

def depthOfItems : List Json → ℕ
  | [] => 0
  | v::vs => max (depth v) (depthOfItems vs)

def depthOfMembers : List (Text × Json) → ℕ
  | [] => 0
  | (_, v)::ms => max (depth v) (depthOfMembers ms)

end

mutual

theorem nestedOver_iff (n : ℕ) (v : Json) : nestedOver n v = true ↔ n < depth v := by
  cases v with
  | arr items =>
    simp only [nestedOver, depth, Bool.or_eq_true, decide_eq_true_eq, itemsOver_iff (n-1) items]
    omega
  | obj members =>
    simp only [nestedOver, depth, Bool.or_eq_true, decide_eq_true_eq,
      membersOver_iff (n-1) members]
    omega
  | _ => simp [nestedOver, depth]

theorem itemsOver_iff (n : ℕ) (items : List Json) :
    itemsOver n items = true ↔ n < depthOfItems items := by
  cases items with
  | nil => simp [itemsOver, depthOfItems]
  | cons v vs =>
    simp only [itemsOver, depthOfItems, Bool.or_eq_true, nestedOver_iff n v, itemsOver_iff n vs]
    omega

theorem membersOver_iff (n : ℕ) (members : List (Text × Json)) :
    membersOver n members = true ↔ n < depthOfMembers members := by
  cases members with
  | nil => simp [membersOver, depthOfMembers]
  | cons m ms =>
    obtain ⟨k, v⟩ := m
    simp only [membersOver, depthOfMembers, Bool.or_eq_true, nestedOver_iff n v,
      membersOver_iff n ms]
    omega

end

theorem nodes_pos (v : Json) : 0 < nodes v := by
  cases v <;> simp [nodes]

theorem itemsOver_eq (n : ℕ) (items : List Json) :
    itemsOver n items = items.any (nestedOver n) := by
  induction items with
  | nil => rfl
  | cons v vs ih => simp [itemsOver, ih]

theorem membersOver_eq (n : ℕ) (members : List (Text × Json)) :
    membersOver n members = (members.map Prod.snd).any (nestedOver n) := by
  induction members with
  | nil => rfl
  | cons m ms ih => simp [membersOver, ih]

theorem textsOfItems_eq (items : List Json) : textsOfItems items = items.flatMap textsOf := by
  induction items with
  | nil => rfl
  | cons v vs ih => simp [textsOfItems, ih]

theorem any_textsOfMembers (p : Text → Bool) (members : List (Text × Json)) :
    (textsOfMembers members).any p =
      ((members.map Prod.fst).any p || ((members.map Prod.snd).flatMap textsOf).any p) := by
  induction members with
  | nil => rfl
  | cons m ms ih =>
    simp only [textsOfMembers, List.any_cons, List.any_append, ih, List.map_cons,
      List.flatMap_cons]
    cases p m.1 <;> cases (textsOf m.2).any p <;> simp

theorem nodesOfItems_eq (items : List Json) : nodesOfItems items = (items.map nodes).sum := by
  induction items with
  | nil => rfl
  | cons v vs ih => simp [nodesOfItems, ih]

theorem nodesOfMembers_eq (members : List (Text × Json)) :
    nodesOfMembers members = ((members.map Prod.snd).map nodes).sum := by
  induction members with
  | nil => rfl
  | cons m ms ih => simp [nodesOfMembers, ih]

def pendingNodes (p : Pending) : ℕ := nodes p.1

theorem stackSize_pushAll (values : List Json) (d : ℕ) :
    stackSize pendingNodes (pushAll values d) = (values.map nodes).sum := by
  rw [pushAll, stackSize_reverse, stackSize, List.map_map]
  rfl

theorem visit_lowers : Lowers visit pendingNodes := by
  constructor
  · exact fun p => nodes_pos p.1
  · rintro f ⟨v, d⟩ f' pushed h
    cases v with
    | arr items =>
      simp only [visit] at h
      split_ifs at h
      cases h
      rw [stackSize_pushAll, pendingNodes, nodes, nodesOfItems_eq]
      omega
    | obj members =>
      simp only [visit] at h
      split_ifs at h
      cases h
      rw [stackSize_pushAll, pendingNodes, nodes, nodesOfMembers_eq]
      omega
    | _ =>
      cases h
      exact nodes_pos _

def tooDeep (p : Pending) : Bool := nestedOver (maxPayloadDepth+1-p.2) p.1

def pendingTexts (stack : List Pending) : List Text := stack.flatMap (fun p => textsOf p.1)

def outcome (f : Found) (stack : List Pending) : Except Unit Found :=
  if stack.any tooDeep then .error ()
  else .ok ⟨f.nul || (pendingTexts stack).any hasNul,
    f.loneSurrogate || (pendingTexts stack).any (fun t => !isWellFormed t)⟩

theorem foldl_check (f : Found) (keys : List Text) :
    keys.foldl check f = ⟨f.nul || keys.any hasNul,
      f.loneSurrogate || keys.any (fun t => !isWellFormed t)⟩ := by
  induction keys generalizing f with
  | nil => simp
  | cons k ks ih => simp [ih, check, Bool.or_assoc]

theorem any_pushAll (values : List Json) (d : ℕ) :
    (pushAll values d).any tooDeep = values.any (nestedOver (maxPayloadDepth+1-d)) := by
  rw [pushAll, List.any_reverse, List.any_map]
  rfl

theorem any_pendingTexts_pushAll (p : Text → Bool) (values : List Json) (d : ℕ) :
    (pendingTexts (pushAll values d)).any p = (values.flatMap textsOf).any p := by
  simp only [pendingTexts, pushAll, List.any_flatMap, List.any_reverse, List.any_map]
  rfl

theorem any_tooDeep_cons (v : Json) (d : ℕ) (stack : List Pending) :
    ((v, d)::stack).any tooDeep = (nestedOver (maxPayloadDepth+1-d) v || stack.any tooDeep) := rfl

theorem pendingTexts_cons (v : Json) (d : ℕ) (stack : List Pending) :
    pendingTexts ((v, d)::stack) = textsOf v++pendingTexts stack := by
  simp [pendingTexts]

theorem pendingTexts_append (as bs : List Pending) :
    pendingTexts (as++bs) = pendingTexts as++pendingTexts bs := by
  simp [pendingTexts]

theorem outcome_container (f : Found) (v : Json) (own : List Text) (values : List Json) (d : ℕ)
    (stack : List Pending) (hd : d ≤ maxPayloadDepth)
    (hover : ∀ n, nestedOver (n+1) v = values.any (nestedOver n))
    (htexts : ∀ p, (textsOf v).any p = (own.any p || (values.flatMap textsOf).any p)) :
    outcome f ((v, d)::stack) = outcome (own.foldl check f) (pushAll values (d+1)++stack) := by
  have hcap : maxPayloadDepth+1-d = maxPayloadDepth+1-(d+1)+1 := by omega
  unfold outcome
  rw [any_tooDeep_cons, hcap, hover, List.any_append, any_pushAll, pendingTexts_cons,
    pendingTexts_append, foldl_check]
  simp only [List.any_append, any_pendingTexts_pushAll, htexts, Bool.or_assoc]

theorem outcome_items (f : Found) (items : List Json) (d : ℕ) (stack : List Pending)
    (hd : d ≤ maxPayloadDepth) :
    outcome f ((.arr items, d)::stack) = outcome f (pushAll items (d+1)++stack) := by
  apply outcome_container f (.arr items) [] items d stack hd
  · intro n
    simp [nestedOver, itemsOver_eq]
  · intro p
    rw [textsOf, textsOfItems_eq, List.any_nil, Bool.false_or]

theorem outcome_members (f : Found) (members : List (Text × Json)) (d : ℕ)
    (stack : List Pending) (hd : d ≤ maxPayloadDepth) :
    outcome f ((.obj members, d)::stack) =
      outcome ((members.map Prod.fst).foldl check f)
        (pushAll (members.map Prod.snd) (d+1)++stack) := by
  apply outcome_container f (.obj members) _ _ d stack hd
  · intro n
    simp [nestedOver, membersOver_eq]
  · intro p
    rw [textsOf, any_textsOfMembers]

theorem outcome_leaf (f : Found) (v : Json) (d : ℕ) (stack : List Pending)
    (hv : ∀ n, nestedOver n v = false) :
    outcome f ((v, d)::stack) = outcome ((textsOf v).foldl check f) stack := by
  rw [outcome, any_tooDeep_cons, hv, Bool.false_or, pendingTexts_cons, foldl_check, outcome]
  simp only [List.any_append, Bool.or_assoc]

theorem visit_follows : Follows visit outcome := by
  constructor
  · intro f
    simp [outcome, pendingTexts]
  · rintro f ⟨v, d⟩ stack e h
    have hdeep : nestedOver (maxPayloadDepth+1-d) v = true := by
      cases v with
      | arr items =>
        simp only [visit] at h
        split_ifs at h with hd
        simp [nestedOver, show maxPayloadDepth+1-d = 0 by omega]
      | obj members =>
        simp only [visit] at h
        split_ifs at h with hd
        simp [nestedOver, show maxPayloadDepth+1-d = 0 by omega]
      | _ => cases h
    rw [outcome, any_tooDeep_cons, hdeep, Bool.true_or, if_pos rfl]
  · rintro f ⟨v, d⟩ stack f' pushed h
    cases v with
    | arr items =>
      simp only [visit] at h
      split_ifs at h with hd
      cases h
      exact outcome_items f items d stack (by omega)
    | obj members =>
      simp only [visit] at h
      split_ifs at h with hd
      cases h
      exact outcome_members f members d stack (by omega)
    | str s =>
      cases h
      exact outcome_leaf f (.str s) d stack (fun n => by simp [nestedOver])
    | _ =>
      cases h
      exact outcome_leaf f _ d stack (fun n => by simp [nestedOver])

theorem jsonValueWalk_eq (root : Json) (field : Text) :
    jsonValueWalk root field = some (jsonValueProblem root field) := by
  have hwalk := walk_follows visit pendingNodes outcome visit_lowers visit_follows (nodes root)
    ⟨false, false⟩ [(root, 1)] (by simp [stackSize, pendingNodes])
  have htexts : pendingTexts [(root, 1)] = textsOf root := by simp [pendingTexts]
  rw [jsonValueWalk, hwalk, Option.map_some, Option.some.injEq, jsonValueProblem, outcome, htexts,
    any_tooDeep_cons, List.any_nil, Bool.or_false,
    show maxPayloadDepth+1-1 = maxPayloadDepth by rfl]
  cases nestedOver maxPayloadDepth root with
  | true => rfl
  | false => simp

end ControlPlane.PayloadWalk
