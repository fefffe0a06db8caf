import Mathlib.Data.List.Nodup
import Mathlib.Data.List.Perm.Subperm
import Mathlib.Data.Rat.Floor
import ControlPlane.DeliverySteps

/-!
# The retry budget

The budget is compared with the attempt number after a POST has failed. It is
kept if the number the last POST may have is used by one POST only, which
asks that its outcome is written, that the row then stays as it is and that
no other call claims the row in between. What a redirect sends on is counted
by no attempt number.
-/

set_option autoImplicit false

namespace ControlPlane.DeliveryBudget
open ControlPlane.JsText ControlPlane.JsValue ControlPlane.CircuitBreaker
open ControlPlane.RunMachine ControlPlane.ThreadPool ControlPlane.DeliveryMachine
open ControlPlane.DeliverySteps

theorem capped_length (l : List ℕ) (m : ℕ) (hm : 1 ≤ m) (hnd : l.Nodup) (hpos : ∀ k ∈ l, 1 ≤ k)
    (hlast : ∀ a ∈ l, ∀ b ∈ l, m ≤ a → m ≤ b → a = b) : l.length ≤ m := by
  have hinj : (l.map (min · m)).Nodup := by
    apply List.Nodup.map_on ?_ hnd
    intro a ha b hb hab
    by_cases h : m ≤ a ∧ m ≤ b
    · exact hlast a ha b hb h.1 h.2
    · omega
  have hsub : l.map (min · m) ⊆ List.range' 1 m := by
    intro k hk
    obtain ⟨a, ha, rfl⟩ := List.mem_map.mp hk
    have := hpos a ha
    rw [List.mem_range'_1]
    omega
  simpa using (List.subperm_of_subset hinj hsub).length_le

section Numbers

variable (svc : Service)

/-- After a failed POST with this number the delivery is given up. -/
def Last (k : ℕ) : Prop := svc.retryAttempts ≤ k

instance (k : ℕ) : Decidable (Last svc k) := by
  unfold Last
  infer_instance

/-- The POSTs made for a delivery, with those that a redirect sent on. -/
def requests (w : World) (id : DeliveryId) : ℕ := (postsOf w id).length+(resentOf w id).length

def numbers (w : World) (id : DeliveryId) : List ℕ := (postsOf w id).map (·.attempts)

def Spent (w : World) (id : DeliveryId) : Prop := ∃ k ∈ numbers w id, Last svc k

instance (w : World) (id : DeliveryId) : Decidable (Spent svc w id) := by
  unfold Spent
  infer_instance

def posted : Outcome → Option Attempt
  | .success a _ _ => some a
  | .gone a _ => some a
  | .exhausted a _ _ => some a
  | .retry a _ _ _ => some a
  | _ => none

def standing : Pc → Option Attempt
  | .target a => some a
  | .fetching a _ => some a
  | .settle o => posted o
  | _ => none

def BoundedClaim (p : State) (i : ℕ) (c : Call) : Prop :=
  ∀ a ∈ claiming c.pc, ∀ d ∈ p.world.deliveries c.delivery, claimable a d = true →
    Last svc a.attempts → Others p i (fun u => u.delivery = c.delivery →
      ∀ b ∈ standing u.pc, ¬ Last svc b.attempts)

def BoundedSettle (w : World) (c : Call) : Prop :=
  ∀ o ∈ settling c.pc, ∀ d ∈ w.deliveries c.delivery,
    o.status = .pending → d.status = .pending ∨ ¬ Spent svc w c.delivery

/-- A last attempt is not claimed while another one stands, its outcome is
written without a failure, a row that was posted for the last time is not made
pending again, and no POST is answered with a redirect that sends it on. -/
def Bounded : Event → State → Prop
  | .act i .ok, p => At p i (fun c => BoundedClaim svc p i c ∧ BoundedSettle svc p.world c)
  | .act i .fault, p => At p i (fun c => ∀ a ∈ standing c.pc, ¬ Last svc a.attempts)
  | .act _ (.redirect _), _ => False
  | _, _ => True

instance (p : State) (i : ℕ) (c : Call) : Decidable (BoundedClaim svc p i c) := by
  unfold BoundedClaim
  infer_instance

instance (w : World) (c : Call) : Decidable (BoundedSettle svc w c) := by
  unfold BoundedSettle
  infer_instance

instance : ∀ (l : Event) (p : State), Decidable (Bounded svc l p)
  | .act i .ok, p => inferInstanceAs (Decidable (At p i _))
  | .act i .fault, p => inferInstanceAs (Decidable (At p i _))
  | .act _ (.redirect _), _ => isFalse id
  | .env _, _ | .act _ (.jitter _), _ | .act _ (.verdict _), _ | .act _ (.answer _), _ =>
    isTrue trivial

end Numbers

variable {svc : Service}

/-- What is left of a posted attempt before its row is terminal. -/
def closing : Pc → Option Attempt
  | .fetching a _ => some a
  | .settle o => if o.status = .pending then none else posted o
  | _ => none

def Over (w : World) (id : DeliveryId) : Prop :=
  ∀ d, w.deliveries id = some d → d.status ≠ .pending

def Closed (svc : Service) (p : State) : Prop :=
  ∀ id, Spent svc p.world id → Over p.world id ∨
    ∃ (j : ℕ) (c : Call) (a : Attempt), p.threads[j]? = some c ∧ c.delivery = id ∧
      closing c.pc = some a ∧ Last svc a.attempts

structure Counts (svc : Service) (w : World) (id : DeliveryId) : Prop where
  known : numbers w id ≠ [] → w.owner id ≠ none
  nodup : (numbers w id).Nodup
  pos : ∀ k ∈ numbers w id, 1 ≤ k
  below : ∀ d, w.deliveries id = some d → ∀ k ∈ numbers w id, k ≤ d.attempts
  last : ∀ k ∈ numbers w id, ∀ m ∈ numbers w id, Last svc k → Last svc m → k = m

structure Unused (svc : Service) (w : World) (c : Call) (a : Attempt) : Prop where
  below : ∀ d, w.deliveries c.delivery = some d → a.attempts ≤ d.attempts
  unused : a.attempts ∉ numbers w c.delivery
  unspent : Last svc a.attempts → ¬ Spent svc w c.delivery

def Fresh (svc : Service) (w : World) (c : Call) : Prop :=
  ∀ a, c.pc = .target a → Unused svc w c a

def Apart (svc : Service) (_ : World) (c u : Call) : Prop :=
  ∀ a b, c.pc = .target a → u.pc = .target b → c.delivery = u.delivery →
    a.attempts ≠ b.attempts ∧ ¬ (Last svc a.attempts ∧ Last svc b.attempts)

abbrev Inv (svc : Service) (p : State) : Prop :=
  Holds (fun w => ∀ id, Counts svc w id) (Fresh svc) (Apart svc) p

theorem numbers_move {w w' : World} {c c' : Call} {io : Io} (h : Move svc w c io w' c')
    (id : DeliveryId) :
    numbers w' id = numbers w id ∨
    ∃ a, c.pc = .target a ∧ c' = c.to (.fetching a 0) ∧ c.delivery = id ∧
      numbers w' id = a.attempts::numbers w id := by
  rcases posts_move h with hp | ⟨a, _, hpc, hc, hp⟩
  · exact Or.inl (by simp only [numbers, postsOf, hp])
  · by_cases hid : c.delivery = id
    · exact Or.inr ⟨a, hpc, hc, hid, by simp [numbers, postsOf, hp, postOf, hid]⟩
    · exact Or.inl (by simp [numbers, postsOf, hp, postOf, hid])

theorem counts_move {w w' : World} {c c' : Call} {io : Io} (h : Move svc w c io w' c')
    (hk : Known w c) (hf : Fresh svc w c) (id : DeliveryId) (hc : Counts svc w id) :
    Counts svc w' id := by
  have hrow : ∀ d', w'.deliveries id = some d' →
      ∃ d, w.deliveries id = some d ∧ d.attempts ≤ d'.attempts := by
    intro d' hd'
    obtain ⟨d, hd, _, hle⟩ := move_row h id d' hd'
    exact ⟨d, hd, hle⟩
  rcases numbers_move h id with hn | ⟨a, hpc, _, rfl, hn⟩
  · refine ⟨by rw [hn, move_owner h]; exact hc.known, hn ▸ hc.nodup, hn ▸ hc.pos, ?_, hn ▸ hc.last⟩
    intro d' hd' k hk
    obtain ⟨d, hd, hle⟩ := hrow d' hd'
    exact le_trans (hc.below d hd k (hn ▸ hk)) hle
  · have hu := hf a hpc
    constructor
    · intro _
      rw [move_owner h]
      rcases hk with hk | hk | hk
      · simp [hk] at hpc
      · simp [hk] at hpc
      · exact hk.1
    · rw [hn]
      exact List.nodup_cons.mpr ⟨hu.unused, hc.nodup⟩
    · rw [hn]
      apply List.forall_mem_cons.mpr ⟨?_, hc.pos⟩
      simp only [Attempt.attempts]
      omega
    · intro d' hd'
      obtain ⟨d, hd, hle⟩ := hrow d' hd'
      rw [hn]
      exact List.forall_mem_cons.mpr ⟨le_trans (hu.below d hd) hle,
        fun k hk => le_trans (hc.below d hd k hk) hle⟩
    · have hno : ∀ k ∈ numbers w c.delivery, Last svc a.attempts → ¬ Last svc k :=
        fun k hk hl hlk => hu.unspent hl ⟨k, hk, hlk⟩
      rw [hn]
      intro k hk m hm hlk hlm
      rcases List.mem_cons.mp hk with rfl | hk <;> rcases List.mem_cons.mp hm with rfl | hm
      · rfl
      · exact (hno m hm hlk hlm).elim
      · exact (hno k hk hlm hlk).elim
      · exact hc.last k hk m hm hlk hlm

theorem fresh_other {w w' : World} {c c' u : Call} {io : Io} (h : Move svc w c io w' c')
    (hu : Fresh svc w u) (hq : Apart svc w c u) : Fresh svc w' u := by
  intro b hb
  have hb' := hu b hb
  have hbelow : ∀ d', w'.deliveries u.delivery = some d' → b.attempts ≤ d'.attempts := by
    intro d' hd'
    obtain ⟨d, hd, _, hle⟩ := move_row h _ d' hd'
    exact le_trans (hb'.below d hd) hle
  rcases numbers_move h u.delivery with hn | ⟨a, hpc, _, hid, hn⟩
  · exact ⟨hbelow, hn ▸ hb'.unused, by simpa only [Spent, hn] using hb'.unspent⟩
  · obtain ⟨hne, hlast⟩ := hq a b hpc hb hid
    refine ⟨hbelow, ?_, ?_⟩
    · rw [hn]
      exact List.not_mem_cons_of_ne_of_not_mem hne.symm hb'.unused
    · rintro hl ⟨k, hk, hlk⟩
      rw [hn] at hk
      rcases List.mem_cons.mp hk with rfl | hk
      · exact hlast ⟨hlk, hl⟩
      · exact hb'.unspent hl ⟨k, hk, hlk⟩

theorem conclude_last (now : Instant) (a : Attempt) (ans : Answer) (hl : Last svc a.attempts) :
    ∃ o, conclude svc now a ans = some o ∧ closing (.settle o) = some a := by
  unfold conclude
  split_ifs with h1 h2 h3
  · exact ⟨_, rfl, rfl⟩
  · exact ⟨_, rfl, rfl⟩
  · exact ⟨_, rfl, rfl⟩
  · exact (h3 hl).elim

theorem closing_move {w w' : World} {c c' : Call} {io : Io} (h : Move svc w c io w' c')
    (a : Attempt) (ha : closing c.pc = some a) (hl : Last svc a.attempts) (hio : io ≠ .fault) :
    closing c'.pc = some a ∨ Over w' c.delivery := by
  cases h with
  | stop _ => exact (hio rfl).elim
  | redirect b hops url hpc _ =>
    left
    rw [hpc] at ha
    exact ha
  | answer b hops ans hpc =>
    left
    simp only [hpc, closing, Option.some.injEq] at ha
    subst ha
    obtain ⟨o, ho, hc⟩ := conclude_last w.now b ans hl
    simp [answerStep, ho, hc]
  | settle o hpc _ =>
    right
    intro d' hd'
    rcases row_some _ _ _ _ _ hd' with ⟨hne, _⟩ | ⟨_, d₀, _, rfl⟩
    · exact (hne rfl).elim
    · rw [apply_status]
      intro hp
      simp [hpc, closing, hp] at ha
  | read hpc | find d hpc | ask b ms hpc | claim b d hpc _ _ _ | lose b hpc _ | post b hpc
  | refuse b m hpc | throw b hpc | disable b hpc | sweep b d hpc | audit b hpc =>
    simp [hpc, closing] at ha

theorem over_move {w w' : World} {c c' : Call} {io : Io} (h : Move svc w c io w' c')
    (id : DeliveryId) (ho : Over w id) (hsp : Spent svc w id)
    (hok : io = .ok → BoundedSettle svc w c) : Over w' id := by
  intro d' hd'
  rcases status_move h id d' hd' with ⟨d, hd, he⟩ | ⟨_, d, _, _, hd, hp, _⟩ |
    ⟨o, d, hpc, rfl, rfl, hd, he⟩ | ⟨_, _, d, _, _, hd, _, hp, _⟩
  · rw [he]
    exact ho d hd
  · exact (ho d hd hp).elim
  · rw [he]
    intro hp
    rcases hok rfl o (by simp [hpc, settling]) d hd hp with h | h
    · exact ho d hd h
    · exact h hsp
  · exact (ho d hd hp).elim

theorem closed_act (svc : Service) (i : ℕ) (io : Io) (p q : State)
    (hok : Bounded svc (.act i io) p) (hi : Closed svc p)
    (hs : next svc (.act i io) p = some q) : Closed svc q := by
  obtain ⟨c, w, c', hc, hm, rfl⟩ := act_next svc i io p q hs
  intro id hsp
  rcases numbers_move hm id with hn | ⟨a, hpc, hc', rfl, hn⟩
  · have hsp' : Spent svc p.world id := by simpa only [Spent, hn] using hsp
    rcases hi id hsp' with ho | ⟨j, u, a, hj, hid, ha, hl⟩
    · refine Or.inl (over_move hm id ho hsp' ?_)
      rintro rfl
      exact (hok c hc).2
    · by_cases hji : j = i
      · subst hji
        rw [hc, Option.some.injEq] at hj
        subst hj
        have hio : io ≠ .fault := by
          rintro rfl
          apply hok c hc a ?_ hl
          cases hpc : c.pc <;> simp [hpc, closing] at ha
          · simp [standing, ha]
          · simp [standing, ha.2]
        rcases closing_move hm a ha hl hio with h | h
        · exact Or.inr ⟨j, c', a, set_self _ _ _ _ hc, (move_delivery hm).1.trans hid, h, hl⟩
        · exact Or.inl (hid ▸ h)
      · exact Or.inr ⟨j, u, a, by rw [set_other _ _ _ _ hji]; exact hj, hid, ha, hl⟩
  · by_cases hl : Last svc a.attempts
    · exact Or.inr ⟨i, c', a, set_self _ _ _ _ hc, (move_delivery hm).1, by rw [hc']; rfl, hl⟩
    · obtain ⟨k, hk, hlk⟩ := hsp
      rw [hn] at hk
      rcases List.mem_cons.mp hk with rfl | hk
      · exact (hl hlk).elim
      · rcases hi c.delivery ⟨k, hk, hlk⟩ with ho | ⟨j, u, b, hj, hid, hb, hlb⟩
        · refine Or.inl (over_move hm _ ho ⟨k, hk, hlk⟩ ?_)
          rintro rfl
          exact (hok c hc).2
        · have hji : j ≠ i := by
            rintro rfl
            rw [hc, Option.some.injEq] at hj
            subst hj
            simp [hpc, closing] at hb
          exact Or.inr ⟨j, u, b, by rw [set_other _ _ _ _ hji]; exact hj, hid, hb, hlb⟩

theorem closed_env (svc : Service) (e : Env) (p q : State) (hk : ∀ id, Counts svc p.world id)
    (hi : Closed svc p) (hs : next svc (.env e) p = some q) : Closed svc q := by
  obtain ⟨w, o, he, rfl⟩ := env_next svc e p q hs
  intro id hsp
  have hn : numbers w id = numbers p.world id := by simp only [numbers, postsOf, he.posts]
  obtain ⟨k, hkn, hlk⟩ := hsp
  rw [hn] at hkn
  rcases hi id ⟨k, hkn, hlk⟩ with ho | ⟨j, u, a, hj, hid, ha, hl⟩
  · left
    intro d hd
    rcases he.rows id d hd with h | ⟨h, _⟩
    · exact ho d h
    · exact ((hk id).known (List.ne_nil_of_mem hkn) h).elim
  · obtain ⟨hlt, _⟩ := List.getElem?_eq_some_iff.mp hj
    exact Or.inr ⟨j, u, a, by rwa [List.getElem?_append_left hlt], hid, ha, hl⟩

theorem claim_unspent (svc : Service) (i : ℕ) (p : State) (c : Call) (a : Attempt) (d : Delivery)
    (hc : p.threads[i]? = some c) (hpc : c.pc = .claim a)
    (hd : p.world.deliveries c.delivery = some d) (hcl : claimable a d = true)
    (hok : Bounded svc (.act i .ok) p) (hi : Closed svc p) (hl : Last svc a.attempts) :
    ¬ Spent svc p.world c.delivery := by
  intro hsp
  rcases hi _ hsp with ho | ⟨j, u, b, hj, hid, hb, hlb⟩
  · simp only [claimable, decide_eq_true_eq] at hcl
    exact ho d hd hcl.2
  · have hji : j ≠ i := by
      rintro rfl
      rw [hc, Option.some.injEq] at hj
      subst hj
      simp [hpc, closing] at hb
    have hst := others_get p i j _ u
      ((hok c hc).1 a (by simp [hpc, claiming]) d hd hcl hl) hji hj hid
    apply hst b ?_ hlb
    cases hupc : u.pc <;> simp [hupc, closing] at hb
    · simp [standing, hb]
    · simp [standing, hb.2]

theorem fresh_self (svc : Service) (i : ℕ) (io : Io) (p : State) (c c' : Call) (w : World)
    (hc : p.threads[i]? = some c) (hm : Move svc p.world c io w c')
    (hok : Bounded svc (.act i io) p) (hk : ∀ id, Counts svc p.world id) (hi : Closed svc p) :
    Fresh svc w c' := by
  intro a ha
  obtain ⟨b, d, hpc, rfl, hd, hatt, hst, rfl, rfl⟩ := target_move hm (by simp [ha, isTarget])
  simp only [to_pc, Pc.target.injEq] at ha
  subst ha
  have hn : numbers (p.world.row c.delivery (claimRow b)) c.delivery =
      numbers p.world c.delivery := rfl
  constructor
  · intro d' hd'
    rw [to_delivery, row_same, hd, Option.map_some, Option.some.injEq] at hd'
    simp [← hd', claimRow]
  · rw [to_delivery, hn]
    intro hmem
    have := (hk _).below d hd _ hmem
    simp only [Attempt.attempts] at this
    omega
  · intro hl
    have := claim_unspent svc i p c b d hc hpc hd (by simp [claimable, hatt, hst]) hok hi hl
    simpa only [Spent, to_delivery, hn] using this

theorem apart_self (svc : Service) (i j : ℕ) (io : Io) (p : State) (c c' u : Call) (w : World)
    (hc : p.threads[i]? = some c) (hj : p.threads[j]? = some u) (hji : j ≠ i)
    (hm : Move svc p.world c io w c') (hok : Bounded svc (.act i io) p)
    (hf : Fresh svc p.world u) : Apart svc w c' u := by
  intro a b ha hb hsame
  obtain ⟨a', d, hpc, rfl, hd, hatt, hst, rfl, rfl⟩ := target_move hm (by simp [ha, isTarget])
  simp only [to_pc, Pc.target.injEq] at ha
  subst ha
  rw [to_delivery] at hsame
  have hle := (hf b hb).below d (hsame ▸ hd)
  constructor
  · simp only [Attempt.attempts] at hle ⊢
    omega
  · rintro ⟨hla, hlb⟩
    have hst := others_get p i j _ u ((hok c hc).1 a' (by simp [hpc, claiming]) d hd
      (by simp [claimable, hatt, hst]) hla) hji hj hsame.symm
    exact hst b (by simp [hb, standing]) hlb

theorem apart_symm (svc : Service) (w : World) (c u : Call) (h : Apart svc w c u) :
    Apart svc w u c := by
  intro a b ha hb hsame
  obtain ⟨hne, hl⟩ := h b a hb ha hsame.symm
  exact ⟨hne.symm, fun h => hl h.symm⟩

theorem inv_act (svc : Service) (i : ℕ) (io : Io) (p q : State) (ho : Owned p)
    (hok : Bounded svc (.act i io) p) (hi : Inv svc p) (hcl : Closed svc p)
    (hs : next svc (.act i io) p = some q) : Inv svc q := by
  obtain ⟨c, w, c', hc, hm, rfl⟩ := act_next svc i io p q hs
  apply holds_act p i c' w ?_ (fresh_self svc i io p c c' w hc hm hok hi.world hcl) ?_ ?_ ?_
  · intro id
    exact counts_move hm (ho.thread i c hc) (hi.thread i c hc) id (hi.world id)
  · intro j u hj hu
    exact fresh_other hm (hi.thread j u hu) (hi.pair i j c u hj.symm hc hu)
  · intro j u hj hu
    have h := apart_self svc i j io p c c' u w hc hu hj hm hok (hi.thread j u hu)
    exact ⟨h, apart_symm svc w c' u h⟩
  · intro j k u v _ _ hjk hu hv
    exact hi.pair j k u v hjk hu hv

theorem inv_env (svc : Service) (e : Env) (p q : State) (ho : Owned p) (hi : Inv svc p)
    (hs : next svc (.env e) p = some q) : Inv svc q := by
  obtain ⟨w, o, he, rfl⟩ := env_next svc e p q hs
  have hn : ∀ id, numbers w id = numbers p.world id := by
    intro id
    simp only [numbers, postsOf, he.posts]
  apply holds_env p w o ?_ ?_ ?_ hi.pair ?_
  · intro id
    have hc := hi.world id
    refine ⟨?_, by rw [hn]; exact hc.nodup, by rw [hn]; exact hc.pos, ?_, by rw [hn]; exact hc.last⟩
    · intro h
      obtain ⟨k, hk⟩ := Option.ne_none_iff_exists'.mp (hc.known (by rwa [← hn]))
      simp [he.owner id k hk]
    · intro d hd k hk
      rw [hn] at hk
      rcases he.rows id d hd with h | ⟨h, _⟩
      · exact hc.below d h k hk
      · exact (hc.known (List.ne_nil_of_mem hk) h).elim
  · intro j u hu a ha
    have hf := hi.thread j u hu a ha
    refine ⟨?_, by rw [hn]; exact hf.unused, by simpa only [Spent, hn] using hf.unspent⟩
    intro d hd
    rcases he.rows _ d hd with h | ⟨h, _⟩
    · exact hf.below d h
    · rcases ho.thread j u hu with hk | hk | hk
      · simp [hk] at ha
      · simp [hk] at ha
      · exact (hk.1 h).elim
  · intro t ht a ha
    simp [he.started t ht] at ha
  · intro t j u ht _
    refine ⟨fun a b ha => ?_, fun a b _ hb => ?_⟩
    · simp [he.started t ht] at ha
    · simp [he.started t ht] at hb

theorem step_inv (svc : Service) (l : Event) (p q : State) (hok : Bounded svc l p)
    (hi : Owned p ∧ Inv svc p ∧ Closed svc p) (hs : next svc l p = some q) :
    Owned q ∧ Inv svc q ∧ Closed svc q := by
  refine ⟨owned_step svc l p q hi.1 hs, ?_⟩
  cases l with
  | env e =>
    exact ⟨inv_env svc e p q hi.1 hi.2.1 hs, closed_env svc e p q hi.2.1.world hi.2.2 hs⟩
  | act i io =>
    exact ⟨inv_act svc i io p q hi.1 hok hi.2.1 hi.2.2 hs, closed_act svc i io p q hok hi.2.2 hs⟩

theorem counts_budget (svc : Service) (w : World) (id : DeliveryId) (hc : Counts svc w id) :
    (postsOf w id).length ≤ max 1 ⌈svc.retryAttempts⌉₊ := by
  have hlen : (postsOf w id).length = (numbers w id).length := by simp [numbers]
  rw [hlen]
  apply capped_length _ _ (le_max_left _ _) hc.nodup hc.pos
  intro k hk m hm hlk hlm
  have hlast : ∀ k, max 1 ⌈svc.retryAttempts⌉₊ ≤ k → Last svc k :=
    fun k h => Nat.ceil_le.mp (le_trans (le_max_right _ _) h)
  exact hc.last k hk m hm (hlast k hlk) (hlast m hlm)

theorem unsent_step (svc : Service) (l : Event) (p q : State) (hok : Bounded svc l p)
    (hi : p.world.resent = []) (hs : next svc l p = some q) : q.world.resent = [] := by
  cases l with
  | env e =>
    obtain ⟨w, o, he, rfl⟩ := env_next svc e p q hs
    exact he.resent.trans hi
  | act i io =>
    obtain ⟨c, w, c', _, hm, rfl⟩ := act_next svc i io p q hs
    rcases resent_move hm with h | ⟨_, _, url, rfl, _, _⟩
    · exact h.trans hi
    · exact hok.elim

def twice : Service := { service with retryAttempts := 2 }

def exhausted : List Event :=
  [created, enqueued [1]]++posting 0++[answered 0 500 [], .act 0 .ok]++
  [.env (.tick 30000), .env (.reap 1 [1])]++posting 1++[answered 1 503 [], .act 1 .ok]

/-- One redirect, and the only attempt makes two POSTs. -/
example : (run (next { service with retryAttempts := 1 })
    ([created, enqueued [1]]++posting 0++[.act 0 (.redirect [104])]) (start 0)).map
      (fun p => requests p.world [1]) = some 2 := by decide +kernel

end ControlPlane.DeliveryBudget
