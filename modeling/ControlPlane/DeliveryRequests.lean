import ControlPlane.AttemptOutcome
import ControlPlane.OutboundUrls

/-!
# The requests of one attempt

The check of the target, the POST and every redirect that sends it on are
steps of a delivery call. On any network these are the URLs that the check and
the chain of hops contact, and the answer of the call is the one in which the
chain ends.
-/

set_option autoImplicit false

namespace ControlPlane.DeliveryRequests
open ControlPlane.JsText ControlPlane.JsValue ControlPlane.UrlGuard ControlPlane.MediatedFetch
open ControlPlane.OutboundUrls ControlPlane.AttemptOutcome
open ControlPlane.DeliveryMachine

def keepsMethod (r : Response) : Bool := r.status = 307 || r.status = 308

section Hops
variable (serve : ℕ → Url → Reply Url Response)

def resends : ℕ → ℕ → Url → List Url
  | 0, _, _ => []
  | left+1, hop, u =>
    match serve hop u with
    | .redirect (some v) r => if keepsMethod r then v::resends left (hop+1) v else []
    | _ => []

theorem resends_cases (left hop : ℕ) (u : Url) : resends serve left hop u = [] ∨
    ∃ v n, RedirectsTo serve hop u v ∧ left = n+1 ∧
      resends serve left hop u = v::resends serve n (hop+1) v := by
  cases left with
  | zero => exact Or.inl rfl
  | succ n =>
    rw [resends]
    split
    · next v r hs =>
      split_ifs
      · exact Or.inr ⟨v, n, ⟨r, hs⟩, rfl, rfl⟩
      · exact Or.inl rfl
    · exact Or.inl rfl

theorem resends_length (left hop : ℕ) (u : Url) : (resends serve left hop u).length ≤ left := by
  induction left generalizing hop u with
  | zero => exact le_rfl
  | succ left ih =>
    rcases resends_cases serve (left+1) hop u with h | ⟨v, n, -, hn, h⟩
    · rw [h]
      exact Nat.zero_le _
    · cases hn
      rw [h, List.length_cons]
      exact Nat.succ_le_succ (ih (hop+1) v)

theorem resends_contacted (left hop : ℕ) (u : Url) :
    u::resends serve left hop u <+: (hops .follow serve left hop u).1 := by
  induction left generalizing hop u with
  | zero =>
    rcases hops_follow serve 0 hop u with h | ⟨v, n, -, hn, -⟩
    · rw [h]
      exact List.prefix_rfl
    · cases hn
  | succ left ih =>
    rcases resends_cases serve (left+1) hop u with h | ⟨v, n, hv, hn, h⟩
    · rw [h]
      rcases hops_follow serve (left+1) hop u with hu | ⟨v, n, -, -, hu⟩
      · rw [hu]
      · rw [hu]
        exact List.cons_prefix_cons.mpr ⟨rfl, List.nil_prefix⟩
    · cases hn
      rw [h, hops_redirect serve left hop u v hv]
      exact List.cons_prefix_cons.mpr ⟨rfl, ih (hop+1) v⟩

end Hops

/-- How the fetch ends; reading the body may fail on its own. -/
def answerOf (message : Text) : Option Response → Answer
  | some r => .status r.status (r.text.getD [])
  | none => .threw message

def postOutcome : Answer → PostOutcome
  | .status code text =>
    .answered code (if (Answer.status code text).isOk then none
      else some (Answer.status code text).errorText)
  | .threw _ => .threw

theorem answeredWith_eq (r : Response) :
    answeredWith r = postOutcome (.status r.status (r.text.getD [])) := by
  have hok : (Answer.status r.status (r.text.getD [])).isOk = r.ok := rfl
  rw [postOutcome, hok, answeredWith]
  by_cases h : r.ok = true
  · rw [if_pos h, if_pos h]
  · rw [if_neg h, if_neg h]
    rfl

section Attempt
variable (svc : Service) (cfg : Config) (N : Network) (w : World) (c : Call) (d : Delivery)
  (h : Webhook) (k : ℕ → ℕ) (gap : ℕ)

def sentOn (u : Url) : Hops := (resends N.serve maxRedirects 0 u).map (fun v => (gap, v.href))

theorem refused_target (a : Attempt) (message : Text) (hc : c.pc = .target a)
    (hs : assertSafeWebhookUrl N.resolver cfg a.webhook.url = some message) :
    act svc (.verdict (.refused message)) w c =
        some (w, c.to (.settle (.unsafeTarget a message))) ∧
      attemptDelivery cfg N a.webhook.url =
        ([], .blocked (js "unsafe target: "++message)) := by
  constructor
  · simp [act, hc, targetStep]
  · simp [attemptDelivery, hs]

/-- An attempt whose target passes the check makes its POSTs to the first URLs
that are contacted, and ends as the chain of requests does. -/
theorem attempt_requests (jitter : ℕ) (hj : jitter < 30000) (message : Text) (u : Url)
    (hc : Claimable w c d h) (hs : assertSafeWebhookUrl N.resolver cfg h.url = none)
    (hu : N.resolver.parseUrl h.url = some u) :
    let ans := answerOf message (fetch .follow N.serve u).2
    ∃ w', solo svc (attemptSteps k jitter (sentOn N gap u) ans) (w, c) =
        some (w', c.to (((conclude svc (answeredAt w k (sentOn N gap u)) (claimed d h) ans).map
          Pc.settle).getD .done)) ∧
      w'.posts.map (·.url) = h.url::w.posts.map (·.url) ∧
      w'.resent = ((resends N.serve maxRedirects 0 u).map (fun v => (c.delivery, v.href))).reverse++
        w.resent ∧
      .accepted u::(u::resends N.serve maxRedirects 0 u).map .contacted <+:
        (attemptDelivery cfg N h.url).1 ∧
      (attemptDelivery cfg N h.url).2 = postOutcome ans := by
  intro ans
  have hn : (sentOn N gap u).length ≤ maxRedirects := by
    rw [sentOn, List.length_map]
    exact resends_length N.serve maxRedirects 0 u
  have hrun := solo_attempt svc w c d h k jitter hj (sentOn N gap u) hn ans hc
  refine ⟨_, hrun, rfl, ?_, ?_, ?_⟩
  · simp [wait, resent, sentOn, AttemptOutcome.posted, World.breaker, World.row,
      Function.comp_def]
  · simp only [attemptDelivery, hs, hu]
    apply List.cons_prefix_cons.mpr
    exact ⟨rfl, (resends_contacted N.serve maxRedirects 0 u).map _⟩
  · simp only [attemptDelivery, hs, hu, ans]
    cases (fetch .follow N.serve u).2 with
    | none => rfl
    | some r => exact answeredWith_eq r

end Attempt

/-- A receiver that sends every POST on makes a call send it twenty-one times. -/
example : (resends (fun _ u => .redirect (some u) ⟨307, none⟩) maxRedirects 0
    ⟨js "https://a.example/", js "https:", js "a.example"⟩).length = 20 := by decide +kernel

end ControlPlane.DeliveryRequests
