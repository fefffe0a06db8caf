import ControlPlane.RequestGate

/-!
# The client address behind trusted proxies

Each trusted proxy appends the address it saw to `X-Forwarded-For` and passes
the other headers on. Read from the right, the entry of the outermost proxy is
the same whatever the client has sent. Without a trusted proxy the header is
not read, and the address is what `X-Real-IP` says.
-/

set_option autoImplicit false

namespace ControlPlane.ClientIp
open ControlPlane.JsText ControlPlane.RequestGate

def forwardedFor : Text := js "x-forwarded-for"

def realIp : Text := js "x-real-ip"

structure Address where
  text : Text
  whole : comma ∉ text
  nonblank : trim text ≠ []

/-- The header after a proxy has appended an address, with blanks as it likes. -/
def Appended (v : Option Text) (a : Address) (w : Text) : Prop :=
  (present v = none ∧ w = a.text) ∨
    ∃ s blanks, v = some s ∧ (∀ u ∈ blanks, isJsSpace u = true) ∧ w = s++comma::(blanks++a.text)

structure Appends (a : Address) (h h' : Headers) : Prop where
  forwarded : ∃ w, get h' forwardedFor = some w ∧ Appended (get h forwardedFor) a w
  others : ∀ name ≠ forwardedFor, get h' name = get h name

/-- The proxies from the client on, each with the address it saw. -/
def Forwards : List Address → Headers → Headers → Prop
  | [], h, h' => ∀ name, get h' name = get h name
  | a::as, h, h' => ∃ m, Appends a h m ∧ Forwards as m h'

def parts (v : Option Text) : List Text :=
  (((v.getD []).splitOn comma).map trim).filter (· ≠ [])

theorem trim_blanks (blanks t : Text) (h : ∀ u ∈ blanks, isJsSpace u = true) :
    trim (blanks++t) = trim t := by
  rw [trim, List.dropWhile_append_of_pos h, trim]

theorem parts_address (blanks : Text) (hb : ∀ u ∈ blanks, isJsSpace u = true) (a : Address) :
    ((((blanks++a.text).splitOn comma).map trim).filter (· ≠ [])) = [trim a.text] := by
  have hc : comma ∉ blanks++a.text := by
    intro hm
    rcases List.mem_append.mp hm with h | h
    · exact absurd (hb comma h) (by decide)
    · exact a.whole h
  rw [List.splitOn_eq_singleton hc]
  simp [trim_blanks blanks a.text hb, a.nonblank]

theorem parts_appended (v : Option Text) (a : Address) (w : Text) (h : Appended v a w) :
    parts (some w) = parts v++[trim a.text] := by
  rcases h with ⟨hv, rfl⟩ | ⟨s, blanks, rfl, hb, rfl⟩
  · have hnone : parts v = [] := by
      cases v with
      | none => rfl
      | some s =>
        have hs : s = [] := by simpa [present] using hv
        subst hs
        rfl
    rw [hnone, List.nil_append]
    exact parts_address [] (by simp) a
  · simp only [parts, Option.getD_some, List.splitOn_append_cons_self, List.map_append,
      List.filter_append]
    rw [parts_address blanks hb a]

theorem forwards_parts (addrs : List Address) (h h' : Headers) (hf : Forwards addrs h h') :
    parts (get h' forwardedFor) = parts (get h forwardedFor)++addrs.map (fun a => trim a.text) := by
  induction addrs generalizing h with
  | nil =>
    rw [hf forwardedFor]
    simp
  | cons a as ih =>
    obtain ⟨m, ⟨⟨w, hw, ha⟩, -⟩, hrest⟩ := hf
    rw [ih m hrest, hw, parts_appended _ a w ha]
    simp

theorem forwards_present (a : Address) (as : List Address) (h h' : Headers)
    (hf : Forwards (a::as) h h') : ∃ w, present (get h' forwardedFor) = some w := by
  cases hg : present (get h' forwardedFor) with
  | some w => exact ⟨w, rfl⟩
  | none =>
    have hp := forwards_parts (a::as) h h' hf
    have hnil : parts (get h' forwardedFor) = [] := by
      cases hv : get h' forwardedFor with
      | none => rfl
      | some s =>
        rw [hv] at hg
        have hs : s = [] := by simpa [present] using hg
        subst hs
        rfl
    rw [hnil] at hp
    simp at hp

theorem forwardedEntry_parts (hops : ℕ) (w : Text) (left : List Text) (first : Text)
    (rest : List Text) (hp : parts (some w) = left++first::rest) (hh : hops = rest.length+1) :
    forwardedEntry hops w = some first := by
  have hparts : ((w.splitOn comma).map trim).filter (· ≠ []) = left++first::rest := hp
  have hidx : ((left++first::rest).length : ℚ)-hops = (left.length : ℤ) := by
    rw [hh, List.length_append, List.length_cons]
    push_cast
    ring
  simp only [forwardedEntry, hparts, hidx]
  simp

def untrustedIp (h : Headers) : Text :=
  match present (get h realIp) with
  | some real => trim real
  | none => unknownIp

/-- The address of the outermost proxy; without one, what the client says. -/
def resolvedIp (client : Headers) : List Address → Text
  | [] => untrustedIp client
  | a::_ => trim a.text

/-- For every number of proxies and every set of headers from the client. -/
theorem client_ip_resolved (cfg : GateConfig) (hc : cfg.clientIpHeader = [])
    (addrs : List Address) (hh : cfg.trustedProxyHops = addrs.length) (client received : Headers)
    (hf : Forwards addrs client received) :
    getClientIp cfg received = resolvedIp client addrs := by
  rw [getClientIp, if_pos hc]
  simp only
  cases addrs with
  | nil =>
    have hzero : ¬0 < cfg.trustedProxyHops := by simp [hh]
    have hreal : get received realIp = get client realIp := hf realIp
    rw [if_neg hzero, resolvedIp, untrustedIp, ← hreal]
    rfl
  | cons a as =>
    have hpos : 0 < cfg.trustedProxyHops := by
      rw [hh, List.length_cons]
      positivity
    obtain ⟨w, hw⟩ := forwards_present a as client received hf
    have hget : get received forwardedFor = some w := by
      have := (Option.filter_eq_some_iff.mp hw).1
      exact this
    have hp := forwards_parts (a::as) client received hf
    rw [hget] at hp
    have hentry := forwardedEntry_parts (as.length+1) w _ (trim a.text)
      (as.map (fun a => trim a.text)) hp (by simp)
    have hhops : cfg.trustedProxyHops = ((as.length+1 : ℕ) : ℚ) := by
      rw [hh, List.length_cons]
    have hw' : present (get received (js "x-forwarded-for")) = some w := hw
    rw [if_pos hpos, hw', Option.bind_some, hhops, hentry]
    rfl

section Scenario

def behind (hops : ℚ) : GateConfig where
  apiKeyEntries := []
  issuerKeyEntries := []
  isProduction := true
  clientIpHeader := []
  trustedProxyHops := hops
  rateLimitEnabled := true
  rateLimitEnrollPerIpMin := 5
  rateLimitPublicPerIpMin := 60
  rateLimitApiKeyMin := 600

def edge : Address := ⟨js "198.51.100.9", by decide, by decide⟩

def spoofed : Headers := [⟨forwardedFor, js "evil-spoof", by decide⟩]

def seen : Headers := [⟨forwardedFor, js "evil-spoof, 198.51.100.9", by decide⟩]

theorem client_ip_resolved_edge :
    getClientIp (behind 1) seen = resolvedIp spoofed [edge] ∧
      resolvedIp spoofed [edge] = js "198.51.100.9" := by
  constructor
  · apply client_ip_resolved (behind 1) rfl [edge] rfl spoofed seen
    have hblank : ∀ u ∈ js " ", isJsSpace u = true := List.forall_mem_singleton.mpr (by decide)
    refine ⟨seen, ⟨⟨_, rfl, Or.inr ⟨js "evil-spoof", js " ", rfl, hblank, rfl⟩⟩, ?_⟩, fun _ => rfl⟩
    intro name hn
    simp [seen, spoofed, RequestGate.get, hn.symm]
  · decide

def claiming (ip : Text) (h : isHeaderValue ip = true) : Headers := [⟨realIp, ip, h⟩]

/-- Without a proxy the client names its own bucket. -/
theorem real_ip_is_believed :
    ¬ ∀ client client' received received' : Headers, Forwards [] client received →
      Forwards [] client' received' →
        getClientIp (behind 0) received = getClientIp (behind 0) received' := by
  intro h
  have hsame := h (claiming (js "192.0.2.1") (by decide)) (claiming (js "192.0.2.2") (by decide))
    _ _ (fun _ => rfl) (fun _ => rfl)
  exact absurd hsame (by decide)

end Scenario

end ControlPlane.ClientIp
