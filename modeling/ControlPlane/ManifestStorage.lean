import ControlPlane.DoubleRounding
import ControlPlane.RegistrationMachine

/-!
# What a checked manifest gives to its row

The check of the columns and the row that is written read the manifest by
rules of their own. A manifest that passes gives a row that every column of
`agents` takes, and the timestamp of its expiry is built without an error.
-/

set_option autoImplicit false

namespace ControlPlane.ManifestStorage
open ControlPlane.JsText ControlPlane.JsValue ControlPlane.HttpValidate ControlPlane.RequestGate
open ControlPlane.AdminRoutes ControlPlane.EnrollmentToken ControlPlane.AgentRoute
open ControlPlane.RegistrationMachine ControlPlane.DoubleRounding

/-- A high unit with no low one behind it, or a low one with no high one
before it, at one place of a text. -/
def loneAt (prev : Option UInt16) (u : UInt16) (rest : Text) : Bool :=
  (isHigh u && !rest.head?.any isLow) || (!prev.any isHigh && isLow u)

def testFrom (prev : Option UInt16) : Text → Bool
  | [] => false
  | u::rest => loneAt prev u rest || testFrom (some u) rest

/-- `LONE_SURROGATE_RE.test` -/
def testLoneSurrogate (t : Text) : Bool := testFrom none t

/-- The columns of `agents`, and where their values come from. -/
structure RowFits (m : Json) (input : RegisterInput) : Prop where
  aid : m.get (js "aid") = some (.str input.aid) ∧ codePoints input.aid ≤ 512 ∧ 0 ∉ input.aid
  displayName : displayName m = .str input.displayName ∧
    codePoints input.displayName ≤ 256 ∧ 0 ∉ input.displayName
  handshakeEndpoint : m.get (js "handshake_endpoint") = some (.str input.handshakeEndpoint) ∧
    0 ∉ input.handshakeEndpoint
  offeredCaps : ∃ caps : List Text, input.offeredCaps = .arr (caps.map .str) ∧
    ∀ cap ∈ caps, 0 ∉ cap ∧ isWellFormed cap = true
  manifestExpiresAt : ∀ t ∈ input.manifestExpiresAt, instantStorable t = true
  agentNamespace : ∀ name ∈ input.agentNamespace, codePoints name ≤ 128 ∧ 0 ∉ name

theorem isLow_of_isHigh (u : UInt16) (h : isHigh u = true) : isLow u = false := by
  simp only [isHigh, isLow, Bool.and_eq_true, decide_eq_true_eq, Bool.and_eq_false_iff,
    decide_eq_false_iff_not, UInt16.le_iff_toNat_le, UInt16.reduceToNat] at h ⊢
  omega

theorem testFrom_eq (prev : Option UInt16) (t : Text) (hprev : prev.any isHigh = false) :
    testFrom prev t = !isWellFormed t := by
  induction t using isWellFormed.induct generalizing prev with
  | case1 => rfl
  | case2 u => simp [testFrom, loneAt, isWellFormed, hprev]
  | case3 u v rest hp ih =>
    have hpair := hp
    rw [Bool.and_eq_true] at hpair
    obtain ⟨hu, hv⟩ := hpair
    have hlow := isLow_of_isHigh u hu
    have hhigh : isHigh v = false := by
      by_contra hh
      rw [Bool.not_eq_false] at hh
      rw [isLow_of_isHigh v hh] at hv
      cases hv
    have hrest := ih (some v) (by simp [hhigh])
    simp [testFrom, loneAt, isWellFormed, hu, hv, hlow, hhigh, hrest]
  | case4 u v rest hp ih =>
    rw [testFrom, isWellFormed, if_neg hp]
    by_cases hu : isHigh u = true
    · have hv : isLow v = false := by simpa [hu] using hp
      simp [loneAt, hu, hv]
    · rw [Bool.not_eq_true] at hu
      have hrest := ih (some u) (by simp [hu])
      by_cases hl : isLow u = true
      · simp [loneAt, hu, hl, hprev]
      · rw [Bool.not_eq_true] at hl
        rw [hrest]
        simp [loneAt, hu, hl]

theorem testLoneSurrogate_eq (t : Text) : testLoneSurrogate t = !isWellFormed t :=
  testFrom_eq none t rfl

theorem fits_of_check (t field : Text) (max : ℕ) (h : checkColumnString t field max none = none) :
    codePoints t ≤ max ∧ 0 ∉ t := by
  have := (checkColumnString_iff t field max).mp h
  rwa [not_or, not_lt] at this

theorem aid_fits (m : Json) (h : checkAid m = none) :
    ∃ aid, m.get (js "aid") = some (.str aid) ∧ codePoints aid ≤ 512 ∧ 0 ∉ aid := by
  unfold checkAid at h
  split at h
  · next aid haid => exact ⟨aid, haid, fits_of_check _ _ _ h⟩
  · cases h

theorem displayName_fits (m : Json) (h : checkDisplayName m = none) :
    ∃ name, displayName m = .str name ∧ codePoints name ≤ 256 ∧ 0 ∉ name := by
  unfold checkDisplayName at h
  split at h
  · next name hname => exact ⟨name, hname, fits_of_check _ _ _ h⟩
  · cases h

theorem endpoint_fits (m : Json) (h : checkEndpoint m = none) :
    ∃ endpoint, m.get (js "handshake_endpoint") = some (.str endpoint) ∧ 0 ∉ endpoint := by
  unfold checkEndpoint at h
  split at h
  · next endpoint hendpoint =>
    split_ifs at h with hnul
    exact ⟨endpoint, hendpoint, by simpa [hasNul] using hnul⟩
  · cases h

theorem checkCap_none (v : Json) (h : checkCap v = none) :
    ∃ cap, v = .str cap ∧ 0 ∉ cap ∧ isWellFormed cap = true := by
  unfold checkCap at h
  split at h
  · next cap =>
    split_ifs at h with hnul hlone
    exact ⟨cap, rfl, by simpa [hasNul] using hnul, by simpa using hlone⟩
  · cases h

theorem checked_caps (vs : List Json) (h : vs.findSome? checkCap = none) :
    ∃ caps : List Text, vs = caps.map .str ∧ ∀ cap ∈ caps, 0 ∉ cap ∧ isWellFormed cap = true := by
  induction vs with
  | nil => exact ⟨[], rfl, by simp⟩
  | cons v vs ih =>
    rw [List.findSome?_cons] at h
    split at h
    · cases h
    · next hv =>
      obtain ⟨cap, rfl, hcap⟩ := checkCap_none v hv
      obtain ⟨caps, rfl, hcaps⟩ := ih h
      exact ⟨cap::caps, rfl, List.forall_mem_cons.mpr ⟨hcap, hcaps⟩⟩

theorem caps_fit (m : Json) (h : checkCaps m = none) :
    ∃ caps : List Text, nullish (m.get (js "offered_capabilities")) (.arr []) =
      .arr (caps.map .str) ∧ ∀ cap ∈ caps, 0 ∉ cap ∧ isWellFormed cap = true := by
  unfold checkCaps at h
  split at h
  · next vs hvs =>
    obtain ⟨caps, rfl, hcaps⟩ := checked_caps vs h
    exact ⟨caps, hvs, hcaps⟩
  · cases h

theorem expiry_instant (e : ℚ) (hmin : expiresAtMinSecs ≤ e) (hmax : e ≤ expiresAtMaxSecs) :
    ∃ t, toISOString (toDouble (e*1000)) = some t ∧ instantStorable t = true := by
  have hlow : toDouble (-62135596800000 : ℤ) = .finite (-62135596800000 : ℤ) :=
    toDouble_int _ (by norm_num)
  have hhigh : toDouble (253402300799000 : ℤ) = .finite (253402300799000 : ℤ) :=
    toDouble_int _ (by norm_num)
  rw [expiresAtMinSecs] at hmin
  rw [expiresAtMaxSecs] at hmax
  obtain ⟨r, hr, hr1, hr2⟩ := toDouble_between _ _ (e*1000) hlow hhigh
    (by push_cast; linarith) (by push_cast; linarith)
  have hdate : |r| ≤ (maxDateMs : ℚ) := by
    rw [abs_le, maxDateMs]
    push_cast at hr1 hr2 ⊢
    constructor
    · linarith
    · linarith
  have hbounds : -62135596800000 ≤ (if 0 ≤ r then ⌊r⌋ else ⌈r⌉) ∧
      (if 0 ≤ r then ⌊r⌋ else ⌈r⌉) ≤ 253402300799999 := by
    split_ifs with hpos
    · have h0 := Int.floor_nonneg.mpr hpos
      have h1 : ⌊r⌋ ≤ 253402300799000 := by exact_mod_cast (Int.floor_le r).trans hr2
      omega
    · have h0 : ⌈r⌉ ≤ 0 := Int.ceil_le.mpr (by exact_mod_cast (not_le.mp hpos).le)
      have h1 : -62135596800000 ≤ ⌈r⌉ := by exact_mod_cast hr1.trans (Int.le_ceil r)
      omega
  rw [hr, toISOString, if_pos hdate]
  refine ⟨_, rfl, ?_⟩
  simp only [instantStorable, Bool.and_eq_true, decide_eq_true_eq]
  exact hbounds

theorem expiry_fits (m : Json) (h : checkExpiresAt m = none) :
    ∃ expires, manifestExpiresAt m = some expires ∧
      ∀ t ∈ expires, instantStorable t = true := by
  unfold checkExpiresAt at h
  unfold manifestExpiresAt
  split at h
  · next hnone => simp [hnone]
  · next hnull => simp [hnull, Json.truthy]
  · next e he =>
    simp only [he]
    by_cases h0 : e = 0
    · simp [Json.truthy, h0]
    · split_ifs at h with hrange
      simp only [h0, decide_false, Bool.false_or, Bool.and_eq_true, decide_eq_true_eq] at hrange
      obtain ⟨t, ht, hstorable⟩ := expiry_instant e hrange.1 hrange.2
      simp [Json.truthy, h0, ht, hstorable]
  · cases h

theorem namespace_fits (h : Headers) (m : Json) (hheader : checkHeaderNamespace h = none)
    (hext : checkExtNamespace h m = none) (name : Text) (hname : name ∈ agentNamespace h m) :
    codePoints name ≤ 128 ∧ 0 ∉ name := by
  rw [Option.mem_def, agentNamespace] at hname
  cases hn : headerNamespace h with
  | some header =>
    rw [hn, Option.some_or, Option.some.injEq] at hname
    subst hname
    rw [checkHeaderNamespace, hn, Option.bind_some, Option.map_eq_none_iff] at hheader
    exact fits_of_check _ _ _ hheader
  | none =>
    rw [hn, Option.none_or, Option.bind_eq_some_iff] at hname
    obtain ⟨v, hv, hvname⟩ := hname
    cases v with
    | str ext =>
      cases hvname
      simp only [checkExtNamespace, hv, hn, Option.isSome_none, Bool.false_eq_true, if_false,
        Option.map_eq_none_iff] at hext
      exact fits_of_check _ _ _ hext
    | _ => cases hvname

theorem consumption_fits (P : Platform) (h : Headers) (m payload : Json) (body : Text)
    (hcolumns : checkManifestColumns m = none) (hheader : checkHeaderNamespace h = none)
    (hext : checkExtNamespace h m = none) :
    ∃ c, consumption P h m payload body = some c ∧ RowFits m c.input := by
  obtain ⟨haid, hdisplay, hendpoint, hcaps, hexpires⟩ := columns_none m hcolumns
  obtain ⟨aid, haid, haidfit⟩ := aid_fits m haid
  obtain ⟨name, hname, hnamefit⟩ := displayName_fits m hdisplay
  obtain ⟨endpoint, hendpoint, hendpointfit⟩ := endpoint_fits m hendpoint
  obtain ⟨expires, hexpires, hexpiresfit⟩ := expiry_fits m hexpires
  have hstring : ∀ key text, m.get key = some (.str text) → (stringField m key).getD [] = text := by
    intro key text hkey
    simp [stringField, hkey, Json.string?]
  rw [consumption, hexpires, Option.map_some]
  refine ⟨_, rfl, ?_⟩
  constructor
  · simp only [hstring _ _ haid]
    exact ⟨haid, haidfit⟩
  · simp only [hname, Json.string?, Option.getD_some]
    exact ⟨trivial, hnamefit⟩
  · simp only [hstring _ _ hendpoint]
    exact ⟨hendpoint, hendpointfit⟩
  · exact caps_fit m hcaps
  · exact hexpiresfit
  · exact namespace_fits h m hheader hext

/-- A manifest that passes the checks is written as a row that fits. -/
theorem manifest_row_fits (P : Platform) (h : Headers) (m payload : Json) (body : Text)
    (hcolumns : checkManifestColumns m = none) (hheader : checkHeaderNamespace h = none)
    (hext : checkExtNamespace h m = none) :
    (∀ cap, testLoneSurrogate cap = !isWellFormed cap) ∧
      ∃ c, consumption P h m payload body = some c ∧ RowFits m c.input :=
  ⟨testLoneSurrogate_eq, consumption_fits P h m payload body hcolumns hheader hext⟩

/-- The AID stands in for the name, and the expiry is a fraction of a second. -/
def sparseManifest : Json :=
  .obj [(js "aid", .str (js "aid:pubkey:a")), (js "handshake_endpoint", .str (js "https://a")),
    (js "offered_capabilities", .null), (js "expires_at", .num (.finite (507/2)))]

def noPlatform : Platform where
  decode := id
  parse _ := none
  encode := id
  stringify _ := []
  hmac _ t := t
  sha256Hex t := t
  toNumber _ := none
  template _ := []

theorem sparse_row_fits :
    ∃ c, consumption noPlatform [] sparseManifest .null [] = some c ∧
      RowFits sparseManifest c.input :=
  (manifest_row_fits noPlatform [] sparseManifest .null [] (by decide +kernel) (by decide)
    (by decide)).2

end ControlPlane.ManifestStorage
