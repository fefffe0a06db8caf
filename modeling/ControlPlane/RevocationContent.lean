import Mathlib.Data.Bool.AllAny
import ControlPlane.RevocationAnswer

/-!
# Caller content on the revocation route

The reason of a revocation lands in a text column, whose encoder replaces a
lone surrogate, and in the JSON payload of the event, where the escape of one
is refused. The checks of the body let it through.
-/

set_option autoImplicit false

namespace ControlPlane.RevocationContent
open ControlPlane.JsText ControlPlane.JsValue ControlPlane.HttpValidate ControlPlane.AdminAudit
open ControlPlane.TctMonitor ControlPlane.RevocationRoute ControlPlane.RevocationMachine

theorem aid_unit (u : UInt16) (h : isAidUnit u = true) :
    u ≠ 0 ∧ isHigh u = false ∧ isLow u = false := by
  simp only [isAidUnit, isDigit, Bool.or_eq_true, Bool.and_eq_true, decide_eq_true_eq,
    UInt16.le_iff_toNat_le, ← UInt16.toNat_inj, UInt16.reduceToNat] at h
  refine ⟨?_, ?_, ?_⟩
  · rintro rfl
    simp at h
  · simp only [isHigh, Bool.and_eq_false_iff, decide_eq_false_iff_not, UInt16.le_iff_toNat_le,
      UInt16.reduceToNat]
    omega
  · simp only [isLow, Bool.and_eq_false_iff, decide_eq_false_iff_not, UInt16.le_iff_toNat_le,
      UInt16.reduceToNat]
    omega

theorem plain_storable (t : Text)
    (h : ∀ u ∈ t, u ≠ 0 ∧ isHigh u = false ∧ isLow u = false) : textStorable t = true := by
  have hnul : hasNul t = false := by
    by_contra hc
    simp only [hasNul, Bool.not_eq_false, List.contains_iff_mem] at hc
    exact (h 0 hc).1 rfl
  have hwell : isWellFormed t = true := by
    induction t with
    | nil => rfl
    | cons u t ih =>
      obtain ⟨-, hh, hl⟩ := h u List.mem_cons_self
      rw [isWellFormed_cons_plain u t hh hl]
      apply ih (fun v hv => h v (List.mem_cons_of_mem u hv))
      simp only [hasNul, List.contains_cons, Bool.or_eq_false_iff] at hnul
      exact hnul.2
  simp [textStorable, hnul, hwell]

theorem isAid_storable (t : Text) (h : isAid t = true) :
    textStorable t = true ∧ fitsVarchar 512 t = true := by
  simp only [isAid, Bool.and_eq_true, decide_eq_true_eq, List.all_eq_true] at h
  obtain ⟨hstart, ⟨-, hlen⟩, hunits⟩ := h
  obtain ⟨name, rfl⟩ := List.isPrefixOf_iff_prefix.mp hstart
  have hdrop : (js "aid:"++name).drop 4 = name := rfl
  have hscheme : (js "aid:").all (fun u => u ≠ 0 ∧ isHigh u = false ∧ isLow u = false) = true :=
    rfl
  rw [hdrop] at hlen hunits
  have hstorable : textStorable (js "aid:"++name) = true := by
    apply plain_storable
    intro u hu
    rcases List.mem_append.mp hu with hu | hu
    · exact List.all_iff_forall_prop.mp hscheme u hu
    · exact aid_unit u (hunits u hu)
  refine ⟨hstorable, ?_⟩
  simp only [textStorable, Bool.and_eq_true] at hstorable
  have hlen' : (js "aid:"++name).length = 4+name.length := by
    rw [List.length_append]
    rfl
  have hcode := codePoints_le_length (js "aid:"++name)
  simp only [fitsVarchar, hstorable.1, Bool.true_and, decide_eq_true_eq]
  omega

theorem isJtiV4_storable (t : Text) (h : isJtiV4 t = true) : textStorable t = true := by
  apply plain_storable
  intro u hu
  rcases uuidShape_digits _ _ _ t h u hu with rfl | hd
  · decide
  · apply aid_unit
    simp only [isLowerHex, isDigit, isAidUnit, Bool.or_eq_true, Bool.and_eq_true,
      decide_eq_true_eq, UInt16.le_iff_toNat_le, UInt16.reduceToNat] at hd ⊢
    omega

def IssuersStored (t : Tables) : Prop :=
  ∀ e ∈ t.revocationEntries, ∀ iss ∈ e.iss, textStorable iss = true ∧ fitsVarchar 512 iss = true

theorem resolved_iss (t : Tables) (r : Revocation) (iss : Text) (h : resolveIss t r = .ok iss) :
    projectedIss t r.jti = some iss ∨ storedIss t r.jti = some iss ∨ r.iss = some iss := by
  simp only [resolveIss] at h
  split_ifs at h
  split at h
  · next x hx =>
    obtain rfl := Except.ok.inj h
    rcases Option.or_eq_some_iff.mp hx with hx | ⟨-, hx⟩
    · rcases Option.or_eq_some_iff.mp hx with hx | ⟨-, hx⟩
      · exact Or.inl hx
      · exact Or.inr (Or.inl hx)
    · exact Or.inr (Or.inr hx)
  · cases h

theorem resolved_storable (parseDate : Text → Option Instant) (now : Instant) (body : Json)
    (t : Tables) (r : Revocation) (iss : Text) (hcols : IssuersStored t)
    (hr : readRevocation parseDate now body = .ok r) (h : resolveIss t r = .ok iss) :
    textStorable iss = true ∧ fitsVarchar 512 iss = true := by
  rcases resolved_iss t r iss h with hp | hs | hg
  · have := (Option.filter_eq_some_iff.mp hp).2
    exact isAid_storable iss this
  · simp only [storedIss, Option.bind_eq_some_iff] at hs
    obtain ⟨e, he, hiss⟩ := hs
    exact hcols e (List.mem_of_find?_eq_some he) iss hiss
  · have hiss := (readRevocation_ok _ _ _ _ hr).2.2.1
    unfold readIss at hiss
    split at hiss
    · simp only [Except.ok.injEq] at hiss
      rw [hg] at hiss
      cases hiss
    · simp only [Except.ok.injEq] at hiss
      rw [hg] at hiss
      cases hiss
    · split_ifs at hiss with haid
      simp only [Except.ok.injEq, hg, Option.some.injEq] at hiss
      exact isAid_storable iss (hiss ▸ haid)
    · cases hiss

theorem read_reason (v : Option Json) (reason : Option Text) (h : readReason v = .ok reason) :
    (∀ text, v = some (.str text) ↔ reason = some text) ∧ ∀ text ∈ reason, hasNul text = false := by
  unfold readReason at h
  split at h
  · obtain rfl := Except.ok.inj h
    simp
  · obtain rfl := Except.ok.inj h
    simp
  · next text =>
    split_ifs at h with _ hnul
    obtain rfl := Except.ok.inj h
    simpa using hnul
  · cases h

theorem read_revokedAt (parseDate : Text → Option Instant) (now ts : Instant) (v : Option Json)
    (h : readRevokedAt parseDate now v = .ok ts) :
    instantStorable ts = true ↔ (v.bind Json.string? = none → instantStorable now = true) := by
  unfold readRevokedAt at h
  split at h
  · next text =>
    split at h
    · cases h
    · next ms hms =>
      split_ifs at h with hrange
      obtain rfl := Except.ok.inj h
      obtain ⟨hmin, hmax⟩ := Bool.and_eq_true_iff.mp hrange
      simp only [instantStorable, Bool.and_eq_true, decide_eq_true_eq, Option.bind_some,
        Json.string?, reduceCtorEq, false_implies, iff_true]
      exact ⟨le_trans (by norm_num) (of_decide_eq_true hmin), of_decide_eq_true hmax⟩
  · next hno =>
    obtain rfl := Except.ok.inj h
    have hnone : v.bind Json.string? = none := by
      cases v with
      | none => rfl
      | some x =>
        cases x with
        | str text => exact (hno text rfl).elim
        | _ => rfl
    simp [hnone]

theorem nullable_storable (v : Option Text) : (nullable v).storable = v.all textStorable := by
  cases v <;> simp [nullable, Json.storable]

def Written (r : Revocation) (iss : Text) : Prop :=
  entryStorable r iss = true ∧ eventStorable (revokedEvent r iss) = true

theorem event_storable (r : Revocation) (iss : Text) (hj : textStorable r.jti = true)
    (hi : textStorable iss = true) :
    eventStorable (revokedEvent r iss) =
      (instantStorable r.revokedAt && r.reason.all textStorable) := by
  have htype : fitsVarchar 128 tctRevoked = true := by decide
  have hkeys : textStorable (js "jti") = true ∧ textStorable (js "reason") = true ∧
      textStorable (js "iss") = true := by decide
  simp [eventStorable, revokedEvent, htype, Json.storable, storableMembers, nullable_storable, hj,
    hi, hkeys]

/-- The body is well formed where it is written, and the clock if it dates the
entry. -/
def WellFormed (now : Instant) (body : Json) : Prop :=
  (∀ reason, body.get (js "reason") = some (.str reason) → isWellFormed reason = true) ∧
    ((body.get (js "revokedAt")).bind Json.string? = none → instantStorable now = true)

theorem written_iff (parseDate : Text → Option Instant) (now : Instant) (body : Json)
    (t : Tables) (r : Revocation) (iss : Text) (hcols : IssuersStored t)
    (hr : readRevocation parseDate now body = .ok r) (h : resolveIss t r = .ok iss) :
    Written r iss ↔ WellFormed now body := by
  obtain ⟨hjti, hreason, -, hat⟩ := readRevocation_ok _ _ _ _ hr
  obtain ⟨hiss, hfits⟩ := resolved_storable parseDate now body t r iss hcols hr h
  have hj := isJtiV4_storable _ (readJti_ok _ _ hjti)
  obtain ⟨hread, hnul⟩ := read_reason _ _ hreason
  have hts := read_revokedAt _ _ _ _ hat
  have hentry : entryStorable r iss = instantStorable r.revokedAt := by
    have hno : r.reason.all (!hasNul ·) = true := by
      simpa [Option.all_eq_true] using hnul
    simp only [entryStorable, hno, hfits, Bool.true_and]
  have htext : r.reason.all textStorable = true ↔
      ∀ reason, body.get (js "reason") = some (.str reason) → isWellFormed reason = true := by
    simp only [Option.all_eq_true, hread]
    constructor
    · intro hall reason hreason
      have := hall reason hreason
      simp only [textStorable, Bool.and_eq_true] at this
      exact this.2
    · intro hall reason hreason
      simp [textStorable, hnul reason hreason, hall reason hreason]
  rw [Written, WellFormed, hentry, event_storable r iss hj hiss, Bool.and_eq_true, htext, ← hts]
  tauto

theorem post_threw_iff (M : Monitor) (parseDate : Text → Option Instant) (now : Instant)
    (body : Json) (t : Tables) : (post M parseDate now body t).1 = .threw ↔
      ∃ r iss, readRevocation parseDate now body = .ok r ∧ resolveIss t r = .ok iss ∧
        ¬ Written r iss := by
  have hevent : ∀ r iss, eventStorable (revokedEvent r iss) =
      ((revokedEvent r iss).payload.storable && instantStorable (revokedEvent r iss).ts) := by
    intro r iss
    have htype : fitsVarchar 128 tctRevoked = true := by decide
    simp [eventStorable, revokedEvent, htype, Bool.and_comm]
  unfold post
  split
  · next hr => simp [hr]
  · next r hr =>
    split
    · next hiss => simp [hr, hiss]
    · next iss hiss =>
      by_cases hentry : entryStorable r iss = true
      · cases hstored : eventStorable (revokedEvent r iss) with
        | false =>
          have hs := (hevent r iss).symm.trans hstored
          simp [hr, hiss, hentry, hs, Written, hstored]
        | true =>
          have hs := (hevent r iss).symm.trans hstored
          simp [hr, hiss, hentry, hs, Written, hstored]
      · simp [hr, hiss, hentry, Written]

theorem readJti_error (v : Option Json) (p : Problem) (h : readJti v = .error p) :
    p.status = 400 := by
  unfold readJti at h
  split at h
  · split_ifs at h
    cases h
    rfl
  · cases h
    rfl

theorem readReason_error (v : Option Json) (p : Problem) (h : readReason v = .error p) :
    p.status = 400 := by
  unfold readReason at h
  split at h
  · cases h
  · cases h
  · split_ifs at h <;> cases h <;> rfl
  · cases h
    rfl

theorem readIss_error (v : Option Json) (p : Problem) (h : readIss v = .error p) :
    p.status = 400 := by
  unfold readIss at h
  split at h
  · cases h
  · cases h
  · split_ifs at h
    cases h
    rfl
  · cases h
    rfl

theorem readRevokedAt_error (parseDate : Text → Option Instant) (now : Instant)
    (v : Option Json) (p : Problem) (h : readRevokedAt parseDate now v = .error p) :
    p.status = 400 := by
  unfold readRevokedAt at h
  split at h
  · split at h
    · cases h
      rfl
    · split_ifs at h
      cases h
      rfl
  · cases h

theorem read_error (parseDate : Text → Option Instant) (now : Instant) (body : Json)
    (problem : Problem) (h : readRevocation parseDate now body = .error problem) :
    problem.status = 400 := by
  simp only [readRevocation, bind, Except.bind, pure, Except.pure] at h
  split at h
  · next e he => exact Except.error.inj h ▸ readJti_error _ _ he
  · split at h
    · next e he => exact Except.error.inj h ▸ readReason_error _ _ he
    · split at h
      · next e he => exact Except.error.inj h ▸ readIss_error _ _ he
      · split at h
        · next e he => exact Except.error.inj h ▸ readRevokedAt_error _ _ _ _ he
        · cases h

theorem resolve_error (t : Tables) (r : Revocation) (problem : Problem)
    (h : resolveIss t r = .error problem) : problem.status = 400 ∨ problem.status = 409 := by
  simp only [resolveIss] at h
  split_ifs at h
  · cases h
    exact Or.inr rfl
  · cases h
    exact Or.inr rfl
  · split at h
    · cases h
    · cases h
      exact Or.inl rfl

theorem post_refused (M : Monitor) (parseDate : Text → Option Instant) (now : Instant)
    (body : Json) (t u : Tables) (problem : Problem)
    (h : post M parseDate now body t = (.refused problem, u)) :
    u = t ∧ (problem.status = 400 ∨ problem.status = 409) := by
  unfold post at h
  split at h
  · next hr =>
    cases h
    exact ⟨rfl, Or.inl (read_error parseDate now body problem hr)⟩
  · split at h
    · next hiss =>
      cases h
      exact ⟨rfl, resolve_error t _ problem hiss⟩
    · simp only at h
      split_ifs at h
      · simp at h
      · simp at h
      · simp at h

structure Decided (M : Monitor) (parseDate : Text → Option Instant) (now : Instant)
    (body : Json) (t : Tables) : Prop where
  written : ∀ r iss, readRevocation parseDate now body = .ok r → resolveIss t r = .ok iss →
    Written r iss
  answered : (post M parseDate now body t).1 ≠ .threw
  refused : ∀ problem u, post M parseDate now body t = (.refused problem, u) →
    u = t ∧ (problem.status = 400 ∨ problem.status = 409)

/-- Exactly when no caller content is a fault: a body that is not refused has a
well-formed reason. -/
theorem content_decided_iff (M : Monitor) (parseDate : Text → Option Instant) (now : Instant)
    (body : Json) (t : Tables) (hcols : IssuersStored t) :
    Decided M parseDate now body t ↔
      ∀ r iss, readRevocation parseDate now body = .ok r → resolveIss t r = .ok iss →
        WellFormed now body := by
  constructor
  · intro h r iss hr hiss
    exact (written_iff parseDate now body t r iss hcols hr hiss).mp (h.written r iss hr hiss)
  · intro h
    have hw : ∀ r iss, readRevocation parseDate now body = .ok r → resolveIss t r = .ok iss →
        Written r iss := fun r iss hr hiss =>
      (written_iff parseDate now body t r iss hcols hr hiss).mpr (h r iss hr hiss)
    constructor
    · exact hw
    · intro hthrew
      obtain ⟨r, iss, hr, hiss, hno⟩ := (post_threw_iff M parseDate now body t).mp hthrew
      exact hno (hw r iss hr hiss)
    · exact fun problem u => post_refused M parseDate now body t u problem

section Scenario
open ControlPlane.RevocationClosure (observer tctJti)

def reasonedBody (reason : Text) : Json :=
  .obj [(js "jti", .str tctJti), (js "reason", .str reason), (js "iss", .str (js "aid:a"))]

theorem content_decided_plain :
    Decided observer (fun _ => none) 0 (reasonedBody (js "operator action")) Tables.empty := by
  apply (content_decided_iff _ _ _ _ _ _).mpr
  · intro r iss _ _
    constructor
    · intro reason h
      have hget : (reasonedBody (js "operator action")).get (js "reason") =
          some (.str (js "operator action")) := rfl
      obtain rfl := Json.str.inj (Option.some.inj (hget.symm.trans h))
      decide
    · intro _
      decide
  · intro e he
    cases he

/-- A lone surrogate passes the checks, and the entry is stored without event,
projection and answer. -/
theorem lone_surrogate_leaves_entry :
    ¬ ∀ (M : Monitor) (parseDate : Text → Option Instant) (now : Instant) (body : Json)
      (t : Tables), IssuersStored t → Decided M parseDate now body t := by
  intro h
  have hpost : (post observer (fun _ => none) 0 (reasonedBody [0xD800]) Tables.empty).1 = .threw ∧
      ((post observer (fun _ => none) 0 (reasonedBody [0xD800]) Tables.empty).2.revocationEntries
        ).map (·.jti) = [tctJti] := by decide +kernel
  have hd := h observer (fun _ => none) 0 (reasonedBody [0xD800]) Tables.empty
    (fun e he => by cases he)
  exact hd.answered hpost.1

end Scenario

end ControlPlane.RevocationContent
