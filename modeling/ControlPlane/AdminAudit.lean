import ControlPlane.RequestGate

/-!
# The admin audit log

A handler appends one row for its mutation, with the attribution that the gate
forwarded. A row that a column refuses is lost and counted; the caller is not
told.
-/

set_option autoImplicit false

namespace ControlPlane.AdminAudit
open ControlPlane.JsText ControlPlane.JsValue ControlPlane.HttpValidate ControlPlane.RequestGate

structure AuditContext where
  actorId : Option Text
  requestId : Option Text
  clientIp : Option Text
  deriving DecidableEq, Repr

def actorIdForKeyLabel (label : Text) : Text := js "key:"++label

def auditContext (h : Headers) (fallbackActor : Option Text) : AuditContext where
  actorId := ((present (get h keyLabelHeader)).map actorIdForKeyLabel).or (present fallbackActor)
  requestId := present (get h requestIdHeader)
  clientIp := present (get h clientIpForwardHeader)

structure AdminAuditEntry where
  action : Text
  targetId : Option Text
  details : List (Text × Json)

structure AdminAuditRow where
  action : Text
  actorId : Option Text
  targetId : Option Text
  details : Json
  requestId : Option Text

structure AuditLog where
  rows : List AdminAuditRow
  insertFailures : ℕ

def clientIpKey : Text := js "client_ip"

def auditDetails (entry : AdminAuditEntry) (ctx : AuditContext) : Json :=
  match present ctx.clientIp with
  | some ip => .obj (entry.details.filter (fun m => ¬ m.1 = clientIpKey)++[(clientIpKey, .str ip)])
  | none => .obj entry.details

def auditRow (entry : AdminAuditEntry) (ctx : AuditContext) : AdminAuditRow where
  action := entry.action
  actorId := ctx.actorId
  targetId := entry.targetId.map toWellFormed
  details := auditDetails entry ctx
  requestId := ctx.requestId

/-- The columns of `admin_audit_log`. -/
def auditStorable (entry : AdminAuditEntry) (ctx : AuditContext) : Bool :=
  fitsVarchar 128 entry.action && ctx.actorId.all (fitsVarchar 255) &&
    entry.targetId.all (fitsVarchar 512) && (auditDetails entry ctx).storable &&
      ctx.requestId.all (fitsVarchar 255)

def writeAdminAudit (entry : AdminAuditEntry) (ctx : AuditContext) (log : AuditLog) : AuditLog :=
  if auditStorable entry ctx then { log with rows := log.rows++[auditRow entry ctx] }
  else { log with insertFailures := log.insertFailures+1 }

theorem writeAdminAudit_recorded (entry : AdminAuditEntry) (ctx : AuditContext) (log : AuditLog) :
    (∃ row, (writeAdminAudit entry ctx log).rows = log.rows++[row]) ↔
      auditStorable entry ctx = true := by
  by_cases h : auditStorable entry ctx = true
  · simp [writeAdminAudit, h]
  · simp [writeAdminAudit, h]

theorem isHeaderUnit_not_surrogate (u : UInt16) (h : isHeaderUnit u = true) :
    isHigh u = false ∧ isLow u = false := by
  simp only [isHeaderUnit, Bool.and_eq_true, decide_eq_true_eq, UInt16.le_iff_toNat_le,
    UInt16.reduceToNat] at h
  constructor
  · simp only [isHigh, Bool.and_eq_false_iff, decide_eq_false_iff_not, UInt16.le_iff_toNat_le,
      UInt16.reduceToNat]
    omega
  · simp only [isLow, Bool.and_eq_false_iff, decide_eq_false_iff_not, UInt16.le_iff_toNat_le,
      UInt16.reduceToNat]
    omega

theorem wellFormed_of_headerUnits (t : Text) (h : t.all isHeaderUnit = true) :
    isWellFormed t = true := by
  induction t using isWellFormed.induct with
  | case1 => rfl
  | case2 u =>
    obtain ⟨hh, hl⟩ := isHeaderUnit_not_surrogate u (by simpa using h)
    simp [isWellFormed, hh, hl]
  | case3 u v rest hp ih =>
    simp only [List.all_cons, Bool.and_eq_true] at h
    simp [(isHeaderUnit_not_surrogate u h.1).1] at hp
  | case4 u v rest hp ih =>
    simp only [List.all_cons, Bool.and_eq_true] at h ih
    obtain ⟨hh, hl⟩ := isHeaderUnit_not_surrogate u h.1
    simp [isWellFormed, hh, hl, ih ⟨h.2.1, h.2.2⟩]

theorem hasNul_of_headerUnits (t : Text) (h : t.all isHeaderUnit = true) : hasNul t = false := by
  by_contra hc
  simp only [hasNul, Bool.not_eq_false, List.contains_iff_mem] at hc
  exact absurd (List.all_eq_true.mp h 0 hc) (by decide)

theorem headerValue_storable (t : Text) (h : isHeaderValue t = true) : textStorable t = true := by
  have hu := (Bool.and_eq_true_iff.mp h).1
  simp [textStorable, hasNul_of_headerUnits t hu, wellFormed_of_headerUnits t hu]

theorem codePoints_of_headerUnits (t : Text) (h : t.all isHeaderUnit = true) :
    codePoints t = t.length := by
  induction t using codePoints.induct with
  | case1 => rfl
  | case2 u => rfl
  | case3 u v rest hp ih =>
    simp only [List.all_cons, Bool.and_eq_true] at h
    simp [(isHeaderUnit_not_surrogate u h.1).1] at hp
  | case4 u v rest hp ih =>
    simp only [List.all_cons, Bool.and_eq_true] at h ih
    simp [codePoints, (isHeaderUnit_not_surrogate u h.1).1, ih ⟨h.2.1, h.2.2⟩]

theorem headerValue_fits (n : ℕ) (t : Text) (h : isHeaderValue t = true) :
    fitsVarchar n t = true ↔ t.length ≤ n := by
  have hu := (Bool.and_eq_true_iff.mp h).1
  simp [fitsVarchar, hasNul_of_headerUnits t hu, codePoints_of_headerUnits t hu]

end ControlPlane.AdminAudit
