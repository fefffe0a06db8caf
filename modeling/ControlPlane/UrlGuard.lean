import ControlPlane.IpText

/-!
# The guards of outbound URLs

A webhook target and an address of a keyset are fetched only if their scheme is
allowed and their host is an address, or resolves to addresses, that the checks
on the text of an address do not take for private.
-/

set_option autoImplicit false

namespace ControlPlane.UrlGuard
open ControlPlane.JsText ControlPlane.JsNumberText ControlPlane.IpText

def isIP (ip : Text) : ℕ :=
  match readIp ip with
  | some (.v4 _) => 4
  | some (.v6 _) => 6
  | none => 0

def octetNumber (p : Text) : Option ℕ := if p.all isDigit then some (digitsValue p) else none

/-- Only digits and dots come here. -/
def isPrivateIpv4 (ip : Text) : Bool :=
  match (ip.splitOn dot).map octetNumber with
  | [some a, some b, some c, some d] =>
    if 255 < a || 255 < b || 255 < c || 255 < d then true
    else if a = 0 then true
    else if a = 10 then true
    else if a = 127 then true
    else if a = 169 && b = 254 then true
    else if a = 172 && 16 ≤ b && b ≤ 31 then true
    else if a = 192 && b = 168 then true
    else if a = 100 && 64 ≤ b && b ≤ 127 then true
    else 224 ≤ a
  | _ => true

/-- `\d{1,3}(?:\.\d{1,3}){3}` -/
def isDotted (t : Text) : Bool :=
  (t.splitOn dot).length = 4 &&
    (t.splitOn dot).all (fun p => 1 ≤ p.length && p.length ≤ 3 && p.all isDigit)

/-- The tail of `::ffff:a.b.c.d`. -/
def mappedIpv4 (addr : Text) : Option Text :=
  if (js "::ffff:").isPrefixOf addr && isDotted (addr.drop 7) then some (addr.drop 7) else none

def isPrivateIpv6 (ip : Text) : Bool :=
  let addr := ((ip.map lowerUnit).splitOn percent).headD []
  if addr = js "::1" || addr = js "::" then true
  else
    match mappedIpv4 addr with
    | some mapped => isPrivateIpv4 mapped
    | none =>
      if (js "fe80").isPrefixOf addr then true
      else if (js "fc").isPrefixOf addr || (js "fd").isPrefixOf addr then true
      else (js "ff").isPrefixOf addr

def isPrivateIp (ip : Text) : Bool :=
  if isIP ip = 4 then isPrivateIpv4 ip else if isIP ip = 6 then isPrivateIpv6 ip else true

structure Url where
  href : Text
  protocol : Text
  hostname : Text
  deriving DecidableEq, Repr

/-- `new URL`, and `lookup` of every address of a name. -/
structure Resolver where
  parseUrl : Text → Option Url
  lookup : Text → Option (List Text)

structure Config where
  isProduction : Bool
  webhookUrlAllowlist : List Text

def checkScheme (cfg : Config) (invalid insecure : Text) (url : Url) : Option Text :=
  if url.protocol ≠ js "https:" && url.protocol ≠ js "http:" then some invalid
  else if cfg.isProduction && url.protocol ≠ js "https:" then some insecure
  else none

def checkHost (R : Resolver) (noun privateLiteral privateName host : Text) : Option Text :=
  if isIP host ≠ 0 then if isPrivateIp host then some privateLiteral else none
  else
    match R.lookup host with
    | none => some (noun++js " "++host++js " could not be resolved")
    | some [] => some (noun++js " "++host++js " resolved to no addresses")
    | some addresses => if addresses.any isPrivateIp then some privateName else none

def allowedBy (host entry : Text) : Bool :=
  if [dot].isPrefixOf entry then entry.isSuffixOf host || host = entry.drop 1 else host = entry

def checkAllowlist (cfg : Config) (url : Url) : Option Text :=
  if cfg.webhookUrlAllowlist = [] then none
  else if cfg.webhookUrlAllowlist.any (allowedBy (url.hostname.map lowerUnit)) then none
  else some (js "url host is not in WEBHOOK_URL_ALLOWLIST")

/-- The message that the URL is refused with. -/
def assertSafeWebhookUrl (R : Resolver) (cfg : Config) (rawUrl : Text) : Option Text :=
  match R.parseUrl rawUrl with
  | none => some (js "url is not a valid absolute URL")
  | some url =>
    ((checkScheme cfg (js "url scheme must be http or https")
        (js "url must use https in production") url).or (checkAllowlist cfg url)).or
      (checkHost R (js "url host") (js "url host resolves to a non-public address")
        (js "url host resolves to a non-public address") url.hostname)

def openSquare : UInt16 := 0x5B

def closeSquare : UInt16 := 0x5D

def stripOpen (host : Text) : Text := if host.head? = some openSquare then host.drop 1 else host

def stripClose (host : Text) : Text :=
  if host.getLast? = some closeSquare then host.dropLast else host

/-- `hostname.replace(/^\[|\]$/g, '')` -/
def stripBrackets (hostname : Text) : Text := stripClose (stripOpen hostname)

def assertSafeJwksUrl (R : Resolver) (cfg : Config) (rawUrl : Text) : Except Text Url :=
  match R.parseUrl rawUrl with
  | none => .error (js "not a valid absolute URL")
  | some url =>
    match (checkScheme cfg (js "scheme must be http or https")
        (js "https is required in production") url).or
      (checkHost R (js "host") (js "host is a non-public address")
        (js "host resolves to a non-public address") (stripBrackets url.hostname)) with
    | some message => .error message
    | none => .ok url

def hostText : IpAddr → Text
  | .v4 x => ipv4Text x
  | .v6 x => openSquare::ipv6Text x++[closeSquare]

theorem isIP_eq_zero (ip : Text) : isIP ip = 0 ↔ readIp ip = none := by
  unfold isIP
  cases readIp ip with
  | none => simp
  | some x => cases x <;> simp

theorem checkHost_ip (R : Resolver) (noun privateLiteral privateName host : Text) (x : IpAddr)
    (h : readIp host = some x) : checkHost R noun privateLiteral privateName host =
      if isPrivateIp host then some privateLiteral else none := by
  have hne : isIP host ≠ 0 := by
    rw [ne_eq, isIP_eq_zero, h]
    simp
  rw [checkHost, if_pos hne]

theorem stripBrackets_plain (host : Text) (ho : openSquare ∉ host) (hc : closeSquare ∉ host) :
    stripBrackets host = host := by
  have hopen : host.head? ≠ some openSquare := fun h => ho (List.mem_of_head? h)
  have hclose : host.getLast? ≠ some closeSquare := fun h => hc (List.mem_of_getLast? h)
  rw [stripBrackets, stripOpen, if_neg hopen, stripClose, if_neg hclose]

theorem stripBrackets_hostText (x : IpAddr) : stripBrackets (hostText x) = ipText x := by
  cases x with
  | v4 x =>
    apply stripBrackets_plain
    · intro h
      exact absurd (ipv4Text_units x openSquare h) (by decide)
    · intro h
      exact absurd (ipv4Text_units x closeSquare h) (by decide)
  | v6 x => simp [stripBrackets, hostText, ipText, stripOpen, stripClose]

/-- `https`, or `http` outside production. -/
def schemeAllowed (cfg : Config) (url : Url) : Bool :=
  url.protocol = js "https:" || (url.protocol = js "http:" && !cfg.isProduction)

theorem checkScheme_none (cfg : Config) (invalid insecure : Text) (url : Url) :
    checkScheme cfg invalid insecure url = none ↔ schemeAllowed cfg url = true := by
  unfold checkScheme schemeAllowed
  by_cases hs : url.protocol = js "https:"
  · simp [hs]
  by_cases hp : url.protocol = js "http:"
  · have hne : js "http:" ≠ js "https:" := by decide
    simp [hp, hne]
  · simp [hs, hp]

theorem assertSafeJwksUrl_host (R : Resolver) (cfg : Config) (rawUrl : Text) (url : Url)
    (x : IpAddr) (hp : R.parseUrl rawUrl = some url) (hx : url.hostname = hostText x) :
    (∃ message, assertSafeJwksUrl R cfg rawUrl = .error message) ↔
      schemeAllowed cfg url = false ∨ isPrivateIp (ipText x) = true := by
  rw [← Bool.not_eq_true, ← checkScheme_none cfg (js "scheme must be http or https")
    (js "https is required in production")]
  simp only [assertSafeJwksUrl, hp, hx, stripBrackets_hostText,
    checkHost_ip R _ _ _ _ x (readIp_ipText x)]
  cases checkScheme cfg (js "scheme must be http or https")
      (js "https is required in production") url with
  | some message => simp
  | none =>
    by_cases hi : isPrivateIp (ipText x) = true
    · simp [hi]
    · simp [hi]

end ControlPlane.UrlGuard
