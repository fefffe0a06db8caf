import ControlPlane.HttpValidate
import ControlPlane.UrlGuard

/-!
# Which addresses the guard takes for private

The blocks of addresses that are not public are sets of numbers. The guard
compares texts, and sees an address of such a block only in some of its
spellings.
-/

set_option autoImplicit false

namespace ControlPlane.PrivateAddress
open ControlPlane.JsText ControlPlane.JsNumberText ControlPlane.HttpValidate ControlPlane.IpText
open ControlPlane.UrlGuard

/-- The numbers of `width` bits that share the first `len` with `base`. -/
def inBlock (width base len bits : ℕ) : Bool := bits/2^(width-len) = base/2^(width-len)

/-- Unspecified, loopback, private, carrier-grade NAT, link-local, multicast. -/
def ipv4Blocks : List (Ipv4 × ℕ) :=
  [(⟨0, 0, 0, 0⟩, 32), (⟨127, 0, 0, 0⟩, 8), (⟨10, 0, 0, 0⟩, 8), (⟨172, 16, 0, 0⟩, 12),
    (⟨192, 168, 0, 0⟩, 16), (⟨100, 64, 0, 0⟩, 10), (⟨169, 254, 0, 0⟩, 16), (⟨224, 0, 0, 0⟩, 4)]

def nonPublicIpv4 (bits : ℕ) : Bool := ipv4Blocks.any (fun b => inBlock 32 b.1.bits b.2 bits)

def inBlock6 (first len : ℕ) (x : Ipv6) : Bool := inBlock 128 (first*2^112) len x.bits

/-- `fe80::/10` -/
def isLinkLocal : Ipv6 → Bool := inBlock6 0xFE80 10

/-- `fc00::/7` -/
def isUniqueLocal : Ipv6 → Bool := inBlock6 0xFC00 7

/-- `ff00::/8` -/
def isMulticast : Ipv6 → Bool := inBlock6 0xFF00 8

/-- `::ffff:0:0/96` -/
def isMapped (x : Ipv6) : Bool := inBlock 128 (0xFFFF*2^32) 96 x.bits

def nonPublic : IpAddr → Bool
  | .v4 x => nonPublicIpv4 x.bits
  | .v6 x => x.bits = 0 || x.bits = 1 || isLinkLocal x || isUniqueLocal x || isMulticast x ||
      (isMapped x && nonPublicIpv4 (x.bits % 2^32))

/-- The text without a zone, in lower case. -/
def plainText (t : Text) : Text := (withoutZone t).map lowerUnit

/-- The spellings of an address that is not public which the guard sees. -/
def Recognised (t : Text) : IpAddr → Prop
  | .v4 _ => True
  | .v6 x => isUniqueLocal x = true ∨ isMulticast x = true ∨ inBlock6 0xFE80 16 x = true ∨
      plainText t = js "::" ∨ plainText t = js "::1" ∨
        ∃ q y, plainText t = js "::ffff:"++q ∧ readIpv4 q = some y

def Legible : IpAddr → Prop
  | .v4 _ => True
  | .v6 x => isMapped x = false ∧ (isLinkLocal x = true → inBlock6 0xFE80 16 x = true)

theorem inBlock_iff (width base len bits : ℕ) :
    inBlock width base len bits = true ↔ bits/2^(width-len) = base/2^(width-len) :=
  decide_eq_true_iff

theorem readOctet_number (p : Text) (n : UInt8) (h : readOctet p = some n) :
    octetNumber p = some n.toNat ∧ 1 ≤ p.length ∧ p.length ≤ 3 ∧ p.all isDigit = true := by
  simp only [readOctet, Option.ite_none_right_eq_some, Bool.and_eq_true, decide_eq_true_eq,
    Option.some.injEq] at h
  obtain ⟨⟨⟨⟨⟨hdigits, h1⟩, h3⟩, -⟩, hle⟩, rfl⟩ := h
  have hval : (UInt8.ofNat (digitsValue p)).toNat = digitsValue p :=
    UInt8.toNat_ofNat_of_lt' (by change digitsValue p < 256; omega)
  exact ⟨by rw [octetNumber, if_pos hdigits, hval], h1, h3, hdigits⟩

theorem readIpv4_split (t : Text) (x : Ipv4) (h : readIpv4 t = some x) :
    ∃ p q r s, t.splitOn dot = [p, q, r, s] ∧ readOctet p = some x.a ∧ readOctet q = some x.b ∧
      readOctet r = some x.c ∧ readOctet s = some x.d := by
  unfold readIpv4 at h
  split at h
  · next a b c d hm =>
    cases h
    simp only [mapM_some_iff, List.forall₂_cons_right_iff, List.forall₂_nil_right_iff] at hm
    obtain ⟨p, _, hp, ⟨q, _, hq, ⟨r, _, hr, ⟨s, _, hs, rfl, rfl⟩, rfl⟩, rfl⟩, ht⟩ := hm
    exact ⟨p, q, r, s, ht, hp, hq, hr, hs⟩
  · cases h

def PrivateOctets (a b : ℕ) : Prop :=
  a = 0 ∨ a = 10 ∨ a = 127 ∨ (a = 169 ∧ b = 254) ∨ (a = 172 ∧ 16 ≤ b ∧ b ≤ 31) ∨
    (a = 192 ∧ b = 168) ∨ (a = 100 ∧ 64 ≤ b ∧ b ≤ 127) ∨ 224 ≤ a

theorem isPrivateIpv4_iff (t : Text) (x : Ipv4) (h : readIpv4 t = some x) :
    isPrivateIpv4 t = true ↔ PrivateOctets x.a.toNat x.b.toNat := by
  obtain ⟨p, q, r, s, ht, hp, hq, hr, hs⟩ := readIpv4_split t x h
  have hrange : ¬ (((255 < x.a.toNat ∨ 255 < x.b.toNat) ∨ 255 < x.c.toNat) ∨ 255 < x.d.toNat) := by
    have ha := x.a.toNat_lt
    have hb := x.b.toNat_lt
    have hc := x.c.toNat_lt
    have hd := x.d.toNat_lt
    omega
  rw [isPrivateIpv4, ht]
  simp only [List.map_cons, List.map_nil, (readOctet_number _ _ hp).1, (readOctet_number _ _ hq).1,
    (readOctet_number _ _ hr).1, (readOctet_number _ _ hs).1, Bool.or_eq_true, Bool.and_eq_true,
    decide_eq_true_eq, if_neg hrange, Bool.if_true_left, PrivateOctets, and_assoc]

theorem isPrivateIpv4_nonPublic (t : Text) (x : Ipv4) (h : readIpv4 t = some x)
    (hx : nonPublicIpv4 x.bits = true) : isPrivateIpv4 t = true := by
  rw [isPrivateIpv4_iff t x h]
  have hb := x.b.toNat_lt
  have hc := x.c.toNat_lt
  have hd := x.d.toNat_lt
  simp only [nonPublicIpv4, ipv4Blocks, List.any_cons, List.any_nil, Bool.or_false,
    Bool.or_eq_true, inBlock_iff, Ipv4.bits, UInt8.reduceToNat, Nat.reducePow, Nat.reduceMul,
    Nat.reduceAdd, Nat.reduceSub, Nat.reduceDiv] at hx
  generalize x.a.toNat = a at hx ⊢
  generalize x.b.toNat = b at hx hb ⊢
  generalize x.c.toNat = c at hx hc
  generalize x.d.toNat = d at hx hd
  unfold PrivateOctets
  rcases hx with hx | hx | hx | hx | hx | hx | hx | hx
  · have ha : a = 0 := by omega
    simp [ha]
  · have ha : a = 127 := by omega
    simp [ha]
  · have ha : a = 10 := by omega
    simp [ha]
  · have ha : a = 172 := by omega
    have hb' : 16 ≤ b ∧ b ≤ 31 := by omega
    simp [ha, hb']
  · have ha : a = 192 := by omega
    have hb' : b = 168 := by omega
    simp [ha, hb']
  · have ha : a = 100 := by omega
    have hb' : 64 ≤ b ∧ b ≤ 127 := by omega
    simp [ha, hb']
  · have ha : a = 169 := by omega
    have hb' : b = 254 := by omega
    simp [ha, hb']
  · have ha : 224 ≤ a := by omega
    simp [ha]

section Groups
variable (x : Ipv6) (g : UInt16) (gs : List UInt16) (hx : x.groups = g::gs)
include hx

theorem inBlock6_iff (first len : ℕ) (hlen : len ≤ 16) :
    inBlock6 first len x = true ↔ g.toNat/2^(16-len) = first/2^(16-len) := by
  obtain ⟨r, hr, hbits⟩ := bits_head x g gs hx
  have hwidth : 2^(128-len) = 2^112*2^(16-len) := by
    rw [← pow_add]
    congr 1
    omega
  have hhead : (g.toNat*2^112+r)/2^112 = g.toNat := by
    rw [Nat.mul_comm, Nat.mul_add_div (by norm_num), Nat.div_eq_of_lt hr, Nat.add_zero]
  rw [inBlock6, inBlock_iff, hbits, hwidth, ← Nat.div_div_eq_div_mul, ← Nat.div_div_eq_div_mul,
    hhead, Nat.mul_div_cancel _ (by norm_num)]

theorem isLinkLocal_iff : isLinkLocal x = true ↔ 0xFE80 ≤ g.toNat ∧ g.toNat ≤ 0xFEBF := by
  rw [isLinkLocal, inBlock6_iff x g gs hx _ _ (by norm_num)]
  omega

theorem isUniqueLocal_iff : isUniqueLocal x = true ↔ 0xFC00 ≤ g.toNat ∧ g.toNat ≤ 0xFDFF := by
  rw [isUniqueLocal, inBlock6_iff x g gs hx _ _ (by norm_num)]
  omega

theorem isMulticast_iff : isMulticast x = true ↔ 0xFF00 ≤ g.toNat := by
  have hg := g.toNat_lt
  rw [isMulticast, inBlock6_iff x g gs hx _ _ (by norm_num)]
  omega

theorem fe80_iff : inBlock6 0xFE80 16 x = true ↔ g.toNat = 0xFE80 := by
  rw [inBlock6_iff x g gs hx _ _ (by norm_num)]
  omega

theorem low_head (h : x.bits < 2^112) : g = 0 := by
  obtain ⟨r, hr, hbits⟩ := bits_head x g gs hx
  rw [hbits] at h
  have hg : g.toNat = 0 := by omega
  exact UInt16.toNat_inj.mp hg

theorem nonPublic_head (h : nonPublic (.v6 x) = true) :
    g = 0 ∨ (0x1000 ≤ g.toNat ∧
      (isLinkLocal x = true ∨ isUniqueLocal x = true ∨ isMulticast x = true)) := by
  simp only [nonPublic, Bool.or_eq_true, Bool.and_eq_true, decide_eq_true_eq] at h
  rcases h with ((((h | h) | h) | h) | h) | h
  · exact Or.inl (low_head x g gs hx (by omega))
  · exact Or.inl (low_head x g gs hx (by omega))
  · have := (isLinkLocal_iff x g gs hx).mp h
    exact Or.inr ⟨by omega, Or.inl h⟩
  · have := (isUniqueLocal_iff x g gs hx).mp h
    exact Or.inr ⟨by omega, Or.inr (Or.inl h)⟩
  · have := (isMulticast_iff x g gs hx).mp h
    exact Or.inr ⟨by omega, Or.inr (Or.inr h)⟩
  · have hm := (inBlock_iff _ _ _ _).mp h.1
    exact Or.inl (low_head x g gs hx (by omega))

end Groups

theorem stripped_eq (t : Text) :
    ((t.map lowerUnit).splitOn percent).headD [] = plainText t := by
  have hunit : ((fun u : UInt16 => decide (u ≠ percent)) ∘ lowerUnit) =
      fun u => decide (u ≠ percent) := by
    funext u
    have := lowerUnit_iff u percent (by decide)
    simp only [Function.comp_apply, this, ne_eq]
  rw [splitOn_head, List.takeWhile_map, hunit]
  rfl

theorem isPrivateIpv6_iff (t : Text) : isPrivateIpv6 t = true ↔
    plainText t = js "::1" ∨ plainText t = js "::" ∨
      (∃ q, mappedIpv4 (plainText t) = some q ∧ isPrivateIpv4 q = true) ∨
        (mappedIpv4 (plainText t) = none ∧ ((js "fe80").isPrefixOf (plainText t) = true ∨
          (js "fc").isPrefixOf (plainText t) = true ∨ (js "fd").isPrefixOf (plainText t) = true ∨
            (js "ff").isPrefixOf (plainText t) = true)) := by
  simp only [isPrivateIpv6, stripped_eq, Bool.if_true_left, Bool.or_eq_true, decide_eq_true_eq,
    or_assoc]
  cases mappedIpv4 (plainText t) with
  | none => simp [or_assoc]
  | some q => simp

theorem mapped_colon (addr q : Text) (h : mappedIpv4 addr = some q) :
    addr = js "::ffff:"++q ∧ isDotted q = true := by
  simp only [mappedIpv4, Option.ite_none_right_eq_some, Bool.and_eq_true,
    List.isPrefixOf_iff_prefix, Option.some.injEq] at h
  obtain ⟨⟨⟨rest, rfl⟩, hd⟩, rfl⟩ := h
  have hdrop : (js "::ffff:"++rest).drop 7 = rest := rfl
  exact ⟨by rw [hdrop], hd⟩

theorem mappedIpv4_some (q : Text) (h : isDotted q = true) :
    mappedIpv4 (js "::ffff:"++q) = some q := by
  have hdrop : (js "::ffff:"++q).drop 7 = q := rfl
  have hpre : (js "::ffff:").isPrefixOf (js "::ffff:"++q) = true :=
    List.isPrefixOf_iff_prefix.mpr (List.prefix_append _ _)
  rw [mappedIpv4, hdrop, hpre, h, Bool.and_self, if_pos rfl]

theorem hexUnit_eq (a b : ℕ) (ha : a < 16) (hb : b < 16) : hexUnit a = hexUnit b ↔ a = b := by
  constructor
  · intro h
    have hread := hexDigit_hexUnit b hb
    rw [← h, hexDigit_hexUnit a ha] at hread
    exact Option.some.inj hread
  · exact congrArg hexUnit

theorem isPrivateIpv6_wide (t rest : Text) (a b c d : ℕ) (ha : a < 16) (hb : b < 16)
    (hc : c < 16) (hd : d < 16)
    (ht : plainText t = hexUnit a::hexUnit b::hexUnit c::hexUnit d::rest) :
    isPrivateIpv6 t = true ↔ (a = 15 ∧ b = 14 ∧ c = 8 ∧ d = 0) ∨ (a = 15 ∧ b = 12) ∨
      (a = 15 ∧ b = 13) ∨ (a = 15 ∧ b = 15) := by
  have hcolon : hexUnit a ≠ colon := (hexUnit_plain a ha).1
  have hmapped : mappedIpv4 (plainText t) = none := by
    cases hm : mappedIpv4 (plainText t) with
    | none => rfl
    | some q =>
      have heq := (mapped_colon _ q hm).1
      rw [ht] at heq
      exact absurd (List.cons.inj heq).1 hcolon
  have hone : ¬ plainText t = js "::1" := by
    rw [ht]
    exact fun h => hcolon (List.cons.inj h).1
  have hzero : ¬ plainText t = js "::" := by
    rw [ht]
    exact fun h => hcolon (List.cons.inj h).1
  have hfe : js "fe80" = [hexUnit 15, hexUnit 14, hexUnit 8, hexUnit 0] := by decide
  have hfc : js "fc" = [hexUnit 15, hexUnit 12] := by decide
  have hfd : js "fd" = [hexUnit 15, hexUnit 13] := by decide
  have hff : js "ff" = [hexUnit 15, hexUnit 15] := by decide
  rw [isPrivateIpv6_iff, hmapped, ht, hfe, hfc, hfd, hff]
  rw [ht] at hone hzero
  simp only [List.isPrefixOf, Bool.and_true, Bool.and_eq_true, beq_iff_eq, hone, hzero,
    hexUnit_eq _ _ _ ha, hexUnit_eq _ _ _ hb, hexUnit_eq _ _ _ hc, hexUnit_eq _ _ _ hd,
    Nat.reduceLT, reduceCtorEq, false_and, exists_false, false_or, true_and]
  omega

theorem dotted_units (q : Text) (h : isDotted q = true) :
    ∀ u ∈ q, isDigit u = true ∨ u = dot := by
  intro u hu
  by_cases hdot : u = dot
  · exact Or.inr hdot
  · obtain ⟨p, hp, hup⟩ := mem_of_splitOn dot u hdot q hu
    simp only [isDotted, Bool.and_eq_true, List.all_eq_true] at h
    exact Or.inl ((h.2 p hp).2 u hup)

theorem digit_plain (u : UInt16) (h : isDigit u = true ∨ u = dot) :
    isLetter u = false ∧ u ≠ colon ∧ u ≠ percent := by
  rcases h with h | rfl
  · constructor
    · simp only [isDigit, Bool.and_eq_true, decide_eq_true_eq, UInt16.le_iff_toNat_le,
        UInt16.reduceToNat] at h
      simp only [isLetter, Bool.or_eq_false_iff, Bool.and_eq_false_iff, decide_eq_false_iff_not,
        UInt16.le_iff_toNat_le, UInt16.reduceToNat]
      omega
    · constructor
      · rintro rfl
        exact absurd h (by decide)
      · rintro rfl
        exact absurd h (by decide)
  · decide

theorem dot_mem (q : Text) (h : isDotted q = true) : dot ∈ q := by
  by_contra hd
  rw [isDotted, List.splitOn_eq_singleton hd] at h
  simp at h

theorem dotted_of_read (q : Text) (y : Ipv4) (h : readIpv4 q = some y) : isDotted q = true := by
  obtain ⟨p, r, s, u, hs, hp, hr, hs', hu⟩ := readIpv4_split q y h
  simp [isDotted, hs, readOctet_number _ _ hp, readOctet_number _ _ hr, readOctet_number _ _ hs',
    readOctet_number _ _ hu]

theorem readGroup_dot (q : Text) (h : dot ∈ q) : readGroup q = none := by
  cases hg : readGroup q with
  | none => rfl
  | some g =>
    obtain ⟨ds, -, -, hlt, hmap, -⟩ := readGroup_digits q g hg
    have hmem := List.mem_map_of_mem (f := lowerUnit) h
    rw [hmap] at hmem
    obtain ⟨d, hd, heq⟩ := List.mem_map.mp hmem
    exact absurd heq (hexUnit_plain d (hlt d hd)).2.1

theorem lowerUnit_idem (u : UInt16) : lowerUnit (lowerUnit u) = lowerUnit u := by
  by_cases h : 0x41 ≤ u && u ≤ 0x5A
  · have hu : lowerUnit u = u+0x20 := if_pos h
    rw [hu, lowerUnit, if_neg]
    simp only [Bool.and_eq_true, decide_eq_true_eq, UInt16.le_iff_toNat_le, UInt16.toNat_add,
      UInt16.reduceToNat] at h ⊢
    omega
  · have hu : lowerUnit u = u := if_neg h
    rw [hu, hu]

theorem readGroup_ffff (p : Text) (h : p.map lowerUnit = js "ffff") :
    readGroup p = some 0xFFFF ∧ colon ∉ p := by
  have hlen : p.length = 4 := by
    have := congrArg List.length h
    rwa [List.length_map] at this
  have hdigits : p.mapM hexDigit = some [15, 15, 15, 15] := by
    have hlower : (p.map lowerUnit).mapM hexDigit = some [15, 15, 15, 15] := by
      rw [h]
      rfl
    rw [mapM_some_iff, List.forall₂_map_left_iff] at hlower
    simp only [hexDigit, lowerUnit_idem] at hlower
    exact (mapM_some_iff _ _ _).mpr hlower
  constructor
  · rw [readGroup, hlen, readHex, hdigits]
    rfl
  · intro hc
    have hmem := List.mem_map_of_mem (f := lowerUnit) hc
    rw [h] at hmem
    exact absurd hmem (by decide)

theorem mapped_groups (s q : Text) (x : Ipv6) (h : readIpv6 s = some x)
    (hs : s.map lowerUnit = js "::ffff:"++q) (hq : isDotted q = true) :
    ∃ y, readIpv4 q = some y ∧ x.groups = [0, 0, 0, 0, 0, 0xFFFF]++y.groups := by
  have hunits := fun u hu => digit_plain u (dotted_units q hq u hu)
  have hcolon : colon ∉ q := fun hm => (hunits colon hm).2.1 rfl
  have hsplit : s.map lowerUnit = js "::"++(js "ffff"++colon::q) := hs
  obtain ⟨s₁, s₂, rfl, h₁, h₂⟩ := List.map_eq_append_iff.mp hsplit
  obtain ⟨p, s₃, rfl, hp, h₃⟩ := List.map_eq_append_iff.mp h₂
  have h₁' : s₁ = js "::" := by
    apply map_lowerUnit s₁ _ _ h₁
    exact List.forall_mem_cons.mpr ⟨by decide, List.forall_mem_singleton.mpr (by decide)⟩
  have h₃' : s₃ = colon::q := by
    apply map_lowerUnit s₃ _ _ h₃
    exact List.forall_mem_cons.mpr ⟨by decide, fun u hu => (hunits u hu).1⟩
  subst h₁' h₃'
  obtain ⟨hgroup, hpc⟩ := readGroup_ffff p hp
  have hcut : cutGap (js "::"++(p++colon::q)) = some ([], p++colon::q) := rfl
  have hpieces : pieces (p++colon::q) = [p, q] := by
    have hne : p++colon::q ≠ [] := by simp
    rw [pieces, if_neg hne, List.splitOn_append_cons_self_of_not_mem hpc,
      List.splitOn_eq_singleton hcolon]
  have hleft : (pieces []).mapM readGroup = some [] := rfl
  rw [readIpv6, hcut] at h
  simp only [hleft, hpieces, readPieces, hgroup, Option.bind_some,
    readGroup_dot q (dot_mem q hq)] at h
  cases hy : readIpv4 q with
  | none =>
    rw [hy] at h
    cases h
  | some y =>
    rw [hy] at h
    have hlen : ([] : List UInt16).length+(0xFFFF::y.groups).length ≤ 7 := by simp [Ipv4.groups]
    simp only [Option.map_some, Option.bind_some, dif_pos hlen, Option.some.injEq] at h
    exact ⟨y, rfl, by rw [← h]; rfl⟩

theorem mapped_bits (x : Ipv6) (y : Ipv4) (h : x.groups = [0, 0, 0, 0, 0, 0xFFFF]++y.groups) :
    x.bits = 0xFFFF*2^32+y.bits ∧ y.bits < 2^32 := by
  have ha := y.a.toNat_lt
  have hb := y.b.toNat_lt
  have hc := y.c.toNat_lt
  have hd := y.d.toNat_lt
  have hhigh : (UInt16.ofNat (y.a.toNat*256+y.b.toNat)).toNat = y.a.toNat*256+y.b.toNat :=
    UInt16.toNat_ofNat_of_lt' (by change _ < 65536; omega)
  have hlow : (UInt16.ofNat (y.c.toNat*256+y.d.toNat)).toNat = y.c.toNat*256+y.d.toNat :=
    UInt16.toNat_ofNat_of_lt' (by change _ < 65536; omega)
  simp only [Ipv6.bits, h, Ipv4.groups, List.cons_append, List.nil_append, List.foldl_cons,
    List.foldl_nil, hhigh, hlow, UInt16.reduceToNat, Ipv4.bits]
  omega

theorem mapped_nonPublic (x : Ipv6) (y : Ipv4)
    (h : x.groups = [0, 0, 0, 0, 0, 0xFFFF]++y.groups) (hn : nonPublic (.v6 x) = true) :
    nonPublicIpv4 y.bits = true := by
  obtain ⟨hbits, hy⟩ := mapped_bits x y h
  simp only [nonPublic, Bool.or_eq_true, Bool.and_eq_true, decide_eq_true_eq] at hn
  have hmod : x.bits % 2^32 = y.bits := by omega
  rcases hn with ((((hn | hn) | hn) | hn) | hn) | hn
  · omega
  · omega
  · have := (isLinkLocal_iff x 0 _ h).mp hn
    simp at this
  · have := (isUniqueLocal_iff x 0 _ h).mp hn
    simp at this
  · have := (isMulticast_iff x 0 _ h).mp hn
    simp at this
  · rw [← hmod]
    exact hn.2

section Texts
variable (t : Text) (x : Ipv6)

theorem recognised_low (gs : List UInt16) (hx : x.groups = 0::gs)
    (h : readIpv6 (withoutZone t) = some x) (hn : nonPublic (.v6 x) = true)
    (ht : ∃ u rest, plainText t = u::rest ∧ u ≠ 0x66) :
    isPrivateIpv6 t = true ↔ Recognised t (.v6 x) := by
  have hpre : ∀ p, (0x66::p).isPrefixOf (plainText t) = false := by
    obtain ⟨u, rest, hu, hne⟩ := ht
    intro p
    rw [hu]
    simp [List.isPrefixOf, hne.symm]
  have hblocks : isUniqueLocal x = false ∧ isMulticast x = false ∧
      inBlock6 0xFE80 16 x = false := by
    simp only [← Bool.not_eq_true, isUniqueLocal_iff x 0 gs hx, isMulticast_iff x 0 gs hx,
      fe80_iff x 0 gs hx]
    decide
  have hmapped : (∃ q, mappedIpv4 (plainText t) = some q ∧ isPrivateIpv4 q = true) ↔
      ∃ q y, plainText t = js "::ffff:"++q ∧ readIpv4 q = some y := by
    constructor
    · rintro ⟨q, hq, -⟩
      obtain ⟨heq, hd⟩ := mapped_colon _ q hq
      obtain ⟨y, hy, -⟩ := mapped_groups _ q x h heq hd
      exact ⟨q, y, heq, hy⟩
    · rintro ⟨q, y, heq, hy⟩
      have hd := dotted_of_read q y hy
      obtain ⟨y', hy', hgroups⟩ := mapped_groups _ q x h heq hd
      apply Exists.intro q
      constructor
      · rw [heq]
        exact mappedIpv4_some q hd
      · exact isPrivateIpv4_nonPublic q y' hy' (mapped_nonPublic x y' hgroups hn)
  rw [isPrivateIpv6_iff, hmapped]
  simp only [Recognised, hblocks, Bool.false_eq_true, false_or]
  have hfe : js "fe80" = 0x66::js "e80" := rfl
  have hfc : js "fc" = 0x66::js "c" := rfl
  have hfd : js "fd" = 0x66::js "d" := rfl
  have hff : js "ff" = 0x66::js "f" := rfl
  simp only [hfe, hfc, hfd, hff, hpre, Bool.false_eq_true, or_false, and_false]
  exact or_left_comm

theorem recognised_wide (g : UInt16) (gs : List UInt16) (hx : x.groups = g::gs)
    (hg : 0x1000 ≤ g.toNat) (p rest : Text) (ht : withoutZone t = p++colon::rest)
    (hp : readGroup p = some g) : isPrivateIpv6 t = true ↔ Recognised t (.v6 x) := by
  obtain ⟨a, b, c, d, ⟨ha, hb, hc, hd⟩, hmap, hvalue⟩ := readGroup_wide p g hp hg
  have hplain : plainText t =
      hexUnit a::hexUnit b::hexUnit c::hexUnit d::(colon::rest).map lowerUnit := by
    rw [plainText, ht, List.map_append, hmap]
    rfl
  have hcolon : ∀ r, plainText t ≠ colon::r := by
    intro r hr
    rw [hplain] at hr
    exact (hexUnit_plain a ha).1 (List.cons.inj hr).1
  have hspell : ¬ (plainText t = js "::" ∨ plainText t = js "::1" ∨
      ∃ q y, plainText t = js "::ffff:"++q ∧ readIpv4 q = some y) := by
    rintro (hr | hr | ⟨q, y, hr, -⟩)
    · exact hcolon _ hr
    · exact hcolon _ hr
    · exact hcolon _ hr
  rw [isPrivateIpv6_wide t _ a b c d ha hb hc hd hplain]
  simp only [Recognised, hspell, or_false, isUniqueLocal_iff x g gs hx, isMulticast_iff x g gs hx,
    fe80_iff x g gs hx]
  omega

theorem recognised_iff (h : readIpv6 (withoutZone t) = some x) (hn : nonPublic (.v6 x) = true) :
    isPrivateIpv6 t = true ↔ Recognised t (.v6 x) := by
  obtain ⟨g, gs, hx, hhead⟩ := readIpv6_head _ x h
  rcases nonPublic_head x g gs hx hn with rfl | ⟨hg, -⟩
  · apply recognised_low t x gs hx h hn
    rcases hhead with ⟨-, rest, ht⟩ | ⟨p, rest, ht, hp⟩
    · exact ⟨colon, rest.map lowerUnit, by rw [plainText, ht]; rfl, by decide⟩
    · obtain ⟨q, rfl⟩ := readGroup_zero p hp
      exact ⟨0x30, (q++colon::rest).map lowerUnit, by rw [plainText, ht]; rfl, by decide⟩
  · rcases hhead with ⟨rfl, -⟩ | ⟨p, rest, ht, hp⟩
    · exact absurd hg (by decide)
    · exact recognised_wide t x g gs hx hg p rest ht hp

end Texts

theorem readIp_v4 (t : Text) (x : Ipv4) (h : readIp t = some (.v4 x)) :
    readIpv4 t = some x ∧ isPrivateIp t = isPrivateIpv4 t := by
  have hip : isPrivateIp t = isPrivateIpv4 t := by simp [isPrivateIp, isIP, h]
  unfold readIp at h
  cases hv : readIpv4 t with
  | some y =>
    rw [hv] at h
    cases h
    exact ⟨rfl, hip⟩
  | none =>
    rw [hv] at h
    simp at h

theorem readIp_v6 (t : Text) (x : Ipv6) (h : readIp t = some (.v6 x)) :
    readIpv6 (withoutZone t) = some x ∧ isPrivateIp t = isPrivateIpv6 t := by
  have hip : isPrivateIp t = isPrivateIpv6 t := by simp [isPrivateIp, isIP, h]
  unfold readIp at h
  cases hv : readIpv4 t with
  | some y =>
    rw [hv] at h
    cases h
  | none =>
    rw [hv] at h
    simp only [Option.ite_none_right_eq_some, Option.map_eq_some_iff, IpAddr.v6.injEq] at h
    obtain ⟨-, y, hy, rfl⟩ := h
    exact ⟨hy, hip⟩

theorem isPrivateIp_iff (t : Text) (x : IpAddr) (h : readIp t = some x)
    (hn : nonPublic x = true) : isPrivateIp t = true ↔ Recognised t x := by
  cases x with
  | v4 x =>
    obtain ⟨hx, hip⟩ := readIp_v4 t x h
    rw [hip, isPrivateIpv4_nonPublic t x hx hn]
    exact ⟨fun _ => trivial, fun _ => rfl⟩
  | v6 x =>
    obtain ⟨hx, hip⟩ := readIp_v6 t x h
    rw [hip]
    exact recognised_iff t x hx hn

theorem plainText_ipText (x : Ipv6) : plainText (ipText (.v6 x)) = ipv6Text x := by
  rw [plainText, ipText, (withoutZone_plain _ (ipv6Text_plain x).2).1, ipv6Text_lower]

section Canonical
variable (x : Ipv6)

theorem low_blocks (h : x.bits ≤ 1) : isMapped x = false ∧ isLinkLocal x = false := by
  obtain ⟨g, gs, hx⟩ := x.groups_cons
  have hg := low_head x g gs hx (by omega)
  subst hg
  constructor
  · rw [← Bool.not_eq_true, isMapped, inBlock_iff]
    omega
  · rw [← Bool.not_eq_true, isLinkLocal_iff x 0 gs hx]
    decide

theorem high_blocks (g : UInt16) (gs : List UInt16) (hx : x.groups = g::gs)
    (h : 0x1000 ≤ g.toNat) : isMapped x = false := by
  rw [← Bool.not_eq_true, isMapped, inBlock_iff]
  intro hm
  rw [low_head x g gs hx (by omega)] at h
  exact absurd h (by decide)

def unspecified : Ipv6 := ⟨[0, 0, 0, 0, 0, 0, 0, 0], rfl⟩

def loopback : Ipv6 := ⟨[0, 0, 0, 0, 0, 0, 0, 1], rfl⟩

theorem ipv6Text_eq (t : Text) (y : Ipv6) (hy : readIpv6 t = some y) (h : ipv6Text x = t) :
    x = y := by
  have hread := readIpv6_ipv6Text x
  rw [h, hy] at hread
  exact (Option.some.inj hread).symm

theorem legible_low (h : x.bits ≤ 1) : Legible (.v6 x) := by
  obtain ⟨hmapped, hlocal⟩ := low_blocks x h
  exact ⟨hmapped, fun hl => absurd hl (by simp [hlocal])⟩

theorem legible_of_recognised (h : Recognised (ipText (.v6 x)) (.v6 x)) : Legible (.v6 x) := by
  obtain ⟨g, gs, hx⟩ := x.groups_cons
  have hlegible : Legible (.v6 x) ↔
      isMapped x = false ∧ (0xFE80 ≤ g.toNat ∧ g.toNat ≤ 0xFEBF → g.toNat = 0xFE80) := by
    rw [Legible, isLinkLocal_iff x g gs hx, fe80_iff x g gs hx]
  simp only [Recognised, plainText_ipText] at h
  rcases h with h | h | h | h | h | ⟨q, y, h, hy⟩
  · rw [isUniqueLocal_iff x g gs hx] at h
    exact hlegible.mpr ⟨high_blocks x g gs hx (by omega), fun hl => by omega⟩
  · rw [isMulticast_iff x g gs hx] at h
    exact hlegible.mpr ⟨high_blocks x g gs hx (by omega), fun hl => by omega⟩
  · rw [fe80_iff x g gs hx] at h
    exact hlegible.mpr ⟨high_blocks x g gs hx (by omega), fun _ => h⟩
  · have hx' : x = unspecified := ipv6Text_eq x (js "::") unspecified (by decide) h
    exact legible_low x (by rw [hx']; decide)
  · have hx' : x = loopback := ipv6Text_eq x (js "::1") loopback (by decide) h
    exact legible_low x (by rw [hx']; decide)
  · have hdot : dot ∈ ipv6Text x := by
      rw [h]
      exact List.mem_append_right _ (dot_mem q (dotted_of_read q y hy))
    exact absurd hdot (ipv6Text_plain x).1

theorem recognised_of_legible (hn : nonPublic (.v6 x) = true) (h : Legible (.v6 x)) :
    Recognised (ipText (.v6 x)) (.v6 x) := by
  obtain ⟨hmapped, hlocal⟩ := h
  simp only [Recognised, plainText_ipText]
  simp only [nonPublic, hmapped, Bool.false_and, Bool.or_false, Bool.or_eq_true,
    decide_eq_true_eq] at hn
  rcases hn with (((hn | hn) | hn) | hn) | hn
  · have hx : x = unspecified := bits_injective x unspecified hn
    subst hx
    have htext : ipv6Text unspecified = js "::" := by decide
    simp [htext]
  · have hx : x = loopback := bits_injective x loopback hn
    subst hx
    have htext : ipv6Text loopback = js "::1" := by decide
    simp [htext]
  · simp [hlocal hn]
  · simp [hn]
  · simp [hn]

end Canonical

theorem legible_iff (x : IpAddr) (hn : nonPublic x = true) :
    Recognised (ipText x) x ↔ Legible x := by
  cases x with
  | v4 x => exact Iff.rfl
  | v6 x => exact ⟨legible_of_recognised x, recognised_of_legible x hn⟩

/-- Every spelling of an address that is not public is seen, and every URL of
such an address refused, except for the spellings that are not recognised. -/
theorem address_check_iff (R : Resolver) (cfg : Config) :
    (∀ t x, readIp t = some x →
      ((nonPublic x = true → isPrivateIp t = true) ↔ (nonPublic x = true → Recognised t x))) ∧
    ∀ rawUrl url x, R.parseUrl rawUrl = some url → url.hostname = hostText x →
      ((nonPublic x = true → ∃ message, assertSafeJwksUrl R cfg rawUrl = .error message) ↔
        (nonPublic x = true → schemeAllowed cfg url = false ∨ Legible x)) := by
  constructor
  · intro t x h
    exact forall_congr' (isPrivateIp_iff t x h)
  · intro rawUrl url x hp hx
    apply forall_congr'
    intro hn
    rw [assertSafeJwksUrl_host R cfg rawUrl url x hp hx,
      isPrivateIp_iff (ipText x) x (readIp_ipText x) hn, legible_iff x hn]

def mappedLoopback : IpAddr := .v6 ⟨[0, 0, 0, 0, 0, 0xFFFF, 0x7F00, 1], rfl⟩

def literalUrl : Url := ⟨js "http://[::ffff:7f00:1]/", js "http:", js "[::ffff:7f00:1]"⟩

def literalResolver : Resolver :=
  ⟨fun t => if t = literalUrl.href then some literalUrl else none, fun _ => none⟩

/-- The address `127.0.0.1`, mapped, in the spelling of a parsed URL. -/
theorem mapped_loopback_unseen :
    readIp (js "::ffff:7f00:1") = some mappedLoopback ∧ nonPublic mappedLoopback = true ∧
      isPrivateIp (js "::ffff:7f00:1") = false ∧ literalUrl.hostname = hostText mappedLoopback ∧
        assertSafeJwksUrl literalResolver ⟨false, []⟩ literalUrl.href = .ok literalUrl := by
  decide +kernel

theorem mapped_loopback_dotted : isPrivateIp (js "::FFFF:127.0.0.1%eth0") = true ∧
    ¬ ∃ message, assertSafeJwksUrl literalResolver ⟨false, []⟩ literalUrl.href =
      .error message := by
  have htext : readIp (js "::FFFF:127.0.0.1%eth0") = some mappedLoopback := by decide +kernel
  have hpublic : nonPublic mappedLoopback = true := by decide +kernel
  have hhost : literalUrl.hostname = hostText mappedLoopback := by decide +kernel
  have hscheme : schemeAllowed ⟨false, []⟩ literalUrl = true := by decide
  have hmapped : ¬ Legible mappedLoopback := fun h => absurd h.1 (by decide +kernel)
  have hseen : Recognised (js "::FFFF:127.0.0.1%eth0") mappedLoopback :=
    Or.inr (Or.inr (Or.inr (Or.inr (Or.inr
      ⟨js "127.0.0.1", ⟨127, 0, 0, 1⟩, by decide, by decide +kernel⟩))))
  constructor
  · have haddress := (address_check_iff literalResolver ⟨false, []⟩).1 _ mappedLoopback htext
    exact haddress.mpr (fun _ => hseen) hpublic
  · intro h
    have hurl := (address_check_iff literalResolver ⟨false, []⟩).2 literalUrl.href literalUrl
      mappedLoopback (by decide) hhost
    have hcond := hurl.mp (fun _ => h) hpublic
    rcases hcond with hs | hl
    · rw [hscheme] at hs
      cases hs
    · exact hmapped hl

end ControlPlane.PrivateAddress
