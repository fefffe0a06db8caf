import Mathlib.Data.List.MinMax
import Mathlib.Data.Nat.Digits.Lemmas
import ControlPlane.JsNumberText

/-!
# Addresses of the internet protocol as text

An address of version 4 is four decimal octets. An address of version 6 is
eight hexadecimal groups, one run of zeros may be left out, the last two groups
may be written as four octets, and a zone may follow. A reader of these
spellings gives back the address that the canonical writer was given.
-/

set_option autoImplicit false

namespace ControlPlane.IpText
open ControlPlane.JsText ControlPlane.JsNumberText

def colon : UInt16 := 0x3A

def percent : UInt16 := 0x25

structure Ipv4 where
  a : UInt8
  b : UInt8
  c : UInt8
  d : UInt8
  deriving DecidableEq, Repr

structure Ipv6 where
  groups : List UInt16
  length_eq : groups.length = 8
  deriving DecidableEq, Repr

inductive IpAddr where
  | v4 (a : Ipv4)
  | v6 (a : Ipv6)
  deriving DecidableEq, Repr

def Ipv4.bits (x : Ipv4) : ℕ := x.a.toNat*2^24+x.b.toNat*2^16+x.c.toNat*2^8+x.d.toNat

def Ipv6.bits (x : Ipv6) : ℕ := x.groups.foldl (fun n g => n*2^16+g.toNat) 0

def Ipv4.groups (x : Ipv4) : List UInt16 :=
  [UInt16.ofNat (x.a.toNat*256+x.b.toNat), UInt16.ofNat (x.c.toNat*256+x.d.toNat)]

/-- No leading zeros. -/
def readOctet (p : Text) : Option UInt8 :=
  if p.all isDigit && 1 ≤ p.length && p.length ≤ 3 && (p.length = 1 || p.head? ≠ some 0x30) &&
      digitsValue p ≤ 255 then some (UInt8.ofNat (digitsValue p))
  else none

def readIpv4 (t : Text) : Option Ipv4 :=
  match (t.splitOn dot).mapM readOctet with
  | some [a, b, c, d] => some ⟨a, b, c, d⟩
  | _ => none

def readGroup (p : Text) : Option UInt16 :=
  if 1 ≤ p.length && p.length ≤ 4 then (readHex p).map UInt16.ofNat else none

/-- What is before and after the first two colons in a row. -/
def cutGap : Text → Option (Text × Text)
  | [] => none
  | [_] => none
  | u::v::rest =>
    if u = colon && v = colon then some ([], rest)
    else (cutGap (v::rest)).map (fun p => (u::p.1, p.2))

def pieces (t : Text) : List Text := if t = [] then [] else t.splitOn colon

/-- The last piece may be four octets. -/
def readPieces : List Text → Option (List UInt16)
  | [] => some []
  | [p] =>
    match readIpv4 p with
    | some x => some x.groups
    | none => (readGroup p).map (fun g => [g])
  | p::q::ps => (readGroup p).bind (fun g => (readPieces (q::ps)).map (fun gs => g::gs))

def filled (ls rs : List UInt16) : List UInt16 :=
  ls++List.replicate (8-ls.length-rs.length) 0++rs

theorem filled_length (ls rs : List UInt16) (h : ls.length+rs.length ≤ 7) :
    (filled ls rs).length = 8 := by
  simp only [filled, List.length_append, List.length_replicate]
  omega

def readIpv6 (t : Text) : Option Ipv6 :=
  match cutGap t with
  | none =>
    (readPieces (pieces t)).bind (fun gs => if h : gs.length = 8 then some ⟨gs, h⟩ else none)
  | some (l, r) =>
    ((pieces l).mapM readGroup).bind (fun ls => (readPieces (pieces r)).bind (fun rs =>
      if h : ls.length+rs.length ≤ 7 then some ⟨filled ls rs, filled_length ls rs h⟩ else none))

/-- `0-9 a-z A-Z - . :` -/
def isZoneUnit (u : UInt16) : Bool :=
  isDigit u || (0x61 ≤ u && u ≤ 0x7A) || (0x41 ≤ u && u ≤ 0x5A) || u = 0x2D || u = dot ||
    u = colon

def isZone : Text → Bool
  | [] => true
  | _::zone => !zone.isEmpty && zone.all isZoneUnit

def withoutZone (t : Text) : Text := t.takeWhile (· ≠ percent)

def readIp (t : Text) : Option IpAddr :=
  match readIpv4 t with
  | some x => some (.v4 x)
  | none =>
    if isZone (t.dropWhile (· ≠ percent)) then (readIpv6 (withoutZone t)).map .v6 else none

def octetText (n : UInt8) : Text := if n = 0 then [0x30] else digitsText n.toNat

def ipv4Text (x : Ipv4) : Text :=
  [dot].intercalate [octetText x.a, octetText x.b, octetText x.c, octetText x.d]

def groupText (g : UInt16) : Text :=
  if g = 0 then [0x30] else (Nat.digits 16 g.toNat).reverse.map hexUnit

def joinGroups (gs : List UInt16) : Text := [colon].intercalate (gs.map groupText)

def zerosAt (gs : List UInt16) (i : ℕ) : ℕ := ((gs.drop i).takeWhile (· = 0)).length

/-- The first of the longest runs of zeros is left out, unless it is one group. -/
def ipv6Text (x : Ipv6) : Text :=
  let i := ((List.range 8).argmax (zerosAt x.groups)).getD 0
  let n := zerosAt x.groups i
  if 2 ≤ n then joinGroups (x.groups.take i)++colon::colon::joinGroups (x.groups.drop (i+n))
  else joinGroups x.groups

def ipText : IpAddr → Text
  | .v4 x => ipv4Text x
  | .v6 x => ipv6Text x

theorem hexUnit_plain (d : ℕ) (h : d < 16) :
    hexUnit d ≠ colon ∧ hexUnit d ≠ dot ∧ hexUnit d ≠ percent := by
  interval_cases d <;> decide

theorem digits_lt (n d : ℕ) (h : d ∈ Nat.digits 16 n) : d < 16 :=
  Nat.digits_lt_base (by norm_num) h

theorem groupText_units (g : UInt16) : ∀ u ∈ groupText g, ∃ d < 16, u = hexUnit d := by
  intro u hu
  unfold groupText at hu
  split_ifs at hu
  · exact ⟨0, by norm_num, List.mem_singleton.mp hu⟩
  · simp only [List.mem_map, List.mem_reverse] at hu
    obtain ⟨d, hd, rfl⟩ := hu
    exact ⟨d, digits_lt _ _ hd, rfl⟩

theorem groupText_plain (g : UInt16) :
    colon ∉ groupText g ∧ dot ∉ groupText g ∧ percent ∉ groupText g := by
  have h : ∀ u ∈ groupText g, u ≠ colon ∧ u ≠ dot ∧ u ≠ percent := by
    intro u hu
    obtain ⟨d, hd, rfl⟩ := groupText_units g u hu
    exact hexUnit_plain d hd
  exact ⟨fun hm => (h _ hm).1 rfl, fun hm => (h _ hm).2.1 rfl, fun hm => (h _ hm).2.2 rfl⟩

theorem groupText_length (g : UInt16) : 1 ≤ (groupText g).length ∧ (groupText g).length ≤ 4 := by
  unfold groupText
  split_ifs with h
  · simp
  · rw [List.length_map, List.length_reverse]
    have hne : g.toNat ≠ 0 := fun hz => h (UInt16.toNat_inj.mp hz)
    have hlt : g.toNat < 16^4 := g.toNat_lt
    constructor
    · exact List.length_pos_of_ne_nil (Nat.digits_ne_nil_iff_ne_zero.mpr hne)
    · exact (Nat.digits_length_le_iff (by norm_num) _).mpr hlt

theorem readHex_groupText (g : UInt16) : readHex (groupText g) = some g.toNat := by
  unfold groupText
  split_ifs with h
  · subst h
    rfl
  · have hds : ∀ d ∈ (Nat.digits 16 g.toNat).reverse, d < 16 := by
      intro d hd
      exact digits_lt _ _ (List.mem_reverse.mp hd)
    rw [readHex, mapM_hexUnit _ hds, Option.map_some, List.reverse_reverse, Nat.ofDigits_digits]

theorem readGroup_groupText (g : UInt16) : readGroup (groupText g) = some g := by
  have hlen := groupText_length g
  simp only [readGroup, hlen, decide_true, Bool.and_self, if_true, readHex_groupText,
    Option.map_some, UInt16.ofNat_toNat]

theorem mapM_readGroup (gs : List UInt16) : (gs.map groupText).mapM readGroup = some gs := by
  rw [mapM_some_iff, List.forall₂_map_left_iff, List.forall₂_same]
  intro g _
  exact readGroup_groupText g

theorem readIpv4_plain (t : Text) (h : dot ∉ t) : readIpv4 t = none := by
  rw [readIpv4, List.splitOn_eq_singleton h]
  cases hr : readOctet t <;> simp [hr]

theorem readPieces_groups (gs : List UInt16) : readPieces (gs.map groupText) = some gs := by
  induction gs with
  | nil => rfl
  | cons g gs ih =>
    cases gs with
    | nil =>
      simp only [List.map_cons, List.map_nil, readPieces,
        readIpv4_plain _ (groupText_plain g).2.1, readGroup_groupText, Option.map_some]
    | cons g' gs =>
      simp only [List.map_cons, readPieces] at ih ⊢
      rw [readGroup_groupText, ih]
      rfl

theorem joinGroups_cons (g g' : UInt16) (gs : List UInt16) :
    joinGroups (g::g'::gs) = groupText g++colon::joinGroups (g'::gs) := by
  simp [joinGroups, List.intercalate_cons_cons]

theorem joinGroups_singleton (g : UInt16) : joinGroups [g] = groupText g :=
  List.intercalate_singleton

theorem joinGroups_head (g : UInt16) (gs : List UInt16) :
    ∃ u t, joinGroups (g::gs) = u::t ∧ u ≠ colon := by
  obtain ⟨u, t, ht⟩ := List.exists_cons_of_length_pos (groupText_length g).1
  have hu : u ≠ colon := by
    intro hu
    exact (groupText_plain g).1 (by rw [ht, hu]; exact List.mem_cons_self)
  cases gs with
  | nil => exact ⟨u, t, by rw [joinGroups_singleton, ht], hu⟩
  | cons g' gs => exact ⟨u, t++colon::joinGroups (g'::gs), by rw [joinGroups_cons, ht]; rfl, hu⟩

theorem pieces_joinGroups (gs : List UInt16) : pieces (joinGroups gs) = gs.map groupText := by
  cases gs with
  | nil => rfl
  | cons g gs =>
    obtain ⟨u, t, ht, -⟩ := joinGroups_head g gs
    have hne : joinGroups (g::gs) ≠ [] := by simp [ht]
    rw [pieces, if_neg hne, joinGroups, List.splitOn_intercalate]
    · intro l hl
      obtain ⟨g', -, rfl⟩ := List.mem_map.mp hl
      exact (groupText_plain g').1
    · simp

theorem cutGap_unit (u : UInt16) (t : Text) (h : u ≠ colon ∨ t.head? ≠ some colon) :
    cutGap (u::t) = (cutGap t).map (fun p => (u::p.1, p.2)) := by
  cases t with
  | nil => rfl
  | cons v rest =>
    have hne : ¬ (u = colon && v = colon) = true := by
      simp only [Bool.and_eq_true, decide_eq_true_eq, not_and]
      intro hu hv
      rcases h with h | h
      · exact h hu
      · exact h (by rw [hv]; rfl)
    simp only [cutGap, hne, if_false, Bool.false_eq_true]

theorem cutGap_token (p t : Text) (h : colon ∉ p) :
    cutGap (p++t) = (cutGap t).map (fun q => (p++q.1, q.2)) := by
  induction p with
  | nil => simp
  | cons u p ih =>
    have hu : u ≠ colon := fun hc => h (hc ▸ List.mem_cons_self)
    rw [List.cons_append, cutGap_unit u _ (Or.inl hu),
      ih (fun hm => h (List.mem_cons_of_mem u hm)), Option.map_map]
    rfl

theorem cutGap_join (gs : List UInt16) (t : Text) :
    cutGap (joinGroups gs++t) = (cutGap t).map (fun q => (joinGroups gs++q.1, q.2)) := by
  induction gs with
  | nil => simp [joinGroups]
  | cons g gs ih =>
    cases gs with
    | nil =>
      rw [joinGroups_singleton]
      exact cutGap_token _ _ (groupText_plain g).1
    | cons g' gs =>
      obtain ⟨u, rest, hjoin, hu⟩ := joinGroups_head g' gs
      have hhead : (joinGroups (g'::gs)++t).head? ≠ some colon := by
        rw [hjoin]
        simpa using hu
      rw [joinGroups_cons, List.append_assoc, List.cons_append,
        cutGap_token _ _ (groupText_plain g).1, cutGap_unit _ _ (Or.inr hhead), ih,
        Option.map_map, Option.map_map]
      congr 1
      funext q
      simp

theorem cutGap_joinGroups (gs : List UInt16) : cutGap (joinGroups gs) = none := by
  have h := cutGap_join gs []
  rwa [List.append_nil] at h

theorem cutGap_gap (gs : List UInt16) (t : Text) :
    cutGap (joinGroups gs++colon::colon::t) = some (joinGroups gs, t) := by
  rw [cutGap_join]
  simp [cutGap]

theorem zerosAt_le (gs : List UInt16) (i : ℕ) : zerosAt gs i ≤ gs.length-i := by
  rw [zerosAt, ← List.length_drop]
  exact (List.takeWhile_prefix _).length_le

theorem zerosAt_take (gs : List UInt16) (i : ℕ) :
    (gs.drop i).take (zerosAt gs i) = List.replicate (zerosAt gs i) 0 := by
  have htake := List.prefix_iff_eq_take.mp (List.takeWhile_prefix (l := gs.drop i) (· = 0))
  rw [zerosAt, ← htake, List.eq_replicate_iff]
  constructor
  · rfl
  · intro g hg
    simpa using List.mem_takeWhile_imp hg

theorem filled_zeros (gs : List UInt16) (i : ℕ) (hlen : gs.length = 8) (hi : i ≤ 8) :
    filled (gs.take i) (gs.drop (i+zerosAt gs i)) = gs := by
  have hle := zerosAt_le gs i
  have hcount : 8-(gs.take i).length-(gs.drop (i+zerosAt gs i)).length = zerosAt gs i := by
    rw [List.length_take, List.length_drop]
    omega
  rw [filled, hcount, ← zerosAt_take, List.append_assoc, ← List.drop_drop, List.take_append_drop,
    List.take_append_drop]

theorem readIpv6_ipv6Text (x : Ipv6) : readIpv6 (ipv6Text x) = some x := by
  unfold ipv6Text
  generalize hi : ((List.range 8).argmax (zerosAt x.groups)).getD 0 = i
  have hi8 : i < 8 := by
    cases hm : (List.range 8).argmax (zerosAt x.groups) with
    | none =>
      rw [hm] at hi
      exact hi ▸ by norm_num
    | some j =>
      rw [hm] at hi
      exact hi ▸ List.mem_range.mp (List.argmax_mem hm)
  have hle := zerosAt_le x.groups i
  have hlen := x.length_eq
  simp only
  split_ifs with h
  · have hsum : (x.groups.take i).length+(x.groups.drop (i+zerosAt x.groups i)).length ≤ 7 := by
      rw [List.length_take, List.length_drop]
      omega
    simp only [readIpv6, cutGap_gap, pieces_joinGroups, mapM_readGroup, readPieces_groups,
      Option.bind_some, hsum, dif_pos, filled_zeros x.groups i hlen hi8.le]
  · simp only [readIpv6, cutGap_joinGroups, pieces_joinGroups, readPieces_groups, Option.bind_some,
      hlen, dif_pos]

theorem readOctet_octetText (n : UInt8) : readOctet (octetText n) = some n := by
  have h : ∀ k : Fin 256, readOctet (octetText (UInt8.ofNat k)) = some (UInt8.ofNat k) := by
    decide +kernel
  have hn := h ⟨n.toNat, n.toNat_lt⟩
  rwa [UInt8.ofNat_toNat] at hn

theorem octetText_digits (n : UInt8) : ∀ u ∈ octetText n, isDigit u = true := by
  intro u hu
  unfold octetText at hu
  split_ifs at hu
  · rw [List.mem_singleton.mp hu]
    rfl
  · exact digitsText_digits _ u hu

theorem ipv4Text_units (x : Ipv4) : ∀ u ∈ ipv4Text x, isDigit u = true ∨ u = dot := by
  intro u hu
  simp only [ipv4Text, List.intercalate_cons_cons, List.intercalate_singleton, List.mem_append,
    List.mem_singleton] at hu
  have hdigits := fun n (hn : u ∈ octetText n) => octetText_digits n u hn
  rcases hu with (hu | hu) | (hu | hu) | (hu | hu) | hu
  · exact Or.inl (hdigits _ hu)
  · exact Or.inr hu
  · exact Or.inl (hdigits _ hu)
  · exact Or.inr hu
  · exact Or.inl (hdigits _ hu)
  · exact Or.inr hu
  · exact Or.inl (hdigits _ hu)

theorem readIpv4_ipv4Text (x : Ipv4) : readIpv4 (ipv4Text x) = some x := by
  have hplain : ∀ l ∈ [octetText x.a, octetText x.b, octetText x.c, octetText x.d], dot ∉ l := by
    intro l hl hdot
    have hdigits : ∃ n, l = octetText n := by
      simp only [List.mem_cons, List.not_mem_nil, or_false] at hl
      rcases hl with rfl | rfl | rfl | rfl <;> exact ⟨_, rfl⟩
    obtain ⟨n, rfl⟩ := hdigits
    exact absurd (octetText_digits n dot hdot) (by decide)
  rw [readIpv4, ipv4Text, List.splitOn_intercalate dot hplain (by simp)]
  simp [readOctet_octetText]

def CanonicalUnit (u : UInt16) : Prop := (∃ d < 16, u = hexUnit d) ∨ u = colon

theorem joinGroups_units (gs : List UInt16) : ∀ u ∈ joinGroups gs, CanonicalUnit u := by
  induction gs with
  | nil => simp [joinGroups]
  | cons g gs ih =>
    have hg := fun u hu => Or.inl (b := u = colon) (groupText_units g u hu)
    cases gs with
    | nil =>
      rw [joinGroups_singleton]
      exact hg
    | cons g' gs =>
      rw [joinGroups_cons, List.forall_mem_append, List.forall_mem_cons]
      exact ⟨hg, Or.inr rfl, ih⟩

theorem ipv6Text_units (x : Ipv6) : ∀ u ∈ ipv6Text x, CanonicalUnit u := by
  unfold ipv6Text
  simp only
  split_ifs
  · rw [List.forall_mem_append, List.forall_mem_cons, List.forall_mem_cons]
    exact ⟨joinGroups_units _, Or.inr rfl, Or.inr rfl, joinGroups_units _⟩
  · exact joinGroups_units _

theorem canonicalUnit_plain (u : UInt16) (h : CanonicalUnit u) :
    u ≠ dot ∧ u ≠ percent ∧ lowerUnit u = u := by
  rcases h with ⟨d, hd, rfl⟩ | rfl
  · interval_cases d <;> decide
  · decide

theorem ipv6Text_plain (x : Ipv6) : dot ∉ ipv6Text x ∧ percent ∉ ipv6Text x := by
  have h := fun u hu => canonicalUnit_plain u (ipv6Text_units x u hu)
  exact ⟨fun hu => (h dot hu).1 rfl, fun hu => (h percent hu).2.1 rfl⟩

theorem ipv6Text_lower (x : Ipv6) : (ipv6Text x).map lowerUnit = ipv6Text x := by
  conv_rhs => rw [← List.map_id (ipv6Text x)]
  apply List.map_congr_left
  intro u hu
  exact (canonicalUnit_plain u (ipv6Text_units x u hu)).2.2

theorem withoutZone_plain (t : Text) (h : percent ∉ t) :
    withoutZone t = t ∧ t.dropWhile (· ≠ percent) = [] := by
  have hall : ∀ u ∈ t, decide (u ≠ percent) = true :=
    fun u hu => decide_eq_true (fun hu' => h (hu' ▸ hu))
  exact ⟨List.takeWhile_eq_self_iff.mpr hall, List.dropWhile_eq_nil_iff.mpr hall⟩

theorem readIp_ipText (x : IpAddr) : readIp (ipText x) = some x := by
  cases x with
  | v4 x => simp only [readIp, ipText, readIpv4_ipv4Text]
  | v6 x =>
    obtain ⟨hdot, hzone⟩ := ipv6Text_plain x
    obtain ⟨htake, hdrop⟩ := withoutZone_plain _ hzone
    simp only [readIp, ipText, readIpv4_plain _ hdot, hdrop, isZone, if_true, htake,
      readIpv6_ipv6Text, Option.map_some]

theorem mapM_hexDigit (p : Text) (ds : List ℕ) (h : p.mapM hexDigit = some ds) :
    p.length = ds.length ∧ (∀ d ∈ ds, d < 16) ∧ p.map lowerUnit = ds.map hexUnit := by
  rw [mapM_some_iff] at h
  induction h with
  | nil => simp
  | cons hu _ ih =>
    obtain ⟨hlen, hlt, hmap⟩ := ih
    have hd := hexDigit_some _ _ hu
    exact ⟨by simp [hlen], List.forall_mem_cons.mpr ⟨hd.1, hlt⟩, by simp [hd.2, hmap]⟩

theorem readGroup_digits (p : Text) (g : UInt16) (h : readGroup p = some g) :
    ∃ ds : List ℕ, 1 ≤ ds.length ∧ ds.length ≤ 4 ∧ (∀ d ∈ ds, d < 16) ∧
      p.map lowerUnit = ds.map hexUnit ∧ g.toNat = Nat.ofDigits 16 ds.reverse := by
  simp only [readGroup, readHex, Option.ite_none_right_eq_some, Bool.and_eq_true,
    decide_eq_true_eq, Option.map_map, Option.map_eq_some_iff] at h
  obtain ⟨hlen, ds, hds, rfl⟩ := h
  obtain ⟨hp, hlt, hmap⟩ := mapM_hexDigit p ds hds
  have hvalue : Nat.ofDigits 16 ds.reverse < 16^4 := by
    have hpow := Nat.ofDigits_lt_base_pow_length (b := 16) (l := ds.reverse) (by norm_num)
      (fun d hd => hlt d (List.mem_reverse.mp hd))
    apply hpow.trans_le
    apply Nat.pow_le_pow_right (by norm_num)
    rw [List.length_reverse]
    omega
  exact ⟨ds, by omega, by omega, hlt, hmap, UInt16.toNat_ofNat_of_lt' hvalue⟩

def isLetter (u : UInt16) : Bool := (0x41 ≤ u && u ≤ 0x5A) || (0x61 ≤ u && u ≤ 0x7A)

theorem lowerUnit_iff (u v : UInt16) (hv : isLetter v = false) : lowerUnit u = v ↔ u = v := by
  simp only [isLetter, Bool.or_eq_false_iff, Bool.and_eq_false_iff, decide_eq_false_iff_not,
    UInt16.le_iff_toNat_le, UInt16.reduceToNat, not_le] at hv
  unfold lowerUnit
  split_ifs with hu
  · simp only [Bool.and_eq_true, decide_eq_true_eq, UInt16.le_iff_toNat_le,
      UInt16.reduceToNat] at hu
    have hadd : (u+0x20).toNat = u.toNat+0x20 := by
      simp only [UInt16.toNat_add, UInt16.reduceToNat]
      omega
    rw [← UInt16.toNat_inj, ← UInt16.toNat_inj, hadd]
    omega
  · rfl

theorem map_lowerUnit (s t : Text) (ht : ∀ u ∈ t, isLetter u = false)
    (h : s.map lowerUnit = t) : s = t := by
  induction s generalizing t with
  | nil => exact h
  | cons u s ih =>
    subst h
    simp only [List.map_cons, List.forall_mem_cons] at ht
    have hu := (lowerUnit_iff u (lowerUnit u) ht.1).mp rfl
    rw [List.map_cons, ← hu, ← ih (s.map lowerUnit) ht.2 rfl]

theorem readGroup_zero (p : Text) (h : readGroup p = some 0) : ∃ rest, p = 0x30::rest := by
  obtain ⟨ds, hlen, -, -, hmap, hvalue⟩ := readGroup_digits p 0 h
  obtain ⟨d, ds, rfl⟩ := List.exists_cons_of_length_pos hlen
  have hd : d = 0 := by
    rw [List.reverse_cons, Nat.ofDigits_append, Nat.ofDigits_singleton] at hvalue
    have hzero : 16^ds.reverse.length*d = 0 := (Nat.add_eq_zero_iff.mp hvalue.symm).2
    exact (Nat.mul_eq_zero.mp hzero).resolve_left (by positivity)
  cases p with
  | nil => cases hmap
  | cons u p =>
    rw [List.map_cons, List.map_cons, List.cons.injEq, hd] at hmap
    exact ⟨p, by rw [(lowerUnit_iff u 0x30 (by decide)).mp hmap.1]⟩

theorem readGroup_wide (p : Text) (g : UInt16) (h : readGroup p = some g)
    (hg : 0x1000 ≤ g.toNat) :
    ∃ a b c d, (a < 16 ∧ b < 16 ∧ c < 16 ∧ d < 16) ∧
      p.map lowerUnit = [hexUnit a, hexUnit b, hexUnit c, hexUnit d] ∧
        g.toNat = a*4096+b*256+c*16+d := by
  obtain ⟨ds, -, hlen, hlt, hmap, hvalue⟩ := readGroup_digits p g h
  have hpow := Nat.ofDigits_lt_base_pow_length (b := 16) (l := ds.reverse) (by norm_num)
    (fun d hd => hlt d (List.mem_reverse.mp hd))
  rw [← hvalue, List.length_reverse] at hpow
  have hfour : ds.length = 4 := by
    by_contra hne
    have hle : 16^ds.length ≤ 16^3 := Nat.pow_le_pow_right (by norm_num) (by omega)
    omega
  match ds, hfour with
  | [a, b, c, d], _ =>
    have hlt' : a < 16 ∧ b < 16 ∧ c < 16 ∧ d < 16 := by simpa using hlt
    refine ⟨a, b, c, d, hlt', hmap, ?_⟩
    rw [hvalue]
    simp [Nat.ofDigits]
    ring

theorem cutGap_some (t l r : Text) (h : cutGap t = some (l, r)) : t = l++colon::colon::r := by
  induction t using cutGap.induct generalizing l with
  | case1 => cases h
  | case2 u => cases h
  | case3 u v rest huv =>
    simp only [cutGap, huv, if_true, Option.some.injEq, Prod.mk.injEq] at h
    obtain ⟨rfl, rfl⟩ := h
    simp only [Bool.and_eq_true, decide_eq_true_eq] at huv
    rw [huv.1, huv.2]
    rfl
  | case4 u v rest huv ih =>
    simp only [cutGap, huv, if_false, Bool.false_eq_true, Option.map_eq_some_iff] at h
    obtain ⟨⟨l', r'⟩, hcut, heq⟩ := h
    cases heq
    rw [ih l' hcut]
    rfl

theorem splitOn_cases (t : Text) : t.splitOn colon = [t] ∨
    ∃ p q ps rest, t.splitOn colon = p::q::ps ∧ t = p++colon::rest := by
  have hjoin : [colon].intercalate (t.splitOn colon) = t := List.intercalate_splitOn colon
  cases hs : t.splitOn colon with
  | nil => exact absurd hs (List.splitOn_ne_nil colon t)
  | cons p ps =>
    rw [hs] at hjoin
    cases ps with
    | nil =>
      rw [List.intercalate_singleton] at hjoin
      exact Or.inl (by rw [hjoin])
    | cons q ps =>
      rw [List.intercalate_cons_cons, List.append_assoc] at hjoin
      exact Or.inr ⟨p, q, ps, [colon].intercalate (q::ps), rfl, hjoin.symm⟩

theorem mapM_cons_some (p : Text) (ps : List Text) (gs : List UInt16)
    (h : (p::ps).mapM readGroup = some gs) : ∃ g gs', readGroup p = some g ∧ gs = g::gs' := by
  rw [mapM_some_iff, List.forall₂_cons_left_iff] at h
  obtain ⟨g, gs', hg, -, rfl⟩ := h
  exact ⟨g, gs', hg, rfl⟩

theorem readPieces_single (p : Text) (gs : List UInt16) (h : readPieces [p] = some gs) :
    gs.length ≤ 2 := by
  simp only [readPieces] at h
  split at h
  · cases h
    simp [Ipv4.groups]
  · obtain ⟨g, -, rfl⟩ := Option.map_eq_some_iff.mp h
    simp

theorem whole_head (t : Text) (x : Ipv6) (hcut : cutGap t = none) (h : readIpv6 t = some x) :
    ∃ g gs p rest, x.groups = g::gs ∧ t = p++colon::rest ∧ readGroup p = some g := by
  unfold readIpv6 at h
  rw [hcut] at h
  simp only [Option.bind_eq_some_iff, Option.dite_none_right_eq_some, Option.some.injEq] at h
  obtain ⟨gs, hgs, hlen, rfl⟩ := h
  by_cases ht : t = []
  · rw [pieces, if_pos ht] at hgs
    cases hgs
    cases hlen
  rw [pieces, if_neg ht] at hgs
  rcases splitOn_cases t with hs | ⟨p, q, ps, rest, hs, hrest⟩
  · rw [hs] at hgs
    have := readPieces_single t gs hgs
    omega
  · rw [hs, readPieces] at hgs
    simp only [Option.bind_eq_some_iff, Option.map_eq_some_iff] at hgs
    obtain ⟨g, hg, gs', -, rfl⟩ := hgs
    exact ⟨g, gs', p, rest, rfl, hrest, hg⟩

theorem readIpv6_head (t : Text) (x : Ipv6) (h : readIpv6 t = some x) :
    ∃ g gs, x.groups = g::gs ∧ ((g = 0 ∧ ∃ rest, t = colon::rest) ∨
      ∃ p rest, t = p++colon::rest ∧ readGroup p = some g) := by
  cases hcut : cutGap t with
  | none =>
    obtain ⟨g, gs, p, rest, hgroups, ht, hg⟩ := whole_head t x hcut h
    exact ⟨g, gs, hgroups, Or.inr ⟨p, rest, ht, hg⟩⟩
  | some lr =>
    obtain ⟨l, r⟩ := lr
    have ht := cutGap_some t l r hcut
    unfold readIpv6 at h
    rw [hcut] at h
    simp only [Option.bind_eq_some_iff, Option.dite_none_right_eq_some, Option.some.injEq] at h
    obtain ⟨ls, hls, rs, -, hlen, rfl⟩ := h
    by_cases hl : l = []
    · rw [pieces, if_pos hl, List.mapM_nil] at hls
      cases hls
      obtain ⟨n, hn⟩ : ∃ n, 8-([] : List UInt16).length-rs.length = n+1 := by
        apply Exists.intro (7-rs.length)
        simp only [List.length_nil] at hlen ⊢
        omega
      apply Exists.intro 0
      apply Exists.intro (List.replicate n 0++rs)
      constructor
      · simp only [filled, hn]
        rfl
      · exact Or.inl ⟨rfl, colon::r, by rw [ht, hl]; rfl⟩
    rw [pieces, if_neg hl] at hls
    rcases splitOn_cases l with hs | ⟨p, q, ps, rest, hs, hrest⟩
    · rw [hs] at hls
      obtain ⟨g, gs, hg, rfl⟩ := mapM_cons_some l [] ls hls
      exact ⟨g, _, rfl, Or.inr ⟨l, colon::r, ht, hg⟩⟩
    · rw [hs] at hls
      obtain ⟨g, gs, hg, rfl⟩ := mapM_cons_some p (q::ps) ls hls
      apply Exists.intro g
      apply Exists.intro _
      constructor
      · rfl
      · exact Or.inr ⟨p, rest++colon::colon::r, by rw [ht, hrest]; simp, hg⟩

theorem splitOn_head (a : UInt16) (t : Text) : (t.splitOn a).headD [] = t.takeWhile (· ≠ a) := by
  induction t with
  | nil => simp
  | cons u t ih =>
    rw [List.splitOn_cons_eq_if_modifyHead]
    by_cases hu : u = a
    · simp [hu]
    · obtain ⟨p, ps, hp⟩ := List.exists_cons_of_ne_nil (List.splitOn_ne_nil a t)
      rw [hp, List.headD_cons] at ih
      simp [hu, hp, ih]

theorem Ipv6.groups_cons (x : Ipv6) : ∃ g gs, x.groups = g::gs := by
  apply List.exists_cons_of_length_pos
  rw [x.length_eq]
  norm_num

theorem foldl_bits (gs : List UInt16) (n : ℕ) :
    gs.foldl (fun n g => n*2^16+g.toNat) n =
      n*2^(16*gs.length)+gs.foldl (fun n g => n*2^16+g.toNat) 0 := by
  induction gs generalizing n with
  | nil => simp
  | cons g gs ih =>
    rw [List.foldl_cons, List.foldl_cons, ih (n*2^16+g.toNat), ih (0*2^16+g.toNat),
      List.length_cons, Nat.mul_add, pow_add]
    ring

theorem foldl_bits_lt (gs : List UInt16) :
    gs.foldl (fun n g => n*2^16+g.toNat) 0 < 2^(16*gs.length) := by
  induction gs with
  | nil => simp
  | cons g gs ih =>
    have hg : (g.toNat+1)*2^(16*gs.length) ≤ 2^16*2^(16*gs.length) :=
      Nat.mul_le_mul_right _ g.toNat_lt
    rw [List.foldl_cons, foldl_bits, List.length_cons, Nat.mul_add, pow_add, Nat.zero_mul,
      Nat.zero_add, Nat.mul_comm (2^(16*gs.length))]
    rw [Nat.add_mul, Nat.one_mul] at hg
    omega

theorem bits_head (x : Ipv6) (g : UInt16) (gs : List UInt16) (h : x.groups = g::gs) :
    ∃ r < 2^112, x.bits = g.toNat*2^112+r := by
  have hlen := x.length_eq
  rw [h, List.length_cons] at hlen
  have hgs : 16*gs.length = 112 := by omega
  apply Exists.intro (gs.foldl (fun n g => n*2^16+g.toNat) 0)
  constructor
  · exact hgs ▸ foldl_bits_lt gs
  · rw [Ipv6.bits, h, List.foldl_cons, foldl_bits, hgs, Nat.zero_mul, Nat.zero_add]

theorem foldl_bits_injective (gs hs : List UInt16) (hlen : gs.length = hs.length)
    (h : gs.foldl (fun n g => n*2^16+g.toNat) 0 = hs.foldl (fun n g => n*2^16+g.toNat) 0) :
    gs = hs := by
  induction gs generalizing hs with
  | nil => exact (List.length_eq_zero_iff.mp hlen.symm).symm
  | cons g gs ih =>
    cases hs with
    | nil => cases hlen
    | cons g' hs =>
      have hlen' : gs.length = hs.length := Nat.succ.inj hlen
      have hr := foldl_bits_lt gs
      have hr' := foldl_bits_lt hs
      rw [List.foldl_cons, List.foldl_cons, foldl_bits gs, foldl_bits hs, Nat.zero_mul,
        Nat.zero_add, Nat.zero_add, hlen'] at h
      rw [hlen'] at hr
      have hhead : g.toNat = g'.toNat := by
        have hdiv := congrArg (· / 2^(16*hs.length)) h
        rwa [Nat.mul_comm, Nat.mul_add_div (by positivity), Nat.div_eq_of_lt hr, Nat.mul_comm,
          Nat.mul_add_div (by positivity), Nat.div_eq_of_lt hr'] at hdiv
      rw [hhead] at h
      rw [UInt16.toNat_inj.mp hhead, ih hs hlen' (Nat.add_left_cancel h)]

theorem bits_injective (x y : Ipv6) (h : x.bits = y.bits) : x = y := by
  cases x with
  | mk gs hgs =>
    cases y with
    | mk hs hhs =>
      have heq := foldl_bits_injective gs hs (hgs.trans hhs.symm) h
      subst heq
      rfl

end ControlPlane.IpText
