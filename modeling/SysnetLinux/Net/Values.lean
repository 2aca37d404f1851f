/-
  SysnetLinux.Net.Values

  The byte slices of `net` as the values of `net/netip`.

  A slice represents an address when it is one of its forms; a network denotes a prefix when
  its address represents the prefix's and its mask is the canonical one of the family.  On
  networks in the short form (`IPNet.ofPrefix`) the operations of `net` compute those of
  `netip`.
-/

import SysnetLinux.Net

namespace SysnetLinux.Net

open Bytes LeadingBits Netip

/-! ## Addresses -/

/-- The short form of an address. -/
def addrBytes : Addr → IP
  | .zero => []
  | .v4 ip => ofWord 4 ip
  | .v6 ip _ => ofWord 16 ip

/-- The forms of an address: both of an IPv4 address, and the bytes of an IPv6 address that
    is no mapped one. -/
inductive Represents : IP → Addr → Prop where
  | short (ip : BitVec 32) : Represents (ofWord 4 ip) (.v4 ip)
  | long (ip : BitVec 32) : Represents (v4InV6Prefix ++ ofWord 4 ip) (.v4 ip)
  | v6 (ip : BitVec 128) (h : (Addr.v6 ip "").is4In6 = false) :
      Represents (ofWord 16 ip) (.v6 ip "")

theorem to4_short (ip : BitVec 32) : to4 (ofWord 4 ip) = some (ofWord 4 ip) :=
  if_pos length_ofWord

theorem to4_long (ip : BitVec 32) : to4 (v4InV6Prefix ++ ofWord 4 ip) = some (ofWord 4 ip) := by
  have hlen : (v4InV6Prefix ++ ofWord 4 ip).length = 16 := by
    rw [List.length_append, length_ofWord]
    rfl
  rw [to4, if_neg (by omega), if_pos ⟨hlen, List.take_left' rfl⟩]
  exact congrArg some (List.drop_left' rfl)

/-- Sixteen bytes start with the mapped prefix when the address is mapped. -/
theorem take_eq_v4InV6Prefix_iff {ip : BitVec 128} {z : String} :
    (ofWord 16 ip).take 12 = v4InV6Prefix ↔ (Addr.v6 ip z).is4In6 = true := by
  have hbytes : v4InV6Prefix = (ofWord 16 (0xffff#128 <<< 32)).take 12 := by decide +kernel
  have hshift : (0xffff#128 <<< 32) >>> 32 = 0xffff#128 := by decide +kernel
  rw [hbytes, take_ofWord_iff (by omega) (by omega), agree_iff_ushiftRight (by omega), hshift]
  exact beq_iff_eq.symm

theorem to4_v6 {ip : BitVec 128} {z : String} (h : (Addr.v6 ip z).is4In6 = false) :
    to4 (ofWord 16 ip) = none := by
  have htake : (ofWord 16 ip).take 12 ≠ v4InV6Prefix := by
    rw [ne_eq, take_eq_v4InV6Prefix_iff (z := z), h]
    exact Bool.false_ne_true
  rw [to4, if_neg (by rw [length_ofWord]; omega), if_neg fun hlong => htake hlong.2]

theorem Represents.to4 {ip : IP} {a : Addr} (h : Represents ip a) :
    to4 ip = if a.is4 then some (addrBytes a) else none := by
  cases h with
  | short ip => exact to4_short ip
  | long ip => exact to4_long ip
  | v6 ip h => exact to4_v6 h

theorem Represents.to16 {ip : IP} {a : Addr} (h : Represents ip a) (h6 : a.is4 = false) :
    to16 ip = some (addrBytes a) := by
  cases h with
  | short ip | long ip => cases h6
  | v6 ip h => exact (if_neg (by rw [length_ofWord]; omega)).trans (if_pos length_ofWord)

/-- An address that a slice can represent. -/
def Plain (a : Addr) : Prop := a.isValid = true ∧ a.is4In6 = false ∧ a.zone = ""

theorem Represents.plain {ip : IP} {a : Addr} (h : Represents ip a) : Plain a := by
  cases h with
  | short ip | long ip => exact ⟨rfl, rfl, rfl⟩
  | v6 ip h => exact ⟨rfl, h, rfl⟩

theorem Plain.represents {a : Addr} (h : Plain a) : Represents (addrBytes a) a := by
  obtain ⟨hvalid, hmapped, hzone⟩ := h
  cases a with
  | zero => cases hvalid
  | v4 ip => exact .short ip
  | v6 ip z =>
    obtain rfl : z = "" := hzone
    exact .v6 ip hmapped

/-- Every slice of four or sixteen bytes is a form of an address. -/
theorem exists_represents {ip : IP} (h : ip.length = 4 ∨ ip.length = 16) :
    ∃ a, Represents ip a := by
  rcases h with h | h
  · obtain ⟨x, rfl⟩ := exists_ofWord h
    exact ⟨_, .short x⟩
  · by_cases hmapped : ip.take 12 = v4InV6Prefix
    · obtain ⟨x, hx⟩ := exists_ofWord (show (ip.drop 12).length = 4 by simp [h])
      rw [← List.take_append_drop 12 ip, hmapped, ← hx]
      exact ⟨_, .long x⟩
    · obtain ⟨x, rfl⟩ := exists_ofWord h
      exact ⟨_, .v6 x (Bool.eq_false_iff.mpr (mt take_eq_v4InV6Prefix_iff.mpr hmapped))⟩

/-! ## Networks -/

/-- The bytes of an address of the family. -/
def width (a : Addr) : Nat := if a.is4 then 4 else 16

/-- The network is the prefix: any form of its address, with the contiguous mask of the
    prefix length in the width of the family. -/
structure IPNet.Denotes (n : IPNet) (p : Prefix) : Prop where
  ip : Represents n.ip p.addr
  valid : p.isValid = true
  mask : n.mask = cidrMaskBytes (width p.addr) p.len

/-- The prefix as a network in the short form. -/
def IPNet.ofPrefix (p : Prefix) : IPNet := ⟨addrBytes p.addr, cidrMaskBytes (width p.addr) p.len⟩

variable {p q : Prefix} {a b : Addr}

theorem len_le (h : Plain p.addr) : p.len ≤ 8 * width p.addr := by
  have hle := p.bits_le
  cases haddr : p.addr with
  | zero =>
    rw [haddr] at h
    cases h.1
  | v4 ip =>
    rw [haddr] at hle
    simp only [maxBitsPlusOne, Prefix.len, width, Addr.is4, if_true] at hle ⊢
    omega
  | v6 ip z =>
    rw [haddr] at hle
    simp only [maxBitsPlusOne, Prefix.len, width, Addr.is4, Bool.false_eq_true, if_false] at hle ⊢
    omega

theorem maskSize_ofPrefix (h : Plain p.addr) :
    maskSize (IPNet.ofPrefix p).mask = (p.len, width p.addr * 8) :=
  maskSize_cidrMaskBytes (len_le h)

theorem to4_addrBytes (h : Plain a) :
    to4 (addrBytes a) = if a.is4 then some (addrBytes a) else none := h.represents.to4

theorem length_addrBytes (h : Plain a) : (addrBytes a).length = width a := by
  cases a with
  | zero => cases h.1
  | v4 ip | v6 ip z => exact length_ofWord

/-- A mask of the address's own length is applied byte by byte. -/
theorem ipMask_of_length {ip : IP} {mask : IPMask} (h : ip.length = mask.length) :
    ipMask ip mask = some (List.zipWith (· &&& ·) ip mask) := by
  have hlong : ¬(mask.length = 16 ∧ ip.length = 4 ∧ (mask.take 12).all (· == 0xff) = true) := by
    omega
  have hshort : ¬(mask.length = 4 ∧ ip.length = 16 ∧ ip.take 12 = v4InV6Prefix) := by omega
  simp only [ipMask, if_neg hlong, if_neg hshort]
  exact if_neg (not_not_intro h)

theorem ipMask_addrBytes (hvalid : p.isValid = true) (h : Plain p.addr) :
    ipMask (addrBytes p.addr) (cidrMaskBytes (width p.addr) p.len) =
      some (addrBytes p.masked.addr) := by
  rw [ipMask_of_length ((length_addrBytes h).trans (length_cidrMaskBytes _ _).symm)]
  obtain ⟨addr, b, hz, hb⟩ := p
  cases addr with
  | zero => cases h.1
  | v4 x =>
    rw [Prefix.masked_v4 hvalid]
    exact congrArg some (zipWith_and_cidrMaskBytes (by omega) x)
  | v6 x z =>
    rw [Prefix.masked_v6 hvalid]
    exact congrArg some (zipWith_and_cidrMaskBytes (by omega) x)

theorem networkNumberAndMask_ofPrefix (h : Plain p.addr) : networkNumberAndMask (IPNet.ofPrefix p) =
      some (addrBytes p.addr, cidrMaskBytes (width p.addr) p.len) := by
  have hlen := length_addrBytes h
  have hmask := length_cidrMaskBytes (width p.addr) p.len
  simp only [networkNumberAndMask, IPNet.ofPrefix, to4_addrBytes h, hlen, hmask]
  cases h4 : p.addr.is4 <;> simp [width, h4, hlen]

theorem contains_ofPrefix (hvalid : p.isValid = true) (hp : Plain p.addr) (ha : Plain a) :
    (IPNet.ofPrefix p).contains (addrBytes a) = p.contains a := by
  have hip : (to4 (addrBytes a)).getD (addrBytes a) = addrBytes a := by
    rw [to4_addrBytes ha]
    cases a.is4 <;> rfl
  simp only [IPNet.contains, networkNumberAndMask_ofPrefix hp, Option.getD_some, hip,
    length_addrBytes ha, length_addrBytes hp]
  rw [Bool.eq_iff_iff, Prefix.contains_iff]
  cases hpaddr : p.addr with
  | zero =>
    rw [hpaddr] at hp
    cases hp.1
  | v4 x =>
    cases a with
    | zero => cases ha.1
    | v4 y => simp [width, Addr.is4, addrBytes, Addr.Agrees, hvalid, sameUnder_ofWord]
    | v6 y z => simp [width, Addr.is4, Addr.Agrees]
  | v6 x z =>
    rw [hpaddr] at hp
    cases a with
    | zero => cases ha.1
    | v4 y => simp [width, Addr.is4, Addr.Agrees]
    | v6 y z' =>
      have hz : z = "" := hp.2.2
      have hz' : z' = "" := ha.2.2
      simp [width, Addr.is4, addrBytes, Addr.Agrees, hvalid, sameUnder_ofWord, hz, hz']

theorem ipEqual_addrBytes (ha : Plain a) (hb : Plain b) :
    ipEqual (addrBytes a) (addrBytes b) = decide (a = b) := by
  cases a with
  | zero => cases ha.1
  | v4 x =>
    cases b with
    | zero => cases hb.1
    | v4 y =>
      rw [Bool.eq_iff_iff]
      simp [ipEqual, addrBytes, ofWord_inj (show 32 = 8 * 4 by omega)]
    | v6 y z =>
      have htake := mt take_eq_v4InV6Prefix_iff.mp (Bool.eq_false_iff.mp hb.2.1)
      simp [ipEqual, addrBytes, htake]
  | v6 x z =>
    cases b with
    | zero => cases hb.1
    | v4 y =>
      have htake := mt take_eq_v4InV6Prefix_iff.mp (Bool.eq_false_iff.mp ha.2.1)
      simp [ipEqual, addrBytes, htake]
    | v6 y z' =>
      have hz : z = "" := ha.2.2
      have hz' : z' = "" := hb.2.2
      rw [Bool.eq_iff_iff]
      simp [ipEqual, addrBytes, ofWord_inj (show 128 = 8 * 16 by omega), hz, hz']

end SysnetLinux.Net
