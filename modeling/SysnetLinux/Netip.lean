/-
  SysnetLinux.Netip

  The part of Go's `net/netip` that the routing package reads: addresses with
  their classification, their order, and prefixes.

  An `Addr` is the zero value, an IPv4 address or an IPv6 address with a zone.  A
  `Prefix` stores its length plus one, so that the zero value is invalid; the
  library builds no prefix with a zone or with more bits than its address, and
  the structure carries both facts.
-/

import Mathlib.Algebra.GroupWithZero.Nat
import Mathlib.Data.List.Basic

namespace SysnetLinux.Netip

/-- `netip.Addr`. -/
inductive Addr where
  | zero
  | v4 (ip : BitVec 32)
  | v6 (ip : BitVec 128) (zone : String)
  deriving DecidableEq, Repr

namespace Addr

def isValid : Addr → Bool
  | zero => false
  | v4 _ | v6 _ _ => true

def is4 : Addr → Bool
  | v4 _ => true
  | zero | v6 _ _ => false

def is6 : Addr → Bool
  | v6 _ _ => true
  | zero | v4 _ => false

/-- An IPv6 address of the form `::ffff:a.b.c.d`. -/
def is4In6 : Addr → Bool
  | v6 ip _ => ip >>> 32 == 0xffff#128
  | zero | v4 _ => false

/-- Turn `::ffff:a.b.c.d` into `a.b.c.d`; other addresses stay. -/
def unmap : Addr → Addr
  | v6 ip z => if (v6 ip z).is4In6 then v4 (ip.setWidth 32) else v6 ip z
  | a => a

def zone : Addr → String
  | v6 _ z => z
  | zero | v4 _ => ""

def withoutZone : Addr → Addr
  | v6 ip _ => v6 ip ""
  | a => a

theorem zone_withoutZone (a : Addr) : a.withoutZone.zone = "" := by
  cases a <;> rfl

def bitLen : Addr → Nat
  | zero => 0
  | v4 _ => 32
  | v6 _ _ => 128

def isUnspecified (a : Addr) : Bool := a == v4 0 || a == v6 0 ""

def isLoopback (a : Addr) : Bool :=
  match a.unmap with
  | zero => false
  | v4 ip => ip >>> 24 == 127#32
  | v6 ip _ => ip == 1#128

def isMulticast (a : Addr) : Bool :=
  match a.unmap with
  | zero => false
  | v4 ip => ip >>> 28 == 0xe#32
  | v6 ip _ => ip >>> 120 == 0xff#128

def isLinkLocalUnicast (a : Addr) : Bool :=
  match a.unmap with
  | zero => false
  | v4 ip => ip >>> 16 == 0xa9fe#32
  | v6 ip _ => ip >>> 118 == 0x3fa#128

def isGlobalUnicast (a : Addr) : Bool :=
  match a.unmap with
  | zero => false
  | v4 ip =>
    ip != 0#32 && ip != 0xffffffff#32 &&
      !(v4 ip).isLoopback && !(v4 ip).isMulticast && !(v4 ip).isLinkLocalUnicast
  | v6 ip z =>
    v6 ip z != v6 0 "" &&
      !(v6 ip z).isLoopback && !(v6 ip z).isMulticast && !(v6 ip z).isLinkLocalUnicast

/-- The address as a number, whatever its family. -/
def toNat : Addr → Nat
  | zero => 0
  | v4 ip => ip.toNat
  | v6 ip _ => ip.toNat

/-- `Addr.Compare`: by length, then by value, then by zone. -/
def compare (a b : Addr) : Ordering :=
  (Ord.compare a.bitLen b.bitLen).then
    ((Ord.compare a.toNat b.toNat).then (Ord.compare a.zone b.zone))

instance : Std.TransCmp compare :=
  inferInstanceAs (Std.TransCmp (compareLex (compareOn bitLen)
    (compareLex (compareOn toNat) (compareOn zone))))

/-- The comparison tells any two addresses apart. -/
instance : Std.LawfulEqCmp compare where
  eq_of_compare {a b} h := by
    simp only [compare, Ordering.then_eq_eq, Std.LawfulEqCmp.compare_eq_iff_eq] at h
    obtain ⟨hlen, hval, hzone⟩ := h
    cases a <;> cases b <;> cases hlen
    · rfl
    · exact congrArg v4 (BitVec.eq_of_toNat_eq hval)
    · exact congrArg₂ v6 (BitVec.eq_of_toNat_eq hval) hzone

/-- The eight 16-bit groups of an IPv6 address. -/
def groups (ip : BitVec 128) : List Nat :=
  (List.range 8).map fun i => (ip.toNat >>> (16 * (7 - i))) % 65536

/-- Start and length of the first longest run of at least two zero groups;
    length 0 when there is none. -/
def zeroRun (gs : List Nat) : Nat × Nat :=
  (List.range 8).foldl (fun best i =>
    let len := ((gs.drop i).takeWhile (· == 0)).length
    if 2 ≤ len && best.2 < len then (i, len) else best) (0, 0)

def v4String (ip : BitVec 32) : String :=
  ".".intercalate
    (([24, 16, 8, 0] : List Nat).map fun sh => toString ((ip.toNat >>> sh) % 256))

def v6String (ip : BitVec 128) : String :=
  let gs := groups ip
  let hex := fun (l : List Nat) => ":".intercalate (l.map fun g => String.ofList (Nat.toDigits 16 g))
  let run := zeroRun gs
  if run.2 = 0 then hex gs
  else hex (gs.take run.1) ++ "::" ++ hex (gs.drop (run.1 + run.2))

/-- `Addr.String`. -/
def string : Addr → String
  | zero => "invalid IP"
  | v4 ip => v4String ip
  | v6 ip z =>
    (if (v6 ip z).is4In6 then "::ffff:" ++ v4String (ip.setWidth 32) else v6String ip) ++
      (if z = "" then "" else "%" ++ z)

end Addr

/-- The largest `bitsPlusOne` a prefix of this address can have. -/
def maxBitsPlusOne : Addr → Nat
  | .zero => 0
  | .v4 _ => 33
  | .v6 _ _ => 129

/-- `netip.Prefix`. -/
structure Prefix where
  addr : Addr
  bitsPlusOne : Nat
  zoneless : addr.zone = ""
  bits_le : bitsPlusOne ≤ maxBitsPlusOne addr
  deriving DecidableEq, Repr

namespace Prefix

/-- The zero value, which is no valid prefix. -/
def zero : Prefix := ⟨.zero, 0, rfl, Nat.le_refl 0⟩

def isValid (p : Prefix) : Bool := 0 < p.bitsPlusOne

/-- The prefix length, `-1` when the prefix is invalid. -/
def bits (p : Prefix) : Int := p.bitsPlusOne - 1

/-- Keep the first `bits` bits of a `w`-bit address. -/
def maskBits {w : Nat} (ip : BitVec w) (bits : Nat) : BitVec w :=
  ip &&& (BitVec.allOnes w <<< (w - bits))

/-- `Prefix.Masked`: the host bits cleared. -/
def masked (p : Prefix) : Prefix :=
  if p.isValid then
    match p with
    | ⟨.zero, _, _, _⟩ => zero
    | ⟨.v4 ip, b, _, hb⟩ => ⟨.v4 (maskBits ip (b - 1)), b, rfl, hb⟩
    | ⟨.v6 ip _, b, _, hb⟩ => ⟨.v6 (maskBits ip (b - 1)) "", b, rfl, hb⟩
  else zero

/-- `Prefix.Contains`. -/
def contains (p : Prefix) (a : Addr) : Bool :=
  match p.addr, a with
  | .v4 net, .v4 ip =>
    p.isValid && maskBits ip (p.bitsPlusOne - 1) == maskBits net (p.bitsPlusOne - 1)
  | .v6 net _, .v6 ip z =>
    p.isValid && z == "" &&
      maskBits ip (p.bitsPlusOne - 1) == maskBits net (p.bitsPlusOne - 1)
  | _, _ => false

/-- `Prefix.String`. -/
def string (p : Prefix) : String :=
  if p.isValid then p.addr.string ++ "/" ++ toString p.bits else "invalid Prefix"

/-- `PrefixFrom`: the address without its zone, invalid for a length the address does not have. -/
def ofAddr (a : Addr) (bits : Int) : Prefix :=
  if h : a.isValid ∧ 0 ≤ bits ∧ bits ≤ a.bitLen then
    ⟨a.withoutZone, bits.toNat + 1, a.zone_withoutZone, by
      cases a with
      | zero => cases h.1
      | v4 ip => simp only [Addr.bitLen, Addr.withoutZone, maxBitsPlusOne] at h ⊢; omega
      | v6 ip z => simp only [Addr.bitLen, Addr.withoutZone, maxBitsPlusOne] at h ⊢; omega⟩
  else ⟨a.withoutZone, 0, a.zone_withoutZone, Nat.zero_le _⟩

/-- A prefix length is written as a literal: 0 to 32 for IPv4, 0 to 128 for IPv6. -/
instance neZero_lengths4 : NeZero 33 := ⟨by decide⟩

instance neZero_lengths6 : NeZero 129 := ⟨by decide⟩

/-- The IPv4 prefix `ip/bits`. -/
def ofV4 (ip : BitVec 32) (bits : Fin 33) : Prefix :=
  ⟨.v4 ip, bits.val + 1, rfl, Nat.succ_le_of_lt bits.isLt⟩

/-- The IPv6 prefix `ip/bits`. -/
def ofV6 (ip : BitVec 128) (bits : Fin 129) : Prefix :=
  ⟨.v6 ip "", bits.val + 1, rfl, Nat.succ_le_of_lt bits.isLt⟩

/-! ## Masking -/

variable {p : Prefix}

theorem addr_isValid (h : p.isValid = true) : p.addr.isValid = true := by
  cases haddr : p.addr with
  | zero =>
    have hle := p.bits_le
    simp only [haddr, maxBitsPlusOne, isValid, decide_eq_true_eq] at hle h
    omega
  | v4 ip | v6 ip z => rfl

theorem eq_of_addr_bits {p q : Prefix} (haddr : p.addr = q.addr) (hbits : p.bits = q.bits) :
    p = q := by
  obtain ⟨addr, bitsPlusOne, hz, hb⟩ := p
  obtain ⟨addr', bitsPlusOne', hz', hb'⟩ := q
  obtain rfl : addr = addr' := haddr
  obtain rfl : bitsPlusOne = bitsPlusOne' := by
    simp only [bits] at hbits
    omega
  rfl

theorem maskBits_maskBits {w : Nat} (ip : BitVec w) (n : Nat) :
    maskBits (maskBits ip n) n = maskBits ip n := by
  simp [maskBits, BitVec.and_assoc]

theorem masked_v4 {ip : BitVec 32} {b : Nat} {hz : (Addr.v4 ip).zone = ""}
    {hb : b ≤ maxBitsPlusOne (.v4 ip)} (h : isValid ⟨.v4 ip, b, hz, hb⟩ = true) :
    masked ⟨.v4 ip, b, hz, hb⟩ = ⟨.v4 (maskBits ip (b - 1)), b, rfl, hb⟩ := if_pos h

theorem masked_v6 {ip : BitVec 128} {z : String} {b : Nat} {hz : (Addr.v6 ip z).zone = ""}
    {hb : b ≤ maxBitsPlusOne (.v6 ip z)} (h : isValid ⟨.v6 ip z, b, hz, hb⟩ = true) :
    masked ⟨.v6 ip z, b, hz, hb⟩ = ⟨.v6 (maskBits ip (b - 1)) "", b, rfl, hb⟩ := if_pos h

theorem masked_shape (h : p.isValid = true) : p.masked.isValid = true ∧
    p.masked.addr.is4 = p.addr.is4 ∧ p.masked.bitsPlusOne = p.bitsPlusOne := by
  have haddr := addr_isValid h
  obtain ⟨addr, b, hz, hb⟩ := p
  cases addr with
  | zero => cases haddr
  | v4 ip =>
    rw [masked_v4 h]
    exact ⟨h, rfl, rfl⟩
  | v6 ip z =>
    rw [masked_v6 h]
    exact ⟨h, rfl, rfl⟩

theorem masked_isValid (h : p.isValid = true) : p.masked.isValid = true := (masked_shape h).1

theorem masked_is4 (h : p.isValid = true) : p.masked.addr.is4 = p.addr.is4 := (masked_shape h).2.1

theorem masked_bitsPlusOne (h : p.isValid = true) : p.masked.bitsPlusOne = p.bitsPlusOne :=
  (masked_shape h).2.2

theorem masked_masked (h : p.isValid = true) : p.masked.masked = p.masked := by
  have haddr := addr_isValid h
  have hvalid := masked_isValid h
  obtain ⟨addr, b, hz, hb⟩ := p
  cases addr with
  | zero => cases haddr
  | v4 ip =>
    rw [masked_v4 h] at hvalid ⊢
    rw [masked_v4 hvalid]
    simp only [maskBits_maskBits]
  | v6 ip z =>
    rw [masked_v6 h] at hvalid ⊢
    rw [masked_v6 hvalid]
    simp only [maskBits_maskBits]

/-- Clearing host bits makes no mapped address: the lowest network bit of a mapped
    prefix that is cut inside its first 96 bits would be cleared. -/
theorem maskBits_mapped {ip : BitVec 128} {n : Nat}
    (h : maskBits ip n >>> 32 = 0xffff#128) : ip >>> 32 = 0xffff#128 := by
  have hbit : ∀ i, (maskBits ip n).getLsbD (32 + i) = (0xffff#128).getLsbD i := by
    intro i
    rw [← h, BitVec.getLsbD_ushiftRight]
  have hmask : ∀ i, i < 128 → (maskBits ip n).getLsbD i =
      (ip.getLsbD i && decide (128 - n ≤ i)) := by
    intro i hi
    simp only [maskBits, BitVec.getLsbD_and, BitVec.getLsbD_shiftLeft, BitVec.getLsbD_allOnes]
    by_cases hn : 128 - n ≤ i
    · simp [hn, hi, show i - (128 - n) < 128 by omega]
    · simp [hn, hi, show i < 128 - n by omega]
  have hcut : 128 - n ≤ 32 := by
    have hlow := hbit 0
    rw [hmask (32 + 0) (by omega)] at hlow
    have hset : (0xffff#128).getLsbD 0 = true := by decide
    rw [hset, Bool.and_eq_true, decide_eq_true_eq] at hlow
    exact hlow.2
  apply BitVec.eq_of_getLsbD_eq
  intro i hi
  rw [BitVec.getLsbD_ushiftRight, ← hbit i]
  by_cases hin : 32 + i < 128
  · rw [hmask (32 + i) hin]
    simp [show 128 - n ≤ 32 + i by omega]
  · rw [BitVec.getLsbD_of_ge _ _ (by omega), BitVec.getLsbD_of_ge _ _ (by omega)]

theorem masked_not_mapped (h : p.addr.is4In6 = false) : p.masked.addr.is4In6 = false := by
  by_cases hvalid : p.isValid = true
  · obtain ⟨addr, b, hz, hb⟩ := p
    cases addr with
    | zero => cases addr_isValid hvalid
    | v4 ip =>
      rw [masked_v4 hvalid]
      rfl
    | v6 ip z =>
      rw [masked_v6 hvalid]
      show (maskBits ip (b - 1) >>> 32 == 0xffff#128) = false
      rw [beq_eq_false_iff_ne]
      intro heq
      have hmapped : (ip >>> 32 == 0xffff#128) = true := beq_iff_eq.mpr (maskBits_mapped heq)
      rw [show (ip >>> 32 == 0xffff#128) = false from h] at hmapped
      cases hmapped
  · have hzero : p.masked = zero := if_neg hvalid
    rw [hzero]
    rfl

end Prefix
end SysnetLinux.Netip
