/-
  SysnetLinux.Net

  The part of Go's `net` that the repository reads: addresses and masks as byte slices.

  An `IP` is a slice of 4 or 16 bytes; an IPv4 address has both forms.  A nil slice is the
  empty list, and a function that may return nil returns an option.
-/

import Mathlib.Tactic.IntervalCases
import SysnetLinux.Lib.Bytes
import SysnetLinux.Netip.Blocks

namespace SysnetLinux.Net

open Bytes LeadingBits Netip

abbrev IP := List (BitVec 8)

abbrev IPMask := List (BitVec 8)

structure IPNet where
  ip : IP
  mask : IPMask
  deriving DecidableEq, Repr

/-- The twelve bytes in front of an IPv4 address in its 16-byte form. -/
def v4InV6Prefix : IP := [0, 0, 0, 0, 0, 0, 0, 0, 0, 0, 0xff, 0xff]

/-- `IP.To4`. -/
def to4 (ip : IP) : Option IP :=
  if ip.length = 4 then some ip
  else if ip.length = 16 ∧ ip.take 12 = v4InV6Prefix then some (ip.drop 12)
  else none

/-- `IP.To16`. -/
def to16 (ip : IP) : Option IP :=
  if ip.length = 4 then some (v4InV6Prefix ++ ip)
  else if ip.length = 16 then some ip
  else none

/-- The ones in front of a byte whose other bits are zero; the loop of
    `simpleMaskLength` over one byte. -/
def maskByteLength : Nat → BitVec 8 → Option Nat
  | 0, v => if v = 0 then some 0 else none
  | fuel + 1, v =>
    if v &&& 0x80#8 ≠ 0 then (maskByteLength fuel (v <<< 1)).map (· + 1)
    else if v = 0 then some 0
    else none

/-- `simpleMaskLength`: the number of ones in front of a mask whose other bits are zero. -/
def simpleMaskLength : IPMask → Option Nat
  | [] => some 0
  | v :: rest =>
    if v = 0xff then (simpleMaskLength rest).map (8 + ·)
    else match maskByteLength 8 v with
      | none => none
      | some n => if rest.all (· == 0) then some n else none

/-- `IPMask.Size`: the ones and the bits of the mask, both zero if it is not in canonical form. -/
def maskSize (mask : IPMask) : Nat × Nat :=
  match simpleMaskLength mask with
  | none => (0, 0)
  | some ones => (ones, mask.length * 8)

/-- The bytes of a mask of `l` bytes that starts with `n` ones; the loop of `CIDRMask`. -/
def cidrMaskBytes : Nat → Nat → IPMask
  | 0, _ => []
  | l + 1, n =>
    if 8 ≤ n then 0xff :: cidrMaskBytes l (n - 8)
    else ~~~(0xff#8 >>> n) :: cidrMaskBytes l 0

/-- `CIDRMask`; nil for a mask of another length. -/
def cidrMask (ones bits : Nat) : IPMask :=
  if bits ≠ 32 ∧ bits ≠ 128 then []
  else if bits < ones then []
  else cidrMaskBytes (bits / 8) ones

/-- `IP.Mask`. -/
def ipMask (ip : IP) (mask : IPMask) : Option IP :=
  let mask := if mask.length = 16 ∧ ip.length = 4 ∧ (mask.take 12).all (· == 0xff)
    then mask.drop 12 else mask
  let ip := if mask.length = 4 ∧ ip.length = 16 ∧ ip.take 12 = v4InV6Prefix
    then ip.drop 12 else ip
  if ip.length ≠ mask.length then none else some (List.zipWith (· &&& ·) ip mask)

/-- `IP.Equal`: the two forms of an IPv4 address are equal. -/
def ipEqual (ip x : IP) : Bool :=
  if ip.length = x.length then ip == x
  else if ip.length = 4 ∧ x.length = 16 then x.take 12 == v4InV6Prefix && ip == x.drop 12
  else if ip.length = 16 ∧ x.length = 4 then ip.take 12 == v4InV6Prefix && ip.drop 12 == x
  else false

def networkNumberAndMask (n : IPNet) : Option (IP × IPMask) :=
  let number := match to4 n.ip with
    | some ip4 => some ip4
    | none => if n.ip.length = 16 then some n.ip else none
  match number with
  | none => none
  | some ip =>
    if n.mask.length = 4 then (if ip.length = 4 then some (ip, n.mask) else none)
    else if n.mask.length = 16 then
      some (ip, if ip.length = 4 then n.mask.drop 12 else n.mask)
    else none

/-- The comparison loop of `IPNet.Contains`. -/
def sameUnder : IPMask → IP → IP → Bool
  | m :: mask, a :: as, b :: bs => (a &&& m == b &&& m) && sameUnder mask as bs
  | _, _, _ => true

/-- `IPNet.Contains`. -/
def IPNet.contains (n : IPNet) (ip : IP) : Bool :=
  let (nn, m) := (networkNumberAndMask n).getD ([], [])
  let ip := (to4 ip).getD ip
  if ip.length ≠ nn.length then false else sameUnder m nn ip

/-! ## Masks -/

theorem length_cidrMaskBytes (l n : Nat) : (cidrMaskBytes l n).length = l := by
  induction l generalizing n with
  | zero => rfl
  | succ l ih =>
    rw [cidrMaskBytes]
    split <;> simp [ih]

theorem getMsbD_maskByte {n j : Nat} (hn : n < 8) (hj : j < 8) :
    (~~~(0xff#8 >>> n)).getMsbD j = decide (j < n) := by
  interval_cases n <;> interval_cases j <;> rfl

theorem bit_cidrMaskBytes {l n i j : Nat} (hi : i < l) (hj : j < 8) :
    bit (cidrMaskBytes l n) i j = decide (8 * i + j < n) := by
  induction l generalizing n i with
  | zero => omega
  | succ l ih =>
    rw [cidrMaskBytes]
    by_cases hn : 8 ≤ n
    · rw [if_pos hn]
      cases i with
      | zero =>
        have hones : (0xff#8).getMsbD j = true := by interval_cases j <;> rfl
        show (0xff#8).getMsbD j = _
        rw [hones, eq_comm, decide_eq_true_eq]
        omega
      | succ i =>
        show bit (cidrMaskBytes l (n - 8)) i j = _
        rw [ih (by omega), decide_eq_decide]
        omega
    · rw [if_neg hn]
      cases i with
      | zero =>
        show (~~~(0xff#8 >>> n)).getMsbD j = _
        rw [getMsbD_maskByte (by omega) hj, decide_eq_decide]
        omega
      | succ i =>
        show bit (cidrMaskBytes l 0) i j = _
        rw [ih (by omega), decide_eq_decide]
        omega

theorem maskByteLength_maskByte {n : Nat} (hn : n < 8) :
    maskByteLength 8 (~~~(0xff#8 >>> n)) = some n ∧ ~~~(0xff#8 >>> n) ≠ 0xff := by
  interval_cases n <;> decide

theorem cidrMaskBytes_zero (l : Nat) : (cidrMaskBytes l 0).all (· == 0) = true := by
  induction l with
  | zero => rfl
  | succ l ih =>
    rw [cidrMaskBytes, if_neg (by omega), List.all_cons, ih]
    rfl

/-- `Size` reads back the length of a canonical mask. -/
theorem simpleMaskLength_cidrMaskBytes {l n : Nat} (hn : n ≤ 8 * l) :
    simpleMaskLength (cidrMaskBytes l n) = some n := by
  induction l generalizing n with
  | zero =>
    obtain rfl : n = 0 := by omega
    rfl
  | succ l ih =>
    rw [cidrMaskBytes]
    by_cases h8 : 8 ≤ n
    · rw [if_pos h8, simpleMaskLength, if_pos rfl, ih (by omega), Option.map_some]
      exact congrArg some (by omega)
    · obtain ⟨hlen, hne⟩ := maskByteLength_maskByte (show n < 8 by omega)
      rw [if_neg h8, simpleMaskLength, if_neg hne, hlen]
      exact if_pos (cidrMaskBytes_zero l)

theorem maskSize_cidrMaskBytes {l n : Nat} (hn : n ≤ 8 * l) :
    maskSize (cidrMaskBytes l n) = (n, l * 8) := by
  rw [maskSize, simpleMaskLength_cidrMaskBytes hn]
  simp only [length_cidrMaskBytes]

/-! ## Words under a mask -/

theorem sameUnder_eq (mask a b : List (BitVec 8)) (ha : a.length = mask.length)
    (hb : b.length = mask.length) : sameUnder mask a b =
      (List.zipWith (· &&& ·) a mask == List.zipWith (· &&& ·) b mask) := by
  induction mask generalizing a b with
  | nil =>
    cases a with
    | nil =>
      cases b with
      | nil => rfl
      | cons y b => cases hb
    | cons x a => cases ha
  | cons m mask ih =>
    cases a with
    | nil => cases ha
    | cons x a =>
      cases b with
      | nil => cases hb
      | cons y b =>
        rw [sameUnder, ih a b (Nat.succ.inj ha) (Nat.succ.inj hb)]
        rfl

section Words

variable {w l n : Nat} (hw : w = 8 * l)
include hw

theorem zipWith_and_cidrMaskBytes (x : BitVec w) :
    List.zipWith (· &&& ·) (ofWord l x) (cidrMaskBytes l n) = ofWord l (Prefix.maskBits x n) := by
  have hlen : (ofWord l x).length = (cidrMaskBytes l n).length := by
    rw [length_ofWord, length_cidrMaskBytes]
  apply ext_bits (by simp [length_cidrMaskBytes])
  intro i hi j hj
  have hil : i < l := by simpa [length_cidrMaskBytes] using hi
  rw [bit_zipWith_and hlen (by simpa using hil), bit_ofWord (by omega) hil hj,
    bit_cidrMaskBytes hil hj, bit_ofWord (by omega) hil hj, Prefix.getMsbD_maskBits, Bool.and_comm]

/-- The comparison loop compares the first bits of two words. -/
theorem sameUnder_ofWord {x y : BitVec w} :
    sameUnder (cidrMaskBytes l n) (ofWord l x) (ofWord l y) = true ↔ Agree n x y := by
  rw [sameUnder_eq _ _ _ (by rw [length_ofWord, length_cidrMaskBytes])
      (by rw [length_ofWord, length_cidrMaskBytes]), beq_iff_eq,
    zipWith_and_cidrMaskBytes hw, zipWith_and_cidrMaskBytes hw, ofWord_inj hw,
    Prefix.maskBits_eq_iff]

end Words

end SysnetLinux.Net
