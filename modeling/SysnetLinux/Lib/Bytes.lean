/-
  SysnetLinux.Lib.Bytes

  Words as byte strings, the most significant byte first.

  A byte string is read bit by bit (`bit`); two strings of one length with the same bits are
  the same (`ext_bits`).  `ofWord` writes a word, and every byte string is written by one
  word (`exists_ofWord`, `ofWord_inj`); `toWord` reads it.
-/

import Mathlib.Algebra.Group.Nat.Defs
import Mathlib.Data.List.GetD
import SysnetLinux.Lib.LeadingBits

namespace Bytes

open List

open LeadingBits (Agree)

/-- Bit `j`, counted from the front, of byte `i`. -/
def bit (bytes : List (BitVec 8)) (i j : Nat) : Bool := (bytes.getD i 0).getMsbD j

/-- The first `l` bytes of a word. -/
def ofWord {w : Nat} (l : Nat) (x : BitVec w) : List (BitVec 8) :=
  (List.range l).map fun i => x.extractLsb' (w - 8 * (i + 1)) 8

/-- The word that a byte string writes. -/
def toWord (w : Nat) (bytes : List (BitVec 8)) : BitVec w :=
  BitVec.ofNat w (bytes.foldl (fun acc b => acc * 256 + b.toNat) 0)

variable {w l i j : Nat} {a b : List (BitVec 8)} {x y : BitVec w}

theorem ext_bits (hlen : a.length = b.length)
    (h : ∀ i, i < a.length → ∀ j, j < 8 → bit a i j = bit b i j) : a = b := by
  apply ext_getElem hlen
  intro i hia hib
  apply BitVec.eq_of_getMsbD_eq
  intro j hj
  have hbit := h i hia j hj
  simpa only [bit, getD_eq_getElem _ _ hia, getD_eq_getElem _ _ hib] using hbit

@[simp] theorem length_ofWord : (ofWord l x).length = l := by
  simp [ofWord]

theorem bit_ofWord (hw : 8 * l ≤ w) (hi : i < l) (hj : j < 8) :
    bit (ofWord l x) i j = x.getMsbD (8 * i + j) := by
  have hget : (ofWord l x).getD i 0 = x.extractLsb' (w - 8 * (i + 1)) 8 := by
    rw [getD_eq_getElem _ _ (by simpa using hi)]
    simp [ofWord]
  rw [bit, hget]
  simp only [BitVec.getMsbD, BitVec.getLsbD_extractLsb', hj, decide_true, Bool.true_and,
    show 8 - 1 - j < 8 by omega, show 8 * i + j < w by omega]
  rw [show w - 8 * (i + 1) + (8 - 1 - j) = w - 1 - (8 * i + j) by omega]

theorem bit_take {k : Nat} (hi : i < k) : bit (a.take k) i j = bit a i j := by
  simp only [bit, getD_eq_getElem?_getD, getElem?_take, if_pos hi]

theorem take_ofWord_iff {k : Nat} (hw : 8 * l ≤ w) (hk : k ≤ l) :
    (ofWord l x).take k = (ofWord l y).take k ↔ Agree (8 * k) x y := by
  constructor
  · intro h m hm
    have hbit : bit ((ofWord l x).take k) (m / 8) (m % 8) =
        bit ((ofWord l y).take k) (m / 8) (m % 8) := by rw [h]
    rw [bit_take (by omega), bit_take (by omega), bit_ofWord hw (by omega) (by omega),
      bit_ofWord hw (by omega) (by omega), show 8 * (m / 8) + m % 8 = m by omega] at hbit
    exact hbit
  · intro h
    apply ext_bits (by simp)
    intro i hi j hj
    have hik : i < k := by
      rw [length_take, length_ofWord] at hi
      omega
    rw [bit_take hik, bit_take hik, bit_ofWord hw (by omega) hj, bit_ofWord hw (by omega) hj]
    exact h _ (by omega)

theorem ofWord_inj (hw : w = 8 * l) : ofWord l x = ofWord l y ↔ x = y := by
  constructor
  · intro h
    exact ((take_ofWord_iff (by omega) (Nat.le_refl l)).mp (by rw [h])).eq (by omega)
  · rintro rfl
    rfl

theorem exists_ofWord (hlen : a.length = l) : ∃ x : BitVec (8 * l), ofWord l x = a := by
  subst hlen
  induction a with
  | nil => exact ⟨0, rfl⟩
  | cons head rest ih =>
    obtain ⟨x, hx⟩ := ih
    refine ⟨(head ++ x).cast (by rw [length_cons]; omega), ?_⟩
    apply ext_bits (by simp)
    intro i hi j hj
    rw [length_ofWord] at hi
    rw [bit_ofWord (Nat.le_refl _) hi hj, BitVec.getMsbD_cast, BitVec.getMsbD_append]
    cases i with
    | zero => simp [bit, show ¬ 8 ≤ j by omega]
    | succ i =>
      rw [length_cons] at hi
      rw [if_pos (by omega), show 8 * (i + 1) + j - 8 = 8 * i + j by omega,
        ← bit_ofWord (Nat.le_refl _) (show i < rest.length by omega) hj, hx]
      rfl

theorem bit_zipWith_and (hlen : a.length = b.length) (hi : i < a.length) :
    bit (List.zipWith (· &&& ·) a b) i j = (bit a i j && bit b i j) := by
  have hib : i < b.length := by omega
  simp only [bit, getD_eq_getElem?_getD, getElem?_zipWith, getElem?_eq_getElem hi,
    getElem?_eq_getElem hib, Option.getD_some, BitVec.getMsbD_and]

/-- The first bytes of a word are its quotient by what they leave out. -/
theorem foldl_ofWord (hw : 8 * l ≤ w) :
    (ofWord l x).foldl (fun acc b => acc * 256 + b.toNat) 0 = x.toNat / 2 ^ (w - 8 * l) := by
  induction l with
  | zero =>
    have hlt : x.toNat / 2 ^ (w - 8 * 0) = 0 := Nat.div_eq_of_lt (by simpa using x.isLt)
    rw [hlt]
    rfl
  | succ l ih =>
    have hsplit : ofWord (l + 1) x = ofWord l x ++ [x.extractLsb' (w - 8 * (l + 1)) 8] := by
      simp [ofWord, range_succ]
    have hpow : 2 ^ (w - 8 * l) = 2 ^ (w - 8 * (l + 1)) * 256 := by
      rw [show w - 8 * l = w - 8 * (l + 1) + 8 by omega, Nat.pow_add]
    rw [hsplit, foldl_append, ih (by omega), hpow, ← Nat.div_div_eq_div_mul]
    simp only [foldl_cons, foldl_nil, BitVec.extractLsb'_toNat, Nat.shiftRight_eq_div_pow]
    omega

theorem toWord_ofWord (hw : w = 8 * l) : toWord w (ofWord l x) = x := by
  subst hw
  rw [toWord, foldl_ofWord (Nat.le_refl _), Nat.sub_self, Nat.pow_zero, Nat.div_one,
    BitVec.ofNat_toNat, BitVec.setWidth_eq]

end Bytes
