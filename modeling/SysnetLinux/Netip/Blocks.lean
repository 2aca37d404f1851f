/-
  SysnetLinux.Netip.Blocks

  Prefixes as sets of addresses.

  `Prefix.contains` compares masked addresses; `contains_iff` says that it compares the
  first bits of two addresses of one family without a zone.  What follows about prefixes as
  sets (a prefix holds its own address, two prefixes that meet are nested, a masked prefix
  is determined by its length and one of its addresses) comes from there.
-/

import SysnetLinux.Lib.LeadingBits
import SysnetLinux.Netip

namespace SysnetLinux.Netip

open LeadingBits (Agree)

/-- Two addresses of one family without a zone whose first `n` bits are the same. -/
def Addr.Agrees (n : Nat) : Addr → Addr → Prop
  | .v4 a, .v4 b => Agree n a b
  | .v6 a z, .v6 b z' => z = "" ∧ z' = "" ∧ Agree n a b
  | _, _ => False

namespace Addr.Agrees

variable {m n : Nat} {a b c : Addr}

theorem symm (h : a.Agrees n b) : b.Agrees n a := by
  cases a <;> cases b <;> simp only [Agrees] at h ⊢
  · exact h.symm
  · exact ⟨h.2.1, h.1, h.2.2.symm⟩

theorem trans (h₁ : a.Agrees n b) (h₂ : b.Agrees n c) : a.Agrees n c := by
  cases a <;> cases b <;> simp only [Agrees] at h₁ <;> cases c <;> simp only [Agrees] at h₂ ⊢
  · exact h₁.trans h₂
  · exact ⟨h₁.1, h₂.2.1, h₁.2.2.trans h₂.2.2⟩

theorem mono (hmn : m ≤ n) (h : a.Agrees n b) : a.Agrees m b := by
  cases a <;> cases b <;> simp only [Agrees] at h ⊢
  · exact h.mono hmn
  · exact ⟨h.1, h.2.1, h.2.2.mono hmn⟩

theorem is4_eq (h : a.Agrees n b) : a.is4 = b.is4 := by
  cases a <;> cases b <;> simp only [Agrees] at h <;> rfl

end Addr.Agrees

namespace Prefix

theorem getMsbD_maskBits {w : Nat} (ip : BitVec w) (n k : Nat) :
    (maskBits ip n).getMsbD k = (decide (k < n) && ip.getMsbD k) := by
  by_cases hk : k < w
  · have hpos : w - 1 - k < w - n ↔ ¬ k < n := by omega
    simp only [maskBits, BitVec.getMsbD, hk, decide_true, Bool.true_and, BitVec.getLsbD_and,
      BitVec.getLsbD_shiftLeft, BitVec.getLsbD_allOnes, hpos]
    by_cases hn : k < n
    · simp [hn, show w - 1 - k < w by omega, show w - 1 - k - (w - n) < w by omega]
    · simp [hn]
  · simp [BitVec.getMsbD, hk]

theorem maskBits_eq_iff {w n : Nat} {a b : BitVec w} :
    maskBits a n = maskBits b n ↔ Agree n a b := by
  constructor
  · intro h k hk
    have hbit := congrArg (fun x => x.getMsbD k) h
    simpa only [getMsbD_maskBits, hk, decide_true, Bool.true_and] using hbit
  · intro h
    apply BitVec.eq_of_getMsbD_eq
    intro k _
    rw [getMsbD_maskBits, getMsbD_maskBits]
    by_cases hk : k < n
    · rw [h k hk]
    · simp [hk]

theorem agree_maskBits {w : Nat} (a : BitVec w) (n : Nat) : Agree n (maskBits a n) a :=
  maskBits_eq_iff.mp (maskBits_maskBits a n)

variable {p q : Prefix} {a : Addr}

def len (p : Prefix) : Nat := p.bitsPlusOne - 1

theorem bits_eq_len (h : p.isValid = true) : p.bits = p.len := by
  simp only [isValid, decide_eq_true_eq] at h
  simp only [bits, len]
  omega

theorem contains_iff : p.contains a = true ↔ p.isValid = true ∧ p.addr.Agrees p.len a := by
  obtain ⟨addr, b, hz, hb⟩ := p
  cases addr with
  | zero => simp [contains, Addr.Agrees]
  | v4 net =>
    cases a with
    | zero | v6 ip z => simp [contains, Addr.Agrees]
    | v4 ip =>
      simp only [contains, Addr.Agrees, Bool.and_eq_true, beq_iff_eq, maskBits_eq_iff, len]
      exact and_congr_right fun _ => ⟨Agree.symm, Agree.symm⟩
  | v6 net z =>
    cases a with
    | zero | v4 ip => simp [contains, Addr.Agrees]
    | v6 ip z' =>
      have hzone : z = "" := hz
      simp only [contains, Addr.Agrees, Bool.and_eq_true, beq_iff_eq, maskBits_eq_iff, len,
        hzone, true_and, and_assoc]
      exact and_congr_right fun _ => and_congr_right fun _ => ⟨Agree.symm, Agree.symm⟩

theorem contains_v4 {net ip : BitVec 32} (hp : p.addr = .v4 net) :
    p.contains (.v4 ip) = true ↔ p.isValid = true ∧ Agree p.len net ip := by
  rw [contains_iff, hp]
  rfl

theorem contains_v6 {net ip : BitVec 128} {z : String} (hp : p.addr = .v6 net z) :
    p.contains (.v6 ip "") = true ↔ p.isValid = true ∧ Agree p.len net ip := by
  have hzone : z = "" := by
    have hz := p.zoneless
    rw [hp] at hz
    exact hz
  rw [contains_iff, hp]
  simp only [Addr.Agrees, hzone, true_and]

theorem isValid_of_contains (h : p.contains a = true) : p.isValid = true := (contains_iff.mp h).1

theorem is4_of_contains (h : p.contains a = true) : p.addr.is4 = a.is4 :=
  (contains_iff.mp h).2.is4_eq

theorem contains_addr (h : p.isValid = true) : p.contains p.addr = true := by
  have haddr := addr_isValid h
  rw [contains_iff]
  refine ⟨h, ?_⟩
  cases hp : p.addr with
  | zero =>
    rw [hp] at haddr
    cases haddr
  | v4 net => exact Agree.refl net
  | v6 net z =>
    have hz := p.zoneless
    rw [hp] at hz
    exact ⟨hz, hz, Agree.refl net⟩

/-- The longer of two prefixes that share an address is inside the other. -/
theorem contains_of_meet (hlen : p.len ≤ q.len) (hp : p.contains a = true)
    (hq : q.contains a = true) {b : Addr} (hb : q.contains b = true) : p.contains b = true := by
  obtain ⟨hvalid, hpa⟩ := contains_iff.mp hp
  have hab : a.Agrees q.len b := (contains_iff.mp hq).2.symm.trans (contains_iff.mp hb).2
  exact contains_iff.mpr ⟨hvalid, hpa.trans (hab.mono hlen)⟩

theorem contains_masked (h : p.isValid = true) : p.masked.contains a = p.contains a := by
  have haddr := addr_isValid h
  have hvalid := masked_isValid h
  have hlen : p.masked.len = p.len := by rw [len, len, masked_bitsPlusOne h]
  have hbase : p.masked.addr.Agrees p.len p.addr := by
    obtain ⟨addr, b, hz, hb⟩ := p
    cases addr with
    | zero => cases haddr
    | v4 ip =>
      rw [masked_v4 h]
      exact agree_maskBits ip _
    | v6 ip z =>
      rw [masked_v6 h]
      exact ⟨rfl, hz, agree_maskBits ip _⟩
  rw [Bool.eq_iff_iff, contains_iff, contains_iff, hlen]
  exact ⟨fun hc => ⟨h, hbase.symm.trans hc.2⟩, fun hc => ⟨hvalid, hbase.trans hc.2⟩⟩

/-- A masked prefix is determined by its length and one address it holds. -/
theorem masked_eq_of_meet (hlen : p.len = q.len) (hp : p.contains a = true)
    (hq : q.contains a = true) : p.masked = q.masked := by
  obtain ⟨hpv, hpa⟩ := contains_iff.mp hp
  obtain ⟨hqv, hqa⟩ := contains_iff.mp hq
  have hbits : p.bitsPlusOne = q.bitsPlusOne := by
    simp only [isValid, decide_eq_true_eq] at hpv hqv
    simp only [len] at hlen
    omega
  have hpq : p.addr.Agrees p.len q.addr := hpa.trans (hlen ▸ hqa.symm)
  obtain ⟨pa, pb, hpz, hpb⟩ := p
  obtain ⟨qa, qb, hqz, hqb⟩ := q
  obtain rfl : pb = qb := hbits
  cases pa with
  | zero => cases addr_isValid hpv
  | v4 x =>
    cases qa with
    | v4 y =>
      have heq : maskBits x (pb - 1) = maskBits y (pb - 1) := maskBits_eq_iff.mpr hpq
      rw [masked_v4 hpv, masked_v4 hqv]
      simp only [heq]
    | zero | v6 y z => cases hpq
  | v6 x z =>
    cases qa with
    | v6 y z' =>
      have heq : maskBits x (pb - 1) = maskBits y (pb - 1) := maskBits_eq_iff.mpr hpq.2.2
      rw [masked_v6 hpv, masked_v6 hqv]
      simp only [heq]
    | zero | v4 y => cases hpq

end Prefix
end SysnetLinux.Netip
