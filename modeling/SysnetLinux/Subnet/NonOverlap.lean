/-
  SysnetLinux.Subnet.NonOverlap

  The subnet filter is exactly non-overlap.

  Networks that denote prefixes are normalised to the short form of the masked prefix
  (`normalizeIPNet_denotes`), on which the tests of the source are those of `netip`; that two
  networks overlap when one of them holds the other's base address is the nesting of prefixes
  (`overlap_iff`).
-/

import SysnetLinux.Subnet.System

namespace SysnetLinux.Subnet

open Net Netip List

/-! ## Normal forms -/

variable {p q : Prefix}

theorem plain_masked (hvalid : p.isValid = true) (h : Plain p.addr) : Plain p.masked.addr :=
  ⟨Prefix.addr_isValid (Prefix.masked_isValid hvalid), Prefix.masked_not_mapped h.2.1,
    p.masked.zoneless⟩

theorem masked_len (hvalid : p.isValid = true) : p.masked.len = p.len := by
  rw [Prefix.len, Prefix.len, Prefix.masked_bitsPlusOne hvalid]

theorem normalizeIP_represents {ip : IP} {a : Addr} (h : Represents ip a) :
    normalizeIP ip = some (addrBytes a) := by
  rw [normalizeIP, h.to4]
  cases h4 : a.is4 with
  | true => rfl
  | false => exact h.to16 h4

/-- A network is normalised to the short form of its masked prefix. -/
theorem normalizeIPNet_denotes {n : IPNet} (h : n.Denotes p) :
    normalizeIPNet (some n) = some (IPNet.ofPrefix p.masked) := by
  have hplain := h.ip.plain
  have hsize : maskSize n.mask = (p.len, width p.addr * 8) := by
    rw [h.mask]
    exact maskSize_cidrMaskBytes (len_le hplain)
  have hshort : IPNet.ofPrefix p.masked =
      ⟨addrBytes p.masked.addr, cidrMaskBytes (width p.addr) p.len⟩ := by
    rw [IPNet.ofPrefix, masked_len h.valid, width, Prefix.masked_is4 h.valid]
    rfl
  rw [hshort]
  cases h4 : p.addr.is4 with
  | true =>
    have hbits : width p.addr * 8 = 32 := by simp [width, h4]
    simp only [normalizeIPNet, hsize, hbits, h.ip.to4, h4, if_true]
    simp [h.mask, ipMask_addrBytes h.valid hplain]
  | false =>
    have hbits : width p.addr * 8 = 128 := by simp [width, h4]
    simp only [normalizeIPNet, hsize, hbits, h.ip.to16 h4]
    simp [h.mask, ipMask_addrBytes h.valid hplain]

theorem addrIPNet_denotes {n : IPNet} (h : n.Denotes p) :
    addrIPNet (.ipNet (some n)) = some (addrBytes p.addr, IPNet.ofPrefix p.masked) := by
  simp only [addrIPNet, normalizeIPNet_denotes h, normalizeIP_represents h.ip]

variable {locals : List IPNet} {prefixes : List Prefix} {candidate : IPNet}

theorem newSystemNetworks_denotes (h : List.Forall₂ IPNet.Denotes locals prefixes) :
    newSystemNetworks (locals.map fun n => .ipNet (some n)) =
      ⟨prefixes.map fun q => addrBytes q.addr, prefixes.map fun q => IPNet.ofPrefix q.masked⟩ := by
  have hkept : (locals.map fun n => NetAddr.ipNet (some n)).filterMap addrIPNet =
      prefixes.map fun q => (addrBytes q.addr, IPNet.ofPrefix q.masked) := by
    induction h with
    | nil => rfl
    | cons hn _ ih => rw [map_cons, filterMap_cons, addrIPNet_denotes hn, ih]; rfl
  rw [newSystemNetworks, hkept, map_map, map_map]
  rfl

/-! ## The tests on short forms -/

section Tests

variable (hp : Plain p.addr) (hq : Plain q.addr)
include hp hq

theorem sameFamily_addrBytes :
    sameFamily (addrBytes p.addr) (addrBytes q.addr) = (p.addr.is4 == q.addr.is4) := by
  rw [sameFamily, to4_addrBytes hp, to4_addrBytes hq]
  cases p.addr.is4 <;> cases q.addr.is4 <;> rfl

theorem sameSubnet_ofPrefix (hpv : p.isValid = true) (hqv : q.isValid = true) :
    sameSubnet (IPNet.ofPrefix p) (IPNet.ofPrefix q) = true ↔ p = q := by
  rw [sameSubnet, maskSize_ofPrefix hp, maskSize_ofPrefix hq]
  simp only [Bool.and_eq_true, beq_iff_eq, IPNet.ofPrefix, ipEqual_addrBytes hp hq,
    decide_eq_true_eq]
  constructor
  · rintro ⟨⟨-, hlen⟩, haddr⟩
    have hbits : p.bitsPlusOne = q.bitsPlusOne := by
      simp only [Prefix.isValid, decide_eq_true_eq] at hpv hqv
      simp only [Prefix.len] at hlen
      omega
    obtain ⟨pa, pb, hpz, hpb⟩ := p
    obtain ⟨qa, qb, hqz, hqb⟩ := q
    obtain rfl : pa = qa := haddr
    obtain rfl : pb = qb := hbits
    rfl
  · rintro rfl
    exact ⟨⟨rfl, rfl⟩, rfl⟩

/-- One of two networks holds the other's base when they share an address. -/
theorem overlap_iff (hpv : p.isValid = true) (hqv : q.isValid = true) :
    overlap (IPNet.ofPrefix p) (IPNet.ofPrefix q) = true ↔
      ∃ a, p.contains a = true ∧ q.contains a = true := by
  simp only [overlap, Bool.and_eq_true, Bool.or_eq_true]
  rw [show (IPNet.ofPrefix p).ip = addrBytes p.addr from rfl,
    show (IPNet.ofPrefix q).ip = addrBytes q.addr from rfl, sameFamily_addrBytes hp hq,
    contains_ofPrefix hpv hp hq, contains_ofPrefix hqv hq hp, beq_iff_eq]
  constructor
  · rintro ⟨-, h | h⟩
    · exact ⟨q.addr, h, Prefix.contains_addr hqv⟩
    · exact ⟨p.addr, Prefix.contains_addr hpv, h⟩
  · rintro ⟨a, hpa, hqa⟩
    refine ⟨(Prefix.is4_of_contains hpa).trans (Prefix.is4_of_contains hqa).symm, ?_⟩
    rcases Nat.le_total p.len q.len with hle | hle
    · exact .inl (Prefix.contains_of_meet hle hpa hqa (Prefix.contains_addr hqv))
    · exact .inr (Prefix.contains_of_meet hle hqa hpa (Prefix.contains_addr hpv))

end Tests

/-! ## The filter -/

/-- The candidate stays clear of a local network: it does not hold the interface address,
    is not that network, and shares no address with it unless it is broader than /8. -/
structure ClearOf (p q : Prefix) : Prop where
  address : q.addr.is4 = p.addr.is4 → p.contains q.addr = false
  network : p.masked ≠ q.masked
  disjoint : q.addr.is4 = p.addr.is4 → 8 ≤ q.bits →
    ∀ a, ¬ (p.contains a = true ∧ q.contains a = true)

/-- A local address or its network stops the candidate in `usesSubnet`. -/
def stops (p q : Prefix) : Bool :=
  (sameFamily (IPNet.ofPrefix p).ip (addrBytes q.addr) &&
      (IPNet.ofPrefix p).contains (addrBytes q.addr)) ||
    (sameSubnet (IPNet.ofPrefix p) (IPNet.ofPrefix q.masked) ||
      (!ignoredBroadOverlapNetwork (IPNet.ofPrefix q.masked) &&
        overlap (IPNet.ofPrefix p) (IPNet.ofPrefix q.masked)))

theorem usesSubnet_eq (hlocals : List.Forall₂ IPNet.Denotes locals prefixes)
    (hcandidate : candidate.Denotes p) :
    (newSystemNetworks (locals.map fun n => .ipNet (some n))).usesSubnet (some candidate) =
      prefixes.any (stops p.masked) := by
  rw [newSystemNetworks_denotes hlocals, SystemNetworks.usesSubnet,
    normalizeIPNet_denotes hcandidate]
  simp only [any_map, Function.comp_def]
  rw [Bool.eq_iff_iff, Bool.or_eq_true, any_eq_true, any_eq_true, any_eq_true, ← exists_or]
  refine exists_congr fun q => ?_
  rw [← and_or_left, ← Bool.or_eq_true]
  rfl

section Stops

variable (hpv : p.isValid = true) (hp : Plain p.addr) (hqv : q.isValid = true)
  (hq : Plain q.addr)
include hpv hp hqv hq

theorem stops_iff : stops p.masked q = true ↔
    (p.addr.is4 = q.addr.is4 ∧ p.contains q.addr = true) ∨ p.masked = q.masked ∨
      (8 ≤ q.bits ∧ ∃ a, p.contains a = true ∧ q.contains a = true) := by
  have hpv' := Prefix.masked_isValid hpv
  have hqv' := Prefix.masked_isValid hqv
  have hp' := plain_masked hpv hp
  have hq' := plain_masked hqv hq
  have hbroad : ignoredBroadOverlapNetwork (IPNet.ofPrefix q.masked) = decide (q.bits < 8) := by
    rw [ignoredBroadOverlapNetwork, maskSize_ofPrefix hq', masked_len hqv,
      Prefix.bits_eq_len hqv, decide_eq_decide]
    omega
  have hfamily : sameFamily (IPNet.ofPrefix p.masked).ip (addrBytes q.addr) =
      (p.addr.is4 == q.addr.is4) := by
    rw [← Prefix.masked_is4 hpv]
    exact sameFamily_addrBytes hp' hq
  have hholds : (IPNet.ofPrefix p.masked).contains (addrBytes q.addr) = p.contains q.addr := by
    rw [contains_ofPrefix hpv' hp' hq, Prefix.contains_masked hpv]
  have hmeet : overlap (IPNet.ofPrefix p.masked) (IPNet.ofPrefix q.masked) = true ↔
      ∃ a, p.contains a = true ∧ q.contains a = true := by
    rw [overlap_iff hp' hq' hpv' hqv']
    simp only [Prefix.contains_masked hpv, Prefix.contains_masked hqv]
  rw [stops, hfamily, hholds, hbroad, Bool.or_eq_true, Bool.or_eq_true, Bool.and_eq_true,
    Bool.and_eq_true, beq_iff_eq, sameSubnet_ofPrefix hp' hq' hpv' hqv', hmeet,
    Bool.not_eq_true', decide_eq_false_iff_not, Int.not_lt]

theorem stops_eq_false_iff : stops p.masked q = false ↔ ClearOf p q := by
  rw [← Bool.not_eq_true, stops_iff hpv hp hqv hq]
  constructor
  · intro h
    refine ⟨fun hsame => ?_, fun heq => h (.inr (.inl heq)), fun _ hlong a ha => ?_⟩
    · exact Bool.eq_false_iff.mpr fun hheld => h (.inl ⟨hsame.symm, hheld⟩)
    · exact h (.inr (.inr ⟨hlong, a, ha⟩))
  · rintro h (⟨hsame, hheld⟩ | heq | ⟨hlong, a, ha⟩)
    · rw [h.address hsame.symm] at hheld
      cases hheld
    · exact h.network heq
    · exact h.disjoint ((Prefix.is4_of_contains ha.2).trans (Prefix.is4_of_contains ha.1).symm)
        hlong a ha

end Stops

theorem plain_of_denotes (h : List.Forall₂ IPNet.Denotes locals prefixes) :
    ∀ q ∈ prefixes, q.isValid = true ∧ Plain q.addr := by
  induction h with
  | nil => simp
  | cons hn _ ih => exact forall_mem_cons.mpr ⟨⟨hn.valid, hn.ip.plain⟩, ih⟩

theorem usesSubnet_eq_false_iff (hlocals : List.Forall₂ IPNet.Denotes locals prefixes)
    (hcandidate : candidate.Denotes p) :
    (newSystemNetworks (locals.map fun n => .ipNet (some n))).usesSubnet (some candidate) = false ↔
      ∀ q ∈ prefixes, ClearOf p q := by
  rw [usesSubnet_eq hlocals hcandidate, any_eq_false]
  refine forall₂_congr fun q hq => ?_
  obtain ⟨hqv, hqp⟩ := plain_of_denotes hlocals q hq
  rw [Bool.not_eq_true]
  exact stops_eq_false_iff hcandidate.valid hcandidate.ip.plain hqv hqp

/-- While the interfaces can be listed, the wrapped filter allows what is clear of them and
    allowed by the caller. -/
theorem wrapDynamicSubnetFilter_iff {filter : Filter (Option IPNet)}
    (hlocals : List.Forall₂ IPNet.Denotes locals prefixes) (hcandidate : candidate.Denotes p) :
    wrapDynamicSubnetFilter filter (some (some (locals.map fun n => .ipNet (some n))))
        (some candidate) = true ↔
      (∀ q ∈ prefixes, ClearOf p q) ∧ filter.allows (some candidate) = true := by
  rw [← usesSubnet_eq_false_iff hlocals hcandidate]
  simp only [wrapDynamicSubnetFilter, currentSystemNetworks]
  split
  · rename_i huses
    simp [huses]
  · rename_i hfree
    simp [Bool.not_eq_true _ ▸ hfree]

theorem uses_subnet_iff {locals : List IPNet} {prefixes : List Prefix} {candidate : IPNet}
    {p : Prefix} (hlocals : List.Forall₂ IPNet.Denotes locals prefixes)
    (hcandidate : candidate.Denotes p) :
    ((newSystemNetworks (locals.map fun n => .ipNet (some n))).usesSubnet (some candidate) = false ↔
      (∀ q ∈ prefixes, q.addr.is4 = p.addr.is4 → p.contains q.addr = false) ∧
      (∀ q ∈ prefixes, p.masked ≠ q.masked) ∧
      ∀ q ∈ prefixes, q.addr.is4 = p.addr.is4 → 8 ≤ q.bits →
        ∀ a, ¬ (p.contains a = true ∧ q.contains a = true)) ∧
    ∀ locals' candidate' p', List.Forall₂ IPNet.Denotes locals' prefixes →
      candidate'.Denotes p' → p'.masked = p.masked →
      (newSystemNetworks (locals'.map fun n => .ipNet (some n))).usesSubnet (some candidate') =
        (newSystemNetworks (locals.map fun n => .ipNet (some n))).usesSubnet (some candidate) := by
  constructor
  · rw [usesSubnet_eq_false_iff hlocals hcandidate]
    constructor
    · intro hclear
      exact ⟨fun q hq => (hclear q hq).address, fun q hq => (hclear q hq).network,
        fun q hq => (hclear q hq).disjoint⟩
    · rintro ⟨haddress, hnetwork, hdisjoint⟩ q hq
      exact ⟨haddress q hq, hnetwork q hq, hdisjoint q hq⟩
  · intro locals' candidate' p' hlocals' hcandidate' hmasked
    rw [usesSubnet_eq hlocals hcandidate, usesSubnet_eq hlocals' hcandidate', hmasked]

/-- The interface address 10.20.30.40/24 as the kernel reports it, in the 16-byte form. -/
def localNet : IPNet := ⟨v4InV6Prefix ++ [10, 20, 30, 40], [255, 255, 255, 0]⟩

/-- 10.20.31.7/24, with host bits. -/
def candidateNet : IPNet := ⟨[10, 20, 31, 7], [255, 255, 255, 0]⟩

theorem uses_subnet_iff_separate :
    (newSystemNetworks [.ipNet (some localNet)]).usesSubnet (some candidateNet) = false ∧
      ∀ a, ¬ ((Prefix.ofV4 0x0a141f07#32 24).contains a = true ∧
        (Prefix.ofV4 0x0a141e28#32 24).contains a = true) := by
  have hlocal : localNet.Denotes (Prefix.ofV4 0x0a141e28#32 24) :=
    ⟨.long 0x0a141e28#32, rfl, by decide⟩
  have hcandidate : candidateNet.Denotes (Prefix.ofV4 0x0a141f07#32 24) :=
    ⟨.short 0x0a141f07#32, rfl, by decide⟩
  have hfree : (newSystemNetworks [.ipNet (some localNet)]).usesSubnet (some candidateNet) =
      false := by decide +kernel
  have hiff := (uses_subnet_iff (.cons hlocal .nil) hcandidate).1
  obtain ⟨-, -, hdisjoint⟩ := hiff.mp hfree
  exact ⟨hfree, hdisjoint _ mem_cons_self rfl (by decide)⟩

theorem wrapDynamicSubnetFilter_separate :
    wrapDynamicSubnetFilter none (some (some [.ipNet (some localNet)])) (some candidateNet) = true ∧
      ClearOf (Prefix.ofV4 0x0a141f07#32 24) (Prefix.ofV4 0x0a141e28#32 24) := by
  have hlocal : localNet.Denotes (Prefix.ofV4 0x0a141e28#32 24) :=
    ⟨.long 0x0a141e28#32, rfl, by decide⟩
  have hfree : wrapDynamicSubnetFilter none (some (some [.ipNet (some localNet)]))
      (some candidateNet) = true := by decide +kernel
  exact ⟨hfree, ((wrapDynamicSubnetFilter_iff (.cons hlocal .nil)
    ⟨.short 0x0a141f07#32, rfl, by decide⟩).mp hfree).1 _ mem_cons_self⟩

end SysnetLinux.Subnet
