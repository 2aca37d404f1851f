/-
  SysnetLinux.Routing.Priorities

  The priorities of the rules of a config, over the whole range of a 64-bit `int`.

  `validate` bounds the block of priorities by one comparison with
  `PriorityBase + PrioritySpan`.  The sum wraps for large values and is then negative, which
  passes the comparison; the compiled rules and the range test of `deleteOwnedRules` agree
  with the block exactly if it does not wrap (`priorityBlock_iff`).
-/

import SysnetLinux.Routing.Manager

namespace SysnetLinux.Routing

open List

/-- The range test of `deleteOwnedRules` passes over the rule. -/
def Config.passesOver (c : Config) (rule : Rule) : Prop :=
  rule.priority < c.priorityBase ∨ intAdd c.priorityBase c.prioritySpan ≤ rule.priority
  deriving Decidable

/-- The rules of a family and the transition guard have priorities of the block: they lie in
    it and between the built-in priorities of the kernel, they are distinct, the rules are
    emitted in their order, and the range test selects them. -/
structure PriorityBlock (c : Config) (family : Int) : Prop where
  in_block : ∀ r ∈ transitionGuard c family :: compileRules c family,
    c.priorityBase ≤ r.priority ∧ r.priority < intAdd c.priorityBase c.prioritySpan
  in_kernel : ∀ r ∈ transitionGuard c family :: compileRules c family,
    0 < r.priority ∧ r.priority < 32766
  distinct : ((transitionGuard c family :: compileRules c family).map Rule.priority).Nodup
  ordered : (compileRules c family).Pairwise fun a b => a.priority < b.priority
  selected : ∀ r ∈ transitionGuard c family :: compileRules c family, ¬ c.passesOver r

section Block

variable {c : Config} {family : Int}

/-- Where the sum does not wrap, the comparison of `validate` bounds both summands. -/
theorem Config.valid_of_sum (haccepted : c.validate = .ok ())
    (hsum : c.priorityBase + c.prioritySpan < 2 ^ 63) : c.Valid := by
  have hchecked := Config.checked_of_validate haccepted
  have hbase := hchecked.base_pos
  have hspan := hchecked.span_ge
  have hrange := hchecked.range_le
  rw [intAdd_eq (by omega) hsum] at hrange
  exact ⟨haccepted, by omega, by omega⟩

theorem guard_or_rule_priority (hc : c.Valid) {r : Rule}
    (hr : r ∈ transitionGuard c family :: compileRules c family) :
    c.priorityBase ≤ r.priority ∧ r.priority < c.priorityBase + c.prioritySpan := by
  have hspan := hc.span_ge
  rcases mem_cons.mp hr with rfl | hr
  · rw [transitionGuard_priority hc]
    omega
  · obtain ⟨hlo, hhi, -⟩ := compileRules_priority hc hr
    exact ⟨hlo, hhi⟩

theorem priorityBlock_of_valid (hc : c.Valid) : PriorityBlock c family := by
  have hbase := hc.base_pos
  have hsum := hc.intAdd_span
  have hrange := hc.checked.range_le
  refine ⟨fun r hr => ?_, fun r hr => ?_, ?_, compileRules_increasing hc, fun r hr => ?_⟩
  · rw [hsum]
    exact guard_or_rule_priority hc hr
  · obtain ⟨hlo, hhi⟩ := guard_or_rule_priority hc hr
    omega
  · rw [map_cons, nodup_cons]
    constructor
    · intro hmem
      obtain ⟨r, hr, hsame⟩ := mem_map.mp hmem
      rw [transitionGuard_priority hc] at hsame
      exact (compileRules_priority hc hr).2.2 hsame
    · exact pairwise_map.mpr ((compileRules_increasing hc).imp ne_of_lt)
  · obtain ⟨hlo, hhi⟩ := guard_or_rule_priority hc hr
    unfold Config.passesOver
    rw [hsum]
    omega

/-- A sum of two positive 64-bit integers that wraps is negative. -/
theorem intAdd_neg {a b : Int} (ha : a < 2 ^ 63) (hb : b < 2 ^ 63) (hsum : 2 ^ 63 ≤ a + b) :
    intAdd a b < 0 := by
  unfold intAdd
  rw [Int.bmod_def]
  split
  · omega
  · omega

/-- The rules and the guard of an accepted config stay in its block exactly if the sum of
    base and span does not wrap. -/
theorem priorityBlock_iff (haccepted : c.validate = .ok ()) (hbase : c.priorityBase < 2 ^ 63)
    (hspan : c.prioritySpan < 2 ^ 63) (family : Int) :
    PriorityBlock c family ↔ c.priorityBase + c.prioritySpan < 2 ^ 63 := by
  constructor
  · intro hblock
    by_contra hsum
    -- The first rule has the priority of the base, which is above a negative end.
    have hpos := (Config.checked_of_validate haccepted).base_pos
    have hfirst : intAdd c.priorityBase ruleOffsetAppMain = c.priorityBase := by
      rw [ruleOffsetAppMain, intAdd_eq (by omega) (by omega), Int.add_zero]
    have hmem : markRule family (intAdd c.priorityBase ruleOffsetAppMain) .lookup rtTableMain
        c.appBypassMark c.appBypassMask ∈ transitionGuard c family :: compileRules c family :=
      mem_cons_of_mem _ mem_cons_self
    have hend : intAdd c.priorityBase ruleOffsetAppMain < intAdd c.priorityBase c.prioritySpan :=
      (hblock.in_block _ hmem).2
    have hneg := intAdd_neg hbase hspan (by omega)
    omega
  · intro hsum
    exact priorityBlock_of_valid (Config.valid_of_sum haccepted hsum)

end Block

theorem priorityBlock_iff_sample :
    sampleConfig.validate = .ok () ∧
      (PriorityBlock sampleConfig afInet ↔
        sampleConfig.priorityBase + sampleConfig.prioritySpan < 2 ^ 63) :=
  ⟨rfl, priorityBlock_iff rfl (by decide) (by decide) afInet⟩

/-- Base and span of 2^62 each. -/
def wrappingConfig : Config :=
  { sampleConfig with priorityBase := 2 ^ 62, prioritySpan := 2 ^ 62 }

/-- `validate` accepts the config, the transition guard has a priority above all of the
    kernel's, and the range test passes over it. -/
theorem wrapping_sum_accepted :
    wrappingConfig.validate = .ok () ∧ ¬ PriorityBlock wrappingConfig afInet ∧
      32766 < (transitionGuard wrappingConfig afInet).priority ∧
      wrappingConfig.passesOver (transitionGuard wrappingConfig afInet) := by
  have hpasses : wrappingConfig.passesOver (transitionGuard wrappingConfig afInet) := by decide
  refine ⟨rfl, fun hblock => ?_, by decide, hpasses⟩
  exact hblock.selected _ mem_cons_self hpasses

end SysnetLinux.Routing
