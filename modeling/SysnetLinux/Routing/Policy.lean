/-
  SysnetLinux.Routing.Policy

  What the compiled rules are for.  `intended` states the policy of a config in
  the terms of the package documentation, without rules or priorities; the main
  result is that a kernel that holds the rules of `compileRules` decides every
  packet the way the policy says, whatever the tables contain.
-/

import SysnetLinux.Routing.Compiler
import SysnetLinux.Routing.Kernel

namespace SysnetLinux.Routing

open List

/-! ## Mark selectors -/

/-- A mark matches a selector when it agrees with it on every bit of the mask. -/
theorem selects_iff {mark mask m : BitVec 32} :
    selects mark mask m = true ↔ ∀ (i : Nat) (_ : i < 32), mask[i] = true → m[i] = mark[i] := by
  rw [selects, beq_iff_eq]
  constructor
  · intro h i hi hmask
    have hbit : ((m ^^^ mark) &&& mask)[i] = (0#32)[i] := by rw [h]; rfl
    simpa [BitVec.getElem_and, BitVec.getElem_xor, hmask] using hbit
  · intro h
    apply BitVec.eq_of_getElem_eq
    intro i hi
    rw [BitVec.getElem_and, BitVec.getElem_xor]
    cases hmask : mask[i] with
    | false => simp
    | true => simp [h i hi hmask]

/-- `marksOverlap` is exactly that some mark matches both selectors. -/
theorem marksOverlap_iff {aValue aMask bValue bMask : BitVec 32} :
    marksOverlap aValue aMask bValue bMask = true ↔
      ∃ m, selects aValue aMask m = true ∧ selects bValue bMask m = true := by
  rw [marksOverlap, beq_iff_eq]
  simp only [selects_iff]
  constructor
  · -- the witness takes the bits of each value under its own mask
    intro h
    have hbit : ∀ (i : Nat) (_ : i < 32), aMask[i] = true → bMask[i] = true →
        aValue[i] = bValue[i] := by
      intro i hi ha hb
      have hi' := congrArg (fun v : BitVec 32 => v[i]) h
      simpa [BitVec.getElem_and, ha, hb] using hi'
    refine ⟨(aValue &&& aMask) ||| (bValue &&& bMask), ?_, ?_⟩
    · intro i hi ha
      rw [BitVec.getElem_or, BitVec.getElem_and, BitVec.getElem_and, ha]
      cases hb : bMask[i] with
      | false => simp
      | true => simp [hbit i hi ha hb]
    · intro i hi hb
      rw [BitVec.getElem_or, BitVec.getElem_and, BitVec.getElem_and, hb]
      cases ha : aMask[i] with
      | false => simp
      | true => simp [hbit i hi ha hb]
  · rintro ⟨m, ha, hb⟩
    apply BitVec.eq_of_getElem_eq
    intro i hi
    simp only [BitVec.getElem_and]
    cases hma : aMask[i] with
    | false => simp
    | true =>
      cases hmb : bMask[i] with
      | false => simp
      | true => rw [← ha i hi hma, ← hb i hi hmb]

/-- The packet matches the app-bypass selector. -/
def appBypass (c : Config) (p : Packet) : Bool := selects c.appBypassMark c.appBypassMask p.mark

/-- The packet matches the user selector. -/
def userMarked (c : Config) (p : Packet) : Bool := selects c.userMark c.userMarkMask p.mark

/-- In an accepted config no packet matches both selectors. -/
theorem userMarked_of_appBypass {c : Config} (hc : c.Checked) {p : Packet}
    (h : appBypass c p = true) : userMarked c p = false := by
  by_contra hu
  rw [Bool.not_eq_false] at hu
  have hoverlap := marksOverlap_iff.mpr ⟨p.mark, h, hu⟩
  rw [hc.marks_apart] at hoverlap
  cases hoverlap

/-! ## The policy -/

/-- Route the packet through a table, and do what `otherwise` says if the table
    has no route for it. -/
def through (routes : List Route) (p : Packet) (table : Int) (otherwise : Option Decision) :
    Option Decision :=
  (lookupIn routes p table).or otherwise

/-- The policy for the packets of a tunnelled family that do not match the app-bypass selector. -/
def tunnelPolicy (c : Config) (routes : List Route) (p : Packet) : Option Decision :=
  match c.mode, c.strictness with
  | .modeExclude, .strict =>
    if userMarked c p then some .drop else through routes p c.vpnTable (some .drop)
  | .modeExclude, .nonStrict =>
    if userMarked c p then through routes p rtTableMain (some .drop)
    else through routes p c.safeTable (through routes p c.vpnTable (some .drop))
  | .modeInclude, .strict =>
    if userMarked c p then through routes p c.vpnTable (some .drop) else some .drop
  | .modeInclude, .nonStrict =>
    through routes p c.safeTable
      (if userMarked c p then through routes p c.vpnTable (some .drop)
        else through routes p rtTableMain none)
  | _, _ => none

/-- The policy of a config for the packets of one of its families.  The result
    `none` means that the block leaves the packet to the rules behind it. -/
def intended (c : Config) (routes : List Route) (p : Packet) : Option Decision :=
  if appBypass c p then through routes p rtTableMain (some .drop)
  else if !familyEnabled (effectiveTunnelFamilies c) p.family then some .drop
  else tunnelPolicy c routes p

/-! ## The rules give the policy -/

section Walk

variable (c : Config) (routes : List Route) (p : Packet)

theorem applies_all (priority : Int) (action : RuleAction) (table : Int) :
    Rule.applies ⟨p.family, priority, action, table, 0, 0⟩ p = true := by
  rw [Rule.applies, selects_zero, beq_self_eq_true, Bool.and_self]

theorem verdict_allRule_lookup (table : Int) :
    verdict routes p (allRule p.family .lookup table) = lookupIn routes p table := by
  rw [verdict, allRule, if_pos (applies_all p 0 .lookup table)]

theorem verdict_allRule_unreachable (table : Int) :
    verdict routes p (allRule p.family .unreachable table) = some .drop :=
  verdict_unreachable (applies_all p 0 .unreachable table) rfl

theorem applies_userRule (action : RuleAction) (table : Int) :
    (userRule c p.family action table).applies p = userMarked c p := by
  simp [Rule.applies, userRule, userMarked]

theorem verdict_userRule_lookup (table : Int) :
    verdict routes p (userRule c p.family .lookup table) =
      if userMarked c p then lookupIn routes p table else none := by
  rw [verdict, applies_userRule]
  rfl

theorem verdict_userRule_unreachable (table : Int) :
    verdict routes p (userRule c p.family .unreachable table) =
      if userMarked c p then some .drop else none := by
  rw [verdict, applies_userRule]
  rfl

/-- A walk does not see the priorities. -/
theorem findSome?_numberRules (n : Int) (rules : List Rule) :
    (numberRules n rules).findSome? (verdict routes p) = rules.findSome? (verdict routes p) := by
  induction rules generalizing n with
  | nil => rfl
  | cons r rules ih =>
    have hhead : verdict routes p { r with priority := n } = verdict routes p r := rfl
    rw [numberRules, findSome?_cons, findSome?_cons, hhead, ih]

/-- The walk over the rules of the app-bypass selector. -/
theorem findSome?_appRules : (appRules c p.family).findSome? (verdict routes p) =
      if appBypass c p then through routes p rtTableMain (some .drop) else none := by
  have happ : ∀ priority action table,
      Rule.applies ⟨p.family, priority, action, table, c.appBypassMark, c.appBypassMask⟩ p
        = appBypass c p := by
    intro priority action table
    simp [Rule.applies, appBypass]
  simp only [appRules, markRule, FirstMatch.findSome?_cons_or, findSome?_nil, verdict, happ,
    through]
  cases appBypass c p with
  | false => rfl
  | true => simp

/-- The walk over the rules behind the guard. -/
theorem findSome?_policyRules : (policyRules c p.family).findSome? (verdict routes p) =
      if !familyEnabled (effectiveTunnelFamilies c) p.family then some .drop
      else tunnelPolicy c routes p := by
  unfold policyRules tunnelPolicy through
  split
  · rw [findSome?_cons, verdict_allRule_unreachable]
  · cases c.mode <;> cases c.strictness <;>
      simp only [FirstMatch.findSome?_cons_or, findSome?_nil, verdict_allRule_lookup,
        verdict_allRule_unreachable, verdict_userRule_lookup, verdict_userRule_unreachable] <;>
      cases userMarked c p <;> simp

end Walk

/-- A kernel that holds the rules of a family decides the family's packets as
    the policy says, and the policy's two selectors never meet in one packet. -/
theorem decision_compileRules (c : Config) (hc : c.Valid) (p : Packet) (k : Kernel)
    (hrules : ∀ r, r ∈ k.rules ↔ r ∈ compileRules c p.family) :
    k.decision p = intended c k.routes p ∧ (appBypass c p = true → userMarked c p = false) := by
  refine ⟨?_, userMarked_of_appBypass hc.checked⟩
  rw [Kernel.decision, FirstMatch.ordered_eq_of_increasing k.ordered k.rules_nodup
    (compileRules_increasing hc) hrules,
    compileRules, findSome?_append, findSome?_appRules, findSome?_numberRules,
    findSome?_policyRules, intended]
  cases appBypass c p with
  | false => rfl
  | true => simp [through]

/-- The rules of a sample config drop an unmarked packet while the VPN table is empty. -/
theorem decision_sampleConfig :
    (Kernel.empty.addRules (compileRules sampleConfig afInet)).decision
        ⟨afInet, 0#32, fun _ => true⟩ = some .drop :=
  (decision_compileRules sampleConfig sampleConfig_valid ⟨afInet, 0#32, fun _ => true⟩
    (Kernel.empty.addRules (compileRules sampleConfig afInet))
    (fun r => by simp [Kernel.empty])).1.trans (by decide)

end SysnetLinux.Routing
