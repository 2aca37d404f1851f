/-
  SysnetLinux.Routing.Decide

  How decisions change when rules come and go.

  Adding or removing rules that can only drop changes a decision to a drop or not
  at all.  Behind a guard that stands, a packet is dropped or decided by a rule
  that is not owned; the owned rules ahead of the guard belong to the app-bypass
  selectors and say nothing about any other packet.
-/

import Mathlib.Data.Finset.Max
import SysnetLinux.Routing.Policy
import SysnetLinux.Routing.Stages

namespace SysnetLinux.Routing

open CallProg CallProg.Prog List

/-! ## Rules that can only drop -/

section Drop

variable {k k' : Kernel} {p : Packet} {gs : List Rule}

theorem decision_of_filter {q : Rule → Bool} (hrules : k'.rules = k.rules.filter q)
    (hroutes : k'.routes = k.routes)
    (hdrop : ∀ r ∈ k.rules, q r = false → r.action = .unreachable) :
    k.decision p = k'.decision p ∨ k.decision p = some .drop := by
  rw [Kernel.decision, Kernel.decision, hrules, hroutes]
  exact FirstMatch.findSome?_filter_or fun r hr hq => verdict_unreachable_or (hdrop r hr hq)

/-- The rules from before an addition are still there in their order. -/
theorem Kernel.filter_mem_addRules (k : Kernel) (gs : List Rule) :
    ((k.addRules gs).rules.filter fun r => decide (r ∈ k.rules)) = k.rules := by
  suffices h : ∀ (gs : List Rule) (x : Kernel), (∀ r ∈ k.rules, r ∈ x.rules) →
      (x.rules.filter fun r => decide (r ∈ k.rules)) = k.rules →
      ((x.addRules gs).rules.filter fun r => decide (r ∈ k.rules)) = k.rules by
    refine h gs k (fun r hr => hr) ?_
    rw [filter_eq_self]
    simp
  intro gs
  induction gs with
  | nil => exact fun x _ hx => hx
  | cons g gs ih =>
    intro x hsub hx
    refine ih (x.addRule g) (fun r hr => mem_addRule.mpr (Or.inr (hsub r hr))) ?_
    by_cases hg : g ∈ x.rules
    · rw [addRule_of_mem hg]
      exact hx
    · rw [filter_addRule, hx]
      rw [decide_eq_false_iff_not]
      exact fun hmem => hg (hsub g hmem)

section

variable (hgs : ∀ g ∈ gs, g.action = .unreachable)
include hgs

theorem decision_addRules :
    (k.addRules gs).decision p = k.decision p ∨ (k.addRules gs).decision p = some .drop := by
  refine decision_of_filter (k.filter_mem_addRules gs).symm (Kernel.addRules_routes k gs).symm ?_
  intro r hr hq
  rcases Kernel.mem_addRules.mp hr with hg | hk
  · exact hgs r hg
  · simp [hk] at hq

theorem Kernel.deleteRules_unreachable :
    (k.deleteRules gs).rules = k.rules.filter fun r => decide (r ∉ gs) := by
  have hpruned : Pruned (fun r => decide (r ∈ gs)) noRoute k (k.deleteRules gs) := by
    refine pruned_deleteRules (fun r hr => by simp [hr]) fun x hx => ?_
    -- no listed entry is unreachable
    have hact := hgs _ hx
    cases hact
  have hrules := hpruned.rules_eq fun r hr => by
    rw [decide_eq_false_iff_not]
    exact fun hmem => not_mem_deleteRules hmem hr
  rw [hrules]
  exact filter_congr fun r _ => by simp

theorem decision_deleteRules :
    k.decision p = (k.deleteRules gs).decision p ∨ k.decision p = some .drop := by
  refine decision_of_filter (Kernel.deleteRules_unreachable hgs) (Kernel.deleteRules_routes k gs) ?_
  intro r _ hq
  exact hgs r (by simpa using hq)

end

end Drop

/-! ## Behind a guard -/

theorem transitionGuard_applies {c : Config} {p : Packet} :
    (transitionGuard c p.family).applies p = true := applies_all p _ _ _

/-- A compiled rule up to its config's guard speaks about bypassed packets only. -/
theorem verdict_ahead_of_guard {c : Config} (hc : c.Valid) {p : Packet}
    (hp : appBypass c p = false) {routes : List Route} {r : Rule} {f : Int}
    (hr : r ∈ compileRules c f) (hprio : r.priority ≤ c.priorityBase + 2) :
    verdict routes p r = none := by
  rcases mem_compileRules_cases hc hr with ⟨-, -, hmark, hmask⟩ | ⟨hlo, -⟩
  · apply verdict_of_not_applies
    rw [Rule.applies, hmark, hmask]
    have hsel : selects c.appBypassMark c.appBypassMask p.mark = false := hp
    rw [hsel, Bool.and_false]
  · omega

/-- The rules up to priority `n` that are not owned. -/
def outsideUpTo (own : Rule → Bool) (n : Int) (k : Kernel) : List Rule :=
  k.rules.filter fun r => decide (r.priority ≤ n) && !own r

/-- A packet that meets a standing guard is dropped, or decided by a rule ahead of
    it that is not owned. -/
theorem decision_behind_guard {k : Kernel} {p : Packet} (own : Rule → Bool) {g : Rule}
    (hg : g ∈ k.rules) (hact : g.action = .unreachable) (happ : g.applies p = true)
    (hown : ∀ r ∈ k.rules, r.priority ≤ g.priority → own r = true →
      verdict k.routes p r = none ∨ verdict k.routes p r = some .drop) :
    k.decision p = some .drop ∨
      ((outsideUpTo own g.priority k).findSome? (verdict k.routes p) ≠ none ∧
        k.decision p = (outsideUpTo own g.priority k).findSome? (verdict k.routes p)) := by
  refine FirstMatch.findSome?_guarded (p := fun r => !own r) k.ordered hg
    (verdict_unreachable happ hact) ?_
  intro r hr hprio hq
  exact hown r hr hprio (by simpa using hq)

/-- If the owned rules up to a priority say nothing, the rules that are not owned
    decide when they can. -/
theorem decision_of_outsideUpTo {k : Kernel} {p : Packet} (own : Rule → Bool) {n : Int}
    (hown : ∀ r ∈ k.rules, r.priority ≤ n → own r = true → verdict k.routes p r = none)
    (hsome : (outsideUpTo own n k).findSome? (verdict k.routes p) ≠ none) :
    k.decision p = (outsideUpTo own n k).findSome? (verdict k.routes p) := by
  have hlow : (outsideUpTo own n k).findSome? (verdict k.routes p) =
      (k.rules.filter fun r => decide (r.priority ≤ n)).findSome? (verdict k.routes p) := by
    have hfilter : outsideUpTo own n k =
        (k.rules.filter fun r => decide (r.priority ≤ n)).filter fun r => !own r := by
      rw [outsideUpTo, filter_filter]
      exact filter_congr fun r _ => Bool.and_comm _ _
    rw [hfilter]
    apply FirstMatch.findSome?_filter
    intro r hr hq
    obtain ⟨hr, hprio⟩ := mem_filter.mp hr
    exact hown r hr (by simpa using hprio) (by simpa using hq)
  rw [hlow] at hsome ⊢
  calc k.decision p = ((k.rules.filter fun r => decide (r.priority ≤ n)) ++
          k.rules.filter fun r => decide (n < r.priority)).findSome? (verdict k.routes p) := by
        rw [← FirstMatch.ordered_split k.ordered n, Kernel.decision]
    _ = (k.rules.filter fun r => decide (r.priority ≤ n)).findSome? (verdict k.routes p) := by
        rw [findSome?_append]
        exact Option.or_of_isSome (Option.isSome_iff_ne_none.mpr hsome)

theorem exists_foremost {configs : List Config} {f : Int}
    (h : ∃ c ∈ configs, familyEnabled c.families f = true) :
    ∃ c ∈ configs, familyEnabled c.families f = true ∧
      ∀ c' ∈ configs, familyEnabled c'.families f = true → c.priorityBase ≤ c'.priorityBase := by
  obtain ⟨c₀, hc₀, hf₀⟩ := h
  obtain ⟨c, hc, hmin⟩ := Finset.exists_min_image
    (configs.filter fun c => familyEnabled c.families f).toFinset Config.priorityBase
    ⟨c₀, by simp [hc₀, hf₀]⟩
  simp only [mem_toFinset, mem_filter] at hc hmin
  exact ⟨c, hc.1, hc.2, fun c' hc' hf' => hmin c' ⟨hc', hf'⟩⟩

end SysnetLinux.Routing
