/-
  SysnetLinux.Routing.Converge

  What a successful `Apply` leaves in the kernel.

  The tables always converge.  Stale rules are recognised by their listed form, and a rule that is
  listed like a transition guard is kept; this is the only way in which the block is left with a
  rule that is not desired (`apply_converges_iff`).
-/

import SysnetLinux.Routing.Frame

namespace SysnetLinux.Routing

open CallProg CallProg.Prog List

/-! ## The reconciled state -/

/-- A listing shows the rule like one of the guards. -/
def LooksLikeGuard (guards : List Rule) (r : Rule) : Prop :=
  ∃ g ∈ guards, listedRule r = listedRule g

theorem keepRule_listed {configs : List Config} {r : Rule} :
    keepRule (listedRule r) (transitionGuards configs) = true ↔
      LooksLikeGuard (transitionGuards configs) r := by
  rw [keepRule_iff]
  constructor
  · rintro ⟨g, hg, hr | hr⟩
    · -- a guard is unreachable, a listed rule is a lookup
      have hact := transitionGuard_action hg
      rw [← hr] at hact
      cases hact
    · exact ⟨g, hg, hr⟩
  · rintro ⟨g, hg, hr⟩
    exact ⟨g, hg, .inr hr⟩

section Reconciled

variable {m : Manager} {d : DesiredState} (hm : m.Good) (hd : d.Compiled) {k₀ : Kernel}
  {r : Rule}
include hm hd

omit hd in
/-- A rule of the applied state is never taken for a guard: it is obsolete,
    desired, or a guard itself. -/
theorem obsolete_of_looksLikeGuard (hr : r ∈ m.appliedRules)
    (hlike : LooksLikeGuard (m.guards d) r) (hnew : r ∉ d.rules) (hguard : r ∉ m.guards d) :
    r ∈ m.obsoleteRules d (m.guards d) := by
  obtain ⟨g, hg, hlisted⟩ := hlike
  refine mem_filter.mpr ⟨hr, ?_⟩
  have hkeep : keepRule r (m.guards d) = false := by
    rw [Bool.eq_false_iff]
    intro hkeep
    obtain ⟨g', hg', he | he⟩ := keepRule_iff.mp hkeep
    · exact hguard (he ▸ hg')
    · -- the listed form of a guard looks up table 0, which no compiled rule does
      obtain ⟨c, -, f, -, rfl⟩ := mem_transitionGuards.mp hg'
      unfold Manager.appliedRules at hr
      split at hr
      · cases hr
      · rename_i a ha
        have hcompiled := hm a ha
        have hmem := (hcompiled.mem_rules.mp hr).2
        refine compileRules_table_ne_zero hcompiled.valid hmem ?_ ?_
        · rw [he]
          rfl
        · rw [he]
          rfl
  have hsame : sameRulePriorityAsGuard r (m.guards d) = true := by
    rw [sameRulePriorityAsGuard, any_eq_true]
    exact ⟨g, hg, by simp [family_of_listed hlisted, priority_of_listed hlisted]⟩
  simp [hnew, hkeep, hsame]

/-- The rules behind the guards once the old ones are deleted. -/
theorem mem_cleared (hguard : r ∉ m.guards d) : r ∈ (m.cleared d k₀).rules ↔
      r ∈ k₀.rules ∧ r ∉ m.obsoleteRules d (m.guards d) ∧
        (ownsRule (m.configs d.config) r = true → LooksLikeGuard (m.guards d) r) := by
  have hstale : stale (m.configs d.config) (m.guards d) r = false ↔
      (ownsRule (m.configs d.config) r = true → LooksLikeGuard (m.guards d) r) := by
    rw [stale, Bool.and_eq_false_iff, Bool.not_eq_false', Manager.guards, keepRule_listed,
      ← Bool.not_eq_true]
    tauto
  have hmem : r ∈ (m.cleared d k₀).rules ↔
      r ∈ ((k₀.addRules (m.guards d)).deleteRules (m.obsoleteRules d (m.guards d))).rules ∧
        stale (m.configs d.config) (m.guards d) r = false := by
    simp [Manager.cleared, Manager.routed, Manager.flushed, mem_filter]
  rw [hmem, hstale]
  constructor
  · rintro ⟨hr, hlike⟩
    have hsub := (Kernel.deleteRules_sublist _ _).subset hr
    refine ⟨?_, fun hobs => Kernel.not_mem_deleteRules hobs hr, hlike⟩
    rcases Kernel.mem_addRules.mp hsub with hg | hk
    · exact absurd hg hguard
    · exact hk
  · rintro ⟨hr, hobs, hlike⟩
    refine ⟨Kernel.mem_deleteRules_of_not_mem (Kernel.mem_addRules.mpr (.inr hr)) hobs ?_, hlike⟩
    intro hlisted
    obtain ⟨-, -, hkeep, howned⟩ := Manager.obsolete_spec hm hd hlisted
    rw [ownsRule_listed (listedRule_listedRule r)] at howned
    rw [Manager.guards, keepRule_listed.mpr (hlike howned)] at hkeep
    cases hkeep

theorem mem_reconciled : r ∈ (m.reconciled d k₀).rules ↔
      r ∈ d.rules ∨ (r ∈ k₀.rules ∧ r ∉ m.guards d ∧ r ∉ m.obsoleteRules d (m.guards d) ∧
        (ownsRule (m.configs d.config) r = true → LooksLikeGuard (m.guards d) r)) := by
  have hremoved : r ∈ (m.plan d).removed ↔ r ∈ m.guards d ∧ r ∉ d.rules := by
    simp [Manager.plan]
  have hdrop : ∀ g ∈ (m.plan d).removed, g.action = .unreachable := fun g hg =>
    transitionGuard_action (mem_filter.mp hg).1
  rw [Manager.reconciled, Kernel.mem_deleteRules_unreachable hdrop, hremoved, Manager.settled,
    Kernel.mem_addRules]
  by_cases hguard : r ∈ m.guards d
  · tauto
  · rw [mem_cleared hm hd hguard]
    tauto

omit hm hd in
theorem mem_reconciled_routes {a : Route} : a ∈ (m.reconciled d k₀).routes ↔
      a ∈ d.vpnRoutes ∨ a ∈ d.safeRoutes ∨
        (a ∈ k₀.routes ∧ ownsRoute (m.configs d.config) a = false) := by
  simp only [Manager.reconciled, Manager.settled, Manager.cleared, Manager.routed,
    Manager.flushed, Kernel.deleteRules_routes, Kernel.addRules_routes, Kernel.without_routes,
    Bool.not_false, filter_true, Kernel.mem_replaceRoutes, mem_filter,
    Bool.not_eq_true']
  tauto

end Reconciled

/-- An `Apply` that returns nil has reconciled the kernel. -/
theorem apply_done {m : Manager} (hm : m.Good) {c : Config} (hc : c.Valid) {k k' : Kernel}
    {tr : List (Event AdapterCall Kernel)} {m' : Manager}
    (hex : Exec adapter (m.apply c) k tr (m', none) k') :
    m' = { m with applied := some (desiredFrom c k) } ∧ k' = m.reconciled (desiredFrom c k) k := by
  by_cases hopen : m.closed = true
  · obtain ⟨e, he, -⟩ := Manager.apply_refused c (.inl hopen)
    rw [he] at hex
    cases hex
  · rw [Bool.not_eq_true] at hopen
    obtain ⟨-, hend⟩ := wp_sound hex (Manager.wp_apply hm hopen hc k)
    cases hend
    exact ⟨rfl, rfl⟩

/-! ## Convergence -/

/-- The kernel `k'` after `Apply(c)` in `k` holds exactly the desired state in the block and tables
    of `c`, no other guard, and nothing else in the block and tables of the state applied before. -/
structure Converged (m : Manager) (c : Config) (k k' : Kernel) : Prop where
  block : ∀ r, inBlock c r = true → (r ∈ k'.rules ↔ r ∈ (desiredFrom c k).rules)
  vpnTable : ∀ a : Route, familyEnabled c.families a.family = true → a.table = c.vpnTable →
    (a ∈ k'.routes ↔ a ∈ (desiredFrom c k).vpnRoutes)
  safeTable : ∀ a : Route, familyEnabled c.families a.family = true → a.table = c.safeTable →
    (a ∈ k'.routes ↔ a ∈ (desiredFrom c k).safeRoutes)
  guards : ∀ g ∈ transitionGuards (m.configs c), g ∈ k'.rules → g ∈ (desiredFrom c k).rules
  oldBlock : ∀ d, m.applied = some d → ∀ r ∈ k'.rules, inBlock d.config r = true →
    r ∈ (desiredFrom c k).rules
  oldTables : ∀ d, m.applied = some d → ∀ a ∈ k'.routes, inTables d.config a = true →
    a ∈ (desiredFrom c k).vpnRoutes ∨ a ∈ (desiredFrom c k).safeRoutes

/-- Every rule that a listing shows like a guard of the two configs is a guard, a
    desired rule or a rule of the applied state. -/
def NoLookalike (m : Manager) (c : Config) (k : Kernel) : Prop :=
  ∀ r ∈ k.rules, LooksLikeGuard (transitionGuards (m.configs c)) r →
    r ∈ transitionGuards (m.configs c) ∨ r ∈ (desiredFrom c k).rules ∨ r ∈ m.appliedRules

section Converge

variable {m : Manager} (hm : m.Good) {c : Config} (hc : c.Valid) {k : Kernel}
include hm hc

/-- Without lookalikes, an owned rule of the reconciled kernel is a desired one. -/
theorem desired_of_noLookalike (hlike : NoLookalike m c k) {r : Rule}
    (hr : r ∈ (m.reconciled (desiredFrom c k) k).rules)
    (hown : ownsRule (m.configs c) r = true) : r ∈ (desiredFrom c k).rules := by
  have hd := compiled_desiredFrom hc k
  rcases (mem_reconciled hm hd).mp hr with hnew | ⟨hk, hguard, hobs, hkept⟩
  · exact hnew
  · rcases hlike r hk (hkept hown) with hg | hnew | happlied
    · exact absurd hg hguard
    · exact hnew
    · by_contra hnew
      exact hobs (obsolete_of_looksLikeGuard hm happlied (hkept hown) hnew hguard)

theorem lookalike_kept {r : Rule} (hr : r ∈ k.rules)
    (hlike : LooksLikeGuard (transitionGuards (m.configs c)) r)
    (hguard : r ∉ transitionGuards (m.configs c)) (happlied : r ∉ m.appliedRules) :
    r ∈ (m.reconciled (desiredFrom c k) k).rules := by
  have hd := compiled_desiredFrom hc k
  refine (mem_reconciled hm hd).mpr (.inr ⟨hr, hguard, ?_, fun _ => hlike⟩)
  intro hobs
  exact happlied (Manager.obsolete_spec hm hd hobs).1

omit hm hc in
theorem routes_converge {a : Route} (hown : ownsRoute (m.configs c) a = true) :
    a ∈ (m.reconciled (desiredFrom c k) k).routes ↔
      a ∈ (desiredFrom c k).vpnRoutes ∨ a ∈ (desiredFrom c k).safeRoutes := by
  rw [mem_reconciled_routes, desiredFrom_config, hown]
  simp

theorem converged_of_noLookalike (hlike : NoLookalike m c k) :
    Converged m c k (m.reconciled (desiredFrom c k) k) := by
  have hd := compiled_desiredFrom hc k
  have hmem := m.mem_configs_self c
  have htables : ∀ a : Route, familyEnabled c.families a.family = true →
      (a.table = c.vpnTable ∨ a.table = c.safeTable) → ownsRoute (m.configs c) a = true :=
    fun a hf ht => ownsRoute_iff.mpr ⟨c, hmem, inTables_iff.mpr ⟨hf, ht⟩⟩
  have hne := hc.checked.tables_ne
  exact {
    block := by
      intro r hin
      constructor
      · intro hr
        exact desired_of_noLookalike hm hc hlike hr (ownsRule_iff.mpr ⟨c, hmem, hin⟩)
      · intro hr
        exact (mem_reconciled hm hd).mpr (.inl hr)
    vpnTable := by
      intro a hf ht
      rw [routes_converge (htables a hf (.inl ht))]
      constructor
      · rintro (ha | ha)
        · exact ha
        · exact absurd (ht.symm.trans (hd.safeRoutes_in ha).2) hne
      · exact .inl
    safeTable := by
      intro a hf ht
      rw [routes_converge (htables a hf (.inr ht))]
      constructor
      · rintro (ha | ha)
        · exact absurd ((hd.vpnRoutes_in ha).2.symm.trans ht) hne
        · exact ha
      · exact .inr
    guards := by
      intro g hg hr
      exact desired_of_noLookalike hm hc hlike hr (Manager.guards_owned hm hd hg)
    oldBlock := by
      intro d happlied r hr hin
      have hmem' := Manager.mem_configs_applied happlied c
      exact desired_of_noLookalike hm hc hlike hr (ownsRule_iff.mpr ⟨d.config, hmem', hin⟩)
    oldTables := by
      intro d happlied a ha hin
      have hmem' := Manager.mem_configs_applied happlied c
      exact (routes_converge (ownsRoute_iff.mpr ⟨d.config, hmem', hin⟩)).mp ha }

theorem noLookalike_of_converged
    (hconv : Converged m c k (m.reconciled (desiredFrom c k) k)) : NoLookalike m c k := by
  intro r hr hlike
  by_contra hnot
  rw [not_or, not_or] at hnot
  obtain ⟨hguard, hnew, happlied⟩ := hnot
  have hkept := lookalike_kept hm hc hr hlike hguard happlied
  -- the rule stands at the priority of a guard, so it lies in a block
  obtain ⟨g, hg, hlisted⟩ := hlike
  obtain ⟨c', hc', f, hf, rfl⟩ := mem_transitionGuards.mp hg
  have hin : inBlock c' r = true := by
    rw [inBlock_listed hlisted]
    exact inBlock_transitionGuard (Manager.configs_valid hm hc hc') hf
  unfold Manager.configs at hc'
  split at hc'
  · rw [mem_singleton.mp hc'] at hin
    exact hnew ((hconv.block r hin).mp hkept)
  · rename_i d hd
    rcases mem_cons.mp hc' with rfl | hc'
    · exact hnew ((hconv.block r hin).mp hkept)
    · rw [mem_singleton.mp hc'] at hin
      exact hnew (hconv.oldBlock d hd r hkept hin)

end Converge

/-- An `Apply` that returns nil has converged exactly when no rule was there that
    passes for a guard in a listing without being known. -/
theorem apply_converges_iff (m : Manager) (hm : m.Good) (c : Config) (hc : c.Valid)
    (k k' : Kernel) (tr : List (Event AdapterCall Kernel)) (m' : Manager)
    (hex : Exec adapter (m.apply c) k tr (m', none) k') :
    Converged m c k k' ↔ NoLookalike m c k := by
  obtain ⟨-, rfl⟩ := apply_done hm hc hex
  exact ⟨noLookalike_of_converged hm hc, converged_of_noLookalike hm hc⟩

/-- What a manager that is gone has left: a guard, a rule in the block and a route in the
    VPN table. -/
def staleKernel : Kernel :=
  ((Kernel.empty.addRule (transitionGuard sampleConfig afInet)).addRule
    ⟨afInet, 10004, .lookup, rtTableMain, 0, 0⟩).replaceRoute
      { vpnRoute sampleConfig afInet (familyDefaultPrefix afInet) .zero with linkIndex := 2 }

/-- A fresh manager converges over them. -/
theorem apply_converges_stale :
    (run Kernel.act (freshManager.apply sampleConfig) [] staleKernel).2.1.2 = none ∧
      Converged freshManager sampleConfig staleKernel
        (run Kernel.act (freshManager.apply sampleConfig) [] staleKernel).2.2 := by
  have hnil : (run Kernel.act (freshManager.apply sampleConfig) [] staleKernel).2.1.2 = none := by
    decide +kernel
  refine ⟨hnil, (apply_converges_iff freshManager freshManager_good sampleConfig
    sampleConfig_valid _ _ _ _ (exec_run hnil)).mpr ?_⟩
  unfold NoLookalike LooksLikeGuard
  decide +kernel

/-- A rule that sends every IPv4 packet to the main table, at the priority of the
    transition guard. -/
def lookalike : Rule := ⟨afInet, 10002, .lookup, rtTableMain, 0, 0⟩

/-- `Apply` takes the rule for its guard, returns nil and leaves it in the block. -/
theorem apply_keeps_lookalike :
    (run Kernel.act (freshManager.apply sampleConfig) [] (Kernel.empty.addRule lookalike)).2.1.2
        = none ∧
      ¬ Converged freshManager sampleConfig (Kernel.empty.addRule lookalike)
        (run Kernel.act (freshManager.apply sampleConfig) []
          (Kernel.empty.addRule lookalike)).2.2 := by
  refine ⟨by decide +kernel, fun hconv => ?_⟩
  have hblock := hconv.block lookalike (by decide)
  revert hblock
  decide +kernel

end SysnetLinux.Routing
