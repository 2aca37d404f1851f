/-
  SysnetLinux.Routing.Stages

  The stages of a guarded change.

  `Apply` and `Refresh` put guards in, make the change behind them and take the guards out again.
  Whatever adapter call fails, every kernel state on the way is in one of three stages relative to
  the state `k₀` before the call:

  - opening: `k₀` with a prefix of the guards added;
  - guarded: all guards stand, and only owned rules and routes differ;
  - closing: the settled state with a prefix of the guards taken out.
-/

import SysnetLinux.Routing.Steps

namespace SysnetLinux.Routing

open CallProg CallProg.Prog List

/-! ## Plans -/

/-- A guarded change: its guards, the rules it installs, the guards it takes out
    at the end, and the rules and routes it owns. -/
structure Plan where
  guards : List Rule
  newRules : List Rule
  removed : List Rule
  rules : Rule → Bool
  routes : Route → Bool

/-- What a plan adds lies in what it owns, and guards drop packets. -/
structure Plan.Sound (P : Plan) : Prop where
  guards_owned : ∀ g ∈ P.guards, P.rules g = true
  guards_drop : ∀ g ∈ P.guards, g.action = .unreachable
  newRules_owned : ∀ r ∈ P.newRules, P.rules r = true
  removed_guards : ∀ g ∈ P.removed, g ∈ P.guards

/-- All guards stand; rules and routes the plan does not own are those of `k₀`. -/
structure Guarded (P : Plan) (k₀ k : Kernel) : Prop where
  guards_mem : ∀ g ∈ P.guards, g ∈ k.rules
  rules_from : ∀ r ∈ k.rules, r ∈ k₀.rules ∨ r ∈ P.guards ∨ r ∈ P.newRules
  rules_outside : (k.rules.filter fun r => !P.rules r) = k₀.rules.filter fun r => !P.rules r
  routes_outside : (k.routes.filter fun a => !P.routes a) = k₀.routes.filter fun a => !P.routes a

/-- The states a guarded change goes through. -/
inductive Stage (P : Plan) (k₀ settled : Kernel) : Kernel → Prop
  | opening (done rest : List Rule) :
      P.guards = done ++ rest → Stage P k₀ settled (k₀.addRules done)
  | guarded {k : Kernel} : Guarded P k₀ k → Stage P k₀ settled k
  | closing (done rest : List Rule) :
      P.removed = done ++ rest → Stage P k₀ settled (settled.deleteRules done)

namespace Guarded

variable {P : Plan} {k₀ k : Kernel}

theorem start (hP : P.Sound) (k₀ : Kernel) : Guarded P k₀ (k₀.addRules P.guards) where
  guards_mem := fun g hg => Kernel.mem_addRules.mpr (.inl hg)
  rules_from := by
    intro r hr
    rcases Kernel.mem_addRules.mp hr with hr | hr
    · exact .inr (.inl hr)
    · exact .inl hr
  rules_outside := Kernel.filter_addRules fun g hg => by simp [hP.guards_owned g hg]
  routes_outside := by rw [Kernel.addRules_routes]

/-- Removing owned rules other than guards, and owned routes. -/
theorem pruned (h : Guarded P k₀ k) {pr : Rule → Bool} {pa : Route → Bool} {k' : Kernel}
    (hpruned : Pruned pr pa k k') (hguards : ∀ g ∈ P.guards, pr g = false)
    (hr : ∀ r, pr r = true → P.rules r = true) (ha : ∀ a, pa a = true → P.routes a = true) :
    Guarded P k₀ k' where
  guards_mem := fun g hg => (hpruned.mem_rules (hguards g hg)).mpr (h.guards_mem g hg)
  rules_from := fun r hmem => h.rules_from r (hpruned.rules_sublist.subset hmem)
  rules_outside := (hpruned.mono hr ha).rules_kept.trans h.rules_outside
  routes_outside := (hpruned.mono hr ha).routes_kept.trans h.routes_outside

theorem addRules (h : Guarded P k₀ k) (hP : P.Sound) {rs : List Rule}
    (hrs : ∀ r ∈ rs, r ∈ P.newRules) : Guarded P k₀ (k.addRules rs) where
  guards_mem := fun g hg => Kernel.mem_addRules.mpr (.inr (h.guards_mem g hg))
  rules_from := by
    intro r hr
    rcases Kernel.mem_addRules.mp hr with hr | hr
    · exact .inr (.inr (hrs r hr))
    · exact h.rules_from r hr
  rules_outside := by
    rw [Kernel.filter_addRules fun r hr => by simp [hP.newRules_owned r (hrs r hr)],
      h.rules_outside]
  routes_outside := by rw [Kernel.addRules_routes, h.routes_outside]

theorem replaceRoutes (h : Guarded P k₀ k) {as : List Route}
    (has : ∀ a ∈ as, P.routes a = true) : Guarded P k₀ (k.replaceRoutes as) where
  guards_mem := by
    rw [Kernel.replaceRoutes_rules]
    exact h.guards_mem
  rules_from := by
    rw [Kernel.replaceRoutes_rules]
    exact h.rules_from
  rules_outside := by rw [Kernel.replaceRoutes_rules, h.rules_outside]
  routes_outside := by
    rw [Kernel.filter_replaceRoutes fun a ha => by simp [has a ha], h.routes_outside]

end Guarded

variable {P : Plan} {k₀ k : Kernel} {a : DesiredState} {m : Manager} {config : Config}

/-- In every stage the rules and routes the plan does not own are those of `k₀`. -/
theorem Stage.outside (hP : P.Sound) {settled : Kernel} (hsettled : Guarded P k₀ settled)
    (h : Stage P k₀ settled k) :
    (k.rules.filter fun r => !P.rules r) = (k₀.rules.filter fun r => !P.rules r) ∧
      (k.routes.filter fun a => !P.routes a) = k₀.routes.filter fun a => !P.routes a := by
  cases h with
  | opening done rest hsplit =>
    refine ⟨Kernel.filter_addRules fun g hg => ?_, by rw [Kernel.addRules_routes]⟩
    simp [hP.guards_owned g (hsplit ▸ mem_append_left rest hg)]
  | guarded h => exact ⟨h.rules_outside, h.routes_outside⟩
  | closing done rest hsplit =>
    have hguard : ∀ g ∈ done, g ∈ P.guards := fun g hg =>
      hP.removed_guards g (hsplit ▸ mem_append_left rest hg)
    refine ⟨?_, by rw [Kernel.deleteRules_routes, hsettled.routes_outside]⟩
    rw [Kernel.filter_deleteRules ?_ ?_, hsettled.rules_outside]
    · intro g hg
      simp [hP.guards_owned g (hguard g hg)]
    · -- a guard is no listed entry
      intro x hx
      have hact := hP.guards_drop _ (hguard _ hx)
      cases hact

/-- In every stage a rule was there before, or the plan put it there. -/
theorem Stage.rules_from {settled : Kernel} (hsettled : Guarded P k₀ settled)
    (h : Stage P k₀ settled k) {r : Rule} (hr : r ∈ k.rules) :
    r ∈ k₀.rules ∨ r ∈ P.guards ∨ r ∈ P.newRules := by
  cases h with
  | opening done rest hsplit =>
    rcases Kernel.mem_addRules.mp hr with hg | hk
    · exact .inr (.inl (hsplit ▸ mem_append_left rest hg))
    · exact .inl hk
  | guarded h => exact h.rules_from r hr
  | closing done rest hsplit =>
    exact hsettled.rules_from r ((Kernel.deleteRules_sublist _ _).subset hr)

theorem Stage.routes_from (hP : P.Sound) {settled : Kernel} (hsettled : Guarded P k₀ settled)
    (h : Stage P k₀ settled k) {a : Route} (ha : a ∈ k.routes) :
    a ∈ k₀.routes ∨ P.routes a = true := by
  by_cases hown : P.routes a = true
  · exact .inr hown
  · have hmem : a ∈ k.routes.filter fun a => !P.routes a := mem_filter.mpr ⟨ha, by simp [hown]⟩
    rw [(h.outside hP hsettled).2] at hmem
    exact .inl (mem_filter.mp hmem).1

/-! ## Phases -/

/-- A part of an operation behind the guards: it visits states of `St` only, its
    errors report the guards, and a success meets `Q`. -/
def Phase {α : Type} (St : Kernel → Prop) (p : AdapterProg (Except RoutingError α)) (k : Kernel)
    (Q : α → Kernel → Prop) : Prop :=
  wp adapter (fun _ x => St x) (fun r x => St x ∧ FailsAs true r ∧ ∀ a, r = .ok a → Q a x) p k

section Phases

variable {St : Kernel → Prop} {k k' : Kernel}

/-- A phase that leads from `k` to `k'`, and what follows it there. -/
theorem phase_andThen {α : Type} {p : AdapterProg (Except RoutingError Unit)}
    {q : AdapterProg (Except RoutingError α)} {Q : α → Kernel → Prop}
    (hp : Phase St p k fun _ x => x = k') (hq : Phase St q k' Q) :
    Phase St (p.andThen fun _ => q) k Q := by
  apply wp_andThen
  refine wp_post ?_ hp
  rintro r x ⟨hx, hfail, hdone⟩
  cases r with
  | ok a =>
    rw [hdone a rfl]
    exact hq
  | error e =>
    refine ⟨hx, fun e' he' => hfail e' (by cases he'; rfl), ?_⟩
    rintro a ⟨⟩

theorem phase_callEach {β : Type} (mk : β → AdapterCall) (wrap : β → AdapterError → Cause)
    (xs : List β) (k : Kernel)
    (h : ∀ done rest, xs = done ++ rest → St (done.foldl (fun k y => (Kernel.act (mk y) k).2) k)) :
    Phase St (callEach true mk wrap xs) k
      fun _ x => x = xs.foldl (fun k y => (Kernel.act (mk y) k).2) k := by
  refine wp_callEach true mk wrap xs k ?_ ?_ ?_
  · intro done x rest hsplit
    exact h done (x :: rest) hsplit
  · intro done x rest causes hsplit
    refine ⟨h done (x :: rest) hsplit, failsAs_fail true causes, ?_⟩
    rintro a ⟨⟩
  · exact ⟨h xs [] (by simp), failsAs_ok true (), fun _ _ => rfl⟩

theorem phase_sweeps (St : Kernel → Prop) {β : Type} {f : β → AdapterProg (List Cause)}
    {pr : β → Rule → Bool} {pa : β → Route → Bool} (xs : List β) (hf : ∀ x ∈ xs, Sweeps (f x) (pr x) (pa x))
    (k : Kernel) (h : ∀ x, Pruned (anyOf pr xs) (anyOf pa xs) k x → St x) :
    Phase St (forEach (fun x => orFail true (f x)) xs) k
      fun _ x => x = k.without (anyOf pr xs) (anyOf pa xs) := by
  refine wp_mono (fun _ x hx => h x hx) ?_ (wp_forEach_sweeps true xs hf k)
  rintro r x ⟨hfail, hpruned, hdone⟩
  exact ⟨h x hpruned, hfail, fun _ hr => hdone hr⟩

theorem phase_orFail {p : AdapterProg (List Cause)} {pr : Rule → Bool} {pa : Route → Bool}
    (hp : Sweeps p pr pa) (k : Kernel) (h : ∀ x, Pruned pr pa k x → St x) :
    Phase St (orFail true p) k fun _ x => x = k.without pr pa := by
  rw [Phase, orFail, wp_bind]
  refine wp_mono (fun _ x hx => h x hx.2) ?_ (hp k)
  rintro errs x ⟨hpruned, hdone⟩
  cases errs with
  | nil => exact ⟨h x hpruned, failsAs_ok true (), fun _ _ => hdone rfl⟩
  | cons cause causes =>
    refine ⟨h x hpruned, failsAs_fail true _, ?_⟩
    rintro a ⟨⟩

/-- A success meets `Q`; a failure is reported with the guards active, or leaves
    the kernel as it was. -/
def Ends {α : Type} (k₀ : Kernel) (Q : α → Kernel → Prop) :
    Except RoutingError α → Kernel → Prop
  | .ok a, k => Q a k
  | .error e, k => e.sentinel = some .errApplyFailedGuardActive ∨ k = k₀

/-- The guards go in, and the rest of the operation runs behind them. -/
theorem wp_behindGuards {α : Type} {P : Plan} {k₀ settled : Kernel}
    {rest : Bool → AdapterProg (Except RoutingError α)} {Q : α → Kernel → Prop}
    (hne : P.guards ≠ [])
    (hrest : Phase (Stage P k₀ settled) (rest true) (k₀.addRules P.guards) Q) :
    wp adapter (fun _ x => Stage P k₀ settled x) (fun r x => Stage P k₀ settled x ∧ Ends k₀ Q r x)
      ((installGuards false P.guards).andThen rest) k₀ := by
  apply wp_andThen
  refine wp_installGuards false P.guards k₀ ?_ ?_ ?_
  · intro done g gs hsplit
    exact Stage.opening done (g :: gs) hsplit
  · intro done g gs causes hsplit
    refine ⟨Stage.opening done (g :: gs) hsplit, ?_⟩
    cases done with
    | nil => exact .inr rfl
    | cons g' done => exact .inl rfl
  · have hflag : (false || !P.guards.isEmpty) = true := by
      cases hg : P.guards with
      | nil => exact absurd hg hne
      | cons g gs => rfl
    rw [hflag]
    refine wp_post ?_ hrest
    rintro r x ⟨hx, hfail, hdone⟩
    refine ⟨hx, ?_⟩
    cases r with
    | ok a => exact hdone a rfl
    | error e => exact .inl (hfail e rfl)

end Phases

/-! ## The plan of Apply -/

/-- The applied state, if any, was compiled from an accepted config. -/
def Manager.Good (m : Manager) : Prop := ∀ a, m.applied = some a → a.Compiled

/-- A rule that `deleteOwnedRules` removes under the guards. -/
def stale (configs : List Config) (guards : List Rule) (r : Rule) : Bool :=
  ownsRule configs r && !keepRule (listedRule r) guards

namespace Manager

variable (m : Manager) (d : DesiredState)

def guards : List Rule := transitionGuards (m.configs d.config)

def plan : Plan where
  guards := m.guards d
  newRules := d.rules
  removed := (m.guards d).filter fun guard => decide (guard ∉ d.rules)
  rules := ownsRule (m.configs d.config)
  routes := ownsRoute (m.configs d.config)

/-- Behind the guards: the owned tables are empty. -/
def flushed (k₀ : Kernel) : Kernel :=
  ((k₀.addRules (m.guards d)).deleteRules (m.obsoleteRules d (m.guards d))).without noRule
    (ownsRoute (m.configs d.config))

/-- The tables hold the new routes. -/
def routed (k₀ : Kernel) : Kernel :=
  ((m.flushed d k₀).replaceRoutes d.vpnRoutes).replaceRoutes d.safeRoutes

/-- The old rules are gone. -/
def cleared (k₀ : Kernel) : Kernel :=
  (m.routed d k₀).without (stale (m.configs d.config) (m.guards d)) noRoute

/-- The state in which the guards come out. -/
def settled (k₀ : Kernel) : Kernel := (m.cleared d k₀).addRules d.rules

/-- The state after a successful reconciliation. -/
def reconciled (k₀ : Kernel) : Kernel := (m.settled d k₀).deleteRules (m.plan d).removed

end Manager

theorem Manager.configs_valid (hm : m.Good) {c : Config} (hconfig : config.Valid)
    (hc : c ∈ m.configs config) : c.Valid := by
  unfold Manager.configs at hc
  split at hc
  · rw [mem_singleton.mp hc]
    exact hconfig
  · rename_i a ha
    rcases mem_cons.mp hc with rfl | hc
    · exact hconfig
    · rw [mem_singleton.mp hc]
      exact (hm a ha).valid

theorem Manager.mem_configs_self (m : Manager) (config : Config) : config ∈ m.configs config := by
  unfold Manager.configs
  split <;> exact mem_cons_self

section Apply

variable {m : Manager} {d : DesiredState} (hm : m.Good) (hd : d.Compiled)
include hm hd

theorem Manager.guards_owned {g : Rule} (hg : g ∈ m.guards d) :
    ownsRule (m.configs d.config) g = true := by
  obtain ⟨c, hc, f, hf, rfl⟩ := mem_transitionGuards.mp hg
  exact ownsRule_iff.mpr ⟨c, hc, inBlock_transitionGuard (Manager.configs_valid hm hd.valid hc) hf⟩

theorem Manager.plan_sound : (m.plan d).Sound where
  guards_owned := fun _ hg => Manager.guards_owned hm hd hg
  guards_drop := fun _ hg => transitionGuard_action hg
  newRules_owned := by
    intro r hr
    exact ownsRule_iff.mpr ⟨d.config, m.mem_configs_self d.config, hd.inBlock_of_mem hr⟩
  removed_guards := fun _ hg => (mem_filter.mp hg).1

/-- An obsolete rule stands at a guard's priority and is none of the guards. -/
theorem Manager.obsolete_spec {r : Rule} (hr : r ∈ m.obsoleteRules d (m.guards d)) :
    r ∈ m.appliedRules ∧ r ∉ d.rules ∧ keepRule r (m.guards d) = false ∧
      ownsRule (m.configs d.config) r = true := by
  obtain ⟨happlied, hcond⟩ := mem_filter.mp hr
  simp only [Bool.and_eq_true, Bool.not_eq_true', Bool.or_eq_false_iff, decide_eq_false_iff_not,
    sameRulePriorityAsGuard, any_eq_true, beq_iff_eq] at hcond
  obtain ⟨⟨hnew, hkeep⟩, g, hg, hfam, hprio⟩ := hcond
  refine ⟨happlied, hnew, hkeep, ?_⟩
  have howned := Manager.guards_owned hm hd hg
  simpa only [ownsRule, inBlock, hfam, hprio] using howned

variable {k₀ k : Kernel}

theorem Manager.guarded_obsolete {rs : List Rule}
    (hrs : ∀ r ∈ rs, r ∈ m.obsoleteRules d (m.guards d)) (h : Guarded (m.plan d) k₀ k) :
    Guarded (m.plan d) k₀ (k.deleteRules rs) := by
  have hpruned : Pruned (fun x => decide (x ∈ rs) || decide (listedRule x ∈ rs)) noRoute k
      (k.deleteRules rs) :=
    pruned_deleteRules (fun r hr => by simp [hr]) fun x hx => by simp [hx]
  refine h.pruned hpruned ?_ ?_ (by simp)
  · intro g (hg : g ∈ m.guards d)
    rw [Bool.or_eq_false_iff, decide_eq_false_iff_not, decide_eq_false_iff_not]
    constructor
    · intro hmem
      have hkeep := (Manager.obsolete_spec hm hd (hrs g hmem)).2.2.1
      rw [keepRule_iff.mpr ⟨g, hg, .inl rfl⟩] at hkeep
      cases hkeep
    · intro hmem
      have hkeep := (Manager.obsolete_spec hm hd (hrs _ hmem)).2.2.1
      rw [keepRule_iff.mpr ⟨g, hg, .inr rfl⟩] at hkeep
      cases hkeep
  · intro r hr
    rw [Bool.or_eq_true, decide_eq_true_eq, decide_eq_true_eq] at hr
    rcases hr with hr | hr
    · exact (Manager.obsolete_spec hm hd (hrs r hr)).2.2.2
    · have howned := (Manager.obsolete_spec hm hd (hrs _ hr)).2.2.2
      rwa [ownsRule_listed (listedRule_listedRule r)] at howned

omit hm hd in
theorem anyOf_targets (configs : List Config) :
    anyOf (fun t : OwnedTableTarget => inTable t.family t.table) (ownedTableTargets configs) =
      ownsRoute configs := by
  funext a
  rw [Bool.eq_iff_iff, ownsRoute_iff_target, anyOf, any_eq_true]
  simp only [inTable, decide_eq_true_eq]

omit hm hd in
theorem anyOf_scopes (configs : List Config) (keep : List Rule) :
    anyOf (fun s => staleRule s keep) (ownedRuleScopes configs) = stale configs keep := by
  funext r
  rw [Bool.eq_iff_iff, anyOf, any_eq_true, stale, Bool.and_eq_true]
  rw [← ownsRule_listed (listedRule_listedRule r), ownsRule_iff_scope]
  simp only [staleRule, staleEntry, Bool.and_eq_true]
  constructor
  · rintro ⟨s, hs, hholds, hkeep⟩
    exact ⟨⟨s, hs, hholds⟩, hkeep⟩
  · rintro ⟨⟨s, hs, hholds⟩, hkeep⟩
    exact ⟨s, hs, hholds, hkeep⟩

omit hm hd in
theorem anyOf_none {α β : Type} (xs : List β) :
    anyOf (fun _ (_ : α) => false) xs = fun _ => false := by
  funext y
  simp [anyOf]

omit hm in
theorem Manager.guards_ne_nil : m.guards d ≠ [] := by
  obtain ⟨f, hf⟩ := exists_family hd.valid
  have hmem : transitionGuard d.config f ∈ m.guards d :=
    mem_transitionGuards.mpr ⟨d.config, m.mem_configs_self d.config, f, hf, rfl⟩
  exact ne_nil_of_mem hmem

omit hm hd in
theorem Manager.guarded_stale {k' : Kernel} (h : Guarded (m.plan d) k₀ k)
    (hpruned : Pruned (stale (m.configs d.config) (m.guards d)) noRoute k k') :
    Guarded (m.plan d) k₀ k' := by
  refine h.pruned hpruned ?_ ?_ (by simp)
  · intro g (hg : g ∈ m.guards d)
    rw [stale, keepRule_iff.mpr ⟨g, hg, .inr rfl⟩]
    simp
  · intro r hr
    rw [stale, Bool.and_eq_true] at hr
    exact hr.1

omit hm hd in
theorem Manager.ownsRoute_new {a : Route} (ha : inTables d.config a = true) :
    (m.plan d).routes a = true :=
  ownsRoute_iff.mpr ⟨d.config, m.mem_configs_self d.config, ha⟩

theorem Manager.guarded_flush (h : Pruned noRule (ownsRoute (m.configs d.config))
      ((k₀.addRules (m.guards d)).deleteRules (m.obsoleteRules d (m.guards d))) k) :
    Guarded (m.plan d) k₀ k := by
  have hstart := Guarded.start (Manager.plan_sound hm hd) k₀
  have hobsolete := Manager.guarded_obsolete hm hd (fun r hr => hr) hstart
  exact hobsolete.pruned h (fun _ _ => rfl) (by simp) fun a ha => ha

theorem Manager.guarded_flushed (k₀ : Kernel) : Guarded (m.plan d) k₀ (m.flushed d k₀) :=
  Manager.guarded_flush hm hd (pruned_without _ _ _)

theorem Manager.guarded_vpnRoutes (k₀ : Kernel) {as : List Route}
    (has : ∀ a ∈ as, a ∈ d.vpnRoutes) :
    Guarded (m.plan d) k₀ ((m.flushed d k₀).replaceRoutes as) :=
  (Manager.guarded_flushed hm hd k₀).replaceRoutes fun a ha =>
    Manager.ownsRoute_new (hd.inTables_vpn (has a ha))

theorem Manager.guarded_safeRoutes (k₀ : Kernel) {as : List Route}
    (has : ∀ a ∈ as, a ∈ d.safeRoutes) :
    Guarded (m.plan d) k₀ (((m.flushed d k₀).replaceRoutes d.vpnRoutes).replaceRoutes as) :=
  (Manager.guarded_vpnRoutes hm hd k₀ fun _ ha => ha).replaceRoutes fun a ha =>
    Manager.ownsRoute_new (hd.inTables_safe (has a ha))

theorem Manager.guarded_cleared (k₀ : Kernel) : Guarded (m.plan d) k₀ (m.cleared d k₀) :=
  Manager.guarded_stale (Manager.guarded_safeRoutes hm hd k₀ fun _ ha => ha) (pruned_without _ _ _)

theorem Manager.guarded_newRules (k₀ : Kernel) {rs : List Rule} (hrs : ∀ r ∈ rs, r ∈ d.rules) :
    Guarded (m.plan d) k₀ ((m.cleared d k₀).addRules rs) :=
  (Manager.guarded_cleared hm hd k₀).addRules (Manager.plan_sound hm hd) hrs

theorem Manager.guarded_settled (k₀ : Kernel) : Guarded (m.plan d) k₀ (m.settled d k₀) :=
  Manager.guarded_newRules hm hd k₀ fun _ hr => hr

/-- Every state `applyDesired` visits is in a stage. -/
theorem Manager.wp_applyDesired (k₀ : Kernel) :
    wp adapter (fun _ k => Stage (m.plan d) k₀ (m.settled d k₀) k)
      (fun r k => Stage (m.plan d) k₀ (m.settled d k₀) k ∧
        Ends k₀ (fun _ k => k = m.reconciled d k₀) r k)
      (m.applyDesired d) k₀ := by
  have hdone : ∀ {α : Type} {xs done rest : List α}, xs = done ++ rest → ∀ x ∈ done, x ∈ xs :=
    fun hsplit x hx => hsplit ▸ mem_append_left _ hx
  unfold Manager.applyDesired
  refine wp_behindGuards (P := m.plan d) (Manager.guards_ne_nil hd) ?_
  -- obsolete rules at a guard's priority
  refine phase_andThen (phase_callEach _ _ _ _ fun done rest hsplit => ?_) ?_
  · exact Stage.guarded (Manager.guarded_obsolete hm hd (hdone hsplit)
      (Guarded.start (Manager.plan_sound hm hd) k₀))
  -- the owned tables
  have htargets := phase_sweeps (Stage (m.plan d) k₀ (m.settled d k₀))
    (ownedTableTargets (m.configs d.config))
    (fun t _ => sweeps_flushTableFamily t.family t.table)
    ((k₀.addRules (m.guards d)).deleteRules (m.obsoleteRules d (m.guards d)))
  rw [anyOf_targets, anyOf_none] at htargets
  refine phase_andThen (htargets fun x hx => Stage.guarded (Manager.guarded_flush hm hd hx)) ?_
  -- the new routes
  refine phase_andThen (phase_callEach _ _ _ _ fun done rest hsplit =>
    Stage.guarded (Manager.guarded_vpnRoutes hm hd k₀ (hdone hsplit))) ?_
  refine phase_andThen (phase_callEach _ _ _ _ fun done rest hsplit =>
    Stage.guarded (Manager.guarded_safeRoutes hm hd k₀ (hdone hsplit))) ?_
  -- what is left of the old rules
  have hscopes := phase_sweeps (Stage (m.plan d) k₀ (m.settled d k₀))
    (ownedRuleScopes (m.configs d.config))
    (fun s hs => sweeps_deleteOwnedRules s
      (Manager.configs_valid hm hd.valid (mem_ownedRuleScopes hs).1) (m.guards d))
    (m.routed d k₀)
  rw [anyOf_scopes, anyOf_none] at hscopes
  refine phase_andThen (hscopes fun x hx => Stage.guarded (Manager.guarded_stale
    (Manager.guarded_safeRoutes hm hd k₀ fun _ ha => ha) hx)) ?_
  -- the new rules
  refine phase_andThen (phase_callEach _ _ _ _ fun done rest hsplit =>
    Stage.guarded (Manager.guarded_newRules hm hd k₀ (hdone hsplit))) ?_
  -- the guards come out
  exact phase_callEach _ _ _ _ fun done rest hsplit => Stage.closing done rest hsplit

end Apply

/-! ## Apply -/

/-- The main-table routes a kernel shows to a config. -/
def snapshotOf (config : Config) (k : Kernel) : Snapshot :=
  ⟨(familyConstants config.families).flatMap fun f => k.listRoutes f rtTableMain⟩

/-- The state that an operation started in `k` compiles. -/
def desiredFrom (config : Config) (k : Kernel) : DesiredState :=
  desiredState config (snapshotOf config k)

@[simp] theorem desiredFrom_config (config : Config) (k : Kernel) :
    (desiredFrom config k).config = config := rfl

theorem compiled_desiredFrom (hc : config.Valid) (k : Kernel) :
    (desiredFrom config k).Compiled := ⟨hc, snapshotOf config k, rfl⟩

theorem compileDesiredState_of_valid (hc : config.Valid) (snapshot : Snapshot) :
    compileDesiredState config snapshot = .ok (desiredState config snapshot) := by
  rw [compileDesiredState, hc.accepted]

/-- A manager that applied a sample config over an empty kernel. -/
def sampleManager : Manager := ⟨false, some (desiredFrom sampleConfig Kernel.empty)⟩

theorem sampleManager_good : sampleManager.Good := by
  rintro a ⟨⟩
  exact compiled_desiredFrom sampleConfig_valid Kernel.empty

def freshManager : Manager := ⟨false, none⟩

theorem freshManager_good : freshManager.Good := by
  rintro a ⟨⟩

/-- A run that returned nil is an execution that did. -/
theorem exec_run {p : AdapterProg Outcome} {faults : List (Option AdapterError)}
    (h : (run Kernel.act p faults k).2.1.2 = none) :
    Exec adapter p k (run Kernel.act p faults k).1 ((run Kernel.act p faults k).2.1.1, none)
      (run Kernel.act p faults k).2.2 := by
  have hex := run_exec Kernel.act p faults k
  rwa [show (run Kernel.act p faults k).2.1 = ((run Kernel.act p faults k).2.1.1, none) from
    Prod.ext rfl h] at hex

/-- How a guarded change ends: refused before a guard stood, failed behind the guards, or done. -/
inductive Change (P : Plan) (k₀ settled : Kernel) (m m' : Manager) (final : Kernel) :
    Outcome → Kernel → Prop
  | refused {e : RoutingError} : guardActive (some e) = false →
      Change P k₀ settled m m' final (m, some e) k₀
  | failed {e : RoutingError} {k : Kernel} : guardActive (some e) = true →
      Stage P k₀ settled k → Change P k₀ settled m m' final (m, some e) k
  | done : Change P k₀ settled m m' final (m', none) final

theorem change_of_ends {settled final : Kernel} {m' : Manager} {e : RoutingError}
    (hstage : Stage P k₀ settled k)
    (hends : e.sentinel = some .errApplyFailedGuardActive ∨ k = k₀) :
    Change P k₀ settled m m' final (m, some e) k := by
  cases hactive : guardActive (some e) with
  | true => exact .failed hactive hstage
  | false =>
    rcases hends with hsent | rfl
    · simp [guardActive, hsent] at hactive
    · exact .refused hactive

/-- Before a guard stands, the kernel is as it was. -/
theorem stage_start (P : Plan) (k₀ settled : Kernel) : Stage P k₀ settled k₀ :=
  Stage.opening [] P.guards rfl

theorem Manager.wp_apply (hm : m.Good) (hopen : m.closed = false) (hc : config.Valid)
    (k₀ : Kernel) : wp adapter (fun _ k => Stage (m.plan (desiredFrom config k₀)) k₀
        (m.settled (desiredFrom config k₀) k₀) k)
      (Change (m.plan (desiredFrom config k₀)) k₀ (m.settled (desiredFrom config k₀) k₀) m
        { m with applied := some (desiredFrom config k₀) }
        (m.reconciled (desiredFrom config k₀) k₀))
      (m.apply config) k₀ := by
  have hd := compiled_desiredFrom hc k₀
  rw [Manager.apply, hopen, hc.accepted]
  simp only [Bool.false_eq_true, if_false]
  rw [wp_call_faulty]
  refine ⟨stage_start _ _ _, ?_, ?_⟩
  · rw [wp_bind]
    refine wp_snapshotMain config k₀ (fun f _ => stage_start _ _ _)
      (fun cause => Change.refused rfl) ?_
    simp only [compileDesiredState_of_valid hc]
    rw [wp_bind]
    refine wp_post ?_ (Manager.wp_applyDesired hm hd k₀)
    rintro r k ⟨hstage, hends⟩
    cases r with
    | ok a =>
      rw [show k = _ from hends]
      exact Change.done
    | error e => exact change_of_ends hstage hends
  · intro e
    cases e with
    | tunLinkNotFound | other text => exact Change.refused rfl

/-- A closed manager, or a config that is not accepted, makes no call. -/
theorem Manager.apply_refused (config : Config) (h : m.closed = true ∨ config.validate ≠ .ok ()) :
    ∃ e, m.apply config = .ret (m, some e) ∧ guardActive (some e) = false := by
  unfold Manager.apply
  split
  · exact ⟨_, rfl, rfl⟩
  rename_i hopen
  cases hv : config.validate with
  | error e => exact ⟨_, rfl, rfl⟩
  | ok u => exact absurd hv (h.resolve_left hopen)

theorem Manager.rollback_refused (config : Config)
    (h : m.closed = true ∨ config.validate ≠ .ok ()) :
    ∃ e, m.rollback config = .ret (m, some e) ∧ guardActive (some e) = false := by
  unfold Manager.rollback
  split
  · exact ⟨_, rfl, rfl⟩
  rename_i hopen
  cases hv : config.validate with
  | error e => exact ⟨_, rfl, rfl⟩
  | ok u => exact absurd hv (h.resolve_left hopen)

/-! ## Refresh -/

def configGuards (config : Config) : List Rule :=
  (familyConstants config.families).map (transitionGuard config)

def inSafeTable (config : Config) (a : Route) : Bool :=
  familyEnabled config.families a.family && a.table == config.safeTable

def refreshPlan (config : Config) : Plan where
  guards := configGuards config
  newRules := []
  removed := configGuards config
  rules := fun r => decide (r ∈ configGuards config)
  routes := inSafeTable config

def refreshSettled (config : Config) (k₀ : Kernel) : Kernel :=
  ((k₀.addRules (configGuards config)).without noRule (inSafeTable config)).replaceRoutes
    (desiredFrom config k₀).safeRoutes

def refreshed (config : Config) (k₀ : Kernel) : Kernel :=
  (refreshSettled config k₀).deleteRules (configGuards config)

theorem mem_configGuards {g : Rule} :
    g ∈ configGuards config ↔ ∃ f ∈ familyConstants config.families, g = transitionGuard config f := by
  simp only [configGuards, mem_map, eq_comm]

theorem refreshPlan_sound (config : Config) : (refreshPlan config).Sound where
  guards_owned := fun g hg => by simpa [refreshPlan] using hg
  guards_drop := by
    intro g hg
    obtain ⟨f, -, rfl⟩ := mem_configGuards.mp hg
    rfl
  newRules_owned := fun r hr => absurd hr not_mem_nil
  removed_guards := fun g hg => hg

/-- The flush of `refreshLocked`. -/
theorem sweeps_flushTable (config : Config) :
    Sweeps (flushTable config config.safeTable) noRule (inSafeTable config) := by
  have hsweep := Sweeps.collect (familyConstants config.families)
    (fun f _ => sweeps_flushTableFamily f config.safeTable)
  have hall : anyOf (fun f => inTable f config.safeTable) (familyConstants config.families) =
      inSafeTable config := by
    funext a
    rw [Bool.eq_iff_iff, anyOf, any_eq_true, inSafeTable, Bool.and_eq_true, beq_iff_eq]
    simp only [inTable, decide_eq_true_eq]
    constructor
    · rintro ⟨f, hf, hfam, htable⟩
      rw [hfam]
      exact ⟨mem_familyConstants.mp hf, htable⟩
    · rintro ⟨hf, htable⟩
      exact ⟨a.family, mem_familyConstants.mpr hf, rfl, htable⟩
  rwa [anyOf_none, hall] at hsweep

theorem inSafeTable_of_mem (hc : config.Valid) (k₀ : Kernel) {a : Route}
    (ha : a ∈ (desiredFrom config k₀).safeRoutes) : inSafeTable config a = true := by
  obtain ⟨hfam, htable⟩ := (compiled_desiredFrom hc k₀).safeRoutes_in ha
  rw [inSafeTable, Bool.and_eq_true, beq_iff_eq]
  exact ⟨hfam, htable⟩

/-- The part of `refreshLocked` behind the guards. -/
theorem phase_rebuildSafe (hc : config.Valid) (k₀ : Kernel) :
    Phase (Stage (refreshPlan config) k₀ (refreshSettled config k₀))
      (Manager.rebuildSafe config true) (k₀.addRules (configGuards config))
      fun d k => d = desiredFrom config k₀ ∧ k = refreshed config k₀ := by
  have h1 : Guarded (refreshPlan config) k₀ (k₀.addRules (configGuards config)) :=
    Guarded.start (refreshPlan_sound config) k₀
  rw [Phase, Manager.rebuildSafe, wp_bind]
  refine wp_snapshotMain config _ (fun f _ => Stage.guarded h1) ?_ ?_
  · intro cause
    refine ⟨Stage.guarded h1, failsAs_fail true _, ?_⟩
    rintro d ⟨⟩
  -- the guards do not show in the snapshot
  have hsnap : (familyConstants config.families).flatMap (fun f =>
      (k₀.addRules (configGuards config)).listRoutes f rtTableMain) =
      (snapshotOf config k₀).mainRoutes := by
    simp only [Kernel.listRoutes, Kernel.addRules_routes, snapshotOf]
  rw [hsnap]
  simp only [compileDesiredState_of_valid hc]
  -- the safe table
  have hflush : ∀ x, Pruned noRule (inSafeTable config) (k₀.addRules (configGuards config)) x →
      Guarded (refreshPlan config) k₀ x :=
    fun x hx => h1.pruned hx (fun _ _ => rfl) (by simp) fun a ha => ha
  refine phase_andThen
    (phase_orFail (sweeps_flushTable config) _ fun x hx => Stage.guarded (hflush x hx)) ?_
  have h2 := hflush _ (pruned_without _ _ _)
  refine phase_andThen (phase_callEach _ _ _ _ fun done rest hsplit => ?_) ?_
  · refine Stage.guarded (h2.replaceRoutes fun a ha => inSafeTable_of_mem hc k₀ ?_)
    show a ∈ (desiredState config (snapshotOf config k₀)).safeRoutes
    rw [hsplit]
    exact mem_append_left _ ha
  -- the guards come out
  refine phase_andThen
    (phase_callEach _ _ _ _ fun done rest hsplit => Stage.closing done rest hsplit) ?_
  refine ⟨Stage.closing (configGuards config) [] (by simp [refreshPlan]), failsAs_ok true _, ?_⟩
  rintro d ⟨⟩
  exact ⟨rfl, rfl⟩

theorem guarded_refreshSettled (hc : config.Valid) (k₀ : Kernel) :
    Guarded (refreshPlan config) k₀ (refreshSettled config k₀) := by
  have h1 := Guarded.start (refreshPlan_sound config) k₀
  have h2 := h1.pruned (pruned_without _ noRule (inSafeTable config)) (fun _ _ => rfl) (by simp)
    fun a ha => ha
  exact h2.replaceRoutes fun a ha => inSafeTable_of_mem hc k₀ ha

/-- `refreshLocked` for an applied state with an accepted config. -/
theorem Manager.wp_refreshLocked (m : Manager) (ha : a.config.Valid) (k₀ : Kernel) : wp adapter
      (fun _ k => Stage (refreshPlan a.config) k₀ (refreshSettled a.config k₀) k)
      (Change (refreshPlan a.config) k₀ (refreshSettled a.config k₀) m
        { m with applied := some (desiredFrom a.config k₀) } (refreshed a.config k₀))
      (m.refreshLocked a) k₀ := by
  have hne : (refreshPlan a.config).guards ≠ [] := by
    obtain ⟨f, hf⟩ := exists_family ha
    exact ne_nil_of_mem (mem_configGuards.mpr ⟨f, hf, rfl⟩)
  unfold Manager.refreshLocked
  rw [wp_bind]
  refine wp_post ?_ (wp_behindGuards (P := refreshPlan a.config) hne (phase_rebuildSafe ha k₀))
  rintro r k ⟨hstage, hends⟩
  cases r with
  | ok d =>
    obtain ⟨rfl, rfl⟩ := hends
    exact Change.done
  | error e => exact change_of_ends hstage hends

/-- `Refresh` on a closed manager, or before an `Apply`, makes no call. -/
theorem Manager.refresh_refused (h : m.closed = true ∨ m.applied = none) :
    ∃ e, m.refresh = .ret (m, some e) ∧ guardActive (some e) = false := by
  unfold Manager.refresh
  by_cases hclosed : m.closed = true
  · exact ⟨_, if_pos hclosed, rfl⟩
  · have ha : m.applied = none := h.resolve_left hclosed
    rw [if_neg hclosed, ha]
    exact ⟨_, rfl, rfl⟩

theorem Manager.refresh_eq (hopen : m.closed = false) (ha : m.applied = some a) :
    m.refresh = m.refreshLocked a := by
  unfold Manager.refresh
  rw [if_neg (by simp [hopen]), ha]

/-! ## Rollback -/

/-- How a rollback ends. -/
inductive RolledBack (configs : List Config) (k₀ : Kernel) (m : Manager) :
    Outcome → Kernel → Prop
  | incomplete {e : RoutingError} {k : Kernel} : guardActive (some e) = false →
      Pruned (ownsRule configs) (ownsRoute configs) k₀ k →
      RolledBack configs k₀ m (m, some e) k
  | done : RolledBack configs k₀ m ({ m with applied := none }, none)
      (k₀.without (ownsRule configs) (ownsRoute configs))

theorem stale_nil (configs : List Config) : stale configs [] = ownsRule configs := by
  funext r
  simp [stale, keepRule]

/-- `Rollback` of an accepted config on an open manager. -/
theorem Manager.wp_rollback (hm : m.Good) (hopen : m.closed = false) (hc : config.Valid)
    (k₀ : Kernel) :
    wp adapter (fun c k =>
        Deletes (fun e => ∃ r ∈ k₀.rules, ownsRule (m.configs config) r = true ∧ listedRule r = e)
          (fun a => a ∈ k₀.routes ∧ ownsRoute (m.configs config) a = true) c ∧
        Pruned (ownsRule (m.configs config)) (ownsRoute (m.configs config)) k₀ k)
      (RolledBack (m.configs config) k₀ m) (m.rollback config) k₀ := by
  have hscopes := Sweeps.collect (ownedRuleScopes (m.configs config)) fun s hs =>
    sweeps_deleteOwnedRules s (Manager.configs_valid hm hc (mem_ownedRuleScopes hs).1) []
  rw [anyOf_scopes, anyOf_none, stale_nil] at hscopes
  have htargets := Sweeps.collect (ownedTableTargets (m.configs config)) fun t _ =>
    sweeps_flushTableFamily t.family t.table
  rw [anyOf_targets, anyOf_none] at htargets
  rw [Manager.rollback, if_neg (by simp [hopen]), hc.accepted]
  simp only [wp_bind]
  refine wp_mono ?_ ?_ (hscopes k₀)
  · rintro c k ⟨hdel, hpruned⟩
    exact ⟨hdel.mono (fun _ h => h) (by simp), hpruned.mono (fun _ h => h) (by simp)⟩
  · rintro ruleErrs k ⟨hpruned, hdone⟩
    have hpruned' : Pruned (ownsRule (m.configs config)) (ownsRoute (m.configs config)) k₀ k :=
      hpruned.mono (fun _ h => h) (by simp)
    refine wp_mono ?_ ?_ (htargets k)
    · rintro c k' ⟨hdel, hprunedt⟩
      refine ⟨hdel.mono (by simp) ?_, hpruned'.trans (hprunedt.mono (by simp) fun _ h => h)⟩
      rintro a ⟨ha, hown⟩
      exact ⟨hpruned.routes_sublist.subset ha, hown⟩
    · rintro tableErrs k' ⟨hprunedt, hdonet⟩
      have hall : Pruned (ownsRule (m.configs config)) (ownsRoute (m.configs config)) k₀ k' :=
        hpruned'.trans (hprunedt.mono (by simp) fun _ h => h)
      cases herrs : ruleErrs ++ tableErrs with
      | cons cause causes => exact RolledBack.incomplete rfl hall
      | nil =>
        obtain ⟨hr, ht⟩ := append_eq_nil_iff.mp herrs
        have hk : k' = k₀.without (ownsRule (m.configs config)) (ownsRoute (m.configs config)) := by
          rw [hdonet ht, hdone hr, Kernel.without_without]
          simp
        rw [hk]
        exact RolledBack.done

/-! ## The monitor's guard -/

theorem Manager.monitored_eq_some (h : m.monitored = some a) : m.applied = some a := by
  unfold Manager.monitored at h
  split at h
  · cases h
  · exact (Option.filter_eq_some_iff.mp h).1

def Manager.Accepted (m : Manager) : Prop :=
  ∀ a, m.applied = some a → a.config.validate = .ok ()

/-- `beginRouteChange` adds a prefix of the guards of the monitored state. -/
theorem Manager.wp_beginRouteChange (m : Manager) (k₀ : Kernel) : wp adapter
      (fun _ k => ∃ a, m.monitored = some a ∧
        ∃ done rest, configGuards a.config = done ++ rest ∧ k = k₀.addRules done)
      (fun out k => out.1 = m ∧ ((m.monitored = none ∧ out.2 = none ∧ k = k₀) ∨
          ∃ a, m.monitored = some a ∧
            ∃ done rest, configGuards a.config = done ++ rest ∧ k = k₀.addRules done ∧
              (out.2 = none → rest = [])))
      m.beginRouteChange k₀ := by
  unfold Manager.beginRouteChange
  cases hmon : m.monitored with
  | none => exact ⟨rfl, .inl ⟨rfl, rfl, rfl⟩⟩
  | some a =>
    simp only [wp_bind]
    refine wp_callEach false _ _ (configGuards a.config) k₀ ?_ ?_ ?_
    · intro done g rest hsplit
      exact ⟨a, rfl, done, g :: rest, hsplit, rfl⟩
    · intro done g rest causes hsplit
      refine ⟨rfl, .inr ⟨a, rfl, done, g :: rest, hsplit, rfl, ?_⟩⟩
      rintro ⟨⟩
    · exact ⟨rfl, .inr ⟨a, rfl, configGuards a.config, [], by simp, rfl, fun _ => rfl⟩⟩

end SysnetLinux.Routing
