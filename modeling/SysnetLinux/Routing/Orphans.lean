/-
  SysnetLinux.Routing.Orphans

  What the runs of a manager leave in the kernel.

  The manager derives what it owns from the config it is called with and from the
  applied one.  An `Apply` that fails halfway has already installed guards, routes
  or rules of a config that is neither, and unless a later call covers it, they
  stay for good.
-/

import SysnetLinux.Routing.Runs

namespace SysnetLinux.Routing

open CallProg CallProg.Prog List

/-- The step put the rule into the kernel; adding a rule that is there is a no-op. -/
def Step.InstallsRule (s : Step) (r : Rule) : Prop :=
  ∃ ev ∈ s.trace, ev.call = .addRule r ∧ ev.failed = false ∧ r ∉ ev.before.rules

instance (s : Step) (r : Rule) : Decidable (s.InstallsRule r) :=
  inferInstanceAs (Decidable (∃ ev ∈ s.trace, ev.call = .addRule r ∧ ev.failed = false ∧
    r ∉ ev.before.rules))

def Step.InstallsRoute (s : Step) (a : Route) : Prop :=
  ∃ ev ∈ s.trace, ev.call = .replaceRoute a ∧ ev.failed = false ∧ a ∉ ev.before.routes

/-- The manager has installed the rule at some time of the run. -/
def InstalledRule (steps : List Step) (r : Rule) : Prop := ∃ s ∈ steps, s.InstallsRule r

def InstalledRoute (steps : List Step) (a : Route) : Prop := ∃ s ∈ steps, s.InstallsRoute a

section Installed

variable {start : Kernel} {before : List Step} {m : Manager} {k : Kernel}

/-- Every state of a step holds what the kernel held at the start. -/
theorem RunInv.kept_visited (h : RunInv start before m k) {op : Operation}
    {tr : List (Event AdapterCall Kernel)} {out : Outcome} {k' : Kernel} (hop : op.Valid)
    (hex : Exec adapter (m.perform op) k tr out k')
    (hfree : Free (usedConfigs (⟨op, m, k, tr, out, k'⟩ :: before)) start) :
    ∀ ev ∈ tr, (∀ r ∈ start.rules, r ∈ ev.before.rules) ∧
      ∀ a ∈ start.routes, a ∈ ev.before.routes := by
  intro ev hev
  have hmem : ev.before ∈ visited tr k' :=
    mem_append_left _ (mem_map_of_mem hev)
  have hpass := passes_of_visited h.good hop hex _ hmem
  refine hpass.keeps h.good hop (fun c hc => hfree c ?_) h.kept.1 h.kept.2
  rcases mem_append.mp hc with hc | hc
  · exact mem_append_left _ hc
  · exact mem_append_right _ (h.used c (mem_append_left _ hc))

/-- What the manager installs was not in the kernel at the start. -/
theorem Run.installed_new {m₀ : Manager} (hfresh : m₀.applied = none) {steps : List Step}
    (hrun : Run m₀ start steps m k) (hfree : Free (usedConfigs steps) start)
    (htidy : Tidy steps) :
    (∀ r, InstalledRule steps r → r ∉ start.rules) ∧
      ∀ a, InstalledRoute steps a → a ∉ start.routes := by
  induction hrun with
  | start =>
    constructor
    · rintro r ⟨s, hs, -⟩
      cases hs
    · rintro a ⟨s, hs, -⟩
      cases hs
  | step hrun hop hex ih =>
    have hfree' : Free _ start := fun c hc => hfree c (mem_append_right _ hc)
    obtain ⟨hrules, hroutes⟩ := ih hfree' htidy.2
    have hkept := (Run.inv hfresh hrun hfree' htidy.2).kept_visited hop hex hfree
    constructor
    · rintro r ⟨s, hs, hinst⟩ hstart
      rcases mem_cons.mp hs with rfl | hs
      · obtain ⟨ev, hev, -, -, hnew⟩ := hinst
        exact hnew ((hkept ev hev).1 r hstart)
      · exact hrules r ⟨s, hs, hinst⟩ hstart
    · rintro a ⟨s, hs, hinst⟩ hstart
      rcases mem_cons.mp hs with rfl | hs
      · obtain ⟨ev, hev, -, -, hnew⟩ := hinst
        exact hnew ((hkept ev hev).2 a hstart)
      · exact hroutes a ⟨s, hs, hinst⟩ hstart

end Installed

/-- In a tidy run, when an `Apply` returns nil, all that is left of what the manager
    ever installed is the state of its config; when a `Rollback` does, nothing is. -/
theorem no_orphans (m₀ : Manager) (hfresh : m₀.applied = none) (start : Kernel) (s : Step)
    (before : List Step) (m : Manager) (k : Kernel) (hrun : Run m₀ start (s :: before) m k)
    (hfree : Free (usedConfigs (s :: before)) start) (htidy : Tidy (s :: before))
    (hnil : s.outcome.2 = none) :
    (∀ c, s.op = .apply c →
      (∀ r ∈ k.rules, InstalledRule (s :: before) r → r ∈ (desiredFrom c s.kernel).rules) ∧
      ∀ a ∈ k.routes, InstalledRoute (s :: before) a →
        a ∈ (desiredFrom c s.kernel).vpnRoutes ∨ a ∈ (desiredFrom c s.kernel).safeRoutes) ∧
    (∀ c, s.op = .rollback c →
      (∀ r ∈ k.rules, ¬ InstalledRule (s :: before) r) ∧
      ∀ a ∈ k.routes, ¬ InstalledRoute (s :: before) a) := by
  obtain ⟨hnewRules, hnewRoutes⟩ := hrun.installed_new hfresh hfree htidy
  cases hrun with
  | @step _ m k op tr out _ hrun hop hex =>
    have hinv := Run.inv hfresh hrun (fun c hc => hfree c (mem_append_right _ hc)) htidy.2
    have hperf := performed_of_exec hinv.good hop hex
    constructor
    · intro c hc
      obtain rfl : op = .apply c := hc
      cases hperf with
      | idle _ hnot => exact absurd hnil (hnot c (.inl rfl))
      | @applyFailed _ err _ hactive _ =>
        have hnone : err = none := hnil
        rw [hnone] at hactive
        cases hactive
      | refreshFailed hrefreshes | refreshed hrefreshes => cases hrefreshes
      | applied =>
        obtain ⟨hcov, hmist⟩ := htidy.1 rfl
        have hfree' : Free (m.configs c) start := by
          intro b hb
          rw [m.configs_eq] at hb
          rcases mem_cons.mp hb with rfl | hb
          · exact hfree b (mem_append_left _ mem_cons_self)
          · exact hfree b (mem_append_right _ (hinv.used b (mem_append_left _ hb)))
        obtain ⟨hrules, hroutes⟩ := hinv.tracked.reconciled hinv.good hop hfree' hcov hmist
        constructor
        · intro r hr hinst
          exact (hrules r hr).resolve_left (hnewRules r hinst)
        · intro a ha hinst
          exact (hroutes a ha).resolve_left (hnewRoutes a hinst)
    · intro c hc
      obtain rfl : op = .rollback c := hc
      cases hperf with
      | idle _ hnot => exact absurd hnil (hnot c (.inr rfl))
      | rollbackFailed _ hnot => exact absurd hnil hnot
      | refreshFailed hrefreshes | refreshed hrefreshes => cases hrefreshes
      | rolledBack =>
        obtain ⟨hrules, hroutes⟩ := hinv.tracked.rolledBack hinv.good (htidy.1 rfl)
        constructor
        · exact fun r hr hinst => hnewRules r hinst (hrules r hr)
        · exact fun a ha hinst => hnewRoutes a hinst (hroutes a ha)

/-! ## Runs by evaluation -/

/-- A step under given faults. -/
def stepOf (m : Manager) (k : Kernel) (op : Operation)
    (faults : List (Option AdapterError)) : Step :=
  let t := run Kernel.act (m.perform op) faults k
  ⟨op, m, k, t.1, t.2.1, t.2.2⟩

theorem Run.stepOf {m₀ m : Manager} {start k : Kernel} {before : List Step}
    (h : Run m₀ start before m k) (op : Operation) (hop : op.Valid)
    (faults : List (Option AdapterError)) :
    Run m₀ start (Routing.stepOf m k op faults :: before)
      (Routing.stepOf m k op faults).outcome.1 (Routing.stepOf m k op faults).final :=
  Run.step h hop (run_exec Kernel.act _ _ _)

/-- Five calls succeed, the next one fails: an `Apply` stops right behind its guards. -/
def behindGuards : List (Option AdapterError) := List.replicate 5 none ++ [some (.other "busy")]

/-- A first `Apply` of the config that fails behind its guards. -/
def failedStep (c : Config) : Step :=
  stepOf freshManager Kernel.empty (.apply c) behindGuards

/-- The next `Apply`, which succeeds. -/
def nextStep (c c' : Config) : Step :=
  stepOf (failedStep c).outcome.1 (failedStep c).final (.apply c') []

theorem run_nextStep {c c' : Config} (hc : c.Valid) (hc' : c'.Valid) :
    Run freshManager Kernel.empty [nextStep c c', failedStep c] (nextStep c c').outcome.1
      (nextStep c c').final :=
  (Run.start.stepOf (.apply c) hc behindGuards).stepOf (.apply c') hc' []

theorem free_empty (configs : List Config) : Free configs Kernel.empty := by
  intro c _
  constructor
  · rintro r ⟨⟩
  · rintro a ⟨⟩

/-- An `Apply` of the config that failed covers what the failure left. -/
theorem clean_retry {s : Step} {c : Config} (hc : c.Valid) (hop : s.op = .apply c)
    {left : List Config} (hleft : ∀ b ∈ left, b = c) : s.Clean left := by
  have hmem := s.manager.mem_configs_self c
  rw [Step.Clean, hop]
  refine ⟨⟨?_, ?_⟩, ?_⟩
  · intro b hb r hr _
    rw [hleft b hb] at hr
    exact ownsRule_iff.mpr ⟨c, hmem, inBlock_ownRules hc hr⟩
  · intro b hb a _ ha
    rw [hleft b hb] at ha
    exact ownsRoute_iff.mpr ⟨c, hmem, ha⟩
  · intro b hb r hr _ _
    rw [hleft b hb] at hr
    rcases (mem_ownRules hc).mp hr with hg | hrule
    · exact .inl (mem_transitionGuards_configs.mpr ⟨c, hmem, hg⟩)
    · exact .inr (.inl ((compiled_desiredFrom hc s.kernel).mem_rules.mpr hrule))

/-- A retry after a failure behind the guards leaves no orphan. -/
theorem no_orphans_retry :
    guardActive (failedStep sampleConfig).outcome.2 = true ∧
      ∀ r ∈ (nextStep sampleConfig sampleConfig).final.rules,
        InstalledRule [nextStep sampleConfig sampleConfig, failedStep sampleConfig] r →
          r ∈ (desiredFrom sampleConfig (failedStep sampleConfig).final).rules := by
  have hactive : guardActive (failedStep sampleConfig).outcome.2 = true := by decide +kernel
  have hleft : leftBehind [failedStep sampleConfig] = [sampleConfig] :=
    leftBehind_applyFailed rfl hactive
  refine ⟨hactive, ((no_orphans freshManager rfl Kernel.empty (nextStep sampleConfig sampleConfig)
    [failedStep sampleConfig] _ _ (run_nextStep sampleConfig_valid sampleConfig_valid)
    (free_empty _) ⟨fun _ => clean_retry sampleConfig_valid rfl ?_, fun hsettles => ?_, trivial⟩
    (by decide +kernel)).1 sampleConfig rfl).1⟩
  · rw [hleft]
    simp
  · exact absurd hsettles (by decide +kernel)

/-- A config with a block and tables of its own. -/
def otherConfig : Config :=
  { sampleConfig with priorityBase := 20000, vpnTable := 52000, safeTable := 52001 }

theorem otherConfig_valid : otherConfig.Valid := ⟨rfl, by decide⟩

/-- After a failed `Apply` of one config, an `Apply` of another returns nil and the
    guard of the first stays in the kernel. -/
theorem orphan_left :
    Run freshManager Kernel.empty [nextStep otherConfig sampleConfig, failedStep otherConfig]
      (nextStep otherConfig sampleConfig).outcome.1 (nextStep otherConfig sampleConfig).final ∧
    Free (usedConfigs [nextStep otherConfig sampleConfig, failedStep otherConfig]) Kernel.empty ∧
    (nextStep otherConfig sampleConfig).outcome.2 = none ∧
    ∃ r ∈ (nextStep otherConfig sampleConfig).final.rules,
      InstalledRule [nextStep otherConfig sampleConfig, failedStep otherConfig] r ∧
      r ∉ (desiredFrom sampleConfig (nextStep otherConfig sampleConfig).kernel).rules := by
  refine ⟨run_nextStep otherConfig_valid sampleConfig_valid, free_empty _, by decide +kernel,
    transitionGuard otherConfig afInet, by decide +kernel, ⟨failedStep otherConfig, by simp, ?_⟩,
    by decide +kernel⟩
  decide +kernel

end SysnetLinux.Routing
