/-
  SysnetLinux.Routing.Shelter

  Packets stay sheltered after a failed `Apply`.

  A packet is sheltered when a guard stands with nothing but foreign rules and drops ahead of it,
  or when one policy of its family is completely installed and everything else that could decide
  is a foreign rule or a drop.  Each operation keeps the shelter as long as it covers what failed
  calls have left behind, families included, and `Refresh` is called only while the applied state
  is intact.
-/

import SysnetLinux.Routing.Faultless
import SysnetLinux.Routing.Runs
import SysnetLinux.Routing.Transition

namespace SysnetLinux.Routing

open CallProg CallProg.Prog List

/-! ## Shelter -/

/-- All rules and both tables of the state are in the kernel. -/
structure Complete (d : DesiredState) (k : Kernel) : Prop where
  rules : ∀ r ∈ d.rules, r ∈ k.rules
  tables : ∀ a, inTables d.config a = true →
    (a ∈ k.routes ↔ a ∈ d.vpnRoutes ∨ a ∈ d.safeRoutes)

/-- What the rules of the policy and those from before the manager decide. -/
def policyDecision (start : Kernel) (d : DesiredState) (k : Kernel) (p : Packet) :
    Option Decision :=
  (k.rules.filter fun r => decide (r ∈ start.rules) || decide (r ∈ d.rules)).findSome?
    (verdict k.routes p)

/-- The packet is dropped, or decided by a rule of another owner that is tried ahead of the guard of
    one of the configs, or it receives the decision of a completely installed policy, which is one
    of the policies and has the family of the packet. -/
inductive Protected (start : Kernel) (policies configs : List Config) (p : Packet) (k : Kernel) :
    Prop
  | dropped : k.decision p = some .drop → Protected start policies configs p k
  | ahead {r : Rule} {c : Config} : r ∈ start.rules → r ∈ k.rules → c ∈ configs →
      familyEnabled c.families p.family = true → r.priority ≤ c.priorityBase + 2 →
      k.decision p = verdict k.routes p r → Protected start policies configs p k
  | policy {d : DesiredState} : d.config ∈ policies →
      familyEnabled d.config.families p.family = true → d.Compiled → Complete d k →
      k.decision p = policyDecision start d k p → Protected start policies configs p k

/-- A rule that can say nothing but drop about the packet. -/
def Harmless (p : Packet) (r : Rule) : Prop := r.applies p = false ∨ r.action = .unreachable

/-- A guard stands, at or ahead of the guard of one of the configs, and everything
    up to it is foreign or harmless. -/
def Shut (start : Kernel) (configs : List Config) (p : Packet) (k : Kernel) : Prop :=
  ∃ g ∈ k.rules, g.action = .unreachable ∧ g.applies p = true ∧
    (∃ c ∈ configs, familyEnabled c.families p.family = true ∧
      g.priority ≤ c.priorityBase + 2) ∧
    ∀ r ∈ k.rules, r.priority ≤ g.priority → r ∈ start.rules ∨ Harmless p r

/-- A policy is completely installed, and everything else is foreign or harmless. -/
structure Whole (start : Kernel) (p : Packet) (d : DesiredState) (k : Kernel) : Prop where
  compiled : d.Compiled
  complete : Complete d k
  rest : ∀ r ∈ k.rules, r ∈ start.rules ∨ r ∈ d.rules ∨ Harmless p r
  new : ∀ r ∈ d.rules, r ∉ start.rules

/-- Nothing but foreign and harmless rules is left. -/
def Bare (start : Kernel) (p : Packet) (k : Kernel) : Prop :=
  ∀ r ∈ k.rules, r ∈ start.rules ∨ Harmless p r

variable {p : Packet} {r : Rule} {k : Kernel}

theorem harmless_of_family (h : r.family ≠ p.family) : Harmless p r :=
  .inl (Bool.eq_false_iff.mpr fun happ => h (family_of_applies happ))

theorem Harmless.verdict (h : Harmless p r) (routes : List Route) :
    verdict routes p r = none ∨ verdict routes p r = some .drop := by
  rcases h with happ | hact
  · exact .inl (verdict_of_not_applies happ)
  · exact verdict_unreachable_or hact

section Protected

variable {start : Kernel} {policies configs : List Config} {p : Packet} {k : Kernel}

theorem Shut.isProtected (h : Shut start configs p k) : Protected start policies configs p k := by
  obtain ⟨g, hg, hact, happ, ⟨c, hc, hf, hprio⟩, hahead⟩ := h
  have hbehind := decision_behind_guard (fun r => !decide (r ∈ start.rules)) hg hact happ
    fun r hr hle hown => ?_
  · rcases hbehind with hdrop | ⟨hsome, heq⟩
    · exact .dropped hdrop
    · obtain ⟨d, hd⟩ := Option.ne_none_iff_exists'.mp hsome
      obtain ⟨r, hr, hverdict⟩ := exists_of_findSome?_eq_some hd
      simp only [outsideUpTo, mem_filter, Bool.and_eq_true, decide_eq_true_eq, Bool.not_not] at hr
      obtain ⟨hmem, hle, hstart⟩ := hr
      refine .ahead hstart hmem hc hf (le_trans hle hprio) ?_
      rw [heq, hd, hverdict]
  · rcases hahead r hr hle with hstart | hharm
    · simp [hstart] at hown
    · exact hharm.verdict _

theorem Whole.isProtected {d : DesiredState} (h : Whole start p d k) (hd : d.config ∈ policies)
    (hf : familyEnabled d.config.families p.family = true) :
    Protected start policies configs p k := by
  have hfilter := FirstMatch.findSome?_filter_or (l := k.rules) (f := verdict k.routes p)
    (p := fun r => decide (r ∈ start.rules) || decide (r ∈ d.rules)) (d := .drop)
    fun r hr hq => ?_
  · rcases hfilter with heq | hdrop
    · exact .policy hd hf h.compiled h.complete heq
    · exact .dropped hdrop
  · rw [Bool.or_eq_false_iff, decide_eq_false_iff_not, decide_eq_false_iff_not] at hq
    rcases h.rest r hr with hstart | hd | hharm
    · exact absurd hstart hq.1
    · exact absurd hd hq.2
    · exact hharm.verdict _

/-- A policy without the packet's family has no rule for it. -/
theorem Whole.bare {d : DesiredState} (h : Whole start p d k)
    (hf : familyEnabled d.config.families p.family = false) : Bare start p k := by
  intro r hr
  rcases h.rest r hr with hstart | hd | hharm
  · exact .inl hstart
  · refine .inr (harmless_of_family fun heq => ?_)
    rw [← heq, (h.compiled.mem_rules.mp hd).1] at hf
    cases hf
  · exact .inr hharm

end Protected

/-- The packet is sheltered: the way is shut, or one of the policies, with the packet's family, is
    completely installed.  Where the family may have been given up (`lapsed`), nothing may be left
    for the packet instead. -/
def Sheltered (start : Kernel) (lapsed : Prop) (policies configs : List Config) (p : Packet)
    (k : Kernel) : Prop :=
  Shut start configs p k ∨ (∃ d, Whole start p d k ∧ d.config ∈ policies ∧
    familyEnabled d.config.families p.family = true) ∨ lapsed ∧ Bare start p k

theorem Sheltered.isProtected {start : Kernel} {policies configs : List Config}
    (h : Sheltered start False policies configs p k) : Protected start policies configs p k := by
  rcases h with hshut | ⟨d, hwhole, hd, hf⟩ | ⟨hlapsed, -⟩
  · exact hshut.isProtected
  · exact hwhole.isProtected hd hf
  · exact hlapsed.elim

section Change

variable {start : Kernel} {lapsed : Prop} {policies configs : List Config} {p : Packet}
  {k x : Kernel}

theorem Shut.of_subset (h : Shut start configs p k)
    (hkeep : ∀ g ∈ k.rules, g.action = .unreachable → g.applies p = true → g ∈ x.rules)
    (hfrom : ∀ r ∈ x.rules, r ∈ k.rules ∨ Harmless p r) : Shut start configs p x := by
  obtain ⟨g, hg, hact, happ, hbound, hahead⟩ := h
  refine ⟨g, hkeep g hg hact happ, hact, happ, hbound, fun r hr hle => ?_⟩
  rcases hfrom r hr with hk | hharm
  · exact hahead r hk hle
  · exact .inr hharm

theorem Bare.of_subset (h : Bare start p k) (hfrom : ∀ r ∈ x.rules, r ∈ k.rules ∨ Harmless p r) :
    Bare start p x := fun r hr => (hfrom r hr).elim (h r) .inr

theorem Sheltered.addRules (h : Sheltered start lapsed policies configs p k) {gs : List Rule}
    (hgs : ∀ g ∈ gs, g.action = .unreachable) :
    Sheltered start lapsed policies configs p (k.addRules gs) := by
  have hfrom : ∀ r ∈ (k.addRules gs).rules, r ∈ k.rules ∨ Harmless p r := by
    intro r hr
    rcases Kernel.mem_addRules.mp hr with hg | hk
    · exact .inr (.inr (hgs r hg))
    · exact .inl hk
  have hkeep : ∀ r ∈ k.rules, r ∈ (k.addRules gs).rules :=
    fun r hr => Kernel.mem_addRules.mpr (.inr hr)
  rcases h with hshut | ⟨d, hwhole, hfam⟩ | ⟨hlapsed, hbare⟩
  · exact .inl (hshut.of_subset (fun g hg _ _ => hkeep g hg) hfrom)
  · refine .inr (.inl ⟨d, ⟨hwhole.compiled, ⟨fun r hr => hkeep r (hwhole.complete.rules r hr), ?_⟩,
      ?_, hwhole.new⟩, hfam⟩)
    · rw [Kernel.addRules_routes]
      exact hwhole.complete.tables
    · intro r hr
      rcases hfrom r hr with hk | hharm
      · exact hwhole.rest r hk
      · exact .inr (.inr hharm)
  · exact .inr (.inr ⟨hlapsed, hbare.of_subset hfrom⟩)

theorem Shut.mono (h : Shut start configs p k) {configs' : List Config}
    (hsub : ∀ c ∈ configs, c ∈ configs') : Shut start configs' p k := by
  obtain ⟨g, hg, hact, happ, ⟨c, hc, hbound⟩, hahead⟩ := h
  exact ⟨g, hg, hact, happ, ⟨c, hsub c hc, hbound⟩, hahead⟩

theorem Sheltered.mono (h : Sheltered start lapsed policies configs p k)
    {policies' configs' : List Config} (hpolicies : ∀ c ∈ policies, c ∈ policies')
    (hsub : ∀ c ∈ configs, c ∈ configs') : Sheltered start lapsed policies' configs' p k := by
  rcases h with hshut | ⟨d, hwhole, hd, hf⟩ | hbare
  · exact .inl (hshut.mono hsub)
  · exact .inr (.inl ⟨d, hwhole, hpolicies _ hd, hf⟩)
  · exact .inr (.inr hbare)

/-- Where nothing else is left, a guard that stands shuts the way. -/
theorem Sheltered.shut (h : Sheltered start lapsed policies configs p k) {c : Config}
    (hc : c ∈ configs) (hvalid : c.Valid) (hf : familyEnabled c.families p.family = true)
    (hguard : transitionGuard c p.family ∈ k.rules) :
    Sheltered start False policies configs p k := by
  rcases h with hshut | hwhole | ⟨-, hbare⟩
  · exact .inl hshut
  · exact .inr (.inl hwhole)
  · exact .inl ⟨_, hguard, rfl, transitionGuard_applies,
      ⟨c, hc, hf, (transitionGuard_priority hvalid).le⟩, fun r hr _ => hbare r hr⟩

end Change

/-! ## Apply -/

/-- Up to its guard, a config has only harmless rules for a packet it does not bypass. -/
theorem harmless_of_ownRules {b : Config} (hb : b.Valid) (hp : appBypass b p = false)
    (hr : r ∈ b.ownRules) (hprio : r.priority ≤ b.priorityBase + 2) : Harmless p r := by
  rcases (mem_ownRules hb).mp hr with hg | ⟨-, hrule⟩
  · obtain ⟨f, -, rfl⟩ := mem_configGuards.mp hg
    exact .inr rfl
  · rcases mem_compileRules_cases hb hrule with ⟨-, -, hmark, hmask⟩ | ⟨hlo, -⟩
    · left
      have hsel : selects b.appBypassMark b.appBypassMask p.mark = false := hp
      rw [Rule.applies, hmark, hmask, hsel, Bool.and_false]
    · omega

/-- Each family of a config left behind has a guard of the call at or ahead of the config's own. -/
def GuardsAhead (m : Manager) (c : Config) (left : List Config) : Prop :=
  ∀ b ∈ left, ∀ f, familyEnabled b.families f = true →
    ∃ c' ∈ m.configs c, familyEnabled c'.families f = true ∧ c'.priorityBase ≤ b.priorityBase

section Apply

variable {start : Kernel} {before : List Step} {m : Manager} {k x : Kernel}
  (h : RunInv start before m k) {c : Config} (hc : c.Valid) {p : Packet}
  (hp : ∀ b ∈ m.appliedConfigs ++ c :: leftBehind before, appBypass b p = false)
include h hc

include hp in
/-- Behind the foremost guard of a call the way is shut. -/
theorem RunInv.shut_foremost (hahead : GuardsAhead m c (leftBehind before))
    {B : List Config} {c' : Config} (hc' : c' ∈ m.configs c)
    (hmin : ∀ b ∈ m.configs c, familyEnabled b.families p.family = true →
      c'.priorityBase ≤ b.priorityBase)
    (hbound : ∃ b ∈ B, familyEnabled b.families p.family = true ∧ c'.priorityBase ≤ b.priorityBase)
    (hguard : transitionGuard c' p.family ∈ x.rules)
    (hfrom : ∀ r ∈ x.rules, r ∈ k.rules ∨ r ∈ transitionGuards (m.configs c) ∨
      r ∈ (desiredFrom c k).rules) : Shut start B p x := by
  have hvalid := Manager.configs_valid h.good hc hc'
  have hprio : (transitionGuard c' p.family).priority = c'.priorityBase + 2 :=
    transitionGuard_priority hvalid
  obtain ⟨b, hb, hbf, hble⟩ := hbound
  refine ⟨transitionGuard c' p.family, hguard, rfl, transitionGuard_applies,
    ⟨b, hb, hbf, by omega⟩, fun r hr hle => ?_⟩
  by_cases hfam : r.family = p.family
  · -- the rule of an owner behind the guard `c'` is behind the owner's own
    have howner : ∀ b, b.Valid → b ∈ m.appliedConfigs ++ c :: leftBehind before →
        (familyEnabled b.families p.family = true → c'.priorityBase ≤ b.priorityBase) →
        r ∈ b.ownRules → Harmless p r := by
      intro b hb hmem hbase hown
      have hbf := (inBlock_iff.mp (inBlock_ownRules hb hown)).1
      rw [hfam] at hbf
      have hle' := hbase hbf
      exact harmless_of_ownRules hb (hp b hmem) hown (by omega)
    rcases hfrom r hr with hk | hg | hnew
    · rcases h.tracked.rules r hk with hstart | ⟨b, hb, hown⟩
      · exact .inl hstart
      · right
        rcases mem_append.mp hb with hb | hb
        · refine howner b (h.good.appliedConfigs_valid hb) (mem_append_left _ hb) ?_ hown
          exact hmin b (by rw [m.configs_eq]; exact mem_cons_of_mem c hb)
        · refine howner b (h.valid b hb) (mem_append_right _ (mem_cons_of_mem c hb)) ?_ hown
          intro hbf
          obtain ⟨b', hb', hbf', hle'⟩ := hahead b hb p.family hbf
          exact le_trans (hmin b' hb' hbf') hle'
    · exact .inr (.inr (transitionGuard_action hg))
    · right
      refine howner c hc (mem_append_right _ mem_cons_self) ?_
        ((compiled_desiredFrom hc k).mem_ownRules hnew)
      exact hmin c (m.mem_configs_self c)
  · exact .inr (harmless_of_family hfam)

/-- While the guards come out, the new policy is complete. -/
theorem RunInv.whole_closing (hfree : Free (m.configs c) start)
    (hcov : Covers (m.configs c) (leftBehind before) k)
    (hmist : NotMistaken m c (leftBehind before) k) {done rest : List Rule}
    (hsplit : (m.plan (desiredFrom c k)).removed = done ++ rest) :
    Whole start p (desiredFrom c k) ((m.settled (desiredFrom c k) k).deleteRules done) := by
  have hd := compiled_desiredFrom hc k
  have hremoved : ∀ g ∈ done, g ∈ m.guards (desiredFrom c k) ∧ g ∉ (desiredFrom c k).rules := by
    intro g hg
    have hmem : g ∈ (m.plan (desiredFrom c k)).removed := hsplit ▸ mem_append_left rest hg
    simpa [Manager.plan] using hmem
  have hdrop : ∀ g ∈ done, g.action = .unreachable :=
    fun g hg => transitionGuard_action (hremoved g hg).1
  obtain ⟨hrules, -⟩ := h.tracked.reconciled h.good hc hfree hcov hmist
  refine ⟨hd, ⟨?_, ?_⟩, ?_, ?_⟩
  · intro r hr
    rw [Kernel.mem_deleteRules_unreachable hdrop]
    exact ⟨fun hg => (hremoved r hg).2 hr, Kernel.mem_addRules.mpr (.inl hr)⟩
  · intro a ha
    have hown : ownsRoute (m.configs c) a = true := ownsRoute_iff.mpr ⟨c, m.mem_configs_self c, ha⟩
    rw [Kernel.deleteRules_routes, ← routes_converge hown, Manager.reconciled,
      Kernel.deleteRules_routes]
  · intro r hr
    have hsettled := ((Kernel.mem_deleteRules_unreachable hdrop).mp hr).2
    by_cases hg : r ∈ m.guards (desiredFrom c k)
    · exact .inr (.inr (.inr (transitionGuard_action hg)))
    · have hall : ∀ g ∈ (m.plan (desiredFrom c k)).removed, g.action = .unreachable :=
        fun g hg => transitionGuard_action (mem_filter.mp hg).1
      have hrec : r ∈ (m.reconciled (desiredFrom c k) k).rules := by
        rw [Manager.reconciled, Kernel.mem_deleteRules_unreachable hall]
        exact ⟨fun hmem => hg (mem_filter.mp hmem).1, hsettled⟩
      rcases hrules r hrec with hstart | hnew
      · exact .inl hstart
      · exact .inr (.inl hnew)
  · intro r hr hstart
    have hin := hd.inBlock_of_mem hr
    rw [desiredFrom_config, (hfree c (m.mem_configs_self c)).1 r hstart] at hin
    cases hin

omit h hc in
/-- An owner of the packet's family has a guard of the call at or ahead of it. -/
theorem exists_guard_ahead (hahead : GuardsAhead m c (leftBehind before)) {f : Int} {b : Config}
    (hb : b ∈ m.appliedConfigs ++ c :: leftBehind before)
    (hbf : familyEnabled b.families f = true) :
    ∃ c' ∈ m.configs c, familyEnabled c'.families f = true ∧
      (∀ b' ∈ m.configs c, familyEnabled b'.families f = true →
        c'.priorityBase ≤ b'.priorityBase) ∧ c'.priorityBase ≤ b.priorityBase := by
  have hsome : ∃ c' ∈ m.configs c, familyEnabled c'.families f = true ∧
      c'.priorityBase ≤ b.priorityBase := by
    rcases mem_append.mp hb with hb | hb
    · exact ⟨b, by rw [m.configs_eq]; exact mem_cons_of_mem c hb, hbf, le_refl _⟩
    · rcases mem_cons.mp hb with rfl | hb
      · exact ⟨b, m.mem_configs_self b, hbf, le_refl _⟩
      · exact hahead b hb f hbf
  obtain ⟨c₁, hc₁, hf₁, hle₁⟩ := hsome
  obtain ⟨c', hc', hf', hmin⟩ := exists_foremost ⟨c₁, hc₁, hf₁⟩
  exact ⟨c', hc', hf', hmin, le_trans (hmin c₁ hc₁ hf₁) hle₁⟩

include hp in
/-- `Apply` keeps the shelter, if the states before its guards stand have it. -/
theorem RunInv.sheltered_apply (hfree : Free (m.configs c) start)
    (hcov : Covers (m.configs c) (leftBehind before) k)
    (hmist : NotMistaken m c (leftBehind before) k)
    (hahead : GuardsAhead m c (leftBehind before)) {lapsed : Prop} {P B : List Config} (hP : c ∈ P)
    (hlapsed : familyEnabled c.families p.family = true ∨ lapsed)
    (hB : ∃ b ∈ B, familyEnabled b.families p.family = true ∧
      b ∈ m.appliedConfigs ++ c :: leftBehind before)
    (hx : Stage (m.plan (desiredFrom c k)) k (m.settled (desiredFrom c k) k) x)
    (hopening : ∀ done rest, m.guards (desiredFrom c k) = done ++ rest → x = k.addRules done →
      Sheltered start lapsed P B p x) : Sheltered start lapsed P B p x := by
  obtain ⟨b, hb, hbf, hmem⟩ := hB
  obtain ⟨c', hc', hf', hmin, hle⟩ := exists_guard_ahead hahead hmem hbf
  cases hx with
  | opening done rest hsplit => exact hopening done rest hsplit rfl
  | guarded hx =>
    refine .inl (h.shut_foremost hc hp hahead hc' hmin ⟨b, hb, hbf, hle⟩ ?_ hx.rules_from)
    exact hx.guards_mem _ (mem_transitionGuards.mpr
      ⟨c', hc', p.family, mem_familyConstants.mpr hf', rfl⟩)
  | closing done rest hsplit =>
    have hwhole := h.whole_closing (p := p) hc hfree hcov hmist hsplit
    cases hcf : familyEnabled c.families p.family with
    | true => exact .inr (.inl ⟨desiredFrom c k, hwhole, hP, hcf⟩)
    | false =>
      rw [hcf] at hlapsed
      exact .inr (.inr ⟨hlapsed.resolve_left Bool.false_ne_true, hwhole.bare hcf⟩)

end Apply

/-! ## Refresh -/

/-- The rules and the VPN table of the applied state are in place, and what failed
    calls have left beside them can only drop. -/
structure Intact (m : Manager) (left : List Config) (k : Kernel) : Prop where
  rules : ∀ r ∈ m.appliedRules, r ∈ k.rules
  vpnTable : ∀ d, m.applied = some d → ∀ a : Route,
    familyEnabled d.config.families a.family = true → a.table = d.config.vpnTable →
      (a ∈ k.routes ↔ a ∈ d.vpnRoutes)
  rest : ∀ b ∈ left, ∀ r ∈ b.ownRules, r ∈ k.rules →
    r ∈ m.appliedRules ∨ r.action = .unreachable

/-- Every family of a policy has a rule that looks up a table. -/
theorem exists_lookup (c : Config) (f : Int) :
    ∃ r ∈ compileRules c f, r.family = f ∧ r.action = .lookup :=
  ⟨_, mem_append_left _ mem_cons_self, rfl, rfl⟩

section Refresh

variable {start : Kernel} {before : List Step} {m : Manager} {k x : Kernel}
  (h : RunInv start before m k) {a : DesiredState} (ha : m.applied = some a)
  (hintact : Intact m (leftBehind before) k)
include h ha hintact

/-- Over an intact state, every rule is foreign, applied or a drop. -/
theorem RunInv.rest_of_intact {r : Rule} (hr : r ∈ k.rules) :
    r ∈ start.rules ∨ r ∈ a.rules ∨ r.action = .unreachable := by
  have hrules : m.appliedRules = a.rules := by simp [Manager.appliedRules, ha]
  rcases h.tracked.rules r hr with hstart | ⟨b, hb, hown⟩
  · exact .inl hstart
  · rcases mem_append.mp hb with hb | hb
    · rcases Manager.mem_appliedRules h.good hb hown with hg | hrule
      · obtain ⟨f, -, rfl⟩ := mem_configGuards.mp hg
        exact .inr (.inr rfl)
      · exact .inr (.inl (hrules ▸ hrule))
    · rcases hintact.rest b hb r hown hr with hrule | hact
      · exact .inr (.inl (hrules ▸ hrule))
      · exact .inr (.inr hact)

variable {p : Packet} {lapsed : Prop} {P B : List Config}

/-- While the guards of a refresh come out, the refreshed policy is complete. -/
theorem RunInv.whole_refresh (hfree : Free m.appliedConfigs start) {done rest : List Rule}
    (hsplit : configGuards a.config = done ++ rest) :
    Whole start p (desiredFrom a.config k) ((refreshSettled a.config k).deleteRules done) := by
  have hc := (h.good a ha).valid
  have hd := compiled_desiredFrom hc k
  have hrules : m.appliedRules = a.rules := by simp [Manager.appliedRules, ha]
  have hsame : a.rules = (desiredFrom a.config k).rules := (h.good a ha).rules_eq _
  have hguard : ∀ g ∈ done, g ∈ configGuards a.config :=
    fun g hg => hsplit ▸ mem_append_left rest hg
  have hdrop : ∀ g ∈ done, g.action = .unreachable :=
    fun g hg => (refreshPlan_sound a.config).guards_drop g (hguard g hg)
  have hsettled : ∀ r, r ∈ (refreshSettled a.config k).rules ↔
      r ∈ configGuards a.config ∨ r ∈ k.rules := by
    intro r
    simp [refreshSettled]
  refine ⟨hd, ⟨?_, ?_⟩, ?_, ?_⟩
  · intro r hr
    rw [Kernel.mem_deleteRules_unreachable hdrop, hsettled]
    refine ⟨fun hg => configGuards_not_desired hd (hguard r hg) hr, .inr ?_⟩
    exact hintact.rules r (by rw [hrules, hsame]; exact hr)
  · intro b hin
    rw [Kernel.deleteRules_routes]
    refine refreshSettled_tables hc (fun b hfam htable => ?_) hin
    rw [hintact.vpnTable a ha b hfam htable, (h.good a ha).vpnRoutes_eq]
    rfl
  · intro r hr
    rw [Kernel.mem_deleteRules_unreachable hdrop, hsettled] at hr
    rcases hr.2 with hg | hk
    · exact .inr (.inr (.inr ((refreshPlan_sound a.config).guards_drop r hg)))
    · rcases h.rest_of_intact ha hintact hk with hstart | hrule | hact
      · exact .inl hstart
      · exact .inr (.inl (hsame ▸ hrule))
      · exact .inr (.inr (.inr hact))
  · intro r hr hstart
    have hin := hd.inBlock_of_mem hr
    have hmem : a.config ∈ m.appliedConfigs := Manager.mem_appliedConfigs.mpr ⟨a, ha, rfl⟩
    rw [desiredFrom_config, (hfree a.config hmem).1 r hstart] at hin
    cases hin

/-- Behind the guards of a refresh the way is shut. -/
theorem RunInv.shut_refresh (hp : appBypass a.config p = false)
    (hf : familyEnabled a.config.families p.family = true) (hB : a.config ∈ B)
    (hx : Guarded (refreshPlan a.config) k x) : Shut start B p x := by
  have hc := (h.good a ha).valid
  have hprio : (transitionGuard a.config p.family).priority = a.config.priorityBase + 2 :=
    transitionGuard_priority hc
  refine ⟨transitionGuard a.config p.family, ?_, rfl, transitionGuard_applies,
    ⟨a.config, hB, hf, by omega⟩, fun r hr hle => ?_⟩
  · exact hx.guards_mem _ (mem_configGuards.mpr ⟨p.family, mem_familyConstants.mpr hf, rfl⟩)
  · rcases hx.rules_from r hr with hk | hg | hnew
    · rcases h.rest_of_intact ha hintact hk with hstart | hrule | hact
      · exact .inl hstart
      · right
        exact harmless_of_ownRules hc hp ((h.good a ha).mem_ownRules hrule) (by omega)
      · exact .inr (.inr hact)
    · exact .inr (.inr ((refreshPlan_sound a.config).guards_drop r hg))
    · cases hnew

/-- A family that the applied config does not have is not touched. -/
theorem RunInv.sheltered_other (hf : familyEnabled a.config.families p.family = false)
    (hW : Sheltered start lapsed P B p k)
    (hx : Stage (refreshPlan a.config) k (refreshSettled a.config k) x) :
    Sheltered start lapsed P B p x := by
  have hc := (h.good a ha).valid
  have hfrom : ∀ r ∈ x.rules, r ∈ k.rules ∨ Harmless p r := by
    intro r hr
    rcases hx.rules_from (guarded_refreshSettled hc k) hr with hk | hg | hnew
    · exact .inl hk
    · exact .inr (.inr ((refreshPlan_sound a.config).guards_drop r hg))
    · cases hnew
  rcases hW with hshut | ⟨d, hwhole, -, hdf⟩ | ⟨hlapsed, hbare⟩
  · refine .inl (hshut.of_subset (fun g hg _ happ => ?_) hfrom)
    · -- the guard that stands is not one of the applied config
      have hnot : g ∉ configGuards a.config := by
        intro hmem
        obtain ⟨f, hfc, rfl⟩ := mem_configGuards.mp hmem
        have hff : f = p.family := family_of_applies happ
        rw [← hff, mem_familyConstants.mp hfc] at hf
        cases hf
      have hmem : g ∈ k.rules.filter fun r => !(refreshPlan a.config).rules r :=
        mem_filter.mpr ⟨hg, by simp [refreshPlan, hnot]⟩
      rw [← (hx.outside (refreshPlan_sound _) (guarded_refreshSettled hc k)).1] at hmem
      exact (mem_filter.mp hmem).1
  · -- no other policy can be complete over the intact one
    exfalso
    obtain ⟨r, hr, hrf, hact⟩ := exists_lookup d.config p.family
    have hmem : r ∈ d.rules := hwhole.compiled.mem_rules.mpr ⟨hrf ▸ hdf, hrf ▸ hr⟩
    rcases h.rest_of_intact ha hintact (hwhole.complete.rules r hmem) with hstart | hrule | hdrop
    · exact hwhole.new r hmem hstart
    · have hcontra := ((h.good a ha).mem_rules.mp hrule).1
      rw [hrf, hf] at hcontra
      cases hcontra
    · rw [hact] at hdrop
      cases hdrop
  · exact .inr (.inr ⟨hlapsed, hbare.of_subset hfrom⟩)

theorem RunInv.sheltered_refresh (hfree : Free m.appliedConfigs start)
    (hp : appBypass a.config p = false) (hB : a.config ∈ B) (hP : a.config ∈ P)
    (hW : Sheltered start lapsed P B p k)
    (hx : Stage (refreshPlan a.config) k (refreshSettled a.config k) x) :
    Sheltered start lapsed P B p x := by
  cases hf : familyEnabled a.config.families p.family with
  | false => exact h.sheltered_other ha hintact hf hW hx
  | true =>
    cases hx with
    | opening done rest hsplit =>
      refine hW.addRules fun g hg => (refreshPlan_sound a.config).guards_drop g ?_
      exact hsplit ▸ mem_append_left rest hg
    | guarded hx => exact .inl (h.shut_refresh ha hintact hp hf hB hx)
    | closing done rest hsplit =>
      exact .inr (.inl ⟨_, h.whole_refresh ha hintact hfree hsplit, hP, hf⟩)

end Refresh

/-! ## Careful runs -/

/-- After a failed call, an `Apply` has all families of the applied config and of what is left. -/
def KeepsFamilies (m : Manager) (c : Config) (left : List Config) : Prop :=
  left ≠ [] → ∀ b ∈ m.appliedConfigs ++ left, ∀ f, familyEnabled b.families f = true →
    familyEnabled c.families f = true

/-- The call covers what failed calls before it have left, from a guard at or ahead
    of theirs; a rollback is not disturbed; a refresh comes over an intact state. -/
def Step.Careful (s : Step) (left : List Config) : Prop :=
  match s.op with
  | .apply c => s.Clean left ∧ GuardsAhead s.manager c left ∧ KeepsFamilies s.manager c left
  | .rollback _ => s.Clean left ∧ ∀ ev ∈ s.trace, ev.failed = false
  | .beginRouteChange => True
  | _ => left ≠ [] → Intact s.manager left s.kernel

def Careful : List Step → Prop
  | [] => True
  | s :: before => s.Careful (leftBehind before) ∧ Careful before

theorem Step.Careful.clean {s : Step} {left : List Config} (h : s.Careful left)
    (_ : s.settles = true) : s.Clean left := by
  rw [Step.Careful] at h
  cases hop : s.op with
  | apply c | rollback c =>
    rw [hop] at h
    exact h.1
  | _ =>
    rw [Step.Clean, hop]
    trivial

/-- A rollback none of whose calls fails makes no call or returns nil. -/
theorem rollback_undisturbed {m : Manager} {c : Config} (hc : c.Valid) {k' : Kernel}
    {tr : List (Event AdapterCall Kernel)} {out : Outcome}
    (hex : Exec adapter (m.rollback c) k tr out k') (hok : ∀ ev ∈ tr, ev.failed = false) :
    (tr = [] ∧ k' = k ∧ out.2 ≠ none) ∨ out.2 = none := by
  by_cases hopen : m.closed = true
  · obtain ⟨e, he, -⟩ := Manager.rollback_refused c (.inl hopen)
    rw [he] at hex
    cases hex
    exact .inl ⟨rfl, rfl, by simp⟩
  · rw [Bool.not_eq_true] at hopen
    exact .inr ((returns_rollback hopen hc.accepted).of_exec hex hok)

/-- What holds between the operations of a careful run. -/
structure GuardInv (start : Kernel) (steps : List Step) (m : Manager) (k : Kernel) : Prop where
  run : RunInv start steps m k
  intact : leftBehind steps = [] → Intact m [] k
  sheltered : ∀ p : Packet,
    (∀ c ∈ m.appliedConfigs ++ leftBehind steps, appBypass c p = false) →
    (∃ c ∈ m.appliedConfigs, familyEnabled c.families p.family = true) →
    Sheltered start True (m.appliedConfigs ++ leftBehind steps) m.appliedConfigs p k

section Passes

variable {start : Kernel} {before : List Step} {m : Manager} {k x : Kernel}
  (h : GuardInv start before m k)
include h

/-- Every state of a careful operation other than a rollback keeps the shelter. -/
theorem GuardInv.passes {op : Operation} (hop : op.Valid)
    (hfree : Free (op.configs ++ m.appliedConfigs) start)
    {tr : List (Event AdapterCall Kernel)} {out : Outcome} {k' : Kernel}
    (hcare : Step.Careful ⟨op, m, k, tr, out, k'⟩ (leftBehind before)) {p : Packet}
    (hp : ∀ b ∈ m.appliedConfigs ++ (op.configs ++ leftBehind before), appBypass b p = false)
    {lapsed : Prop} {P B : List Config} (hP : ∀ c ∈ m.appliedConfigs ++ op.configs, c ∈ P)
    (hlapsed : ∀ c, op = .apply c → familyEnabled c.families p.family = true ∨ lapsed)
    (hsub : ∀ c ∈ m.appliedConfigs, c ∈ B)
    (hB : ∃ b ∈ B, familyEnabled b.families p.family = true ∧
      b ∈ m.appliedConfigs ++ leftBehind before)
    (hW : Sheltered start lapsed P B p k) (hrollback : ∀ c, op ≠ .rollback c)
    (hx : Passes m k op x) : Sheltered start lapsed P B p x := by
  cases hx with
  | same => exact hW
  | @apply c _ hx =>
    obtain ⟨⟨hcov, hmist⟩, hahead, -⟩ := hcare
    obtain ⟨b, hb, hbf, hmem⟩ := hB
    have hmem' := ((sublist_cons_self c _).append_left _).subset hmem
    refine h.run.sheltered_apply hop hp ?_ hcov hmist hahead
      (hP c (mem_append_right _ mem_cons_self)) (hlapsed c rfl) ⟨b, hb, hbf, hmem'⟩ hx ?_
    · rw [m.configs_eq]
      exact hfree
    · rintro done rest hsplit rfl
      refine hW.addRules fun g hg => ?_
      have hguard : g ∈ m.guards (desiredFrom c k) := hsplit ▸ mem_append_left rest hg
      exact transitionGuard_action hguard
  | @refresh _ a _ hrefreshes ha hx =>
    have hmem : a.config ∈ m.appliedConfigs := Manager.mem_appliedConfigs.mpr ⟨a, ha, rfl⟩
    have hintact : Intact m (leftBehind before) k := by
      by_cases hleft : leftBehind before = []
      · rw [hleft]
        exact h.intact hleft
      · cases op with
        | refresh | refreshAfterRouteChange => exact hcare hleft
        | _ => cases hrefreshes
    exact h.run.sheltered_refresh ha hintact (fun c hc => hfree c (mem_append_right _ hc))
      (hp a.config (mem_append_left _ hmem)) (hsub _ hmem) (hP _ (mem_append_left _ hmem)) hW hx
  | rollback => exact absurd rfl (hrollback _)
  | @begin a done rest ha hsplit =>
    refine hW.addRules fun g hg => ?_
    have hguard : g ∈ configGuards a.config := hsplit ▸ mem_append_left rest hg
    exact (refreshPlan_sound a.config).guards_drop g hguard

theorem GuardInv.intact_stage {a : DesiredState} (ha : m.applied = some a) (hintact : Intact m [] k)
    (hx : Stage (refreshPlan a.config) k (refreshSettled a.config k) x) : Intact m [] x := by
  have hc := (h.run.good a ha).valid
  obtain ⟨hrules, hroutes⟩ :=
    hx.outside (refreshPlan_sound a.config) (guarded_refreshSettled hc k)
  refine ⟨?_, ?_, fun b hb => by cases hb⟩
  · intro r hr
    have hmem : r ∈ k.rules.filter fun r => !(refreshPlan a.config).rules r := by
      refine mem_filter.mpr ⟨hintact.rules r hr, ?_⟩
      have hrule : r ∈ a.rules := by simpa [Manager.appliedRules, ha] using hr
      have hnot : r ∉ configGuards a.config :=
        fun hg => configGuards_not_desired (h.run.good a ha) hg hrule
      simp [refreshPlan, hnot]
    rw [← hrules] at hmem
    exact (mem_filter.mp hmem).1
  · intro d hd b hfam htable
    rw [ha] at hd
    cases hd
    have hnot : (refreshPlan a.config).routes b = false := by
      show inSafeTable a.config b = false
      rw [← Bool.not_eq_true, inSafeTable, Bool.and_eq_true, beq_iff_eq]
      exact fun hs => hc.checked.tables_ne (htable.symm.trans hs.2)
    rw [← hintact.vpnTable a ha b hfam htable]
    have hmem : b ∈ (x.routes.filter fun a' => !(refreshPlan a.config).routes a') ↔
        b ∈ k.routes.filter fun a' => !(refreshPlan a.config).routes a' := by rw [hroutes]
    simpa [hnot] using hmem

end Passes

section Step

variable {start : Kernel} {before : List Step} {m : Manager} {k : Kernel}
  (h : GuardInv start before m k) {op : Operation} {tr : List (Event AdapterCall Kernel)}
  {out : Outcome} {k' : Kernel} (hop : op.Valid)
  (hex : Exec adapter (m.perform op) k tr out k')
  (hfree : Free (usedConfigs (⟨op, m, k, tr, out, k'⟩ :: before)) start)
  (hcare : Step.Careful ⟨op, m, k, tr, out, k'⟩ (leftBehind before))
include h hop hex hfree hcare

/-- The applied state stays intact as long as no `Apply` fails. -/
theorem GuardInv.intact_step (hleft : leftBehind (⟨op, m, k, tr, out, k'⟩ :: before) = []) :
    Intact out.1 [] k' := by
  have hperf := performed_of_exec h.run.good hop hex
  cases hperf with
  | idle hactive hnil =>
    rw [leftBehind_other (settles_eq_false hnil) (.inl hactive)] at hleft
    exact h.intact hleft
  | applyFailed hactive _ =>
    rw [leftBehind_applyFailed rfl hactive] at hleft
    cases hleft
  | @applied c =>
    have hd := compiled_desiredFrom hop k
    refine ⟨fun r hr => (mem_reconciled h.run.good hd).mpr (.inl hr), ?_, fun b hb => by cases hb⟩
    rintro d ⟨⟩ b hfam htable
    have hin : inTables c b = true := inTables_iff.mpr ⟨hfam, .inl htable⟩
    rw [routes_converge (ownsRoute_iff.mpr ⟨c, m.mem_configs_self c, hin⟩)]
    constructor
    · rintro (hv | hs)
      · exact hv
      · exact absurd (htable.symm.trans (hd.safeRoutes_in hs).2) hd.valid.checked.tables_ne
    · exact .inl
  | refreshFailed hrefreshes ha hx =>
    rw [leftBehind_refreshes hrefreshes] at hleft
    exact h.intact_stage ha (h.intact hleft) hx
  | @refreshed _ a hrefreshes ha =>
    rw [leftBehind_refreshes hrefreshes] at hleft
    have hx := h.intact_stage ha (h.intact hleft)
      (Stage.closing (configGuards a.config) [] (by simp [refreshPlan]))
    refine ⟨fun r hr => hx.rules r ?_, ?_, fun b hb => by cases hb⟩
    · rw [Manager.appliedRules, ha]
      show r ∈ a.rules
      rw [(h.run.good a ha).rules_eq (snapshotOf a.config k)]
      exact hr
    · rintro d ⟨⟩ b hfam htable
      have hvpn := hx.vpnTable a ha b hfam htable
      rw [(h.run.good a ha).vpnRoutes_eq (snapshotOf a.config k)] at hvpn
      exact hvpn
  | rollbackFailed _ hnil _ =>
    rcases rollback_undisturbed hop hex hcare.2 with ⟨-, rfl, -⟩ | hout
    · rw [leftBehind_other (settles_eq_false fun _ _ => hnil) (.inl ?_)] at hleft
      · exact h.intact hleft
      · assumption
    · exact absurd hout hnil
  | rolledBack =>
    refine ⟨?_, ?_, fun b hb => by cases hb⟩
    · rintro r ⟨⟩
    · rintro d ⟨⟩
  | begun ha hsplit =>
    rw [leftBehind_other rfl (.inr fun c hc => by cases hc)] at hleft
    have hx := h.intact hleft
    refine ⟨fun r hr => Kernel.mem_addRules.mpr (.inr (hx.rules r hr)), ?_, fun b hb => by cases hb⟩
    rw [Kernel.addRules_routes]
    exact hx.vpnTable

theorem GuardInv.sheltered_step {p : Packet}
    (hp : ∀ c ∈ out.1.appliedConfigs ++ leftBehind (⟨op, m, k, tr, out, k'⟩ :: before),
      appBypass c p = false)
    (hfam : ∃ c ∈ out.1.appliedConfigs, familyEnabled c.families p.family = true) :
    Sheltered start True
      (out.1.appliedConfigs ++ leftBehind (⟨op, m, k, tr, out, k'⟩ :: before))
      out.1.appliedConfigs p k' := by
  have hperf := performed_of_exec h.run.good hop hex
  have hpass := hperf.passes
  have hfree' := h.run.free_step hfree
  -- an operation that leaves the applied config in place
  have hkeep : m.appliedConfigs = out.1.appliedConfigs →
      (∀ b ∈ m.appliedConfigs ++ (op.configs ++ leftBehind before), appBypass b p = false) →
      (∀ c, op ≠ .rollback c) →
      Sheltered start True (m.appliedConfigs ++ (op.configs ++ leftBehind before))
        m.appliedConfigs p k' := by
    intro happlied hp' hrollback
    rw [← happlied] at hfam
    have hmem : ∀ c ∈ m.appliedConfigs ++ leftBehind before,
        c ∈ m.appliedConfigs ++ (op.configs ++ leftBehind before) :=
      ((sublist_append_right ..).append_left _).subset
    have hW := (h.sheltered p (fun c hc => hp' c (hmem c hc)) hfam).mono hmem fun _ h => h
    obtain ⟨c, hc, hcf⟩ := hfam
    refine h.passes hop hfree' hcare hp' (fun c hc => ?_) (fun _ _ => .inr trivial) (fun _ h => h)
      ⟨c, hc, hcf, mem_append_left _ hc⟩ hW hrollback hpass
    rw [← append_assoc]
    exact mem_append_left _ hc
  cases hperf with
  | idle hactive hnil =>
    rw [leftBehind_other (settles_eq_false hnil) (.inl hactive)] at hp ⊢
    exact h.sheltered p hp hfam
  | applyFailed hactive _ =>
    rw [leftBehind_applyFailed rfl hactive] at hp ⊢
    exact hkeep rfl hp fun c hc => by cases hc
  | @applied c =>
    obtain ⟨⟨hcov, hmist⟩, -⟩ := hcare
    obtain ⟨c', hc', hcf⟩ := hfam
    obtain rfl : c' = c := by simpa [Manager.appliedConfigs] using hc'
    refine .inr (.inl ⟨desiredFrom c' k, ?_, mem_append_left _ hc', hcf⟩)
    exact h.run.whole_closing hop (by rw [m.configs_eq]; exact hfree') hcov hmist
      (append_nil _).symm
  | refreshFailed hrefreshes ha _ =>
    rw [leftBehind_refreshes hrefreshes] at hp ⊢
    cases op with
    | refresh | refreshAfterRouteChange => exact hkeep rfl hp fun c hc => by cases hc
    | _ => cases hrefreshes
  | @refreshed _ a hrefreshes ha =>
    have happlied : m.appliedConfigs =
        ({ m with applied := some (desiredFrom a.config k) } : Manager).appliedConfigs := by
      simp [Manager.appliedConfigs, ha]
    rw [leftBehind_refreshes hrefreshes, ← happlied] at hp ⊢
    cases op with
    | refresh | refreshAfterRouteChange => exact hkeep happlied hp fun c hc => by cases hc
    | _ => cases hrefreshes
  | rollbackFailed hactive hnil _ =>
    rw [leftBehind_other (settles_eq_false fun _ _ => hnil) (.inl hactive)] at hp ⊢
    rcases rollback_undisturbed hop hex hcare.2 with ⟨-, rfl, -⟩ | hout
    · exact h.sheltered p hp hfam
    · exact absurd hout hnil
  | rolledBack =>
    obtain ⟨c, hc, -⟩ := hfam
    cases hc
  | begun ha hsplit =>
    rw [leftBehind_other rfl (.inr fun c hc => by cases hc)] at hp ⊢
    exact hkeep rfl hp fun c hc => by cases hc

theorem GuardInv.step : GuardInv start (⟨op, m, k, tr, out, k'⟩ :: before) out.1 k' :=
  ⟨h.run.step hop hex hfree hcare.clean, h.intact_step hop hex hfree hcare,
    fun _ => h.sheltered_step hop hex hfree hcare⟩

end Step

theorem Run.guardInv {m₀ m : Manager} (hfresh : m₀.applied = none) {start : Kernel}
    {steps : List Step} (hrun : Run m₀ start steps m k) (hfree : Free (usedConfigs steps) start)
    (hcare : Careful steps) :
    GuardInv start steps m k := by
  induction hrun with
  | start =>
    have hnone : m₀.appliedConfigs = [] := by simp [Manager.appliedConfigs, hfresh]
    refine ⟨Run.inv hfresh Run.start hfree trivial, fun _ => ⟨?_, ?_, fun b hb => by cases hb⟩, ?_⟩
    · intro r hr
      rw [Manager.appliedRules, hfresh] at hr
      cases hr
    · intro d hd
      rw [hfresh] at hd
      cases hd
    · rintro p - ⟨c, hc, -⟩
      rw [hnone] at hc
      cases hc
  | step _ hop hex ih =>
    have hbefore := ih (fun c hc => hfree c (mem_append_right _ hc)) hcare.2
    exact hbefore.step hop hex hfree hcare.1

end SysnetLinux.Routing
