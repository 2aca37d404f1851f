/-
  SysnetLinux.Routing.Ownership

  What an operation of the manager owns, in its own terms: a rule is owned when
  it lies in the priority block of one of the configs, for one of its families,
  and a route when it lies in one of their tables.  The scopes, targets and
  guards that the manager computes from the configs, without repetition, are
  these sets.
-/

import SysnetLinux.Routing.Manager

namespace SysnetLinux.Routing

open List

/-! ## The first item of each key -/

section FirstOfKey

variable {α κ : Type} [DecidableEq κ] {key : α → κ} {l : List α} {a : α}

theorem mem_of_mem_firstOfKey {seen : List κ} (h : a ∈ firstOfKey key seen l) : a ∈ l := by
  induction l generalizing seen with
  | nil => cases h
  | cons b l ih =>
    rw [firstOfKey] at h
    split at h
    · exact mem_cons_of_mem b (ih h)
    · rcases mem_cons.mp h with rfl | h
      · exact mem_cons_self
      · exact mem_cons_of_mem b (ih h)

/-- Every key that was not seen before is kept once. -/
theorem exists_mem_firstOfKey (key : α → κ) {seen : List κ} (ha : a ∈ l) (hseen : key a ∉ seen) :
    ∃ b ∈ firstOfKey key seen l, key b = key a := by
  induction l generalizing seen with
  | nil => cases ha
  | cons b l ih =>
    rw [firstOfKey]
    rcases mem_cons.mp ha with rfl | ha
    · rw [if_neg hseen]
      exact ⟨a, mem_cons_self, rfl⟩
    · split
      · exact ih ha hseen
      · by_cases hab : key a = key b
        · exact ⟨b, mem_cons_self, hab.symm⟩
        · have hseen' : key a ∉ key b :: seen := by simp [hab, hseen]
          obtain ⟨x, hx, hxa⟩ := ih ha hseen'
          exact ⟨x, mem_cons_of_mem b hx, hxa⟩

theorem mem_firstOfKey_id {α : Type} [DecidableEq α] {l : List α} {a : α} :
    a ∈ firstOfKey id [] l ↔ a ∈ l := by
  constructor
  · exact mem_of_mem_firstOfKey
  · intro ha
    obtain ⟨b, hb, hba⟩ := exists_mem_firstOfKey id ha not_mem_nil
    rw [← show b = a from hba]
    exact hb

end FirstOfKey

/-! ## Blocks and tables -/

/-- The rule lies in the config's priority block, for one of its families. -/
def inBlock (c : Config) (r : Rule) : Bool :=
  familyEnabled c.families r.family && decide (c.priorityBase ≤ r.priority) &&
    decide (r.priority < c.priorityBase + c.prioritySpan)

/-- The route lies in the config's VPN or safe table, for one of its families. -/
def inTables (c : Config) (a : Route) : Bool :=
  familyEnabled c.families a.family && (a.table == c.vpnTable || a.table == c.safeTable)

def ownsRule (configs : List Config) (r : Rule) : Bool := configs.any fun c => inBlock c r

def ownsRoute (configs : List Config) (a : Route) : Bool := configs.any fun c => inTables c a

variable {c : Config} {r : Rule} {a : Route} {configs : List Config}

theorem inBlock_iff : inBlock c r = true ↔ familyEnabled c.families r.family = true ∧
      c.priorityBase ≤ r.priority ∧ r.priority < c.priorityBase + c.prioritySpan := by
  simp [inBlock, and_assoc]

theorem inTables_iff : inTables c a = true ↔ familyEnabled c.families a.family = true ∧
      (a.table = c.vpnTable ∨ a.table = c.safeTable) := by
  simp [inTables]

theorem ownsRule_iff : ownsRule configs r = true ↔ ∃ c ∈ configs, inBlock c r = true := by
  simp [ownsRule]

theorem ownsRoute_iff : ownsRoute configs a = true ↔ ∃ c ∈ configs, inTables c a = true := by
  simp [ownsRoute]

theorem ownsRule_of_subset {configs' : List Config} (h : ∀ c ∈ configs, c ∈ configs')
    (hr : ownsRule configs' r = false) :
    ownsRule configs r = false := by
  rw [Bool.eq_false_iff] at hr ⊢
  intro hown
  obtain ⟨c, hc, hin⟩ := ownsRule_iff.mp hown
  exact hr (ownsRule_iff.mpr ⟨c, h c hc, hin⟩)

theorem ownsRoute_of_subset {configs' : List Config} (h : ∀ c ∈ configs, c ∈ configs')
    (ha : ownsRoute configs' a = false) :
    ownsRoute configs a = false := by
  rw [Bool.eq_false_iff] at ha ⊢
  intro hown
  obtain ⟨c, hc, hin⟩ := ownsRoute_iff.mp hown
  exact ha (ownsRoute_iff.mpr ⟨c, h c hc, hin⟩)

/-- A listing keeps what ownership depends on. -/
theorem inBlock_listed {x : Rule} (h : listedRule r = listedRule x) :
    inBlock c r = inBlock c x := by
  rw [inBlock, inBlock, family_of_listed h, priority_of_listed h]

theorem ownsRule_listed {x : Rule} (h : listedRule r = listedRule x) :
    ownsRule configs r = ownsRule configs x := by
  simp only [ownsRule, inBlock_listed h]

/-! ## Guards, targets and scopes -/

theorem mem_transitionGuards {g : Rule} : g ∈ transitionGuards configs ↔
      ∃ c ∈ configs, ∃ f ∈ familyConstants c.families, g = transitionGuard c f := by
  rw [transitionGuards, mem_firstOfKey_id]
  simp only [mem_flatMap, mem_map, eq_comm]

theorem keepRule_iff {keep : List Rule} :
    keepRule r keep = true ↔ ∃ g ∈ keep, r = g ∨ r = listedRule g := by
  simp [keepRule]

theorem mem_ownedTableTargets {t : OwnedTableTarget} : t ∈ ownedTableTargets configs ↔
      ∃ c ∈ configs, t.family ∈ familyConstants c.families ∧
        (t.table = c.vpnTable ∨ t.table = c.safeTable) := by
  rw [ownedTableTargets, mem_firstOfKey_id]
  simp only [mem_flatMap, mem_map]
  constructor
  · rintro ⟨c, hc, f, hf, table, htable, rfl⟩
    exact ⟨c, hc, hf, by simpa using htable⟩
  · rintro ⟨c, hc, hf, htable⟩
    exact ⟨c, hc, t.family, hf, t.table, by simpa using htable, rfl⟩

theorem ownsRoute_iff_target : ownsRoute configs a = true ↔
      ∃ t ∈ ownedTableTargets configs, a.family = t.family ∧ a.table = t.table := by
  rw [ownsRoute_iff]
  constructor
  · rintro ⟨c, hc, hin⟩
    obtain ⟨hf, htable⟩ := inTables_iff.mp hin
    refine ⟨⟨a.family, a.table⟩, ?_, rfl, rfl⟩
    exact mem_ownedTableTargets.mpr ⟨c, hc, mem_familyConstants.mpr hf, htable⟩
  · rintro ⟨t, ht, hf, htable⟩
    obtain ⟨c, hc, hft, htt⟩ := mem_ownedTableTargets.mp ht
    refine ⟨c, hc, inTables_iff.mpr ⟨?_, ?_⟩⟩
    · rw [hf]
      exact mem_familyConstants.mp hft
    · rw [htable]
      exact htt

theorem mem_ownedRuleScopes {s : OwnedRuleScope} (h : s ∈ ownedRuleScopes configs) :
    s.config ∈ configs ∧ s.family ∈ familyConstants s.config.families := by
  have hmem := mem_of_mem_firstOfKey h
  simp only [mem_flatMap, mem_map] at hmem
  obtain ⟨c, hc, f, hf, rfl⟩ := hmem
  exact ⟨hc, hf⟩

/-- The rule lies in the scope. -/
def OwnedRuleScope.holds (s : OwnedRuleScope) (r : Rule) : Bool :=
  r.family == s.family && decide (s.config.priorityBase ≤ r.priority) &&
    decide (r.priority < s.config.priorityBase + s.config.prioritySpan)

theorem OwnedRuleScope.holds_iff {s : OwnedRuleScope} :
    s.holds r = true ↔ r.family = s.family ∧ s.config.priorityBase ≤ r.priority ∧
      r.priority < s.config.priorityBase + s.config.prioritySpan := by
  simp [OwnedRuleScope.holds, and_assoc]

theorem ownsRule_iff_scope :
    ownsRule configs r = true ↔ ∃ s ∈ ownedRuleScopes configs, s.holds r = true := by
  rw [ownsRule_iff]
  constructor
  · rintro ⟨c, hc, hin⟩
    obtain ⟨hf, hlo, hhi⟩ := inBlock_iff.mp hin
    have hmem : (⟨c, r.family⟩ : OwnedRuleScope) ∈ configs.flatMap fun config =>
        (familyConstants config.families).map fun family => ⟨config, family⟩ := by
      simp only [mem_flatMap, mem_map]
      exact ⟨c, hc, r.family, mem_familyConstants.mpr hf, rfl⟩
    obtain ⟨s, hs, hkey⟩ := exists_mem_firstOfKey OwnedRuleScope.key hmem not_mem_nil
    simp only [OwnedRuleScope.key, Prod.mk.injEq] at hkey
    obtain ⟨hfam, hbase, hspan⟩ := hkey
    exact ⟨s, hs, OwnedRuleScope.holds_iff.mpr
      ⟨hfam.symm, by rw [hbase]; exact hlo, by rw [hbase, hspan]; exact hhi⟩⟩
  · rintro ⟨s, hs, hin⟩
    obtain ⟨hc, hf⟩ := mem_ownedRuleScopes hs
    obtain ⟨hfam, hlo, hhi⟩ := OwnedRuleScope.holds_iff.mp hin
    refine ⟨s.config, hc, inBlock_iff.mpr ⟨?_, hlo, hhi⟩⟩
    rw [hfam]
    exact mem_familyConstants.mp hf

/-! ## Compiled states -/

/-- A desired state that `CompileDesiredState` built from an accepted config. -/
structure DesiredState.Compiled (d : DesiredState) : Prop where
  valid : d.config.Valid
  compiled : ∃ snapshot, d = desiredState d.config snapshot

section Compiled

variable {d : DesiredState}

variable {r : Rule} {a : Route}

theorem DesiredState.Compiled.mem_rules (hd : d.Compiled) : r ∈ d.rules ↔
      familyEnabled d.config.families r.family = true ∧ r ∈ compileRules d.config r.family := by
  obtain ⟨snapshot, hsnap⟩ := hd.compiled
  have hrules : d.rules = (familyConstants d.config.families).flatMap (compileRules d.config) := by
    rw [hsnap]
    rfl
  rw [hrules, mem_flatMap]
  constructor
  · rintro ⟨f, hf, hr⟩
    have hfam := compileRules_family hd.valid hr
    rw [hfam]
    exact ⟨mem_familyConstants.mp hf, hr⟩
  · rintro ⟨hf, hr⟩
    exact ⟨r.family, mem_familyConstants.mpr hf, hr⟩

/-- Rules and VPN routes are compiled from the config alone. -/
theorem DesiredState.Compiled.rules_eq (hd : d.Compiled) (snapshot : Snapshot) :
    d.rules = (desiredState d.config snapshot).rules := by
  obtain ⟨s, hs⟩ := hd.compiled
  rw [hs]
  rfl

theorem DesiredState.Compiled.vpnRoutes_eq (hd : d.Compiled) (snapshot : Snapshot) :
    d.vpnRoutes = (desiredState d.config snapshot).vpnRoutes := by
  obtain ⟨s, hs⟩ := hd.compiled
  rw [hs]
  rfl

theorem DesiredState.Compiled.rules_unique (hd : d.Compiled) {r' : Rule} (hr : r ∈ d.rules)
    (hr' : r' ∈ d.rules) (hfam : r.family = r'.family) (hprio : r.priority = r'.priority) :
    r = r' := by
  have hmem := (hd.mem_rules.mp hr).2
  have hmem' := (hd.mem_rules.mp hr').2
  rw [← hfam] at hmem'
  exact compileRules_unique hd.valid hmem hmem' hprio

theorem DesiredState.Compiled.inBlock_of_mem (hd : d.Compiled) (hr : r ∈ d.rules) :
    inBlock d.config r = true := by
  obtain ⟨hf, hr⟩ := hd.mem_rules.mp hr
  obtain ⟨hlo, hhi, -⟩ := compileRules_priority hd.valid hr
  exact inBlock_iff.mpr ⟨hf, hlo, hhi⟩

theorem vpnRoutes_desiredState {config : Config} {snapshot : Snapshot}
    (ha : a ∈ (desiredState config snapshot).vpnRoutes) :
    familyEnabled config.families a.family = true ∧ a.table = config.vpnTable := by
  simp only [desiredState, mem_flatMap, mem_filter] at ha
  obtain ⟨f, ⟨hf, -⟩, ha⟩ := ha
  have hroute : a.family = f ∧ a.table = config.vpnTable := by
    rcases mem_cons.mp ha with rfl | ha
    · exact ⟨rfl, rfl⟩
    · obtain ⟨route, -, rfl⟩ := mem_map.mp ha
      exact ⟨rfl, rfl⟩
  rw [hroute.1]
  exact ⟨mem_familyConstants.mp hf, hroute.2⟩

theorem safeRoutes_desiredState {config : Config} {snapshot : Snapshot}
    (ha : a ∈ (desiredState config snapshot).safeRoutes) :
    familyEnabled config.families a.family = true ∧ a.table = config.safeTable := by
  have hmem := (perm_insertionSort _ _).mem_iff.mp ha
  obtain ⟨route, hroute, rfl⟩ := mem_map.mp hmem
  have hkept := (mem_filter.mp hroute).2
  rw [Bool.and_eq_true] at hkept
  exact ⟨hkept.1, rfl⟩

theorem DesiredState.Compiled.vpnRoutes_in (hd : d.Compiled) (ha : a ∈ d.vpnRoutes) :
    familyEnabled d.config.families a.family = true ∧ a.table = d.config.vpnTable := by
  obtain ⟨snapshot, hsnap⟩ := hd.compiled
  rw [hsnap] at ha
  exact vpnRoutes_desiredState ha

theorem DesiredState.Compiled.safeRoutes_in (hd : d.Compiled) (ha : a ∈ d.safeRoutes) :
    familyEnabled d.config.families a.family = true ∧ a.table = d.config.safeTable := by
  obtain ⟨snapshot, hsnap⟩ := hd.compiled
  rw [hsnap] at ha
  exact safeRoutes_desiredState ha

theorem DesiredState.Compiled.inTables_vpn (hd : d.Compiled) (ha : a ∈ d.vpnRoutes) :
    inTables d.config a = true :=
  inTables_iff.mpr ⟨(hd.vpnRoutes_in ha).1, .inl (hd.vpnRoutes_in ha).2⟩

theorem DesiredState.Compiled.inTables_safe (hd : d.Compiled) (ha : a ∈ d.safeRoutes) :
    inTables d.config a = true :=
  inTables_iff.mpr ⟨(hd.safeRoutes_in ha).1, .inr (hd.safeRoutes_in ha).2⟩

theorem inBlock_transitionGuard {c : Config} (hc : c.Valid) {f : Int}
    (hf : f ∈ familyConstants c.families) : inBlock c (transitionGuard c f) = true := by
  have hspan := hc.span_ge
  have hprio : (transitionGuard c f).priority = c.priorityBase + 2 := transitionGuard_priority hc
  refine inBlock_iff.mpr ⟨mem_familyConstants.mp hf, ?_, ?_⟩ <;> rw [hprio] <;> omega

end Compiled

theorem transitionGuard_action {g : Rule} (hg : g ∈ transitionGuards configs) :
    g.action = .unreachable := by
  obtain ⟨c, -, f, -, rfl⟩ := mem_transitionGuards.mp hg
  rfl

theorem exists_family (hc : c.Valid) : ∃ f, f ∈ familyConstants c.families := by
  rcases hc.checked.some_family with h4 | h6
  · exact ⟨afInet, mem_familyConstants.mpr (by simp [familyEnabled, h4])⟩
  · exact ⟨afInet6, mem_familyConstants.mpr (by simp [familyEnabled, h6])⟩

end SysnetLinux.Routing
