/-
  SysnetLinux.Routing.Runs

  Runs of one manager: any sequence of its operations, each with any adapter
  failures.

  `Passes` says once what kernel states an operation can visit, and `Performed`
  how it can end.  The ownership invariant `Tracked` follows from the two: a rule
  or route that was not in the kernel at the start belongs to the applied config,
  or to a config whose `Apply` failed and that no later call has cleaned up.
-/

import SysnetLinux.Routing.Converge

namespace SysnetLinux.Routing

open CallProg CallProg.Prog List

/-! ## What a config can put into the kernel -/

/-- The rules that an `Apply` of the config can install. -/
def Config.ownRules (c : Config) : List Rule :=
  configGuards c ++ (familyConstants c.families).flatMap (compileRules c)

variable {c : Config} {r : Rule} {m : Manager} {start : Kernel}

theorem mem_ownRules (hc : c.Valid) : r ∈ c.ownRules ↔ r ∈ configGuards c ∨
      (familyEnabled c.families r.family = true ∧ r ∈ compileRules c r.family) := by
  rw [Config.ownRules, mem_append, mem_flatMap]
  refine or_congr Iff.rfl ⟨?_, ?_⟩
  · rintro ⟨f, hf, hr⟩
    have hfam := compileRules_family hc hr
    rw [hfam]
    exact ⟨mem_familyConstants.mp hf, hr⟩
  · rintro ⟨hf, hr⟩
    exact ⟨r.family, mem_familyConstants.mpr hf, hr⟩

theorem inBlock_ownRules (hc : c.Valid) (hr : r ∈ c.ownRules) : inBlock c r = true := by
  rcases (mem_ownRules hc).mp hr with hg | ⟨hf, hr⟩
  · obtain ⟨f, hf, rfl⟩ := mem_configGuards.mp hg
    exact inBlock_transitionGuard hc hf
  · obtain ⟨hlo, hhi, -⟩ := compileRules_priority hc hr
    exact inBlock_iff.mpr ⟨hf, hlo, hhi⟩

theorem DesiredState.Compiled.mem_ownRules {d : DesiredState} (hd : d.Compiled) (hr : r ∈ d.rules) :
    r ∈ d.config.ownRules :=
  (Routing.mem_ownRules hd.valid).mpr (.inr (hd.mem_rules.mp hr))

/-- The config of the applied state, if there is one. -/
def Manager.appliedConfigs (m : Manager) : List Config :=
  m.applied.toList.map DesiredState.config

theorem Manager.configs_eq (m : Manager) (c : Config) : m.configs c = c :: m.appliedConfigs := by
  unfold Manager.configs Manager.appliedConfigs
  cases m.applied <;> rfl

theorem Manager.mem_appliedConfigs :
    c ∈ m.appliedConfigs ↔ ∃ a, m.applied = some a ∧ a.config = c := by
  simp [Manager.appliedConfigs]

theorem Manager.Good.appliedConfigs_valid (hm : m.Good) (hc : c ∈ m.appliedConfigs) : c.Valid := by
  obtain ⟨a, ha, rfl⟩ := Manager.mem_appliedConfigs.mp hc
  exact (hm a ha).valid

theorem mem_transitionGuards_configs {configs : List Config} {g : Rule} :
    g ∈ transitionGuards configs ↔ ∃ c ∈ configs, g ∈ configGuards c := by
  rw [mem_transitionGuards]
  simp only [mem_configGuards]

/-! ## What an operation does -/

/-- The configs an operation is called with are accepted. -/
def Operation.Valid : Operation → Prop
  | .apply c => c.Valid
  | .rollback c => c.Valid
  | _ => True

/-- The operations that rebuild the safe table. -/
def Operation.refreshes : Operation → Bool
  | .refresh => true
  | .refreshAfterRouteChange => true
  | _ => false

/-- The kernel states that an operation of `m` in `k` can visit. -/
inductive Passes (m : Manager) (k : Kernel) : Operation → Kernel → Prop
  | same {op : Operation} : Passes m k op k
  | apply {c : Config} {x : Kernel} :
      Stage (m.plan (desiredFrom c k)) k (m.settled (desiredFrom c k) k) x →
      Passes m k (.apply c) x
  | refresh {op : Operation} {a : DesiredState} {x : Kernel} : op.refreshes = true →
      m.applied = some a → Stage (refreshPlan a.config) k (refreshSettled a.config k) x →
      Passes m k op x
  | rollback {c : Config} {x : Kernel} :
      Pruned (ownsRule (m.configs c)) (ownsRoute (m.configs c)) k x →
      Passes m k (.rollback c) x
  | begin {a : DesiredState} {done rest : List Rule} : m.applied = some a →
      configGuards a.config = done ++ rest → Passes m k .beginRouteChange (k.addRules done)

/-- How an operation of `m` in `k` can end.  All that is left out of the outcome
    of a failed operation is the text of its error. -/
inductive Performed (m : Manager) (k : Kernel) : Operation → Outcome → Kernel → Prop
  | idle {op : Operation} {err : Option RoutingError} : guardActive err = false →
      (∀ c, op = .apply c ∨ op = .rollback c → err ≠ none) → Performed m k op (m, err) k
  | applyFailed {c : Config} {err : Option RoutingError} {k' : Kernel} : guardActive err = true →
      Stage (m.plan (desiredFrom c k)) k (m.settled (desiredFrom c k) k) k' →
      Performed m k (.apply c) (m, err) k'
  | applied {c : Config} :
      Performed m k (.apply c) ({ m with applied := some (desiredFrom c k) }, none)
        (m.reconciled (desiredFrom c k) k)
  | refreshFailed {op : Operation} {a : DesiredState} {err : Option RoutingError} {k' : Kernel} :
      op.refreshes = true → m.applied = some a →
      Stage (refreshPlan a.config) k (refreshSettled a.config k) k' →
      Performed m k op (m, err) k'
  | refreshed {op : Operation} {a : DesiredState} : op.refreshes = true → m.applied = some a →
      Performed m k op ({ m with applied := some (desiredFrom a.config k) }, none)
        (refreshed a.config k)
  | rollbackFailed {c : Config} {err : Option RoutingError} {k' : Kernel} :
      guardActive err = false → err ≠ none →
      Pruned (ownsRule (m.configs c)) (ownsRoute (m.configs c)) k k' →
      Performed m k (.rollback c) (m, err) k'
  | rolledBack {c : Config} :
      Performed m k (.rollback c) ({ m with applied := none }, none)
        (k.without (ownsRule (m.configs c)) (ownsRoute (m.configs c)))
  | begun {a : DesiredState} {err : Option RoutingError} {done rest : List Rule} :
      m.applied = some a → configGuards a.config = done ++ rest →
      Performed m k .beginRouteChange (m, err) (k.addRules done)

/-- The state an operation ends in is one that it can visit. -/
theorem Performed.passes {k k' : Kernel} {op : Operation} {out : Outcome}
    (h : Performed m k op out k') : Passes m k op k' := by
  cases h with
  | idle => exact Passes.same
  | applyFailed _ hx => exact Passes.apply hx
  | applied => exact Passes.apply (Stage.closing _ [] (by simp))
  | refreshFailed hop ha hx => exact Passes.refresh hop ha hx
  | refreshed hop ha => exact Passes.refresh hop ha (Stage.closing _ [] (by simp [refreshPlan]))
  | rollbackFailed _ _ hx => exact Passes.rollback hx
  | rolledBack => exact Passes.rollback (pruned_without _ _ _)
  | begun ha hsplit => exact Passes.begin ha hsplit

/-- An operation visits states that `Passes` allows and ends as `Performed` says. -/
def Specified (m : Manager) (k : Kernel) (op : Operation) (p : AdapterProg Outcome) : Prop :=
  wp adapter (fun _ x => Passes m k op x) (fun out x => Performed m k op out x) p k

section Specified

variable {m : Manager} {k : Kernel} {op : Operation}

theorem specified_idle {err : Option RoutingError} (hactive : guardActive err = false)
    (herr : ∀ c, op = .apply c ∨ op = .rollback c → err ≠ none) :
    Specified m k op (.ret (m, err)) := Performed.idle hactive herr

theorem specified_apply (hm : m.Good) {c : Config} (hc : c.Valid) :
    Specified m k (.apply c) (m.apply c) := by
  by_cases hopen : m.closed = true
  · obtain ⟨e, he, hactive⟩ := Manager.apply_refused c (.inl hopen)
    rw [he]
    exact specified_idle hactive fun _ _ => by simp
  · rw [Bool.not_eq_true] at hopen
    refine wp_mono (fun _ x hx => Passes.apply hx) ?_ (Manager.wp_apply hm hopen hc k)
    intro out x hx
    cases hx with
    | refused hactive => exact Performed.idle hactive fun _ _ => by simp
    | failed hactive hx => exact Performed.applyFailed hactive hx
    | done => exact Performed.applied

theorem specified_refreshLocked (hm : m.Good) {a : DesiredState} (ha : m.applied = some a)
    (hop : op.refreshes = true) : Specified m k op (m.refreshLocked a) := by
  refine wp_mono (fun _ x hx => Passes.refresh hop ha hx) ?_
    (Manager.wp_refreshLocked m (hm a ha).valid k)
  intro out x hx
  cases hx with
  | refused => exact Performed.refreshFailed hop ha (stage_start _ _ _)
  | failed _ hx => exact Performed.refreshFailed hop ha hx
  | done => exact Performed.refreshed hop ha

theorem specified_perform (hm : m.Good) (hop : op.Valid) : Specified m k op (m.perform op) := by
  cases op with
  | apply c => exact specified_apply hm hop
  | refresh =>
    rw [Manager.perform]
    by_cases hrefuse : m.closed = true ∨ m.applied = none
    · obtain ⟨e, he, hactive⟩ := Manager.refresh_refused hrefuse
      rw [he]
      exact specified_idle hactive fun c hc => by simp at hc
    · rw [not_or, Bool.not_eq_true] at hrefuse
      obtain ⟨a, ha⟩ := Option.ne_none_iff_exists'.mp hrefuse.2
      rw [Manager.refresh_eq hrefuse.1 ha]
      exact specified_refreshLocked hm ha rfl
  | rollback c =>
    rw [Manager.perform]
    by_cases hopen : m.closed = true
    · obtain ⟨e, he, hactive⟩ := Manager.rollback_refused c (.inl hopen)
      rw [he]
      exact specified_idle hactive fun _ _ => by simp
    · rw [Bool.not_eq_true] at hopen
      refine wp_mono (fun _ x hx => Passes.rollback hx.2) ?_ (Manager.wp_rollback hm hopen hop k)
      intro out x hx
      cases hx with
      | incomplete hactive hx => exact Performed.rollbackFailed hactive (by simp) hx
      | done => exact Performed.rolledBack
  | beginRouteChange =>
    refine wp_mono ?_ ?_ (Manager.wp_beginRouteChange m k)
    · rintro _ x ⟨a, ha, done, rest, hsplit, rfl⟩
      exact Passes.begin (Manager.monitored_eq_some ha) hsplit
    · rintro ⟨m', err⟩ x ⟨hm', hend⟩
      obtain rfl : m' = m := hm'
      rcases hend with ⟨-, herr, rfl⟩ | ⟨a, ha, done, rest, hsplit, rfl, -⟩
      · obtain rfl : err = none := herr
        exact Performed.idle rfl fun c hc => by simp at hc
      · exact Performed.begun (Manager.monitored_eq_some ha) hsplit
  | refreshAfterRouteChange =>
    rw [Manager.perform, Manager.refreshAfterRouteChange]
    cases hmon : m.monitored with
    | none => exact specified_idle rfl fun c hc => by simp at hc
    | some a => exact specified_refreshLocked hm (Manager.monitored_eq_some hmon) rfl

variable {tr : List (Event AdapterCall Kernel)} {out : Outcome} {k' : Kernel}

theorem passes_of_visited (hm : m.Good) (hop : op.Valid)
    (hex : Exec adapter (m.perform op) k tr out k') :
    ∀ x ∈ visited tr k', Passes m k op x := by
  have hspec : Specified m k op (m.perform op) := specified_perform hm hop
  exact visited_of_wp hex hspec Performed.passes

theorem performed_of_exec (hm : m.Good) (hop : op.Valid)
    (hex : Exec adapter (m.perform op) k tr out k') :
    Performed m k op out k' := (wp_sound hex (specified_perform hm hop)).2

/-- An operation that returns an error leaves the manager as it was. -/
theorem Performed.unchanged (h : Performed m k op out k') (herr : out.2 ≠ none) : out.1 = m := by
  cases h with
  | applied | refreshed | rolledBack => exact absurd rfl herr
  | _ => rfl

/-- What an operation leaves applied is compiled from an accepted config. -/
theorem Performed.good (hm : m.Good) (hop : op.Valid) (h : Performed m k op out k') :
    out.1.Good := by
  cases h with
  | applied =>
    rintro a ⟨⟩
    exact compiled_desiredFrom hop k
  | @refreshed _ a _ ha =>
    rintro d ⟨⟩
    exact compiled_desiredFrom (hm a ha).valid k
  | rolledBack => rintro a ⟨⟩
  | _ => exact hm

end Specified

/-! ## Runs -/

/-- One operation of a run: what it was called on, what it did and returned. -/
structure Step where
  op : Operation
  manager : Manager
  kernel : Kernel
  trace : List (Event AdapterCall Kernel)
  outcome : Outcome
  final : Kernel

/-- A run from `m₀` and `k₀`; the last step stands first. -/
inductive Run (m₀ : Manager) (k₀ : Kernel) : List Step → Manager → Kernel → Prop
  | start : Run m₀ k₀ [] m₀ k₀
  | step {before : List Step} {m : Manager} {k : Kernel} {op : Operation}
      {tr : List (Event AdapterCall Kernel)} {out : Outcome} {k' : Kernel} :
      Run m₀ k₀ before m k → op.Valid → Exec adapter (m.perform op) k tr out k' →
      Run m₀ k₀ (⟨op, m, k, tr, out, k'⟩ :: before) out.1 k'

/-- An `Apply` or `Rollback` that returned nil. -/
def Step.settles (s : Step) : Bool :=
  match s.op with
  | .apply _ => s.outcome.2.isNone
  | .rollback _ => s.outcome.2.isNone
  | _ => false

def Operation.configs : Operation → List Config
  | .apply c => [c]
  | .rollback c => [c]
  | _ => []

/-- The configs that the steps were called with. -/
def usedConfigs (steps : List Step) : List Config := steps.flatMap fun s => s.op.configs

/-- The configs whose `Apply` failed behind its guards since the last `Apply` or
    `Rollback` that returned nil. -/
def leftBehind : List Step → List Config
  | [] => []
  | s :: before =>
    if s.settles then []
    else match s.op with
      | .apply c => if guardActive s.outcome.2 then c :: leftBehind before else leftBehind before
      | _ => leftBehind before

/-- Nothing in the kernel lies in a block or a table of the configs. -/
def Free (configs : List Config) (k : Kernel) : Prop :=
  ∀ c ∈ configs, (∀ r ∈ k.rules, inBlock c r = false) ∧ ∀ a ∈ k.routes, inTables c a = false

instance (configs : List Config) (k : Kernel) : Decidable (Free configs k) :=
  inferInstanceAs (Decidable (∀ c ∈ configs,
    (∀ r ∈ k.rules, inBlock c r = false) ∧ ∀ a ∈ k.routes, inTables c a = false))

/-- What was not in the kernel at the start belongs to one of the owners. -/
structure Tracked (start : Kernel) (owners : List Config) (k : Kernel) : Prop where
  rules : ∀ r ∈ k.rules, r ∈ start.rules ∨ ∃ c ∈ owners, r ∈ c.ownRules
  routes : ∀ a ∈ k.routes, a ∈ start.routes ∨ ∃ c ∈ owners, inTables c a = true

/-- What failed calls have left in the kernel lies in what the configs own. -/
structure Covers (configs left : List Config) (k : Kernel) : Prop where
  rules : ∀ b ∈ left, ∀ r ∈ b.ownRules, r ∈ k.rules → ownsRule configs r = true
  routes : ∀ b ∈ left, ∀ a ∈ k.routes, inTables b a = true → ownsRoute configs a = true

/-- No rule that a failed call has left in the kernel passes for a guard. -/
def NotMistaken (m : Manager) (c : Config) (left : List Config) (k : Kernel) : Prop :=
  ∀ b ∈ left, ∀ r ∈ b.ownRules, r ∈ k.rules →
    LooksLikeGuard (transitionGuards (m.configs c)) r →
    r ∈ transitionGuards (m.configs c) ∨ r ∈ (desiredFrom c k).rules ∨ r ∈ m.appliedRules

/-- The call covers what failed calls before it have left. -/
def Step.Clean (s : Step) (left : List Config) : Prop :=
  match s.op with
  | .apply c =>
    Covers (s.manager.configs c) left s.kernel ∧ NotMistaken s.manager c left s.kernel
  | .rollback c => Covers (s.manager.configs c) left s.kernel
  | _ => True

/-- Each `Apply` and `Rollback` that returned nil covered what was left behind. -/
def Tidy : List Step → Prop
  | [] => True
  | s :: before => (s.settles = true → s.Clean (leftBehind before)) ∧ Tidy before

/-! ## The ownership invariant -/

section Tracked

variable {start : Kernel} {owners owners' : List Config} {k k' : Kernel}

section

variable (h : Tracked start owners k)
include h

theorem Tracked.mono (hsub : ∀ c ∈ owners, c ∈ owners') : Tracked start owners' k where
  rules := by
    intro r hr
    rcases h.rules r hr with hold | ⟨c, hc, hmem⟩
    · exact .inl hold
    · exact .inr ⟨c, hsub c hc, hmem⟩
  routes := by
    intro a ha
    rcases h.routes a ha with hold | ⟨c, hc, hmem⟩
    · exact .inl hold
    · exact .inr ⟨c, hsub c hc, hmem⟩

theorem Tracked.pruned {pr : Rule → Bool} {pa : Route → Bool} (hpruned : Pruned pr pa k k') :
    Tracked start owners k' :=
  ⟨fun r hr => h.rules r (hpruned.rules_sublist.subset hr),
    fun a ha => h.routes a (hpruned.routes_sublist.subset ha)⟩

theorem Tracked.addRules {gs : List Rule} (hgs : ∀ g ∈ gs, ∃ c ∈ owners, g ∈ c.ownRules) :
    Tracked start owners (k.addRules gs) where
  rules := by
    intro r hr
    rcases Kernel.mem_addRules.mp hr with hg | hk
    · exact .inr (hgs r hg)
    · exact h.rules r hk
  routes := by
    rw [Kernel.addRules_routes]
    exact h.routes

/-- A stage of a change whose plan belongs to the owners. -/
theorem Tracked.stage {P : Plan} (hP : P.Sound) {settled : Kernel} (hsettled : Guarded P k settled)
    (hx : Stage P k settled k') (hguards : ∀ g ∈ P.guards, ∃ c ∈ owners, g ∈ c.ownRules)
    (hnew : ∀ r ∈ P.newRules, ∃ c ∈ owners, r ∈ c.ownRules)
    (hroutes : ∀ a, P.routes a = true → ∃ c ∈ owners, inTables c a = true) :
    Tracked start owners k' where
  rules := by
    intro r hr
    rcases hx.rules_from hsettled hr with hk | hg | hnewr
    · exact h.rules r hk
    · exact .inr (hguards r hg)
    · exact .inr (hnew r hnewr)
  routes := by
    intro a ha
    rcases hx.routes_from hP hsettled ha with hk | hown
    · exact h.routes a hk
    · exact .inr (hroutes a hown)

end

end Tracked

section Owners

variable {m : Manager} (hm : m.Good) {c : Config} (hc : c.Valid) {start k x : Kernel}
  {left : List Config}
include hm

variable {b : Config} {r : Rule}

/-- The applied rules are the compiled ones of the applied config. -/
theorem Manager.mem_appliedRules (hb : b ∈ m.appliedConfigs) (hr : r ∈ b.ownRules) :
    r ∈ configGuards b ∨ r ∈ m.appliedRules := by
  obtain ⟨a, ha, rfl⟩ := Manager.mem_appliedConfigs.mp hb
  rcases (mem_ownRules (hm a ha).valid).mp hr with hg | hcompiled
  · exact .inl hg
  · refine .inr ?_
    rw [Manager.appliedRules, ha]
    exact (hm a ha).mem_rules.mpr hcompiled

theorem owned_of_applied (hb : b ∈ m.appliedConfigs) (hr : r ∈ b.ownRules) :
    ownsRule (m.configs c) r = true := by
  refine ownsRule_iff.mpr ⟨b, ?_, inBlock_ownRules (hm.appliedConfigs_valid hb) hr⟩
  rw [m.configs_eq]
  exact mem_cons_of_mem c hb

omit hm in
theorem ownsRoute_of_applied (hb : b ∈ m.appliedConfigs) {a : Route} (ha : inTables b a = true) :
    ownsRoute (m.configs c) a = true := by
  refine ownsRoute_iff.mpr ⟨b, ?_, ha⟩
  rw [m.configs_eq]
  exact mem_cons_of_mem c hb

/-- A covered rule that no call owns was there at the start. -/
theorem Tracked.start_of_unowned (h : Tracked start (m.appliedConfigs ++ left) k)
    (hcov : Covers (m.configs c) left k) (hr : r ∈ k.rules)
    (hown : ownsRule (m.configs c) r = false) : r ∈ start.rules := by
  rcases h.rules r hr with hstart | ⟨b, hb, hmem⟩
  · exact hstart
  · have hown' : ownsRule (m.configs c) r = true := by
      rcases mem_append.mp hb with hb | hb
      · exact owned_of_applied hm hb hmem
      · exact hcov.rules b hb r hmem hr
    rw [hown] at hown'
    cases hown'

omit hm in
theorem Tracked.start_of_unowned_route (h : Tracked start (m.appliedConfigs ++ left) k)
    (hcov : Covers (m.configs c) left k) {a : Route} (ha : a ∈ k.routes)
    (hown : ownsRoute (m.configs c) a = false) : a ∈ start.routes := by
  rcases h.routes a ha with hstart | ⟨b, hb, hmem⟩
  · exact hstart
  · have hown' : ownsRoute (m.configs c) a = true := by
      rcases mem_append.mp hb with hb | hb
      · exact ownsRoute_of_applied hb hmem
      · exact hcov.routes b hb a ha hmem
    rw [hown] at hown'
    cases hown'

include hc

/-- A tracked kernel has no lookalike but what failed calls have left. -/
theorem Tracked.noLookalike (h : Tracked start (m.appliedConfigs ++ left) k)
    (hfree : Free (m.configs c) start) (hmist : NotMistaken m c left k) :
    NoLookalike m c k := by
  intro r hr hlooks
  rcases h.rules r hr with hstart | ⟨b, hb, hmem⟩
  · -- a guard's priority lies in a block
    obtain ⟨g, hg, hlisted⟩ := hlooks
    obtain ⟨c', hc', f, hf, rfl⟩ := mem_transitionGuards.mp hg
    have hin := inBlock_transitionGuard (Manager.configs_valid hm hc hc') hf
    rw [← inBlock_listed hlisted, (hfree c' hc').1 r hstart] at hin
    cases hin
  · rcases mem_append.mp hb with hb | hb
    · rcases Manager.mem_appliedRules hm hb hmem with hg | hrules
      · refine .inl (mem_transitionGuards_configs.mpr ⟨b, ?_, hg⟩)
        rw [m.configs_eq]
        exact mem_cons_of_mem c hb
      · exact .inr (.inr hrules)
    · exact hmist b hb r hmem hr hlooks

/-- After an `Apply` that covered everything, only its own state is new. -/
theorem Tracked.reconciled (h : Tracked start (m.appliedConfigs ++ left) k)
    (hfree : Free (m.configs c) start) (hcov : Covers (m.configs c) left k)
    (hmist : NotMistaken m c left k) :
    (∀ r ∈ (m.reconciled (desiredFrom c k) k).rules,
      r ∈ start.rules ∨ r ∈ (desiredFrom c k).rules) ∧
    ∀ a ∈ (m.reconciled (desiredFrom c k) k).routes,
      a ∈ start.routes ∨ a ∈ (desiredFrom c k).vpnRoutes ∨ a ∈ (desiredFrom c k).safeRoutes := by
  have hlike := h.noLookalike hm hc hfree hmist
  constructor
  · intro r hr
    cases hown : ownsRule (m.configs c) r with
    | true => exact .inr (desired_of_noLookalike hm hc hlike hr hown)
    | false =>
      rcases (mem_reconciled hm (compiled_desiredFrom hc k)).mp hr with hnew | ⟨hk, -⟩
      · exact .inr hnew
      · exact .inl (h.start_of_unowned hm hcov hk hown)
  · intro a ha
    rcases mem_reconciled_routes.mp ha with hv | hs | ⟨hk, hown⟩
    · exact .inr (.inl hv)
    · exact .inr (.inr hs)
    · exact .inl (h.start_of_unowned_route hcov hk hown)

omit hc in
theorem Tracked.rolledBack (h : Tracked start (m.appliedConfigs ++ left) k)
    (hcov : Covers (m.configs c) left k) :
    (∀ r ∈ (k.without (ownsRule (m.configs c)) (ownsRoute (m.configs c))).rules, r ∈ start.rules) ∧
    ∀ a ∈ (k.without (ownsRule (m.configs c)) (ownsRoute (m.configs c))).routes,
      a ∈ start.routes := by
  constructor
  · intro r hr
    obtain ⟨hk, hown⟩ := mem_filter.mp hr
    exact h.start_of_unowned hm hcov hk (by simpa using hown)
  · intro a ha
    obtain ⟨hk, hown⟩ := mem_filter.mp ha
    exact h.start_of_unowned_route hcov hk (by simpa using hown)

end Owners

/-! ## The invariant of runs -/

theorem notOwned_of_free {configs : List Config} (hfree : Free configs start) (hr : r ∈ start.rules) :
    ownsRule configs r = false := by
  rw [Bool.eq_false_iff]
  intro hown
  obtain ⟨c, hc, hin⟩ := ownsRule_iff.mp hown
  rw [(hfree c hc).1 r hr] at hin
  cases hin

theorem notOwned_route_of_free {configs : List Config} (hfree : Free configs start) {a : Route}
    (ha : a ∈ start.routes) :
    ownsRoute configs a = false := by
  rw [Bool.eq_false_iff]
  intro hown
  obtain ⟨c, hc, hin⟩ := ownsRoute_iff.mp hown
  rw [(hfree c hc).2 a ha] at hin
  cases hin

section Keeps

variable {m : Manager} (hm : m.Good) {op : Operation} (hop : op.Valid) {k x : Kernel}
include hm hop

/-- An operation stays in the frame of its config and of the applied one. -/
theorem Passes.sameOutside (hx : Passes m k op x) :
    SameOutside (op.configs ++ m.appliedConfigs) k x := by
  cases hx with
  | same => exact SameOutside.refl _ _
  | @apply c x hx =>
    have hd := compiled_desiredFrom hop k
    obtain ⟨hrules, hroutes⟩ :=
      hx.outside (Manager.plan_sound hm hd) (Manager.guarded_settled hm hd k)
    exact SameOutside.of_filter hrules hroutes
      (fun r hr => by simpa [Manager.plan, m.configs_eq, Operation.configs] using hr)
      (fun a ha => by simpa [Manager.plan, m.configs_eq, Operation.configs] using ha)
  | refresh hrefreshes ha hx =>
    have hvalid := (hm _ ha).valid
    have hmem : _ ∈ op.configs ++ m.appliedConfigs :=
      mem_append_right _ (Manager.mem_appliedConfigs.mpr ⟨_, ha, rfl⟩)
    obtain ⟨hrules, hroutes⟩ :=
      hx.outside (refreshPlan_sound _) (guarded_refreshSettled hvalid k)
    exact SameOutside.of_filter hrules hroutes (refreshPlan_rules_owned hvalid hmem)
      (refreshPlan_routes_owned hmem)
  | rollback hx =>
    exact SameOutside.of_filter hx.rules_kept hx.routes_kept
      (fun r hr => by simpa [m.configs_eq, Operation.configs] using hr)
      (fun a ha => by simpa [m.configs_eq, Operation.configs] using ha)
  | begin ha hsplit =>
    refine ⟨Kernel.filter_addRules fun g hg => ?_, by rw [Kernel.addRules_routes]⟩
    have hguard := hsplit ▸ mem_append_left _ hg
    obtain ⟨f, hf, rfl⟩ := mem_configGuards.mp hguard
    have hown : ownsRule (Operation.beginRouteChange.configs ++ m.appliedConfigs)
        (transitionGuard _ f) = true :=
      ownsRule_iff.mpr ⟨_, mem_append_right _ (Manager.mem_appliedConfigs.mpr ⟨_, ha, rfl⟩),
        inBlock_transitionGuard (hm _ ha).valid hf⟩
    rw [hown]
    rfl

theorem Passes.keeps {start : Kernel} (hx : Passes m k op x)
    (hfree : Free (op.configs ++ m.appliedConfigs) start)
    (hrules : ∀ r ∈ start.rules, r ∈ k.rules) (hroutes : ∀ a ∈ start.routes, a ∈ k.routes) :
    (∀ r ∈ start.rules, r ∈ x.rules) ∧ ∀ a ∈ start.routes, a ∈ x.routes := by
  have hsame := hx.sameOutside hm hop
  constructor
  · intro r hr
    have hmem : r ∈ k.rules.filter fun r => !ownsRule (op.configs ++ m.appliedConfigs) r :=
      mem_filter.mpr ⟨hrules r hr, by simp [notOwned_of_free hfree hr]⟩
    rw [← hsame.rules] at hmem
    exact (mem_filter.mp hmem).1
  · intro a ha
    have hmem : a ∈ k.routes.filter fun a => !ownsRoute (op.configs ++ m.appliedConfigs) a :=
      mem_filter.mpr ⟨hroutes a ha, by simp [notOwned_route_of_free hfree ha]⟩
    rw [← hsame.routes] at hmem
    exact (mem_filter.mp hmem).1

end Keeps

/-- What holds between the operations of a tidy run. -/
structure RunInv (start : Kernel) (steps : List Step) (m : Manager) (k : Kernel) : Prop where
  good : m.Good
  valid : ∀ c ∈ leftBehind steps, c.Valid
  used : ∀ c ∈ m.appliedConfigs ++ leftBehind steps, c ∈ usedConfigs steps
  tracked : Tracked start (m.appliedConfigs ++ leftBehind steps) k
  kept : (∀ r ∈ start.rules, r ∈ k.rules) ∧ ∀ a ∈ start.routes, a ∈ k.routes

section LeftBehind

variable {s : Step} {before : List Step}

theorem leftBehind_applyFailed {c : Config} (hop : s.op = .apply c)
    (hactive : guardActive s.outcome.2 = true) :
    leftBehind (s :: before) = c :: leftBehind before := by
  have hnil : s.settles = false := by
    rw [Step.settles, hop]
    cases herr : s.outcome.2 with
    | none => simp [herr, guardActive] at hactive
    | some e => rfl
  rw [leftBehind, hnil, hop]
  simp [hactive]

theorem leftBehind_other (hsettles : s.settles = false)
    (hother : guardActive s.outcome.2 = false ∨ ∀ c, s.op ≠ .apply c) :
    leftBehind (s :: before) = leftBehind before := by
  rw [leftBehind, hsettles]
  cases hop : s.op with
  | apply c =>
    have hactive : guardActive s.outcome.2 = false :=
      hother.resolve_right fun h => h c hop
    simp [hactive]
  | _ => rfl

theorem leftBehind_refreshes (hop : s.op.refreshes = true) :
    leftBehind (s :: before) = leftBehind before := by
  rw [leftBehind, Step.settles]
  cases hs : s.op with
  | apply c | rollback c =>
    rw [hs] at hop
    cases hop
  | _ => rfl

end LeftBehind

theorem usedConfigs_cons (s : Step) (before : List Step) :
    usedConfigs (s :: before) = s.op.configs ++ usedConfigs before := rfl

theorem settles_eq_false {s : Step}
    (h : ∀ c, s.op = .apply c ∨ s.op = .rollback c → s.outcome.2 ≠ none) :
    s.settles = false := by
  rw [Step.settles]
  cases hop : s.op with
  | apply c => exact Option.isNone_eq_false_iff.mpr (Option.isSome_iff_ne_none.mpr (h c (.inl hop)))
  | rollback c =>
    exact Option.isNone_eq_false_iff.mpr (Option.isSome_iff_ne_none.mpr (h c (.inr hop)))
  | _ => rfl

theorem Manager.mem_owners {b : Config} (hb : b ∈ m.configs c) (left : List Config) :
    b ∈ m.appliedConfigs ++ c :: left := by
  rw [m.configs_eq] at hb
  rcases mem_cons.mp hb with rfl | hb
  · exact mem_append_right _ mem_cons_self
  · exact mem_append_left _ hb

section Step

variable {start : Kernel} {before : List Step} {m : Manager} {k : Kernel}
  (h : RunInv start before m k)
include h

variable {k' : Kernel}

/-- A step that changes neither the applied config nor what is left behind. -/
theorem RunInv.same {s : Step} {m' : Manager} (hleft : leftBehind (s :: before) = leftBehind before)
    (hconfigs : m'.appliedConfigs = m.appliedConfigs) (hgood : m'.Good)
    (htracked : Tracked start (m.appliedConfigs ++ leftBehind before) k')
    (hkept : (∀ r ∈ start.rules, r ∈ k'.rules) ∧ ∀ a ∈ start.routes, a ∈ k'.routes) :
    RunInv start (s :: before) m' k' where
  good := hgood
  valid := by
    rw [hleft]
    exact h.valid
  used := by
    intro c hc
    rw [hleft, hconfigs] at hc
    exact mem_append_right _ (h.used c hc)
  tracked := by
    rw [hleft, hconfigs]
    exact htracked
  kept := hkept

/-- A failed `Apply` leaves its config behind. -/
theorem RunInv.tracked_applyFailed {c : Config} (hc : c.Valid)
    (hx : Stage (m.plan (desiredFrom c k)) k (m.settled (desiredFrom c k) k) k') :
    Tracked start (m.appliedConfigs ++ c :: leftBehind before) k' := by
  have hd := compiled_desiredFrom hc k
  have hmono : Tracked start (m.appliedConfigs ++ c :: leftBehind before) k :=
    h.tracked.mono ((sublist_cons_self c _).append_left _).subset
  refine hmono.stage (Manager.plan_sound h.good hd) (Manager.guarded_settled h.good hd k) hx
    ?_ ?_ ?_
  · intro g hg
    obtain ⟨b, hb, hg⟩ := mem_transitionGuards_configs.mp hg
    exact ⟨b, Manager.mem_owners hb _, mem_append_left _ hg⟩
  · intro r hr
    exact ⟨c, mem_append_right _ mem_cons_self, hd.mem_ownRules hr⟩
  · intro a ha
    obtain ⟨b, hb, hin⟩ := ownsRoute_iff.mp ha
    exact ⟨b, Manager.mem_owners hb _, hin⟩

/-- A refresh touches the applied config only. -/
theorem RunInv.tracked_refresh {a : DesiredState} (ha : m.applied = some a)
    (hx : Stage (refreshPlan a.config) k (refreshSettled a.config k) k') :
    Tracked start (m.appliedConfigs ++ leftBehind before) k' := by
  have hmem : a.config ∈ m.appliedConfigs ++ leftBehind before :=
    mem_append_left _ (Manager.mem_appliedConfigs.mpr ⟨a, ha, rfl⟩)
  refine h.tracked.stage (refreshPlan_sound a.config)
    (guarded_refreshSettled (h.good a ha).valid k) hx ?_ (fun r hr => absurd hr not_mem_nil) ?_
  · intro g hg
    exact ⟨a.config, hmem, mem_append_left _ hg⟩
  · intro b hb
    simp only [refreshPlan, inSafeTable, Bool.and_eq_true, beq_iff_eq] at hb
    exact ⟨a.config, hmem, inTables_iff.mpr ⟨hb.1, .inr hb.2⟩⟩

variable {op : Operation} {tr : List (Event AdapterCall Kernel)} {out : Outcome}

theorem RunInv.free_step (hfree : Free (usedConfigs (⟨op, m, k, tr, out, k'⟩ :: before)) start) :
    Free (op.configs ++ m.appliedConfigs) start := by
  intro c hc
  refine hfree c ?_
  rw [usedConfigs_cons]
  rcases mem_append.mp hc with hc | hc
  · exact mem_append_left _ hc
  · exact mem_append_right _ (h.used c (mem_append_left _ hc))

/-- The invariant is kept by a step that covers what is left behind if it settles. -/
theorem RunInv.step (hop : op.Valid) (hex : Exec adapter (m.perform op) k tr out k')
    (hfree : Free (usedConfigs (⟨op, m, k, tr, out, k'⟩ :: before)) start)
    (hclean : Step.settles ⟨op, m, k, tr, out, k'⟩ = true →
      Step.Clean ⟨op, m, k, tr, out, k'⟩ (leftBehind before)) :
    RunInv start (⟨op, m, k, tr, out, k'⟩ :: before) out.1 k' := by
  have hsub := h.free_step hfree
  have hperf := performed_of_exec h.good hop hex
  have hkept := hperf.passes.keeps h.good hop hsub h.kept.1 h.kept.2
  have hgood := hperf.good h.good hop
  cases hperf with
  | idle hactive hnil =>
    exact h.same (leftBehind_other (settles_eq_false hnil) (.inl hactive)) rfl h.good
      h.tracked hkept
  | @applyFailed c err _ hactive hx =>
    have hleft : leftBehind (⟨.apply c, m, k, tr, (m, err), k'⟩ :: before) =
        c :: leftBehind before := leftBehind_applyFailed rfl hactive
    refine ⟨h.good, ?_, ?_, ?_, hkept⟩ <;> rw [hleft]
    · intro b hb
      rcases mem_cons.mp hb with rfl | hb
      · exact hop
      · exact h.valid b hb
    · intro b hb
      rw [usedConfigs_cons]
      rcases mem_append.mp hb with hb | hb
      · exact mem_append_right _ (h.used b (mem_append_left _ hb))
      · rcases mem_cons.mp hb with rfl | hb
        · exact mem_append_left _ mem_cons_self
        · exact mem_append_right _ (h.used b (mem_append_right _ hb))
    · exact h.tracked_applyFailed hop hx
  | @applied c =>
    obtain ⟨hcov, hmist⟩ := hclean rfl
    have hfree' : Free (m.configs c) start := by
      rw [m.configs_eq]
      exact hsub
    obtain ⟨hrules, hroutes⟩ := h.tracked.reconciled h.good hop hfree' hcov hmist
    have hd := compiled_desiredFrom hop k
    refine ⟨hgood, ?_, ?_, ⟨?_, ?_⟩, hkept⟩
    · rintro b ⟨⟩
    · intro b hb
      obtain rfl : b = c := by simpa [Manager.appliedConfigs, leftBehind, Step.settles] using hb
      exact mem_append_left _ mem_cons_self
    · intro r hr
      rcases hrules r hr with hstart | hnew
      · exact .inl hstart
      · exact .inr ⟨c, mem_cons_self, hd.mem_ownRules hnew⟩
    · intro a ha
      rcases hroutes a ha with hstart | hv | hs
      · exact .inl hstart
      · exact .inr ⟨c, mem_cons_self, hd.inTables_vpn hv⟩
      · exact .inr ⟨c, mem_cons_self, hd.inTables_safe hs⟩
  | refreshFailed hrefreshes ha hx =>
    exact h.same (leftBehind_refreshes hrefreshes) rfl h.good (h.tracked_refresh ha hx) hkept
  | @refreshed _ a hrefreshes ha =>
    refine h.same (leftBehind_refreshes hrefreshes) ?_ hgood
      (h.tracked_refresh ha (Stage.closing _ [] (by simp [refreshPlan]))) hkept
    simp [Manager.appliedConfigs, ha]
  | rollbackFailed hactive hnil hx =>
    exact h.same (leftBehind_other (settles_eq_false fun _ _ => hnil) (.inl hactive)) rfl
      h.good (h.tracked.pruned hx) hkept
  | @rolledBack c =>
    obtain ⟨hrules, hroutes⟩ := h.tracked.rolledBack h.good (hclean rfl)
    refine ⟨hgood, ?_, ?_, ⟨?_, ?_⟩, hkept⟩
    · rintro b ⟨⟩
    · rintro b ⟨⟩
    · exact fun r hr => .inl (hrules r hr)
    · exact fun a ha => .inl (hroutes a ha)
  | begun ha hsplit =>
    refine h.same (leftBehind_other rfl (.inr fun c hc => by cases hc)) rfl h.good ?_ hkept
    refine h.tracked.addRules fun g hg => ?_
    exact ⟨_, mem_append_left _ (Manager.mem_appliedConfigs.mpr ⟨_, ha, rfl⟩),
      mem_append_left _ (hsplit ▸ mem_append_left _ hg)⟩

end Step

/-- In a tidy run from a fresh manager over a free kernel, every rule and route has an owner. -/
theorem Run.inv {m₀ : Manager} (hfresh : m₀.applied = none) {k : Kernel} {steps : List Step}
    (hrun : Run m₀ start steps m k) (hfree : Free (usedConfigs steps) start) (htidy : Tidy steps) :
    RunInv start steps m k := by
  induction hrun with
  | start =>
    have hnone : m₀.appliedConfigs = [] := by simp [Manager.appliedConfigs, hfresh]
    refine ⟨?_, ?_, ?_, ⟨fun r hr => .inl hr, fun a ha => .inl ha⟩, fun r hr => hr, fun a ha => ha⟩
    · intro a ha
      rw [hfresh] at ha
      cases ha
    · rintro c ⟨⟩
    · intro c hc
      rw [hnone] at hc
      cases hc
  | step _ hop hex ih =>
    have hbefore := ih (fun c hc => hfree c (mem_append_right _ hc)) htidy.2
    exact hbefore.step hop hex hfree htidy.1

end SysnetLinux.Routing
