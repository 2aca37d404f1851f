/-
  SysnetLinux.Routing.Transition

  The transition safety of one reconciliation.

  While `Apply` or `Refresh` is under way, and wherever it fails, a packet that matches no
  app-bypass selector is decided as before the call, as by the new state fully installed, or
  dropped.
-/

import SysnetLinux.Routing.Converge
import SysnetLinux.Routing.Decide

namespace SysnetLinux.Routing

open CallProg CallProg.Prog List

/-! ## A state fully installed -/

/-- `x` holds the state `d` in what the configs own, and `k` outside it. -/
structure FullyInstalled (configs : List Config) (d : DesiredState) (k x : Kernel) : Prop where
  rules : ∀ r, r ∈ x.rules ↔ r ∈ d.rules ∨ (r ∈ k.rules ∧ ownsRule configs r = false)
  outside : (x.rules.filter fun r => !ownsRule configs r) =
    k.rules.filter fun r => !ownsRule configs r
  routes : ∀ a, a ∈ x.routes ↔
    a ∈ d.vpnRoutes ∨ a ∈ d.safeRoutes ∨ (a ∈ k.routes ∧ ownsRoute configs a = false)

/-- The kernel `k` with the state of `c` in place of all that the two configs own. -/
def Manager.installed (m : Manager) (c : Config) (k : Kernel) : Kernel :=
  (((k.without (ownsRule (m.configs c)) (ownsRoute (m.configs c))).replaceRoutes
    (desiredFrom c k).vpnRoutes).replaceRoutes (desiredFrom c k).safeRoutes).addRules
      (desiredFrom c k).rules

theorem fullyInstalled_installed (m : Manager) {c : Config} (hc : c.Valid) (k : Kernel) :
    FullyInstalled (m.configs c) (desiredFrom c k) k (m.installed c k) where
  rules := by
    intro r
    simp [Manager.installed]
  outside := by
    have hnew : ∀ r ∈ (desiredFrom c k).rules, (!ownsRule (m.configs c) r) = false := by
      intro r hr
      have hin := (compiled_desiredFrom hc k).inBlock_of_mem hr
      simp [ownsRule_iff.mpr ⟨c, m.mem_configs_self c, hin⟩]
    rw [Manager.installed, Kernel.filter_addRules hnew]
    simp [filter_filter]
  routes := by
    intro a
    simp only [Manager.installed, Kernel.addRules_routes, Kernel.mem_replaceRoutes,
      Kernel.without_routes, mem_filter, Bool.not_eq_true']
    tauto

/-- Lists without repetition whose members are the same one are equal. -/
theorem eq_of_same_member {l l' : List Rule} (hl : l.Nodup) (hl' : l'.Nodup)
    (hmem : ∀ r, r ∈ l ↔ r ∈ l') (hone : ∀ a ∈ l, ∀ b ∈ l, a = b) : l = l' := by
  have hperm : l.Perm l' := (perm_ext_iff_of_nodup hl hl').mpr hmem
  have htrue : ∀ s : List Rule, s.Pairwise fun _ _ => True :=
    fun s => pairwise_of_forall fun _ _ => trivial
  exact List.Perm.eq_of_pairwise (fun a b ha hb _ _ => hone a ha b ((hmem b).mpr hb))
    (htrue l) (htrue l') hperm

/-- A decision is taken among the rules of the packet's family. -/
theorem Kernel.decision_family (k : Kernel) (p : Packet) : k.decision p =
      (k.rules.filter fun r => decide (r.family = p.family)).findSome? (verdict k.routes p) := by
  refine (FirstMatch.findSome?_filter fun r _ hq => verdict_of_not_applies ?_).symm
  rw [decide_eq_false_iff_not] at hq
  simp [Rule.applies, hq]

variable {configs : List Config} {k : Kernel}

/-- What is fully installed decides the same way in whatever order it came. -/
theorem FullyInstalled.decision_eq {d : DesiredState} (hd : d.Compiled) {x y : Kernel}
    (hx : FullyInstalled configs d k x) (hy : FullyInstalled configs d k y) (p : Packet) :
    x.decision p = y.decision p := by
  have hrules : (x.rules.filter fun r => decide (r.family = p.family)) =
      y.rules.filter fun r => decide (r.family = p.family) := by
    refine FirstMatch.ordered_ext (FirstMatch.ordered_sublist x.ordered filter_sublist)
      (FirstMatch.ordered_sublist y.ordered filter_sublist) fun v => ?_
    rw [filter_filter, filter_filter]
    have hmem : ∀ r, r ∈ x.rules ↔ r ∈ y.rules := fun r => (hx.rules r).trans (hy.rules r).symm
    -- ownership depends on family and priority, so it is the same for the whole group
    have hsame : ∀ r s : Rule, r.family = p.family → r.priority = v → s.family = p.family →
        s.priority = v → ownsRule configs r = ownsRule configs s := by
      intro r s hrf hrp hsf hsp
      simp only [ownsRule, inBlock, hrf, hrp, hsf, hsp]
    by_cases hown : ∃ r : Rule, r.family = p.family ∧ r.priority = v ∧ ownsRule configs r = true
    · -- inside a block: at most one rule, a desired one
      obtain ⟨s, hsf, hsp, hsown⟩ := hown
      refine eq_of_same_member (x.rules_nodup.filter _) (y.rules_nodup.filter _) ?_ ?_
      · intro r
        simp only [mem_filter, hmem r]
      · have hdesired : ∀ r ∈ x.rules.filter (fun r =>
            decide (r.priority = v) && decide (r.family = p.family)),
            r ∈ d.rules ∧ r.family = p.family ∧ r.priority = v := by
          intro r hr
          obtain ⟨hr, hcond⟩ := mem_filter.mp hr
          simp only [Bool.and_eq_true, decide_eq_true_eq] at hcond
          refine ⟨?_, hcond.2, hcond.1⟩
          rcases (hx.rules r).mp hr with hnew | ⟨-, hout⟩
          · exact hnew
          · rw [hsame r s hcond.2 hcond.1 hsf hsp, hsown] at hout
            cases hout
        intro a ha b hb
        obtain ⟨hda, haf, hap⟩ := hdesired a ha
        obtain ⟨hdb, hbf, hbp⟩ := hdesired b hb
        exact hd.rules_unique hda hdb (haf.trans hbf.symm) (hap.trans hbp.symm)
    · -- outside: the rules of `k`, in their order
      have hout : ∀ z : Kernel, (z.rules.filter fun r =>
          decide (r.priority = v) && decide (r.family = p.family)) =
          (z.rules.filter fun r => !ownsRule configs r).filter fun r =>
            decide (r.priority = v) && decide (r.family = p.family) := by
        intro z
        rw [filter_filter]
        refine filter_congr fun r _ => ?_
        by_cases hr : r.priority = v ∧ r.family = p.family
        · have hnot : ownsRule configs r = false := by
            rw [Bool.eq_false_iff]
            exact fun h => hown ⟨r, hr.2, hr.1, h⟩
          simp [hnot]
        · have hfalse : (decide (r.priority = v) && decide (r.family = p.family)) = false := by
            simpa using fun h h' => hr ⟨h, h'⟩
          rw [hfalse, Bool.false_and]
      rw [hout x, hout y, hx.outside, hy.outside]
  rw [x.decision_family, y.decision_family, hrules]
  have hverdict : verdict x.routes p = verdict y.routes p := by
    funext r
    refine verdict_congr fun _ _ => candidates_congr fun a _ _ => ?_
    exact (hx.routes a).trans (hy.routes a).symm
  rw [hverdict]

/-! ## The state before the call -/

/-- Before the call, the two blocks hold exactly the rules of the applied state,
    and its tables exactly its routes. -/
structure Steady (m : Manager) (c : Config) (k : Kernel) : Prop where
  block : ∀ r ∈ k.rules, ownsRule (m.configs c) r = true → r ∈ m.appliedRules
  rules : ∀ r ∈ m.appliedRules, r ∈ k.rules
  tables : ∀ d, m.applied = some d → ∀ a, inTables d.config a = true →
    (a ∈ k.routes ↔ a ∈ d.vpnRoutes ∨ a ∈ d.safeRoutes)

/-- A rule tried before every guard of its family. -/
def AheadOfGuards (configs : List Config) (r : Rule) : Prop :=
  ∀ c ∈ configs, familyEnabled c.families r.family = true → r.priority < c.priorityBase + 2

/-- No rule outside the blocks and ahead of the guards sends the packet to an owned table. -/
def OutsideApart (configs : List Config) (k : Kernel) (p : Packet) : Prop :=
  ∀ r ∈ k.rules, ownsRule configs r = false → r.applies p = true → AheadOfGuards configs r →
    r.action = .lookup → ∀ a : Route, a.family = p.family → a.table = r.table →
      ownsRoute configs a = false

/-- A rule outside the blocks and ahead of the guards decides the packet. -/
def DecidedAhead (configs : List Config) (k : Kernel) (p : Packet) : Prop :=
  ∃ r ∈ k.rules, ownsRule configs r = false ∧ AheadOfGuards configs r ∧
    r.applies p = true ∧ verdict k.routes p r = k.decision p ∧ k.decision p ≠ none

/-- The two kernels have the same routes in a table. -/
def SameTable (family table : Int) (k k' : Kernel) : Prop :=
  ∀ a : Route, a.family = family → a.table = table → (a ∈ k.routes ↔ a ∈ k'.routes)

/-- Some owned table of the family has neither its content in `k` nor that in `full`. -/
def Halfway (configs : List Config) (family : Int) (k full x : Kernel) : Prop :=
  ∃ c ∈ configs, familyEnabled c.families family = true ∧
    ∃ table, (table = c.vpnTable ∨ table = c.safeTable) ∧
      ¬ SameTable family table x k ∧ ¬ SameTable family table x full

/-- What a packet meets in a state `x` on the way from `k` to `full`. -/
structure SafeAt (configs : List Config) (k full : Kernel) (p : Packet) (x : Kernel) : Prop where
  decision : x.decision p = k.decision p ∨ x.decision p = full.decision p ∨
    x.decision p = some .drop
  halfway : Halfway configs p.family k full x →
    x.decision p = some .drop ∨ (x.decision p = k.decision p ∧ DecidedAhead configs k p)

section Walk

variable {configs : List Config} (hvalid : ∀ c ∈ configs, c.Valid) {k x full : Kernel}
  {p : Packet}

/-- A rule compiled from one of the configs. -/
def CompiledFor (configs : List Config) (r : Rule) : Prop :=
  ∃ c ∈ configs, familyEnabled c.families r.family = true ∧ r ∈ compileRules c r.family

variable {r : Rule}

theorem compiledFor_of_mem {d : DesiredState} (hd : d.Compiled) (hmem : d.config ∈ configs)
    (hr : r ∈ d.rules) : CompiledFor configs r :=
  ⟨d.config, hmem, hd.mem_rules.mp hr⟩

theorem family_of_applies (h : r.applies p = true) : r.family = p.family := by
  simp only [Rule.applies, Bool.and_eq_true, beq_iff_eq] at h
  exact h.1

include hvalid in
/-- Up to the foremost guard, compiled rules say nothing about other packets than
    the bypassed ones. -/
theorem verdict_foremost (hp : ∀ c ∈ configs, appBypass c p = false) {routes : List Route} {n : Int}
    (hn : ∀ c ∈ configs, familyEnabled c.families p.family = true → n ≤ c.priorityBase + 2)
    (hr : CompiledFor configs r) (hprio : r.priority ≤ n) :
    verdict routes p r = none := by
  obtain ⟨c, hc, hf, hmem⟩ := hr
  by_cases hfam : r.family = p.family
  · have hle := hn c hc (hfam ▸ hf)
    exact verdict_ahead_of_guard (hvalid c hc) (hp c hc) hmem (le_trans hprio hle)
  · apply verdict_of_not_applies
    rw [Bool.eq_false_iff]
    exact fun happ => hfam (family_of_applies happ)

include hvalid in
/-- A rule outside the blocks is not at a guard's priority. -/
theorem ahead_of_outside (hout : ownsRule configs r = false)
    (hle : ∀ c ∈ configs, familyEnabled c.families r.family = true →
      r.priority ≤ c.priorityBase + 2) : AheadOfGuards configs r := by
  intro c hc hf
  refine lt_of_le_of_ne (hle c hc hf) fun hprio => ?_
  have hin : inBlock c r = true := by
    have hguard := inBlock_transitionGuard (hvalid c hc) (mem_familyConstants.mpr hf)
    rw [inBlock_iff, transitionGuard_priority (hvalid c hc)] at hguard
    exact inBlock_iff.mpr ⟨hf, hprio ▸ hguard.2⟩
  rw [ownsRule_iff.mpr ⟨c, hc, hin⟩] at hout
  cases hout

theorem SameOutside.outsideUpTo_eq (hsame : SameOutside configs k x) (n : Int) :
    outsideUpTo (ownsRule configs) n x = outsideUpTo (ownsRule configs) n k := by
  have hsplit : ∀ z : Kernel, outsideUpTo (ownsRule configs) n z =
      (z.rules.filter fun r => !ownsRule configs r).filter fun r => decide (r.priority ≤ n) := by
    intro z
    rw [outsideUpTo, filter_filter]
  rw [hsplit x, hsplit k, hsame.rules]

theorem SameOutside.mem_routes (hsame : SameOutside configs k x) {a : Route}
    (ha : ownsRoute configs a = false) : a ∈ x.routes ↔ a ∈ k.routes := by
  have hmem : a ∈ (x.routes.filter fun a => !ownsRoute configs a) ↔
      a ∈ k.routes.filter fun a => !ownsRoute configs a := by rw [hsame.routes]
  simpa [ha] using hmem

include hvalid in
/-- Behind all guards of its family, a packet is dropped or decided as before by a
    rule ahead of them. -/
theorem decision_behind_guards (hp : ∀ c ∈ configs, appBypass c p = false)
    (hapart : OutsideApart configs k p)
    (hk : ∀ r ∈ k.rules, ownsRule configs r = true → CompiledFor configs r)
    (hx : ∀ r ∈ x.rules, ownsRule configs r = true →
      r.action = .unreachable ∨ CompiledFor configs r)
    (hguards : ∀ c ∈ configs, familyEnabled c.families p.family = true →
      transitionGuard c p.family ∈ x.rules)
    (hsame : SameOutside configs k x)
    (hfam : ∃ c ∈ configs, familyEnabled c.families p.family = true) :
    x.decision p = some .drop ∨ (x.decision p = k.decision p ∧ DecidedAhead configs k p) := by
  obtain ⟨c, hc, hf, hmin⟩ := exists_foremost hfam
  have hprio : (transitionGuard c p.family).priority = c.priorityBase + 2 :=
    transitionGuard_priority (hvalid c hc)
  have hn : ∀ c' ∈ configs, familyEnabled c'.families p.family = true →
      (transitionGuard c p.family).priority ≤ c'.priorityBase + 2 := by
    intro c' hc' hf'
    have hle := hmin c' hc' hf'
    omega
  -- the rules outside the blocks that the packet meets first say the same in both
  have hahead : ∀ r ∈ outsideUpTo (ownsRule configs) (transitionGuard c p.family).priority k,
      r.applies p = true → r ∈ k.rules ∧ ownsRule configs r = false ∧ AheadOfGuards configs r := by
    intro r hr happ
    simp only [outsideUpTo, mem_filter, Bool.and_eq_true, decide_eq_true_eq,
      Bool.not_eq_true'] at hr
    obtain ⟨hr, hle, hout⟩ := hr
    refine ⟨hr, hout, ahead_of_outside hvalid hout fun c' hc' hf' => ?_⟩
    exact le_trans hle (hn c' hc' (family_of_applies happ ▸ hf'))
  have hwalk : (outsideUpTo (ownsRule configs) (transitionGuard c p.family).priority x).findSome?
      (verdict x.routes p) =
      (outsideUpTo (ownsRule configs) (transitionGuard c p.family).priority k).findSome?
        (verdict k.routes p) := by
    rw [hsame.outsideUpTo_eq]
    apply FirstMatch.findSome?_congr
    intro r hr
    by_cases happ : r.applies p = true
    · obtain ⟨hmem, hout, hbefore⟩ := hahead r hr happ
      refine verdict_congr fun hact _ => candidates_congr fun a ha ht => ?_
      exact hsame.mem_routes (hapart r hmem hout happ hbefore hact a ha ht)
    · rw [Bool.not_eq_true] at happ
      rw [verdict_of_not_applies happ, verdict_of_not_applies happ]
  have hbehind := decision_behind_guard (ownsRule configs) (hguards c hc hf) rfl
    transitionGuard_applies fun r hr hle hown => ?_
  · rcases hbehind with hdrop | ⟨hsome, heq⟩
    · exact .inl hdrop
    · right
      rw [hwalk] at hsome heq
      have hpre : k.decision p = _ := decision_of_outsideUpTo (ownsRule configs)
        (fun r hr hle hown => verdict_foremost hvalid hp hn (hk r hr hown) hle) hsome
      obtain ⟨d, hd⟩ := Option.ne_none_iff_exists'.mp hsome
      obtain ⟨r, hr, hverdict⟩ := exists_of_findSome?_eq_some hd
      have happ : r.applies p = true := by
        by_contra hnot
        rw [verdict_of_not_applies (Bool.not_eq_true _ ▸ hnot)] at hverdict
        cases hverdict
      obtain ⟨hmem, hout, hbefore⟩ := hahead r hr happ
      refine ⟨heq.trans hpre.symm, r, hmem, hout, hbefore, happ, ?_, ?_⟩
      · rw [hverdict, hpre, hd]
      · rw [hpre]
        exact hsome
  · rcases hx r hr hown with hact | hcompiled
    · exact verdict_unreachable_or hact
    · exact .inl (verdict_foremost hvalid hp hn hcompiled hle)

/-- A packet of a family that no config has is decided as before. -/
theorem decision_foreign_family (hsame : SameOutside configs k x)
    (hnone : ∀ c ∈ configs, familyEnabled c.families p.family = false) :
    x.decision p = k.decision p := by
  have hout : ∀ z : Kernel, (z.rules.filter fun r => decide (r.family = p.family)) =
      (z.rules.filter fun r => !ownsRule configs r).filter
        fun r => decide (r.family = p.family) := by
    intro z
    rw [filter_filter]
    refine filter_congr fun r _ => ?_
    by_cases hfam : r.family = p.family
    · have hnot : ownsRule configs r = false := by
        rw [Bool.eq_false_iff]
        intro hown
        obtain ⟨c, hc, hin⟩ := ownsRule_iff.mp hown
        have hf := (inBlock_iff.mp hin).1
        rw [hfam, hnone c hc] at hf
        cases hf
      simp [hnot]
    · simp [hfam]
  have hverdict : verdict x.routes p = verdict k.routes p := by
    funext r
    refine verdict_congr fun _ _ => candidates_congr fun a ha _ => hsame.mem_routes ?_
    rw [Bool.eq_false_iff]
    intro hown
    obtain ⟨c, hc, hin⟩ := ownsRoute_iff.mp hown
    have hf := (inTables_iff.mp hin).1
    rw [ha, hnone c hc] at hf
    cases hf
  rw [x.decision_family, k.decision_family, hout x, hout k, hsame.rules, hverdict]

end Walk

/-! ## Stages -/

/-- A guarded change that leads from `k` to the state `d` fully installed is safe in every stage. -/
theorem safeAt_stage (hvalid : ∀ c ∈ configs, c.Valid) {P : Plan} (hP : P.Sound)
    {settled full : Kernel} {p : Packet} (hp : ∀ c ∈ configs, appBypass c p = false)
    (hapart : OutsideApart configs k p)
    (hk : ∀ r ∈ k.rules, ownsRule configs r = true → CompiledFor configs r)
    (hnew : ∀ r ∈ P.newRules, CompiledFor configs r)
    (hguards : ∀ c ∈ configs, familyEnabled c.families p.family = true →
      transitionGuard c p.family ∈ P.guards)
    (hr : ∀ r, P.rules r = true → ownsRule configs r = true)
    (ha : ∀ a, P.routes a = true → ownsRoute configs a = true) {d : DesiredState} (hd : d.Compiled)
    (hfinal : FullyInstalled configs d k (settled.deleteRules P.removed))
    (hfull : FullyInstalled configs d k full) {x : Kernel} (hx : Stage P k settled x) :
    SafeAt configs k full p x := by
  cases hx with
  | opening done rest hsplit =>
    have hdrop : ∀ g ∈ done, g.action = .unreachable := fun g hg =>
      hP.guards_drop g (hsplit ▸ mem_append_left rest hg)
    refine ⟨?_, ?_⟩
    · rcases decision_addRules (k := k) (p := p) hdrop with h | h
      · exact .inl h
      · exact .inr (.inr h)
    · -- no route has changed yet
      rintro ⟨c, -, -, table, -, hold, -⟩
      refine absurd (fun a _ _ => ?_) hold
      rw [Kernel.addRules_routes]
  | guarded hx =>
    have hsame := SameOutside.of_filter hx.rules_outside hx.routes_outside hr ha
    have hfrom : ∀ r ∈ x.rules, ownsRule configs r = true →
        r.action = .unreachable ∨ CompiledFor configs r := by
      intro r hmem hown
      rcases hx.rules_from r hmem with hold | hguard | hadded
      · exact .inr (hk r hold hown)
      · exact .inl (hP.guards_drop r hguard)
      · exact .inr (hnew r hadded)
    have hbehind := decision_behind_guards hvalid hp hapart hk hfrom
      (fun c hc hf => hx.guards_mem _ (hguards c hc hf)) hsame
    refine ⟨?_, fun ⟨c, hc, hf, _⟩ => hbehind ⟨c, hc, hf⟩⟩
    by_cases hfam : ∃ c ∈ configs, familyEnabled c.families p.family = true
    · rcases hbehind hfam with hdrop | ⟨hpre, -⟩
      · exact .inr (.inr hdrop)
      · exact .inl hpre
    · refine .inl (decision_foreign_family hsame fun c hc => ?_)
      rw [Bool.eq_false_iff]
      exact fun hf => hfam ⟨c, hc, hf⟩
  | closing done rest hsplit =>
    have hrest : (settled.deleteRules done).deleteRules rest = settled.deleteRules P.removed := by
      rw [hsplit, Kernel.deleteRules, Kernel.deleteRules, Kernel.deleteRules, foldl_append]
    have hdrop : ∀ g ∈ rest, g.action = .unreachable := fun g hg =>
      hP.guards_drop g (hP.removed_guards g (hsplit ▸ mem_append_right done hg))
    refine ⟨?_, ?_⟩
    · rcases decision_deleteRules (k := settled.deleteRules done) (p := p) hdrop with h | h
      · rw [hrest, hfinal.decision_eq hd hfull p] at h
        exact .inr (.inl h)
      · exact .inr (.inr h)
    · -- the routes are the new ones
      rintro ⟨c, -, -, table, -, -, hnot⟩
      refine absurd (fun a _ _ => ?_) hnot
      rw [hfull.routes a, ← hfinal.routes a, Kernel.deleteRules_routes, Kernel.deleteRules_routes]

section Steady

variable {m : Manager} (hm : m.Good) {c : Config} (hc : c.Valid) {k : Kernel}
include hm

theorem compiledFor_applied (c : Config) {r : Rule} (hr : r ∈ m.appliedRules) :
    CompiledFor (m.configs c) r := by
  unfold Manager.appliedRules at hr
  split at hr
  · cases hr
  · rename_i d hd
    exact compiledFor_of_mem (hm d hd) (Manager.mem_configs_applied hd c) hr

include hc

/-- Over a steady kernel, `Apply` ends with the new state fully installed. -/
theorem fullyInstalled_reconciled (hsteady : Steady m c k) :
    FullyInstalled (m.configs c) (desiredFrom c k) k (m.reconciled (desiredFrom c k) k) where
  rules := by
    intro r
    have hd := compiled_desiredFrom hc k
    have hlike : NoLookalike m c k := by
      intro s hs hlooks
      obtain ⟨g, hg, hlisted⟩ := hlooks
      have hown : ownsRule (m.configs c) s = true := by
        rw [ownsRule_listed hlisted]
        exact Manager.guards_owned hm hd hg
      exact .inr (.inr (hsteady.block s hs hown))
    constructor
    · intro hr
      by_cases hown : ownsRule (m.configs c) r = true
      · exact .inl (desired_of_noLookalike hm hc hlike hr hown)
      · rcases (mem_reconciled hm hd).mp hr with hnew | ⟨hold, -⟩
        · exact .inl hnew
        · exact .inr ⟨hold, Bool.not_eq_true _ ▸ hown⟩
    · rintro (hnew | ⟨hold, hout⟩)
      · exact (mem_reconciled hm hd).mpr (.inl hnew)
      · refine (mem_reconciled hm hd).mpr (.inr ⟨hold, ?_, ?_, ?_⟩)
        · intro hg
          have hown := Manager.guards_owned hm hd hg
          rw [desiredFrom_config, hout] at hown
          cases hown
        · intro hobs
          have hown := (Manager.obsolete_spec hm hd hobs).2.2.2
          rw [desiredFrom_config, hout] at hown
          cases hown
        · rw [desiredFrom_config, hout]
          rintro ⟨⟩
  outside := by
    have hd := compiled_desiredFrom hc k
    have hstage : Stage (m.plan (desiredFrom c k)) k (m.settled (desiredFrom c k) k)
        (m.reconciled (desiredFrom c k) k) := Stage.closing _ [] (by simp)
    exact (hstage.outside (Manager.plan_sound hm hd) (Manager.guarded_settled hm hd k)).1
  routes := fun _ => mem_reconciled_routes

omit hm hc in
theorem configGuards_not_desired {d : DesiredState} (hd : d.Compiled) {g : Rule}
    (hg : g ∈ configGuards d.config) : g ∉ d.rules := by
  intro hmem
  obtain ⟨f, -, rfl⟩ := mem_configGuards.mp hg
  have hprio : (transitionGuard d.config f).priority = d.config.priorityBase + 2 :=
    transitionGuard_priority hd.valid
  have hcases := mem_compileRules_cases hd.valid (hd.mem_rules.mp hmem).2
  omega

omit hm hc in
theorem mem_refreshSettled_routes {b : Route} : b ∈ (refreshSettled c k).routes ↔
      b ∈ (desiredFrom c k).safeRoutes ∨ (b ∈ k.routes ∧ inSafeTable c b = false) := by
  simp [refreshSettled, mem_filter]

omit hm in
/-- Behind the guards of a refresh both tables are complete, if the VPN table was. -/
theorem refreshSettled_tables
    (hvpn : ∀ b : Route, familyEnabled c.families b.family = true → b.table = c.vpnTable →
      (b ∈ k.routes ↔ b ∈ (desiredFrom c k).vpnRoutes))
    {b : Route} (hin : inTables c b = true) :
    b ∈ (refreshSettled c k).routes ↔
      b ∈ (desiredFrom c k).vpnRoutes ∨ b ∈ (desiredFrom c k).safeRoutes := by
  have hd := compiled_desiredFrom hc k
  have hne := hc.checked.tables_ne
  obtain ⟨hfam, htable⟩ := inTables_iff.mp hin
  rw [mem_refreshSettled_routes]
  rcases htable with htable | htable
  · have hunsafe : inSafeTable c b = false := by
      rw [← Bool.not_eq_true, inSafeTable, Bool.and_eq_true, beq_iff_eq]
      exact fun h => hne (htable.symm.trans h.2)
    rw [hvpn b hfam htable, hunsafe, or_comm]
    simp
  · have hsafe : inSafeTable c b = true := by
      rw [inSafeTable, Bool.and_eq_true, beq_iff_eq]
      exact ⟨hfam, htable⟩
    have hnot : b ∉ (desiredFrom c k).vpnRoutes := fun hv =>
      hne ((hd.vpnRoutes_in hv).2.symm.trans htable)
    simp [hsafe, hnot]

/-- Over a steady kernel the VPN table is the one that is compiled again. -/
theorem steady_vpnTable {a : DesiredState} (ha : m.applied = some a) (hac : a.config = c)
    (hsteady : Steady m c k) (b : Route) (hfam : familyEnabled c.families b.family = true)
    (htable : b.table = c.vpnTable) :
    b ∈ k.routes ↔ b ∈ (desiredFrom c k).vpnRoutes := by
  have hin : inTables a.config b = true := by
    rw [hac]
    exact inTables_iff.mpr ⟨hfam, .inl htable⟩
  have heq : a.vpnRoutes = (desiredFrom c k).vpnRoutes := by
    rw [(hm a ha).vpnRoutes_eq (snapshotOf c k), hac]
    rfl
  rw [hsteady.tables a ha b hin, heq]
  constructor
  · rintro (h | h)
    · exact h
    · have hbt := ((hm a ha).safeRoutes_in h).2
      rw [hac] at hbt
      exact absurd (htable.symm.trans hbt) hc.checked.tables_ne
  · exact .inl

/-- Over a steady kernel, `Refresh` ends with the state fully installed. -/
theorem fullyInstalled_refreshed {a : DesiredState} (ha : m.applied = some a)
    (hac : a.config = c) (hsteady : Steady m c k) :
    FullyInstalled (m.configs c) (desiredFrom c k) k (refreshed c k) where
  rules := by
    intro r
    have hd := compiled_desiredFrom hc k
    have hrules : m.appliedRules = a.rules := by simp [Manager.appliedRules, ha]
    have hsame : a.rules = (desiredFrom c k).rules := by
      rw [(hm a ha).rules_eq (snapshotOf c k), hac]
      rfl
    have hdrop : ∀ g ∈ configGuards c, g.action = .unreachable :=
      (refreshPlan_sound c).guards_drop
    have hmem : r ∈ (refreshed c k).rules ↔ r ∉ configGuards c ∧ r ∈ k.rules := by
      rw [refreshed, Kernel.mem_deleteRules_unreachable hdrop, refreshSettled,
        Kernel.replaceRoutes_rules]
      simp only [Kernel.without_rules, noRule, Bool.not_false, filter_true, Kernel.mem_addRules]
      tauto
    rw [hmem]
    constructor
    · rintro ⟨-, hr⟩
      by_cases hown : ownsRule (m.configs c) r = true
      · exact .inl (hsame ▸ hrules ▸ hsteady.block r hr hown)
      · exact .inr ⟨hr, Bool.not_eq_true _ ▸ hown⟩
    · rintro (hnew | ⟨hr, hout⟩)
      · refine ⟨fun hg => configGuards_not_desired hd hg hnew, ?_⟩
        rw [← hsame, ← hrules] at hnew
        exact hsteady.rules r hnew
      · refine ⟨fun hg => ?_, hr⟩
        obtain ⟨f, hf, rfl⟩ := mem_configGuards.mp hg
        rw [ownsRule_iff.mpr ⟨c, m.mem_configs_self c, inBlock_transitionGuard hc hf⟩] at hout
        cases hout
  outside := by
    have hstage : Stage (refreshPlan c) k (refreshSettled c k) (refreshed c k) :=
      Stage.closing _ [] (by simp [refreshPlan])
    have hout := (hstage.outside (refreshPlan_sound c) (guarded_refreshSettled hc k)).1
    have himp : ∀ r, (refreshPlan c).rules r = true → ownsRule (m.configs c) r = true :=
      refreshPlan_rules_owned hc (m.mem_configs_self c)
    rw [filter_not_of_imp himp, hout, ← filter_not_of_imp himp]
  routes := by
    intro b
    have hd := compiled_desiredFrom hc k
    have hown : ownsRoute (m.configs c) b = inTables c b := by
      rw [Bool.eq_iff_iff, ownsRoute_iff]
      constructor
      · rintro ⟨c', hc', hin⟩
        obtain rfl : c' = c := by simpa [Manager.configs, ha, hac] using hc'
        exact hin
      · exact fun hin => ⟨c, m.mem_configs_self c, hin⟩
    rw [hown, refreshed, Kernel.deleteRules_routes]
    cases hin : inTables c b with
    | true =>
      rw [refreshSettled_tables hc (steady_vpnTable hm hc ha hac hsteady) hin]
      simp
    | false =>
      have hnot := fun h => Bool.eq_false_iff.mp hin (inTables_iff.mpr h)
      rw [mem_refreshSettled_routes]
      constructor
      · rintro (hs | ⟨hb, -⟩)
        · exact .inr (.inl hs)
        · exact .inr (.inr ⟨hb, rfl⟩)
      · rintro (hv | hs | ⟨hb, -⟩)
        · obtain ⟨hfam, ht⟩ := hd.vpnRoutes_in hv
          exact absurd ⟨hfam, .inl ht⟩ hnot
        · exact .inl hs
        · refine .inr ⟨hb, ?_⟩
          rw [← Bool.not_eq_true, inSafeTable, Bool.and_eq_true, beq_iff_eq]
          exact fun h => hnot ⟨h.1, .inr h.2⟩

end Steady

/-! ## Transition safety -/

/-- An operation is safe in every state it visits if its stages are. -/
theorem safeAt_visited {settled full final : Kernel} {p : Packet} {P : Plan} {m m' : Manager}
    {prog : AdapterProg Outcome} (hstage : ∀ x, Stage P k settled x → SafeAt configs k full p x)
    (hfinal : final = settled.deleteRules P.removed)
    (hwp : wp adapter (fun _ x => Stage P k settled x) (Change P k settled m m' final) prog k)
    {tr : List (Event AdapterCall Kernel)} {out : Outcome} {k' : Kernel}
    (hex : Exec adapter prog k tr out k') :
    ∀ x ∈ visited tr k', SafeAt configs k full p x := by
  have hsafe : wp adapter (fun _ x => SafeAt configs k full p x)
      (fun _ x => SafeAt configs k full p x) prog k := by
    refine wp_mono (fun _ x hx => hstage x hx) (fun _ x hx => ?_) hwp
    cases hx with
    | refused => exact hstage _ (stage_start _ _ _)
    | failed _ hx => exact hstage _ hx
    | done => exact hstage _ (hfinal ▸ Stage.closing _ [] (by simp))
  exact visited_of_wp hex hsafe fun h => h

/-- Over a steady kernel, in every state that `Apply` or `Refresh` visits, whatever
    calls fail, a packet that is not bypassed is decided as before, as by the new
    state, or dropped; while a table is neither old nor new it is dropped, or
    decided as before by a rule that is tried ahead of the guards. -/
theorem transition_safe (m : Manager) (hm : m.Good) (c : Config) (hc : c.Valid) (k : Kernel)
    (hsteady : Steady m c k) (op : Operation)
    (hop : op = .apply c ∨ (op = .refresh ∧ ∀ a, m.applied = some a → a.config = c))
    (p : Packet) (hp : ∀ c' ∈ m.configs c, appBypass c' p = false)
    (hapart : OutsideApart (m.configs c) k p) (tr : List (Event AdapterCall Kernel))
    (out : Outcome) (k' : Kernel) (hex : Exec adapter (m.perform op) k tr out k') :
    ∀ x ∈ visited tr k', SafeAt (m.configs c) k (m.installed c k) p x := by
  have hvalid : ∀ c' ∈ m.configs c, c'.Valid := fun c' => Manager.configs_valid hm hc
  have hd := compiled_desiredFrom hc k
  have hfull := fullyInstalled_installed m hc k
  have hk : ∀ r ∈ k.rules, ownsRule (m.configs c) r = true → CompiledFor (m.configs c) r :=
    fun r hr hown => compiledFor_applied hm c (hsteady.block r hr hown)
  have hstart : SafeAt (m.configs c) k (m.installed c k) p k :=
    ⟨.inl rfl, fun ⟨_, _, _, _, _, hold, _⟩ => absurd (fun _ _ _ => Iff.rfl) hold⟩
  have hrefused : ∀ e, m.perform op = .ret (m, some e) →
      ∀ x ∈ visited tr k', SafeAt (m.configs c) k (m.installed c k) p x := by
    intro e he
    rw [he] at hex
    cases hex
    simpa [visited] using hstart
  rcases hop with rfl | ⟨rfl, happlied⟩
  · by_cases hopen : m.closed = true
    · obtain ⟨e, he, -⟩ := Manager.apply_refused c (.inl hopen)
      exact hrefused e he
    · rw [Bool.not_eq_true] at hopen
      refine safeAt_visited (fun x hx => ?_) rfl (Manager.wp_apply hm hopen hc k) hex
      exact safeAt_stage hvalid (Manager.plan_sound hm hd) hp hapart hk
        (fun r hr => compiledFor_of_mem hd (m.mem_configs_self c) hr)
        (fun c' hc' hf => mem_transitionGuards.mpr
          ⟨c', hc', p.family, mem_familyConstants.mpr hf, rfl⟩)
        (fun _ h => h) (fun _ h => h) hd (fullyInstalled_reconciled hm hc hsteady) hfull hx
  · by_cases hrefuse : m.closed = true ∨ m.applied = none
    · obtain ⟨e, he, -⟩ := Manager.refresh_refused hrefuse
      exact hrefused e he
    · rw [not_or, Bool.not_eq_true] at hrefuse
      obtain ⟨a, ha⟩ := Option.ne_none_iff_exists'.mp hrefuse.2
      obtain rfl := happlied a ha
      rw [Manager.perform, Manager.refresh_eq hrefuse.1 ha] at hex
      have hconfigs : ∀ c' ∈ m.configs a.config, c' = a.config := by
        intro c' hc'
        simpa [Manager.configs, ha] using hc'
      refine safeAt_visited (fun x hx => ?_) rfl (Manager.wp_refreshLocked m hc k) hex
      refine safeAt_stage hvalid (refreshPlan_sound a.config) hp hapart hk
        (fun r hr => absurd hr not_mem_nil) ?_
        (refreshPlan_rules_owned hc (m.mem_configs_self a.config))
        (refreshPlan_routes_owned (m.mem_configs_self a.config)) hd
        (fullyInstalled_refreshed hm hc ha rfl hsteady) hfull hx
      intro c' hc' hf
      rw [hconfigs c' hc'] at hf ⊢
      exact mem_configGuards.mpr ⟨p.family, mem_familyConstants.mpr hf, rfl⟩

/-- A config with two IPv4 routes in its VPN table. -/
def splitConfig : Config :=
  { sampleConfig with sourceRoutes := [⟨⟨.v4 0x0a000000, 9, rfl, by decide⟩, .v4 0x0a000001⟩] }

/-- An unmarked IPv4 packet that every route leads to. -/
def plainPacket : Packet := ⟨afInet, 0, fun _ => true⟩

/-- An `Apply` that fails after the first VPN route. -/
def splitRun (k : Kernel) : List (Event AdapterCall Kernel) × Outcome × Kernel :=
  run Kernel.act (freshManager.apply splitConfig)
    (List.replicate 10 none ++ [some (.other "busy")]) k

/-- A kernel whose local table is looked up first. -/
def localKernel : Kernel :=
  (Kernel.empty.addRule ⟨afInet, 0, .lookup, rtTableLocal, 0, 0⟩).replaceRoute
    { vpnRoute splitConfig afInet (familyDefaultPrefix afInet) .zero with table := rtTableLocal }

/-- The same kernel under a manager that has applied a config. -/
def steadyKernel : Kernel :=
  (localKernel.addRules sampleManager.appliedRules).replaceRoutes
    (desiredFrom sampleConfig Kernel.empty).vpnRoutes

/-- A config whose block overlaps that of the applied one. -/
def movedConfig : Config := { splitConfig with priorityBase := 10004 }

theorem movedConfig_valid : movedConfig.Valid := ⟨rfl, by decide⟩

theorem steady_steadyKernel : Steady sampleManager movedConfig steadyKernel := by
  have hold : ∀ a ∈ steadyKernel.routes, inTables sampleConfig a = true →
      a ∈ (desiredFrom sampleConfig Kernel.empty).vpnRoutes ∨
        a ∈ (desiredFrom sampleConfig Kernel.empty).safeRoutes := by decide +kernel
  have hnew : ∀ a ∈ (desiredFrom sampleConfig Kernel.empty).vpnRoutes ++
      (desiredFrom sampleConfig Kernel.empty).safeRoutes, a ∈ steadyKernel.routes := by
    decide +kernel
  refine ⟨by decide +kernel, by decide +kernel, ?_⟩
  rintro d ⟨⟩ a hin
  exact ⟨fun ha => hold a ha hin, fun ha => hnew a (mem_append.mpr ha)⟩

/-- The `Apply` fails with the VPN table empty. -/
def movedRun : List (Event AdapterCall Kernel) × Outcome × Kernel :=
  run Kernel.act (sampleManager.apply movedConfig)
    (List.replicate 13 none ++ [some (.other "busy")]) steadyKernel

theorem transition_safe_overlap :
    guardActive movedRun.2.1.2 = true ∧ ∀ x ∈ visited movedRun.1 movedRun.2.2,
      SafeAt (sampleManager.configs movedConfig) steadyKernel
        (sampleManager.installed movedConfig steadyKernel) plainPacket x := by
  refine ⟨by decide +kernel, transition_safe sampleManager sampleManager_good movedConfig
    movedConfig_valid steadyKernel steady_steadyKernel (.apply movedConfig) (.inl rfl) plainPacket
    (by decide) ?_ _ _ _ (run_exec Kernel.act _ _ _)⟩
  -- the rule of the other owner is the only one outside, and its table is not owned
  have houtside : ∀ r ∈ steadyKernel.rules,
      ownsRule (sampleManager.configs movedConfig) r = false → r.table = rtTableLocal := by
    decide +kernel
  have hlocal : ∀ c ∈ sampleManager.configs movedConfig,
      rtTableLocal ≠ c.vpnTable ∧ rtTableLocal ≠ c.safeTable := by decide
  intro r hr hown _ _ _ a _ htable
  rw [houtside r hr hown] at htable
  rw [Bool.eq_false_iff]
  intro howns
  obtain ⟨c, hc, hin⟩ := ownsRoute_iff.mp howns
  have hne := hlocal c hc
  rw [← htable] at hne
  exact (inTables_iff.mp hin).2.elim hne.1 hne.2

/-- A kernel with a rule of another owner for the VPN table, ahead of the block. -/
def borrowedKernel : Kernel :=
  Kernel.empty.addRule ⟨afInet, 5, .lookup, splitConfig.vpnTable, 0, 0⟩

/-- Rules outside the blocks and ahead of the guards decide while a table is neither
    old nor new; those that look up an owned table decide by what is in it. -/
theorem transition_outside_rules :
    (Steady freshManager splitConfig localKernel ∧
      appBypass splitConfig plainPacket = false ∧
      ∃ x ∈ visited (splitRun localKernel).1 (splitRun localKernel).2.2,
        Halfway (freshManager.configs splitConfig) afInet localKernel
          (freshManager.installed splitConfig localKernel) x ∧
        x.decision plainPacket ≠ some .drop) ∧
    (Steady freshManager splitConfig borrowedKernel ∧
      ∃ x ∈ visited (splitRun borrowedKernel).1 (splitRun borrowedKernel).2.2,
        x.decision plainPacket ≠ borrowedKernel.decision plainPacket ∧
        x.decision plainPacket ≠
          (freshManager.installed splitConfig borrowedKernel).decision plainPacket ∧
        x.decision plainPacket ≠ some .drop) := by
  have hlast : ∀ k : Kernel, (splitRun k).2.2 ∈ visited (splitRun k).1 (splitRun k).2.2 := by
    intro k
    simp [visited]
  refine ⟨⟨⟨by decide, by decide, fun d hd => by cases hd⟩, by decide, _, hlast _, ?_,
    by decide +kernel⟩, ⟨by decide, by decide, fun d hd => by cases hd⟩, _, hlast _, ?_⟩
  · refine ⟨splitConfig, by decide, rfl, splitConfig.vpnTable, .inl rfl, ?_, ?_⟩
    · intro hsame
      have hroute := hsame (vpnRoute splitConfig afInet (familyDefaultPrefix afInet)
        (defaultRouteSource afInet splitConfig.sourceRoutes)) rfl rfl
      revert hroute
      decide +kernel
    · intro hsame
      have hroute := hsame (vpnRoute splitConfig afInet ⟨.v4 0x0a000000, 9, rfl, by decide⟩
        (.v4 0x0a000001)) rfl rfl
      revert hroute
      decide +kernel
  · decide +kernel

end SysnetLinux.Routing
