/-
  SysnetLinux.DefaultTun.Strict

  A strict default TUN while its addresses and routes are updated.

  All configs of an update share the block, the tables and the marks.  As long as no adapter call
  fails, each state of the kernel holds a rule of the block that drops every packet of the family,
  with no rule of the block ahead of it that leads anywhere but to the VPN table.  A failed
  `Apply` is compensated by `Rollback`, which takes the whole block away.
-/

import SysnetLinux.DefaultTun.World
import SysnetLinux.Routing.Window

namespace SysnetLinux.DefaultTun

open Netip Routing CallProg CallProg.Prog List

/-! ## The rules of a strict config -/

section Strict

variable {c : Config} {f : Int}

variable {r : Rule}

/-- The policy rules of a strict config drop or look up the VPN table. -/
theorem strict_policyRules (hs : c.strictness = .strict) (hr : r ∈ policyRules c f) :
    r.action = .unreachable ∨ r.table = c.vpnTable := by
  unfold policyRules at hr
  split at hr
  · obtain rfl := mem_singleton.mp hr
    exact .inl rfl
  · rw [hs] at hr
    cases hmode : c.mode with
    | modeExclude =>
      simp only [hmode, mem_cons, not_mem_nil, or_false] at hr
      rcases hr with rfl | rfl | rfl
      · exact .inl rfl
      · exact .inr rfl
      · exact .inl rfl
    | modeInclude =>
      simp only [hmode, mem_cons, not_mem_nil, or_false] at hr
      rcases hr with rfl | rfl | rfl
      · exact .inr rfl
      · exact .inl rfl
      · exact .inl rfl
    | other n =>
      simp only [hmode] at hr
      cases hr

theorem exists_numbered {rules : List Rule} (hr : r ∈ rules) (n : Int) :
    ∃ priority, { r with priority := priority } ∈ numberRules n rules := by
  induction rules generalizing n with
  | nil => cases hr
  | cons a rules ih =>
    rcases mem_cons.mp hr with rfl | hr
    · exact ⟨n, mem_cons_self⟩
    · obtain ⟨priority, hmem⟩ := ih hr (intAdd n 1)
      exact ⟨priority, mem_cons_of_mem _ hmem⟩

/-- A strict policy ends in a rule that drops every packet of the family. -/
theorem strict_last (hc : c.Valid) (hs : c.strictness = .strict) (f : Int) :
    allRule f .unreachable 0 ∈ policyRules c f := by
  unfold policyRules
  split
  · exact mem_cons_self
  · rw [hs]
    rcases hc.checked.mode_known with hmode | hmode
    · rw [hmode]
      simp
    · rw [hmode]
      simp

/-- A rule of the block that stops every packet of its family. -/
structure Stops (c : Config) (f : Int) (r : Rule) : Prop where
  block : inBlock c r = true
  drops : r.action = .unreachable
  family : r.family = f
  every : r.mark = 0 ∧ r.mask = 0

theorem exists_stops (hc : c.Valid) (hs : c.strictness = .strict)
    (hf : familyEnabled c.families f = true) : ∃ r ∈ compileRules c f, Stops c f r := by
  obtain ⟨priority, hmem⟩ := exists_numbered (strict_last hc hs f)
    (intAdd c.priorityBase ruleOffsetUserFirst)
  have hrule := mem_append_right (appRules c f) hmem
  obtain ⟨hlo, hhi, -⟩ := compileRules_priority hc hrule
  exact ⟨_, hrule, inBlock_iff.mpr ⟨hf, hlo, hhi⟩, rfl, rfl, rfl, rfl⟩

theorem stops_transitionGuard (hc : c.Valid) (hf : f ∈ familyConstants c.families) :
    Stops c f (transitionGuard c f) :=
  ⟨inBlock_transitionGuard hc hf, rfl, rfl, rfl, rfl⟩

theorem Stops.verdict {p : Packet} (h : Stops c p.family r) (routes : List Route) :
    verdict routes p r = some .drop := by
  refine verdict_unreachable ?_ h.drops
  rw [Rule.applies, h.family, h.every.1, h.every.2, selects_zero, beq_self_eq_true, Bool.and_self]

/-- What a rule of a strict config says about a packet outside the app bypass. -/
theorem strict_verdict (hc : c.Valid) (hs : c.strictness = .strict) {p : Packet}
    (hp : appBypass c p = false) (hr : r ∈ c.ownRules) (routes : List Route) :
    verdict routes p r = none ∨ verdict routes p r = some .drop ∨
      ∃ via, verdict routes p r = some (.lookup c.vpnTable via) := by
  have hdrop : r.action = .unreachable → verdict routes p r = none ∨
      verdict routes p r = some .drop ∨ ∃ via, verdict routes p r = some (.lookup c.vpnTable via) :=
    fun hact => (verdict_unreachable_or hact).imp_right .inl
  rcases (mem_ownRules hc).mp hr with hg | ⟨-, hr⟩
  · obtain ⟨f, -, rfl⟩ := mem_configGuards.mp hg
    exact hdrop rfl
  · rcases mem_append.mp hr with happ | hnum
    · -- the selector of these rules does not take the packet
      left
      apply verdict_of_not_applies
      rw [appRules_eq hc] at happ
      simp only [mem_cons, not_mem_nil, or_false] at happ
      have hsel : selects c.appBypassMark c.appBypassMask p.mark = false := hp
      rcases happ with heq | heq
      · rw [heq]
        simp [Rule.applies, hsel]
      · rw [heq]
        simp [Rule.applies, hsel]
    · obtain ⟨⟨r', hr', heq⟩, -⟩ := numbered_priority hc hnum
      rw [heq] at hdrop ⊢
      rcases strict_policyRules hs hr' with hact | htable
      · exact hdrop hact
      · unfold verdict
        split
        · cases hact : r'.action with
          | unreachable => exact .inr (.inl rfl)
          | lookup =>
            show lookupIn routes p r'.table = none ∨ _
            unfold lookupIn
            split
            · exact .inl rfl
            · exact .inr (.inr ⟨_, by rw [htable]⟩)
        · exact .inl rfl

end Strict

/-! ## Variants of the built config -/

/-- The configs of one strict default TUN: they differ in the families carried. -/
def Variant (rc c : Config) : Prop := ∃ t, c = { rc with tunnelFamilies := t }

/-- The config of a strict default TUN. -/
structure StrictConfig (rc : Config) : Prop where
  valid : rc.Valid
  strict : rc.strictness = .strict
  families : rc.families = bothFamilies

section Variant

variable {rc c : Config}

theorem Variant.refl (rc : Config) : Variant rc rc := ⟨rc.tunnelFamilies, rfl⟩

section

variable (hrc : StrictConfig rc) (h : Variant rc c)
include hrc h

theorem Variant.update (addrs routes : List Prefix) :
    Variant rc (setDefaultTunRoutingFamilies c addrs routes) := by
  obtain ⟨t, rfl⟩ := h
  refine ⟨routeFamilies addrs routes, ?_⟩
  simp only [setDefaultTunRoutingFamilies, hrc.strict, hrc.families, if_true]

theorem Variant.fits : c.Fits := by
  obtain ⟨t, rfl⟩ := h
  exact hrc.valid.fits

theorem Variant.strict : c.strictness = .strict := by
  obtain ⟨t, rfl⟩ := h
  exact hrc.strict

end

theorem Variant.vpnTable (h : Variant rc c) : c.vpnTable = rc.vpnTable := by
  obtain ⟨t, rfl⟩ := h
  rfl

theorem Variant.families (h : Variant rc c) : c.families = rc.families := by
  obtain ⟨t, rfl⟩ := h
  rfl

theorem Variant.inBlock (h : Variant rc c) (r : Rule) : inBlock c r = Routing.inBlock rc r := by
  obtain ⟨t, rfl⟩ := h
  rfl

theorem Variant.inTables (h : Variant rc c) (a : Route) : inTables c a = Routing.inTables rc a := by
  obtain ⟨t, rfl⟩ := h
  rfl

theorem Variant.appBypass (h : Variant rc c) (p : Packet) :
    appBypass c p = Routing.appBypass rc p := by
  obtain ⟨t, rfl⟩ := h
  rfl

end Variant

/-! ## Contained packets -/

/-- The packet is dropped or goes by the VPN table, unless a rule from outside
    that is tried ahead of the block decides. -/
def Contained (rc : Config) (start : Kernel) (p : Packet) (x : Kernel) : Prop :=
  x.decision p = some .drop ∨ (∃ via, x.decision p = some (.lookup rc.vpnTable via)) ∨
    ∃ r ∈ start.rules, r.priority < rc.priorityBase ∧ x.decision p = verdict x.routes p r

/-- A contained packet goes by the main table only if a rule from outside ahead of
    the block sends it there. -/
theorem Contained.not_main {rc : Config} (hrc : rc.Valid) {start : Kernel} {p : Packet}
    {x : Kernel} (h : Contained rc start p x)
    (hahead : ∀ r ∈ start.rules, r.priority < rc.priorityBase → r.applies p = true →
      r.table ≠ rtTableMain)
    (via : Finset Route) : x.decision p ≠ some (.lookup rtTableMain via) := by
  intro hmain
  rcases h with hdrop | ⟨via', hvpn⟩ | ⟨r, hr, hprio, hdec⟩
  · rw [hdrop] at hmain
    cases hmain
  · rw [hvpn] at hmain
    have htable : rc.vpnTable = rtTableMain := (Decision.lookup.inj (Option.some.inj hmain)).1
    have hfree := hrc.checked.vpn_free
    rw [htable] at hfree
    cases hfree
  · rw [hdec] at hmain
    have happ : r.applies p = true := by
      by_contra hno
      rw [verdict_of_not_applies (by simpa using hno)] at hmain
      cases hmain
    exact hahead r hr hprio happ (table_of_verdict hmain)

/-- Every rule was there at the start or belongs to a variant. -/
def FromVariants (rc : Config) (start x : Kernel) : Prop :=
  ∀ r ∈ x.rules, r ∈ start.rules ∨ ∃ c, Variant rc c ∧ c.Valid ∧ r ∈ c.ownRules

section Contained

variable {rc : Config} {start : Kernel} {p : Packet} (hrc : StrictConfig rc)
  (hfree : ∀ r ∈ start.rules, inBlock rc r = false) (hp : appBypass rc p = false)
  (hfam : familyEnabled bothFamilies p.family = true)
include hrc hfree hp hfam

/-- A stop among rules from outside and rules of variants contains the packet. -/
theorem contained_of_stops {x : Kernel} (hfrom : FromVariants rc start x)
    (hstop : ∃ g ∈ x.rules, Stops rc p.family g) : Contained rc start p x := by
  obtain ⟨g, hg, hstops⟩ := hstop
  have hdrop := hstops.verdict x.routes
  obtain ⟨r, hr, hprio, hsays, hdec⟩ :=
    FirstMatch.findSome?_upTo (f := verdict x.routes p) x.ordered hg (by simp [hdrop])
  have hdec' : x.decision p = verdict x.routes p r := hdec
  rcases hfrom r hr with hstart | ⟨c, hvar, hc, hown⟩
  · -- a rule from outside stands before the block, not in it
    refine .inr (.inr ⟨r, hstart, ?_, hdec'⟩)
    have hhi := (inBlock_iff.mp hstops.block).2.2
    have hout : ¬ (familyEnabled rc.families r.family = true ∧ rc.priorityBase ≤ r.priority ∧
        r.priority < rc.priorityBase + rc.prioritySpan) := by
      rw [← inBlock_iff]
      simp [hfree r hstart]
    have happ : r.applies p = true := by
      by_contra hno
      exact hsays (verdict_of_not_applies (by simpa using hno))
    rw [family_of_applies happ, hrc.families] at hout
    simp only [hfam, true_and] at hout
    omega
  · have hsay := strict_verdict hc (hvar.strict hrc) ((hvar.appBypass p).trans hp) hown x.routes
    rcases hsay with hnone | hsay
    · exact absurd hnone hsays
    · rw [← hdec', hvar.vpnTable] at hsay
      exact hsay.imp_right .inl

end Contained

/-! ## Between the operations of the manager -/

/-- A variant is applied: its rules stand, and beside them only its guards and what
    was there at the start. -/
structure Resting (rc : Config) (start : Kernel) (m : Manager) (rules : List Rule) : Prop where
  good : m.Good
  applied : ∃ d, m.applied = some d ∧ Variant rc d.config ∧
    (∀ r ∈ rules, r ∈ start.rules ∨ r ∈ d.config.ownRules) ∧ ∀ r ∈ d.rules, r ∈ rules

section Resting

variable {rc : Config} {start : Kernel} {m : Manager} {k : Kernel} (hrc : StrictConfig rc)

variable {c : Config} {f : Int}

theorem mem_families (hrc : StrictConfig rc) (hvar : Variant rc c)
    (hf : familyEnabled bothFamilies f = true) : f ∈ familyConstants c.families := by
  rw [hvar.families, hrc.families]
  exact mem_familyConstants.mpr hf

theorem Resting.fromVariants (h : Resting rc start m k.rules) : FromVariants rc start k := by
  obtain ⟨d, hd, hvar, hrules, -⟩ := h.applied
  intro r hr
  exact (hrules r hr).imp_right fun hown => ⟨d.config, hvar, (h.good d hd).valid, hown⟩

theorem Variant.stops (hvar : Variant rc c) {r : Rule} (h : Stops c f r) : Stops rc f r :=
  ⟨hvar.inBlock r ▸ h.block, h.drops, h.family, h.every⟩

include hrc

/-- The applied policy ends in a stop. -/
theorem Resting.stops (h : Resting rc start m k.rules) (hf : familyEnabled bothFamilies f = true) :
    ∃ g ∈ k.rules, Stops rc f g := by
  obtain ⟨d, hd, hvar, -, hcomplete⟩ := h.applied
  have hfam := mem_familyConstants.mp (mem_families hrc hvar hf)
  obtain ⟨g, hg, hstops⟩ := exists_stops (h.good d hd).valid (hvar.strict hrc) hfam
  refine ⟨g, hcomplete g ((h.good d hd).mem_rules.mpr ?_), hvar.stops hstops⟩
  rw [hstops.family]
  exact ⟨hfam, hg⟩

/-- Every stage of an `Apply` of a variant holds a stop among rules of variants. -/
theorem Resting.stage (h : Resting rc start m k.rules) (hc : c.Valid) (hvar : Variant rc c)
    {x : Kernel} (hx : Stage (m.plan (desiredFrom c k)) k (m.settled (desiredFrom c k) k) x)
    (hf : familyEnabled bothFamilies f = true) :
    FromVariants rc start x ∧ ∃ g ∈ x.rules, Stops rc f g := by
  obtain ⟨a, ha, hvarA, -, -⟩ := h.applied
  have hd := compiled_desiredFrom hc k
  have hconfigs : ∀ b ∈ m.configs c, Variant rc b ∧ b.Valid := by
    intro b hb
    refine ⟨?_, Manager.configs_valid h.good hc hb⟩
    rw [m.configs_eq] at hb
    rcases mem_cons.mp hb with rfl | hb
    · exact hvar
    · obtain ⟨a', ha', rfl⟩ := Manager.mem_appliedConfigs.mp hb
      rw [ha] at ha'
      cases ha'
      exact hvarA
  constructor
  · intro r hr
    rcases hx.rules_from (Manager.guarded_settled h.good hd k) hr with hk | hg | hnew
    · exact h.fromVariants r hk
    · obtain ⟨b, hb, hg⟩ := mem_transitionGuards_configs.mp hg
      exact .inr ⟨b, (hconfigs b hb).1, (hconfigs b hb).2, mem_append_left _ hg⟩
    · exact .inr ⟨c, hvar, hc, hd.mem_ownRules hnew⟩
  · cases hx with
    | opening done rest hsplit =>
      -- the applied policy still stands
      obtain ⟨g, hg, hstops⟩ := h.stops hrc hf
      exact ⟨g, Kernel.mem_addRules.mpr (.inr hg), hstops⟩
    | guarded hguarded =>
      have hfam := mem_families hrc hvar hf
      have hmem : transitionGuard c f ∈ m.guards (desiredFrom c k) :=
        mem_transitionGuards.mpr ⟨c, m.mem_configs_self c, f, hfam, rfl⟩
      exact ⟨_, hguarded.guards_mem _ hmem, hvar.stops (stops_transitionGuard hc hfam)⟩
    | closing done rest hsplit =>
      -- the new policy stands, and only guards come out
      have hfam := mem_familyConstants.mp (mem_families hrc hvar hf)
      obtain ⟨g, hg, hstops⟩ := exists_stops hc (hvar.strict hrc) hfam
      have hnew : g ∈ (desiredFrom c k).rules := by
        refine hd.mem_rules.mpr ?_
        rw [hstops.family]
        exact ⟨hfam, hg⟩
      have hremoved : ∀ r ∈ done, r ∈ (m.plan (desiredFrom c k)).removed :=
        fun r hr => hsplit ▸ mem_append_left rest hr
      refine ⟨g, ?_, hvar.stops hstops⟩
      refine (Kernel.mem_deleteRules_unreachable fun r hr =>
        transitionGuard_action (mem_filter.mp (hremoved r hr)).1).mpr ⟨?_, ?_⟩
      · intro hdone
        have hout := (mem_filter.mp (hremoved g hdone)).2
        exact of_decide_eq_true hout hnew
      · exact Kernel.mem_addRules.mpr (.inl hnew)

omit hrc in
/-- After an `Apply` that returns nil over a tracked kernel, its config is applied. -/
theorem resting_reconciled (hm : m.Good) (hc : c.Valid) (hvar : Variant rc c)
    (hfree : Free (m.configs c) start) (htracked : Tracked start m.appliedConfigs k) :
    Resting rc start { m with applied := some (desiredFrom c k) }
      (m.reconciled (desiredFrom c k) k).rules := by
  have hd := compiled_desiredFrom hc k
  have htracked' : Tracked start (m.appliedConfigs ++ []) k := by
    rw [append_nil]
    exact htracked
  have hfrom := (htracked'.reconciled hm hc hfree ⟨by simp, by simp⟩ (by
    intro b hb
    cases hb)).1
  refine ⟨?_, desiredFrom c k, rfl, hvar, ?_, ?_⟩
  · rintro d ⟨⟩
    exact hd
  · intro r hr
    exact (hfrom r hr).imp_right fun hnew => hd.mem_ownRules hnew
  · intro r hr
    exact (mem_reconciled hm hd).mpr (.inl hr)

omit hrc in
/-- After an `Apply` that returns nil, the new variant is applied. -/
theorem Resting.reconciled (h : Resting rc start m k.rules)
    (hfree : ∀ r ∈ start.rules, inBlock rc r = false) (hc : c.Valid) (hvar : Variant rc c) :
    Resting rc start { m with applied := some (desiredFrom c k) }
      (m.reconciled (desiredFrom c k) k).rules := by
  obtain ⟨a, ha, hvarA, hrules, -⟩ := h.applied
  have happlied : m.appliedConfigs = [a.config] := by simp [Manager.appliedConfigs, ha]
  have htables : ∀ b ∈ m.configs c, ∀ x, inTables b x = inTables a.config x := by
    intro b hb x
    rw [m.configs_eq, happlied] at hb
    simp only [mem_cons, not_mem_nil, or_false] at hb
    rcases hb with rfl | rfl
    · rw [hvar.inTables, hvarA.inTables]
    · rfl
  -- the rules are tracked from a start whose routes are those nobody owns
  let outside : Kernel :=
    { start with
      routes := k.routes.filter fun x => !ownsRoute (m.configs c) x
      routes_nodup := k.routes_nodup.filter _ }
  have htracked : Tracked outside m.appliedConfigs k := by
    rw [happlied]
    refine ⟨fun r hr => (hrules r hr).imp_right fun hown => ⟨a.config, by simp, hown⟩, ?_⟩
    intro x hx
    cases hown : ownsRoute (m.configs c) x with
    | false => exact .inl (mem_filter.mpr ⟨hx, by simp [hown]⟩)
    | true =>
      obtain ⟨b, hb, hin⟩ := ownsRoute_iff.mp hown
      exact .inr ⟨a.config, by simp, htables b hb x ▸ hin⟩
  have houtside : Free (m.configs c) outside := by
    intro b hb
    refine ⟨fun r hr => ?_, fun x hx => ?_⟩
    · rw [m.configs_eq, happlied] at hb
      simp only [mem_cons, not_mem_nil, or_false] at hb
      rcases hb with rfl | rfl
      · rw [hvar.inBlock]
        exact hfree r hr
      · rw [hvarA.inBlock]
        exact hfree r hr
    · have hno := (mem_filter.mp hx).2
      rw [Bool.not_eq_true', Bool.eq_false_iff] at hno
      exact Bool.eq_false_iff.mpr fun hin => hno (ownsRoute_iff.mpr ⟨b, hb, hin⟩)
  have hrest : Resting rc outside _ _ := resting_reconciled h.good hc hvar houtside htracked
  exact ⟨hrest.good, hrest.applied⟩

end Resting

/-! ## The calls of an update -/

/-- No adapter call has failed so far. -/
def Live.Quiet (w : Live) : Prop := ∀ e ∈ w.passed, e.2 = false

/-- As long as no adapter call has failed, a variant is applied and the packet was
    contained in every state passed. -/
def Guarding (rc : Config) (start : Kernel) (p : Packet) (w : Live) : Prop :=
  w.Quiet → Resting rc start w.manager w.kernel.rules ∧
    ∀ e ∈ w.passed, Contained rc start p e.1

/-- The manager makes no call for the config. -/
def Refused (m : Manager) (c : Config) : Prop := m.closed = true ∨ c.validate ≠ .ok ()

section Guarding

variable {rc : Config} {start : Kernel} {p : Packet} (hrc : StrictConfig rc)
  (hfree : ∀ r ∈ start.rules, inBlock rc r = false) (hp : appBypass rc p = false)
  (hfam : familyEnabled bothFamilies p.family = true)

variable {w w' : Live} {c : SystemCall} {r : Except CallError (SystemReply c)} {K : Live → Prop}
    {state : TunState} {restore : SystemProg (List CallError)}

theorem Live.Quiet.of_append {l : List (Kernel × Bool)} (hpassed : w'.passed = w.passed ++ l)
    (h : w'.Quiet) : w.Quiet ∧ ∀ e ∈ l, e.2 = false := by
  constructor
  · exact fun e he => h e (hpassed ▸ mem_append_left l he)
  · exact fun e he => h e (hpassed ▸ mem_append_right w.passed he)

/-- The states an operation passes. -/
theorem Guarding.after (h : Guarding rc start p w) {tr : List (Event AdapterCall Kernel)}
    {m : Manager} {k : Kernel}
    (hvisited : Resting rc start w.manager w.kernel.rules → ∀ x ∈ visited tr k,
      Contained rc start p x)
    (hrest : Resting rc start w.manager w.kernel.rules → (∀ ev ∈ tr, ev.failed = false) →
      Resting rc start m k.rules) :
    Guarding rc start p (w.after tr m k) := by
  intro hquiet
  have happend : (w.after tr m k).passed =
      w.passed ++ (tr.map (fun ev => (ev.before, ev.failed)) ++ [(k, false)]) :=
    append_assoc _ _ _
  obtain ⟨hbefore, hnew⟩ := hquiet.of_append happend
  obtain ⟨hrest₀, hpassed⟩ := h hbefore
  have hok : ∀ ev ∈ tr, ev.failed = false := fun ev hev =>
    hnew (ev.before, ev.failed) (mem_append_left _ (mem_map_of_mem hev))
  refine ⟨hrest hrest₀ hok, fun e he => ?_⟩
  rw [happend] at he
  rcases mem_append.mp he with he | he
  · exact hpassed e he
  · refine hvisited hrest₀ e.1 ?_
    rcases mem_append.mp he with he | he
    · obtain ⟨ev, hev, rfl⟩ := mem_map.mp he
      exact mem_append_left _ (mem_map_of_mem hev)
    · rw [mem_singleton.mp he]
      exact mem_append_right _ mem_cons_self

include hrc hfree hp hfam

theorem Resting.contained {m : Manager} {k : Kernel} (h : Resting rc start m k.rules) :
    Contained rc start p k :=
  contained_of_stops hrc hfree hp hfam h.fromVariants (h.stops hrc hfam)

section

variable (h : Guarding rc start p w)
include h

theorem Guarding.configured (hcall : Live.Configured c w r w') : Guarding rc start p w' := by
  intro hquiet
  obtain ⟨hrest, hpassed⟩ := h (hquiet.of_append hcall.passed).1
  have hrest' : Resting rc start w'.manager w'.kernel.rules := by
    rw [hcall.manager, hcall.rules]
    exact hrest
  refine ⟨hrest', fun e he => ?_⟩
  rw [hcall.passed] at he
  rcases mem_append.mp he with he | he
  · exact hpassed e he
  · rw [mem_singleton.mp he]
    exact hrest'.contained hrc hfree hp hfam

theorem Guarding.refused : Guarding rc start p (w.after [] w.manager w.kernel) := by
  refine h.after (fun hrest x hx => ?_) fun hrest _ => hrest
  rw [mem_singleton.mp hx]
  exact hrest.contained hrc hfree hp hfam

/-- `Apply` of a variant: it succeeds or is refused. -/
theorem Guarding.apply {r : Except CallError Unit} {c : Config} (hvar : Variant rc c)
    (hcall : Managed (w.manager.apply c) w r w') :
    Guarding rc start p w' ∧ (w'.Quiet → r ≠ .ok () → Refused w'.manager c) := by
  by_cases hrefused : Refused w.manager c
  · obtain ⟨e, he, -⟩ := Manager.apply_refused c hrefused
    obtain ⟨rfl, rfl⟩ := managed_refused he hcall
    exact ⟨h.refused hrc hfree hp hfam, fun _ _ => hrefused⟩
  · have hparts : w.manager.closed = false ∧ c.validate = .ok () := by
      simpa [Refused, not_or] using hrefused
    have hc : c.Valid := ⟨hparts.2, hvar.fits hrc⟩
    obtain ⟨tr, out, k, hex, rfl, rfl⟩ := hcall
    have hnil : (∀ ev ∈ tr, ev.failed = false) → out.2 = none :=
      (returns_apply hparts.1 hc.accepted).of_exec hex
    constructor
    · refine h.after (fun hrest x hx => ?_) fun hrest hok => ?_
      · have hpasses := passes_of_visited hrest.good (show (Operation.apply c).Valid from hc) hex x hx
        cases hpasses with
        | same => exact hrest.contained hrc hfree hp hfam
        | apply hstage =>
          obtain ⟨hfrom, hstop⟩ := hrest.stage hrc hc hvar hstage hfam
          exact contained_of_stops hrc hfree hp hfam hfrom hstop
        | refresh hop => cases hop
      · have hpair : out = (out.1, none) := Prod.ext rfl (hnil hok)
        rw [hpair] at hex
        obtain ⟨hmanager, hkernel⟩ := apply_done hrest.good hc hex
        rw [hmanager, hkernel]
        exact hrest.reconciled hfree hc hvar
    · intro hquiet hr
      have hok : ∀ ev ∈ tr, ev.failed = false := by
        intro ev hev
        refine hquiet (ev.before, ev.failed) ?_
        exact mem_append_left _ (mem_append_right _ (mem_map_of_mem hev))
      rw [hnil hok] at hr
      exact absurd rfl hr

/-- `Rollback` of a config that is refused. -/
theorem Guarding.rollback {r : Except CallError Unit} {c : Config}
    (hrefused : w.Quiet → Refused w.manager c) (hcall : Managed (w.manager.rollback c) w r w') :
    Guarding rc start p w' := by
  intro hquiet
  obtain ⟨tr, out, k, hex, rfl, hr⟩ := hcall
  have hbefore : w.Quiet := by
    intro e he
    exact hquiet e (mem_append_left _ (mem_append_left _ he))
  obtain ⟨e, he, -⟩ := Manager.rollback_refused c (hrefused hbefore)
  rw [he] at hex
  obtain ⟨rfl, rfl, rfl⟩ := exec_ret_iff.mp hex
  exact h.refused hrc hfree hp hfam hquiet

end

/-- The calls of the configurator. -/
def SystemCall.configures : SystemCall → Bool
  | .apply _ => false
  | .rollback _ => false
  | _ => true

omit hrc hfree hp hfam in
theorem configured_of_live (hc : c.configures = true) (h : live c w r w') :
    Live.Configured c w r w' := by
  cases c with
  | apply config | rollback config => cases hc
  | _ => exact h

omit hrc hfree hp hfam in
/-- What the configurator preserves holds behind its calls. -/
theorem wp_configures {α : Type} {Q : α → Live → Prop}
    (hK : ∀ c w r w', Live.Configured c w r w' → K w → K w') (hc : c.configures = true)
    {next : Except CallError (SystemReply c) → SystemProg α} (h : K w)
    (hnext : ∀ r w', K w' → wp live Any Q (next r) w') :
    wp live Any Q (.call c next) w :=
  ⟨trivial, fun r w' hr => hnext r w' (hK c w r w' (configured_of_live hc hr) h)⟩

omit hrc hfree hp hfam in
theorem wp_joined {Q : List CallError → Live → Prop}
    (h : ∀ r w', live c w r w' → ∀ errs, Q errs w') : wp live Any Q (joining c) w := by
  refine ⟨trivial, fun r w' hr => ?_⟩
  cases r with
  | ok v => exact h _ w' hr []
  | error e => exact h _ w' hr [e]

omit hrc hfree hp hfam in
theorem keeps_joining (hK : ∀ c w r w', Live.Configured c w r w' → K w → K w')
    (hc : c.configures = true) (h : K w) :
    wp live Any (fun _ w' => K w') (joining c) w :=
  wp_joined fun r w' hr _ => hK c w r w' (configured_of_live hc hr) h

omit hrc hfree hp hfam in
theorem keeps_restoreLink (hK : ∀ c w r w', Live.Configured c w r w' → K w → K w') (h : K w)
    (addrs routes : List Prefix) :
    wp live Any (fun _ w' => K w') (restoreDefaultTunLinkLocked addrs routes) w := by
  rw [restoreDefaultTunLinkLocked, collect, wp_bind]
  refine wp_post (fun _ w₁ h₁ => ?_) (keeps_joining hK rfl h)
  rw [collect, wp_bind, wp_bind]
  exact wp_post (fun _ w₂ h₂ => h₂) (keeps_joining hK rfl h₁)

theorem keeps_restoreRouting {oldRC failedRC : Config} (hvar : Variant rc oldRC)
    (h : Guarding rc start p w) (hrefused : w.Quiet → Refused w.manager failedRC) :
    wp live Any (fun _ w' => Guarding rc start p w')
      (restoreDefaultTunRoutingLocked oldRC failedRC) w := by
  rw [restoreDefaultTunRoutingLocked, collect, wp_bind]
  refine wp_joined fun r w₁ hcall _ => ?_
  have h₁ := h.rollback hrc hfree hp hfam hrefused hcall
  rw [collect, wp_bind, wp_bind]
  refine wp_joined fun r w₂ hcall _ => ?_
  exact (h₁.apply hrc hfree hp hfam hvar hcall).1

/-- The recorded config is a variant. -/
def Recorded (rc : Config) (state : TunState) : Prop :=
  ∀ c, state.routingConfig = some c → Variant rc c

/-- What holds when an update returns. -/
def Held (rc : Config) (start : Kernel) (p : Packet) (out : UpdateOutcome) (w : Live) : Prop :=
  Guarding rc start p w ∧ Recorded rc out.1

omit hrc hfree hp hfam in
theorem held_giveUp (hstate : Recorded rc state) {cause : CallError}
    (h : wp live Any (fun _ w' => Guarding rc start p w') restore w) :
    wp live Any (Held rc start p) (giveUp state cause [restore]) w := by
  rw [giveUp, wp_bind, collect, wp_bind]
  refine wp_post (fun _ w' hw' => ?_) h
  exact ⟨hw', hstate⟩

/-- The last part of an update: the manager applies the new config, and whatever
    restores the link comes before the compensation for the routing. -/
theorem held_apply {state' : TunState} {oldRC newRC : Config} (hstate : Recorded rc state)
    (hstate' : Recorded rc state') (hold : Variant rc oldRC) (hnew : Variant rc newRC)
    (hrestore : ∀ K : Live → Prop, (∀ c w r w', Live.Configured c w r w' → K w → K w') →
      ∀ w, K w → wp live Any (fun _ w' => K w') restore w)
    (h : Guarding rc start p w) : wp live Any (Held rc start p) (.call (.apply newRC) fun
      | .error e => giveUp state e [restore, restoreDefaultTunRoutingLocked oldRC newRC]
      | .ok _ => .ret (state', none)) w := by
  refine ⟨trivial, fun r w₁ hcall => ?_⟩
  obtain ⟨h₁, hrefused⟩ := h.apply hrc hfree hp hfam hnew hcall
  cases r with
  | ok v => exact ⟨h₁, hstate'⟩
  | error e =>
    -- without a failed adapter call the manager has refused the new config
    have hkeeps : ∀ c w r w', Live.Configured c w r w' →
        Guarding rc start p w ∧ (w.Quiet → Refused w.manager newRC) →
        Guarding rc start p w' ∧ (w'.Quiet → Refused w'.manager newRC) := by
      rintro c x r x' hx ⟨hguarding, hno⟩
      refine ⟨hguarding.configured hrc hfree hp hfam hx, fun hquiet => ?_⟩
      rw [hx.manager]
      exact hno (hquiet.of_append hx.passed).1
    show wp live Any (Held rc start p)
      (giveUp state e [restore, restoreDefaultTunRoutingLocked oldRC newRC]) w₁
    rw [giveUp, wp_bind, collect, wp_bind]
    refine wp_post (fun _ w₂ hw₂ => ?_) (hrestore _ hkeeps w₁
      ⟨h₁, fun hquiet => hrefused hquiet fun hok => by cases hok⟩)
    rw [wp_bind, collect, wp_bind]
    refine wp_post (fun _ w₃ hw₃ => ?_) (keeps_restoreRouting hrc hfree hp hfam hold hw₂.1 hw₂.2)
    exact ⟨hw₃, hstate⟩

theorem held_setDefaultTunRoutesLocked (hstate : Recorded rc state) (routes : List Prefix)
    (h : Guarding rc start p w) :
    wp live Any (Held rc start p) (setDefaultTunRoutesLocked state routes) w := by
  have hK := fun c w r (w' : Live) (hx : Live.Configured c w r w')
      (hw : Guarding rc start p w) => hw.configured hrc hfree hp hfam hx
  unfold setDefaultTunRoutesLocked
  cases hcfg : state.routingConfig with
  | none => exact ⟨h, hstate⟩
  | some oldRC =>
    have hold := hstate oldRC hcfg
    refine wp_configures hK rfl h fun r w₁ h₁ => ?_
    cases r with
    | error e => exact ⟨h₁, hstate⟩
    | ok oldMainRoutes =>
      refine wp_configures hK rfl h₁ fun r w₂ h₂ => ?_
      cases r with
      | error e => exact held_giveUp hstate (keeps_joining hK rfl h₂)
      | ok v =>
        refine held_apply hrc hfree hp hfam hstate ?_ hold (hold.update hrc _ _)
          (fun K hK w hw => keeps_joining hK rfl hw) h₂
        rintro c ⟨⟩
        exact hold.update hrc _ _

theorem held_updateDefaultTunAddrsLocked (hstate : Recorded rc state) (addrs : List Prefix)
    (addedAddr : Option Prefix) (h : Guarding rc start p w) :
    wp live Any (Held rc start p) (updateDefaultTunAddrsLocked state addrs addedAddr) w := by
  have hK := fun c w r (w' : Live) (hx : Live.Configured c w r w')
      (hw : Guarding rc start p w) => hw.configured hrc hfree hp hfam hx
  unfold updateDefaultTunAddrsLocked
  cases hcfg : state.routingConfig with
  | none => exact ⟨h, hstate⟩
  | some oldRC =>
    have hold := hstate oldRC hcfg
    cases hsource : validateDefaultTunSourceAddrs addrs oldRC.sourceRoutes with
    | some source =>
      simp only [hsource]
      exact ⟨h, hstate⟩
    | none =>
      simp only [hsource]
      refine wp_configures hK rfl h fun r w₁ h₁ => ?_
      cases r with
      | error e => exact ⟨h₁, hstate⟩
      | ok oldAddrs =>
        refine wp_configures hK rfl h₁ fun r w₂ h₂ => ?_
        cases r with
        | error e => exact ⟨h₂, hstate⟩
        | ok oldMainRoutes =>
          refine wp_configures hK (by cases addedAddr <;> rfl) h₂ fun r w₃ h₃ => ?_
          cases r with
          | error e => exact held_giveUp hstate (keeps_restoreLink hK h₃ _ _)
          | ok v =>
            refine wp_configures hK rfl h₃ fun r w₄ h₄ => ?_
            cases r with
            | error e => exact held_giveUp hstate (keeps_restoreLink hK h₄ _ _)
            | ok v =>
              refine held_apply hrc hfree hp hfam hstate ?_ hold (hold.update hrc _ _)
                (fun K hK w hw => keeps_restoreLink hK hw _ _) h₄
              rintro c ⟨⟩
              exact hold.update hrc _ _

theorem held_update (s : System) (u : Update) (hstate : Recorded rc state)
    (h : Guarding rc start p w) :
    wp live Any (Held rc start p) (s.update state u) w := by
  have hshape : Shape state (s.update state u) := shape_update u
  generalize s.update state u = prog at hshape
  cases hshape with
  | stays => exact ⟨h, hstate⟩
  | addrs addrs addedAddr =>
    exact held_updateDefaultTunAddrsLocked hrc hfree hp hfam hstate addrs addedAddr h
  | routes routes => exact held_setDefaultTunRoutesLocked hrc hfree hp hfam hstate routes h

end Guarding

/-! ## Runs of updates -/

/-- Updates of the default TUN, one after the other. -/
inductive Updates (s : System) (state₀ : TunState) (w₀ : Live) : TunState → Live → Prop
  | start : Updates s state₀ w₀ state₀ w₀
  | step {state : TunState} {w w' : Live} {u : Update} {tr : List (Event SystemCall Live)}
      {out : UpdateOutcome} : Updates s state₀ w₀ state w →
      Exec live (s.update state u) w tr out w' → Updates s state₀ w₀ out.1 w'

/-- A strict default TUN whose config `rc` was applied by a call that returned nil,
    over a kernel in which the manager had left nothing but what it had applied. -/
structure Built (rc : Config) (start : Kernel) (state : TunState) (w : Live) : Prop where
  config : StrictConfig rc
  recorded : state.routingConfig = some rc
  applied : ∃ (m : Manager) (k : Kernel) (tr : List (Event AdapterCall Kernel)),
    m.Good ∧ Free (m.configs rc) start ∧ Tracked start m.appliedConfigs k ∧
    Exec adapter (m.apply rc) k tr (w.manager, none) w.kernel
  passed : w.passed = []

section Built

variable {rc : Config} {start : Kernel} {state : TunState} {w : Live}
  (h : Built rc start state w)
include h

theorem Built.free : ∀ r ∈ start.rules, inBlock rc r = false := by
  obtain ⟨m, k, tr, -, hfree, -⟩ := h.applied
  exact (hfree rc (m.mem_configs_self rc)).1

theorem Built.resting : Resting rc start w.manager w.kernel.rules := by
  obtain ⟨m, k, tr, hm, hfree, htracked, hex⟩ := h.applied
  obtain ⟨hmanager, hkernel⟩ := apply_done hm h.config.valid hex
  rw [hmanager, hkernel]
  exact resting_reconciled hm h.config.valid (Variant.refl rc) hfree htracked

end Built

/-- However the configurator fails, a strict default TUN contains the packets outside the app bypass
    in every state its updates pass, as long as no adapter call of the routing manager fails: none
    goes by the main table, unless a rule from outside ahead of the block applies to it and sends it
    there. -/
theorem strict_updates_contained (s : System) (rc : Config) (start : Kernel)
    (state state' : TunState) (w w' : Live) (hbuilt : Built rc start state w)
    (hrun : Updates s state w state' w') (hquiet : w'.Quiet) (p : Packet)
    (hfam : familyEnabled bothFamilies p.family = true) (hp : appBypass rc p = false)
    (hahead : ∀ r ∈ start.rules, r.priority < rc.priorityBase → r.applies p = true →
      r.table ≠ rtTableMain) :
    ∀ e ∈ w'.passed, Contained rc start p e.1 ∧
      ∀ via, e.1.decision p ≠ some (.lookup rtTableMain via) := by
  have hheld : Guarding rc start p w' ∧ Recorded rc state' := by
    clear hquiet
    induction hrun with
    | start =>
      refine ⟨fun _ => ⟨hbuilt.resting, ?_⟩, ?_⟩
      · rw [hbuilt.passed]
        simp
      · intro c hc
        rw [hbuilt.recorded] at hc
        cases hc
        exact Variant.refl rc
    | step _ hex ih =>
      exact (wp_sound hex (held_update hbuilt.config hbuilt.free hp hfam s _ ih.2 ih.1)).2
  intro e he
  have hcontained := (hheld.1 hquiet).2 e he
  exact ⟨hcontained, hcontained.not_main hbuilt.config.valid hahead⟩

theorem built_mainKernel : Built builtConfig mainKernel builtState (builtWorld mainKernel) where
  config := ⟨builtConfig_valid, rfl, rfl⟩
  recorded := rfl
  applied := by
    have hnil : (run Kernel.act (freshManager.apply builtConfig) [] mainKernel).2.1.2 = none := by
      decide +kernel
    refine ⟨freshManager, mainKernel, _, freshManager_good, by decide, ?_, exec_run hnil⟩
    exact ⟨fun r hr => .inl hr, fun a ha => .inl ha⟩
  passed := rfl

/-- An update in which the configurator fails. -/
def failingLink : List (Event SystemCall Live) × UpdateOutcome × Live :=
  sampleSystem.play builtState routeV6 [.ok, ⟨some "busy", []⟩] (builtWorld mainKernel)

/-- The update again, without a failure. -/
def retriedLink : List (Event SystemCall Live) × UpdateOutcome × Live :=
  sampleSystem.play builtState routeV6 [] failingLink.2.2

theorem strict_updates_contained_retry :
    failingLink.2.1.2 ≠ none ∧ retriedLink.2.1.2 = none ∧ retriedLink.2.2.Quiet ∧
    ∀ e ∈ retriedLink.2.2.passed, Contained builtConfig mainKernel plainPacket e.1 ∧
      ∀ via, e.1.decision plainPacket ≠ some (.lookup rtTableMain via) := by
  have hquiet : retriedLink.2.2.Quiet := by
    show ∀ e ∈ retriedLink.2.2.passed, e.2 = false
    decide +kernel
  have hstate : failingLink.2.1.1 = builtState := by decide +kernel
  have hfirst : Updates sampleSystem builtState (builtWorld mainKernel) builtState
      failingLink.2.2 :=
    hstate ▸ Updates.start.step (sampleSystem.play_exec _ _ _ _)
  exact ⟨by decide +kernel, by decide +kernel, hquiet,
    strict_updates_contained sampleSystem builtConfig mainKernel builtState _ _ _
      built_mainKernel (hfirst.step (sampleSystem.play_exec _ _ _ _)) hquiet plainPacket
      (by decide) (by decide) (by decide)⟩

/-- `Apply` of the new config fails at its first adapter call.  `Rollback` takes the policy away,
    and an unmarked packet goes by the main table before the old config is applied again. -/
theorem strict_update_opens :
    Built builtConfig mainKernel builtState (builtWorld mainKernel) ∧
    Exec live (sampleSystem.update builtState routeV6) (builtWorld mainKernel)
      (singleFault (builtWorld mainKernel)).1 (singleFault (builtWorld mainKernel)).2.1
      (singleFault (builtWorld mainKernel)).2.2 ∧
    appBypass builtConfig plainPacket = false ∧
    ∃ e ∈ (singleFault (builtWorld mainKernel)).2.2.passed,
      e.1.decision plainPacket =
        some (.lookup rtTableMain (candidates mainKernel.routes plainPacket rtTableMain)) := by
  refine ⟨built_mainKernel, sampleSystem.play_exec _ _ _ _, by decide, ?_⟩
  decide +kernel

end SysnetLinux.DefaultTun
