/-
  SysnetLinux.Routing.Compiler

  From a validated config and a main-table snapshot to the desired state:
  `routing/safe.go` and `routing/compiler.go`.

  The rules of a family depend on the config alone (`compileRules`); the routes of
  the VPN table come from the config, those of the safe table from the snapshot.
  Sorting is `List.insertionSort`: it is stable, and Go's two sorts agree with any
  stable one on these comparisons.
-/

import Mathlib.Data.List.Sort
import SysnetLinux.Routing.Config

namespace SysnetLinux.Routing

open Netip List

/-! ## Safe routes -/

inductive SafeClassification where
  | routeIgnored
  | routeSafe
  | routeUnsafe
  deriving DecidableEq, Repr

def safeDestinationPrefixes (addr : Addr) : List Prefix :=
  if addr.is4 then
    [Prefix.ofV4 0x0a000000#32 8, Prefix.ofV4 0xac100000#32 12,
      Prefix.ofV4 0xc0a80000#32 16, Prefix.ofV4 0xa9fe0000#32 16]
  else
    [Prefix.ofV6 0xfc000000000000000000000000000000#128 7,
      Prefix.ofV6 0xfe800000000000000000000000000000#128 10]

def privateOrLocalPrefix (p : Prefix) : Bool :=
  p.isValid && (safeDestinationPrefixes p.addr).any fun allowed =>
    decide (allowed.bits ≤ p.bits) && allowed.contains p.addr

/-- `ClassifySafeRoute` for a route without next hops; `linkIndex` and `gateway`
    are the route's own or those of one next hop. -/
def classifyHop (route : Route) (linkIndex : Int) (gateway : Addr) (tunIndex : Int) :
    SafeClassification :=
  if route.type ≠ .unicast then .routeIgnored
  else if !route.dst.isValid then .routeIgnored
  else if route.dst.bits = 0 then .routeUnsafe
  else if linkIndex = tunIndex then .routeUnsafe
  else if gateway.isValid && !privateOrLocalPrefix route.dst then .routeUnsafe
  else .routeSafe

/-- The source calls itself on a copy of the route for each next hop; the copy has
    no next hops, so the recursion is one level deep. -/
def classifySafeRoute (route : Route) (tunIndex : Int) : SafeClassification :=
  if route.type ≠ .unicast then .routeIgnored
  else if !route.dst.isValid then .routeIgnored
  else if route.dst.bits = 0 then .routeUnsafe
  else if route.linkIndex = tunIndex then .routeUnsafe
  else if 0 < route.multipath.length then
    if route.multipath.all fun hop =>
        classifyHop route hop.linkIndex hop.gateway tunIndex == .routeSafe
    then .routeSafe else .routeUnsafe
  else classifyHop route route.linkIndex route.gateway tunIndex

def desiredNexthopFlags (flags : Nat) : Nat := flags &&& (rtnhFOnlink ||| rtnhFPervasive)

def safeTableRoute (route : Route) (table : Int) : Route :=
  { route with
    table := table
    flags := desiredNexthopFlags route.flags
    multipath := route.multipath.map fun hop =>
      { hop with flags := desiredNexthopFlags hop.flags } }

def routeDependsOnGateway (route : Route) : Bool :=
  route.gateway.isValid || route.multipath.any fun hop => hop.gateway.isValid

/-- The order of `sortSafeRoutesForInstall`: routes without a gateway first, then
    by family, destination and length. -/
def safeRouteOrder (a b : Route) : Ordering :=
  (Ord.compare (routeDependsOnGateway a).toNat (routeDependsOnGateway b).toNat).then
    ((Ord.compare a.family b.family).then
      ((a.dst.addr.compare b.dst.addr).then (Ord.compare a.dst.bits b.dst.bits)))

def sortSafeRoutesForInstall (routes : List Route) : List Route :=
  routes.insertionSort fun a b => safeRouteOrder a b ≠ .gt

/-! ## VPN routes -/

def sourceRouteFamily (route : SourceRoute) : Int :=
  if route.destination.addr.is4 then afInet else afInet6

def sourceRouteOrder (a b : SourceRoute) : Ordering :=
  (a.destination.addr.compare b.destination.addr).then
    ((Ord.compare a.destination.bits b.destination.bits).then (a.source.compare b.source))

def sortSourceRoutes (routes : List SourceRoute) : List SourceRoute :=
  routes.insertionSort fun a b => sourceRouteOrder a b ≠ .gt

/-- The unicast route through the TUN that the VPN table holds for a destination. -/
def vpnRoute (config : Config) (family : Int) (dst : Prefix) (source : Addr) : Route where
  family := family
  table := config.vpnTable
  dst := dst
  gateway := .zero
  preferredSource := source
  linkIndex := config.tunIndex
  priority := 0
  scope := 0
  flags := 0
  type := .unicast
  multipath := []

/-- The source of the last source route to the default destination, if any: the
    loop of `CompileDesiredState` overwrites it. -/
def defaultRouteSource (family : Int) (routes : List SourceRoute) : Addr :=
  routes.foldl (fun source route =>
    if sourceRouteFamily route = family ∧ route.destination = familyDefaultPrefix family
    then route.source else source) .zero

def specificSourceRoutes (family : Int) (routes : List SourceRoute) : List SourceRoute :=
  routes.filter fun route =>
    sourceRouteFamily route = family ∧ route.destination ≠ familyDefaultPrefix family

/-- The VPN-table routes of one tunnelled family. -/
def compileVPNRoutes (config : Config) (family : Int) : List Route :=
  vpnRoute config family (familyDefaultPrefix family)
      (defaultRouteSource family config.sourceRoutes) ::
    (sortSourceRoutes (specificSourceRoutes family config.sourceRoutes)).map fun route =>
      vpnRoute config family route.destination route.source

/-! ## Rules -/

def markRule (family priority : Int) (action : RuleAction) (table : Int)
    (mark mask : BitVec 32) : Rule :=
  ⟨family, priority, action, table, mark, mask⟩

/-- The `add` closure of `compileRules`: each rule takes the next priority. -/
def numberRules : Int → List Rule → List Rule
  | _, [] => []
  | nextPriority, rule :: rules =>
    { rule with priority := nextPriority } :: numberRules (intAdd nextPriority 1) rules

/-- A rule for every packet of the family; its priority is set by `numberRules`. -/
def allRule (family : Int) (action : RuleAction) (table : Int) : Rule :=
  ⟨family, 0, action, table, 0, 0⟩

/-- A rule for the packets with the user mark. -/
def userRule (config : Config) (family : Int) (action : RuleAction) (table : Int) : Rule :=
  ⟨family, 0, action, table, config.userMark, config.userMarkMask⟩

/-- The two rules of the app-bypass selector, at the first two priorities. -/
def appRules (config : Config) (family : Int) : List Rule :=
  [markRule family (intAdd config.priorityBase ruleOffsetAppMain) .lookup rtTableMain
      config.appBypassMark config.appBypassMask,
    markRule family (intAdd config.priorityBase ruleOffsetAppUnreachable) .unreachable 0
      config.appBypassMark config.appBypassMask]

/-- The rules behind the transition guard, before they are numbered. -/
def policyRules (config : Config) (family : Int) : List Rule :=
  if !familyEnabled (effectiveTunnelFamilies config) family then
    [allRule family .unreachable 0]
  else match config.mode, config.strictness with
    | .modeExclude, .strict =>
      [userRule config family .unreachable 0,
        allRule family .lookup config.vpnTable,
        allRule family .unreachable 0]
    | .modeExclude, .nonStrict =>
      [userRule config family .lookup rtTableMain,
        userRule config family .unreachable 0,
        allRule family .lookup config.safeTable,
        allRule family .lookup config.vpnTable,
        allRule family .unreachable 0]
    | .modeInclude, .strict =>
      [userRule config family .lookup config.vpnTable,
        userRule config family .unreachable 0,
        allRule family .unreachable 0]
    | .modeInclude, .nonStrict =>
      [allRule family .lookup config.safeTable,
        userRule config family .lookup config.vpnTable,
        userRule config family .unreachable 0,
        allRule family .lookup rtTableMain]
    | _, _ => []

def compileRules (config : Config) (family : Int) : List Rule :=
  appRules config family ++
    numberRules (intAdd config.priorityBase ruleOffsetUserFirst) (policyRules config family)

def transitionGuard (config : Config) (family : Int) : Rule :=
  ⟨family, intAdd config.priorityBase ruleOffsetTransitionGuard, .unreachable, 0, 0, 0⟩

/-! ## The desired state -/

/-- What `CompileDesiredState` builds once the config is validated. -/
def desiredState (config : Config) (snapshot : Snapshot) : DesiredState where
  config := config
  rules := (familyConstants config.families).flatMap (compileRules config)
  vpnRoutes := ((familyConstants config.families).filter fun family =>
      familyEnabled (effectiveTunnelFamilies config) family).flatMap (compileVPNRoutes config)
  safeRoutes := sortSafeRoutesForInstall
    ((snapshot.mainRoutes.filter fun route =>
        familyEnabled config.families route.family &&
          classifySafeRoute route config.tunIndex == .routeSafe).map fun route =>
      safeTableRoute route config.safeTable)

def compileDesiredState (config : Config) (snapshot : Snapshot) :
    Except ConfigError DesiredState :=
  match config.validate with
  | .error e => .error e
  | .ok () => .ok (desiredState config snapshot)

theorem compileDesiredState_eq_ok {config : Config} {snapshot : Snapshot} {d : DesiredState}
    (h : compileDesiredState config snapshot = .ok d) :
    config.validate = .ok () ∧ d = desiredState config snapshot := by
  unfold compileDesiredState at h
  split at h
  · cases h
  · rename_i hv
    cases h
    exact ⟨hv, rfl⟩

/-! ## Families -/

variable {family n : Int} {c : Config} {r : Rule}

theorem mem_familyConstants {families : FamilySet} :
    family ∈ familyConstants families ↔ familyEnabled families family = true := by
  rcases families with ⟨v4, v6⟩
  cases v4 <;> cases v6 <;> simp [familyConstants, familyEnabled]

/-- The families a TUN carries are policy families. -/
theorem familyEnabled_of_tunnel (hc : c.Checked)
    (h : familyEnabled (effectiveTunnelFamilies c) family = true) :
    familyEnabled c.families family = true := by
  obtain ⟨h4, h6⟩ := hc.tunnel_covered
  unfold effectiveTunnelFamilies at h
  split at h
  · exact h
  · simp only [familyEnabled, Bool.or_eq_true, Bool.and_eq_true] at h ⊢
    rcases h with h | h
    · exact .inl ⟨h.1, h4 h.2⟩
    · exact .inr ⟨h.1, h6 h.2⟩

/-! ## Priorities

Below the range where 64-bit sums wrap, the rules of a family take the first two
priorities of the block and, behind the transition guard's, one each from the
fourth on. -/

/-- The sums of the compiler do not wrap. -/
def Config.Fits (c : Config) : Prop :=
  c.priorityBase < 2 ^ 31 ∧ c.prioritySpan < 2 ^ 31

instance (c : Config) : Decidable c.Fits := by
  unfold Config.Fits
  infer_instance

/-- An accepted config whose priority arithmetic does not wrap. -/
structure Config.Valid (c : Config) : Prop where
  accepted : c.validate = .ok ()
  fits : c.Fits

theorem Config.Valid.checked (h : c.Valid) : c.Checked :=
  Config.checked_of_validate h.accepted

theorem Config.Valid.base_pos (h : c.Valid) : 0 < c.priorityBase :=
  h.checked.base_pos

theorem Config.Valid.span_ge (h : c.Valid) : 32 ≤ c.prioritySpan :=
  h.checked.span_ge

/-- Sums that stay inside the block are exact. -/
theorem Config.Valid.intAdd_base (h : c.Valid) (h0 : 0 ≤ n) (hn : n < 2 ^ 31) :
    intAdd c.priorityBase n = c.priorityBase + n := by
  have hb := h.base_pos
  have hf := h.fits.1
  exact intAdd_eq (by omega) (by omega)

theorem Config.Valid.intAdd_span (h : c.Valid) :
    intAdd c.priorityBase c.prioritySpan = c.priorityBase + c.prioritySpan :=
  h.intAdd_base (by have := h.span_ge; omega) h.fits.2

/-- A strict config for the TUN with index 10. -/
def sampleConfig : Config := { defaultConfig with tunIndex := 10 }

theorem sampleConfig_valid : sampleConfig.Valid := ⟨rfl, by decide⟩

/-- Every numbered rule is one of the given rules at a priority of the range. -/
theorem mem_numberRules {rules : List Rule} (h0 : 0 ≤ n) (hn : n + rules.length < 2 ^ 63)
    (hr : r ∈ numberRules n rules) :
    (∃ r' ∈ rules, r = { r' with priority := r.priority }) ∧
      n ≤ r.priority ∧ r.priority < n + rules.length := by
  induction rules generalizing n with
  | nil => cases hr
  | cons a rules ih =>
    rw [length_cons] at hn ⊢
    rcases mem_cons.mp hr with rfl | hr
    · exact ⟨⟨a, mem_cons_self, rfl⟩, le_refl _, by push_cast; omega⟩
    · rw [intAdd_eq (by omega) (by omega)] at hr
      obtain ⟨⟨r', hr', he⟩, hlo, hhi⟩ := ih (by omega) (by push_cast at hn; omega) hr
      refine ⟨⟨r', mem_cons_of_mem a hr', he⟩, by omega, ?_⟩
      push_cast
      omega

theorem numberRules_increasing {rules : List Rule} (h0 : 0 ≤ n) (hn : n + rules.length < 2 ^ 63) :
    (numberRules n rules).Pairwise fun a b => a.priority < b.priority := by
  induction rules generalizing n with
  | nil => exact List.Pairwise.nil
  | cons a rules ih =>
    rw [length_cons] at hn
    push_cast at hn
    have hnext : intAdd n 1 = n + 1 := intAdd_eq (by omega) (by omega)
    refine pairwise_cons.mpr ⟨?_, ?_⟩
    · intro b hb
      rw [hnext] at hb
      have hlo := (mem_numberRules (by omega) (by omega) hb).2.1
      show n < b.priority
      omega
    · rw [hnext]
      exact ih (by omega) (by omega)

theorem policyRules_length (c : Config) (family : Int) : (policyRules c family).length ≤ 5 := by
  unfold policyRules
  split
  · simp
  · split <;> simp

theorem policyRules_family (h : r ∈ policyRules c family) : r.family = family := by
  unfold policyRules at h
  split at h
  · simp only [mem_singleton] at h
    rw [h, allRule]
  · split at h <;> simp only [mem_cons, not_mem_nil, or_false] at h <;>
      rcases h with rfl | rfl | rfl | rfl | rfl <;> rfl

/-- A policy rule drops, or looks up the main table or one of the config's. -/
theorem policyRules_table (h : r ∈ policyRules c family) : (r.action = .unreachable ∧ r.table = 0) ∨
      (r.action = .lookup ∧
        (r.table = rtTableMain ∨ r.table = c.vpnTable ∨ r.table = c.safeTable)) := by
  unfold policyRules at h
  split at h
  · rw [mem_singleton.mp h]
    exact .inl ⟨rfl, rfl⟩
  · split at h <;> simp only [mem_cons, not_mem_nil, or_false] at h <;>
      rcases h with rfl | rfl | rfl | rfl | rfl <;>
      simp [userRule, allRule]

section Block

variable {c : Config} (hc : c.Valid) {family : Int} {r : Rule}
include hc

theorem transitionGuard_priority : (transitionGuard c family).priority = c.priorityBase + 2 :=
  hc.intAdd_base (by decide) (by decide)

theorem numbered_priority
    (hr : r ∈ numberRules (intAdd c.priorityBase ruleOffsetUserFirst) (policyRules c family)) :
    (∃ r' ∈ policyRules c family, r = { r' with priority := r.priority }) ∧
      c.priorityBase + 3 ≤ r.priority ∧ r.priority < c.priorityBase + 8 := by
  have hb := hc.base_pos
  have hf := hc.fits.1
  have hlen := policyRules_length c family
  have hfirst : intAdd c.priorityBase ruleOffsetUserFirst = c.priorityBase + 3 :=
    hc.intAdd_base (by decide) (by decide)
  rw [hfirst] at hr
  obtain ⟨hmem, hlo, hhi⟩ := mem_numberRules (by omega) (by omega) hr
  exact ⟨hmem, hlo, by omega⟩

theorem appRules_eq : appRules c family =
    [⟨family, c.priorityBase, .lookup, rtTableMain, c.appBypassMark, c.appBypassMask⟩,
      ⟨family, c.priorityBase + 1, .unreachable, 0, c.appBypassMark, c.appBypassMask⟩] := by
  have h0 : intAdd c.priorityBase ruleOffsetAppMain = c.priorityBase := by
    rw [ruleOffsetAppMain, hc.intAdd_base (by decide) (by decide), Int.add_zero]
  have h1 : intAdd c.priorityBase ruleOffsetAppUnreachable = c.priorityBase + 1 :=
    hc.intAdd_base (by decide) (by decide)
  rw [appRules, h0, h1]
  rfl

section

variable (hr : r ∈ compileRules c family)
include hr

/-- A compiled rule is one of the app-bypass selector ahead of the guard, or a
    policy rule behind it. -/
theorem mem_compileRules_cases : (c.priorityBase ≤ r.priority ∧ r.priority < c.priorityBase + 2 ∧
        r.mark = c.appBypassMark ∧ r.mask = c.appBypassMask) ∨
      (c.priorityBase + 3 ≤ r.priority ∧ r.priority < c.priorityBase + 8) := by
  rcases mem_append.mp hr with hr | hr
  · rw [appRules_eq hc] at hr
    simp only [mem_cons, not_mem_nil, or_false] at hr
    left
    rcases hr with rfl | rfl
    · exact ⟨le_refl _, by show c.priorityBase < _; omega, rfl, rfl⟩
    · exact ⟨by show _ ≤ c.priorityBase + 1; omega, by show c.priorityBase + 1 < _; omega, rfl, rfl⟩
  · exact .inr (numbered_priority hc hr).2

theorem compileRules_family : r.family = family := by
  rcases mem_append.mp hr with hr | hr
  · rw [appRules_eq hc] at hr
    simp only [mem_cons, not_mem_nil, or_false] at hr
    rcases hr with rfl | rfl <;> rfl
  · obtain ⟨r', hr', he⟩ := (numbered_priority hc hr).1
    rw [he]
    show r'.family = family
    exact policyRules_family hr'

theorem compileRules_table : (r.action = .unreachable ∧ r.table = 0) ∨ (r.action = .lookup ∧
        (r.table = rtTableMain ∨ r.table = c.vpnTable ∨ r.table = c.safeTable)) := by
  rcases mem_append.mp hr with hr | hr
  · rw [appRules_eq hc] at hr
    simp only [mem_cons, not_mem_nil, or_false] at hr
    rcases hr with rfl | rfl <;> simp
  · obtain ⟨r', hr', he⟩ := (numbered_priority hc hr).1
    have haction : r.action = r'.action := by rw [he]
    have htable : r.table = r'.table := by rw [he]
    rw [haction, htable]
    exact policyRules_table hr'

theorem compileRules_table_ne_zero (hact : r.action = .lookup) : r.table ≠ 0 := by
  have hfree : ∀ table, reservedRouteTable table = false → table ≠ 0 := by
    rintro table h rfl
    cases h
  rcases compileRules_table hc hr with ⟨hdrop, -⟩ | ⟨-, htable | htable | htable⟩
  · rw [hact] at hdrop
    cases hdrop
  · rw [htable]
    decide
  · rw [htable]
    exact hfree _ hc.checked.vpn_free
  · rw [htable]
    exact hfree _ hc.checked.safe_free

/-- The compiled rules lie in the config's block, and none has the guard's priority. -/
theorem compileRules_priority :
    c.priorityBase ≤ r.priority ∧ r.priority < c.priorityBase + c.prioritySpan ∧
      r.priority ≠ c.priorityBase + 2 := by
  have hspan := hc.span_ge
  rcases mem_compileRules_cases hc hr with ⟨hlo, hhi, -, -⟩ | ⟨hlo, hhi⟩
  · exact ⟨hlo, by omega, by omega⟩
  · exact ⟨by omega, by omega, by omega⟩

end

theorem compileRules_increasing :
    (compileRules c family).Pairwise fun a b => a.priority < b.priority := by
  have hb := hc.base_pos
  have hf := hc.fits.1
  have hlen := policyRules_length c family
  have hfirst : intAdd c.priorityBase ruleOffsetUserFirst = c.priorityBase + 3 :=
    hc.intAdd_base (by decide) (by decide)
  refine pairwise_append.mpr ⟨?_, ?_, ?_⟩
  · rw [appRules_eq hc]
    refine pairwise_cons.mpr ⟨?_, pairwise_singleton _ _⟩
    intro b hb
    rw [mem_singleton.mp hb]
    show c.priorityBase < c.priorityBase + 1
    omega
  · rw [hfirst]
    exact numberRules_increasing (by omega) (by omega)
  · intro a ha b hb
    have hlo := (numbered_priority hc hb).2.1
    rw [appRules_eq hc] at ha
    simp only [mem_cons, not_mem_nil, or_false] at ha
    rcases ha with rfl | rfl
    · show c.priorityBase < _
      omega
    · show c.priorityBase + 1 < _
      omega

theorem compileRules_unique {r' : Rule} (hr : r ∈ compileRules c family)
    (hr' : r' ∈ compileRules c family) (hprio : r.priority = r'.priority) : r = r' := by
  have hne : (compileRules c family).Pairwise fun a b => a.priority ≠ b.priority :=
    (compileRules_increasing hc).imp ne_of_lt
  exact inj_on_of_nodup_map (pairwise_map.mpr hne) hr hr' hprio

end Block

end SysnetLinux.Routing
