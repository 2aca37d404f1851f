/-
  SysnetLinux.Routing.SafeRoutes

  The safe table cannot leak.

  `CannotLeak` says what a route may be so that replaying it beside the VPN gives no path
  to the public network, in terms of the next hops a packet can leave by and of the
  addresses the destination prefix holds.  `classifySafeRoute_iff` shows that the
  classifier of `routing/safe.go` decides exactly this, the whole-prefix test of
  `privateOrLocalPrefix` included.
-/

import SysnetLinux.Netip.Blocks
import SysnetLinux.Routing.Compiler

namespace SysnetLinux.Routing

open Netip LeadingBits List

/-! ## What a safe route is -/

/-- The addresses of 10/8, 172.16/12, 192.168/16 and 169.254/16, and of fc00::/7 and fe80::/10. -/
def PrivateOrLocal : Addr → Prop
  | .zero => False
  | .v4 ip =>
    ip >>> 24 = 10#32 ∨ ip >>> 20 = 0xac1#32 ∨ ip >>> 16 = 0xc0a8#32 ∨ ip >>> 16 = 0xa9fe#32
  | .v6 ip _ => ip >>> 121 = 0x7e#128 ∨ ip >>> 118 = 0x3fa#128

/-- The links and gateways by which a packet on the route can leave. -/
def effectiveNexthops (route : Route) : List (Int × Addr) :=
  if 0 < route.multipath.length then
    route.multipath.map fun hop => (hop.linkIndex, hop.gateway)
  else [(route.linkIndex, route.gateway)]

/-- A default route has no network bits.  So has a route without a destination: the
    netlink message of a default route carries none. -/
def isDefaultRoute (route : Route) : Bool := decide (route.dst.bits ≤ 0)

/-- A unicast route that opens no path around the VPN. -/
structure CannotLeak (tunIndex : Int) (route : Route) : Prop where
  unicast : route.type = .unicast
  specific : isDefaultRoute route = false
  own_link : route.linkIndex ≠ tunIndex
  hop_links : ∀ hop ∈ effectiveNexthops route, hop.1 ≠ tunIndex
  covered : (∃ hop ∈ effectiveNexthops route, hop.2.isValid = true) →
    ∀ a, route.dst.contains a = true → PrivateOrLocal a

/-! ## The whole-prefix test -/

def safeBlocks4 : List (BitVec 32 × Nat) :=
  [(0x0a000000#32, 8), (0xac100000#32, 12), (0xc0a80000#32, 16), (0xa9fe0000#32, 16)]

def safeBlocks6 : List (BitVec 128 × Nat) :=
  [(0xfc000000000000000000000000000000#128, 7), (0xfe800000000000000000000000000000#128, 10)]

theorem separated_safeBlocks4 : Separated safeBlocks4 := by decide +kernel

theorem separated_safeBlocks6 : Separated safeBlocks6 := by decide +kernel

theorem privateOrLocal_v4_iff {ip : BitVec 32} :
    PrivateOrLocal (.v4 ip) ↔ ∃ y ∈ safeBlocks4, Agree y.2 y.1 ip := by
  simp only [PrivateOrLocal, safeBlocks4, mem_cons, not_mem_nil, or_false,
    exists_eq_or_imp, exists_eq_left, agree_iff_ushiftRight (show 8 ≤ 32 by omega),
    agree_iff_ushiftRight (show 12 ≤ 32 by omega), agree_iff_ushiftRight (show 16 ≤ 32 by omega)]
  exact or_congr eq_comm (or_congr eq_comm (or_congr eq_comm eq_comm))

theorem privateOrLocal_v6_iff {ip : BitVec 128} {z : String} :
    PrivateOrLocal (.v6 ip z) ↔ ∃ y ∈ safeBlocks6, Agree y.2 y.1 ip := by
  simp only [PrivateOrLocal, safeBlocks6, mem_cons, not_mem_nil, or_false,
    exists_eq_or_imp, exists_eq_left, agree_iff_ushiftRight (show 7 ≤ 128 by omega),
    agree_iff_ushiftRight (show 10 ≤ 128 by omega)]
  exact or_congr eq_comm eq_comm

/-- `privateOrLocalPrefix` of an IPv4 prefix, over the blocks. -/
theorem privateOrLocalPrefix_v4 {p : Prefix} {net : BitVec 32} (hp : p.addr = .v4 net)
    (hvalid : p.isValid = true) :
    privateOrLocalPrefix p = true ↔ ∃ y ∈ safeBlocks4, y.2 ≤ p.len ∧ Agree y.2 y.1 net := by
  have hpart : ∀ (base : BitVec 32) (n : Fin 33),
      (Prefix.ofV4 base n).bits ≤ p.bits ∧ (Prefix.ofV4 base n).contains (.v4 net) = true ↔
        n.val ≤ p.len ∧ Agree n.val base net := by
    intro base n
    rw [Prefix.bits_eq_len hvalid, Prefix.contains_v4 rfl]
    have hbits : (Prefix.ofV4 base n).bits = n.val := by simp [Prefix.bits, Prefix.ofV4]
    have hok : (Prefix.ofV4 base n).isValid = true := by simp [Prefix.isValid, Prefix.ofV4]
    rw [hbits, hok, Int.ofNat_le]
    exact and_congr_right fun _ => by simp [Prefix.len, Prefix.ofV4]
  simp only [privateOrLocalPrefix, hvalid, Bool.true_and, hp, safeDestinationPrefixes, Addr.is4,
    if_true, any_cons, any_nil, Bool.or_false, Bool.or_eq_true, Bool.and_eq_true,
    decide_eq_true_eq, hpart, safeBlocks4, mem_cons, not_mem_nil, or_false,
    exists_eq_or_imp, exists_eq_left]
  rfl

/-- `privateOrLocalPrefix` of an IPv6 prefix, over the blocks. -/
theorem privateOrLocalPrefix_v6 {p : Prefix} {net : BitVec 128} {z : String}
    (hp : p.addr = .v6 net z) (hvalid : p.isValid = true) :
    privateOrLocalPrefix p = true ↔ ∃ y ∈ safeBlocks6, y.2 ≤ p.len ∧ Agree y.2 y.1 net := by
  have hz : z = "" := by
    have hzone := p.zoneless
    rw [hp] at hzone
    exact hzone
  have hpart : ∀ (base : BitVec 128) (n : Fin 129),
      (Prefix.ofV6 base n).bits ≤ p.bits ∧ (Prefix.ofV6 base n).contains (.v6 net "") = true ↔
        n.val ≤ p.len ∧ Agree n.val base net := by
    intro base n
    rw [Prefix.bits_eq_len hvalid, Prefix.contains_v6 rfl]
    have hbits : (Prefix.ofV6 base n).bits = n.val := by simp [Prefix.bits, Prefix.ofV6]
    have hok : (Prefix.ofV6 base n).isValid = true := by simp [Prefix.isValid, Prefix.ofV6]
    rw [hbits, hok, Int.ofNat_le]
    exact and_congr_right fun _ => by simp [Prefix.len, Prefix.ofV6]
  simp only [privateOrLocalPrefix, hvalid, Bool.true_and, hp, hz, safeDestinationPrefixes,
    Addr.is4, Bool.false_eq_true, if_false, any_cons, any_nil, Bool.or_false,
    Bool.or_eq_true, Bool.and_eq_true, decide_eq_true_eq, hpart, safeBlocks6, mem_cons,
    not_mem_nil, or_false, exists_eq_or_imp, exists_eq_left]
  rfl

/-- The bits-and-base test is inclusion of address sets: the private blocks are separated,
    so their union holds no prefix that none of them holds. -/
theorem privateOrLocalPrefix_iff {p : Prefix} (hvalid : p.isValid = true) :
    privateOrLocalPrefix p = true ↔ ∀ a, p.contains a = true → PrivateOrLocal a := by
  cases hp : p.addr with
  | zero =>
    have haddr := Prefix.addr_isValid hvalid
    rw [hp] at haddr
    cases haddr
  | v4 net =>
    rw [privateOrLocalPrefix_v4 hp hvalid, ← covered_iff separated_safeBlocks4]
    constructor
    · intro h a ha
      cases a with
      | v4 ip => exact privateOrLocal_v4_iff.mpr (h ip ((Prefix.contains_v4 hp).mp ha).2)
      | zero | v6 ip z => simp [Prefix.contains, hp] at ha
    · intro h ip hip
      exact privateOrLocal_v4_iff.mp (h (.v4 ip) ((Prefix.contains_v4 hp).mpr ⟨hvalid, hip⟩))
  | v6 net z =>
    rw [privateOrLocalPrefix_v6 hp hvalid, ← covered_iff separated_safeBlocks6]
    constructor
    · intro h a ha
      cases a with
      | v6 ip z' =>
        have hagree := (Prefix.contains_iff.mp ha).2
        rw [hp] at hagree
        exact privateOrLocal_v6_iff.mpr (h ip hagree.2.2)
      | zero | v4 ip => simp [Prefix.contains, hp] at ha
    · intro h ip hip
      exact privateOrLocal_v6_iff.mp (h (.v6 ip "") ((Prefix.contains_v6 hp).mpr ⟨hvalid, hip⟩))

/-! ## The classifier -/

variable {route : Route} {tunIndex : Int}

theorem isDefaultRoute_eq_false_iff :
    isDefaultRoute route = false ↔ route.dst.isValid = true ∧ route.dst.bits ≠ 0 := by
  rw [isDefaultRoute, decide_eq_false_iff_not, Prefix.isValid, Prefix.bits, decide_eq_true_eq]
  omega

theorem classifyHop_iff {linkIndex : Int} {gateway : Addr} (hunicast : route.type = .unicast)
    (hdst : isDefaultRoute route = false) :
    classifyHop route linkIndex gateway tunIndex = .routeSafe ↔ linkIndex ≠ tunIndex ∧
        (gateway.isValid = true → ∀ a, route.dst.contains a = true → PrivateOrLocal a) := by
  obtain ⟨hvalid, hbits⟩ := isDefaultRoute_eq_false_iff.mp hdst
  rw [← privateOrLocalPrefix_iff hvalid]
  simp only [classifyHop, hunicast, ne_eq, not_true_eq_false, if_false, hvalid, Bool.not_true,
    Bool.false_eq_true, hbits]
  by_cases hlink : linkIndex = tunIndex
  · simp [hlink]
  · cases hgw : gateway.isValid <;> cases hpriv : privateOrLocalPrefix route.dst <;> simp [hlink]

/-- The classifier accepts a route when it accepts each effective next hop. -/
theorem classifySafeRoute_hops : classifySafeRoute route tunIndex = .routeSafe ↔
      route.type = .unicast ∧ isDefaultRoute route = false ∧ route.linkIndex ≠ tunIndex ∧
        ∀ hop ∈ effectiveNexthops route, classifyHop route hop.1 hop.2 tunIndex = .routeSafe := by
  rw [isDefaultRoute_eq_false_iff]
  by_cases htype : route.type = .unicast
  · cases hvalid : route.dst.isValid with
    | false => simp [classifySafeRoute, htype, hvalid]
    | true =>
      by_cases hbits : route.dst.bits = 0
      · simp [classifySafeRoute, htype, hvalid, hbits]
      · by_cases hlink : route.linkIndex = tunIndex
        · simp [classifySafeRoute, htype, hvalid, hbits, hlink]
        · by_cases hpaths : 0 < route.multipath.length
          · simp [classifySafeRoute, htype, hvalid, hbits, hlink, hpaths, effectiveNexthops]
          · simp [classifySafeRoute, htype, hvalid, hbits, hlink, hpaths, effectiveNexthops]
  · simp [classifySafeRoute, htype]

theorem classifySafeRoute_iff :
    classifySafeRoute route tunIndex = .routeSafe ↔ CannotLeak tunIndex route := by
  rw [classifySafeRoute_hops]
  constructor
  · rintro ⟨htype, hdst, hlink, hhops⟩
    have hsafe := fun hop hhop => (classifyHop_iff htype hdst).mp (hhops hop hhop)
    exact ⟨htype, hdst, hlink, fun hop hhop => (hsafe hop hhop).1,
      fun ⟨hop, hhop, hgw⟩ => (hsafe hop hhop).2 hgw⟩
  · intro h
    refine ⟨h.unicast, h.specific, h.own_link, fun hop hhop => ?_⟩
    exact (classifyHop_iff h.unicast h.specific).mpr
      ⟨h.hop_links hop hhop, fun hgw => h.covered ⟨hop, hhop, hgw⟩⟩

/-! ## The safe table -/

/-- The second route takes packets to the same destination over the same links and gateways,
    with the same metric and scope. -/
structure SamePath (route copied : Route) : Prop where
  family : copied.family = route.family
  dst : copied.dst = route.dst
  gateway : copied.gateway = route.gateway
  link : copied.linkIndex = route.linkIndex
  metric : copied.priority = route.priority
  scope : copied.scope = route.scope
  hops : copied.multipath.map (fun hop => (hop.linkIndex, hop.gateway)) =
    route.multipath.map fun hop => (hop.linkIndex, hop.gateway)

theorem samePath_safeTableRoute (route : Route) (table : Int) :
    SamePath route (safeTableRoute route table) := by
  refine ⟨rfl, rfl, rfl, rfl, rfl, rfl, ?_⟩
  simp [safeTableRoute]

/-- What cannot leak is a matter of the path. -/
theorem CannotLeak.safeTableRoute (h : CannotLeak tunIndex route) (table : Int) :
    CannotLeak tunIndex (safeTableRoute route table) := by
  have hhops : effectiveNexthops (Routing.safeTableRoute route table) =
      effectiveNexthops route := by
    simp [effectiveNexthops, Routing.safeTableRoute, Function.comp_def]
  refine ⟨h.unicast, h.specific, h.own_link, ?_, ?_⟩
  · rw [hhops]
    exact h.hop_links
  · rw [hhops]
    exact h.covered

theorem mem_safeRoutes_iff {config : Config} {snapshot : Snapshot} {r : Route} :
    r ∈ (desiredState config snapshot).safeRoutes ↔
      ∃ route ∈ snapshot.mainRoutes, familyEnabled config.families route.family = true ∧
        CannotLeak config.tunIndex route ∧ safeTableRoute route config.safeTable = r := by
  simp only [desiredState, sortSafeRoutesForInstall, mem_insertionSort, mem_map,
    mem_filter, Bool.and_eq_true, beq_iff_eq, classifySafeRoute_iff, and_assoc]

theorem safe_routes_cannot_leak {config : Config} {snapshot : Snapshot}
    (h : config.validate = .ok ()) :
    ∃ state, compileDesiredState config snapshot = .ok state ∧
      (∀ r ∈ state.safeRoutes, r.table = config.safeTable ∧ CannotLeak config.tunIndex r) ∧
      ∀ route ∈ snapshot.mainRoutes, familyEnabled config.families route.family = true →
        CannotLeak config.tunIndex route → ∃ r ∈ state.safeRoutes, SamePath route r := by
  refine ⟨desiredState config snapshot, by rw [compileDesiredState, h], ?_, ?_⟩
  · intro r hr
    obtain ⟨route, -, -, hsafe, rfl⟩ := mem_safeRoutes_iff.mp hr
    exact ⟨rfl, hsafe.safeTableRoute config.safeTable⟩
  · intro route hroute hfamily hsafe
    exact ⟨safeTableRoute route config.safeTable,
      mem_safeRoutes_iff.mpr ⟨route, hroute, hfamily, hsafe, rfl⟩,
      samePath_safeTableRoute route config.safeTable⟩

/-- A route to 10.0.0.0/8 through 192.168.1.1, and one to 10.0.0.0/7, which also holds
    public addresses. -/
def lanSnapshot : Snapshot where
  mainRoutes := [7, 8].map fun bits =>
    { family := afInet, table := rtTableMain, dst := Prefix.ofV4 0x0a000000#32 bits,
      gateway := .v4 0xc0a80101#32, preferredSource := .zero, linkIndex := 2, priority := 100,
      scope := 0, flags := 0, type := .unicast, multipath := [] }

theorem safe_routes_cannot_leak_lan :
    ∃ state, compileDesiredState sampleConfig lanSnapshot = .ok state ∧
      (state.safeRoutes.map fun r => r.dst) = [Prefix.ofV4 0x0a000000#32 8] ∧
      ∀ r ∈ state.safeRoutes, r.table = 51821 ∧ CannotLeak 10 r := by
  obtain ⟨state, (hstate : compileDesiredState sampleConfig lanSnapshot = .ok state), hsafe, -⟩ :=
    safe_routes_cannot_leak sampleConfig_valid.accepted
  refine ⟨state, hstate, ?_, hsafe⟩
  obtain ⟨-, rfl⟩ := compileDesiredState_eq_ok hstate
  decide +kernel

end SysnetLinux.Routing
