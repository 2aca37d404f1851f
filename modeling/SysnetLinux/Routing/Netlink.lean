/-
  SysnetLinux.Routing.Netlink

  Routes and rules as netlink messages: the conversions of `routing/adapter.go`.

  A netlink route holds its addresses as byte slices and may carry attributes the package
  does not handle; of those the conversions only ask whether they are there.  `Convertible`
  stands between the two directions: it is what `routeToNetlink` needs to lose nothing, and
  what `routeFromNetlink` guarantees of every unicast route it returns.
-/

import SysnetLinux.Net.Values
import SysnetLinux.Routing.SafeRoutes

namespace SysnetLinux.Routing

open Netip Net Bytes List

/-! ## Netlink messages -/

def rtnUnicast : Int := 1
def frActUnreachable : BitVec 8 := 7

namespace Netlink

/-- `netlink.NexthopInfo`; `newDst`, `encap` and `via` say whether the attribute is there. -/
structure NexthopInfo where
  linkIndex : Int
  gw : IP
  flags : Nat
  newDst : Bool
  encap : Bool
  via : Bool
  deriving DecidableEq, Repr

/-- `netlink.Route`; a nil next hop is `none`. -/
structure Route where
  family : Int
  table : Int
  dst : Option IPNet
  gw : IP
  src : IP
  linkIndex : Int
  priority : Int
  scope : BitVec 8
  flags : Nat
  type : Int
  multiPath : List (Option NexthopInfo)
  newDst : Bool
  encap : Bool
  via : Bool
  mplsDst : Bool
  deriving DecidableEq, Repr

/-- `netlink.Rule`. -/
structure Rule where
  family : Int
  priority : Int
  table : Int
  mark : BitVec 32
  mask : Option (BitVec 32)
  type : BitVec 8
  deriving DecidableEq, Repr

def newRule : Rule := ⟨0, -1, 0, 0, none, 0⟩

end Netlink

/-! ## Addresses and prefixes -/

/-- `netip.AddrFromSlice`. -/
def addrFromSlice (ip : IP) : Option Addr :=
  if ip.length = 4 then some (.v4 (toWord 32 ip))
  else if ip.length = 16 then some (.v6 (toWord 128 ip) "")
  else none

def addrFromIP (ip : IP) : Option Addr :=
  match to4 ip with
  | some ip4 => addrFromSlice ip4
  | none =>
    match to16 ip with
    | some ip16 => addrFromSlice ip16
    | none => none

/-- `net.IPv4` builds the long form, of which `To4` keeps the last four bytes. -/
def netIPFromAddr : Addr → IP
  | .zero => []
  | .v4 ip => (to4 (v4InV6Prefix ++ ofWord 4 ip)).getD []
  | .v6 ip _ => ofWord 16 ip

def prefixFromIPNet (network : IPNet) : Option Prefix :=
  let (ones, bits) := maskSize network.mask
  if (ones : Int) < 0 then none
  else match addrFromIP network.ip with
    | none => none
    | some addr =>
      let addr := if bits = 32 then addr.unmap else addr
      let p := Prefix.ofAddr addr ones
      if !p.isValid || p.addr.is4In6 then none else some p.masked

inductive RouteError where
  | destinationFamily
  | invalidPrefix
  | scope (scope : Int)
  deriving DecidableEq, Repr

def RouteError.message : RouteError → String
  | destinationFamily => "routing: invalid config: route destination does not match family"
  | invalidPrefix => "routing: invalid config: invalid route prefix"
  | scope n => "route scope " ++ toString n ++ " outside netlink uint8 range"

def ipNetFromPrefix (p : Prefix) : Except RouteError IPNet :=
  if !p.isValid || p.addr.is4In6 then .error .invalidPrefix
  else
    let addr := netIPFromAddr p.addr
    let bits := if p.addr.is4 then 32 else 128
    .ok ⟨(ipMask addr (cidrMask p.len bits)).getD [], cidrMask p.len bits⟩

/-! ## Routes -/

def prefixMatchesFamily (p : Prefix) (family : Int) : Bool :=
  if !p.isValid || p.addr.is4In6 then false
  else (family == afInet && p.addr.is4) || (family == afInet6 && p.addr.is6)

def validPreferredSourceForFamily (addr : Addr) (family : Int) : Bool :=
  if !validPreferredSource addr then false
  else (family == afInet && addr.is4) || (family == afInet6 && addr.is6)

def netIPFromPreferredSource (addr : Addr) (family : Int) : IP :=
  if !validPreferredSourceForFamily addr family then [] else netIPFromAddr addr

/-- The destination of a netlink route; a default route carries none. -/
def dstFromNetlink (route : Netlink.Route) : Option Prefix :=
  match route.dst with
  | some network => prefixFromIPNet network
  | none => some (familyDefaultPrefix route.family)

/-- A gateway attribute, of the route or of a next hop; `none` rejects the route. -/
def gatewayFromNetlink (gw : IP) : Option Addr :=
  if 0 < gw.length then addrFromIP gw else some .zero

/-- The preferred source; one the family cannot have is dropped. -/
def preferredSourceFromNetlink (src : IP) (family : Int) : Addr :=
  if 0 < src.length then
    match addrFromIP src with
    | some addr => if validPreferredSourceForFamily addr family then addr else .zero
    | none => .zero
  else .zero

/-- The loop of `routeFromNetlink` over the next hops. -/
def hopsFromNetlink : Route → List (Option Netlink.NexthopInfo) → Option Route
  | normalized, [] => some normalized
  | normalized, none :: hops => hopsFromNetlink { normalized with type := .unsupported } hops
  | normalized, some hop :: hops =>
    if hop.newDst || hop.encap || hop.via then
      hopsFromNetlink { normalized with type := .unsupported } hops
    else match gatewayFromNetlink hop.gw with
      | none => none
      | some gateway =>
        hopsFromNetlink
          { normalized with
            multipath := normalized.multipath ++ [⟨hop.linkIndex, gateway, hop.flags⟩] }
          hops

/-- The zero `Route` with type unsupported, for a route with attributes that are not handled. -/
def unsupportedRoute : Route where
  family := 0
  table := 0
  dst := .zero
  gateway := .zero
  preferredSource := .zero
  linkIndex := 0
  priority := 0
  scope := 0
  flags := 0
  type := .unsupported
  multipath := []

/-- A netlink route without its next hops. -/
def normalizedRoute (route : Netlink.Route) (dst : Prefix) (gateway : Addr) : Route where
  family := route.family
  table := route.table
  dst := dst
  gateway := gateway
  preferredSource := preferredSourceFromNetlink route.src route.family
  linkIndex := route.linkIndex
  priority := route.priority
  scope := route.scope.toNat
  flags := route.flags
  type := if route.type ≠ 0 ∧ route.type ≠ rtnUnicast then .unsupported else .unicast
  multipath := []

/-- `none` is the result with `false`, on which `ListRoutes` skips the route. -/
def routeFromNetlink (route : Netlink.Route) : Option Route :=
  if route.newDst || route.encap || route.via || route.mplsDst then some unsupportedRoute
  else match dstFromNetlink route with
    | none => none
    | some dst =>
      if !prefixMatchesFamily dst route.family then none
      else match gatewayFromNetlink route.gw with
        | none => none
        | some gateway => hopsFromNetlink (normalizedRoute route dst gateway) route.multiPath

/-- `ListRoutes`, on the routes the kernel answers with. -/
def listRoutes (routes : List Netlink.Route) : List Route := routes.filterMap routeFromNetlink

def nexthopToNetlink (hop : Nexthop) : Netlink.NexthopInfo where
  linkIndex := hop.linkIndex
  gw := netIPFromAddr hop.gateway
  flags := hop.flags
  newDst := false
  encap := false
  via := false

def netlinkRoute (route : Route) (dst : IPNet) : Netlink.Route where
  family := route.family
  table := route.table
  dst := some dst
  gw := netIPFromAddr route.gateway
  src := netIPFromPreferredSource route.preferredSource route.family
  linkIndex := route.linkIndex
  priority := route.priority
  scope := BitVec.ofInt 8 route.scope
  flags := route.flags
  type := rtnUnicast
  multiPath := route.multipath.map fun hop => some (nexthopToNetlink hop)
  newDst := false
  encap := false
  via := false
  mplsDst := false

def routeToNetlink (route : Route) : Except RouteError Netlink.Route :=
  if !prefixMatchesFamily route.dst route.family then .error .destinationFamily
  else match ipNetFromPrefix route.dst with
    | .error e => .error e
    | .ok dst =>
      if route.scope < 0 ∨ 255 < route.scope then .error (.scope route.scope)
      else .ok (netlinkRoute route dst)

/-! ## Rules -/

def ruleFromNetlink (rule : Netlink.Rule) : Rule where
  family := rule.family
  priority := rule.priority
  action := if rule.type = frActUnreachable then .unreachable else .lookup
  table := if rule.type = frActUnreachable then 0 else rule.table
  mark := rule.mark
  mask := rule.mask.getD 0

def ruleToNetlink (rule : Rule) : Netlink.Rule :=
  let out := { Netlink.newRule with
    family := rule.family
    priority := rule.priority
    mark := rule.mark
    mask := if rule.mask ≠ 0 then some rule.mask else none }
  if rule.action = .unreachable then { out with type := frActUnreachable }
  else { out with table := rule.table }

/-! ## Addresses, there and back -/

variable {a : Addr} {ip : IP}

theorem addrFromSlice_short (x : BitVec 32) : addrFromSlice (ofWord 4 x) = some (.v4 x) := by
  rw [addrFromSlice, if_pos length_ofWord, toWord_ofWord (by omega)]

theorem addrFromSlice_long (x : BitVec 128) : addrFromSlice (ofWord 16 x) = some (.v6 x "") := by
  have hlen : (ofWord 16 x).length = 16 := length_ofWord
  rw [addrFromSlice, if_neg (by omega), if_pos hlen, toWord_ofWord (by omega)]

/-- Every form of an address is read as that address. -/
theorem addrFromIP_of_represents (h : Represents ip a) : addrFromIP ip = some a := by
  cases h with
  | short x => rw [addrFromIP, to4_short]; exact addrFromSlice_short x
  | long x => rw [addrFromIP, to4_long]; exact addrFromSlice_short x
  | v6 x hx =>
    have h16 : to16 (ofWord 16 x) = some (ofWord 16 x) := (Represents.v6 x hx).to16 rfl
    rw [addrFromIP, to4_v6 hx, h16]
    exact addrFromSlice_long x

theorem represents_of_addrFromIP (h : addrFromIP ip = some a) : Represents ip a := by
  by_cases hlen : ip.length = 4 ∨ ip.length = 16
  · obtain ⟨b, hb⟩ := exists_represents hlen
    rw [addrFromIP_of_represents hb] at h
    cases h
    exact hb
  · have h4 : ip.length ≠ 4 := fun h' => hlen (.inl h')
    have h16 : ip.length ≠ 16 := fun h' => hlen (.inr h')
    simp [addrFromIP, to4, to16, h4, h16] at h

theorem netIPFromAddr_eq (a : Addr) : netIPFromAddr a = addrBytes a := by
  cases a with
  | zero => rfl
  | v4 x => rw [netIPFromAddr, to4_long]; rfl
  | v6 x z => rfl

/-- Absent, or an address that a byte slice can represent. -/
def AbsentOrPlain (a : Addr) : Prop := a = .zero ∨ Plain a

theorem gatewayFromNetlink_netIPFromAddr (h : AbsentOrPlain a) :
    gatewayFromNetlink (netIPFromAddr a) = some a := by
  rcases h with rfl | h
  · rfl
  · have hlen : 0 < (addrBytes a).length := by
      rw [length_addrBytes h, width]
      split <;> omega
    rw [netIPFromAddr_eq, gatewayFromNetlink, if_pos hlen, addrFromIP_of_represents h.represents]

theorem absentOrPlain_of_gatewayFromNetlink (h : gatewayFromNetlink ip = some a) :
    AbsentOrPlain a := by
  unfold gatewayFromNetlink at h
  split at h
  · exact .inr (represents_of_addrFromIP h).plain
  · exact .inl (Option.some.inj h).symm

/-- A preferred source is absent, or one its family can have. -/
def AbsentOrPreferred (a : Addr) (family : Int) : Prop :=
  a = .zero ∨ validPreferredSourceForFamily a family = true

theorem plain_of_validPreferredSourceForFamily {family : Int}
    (h : validPreferredSourceForFamily a family = true) : Plain a := by
  unfold validPreferredSourceForFamily at h
  split at h
  · cases h
  · rename_i hvalid
    rw [Bool.not_eq_true', Bool.not_eq_false] at hvalid
    simp only [validPreferredSource, Bool.and_eq_true, Bool.not_eq_true', beq_iff_eq] at hvalid
    exact ⟨hvalid.1.1.1.1.1.1, hvalid.1.1.1.1.1.2, hvalid.1.2⟩

theorem preferredSourceFromNetlink_netIP {family : Int} (h : AbsentOrPreferred a family) :
    preferredSourceFromNetlink (netIPFromPreferredSource a family) family = a := by
  rcases h with rfl | h
  · rfl
  · have hplain := plain_of_validPreferredSourceForFamily h
    have hlen : 0 < (addrBytes a).length := by
      rw [length_addrBytes hplain, width]
      split <;> omega
    simp only [netIPFromPreferredSource, h, Bool.not_true, Bool.false_eq_true, if_false,
      netIPFromAddr_eq, preferredSourceFromNetlink, hlen, if_true,
      addrFromIP_of_represents hplain.represents]

theorem absentOrPreferred_fromNetlink (src : IP) (family : Int) :
    AbsentOrPreferred (preferredSourceFromNetlink src family) family := by
  unfold preferredSourceFromNetlink
  split
  · split
    · split
      · rename_i hvalid
        exact .inr hvalid
      · exact .inl rfl
    · exact .inl rfl
  · exact .inl rfl

/-! ## Prefixes, there and back -/

variable {p : Prefix} {family : Int}

/-- A destination of the family: valid, and not a mapped IPv6 prefix. -/
structure OfFamily (p : Prefix) (family : Int) : Prop where
  valid : p.isValid = true
  not_mapped : p.addr.is4In6 = false
  family : (family = afInet ∧ p.addr.is4 = true) ∨ (family = afInet6 ∧ p.addr.is6 = true)

theorem prefixMatchesFamily_iff : prefixMatchesFamily p family = true ↔ OfFamily p family := by
  unfold prefixMatchesFamily
  split
  · rename_i h
    refine iff_of_false Bool.false_ne_true fun hp => ?_
    rw [hp.valid, hp.not_mapped] at h
    cases h
  · rename_i h
    simp only [Bool.or_eq_true, Bool.not_eq_true', not_or, Bool.not_eq_false, Bool.not_eq_true] at h
    rw [Bool.or_eq_true, Bool.and_eq_true, Bool.and_eq_true, beq_iff_eq, beq_iff_eq]
    exact ⟨fun hf => ⟨h.1, h.2, hf⟩, fun hp => hp.family⟩

theorem plain_addr (hvalid : p.isValid = true) (hmapped : p.addr.is4In6 = false) : Plain p.addr :=
  ⟨Prefix.addr_isValid hvalid, hmapped, p.zoneless⟩

theorem cidrMask_len (h : Plain p.addr) :
    cidrMask p.len (if p.addr.is4 then 32 else 128) = cidrMaskBytes (width p.addr) p.len := by
  have hlen := len_le h
  cases h4 : p.addr.is4 with
  | false =>
    simp only [width, h4, Bool.false_eq_true, if_false] at hlen ⊢
    rw [cidrMask, if_neg (by omega), if_neg (by omega)]
  | true =>
    simp only [width, h4, if_true] at hlen ⊢
    rw [cidrMask, if_neg (by omega), if_neg (by omega)]

theorem ofPrefix_masked (hvalid : p.isValid = true) : IPNet.ofPrefix p.masked =
    ⟨addrBytes p.masked.addr, cidrMaskBytes (width p.addr) p.len⟩ := by
  rw [IPNet.ofPrefix, width, Prefix.masked_is4 hvalid, Prefix.len, Prefix.masked_bitsPlusOne hvalid]
  rfl

/-- The network of a prefix is the masked prefix in the short form. -/
theorem ipNetFromPrefix_eq (hvalid : p.isValid = true) (hmapped : p.addr.is4In6 = false) :
    ipNetFromPrefix p = .ok (IPNet.ofPrefix p.masked) := by
  have hplain := plain_addr hvalid hmapped
  simp only [ipNetFromPrefix, hvalid, hmapped, Bool.not_true, Bool.or_false, Bool.false_eq_true,
    if_false, netIPFromAddr_eq, cidrMask_len hplain, ipMask_addrBytes hvalid hplain,
    Option.getD_some, ofPrefix_masked hvalid]

theorem ofAddr_addr (hvalid : p.isValid = true) : Prefix.ofAddr p.addr p.len = p := by
  have hpos : 0 < p.bitsPlusOne := by simpa [Prefix.isValid] using hvalid
  obtain ⟨addr, b, hz, hb⟩ := p
  cases addr with
  | zero => simp only [maxBitsPlusOne] at hb hpos; omega
  | v4 x =>
    simp only [maxBitsPlusOne] at hb hpos
    have hlen : b - 1 ≤ 32 := by omega
    have hsucc : b - 1 + 1 = b := by omega
    simp [Prefix.ofAddr, Prefix.len, Addr.isValid, Addr.bitLen, Addr.withoutZone, hlen, hsucc]
  | v6 x z =>
    simp only [maxBitsPlusOne] at hb hpos
    obtain rfl : z = "" := hz
    have hlen : b - 1 ≤ 128 := by omega
    have hsucc : b - 1 + 1 = b := by omega
    simp [Prefix.ofAddr, Prefix.len, Addr.isValid, Addr.bitLen, Addr.withoutZone, hlen, hsucc]

theorem unmap_of_plain (h : Plain a) : a.unmap = a := by
  cases a with
  | zero | v4 x => rfl
  | v6 x z => exact if_neg (Bool.eq_false_iff.mp h.2.1)

/-- A prefix in the short form is read back masked. -/
theorem prefixFromIPNet_ofPrefix (hvalid : p.isValid = true) (hmapped : p.addr.is4In6 = false) :
    prefixFromIPNet (IPNet.ofPrefix p) = some p.masked := by
  have hplain := plain_addr hvalid hmapped
  have haddr : addrFromIP (IPNet.ofPrefix p).ip = some p.addr :=
    addrFromIP_of_represents hplain.represents
  simp only [prefixFromIPNet, maskSize_ofPrefix hplain, haddr, unmap_of_plain hplain, ite_self,
    ofAddr_addr hvalid, hvalid, hmapped, Bool.not_true, Bool.or_false, Bool.false_eq_true,
    if_false]
  exact if_neg (by omega)

/-- What is read from a network has no host bits. -/
theorem masked_of_prefixFromIPNet {network : IPNet} (h : prefixFromIPNet network = some p) :
    p.masked = p := by
  unfold prefixFromIPNet at h
  dsimp only at h
  split at h
  · cases h
  · split at h
    · cases h
    · rename_i addr haddr
      generalize Prefix.ofAddr
        (if (maskSize network.mask).2 = 32 then addr.unmap else addr) _ = q at h
      split at h
      · cases h
      · rename_i hvalid
        simp only [Bool.or_eq_true, Bool.not_eq_true', not_or, Bool.not_eq_false] at hvalid
        rw [← Option.some.inj h]
        exact Prefix.masked_masked hvalid.1

theorem masked_of_dstFromNetlink {n : Netlink.Route} (h : dstFromNetlink n = some p) :
    p.masked = p := by
  unfold dstFromNetlink at h
  split at h
  · exact masked_of_prefixFromIPNet h
  · rw [← Option.some.inj h]
    exact masked_familyDefaultPrefix n.family

/-! ## Routes, there and back -/

/-- The routes a netlink message holds without loss. -/
structure Convertible (r : Route) : Prop where
  unicast : r.type = .unicast
  dst : OfFamily r.dst r.family
  masked : r.dst.masked = r.dst
  scope : 0 ≤ r.scope ∧ r.scope ≤ 255
  gateway : AbsentOrPlain r.gateway
  hops : ∀ hop ∈ r.multipath, AbsentOrPlain hop.gateway
  source : AbsentOrPreferred r.preferredSource r.family

variable {r : Route}

theorem hopsFromNetlink_map {hops : List Nexthop}
    (h : ∀ hop ∈ hops, AbsentOrPlain hop.gateway) (normalized : Route) :
    hopsFromNetlink normalized (hops.map fun hop => some (nexthopToNetlink hop)) =
      some { normalized with multipath := normalized.multipath ++ hops } := by
  induction hops generalizing normalized with
  | nil => simp [hopsFromNetlink]
  | cons hop hops ih =>
    have hgw : gatewayFromNetlink (nexthopToNetlink hop).gw = some hop.gateway :=
      gatewayFromNetlink_netIPFromAddr (h hop mem_cons_self)
    have hattrs : ((nexthopToNetlink hop).newDst || (nexthopToNetlink hop).encap ||
        (nexthopToNetlink hop).via) = false := rfl
    rw [map_cons, hopsFromNetlink, hattrs, if_neg Bool.false_ne_true, hgw]
    dsimp only
    rw [ih (fun hop' hmem => h hop' (mem_cons_of_mem hop hmem))]
    simp [nexthopToNetlink]

theorem toNat_ofInt_scope {scope : Int} (hlo : 0 ≤ scope) (hhi : scope ≤ 255) :
    ((BitVec.ofInt 8 scope).toNat : Int) = scope := by
  rw [BitVec.toNat_ofInt]
  omega

theorem routeToNetlink_eq (h : Convertible r) :
    routeToNetlink r = .ok (netlinkRoute r (IPNet.ofPrefix r.dst)) := by
  have hscope : ¬(r.scope < 0 ∨ 255 < r.scope) := by
    have := h.scope
    omega
  rw [routeToNetlink, prefixMatchesFamily_iff.mpr h.dst,
    ipNetFromPrefix_eq h.dst.valid h.dst.not_mapped, h.masked]
  exact if_neg hscope

/-- Writing a convertible route and reading it back. -/
theorem routeFromNetlink_netlinkRoute (h : Convertible r) :
    routeFromNetlink (netlinkRoute r (IPNet.ofPrefix r.dst)) = some r := by
  have hdst : dstFromNetlink (netlinkRoute r (IPNet.ofPrefix r.dst)) = some r.dst :=
    (prefixFromIPNet_ofPrefix h.dst.valid h.dst.not_mapped).trans (congrArg some h.masked)
  have hfamily : prefixMatchesFamily r.dst (netlinkRoute r (IPNet.ofPrefix r.dst)).family = true :=
    prefixMatchesFamily_iff.mpr h.dst
  have hgw : gatewayFromNetlink (netlinkRoute r (IPNet.ofPrefix r.dst)).gw = some r.gateway :=
    gatewayFromNetlink_netIPFromAddr h.gateway
  have hattrs : ((netlinkRoute r (IPNet.ofPrefix r.dst)).newDst ||
      (netlinkRoute r (IPNet.ofPrefix r.dst)).encap ||
      (netlinkRoute r (IPNet.ofPrefix r.dst)).via ||
      (netlinkRoute r (IPNet.ofPrefix r.dst)).mplsDst) = false := rfl
  rw [routeFromNetlink, hattrs, if_neg Bool.false_ne_true, hdst]
  dsimp only
  rw [hfamily, hgw]
  refine (hopsFromNetlink_map h.hops _).trans (congrArg some ?_)
  have hsource : preferredSourceFromNetlink
      (netIPFromPreferredSource r.preferredSource r.family) r.family = r.preferredSource :=
    preferredSourceFromNetlink_netIP h.source
  have hscope := toNat_ofInt_scope h.scope.1 h.scope.2
  have hunicast := h.unicast
  cases r
  simp_all [normalizedRoute, netlinkRoute]

/-- What the loop over the next hops keeps and adds. -/
theorem hopsFromNetlink_some {hops : List (Option Netlink.NexthopInfo)} {normalized : Route}
    (h : hopsFromNetlink normalized hops = some r) :
    r = { normalized with type := r.type, multipath := r.multipath } ∧
      (r.type = .unicast → normalized.type = .unicast) ∧
      ∀ hop ∈ r.multipath, hop ∈ normalized.multipath ∨ AbsentOrPlain hop.gateway := by
  induction hops generalizing normalized with
  | nil =>
    obtain rfl : normalized = r := Option.some.inj h
    exact ⟨rfl, id, fun hop hmem => .inl hmem⟩
  | cons hop hops ih =>
    cases hop with
    | none =>
      obtain ⟨heq, htype, hhops⟩ := ih h
      exact ⟨heq, fun hr => (nomatch htype hr), hhops⟩
    | some hop =>
      rw [hopsFromNetlink] at h
      split at h
      · obtain ⟨heq, htype, hhops⟩ := ih h
        exact ⟨heq, fun hr => (nomatch htype hr), hhops⟩
      · split at h
        · cases h
        · rename_i gateway hgw
          obtain ⟨heq, htype, hhops⟩ := ih h
          refine ⟨heq, htype, fun hop' hmem => ?_⟩
          rcases hhops hop' hmem with hmem | hplain
          · rcases mem_append.mp hmem with hmem | hmem
            · exact .inl hmem
            · rw [mem_singleton.mp hmem]
              exact .inr (absentOrPlain_of_gatewayFromNetlink hgw)
          · exact .inr hplain

/-- Every unicast route read from netlink is convertible. -/
theorem convertible_of_routeFromNetlink {n : Netlink.Route} (h : routeFromNetlink n = some r)
    (hunicast : r.type = .unicast) : Convertible r := by
  unfold routeFromNetlink at h
  split at h
  · rw [← Option.some.inj h] at hunicast
    cases hunicast
  · split at h
    · cases h
    · rename_i dst hdst
      split at h
      · cases h
      · rename_i hmatch
        split at h
        · cases h
        · rename_i gateway hgw
          obtain ⟨heq, -, hhops⟩ := hopsFromNetlink_some h
          have hfamily : OfFamily dst n.family := by
            apply prefixMatchesFamily_iff.mp
            simpa using hmatch
          have hscope := n.scope.isLt
          refine ⟨hunicast, ?_, ?_, ?_, ?_, ?_, ?_⟩
          · rw [heq]
            exact hfamily
          · rw [heq]
            exact masked_of_dstFromNetlink hdst
          · rw [heq]
            show 0 ≤ (n.scope.toNat : Int) ∧ (n.scope.toNat : Int) ≤ 255
            omega
          · rw [heq]
            exact absentOrPlain_of_gatewayFromNetlink hgw
          · intro hop hmem
            exact (hhops hop hmem).resolve_left not_mem_nil
          · rw [heq]
            exact absentOrPreferred_fromNetlink n.src n.family

/-- The safe table's copy differs in its table and flags only. -/
theorem Convertible.safeTableRoute (h : Convertible r) (table : Int) :
    Convertible (safeTableRoute r table) where
  unicast := h.unicast
  dst := h.dst
  masked := h.masked
  scope := h.scope
  gateway := h.gateway
  hops hop hmem := by
    obtain ⟨hop', hmem', rfl⟩ := mem_map.mp hmem
    exact h.hops hop' hmem'
  source := h.source

/-! ## Rules, there and back -/

/-- A rule that is not a lookup names no table. -/
theorem ruleFromNetlink_ruleToNetlink {rule : Rule}
    (h : rule.action = .unreachable → rule.table = 0) :
    ruleFromNetlink (ruleToNetlink rule) = rule := by
  obtain ⟨family, priority, action, table, mark, mask⟩ := rule
  have hmask : (if mask ≠ 0 then some mask else none).getD 0 = mask := by
    by_cases hzero : mask = 0
    · rw [if_neg (not_not_intro hzero), hzero]
      rfl
    · rw [if_pos hzero]
      rfl
  cases action with
  | lookup =>
    simp only [ruleToNetlink, ruleFromNetlink, Netlink.newRule, reduceCtorEq, if_false, hmask]
    rfl
  | unreachable =>
    obtain rfl : table = 0 := h rfl
    simp only [ruleToNetlink, ruleFromNetlink, Netlink.newRule, if_true, hmask]

theorem table_of_mem_numberRules {n : Int} {rules : List Rule} {rule : Rule}
    (h : ∀ rule ∈ rules, rule.action = .unreachable → rule.table = 0)
    (hmem : rule ∈ numberRules n rules) : rule.action = .unreachable → rule.table = 0 := by
  induction rules generalizing n with
  | nil => cases hmem
  | cons first rules ih =>
    rcases mem_cons.mp hmem with rfl | hmem
    · exact h first mem_cons_self
    · exact ih (fun rule hrule => h rule (mem_cons_of_mem first hrule)) hmem

theorem table_of_mem_policyRules {config : Config} {family : Int} {rule : Rule}
    (hmem : rule ∈ policyRules config family) : rule.action = .unreachable → rule.table = 0 := by
  unfold policyRules at hmem
  split at hmem
  · simp_all [allRule]
  · split at hmem <;>
      simp only [mem_cons, not_mem_nil, or_false] at hmem
    · rcases hmem with rfl | rfl | rfl <;> simp [allRule, userRule]
    · rcases hmem with rfl | rfl | rfl | rfl | rfl <;> simp [allRule, userRule]
    · rcases hmem with rfl | rfl | rfl <;> simp [allRule, userRule]
    · rcases hmem with rfl | rfl | rfl | rfl <;> simp [allRule, userRule]

theorem table_of_mem_compileRules {config : Config} {family : Int} {rule : Rule}
    (hmem : rule ∈ compileRules config family) : rule.action = .unreachable → rule.table = 0 := by
  rcases mem_append.mp hmem with hmem | hmem
  · simp only [appRules, markRule, mem_cons, not_mem_nil, or_false] at hmem
    rcases hmem with rfl | rfl <;> simp
  · exact table_of_mem_numberRules (fun _ hrule => table_of_mem_policyRules hrule) hmem

/-! ## The round trip -/

/-- A route that netlink keeps: it can be written, and is read back as it was. -/
def Replays (r : Route) : Prop :=
  ∃ n, routeToNetlink r = .ok n ∧ routeFromNetlink n = some r

theorem Convertible.replays (h : Convertible r) : Replays r :=
  ⟨_, routeToNetlink_eq h, routeFromNetlink_netlinkRoute h⟩

theorem netlink_round_trip :
    (∀ r, Convertible r → Replays r) ∧
      (∀ n r, routeFromNetlink n = some r → r.type = .unicast →
        ∀ table, Replays (safeTableRoute r table)) ∧
      (∀ routes, ∀ r ∈ listRoutes routes, ∀ tunIndex,
        classifySafeRoute r tunIndex = .routeSafe →
          ∀ table, Replays (safeTableRoute r table)) ∧
      (∀ config family, ∀ rule ∈ compileRules config family,
        ruleFromNetlink (ruleToNetlink rule) = rule) ∧
      ∀ config family, ruleFromNetlink (ruleToNetlink (transitionGuard config family)) =
        transitionGuard config family := by
  have hread : ∀ n r, routeFromNetlink n = some r → r.type = .unicast →
      ∀ table, Replays (safeTableRoute r table) := fun n r hr hunicast table =>
    ((convertible_of_routeFromNetlink hr hunicast).safeTableRoute table).replays
  refine ⟨fun r h => h.replays, hread, ?_, ?_, ?_⟩
  · intro routes r hmem tunIndex hsafe table
    obtain ⟨n, -, hn⟩ := mem_filterMap.mp hmem
    exact hread n r hn (classifySafeRoute_iff.mp hsafe).unicast table
  · intro config family rule hmem
    exact ruleFromNetlink_ruleToNetlink (table_of_mem_compileRules hmem)
  · intro config family
    exact ruleFromNetlink_ruleToNetlink fun _ => rfl

/-- The kernel's answer for 10.0.0.0/8 through 192.168.1.1 on link 2, addresses in the long
    form, with the source 192.168.1.2 and a link that is down. -/
def lanMessage : Netlink.Route where
  family := afInet
  table := rtTableMain
  dst := some ⟨v4InV6Prefix ++ [10, 0, 0, 0], [255, 0, 0, 0]⟩
  gw := v4InV6Prefix ++ [192, 168, 1, 1]
  src := [192, 168, 1, 2]
  linkIndex := 2
  priority := 100
  scope := 0
  flags := 20
  type := 0
  multiPath := []
  newDst := false
  encap := false
  via := false
  mplsDst := false

/-- A route to fd00::/8 over two links, one of them through fe80::1. -/
def meshRoute : Route where
  family := afInet6
  table := rtTableMain
  dst := Prefix.ofV6 0xfd000000000000000000000000000000#128 8
  gateway := .zero
  preferredSource := .v6 0xfd000000000000000000000000000001#128 ""
  linkIndex := 0
  priority := 1024
  scope := 253
  flags := 0
  type := .unicast
  multipath := [⟨2, .zero, 0⟩, ⟨3, .v6 0xfe800000000000000000000000000001#128 "", 4⟩]

theorem meshRoute_convertible : Convertible meshRoute where
  unicast := rfl
  dst := prefixMatchesFamily_iff.mp (by decide +kernel)
  masked := by decide +kernel
  scope := by decide
  gateway := .inl rfl
  hops hop hmem := by
    simp only [meshRoute, mem_cons, not_mem_nil, or_false] at hmem
    rcases hmem with rfl | rfl
    · exact .inl rfl
    · exact .inr ⟨rfl, by decide +kernel, rfl⟩
  source := .inr (by decide +kernel)

theorem netlink_round_trip_mesh :
    Replays meshRoute ∧
      (∃ r, routeFromNetlink lanMessage = some r ∧ r.type = .unicast ∧
        r.gateway = .v4 0xc0a80101#32 ∧ Replays (safeTableRoute r 51821)) ∧
      ruleFromNetlink (ruleToNetlink (transitionGuard sampleConfig afInet)) =
        transitionGuard sampleConfig afInet := by
  refine ⟨netlink_round_trip.1 meshRoute meshRoute_convertible, ?_,
    netlink_round_trip.2.2.2.2 sampleConfig afInet⟩
  have hread : (routeFromNetlink lanMessage).any
      (fun r => r.type == .unicast && r.gateway == .v4 0xc0a80101#32) = true := by decide +kernel
  obtain ⟨r, hr, hfields⟩ := (Option.any_eq_true _ _).mp hread
  rw [Bool.and_eq_true, beq_iff_eq, beq_iff_eq] at hfields
  exact ⟨r, hr, hfields.1, hfields.2, netlink_round_trip.2.1 lanMessage r hr hfields.1 51821⟩

end SysnetLinux.Routing
