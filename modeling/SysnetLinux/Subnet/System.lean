/-
  SysnetLinux.Subnet.System

  The local networks as the subnet allocator sees them (`subnet/system.go`) and the filter
  it wraps around the caller's (`subnet/allocator.go`).

  The copies the source takes of addresses and masks are the values themselves.  The
  allocator that draws candidates and asks the filter is another module's.
-/

import SysnetLinux.Net.Values

namespace SysnetLinux.Subnet

open Net

/-- A `net.Addr`: a pointer to a network, a pointer to an address, or another type. -/
inductive NetAddr where
  | ipNet (network : Option IPNet)
  | ipAddr (ip : Option IP)
  | other
  deriving DecidableEq, Repr

structure SystemNetworks where
  ips : List IP
  networks : List IPNet
  deriving DecidableEq, Repr

def normalizeIP (ip : IP) : Option IP :=
  match to4 ip with
  | some ip4 => some ip4
  | none => to16 ip

/-- `Size` gives no negative length, so the first check of the source is on the bits. -/
def normalizeIPNet (network : Option IPNet) : Option IPNet :=
  match network with
  | none => none
  | some network =>
    let bits := (maskSize network.mask).2
    if bits ≠ 32 ∧ bits ≠ 128 then none
    else match (if bits = 32 then to4 network.ip else to16 network.ip) with
      | none => none
      | some ip => some ⟨(ipMask ip network.mask).getD [], network.mask⟩

def addrIPNet : NetAddr → Option (IP × IPNet)
  | .ipNet network =>
    match network, normalizeIPNet network with
    | some addr, some normalized =>
      match normalizeIP addr.ip with
      | none => none
      | some ip => some (ip, normalized)
    | _, _ => none
  | .ipAddr none => none
  | .ipAddr (some addr) =>
    match normalizeIP addr with
    | none => none
    | some ip =>
      let bits := if (to4 ip).isSome then 32 else 128
      some (ip, ⟨ip, cidrMask bits bits⟩)
  | .other => none

def newSystemNetworks (addrs : List NetAddr) : SystemNetworks :=
  ⟨(addrs.filterMap addrIPNet).map Prod.fst, (addrs.filterMap addrIPNet).map Prod.snd⟩

def ignoredBroadOverlapNetwork (network : IPNet) : Bool := decide ((maskSize network.mask).1 < 8)

def sameSubnet (a b : IPNet) : Bool :=
  (maskSize a.mask).2 == (maskSize b.mask).2 && (maskSize a.mask).1 == (maskSize b.mask).1 &&
    ipEqual a.ip b.ip

def sameFamily (a b : IP) : Bool := (to4 a).isNone == (to4 b).isNone

def overlap (a b : IPNet) : Bool :=
  sameFamily a.ip b.ip && (a.contains b.ip || b.contains a.ip)

namespace SystemNetworks

def usesSubnet (s : SystemNetworks) (candidate : Option IPNet) : Bool :=
  match normalizeIPNet candidate with
  | none => false
  | some candidate =>
    (s.ips.any fun localIP => sameFamily candidate.ip localIP && candidate.contains localIP) ||
      s.networks.any fun localNetwork =>
        sameSubnet candidate localNetwork ||
          (!ignoredBroadOverlapNetwork localNetwork && overlap candidate localNetwork)

end SystemNetworks

/-! ## Filters -/

/-- A caller's filter; nil allows everything. -/
abbrev Filter (α : Type) := Option (α → Bool)

def Filter.allows {α : Type} (filter : Filter α) (x : α) : Bool :=
  match filter with
  | none => true
  | some f => f x

/-- `currentSystemNetworks`: nothing if there is no provider or it fails. -/
def currentSystemNetworks (provider : Option (Option (List NetAddr))) : Option SystemNetworks :=
  match provider with
  | none => none
  | some none => none
  | some (some addrs) => some (newSystemNetworks addrs)

def wrapDynamicSubnetFilter (filter : Filter (Option IPNet))
    (provider : Option (Option (List NetAddr))) (network : Option IPNet) : Bool :=
  match currentSystemNetworks provider with
  | some system => if system.usesSubnet network then false else filter.allows network
  | none => filter.allows network

end SysnetLinux.Subnet
