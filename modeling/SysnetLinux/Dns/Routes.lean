/-
  SysnetLinux.Dns.Routes

  The upstream routes of the systemd-resolved provider (`resolved.go`): the servers it forwards
  to, and which of the routes a question goes to.

  The entries of `Manager.DNS` and `Manager.Domains` come in the order of the property; the maps
  of the source by interface index are the parts of these lists.
-/

import Mathlib.Data.List.Sort
import SysnetLinux.Dns.Servers
import SysnetLinux.Strings

namespace SysnetLinux.Dns

open Netip Strings

/-! ## Domains -/

def rootDomain : String := "."

def normalizeResolvedDomain (domain : String) : String :=
  let trimmed := trimSpace (trimHead '~' domain.toList)
  if trimmed = [] ∨ trimmed = ['.'] then rootDomain
  else String.ofList (trimLast '.' (trimmed.map toLower) ++ ['.'])

/-- `resolvedLinkDomain`. -/
structure LinkDomain where
  domain : String
  routingOnly : Bool
  deriving DecidableEq, Repr

/-- `resolvedGlobalDomain`. -/
structure GlobalDomain where
  ifIndex : Int
  domain : String
  routingOnly : Bool
  deriving DecidableEq, Repr

def globalDomainsAsLinkDomains (domains : List GlobalDomain) : List LinkDomain :=
  domains.map fun d => ⟨d.domain, d.routingOnly⟩

def linkDomainRoutes (domains : List LinkDomain) : List String :=
  domains.map fun d => normalizeResolvedDomain d.domain

def globalDomainRoutes (domains : List GlobalDomain) : List String :=
  domains.map fun d => normalizeResolvedDomain d.domain

/-- `longestDomain` of one domain. -/
def domainLength (domain : String) : Nat :=
  if domain = rootDomain then 0 else domain.utf8ByteSize

/-- `dedupeStrings`, with its stable sort by descending length. -/
def dedupeStrings (values : List String) : List String :=
  (Unseen.collect (values.filter fun value => value != "")).insertionSort
    fun a b => domainLength b ≤ domainLength a

/-! ## Building routes -/

/-- `resolvedRouteInput`. -/
structure RouteInput where
  domains : List String
  servers : List AddrPort
  deriving DecidableEq, Repr

/-- `resolvedUpstreamRoute`. -/
structure UpstreamRoute where
  name : String
  domains : List String
  urls : List String
  deriving DecidableEq, Repr

/-- `resolvedRouteBuilder`. -/
abbrev RouteBuilder := List RouteInput

namespace RouteBuilder

def add (b : RouteBuilder) (servers : List AddrPort) (domains : List String) : RouteBuilder :=
  let servers := dedupeServers servers
  if servers = [] then b
  else
    let domains := if domains = [] then [rootDomain] else domains
    b ++ [⟨dedupeStrings domains, servers⟩]

def addLink (b : RouteBuilder) (servers : List AddrPort) (domains : List LinkDomain) :
    RouteBuilder := b.add servers (linkDomainRoutes domains)

def addGlobal (b : RouteBuilder) (servers : List AddrPort) (domains : List GlobalDomain) :
    RouteBuilder := b.add servers (globalDomainRoutes domains)

def addDefault (b : RouteBuilder) (servers : List AddrPort) : RouteBuilder :=
  b.add servers [rootDomain]

end RouteBuilder

def resolvedBackendName : String := "default"

/-- The route of the input at position `i`. -/
def routeOf (input : RouteInput) (i : Nat) : UpstreamRoute where
  name := resolvedBackendName ++ "-" ++ toString i
  domains := input.domains
  urls := serverURLs input.servers

/-- The routes of `resolvedRouteBuilder.config`. -/
def RouteBuilder.routes (b : RouteBuilder) : List UpstreamRoute :=
  (b.zipIdx.filter fun x => serverURLs x.1.servers != []).map fun x => routeOf x.1 x.2

/-- The entry of a route in the signature. -/
def UpstreamRoute.signature (route : UpstreamRoute) : String :=
  route.name ++ "|" ++ ",".intercalate route.domains ++ "|" ++ ",".intercalate route.urls

/-! ## The upstream configuration -/

/-- What resolved reports about all links, and the target link as it has been saved. -/
structure Reported where
  targetIfidx : Int
  savedServers : List AddrPort
  savedDomains : List LinkDomain
  managerServers : List (Int × AddrPort)
  managerDomains : List GlobalDomain
  deriving DecidableEq, Repr

namespace Reported

/-- `managerServers[ifidx]`. -/
def serversOf (r : Reported) (ifidx : Int) : List AddrPort :=
  (r.managerServers.filter fun x => x.1 = ifidx).map Prod.snd

/-- `managerDomains[ifidx]`. -/
def domainsOf (r : Reported) (ifidx : Int) : List GlobalDomain :=
  r.managerDomains.filter fun d => d.ifIndex = ifidx

/-- The keys of `managerServers` in ascending order. -/
def ifindices (r : Reported) : List Int :=
  (Unseen.collect (r.managerServers.map Prod.fst)).insertionSort (· ≤ ·)

end Reported

/-- `resolvedUpstreamConfig`. -/
structure UpstreamConfig where
  routes : List UpstreamRoute
  signature : List String
  targetServers : List AddrPort
  targetDomains : List LinkDomain
  deriving DecidableEq, Repr

inductive UpstreamError where
  | noServers
  | noUsableServers
  deriving DecidableEq, Repr

def UpstreamError.message : UpstreamError → String
  | .noServers => "resolved: no upstream DNS servers"
  | .noUsableServers => "resolved: no usable upstream DNS servers"

/-- The servers and domains of the target link: what the link reports, what the manager
    reports for it, or what has been saved. -/
def targetLink (r : Reported) (exclude : List Addr) (servers : List AddrPort)
    (domains : List LinkDomain) : List AddrPort × List LinkDomain :=
  let servers := filterAddr servers exclude
  if servers = [] ∧ r.targetIfidx ≠ 0 then
    let manager := filterAddr (r.serversOf r.targetIfidx) exclude
    if manager ≠ [] then (manager, globalDomainsAsLinkDomains (r.domainsOf r.targetIfidx))
    else (filterAddr r.savedServers exclude, r.savedDomains)
  else (servers, domains)

/-- One round of the loop over the manager's entries. -/
def addManagerEntry (r : Reported) (exclude : List Addr) (b : RouteBuilder) (ifidx : Int) :
    RouteBuilder :=
  if r.targetIfidx ≠ 0 ∧ ifidx = r.targetIfidx then b
  else
    let servers := filterAddr (r.serversOf ifidx) exclude
    if servers = [] then b else b.addGlobal servers (r.domainsOf ifidx)

/-- The builder of `upstreamConfigFromLink` before the fallback. -/
def reportedRoutes (r : Reported) (exclude : List Addr) (servers : List AddrPort)
    (domains : List LinkDomain) : RouteBuilder :=
  let target := targetLink r exclude servers domains
  r.ifindices.foldl (addManagerEntry r exclude)
    (RouteBuilder.addLink [] target.1 target.2)

/-- `upstreamConfigFromLink`, from what it has read. -/
def upstreamConfigFromLink (r : Reported) (fallback : List AddrPort) (exclude : List Addr)
    (servers : List AddrPort) (domains : List LinkDomain) :
    Except UpstreamError UpstreamConfig :=
  let target := targetLink r exclude servers domains
  let reported := reportedRoutes r exclude servers domains
  let builder :=
    if reported = [] then reported.addDefault (filterAddr fallback exclude) else reported
  if builder = [] then .error .noServers
  else
    let routes := builder.routes
    if routes = [] then .error .noUsableServers
    else .ok ⟨routes, routes.map UpstreamRoute.signature, target.1, target.2⟩

/-! ## Routing a question -/

def dnsNameMatchesDomain (name domain : String) : Bool :=
  name == domain || ('.' :: domain.toList).isSuffixOf name.toList

/-- The name of the first question of a message. -/
def resolvedQuestionName : Option String → String
  | none => rootDomain
  | some name => normalizeResolvedDomain name

/-- The best route so far and the length of its domain. -/
structure BestRoute where
  name : String
  length : Int
  deriving DecidableEq, Repr

/-- One round of the inner loop of `resolvedRouteFunc`. -/
def BestRoute.tryDomain (question : String) (route : UpstreamRoute) (best : BestRoute)
    (domain : String) : BestRoute :=
  if domain = rootDomain ∨ dnsNameMatchesDomain question domain = true then
    if best.length < domainLength domain then ⟨route.name, domainLength domain⟩ else best
  else best

def BestRoute.tryRoute (question : String) (best : BestRoute) (route : UpstreamRoute) :
    BestRoute :=
  route.domains.foldl (BestRoute.tryDomain question route) best

/-- `resolvedRouteFunc`, for a message with this first question. -/
def resolvedRouteFunc (routes : List UpstreamRoute) (question : Option String) : String :=
  (routes.foldl (BestRoute.tryRoute (resolvedQuestionName question)) ⟨"", -1⟩).name

end SysnetLinux.Dns
