/-
  SysnetLinux.Dns.Resolved.Model

  The provider that is backed by systemd-resolved (`resolved.go`).

  A section under the mutex of the provider (`mu`) is one call, and so are the acquisition and the
  release of `dnsMu`, every D-Bus call and every `Close`.  Sections that only read are the call
  `load`.  `act` says what the sections do; `steps` is the world for any behaviour of resolved,
  and `answer` is a resolved that keeps the links as they have been set.

  Nothing reads the holder of `dnsMu`, the links with a setting of the provider (`applied`), and
  whether `UnsetDNS` or `Close` was the last to release `dnsMu` (`stopped`).
-/

import Mathlib.Data.List.Infix
import SysnetLinux.Dns.Refresh
import SysnetLinux.Lib.Bytes
import SysnetLinux.Lib.Prog

namespace SysnetLinux.Dns.Resolved

open Netip
open CallProg CallProg.Prog

/-! ## Servers as resolved has them -/

def afInet : Int := 2

def afInet6 : Int := 10

/-- `resolvedLinkNameserver`. -/
structure LinkNameserver where
  family : Int
  address : List (BitVec 8)
  deriving DecidableEq, Repr

/-- `resolvedLinkNameserverEx`. -/
structure LinkNameserverEx where
  family : Int
  address : List (BitVec 8)
  port : BitVec 16
  deriving DecidableEq, Repr

/-- `resolvedGlobalNameserver`. -/
structure GlobalNameserver where
  ifIndex : Int
  family : Int
  address : List (BitVec 8)
  deriving DecidableEq, Repr

/-- `resolvedGlobalNameserverEx`. -/
structure GlobalNameserverEx where
  ifIndex : Int
  family : Int
  address : List (BitVec 8)
  port : BitVec 16
  deriving DecidableEq, Repr

/-- An address that is not an IPv4 address is sent in its 16 byte form, without the zone. -/
def resolvedNameserver : Addr → LinkNameserver
  | .v4 ip => ⟨afInet, Bytes.ofWord 4 ip⟩
  | .v6 ip _ => ⟨afInet6, Bytes.ofWord 16 ip⟩
  | .zero => ⟨afInet6, Bytes.ofWord 16 (0 : BitVec 128)⟩

def addrFromResolved (family : Int) (raw : List (BitVec 8)) : Option Addr :=
  if family = afInet then
    if raw.length = 4 then some (.v4 (Bytes.toWord 32 raw)) else none
  else if family = afInet6 then
    if raw.length = 16 then some (.v6 (Bytes.toWord 128 raw) "") else none
  else none

def addrPort (addr : Addr) (port : BitVec 16) : AddrPort := ⟨addr, if port = 0 then 53 else port⟩

def LinkNameserver.server (s : LinkNameserver) : Option AddrPort :=
  (addrFromResolved s.family s.address).map fun addr => ⟨addr, 53⟩

def LinkNameserverEx.server (s : LinkNameserverEx) : Option AddrPort :=
  (addrFromResolved s.family s.address).map fun addr => addrPort addr s.port

def GlobalNameserver.server (s : GlobalNameserver) : Option (Int × AddrPort) :=
  (addrFromResolved s.family s.address).map fun addr => (s.ifIndex, ⟨addr, 53⟩)

def GlobalNameserverEx.server (s : GlobalNameserverEx) : Option (Int × AddrPort) :=
  (addrFromResolved s.family s.address).map fun addr => (s.ifIndex, addrPort addr s.port)

/-! ## Errors -/

/-- The error of a D-Bus call: an error reply, or something else, such as a timeout. -/
inductive BusError where
  | reply (name : String) (body : List String)
  | other (text : String)
  deriving DecidableEq, Repr

def isDBusUnknownMethod : BusError → Bool
  | .reply name _ => name == "org.freedesktop.DBus.Error.UnknownMethod"
  | .other _ => false

def isResolvedNoSuchLink : BusError → Bool
  | .reply name body =>
    ".NoSuchLink".toList.isSuffixOf name.toList ||
      body.any fun text => decide ("not known".toList <:+: text.toList)
  | .other _ => false

/-- The errors of the provider.  A joined error is a list. -/
inductive ResolvedError where
  | closed
  | invalidServer
  | invalidIndex (ifidx : Int)
  | noIndex
  | clearsActive
  | method (name : String) (e : BusError)
  | getLink (ifidx : Int) (e : BusError)
  | read (property : String) (e : BusError)
  | decode (property : String)
  | upstream (err : UpstreamError)
  | subscribe (changes : String) (e : BusError)
  /-- An error that is passed on as it is. -/
  | other (e : BusError)
  deriving DecidableEq, Repr

/-- The text of an error; `render` is the text of `ErrClosed`, of the error of a D-Bus call
    and of a failed decoding. -/
def ResolvedError.message (errClosed decoding : String) (render : BusError → String) :
    ResolvedError → String
  | .closed => errClosed
  | .invalidServer => "resolved: invalid DNS server"
  | .invalidIndex ifidx => "resolved: invalid interface index " ++ toString ifidx
  | .noIndex => "resolved: no interface index configured"
  | .clearsActive => "resolved: cannot clear interface index while DNS is active"
  | .method name e => "resolved: " ++ name ++ ": " ++ render e
  | .getLink ifidx e => "resolved: GetLink(" ++ toString ifidx ++ "): " ++ render e
  | .read property e => "resolved: read " ++ property ++ ": " ++ render e
  | .decode property => "resolved: decode " ++ property ++ ": " ++ decoding
  | .upstream err => err.message
  | .subscribe changes e => "resolved: subscribe " ++ changes ++ " changes: " ++ render e
  | .other e => render e

/-! ## Calls -/

/-- The calls of a provider; `sync` is a round of its monitor. -/
inductive Operation where
  | setDNS (server : Addr)
  | unsetDNS
  | setInterfaceIndex (ifidx : Int)
  | close
  | sync
  deriving DecidableEq, Repr

/-- The fields under `mu`.  The clients are those of the committed routes. -/
structure Provider where
  ifidx : Int
  closed : Bool
  fallback : List AddrPort
  setDNS : Addr
  setDNSActive : Bool
  upstreams : Upstreams
  deriving DecidableEq, Repr

/-- The settings that `applyDNS` turns off. -/
inductive LinkMode where
  | llmnr
  | multicastDNS
  | dnssec
  | dnsOverTLS
  deriving DecidableEq, Repr

/-- The calls.  The object of a link is known by the index that `GetLink` has been given. -/
inductive Call where
  /-- `dnsMu.Lock`, with the operation that locks. -/
  | lockDNS (op : Operation)
  | unlockDNS
  /-- A section that only reads. -/
  | load
  /-- The section of `Close`; no reply if the provider is closed already. -/
  | closing
  /-- The second section of `SetInterfaceIndex`. -/
  | selected (ifidx : Int)
  /-- The last section of `SetDNS`. -/
  | installed (server : Addr)
  /-- The section of `UnsetDNS`; the reply is the provider before it. -/
  | unset
  /-- The section of `setUpstreamConfig`, with the servers that the configuration leaves
      out; the reply is whether the provider was open. -/
  | commit (cfg : UpstreamConfig) (exclude : List Addr)
  | setLinkDomains (ifidx : Int) (domains : List LinkDomain)
  | setLinkDefaultRoute (ifidx : Int) (enable : Bool)
  | setLinkDNS (ifidx : Int) (servers : List LinkNameserver)
  | setLinkMode (mode : LinkMode) (ifidx : Int) (value : String)
  | flushCaches
  | revertLink (ifidx : Int)
  | getLink (ifidx : Int)
  /-- A property of a link; no reply stands for a value of another type. -/
  | linkDNSEx (link : Int)
  | linkDNS (link : Int)
  | linkDomains (link : Int)
  | linkDefaultRoute (link : Int)
  | managerDNSEx
  | managerDNS
  | managerDomains
  | addMatchSignal (member : String)
  | closeRouter
  | closeClient (urls : List String)
  | closeBus
  deriving DecidableEq, Repr

abbrev Reply : Call → Type
  | .load => Provider
  | .closing => Option (List UpstreamRoute)
  | .unset => Provider
  | .commit _ _ => Bool
  | .getLink _ => Int
  | .linkDNSEx _ => Option (List LinkNameserverEx)
  | .linkDNS _ => Option (List LinkNameserver)
  | .linkDomains _ => Option (List LinkDomain)
  | .linkDefaultRoute _ => Option Bool
  | .managerDNSEx => Option (List GlobalNameserverEx)
  | .managerDNS => Option (List GlobalNameserver)
  | .managerDomains => Option (List GlobalDomain)
  | _ => Unit

/-- The sections under `mu` and the steps of `dnsMu`. -/
def Call.internal : Call → Bool
  | .lockDNS _ | .unlockDNS | .load | .closing | .selected _ | .installed _ | .unset
  | .commit _ _ => true
  | _ => false

/-! ## The functions -/

abbrev ResolvedProg (α : Type) := Prog Call Reply BusError (Except (List ResolvedError) α)

/-- A call without which the function cannot go on. -/
def request (wrap : BusError → ResolvedError) (c : Call) : ResolvedProg (Reply c) :=
  .call c fun
    | .ok v => .ret (.ok v)
    | .error e => .ret (.error [wrap e])

/-- A call whose error is only logged. -/
def bestEffort (c : Call) : ResolvedProg Unit := .call c fun _ => .ret (.ok ())

def fail {α : Type} (e : ResolvedError) : ResolvedProg α := .ret (.error [e])

/-- `errors.Join`. -/
def joined : Except (List ResolvedError) Unit → Except (List ResolvedError) Unit →
    Except (List ResolvedError) Unit
  | .ok _, r => r
  | .error es, .ok _ => .error es
  | .error es, .error es' => .error (es ++ es')

/-- `dnsMu.Lock` and the deferred `dnsMu.Unlock` around `p`. -/
def locked {α : Type} (op : Operation) (p : ResolvedProg α) : ResolvedProg α :=
  (request .other (.lockDNS op)).andThen fun _ =>
    p.bind fun result => (request .other .unlockDNS).andThen fun _ => .ret result

/-- A property whose value has to be decoded. -/
def decoded {α : Type} (property : String) (p : ResolvedProg (Option α)) : ResolvedProg α :=
  p.andThen fun
    | some v => .ret (.ok v)
    | none => fail (.decode property)

/-- `resolvedOptionalIfIndex`. -/
def resolvedOptionalIfIndex (ifidx : Int) : Except (List ResolvedError) Int :=
  if ifidx = 0 then .ok 0
  else if ifidx ≤ 0 ∨ ifidx > 2 ^ 31 - 1 then .error [.invalidIndex ifidx]
  else .ok ifidx

def requireInterfaceIndex : ResolvedProg Int :=
  (request .other .load).andThen fun r => if r.ifidx = 0 then fail .noIndex else .ret (.ok r.ifidx)

def linkObjectFor (ifidx : Int) : ResolvedProg Int := request (.getLink ifidx) (.getLink ifidx)

def linkObject : ResolvedProg Int := requireInterfaceIndex.andThen linkObjectFor

def linkDNSServersLegacy (link : Int) : ResolvedProg (List AddrPort) :=
  (decoded "link DNS" (request (.read "link DNS") (.linkDNS link))).andThen fun raw =>
    .ret (.ok (raw.filterMap LinkNameserver.server))

def linkDNSServersFor (link : Int) : ResolvedProg (List AddrPort) :=
  .call (.linkDNSEx link) fun
    | .ok (some raw) => .ret (.ok (raw.filterMap LinkNameserverEx.server))
    | _ => linkDNSServersLegacy link

def linkDNSServers : ResolvedProg (List AddrPort) := linkObject.andThen linkDNSServersFor

def linkDomainsFor (link : Int) : ResolvedProg (List LinkDomain) :=
  decoded "link domains" (request (.read "link domains") (.linkDomains link))

def linkDomains : ResolvedProg (List LinkDomain) := linkObject.andThen linkDomainsFor

def managerDNSServersLegacy : ResolvedProg (List (Int × AddrPort)) :=
  (decoded "manager DNS" (request (.read "manager DNS") .managerDNS)).andThen fun raw =>
    .ret (.ok (raw.filterMap GlobalNameserver.server))

def managerDNSServers : ResolvedProg (List (Int × AddrPort)) :=
  .call .managerDNSEx fun
    | .ok (some raw) => .ret (.ok (raw.filterMap GlobalNameserverEx.server))
    | _ => managerDNSServersLegacy

def managerDomains : ResolvedProg (List GlobalDomain) :=
  decoded "manager domains" (request (.read "manager domains") .managerDomains)

/-- `upstreamConfigFromLink`, with its reads. -/
def configFromLink (fallback : List AddrPort) (exclude : List Addr) (servers : List AddrPort)
    (domains : List LinkDomain) : ResolvedProg UpstreamConfig :=
  (request .other .load).andThen fun r =>
    managerDNSServers.andThen fun managerServers =>
      managerDomains.bind fun managerDomains =>
        let reported := r.upstreams.reported r.ifidx managerServers (managerDomains.toOption.getD [])
        match upstreamConfigFromLink reported fallback exclude servers domains with
        | .ok cfg => .ret (.ok cfg)
        | .error err => fail (.upstream err)

/-- The servers and domains of the link, if one is selected. -/
def targetRead (ifidx : Int) : ResolvedProg (List AddrPort × List LinkDomain) :=
  if ifidx = 0 then .ret (.ok ([], []))
  else linkDNSServers.andThen fun servers =>
    linkDomains.bind fun domains => .ret (.ok (servers, domains.toOption.getD []))

def upstreamConfig (fallback : List AddrPort) (exclude : List Addr) :
    ResolvedProg UpstreamConfig :=
  (request .other .load).andThen fun r =>
    (targetRead r.ifidx).andThen fun target => configFromLink fallback exclude target.1 target.2

/-- `Attach` and `SetRouter` are assumed to fail only on a closed router, and `Close` closes the
    router after the provider; so in the section they succeed. -/
def setUpstreamConfig (cfg : UpstreamConfig) (exclude : List Addr) : ResolvedProg Unit :=
  (request .other (.commit cfg exclude)).andThen fun isOpen =>
    if isOpen = true then .ret (.ok ()) else fail .closed

/-- The end of both refresh functions. -/
def install (exclude : List Addr) (cfg : UpstreamConfig) : ResolvedProg Unit :=
  (request .other .load).andThen fun r =>
    if cfg.signature = r.upstreams.upstreamSig then .ret (.ok ())
    else setUpstreamConfig cfg exclude

def refreshUpstreamsWithFallback (fallback : List AddrPort) (exclude : List Addr) :
    ResolvedProg Unit :=
  (upstreamConfig fallback exclude).andThen (install exclude)

def refreshUpstreamsFromLink (fallback : List AddrPort) (exclude : List Addr)
    (servers : List AddrPort) (domains : List LinkDomain) : ResolvedProg Unit :=
  (configFromLink fallback exclude servers domains).andThen (install exclude)

def refreshUpstreamsExcluding (exclude : List Addr) : ResolvedProg Unit :=
  (request .other .load).andThen fun r => refreshUpstreamsWithFallback r.fallback exclude

def refreshUpstreams (exclude : Addr) : ResolvedProg Unit := refreshUpstreamsExcluding [exclude]

def setLinkDomains (ifidx : Int) : ResolvedProg Unit :=
  request (.method "SetLinkDomains") (.setLinkDomains ifidx [⟨rootDomain, true⟩])

/-- That resolved does not know the method is no error. -/
def setLinkDefaultRoute (ifidx : Int) : ResolvedProg Unit :=
  .call (.setLinkDefaultRoute ifidx true) fun
    | .ok _ => .ret (.ok ())
    | .error e =>
      if isDBusUnknownMethod e = true then .ret (.ok ()) else fail (.method "SetLinkDefaultRoute" e)

def setLinkDNS (ifidx : Int) (server : Addr) : ResolvedProg Unit :=
  request (.method "SetLinkDNS") (.setLinkDNS ifidx [resolvedNameserver server])

/-- The end of `applyDNS`. -/
def setLinkModes (ifidx : Int) : ResolvedProg Unit :=
  (bestEffort (.setLinkMode .llmnr ifidx "no")).andThen fun _ =>
    (bestEffort (.setLinkMode .multicastDNS ifidx "no")).andThen fun _ =>
      (bestEffort (.setLinkMode .dnssec ifidx "no")).andThen fun _ =>
        (bestEffort (.setLinkMode .dnsOverTLS ifidx "no")).andThen fun _ =>
          bestEffort .flushCaches

def applyDNS (server : Addr) : ResolvedProg Unit :=
  requireInterfaceIndex.andThen fun ifidx =>
    (setLinkDomains ifidx).andThen fun _ =>
      (setLinkDefaultRoute ifidx).andThen fun _ =>
        (setLinkDNS ifidx server).andThen fun _ => setLinkModes ifidx

/-- That the link is gone is no error. -/
def revertLink (ifidx : Int) : ResolvedProg Unit :=
  if ifidx = 0 then .ret (.ok ())
  else .call (.revertLink ifidx) fun
    | .ok _ => .ret (.ok ())
    | .error e => if isResolvedNoSuchLink e = true then .ret (.ok ()) else fail (.other e)

def revertDNS : ResolvedProg Unit :=
  (request .other .load).andThen fun r =>
    match resolvedOptionalIfIndex r.ifidx with
    | .ok ifidx => revertLink ifidx
    | .error es => .ret (.error es)

/-- What follows in `SetInterfaceIndex` once the new link is known to be another one. -/
def switchLink (r : Provider) (ifidx : Int) : ResolvedProg Unit :=
  (revertLink r.ifidx).bind fun reverted =>
    (request .other (.selected ifidx)).andThen fun _ =>
      (refreshUpstreams (if r.setDNSActive = true then r.setDNS else .zero)).bind fun refreshed =>
        if r.setDNSActive = true then
          (applyDNS r.setDNS).bind fun applied => .ret (joined (joined reverted refreshed) applied)
        else .ret (joined reverted refreshed)

def setInterfaceIndex (ifidx : Int) : ResolvedProg Unit :=
  match resolvedOptionalIfIndex ifidx with
  | .error es => .ret (.error es)
  | .ok ifidx' =>
    locked (.setInterfaceIndex ifidx) <| (request .other .load).andThen fun r =>
      if r.closed = true then fail .closed
      else if r.ifidx = ifidx' then .ret (.ok ())
      else if r.setDNSActive = true ∧ ifidx' = 0 then fail .clearsActive
      else switchLink r ifidx'

/-- The servers that `SetDNS` leaves out of the upstreams. -/
def setDNSExclude (server : Addr) (r : Provider) : List Addr :=
  if r.setDNSActive = true then [server, r.setDNS] else [server]

def setDNS (server : Addr) : ResolvedProg Unit :=
  locked (.setDNS server) <| (request .other .load).andThen fun r =>
    if r.closed = true then fail .closed
    else if server.isValid = false then fail .invalidServer
    else (request .other .load).andThen fun r =>
      (refreshUpstreamsExcluding (setDNSExclude server r)).andThen fun _ =>
        (applyDNS server).andThen fun _ => request .other (.installed server)

def unsetDNS : ResolvedProg Unit :=
  locked .unsetDNS <| (request .other .unset).andThen fun r =>
    if r.closed = true then fail .closed
    else if r.setDNSActive = false then .ret (.ok ())
    else revertDNS.bind fun
      | .ok _ => refreshUpstreams .zero
      | .error es => (refreshUpstreams r.setDNS).bind fun refreshed =>
        .ret (joined (.error es) refreshed)

/-- The clients of `Close` one after the other, with the errors so far. -/
def closeClients (result : Except (List ResolvedError) Unit) : List UpstreamRoute →
    ResolvedProg Unit
  | [] => .ret result
  | route :: routes => (request .other (.closeClient route.urls)).bind fun closed =>
    closeClients (joined result closed) routes

def close : ResolvedProg Unit :=
  (request .other .closing).andThen fun
    | none => .ret (.ok ())
    | some routes =>
      locked .close <| revertDNS.bind fun reverted =>
        (request .other .closeRouter).bind fun closed =>
          (closeClients (joined reverted closed) routes).bind fun result =>
            (request .other .closeBus).bind fun closed => .ret (joined result closed)

/-- The part of `linkConfigNeedsApply` behind the servers. -/
def linkNeedsApply (link : Int) : ResolvedProg Bool :=
  .call (.linkDomains link) fun
    | .ok (some domains) =>
      if domains.any (fun d => d.domain == rootDomain && d.routingOnly) = false then .ret (.ok true)
      else .call (.linkDefaultRoute link) fun
        | .error _ => .ret (.ok false)
        | .ok defaultRoute => .ret (.ok (!defaultRoute.getD false))
    | _ => .ret (.ok true)

def linkConfigNeedsApply (server : Addr) (linkServers : List AddrPort) : ResolvedProg Bool :=
  if linkServers.map AddrPort.addr = [server] then linkObject.andThen linkNeedsApply
  else .ret (.ok true)

/-- The part of `reapplyDNSIfNeeded` under `dnsMu`. -/
def reapplyDNS (server : Addr) : ResolvedProg Bool :=
  locked .sync <| (request .other .load).andThen fun r =>
    if r.setDNSActive = true ∧ r.setDNS = server ∧ r.closed = false then
      (applyDNS server).andThen fun _ => .ret (.ok true)
    else .ret (.ok false)

def reapplyDNSIfNeeded (active : Bool) (server : Addr) (linkServers : List AddrPort) :
    ResolvedProg Bool :=
  if active = false then .ret (.ok false)
  else (linkConfigNeedsApply server linkServers).andThen fun needsApply =>
    if needsApply = true then reapplyDNS server else .ret (.ok false)

def syncResolvedState : ResolvedProg Unit :=
  (request .other .load).andThen fun r =>
    if r.closed = true then fail .closed
    else (targetRead r.ifidx).andThen fun target =>
      (reapplyDNSIfNeeded r.setDNSActive r.setDNS target.1).andThen fun applied =>
        if applied = true then
          refreshUpstreamsFromLink r.fallback [r.setDNS] target.1 target.2
        else refreshUpstreamsWithFallback r.fallback [r.setDNS]

/-- The constructor behind the connection to the bus; the provider has its zero values. -/
def newResolved : ResolvedProg Unit :=
  (refreshUpstreams .zero).bind fun
    | .error es => (bestEffort .closeRouter).andThen fun _ =>
      (bestEffort .closeBus).andThen fun _ => .ret (.error es)
    | .ok _ =>
      ((request (.subscribe "properties") (.addMatchSignal "PropertiesChanged")).andThen fun _ =>
        request (.subscribe "owner") (.addMatchSignal "NameOwnerChanged")).bind fun
          | .error es => close.bind fun _ => .ret (.error es)
          | .ok _ => .ret (.ok ())

/-- The operations of a provider. -/
def Operation.code : Operation → ResolvedProg Unit
  | .setDNS server => Resolved.setDNS server
  | .unsetDNS => Resolved.unsetDNS
  | .setInterfaceIndex ifidx => Resolved.setInterfaceIndex ifidx
  | .close => Resolved.close
  | .sync => syncResolvedState

/-! ## The world of a provider -/

structure Link where
  dns : List LinkNameserverEx
  domains : List LinkDomain
  defaultRoute : Bool
  deriving DecidableEq, Repr

def Link.blank : Link := ⟨[], [], false⟩

/-- What resolved knows: the links, its own servers and domains, and which of the newer
    parts of its interface it has. -/
structure Bus where
  links : List (Int × Link)
  servers : List GlobalNameserverEx
  domains : List GlobalDomain
  hasDNSEx : Bool
  hasDefaultRoute : Bool
  deriving DecidableEq, Repr

structure World where
  provider : Provider
  bus : Bus
  /-- The thread that holds `dnsMu`, with its operation. -/
  dnsMu : Option (Nat × Operation)
  /-- `UnsetDNS` or `Close` has released `dnsMu`, and no `SetDNS` has acquired it since. -/
  stopped : Bool
  /-- The links on which a setting of the provider is left. -/
  applied : List Int
  deriving DecidableEq, Repr

def Operation.setsDNS : Operation → Bool
  | .setDNS _ => true
  | _ => false

def Operation.stops : Operation → Bool
  | .unsetDNS | .close => true
  | _ => false

namespace World

def acquired (w : World) (i : Nat) (op : Operation) : World :=
  { w with dnsMu := some (i, op), stopped := w.stopped && !op.setsDNS }

def released (w : World) (op : Operation) : World :=
  { w with dnsMu := none, stopped := w.stopped || op.stops }

def shut (w : World) : World := { w with provider := { w.provider with closed := true } }

def selected (w : World) (ifidx : Int) : World :=
  { w with provider := { w.provider with
      ifidx := ifidx
      upstreams := { w.provider.upstreams with
        upstreamSig := [], targetServers := [], targetDomains := [] } } }

def installed (w : World) (server : Addr) : World :=
  { w with provider := { w.provider with setDNS := server, setDNSActive := true } }

def forget (w : World) : World :=
  { w with provider := { w.provider with setDNS := .zero, setDNSActive := false } }

def committed (w : World) (cfg : UpstreamConfig) : World :=
  { w with provider := { w.provider with upstreams := Upstreams.setUpstreamConfig cfg } }

/-- A provider before its first refresh. -/
def fresh (ifidx : Int) (fallback : List AddrPort) (bus : Bus) : World where
  provider := ⟨ifidx, false, fallback, .zero, false, Upstreams.empty⟩
  bus := bus
  dnsMu := none
  stopped := false
  applied := []

/-- The links with a setting of the provider once a call has been answered.  Assumed is that
    the error `NoSuchLink` of a revert is truthful: the link is gone, and its settings with it. -/
def noted (w : World) : (c : Call) → Except BusError (Reply c) → World
  | .setLinkDomains ifidx _, .ok _ => { w with applied := ifidx :: w.applied }
  | .setLinkDefaultRoute ifidx _, .ok _ => { w with applied := ifidx :: w.applied }
  | .setLinkDNS ifidx _, .ok _ => { w with applied := ifidx :: w.applied }
  | .revertLink ifidx, .ok _ => { w with applied := w.applied.filter (· ≠ ifidx) }
  | .revertLink ifidx, .error e =>
    if isResolvedNoSuchLink e = true then { w with applied := w.applied.filter (· ≠ ifidx) }
    else w
  | _, _ => w

end World

/-- What the sections do, and the steps of `dnsMu`, which can have to wait. -/
def act (i : Nat) : (c : Call) → World → Option (Reply c × World)
  | .lockDNS op, w => if w.dnsMu = none then some ((), w.acquired i op) else none
  | .unlockDNS, w =>
    match w.dnsMu with
    | none => none
    | some (j, op) => if j = i then some ((), w.released op) else none
  | .load, w => some (w.provider, w)
  | .closing, w =>
    some (if w.provider.closed = true then none else some w.provider.upstreams.routes, w.shut)
  | .selected ifidx, w => some ((), w.selected ifidx)
  | .installed server, w => some ((), w.installed server)
  | .unset, w => some (w.provider, if w.provider.closed = true then w else w.forget)
  | .commit cfg _, w =>
    some (!w.provider.closed, if w.provider.closed = true then w else w.committed cfg)
  | _, _ => none

/-- The steps of thread `i`, where resolved answers as `B` allows. -/
def steps (B : Handler Call Reply BusError Bus) (i : Nat) : Handler Call Reply BusError World :=
  fun c w r w' =>
    if c.internal = true then ∃ v, r = .ok v ∧ act i c w = some (v, w')
    else ∃ bus, B c w.bus r bus ∧ w' = { w.noted c r with bus := bus }

/-- A provider that has been constructed, where resolved answers as `B` allows. -/
def Built (B : Handler Call Reply BusError Bus) (w : World) : Prop :=
  ∃ ifidx ifidx' fallback bus tr, resolvedOptionalIfIndex ifidx = .ok ifidx' ∧
    Exec (steps B 0) newResolved (World.fresh ifidx' fallback bus) tr (.ok ()) w

/-! ## A resolved that keeps what has been set -/

namespace Bus

def link (b : Bus) (ifidx : Int) : Option Link := (b.links.find? (·.1 = ifidx)).map Prod.snd

def change (b : Bus) (ifidx : Int) (f : Link → Link) : Bus :=
  { b with links := b.links.map fun x => if x.1 = ifidx then (x.1, f x.2) else x }

def noSuchLink : BusError := .reply "org.freedesktop.resolve1.NoSuchLink" []

def unknownMethod : BusError := .reply "org.freedesktop.DBus.Error.UnknownMethod" []

def unknownProperty : BusError := .reply "org.freedesktop.DBus.Error.UnknownProperty" []

/-- A change of a link that resolved knows. -/
def changed (b : Bus) (ifidx : Int) (f : Link → Link) : Except BusError Unit × Bus :=
  match b.link ifidx with
  | none => (.error noSuchLink, b)
  | some _ => (.ok (), b.change ifidx f)

/-- A property of a link that resolved knows. -/
def reading {α : Type} (b : Bus) (ifidx : Int) (f : Link → Except BusError α) :
    Except BusError α :=
  match b.link ifidx with
  | none => .error noSuchLink
  | some link => f link

/-- The servers of all links and those of resolved itself. -/
def allServers (b : Bus) : List GlobalNameserverEx :=
  b.servers ++ b.links.flatMap fun x => x.2.dns.map fun s => ⟨x.1, s.family, s.address, s.port⟩

def allDomains (b : Bus) : List GlobalDomain :=
  b.domains ++ b.links.flatMap fun x => x.2.domains.map fun d => ⟨x.1, d.domain, d.routingOnly⟩

end Bus

/-- What resolved answers. -/
def answer : (c : Call) → Bus → Except BusError (Reply c) × Bus
  | .setLinkDomains ifidx domains, b => b.changed ifidx fun l => { l with domains := domains }
  | .setLinkDefaultRoute ifidx enable, b =>
    if b.hasDefaultRoute = true then b.changed ifidx fun l => { l with defaultRoute := enable }
    else (.error Bus.unknownMethod, b)
  | .setLinkDNS ifidx servers, b =>
    b.changed ifidx fun l => { l with dns := servers.map fun s => ⟨s.family, s.address, 0⟩ }
  | .setLinkMode _ ifidx _, b => b.changed ifidx id
  | .revertLink ifidx, b => b.changed ifidx fun _ => Link.blank
  | .getLink ifidx, b => (b.reading ifidx fun _ => .ok ifidx, b)
  | .linkDNSEx link, b =>
    (b.reading link fun l =>
      if b.hasDNSEx = true then .ok (some l.dns) else .error Bus.unknownProperty, b)
  | .linkDNS link, b =>
    (b.reading link fun l => .ok (some (l.dns.map fun s => ⟨s.family, s.address⟩)), b)
  | .linkDomains link, b => (b.reading link fun l => .ok (some l.domains), b)
  | .linkDefaultRoute link, b =>
    (b.reading link fun l =>
      if b.hasDefaultRoute = true then .ok (some l.defaultRoute)
      else .error Bus.unknownProperty, b)
  | .managerDNSEx, b =>
    (if b.hasDNSEx = true then .ok (some b.allServers) else .error Bus.unknownProperty, b)
  | .managerDNS, b =>
    (.ok (some (b.allServers.map fun s => ⟨s.ifIndex, s.family, s.address⟩)), b)
  | .managerDomains, b => (.ok (some b.allDomains), b)
  | .flushCaches, b | .addMatchSignal _, b | .closeRouter, b | .closeClient _, b | .closeBus, b =>
    (.ok (), b)
  | .lockDNS _, b | .unlockDNS, b | .selected _, b | .installed _, b => (.ok (), b)
  | .load, b | .closing, b | .unset, b | .commit _ _, b => (.error (.other "not a call"), b)

end SysnetLinux.Dns.Resolved
