/-
  SysnetLinux.Dns.Static.Model

  The providers that read their upstreams once: `Direct`, which owns /etc/resolv.conf, and
  `Openresolv` and `DebianResolvconf`, which own a record of the resolvconf program.

  They differ in how a server is put into the configuration of the host and taken out of it
  (`Actions`).  A section under the mutex of the provider is one call, and so is every file
  operation, command and `Close`; `act` says what a call does that does not fail.  A client is its
  list of URLs.  Nothing reads `Host.managed`, the server for which the provider has last written
  its configuration.
-/

import SysnetLinux.Dns.ResolvConf
import SysnetLinux.Lib.Prog

namespace SysnetLinux.Dns.Static

open Netip
open CallProg CallProg.Prog

/-! ## States -/

/-- A forwarding client, by its URLs. -/
abbrev Client := List String

/-- The fields of a provider.  `original` is there for `Direct` only: the contents of the
    file at construction, `none` if there was no file. -/
structure Provider where
  closed : Bool
  client : Option Client
  fallback : List AddrPort
  original : Option String
  originalServers : List AddrPort
  setDNS : Addr
  setDNSActive : Bool
  upstreamSig : List String
  deriving DecidableEq, Repr

/-- The router, with the client that is attached under the name `default`. -/
structure Router where
  closed : Bool
  attached : Option Client
  deriving DecidableEq, Repr

/-- The configuration of the host: /etc/resolv.conf, the record of the provider, and the
    server that the provider has installed. -/
structure Host where
  file : Option String
  record : Option String
  managed : Option Addr
  deriving DecidableEq, Repr

structure World where
  provider : Provider
  router : Router
  host : Host
  deriving DecidableEq, Repr

/-! ## Calls -/

/-- What `SetDNS` and `UnsetDNS` read first. -/
structure Managed where
  closed : Bool
  server : Addr
  active : Bool
  deriving DecidableEq, Repr

/-- What `Close` reads first. -/
structure Closing where
  active : Bool
  server : Addr
  client : Option Client
  deriving DecidableEq, Repr

/-- What `refreshUpstreams` reads first. -/
structure Upstreams where
  servers : List AddrPort
  fallback : List AddrPort
  upstreamSig : List String
  deriving DecidableEq, Repr

inductive Call where
  /-- The first section of `SetDNS` and of `UnsetDNS`. -/
  | managed
  /-- The first section of `Close`; no reply if there is nothing left to close. -/
  | closing
  /-- The first section of `refreshUpstreams`. -/
  | upstreams
  /-- The last section of `refreshUpstreams`; the reply is the old client. -/
  | commit (client : Client)
  /-- The last section of `SetDNS`. -/
  | installed (server : Addr)
  /-- The last section of `UnsetDNS`. -/
  | unset (server : Addr)
  /-- The second section of `Close`. -/
  | forgotten (server : Addr)
  /-- The section of `restoreResolvConfIfOwned`. -/
  | original
  /-- The assignments of a constructor. -/
  | constructed (original : Option String) (servers : List AddrPort)
  | closeClient (client : Client)
  | closeRouter
  /-- `ReadFile`; no reply if there is no file. -/
  | readFile
  /-- `WriteFile`, with the server that the contents are written for. -/
  | writeFile (data : String) (server : Option Addr)
  /-- `Remove`; that there is no file is no error. -/
  | removeFile
  /-- The program resolvconf, with the server that the record is written for. -/
  | resolvconf (args : List String) (stdin : Option String) (server : Option Addr)
  deriving DecidableEq, Repr

abbrev Reply : Call → Type
  | .managed => Managed
  | .closing => Option Closing
  | .upstreams => Upstreams
  | .commit _ => Option Client
  | .original => Option String
  | .readFile => Option String
  | _ => Unit

/-- The error of a call: `ErrClosed`, or the error of something outside the package. -/
inductive CallError where
  | closed
  | failed (text : String)
  deriving DecidableEq, Repr

/-- The calls that leave the package; any of them can fail. -/
def Call.external : Call → Bool
  | .closeClient _ | .closeRouter | .readFile | .writeFile _ _ | .removeFile
  | .resolvconf _ _ _ => true
  | _ => false

def World.upstreams (w : World) : Upstreams :=
  ⟨w.provider.originalServers, w.provider.fallback, w.provider.upstreamSig⟩

/-- The client is attached and remembered. -/
def World.committed (w : World) (client : Client) : World where
  provider := { w.provider with client := some client, upstreamSig := client }
  router := { w.router with attached := some client }
  host := w.host

/-- The provider is closed, and its client is left to the caller. -/
def World.shut (w : World) : World :=
  { w with provider := { w.provider with closed := true, client := none } }

def World.forget (w : World) : World :=
  { w with provider := { w.provider with setDNS := .zero, setDNSActive := false } }

/-- What a call does that does not fail.  The router refuses a client once it is closed. -/
def act : (c : Call) → World → Except CallError (Reply c) × World
  | .managed, w =>
    (.ok ⟨w.provider.closed, w.provider.setDNS, w.provider.setDNSActive⟩, w)
  | .closing, w =>
    if w.provider.closed = true ∧ w.provider.setDNSActive = false then (.ok none, w)
    else (.ok (some ⟨w.provider.setDNSActive, w.provider.setDNS, w.provider.client⟩), w.shut)
  | .upstreams, w => (.ok w.upstreams, w)
  | .commit client, w =>
    if w.provider.closed = true then (.error .closed, w)
    else if w.router.closed = true then (.error (.failed "router is closed"), w)
    else (.ok w.provider.client, w.committed client)
  | .installed server, w =>
    (.ok (), { w with provider := { w.provider with setDNS := server, setDNSActive := true } })
  | .unset server, w =>
    (.ok (), if w.provider.setDNSActive = true ∧ w.provider.setDNS = server then w.forget else w)
  | .forgotten server, w => (.ok (), if w.provider.setDNS = server then w.forget else w)
  | .original, w => (.ok w.provider.original, w)
  | .constructed original servers, w =>
    (.ok (), { w with provider :=
      { w.provider with original := original, originalServers := servers } })
  | .closeClient _, w => (.ok (), w)
  | .closeRouter, w => (.ok (), { w with router := { w.router with closed := true } })
  | .readFile, w => (.ok w.host.file, w)
  | .writeFile data server, w =>
    (.ok (), { w with host := { w.host with file := some data, managed := server } })
  | .removeFile, w => (.ok (), { w with host := { w.host with file := none, managed := none } })
  | .resolvconf _ stdin server, w =>
    (.ok (), { w with host := { w.host with record := stdin, managed := server } })

/-! ## Errors -/

/-- The errors of a provider.  The joined error of a call is a list; no error is `[]`. -/
inductive ProviderError where
  | invalidServer
  | emptyInterface
  | noUpstreams
  | closed
  /-- An operation on /etc/resolv.conf. -/
  | file (operation : String) (e : CallError)
  | parse (text : String)
  | command (args : List String) (e : CallError)
  /-- An error that is passed on as it is. -/
  | other (e : CallError)
  deriving DecidableEq, Repr

/-- The text of an error of the provider with this name. -/
def ProviderError.message (name : String) (render : CallError → String) :
    ProviderError → String
  | .invalidServer => name ++ ": invalid DNS server"
  | .emptyInterface => name ++ ": empty interface name"
  | .noUpstreams => name ++ ": no upstream DNS servers"
  | .closed => render .closed
  | .file operation e => name ++ ": " ++ operation ++ " /etc/resolv.conf: " ++ render e
  | .parse text => name ++ ": parse /etc/resolv.conf: " ++ text
  | .command args e =>
    name ++ ": resolvconf [" ++ " ".intercalate args ++ "]: " ++ render e
  | .other e => render e

abbrev StaticProg := Prog Call Reply CallError (List ProviderError)

/-- A call without which the function cannot go on. -/
def step (wrap : CallError → ProviderError) (c : Call) (k : Reply c → StaticProg) : StaticProg :=
  .call c fun
    | .ok v => k v
    | .error e => .ret [wrap e]

/-- A call whose error is joined to the errors so far. -/
def joining (wrap : CallError → ProviderError) (errs : List ProviderError) (c : Call)
    (k : List ProviderError → StaticProg) : StaticProg :=
  .call c fun
    | .ok _ => k errs
    | .error e => k (errs ++ [wrap e])

/-- A call whose error is dropped. -/
def dropping (c : Call) (k : StaticProg) : StaticProg := .call c fun _ => k

/-- Run `p`, and go on only if it returns no error. -/
def StaticProg.orReturn (p k : StaticProg) : StaticProg :=
  p.bind fun errs => if errs = [] then k else .ret errs

/-! ## What the providers share -/

/-- The URLs that `refreshUpstreams` chooses: of the original servers that are left, or of
    the fallback. -/
def upstreamURLs (u : Upstreams) (exclude : List Addr) : List String :=
  serverURLs (if filterAddr u.servers exclude = [] then filterAddr u.fallback exclude
    else filterAddr u.servers exclude)

def refreshUpstreams (exclude : List Addr) : StaticProg :=
  step .other .upstreams fun u =>
    let urls := upstreamURLs u exclude
    if urls = [] then .ret [.noUpstreams]
    else if urls = u.upstreamSig then .ret []
    else .call (.commit urls) fun
      | .error e => dropping (.closeClient urls) (.ret [if e = .closed then .closed else .other e])
      | .ok none => .ret []
      | .ok (some old) => dropping (.closeClient old) (.ret [])

/-- How a provider puts a server into the configuration of the host and takes it out. -/
structure Actions where
  install : Addr → StaticProg
  uninstall : StaticProg

def Actions.setDNS (a : Actions) (server : Addr) : StaticProg :=
  if server.isValid = false then .ret [.invalidServer]
  else step .other .managed fun m =>
    if m.closed = true then .ret [.closed]
    else
      let exclude := if m.active = true then [server, m.server] else [server]
      (refreshUpstreams exclude).orReturn <|
        (a.install server).orReturn <|
          step .other (.installed server) fun _ => .ret []

def Actions.unsetDNS (a : Actions) : StaticProg :=
  step .other .managed fun m =>
    if m.closed = true then .ret [.closed]
    else if m.active = false then .ret []
    else a.uninstall.bind fun errs =>
      (refreshUpstreams [m.server]).bind fun refreshErrs =>
        if errs ++ refreshErrs = [] then step .other (.unset m.server) fun _ => .ret []
        else .ret (errs ++ refreshErrs)

/-- The rollback of `Close`. -/
def Actions.rollback (a : Actions) (c : Closing) : StaticProg :=
  if c.active = true then a.uninstall.orReturn <| step .other (.forgotten c.server) fun _ => .ret []
  else .ret []

/-- The end of `Close`. -/
def closeForwarding (client : Option Client) (errs : List ProviderError) : StaticProg :=
  joining .other errs .closeRouter fun errs =>
    match client with
    | none => .ret errs
    | some client => joining .other errs (.closeClient client) .ret

def Actions.close (a : Actions) : StaticProg :=
  step .other .closing fun
    | none => .ret []
    | some c => (a.rollback c).bind (closeForwarding c.client)

/-- The constructors: the nameservers of /etc/resolv.conf are the original servers.  Only
    `Direct` keeps the contents. -/
def construct (parse : String → Except String (List Addr)) (keeps : Bool) : StaticProg :=
  let fail := fun e => dropping .closeRouter (.ret [e])
  let refresh := (refreshUpstreams []).bind fun errs =>
    if errs = [] then .ret [] else dropping .closeRouter (.ret errs)
  .call .readFile fun
    | .error e => fail (.file "read" e)
    | .ok none => step .other (.constructed none []) fun _ => refresh
    | .ok (some text) =>
      match resolvconfNameservers parse text with
      | .error e => fail (.parse e)
      | .ok servers =>
        step .other (.constructed (if keeps then some text else none) servers) fun _ => refresh

/-! ## Direct -/

namespace Direct

def restoreResolvConfIfOwned : StaticProg :=
  step (.file "read current") .readFile fun file =>
    if file.all directResolvconfOwned = false then .ret []
    else step .other .original fun
      | some original => step (.file "restore") (.writeFile original none) fun _ => .ret []
      | none => step (.file "remove") .removeFile fun _ => .ret []

def actions : Actions where
  install server :=
    step (.file "write") (.writeFile (resolvconfForServer server) (some server)) fun _ => .ret []
  uninstall := restoreResolvConfIfOwned

def newDirect (parse : String → Except String (List Addr)) : StaticProg := construct parse true

def setDNS (server : Addr) : StaticProg := actions.setDNS server

def unsetDNS : StaticProg := actions.unsetDNS

def close : StaticProg := actions.close

end Direct

/-! ## The resolvconf programs -/

def runResolvconf (args : List String) (stdin : Option String) (server : Option Addr) :
    StaticProg :=
  step (.command args) (.resolvconf args stdin server) fun _ => .ret []

/-- The actions of a provider that owns a record. -/
def recordActions (add delete : List String) (contents : Addr → String) : Actions where
  install server := runResolvconf add (some (contents server)) (some server)
  uninstall := runResolvconf delete none none

namespace Openresolv

def actions (iface : String) : Actions :=
  recordActions ["-m", "0", "-x", "-a", iface] ["-f", "-d", iface] openresolvForServer

def newOpenresolv (parse : String → Except String (List Addr)) (iface : String) : StaticProg :=
  if iface = "" then .ret [.emptyInterface] else construct parse false

def setDNS (iface : String) (server : Addr) : StaticProg := (actions iface).setDNS server

def unsetDNS (iface : String) : StaticProg := (actions iface).unsetDNS

def close (iface : String) : StaticProg := (actions iface).close

end Openresolv

namespace DebianResolvconf

def actions (iface : String) : Actions :=
  recordActions ["-a", iface] ["-d", iface] debianResolvconfForServer

def newDebianResolvconf (parse : String → Except String (List Addr)) (iface : String) :
    StaticProg :=
  if iface = "" then .ret [.emptyInterface] else construct parse false

def setDNS (iface : String) (server : Addr) : StaticProg := (actions iface).setDNS server

def unsetDNS (iface : String) : StaticProg := (actions iface).unsetDNS

def close (iface : String) : StaticProg := (actions iface).close

end DebianResolvconf

end SysnetLinux.Dns.Static
