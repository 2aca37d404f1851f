/-
  SysnetLinux.DefaultTun.Build

  `BuildDefaultTun`, `SetDNS` and `Close` of the default TUN and `System.Close` (`default_tun.go`,
  `sysnet.go`) as programs over the calls of the components of a `System`.

  Each holds `defaultTunMu`, so it takes the memory of the `System` and returns it changed.  A
  build runs in stages over its local variables (`Build`); a stage that fails leaves them as
  `fail` finds them.  What changes the active native TUN is a call too (`setActive`), which a
  concurrent party can see.  The callbacks, which run behind the locks, are left out.
  `eval_defaultTunChecker` relates the stage for the rules to `Rules.Policy`.
-/

import SysnetLinux.Connmark
import SysnetLinux.DefaultTun.Options
import SysnetLinux.Killswitch.Rulesets
import SysnetLinux.Rules.Policy

namespace SysnetLinux.DefaultTun

open Netip Routing CallProg CallProg.Prog

/-! ## The components -/

/-- A native TUN, and what `validateDefaultTunReplacement` reads of it. -/
structure Tun where
  id : Nat
  isNative : Bool
  mwo : Int
  mro : Int
  batchSize : Int
  deriving DecidableEq

/-- A DNS server, by the connection it listens on. -/
structure Server where
  conn : Nat
  deriving DecidableEq

structure Resolver where
  id : Nat
  deriving DecidableEq

/-- The checker closure, by the variables it captures. -/
structure Checker where
  ids : List Nat
  priority : Int
  mark : BitVec 64
  deriving DecidableEq

/-- What `System.Close` closes besides the TUNs. -/
inductive Component where
  | outNet
  | localNet
  | dnsProvider
  | routingManager
  | connmark
  | killswitch
  | extraCloser (i : Nat)
  deriving DecidableEq

/-- Which operation of the connmark manager makes a call. -/
inductive ConnmarkUse where
  | applying
  | releasing
  deriving DecidableEq

inductive HostCall where
  | createTUN (name : String) (mtu : Int)
  | closeTun (t : Tun)
  | tunIndex (t : Option Tun)
  | setTunMTU (t : Tun) (mtu : Int)
  /-- The configurator on a TUN, or the routing manager. -/
  | system (t : Option Tun) (c : SystemCall)
  | packetListen (addr : Addr) (port : Nat)
  | attach (server : Server) (resolver : Resolver)
  | detach (server : Server)
  | closeServer (server : Server)
  | compileRule (rule : Rules.Rule)
  | exactCommFromRegexp (pattern : String)
  | registerRule (rule : Rules.Rule)
  | unregisterRule (id : Nat)
  | setKernelPolicy (policy : Rules.KernelPolicy) (check : Checker)
  | setChecker (check : Option Checker)
  | forceProcessTraversal
  | setInterfaceIndex (index : Int)
  | setDNS (addr : Addr)
  | unsetDNS
  | connmark (use : ConnmarkUse) (c : Connmark.NftCall)
  | createTMPRuleset (rules : Killswitch.AllowRules)
  | updateTMPRuleset (id : Nat) (rules : Killswitch.AllowRules)
  | deleteTMPRuleset (id : Nat)
  | closeComponent (c : Component)
  /-- The native TUN of the active default TUN changes, in one critical section. -/
  | setActive (t : Option Tun)
  /-- The critical section of `System.Close`; it empties the registry of TUNs. -/
  | takeTuns

/-- Whether `compileRule` gave a process predicate, and the exact name that
    `ExactCommFromRegexp` found, if it found one. -/
def HostReply : HostCall → Type
  | .createTUN _ _ => Tun
  | .tunIndex _ => Int
  | .system _ c => SystemReply c
  | .packetListen _ _ => Server
  | .compileRule _ => Bool
  | .exactCommFromRegexp _ => Option String
  | .registerRule _ => Nat
  | .connmark _ c => Connmark.NftReply c
  | .createTMPRuleset _ => Nat
  | .takeTuns => List Tun
  | _ => Unit

/-- A program of the system over its components; an error of a component other than
    the routing manager is a text. -/
abbrev HostProg (α : Type) := Prog HostCall HostReply CallError α

inductive HostError where
  | call (e : CallError)
  | connmark (e : Connmark.Error CallError)
  | text (s : String)
  deriving DecidableEq

/-- What a build reads of the `System` besides what its options are checked against. -/
structure HostSettings extends Settings where
  baseName : String
  tunRules : Bool
  pmarkFeature : Bool
  killswitchFeature : Bool
  hasPmark : Bool
  hasRuleTracker : Bool
  hasKillswitch : Bool
  connmark : Option Connmark.Manager
  connmarkRequired : Bool
  killswitchAllowExclude : Bool
  /-- The p-mark controller takes a kernel policy. -/
  kernelPolicyController : Bool
  /-- The DNS provider takes an interface index. -/
  dnsInterfaceIndexer : Bool
  pmarkPriority : Int
  /-- `fwmark.ToMark`. -/
  toMark : BitVec 32 → BitVec 64
  closable : Component → Bool
  extraClosers : Nat

/-! ## Memory -/

/-- `defaultTunState`; `handle` stands for the identity of the object. -/
structure DefaultTunState extends TunState where
  handle : Nat
  tun : Option Tun
  server : Option Server
  resolver : Option Resolver
  generation : Nat
  sourceGeneration : Nat
  ruleIDs : List Nat
  killswitchID : Nat
  pmarkChecker : Bool
  dnsIfidxSet : Bool
  connmarkSet : Bool
  deriving DecidableEq

/-- The fields of `System` that these operations assign. -/
structure Memory where
  closed : Bool
  defaultTun : Option DefaultTunState
  defaultTunSourceGeneration : Nat
  deriving DecidableEq

def Memory.initial : Memory := ⟨false, none, 0⟩

/-- The state behind a public object, while it is the active one. -/
def Memory.owned (m : Memory) (handle : Nat) : Option DefaultTunState :=
  m.defaultTun.filter fun d => d.handle == handle

inductive Failure where
  | options (issues : List Issue)
  | parse (text : String)
  | dnsUnavailable
  | sourceRoutes (e : SourceRouteError)
  | closed
  | unknownTun
  | create (e : CallError)
  | prepare (errs : List HostError)
  | build (errs : List HostError)
  | update (e : UpdateError)
  | release (errs : List HostError)
  deriving DecidableEq

/-- The memory after an operation, and the error it returned. -/
abbrev HostOutcome := Memory × Option Failure

/-- `errors.Join` of the errors of a release. -/
def joined : List HostError → Option Failure
  | [] => none
  | errs => some (.release errs)

/-! ## Releases -/

/-- A call whose error, if any, is joined to others. -/
def releasing (c : HostCall) : HostProg (List HostError) :=
  .call c fun
    | .ok _ => .ret []
    | .error e => .ret [.call e]

/-- A call without an error, or whose error is dropped. -/
def quietly (c : HostCall) : HostProg (List HostError) := .call c fun _ => .ret []

/-- A release that is made under a condition. -/
def onlyIf (b : Bool) (p : HostProg (List HostError)) : HostProg (List HostError) :=
  if b then p else .ret []

/-- A release of something, if it is there. -/
def ofSome {α : Type} (f : α → HostProg (List HostError)) : Option α → HostProg (List HostError)
  | none => .ret []
  | some a => f a

/-- A program over the calls of the configurator on a TUN and of the routing manager. -/
def onTun {α : Type} (t : Option Tun) (p : SystemProg α) : HostProg α :=
  embed (HostCall.system t) (fun _ r => r) p

/-- A program of the connmark manager as one of the system. -/
def onConnmark {α : Type} (use : ConnmarkUse) (p : Connmark.NftProg CallError α) : HostProg α :=
  embed (HostCall.connmark use) (fun _ r => r) p

/-- `server.Detach` and `server.Close`. -/
def closeServer (server : Server) : HostProg (List HostError) :=
  collect id [quietly (.detach server), releasing (.closeServer server)]

namespace HostSettings

variable (s : HostSettings)

def tunRulesSupported : Bool := s.tunRules && s.pmarkFeature && s.hasPmark && s.hasRuleTracker

def defaultTunBaseName : String := if s.baseName ≠ "" then s.baseName else "gonnect"

/-- `unregisterRule` for each of the rules. -/
def unregisterRules (ids : List Nat) : HostProg (List HostError) :=
  if s.hasRuleTracker then collect (fun id => quietly (.unregisterRule id)) ids else .ret []

def clearDefaultTunDNSInterface : HostProg (List HostError) :=
  onlyIf s.dnsInterfaceIndexer (releasing (.setInterfaceIndex 0))

def rollbackConnmark : HostProg (List HostError) :=
  ofSome (fun m => (onConnmark .releasing m.rollback).bind fun err =>
    .ret (err.toList.map .connmark)) s.connmark

def closeActive (d : DefaultTunState) : HostProg (List HostError) :=
  collect id [
    s.unregisterRules d.ruleIDs,
    ofSome closeServer d.server,
    releasing .unsetDNS,
    onlyIf d.dnsIfidxSet s.clearDefaultTunDNSInterface,
    ofSome (fun rc => releasing (.system none (.rollback rc))) d.routingConfig,
    onlyIf d.connmarkSet s.rollbackConnmark,
    onlyIf (d.killswitchID != 0 && s.hasKillswitch) (releasing (.deleteTMPRuleset d.killswitchID)),
    onlyIf (d.pmarkChecker && s.hasPmark) (releasing (.setChecker none)),
    ofSome (fun t => releasing (.closeTun t)) d.tun]

end HostSettings

/-! ## The stages of a build -/

def hexMark (mark : BitVec 32) : String := "0x" ++ String.ofList (Nat.toDigits 16 mark.toNat)

def normalizeMTU (mtu : Int) : Int := if mtu < 576 then 1420 else mtu

def validateDefaultTunReplacement (old : Option Tun) (replacement : Tun) : Option String :=
  match old with
  | none => some "default tun replacement source is unavailable"
  | some old =>
    if old.isNative ≠ replacement.isNative ∨ old.mwo ≠ replacement.mwo ∨
        old.mro ≠ replacement.mro ∨ old.batchSize ≠ replacement.batchSize then
      some "default tun replacement has incompatible I/O metadata"
    else none

/-- The object that a first build makes. -/
def freshState (handle : Nat) (t : Tun) : DefaultTunState where
  dnsIP := .zero
  addrs := []
  routes := []
  routingConfig := none
  handle := handle
  tun := some t
  server := none
  resolver := none
  generation := 0
  sourceGeneration := handle
  ruleIDs := []
  killswitchID := 0
  pmarkChecker := false
  dnsIfidxSet := false
  connmarkSet := false

/-- What the validations at the start make of the options. -/
structure BuildInput where
  opts : DefaultTunOpts
  addrs : List Prefix
  dnsIP : Addr
  routes : List Prefix
  sourceRoutes : List SourceRoute

structure DefaultTunPmarkConfig where
  ruleIDs : List Nat
  check : Option Checker
  kernelPolicy : Rules.KernelPolicy

def DefaultTunPmarkConfig.zero : DefaultTunPmarkConfig := ⟨[], none, ⟨.userspaceOnly, []⟩⟩

/-- The local variables of a build.  `state` has the fields of the default TUN as
    they are assigned before the build succeeds; those that hold the old resolver, DNS
    address, rules and checker are assigned at the end, and read from it. -/
structure Build where
  input : BuildInput
  state : DefaultTunState
  nativeTun : Tun
  oldNativeTun : Option Tun
  tunRecreated : Bool
  server : Option Server
  oldServer : Option Server
  serverReplaced : Bool
  pmarkConfig : DefaultTunPmarkConfig
  pmarkCheckerInstalled : Bool
  index : Int
  appliedRC : Option Config
  connmarkSet : Bool

/-- The locals behind the preparation of the link. -/
def Build.start (input : BuildInput) (state : DefaultTunState) (nativeTun : Tun)
    (oldNativeTun : Option Tun) (tunRecreated : Bool) : Build where
  input := input
  state := state
  nativeTun := nativeTun
  oldNativeTun := oldNativeTun
  tunRecreated := tunRecreated
  server := state.server
  oldServer := state.server
  serverReplaced := false
  pmarkConfig := .zero
  pmarkCheckerInstalled := false
  index := 0
  appliedRC := none
  connmarkSet := false

/-- The state of the default TUN when a build fails. -/
def Build.failedState (l : Build) : DefaultTunState :=
  { l.state with routingConfig := l.appliedRC.orElse fun _ => l.state.routingConfig }

abbrev BuildStage := Build → HostProg (Except (Build × List HostError) Build)

/-- A stage that is one call. -/
def step (c : Build → HostCall) : BuildStage := fun l =>
  .call (c l) fun
    | .ok _ => .ret (.ok l)
    | .error e => .ret (.error (l, [.call e]))

/-- A new TUN cannot serve on the address of the old one while its server does. -/
def closeOldServer : BuildStage := fun l =>
  match l.server with
  | some server =>
    if l.tunRecreated && l.state.dnsIP == l.input.dnsIP then
      (closeServer server).bind fun
        | [] => .ret (.ok { l with oldServer := none, server := none })
        | errs => .ret (.error (l, errs))
    else .ret (.ok l)
  | none => .ret (.ok l)

/-- A new server, unless the old one can stay. -/
def listenDNS : BuildStage := fun l =>
  if l.server.isNone || l.state.dnsIP != l.input.dnsIP || l.tunRecreated then
    .call (.packetListen l.input.dnsIP 53) fun
      | .error e => .ret (.error (l, [.call e]))
      | .ok server =>
        (ofSome (fun resolver => quietly (.attach server resolver)) l.state.resolver).bind fun _ =>
          .ret (.ok { l with server := some server, serverReplaced := true })
  else .ret (.ok l)

def readIndex : BuildStage := fun l =>
  .call (.tunIndex (some l.nativeTun)) fun
    | .error e => .ret (.error (l, [.call e]))
    | .ok (index : Int) => .ret (.ok { l with index := index })

/-- `errors.Is(err, ErrApplyFailedGuardActive)`. -/
def guardLeft : CallError → Bool
  | .routing e => guardActive (some e)
  | .tun _ => false

namespace HostSettings

variable (s : HostSettings)

/-- The loop of `defaultTunChecker`.  An error drops what was registered so far.
    `RegisterRule` returns no error. -/
def scanRules : Rules.Collected → List Rules.Rule → HostProg (Except CallError Rules.Collected)
  | scan, [] => .ret (.ok scan)
  | scan, rule :: rules =>
    .call (.compileRule rule) fun
      | .error e => .ret (.error e)
      | .ok false => scanRules scan rules
      | .ok true =>
        .call (.registerRule rule) fun
          | .error e => .ret (.error e)
          | .ok (id : Nat) =>
            if rule.type ≠ .comm then
              scanRules { scan with ids := scan.ids ++ [id], hasFallbackRule := true } rules
            else .call (.exactCommFromRegexp rule.rule) fun
              | .error e => .ret (.error e)
              | .ok none =>
                scanRules { scan with ids := scan.ids ++ [id], hasFallbackRule := true }
                  rules
              | .ok (some comm) =>
                scanRules { scan with
                  ids := scan.ids ++ [id]
                  exactCommRules :=
                    scan.exactCommRules ++ [⟨comm, s.pmarkPriority, s.toMark s.userMark⟩] } rules

def defaultTunChecker (opts : DefaultTunOpts) :
    HostProg (Except HostError DefaultTunPmarkConfig) :=
  if !s.hasRuleTracker then .ret (.ok .zero)
  else if s.pmarkPriority < -128 ∨ 127 < s.pmarkPriority then
    .ret (.error (.text ("pmark priority " ++ toString s.pmarkPriority ++
      " is outside int8 range")))
  else (s.scanRules ⟨[], [], false⟩
      (if opts.include_ ≠ [] then opts.include_ else opts.exclude)).bind fun
    | .error e => .ret (.error (.call e))
    | .ok scan => .ret (.ok
        { ruleIDs := scan.ids
          check := some ⟨scan.ids, s.pmarkPriority, s.toMark s.userMark⟩
          kernelPolicy := ⟨Rules.kernelPolicyMode scan, scan.exactCommRules⟩ })

def compileRules : BuildStage := fun l =>
  if s.tunRulesSupported then
    (s.defaultTunChecker l.input.opts).bind fun
      | .error e => .ret (.error (l, [e]))
      | .ok config => .ret (.ok { l with pmarkConfig := config })
  else .ret (.ok l)

/-- The call that installs a checker. -/
def checkerCall (config : DefaultTunPmarkConfig) (check : Checker) : HostCall :=
  if s.kernelPolicyController then .setKernelPolicy config.kernelPolicy check
  else .setChecker (some check)

def installChecker : BuildStage := fun l =>
  match l.pmarkConfig.check with
  | none => .ret (.ok l)
  | some check =>
    .call (s.checkerCall l.pmarkConfig check) fun
      | .error e => .ret (.error (l, [.call e]))
      | .ok _ => step (fun _ => .forceProcessTraversal) { l with pmarkCheckerInstalled := true }

def setDefaultTunDNSInterface : BuildStage := fun l =>
  if s.dnsInterfaceIndexer then
    .call (.setInterfaceIndex l.index) fun
      | .error e => .ret (.error (l, [.call e]))
      | .ok _ => .ret (.ok { l with state := { l.state with dnsIfidxSet := true } })
  else .ret (.ok l)

def buildConfig (l : Build) : Config :=
  s.routingConfig l.input.opts l.index l.input.addrs l.input.routes l.input.sourceRoutes

def applyRouting : BuildStage := fun l =>
  .call (.system none (.apply (s.buildConfig l))) fun
    | .ok _ => .ret (.ok { l with appliedRC := some (s.buildConfig l) })
    | .error e =>
      (onlyIf (guardLeft e) (releasing (.system none (.rollback (s.buildConfig l))))).bind
        fun errs => .ret (.error (l, .call e :: errs))

def connmarkMarks : List Connmark.Mark :=
  [⟨s.appBypassMark, s.appBypassMask⟩, ⟨s.userMark, s.userMarkMask⟩]

def applyConnmark : BuildStage := fun l =>
  match s.connmark with
  | none => .ret (.ok { l with connmarkSet := false })
  | some m =>
    (onConnmark .applying (m.apply s.connmarkMarks)).bind fun
      | none => .ret (.ok { l with connmarkSet := true })
      | some e =>
        if s.connmarkRequired then .ret (.error (l, [.connmark e]))
        else .ret (.ok { l with connmarkSet := false })

def killswitchRules (l : Build) : Killswitch.AllowRules :=
  { Killswitch.AllowRules.zero with
    enableV4 := true
    enableV6 := true
    allowedMarks :=
      if (s.buildConfig l).mode = .modeExclude ∧ s.killswitchAllowExclude = true then
        [hexMark s.appBypassMark, hexMark s.userMark]
      else [hexMark s.appBypassMark] }

def updateKillswitch : BuildStage := fun l =>
  if !s.killswitchFeature || !s.hasKillswitch then .ret (.ok l)
  else if l.state.killswitchID = 0 then
    .call (.createTMPRuleset (s.killswitchRules l)) fun
      | .error e => .ret (.error (l, [.call e]))
      | .ok (id : Nat) => .ret (.ok { l with state := { l.state with killswitchID := id } })
  else step (fun _ => .updateTMPRuleset l.state.killswitchID (s.killswitchRules l)) l

/-- The stages behind the preparation of the link, in the order of the source.  The
    routing manager owns the routes, so the main table has none. -/
def stages : List BuildStage := [
  step fun l => .setTunMTU l.nativeTun l.input.opts.mtu,
  step fun l => .system (some l.nativeTun) (.setTunAddrs l.input.addrs),
  step fun l => .system (some l.nativeTun) (.setTunRoutes []),
  closeOldServer,
  listenDNS,
  s.compileRules,
  s.installChecker,
  readIndex,
  s.setDefaultTunDNSInterface,
  s.applyRouting,
  s.applyConnmark,
  step fun l => .setDNS l.input.dnsIP,
  s.updateKillswitch]

/-! ## The ends of a build -/

/-- The closure `fail`. -/
def fail (l : Build) (cause : List HostError) : HostProg (List HostError) :=
  (collect id [
    onlyIf l.tunRecreated (releasing (.closeTun l.nativeTun)),
    s.unregisterRules l.pmarkConfig.ruleIDs,
    onlyIf l.serverReplaced (ofSome closeServer l.server),
    onlyIf (!l.state.pmarkChecker && l.pmarkCheckerInstalled) (releasing (.setChecker none)),
    onlyIf l.connmarkSet s.rollbackConnmark,
    quietly (.setActive none),
    s.closeActive l.failedState]).bind fun errs => .ret (cause ++ errs)

/-- The state of the default TUN when a build succeeds. -/
def builtState (l : Build) (sourceGeneration : Nat) : DefaultTunState :=
  { l.state with
    dnsIP := l.input.dnsIP
    addrs := l.input.addrs
    routes := l.input.routes
    routingConfig := some (s.buildConfig l)
    tun := if l.tunRecreated then some l.nativeTun else l.state.tun
    server := l.server
    generation := l.state.generation + 1
    sourceGeneration := if l.tunRecreated then sourceGeneration else l.state.sourceGeneration
    ruleIDs := l.pmarkConfig.ruleIDs
    pmarkChecker := l.pmarkCheckerInstalled
    dnsIfidxSet := s.dnsInterfaceIndexer
    connmarkSet := l.connmarkSet }

/-- What a build that succeeded releases: what it has replaced. -/
def releaseReplaced (l : Build) : HostProg (List HostError) :=
  collect id [
    onlyIf l.tunRecreated (quietly (.setActive (some l.nativeTun))),
    onlyIf l.tunRecreated (ofSome (fun t => quietly (.closeTun t)) l.oldNativeTun),
    s.unregisterRules l.state.ruleIDs,
    onlyIf l.serverReplaced (ofSome closeServer l.oldServer)]

/-- A build behind the preparation of its link. -/
def buildOn (m : Memory) (l : Build) : HostProg HostOutcome :=
  (inTurn s.stages l).bind fun
    | .error (l, cause) =>
      (s.fail l cause).bind fun errs =>
        .ret ({ m with defaultTun := none }, some (.build errs))
    | .ok l =>
      let generation :=
        if l.tunRecreated then m.defaultTunSourceGeneration + 1
        else m.defaultTunSourceGeneration
      (s.releaseReplaced l).bind fun _ =>
        .ret ({ m with
          defaultTun := some (s.builtState l generation)
          defaultTunSourceGeneration := generation }, none)

/-! ## The preparation of the link -/

/-- `prepareDefaultTunLink`: the locals to go on with, for a TUN that is there or one
    that replaces it.  The index of no TUN is an error. -/
def prepareDefaultTunLink (input : BuildInput) (state : DefaultTunState) :
    HostProg (Except (List HostError) Build) :=
  .call (.tunIndex state.tun) fun r =>
    match r, state.tun with
    | .ok _, some t => .ret (.ok (.start input state t none false))
    | _, old =>
      .call (.createTUN s.defaultTunBaseName (normalizeMTU input.opts.mtu)) fun
        | .error e => .ret (.error [.call e])
        | .ok replacement =>
          match validateDefaultTunReplacement old replacement with
          | some text =>
            (releasing (.closeTun replacement)).bind fun errs =>
              .ret (.error (.text text :: errs))
          | none => .ret (.ok (.start input state replacement old true))

/-! ## Operations -/

/-- The validations at the start of a build. -/
def buildInput (opts : DefaultTunOpts) (activeName : String) : Except Failure BuildInput :=
  match s.checkDefaultTunOpts opts activeName with
  | issue :: issues => .error (.options (issue :: issues))
  | [] =>
    match normalizeTunAddrs opts.tunAddrs s.defaultTunCIDR opts.dnsIP with
    | .error e => .error (.parse e)
    | .ok (addrs, dnsIP) =>
      if !dnsIP.isValid then .error .dnsUnavailable
      else match normalizeTunRoutes opts.tunRoutes with
        | .error e => .error (.parse e)
        | .ok routes =>
          match normalizeTunSourceRoutes addrs opts.sourceRoutes with
          | .error e => .error (.sourceRoutes e)
          | .ok sourceRoutes => .ok ⟨opts, addrs, dnsIP, routes, sourceRoutes⟩

/-- `BuildDefaultTun`; `activeName` is the name of the active default TUN that its
    check has read. -/
def buildDefaultTun (m : Memory) (opts : DefaultTunOpts) (activeName : String) :
    HostProg HostOutcome :=
  match s.buildInput opts activeName with
  | .error e => .ret (m, some e)
  | .ok input =>
    if m.closed then .ret (m, some .closed)
    else match m.defaultTun with
      | none =>
        .call (.createTUN s.defaultTunBaseName (normalizeMTU opts.mtu)) fun
          | .error e => .ret (m, some (.create e))
          | .ok t =>
            let handle := m.defaultTunSourceGeneration + 1
            (quietly (.setActive (some t))).bind fun _ =>
              s.buildOn { m with defaultTunSourceGeneration := handle }
                (.start input (freshState handle t) t none false)
      | some state =>
        (s.prepareDefaultTunLink input state).bind fun
          | .error errs => .ret (m, some (.prepare errs))
          | .ok l => s.buildOn m l

/-- `Close` of a public object. -/
def closeDefaultTun (m : Memory) (handle : Nat) : HostProg HostOutcome :=
  match m.owned handle with
  | none => .ret (m, none)
  | some d =>
    (collect id [quietly (.setActive none), s.closeActive d]).bind fun errs =>
      .ret ({ m with defaultTun := none }, joined errs)

/-- A dynamic update of a public object. -/
def updateDefaultTun (m : Memory) (handle : Nat) (u : Update) : HostProg HostOutcome :=
  match m.owned handle with
  | none => .ret (m, some .unknownTun)
  | some d =>
    if m.closed then .ret (m, some .unknownTun)
    else match d.tun with
      | none => .ret (m, some .unknownTun)
      | some t =>
        (onTun (some t) (s.update d.toTunState u)).bind fun out =>
          .ret ({ m with defaultTun := some { d with toTunState := out.1 } },
            out.2.map .update)

def closing (c : Component) : HostProg (List HostError) :=
  onlyIf (s.closable c) (releasing (.closeComponent c))

def closeSystem (m : Memory) : HostProg HostOutcome :=
  if m.closed then .ret (m, none)
  else .call .takeTuns fun r =>
    let tuns := match r with
      | .ok tuns => tuns
      | .error _ => []
    (collect id [
      s.closing .outNet,
      s.closing .localNet,
      ofSome s.closeActive m.defaultTun,
      collect (fun t => releasing (.closeTun t)) tuns,
      s.closing .dnsProvider,
      s.closing .routingManager,
      s.closing .connmark,
      s.closing .killswitch,
      collect (fun i => s.closing (.extraCloser i)) (List.range s.extraClosers).reverse]).bind
      fun errs => .ret ({ m with closed := true, defaultTun := none }, joined errs)

end HostSettings

/-- `SetDNS` of a public object. -/
def Memory.setDNS (m : Memory) (handle : Nat) (resolver : Option Resolver) : HostProg HostOutcome :=
  match m.owned handle with
  | none => .ret (m, some .unknownTun)
  | some d =>
    if m.closed then .ret (m, some .unknownTun)
    else match d.server with
      | none => .ret (m, some .unknownTun)
      | some server =>
        (match resolver with
          | none => quietly (.detach server)
          | some resolver => quietly (.attach server resolver)).bind fun _ =>
          .ret ({ m with defaultTun := some { d with resolver := resolver } }, none)

/-- The operations that hold `defaultTunMu`. -/
inductive HostOp where
  | build (opts : DefaultTunOpts) (activeName : String)
  | update (handle : Nat) (u : Update)
  | setDNS (handle : Nat) (resolver : Option Resolver)
  | close (handle : Nat)
  | closeSystem

def HostSettings.perform (s : HostSettings) (m : Memory) : HostOp → HostProg HostOutcome
  | .build opts activeName => s.buildDefaultTun m opts activeName
  | .update handle u => s.updateDefaultTun m handle u
  | .setDNS handle resolver => m.setDNS handle resolver
  | .close handle => s.closeDefaultTun m handle
  | .closeSystem => s.closeSystem m

/-! ## The checker over a tracker -/

section Tracker

variable {σ : Type} (host : Rules.Host) (t : Rules.RuleTracker σ)

/-- The compiler of the rules and the tracker; the texts of their errors are left out. -/
def compiling : (c : HostCall) → σ → Except CallError (HostReply c) × σ
  | .compileRule rule, w =>
    match Rules.compileRule host rule with
    | .error _ => (.error (.tun ""), w)
    | .ok compiled => (.ok compiled.process.isSome, w)
  | .registerRule rule, w =>
    match (Rules.compileRule host rule).toOption.bind (·.process) with
    | none => (.error (.tun ""), w)
    | some process => (.ok (t.registerRule w process).1, (t.registerRule w process).2)
  | .exactCommFromRegexp pattern, w =>
    match host.exactCommFromRegexp pattern with
    | .error _ => (.error (.tun ""), w)
    | .ok comm => (.ok comm, w)
  | _, w => (.error (.tun ""), w)

/-- The configuration with the closure itself. -/
def DefaultTunPmarkConfig.closure (config : DefaultTunPmarkConfig) :
    Option (Rules.PmarkConfig σ) :=
  config.check.map fun check =>
    ⟨config.ruleIDs, Rules.checkProcess t check.priority check.mark check.ids, config.kernelPolicy⟩

theorem eval_scanRules (s : HostSettings) (rules : List Rules.Rule) (c : Rules.Collected) (w : σ) :
    (eval (compiling host t) (s.scanRules c rules) w).map Except.toOption id =
      (Rules.collectRules host t s.pmarkPriority (s.toMark s.userMark) rules c w).map
        Except.toOption id := by
  induction rules generalizing c w with
  | nil => rfl
  | cons rule rules ih =>
    rw [HostSettings.scanRules, Rules.collectRules, Rules.collectRule, eval]
    cases hcompiled : Rules.compileRule host rule with
    | error e => simp [compiling, hcompiled, eval, Except.toOption]
    | ok compiled =>
      cases hprocess : compiled.process with
      | none => simp [compiling, hcompiled, hprocess, ih]
      | some process =>
        by_cases htype : rule.type = .comm
        · rcases hcomm : host.exactCommFromRegexp rule.rule with _ | _ | _ <;>
            simp [compiling, hcompiled, hprocess, htype, hcomm, eval, Except.toOption, ih]
        · simp [compiling, hcompiled, hprocess, htype, eval, Except.toOption, ih]

/-- Over a tracker, the stage of a build makes the checker and the kernel policy of
    `Rules.defaultTunChecker`, and registers the same rules. -/
theorem eval_defaultTunChecker (s : HostSettings) (opts : DefaultTunOpts) (w : σ) :
    (eval (compiling host t) (s.defaultTunChecker opts) w).map
        (fun result => result.toOption.map (·.closure t)) id =
      (Rules.defaultTunChecker host ⟨s.pmarkPriority, s.userMark, s.toMark⟩
        (if s.hasRuleTracker then some t else none) ⟨opts.include_, opts.exclude⟩ w).map
        Except.toOption id := by
  unfold HostSettings.defaultTunChecker Rules.defaultTunChecker
  cases htracker : s.hasRuleTracker with
  | false => rfl
  | true =>
    by_cases hrange : s.pmarkPriority < -128 ∨ 127 < s.pmarkPriority
    · simp [hrange, eval, Except.toOption]
    · simp only [hrange, Bool.not_true, Bool.false_eq_true, if_false, if_true, eval_bind]
      have hscan := eval_scanRules host t s
        (if opts.include_ ≠ [] then opts.include_ else opts.exclude) ⟨[], [], false⟩ w
      revert hscan
      generalize eval _ (s.scanRules _ _) w = scanned, Rules.collectRules _ _ _ _ _ _ w = collected
      intro hscan
      obtain ⟨hresult, hstate⟩ := Prod.mk.inj hscan
      -- both loops fail, or both return the same variables
      rcases scanned with ⟨_ | _, _⟩ <;> rcases collected with ⟨_ | _, _⟩ <;> cases hresult <;>
        cases hstate <;> rfl

end Tracker

end SysnetLinux.DefaultTun
