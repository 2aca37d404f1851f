/-
  SysnetLinux.DefaultTun.Update

  The dynamic updates of the default TUN in `sysnet.go`: `SetTunAddrs`, `AddTunAddr`,
  `SetTunRoutes` and `AddTunRoute`, as programs over the calls of the TUN configurator and of the
  routing manager.

  An update runs under `defaultTunMu`; it returns the changed state and Go's `error`, with `none`
  for `nil`.  A CIDR argument is what `netip.ParsePrefix` makes of the text.  `Prefix.String` is
  one to one on prefixes that parse, so normalised texts are the prefixes themselves, and the map
  `seen` holds the members of `out`.
-/

import SysnetLinux.Routing.Manager

namespace SysnetLinux.DefaultTun

open Netip Routing CallProg CallProg.Prog List

/-! ## Arguments -/

/-- A text and what `netip.ParsePrefix` makes of it: a prefix or an error. -/
abbrev CIDR := Except String Prefix

inductive AddressFamily where
  | familyNone
  | familyIPv4
  | familyIPv6
  | familyDual
  deriving DecidableEq, Repr

inductive TunOperation where
  | setAddresses
  | addAddress
  | setRoutes
  | addRoute
  deriving DecidableEq, Repr

/-- What the accumulators of `normalizeTunAddrs` hold behind a part of the list. -/
structure AddrScan where
  out : List Prefix
  containsDNS : Bool
  containsFallbackAddr : Bool

/-- Append unless it is there. -/
def appendNew (out : List Prefix) (cidr : Prefix) : List Prefix :=
  if cidr ∈ out then out else out ++ [cidr]

/-- The loop of `normalizeTunAddrs`. -/
def scanTunAddrs (fallback : Prefix) (dnsAddr : Addr) :
    AddrScan → List CIDR → Except String AddrScan
  | scan, [] => .ok scan
  | _, .error e :: _ => .error e
  | scan, .ok cidr :: addrs =>
    if cidr.addr.isLoopback then scanTunAddrs fallback dnsAddr scan addrs
    else scanTunAddrs fallback dnsAddr
      { out := appendNew scan.out cidr
        containsDNS := scan.containsDNS || (dnsAddr.isValid && cidr.addr == dnsAddr)
        containsFallbackAddr :=
          scan.containsFallbackAddr || (fallback.isValid && cidr.addr == fallback.addr) }
      addrs

/-- `normalizeTunAddrs`; no `fallbackCIDR` is the empty text. -/
def normalizeTunAddrs (addrs : List CIDR) (fallbackCIDR : Option CIDR) (dnsIP : Addr) :
    Except String (List Prefix × Addr) :=
  match fallbackCIDR.getD (.ok Prefix.zero) with
  | .error e => .error e
  | .ok fallback =>
    match scanTunAddrs fallback dnsIP ⟨[], false, false⟩ addrs with
    | .error e => .error e
    | .ok scan =>
      let addsFallback := fallback.isValid && !scan.containsFallbackAddr
      let out := if addsFallback then appendNew scan.out fallback else scan.out
      let containsDNS :=
        scan.containsDNS || (addsFallback && dnsIP.isValid && fallback.addr == dnsIP)
      if dnsIP.isValid && containsDNS then .ok (out, dnsIP)
      else if fallback.isValid then .ok (out, fallback.addr)
      else .ok (out, .zero)

/-- The loop of `normalizeTunRoutes`. -/
def scanTunRoutes : List Prefix → List CIDR → Except String (List Prefix)
  | out, [] => .ok out
  | _, .error e :: _ => .error e
  | out, .ok cidr :: routes =>
    if cidr.addr.isLoopback then scanTunRoutes out routes
    else scanTunRoutes (appendNew out cidr) routes

def normalizeTunRoutes (routes : List CIDR) : Except String (List Prefix) :=
  scanTunRoutes [] routes

/-- The families of the prefixes, loopback ones left out. -/
def optionFamily (addrs routes : List Prefix) : AddressFamily :=
  let values := (addrs ++ routes).filter fun cidr => !cidr.addr.isLoopback
  match values.any fun cidr => cidr.addr.is4, values.any fun cidr => cidr.addr.is6 with
  | true, true => .familyDual
  | true, false => .familyIPv4
  | false, true => .familyIPv6
  | false, false => .familyNone

/-- The family an operation on a whole list is checked for. -/
def orDual (family : AddressFamily) : AddressFamily :=
  if family = .familyNone then .familyDual else family

def prefixFamily (cidr : Prefix) : AddressFamily :=
  if cidr.addr.is4 then .familyIPv4 else .familyIPv6

def routeFamilies (addrs routes : List Prefix) : FamilySet :=
  let f : FamilySet :=
    ⟨(addrs ++ routes).any fun cidr => cidr.addr.is4,
      (addrs ++ routes).any fun cidr => cidr.addr.is6⟩
  if !f.ipv4 && !f.ipv6 then bothFamilies else f

def setDefaultTunRoutingFamilies (config : Config) (addrs routes : List Prefix) : Config :=
  let tunnelFamilies := routeFamilies addrs routes
  { config with
    tunnelFamilies := tunnelFamilies
    families := if config.strictness = .strict then bothFamilies else tunnelFamilies }

/-- The first source route whose source is not assigned, if any. -/
def validateDefaultTunSourceAddrs (addrs : List Prefix) (sourceRoutes : List SourceRoute) :
    Option Addr :=
  (sourceRoutes.find? fun route => !(addrs.map Prefix.addr).contains route.source).map
    SourceRoute.source

/-! ## Calls -/

/-- An error of the TUN configurator or of the routing manager. -/
inductive CallError where
  | tun (text : String)
  | routing (e : RoutingError)
  deriving DecidableEq

inductive SystemCall where
  | getTunAddrs
  | getTunRoutes
  | setTunAddrs (addrs : List Prefix)
  | addTunAddr (addr : Prefix)
  | setTunRoutes (routes : List Prefix)
  | apply (config : Config)
  | rollback (config : Config)
  deriving DecidableEq

def SystemReply : SystemCall → Type
  | .getTunAddrs => List Prefix
  | .getTunRoutes => List Prefix
  | _ => Unit

/-- The calls that change nothing. -/
def SystemCall.reads : SystemCall → Bool
  | .getTunAddrs => true
  | .getTunRoutes => true
  | _ => false

/-- A program of the system. -/
abbrev SystemProg (α : Type) := Prog SystemCall SystemReply CallError α

/-! ## The default TUN -/

/-- The fields of `defaultTunState` that the updates read and assign. -/
structure TunState where
  dnsIP : Addr
  addrs : List Prefix
  routes : List Prefix
  routingConfig : Option Config
  deriving DecidableEq

inductive UpdateError where
  | parse (text : String)
  | capability (text : String)
  | changesDNS
  | unknownTun
  | removesSource (source : Addr)
  | read (e : CallError)
  | failed (cause : CallError) (compensation : List CallError)
  deriving DecidableEq

/-- The text an error of the updates starts with. -/
def UpdateError.context : UpdateError → String
  | changesDNS => "default tun address update would change the DNS address: "
  | removesSource source =>
    "default tun address update removes source route address " ++ source.string
  | _ => ""

/-- The error comes from validation or a read. -/
def UpdateError.early : UpdateError → Bool
  | failed _ _ => false
  | _ => true

/-- The state after an update, and the error it returned. -/
abbrev UpdateOutcome := TunState × Option UpdateError

/-- A call whose error, if any, is joined to others. -/
def joining (c : SystemCall) : SystemProg (List CallError) :=
  .call c fun
    | .ok _ => .ret []
    | .error e => .ret [e]

def restoreDefaultTunLinkLocked (addrs routes : List Prefix) : SystemProg (List CallError) :=
  collect joining [.setTunAddrs addrs, .setTunRoutes routes]

def restoreDefaultTunRoutingLocked (oldRC failedRC : Config) : SystemProg (List CallError) :=
  collect joining [.rollback failedRC, .apply oldRC]

/-- Make the compensating calls and return their errors behind the cause. -/
def giveUp (state : TunState) (cause : CallError)
    (compensation : List (SystemProg (List CallError))) : SystemProg UpdateOutcome :=
  (collect id compensation).bind fun errs => .ret (state, some (.failed cause errs))

/-- The call that changes the addresses: all of them, or one more. -/
def addressCall (addrs : List Prefix) : Option Prefix → SystemCall
  | none => .setTunAddrs addrs
  | some addedAddr => .addTunAddr addedAddr

def updateDefaultTunAddrsLocked (state : TunState) (addrs : List Prefix)
    (addedAddr : Option Prefix) : SystemProg UpdateOutcome :=
  match state.routingConfig with
  | none => .ret (state, some .unknownTun)
  | some oldRC =>
    match validateDefaultTunSourceAddrs addrs oldRC.sourceRoutes with
    | some source => .ret (state, some (.removesSource source))
    | none =>
      .call .getTunAddrs fun
        | .error e => .ret (state, some (.read e))
        | .ok oldAddrs =>
          .call .getTunRoutes fun
            | .error e => .ret (state, some (.read e))
            | .ok oldMainRoutes =>
              let newRC := setDefaultTunRoutingFamilies oldRC addrs state.routes
              let restoreLink := restoreDefaultTunLinkLocked oldAddrs oldMainRoutes
              .call (addressCall addrs addedAddr) fun
                | .error e => giveUp state e [restoreLink]
                | .ok _ =>
                  .call (.setTunRoutes []) fun
                    | .error e => giveUp state e [restoreLink]
                    | .ok _ =>
                      .call (.apply newRC) fun
                        | .error e => giveUp state e [restoreLink,
                            restoreDefaultTunRoutingLocked oldRC newRC]
                        | .ok _ => .ret ({ state with
                            addrs := addrs, routingConfig := some newRC }, none)

def setDefaultTunRoutesLocked (state : TunState) (routes : List Prefix) :
    SystemProg UpdateOutcome :=
  match state.routingConfig with
  | none => .ret (state, some .unknownTun)
  | some oldRC =>
    .call .getTunRoutes fun
      | .error e => .ret (state, some (.read e))
      | .ok oldMainRoutes =>
        let newRC := setDefaultTunRoutingFamilies oldRC state.addrs routes
        .call (.setTunRoutes []) fun
          | .error e => giveUp state e [joining (.setTunRoutes oldMainRoutes)]
          | .ok _ =>
            .call (.apply newRC) fun
              | .error e => giveUp state e [joining (.setTunRoutes oldMainRoutes),
                  restoreDefaultTunRoutingLocked oldRC newRC]
              | .ok _ => .ret ({ state with
                  routes := routes, routingConfig := some newRC }, none)

/-- What the updates read of the `System`: the fallback address and the checks of
    `tunOperationError` for the default TUN. -/
structure System where
  defaultTunCIDR : Option CIDR
  tunOperationError : TunOperation → AddressFamily → Option String

namespace System

variable (s : System)

/-- The addresses to set, unless the texts are refused or the DNS address would change. -/
def updatedAddrs (state : TunState) (addrs : List CIDR) : Except UpdateError (List Prefix) :=
  match normalizeTunAddrs addrs s.defaultTunCIDR state.dnsIP with
  | .error e => .error (.parse e)
  | .ok (normalized, dnsIP) =>
    if dnsIP ≠ state.dnsIP then .error .changesDNS else .ok normalized

def setDefaultTunAddrsLocked (state : TunState) (addrs : List CIDR) : SystemProg UpdateOutcome :=
  match s.updatedAddrs state addrs with
  | .error e => .ret (state, some e)
  | .ok normalized => updateDefaultTunAddrsLocked state normalized none

def addDefaultTunAddrLocked (state : TunState) (addr : Prefix) : SystemProg UpdateOutcome :=
  if addr ∈ state.addrs then .ret (state, none)
  else match s.updatedAddrs state ((state.addrs ++ [addr]).map .ok) with
    | .error e => .ret (state, some e)
    | .ok normalized => updateDefaultTunAddrsLocked state normalized (some addr)

/-- `SetTunAddrs` on the active default TUN. -/
def setTunAddrs (state : TunState) (addrs : List CIDR) : SystemProg UpdateOutcome :=
  match normalizeTunAddrs addrs none .zero with
  | .error e => .ret (state, some (.parse e))
  | .ok (normalized, _) =>
    match s.tunOperationError .setAddresses (orDual (optionFamily normalized [])) with
    | some e => .ret (state, some (.capability e))
    | none => s.setDefaultTunAddrsLocked state addrs

/-- `AddTunAddr` on the active default TUN. -/
def addTunAddr (state : TunState) : CIDR → SystemProg UpdateOutcome
  | .error e => .ret (state, some (.parse e))
  | .ok cidr =>
    match s.tunOperationError .addAddress (prefixFamily cidr) with
    | some e => .ret (state, some (.capability e))
    | none =>
      match normalizeTunAddrs [.ok cidr] none .zero with
      | .error e => .ret (state, some (.parse e))
      | .ok ([], _) => .ret (state, none)
      | .ok (addr :: _, _) => s.addDefaultTunAddrLocked state addr

/-- `SetTunRoutes` on the active default TUN. -/
def setTunRoutes (state : TunState) (routes : List CIDR) : SystemProg UpdateOutcome :=
  match normalizeTunRoutes routes with
  | .error e => .ret (state, some (.parse e))
  | .ok normalized =>
    match s.tunOperationError .setRoutes (orDual (optionFamily [] normalized)) with
    | some e => .ret (state, some (.capability e))
    | none => setDefaultTunRoutesLocked state normalized

/-- `AddTunRoute` on the active default TUN. -/
def addTunRoute (state : TunState) : CIDR → SystemProg UpdateOutcome
  | .error e => .ret (state, some (.parse e))
  | .ok cidr =>
    match s.tunOperationError .addRoute (prefixFamily cidr) with
    | some e => .ret (state, some (.capability e))
    | none =>
      match normalizeTunRoutes [.ok cidr] with
      | .error e => .ret (state, some (.parse e))
      | .ok [] => .ret (state, none)
      | .ok (route :: _) =>
        match normalizeTunRoutes ((state.routes ++ [route]).map .ok) with
        | .error e => .ret (state, some (.parse e))
        | .ok routes => setDefaultTunRoutesLocked state routes

end System

/-- A call of the public interface on the active default TUN. -/
inductive Update where
  | setTunAddrs (addrs : List CIDR)
  | addTunAddr (addr : CIDR)
  | setTunRoutes (routes : List CIDR)
  | addTunRoute (route : CIDR)

def System.update (s : System) (state : TunState) : Update → SystemProg UpdateOutcome
  | .setTunAddrs addrs => s.setTunAddrs state addrs
  | .addTunAddr addr => s.addTunAddr state addr
  | .setTunRoutes routes => s.setTunRoutes state routes
  | .addTunRoute route => s.addTunRoute state route

/-! ## The shape of an update -/

/-- What an update can be: refused or nothing to do, a change of the addresses or a
    change of the routes. -/
inductive Shape (state : TunState) : SystemProg UpdateOutcome → Prop
  | stays {err : Option UpdateError} : (∀ e, err = some e → e.early = true) →
      Shape state (.ret (state, err))
  | addrs (addrs : List Prefix) (addedAddr : Option Prefix) :
      Shape state (updateDefaultTunAddrsLocked state addrs addedAddr)
  | routes (routes : List Prefix) : Shape state (setDefaultTunRoutesLocked state routes)

section Shape

variable {s : System} {state : TunState}

theorem shape_refused {e : UpdateError} (h : e.early = true) : Shape state (.ret (state, some e)) :=
  Shape.stays fun e' he => by
    cases he
    exact h

theorem shape_nothing : Shape state (.ret (state, none)) :=
  Shape.stays fun e he => by cases he

theorem early_updatedAddrs {addrs : List CIDR} {e : UpdateError}
    (h : s.updatedAddrs state addrs = .error e) : e.early = true := by
  unfold System.updatedAddrs at h
  split at h
  · cases h
    rfl
  · split at h
    · cases h
      rfl
    · cases h

theorem shape_setTunAddrs (addrs : List CIDR) : Shape state (s.setTunAddrs state addrs) := by
  unfold System.setTunAddrs
  split
  · exact shape_refused rfl
  · split
    · exact shape_refused rfl
    · unfold System.setDefaultTunAddrsLocked
      split
      · rename_i h
        exact shape_refused (early_updatedAddrs h)
      · exact Shape.addrs _ none

theorem shape_addTunAddr (addr : CIDR) : Shape state (s.addTunAddr state addr) := by
  unfold System.addTunAddr
  split
  · exact shape_refused rfl
  · split
    · exact shape_refused rfl
    · split
      · exact shape_refused rfl
      · exact shape_nothing
      · unfold System.addDefaultTunAddrLocked
        split
        · exact shape_nothing
        · split
          · rename_i h
            exact shape_refused (early_updatedAddrs h)
          · exact Shape.addrs _ _

theorem shape_setTunRoutes (routes : List CIDR) : Shape state (s.setTunRoutes state routes) := by
  unfold System.setTunRoutes
  split
  · exact shape_refused rfl
  · split
    · exact shape_refused rfl
    · exact Shape.routes _

theorem shape_addTunRoute (route : CIDR) : Shape state (s.addTunRoute state route) := by
  unfold System.addTunRoute
  split
  · exact shape_refused rfl
  · split
    · exact shape_refused rfl
    · split
      · exact shape_refused rfl
      · exact shape_nothing
      · split
        · exact shape_refused rfl
        · exact Shape.routes _

theorem shape_update (u : Update) : Shape state (s.update state u) := by
  cases u with
  | setTunAddrs addrs => exact shape_setTunAddrs addrs
  | addTunAddr addr => exact shape_addTunAddr addr
  | setTunRoutes routes => exact shape_setTunRoutes routes
  | addTunRoute route => exact shape_addTunRoute route

end Shape

/-! ## The configs of an update -/

/-- The configs that calls carry satisfy `P`. -/
def SystemCall.Carries (P : Config → Prop) : SystemCall → Prop
  | .apply config => P config
  | .rollback config => P config
  | _ => True

section Issued

variable {K : SystemCall → Prop} {P : Config → Prop} {state : TunState} {oldRC newRC : Config}

theorem issues_joining {c : SystemCall} (hc : K c) : Issues K (joining c) :=
  issues_call hc (fun _ => trivial) fun _ => trivial

theorem issues_restoreDefaultTunRoutingLocked (hold : K (.apply oldRC)) (hnew : K (.rollback newRC)) :
    Issues K (restoreDefaultTunRoutingLocked oldRC newRC) := by
  refine issues_collect fun c hc => issues_joining ?_
  simp only [mem_cons, not_mem_nil, or_false] at hc
  rcases hc with rfl | rfl
  · exact hnew
  · exact hold

theorem issues_giveUp {cause : CallError} {compensation : List (SystemProg (List CallError))}
    (h : ∀ p ∈ compensation, Issues K p) : Issues K (giveUp state cause compensation) :=
  issues_bind (issues_collect h) fun _ => trivial

theorem issues_apply {state' : TunState} {restore : SystemProg (List CallError)}
    (hold : K (.apply oldRC)) (hnew : K (.apply newRC) ∧ K (.rollback newRC))
    (hrestore : Issues K restore) :
    Issues K (.call (.apply newRC) fun
      | .error e => giveUp state e [restore, restoreDefaultTunRoutingLocked oldRC newRC]
      | .ok _ => .ret (state', none)) := by
  refine issues_call hnew.1 (fun e => issues_giveUp fun p hp => ?_) fun _ => trivial
  simp only [mem_cons, not_mem_nil, or_false] at hp
  rcases hp with rfl | rfl
  · exact hrestore
  · exact issues_restoreDefaultTunRoutingLocked hold hnew.2

theorem issues_giveUp_one {cause : CallError} {restore : SystemProg (List CallError)}
    (h : Issues K restore) : Issues K (giveUp state cause [restore]) :=
  issues_giveUp fun _ hp => mem_singleton.mp hp ▸ h

theorem issues_setDefaultTunRoutesLocked (routes : List Prefix) (hget : K .getTunRoutes)
    (hset : ∀ routes, K (.setTunRoutes routes))
    (h : ∀ rc, state.routingConfig = some rc → K (.apply rc) ∧
      K (.apply (setDefaultTunRoutingFamilies rc state.addrs routes)) ∧
      K (.rollback (setDefaultTunRoutingFamilies rc state.addrs routes))) :
    Issues K (setDefaultTunRoutesLocked state routes) := by
  unfold setDefaultTunRoutesLocked
  split
  · exact trivial
  rename_i oldRC hrc
  obtain ⟨hold, hnew⟩ := h oldRC hrc
  refine issues_call hget (fun _ => trivial) fun oldMainRoutes => ?_
  have hrestore := issues_joining (hset oldMainRoutes)
  exact issues_call (hset _) (fun _ => issues_giveUp_one hrestore) fun _ =>
    issues_apply hold hnew hrestore

theorem carries_setDefaultTunRoutesLocked (routes : List Prefix)
    (hold : ∀ rc, state.routingConfig = some rc → P rc)
    (hnew : ∀ rc, state.routingConfig = some rc →
      P (setDefaultTunRoutingFamilies rc state.addrs routes)) :
    Issues (SystemCall.Carries P) (setDefaultTunRoutesLocked state routes) :=
  issues_setDefaultTunRoutesLocked routes trivial (fun _ => trivial) fun rc hrc =>
    ⟨hold rc hrc, hnew rc hrc, hnew rc hrc⟩

theorem carries_restoreLink (addrs routes : List Prefix) :
    Issues (SystemCall.Carries P) (restoreDefaultTunLinkLocked addrs routes) := by
  refine issues_collect fun c hc => issues_joining ?_
  simp only [mem_cons, not_mem_nil, or_false] at hc
  rcases hc with rfl | rfl
  · exact trivial
  · exact trivial

theorem carries_updateDefaultTunAddrsLocked (addrs : List Prefix) (addedAddr : Option Prefix)
    (hold : ∀ rc, state.routingConfig = some rc → P rc)
    (hnew : ∀ rc, state.routingConfig = some rc →
      validateDefaultTunSourceAddrs addrs rc.sourceRoutes = none →
      P (setDefaultTunRoutingFamilies rc addrs state.routes)) :
    Issues (SystemCall.Carries P) (updateDefaultTunAddrsLocked state addrs addedAddr) := by
  unfold updateDefaultTunAddrsLocked
  split
  · exact trivial
  rename_i oldRC hrc
  split
  · exact trivial
  rename_i hsource
  have hrc' := hnew oldRC hrc hsource
  refine issues_call trivial (fun _ => trivial) fun oldAddrs => ?_
  refine issues_call trivial (fun _ => trivial) fun oldMainRoutes => ?_
  have hrestore := carries_restoreLink (P := P) oldAddrs oldMainRoutes
  refine issues_call (by cases addedAddr <;> exact trivial)
    (fun _ => issues_giveUp_one hrestore) fun _ => ?_
  refine issues_call trivial (fun _ => issues_giveUp_one hrestore) fun _ => ?_
  exact issues_apply (hold oldRC hrc) ⟨hrc', hrc'⟩ hrestore

theorem carries_update (s : System) (u : Update) (hold : ∀ rc, state.routingConfig = some rc → P rc)
    (hnew : ∀ rc addrs routes, P rc → P (setDefaultTunRoutingFamilies rc addrs routes)) :
    Issues (SystemCall.Carries P) (s.update state u) := by
  have hshape : Shape state (s.update state u) := shape_update u
  generalize s.update state u = p at hshape
  cases hshape with
  | stays => exact trivial
  | addrs addrs addedAddr =>
    exact carries_updateDefaultTunAddrsLocked addrs addedAddr hold
      fun rc hrc _ => hnew rc addrs state.routes (hold rc hrc)
  | routes routes =>
    exact carries_setDefaultTunRoutesLocked routes hold
      fun rc hrc => hnew rc state.addrs routes (hold rc hrc)

end Issued

end SysnetLinux.DefaultTun
