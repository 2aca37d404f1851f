/-
  SysnetLinux.Routing.Manager

  The manager of `routing/manager.go` and the two operations its route monitor
  calls (`routing/monitor.go`), as programs over adapter calls.

  An operation runs under the manager's lock and returns the manager after it
  with Go's `error`: `none` is `nil`.  The `fail` closures of the source wrap an
  error in `ErrApplyFailedGuardActive` once a guard is installed; the flag they
  close over is passed along explicitly.
-/

import SysnetLinux.Routing.Compiler
import SysnetLinux.Routing.Kernel

namespace SysnetLinux.Routing

open Netip CallProg CallProg.Prog

/-- A program of the manager. -/
abbrev AdapterProg (α : Type) := Prog AdapterCall Reply AdapterError α

/-! ## Errors -/

def AdapterError.message : AdapterError → String
  | tunLinkNotFound => "routing: TUN link not found"
  | other text => text

/-- One failure with the context the source puts before it. -/
inductive Cause where
  | closed
  | refreshBeforeApply
  | config (e : ConfigError)
  | tunLinkNotFound
  | lookupLink (index : Int) (e : AdapterError)
  | listMainRoutes (e : AdapterError)
  | listTable (table : Int) (e : AdapterError)
  | listRules (e : AdapterError)
  | deleteRoute (e : AdapterError)
  | deleteRule (e : AdapterError)
  | installGuard (e : AdapterError)
  | removeObsolete (e : AdapterError)
  | installVPNRoute (dst : Prefix) (e : AdapterError)
  | installSafeRoute (dst : Prefix) (e : AdapterError)
  | installRule (priority : Int) (e : AdapterError)
  | removeGuard (e : AdapterError)
  | installRouteChangeGuard (e : AdapterError)
  deriving DecidableEq

def Cause.message : Cause → String
  | closed => "routing: manager is closed"
  | refreshBeforeApply => "routing: refresh called before apply"
  | config e => e.message
  | tunLinkNotFound => AdapterError.tunLinkNotFound.message
  | lookupLink index e => "lookup TUN link " ++ toString index ++ ": " ++ e.message
  | listMainRoutes e => "list main routes: " ++ e.message
  | listTable table e => "list table " ++ toString table ++ ": " ++ e.message
  | listRules e => "list rules: " ++ e.message
  | deleteRoute e => e.message
  | deleteRule e => e.message
  | installGuard e => "install transition guard: " ++ e.message
  | removeObsolete e => "remove obsolete rule at transition priority: " ++ e.message
  | installVPNRoute dst e => "install VPN route " ++ dst.string ++ ": " ++ e.message
  | installSafeRoute dst e => "install safe route " ++ dst.string ++ ": " ++ e.message
  | installRule priority e => "install rule priority " ++ toString priority ++ ": " ++ e.message
  | removeGuard e => "remove transition guard: " ++ e.message
  | installRouteChangeGuard e => "install route-change guard: " ++ e.message

inductive Sentinel where
  | errApplyFailedGuardActive
  | errRollbackIncomplete
  deriving DecidableEq, Repr

def Sentinel.message : Sentinel → String
  | errApplyFailedGuardActive => "routing: apply failed with transition guard active"
  | errRollbackIncomplete => "routing: rollback incomplete"

/-- An error of the manager: the joined failures and the sentinel they are wrapped in. -/
structure RoutingError where
  sentinel : Option Sentinel
  causes : List Cause
  deriving DecidableEq

/-- `errors.Join` puts its errors on lines of their own. -/
def RoutingError.message (e : RoutingError) : String :=
  let joined := "\n".intercalate (e.causes.map Cause.message)
  match e.sentinel with
  | none => joined
  | some s => s.message ++ ": " ++ joined

/-- `errors.Is(err, ErrApplyFailedGuardActive)`. -/
def guardActive (err : Option RoutingError) : Bool :=
  match err with
  | some e => e.sentinel == some .errApplyFailedGuardActive
  | none => false

/-- The `fail` closure of the source. -/
def fail (guardInstalled : Bool) (causes : List Cause) : RoutingError :=
  ⟨if guardInstalled then some .errApplyFailedGuardActive else none, causes⟩

/-! ## Ownership -/

/-- A loop that keeps the first item of each key, with the `seen` map of the source. -/
def firstOfKey {α κ : Type} [DecidableEq κ] (key : α → κ) : List κ → List α → List α
  | _, [] => []
  | seen, a :: l =>
    if key a ∈ seen then firstOfKey key seen l
    else a :: firstOfKey key (key a :: seen) l

structure OwnedRuleScope where
  config : Config
  family : Int
  deriving DecidableEq

/-- Scopes are told apart by family and priority block. -/
def OwnedRuleScope.key (s : OwnedRuleScope) : Int × Int × Int :=
  (s.family, s.config.priorityBase, s.config.prioritySpan)

def ownedRuleScopes (configs : List Config) : List OwnedRuleScope :=
  firstOfKey OwnedRuleScope.key [] <|
    configs.flatMap fun config =>
      (familyConstants config.families).map fun family => ⟨config, family⟩

structure OwnedTableTarget where
  family : Int
  table : Int
  deriving DecidableEq

def ownedTableTargets (configs : List Config) : List OwnedTableTarget :=
  firstOfKey id [] <|
    configs.flatMap fun config =>
      (familyConstants config.families).flatMap fun family =>
        [config.vpnTable, config.safeTable].map fun table => ⟨family, table⟩

def transitionGuards (configs : List Config) : List Rule :=
  firstOfKey id [] <|
    configs.flatMap fun config =>
      (familyConstants config.families).map fun family => transitionGuard config family

def keepRule (rule : Rule) (keep : List Rule) : Bool :=
  keep.any fun candidate => rule == candidate || rule == listedRule candidate

def sameRulePriorityAsGuard (rule : Rule) (guards : List Rule) : Bool :=
  guards.any fun guard => rule.family == guard.family && rule.priority == guard.priority

/-! ## Steps of the operations -/

/-- A deletion whose error, if any, is joined to those of the loop around it. -/
def deleting (wrap : AdapterError → Cause) (c : AdapterCall) : AdapterProg (List Cause) :=
  .call c fun
    | .ok _ => .ret []
    | .error e => .ret [wrap e]

def flushTableFamily (family table : Int) : AdapterProg (List Cause) :=
  .call (.listRoutes family table) fun
    | .error e => .ret [.listTable table e]
    | .ok routes => collect (fun route => deleting .deleteRoute (.deleteRoute route)) routes

def flushTable (config : Config) (table : Int) : AdapterProg (List Cause) :=
  collect (fun family => flushTableFamily family table) (familyConstants config.families)

def deleteOwnedRules (config : Config) (family : Int) (keep : List Rule) :
    AdapterProg (List Cause) :=
  .call (.listRules family) fun
    | .error e => .ret [.listRules e]
    | .ok rules =>
      collect (fun (rule : Rule) =>
        if rule.priority < config.priorityBase ∨
            intAdd config.priorityBase config.prioritySpan ≤ rule.priority then .ret []
        else if keepRule rule keep then .ret []
        else deleting .deleteRule (.deleteRule rule)) rules

def snapshotFamilies (acc : List Route) : List Int → AdapterProg (Except Cause Snapshot)
  | [] => .ret (.ok ⟨acc⟩)
  | family :: families =>
    .call (.listRoutes family rtTableMain) fun
      | .error e => .ret (.error (.listMainRoutes e))
      | .ok routes => snapshotFamilies (acc.append routes) families

def snapshotMain (config : Config) : AdapterProg (Except Cause Snapshot) :=
  snapshotFamilies [] (familyConstants config.families)

/-- The loop that installs the guards; it returns the flag `guardInstalled`. -/
def installGuards (guardInstalled : Bool) :
    List Rule → AdapterProg (Except RoutingError Bool)
  | [] => .ret (.ok guardInstalled)
  | guard :: guards =>
    .call (.addRule guard) fun
      | .error e => .ret (.error (fail guardInstalled [.installGuard e]))
      | .ok _ => installGuards true guards

/-- Leave with the joined errors, if there are any. -/
def orFail (guardInstalled : Bool) (p : AdapterProg (List Cause)) :
    AdapterProg (Except RoutingError Unit) :=
  p.bind fun
    | [] => .ret (.ok ())
    | cause :: causes => .ret (.error (fail guardInstalled (cause :: causes)))

/-- A loop of single calls that leaves at the first error. -/
def callEach {β : Type} (guardInstalled : Bool) (mk : β → AdapterCall)
    (wrap : β → AdapterError → Cause) (xs : List β) : AdapterProg (Except RoutingError Unit) :=
  forEach (fun x => attempt (fun e => fail guardInstalled [wrap x e]) (mk x)) xs

/-! ## The manager -/

structure Manager where
  closed : Bool
  applied : Option DesiredState
  deriving DecidableEq

/-- The manager after an operation, and the error it returned. -/
abbrev Outcome := Manager × Option RoutingError

namespace Manager

/-- The configs whose blocks and tables an operation owns. -/
def configs (m : Manager) (config : Config) : List Config :=
  match m.applied with
  | none => [config]
  | some applied => [config, applied.config]

def appliedRules (m : Manager) : List Rule :=
  match m.applied with
  | none => []
  | some applied => applied.rules

/-- The rules of the applied state that stand at a guard's priority and would be tried before it. -/
def obsoleteRules (m : Manager) (desired : DesiredState) (guards : List Rule) : List Rule :=
  m.appliedRules.filter fun rule =>
    !(decide (rule ∈ desired.rules) || keepRule rule guards) &&
      sameRulePriorityAsGuard rule guards

def applyDesired (m : Manager) (desired : DesiredState) :
    AdapterProg (Except RoutingError Unit) :=
  let configs := m.configs desired.config
  let guards := transitionGuards configs
  (installGuards false guards).andThen fun guardInstalled =>
  (callEach guardInstalled .deleteRule (fun _ => .removeObsolete)
    (m.obsoleteRules desired guards)).andThen fun _ =>
  (forEach (fun target => orFail guardInstalled (flushTableFamily target.family target.table))
    (ownedTableTargets configs)).andThen fun _ =>
  (callEach guardInstalled .replaceRoute (fun route => .installVPNRoute route.dst)
    desired.vpnRoutes).andThen fun _ =>
  (callEach guardInstalled .replaceRoute (fun route => .installSafeRoute route.dst)
    desired.safeRoutes).andThen fun _ =>
  (forEach (fun scope => orFail guardInstalled
      (deleteOwnedRules scope.config scope.family guards))
    (ownedRuleScopes configs)).andThen fun _ =>
  (callEach guardInstalled .addRule (fun rule => .installRule rule.priority)
    desired.rules).andThen fun _ =>
  callEach guardInstalled .deleteRule (fun _ => .removeGuard)
    (guards.filter fun guard => decide (guard ∉ desired.rules))

def apply (m : Manager) (config : Config) : AdapterProg Outcome :=
  if m.closed then .ret (m, some (fail false [.closed]))
  else match config.validate with
    | .error e => .ret (m, some (fail false [.config e]))
    | .ok () =>
      .call (.linkByIndex config.tunIndex) fun
        | .error .tunLinkNotFound => .ret (m, some (fail false [.tunLinkNotFound]))
        | .error e => .ret (m, some (fail false [.lookupLink config.tunIndex e]))
        | .ok _ =>
          (snapshotMain config).bind fun
            | .error cause => .ret (m, some (fail false [cause]))
            | .ok snapshot =>
              match compileDesiredState config snapshot with
              | .error e => .ret (m, some (fail false [.config e]))
              | .ok desired =>
                (m.applyDesired desired).bind fun
                  | .error e => .ret (m, some e)
                  | .ok () => .ret ({ m with applied := some desired }, none)

/-- The part of `refreshLocked` behind the guards; it returns the new state. -/
def rebuildSafe (config : Config) (guardInstalled : Bool) :
    AdapterProg (Except RoutingError DesiredState) :=
  (snapshotMain config).bind fun
    | .error cause => .ret (.error (fail guardInstalled [cause]))
    | .ok snapshot =>
      match compileDesiredState config snapshot with
      | .error e => .ret (.error (fail guardInstalled [.config e]))
      | .ok desired =>
        (orFail guardInstalled (flushTable config config.safeTable)).andThen fun _ =>
        (callEach guardInstalled .replaceRoute (fun route => .installSafeRoute route.dst)
          desired.safeRoutes).andThen fun _ =>
        (callEach guardInstalled .deleteRule (fun _ => .removeGuard)
          ((familyConstants config.families).map (transitionGuard config))).andThen fun _ =>
        .ret (.ok desired)

/-- `refreshLocked`, for the applied state it reads. -/
def refreshLocked (m : Manager) (applied : DesiredState) : AdapterProg Outcome :=
  let config := applied.config
  ((installGuards false ((familyConstants config.families).map (transitionGuard config))).andThen
    (rebuildSafe config)).bind fun
      | .error e => .ret (m, some e)
      | .ok desired => .ret ({ m with applied := some desired }, none)

def refresh (m : Manager) : AdapterProg Outcome :=
  if m.closed then .ret (m, some (fail false [.closed]))
  else match m.applied with
    | none => .ret (m, some (fail false [.refreshBeforeApply]))
    | some applied => m.refreshLocked applied

def rollback (m : Manager) (config : Config) : AdapterProg Outcome :=
  if m.closed then .ret (m, some (fail false [.closed]))
  else match config.validate with
    | .error e => .ret (m, some (fail false [.config e]))
    | .ok () =>
      let configs := m.configs config
      (collect (fun scope => deleteOwnedRules scope.config scope.family [])
        (ownedRuleScopes configs)).bind fun ruleErrs =>
      (collect (fun target => flushTableFamily target.family target.table)
        (ownedTableTargets configs)).bind fun tableErrs =>
      match ruleErrs ++ tableErrs with
      | [] => .ret ({ m with applied := none }, none)
      | cause :: causes =>
        .ret (m, some ⟨some .errRollbackIncomplete, cause :: causes⟩)

def status (m : Manager) : Option DesiredState := m.applied

/-- The applied state the route monitor has to keep fresh. -/
def monitored (m : Manager) : Option DesiredState :=
  if m.closed then none
  else m.applied.filter fun applied => applied.config.strictness ≠ .strict

def beginRouteChange (m : Manager) : AdapterProg Outcome :=
  match m.monitored with
  | none => .ret (m, none)
  | some applied =>
    (callEach false .addRule (fun _ => .installRouteChangeGuard)
      ((familyConstants applied.config.families).map
        (transitionGuard applied.config))).bind fun
      | .error e => .ret (m, some e)
      | .ok () => .ret (m, none)

def refreshAfterRouteChange (m : Manager) : AdapterProg Outcome :=
  match m.monitored with
  | none => .ret (m, none)
  | some applied => m.refreshLocked applied

end Manager
end SysnetLinux.Routing
