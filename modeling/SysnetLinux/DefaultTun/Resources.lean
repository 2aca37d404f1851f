/-
  SysnetLinux.DefaultTun.Resources

  What the builds of a default TUN hold on the host.

  `holding` is the host as a set of held resources.  What a build holds is split between the
  recorded state (`HeldBy`) and its locals (`Covers`); `fail` and `closeActive` release both, and
  a build that succeeds moves the one to the other.
-/

import Mathlib.Order.Lattice.Nat
import SysnetLinux.DefaultTun.Built
import SysnetLinux.DefaultTun.Stages
import SysnetLinux.Lib.Holdings

namespace SysnetLinux.DefaultTun

open Netip Routing CallProg CallProg.Prog

/-! ## Resources -/

/-- What a default TUN holds; `attempt` is what an `Apply` left that failed behind its guards. -/
inductive Resource where
  | tun (t : Tun)
  | server (server : Server)
  | checker
  | routing (config : Config)
  | attempt (config : Config)
  | dns
  | dnsIndex
  | ruleset (id : Nat)
  deriving DecidableEq

/-- What is gone when a resource is released.  `Rollback` clears what is applied and what
    an attempt with its config left. -/
def Resource.takes : Resource → Resource → Bool
  | .routing _, .routing _ => true
  | .routing config, .attempt config' => config == config'
  | target, r => target == r

/-- What a call is to release. -/
def HostCall.target : HostCall → Option Resource
  | .closeTun t => some (.tun t)
  | .closeServer server => some (.server server)
  | .setChecker none => some .checker
  | .system _ (.rollback config) => some (.routing config)
  | .unsetDNS => some .dns
  | .setInterfaceIndex index => if index = 0 then some .dnsIndex else none
  | .deleteTMPRuleset id => some (.ruleset id)
  | _ => none

/-- A call that is answered. -/
def HostCall.answered : (c : HostCall) → HostReply c → Holdings Resource → Holdings Resource
  | .createTUN _ _, (t : Tun), w => w.take (.tun t)
  | .packetListen _ _, (server : Server), w => w.take (.server server)
  | .setKernelPolicy _ _, _, w => w.take .checker
  | .setChecker (some _), _, w => w.take .checker
  | .system _ (.apply config), _, w =>
    (w.discard (Resource.takes (.routing config))).take (.routing config)
  | .setDNS _, _, w => w.take .dns
  | .setInterfaceIndex index, _, w =>
    if index = 0 then w.release (Resource.takes .dnsIndex) .dnsIndex else w.take .dnsIndex
  | .createTMPRuleset _, (id : Nat), w => w.take (.ruleset id)
  | c, _, w =>
    match c.target with
    | some target => w.release target.takes target
    | none => w

/-- A call that fails. -/
def HostCall.refused : HostCall → CallError → Holdings Resource → Holdings Resource
  | .system _ (.apply config), e, w => if guardLeft e then w.take (.attempt config) else w
  | c, _, w =>
    match c.target with
    | some target => w.refuse target.takes target
    | none => w

/-- What is given out is new; an interface has a positive index and a ruleset an ID other than 0. -/
def HostCall.Answers : (c : HostCall) → HostReply c → Holdings Resource → Prop
  | .createTUN _ _, (t : Tun), w => w.New (.tun t)
  | .packetListen _ _, (server : Server), w => w.New (.server server)
  | .createTMPRuleset _, (id : Nat), w => id ≠ 0 ∧ w.New (.ruleset id)
  | .tunIndex _, (index : Int), _ => 0 < index
  | _, _, _ => True

def holding : Handler HostCall HostReply CallError (Holdings Resource)
  | c, w, .ok v, w' => c.Answers v w ∧ w' = c.answered v w
  | c, w, .error e, w' => w' = c.refused e w

theorem holding_spares (kind : CallKind)
    (h : [CallKind.link, .rules, .connmark, .registry, .component, .index].contains kind = true) :
    Spares holding kind := by
  rintro c rfl w r w' hr
  cases c with
  | system t c =>
    cases c with
    | apply | rollback => cases h
    | _ =>
      cases r with
      | ok v => exact hr.2
      | error e => exact hr
  | createTUN | closeTun | packetListen | attach | detach | closeServer | setKernelPolicy
  | setChecker | forceProcessTraversal | setInterfaceIndex | setDNS | unsetDNS
  | createTMPRuleset | updateTMPRuleset | deleteTMPRuleset => cases h
  | _ =>
    cases r with
    | ok v => exact hr.2
    | error e => exact hr

/-- Calls of the other kinds that neither take nor release. -/
theorem holding_idle {c : HostCall} (hok : ∀ v w, c.answered v w = w)
    (herr : ∀ e w, c.refused e w = w) : Idle holding c := by
  intro w r w' hr
  cases r with
  | ok v => exact hr.2.trans (hok v w)
  | error e => exact hr.trans (herr e w)

/-! ## Who holds what -/

/-- What the recorded state of a default TUN holds. -/
def HeldBy (s : HostSettings) (d : DefaultTunState) : Resource → Prop
  | .tun t => d.tun = some t
  | .server server => d.server = some server
  | .checker => d.pmarkChecker = true ∧ s.hasPmark = true
  | .routing config => d.routingConfig = some config
  | .attempt _ => False
  | .dns => True
  | .dnsIndex => d.dnsIfidxSet = true ∧ s.dnsInterfaceIndexer = true
  | .ruleset id => d.killswitchID = id ∧ id ≠ 0 ∧ s.hasKillswitch = true

/-- What a build holds, on the way from the one state to the other. -/
def Covers (s : HostSettings) (l : Build) : Resource → Prop
  | .tun t => l.state.tun = some t ∨ (l.tunRecreated = true ∧ l.nativeTun = t)
  | .server server =>
    (l.oldServer = some server ∧ l.state.server = some server) ∨
      (l.serverReplaced = true ∧ l.server = some server)
  | .checker => (l.state.pmarkChecker = true ∨ l.pmarkCheckerInstalled = true) ∧ s.hasPmark = true
  | r => HeldBy s l.failedState r

/-! ## Releases -/

/-- The call is a release of `target`. -/
structure Frees (c : HostCall) (target : Resource) : Prop where
  answered : ∀ v w, c.answered v w = w.release target.takes target
  refused : ∀ e w, c.refused e w = w.refuse target.takes target

theorem frees_closeTun (t : Tun) : Frees (.closeTun t) (.tun t) :=
  ⟨fun _ _ => rfl, fun _ _ => rfl⟩

theorem frees_closeServer (server : Server) : Frees (.closeServer server) (.server server) :=
  ⟨fun _ _ => rfl, fun _ _ => rfl⟩

theorem frees_setChecker : Frees (.setChecker none) .checker := ⟨fun _ _ => rfl, fun _ _ => rfl⟩

theorem frees_rollback (config : Config) : Frees (.system none (.rollback config)) (.routing config) :=
  ⟨fun _ _ => rfl, fun _ _ => rfl⟩

theorem frees_unsetDNS : Frees .unsetDNS .dns := ⟨fun _ _ => rfl, fun _ _ => rfl⟩

theorem frees_setInterfaceIndex : Frees (.setInterfaceIndex 0) .dnsIndex :=
  ⟨fun _ _ => rfl, fun _ _ => rfl⟩

theorem frees_deleteTMPRuleset (id : Nat) : Frees (.deleteTMPRuleset id) (.ruleset id) :=
  ⟨fun _ _ => rfl, fun _ _ => rfl⟩

variable {r : Resource}

theorem takes_tun {t : Tun} :
    (Resource.tun t).takes r = true ↔ r = .tun t := beq_iff_eq.trans eq_comm

theorem takes_server {server : Server} :
    (Resource.server server).takes r = true ↔ r = .server server := beq_iff_eq.trans eq_comm

section Releases

variable {s : HostSettings} {c : HostCall} {target : Resource} {P : Resource → Prop}
  {w : Holdings Resource}

theorem left_of_frees (h : Frees c target) (hP : w.Left P) {r : Except CallError (HostReply c)}
    {w' : Holdings Resource} (hr : holding c w r w') :
    w'.Left fun r => P r ∧ ¬ target.takes r = true := by
  have hneg : ∀ r, (P r ∧ target.takes r = false) → P r ∧ ¬ target.takes r = true :=
    fun r hr => ⟨hr.1, by simp [hr.2]⟩
  cases r with
  | ok v =>
    rw [hr.2, h.answered]
    exact (hP.release target).mono hneg
  | error e =>
    rw [show w' = _ from hr, h.refused]
    exact (hP.refuse target).mono hneg

theorem clears_releasing (h : Frees c target) :
    Clears holding (releasing c) fun r => target.takes r = true := by
  intro P w hP
  refine ⟨trivial, fun r w' hr => ?_⟩
  cases r with
  | ok v | error e => exact left_of_frees h hP hr

theorem clears_quietly (h : Frees c target) :
    Clears holding (quietly c) fun r => target.takes r = true :=
  fun _ _ hP => ⟨trivial, fun _ _ hr => left_of_frees h hP hr⟩

theorem clears_onlyIf {b : Bool} {p : HostProg (List HostError)} {K : Resource → Prop}
    (h : Clears holding p K) : Clears holding (onlyIf b p) fun r => b = true ∧ K r := by
  cases b with
  | true => exact h.mono fun r hr => hr.2
  | false => exact (Clears.idle (p := Prog.ret []) trivial).mono fun r hr => absurd hr.1 nofun

theorem clears_ofSome {α : Type} {f : α → HostProg (List HostError)} {K : α → Resource → Prop}
    {a : Option α} (h : ∀ x, Clears holding (f x) (K x)) :
    Clears holding (ofSome f a) fun r => ∃ x, a = some x ∧ K x r := by
  cases a with
  | none => exact (Clears.idle (p := Prog.ret []) trivial).mono fun r hr => absurd hr nofun
  | some x =>
    refine (h x).mono fun r hr => ?_
    obtain ⟨y, hy, hK⟩ := hr
    exact Option.some.inj hy ▸ hK

theorem clears_closeServer (server : Server) :
    Clears holding (closeServer server) fun r => r = .server server := by
  refine (Clears.collect_cons (Clears.idle (issues_quietly ?_)) (Clears.collect_cons
    (clears_releasing (frees_closeServer server)) Clears.collect_nil)).mono fun r hr => ?_
  · exact holding_idle (fun _ _ => rfl) fun _ _ => rfl
  · exact .inr (.inl (takes_server.mpr hr))

theorem clears_closeActive (d : DefaultTunState) :
    Clears holding (s.closeActive d) (HeldBy s d) := by
  have hspares := holding_spares
  refine (Clears.collect_cons
    (Clears.idle (issues_unregisterRules s (hspares .rules rfl) d.ruleIDs)) <|
    Clears.collect_cons (clears_ofSome clears_closeServer) <|
    Clears.collect_cons (clears_releasing frees_unsetDNS) <|
    Clears.collect_cons (clears_onlyIf (clears_onlyIf
      (clears_releasing frees_setInterfaceIndex))) <|
    Clears.collect_cons (clears_ofSome fun rc => clears_releasing (frees_rollback rc)) <|
    Clears.collect_cons (Clears.idle (issues_onlyIf (issues_rollbackConnmark s
      (hspares .connmark rfl)))) <|
    Clears.collect_cons (clears_onlyIf (clears_releasing
      (frees_deleteTMPRuleset d.killswitchID))) <|
    Clears.collect_cons (clears_onlyIf (clears_releasing frees_setChecker)) <|
    Clears.collect_cons (clears_ofSome fun t => clears_releasing (frees_closeTun t))
      Clears.collect_nil).mono fun r hr => ?_
  cases r with
  | tun t => simp [show d.tun = some t from hr, Resource.takes]
  | server server => simp [show d.server = some server from hr]
  | checker => simp [hr.1, hr.2, Resource.takes]
  | routing config => simp [show d.routingConfig = some config from hr, Resource.takes]
  | attempt => exact absurd hr not_false
  | dns => simp [Resource.takes]
  | dnsIndex => simp [hr.1, hr.2, Resource.takes]
  | ruleset id => simp [hr.1, hr.2.1, hr.2.2, Resource.takes]

theorem clears_fail (l : Build) (cause : List HostError) :
    Clears holding (s.fail l cause) (Covers s l) := by
  have hspares := holding_spares
  intro P w hP
  unfold HostSettings.fail
  rw [wp_bind]
  refine ((Clears.collect_cons (clears_onlyIf (clears_releasing (frees_closeTun l.nativeTun))) <|
    Clears.collect_cons (Clears.idle (issues_unregisterRules s (hspares .rules rfl) _)) <|
    Clears.collect_cons (clears_onlyIf (clears_ofSome clears_closeServer)) <|
    Clears.collect_cons (clears_onlyIf (clears_releasing frees_setChecker)) <|
    Clears.collect_cons (Clears.idle (issues_onlyIf (issues_rollbackConnmark s
      (hspares .connmark rfl)))) <|
    Clears.collect_cons (Clears.idle (issues_quietly (hspares .registry rfl _ rfl))) <|
    Clears.collect_cons (clears_closeActive l.failedState) Clears.collect_nil).mono
      fun r (hr : Covers s l r) => ?_) P w hP
  cases r with
  | tun t =>
    rcases hr with hold | ⟨hnew, rfl⟩
    · exact .inr (.inr (.inr (.inr (.inr (.inr (.inl hold))))))
    · exact .inl ⟨hnew, by simp [Resource.takes]⟩
  | server server =>
    rcases hr with ⟨-, hold⟩ | ⟨hnew, hserver⟩
    · exact .inr (.inr (.inr (.inr (.inr (.inr (.inl hold))))))
    · exact .inr (.inr (.inl ⟨hnew, server, hserver, rfl⟩))
  | checker =>
    obtain ⟨hinstalled, hpmark⟩ := hr
    by_cases hold : l.state.pmarkChecker = true
    · exact .inr (.inr (.inr (.inr (.inr (.inr (.inl ⟨hold, hpmark⟩))))))
    · exact .inr (.inr (.inr (.inl ⟨by simp [hold, hinstalled.resolve_left hold], rfl⟩)))
  | _ => exact .inr (.inr (.inr (.inr (.inr (.inr (.inl hr))))))

end Releases

/-! ## The stages of a build -/

/-- The TUN and the server of the active default TUN, and the releases, ahead of a build. -/
structure Before where
  tun : Option Tun
  server : Option Server
  released : Finset Resource

/-- The resources that an optional TUN or server stands for. -/
def resources {α : Type} (f : α → Resource) (a : Option α) : Finset Resource := (a.map f).toFinset

/-- The TUN of a build; it is the old one or one that replaces it. -/
structure OnTun (base : Before) (l : Build) (w : Holdings Resource) : Prop where
  held : .tun l.nativeTun ∈ w.held
  kept : l.tunRecreated = false → l.state.tun = some l.nativeTun
  replaced : l.tunRecreated = true →
    l.oldNativeTun = l.state.tun ∧ l.state.tun ≠ some l.nativeTun
  same : (l.state.tun = base.tun ∨ (base.tun = none ∧ l.tunRecreated = false)) ∧
    l.state.server = base.server

/-- Nothing has been released yet. -/
structure Untouched (base : Before) (l : Build) (w : Holdings Resource) : Prop where
  server : l.server = l.state.server
  old : l.oldServer = l.state.server
  stays : l.serverReplaced = false
  held : ∀ server, l.server = some server → .server server ∈ w.held
  released : w.released = base.released

/-- The old server is closed already. -/
structure OldClosed (base : Before) (l : Build) (w : Holdings Resource) : Prop where
  server : l.server = none
  old : l.oldServer = none
  stays : l.serverReplaced = false
  released : w.released = base.released ∪ resources .server l.state.server

/-- The server of the build, and whether it replaces the old one. -/
structure Listening (base : Before) (l : Build) (w : Holdings Resource) : Prop where
  held : ∃ server, l.server = some server ∧ .server server ∈ w.held
  old : ∀ server, l.oldServer = some server → l.state.server = some server
  kept : l.serverReplaced = false → l.server = l.state.server ∧ w.released = base.released
  replaced : l.serverReplaced = true → l.server ≠ l.state.server ∧
    w.released ∪ resources .server l.oldServer = base.released ∪ resources .server l.state.server

/-- A build ahead of `closeOldServer`, and behind it with the other `V`. -/
structure Opening (s : HostSettings) (base : Before) (V : Build → Holdings Resource → Prop)
    (l : Build) (w : Holdings Resource) : Prop where
  left : w.Left (Covers s l)
  tun : OnTun base l w
  server : V l w
  checker : l.state.pmarkChecker = true → s.tunRulesSupported = true
  config : l.pmarkConfig.check = none ∧ l.pmarkCheckerInstalled = false

/-- A build behind `listenDNS`. -/
structure Running (s : HostSettings) (base : Before) (l : Build)
    (w : Holdings Resource) : Prop where
  left : w.Left (Covers s l)
  tun : OnTun base l w
  server : Listening base l w
  checker : l.state.pmarkChecker = true → s.tunRulesSupported = true

/-- There are rules to install where they are supported. -/
abbrev Compiled (s : HostSettings) (base : Before) (l : Build) (w : Holdings Resource) :
    Prop :=
  Running s base l w ∧ (s.tunRulesSupported = true ↔ l.pmarkConfig.check.isSome = true) ∧
    l.pmarkCheckerInstalled = false

/-- The checker is there. -/
abbrev Installed (s : HostSettings) (base : Before) (l : Build) (w : Holdings Resource) :
    Prop :=
  Running s base l w ∧ (s.tunRulesSupported = true ↔ l.pmarkCheckerInstalled = true)

/-- The config of the build is applied. -/
abbrev Applied (s : HostSettings) (base : Before) (l : Build) (w : Holdings Resource) :
    Prop :=
  Running s base l w ∧ (s.tunRulesSupported = true ↔ l.pmarkCheckerInstalled = true) ∧
    l.appliedRC = some (s.buildConfig l)

/-- The locals that the stages behind `listenDNS` leave alone. -/
def Build.links (l : Build) :=
  (l.state.tun, l.state.server, l.state.pmarkChecker, l.nativeTun, l.oldNativeTun, l.tunRecreated,
    l.server, l.oldServer, l.serverReplaced)

section Stages

variable {s : HostSettings} {base : Before} {l l' : Build} {w w' : Holdings Resource}

/-- What such a stage keeps, when it takes or drops neither TUN nor server. -/
theorem Running.frame (h : Running s base l w) (hleft : w'.Left (Covers s l'))
    (hlinks : l'.links = l.links) (htun : ∀ t, .tun t ∈ w.held → .tun t ∈ w'.held)
    (hserver : ∀ server, .server server ∈ w.held → .server server ∈ w'.held)
    (hreleased : w'.released = w.released) : Running s base l' w' := by
  simp only [Build.links, Prod.mk.injEq] at hlinks
  obtain ⟨htun', hserver', hchecker, hnative, hold, hrecreated, hserver₁, hold₁, hreplaced⟩ := hlinks
  obtain ⟨server, hsome, hheld⟩ := h.server.held
  refine ⟨hleft, ⟨?_, ?_, ?_, ?_⟩, ⟨⟨server, ?_, ?_⟩, ?_, ?_, ?_⟩, ?_⟩
  · rw [hnative]
    exact htun _ h.tun.held
  · rw [hrecreated, htun', hnative]
    exact h.tun.kept
  · rw [hrecreated, hold, htun', hnative]
    exact h.tun.replaced
  · rw [htun', hserver', hrecreated]
    exact h.tun.same
  · rw [hserver₁]
    exact hsome
  · exact hserver _ hheld
  · rw [hold₁, hserver']
    exact h.server.old
  · rw [hreplaced, hserver₁, hserver', hreleased]
    exact h.server.kept
  · rw [hreplaced, hserver₁, hserver', hreleased, hold₁]
    exact h.server.replaced
  · rw [hchecker]
    exact h.checker

/-- A stage that changes none of the locals that say what is held. -/
theorem covers_of_eq (hlinks : l'.links = l.links) (hstate : l'.failedState = l.failedState)
    (hinstalled : l'.pmarkCheckerInstalled = l.pmarkCheckerInstalled) (r : Resource)
    (h : Covers s l r) : Covers s l' r := by
  simp only [Build.links, Prod.mk.injEq] at hlinks
  obtain ⟨htun, hserver, hchecker, hnative, -, hrecreated, hserver₁, hold₁, hreplaced⟩ := hlinks
  cases r with
  | tun t => simpa only [Covers, htun, hrecreated, hnative] using h
  | server server => simpa only [Covers, hserver, hserver₁, hold₁, hreplaced] using h
  | checker => simpa only [Covers, hchecker, hinstalled] using h
  | _ => simpa only [Covers, hstate] using h

theorem Running.of_eq (h : Running s base l w) (hlinks : l'.links = l.links)
    (hstate : l'.failedState = l.failedState)
    (hinstalled : l'.pmarkCheckerInstalled = l.pmarkCheckerInstalled) : Running s base l' w :=
  h.frame (h.left.mono (covers_of_eq hlinks hstate hinstalled)) hlinks (fun _ => id)
    (fun _ => id) rfl

/-- A stage that takes a resource which is neither TUN nor server. -/
theorem Running.take (h : Running s base l w) {r : Resource} (hlinks : l'.links = l.links)
    (hcovers : ∀ r', Covers s l r' → Covers s l' r') (hr : Covers s l' r) :
    Running s base l' (w.take r) :=
  h.frame (h.left.take hcovers hr) hlinks (fun _ => Finset.mem_insert_of_mem)
    (fun _ => Finset.mem_insert_of_mem) rfl

/-- The failing end of every stage. -/
abbrev Failing (s : HostSettings) (f : Build × List HostError) (w : Holdings Resource) : Prop :=
  w.Left (Covers s f.1)

theorem closes_server (server : Server) {P : Resource → Prop} (hP : w.Left P) : wp holding Any
      (fun errs w' => (w'.Left fun r => P r ∧ r ≠ .server server) ∧
        (errs = [] → w' = w.release (Resource.takes (.server server)) (.server server)))
      (closeServer server) w := by
  refine wp_and (clears_closeServer server P w hP) ?_
  refine wp_collect_idle (issues_quietly (holding_idle (fun _ _ => rfl) fun _ _ => rfl))
    fun _ => wp_collect_cons ⟨trivial, fun r w' hr => ?_⟩
  cases r with
  | ok v => exact fun _ => hr.2
  | error e => exact fun hnil => absurd hnil (by simp)

theorem resources_closeOldServer :
    Stage holding Any (Opening s base (Untouched base)) closeOldServer
      (Opening s base fun l w => Untouched base l w ∨ OldClosed base l w) (Failing s) := by
  rintro l w ⟨hleft, htun, huntouched, hchecker, hconfig⟩
  unfold closeOldServer
  split
  · rename_i server hserver
    split
    · rw [wp_bind]
      refine wp_post (fun errs w' hclosed => ?_) (closes_server server hleft)
      obtain ⟨hleft', hdone⟩ := hclosed
      cases errs with
      | cons e errs => exact hleft'.mono fun r hr => hr.1
      | nil =>
        obtain rfl := hdone rfl
        have hstate : l.state.server = some server := huntouched.server ▸ hserver
        refine ⟨hleft'.mono fun r hr => ?_, ⟨?_, htun.kept, htun.replaced, htun.same⟩, .inr ⟨rfl, rfl,
          huntouched.stays, ?_⟩, hchecker, hconfig⟩
        · -- The old server was the only one.
          obtain ⟨hr, hne⟩ := hr
          cases r with
          | server server' =>
            rcases hr with ⟨-, hr⟩ | ⟨hreplaced, -⟩
            · exact absurd (congrArg Resource.server (Option.some.inj (hr.symm.trans hstate))) hne
            · exact absurd (hreplaced.symm.trans huntouched.stays) nofun
          | _ => exact hr
        · exact Finset.mem_filter.mpr ⟨htun.held, rfl⟩
        · show insert _ w.released = base.released ∪ resources .server l.state.server
          rw [huntouched.released, hstate]
          ext r
          simp [resources, or_comm]
    · exact ⟨hleft, htun, .inl huntouched, hchecker, hconfig⟩
  · exact ⟨hleft, htun, .inl huntouched, hchecker, hconfig⟩

theorem resources_listenDNS : Stage holding Any
      (Opening s base fun l w => Untouched base l w ∨ OldClosed base l w) listenDNS
      (fun l w => Running s base l w ∧ l.pmarkConfig.check = none ∧
        l.pmarkCheckerInstalled = false) (Failing s) := by
  rintro l w ⟨hleft, htun, hserver, hchecker, hconfig⟩
  unfold listenDNS
  split
  · refine wp_call_cases (fun e w' (hr : w' = w) => hr ▸ hleft) fun server w' hr => ?_
    obtain ⟨hnew, rfl⟩ := hr
    refine wp_bind_idle (issues_ofSome fun _ _ => issues_quietly
      (holding_idle (fun _ _ => rfl) fun _ _ => rfl)) fun _ => ?_
    have hheld : .server server ∈ (w.take (.server server)).held := Finset.mem_insert_self _ _
    refine ⟨⟨hleft.take (fun r hr => ?_) (.inr ⟨rfl, rfl⟩),
      ⟨Finset.mem_insert_of_mem htun.held, htun.kept, htun.replaced, htun.same⟩,
      ⟨⟨server, rfl, hheld⟩, ?_, nofun, fun _ => ⟨?_, ?_⟩⟩, hchecker⟩, hconfig⟩
    · -- Only the clause of the servers reads the changed locals.
      cases r with
      | server server' =>
        rcases hr with hr | ⟨hreplaced, -⟩
        · exact .inl hr
        · rcases hserver with huntouched | hclosed
          · exact absurd (hreplaced.symm.trans huntouched.stays) nofun
          · exact absurd (hreplaced.symm.trans hclosed.stays) nofun
      | _ => exact hr
    · intro server' hold
      rcases hserver with huntouched | hclosed
      · exact huntouched.old ▸ hold
      · exact absurd (hclosed.old.symm.trans hold) nofun
    · -- A new server is not the old one.
      intro heq
      have hstate : l.state.server = some server := heq.symm
      rcases hserver with huntouched | hclosed
      · exact hnew.1 (huntouched.held server (huntouched.server.trans hstate))
      · refine hnew.2 ?_
        rw [hclosed.released, hstate]
        exact Finset.mem_union_right _ (Option.mem_toFinset.mpr rfl)
    · show w.released ∪ resources .server l.oldServer = base.released ∪ resources .server l.state.server
      rcases hserver with huntouched | hclosed
      · rw [huntouched.old, huntouched.released]
      · rw [hclosed.old, hclosed.released]
        simp [resources]
  · rename_i hstays
    have hstays' : l.server.isSome = true := by
      cases hsome : l.server with
      | none => simp [hsome] at hstays
      | some server => rfl
    rcases hserver with huntouched | hclosed
    · obtain ⟨server, hsome⟩ := Option.isSome_iff_exists.mp hstays'
      refine ⟨⟨hleft, htun, ⟨⟨server, hsome, huntouched.held server hsome⟩,
        fun server' hold => huntouched.old ▸ hold,
        fun _ => ⟨huntouched.server, huntouched.released⟩, fun hreplaced => ?_⟩, hchecker⟩, hconfig⟩
      exact absurd (hreplaced.symm.trans huntouched.stays) nofun
    · exact absurd (hclosed.server ▸ hstays') nofun

/-- Both ways to install a checker take it. -/
theorem holding_checkerCall {config : DefaultTunPmarkConfig} {check : Checker} :
    ∀ r w', holding (s.checkerCall config check) w r w' →
      w' = if isError r then w else w.take .checker := by
  have hcases : s.checkerCall config check = .setKernelPolicy config.kernelPolicy check ∨
      s.checkerCall config check = .setChecker (some check) := ite_eq_or_eq _ _ _
  rcases hcases with heq | heq
  · rw [heq]
    intro r w' hr
    cases r with
    | ok v => exact hr.2
    | error e => exact hr
  · rw [heq]
    intro r w' hr
    cases r with
    | ok v => exact hr.2
    | error e => exact hr

theorem resources_installChecker :
    Stage holding Any (Compiled s base) s.installChecker (Installed s base) (Failing s) := by
  rintro l w ⟨h, hcheck, hnot⟩
  unfold HostSettings.installChecker
  split
  · rename_i hnone
    refine ⟨h, fun hsupported => ?_, fun hinstalled => ?_⟩
    · exact absurd (hcheck.mp hsupported) (by simp [hnone])
    · exact absurd (hnot.symm.trans hinstalled) nofun
  · rename_i check hsome
    have hsupported : s.tunRulesSupported = true := hcheck.mpr (by simp [hsome])
    have hpmark : s.hasPmark = true := by
      have hparts := hsupported
      simp only [HostSettings.tunRulesSupported, Bool.and_eq_true] at hparts
      exact hparts.1.2
    have hidle : Idle holding .forceProcessTraversal :=
      holding_idle (fun _ _ => rfl) fun _ _ => rfl
    refine ⟨trivial, fun r w' hr => ?_⟩
    obtain rfl := holding_checkerCall r w' hr
    cases r with
    | error e => exact h.left
    | ok v =>
      have hcovers : ∀ r, Covers s l r → Covers s { l with pmarkCheckerInstalled := true } r := by
        intro r hr
        cases r with
        | checker => exact ⟨.inr rfl, hr.2⟩
        | _ => exact hr
      have hlinks : ({ l with pmarkCheckerInstalled := true } : Build).links = l.links := rfl
      have hinstalled := h.take (r := .checker) hlinks hcovers ⟨.inr rfl, hpmark⟩
      exact idle_step hidle ⟨hinstalled, fun _ => rfl, fun _ => hsupported⟩ fun _ => hinstalled.left

theorem resources_setDefaultTunDNSInterface :
    Stage holding Any (fun l w => Installed s base l w ∧ 0 < l.index)
      s.setDefaultTunDNSInterface (Installed s base) (Failing s) := by
  rintro l w ⟨⟨h, hinstalled⟩, hindex⟩
  unfold HostSettings.setDefaultTunDNSInterface
  split
  · rename_i hindexer
    have hne : l.index ≠ 0 := by omega
    have hok : ∀ v, HostCall.answered (.setInterfaceIndex l.index) v w = w.take .dnsIndex :=
      fun v => if_neg hne
    have herr : ∀ e, HostCall.refused (.setInterfaceIndex l.index) e w = w := by
      intro e
      simp only [HostCall.refused, HostCall.target, if_neg hne]
    refine ⟨trivial, fun r w' hr => ?_⟩
    cases r with
    | error e =>
      obtain rfl : w' = w := (show w' = _ from hr).trans (herr e)
      exact h.left
    | ok v =>
      obtain rfl : w' = w.take .dnsIndex := hr.2.trans (hok v)
      refine ⟨h.take rfl (fun r hr => ?_) ⟨rfl, hindexer⟩, hinstalled⟩
      cases r with
      | dnsIndex => exact ⟨rfl, hr.2⟩
      | _ => exact hr
  · exact ⟨h, hinstalled⟩

/-- A new config takes the place of the one that is applied.  What an attempt leaves is
    rolled back at once. -/
theorem resources_applyRouting :
    Stage holding Any (Installed s base) s.applyRouting (Applied s base) (Failing s) := by
  rintro l w ⟨h, hinstalled⟩
  refine ⟨trivial, fun r w' hr => ?_⟩
  cases r with
  | ok v =>
    obtain rfl := hr.2
    refine ⟨h.frame ((h.left.discard).take (fun r hr => ?_) rfl) rfl (fun t ht => ?_)
      (fun server hserver => ?_) rfl, hinstalled, rfl⟩
    · obtain ⟨hr, htakes⟩ := hr
      cases r with
      | routing config => exact absurd htakes nofun
      | _ => exact hr
    · exact Finset.mem_insert_of_mem (Finset.mem_filter.mpr ⟨ht, rfl⟩)
    · exact Finset.mem_insert_of_mem (Finset.mem_filter.mpr ⟨hserver, rfl⟩)
  | error e =>
    have hw : w' = if guardLeft e then w.take (.attempt (s.buildConfig l)) else w := hr
    simp only
    rw [wp_bind]
    cases hguard : guardLeft e with
    | false =>
      rw [hguard] at hw
      obtain rfl : w' = w := hw
      exact h.left
    | true =>
      rw [hguard] at hw
      obtain rfl : w' = w.take (.attempt (s.buildConfig l)) := hw
      have hleft : (w.take (.attempt (s.buildConfig l))).Left
          fun r => Covers s l r ∨ r = .attempt (s.buildConfig l) :=
        h.left.take (fun _ hr => .inl hr) (.inr rfl)
      refine wp_post (fun errs w' hleft' => hleft'.mono fun r hr => ?_)
        (clears_releasing (frees_rollback (s.buildConfig l)) _ _ hleft)
      rcases hr.1 with hr' | rfl
      · exact hr'
      · exact absurd (beq_self_eq_true _) hr.2

theorem resources_setDNS : Stage holding Any (Applied s base) (step fun l => .setDNS l.input.dnsIP)
      (Applied s base) (Failing s) := by
  rintro l w ⟨h, hdone⟩
  refine wp_call_cases (fun e w' (hr : w' = w) => hr ▸ h.left) fun v w' hr => ?_
  obtain rfl := hr.2
  exact ⟨h.take rfl (fun _ => id) trivial, hdone⟩

theorem resources_updateKillswitch :
    Stage holding Any (Applied s base) s.updateKillswitch (Applied s base) (Failing s) := by
  rintro l w ⟨h, hdone⟩
  unfold HostSettings.updateKillswitch
  split
  · exact ⟨h, hdone⟩
  rename_i henabled
  split
  · rename_i hzero
    refine wp_call_cases (fun e w' (hr : w' = w) => hr ▸ h.left) fun id w' hr => ?_
    obtain ⟨⟨hid, -⟩, rfl⟩ := hr
    have hkillswitch : s.hasKillswitch = true := by
      cases hhas : s.hasKillswitch with
      | true => rfl
      | false => simp [hhas] at henabled
    refine ⟨h.take rfl (fun r hr => ?_) ⟨rfl, hid, hkillswitch⟩, hdone⟩
    cases r with
    | ruleset id' => exact absurd (hr.1.symm.trans hzero) hr.2.1
    | _ => exact hr
  · exact idle_step (holding_idle (fun _ _ => rfl) fun _ _ => rfl) ⟨h, hdone⟩ fun _ => h.left

theorem resources_stages : Stage holding Any (Opening s base (Untouched base)) (inTurn s.stages)
      (Applied s base) (Failing s) := by
  have hspares := holding_spares
  refine Stage.cons (fun l w h => idle_step (hspares .link rfl _ rfl) h fun _ => h.left) ?_
  refine Stage.cons (fun l w h => idle_step (hspares .link rfl _ rfl) h fun _ => h.left) ?_
  refine Stage.cons (fun l w h => idle_step (hspares .link rfl _ rfl) h fun _ => h.left) ?_
  refine Stage.cons resources_closeOldServer (Stage.cons resources_listenDNS ?_)
  refine Stage.cons (Q := Compiled s base) (fun l w h => ?_)
    (Stage.cons resources_installChecker ?_)
  · refine idle_compileRules (hspares .rules rfl) (fun hsupported _ config hcheck => ?_)
      (fun hnot => ?_) fun _ => h.1.left
    · exact ⟨h.1.of_eq rfl rfl rfl, ⟨fun _ => hcheck, fun _ => hsupported⟩, h.2.2⟩
    · exact ⟨h.1, ⟨fun hyes => absurd (hyes.symm.trans hnot) nofun,
        fun hsome => absurd hsome (by simp [h.2.1])⟩, h.2.2⟩
  refine Stage.cons (Q := fun l w => Installed s base l w ∧ 0 < l.index) (fun l w h => ?_)
    (Stage.cons resources_setDefaultTunDNSInterface (Stage.cons resources_applyRouting
      (Stage.cons (Q := Applied s base) (fun l w h => ?_)
        (Stage.cons resources_setDNS (Stage.cons resources_updateKillswitch Stage.nil)))))
  · refine wp_call_cases (fun e w' (hr : w' = w) => hr ▸ h.1.left) fun index w' hr => ?_
    obtain ⟨hindex, rfl⟩ := hr
    exact ⟨⟨h.1.of_eq rfl rfl rfl, h.2⟩, hindex⟩
  · exact idle_applyConnmark (hspares .connmark rfl)
      (fun _ _ => ⟨h.1.of_eq rfl rfl rfl, h.2⟩) fun _ => h.1.left

end Stages

/-! ## The ends of a build -/

/-- The resource of what is replaced, if it is. -/
def replaced {α : Type} [DecidableEq α] (f : α → Resource) (old new : Option α) : Finset Resource :=
  if old = new then ∅ else resources f old

/-- The host behind a successful build: what is held is what the state holds. -/
structure Holds (s : HostSettings) (d : DefaultTunState) (w : Holdings Resource) : Prop where
  left : w.Left (HeldBy s d)
  tun : ∃ t, d.tun = some t ∧ .tun t ∈ w.held
  server : ∃ server, d.server = some server ∧ .server server ∈ w.held
  checker : d.pmarkChecker = true → s.tunRulesSupported = true

section Ends

variable {s : HostSettings} {base : Before} {l : Build} {w : Holdings Resource}

/-- A release keeps what it does not name, and it is logged or stuck. -/
theorem release_logged {c : HostCall} {target : Resource} (h : Frees c target)
    {r : Except CallError (HostReply c)} {w' : Holdings Resource} (hr : holding c w r w') :
    (∀ r ∈ w.held, target.takes r = false → r ∈ w'.held) ∧
      (∀ r ∈ w.stuck, target.takes r = false → r ∈ w'.stuck) ∧
      (w'.released = insert target w.released ∨ target ∈ w'.stuck) := by
  cases r with
  | ok v =>
    rw [hr.2, h.answered]
    exact ⟨fun r hr hkept => Finset.mem_filter.mpr ⟨hr, hkept⟩,
      fun r hr hkept => Finset.mem_filter.mpr ⟨hr, hkept⟩, .inl rfl⟩
  | error e =>
    rw [show w' = _ from hr, h.refused]
    exact ⟨fun r hr _ => hr, fun r hr _ => Finset.mem_insert_of_mem (Finset.mem_union_left _ hr),
      .inr (Finset.mem_insert_self _ _)⟩

theorem insert_eq_union_resources {α : Type} (f : α → Resource) (a : α) (S : Finset Resource) :
    insert (f a) S = S ∪ resources f (some a) := by
  ext r
  simp [resources]

/-- The host while a build that succeeded releases what it has replaced: the old TUN is
    logged or stuck. -/
structure Replacing (l : Build) (log : Finset Resource) (w : Holdings Resource) : Prop where
  tun : .tun l.nativeTun ∈ w.held
  server : ∀ server, l.server = some server → .server server ∈ w.held
  log : w.released = log ∨ ∃ t, .tun t ∈ w.stuck

theorem replacing_tun (h : Running s base l w) : wp holding Any
      (fun _ => Replacing l (w.released ∪ replaced .tun l.state.tun (some l.nativeTun)))
      (onlyIf l.tunRecreated (ofSome (fun t => quietly (.closeTun t)) l.oldNativeTun)) w := by
  obtain ⟨server, hserver, hheld⟩ := h.server.held
  have hservers : ∀ server', l.server = some server' → .server server' ∈ w.held :=
    fun server' hserver' => Option.some.inj (hserver.symm.trans hserver') ▸ hheld
  cases hrecreated : l.tunRecreated with
  | false =>
    refine ⟨h.tun.held, hservers, .inl ?_⟩
    rw [replaced, if_pos (h.tun.kept hrecreated), Finset.union_empty]
  | true =>
    obtain ⟨hold, hnew⟩ := h.tun.replaced hrecreated
    rw [replaced, if_neg hnew, hold]
    cases htun : l.state.tun with
    | none => exact ⟨h.tun.held, hservers, .inl (by simp [resources])⟩
    | some t =>
      refine ⟨trivial, fun r w' hr => ?_⟩
      obtain ⟨hkept, -, hlog⟩ := release_logged (frees_closeTun t) hr
      refine ⟨hkept _ h.tun.held ?_, fun server' hserver' => hkept _ (hservers _ hserver') rfl,
        hlog.imp (fun hlog => ?_) fun hstuck => ⟨t, hstuck⟩⟩
      · rw [← Bool.not_eq_true, takes_tun]
        exact fun heq => hnew (htun.trans (congrArg some (Resource.tun.inj heq).symm))
      · rw [hlog, insert_eq_union_resources]

theorem replacing_server (h : Running s base l w) {T : Finset Resource} {w' : Holdings Resource}
    (hr : Replacing l (w.released ∪ T) w') :
    wp holding Any (fun _ w'' => .tun l.nativeTun ∈ w''.held ∧
        (∀ server, l.server = some server → .server server ∈ w''.held) ∧
        (w''.stuck = ∅ → w''.released = base.released ∪ T ∪ replaced .server l.state.server l.server))
      (onlyIf l.serverReplaced (ofSome closeServer l.oldServer)) w' := by
  have hdone : ∀ u : Holdings Resource, (∀ t, .tun t ∈ w'.stuck → .tun t ∈ u.stuck) →
      u.stuck = ∅ → w'.released = w.released ∪ T := by
    intro u hkept hnone
    refine hr.log.resolve_right fun hstuck => ?_
    obtain ⟨t, ht⟩ := hstuck
    exact absurd (hnone ▸ hkept t ht) (Finset.notMem_empty _)
  cases hreplaced : l.serverReplaced with
  | false =>
    obtain ⟨hsame, hbase⟩ := h.server.kept hreplaced
    refine ⟨hr.tun, hr.server, fun hnone => ?_⟩
    rw [hdone w' (fun _ => id) hnone, hbase, replaced, if_pos hsame.symm, Finset.union_empty]
  | true =>
    obtain ⟨hdiffers, hlogged⟩ := h.server.replaced hreplaced
    rw [replaced, if_neg (Ne.symm hdiffers)]
    -- What is logged of the old server by now and what is logged here is the old server.
    have hall : w.released ∪ T ∪ resources .server l.oldServer =
        base.released ∪ T ∪ resources .server l.state.server := by
      rw [Finset.union_right_comm, hlogged, Finset.union_right_comm]
    cases hold : l.oldServer with
    | none =>
      refine ⟨hr.tun, hr.server, fun hnone => ?_⟩
      rw [hdone w' (fun _ => id) hnone, ← hall, hold]
      simp [resources]
    | some old =>
      refine wp_collect_idle (issues_quietly (holding_idle (fun _ _ => rfl) fun _ _ => rfl))
        fun _ => wp_collect_cons ?_
      refine wp_post (fun _ u hu => wp_collect_nil hu) ?_
      have hstep : ∀ r u, holding (.closeServer old) w' r u → .tun l.nativeTun ∈ u.held ∧
          (∀ server, l.server = some server → .server server ∈ u.held) ∧
          (u.stuck = ∅ → u.released = base.released ∪ T ∪ resources .server l.state.server) := by
        intro r u hru
        obtain ⟨hkept, hstays, hlog⟩ := release_logged (frees_closeServer old) hru
        refine ⟨hkept _ hr.tun rfl, fun server hserver => hkept _ (hr.server server hserver) ?_,
          fun hnone => ?_⟩
        · rw [← Bool.not_eq_true, takes_server]
          intro heq
          refine hdiffers (hserver.trans ?_)
          rw [Resource.server.inj heq]
          exact (h.server.old old hold).symm
        · have hlogged' := hlog.resolve_right fun hstuck =>
            absurd (hnone ▸ hstuck) (Finset.notMem_empty _)
          rw [hlogged', hdone u (fun t ht => hstays _ ht rfl) hnone, insert_eq_union_resources,
            ← hold, hall]
      refine ⟨trivial, fun r u hru => ?_⟩
      cases r with
      | ok v | error e => exact hstep _ u hru

theorem replaced_same (h : OnTun base l w) :
    replaced .tun l.state.tun (some l.nativeTun) = replaced .tun base.tun (some l.nativeTun) := by
  rcases h.same.1 with hsame | ⟨hnone, hkept⟩
  · rw [hsame]
  · rw [replaced, if_pos (h.kept hkept), replaced, hnone, if_neg nofun]
    rfl

/-- What is left behind the releases is what the new state holds. -/
theorem heldBy_builtState (h : Applied s base l w) {r : Resource} {generation : Nat}
    (hr : Covers s l r)
    (htun : ¬ (l.tunRecreated = true ∧ ∃ t, l.oldNativeTun = some t ∧
      (Resource.tun t).takes r = true))
    (hserver : ¬ (l.serverReplaced = true ∧ ∃ server, l.oldServer = some server ∧
      r = .server server)) : HeldBy s (s.builtState l generation) r := by
  obtain ⟨h, hinstalled, happlied⟩ := h
  cases r with
  | tun t =>
    show (if l.tunRecreated then some l.nativeTun else l.state.tun) = some t
    cases hrecreated : l.tunRecreated with
    | false =>
      rcases hr with hr | ⟨hnew, -⟩
      · exact hr
      · exact absurd (hrecreated.symm.trans hnew) nofun
    | true =>
      rcases hr with hr | ⟨-, rfl⟩
      · refine absurd ⟨hrecreated, t, ?_, takes_tun.mpr rfl⟩ htun
        exact (h.tun.replaced hrecreated).1.trans hr
      · rfl
  | server server =>
    show l.server = some server
    rcases hr with ⟨hold, hstate⟩ | ⟨-, hnew⟩
    · cases hreplaced : l.serverReplaced with
      | false => exact (h.server.kept hreplaced).1.trans hstate
      | true => exact absurd ⟨hreplaced, server, hold, rfl⟩ hserver
    · exact hnew
  | checker => exact ⟨hr.1.elim (fun hold => hinstalled.mp (h.checker hold)) id, hr.2⟩
  | routing config =>
    have hconfig : (l.appliedRC.orElse fun _ => l.state.routingConfig) = some config := hr
    rw [happlied] at hconfig
    exact hconfig
  | attempt => exact hr
  | dns => trivial
  | dnsIndex => exact ⟨hr.2, hr.2⟩
  | ruleset => exact hr

theorem clears_releaseReplaced (l : Build) : Clears holding (s.releaseReplaced l) fun r =>
      (l.tunRecreated = true ∧ ∃ t, l.oldNativeTun = some t ∧ (Resource.tun t).takes r = true) ∨
        (l.serverReplaced = true ∧ ∃ server, l.oldServer = some server ∧ r = .server server) := by
  have hspares := holding_spares
  refine (Clears.collect_cons (Clears.idle (issues_onlyIf (issues_quietly ?_))) <|
    Clears.collect_cons (clears_onlyIf (clears_ofSome fun t =>
      clears_quietly (frees_closeTun t))) <|
    Clears.collect_cons (Clears.idle (issues_unregisterRules s (hspares .rules rfl) _)) <|
    Clears.collect_cons (clears_onlyIf (clears_ofSome clears_closeServer))
      Clears.collect_nil).mono fun r hr => ?_
  · exact hspares .registry rfl _ rfl
  · rcases hr with hr | hr
    · exact .inr (.inl hr)
    · exact .inr (.inr (.inr (.inl hr)))

/-- The end of a build on a link. -/
def BuildEnd (s : HostSettings) (base : Before) (out : HostOutcome) (w : Holdings Resource) :
    Prop :=
  match out.2 with
  | none => ∃ d, out.1.defaultTun = some d ∧ Holds s d w ∧
      (w.stuck = ∅ → w.released = base.released ∪ replaced .tun base.tun d.tun ∪
        replaced .server base.server d.server)
  | some (.build _) => out.1.defaultTun = none ∧ w.Left fun _ => False
  | some _ => False

theorem buildEnd_buildOn (h : Opening s base (Untouched base) l w) (m : Memory) :
    wp holding Any (BuildEnd s base) (s.buildOn m l) w := by
  have hspares := holding_spares
  unfold HostSettings.buildOn
  rw [wp_bind]
  refine wp_post (fun r w' hr => ?_) (resources_stages l w h)
  cases r with
  | error failed =>
    simp only
    rw [wp_bind]
    refine wp_post (fun _ w'' hleft => ⟨rfl, hleft.mono fun r hr => ?_⟩)
      (clears_fail failed.1 failed.2 _ w' hr)
    exact hr.2 hr.1
  | ok l' =>
    have hlog : wp holding Any (fun _ w'' => .tun l'.nativeTun ∈ w''.held ∧
          (∀ server, l'.server = some server → .server server ∈ w''.held) ∧
          (w''.stuck = ∅ → w''.released = base.released ∪
            replaced .tun l'.state.tun (some l'.nativeTun) ∪
            replaced .server l'.state.server l'.server)) (s.releaseReplaced l') w' := by
      refine wp_collect_idle (issues_onlyIf (issues_quietly
          (hspares .registry rfl _ rfl))) fun _ => wp_collect_cons ?_
      refine wp_post (fun _ w'' hreplacing => ?_) (replacing_tun hr.1)
      refine wp_collect_idle (issues_unregisterRules s (hspares .rules rfl) _)
        fun _ => wp_collect_cons ?_
      exact wp_post (fun _ _ hdone => wp_collect_nil hdone) (replacing_server hr.1 hreplacing)
    simp only
    rw [wp_bind]
    refine wp_post (fun _ w'' hdone => ?_) (wp_and (clears_releaseReplaced l' _ w' hr.1.left) hlog)
    obtain ⟨hleft', htun, hserver, hreleased⟩ := hdone
    obtain ⟨server, hsome, -⟩ := hr.1.server.held
    have htun' : ∀ generation, (s.builtState l' generation).tun = some l'.nativeTun := by
      intro generation
      show (if l'.tunRecreated then some l'.nativeTun else l'.state.tun) = _
      cases hrecreated : l'.tunRecreated with
      | false => exact hr.1.tun.kept hrecreated
      | true => rfl
    refine ⟨_, rfl, ⟨hleft'.mono fun r hr' => ?_, ⟨_, htun' _, htun⟩,
      ⟨server, hsome, hserver server hsome⟩, fun hinstalled => ?_⟩, fun hstuck => ?_⟩
    · obtain ⟨hcovers, hgone⟩ := hr'
      exact heldBy_builtState hr hcovers (fun hx => hgone (.inl hx)) fun hx => hgone (.inr hx)
    · exact hr.2.1.mpr hinstalled
    · rw [htun', ← replaced_same hr.1.tun, ← hr.1.tun.same.2]
      exact hreleased hstuck

end Ends

/-! ## Builds -/

section Builds

variable {s : HostSettings} {w : Holdings Resource} {d : DefaultTunState}

/-- The locals of a build start with what the state holds. -/
theorem covers_start {input : BuildInput} {t : Tun} {old : Option Tun} {recreated : Bool}
    {r : Resource} (h : HeldBy s d r) : Covers s (.start input d t old recreated) r := by
  cases r with
  | tun t => exact .inl h
  | server server => exact .inl ⟨h, h⟩
  | checker => exact ⟨.inl h.1, h.2⟩
  | _ => exact h

theorem untouched_start {input : BuildInput} {t : Tun} {old : Option Tun} {recreated : Bool}
    {before : Option Tun} {released : Finset Resource}
    (h : ∀ server, d.server = some server → .server server ∈ w.held)
    (hreleased : w.released = released) :
    Untouched ⟨before, d.server, released⟩ (.start input d t old recreated) w :=
  ⟨rfl, rfl, rfl, h, hreleased⟩

theorem Holds.servers (h : Holds s d w) (server : Server) (hserver : d.server = some server) :
    .server server ∈ w.held := by
  obtain ⟨server', hsome, hheld⟩ := h.server
  exact Option.some.inj (hsome.symm.trans hserver) ▸ hheld

/-- The TUN that is there is used, or a new one besides it. -/
theorem resources_prepareDefaultTunLink (h : Holds s d w) (input : BuildInput) : wp holding Any
      (fun r w' => match r with
        | .ok l => Opening s ⟨d.tun, d.server, w.released⟩
            (Untouched ⟨d.tun, d.server, w.released⟩) l w'
        | .error _ => w'.stuck = ∅ → w'.held = w.held)
      (s.prepareDefaultTunLink input d) w := by
  obtain ⟨t, htun, hheld⟩ := h.tun
  unfold HostSettings.prepareDefaultTunLink
  rw [htun]
  refine ⟨trivial, fun r w' hr => ?_⟩
  obtain rfl := holding_spares .index rfl _ rfl _ _ _ hr
  cases r with
  | ok index =>
    exact ⟨h.left.mono fun r hr => covers_start hr, ⟨hheld, fun _ => htun, nofun, .inl htun, rfl⟩,
      untouched_start h.servers rfl, h.checker, rfl, rfl⟩
  | error e =>
    refine wp_call_cases (fun e w'' (hr : w'' = w') => hr ▸ fun _ => rfl)
      fun replacement w'' hr => ?_
    obtain ⟨hnew, rfl⟩ := hr
    simp only
    split
    · rw [wp_bind]
      refine ⟨trivial, fun r w₃ hr => ?_⟩
      have hkept : w₃.stuck = ∅ → w₃.held = w'.held := by
        intro hstuck
        cases r with
        | ok v =>
          obtain rfl := hr.2
          exact Holdings.held_release_take hnew.1 fun r => takes_tun
        | error e =>
          obtain rfl := show w₃ = _ from hr
          exact absurd hstuck (Finset.insert_ne_empty _ _)
      cases r with
      | ok v | error e => exact hkept
    · refine ⟨h.left.take (fun r hr => covers_start hr) (.inr ⟨rfl, rfl⟩),
        ⟨Finset.mem_insert_self _ _, nofun, fun _ => ⟨htun.symm, fun heq => ?_⟩, .inl htun, rfl⟩,
        untouched_start (fun server hserver =>
          Finset.mem_insert_of_mem (h.servers server hserver)) rfl, h.checker, rfl, rfl⟩
      obtain rfl : t = replacement := Option.some.inj (htun.symm.trans heq)
      exact hnew.1 hheld

/-- What is held between calls. -/
def AtRest (s : HostSettings) (m : Memory) (w : Holdings Resource) : Prop :=
  match m.defaultTun with
  | none => w.held = ∅
  | some d => Holds s d w

/-- The end of a call, when no release is stuck. -/
def CallEnd (s : HostSettings) (m : Memory) (w : Holdings Resource) (out : HostOutcome)
    (w' : Holdings Resource) : Prop :=
  match out.2 with
  | none => ∃ d, out.1.defaultTun = some d ∧ Holds s d w' ∧
      w'.released = w.released ∪ replaced .tun (m.defaultTun.bind (·.tun)) d.tun ∪
        replaced .server (m.defaultTun.bind (·.server)) d.server
  | some (.build _) => out.1.defaultTun = none ∧ w'.held = ∅
  | some _ => out.1 = m ∧ w'.held = w.held

variable {m : Memory}

theorem callEnd_of_buildEnd {base : Before} {out : HostOutcome} {w' : Holdings Resource}
    (h : BuildEnd s base out w')
    (hbase : base = ⟨m.defaultTun.bind (·.tun), m.defaultTun.bind (·.server), w.released⟩)
    (hstuck : w'.stuck = ∅) : CallEnd s m w out w' := by
  obtain ⟨m', err⟩ := out
  match err with
  | none =>
    obtain ⟨d, hd, hholds, hlog⟩ := h
    refine ⟨d, hd, hholds, ?_⟩
    rw [hbase] at hlog
    exact hlog hstuck
  | some (.build errs) => exact ⟨h.1, h.2.none (fun _ => id) hstuck⟩
  | some (.options _) | some (.parse _) | some .dnsUnavailable | some (.sourceRoutes _)
  | some .closed | some .unknownTun | some (.create _) | some (.prepare _) | some (.update _)
  | some (.release _) => exact absurd h not_false

theorem callEnd_stays {e : Failure} (he : ∀ errs, e ≠ .build errs) {w' : Holdings Resource}
    (hheld : w'.held = w.held) : CallEnd s m w (m, some e) w' := by
  cases e with
  | build errs => exact absurd rfl (he errs)
  | _ => exact ⟨rfl, hheld⟩

theorem buildInput_error {opts : DefaultTunOpts} {activeName : String} {e : Failure}
    (h : s.buildInput opts activeName = .error e) (errs : List HostError) : e ≠ .build errs := by
  rintro rfl
  unfold HostSettings.buildInput at h
  repeat' split at h
  all_goals exact absurd h nofun

theorem callEnd_buildDefaultTun (h : AtRest s m w) (opts : DefaultTunOpts) (activeName : String) :
    wp holding Any (fun out w' => w'.stuck = ∅ → CallEnd s m w out w')
      (s.buildDefaultTun m opts activeName) w := by
  unfold HostSettings.buildDefaultTun
  split
  · rename_i e hinput
    exact fun _ => callEnd_stays (buildInput_error hinput) rfl
  rename_i input hinput
  split
  · exact fun _ => callEnd_stays (by simp) rfl
  split
  · rename_i hnone
    have hempty : w.held = ∅ := by simpa only [AtRest, hnone] using h
    refine wp_call_cases (fun e w' (hr : w' = w) => hr ▸ fun _ => callEnd_stays (by simp) rfl)
      fun t w' hr => ?_
    obtain ⟨hnew, rfl⟩ := hr
    refine wp_bind_idle (issues_quietly (holding_spares .registry rfl _ rfl)) fun _ => ?_
    have hleft : w.Left fun _ => False := by
      intro r hr
      rw [hempty] at hr
      exact absurd hr (Finset.notMem_empty r)
    have hopening : Opening s ⟨none, none, w.released⟩ (Untouched ⟨none, none, w.released⟩)
        (.start input (freshState (m.defaultTunSourceGeneration + 1) t) t none false)
        (w.take (.tun t)) :=
      ⟨hleft.take (fun _ hr => absurd hr not_false) (.inl rfl),
        ⟨Finset.mem_insert_self _ _, fun _ => rfl, nofun, .inr ⟨rfl, rfl⟩, rfl⟩,
        untouched_start (d := freshState (m.defaultTunSourceGeneration + 1) t) nofun rfl,
        nofun, rfl, rfl⟩
    exact wp_post (fun out w' hend hstuck =>
      callEnd_of_buildEnd hend (by rw [hnone]; rfl) hstuck) (buildEnd_buildOn hopening _)
  · rename_i d hsome
    have hholds : Holds s d w := by simpa only [AtRest, hsome] using h
    rw [wp_bind]
    refine wp_post (fun r w' hr => ?_) (resources_prepareDefaultTunLink hholds input)
    cases r with
    | error errs => exact fun hstuck => callEnd_stays (by simp) (hr hstuck)
    | ok l =>
      exact wp_post (fun out w'' hend hstuck => callEnd_of_buildEnd hend (by rw [hsome]; rfl)
        hstuck)
        (buildEnd_buildOn hr m)

end Builds

/-! ## Histories -/

/-- A build that succeeds, with no release stuck. -/
def Succeeded (s : HostSettings) (x y : Memory × Holdings Resource) : Prop :=
  ∃ opts activeName tr, y.2.stuck = ∅ ∧
    Exec holding (s.buildDefaultTun x.1 opts activeName) x.2 tr (y.1, none) y.2

theorem atRest_succeeded {s : HostSettings} {x : Memory × Holdings Resource}
    (h : Relation.ReflTransGen (Succeeded s) (.initial, .empty) x) : AtRest s x.1 x.2 := by
  induction h with
  | refl => rfl
  | @tail y z _ hlast ih =>
    obtain ⟨opts, activeName, tr, hstuck, hex⟩ := hlast
    obtain ⟨d, hd, hholds, -⟩ :=
      (wp_sound hex (callEnd_buildDefaultTun ih opts activeName)).2 hstuck
    show AtRest s z.1 z.2
    rw [AtRest, show z.1.defaultTun = some d from hd]
    exact hholds

/-- A build on a state that earlier successful builds have reached, whatever calls of it fail, as
    long as every release that fails is made again with success.  If a stage fails, no default TUN
    is active and nothing is held; if the preparation of the link fails, the default TUN and what is
    held are as before; and if it succeeds, the releases are those of the TUN and the server that
    were replaced, and what is held is what the new state holds. -/
theorem build_releases (s : HostSettings) {x : Memory × Holdings Resource}
    (hx : Relation.ReflTransGen (Succeeded s) (.initial, .empty) x) {opts : DefaultTunOpts}
    {activeName : String} {tr : List (Event HostCall (Holdings Resource))} {m : Memory}
    {err : Option Failure} {w : Holdings Resource}
    (hex : Exec holding (s.buildDefaultTun x.1 opts activeName) x.2 tr (m, err) w)
    (hreleases : w.stuck = ∅) :
    (∀ errs, err = some (.build errs) → m.defaultTun = none ∧ w.held = ∅) ∧
      (∀ errs, err = some (.prepare errs) → m = x.1 ∧ w.held = x.2.held) ∧
      (err = none → ∃ d, m.defaultTun = some d ∧ (∀ r ∈ w.held, HeldBy s d r) ∧
        w.released = x.2.released ∪ replaced .tun (x.1.defaultTun.bind (·.tun)) d.tun ∪
          replaced .server (x.1.defaultTun.bind (·.server)) d.server) := by
  have hend := (wp_sound hex
    (callEnd_buildDefaultTun (atRest_succeeded hx) opts activeName)).2 hreleases
  refine ⟨?_, ?_, ?_⟩
  · rintro errs rfl
    exact hend
  · rintro errs rfl
    exact hend
  · rintro rfl
    obtain ⟨d, hd, hholds, hlog⟩ := hend
    exact ⟨d, hd, hholds.left.all hreleases, hlog⟩

/-! ## Runs on fixed inputs -/

/-- The number that a resource was given out with. -/
def Resource.number : Resource → Nat
  | .tun t => t.id
  | .server srv => srv.conn
  | .ruleset id => id
  | _ => 0

/-- A number behind all that were given out. -/
def nextNumber (w : Holdings Resource) : Nat := (w.held ∪ w.released).sup Resource.number + 1

theorem new_of_number {w : Holdings Resource} (h : r.number = nextNumber w) : w.New r := by
  have hbound : ∀ r' ∈ w.held ∪ w.released, r' ≠ r := by
    rintro r' hr' rfl
    have hle := Finset.le_sup (f := Resource.number) hr'
    unfold nextNumber at h
    omega
  exact ⟨fun hr => hbound r (Finset.mem_union_left _ hr) rfl,
    fun hr => hbound r (Finset.mem_union_right _ hr) rfl⟩

/-- A call is answered well or fails. -/
def heldAnswer (c : HostCall) (fails : Bool) (w : Holdings Resource) :
    Except CallError (HostReply c) × Holdings Resource :=
  match fails with
  | false => (.ok (c.goodReply (nextNumber w)), c.answered (c.goodReply (nextNumber w)) w)
  | true => (.error (.tun "fault"), c.refused (.tun "fault") w)

theorem holding_heldAnswer (c : HostCall) (fails : Bool) (w : Holdings Resource) :
    holding c w (heldAnswer c fails w).1 (heldAnswer c fails w).2 := by
  cases fails with
  | true => exact rfl
  | false =>
    refine ⟨?_, rfl⟩
    cases c with
    | createTUN | packetListen => exact new_of_number rfl
    | createTMPRuleset => exact ⟨Nat.succ_ne_zero _, new_of_number rfl⟩
    | tunIndex => exact (by decide : (0 : Int) < 10)
    | _ => trivial

/-- A build in which the calls go as the list says. -/
def heldBuild (x : Memory × Holdings Resource) (fails : List Bool) :
    List (Event HostCall (Holdings Resource)) × HostOutcome × Holdings Resource :=
  play heldAnswer false (sampleHost.buildDefaultTun x.1 dualOpts "") fails x.2

theorem exec_heldBuild (x : Memory × Holdings Resource) (fails : List Bool) :
    Exec holding (sampleHost.buildDefaultTun x.1 dualOpts "") x.2 (heldBuild x fails).1
      ((heldBuild x fails).2.1.1, (heldBuild x fails).2.1.2) (heldBuild x fails).2.2 :=
  play_exec holding_heldAnswer _ fails x.2

/-- The host behind a first build. -/
def heldFirst : Memory × Holdings Resource :=
  ((heldBuild (.initial, .empty) []).2.1.1, (heldBuild (.initial, .empty) []).2.2)

theorem succeeded_heldFirst :
    Relation.ReflTransGen (Succeeded sampleHost) (.initial, .empty) heldFirst := by
  have hnil : (heldBuild (.initial, .empty) []).2.1.2 = none := by decide +kernel
  have hexec := exec_heldBuild (.initial, .empty) []
  rw [hnil] at hexec
  exact .single ⟨dualOpts, "", _, by decide +kernel, hexec⟩

/-- The TUN is gone, and the build on a new one fails at its last stage. -/
def heldFails : List Bool := true :: List.replicate 15 false ++ [true]

theorem build_releases_recreated :
    heldFirst.2.held ≠ ∅ ∧ (heldBuild heldFirst heldFails).2.1.2 ≠ none ∧
      (heldBuild heldFirst heldFails).2.1.1.defaultTun = none ∧
      (heldBuild heldFirst heldFails).2.2.held = ∅ := by
  have herr : (heldBuild heldFirst heldFails).2.1.2 =
      some (.build [.call (.tun "fault")]) := by decide +kernel
  refine ⟨by decide +kernel, by rw [herr]; exact nofun, ?_⟩
  exact (build_releases sampleHost succeeded_heldFirst (exec_heldBuild heldFirst heldFails)
    (by decide +kernel)).1 _ herr

end SysnetLinux.DefaultTun
