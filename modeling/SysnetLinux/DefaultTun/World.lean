/-
  SysnetLinux.DefaultTun.World

  What the calls of an update act on, at two levels.

  - `contract` is what an update may rely on: the link of the TUN and the applied routing config.
    A failed call of the configurator may have had any part of its effect.
  - `live` has the routing manager itself over the kernel, whose adapter calls can fail one by
    one; it keeps the contract (`live_contract`).
-/

import SysnetLinux.DefaultTun.Update
import SysnetLinux.Routing.Runs

namespace SysnetLinux.DefaultTun

open Netip Routing CallProg CallProg.Prog List

/-! ## The contract -/

/-- The link of the TUN, and the config the routing manager has applied. -/
@[ext] structure Link where
  addrs : Finset Prefix
  routes : Finset Prefix
  applied : Option Config
  deriving DecidableEq

def contract : Handler SystemCall SystemReply CallError Link
  | .getTunAddrs, w, .ok addrs, w' => List.toFinset addrs = w.addrs ∧ w' = w
  | .getTunAddrs, w, .error _, w' => w' = w
  | .getTunRoutes, w, .ok routes, w' => List.toFinset routes = w.routes ∧ w' = w
  | .getTunRoutes, w, .error _, w' => w' = w
  | .setTunAddrs addrs, w, .ok _, w' => w'.addrs = addrs.toFinset ∧ w'.applied = w.applied
  | .setTunAddrs _, w, .error _, w' => w'.applied = w.applied
  | .addTunAddr addr, w, .ok _, w' => w'.addrs = insert addr w.addrs ∧ w'.applied = w.applied
  | .addTunAddr _, w, .error _, w' => w'.applied = w.applied
  | .setTunRoutes routes, w, .ok _, w' => w' = { w with routes := routes.toFinset }
  | .setTunRoutes _, w, .error _, w' => w'.addrs = w.addrs ∧ w'.applied = w.applied
  | .apply config, w, .ok _, w' => w' = { w with applied := some config }
  | .apply _, w, .error _, w' => w' = w
  | .rollback _, w, .ok _, w' => w' = { w with applied := none }
  | .rollback _, w, .error _, w' => w' = w

/-! ## The live world -/

/-- The kernel with the link `tun`, the routing manager, and the kernel states
    passed so far, each with whether an adapter call issued in it failed. -/
structure Live where
  tun : Int
  addrs : List Prefix
  kernel : Kernel
  manager : Manager
  passed : List (Kernel × Bool)

namespace Live

/-- The routes of the link in the main table. -/
def onLink (w : Live) (a : Route) : Bool := a.table == rtTableMain && a.linkIndex == w.tun

/-- The destinations of the routes of the link in the main table. -/
def mainRoutes (w : Live) : List Prefix := (w.kernel.routes.filter w.onLink).map Route.dst

def link (w : Live) : Link where
  addrs := w.addrs.toFinset
  routes := w.mainRoutes.toFinset
  applied := w.manager.applied.map DesiredState.config

/-- The world after an operation of the manager. -/
def after (w : Live) (tr : List (Event AdapterCall Kernel)) (m : Manager) (k : Kernel) : Live :=
  { w with
    kernel := k
    manager := m
    passed := w.passed ++ tr.map (fun ev => (ev.before, ev.failed)) ++ [(k, false)] }

/-- The configurator keeps the contract and leaves the rules and the manager. -/
structure Configured (c : SystemCall) (w : Live) (r : Except CallError (SystemReply c))
    (w' : Live) : Prop where
  keeps : contract c w.link r w'.link
  tun : w'.tun = w.tun
  rules : w'.kernel.rules = w.kernel.rules
  manager : w'.manager = w.manager
  passed : w'.passed = w.passed ++ [(w'.kernel, false)]

end Live

/-- The error of an operation as an answer. -/
def replyOf : Option RoutingError → Except CallError Unit
  | none => .ok ()
  | some e => .error (.routing e)

/-- An operation of the manager, answered by the error it returns. -/
def Managed (p : AdapterProg Outcome) (w : Live) (r : Except CallError Unit) (w' : Live) : Prop :=
  ∃ tr out k, Exec adapter p w.kernel tr out k ∧ w' = w.after tr out.1 k ∧ r = replyOf out.2

def live : Handler SystemCall SystemReply CallError Live
  | .apply config, w, r, w' => Managed (w.manager.apply config) w r w'
  | .rollback config, w, r, w' => Managed (w.manager.rollback config) w r w'
  | c, w, r, w' => Live.Configured c w r w'

/-! ## The live world keeps the contract -/

section Managed

variable {w w' : Live} {r : Except CallError Unit}

/-- An operation leaves the link as it is. -/
theorem link_after {op : Operation} (hm : w.manager.Good) (hop : op.Valid)
    {tr : List (Event AdapterCall Kernel)} {out : Outcome} {k : Kernel}
    (hex : Exec adapter (w.manager.perform op) w.kernel tr out k) :
    (w.after tr out.1 k).link =
      { w.link with applied := out.1.applied.map DesiredState.config } := by
  have hsame := (performed_of_exec hm hop hex).passes.sameOutside hm hop
  have hvalid : ∀ c ∈ op.configs ++ w.manager.appliedConfigs, c.Valid := by
    intro c hc
    rcases mem_append.mp hc with hc | hc
    · cases op <;> simp only [Operation.configs, mem_singleton, not_mem_nil] at hc
      all_goals exact hc ▸ hop
    · exact hm.appliedConfigs_valid hc
  have hroutes : k.routes.filter w.onLink = w.kernel.routes.filter w.onLink := by
    refine hsame.filter_main hvalid fun a ha => ?_
    simp only [Live.onLink, Bool.and_eq_true, beq_iff_eq] at ha
    exact ha.1
  show Link.mk w.addrs.toFinset ((k.routes.filter w.onLink).map Route.dst).toFinset _ = _
  rw [hroutes]
  rfl

theorem managed_refused {p : AdapterProg Outcome} {e : RoutingError}
    (hp : p = .ret (w.manager, some e)) (h : Managed p w r w') :
    r = .error (.routing e) ∧ w' = w.after [] w.manager w.kernel := by
  obtain ⟨tr, out, k, hex, rfl, hr⟩ := h
  rw [hp] at hex
  obtain ⟨rfl, rfl, rfl⟩ := exec_ret_iff.mp hex
  exact ⟨hr, rfl⟩

/-- An operation that fails, or that the manager refuses, changes nothing of the link; one that
    returns nil sets what is applied. -/
theorem managed_operation {op : Operation} {config : Config} {n : Option Config}
    (hm : w.manager.Good) (hvalid : config.validate = .ok () → op.Valid)
    (hrefused : config.validate ≠ .ok () → ∃ e, w.manager.perform op = .ret (w.manager, some e) ∧
      guardActive (some e) = false)
    (hnil : op.Valid → ∀ tr m k, Exec adapter (w.manager.perform op) w.kernel tr (m, none) k →
      m.applied.map DesiredState.config = n)
    (h : Managed (w.manager.perform op) w r w') :
    ((∃ e, r = .error e ∧ w'.link = w.link) ∨
      (r = .ok () ∧ w'.link = { w.link with applied := n })) ∧ w'.manager.Good := by
  by_cases hv : config.validate = .ok ()
  case neg =>
    obtain ⟨e, he, -⟩ := hrefused hv
    obtain ⟨rfl, rfl⟩ := managed_refused he h
    exact ⟨.inl ⟨_, rfl, rfl⟩, hm⟩
  obtain ⟨tr, out, k, hex, rfl, hr⟩ := h
  have hop := hvalid hv
  have hperf := performed_of_exec hm hop hex
  refine ⟨?_, hperf.good hm hop⟩
  rw [link_after hm hop hex]
  cases hout : out.2 with
  | some e =>
    rw [hout] at hr
    rw [hperf.unchanged (by simp [hout])]
    exact .inl ⟨.routing e, hr, rfl⟩
  | none =>
    have hpair : out = (out.1, none) := Prod.ext rfl hout
    rw [hout] at hr
    rw [hpair] at hex
    rw [hnil hop tr out.1 k hex]
    exact .inr ⟨hr, rfl⟩

theorem managed_apply (hm : w.manager.Good) {config : Config} (hfits : config.Fits)
    (h : Managed (w.manager.apply config) w r w') :
    contract (.apply config) w.link r w'.link ∧ w'.manager.Good := by
  obtain ⟨⟨e, rfl, hlink⟩ | ⟨rfl, hlink⟩, hgood⟩ :=
    managed_operation (n := some config) hm
      (fun hv => show (Operation.apply config).Valid from ⟨hv, hfits⟩)
      (fun hv => Manager.apply_refused config (.inr hv))
      (fun hop tr m k hex => by rw [(apply_done hm hop hex).1]; rfl) h
  · exact ⟨hlink, hgood⟩
  · exact ⟨hlink, hgood⟩

theorem managed_rollback (hm : w.manager.Good) {config : Config} (hfits : config.Fits)
    (h : Managed (w.manager.rollback config) w r w') :
    contract (.rollback config) w.link r w'.link ∧ w'.manager.Good := by
  obtain ⟨⟨e, rfl, hlink⟩ | ⟨rfl, hlink⟩, hgood⟩ :=
    managed_operation (n := none) hm (fun hv => show (Operation.rollback config).Valid from ⟨hv, hfits⟩)
      (fun hv => Manager.rollback_refused config (.inr hv))
      (fun hop tr m k hex => by rw [(rollback_done hm hop hex).1]; rfl) h
  · exact ⟨hlink, hgood⟩
  · exact ⟨hlink, hgood⟩

end Managed

/-- One call of the live world is one call under the contract. -/
theorem live_contract {c : SystemCall} {w w' : Live} {r : Except CallError (SystemReply c)}
    (hfits : c.Carries Config.Fits) (hm : w.manager.Good) (h : live c w r w') :
    contract c w.link r w'.link ∧ w'.manager.Good := by
  have hconfigured : Live.Configured c w r w' → contract c w.link r w'.link ∧ w'.manager.Good :=
    fun h => ⟨h.keeps, h.manager ▸ hm⟩
  cases c with
  | apply config => exact managed_apply hm hfits h
  | rollback config => exact managed_rollback hm hfits h
  | _ => exact hconfigured h

/-! ## A scripted live world -/

/-- How one call goes: a call of the configurator fails if there is a text, without
    an effect; an operation of the manager meets the faults. -/
structure Answer where
  fails : Option String
  faults : List (Option AdapterError)

def Answer.ok : Answer := ⟨none, []⟩

namespace Live

/-- The world after a call of the configurator. -/
def configured (w : Live) (addrs : List Prefix) (k : Kernel) : Live :=
  { w with addrs := addrs, kernel := k, passed := w.passed ++ [(k, false)] }

/-- The route that `SetTunRoutes` adds for a destination. -/
def linkRoute (w : Live) (dst : Prefix) : Route where
  family := if dst.addr.is4 then afInet else afInet6
  table := rtTableMain
  dst := dst
  gateway := .zero
  preferredSource := .zero
  linkIndex := w.tun
  priority := 0
  scope := 0
  flags := 0
  type := .unicast
  multipath := []

/-- The kernel with the given routes of the link in the main table. -/
def withMainRoutes (w : Live) (routes : List Prefix) : Kernel :=
  (w.kernel.without noRule w.onLink).replaceRoutes (routes.map w.linkRoute)

def operation (w : Live) (p : AdapterProg Outcome) (a : Answer) : Except CallError Unit × Live :=
  let result := run Kernel.act p a.faults w.kernel
  (replyOf result.2.1.2, w.after result.1 result.2.1.1 result.2.2)

def answer : (c : SystemCall) → Answer → Live → Except CallError (SystemReply c) × Live
  | .apply config, a, w => w.operation (w.manager.apply config) a
  | .rollback config, a, w => w.operation (w.manager.rollback config) a
  | .getTunAddrs, ⟨none, _⟩, w => (.ok w.addrs, w.configured w.addrs w.kernel)
  | .getTunRoutes, ⟨none, _⟩, w => (.ok w.mainRoutes, w.configured w.addrs w.kernel)
  | .setTunAddrs addrs, ⟨none, _⟩, w => (.ok (), w.configured addrs w.kernel)
  | .addTunAddr addr, ⟨none, _⟩, w => (.ok (), w.configured (addr :: w.addrs) w.kernel)
  | .setTunRoutes routes, ⟨none, _⟩, w =>
    (.ok (), w.configured w.addrs (w.withMainRoutes routes))
  | .getTunAddrs, ⟨some text, _⟩, w => (.error (.tun text), w.configured w.addrs w.kernel)
  | .getTunRoutes, ⟨some text, _⟩, w => (.error (.tun text), w.configured w.addrs w.kernel)
  | .setTunAddrs _, ⟨some text, _⟩, w => (.error (.tun text), w.configured w.addrs w.kernel)
  | .addTunAddr _, ⟨some text, _⟩, w => (.error (.tun text), w.configured w.addrs w.kernel)
  | .setTunRoutes _, ⟨some text, _⟩, w => (.error (.tun text), w.configured w.addrs w.kernel)

theorem link_withMainRoutes (w : Live) (routes : List Prefix) :
    (w.configured w.addrs (w.withMainRoutes routes)).link =
      { w.link with routes := routes.toFinset } := by
  refine Link.ext rfl ?_ rfl
  ext dst
  simp only [link, mainRoutes, configured, withMainRoutes, mem_toFinset, mem_map,
    mem_filter, Kernel.mem_replaceRoutes, Kernel.without_routes]
  constructor
  · rintro ⟨a, ⟨⟨d, hd, rfl⟩ | ⟨-, hoff⟩, hon⟩, rfl⟩
    · exact hd
    · -- the routes of the link from before are gone
      have hon' : w.onLink a = true := hon
      rw [hon'] at hoff
      cases hoff
  · intro hdst
    exact ⟨w.linkRoute dst, ⟨.inl ⟨dst, hdst, rfl⟩, by simp [onLink, linkRoute]⟩, rfl⟩

theorem managed_run (w : Live) (p : AdapterProg Outcome) (a : Answer) :
    Managed p w (w.operation p a).1 (w.operation p a).2 :=
  ⟨_, _, _, run_exec Kernel.act p a.faults w.kernel, rfl, rfl⟩

theorem live_answer (c : SystemCall) (a : Answer) (w : Live) :
    live c w (answer c a w).1 (answer c a w).2 := by
  have hkernel : (w.configured w.addrs w.kernel).link = w.link := rfl
  obtain ⟨fails, faults⟩ := a
  cases c with
  | apply config | rollback config => exact managed_run w _ _
  | setTunRoutes routes =>
    cases fails with
    | none =>
      refine ⟨w.link_withMainRoutes routes, rfl, ?_, rfl, rfl⟩
      simp [answer, configured, withMainRoutes, noRule]
    | some text => exact ⟨⟨rfl, rfl⟩, rfl, rfl, rfl, rfl⟩
  | addTunAddr addr =>
    cases fails with
    | none => exact ⟨⟨by simp [answer, configured, link], rfl⟩, rfl, rfl, rfl, rfl⟩
    | some text => exact ⟨rfl, rfl, rfl, rfl, rfl⟩
  | _ =>
    cases fails with
    | none => exact ⟨⟨rfl, rfl⟩, rfl, rfl, rfl, rfl⟩
    | some text => exact ⟨rfl, rfl, rfl, rfl, rfl⟩

end Live

/-- An update under a script. -/
def System.play (s : System) (state : TunState) (u : Update) (script : List Answer) (w : Live) :
    List (Event SystemCall Live) × UpdateOutcome × Live :=
  Prog.play Live.answer Answer.ok (s.update state u) script w

theorem System.play_exec (s : System) (state : TunState) (u : Update) (script : List Answer)
    (w : Live) :
    Exec live (s.update state u) w (s.play state u script w).1 (s.play state u script w).2.1
      (s.play state u script w).2.2 :=
  Prog.play_exec Live.live_answer _ _ _

/-- A fallback address, and no missing capability. -/
def sampleSystem : System := ⟨some (.ok (Prefix.ofV4 0x0afa0001#32 24)), fun _ _ => none⟩

/-- The config of a strict default TUN that carries IPv4. -/
def builtConfig : Config :=
  setDefaultTunRoutingFamilies sampleConfig [Prefix.ofV4 0x0afa0001#32 24] []

theorem builtConfig_valid : builtConfig.Valid := ⟨rfl, by decide⟩

def builtState : TunState :=
  ⟨.v4 0x0afa0001#32, [Prefix.ofV4 0x0afa0001#32 24], [], some builtConfig⟩

/-- The world after a default TUN was built on a host. -/
def builtWorld (host : Kernel) : Live :=
  let result := run Kernel.act (freshManager.apply builtConfig) [] host
  ⟨10, [Prefix.ofV4 0x0afa0001#32 24], result.2.2, result.2.1.1, []⟩

theorem builtWorld_good (host : Kernel) : (builtWorld host).manager.Good := by
  have hop : (Operation.apply builtConfig).Valid := builtConfig_valid
  have hex := run_exec Kernel.act (freshManager.perform (.apply builtConfig)) [] host
  exact (performed_of_exec freshManager_good hop hex).good freshManager_good hop

/-- A route of the other family. -/
def routeV6 : Update := .setTunRoutes [.ok (Prefix.ofV6 0xfd000000000000000000000000000000#128 64)]

/-- An `Apply` or `Rollback` whose first adapter call fails. -/
def Answer.broken : Answer := ⟨none, [some (.other "busy")]⟩

/-- One fault: `Apply` fails, the compensation succeeds. -/
def singleFault (w : Live) : List (Event SystemCall Live) × UpdateOutcome × Live :=
  sampleSystem.play builtState routeV6 [.ok, .ok, .broken] w

end SysnetLinux.DefaultTun
