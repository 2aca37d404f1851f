/-
  SysnetLinux.DefaultTun.Representation

  The representation invariant of the default TUN: between calls, whatever call has failed, the
  recorded addresses, routes and routing config agree (`BuiltFrom`), and the DNS server has the
  recorded resolver attached.

  For the second part the world is the DNS servers with their resolvers; `Handing` is what a build
  keeps of them while it hands the resolver over.
-/

import SysnetLinux.DefaultTun.Built
import SysnetLinux.DefaultTun.Stages

namespace SysnetLinux.DefaultTun

open Netip Routing CallProg CallProg.Prog

/-! ## DNS servers -/

/-- The DNS servers: connections below `made` have been given out. -/
structure DnsServers where
  made : Nat
  attached : Server → Option Resolver

def DnsServers.set (w : DnsServers) (server : Server) (resolver : Option Resolver) :
    DnsServers :=
  { w with attached := Function.update w.attached server resolver }

/-- A new server has a connection of its own and no resolver, and an index is positive.
    Any call may fail, with any answer otherwise. -/
def serving : Handler HostCall HostReply CallError DnsServers
  | .packetListen _ _, w, .ok server, w' =>
    w.made ≤ Server.conn server ∧ w' = { w.set server none with made := Server.conn server + 1 }
  | .packetListen _ _, w, .error _, w' => w' = w
  | .attach server resolver, w, _, w' => w' = w.set server (some resolver)
  | .detach server, w, _, w' => w' = w.set server none
  | .tunIndex _, w, .ok index, w' => (0 : Int) < index ∧ w' = w
  | _, w, _, w' => w' = w

theorem serving_spares (kind : CallKind) (h : (kind != .server) = true) : Spares serving kind := by
  rintro c rfl w r w' hr
  cases c with
  | packetListen | attach | detach | closeServer => cases h
  | tunIndex t =>
    cases r with
    | ok index => exact hr.2
    | error e => exact hr
  | _ => exact hr

@[simp] theorem DnsServers.set_attached_self (w : DnsServers) (server : Server)
    (resolver : Option Resolver) : (w.set server resolver).attached server = resolver :=
  Function.update_self ..

variable {w : DnsServers}

/-! ## The invariant -/

/-- The server of a default TUN has this resolver attached. -/
def Serves (w : DnsServers) (server : Server) (resolver : Option Resolver) : Prop :=
  server.conn < w.made ∧ w.attached server = resolver

/-- What every operation keeps. -/
structure Kept (s : Settings) (w : DnsServers) (d : DefaultTunState) : Prop where
  built : ∃ opts index, 0 < index ∧ BuiltFrom s opts index d.toTunState
  served : ∃ server, d.server = some server ∧ Serves w server d.resolver

/-- Releasing another server changes nothing. -/
theorem Serves.detach {server server' : Server} {resolver : Option Resolver}
    (h : Serves w server resolver) (hne : server ≠ server') :
    Serves (w.set server' none) server resolver :=
  ⟨h.1, (Function.update_of_ne hne ..).trans h.2⟩

/-! ## A build -/

/-- While a build hands the resolver over: a server it has serves the resolver, and a
    server that replaces the old one is another. -/
structure Handing (input : BuildInput) (resolver : Option Resolver) (l : Build)
    (w : DnsServers) : Prop where
  input_eq : l.input = input
  resolver_eq : l.state.resolver = resolver
  serves : ∀ server, l.server = some server → Serves w server resolver
  made : ∀ old, l.oldServer = some old → old.conn < w.made
  apart : l.serverReplaced = true → l.oldServer ≠ l.server

/-- Behind the choice of the server there is one. -/
structure Handed (input : BuildInput) (resolver : Option Resolver) (l : Build)
    (w : DnsServers) : Prop extends Handing input resolver l w where
  some : l.server.isSome = true

section Build

variable {s : HostSettings} {input : BuildInput} {resolver : Option Resolver}
  {F : Build × List HostError → DnsServers → Prop}

variable {w : DnsServers} {l : Build}

theorem serving_closeServer {server : Server} {Q : List HostError → DnsServers → Prop}
    (h : ∀ errs, Q errs (w.set server none)) :
    wp serving Any Q (closeServer server) w := by
  refine wp_collect_cons ⟨trivial, fun r w' hr => ?_⟩
  obtain rfl : w' = w.set server none := hr
  refine wp_collect_cons ⟨trivial, fun r w' hr => ?_⟩
  obtain rfl : w' = w.set server none := hr
  cases r with
  | ok v | error e => exact h _

theorem handing_closeOldServer : Stage serving Any
      (fun l w => Handing input resolver l w ∧ l.serverReplaced = false) closeOldServer
      (fun l w => Handing input resolver l w ∧ l.serverReplaced = false)
      (fun _ _ => True) := by
  rintro l w ⟨h, hkept⟩
  unfold closeOldServer
  split
  · split
    · rw [wp_bind]
      refine serving_closeServer fun errs => ?_
      cases errs with
      | nil =>
        refine ⟨⟨h.input_eq, h.resolver_eq, fun _ hs => absurd hs nofun, fun _ hs => absurd hs nofun,
          fun hr => ?_⟩, hkept⟩
        exact absurd hr (by simp [hkept])
      | cons e errs => exact trivial
    · exact ⟨h, hkept⟩
  · exact ⟨h, hkept⟩

theorem handing_listenDNS : Stage serving Any
      (fun l w => Handing input resolver l w ∧ l.serverReplaced = false) listenDNS
      (Handed input resolver) (fun _ _ => True) := by
  rintro l w ⟨h, hkept⟩
  unfold listenDNS
  split
  · refine ⟨trivial, fun r w' hr => ?_⟩
    cases r with
    | error e => exact trivial
    | ok server =>
      obtain ⟨hnew, rfl⟩ := hr
      -- The connection is new, so the old server keeps what it has.
      have hresolver : l.state.resolver = resolver := h.resolver_eq
      have hafter : ∀ w'' : DnsServers, w''.made = server.conn + 1 →
          w''.attached server = resolver →
          Handed input resolver { l with server := some server, serverReplaced := true } w'' := by
        intro w'' hmade hattached
        refine ⟨⟨h.input_eq, hresolver, ?_, ?_, ?_⟩, rfl⟩
        · intro server' hs
          obtain rfl := Option.some.inj hs
          exact ⟨by omega, hattached⟩
        · intro old hold
          have := h.made old hold
          omega
        · intro _ hsame
          have := h.made server hsame
          omega
      simp only
      rw [wp_bind]
      cases hold : l.state.resolver with
      | none =>
        refine hafter _ rfl ?_
        rw [← hresolver, hold]
        exact DnsServers.set_attached_self ..
      | some old =>
        refine ⟨trivial, fun r w' hr => ?_⟩
        obtain rfl := hr
        refine hafter _ rfl ?_
        rw [← hresolver, hold]
        exact DnsServers.set_attached_self ..
  · rename_i hstay
    refine ⟨h, ?_⟩
    simp only [Bool.or_eq_true, not_or, Option.isNone_iff_eq_none] at hstay
    exact Option.isSome_iff_ne_none.mpr hstay.1.1

theorem handed_of_eq {l' : Build} (h : Handed input resolver l w) (hinput : l'.input = l.input)
    (hresolver : l'.state.resolver = l.state.resolver) (hserver : l'.server = l.server)
    (hold : l'.oldServer = l.oldServer) (hreplaced : l'.serverReplaced = l.serverReplaced) :
    Handed input resolver l' w where
  input_eq := hinput.trans h.input_eq
  resolver_eq := hresolver.trans h.resolver_eq
  serves := hserver ▸ h.serves
  made := hold ▸ h.made
  apart := by rw [hreplaced, hold, hserver]; exact h.apart
  some := hserver ▸ h.some

theorem handing_stages : Stage serving Any
      (fun l w => Handing input resolver l w ∧ l.serverReplaced = false) (inTurn s.stages)
      (fun l w => Handed input resolver l w ∧ 0 < l.index) (fun _ _ => True) := by
  have hspares := serving_spares
  refine Stage.cons (fun l w h => idle_step (hspares .link rfl _ rfl) h fun _ => trivial) ?_
  refine Stage.cons (fun l w h => idle_step (hspares .link rfl _ rfl) h fun _ => trivial) ?_
  refine Stage.cons (fun l w h => idle_step (hspares .link rfl _ rfl) h fun _ => trivial) ?_
  refine Stage.cons handing_closeOldServer (Stage.cons handing_listenDNS ?_)
  refine Stage.cons (Q := Handed input resolver) (fun l w h => ?_) ?_
  · exact idle_compileRules (hspares .rules rfl)
      (fun _ _ _ _ => handed_of_eq h rfl rfl rfl rfl rfl) (fun _ => h) fun _ => trivial
  refine Stage.cons (Q := Handed input resolver) (fun l w h => ?_) ?_
  · exact idle_installChecker (hspares .checker rfl) h
      (fun _ => handed_of_eq h rfl rfl rfl rfl rfl) (fun _ => trivial) fun _ => trivial
  refine Stage.cons (Q := fun l w => Handed input resolver l w ∧ 0 < l.index) (fun l w h => ?_) ?_
  · refine ⟨trivial, fun r w' hr => ?_⟩
    cases r with
    | error e => exact trivial
    | ok index =>
      obtain ⟨hpos, rfl⟩ := hr
      exact ⟨handed_of_eq h rfl rfl rfl rfl rfl, hpos⟩
  refine Stage.cons (Q := fun l w => Handed input resolver l w ∧ 0 < l.index) (fun l w h => ?_) ?_
  · exact idle_setDefaultTunDNSInterface (hspares .dnsIndex rfl) h
      ⟨handed_of_eq h.1 rfl rfl rfl rfl rfl, h.2⟩ fun _ => trivial
  refine Stage.cons (Q := fun l w => Handed input resolver l w ∧ 0 < l.index) (fun l w h => ?_) ?_
  · exact idle_applyRouting (hspares .routing rfl)
      ⟨handed_of_eq h.1 rfl rfl rfl rfl rfl, h.2⟩ fun _ => trivial
  refine Stage.cons (Q := fun l w => Handed input resolver l w ∧ 0 < l.index) (fun l w h => ?_) ?_
  · exact idle_applyConnmark (hspares .connmark rfl)
      (fun _ _ => ⟨handed_of_eq h.1 rfl rfl rfl rfl rfl, h.2⟩) fun _ => trivial
  refine Stage.cons (fun l w h => idle_step (hspares .dns rfl _ rfl) h fun _ => trivial) ?_
  refine Stage.cons (Q := fun l w => Handed input resolver l w ∧ 0 < l.index) (fun l w h => ?_) ?_
  · exact idle_updateKillswitch (hspares .killswitch rfl) h
      (fun _ => ⟨handed_of_eq h.1 rfl rfl rfl rfl rfl, h.2⟩) fun _ => trivial
  exact Stage.nil

/-- Releasing what was replaced leaves the server alone. -/
theorem serving_releaseReplaced {server : Server} (h : Handed input resolver l w)
    (hserver : l.server = some server) :
    wp serving Any (fun _ w' => Serves w' server resolver) (s.releaseReplaced l) w := by
  have hserves := h.serves server hserver
  refine wp_collect_idle (issues_onlyIf (issues_quietly (serving_spares .registry rfl _ rfl)))
    fun _ => wp_collect_idle (issues_onlyIf (issues_ofSome fun _ _ =>
      issues_quietly (serving_spares .tun rfl _ rfl)))
    fun _ => wp_collect_idle (issues_unregisterRules s (serving_spares .rules rfl) _)
    fun _ => wp_collect_cons ?_
  cases hreplaced : l.serverReplaced with
  | false => exact hserves
  | true =>
    cases hold : l.oldServer with
    | none => exact hserves
    | some old =>
      refine serving_closeServer fun errs => hserves.detach ?_
      rintro rfl
      exact h.apart hreplaced (hold.trans hserver.symm)

theorem kept_buildOn {m : Memory} (hinput : input.Checked s.toSettings)
    (h : Handing input resolver l w) (hkept : l.serverReplaced = false) :
    wp serving Any (fun out w' => ∀ d, out.1.defaultTun = some d → Kept s.toSettings w' d)
      (s.buildOn m l) w := by
  unfold HostSettings.buildOn
  rw [wp_bind]
  refine wp_post (fun r w' hr => ?_) (handing_stages (s := s) l w ⟨h, hkept⟩)
  cases r with
  | error failed =>
    simp only
    rw [wp_bind]
    exact wp_of_forall (fun _ _ d hd => absurd hd nofun) _ _
  | ok l' =>
    obtain ⟨hhanded, hindex⟩ := hr
    obtain ⟨server, hserver⟩ := Option.isSome_iff_exists.mp hhanded.some
    simp only
    rw [wp_bind]
    refine wp_post (fun _ w'' hserves d hd => ?_) (serving_releaseReplaced hhanded hserver)
    obtain rfl := Option.some.inj hd
    refine ⟨⟨l'.input.opts, l'.index, hindex, ?_⟩, server, hserver, ?_⟩
    · exact built_of_input (hhanded.input_eq ▸ hinput) l'.index
    · exact hhanded.resolver_eq ▸ hserves

end Build

/-! ## The other operations -/

/-- The texts that an operation is given parse to valid prefixes, if they parse. -/
def HostOp.Parsed : HostOp → Prop
  | .update _ u => u.Parsed
  | _ => True

section Operations

variable {s : HostSettings} {m : Memory} {w : DnsServers}

section

variable (h : ∀ d, m.defaultTun = some d → Kept s.toSettings w d)
include h

theorem kept_setDNS (handle : Nat) (resolver : Option Resolver) : wp serving Any
      (fun out w' => ∀ d, out.1.defaultTun = some d → Kept s.toSettings w' d)
      (m.setDNS handle resolver) w := by
  unfold Memory.setDNS
  split
  · exact h
  rename_i d howned
  obtain ⟨hd, -⟩ := Memory.owned_some howned
  split
  · exact h
  split
  · exact h
  rename_i server hserver
  obtain ⟨hbuilt, server', hserver', hserves⟩ := h d hd
  obtain rfl := Option.some.inj (hserver.symm.trans hserver')
  rw [wp_bind]
  cases resolver with
  | none | some resolver =>
    refine ⟨trivial, fun r w' hr d' hd' => ?_⟩
    obtain rfl := hr
    obtain rfl := Option.some.inj hd'
    exact ⟨hbuilt, server, hserver, hserves.1, DnsServers.set_attached_self ..⟩

theorem kept_updateDefaultTun (handle : Nat) {u : Update} (hparsed : u.Parsed) : wp serving Any
      (fun out w' => ∀ d, out.1.defaultTun = some d → Kept s.toSettings w' d)
      (s.updateDefaultTun m handle u) w := by
  refine wp_updateDefaultTun (fun _ => h) fun d t howned _ => ?_
  obtain ⟨⟨opts, index, hindex, hbuilt⟩, hserved⟩ := h d (Memory.owned_some howned).1
  refine wp_of_idle (issues_onTun (serving_spares .link rfl)
    (serving_spares .routing rfl) _ _)
    (yields_embed ((built_update hbuilt hparsed).mono fun out hout d' hd' => ?_))
  obtain rfl := Option.some.inj hd'
  exact ⟨⟨opts, index, hindex, hout⟩, hserved⟩

theorem kept_perform {op : HostOp} (hparsed : op.Parsed) : wp serving Any
      (fun out w' => ∀ d, out.1.defaultTun = some d → Kept s.toSettings w' d)
      (s.perform m op) w := by
  cases op with
  | build opts activeName =>
    -- The server of the active default TUN is the one to start with.
    have hstart : ∀ input state t old recreated, m.defaultTun = some state →
        Handing input state.resolver (.start input state t old recreated) w := by
      intro input state t old recreated hsome
      obtain ⟨-, server, hserver, hserves⟩ := h state hsome
      refine ⟨rfl, rfl, fun server' hs => ?_, fun old hs => ?_, fun hr => absurd hr nofun⟩
      · obtain rfl := Option.some.inj (hserver.symm.trans hs)
        exact hserves
      · obtain rfl := Option.some.inj (hserver.symm.trans hs)
        exact hserves.1
    refine idle_buildDefaultTun (serving_spares .tun rfl)
      (serving_spares .index rfl) (serving_spares .registry rfl) (fun _ => h)
      ?_ ?_ ?_
    · intro input t hinput hopen hnone
      have hnew : Handing input none
          (.start input (freshState (m.defaultTunSourceGeneration + 1) t) t none false) w :=
        ⟨rfl, rfl, fun _ hs => absurd hs nofun, fun _ hs => absurd hs nofun,
          fun hr => absurd hr nofun⟩
      exact kept_buildOn (buildInput_ok hinput).2.2 hnew rfl
    · intro input state t hinput hopen hsome ht
      exact kept_buildOn (buildInput_ok hinput).2.2 (hstart _ _ _ _ _ hsome) rfl
    · intro input state t hinput hopen hsome
      exact kept_buildOn (buildInput_ok hinput).2.2 (hstart _ _ _ _ _ hsome) rfl
  | update handle u => exact kept_updateDefaultTun h handle hparsed
  | setDNS handle resolver => exact kept_setDNS h handle resolver
  | close handle =>
    exact forgets_closeDefaultTun h fun _ _ hnone d hd => absurd (hnone.symm.trans hd) nofun
  | closeSystem =>
    exact forgets_closeSystem h fun _ _ hnone d hd => absurd (hnone.symm.trans hd) nofun

end

end Operations

/-! ## The representation invariant -/

/-- The representation invariant of an active default TUN. -/
structure Represented (w : DnsServers) (d : DefaultTunState) : Prop where
  distinct : d.addrs.Nodup
  usable : ∀ p ∈ d.addrs, p.isValid = true ∧ p.addr.isLoopback = false
  dns : d.dnsIP ∈ d.addrs.map Prefix.addr
  config : ∃ rc, d.routingConfig = some rc ∧
    (∀ route ∈ rc.sourceRoutes, route.source ∈ d.addrs.map Prefix.addr) ∧
    rc.tunnelFamilies = routeFamilies d.addrs d.routes ∧
    rc.families = (if rc.strictness = .strict then bothFamilies else rc.tunnelFamilies) ∧
    rc.validate = .ok ()
  served : ∃ server, d.server = some server ∧ w.attached server = d.resolver

/-- There is no fallback, or it is a valid prefix that is no loopback. -/
def Settings.FallbackUsable (s : Settings) : Prop :=
  ∀ cidr, s.defaultTunCIDR = some cidr →
    ∃ p, cidr = .ok p ∧ p.isValid = true ∧ p.addr.isLoopback = false

theorem Kept.represented {s : Settings} {d : DefaultTunState} (h : Kept s w d)
    (hmarks : s.MarksValid) (hfallback : s.FallbackUsable) : Represented w d := by
  obtain ⟨⟨opts, index, hindex, hbuilt⟩, server, hserver, hserves⟩ := h
  obtain ⟨sourceRoutes, hnormalized, hconfig⟩ := hbuilt.config
  obtain ⟨fallback, ps, hf, -, haddrs, hdns⟩ := normalizeTunAddrs_eq_ok hbuilt.addrs
  refine ⟨?_, ?_, ?_, ⟨_, hconfig, ?_, rfl, ?_, hbuilt.accepted hmarks hindex hconfig⟩,
    server, hserver, hserves.2⟩
  · rw [haddrs]
    exact nodup_tunAddrsOf fallback ps
  · intro p hp
    refine ⟨hbuilt.addrs_valid p hp, ?_⟩
    rw [haddrs] at hp
    rcases mem_tunAddrsOf.mp hp with ⟨-, hloop⟩ | ⟨rfl, hvalid, -⟩
    · exact hloop
    · cases hcidr : s.defaultTunCIDR with
      | none =>
        rw [hcidr] at hf
        cases hf
        cases hvalid
      | some cidr =>
        obtain ⟨p', rfl, -, hloop⟩ := hfallback cidr hcidr
        rw [hcidr] at hf
        exact Except.ok.inj hf ▸ hloop
  · have hvalid := hbuilt.dns
    rw [hdns, haddrs] at hvalid ⊢
    exact dnsAddrOf_mem hvalid
  · intro route hroute
    exact ((normalizeTunSourceRoutes_fit hnormalized).each route hroute).assigned
  · cases hstrict : opts.strict <;> simp [Settings.routingConfig, hstrict]

/-- In every state between calls the default TUN is represented, and `validate` accepts
    every config that an update of it passes to `Apply`. -/
theorem defaultTun_represented (s : HostSettings) (hmarks : s.MarksValid)
    (hfallback : s.FallbackUsable) {w₀ w : DnsServers} {m : Memory}
    (hreach : Reach s serving HostOp.Parsed (.initial, w₀) (m, w)) :
    (∀ d, m.defaultTun = some d → Represented w d) ∧
      ∀ handle u tr out w', u.Parsed →
        Exec serving (s.updateDefaultTun m handle u) w tr out w' →
        ∀ ev ∈ tr, ∀ t config, ev.call = .system t (.apply config) →
          config.validate = .ok () := by
  have hkept : ∀ d, m.defaultTun = some d → Kept s.toSettings w d :=
    hreach.invariant (J := fun m w => ∀ d, m.defaultTun = some d → Kept s.toSettings w d)
      (fun _ _ _ hop h => kept_perform h hop) fun d hd => absurd hd nofun
  refine ⟨fun d hd => (hkept d hd).represented hmarks hfallback, ?_⟩
  intro handle u tr out w' hparsed hex ev hev t config hcall
  have hissues : Issues (fun c => ∀ t config, c = HostCall.system t (.apply config) →
      config.validate = .ok ()) (s.updateDefaultTun m handle u) := by
    unfold HostSettings.updateDefaultTun
    split
    · exact trivial
    rename_i d howned
    split
    · exact trivial
    split
    · exact trivial
    obtain ⟨⟨opts, index, hindex, hbuilt⟩, -⟩ := hkept d (Memory.owned_some howned).1
    refine issues_bind (issues_embed ?_) fun _ => trivial
    refine (update_applies_accepted hbuilt hmarks hindex hparsed).mono fun c hc t config heq => ?_
    cases heq
    exact hc
  exact hex.issued hissues ev hev t config hcall

/-! ## A history -/

/-- A world in which every call succeeds. -/
def serveWell (c : HostCall) (_ : Unit) (w : DnsServers) :
    Except CallError (HostReply c) × DnsServers :=
  match c with
  | .packetListen addr port =>
    (.ok (HostCall.goodReply w.made (.packetListen addr port)),
      { w.set ⟨w.made⟩ none with made := w.made + 1 })
  | .attach server resolver => (.ok (), w.set server (some resolver))
  | .detach server => (.ok (), w.set server none)
  | c => (.ok (c.goodReply 0), w)

theorem serving_serveWell (c : HostCall) (f : Unit) (w : DnsServers) :
    serving c w (serveWell c f w).1 (serveWell c f w).2 := by
  cases c with
  | packetListen addr port => exact ⟨le_refl _, rfl⟩
  | tunIndex t => exact ⟨show (0 : Int) < 10 by decide, rfl⟩
  | _ => rfl

/-- Operations one after the other in this world. -/
def servedWell (s : HostSettings) : List HostOp → Memory × DnsServers → Memory × DnsServers
  | [], x => x
  | op :: ops, x =>
    let result := play serveWell () (s.perform x.1 op) [] x.2
    servedWell s ops (result.2.1.1, result.2.2)

theorem reach_servedWell (s : HostSettings) {ops : List HostOp} (hops : ∀ op ∈ ops, op.Parsed)
    (x : Memory × DnsServers) : Reach s serving HostOp.Parsed x (servedWell s ops x) := by
  induction ops generalizing x with
  | nil => exact .refl
  | cons op ops ih =>
    refine Relation.ReflTransGen.head ?_ (ih (fun o ho => hops o (List.mem_cons_of_mem op ho)) _)
    exact ⟨op, _, _, hops op List.mem_cons_self,
      play_exec serving_serveWell (s.perform x.1 op) [] x.2⟩

/-- A build, a resolver, a second address and another build. -/
def servedOps : List HostOp :=
  [.build dualOpts "", .setDNS 1 (some ⟨7⟩),
    .update 1 (.addTunAddr (.ok (Prefix.ofV4 0x0a000002#32 24))), .build dualOpts ""]

theorem servedOps_parsed : ∀ op ∈ servedOps, op.Parsed := by
  intro op hop
  simp only [servedOps, List.mem_cons, List.not_mem_nil, or_false] at hop
  rcases hop with rfl | rfl | rfl | rfl
  · exact trivial
  · exact trivial
  · intro p hp
    rw [← Except.ok.inj hp]
    decide
  · exact trivial

/-- The state behind these operations. -/
def servedEnd : Memory × DnsServers :=
  servedWell sampleHost servedOps (.initial, ⟨0, fun _ => none⟩)

theorem reach_servedEnd : Reach sampleHost serving HostOp.Parsed (.initial, ⟨0, fun _ => none⟩)
      (servedEnd.1, servedEnd.2) :=
  reach_servedWell sampleHost servedOps_parsed (.initial, ⟨0, fun _ => none⟩)

theorem sampleHost_fallbackUsable : sampleHost.FallbackUsable := by
  rintro cidr hcidr
  obtain rfl := Option.some.inj hcidr
  exact ⟨_, rfl, by decide, by decide⟩

theorem defaultTun_represented_sample :
    servedEnd.1.defaultTun.isSome = true ∧
      (servedEnd.1.defaultTun.bind DefaultTunState.resolver) = some ⟨7⟩ ∧
      ∀ d, servedEnd.1.defaultTun = some d → Represented servedEnd.2 d :=
  ⟨by decide +kernel, by decide +kernel,
    (defaultTun_represented sampleHost sampleSettings_marksValid sampleHost_fallbackUsable
      reach_servedEnd).1⟩

end SysnetLinux.DefaultTun
