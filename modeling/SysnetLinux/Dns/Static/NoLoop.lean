/-
  SysnetLinux.Dns.Static.NoLoop

  The forwarding client of a provider never points back at the server that the provider has
  installed.

  `SetDNS` rebuilds the client before it installs the new server and leaves out both the new and
  the old one.  `Loopless` holds in every state of every call (`no_dns_loop`).
-/

import SysnetLinux.Dns.Static.Specs

namespace SysnetLinux.Dns.Static

open Netip
open CallProg CallProg.Prog

/-! ## Histories -/

inductive Backend where
  | direct
  | openresolv (iface : String)
  | debianResolvconf (iface : String)
  deriving DecidableEq, Repr

inductive Operation where
  | setDNS (server : Addr)
  | unsetDNS
  | close
  deriving DecidableEq, Repr

def Backend.construct (parse : String → Except String (List Addr)) : Backend → StaticProg
  | .direct => Direct.newDirect parse
  | .openresolv iface => Openresolv.newOpenresolv parse iface
  | .debianResolvconf iface => DebianResolvconf.newDebianResolvconf parse iface

def Backend.perform : Backend → Operation → StaticProg
  | .direct, .setDNS server => Direct.setDNS server
  | .direct, .unsetDNS => Direct.unsetDNS
  | .direct, .close => Direct.close
  | .openresolv iface, .setDNS server => Openresolv.setDNS iface server
  | .openresolv iface, .unsetDNS => Openresolv.unsetDNS iface
  | .openresolv iface, .close => Openresolv.close iface
  | .debianResolvconf iface, .setDNS server => DebianResolvconf.setDNS iface server
  | .debianResolvconf iface, .unsetDNS => DebianResolvconf.unsetDNS iface
  | .debianResolvconf iface, .close => DebianResolvconf.close iface

/-- The world before the constructor. -/
def World.start (fallback : List AddrPort) (file record : Option String) : World where
  provider := ⟨false, none, fallback, none, [], .zero, false, []⟩
  router := ⟨false, none⟩
  host := ⟨file, record, none⟩

/-- Files and commands can fail, and so can closing a client or the router. -/
abbrev hostWorld : Handler Call Reply CallError World := flaky (fun c => c.external = true) act

/-- A call under a list of faults. -/
def playHost (p : StaticProg) (faults : List (Option CallError)) (w : World) :
    List (Event Call World) × List ProviderError × World :=
  play (flakyAnswer (fun c => c.external = true) act) none p faults w

theorem playHost_exec (p : StaticProg) (faults : List (Option CallError)) (w : World) :
    Exec hostWorld p w (playHost p faults w).1 (playHost p faults w).2.1
      (playHost p faults w).2.2 :=
  play_flaky _ act p faults w

/-- The worlds between the calls of a history. -/
inductive Reached (b : Backend) (parse : String → Except String (List Addr)) (w₀ : World) :
    World → Prop
  | constructed {tr : List (Event Call World)} {w : World} :
      Exec hostWorld (b.construct parse) w₀ tr [] w → Reached b parse w₀ w
  | performed {w w' : World} {op : Operation} {tr : List (Event Call World)}
      {errs : List ProviderError} :
      Reached b parse w₀ w → Exec hostWorld (b.perform op) w tr errs w' → Reached b parse w₀ w'

/-! ## The invariant -/

/-- The attached client is the remembered one, and it does not name the installed server. -/
structure Loopless (w : World) : Prop where
  attached : ∀ client, w.router.attached = some client → client = w.provider.upstreamSig
  excluded : ∀ server, w.host.managed = some server → ¬ NamesAddr w.provider.upstreamSig server

/-- Between calls the installed server is the remembered one. -/
structure Settled (Coherent : Host → Prop) (w : World) : Prop extends Loopless w where
  managed : ∀ server, w.host.managed = some server →
    server.isValid = true ∧ w.provider.setDNSActive = true ∧ w.provider.setDNS = server
  coherent : Coherent w.host

/-- An action fails and changes nothing, or leaves this server in the host. -/
def Leaves (Coherent : Host → Prop) (w : World) (server : Option Addr)
    (errs : List ProviderError) (w' : World) : Prop :=
  (errs ≠ [] ∧ w' = w) ∨
    (errs = [] ∧ w'.provider = w.provider ∧ w'.router = w.router ∧ w'.host.managed = server ∧
      Coherent w'.host)

/-- The actions of a provider change the host at their end. -/
structure Actions.Sound (a : Actions) (Coherent : Host → Prop) : Prop where
  install : ∀ w server, wp hostWorld (fun _ x => x = w) (Leaves Coherent w (some server))
    (a.install server) w
  uninstall : ∀ w, Coherent w.host → wp hostWorld (fun _ x => x = w) (Leaves Coherent w none)
    a.uninstall w

section Calls

variable {Coherent : Host → Prop} {w : World}

variable {exclude : List Addr} {a : Actions}

/-- Committed URLs that leave out the installed server. -/
theorem Loopless.committed
    (hmanaged : ∀ server, w.host.managed = some server → server.isValid = true ∧ server ∈ exclude) :
    Loopless (w.committed (upstreamURLs w.upstreams exclude)) where
  attached := fun _ hclient => (Option.some.inj hclient).symm
  excluded := fun server hserver =>
    not_namesAddr_upstreamURLs (hmanaged server hserver).2 (hmanaged server hserver).1

/-- After a refresh without an error nothing that was excluded is named. -/
theorem Refreshed.excluded {w' : World} (h : Refreshed w exclude [] w') {addr : Addr}
    (hmem : addr ∈ exclude) (hvalid : addr.isValid = true) :
    ¬ NamesAddr w'.provider.upstreamSig addr := by
  cases h with
  | kept _ hsig =>
    rw [hsig]
    exact not_namesAddr_upstreamURLs hmem hvalid
  | committed => exact not_namesAddr_upstreamURLs hmem hvalid
  | failed hne => exact absurd rfl hne

theorem settled_refreshUpstreams (h : Settled Coherent w)
    (hmem : ∀ server, w.host.managed = some server → server ∈ exclude) :
    wp hostWorld (fun _ x => Loopless x)
      (fun errs w' => Refreshed w exclude errs w' ∧ Settled Coherent w')
      (refreshUpstreams exclude) w := by
  have hcommitted : Loopless (w.committed (upstreamURLs w.upstreams exclude)) :=
    Loopless.committed fun server hserver => ⟨(h.managed server hserver).1, hmem server hserver⟩
  refine wp_post (fun errs w' hend => ⟨hend, ?_⟩) (wp_refreshUpstreams fallible_external exclude
    fun c _ => ⟨h.toLoopless, hcommitted⟩)
  cases hend with
  | kept => exact h
  | committed => exact ⟨hcommitted, h.managed, h.coherent⟩
  | failed => exact h

theorem Settled.of_host (h : Settled Coherent w) {w' : World}
    (hprovider : w'.provider = w.provider) (hrouter : w'.router = w.router)
    (hhost : w'.host.managed = none) (hcoherent : Coherent w'.host) : Settled Coherent w' where
  attached := fun client hclient => by
    rw [hprovider]
    rw [hrouter] at hclient
    exact h.attached client hclient
  excluded := fun server hserver => by
    rw [hhost] at hserver
    cases hserver
  managed := fun server hserver => by
    rw [hhost] at hserver
    cases hserver
  coherent := hcoherent

/-- Forgetting the server is right once it is gone from the host. -/
theorem Settled.forget (h : Settled Coherent w) (hhost : w.host.managed = none) :
    Settled Coherent w.forget where
  attached := h.attached
  excluded := h.excluded
  managed := fun server hserver => by
    change w.host.managed = some server at hserver
    rw [hhost] at hserver
    cases hserver
  coherent := h.coherent

theorem settled_setDNS (ha : a.Sound Coherent) (server : Addr) (h : Settled Coherent w) :
    wp hostWorld (fun _ x => Loopless x) (fun _ w' => Settled Coherent w') (a.setDNS server) w := by
  unfold Actions.setDNS
  split
  · exact h
  rename_i hvalid
  have hvalid : server.isValid = true := Bool.eq_true_of_not_eq_false hvalid
  refine wp_section fallible_external rfl (fun _ => Call.noConfusion) rfl h.toLoopless ?_
  split
  · exact h
  dsimp only
  -- The old server is excluded as long as it is active, the new one in any case.
  have hold : ∀ s, w.host.managed = some s →
      s ∈ if w.provider.setDNSActive = true then [server, w.provider.setDNS] else [server] := by
    intro s hs
    obtain ⟨-, hactive, hsame⟩ := h.managed s hs
    rw [if_pos hactive, ← hsame]
    simp
  have hnew : server ∈ if w.provider.setDNSActive = true then [server, w.provider.setDNS]
      else [server] := by
    split <;> exact List.mem_cons_self
  refine wp_orReturn (wp_post (fun errs w₁ hrefreshed => ?_) (settled_refreshUpstreams h hold))
  obtain ⟨hrefreshed, hsettled⟩ := hrefreshed
  split
  · rename_i hnil
    subst hnil
    have hexcluded := hrefreshed.excluded hnew hvalid
    refine wp_orReturn (wp_mono (fun _ x (hx : x = w₁) => hx ▸ hsettled.toLoopless)
      (fun errs w₂ hend => ?_) (ha.install w₁ server))
    rcases hend with ⟨hne, rfl⟩ | ⟨hok, hprovider, hrouter, hmanaged, hcoherent⟩
    · rw [if_neg hne]
      exact hsettled
    · rw [if_pos hok]
      have hloopless : Loopless w₂ := by
        refine ⟨fun client hclient => ?_, fun s hs => ?_⟩
        · rw [hprovider]
          rw [hrouter] at hclient
          exact hsettled.attached client hclient
        · rw [hmanaged] at hs
          rw [hprovider, ← Option.some.inj hs]
          exact hexcluded
      refine wp_section fallible_external rfl (fun _ => Call.noConfusion) rfl hloopless ?_
      refine ⟨⟨hloopless.attached, hloopless.excluded⟩, fun s hs => ?_, hcoherent⟩
      rw [show _ = w₂.host.managed from rfl, hmanaged] at hs
      obtain rfl := Option.some.inj hs
      exact ⟨hvalid, rfl, rfl⟩
  · exact hsettled

theorem settled_uninstall (ha : a.Sound Coherent) (h : Settled Coherent w) :
    wp hostWorld (fun _ x => Loopless x)
      (fun errs w' => Settled Coherent w' ∧ w'.provider = w.provider ∧
        (errs = [] → w'.host.managed = none)) a.uninstall w := by
  refine wp_mono (fun _ x (hx : x = w) => hx ▸ h.toLoopless) (fun errs w' hend => ?_)
    (ha.uninstall w h.coherent)
  rcases hend with ⟨hne, rfl⟩ | ⟨-, hprovider, hrouter, hmanaged, hcoherent⟩
  · exact ⟨h, rfl, fun hnil => absurd hnil hne⟩
  · exact ⟨h.of_host hprovider hrouter hmanaged hcoherent, hprovider, fun _ => hmanaged⟩

theorem settled_unsetDNS (ha : a.Sound Coherent) (h : Settled Coherent w) :
    wp hostWorld (fun _ x => Loopless x) (fun _ w' => Settled Coherent w') a.unsetDNS w := by
  refine wp_section fallible_external rfl (fun _ => Call.noConfusion) rfl h.toLoopless ?_
  split
  · exact h
  split
  · exact h
  rw [wp_bind]
  refine wp_post (fun errs w₁ hend => ?_) (settled_uninstall ha h)
  obtain ⟨h₁, hprovider, hgone⟩ := hend
  rw [wp_bind]
  have hmem : ∀ s, w₁.host.managed = some s → s ∈ [w.provider.setDNS] := by
    intro s hs
    rw [← hprovider, (h₁.managed s hs).2.2]
    exact List.mem_singleton_self s
  refine wp_post (fun errs' w₂ hend' => ?_) (settled_refreshUpstreams h₁ hmem)
  obtain ⟨hrefreshed, h₂⟩ := hend'
  split
  · rename_i hnil
    have hhost : w₂.host.managed = none := by
      have hnone := hgone (List.append_eq_nil_iff.mp hnil).1
      cases hrefreshed with
      | kept | committed | failed => exact hnone
    refine wp_section fallible_external rfl (fun _ => Call.noConfusion) rfl h₂.toLoopless ?_
    split
    · exact h₂.forget hhost
    · exact h₂
  · exact h₂

/-- Closing the router and the client changes nothing that matters here. -/
theorem settled_closeForwarding (client : Option Client) (errs : List ProviderError)
    (h : Settled Coherent w) :
    wp hostWorld (fun _ x => Loopless x) (fun _ w' => Settled Coherent w')
      (closeForwarding client errs) w := by
  have hclosed : Settled Coherent { w with router := { w.router with closed := true } } :=
    ⟨⟨h.attached, h.excluded⟩, h.managed, h.coherent⟩
  cases client with
  | none => exact wp_joining rfl h.toLoopless hclosed fun _ => h
  | some client =>
    have hclient : ∀ (errs : List ProviderError) (x : World), Settled Coherent x →
        wp hostWorld (fun _ x => Loopless x) (fun _ w' => Settled Coherent w')
          (joining .other errs (.closeClient client) .ret) x :=
      fun errs x hx => wp_joining rfl hx.toLoopless hx fun _ => hx
    exact wp_joining rfl h.toLoopless (hclient errs _ hclosed) fun e => hclient _ w h

theorem settled_close (ha : a.Sound Coherent) (h : Settled Coherent w) :
    wp hostWorld (fun _ x => Loopless x) (fun _ w' => Settled Coherent w') a.close w := by
  by_cases hdone : w.provider.closed = true ∧ w.provider.setDNSActive = false
  · exact wp_section fallible_external rfl (fun _ => Call.noConfusion) (act_closing_done hdone)
      h.toLoopless h
  refine wp_section fallible_external rfl (fun _ => Call.noConfusion) (act_closing hdone)
    h.toLoopless ?_
  have hclosing : Settled Coherent w.shut :=
    ⟨⟨h.attached, h.excluded⟩, h.managed, h.coherent⟩
  rw [wp_bind]
  unfold Actions.rollback
  split
  · refine wp_orReturn (wp_post (fun errs w₁ hend => ?_) (settled_uninstall ha hclosing))
    obtain ⟨h₁, -, hgone⟩ := hend
    split
    · rename_i hnil
      refine wp_section fallible_external rfl (fun _ => Call.noConfusion) rfl h₁.toLoopless ?_
      split
      · exact settled_closeForwarding _ [] (h₁.forget (hgone hnil))
      · exact settled_closeForwarding _ [] h₁
    · exact settled_closeForwarding _ errs h₁
  · exact settled_closeForwarding _ [] hclosing

theorem settled_construct {parse : String → Except String (List Addr)} {keeps : Bool}
    (h : Settled Coherent w) (hnone : w.host.managed = none) :
    wp hostWorld (fun _ x => Loopless x) (fun _ w' => Settled Coherent w')
      (construct parse keeps) w := by
  have hfail : ∀ errs (x : World), Settled Coherent x →
      wp hostWorld (fun _ x => Loopless x) (fun _ w' => Settled Coherent w')
        (dropping .closeRouter (.ret errs)) x := by
    intro errs x hx
    rw [dropping, wp_call_flaky]
    exact ⟨hx.toLoopless, ⟨⟨hx.attached, hx.excluded⟩, hx.managed, hx.coherent⟩, fun _ _ => hx⟩
  have hfilled : ∀ original servers, Settled Coherent { w with provider :=
      { w.provider with original := original, originalServers := servers } } :=
    fun _ _ => ⟨⟨h.attached, h.excluded⟩, h.managed, h.coherent⟩
  have hrefresh : ∀ x, Settled Coherent x → x.host.managed = none →
      wp hostWorld (fun _ x => Loopless x) (fun _ w' => Settled Coherent w')
        ((refreshUpstreams []).bind fun errs =>
          if errs = [] then .ret [] else dropping .closeRouter (.ret errs)) x := by
    intro x hx hmanaged
    rw [wp_bind]
    have hmem : ∀ s, x.host.managed = some s → s ∈ ([] : List Addr) := by
      intro s hs
      rw [hmanaged] at hs
      cases hs
    refine wp_post (fun errs w₁ hend => ?_) (settled_refreshUpstreams hx hmem)
    split
    · exact hend.2
    · exact hfail errs w₁ hend.2
  unfold construct
  rw [wp_call_flaky]
  refine ⟨h.toLoopless, ?_, fun _ e => hfail _ w h⟩
  dsimp only [act]
  cases w.host.file with
  | none =>
    refine wp_section fallible_external rfl (fun _ => Call.noConfusion) rfl h.toLoopless ?_
    exact hrefresh _ (hfilled none []) hnone
  | some text =>
    dsimp only
    split
    · exact hfail _ w h
    · refine wp_section fallible_external rfl (fun _ => Call.noConfusion) rfl h.toLoopless ?_
      exact hrefresh _ (hfilled _ _) hnone

end Calls

/-! ## The three providers -/

/-- The contents of the file name the installed server. -/
def FileNames (h : Host) : Prop :=
  ∀ server, h.managed = some server → h.file = some (resolvconfForServer server)

theorem sound_direct : Direct.actions.Sound FileNames where
  install := fun w server => by
    refine wp_step rfl rfl (.inr ⟨rfl, rfl, rfl, rfl, ?_⟩) fun _ => .inl ⟨by simp, rfl⟩
    intro s hs
    rw [Option.some.inj hs]
  uninstall := fun w hnames => by
    refine wp_post (fun errs w' hend => ?_) (wp_restoreResolvConfIfOwned fallible_external rfl rfl
      (fun _ _ _ => rfl) fun _ _ => rfl)
    cases hend with
    | skipped hforeign =>
      refine .inr ⟨rfl, rfl, rfl, ?_, hnames⟩
      -- A file that the provider has written is its own.
      cases hmanaged : w.host.managed with
      | none => rfl
      | some server =>
        have howned : w.host.Replaceable := by
          rw [Host.Replaceable, hnames server hmanaged]
          exact owned_resolvconfForServer server
        exact absurd howned hforeign
    | restored => exact .inr ⟨rfl, rfl, rfl, rfl, fun server hserver => by cases hserver⟩
    | failed hne => exact .inl ⟨hne, rfl⟩

theorem sound_recordActions (add delete : List String) (contents : Addr → String) :
    (recordActions add delete contents).Sound fun _ => True where
  install := fun w server =>
    wp_step rfl rfl (.inr ⟨rfl, rfl, rfl, rfl, trivial⟩) fun _ => .inl ⟨by simp, rfl⟩
  uninstall := fun w _ =>
    wp_step rfl rfl (.inr ⟨rfl, rfl, rfl, rfl, trivial⟩) fun _ => .inl ⟨by simp, rfl⟩

def Backend.Coherent : Backend → Host → Prop
  | .direct => FileNames
  | .openresolv _ | .debianResolvconf _ => fun _ => True

theorem settled_perform (b : Backend) (op : Operation) {w : World} (h : Settled b.Coherent w) :
    wp hostWorld (fun _ x => Loopless x) (fun _ w' => Settled b.Coherent w') (b.perform op) w := by
  have hcase : ∀ a : Actions, a.Sound b.Coherent →
      wp hostWorld (fun _ x => Loopless x) (fun _ w' => Settled b.Coherent w') (match op with
          | .setDNS server => a.setDNS server
          | .unsetDNS => a.unsetDNS
          | .close => a.close) w := by
    intro a ha
    cases op with
    | setDNS server => exact settled_setDNS ha server h
    | unsetDNS => exact settled_unsetDNS ha h
    | close => exact settled_close ha h
  cases b with
  | direct =>
    have hdirect := hcase Direct.actions sound_direct
    cases op <;> exact hdirect
  | openresolv iface =>
    have hrecord := hcase (Openresolv.actions iface) (sound_recordActions _ _ _)
    cases op <;> exact hrecord
  | debianResolvconf iface =>
    have hrecord := hcase (DebianResolvconf.actions iface) (sound_recordActions _ _ _)
    cases op <;> exact hrecord

theorem settled_start (b : Backend) (fallback : List AddrPort) (file record : Option String) :
    Settled b.Coherent (World.start fallback file record) where
  attached := fun client hclient => by cases hclient
  excluded := fun server hserver => by cases hserver
  managed := fun server hserver => by cases hserver
  coherent := by
    cases b with
    | direct => exact fun server hserver => by cases hserver
    | openresolv iface | debianResolvconf iface => exact trivial

theorem settled_constructed (b : Backend) (parse : String → Except String (List Addr))
    (fallback : List AddrPort) (file record : Option String) :
    wp hostWorld (fun _ x => Loopless x) (fun _ w' => Settled b.Coherent w') (b.construct parse)
      (World.start fallback file record) := by
  have hstart := settled_start b fallback file record
  cases b with
  | direct => exact settled_construct hstart rfl
  | openresolv iface =>
    change wp hostWorld _ _ (Openresolv.newOpenresolv parse iface) _
    unfold Openresolv.newOpenresolv
    split
    · exact hstart
    · exact settled_construct hstart rfl
  | debianResolvconf iface =>
    change wp hostWorld _ _ (DebianResolvconf.newDebianResolvconf parse iface) _
    unfold DebianResolvconf.newDebianResolvconf
    split
    · exact hstart
    · exact settled_construct hstart rfl

theorem settled_reached {b : Backend} {parse : String → Except String (List Addr)}
    {fallback : List AddrPort} {file record : Option String} {w : World}
    (h : Reached b parse (World.start fallback file record) w) : Settled b.Coherent w := by
  induction h with
  | constructed hex => exact (wp_sound hex (settled_constructed b parse fallback file record)).2
  | performed _ hex ih => exact (wp_sound hex (settled_perform b _ ih)).2

/-- In every state of every call of a history, the client that is attached to the router
    does not name the server that is installed in the host. -/
theorem no_dns_loop {b : Backend} {parse : String → Except String (List Addr)}
    {fallback : List AddrPort} {file record : Option String} {w w' : World} {op : Operation}
    {tr : List (Event Call World)} {errs : List ProviderError}
    (h : Reached b parse (World.start fallback file record) w)
    (hex : Exec hostWorld (b.perform op) w tr errs w') :
    ∀ x ∈ visited tr w', ∀ server, x.host.managed = some server →
      ∀ client, x.router.attached = some client → ¬ NamesAddr client server := by
  intro x hx server hserver client hclient
  have hloopless : Loopless x := visited_of_wp hex (settled_perform b op (settled_reached h))
    (fun hsettled => hsettled.toLoopless) x hx
  rw [hloopless.attached client hclient]
  exact hloopless.excluded server hserver

/-- A file with three nameservers. -/
def threeServers (_ : String) : Except String (List Addr) :=
  .ok [.v4 0x0A000001, .v4 0x0A000002, .v4 0xC0000201]

def threeStart : World := World.start [] (some "nameserver 10.0.0.1") none

def threeBuilt : List (Event Call World) × List ProviderError × World :=
  playHost (Backend.direct.construct threeServers) [] threeStart

/-- The first of the nameservers is installed. -/
def threeSet : List (Event Call World) × List ProviderError × World :=
  playHost (Backend.direct.perform (.setDNS (.v4 0x0A000001))) [] threeBuilt.2.2

/-- Then the write of the second fails. -/
def threeFailed : List (Event Call World) × List ProviderError × World :=
  playHost (Backend.direct.perform (.setDNS (.v4 0x0A000002)))
    [none, none, none, none, some (.failed "read-only file system")] threeSet.2.2

theorem reached_threeSet : Reached .direct threeServers threeStart threeSet.2.2 := by
  have hbuilt : threeBuilt.2.1 = [] := by decide +kernel
  have hexec : Exec hostWorld (Backend.direct.construct threeServers) threeStart threeBuilt.1
      threeBuilt.2.1 threeBuilt.2.2 := playHost_exec _ _ _
  rw [hbuilt] at hexec
  exact (Reached.constructed hexec).performed (playHost_exec _ _ _)

/-- A second `SetDNS` whose write fails: the first server is still installed, and the client
    is rebuilt without it. -/
theorem no_dns_loop_failed_write :
    threeFailed.2.1 ≠ [] ∧ threeFailed.2.2.host.managed = some (.v4 0x0A000001) ∧
      threeFailed.2.2.router.attached = some ["udp://192.0.2.1:53"] ∧
      ∀ x ∈ visited threeFailed.1 threeFailed.2.2, ∀ server, x.host.managed = some server →
        ∀ client, x.router.attached = some client → ¬ NamesAddr client server := by
  refine ⟨?_, ?_, ?_, no_dns_loop reached_threeSet (playHost_exec _ _ _)⟩
  · decide +kernel
  · decide +kernel
  · decide +kernel

end SysnetLinux.Dns.Static
