/-
  SysnetLinux.DefaultTun.Built

  What the recorded addresses, routes and routing config of a default TUN have in common
  with the options it was built from.

  `BuiltFrom` is the relation: the addresses and routes are normalised, the DNS address is the
  one that normalisation selects, and the config is the one that a build assembles from
  them.  A build establishes it (`built_of_input`) and every update keeps it
  (`built_update`).
-/

import SysnetLinux.DefaultTun.Build
import SysnetLinux.DefaultTun.Check

namespace SysnetLinux.DefaultTun

open Netip Routing CallProg CallProg.Prog List

/-! ## Normalising once more -/

variable {out : List Prefix} {normalized : List SourceRoute}

theorem normalizeTunAddrs_again {addrs : List CIDR} {fallbackCIDR : Option CIDR} {dnsIP d : Addr}
    (h : normalizeTunAddrs addrs fallbackCIDR dnsIP = .ok (out, d)) (hd : d.isValid = true) :
    normalizeTunAddrs (out.map .ok) fallbackCIDR d = .ok (out, d) := by
  obtain ⟨fallback, ps, hf, -, rfl, rfl⟩ := normalizeTunAddrs_eq_ok h
  rw [normalizeTunAddrs_map hf, tunAddrsOf_tunAddrsOf, dnsAddrOf_dnsAddrOf hd]

theorem normalizeTunRoutes_again {routes : List CIDR} (h : normalizeTunRoutes routes = .ok out) :
    normalizeTunRoutes (out.map .ok) = .ok out := by
  obtain ⟨ps, -, rfl⟩ := normalizeTunRoutes_eq_ok.mp h
  exact normalizeTunRoutes_eq_ok.mpr ⟨keptOnce ps, rfl, (keptOnce_keptOnce ps).symm⟩

theorem scanSourceRoutes_keeps {assigned : List Addr} {i : Nat} {out : List SourceRoute}
    {routes : List TunSourceRoute} (h : scanSourceRoutes assigned i normalized routes = .ok out) :
    ∀ route ∈ normalized, route ∈ out := by
  induction routes generalizing i normalized with
  | nil =>
    cases h
    exact fun _ hroute => hroute
  | cons route routes ih =>
    obtain ⟨-, ⟨-, hrest⟩ | ⟨-, hrest⟩⟩ := scanSourceRoutes_cons h
    · exact ih hrest
    · exact fun r hr => ih hrest r (mem_append_left _ hr)

/-- The assigned addresses matter for the sources only: where all sources that were kept
    are assigned, the source routes are normalised the same way. -/
theorem scanSourceRoutes_reassigned {assigned assigned' : List Addr} {i : Nat}
    {out : List SourceRoute} {routes : List TunSourceRoute}
    (h : scanSourceRoutes assigned i normalized routes = .ok out)
    (hsources : ∀ route ∈ out, route.source ∈ assigned') :
    scanSourceRoutes assigned' i normalized routes = .ok out := by
  induction routes generalizing i normalized with
  | nil => exact h
  | cons route routes ih =>
    obtain ⟨hfits, hcases⟩ := scanSourceRoutes_cons h
    have hmem : route.source ∈ assigned' := by
      rcases hcases with ⟨hseen, hrest⟩ | ⟨-, hrest⟩
      · obtain ⟨r, hr, -, heq⟩ := sourceOf_eq_some hseen
        exact heq ▸ hsources r (scanSourceRoutes_keeps hrest r hr)
      · exact hsources ⟨route.destination.masked, route.source⟩
          (scanSourceRoutes_keeps hrest _ (by simp))
    rw [scanSourceRoutes] at h ⊢
    split at h
    · cases h
    rename_i hdestination
    split at h
    · cases h
    rename_i hsource
    split at h
    · cases h
    rename_i hfamily
    rw [if_neg hdestination, if_neg hsource, if_neg hfamily, if_neg (not_not.mpr hmem)]
    rcases hcases with ⟨hseen, hrest⟩ | ⟨hnew, hrest⟩
    · simp only [hseen]
      rw [if_neg (not_not.mpr rfl)]
      exact ih hrest
    · simp only [hnew]
      exact ih hrest

theorem validateDefaultTunSourceAddrs_eq_none {addrs : List Prefix}
    {sourceRoutes : List SourceRoute} :
    validateDefaultTunSourceAddrs addrs sourceRoutes = none ↔
      ∀ route ∈ sourceRoutes, route.source ∈ addrs.map Prefix.addr := by
  simp [validateDefaultTunSourceAddrs, find?_eq_none]

/-- An update recomputes the families of the config and nothing else. -/
theorem setDefaultTunRoutingFamilies_routingConfig (s : Settings) (opts : DefaultTunOpts)
    (index : Int) (addrs routes addrs' routes' : List Prefix) (sourceRoutes : List SourceRoute) :
    setDefaultTunRoutingFamilies (s.routingConfig opts index addrs routes sourceRoutes)
        addrs' routes' =
      s.routingConfig opts index addrs' routes' sourceRoutes := by
  cases hstrict : opts.strict <;>
    simp [setDefaultTunRoutingFamilies, Settings.routingConfig, hstrict]

/-! ## The relation to the options -/

/-- The recorded state is normalised, and its config is the one that a build with these
    options on a TUN with this index assembles from it. -/
structure BuiltFrom (s : Settings) (opts : DefaultTunOpts) (index : Int) (d : TunState) : Prop where
  addrs : normalizeTunAddrs (d.addrs.map .ok) s.defaultTunCIDR d.dnsIP = .ok (d.addrs, d.dnsIP)
  dns : d.dnsIP.isValid = true
  routes : normalizeTunRoutes (d.routes.map .ok) = .ok d.routes
  config : ∃ sourceRoutes,
    normalizeTunSourceRoutes d.addrs opts.sourceRoutes = .ok sourceRoutes ∧
      d.routingConfig = some (s.routingConfig opts index d.addrs d.routes sourceRoutes)
  addrs_valid : ∀ p ∈ d.addrs, p.isValid = true
  routes_valid : ∀ p ∈ d.routes, p.isValid = true

/-- Texts that parse to valid prefixes are normalised to valid prefixes. -/
theorem normalizeTunAddrs_valid {addrs : List CIDR} {fallbackCIDR : Option CIDR} {dnsIP d : Addr}
    (h : normalizeTunAddrs addrs fallbackCIDR dnsIP = .ok (out, d))
    (hparsed : ∀ cidr ∈ addrs, Parsed cidr) : ∀ p ∈ out, p.isValid = true := by
  obtain ⟨fallback, ps, -, rfl, rfl, -⟩ := normalizeTunAddrs_eq_ok h
  intro p hp
  rcases mem_tunAddrsOf.mp hp with ⟨hmem, -⟩ | ⟨rfl, hvalid, -⟩
  · exact hparsed (.ok p) (mem_map_of_mem hmem) p rfl
  · exact hvalid

theorem normalizeTunRoutes_valid {routes : List CIDR} (h : normalizeTunRoutes routes = .ok out)
    (hparsed : ∀ cidr ∈ routes, Parsed cidr) :
    ∀ p ∈ out, p.isValid = true := by
  obtain ⟨ps, rfl, rfl⟩ := normalizeTunRoutes_eq_ok.mp h
  intro p hp
  exact hparsed (.ok p) (mem_map_of_mem (mem_keptOnce.mp hp).1) p rfl

theorem mem_tunAddrsOf_add {fallback a p : Prefix} {addrs : List Prefix}
    (haddrs : tunAddrsOf fallback addrs = addrs) (ha : a.addr.isLoopback = false) :
    p ∈ tunAddrsOf fallback (addrs ++ [a]) ↔ p ∈ addrs ∨ p = a := by
  rw [mem_tunAddrsOf, mem_append, mem_singleton]
  constructor
  · rintro (⟨hp, -⟩ | ⟨rfl, hvalid, hnew⟩)
    · exact hp
    · refine .inl ?_
      rw [← haddrs]
      refine mem_tunAddrsOf.mpr (.inr ⟨rfl, hvalid, fun q hq => hnew q ?_⟩)
      rw [mem_keptOnce] at hq ⊢
      exact ⟨mem_append_left _ hq.1, hq.2⟩
  · rintro (hp | rfl)
    · have hp' := hp
      rw [← haddrs] at hp
      rcases mem_tunAddrsOf.mp hp with ⟨-, hloop⟩ | ⟨rfl, hvalid, hnew⟩
      · exact .inl ⟨.inl hp', hloop⟩
      · cases hloop : p.addr.isLoopback with
        | false => exact .inl ⟨.inl hp', rfl⟩
        | true =>
          -- A loopback fallback is dropped and added again, and is no other address.
          refine .inr ⟨rfl, hvalid, fun q hq heq => ?_⟩
          have hq' := (mem_keptOnce.mp hq).2
          rw [heq, hloop] at hq'
          cases hq'
    · exact .inl ⟨.inr rfl, ha⟩

/-- What the validations at the start of a build have established. -/
structure BuildInput.Checked (s : Settings) (input : BuildInput) : Prop where
  addrs : normalizeTunAddrs input.opts.tunAddrs s.defaultTunCIDR input.opts.dnsIP =
    .ok (input.addrs, input.dnsIP)
  dns : input.dnsIP.isValid = true
  routes : normalizeTunRoutes input.opts.tunRoutes = .ok input.routes
  sourceRoutes : normalizeTunSourceRoutes input.addrs input.opts.sourceRoutes =
    .ok input.sourceRoutes

theorem buildInput_ok {s : HostSettings} {opts : DefaultTunOpts} {activeName : String}
    {input : BuildInput} (h : s.buildInput opts activeName = .ok input) :
    s.checkDefaultTunOpts opts activeName = [] ∧ input.opts = opts ∧
      input.Checked s.toSettings := by
  unfold HostSettings.buildInput at h
  split at h
  · cases h
  rename_i hcheck
  split at h
  · cases h
  rename_i addrs dnsIP haddrs
  split at h
  · cases h
  rename_i hdns
  split at h
  · cases h
  rename_i routes hroutes
  split at h
  · cases h
  rename_i sourceRoutes hsources
  cases h
  exact ⟨hcheck, rfl, haddrs, by simpa using hdns, hroutes, hsources⟩

/-- A build records what it has normalised. -/
theorem built_of_input {s : Settings} {input : BuildInput} (h : input.Checked s) (index : Int) :
    BuiltFrom s input.opts index {
      dnsIP := input.dnsIP
      addrs := input.addrs
      routes := input.routes
      routingConfig := some (s.routingConfig input.opts index input.addrs input.routes
        input.sourceRoutes) } where
  addrs := normalizeTunAddrs_again h.addrs h.dns
  dns := h.dns
  routes := normalizeTunRoutes_again h.routes
  config := ⟨input.sourceRoutes, h.sourceRoutes, rfl⟩
  addrs_valid := normalizeTunAddrs_valid h.addrs input.opts.addrs_parsed
  routes_valid := normalizeTunRoutes_valid h.routes input.opts.routes_parsed

/-! ## Updates -/

/-- The texts of an update parse to valid prefixes, if they parse. -/
def Update.Parsed : Update → Prop
  | .setTunAddrs addrs => ∀ cidr ∈ addrs, DefaultTun.Parsed cidr
  | .addTunAddr addr => DefaultTun.Parsed addr
  | .setTunRoutes routes => ∀ cidr ∈ routes, DefaultTun.Parsed cidr
  | .addTunRoute route => DefaultTun.Parsed route

/-- What an update comes to, with what its arguments are normalised to. -/
inductive Change (s : System) (state : TunState) : SystemProg UpdateOutcome → Prop
  | stays {err : Option UpdateError} : Change s state (.ret (state, err))
  | addrs {given : List CIDR} {addrs : List Prefix} (addedAddr : Option Prefix) :
      normalizeTunAddrs given s.defaultTunCIDR state.dnsIP = .ok (addrs, state.dnsIP) →
      (∀ cidr ∈ given, DefaultTun.Parsed cidr) →
      (∀ a, addedAddr = some a → given = (state.addrs ++ [a]).map .ok ∧
        a.addr.isLoopback = false ∧ a ∉ state.addrs) →
      Change s state (updateDefaultTunAddrsLocked state addrs addedAddr)
  | routes {given : List CIDR} {routes : List Prefix} :
      normalizeTunRoutes given = .ok routes → (∀ cidr ∈ given, DefaultTun.Parsed cidr) →
      Change s state (setDefaultTunRoutesLocked state routes)

section Change

variable {s : System} {state : TunState}

variable {given : List CIDR}

theorem updatedAddrs_ok {addrs : List Prefix} (h : s.updatedAddrs state given = .ok addrs) :
    normalizeTunAddrs given s.defaultTunCIDR state.dnsIP = .ok (addrs, state.dnsIP) := by
  unfold System.updatedAddrs at h
  split at h
  · cases h
  rename_i normalized dnsIP hnormalized
  split at h
  · cases h
  rename_i hdns
  cases h
  rw [hnormalized, not_not.mp hdns]

/-- `SetTunAddrs` is refused or sets the addresses that it was given. -/
theorem setTunAddrs_cases (s : System) (state : TunState) (given : List CIDR) :
    (∃ err, s.setTunAddrs state given = .ret (state, err)) ∨
      ∃ addrs, normalizeTunAddrs given s.defaultTunCIDR state.dnsIP = .ok (addrs, state.dnsIP) ∧
        s.setTunAddrs state given = updateDefaultTunAddrsLocked state addrs none := by
  unfold System.setTunAddrs
  split
  · exact .inl ⟨_, rfl⟩
  · split
    · exact .inl ⟨_, rfl⟩
    · unfold System.setDefaultTunAddrsLocked
      split
      · exact .inl ⟨_, rfl⟩
      · rename_i h
        exact .inr ⟨_, updatedAddrs_ok h, rfl⟩

theorem normalizeTunAddrs_single {cidr new : Prefix} {rest : List Prefix} {d : Addr}
    (h : normalizeTunAddrs [.ok cidr] none .zero = .ok (new :: rest, d)) :
    new = cidr ∧ cidr.addr.isLoopback = false := by
  obtain ⟨fallback, ps, hf, hps, hout, -⟩ := normalizeTunAddrs_eq_ok h
  obtain rfl : Prefix.zero = fallback := Except.ok.inj hf
  have hps' : [cidr] = ps := map_injective_iff.mpr (fun _ _ h => Except.ok.inj h) hps
  have hmem : new ∈ tunAddrsOf Prefix.zero [cidr] := hps' ▸ hout ▸ mem_cons_self
  rcases mem_tunAddrsOf.mp hmem with ⟨hnew, hloop⟩ | ⟨-, hvalid, -⟩
  · obtain rfl := mem_singleton.mp hnew
    exact ⟨rfl, hloop⟩
  · cases hvalid

/-- `AddTunAddr` is refused, finds the address recorded, or adds it. -/
theorem addTunAddr_cases (s : System) (state : TunState) (cidr : Prefix) :
    (∃ err, s.addTunAddr state (.ok cidr) = .ret (state, err)) ∨
      ∃ addrs, cidr ∉ state.addrs ∧ cidr.addr.isLoopback = false ∧
        normalizeTunAddrs ((state.addrs ++ [cidr]).map .ok) s.defaultTunCIDR state.dnsIP =
          .ok (addrs, state.dnsIP) ∧
        s.addTunAddr state (.ok cidr) = updateDefaultTunAddrsLocked state addrs (some cidr) := by
  unfold System.addTunAddr
  simp only
  split
  · exact .inl ⟨_, rfl⟩
  · split
    · exact .inl ⟨_, rfl⟩
    · exact .inl ⟨_, rfl⟩
    · rename_i hone
      obtain ⟨rfl, hloop⟩ := normalizeTunAddrs_single hone
      unfold System.addDefaultTunAddrLocked
      split
      · exact .inl ⟨_, rfl⟩
      · rename_i hout
        split
        · exact .inl ⟨_, rfl⟩
        · rename_i h
          exact .inr ⟨_, hout, hloop, updatedAddrs_ok h, rfl⟩

theorem change_setTunAddrs (hparsed : ∀ cidr ∈ given, Parsed cidr) :
    Change s state (s.setTunAddrs state given) := by
  rcases setTunAddrs_cases s state given with ⟨err, hret⟩ | ⟨addrs, hnorm, hset⟩
  · rw [hret]
    exact .stays
  · rw [hset]
    exact .addrs none hnorm hparsed fun a ha => absurd ha nofun

theorem change_addTunAddr {addr : CIDR} (hstate : ∀ p ∈ state.addrs, p.isValid = true)
    (hparsed : Parsed addr) : Change s state (s.addTunAddr state addr) := by
  cases addr with
  | error e => exact .stays
  | ok cidr =>
    rcases addTunAddr_cases s state cidr with ⟨err, hret⟩ | ⟨addrs, hout, hloop, hnorm, hadd⟩
    · rw [hret]
      exact .stays
    · rw [hadd]
      refine .addrs (some cidr) hnorm (fun text htext p hp => ?_) fun a ha => ?_
      · obtain ⟨q, hq, rfl⟩ := mem_map.mp htext
        rw [← Except.ok.inj hp]
        rcases mem_append.mp hq with hq | hq
        · exact hstate q hq
        · exact mem_singleton.mp hq ▸ hparsed cidr rfl
      · obtain rfl := Option.some.inj ha
        exact ⟨rfl, hloop, hout⟩

theorem change_setTunRoutes (hparsed : ∀ cidr ∈ given, Parsed cidr) :
    Change s state (s.setTunRoutes state given) := by
  unfold System.setTunRoutes
  split
  · exact .stays
  · rename_i h
    split
    · exact .stays
    · exact .routes h hparsed

theorem change_addTunRoute {route : CIDR} (hstate : ∀ p ∈ state.routes, p.isValid = true)
    (hparsed : Parsed route) : Change s state (s.addTunRoute state route) := by
  unfold System.addTunRoute
  split
  · exact .stays
  · split
    · exact .stays
    · split
      · exact .stays
      · exact .stays
      · rename_i new _ hone
        split
        · exact .stays
        · rename_i h
          refine .routes h fun text htext p hp => ?_
          obtain ⟨q, hq, rfl⟩ := mem_map.mp htext
          rw [← Except.ok.inj hp]
          have hnew : new.isValid = true := normalizeTunRoutes_valid hone
            (fun text htext => mem_singleton.mp htext ▸ hparsed) new mem_cons_self
          rcases mem_append.mp hq with hq | hq
          · exact hstate q hq
          · exact mem_singleton.mp hq ▸ hnew

theorem change_update {u : Update} (haddrs : ∀ p ∈ state.addrs, p.isValid = true)
    (hroutes : ∀ p ∈ state.routes, p.isValid = true) (hparsed : u.Parsed) :
    Change s state (s.update state u) := by
  cases u with
  | setTunAddrs addrs => exact change_setTunAddrs hparsed
  | addTunAddr addr => exact change_addTunAddr haddrs hparsed
  | setTunRoutes routes => exact change_setTunRoutes hparsed
  | addTunRoute route => exact change_addTunRoute hroutes hparsed

variable {P : UpdateOutcome → Prop}

theorem yields_giveUp {cause : CallError} {compensation : List (SystemProg (List CallError))}
    (h : ∀ e, P (state, some e)) : Yields P (giveUp state cause compensation) :=
  yields_bind (yields_of_forall (fun _ => trivial) _) fun _ _ => h _

/-- An update of the addresses changes nothing, or sets the addresses and the config. -/
theorem yields_updateDefaultTunAddrsLocked {addrs : List Prefix} {addedAddr : Option Prefix}
    (hstays : ∀ e, P (state, some e))
    (hnew : ∀ rc, state.routingConfig = some rc →
      validateDefaultTunSourceAddrs addrs rc.sourceRoutes = none →
      P ({ state with
        addrs := addrs
        routingConfig := some (setDefaultTunRoutingFamilies rc addrs state.routes) }, none)) :
    Yields P (updateDefaultTunAddrsLocked state addrs addedAddr) := by
  unfold updateDefaultTunAddrsLocked
  split
  · exact hstays _
  rename_i rc hrc
  split
  · exact hstays _
  rename_i hsource
  refine yields_call (fun _ => hstays _) fun oldAddrs => ?_
  refine yields_call (fun _ => hstays _) fun oldMainRoutes => ?_
  refine yields_call (fun _ => yields_giveUp hstays) fun _ => ?_
  refine yields_call (fun _ => yields_giveUp hstays) fun _ => ?_
  exact yields_call (fun _ => yields_giveUp hstays) fun _ => hnew rc hrc hsource

/-- An update of the routes changes nothing, or sets the routes and the config. -/
theorem yields_setDefaultTunRoutesLocked {routes : List Prefix} (hstays : ∀ e, P (state, some e))
    (hnew : ∀ rc, state.routingConfig = some rc → P ({ state with
        routes := routes
        routingConfig := some (setDefaultTunRoutingFamilies rc state.addrs routes) }, none)) :
    Yields P (setDefaultTunRoutesLocked state routes) := by
  unfold setDefaultTunRoutesLocked
  split
  · exact hstays _
  rename_i rc hrc
  refine yields_call (fun _ => hstays _) fun oldMainRoutes => ?_
  refine yields_call (fun _ => yields_giveUp hstays) fun _ => ?_
  exact yields_call (fun _ => yields_giveUp hstays) fun _ => hnew rc hrc

end Change

section BuiltUpdate

variable {s : Settings} {opts : DefaultTunOpts} {index : Int} {d : TunState}

/-- One more address is one more recorded address. -/
theorem BuiltFrom.mem_added (h : BuiltFrom s opts index d) {a p : Prefix} {addrs : List Prefix}
    (hnorm : normalizeTunAddrs ((d.addrs ++ [a]).map .ok) s.defaultTunCIDR d.dnsIP =
      .ok (addrs, d.dnsIP)) (hloop : a.addr.isLoopback = false) :
    p ∈ addrs ↔ p ∈ d.addrs ∨ p = a := by
  obtain ⟨fallback, ps, hf, hps, hout, -⟩ := normalizeTunAddrs_eq_ok hnorm
  have hps' : d.addrs ++ [a] = ps :=
    map_injective_iff.mpr (fun _ _ h => Except.ok.inj h) hps
  have hrecorded : tunAddrsOf fallback d.addrs = d.addrs := by
    have hagain := h.addrs
    rw [normalizeTunAddrs_map hf] at hagain
    exact (Prod.mk.inj (Except.ok.inj hagain)).1
  rw [hout, ← hps', mem_tunAddrsOf_add hrecorded hloop]

variable {rc : Config}

section

variable (h : BuiltFrom s opts index d)
include h

/-- New addresses that normalisation has returned and that keep all sources. -/
theorem BuiltFrom.setAddrs {given : List CIDR} {addrs : List Prefix}
    (hnorm : normalizeTunAddrs given s.defaultTunCIDR d.dnsIP = .ok (addrs, d.dnsIP))
    (hparsed : ∀ cidr ∈ given, Parsed cidr) (hrc : d.routingConfig = some rc)
    (hsources : validateDefaultTunSourceAddrs addrs rc.sourceRoutes = none) :
    BuiltFrom s opts index { d with
      addrs := addrs
      routingConfig := some (setDefaultTunRoutingFamilies rc addrs d.routes) } := by
  obtain ⟨sourceRoutes, hnormalized, hconfig⟩ := h.config
  obtain rfl := Option.some.inj (hconfig.symm.trans hrc)
  have hassigned := validateDefaultTunSourceAddrs_eq_none.mp hsources
  refine ⟨normalizeTunAddrs_again hnorm h.dns, h.dns, h.routes, ⟨sourceRoutes, ?_, ?_⟩,
    normalizeTunAddrs_valid hnorm hparsed, h.routes_valid⟩
  · exact scanSourceRoutes_reassigned hnormalized hassigned
  · rw [setDefaultTunRoutingFamilies_routingConfig]

theorem BuiltFrom.setRoutes {given : List CIDR} {routes : List Prefix}
    (hnorm : normalizeTunRoutes given = .ok routes) (hparsed : ∀ cidr ∈ given, Parsed cidr)
    (hrc : d.routingConfig = some rc) :
    BuiltFrom s opts index { d with
      routes := routes
      routingConfig := some (setDefaultTunRoutingFamilies rc d.addrs routes) } := by
  obtain ⟨sourceRoutes, hnormalized, hconfig⟩ := h.config
  obtain rfl := Option.some.inj (hconfig.symm.trans hrc)
  refine ⟨h.addrs, h.dns, normalizeTunRoutes_again hnorm, ⟨sourceRoutes, hnormalized, ?_⟩,
    h.addrs_valid, normalizeTunRoutes_valid hnorm hparsed⟩
  rw [setDefaultTunRoutingFamilies_routingConfig]

/-- Every update keeps the relation to the options, whatever its calls are answered. -/
theorem built_update {u : Update} (hparsed : u.Parsed) :
    Yields (fun out => BuiltFrom s opts index out.1) (s.update d u) := by
  have hchange : Change s.toSystem d (s.update d u) :=
    change_update h.addrs_valid h.routes_valid hparsed
  generalize s.update d u = p at hchange
  cases hchange with
  | stays => exact h
  | addrs addedAddr hnorm hgiven _ =>
    exact yields_updateDefaultTunAddrsLocked (fun _ => h)
      fun rc hrc hsources => h.setAddrs hnorm hgiven hrc hsources
  | routes hnorm hgiven =>
    exact yields_setDefaultTunRoutesLocked (fun _ => h) fun rc hrc => h.setRoutes hnorm hgiven hrc

theorem BuiltFrom.accepted (hmarks : s.MarksValid) (hindex : 0 < index)
    (hrc : d.routingConfig = some rc) : rc.validate = .ok () := by
  obtain ⟨sourceRoutes, hnormalized, hconfig⟩ := h.config
  obtain rfl := Option.some.inj (hconfig.symm.trans hrc)
  exact routingConfig_accepted hmarks opts hindex (normalizeTunSourceRoutes_fit hnormalized)

theorem update_applies_accepted (hmarks : s.MarksValid) (hindex : 0 < index) {u : Update}
    (hparsed : u.Parsed) :
    Issues (SystemCall.Carries fun config => config.validate = .ok ()) (s.update d u) := by
  have hold : ∀ rc, d.routingConfig = some rc → rc.validate = .ok () :=
    fun rc hrc => h.accepted hmarks hindex hrc
  have hchange : Change s.toSystem d (s.update d u) :=
    change_update h.addrs_valid h.routes_valid hparsed
  generalize s.update d u = p at hchange
  cases hchange with
  | stays => exact trivial
  | addrs addedAddr hnorm hgiven _ =>
    exact carries_updateDefaultTunAddrsLocked _ _ hold fun rc hrc hsources =>
      (h.setAddrs hnorm hgiven hrc hsources).accepted hmarks hindex rfl
  | routes hnorm hgiven =>
    exact carries_setDefaultTunRoutesLocked _ hold fun rc hrc =>
      (h.setRoutes hnorm hgiven hrc).accepted hmarks hindex rfl

end

end BuiltUpdate

/-- A `System` with all components, over the sample settings. -/
def sampleHost : HostSettings where
  toSettings := sampleSettings
  baseName := ""
  tunRules := true
  pmarkFeature := true
  killswitchFeature := true
  hasPmark := true
  hasRuleTracker := true
  hasKillswitch := true
  connmark := some ⟨true⟩
  connmarkRequired := false
  killswitchAllowExclude := true
  kernelPolicyController := true
  dnsInterfaceIndexer := true
  pmarkPriority := 10
  toMark := BitVec.setWidth 64
  closable := fun _ => true
  extraClosers := 1

end SysnetLinux.DefaultTun
