/-
  SysnetLinux.DefaultTun.Rebuild

  Dynamic updates of a default TUN come to the same as a build with the final addresses and
  routes.

  The world is the links of the TUNs, under a configurator that stores what it is given, and the
  applied routing config.  `BuiltOn` ties the recorded state to both; builds and updates that
  return nil keep it, and it determines all that the result compares.
-/

import SysnetLinux.DefaultTun.Built
import SysnetLinux.DefaultTun.Stages

namespace SysnetLinux.DefaultTun

open Netip Routing CallProg CallProg.Prog

/-! ## Links -/

/-- The links of the TUNs, and the config the routing manager has applied. -/
structure Links where
  addrs : Tun → Finset Prefix
  mainRoutes : Tun → Finset Prefix
  applied : Option Config
  index : Tun → Int

/-- The configurator stores what it is given; new addresses may bring routes.  What a
    failed call leaves is not said, for a call that fails makes its operation fail. -/
def storing : Handler HostCall HostReply CallError Links
  | .system (some t) (.setTunAddrs addrs), w, .ok _, w' =>
    w'.addrs = Function.update w.addrs t addrs.toFinset ∧ w'.applied = w.applied ∧
      w'.index = w.index
  | .system (some t) (.addTunAddr addr), w, .ok _, w' =>
    w'.addrs = Function.update w.addrs t (insert addr (w.addrs t)) ∧ w'.applied = w.applied ∧
      w'.index = w.index
  | .system (some t) (.setTunRoutes routes), w, .ok _, w' =>
    w' = { w with mainRoutes := Function.update w.mainRoutes t routes.toFinset }
  | .system _ (.apply config), w, .ok _, w' => w' = { w with applied := some config }
  | .system _ (.rollback _), w, .ok _, w' => w' = { w with applied := none }
  | .system _ .getTunAddrs, w, .ok _, w' => w' = w
  | .system _ .getTunRoutes, w, .ok _, w' => w' = w
  | .system _ _, w, _, w' => w'.index = w.index
  | .tunIndex (some t), w, .ok index, w' => index = w.index t ∧ w' = w
  | _, w, _, w' => w' = w

theorem storing_spares (kind : CallKind) (h : (kind != .link && kind != .routing) = true) :
    Spares storing kind := by
  rintro c rfl w r w' hr
  cases c with
  | system t c =>
    cases c with
    | _ => cases h
  | tunIndex t =>
    cases t with
    | none => exact hr
    | some t =>
      cases r with
      | ok index => exact hr.2
      | error e => exact hr
  | _ => exact hr

theorem storing_setTunMTU (t : Tun) (mtu : Int) : Idle storing (.setTunMTU t mtu) :=
  fun _ _ _ hr => hr

/-! ## The recorded state and its link -/

/-- The default TUN is recorded as a build with these options records it, and its link and
    the routing manager have what is recorded. -/
structure BuiltOn (s : Settings) (opts : DefaultTunOpts) (d : DefaultTunState) (t : Tun)
    (w : Links) : Prop where
  tun : d.tun = some t
  built : BuiltFrom s opts (w.index t) d.toTunState
  addrs : w.addrs t = d.addrs.toFinset
  mainRoutes : w.mainRoutes t = ∅
  applied : w.applied = d.routingConfig

/-- What the stages of a build have put on the link so far. -/
structure Linked (s : HostSettings) (input : BuildInput) (l : Build) : Prop where
  input_eq : l.input = input
  kept : l.tunRecreated = false → l.state.tun = some l.nativeTun

/-- The addresses are on the link, and no route of it is in the main table. -/
structure Addressed (s : HostSettings) (input : BuildInput) (l : Build) (w : Links) : Prop extends
    Linked s input l where
  addrs : w.addrs l.nativeTun = input.addrs.toFinset
  mainRoutes : w.mainRoutes l.nativeTun = ∅

/-- The routing manager has applied the config of the build. -/
structure Routed (s : HostSettings) (input : BuildInput) (l : Build) (w : Links) : Prop extends
    Addressed s input l w where
  index : l.index = w.index l.nativeTun
  applied : w.applied = some (s.buildConfig l)
  priority : s.tunRulesSupported = true → s.PriorityFits

section Build

variable {s : HostSettings} {input : BuildInput}

variable {l : Build} {w : Links}

theorem linked_configure (h : Linked s input l) {rest : List BuildStage} {Q : Build → Links → Prop}
    (hrest : ∀ l w, Addressed s input l w →
      wp storing Any (ends Q fun _ _ => True) (inTurn rest l) w) :
    wp storing Any (ends Q fun _ _ => True)
      (inTurn ((step fun l => .setTunMTU l.nativeTun l.input.opts.mtu) ::
        (step fun l => .system (some l.nativeTun) (.setTunAddrs l.input.addrs)) ::
        (step fun l => .system (some l.nativeTun) (.setTunRoutes [])) :: rest) l) w := by
  refine Stage.cons (P := fun l _ => Linked s input l) (Q := fun l _ => Linked s input l)
    (fun l w h => ?_) (Stage.cons
      (Q := fun l w => Linked s input l ∧ w.addrs l.nativeTun = input.addrs.toFinset)
      (fun l w h => ?_) (Stage.cons (Q := Addressed s input) (fun l w h => ?_)
        fun l w h => hrest l w h)) l w h
  · exact idle_step (storing_setTunMTU _ _) h fun _ => trivial
  · refine wp_call_cases (fun _ _ _ => trivial) fun v w' ⟨haddrs, _, _⟩ => ⟨h, ?_⟩
    rw [haddrs, Function.update_self, h.input_eq]
  · refine wp_call_cases (fun _ _ _ => trivial) fun v w' hr => ?_
    obtain rfl := hr
    exact ⟨h.1, h.2, Function.update_self ..⟩

theorem addressed_of_eq {l' : Build} (h : Addressed s input l w) (hinput : l'.input = l.input)
    (htun : l'.state.tun = l.state.tun) (hnative : l'.nativeTun = l.nativeTun)
    (hrecreated : l'.tunRecreated = l.tunRecreated) :
    Addressed s input l' w where
  input_eq := hinput.trans h.input_eq
  kept := by rw [hrecreated, htun, hnative]; exact h.kept
  addrs := hnative ▸ h.addrs
  mainRoutes := hnative ▸ h.mainRoutes

/-- The stages of a build leave the link as the result compares it. -/
theorem routed_stages (h : Linked s input l) : wp storing Any
      (ends (fun l w => Routed s input l w ∧ s.ConnmarkWorks) fun _ _ => True)
      (inTurn s.stages l) w := by
  have hspares := storing_spares
  refine linked_configure h fun l w h => ?_
  refine Stage.cons (P := Addressed s input) (Q := Addressed s input) (fun l w h => ?_)
    (Stage.cons (Q := Addressed s input) (fun l w h => ?_) (Stage.cons
      (Q := fun l w => Addressed s input l w ∧ (s.tunRulesSupported = true → s.PriorityFits))
      (fun l w h => ?_) (Stage.cons
        (Q := fun l w => Addressed s input l w ∧ (s.tunRulesSupported = true → s.PriorityFits))
        (fun l w h => ?_) ?_))) l w h
  · exact idle_closeOldServer (hspares .server rfl) h
      (addressed_of_eq h rfl rfl rfl rfl) fun _ => trivial
  · exact idle_listenDNS (hspares .server rfl) h
      (fun _ => addressed_of_eq h rfl rfl rfl rfl) fun _ => trivial
  · exact idle_compileRules (hspares .rules rfl)
      (fun _ hfits _ _ => ⟨addressed_of_eq h rfl rfl rfl rfl, fun _ => hfits⟩)
      (fun hnot => ⟨h, fun hyes => absurd (hyes.symm.trans hnot) nofun⟩) fun _ => trivial
  · exact idle_installChecker (hspares .checker rfl) h
      (fun _ => ⟨addressed_of_eq h.1 rfl rfl rfl rfl, h.2⟩) (fun _ => trivial) fun _ => trivial
  refine Stage.cons (Q := fun l w => Addressed s input l w ∧
      (s.tunRulesSupported = true → s.PriorityFits) ∧ l.index = w.index l.nativeTun)
    (fun l w h => ?_) (Stage.cons (Q := fun l w => Addressed s input l w ∧
      (s.tunRulesSupported = true → s.PriorityFits) ∧ l.index = w.index l.nativeTun)
      (fun l w h => ?_) (Stage.cons (Q := Routed s input) (fun l w h => ?_) ?_))
  · refine wp_call_cases (fun _ _ _ => trivial) fun index w' hr => ?_
    obtain ⟨hindex, rfl⟩ := hr
    exact ⟨addressed_of_eq h.1 rfl rfl rfl rfl, h.2, hindex⟩
  · exact idle_setDefaultTunDNSInterface (hspares .dnsIndex rfl) h
      ⟨addressed_of_eq h.1 rfl rfl rfl rfl, h.2⟩ fun _ => trivial
  · refine wp_call_cases (fun _ w' _ => (wp_bind _ _).mpr (wp_of_forall (fun _ _ => trivial) _ _))
      fun v w' hr => ?_
    obtain rfl := hr
    exact ⟨addressed_of_eq ⟨h.1.toLinked, h.1.addrs, h.1.mainRoutes⟩ rfl rfl rfl rfl, h.2.2,
      rfl, h.2.1⟩
  refine Stage.cons (Q := fun l w => Routed s input l w ∧ s.ConnmarkWorks) (fun l w h => ?_)
    (Stage.cons (Q := fun l w => Routed s input l w ∧ s.ConnmarkWorks) (fun l w h => ?_)
      (Stage.cons (Q := fun l w => Routed s input l w ∧ s.ConnmarkWorks) (fun l w h => ?_)
        Stage.nil))
  · exact idle_applyConnmark (hspares .connmark rfl)
      (fun hworks _ => ⟨⟨addressed_of_eq h.toAddressed rfl rfl rfl rfl, h.index, h.applied,
        h.priority⟩, hworks⟩) fun _ => trivial
  · exact idle_step (hspares .dns rfl _ rfl) h fun _ => trivial
  · exact idle_updateKillswitch (hspares .killswitch rfl) h
      (fun _ => ⟨⟨addressed_of_eq h.1.toAddressed rfl rfl rfl rfl, h.1.index, h.1.applied,
        h.1.priority⟩, h.2⟩) fun _ => trivial

/-- What a build that returned nil has established. -/
structure BuildDone (s : HostSettings) (opts : DefaultTunOpts) (m : Memory) (w : Links) :
    Prop where
  opened : m.closed = false
  priority : s.tunRulesSupported = true → s.PriorityFits
  connmark : s.ConnmarkWorks
  built : ∃ d t, m.defaultTun = some d ∧ BuiltOn s.toSettings opts d t w

/-- What is recorded is what the options were normalised to. -/
def Records (input : BuildInput) (m : Memory) : Prop :=
  ∀ d, m.defaultTun = some d →
    d.addrs = input.addrs ∧ d.routes = input.routes ∧ d.dnsIP = input.dnsIP

theorem done_buildOn {m : Memory} (hinput : input.Checked s.toSettings) (h : Linked s input l)
    (hopen : m.closed = false) :
    wp storing Any
      (fun out w' => out.2 = none → BuildDone s input.opts out.1 w' ∧ Records input out.1)
      (s.buildOn m l) w := by
  unfold HostSettings.buildOn
  rw [wp_bind]
  refine wp_post (fun r w' hr => ?_) (routed_stages h)
  cases r with
  | error failed =>
    simp only
    rw [wp_bind]
    exact wp_of_forall (fun _ _ hnil => absurd hnil nofun) _ _
  | ok l' =>
    obtain ⟨hrouted, hworks⟩ := hr
    have hspares := storing_spares
    refine wp_bind_idle (issues_releaseReplaced (hspares .registry rfl)
      (hspares .tun rfl) (hspares .rules rfl)
      (hspares .server rfl) s l') fun _ _ => ?_
    refine ⟨⟨hopen, hrouted.priority, hworks, _, l'.nativeTun, rfl,
      ?_, ?_, ?_, hrouted.mainRoutes, hrouted.applied⟩, ?_⟩
    · show (if l'.tunRecreated then some l'.nativeTun else l'.state.tun) = some l'.nativeTun
      cases hrecreated : l'.tunRecreated with
      | true => rfl
      | false => exact hrouted.kept hrecreated
    · rw [← hrouted.index, ← hrouted.input_eq]
      exact built_of_input (hrouted.input_eq ▸ hinput) l'.index
    · show w'.addrs l'.nativeTun = l'.input.addrs.toFinset
      rw [hrouted.input_eq]
      exact hrouted.addrs
    · intro d hd
      obtain rfl := Option.some.inj hd
      rw [← hrouted.input_eq]
      exact ⟨rfl, rfl, rfl⟩

end Build

theorem done_buildDefaultTun {s : HostSettings} {m : Memory} {opts : DefaultTunOpts}
    {activeName : String} {w : Links} :
    wp storing Any (fun out w' => out.2 = none → BuildDone s opts out.1 w' ∧
        ∃ input, s.buildInput opts activeName = .ok input ∧ Records input out.1)
      (s.buildDefaultTun m opts activeName) w := by
  have hspares := storing_spares
  have hon : ∀ {m : Memory} {l : Build} {input : BuildInput},
      s.buildInput opts activeName = .ok input → Linked s input l → m.closed = false →
      wp storing Any (fun out w' => out.2 = none → BuildDone s opts out.1 w' ∧
          ∃ input, s.buildInput opts activeName = .ok input ∧ Records input out.1)
        (s.buildOn m l) w := by
    intro m l input hinput hlinked hopen
    obtain ⟨-, hopts, hchecked⟩ := buildInput_ok hinput
    refine wp_post (fun out w' hout hnil => ?_) (done_buildOn hchecked hlinked hopen)
    obtain ⟨hdone, hrecords⟩ := hout hnil
    exact ⟨hopts ▸ hdone, input, hinput, hrecords⟩
  refine idle_buildDefaultTun (hspares .tun rfl) (hspares .index rfl) (hspares .registry rfl)
    (fun _ hnil => absurd hnil nofun) ?_ ?_ ?_
  · exact fun input t hinput hopen _ => hon hinput ⟨rfl, fun _ => rfl⟩ hopen
  · exact fun input state t hinput hopen _ ht => hon hinput ⟨rfl, fun _ => ht⟩ hopen
  · exact fun input state t hinput hopen _ => hon hinput ⟨rfl, fun h => absurd h nofun⟩ hopen

/-! ## Updates -/

/-- The world of an update of the TUN `t`. -/
abbrev storingOn (t : Tun) : Handler SystemCall SystemReply CallError Links :=
  pull (HostCall.system (some t)) (fun _ r => r) storing

section Update

variable {t : Tun} {state : TunState} {w : Links}

theorem storingOn_iff {c : SystemCall} {r : Except CallError (SystemReply c)} {w' : Links} :
    storingOn t c w r w' ↔ storing (.system (some t) c) w r w' :=
  ⟨fun ⟨_, h, heq⟩ => heq ▸ h, fun h => ⟨r, h, rfl⟩⟩

/-- An update that gives up does not return nil. -/
theorem stored_giveUp {H : Handler SystemCall SystemReply CallError Links}
    {P : UpdateOutcome → Links → Prop} {cause : CallError}
    {compensation : List (SystemProg (List CallError))} :
    wp H Any (fun out w' => out.2 = none → P out w') (giveUp state cause compensation) w :=
  wp_of_yields (yields_giveUp fun _ _ hnil => absurd hnil nofun) w

/-- The link and the config behind an update that returned nil. -/
structure Stored (t : Tun) (w w' : Links) (addrs : Finset Prefix) (rc : Config) : Prop where
  addrs : w'.addrs t = addrs
  mainRoutes : w'.mainRoutes t = ∅
  applied : w'.applied = some rc
  index : w'.index = w.index

theorem stored_updateDefaultTunAddrsLocked {addrs : List Prefix} {addedAddr : Option Prefix} :
    wp (storingOn t) Any (fun out w' => out.2 = none → ∃ rc, state.routingConfig = some rc ∧
        validateDefaultTunSourceAddrs addrs rc.sourceRoutes = none ∧
        out.1 = { state with
          addrs := addrs
          routingConfig := some (setDefaultTunRoutingFamilies rc addrs state.routes) } ∧
        Stored t w w' (addedAddr.elim addrs.toFinset fun a => insert a (w.addrs t))
          (setDefaultTunRoutingFamilies rc addrs state.routes))
      (updateDefaultTunAddrsLocked state addrs addedAddr) w := by
  unfold updateDefaultTunAddrsLocked
  split
  · exact nofun
  rename_i rc hrc
  split
  · exact nofun
  rename_i hsource
  refine wp_call_cases (fun _ _ _ => nofun) fun oldAddrs w₁ hr => ?_
  obtain rfl : w₁ = w := storingOn_iff.mp hr
  refine wp_call_cases (fun _ _ _ => nofun) fun oldMainRoutes w₂ hr => ?_
  obtain rfl : w₂ = w₁ := storingOn_iff.mp hr
  refine wp_call_cases (fun _ _ _ => stored_giveUp) fun v w₃ hr => ?_
  have hset : w₃.addrs t = (addedAddr.elim addrs.toFinset fun a => insert a (w₂.addrs t)) ∧
      w₃.index = w₂.index := by
    cases addedAddr with
    | none | some a =>
      obtain ⟨haddrs, -, hindex⟩ := storingOn_iff.mp hr
      exact ⟨by rw [haddrs]; exact Function.update_self .., hindex⟩
  refine wp_call_cases (fun _ _ _ => stored_giveUp) fun v w₄ hr => ?_
  obtain rfl := storingOn_iff.mp hr
  refine wp_call_cases (fun _ _ _ => stored_giveUp) fun v w₅ hr => ?_
  obtain rfl := storingOn_iff.mp hr
  exact fun _ => ⟨rc, hrc, hsource, rfl, hset.1, Function.update_self .., rfl, hset.2⟩

theorem stored_setDefaultTunRoutesLocked {routes : List Prefix} : wp (storingOn t) Any
      (fun out w' => out.2 = none → ∃ rc, state.routingConfig = some rc ∧ out.1 = { state with
          routes := routes
          routingConfig := some (setDefaultTunRoutingFamilies rc state.addrs routes) } ∧
        Stored t w w' (w.addrs t) (setDefaultTunRoutingFamilies rc state.addrs routes))
      (setDefaultTunRoutesLocked state routes) w := by
  unfold setDefaultTunRoutesLocked
  split
  · exact nofun
  rename_i rc hrc
  refine wp_call_cases (fun _ _ _ => nofun) fun oldMainRoutes w₁ hr => ?_
  obtain rfl : w₁ = w := storingOn_iff.mp hr
  refine wp_call_cases (fun _ _ _ => stored_giveUp) fun v w₂ hr => ?_
  obtain rfl := storingOn_iff.mp hr
  refine wp_call_cases (fun _ _ _ => stored_giveUp) fun v w₃ hr => ?_
  obtain rfl := storingOn_iff.mp hr
  exact fun _ => ⟨rc, hrc, rfl, rfl, Function.update_self .., rfl, rfl⟩

end Update

section Updated

variable {s : HostSettings} {opts : DefaultTunOpts}

/-- The addresses behind an update are those that are recorded. -/
theorem added_toFinset {d : DefaultTunState} {t : Tun} {w : Links} {given : List CIDR}
    {addrs : List Prefix} {addedAddr : Option Prefix} (h : BuiltOn s.toSettings opts d t w)
    (hnorm : normalizeTunAddrs given s.defaultTunCIDR d.dnsIP = .ok (addrs, d.dnsIP))
    (hadded : ∀ a, addedAddr = some a → given = (d.addrs ++ [a]).map .ok ∧
      a.addr.isLoopback = false ∧ a ∉ d.addrs) :
    (addedAddr.elim addrs.toFinset fun a => insert a (w.addrs t)) = addrs.toFinset := by
  cases addedAddr with
  | none => rfl
  | some a =>
    obtain ⟨rfl, hloop, -⟩ := hadded a rfl
    ext p
    simp only [Option.elim_some, h.addrs, Finset.mem_insert, List.mem_toFinset]
    rw [h.built.mem_added hnorm hloop]
    exact or_comm

theorem builtOn_update {m : Memory} {d : DefaultTunState} {t : Tun} {w : Links} {handle : Nat}
    {u : Update} (hd : m.defaultTun = some d) (h : BuiltOn s.toSettings opts d t w)
    (hparsed : u.Parsed) :
    wp storing Any (fun out w' => out.2 = none → ∃ d', out.1 = { m with defaultTun := some d' } ∧
        BuiltOn s.toSettings opts d' t w')
      (s.updateDefaultTun m handle u) w := by
  refine wp_updateDefaultTun (fun _ => nofun) fun d' t' howned ht' => wp_embed.mpr ?_
  obtain rfl : d' = d := Option.some.inj ((Memory.owned_some howned).1.symm.trans hd)
  obtain rfl := Option.some.inj (h.tun.symm.trans ht')
  have hchange : Change s.toSystem d'.toTunState (s.update d'.toTunState u) :=
    change_update h.built.addrs_valid h.built.routes_valid hparsed
  generalize s.update d'.toTunState u = p at hchange
  cases hchange with
  | stays =>
    rename_i err
    exact fun _ => ⟨d', rfl, h⟩
  | addrs addedAddr hnorm hgiven hadded =>
    refine wp_post (fun out w' hout => ?_) stored_updateDefaultTunAddrsLocked
    intro hnil
    obtain ⟨rc, hrc, hsources, hstate, hstored⟩ := hout (by simpa using hnil)
    refine ⟨_, rfl, h.tun, ?_, ?_, hstored.mainRoutes, ?_⟩
    · rw [hstate, hstored.index]
      exact h.built.setAddrs hnorm hgiven hrc hsources
    · rw [hstate, hstored.addrs, added_toFinset h hnorm hadded]
    · rw [hstate, hstored.applied]
  | routes hnorm hgiven =>
    refine wp_post (fun out w' hout => ?_) stored_setDefaultTunRoutesLocked
    intro hnil
    obtain ⟨rc, hrc, hstate, hstored⟩ := hout (by simpa using hnil)
    refine ⟨_, rfl, h.tun, ?_, ?_, hstored.mainRoutes, ?_⟩
    · rw [hstate, hstored.index]
      exact h.built.setRoutes hnorm hgiven hrc
    · rw [hstate, hstored.addrs, h.addrs]
    · rw [hstate, hstored.applied]

end Updated

/-- Updates one after the other, each of which returns nil. -/
def Updated (s : HostSettings) : Memory × Links → Memory × Links → Prop :=
  Relation.ReflTransGen fun x y =>
    ∃ handle u tr, Update.Parsed u ∧
      Exec storing (s.updateDefaultTun x.1 handle u) x.2 tr (y.1, none) y.2

theorem Updated.done {s : HostSettings} {opts : DefaultTunOpts} {x y : Memory × Links}
    (h : Updated s x y) (hdone : BuildDone s opts x.1 x.2) : BuildDone s opts y.1 y.2 := by
  induction h with
  | refl => exact hdone
  | tail _ hlast ih =>
    obtain ⟨handle, u, tr, hparsed, hex⟩ := hlast
    obtain ⟨hopen, hpriority, hworks, d, t, hd, hbuilt⟩ := ih
    obtain ⟨d', hmem, hbuilt'⟩ := (wp_sound hex (builtOn_update hd hbuilt hparsed)).2 rfl
    exact ⟨(congrArg Memory.closed hmem).trans hopen, hpriority, hworks, d', t,
      congrArg Memory.defaultTun hmem, hbuilt'⟩

/-! ## The same as a build -/

/-- Options that ask for the recorded addresses, routes and DNS address, and for
    everything else as before. -/
structure DefaultTunOpts.Asks (opts' opts : DefaultTunOpts) (d : TunState) : Prop where
  tunAddrs : opts'.tunAddrs = d.addrs.map .ok
  tunRoutes : opts'.tunRoutes = d.routes.map .ok
  dnsIP : opts'.dnsIP = d.dnsIP
  name : opts'.name = opts.name
  sourceRoutes : opts'.sourceRoutes = opts.sourceRoutes
  mtu : opts'.mtu = opts.mtu
  strict : opts'.strict = opts.strict
  include_ : opts'.include_ = opts.include_
  exclude : opts'.exclude = opts.exclude

/-- Two default TUNs, each with its link: the same addresses, routes and DNS address, the
    same addresses on the link and no route of it in the main table; on a link with the
    same index also the same config. -/
structure SameTun (d : DefaultTunState) (t : Tun) (w : Links) (d' : DefaultTunState) (t' : Tun)
    (w' : Links) : Prop where
  addrs : d'.addrs = d.addrs
  routes : d'.routes = d.routes
  dnsIP : d'.dnsIP = d.dnsIP
  linkAddrs : w'.addrs t' = w.addrs t
  mainRoutes : w'.mainRoutes t' = ∅ ∧ w.mainRoutes t = ∅
  config : w'.index t' = w.index t →
    d'.routingConfig = d.routingConfig ∧ w'.applied = w.applied

section Rebuild

variable {s : HostSettings} {opts opts' : DefaultTunOpts} {d : DefaultTunState} {t : Tun}
  {w : Links}

/-- The normalisations return what is recorded. -/
theorem asks_normalized (h : BuiltOn s.toSettings opts d t w)
    (hasks : opts'.Asks opts d.toTunState) :
    normalizeTunAddrs opts'.tunAddrs s.defaultTunCIDR opts'.dnsIP = .ok (d.addrs, d.dnsIP) ∧
      normalizeTunRoutes opts'.tunRoutes = .ok d.routes ∧
      ∃ sourceRoutes, normalizeTunSourceRoutes d.addrs opts'.sourceRoutes = .ok sourceRoutes := by
  obtain ⟨sourceRoutes, hsources, -⟩ := h.built.config
  refine ⟨?_, ?_, sourceRoutes, ?_⟩
  · rw [hasks.tunAddrs, hasks.dnsIP]
    exact h.built.addrs
  · rw [hasks.tunRoutes]
    exact h.built.routes
  · rw [hasks.sourceRoutes]
    exact hsources

theorem sameTun_of_done {m' : Memory} {w' : Links} {activeName : String} {input : BuildInput}
    (h : BuiltOn s.toSettings opts d t w) (hasks : opts'.Asks opts d.toTunState)
    (hdone : BuildDone s opts' m' w') (hinput : s.buildInput opts' activeName = .ok input)
    (hrecords : Records input m') :
    ∃ d' t', m'.defaultTun = some d' ∧ d'.tun = some t' ∧ SameTun d t w d' t' w' := by
  obtain ⟨-, -, -, d', t', hd', hbuilt'⟩ := hdone
  obtain ⟨-, hopts, hchecked⟩ := buildInput_ok hinput
  obtain ⟨haddrs, hroutes, hdns⟩ := hrecords d' hd'
  obtain ⟨hnormAddrs, hnormRoutes, -⟩ := asks_normalized h hasks
  -- The normalisations are functions of the options.
  have haddrs' := hchecked.addrs
  have hroutes' := hchecked.routes
  rw [hopts, hnormAddrs] at haddrs'
  rw [hopts, hnormRoutes] at hroutes'
  obtain ⟨heqAddrs, heqDNS⟩ := Prod.mk.inj (Except.ok.inj haddrs')
  have hsame : d'.addrs = d.addrs := haddrs.trans heqAddrs.symm
  have hsame' : d'.routes = d.routes := hroutes.trans (Except.ok.inj hroutes').symm
  refine ⟨d', t', hd', hbuilt'.tun, hsame, hsame', hdns.trans heqDNS.symm, ?_,
    ⟨hbuilt'.mainRoutes, h.mainRoutes⟩, fun hindex => ?_⟩
  · rw [hbuilt'.addrs, h.addrs, hsame]
  · obtain ⟨sourceRoutes, hsources, hconfig⟩ := h.built.config
    obtain ⟨sourceRoutes', hsources', hconfig'⟩ := hbuilt'.built.config
    rw [hsame, hasks.sourceRoutes, hsources] at hsources'
    have hrc : d'.routingConfig = d.routingConfig := by
      rw [hconfig, hconfig', ← Except.ok.inj hsources', hsame, hsame', hindex]
      simp only [Settings.routingConfig, hasks.strict, hasks.include_]
    exact ⟨hrc, by rw [hbuilt'.applied, h.applied, hrc]⟩

theorem asks_exists (h : BuiltOn s.toSettings opts d t w) :
    ∃ opts' : DefaultTunOpts, opts'.Asks opts d.toTunState := by
  refine ⟨{ opts with
    tunAddrs := d.addrs.map .ok
    tunRoutes := d.routes.map .ok
    dnsIP := d.dnsIP
    addrs_parsed := ?_
    routes_parsed := ?_ }, rfl, rfl, rfl, rfl, rfl, rfl, rfl, rfl, rfl⟩
  · intro cidr hcidr p hp
    obtain ⟨q, hq, rfl⟩ := List.mem_map.mp hcidr
    exact h.built.addrs_valid p (Except.ok.inj hp ▸ hq)
  · intro cidr hcidr p hp
    obtain ⟨q, hq, rfl⟩ := List.mem_map.mp hcidr
    exact h.built.routes_valid p (Except.ok.inj hp ▸ hq)

theorem buildInput_of_check {activeName : String} (h : s.checkDefaultTunOpts opts activeName = []) :
    ∃ input, s.buildInput opts activeName = .ok input := by
  obtain ⟨addrs, dnsIP, routes, sourceRoutes, haddrs, hdns, hroutes, hsources⟩ :=
    checkDefaultTunOpts_ok h
  refine ⟨⟨opts, addrs, dnsIP, routes, sourceRoutes⟩, ?_⟩
  simp only [HostSettings.buildInput, h, haddrs, hdns, hroutes, hsources]
  rfl

/-- A build that returns nil, then updates that return nil: options that ask for the
    addresses and routes behind them pass normalisation; a build with them that returns
    nil, from any state, gives the same default TUN; and it does return nil on this one if
    its check has no issue and none of its calls fails. -/
theorem rebuild_matches_updates {activeName : String} {m₀ m₁ m : Memory} {w₀ w₁ : Links}
    {tr : List (Event HostCall Links)}
    (hbuild : Exec storing (s.buildDefaultTun m₀ opts activeName) w₀ tr (m₁, none) w₁)
    (hupdates : Updated s (m₁, w₁) (m, w)) :
    ∃ d t opts', m.defaultTun = some d ∧ d.tun = some t ∧
      DefaultTunOpts.Asks opts' opts d.toTunState ∧
      (normalizeTunAddrs opts'.tunAddrs s.defaultTunCIDR opts'.dnsIP = .ok (d.addrs, d.dnsIP) ∧
        normalizeTunRoutes opts'.tunRoutes = .ok d.routes ∧
        ∃ sourceRoutes, normalizeTunSourceRoutes d.addrs opts'.sourceRoutes = .ok sourceRoutes) ∧
      (∀ name m₂ w₂ tr' m' w',
        Exec storing (s.buildDefaultTun m₂ opts' name) w₂ tr' (m', none) w' →
        ∃ d' t', m'.defaultTun = some d' ∧ d'.tun = some t' ∧ SameTun d t w d' t' w') ∧
      ∀ name tr' out w', s.checkDefaultTunOpts opts' name = [] →
        Exec (answered storing) (s.buildDefaultTun m opts' name) w tr' out w' →
        out.2 = none := by
  obtain ⟨hfirst, -⟩ := (wp_sound hbuild done_buildDefaultTun).2 rfl
  obtain ⟨hopen, hpriority, hworks, d, t, hd, hbuilt⟩ := hupdates.done hfirst
  obtain ⟨opts', hasks⟩ := asks_exists hbuilt
  refine ⟨d, t, opts', hd, hbuilt.tun, hasks, asks_normalized hbuilt hasks, ?_, ?_⟩
  · intro name m₂ w₂ tr' m' w' hex
    obtain ⟨hdone, input, hinput, hrecords⟩ := (wp_sound hex done_buildDefaultTun).2 rfl
    exact sameTun_of_done hbuilt hasks hdone hinput hrecords
  · intro name tr' out w' hcheck hex
    obtain ⟨input, hinput⟩ := buildInput_of_check hcheck
    refine (wp_sound hex (succeeds_buildDefaultTun hpriority hworks hinput hopen ?_ w)).2
    intro d' hd'
    obtain rfl := Option.some.inj (hd.symm.trans hd')
    simp [hbuilt.tun]

end Rebuild

/-! ## A history -/

/-- A world in which every call succeeds. -/
def storeWell (c : HostCall) (_ : Unit) (w : Links) : Except CallError (HostReply c) × Links :=
  match c with
  | .system (some t) (.setTunAddrs addrs) =>
    (.ok (), { w with addrs := Function.update w.addrs t addrs.toFinset })
  | .system (some t) (.addTunAddr addr) =>
    (.ok (), { w with addrs := Function.update w.addrs t (insert addr (w.addrs t)) })
  | .system (some t) (.setTunRoutes routes) =>
    (.ok (), { w with mainRoutes := Function.update w.mainRoutes t routes.toFinset })
  | .system _ (.apply config) => (.ok (), { w with applied := some config })
  | .system _ (.rollback _) => (.ok (), { w with applied := none })
  | .tunIndex (some t) => (.ok (w.index t), w)
  | c => (.ok (c.goodReply 0), w)

theorem storing_storeWell (c : HostCall) (f : Unit) (w : Links) :
    storing c w (storeWell c f w).1 (storeWell c f w).2 := by
  cases c with
  | system t c =>
    cases t with
    | none =>
      cases c with
      | _ => rfl
    | some t =>
      cases c with
      | setTunAddrs addrs | addTunAddr addr => exact ⟨rfl, rfl, rfl⟩
      | _ => rfl
  | tunIndex t =>
    cases t with
    | none => rfl
    | some t => exact ⟨rfl, rfl⟩
  | _ => rfl

/-- The memory, the error and the world behind an operation in this world. -/
def storedBehind (s : HostSettings) (op : HostOp) (x : Memory × Links) :
    (Memory × Option Failure) × Links :=
  (play storeWell () (s.perform x.1 op) [] x.2).2

theorem exec_storedBehind (s : HostSettings) (op : HostOp) (x : Memory × Links)
    {err : Option Failure} (h : (storedBehind s op x).1.2 = err) :
    ∃ tr, Exec storing (s.perform x.1 op) x.2 tr ((storedBehind s op x).1.1, err)
      (storedBehind s op x).2 := by
  subst h
  exact ⟨_, play_exec storing_storeWell (s.perform x.1 op) [] x.2⟩

def emptyLinks : Links := ⟨fun _ => ∅, fun _ => ∅, none, fun _ => 10⟩

/-- A build, and an address that is added to it. -/
def storedBuild : (Memory × Option Failure) × Links :=
  storedBehind sampleHost (.build dualOpts "") (.initial, emptyLinks)

def storedUpdate : (Memory × Option Failure) × Links :=
  storedBehind sampleHost (.update 1 (.addTunAddr (.ok (Prefix.ofV4 0x0a000002#32 24))))
    (storedBuild.1.1, storedBuild.2)

theorem exec_storedBuild : ∃ tr, Exec storing (sampleHost.buildDefaultTun .initial dualOpts "")
    emptyLinks tr (storedBuild.1.1, none) storedBuild.2 :=
  exec_storedBehind sampleHost (.build dualOpts "") (.initial, emptyLinks)
    (show storedBuild.1.2 = none by decide +kernel)

theorem updated_storedUpdate : Updated sampleHost (storedBuild.1.1, storedBuild.2)
    (storedUpdate.1.1, storedUpdate.2) := by
  obtain ⟨tr, hex⟩ := exec_storedBehind sampleHost
    (.update 1 (.addTunAddr (.ok (Prefix.ofV4 0x0a000002#32 24))))
    (storedBuild.1.1, storedBuild.2) (show storedUpdate.1.2 = none by decide +kernel)
  refine Relation.ReflTransGen.single ⟨1, _, tr, ?_, hex⟩
  intro p hp
  rw [← Except.ok.inj hp]
  decide

theorem rebuild_matches_updates_sample :
    (storedUpdate.1.1.defaultTun.map fun d => d.addrs.length) = some 4 ∧
      ∃ d t opts', storedUpdate.1.1.defaultTun = some d ∧
        DefaultTunOpts.Asks opts' dualOpts d.toTunState ∧
        ∀ name m₂ w₂ tr m' w',
          Exec storing (sampleHost.buildDefaultTun m₂ opts' name) w₂ tr (m', none) w' →
          ∃ d' t', m'.defaultTun = some d' ∧ SameTun d t storedUpdate.2 d' t' w' := by
  refine ⟨by decide +kernel, ?_⟩
  obtain ⟨tr, hbuild⟩ := exec_storedBuild
  obtain ⟨d, t, opts', hd, -, hasks, -, hsame, -⟩ :=
    rebuild_matches_updates hbuild updated_storedUpdate
  refine ⟨d, t, opts', hd, hasks, fun name m₂ w₂ tr m' w' hex => ?_⟩
  obtain ⟨d', t', hd', -, h⟩ := hsame name m₂ w₂ tr m' w' hex
  exact ⟨d', t', hd', h⟩

end SysnetLinux.DefaultTun
