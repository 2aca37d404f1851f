/-
  SysnetLinux.DefaultTun.LinkAddrs

  The recorded addresses of a default TUN and the addresses of its link.

  The world is the links of the TUNs under the address reconciliation of the `tun` package; every
  other call may fail.  Without an `AddTunAddr` of an address that is recorded with another
  length, the link holds what is recorded in every state between calls (`link_holds_recorded`).
-/

import SysnetLinux.DefaultTun.Representation
import SysnetLinux.Tun.Reconcile

namespace SysnetLinux.DefaultTun

open Netip Routing CallProg CallProg.Prog TunAddress List

/-! ## The configurator -/

/-- The links of the TUNs; that of a TUN that is created later has the addresses it will
    be created with. -/
abbrev TunLinks := Tun → AddrStore

/-- A program of the `tun` package on the link of a TUN. -/
def TunLinks.Configures (w : TunLinks) (t : Tun) (p : AddrProg String Unit) (failed : Bool)
    (w' : TunLinks) : Prop :=
  failed = isError ((w t).run p).1 ∧ w' = Function.update w t ((w t).run p).2

/-- The configurator is the `tun` package; every other call leaves the addresses alone. -/
def reconciling : Handler HostCall HostReply CallError TunLinks
  | .system (some t) (.setTunAddrs addrs), w, r, w' =>
    w.Configures t (setTunAddrPrefixes addrs) (isError r) w'
  | .system (some t) (.addTunAddr addr), w, r, w' =>
    w.Configures t (addTunAddrPrefix addr) (isError r) w'
  | .system (some t) .getTunAddrs, w, .ok addrs, w' => addrs = (w t).prefixes ∧ w' = w
  | _, w, _, w' => w' = w

theorem reconciling_spares (kind : CallKind) (h : (kind != .link) = true) :
    Spares reconciling kind := by
  rintro c rfl w r w' hr
  cases c with
  | system t c =>
    cases c with
    | apply | rollback => cases t <;> exact hr
    | _ => cases h
  | _ => exact hr

theorem reconciling_setTunMTU (t : Tun) (mtu : Int) : Idle reconciling (.setTunMTU t mtu) :=
  fun _ _ _ hr => hr

theorem reconciling_setTunRoutes (t : Option Tun) (routes : List Prefix) :
    Idle reconciling (.system t (.setTunRoutes routes)) := by
  intro w r w' hr
  cases t <;> exact hr

/-- The link of a TUN holds these addresses, each with one length. -/
def TunLinks.Holds (w : TunLinks) (t : Tun) (addrs : List Prefix) : Prop :=
  OneLength addrs ∧ Matches addrs (w t).addrs

variable {w w' : TunLinks} {t : Tun} {p : Prefix} {s : Settings} {opts : DefaultTunOpts}
    {index : Int} {d : TunState} {G : Memory → HostOp → Prop}

theorem TunLinks.Configures.ok {p : AddrProg String Unit} (h : w.Configures t p false w') :
    (w t).run p = (.ok (), w' t) := by
  obtain ⟨hok, rfl⟩ := h
  rw [Function.update_self]
  cases hrun : (w t).run p with
  | mk r store =>
    rw [hrun] at hok
    cases r with
    | error e => cases hok
    | ok v => rfl

theorem TunLinks.holds_of_set {addrs : List Prefix}
    (h : w.Configures t (setTunAddrPrefixes addrs) false w') : w'.Holds t addrs :=
  run_setTunAddrPrefixes_ok h.ok

/-- One more address, which is new. -/
theorem TunLinks.Holds.add {addrs addrs' : List Prefix} {a : Prefix} (h : w.Holds t addrs)
    (hnew : ∀ q ∈ addrs, q.addr ≠ a.addr) (hmem : ∀ p, p ∈ addrs' ↔ p ∈ addrs ∨ p = a)
    (hadd : w.Configures t (addTunAddrPrefix a) false w') : w'.Holds t addrs' := by
  obtain ⟨hone, hmatches⟩ := h
  have hstore : (w' t).addrs = (w t).addrs ++ [netlinkAddrFromPrefix a] := by
    refine run_addTunAddrPrefix_ok (fun b hb => ?_) hadd.ok
    exact hnew b.net ((hmatches.mem_iff b.net).mp (mem_map_of_mem hb))
  refine ⟨fun p hp q hq heq => ?_, ?_⟩
  · rcases (hmem p).mp hp with hp | rfl <;> rcases (hmem q).mp hq with hq | rfl
    · exact hone p hp q hq heq
    · exact absurd heq (hnew p hp)
    · exact absurd heq.symm (hnew q hq)
    · rfl
  · rw [hstore]
    refine (hmatches.add (p := a)).of_mem_iff fun p => ?_
    rw [hmem, mem_append, mem_singleton]

/-! ## A build -/

/-- What a record says of its default TUN and of the link. -/
structure OnLink (s : Settings) (m : Memory) (w : TunLinks) (d : DefaultTunState) : Prop where
  opened : m.closed = false
  built : ∃ opts index, BuiltFrom s opts index d.toTunState
  held : ∃ t, d.tun = some t ∧ w.Holds t d.addrs

/-- The TUN that a build works on. -/
def WorksOn (input : BuildInput) (l : Build) : Prop :=
  l.input = input ∧ (l.tunRecreated = false → l.state.tun = some l.nativeTun)

/-- The addresses are on its link. -/
def Settled (input : BuildInput) (l : Build) (w : TunLinks) : Prop :=
  WorksOn input l ∧ w.Holds l.nativeTun input.addrs

section Build

variable {s : HostSettings} {input : BuildInput}

theorem settled_stages : Stage reconciling Any (fun l _ => WorksOn input l) (inTurn s.stages)
      (Settled input) fun _ _ => True := by
  have hspares := reconciling_spares
  refine Stage.cons (Q := fun l _ => WorksOn input l)
    (fun l w h => idle_step (reconciling_setTunMTU _ _) h fun _ => trivial) ?_
  refine Stage.cons (Q := Settled input) (fun l w h => ?_) (Stage.all fun stage hstage l w h => ?_)
  · refine ⟨trivial, fun r w' hr => ?_⟩
    cases r with
    | error e => exact trivial
    | ok v =>
      refine ⟨h, ?_⟩
      rw [← h.1]
      exact TunLinks.holds_of_set hr
  · simp only [mem_cons, not_mem_nil, or_false] at hstage
    rcases hstage with rfl | rfl | rfl | rfl | rfl | rfl | rfl | rfl | rfl | rfl | rfl
    · exact idle_step (reconciling_setTunRoutes _ _) h fun _ => trivial
    · exact idle_closeOldServer (hspares .server rfl) h h fun _ => trivial
    · exact idle_listenDNS (hspares .server rfl) h (fun _ => h) fun _ => trivial
    · exact idle_compileRules (hspares .rules rfl) (fun _ _ _ _ => h) (fun _ => h) fun _ => trivial
    · exact idle_installChecker (hspares .checker rfl) h (fun _ => h) (fun _ => trivial)
        fun _ => trivial
    · exact idle_readIndex (hspares .index rfl) (fun _ => h) fun _ => trivial
    · exact idle_setDefaultTunDNSInterface (hspares .dnsIndex rfl) h h fun _ => trivial
    · exact idle_applyRouting (hspares .routing rfl) h fun _ => trivial
    · exact idle_applyConnmark (hspares .connmark rfl) (fun _ _ => h) fun _ => trivial
    · exact idle_step (hspares .dns rfl _ rfl) h fun _ => trivial
    · exact idle_updateKillswitch (hspares .killswitch rfl) h (fun _ => h) fun _ => trivial

theorem onLink_buildOn {m : Memory} {l : Build} {w : TunLinks}
    (hinput : input.Checked s.toSettings) (h : WorksOn input l) (hopen : m.closed = false) :
    wp reconciling Any
      (fun out w' => ∀ d, out.1.defaultTun = some d → OnLink s.toSettings out.1 w' d)
      (s.buildOn m l) w := by
  have hspares := reconciling_spares
  unfold HostSettings.buildOn
  rw [wp_bind]
  refine wp_post (fun r w' hr => ?_) (settled_stages (s := s) l w h)
  cases r with
  | error failed =>
    simp only
    rw [wp_bind]
    exact wp_of_forall (fun _ _ d hd => absurd hd nofun) _ _
  | ok l' =>
    obtain ⟨⟨hl, hkept⟩, hholds⟩ := hr
    refine wp_bind_idle (issues_releaseReplaced (hspares .registry rfl)
      (hspares .tun rfl) (hspares .rules rfl) (hspares .server rfl) s l')
      fun _ d hd => ?_
    obtain rfl := Option.some.inj hd
    refine ⟨hopen, ⟨l'.input.opts, l'.index, ?_⟩, l'.nativeTun, ?_, ?_⟩
    · exact built_of_input (hl ▸ hinput) l'.index
    · show (if l'.tunRecreated then some l'.nativeTun else l'.state.tun) = some l'.nativeTun
      cases hrecreated : l'.tunRecreated with
      | true => rfl
      | false => exact hkept hrecreated
    · rw [← hl] at hholds
      exact hholds

end Build

/-! ## Updates -/

/-- The world of an update of the TUN `t`. -/
abbrev reconcilingOn (t : Tun) : Handler SystemCall SystemReply CallError TunLinks :=
  pull (HostCall.system (some t)) (fun _ r => r) reconciling

section Update

variable {t : Tun} {state : TunState} {w : TunLinks}

variable {c : SystemCall} {oldMainRoutes : List Prefix}

theorem reconcilingOn_iff {r : Except CallError (SystemReply c)} {w' : TunLinks} :
    reconcilingOn t c w r w' ↔ reconciling (.system (some t) c) w r w' :=
  ⟨fun ⟨_, h, heq⟩ => heq ▸ h, fun h => ⟨r, h, rfl⟩⟩

/-- What is neither a read nor a change of the addresses leaves them alone. -/
def SystemCall.sparesAddrs : SystemCall → Bool
  | .setTunAddrs _ => false
  | .addTunAddr _ => false
  | .getTunAddrs => false
  | _ => true

theorem idle_sparesAddrs (h : c.sparesAddrs = true) : Idle (reconcilingOn t) c := by
  intro w r w' hr
  have hr := reconcilingOn_iff.mp hr
  cases c with
  | setTunAddrs addrs | addTunAddr addr | getTunAddrs => cases h
  | _ => exact hr

/-- The compensation puts back what the configurator has reported. -/
theorem holds_restoreDefaultTunLinkLocked {addrs oldAddrs : List Prefix} (hone : OneLength addrs)
    (htakes : ∀ p ∈ addrs, p.isValid = true ∧ p.addr.is4In6 = false)
    (hold : ∀ p, p ∈ oldAddrs ↔ p ∈ addrs) :
    wp (reconcilingOn t) Any (fun _ w' => w'.Holds t addrs)
      (restoreDefaultTunLinkLocked oldAddrs oldMainRoutes) w := by
  obtain ⟨store, hrun, hmatches⟩ : ∃ store, (w t).run (setTunAddrPrefixes oldAddrs) =
      (.ok (), store) ∧ Matches oldAddrs store.addrs :=
    run_setTunAddrPrefixes (hone.subset fun p hp => (hold p).mp hp)
      fun p hp => htakes p ((hold p).mp hp)
  unfold restoreDefaultTunLinkLocked
  rw [collect, wp_bind]
  refine ⟨trivial, fun r w₁ hr => ?_⟩
  obtain ⟨-, rfl⟩ := reconcilingOn_iff.mp hr
  have hholds : TunLinks.Holds (Function.update w t ((w t).run (setTunAddrPrefixes oldAddrs)).2) t
      addrs := by
    refine ⟨hone, ?_⟩
    rw [Function.update_self, hrun]
    exact hmatches.of_mem_iff hold
  have hrest : ∀ es, wp (reconcilingOn t) Any (fun _ w' => w'.Holds t addrs)
      ((collect joining [.setTunRoutes oldMainRoutes]).bind fun es' => .ret (es ++ es'))
      (Function.update w t ((w t).run (setTunAddrPrefixes oldAddrs)).2) := by
    intro es
    refine wp_bind_idle (issues_collect fun c hc => ?_) fun _ => hholds
    obtain rfl := mem_singleton.mp hc
    exact issues_joining (idle_sparesAddrs rfl)
  cases r with
  | error e => exact hrest [e]
  | ok v => exact hrest []

theorem holds_giveUp {oldAddrs : List Prefix} {cause : CallError}
    {more : List (SystemProg (List CallError))} (hone : OneLength state.addrs)
    (htakes : ∀ p ∈ state.addrs, p.isValid = true ∧ p.addr.is4In6 = false)
    (hold : ∀ p, p ∈ oldAddrs ↔ p ∈ state.addrs)
    (hmore : ∀ q ∈ more, Issues (Idle (reconcilingOn t)) q) :
    wp (reconcilingOn t) Any (fun out w' => w'.Holds t out.1.addrs)
      (giveUp state cause (restoreDefaultTunLinkLocked oldAddrs oldMainRoutes :: more)) w := by
  unfold giveUp
  rw [wp_bind]
  refine wp_collect_cons (wp_post (fun _ w₁ hholds => ?_)
    (holds_restoreDefaultTunLinkLocked hone htakes hold))
  exact wp_of_idle (issues_collect hmore) (yields_of_forall (fun _ => hholds) _)

theorem holds_updateDefaultTunAddrsLocked {addrs : List Prefix} {addedAddr : Option Prefix}
    (h : w.Holds t state.addrs)
    (hadded : ∀ a, addedAddr = some a → (∀ q ∈ state.addrs, q.addr ≠ a.addr) ∧
      ∀ p, p ∈ addrs ↔ p ∈ state.addrs ∨ p = a) :
    wp (reconcilingOn t) Any (fun out w' => w'.Holds t out.1.addrs)
      (updateDefaultTunAddrsLocked state addrs addedAddr) w := by
  unfold updateDefaultTunAddrsLocked
  split
  · exact h
  rename_i rc hrc
  split
  · exact h
  refine ⟨trivial, fun r w₁ hr => ?_⟩
  cases r with
  | error e =>
    obtain rfl : w₁ = w := reconcilingOn_iff.mp hr
    exact h
  | ok oldAddrs =>
    obtain ⟨rfl, rfl⟩ : oldAddrs = (w t).prefixes ∧ w₁ = w := reconcilingOn_iff.mp hr
    refine wp_call_idle (idle_sparesAddrs rfl) (fun _ => h) fun oldMainRoutes => ?_
    have hgiveUp : ∀ w₃ cause more, (∀ q ∈ more, Issues (Idle (reconcilingOn t)) q) →
        wp (reconcilingOn t) Any (fun out w' => w'.Holds t out.1.addrs) (giveUp state cause
            (restoreDefaultTunLinkLocked (w₁ t).prefixes oldMainRoutes :: more)) w₃ := by
      intro w₃ cause more hmore
      exact holds_giveUp h.1 h.2.takes h.2.mem_iff hmore
    refine ⟨trivial, fun r w₃ hr => ?_⟩
    cases r with
    | error e => exact hgiveUp w₃ e [] (by simp)
    | ok v =>
      have hholds : w₃.Holds t addrs := by
        cases addedAddr with
        | none => exact TunLinks.holds_of_set (reconcilingOn_iff.mp hr)
        | some a =>
          obtain ⟨hnew, hmem⟩ := hadded a rfl
          exact h.add hnew hmem (reconcilingOn_iff.mp hr)
      refine wp_call_idle (idle_sparesAddrs rfl) (fun e => hgiveUp w₃ e [] (by simp)) fun _ => ?_
      refine wp_call_idle (idle_sparesAddrs rfl) (fun e => ?_) fun _ => hholds
      refine hgiveUp w₃ e _ fun q hq => ?_
      obtain rfl := mem_singleton.mp hq
      exact issues_restoreDefaultTunRoutingLocked (idle_sparesAddrs rfl) (idle_sparesAddrs rfl)

end Update

/-- `AddTunAddr` of a prefix adds no second length of a recorded address. -/
def AddsNew (addrs : List Prefix) (p : Prefix) : Prop :=
  p.addr.isLoopback = true ∨ p ∈ addrs ∨ ∀ q ∈ addrs, q.addr ≠ p.addr
  deriving Decidable

/-- The operation adds no second length of a recorded address. -/
def KeepsLengths (m : Memory) : HostOp → Prop
  | .update handle (.addTunAddr (.ok p)) => ∀ d, m.owned handle = some d → AddsNew d.addrs p
  | _ => True

section Operations

variable {s : HostSettings} {m : Memory} {w : TunLinks}

/-- An update of the default TUN, as its link sees it. -/
theorem holds_update {opts : DefaultTunOpts} {index : Int} {t : Tun} {d : TunState} {u : Update}
    (hbuilt : BuiltFrom s.toSettings opts index d) (hholds : w.Holds t d.addrs)
    (hparsed : u.Parsed)
    (hkeeps : ∀ p, u = .addTunAddr (.ok p) → AddsNew d.addrs p) :
    wp (reconcilingOn t) Any (fun out w' => w'.Holds t out.1.addrs) (s.update d u) w := by
  have hroutes : ∀ routes, wp (reconcilingOn t) Any
      (fun out w' => w'.Holds t out.1.addrs) (setDefaultTunRoutesLocked d routes) w :=
    fun routes => wp_of_idle (issues_setDefaultTunRoutesLocked routes (idle_sparesAddrs rfl)
      (fun _ => idle_sparesAddrs rfl) fun _ _ =>
        ⟨idle_sparesAddrs rfl, idle_sparesAddrs rfl, idle_sparesAddrs rfl⟩)
      (yields_setDefaultTunRoutesLocked (fun _ => hholds) fun _ _ => hholds)
  cases u with
  | setTunAddrs given =>
    show wp _ _ _ (s.setTunAddrs d given) w
    rcases setTunAddrs_cases s.toSystem d given with ⟨err, hret⟩ | ⟨addrs, -, hset⟩
    · rw [hret]
      exact hholds
    · rw [hset]
      exact holds_updateDefaultTunAddrsLocked hholds fun a ha => absurd ha nofun
  | addTunAddr addr =>
    show wp _ _ _ (s.addTunAddr d addr) w
    cases addr with
    | error e => exact hholds
    | ok p =>
      rcases addTunAddr_cases s.toSystem d p with ⟨err, hret⟩ | ⟨addrs, hout, hloop, hnorm, hadd⟩
      · rw [hret]
        exact hholds
      · rw [hadd]
        refine holds_updateDefaultTunAddrsLocked hholds fun a ha => ?_
        obtain rfl := Option.some.inj ha
        have hnew := ((hkeeps p rfl).resolve_left (by simp [hloop])).resolve_left hout
        exact ⟨hnew, fun q => hbuilt.mem_added hnorm hloop⟩
  | setTunRoutes given =>
    show wp _ _ _ (s.setTunRoutes d given) w
    unfold System.setTunRoutes
    split
    · exact hholds
    · split
      · exact hholds
      · exact hroutes _
  | addTunRoute route =>
    show wp _ _ _ (s.addTunRoute d route) w
    unfold System.addTunRoute
    split
    · exact hholds
    · split
      · exact hholds
      · split
        · exact hholds
        · exact hholds
        · split
          · exact hholds
          · exact hroutes _

theorem onLink_updateDefaultTun
    (h : ∀ d, m.defaultTun = some d → OnLink s.toSettings m w d) {handle : Nat} {u : Update}
    (hparsed : u.Parsed) (hkeeps : KeepsLengths m (.update handle u)) :
    wp reconciling Any
      (fun out w' => ∀ d, out.1.defaultTun = some d → OnLink s.toSettings out.1 w' d)
      (s.updateDefaultTun m handle u) w := by
  refine wp_updateDefaultTun (fun _ => h) fun d t howned ht => ?_
  obtain ⟨hopen, ⟨opts, index, hbuilt⟩, t', ht', hholds⟩ := h d (Memory.owned_some howned).1
  obtain rfl := Option.some.inj (ht.symm.trans ht')
  have hlengths : ∀ p, u = .addTunAddr (.ok p) → AddsNew d.addrs p := by
    rintro p rfl
    exact hkeeps d howned
  have hupdate : wp (reconcilingOn t) Any
      (fun out w' => w'.Holds t out.1.addrs ∧ BuiltFrom s.toSettings opts index out.1)
      (s.update d.toTunState u) w :=
    wp_and (holds_update hbuilt hholds hparsed hlengths)
      (wp_of_yields ((built_update hbuilt hparsed).mono fun _ hout _ => hout) w)
  refine wp_embed.mpr (wp_post (fun out w' hout d' hd' => ?_) hupdate)
  obtain rfl := Option.some.inj hd'
  exact ⟨hopen, ⟨opts, index, hout.2⟩, t, ht, hout.1⟩

theorem onLink_perform (h : ∀ d, m.defaultTun = some d → OnLink s.toSettings m w d) {op : HostOp}
    (hparsed : op.Parsed) (hkeeps : KeepsLengths m op) :
    wp reconciling Any
      (fun out w' => ∀ d, out.1.defaultTun = some d → OnLink s.toSettings out.1 w' d)
      (s.perform m op) w := by
  cases op with
  | build opts activeName =>
    refine idle_buildDefaultTun (reconciling_spares .tun rfl)
      (reconciling_spares .index rfl) (reconciling_spares .registry rfl)
      (fun _ => h) ?_ ?_ ?_
    · exact fun input t hinput hopen _ =>
        onLink_buildOn (buildInput_ok hinput).2.2 ⟨rfl, fun _ => rfl⟩ hopen
    · exact fun input state t hinput hopen _ ht =>
        onLink_buildOn (buildInput_ok hinput).2.2 ⟨rfl, fun _ => ht⟩ hopen
    · exact fun input state t hinput hopen _ =>
        onLink_buildOn (buildInput_ok hinput).2.2 ⟨rfl, fun hr => absurd hr nofun⟩ hopen
  | update handle u => exact onLink_updateDefaultTun h hparsed hkeeps
  | setDNS handle resolver =>
    refine idle_setDNS (reconciling_spares .server rfl) (fun _ => h) fun d hd d' hd' => ?_
    obtain rfl := Option.some.inj hd'
    exact ⟨(h d hd).opened, (h d hd).built, (h d hd).held⟩
  | close handle =>
    exact forgets_closeDefaultTun h fun _ _ hnone d hd => absurd (hnone.symm.trans hd) nofun
  | closeSystem =>
    exact forgets_closeSystem h fun _ _ hnone d hd => absurd (hnone.symm.trans hd) nofun

end Operations

/-! ## Setting the recorded addresses once more -/

/-- The call sets the addresses of a link. -/
def HostCall.setsAddrs : HostCall → Bool
  | .system (some _) (.setTunAddrs _) => true
  | _ => false

/-- No call has failed, unless the configurator has refused the addresses. -/
def OnlyAddrsFail (tr : List (Event HostCall TunLinks)) : Prop :=
  ∀ ev ∈ tr, ev.failed = true → ev.call.setsAddrs = true
  deriving Decidable

theorem optionFamily_keptOnce (ps : List Prefix) :
    optionFamily (keptOnce ps) [] = optionFamily ps [] := by
  have hany : ∀ q : Prefix → Bool,
      ((keptOnce ps ++ []).filter fun cidr : Prefix => !cidr.addr.isLoopback).any q =
        ((ps ++ []).filter fun cidr : Prefix => !cidr.addr.isLoopback).any q := by
    intro q
    rw [Bool.eq_iff_iff]
    simp only [append_nil, any_eq_true, mem_filter, mem_keptOnce]
    constructor
    · rintro ⟨p, ⟨⟨hp, -⟩, hloop⟩, hq⟩
      exact ⟨p, ⟨hp, hloop⟩, hq⟩
    · rintro ⟨p, ⟨hp, hloop⟩, hq⟩
      exact ⟨p, ⟨⟨hp, by simpa using hloop⟩, hloop⟩, hq⟩
  unfold optionFamily
  simp only [hany]

theorem setTunAddrs_recorded (h : BuiltFrom s opts index d)
    (hgranted : s.tunOperationError .setAddresses (orDual (optionFamily d.addrs [])) = none) :
    s.setTunAddrs d (d.addrs.map .ok) = updateDefaultTunAddrsLocked d d.addrs none := by
  have hkept : tunAddrsOf Prefix.zero d.addrs = keptOnce d.addrs :=
    if_neg fun hadd => absurd hadd.1 (by decide)
  have hnone : normalizeTunAddrs (d.addrs.map .ok) none .zero =
      .ok (keptOnce d.addrs, dnsAddrOf Prefix.zero (keptOnce d.addrs) .zero) := by
    rw [normalizeTunAddrs_map (rfl : (none : Option CIDR).getD (.ok Prefix.zero) = .ok Prefix.zero),
      hkept]
  have hupdated : s.updatedAddrs d (d.addrs.map .ok) = .ok d.addrs := by
    unfold System.updatedAddrs
    rw [h.addrs]
    simp
  unfold System.setTunAddrs
  rw [hnone]
  simp only
  rw [optionFamily_keptOnce, hgranted]
  simp only
  unfold System.setDefaultTunAddrsLocked
  rw [hupdated]

/-- What `SetTunAddrs` with the recorded addresses would record is what is recorded. -/
theorem BuiltFrom.config_again (h : BuiltFrom s opts index d) : ∃ rc, d.routingConfig = some rc ∧
      validateDefaultTunSourceAddrs d.addrs rc.sourceRoutes = none ∧
      setDefaultTunRoutingFamilies rc d.addrs d.routes = rc := by
  obtain ⟨sourceRoutes, hnormalized, hconfig⟩ := h.config
  refine ⟨_, hconfig, ?_, setDefaultTunRoutingFamilies_routingConfig ..⟩
  exact validateDefaultTunSourceAddrs_eq_none.mpr fun route hroute =>
    ((normalizeTunSourceRoutes_fit hnormalized).each route hroute).assigned

/-- What a call answers in a world in which only the setting of addresses fails. -/
theorem answers_of_restricted {c : SystemCall} {r : Except CallError (SystemReply c)}
    (h : pull (HostCall.system (some t)) (fun _ r => r)
      (restrict reconciling fun c _ => c.setsAddrs = false) c w r w') :
    reconcilingOn t c w r w' ∧
      (isError r = true → (HostCall.system (some t) c).setsAddrs = true) := by
  obtain ⟨r', ⟨hr, hgood⟩, rfl⟩ := h
  exact ⟨⟨r', hr, rfl⟩, fun herr => by simpa using hgood herr⟩

theorem wp_spared {c : SystemCall} {k : Except CallError (SystemReply c) → SystemProg α}
    {Q : α → TunLinks → Prop} (hc : c.sparesAddrs = true)
    (hsets : (HostCall.system (some t) c).setsAddrs = false)
    (h : ∀ v, wp (pull (HostCall.system (some t)) (fun _ r => r)
      (restrict reconciling fun c _ => c.setsAddrs = false)) Any Q (k (.ok v)) w) :
    wp (pull (HostCall.system (some t)) (fun _ r => r)
      (restrict reconciling fun c _ => c.setsAddrs = false)) Any Q (.call c k) w := by
  refine ⟨trivial, fun r w' hr => ?_⟩
  obtain ⟨hr, hgood⟩ := answers_of_restricted hr
  obtain rfl := idle_sparesAddrs hc _ _ _ hr
  cases r with
  | error e => exact absurd (hsets.symm.trans (hgood rfl)) nofun
  | ok v => exact h v

theorem updateDefaultTunAddrsLocked_again (h : BuiltFrom s opts index d)
    (hholds : w.Holds t d.addrs) :
    wp (pull (HostCall.system (some t)) (fun _ r => r)
        (restrict reconciling fun c _ => c.setsAddrs = false)) (fun _ _ => True)
      (fun out w' => out = (d, none) ∧ w' = w)
      (updateDefaultTunAddrsLocked d d.addrs none) w := by
  obtain ⟨rc, hrc, hsources, hfamilies⟩ := h.config_again
  have hrun := run_setTunAddrPrefixes_again hholds.1 hholds.2
  unfold updateDefaultTunAddrsLocked
  rw [hrc]
  simp only [hsources, hfamilies]
  refine ⟨trivial, fun r w₁ hr => ?_⟩
  obtain ⟨hr, hgood⟩ := answers_of_restricted hr
  cases r with
  | error e => exact absurd (hgood rfl) nofun
  | ok oldAddrs =>
    obtain ⟨-, rfl⟩ : oldAddrs = (w t).prefixes ∧ w₁ = w := reconcilingOn_iff.mp hr
    refine wp_spared rfl rfl fun oldMainRoutes => ⟨trivial, fun r w₃ hr => ?_⟩
    obtain ⟨hok, rfl⟩ : w₁.Configures t (setTunAddrPrefixes d.addrs) (isError r) w₃ :=
      reconcilingOn_iff.mp (answers_of_restricted hr).1
    rw [hrun] at hok ⊢
    cases r with
    | error e => cases hok
    | ok v =>
      simp only [Function.update_eq_self]
      refine wp_spared rfl rfl fun _ => wp_spared rfl rfl fun _ => ⟨?_, rfl⟩
      rw [← hrc]

/-- `SetTunAddrs` with the recorded addresses returns nil and changes nothing. -/
theorem setTunAddrs_again {s : HostSettings} {m : Memory} {d : DefaultTunState}
    (hd : m.defaultTun = some d) (h : OnLink s.toSettings m w d)
    (hgranted : s.tunOperationError .setAddresses (orDual (optionFamily d.addrs [])) = none) :
    wp (restrict reconciling fun c _ => c.setsAddrs = false) Any
      (fun out w' => out = (m, none) ∧ w' = w)
      (s.perform m (.update d.handle (.setTunAddrs (d.addrs.map .ok)))) w := by
  obtain ⟨hopen, ⟨opts, index, hbuilt⟩, t, ht, hholds⟩ := h
  have howned : m.owned d.handle = some d := by simp [Memory.owned, hd]
  show wp _ _ _ (s.updateDefaultTun m d.handle _) w
  unfold HostSettings.updateDefaultTun
  simp only [howned, hopen, ht]
  rw [if_neg (by simp), wp_bind]
  refine wp_embed.mpr ?_
  show wp _ _ _ (s.setTunAddrs d.toTunState _) w
  rw [setTunAddrs_recorded hbuilt hgranted]
  refine wp_post (fun out w' hout => ?_) (updateDefaultTunAddrsLocked_again hbuilt hholds)
  obtain ⟨rfl, rfl⟩ := hout
  refine ⟨?_, rfl⟩
  obtain ⟨closed, active, generation⟩ := m
  obtain rfl : closed = false := hopen
  obtain rfl : active = some d := hd
  rw [← ht]
  rfl

/-! ## Histories -/

/-- An operation of a history, if `G` allows it. -/
def AddrStep (s : HostSettings) (G : Memory → HostOp → Prop) (x y : Memory × TunLinks) : Prop :=
  ∃ op tr err, op.Parsed ∧ G x.1 op ∧ Exec reconciling (s.perform x.1 op) x.2 tr (y.1, err) y.2

theorem onLink_reached {s : HostSettings} {w₀ : TunLinks} {x : Memory × TunLinks}
    (h : Relation.ReflTransGen (AddrStep s KeepsLengths) (.initial, w₀) x) :
    ∀ d, x.1.defaultTun = some d → OnLink s.toSettings x.1 x.2 d := by
  induction h with
  | refl => exact fun d hd => absurd hd nofun
  | tail _ hlast ih =>
    obtain ⟨op, tr, err, hparsed, hkeeps, hex⟩ := hlast
    exact (wp_sound hex (onLink_perform ih hparsed hkeeps)).2

/-- In every state between the calls of a history in which no `AddTunAddr` adds a second
    length of a recorded address: the link of the active default TUN holds exactly the
    recorded addresses, to set them once more on the link changes nothing, and `SetTunAddrs`
    with them returns nil and changes nothing. -/
theorem link_holds_recorded (s : HostSettings) {w₀ : TunLinks} {x : Memory × TunLinks}
    (hx : Relation.ReflTransGen (AddrStep s KeepsLengths) (.initial, w₀) x)
    {d : DefaultTunState} (hd : x.1.defaultTun = some d) :
    ∃ t, d.tun = some t ∧ (∀ p, p ∈ (x.2 t).prefixes ↔ p ∈ d.addrs) ∧
      (x.2 t).run (setTunAddrPrefixes d.addrs) = (.ok (), x.2 t) ∧
      (s.tunOperationError .setAddresses (orDual (optionFamily d.addrs [])) = none →
        ∀ tr out w, OnlyAddrsFail tr →
          Exec reconciling (s.perform x.1 (.update d.handle (.setTunAddrs (d.addrs.map .ok)))) x.2
            tr out w →
          out = (x.1, none) ∧ w = x.2) := by
  have honlink := onLink_reached hx d hd
  obtain ⟨t, ht, hholds⟩ := honlink.held
  refine ⟨t, ht, hholds.2.mem_iff, run_setTunAddrPrefixes_again hholds.1 hholds.2, ?_⟩
  intro hgranted tr out w honly hex
  have hworld : Exec (restrict reconciling fun c _ => c.setsAddrs = false) _ x.2 tr out w :=
    hex.restrict fun ev hev hfailed => by simp [honly ev hev hfailed]
  exact (wp_sound hworld (setTunAddrs_again hd honlink hgranted)).2

/-! ## Runs on fixed inputs -/

/-- The answer of the configurator. -/
def TunLinks.configured (w : TunLinks) (t : Tun) (p : AddrProg String Unit) :
    Except CallError Unit × TunLinks :=
  (match ((w t).run p).1 with
    | .ok _ => .ok ()
    | .error _ => .error (.tun "addresses"),
    Function.update w t ((w t).run p).2)

/-- Every call is answered well, unless the configurator refuses. -/
def linkAnswer : (c : HostCall) → Unit → TunLinks → Except CallError (HostReply c) × TunLinks
  | .system (some t) (.setTunAddrs addrs), _, w => w.configured t (setTunAddrPrefixes addrs)
  | .system (some t) (.addTunAddr addr), _, w => w.configured t (addTunAddrPrefix addr)
  | .system (some t) .getTunAddrs, _, w => (.ok (w t).prefixes, w)
  | c, _, w => (.ok (c.goodReply 1), w)

theorem TunLinks.configures_configured (w : TunLinks) (t : Tun) (p : AddrProg String Unit) :
    w.Configures t p (isError (w.configured t p).1) (w.configured t p).2 := by
  refine ⟨?_, rfl⟩
  unfold TunLinks.configured
  cases ((w t).run p).1 with
  | ok v | error e => rfl

theorem reconciling_linkAnswer (c : HostCall) (u : Unit) (w : TunLinks) :
    reconciling c w (linkAnswer c u w).1 (linkAnswer c u w).2 := by
  cases c with
  | system t c =>
    cases t with
    | none => cases c <;> rfl
    | some t =>
      cases c with
      | setTunAddrs addrs | addTunAddr addr => exact w.configures_configured t _
      | getTunAddrs => exact ⟨rfl, rfl⟩
      | _ => rfl
  | _ => rfl

/-- Links without addresses. -/
def bareLinks : TunLinks := fun _ => ⟨[], ⟨by simp, by simp, by simp⟩⟩

/-- An operation in which only the configurator refuses. -/
def linkOp (x : Memory × TunLinks) (op : HostOp) :
    List (Event HostCall TunLinks) × HostOutcome × TunLinks :=
  play linkAnswer () (sampleHost.perform x.1 op) [] x.2

theorem addrStep_linkOp (x : Memory × TunLinks) {op : HostOp} (hparsed : op.Parsed)
    (hG : G x.1 op) : AddrStep sampleHost G x ((linkOp x op).2.1.1, (linkOp x op).2.2) :=
  ⟨op, _, _, hparsed, hG, play_exec reconciling_linkAnswer _ [] x.2⟩

/-- The state behind a first build. -/
def linkBuilt : Memory × TunLinks :=
  ((linkOp (.initial, bareLinks) (.build dualOpts "")).2.1.1,
    (linkOp (.initial, bareLinks) (.build dualOpts "")).2.2)

/-- `AddTunAddr` of an address. -/
def addAddr (p : Prefix) : HostOp := .update 1 (.addTunAddr (.ok p))

theorem addAddr_parsed (h : p.isValid = true) : (addAddr p).Parsed :=
  fun _ hq => Except.ok.inj hq ▸ h

/-- The state behind a build and an address that is added. -/
def linkAdded (p : Prefix) : Memory × TunLinks :=
  ((linkOp linkBuilt (addAddr p)).2.1.1, (linkOp linkBuilt (addAddr p)).2.2)

theorem reach_linkAdded (h : p.isValid = true) (hbuild : G .initial (.build dualOpts ""))
    (hadd : G linkBuilt.1 (addAddr p)) :
    Relation.ReflTransGen (AddrStep sampleHost G) (.initial, bareLinks) (linkAdded p) := by
  have hfirst : (HostOp.build dualOpts "").Parsed := trivial
  exact .tail (.single (addrStep_linkOp (.initial, bareLinks) hfirst hbuild))
    (addrStep_linkOp linkBuilt (addAddr_parsed h) hadd)

/-- The recorded addresses, and those of the link. -/
def bothAddrs (x : Memory × TunLinks) : Option (List Prefix × List Prefix) :=
  x.1.defaultTun.bind fun d => d.tun.map fun t => (d.addrs, (x.2 t).prefixes)

/-- The addresses that the build has recorded. -/
def builtAddrs : List Prefix :=
  [Prefix.ofV4 0x0a000001#32 24, Prefix.ofV6 0xfd000000000000000000000000000001#128 64,
    Prefix.ofV4 0x0afa0001#32 24]

theorem keepsLengths_linkBuilt (h : AddsNew builtAddrs p) :
    KeepsLengths linkBuilt.1 (addAddr p) := by
  have haddrs : (linkBuilt.1.owned 1).map (fun d => d.addrs) = some builtAddrs := by
    decide +kernel
  intro d hd
  rw [hd] at haddrs
  have hsame : d.addrs = builtAddrs := Option.some.inj haddrs
  rw [hsame]
  exact h

/-- The address fd00::2/64, which is new. -/
def newAddr : Prefix := Prefix.ofV6 0xfd000000000000000000000000000002#128 64

theorem link_holds_recorded_added :
    (linkAdded newAddr).1.defaultTun.isSome = true ∧
      ∀ d, (linkAdded newAddr).1.defaultTun = some d →
        ∃ t, d.tun = some t ∧ (∀ p, p ∈ ((linkAdded newAddr).2 t).prefixes ↔ p ∈ d.addrs) := by
  refine ⟨by decide +kernel, fun d hd => ?_⟩
  have hreach : Relation.ReflTransGen (AddrStep sampleHost KeepsLengths) (.initial, bareLinks)
      (linkAdded newAddr) :=
    reach_linkAdded (by decide) trivial (keepsLengths_linkBuilt (by decide))
  obtain ⟨t, ht, hsame, -⟩ := link_holds_recorded sampleHost hreach hd
  exact ⟨t, ht, hsame⟩

/-- The recorded address fd00::1 with another length. -/
def otherLength : Prefix := Prefix.ofV6 0xfd000000000000000000000000000001#128 48

/-- `AddTunAddr` of a recorded IPv6 address with another length returns nil and leaves on the
    link only the new length, and then the configurator refuses the recorded addresses. -/
theorem added_length_leaves_link :
    Relation.ReflTransGen (AddrStep sampleHost fun _ _ => True) (.initial, bareLinks)
        (linkAdded otherLength) ∧
      (linkOp linkBuilt (addAddr otherLength)).2.1.2 = none ∧
      ∃ recorded onLink, bothAddrs (linkAdded otherLength) = some (recorded, onLink) ∧
        ¬ (∀ p, p ∈ onLink ↔ p ∈ recorded) ∧
          isError (normalizeTunAddrPrefixSet recorded) = true := by
  refine ⟨reach_linkAdded (by decide) trivial trivial, by decide +kernel,
    builtAddrs ++ [otherLength],
    [Prefix.ofV4 0x0a000001#32 24, Prefix.ofV4 0x0afa0001#32 24, otherLength],
    by decide +kernel, fun h => ?_, by decide⟩
  have hmem := (h (Prefix.ofV6 0xfd000000000000000000000000000001#128 64)).mpr (by decide)
  exact absurd hmem (by decide)

end SysnetLinux.DefaultTun
