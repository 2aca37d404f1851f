/-
  SysnetLinux.DefaultTun.Stages

  What each stage and each release of a build can do: the kind of its calls, and how it
  changes the local variables.

  A result about a build is about one or two kinds of resources, and its world leaves
  the other kinds alone.  There the rules `idle_*` carry an invariant over a stage
  without looking into it.
-/

import SysnetLinux.DefaultTun.Build

namespace SysnetLinux.DefaultTun

open Netip Routing CallProg CallProg.Prog List

/-! ## Kinds of calls -/

inductive CallKind where
  | tun
  | index
  | link
  | routing
  | server
  | rules
  | checker
  | dnsIndex
  | dns
  | connmark
  | killswitch
  | component
  | registry
  deriving DecidableEq

def SystemCall.kind : SystemCall → CallKind
  | .apply _ => .routing
  | .rollback _ => .routing
  | _ => .link

def HostCall.kind : HostCall → CallKind
  | .createTUN _ _ => .tun
  | .closeTun _ => .tun
  | .tunIndex _ => .index
  | .setTunMTU _ _ => .link
  | .system _ c => c.kind
  | .packetListen _ _ => .server
  | .attach _ _ => .server
  | .detach _ => .server
  | .closeServer _ => .server
  | .compileRule _ => .rules
  | .exactCommFromRegexp _ => .rules
  | .registerRule _ => .rules
  | .unregisterRule _ => .rules
  | .setKernelPolicy _ _ => .checker
  | .setChecker _ => .checker
  | .forceProcessTraversal => .checker
  | .setInterfaceIndex _ => .dnsIndex
  | .setDNS _ => .dns
  | .unsetDNS => .dns
  | .connmark _ _ => .connmark
  | .createTMPRuleset _ => .killswitch
  | .updateTMPRuleset _ _ => .killswitch
  | .deleteTMPRuleset _ => .killswitch
  | .closeComponent _ => .component
  | .setActive _ => .registry
  | .takeTuns => .registry

/-- The world leaves the calls of a kind alone. -/
def Spares {S : Type} (H : Handler HostCall HostReply CallError S) (kind : CallKind) : Prop :=
  ∀ c : HostCall, c.kind = kind → Idle H c

/-- A good answer to a call; what it gives out has the number `n`, and links have the index 10. -/
def HostCall.goodReply (n : Nat) : (c : HostCall) → HostReply c
  | .createTUN _ _ => Tun.mk n true 0 0 1
  | .closeTun _ => ()
  | .tunIndex _ => (10 : Int)
  | .setTunMTU _ _ => ()
  | .system _ .getTunAddrs => ([] : List Prefix)
  | .system _ .getTunRoutes => ([] : List Prefix)
  | .system _ (.setTunAddrs _) => ()
  | .system _ (.addTunAddr _) => ()
  | .system _ (.setTunRoutes _) => ()
  | .system _ (.apply _) => ()
  | .system _ (.rollback _) => ()
  | .packetListen _ _ => Server.mk n
  | .attach _ _ => ()
  | .detach _ => ()
  | .closeServer _ => ()
  | .compileRule _ => true
  | .exactCommFromRegexp _ => (none : Option String)
  | .registerRule _ => n
  | .unregisterRule _ => ()
  | .setKernelPolicy _ _ => ()
  | .setChecker _ => ()
  | .forceProcessTraversal => ()
  | .setInterfaceIndex _ => ()
  | .setDNS _ => ()
  | .unsetDNS => ()
  | .connmark _ (.listTablesOfFamily _) => ([] : List Connmark.Table)
  | .connmark _ (.flush _) => ()
  | .createTMPRuleset _ => n
  | .updateTMPRuleset _ _ => ()
  | .deleteTMPRuleset _ => ()
  | .closeComponent _ => ()
  | .setActive _ => ()
  | .takeTuns => ([] : List Tun)

/-! ## Settings with which a build can succeed -/

/-- `pmarkPriority` is in the range of an `int8`. -/
def HostSettings.PriorityFits (s : HostSettings) : Prop :=
  -128 ≤ s.pmarkPriority ∧ s.pmarkPriority ≤ 127

/-- A required connmark manager has a connection, and marks that it accepts. -/
def HostSettings.ConnmarkWorks (s : HostSettings) : Prop :=
  ∀ m, s.connmark = some m → s.connmarkRequired = true →
    m.conn = true ∧ ∃ marks, Connmark.normalizeMarks (E := CallError) s.connmarkMarks = .ok marks

theorem HostSettings.hasRuleTracker_of_supported {s : HostSettings}
    (h : s.tunRulesSupported = true) : s.hasRuleTracker = true := by
  simp only [HostSettings.tunRulesSupported, Bool.and_eq_true] at h
  exact h.2

/-- `Apply` returns nil only with a connection and marks that it accepts. -/
theorem yields_apply (m : Connmark.Manager) (marks : List Connmark.Mark) :
    Yields (fun err => err = none → m.conn = true ∧
        ∃ out, Connmark.normalizeMarks (E := CallError) marks = .ok out)
      (m.apply (E := CallError) marks) := by
  unfold Connmark.Manager.apply
  split
  · exact nofun
  rename_i hconn
  split
  · exact nofun
  rename_i out hout
  exact yields_of_forall (fun _ _ => ⟨by simpa using hconn, out, hout⟩) _

section Programs

variable {S : Type} {H : Handler HostCall HostReply CallError S} {K : HostCall → Prop}

/-! ## Releases -/

theorem issues_releasing {c : HostCall} (h : K c) : Issues K (releasing c) := by
  refine ⟨h, fun r => ?_⟩
  cases r with
  | ok v | error e => exact trivial

theorem issues_quietly {c : HostCall} (h : K c) : Issues K (quietly c) :=
  ⟨h, fun _ => trivial⟩

theorem issues_onlyIf {b : Bool} {p : HostProg (List HostError)} (h : Issues K p) :
    Issues K (onlyIf b p) := by
  cases b with
  | true => exact h
  | false => exact trivial

variable {α : Type} {m : Memory} {handle : Nat}

theorem issues_ofSome {f : α → HostProg (List HostError)} {a : Option α}
    (h : ∀ x, a = some x → Issues K (f x)) : Issues K (ofSome f a) := by
  cases a with
  | none => exact trivial
  | some x => exact h x rfl

theorem issues_closeServer (hidle : Spares H .server) (server : Server) :
    Issues (Idle H) (closeServer server) := by
  refine issues_collect fun p hp => ?_
  simp only [mem_cons, not_mem_nil, or_false] at hp
  rcases hp with rfl | rfl
  · exact issues_quietly (hidle _ rfl)
  · exact issues_releasing (hidle _ rfl)

theorem issues_unregisterRules (s : HostSettings) (hidle : Spares H .rules) (ids : List Nat) :
    Issues (Idle H) (s.unregisterRules ids) := by
  unfold HostSettings.unregisterRules
  split
  · exact issues_collect fun id _ => issues_quietly (hidle _ rfl)
  · exact trivial

theorem issues_clearDefaultTunDNSInterface (s : HostSettings) (hidle : Spares H .dnsIndex) :
    Issues (Idle H) s.clearDefaultTunDNSInterface :=
  issues_onlyIf (issues_releasing (hidle _ rfl))

theorem issues_onConnmark (hidle : Spares H .connmark) (use : ConnmarkUse)
    (p : Connmark.NftProg CallError α) : Issues (Idle H) (onConnmark use p) := by
  refine issues_embed ?_
  induction p with
  | ret a => exact trivial
  | call c k ih => exact ⟨hidle _ rfl, ih⟩

theorem issues_onTun (hlink : Spares H .link) (hrouting : Spares H .routing) (t : Option Tun)
    (p : SystemProg α) : Issues (Idle H) (onTun t p) := by
  refine issues_embed ?_
  induction p with
  | ret a => exact trivial
  | call c k ih =>
    refine ⟨?_, ih⟩
    cases c with
    | apply | rollback => exact hrouting _ rfl
    | _ => exact hlink _ rfl

theorem issues_rollbackConnmark (s : HostSettings) (hidle : Spares H .connmark) :
    Issues (Idle H) s.rollbackConnmark :=
  issues_ofSome fun _ _ => issues_bind (issues_onConnmark hidle _ _) fun _ => trivial

theorem issues_releaseReplaced (hregistry : Spares H .registry) (htun : Spares H .tun)
    (hrules : Spares H .rules) (hserver : Spares H .server) (s : HostSettings) (l : Build) :
    Issues (Idle H) (s.releaseReplaced l) := by
  refine issues_collect fun p hp => ?_
  simp only [mem_cons, not_mem_nil, or_false] at hp
  rcases hp with rfl | rfl | rfl | rfl
  · exact issues_onlyIf (issues_quietly (hregistry _ rfl))
  · exact issues_onlyIf (issues_ofSome fun _ _ => issues_quietly (htun _ rfl))
  · exact issues_unregisterRules s hrules _
  · exact issues_onlyIf (issues_ofSome fun server _ => issues_closeServer hserver server)

/-! ## Stages -/

variable {s : HostSettings} {l : Build} {w : S} {Q : Build → S → Prop}
  {F : Build × List HostError → S → Prop}

theorem idle_step {c : Build → HostCall} (hidle : Idle H (c l)) (hok : Q l w)
    (herr : ∀ errs, F (l, errs) w) : wp H Any (ends Q F) (step c l) w :=
  wp_call_idle hidle (fun _ => herr _) fun _ => hok

theorem idle_closeOldServer (hidle : Spares H .server) (hok : Q l w)
    (hclosed : Q { l with oldServer := none, server := none } w)
    (herr : ∀ errs, F (l, errs) w) :
    wp H Any (ends Q F) (closeOldServer l) w := by
  unfold closeOldServer
  split
  · split
    · refine wp_bind_idle (issues_closeServer hidle _) fun errs => ?_
      cases errs with
      | nil => exact hclosed
      | cons e errs => exact herr _
    · exact hok
  · exact hok

theorem idle_listenDNS (hidle : Spares H .server) (hok : Q l w)
    (hnew : ∀ server, Q { l with server := some server, serverReplaced := true } w)
    (herr : ∀ errs, F (l, errs) w) :
    wp H Any (ends Q F) (listenDNS l) w := by
  unfold listenDNS
  split
  · exact wp_call_idle (hidle _ rfl) (fun _ => herr _) fun server =>
      wp_bind_idle (issues_ofSome fun _ _ => issues_quietly (hidle _ rfl)) fun _ => hnew server
  · exact hok

theorem idle_scanRules {Q : Except CallError Rules.Collected → S → Prop} (hidle : Spares H .rules)
    (h : ∀ r, Q r w) (scan : Rules.Collected) (rules : List Rules.Rule) :
    wp H Any Q (s.scanRules scan rules) w := by
  induction rules generalizing scan with
  | nil => exact h _
  | cons rule rules ih =>
    refine ⟨trivial, fun r w' hr => ?_⟩
    obtain rfl := hidle _ rfl w r w' hr
    match r with
    | .error e => exact h _
    | .ok false => exact ih scan
    | .ok true =>
      refine ⟨trivial, fun r w' hr => ?_⟩
      obtain rfl := hidle _ rfl _ r w' hr
      cases r with
      | error e => exact h _
      | ok id =>
        simp only
        split
        · exact ih _
        · refine ⟨trivial, fun r w' hr => ?_⟩
          obtain rfl := hidle _ rfl _ r w' hr
          match r with
          | .error e => exact h _
          | .ok none => exact ih _
          | .ok (some comm) => exact ih _

theorem idle_defaultTunChecker {Q : Except HostError DefaultTunPmarkConfig → S → Prop}
    (hidle : Spares H .rules) (htracker : s.hasRuleTracker = true)
    (h : s.PriorityFits → ∀ config, config.check.isSome = true → Q (.ok config) w)
    (herr : ∀ e, Q (.error e) w) (opts : DefaultTunOpts) : wp H Any Q (s.defaultTunChecker opts) w := by
  unfold HostSettings.defaultTunChecker
  rw [if_neg (by simp [htracker])]
  split
  · exact herr _
  · rename_i hpriority
    rw [wp_bind]
    refine idle_scanRules hidle (fun r => ?_) _ _
    cases r with
    | error e => exact herr _
    | ok scan => exact h (by unfold HostSettings.PriorityFits; omega) _ rfl

theorem idle_compileRules (hidle : Spares H .rules)
    (hok : s.tunRulesSupported = true → s.PriorityFits →
      ∀ config, config.check.isSome = true → Q { l with pmarkConfig := config } w)
    (hstay : s.tunRulesSupported = false → Q l w) (herr : ∀ errs, F (l, errs) w) :
    wp H Any (ends Q F) (s.compileRules l) w := by
  unfold HostSettings.compileRules
  split
  · rename_i hsupported
    rw [wp_bind]
    exact idle_defaultTunChecker hidle (HostSettings.hasRuleTracker_of_supported hsupported)
      (hok hsupported) (fun _ => herr _) _
  · rename_i hsupported
    exact hstay (by simpa using hsupported)

theorem idle_installChecker (hidle : Spares H .checker) (hok : Q l w)
    (hinstalled : l.pmarkConfig.check.isSome = true → Q { l with pmarkCheckerInstalled := true } w)
    (herr : ∀ errs, F (l, errs) w)
    (herr' : ∀ errs, F ({ l with pmarkCheckerInstalled := true }, errs) w) :
    wp H Any (ends Q F) (s.installChecker l) w := by
  unfold HostSettings.installChecker
  split
  · exact hok
  · rename_i check hcheck
    have hkind : (s.checkerCall l.pmarkConfig check).kind = .checker := by
      unfold HostSettings.checkerCall
      split
      · rfl
      · rfl
    refine wp_call_idle (hidle _ hkind) (fun _ => herr _) fun _ => ?_
    exact idle_step (hidle _ rfl) (hinstalled (by simp [hcheck])) herr'

theorem idle_readIndex (hidle : Spares H .index) (hok : ∀ index, Q { l with index := index } w)
    (herr : ∀ errs, F (l, errs) w) :
    wp H Any (ends Q F) (readIndex l) w :=
  wp_call_idle (hidle _ rfl) (fun _ => herr _) hok

theorem idle_setDefaultTunDNSInterface (hidle : Spares H .dnsIndex) (hok : Q l w)
    (hset : Q { l with state := { l.state with dnsIfidxSet := true } } w)
    (herr : ∀ errs, F (l, errs) w) :
    wp H Any (ends Q F) (s.setDefaultTunDNSInterface l) w := by
  unfold HostSettings.setDefaultTunDNSInterface
  split
  · exact wp_call_idle (hidle _ rfl) (fun _ => herr _) fun _ => hset
  · exact hok

theorem idle_applyRouting (hidle : Spares H .routing)
    (hok : Q { l with appliedRC := some (s.buildConfig l) } w)
    (herr : ∀ errs, F (l, errs) w) :
    wp H Any (ends Q F) (s.applyRouting l) w := by
  refine wp_call_idle (hidle _ rfl) (fun e => ?_) fun _ => hok
  exact wp_bind_idle (issues_onlyIf (issues_releasing (hidle _ rfl))) fun _ => herr _

theorem idle_applyConnmark (hidle : Spares H .connmark)
    (hok : s.ConnmarkWorks → ∀ b, Q { l with connmarkSet := b } w)
    (herr : ∀ errs, F (l, errs) w) :
    wp H Any (ends Q F) (s.applyConnmark l) w := by
  unfold HostSettings.applyConnmark
  split
  · rename_i hnone
    exact hok (fun m hm => absurd (hnone.symm.trans hm) nofun) _
  · rename_i m hsome
    rw [wp_bind]
    refine wp_of_idle (issues_onConnmark hidle _ _)
      (yields_embed ((yields_apply m _).mono fun err herr' => ?_))
    cases err with
    | none =>
      refine hok (fun m' hm' _ => ?_) _
      obtain rfl := Option.some.inj (hsome.symm.trans hm')
      exact herr' rfl
    | some e =>
      simp only
      split
      · exact herr _
      · rename_i hoptional
        exact hok (fun m' _ hrequired => absurd hrequired hoptional) _

theorem idle_updateKillswitch (hidle : Spares H .killswitch) (hok : Q l w)
    (hset : ∀ id, Q { l with state := { l.state with killswitchID := id } } w)
    (herr : ∀ errs, F (l, errs) w) :
    wp H Any (ends Q F) (s.updateKillswitch l) w := by
  unfold HostSettings.updateKillswitch
  split
  · exact hok
  · split
    · exact wp_call_idle (hidle _ rfl) (fun _ => herr _) hset
    · exact idle_step (hidle _ rfl) hok herr

/-- A TUN that replaces the one that is gone. -/
theorem idle_createReplacement {input : BuildInput} {state : DefaultTunState}
    {Q : Except (List HostError) Build → S → Prop} (htun : Spares H .tun)
    (hreplaced : ∀ t, Q (.ok (.start input state t state.tun true)) w)
    (herr : ∀ errs, Q (.error errs) w) :
    wp H Any Q (.call (.createTUN s.defaultTunBaseName (normalizeMTU input.opts.mtu)) fun
        | .error e => .ret (.error [.call e])
        | .ok replacement =>
          match validateDefaultTunReplacement state.tun replacement with
          | some text =>
            (releasing (.closeTun replacement)).bind fun errs =>
              .ret (.error (.text text :: errs))
          | none => .ret (.ok (.start input state replacement state.tun true))) w := by
  refine wp_call_idle (htun _ rfl) (fun _ => herr _) fun replacement => ?_
  simp only
  split
  · refine wp_bind_idle (issues_releasing (htun _ rfl)) fun _ => ?_
    exact herr _
  · exact hreplaced _

/-- The TUN is there, or another one takes its place. -/
theorem idle_prepareDefaultTunLink {input : BuildInput} {state : DefaultTunState}
    {Q : Except (List HostError) Build → S → Prop} (htun : Spares H .tun)
    (hindex : Spares H .index)
    (hkept : ∀ t, state.tun = some t → Q (.ok (.start input state t none false)) w)
    (hreplaced : ∀ t, Q (.ok (.start input state t state.tun true)) w)
    (herr : ∀ errs, Q (.error errs) w) :
    wp H Any Q (s.prepareDefaultTunLink input state) w := by
  have hcreate := idle_createReplacement (s := s) htun hreplaced herr
  refine wp_call_idle (hindex _ rfl) (fun _ => hcreate) fun _ => ?_
  cases hstate : state.tun with
  | none =>
    rw [hstate] at hcreate
    exact hcreate
  | some t => exact hkept t hstate

/-- A first or a repeated build comes to a build on a link, or fails before it. -/
theorem idle_buildDefaultTun {Q : HostOutcome → S → Prop} {opts : DefaultTunOpts}
    {activeName : String} (htun : Spares H .tun) (hindex : Spares H .index)
    (hregistry : Spares H .registry) (hstays : ∀ e, Q (m, some e) w)
    (hfresh : ∀ input t, s.buildInput opts activeName = .ok input → m.closed = false →
      m.defaultTun = none →
      wp H Any Q
        (s.buildOn { m with defaultTunSourceGeneration := m.defaultTunSourceGeneration + 1 }
          (.start input (freshState (m.defaultTunSourceGeneration + 1) t) t none false)) w)
    (hkept : ∀ input state t, s.buildInput opts activeName = .ok input → m.closed = false →
      m.defaultTun = some state → state.tun = some t →
      wp H Any Q (s.buildOn m (.start input state t none false)) w)
    (hreplaced : ∀ input state t, s.buildInput opts activeName = .ok input → m.closed = false →
      m.defaultTun = some state →
      wp H Any Q (s.buildOn m (.start input state t state.tun true)) w) :
    wp H Any Q (s.buildDefaultTun m opts activeName) w := by
  unfold HostSettings.buildDefaultTun
  split
  · exact hstays _
  rename_i input hinput
  split
  · exact hstays _
  rename_i hclosed
  have hopen : m.closed = false := by simpa using hclosed
  split
  · rename_i hnone
    refine wp_call_idle (htun _ rfl) (fun _ => hstays _) fun t =>
      wp_bind_idle (issues_quietly (hregistry _ rfl)) fun _ => ?_
    exact hfresh input t hinput hopen hnone
  · rename_i state hsome
    rw [wp_bind]
    refine idle_prepareDefaultTunLink htun hindex (fun t ht => ?_) (fun t => ?_) fun errs => ?_
    · exact hkept input state t hinput hopen hsome ht
    · exact hreplaced input state t hinput hopen hsome
    · exact hstays _

/-! ## The other operations -/

theorem Memory.owned_some {d : DefaultTunState} (h : m.owned handle = some d) :
    m.defaultTun = some d ∧ d.handle = handle := by
  obtain ⟨hd, hhandle⟩ := Option.filter_eq_some_iff.mp h
  exact ⟨hd, by simpa using hhandle⟩

/-- `SetDNS` records the resolver, or is refused. -/
theorem idle_setDNS {Q : HostOutcome → S → Prop} {resolver : Option Resolver}
    (hserver : Spares H .server) (hstays : ∀ err, Q (m, err) w) (hset : ∀ d, m.defaultTun = some d →
      Q ({ m with defaultTun := some { d with resolver := resolver } }, none) w) :
    wp H Any Q (m.setDNS handle resolver) w := by
  unfold Memory.setDNS
  split
  · exact hstays _
  rename_i d howned
  split
  · exact hstays _
  split
  · exact hstays _
  rename_i server _
  have hdone := hset d (Memory.owned_some howned).1
  rw [wp_bind]
  cases resolver with
  | none => exact wp_of_idle (issues_quietly (hserver (.detach server) rfl)) fun _ => hdone
  | some resolver =>
    exact wp_of_idle (issues_quietly (hserver (.attach server resolver) rfl)) fun _ => hdone

/-- Behind a `Close` there is no default TUN, or nothing has happened. -/
theorem forgets_closeDefaultTun {Q : HostOutcome → S → Prop} (hstays : Q (m, none) w)
    (hnone : ∀ out w', out.1.defaultTun = none → Q out w') :
    wp H Any Q (s.closeDefaultTun m handle) w := by
  unfold HostSettings.closeDefaultTun
  split
  · exact hstays
  · rw [wp_bind]
    exact wp_of_forall (fun _ _ => hnone _ _ rfl) _ _

theorem forgets_closeSystem {Q : HostOutcome → S → Prop} (hstays : Q (m, none) w)
    (hnone : ∀ out w', out.1.defaultTun = none → Q out w') :
    wp H Any Q (s.closeSystem m) w := by
  unfold HostSettings.closeSystem
  split
  · exact hstays
  · refine ⟨trivial, fun r w' _ => ?_⟩
    simp only
    rw [wp_bind]
    exact wp_of_forall (fun _ _ => hnone _ _ rfl) _ _

/-- A dynamic update is refused, or works on the active default TUN. -/
theorem wp_updateDefaultTun {Q : HostOutcome → S → Prop} {u : Update}
    (hstays : ∀ err, Q (m, some err) w) (h : ∀ d t, m.owned handle = some d → d.tun = some t →
      wp H Any (fun out => Q ({ m with defaultTun := some { d with toTunState := out.1 } },
        out.2.map .update)) (onTun (some t) (s.update d.toTunState u)) w) :
    wp H Any Q (s.updateDefaultTun m handle u) w := by
  unfold HostSettings.updateDefaultTun
  split
  · exact hstays _
  rename_i d howned
  split
  · exact hstays _
  split
  · exact hstays _
  rename_i t ht
  rw [wp_bind]
  exact h d t howned ht

/-- `System.Close`, where only the default TUN matters. -/
theorem wp_closeSystem {Q : HostOutcome → S → Prop} (hregistry : Spares H .registry)
    (hcomponent : Spares H .component) (htun : Spares H .tun) (hstays : Q (m, none) w)
    (h : wp H Any (fun errs w' => ∀ es₁ es₂, Q ({ m with closed := true, defaultTun := none },
      joined (es₁ ++ errs ++ es₂)) w') (ofSome s.closeActive m.defaultTun) w) :
    wp H Any Q (s.closeSystem m) w := by
  unfold HostSettings.closeSystem
  split
  · exact hstays
  refine ⟨trivial, fun r w' hr => ?_⟩
  obtain rfl := hregistry _ rfl _ _ _ hr
  have hclosing : ∀ c, Issues (Idle H) (s.closing c) := fun c =>
    issues_onlyIf (issues_releasing (hcomponent _ rfl))
  simp only
  rw [wp_bind]
  refine wp_collect_at (i := 2) rfl (fun p hp => ?_) h
  simp only [List.eraseIdx, mem_cons, not_mem_nil, or_false] at hp
  rcases hp with rfl | rfl | rfl | rfl | rfl | rfl | rfl | rfl
  · exact hclosing _
  · exact hclosing _
  · exact issues_collect fun _ _ => issues_releasing (htun _ rfl)
  · exact hclosing _
  · exact hclosing _
  · exact hclosing _
  · exact hclosing _
  · exact issues_collect fun _ _ => hclosing _

end Programs

/-! ## Builds in which no call fails -/

section Succeeds

variable {S : Type} {H : Handler HostCall HostReply CallError S} {s : HostSettings}

/-- With no failing call the stage succeeds. -/
abbrev Succeeds (H : Handler HostCall HostReply CallError S) (stage : BuildStage) : Prop :=
  Stage (answered H) (fun _ _ => True) (fun _ _ => True) stage (fun _ _ => True) fun _ _ => False

theorem succeeds_step (c : Build → HostCall) : Succeeds H (step c) :=
  fun _ _ _ => (wp_call_answered _ _).mpr ⟨trivial, fun _ _ _ => trivial⟩

theorem answered_closeServer (server : Server) (w : S) :
    wp (answered H) Any (fun errs _ => errs = []) (closeServer server) w := by
  refine wp_collect_cons ⟨trivial, fun _ _ _ => ?_⟩
  refine wp_collect_cons ((wp_call_answered _ _).mpr ⟨trivial, fun _ _ _ => ?_⟩)
  exact wp_collect_nil rfl

theorem succeeds_closeOldServer : Succeeds H closeOldServer := by
  intro l w _
  unfold closeOldServer
  split
  · split
    · rw [wp_bind]
      refine wp_post (fun errs w' herrs => ?_) (answered_closeServer _ w)
      rw [herrs]
      exact trivial
    · exact trivial
  · exact trivial

theorem succeeds_listenDNS : Succeeds H listenDNS := by
  intro l w _
  unfold listenDNS
  split
  · refine (wp_call_answered _ _).mpr ⟨trivial, fun server w' _ => ?_⟩
    rw [wp_bind]
    exact wp_of_forall (fun _ _ => trivial) _ _
  · exact trivial

theorem answered_scanRules (scan : Rules.Collected) (rules : List Rules.Rule) (w : S) :
    wp (answered H) Any (fun r _ => isError r = false) (s.scanRules scan rules) w := by
  induction rules generalizing scan w with
  | nil => rfl
  | cons rule rules ih =>
    refine (wp_call_answered _ _).mpr ⟨trivial, fun compiled w' _ => ?_⟩
    cases compiled with
    | false => exact ih scan w'
    | true =>
      refine (wp_call_answered _ _).mpr ⟨trivial, fun id w' _ => ?_⟩
      simp only
      split
      · exact ih _ w'
      · refine (wp_call_answered _ _).mpr ⟨trivial, fun comm w' _ => ?_⟩
        cases comm with
        | none | some comm => exact ih _ w'

theorem succeeds_compileRules (h : s.tunRulesSupported = true → s.PriorityFits) :
    Succeeds H s.compileRules := by
  intro l w _
  unfold HostSettings.compileRules
  split
  · rename_i hsupported
    have htracker := HostSettings.hasRuleTracker_of_supported hsupported
    have hfits := h hsupported
    rw [wp_bind, HostSettings.defaultTunChecker, if_neg (by simp [htracker]),
      if_neg (by unfold HostSettings.PriorityFits at hfits; omega), wp_bind]
    refine wp_post (fun r w' hr => ?_) (answered_scanRules _ _ w)
    cases r with
    | error e => cases hr
    | ok scan => exact trivial
  · exact trivial

theorem succeeds_installChecker : Succeeds H s.installChecker := by
  intro l w _
  unfold HostSettings.installChecker
  split
  · exact trivial
  · exact (wp_call_answered _ _).mpr ⟨trivial, fun _ w' _ => succeeds_step _ _ w' trivial⟩

theorem succeeds_readIndex : Succeeds H readIndex :=
  fun _ _ _ => (wp_call_answered _ _).mpr ⟨trivial, fun _ _ _ => trivial⟩

theorem succeeds_setDefaultTunDNSInterface : Succeeds H s.setDefaultTunDNSInterface := by
  intro l w _
  unfold HostSettings.setDefaultTunDNSInterface
  split
  · exact (wp_call_answered _ _).mpr ⟨trivial, fun _ _ _ => trivial⟩
  · exact trivial

theorem succeeds_applyRouting : Succeeds H s.applyRouting :=
  fun _ _ _ => (wp_call_answered _ _).mpr ⟨trivial, fun _ _ _ => trivial⟩

theorem answered_connmarkRollback {H : Handler Connmark.NftCall Connmark.NftReply CallError S}
    (m : Connmark.Manager) (w : S) :
    wp (answered H) Any (fun err _ => err = none) m.rollback w := by
  unfold Connmark.Manager.rollback
  split
  · rfl
  · refine (wp_call_answered _ _).mpr ⟨trivial, fun tables w' _ => ?_⟩
    simp only
    split
    · exact (wp_call_answered _ _).mpr ⟨trivial, fun _ _ _ => rfl⟩
    · rfl

theorem answered_connmarkApply {H : Handler Connmark.NftCall Connmark.NftReply CallError S}
    {m : Connmark.Manager} {marks out : List Connmark.Mark} (hconn : m.conn = true)
    (hmarks : Connmark.normalizeMarks (E := CallError) marks = .ok out) (w : S) :
    wp (answered H) Any (fun err _ => err = none) (m.apply marks) w := by
  unfold Connmark.Manager.apply
  rw [if_neg (by simp [hconn]), hmarks]
  simp only
  rw [wp_bind]
  refine wp_post (fun err w' herr => ?_) (answered_connmarkRollback m w)
  rw [herr]
  simp only
  split
  · rfl
  · exact (wp_call_answered _ _).mpr ⟨trivial, fun _ _ _ => rfl⟩

theorem succeeds_applyConnmark (h : s.ConnmarkWorks) : Succeeds H s.applyConnmark := by
  intro l w _
  unfold HostSettings.applyConnmark
  split
  · exact trivial
  rename_i m hm
  rw [wp_bind]
  by_cases hrequired : s.connmarkRequired = true
  · obtain ⟨hconn, marks, hmarks⟩ := h m hm hrequired
    have hpull : pull (HostCall.connmark .applying) (fun _ r => r) (answered H) =
        answered (pull (HostCall.connmark .applying) (fun _ r => r) H) := by
      funext c s r s'
      simp [pull, answered]
    refine wp_embed.mpr ?_
    rw [hpull]
    refine wp_post (fun err w' herr => ?_) (answered_connmarkApply hconn hmarks w)
    rw [herr]
    exact trivial
  · refine wp_of_forall (fun err w' => ?_) _ _
    cases err with
    | none => exact trivial
    | some e =>
      simp only [if_neg hrequired]
      exact trivial

theorem succeeds_updateKillswitch : Succeeds H s.updateKillswitch := by
  intro l w _
  unfold HostSettings.updateKillswitch
  split
  · exact trivial
  · split
    · exact (wp_call_answered _ _).mpr ⟨trivial, fun _ _ _ => trivial⟩
    · exact succeeds_step _ _ w trivial

section

variable (hpriority : s.tunRulesSupported = true → s.PriorityFits) (hconnmark : s.ConnmarkWorks)
include hpriority hconnmark

theorem succeeds_stages : Succeeds H (inTurn s.stages) := by
  refine Stage.all fun stage hstage => ?_
  simp only [HostSettings.stages, mem_cons, not_mem_nil, or_false] at hstage
  rcases hstage with rfl | rfl | rfl | rfl | rfl | rfl | rfl | rfl | rfl | rfl | rfl | rfl | rfl
  · exact succeeds_step _
  · exact succeeds_step _
  · exact succeeds_step _
  · exact succeeds_closeOldServer
  · exact succeeds_listenDNS
  · exact succeeds_compileRules hpriority
  · exact succeeds_installChecker
  · exact succeeds_readIndex
  · exact succeeds_setDefaultTunDNSInterface
  · exact succeeds_applyRouting
  · exact succeeds_applyConnmark hconnmark
  · exact succeeds_step _
  · exact succeeds_updateKillswitch

theorem succeeds_buildOn (m : Memory) (l : Build) (w : S) :
    wp (answered H) Any (fun out _ => out.2 = none) (s.buildOn m l) w := by
  unfold HostSettings.buildOn
  rw [wp_bind]
  refine wp_post (fun r w' hr => ?_) (succeeds_stages hpriority hconnmark l w trivial)
  cases r with
  | error failed => exact absurd hr not_false
  | ok l' =>
    simp only
    rw [wp_bind]
    exact wp_of_forall (fun _ _ => rfl) _ _

/-- A build whose check has no issue and whose calls do not fail returns nil. -/
theorem succeeds_buildDefaultTun {m : Memory} {opts : DefaultTunOpts} {activeName : String}
    {input : BuildInput} (hinput : s.buildInput opts activeName = .ok input)
    (hopen : m.closed = false) (htun : ∀ d, m.defaultTun = some d → d.tun.isSome = true) (w : S) :
    wp (answered H) Any (fun out _ => out.2 = none) (s.buildDefaultTun m opts activeName) w := by
  unfold HostSettings.buildDefaultTun
  simp only [hinput]
  rw [if_neg (by simp [hopen])]
  cases hactive : m.defaultTun with
  | none =>
    simp only
    refine (wp_call_answered _ _).mpr ⟨trivial, fun t w' _ => ?_⟩
    simp only
    rw [wp_bind]
    exact ⟨trivial, fun _ w' _ => succeeds_buildOn hpriority hconnmark _ _ w'⟩
  | some d =>
    obtain ⟨t, ht⟩ := Option.isSome_iff_exists.mp (htun d hactive)
    simp only
    rw [wp_bind]
    refine (wp_call_answered _ _).mpr ⟨trivial, fun index w' _ => ?_⟩
    simp only [ht]
    exact succeeds_buildOn hpriority hconnmark _ _ w'

end

end Succeeds

/-! ## Histories -/

/-- Operations one after the other, each of them one of the `allowed`. -/
def Reach {S : Type} (s : HostSettings) (H : Handler HostCall HostReply CallError S)
    (allowed : HostOp → Prop) : Memory × S → Memory × S → Prop :=
  Relation.ReflTransGen fun x y =>
    ∃ op tr err, allowed op ∧ Exec H (s.perform x.1 op) x.2 tr (y.1, err) y.2

/-- What every operation keeps holds in every state that is reached. -/
theorem Reach.invariant {S : Type} {s : HostSettings}
    {H : Handler HostCall HostReply CallError S} {allowed : HostOp → Prop}
    {J : Memory → S → Prop} {x y : Memory × S} (h : Reach s H allowed x y)
    (hstep : ∀ m w op, allowed op → J m w → wp H Any (fun out w' => J out.1 w') (s.perform m op) w)
    (h0 : J x.1 x.2) : J y.1 y.2 := by
  induction h with
  | refl => exact h0
  | tail _ hlast ih =>
    obtain ⟨op, tr, err, hop, hex⟩ := hlast
    exact (wp_sound hex (hstep _ _ op hop ih)).2

end SysnetLinux.DefaultTun
