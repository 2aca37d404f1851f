/-
  SysnetLinux.DefaultTun.ClosedOnce

  Every native TUN is closed once.

  Any number of `BuildTun`, `BuildDefaultTun`, `Close` and `System.Close` calls run at the same
  time; a step is a section under the mutexes or one external call (`systemSteps`).  A TUN is
  owned by the registry, the active default TUN, or a call that has it in its hands: `handling`
  says what a call does with those, `Owned` ties them to the shared state.
-/

import Mathlib.Data.Finset.Option
import Mathlib.Data.Finset.SDiff
import SysnetLinux.DefaultTun.Built
import SysnetLinux.DefaultTun.Stages
import SysnetLinux.Lib.Threads

namespace SysnetLinux.DefaultTun

open Netip Routing CallProg CallProg.Prog CallProg.Threads List

/-! ## The calls that run at the same time -/

structure TunOpts where
  name : String
  mtu : Int
  tunAddrs : List CIDR
  tunRoutes : List CIDR

/-- A regular TUN is known by its native TUN. -/
inductive SystemStep where
  | host (c : HostCall)
  | setTunName (t : Tun) (name : String)
  /-- `defaultTunMu.Lock`; the reply is the memory that it guards. -/
  | lock
  /-- `defaultTunMu.Unlock`, with the memory that the holder leaves. -/
  | unlock (m : Memory)
  /-- The section of `BuildTun`; the reply is whether the system was open. -/
  | register (t : Tun)
  /-- The section of `Close` of a regular TUN; the reply is the native TUN to close. -/
  | unregister (t : Tun)

abbrev StepReply : SystemStep → Type
  | .host c => HostReply c
  | .lock => Memory
  | .register _ => Bool
  | .unregister _ => Option Tun
  | _ => Unit

abbrev ThreadProg (α : Type) := Prog SystemStep StepReply CallError α

def onHost {α : Type} (p : HostProg α) : ThreadProg α := embed SystemStep.host (fun _ r => r) p

def configuring (c : SystemStep) : ThreadProg (Except Failure Unit) := .call c fun
  | .ok _ => .ret (.ok ())
  | .error e => .ret (.error (.build [.call e]))

/-- The part of `BuildTun` between the TUN and its registration. -/
def configureTun (t : Tun) (opts : TunOpts) : ThreadProg (Except Failure Unit) :=
  match normalizeTunAddrs opts.tunAddrs none .zero with
  | .error e => .ret (.error (.parse e))
  | .ok (addrs, _) =>
    match normalizeTunRoutes opts.tunRoutes with
    | .error e => .ret (.error (.parse e))
    | .ok routes =>
      (configuring (.host (.setTunMTU t opts.mtu))).andThen fun _ =>
        (configuring (.host (.system (some t) (.setTunAddrs addrs)))).andThen fun _ =>
          (configuring (.host (.system (some t) (.setTunRoutes routes)))).andThen fun _ =>
            if opts.name = "" then .ret (.ok ()) else configuring (.setTunName t opts.name)

/-- `Close` of a regular TUN. -/
def closeRegularTun (t : Tun) : ThreadProg (Option Failure) :=
  .call (.unregister t) fun
    | .ok (some native) => .call (.host (.closeTun native)) fun
        | .ok _ => .ret none
        | .error e => .ret (joined [.call e])
    | _ => .ret none

/-- An operation that holds `defaultTunMu` to its end. -/
def guarded (op : Memory → HostProg HostOutcome) : ThreadProg (Option Failure) :=
  .call .lock fun
    | .ok m => (onHost (op m)).bind fun out => .call (.unlock out.1) fun _ => .ret out.2
    | .error e => .ret (joined [.call e])

namespace HostSettings

variable (s : HostSettings)

/-- `BuildTun`, with the issues that its check has found. -/
def buildTun (issues : List Issue) (opts : TunOpts) : ThreadProg (Option Failure) :=
  if issues ≠ [] then .ret (some (.options issues))
  else .call (.host (.createTUN s.defaultTunBaseName (normalizeMTU opts.mtu))) fun
    | .error e => .ret (some (.create e))
    | .ok t => (configureTun t opts).bind fun
        | .error failure => .call (.host (.closeTun t)) fun _ => .ret (some failure)
        | .ok _ => .call (.register t) fun
            | .ok true => .ret none
            | _ => .call (.host (.closeTun t)) fun _ => .ret (some .closed)

/-- What `System.Close` does while it holds `defaultTunMu`, behind its section. -/
def closeTuns (m : Memory) (tuns : List Tun) : HostProg (List HostError) :=
  collect id [
    s.closing .outNet,
    s.closing .localNet,
    ofSome s.closeActive m.defaultTun,
    collect (fun t => releasing (.closeTun t)) tuns]

/-- What `System.Close` does behind its `Unlock`. -/
def closeComponents : HostProg (List HostError) :=
  collect id [
    s.closing .dnsProvider,
    s.closing .routingManager,
    s.closing .connmark,
    s.closing .killswitch,
    collect (fun i => s.closing (.extraCloser i)) (List.range s.extraClosers).reverse]

/-- `System.Close`, with its mutex. -/
def closeSystemLocked : ThreadProg (Option Failure) :=
  .call .lock fun
    | .error e => .ret (joined [.call e])
    | .ok m =>
      if m.closed then .call (.unlock m) fun _ => .ret none
      else .call (.host .takeTuns) fun r =>
        let tuns := match r with
          | .ok tuns => tuns
          | .error _ => []
        (onHost (s.closeTuns m tuns)).bind fun errs =>
          .call (.unlock { m with closed := true, defaultTun := none }) fun _ =>
            (onHost s.closeComponents).bind fun errs' => .ret (joined (errs ++ errs'))

end HostSettings

inductive SystemOp where
  | buildTun (issues : List Issue) (opts : TunOpts)
  | closeRegularTun (t : Tun)
  | buildDefaultTun (opts : DefaultTunOpts) (activeName : String)
  | closeDefaultTun (handle : Nat)
  | closeSystem

def HostSettings.code (s : HostSettings) : SystemOp → ThreadProg (Option Failure)
  | .buildTun issues opts => s.buildTun issues opts
  | .closeRegularTun t => DefaultTun.closeRegularTun t
  | .buildDefaultTun opts activeName => guarded fun m => s.buildDefaultTun m opts activeName
  | .closeDefaultTun handle => guarded fun m => s.closeDefaultTun m handle
  | .closeSystem => s.closeSystemLocked

/-- The state that the calls share.  `memory` is what the last holder of `defaultTunMu` has
    left; `active` is the native TUN of the active default TUN; `made` are the TUNs of the
    factory, and `closes` the calls of `Close` on them. -/
structure Shared where
  memory : Memory
  holder : Option Nat
  closed : Bool
  tuns : List Tun
  active : Option Tun
  made : List Tun
  closes : List Tun

def Shared.initial : Shared := ⟨.initial, none, false, [], none, [], []⟩

/-- The steps of thread `i`.  A TUN of the factory is a new one, the registry is taken in any
    order, and any external call may fail, with any answer otherwise. -/
def systemSteps (i : Nat) : Handler SystemStep StepReply CallError Shared
  | .host (.createTUN _ _), w, .ok t, w' => (t : Tun) ∉ w.made ∧ w' = { w with made := t :: w.made }
  | .host (.closeTun t), w, _, w' => w' = { w with closes := t :: w.closes }
  | .host (.setActive t), w, r, w' => r = .ok () ∧ w' = { w with active := t }
  | .host .takeTuns, w, r, w' => ∃ tuns : List Tun, tuns.Perm w.tuns ∧ r = .ok tuns ∧
      w' = { w with tuns := [], active := none, closed := true }
  | .lock, w, r, w' => w.holder = none ∧ r = .ok w.memory ∧ w' = { w with holder := some i }
  | .unlock m, w, r, w' => r = .ok () ∧ w' = { w with memory := m, holder := none }
  | .register t, w, r, w' =>
    r = .ok (!w.closed) ∧ w' = if w.closed then w else { w with tuns := t :: w.tuns }
  | .unregister t, w, r, w' =>
    r = .ok (if t ∈ w.tuns then some t else none) ∧ w' = { w with tuns := w.tuns.erase t }
  | _, w, _, w' => w' = w

abbrev SystemConfig :=
  Config Nat SystemOp SystemStep StepReply CallError (Option Failure) Shared

/-- The configurations that any interleaving of calls leads to. -/
abbrev HostSettings.Runs (s : HostSettings) (cfg : SystemConfig) : Prop :=
  Threads.Reach s.code systemSteps (fun _ _ => True) Shared.initial cfg

/-! ## The hands of a call -/

/-- What a call has: the TUNs in its local variables; with `defaultTunMu`, the native TUN of
    the active default TUN and whether the system is closed; and whether it knows that the
    system is closed. -/
structure Hand where
  held : Finset Tun
  lock : Option (Option Tun × Bool)
  knows : Bool

def Memory.tun (m : Memory) : Option Tun := m.defaultTun.bind (·.tun)

/-- The hand of a call that has locked `defaultTunMu`. -/
abbrev Memory.hand (m : Memory) (knows : Bool) : Hand := ⟨∅, some (m.tun, m.closed), knows⟩

abbrev Hand.drop (h : Hand) (t : Tun) : Hand := { h with held := h.held.erase t }

/-- What a step makes of a hand; there is none behind a step on a TUN that is not in it, or
    on what `defaultTunMu` guards without it. -/
def Hand.closeTun (h : Hand) (t : Tun) : Option Hand :=
  if t ∈ h.held then some (h.drop t) else none

def Hand.setActive (h : Hand) (t : Option Tun) : Option Hand :=
  match h.lock with
  | some (old, closed) =>
    if t.toFinset ⊆ h.held ∧ (t.isSome = true → closed = false) then
      some { h with held := (h.held ∪ old.toFinset) \ t.toFinset, lock := some (t, closed) }
    else none
  | none => none

def Hand.takeTuns (h : Hand) (tuns : List Tun) : Option Hand :=
  h.lock.map fun x => ⟨h.held ∪ tuns.toFinset ∪ x.1.toFinset, some (none, true), true⟩

theorem Hand.closeTun_insert {t : Tun} {held : Finset Tun} (hnew : t ∉ held)
    {lock : Option (Option Tun × Bool)} {knows : Bool} :
    Hand.closeTun ⟨insert t held, lock, knows⟩ t = some ⟨held, lock, knows⟩ := by
  simp [Hand.closeTun, Finset.erase_insert hnew]

theorem Hand.setActive_only (t : Tun) (knows : Bool) :
    Hand.setActive ⟨insert t ∅, some (none, false), knows⟩ (some t) =
      some ⟨∅, some (some t, false), knows⟩ := by
  simp [Hand.setActive]

/-- The TUN is neither in the hand nor that of the active default TUN. -/
def Hand.Lacks (h : Hand) (t : Tun) : Prop := t ∉ h.held ∧ ∀ x, h.lock = some x → x.1 ≠ some t

/-- The calls of the components, as one call with its hand sees them. -/
def handling : Handler HostCall HostReply CallError (Option Hand)
  | .createTUN _ _, some h, .ok t, w' =>
    h.Lacks t ∧ w' = some { h with held := insert (t : Tun) h.held }
  | .closeTun t, some h, _, w' => w' = h.closeTun t
  | .setActive t, some h, _, w' => w' = h.setActive t
  | .takeTuns, some h, r, w' => ∃ tuns : List Tun, r = .ok tuns ∧ tuns.Nodup ∧
      (∀ t ∈ tuns, h.Lacks t) ∧ w' = h.takeTuns tuns
  | _, w, _, w' => w' = w

def threadHandling : Handler SystemStep StepReply CallError (Option Hand)
  | .host c, w, r, w' => handling c w r w'
  | .lock, some h, r, w' => ∃ m : Memory, r = .ok m ∧
      w' = some { h with lock := some (m.tun, m.closed), knows := h.knows || m.closed }
  | .unlock m, some h, _, w' =>
    w' = if h.lock = some (m.tun, m.closed) then some { h with lock := none } else none
  | .register t, some h, r, w' => ∃ isOpen : Bool, r = .ok isOpen ∧
      w' = if isOpen then h.closeTun t else some h
  | .unregister _, some h, r, w' => ∃ t : Option Tun, r = .ok t ∧ (∀ x ∈ t, x ∉ h.held) ∧
      w' = some { h with held := h.held ∪ t.toFinset }
  | _, w, _, w' => w' = w

theorem handling_spares (kind : CallKind) (h : (kind != .tun && kind != .registry) = true) :
    Spares handling kind := by
  rintro c rfl w r w' hr
  cases c with
  | createTUN | closeTun | setActive | takeTuns => cases h
  | _ => exact hr

/-- What the stages of a build leave alone. -/
def Build.tuns (l : Build) : Option Tun × Tun × Option Tun × Bool :=
  (l.state.tun, l.nativeTun, l.oldNativeTun, l.tunRecreated)

section Builds

variable {s : HostSettings} {l : Build} {h : Hand} {lock : Option (Option Tun × Bool)} {knows : Bool}

theorem tuns_stages (l : Build) (w : Option Hand) : wp handling Any
      (ends (fun l' w' => w' = w ∧ l'.tuns = l.tuns) fun f w' => w' = w ∧ f.1.tuns = l.tuns)
      (inTurn s.stages l) w := by
  have hspares := handling_spares
  refine Stage.all (P := fun l' w' => w' = w ∧ l'.tuns = l.tuns) (fun stage hstage l' w' h => ?_)
    l w ⟨rfl, rfl⟩
  simp only [HostSettings.stages, mem_cons, not_mem_nil, or_false] at hstage
  rcases hstage with rfl | rfl | rfl | rfl | rfl | rfl | rfl | rfl | rfl | rfl | rfl | rfl | rfl
  · exact idle_step (hspares .link rfl _ rfl) h fun _ => h
  · exact idle_step (hspares .link rfl _ rfl) h fun _ => h
  · exact idle_step (hspares .link rfl _ rfl) h fun _ => h
  · exact idle_closeOldServer (hspares .server rfl) h h fun _ => h
  · exact idle_listenDNS (hspares .server rfl) h (fun _ => h) fun _ => h
  · exact idle_compileRules (hspares .rules rfl) (fun _ _ _ _ => h) (fun _ => h) fun _ => h
  · exact idle_installChecker (hspares .checker rfl) h (fun _ => h) (fun _ => h) fun _ => h
  · exact idle_readIndex (hspares .index rfl) (fun _ => h) fun _ => h
  · exact idle_setDefaultTunDNSInterface (hspares .dnsIndex rfl) h h fun _ => h
  · exact idle_applyRouting (hspares .routing rfl) h fun _ => h
  · exact idle_applyConnmark (hspares .connmark rfl) (fun _ _ => h) fun _ => h
  · exact idle_step (hspares .dns rfl _ rfl) h fun _ => h
  · exact idle_updateKillswitch (hspares .killswitch rfl) h (fun _ => h) fun _ => h

theorem handling_closeActive (d : DefaultTunState) {Q : List HostError → Option Hand → Prop}
    (hheld : d.tun.toFinset ⊆ h.held)
    (hQ : ∀ errs, Q errs (some { h with held := h.held \ d.tun.toFinset })) :
    wp handling Any Q (s.closeActive d) (some h) := by
  have hspares := handling_spares
  refine wp_collect_at (i := 8) rfl (fun p hp => ?_) ?_
  · simp only [List.eraseIdx, mem_cons, not_mem_nil, or_false] at hp
    rcases hp with rfl | rfl | rfl | rfl | rfl | rfl | rfl | rfl
    · exact issues_unregisterRules s (hspares .rules rfl) _
    · exact issues_ofSome fun _ _ => issues_closeServer (hspares .server rfl) _
    · exact issues_releasing (hspares .dns rfl _ rfl)
    · exact issues_onlyIf (issues_clearDefaultTunDNSInterface s (hspares .dnsIndex rfl))
    · exact issues_ofSome fun _ _ => issues_releasing (hspares .routing rfl _ rfl)
    · exact issues_onlyIf (issues_rollbackConnmark s (hspares .connmark rfl))
    · exact issues_onlyIf (issues_releasing (hspares .killswitch rfl _ rfl))
    · exact issues_onlyIf (issues_releasing (hspares .checker rfl _ rfl))
  · cases htun : d.tun with
    | none =>
      rw [htun, Option.toFinset_none, Finset.sdiff_empty] at hQ
      exact fun es₁ es₂ => hQ (es₁ ++ [] ++ es₂)
    | some t =>
      rw [htun] at hQ hheld
      refine ⟨trivial, fun r w' hr => ?_⟩
      have hclosed : w' = some { h with held := h.held \ {t} } := by
        rw [show w' = h.closeTun t from hr, Hand.closeTun, if_pos (by simpa using hheld),
          ← Finset.erase_eq]
      subst hclosed
      cases r with
      | ok v | error e => exact fun es₁ es₂ => hQ _

/-- The hand of a build: a TUN that replaces the old one is in it. -/
structure Building (l : Build) (h : Hand) : Prop where
  lock : h.lock = some (l.state.tun, false)
  held : h.held = if l.tunRecreated then {l.nativeTun} else ∅
  kept : l.tunRecreated = false → l.state.tun = some l.nativeTun
  old : l.tunRecreated = true → l.oldNativeTun = l.state.tun ∧ l.state.tun ≠ some l.nativeTun

/-- Behind an operation that holds `defaultTunMu` the hand is empty, and the memory has what
    the mutex guards. -/
def Unhanded (knows : Bool) (out : HostOutcome) (w : Option Hand) : Prop :=
  w = some (out.1.hand knows)

theorem Building.of_tuns (hb : Building l h) {l' : Build} (htuns : l'.tuns = l.tuns) :
    Building l' h := by
  simp only [Build.tuns, Prod.mk.injEq] at htuns
  obtain ⟨htun, hnative, hold, hrecreated⟩ := htuns
  exact ⟨htun ▸ hb.lock, by rw [hrecreated, hnative]; exact hb.held,
    by rw [hrecreated, htun, hnative]; exact hb.kept,
    by rw [hrecreated, hold, htun, hnative]; exact hb.old⟩

theorem handling_fail (hb : Building l h) (cause : List HostError) :
    wp handling Any (fun _ w => w = some ⟨∅, some (none, false), h.knows⟩)
      (s.fail l cause) (some h) := by
  have hspares := handling_spares
  have hfirst : wp handling Any (fun _ w => w = some { h with held := ∅ })
      (onlyIf l.tunRecreated (releasing (.closeTun l.nativeTun))) (some h) := by
    have hheld := hb.held
    cases hrecreated : l.tunRecreated with
    | false =>
      rw [hrecreated] at hheld
      exact congrArg some (by rw [← show h.held = ∅ from hheld])
    | true =>
      rw [hrecreated, if_pos rfl] at hheld
      refine ⟨trivial, fun r w' hr => ?_⟩
      obtain ⟨held, lock, knows⟩ := h
      obtain rfl : held = insert l.nativeTun ∅ := hheld
      have hclosed := hr.trans (Hand.closeTun_insert (Finset.notMem_empty _))
      cases r with
      | ok v | error e => exact hclosed
  unfold HostSettings.fail
  rw [wp_bind]
  refine wp_collect_cons (wp_post (fun _ w' hw' => ?_) hfirst)
  subst hw'
  refine wp_collect_idle (issues_unregisterRules s (hspares .rules rfl) _) fun _ =>
    wp_collect_idle (issues_onlyIf (issues_ofSome fun _ _ =>
      issues_closeServer (hspares .server rfl) _)) fun _ =>
    wp_collect_idle (issues_onlyIf (issues_releasing (hspares .checker rfl _ rfl)))
      fun _ => wp_collect_idle (issues_onlyIf (issues_rollbackConnmark s
        (hspares .connmark rfl))) fun _ => wp_collect_cons ⟨trivial, fun r w' hr => ?_⟩
  have hgiven : w' = some ⟨l.state.tun.toFinset, some (none, false), h.knows⟩ := by
    rw [show w' = Hand.setActive _ none from hr, Hand.setActive]
    simp [hb.lock]
  subst hgiven
  refine wp_collect_cons (handling_closeActive _ (Finset.Subset.refl _) fun _ => wp_collect_nil ?_)
  simp [Build.failedState]

theorem handling_releaseReplaced (hb : Building l h) : wp handling Any
      (fun _ w => w = some ⟨∅, some (some l.nativeTun, false), h.knows⟩)
      (s.releaseReplaced l) (some h) := by
  have hspares := handling_spares
  have hidle : ∀ {w : Option Hand} {Q : List HostError → Option Hand → Prop}, (∀ errs, Q errs w) →
      wp handling Any Q (collect id [s.unregisterRules l.state.ruleIDs,
        onlyIf l.serverReplaced (ofSome closeServer l.oldServer)]) w := fun hQ =>
    wp_collect_idle (issues_unregisterRules s (hspares .rules rfl) _) fun _ =>
      wp_collect_idle (issues_onlyIf (issues_ofSome fun _ _ =>
        issues_closeServer (hspares .server rfl) _)) fun _ => hQ _
  have hheld := hb.held
  unfold HostSettings.releaseReplaced
  cases hrecreated : l.tunRecreated with
  | false =>
    rw [hrecreated] at hheld
    refine wp_collect_cons (wp_collect_cons (hidle fun _ => ?_))
    rw [← hb.kept hrecreated, ← hb.lock, ← show h.held = ∅ from hheld]
  | true =>
    obtain ⟨hold, hne⟩ := hb.old hrecreated
    rw [hrecreated, if_pos rfl] at hheld
    refine wp_collect_cons ⟨trivial, fun r w' hr => ?_⟩
    have hgiven : w' = some ⟨l.state.tun.toFinset, some (some l.nativeTun, false), h.knows⟩ := by
      rw [show w' = Hand.setActive h (some l.nativeTun) from hr, Hand.setActive, hb.lock]
      have hnew : l.nativeTun ∉ l.state.tun.toFinset := by simpa using hne
      simp [hheld, Finset.sdiff_singleton_eq_erase, Finset.erase_insert hnew]
    subst hgiven
    rw [hold]
    refine wp_collect_cons ?_
    cases htun : l.state.tun with
    | none => exact hidle fun _ => rfl
    | some old =>
      exact ⟨trivial, fun r w' hr => hidle fun _ =>
        hr.trans (Hand.closeTun_insert (Finset.notMem_empty _))⟩

theorem unhanded_buildOn (hb : Building l h) {m : Memory} (hopen : m.closed = false) :
    wp handling Any (Unhanded h.knows) (s.buildOn m l) (some h) := by
  unfold HostSettings.buildOn
  rw [wp_bind]
  refine wp_post (fun r w' hr => ?_) (tuns_stages l (some h))
  cases r with
  | error f =>
    obtain ⟨rfl, htuns⟩ := hr
    simp only
    rw [wp_bind]
    refine wp_post (fun _ w' hw' => hw'.trans ?_) (handling_fail (hb.of_tuns htuns) f.2)
    rw [← hopen]
    rfl
  | ok l' =>
    obtain ⟨rfl, htuns⟩ := hr
    have hb' := hb.of_tuns htuns
    simp only
    rw [wp_bind]
    refine wp_post (fun _ w' hw' => hw'.trans ?_) (handling_releaseReplaced hb')
    have htun : (if l'.tunRecreated then some l'.nativeTun else l'.state.tun) =
        some l'.nativeTun := by
      cases hrecreated : l'.tunRecreated with
      | false => exact hb'.kept hrecreated
      | true => rfl
    rw [← hopen, ← htun]
    rfl

theorem handling_prepareDefaultTunLink (input : BuildInput) (state : DefaultTunState) :
    wp handling Any (fun r w => match r with
        | .ok l => ∃ h, w = some h ∧ h.knows = knows ∧ Building l h
        | .error _ => w = some ⟨∅, some (state.tun, false), knows⟩)
      (s.prepareDefaultTunLink input state) (some ⟨∅, some (state.tun, false), knows⟩) := by
  refine ⟨trivial, fun r w hr => ?_⟩
  obtain rfl := handling_spares .index rfl _ rfl _ _ _ hr
  dsimp only
  split
  · rename_i t _ htun
    exact ⟨_, rfl, rfl, rfl, rfl, fun _ => htun, nofun⟩
  · refine ⟨trivial, fun r w hr => ?_⟩
    cases r with
    | error e => exact hr
    | ok t =>
      obtain ⟨hlacks, rfl⟩ := hr
      simp only
      split
      · refine ⟨trivial, fun r w hr => ?_⟩
        have hclosed := hr.trans (Hand.closeTun_insert hlacks.1)
        cases r with
        | ok v | error e => exact hclosed
      · exact ⟨_, rfl, rfl, rfl, rfl, nofun, fun _ => ⟨rfl, hlacks.2 _ rfl⟩⟩

/-- A first build, a build on the TUN that is there, or one on a TUN that replaces it. -/
theorem unhanded_buildDefaultTun (m : Memory) (opts : DefaultTunOpts) (activeName : String) :
    wp handling Any (Unhanded knows) (s.buildDefaultTun m opts activeName)
      (some (m.hand knows)) := by
  unfold HostSettings.buildDefaultTun
  split
  · rfl
  split
  · rfl
  rename_i input _ hclosed
  have hopen : m.closed = false := by simpa using hclosed
  split
  · rename_i hnone
    have hstart : m.hand knows = ⟨∅, some (none, false), knows⟩ := by
      rw [Memory.hand, Memory.tun, hnone, hopen]
      rfl
    refine ⟨trivial, fun r w hr => ?_⟩
    cases r with
    | error e => exact hr
    | ok t =>
      rw [hstart] at hr
      obtain ⟨-, rfl⟩ := hr
      refine ⟨trivial, fun r w hr => ?_⟩
      obtain rfl := hr.trans (Hand.setActive_only t knows)
      have hb : Building (.start input (freshState (m.defaultTunSourceGeneration + 1) t) t none
          false) ⟨∅, some (some t, false), knows⟩ := ⟨rfl, rfl, fun _ => rfl, nofun⟩
      exact unhanded_buildOn hb hopen
  · rename_i state hsome
    have hstart : m.hand knows = ⟨∅, some (state.tun, false), knows⟩ := by
      rw [Memory.hand, Memory.tun, hsome, hopen]
      rfl
    rw [wp_bind, hstart]
    refine wp_post (fun r w hr => ?_) (handling_prepareDefaultTunLink input state)
    cases r with
    | error errs => exact hr.trans (congrArg some hstart.symm)
    | ok l =>
      obtain ⟨h, rfl, rfl, hb⟩ := hr
      exact unhanded_buildOn hb hopen

theorem unhanded_closeDefaultTun (m : Memory) (handle : Nat) :
    wp handling Any (Unhanded knows) (s.closeDefaultTun m handle) (some (m.hand knows)) := by
  unfold HostSettings.closeDefaultTun
  split
  · rfl
  rename_i d howned
  have htun : m.tun = d.tun := by rw [Memory.tun, (Memory.owned_some howned).1]; rfl
  rw [wp_bind, Memory.hand, htun]
  refine wp_collect_cons ⟨trivial, fun r w hr => ?_⟩
  have hgiven : w = some ⟨d.tun.toFinset, some (none, m.closed), knows⟩ := by
    rw [show w = Hand.setActive _ none from hr, Hand.setActive]
    simp
  subst hgiven
  refine wp_collect_cons (handling_closeActive d (Finset.Subset.refl _) fun _ => wp_collect_nil ?_)
  show _ = _
  rw [Finset.sdiff_self]
  rfl

theorem handling_closeAll {tuns : List Tun} (hnodup : tuns.Nodup) :
    wp handling Any (fun _ w => w = some ⟨∅, lock, knows⟩)
      (collect (fun t => releasing (.closeTun t)) tuns) (some ⟨tuns.toFinset, lock, knows⟩) := by
  induction tuns with
  | nil => rfl
  | cons t tuns ih =>
    obtain ⟨hnew, hnodup⟩ := nodup_cons.mp hnodup
    rw [collect, wp_bind, toFinset_cons]
    refine ⟨trivial, fun r w hr => ?_⟩
    obtain rfl := hr.trans (Hand.closeTun_insert (by simpa using hnew))
    cases r with
    | ok v | error e => exact (wp_bind _ _).mpr (ih hnodup)

theorem handling_closeTuns {m : Memory} {tuns : List Tun} (hnodup : tuns.Nodup)
    (hlacks : ∀ t ∈ tuns, m.tun ≠ some t) :
    wp handling Any (fun _ w => w = some ⟨∅, lock, knows⟩) (s.closeTuns m tuns)
      (some ⟨tuns.toFinset ∪ m.tun.toFinset, lock, knows⟩) := by
  have hclosing : ∀ c, Issues (Idle handling) (s.closing c) := fun c =>
    issues_onlyIf (issues_releasing (handling_spares .component rfl _ rfl))
  have hactive : wp handling Any (fun _ w => w = some ⟨tuns.toFinset, lock, knows⟩)
      (ofSome s.closeActive m.defaultTun) (some ⟨tuns.toFinset ∪ m.tun.toFinset, lock, knows⟩) := by
    unfold Memory.tun at hlacks ⊢
    cases hd : m.defaultTun with
    | none => simp [ofSome]
    | some d =>
      rw [hd] at hlacks
      refine handling_closeActive d Finset.subset_union_right fun _ => ?_
      have hdisjoint : Disjoint tuns.toFinset d.tun.toFinset :=
        Finset.disjoint_left.mpr fun t ht htun =>
          hlacks t (mem_toFinset.mp ht) (Option.mem_toFinset.mp htun)
      simp [Finset.union_sdiff_cancel_right hdisjoint]
  refine wp_collect_idle (hclosing _) fun _ => wp_collect_idle (hclosing _) fun _ =>
    wp_collect_cons (wp_post (fun _ w hw => ?_) hactive)
  rw [hw]
  exact wp_collect_cons (wp_post (fun _ _ hdone => hdone) (handling_closeAll hnodup))

end Builds

/-! ## The calls on their own -/

/-- Behind a call its hand is empty, and behind `System.Close` the system is closed. -/
def Emptied (op : SystemOp) (_ : Option Failure) (w : Option Hand) : Prop :=
  ∃ knows, w = some ⟨∅, none, knows⟩ ∧ (op = .closeSystem → knows = true)

abbrev Empties (op : SystemOp) (p : ThreadProg (Option Failure)) (w : Option Hand) : Prop :=
  wp threadHandling Any (Emptied op) p w

theorem pull_threadHandling : pull SystemStep.host (fun _ r => r) threadHandling = handling := by
  funext c w r w'
  simp [pull, threadHandling]

section Threads

variable {op : SystemOp} {knows : Bool}

theorem empties_ret (hop : op ≠ .closeSystem) (err : Option Failure) :
    Empties op (.ret err) (some ⟨∅, none, knows⟩) := ⟨knows, rfl, fun heq => absurd heq hop⟩

theorem empties_closeTun {t : Tun} {k : Except CallError Unit → ThreadProg (Option Failure)}
    (h : ∀ r, Empties op (k r) (some ⟨∅, none, knows⟩)) :
    Empties op (.call (.host (.closeTun t)) k) (some ⟨insert t ∅, none, knows⟩) := by
  refine ⟨trivial, fun r w hr => ?_⟩
  obtain rfl := hr.trans (Hand.closeTun_insert (Finset.notMem_empty t))
  exact h r

theorem idle_configureTun (t : Tun) (opts : TunOpts) :
    Issues (Idle threadHandling) (configureTun t opts) := by
  have hconfiguring : ∀ c, Idle threadHandling c → Issues (Idle threadHandling) (configuring c) := by
    refine fun c hc => ⟨hc, fun r => ?_⟩
    cases r with
    | ok v | error e => exact trivial
  have hhost : ∀ c : HostCall, c.kind = .link → Idle threadHandling (.host c) := fun c hc =>
    handling_spares .link rfl c hc
  unfold configureTun
  split
  · exact trivial
  split
  · exact trivial
  refine issues_andThen (hconfiguring _ (hhost _ rfl)) fun _ => issues_andThen
    (hconfiguring _ (hhost _ rfl)) fun _ => issues_andThen (hconfiguring _ (hhost _ rfl)) fun _ => ?_
  split
  · exact trivial
  · exact hconfiguring _ fun _ _ _ hr => hr

theorem empties_buildTun (hop : op ≠ .closeSystem) (s : HostSettings) (issues : List Issue)
    (opts : TunOpts) : Empties op (s.buildTun issues opts) (some ⟨∅, none, knows⟩) := by
  unfold HostSettings.buildTun
  split
  · exact empties_ret hop _
  refine ⟨trivial, fun r w hr => ?_⟩
  cases r with
  | error e =>
    obtain rfl : w = _ := hr
    exact empties_ret hop _
  | ok t =>
    obtain ⟨-, rfl⟩ := hr
    refine wp_bind_idle (idle_configureTun t opts) fun r => ?_
    cases r with
    | error failure => exact empties_closeTun fun _ => empties_ret hop _
    | ok _ =>
      refine ⟨trivial, fun r w hr => ?_⟩
      obtain ⟨isOpen, rfl, hw⟩ := hr
      cases isOpen with
      | true =>
        obtain rfl := hw.trans (Hand.closeTun_insert (Finset.notMem_empty t))
        exact empties_ret hop _
      | false =>
        obtain rfl : w = _ := hw
        exact empties_closeTun fun _ => empties_ret hop _

theorem empties_closeRegularTun (hop : op ≠ .closeSystem) (t : Tun) :
    Empties op (closeRegularTun t) (some ⟨∅, none, knows⟩) := by
  refine ⟨trivial, fun r w hr => ?_⟩
  obtain ⟨native, rfl, -, rfl⟩ := hr
  cases native with
  | none => exact empties_ret hop _
  | some native =>
    refine empties_closeTun fun r => ?_
    cases r with
    | ok v | error e => exact empties_ret hop _

theorem empties_guarded (hop : op ≠ .closeSystem) {p : Memory → HostProg HostOutcome}
    (hp : ∀ m knows, wp handling Any (Unhanded knows) (p m) (some (m.hand knows))) :
    Empties op (guarded p) (some ⟨∅, none, knows⟩) := by
  refine ⟨trivial, fun r w hr => ?_⟩
  obtain ⟨m, rfl, rfl⟩ := hr
  refine (wp_bind _ _).mpr (wp_embed.mpr ?_)
  rw [pull_threadHandling]
  refine wp_post (fun out w hw => ⟨trivial, fun r w' hr => ?_⟩) (hp m (knows || m.closed))
  rw [show w = _ from hw] at hr
  exact ⟨_, hr.trans (if_pos rfl), fun heq => absurd heq hop⟩

theorem empties_closeSystem (s : HostSettings) :
    Empties op s.closeSystemLocked (some ⟨∅, none, knows⟩) := by
  refine ⟨trivial, fun r w hr => ?_⟩
  obtain ⟨m, rfl, rfl⟩ := hr
  show Empties op (if m.closed = true then _ else _) _
  split
  · rename_i hclosed
    refine ⟨trivial, fun r w hr => ⟨true, hr.trans ?_, fun _ => rfl⟩⟩
    rw [if_pos rfl, hclosed, Bool.or_true]
  · refine ⟨trivial, fun r w hr => ?_⟩
    obtain ⟨tuns, rfl, hnodup, hlacks, rfl⟩ := hr
    refine (wp_bind _ _).mpr (wp_embed.mpr ?_)
    rw [pull_threadHandling, Hand.takeTuns, Option.map_some, Finset.empty_union]
    refine wp_post (fun errs w hw => ⟨trivial, fun r w' hr => ?_⟩)
      (handling_closeTuns hnodup fun t ht => (hlacks t ht).2 _ rfl)
    rw [hw] at hr
    obtain rfl := hr.trans (if_pos rfl)
    have hclosing : ∀ c, Issues (fun c => Idle threadHandling (.host c)) (s.closing c) := fun c =>
      issues_onlyIf (issues_releasing (handling_spares .component rfl _ rfl))
    refine wp_bind_idle (issues_embed (issues_collect fun p hp => ?_))
      fun _ => ⟨true, rfl, fun _ => rfl⟩
    simp only [mem_cons, not_mem_nil, or_false] at hp
    rcases hp with rfl | rfl | rfl | rfl | rfl
    · exact hclosing _
    · exact hclosing _
    · exact hclosing _
    · exact hclosing _
    · exact issues_collect fun _ _ => hclosing _

theorem empties_code (s : HostSettings) (op : SystemOp) :
    Empties op (s.code op) (some ⟨∅, none, knows⟩) := by
  cases op with
  | buildTun issues opts => exact empties_buildTun (by nofun) s issues opts
  | closeRegularTun t => exact empties_closeRegularTun (by nofun) t
  | buildDefaultTun opts activeName =>
    exact empties_guarded (by nofun) fun m _ => unhanded_buildDefaultTun m opts activeName
  | closeDefaultTun handle =>
    exact empties_guarded (by nofun) fun m _ => unhanded_closeDefaultTun m handle
  | closeSystem => exact empties_closeSystem s

end Threads

/-! ## The hands of all calls -/

/-- Who has had a TUN last, and which threads know that the system is closed. -/
structure Ghost where
  owner : Tun → Nat
  knows : Nat → Bool

/-- The hand of thread `i`: a TUN that is neither registered nor active nor closed is in the
    hands of its owner. -/
def Shared.hand (w : Shared) (g : Ghost) (i : Nat) : Hand where
  held := w.made.toFinset.filter fun t =>
    t ∉ w.tuns ∧ w.active ≠ some t ∧ t ∉ w.closes ∧ g.owner t = i
  lock := if w.holder = some i then some (w.active, w.closed) else none
  knows := g.knows i

structure Owned (w : Shared) (g : Ghost) : Prop where
  tuns : w.tuns.Nodup ∧ ∀ t ∈ w.tuns, t ∈ w.made ∧ t ∉ w.closes ∧ w.active ≠ some t
  active : ∀ t, w.active = some t → t ∈ w.made ∧ t ∉ w.closes
  closes : w.closes.Nodup ∧ ∀ t ∈ w.closes, t ∈ w.made
  shut : w.closed = true → w.tuns = [] ∧ w.active = none
  knows : ∀ i, g.knows i = true → w.closed = true
  rest : w.holder = none → w.memory.tun = w.active ∧ w.memory.closed = w.closed

section Global

variable {w w' : Shared} {g : Ghost} {i : Nat} {t : Tun}

theorem mem_hand : t ∈ (w.hand g i).held ↔
    t ∈ w.made ∧ t ∉ w.tuns ∧ w.active ≠ some t ∧ t ∉ w.closes ∧ g.owner t = i := by
  simp [Shared.hand]

theorem hand_eq {h : Hand}
    (hheld : ∀ t, (t ∈ w.made ∧ t ∉ w.tuns ∧ w.active ≠ some t ∧ t ∉ w.closes ∧ g.owner t = i) ↔
      t ∈ h.held)
    (hlock : (if w.holder = some i then some (w.active, w.closed) else none) = h.lock)
    (hknows : g.knows i = h.knows) : w.hand g i = h := by
  obtain ⟨held, lock, knows'⟩ := h
  have hsame : (w.hand g i).held = held := by
    ext t
    exact mem_hand.trans (hheld t)
  exact Hand.mk.injEq .. ▸ ⟨hsame, hlock, hknows⟩

/-- Behind a step of thread `i` the threads have hands as before, apart from its own. -/
def PassesTo (g : Ghost) (i : Nat) (w w' : Shared) (h : Hand) : Prop :=
  ∃ g', Owned w' g' ∧ w'.hand g' i = h ∧ ∀ j, j ≠ i → w'.hand g' j = w.hand g j

theorem Owned.createTUN (h : Owned w g) (hnew : t ∉ w.made) : (w.hand g i).Lacks t ∧
      PassesTo g i w { w with made := t :: w.made }
        { w.hand g i with held := insert t (w.hand g i).held } := by
  have htuns : t ∉ w.tuns := fun ht => hnew (h.tuns.2 t ht).1
  have hactive : w.active ≠ some t := fun ht => hnew (h.active t ht).1
  have hcloses : t ∉ w.closes := fun ht => hnew (h.closes.2 t ht)
  refine ⟨⟨fun ht => hnew (mem_hand.mp ht).1, fun x hx => ?_⟩,
    ⟨Function.update g.owner t i, g.knows⟩, ?_, hand_eq (fun u => ?_) rfl rfl,
    fun j hj => hand_eq (fun u => ?_) rfl rfl⟩
  · simp only [Shared.hand] at hx
    grind
  · exact ⟨⟨h.tuns.1, fun u hu => by grind [h.tuns.2 u hu]⟩, fun u hu => by grind [h.active u hu],
      ⟨h.closes.1, fun u hu => by grind [h.closes.2 u hu]⟩, h.shut, h.knows, h.rest⟩
  · rw [Finset.mem_insert, mem_hand]
    grind [Function.update_apply]
  · rw [mem_hand]
    grind [Function.update_apply]

theorem Owned.closeTun (h : Owned w g) (ht : t ∈ (w.hand g i).held) :
    PassesTo g i w { w with closes := t :: w.closes } ((w.hand g i).drop t) := by
  obtain ⟨hmade, htuns, hactive, hcloses, howner⟩ := mem_hand.mp ht
  refine ⟨g, ⟨?_, ?_, ?_, h.shut, h.knows, h.rest⟩, hand_eq (fun u => ?_) rfl rfl,
    fun j hj => hand_eq (fun u => ?_) rfl rfl⟩
  · exact ⟨h.tuns.1, fun u hu => by grind [h.tuns.2 u hu]⟩
  · exact fun u hu => by grind [h.active u hu]
  · exact ⟨nodup_cons.mpr ⟨hcloses, h.closes.1⟩, fun u hu => by grind [h.closes.2 u]⟩
  · rw [Finset.mem_erase, mem_hand]
    grind
  · rw [mem_hand]
    grind

theorem hand_lock {x : Option Tun × Bool} (h : (w.hand g i).lock = some x) :
    w.holder = some i ∧ x = (w.active, w.closed) := by
  simp only [Shared.hand] at h
  grind

theorem Owned.setActive (h : Owned w g) {a : Option Tun} (hholder : w.holder = some i)
    (hsub : a.toFinset ⊆ (w.hand g i).held)
    (hopen : a.isSome = true → w.closed = false) :
    PassesTo g i w { w with active := a }
      ⟨((w.hand g i).held ∪ w.active.toFinset) \ a.toFinset, some (a, w.closed), g.knows i⟩ := by
  have ha : ∀ t, a = some t → t ∈ w.made ∧ t ∉ w.tuns ∧ w.active ≠ some t ∧ t ∉ w.closes ∧
      g.owner t = i := fun t ht => mem_hand.mp (hsub (Option.mem_toFinset.mpr ht))
  refine ⟨⟨fun u => if w.active = some u then i else g.owner u, g.knows⟩,
    ⟨?_, ?_, h.closes, ?_, h.knows, ?_⟩,
    hand_eq (fun u => ?_) (if_pos hholder) rfl, fun j hj => hand_eq (fun u => ?_) ?_ rfl⟩
  · exact ⟨h.tuns.1, fun u hu => by grind [h.tuns.2 u hu]⟩
  · exact fun u hu => by grind
  · intro hclosed
    refine ⟨(h.shut hclosed).1, ?_⟩
    cases a with
    | none => rfl
    | some t => exact absurd ((hopen rfl).symm.trans hclosed) nofun
  · exact fun hnone => absurd (hholder.symm.trans hnone) nofun
  · simp only [Finset.mem_sdiff, Finset.mem_union, Option.mem_toFinset, Option.mem_def, mem_hand]
    grind [h.active u, h.tuns.2 u]
  · rw [mem_hand]
    grind [h.active u, h.tuns.2 u]
  · simp only [Shared.hand, hholder]
    grind

theorem Owned.lacks (h : Owned w g) (i : Nat) {tuns : List Tun} (hperm : tuns.Perm w.tuns) :
    tuns.Nodup ∧ ∀ t ∈ tuns, (w.hand g i).Lacks t := by
  refine ⟨hperm.nodup_iff.mpr h.tuns.1, fun t ht => ⟨fun hheld => ?_, fun x hx => ?_⟩⟩
  · exact (mem_hand.mp hheld).2.1 (hperm.mem_iff.mp ht)
  · rw [(hand_lock hx).2]
    exact (h.tuns.2 t (hperm.mem_iff.mp ht)).2.2

theorem Owned.takeTuns (h : Owned w g) (hholder : w.holder = some i) {tuns : List Tun}
    (hperm : tuns.Perm w.tuns) :
    PassesTo g i w { w with tuns := [], active := none, closed := true }
      ⟨(w.hand g i).held ∪ tuns.toFinset ∪ w.active.toFinset, some (none, true), true⟩ := by
  have hmem : ∀ {t}, t ∈ tuns ↔ t ∈ w.tuns := hperm.mem_iff
  refine ⟨⟨fun u => if u ∈ w.tuns ∨ w.active = some u then i else g.owner u,
      Function.update g.knows i true⟩,
    ⟨⟨nodup_nil, nofun⟩, nofun, h.closes, fun _ => ⟨rfl, rfl⟩, fun _ _ => rfl, ?_⟩,
    hand_eq (fun u => ?_) (if_pos hholder) (Function.update_self ..),
    fun j hj => hand_eq (fun u => ?_) ?_ (Function.update_of_ne hj ..)⟩
  · exact fun hnone => absurd (hholder.symm.trans hnone) nofun
  · simp only [Finset.mem_union, mem_toFinset, Option.mem_toFinset, Option.mem_def, mem_hand, hmem]
    grind [h.active u, h.tuns.2 u]
  · rw [mem_hand]
    grind [h.active u, h.tuns.2 u]
  · simp only [Shared.hand, hholder]
    grind

theorem Owned.lock (h : Owned w g) (hfree : w.holder = none) :
    PassesTo g i w { w with holder := some i }
      ⟨(w.hand g i).held, some (w.memory.tun, w.memory.closed), g.knows i || w.memory.closed⟩ := by
  obtain ⟨htun, hclosed⟩ := h.rest hfree
  refine ⟨⟨g.owner, Function.update g.knows i (g.knows i || w.memory.closed)⟩,
    ⟨h.tuns, h.active, h.closes, h.shut, fun j hj => ?_, nofun⟩,
    hand_eq (fun u => by rw [mem_hand]) ?_ (Function.update_self ..),
    fun j hj => hand_eq (fun u => by rw [mem_hand]) ?_ (Function.update_of_ne hj ..)⟩
  · grind [h.knows j, Function.update_apply]
  · simp [htun, hclosed]
  · simp only [Shared.hand, hfree]
    grind

theorem Owned.unlock (h : Owned w g) {m : Memory} (hholder : w.holder = some i)
    (hm : (m.tun, m.closed) = (w.active, w.closed)) :
    PassesTo g i w { w with memory := m, holder := none } { w.hand g i with lock := none } := by
  refine ⟨g, ⟨h.tuns, h.active, h.closes, h.shut, h.knows, fun _ => ?_⟩,
    hand_eq (fun u => by rw [mem_hand]) rfl rfl, fun j hj => hand_eq (fun u => by rw [mem_hand]) ?_ rfl⟩
  · exact ⟨congrArg Prod.fst hm, congrArg Prod.snd hm⟩
  · simp only [Shared.hand, hholder]
    grind

theorem Owned.register (h : Owned w g) (hopen : w.closed = false) (ht : t ∈ (w.hand g i).held) :
    PassesTo g i w { w with tuns := t :: w.tuns } ((w.hand g i).drop t) := by
  obtain ⟨hmade, htuns, hactive, hcloses, howner⟩ := mem_hand.mp ht
  refine ⟨g, ⟨⟨nodup_cons.mpr ⟨htuns, h.tuns.1⟩, fun u hu => ?_⟩, h.active, h.closes,
    fun hclosed => absurd (hopen.symm.trans hclosed) nofun, h.knows, h.rest⟩,
    hand_eq (fun u => ?_) rfl rfl, fun j hj => hand_eq (fun u => ?_) rfl rfl⟩
  · grind [h.tuns.2 u]
  · rw [Finset.mem_erase, mem_hand]
    grind
  · rw [mem_hand]
    grind

theorem Owned.unregister (h : Owned w g) (ht : t ∈ w.tuns) :
    PassesTo g i w { w with tuns := w.tuns.erase t }
      { w.hand g i with held := (w.hand g i).held ∪ {t} } := by
  have hmem : ∀ u, u ∈ w.tuns.erase t ↔ u ≠ t ∧ u ∈ w.tuns := fun u => h.tuns.1.mem_erase_iff
  refine ⟨⟨Function.update g.owner t i, g.knows⟩,
    ⟨⟨h.tuns.1.erase t, fun u hu => ?_⟩, h.active, h.closes, fun hclosed => ?_, h.knows, h.rest⟩,
    hand_eq (fun u => ?_) rfl rfl, fun j hj => hand_eq (fun u => ?_) rfl rfl⟩
  · exact h.tuns.2 u ((hmem u).mp hu).2
  · exact absurd ht (by simp [(h.shut hclosed).1])
  · simp only [Finset.mem_union, Finset.mem_singleton, mem_hand]
    grind [h.tuns.2 u, Function.update_apply]
  · rw [mem_hand]
    grind [h.tuns.2 u, Function.update_apply]

/-- What a step of thread `i` does to its own hand. -/
theorem Owned.step (h : Owned w g) {c : SystemStep} {r : Except CallError (StepReply c)}
    (hstep : systemSteps i c w r w')
    (hallowed : ¬ threadHandling c (some (w.hand g i)) r none) :
    ∃ own, threadHandling c (some (w.hand g i)) r (some own) ∧ PassesTo g i w w' own := by
  have hsame : w' = w → PassesTo g i w w' (w.hand g i) := by
    rintro rfl
    exact ⟨g, h, rfl, fun _ _ => rfl⟩
  have hclose : ∀ {t : Tun}, (w.hand g i).closeTun t ≠ none →
      t ∈ (w.hand g i).held ∧ (w.hand g i).closeTun t = some ((w.hand g i).drop t) := by
    intro t ht
    unfold Hand.closeTun at ht ⊢
    split
    · exact ⟨by assumption, rfl⟩
    · exact absurd (if_neg (by assumption)) ht
  cases c with
  | host c =>
    cases c with
    | createTUN name mtu =>
      cases r with
      | error e => exact ⟨_, rfl, hsame hstep⟩
      | ok t =>
        obtain ⟨hnew, rfl⟩ := hstep
        obtain ⟨hlacks, hpasses⟩ := h.createTUN hnew
        exact ⟨_, ⟨hlacks, rfl⟩, hpasses⟩
    | closeTun t =>
      obtain ⟨ht, hclosed⟩ := hclose fun hnone => hallowed hnone.symm
      obtain rfl : w' = _ := hstep
      exact ⟨_, hclosed.symm, h.closeTun ht⟩
    | setActive a =>
      obtain ⟨-, rfl⟩ := hstep
      cases hlock : (w.hand g i).lock with
      | none => exact absurd (show none = Hand.setActive _ a by rw [Hand.setActive, hlock]) hallowed
      | some x =>
        obtain ⟨hholder, rfl⟩ := hand_lock hlock
        by_cases hgiven : a.toFinset ⊆ (w.hand g i).held ∧ (a.isSome = true → w.closed = false)
        · refine ⟨_, ?_, h.setActive hholder hgiven.1 hgiven.2⟩
          show _ = Hand.setActive _ a
          rw [Hand.setActive, hlock]
          exact (if_pos hgiven).symm
        · refine absurd (show none = Hand.setActive _ a from ?_) hallowed
          rw [Hand.setActive, hlock]
          exact (if_neg hgiven).symm
    | takeTuns =>
      obtain ⟨tuns, hperm, rfl, rfl⟩ := hstep
      obtain ⟨hnodup, hlacks⟩ := h.lacks i hperm
      cases hlock : (w.hand g i).lock with
      | none =>
        exact absurd ⟨tuns, rfl, hnodup, hlacks, by rw [Hand.takeTuns, hlock]; rfl⟩ hallowed
      | some x =>
        obtain ⟨hholder, rfl⟩ := hand_lock hlock
        exact ⟨_, ⟨tuns, rfl, hnodup, hlacks, by rw [Hand.takeTuns, hlock]; rfl⟩,
          h.takeTuns hholder hperm⟩
    | _ => exact ⟨_, rfl, hsame hstep⟩
  | setTunName t name => exact ⟨_, rfl, hsame hstep⟩
  | lock =>
    obtain ⟨hfree, rfl, rfl⟩ := hstep
    exact ⟨_, ⟨_, rfl, rfl⟩, h.lock hfree⟩
  | unlock m =>
    obtain ⟨-, rfl⟩ := hstep
    by_cases hlock : (w.hand g i).lock = some (m.tun, m.closed)
    · obtain ⟨hholder, hm⟩ := hand_lock hlock
      exact ⟨_, (if_pos hlock).symm, h.unlock hholder hm⟩
    · exact absurd (if_neg hlock).symm hallowed
  | register t =>
    obtain ⟨rfl, hw'⟩ := hstep
    by_cases hclosed : w.closed = true
    · exact ⟨_, ⟨false, by rw [hclosed]; rfl, rfl⟩, hsame (hw'.trans (if_pos hclosed))⟩
    · have hopen : w.closed = false := by simpa using hclosed
      have hr : (Except.ok !w.closed : Except CallError Bool) = .ok true := by rw [hopen]; rfl
      obtain ⟨ht, hregistered⟩ := hclose fun hnone => hallowed ⟨true, hr, hnone.symm⟩
      obtain rfl := hw'.trans (if_neg hclosed)
      exact ⟨_, ⟨true, hr, hregistered.symm⟩, h.register hopen ht⟩
  | unregister t =>
    obtain ⟨rfl, rfl⟩ := hstep
    by_cases ht : t ∈ w.tuns
    · refine ⟨_, ⟨some t, by rw [if_pos ht], fun u hu => ?_, rfl⟩, h.unregister ht⟩
      obtain rfl := Option.some.inj hu
      exact fun hheld => (mem_hand.mp hheld).2.1 ht
    · refine ⟨_, ⟨none, by rw [if_neg ht], nofun, rfl⟩, ?_⟩
      rw [Option.toFinset_none, Finset.union_empty]
      exact hsame (by rw [erase_of_not_mem ht])

/-- A call whose hand is lost does not end as it should. -/
theorem not_empties_none {op : SystemOp} (p : ThreadProg (Option Failure)) : ¬ Empties op p none := by
  induction p with
  | ret err => exact fun ⟨_, hnone, _⟩ => absurd hnone nofun
  | call c k ih =>
    intro h
    have hstep : threadHandling c none (.error (.tun "")) none := by
      cases c with
      | host c => cases c with
          | _ => rfl
      | _ => rfl
    exact ih _ (h.2 _ _ hstep)

/-- The thread goes on with its hand. -/
def Carries (h : Hand) : Option (SystemOp × ThreadProg (Option Failure)) → Prop
  | none => ∃ b, h = ⟨∅, none, b⟩
  | some (op, p) => Empties op p (some h)

def InHand (cfg : SystemConfig) : Prop :=
  ∃ g, Owned cfg.shared g ∧ ∀ i, Carries (cfg.shared.hand g i) (cfg.threads i)

theorem inHand_of_runs {s : HostSettings} {cfg : SystemConfig} (h : s.Runs cfg) : InHand cfg := by
  induction h with
  | initial =>
    exact ⟨⟨fun _ => 0, fun _ => false⟩, ⟨⟨nodup_nil, nofun⟩, nofun, ⟨nodup_nil, nofun⟩,
      nofun, nofun, fun _ => ⟨rfl, rfl⟩⟩, fun i => ⟨false, rfl⟩⟩
  | @step cfg cfg' a _ _ hstep ih =>
    obtain ⟨g, howned, hthreads⟩ := ih
    cases hstep with
    | @start _ i op hfree =>
      refine ⟨g, howned, fun j => ?_⟩
      by_cases hj : j = i
      · subst hj
        have hempty := hthreads j
        rw [hfree] at hempty
        obtain ⟨b, hempty⟩ := hempty
        rw [Config.goOn_threads_self]
        show Empties op _ (some (cfg.shared.hand g j))
        rw [hempty]
        exact empties_code s op
      · rw [Config.goOn_threads_of_ne cfg hj]
        exact hthreads j
    | @call _ i op c k r w' hcall hH =>
      have hown := hthreads i
      rw [hcall] at hown
      obtain ⟨own, hhandled, g', howned', hhand, hothers⟩ :=
        howned.step hH fun hnone => not_empties_none _ (hown.2 _ _ hnone)
      refine ⟨g', howned', fun j => ?_⟩
      by_cases hj : j = i
      · subst hj
        rw [Config.goOn_threads_self]
        show Empties op _ (some (w'.hand g' j))
        rw [hhand]
        exact hown.2 _ _ hhandled
      · rw [Config.goOn_threads_of_ne cfg hj]
        exact (hothers j hj).symm ▸ hthreads j

/-- A call that has returned has nothing in its hands. -/
theorem placed_of_returned {cfg : SystemConfig}
    (hthreads : ∀ i, Carries (cfg.shared.hand g i) (cfg.threads i)) (hreturned : cfg.Returned)
    (ht : t ∈ cfg.shared.made) :
    t ∈ cfg.shared.tuns ∨ cfg.shared.active = some t ∨ t ∈ cfg.shared.closes := by
  have hempty : (cfg.shared.hand g (g.owner t)).held = ∅ := by
    have hj := hthreads (g.owner t)
    cases hthread : cfg.threads (g.owner t) with
    | none =>
      rw [hthread] at hj
      obtain ⟨b, hj⟩ := hj
      rw [hj]
    | some x =>
      obtain ⟨err, hret⟩ := hreturned _ x.1 x.2 hthread
      rw [hthread, show x = (x.1, .ret err) from Prod.ext rfl hret] at hj
      obtain ⟨b, hj, -⟩ := hj
      rw [Option.some.inj hj]
  by_contra hlost
  rw [not_or, not_or] at hlost
  have hheld : t ∈ (cfg.shared.hand g (g.owner t)).held :=
    mem_hand.mpr ⟨ht, hlost.1, hlost.2.1, hlost.2.2, rfl⟩
  rw [hempty] at hheld
  exact Finset.notMem_empty t hheld

/-- Whatever the interleaving and whatever fails: a TUN of the factory is closed at most
    once, and not while it is registered or that of the active default TUN; once
    `System.Close` has returned and no call is in progress it has been closed once. -/
theorem tuns_closed_once {s : HostSettings} {cfg : SystemConfig} (h : s.Runs cfg) :
    (∀ t, cfg.shared.closes.count t ≤ 1) ∧
      (∀ t ∈ cfg.shared.closes, t ∉ cfg.shared.tuns ∧ cfg.shared.active ≠ some t) ∧
      (∀ i err, cfg.threads i = some (.closeSystem, .ret err) → cfg.Returned →
        ∀ t ∈ cfg.shared.made, cfg.shared.closes.count t = 1) := by
  obtain ⟨g, howned, hthreads⟩ := inHand_of_runs h
  refine ⟨fun t => nodup_iff_count_le_one.mp howned.closes.1 t,
    fun t ht => ⟨fun htuns => ?_, fun hactive => ?_⟩,
    fun i err hi hreturned t ht => count_eq_one_of_mem howned.closes.1 ?_⟩
  · exact (howned.tuns.2 t htuns).2.1 ht
  · exact (howned.active t hactive).2 ht
  · have hclosed : cfg.shared.closed = true := by
      have hi' := hthreads i
      rw [hi] at hi'
      obtain ⟨b, hhand, hknows⟩ := hi'
      refine howned.knows i ?_
      rw [show g.knows i = b from congrArg Hand.knows (Option.some.inj hhand)]
      exact hknows rfl
    obtain ⟨htuns, hactive⟩ := howned.shut hclosed
    simpa [htuns, hactive] using placed_of_returned hthreads hreturned ht

/-- A closed system has no TUN, in any state; and when no call is in progress, none is lost: each
    one that was made is registered, that of the active default TUN, or closed. -/
theorem tuns_accounted {s : HostSettings} {cfg : SystemConfig} (h : s.Runs cfg) :
    (cfg.shared.closed = true → cfg.shared.tuns = [] ∧ cfg.shared.active = none) ∧
      (cfg.Returned → ∀ t ∈ cfg.shared.made,
        t ∈ cfg.shared.tuns ∨ cfg.shared.active = some t ∨ t ∈ cfg.shared.closes) := by
  obtain ⟨g, howned, hthreads⟩ := inHand_of_runs h
  exact ⟨howned.shut, fun hreturned t ht => placed_of_returned hthreads hreturned ht⟩

end Global

def firstTun : Tun := ⟨0, true, 0, 0, 1⟩

def secondTun : Tun := ⟨1, true, 0, 0, 1⟩

theorem exec_buildTun {i : Nat} {t : Tun} {w : Shared} (hnew : t ∉ w.made)
    (hopen : w.closed = false) :
    ∃ tr, Exec (systemSteps i) (sampleHost.buildTun [] ⟨"", 1500, [], []⟩) w tr none
      { w with made := t :: w.made, tuns := t :: w.tuns } :=
  ⟨_, .call (r := .ok t) ⟨hnew, rfl⟩ (.call (r := .ok ()) rfl (.call (r := .ok ()) rfl
    (.call (r := .ok ()) rfl (.call (r := .ok true) ⟨by simp [hopen], by simp [hopen]⟩ .ret))))⟩

theorem runs_buildTun {cfg : SystemConfig} (h : sampleHost.Runs cfg) {i : Nat} {t : Tun}
    (hfree : cfg.threads i = none) (hnew : t ∉ cfg.shared.made)
    (hopen : cfg.shared.closed = false) :
    sampleHost.Runs (cfg.goOn i (.buildTun [] ⟨"", 1500, [], []⟩) (.ret none)
      { cfg.shared with made := t :: cfg.shared.made, tuns := t :: cfg.shared.tuns }) := by
  obtain ⟨_, hbuild⟩ := exec_buildTun hnew hopen
  exact Reach.exec (fun _ _ _ _ _ _ h => ⟨trivial, h⟩) hbuild
    (h.step (a := .start i (.buildTun [] ⟨"", 1500, [], []⟩)) trivial (.start hfree))

/-- Two regular TUNs. -/
def openState : Shared :=
  { Shared.initial with made := [secondTun, firstTun], tuns := [secondTun, firstTun] }

/-- The first one is being closed by itself. -/
def closingState : Shared := { openState with tuns := [secondTun] }

def closedState : Shared :=
  ⟨{ Memory.initial with closed := true }, none, true, [], none, [secondTun, firstTun], [secondTun]⟩

theorem exec_closeSystem : ∃ tr, Exec (systemSteps 3) sampleHost.closeSystemLocked closingState tr
    none closedState :=
  ⟨_, .call ⟨rfl, rfl, rfl⟩ (.call ⟨_, .refl _, rfl, rfl⟩ (.call (r := .ok ()) rfl
    (.call (r := .ok ()) rfl (.call (r := .ok ()) rfl (.call ⟨rfl, rfl⟩ (.call (r := .ok ()) rfl
      (.call (r := .ok ()) rfl (.call (r := .ok ()) rfl (.call (r := .ok ()) rfl
        (.call (r := .ok ()) rfl .ret))))))))))⟩

/-- `System.Close` runs while the `Close` of one of the TUNs has it in its hands. -/
theorem tuns_closed_once_overlap : ∃ cfg, sampleHost.Runs cfg ∧
    cfg.shared.closes = [firstTun, secondTun] ∧
    ∀ t ∈ cfg.shared.made, cfg.shared.closes.count t = 1 := by
  have hfirst := runs_buildTun (i := 0) (t := firstTun) .initial rfl (by decide) rfl
  have hsecond := runs_buildTun (i := 1) (t := secondTun) hfirst rfl (by decide) rfl
  have hstart := hsecond.step (a := .start 2 (.closeRegularTun firstTun)) trivial (.start rfl)
  have htake : systemSteps 2 (.unregister firstTun) openState (.ok (some firstTun)) closingState :=
    ⟨rfl, rfl⟩
  have htaken := hstart.step trivial (.call (i := 2) rfl htake)
  obtain ⟨_, hclose⟩ := exec_closeSystem
  have hsystem := Threads.Reach.exec (fun _ _ _ _ _ _ h => ⟨trivial, h⟩) hclose
    (htaken.step (a := .start 3 .closeSystem) trivial (.start rfl))
  have hlast : systemSteps 2 (.host (.closeTun firstTun)) closedState (.ok ())
      { closedState with closes := [firstTun, secondTun] } := rfl
  have hall := hsystem.step trivial (.call (i := 2) rfl hlast)
  refine ⟨_, hall, rfl, (tuns_closed_once hall).2.2 3 none rfl (Config.returned_of_done fun i => ?_)⟩
  rcases i with _ | _ | _ | _ | i <;> rfl

/-- The regular TUN is registered while the system is open. -/
theorem tuns_accounted_open : ∃ cfg, sampleHost.Runs cfg ∧ cfg.shared.tuns = [firstTun] ∧
    ∀ t ∈ cfg.shared.made,
      t ∈ cfg.shared.tuns ∨ cfg.shared.active = some t ∨ t ∈ cfg.shared.closes := by
  have hbuilt := runs_buildTun (i := 0) (t := firstTun) .initial rfl (by decide) rfl
  refine ⟨_, hbuilt, rfl, (tuns_accounted hbuilt).2 (Config.returned_of_done fun i => ?_)⟩
  rcases i with _ | i <;> rfl

end SysnetLinux.DefaultTun
