/-
  SysnetLinux.DefaultTun.RuleLedger

  The rules of the rule tracker and who owns them.

  Between calls the tracker has the rules of the active default TUN and of the matchers and no
  others (`ledger_balanced`), unless `defaultTunChecker` drops registered rules because a later
  one does not compile (`dropped_rule_stays`).
-/

import Mathlib.Order.Lattice.Nat
import SysnetLinux.DefaultTun.Built
import SysnetLinux.DefaultTun.Stages
import SysnetLinux.Lib.Ledger

namespace SysnetLinux.DefaultTun

open Netip Routing CallProg CallProg.Prog Tokens List

/-! ## Matchers -/

/-- The fields of `socketMatcher` that are assigned. -/
structure SocketMatcher where
  closed : Bool
  ruleIDs : List Nat
  deriving DecidableEq

/-- `BuildMatcher`; `issues` is what `CheckRule` reports. -/
def buildMatcher (rule : Rules.Rule) (issues : List Issue) :
    HostProg (Except Failure SocketMatcher) :=
  if issues ≠ [] then .ret (.error (.options issues))
  else .call (.compileRule rule) fun
    | .error e => .ret (.error (.create e))
    | .ok false => .ret (.ok ⟨false, []⟩)
    | .ok true =>
      .call (.registerRule rule) fun
        | .error e => .ret (.error (.create e))
        | .ok (id : Nat) => .ret (.ok ⟨false, [id]⟩)

/-- `socketMatcher.Close`. -/
def SocketMatcher.close (matcher : SocketMatcher) : HostProg SocketMatcher :=
  if matcher.closed then .ret matcher
  else (collect (fun id => quietly (.unregisterRule id)) matcher.ruleIDs).bind fun _ =>
    .ret ⟨true, []⟩

/-- The default TUN and the matchers that were built. -/
structure Owners where
  memory : Memory
  matchers : List SocketMatcher

def Owners.initial : Owners := ⟨.initial, []⟩

inductive OwnerOp where
  | host (op : HostOp)
  | buildMatcher (rule : Rules.Rule) (issues : List Issue)
  | closeMatcher (i : Nat)

def HostSettings.performOwner (s : HostSettings) (o : Owners) :
    OwnerOp → HostProg (Owners × Option Failure)
  | .host op => (s.perform o.memory op).bind fun out => .ret (⟨out.1, o.matchers⟩, out.2)
  | .buildMatcher rule issues =>
    (DefaultTun.buildMatcher rule issues).bind fun
      | .error e => .ret (o, some e)
      | .ok matcher => .ret (⟨o.memory, o.matchers ++ [matcher]⟩, none)
  | .closeMatcher i =>
    match o.matchers[i]? with
    | none => .ret (o, none)
    | some matcher =>
      matcher.close.bind fun matcher' => .ret (⟨o.memory, o.matchers.set i matcher'⟩, none)

/-- The rules of the matchers that are not closed. -/
def matcherIDs (matchers : List SocketMatcher) : List Nat :=
  (matchers.filter fun matcher => !matcher.closed).flatMap SocketMatcher.ruleIDs

/-- The rules of the active default TUN. -/
def tunIDs (m : Memory) : List Nat := (m.defaultTun.map DefaultTunState.ruleIDs).getD []

/-! ## The tracker -/

/-- The tracker, and whether the current call has registered a rule. -/
structure Tracker where
  rules : Ledger Nat
  registered : Bool

/-- `RegisterRule` gives out an ID that was never used and does not fail; any other call
    may fail, with any answer otherwise. -/
def tracking : Handler HostCall HostReply CallError Tracker
  | .registerRule _, w, .ok id, w' => w.rules.Unused id ∧ w' = ⟨w.rules.acquire id, true⟩
  | .registerRule _, _, .error _, _ => False
  | .unregisterRule id, w, _, w' => w' = { w with rules := w.rules.release id }
  | _, w, _, w' => w' = w

/-- The calls of the loop of `defaultTunChecker` that can fail. -/
def HostCall.inspectsRule : HostCall → Bool
  | .compileRule _ => true
  | .exactCommFromRegexp _ => true
  | _ => false

/-- A call whose failure drops rules: the loop returns without those that it has registered. -/
def DropsRules (c : HostCall) (w : Tracker) : Prop := c.inspectsRule = true ∧ w.registered = true
  deriving Decidable

/-- The tracker where no call fails that would drop rules. -/
abbrev keeping : Handler HostCall HostReply CallError Tracker := restrict tracking DropsRules

theorem keeping_spares (kind : CallKind) (h : (kind != .rules) = true) : Spares keeping kind := by
  rintro c rfl w r w' ⟨hr, -⟩
  cases c with
  | compileRule | exactCommFromRegexp | registerRule | unregisterRule => cases h
  | _ => exact hr

/-- A call of a history, whose calls to the components went as `G` says.  The tracker is
    told that it starts. -/
def OwnerStep (s : HostSettings) (G : List (Event HostCall Tracker) → Prop)
    (x y : Owners × Tracker) : Prop :=
  ∃ op tr err, G tr ∧
    Exec tracking (s.performOwner x.1 op) { x.2 with registered := false } tr (y.1, err) y.2

/-- No call failed that drops rules. -/
def KeepsRules (tr : List (Event HostCall Tracker)) : Prop :=
  ∀ ev ∈ tr, ev.failed = true → ¬ DropsRules ev.call ev.before
  deriving Decidable

def Tracker.initial : Tracker := ⟨⟨∅, []⟩, false⟩

/-- The tracker has the rules of the owners and no others, each with one owner, and no rule
    was unregistered twice. -/
def Owners.Balanced (o : Owners) (w : Tracker) : Prop :=
  Tokens.Balanced w.rules (tunIDs o.memory ++ matcherIDs o.matchers)

/-! ## Registering and unregistering -/

section Rules

variable {s : HostSettings} {w : Tracker} {owned ids : List Nat}

theorem balanced_unregister {Q : List HostError → Tracker → Prop} {id : Nat}
    (h : Balanced w.rules (id :: owned))
    (hQ : ∀ w', w'.registered = w.registered → Balanced w'.rules owned → Q [] w') :
    wp keeping Any Q (quietly (.unregisterRule id)) w := by
  refine ⟨trivial, fun r w' hr => ?_⟩
  obtain ⟨rfl, -⟩ := hr
  exact hQ _ rfl h.release

theorem balanced_unregisterAll (h : Balanced w.rules (ids ++ owned)) : wp keeping Any
      (fun _ (w' : Tracker) => w'.registered = w.registered ∧ Balanced w'.rules owned)
      (collect (fun id => quietly (.unregisterRule id)) ids) w := by
  refine wp_collect (fun _ rest (w' : Tracker) => w'.registered = w.registered ∧
    Balanced w'.rules (rest ++ owned)) ids (fun errs id rest w' h' => ?_) ⟨rfl, h⟩
  exact balanced_unregister h'.2 fun w'' hsame hbalanced => ⟨hsame.trans h'.1, hbalanced⟩

/-- Without a tracker there are no rules to unregister. -/
theorem balanced_unregisterRules (htracker : s.hasRuleTracker = true ∨ ids = [])
    (h : Balanced w.rules (ids ++ owned)) :
    wp keeping Any (fun _ (w' : Tracker) => w'.registered = w.registered ∧ Balanced w'.rules owned)
      (s.unregisterRules ids) w := by
  unfold HostSettings.unregisterRules
  split
  · exact balanced_unregisterAll h
  · rename_i hnone
    rcases htracker with htracker | rfl
    · exact absurd htracker hnone
    · exact ⟨rfl, h⟩

theorem balanced_register {rule : Rules.Rule} {α : Type}
    {k : Except CallError (HostReply (.registerRule rule)) → HostProg α}
    {Q : α → Tracker → Prop} (h : Balanced w.rules owned)
    (hk : ∀ (id : Nat) w', w'.registered = true → Balanced w'.rules (owned ++ [id]) →
      wp keeping Any Q (k (.ok id)) w') :
    wp keeping Any Q (.call (.registerRule rule) k) w := by
  refine ⟨trivial, fun r w' hr => ?_⟩
  obtain ⟨hr, -⟩ := hr
  cases r with
  | error e => exact absurd hr not_false
  | ok id =>
    obtain ⟨hunused, rfl⟩ := hr
    exact hk id _ rfl (h.acquire hunused)

/-- The loop of `defaultTunChecker`: the rules that it has registered are its own, and it
    fails only while there are none. -/
theorem balanced_scanRules (scan : Rules.Collected) (rules : List Rules.Rule)
    (h : Balanced w.rules (owned ++ scan.ids)) (hregistered : scan.ids ≠ [] → w.registered = true) :
    wp keeping Any (fun r w' => match r with
        | .ok scan' => Balanced w'.rules (owned ++ scan'.ids)
        | .error _ => Balanced w'.rules owned) (s.scanRules scan rules) w := by
  induction rules generalizing scan w with
  | nil => exact h
  | cons rule rules ih =>
    refine ⟨trivial, fun r w' hr => ?_⟩
    obtain ⟨hw, hfails⟩ := hr
    obtain rfl : w' = w := hw
    match r with
    | .error e =>
      -- Nothing has been registered, or the failure would drop it.
      have hnone : scan.ids = [] := by
        by_contra hne
        exact hfails rfl ⟨rfl, hregistered hne⟩
      show Balanced w'.rules owned
      rwa [hnone, append_nil] at h
    | .ok false => exact ih scan h hregistered
    | .ok true =>
      refine balanced_register h fun id w'' hset hbalanced => ?_
      rw [append_assoc] at hbalanced
      simp only
      split
      · exact ih _ hbalanced fun _ => hset
      · refine ⟨trivial, fun r w₃ hr => ?_⟩
        obtain ⟨hw, hfails⟩ := hr
        obtain rfl : w₃ = w'' := hw
        match r with
        | .error e => exact absurd ⟨rfl, hset⟩ (hfails rfl)
        | .ok none => exact ih _ hbalanced fun _ => hset
        | .ok (some comm) => exact ih _ hbalanced fun _ => hset

end Rules

/-! ## A build -/

/-- The tracker has the rules of the others, of the default TUN and of the build. -/
structure Registering (s : HostSettings) (others : List Nat) (l : Build) (w : Tracker) : Prop where
  balanced : Balanced w.rules (others ++ l.state.ruleIDs ++ l.pmarkConfig.ruleIDs)
  tracker : s.hasRuleTracker = true ∨ (l.state.ruleIDs = [] ∧ l.pmarkConfig.ruleIDs = [])

section Build

variable {s : HostSettings} {others : List Nat}

variable {l : Build} {w : Tracker}

theorem registering_of_eq {l' : Build} (h : Registering s others l w)
    (hstate : l'.state.ruleIDs = l.state.ruleIDs) (hconfig : l'.pmarkConfig = l.pmarkConfig) :
    Registering s others l' w := by
  refine ⟨?_, ?_⟩
  · rw [hstate, hconfig]
    exact h.balanced
  · rw [hstate, hconfig]
    exact h.tracker

theorem registering_compileRules : Stage keeping Any
      (fun l w => Registering s others l w ∧ l.pmarkConfig.ruleIDs = [] ∧ w.registered = false)
      s.compileRules (Registering s others) (fun f w => Registering s others f.1 w) := by
  rintro l w ⟨h, hnone, hfresh⟩
  unfold HostSettings.compileRules
  split
  · rename_i hsupported
    have htracker := HostSettings.hasRuleTracker_of_supported hsupported
    have hbalanced := h.balanced
    rw [hnone, append_nil] at hbalanced
    rw [wp_bind, HostSettings.defaultTunChecker, if_neg (by simp [htracker])]
    split
    · exact ⟨h.balanced, .inl htracker⟩
    · rw [wp_bind]
      refine wp_post (fun r w' hr => ?_) (balanced_scanRules ⟨[], [], false⟩ _
        (by rw [append_nil]; exact hbalanced) fun hne => absurd rfl hne)
      cases r with
      | error e =>
        refine ⟨?_, .inl htracker⟩
        rw [hnone, append_nil]
        exact hr
      | ok scan => exact ⟨hr, .inl htracker⟩
  · exact h

theorem registering_stages : Stage keeping Any
      (fun l w => Registering s others l w ∧ l.pmarkConfig.ruleIDs = [] ∧ w.registered = false)
      (inTurn s.stages) (Registering s others) (fun f w => Registering s others f.1 w) := by
  have hspares := keeping_spares
  refine Stage.cons (fun l w h => idle_step (hspares .link rfl _ rfl) h fun _ => h.1) ?_
  refine Stage.cons (fun l w h => idle_step (hspares .link rfl _ rfl) h fun _ => h.1) ?_
  refine Stage.cons (fun l w h => idle_step (hspares .link rfl _ rfl) h fun _ => h.1) ?_
  refine Stage.cons (fun l w h => idle_closeOldServer (hspares .server rfl) h
    ⟨registering_of_eq h.1 rfl rfl, h.2⟩ fun _ => h.1) ?_
  refine Stage.cons (fun l w h => idle_listenDNS (hspares .server rfl) h
    (fun _ => ⟨registering_of_eq h.1 rfl rfl, h.2⟩) fun _ => h.1) ?_
  refine Stage.cons registering_compileRules ?_
  refine Stage.all fun stage hstage => ?_
  simp only [mem_cons, not_mem_nil, or_false] at hstage
  rcases hstage with rfl | rfl | rfl | rfl | rfl | rfl | rfl
  · exact fun l w h => idle_installChecker (hspares .checker rfl) h
      (fun _ => registering_of_eq h rfl rfl) (fun _ => h) fun _ => registering_of_eq h rfl rfl
  · exact fun l w h => idle_readIndex (hspares .index rfl)
      (fun _ => registering_of_eq h rfl rfl) fun _ => h
  · exact fun l w h => idle_setDefaultTunDNSInterface (hspares .dnsIndex rfl) h
      (registering_of_eq h rfl rfl) fun _ => h
  · exact fun l w h => idle_applyRouting (hspares .routing rfl)
      (registering_of_eq h rfl rfl) fun _ => h
  · exact fun l w h => idle_applyConnmark (hspares .connmark rfl)
      (fun _ _ => registering_of_eq h rfl rfl) fun _ => h
  · exact fun l w h => idle_step (hspares .dns rfl _ rfl) h fun _ => h
  · exact fun l w h => idle_updateKillswitch (hspares .killswitch rfl) h
      (fun _ => registering_of_eq h rfl rfl) fun _ => h

theorem balanced_closeActive {d : DefaultTunState}
    (htracker : s.hasRuleTracker = true ∨ d.ruleIDs = [])
    (h : Balanced w.rules (d.ruleIDs ++ others)) :
    wp keeping Any (fun _ w' => Balanced w'.rules others) (s.closeActive d) w := by
  have hspares := keeping_spares
  refine wp_collect_cons (wp_post (fun _ w' h' => ?_) (balanced_unregisterRules htracker h))
  refine wp_of_idle (issues_collect fun p hp => ?_) (yields_of_forall (fun _ => h'.2) _)
  simp only [mem_cons, not_mem_nil, or_false] at hp
  rcases hp with rfl | rfl | rfl | rfl | rfl | rfl | rfl | rfl
  · exact issues_ofSome fun server _ => issues_closeServer (hspares .server rfl) server
  · exact issues_releasing (hspares .dns rfl _ rfl)
  · exact issues_onlyIf (issues_clearDefaultTunDNSInterface s (hspares .dnsIndex rfl))
  · exact issues_ofSome fun _ _ => issues_releasing (hspares .routing rfl _ rfl)
  · exact issues_onlyIf (issues_rollbackConnmark s (hspares .connmark rfl))
  · exact issues_onlyIf (issues_releasing (hspares .killswitch rfl _ rfl))
  · exact issues_onlyIf (issues_releasing (hspares .checker rfl _ rfl))
  · exact issues_ofSome fun _ _ => issues_releasing (hspares .tun rfl _ rfl)

theorem balanced_fail (cause : List HostError) (h : Registering s others l w) :
    wp keeping Any (fun _ w' => Balanced w'.rules others) (s.fail l cause) w := by
  have hspares := keeping_spares
  have hnew : s.hasRuleTracker = true ∨ l.pmarkConfig.ruleIDs = [] := h.tracker.imp id And.right
  have hold : s.hasRuleTracker = true ∨ l.state.ruleIDs = [] := h.tracker.imp id And.left
  have hbalanced : Balanced w.rules (l.pmarkConfig.ruleIDs ++ (l.state.ruleIDs ++ others)) := by
    refine h.balanced.perm (perm_append_comm.trans (List.Perm.append_left _ ?_))
    exact perm_append_comm
  unfold HostSettings.fail
  rw [wp_bind]
  refine wp_collect_idle (issues_onlyIf (issues_releasing (hspares .tun rfl _ rfl)))
    fun _ => wp_collect_cons (wp_post (fun _ w' h' => ?_) (balanced_unregisterRules hnew hbalanced))
  refine wp_collect_idle (issues_onlyIf (issues_ofSome fun server _ =>
      issues_closeServer (hspares .server rfl) server))
    fun _ => wp_collect_idle (issues_onlyIf (issues_releasing (hspares .checker rfl _ rfl)))
    fun _ => wp_collect_idle (issues_onlyIf (issues_rollbackConnmark s (hspares .connmark rfl)))
    fun _ => wp_collect_idle (issues_quietly (hspares .registry rfl _ rfl))
    fun _ => wp_collect_cons (wp_post (fun _ w'' h'' => wp_collect_nil h'')
      (balanced_closeActive hold h'.2))

/-- The default TUN and the tracker behind an operation. -/
def TunBalanced (s : HostSettings) (others : List Nat) (m : Memory) (w : Tracker) : Prop :=
  Balanced w.rules (tunIDs m ++ others) ∧ (s.hasRuleTracker = true ∨ tunIDs m = [])

theorem tunBalanced_buildOn {m : Memory} (h : Registering s others l w)
    (hnone : l.pmarkConfig.ruleIDs = []) (hfresh : w.registered = false) :
    wp keeping Any (fun out w' => TunBalanced s others out.1 w') (s.buildOn m l) w := by
  have hspares := keeping_spares
  unfold HostSettings.buildOn
  rw [wp_bind]
  refine wp_post (fun r w' hr => ?_) (registering_stages l w ⟨h, hnone, hfresh⟩)
  cases r with
  | error failed =>
    simp only
    rw [wp_bind]
    exact wp_post (fun _ w'' h'' => ⟨h'', .inr rfl⟩) (balanced_fail failed.2 hr)
  | ok l' =>
    have hbalanced : Balanced w'.rules
        (l'.state.ruleIDs ++ (l'.pmarkConfig.ruleIDs ++ others)) := by
      refine hr.balanced.perm ?_
      rw [append_assoc]
      exact perm_append_comm.trans (by rw [append_assoc])
    simp only
    rw [wp_bind]
    refine wp_collect_idle (issues_onlyIf (issues_quietly (hspares .registry rfl _ rfl)))
      fun _ => wp_collect_idle (issues_onlyIf (issues_ofSome fun _ _ =>
        issues_quietly (hspares .tun rfl _ rfl)))
      fun _ => wp_collect_cons (wp_post (fun _ w'' h'' => ?_)
        (balanced_unregisterRules (hr.tracker.imp id And.left) hbalanced))
    refine wp_collect_idle (issues_onlyIf (issues_ofSome fun server _ =>
      issues_closeServer (hspares .server rfl) server)) fun _ => wp_collect_nil ?_
    exact ⟨h''.2, hr.tracker.imp id And.right⟩

/-- Every operation of the default TUN keeps the balance. -/
theorem tunBalanced_perform {m : Memory} (h : TunBalanced s others m w)
    (hfresh : w.registered = false) (op : HostOp) :
    wp keeping Any (fun out w' => TunBalanced s others out.1 w') (s.perform m op) w := by
  have hspares := keeping_spares
  have hstart : ∀ {state : DefaultTunState} (input t old recreated),
      m.defaultTun = some state → Registering s others (.start input state t old recreated) w := by
    intro state input t old recreated hsome
    have hids : tunIDs m = state.ruleIDs := by simp [tunIDs, hsome]
    refine ⟨?_, ?_⟩
    · refine (h.1.perm ?_)
      rw [hids]
      show (state.ruleIDs ++ others).Perm (others ++ state.ruleIDs ++ [])
      rw [append_nil]
      exact perm_append_comm
    · exact h.2.imp id fun hnil => ⟨hids ▸ hnil, rfl⟩
  cases op with
  | build opts activeName =>
    refine idle_buildDefaultTun (hspares .tun rfl) (hspares .index rfl)
      (hspares .registry rfl) (fun _ => h) ?_ ?_ ?_
    · intro input t _ _ hnone
      have hids : tunIDs m = [] := by simp [tunIDs, hnone]
      refine tunBalanced_buildOn ⟨?_, .inr ⟨rfl, rfl⟩⟩ rfl hfresh
      have hbalanced := h.1
      rw [hids] at hbalanced
      show Balanced w.rules (others ++ [] ++ [])
      simpa using hbalanced
    · exact fun input state t _ _ hsome _ => tunBalanced_buildOn (hstart _ _ _ _ hsome) rfl hfresh
    · exact fun input state t _ _ hsome => tunBalanced_buildOn (hstart _ _ _ _ hsome) rfl hfresh
  | update handle u =>
    refine wp_updateDefaultTun (fun _ => h) fun d t howned _ => ?_
    refine wp_of_idle (issues_onTun (hspares .link rfl) (hspares .routing rfl)
      _ _) (yields_of_forall (fun out => ?_) _)
    simpa [TunBalanced, tunIDs, (Memory.owned_some howned).1] using h
  | setDNS handle resolver =>
    refine idle_setDNS (hspares .server rfl) (fun _ => h) fun d hd => ?_
    simpa [TunBalanced, tunIDs, hd] using h
  | close handle =>
    show wp _ _ _ (s.closeDefaultTun m handle) w
    unfold HostSettings.closeDefaultTun
    split
    · exact h
    rename_i d howned
    obtain ⟨hd, -⟩ := Option.filter_eq_some_iff.mp howned
    have hids : tunIDs m = d.ruleIDs := by simp [tunIDs, hd]
    rw [wp_bind]
    refine wp_collect_idle (issues_quietly (hspares .registry rfl _ rfl))
      fun _ => wp_collect_cons (wp_post (fun _ w' h' => wp_collect_nil ⟨h', .inr rfl⟩) ?_)
    exact balanced_closeActive (hids ▸ h.2) (hids ▸ h.1)
  | closeSystem =>
    refine wp_closeSystem (hspares .registry rfl) (hspares .component rfl) (hspares .tun rfl) h ?_
    refine wp_post (fun _ w' h' _ _ => (⟨h', .inr rfl⟩ :
      TunBalanced s others { m with closed := true, defaultTun := none } w')) ?_
    cases hactive : m.defaultTun with
    | none =>
      have hids : tunIDs m = [] := by simp [tunIDs, hactive]
      have hbalanced := h.1
      rw [hids] at hbalanced
      exact hbalanced
    | some d =>
      have hids : tunIDs m = d.ruleIDs := by simp [tunIDs, hactive]
      exact balanced_closeActive (hids ▸ h.2) (hids ▸ h.1)

end Build

/-! ## Matchers -/

theorem matcherIDs_append (matchers : List SocketMatcher) (ids : List Nat) :
    matcherIDs (matchers ++ [⟨false, ids⟩]) = matcherIDs matchers ++ ids := by
  simp [matcherIDs]

theorem matcherIDs_close {matchers : List SocketMatcher} {i : Nat} {ids : List Nat}
    (h : matchers[i]? = some ⟨false, ids⟩) :
    (matcherIDs matchers).Perm (ids ++ matcherIDs (matchers.set i ⟨true, []⟩)) := by
  induction matchers generalizing i with
  | nil => exact absurd h nofun
  | cons m ms ih =>
    cases i with
    | zero =>
      obtain rfl : m = ⟨false, ids⟩ := by simpa using h
      exact .refl _
    | succ i =>
      have htail := ih (i := i) (by simpa using h)
      cases hm : m.closed with
      | true => simpa [matcherIDs, hm] using htail
      | false =>
        have hcons : (m.ruleIDs ++ matcherIDs ms).Perm
            (ids ++ (m.ruleIDs ++ matcherIDs (ms.set i ⟨true, []⟩))) :=
          (htail.append_left _).trans (by
            rw [← append_assoc, ← append_assoc]
            exact perm_append_comm.append_right _)
        simpa [matcherIDs, hm] using hcons

section Matchers

variable {s : HostSettings} {o : Owners} {w : Tracker}

/-- What the operations keep: without a tracker the default TUN has no rules. -/
abbrev Owners.Ledgered (s : HostSettings) (o : Owners) (w : Tracker) : Prop :=
  TunBalanced s (matcherIDs o.matchers) o.memory w

theorem ledgered_buildMatcher (h : o.Ledgered s w) (rule : Rules.Rule) (issues : List Issue) :
    wp keeping Any (fun out w' => Owners.Ledgered s out.1 w')
      (s.performOwner o (.buildMatcher rule issues)) w := by
  show wp _ _ _ ((buildMatcher rule issues).bind _) w
  rw [wp_bind, buildMatcher]
  split
  · exact h
  refine ⟨trivial, fun r w' hr => ?_⟩
  obtain rfl : w' = w := hr.1
  match r with
  | .error e => exact h
  | .ok false =>
    show TunBalanced s (matcherIDs (o.matchers ++ [⟨false, []⟩])) o.memory w'
    rw [matcherIDs_append, append_nil]
    exact h
  | .ok true =>
    refine balanced_register h.1 fun id w'' _ hbalanced => ?_
    show TunBalanced s (matcherIDs (o.matchers ++ [⟨false, [id]⟩])) o.memory w''
    rw [matcherIDs_append]
    exact ⟨append_assoc _ _ _ ▸ hbalanced, h.2⟩

theorem ledgered_closeMatcher (h : o.Ledgered s w) (i : Nat) :
    wp keeping Any (fun out w' => Owners.Ledgered s out.1 w')
      (s.performOwner o (.closeMatcher i)) w := by
  simp only [HostSettings.performOwner]
  split
  · exact h
  rename_i matcher hmatcher
  rw [wp_bind, SocketMatcher.close]
  split
  · -- A matcher that is closed stays as it is.
    have hsame : o.matchers.set i matcher = o.matchers := by
      obtain ⟨hlt, hget⟩ := List.getElem?_eq_some_iff.mp hmatcher
      rw [← hget, set_getElem_self]
    show TunBalanced s (matcherIDs (o.matchers.set i matcher)) o.memory w
    rw [hsame]
    exact h
  · rename_i hopen
    obtain ⟨closed, ids⟩ := matcher
    obtain rfl : closed = false := by simpa using hopen
    have hperm := (matcherIDs_close hmatcher).append_left (tunIDs o.memory)
    rw [wp_bind]
    refine wp_post (fun _ w' h' => ⟨h'.2, h.2⟩) (balanced_unregisterAll (h.1.perm ?_))
    exact hperm.trans (by
      rw [← append_assoc, ← append_assoc]
      exact perm_append_comm.append_right _)

theorem ledgered_performOwner (h : o.Ledgered s w) (hfresh : w.registered = false) (op : OwnerOp) :
    wp keeping Any (fun out w' => Owners.Ledgered s out.1 w') (s.performOwner o op) w := by
  cases op with
  | host op =>
    show wp _ _ _ ((s.perform o.memory op).bind _) w
    rw [wp_bind]
    exact wp_post (fun out w' h' => h') (tunBalanced_perform h hfresh op)
  | buildMatcher rule issues => exact ledgered_buildMatcher h rule issues
  | closeMatcher i => exact ledgered_closeMatcher h i

end Matchers

/-! ## Histories -/

/-- In every state between the calls of a history in which no failure drops rules, the
    tracker has the rules of the active default TUN and of the open matchers, and no
    others; none was unregistered twice. -/
theorem ledger_balanced (s : HostSettings) {x : Owners × Tracker}
    (h : Relation.ReflTransGen (OwnerStep s KeepsRules) (.initial, .initial) x) :
    x.1.Balanced x.2 := by
  suffices hledgered : x.1.Ledgered s x.2 from hledgered.1
  induction h with
  | refl => exact ⟨⟨nodup_nil, rfl, nodup_nil, nofun⟩, .inr rfl⟩
  | @tail y _ _ hlast ih =>
    obtain ⟨op, tr, err, hkeeps, hex⟩ := hlast
    have hstart : y.1.Ledgered s { y.2 with registered := false } := ih
    exact (wp_sound (hex.restrict hkeeps) (ledgered_performOwner hstart rfl op)).2

/-! ## Runs on fixed inputs -/

/-- An ID behind all that were used. -/
def Tracker.nextID (w : Tracker) : Nat := (w.rules.live ∪ w.rules.freed.toFinset).sup id + 1

theorem Tracker.unused_nextID (w : Tracker) : w.rules.Unused w.nextID := by
  have hbound : ∀ i ∈ w.rules.live ∪ w.rules.freed.toFinset, i ≠ w.nextID := by
    intro i hi
    have hle : i ≤ (w.rules.live ∪ w.rules.freed.toFinset).sup id := Finset.le_sup (f := id) hi
    unfold Tracker.nextID
    omega
  refine ⟨fun hlive => ?_, fun hfreed => ?_⟩
  · exact hbound _ (Finset.mem_union_left _ hlive) rfl
  · exact hbound _ (Finset.mem_union_right _ (mem_toFinset.mpr hfreed)) rfl

/-- A call is answered well or fails. -/
def trackedAnswer (c : HostCall) (fails : Bool) (w : Tracker) :
    Except CallError (HostReply c) × Tracker :=
  match c, fails with
  | .registerRule _, _ => (.ok w.nextID, ⟨w.rules.acquire w.nextID, true⟩)
  | .unregisterRule id, _ => (.ok (), { w with rules := w.rules.release id })
  | c, false => (.ok (c.goodReply 1), w)
  | _, true => (.error (.tun "fault"), w)

theorem tracking_trackedAnswer (c : HostCall) (fails : Bool) (w : Tracker) :
    tracking c w (trackedAnswer c fails w).1 (trackedAnswer c fails w).2 := by
  cases c with
  | registerRule => exact ⟨w.unused_nextID, rfl⟩
  | unregisterRule => rfl
  | _ =>
    cases fails with
    | false | true => rfl

/-- One operation in which the calls go as the list says. -/
def tracked (s : HostSettings) (x : Owners × Tracker) (op : OwnerOp) (fails : List Bool) :
    List (Event HostCall Tracker) × (Owners × Option Failure) × Tracker :=
  play trackedAnswer false (s.performOwner x.1 op) fails { x.2 with registered := false }

theorem ownerStep_tracked {s : HostSettings} {G : List (Event HostCall Tracker) → Prop}
    (x : Owners × Tracker) (op : OwnerOp) (fails : List Bool) (hG : G (tracked s x op fails).1) :
    OwnerStep s G x ((tracked s x op fails).2.1.1, (tracked s x op fails).2.2) :=
  ⟨op, _, _, hG, play_exec tracking_trackedAnswer _ fails _⟩

/-- A default TUN for two users. -/
def ruledOpts : DefaultTunOpts :=
  { dualOpts with include_ := [⟨.user, "alice"⟩, ⟨.user, "bob"⟩] }

/-- A default TUN with two rules and a matcher. -/
def ownedRules : Owners × Tracker :=
  let built := tracked sampleHost (.initial, .initial) (.host (.build ruledOpts "")) []
  let matched := tracked sampleHost (built.2.1.1, built.2.2)
    (.buildMatcher ⟨.user, "alice"⟩ []) []
  (matched.2.1.1, matched.2.2)

/-- Behind it, a build whose checker cannot be installed. -/
def ownedEnd : Owners × Tracker :=
  let failed := tracked sampleHost ownedRules (.host (.build ruledOpts ""))
    (List.replicate 8 false ++ [true])
  (failed.2.1.1, failed.2.2)

theorem ledger_balanced_owned :
    matcherIDs ownedEnd.1.matchers = [3] ∧ ownedEnd.2.rules.freed = [4, 5, 1, 2] ∧
      ownedEnd.1.Balanced ownedEnd.2 := by
  refine ⟨by decide +kernel, by decide +kernel, ledger_balanced sampleHost ?_⟩
  refine .tail (.tail (.single (ownerStep_tracked _ _ _ ?_)) (ownerStep_tracked _ _ _ ?_))
    (ownerStep_tracked ownedRules _ _ ?_)
  · decide +kernel
  · decide +kernel
  · decide +kernel

/-- The build in which the second rule does not compile, behind the TUN, its setup and the
    first rule. -/
def droppedEnd : Owners × Tracker :=
  let run := tracked sampleHost (.initial, .initial) (.host (.build ruledOpts ""))
    (List.replicate 8 false ++ [true])
  (run.2.1.1, run.2.2)

/-- The build fails, nobody owns a rule, and the first rule stays in the tracker. -/
theorem dropped_rule_stays :
    Relation.ReflTransGen (OwnerStep sampleHost fun _ => True) (.initial, .initial) droppedEnd ∧
      ¬ droppedEnd.1.Balanced droppedEnd.2 := by
  refine ⟨.single (ownerStep_tracked _ _ _ trivial), fun h => ?_⟩
  have hlive : droppedEnd.2.rules.live = {1} := by decide +kernel
  have howned : tunIDs droppedEnd.1.memory ++ matcherIDs droppedEnd.1.matchers = [] := by
    decide +kernel
  have hempty := h.live
  rw [hlive, howned] at hempty
  exact absurd hempty (by decide)

end SysnetLinux.DefaultTun
