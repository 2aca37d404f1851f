/-
  SysnetLinux.DefaultTun.Atomic

  Updates of the default TUN that meet one fault.

  An update that validation or a read refuses has changed nothing.  When one
  changing call fails and the calls that compensate for it succeed, the link and
  the state of the TUN are what they were.  The compensation for a failed `Apply`
  applies the recorded config, so the manager then has that one applied, whatever
  it had applied before.
-/

import SysnetLinux.DefaultTun.World

namespace SysnetLinux.DefaultTun

open Netip Routing CallProg CallProg.Prog List

/-! ## Compensation under the contract -/

section Compensation

variable {w w' : Link} {tr : List (Event SystemCall Link)} {errs : List CallError}

variable {p : SystemProg (List CallError)}

theorem wp_joining {Q : List CallError → Link → Prop} (c : SystemCall)
    (h : ∀ v w', contract c w (.ok v) w' → Q [] w') :
    wp (answered contract) Any Q (joining c) w := by
  rw [joining, wp_call_answered]
  exact ⟨trivial, h⟩

theorem wp_restoreLink (addrs routes : List Prefix) : wp (answered contract) Any
      (fun _ x => x = ⟨addrs.toFinset, routes.toFinset, w.applied⟩)
      (restoreDefaultTunLinkLocked addrs routes) w := by
  rw [restoreDefaultTunLinkLocked, collect, wp_bind]
  refine wp_joining _ fun _ w₁ h₁ => ?_
  obtain ⟨haddrs, happlied⟩ := h₁
  rw [collect, wp_bind, wp_bind]
  refine wp_joining _ fun _ w₂ h₂ => ?_
  obtain rfl : w₂ = { w₁ with routes := routes.toFinset } := h₂
  exact Link.ext haddrs rfl happlied

theorem wp_restoreRouting (oldRC failedRC : Config) :
    wp (answered contract) Any (fun _ x => x = { w with applied := some oldRC })
      (restoreDefaultTunRoutingLocked oldRC failedRC) w := by
  rw [restoreDefaultTunRoutingLocked, collect, wp_bind]
  refine wp_joining _ fun _ w₁ h₁ => ?_
  obtain rfl : w₁ = { w with applied := none } := h₁
  rw [collect, wp_bind, wp_bind]
  refine wp_joining _ fun _ w₂ h₂ => ?_
  obtain rfl : w₂ = { w with applied := some oldRC } := h₂
  rfl

theorem wp_restoreRoutes (routes : List Prefix) : wp (answered contract) Any
      (fun _ x => x = { w with routes := routes.toFinset }) (joining (.setTunRoutes routes)) w :=
  wp_joining _ fun _ _ h => h

theorem wp_compensation_one {target : Link}
    (h : wp (answered contract) Any (fun _ x => x = target) p w) :
    wp (answered contract) Any (fun _ x => x = target) (collect id [p]) w := by
  rw [collect, wp_bind]
  refine wp_post (fun _ x hx => ?_) h
  exact hx

theorem wp_compensation_two {middle : Link} (oldRC failedRC : Config)
    (h : wp (answered contract) Any (fun _ x => x = middle) p w) :
    wp (answered contract) Any (fun _ x => x = { middle with applied := some oldRC })
      (collect id [p, restoreDefaultTunRoutingLocked oldRC failedRC]) w := by
  rw [collect, wp_bind]
  refine wp_post (fun _ x hx => ?_) h
  subst hx
  rw [wp_bind]
  exact wp_compensation_one (wp_restoreRouting oldRC failedRC)

end Compensation

/-! ## One fault -/

/-- The number of calls that failed. -/
def failures {S : Type} (tr : List (Event SystemCall S)) : Nat := tr.countP Event.failed

def SystemCall.isApply : SystemCall → Bool
  | .apply _ => true
  | _ => false

/-- What an update that met no more than one fault leaves. -/
inductive Undone (state : TunState) (w : Link) (tr : List (Event SystemCall Link)) : Link → Prop
  | untouched : (∀ ev ∈ tr, ev.failed = true → ev.call.isApply = false) → Undone state w tr w
  | reapplied : (∃ ev ∈ tr, ev.failed = true ∧ ev.call.isApply = true) →
      Undone state w tr { w with applied := state.routingConfig }

/-- How an update ends once it has made a changing call: without an error, or with
    the error of the failed call after the compensation. -/
inductive Late (state : TunState) (w : Link) (tr : List (Event SystemCall Link)) :
    UpdateOutcome → Link → Prop
  | done {state' : TunState} {w' : Link} : Late state w tr (state', none) w'
  | failed {cause : CallError} {errs : List CallError} {w' : Link} :
      (failures tr ≤ 1 → Undone state w tr w') →
      Late state w tr (state, some (.failed cause errs)) w'

/-- How an update ends. -/
inductive Ended (state : TunState) (w : Link) (tr : List (Event SystemCall Link)) :
    UpdateOutcome → Link → Prop
  | refused {err : Option UpdateError} : (∀ e, err = some e → e.early = true) →
      (∀ ev ∈ tr, ev.call.reads = true) → Ended state w tr (state, err) w
  | late {out : UpdateOutcome} {w' : Link} : Late state w tr out w' → Ended state w tr out w'

section Ended

variable {state : TunState} {w w' : Link} {tr : List (Event SystemCall Link)}
  {out : UpdateOutcome} {ev : Event SystemCall Link}

theorem no_failure_behind (hfailed : ev.failed = true) (hone : failures (ev :: tr) ≤ 1) :
    ∀ ev' ∈ tr, ev'.failed = false := by
  rw [failures, countP_cons, if_pos hfailed] at hone
  have hzero : tr.countP Event.failed = 0 := by omega
  intro ev' hev'
  have hnot := countP_eq_zero.mp hzero ev' hev'
  simpa using hnot

theorem Undone.before (hok : ev.failed = false) (h : Undone state w tr w') :
    Undone state w (ev :: tr) w' := by
  cases h with
  | untouched hno =>
    refine Undone.untouched fun ev' hev' hfailed => ?_
    rcases mem_cons.mp hev' with rfl | hev'
    · rw [hok] at hfailed
      cases hfailed
    · exact hno ev' hev' hfailed
  | reapplied hsome =>
    obtain ⟨ev', hev', hfailed⟩ := hsome
    exact Undone.reapplied ⟨ev', mem_cons_of_mem ev hev', hfailed⟩

/-- A call that is answered, before what follows. -/
theorem Late.before (hok : ev.failed = false) (h : Late state w tr out w') :
    Late state w (ev :: tr) out w' := by
  cases h with
  | done => exact Late.done
  | failed hundone =>
    refine Late.failed fun hone => (hundone ?_).before hok
    rw [failures, countP_cons] at hone
    exact Nat.le_trans (Nat.le_add_right _ _) hone

theorem Ended.before (hok : ev.failed = false) (hread : ev.call.reads = true)
    (h : Ended state w tr out w') : Ended state w (ev :: tr) out w' := by
  cases h with
  | refused hearly hreads =>
    refine Ended.refused hearly fun ev' hev' => ?_
    rcases mem_cons.mp hev' with rfl | hev'
    · exact hread
    · exact hreads ev' hev'
  | late hlate => exact Ended.late (hlate.before hok)

theorem ended_readFailed (hread : ev.call.reads = true) (e : CallError) :
    Ended state w [ev] (state, some (.read e)) w := by
  refine Ended.refused (fun e' he' => ?_) fun ev' hev' => ?_
  · cases he'
    rfl
  · rw [mem_singleton.mp hev']
    exact hread

theorem late_giveUp {w₁ target : Link} {cause : CallError}
    {compensation : List (SystemProg (List CallError))}
    (hex : Exec contract (giveUp state cause compensation) w₁ tr out w')
    (hfailed : ev.failed = true)
    (hwp : wp (answered contract) Any (fun _ x => x = target) (collect id compensation) w₁)
    (htarget : (ev.call.isApply = false ∧ target = w) ∨
      (ev.call.isApply = true ∧ target = { w with applied := state.routingConfig })) :
    Late state w (ev :: tr) out w' := by
  obtain ⟨tr₁, errs, u, tr₂, hcomp, hret, rfl⟩ := exec_of_bind hex
  obtain ⟨rfl, rfl, rfl⟩ := exec_ret_iff.mp hret
  rw [append_nil]
  refine Late.failed fun hone => ?_
  have hbehind := no_failure_behind hfailed hone
  have hw' : w' = target := (wp_sound (hcomp.answered_of_no_fault hbehind) hwp).2
  rcases htarget with ⟨hcall, htarget⟩ | ⟨hcall, htarget⟩
  · rw [hw', htarget]
    refine Undone.untouched fun ev' hev' hfailed' => ?_
    rcases mem_cons.mp hev' with rfl | hev'
    · exact hcall
    · rw [hbehind ev' hev'] at hfailed'
      cases hfailed'
  · rw [hw', htarget]
    exact Undone.reapplied ⟨ev, mem_cons_self, hfailed, hcall⟩

end Ended

/-! ## The updates -/

section Updates

variable {state : TunState} {w w' : Link} {tr : List (Event SystemCall Link)}
  {out : UpdateOutcome}

/-- The last part of an update: `Apply`, with the compensation `restore` for the link. -/
theorem late_apply {w₁ : Link} {oldRC newRC : Config} {state' : TunState}
    {restore : SystemProg (List CallError)} (hrc : state.routingConfig = some oldRC)
    (hwp : wp (answered contract) Any (fun _ x => x = { w with applied := w₁.applied }) restore w₁)
    (hex : Exec contract (.call (.apply newRC) fun
      | .error e => giveUp state e [restore, restoreDefaultTunRoutingLocked oldRC newRC]
      | .ok _ => .ret (state', none)) w₁ tr out w') :
    Late state w tr out w' := by
  obtain ⟨r, w₂, tr', hcall, hrest, rfl⟩ := exec_call_iff.mp hex
  cases r with
  | ok v =>
    obtain ⟨rfl, rfl, rfl⟩ := exec_ret_iff.mp hrest
    exact Late.done
  | error e =>
    obtain rfl : w₂ = w₁ := hcall
    refine late_giveUp hrest rfl (wp_compensation_two oldRC newRC hwp) (.inr ⟨rfl, ?_⟩)
    rw [hrc]

theorem ended_setDefaultTunRoutesLocked {routes : List Prefix}
    (hex : Exec contract (setDefaultTunRoutesLocked state routes) w tr out w') :
    Ended state w tr out w' := by
  unfold setDefaultTunRoutesLocked at hex
  cases hrc : state.routingConfig with
  | none =>
    rw [hrc] at hex
    obtain ⟨rfl, rfl, rfl⟩ := exec_ret_iff.mp hex
    exact Ended.refused (fun e he => by cases he; rfl) (by simp)
  | some oldRC =>
    rw [hrc] at hex
    obtain ⟨r, w₁, tr₁, hread, hrest, rfl⟩ := exec_call_iff.mp hex
    cases r with
    | error e =>
      obtain rfl : w₁ = w := hread
      obtain ⟨rfl, rfl, rfl⟩ := exec_ret_iff.mp hrest
      exact ended_readFailed rfl e
    | ok oldMainRoutes =>
      obtain ⟨hroutes, rfl⟩ := hread
      refine Ended.before rfl rfl (Ended.late ?_)
      obtain ⟨r, w₂, tr₂, hset, hrest₂, rfl⟩ := exec_call_iff.mp hrest
      cases r with
      | error e =>
        obtain ⟨haddrs, happlied⟩ := hset
        refine late_giveUp hrest₂ rfl (wp_compensation_one (wp_restoreRoutes oldMainRoutes))
          (.inl ⟨rfl, ?_⟩)
        exact Link.ext haddrs hroutes happlied
      | ok v =>
        obtain rfl : w₂ = { w₁ with routes := ∅ } := hset
        refine Late.before rfl (late_apply hrc ?_ hrest₂)
        refine wp_post (fun _ x hx => ?_) (wp_restoreRoutes oldMainRoutes)
        rw [hx]
        exact Link.ext rfl hroutes rfl

variable {addrs : List Prefix} {addedAddr : Option Prefix}

/-- Whatever it did, a call for the addresses leaves what is applied. -/
theorem addressCall_applied {r : Except CallError (SystemReply (addressCall addrs addedAddr))}
    (h : contract (addressCall addrs addedAddr) w r w') : w'.applied = w.applied := by
  cases addedAddr with
  | none | some addr =>
    cases r with
    | ok v => exact h.2
    | error e => exact h

theorem isApply_addressCall (addrs : List Prefix) (addedAddr : Option Prefix) :
    (addressCall addrs addedAddr).isApply = false := by
  cases addedAddr <;> rfl

theorem late_change {oldAddrs oldMainRoutes : List Prefix} {oldRC newRC : Config}
    {state' : TunState} (hrc : state.routingConfig = some oldRC)
    (haddrs : oldAddrs.toFinset = w.addrs) (hroutes : oldMainRoutes.toFinset = w.routes)
    (hex : Exec contract (.call (addressCall addrs addedAddr) fun
      | .error e => giveUp state e [restoreDefaultTunLinkLocked oldAddrs oldMainRoutes]
      | .ok _ => .call (.setTunRoutes []) fun
        | .error e => giveUp state e [restoreDefaultTunLinkLocked oldAddrs oldMainRoutes]
        | .ok _ => .call (.apply newRC) fun
          | .error e => giveUp state e [restoreDefaultTunLinkLocked oldAddrs oldMainRoutes,
              restoreDefaultTunRoutingLocked oldRC newRC]
          | .ok _ => .ret (state', none)) w tr out w') :
    Late state w tr out w' := by
  -- the link comes back from wherever the compensation starts
  have hrestore : ∀ x : Link, wp (answered contract) Any
      (fun _ y => y = { w with applied := x.applied })
      (restoreDefaultTunLinkLocked oldAddrs oldMainRoutes) x := by
    intro x
    have hwp := wp_restoreLink (w := x) oldAddrs oldMainRoutes
    rw [haddrs, hroutes] at hwp
    exact hwp
  obtain ⟨r, w₁, tr₁, hcall, hrest, rfl⟩ := exec_call_iff.mp hex
  have happlied := addressCall_applied hcall
  cases r with
  | error e =>
    refine late_giveUp hrest rfl (wp_compensation_one (hrestore w₁))
      (.inl ⟨isApply_addressCall addrs addedAddr, ?_⟩)
    rw [happlied]
  | ok v =>
    refine Late.before rfl ?_
    obtain ⟨r, w₂, tr₂, hset, hrest₂, rfl⟩ := exec_call_iff.mp hrest
    cases r with
    | error e =>
      refine late_giveUp hrest₂ rfl (wp_compensation_one (hrestore w₂)) (.inl ⟨rfl, ?_⟩)
      rw [hset.2, happlied]
    | ok v => exact Late.before rfl (late_apply hrc (hrestore w₂) hrest₂)

theorem ended_updateDefaultTunAddrsLocked
    (hex : Exec contract (updateDefaultTunAddrsLocked state addrs addedAddr) w tr out w') :
    Ended state w tr out w' := by
  unfold updateDefaultTunAddrsLocked at hex
  cases hrc : state.routingConfig with
  | none =>
    rw [hrc] at hex
    obtain ⟨rfl, rfl, rfl⟩ := exec_ret_iff.mp hex
    exact Ended.refused (fun e he => by cases he; rfl) (by simp)
  | some oldRC =>
    rw [hrc] at hex
    cases hsource : validateDefaultTunSourceAddrs addrs oldRC.sourceRoutes with
    | some source =>
      simp only [hsource] at hex
      obtain ⟨rfl, rfl, rfl⟩ := exec_ret_iff.mp hex
      exact Ended.refused (fun e he => by cases he; rfl) (by simp)
    | none =>
      simp only [hsource] at hex
      obtain ⟨r, w₁, tr₁, hread, hrest, rfl⟩ := exec_call_iff.mp hex
      cases r with
      | error e =>
        obtain rfl : w₁ = w := hread
        obtain ⟨rfl, rfl, rfl⟩ := exec_ret_iff.mp hrest
        exact ended_readFailed rfl e
      | ok oldAddrs =>
        obtain ⟨haddrs, rfl⟩ := hread
        refine Ended.before rfl rfl ?_
        obtain ⟨r, w₂, tr₂, hread, hrest₂, rfl⟩ := exec_call_iff.mp hrest
        cases r with
        | error e =>
          obtain rfl : w₂ = w₁ := hread
          obtain ⟨rfl, rfl, rfl⟩ := exec_ret_iff.mp hrest₂
          exact ended_readFailed rfl e
        | ok oldMainRoutes =>
          obtain ⟨hroutes, rfl⟩ := hread
          exact Ended.before rfl rfl (Ended.late (late_change hrc haddrs hroutes hrest₂))

theorem ended_update {s : System} {u : Update}
    (hex : Exec contract (s.update state u) w tr out w') : Ended state w tr out w' := by
  have hshape : Shape state (s.update state u) := shape_update u
  generalize s.update state u = p at hex hshape
  cases hshape with
  | stays hearly =>
    obtain ⟨rfl, rfl, rfl⟩ := exec_ret_iff.mp hex
    exact Ended.refused hearly (by simp)
  | addrs addrs addedAddr => exact ended_updateDefaultTunAddrsLocked hex
  | routes routes => exact ended_setDefaultTunRoutesLocked hex

end Updates

/-! ## Atomicity -/

/-- An entry of a live trace, as the contract sees it. -/
def linkEvent (ev : Event SystemCall Live) : Event SystemCall Link :=
  ⟨ev.call, ev.before.link, ev.failed⟩

/-- An update of the live world is one under the contract. -/
theorem exec_contract {s : System} {state : TunState} {u : Update} {w w' : Live}
    {tr : List (Event SystemCall Live)} {out : UpdateOutcome} (hm : w.manager.Good)
    (hfits : ∀ rc, state.routingConfig = some rc → rc.Fits)
    (hex : Exec live (s.update state u) w tr out w') :
    Exec contract (s.update state u) w.link (tr.map linkEvent) out w'.link := by
  have hcalls := hex.issued (carries_update s u hfits fun _ _ _ h => h)
  exact hex.simulate Live.link (fun w => w.manager.Good) (SystemCall.Carries Config.Fits)
    (fun _ _ _ _ hc hm h => live_contract hc hm h) hcalls hm

/-- An update that returns an error: if validation or a read failed, only reads
    were made.  If one call failed in all, the state of the TUN and the link are
    what they were; the manager has the same config applied as before, or a failed
    `Apply` was answered by applying the recorded config. -/
theorem update_atomic (s : System) (state : TunState) (u : Update) (w w' : Live)
    (tr : List (Event SystemCall Live)) (out : UpdateOutcome) (err : UpdateError)
    (hm : w.manager.Good) (hfits : ∀ rc, state.routingConfig = some rc → rc.Fits)
    (hex : Exec live (s.update state u) w tr out w') (herr : out.2 = some err) :
    (err.early = true → ∀ ev ∈ tr, ev.call.reads = true) ∧
    (failures tr = 1 →
      out.1 = state ∧ w'.link.addrs = w.link.addrs ∧ w'.link.routes = w.link.routes ∧
      (w'.link.applied = w.link.applied ∨
        (∃ ev ∈ tr, ev.failed = true ∧ ev.call.isApply = true) ∧
          w'.link.applied = state.routingConfig) ∧
      (w.link.applied = state.routingConfig → w'.link.applied = w.link.applied)) := by
  have hended := ended_update (exec_contract hm hfits hex)
  constructor
  · intro hearly ev hev
    have hmem : linkEvent ev ∈ tr.map linkEvent := mem_map_of_mem hev
    generalize w'.link = x at hended
    cases hended with
    | refused _ hreads => exact hreads _ hmem
    | late hlate =>
      cases hlate with
      | done => cases herr
      | failed _ =>
        cases herr
        cases hearly
  · intro hone
    have hundone : out.1 = state ∧ Undone state w.link (tr.map linkEvent) w'.link := by
      generalize w'.link = x at hended
      cases hended with
      | refused _ hreads =>
        refine ⟨rfl, Undone.untouched fun ev hev _ => ?_⟩
        have hread := hreads ev hev
        cases hcall : ev.call <;> rw [hcall] at hread <;> first | rfl | cases hread
      | late hlate =>
        cases hlate with
        | done => cases herr
        | failed hundone => exact ⟨rfl, hundone (le_of_eq (countP_map.trans hone))⟩
    obtain ⟨hstate, hundone⟩ := hundone
    refine ⟨hstate, ?_⟩
    generalize w'.link = x at hundone
    cases hundone with
    | untouched _ => exact ⟨rfl, rfl, .inl rfl, fun _ => rfl⟩
    | reapplied hsome =>
      obtain ⟨ev, hev, hfailed⟩ := hsome
      obtain ⟨ev', hev', rfl⟩ := mem_map.mp hev
      exact ⟨rfl, rfl, .inr ⟨⟨ev', hev', hfailed⟩, rfl⟩, fun happlied => happlied.symm⟩

theorem update_atomic_sample :
    failures (singleFault (builtWorld Kernel.empty)).1 = 1 ∧
    (singleFault (builtWorld Kernel.empty)).2.1.1 = builtState ∧
    (singleFault (builtWorld Kernel.empty)).2.2.link = (builtWorld Kernel.empty).link := by
  have hone : failures (singleFault (builtWorld Kernel.empty)).1 = 1 := by decide +kernel
  have herr : ((singleFault (builtWorld Kernel.empty)).2.1.2).isSome = true := by decide +kernel
  obtain ⟨err, herr⟩ := Option.isSome_iff_exists.mp herr
  have hfits : ∀ rc, builtState.routingConfig = some rc → rc.Fits := by
    rintro rc ⟨⟩
    exact builtConfig_valid.fits
  obtain ⟨hstate, haddrs, hroutes, -, happlied⟩ :=
    (update_atomic sampleSystem builtState routeV6 _ _ _ _ err (builtWorld_good Kernel.empty) hfits
      (sampleSystem.play_exec builtState routeV6 [.ok, .ok, .broken] (builtWorld Kernel.empty))
      herr).2 hone
  exact ⟨hone, hstate, Link.ext haddrs hroutes (happlied (by decide +kernel))⟩

/-- Two faults: `Apply` fails, and so does the `Apply` that compensates for it. -/
def doubleFault (w : Live) : List (Event SystemCall Live) × UpdateOutcome × Live :=
  sampleSystem.play builtState routeV6 [.ok, .ok, .broken, .ok, .ok, .broken] w

/-- After an update with two faults the manager has nothing applied.  In the next
    update one call fails and the compensation succeeds, and the manager has the
    recorded config applied: not what it had applied before. -/
theorem single_fault_reapplies :
    Exec live (sampleSystem.update builtState routeV6) (builtWorld Kernel.empty)
      (doubleFault (builtWorld Kernel.empty)).1 (doubleFault (builtWorld Kernel.empty)).2.1
      (doubleFault (builtWorld Kernel.empty)).2.2 ∧
    (doubleFault (builtWorld Kernel.empty)).2.1.1 = builtState ∧
    Exec live (sampleSystem.update builtState routeV6) (doubleFault (builtWorld Kernel.empty)).2.2
      (singleFault (doubleFault (builtWorld Kernel.empty)).2.2).1
      (singleFault (doubleFault (builtWorld Kernel.empty)).2.2).2.1
      (singleFault (doubleFault (builtWorld Kernel.empty)).2.2).2.2 ∧
    (singleFault (doubleFault (builtWorld Kernel.empty)).2.2).2.1.2 ≠ none ∧
    failures (singleFault (doubleFault (builtWorld Kernel.empty)).2.2).1 = 1 ∧
    (∃ ev ∈ (singleFault (doubleFault (builtWorld Kernel.empty)).2.2).1,
      ev.failed = true ∧ ev.call.isApply = true) ∧
    (singleFault (doubleFault (builtWorld Kernel.empty)).2.2).2.2.link.applied ≠
      (doubleFault (builtWorld Kernel.empty)).2.2.link.applied :=
  ⟨sampleSystem.play_exec _ _ _ _, by decide +kernel, sampleSystem.play_exec _ _ _ _,
    by decide +kernel, by decide +kernel, by decide +kernel, by decide +kernel⟩

end SysnetLinux.DefaultTun
