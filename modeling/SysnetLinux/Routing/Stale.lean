/-
  SysnetLinux.Routing.Stale

  The guard over a safe table that is known to be stale.

  Here the iterations of the monitor and the users' operations are atomic, no adapter call fails
  and the subscription stays live.  A `Timed` state counts the changes of the main table and the
  updates read so far.

  The monitor installs the guard when `pending` is set and not again while it stays set.  A user's
  operation that succeeds in between takes the guard out, and an update read after that leaves the
  table unguarded.
-/

import SysnetLinux.Routing.Faultless
import SysnetLinux.Routing.Unlost

namespace SysnetLinux.Routing.Monitor

open CallProg CallProg.Prog List

/-! ## Operations without a fault -/

/-- What an operation returns in this state when no call fails, and what it leaves and lists. -/
def State.Performs (s : State) (op : Operation) (out : Outcome) (x : Kernel × Reads) : Prop :=
  ∃ tr, Exec (answered noting) (s.manager.perform op) (s.kernel, []) tr out x

section Performs

variable {s : State} {op : Operation} {out : Outcome} {x : Kernel × Reads}

theorem State.Performs.exec (h : s.Performs op out x) :
    ∃ tr, Exec noting (s.manager.perform op) (s.kernel, []) tr out x := by
  obtain ⟨tr, hex⟩ := h
  exact ⟨_, hex.simulate id (fun _ => True) (fun _ => True)
    (fun c y r y' _ _ hcall => ⟨hcall.2, trivial⟩) (fun _ _ => trivial) trivial⟩

theorem State.Performs.answered (h : s.Performs op out x) :
    ∃ tr, Exec (answered adapter) (s.manager.perform op) s.kernel tr out x.1 := by
  obtain ⟨tr, hex⟩ := h
  exact ⟨_, hex.simulate Prod.fst (fun _ => True) (fun _ => True)
    (fun c y r y' _ _ hcall => ⟨⟨hcall.1, (noting_iff.mp hcall.2).1⟩, trivial⟩)
    (fun _ _ => trivial) trivial⟩

/-- By what it has read an operation can end in few ways. -/
theorem State.Performs.concludes (h : s.Performs op out x) (hm : s.manager.Accepted) :
    Concludes s.manager op out x.2 := by
  obtain ⟨tr, hex⟩ := h.exec
  have hreader := hex.simulate (G := reader) Prod.snd (fun _ => True) (fun _ => True)
    (fun c y r y' _ _ hcall =>
      ⟨⟨plausible_adapter (noting_iff.mp hcall).1, (noting_iff.mp hcall).2⟩, trivial⟩)
    (fun _ _ => trivial) trivial
  exact (wp_sound hreader (reading_perform hm op)).2

theorem State.Performs.refused_or (h : s.Performs op out x) (hm : s.manager.Accepted) :
    (out.1 = s.manager ∧ out.2 ≠ none ∧ x = (s.kernel, [])) ∨ out.2 = none := by
  rcases perform_faultless hm op with ⟨e, hrefused⟩ | hreturns
  · obtain ⟨tr, hex⟩ := h
    rw [hrefused] at hex
    obtain ⟨-, rfl, rfl⟩ := exec_ret_iff.mp hex
    exact .inl ⟨rfl, nofun, rfl⟩
  · obtain ⟨tr, hex⟩ := h.answered
    exact .inr (wp_sound hex (hreturns s.kernel)).2

end Performs

/-! ## Counted updates -/

/-- A state between iterations.  `refreshed` is `received` at the last refresh of the monitor,
    `snapAt` is `changes` when the applied state's snapshot was taken, and `disturbed` says that an
    operation of the users has succeeded since `pending` was set. -/
structure Timed where
  base : State
  changes : Nat
  received : Nat
  refreshed : Nat
  snapAt : Nat
  disturbed : Bool

def Timed.started (k : Kernel) : Timed := ⟨.started k, 0, 0, 0, 0, false⟩

/-- An operation returns, and a snapshot it has taken is of now. -/
def Timed.unlock (t : Timed) (s : State) (out : Outcome) (reads : Reads) : Timed :=
  { t with
    base := s.unlock out reads .select
    snapAt := if out.2 = none ∧ reads ≠ [] then t.changes else t.snapAt }

inductive Action where
  | change
  | update
  | user (op : Operation)
  | recvOther
  | recvMain
  | fire

/-- One change, one update of another table, one operation of a user, or one
    iteration of the loop. -/
inductive Tick : Timed → Action → Timed → Prop
  | change {t : Timed} {k' : Kernel} : MainChanged t.base.kernel k' →
      Tick t .change { t with
        base := { t.base with kernel := k' }.notify .main
        changes := t.changes + 1 }
  | update {t : Timed} : Tick t .update { t with base := t.base.notify .other }
  | user {t : Timed} {op : Operation} {out : Outcome} {x : Kernel × Reads} :
      UserOperation op → t.base.Performs op out x →
      Tick t (.user op)
        { t.unlock { t.base with kernel := x.1 } out x.2 with
          disturbed := t.disturbed || (t.base.pending && out.2.isNone) }
  | recvOther {t : Timed} {queue : List RouteUpdate} :
      t.base.events = some ⟨.other :: queue, false⟩ →
      Tick t .recvOther { t with base := { t.base with events := some ⟨queue, false⟩ } }
  | ignored {t : Timed} {queue : List RouteUpdate} :
      t.base.events = some ⟨.main :: queue, false⟩ → t.base.pending = true →
      Tick t .recvMain { t with
        base := { t.base with events := some ⟨queue, false⟩ }
        received := t.received + 1 }
  | begun {t : Timed} {queue : List RouteUpdate} {out : Outcome} {x : Kernel × Reads} :
      t.base.events = some ⟨.main :: queue, false⟩ → t.base.pending = false →
      t.base.Performs .beginRouteChange out x →
      Tick t .recvMain
        { t.unlock { t.base with
            kernel := x.1, events := some ⟨queue, false⟩, pending := true, timer := true }
            out x.2 with
          received := t.received + 1
          disturbed := false }
  | fireIdle {t : Timed} : t.base.timer = true → t.base.pending = false →
      Tick t .fire { t with base := { t.base with timer := false } }
  | fire {t : Timed} {out : Outcome} {x : Kernel × Reads} : t.base.timer = true →
      t.base.pending = true → t.base.Performs .refreshAfterRouteChange out x →
      Tick t .fire
        { t.unlock { t.base with
            kernel := x.1, pending := out.2.isSome, timer := out.2.isSome } out x.2 with
          refreshed := if out.2 = none then t.received else t.refreshed
          disturbed := t.disturbed && out.2.isSome }

/-- Nobody holds the lock and the loop is in its `select`, with a channel. -/
structure State.Between (s : State) : Prop where
  free : s.holder = none
  loc : s.loc = .select
  live : s.events ≠ none

variable {t : Timed} {heed : Timed → Action → Prop}

/-- A tick is a run of the single steps. -/
theorem Tick.reach {t' : Timed} {act : Action} (h : Tick t act t') (hb : t.base.Between) :
    Reach t.base t'.base ∧ t'.base.Between := by
  obtain ⟨⟨kernel, manager, holder, events, pending, timer, loc, snapshot⟩, changes, received,
    refreshed, snapAt, disturbed⟩ := t
  obtain ⟨hfree, hloc, hlive⟩ := hb
  simp only at hfree hloc hlive
  subst hfree hloc
  cases h with
  | change hk => exact ⟨.single (.change hk), rfl, rfl, by simpa [State.notify] using hlive⟩
  | update => exact ⟨.single .update, rfl, rfl, by simpa [State.notify] using hlive⟩
  | user hop hperforms =>
    obtain ⟨tr, hex⟩ := hperforms.exec
    exact ⟨reach_user hop rfl hex, rfl, rfl, hlive⟩
  | recvOther hevents => exact ⟨.single (.recvOther rfl hevents), rfl, rfl, Option.some_ne_none _⟩
  | ignored hevents hpending =>
    simp only at hpending
    subst hpending
    exact ⟨.single (.recvMain rfl hevents), rfl, rfl, Option.some_ne_none _⟩
  | @begun queue out x hevents hpending hperforms =>
    simp only at hpending
    subst hpending
    obtain ⟨tr, hex⟩ := hperforms.exec
    have hrecv := Step.recvMain rfl hevents
    have hlock := Step.beginLock
      (s := ⟨kernel, manager, none, some ⟨queue, false⟩, true, timer, .begin, snapshot⟩) rfl rfl
    exact ⟨.head hrecv (.head hlock (.tail (.tail (reach_of_exec hex rfl rfl)
      (.beginUnlock rfl)) (.arm rfl))), rfl, rfl, Option.some_ne_none _⟩
  | fireIdle htimer hpending =>
    simp only at hpending
    subst hpending
    have hstep := Step.fire rfl htimer
    rw [if_neg hlive] at hstep
    exact ⟨.single hstep, rfl, rfl, hlive⟩
  | @fire out x htimer hpending hperforms =>
    simp only at hpending
    subst hpending
    obtain ⟨tr, hex⟩ := hperforms.exec
    have hstep := Step.fire rfl htimer
    rw [if_neg hlive] at hstep
    have hlock := Step.refreshLock
      (s := ⟨kernel, manager, none, events, true, false, .refresh, snapshot⟩) rfl rfl
    have hcalled := Relation.ReflTransGen.head hstep (.head hlock
      (.tail (reach_of_exec hex rfl rfl) (.refreshUnlock rfl)))
    obtain ⟨m, err⟩ := out
    cases err with
    | none => exact ⟨.tail hcalled (.settled rfl), rfl, rfl, hlive⟩
    | some e => exact ⟨.tail (.tail hcalled (.settleFailed rfl)) (.arm rfl), rfl, rfl, hlive⟩

/-! ## The guard -/

/-- The guard of the state's config is installed for every policy family. -/
def State.Guards (s : State) (a : DesiredState) : Prop :=
  ∀ f ∈ familyConstants a.config.families, transitionGuard a.config f ∈ s.kernel.rules

instance (s : State) (a : DesiredState) : Decidable (s.Guards a) :=
  inferInstanceAs (Decidable (∀ f ∈ familyConstants a.config.families, _))

/-- Since its last refresh the monitor has read an update about a change made after
    the snapshot of the applied state. -/
def Timed.Stale (t : Timed) : Prop :=
  ∃ n, t.refreshed < n ∧ n ≤ t.received ∧ t.snapAt < n

/-- If an update is read with `pending` set and a user's operation done since, the
    applied state's snapshot already shows the change it is about. -/
def Action.Heeded (t : Timed) : Action → Prop
  | .recvMain => t.base.pending = true → t.disturbed = true →
      t.base.manager.monitored ≠ none → t.received + 1 ≤ t.snapAt
  | _ => True

/-- Any number of ticks that meet the condition. -/
abbrev Ticks (heed : Timed → Action → Prop) : Timed → Timed → Prop :=
  Relation.ReflTransGen fun t t' => ∃ act, Tick t act t' ∧ heed t act

/-- What the ticks reach, the single steps reach. -/
theorem ticks_are_runs {k : Kernel} (h : Ticks heed (.started k) t) :
    Reach (.started k) t.base ∧ t.base.Between := by
  induction h with
  | refl => exact ⟨.refl, rfl, rfl, Option.some_ne_none _⟩
  | tail _ htick ih =>
    obtain ⟨act, htick, -⟩ := htick
    obtain ⟨hreach, hbetween⟩ := htick.reach ih.2
    exact ⟨ih.1.trans hreach, hbetween⟩

structure Tidy (t : Timed) : Prop where
  counted : ∃ queue, t.base.events = some ⟨queue, false⟩ ∧
    t.received + queue.count .main = t.changes
  accepted : t.base.manager.Accepted
  quiet : t.base.pending = false → t.refreshed = t.received
  guards : t.base.pending = true → t.disturbed = false →
    ∀ a, t.base.manager.monitored = some a → t.base.Guards a
  current : t.base.pending = true → t.disturbed = true →
    t.base.manager.monitored ≠ none → t.received ≤ t.snapAt

theorem tidy_started (k : Kernel) : Tidy (.started k) where
  counted := ⟨[], rfl, rfl⟩
  accepted := fun a ha => absurd ha.symm (Option.some_ne_none a)
  quiet := fun _ => rfl
  guards := fun hpending => absurd hpending (by simp [Timed.started, State.started])
  current := fun hpending => absurd hpending (by simp [Timed.started, State.started])

theorem State.Performs.begun {s : State} {out : Outcome} {x : Kernel × Reads}
    (h : s.Performs .beginRouteChange out x) :
    out.1 = s.manager ∧ ∀ a, s.manager.monitored = some a →
      ∀ f ∈ familyConstants a.config.families, transitionGuard a.config f ∈ x.1.rules := by
  obtain ⟨tr, hex⟩ := h.exec
  have hadapter := hex.simulate (G := adapter) Prod.fst (fun _ => True) (fun _ => True)
    (fun c y r y' _ _ hcall => ⟨(noting_iff.mp hcall).1, trivial⟩) (fun _ _ => trivial) trivial
  obtain ⟨hmanager, hguards⟩ :=
    (wp_sound hadapter (Manager.wp_beginRouteChange s.manager s.kernel)).2
  refine ⟨hmanager, fun a ha f hf => ?_⟩
  have hnil : out.2 = none := by
    obtain ⟨tr', hanswered⟩ := h.answered
    exact (wp_sound hanswered (returns_beginRouteChange s.manager s.kernel)).2
  rcases hguards with ⟨hnone, -⟩ | ⟨a', ha', done, rest, hsplit, hk, hrest⟩
  · rw [ha] at hnone
    cases hnone
  · obtain rfl : a = a' := Option.some.inj (ha.symm.trans ha')
    rw [hrest hnil, append_nil] at hsplit
    rw [hk, ← hsplit]
    exact Kernel.mem_addRules.mpr (.inl (mem_configGuards.mpr ⟨f, hf, rfl⟩))

/-- An operation of a user that succeeds leaves a state with a snapshot of now, or
    nothing to monitor. -/
theorem concludes_user {m : Manager} {op : Operation} {out : Outcome} {reads : Reads}
    (h : Concludes m op out reads) (hop : UserOperation op) (hnil : out.2 = none) :
    reads ≠ [] ∨ out.1.monitored = none := by
  cases h with
  | failed e reads => cases hnil
  | idle hidle => rcases hidle with rfl | ⟨rfl, -⟩ <;> exact hop.elim
  | cleared _ => exact .inr (by simp [Manager.monitored])
  | taken htaken => exact .inl htaken.reads_ne_nil

theorem tidy_tick {t' : Timed} {act : Action} (ht : Tidy t) (h : Tick t act t')
    (hheed : act.Heeded t) : Tidy t' := by
  obtain ⟨queue, hevents, hcount⟩ := ht.counted
  cases h with
  | change hk =>
    -- the change is counted once its update is queued, and the rules are as they were
    refine ⟨⟨queue ++ [.main], ?_, ?_⟩, ht.accepted, ht.quiet, ?_, ht.current⟩
    · simp [State.notify, hevents, Subscription.push]
    · rw [count_append, count_singleton_self]
      show t.received + _ = t.changes + 1
      omega
    · intro hpending hdisturbed a ha f hf
      have hmem := ht.guards hpending hdisturbed a ha f hf
      rw [← hk.rules] at hmem
      exact hmem
  | update =>
    refine ⟨⟨queue ++ [.other], ?_, ?_⟩, ht.accepted, ht.quiet, ht.guards, ht.current⟩
    · simp [State.notify, hevents, Subscription.push]
    · simp [count_append, hcount]
  | @user op out x hop hperforms =>
    have hconcludes := hperforms.concludes ht.accepted
    have haccepted := hconcludes.accepted ht.accepted
    obtain ⟨m, err⟩ := out
    rcases hperforms.refused_or ht.accepted with ⟨rfl, herr, rfl⟩ | hnil
    · -- Refused: nothing has changed.
      have hdisturbed : (t.disturbed || (t.base.pending && err.isNone)) = t.disturbed := by
        cases err with
        | none => exact absurd rfl herr
        | some e => simp
      have hsnap : (t.unlock t.base (t.base.manager, err) []).snapAt = t.snapAt :=
        if_neg fun hnew => hnew.2 rfl
      refine ⟨⟨queue, hevents, hcount⟩, ht.accepted, ht.quiet, ?_, ?_⟩
      · exact fun hp hd => ht.guards hp (hdisturbed.symm.trans hd)
      · exact fun hp hd hmon =>
          (ht.current hp (hdisturbed.symm.trans hd) hmon).trans (le_of_eq hsnap.symm)
    · -- Done: what is monitored has a snapshot of now.
      simp only at hnil
      subst hnil
      refine ⟨⟨queue, hevents, hcount⟩, haccepted, ht.quiet, ?_, fun hp _ hmon => ?_⟩
      · intro hp hd
        have hp' : t.base.pending = true := hp
        simp [hp'] at hd
      · rcases concludes_user hconcludes hop rfl with hreads | hnone
        · show t.received ≤ if _ ∧ _ then t.changes else _
          rw [if_pos ⟨rfl, hreads⟩]
          omega
        · exact absurd hnone hmon
  | recvOther hother =>
    -- what is read was not counted
    rw [hother] at hevents
    cases hevents
    refine ⟨⟨_, rfl, ?_⟩, ht.accepted, ht.quiet, ht.guards, ht.current⟩
    simpa using hcount
  | ignored hmain hpending =>
    -- no operation follows; if a user's was in between, the snapshot is current by assumption
    rw [hmain] at hevents
    cases hevents
    rw [count_cons_self] at hcount
    refine ⟨⟨_, rfl, ?_⟩, ht.accepted, ?_, ht.guards, fun hp hd hmon => ?_⟩
    · show t.received + 1 + _ = t.changes
      omega
    · exact fun hp => absurd hpending (by simp [show t.base.pending = false from hp])
    · exact hheed hp hd hmon
  | begun hmain hpending hperforms =>
    -- the guard is up, and nobody has taken it down yet
    rw [hmain] at hevents
    cases hevents
    rw [count_cons_self] at hcount
    obtain ⟨hm, hguards⟩ := hperforms.begun
    refine ⟨⟨_, rfl, ?_⟩, ?_, fun hp => absurd hp.symm Bool.false_ne_true,
      fun _ _ a ha => hguards a (hm ▸ ha), fun _ hd => absurd hd Bool.false_ne_true⟩
    · show t.received + 1 + _ = t.changes
      omega
    · exact (hperforms.concludes ht.accepted).accepted ht.accepted
  | fireIdle htimer hpending =>
    exact ⟨⟨queue, hevents, hcount⟩, ht.accepted, ht.quiet, ht.guards, ht.current⟩
  | @fire out x htimer hpending hperforms =>
    have haccepted := (hperforms.concludes ht.accepted).accepted ht.accepted
    obtain ⟨m, err⟩ := out
    rcases hperforms.refused_or ht.accepted with ⟨rfl, herr, rfl⟩ | hnil
    · -- Refused: `pending` stays set, over the same kernel.
      obtain ⟨e, rfl⟩ := Option.ne_none_iff_exists'.mp herr
      refine ⟨⟨queue, hevents, hcount⟩, ht.accepted,
        fun hp => absurd hp.symm Bool.false_ne_true, ?_, ?_⟩
      · exact fun _ hd => ht.guards hpending (by simpa using hd)
      · exact fun _ hd hmon => ht.current hpending (by simpa using hd) hmon
    · -- Done: `pending` is cleared, and all that was read has been refreshed.
      simp only at hnil
      subst hnil
      exact ⟨⟨queue, hevents, hcount⟩, haccepted, fun _ => rfl,
        fun hp => absurd hp Bool.false_ne_true, fun hp => absurd hp Bool.false_ne_true⟩

theorem tidy_ticks {k : Kernel} (h : Ticks (fun t act => act.Heeded t) (.started k) t) :
    Tidy t := by
  induction h with
  | refl => exact tidy_started k
  | tail _ htick ih =>
    obtain ⟨act, htick, hheed⟩ := htick
    exact tidy_tick ih htick hheed

/-- As long as no update about a change after the snapshot is read with `pending` set
    and a user's operation done since, a non-strict state whose safe table is known to
    be stale is guarded for every policy family. -/
theorem stale_guarded {k : Kernel} {t : Timed}
    (h : Ticks (fun t act => act.Heeded t) (.started k) t) {a : DesiredState}
    (ha : t.base.manager.monitored = some a) (hstale : t.Stale) : t.base.Guards a := by
  have htidy := tidy_ticks h
  obtain ⟨n, hrefreshed, hreceived, hsnap⟩ := hstale
  have hpending : t.base.pending = true := by
    by_contra hne
    have hquiet := htidy.quiet (by simpa using hne)
    omega
  refine htidy.guards hpending ?_ a ha
  by_contra hdisturbed
  have hcurrent := htidy.current hpending (by simpa using hdisturbed) (by simp [ha])
  omega

/-! ## A user between two updates -/

/-- An operation without faults: what it returns, and what it leaves and lists. -/
def State.faultless (s : State) (op : Operation) : Outcome × (Kernel × Reads) :=
  (Prog.run Kernel.actNoting (s.manager.perform op) [] (s.kernel, [])).2

theorem State.performs_faultless (s : State) (op : Operation) :
    s.Performs op (s.faultless op).1 (s.faultless op).2 :=
  ⟨_, run_nil_exec Kernel.actNoting _ _⟩

def Timed.afterUser (t : Timed) (op : Operation) : Timed :=
  let done := t.base.faultless op
  { t.unlock { t.base with kernel := done.2.1 } done.1 done.2.2 with
    disturbed := t.disturbed || (t.base.pending && done.1.2.isNone) }

def Timed.afterChange (t : Timed) (a : Route) : Timed :=
  { t with
    base := { t.base with kernel := t.base.kernel.replaceRoute a }.notify .main
    changes := t.changes + 1 }

def Timed.afterBegun (t : Timed) : Timed :=
  let done := t.base.faultless .beginRouteChange
  { t.unlock { t.base with
      kernel := done.2.1, events := some ⟨[], false⟩, pending := true, timer := true }
      done.1 done.2.2 with
    received := t.received + 1
    disturbed := false }

/-- The first update about an uplink is read under a non-strict config. -/
def firstUpdate : Timed :=
  (((Timed.started Kernel.empty).afterUser (.apply looseConfig)).afterChange
    uplinkRoute).afterBegun

theorem ticks_firstUpdate (h : ∀ t act, (act = .recvMain → t.base.pending = false) → heed t act) :
    Ticks heed (.started Kernel.empty) firstUpdate := by
  have happly : UserOperation (.apply looseConfig) := trivial
  refine .tail (.tail (.single ⟨_, .user happly (State.performs_faultless _ _), h _ _ nofun⟩)
    ⟨_, .change (mainChanged_replaceRoute _ rfl), h _ _ nofun⟩)
    ⟨_, .begun rfl rfl (State.performs_faultless _ _), h _ _ fun _ => rfl⟩

theorem stale_guarded_first :
    Ticks (fun t act => act.Heeded t) (.started Kernel.empty) firstUpdate ∧ firstUpdate.Stale ∧
      ∃ a, firstUpdate.base.manager.monitored = some a ∧ firstUpdate.base.Guards a := by
  have hticks : Ticks (fun t act => act.Heeded t) (.started Kernel.empty) firstUpdate := by
    refine ticks_firstUpdate fun t act hact => ?_
    cases act with
    | recvMain => exact fun hpending => absurd hpending (by simp [hact rfl])
    | _ => trivial
  have hstale : firstUpdate.Stale := ⟨1, by decide +kernel⟩
  have happlied : firstUpdate.base.manager.monitored.isSome = true := by decide +kernel
  obtain ⟨a, ha⟩ := Option.isSome_iff_exists.mp happlied
  exact ⟨hticks, hstale, a, ha, stale_guarded hticks ha hstale⟩

/-- A second uplink. -/
def backupRoute : Route := { uplinkRoute with linkIndex := 3 }

/-- A `Refresh` of a user takes the guard out, and the update about the second uplink
    is read while `pending` is set. -/
def secondUpdate : Timed :=
  let t := (firstUpdate.afterUser .refresh).afterChange backupRoute
  { t with base := { t.base with events := some ⟨[], false⟩ }, received := t.received + 1 }

theorem user_refresh_unguards :
    Ticks (fun _ _ => True) (.started Kernel.empty) secondUpdate ∧ secondUpdate.Stale ∧
      ∃ a, secondUpdate.base.manager.monitored = some a ∧ ¬ secondUpdate.base.Guards a := by
  have hrefresh : UserOperation .refresh := trivial
  have hstale : secondUpdate.Stale := ⟨2, by decide +kernel⟩
  have hbare : ∃ a ∈ secondUpdate.base.manager.monitored, ¬ secondUpdate.base.Guards a := by
    decide +kernel
  obtain ⟨a, ha, hbare⟩ := hbare
  refine ⟨?_, hstale, a, ha, hbare⟩
  refine .tail (.tail (.tail (ticks_firstUpdate fun _ _ _ => trivial)
    ⟨_, .user hrefresh (State.performs_faultless _ _), trivial⟩)
    ⟨_, .change (mainChanged_replaceRoute _ rfl), trivial⟩) ⟨_, .ignored rfl rfl, trivial⟩

end SysnetLinux.Routing.Monitor
