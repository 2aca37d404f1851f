/-
  SysnetLinux.Routing.Unlost

  The route monitor loses no change of the main table.

  What an operation has listed is `Fresh` until the main table changes, and from then on the
  change is noticed (`Alarm`).  The one point at which `pending` no longer stands for a refresh to
  come is behind `refreshAfterRouteChange` (`Location.settle false`): what changed since that
  refresh listed the table is still unread there, because the loop reads nothing between taking
  the lock and clearing `pending`.
-/

import SysnetLinux.Routing.Monitor

namespace SysnetLinux.Routing.Monitor

open CallProg CallProg.Prog

/-! ## Changes that are noticed -/

/-- A main-table update or the end of the channel waits to be read. -/
def Subscription.Unread (sub : Subscription) : Prop :=
  RouteUpdate.main ∈ sub.queue ∨ sub.closed = true

namespace State

def Unread (s : State) : Prop := ∃ sub, s.events = some sub ∧ sub.Unread

/-- Unread, or a refresh that has not begun will follow. -/
def Alarm (s : State) : Prop := s.Unread ∨ (s.pending = true ∧ s.loc ≠ .settle false)

/-- The listings are what the main table shows now. -/
def Fresh (s : State) (reads : Reads) : Prop :=
  ∀ entry ∈ reads, entry.2 = s.kernel.listRoutes entry.1 rtTableMain

end State

/-- What covers the listings of an operation that holds the lock.  The refresh of
    the monitor cannot rely on `pending`, which it is about to clear. -/
def Covers (s : State) : Operation → Prop
  | .refreshAfterRouteChange => s.Unread
  | _ => s.Alarm

/-- The loop is in the timer branch behind the subscription. -/
def Location.Refreshing : Location → Prop
  | .refresh => True
  | .settle _ => True
  | _ => False

/-- The loop is inside an iteration that set `pending` or found it set. -/
def Location.Busy : Location → Prop
  | .select => False
  | .stopped => False
  | _ => True

/-- The location at which the monitor runs an operation of its own. -/
def Hosts (loc : Location) : Operation → Prop
  | .beginRouteChange => loc = .begin
  | .refreshAfterRouteChange => loc = .refresh
  | _ => True

structure Inv (s : State) : Prop where
  silent : s.events = none → s.pending = true ∧ ¬ s.loc.Refreshing
  busy : s.loc.Busy → s.pending = true
  armed : s.loc = .select → s.pending = true → s.timer = true
  applied : ∀ a, s.manager.applied = some a → TakenFrom s.snapshot a
  hosts : ∀ h, s.holder = some h → Hosts s.loc h.op
  reading : ∀ h, s.holder = some h → Reading (Concludes s.manager h.op) h.rest h.reads
  covered : ∀ a, s.manager.monitored = some a → s.Fresh s.snapshot ∨ s.Alarm
  holding : s.manager.closed = false →
    ∀ h, s.holder = some h → s.Fresh h.reads ∨ Covers s h.op

theorem inv_started (k : Kernel) : Inv (State.started k) where
  silent := by simp [State.started]
  busy := by simp [State.started, Location.Busy]
  armed := by simp [State.started]
  applied := by simp [State.started]
  hosts := by simp [State.started]
  reading := by simp [State.started]
  covered := by simp [State.started, Manager.monitored]
  holding := by simp [State.started]

variable {s : State} {k : Kernel}

theorem Inv.accepted (h : Inv s) : s.manager.Accepted :=
  fun a ha => (h.applied a ha).accepted

/-! ## What each party leaves in place -/

theorem Alarm.mono {s' : State} (hpending : s'.pending = s.pending) (hloc : s'.loc = s.loc)
    (hunread : s.Unread → s'.Unread) (h : s.Alarm) : s'.Alarm := by
  rcases h with h | h
  · exact .inl (hunread h)
  · rw [State.Alarm, hpending, hloc]
    exact .inr h

theorem Covers.mono {s' : State} (op : Operation) (hpending : s'.pending = s.pending)
    (hloc : s'.loc = s.loc) (hunread : s.Unread → s'.Unread) (h : Covers s op) :
    Covers s' op := by
  cases op with
  | refreshAfterRouteChange => exact hunread h
  | _ => exact Alarm.mono hpending hloc hunread h

theorem Subscription.Unread.push {sub : Subscription} (u : RouteUpdate) (h : sub.Unread) :
    (sub.push u).Unread := by
  unfold Subscription.push
  split
  · exact h
  · rcases h with h | h
    · exact .inl (List.mem_append_left _ h)
    · exact .inr h

theorem unread_notify (u : RouteUpdate) (h : s.Unread) : (s.notify u).Unread := by
  obtain ⟨sub, hsub, hunread⟩ := h
  exact ⟨sub.push u, by rw [State.notify, hsub]; rfl, hunread.push u⟩

/-- A change is unread at once, unless there is no channel. -/
theorem unread_notify_main (h : s.events ≠ none) : (s.notify .main).Unread := by
  obtain ⟨sub, hsub⟩ := Option.ne_none_iff_exists'.mp h
  refine ⟨sub.push .main, by rw [State.notify, hsub]; rfl, ?_⟩
  unfold Subscription.push
  split
  · rename_i hclosed
    exact .inr hclosed
  · exact .inl (by simp)

theorem listRoutes_main_of_sparesMain {c : AdapterCall} (hc : c.SparesMain) {k' : Kernel}
    {r : Except AdapterError (Reply c)} (h : adapter c k r k') (family : Int) :
    k'.listRoutes family rtTableMain = k.listRoutes family rtTableMain := by
  rcases h with ⟨-, rfl⟩ | ⟨e, -, rfl⟩
  · cases c with
    | replaceRoute a =>
      have hne : a.table ≠ rtTableMain := hc
      exact Kernel.filter_replaceRoute (by simp [hne])
    | deleteRoute a =>
      have hne : a.table ≠ rtTableMain := hc
      exact Kernel.filter_deleteRoute (by simp [hne])
    | addRule rule | deleteRule rule => simp [Kernel.act, Kernel.listRoutes]
    | _ => rfl
  · rfl

/-- A listing that is noted is one of the main table as it stands. -/
theorem mem_note {c : AdapterCall} {k' : Kernel} {r : Except AdapterError (Reply c)}
    (h : adapter c k r k') {reads : Reads} {entry : Int × List Route}
    (hentry : entry ∈ note c r reads) :
    entry ∈ reads ∨ entry.2 = k.listRoutes entry.1 rtTableMain := by
  rcases h with ⟨rfl, -⟩ | ⟨e, rfl, -⟩
  · cases c with
    | listRoutes family table =>
      rw [note] at hentry
      split at hentry
      · rename_i htable
        rcases List.mem_append.mp hentry with hold | hnew
        · exact .inl hold
        · rw [List.mem_singleton.mp hnew, htable]
          exact .inr rfl
      · exact .inl hentry
    | _ => exact .inl hentry
  · cases c <;> exact .inl hentry

/-! ## Steps -/

section Steps

variable {s s' : State}

/-- The kernel moves: what is listed stays fresh, or the change is unread, or there is
    no channel. -/
theorem Inv.environment (h : Inv s) {k' : Kernel} {events : Option Subscription}
    (hs' : s' = { s with kernel := k', events := events })
    (hevents : s'.events = none → s.events = none) (hunread : s.Unread → s'.Unread)
    (hfresh : ∀ reads, s.Fresh reads → s'.Fresh reads ∨ s'.Unread ∨ s.events = none) :
    Inv s' := by
  have hcovers : ∀ op, Hosts s.loc op → ∀ reads, s.Fresh reads ∨ Covers s op →
      s'.Fresh reads ∨ Covers s' op := by
    subst hs'
    intro op hhosts reads hcov
    rcases hcov with hcov | hcov
    · rcases hfresh reads hcov with hf | hu | hnone
      · exact .inl hf
      · refine .inr ?_
        cases op with
        | refreshAfterRouteChange => exact hu
        | _ => exact .inl hu
      · -- Without a channel `pending` is set, and the monitor is not refreshing.
        obtain ⟨hp, hrefreshing⟩ := h.silent hnone
        refine .inr ?_
        cases op with
        | refreshAfterRouteChange =>
          have hrefresh : s.loc = .refresh := hhosts
          exact absurd (by rw [hrefresh]; trivial) hrefreshing
        | _ => exact .inr ⟨hp, fun (hloc : s.loc = _) => hrefreshing (by rw [hloc]; trivial)⟩
    · exact .inr (Covers.mono (s := s) op rfl rfl hunread hcov)
  subst hs'
  exact {
    silent := fun hnone => h.silent (hevents hnone)
    busy := h.busy
    armed := h.armed
    applied := h.applied
    hosts := h.hosts
    reading := h.reading
    covered := fun a ha => hcovers .refresh trivial _ (h.covered a ha)
    holding := fun hopen x hx => hcovers x.op (h.hosts x hx) _ (h.holding hopen x hx) }

/-- While the loop runs no operation, whoever holds the lock is a user. -/
theorem Inv.user (h : Inv s) (hidle : s.loc ≠ .begin ∧ s.loc ≠ .refresh) {x : Holder}
    (hx : s.holder = some x) : (∀ loc, Hosts loc x.op) ∧ ∀ s, Covers s x.op = s.Alarm := by
  have hhosts := h.hosts x hx
  obtain ⟨op, rest, reads⟩ := x
  cases op with
  | beginRouteChange => exact absurd hhosts hidle.1
  | refreshAfterRouteChange => exact absurd hhosts hidle.2
  | _ => exact ⟨fun _ => trivial, fun _ => rfl⟩

/-- The loop moves while it runs no operation. -/
theorem Inv.loop (h : Inv s) (hidle : s.loc ≠ .begin ∧ s.loc ≠ .refresh)
    {events : Option Subscription} {pending timer : Bool} {loc : Location}
    (hs' : s' = { s with events := events, pending := pending, timer := timer, loc := loc })
    (hsilent : events = none → pending = true ∧ ¬ loc.Refreshing)
    (hbusy : loc.Busy → pending = true)
    (harmed : loc = .select → pending = true → timer = true)
    (halarm : s.Alarm → s'.Alarm) : Inv s' := by
  subst hs'
  refine ⟨hsilent, hbusy, harmed, h.applied, fun x hx => (h.user hidle hx).1 _, h.reading,
    fun a ha => (h.covered a ha).imp id halarm, fun hopen x hx => ?_⟩
  have hcov := h.holding hopen x hx
  rw [(h.user hidle hx).2] at hcov ⊢
  exact hcov.imp id halarm

/-- The loop moves with `pending` set before and after, so that nothing can be lost. -/
theorem Inv.waits (h : Inv s) (hidle : s.loc ≠ .begin ∧ s.loc ≠ .refresh)
    {events : Option Subscription} {pending timer : Bool} {loc : Location}
    (hs' : s' = { s with events := events, pending := pending, timer := timer, loc := loc })
    (hpending : pending = true) (hsilent : events = none → ¬ loc.Refreshing)
    (harmed : loc = .select → timer = true) (hloc : loc ≠ .settle false) : Inv s' :=
  h.loop hidle hs' (fun hnone => ⟨hpending, hsilent hnone⟩) (fun _ => hpending)
    (fun hselect _ => harmed hselect) fun _ => .inr (hs' ▸ ⟨hpending, hloc⟩)

variable {op : Operation}

/-- An operation begins with nothing listed. -/
theorem Inv.lock (h : Inv s) (hhosts : Hosts s.loc op) : Inv (s.lock op) := by
  refine ⟨h.silent, h.busy, h.armed, h.applied, ?_, ?_, h.covered, ?_⟩
  · rintro x ⟨⟩
    exact hhosts
  · rintro x ⟨⟩
    exact reading_perform h.accepted op
  · rintro - x ⟨⟩
    exact .inl (by simp [State.Fresh])

/-- An operation returns, and the loop goes on at `loc`. -/
theorem Inv.unlock (h : Inv s) {out : Outcome} {reads : Reads} {loc : Location}
    (hholder : s.holder = some ⟨op, .ret out, reads⟩)
    (hsilent : s.events = none → s.pending = true ∧ ¬ loc.Refreshing)
    (hbusy : loc.Busy → s.pending = true)
    (harmed : loc = .select → s.pending = true → s.timer = true)
    (hkept : op ≠ .refreshAfterRouteChange ∨ out.2 ≠ none →
      loc = .settle false → s.loc = .settle false) :
    Inv (s.unlock out reads loc) := by
  have hconcludes : Concludes s.manager op out reads := h.reading _ hholder
  -- What covered the old snapshot covers it still, and what covered the listings of the
  -- operation covers the new one.
  have halarm : op ≠ .refreshAfterRouteChange ∨ out.2 ≠ none → s.Alarm →
      (s.unlock out reads loc).Alarm := by
    rintro hop (hu | ⟨hp, hloc⟩)
    · exact .inl hu
    · exact .inr ⟨hp, fun hsettle => hloc (hkept hop hsettle)⟩
  have hcovers : Covers s op → (s.unlock out reads loc).Alarm := by
    cases op with
    | refreshAfterRouteChange => exact .inl
    | _ => exact halarm (.inl nofun)
  have hfree : ∀ x, (s.unlock out reads loc).holder ≠ some x :=
    fun x hx => Option.some_ne_none x hx.symm
  refine ⟨hsilent, hbusy, harmed, ?_, fun x hx => absurd hx (hfree x),
    fun x hx => absurd hx (hfree x), ?_, fun _ x hx => absurd hx (hfree x)⟩
  · intro a ha
    cases hconcludes with
    | failed e reads | idle hop => exact h.applied a ha
    | cleared hop => cases ha
    | taken htaken =>
      cases ha
      show TakenFrom (if _ ∧ _ then reads else _) _
      rw [if_pos ⟨rfl, htaken.reads_ne_nil⟩]
      exact htaken
  · intro a ha
    cases hconcludes with
    | failed e reads => exact (h.covered a ha).imp_right (halarm (.inr nofun))
    | idle hop =>
      rcases hop with rfl | ⟨-, hnone⟩
      · exact (h.covered a ha).imp_right (halarm (.inl nofun))
      · exact absurd (hnone.symm.trans ha) (Option.some_ne_none a).symm
    | cleared hop => simp [State.unlock, Manager.monitored] at ha
    | taken htaken =>
      have hopen : s.manager.closed = false := by
        by_contra hclosed
        simp [State.unlock, Manager.monitored, hclosed] at ha
      show State.Fresh _ (if _ ∧ _ then reads else _) ∨ _
      rw [if_pos ⟨rfl, htaken.reads_ne_nil⟩]
      exact (h.holding hopen _ hholder).imp_right hcovers

/-- An adapter call leaves the main table alone, and a listing of it is fresh. -/
theorem Inv.call (h : Inv s) {c : AdapterCall}
    {f : Except AdapterError (Reply c) → AdapterProg Outcome} {reads : Reads}
    {r : Except AdapterError (Reply c)} {k' : Kernel}
    (hholder : s.holder = some ⟨op, .call c f, reads⟩) (hcall : adapter c s.kernel r k') :
    Inv { s with kernel := k', holder := some ⟨op, f r, note c r reads⟩ } := by
  obtain ⟨hspares, hrest⟩ := h.reading _ hholder
  have hmain := listRoutes_main_of_sparesMain hspares hcall
  have hfresh : ∀ reads, s.Fresh reads → ∀ entry ∈ reads,
      entry.2 = k'.listRoutes entry.1 rtTableMain :=
    fun reads hf entry hentry => (hf entry hentry).trans (hmain entry.1).symm
  refine ⟨h.silent, h.busy, h.armed, h.applied, ?_, ?_, ?_, ?_⟩
  · have hhosts := h.hosts _ hholder
    rintro x ⟨⟩
    exact hhosts
  · rintro x ⟨⟩
    exact hrest r _ ⟨plausible_adapter hcall, rfl⟩
  · exact fun a ha => (h.covered a ha).imp_left (hfresh _)
  · rintro hopen x ⟨⟩
    have hcov := h.holding hopen _ hholder
    refine hcov.imp (fun hf => ?_) id
    intro entry hentry
    rcases mem_note hcall hentry with hold | hnew
    · exact hfresh reads hf entry hold
    · rw [hnew]
      exact (hmain entry.1).symm

theorem notify_events_none {u : RouteUpdate} (h : (s.notify u).events = none) :
    s.events = none := by
  simpa [State.notify] using h

/-- The manager is closed: nothing is monitored any more. -/
theorem Inv.closed (h : Inv s) {m : Manager} {events : Option Subscription} {loc : Location}
    (hs' : s' = { s with manager := m, events := events, loc := loc }) (hclosed : m.closed = true)
    (happlied : m.applied = s.manager.applied)
    (hsilent : events = none → s.pending = true ∧ ¬ loc.Refreshing)
    (hbusy : loc.Busy → s.pending = true)
    (harmed : loc = .select → s.pending = true → s.timer = true)
    (hholder : ∀ x, s.holder = some x →
      Hosts loc x.op ∧ Reading (Concludes m x.op) x.rest x.reads) : Inv s' := by
  subst hs'
  refine ⟨hsilent, hbusy, harmed, happlied ▸ h.applied, fun x hx => (hholder x hx).1,
    fun x hx => (hholder x hx).2, fun a ha => ?_, fun hopen => ?_⟩
  · simp [Manager.monitored, hclosed] at ha
  · rw [show m.closed = false from hopen] at hclosed
    cases hclosed

theorem Inv.pending_of_busy (h : Inv s) {loc : Location} (hloc : s.loc = loc) (hbusy : loc.Busy) :
    s.pending = true := h.busy (hloc ▸ hbusy)

theorem Inv.listens (h : Inv s) {loc : Location} (hloc : s.loc = loc)
    (hrefreshing : loc.Refreshing) : s.events ≠ none :=
  fun hnone => (h.silent hnone).2 (hloc ▸ hrefreshing)

theorem inv_step (h : Inv s) (hs : Step s s') : Inv s' := by
  cases hs with
  | change hchange =>
    refine h.environment rfl notify_events_none (unread_notify _) fun reads _ => ?_
    by_cases hnone : s.events = none
    · exact .inr (.inr hnone)
    · exact .inr (.inl (unread_notify_main hnone))
  | update =>
    exact h.environment rfl notify_events_none (unread_notify _) fun reads hf => .inl hf
  | breakage hsub =>
    exact h.environment rfl nofun (fun _ => ⟨_, rfl, .inr rfl⟩) fun reads hf => .inl hf
  | @userLock op hop hfree =>
    refine h.lock ?_
    cases op with
    | beginRouteChange | refreshAfterRouteChange => exact hop.elim
    | _ => trivial
  | userUnlock hop hholder =>
    exact h.unlock hholder h.silent h.busy h.armed fun _ hsettle => hsettle
  | close hfree =>
    refine h.closed rfl rfl rfl h.silent h.busy h.armed fun x hx => ?_
    rw [hfree] at hx
    cases hx
  | call hholder hcall => exact h.call hholder hcall
  | recvOther hloc hevents =>
    -- what was unread behind the other update still is
    refine h.loop (by simp [hloc]) rfl nofun h.busy h.armed (Alarm.mono (s := s) rfl rfl ?_)
    rintro ⟨sub, hsub, hunread⟩
    rw [hevents] at hsub
    cases hsub
    exact ⟨_, rfl, hunread.imp_left fun hmem => by simpa using hmem⟩
  | recvMain hloc hevents =>
    -- the update is read, and from here on `pending` stands for it
    refine h.waits (by simp [hloc]) rfl rfl nofun (fun hselect => ?_) (by split <;> nofun)
    -- the loop is back in the `select` only if `pending` was set before
    cases hpending : s.pending with
    | true => exact h.armed hloc hpending
    | false => simp [hpending] at hselect
  | recvClose hloc hevents =>
    -- the channel has ended, and `pending` is set until there is a new one
    refine h.waits (by simp [hloc]) rfl rfl (fun _ => ?_) ?_ ?_ <;> split <;> first | exact id | nofun
  | beginLock hloc hfree => exact h.lock hloc
  | beginUnlock hholder =>
    have hpending := h.pending_of_busy (h.hosts _ hholder) trivial
    exact h.unlock hholder (fun _ => ⟨hpending, id⟩) (fun _ => hpending) nofun nofun
  | arm hloc =>
    exact h.waits (by simp [hloc]) rfl (h.pending_of_busy hloc trivial) (fun _ => id)
      (fun _ => rfl) nofun
  | fire hloc htimer =>
    by_cases hnone : s.events = none
    · rw [if_pos hnone]
      exact h.waits (by simp [hloc]) rfl (h.silent hnone).1 (fun _ => id) nofun nofun
    rw [if_neg hnone]
    by_cases hpending : s.pending = true
    · rw [show s.afterTimer = .refresh from if_pos hpending]
      exact h.waits (by simp [hloc]) rfl hpending (fun h => absurd h hnone) nofun nofun
    · -- a timer that was left over: the loop goes back to the `select`
      rw [show s.afterTimer = .select from if_neg hpending]
      exact h.loop (by simp [hloc]) rfl (fun h => absurd h hnone) nofun
        (fun _ hp => absurd hp hpending) (Alarm.mono (s := s) rfl hloc.symm id)
  | subscribeFails hloc =>
    exact h.waits (by simp [hloc]) rfl (h.pending_of_busy hloc trivial) (fun _ => id) nofun nofun
  | subscribes hloc =>
    have hpending := h.pending_of_busy hloc trivial
    rw [show s.afterTimer = .refresh from if_pos hpending]
    exact h.waits (by simp [hloc]) rfl hpending nofun nofun nofun
  | refreshLock hloc hfree => exact h.lock hloc
  | @refreshUnlock out reads hholder =>
    have hloc : s.loc = .refresh := h.hosts _ hholder
    refine h.unlock hholder (fun hnone => absurd hnone (h.listens hloc trivial))
      (fun _ => h.pending_of_busy hloc trivial) nofun ?_
    -- `settle false` follows a refresh without an error only
    rintro (hop | herr) hsettle
    · exact absurd rfl hop
    · rw [Location.settle.injEq, Option.isSome_eq_false_iff, Option.isNone_iff_eq_none] at hsettle
      exact absurd hsettle herr
  | settleFailed hloc =>
    exact h.waits (by simp [hloc]) rfl (h.pending_of_busy hloc trivial) (fun _ => id) nofun nofun
  | settled hloc =>
    -- `pending` is cleared; in this location it covered nothing
    refine h.loop (by simp [hloc]) rfl (fun hnone => absurd hnone (h.listens hloc trivial)) nofun
      nofun ?_
    rintro (hunread | ⟨-, hne⟩)
    · exact .inl hunread
    · exact absurd hloc hne
  | stop hloc hclosed =>
    refine h.closed rfl hclosed rfl ?_ nofun nofun fun x hx => ⟨?_, h.reading x hx⟩
    · exact fun hnone => ⟨(h.silent (by simpa using hnone)).1, id⟩
    · exact (h.user (by rcases hloc with hloc | hloc <;> simp [hloc]) hx).1 _

end Steps

theorem inv_reach (h : Reach (.started k) s) : Inv s := by
  induction h with
  | refl => exact inv_started k
  | tail _ hs ih => exact inv_step ih hs

/-! ## No change is lost -/

/-- In every state that a monitor, its users and the kernel reach, with any adapter
    call and any subscription failing: if an open manager has a non-strict state
    applied and the main table is not what that state was compiled from, then an
    update or the end of the channel is unread, or `pending` is set.  In the
    `select`, `pending` has an armed timer beside it, and without a channel `pending`
    is set; so a lost-looking change always leaves the loop something to wake up for. -/
theorem monitor_loses_nothing {k : Kernel} {s : State} (h : Reach (.started k) s) :
    (∀ a, s.manager.monitored = some a → TakenFrom s.snapshot a ∧
      (¬ s.Fresh s.snapshot → s.Unread ∨ s.pending = true)) ∧
    (s.loc = .select → s.pending = true → s.timer = true) ∧
    (s.events = none → s.pending = true) ∧
    (∀ a, s.manager.monitored = some a → ¬ s.Fresh s.snapshot → s.loc = .select →
      s.Unread ∨ s.timer = true) := by
  have hinv := inv_reach h
  have hnoticed : ∀ a, s.manager.monitored = some a → ¬ s.Fresh s.snapshot →
      s.Unread ∨ s.pending = true := by
    intro a ha hstale
    rcases hinv.covered a ha with hfresh | hunread | ⟨hpending, -⟩
    · exact absurd hfresh hstale
    · exact .inl hunread
    · exact .inr hpending
  refine ⟨fun a ha => ⟨?_, hnoticed a ha⟩, hinv.armed, fun hnone => (hinv.silent hnone).1, ?_⟩
  · exact hinv.applied a (Manager.monitored_eq_some ha)
  · intro a ha hstale hloc
    exact (hnoticed a ha hstale).imp_right (hinv.armed hloc)

/-- The host gets an uplink after a non-strict config was applied. -/
def uplinkAdded : State :=
  let s := (State.started Kernel.empty).performed (.apply looseConfig)
  ({ s with kernel := s.kernel.replaceRoute uplinkRoute } : State).notify .main

theorem monitor_loses_nothing_uplink :
    Reach (.started Kernel.empty) uplinkAdded ∧
    (∃ a, uplinkAdded.manager.monitored = some a) ∧
    ¬ uplinkAdded.Fresh uplinkAdded.snapshot ∧
    (uplinkAdded.Unread ∨ uplinkAdded.pending = true) := by
  have hop : UserOperation (.apply looseConfig) := trivial
  have hreach : Reach (.started Kernel.empty) uplinkAdded :=
    .tail (reach_performed hop rfl) (.change (mainChanged_replaceRoute _ rfl))
  have happlied : (uplinkAdded.manager.monitored).isSome = true := by decide +kernel
  have hstale : ¬ uplinkAdded.Fresh uplinkAdded.snapshot := by
    unfold State.Fresh
    decide +kernel
  obtain ⟨a, ha⟩ := Option.isSome_iff_exists.mp happlied
  exact ⟨hreach, ⟨a, ha⟩, hstale, ((monitor_loses_nothing hreach).1 a ha).2 hstale⟩

end SysnetLinux.Routing.Monitor
