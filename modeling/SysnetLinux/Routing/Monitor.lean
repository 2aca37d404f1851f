/-
  SysnetLinux.Routing.Monitor

  The route monitor of `routing/monitor.go` beside the users of its manager.

  Four parties take steps in any order: the kernel, whose main table changes and whose
  subscription may break; the users; the operation that holds the manager's lock, one adapter call
  at a time; and the loop of `monitorRouteUpdates`, which waits for the lock in the middle of an
  iteration (`Location`).  Delays are not modelled: an armed timer may fire at any time.
-/

import SysnetLinux.Routing.Reading

namespace SysnetLinux.Routing.Monitor

open CallProg CallProg.Prog

/-! ## State -/

/-- A route update, by the table it is about. -/
inductive RouteUpdate where
  | main
  | other
  deriving DecidableEq, Repr

/-- The channel of a subscription: the unread updates, and whether it is closed behind them. -/
structure Subscription where
  queue : List RouteUpdate
  closed : Bool
  deriving DecidableEq, Repr

/-- A broken subscription delivers nothing any more. -/
def Subscription.push (u : RouteUpdate) (sub : Subscription) : Subscription :=
  if sub.closed then sub else { sub with queue := sub.queue ++ [u] }

inductive Location where
  /-- In the `select`, between two iterations. -/
  | select
  /-- About to call `beginRouteChange`, or inside it. -/
  | begin
  /-- About to call `resetTimer` and to go on with the next iteration. -/
  | arm
  /-- In the timer branch without a subscription. -/
  | resubscribe
  /-- About to call `refreshAfterRouteChange`, or inside it. -/
  | refresh
  /-- Behind that call, with its lock released. -/
  | settle (failed : Bool)
  | stopped
  deriving DecidableEq, Repr

/-- The operation that holds the lock, what is left of it, and what it has listed
    of the main table. -/
structure Holder where
  op : Operation
  rest : AdapterProg Outcome
  reads : Reads

/-- The state of all parties.  `snapshot` is what the last successful `Apply` or
    refresh listed; no code reads it. -/
structure State where
  kernel : Kernel
  manager : Manager
  holder : Option Holder
  events : Option Subscription
  pending : Bool
  timer : Bool
  loc : Location
  snapshot : Reads

/-- A new manager whose monitor has just subscribed. -/
def State.started (k : Kernel) : State where
  kernel := k
  manager := ⟨false, none⟩
  holder := none
  events := some ⟨[], false⟩
  pending := false
  timer := false
  loc := .select
  snapshot := []

namespace State

/-- The kernel reports an update to a live subscription. -/
def notify (s : State) (u : RouteUpdate) : State :=
  { s with events := s.events.map (Subscription.push u) }

def lock (s : State) (op : Operation) : State :=
  { s with holder := some ⟨op, s.manager.perform op, []⟩ }

/-- The operation that holds the lock returns, and the loop is then at `loc`. -/
def unlock (s : State) (out : Outcome) (reads : Reads) (loc : Location) : State :=
  { s with
    holder := none
    manager := out.1
    loc := loc
    snapshot := if out.2 = none ∧ reads ≠ [] then reads else s.snapshot }

/-- The timer branch behind the subscription. -/
def afterTimer (s : State) : Location :=
  if s.pending then .refresh else .select

end State

/-- The operations of the users. -/
def UserOperation : Operation → Prop
  | .apply _ => True
  | .refresh => True
  | .rollback _ => True
  | _ => False

/-- The kernels differ in the main table only. -/
structure MainChanged (k k' : Kernel) : Prop where
  rules : k'.rules = k.rules
  routes : ∀ a : Route, a.table ≠ rtTableMain → (a ∈ k'.routes ↔ a ∈ k.routes)

/-! ## Steps -/

inductive Step : State → State → Prop
  -- The kernel.
  | change {s : State} {k' : Kernel} : MainChanged s.kernel k' →
      Step s ({ s with kernel := k' }.notify .main)
  | update {s : State} : Step s (s.notify .other)
  | breakage {s : State} {sub : Subscription} : s.events = some sub →
      Step s { s with events := some { sub with closed := true } }
  -- The users.
  | userLock {s : State} {op : Operation} : UserOperation op → s.holder = none →
      Step s (s.lock op)
  | userUnlock {s : State} {op : Operation} {out : Outcome} {reads : Reads} :
      UserOperation op → s.holder = some ⟨op, .ret out, reads⟩ →
      Step s (s.unlock out reads s.loc)
  | close {s : State} : s.holder = none →
      Step s { s with manager := { s.manager with closed := true } }
  -- The operation that holds the lock.
  | call {s : State} {op : Operation} {c : AdapterCall}
      {f : Except AdapterError (Reply c) → AdapterProg Outcome} {reads : Reads}
      {r : Except AdapterError (Reply c)} {k' : Kernel} :
      s.holder = some ⟨op, .call c f, reads⟩ → adapter c s.kernel r k' →
      Step s { s with kernel := k', holder := some ⟨op, f r, note c r reads⟩ }
  -- `case update, ok := <-events`.
  | recvOther {s : State} {queue : List RouteUpdate} {closed : Bool} : s.loc = .select →
      s.events = some ⟨.other :: queue, closed⟩ → Step s { s with events := some ⟨queue, closed⟩ }
  | recvMain {s : State} {queue : List RouteUpdate} {closed : Bool} : s.loc = .select →
      s.events = some ⟨.main :: queue, closed⟩ →
      Step s { s with
        events := some ⟨queue, closed⟩
        pending := true
        loc := if s.pending then .select else .begin }
  | recvClose {s : State} : s.loc = .select → s.events = some ⟨[], true⟩ →
      Step s { s with
        events := none
        pending := true
        loc := if s.pending then .arm else .begin }
  | beginLock {s : State} : s.loc = .begin → s.holder = none → Step s (s.lock .beginRouteChange)
  | beginUnlock {s : State} {out : Outcome} {reads : Reads} :
      s.holder = some ⟨.beginRouteChange, .ret out, reads⟩ →
      Step s (s.unlock out reads .arm)
  | arm {s : State} : s.loc = .arm → Step s { s with timer := true, loc := .select }
  -- `case <-timerC`.
  | fire {s : State} : s.loc = .select → s.timer = true →
      Step s { s with
        timer := false
        loc := if s.events = none then .resubscribe else s.afterTimer }
  | subscribeFails {s : State} : s.loc = .resubscribe → Step s { s with loc := .arm }
  | subscribes {s : State} : s.loc = .resubscribe →
      Step s { s with events := some ⟨[], false⟩, loc := s.afterTimer }
  | refreshLock {s : State} : s.loc = .refresh → s.holder = none →
      Step s (s.lock .refreshAfterRouteChange)
  | refreshUnlock {s : State} {out : Outcome} {reads : Reads} :
      s.holder = some ⟨.refreshAfterRouteChange, .ret out, reads⟩ →
      Step s (s.unlock out reads (.settle out.2.isSome))
  | settleFailed {s : State} : s.loc = .settle true → Step s { s with loc := .arm }
  | settled {s : State} : s.loc = .settle false →
      Step s { s with pending := false, loc := .select }
  -- `case <-done`, and its check in the timer branch.
  | stop {s : State} : s.loc = .select ∨ s.loc = .resubscribe → s.manager.closed = true →
      Step s { s with events := s.events.map fun _ => ⟨[], true⟩, loc := .stopped }

/-- Any number of steps. -/
abbrev Reach : State → State → Prop := Relation.ReflTransGen Step

/-! ## Whole operations -/

variable {op : Operation} {tr : List (Event AdapterCall (Kernel × Reads))} {s : State}

/-- An execution of what is left of an operation is a run in which nobody else takes a step. -/
theorem reach_of_exec {p : AdapterProg Outcome} {x x' : Kernel × Reads} {out : Outcome}
    (hex : Exec noting p x tr out x') (hkernel : s.kernel = x.1)
    (hholder : s.holder = some ⟨op, p, x.2⟩) :
    Reach s { s with kernel := x'.1, holder := some ⟨op, .ret out, x'.2⟩ } := by
  induction hex generalizing s with
  | ret => rw [← hkernel, ← hholder]
  | @call c _ x x₁ _ r _ _ hcall hrest ih =>
    obtain ⟨hadapter, hnote⟩ := noting_iff.mp hcall
    rw [← hkernel] at hadapter
    have hstep := Step.call hholder hadapter
    rw [← hnote] at hstep
    exact .head hstep (ih rfl rfl)

/-- A user's operation from taking the lock to returning. -/
theorem reach_user (hop : UserOperation op) (hfree : s.holder = none) {out : Outcome}
    {x' : Kernel × Reads} (hex : Exec noting (s.manager.perform op) (s.kernel, []) tr out x') :
    Reach s (({ s with kernel := x'.1 } : State).unlock out x'.2 s.loc) :=
  .head (.userLock hop hfree) (.tail (reach_of_exec hex rfl rfl) (.userUnlock hop rfl))

/-! ## A host with a non-strict policy -/

/-- A non-strict config for the TUN with index 10. -/
def looseConfig : Config := { sampleConfig with strictness := .nonStrict }

/-- A default route through another link. -/
def uplinkRoute : Route :=
  { vpnRoute sampleConfig afInet (familyDefaultPrefix afInet) .zero with
    table := rtTableMain, linkIndex := 2 }

/-- An operation of the users without faults, on the host of a state. -/
def State.performed (s : State) (op : Operation) : State :=
  let done := Prog.run Kernel.actNoting (s.manager.perform op) [] (s.kernel, [])
  ({ s with kernel := done.2.2.1 } : State).unlock done.2.1 done.2.2.2 s.loc

theorem reach_performed (hop : UserOperation op) (hfree : s.holder = none) :
    Reach s (s.performed op) :=
  reach_user hop hfree (run_exec Kernel.actNoting _ [] _)

theorem mainChanged_replaceRoute (k : Kernel) {a : Route} (ha : a.table = rtTableMain) :
    MainChanged k (k.replaceRoute a) where
  rules := Kernel.replaceRoute_rules k a
  routes := by
    intro b hb
    rw [Kernel.mem_replaceRoute]
    constructor
    · rintro (rfl | hmem)
      · exact absurd ha hb
      · exact hmem
    · exact Or.inr

end SysnetLinux.Routing.Monitor
