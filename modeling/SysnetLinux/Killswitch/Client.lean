/-
  SysnetLinux.Killswitch.Client

  The client of the `killswitch` daemon (`client.go`): the methods of its users, the loop of `run`
  and `serveConn`, and the read loops of its sessions.

  A section under `c.mu` is one step, with the send on `c.wake` that `changedLocked` makes in it.
  `serveConn` does not wait for its read loop, which may still hold a message; so the read loops
  of earlier sessions go on beside the current one.  Delays are not modelled.
-/

import SysnetLinux.Killswitch.Rulesets

namespace SysnetLinux.Killswitch

/-! ## The shared state -/

/-- `Client`.  `changes` counts the calls of `changedLocked`; no code reads it. -/
structure Client where
  closed : Bool
  version : UInt64
  nextRulesetID : UInt64
  rulesets : Rulesets
  interfaceNames : List String
  interfacesKnown : Bool
  wake : Bool
  changes : Nat

def newClient : Client where
  closed := false
  version := 0
  nextRulesetID := 0
  rulesets := .empty
  interfaceNames := []
  interfacesKnown := false
  wake := false
  changes := 0

inductive ClientError where
  | closed
  | exhausted
  | missing (id : UInt64)
  deriving DecidableEq

def ClientError.message : ClientError → String
  | .closed => "killswitch: client is closed"
  | .exhausted => "killswitch: temporary ruleset ID space exhausted"
  | .missing id => "killswitch: temporary ruleset " ++ toString id.toNat ++ " does not exist"

structure ApiInterface where
  name : String
  deriving DecidableEq

/-- The names that `setInterfaces` takes from the interfaces of a message. -/
def namesOf (interfaces : List ApiInterface) : List String :=
  uniqueSortedStrings ((interfaces.map ApiInterface.name).filter fun name => name != "")

namespace Client

def notify (c : Client) : Client := { c with wake := true }

def changedLocked (c : Client) : Client :=
  { c with version := c.version + 1, changes := c.changes + 1 }.notify

def createTMPRuleset (c : Client) (rules : AllowRules) : Except ClientError UInt64 × Client :=
  if c.closed then (.error .closed, c)
  else if c.nextRulesetID = ~~~0 then (.error .exhausted, c)
  else
    let id := c.nextRulesetID + 1
    (.ok id, { c with nextRulesetID := id, rulesets := c.rulesets.insert id rules }.changedLocked)

def updateTMPRuleset (c : Client) (id : UInt64) (rules : AllowRules) :
    Except ClientError Unit × Client :=
  if c.closed then (.error .closed, c)
  else if !c.rulesets.contains id then (.error (.missing id), c)
  else (.ok (), { c with rulesets := c.rulesets.insert id rules }.changedLocked)

def deleteTMPRuleset (c : Client) (id : UInt64) : Except ClientError Unit × Client :=
  if c.closed then (.error .closed, c)
  else if !c.rulesets.contains id then (.ok (), c)
  else (.ok (), { c with rulesets := c.rulesets.delete id }.changedLocked)

/-- `snapshot`: nothing from a client that is closed, else the version, the merged
    ruleset and whether the interfaces are known. -/
def snapshot (c : Client) : Option (UInt64 × Option MergedTMPRuleset × Bool) :=
  if c.closed then none
  else if !c.interfacesKnown then some (c.version, none, false)
  else some (c.version, mergeTMPRulesets c.rulesets c.interfaceNames, true)

def resetInterfaces (c : Client) : Client :=
  { c with interfaceNames := [], interfacesKnown := false }.changedLocked

def setInterfaces (c : Client) (interfaces : List ApiInterface) : Client :=
  if c.closed then c
  else if c.interfacesKnown && c.interfaceNames == namesOf interfaces then c
  else { c with interfaceNames := namesOf interfaces, interfacesKnown := true }.changedLocked

end Client

/-! ## Sessions -/

/-- What a session sends about the temporary ruleset. -/
inductive Mutation where
  | set (interfaces : List String) (policy : AllowRules)
  | remove
  deriving DecidableEq

/-- The mutation of `apply`. -/
def mutationFor : Option MergedTMPRuleset → Mutation
  | none => .remove
  | some merged => .set merged.interfaces merged.policy

/-- A message of the daemon with its payload, if that can be decoded. -/
inductive Envelope where
  | config (payload : Option (List ApiInterface))
  | event (payload : Option (String × List ApiInterface))
  | mutationResult (payload : Option (Bool × String))
  | other
  deriving DecidableEq

def eventTypeInterfaces : String := "interfaces"

/-- The interfaces that `handleMessage` hands to `setInterfaces`. -/
def handleMessage : Envelope → Option (List ApiInterface)
  | .config payload => payload
  | .event (some (eventType, interfaces)) =>
    if eventType = eventTypeInterfaces then some interfaces else none
  | _ => none

inductive Reader where
  /-- In `Decode`. -/
  | decoding
  /-- Behind it, about to call `setInterfaces`. -/
  | handing (interfaces : List ApiInterface)
  | stopped
  deriving DecidableEq

/-- `apiSession`.  `decoded` lists the interfaces of the messages that its read loop has
    decoded and `sent` its mutations, the last one first; no code reads them. -/
structure Session where
  reader : Reader
  closed : Bool
  decoded : List (List ApiInterface)
  sent : List Mutation

def Session.opened : Session := ⟨.decoding, false, [], []⟩

/-- The place of a session that has not begun. -/
def Session.absent : Session := ⟨.stopped, false, [], []⟩

inductive Location where
  /-- In the loop of `run`, without a connection. -/
  | dialing
  /-- About to call `serveConn`. -/
  | connected
  /-- In `session.start`. -/
  | starting
  /-- At the head of the loop of `serveConn`. -/
  | snapshot
  /-- In `session.apply`. -/
  | apply (version : UInt64) (merged : Option MergedTMPRuleset)
  | select
  | stopped
  deriving DecidableEq

/-- The goroutine is inside `serveConn`, behind `resetInterfaces`. -/
def Location.Serving : Location → Prop
  | .starting | .snapshot | .apply _ _ | .select => True
  | .dialing | .connected | .stopped => False

/-- The state of all parties.  Sessions are numbered from one on; `current` is the number
    of the last one, and `closing` a call of `Close` before its `notify`. -/
structure State where
  client : Client
  closing : Bool
  loc : Location
  current : Nat
  appliedVersion : UInt64
  sessions : Nat → Session

def State.initial : State where
  client := newClient
  closing := false
  loc := .dialing
  current := 0
  appliedVersion := 0
  sessions := fun _ => .absent

namespace State

def setSession (s : State) (i : Nat) (session : Session) : State :=
  { s with sessions := Function.update s.sessions i session }

@[simp] theorem setSession_self (s : State) (i : Nat) (session : Session) :
    (s.setSession i session).sessions i = session := Function.update_self ..

theorem setSession_of_ne (s : State) {i j : Nat} (h : j ≠ i) (session : Session) :
    (s.setSession i session).sessions j = s.sessions j := Function.update_of_ne h ..

def close (s : State) (i : Nat) : State :=
  s.setSession i { s.sessions i with closed := true }

/-- `serveConn` returns: the session is closed with its connection. -/
def leave (s : State) : State := { s.close s.current with loc := .dialing }

/-- `serveConn` begins. -/
def serve (s : State) : State :=
  { s with
    client := s.client.resetInterfaces
    loc := .starting
    current := s.current + 1
    sessions := Function.update s.sessions (s.current + 1) .opened }

/-- The mutation of the current session. -/
def send (s : State) (m : Mutation) : State :=
  s.setSession s.current
    { s.sessions s.current with sent := m :: (s.sessions s.current).sent }

end State

/-! ## Steps -/

inductive Party where
  | user
  | loop
  | decode (session : Nat)
  /-- The call of `setInterfaces` in a read loop. -/
  | callback (session : Nat)
  deriving DecidableEq

inductive Step : Party → State → State → Prop
  | create (s : State) (rules : AllowRules) :
      Step .user s { s with client := (s.client.createTMPRuleset rules).2 }
  | update (s : State) (id : UInt64) (rules : AllowRules) :
      Step .user s { s with client := (s.client.updateTMPRuleset id rules).2 }
  | delete (s : State) (id : UInt64) :
      Step .user s { s with client := (s.client.deleteTMPRuleset id).2 }
  | close {s : State} : s.client.closed = false →
      Step .user s { s with client := { s.client with closed := true }, closing := true }
  | closeNotify {s : State} : s.closing = true →
      Step .user s { s with client := s.client.notify, closing := false }
  -- `run`.
  | stop {s : State} : s.loc = .dialing → s.client.closed = true →
      Step .loop s { s with loc := .stopped }
  | dial {s : State} : s.loc = .dialing → Step .loop s { s with loc := .connected }
  | serve {s : State} : s.loc = .connected → Step .loop s s.serve
  -- `serveConn`.
  | start {s : State} : s.loc = .starting →
      Step .loop s { s with loc := .snapshot, appliedVersion := 0 }
  | startFails {s : State} : s.loc = .starting → Step .loop s s.leave
  | snapshotClosed {s : State} : s.loc = .snapshot → s.client.snapshot = none →
      Step .loop s s.leave
  | snapshot {s : State} {version : UInt64} {merged : Option MergedTMPRuleset} {ready : Bool} :
      s.loc = .snapshot → s.client.snapshot = some (version, merged, ready) →
      Step .loop s { s with
        loc := if ready && version != s.appliedVersion then .apply version merged else .select }
  | apply {s : State} {version : UInt64} {merged : Option MergedTMPRuleset} :
      s.loc = .apply version merged →
      Step .loop s { s.send (mutationFor merged) with loc := .select, appliedVersion := version }
  | applyFails {s : State} {version : UInt64} {merged : Option MergedTMPRuleset} :
      s.loc = .apply version merged → Step .loop s s.leave
  | wake {s : State} : s.loc = .select → s.client.wake = true →
      Step .loop s { s with client := { s.client with wake := false }, loc := .snapshot }
  | sessionClosed {s : State} : s.loc = .select → (s.sessions s.current).closed = true →
      Step .loop s s.leave
  | done {s : State} : s.loc = .select → s.client.closed = true → Step .loop s s.leave
  -- `readLoop`.
  | decode {s : State} {i : Nat} {env : Envelope} {interfaces : List ApiInterface} :
      (s.sessions i).reader = .decoding → handleMessage env = some interfaces →
      Step (.decode i) s (s.setSession i
        { s.sessions i with
          reader := .handing interfaces
          decoded := interfaces :: (s.sessions i).decoded })
  | skip {s : State} {i : Nat} {env : Envelope} :
      (s.sessions i).reader = .decoding → handleMessage env = none → Step (.decode i) s s
  | callback {s : State} {i : Nat} {interfaces : List ApiInterface} :
      (s.sessions i).reader = .handing interfaces →
      Step (.callback i) s
        { s.setSession i { s.sessions i with reader := .decoding } with
          client := s.client.setInterfaces interfaces }
  | readEnds {s : State} {i : Nat} : (s.sessions i).reader = .decoding →
      Step (.decode i) s (s.setSession i { s.sessions i with reader := .stopped, closed := true })

/-- Any number of steps of any party. -/
abbrev Reach : State → State → Prop := Relation.ReflTransGen fun s s' => ∃ p, Step p s s'

end SysnetLinux.Killswitch
