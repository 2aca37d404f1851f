/-
  SysnetLinux.Killswitch.Sessions

  Which connection of the `killswitch` client the interface names come from.

  The read loop of an earlier session may still hand over interfaces (`stale_interfaces_sent`).
  Where none does so once a later session has begun, the names, and the rulesets sent for them,
  belong to the current connection (`interfaces_of_session`).
-/

import SysnetLinux.Killswitch.Client

namespace SysnetLinux.Killswitch

/-- The step is not one in which the read loop of an earlier session calls `setInterfaces`. -/
def Orderly (p : Party) (s : State) : Prop := ∀ i, p = .callback i → i = s.current

/-- Any number of such steps. -/
abbrev OrderlyReach : State → State → Prop :=
  Relation.ReflTransGen fun s s' => ∃ p, Step p s s' ∧ Orderly p s

/-- The names are those of a message that a session has decoded. -/
def Session.Heard (session : Session) (names : List String) : Prop :=
  ∃ interfaces ∈ session.decoded, names = namesOf interfaces

theorem Session.Heard.mono {session session' : Session} {names : List String}
    (h : session.Heard names) (hdecoded : ∀ x ∈ session.decoded, x ∈ session'.decoded) :
    session'.Heard names := by
  obtain ⟨interfaces, hmem, heq⟩ := h
  exact ⟨interfaces, hdecoded interfaces hmem, heq⟩

structure Heeds (s : State) : Prop where
  known : s.loc.Serving → s.client.interfacesKnown = true →
    (s.sessions s.current).Heard s.client.interfaceNames
  applying : ∀ version m, s.loc = .apply version (some m) →
    (s.sessions s.current).Heard m.interfaces
  handing : ∀ i interfaces, (s.sessions i).reader = .handing interfaces →
    interfaces ∈ (s.sessions i).decoded
  sent : ∀ i interfaces policy, .set interfaces policy ∈ (s.sessions i).sent →
    (s.sessions i).Heard interfaces

theorem heeds_initial : Heeds State.initial where
  known := False.elim
  applying := by intro version m h; cases h
  handing := by intro i interfaces h; cases h
  sent := by intro i interfaces policy h; cases h

/-! ## Steps -/

namespace Client

/-- Nothing about the interfaces is different. -/
def SameInterfaces (c c' : Client) : Prop :=
  c'.interfaceNames = c.interfaceNames ∧ c'.interfacesKnown = c.interfacesKnown

theorem sameInterfaces_create (c : Client) (rules : AllowRules) :
    SameInterfaces c (c.createTMPRuleset rules).2 := by
  unfold createTMPRuleset
  split
  · exact ⟨rfl, rfl⟩
  · split
    · exact ⟨rfl, rfl⟩
    · exact ⟨rfl, rfl⟩

theorem sameInterfaces_update (c : Client) (id : UInt64) (rules : AllowRules) :
    SameInterfaces c (c.updateTMPRuleset id rules).2 := by
  unfold updateTMPRuleset
  split
  · exact ⟨rfl, rfl⟩
  · split
    · exact ⟨rfl, rfl⟩
    · exact ⟨rfl, rfl⟩

theorem sameInterfaces_delete (c : Client) (id : UInt64) :
    SameInterfaces c (c.deleteTMPRuleset id).2 := by
  unfold deleteTMPRuleset
  split
  · exact ⟨rfl, rfl⟩
  · split
    · exact ⟨rfl, rfl⟩
    · exact ⟨rfl, rfl⟩

/-- What is known behind `setInterfaces` was known before, or it is what was handed over. -/
theorem setInterfaces_cases (c : Client) (interfaces : List ApiInterface) :
    SameInterfaces c (c.setInterfaces interfaces) ∨
      (c.setInterfaces interfaces).interfaceNames = namesOf interfaces := by
  unfold setInterfaces
  split
  · exact .inl ⟨rfl, rfl⟩
  · split
    · exact .inl ⟨rfl, rfl⟩
    · exact .inr rfl

end Client

section Steps

variable {s s' : State}

section

variable (h : Heeds s)
include h

/-- A step in which no session changes, and in which `serveConn` goes on or is left. -/
theorem Heeds.keep (hclient : s.client.SameInterfaces s'.client)
    (hsessions : s'.sessions = s.sessions) (hcurrent : s'.current = s.current)
    (hserving : s'.loc.Serving → s.loc.Serving)
    (happlying : ∀ version m, s'.loc = .apply version (some m) →
      (s.sessions s.current).Heard m.interfaces) : Heeds s' := by
  refine ⟨?_, ?_, hsessions ▸ h.handing, hsessions ▸ h.sent⟩
  · intro hserves hknown
    rw [hsessions, hcurrent, hclient.1]
    exact h.known (hserving hserves) (hclient.2 ▸ hknown)
  · rw [hsessions, hcurrent]
    exact happlying

/-- A user changes nothing about the interfaces. -/
theorem Heeds.user {c : Client} {closing : Bool} (hclient : s.client.SameInterfaces c) :
    Heeds { s with client := c, closing := closing } :=
  h.keep hclient rfl rfl id h.applying

/-- One session changes, and it still says what it has decoded. -/
theorem Heeds.setSession {i : Nat} {session : Session}
    (hdecoded : ∀ x ∈ (s.sessions i).decoded, x ∈ session.decoded)
    (hhanding : ∀ interfaces, session.reader = .handing interfaces → interfaces ∈ session.decoded)
    (hsent : ∀ interfaces policy, .set interfaces policy ∈ session.sent → session.Heard interfaces) :
    Heeds (s.setSession i session) := by
  have hheard : ∀ j names, (s.sessions j).Heard names →
      ((s.setSession i session).sessions j).Heard names := by
    intro j names hnames
    by_cases hj : j = i
    · subst hj
      rw [State.setSession_self]
      exact hnames.mono hdecoded
    · rw [State.setSession_of_ne s hj]
      exact hnames
  refine ⟨fun hserves hknown => hheard _ _ (h.known hserves hknown),
    fun version m heq => hheard _ _ (h.applying version m heq), ?_, ?_⟩
  · intro j
    by_cases hj : j = i
    · subst hj
      rw [State.setSession_self]
      exact hhanding
    · rw [State.setSession_of_ne s hj]
      exact h.handing j
  · intro j
    by_cases hj : j = i
    · subst hj
      rw [State.setSession_self]
      exact hsent
    · rw [State.setSession_of_ne s hj]
      exact h.sent j

theorem Heeds.leave : Heeds s.leave := by
  have hclosed : Heeds (s.close s.current) :=
    h.setSession (fun _ hx => hx) (h.handing s.current) (h.sent s.current)
  exact hclosed.keep ⟨rfl, rfl⟩ rfl rfl False.elim (by intro version m heq; cases heq)

theorem Heeds.serve : Heeds s.serve := by
  have hself : s.serve.sessions (s.current + 1) = .opened := Function.update_self ..
  have hother : ∀ j, j ≠ s.current + 1 → s.serve.sessions j = s.sessions j :=
    fun j hj => Function.update_of_ne hj ..
  refine ⟨?_, ?_, ?_, ?_⟩
  · intro _ hknown
    cases hknown
  · intro version m heq
    cases heq
  · intro j interfaces heq
    by_cases hj : j = s.current + 1
    · rw [hj, hself] at heq
      cases heq
    · rw [hother j hj] at heq ⊢
      exact h.handing j interfaces heq
  · intro j interfaces policy hmem
    by_cases hj : j = s.current + 1
    · rw [hj, hself] at hmem
      cases hmem
    · rw [hother j hj] at hmem ⊢
      exact h.sent j interfaces policy hmem

/-- A snapshot merges the rulesets for the names that are known. -/
theorem Heeds.snapshot {version : UInt64} {merged : Option MergedTMPRuleset} {ready : Bool}
    (hloc : s.loc = .snapshot) (hsnapshot : s.client.snapshot = some (version, merged, ready)) :
    Heeds { s with
      loc := if ready && version != s.appliedVersion then .apply version merged else .select } := by
  have hserving : s.loc.Serving := hloc ▸ trivial
  refine h.keep ⟨rfl, rfl⟩ rfl rfl (fun _ => hserving) ?_
  intro v m heq
  simp only at heq
  split at heq
  · rename_i hcond
    obtain ⟨-, rfl⟩ := Location.apply.inj heq
    unfold Client.snapshot at hsnapshot
    split at hsnapshot
    · cases hsnapshot
    · split at hsnapshot
      · cases hsnapshot
      · rename_i hknown
        have hmerge : mergeTMPRulesets s.client.rulesets s.client.interfaceNames = some m :=
          congrArg (fun x => x.2.1) (Option.some.inj hsnapshot)
        rw [(merges_mergeTMPRulesets hmerge).interfaces]
        exact h.known hserving (by simpa using hknown)
  · cases heq

theorem Heeds.apply {version : UInt64} {merged : Option MergedTMPRuleset}
    (hloc : s.loc = .apply version merged) :
    Heeds { s.send (mutationFor merged) with loc := .select, appliedVersion := version } := by
  have hserving : s.loc.Serving := hloc ▸ trivial
  have hsend : Heeds (s.send (mutationFor merged)) := by
    refine h.setSession (fun _ hx => hx) (h.handing s.current) ?_
    intro interfaces policy hmem
    rcases List.mem_cons.mp hmem with heq | hmem
    · cases merged with
      | none => cases heq
      | some m =>
        obtain ⟨rfl, -⟩ := Mutation.set.inj heq
        exact h.applying version m hloc
    · exact h.sent s.current interfaces policy hmem
  exact hsend.keep ⟨rfl, rfl⟩ rfl rfl (fun _ => hserving) (by intro v m heq; cases heq)

/-- The read loop of the current session hands over what it has decoded. -/
theorem Heeds.callback {interfaces : List ApiInterface}
    (hreader : (s.sessions s.current).reader = .handing interfaces) :
    Heeds { s.setSession s.current { s.sessions s.current with reader := .decoding } with
      client := s.client.setInterfaces interfaces } := by
  have hset : Heeds (s.setSession s.current { s.sessions s.current with reader := .decoding }) :=
    h.setSession (fun _ hx => hx) (by intro _ heq; cases heq) (h.sent s.current)
  rcases s.client.setInterfaces_cases interfaces with hsame | hnames
  · exact hset.keep hsame rfl rfl id hset.applying
  · refine ⟨fun _ _ => ?_, hset.applying, hset.handing, hset.sent⟩
    show ((s.setSession s.current _).sessions s.current).Heard
      (s.client.setInterfaces interfaces).interfaceNames
    rw [State.setSession_self]
    exact ⟨interfaces, h.handing _ _ hreader, hnames⟩

theorem Heeds.step {p : Party} (hstep : Step p s s') (horderly : Orderly p s) : Heeds s' := by
  cases hstep with
  | create _ rules => exact h.user (s.client.sameInterfaces_create rules)
  | update _ id rules => exact h.user (s.client.sameInterfaces_update id rules)
  | delete _ id => exact h.user (s.client.sameInterfaces_delete id)
  | close _ | closeNotify _ => exact h.user ⟨rfl, rfl⟩
  | stop _ _ | dial _ =>
    exact h.keep ⟨rfl, rfl⟩ rfl rfl False.elim (by intro version m heq; cases heq)
  | serve _ => exact h.serve
  | start hloc =>
    exact h.keep ⟨rfl, rfl⟩ rfl rfl (fun _ => hloc ▸ trivial) (by intro version m heq; cases heq)
  | startFails _ | snapshotClosed _ _ => exact h.leave
  | snapshot hloc hsnapshot => exact h.snapshot hloc hsnapshot
  | apply hloc => exact h.apply hloc
  | applyFails _ => exact h.leave
  | wake hloc _ =>
    exact h.keep ⟨rfl, rfl⟩ rfl rfl (fun _ => hloc ▸ trivial) (by intro version m heq; cases heq)
  | sessionClosed _ _ | done _ _ => exact h.leave
  | @decode _ i _ interfaces _ _ =>
    refine h.setSession (fun x hx => List.mem_cons_of_mem _ hx) ?_ ?_
    · intro interfaces' heq
      obtain rfl := Reader.handing.inj heq
      exact List.mem_cons_self
    · intro ifaces policy hmem
      exact (h.sent i ifaces policy hmem).mono fun x hx => List.mem_cons_of_mem _ hx
  | skip _ _ => exact h
  | @callback _ i interfaces hreader =>
    obtain rfl : i = s.current := horderly i rfl
    exact h.callback hreader
  | @readEnds _ i _ =>
    exact h.setSession (fun _ hx => hx) (by intro _ heq; cases heq) (h.sent i)

end

end Steps

/-! ## Runs -/

/-- Where no read loop of an earlier session calls `setInterfaces`, the names that are known in a
    session, and those in the rulesets that a session sends, come from its own connection. -/
theorem interfaces_of_session {s : State} (h : OrderlyReach State.initial s) :
    (s.loc.Serving → s.client.interfacesKnown = true →
      ∃ interfaces ∈ (s.sessions s.current).decoded,
        s.client.interfaceNames = namesOf interfaces) ∧
    ∀ i names policy, .set names policy ∈ (s.sessions i).sent →
      ∃ interfaces ∈ (s.sessions i).decoded, names = namesOf interfaces := by
  have hheeds : Heeds s := by
    induction h with
    | refl => exact heeds_initial
    | tail _ hstep ih =>
      obtain ⟨p, hp, horderly⟩ := hstep
      exact ih.step hp horderly
  exact ⟨hheeds.known, hheeds.sent⟩

/-- A second session learns other interfaces than the first and sends a ruleset for them. -/
theorem interfaces_of_session_second :
    ∃ s, OrderlyReach State.initial s ∧ s.current = 2 ∧
      (s.sessions 1).decoded = [[⟨"wlan0"⟩]] ∧ .set ["eth0"] .zero ∈ (s.sessions 2).sent ∧
      ∃ interfaces ∈ (s.sessions 2).decoded, ["eth0"] = namesOf interfaces := by
  have hcreate : OrderlyReach State.initial _ :=
    .tail .refl ⟨_, .create State.initial .zero, nofun⟩
  have hserve := (hcreate.tail ⟨_, .dial rfl, nofun⟩).tail ⟨_, .serve rfl, nofun⟩
  have hheard : ∀ name, handleMessage (.config (some [⟨name⟩])) = some [⟨name⟩] := fun _ => rfl
  have hlearn := (hserve.tail ⟨.decode 1, .decode rfl (hheard "wlan0"), nofun⟩).tail
    ⟨.callback 1, .callback rfl, by intro i h; cases h; rfl⟩
  have hleave := hlearn.tail ⟨_, .startFails rfl, nofun⟩
  have hagain := (hleave.tail ⟨_, .dial rfl, nofun⟩).tail ⟨_, .serve rfl, nofun⟩
  have hrelearn := (hagain.tail ⟨.decode 2, .decode rfl (hheard "eth0"), nofun⟩).tail
    ⟨.callback 2, .callback rfl, by intro i h; cases h; rfl⟩
  have hstart := hrelearn.tail ⟨_, .start rfl, nofun⟩
  have hsent := (hstart.tail ⟨_, .snapshot rfl rfl, nofun⟩).tail ⟨_, .apply rfl, nofun⟩
  exact ⟨_, hsent, rfl, rfl, List.mem_cons_self,
    (interfaces_of_session hsent).2 2 _ .zero List.mem_cons_self⟩

/-- The first session ends while its read loop holds a message.  The second one has
    decoded nothing when it sends a ruleset for the interfaces of that message. -/
theorem stale_interfaces_sent :
    ∃ s, Reach State.initial s ∧ s.loc.Serving ∧ s.client.interfacesKnown = true ∧
      s.current = 2 ∧ (s.sessions 2).decoded = [] ∧
      (¬ ∃ interfaces ∈ (s.sessions s.current).decoded,
        s.client.interfaceNames = namesOf interfaces) ∧
      .set ["eth0"] AllowRules.zero ∈ (s.sessions s.current).sent := by
  have hcreate : Reach State.initial _ := .tail .refl ⟨_, .create State.initial .zero⟩
  have hserve := (hcreate.tail ⟨_, .dial rfl⟩).tail ⟨_, .serve rfl⟩
  have hheard : handleMessage (.config (some [⟨"eth0"⟩])) = some [⟨"eth0"⟩] := rfl
  have hleave := (hserve.tail ⟨.decode 1, .decode rfl hheard⟩).tail ⟨_, .startFails rfl⟩
  have hagain := (hleave.tail ⟨_, .dial rfl⟩).tail ⟨_, .serve rfl⟩
  have hstale := (hagain.tail ⟨.callback 1, .callback rfl⟩).tail ⟨_, .start rfl⟩
  have hsent := (hstale.tail ⟨_, .snapshot rfl rfl⟩).tail ⟨_, .apply rfl⟩
  refine ⟨_, hsent, trivial, rfl, rfl, rfl, ?_, List.mem_cons_self⟩
  rintro ⟨interfaces, hmem, -⟩
  cases hmem

end SysnetLinux.Killswitch
