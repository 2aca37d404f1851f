/-
  SysnetLinux.Killswitch.Wake

  The `killswitch` client loses no update.

  A change of the shared state puts a token into `c.wake`, and only the loop of
  `serveConn` takes it out, before it looks at the state again.  So while there is no
  token, what the loop has last looked at is what there is (`Inv`).  The version tells
  whether that has been sent already, as long as it does not wrap around.
-/

import SysnetLinux.Killswitch.Client

namespace SysnetLinux.Killswitch

/-! ## What the methods do to the shared state -/

namespace Client

/-- Nothing that a snapshot reads is different, and no token is gone. -/
structure Same (c c' : Client) : Prop where
  version : c'.version = c.version
  changes : c'.changes = c.changes
  rulesets : c'.rulesets = c.rulesets
  interfaceNames : c'.interfaceNames = c.interfaceNames
  interfacesKnown : c'.interfacesKnown = c.interfacesKnown
  wake : c'.wake = false → c.wake = false

/-- There is a new version, and a token. -/
structure Changed (c c' : Client) : Prop where
  version : c'.version = c.version + 1
  changes : c'.changes = c.changes + 1
  wake : c'.wake = true

def Touched (c c' : Client) : Prop := Same c c' ∨ Changed c c'

theorem touched_self (c : Client) : Touched c c := .inl ⟨rfl, rfl, rfl, rfl, rfl, id⟩

theorem touched_create (c : Client) (rules : AllowRules) :
    Touched c (c.createTMPRuleset rules).2 := by
  unfold createTMPRuleset
  split
  · exact touched_self c
  · split
    · exact touched_self c
    · exact .inr ⟨rfl, rfl, rfl⟩

theorem touched_update (c : Client) (id : UInt64) (rules : AllowRules) :
    Touched c (c.updateTMPRuleset id rules).2 := by
  unfold updateTMPRuleset
  split
  · exact touched_self c
  · split
    · exact touched_self c
    · exact .inr ⟨rfl, rfl, rfl⟩

theorem touched_delete (c : Client) (id : UInt64) : Touched c (c.deleteTMPRuleset id).2 := by
  unfold deleteTMPRuleset
  split
  · exact touched_self c
  · split
    · exact touched_self c
    · exact .inr ⟨rfl, rfl, rfl⟩

theorem touched_setInterfaces (c : Client) (interfaces : List ApiInterface) :
    Touched c (c.setInterfaces interfaces) := by
  unfold setInterfaces
  split
  · exact touched_self c
  · split
    · exact touched_self c
    · exact .inr ⟨rfl, rfl, rfl⟩

end Client

/-! ## The invariant -/

/-- The goroutine is in the loop of `serveConn`. -/
def Location.Looping : Location → Prop
  | .snapshot | .apply _ _ | .select => True
  | _ => False

namespace State

/-- The merged ruleset of the current state. -/
def merged (s : State) : Option MergedTMPRuleset :=
  mergeTMPRulesets s.client.rulesets s.client.interfaceNames

/-- The last mutation of the session is the one for the current state. -/
def Sent (s : State) : Prop :=
  (s.sessions s.current).sent.head? = some (mutationFor s.merged)

end State

structure Inv (s : State) : Prop where
  version : s.client.version = UInt64.ofNat s.client.changes
  served : s.loc.Serving → 0 < s.client.changes
  applied : s.client.changes < 2 ^ 64 → s.loc.Looping →
    s.appliedVersion.toNat ≤ s.client.changes ∧
      (s.appliedVersion = s.client.version → s.Sent)
  applying : s.client.changes < 2 ^ 64 → ∀ version merged, s.loc = .apply version merged →
    version.toNat ≤ s.client.changes ∧ (version = s.client.version → merged = s.merged) ∧
      (s.client.wake = false → version = s.client.version)
  selecting : s.client.changes < 2 ^ 64 → s.loc = .select → s.client.wake = false →
    s.client.interfacesKnown = true → s.appliedVersion = s.client.version

theorem Location.Looping.serving {loc : Location} (h : loc.Looping) : loc.Serving := by
  cases loc with
  | snapshot | apply version merged | select => trivial
  | _ => cases h

theorem inv_initial : Inv State.initial where
  version := rfl
  served := False.elim
  applied := fun _ => False.elim
  applying := by intro _ version merged h; cases h
  selecting := by intro _ h; cases h

variable {s s' : State} {version : UInt64} {merged : Option MergedTMPRuleset}

/-- Before it wraps around, the version is the number of changes. -/
theorem Inv.version_toNat (h : Inv s) (hchanges : s.client.changes < 2 ^ 64) :
    s.client.version.toNat = s.client.changes := by
  rw [h.version, UInt64.toNat_ofNat']
  exact Nat.mod_eq_of_lt hchanges

/-- Outside the loop of `serveConn` there is nothing to keep. -/
theorem Inv.outside (h : Inv s) (hclient : s'.client = s.client) (hloc : ¬ s'.loc.Serving) :
    Inv s' := by
  have hlooping : ¬ s'.loc.Looping := fun hl => hloc hl.serving
  refine ⟨hclient ▸ h.version, fun hs => absurd hs hloc, fun _ hl => absurd hl hlooping, ?_, ?_⟩
  · intro _ version merged heq
    exact absurd (heq ▸ trivial : s'.loc.Looping) hlooping
  · intro _ heq
    exact absurd (heq ▸ trivial : s'.loc.Looping) hlooping

/-- The other parties change the shared state only. -/
theorem Inv.touched (h : Inv s) (hclient : Client.Touched s.client s'.client)
    (hloc : s'.loc = s.loc) (happlied : s'.appliedVersion = s.appliedVersion)
    (hsent : (s'.sessions s'.current).sent = (s.sessions s.current).sent) : Inv s' := by
  rcases hclient with hsame | hchanged
  · have hmerged : s'.merged = s.merged := by
      unfold State.merged
      rw [hsame.rulesets, hsame.interfaceNames]
    refine ⟨?_, ?_, ?_, ?_, ?_⟩
    · rw [hsame.version, hsame.changes]
      exact h.version
    · rw [hloc, hsame.changes]
      exact h.served
    · rw [hloc, hsame.changes, hsame.version, happlied]
      intro hchanges hlooping
      refine ⟨(h.applied hchanges hlooping).1, fun heq => ?_⟩
      unfold State.Sent
      rw [hsent, hmerged]
      exact (h.applied hchanges hlooping).2 heq
    · rw [hloc, hsame.changes, hsame.version, hmerged]
      intro hchanges version merged heq
      obtain ⟨hle, hm, hwake⟩ := h.applying hchanges version merged heq
      exact ⟨hle, hm, fun hfalse => hwake (hsame.wake hfalse)⟩
    · rw [hloc, hsame.changes, hsame.version, hsame.interfacesKnown, happlied]
      intro hchanges heq hfalse
      exact h.selecting hchanges heq (hsame.wake hfalse)
  · have hversion : s'.client.version = UInt64.ofNat s'.client.changes := by
      rw [hchanged.version, hchanged.changes, h.version, UInt64.ofNat_add]
      rfl
    -- A version that was taken before the change is smaller than the new one.
    have hnew : s'.client.changes < 2 ^ 64 → ∀ v : UInt64, v.toNat ≤ s.client.changes →
        v.toNat ≤ s'.client.changes ∧ v ≠ s'.client.version := by
      intro hchanges v hv
      have htoNat : s'.client.version.toNat = s'.client.changes := by
        rw [hversion, UInt64.toNat_ofNat']
        exact Nat.mod_eq_of_lt hchanges
      rw [hchanged.changes] at htoNat ⊢
      refine ⟨by omega, ?_⟩
      rintro rfl
      omega
    have hbefore : s'.client.changes < 2 ^ 64 → s.client.changes < 2 ^ 64 := by
      rw [hchanged.changes]
      omega
    refine ⟨hversion, ?_, ?_, ?_, ?_⟩
    · intro _
      rw [hchanged.changes]
      omega
    · rw [hloc, happlied]
      intro hchanges hlooping
      obtain ⟨hle, hne⟩ := hnew hchanges _ (h.applied (hbefore hchanges) hlooping).1
      exact ⟨hle, fun heq => absurd heq hne⟩
    · rw [hloc]
      intro hchanges version merged heq
      obtain ⟨hle, hne⟩ := hnew hchanges _ (h.applying (hbefore hchanges) version merged heq).1
      refine ⟨hle, fun hsame => absurd hsame hne, fun hfalse => ?_⟩
      rw [hchanged.wake] at hfalse
      cases hfalse
    · intro _ _ hfalse
      rw [hchanged.wake] at hfalse
      cases hfalse

theorem snapshot_eq_some {c : Client} {ready : Bool}
    (h : c.snapshot = some (version, merged, ready)) :
    version = c.version ∧ ready = c.interfacesKnown ∧
      (ready = true → merged = mergeTMPRulesets c.rulesets c.interfaceNames) := by
  unfold Client.snapshot at h
  split at h
  · cases h
  · split at h
    · rename_i hunknown
      cases h
      exact ⟨rfl, by simpa using hunknown, by simp⟩
    · rename_i hknown
      cases h
      exact ⟨rfl, by simpa using hknown, fun _ => rfl⟩

theorem Inv.snapshot (h : Inv s) {ready : Bool} (hloc : s.loc = .snapshot)
    (hsnapshot : s.client.snapshot = some (version, merged, ready)) :
    Inv { s with
      loc := if ready && version != s.appliedVersion then .apply version merged else .select } := by
  obtain ⟨hversion, hready, hmerged⟩ := snapshot_eq_some hsnapshot
  have hlooping : s.loc.Looping := hloc ▸ trivial
  refine ⟨h.version, fun _ => h.served hlooping.serving, fun hchanges _ => h.applied hchanges hlooping,
    ?_, ?_⟩
  · intro hchanges v m heq
    simp only at heq
    split at heq
    · rename_i hcond
      obtain ⟨rfl, rfl⟩ := Location.apply.inj heq
      have hisready : ready = true := (Bool.and_eq_true_iff.mp hcond).1
      refine ⟨?_, fun _ => hmerged hisready, fun _ => hversion⟩
      rw [hversion, h.version_toNat hchanges]
    · cases heq
  · intro _ heq _ hknown
    simp only at heq hknown ⊢
    split at heq
    · cases heq
    · rename_i hcond
      rw [hready, hknown, hversion, Bool.true_and, bne_iff_ne, not_not] at hcond
      exact hcond.symm

theorem Inv.apply (h : Inv s) (hloc : s.loc = .apply version merged) :
    Inv { s.send (mutationFor merged) with loc := .select, appliedVersion := version } := by
  have hlooping : s.loc.Looping := hloc ▸ trivial
  refine ⟨h.version, fun _ => h.served hlooping.serving, fun hchanges _ => ?_, ?_, ?_⟩
  · obtain ⟨hle, hm, -⟩ := h.applying hchanges version merged hloc
    refine ⟨hle, fun heq => ?_⟩
    have hcurrent : merged = s.merged := hm heq
    have hsession : (s.send (mutationFor merged)).sessions s.current = { s.sessions s.current with
          sent := mutationFor merged :: (s.sessions s.current).sent } :=
      State.setSession_self ..
    show ((s.send (mutationFor merged)).sessions s.current).sent.head? = some (mutationFor s.merged)
    rw [hsession, hcurrent]
    rfl
  · intro _ v m heq
    cases heq
  · intro hchanges _ hwake _
    exact (h.applying hchanges version merged hloc).2.2 hwake

theorem sent_setSession {i : Nat} {session : Session} (h : session.sent = (s.sessions i).sent) :
    ((s.setSession i session).sessions s.current).sent = (s.sessions s.current).sent := by
  by_cases hi : s.current = i
  · rw [hi, State.setSession_self, h]
  · rw [State.setSession_of_ne s hi]

theorem Inv.step {p : Party} (h : Inv s) (hstep : Step p s s') : Inv s' := by
  cases hstep with
  | create _ rules => exact h.touched (s.client.touched_create rules) rfl rfl rfl
  | update _ id rules => exact h.touched (s.client.touched_update id rules) rfl rfl rfl
  | delete _ id => exact h.touched (s.client.touched_delete id) rfl rfl rfl
  | close _ => exact h.touched (.inl ⟨rfl, rfl, rfl, rfl, rfl, id⟩) rfl rfl rfl
  | closeNotify _ =>
    exact h.touched (.inl ⟨rfl, rfl, rfl, rfl, rfl, by simp [Client.notify]⟩) rfl rfl rfl
  | stop _ _ | dial _ => exact h.outside rfl id
  | serve _ =>
    refine ⟨?_, fun _ => Nat.succ_pos _, fun _ => False.elim, ?_, ?_⟩
    · have hversion : s.serve.client.version = s.client.version + 1 := rfl
      have hchanges : s.serve.client.changes = s.client.changes + 1 := rfl
      rw [hversion, hchanges, h.version, UInt64.ofNat_add]
      rfl
    · intro _ version merged heq
      cases heq
    · intro _ heq
      cases heq
  | start hloc =>
    have hserving : s.loc.Serving := hloc ▸ trivial
    refine ⟨h.version, fun _ => h.served hserving, fun hchanges _ => ⟨Nat.zero_le _, ?_⟩, ?_, ?_⟩
    · intro heq
      -- `resetInterfaces` has made the version positive.
      have htoNat := h.version_toNat hchanges
      have hpositive := h.served hserving
      have hzero : (0 : UInt64) = s.client.version := heq
      rw [← hzero] at htoNat
      simp only [UInt64.toNat_zero] at htoNat
      omega
    · intro _ version merged heq
      cases heq
    · intro _ heq
      cases heq
  | startFails _ | snapshotClosed _ _ => exact h.outside rfl id
  | snapshot hloc hsnapshot => exact h.snapshot hloc hsnapshot
  | apply hloc => exact h.apply hloc
  | applyFails _ => exact h.outside rfl id
  | wake hloc _ =>
    have hlooping : s.loc.Looping := hloc ▸ trivial
    refine ⟨h.version, fun _ => h.served hlooping.serving,
      fun hchanges _ => h.applied hchanges hlooping, ?_, ?_⟩
    · intro _ version merged heq
      cases heq
    · intro _ heq
      cases heq
  | sessionClosed _ _ | done _ _ => exact h.outside rfl id
  | decode _ _ => exact h.touched s.client.touched_self rfl rfl (sent_setSession rfl)
  | skip _ _ => exact h
  | callback _ =>
    exact h.touched (s.client.touched_setInterfaces _) rfl rfl (sent_setSession rfl)
  | readEnds _ => exact h.touched s.client.touched_self rfl rfl (sent_setSession rfl)

theorem Inv.reach (h : Inv s) (hreach : Reach s s') : Inv s' := by
  induction hreach with
  | refl => exact h
  | tail _ hstep ih =>
    obtain ⟨p, hp⟩ := hstep
    exact ih.step hp

/-! ## No update is lost -/

/-- The loop of `serveConn` waits, and nothing that it waits for is there. -/
structure Blocked (s : State) : Prop where
  loc : s.loc = .select
  wake : s.client.wake = false
  opened : (s.sessions s.current).closed = false
  running : s.client.closed = false

/-- While the loop of `serveConn` waits and the interfaces are known, the daemon has been sent what
    there is.  What it is sent depends on the rulesets only, not on an order of the map. -/
theorem no_update_lost :
    (∀ s, Reach State.initial s → s.client.changes < 2 ^ 64 → Blocked s →
      s.client.interfacesKnown = true →
      (s.sessions s.current).sent.head? =
        some (mutationFor (mergeTMPRulesets s.client.rulesets s.client.interfaceNames))) ∧
    ∀ (rs : Rulesets) (interfaces : List String) (m : MergedTMPRuleset),
      mergeTMPRulesets rs interfaces = some m →
      Merges rs interfaces m ∧
        ∀ rs' : Rulesets, rs.entries.Perm rs'.entries → mergeTMPRulesets rs' interfaces = some m := by
  refine ⟨fun s hreach hchanges hblocked hknown => ?_, fun rs interfaces m hmerge => ?_⟩
  · have hinv := inv_initial.reach hreach
    have hlooping : s.loc.Looping := hblocked.loc ▸ trivial
    have hversion := hinv.selecting hchanges hblocked.loc hblocked.wake hknown
    exact (hinv.applied hchanges hlooping).2 hversion
  · refine ⟨merges_mergeTMPRulesets hmerge, fun rs' hperm => ?_⟩
    rw [← mergeTMPRulesets_perm hperm]
    exact hmerge

/-- One ruleset, and a daemon that reports one interface. -/
theorem no_update_lost_sample :
    ∃ s, Reach State.initial s ∧ Blocked s ∧
      (s.sessions s.current).sent.head? =
        some (.set ["eth0"] { AllowRules.zero with allowedPorts := ["udp/53"] }) := by
  have hcreate : Reach State.initial _ := .tail .refl
    ⟨_, .create State.initial { AllowRules.zero with allowedPorts := ["udp/53"] }⟩
  have hserve := ((hcreate.tail ⟨_, .dial rfl⟩).tail ⟨_, .serve rfl⟩).tail ⟨_, .start rfl⟩
  have hheard : handleMessage (.config (some [⟨"eth0"⟩])) = some [⟨"eth0"⟩] := rfl
  have hlearn := (hserve.tail ⟨.decode 1, .decode rfl hheard⟩).tail ⟨.callback 1, .callback rfl⟩
  have happly := (hlearn.tail ⟨_, .snapshot rfl rfl⟩).tail ⟨_, .apply rfl⟩
  have hwait := (happly.tail ⟨_, .wake rfl rfl⟩).tail ⟨_, .snapshot rfl rfl⟩
  exact ⟨_, hwait, ⟨rfl, rfl, rfl, rfl⟩,
    no_update_lost.1 _ hwait (by decide) ⟨rfl, rfl, rfl, rfl⟩ rfl⟩

end SysnetLinux.Killswitch
