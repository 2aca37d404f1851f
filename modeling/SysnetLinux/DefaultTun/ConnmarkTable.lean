/-
  SysnetLinux.DefaultTun.ConnmarkTable

  The connmark table and the default TUN that it belongs to.

  Between calls a table of this `System` belongs to an active default TUN with `connmarkSet`, or
  the call that failed to delete it has returned the error (`table_follows_default_tun`).  Left
  out is one kind of histories: an optional `Apply` that fails before it has deleted the old table
  is skipped, and the rebuild records no table (`skippedApply`).
-/

import SysnetLinux.DefaultTun.Built
import SysnetLinux.DefaultTun.Stages

namespace SysnetLinux.DefaultTun

open Connmark CallProg CallProg.Prog List

/-! ## The store -/

/-- The store as far as the connmark table goes: whether it is there, whether this `System`
    has installed it, and whether a release has failed since it was installed or deleted. -/
structure NftStore where
  table : Bool
  ours : Bool
  leftBehind : Bool
  deriving DecidableEq

def NftStore.message (w : NftStore) : Message → NftStore
  | .addTable t => if t = connmarkTable then ⟨true, true, false⟩ else w
  | .delTable t => if t = connmarkTable then ⟨false, false, false⟩ else w
  | .addChain _ _ _ => w
  | .addRule _ _ _ => w

/-- A flush applies its batch; lists and flushes may fail without effect. -/
def nftStore (use : ConnmarkUse) : Handler NftCall NftReply CallError NftStore
  | .listTablesOfFamily .inet, w, .ok (tables : List Table), w' =>
    (connmarkTable ∈ tables ↔ w.table = true) ∧ w' = w
  | .listTablesOfFamily _, w, .ok _, w' => w' = w
  | .flush batch, w, .ok _, w' => w' = batch.foldl NftStore.message w
  | _, w, .error _, w' => w' = { w with leftBehind := w.leftBehind || use == .releasing }

def nftables : Handler HostCall HostReply CallError NftStore
  | .connmark use c, w, r, w' => nftStore use c w r w'
  | _, w, _, w' => w' = w

/-- The calls with which `Apply` deletes the old table. -/
def HostCall.deletesOld : HostCall → Bool
  | .connmark .applying (.listTablesOfFamily _) => true
  | .connmark .applying (.flush batch) => batch == [.delTable connmarkTable]
  | _ => false

/-- An `Apply` that fails at this call is skipped, with the old table in place. -/
def SkipsTable (s : HostSettings) (c : HostCall) (w : NftStore) : Prop :=
  c.deletesOld = true ∧ s.connmarkRequired = false ∧ w.table = true ∧ w.ours = true
  deriving Decidable

/-- The store in histories in which no table is forgotten. -/
abbrev remembering (s : HostSettings) : Handler HostCall HostReply CallError NftStore :=
  restrict nftables (SkipsTable s)

theorem remembering_spares (s : HostSettings) (kind : CallKind) (h : (kind != .connmark) = true) :
    Spares (remembering s) kind := by
  rintro c rfl w r w' ⟨hr, -⟩
  cases c with
  | connmark => cases h
  | _ => exact hr

/-! ## The manager over the store -/

theorem foldl_message_idle {w : NftStore} {batch : List Message}
    (h : ∀ msg ∈ batch, w.message msg = w) : batch.foldl NftStore.message w = w := by
  induction batch with
  | nil => rfl
  | cons msg batch ih =>
    rw [foldl_cons, h msg mem_cons_self]
    exact ih fun msg' hmsg' => h msg' (mem_cons_of_mem msg hmsg')

theorem foldl_installBatch (marks : List Mark) (w : NftStore) :
    (installBatch marks).foldl NftStore.message w = ⟨true, true, false⟩ := by
  rw [installBatch, foldl_append]
  refine foldl_message_idle fun msg hmsg => ?_
  obtain ⟨mark, -, hmsg⟩ := mem_flatMap.mp hmsg
  simp only [mem_cons, not_mem_nil, or_false] at hmsg
  rcases hmsg with rfl | rfl
  · rfl
  · rfl

section Manager

variable {s : HostSettings} {use : ConnmarkUse} {w : NftStore} {mgr : Manager}
  {Q : Option (Connmark.Error CallError) → NftStore → Prop}

/-- The store as the manager sees it. -/
abbrev seen (s : HostSettings) (use : ConnmarkUse) :
    Handler NftCall NftReply CallError NftStore :=
  pull (HostCall.connmark use) (fun _ r => r) (remembering s)

/-- A rollback that fails keeps the store, and a release tells of it. -/
theorem wp_rollback (hconn : mgr.conn = false → Q none w) (habsent : w.table = false → Q none w)
    (hdeleted : Q none ⟨false, false, false⟩)
    (herr : ∀ e, (use = .applying → s.connmarkRequired = false → w.table = true →
      w.ours = false) → Q (some e) { w with leftBehind := w.leftBehind || use == .releasing }) :
    wp (seen s use) Any Q mgr.rollback w := by
  unfold Manager.rollback
  split
  · rename_i hnone
    exact hconn (by simpa using hnone)
  refine ⟨trivial, fun r w' hr => ?_⟩
  obtain ⟨r, ⟨hr, hskips⟩, rfl⟩ := hr
  match r with
  | .error e =>
    obtain rfl := show w' = _ from hr
    refine herr _ fun huse hoptional htable => ?_
    cases hours : w.ours with
    | false => rfl
    | true =>
      subst huse
      exact absurd ⟨rfl, hoptional, htable, hours⟩ (hskips rfl)
  | .ok (tables : List Table) =>
    obtain ⟨hlisted, rfl⟩ := hr
    simp only
    split
    · refine ⟨trivial, fun r w'' hr => ?_⟩
      obtain ⟨r, ⟨hr, hskips⟩, rfl⟩ := hr
      cases r with
      | ok v =>
        obtain rfl := show w'' = _ from hr
        exact hdeleted
      | error e =>
        obtain rfl := show w'' = _ from hr
        refine herr _ fun huse hoptional htable => ?_
        cases hours : w'.ours with
        | false => rfl
        | true =>
          subst huse
          exact absurd ⟨rfl, hoptional, htable, hours⟩ (hskips rfl)
    · rename_i hnot
      exact habsent (by simpa [hnot] using hlisted)

/-- The manager has a connection, and marks that it accepts. -/
def Usable (mgr : Manager) (marks : List Mark) : Prop :=
  mgr.conn = true ∧ ∃ out, normalizeMarks (E := CallError) marks = .ok out

/-- `Apply` installs the table or fails; it fails with the store unchanged or with no table
    in it. -/
theorem wp_apply {marks : List Mark} (hinert : ¬ Usable mgr marks → ∀ e, Q (some e) w)
    (hrefused : ∀ e, (s.connmarkRequired = false → w.table = true → w.ours = false) → Q (some e) w)
    (hfailed : ∀ e w', w'.table = false → (w' = w ∨ w' = ⟨false, false, false⟩) → Q (some e) w')
    (hempty : ∀ w', w'.table = false → (w' = w ∨ w' = ⟨false, false, false⟩) → Q none w')
    (hdone : Usable mgr marks → Q none ⟨true, true, false⟩) :
    wp (seen s .applying) Any Q (mgr.apply marks) w := by
  have hsame : ∀ u : NftStore,
      { u with leftBehind := u.leftBehind || ConnmarkUse.applying == .releasing } = u := by
    rintro ⟨table, ours, leftBehind⟩
    cases leftBehind with
    | true | false => rfl
  unfold Manager.apply
  split
  · rename_i hconn
    exact hinert (fun h => by simp [h.1] at hconn) _
  rename_i hconn
  have hconn : mgr.conn = true := by simpa using hconn
  split
  · rename_i hmarks
    refine hinert (fun h => ?_) _
    obtain ⟨-, out, hout⟩ := h
    cases hmarks.symm.trans hout
  rename_i out hout
  rw [wp_bind]
  -- The first rollback fails with the store unchanged, or there is no table behind it.
  refine wp_post (fun err u hu => ?_) (wp_rollback (Q := fun err u =>
    (err = none ∧ u.table = false ∧ (u = w ∨ u = ⟨false, false, false⟩)) ∨ (err.isSome = true ∧ u = w ∧
      (s.connmarkRequired = false → w.table = true → w.ours = false)))
    (fun hnone => absurd (hnone.symm.trans hconn) Bool.false_ne_true)
    (fun h => .inl ⟨rfl, h, .inl rfl⟩)
    (.inl ⟨rfl, rfl, .inr rfl⟩) fun e hkept => .inr ⟨rfl, hsame w, hkept rfl⟩)
  rcases hu with ⟨rfl, hu, hcases⟩ | ⟨hsome, rfl, hkept⟩
  · simp only
    split
    · exact hempty u hu hcases
    refine ⟨trivial, fun r u' hr => ?_⟩
    obtain ⟨r, ⟨hr, -⟩, rfl⟩ := hr
    cases r with
    | ok v =>
      obtain rfl : u' = ⟨true, true, false⟩ :=
        (show u' = _ from hr).trans (foldl_installBatch out u)
      exact hdone ⟨hconn, out, hout⟩
    | error e =>
      obtain rfl : u' = u := (show u' = _ from hr).trans (hsame u)
      simp only
      rw [wp_bind]
      refine wp_rollback (fun _ => hfailed _ _ hu hcases) (fun _ => hfailed _ _ hu hcases)
        (hfailed _ _ rfl (.inr rfl)) fun e _ => ?_
      rw [hsame]
      exact hfailed _ _ hu hcases
  · obtain ⟨e, rfl⟩ := Option.isSome_iff_exists.mp hsome
    exact hrefused e hkept

end Manager

/-! ## Releases -/

/-- The `System` can install the table. -/
def Installable (s : HostSettings) : Prop :=
  ∃ mgr, s.connmark = some mgr ∧ Usable mgr s.connmarkMarks

/-- Behind the releases of a default TUN: a table that is left is left by one that failed,
    and that error is among the `errs`. -/
structure Unmarked (s : HostSettings) (w : NftStore) (errs : List HostError) (w' : NftStore) :
    Prop where
  usable : w'.ours = true → Installable s
  left : w'.table = true → w'.ours = true → w'.leftBehind = true
  told : errs = [] → w'.leftBehind = true → w.leftBehind = true

section Releases

variable {s : HostSettings} {w w' : NftStore} {d : DefaultTunState}

theorem joined_eq_none {errs : List HostError} (h : joined errs = none) : errs = [] := by
  cases errs with
  | nil => rfl
  | cons e errs => exact absurd h nofun

theorem Unmarked.append {errs : List HostError} (h : Unmarked s w errs w')
    (es₁ es₂ : List HostError) : Unmarked s w (es₁ ++ errs ++ es₂) w' :=
  ⟨h.usable, h.left, fun hnil => h.told (by simp_all)⟩

/-- A release that returns nil leaves no table of this `System`. -/
theorem unmarked_rollbackConnmark (husable : w.ours = true → Installable s) : wp (remembering s) Any
      (fun errs w' => Unmarked s w errs w' ∧ (errs = [] → w'.table = true → w'.ours = false))
      s.rollbackConnmark w := by
  have hkept : (w.table = true → w.ours = true → False) →
      Unmarked s w [] w ∧ (([] : List HostError) = [] → w.table = true → w.ours = false) := by
    intro hnone
    refine ⟨⟨husable, fun htable hours => absurd (hnone htable hours) not_false, fun _ => id⟩,
      fun _ htable => ?_⟩
    cases hours : w.ours with
    | false => rfl
    | true => exact absurd (hnone htable hours) not_false
  unfold HostSettings.rollbackConnmark
  cases hsome : s.connmark with
  | none =>
    refine hkept fun _ hours => ?_
    obtain ⟨mgr, hmgr, -⟩ := husable hours
    exact absurd (hsome.symm.trans hmgr) nofun
  | some mgr =>
    show wp _ _ _ ((onConnmark .releasing mgr.rollback).bind _) w
    rw [wp_bind]
    refine wp_embed.mpr (wp_rollback (s := s) (fun hconn => ?_) (fun habsent => ?_) ?_ fun e _ => ?_)
    · refine hkept fun _ hours => ?_
      obtain ⟨mgr', hmgr, hconn', -⟩ := husable hours
      obtain rfl := Option.some.inj (hsome.symm.trans hmgr)
      exact absurd (hconn.symm.trans hconn') nofun
    · exact hkept fun htable => absurd (habsent.symm.trans htable) nofun
    · exact ⟨⟨nofun, nofun, nofun⟩, nofun⟩
    · refine ⟨⟨husable, fun _ _ => ?_, nofun⟩, nofun⟩
      simp

/-- `closeActive`, for a table that is recorded or that was left before. -/
theorem unmarked_closeActive (husable : w.ours = true → Installable s)
    (h : w.table = true → w.ours = true → d.connmarkSet = true ∨ w.leftBehind = true) :
    wp (remembering s) Any (fun errs w' => Unmarked s w errs w' ∧
        ((w.table = true → w.ours = true → d.connmarkSet = true) → errs = [] →
          w'.table = true → w'.ours = false))
      (s.closeActive d) w := by
  have hspares := remembering_spares s
  refine wp_collect_at (i := 5) rfl (fun p hp => ?_) ?_
  · simp only [List.eraseIdx, mem_cons, not_mem_nil, or_false] at hp
    rcases hp with rfl | rfl | rfl | rfl | rfl | rfl | rfl | rfl
    · exact issues_unregisterRules s (hspares .rules rfl) _
    · exact issues_ofSome fun server _ => issues_closeServer (hspares .server rfl) server
    · exact issues_releasing (hspares .dns rfl _ rfl)
    · exact issues_onlyIf (issues_clearDefaultTunDNSInterface s (hspares .dnsIndex rfl))
    · exact issues_ofSome fun _ _ => issues_releasing (hspares .routing rfl _ rfl)
    · exact issues_onlyIf (issues_releasing (hspares .killswitch rfl _ rfl))
    · exact issues_onlyIf (issues_releasing (hspares .checker rfl _ rfl))
    · exact issues_ofSome fun _ _ => issues_releasing (hspares .tun rfl _ rfl)
  cases hset : d.connmarkSet with
  | true =>
    refine wp_post (fun errs w' hw' es₁ es₂ => ?_) (unmarked_rollbackConnmark husable)
    exact ⟨hw'.1.append es₁ es₂, fun _ hnil => hw'.2 (by simp_all)⟩
  | false =>
    refine fun es₁ es₂ => ⟨⟨husable, fun htable hours => ?_, fun _ => id⟩,
      fun hrecorded _ htable => ?_⟩
    · exact (h htable hours).resolve_left (by simp [hset])
    · cases hours : w.ours with
      | false => rfl
      | true => exact absurd (hrecorded htable hours) nofun

end Releases

/-! ## Builds -/

/-- A build ahead of `applyConnmark`: a table belongs to the old state, or was left. -/
structure Unapplied (s : HostSettings) (left : Bool) (l : Build) (w : NftStore) : Prop where
  usable : w.ours = true → Installable s
  unset : l.connmarkSet = false
  table : w.table = true → w.ours = true → l.state.connmarkSet = true ∨ w.leftBehind = true
  told : w.leftBehind = true → left = true

/-- A build behind `applyConnmark`: a table is recorded. -/
structure MarkRecorded (s : HostSettings) (left : Bool) (l : Build) (w : NftStore) : Prop where
  usable : w.ours = true → Installable s
  table : w.table = true → w.ours = true → l.connmarkSet = true
  told : w.leftBehind = true → left = true

/-- A build that fails. -/
structure Unfinished (s : HostSettings) (f : Build × List HostError) (w : NftStore) : Prop where
  usable : w.ours = true → Installable s
  table : w.table = true → w.ours = true →
    f.1.connmarkSet = true ∨ f.1.state.connmarkSet = true ∨ w.leftBehind = true

section Build

variable {s : HostSettings} {left : Bool} {l l' : Build} {w : NftStore}

theorem Unapplied.of_eq (h : Unapplied s left l w) (hset : l'.connmarkSet = l.connmarkSet)
    (hstate : l'.state.connmarkSet = l.state.connmarkSet) : Unapplied s left l' w :=
  ⟨h.usable, hset.trans h.unset, by rw [hstate]; exact h.table, h.told⟩

theorem Unapplied.unfinished (h : Unapplied s left l w) (errs : List HostError) :
    Unfinished s (l, errs) w :=
  ⟨h.usable, fun htable hours => .inr (h.table htable hours)⟩

theorem MarkRecorded.unfinished (h : MarkRecorded s left l w) (errs : List HostError) :
    Unfinished s (l, errs) w :=
  ⟨h.usable, fun htable hours => .inl (h.table htable hours)⟩

theorem recorded_applyConnmark :
    Stage (remembering s) Any (Unapplied s left) s.applyConnmark (MarkRecorded s left)
      (Unfinished s) := by
  intro l w h
  unfold HostSettings.applyConnmark
  split
  · rename_i hnone
    refine ⟨h.usable, fun _ hours => ?_, h.told⟩
    obtain ⟨mgr, hmgr, -⟩ := h.usable hours
    exact absurd (hnone.symm.trans hmgr) nofun
  rename_i mgr hmgr
  rw [wp_bind]
  -- A table that is not there needs no record.
  have habsent : ∀ (w' : NftStore) (b : Bool), w'.table = false →
      (w' = w ∨ w' = ⟨false, false, false⟩) → MarkRecorded s left { l with connmarkSet := b } w' ∧
        Unfinished s (l, []) w' := by
    rintro w' b hno (rfl | rfl)
    · exact ⟨⟨h.usable, fun htable => absurd (hno.symm.trans htable) nofun, h.told⟩,
        h.usable, fun htable => absurd (hno.symm.trans htable) nofun⟩
    · exact ⟨⟨nofun, nofun, nofun⟩, nofun, nofun⟩
  -- With connmark optional the build goes on after an error.
  have hskip : ∀ e w', Unfinished s (l, []) w' → (s.connmarkRequired = false →
      MarkRecorded s left { l with connmarkSet := false } w') →
      wp (remembering s) Any (ends (MarkRecorded s left) (Unfinished s))
        (if s.connmarkRequired then Prog.ret (.error (l, [HostError.connmark e]))
          else .ret (.ok { l with connmarkSet := false })) w' := by
    intro e w' herr hok
    split
    · exact ⟨herr.usable, herr.table⟩
    · rename_i hoptional
      exact hok (by simpa using hoptional)
  refine wp_embed.mpr (wp_apply (s := s) (fun hinert e => ?_) (fun e hkept => ?_)
    (fun e w' hno hcases => ?_) (fun w' hno hcases => ?_) fun husable => ?_)
  · -- Nothing can have been installed.
    have hours : w.ours = true → False := by
      intro hours
      obtain ⟨mgr', hmgr', husable⟩ := h.usable hours
      exact hinert (Option.some.inj (hmgr.symm.trans hmgr') ▸ husable)
    exact hskip e w (h.unfinished []) fun _ =>
      ⟨h.usable, fun _ h' => absurd (hours h') not_false, h.told⟩
  · refine hskip e w (h.unfinished []) fun hoptional => ⟨h.usable, fun htable hours => ?_, h.told⟩
    exact absurd ((hkept hoptional htable).symm.trans hours) nofun
  · exact hskip e w' (habsent w' false hno hcases).2 fun _ => (habsent w' false hno hcases).1
  · exact (habsent w' true hno hcases).1
  · exact ⟨fun _ => ⟨mgr, hmgr, husable⟩, fun _ _ => rfl, nofun⟩

theorem recorded_stages : Stage (remembering s) Any (Unapplied s left) (inTurn s.stages)
      (MarkRecorded s left) (Unfinished s) := by
  have hspares := remembering_spares s
  rw [← take_append_drop 10 s.stages]
  refine Stage.append (Q := Unapplied s left) (Stage.all fun stage hstage => ?_)
    (Stage.cons recorded_applyConnmark (Stage.all fun stage hstage => ?_))
  · simp only [HostSettings.stages, List.take, mem_cons, not_mem_nil, or_false] at hstage
    rcases hstage with rfl | rfl | rfl | rfl | rfl | rfl | rfl | rfl | rfl | rfl
    · exact fun l w h => idle_step (hspares .link rfl _ rfl) h h.unfinished
    · exact fun l w h => idle_step (hspares .link rfl _ rfl) h h.unfinished
    · exact fun l w h => idle_step (hspares .link rfl _ rfl) h h.unfinished
    · exact fun l w h => idle_closeOldServer (hspares .server rfl) h (h.of_eq rfl rfl) h.unfinished
    · exact fun l w h => idle_listenDNS (hspares .server rfl) h (fun _ => h.of_eq rfl rfl)
        h.unfinished
    · exact fun l w h => idle_compileRules (hspares .rules rfl)
        (fun _ _ _ _ => h.of_eq rfl rfl) (fun _ => h) h.unfinished
    · exact fun l w h => idle_installChecker (hspares .checker rfl) h
        (fun _ => h.of_eq rfl rfl) h.unfinished fun errs =>
          ⟨h.usable, (h.unfinished errs).table⟩
    · exact fun l w h => idle_readIndex (hspares .index rfl) (fun _ => h.of_eq rfl rfl) h.unfinished
    · exact fun l w h => idle_setDefaultTunDNSInterface (hspares .dnsIndex rfl) h
        (h.of_eq rfl rfl) h.unfinished
    · exact fun l w h => idle_applyRouting (hspares .routing rfl) (h.of_eq rfl rfl) h.unfinished
  · simp only [mem_cons, not_mem_nil, or_false] at hstage
    rcases hstage with rfl | rfl
    · exact fun l w h => idle_step (hspares .dns rfl _ rfl) h h.unfinished
    · exact fun l w h => idle_updateKillswitch (hspares .killswitch rfl) h
        (fun _ => ⟨h.usable, h.table, h.told⟩) h.unfinished

theorem unmarked_fail {f : Build × List HostError} (h : Unfinished s f w) : wp (remembering s) Any
      (fun _ w' => (w'.ours = true → Installable s) ∧
        (w'.table = true → w'.ours = true → w'.leftBehind = true)) (s.fail f.1 f.2) w := by
  have hspares := remembering_spares s
  unfold HostSettings.fail
  rw [wp_bind]
  refine wp_collect_idle (issues_onlyIf (issues_releasing (hspares .tun rfl _ rfl)))
    fun _ => wp_collect_idle (issues_unregisterRules s (hspares .rules rfl) _)
    fun _ => wp_collect_idle (issues_onlyIf (issues_ofSome fun server _ =>
      issues_closeServer (hspares .server rfl) server))
    fun _ => wp_collect_idle (issues_onlyIf (issues_releasing (hspares .checker rfl _ rfl)))
    fun _ => wp_collect_cons ?_
  -- The table of the build goes first, then the one that the old state has recorded.
  have hown : wp (remembering s) Any
      (fun _ w' => (w'.ours = true → Installable s) ∧ (w'.table = true → w'.ours = true →
        f.1.state.connmarkSet = true ∨ w'.leftBehind = true))
      (onlyIf f.1.connmarkSet s.rollbackConnmark) w := by
    cases hset : f.1.connmarkSet with
    | true =>
      refine wp_post (fun _ w' hw' => ?_) (unmarked_rollbackConnmark h.usable)
      exact ⟨hw'.1.usable, fun htable hours => .inr (hw'.1.left htable hours)⟩
    | false =>
      refine ⟨h.usable, fun htable hours => ?_⟩
      exact (h.table htable hours).resolve_left (by simp [hset])
  refine wp_post (fun _ w' hw' => ?_) hown
  refine wp_collect_idle (issues_quietly (hspares .registry rfl _ rfl))
    fun _ => wp_collect_cons (wp_post (fun _ w'' hw'' => wp_collect_nil ?_)
      (unmarked_closeActive (d := f.1.failedState) hw'.1 hw'.2))
  exact ⟨hw''.1.usable, hw''.1.left⟩

end Build

/-! ## Operations -/

/-- The table between calls. -/
structure TableOwned (s : HostSettings) (m : Memory) (w : NftStore) : Prop where
  usable : w.ours = true → Installable s
  table : w.table = true → w.ours = true →
    (∃ d, m.defaultTun = some d ∧ d.connmarkSet = true) ∨
      (m.defaultTun = none ∧ w.leftBehind = true)

section Operations

variable {s : HostSettings} {m : Memory} {w : NftStore} {d : DefaultTunState}

/-- The table of an active default TUN is recorded. -/
theorem TableOwned.recorded (h : TableOwned s m w) (hd : m.defaultTun = some d)
    (htable : w.table = true) (hours : w.ours = true) : d.connmarkSet = true := by
  rcases h.table htable hours with ⟨d', hd', hset⟩ | ⟨hnone, -⟩
  · exact Option.some.inj (hd'.symm.trans hd) ▸ hset
  · exact absurd (hnone.symm.trans hd) nofun

/-- A build keeps the table with the default TUN, and one that succeeds leaves none. -/
theorem tableOwned_buildOn {l : Build} (h : Unapplied s w.leftBehind l w) (m : Memory) :
    wp (remembering s) Any (fun out w' => TableOwned s out.1 w' ∧
        (out.2 = none → w'.leftBehind = true → w.leftBehind = true))
      (s.buildOn m l) w := by
  have hspares := remembering_spares s
  unfold HostSettings.buildOn
  rw [wp_bind]
  refine wp_post (fun r w' hr => ?_) (recorded_stages l w h)
  cases r with
  | error failed =>
    simp only
    rw [wp_bind]
    refine wp_post (fun _ w'' hw'' => ⟨⟨hw''.1, fun htable hours => ?_⟩, nofun⟩) (unmarked_fail hr)
    exact .inr ⟨rfl, hw''.2 htable hours⟩
  | ok l' =>
    refine wp_bind_idle (issues_releaseReplaced (hspares .registry rfl) (hspares .tun rfl)
      (hspares .rules rfl) (hspares .server rfl) s l') fun _ => ?_
    exact ⟨⟨hr.usable, fun htable hours => .inl ⟨_, rfl, hr.table htable hours⟩⟩, fun _ => hr.told⟩

theorem tableOwned_close (h : TableOwned s m w) {handle : Nat} (howned : m.owned handle = some d) :
    wp (remembering s) Any (fun out w' => (TableOwned s out.1 w' ∧
        (out.2 = none → w'.leftBehind = true → w.leftBehind = true)) ∧
        (out.2 = none → w'.table = true → w'.ours = false))
      (s.closeDefaultTun m handle) w := by
  have hspares := remembering_spares s
  obtain ⟨hd, -⟩ := Option.filter_eq_some_iff.mp howned
  have hrecorded : w.table = true → w.ours = true → d.connmarkSet = true := h.recorded hd
  unfold HostSettings.closeDefaultTun
  simp only [howned]
  rw [wp_bind]
  refine wp_collect_at (i := 1) rfl (fun p hp => ?_) (wp_post (fun errs w' hw' es₁ es₂ => ?_)
    (unmarked_closeActive h.usable fun htable hours => .inl (hrecorded htable hours)))
  · simp only [List.eraseIdx, mem_singleton] at hp
    exact hp ▸ issues_quietly (hspares .registry rfl _ rfl)
  have hnil : joined (es₁ ++ errs ++ es₂) = none → errs = [] := by
    intro hnone
    have hall := joined_eq_none hnone
    simp only [append_eq_nil_iff] at hall
    exact hall.1.2
  exact ⟨⟨⟨hw'.1.usable, fun htable hours => .inr ⟨rfl, hw'.1.left htable hours⟩⟩,
    fun hnone => hw'.1.told (hnil hnone)⟩, fun hnone => hw'.2 hrecorded (hnil hnone)⟩

/-- Every operation keeps the table with the default TUN, and one that returns nil leaves
    none behind. -/
theorem tableOwned_perform (h : TableOwned s m w) (op : HostOp) : wp (remembering s) Any
      (fun out w' => TableOwned s out.1 w' ∧
        (out.2 = none → w'.leftBehind = true → w.leftBehind = true))
      (s.perform m op) w := by
  have hspares := remembering_spares s
  have hstays : ∀ e : Option Failure, TableOwned s m w ∧
      (e = none → w.leftBehind = true → w.leftBehind = true) := fun _ => ⟨h, fun _ => id⟩
  have hstart : ∀ {d : DefaultTunState} (input t old recreated), m.defaultTun = some d →
      Unapplied s w.leftBehind (.start input d t old recreated) w := fun _ _ _ _ hd =>
    ⟨h.usable, rfl, fun htable hours => .inl (h.recorded hd htable hours), id⟩
  cases op with
  | build opts activeName =>
    refine idle_buildDefaultTun (hspares .tun rfl) (hspares .index rfl)
      (hspares .registry rfl) (fun e => hstays (some e)) ?_ ?_ ?_
    · intro input t _ _ hnone
      refine tableOwned_buildOn ⟨h.usable, rfl, fun htable hours => ?_, id⟩ _
      rcases h.table htable hours with ⟨d, hd, -⟩ | ⟨-, hleft⟩
      · exact absurd (hnone.symm.trans hd) nofun
      · exact .inr hleft
    · exact fun input d t _ _ hd _ => tableOwned_buildOn (hstart _ _ _ _ hd) _
    · exact fun input d t _ _ hd => tableOwned_buildOn (hstart _ _ _ _ hd) _
  | update handle u =>
    refine wp_updateDefaultTun (fun _ => hstays _) fun d t howned _ => ?_
    refine wp_of_idle (issues_onTun (hspares .link rfl) (hspares .routing rfl)
      _ _) (yields_of_forall (fun out => ⟨⟨h.usable, fun htable hours => ?_⟩, fun _ => id⟩) _)
    have hset : d.connmarkSet = true := h.recorded (Memory.owned_some howned).1 htable hours
    exact .inl ⟨_, rfl, hset⟩
  | setDNS handle resolver =>
    refine idle_setDNS (hspares .server rfl) hstays fun d hd => ⟨⟨h.usable, ?_⟩, fun _ => id⟩
    intro htable hours
    have hset : d.connmarkSet = true := h.recorded hd htable hours
    exact .inl ⟨_, rfl, hset⟩
  | close handle =>
    show wp _ _ _ (s.closeDefaultTun m handle) w
    cases howned : m.owned handle with
    | none =>
      unfold HostSettings.closeDefaultTun
      simp only [howned]
      exact hstays _
    | some d => exact wp_post (fun _ _ hdone => hdone.1) (tableOwned_close h howned)
  | closeSystem =>
    have hactive : wp (remembering s) Any (Unmarked s w) (ofSome s.closeActive m.defaultTun) w := by
      cases hd : m.defaultTun with
      | none =>
        refine ⟨h.usable, fun htable hours => ?_, fun _ => id⟩
        rcases h.table htable hours with ⟨d, hd', -⟩ | ⟨-, hleft⟩
        · exact absurd (hd.symm.trans hd') nofun
        · exact hleft
      | some d =>
        exact wp_post (fun _ _ hdone => hdone.1) (unmarked_closeActive h.usable
          fun htable hours => .inl (h.recorded hd htable hours))
    refine wp_closeSystem (hspares .registry rfl) (hspares .component rfl) (hspares .tun rfl)
      (hstays _) (wp_post (fun errs w' hw' es₁ es₂ => ?_) hactive)
    have hall := hw'.append es₁ es₂
    exact ⟨⟨hall.usable, fun htable hours => .inr ⟨rfl, hall.left htable hours⟩⟩,
      fun hnone => hall.told (joined_eq_none hnone)⟩

end Operations

/-! ## Histories -/

/-- No `Apply` was skipped with the old table in place. -/
def RemembersTable (s : HostSettings) (tr : List (Event HostCall NftStore)) : Prop :=
  ∀ ev ∈ tr, ev.failed = true → ¬ SkipsTable s ev.call ev.before
  deriving Decidable

/-- An operation of a history, whose calls went as `G` says. -/
def TableStep (s : HostSettings) (G : List (Event HostCall NftStore) → Prop)
    (x y : Memory × NftStore) : Prop :=
  ∃ op tr err, G tr ∧ Exec nftables (s.perform x.1 op) x.2 tr (y.1, err) y.2

/-- A store in which a table, if there is one, is not of this `System`. -/
def NftStore.foreign (table : Bool) : NftStore := ⟨table, false, false⟩

theorem tableOwned_reached {s : HostSettings} {table : Bool} {x : Memory × NftStore}
    (h : Relation.ReflTransGen (TableStep s (RemembersTable s)) (.initial, .foreign table) x) :
    TableOwned s x.1 x.2 := by
  induction h with
  | refl => exact ⟨nofun, fun _ => nofun⟩
  | tail _ hlast ih =>
    obtain ⟨op, tr, err, hremembers, hex⟩ := hlast
    exact (wp_sound (hex.restrict hremembers) (tableOwned_perform ih op)).2.1

/-- In every state between the calls of a history in which no table is forgotten: a table that this
    `System` has installed belongs to an active default TUN with `connmarkSet`, or no default TUN is
    active and a release has failed to delete it.  A call that returns nil has no such release, and
    a `Close` of the active default TUN that returns nil leaves no table of this `System`. -/
theorem table_follows_default_tun (s : HostSettings) {table : Bool} {x : Memory × NftStore}
    (hx : Relation.ReflTransGen (TableStep s (RemembersTable s)) (.initial, .foreign table) x) :
    (x.2.table = true → x.2.ours = true →
      (∃ d, x.1.defaultTun = some d ∧ d.connmarkSet = true) ∨
        (x.1.defaultTun = none ∧ x.2.leftBehind = true)) ∧
      ∀ op tr m w, RemembersTable s tr → Exec nftables (s.perform x.1 op) x.2 tr (m, none) w →
        (w.leftBehind = true → x.2.leftBehind = true) ∧
          ∀ handle, op = .close handle → (x.1.owned handle).isSome = true →
            w.table = true → w.ours = false := by
  have howned := tableOwned_reached hx
  refine ⟨howned.table, fun op tr m w hremembers hex => ⟨?_, ?_⟩⟩
  · exact (wp_sound (hex.restrict hremembers) (tableOwned_perform howned op)).2.2 rfl
  · rintro handle rfl hsome
    obtain ⟨d, hd⟩ := Option.isSome_iff_exists.mp hsome
    exact (wp_sound (hex.restrict hremembers) (tableOwned_close howned hd)).2.2 rfl

/-! ## Runs on fixed inputs -/

/-- A call is answered well or fails. -/
def nftAnswer (c : HostCall) (fails : Bool) (w : NftStore) :
    Except CallError (HostReply c) × NftStore :=
  match fails, c with
  | false, .connmark _ (.listTablesOfFamily _) =>
    (.ok (if w.table then [connmarkTable] else [] : List Table), w)
  | false, .connmark _ (.flush batch) => (.ok (), batch.foldl NftStore.message w)
  | false, c => (.ok (c.goodReply 1), w)
  | true, .connmark use _ =>
    (.error (.tun "fault"), { w with leftBehind := w.leftBehind || use == .releasing })
  | true, _ => (.error (.tun "fault"), w)

theorem nftables_nftAnswer (c : HostCall) (fails : Bool) (w : NftStore) :
    nftables c w (nftAnswer c fails w).1 (nftAnswer c fails w).2 := by
  cases c with
  | connmark use c =>
    cases fails with
    | true =>
      cases c with
      | listTablesOfFamily family => cases family <;> rfl
      | flush batch => rfl
    | false =>
      cases c with
      | listTablesOfFamily family =>
        cases family with
        | inet =>
          refine ⟨?_, rfl⟩
          cases w.table with
          | true | false => simp
        | other => rfl
      | flush batch => rfl
  | _ =>
    cases fails with
    | true | false => rfl

/-- An operation whose calls go as the list says. -/
def nftOp (x : Memory × NftStore) (op : HostOp) (fails : List Bool) :
    List (Event HostCall NftStore) × HostOutcome × NftStore :=
  play nftAnswer false (sampleHost.perform x.1 op) fails x.2

theorem exec_nftOp (x : Memory × NftStore) (op : HostOp) (fails : List Bool) :
    Exec nftables (sampleHost.perform x.1 op) x.2 (nftOp x op fails).1
      ((nftOp x op fails).2.1.1, (nftOp x op fails).2.1.2) (nftOp x op fails).2.2 :=
  play_exec nftables_nftAnswer _ fails x.2

variable {G : List (Event HostCall NftStore) → Prop}

theorem tableStep_nftOp (x : Memory × NftStore) (op : HostOp) (fails : List Bool)
    (hG : G (nftOp x op fails).1) :
    TableStep sampleHost G x ((nftOp x op fails).2.1.1, (nftOp x op fails).2.2) :=
  ⟨op, _, _, hG, exec_nftOp x op fails⟩

/-- The state behind a first build. -/
def nftBuilt : Memory × NftStore :=
  ((nftOp (.initial, .foreign false) (.build dualOpts "") []).2.1.1,
    (nftOp (.initial, .foreign false) (.build dualOpts "") []).2.2)

theorem reach_nftBuilt (hG : G (nftOp (.initial, .foreign false) (.build dualOpts "") []).1) :
    Relation.ReflTransGen (TableStep sampleHost G) (.initial, .foreign false) nftBuilt :=
  .single (tableStep_nftOp _ _ _ hG)

theorem table_follows_default_tun_sample :
    (nftBuilt.2.table = true ∧ nftBuilt.2.ours = true) ∧
      (∃ d, nftBuilt.1.defaultTun = some d ∧ d.connmarkSet = true) ∧
      ((nftOp nftBuilt (.close 1) []).2.2.table = true →
        (nftOp nftBuilt (.close 1) []).2.2.ours = false) := by
  have hnil : (nftOp nftBuilt (.close 1) []).2.1.2 = none := by decide +kernel
  have hexec := exec_nftOp nftBuilt (.close 1) []
  rw [hnil] at hexec
  obtain ⟨hstate, hcalls⟩ :=
    table_follows_default_tun sampleHost (reach_nftBuilt (by decide +kernel))
  refine ⟨by decide +kernel, ?_, (hcalls _ _ _ _ (by decide +kernel) hexec).2 1 rfl
    (by decide +kernel)⟩
  exact (hstate (by decide +kernel) (by decide +kernel)).resolve_right
    fun hleft => absurd hleft.2 (by decide +kernel)

/-- A `Close` whose connmark rollback cannot list the tables. -/
def failedClose : Memory × NftStore :=
  ((nftOp nftBuilt (.close 1) (List.replicate 6 false ++ [true])).2.1.1,
    (nftOp nftBuilt (.close 1) (List.replicate 6 false ++ [true])).2.2)

/-- The table outlives the default TUN; the `Close` has returned the error. -/
theorem failed_close_leaves_table :
    Relation.ReflTransGen (TableStep sampleHost fun _ => True) (.initial, .foreign false)
        failedClose ∧
      ¬ (failedClose.2.table = true → failedClose.2.ours = true →
        ∃ d, failedClose.1.defaultTun = some d ∧ d.connmarkSet = true) := by
  refine ⟨.tail (reach_nftBuilt trivial) (tableStep_nftOp nftBuilt _ _ trivial), fun h => ?_⟩
  obtain ⟨d, hd, -⟩ := h (by decide +kernel) (by decide +kernel)
  have hnone : failedClose.1.defaultTun = none := by decide +kernel
  exact absurd (hnone.symm.trans hd) nofun

/-- A rebuild, with connmark optional, whose `Apply` cannot list the tables. -/
def skippedApply : Memory × NftStore :=
  ((nftOp nftBuilt (.build dualOpts "") (List.replicate 9 false ++ [true])).2.1.1,
    (nftOp nftBuilt (.build dualOpts "") (List.replicate 9 false ++ [true])).2.2)

-- The rebuild records no table; `Close` then returns nil and leaves the table.
example : (nftOp skippedApply (.close 1) []).2 =
    (({ skippedApply.1 with defaultTun := none }, none), ⟨true, true, false⟩) := by
  decide +kernel

end SysnetLinux.DefaultTun
