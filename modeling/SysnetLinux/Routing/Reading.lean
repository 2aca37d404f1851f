/-
  SysnetLinux.Routing.Reading

  What an operation reads of the main table while others change it.

  The manager's lock keeps other operations out, not the kernel.  `reader` follows a program
  through whatever its calls are answered with and notes the listings of the main table.  A state
  that an operation leaves applied is compiled from the listings it noted, one for each policy
  family.
-/

import SysnetLinux.Routing.Frame

namespace SysnetLinux.Routing

open CallProg CallProg.Prog List

/-! ## Listings of the main table -/

/-- The listings of the main table an operation was answered with, and their families. -/
abbrev Reads := List (Int × List Route)

/-- A listing shows routes of its family and table. -/
def Plausible : (c : AdapterCall) → Except AdapterError (Reply c) → Prop
  | .listRoutes family table, .ok routes =>
    ∀ a ∈ (show List Route from routes), a.family = family ∧ a.table = table
  | _, _ => True

def note : (c : AdapterCall) → Except AdapterError (Reply c) → Reads → Reads
  | .listRoutes family table, .ok routes, reads =>
    if table = rtTableMain then reads ++ [(family, (show List Route from routes))] else reads
  | _, _, reads => reads

/-- The call changes no route of the main table. -/
def AdapterCall.SparesMain : AdapterCall → Prop
  | .replaceRoute route => route.table ≠ rtTableMain
  | .deleteRoute route => route.table ≠ rtTableMain
  | _ => True

def reader : Handler AdapterCall Reply AdapterError Reads :=
  fun c reads r reads' => Plausible c r ∧ reads' = note c r reads

theorem plausible_adapter {c : AdapterCall} {k k' : Kernel} {r : Except AdapterError (Reply c)}
    (h : adapter c k r k') : Plausible c r := by
  rcases h with ⟨rfl, -⟩ | ⟨e, rfl, -⟩
  · cases c with
    | listRoutes family table =>
      intro a ha
      simpa using (mem_filter.mp ha).2
    | _ => trivial
  · cases c <;> trivial

/-- A successful call, with its listing noted. -/
def Kernel.actNoting (c : AdapterCall) (s : Kernel × Reads) : Reply c × (Kernel × Reads) :=
  let done := Kernel.act c s.1
  (done.1, (done.2, note c (.ok done.1) s.2))

/-- The adapter over the kernel, with the listings of the main table noted. -/
abbrev noting : Handler AdapterCall Reply AdapterError (Kernel × Reads) :=
  faulty Kernel.actNoting

theorem noting_iff {c : AdapterCall} {s s' : Kernel × Reads} {r : Except AdapterError (Reply c)} :
    noting c s r s' ↔ adapter c s.1 r s'.1 ∧ s'.2 = note c r s.2 := by
  have hfailed : ∀ e : AdapterError, note c (.error e) s.2 = s.2 := by
    intro e
    cases c <;> rfl
  constructor
  · rintro (⟨rfl, rfl⟩ | ⟨e, rfl, rfl⟩)
    · exact ⟨faulty_ok c s.1, rfl⟩
    · exact ⟨faulty_error c s'.1 e, (hfailed e).symm⟩
  · rintro ⟨⟨rfl, hk⟩ | ⟨e, rfl, hk⟩, hreads⟩
    · exact .inl ⟨rfl, Prod.ext hk hreads⟩
    · exact .inr ⟨e, rfl, Prod.ext hk (hreads.trans (hfailed e))⟩

/-- The program spares the main table, and what it returns meets `Q` together with
    what it has read. -/
def Reading {α : Type} (Q : α → Reads → Prop) (p : AdapterProg α) (reads : Reads) : Prop :=
  wp reader (fun c _ => c.SparesMain) Q p reads

/-- The program neither changes nor lists the main table. -/
def Silent {α : Type} (p : AdapterProg α) : Prop :=
  ∀ reads, Reading (fun _ reads' => reads' = reads) p reads

section Silent

variable {α β : Type}

theorem silent_ret (a : α) : Silent (.ret a : AdapterProg α) := fun _ => rfl

variable {c : AdapterCall} {xs : List β}

theorem silent_call {f : Except AdapterError (Reply c) → AdapterProg α} (hc : c.SparesMain)
    (hnote : ∀ r reads, note c r reads = reads) (hf : ∀ r, Plausible c r → Silent (f r)) :
    Silent (.call c f) := by
  intro reads
  refine ⟨hc, fun r reads' hr => ?_⟩
  obtain ⟨hlisted, rfl⟩ := hr
  rw [hnote]
  exact hf r hlisted reads

theorem silent_bind {p : AdapterProg α} {f : α → AdapterProg β} (hp : Silent p)
    (hf : ∀ a, Silent (f a)) : Silent (p.bind f) := by
  intro reads
  rw [Reading, wp_bind]
  refine wp_post (fun a reads' hreads => ?_) (hp reads)
  rw [hreads]
  exact hf a reads

theorem silent_andThen {p : AdapterProg (Except RoutingError α)}
    {f : α → AdapterProg (Except RoutingError β)} (hp : Silent p) (hf : ∀ a, Silent (f a)) :
    Silent (p.andThen f) := by
  refine silent_bind hp fun r => ?_
  cases r with
  | ok a => exact hf a
  | error e => exact silent_ret _

theorem silent_collect {f : β → AdapterProg (List Cause)} (h : ∀ x ∈ xs, Silent (f x)) :
    Silent (collect f xs) := by
  induction xs with
  | nil => exact silent_ret []
  | cons x xs ih =>
    refine silent_bind (h x mem_cons_self) fun es => silent_bind ?_ fun es' => silent_ret _
    exact ih fun y hy => h y (mem_cons_of_mem x hy)

theorem silent_forEach {f : β → AdapterProg (Except RoutingError Unit)} (h : ∀ x ∈ xs, Silent (f x)) :
    Silent (forEach f xs) := by
  induction xs with
  | nil => exact silent_ret _
  | cons x xs ih =>
    refine silent_andThen (h x mem_cons_self) fun _ => ?_
    exact ih fun y hy => h y (mem_cons_of_mem x hy)

theorem silent_orFail (guardInstalled : Bool) {p : AdapterProg (List Cause)} (hp : Silent p) :
    Silent (orFail guardInstalled p) := by
  refine silent_bind hp fun es => ?_
  cases es with
  | nil | cons e es => exact silent_ret _

/-- A call that lists nothing. -/
def AdapterCall.Changes : AdapterCall → Prop
  | .listRoutes _ _ => False
  | _ => True

theorem note_of_changes (hc : c.Changes) (r : Except AdapterError (Reply c)) (reads : Reads) :
    note c r reads = reads := by
  cases c with
  | listRoutes family table => cases hc
  | _ => rfl

theorem silent_deleting (wrap : AdapterError → Cause) (hc : c.SparesMain) (hchanges : c.Changes) :
    Silent (deleting wrap c) := by
  refine silent_call hc (note_of_changes hchanges) fun r _ => ?_
  cases r with
  | ok v | error e => exact silent_ret _

theorem silent_callEach (guardInstalled : Bool) {mk : β → AdapterCall}
    (wrap : β → AdapterError → Cause) (hspares : ∀ x ∈ xs, (mk x).SparesMain)
    (hchanges : ∀ x, (mk x).Changes) : Silent (callEach guardInstalled mk wrap xs) := by
  refine silent_forEach fun x hx => ?_
  refine silent_call (hspares x hx) (note_of_changes (hchanges x)) fun r _ => ?_
  cases r with
  | ok v | error e => exact silent_ret _

theorem silent_flushTableFamily (family : Int) {table : Int} (htable : table ≠ rtTableMain) :
    Silent (flushTableFamily family table) := by
  refine silent_call trivial (fun r reads => ?_) fun r hr => ?_
  · cases r with
    | ok routes => exact if_neg htable
    | error e => rfl
  · cases r with
    | error e => exact silent_ret _
    | ok routes =>
      refine silent_collect fun a ha => silent_deleting _ ?_ trivial
      show a.table ≠ rtTableMain
      rw [(hr a ha).2]
      exact htable

theorem silent_deleteOwnedRules (config : Config) (family : Int) (keep : List Rule) :
    Silent (deleteOwnedRules config family keep) := by
  refine silent_call trivial (note_of_changes trivial) fun r _ => ?_
  cases r with
  | error e => exact silent_ret _
  | ok rules =>
    refine silent_collect fun rule _ => ?_
    split
    · exact silent_ret _
    · split
      · exact silent_ret _
      · exact silent_deleting _ trivial trivial

theorem silent_installGuards (guardInstalled : Bool) (guards : List Rule) :
    Silent (installGuards guardInstalled guards) := by
  induction guards generalizing guardInstalled with
  | nil => exact silent_ret _
  | cons g gs ih =>
    refine silent_call trivial (note_of_changes trivial) fun r _ => ?_
    cases r with
    | error e => exact silent_ret _
    | ok v => exact ih true

end Silent

/-! ## Snapshots -/

/-- Whatever was read, the snapshot is what the listings of the families show. -/
theorem reading_snapshotFamilies (families : List Int) (acc : List Route) (reads : Reads) :
    Reading (fun r reads' => ∀ snapshot, r = .ok snapshot → ∃ listed : Reads,
        reads' = reads ++ listed ∧ listed.map Prod.fst = families ∧
          snapshot.mainRoutes = acc ++ listed.flatMap Prod.snd)
      (snapshotFamilies acc families) reads := by
  induction families generalizing acc reads with
  | nil =>
    rintro snapshot ⟨⟩
    exact ⟨[], by simp, rfl, by simp⟩
  | cons f fs ih =>
    refine ⟨trivial, fun r reads' hr => ?_⟩
    obtain ⟨-, rfl⟩ := hr
    cases r with
    | error e =>
      rintro snapshot ⟨⟩
    | ok routes =>
      refine wp_post (fun r reads' hreads snapshot hsnap => ?_)
        (ih (acc ++ (show List Route from routes)) _)
      obtain ⟨listed, rfl, hfamilies, hmain⟩ := hreads snapshot hsnap
      refine ⟨(f, routes) :: listed, ?_, by simp [hfamilies], ?_⟩
      · rw [note, if_pos rfl, append_assoc]
        rfl
      · rw [hmain, flatMap_cons, append_assoc]

theorem reading_snapshotMain {α : Type} {Q : α → Reads → Prop} {config : Config}
    {f : Except Cause Snapshot → AdapterProg α}
    (herr : ∀ cause reads, Reading Q (f (.error cause)) reads)
    (hok : ∀ reads : Reads, reads.map Prod.fst = familyConstants config.families →
      Reading Q (f (.ok ⟨reads.flatMap Prod.snd⟩)) reads) :
    Reading Q ((snapshotMain config).bind f) [] := by
  rw [Reading, wp_bind]
  refine wp_post (fun r reads' hreads => ?_) (reading_snapshotFamilies _ [] [])
  cases r with
  | error cause => exact herr cause reads'
  | ok snapshot =>
    obtain ⟨listed, hlisted, hfamilies, hmain⟩ := hreads snapshot rfl
    obtain ⟨routes⟩ := snapshot
    obtain rfl : routes = listed.flatMap Prod.snd := by simpa using hmain
    rw [hlisted]
    exact hok listed hfamilies

variable {reads : Reads}

/-- A part that neither changes nor lists the main table keeps what was read. -/
theorem reading_silent {α β : Type} {Q : β → Reads → Prop} {p : AdapterProg α}
    {f : α → AdapterProg β} (hp : Silent p) (hf : ∀ a, Reading Q (f a) reads) :
    Reading Q (p.bind f) reads := by
  rw [Reading, wp_bind]
  refine wp_post (fun a reads' hreads => ?_) (hp reads)
  rw [hreads]
  exact hf a

/-! ## Operations -/

/-- The state is compiled from these listings, one for each policy family. -/
structure TakenFrom (reads : Reads) (a : DesiredState) : Prop where
  accepted : a.config.validate = .ok ()
  families : reads.map Prod.fst = familyConstants a.config.families
  compiled : a = desiredState a.config ⟨reads.flatMap Prod.snd⟩

theorem TakenFrom.reads_ne_nil {a : DesiredState} (h : TakenFrom reads a) : reads ≠ [] := by
  rintro rfl
  have hfamilies := h.families
  have hchecked := Config.checked_of_validate h.accepted
  rcases hchecked.some_family with hf | hf <;> simp [familyConstants, hf] at hfamilies

/-- How an operation of `m` can end, by what it has read of the main table. -/
inductive Concludes (m : Manager) (op : Operation) : Outcome → Reads → Prop
  | failed (e : RoutingError) (reads : Reads) : Concludes m op (m, some e) reads
  | idle : op = .beginRouteChange ∨ (op = .refreshAfterRouteChange ∧ m.monitored = none) →
      Concludes m op (m, none) []
  | cleared : op ≠ .refreshAfterRouteChange →
      Concludes m op ({ m with applied := none }, none) []
  | taken {a : DesiredState} {reads : Reads} : TakenFrom reads a →
      Concludes m op ({ m with applied := some a }, none) reads

theorem Concludes.accepted {m : Manager} {op : Operation} {out : Outcome}
    (h : Concludes m op out reads) (hm : m.Accepted) : out.1.Accepted := by
  cases h with
  | failed e reads | idle hop => exact hm
  | cleared hop => exact fun a ha => absurd ha.symm (Option.some_ne_none a)
  | taken htaken =>
    intro a ha
    rw [← Option.some.inj ha]
    exact htaken.accepted

theorem Config.Checked.tables_ne_main {c : Config} (hc : c.Checked) :
    c.vpnTable ≠ rtTableMain ∧ c.safeTable ≠ rtTableMain := by
  have hvpn := hc.vpn_free
  have hsafe := hc.safe_free
  constructor
  · intro h
    rw [h] at hvpn
    cases hvpn
  · intro h
    rw [h] at hsafe
    cases hsafe

section Operations

variable {m : Manager} {config : Config}

theorem Manager.Accepted.configs (hm : m.Accepted) (hc : config.validate = .ok ()) :
    ∀ c ∈ m.configs config, c.validate = .ok () := by
  intro c hmem
  rw [Manager.configs] at hmem
  cases ha : m.applied with
  | none =>
    simp only [ha, mem_singleton] at hmem
    rw [hmem]
    exact hc
  | some a =>
    simp only [ha, mem_cons, not_mem_nil, or_false] at hmem
    rcases hmem with rfl | rfl
    · exact hc
    · exact hm a ha

theorem ownedTableTargets_ne_main {configs : List Config}
    (h : ∀ c ∈ configs, c.validate = .ok ()) {target : OwnedTableTarget}
    (ht : target ∈ ownedTableTargets configs) : target.table ≠ rtTableMain := by
  obtain ⟨c, hc, -, htable⟩ := mem_ownedTableTargets.mp ht
  have hne := (Config.checked_of_validate (h c hc)).tables_ne_main
  rcases htable with htable | htable
  · rw [htable]
    exact hne.1
  · rw [htable]
    exact hne.2

theorem silent_applyDesired (hm : m.Accepted) (hc : config.validate = .ok ())
    (snapshot : Snapshot) : Silent (m.applyDesired (desiredState config snapshot)) := by
  have hconfigs := hm.configs hc
  obtain ⟨hvpn, hsafe⟩ := (Config.checked_of_validate hc).tables_ne_main
  refine silent_andThen (silent_installGuards _ _) fun guardInstalled => ?_
  refine silent_andThen (silent_callEach _ _ (fun _ _ => trivial) fun _ => trivial) fun _ => ?_
  refine silent_andThen (silent_forEach fun target ht => silent_orFail _
    (silent_flushTableFamily _ (ownedTableTargets_ne_main hconfigs ht))) fun _ => ?_
  refine silent_andThen (silent_callEach _ _ (fun a ha => ?_) fun _ => trivial) fun _ => ?_
  · show a.table ≠ rtTableMain
    rw [(vpnRoutes_desiredState ha).2]
    exact hvpn
  refine silent_andThen (silent_callEach _ _ (fun a ha => ?_) fun _ => trivial) fun _ => ?_
  · show a.table ≠ rtTableMain
    rw [(safeRoutes_desiredState ha).2]
    exact hsafe
  refine silent_andThen (silent_forEach fun scope _ => silent_orFail _
    (silent_deleteOwnedRules _ _ _)) fun _ => ?_
  refine silent_andThen (silent_callEach _ _ (fun _ _ => trivial) fun _ => trivial) fun _ => ?_
  exact silent_callEach _ _ (fun _ _ => trivial) fun _ => trivial

theorem reading_apply (hm : m.Accepted) (config : Config) :
    Reading (Concludes m (.apply config)) (m.apply config) [] := by
  unfold Manager.apply
  split
  · exact .failed _ _
  cases hc : config.validate with
  | error e => exact .failed _ _
  | ok u =>
    refine ⟨trivial, fun r reads' hr => ?_⟩
    obtain ⟨-, rfl⟩ := hr
    cases r with
    | error e => cases e <;> exact .failed _ _
    | ok v =>
      refine reading_snapshotMain (fun cause reads => .failed _ _) fun reads hfamilies => ?_
      simp only [compileDesiredState, hc]
      refine reading_silent (silent_applyDesired hm hc _) fun r => ?_
      cases r with
      | error e => exact .failed _ _
      | ok v => exact .taken ⟨hc, hfamilies, rfl⟩

theorem reading_refreshLocked {a : DesiredState} (ha : a.config.validate = .ok ())
    (op : Operation) : Reading (Concludes m op) (m.refreshLocked a) [] := by
  have hsafe := (Config.checked_of_validate ha).tables_ne_main.2
  unfold Manager.refreshLocked
  rw [Reading, wp_bind]
  -- Behind the guards the rebuild returns the state compiled from what it lists.
  refine wp_post (Q := fun r reads => ∀ desired, r = .ok desired → TakenFrom reads desired)
    (fun r reads hr => ?_) ?_
  · cases r with
    | error e => exact .failed _ _
    | ok desired => exact .taken (hr desired rfl)
  refine reading_silent (silent_installGuards _ _) fun r => ?_
  cases r with
  | error e => exact fun desired h => nomatch h
  | ok guardInstalled =>
    refine reading_snapshotMain (fun cause reads desired h => nomatch h) fun reads hfamilies => ?_
    simp only [compileDesiredState, ha]
    refine reading_silent (silent_orFail _ (silent_collect fun f _ =>
      silent_flushTableFamily f hsafe)) fun r => ?_
    cases r with
    | error e => exact fun desired h => nomatch h
    | ok v =>
      refine reading_silent (silent_callEach _ _ (fun b hb => ?_) fun _ => trivial) fun r => ?_
      · show b.table ≠ rtTableMain
        rw [(safeRoutes_desiredState hb).2]
        exact hsafe
      cases r with
      | error e => exact fun desired h => nomatch h
      | ok v =>
        refine reading_silent (silent_callEach _ _ (fun _ _ => trivial) fun _ => trivial)
          fun r => ?_
        cases r with
        | error e => exact fun desired h => nomatch h
        | ok v =>
          rintro desired ⟨⟩
          exact ⟨ha, hfamilies, rfl⟩

theorem reading_rollback (hm : m.Accepted) (config : Config) :
    Reading (Concludes m (.rollback config)) (m.rollback config) [] := by
  unfold Manager.rollback
  split
  · exact .failed _ _
  cases hc : config.validate with
  | error e => exact .failed _ _
  | ok u =>
    have hconfigs := hm.configs hc
    refine reading_silent (silent_collect fun scope _ => silent_deleteOwnedRules _ _ _)
      fun ruleErrs => ?_
    refine reading_silent (silent_collect fun target ht =>
      silent_flushTableFamily _ (ownedTableTargets_ne_main hconfigs ht)) fun tableErrs => ?_
    cases ruleErrs ++ tableErrs with
    | nil => exact .cleared nofun
    | cons e es => exact .failed _ _

/-- Whatever its calls are answered with, an operation changes no route of the main
    table, and a state it leaves applied is compiled from what it has listed. -/
theorem reading_perform (hm : m.Accepted) (op : Operation) :
    Reading (Concludes m op) (m.perform op) [] := by
  cases op with
  | apply config => exact reading_apply hm config
  | refresh =>
    rw [Manager.perform, Manager.refresh]
    split
    · exact .failed _ _
    cases ha : m.applied with
    | none => exact .failed _ _
    | some a => exact reading_refreshLocked (hm a ha) _
  | rollback config => exact reading_rollback hm config
  | beginRouteChange =>
    rw [Manager.perform, Manager.beginRouteChange]
    cases hmon : m.monitored with
    | none => exact .idle (.inl rfl)
    | some a =>
      refine reading_silent (silent_callEach _ _ (fun _ _ => trivial) fun _ => trivial) fun r => ?_
      cases r with
      | error e => exact .failed _ _
      | ok v => exact .idle (.inl rfl)
  | refreshAfterRouteChange =>
    rw [Manager.perform, Manager.refreshAfterRouteChange]
    cases hmon : m.monitored with
    | none => exact .idle (.inr ⟨rfl, hmon⟩)
    | some a => exact reading_refreshLocked (hm a (Manager.monitored_eq_some hmon)) _

end Operations

end SysnetLinux.Routing
