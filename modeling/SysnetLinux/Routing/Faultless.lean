/-
  SysnetLinux.Routing.Faultless

  Operations none of whose adapter calls fails.

  An accepted config on an open manager is then applied, refreshed and rolled
  back without an error.  `Returns` speaks of what a program returns, `Succeeds`
  of a program that can leave with an error and does not.
-/

import SysnetLinux.Routing.Frame

namespace SysnetLinux.Routing

open CallProg CallProg.Prog

/-- If no adapter call fails, what the program returns meets `Q`. -/
def Returns {α : Type} (p : AdapterProg α) (Q : α → Prop) : Prop :=
  ∀ k, wp (answered adapter) (fun _ _ => True) (fun a _ => Q a) p k

section Rules

variable {α β : Type} {Q : α → Prop} {Q' : β → Prop}

theorem Returns.of_exec {p : AdapterProg α} (h : Returns p Q) {k k' : Kernel}
    {tr : List (Event AdapterCall Kernel)} {a : α} (hex : Exec adapter p k tr a k')
    (hok : ∀ ev ∈ tr, ev.failed = false) : Q a :=
  (wp_sound (hex.answered_of_no_fault hok) (h k)).2

theorem returns_ret {a : α} (h : Q a) : Returns (.ret a) Q := fun _ => h

theorem returns_call {c : AdapterCall} {f : Except AdapterError (Reply c) → AdapterProg α}
    (h : ∀ v, Returns (f (.ok v)) Q) : Returns (.call c f) Q := by
  intro k
  rw [wp_call_answered]
  exact ⟨trivial, fun v k' _ => h v k'⟩

theorem returns_bind {p : AdapterProg α} {f : α → AdapterProg β} (hp : Returns p Q)
    (hf : ∀ a, Q a → Returns (f a) Q') : Returns (p.bind f) Q' := by
  intro k
  rw [wp_bind]
  exact wp_post (fun a t ha => hf a ha t) (hp k)

theorem returns_collect {f : β → AdapterProg (List Cause)} (xs : List β)
    (h : ∀ x, Returns (f x) (· = [])) : Returns (collect f xs) (· = []) := by
  induction xs with
  | nil => exact returns_ret rfl
  | cons x xs ih =>
    refine returns_bind (h x) fun es hes => ?_
    refine returns_bind ih fun es' hes' => ?_
    rw [hes, hes']
    exact returns_ret rfl

/-- The program leaves without an error. -/
def Succeeds (p : AdapterProg (Except RoutingError α)) : Prop :=
  Returns p fun r => ∃ a, r = .ok a

theorem succeeds_ret (a : α) : Succeeds (.ret (.ok a)) := returns_ret ⟨a, rfl⟩

theorem succeeds_andThen {p : AdapterProg (Except RoutingError α)}
    {f : α → AdapterProg (Except RoutingError β)} (hp : Succeeds p)
    (hf : ∀ a, Succeeds (f a)) : Succeeds (p.andThen f) := by
  refine returns_bind hp fun r hr => ?_
  obtain ⟨a, rfl⟩ := hr
  exact hf a

theorem succeeds_forEach {f : β → AdapterProg (Except RoutingError Unit)} (xs : List β)
    (h : ∀ x, Succeeds (f x)) : Succeeds (forEach f xs) := by
  induction xs with
  | nil => exact succeeds_ret ()
  | cons x xs ih => exact succeeds_andThen (h x) fun _ => ih

theorem succeeds_orFail {p : AdapterProg (List Cause)} (guardInstalled : Bool)
    (hp : Returns p (· = [])) : Succeeds (orFail guardInstalled p) := by
  refine returns_bind hp fun es hes => ?_
  rw [hes]
  exact succeeds_ret ()

theorem succeeds_callEach (guardInstalled : Bool) (mk : β → AdapterCall)
    (wrap : β → AdapterError → Cause) (xs : List β) :
    Succeeds (callEach guardInstalled mk wrap xs) :=
  succeeds_forEach xs fun _ => returns_call fun _ => succeeds_ret ()

end Rules

theorem returns_deleting (wrap : AdapterError → Cause) (c : AdapterCall) :
    Returns (deleting wrap c) (· = []) := returns_call fun _ => returns_ret rfl

theorem returns_flushTableFamily (family table : Int) :
    Returns (flushTableFamily family table) (· = []) :=
  returns_call fun _ => returns_collect _ fun _ => returns_deleting _ _

theorem returns_deleteOwnedRules (config : Config) (family : Int) (keep : List Rule) :
    Returns (deleteOwnedRules config family keep) (· = []) := by
  refine returns_call fun rules => returns_collect _ fun rule => ?_
  split
  · exact returns_ret rfl
  · split
    · exact returns_ret rfl
    · exact returns_deleting _ _

theorem returns_snapshotFamilies (acc : List Route) (families : List Int) :
    Returns (snapshotFamilies acc families) fun r => ∃ snapshot, r = .ok snapshot := by
  induction families generalizing acc with
  | nil => exact returns_ret ⟨_, rfl⟩
  | cons f fs ih => exact returns_call fun routes => ih _

theorem succeeds_installGuards (guardInstalled : Bool) (guards : List Rule) :
    Succeeds (installGuards guardInstalled guards) := by
  induction guards generalizing guardInstalled with
  | nil => exact succeeds_ret guardInstalled
  | cons g gs ih => exact returns_call fun _ => ih true

theorem succeeds_applyDesired (m : Manager) (desired : DesiredState) :
    Succeeds (m.applyDesired desired) := by
  refine succeeds_andThen (succeeds_installGuards _ _) fun guardInstalled => ?_
  refine succeeds_andThen (succeeds_callEach _ _ _ _) fun _ => ?_
  refine succeeds_andThen (succeeds_forEach _ fun _ =>
    succeeds_orFail _ (returns_flushTableFamily _ _)) fun _ => ?_
  refine succeeds_andThen (succeeds_callEach _ _ _ _) fun _ => ?_
  refine succeeds_andThen (succeeds_callEach _ _ _ _) fun _ => ?_
  refine succeeds_andThen (succeeds_forEach _ fun _ =>
    succeeds_orFail _ (returns_deleteOwnedRules _ _ _)) fun _ => ?_
  exact succeeds_andThen (succeeds_callEach _ _ _ _) fun _ => succeeds_callEach _ _ _ _

variable {m : Manager} {config : Config}

/-- `Apply` of an accepted config succeeds. -/
theorem returns_apply (hopen : m.closed = false) (hc : config.validate = .ok ()) :
    Returns (m.apply config) (·.2 = none) := by
  rw [Manager.apply, if_neg (by simp [hopen]), hc]
  refine returns_call fun _ => returns_bind (returns_snapshotFamilies _ _) fun r hr => ?_
  obtain ⟨snapshot, rfl⟩ := hr
  simp only [compileDesiredState, hc]
  refine returns_bind (succeeds_applyDesired _ _) fun r hr => ?_
  obtain ⟨u, rfl⟩ := hr
  exact returns_ret rfl

theorem returns_rollback (hopen : m.closed = false) (hc : config.validate = .ok ()) :
    Returns (m.rollback config) (·.2 = none) := by
  rw [Manager.rollback, if_neg (by simp [hopen]), hc]
  refine returns_bind (returns_collect _ fun _ => returns_deleteOwnedRules _ _ _)
    fun ruleErrs hrules => ?_
  refine returns_bind (returns_collect _ fun _ => returns_flushTableFamily _ _)
    fun tableErrs htables => ?_
  rw [hrules, htables]
  exact returns_ret rfl

theorem succeeds_rebuildSafe (hc : config.validate = .ok ()) (guardInstalled : Bool) :
    Succeeds (Manager.rebuildSafe config guardInstalled) := by
  refine returns_bind (returns_snapshotFamilies _ _) fun r hr => ?_
  obtain ⟨snapshot, rfl⟩ := hr
  simp only [compileDesiredState, hc]
  refine succeeds_andThen (succeeds_orFail _ (returns_collect _ fun _ =>
    returns_flushTableFamily _ _)) fun _ => ?_
  refine succeeds_andThen (succeeds_callEach _ _ _ _) fun _ => ?_
  exact succeeds_andThen (succeeds_callEach _ _ _ _) fun _ => succeeds_ret _

theorem returns_refreshLocked (m : Manager) {a : DesiredState}
    (ha : a.config.validate = .ok ()) : Returns (m.refreshLocked a) (·.2 = none) := by
  refine returns_bind (succeeds_andThen (succeeds_installGuards _ _)
    (succeeds_rebuildSafe ha)) fun r hr => ?_
  obtain ⟨desired, rfl⟩ := hr
  exact returns_ret rfl

theorem returns_beginRouteChange (m : Manager) : Returns m.beginRouteChange (·.2 = none) := by
  unfold Manager.beginRouteChange
  cases m.monitored with
  | none => exact returns_ret rfl
  | some a =>
    refine returns_bind (succeeds_callEach _ _ _ _) fun r hr => ?_
    obtain ⟨u, rfl⟩ := hr
    exact returns_ret rfl

/-- Without faults an operation succeeds, unless it is refused before its first call. -/
theorem perform_faultless (hm : m.Accepted) (op : Operation) :
    (∃ e, m.perform op = .ret (m, some e)) ∨ Returns (m.perform op) (·.2 = none) := by
  cases op with
  | apply config =>
    by_cases hrefused : m.closed = true ∨ config.validate ≠ .ok ()
    · obtain ⟨e, he, -⟩ := Manager.apply_refused config hrefused
      exact .inl ⟨e, he⟩
    · rw [not_or, not_not] at hrefused
      exact .inr (returns_apply (by simpa using hrefused.1) hrefused.2)
  | refresh =>
    cases hclosed : m.closed with
    | true => exact .inl ⟨_, if_pos hclosed⟩
    | false =>
      rw [Manager.perform, Manager.refresh, if_neg (by simp [hclosed])]
      cases ha : m.applied with
      | none => exact .inl ⟨_, rfl⟩
      | some a => exact .inr (returns_refreshLocked m (hm a ha))
  | rollback config =>
    by_cases hrefused : m.closed = true ∨ config.validate ≠ .ok ()
    · obtain ⟨e, he, -⟩ := Manager.rollback_refused config hrefused
      exact .inl ⟨e, he⟩
    · rw [not_or, not_not] at hrefused
      exact .inr (returns_rollback (by simpa using hrefused.1) hrefused.2)
  | beginRouteChange => exact .inr (returns_beginRouteChange m)
  | refreshAfterRouteChange =>
    rw [Manager.perform, Manager.refreshAfterRouteChange]
    cases hmon : m.monitored with
    | none => exact .inr (returns_ret rfl)
    | some a =>
      exact .inr (returns_refreshLocked m (hm a (Manager.monitored_eq_some hmon)))

end SysnetLinux.Routing
