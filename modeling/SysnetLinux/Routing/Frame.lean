/-
  SysnetLinux.Routing.Frame

  The frame of the manager's operations, and what a rollback leaves.

  Whatever fails, an operation leaves every rule outside the blocks and every
  route outside the tables of the two configs it is about as it was, in every
  state on the way.
-/

import SysnetLinux.Routing.Stages

namespace SysnetLinux.Routing

open CallProg CallProg.Prog

/-- The operations of a manager, those of its route monitor included. -/
inductive Operation where
  | apply (config : Config)
  | refresh
  | rollback (config : Config)
  | beginRouteChange
  | refreshAfterRouteChange

def Manager.perform (m : Manager) : Operation → AdapterProg Outcome
  | .apply config => m.apply config
  | .refresh => m.refresh
  | .rollback config => m.rollback config
  | .beginRouteChange => m.beginRouteChange
  | .refreshAfterRouteChange => m.refreshAfterRouteChange

/-- Rules and routes that the configs do not own are the same, in the same order. -/
structure SameOutside (configs : List Config) (k k' : Kernel) : Prop where
  rules : (k'.rules.filter fun r => !ownsRule configs r) =
    k.rules.filter fun r => !ownsRule configs r
  routes : (k'.routes.filter fun a => !ownsRoute configs a) =
    k.routes.filter fun a => !ownsRoute configs a

namespace SameOutside

theorem refl (configs : List Config) (k : Kernel) : SameOutside configs k k := ⟨rfl, rfl⟩

/-- A change outside fewer rules and routes is one outside more. -/
theorem of_filter {configs : List Config} {k k' : Kernel} {pr : Rule → Bool} {pa : Route → Bool}
    (hrules : (k'.rules.filter fun r => !pr r) = k.rules.filter fun r => !pr r)
    (hroutes : (k'.routes.filter fun a => !pa a) = k.routes.filter fun a => !pa a)
    (hr : ∀ r, pr r = true → ownsRule configs r = true)
    (ha : ∀ a, pa a = true → ownsRoute configs a = true) : SameOutside configs k k' where
  rules := by rw [filter_not_of_imp hr, hrules, ← filter_not_of_imp hr]
  routes := by rw [filter_not_of_imp ha, hroutes, ← filter_not_of_imp ha]

end SameOutside

/-- An operation on an open manager never leaves its frame: the invariant of all
    its calls, and of its end. -/
def Framed (configs : List Config) (p : AdapterProg Outcome) : Prop :=
  ∀ k, wp adapter (fun _ k' => SameOutside configs k k') (fun _ k' => SameOutside configs k k') p k

theorem framed_ret (configs : List Config) (out : Outcome) : Framed configs (.ret out) :=
  fun k => SameOutside.refl configs k

variable {configs : List Config} {m : Manager} {c : Config} {k k' : Kernel}
    {tr : List (Event AdapterCall Kernel)}

/-- A guarded change whose plan owns no more than the configs do. -/
theorem framed_change {p : AdapterProg Outcome} (P : Kernel → Plan)
    (settled final : Kernel → Kernel) (m : Manager) (m' : Kernel → Manager) (hP : ∀ k, (P k).Sound)
    (hsettled : ∀ k, Guarded (P k) k (settled k))
    (hfinal : ∀ k, final k = (settled k).deleteRules (P k).removed)
    (hr : ∀ k r, (P k).rules r = true → ownsRule configs r = true)
    (ha : ∀ k a, (P k).routes a = true → ownsRoute configs a = true)
    (hwp : ∀ k, wp adapter (fun _ x => Stage (P k) k (settled k) x)
      (Change (P k) k (settled k) m (m' k) (final k)) p k) : Framed configs p := by
  intro k
  have hstage : ∀ x, Stage (P k) k (settled k) x → SameOutside configs k x := by
    intro x hx
    obtain ⟨hrules, hroutes⟩ := hx.outside (hP k) (hsettled k)
    exact SameOutside.of_filter hrules hroutes (hr k) (ha k)
  refine wp_mono (fun _ x hx => hstage x hx) ?_ (hwp k)
  rintro out x hx
  cases hx with
  | refused => exact SameOutside.refl configs k
  | failed _ hx => exact hstage _ hx
  | done => exact hstage _ (hfinal k ▸ Stage.closing _ [] (by simp))

theorem framed_apply (hm : m.Good) (hc : c.Valid) : Framed (m.configs c) (m.apply c) := by
  cases hopen : m.closed with
  | true =>
    obtain ⟨e, he, -⟩ := Manager.apply_refused c (.inl hopen)
    rw [he]
    exact framed_ret _ _
  | false =>
    exact framed_change (fun k => m.plan (desiredFrom c k))
      (fun k => m.settled (desiredFrom c k) k) (fun k => m.reconciled (desiredFrom c k) k) m _
      (fun k => Manager.plan_sound hm (compiled_desiredFrom hc k))
      (fun k => Manager.guarded_settled hm (compiled_desiredFrom hc k) k) (fun _ => rfl)
      (fun _ _ h => h) (fun _ _ h => h) (fun k => Manager.wp_apply hm hopen hc k)

theorem refreshPlan_rules_owned (hc : c.Valid) (hmem : c ∈ configs) (r : Rule)
    (hr : (refreshPlan c).rules r = true) :
    ownsRule configs r = true := by
  obtain ⟨f, hf, rfl⟩ := mem_configGuards.mp (of_decide_eq_true hr)
  exact ownsRule_iff.mpr ⟨c, hmem, inBlock_transitionGuard hc hf⟩

theorem refreshPlan_routes_owned (hmem : c ∈ configs) (a : Route)
    (ha : (refreshPlan c).routes a = true) : ownsRoute configs a = true := by
  simp only [refreshPlan, inSafeTable, Bool.and_eq_true, beq_iff_eq] at ha
  exact ownsRoute_iff.mpr ⟨c, hmem, inTables_iff.mpr ⟨ha.1, .inr ha.2⟩⟩

theorem framed_refreshLocked {a : DesiredState} (ha : a.config.Valid) (hmem : a.config ∈ configs) :
    Framed configs (m.refreshLocked a) := by
  exact framed_change (fun _ => refreshPlan a.config) (refreshSettled a.config)
    (refreshed a.config) m _ (fun _ => refreshPlan_sound a.config)
    (guarded_refreshSettled ha) (fun _ => rfl) (fun _ => refreshPlan_rules_owned ha hmem)
    (fun _ => refreshPlan_routes_owned hmem) (Manager.wp_refreshLocked m ha)

theorem Manager.mem_configs_applied {a : DesiredState} (ha : m.applied = some a) (c : Config) :
    a.config ∈ m.configs c := by
  simp [Manager.configs, ha]

theorem framed_refresh (hm : m.Good) (c : Config) : Framed (m.configs c) m.refresh := by
  by_cases hrefused : m.closed = true ∨ m.applied = none
  · obtain ⟨e, he, -⟩ := Manager.refresh_refused hrefused
    rw [he]
    exact framed_ret _ _
  · rw [not_or, Bool.not_eq_true] at hrefused
    obtain ⟨a, ha⟩ := Option.ne_none_iff_exists'.mp hrefused.2
    rw [Manager.refresh_eq hrefused.1 ha]
    exact framed_refreshLocked (hm a ha).valid (Manager.mem_configs_applied ha c)

theorem framed_rollback (hm : m.Good) (hc : c.Valid) : Framed (m.configs c) (m.rollback c) := by
  cases hopen : m.closed with
  | true =>
    obtain ⟨e, he, -⟩ := Manager.rollback_refused c (.inl hopen)
    rw [he]
    exact framed_ret _ _
  | false =>
    intro k
    refine wp_mono ?_ ?_ (Manager.wp_rollback hm hopen hc k)
    · rintro _ k' ⟨-, hpruned⟩
      exact ⟨hpruned.rules_kept, hpruned.routes_kept⟩
    · rintro out k' hk'
      cases hk' with
      | incomplete _ hpruned => exact ⟨hpruned.rules_kept, hpruned.routes_kept⟩
      | done =>
        have hpruned := pruned_without k (ownsRule (m.configs c)) (ownsRoute (m.configs c))
        exact ⟨hpruned.rules_kept, hpruned.routes_kept⟩

/-! ## Frame and rollback -/

/-- Every state an execution of a framed program visits is in the frame. -/
theorem Framed.visited {p : AdapterProg Outcome} (hp : Framed configs p) {out : Outcome}
    (hex : Exec adapter p k tr out k') : ∀ x ∈ visited tr k', SameOutside configs k x :=
  visited_of_wp hex (hp k) fun h => h

theorem ownsRoute_main (h : ∀ c ∈ configs, c.Valid) {a : Route} (ha : a.table = rtTableMain) :
    ownsRoute configs a = false := by
  rw [Bool.eq_false_iff]
  intro hown
  obtain ⟨c, hc, hin⟩ := ownsRoute_iff.mp hown
  have hchecked := (h c hc).checked
  rcases (inTables_iff.mp hin).2 with htable | htable
  · have hfree := hchecked.vpn_free
    rw [← htable, ha] at hfree
    cases hfree
  · have hfree := hchecked.safe_free
    rw [← htable, ha] at hfree
    cases hfree

/-- What happens outside leaves the main table as it is. -/
theorem SameOutside.filter_main (hvalid : ∀ c ∈ configs, c.Valid) (h : SameOutside configs k k')
    {q : Route → Bool} (hq : ∀ a, q a = true → a.table = rtTableMain) :
    k'.routes.filter q = k.routes.filter q := by
  have hsplit : ∀ x : Kernel,
      x.routes.filter q = (x.routes.filter fun a => !ownsRoute configs a).filter q := by
    intro x
    rw [List.filter_filter]
    refine List.filter_congr fun a _ => ?_
    cases ha : q a with
    | false => simp
    | true => simp [ownsRoute_main hvalid (hq a ha)]
  rw [hsplit k', h.routes, ← hsplit k]

def AdapterCall.isDeletion : AdapterCall → Bool
  | .deleteRoute _ => true
  | .deleteRule _ => true
  | _ => false

/-- A kernel that holds nothing the configs own gives a rollback nothing to delete. -/
theorem rollback_no_deletion (hm : m.Good) (hc : c.Valid)
    (hrules : ∀ r ∈ k.rules, ownsRule (m.configs c) r = false)
    (hroutes : ∀ a ∈ k.routes, ownsRoute (m.configs c) a = false) {out : Outcome}
    (hex : Exec adapter (m.rollback c) k tr out k') :
    ∀ ev ∈ tr, ev.call.isDeletion = false := by
  cases hopen : m.closed with
  | true =>
    obtain ⟨e, he, -⟩ := Manager.rollback_refused c (.inl hopen)
    rw [he] at hex
    cases hex
    simp
  | false =>
    obtain ⟨htr, -⟩ := wp_sound hex (Manager.wp_rollback hm hopen hc k)
    intro ev hev
    have hdel := (htr ev hev).1
    cases hcall : ev.call with
    | deleteRule e =>
      rw [hcall] at hdel
      obtain ⟨r, hr, hown, -⟩ := hdel
      rw [hrules r hr] at hown
      cases hown
    | deleteRoute a =>
      rw [hcall] at hdel
      obtain ⟨ha, hown⟩ := hdel
      rw [hroutes a ha] at hown
      cases hown
    | _ => rfl

theorem Manager.configs_subset (m : Manager) (closed : Bool) (c : Config) :
    ∀ c' ∈ (⟨closed, none⟩ : Manager).configs c, c' ∈ m.configs c := by
  intro c' hc'
  rw [List.mem_singleton.mp hc']
  exact m.mem_configs_self c

theorem rollback_done (hm : m.Good) (hc : c.Valid) {m' : Manager}
    (hex : Exec adapter (m.rollback c) k tr (m', none) k') :
    m' = { m with applied := none } ∧
      k' = k.without (ownsRule (m.configs c)) (ownsRoute (m.configs c)) := by
  by_cases hopen : m.closed = true
  · obtain ⟨e, he, -⟩ := Manager.rollback_refused c (.inl hopen)
    rw [he] at hex
    cases hex
  · rw [Bool.not_eq_true] at hopen
    obtain ⟨-, hend⟩ := wp_sound hex (Manager.wp_rollback hm hopen hc k)
    cases hend
    exact ⟨rfl, rfl⟩

/-- Whatever adapter calls fail, `Apply`, `Refresh` and `Rollback` never touch a rule outside the
    blocks or a route outside the tables of the config and of the applied one, the main table in
    particular.  A rollback that returns nil leaves the blocks and tables empty and nothing applied,
    and a second one then issues no deletion. -/
theorem operations_framed (m : Manager) (hm : m.Good) (c : Config) (hc : c.Valid) :
    (∀ op, op = .apply c ∨ op = .refresh ∨ op = .rollback c →
      ∀ k tr out k', Exec adapter (m.perform op) k tr out k' →
        ∀ x ∈ visited tr k', SameOutside (m.configs c) k x) ∧
    (∀ a : Route, a.table = rtTableMain → ownsRoute (m.configs c) a = false) ∧
    (∀ k tr m' k', Exec adapter (m.rollback c) k tr (m', none) k' →
      (∀ r ∈ k'.rules, ownsRule (m.configs c) r = false) ∧
      (∀ a ∈ k'.routes, ownsRoute (m.configs c) a = false) ∧
      m'.status = none ∧
      ∀ tr' out k'', Exec adapter (m'.rollback c) k' tr' out k'' →
        ∀ ev ∈ tr', ev.call.isDeletion = false) := by
  refine ⟨?_, fun a ha => ownsRoute_main (fun c' => Manager.configs_valid hm hc) ha, ?_⟩
  · rintro op (rfl | rfl | rfl) k tr out k' hex
    · exact (framed_apply hm hc).visited hex
    · exact (framed_refresh hm c).visited hex
    · exact (framed_rollback hm hc).visited hex
  · intro k tr m' k' hex
    obtain ⟨rfl, rfl⟩ := rollback_done hm hc hex
    have hrules : ∀ r ∈ (k.without (ownsRule (m.configs c)) (ownsRoute (m.configs c))).rules,
        ownsRule (m.configs c) r = false := by
      intro r hr
      simpa using (List.mem_filter.mp hr).2
    have hroutes : ∀ a ∈ (k.without (ownsRule (m.configs c)) (ownsRoute (m.configs c))).routes,
        ownsRoute (m.configs c) a = false := by
      intro a ha
      simpa using (List.mem_filter.mp ha).2
    refine ⟨hrules, hroutes, rfl, fun tr' out k'' hex' => ?_⟩
    have hsub := m.configs_subset m.closed c
    exact rollback_no_deletion (m := { m with applied := none }) (by rintro a ⟨⟩) hc
      (fun r hr => ownsRule_of_subset hsub (hrules r hr))
      (fun a ha => ownsRoute_of_subset hsub (hroutes a ha)) hex'

/-- The frame of a manager that has a sample config applied. -/
theorem operations_framed_sample :
    (sampleManager.Good ∧ sampleConfig.Valid) ∧
      ∀ k tr m' k', Exec adapter (sampleManager.rollback sampleConfig) k tr (m', none) k' →
        m'.status = none :=
  ⟨⟨sampleManager_good, sampleConfig_valid⟩, fun k tr m' k' hex =>
    ((operations_framed sampleManager sampleManager_good sampleConfig sampleConfig_valid).2.2
      k tr m' k' hex).2.2.1⟩

end SysnetLinux.Routing
