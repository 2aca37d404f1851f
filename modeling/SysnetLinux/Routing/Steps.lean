/-
  SysnetLinux.Routing.Steps

  What the manager's helper programs do to the kernel: one specification for each
  of them, over any adapter failures.

  A deletion loop lists first and then deletes what it was shown.  The listing of
  rules is lossy, so a deletion is only known to take one of the rules listed
  alike; counting the rules of each listed form shows that all of them are gone
  once every deletion succeeded.
-/

import SysnetLinux.Routing.Ownership

namespace SysnetLinux.Routing

open CallProg CallProg.Prog List

/-! ## Removal -/

/-- `k'` is `k` with some rules of `pr` and some routes of `pa` removed. -/
structure Pruned (pr : Rule → Bool) (pa : Route → Bool) (k k' : Kernel) : Prop where
  rules_sublist : k'.rules.Sublist k.rules
  routes_sublist : k'.routes.Sublist k.routes
  rules_kept : (k'.rules.filter fun r => !pr r) = k.rules.filter fun r => !pr r
  routes_kept : (k'.routes.filter fun a => !pa a) = k.routes.filter fun a => !pa a

/-- What is outside a larger set is outside a smaller one. -/
theorem filter_not_of_imp {α : Type} {p q : α → Bool} (h : ∀ x, p x = true → q x = true)
    (l : List α) : (l.filter fun x => !q x) = (l.filter fun x => !p x).filter fun x => !q x := by
  rw [filter_filter]
  refine filter_congr fun x _ => ?_
  cases hp : p x with
  | false => simp
  | true => simp [h x hp]

namespace Pruned

variable {pr pr' : Rule → Bool} {pa pa' : Route → Bool} {k k' k'' : Kernel}

theorem refl (k : Kernel) : Pruned pr pa k k :=
  ⟨List.Sublist.refl _, List.Sublist.refl _, rfl, rfl⟩

section

variable (h : Pruned pr pa k k')
include h

theorem trans (h' : Pruned pr pa k' k'') : Pruned pr pa k k'' where
  rules_sublist := h'.rules_sublist.trans h.rules_sublist
  routes_sublist := h'.routes_sublist.trans h.routes_sublist
  rules_kept := h'.rules_kept.trans h.rules_kept
  routes_kept := h'.routes_kept.trans h.routes_kept

theorem mono (hr : ∀ r, pr r = true → pr' r = true) (ha : ∀ a, pa a = true → pa' a = true) :
    Pruned pr' pa' k k' where
  rules_sublist := h.rules_sublist
  routes_sublist := h.routes_sublist
  rules_kept := by rw [filter_not_of_imp hr, h.rules_kept, ← filter_not_of_imp hr]
  routes_kept := by rw [filter_not_of_imp ha, h.routes_kept, ← filter_not_of_imp ha]

theorem mem_rules {r : Rule} (hr : pr r = false) : r ∈ k'.rules ↔ r ∈ k.rules := by
  have hmem : r ∈ (k'.rules.filter fun r => !pr r) ↔ r ∈ k.rules.filter fun r => !pr r := by
    rw [h.rules_kept]
  simpa [hr] using hmem

theorem rules_eq (hnone : ∀ r ∈ k'.rules, pr r = false) :
    k'.rules = k.rules.filter fun r => !pr r := by
  rw [← h.rules_kept, filter_eq_self.mpr]
  intro r hr
  simp [hnone r hr]

theorem routes_eq (hnone : ∀ a ∈ k'.routes, pa a = false) :
    k'.routes = k.routes.filter fun a => !pa a := by
  rw [← h.routes_kept, filter_eq_self.mpr]
  intro a ha
  simp [hnone a ha]

end

end Pruned

theorem pruned_without (k : Kernel) (pr : Rule → Bool) (pa : Route → Bool) :
    Pruned pr pa k (k.without pr pa) where
  rules_sublist := filter_sublist
  routes_sublist := filter_sublist
  rules_kept := by simp [filter_filter]
  routes_kept := by simp [filter_filter]

/-- The call deletes at most a rule of `pr` or a route of `pa`. -/
def Deletes (pr : Rule → Prop) (pa : Route → Prop) : AdapterCall → Prop
  | .deleteRule r => pr r
  | .deleteRoute a => pa a
  | .addRule _ => False
  | .replaceRoute _ => False
  | _ => True

theorem Deletes.mono {pr pr' : Rule → Prop} {pa pa' : Route → Prop}
    (hr : ∀ r, pr r → pr' r) (ha : ∀ a, pa a → pa' a) {c : AdapterCall}
    (h : Deletes pr pa c) : Deletes pr' pa' c := by
  cases c with
  | deleteRule r => exact hr r h
  | deleteRoute a => exact ha a h
  | _ => exact h

abbrev noRule : Rule → Bool := fun _ => false
abbrev noRoute : Route → Bool := fun _ => false

/-- The program removes rules of `pr` and routes of `pa` only, and without an
    error none of them is left.  It deletes nothing that was not there. -/
def Sweeps (p : AdapterProg (List Cause)) (pr : Rule → Bool) (pa : Route → Bool) : Prop :=
  ∀ k, wp adapter
    (fun c k' => Deletes (fun e => ∃ r ∈ k.rules, pr r = true ∧ listedRule r = e)
        (fun a => a ∈ k.routes ∧ pa a = true) c ∧ Pruned pr pa k k')
    (fun errs k' => Pruned pr pa k k' ∧ (errs = [] → k' = k.without pr pa)) p k

variable {pr : Rule → Bool} {pa : Route → Bool} {k : Kernel} {e : Rule}
    {I : AdapterCall → Kernel → Prop}

/-- When nothing of `pr` and `pa` is left, the kernel is `k` without them. -/
theorem Pruned.eq_without {k' : Kernel} (h : Pruned pr pa k k') (hr : ∀ r ∈ k'.rules, pr r = false)
    (ha : ∀ a ∈ k'.routes, pa a = false) : k' = k.without pr pa :=
  Kernel.ext (h.rules_eq hr) (h.routes_eq ha)

/-! ## Flushing a table -/

def inTable (family table : Int) (a : Route) : Bool := decide (a.family = family ∧ a.table = table)

theorem pruned_deleteRoute {a : Route} (ha : pa a = true) : Pruned pr pa k (k.deleteRoute a) where
  rules_sublist := List.Sublist.refl _
  routes_sublist := k.deleteRoute_sublist a
  rules_kept := rfl
  routes_kept := Kernel.filter_deleteRoute (by simp [ha])

/-- `flushTableFamily` removes routes of the table only; without an error none of them is left. -/
theorem sweeps_flushTableFamily (family table : Int) :
    Sweeps (flushTableFamily family table) noRule (inTable family table) := by
  intro k
  rw [flushTableFamily, wp_call_faulty]
  refine ⟨⟨trivial, Pruned.refl k⟩, ?_, fun e => ⟨Pruned.refl k, by simp⟩⟩
  -- behind a round without errors only the routes still to do are left in the table
  refine wp_post ?_ (wp_collect (fun errs rest k' => Pruned noRule (inTable family table) k k' ∧
      (∀ a ∈ rest, a ∈ k.routes ∧ inTable family table a) ∧
      (errs = [] → ∀ a ∈ k'.routes, inTable family table a = true → a ∈ rest))
    (k.listRoutes family table) ?_ ?_)
  · rintro errs k' ⟨hpruned, -, hleft⟩
    refine ⟨hpruned, fun herrs => ?_⟩
    have hnone : ∀ a ∈ k'.routes, inTable family table a = false := by
      intro a ha
      by_contra hin
      exact not_mem_nil (hleft herrs a ha (by simpa using hin))
    exact hpruned.eq_without (fun r _ => rfl) hnone
  · rintro errs a rest k' ⟨hpruned, hrest, hleft⟩
    obtain ⟨hmem, hin⟩ := hrest a mem_cons_self
    have hrest' : ∀ b ∈ rest, b ∈ k.routes ∧ inTable family table b :=
      fun b hb => hrest b (mem_cons_of_mem a hb)
    rw [deleting, wp_call_faulty]
    refine ⟨⟨⟨hmem, hin⟩, hpruned⟩, ⟨hpruned.trans (pruned_deleteRoute hin), hrest', ?_⟩,
      fun e => ⟨hpruned, hrest', by simp⟩⟩
    intro herrs b hb hbin
    obtain ⟨hne, hb'⟩ := Kernel.mem_deleteRoute.mp hb
    rcases mem_cons.mp (hleft (by simpa using herrs) b hb' hbin) with rfl | hbrest
    · exact absurd rfl hne
    · exact hbrest
  · refine ⟨Pruned.refl k, ?_, ?_⟩
    · intro a ha
      exact mem_filter.mp ha
    · intro _ a ha hin
      exact mem_filter.mpr ⟨ha, hin⟩

/-! ## Deleting the rules of a scope -/

/-- A listed entry that `deleteOwnedRules` deletes. -/
def staleEntry (s : OwnedRuleScope) (keep : List Rule) (e : Rule) : Bool :=
  s.holds e && !keepRule e keep

/-- A rule whose listed entry `deleteOwnedRules` deletes. -/
def staleRule (s : OwnedRuleScope) (keep : List Rule) (r : Rule) : Bool :=
  staleEntry s keep (listedRule r)

theorem staleEntry_family {s : OwnedRuleScope} {keep : List Rule} (h : staleEntry s keep e = true) :
    e.family = s.family := by
  rw [staleEntry, Bool.and_eq_true] at h
  exact (OwnedRuleScope.holds_iff.mp h.1).1

/-- How many rules are listed as `e`. -/
def listedCount (k : Kernel) (e : Rule) : Nat := k.rules.countP fun r => listedRule r == e

/-- A listing shows an entry as often as there are rules listed so. -/
theorem count_listRules (k : Kernel) {family : Int} (he : e.family = family) :
    (k.listRules family).count e = listedCount k e := by
  rw [Kernel.listRules, List.count, countP_map, countP_filter, listedCount]
  refine countP_congr fun r _ => ?_
  simp only [Function.comp, Bool.and_eq_true, beq_iff_eq, decide_eq_true_eq]
  constructor
  · exact And.left
  · intro h
    exact ⟨h, by rw [← he, ← h, listedRule_family]⟩

/-- Deleting a listed entry takes one of the rules listed so. -/
theorem listedCount_deleteRule (k : Kernel) (he : listedRule e = e) :
    listedCount (k.deleteRule e) e = listedCount k e - 1 := by
  unfold listedCount Kernel.deleteRule
  split
  · rename_i hmem
    show (k.rules.erase e).countP _ = _
    rw [countP_erase]
    simp [hmem, he]
  · exact FirstMatch.countP_eraseP k.rules

theorem pruned_deleteRule {r : Rule} (hr : pr r = true)
    (hlisted : ∀ x, listedRule x = r → pr x = true) :
    Pruned pr pa k (k.deleteRule r) where
  rules_sublist := k.deleteRule_sublist r
  routes_sublist := by rw [Kernel.deleteRule_routes]
  rules_kept := Kernel.filter_deleteRule (by simp [hr]) fun x hx => by simp [hlisted x hx]
  routes_kept := by rw [Kernel.deleteRule_routes]

theorem pruned_deleteRules {rs : List Rule} (hr : ∀ r ∈ rs, pr r = true)
    (hlisted : ∀ x, listedRule x ∈ rs → pr x = true) :
    Pruned pr pa k (k.deleteRules rs) where
  rules_sublist := k.deleteRules_sublist rs
  routes_sublist := by rw [Kernel.deleteRules_routes]
  rules_kept := Kernel.filter_deleteRules (fun r hmem => by simp [hr r hmem])
    fun x hx => by simp [hlisted x hx]
  routes_kept := by rw [Kernel.deleteRules_routes]

/-- `deleteOwnedRules` removes stale rules of its scope only; without an error
    none of them is left. -/
theorem sweeps_deleteOwnedRules (s : OwnedRuleScope) (hs : s.config.Valid) (keep : List Rule) :
    Sweeps (deleteOwnedRules s.config s.family keep) (staleRule s keep) noRoute := by
  intro k
  rw [deleteOwnedRules, wp_call_faulty]
  refine ⟨⟨trivial, Pruned.refl k⟩, ?_, fun e => ⟨Pruned.refl k, by simp⟩⟩
  refine wp_post ?_ (wp_collect (fun errs rest k' => Pruned (staleRule s keep) noRoute k k' ∧
      (∀ e ∈ rest, ∃ r ∈ k.rules, r.family = s.family ∧ listedRule r = e) ∧
      (errs = [] → ∀ e, staleEntry s keep e = true → listedCount k' e ≤ rest.count e))
    (k.listRules s.family) ?_ ?_)
  · rintro errs k' ⟨hpruned, -, hcount⟩
    refine ⟨hpruned, fun herrs => ?_⟩
    have hnone : ∀ r ∈ k'.rules, staleRule s keep r = false := by
      intro r hr
      by_contra hstale
      rw [Bool.not_eq_false] at hstale
      have hzero : listedCount k' (listedRule r) = 0 := by
        have hle := hcount herrs (listedRule r) hstale
        rw [count_nil] at hle
        omega
      have hne := countP_eq_zero.mp hzero r hr
      simp at hne
    exact hpruned.eq_without hnone fun a _ => rfl
  · rintro errs e rest k' ⟨hpruned, hrest, hcount⟩
    obtain ⟨r, hr, hfam, hre⟩ := hrest e mem_cons_self
    have hrest' : ∀ x ∈ rest, ∃ r ∈ k.rules, r.family = s.family ∧ listedRule r = x :=
      fun x hx => hrest x (mem_cons_of_mem e hx)
    have hlisted : listedRule e = e := by rw [← hre, listedRule_listedRule]
    by_cases hstale : staleEntry s keep e = true
    · have hrstale : staleRule s keep r = true := by rw [staleRule, hre, hstale]
      rw [if_neg ?_, if_neg ?_, deleting, wp_call_faulty]
      · refine ⟨⟨⟨r, hr, hrstale, hre⟩, hpruned⟩, ⟨?_, hrest', ?_⟩,
          fun e' => ⟨hpruned, hrest', by simp⟩⟩
        · refine hpruned.trans (pruned_deleteRule ?_ ?_)
          · rw [staleRule, hlisted, hstale]
          · intro x hx
            rw [staleRule, hx, hstale]
        · intro herrs x hx
          have hle := hcount (by simpa using herrs) x hx
          rw [count_cons] at hle
          by_cases hxe : x = e
          · subst hxe
            have hdec := listedCount_deleteRule k' hlisted
            rw [if_pos (beq_self_eq_true x)] at hle
            show listedCount (k'.deleteRule x) x ≤ _
            omega
          · rw [if_neg (by simpa using fun h => hxe h.symm)] at hle
            exact le_trans ((k'.deleteRule_sublist e).countP_le) hle
      all_goals
        simp only [staleEntry, Bool.and_eq_true, Bool.not_eq_true', OwnedRuleScope.holds_iff]
          at hstale
      · simp [hstale.2]
      · rw [hs.intAdd_span]
        omega
    · -- a skipped entry leaves the count of every stale one alone
      have hskip : Pruned (staleRule s keep) noRoute k k' ∧
          (∀ x ∈ rest, ∃ r ∈ k.rules, r.family = s.family ∧ listedRule r = x) ∧
          (errs ++ [] = [] → ∀ x, staleEntry s keep x = true →
            listedCount k' x ≤ rest.count x) := by
        refine ⟨hpruned, hrest', fun herrs x hx => ?_⟩
        have hle := hcount (by simpa using herrs) x hx
        have hxe : e ≠ x := fun h => hstale (h ▸ hx)
        rwa [count_cons_of_ne hxe] at hle
      split
      · exact hskip
      · split
        · exact hskip
        · rename_i hrange hkeep
          exfalso
          apply hstale
          rw [hs.intAdd_span] at hrange
          simp only [staleEntry, Bool.and_eq_true, Bool.not_eq_true', OwnedRuleScope.holds_iff]
          refine ⟨⟨by rw [← hre, listedRule_family, hfam], by omega, by omega⟩, by simpa using hkeep⟩
  · refine ⟨Pruned.refl k, ?_, ?_⟩
    · intro e he
      obtain ⟨r, hr, hre⟩ := mem_map.mp he
      obtain ⟨hr, hfam⟩ := mem_filter.mp hr
      exact ⟨r, hr, by simpa using hfam, hre⟩
    · intro _ e he
      exact le_of_eq (count_listRules k (staleEntry_family he)).symm

/-! ## Sweeps one after the other -/

section Sequence

variable {β : Type} {f : β → AdapterProg (List Cause)} {pr : β → Rule → Bool}
  {pa : β → Route → Bool}

/-- The rules, or routes, of one of the items. -/
def anyOf {α : Type} (p : β → α → Bool) (xs : List β) (y : α) : Bool := xs.any fun x => p x y

variable {α : Type} {x : β} {xs : List β}

theorem anyOf_cons_left {p : β → α → Bool} {y : α} (h : p x y = true) :
    anyOf p (x :: xs) y = true := by
  simp [anyOf, h]

theorem anyOf_cons_right {p : β → α → Bool} {y : α} (h : anyOf p xs y = true) :
    anyOf p (x :: xs) y = true := by
  rw [anyOf] at h ⊢
  rw [any_cons, h, Bool.or_true]

theorem Pruned.anyOf_left {k k' : Kernel} (h : Pruned (pr x) (pa x) k k') :
    Pruned (anyOf pr (x :: xs)) (anyOf pa (x :: xs)) k k' :=
  h.mono (fun _ => anyOf_cons_left) fun _ => anyOf_cons_left

theorem Pruned.anyOf_right {k k' : Kernel} (h : Pruned (anyOf pr xs) (anyOf pa xs) k k') :
    Pruned (anyOf pr (x :: xs)) (anyOf pa (x :: xs)) k k' :=
  h.mono (fun _ => anyOf_cons_right) fun _ => anyOf_cons_right

/-- Joining the errors of all rounds, sweeps add up. -/
theorem Sweeps.collect (xs : List β) (h : ∀ x ∈ xs, Sweeps (f x) (pr x) (pa x)) :
    Sweeps (collect f xs) (anyOf pr xs) (anyOf pa xs) := by
  induction xs with
  | nil => exact fun k => ⟨Pruned.refl k, fun _ => k.without_none.symm⟩
  | cons x xs ih =>
    intro k
    have hx := h x mem_cons_self k
    have hxs := ih fun y hy => h y (mem_cons_of_mem x hy)
    rw [Prog.collect, wp_bind]
    refine wp_mono ?_ ?_ hx
    · rintro c k' ⟨hdel, hpruned⟩
      refine ⟨hdel.mono ?_ ?_, hpruned.anyOf_left⟩
      · rintro e ⟨r, hr, hpr, he⟩
        exact ⟨r, hr, anyOf_cons_left hpr, he⟩
      · rintro a ⟨ha, hpa⟩
        exact ⟨ha, anyOf_cons_left hpa⟩
    · rintro errs k' ⟨hpruned, hdone⟩
      rw [wp_bind]
      refine wp_mono ?_ ?_ (hxs k')
      · rintro c k'' ⟨hdel, hpruned'⟩
        refine ⟨hdel.mono ?_ ?_, hpruned.anyOf_left.trans hpruned'.anyOf_right⟩
        · rintro e ⟨r, hr, hpr, he⟩
          exact ⟨r, hpruned.rules_sublist.subset hr, anyOf_cons_right hpr, he⟩
        · rintro a ⟨ha, hpa⟩
          exact ⟨hpruned.routes_sublist.subset ha, anyOf_cons_right hpa⟩
      · rintro errs' k'' ⟨hpruned', hdone'⟩
        refine ⟨hpruned.anyOf_left.trans hpruned'.anyOf_right, fun herrs => ?_⟩
        obtain ⟨he, he'⟩ := append_eq_nil_iff.mp herrs
        rw [hdone' he', hdone he, Kernel.without_without]
        rfl

/-- An error is wrapped as the flag `guardInstalled` says. -/
def FailsAs {α : Type} (guardInstalled : Bool) (r : Except RoutingError α) : Prop :=
  ∀ e, r = .error e →
    e.sentinel = if guardInstalled then some .errApplyFailedGuardActive else none

theorem failsAs_ok (b : Bool) (a : α) : FailsAs b (.ok a) := by
  rintro e ⟨⟩

theorem failsAs_fail (b : Bool) (causes : List Cause) :
    FailsAs b (.error (fail b causes) : Except RoutingError α) := by
  rintro e ⟨⟩
  rfl

/-- Leaving at the first error, sweeps add up as well. -/
theorem wp_forEach_sweeps (b : Bool) (xs : List β) (h : ∀ x ∈ xs, Sweeps (f x) (pr x) (pa x))
    (k : Kernel) :
    wp adapter (fun _ k' => Pruned (anyOf pr xs) (anyOf pa xs) k k')
      (fun r k' => FailsAs b r ∧ Pruned (anyOf pr xs) (anyOf pa xs) k k' ∧
        (r = .ok () → k' = k.without (anyOf pr xs) (anyOf pa xs)))
      (forEach (fun x => orFail b (f x)) xs) k := by
  induction xs generalizing k with
  | nil => exact ⟨failsAs_ok b (), Pruned.refl k, fun _ => k.without_none.symm⟩
  | cons x xs ih =>
    have hxs := ih fun y hy => h y (mem_cons_of_mem x hy)
    rw [forEach]
    apply wp_andThen
    rw [orFail, wp_bind]
    refine wp_mono (fun c k' hc => hc.2.anyOf_left) ?_ (h x mem_cons_self k)
    rintro errs k' ⟨hpruned, hdone⟩
    cases errs with
    | cons cause causes =>
      refine ⟨failsAs_fail b _, hpruned.anyOf_left, ?_⟩
      rintro ⟨⟩
    | nil =>
      show wp adapter _ _ (forEach (fun x => orFail b (f x)) xs) k'
      refine wp_mono (fun c k'' hc => hpruned.anyOf_left.trans (Pruned.anyOf_right hc)) ?_ (hxs k')
      rintro r k'' ⟨hfail, hpruned', hdone'⟩
      refine ⟨hfail, hpruned.anyOf_left.trans hpruned'.anyOf_right, fun hr => ?_⟩
      rw [hdone' hr, hdone rfl, Kernel.without_without]
      rfl

end Sequence

/-! ## Loops of single calls -/

/-- A loop of single calls visits the states behind its prefixes. -/
theorem wp_callEach {β : Type} {Q : Except RoutingError Unit → Kernel → Prop} (b : Bool)
    (mk : β → AdapterCall) (wrap : β → AdapterError → Cause) (xs : List β) (k : Kernel)
    (hI : ∀ done x rest, xs = done ++ x :: rest →
      I (mk x) (done.foldl (fun k y => (Kernel.act (mk y) k).2) k))
    (herr : ∀ done x rest causes, xs = done ++ x :: rest →
      Q (.error (fail b causes)) (done.foldl (fun k y => (Kernel.act (mk y) k).2) k))
    (hok : Q (.ok ()) (xs.foldl (fun k y => (Kernel.act (mk y) k).2) k)) :
    wp adapter I Q (callEach b mk wrap xs) k :=
  wp_forEach_attempt mk (fun x e => fail b [wrap x e]) xs hI
    (fun done x rest e hxs => herr done x rest [wrap x e] hxs) hok

/-- The guards go in one after the other; the flag is set by the first. -/
theorem wp_installGuards {Q : Except RoutingError Bool → Kernel → Prop} (b : Bool)
    (guards : List Rule) (k : Kernel)
    (hI : ∀ done g rest, guards = done ++ g :: rest → I (.addRule g) (k.addRules done))
    (herr : ∀ done g rest causes, guards = done ++ g :: rest →
      Q (.error (fail (b || !done.isEmpty) causes)) (k.addRules done))
    (hok : Q (.ok (b || !guards.isEmpty)) (k.addRules guards)) :
    wp adapter I Q (installGuards b guards) k := by
  induction guards generalizing b k with
  | nil => simpa [installGuards] using hok
  | cons g guards ih =>
    rw [installGuards, wp_call_faulty]
    refine ⟨hI [] g guards rfl, ?_, fun e => by simpa using herr [] g guards [.installGuard e] rfl⟩
    refine ih true (k.addRule g) ?_ ?_ ?_
    · intro done g' rest hsplit
      exact hI (g :: done) g' rest (by rw [hsplit]; rfl)
    · intro done g' rest causes hsplit
      simpa using herr (g :: done) g' rest causes (by rw [hsplit]; rfl)
    · simpa using hok

/-- The snapshot lists the main table of each family, and changes nothing. -/
theorem wp_snapshotMain {Q : Except Cause Snapshot → Kernel → Prop} (config : Config) (k : Kernel)
    (hI : ∀ f ∈ familyConstants config.families, I (.listRoutes f rtTableMain) k)
    (herr : ∀ cause, Q (.error cause) k)
    (hok : Q (.ok ⟨(familyConstants config.families).flatMap fun f =>
      k.listRoutes f rtTableMain⟩) k) :
    wp adapter I Q (snapshotMain config) k := by
  suffices h : ∀ (families : List Int) (acc : List Route),
      (∀ f ∈ families, I (.listRoutes f rtTableMain) k) →
      Q (.ok ⟨acc ++ families.flatMap fun f => k.listRoutes f rtTableMain⟩) k →
      wp adapter I Q (snapshotFamilies acc families) k from
    h _ [] hI hok
  intro families
  induction families with
  | nil =>
    intro acc _ hQ
    simpa [snapshotFamilies] using hQ
  | cons f families ih =>
    intro acc hI' hQ
    rw [snapshotFamilies, wp_call_faulty]
    refine ⟨hI' f mem_cons_self, ?_, fun e => herr _⟩
    refine ih _ (fun g hg => hI' g (mem_cons_of_mem f hg)) ?_
    show Q (.ok ⟨(acc ++ k.listRoutes f rtTableMain) ++ _⟩) k
    rw [append_assoc]
    exact hQ

end SysnetLinux.Routing
