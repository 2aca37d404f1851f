/-
  SysnetLinux.Routing.Kernel

  The kernel state the manager works on, the calls of `netlinkAdapter`
  (`routing/adapter.go`) and the decision the kernel takes for a packet.

  Rules are kept in priority order, equal priorities in the order of insertion;
  adding an existing rule or deleting a missing entry changes nothing, which is
  what the adapter makes of `EEXIST` and `ESRCH`.  The listing of rules is the
  lossy one `listedRule` of `routing/manager.go` describes.
-/

import Mathlib.Data.Finset.Basic
import SysnetLinux.Lib.FirstMatch
import SysnetLinux.Lib.Prog
import SysnetLinux.Routing.Config

namespace SysnetLinux.Routing

open Netip List

/-! ## State -/

/-- The rules and routes of all families. -/
@[ext] structure Kernel where
  rules : List Rule
  routes : List Route
  ordered : FirstMatch.Ordered Rule.priority rules
  rules_nodup : rules.Nodup
  routes_nodup : routes.Nodup
  deriving DecidableEq

/-- A rule as a listing shows it: the action and an eight-bit table are lost. -/
def listedRule (rule : Rule) : Rule :=
  { rule with action := .lookup, table := if rule.table < 256 then 0 else rule.table }

@[simp] theorem listedRule_listedRule (r : Rule) : listedRule (listedRule r) = listedRule r := by
  unfold listedRule
  by_cases h : r.table < 256 <;> simp [h]

@[simp] theorem listedRule_family (r : Rule) : (listedRule r).family = r.family := rfl

@[simp] theorem listedRule_priority (r : Rule) : (listedRule r).priority = r.priority := rfl

variable {r : Rule}

theorem family_of_listed {x : Rule} (h : listedRule r = listedRule x) : r.family = x.family := by
  rw [← listedRule_family r, h, listedRule_family]

theorem priority_of_listed {x : Rule} (h : listedRule r = listedRule x) :
    r.priority = x.priority := by
  rw [← listedRule_priority r, h, listedRule_priority]

namespace Kernel

variable {k : Kernel} {r x : Rule} {a b : Route}

def empty : Kernel := ⟨[], [], List.Pairwise.nil, nodup_nil, nodup_nil⟩

def addRule (k : Kernel) (r : Rule) : Kernel :=
  if h : r ∈ k.rules then k
  else { k with
    rules := FirstMatch.insert Rule.priority r k.rules
    ordered := FirstMatch.ordered_insert k.ordered
    rules_nodup := FirstMatch.nodup_insert k.rules_nodup h }

/-- The rules left when a sublist of them stays. -/
def restrict (k : Kernel) (rules : List Rule) (h : rules.Sublist k.rules) : Kernel :=
  { k with
    rules := rules
    ordered := FirstMatch.ordered_sublist k.ordered h
    rules_nodup := k.rules_nodup.sublist h }

/-- A rule given in full is removed; otherwise the first rule that is listed as the given entry. -/
def deleteRule (k : Kernel) (r : Rule) : Kernel :=
  if r ∈ k.rules then k.restrict (k.rules.erase r) erase_sublist
  else k.restrict (k.rules.eraseP fun x => listedRule x == r) eraseP_sublist

def replaceRoute (k : Kernel) (a : Route) : Kernel :=
  if h : a ∈ k.routes then k
  else { k with
    routes := k.routes ++ [a]
    routes_nodup := nodup_append_comm.mp (by simpa using ⟨h, k.routes_nodup⟩) }

def deleteRoute (k : Kernel) (a : Route) : Kernel :=
  { k with
    routes := k.routes.erase a
    routes_nodup := k.routes_nodup.sublist erase_sublist }

def listRules (k : Kernel) (family : Int) : List Rule :=
  (k.rules.filter fun r => r.family = family).map listedRule

/-- The routes of one table of a family. -/
def listRoutes (k : Kernel) (family table : Int) : List Route :=
  k.routes.filter fun a => a.family = family ∧ a.table = table

/-! ## What each operation changes -/

@[simp] theorem addRule_routes (k : Kernel) (r : Rule) : (k.addRule r).routes = k.routes := by
  unfold addRule
  split <;> rfl

@[simp] theorem deleteRule_routes (k : Kernel) (r : Rule) : (k.deleteRule r).routes = k.routes := by
  unfold deleteRule restrict
  split <;> rfl

@[simp] theorem replaceRoute_rules (k : Kernel) (a : Route) :
    (k.replaceRoute a).rules = k.rules := by
  unfold replaceRoute
  split <;> rfl

@[simp] theorem mem_addRule : x ∈ (k.addRule r).rules ↔ x = r ∨ x ∈ k.rules := by
  unfold addRule
  split
  · rename_i h
    constructor
    · exact .inr
    · rintro (rfl | hx)
      · exact h
      · exact hx
  · exact FirstMatch.mem_insert

theorem addRule_of_mem (h : r ∈ k.rules) : k.addRule r = k := dif_pos h

variable {p : Rule → Bool} {rs : List Rule}

/-- An added rule does not show in a part of the rules it is not in. -/
theorem filter_addRule (h : p r = false) : (k.addRule r).rules.filter p = k.rules.filter p := by
  unfold addRule
  split
  · rfl
  · exact FirstMatch.filter_insert_of_neg h

theorem deleteRule_sublist (k : Kernel) (r : Rule) : (k.deleteRule r).rules.Sublist k.rules := by
  unfold deleteRule restrict
  split
  · exact erase_sublist
  · exact eraseP_sublist

/-- A rule of the kernel given in full is the one that goes. -/
theorem mem_deleteRule (h : r ∈ k.rules) : x ∈ (k.deleteRule r).rules ↔ x ≠ r ∧ x ∈ k.rules := by
  unfold deleteRule
  rw [if_pos h]
  exact k.rules_nodup.mem_erase_iff

theorem not_mem_deleteRule (k : Kernel) (r : Rule) : r ∉ (k.deleteRule r).rules := by
  by_cases h : r ∈ k.rules
  · exact fun hr => ((mem_deleteRule h).mp hr).1 rfl
  · exact fun hr => h ((deleteRule_sublist k r).subset hr)

/-- A part of the rules that holds neither the deleted rule nor one listed as it stays. -/
theorem filter_deleteRule (hr : p r = false) (h : ∀ x, listedRule x = r → p x = false) :
    (k.deleteRule r).rules.filter p = k.rules.filter p := by
  unfold deleteRule
  split
  · show (k.rules.erase r).filter p = _
    rw [erase_eq_eraseP]
    apply FirstMatch.filter_eraseP_of_neg
    intro x hx
    rw [← beq_iff_eq.mp hx]
    exact hr
  · apply FirstMatch.filter_eraseP_of_neg
    intro x hx
    exact h x (beq_iff_eq.mp hx)

@[simp] theorem mem_replaceRoute : b ∈ (k.replaceRoute a).routes ↔ b = a ∨ b ∈ k.routes := by
  unfold replaceRoute
  split
  · rename_i h
    constructor
    · exact .inr
    · rintro (rfl | hb)
      · exact h
      · exact hb
  · simp [or_comm]

@[simp] theorem mem_deleteRoute : b ∈ (k.deleteRoute a).routes ↔ b ≠ a ∧ b ∈ k.routes :=
  k.routes_nodup.mem_erase_iff

theorem deleteRoute_sublist (k : Kernel) (a : Route) :
    (k.deleteRoute a).routes.Sublist k.routes := erase_sublist

theorem filter_replaceRoute {p : Route → Bool} (h : p a = false) :
    (k.replaceRoute a).routes.filter p = k.routes.filter p := by
  unfold replaceRoute
  split
  · rfl
  · simp [h]

theorem filter_deleteRoute {p : Route → Bool} (h : p a = false) :
    (k.deleteRoute a).routes.filter p = k.routes.filter p := by
  show (k.routes.erase a).filter p = _
  rw [erase_eq_eraseP]
  apply FirstMatch.filter_eraseP_of_neg
  intro x hx
  rw [← beq_iff_eq.mp hx]
  exact h

/-! ## Operations one after the other -/

def addRules (k : Kernel) (rules : List Rule) : Kernel := rules.foldl addRule k

def deleteRules (k : Kernel) (rules : List Rule) : Kernel := rules.foldl deleteRule k

def replaceRoutes (k : Kernel) (routes : List Route) : Kernel := routes.foldl replaceRoute k

@[simp] theorem addRules_nil (k : Kernel) : k.addRules [] = k := rfl

@[simp] theorem addRules_cons (k : Kernel) (r : Rule) (rs : List Rule) :
    k.addRules (r :: rs) = (k.addRule r).addRules rs := rfl

@[simp] theorem deleteRules_nil (k : Kernel) : k.deleteRules [] = k := rfl

@[simp] theorem deleteRules_cons (k : Kernel) (r : Rule) (rs : List Rule) :
    k.deleteRules (r :: rs) = (k.deleteRule r).deleteRules rs := rfl

@[simp] theorem replaceRoutes_nil (k : Kernel) : k.replaceRoutes [] = k := rfl

@[simp] theorem replaceRoutes_cons (k : Kernel) (a : Route) (as : List Route) :
    k.replaceRoutes (a :: as) = (k.replaceRoute a).replaceRoutes as := rfl

/-- The kernel without the rules of `pr` and the routes of `pa`. -/
def without (k : Kernel) (pr : Rule → Bool) (pa : Route → Bool) : Kernel :=
  { k.restrict (k.rules.filter fun r => !pr r) filter_sublist with
    routes := k.routes.filter fun a => !pa a
    routes_nodup := k.routes_nodup.sublist filter_sublist }

@[simp] theorem without_rules (k : Kernel) (pr : Rule → Bool) (pa : Route → Bool) :
    (k.without pr pa).rules = k.rules.filter fun r => !pr r := rfl

@[simp] theorem without_routes (k : Kernel) (pr : Rule → Bool) (pa : Route → Bool) :
    (k.without pr pa).routes = k.routes.filter fun a => !pa a := rfl

theorem without_none (k : Kernel) : k.without (fun _ => false) (fun _ => false) = k := by
  apply Kernel.ext <;> simp

theorem without_without (k : Kernel) (pr pr' : Rule → Bool) (pa pa' : Route → Bool) :
    (k.without pr pa).without pr' pa' =
      k.without (fun r => pr r || pr' r) (fun a => pa a || pa' a) := by
  apply Kernel.ext
  · simp only [without_rules, filter_filter]
    exact filter_congr fun r _ => by rw [Bool.not_or, Bool.and_comm]
  · simp only [without_routes, filter_filter]
    exact filter_congr fun a _ => by rw [Bool.not_or, Bool.and_comm]

@[simp] theorem addRules_routes (k : Kernel) (rs : List Rule) :
    (k.addRules rs).routes = k.routes := by
  induction rs generalizing k with
  | nil => rfl
  | cons r rs ih => exact (ih (k.addRule r)).trans (addRule_routes k r)

@[simp] theorem deleteRules_routes (k : Kernel) (rs : List Rule) :
    (k.deleteRules rs).routes = k.routes := by
  induction rs generalizing k with
  | nil => rfl
  | cons r rs ih => exact (ih (k.deleteRule r)).trans (deleteRule_routes k r)

@[simp] theorem replaceRoutes_rules (k : Kernel) (as : List Route) :
    (k.replaceRoutes as).rules = k.rules := by
  induction as generalizing k with
  | nil => rfl
  | cons a as ih => exact (ih (k.replaceRoute a)).trans (replaceRoute_rules k a)

@[simp] theorem mem_addRules : x ∈ (k.addRules rs).rules ↔ x ∈ rs ∨ x ∈ k.rules := by
  induction rs generalizing k with
  | nil => simp
  | cons r rs ih =>
    rw [addRules_cons, ih, mem_addRule, mem_cons]
    tauto

theorem filter_addRules (h : ∀ r ∈ rs, p r = false) :
    (k.addRules rs).rules.filter p = k.rules.filter p := by
  induction rs generalizing k with
  | nil => rfl
  | cons r rs ih =>
    rw [addRules_cons, ih fun y hy => h y (mem_cons_of_mem r hy),
      filter_addRule (h r mem_cons_self)]

theorem deleteRules_sublist (k : Kernel) (rs : List Rule) :
    (k.deleteRules rs).rules.Sublist k.rules := by
  induction rs generalizing k with
  | nil => exact List.Sublist.refl _
  | cons r rs ih => exact (ih (k.deleteRule r)).trans (deleteRule_sublist k r)

theorem filter_deleteRules (hr : ∀ r ∈ rs, p r = false) (h : ∀ x, listedRule x ∈ rs → p x = false) :
    (k.deleteRules rs).rules.filter p = k.rules.filter p := by
  induction rs generalizing k with
  | nil => rfl
  | cons r rs ih =>
    rw [deleteRules_cons, ih (fun y hy => hr y (mem_cons_of_mem r hy))
      (fun x hx => h x (mem_cons_of_mem r hx)),
      filter_deleteRule (hr r mem_cons_self) fun x hx => h x (by simp [hx])]

theorem mem_deleteRules_of_not_mem (hx : x ∈ k.rules) (hne : x ∉ rs) (hlisted : listedRule x ∉ rs) :
    x ∈ (k.deleteRules rs).rules := by
  have hfilter : (k.deleteRules rs).rules.filter (fun y => decide (y = x)) =
      k.rules.filter fun y => decide (y = x) := by
    apply filter_deleteRules
    · intro r hr
      rw [decide_eq_false_iff_not]
      rintro rfl
      exact hne hr
    · intro y hy
      rw [decide_eq_false_iff_not]
      rintro rfl
      exact hlisted hy
  have hmem : x ∈ k.rules.filter fun y => decide (y = x) := by simp [hx]
  rw [← hfilter] at hmem
  exact (mem_filter.mp hmem).1

theorem not_mem_deleteRules (hx : x ∈ rs) : x ∉ (k.deleteRules rs).rules := by
  induction rs generalizing k with
  | nil => cases hx
  | cons r rs ih =>
    intro hmem
    rcases mem_cons.mp hx with rfl | hx
    · exact not_mem_deleteRule k x ((deleteRules_sublist (k.deleteRule x) rs).subset hmem)
    · exact ih hx hmem

/-- Unreachable rules are deleted in full. -/
theorem mem_deleteRules_unreachable (h : ∀ r ∈ rs, r.action = .unreachable) :
    x ∈ (k.deleteRules rs).rules ↔ x ∉ rs ∧ x ∈ k.rules := by
  constructor
  · intro hx
    exact ⟨fun hmem => not_mem_deleteRules hmem hx, (deleteRules_sublist k rs).subset hx⟩
  · rintro ⟨hne, hx⟩
    refine mem_deleteRules_of_not_mem hx hne fun hlisted => ?_
    have hact := h _ hlisted
    cases hact

@[simp] theorem mem_replaceRoutes {as : List Route} :
    b ∈ (k.replaceRoutes as).routes ↔ b ∈ as ∨ b ∈ k.routes := by
  induction as generalizing k with
  | nil => simp
  | cons a as ih =>
    rw [replaceRoutes_cons, ih, mem_replaceRoute, mem_cons]
    tauto

theorem filter_replaceRoutes {as : List Route} {p : Route → Bool} (h : ∀ a ∈ as, p a = false) :
    (k.replaceRoutes as).routes.filter p = k.routes.filter p := by
  induction as generalizing k with
  | nil => rfl
  | cons a as ih =>
    rw [replaceRoutes_cons, ih fun y hy => h y (mem_cons_of_mem a hy),
      filter_replaceRoute (h a mem_cons_self)]

end Kernel

/-! ## Adapter calls -/

inductive AdapterError where
  | tunLinkNotFound
  | other (text : String)
  deriving DecidableEq, Repr

inductive AdapterCall where
  | linkByIndex (index : Int)
  | listRoutes (family table : Int)
  | replaceRoute (route : Route)
  | deleteRoute (route : Route)
  | listRules (family : Int)
  | addRule (rule : Rule)
  | deleteRule (rule : Rule)
  deriving DecidableEq

def Reply : AdapterCall → Type
  | .listRoutes _ _ => List Route
  | .listRules _ => List Rule
  | _ => Unit

/-- A call that succeeds. -/
def Kernel.act : (c : AdapterCall) → Kernel → Reply c × Kernel
  | .linkByIndex _, k => ((), k)
  | .listRoutes family table, k => (k.listRoutes family table, k)
  | .replaceRoute route, k => ((), k.replaceRoute route)
  | .deleteRoute route, k => ((), k.deleteRoute route)
  | .listRules family, k => (k.listRules family, k)
  | .addRule rule, k => ((), k.addRule rule)
  | .deleteRule rule, k => ((), k.deleteRule rule)

/-- The adapter over the kernel: a call acts, or fails and changes nothing. -/
abbrev adapter : CallProg.Handler AdapterCall Reply AdapterError Kernel :=
  CallProg.Prog.faulty Kernel.act

/-! ## Decisions -/

/-- A packet: its family and mark, and which routes lead to its destination. -/
structure Packet where
  family : Int
  mark : BitVec 32
  covers : Route → Bool

/-- A mark selector takes the packets whose mark agrees with it on the mask. -/
def selects (mark mask m : BitVec 32) : Bool := (m ^^^ mark) &&& mask == 0

/-- What becomes of a packet: it goes by a table, through one of the table's
    routes to its destination, or is dropped. -/
inductive Decision where
  | lookup (table : Int) (via : Finset Route)
  | drop
  deriving DecidableEq

/-- The routes of a table that lead to the packet's destination. -/
def candidates (routes : List Route) (p : Packet) (table : Int) : Finset Route :=
  (routes.filter fun a => a.family = p.family ∧ a.table = table ∧ p.covers a).toFinset

/-- A lookup decides if the table has a route for the packet. -/
def lookupIn (routes : List Route) (p : Packet) (table : Int) : Option Decision :=
  if candidates routes p table = ∅ then none else some (.lookup table (candidates routes p table))

def Rule.applies (r : Rule) (p : Packet) : Bool :=
  r.family == p.family && selects r.mark r.mask p.mark

/-- What one rule says about a packet; `none` lets it fall through. -/
def verdict (routes : List Route) (p : Packet) (r : Rule) : Option Decision :=
  if r.applies p then
    match r.action with
    | .lookup => lookupIn routes p r.table
    | .unreachable => some .drop
  else none

/-- The first rule that says something decides. -/
def Kernel.decision (k : Kernel) (p : Packet) : Option Decision :=
  k.rules.findSome? (verdict k.routes p)

variable {routes : List Route} {p : Packet}

theorem verdict_of_not_applies (h : r.applies p = false) : verdict routes p r = none := by
  simp [verdict, h]

theorem verdict_unreachable (happ : r.applies p = true) (hact : r.action = .unreachable) :
    verdict routes p r = some .drop := by
  simp [verdict, happ, hact]

theorem verdict_unreachable_or (hact : r.action = .unreachable) :
    verdict routes p r = none ∨ verdict routes p r = some .drop := by
  cases happ : r.applies p with
  | false => exact .inl (verdict_of_not_applies happ)
  | true => exact .inr (verdict_unreachable happ hact)

theorem table_of_verdict {table : Int} {via : Finset Route}
    (h : verdict routes p r = some (.lookup table via)) : r.table = table := by
  unfold verdict lookupIn at h
  split at h
  · cases hact : r.action with
    | unreachable =>
      rw [hact] at h
      cases h
    | lookup =>
      simp only [hact] at h
      split at h
      · cases h
      · cases h
        rfl
  · cases h

theorem selects_zero (m : BitVec 32) : selects 0 0 m = true := by
  simp [selects]

theorem candidates_congr {routes' : List Route} {table : Int}
    (h : ∀ a : Route, a.family = p.family → a.table = table → (a ∈ routes ↔ a ∈ routes')) :
    candidates routes p table = candidates routes' p table := by
  ext a
  simp only [candidates, mem_toFinset, mem_filter, decide_eq_true_eq]
  constructor
  · rintro ⟨ha, hfam, htable, hcov⟩
    exact ⟨(h a hfam htable).mp ha, hfam, htable, hcov⟩
  · rintro ⟨ha, hfam, htable, hcov⟩
    exact ⟨(h a hfam htable).mpr ha, hfam, htable, hcov⟩

/-- A rule is read through the routes of its own table only. -/
theorem verdict_congr {routes' : List Route} (h : r.action = .lookup → r.family = p.family →
      candidates routes p r.table = candidates routes' p r.table) :
    verdict routes p r = verdict routes' p r := by
  unfold verdict
  by_cases happ : r.applies p = true
  · rw [if_pos happ, if_pos happ]
    have hfam : r.family = p.family := by
      simp only [Rule.applies, Bool.and_eq_true, beq_iff_eq] at happ
      exact happ.1
    cases hact : r.action with
    | unreachable => rfl
    | lookup =>
      show lookupIn _ _ _ = lookupIn _ _ _
      simp only [lookupIn, h hact hfam]
  · rw [if_neg happ, if_neg happ]

end SysnetLinux.Routing
