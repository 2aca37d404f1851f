/-
  SysnetLinux.Killswitch.Rulesets

  The temporary rulesets of the `killswitch` client (`client.go`) and their merge.

  A Go map has no order, so `Rulesets.entries` stands for one of the orders in which an
  iteration can go through it (`mergeTMPRulesets_perm`).  The copies of `cloneAllowRules`
  are the values themselves.
-/

import Mathlib.Data.List.Sort
import Mathlib.Data.String.Basic
import SysnetLinux.Lib.Unseen

namespace SysnetLinux.Killswitch

open List

/-! ## Lists of strings -/

def uniqueSortedStrings (values : List String) : List String :=
  (Unseen.collect values).insertionSort (· ≤ ·)

theorem mem_uniqueSortedStrings {values : List String} {x : String} :
    x ∈ uniqueSortedStrings values ↔ x ∈ values := by
  unfold uniqueSortedStrings
  rw [mem_insertionSort, Unseen.mem_collect]

theorem uniqueSortedStrings_sorted (values : List String) :
    (uniqueSortedStrings values).Pairwise (· < ·) := by
  have hle : (uniqueSortedStrings values).Pairwise (· ≤ ·) := pairwise_insertionSort (· ≤ ·) _
  have hnodup : (uniqueSortedStrings values).Nodup :=
    (perm_insertionSort (· ≤ ·) _).nodup_iff.mpr (Unseen.nodup_collect values)
  exact (hle.and hnodup).imp fun h => lt_of_le_of_ne h.1 h.2

/-! ## Allow rules -/

structure AllowRules where
  allowAll : Bool
  enableV4 : Bool
  enableV6 : Bool
  allowedMarks : List String
  allowedPorts : List String
  allowedV4Hosts : List String
  allowedV6Hosts : List String
  allowedV4Pairs : List String
  allowedV6Pairs : List String
  deriving DecidableEq

/-- The zero value. -/
def AllowRules.zero : AllowRules := ⟨false, false, false, [], [], [], [], [], []⟩

/-- The fields that are flags. -/
inductive Flag where
  | allowAll
  | enableV4
  | enableV6

/-- The fields that are lists. -/
inductive Entry where
  | marks
  | ports
  | v4Hosts
  | v6Hosts
  | v4Pairs
  | v6Pairs

def AllowRules.flag (rules : AllowRules) : Flag → Bool
  | .allowAll => rules.allowAll
  | .enableV4 => rules.enableV4
  | .enableV6 => rules.enableV6

def AllowRules.entry (rules : AllowRules) : Entry → List String
  | .marks => rules.allowedMarks
  | .ports => rules.allowedPorts
  | .v4Hosts => rules.allowedV4Hosts
  | .v6Hosts => rules.allowedV6Hosts
  | .v4Pairs => rules.allowedV4Pairs
  | .v6Pairs => rules.allowedV6Pairs

def mergeAllowRules (a b : AllowRules) : AllowRules where
  allowAll := a.allowAll || b.allowAll
  enableV4 := a.enableV4 || b.enableV4
  enableV6 := a.enableV6 || b.enableV6
  allowedMarks := a.allowedMarks ++ b.allowedMarks
  allowedPorts := a.allowedPorts ++ b.allowedPorts
  allowedV4Hosts := a.allowedV4Hosts ++ b.allowedV4Hosts
  allowedV6Hosts := a.allowedV6Hosts ++ b.allowedV6Hosts
  allowedV4Pairs := a.allowedV4Pairs ++ b.allowedV4Pairs
  allowedV6Pairs := a.allowedV6Pairs ++ b.allowedV6Pairs

def normalizeAllowRules (rules : AllowRules) : AllowRules :=
  { rules with
    allowedMarks := uniqueSortedStrings rules.allowedMarks
    allowedPorts := uniqueSortedStrings rules.allowedPorts
    allowedV4Hosts := uniqueSortedStrings rules.allowedV4Hosts
    allowedV6Hosts := uniqueSortedStrings rules.allowedV6Hosts
    allowedV4Pairs := uniqueSortedStrings rules.allowedV4Pairs
    allowedV6Pairs := uniqueSortedStrings rules.allowedV6Pairs }

theorem flag_mergeAllowRules (a b : AllowRules) (f : Flag) :
    (mergeAllowRules a b).flag f = (a.flag f || b.flag f) := by
  cases f <;> rfl

theorem entry_mergeAllowRules (a b : AllowRules) (e : Entry) :
    (mergeAllowRules a b).entry e = a.entry e ++ b.entry e := by
  cases e <;> rfl

theorem flag_normalizeAllowRules (rules : AllowRules) (f : Flag) :
    (normalizeAllowRules rules).flag f = rules.flag f := by
  cases f <;> rfl

theorem entry_normalizeAllowRules (rules : AllowRules) (e : Entry) :
    (normalizeAllowRules rules).entry e = uniqueSortedStrings (rules.entry e) := by
  cases e <;> rfl

/-! ## Rulesets -/

/-- `map[uint64]AllowRules`. -/
structure Rulesets where
  entries : List (UInt64 × AllowRules)
  distinct : (entries.map Prod.fst).Nodup

namespace Rulesets

def empty : Rulesets := ⟨[], nodup_nil⟩

def contains (rs : Rulesets) (id : UInt64) : Bool := rs.entries.any fun x => x.1 == id

/-- `rulesets[id]`, with the zero value for a key that is missing. -/
def get (rs : Rulesets) (id : UInt64) : AllowRules :=
  match rs.entries.find? fun x => x.1 == id with
  | some x => x.2
  | none => .zero

def delete (rs : Rulesets) (id : UInt64) : Rulesets where
  entries := rs.entries.filter fun x => x.1 != id
  distinct := rs.distinct.sublist (filter_sublist.map _)

def insert (rs : Rulesets) (id : UInt64) (rules : AllowRules) : Rulesets where
  entries := (rs.delete id).entries ++ [(id, rules)]
  distinct := by
    rw [map_append, nodup_append]
    refine ⟨(rs.delete id).distinct, nodup_singleton id, ?_⟩
    intro x hx y hy heq
    obtain ⟨entry, hentry, rfl⟩ := mem_map.mp hx
    have hne := (mem_filter.mp hentry).2
    rw [mem_singleton.mp hy] at heq
    simp [heq] at hne

theorem get_of_mem (rs : Rulesets) {x : UInt64 × AllowRules} (h : x ∈ rs.entries) :
    rs.get x.1 = x.2 := by
  unfold get
  split
  · rename_i y hfind
    have hy := mem_of_find?_eq_some hfind
    have hid : y.1 = x.1 := by simpa using find?_some hfind
    rw [inj_on_of_nodup_map rs.distinct hy h hid]
  · rename_i hnone
    exact absurd (find?_eq_none.mp hnone x h) (by simp)

end Rulesets

structure MergedTMPRuleset where
  interfaces : List String
  policy : AllowRules
  deriving DecidableEq

/-- The identifiers in ascending order. -/
def Rulesets.ids (rs : Rulesets) : List UInt64 :=
  (rs.entries.map Prod.fst).insertionSort (· ≤ ·)

/-- The loop of `mergeTMPRulesets` over the sorted identifiers. -/
def mergePolicies (rs : Rulesets) (ids : List UInt64) : AllowRules :=
  ids.foldl (fun policy id => mergeAllowRules policy (rs.get id)) .zero

def mergeTMPRulesets (rs : Rulesets) (interfaces : List String) : Option MergedTMPRuleset :=
  if rs.entries.isEmpty || interfaces.isEmpty then none
  else
    some
      { interfaces := interfaces
        policy := normalizeAllowRules
          (mergePolicies rs rs.ids) }

/-! ## What the merge contains -/

theorem flag_foldl (rs : Rulesets) (ids : List UInt64) (policy : AllowRules) (f : Flag) :
    (ids.foldl (fun policy id => mergeAllowRules policy (rs.get id)) policy).flag f =
      (policy.flag f || ids.any fun id => (rs.get id).flag f) := by
  induction ids generalizing policy with
  | nil => simp
  | cons id ids ih => rw [foldl_cons, ih, flag_mergeAllowRules, any_cons, Bool.or_assoc]

theorem entry_foldl (rs : Rulesets) (ids : List UInt64) (policy : AllowRules) (e : Entry) :
    (ids.foldl (fun policy id => mergeAllowRules policy (rs.get id)) policy).entry e =
      policy.entry e ++ ids.flatMap fun id => (rs.get id).entry e := by
  induction ids generalizing policy with
  | nil => simp
  | cons id ids ih =>
    rw [foldl_cons, ih, entry_mergeAllowRules, flatMap_cons, append_assoc]

/-- Every ruleset is one of those that the sorted identifiers stand for. -/
theorem exists_id_iff (rs : Rulesets) (q : AllowRules → Prop) :
    (∃ id ∈ rs.ids, q (rs.get id)) ↔ ∃ x ∈ rs.entries, q x.2 := by
  constructor
  · rintro ⟨id, hid, hq⟩
    obtain ⟨x, hx, rfl⟩ := mem_map.mp ((mem_insertionSort _).mp hid)
    exact ⟨x, hx, rs.get_of_mem hx ▸ hq⟩
  · rintro ⟨x, hx, hq⟩
    refine ⟨x.1, (mem_insertionSort _).mpr (mem_map_of_mem hx), ?_⟩
    rw [rs.get_of_mem hx]
    exact hq

/-- The flags of a merge are set where one of the rulesets sets them, and its lists are
    the sorted unions of theirs. -/
structure Merges (rs : Rulesets) (interfaces : List String) (m : MergedTMPRuleset) : Prop where
  interfaces : m.interfaces = interfaces
  flag : ∀ f, m.policy.flag f = rs.entries.any fun x => x.2.flag f
  sorted : ∀ e, (m.policy.entry e).Pairwise (· < ·)
  union : ∀ e value, value ∈ m.policy.entry e ↔ ∃ x ∈ rs.entries, value ∈ x.2.entry e

theorem merges_mergeTMPRulesets {rs : Rulesets} {interfaces : List String}
    {m : MergedTMPRuleset} (h : mergeTMPRulesets rs interfaces = some m) :
    Merges rs interfaces m := by
  unfold mergeTMPRulesets at h
  split at h
  · cases h
  obtain rfl := Option.some.inj h
  refine ⟨rfl, fun f => ?_, fun e => ?_, fun e value => ?_⟩
  · have hzero : AllowRules.zero.flag f = false := by cases f <;> rfl
    rw [flag_normalizeAllowRules, mergePolicies, flag_foldl, hzero, Bool.false_or,
      Bool.eq_iff_iff, any_eq_true, any_eq_true]
    exact exists_id_iff rs fun rules => rules.flag f = true
  · rw [entry_normalizeAllowRules]
    exact uniqueSortedStrings_sorted _
  · have hzero : AllowRules.zero.entry e = [] := by cases e <;> rfl
    rw [entry_normalizeAllowRules, mem_uniqueSortedStrings, mergePolicies, entry_foldl, hzero,
      nil_append, mem_flatMap]
    exact exists_id_iff rs fun rules => value ∈ rules.entry e

/-- The order in which the map is iterated over makes no difference. -/
theorem mergeTMPRulesets_perm {rs rs' : Rulesets} (h : rs.entries.Perm rs'.entries)
    (interfaces : List String) :
    mergeTMPRulesets rs interfaces = mergeTMPRulesets rs' interfaces := by
  have hids : rs.ids = rs'.ids := by
    have hperm : rs.ids.Perm rs'.ids :=
      (perm_insertionSort _ _).trans ((h.map Prod.fst).trans (perm_insertionSort _ _).symm)
    exact hperm.eq_of_pairwise (fun a b _ _ => UInt64.le_antisymm)
      (pairwise_insertionSort (· ≤ ·) _) (pairwise_insertionSort (· ≤ ·) _)
  have hget : rs.get = rs'.get := by
    funext id
    by_cases hid : id ∈ rs.entries.map Prod.fst
    · obtain ⟨x, hx, rfl⟩ := mem_map.mp hid
      rw [rs.get_of_mem hx, rs'.get_of_mem (h.mem_iff.mp hx)]
    · have hnone : ∀ r : Rulesets, id ∉ r.entries.map Prod.fst → r.get id = .zero := by
        intro r hr
        unfold Rulesets.get
        split
        · rename_i y hfind
          have hy := mem_of_find?_eq_some hfind
          have hkey : y.1 = id := by simpa using find?_some hfind
          exact absurd (hkey ▸ mem_map_of_mem hy) hr
        · rfl
      have hid' : id ∉ rs'.entries.map Prod.fst := fun hmem =>
        hid ((h.map Prod.fst).mem_iff.mpr hmem)
      rw [hnone rs hid, hnone rs' hid']
  have hempty : rs.entries.isEmpty = rs'.entries.isEmpty := by
    rw [Bool.eq_iff_iff, List.isEmpty_iff, List.isEmpty_iff]
    constructor
    · intro hnil
      exact (hnil ▸ h).nil_eq.symm
    · intro hnil
      exact (hnil ▸ h.symm).nil_eq.symm
  unfold mergeTMPRulesets mergePolicies
  rw [hids, hget, hempty]

end SysnetLinux.Killswitch
