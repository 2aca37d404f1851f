/-
  SysnetLinux.Lib.Compare

  Sorting by a comparison function.

  A comparison that is transitive and tells any two elements apart leaves a sort no choice:
  every sorted arrangement of a list is the one insertion sort gives (`sorted_unique`), so
  neither an unstable sort nor the order of the input shows in the result.  Where elements
  tie, insertion sort keeps them in the order of the input (`filter_insertionSort`).
-/

import Mathlib.Data.List.Sort

namespace Compare

open List

variable {α β : Type} (cmp : α → α → Ordering)

/-- Comparing by what a function reads off the elements. -/
theorem transCmp_on [Std.TransCmp cmp] (f : β → α) : Std.TransCmp fun a b => cmp (f a) (f b) where
  eq_swap := Std.OrientedCmp.eq_swap
  isLE_trans := Std.TransCmp.isLE_trans

/-- The order a sort puts its elements in: no later element is below an earlier one. -/
def NotAbove (a b : α) : Prop := cmp a b ≠ .gt

instance : DecidableRel (NotAbove cmp) := fun a b => inferInstanceAs (Decidable (cmp a b ≠ .gt))

variable {cmp}

theorem notAbove_iff {a b : α} : NotAbove cmp a b ↔ (cmp a b).isLE = true := by
  simp only [NotAbove]
  cases cmp a b <;> simp [Ordering.isLE]

instance [Std.TransCmp cmp] : IsTrans α (NotAbove cmp) where
  trans _ _ _ hab hbc :=
    notAbove_iff.mpr (Std.TransCmp.isLE_trans (notAbove_iff.mp hab) (notAbove_iff.mp hbc))

instance [Std.OrientedCmp cmp] : Std.Total (NotAbove cmp) where
  total a b := by
    have hswap : cmp b a = (cmp a b).swap := Std.OrientedCmp.eq_swap
    simp only [NotAbove, hswap]
    cases cmp a b <;> simp

theorem eq_of_notAbove [Std.OrientedCmp cmp] {a b : α} (hab : NotAbove cmp a b)
    (hba : NotAbove cmp b a) : cmp a b = .eq := by
  have hswap : cmp b a = (cmp a b).swap := Std.OrientedCmp.eq_swap
  rw [NotAbove, hswap] at hba
  cases hcmp : cmp a b with
  | lt => exact absurd (by rw [hcmp]; rfl) hba
  | eq => rfl
  | gt => exact absurd hcmp hab

/-- Elements that compare equal keep the order of the input. -/
theorem filter_insertionSort {l : List α} {tied : α → Bool}
    (h : ∀ a b, tied a = true → tied b = true → cmp a b = .eq) :
    (l.insertionSort (NotAbove cmp)).filter tied = l.filter tied := by
  have hpairwise : (l.filter tied).Pairwise (NotAbove cmp) := by
    refine pairwise_of_forall_mem_list fun a ha b hb => ?_
    have heq := h a b (mem_filter.mp ha).2 (mem_filter.mp hb).2
    rw [NotAbove, heq]
    exact Ordering.noConfusion
  have hsub : (l.filter tied).Sublist (l.insertionSort (NotAbove cmp)) :=
    sublist_insertionSort hpairwise filter_sublist
  have hfiltered : (l.filter tied).Sublist ((l.insertionSort (NotAbove cmp)).filter tied) := by
    have htwice := hsub.filter tied
    simpa only [filter_filter, Bool.and_self] using htwice
  exact (hfiltered.eq_of_length ((perm_insertionSort _ l).filter tied).length_eq.symm).symm

variable [Std.TransCmp cmp]

/-- Every sorted arrangement of a list without ties is the one insertion sort gives. -/
theorem sorted_unique_of_distinct {l sorted : List α}
    (hdistinct : ∀ a ∈ l, ∀ b ∈ l, cmp a b = .eq → a = b) (hperm : sorted.Perm l)
    (hsorted : sorted.Pairwise (NotAbove cmp)) : sorted = l.insertionSort (NotAbove cmp) := by
  refine List.Perm.eq_of_pairwise ?_ hsorted (pairwise_insertionSort _ l)
    (hperm.trans (perm_insertionSort _ l).symm)
  intro a b ha hb hab hba
  exact hdistinct a (hperm.mem_iff.mp ha) b ((mem_insertionSort _).mp hb) (eq_of_notAbove hab hba)

/-- Every sorted arrangement of a list is the one insertion sort gives. -/
theorem sorted_unique [Std.LawfulEqCmp cmp] {l sorted : List α} (hperm : sorted.Perm l)
    (hsorted : sorted.Pairwise (NotAbove cmp)) : sorted = l.insertionSort (NotAbove cmp) :=
  sorted_unique_of_distinct (fun _ _ _ _ => Std.LawfulEqCmp.eq_of_compare) hperm hsorted

/-- The order of the input does not show in a sorted list. -/
theorem insertionSort_congr [Std.LawfulEqCmp cmp] {l l' : List α} (hperm : l.Perm l') :
    l.insertionSort (NotAbove cmp) = l'.insertionSort (NotAbove cmp) :=
  sorted_unique ((perm_insertionSort _ l).trans hperm) (pairwise_insertionSort _ l)

end Compare
