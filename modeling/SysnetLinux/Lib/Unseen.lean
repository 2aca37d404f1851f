/-
  SysnetLinux.Lib.Unseen

  Lists that are built by appending what is not there yet, as loops with a map of seen
  values do it.  The first occurrence of every value stays, in the order of the input.
-/

import Mathlib.Data.List.Nodup
import Mathlib.Data.List.Induction

namespace Unseen

open List

variable {α : Type} [DecidableEq α] {out xs : List α} {x y : α}

/-- Append unless it is there. -/
def append (out : List α) (x : α) : List α := if x ∈ out then out else out ++ [x]

/-- The first occurrences. -/
def collect (xs : List α) : List α := xs.foldl append []

theorem mem_append : x ∈ append out y ↔ x ∈ out ∨ x = y := by
  unfold append
  split
  · rename_i hseen
    constructor
    · exact Or.inl
    · rintro (hx | rfl)
      · exact hx
      · exact hseen
  · rw [List.mem_append, mem_singleton]

theorem mem_foldl : x ∈ xs.foldl append out ↔ x ∈ out ∨ x ∈ xs := by
  induction xs generalizing out with
  | nil => simp
  | cons y xs ih => rw [foldl_cons, ih, mem_append, mem_cons, or_assoc]

theorem mem_collect : x ∈ collect xs ↔ x ∈ xs := by
  unfold collect
  rw [mem_foldl]
  simp

theorem collect_eq_nil : collect xs = [] ↔ xs = [] := by
  rw [eq_nil_iff_forall_not_mem, eq_nil_iff_forall_not_mem]
  exact forall_congr' fun x => not_congr mem_collect

theorem nodup_foldl (h : out.Nodup) : (xs.foldl append out).Nodup := by
  induction xs generalizing out with
  | nil => exact h
  | cons y xs ih =>
    refine ih ?_
    unfold append
    split
    · exact h
    · rename_i hunseen
      rw [nodup_append]
      refine ⟨h, nodup_singleton y, ?_⟩
      rintro a ha b hb rfl
      exact hunseen (mem_singleton.mp hb ▸ ha)

theorem nodup_collect (xs : List α) : (collect xs).Nodup := nodup_foldl nodup_nil

theorem foldl_of_nodup (h : (out ++ xs).Nodup) : xs.foldl append out = out ++ xs := by
  induction xs generalizing out with
  | nil => simp
  | cons y xs ih =>
    have hy : y ∉ out := fun hmem =>
      (nodup_append.mp h).2.2 y hmem y mem_cons_self rfl
    rw [foldl_cons, append, if_neg hy, ih (by simpa using h)]
    simp

theorem idxOf_concat (l : List α) (r x : α) : (l ++ [r]).idxOf x =
      if x ∈ l then l.idxOf x else if x = r then l.length else l.length + 1 := by
  split
  · rename_i hx
    exact idxOf_append_of_mem hx
  · rename_i hx
    rw [idxOf_append_of_notMem hx]
    split
    · rename_i heq
      rw [heq, idxOf_cons_self, Nat.add_zero]
    · rename_i hne
      rw [idxOf_cons_ne [] (Ne.symm hne), idxOf_nil]

theorem idxOf_collect (hx : x ∈ xs) :
    (collect xs).idxOf x < (collect xs).idxOf y ↔ xs.idxOf x < xs.idxOf y := by
  induction xs using List.reverseRecOn with
  | nil => cases hx
  | append_singleton xs r ih =>
    have hstep : collect (xs ++ [r]) = append (collect xs) r := by
      unfold collect
      rw [foldl_append]
      rfl
    have hlt : ∀ a, xs.idxOf a < xs.length ↔ a ∈ xs := fun a => idxOf_lt_length_iff
    have hlt' : ∀ a, (collect xs).idxOf a < (collect xs).length ↔ a ∈ xs := fun a =>
      idxOf_lt_length_iff.trans mem_collect
    have hle := fun a => idxOf_le_length (a := a) (l := xs)
    have hle' := fun a => idxOf_le_length (a := a) (l := collect xs)
    rw [hstep, append, idxOf_concat xs r x, idxOf_concat xs r y]
    simp only [List.mem_append, mem_singleton] at hx
    -- A value that is not there yet comes behind all others, in both lists.
    split
    · grind [mem_collect]
    · grind [mem_collect, idxOf_concat]

end Unseen
