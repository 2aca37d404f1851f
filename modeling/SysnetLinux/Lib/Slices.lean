/-
  SysnetLinux.Lib.Slices

  Slices of arrays that share memory.

  A heap is the list of the arrays allocated so far, an array being named by its place in the
  list; a slice is a window of one of them.  Copying a slice allocates, and writing through
  the copy reaches the new array only, so the heap before is an initial part of the heap
  after (`cloned_modified`): every slice of the heap before reads as it did (`read_of_extends`).
-/

import Mathlib.Data.List.GetD

namespace Slices

open List

variable {α : Type}

abbrev Heap (α : Type) := List (List α)

/-- A window of an array. -/
structure Slice where
  array : Nat
  start : Nat
  len : Nat
  deriving DecidableEq, Repr

/-- The window lies in its array. -/
def Slice.In (s : Slice) (heap : Heap α) : Prop := s.start + s.len ≤ (heap.getD s.array []).length

instance (s : Slice) (heap : Heap α) : Decidable (s.In heap) := Nat.decLe _ _

def read (heap : Heap α) (s : Slice) : List α :=
  ((heap.getD s.array []).drop s.start).take s.len

/-- The slice's elements in an array of their own. -/
def clone (heap : Heap α) (s : Slice) : Heap α × Slice :=
  (heap ++ [read heap s], ⟨heap.length, 0, (read heap s).length⟩)

/-- Change element `i` of a slice. -/
def modifyAt (heap : Heap α) (s : Slice) (f : α → α) (i : Nat) : Heap α :=
  heap.modify s.array fun array => array.modify (s.start + i) f

/-- Change every element of a slice, one after the other. -/
def modifyAll (heap : Heap α) (s : Slice) (f : α → α) : Heap α :=
  (List.range s.len).foldl (fun heap i => modifyAt heap s f i) heap

variable {heap heap' : Heap α} {s : Slice} {f : α → α}

/-- Arrays that come later do not show in a slice of the earlier ones. -/
theorem read_of_extends (h : s.In heap) (hext : heap <+: heap') : read heap' s = read heap s := by
  obtain ⟨later, rfl⟩ := hext
  by_cases hin : s.array < heap.length
  · rw [read, read, getD_append _ _ _ _ hin]
  · have hnil : heap.getD s.array [] = [] := by simp [hin]
    have hlen : s.len = 0 := by
      simp only [Slice.In, hnil, length_nil] at h
      omega
    rw [read, read, hlen, take_zero, take_zero]

theorem in_of_extends (h : s.In heap) (hext : heap <+: heap') : s.In heap' := by
  obtain ⟨later, rfl⟩ := hext
  simp only [Slice.In] at h ⊢
  by_cases hin : s.array < heap.length
  · rw [getD_append _ _ _ _ hin]
    exact h
  · have hnil : heap.getD s.array [] = [] := by simp [hin]
    rw [hnil, length_nil] at h
    omega

theorem modify_length_append (front rest : List α) (x : α) (f : α → α) :
    (front ++ x :: rest).modify front.length f = front ++ f x :: rest := by
  induction front with
  | nil => rfl
  | cons y front ih =>
    rw [cons_append, length_cons, modify_succ_cons, ih]
    rfl

/-- The loop over the indices of an array, at any stage: the elements passed are changed. -/
theorem foldl_modify (done rest : List α) :
    (List.range' done.length rest.length).foldl (fun array i => array.modify i f) (done ++ rest) =
      done ++ rest.map f := by
  induction rest generalizing done with
  | nil => simp
  | cons x rest ih =>
    have hstep : (done ++ x :: rest).modify done.length f = (done ++ [f x]) ++ rest := by
      rw [modify_length_append, append_assoc]
      rfl
    rw [length_cons, range'_succ, foldl_cons, hstep]
    have hlen : done.length + 1 = (done ++ [f x]).length := by simp
    rw [hlen, ih (done ++ [f x])]
    simp

/-- Writing through a slice of the last array stays in that array. -/
theorem foldl_modifyAt (xs : List α) (indices : List Nat) :
    indices.foldl (fun heap' i => modifyAt heap' ⟨heap.length, 0, xs.length⟩ f i) (heap ++ [xs]) =
      heap ++ [indices.foldl (fun array i => array.modify i f) xs] := by
  generalize xs.length = len
  induction indices generalizing xs with
  | nil => rfl
  | cons i indices ih =>
    have hstep : modifyAt (heap ++ [xs]) ⟨heap.length, 0, len⟩ f i = heap ++ [xs.modify i f] := by
      rw [modifyAt, modify_length_append, Nat.zero_add]
    rw [foldl_cons, hstep, ih, foldl_cons]

/-- Copy a slice and change the copy: one array is added, which holds the changed elements. -/
theorem cloned_modified (heap : Heap α) (s : Slice) (f : α → α) :
    modifyAll (clone heap s).1 (clone heap s).2 f = heap ++ [(read heap s).map f] := by
  have hloop := foldl_modify (f := f) [] (read heap s)
  rw [length_nil, ← range_eq_range', nil_append, nil_append] at hloop
  rw [modifyAll, clone]
  exact (foldl_modifyAt (read heap s) _).trans (congrArg (fun xs => heap ++ [xs]) hloop)

theorem read_last (heap : Heap α) (xs : List α) {n : Nat} (hn : n = xs.length) :
    read (heap ++ [xs]) ⟨heap.length, 0, n⟩ = xs := by
  simp [read, hn]

end Slices
