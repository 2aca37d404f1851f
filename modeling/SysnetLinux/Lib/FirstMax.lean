/-
  SysnetLinux.Lib.FirstMax

  A loop that keeps the best element so far, by a key, and replaces it only by a strictly
  better one ends with the first of the elements of the largest key.
-/

import Mathlib.Order.Lattice

namespace FirstMax

open List

variable {α β κ : Type} [LinearOrder κ] {key : α → κ} {value : β → κ} {make : α → β}
  {step : β → α → β}

/-- The loop keeps what it starts with, or ends with an element that is above all before it
    and not below any behind it. -/
theorem foldl_cases (hmake : ∀ x, value (make x) = key x)
    (hstep : ∀ best x, step best x = if value best < key x then make x else best)
    (l : List α) (best : β) :
    (l.foldl step best = best ∧ ∀ y ∈ l, key y ≤ value best) ∨
      ∃ front x back, l = front ++ x :: back ∧ l.foldl step best = make x ∧
        value best < key x ∧ (∀ y ∈ front, key y < key x) ∧ ∀ y ∈ back, key y ≤ key x := by
  induction l generalizing best with
  | nil => exact .inl ⟨rfl, fun y hy => absurd hy not_mem_nil⟩
  | cons a l ih =>
    rw [foldl_cons, hstep]
    by_cases hlt : value best < key a
    · rw [if_pos hlt]
      rcases ih (make a) with ⟨heq, hle⟩ | ⟨front, x, back, hl, heq, hx, hfront, hback⟩
      · simp only [hmake] at hle
        exact .inr ⟨[], a, l, rfl, heq, hlt, fun y hy => absurd hy not_mem_nil, hle⟩
      · rw [hmake] at hx
        refine .inr ⟨a :: front, x, back, by rw [hl, cons_append], heq,
          lt_trans hlt hx, fun y hy => ?_, hback⟩
        rcases mem_cons.mp hy with rfl | hy
        · exact hx
        · exact hfront y hy
    · rw [if_neg hlt]
      rcases ih best with ⟨heq, hle⟩ | ⟨front, x, back, hl, heq, hx, hfront, hback⟩
      · exact .inl ⟨heq, forall_mem_cons.mpr ⟨not_lt.mp hlt, hle⟩⟩
      · refine .inr ⟨a :: front, x, back, by rw [hl, cons_append], heq, hx, fun y hy => ?_, hback⟩
        rcases mem_cons.mp hy with rfl | hy
        · exact lt_of_le_of_lt (not_lt.mp hlt) hx
        · exact hfront y hy

/-- The first element of the largest key, where every key is above the start. -/
theorem foldl_eq_find? (hmake : ∀ x, value (make x) = key x)
    (hstep : ∀ best x, step best x = if value best < key x then make x else best)
    {l : List α} {best : β} (hbest : ∀ x ∈ l, value best < key x) :
    l.foldl step best =
      ((l.find? fun x => decide (∀ y ∈ l, key y ≤ key x)).map make).getD best := by
  rcases foldl_cases hmake hstep l best with ⟨heq, hle⟩ | ⟨front, x, back, hl, heq, -, hfront, hback⟩
  · have hnil : l = [] := by
      refine eq_nil_iff_forall_not_mem.mpr fun x hx => ?_
      exact absurd (hbest x hx) (not_lt.mpr (hle x hx))
    rw [heq, hnil]
    rfl
  · have hmax : ∀ y ∈ l, key y ≤ key x := by
      intro y hy
      rw [hl, mem_append, mem_cons] at hy
      rcases hy with hy | rfl | hy
      · exact le_of_lt (hfront y hy)
      · exact le_refl _
      · exact hback y hy
    have hmem : x ∈ l := hl ▸ mem_append_right front mem_cons_self
    have hfind : l.find? (fun x => decide (∀ y ∈ l, key y ≤ key x)) = some x := by
      refine find?_eq_some_iff_append.mpr ⟨decide_eq_true hmax, front, back, hl, ?_⟩
      intro y hy
      rw [Bool.not_eq_true', decide_eq_false_iff_not]
      exact fun h => absurd (h x hmem) (not_le.mpr (hfront y hy))
    rw [heq, hfind]
    rfl

end FirstMax
