/-
  SysnetLinux.Lib.LastMatch

  A scan without a stop: every element that matches overwrites the value, so the last match
  decides.

  Where all matches give the same value (`lastMatch_of_mem`), or there is none
  (`lastMatch_of_none`), the order of the list does not matter; two lists with the same
  elements then give the same value (`lastMatch_congr`).
-/

import Mathlib.Data.List.Induction

namespace LastMatch

variable {α β : Type} {p : α → Prop} [DecidablePred p] {f : α → β} {init : β} {l l' : List α}

/-- The value of the last element that matches; the initial value if none does. -/
def lastMatch (p : α → Prop) [DecidablePred p] (f : α → β) (init : β) (l : List α) : β :=
  l.foldl (fun value x => if p x then f x else value) init

theorem lastMatch_append (l : List α) (x : α) :
    lastMatch p f init (l ++ [x]) = if p x then f x else lastMatch p f init l := by
  rw [lastMatch, List.foldl_append]
  rfl

theorem lastMatch_of_none (h : ∀ x ∈ l, ¬ p x) : lastMatch p f init l = init := by
  induction l using List.reverseRecOn with
  | nil => rfl
  | append_singleton l last ih =>
    rw [lastMatch_append, if_neg (h last (by simp))]
    exact ih fun x hx => h x (by simp [hx])

theorem lastMatch_of_mem {x : α} (hx : x ∈ l) (hp : p x) (hsame : ∀ y ∈ l, p y → f y = f x) :
    lastMatch p f init l = f x := by
  induction l using List.reverseRecOn with
  | nil => cases hx
  | append_singleton l last ih =>
    rw [lastMatch_append]
    by_cases hlast : p last
    · rw [if_pos hlast]
      exact hsame last (by simp) hlast
    · have hne : x ≠ last := by
        rintro rfl
        exact hlast hp
      rw [if_neg hlast]
      exact ih (by simpa [hne] using hx) fun y hy => hsame y (by simp [hy])

/-- The scan sees the elements of the list only, if the matches agree. -/
theorem lastMatch_congr (hmem : ∀ x, x ∈ l ↔ x ∈ l')
    (hsame : ∀ x ∈ l', ∀ y ∈ l', p x → p y → f y = f x) :
    lastMatch p f init l = lastMatch p f init l' := by
  by_cases h : ∃ x ∈ l', p x
  · obtain ⟨x, hx, hp⟩ := h
    rw [lastMatch_of_mem hx hp fun y hy => hsame x hx y hy hp,
      lastMatch_of_mem ((hmem x).mpr hx) hp fun y hy => hsame x hx y ((hmem y).mp hy) hp]
  · have hnone : ∀ x ∈ l', ¬ p x := fun x hx hp => h ⟨x, hx, hp⟩
    rw [lastMatch_of_none hnone, lastMatch_of_none fun x hx => hnone x ((hmem x).mp hx)]

end LastMatch
