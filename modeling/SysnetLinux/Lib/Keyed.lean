/-
  SysnetLinux.Lib.Keyed

  A list of entries with keys, changed by operations each of which reads and writes the
  entries of one key only.

  `here k xs` is the part of the list with the key `k`.  A run of operations does to that
  part what the operations of that key do to it alone (`here_foldl`), so a statement about
  a long run comes down to short runs, one for each key.  The same holds for operations
  that can fail (`here_foldlM`, `foldlM_of_here`).
-/

import Mathlib.Data.List.Basic

namespace Keyed

open List

variable {α κ ω : Type} [DecidableEq κ] {key : α → κ} {keyOf : ω → κ}
  {step : List α → ω → List α}

/-- The entries with a key. -/
def here (key : α → κ) (k : κ) (xs : List α) : List α := xs.filter fun a => key a = k

theorem mem_here {k : κ} {xs : List α} {a : α} : a ∈ here key k xs ↔ a ∈ xs ∧ key a = k := by
  simp [here]

theorem here_append (xs ys : List α) (k : κ) :
    here key k (xs ++ ys) = here key k xs ++ here key k ys := filter_append ..

theorem here_eq_nil {k : κ} {xs : List α} (h : ∀ a ∈ xs, key a ≠ k) : here key k xs = [] :=
  filter_eq_nil_iff.mpr fun a ha => by simpa using h a ha

theorem here_eq_singleton {xs : List α} (h : (xs.map key).Nodup) {a : α} (ha : a ∈ xs) :
    here key (key a) xs = [a] := by
  induction xs with
  | nil => cases ha
  | cons b xs ih =>
    obtain ⟨hnot, hnodup⟩ := nodup_cons.mp h
    rcases mem_cons.mp ha with rfl | hmem
    · have hrest : here key (key a) xs = [] := here_eq_nil fun c hc heq =>
        hnot (heq ▸ mem_map_of_mem hc)
      unfold here at hrest ⊢
      rw [filter_cons_of_pos (by simp), hrest]
    · have hne : key b ≠ key a := fun heq => hnot (heq ▸ mem_map_of_mem hmem)
      have hrest := ih hnodup hmem
      unfold here at hrest ⊢
      rw [filter_cons_of_neg (by simpa using hne), hrest]

/-- Every operation stays with the entries of its own key. -/
def Local (key : α → κ) (keyOf : ω → κ) (step : List α → ω → List α) : Prop :=
  ∀ (xs : List α) (o : ω) (k : κ),
    here key k (step xs o) = if keyOf o = k then step (here key k xs) o else here key k xs

theorem here_foldl (h : Local key keyOf step) (ops : List ω) (xs : List α) (k : κ) :
    here key k (ops.foldl step xs) = (here keyOf k ops).foldl step (here key k xs) := by
  induction ops generalizing xs with
  | nil => rfl
  | cons o ops ih =>
    rw [foldl_cons, ih, h]
    by_cases hk : keyOf o = k
    · simp [here, hk]
    · simp [here, hk]

/-- The operations of one key among those that a list of keyed things gives rise to. -/
theorem here_flatMap {key : α → κ} {f : α → List ω} (h : ∀ a, ∀ o ∈ f a, keyOf o = key a)
    (xs : List α) (k : κ) : here keyOf k (xs.flatMap f) = (here key k xs).flatMap f := by
  induction xs with
  | nil => rfl
  | cons a xs ih =>
    have hhead : here keyOf k (f a) = if key a = k then f a else [] := by
      split
      · rename_i hk
        exact filter_eq_self.mpr fun o ho => by simpa using (h a o ho).trans hk
      · rename_i hk
        exact filter_eq_nil_iff.mpr fun o ho => by simpa [h a o ho] using hk
    rw [flatMap_cons, here_append, ih, hhead]
    by_cases hk : key a = k
    · simp [here, hk]
    · simp [here, hk]

/-- The operations of one key, where each entry gives rise to one of its own key. -/
theorem here_map {key : α → κ} {f : α → ω} (h : ∀ a, keyOf (f a) = key a) (xs : List α) (k : κ) :
    here keyOf k (xs.map f) = (here key k xs).map f := by
  unfold here
  rw [filter_map]
  refine congrArg (List.map f) (filter_congr fun a _ => ?_)
  rw [Function.comp_apply, h]

theorem here_filter (q : α → Bool) (xs : List α) (k : κ) :
    here key k (xs.filter q) = (here key k xs).filter q := by
  unfold here
  rw [filter_filter, filter_filter]
  exact filter_congr fun a _ => Bool.and_comm ..

/-- Operations that can fail, where each of them reads and writes the entries of its own
    key only. -/
structure LocalOption (key : α → κ) (keyOf : ω → κ) (step : List α → ω → Option (List α)) :
    Prop where
  own : ∀ (xs : List α) (o : ω),
    step (here key (keyOf o) xs) o = (step xs o).map (here key (keyOf o))
  others : ∀ {xs ys : List α} {o : ω} {k : κ}, step xs o = some ys → keyOf o ≠ k →
    here key k ys = here key k xs

section Fallible

variable {attempt : List α → ω → Option (List α)}

/-- One operation, seen from one key. -/
theorem here_step (h : LocalOption key keyOf attempt) {o : ω} {xs mid : List α}
    (hmid : attempt xs o = some mid) (ops : List ω) (k : κ) :
    (here keyOf k (o :: ops)).foldlM attempt (here key k xs) =
      (here keyOf k ops).foldlM attempt (here key k mid) := by
  by_cases hk : keyOf o = k
  · have hown := h.own xs o
    rw [hmid, hk, Option.map_some] at hown
    have hcons : here keyOf k (o :: ops) = o :: here keyOf k ops := by simp [here, hk]
    rw [hcons, foldlM_cons, hown]
    rfl
  · have hcons : here keyOf k (o :: ops) = here keyOf k ops := by simp [here, hk]
    rw [hcons, ← h.others hmid hk]

theorem here_foldlM (h : LocalOption key keyOf attempt) {ops : List ω} {xs ys : List α}
    (hrun : ops.foldlM attempt xs = some ys) (k : κ) :
    (here keyOf k ops).foldlM attempt (here key k xs) = some (here key k ys) := by
  induction ops generalizing xs with
  | nil =>
    obtain rfl : xs = ys := Option.some.inj hrun
    rfl
  | cons o ops ih =>
    rw [foldlM_cons] at hrun
    obtain ⟨mid, hmid, hrest⟩ := Option.bind_eq_some_iff.mp hrun
    exact (here_step h hmid ops k).trans (ih hrest)

/-- A run succeeds where the runs of all keys do. -/
theorem foldlM_of_here (h : LocalOption key keyOf attempt) {ops : List ω} {xs : List α}
    (hruns : ∀ k, ∃ zs, (here keyOf k ops).foldlM attempt (here key k xs) = some zs) :
    ∃ ys, ops.foldlM attempt xs = some ys := by
  induction ops generalizing xs with
  | nil => exact ⟨xs, rfl⟩
  | cons o ops ih =>
    -- The run of its own key shows that the first operation succeeds.
    obtain ⟨mid, hmid⟩ : ∃ mid, attempt xs o = some mid := by
      obtain ⟨zs, hzs⟩ := hruns (keyOf o)
      have hcons : here keyOf (keyOf o) (o :: ops) = o :: here keyOf (keyOf o) ops := by
        simp [here]
      rw [hcons, foldlM_cons, h.own] at hzs
      obtain ⟨_, hmap, -⟩ := Option.bind_eq_some_iff.mp hzs
      obtain ⟨mid, hmid, -⟩ := Option.map_eq_some_iff.mp hmap
      exact ⟨mid, hmid⟩
    rw [foldlM_cons, hmid]
    refine ih fun k => ?_
    obtain ⟨zs, hzs⟩ := hruns k
    exact ⟨zs, (here_step h hmid ops k).symm.trans hzs⟩

end Fallible

end Keyed
