/-
  SysnetLinux.Lib.FirstMatch

  First-match lists: a list kept in the order of a key, walked from the front until an element
  gives an answer (`List.findSome?`).

  A new element goes behind those whose key is not larger: `List.orderedInsert` for the strict
  order of the keys.  The lemmas say when two such lists are equal and how the answer changes with
  elements that come and go.
-/

import Mathlib.Data.List.Sort

namespace FirstMatch

open List

variable {α κ β : Type} [LinearOrder κ] (key : α → κ)

/-- The elements stand in the order of their keys. -/
def Ordered (l : List α) : Prop := l.Pairwise fun a b => key a ≤ key b

/-- Put `a` behind the elements whose key is not larger. -/
def insert (a : α) (l : List α) : List α := l.orderedInsert (fun x y => key x < key y) a

variable {key} {l : List α} {a : α}

@[simp] theorem mem_insert {b : α} : b ∈ insert key a l ↔ b = a ∨ b ∈ l :=
  mem_orderedInsert _

theorem ordered_insert (h : Ordered key l) : Ordered key (insert key a l) := by
  unfold Ordered insert at *
  induction l with
  | nil => simp
  | cons b l ih =>
    rw [pairwise_cons] at h
    rw [orderedInsert_cons]
    split
    · rename_i hlt
      refine pairwise_cons.mpr ⟨?_, pairwise_cons.mpr h⟩
      intro c hc
      rcases mem_cons.mp hc with rfl | hc
      · exact le_of_lt hlt
      · exact le_trans (le_of_lt hlt) (h.1 c hc)
    · rename_i hle
      refine pairwise_cons.mpr ⟨?_, ih h.2⟩
      intro c hc
      rcases mem_insert.mp hc with rfl | hc
      · exact not_lt.mp hle
      · exact h.1 c hc

theorem nodup_insert (hl : l.Nodup) (ha : a ∉ l) : (insert key a l).Nodup :=
  (perm_orderedInsert _ a l).nodup_iff.mpr (nodup_cons.mpr ⟨ha, hl⟩)

variable {p : α → Bool}

/-- An insertion does not show in a part of the list the new element is not in. -/
theorem filter_insert_of_neg (h : p a = false) : (insert key a l).filter p = l.filter p := by
  unfold insert
  induction l with
  | nil => simp [h]
  | cons b l ih =>
    rw [orderedInsert_cons]
    split
    · simp [filter_cons, h]
    · simp only [filter_cons, ih]

/-- Nor does a removal from outside it. -/
theorem filter_eraseP_of_neg {q : α → Bool} (h : ∀ x, q x = true → p x = false) :
    (l.eraseP q).filter p = l.filter p := by
  induction l with
  | nil => rfl
  | cons b l ih =>
    rw [eraseP_cons]
    cases hq : q b with
    | true => simp [h b hq]
    | false => simp only [Bool.cond_false, filter_cons, ih]

theorem countP_eraseP (l : List α) : (l.eraseP p).countP p = l.countP p - 1 := by
  induction l with
  | nil => rfl
  | cons b l ih =>
    rw [eraseP_cons]
    cases hp : p b with
    | true => simp [hp]
    | false => simp [hp, ih]

theorem ordered_sublist {l' : List α} (h : Ordered key l) (hs : l'.Sublist l) :
    Ordered key l' := List.Pairwise.sublist hs h

theorem ordered_split (h : Ordered key l) (g : κ) :
    l = l.filter (fun a => decide (key a ≤ g)) ++ l.filter (fun a => decide (g < key a)) := by
  induction l with
  | nil => rfl
  | cons b l ih =>
    have hb := (pairwise_cons.mp h).1
    have hl : Ordered key l := (pairwise_cons.mp h).2
    by_cases hg : key b ≤ g
    · simp only [filter_cons, hg, decide_true, if_true, not_lt.mpr hg, decide_false, cons_append]
      exact congrArg (b :: ·) (ih hl)
    · -- `b` is above the key, so everything behind it is too
      have hlo : l.filter (fun a => decide (key a ≤ g)) = [] := by
        rw [filter_eq_nil_iff]
        intro c hc hcg
        exact hg (le_trans (hb c hc) (by simpa using hcg))
      have hhi : l.filter (fun a => decide (g < key a)) = l := by
        rw [filter_eq_self]
        intro c hc
        simpa using lt_of_lt_of_le (not_le.mp hg) (hb c hc)
      simp [hg, not_le.mp hg, hlo, hhi]

/-- Two ordered lists with the same elements of each key, in the same order, are equal. -/
theorem ordered_ext : ∀ {l₁ l₂ : List α}, Ordered key l₁ → Ordered key l₂ →
    (∀ x, l₁.filter (fun a => decide (key a = x)) = l₂.filter (fun a => decide (key a = x))) →
    l₁ = l₂
  | [], [], _, _, _ => rfl
  | [], b :: l₂, _, _, h => by
    have := h (key b)
    simp at this
  | a :: l₁, [], _, _, h => by
    have := h (key a)
    simp at this
  | a :: l₁, b :: l₂, h₁, h₂, h => by
    have ha := pairwise_cons.mp h₁
    have hb := pairwise_cons.mp h₂
    -- each head occurs in the other list, so no head has the larger key
    have hab : key a ≤ key b := by
      have hmem : b ∈ (a :: l₁).filter (fun c => decide (key c = key b)) := by
        rw [h]; simp
      rcases mem_cons.mp (mem_filter.mp hmem).1 with hb' | hb'
      · rw [hb']
      · exact ha.1 b hb'
    have hba : key b ≤ key a := by
      have hmem : a ∈ (b :: l₂).filter (fun c => decide (key c = key a)) := by
        rw [← h]; simp
      rcases mem_cons.mp (mem_filter.mp hmem).1 with ha' | ha'
      · rw [ha']
      · exact hb.1 a ha'
    have hkey : key a = key b := le_antisymm hab hba
    have hhead := h (key b)
    simp only [filter_cons, hkey, decide_true, if_true, List.cons.injEq] at hhead
    have htail : l₁ = l₂ := by
      refine ordered_ext ha.2 hb.2 fun x => ?_
      have hx := h x
      by_cases hk : key b = x
      · simp only [filter_cons, hkey, hk, decide_true, if_true, List.cons.injEq] at hx
        exact hx.2
      · simpa only [filter_cons, hkey, hk, decide_false, Bool.false_eq_true, if_false] using hx
    rw [hhead.1, htail]

/-- An ordered list with the elements of an increasing one is that list. -/
theorem ordered_eq_of_increasing {l₁ l₂ : List α} (hord : Ordered key l₁) (hnodup : l₁.Nodup)
    (hinc : l₂.Pairwise fun a b => key a < key b) (hmem : ∀ x, x ∈ l₁ ↔ x ∈ l₂) : l₁ = l₂ := by
  have hne : l₂.Pairwise fun a b => key a ≠ key b := hinc.imp ne_of_lt
  have hkeys : (l₂.map key).Nodup := pairwise_map.mpr hne
  have hperm : l₁.Perm l₂ :=
    (perm_ext_iff_of_nodup hnodup (List.Nodup.of_map key hkeys)).mpr hmem
  have hord' : l₁.Pairwise fun a b => key a ≤ key b := hord
  have hinc' : l₂.Pairwise fun a b => key a ≤ key b := hinc.imp le_of_lt
  -- elements of one key are equal, so the order of the keys is antisymmetric here
  refine List.Perm.eq_of_pairwise ?_ hord' hinc' hperm
  intro a b ha hb hab hba
  exact inj_on_of_nodup_map hkeys ((hmem a).mp ha) hb (le_antisymm hab hba)

/-! ## Walks -/

variable {f : α → Option β} {d : β}

theorem findSome?_cons_or (a : α) (l : List α) :
    (a :: l).findSome? f = (f a).or (l.findSome? f) := by
  rw [findSome?_cons]
  cases f a <;> rfl

/-- A walk depends on the answers of the elements only. -/
theorem findSome?_congr {g : α → Option β} (h : ∀ x ∈ l, f x = g x) :
    l.findSome? f = l.findSome? g := by
  induction l with
  | nil => rfl
  | cons b l ih =>
    rw [findSome?_cons_or, findSome?_cons_or, h b mem_cons_self,
      ih fun x hx => h x (mem_cons_of_mem b hx)]

/-- Elements that give no answer can be left out of a walk. -/
theorem findSome?_filter (h : ∀ x ∈ l, p x = false → f x = none) :
    (l.filter p).findSome? f = l.findSome? f := by
  induction l with
  | nil => rfl
  | cons b l ih =>
    have ihl := ih fun x hx => h x (mem_cons_of_mem b hx)
    rw [filter_cons]
    cases hp : p b with
    | true => simp only [if_true, findSome?_cons, ihl]
    | false =>
      have hb := h b mem_cons_self hp
      simp only [Bool.false_eq_true, if_false, findSome?_cons, hb, ihl]

/-- Elements whose only answer is `d` change the answer of a walk to `d` or not at all. -/
theorem findSome?_filter_or (h : ∀ x ∈ l, p x = false → f x = none ∨ f x = some d) :
    l.findSome? f = (l.filter p).findSome? f ∨ l.findSome? f = some d := by
  induction l with
  | nil => exact .inl rfl
  | cons b l ih =>
    have ihl := ih fun x hx => h x (mem_cons_of_mem b hx)
    rw [filter_cons]
    cases hp : p b with
    | true =>
      simp only [if_true, findSome?_cons]
      cases f b with
      | none => exact ihl
      | some v => exact .inl rfl
    | false =>
      simp only [Bool.false_eq_true, if_false, findSome?_cons]
      rcases h b mem_cons_self hp with hb | hb
      · simpa only [hb] using ihl
      · exact .inr (by rw [hb])

/-- Walking past an element that answers `d`: if up to its key every element outside `p` answers `d`
    or nothing, the walk ends in `d` or in the answer of the elements of `p` up to that key. -/
theorem findSome?_guarded {g : α} (hord : Ordered key l) (hg : g ∈ l) (hd : f g = some d)
    (h : ∀ x ∈ l, key x ≤ key g → p x = false → f x = none ∨ f x = some d) :
    l.findSome? f = some d ∨ ((l.filter fun x => decide (key x ≤ key g) && p x).findSome? f ≠ none ∧
        l.findSome? f = (l.filter fun x => decide (key x ≤ key g) && p x).findSome? f) := by
  set lo := l.filter (fun a => decide (key a ≤ key g)) with hlo
  have hglo : g ∈ lo := by simp [hlo, hg]
  have hsome : lo.findSome? f ≠ none := by
    intro hnone
    rw [findSome?_eq_none_iff.mp hnone g hglo] at hd
    exact Option.some_ne_none d hd.symm
  have hwalk : l.findSome? f = lo.findSome? f := by
    rw [ordered_split hord (key g), findSome?_append, ← hlo]
    cases hw : lo.findSome? f with
    | none => exact absurd hw hsome
    | some v => rfl
  have hfilter : (l.filter fun x => decide (key x ≤ key g) && p x) = lo.filter p := by
    rw [hlo, filter_filter]
    exact filter_congr fun x _ => Bool.and_comm _ _
  rw [hwalk, hfilter]
  have hor := findSome?_filter_or (l := lo) (p := p) (f := f) (d := d) (by
    intro x hx hpx
    have hx' := mem_filter.mp hx
    exact h x hx'.1 (by simpa using hx'.2) hpx)
  rcases hor with heq | heq
  · exact .inr ⟨heq ▸ hsome, heq⟩
  · exact .inl heq

/-- If some element answers, the walk ends in an answer at or before its key. -/
theorem findSome?_upTo {g : α} (hord : Ordered key l) (hg : g ∈ l) (hf : f g ≠ none) :
    ∃ x ∈ l, key x ≤ key g ∧ f x ≠ none ∧ l.findSome? f = f x := by
  have hsome : l.findSome? f ≠ none := by
    intro hnone
    exact hf (findSome?_eq_none_iff.mp hnone g hg)
  obtain ⟨d, hd⟩ := Option.ne_none_iff_exists'.mp hsome
  obtain ⟨before, x, behind, rfl, hx, hbefore⟩ := findSome?_eq_some_iff.mp hd
  refine ⟨x, by simp, ?_, by simp [hx], by rw [hd, hx]⟩
  -- `g` is not among the elements before the first answer
  rcases mem_append.mp hg with hg | hg
  · exact absurd (hbefore g hg) hf
  · rcases mem_cons.mp hg with rfl | hg
    · exact le_refl _
    · have hbehind := (pairwise_append.mp hord).2.1
      exact rel_of_pairwise_cons hbehind hg

end FirstMatch
