/-
  SysnetLinux.Lib.Text

  Rendered text that can be read back: split at the first place where the left side has no
  separator (`split_first`) or the last where the right side has none (`split_last`), the digits
  of a number (`toDigits_inj`), tokens joined by a separator, and lists of them behind a double
  one (`gapped_inj`), texts cut at a terminator (`fields_suffix_iff`).
-/

import Mathlib.Data.List.Basic
import Mathlib.Data.Nat.Digits.Defs

namespace Text

open List

/-- Decide a fact about each element of a list, one element after the other. -/
theorem forall_mem_of_all {α : Type} {p : α → Prop} [DecidablePred p] {l : List α}
    (h : l.all (fun x => decide (p x)) = true) : ∀ x ∈ l, p x := by
  simpa using h

section Separator

variable {α : Type} {x : α}

variable {l₁ l₂ r₁ : List α}

theorem split_first {r₂ : List α} (h₁ : x ∉ l₁) (h₂ : x ∉ l₂) (h : l₁ ++ x :: r₁ = l₂ ++ x :: r₂) :
    l₁ = l₂ ∧ r₁ = r₂ := by
  induction l₁ generalizing l₂ with
  | nil =>
    cases l₂ with
    | nil => exact ⟨rfl, (List.cons.inj h).2⟩
    | cons b l₂ =>
      have hhead : x = b := (List.cons.inj h).1
      exact absurd (hhead ▸ mem_cons_self) h₂
  | cons a l₁ ih =>
    cases l₂ with
    | nil =>
      have hhead : a = x := (List.cons.inj h).1
      exact absurd (hhead ▸ mem_cons_self) h₁
    | cons b l₂ =>
      obtain ⟨hhead, htail⟩ := List.cons.inj h
      have hrest := ih (fun hx => h₁ (mem_cons_of_mem a hx))
        (fun hx => h₂ (mem_cons_of_mem b hx)) htail
      exact ⟨by rw [hhead, hrest.1], hrest.2⟩

theorem split_last {r₂ : List α} (h₁ : x ∉ r₁) (h₂ : x ∉ r₂) (h : l₁ ++ x :: r₁ = l₂ ++ x :: r₂) :
    l₁ = l₂ ∧ r₁ = r₂ := by
  have hreverse : r₁.reverse ++ x :: l₁.reverse = r₂.reverse ++ x :: l₂.reverse := by
    simpa using congrArg List.reverse h
  have hparts := split_first (by simpa using h₁) (by simpa using h₂) hreverse
  exact ⟨reverse_inj.mp hparts.2, reverse_inj.mp hparts.1⟩

theorem ne_of_separator (h₂ : x ∉ l₂) : l₁ ++ x :: r₁ ≠ l₂ := by
  rintro rfl
  exact h₂ (mem_append_right l₁ mem_cons_self)

end Separator

/-! ## Digits -/

variable {n b : Nat}

theorem digitChar_inj {m : Nat} (hm : m < 16) (hn : n < 16) (h : m.digitChar = n.digitChar) :
    m = n := by
  have hall : ∀ i : Fin 16, ∀ j : Fin 16, i.val.digitChar = j.val.digitChar → i = j := by decide
  have hfin := hall ⟨m, hm⟩ ⟨n, hn⟩ h
  exact congrArg Fin.val hfin

/-- A character that is no digit is not among the digits of a number. -/
theorem not_mem_toDigits (hb : 1 < b) {c : Char} (hc : ∀ d : Nat, d.digitChar ≠ c) (n : Nat) :
    c ∉ Nat.toDigits b n := by
  induction n using Nat.strongRecOn with
  | _ n ih =>
    rw [Nat.toDigits_eq_if hb]
    split
    · rw [mem_singleton]
      exact fun heq => hc n heq.symm
    · rename_i hle
      rw [mem_append, mem_singleton]
      rintro (hmem | heq)
      · exact ih (n / b) (Nat.div_lt_self (by omega) hb) hmem
      · exact hc (n % b) heq.symm

theorem toDigits_inj {m : Nat} (hb : 1 < b) (hb16 : b ≤ 16)
    (h : Nat.toDigits b m = Nat.toDigits b n) : m = n := by
  induction m using Nat.strongRecOn generalizing n with
  | _ m ih =>
    have hdigit : ∀ k, k % b < 16 := fun k => lt_of_lt_of_le (Nat.mod_lt k (by omega)) hb16
    -- The last digit is the remainder; the others are those of the quotient.
    rw [Nat.toDigits_eq_if (n := m) hb, Nat.toDigits_eq_if (n := n) hb] at h
    split_ifs at h with hm hn hn
    · exact digitChar_inj (by omega) (by omega) (List.cons.inj h).1
    · exact absurd (append_inj' (show [] ++ [_] = _ from h) rfl).1.symm Nat.toDigits_ne_nil
    · exact absurd (append_inj' (show _ = [] ++ [_] from h) rfl).1 Nat.toDigits_ne_nil
    · obtain ⟨hfront, hlast⟩ := append_inj' h rfl
      have hdiv := ih (m / b) (Nat.div_lt_self (by omega) hb) hfront
      have hmod := digitChar_inj (hdigit m) (hdigit n) (List.cons.inj hlast).1
      rw [← Nat.div_add_mod m b, ← Nat.div_add_mod n b, hdiv, hmod]

/-- Numbers with the same digits in places `0` to `n - 1` and none above. -/
theorem eq_of_places {x y : Nat} (hx : x < b ^ n) (hy : y < b ^ n)
    (h : ∀ i < n, x / b ^ i % b = y / b ^ i % b) : x = y := by
  induction n generalizing x y with
  | zero =>
    rw [Nat.pow_zero] at hx hy
    omega
  | succ n ih =>
    have hplace : ∀ z i, z / b / b ^ i = z / b ^ (i + 1) := by
      intro z i
      rw [Nat.div_div_eq_div_mul, Nat.pow_succ, Nat.mul_comm]
    have hlow : x % b = y % b := by simpa using h 0 (Nat.succ_pos n)
    have hhigh : x / b = y / b := by
      refine ih (Nat.div_lt_of_lt_mul ?_) (Nat.div_lt_of_lt_mul ?_) fun i hi => ?_
      · rwa [Nat.pow_succ, Nat.mul_comm] at hx
      · rwa [Nat.pow_succ, Nat.mul_comm] at hy
      · rw [hplace, hplace]
        exact h (i + 1) (Nat.succ_lt_succ hi)
    rw [← Nat.div_add_mod x b, ← Nat.div_add_mod y b, hlow, hhigh]

/-! ## Tokens -/

section Tokens

variable {α : Type} {x : α}

/-- Tokens that a separator can join: not empty and without the separator. -/
def Tokens (x : α) (ls : List (List α)) : Prop := ∀ l ∈ ls, l ≠ [] ∧ x ∉ l

variable {ls ps ss : List (List α)}

theorem intercalate_inj [DecidableEq α] {ms : List (List α)} (hls : ∀ l ∈ ls, x ∉ l)
    (hms : ∀ l ∈ ms, x ∉ l) (hls' : ls ≠ []) (hms' : ms ≠ [])
    (h : [x].intercalate ls = [x].intercalate ms) : ls = ms := by
  rw [← splitOn_intercalate x hls hls', h, splitOn_intercalate x hms hms']

/-- Two lists of tokens with a double separator between them. -/
def gapped (x : α) (ps ss : List (List α)) : List α :=
  [x].intercalate ps ++ x :: x :: [x].intercalate ss

/-- The pieces of a gapped text: no token stands for an empty piece. -/
def pieces (ls : List (List α)) : List (List α) := if ls = [] then [[]] else ls

theorem pieces_ne_nil (ls : List (List α)) : pieces ls ≠ [] := by
  unfold pieces
  split
  · exact cons_ne_nil _ _
  · assumption

theorem intercalate_pieces (ls : List (List α)) :
    [x].intercalate (pieces ls) = [x].intercalate ls := by
  unfold pieces
  split
  · rename_i hnil
    rw [hnil]
    rfl
  · rfl

theorem intercalate_append {ms : List (List α)} (hls : ls ≠ []) (hms : ms ≠ []) :
    [x].intercalate (ls ++ ms) = [x].intercalate ls ++ x :: [x].intercalate ms := by
  induction ls with
  | nil => exact absurd rfl hls
  | cons l ls ih =>
    obtain ⟨m, ms, rfl⟩ := exists_cons_of_ne_nil hms
    cases ls with
    | nil => simp [List.intercalate]
    | cons l' ls =>
      have htail := ih (cons_ne_nil _ _)
      simp only [cons_append, intercalate_cons_cons] at htail ⊢
      rw [htail, append_assoc, append_assoc, append_assoc]

theorem gapped_eq (ps ss : List (List α)) :
    gapped x ps ss = [x].intercalate (pieces ps ++ ([] :: pieces ss)) := by
  have hback : [x].intercalate ([] :: pieces ss) = x :: [x].intercalate (pieces ss) :=
    intercalate_append (cons_ne_nil [] []) (pieces_ne_nil ss)
  rw [intercalate_append (pieces_ne_nil ps) (cons_ne_nil _ _), hback, intercalate_pieces,
    intercalate_pieces]
  rfl

theorem takeWhile_pieces {rest : List (List α)} (hps : ∀ l ∈ ps, l ≠ []) :
    (pieces ps ++ ([] :: rest)).takeWhile (· ≠ []) = ps := by
  unfold pieces
  split
  · rename_i hnil
    rw [hnil]
    rfl
  · rw [takeWhile_append_of_pos fun l hl => decide_eq_true (hps l hl)]
    simp

theorem gapped_pieces_not_mem (hps : Tokens x ps) (hss : Tokens x ss) :
    ∀ l ∈ pieces ps ++ ([] :: pieces ss), x ∉ l := by
  have hpieces : ∀ ls, Tokens x ls → ∀ l ∈ pieces ls, x ∉ l := by
    intro ls hls l hl
    unfold pieces at hl
    split at hl
    · rw [mem_singleton.mp hl]
      exact not_mem_nil
    · exact (hls l hl).2
  intro l hl
  rcases mem_append.mp hl with hl | hl
  · exact hpieces ps hps l hl
  · rcases mem_cons.mp hl with rfl | hl
    · exact not_mem_nil
    · exact hpieces ss hss l hl

/-- The two lists of tokens are determined by the text. -/
theorem gapped_inj [DecidableEq α] {ps' ss' : List (List α)} (hps : Tokens x ps) (hss : Tokens x ss)
    (hps' : Tokens x ps') (hss' : Tokens x ss') (h : gapped x ps ss = gapped x ps' ss') :
    ps = ps' ∧ ss = ss' := by
  rw [gapped_eq, gapped_eq] at h
  have hpieces := intercalate_inj (gapped_pieces_not_mem hps hss)
    (gapped_pieces_not_mem hps' hss') (by simp) (by simp) h
  have hfront := congrArg (List.takeWhile (· ≠ [])) hpieces
  rw [takeWhile_pieces fun l hl => (hps l hl).1, takeWhile_pieces fun l hl => (hps' l hl).1]
    at hfront
  refine ⟨hfront, ?_⟩
  -- The list behind the gap is in front of it in the reversed text.
  subst hfront
  have hback := (List.cons.inj (append_cancel_left hpieces)).2
  unfold pieces at hback
  split at hback
  · rename_i hnil
    split at hback
    · rename_i hnil'
      rw [hnil, hnil']
    · have hmem : [] ∈ ss' := hback ▸ mem_singleton_self _
      exact absurd rfl (hss' [] hmem).1
  · split at hback
    · have hmem : [] ∈ ss := hback ▸ mem_singleton_self _
      exact absurd rfl (hss [] hmem).1
    · exact hback

/-- A text with a gap is not a list of joined tokens. -/
theorem gapped_ne_intercalate [DecidableEq α] (hps : Tokens x ps) (hss : Tokens x ss)
    (hls : Tokens x ls) (hne : ls ≠ []) : gapped x ps ss ≠ [x].intercalate ls := by
  intro h
  rw [gapped_eq] at h
  have hpieces := intercalate_inj (gapped_pieces_not_mem hps hss) (fun l hl => (hls l hl).2)
    (by simp) hne h
  have hmem : [] ∈ ls := hpieces ▸ mem_append_right _ mem_cons_self
  exact (hls [] hmem).1 rfl

end Tokens

/-! ## Terminated fields -/

section Fields

variable {α : Type} {x : α}

/-- Every field with the terminator behind it. -/
def terminate (x : α) (ls : List (List α)) : List α := ls.flatMap (· ++ [x])

theorem terminate_nil : terminate x [] = [] := rfl

theorem terminate_cons (l : List α) (ls : List (List α)) :
    terminate x (l :: ls) = l ++ x :: terminate x ls := by
  rw [terminate, flatMap_cons, append_assoc, singleton_append]
  rfl

theorem terminate_append (ls ms : List (List α)) :
    terminate x (ls ++ ms) = terminate x ls ++ terminate x ms := flatMap_append

variable [DecidableEq α]

/-- The fields of a text, each up to the next terminator. -/
def fields (x : α) : List α → List (List α)
  | [] => []
  | a :: s =>
    if a = x then [] :: fields x s
    else match fields x s with
      | [] => [[a]]
      | l :: ls => (a :: l) :: ls

variable {s : List α}

theorem fields_ne_nil (hs : s ≠ []) : fields x s ≠ [] := by
  cases s with
  | nil => exact absurd rfl hs
  | cons a s =>
    rw [fields]
    split
    · exact cons_ne_nil _ _
    · split
      · exact cons_ne_nil _ _
      · exact cons_ne_nil _ _

/-- A text that ends in the terminator is the text of its fields. -/
theorem terminate_fields (hs : s = [] ∨ [x] <:+ s) : terminate x (fields x s) = s := by
  induction s with
  | nil => rfl
  | cons a s ih =>
    have htail : s = [] ∧ a = x ∨ [x] <:+ s := by
      rcases hs with hs | hs
      · cases hs
      · rcases suffix_cons_iff.mp hs with heq | hs
        · exact .inl ⟨(List.cons.inj heq).2.symm, (List.cons.inj heq).1.symm⟩
        · exact .inr hs
    have hrest : terminate x (fields x s) = s := ih (htail.imp_left And.left)
    rw [fields]
    by_cases ha : a = x
    · rw [if_pos ha, terminate, flatMap_cons, ha]
      exact congrArg (x :: ·) hrest
    · have hne : fields x s ≠ [] := by
        rcases htail with ⟨-, hax⟩ | hs
        · exact absurd hax ha
        · exact fields_ne_nil fun hnil => by simp [hnil] at hs
      obtain ⟨l, ls, hl⟩ := exists_cons_of_ne_nil hne
      rw [hl, terminate, flatMap_cons] at hrest
      rw [if_neg ha, hl, terminate, flatMap_cons, cons_append, cons_append, hrest]

theorem not_mem_of_mem_fields {l : List α} (hl : l ∈ fields x s) : x ∉ l := by
  induction s generalizing l with
  | nil => exact absurd hl not_mem_nil
  | cons a s ih =>
    rw [fields] at hl
    split at hl
    · rcases mem_cons.mp hl with rfl | hl
      · exact not_mem_nil
      · exact ih hl
    · rename_i ha
      have hcons : ∀ m, x ∉ m → x ∉ a :: m := fun m hm hmem =>
        (mem_cons.mp hmem).elim (fun heq => ha heq.symm) hm
      split at hl
      · rw [mem_singleton.mp hl]
        exact hcons [] not_mem_nil
      · rename_i m ms hfields
        rw [hfields] at ih
        rcases mem_cons.mp hl with rfl | hl
        · exact hcons m (ih mem_cons_self)
        · exact ih (mem_cons_of_mem m hl)

theorem fields_append (u v : List α) : fields x (u ++ x :: v) = fields x (u ++ [x]) ++ fields x v := by
  induction u with
  | nil => simp [fields]
  | cons a u ih =>
    rw [cons_append, cons_append, fields, fields, ih]
    by_cases ha : a = x
    · rw [if_pos ha, if_pos ha, cons_append]
    · have hne : fields x (u ++ [x]) ≠ [] := fields_ne_nil (by simp)
      obtain ⟨l, ls, hl⟩ := exists_cons_of_ne_nil hne
      rw [if_neg ha, if_neg ha, hl, cons_append]
      rfl

theorem fields_append_singleton {l : List α} (hl : x ∉ l) : fields x (l ++ [x]) = [l] := by
  induction l with
  | nil => simp [fields]
  | cons a l ih =>
    have ha : a ≠ x := fun heq => hl (heq ▸ mem_cons_self)
    rw [cons_append, fields, if_neg ha, ih fun h => hl (mem_cons_of_mem a h)]

theorem fields_terminate {ls : List (List α)} (h : ∀ l ∈ ls, x ∉ l) :
    fields x (terminate x ls) = ls := by
  induction ls with
  | nil => rfl
  | cons l ls ih =>
    have hrest := ih fun m hm => h m (mem_cons_of_mem l hm)
    rw [terminate] at hrest
    rw [terminate, flatMap_cons, append_assoc, singleton_append, fields_append,
      fields_append_singleton (h l mem_cons_self), hrest]
    rfl

/-- A text is another or ends in it behind a terminator exactly where its fields end in the
    other's fields. -/
theorem fields_suffix_iff {d : List α} (hs : [x] <:+ s) (hd : [x] <:+ d) :
    fields x d <:+ fields x s ↔ s = d ∨ (x :: d) <:+ s := by
  constructor
  · rintro ⟨front, hfront⟩
    have htext : s = terminate x front ++ d := by
      rw [← terminate_fields (.inr hs), ← hfront, terminate, flatMap_append]
      exact congrArg (_ ++ ·) (terminate_fields (.inr hd))
    rcases eq_nil_or_concat front with rfl | ⟨front, l, rfl⟩
    · exact .inl htext
    · refine .inr ⟨terminate x front ++ l, ?_⟩
      rw [htext]
      simp [terminate]
  · rintro (rfl | ⟨u, rfl⟩)
    · exact suffix_refl _
    · exact ⟨fields x (u ++ [x]), (fields_append u d).symm⟩

end Fields

end Text
