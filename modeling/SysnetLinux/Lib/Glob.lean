/-
  SysnetLinux.Lib.Glob

  Shell patterns as Go's `filepath.Match` reads them, on the bytes of UTF-8 texts.

  A pattern is cut at its stars into chunks (`scanChunk`).  A chunk behind a star is put at the
  first place where it fits, and only the last one is moved on if it does not reach the end of the
  text.  A text with a separator is matched in two parts, around the item that takes the separator
  (`accepts_iff_crosses`).
-/

import Mathlib.Data.List.Basic

namespace Glob

open List

/-! ## Runes -/

/-- `n` more bytes of the rune `r`, the first of them in the bounds. -/
def continued : Nat → Nat → Nat → Nat → List UInt8 → Option (Nat × List UInt8)
  | 0, _, _, r, s => some (r, s)
  | _ + 1, _, _, _, [] => none
  | n + 1, lo, hi, r, b :: s =>
    if lo ≤ b.toNat ∧ b.toNat ≤ hi then continued n 0x80 0xBF (r * 64 + b.toNat % 64) s else none

/-- The rune of more than one byte that starts with `b`. -/
def multibyte (b : Nat) (s : List UInt8) : Option (Nat × List UInt8) :=
  if b < 0xC2 then none
  else if b < 0xE0 then continued 1 0x80 0xBF (b % 32) s
  else if b < 0xF0 then
    continued 2 (if b = 0xE0 then 0xA0 else 0x80) (if b = 0xED then 0x9F else 0xBF) (b % 16) s
  else if b < 0xF5 then
    continued 3 (if b = 0xF0 then 0x90 else 0x80) (if b = 0xF4 then 0x8F else 0xBF) (b % 8) s
  else none

/-- `utf8.DecodeRuneInString`: the first rune of a text and what follows it.  There is no rune
    for a byte that starts none. -/
def decodeRune (b : UInt8) (s : List UInt8) : Option Nat × List UInt8 :=
  if b.toNat < 0x80 then (some b.toNat, s)
  else match multibyte b.toNat s with
    | some x => (some x.1, x.2)
    | none => (none, s)

def runeError : Nat := 0xFFFD

/-! ## Reading a pattern -/

/-- What stands for one rune or byte. -/
inductive Item where
  | any
  | lit (b : UInt8)
  | cls (negated : Bool) (ranges : List (Nat × Nat))
  deriving DecidableEq, Repr

/-- The items between two stars, and whether a star stands in front of them. -/
structure Chunk where
  star : Bool
  items : List Item
  deriving DecidableEq, Repr

/-- The end of the next chunk; `inrange` is whether a bracket is open. -/
def scan (inrange : Bool) : List UInt8 → List UInt8 × List UInt8
  | [] => ([], [])
  | b :: s =>
    if b = '\\'.toUInt8 then
      match s with
      | [] => ([b], [])
      | c :: s => let rest := scan inrange s; (b :: c :: rest.1, rest.2)
    else if b = '*'.toUInt8 ∧ inrange = false then ([], b :: s)
    else
      let rest := scan (b = '['.toUInt8 || (b ≠ ']'.toUInt8 && inrange)) s
      (b :: rest.1, rest.2)

def scanChunk (pattern : List UInt8) : Bool × List UInt8 × List UInt8 :=
  (pattern.head? == some '*'.toUInt8, scan false (pattern.dropWhile (· == '*'.toUInt8)))

/-- A character of a class, possibly escaped.  Something has to follow it. -/
def getEsc : List UInt8 → Option (Nat × List UInt8)
  | [] => none
  | b :: s =>
    if b = '-'.toUInt8 ∨ b = ']'.toUInt8 then none
    else
      let start := if b = '\\'.toUInt8 then s else b :: s
      match start with
      | [] => none
      | b :: s =>
        match decodeRune b s with
        | (some r, c :: s) => some (r, c :: s)
        | _ => none

/-- The ranges of a class up to its bracket.  A range has at least one byte, so the length of
    the chunk is enough fuel. -/
def getRanges : Nat → List (Nat × Nat) → List UInt8 → Option (List (Nat × Nat) × List UInt8)
  | 0, _, _ => none
  | fuel + 1, ranges, chunk =>
    if chunk.head? = some ']'.toUInt8 ∧ ranges ≠ [] then some (ranges, chunk.tail)
    else (getEsc chunk).bind fun lo =>
      if lo.2.head? = some '-'.toUInt8 then
        (getEsc lo.2.tail).bind fun hi => getRanges fuel (ranges ++ [(lo.1, hi.1)]) hi.2
      else getRanges fuel (ranges ++ [(lo.1, lo.1)]) lo.2

/-- The items of a chunk, as `matchChunk` reads them, and none if the chunk is malformed. -/
def parseChunk : Nat → List UInt8 → Option (List Item)
  | 0, _ => some []
  | _, [] => some []
  | fuel + 1, b :: s =>
    if b = '['.toUInt8 then
      let negated := s.head? == some '^'.toUInt8
      (getRanges (s.length + 1) [] (if negated then s.tail else s)).bind fun x =>
        (parseChunk fuel x.2).map (.cls negated x.1 :: ·)
    else if b = '?'.toUInt8 then (parseChunk fuel s).map (.any :: ·)
    else if b = '\\'.toUInt8 then
      match s with
      | [] => none
      | c :: s => (parseChunk fuel s).map (.lit c :: ·)
    else (parseChunk fuel s).map (.lit b :: ·)

def parseChunks : Nat → List UInt8 → Option (List Chunk)
  | 0, _ => some []
  | _, [] => some []
  | fuel + 1, pattern =>
    let next := scanChunk pattern
    (parseChunk next.2.1.length next.2.1).bind fun items =>
      (parseChunks fuel next.2.2).map (⟨next.1, items⟩ :: ·)

/-- The chunks of a well-formed pattern.  A match of any text fails with `ErrBadPattern` if one
    of the chunks is malformed, since the chunks behind a failure are read too. -/
def parse (pattern : List UInt8) : Option (List Chunk) := parseChunks pattern.length pattern

/-! ## Matching -/

/-- What is left of the text `b :: s` behind the item. -/
def Item.take (sep : UInt8) (item : Item) (b : UInt8) (s : List UInt8) : Option (List UInt8) :=
  let rune := decodeRune b s
  match item with
  | .any => if b = sep then none else some rune.2
  | .lit c => if b = c then some s else none
  | .cls negated ranges =>
    let r := rune.1.getD runeError
    if (ranges.any fun x => x.1 ≤ r && r ≤ x.2) != negated then some rune.2 else none

/-- `matchChunk`: what is left of the text behind the items. -/
def fits (sep : UInt8) : List Item → List UInt8 → Option (List UInt8)
  | [], s => some s
  | _ :: _, [] => none
  | item :: items, b :: s => (item.take sep b s).bind (fits sep items)

/-- The chunk fits here; the last one has to reach the end of the text. -/
def Chunk.here (sep : UInt8) (c : Chunk) (last : Bool) (s : List UInt8) : Option (List UInt8) :=
  (fits sep c.items s).filter fun t => !last || t.isEmpty

/-- What is left behind the chunk at the first place where it fits.  A star skips no separator. -/
def Chunk.place (sep : UInt8) (c : Chunk) (last : Bool) : List UInt8 → Option (List UInt8)
  | [] => c.here sep last []
  | b :: s => (c.here sep last (b :: s)).or
      (if c.star = true ∧ b ≠ sep then c.place sep last s else none)

/-- A star at the end of the pattern. -/
def Chunk.trailing (c : Chunk) : Bool := c.star && c.items.isEmpty

/-- `Match` on a well-formed pattern. -/
def accepts (sep : UInt8) : List Chunk → List UInt8 → Bool
  | [], s => s.isEmpty
  | c :: cs, s =>
    if c.trailing then !s.contains sep
    else match c.place sep cs.isEmpty s with
      | some t => accepts sep cs t
      | none => false

/-! ## Texts with a separator -/

/-- The pattern is matched across the separator behind a text and in front of `b`. -/
inductive Crosses (sep : UInt8) (b : List UInt8) : List Chunk → List UInt8 → Prop
  /-- The first chunk ends in front of the separator. -/
  | later {c : Chunk} {cs : List Chunk} {d t : List UInt8} : c.trailing = false →
      c.place sep false (d ++ sep :: b) = some (t ++ sep :: b) → Crosses sep b cs t →
      Crosses sep b (c :: cs) d
  /-- At its place behind `u`, an item of the first chunk takes the separator.  The items behind
      that item fit `b`, and the other chunks match what they leave of it. -/
  | here {c : Chunk} {cs : List Chunk} {pre post : List Item} {item : Item}
      {u v t : List UInt8} : c.place sep cs.isEmpty (u ++ v ++ sep :: b) = some t →
      c.items = pre ++ item :: post → fits sep pre v = some [] → item.take sep sep b = some b →
      fits sep post b = some t → accepts sep cs t = true → Crosses sep b (c :: cs) (u ++ v)

section Separator

variable {sep : UInt8} (hsep : sep.toNat < 0x80) {b t v : List UInt8}

section Runes

include hsep

theorem continued_append {lo : Nat} (hlo : 0x80 ≤ lo) (n hi r : Nat) (s : List UInt8) :
    continued n lo hi r (s ++ sep :: b) =
      (continued n lo hi r s).map fun x => (x.1, x.2 ++ sep :: b) := by
  induction n generalizing lo hi r s with
  | zero => rfl
  | succ n ih =>
    cases s with
    | nil => exact if_neg fun h => absurd h.1 (by omega)
    | cons c s =>
      rw [cons_append, continued, continued]
      split
      · exact ih (Nat.le_refl 0x80) ..
      · rfl

theorem decodeRune_append (c : UInt8) (s : List UInt8) : decodeRune c (s ++ sep :: b) =
      ((decodeRune c s).1, (decodeRune c s).2 ++ sep :: b) := by
  have hmulti : multibyte c.toNat (s ++ sep :: b) =
      (multibyte c.toNat s).map fun x => (x.1, x.2 ++ sep :: b) := by
    unfold multibyte
    repeat' split
    all_goals first
      | rfl
      | exact continued_append hsep (by decide) ..
  unfold decodeRune
  rw [hmulti]
  split
  · rfl
  · cases multibyte c.toNat s with
    | none | some x => rfl

theorem take_append (item : Item) (c : UInt8) (s : List UInt8) :
    item.take sep c (s ++ sep :: b) = (item.take sep c s).map (· ++ sep :: b) := by
  unfold Item.take
  rw [decodeRune_append hsep]
  cases item with
  | any | lit d | cls negated ranges =>
    simp only
    split
    · rfl
    · rfl

/-- The item takes the separator or does not fit. -/
theorem take_sep (item : Item) : item.take sep sep b = some b ∨ item.take sep sep b = none := by
  have hrune : decodeRune sep b = (some sep.toNat, b) := if_pos hsep
  unfold Item.take
  rw [hrune]
  cases item with
  | any | lit d | cls negated ranges =>
    simp only
    split
    · simp
    · simp

omit hsep in
theorem fits_cons (item : Item) (items : List Item) (c : UInt8) (s : List UInt8) :
    fits sep (item :: items) (c :: s) = (item.take sep c s).bind (fits sep items) := rfl

/-- Items fit over a separator in front of it or around an item that takes it. -/
theorem fits_append {items : List Item} (h : fits sep items (v ++ sep :: b) = some t) :
    (∃ t', t = t' ++ sep :: b) ∨
      ∃ pre item post, items = pre ++ item :: post ∧ fits sep pre v = some [] ∧
        item.take sep sep b = some b ∧ fits sep post b = some t := by
  induction items generalizing v with
  | nil => exact .inl ⟨v, (Option.some.inj h).symm⟩
  | cons i items ih =>
    cases v with
    | nil =>
      rw [nil_append, fits_cons] at h
      rcases take_sep hsep (b := b) i with htake | htake
      · rw [htake] at h
        exact .inr ⟨[], i, items, rfl, rfl, htake, h⟩
      · rw [htake] at h
        cases h
    | cons c v =>
      rw [cons_append, fits_cons, take_append hsep] at h
      obtain ⟨_, hs, h⟩ := Option.bind_eq_some_iff.mp h
      obtain ⟨s, htake, rfl⟩ := Option.map_eq_some_iff.mp hs
      refine (ih h).imp_right ?_
      rintro ⟨pre, item, post, rfl, hpre, hrest⟩
      refine ⟨i :: pre, item, post, rfl, ?_, hrest⟩
      rw [fits_cons, htake]
      exact hpre

end Runes

/-- A chunk is put behind bytes that are no separators. -/
theorem of_place {c : Chunk} {last : Bool} {s : List UInt8} (h : c.place sep last s = some t) :
    ∃ u v, s = u ++ v ∧ sep ∉ u ∧ c.here sep last v = some t := by
  induction s with
  | nil => exact ⟨[], [], rfl, not_mem_nil, h⟩
  | cons b s ih =>
    rw [Chunk.place, Option.or_eq_some_iff] at h
    rcases h with h | ⟨-, h⟩
    · exact ⟨[], b :: s, rfl, not_mem_nil, h⟩
    · split at h
      · rename_i hskip
        obtain ⟨u, v, rfl, hu, h⟩ := ih h
        exact ⟨b :: u, v, rfl, fun hmem => (mem_cons.mp hmem).elim (hskip.2 ·.symm) hu, h⟩
      · cases h

/-- What stands in front of a separator that is not skipped. -/
theorem split_of_not_mem {d u : List UInt8} (h : d ++ sep :: b = u ++ v) (hu : sep ∉ u) :
    ∃ d', d = u ++ d' ∧ v = d' ++ sep :: b := by
  rcases append_eq_append_iff.mp h with ⟨x, hux, hv⟩ | ⟨x, hd, hv⟩
  · cases x with
    | nil => exact ⟨[], by simpa using hux.symm, by simpa using hv.symm⟩
    | cons y x =>
      obtain ⟨rfl, -⟩ := List.cons.inj hv
      exact absurd (by rw [hux]; simp) hu
  · exact ⟨x, hd, hv⟩

theorem accepts_cons {c : Chunk} {cs : List Chunk} {s : List UInt8} (hc : c.trailing = false) :
    accepts sep (c :: cs) s = true ↔
      ∃ t, c.place sep cs.isEmpty s = some t ∧ accepts sep cs t = true := by
  rw [accepts, hc, if_neg Bool.false_ne_true]
  cases c.place sep cs.isEmpty s with
  | none | some t => simp

include hsep

/-- A text with a separator is matched across the separator. -/
theorem accepts_iff_crosses {cs : List Chunk} {d : List UInt8} :
    accepts sep cs (d ++ sep :: b) = true ↔ Crosses sep b cs d := by
  constructor
  · intro h
    induction cs generalizing d with
    | nil => simp [accepts] at h
    | cons c cs ih =>
      cases hc : c.trailing with
      | true => simp [accepts, hc] at h
      | false =>
        obtain ⟨t, hplace, hrest⟩ := (accepts_cons hc).mp h
        obtain ⟨u, w, huw, hu, hhere⟩ := of_place hplace
        obtain ⟨v, rfl, rfl⟩ := split_of_not_mem huw hu
        obtain ⟨hfits, hlast⟩ := Option.filter_eq_some_iff.mp hhere
        rcases fits_append hsep hfits with ⟨t', rfl⟩ | ⟨pre, item, post, hitems, hpre, htake, hpost⟩
        · -- The chunk ends in front of the separator, so it is not the last one.
          cases cs with
          | nil => simp at hlast
          | cons c' cs => exact .later hc hplace (ih hrest)
        · exact .here hplace hitems hpre htake hpost hrest
  · intro h
    induction h with
    | @later c cs d t hc hplace hcross ih =>
      cases cs with
      | nil => cases hcross
      | cons c' cs => exact (accepts_cons hc).mpr ⟨_, hplace, ih⟩
    | here hplace hitems _ _ _ hrest =>
      exact (accepts_cons (by simp [Chunk.trailing, hitems])).mpr ⟨_, hplace, hrest⟩

end Separator

end Glob
