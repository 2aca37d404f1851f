/-
  SysnetLinux.Connmark.Classify

  What the installed connmark rules do to the marks of a connection.

  No rule stops its chain, so the last match decides.  The accepted selectors are disjoint as sets
  of marks (`marksOverlap_iff`), and the value of a selector is one of its marks; so at most one
  rule of a chain matches, and the saved mark is restored by the rule of the same selector.
-/

import Mathlib.Data.List.Pairwise
import Mathlib.Data.List.Nodup
import SysnetLinux.Connmark
import SysnetLinux.Lib.LastMatch

namespace SysnetLinux.Connmark

open LastMatch List

/-! ## Selectors as sets of marks -/

/-- The mark has the selector's value under its mask. -/
def Mark.Matches (s : Mark) (m : BitVec 32) : Prop := m &&& s.mask = s.value &&& s.mask

instance (s : Mark) : DecidablePred s.Matches := fun m =>
  inferInstanceAs (Decidable (m &&& s.mask = s.value &&& s.mask))

theorem Mark.matches_value (s : Mark) : s.Matches s.value := rfl

theorem Mark.matches_iff_bits {s : Mark} {m : BitVec 32} :
    s.Matches m ↔ ∀ i, s.mask.getLsbD i = true → m.getLsbD i = s.value.getLsbD i := by
  constructor
  · intro h i hi
    have hbit := congrArg (fun x => x.getLsbD i) h
    simpa only [BitVec.getLsbD_and, hi, Bool.and_true] using hbit
  · intro h
    apply BitVec.eq_of_getLsbD_eq
    intro i _
    rw [BitVec.getLsbD_and, BitVec.getLsbD_and]
    cases hmask : s.mask.getLsbD i with
    | false => simp
    | true => rw [h i hmask]

theorem marksOverlap_iff {a b : Mark} :
    marksOverlap a b = true ↔ ∃ m, a.Matches m ∧ b.Matches m := by
  have hcommon : marksOverlap a b = true ↔ ∀ i, a.mask.getLsbD i = true →
      b.mask.getLsbD i = true → a.value.getLsbD i = b.value.getLsbD i := by
    have h := Mark.matches_iff_bits (s := ⟨b.value, a.mask &&& b.mask⟩) (m := a.value)
    simp only [BitVec.getLsbD_and, Bool.and_eq_true, and_imp] at h
    rw [← h]
    exact beq_iff_eq
  rw [hcommon]
  constructor
  · intro h
    -- Take each bit from the selector whose mask has it.
    refine ⟨(a.value &&& a.mask) ||| (b.value &&& b.mask), ?_, ?_⟩ <;>
      rw [Mark.matches_iff_bits] <;> intro i hi <;>
      simp only [BitVec.getLsbD_or, BitVec.getLsbD_and, hi, Bool.and_true]
    · cases hb : b.mask.getLsbD i with
      | false => simp
      | true => simp [h i hi hb]
    · cases ha : a.mask.getLsbD i with
      | false => simp
      | true => simp [h i ha hi]
  · rintro ⟨m, ha, hb⟩ i hai hbi
    exact (Mark.matches_iff_bits.mp ha i hai).symm.trans (Mark.matches_iff_bits.mp hb i hbi)

theorem marksOverlap_comm (a b : Mark) : marksOverlap a b = marksOverlap b a := by
  rw [Bool.eq_iff_iff, marksOverlap_iff, marksOverlap_iff]
  exact exists_congr fun m => and_comm

/-- No mark matches two different selectors of the list. -/
def Separate (marks : List Mark) : Prop :=
  ∀ s ∈ marks, ∀ t ∈ marks, s ≠ t → ∀ m, ¬ (s.Matches m ∧ t.Matches m)

theorem Separate.eq {marks : List Mark} (h : Separate marks) {s t : Mark} (hs : s ∈ marks)
    (ht : t ∈ marks) {m : BitVec 32} (hsm : s.Matches m) (htm : t.Matches m) : s = t := by
  by_contra hne
  exact h s hs t ht hne m ⟨hsm, htm⟩

theorem Separate.of_mem_iff {marks marks' : List Mark} (h : Separate marks)
    (hmem : ∀ s, s ∈ marks' ↔ s ∈ marks) : Separate marks' :=
  fun s hs t ht => h s ((hmem s).mp hs) t ((hmem t).mp ht)

/-! ## Acceptance -/

section Accept

variable {E : Type} {marks out r : List Mark}

/-- The first loop refuses a zero mask and drops repetitions. -/
theorem scanMarks_cases (marks out : List Mark) :
    (∃ s ∈ marks, s.mask = 0) ∧ scanMarks (E := E) out marks = .error .zeroMask ∨
    (∀ s ∈ marks, s.mask ≠ 0) ∧ ∃ r, scanMarks (E := E) out marks = .ok r ∧
      (∀ s, s ∈ r ↔ s ∈ out ∨ s ∈ marks) ∧ (out.Nodup → r.Nodup) := by
  induction marks generalizing out with
  | nil => exact .inr ⟨by simp, out, rfl, by simp, id⟩
  | cons mark rest ih =>
    rw [scanMarks]
    by_cases hmask : mark.mask = 0
    · exact .inl ⟨⟨mark, mem_cons_self, hmask⟩, if_pos hmask⟩
    · rw [if_neg hmask]
      rcases ih (if mark ∈ out then out else out ++ [mark]) with
        ⟨⟨s, hs, hzero⟩, herr⟩ | ⟨hall, r, hr, hmem, hnodup⟩
      · exact .inl ⟨⟨s, mem_cons_of_mem _ hs, hzero⟩, herr⟩
      · refine .inr ⟨forall_mem_cons.mpr ⟨hmask, hall⟩, r, hr, fun s => ?_, fun hout => ?_⟩
        · rw [hmem s, mem_cons]
          by_cases hin : mark ∈ out
          · rw [if_pos hin]
            constructor
            · rintro (h | h)
              · exact .inl h
              · exact .inr (.inr h)
            · rintro (h | rfl | h)
              · exact .inl h
              · exact .inl hin
              · exact .inr h
          · rw [if_neg hin, mem_append, mem_singleton, or_assoc]
        · refine hnodup ?_
          by_cases hin : mark ∈ out
          · rwa [if_pos hin]
          · rw [if_neg hin]
            exact nodup_append.mpr ⟨hout, nodup_singleton _, by
              rintro s hs t ht rfl
              exact hin (mem_singleton.mp ht ▸ hs)⟩

theorem someOverlap_eq_false_iff :
    someOverlap marks = false ↔ marks.Pairwise fun a b => marksOverlap a b = false := by
  induction marks with
  | nil => simp [someOverlap]
  | cons a rest ih => simp [someOverlap, ih, pairwise_cons]

theorem someOverlap_iff_separate (hnodup : marks.Nodup) :
    someOverlap marks = false ↔ Separate marks := by
  have hpair : ∀ a b : Mark, marksOverlap a b = false ↔ ∀ m, ¬ (a.Matches m ∧ b.Matches m) := by
    intro a b
    rw [← not_exists, ← marksOverlap_iff, Bool.not_eq_true]
  rw [someOverlap_eq_false_iff]
  constructor
  · intro h s hs t ht hne
    have hsymm : Std.Symm fun a b : Mark => marksOverlap a b = false :=
      ⟨fun a b hab => marksOverlap_comm a b ▸ hab⟩
    exact (hpair s t).mp (h.forall hs ht hne)
  · intro h
    exact hnodup.pairwise_of_forall_ne fun s hs t ht hne => (hpair s t).mpr (h s hs t ht hne)

theorem normalizeMarks_ok (h : normalizeMarks (E := E) marks = .ok out) :
    (∀ s, s ∈ out ↔ s ∈ marks) ∧ (∀ s ∈ marks, s.mask ≠ 0) ∧ Separate marks := by
  unfold normalizeMarks at h
  rcases scanMarks_cases (E := E) marks [] with
    ⟨-, herr⟩ | ⟨hmask, r, hr, hmem, hnodup⟩
  · rw [herr] at h
    cases h
  · rw [hr] at h
    cases hover : someOverlap r with
    | true => simp [hover] at h
    | false =>
      obtain rfl : r = out := by simpa [hover] using h
      have hmem' : ∀ s, s ∈ r ↔ s ∈ marks := fun s => by simpa using hmem s
      have hseparate := (someOverlap_iff_separate (hnodup nodup_nil)).mp hover
      exact ⟨hmem', hmask, hseparate.of_mem_iff fun s => (hmem' s).symm⟩

theorem normalizeMarks_accepts (hmask : ∀ s ∈ marks, s.mask ≠ 0) (hseparate : Separate marks) :
    ∃ out, normalizeMarks (E := E) marks = .ok out := by
  unfold normalizeMarks
  rcases scanMarks_cases (E := E) marks [] with
    ⟨⟨s, hs, hzero⟩, -⟩ | ⟨-, r, hr, hmem, hnodup⟩
  · exact absurd hzero (hmask s hs)
  · have hover : someOverlap r = false :=
      (someOverlap_iff_separate (hnodup nodup_nil)).mpr
        (hseparate.of_mem_iff fun s => by simpa using hmem s)
    exact ⟨r, by simp [hr, hover]⟩

end Accept

/-! ## Running a chain -/

/-- The mark of a packet and that of its connection. -/
structure PacketMarks where
  packet : BitVec 32
  ct : BitVec 32
  deriving DecidableEq

def PacketMarks.get (p : PacketMarks) : MarkKey → BitVec 32
  | .metaMark => p.packet
  | .ctMark => p.ct

def PacketMarks.set (p : PacketMarks) (key : MarkKey) (value : BitVec 32) : PacketMarks :=
  match key with
  | .metaMark => { p with packet := value }
  | .ctMark => { p with ct := value }

/-- Evaluate the expressions of a rule from left to right; a comparison that fails ends the rule. -/
def evalExprs : List Expr → BitVec 32 → PacketMarks → PacketMarks
  | [], _, p => p
  | .load key :: rest, _, p => evalExprs rest (p.get key) p
  | .bitwise mask xor :: rest, register, p => evalExprs rest ((register &&& mask) ^^^ xor) p
  | .cmpEq data :: rest, register, p => if register = data then evalExprs rest register p else p
  | .immediate data :: rest, _, p => evalExprs rest data p
  | .store key :: rest, register, p => evalExprs rest register (p.set key register)

/-- The rules a batch adds to a chain of the table, in their order. -/
def chainRules (chain : String) (batch : List Message) : List (List Expr) :=
  batch.filterMap fun
    | .addRule table name exprs =>
      if table = connmarkTable ∧ name = chain then some exprs else none
    | _ => none

/-- Run the rules of a chain in order; none of them ends the chain. -/
def runChain (rules : List (List Expr)) (p : PacketMarks) : PacketMarks :=
  rules.foldl (fun p exprs => evalExprs exprs 0 p) p

theorem chainRules_installBatch (marks : List Mark) :
    chainRules "output" (installBatch marks) = marks.map saveMarkExprs ∧
      chainRules "prerouting" (installBatch marks) = marks.map restoreMarkExprs := by
  -- The three messages in front of the rules add none.
  show chainRules "output" (marks.flatMap _) = _ ∧ chainRules "prerouting" (marks.flatMap _) = _
  induction marks with
  | nil => exact ⟨rfl, rfl⟩
  | cons mark marks ih =>
    rw [map_cons, map_cons, ← ih.1, ← ih.2]
    exact ⟨rfl, rfl⟩

theorem PacketMarks.get_set_of_ne {key key' : MarkKey} (h : key ≠ key') (p : PacketMarks)
    (value : BitVec 32) : (p.set key' value).get key = p.get key := by
  cases key <;> cases key' <;> first | rfl | exact absurd rfl h

theorem PacketMarks.get_set_self (key : MarkKey) (p : PacketMarks) (value : BitVec 32) :
    (p.set key value).get key = value := by
  cases key <;> rfl

theorem PacketMarks.set_set (key : MarkKey) (p : PacketMarks) (v w : BitVec 32) :
    (p.set key v).set key w = p.set key w := by
  cases key <;> rfl

theorem PacketMarks.set_get (key : MarkKey) (p : PacketMarks) : p.set key (p.get key) = p := by
  cases key <;> rfl

/-- A rule of the table: on a match of the one mark, the value goes to the other. -/
theorem evalExprs_match (key key' : MarkKey) (s : Mark) (p : PacketMarks) :
    evalExprs (matchMarkExprs key s ++ setMarkExprs key' s.value) 0 p =
      if s.Matches (p.get key) then p.set key' s.value else p := by
  by_cases h : p.get key &&& s.mask = s.value &&& s.mask <;>
    simp [matchMarkExprs, setMarkExprs, evalExprs, Mark.Matches, h]

/-- A chain that reads one mark and writes the other ends with the value of the last
    selector that matches. -/
theorem runChain_match {key key' : MarkKey} (hne : key ≠ key') (marks : List Mark)
    (p : PacketMarks) :
    runChain (marks.map fun s => matchMarkExprs key s ++ setMarkExprs key' s.value) p =
      p.set key' (lastMatch (fun s => s.Matches (p.get key)) Mark.value (p.get key') marks) := by
  rw [runChain, foldl_map]
  induction marks generalizing p with
  | nil => exact (p.set_get key').symm
  | cons s marks ih =>
    rw [foldl_cons, evalExprs_match, ih]
    by_cases h : s.Matches (p.get key)
    · rw [if_pos h, p.get_set_of_ne hne, p.get_set_self, p.set_set]
      simp [lastMatch, h]
    · simp [lastMatch, h]

theorem runChain_output (marks : List Mark) (p : PacketMarks) :
    runChain (chainRules "output" (installBatch marks)) p =
      { p with ct := lastMatch (fun s => s.Matches p.packet) Mark.value p.ct marks } := by
  rw [(chainRules_installBatch marks).1]
  exact runChain_match (by decide) marks p

theorem runChain_prerouting (marks : List Mark) (p : PacketMarks) :
    runChain (chainRules "prerouting" (installBatch marks)) p =
      { p with packet := lastMatch (fun s => s.Matches p.ct) Mark.value p.packet marks } := by
  rw [(chainRules_installBatch marks).2]
  exact runChain_match (by decide) marks p

/-! ## A connection -/

/-- The conntrack mark after a packet with mark `m` has left through the output chain, and
    the mark of a reply that came in with mark `m'`. -/
def roundTrip (marks : List Mark) (m c m' : BitVec 32) : PacketMarks :=
  let sent := runChain (chainRules "output" (installBatch marks)) ⟨m, c⟩
  runChain (chainRules "prerouting" (installBatch marks)) ⟨m', sent.ct⟩

section Connection

variable {marks marks' : List Mark} {m c m' : BitVec 32} {s : Mark}

theorem roundTrip_ct : (roundTrip marks m c m').ct =
    lastMatch (fun s => s.Matches m) Mark.value c marks := by
  simp only [roundTrip, runChain_output, runChain_prerouting]

theorem roundTrip_packet : (roundTrip marks m c m').packet =
    lastMatch (fun s => s.Matches (roundTrip marks m c m').ct) Mark.value m' marks := by
  simp only [roundTrip, runChain_output, runChain_prerouting]

/-- A scan of separate selectors has at most one match. -/
theorem Separate.lastMatch_eq (h : Separate marks) (hs : s ∈ marks) (hm : s.Matches m)
    (init : BitVec 32) : lastMatch (fun s => s.Matches m) Mark.value init marks = s.value :=
  lastMatch_of_mem hs hm fun t ht htm => by rw [h.eq ht hs htm hm]

theorem Separate.lastMatch_congr (h : Separate marks) (hmem : ∀ s, s ∈ marks' ↔ s ∈ marks)
    (init : BitVec 32) : lastMatch (fun s => s.Matches m) Mark.value init marks' =
      lastMatch (fun s => s.Matches m) Mark.value init marks :=
  LastMatch.lastMatch_congr hmem fun s hs t ht hsm htm => by rw [h.eq ht hs htm hsm]

theorem Separate.roundTrip_congr (h : Separate marks) (hmem : ∀ s, s ∈ marks' ↔ s ∈ marks) :
    roundTrip marks' m c m' = roundTrip marks m c m' := by
  simp only [roundTrip, runChain_output, runChain_prerouting, h.lastMatch_congr hmem]

end Connection

theorem connmark_preserves_classification {E : Type} (marks : List Mark) :
    ((∃ out, normalizeMarks (E := E) marks = .ok out) ↔
      (∀ s ∈ marks, s.mask ≠ 0) ∧
        ∀ s ∈ marks, ∀ t ∈ marks, s ≠ t → ∀ m, ¬ (s.Matches m ∧ t.Matches m)) ∧
    ∀ out, normalizeMarks (E := E) marks = .ok out → ∀ m c m' : BitVec 32,
      (∀ s ∈ marks, s.Matches m →
        s.Matches (roundTrip out m c m').packet ∧
          ∀ t ∈ marks, t ≠ s → ¬ t.Matches (roundTrip out m c m').packet) ∧
      ((∀ s ∈ marks, ¬ s.Matches m) →
        (roundTrip out m c m').ct = c ∧
        (∀ t ∈ marks, t.Matches c → t.Matches (roundTrip out m c m').packet) ∧
        ((∀ t ∈ marks, ¬ t.Matches c) → (roundTrip out m c m').packet = m')) ∧
      ∀ marks', marks'.Perm marks →
        ∃ out', normalizeMarks (E := E) marks' = .ok out' ∧
          roundTrip out' m c m' = roundTrip out m c m' := by
  refine ⟨⟨fun ⟨out, h⟩ => (normalizeMarks_ok h).2, fun h => normalizeMarks_accepts h.1 h.2⟩, ?_⟩
  intro out hout m c m'
  obtain ⟨hmem, hmask, hseparate⟩ := normalizeMarks_ok hout
  have hout' : Separate out := hseparate.of_mem_iff hmem
  refine ⟨fun s hs hsm => ?_, fun hnone => ?_, fun marks' hperm => ?_⟩
  · have hsaved : (roundTrip out m c m').ct = s.value := by
      rw [roundTrip_ct, hout'.lastMatch_eq ((hmem s).mpr hs) hsm]
    have hrestored : (roundTrip out m c m').packet = s.value := by
      rw [roundTrip_packet, hsaved, hout'.lastMatch_eq ((hmem s).mpr hs) s.matches_value]
    rw [hrestored]
    exact ⟨s.matches_value, fun t ht hne htm => hseparate t ht s hs hne _ ⟨htm, s.matches_value⟩⟩
  · have hkept : (roundTrip out m c m').ct = c := by
      rw [roundTrip_ct, lastMatch_of_none fun s hs => hnone s ((hmem s).mp hs)]
    refine ⟨hkept, fun t ht htc => ?_, fun hfree => ?_⟩
    · rw [roundTrip_packet, hkept, hout'.lastMatch_eq ((hmem t).mpr ht) htc]
      exact t.matches_value
    · rw [roundTrip_packet, hkept, lastMatch_of_none fun t ht => hfree t ((hmem t).mp ht)]
  · have hsame : ∀ s, s ∈ marks' ↔ s ∈ marks := fun s => hperm.mem_iff
    obtain ⟨out', hok⟩ := normalizeMarks_accepts (E := E)
      (fun s hs => hmask s ((hsame s).mp hs)) (hseparate.of_mem_iff hsame)
    refine ⟨out', hok, hout'.roundTrip_congr fun s => ?_⟩
    rw [(normalizeMarks_ok hok).1 s, hsame s, hmem s]

/-- Two selectors of the low byte; the first value has a bit outside its mask. -/
def byteMarks : List Mark := [⟨0x101#32, 0xff#32⟩, ⟨0x2#32, 0xff#32⟩]

theorem connmark_preserves_classification_byteMarks :
    ∃ out, normalizeMarks (E := Empty) byteMarks = .ok out ∧
      (roundTrip out 0x701#32 0x2#32 0#32).packet = 0x101#32 ∧
      (⟨0x101#32, 0xff#32⟩ : Mark).Matches (roundTrip out 0x701#32 0x2#32 0#32).packet := by
  have hout : normalizeMarks (E := Empty) byteMarks = .ok byteMarks := rfl
  obtain ⟨-, hrun⟩ := connmark_preserves_classification (E := Empty) byteMarks
  obtain ⟨hmatch, -, -⟩ := hrun byteMarks hout 0x701#32 0x2#32 0#32
  exact ⟨byteMarks, hout, by decide, (hmatch ⟨0x101#32, 0xff#32⟩ (by decide) (by decide)).1⟩

end SysnetLinux.Connmark
