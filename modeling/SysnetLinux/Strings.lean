/-
  SysnetLinux.Strings

  The functions of Go's `strings` that the program uses, on texts as lists of characters.
-/

import Mathlib.Data.List.Basic

namespace SysnetLinux.Strings

open List

/-- `unicode.IsSpace`. -/
def isSpace (c : Char) : Bool :=
  let n := c.toNat
  (9 ≤ n && n ≤ 13) || n == 0x20 || n == 0x85 || n == 0xa0 || n == 0x1680 ||
    (0x2000 ≤ n && n ≤ 0x200a) || n == 0x2028 || n == 0x2029 || n == 0x202f || n == 0x205f ||
    n == 0x3000

/-- The ranges of `unicode.CaseRanges` above ASCII in which capitals and small letters alternate. -/
def alternating : List (Nat × Nat) :=
  [(256, 303), (306, 311), (313, 328), (330, 375), (377, 382), (386, 389), (391, 392), (395, 396),
   (401, 402), (408, 409), (416, 421), (423, 424), (428, 429), (431, 432), (435, 438), (440, 441),
   (444, 445), (453, 454), (456, 457), (459, 476), (478, 495), (498, 501), (504, 543), (546, 563),
   (571, 572), (577, 578), (582, 591), (880, 883), (886, 887), (984, 1007), (1015, 1016), (1018,
   1019), (1120, 1153), (1162, 1215), (1217, 1230), (1232, 1327), (7680, 7829), (7840, 7935), (8579,
   8580), (11360, 11361), (11367, 11372), (11378, 11379), (11381, 11382), (11392, 11491), (11499,
   11502), (11506, 11507), (42560, 42605), (42624, 42651), (42786, 42799), (42802, 42863), (42873,
   42876), (42878, 42887), (42891, 42892), (42896, 42899), (42902, 42921), (42932, 42947), (42951,
   42954), (42960, 42961), (42966, 42969), (42997, 42998)]

/-- The other ranges with a lower case: first and last letter, and how far away it is. -/
def shifted : List (Nat × Nat × Int) :=
  [(192, 214, 32), (216, 222, 32), (304, 304, -199), (376, 376, -121), (385, 385, 210), (390, 390,
   206), (393, 394, 205), (398, 398, 79), (399, 399, 202), (400, 400, 203), (403, 403, 205), (404,
   404, 207), (406, 406, 211), (407, 407, 209), (412, 412, 211), (413, 413, 213), (415, 415, 214),
   (422, 422, 218), (425, 425, 218), (430, 430, 218), (433, 434, 217), (439, 439, 219), (452, 452,
   2), (455, 455, 2), (458, 458, 2), (497, 497, 2), (502, 502, -97), (503, 503, -56), (544, 544,
   -130), (570, 570, 10795), (573, 573, -163), (574, 574, 10792), (579, 579, -195), (580, 580, 69),
   (581, 581, 71), (895, 895, 116), (902, 902, 38), (904, 906, 37), (908, 908, 64), (910, 911, 63),
   (913, 929, 32), (931, 939, 32), (975, 975, 8), (1012, 1012, -60), (1017, 1017, -7), (1021, 1023,
   -130), (1024, 1039, 80), (1040, 1071, 32), (1216, 1216, 15), (1329, 1366, 48), (4256, 4293,
   7264), (4295, 4295, 7264), (4301, 4301, 7264), (5024, 5103, 38864), (5104, 5109, 8), (7312, 7354,
   -3008), (7357, 7359, -3008), (7838, 7838, -7615), (7944, 7951, -8), (7960, 7965, -8), (7976,
   7983, -8), (7992, 7999, -8), (8008, 8013, -8), (8025, 8025, -8), (8027, 8027, -8), (8029, 8029,
   -8), (8031, 8031, -8), (8040, 8047, -8), (8072, 8079, -8), (8088, 8095, -8), (8104, 8111, -8),
   (8120, 8121, -8), (8122, 8123, -74), (8124, 8124, -9), (8136, 8139, -86), (8140, 8140, -9),
   (8152, 8153, -8), (8154, 8155, -100), (8168, 8169, -8), (8170, 8171, -112), (8172, 8172, -7),
   (8184, 8185, -128), (8186, 8187, -126), (8188, 8188, -9), (8486, 8486, -7517), (8490, 8490,
   -8383), (8491, 8491, -8262), (8498, 8498, 28), (8544, 8559, 16), (9398, 9423, 26), (11264, 11311,
   48), (11362, 11362, -10743), (11363, 11363, -3814), (11364, 11364, -10727), (11373, 11373,
   -10780), (11374, 11374, -10749), (11375, 11375, -10783), (11376, 11376, -10782), (11390, 11391,
   -10815), (42877, 42877, -35332), (42893, 42893, -42280), (42922, 42922, -42308), (42923, 42923,
   -42319), (42924, 42924, -42315), (42925, 42925, -42305), (42926, 42926, -42308), (42928, 42928,
   -42258), (42929, 42929, -42282), (42930, 42930, -42261), (42931, 42931, 928), (42948, 42948,
   -48), (42949, 42949, -42307), (42950, 42950, -35384), (65313, 65338, 32), (66560, 66599, 40),
   (66736, 66771, 40), (66928, 66938, 39), (66940, 66954, 39), (66956, 66962, 39), (66964, 66965,
   39), (68736, 68786, 64), (71840, 71871, 32), (93760, 93791, 32), (125184, 125217, 34)]

/-- `unicode.ToLower`. -/
def toLower (c : Char) : Char :=
  let n := c.toNat
  if n < 128 then c.toLower
  else match alternating.find? fun (lo, hi) => lo ≤ n && n ≤ hi with
    | some (lo, _) => Char.ofNat (lo + ((n - lo) ||| 1))
    | none => match shifted.find? fun (lo, hi, _) => lo ≤ n && n ≤ hi with
      | some (_, _, delta) => Char.ofNat (n + delta).toNat
      | none => c

def trimSpace (s : List Char) : List Char :=
  ((s.dropWhile isSpace).reverse.dropWhile isSpace).reverse

/-- `strings.TrimPrefix` for one character. -/
def trimHead (c : Char) : List Char → List Char
  | [] => []
  | d :: s => if d = c then s else d :: s

/-- `strings.TrimSuffix` for one character. -/
def trimLast (c : Char) (s : List Char) : List Char := (trimHead c s.reverse).reverse

/-- `strings.Fields`. -/
def fields (s : List Char) : List (List Char) := (s.splitOnP isSpace).filter (· ≠ [])

/-! ## Trimming -/

variable {s l : List Char} {c : Char}

theorem trimSpace_eq_self (h : ∀ c ∈ s, isSpace c = false) : trimSpace s = s := by
  have hdrop : ∀ l : List Char, (∀ c ∈ l, isSpace c = false) → l.dropWhile isSpace = l := by
    intro l hl
    cases l with
    | nil => rfl
    | cons c l => exact dropWhile_cons_of_neg (by rw [hl c mem_cons_self]; decide)
  unfold trimSpace
  rw [hdrop s h, hdrop s.reverse fun c hc => h c (mem_reverse.mp hc), reverse_reverse]

theorem trimHead_subset : ∀ d ∈ trimHead c s, d ∈ s := by
  intro d hd
  cases s with
  | nil => exact hd
  | cons e s =>
    rw [trimHead] at hd
    split at hd
    · exact mem_cons_of_mem e hd
    · exact hd

theorem trimHead_append {t : List Char} (hs : s ≠ []) :
    trimHead c (s ++ t) = trimHead c s ++ t := by
  obtain ⟨d, s, rfl⟩ := exists_cons_of_ne_nil hs
  rw [cons_append, trimHead, trimHead]
  split
  · rfl
  · rfl

theorem trimLast_append_singleton (c : Char) (s : List Char) : trimLast c (s ++ [c]) = s := by
  rw [trimLast, reverse_append, reverse_singleton, singleton_append, trimHead,
    if_pos rfl, reverse_reverse]

theorem trimLast_of_not_suffix (h : ¬ [c] <:+ s) : trimLast c s = s := by
  rcases eq_nil_or_concat' s with rfl | ⟨s, d, rfl⟩
  · rfl
  · have hd : d ≠ c := fun hd => h (hd ▸ suffix_append s [d])
    rw [trimLast, reverse_append, reverse_singleton, singleton_append, trimHead,
      if_neg hd, reverse_cons, reverse_reverse]

theorem mem_of_mem_trimSpace (h : c ∈ trimSpace s) : c ∈ s := by
  unfold trimSpace at h
  have h := (dropWhile_suffix _).subset (mem_reverse.mp h)
  exact (dropWhile_suffix _).subset (mem_reverse.mp h)

/-- A text that neither begins nor ends with a space. -/
def Trimmed (s : List Char) : Prop :=
  (∀ c ∈ s.head?, isSpace c = false) ∧ ∀ c ∈ s.getLast?, isSpace c = false

theorem dropWhile_of_head (h : ∀ c ∈ s.head?, isSpace c = false) : s.dropWhile isSpace = s := by
  cases s with
  | nil => rfl
  | cons c s => exact dropWhile_cons_of_neg (by rw [h c rfl]; decide)

theorem Trimmed.trimSpace_eq (h : Trimmed s) : trimSpace s = s := by
  unfold trimSpace
  rw [dropWhile_of_head h.1, dropWhile_of_head (by rw [head?_reverse]; exact h.2), reverse_reverse]

theorem trimSpace_cons (hc : isSpace c = true) (s : List Char) :
    trimSpace (c :: s) = trimSpace s := by
  unfold trimSpace
  rw [dropWhile_cons_of_pos hc]

theorem getLast?_trimSpace (s : List Char) : ∀ c ∈ (trimSpace s).getLast?, isSpace c = false := by
  intro c hc
  unfold trimSpace at hc
  rw [getLast?_reverse] at hc
  have hnot := head?_dropWhile_not isSpace (s.dropWhile isSpace).reverse
  rw [Option.mem_def.mp hc] at hnot
  simpa using hnot

/-! ## Lowering -/

theorem lower_eq_iff {c x : Char} (hx : x.toNat < 65 ∨ 122 < x.toNat) : c.toLower = x ↔ c = x := by
  unfold Char.toLower
  split
  · rename_i hupper
    have hlow : 65 ≤ c.toNat := UInt32.le_iff_toNat_le.mp hupper.1
    have hhigh : c.toNat ≤ 90 := UInt32.le_iff_toNat_le.mp hupper.2
    constructor
    · intro h
      have hsum : (c.val + ('a'.val - 'A'.val)).toNat = c.toNat + 32 := by
        rw [UInt32.toNat_add]
        show (c.toNat + 32) % 2 ^ 32 = c.toNat + 32
        omega
      have hval : x.toNat = c.toNat + 32 := (congrArg Char.toNat h).symm.trans hsum
      omega
    · intro h
      subst h
      omega
  · exact Iff.rfl

/-- The ASCII characters that have no case. -/
def Caseless (x : Char) : Prop := 0 < x.toNat ∧ x.toNat < 65 ∨ 122 < x.toNat ∧ x.toNat < 128

instance (x : Char) : Decidable (Caseless x) := inferInstanceAs (Decidable (_ ∨ _))

theorem ofNat_ne_caseless {n : Nat} {x : Char} (hx : Caseless x) (hn : 128 ≤ n ∨ 97 ≤ n ∧ n ≤ 122) :
    Char.ofNat n ≠ x := by
  rintro rfl
  have hval : (Char.ofNat n).toNat = n ∨ (Char.ofNat n).toNat = 0 := by
    by_cases h : n.isValidChar
    · exact .inl (by rw [Char.ofNat, dif_pos h]; rfl)
    · exact .inr (by rw [Char.ofNat, dif_neg h]; rfl)
  unfold Caseless at hx
  omega

/-- Lowering neither changes such a character nor makes one. -/
theorem toLower_eq_iff {c x : Char} (hx : Caseless x) : toLower c = x ↔ c = x := by
  unfold toLower
  simp only
  split
  · exact lower_eq_iff (by unfold Caseless at hx; omega)
  rename_i hn
  have hne : c ≠ x := fun h => by
    unfold Caseless at hx
    subst h
    omega
  refine ⟨fun h => ?_, fun h => absurd h hne⟩
  split at h
  · rename_i lo hi hfind
    have hlo : ∀ r ∈ alternating, 128 ≤ r.1 := by decide +kernel
    have := hlo _ (mem_of_find?_eq_some hfind)
    exact absurd h (ofNat_ne_caseless hx (by omega))
  split at h
  · rename_i lo hi delta hfind
    -- what is not far above ASCII is lowered to one of its letters
    have hall : ∀ r ∈ shifted, 128 ≤ r.1 + r.2.2 ∨ 97 ≤ r.1 + r.2.2 ∧ r.2.1 + r.2.2 ≤ 122 := by
      decide +kernel
    have hr := hall _ (mem_of_find?_eq_some hfind)
    have hin := find?_some hfind
    simp only [Bool.and_eq_true, decide_eq_true_eq] at hr hin
    exact absurd h (ofNat_ne_caseless hx (by omega))
  · exact absurd h hne

/-! ## Fields -/

theorem mem_splitOnP (hl : l ∈ s.splitOnP isSpace) : ∀ c ∈ l, isSpace c = false ∧ c ∈ s := by
  induction s generalizing l with
  | nil =>
    rw [splitOnP_nil, mem_singleton] at hl
    exact fun c hc => absurd (hl ▸ hc) not_mem_nil
  | cons d s ih =>
    rw [splitOnP_cons_eq_if_modifyHead] at hl
    split at hl
    · intro c hc
      rcases mem_cons.mp hl with rfl | hl
      · exact absurd hc not_mem_nil
      · exact ⟨(ih hl c hc).1, mem_cons_of_mem d (ih hl c hc).2⟩
    · rename_i hd
      obtain ⟨m, ms, hsplit⟩ := exists_cons_of_ne_nil (splitOnP_ne_nil isSpace s)
      rw [hsplit, modifyHead_cons] at hl
      rw [hsplit] at ih
      intro c hc
      rcases mem_cons.mp hl with rfl | hl
      · rcases mem_cons.mp hc with rfl | hc
        · exact ⟨Bool.eq_false_iff.mpr hd, mem_cons_self⟩
        · have h := ih mem_cons_self c hc
          exact ⟨h.1, mem_cons_of_mem d h.2⟩
      · have h := ih (mem_cons_of_mem m hl) c hc
        exact ⟨h.1, mem_cons_of_mem d h.2⟩

theorem mem_fields (hl : l ∈ fields s) : l ≠ [] ∧ ∀ c ∈ l, isSpace c = false ∧ c ∈ s := by
  obtain ⟨hmem, hne⟩ := mem_filter.mp hl
  exact ⟨of_decide_eq_true hne, mem_splitOnP hmem⟩

/-- A word: not empty and without spaces. -/
def Word (l : List Char) : Prop := l ≠ [] ∧ ∀ c ∈ l, isSpace c = false

theorem Word.trimmed (h : Word l) : Trimmed l :=
  ⟨fun c hc => h.2 c (mem_of_mem_head? hc), fun c hc => h.2 c (mem_of_getLast? hc)⟩

theorem fields_word (h : Word l) : fields l = [l] := by
  rw [fields, splitOnP_eq_singleton h.2, filter_singleton]
  simp [h.1]

theorem fields_word_append (h : Word l) (hc : isSpace c = true) (s : List Char) :
    fields (l ++ c :: s) = l :: fields s := by
  rw [fields, splitOnP_append_cons l s hc, filter_append, ← fields, ← fields, fields_word h]
  rfl

end SysnetLinux.Strings
