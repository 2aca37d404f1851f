/-
  SysnetLinux.Dns.ResolvConfFile

  `resolvconffile.Parse`, and when it reads back what `Config.Write` writes.

  A configuration that has been read comes back unless one of its lines is longer than the
  scanner's buffer, or a search domain ends in two dots: `ToFQDN` does not look at the last label,
  and `Write` drops one of the dots (`resolvConf_round_trip_iff`).
-/

import SysnetLinux.Dns.ResolvConf
import SysnetLinux.Netip.Parse

namespace SysnetLinux.Dns

open Netip Strings List

/-! ## Domain names -/

/-- `len` of a Go string. -/
def byteLength (s : List Char) : Nat := (String.ofList s).utf8ByteSize

def maxLabelLength : Nat := 63

def maxNameLength : Nat := 254

inductive NameError where
  | tooLong (name : List Char)
  | badLabel (label : List Char)
  deriving DecidableEq, Repr

/-- The labels that the loop of `ToFQDN` looks at: those in front of a dot. -/
def checkedLabels (s : List Char) : List (List Char) := (s.splitOn '.').dropLast

def labelOk (label : List Char) : Bool := label ≠ [] && byteLength label ≤ maxLabelLength

def toFQDN (s : List Char) : Except NameError (List Char) :=
  if s = [] ∨ s = ['.'] then .ok ['.']
  else
    let raw := trimHead '.' s
    let dotted := raw.getLast? = some '.'
    let body := trimLast '.' raw
    let totalLen := if dotted then byteLength raw else byteLength raw + 1
    if maxNameLength < totalLen then .error (.tooLong body)
    else
      match (checkedLabels body).find? fun label => !labelOk label with
      | some label => .error (.badLabel label)
      | none => .ok (if dotted then raw else raw ++ ['.'])

/-! ## Parsing -/

inductive ParseError where
  | missingSpace (keyword : String) (line : List Char)
  | address (text : List Char)
  | domain (domain line : List Char) (err : NameError)
  | lineTooLong
  deriving DecidableEq, Repr

/-- The longest line that `bufio.Scanner` returns. -/
def maxLineLength : Nat := 65535

/-- `strings.CutPrefix`. -/
def cutKeyword (keyword : String) (s : List Char) : Option (List Char) :=
  if keyword.toList.isPrefixOf s then some (s.drop keyword.toList.length) else none

/-- What stands behind a keyword and a space. -/
def argument (keyword : String) (line s : List Char) : Except ParseError (List Char) :=
  let text := trimSpace s
  if text.length = s.length then .error (.missingSpace keyword line) else .ok text

def parseDomains (line : List Char) : List (List Char) → Except ParseError (List String)
  | [] => .ok []
  | d :: ds =>
    match toFQDN d with
    | .error err => .error (.domain d line err)
    | .ok fqdn =>
      match parseDomains line ds with
      | .error err => .error err
      | .ok rest => .ok (String.ofList fqdn :: rest)

/-- What one line adds to the configuration. -/
def parseLine (raw : List Char) : Except ParseError ResolvConf :=
  let line := trimSpace (raw.takeWhile (· ≠ '#'))
  match cutKeyword "nameserver" line with
  | some s =>
    match argument "nameserver" line s with
    | .error err => .error err
    | .ok nameserver =>
      match Addr.parseAddr nameserver with
      | none => .error (.address nameserver)
      | some ip => .ok ⟨[ip], []⟩
  | none =>
    match cutKeyword "search" line with
    | some s =>
      match argument "search" line s with
      | .error err => .error err
      | .ok domains =>
        match parseDomains line (fields domains) with
        | .error err => .error err
        | .ok fqdns => .ok ⟨[], fqdns⟩
    | none => .ok ⟨[], []⟩

/-- The configuration of two parts of a file. -/
def ResolvConf.append (c d : ResolvConf) : ResolvConf :=
  ⟨c.nameservers ++ d.nameservers, c.searchDomains ++ d.searchDomains⟩

/-- The loop of `Parse`, over the lines without their line feeds. -/
def parseLines : List (List Char) → Except ParseError ResolvConf
  | [] => .ok ⟨[], []⟩
  | raw :: lines =>
    if maxLineLength < byteLength raw then .error .lineTooLong
    else
      match parseLine (trimLast '\r' raw) with
      | .error err => .error err
      | .ok added =>
        match parseLines lines with
        | .error err => .error err
        | .ok rest => .ok (added.append rest)

/-- `resolvconffile.Parse`. -/
def ResolvConf.parse (text : String) : Except ParseError ResolvConf :=
  parseLines (Text.fields '\n' text.toList)

/-! ## The lines of a written file -/

/-- A search domain as it is written. -/
def searchValue (domain : String) : List Char :=
  if domain = "." then ['.'] else (withoutTrailingDot domain).toList

def searchLine (domains : List String) : List Char :=
  "search".toList ++ domains.flatMap fun d => ' ' :: searchValue d

def nameserverLine (ns : Addr) : List Char := "nameserver ".toList ++ ns.string.toList

def ownerText : String := "# resolv.conf(5) file generated by "

def warningText : String := "# DO NOT EDIT THIS FILE BY HAND -- CHANGES WILL BE OVERWRITTEN"

def ownerLine (owner : String) : List Char := ownerText.toList ++ owner.toList

/-- The lines of a written configuration. -/
def ResolvConf.lines (c : ResolvConf) (owner : String) : List (List Char) :=
  ownerLine owner :: warningText.toList :: [] :: (c.nameservers.map nameserverLine ++
    if c.searchDomains = [] then [] else [searchLine c.searchDomains])

theorem toList_feed : ("\n" : String).toList = ['\n'] := rfl

/-- The nameservers of a written file. -/
theorem flatMap_nameservers (nameservers : List Addr) :
    (nameservers.map fun ns => "nameserver " ++ ns.string ++ "\n").flatMap String.toList =
      Text.terminate '\n' (nameservers.map nameserverLine) := by
  unfold Text.terminate
  rw [flatMap_map, flatMap_map]
  refine flatMap_congr fun ns _ => ?_
  rw [String.toList_append, String.toList_append, toList_feed]
  rfl

theorem flatMap_searchDomains (domains : List String) :
    (domains.map fun domain => " " ++ if domain = "." then "." else
      withoutTrailingDot domain).flatMap String.toList =
        domains.flatMap fun d => ' ' :: searchValue d := by
  rw [flatMap_map]
  refine flatMap_congr fun d _ => ?_
  rw [String.toList_append, searchValue]
  split
  · rfl
  · rfl

theorem toList_line (keyword : String) (domains : List String) :
    (keyword ++ String.join (domains.map fun domain =>
      " " ++ if domain = "." then "." else withoutTrailingDot domain) ++ "\n").toList =
        keyword.toList ++ domains.flatMap (fun d => ' ' :: searchValue d) ++ ['\n'] := by
  rw [String.toList_append, String.toList_append, String.toList_join, flatMap_searchDomains,
    toList_feed]

theorem ResolvConf.toList_write (c : ResolvConf) (owner : String) :
    (c.write owner).toList = Text.terminate '\n' (c.lines owner) := by
  have hempty : ("" : String).toList = [] := rfl
  have hwarning : "# DO NOT EDIT THIS FILE BY HAND -- CHANGES WILL BE OVERWRITTEN\n\n" =
      warningText ++ "\n" ++ "\n" := by decide +kernel
  unfold ResolvConf.write
  rw [hwarning, ResolvConf.lines, Text.terminate_cons, Text.terminate_cons,
    Text.terminate_cons, Text.terminate_append]
  simp only [String.toList_append, String.toList_join, flatMap_nameservers, toList_feed,
    append_assoc, cons_append, nil_append]
  by_cases hnone : c.searchDomains = []
  · rw [if_pos hnone, if_pos hnone, hempty, Text.terminate_nil]
    simp only [ownerLine, ownerText, append_assoc]
  · rw [if_neg hnone, if_neg hnone, Text.terminate_cons, Text.terminate_nil, toList_line]
    rw [searchLine]
    simp only [ownerLine, ownerText, append_assoc]

/-! ## Names that have been read -/

theorem byteLength_append (s t : List Char) : byteLength (s ++ t) = byteLength s + byteLength t := by
  unfold byteLength
  rw [String.ofList_append, String.utf8ByteSize_append]

theorem byteLength_dot : byteLength ['.'] = 1 := by decide

/-- The text in front of the last dot of a name. -/
structure NameBody (r : List Char) : Prop where
  ne_nil : r ≠ []
  length : byteLength r + 1 ≤ maxNameLength
  labels : ∀ label ∈ checkedLabels r, labelOk label = true

variable {r s line raw : List Char} {d domain : String} {ds : List String} {ns : Addr}
    {c : ResolvConf} {lines : List (List Char)}

/-- A name does not begin with a dot: its first label would be empty. -/
theorem NameBody.head? (h : NameBody r) : r.head? ≠ some '.' := by
  intro hhead
  obtain ⟨t, rfl⟩ : ∃ t, r = '.' :: t := by
    cases r with
    | nil => cases hhead
    | cons c t => exact ⟨t, congrArg (· :: t) (Option.some.inj hhead)⟩
  have hempty : [] ∈ checkedLabels ('.' :: t) := by
    unfold checkedLabels
    rw [splitOn_eq_splitOnP, splitOnP_cons_eq_if_modifyHead, if_pos (by decide)]
    obtain ⟨m, ms, hsplit⟩ := exists_cons_of_ne_nil (splitOnP_ne_nil (· == '.') t)
    rw [hsplit, dropLast_cons_cons]
    exact mem_cons_self
  exact absurd (h.labels [] hempty) (by decide)

theorem NameBody.trimHead_eq (h : NameBody r) : trimHead '.' r = r := by
  cases r with
  | nil => rfl
  | cons c t =>
    have hc : c ≠ '.' := fun heq => h.head? (congrArg some heq)
    rw [trimHead, if_neg hc]

theorem getLast?_eq_dot_iff : s.getLast? = some '.' ↔ ['.'] <:+ s := by
  constructor
  · intro h
    obtain ⟨t, rfl⟩ := getLast?_eq_some_iff.mp h
    exact suffix_append t ['.']
  · rintro ⟨t, rfl⟩
    exact getLast?_concat

theorem ok_of_checks {total : Nat} {body out d : List Char}
    (h : (if maxNameLength < total then .error (.tooLong body)
      else match (checkedLabels body).find? fun label => !labelOk label with
        | some label => .error (.badLabel label)
        | none => .ok out : Except NameError (List Char)) = .ok d) :
    total ≤ maxNameLength ∧ (∀ label ∈ checkedLabels body, labelOk label = true) ∧ out = d := by
  split at h
  · cases h
  rename_i hlength
  split at h
  · cases h
  rename_i hlabels
  refine ⟨not_lt.mp hlength, fun label hlabel => ?_, Except.ok.inj h⟩
  simpa using find?_eq_none.mp hlabels label hlabel

theorem toFQDN_ok {d : List Char} (h : toFQDN s = .ok d) :
    (d = ['.'] ∨ ∃ r, d = r ++ ['.'] ∧ NameBody r) ∧ ∀ c ∈ d, c = '.' ∨ c ∈ s := by
  unfold toFQDN at h
  split at h
  · rw [← Except.ok.inj h]
    exact ⟨.inl rfl, fun c hc => .inl (mem_singleton.mp hc)⟩
  rename_i hs
  simp only at h
  have hraw : trimHead '.' s ≠ [] := by
    intro hnil
    cases s with
    | nil => exact hs (.inl rfl)
    | cons c t =>
      rw [trimHead] at hnil
      split at hnil
      · rename_i hc
        exact hs (.inr (by rw [hc, hnil]))
      · cases hnil
  have hsub : ∀ c ∈ trimHead '.' s, c ∈ s := trimHead_subset
  generalize trimHead '.' s = raw at h hraw hsub
  obtain ⟨hlength, hlabels, rfl⟩ := ok_of_checks h
  by_cases hdot : raw.getLast? = some '.'
  · obtain ⟨body, rfl⟩ := getLast?_eq_dot_iff.mp hdot
    rw [if_pos hdot, byteLength_append, byteLength_dot] at hlength
    rw [trimLast_append_singleton] at hlabels
    rw [if_pos hdot]
    refine ⟨?_, fun c hc => .inr (hsub c hc)⟩
    by_cases hbody : body = []
    · exact .inl (by rw [hbody]; rfl)
    · exact .inr ⟨body, rfl, hbody, hlength, hlabels⟩
  · rw [trimLast_of_not_suffix (mt getLast?_eq_dot_iff.mpr hdot)] at hlabels
    rw [if_neg hdot] at hlength ⊢
    refine ⟨.inr ⟨raw, rfl, hraw, hlength, hlabels⟩, fun c hc => ?_⟩
    rcases mem_append.mp hc with hc | hc
    · exact .inr (hsub c hc)
    · exact .inl (mem_singleton.mp hc)

/-- A name without its last dot is read as the name exactly if no other dot was there. -/
theorem toFQDN_body_iff (h : NameBody r) : toFQDN r = .ok (r ++ ['.']) ↔ ¬ ['.'] <:+ r := by
  have hroot : ¬ (r = [] ∨ r = ['.']) := by
    rintro (hr | hr)
    · exact h.ne_nil hr
    · exact h.head? (by rw [hr]; rfl)
  have hlabels : (checkedLabels r).find? (fun label => !labelOk label) = none :=
    find?_eq_none.mpr fun label hlabel => by simp [h.labels label hlabel]
  unfold toFQDN
  rw [if_neg hroot, h.trimHead_eq]
  simp only
  by_cases hdot : ['.'] <:+ r
  · refine iff_of_false ?_ (not_not.mpr hdot)
    simp only [getLast?_eq_dot_iff.mpr hdot, if_true]
    have hne : (Except.ok r : Except NameError (List Char)) ≠ .ok (r ++ ['.']) := by
      intro heq
      have hlength := congrArg List.length (Except.ok.inj heq)
      simp at hlength
    split
    · exact fun heq => by cases heq
    · split
      · exact fun heq => by cases heq
      · exact hne
  · have hlast : ¬ r.getLast? = some '.' := mt getLast?_eq_dot_iff.mp hdot
    refine iff_of_true ?_ hdot
    rw [if_neg hlast, if_neg (not_lt.mpr h.length), trimLast_of_not_suffix hdot, hlabels,
      if_neg hlast]

/-! ## Search domains -/

/-- The domain ends in two dots. -/
def DoubleDotted (domain : String) : Prop := ['.', '.'] <:+ domain.toList
  deriving Decidable

/-- A search domain of a configuration that has been read. -/
structure DomainRead (domain : String) : Prop where
  name : domain.toList = ['.'] ∨ ∃ r, domain.toList = r ++ ['.'] ∧ NameBody r
  chars : ∀ c ∈ domain.toList, isSpace c = false ∧ c ≠ '#'

theorem searchValue_of_body (h : domain.toList = r ++ ['.']) (hr : r ≠ []) :
    searchValue domain = r := by
  have hroot : domain ≠ "." := by
    rintro rfl
    obtain ⟨hnil, -⟩ := append_inj' (show [] ++ ['.'] = r ++ ['.'] from h) rfl
    exact hr hnil.symm
  have hlast : domain.toList.getLast? = some '.' := by
    rw [h]
    exact getLast?_concat
  rw [searchValue, if_neg hroot, withoutTrailingDot, if_pos hlast, String.toList_ofList, h,
    dropLast_concat]

theorem word_searchValue (h : DomainRead domain) : Word (searchValue domain) := by
  rcases h.name with hroot | ⟨r, hr, hbody⟩
  · have heq : domain = "." := String.toList_inj.mp hroot
    rw [searchValue, if_pos heq]
    exact ⟨cons_ne_nil _ _, Text.forall_mem_of_all (by decide)⟩
  · rw [searchValue_of_body hr hbody.ne_nil]
    refine ⟨hbody.ne_nil, fun c hc => (h.chars c ?_).1⟩
    rw [hr]
    exact mem_append_left _ hc

theorem hash_not_mem_searchValue (h : DomainRead domain) : '#' ∉ searchValue domain := by
  intro hmem
  rcases h.name with hroot | ⟨r, hr, hbody⟩
  · have heq : domain = "." := String.toList_inj.mp hroot
    rw [searchValue, if_pos heq] at hmem
    exact absurd hmem (by decide)
  · rw [searchValue_of_body hr hbody.ne_nil] at hmem
    exact (h.chars '#' (by rw [hr]; exact mem_append_left _ hmem)).2 rfl

/-- A search domain is read back exactly if it does not end in two dots. -/
theorem toFQDN_searchValue_iff (h : DomainRead domain) :
    toFQDN (searchValue domain) = .ok domain.toList ↔ ¬ DoubleDotted domain := by
  unfold DoubleDotted
  rcases h.name with hroot | ⟨r, hr, hbody⟩
  · have heq : domain = "." := String.toList_inj.mp hroot
    rw [heq]
    exact iff_of_true rfl (by decide)
  · rw [searchValue_of_body hr hbody.ne_nil, hr, toFQDN_body_iff hbody]
    refine not_congr ?_
    constructor
    · rintro ⟨t, rfl⟩
      exact ⟨t, by simp⟩
    · rintro ⟨t, ht⟩
      have hsplit : (t ++ ['.']) ++ ['.'] = r ++ ['.'] := by simpa using ht
      exact ⟨t, (append_inj' hsplit rfl).1⟩

theorem parseDomains_ok_iff {ds : List (List Char)} {fqdns : List String} :
    parseDomains line ds = .ok fqdns ↔
      List.Forall₂ (fun d f => toFQDN d = .ok f.toList) ds fqdns := by
  induction ds generalizing fqdns with
  | nil =>
    rw [parseDomains, forall₂_nil_left_iff, Except.ok.injEq]
    exact eq_comm
  | cons d ds ih =>
    rw [parseDomains, forall₂_cons_left_iff]
    constructor
    · intro h
      split at h
      · cases h
      · rename_i fqdn hfqdn
        split at h
        · cases h
        · rename_i rest hrest
          refine ⟨String.ofList fqdn, rest, ?_, ih.mp hrest, (Except.ok.inj h).symm⟩
          rw [hfqdn, String.toList_ofList]
    · rintro ⟨f, rest, hf, hrest, rfl⟩
      rw [hf]
      simp only
      rw [ih.mpr hrest]
      simp only [String.ofList_toList]

theorem exists_of_mem_parseDomains {ds : List (List Char)} {fqdns : List String}
    (h : parseDomains line ds = .ok fqdns) {f : String} (hf : f ∈ fqdns) :
    ∃ d ∈ ds, toFQDN d = .ok f.toList := by
  have hall := parseDomains_ok_iff.mp h
  clear h
  induction hall with
  | nil => exact absurd hf not_mem_nil
  | cons hd _ ih =>
    rcases mem_cons.mp hf with rfl | hf
    · exact ⟨_, mem_cons_self, hd⟩
    · obtain ⟨d, hmem, heq⟩ := ih hf
      exact ⟨d, mem_cons_of_mem _ hmem, heq⟩

/-! ## Nameservers -/

/-- A nameserver of a configuration that has been read. -/
structure ServerRead (ns : Addr) : Prop where
  valid : ns.isValid = true
  zone : ∀ c ∈ ns.zone.toList, c ≠ '#' ∧ c ≠ '\n'
  zone_end : ∀ c ∈ ns.zone.toList.getLast?, isSpace c = false

/-- A character that is no digit, colon, dot or percent sign comes from the zone. -/
theorem mem_zone_of_mem_string (h : ns.isValid = true) {c : Char} (hc : c ∈ ns.string.toList)
    (hdigit : ∀ n : Nat, n.digitChar ≠ c) (hcolon : c ≠ ':') (hdot : c ≠ '.') (hpercent : c ≠ '%') :
    c ∈ ns.zone.toList := by
  cases ns with
  | zero => cases h
  | v4 ip => exact absurd hc (Addr.not_mem_v4String hdot hdigit ip)
  | v6 ip zone =>
    rw [Addr.toList_string_v6, mem_append] at hc
    rcases hc with hc | hc
    · exact absurd hc (Addr.not_mem_v6Body hcolon hdot hdigit ip)
    · split at hc
      · exact absurd hc not_mem_nil
      · exact (mem_cons.mp hc).resolve_left hpercent

theorem digitChar_ne_of_isSpace {c : Char} (hc : isSpace c = true) (n : Nat) : n.digitChar ≠ c := by
  by_cases hn : n < 16
  · have hall : ∀ i : Fin 16, isSpace i.val.digitChar = false := by decide
    intro heq
    have hspace := hall ⟨n, hn⟩
    rw [heq, hc] at hspace
    cases hspace
  · intro heq
    have hstar : n.digitChar = '*' := by
      simp only [Nat.digitChar]
      repeat rw [if_neg (by omega)]
    rw [hstar] at heq
    rw [← heq] at hc
    exact absurd hc (by decide)

theorem isSpace_ne {c d : Char} (hc : isSpace c = true) (hd : isSpace d = false) : c ≠ d := by
  rintro rfl
  rw [hc] at hd
  cases hd

/-- Spaces of the text of an address are in its zone. -/
theorem space_mem_zone (h : ns.isValid = true) {c : Char} (hc : c ∈ ns.string.toList)
    (hspace : isSpace c = true) : c ∈ ns.zone.toList :=
  mem_zone_of_mem_string h hc (digitChar_ne_of_isSpace hspace) (isSpace_ne hspace (by decide))
    (isSpace_ne hspace (by decide)) (isSpace_ne hspace (by decide))

theorem getLast?_string (h : ServerRead ns) :
    ∀ c ∈ ns.string.toList.getLast?, isSpace c = false := by
  intro c hc
  by_contra hspace
  rw [Bool.not_eq_false] at hspace
  have hzone := space_mem_zone h.valid (mem_of_getLast? hc) hspace
  cases ns with
  | zero => cases h.valid
  | v4 ip => exact absurd hzone not_mem_nil
  | v6 ip zone =>
    have hne : zone.toList ≠ [] := ne_nil_of_mem hzone
    have hzone' : zone ≠ "" := mt String.toList_eq_nil_iff.mpr hne
    rw [Addr.toList_string_v6, if_neg hzone', getLast?_append_of_ne_nil _ (cons_ne_nil _ _),
      getLast?_cons_of_ne_nil hne] at hc
    have hend := h.zone_end c hc
    rw [hspace] at hend
    cases hend

theorem string_ne_nil (h : ns.isValid = true) : ns.string.toList ≠ [] := by
  cases ns with
  | zero => cases h
  | v4 ip => exact ne_nil_of_mem (Addr.dot_mem_v4String ip)
  | v6 ip zone =>
    rw [Addr.toList_string_v6]
    have hbody := Addr.find?_v6Body ip
    exact append_ne_nil_of_left_ne_nil (ne_nil_of_mem (mem_of_find?_eq_some hbody)) _

theorem head?_string (h : ns.isValid = true) : ∀ c ∈ ns.string.toList.head?, isSpace c = false := by
  intro c hc
  by_contra hspace
  rw [Bool.not_eq_false] at hspace
  have hdigit := digitChar_ne_of_isSpace hspace
  have hdot := isSpace_ne hspace (d := '.') (by decide)
  have hcolon := isSpace_ne hspace (d := ':') (by decide)
  cases ns with
  | zero => cases h
  | v4 ip => exact Addr.not_mem_v4String hdot hdigit ip (mem_of_mem_head? hc)
  | v6 ip zone =>
    have hbody : (Addr.v6Body ip).toList ≠ [] :=
      ne_nil_of_mem (mem_of_find?_eq_some (Addr.find?_v6Body ip))
    rw [Addr.toList_string_v6, head?_append_of_ne_nil _ hbody] at hc
    exact Addr.not_mem_v6Body hcolon hdot hdigit ip (mem_of_mem_head? hc)

theorem trimmed_string (h : ServerRead ns) : Trimmed ns.string.toList :=
  ⟨head?_string h.valid, getLast?_string h⟩

theorem hash_not_mem_string (h : ServerRead ns) : '#' ∉ ns.string.toList := fun hmem =>
  (h.zone '#' (mem_zone_of_mem_string h.valid hmem (fun n => Nat.digitChar_ne '#' (by decide))
    (by decide) (by decide) (by decide))).1 rfl

theorem feed_not_mem_string (h : ServerRead ns) : '\n' ∉ ns.string.toList := fun hmem =>
  (h.zone '\n' (space_mem_zone h.valid hmem (by decide))).2 rfl

/-! ## Lines -/

/-- A line without a comment and without spaces around it is read as it is. -/
theorem line_eq {l : List Char} (htrimmed : Trimmed l) (hhash : '#' ∉ l) :
    trimSpace ((trimLast '\r' l).takeWhile (· ≠ '#')) = l := by
  have hreturn : ¬ ['\r'] <:+ l := by
    rintro ⟨t, rfl⟩
    exact absurd (htrimmed.2 '\r' getLast?_concat) (by decide)
  have hall : ∀ c ∈ l, decide (c ≠ '#') = true :=
    fun c hc => decide_eq_true fun heq => hhash (heq ▸ hc)
  rw [trimLast_of_not_suffix hreturn, takeWhile_eq_self_iff.mpr hall, htrimmed.trimSpace_eq]

theorem cutKeyword_append (keyword : String) (s : List Char) :
    cutKeyword keyword (keyword.toList ++ s) = some s := by
  rw [cutKeyword, if_pos ( isPrefixOf_iff_prefix.mpr (prefix_append _ _)), drop_left]

theorem argument_cons (keyword : String) (line : List Char) (hs : Trimmed s) :
    argument keyword line (' ' :: s) = .ok s := by
  have htrim : trimSpace (' ' :: s) = s := by rw [trimSpace_cons (by decide), hs.trimSpace_eq]
  rw [argument]
  simp only [htrim]
  rw [if_neg (by rw [length_cons]; omega)]

theorem trimmed_append {u v : List Char} (hu : u ≠ []) (hv : v ≠ [])
    (hhead : ∀ c ∈ u.head?, isSpace c = false) (hlast : ∀ c ∈ v.getLast?, isSpace c = false) :
    Trimmed (u ++ v) := by
  constructor
  · rw [head?_append_of_ne_nil _ hu]
    exact hhead
  · rw [getLast?_append_of_ne_nil _ hv]
    exact hlast

theorem parseLine_comment (s : List Char) : parseLine (trimLast '\r' ('#' :: s)) = .ok ⟨[], []⟩ := by
  obtain ⟨t, ht⟩ : ∃ t, trimLast '\r' ('#' :: s) = '#' :: t := by
    by_cases hreturn : ['\r'] <:+ s
    · obtain ⟨t, rfl⟩ := hreturn
      exact ⟨t, trimLast_append_singleton '\r' ('#' :: t)⟩
    · refine ⟨s, trimLast_of_not_suffix fun h => ?_⟩
      rcases suffix_cons_iff.mp h with heq | h
      · exact absurd (List.cons.inj heq).1 (by decide)
      · exact hreturn h
  rw [ht]
  rfl

theorem parseLine_nameserver (h : ServerRead ns) :
    parseLine (trimLast '\r' (nameserverLine ns)) = .ok ⟨[ns], []⟩ := by
  have hkeyword : nameserverLine ns = "nameserver".toList ++ ' ' :: ns.string.toList := by
    have hspace : "nameserver ".toList = "nameserver".toList ++ [' '] := by decide
    unfold nameserverLine
    rw [hspace, append_assoc, singleton_append]
  have htrimmed : Trimmed (nameserverLine ns) := by
    unfold nameserverLine
    exact trimmed_append (by decide) (string_ne_nil h.valid) (by rintro c ⟨⟩; rfl)
      (getLast?_string h)
  have hhash : '#' ∉ nameserverLine ns := by
    unfold nameserverLine
    rw [mem_append]
    rintro (hmem | hmem)
    · revert hmem
      decide
    · exact hash_not_mem_string h hmem
  unfold parseLine
  rw [line_eq htrimmed hhash]
  simp only
  rw [hkeyword, cutKeyword_append]
  simp only
  rw [argument_cons _ _ (trimmed_string h)]
  simp only
  rw [Addr.parseAddr_string h.valid]

theorem cutKeyword_nameserver_search (s : List Char) :
    cutKeyword "nameserver" ("search".toList ++ s) = none := by
  have hn : "nameserver".toList = 'n' :: "ameserver".toList := by decide
  have hs : "search".toList = 's' :: "earch".toList := by decide
  rw [cutKeyword, if_neg]
  rw [ isPrefixOf_iff_prefix, hn, hs, cons_append, cons_prefix_cons]
  exact fun h => absurd h.1 (by decide)

theorem fields_searchValues (h : ∀ x ∈ d :: ds, DomainRead x) :
    fields (searchValue d ++ ds.flatMap fun x => ' ' :: searchValue x) =
      (d :: ds).map searchValue := by
  induction ds generalizing d with
  | nil =>
    rw [flatMap_nil, append_nil]
    exact fields_word (word_searchValue (h d mem_cons_self))
  | cons e ds ih =>
    have hrest := ih (d := e) fun x hx => h x (mem_cons_of_mem d hx)
    rw [flatMap_cons, cons_append,
      fields_word_append (word_searchValue (h d mem_cons_self)) (by decide), hrest]
    rfl

theorem trimmed_searchValues (h : ∀ x ∈ d :: ds, DomainRead x) :
    Trimmed (searchValue d ++ ds.flatMap fun x => ' ' :: searchValue x) := by
  have hd := word_searchValue (h d mem_cons_self)
  rcases eq_nil_or_concat' ds with rfl | ⟨ds, e, rfl⟩
  · rw [flatMap_nil, append_nil]
    exact hd.trimmed
  · have he := word_searchValue (h e (by simp))
    rw [flatMap_append, flatMap_singleton]
    refine trimmed_append hd.1 (by simp) hd.trimmed.1 ?_
    rw [getLast?_append_of_ne_nil _ (cons_ne_nil _ _), getLast?_cons_of_ne_nil he.1]
    exact he.trimmed.2

/-- A search line is read as the fields that have been written. -/
theorem parseLine_search {domains : List String} (hne : domains ≠ [])
    (h : ∀ x ∈ domains, DomainRead x) :
    parseLine (trimLast '\r' (searchLine domains)) =
      match parseDomains (searchLine domains) (domains.map searchValue) with
      | .error err => .error err
      | .ok fqdns => .ok ⟨[], fqdns⟩ := by
  obtain ⟨d, ds, rfl⟩ := exists_cons_of_ne_nil hne
  have hvalues := trimmed_searchValues h
  have hline : searchLine (d :: ds) = "search".toList ++
      ' ' :: (searchValue d ++ ds.flatMap fun x => ' ' :: searchValue x) := rfl
  have htrimmed : Trimmed (searchLine (d :: ds)) := by
    rw [hline]
    refine trimmed_append (by decide) (cons_ne_nil _ _) (by rintro c ⟨⟩; rfl) ?_
    rw [getLast?_cons_of_ne_nil]
    · exact hvalues.2
    · exact append_ne_nil_of_left_ne_nil (word_searchValue (h d mem_cons_self)).1 _
  have hhash : '#' ∉ searchLine (d :: ds) := by
    rw [searchLine, mem_append, mem_flatMap]
    rintro (hmem | ⟨x, hx, hmem⟩)
    · revert hmem
      decide
    · rcases mem_cons.mp hmem with heq | hmem
      · exact absurd heq (by decide)
      · exact hash_not_mem_searchValue (h x hx) hmem
  unfold parseLine
  rw [line_eq htrimmed hhash]
  simp only
  rw [hline, cutKeyword_nameserver_search, cutKeyword_append]
  simp only
  rw [argument_cons _ _ hvalues]
  simp only
  rw [fields_searchValues h]

/-! ## Configurations that have been read -/

/-- A configuration that `Parse` can return. -/
structure ResolvConf.Read (c : ResolvConf) : Prop where
  servers : ∀ ns ∈ c.nameservers, ServerRead ns
  domains : ∀ d ∈ c.searchDomains, DomainRead d

theorem ResolvConf.read_empty : ResolvConf.Read ⟨[], []⟩ :=
  ⟨fun _ h => absurd h not_mem_nil, fun _ h => absurd h not_mem_nil⟩

theorem ResolvConf.Read.append {d : ResolvConf} (hc : c.Read) (hd : d.Read) :
    (c.append d).Read where
  servers := fun ns hns => (mem_append.mp hns).elim (hc.servers ns) (hd.servers ns)
  domains := fun x hx => (mem_append.mp hx).elim (hc.domains x) (hd.domains x)

theorem argument_ok {keyword : String} {text : List Char} (h : argument keyword line s = .ok text) :
    text = trimSpace s := by
  unfold argument at h
  simp only at h
  split at h
  · cases h
  · exact (Except.ok.inj h).symm

theorem mem_of_cutKeyword {keyword : String} {t : List Char} (h : cutKeyword keyword s = some t) :
    ∀ c ∈ t, c ∈ s := by
  unfold cutKeyword at h
  split at h
  · rw [← Option.some.inj h]
    exact fun c hc => drop_subset _ _ hc
  · cases h

theorem serverRead_of_parseAddr (hns : Addr.parseAddr (trimSpace s) = some ns)
    (hs : ∀ c ∈ s, c ≠ '#' ∧ c ≠ '\n') : ServerRead ns := by
  obtain ⟨hvalid, hzone⟩ := Addr.parseAddr_some hns
  rcases hzone with hzone | hzone
  · have hnil : ns.zone.toList = [] := by
      rw [hzone]
      rfl
    refine ⟨hvalid, fun c hc => ?_, fun c hc => ?_⟩
    · rw [hnil] at hc
      exact absurd hc not_mem_nil
    · rw [hnil] at hc
      cases hc
  · refine ⟨hvalid, fun c hc => hs c (mem_of_mem_trimSpace (hzone.subset hc)), fun c hc => ?_⟩
    obtain ⟨t, ht⟩ := hzone
    have hne : ns.zone.toList ≠ [] := ne_nil_of_mem (mem_of_getLast? hc)
    refine getLast?_trimSpace s c ?_
    rw [← ht, getLast?_append_of_ne_nil _ hne]
    exact hc

theorem domainRead_of_toFQDN {f : List Char} (hd : toFQDN f = .ok d.toList)
    (hf : ∀ c ∈ f, isSpace c = false ∧ c ≠ '#') : DomainRead d := by
  obtain ⟨hname, hchars⟩ := toFQDN_ok hd
  refine ⟨hname, fun c hc => ?_⟩
  rcases hchars c hc with rfl | hc
  · decide
  · exact hf c hc

/-- What a line adds has been read. -/
theorem read_parseLine {added : ResolvConf} (hraw : '\n' ∉ raw) (h : parseLine raw = .ok added) :
    added.Read := by
  have hline : ∀ c ∈ trimSpace (raw.takeWhile (· ≠ '#')), c ≠ '#' ∧ c ≠ '\n' := by
    intro c hc
    have hc := mem_of_mem_trimSpace hc
    have hhash : decide (c ≠ '#') = true :=
      mem_takeWhile_imp (p := fun x => decide (x ≠ '#')) hc
    refine ⟨of_decide_eq_true hhash, ?_⟩
    rintro rfl
    exact hraw (( takeWhile_prefix _).subset hc)
  unfold parseLine at h
  simp only at h
  generalize trimSpace (raw.takeWhile (· ≠ '#')) = line at h hline
  split at h
  · rename_i s hs
    split at h
    · cases h
    rename_i nameserver harg
    rw [argument_ok harg] at h
    split at h
    · cases h
    rename_i ip hip
    rw [← Except.ok.inj h]
    refine ⟨fun ns hns => ?_, fun _ hd => absurd hd not_mem_nil⟩
    rw [mem_singleton.mp hns]
    exact serverRead_of_parseAddr hip fun c hc => hline c (mem_of_cutKeyword hs c hc)
  · split at h
    · rename_i s hs
      split at h
      · cases h
      rename_i domains harg
      rw [argument_ok harg] at h
      split at h
      · cases h
      rename_i fqdns hfqdns
      rw [← Except.ok.inj h]
      refine ⟨fun _ hns => absurd hns not_mem_nil, fun d hd => ?_⟩
      obtain ⟨f, hf, hfd⟩ := exists_of_mem_parseDomains hfqdns hd
      refine domainRead_of_toFQDN hfd fun c hc => ?_
      obtain ⟨hspace, hmem⟩ := (mem_fields hf).2 c hc
      exact ⟨hspace, (hline c (mem_of_cutKeyword hs c (mem_of_mem_trimSpace hmem))).1⟩
    · rw [← Except.ok.inj h]
      exact ResolvConf.read_empty

theorem parseLines_cons_iff : parseLines (raw :: lines) = .ok c ↔ byteLength raw ≤ maxLineLength ∧
      ∃ added rest, parseLine (trimLast '\r' raw) = .ok added ∧ parseLines lines = .ok rest ∧
        added.append rest = c := by
  rw [parseLines]
  constructor
  · intro h
    split at h
    · cases h
    rename_i hlength
    split at h
    · cases h
    rename_i added hadded
    split at h
    · cases h
    rename_i rest hrest
    exact ⟨not_lt.mp hlength, added, rest, hadded, hrest, Except.ok.inj h⟩
  · rintro ⟨hlength, added, rest, hadded, hrest, rfl⟩
    rw [if_neg (not_lt.mpr hlength), hadded]
    simp only
    rw [hrest]

theorem mem_of_mem_trimLast {c d : Char} (h : d ∈ trimLast c s) : d ∈ s :=
  mem_reverse.mp (trimHead_subset d (mem_reverse.mp h))

theorem read_parseLines (hlines : ∀ l ∈ lines, '\n' ∉ l) (h : parseLines lines = .ok c) :
    c.Read := by
  induction lines generalizing c with
  | nil =>
    rw [← Except.ok.inj h]
    exact ResolvConf.read_empty
  | cons raw lines ih =>
    obtain ⟨-, added, rest, hadded, hrest, rfl⟩ := parseLines_cons_iff.mp h
    have hraw : '\n' ∉ trimLast '\r' raw := fun hmem =>
      hlines raw mem_cons_self (mem_of_mem_trimLast hmem)
    exact (read_parseLine hraw hadded).append
      (ih (fun l hl => hlines l (mem_cons_of_mem raw hl)) hrest)

theorem ResolvConf.read_parse {text : String} (h : ResolvConf.parse text = .ok c) : c.Read :=
  read_parseLines (fun _ hl => Text.not_mem_of_mem_fields hl) h

/-! ## Reading a written file -/

/-- The lines of the written file are within the limit of the scanner, and no search domain
    ends in two dots. -/
structure ResolvConf.Rereadable (c : ResolvConf) (owner : String) : Prop where
  owner : byteLength (ownerLine owner) ≤ maxLineLength
  servers : ∀ ns ∈ c.nameservers, byteLength (nameserverLine ns) ≤ maxLineLength
  search : byteLength (searchLine c.searchDomains) ≤ maxLineLength
  names : ∀ d ∈ c.searchDomains, ¬ DoubleDotted d

theorem parseLines_cons_empty (h : parseLine (trimLast '\r' raw) = .ok ⟨[], []⟩) :
    parseLines (raw :: lines) = .ok c ↔
      byteLength raw ≤ maxLineLength ∧ parseLines lines = .ok c := by
  rw [parseLines_cons_iff, h]
  constructor
  · rintro ⟨hlength, added, rest, hadded, hrest, rfl⟩
    obtain rfl := Except.ok.inj hadded
    exact ⟨hlength, hrest⟩
  · rintro ⟨hlength, hlines⟩
    exact ⟨hlength, _, c, rfl, hlines, rfl⟩

theorem parseLines_nameservers {nss : List Addr} (h : ∀ ns ∈ nss, ServerRead ns)
    {tail : List (List Char)} :
    parseLines (nss.map nameserverLine ++ tail) = .ok ⟨nss, ds⟩ ↔
      (∀ ns ∈ nss, byteLength (nameserverLine ns) ≤ maxLineLength) ∧
        parseLines tail = .ok ⟨[], ds⟩ := by
  induction nss with
  | nil => simp
  | cons ns nss ih =>
    have hrest := ih fun x hx => h x (mem_cons_of_mem ns hx)
    rw [map_cons, cons_append, parseLines_cons_iff,
      parseLine_nameserver (h ns mem_cons_self), forall_mem_cons, and_assoc, ← hrest]
    refine and_congr_right fun _ => ?_
    constructor
    · rintro ⟨added, rest, hadded, hlines, hconfig⟩
      obtain rfl := Except.ok.inj hadded
      obtain ⟨hservers, hdomains⟩ := ResolvConf.mk.inj hconfig
      have hrest : rest = ⟨nss, ds⟩ := by
        cases rest
        exact congrArg₂ ResolvConf.mk (List.cons.inj hservers).2 hdomains
      rw [hlines, hrest]
    · intro hlines
      exact ⟨_, _, rfl, hlines, rfl⟩

theorem parseLines_search (h : ∀ d ∈ ds, DomainRead d) :
    parseLines (if ds = [] then [] else [searchLine ds]) = .ok ⟨[], ds⟩ ↔
      byteLength (searchLine ds) ≤ maxLineLength ∧ ∀ d ∈ ds, ¬ DoubleDotted d := by
  by_cases hne : ds = []
  · subst hne
    refine iff_of_true rfl ⟨?_, fun _ hd => absurd hd not_mem_nil⟩
    decide
  · rw [if_neg hne, parseLines_cons_iff, parseLine_search hne h]
    have hdomains : parseDomains (searchLine ds) (ds.map searchValue) = .ok ds ↔
        ∀ d ∈ ds, ¬ DoubleDotted d := by
      rw [parseDomains_ok_iff, forall₂_map_left_iff, forall₂_same]
      exact forall₂_congr fun d hd => toFQDN_searchValue_iff (h d hd)
    rw [← hdomains]
    refine and_congr_right fun _ => ?_
    constructor
    · rintro ⟨added, rest, hadded, hrest, hconfig⟩
      obtain rfl := Except.ok.inj hrest
      split at hadded
      · cases hadded
      rename_i fqdns hfqdns
      obtain rfl := Except.ok.inj hadded
      have heq : fqdns ++ [] = ds := (ResolvConf.mk.inj hconfig).2
      rw [hfqdns, ← heq, append_nil]
    · intro hfqdns
      rw [hfqdns]
      exact ⟨_, _, rfl, rfl, congrArg (ResolvConf.mk []) (append_nil ds)⟩

theorem parseLines_lines_iff (h : c.Read) (owner : String) :
    parseLines (c.lines owner) = .ok c ↔ c.Rereadable owner := by
  have howner : ∃ s, ownerLine owner = '#' :: s := ⟨_, rfl⟩
  have hwarning : ∃ s, warningText.toList = '#' :: s := ⟨_, rfl⟩
  obtain ⟨s, hs⟩ := howner
  obtain ⟨t, ht⟩ := hwarning
  have hfirst : parseLine (trimLast '\r' (ownerLine owner)) = .ok ⟨[], []⟩ := by
    rw [hs]
    exact parseLine_comment s
  have hsecond : parseLine (trimLast '\r' warningText.toList) = .ok ⟨[], []⟩ := by
    rw [ht]
    exact parseLine_comment t
  have hshort : byteLength warningText.toList ≤ maxLineLength := by decide +kernel
  unfold ResolvConf.lines
  rw [parseLines_cons_empty hfirst, parseLines_cons_empty hsecond, parseLines_cons_empty rfl,
    parseLines_nameservers h.servers, parseLines_search h.domains]
  constructor
  · rintro ⟨hline, -, -, hservers, hsearch, hnames⟩
    exact ⟨hline, hservers, hsearch, hnames⟩
  · rintro ⟨hline, hservers, hsearch, hnames⟩
    exact ⟨hline, hshort, by decide, hservers, hsearch, hnames⟩

theorem feed_not_mem_lines (h : c.Read) {owner : String} (howner : '\n' ∉ owner.toList) :
    ∀ l ∈ c.lines owner, '\n' ∉ l := by
  have htext : '\n' ∉ ownerText.toList := by decide +kernel
  have hwarning : '\n' ∉ warningText.toList := by decide +kernel
  intro l hl
  unfold ResolvConf.lines at hl
  rcases mem_cons.mp hl with rfl | hl
  · rw [ownerLine, mem_append]
    exact fun hmem => hmem.elim htext howner
  rcases mem_cons.mp hl with rfl | hl
  · exact hwarning
  rcases mem_cons.mp hl with rfl | hl
  · exact not_mem_nil
  rcases mem_append.mp hl with hl | hl
  · obtain ⟨ns, hns, rfl⟩ := mem_map.mp hl
    unfold nameserverLine
    rw [mem_append]
    rintro (hmem | hmem)
    · revert hmem
      decide
    · exact feed_not_mem_string (h.servers ns hns) hmem
  · split at hl
    · exact absurd hl not_mem_nil
    · rw [mem_singleton.mp hl, searchLine, mem_append, mem_flatMap]
      rintro (hmem | ⟨d, hd, hmem⟩)
      · revert hmem
        decide
      · rcases mem_cons.mp hmem with heq | hmem
        · exact absurd heq (by decide)
        · exact absurd ((word_searchValue (h.domains d hd)).2 '\n' hmem) (by decide)

theorem parse_write (h : c.Read) {owner : String} (howner : '\n' ∉ owner.toList) :
    ResolvConf.parse (c.write owner) = parseLines (c.lines owner) := by
  rw [ResolvConf.parse, ResolvConf.toList_write, Text.fields_terminate (feed_not_mem_lines h howner)]

/-- A configuration that has been read is read back from what is written if and only if no
    line exceeds the scanner's buffer and no search domain ends in two dots. -/
theorem resolvConf_round_trip_iff {text owner : String} {c : ResolvConf}
    (h : ResolvConf.parse text = .ok c) (howner : '\n' ∉ owner.toList) :
    ResolvConf.parse (c.write owner) = .ok c ↔ c.Rereadable owner := by
  have hread := ResolvConf.read_parse h
  rw [parse_write hread howner]
  exact parseLines_lines_iff hread owner

/-! ## Sample files -/

/-- A link-local nameserver with a zone, and two search domains. -/
theorem resolvConf_round_trip_sample :
    ∃ c, ResolvConf.parse "nameserver fe80::1%eth0\nsearch Example.com .corp.\n" = .ok c ∧
      ResolvConf.parse (c.write "sample") = .ok c := by
  have hparse : ResolvConf.parse "nameserver fe80::1%eth0\nsearch Example.com .corp.\n" =
      .ok ⟨[.v6 0xfe800000000000000000000000000001 "eth0"], ["Example.com.", "corp."]⟩ := by
    decide +kernel
  refine ⟨_, hparse, (resolvConf_round_trip_iff hparse (by decide)).mpr ?_⟩
  exact ⟨by decide +kernel, by decide +kernel, by decide +kernel, by decide +kernel⟩

theorem byteLength_replicate (n : Nat) : byteLength (List.replicate n 'x') = n := by
  have hone : byteLength ['x'] = 1 := by decide
  induction n with
  | zero => rfl
  | succ n ih => rw [replicate_succ', byteLength_append, ih, hone]

/-- A search domain with two last dots loses one, and a file with a line that exceeds the
    buffer is refused. -/
theorem resolvConf_not_reread :
    (ResolvConf.parse "search a..\n" = .ok ⟨[], ["a.."]⟩ ∧
      ResolvConf.parse (ResolvConf.write ⟨[], ["a.."]⟩ "sample") = .ok ⟨[], ["a."]⟩) ∧
    (ResolvConf.parse "" = .ok ⟨[], []⟩ ∧
      ResolvConf.parse (ResolvConf.write ⟨[], []⟩ (String.ofList (List.replicate 65535 'x'))) =
        .error .lineTooLong) := by
  refine ⟨⟨by decide +kernel, by decide +kernel⟩, by decide +kernel, ?_⟩
  have howner : '\n' ∉ (String.ofList (List.replicate 65535 'x')).toList := by
    rw [String.toList_ofList]
    exact fun hmem => absurd (eq_of_mem_replicate hmem) (by decide)
  have hlong : maxLineLength < byteLength (ownerLine (String.ofList (List.replicate 65535 'x'))) := by
    rw [ownerLine, String.toList_ofList, byteLength_append, byteLength_replicate]
    have htext : byteLength ownerText.toList = 35 := by decide +kernel
    rw [htext]
    decide
  rw [parse_write ResolvConf.read_empty howner, ResolvConf.lines, parseLines, if_pos hlong]

end SysnetLinux.Dns
