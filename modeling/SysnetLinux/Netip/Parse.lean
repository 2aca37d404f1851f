/-
  SysnetLinux.Netip.Parse

  `netip.ParseAddr`, and that it reads back what `Addr.String` writes.

  An IPv6 text is cut at its first `::`; the groups on both sides are separated by colons, and
  the last group of the text can be an IPv4 address.  What follows a `%` is the zone, which
  can be any text but the empty one.
-/

import Mathlib.Data.List.TakeWhile
import SysnetLinux.Netip.Strings

namespace SysnetLinux.Netip

open List

namespace Addr

/-! ## Parsing -/

/-- A decimal field: no sign, no leading zero, at most 255. -/
def parseOctet (l : List Char) : Option Nat :=
  if l ≠ [] ∧ l.all Char.isDigit ∧ (l.length = 1 ∨ l.head? ≠ some '0') ∧
      Nat.ofDigitChars 10 l 0 ≤ 255 then some (Nat.ofDigitChars 10 l 0)
  else none

def parseIPv4 (s : List Char) : Option (BitVec 32) :=
  match (s.splitOn '.').mapM parseOctet with
  | some [a, b, c, d] => some (BitVec.ofNat 32 (((a * 256 + b) * 256 + c) * 256 + d))
  | _ => none

def hexDigit (c : Char) : Option Nat :=
  if '0' ≤ c ∧ c ≤ '9' then some (c.toNat - 48)
  else if 'a' ≤ c ∧ c ≤ 'f' then some (c.toNat - 87)
  else if 'A' ≤ c ∧ c ≤ 'F' then some (c.toNat - 55)
  else none

def hexValue (l : List Char) : Option Nat :=
  l.foldl (fun acc c => acc.bind fun n => (hexDigit c).map fun d => 16 * n + d) (some 0)

/-- A group of one to four hexadecimal digits. -/
def parseGroup (l : List Char) : Option Nat :=
  if l ≠ [] ∧ l.length ≤ 4 then hexValue l else none

/-- The groups of the last tokens of a text, where an IPv4 address stands for two groups. -/
def parseGroups : List (List Char) → Option (List Nat)
  | [] => some []
  | [l] =>
    match parseGroup l with
    | some g => some [g]
    | none => (parseIPv4 l).map fun ip => [ip.toNat / 65536, ip.toNat % 65536]
  | l :: ls => (parseGroup l).bind fun g => (parseGroups ls).map (g :: ·)

/-- The text in front of and behind the first `::`. -/
def cutGap : List Char → Option (List Char × List Char)
  | [] => none
  | c :: s =>
    if c = ':' ∧ s.head? = some ':' then some ([], s.tail)
    else (cutGap s).map fun x => (c :: x.1, x.2)

def groupTokens (s : List Char) : List (List Char) := if s = [] then [] else s.splitOn ':'

/-- The eight groups of a text without a zone. -/
def parseIPv6Groups (s : List Char) : Option (List Nat) :=
  match cutGap s with
  | none => (parseGroups (groupTokens s)).bind fun gs => if gs.length = 8 then some gs else none
  | some (front, back) =>
    ((groupTokens front).mapM parseGroup).bind fun fs =>
      (parseGroups (groupTokens back)).bind fun bs =>
        if fs.length + bs.length < 8 then
          some (fs ++ List.replicate (8 - fs.length - bs.length) 0 ++ bs)
        else none

/-- The number whose digits in base `b` these are. -/
def ofPlaces (b : Nat) (gs : List Nat) : Nat := gs.foldl (fun acc g => acc * b + g) 0

def parseIPv6 (s : List Char) : Option Addr :=
  let address := (parseIPv6Groups (s.takeWhile (· ≠ '%'))).map fun gs =>
    BitVec.ofNat 128 (ofPlaces 65536 gs)
  match s.dropWhile (· ≠ '%') with
  | [] => address.map fun ip => v6 ip ""
  | _ :: zone => if zone = [] then none else address.map fun ip => v6 ip (String.ofList zone)

/-- The characters that tell the family of a text. -/
def tellsFamily (c : Char) : Bool := c = '.' || c = ':' || c = '%'

/-- `netip.ParseAddr`, without its errors. -/
def parseAddr (s : List Char) : Option Addr :=
  match s.find? tellsFamily with
  | some '.' => (parseIPv4 s).map v4
  | some ':' => parseIPv6 s
  | _ => none

/-! ## IPv4 -/

theorem parseOctet_toDigits {n : Nat} (h : n < 256) : parseOctet (Nat.toDigits 10 n) = some n := by
  have hall : ∀ i : Fin 256, parseOctet (Nat.toDigits 10 i.val) = some i.val := by decide +kernel
  exact hall ⟨n, h⟩

theorem dot_not_mem_v4Tokens (ip : BitVec 32) : ∀ l ∈ v4Tokens ip, '.' ∉ l := by
  intro l hl
  obtain ⟨sh, -, rfl⟩ := mem_map.mp hl
  exact Text.not_mem_toDigits (by decide) dot_not_digit _

theorem parseIPv4_v4String (ip : BitVec 32) : parseIPv4 (v4String ip).toList = some ip := by
  have hsplit : ((v4String ip).toList).splitOn '.' = v4Tokens ip := by
    rw [toList_v4String]
    exact splitOn_intercalate '.' (dot_not_mem_v4Tokens ip) (by simp [v4Tokens])
  have hoctet : ∀ sh : Nat, parseOctet (Nat.toDigits 10 ((ip.toNat >>> sh) % 256)) =
      some ((ip.toNat >>> sh) % 256) := fun sh => parseOctet_toDigits (Nat.mod_lt _ (by decide))
  unfold parseIPv4
  rw [hsplit]
  simp only [v4Tokens, map_cons, map_nil, mapM_cons, mapM_nil, hoctet]
  refine congrArg some (BitVec.eq_of_toNat_eq ?_)
  have hlt := ip.isLt
  simp only [BitVec.toNat_ofNat, Nat.shiftRight_eq_div_pow]
  omega

/-! ## Groups -/

theorem hexDigit_digitChar {d : Nat} (h : d < 16) : hexDigit d.digitChar = some d := by
  have hall : ∀ i : Fin 16, hexDigit i.val.digitChar = some i.val := by decide
  exact hall ⟨d, h⟩

theorem hexValue_append (l : List Char) (c : Char) :
    hexValue (l ++ [c]) = (hexValue l).bind fun n => (hexDigit c).map fun d => 16 * n + d := by
  rw [hexValue, foldl_append]
  rfl

theorem hexValue_toDigits (n : Nat) : hexValue (Nat.toDigits 16 n) = some n := by
  induction n using Nat.strongRecOn with
  | _ n ih =>
    rw [Nat.toDigits_eq_if (by decide)]
    split
    · rename_i hlt
      show ((some 0).bind fun m => (hexDigit n.digitChar).map fun d => 16 * m + d) = some n
      rw [hexDigit_digitChar hlt]
      simp
    · rename_i hle
      rw [hexValue_append, ih (n / 16) (by omega), hexDigit_digitChar (Nat.mod_lt n (by decide))]
      simp only [Option.bind_some, Option.map_some, Option.some.injEq]
      omega

theorem parseGroup_toDigits {g : Nat} (h : g < 65536) : parseGroup (Nat.toDigits 16 g) = some g := by
  have hlength : (Nat.toDigits 16 g).length ≤ 4 := Nat.toDigits_length 16 g 4 (by decide) h
  rw [parseGroup, if_pos ⟨Nat.toDigits_ne_nil, hlength⟩, hexValue_toDigits]

theorem mapM_parseGroup {gs : List Nat} (h : ∀ g ∈ gs, g < 65536) :
    (hexTokens gs).mapM parseGroup = some gs := by
  induction gs with
  | nil => rfl
  | cons g gs ih =>
    have hrest := ih fun x hx => h x (mem_cons_of_mem g hx)
    rw [hexTokens] at hrest
    rw [hexTokens, map_cons, mapM_cons, parseGroup_toDigits (h g mem_cons_self)]
    simp [hrest]

variable {l s : List Char} {ls : List (List Char)} {c : Char}

theorem parseGroups_cons (h : ls ≠ []) :
    parseGroups (l :: ls) = (parseGroup l).bind fun g => (parseGroups ls).map (g :: ·) := by
  cases ls with
  | nil => exact absurd rfl h
  | cons m ls => rfl

theorem parseGroups_hexTokens {gs : List Nat} (h : ∀ g ∈ gs, g < 65536) :
    parseGroups (hexTokens gs) = some gs := by
  induction gs with
  | nil => rfl
  | cons g gs ih =>
    have hhead := parseGroup_toDigits (h g mem_cons_self)
    have hrest := ih fun x hx => h x (mem_cons_of_mem g hx)
    cases gs with
    | nil => simp [hexTokens, parseGroups, hhead]
    | cons x gs =>
      have hne : hexTokens (x :: gs) ≠ [] := cons_ne_nil _ _
      have hcons : hexTokens (g :: x :: gs) = Nat.toDigits 16 g :: hexTokens (x :: gs) := rfl
      rw [hcons, parseGroups_cons hne, hhead, hrest]
      rfl

/-! ## The gap -/

theorem cutGap_cons (h : c ≠ ':' ∨ s.head? ≠ some ':') :
    cutGap (c :: s) = (cutGap s).map fun x => (c :: x.1, x.2) := by
  rw [cutGap, if_neg]
  rintro ⟨hc, hs⟩
  rcases h with h | h
  · exact h hc
  · exact h hs

theorem cutGap_append (h : ':' ∉ l) :
    cutGap (l ++ s) = (cutGap s).map fun x => (l ++ x.1, x.2) := by
  induction l with
  | nil => simp
  | cons c l ih =>
    have hc : c ≠ ':' := fun heq => h (heq ▸ mem_cons_self)
    rw [cons_append, cutGap_cons (.inl hc), ih fun hl => h (mem_cons_of_mem c hl), Option.map_map]
    rfl

theorem head?_intercalate_append (hls : Text.Tokens ':' (l :: ls)) (s : List Char) :
    ([':'].intercalate (l :: ls) ++ s).head? ≠ some ':' := by
  obtain ⟨hne, hcolon⟩ := hls l mem_cons_self
  obtain ⟨c, l, rfl⟩ := exists_cons_of_ne_nil hne
  have hc : c ≠ ':' := fun heq => hcolon (heq ▸ mem_cons_self)
  cases ls with
  | nil => simpa [List.intercalate] using hc
  | cons m ls => simpa [intercalate_cons_cons] using hc

/-- Joined tokens have no gap of their own: the cut is at the first gap behind them. -/
theorem cutGap_intercalate_append (hls : Text.Tokens ':' ls)
    (hs : ls = [] ∨ s = [] ∨ s.head? = some ':') :
    cutGap ([':'].intercalate ls ++ s) =
      (cutGap s).map fun x => ([':'].intercalate ls ++ x.1, x.2) := by
  induction ls with
  | nil => simp [List.intercalate]
  | cons l ls ih =>
    have hl := (hls l mem_cons_self).2
    have htail : Text.Tokens ':' ls := fun m hm => hls m (mem_cons_of_mem l hm)
    cases ls with
    | nil =>
      rw [show [':'].intercalate [l] = l by simp [List.intercalate]]
      exact cutGap_append hl
    | cons m ls =>
      have hrest := ih htail (.inr (hs.resolve_left (cons_ne_nil _ _)))
      have hhead := head?_intercalate_append htail s
      rw [intercalate_cons_cons, append_assoc, append_assoc,
        cutGap_append hl, singleton_append, cutGap_cons (.inr hhead), hrest,
        Option.map_map, Option.map_map]
      congr 1
      funext x
      simp

theorem cutGap_gapped {ps ss : List (List Char)} (hps : Text.Tokens ':' ps) :
    cutGap (Text.gapped ':' ps ss) = some ([':'].intercalate ps, [':'].intercalate ss) := by
  have hgap : cutGap (':' :: ':' :: [':'].intercalate ss) = some ([], [':'].intercalate ss) :=
    if_pos ⟨rfl, rfl⟩
  unfold Text.gapped
  rw [cutGap_intercalate_append hps (.inr (.inr rfl)), hgap]
  simp

theorem cutGap_intercalate (hls : Text.Tokens ':' ls) : cutGap ([':'].intercalate ls) = none := by
  have h := cutGap_intercalate_append hls (s := []) (.inr (.inl rfl))
  rw [append_nil] at h
  exact h

theorem groupTokens_intercalate (hls : Text.Tokens ':' ls) :
    groupTokens ([':'].intercalate ls) = ls := by
  cases ls with
  | nil => rfl
  | cons l ls =>
    have hne : [':'].intercalate (l :: ls) ≠ [] := by
      intro hnil
      have hl := (hls l mem_cons_self).1
      cases ls with
      | nil => exact hl (by simpa [List.intercalate] using hnil)
      | cons m ls => simp [intercalate_cons_cons] at hnil
    rw [groupTokens, if_neg hne]
    exact splitOn_intercalate ':' (fun m hm => (hls m hm).2) (cons_ne_nil _ _)

/-! ## IPv6 -/

theorem groups_lt (ip : BitVec 128) : ∀ g ∈ groups ip, g < 65536 := by
  intro g hg
  obtain ⟨i, -, rfl⟩ := mem_map.mp hg
  exact Nat.mod_lt _ (by decide)

theorem parseIPv6Groups_v6String (ip : BitVec 128) :
    parseIPv6Groups (v6String ip).toList = some (groups ip) := by
  have hsmall : ∀ gs : List Nat, gs ⊆ groups ip → ∀ g ∈ gs, g < 65536 :=
    fun gs hgs g hg => groups_lt ip g (hgs hg)
  rw [toList_v6String]
  by_cases hrun : (zeroRun (groups ip)).2 = 0
  · rw [if_pos hrun, parseIPv6Groups, cutGap_intercalate (hexTokens_tokens _)]
    simp only
    rw [groupTokens_intercalate (hexTokens_tokens _), parseGroups_hexTokens (groups_lt ip)]
    simp [groups_length]
  · have hgroups := groups_of_gap (groups_length ip)
    rw [if_neg hrun, parseIPv6Groups, cutGap_gapped (hexTokens_tokens _)]
    simp only
    rw [groupTokens_intercalate (hexTokens_tokens _), groupTokens_intercalate (hexTokens_tokens _),
      mapM_parseGroup (hsmall _ (take_subset _ _)),
      parseGroups_hexTokens (hsmall _ (drop_subset _ _))]
    simp only [Option.bind_some]
    rw [if_pos, ← hgroups]
    -- The run of zeros that is left out is not empty.
    rw [length_take, length_drop, groups_length]
    have hzeros := congrArg List.length (zeroRun_zeros (groups ip))
    rw [length_take, length_drop, length_replicate, groups_length] at hzeros
    omega

theorem ofPlaces_append (b : Nat) (gs : List Nat) (g : Nat) :
    ofPlaces b (gs ++ [g]) = ofPlaces b gs * b + g := by
  rw [ofPlaces, foldl_append]
  rfl

/-- The digits of a number in places `k - 1` down to `0`. -/
theorem ofPlaces_range (b k n : Nat) :
    ofPlaces b ((List.range k).map fun i => n / b ^ (k - 1 - i) % b) = n % b ^ k := by
  induction k generalizing n with
  | zero => simp [ofPlaces, Nat.mod_one]
  | succ k ih =>
    have hhigh : ((List.range k).map fun i => n / b ^ (k + 1 - 1 - i) % b) =
        (List.range k).map fun i => n / b / b ^ (k - 1 - i) % b := by
      refine map_congr_left fun i hi => ?_
      have hi := mem_range.mp hi
      rw [Nat.div_div_eq_div_mul, ← Nat.pow_succ', show k + 1 - 1 - i = (k - 1 - i).succ by omega]
    rw [range_succ, map_append, hhigh, map_singleton, ofPlaces_append, ih,
      Nat.pow_succ', Nat.mod_mul]
    simp only [Nat.add_sub_cancel, Nat.sub_self, Nat.pow_zero, Nat.div_one]
    rw [Nat.add_comm, Nat.mul_comm]

theorem ofPlaces_groups (ip : BitVec 128) : ofPlaces 65536 (groups ip) = ip.toNat := by
  have hgroups : groups ip = (List.range 8).map fun i => ip.toNat / 65536 ^ (8 - 1 - i) % 65536 := by
    refine map_congr_left fun i _ => ?_
    rw [Nat.shiftRight_eq_div_pow, Nat.pow_mul]
  rw [hgroups, ofPlaces_range]
  exact Nat.mod_eq_of_lt ip.isLt

theorem hexValue_eq_none (hmem : c ∈ l) (hc : hexDigit c = none) : hexValue l = none := by
  have hnone : ∀ s : List Char, s.foldl (fun acc c => acc.bind fun n =>
      (hexDigit c).map fun d => 16 * n + d) (none : Option Nat) = none := by
    intro s
    induction s with
    | nil => rfl
    | cons d s ih => exact ih
  obtain ⟨u, v, rfl⟩ := append_of_mem hmem
  rw [hexValue, foldl_append, foldl_cons, hc]
  cases u.foldl (fun acc c => acc.bind fun n => (hexDigit c).map fun d => 16 * n + d) (some 0) with
  | none | some n => exact hnone v

/-- The text of a mapped address has the IPv4 address for its last two groups. -/
theorem parseIPv6Groups_mapped (ip : BitVec 32) :
    parseIPv6Groups ("::ffff:" ++ v4String ip).toList =
      some (List.replicate 5 0 ++ [0xffff, ip.toNat / 65536, ip.toNat % 65536]) := by
  have hcolon : ':' ∉ (v4String ip).toList :=
    not_mem_v4String (by decide) colon_not_digit ip
  have htext : ("::ffff:" ++ v4String ip).toList =
      Text.gapped ':' [] ["ffff".toList, (v4String ip).toList] := by
    have hmapped : "::ffff:".toList = ':' :: ':' :: ("ffff".toList ++ [':']) := by decide
    rw [String.toList_append, hmapped]
    simp [Text.gapped, List.intercalate]
  have htokens : Text.Tokens ':' ["ffff".toList, (v4String ip).toList] := by
    intro l hl
    rcases mem_cons.mp hl with rfl | hl
    · decide
    · rw [mem_singleton.mp hl]
      exact ⟨ne_nil_of_mem (dot_mem_v4String ip), hcolon⟩
  have hlast : parseGroup (v4String ip).toList = none := by
    unfold parseGroup
    split
    · exact hexValue_eq_none (dot_mem_v4String ip) (by decide)
    · rfl
  have hgroups : parseGroups ["ffff".toList, (v4String ip).toList] =
      some [0xffff, ip.toNat / 65536, ip.toNat % 65536] := by
    have hfirst : parseGroup "ffff".toList = some 0xffff := by decide
    rw [parseGroups_cons (cons_ne_nil _ _), hfirst, parseGroups, hlast, parseIPv4_v4String]
    rfl
  unfold parseIPv6Groups
  rw [htext, cutGap_gapped fun l hl => absurd hl not_mem_nil]
  simp only
  rw [groupTokens_intercalate htokens, hgroups]
  rfl

theorem parseIPv6Groups_v6Body (ip : BitVec 128) :
    ∃ gs, parseIPv6Groups (v6Body ip).toList = some gs ∧ ofPlaces 65536 gs = ip.toNat := by
  unfold v6Body
  split
  · rename_i hmapped
    refine ⟨_, parseIPv6Groups_mapped _, ?_⟩
    have hhigh : ip >>> 32 = 0xffff#128 := by simpa [is4In6] using hmapped
    have htop := congrArg BitVec.toNat hhigh
    simp only [BitVec.toNat_ushiftRight, Nat.shiftRight_eq_div_pow, BitVec.toNat_ofNat] at htop
    simp only [ofPlaces, List.replicate, cons_append, nil_append, foldl_cons,
      foldl_nil, BitVec.toNat_setWidth]
    omega
  · exact ⟨_, parseIPv6Groups_v6String ip, ofPlaces_groups ip⟩

/-! ## Reading back -/

theorem find?_tellsFamily (hmem : c ∈ s) (hc : tellsFamily c = true)
    (hother : ∀ d, tellsFamily d = true → d ≠ c → d ∉ s) : s.find? tellsFamily = some c := by
  obtain ⟨d, hd⟩ := Option.isSome_iff_exists.mp (find?_isSome.mpr ⟨c, hmem, hc⟩)
  by_cases heq : d = c
  · rw [hd, heq]
  · exact absurd (mem_of_find?_eq_some hd) (hother d (find?_some hd) heq)

theorem tellsFamily_digitChar (n : Nat) : tellsFamily n.digitChar = false := by
  unfold tellsFamily
  simp [dot_not_digit, colon_not_digit, percent_not_digit]

theorem parseAddr_v4 (ip : BitVec 32) : parseAddr (v4 ip).string.toList = some (v4 ip) := by
  have hfind : (v4String ip).toList.find? tellsFamily = some '.' := by
    refine find?_tellsFamily (dot_mem_v4String ip) rfl fun d hd hne => ?_
    refine not_mem_v4String hne (fun n => ?_) ip
    rintro rfl
    rw [tellsFamily_digitChar] at hd
    cases hd
  have hstring : (v4 ip).string = v4String ip := rfl
  rw [hstring, parseAddr, hfind]
  simp only
  rw [parseIPv4_v4String]
  rfl

theorem colon_mem_v6String (ip : BitVec 128) : ':' ∈ (v6String ip).toList := by
  rw [toList_v6String]
  split
  · have hlength := groups_length ip
    cases hgroups : groups ip with
    | nil =>
      rw [hgroups] at hlength
      cases hlength
    | cons g gs =>
      cases gs with
      | nil =>
        rw [hgroups] at hlength
        cases hlength
      | cons g' gs => simp [hexTokens, intercalate_cons_cons]
  · simp [Text.gapped]

theorem find?_v6Body (ip : BitVec 128) : (v6Body ip).toList.find? tellsFamily = some ':' := by
  unfold v6Body
  split
  · rw [String.toList_append]
    rfl
  · refine find?_tellsFamily (colon_mem_v6String ip) rfl fun d hd hne => ?_
    refine not_mem_v6String hne (fun n => ?_) ip
    rintro rfl
    rw [tellsFamily_digitChar] at hd
    cases hd

theorem parseAddr_v6 (ip : BitVec 128) (zone : String) :
    parseAddr (v6 ip zone).string.toList = some (v6 ip zone) := by
  have hpercent : '%' ∉ (v6Body ip).toList :=
    not_mem_v6Body (by decide) (by decide) percent_not_digit ip
  have hall : ∀ c ∈ (v6Body ip).toList, decide (c ≠ '%') = true :=
    fun c hc => decide_eq_true fun heq => hpercent (heq ▸ hc)
  obtain ⟨gs, hgs, hplaces⟩ := parseIPv6Groups_v6Body ip
  have hip : BitVec.ofNat 128 (ofPlaces 65536 gs) = ip := by
    rw [hplaces]
    exact BitVec.eq_of_toNat_eq (by rw [BitVec.toNat_ofNat, Nat.mod_eq_of_lt ip.isLt])
  rw [toList_string_v6, parseAddr, find?_append, find?_v6Body, Option.some_or]
  simp only [parseIPv6]
  by_cases hzone : zone = ""
  · rw [if_pos hzone, append_nil, takeWhile_eq_self_iff.mpr hall,
      dropWhile_eq_nil_iff.mpr hall, hgs, hzone]
    simp [hip]
  · have hne : zone.toList ≠ [] := mt String.toList_eq_nil_iff.mp hzone
    rw [if_neg hzone, takeWhile_append_of_pos hall, dropWhile_append_of_pos hall]
    simp [hgs, hip, hne]

/-- `ParseAddr` reads back what `String` writes. -/
theorem parseAddr_string {a : Addr} (h : a.isValid = true) : parseAddr a.string.toList = some a := by
  cases a with
  | zero => cases h
  | v4 ip => exact parseAddr_v4 ip
  | v6 ip zone => exact parseAddr_v6 ip zone

/-- An address that has been read is valid, and its zone is the end of the text. -/
theorem parseAddr_some {a : Addr} (h : parseAddr s = some a) :
    a.isValid = true ∧ (a.zone = "" ∨ a.zone.toList <:+ s) := by
  unfold parseAddr at h
  split at h
  · obtain ⟨ip, -, rfl⟩ := Option.map_eq_some_iff.mp h
    exact ⟨rfl, .inl rfl⟩
  · unfold parseIPv6 at h
    simp only at h
    split at h
    · obtain ⟨ip, -, rfl⟩ := Option.map_eq_some_iff.mp h
      exact ⟨rfl, .inl rfl⟩
    · rename_i c zone hrest
      split at h
      · cases h
      · obtain ⟨ip, -, rfl⟩ := Option.map_eq_some_iff.mp h
        refine ⟨rfl, .inr ?_⟩
        have hsuffix : (c :: zone) <:+ s := hrest ▸ dropWhile_suffix _
        show (String.ofList zone).toList <:+ s
        rw [String.toList_ofList]
        exact (suffix_cons c zone).trans hsuffix
  · cases h

end Addr

end SysnetLinux.Netip
