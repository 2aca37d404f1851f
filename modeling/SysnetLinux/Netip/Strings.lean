/-
  SysnetLinux.Netip.Strings

  `Addr.String` can be read back: two valid addresses with the same text are the same
  address (`string_inj`).

  The text of an IPv4 address has four decimal numbers; that of an IPv6 address has eight
  hexadecimal ones, with the first longest run of zeros left out, or ends in an IPv4
  address if it is mapped.  The zone stands behind the only `%` that is not in the zone.
-/

import SysnetLinux.Lib.Text
import SysnetLinux.Netip

namespace SysnetLinux.Netip

open List

namespace Addr

/-! ## Numbers -/

theorem toList_toString (n : Nat) : (toString n).toList = Nat.toDigits 10 n := by
  rw [Nat.toString_eq_ofList_toDigits, String.toList_ofList]

theorem colon_not_digit (d : Nat) : d.digitChar ≠ ':' := Nat.digitChar_ne ':' (by decide)

theorem dot_not_digit (d : Nat) : d.digitChar ≠ '.' := Nat.digitChar_ne '.' (by decide)

theorem percent_not_digit (d : Nat) : d.digitChar ≠ '%' := Nat.digitChar_ne '%' (by decide)

theorem bracket_not_digit (d : Nat) : d.digitChar ≠ '[' := Nat.digitChar_ne '[' (by decide)

/-! ## IPv4 -/

/-- The bytes of an IPv4 address as the text has them. -/
def v4Tokens (ip : BitVec 32) : List (List Char) :=
  ([24, 16, 8, 0] : List Nat).map fun sh => Nat.toDigits 10 ((ip.toNat >>> sh) % 256)

theorem toList_v4String (ip : BitVec 32) :
    (v4String ip).toList = ['.'].intercalate (v4Tokens ip) := by
  unfold v4String v4Tokens
  rw [String.toList_intercalate, map_map]
  congr 1
  refine map_congr_left fun sh _ => ?_
  exact toList_toString _

variable {c : Char} {ip ip' : BitVec 128}

theorem not_mem_intercalate {x : Char} {ls : List (List Char)} (hx : c ≠ x) (hls : ∀ l ∈ ls, c ∉ l) :
    c ∉ [x].intercalate ls := by
  induction ls with
  | nil => exact not_mem_nil
  | cons l ls ih =>
    have htail := ih fun m hm => hls m (mem_cons_of_mem l hm)
    have hhead := hls l mem_cons_self
    cases ls with
    | nil => simpa using hhead
    | cons m ls =>
      rw [intercalate_cons_cons, mem_append, mem_append, mem_singleton]
      rintro ((h | h) | h)
      · exact hhead h
      · exact hx h
      · exact htail h

theorem not_mem_v4String (hdot : c ≠ '.') (hdigit : ∀ d : Nat, d.digitChar ≠ c) (ip : BitVec 32) :
    c ∉ (v4String ip).toList := by
  rw [toList_v4String]
  refine not_mem_intercalate hdot fun l hl => ?_
  obtain ⟨sh, -, rfl⟩ := mem_map.mp hl
  exact Text.not_mem_toDigits (by decide) hdigit _

theorem v4String_inj {ip ip' : BitVec 32} (h : (v4String ip).toList = (v4String ip').toList) :
    ip = ip' := by
  have htokens : ∀ a : BitVec 32, ∀ l ∈ v4Tokens a, '.' ∉ l := by
    intro a l hl
    obtain ⟨sh, -, rfl⟩ := mem_map.mp hl
    exact Text.not_mem_toDigits (by decide) dot_not_digit _
  rw [toList_v4String, toList_v4String] at h
  have hbytes := Text.intercalate_inj (htokens ip) (htokens ip') (by simp [v4Tokens])
    (by simp [v4Tokens]) h
  have hbyte : ∀ sh ∈ ([24, 16, 8, 0] : List Nat),
      (ip.toNat >>> sh) % 256 = (ip'.toNat >>> sh) % 256 := by
    intro sh hsh
    exact Text.toDigits_inj (by decide) (by decide) (map_inj_left.mp hbytes sh hsh)
  refine BitVec.eq_of_toNat_eq ?_
  refine Text.eq_of_places (b := 256) (n := 4) ip.isLt ip'.isLt fun i hi => ?_
  have hplace : ∀ z : Nat, z / 256 ^ i = z >>> (8 * i) := by
    intro z
    rw [Nat.shiftRight_eq_div_pow, Nat.pow_mul]
  rw [hplace, hplace]
  have hshift : 8 * i ∈ ([24, 16, 8, 0] : List Nat) := by
    have hcases : i = 0 ∨ i = 1 ∨ i = 2 ∨ i = 3 := by omega
    rcases hcases with rfl | rfl | rfl | rfl <;> decide
  exact hbyte _ hshift

/-! ## IPv6 -/

/-- The text of 16-bit groups. -/
def hexTokens (gs : List Nat) : List (List Char) := gs.map (Nat.toDigits 16)

theorem hexTokens_tokens (gs : List Nat) : Text.Tokens ':' (hexTokens gs) := by
  intro l hl
  obtain ⟨g, -, rfl⟩ := mem_map.mp hl
  exact ⟨Nat.toDigits_ne_nil, Text.not_mem_toDigits (by decide) colon_not_digit g⟩

theorem hexTokens_inj {gs gs' : List Nat} (h : hexTokens gs = hexTokens gs') : gs = gs' :=
  map_injective_iff.mpr (fun _ _ hg => Text.toDigits_inj (by decide) (by decide) hg) h

theorem toList_hex (gs : List Nat) :
    (":".intercalate (gs.map fun g => String.ofList (Nat.toDigits 16 g))).toList =
      [':'].intercalate (hexTokens gs) := by
  rw [String.toList_intercalate, map_map]
  congr 1
  refine map_congr_left fun g _ => ?_
  exact String.toList_ofList

theorem toList_v6String (ip : BitVec 128) : (v6String ip).toList =
      if (zeroRun (groups ip)).2 = 0 then [':'].intercalate (hexTokens (groups ip))
      else Text.gapped ':' (hexTokens ((groups ip).take (zeroRun (groups ip)).1))
        (hexTokens ((groups ip).drop ((zeroRun (groups ip)).1 + (zeroRun (groups ip)).2))) := by
  unfold v6String Text.gapped
  simp only
  split
  · exact toList_hex _
  · rw [String.toList_append, String.toList_append, toList_hex, toList_hex, append_assoc]
    rfl

theorem not_mem_v6String (hcolon : c ≠ ':') (hdigit : ∀ d : Nat, d.digitChar ≠ c) (ip : BitVec 128) :
    c ∉ (v6String ip).toList := by
  have hhex : ∀ gs, c ∉ [':'].intercalate (hexTokens gs) := by
    intro gs
    refine not_mem_intercalate hcolon fun l hl => ?_
    obtain ⟨g, -, rfl⟩ := mem_map.mp hl
    exact Text.not_mem_toDigits (by decide) hdigit g
  rw [toList_v6String]
  split
  · exact hhex _
  · unfold Text.gapped
    rw [mem_append, mem_cons, mem_cons]
    rintro (h | h | h | h)
    · exact hhex _ h
    · exact hcolon h
    · exact hcolon h
    · exact hhex _ h

theorem zeroRun_zeros (gs : List Nat) :
    (gs.drop (zeroRun gs).1).take (zeroRun gs).2 = List.replicate (zeroRun gs).2 0 := by
  have hstep : ∀ (is : List Nat) (best : Nat × Nat),
      (gs.drop best.1).take best.2 = List.replicate best.2 0 →
      let best := is.foldl (fun best i =>
        let len := ((gs.drop i).takeWhile (· == 0)).length
        if 2 ≤ len && best.2 < len then (i, len) else best) best
      (gs.drop best.1).take best.2 = List.replicate best.2 0 := by
    intro is
    induction is with
    | nil => exact fun best h => h
    | cons i is ih =>
      intro best h
      rw [foldl_cons]
      refine ih _ ?_
      dsimp only
      split
      · dsimp only
        rw [← prefix_iff_eq_take.mp ( takeWhile_prefix _)]
        refine eq_replicate_iff.mpr ⟨rfl, fun g hg => ?_⟩
        simpa using all_eq_true.mp all_takeWhile g hg
      · exact h
  unfold zeroRun
  exact hstep (List.range 8) (0, 0) (by simp)

theorem groups_length (ip : BitVec 128) : (groups ip).length = 8 := by
  simp [groups]

theorem groups_inj (h : groups ip = groups ip') : ip = ip' := by
  have hgroup : ∀ i ∈ List.range 8, (ip.toNat >>> (16 * (7 - i))) % 65536 =
      (ip'.toNat >>> (16 * (7 - i))) % 65536 := map_inj_left.mp h
  refine BitVec.eq_of_toNat_eq ?_
  refine Text.eq_of_places (b := 65536) (n := 8) ip.isLt ip'.isLt fun i hi => ?_
  have hplace : ∀ z : Nat, z / 65536 ^ i = z >>> (16 * (7 - (7 - i))) := by
    intro z
    rw [Nat.shiftRight_eq_div_pow, show 7 - (7 - i) = i by omega, Nat.pow_mul]
  rw [hplace, hplace]
  exact hgroup (7 - i) (mem_range.mpr (by omega))

/-- Groups whose run of zeros is left out, from what is left. -/
theorem groups_of_gap {gs : List Nat} (hlength : gs.length = 8) : gs = gs.take (zeroRun gs).1 ++
      List.replicate (8 - (gs.take (zeroRun gs).1).length -
        (gs.drop ((zeroRun gs).1 + (zeroRun gs).2)).length) 0 ++
      gs.drop ((zeroRun gs).1 + (zeroRun gs).2) := by
  have hzeros := zeroRun_zeros gs
  generalize (zeroRun gs).1 = i at hzeros ⊢
  generalize (zeroRun gs).2 = n at hzeros ⊢
  have hn : n ≤ (gs.drop i).length := by
    have hlen := congrArg List.length hzeros
    rw [length_take, length_replicate] at hlen
    omega
  have hcount : 8 - (gs.take i).length - (gs.drop (i + n)).length = n := by
    rw [length_drop] at hn ⊢
    rw [length_take]
    omega
  rw [hcount, ← hzeros, append_assoc, ← drop_drop, take_append_drop, take_append_drop]

theorem v6String_inj (h : (v6String ip).toList = (v6String ip').toList) : ip = ip' := by
  rw [toList_v6String, toList_v6String] at h
  have hne : ∀ a : BitVec 128, hexTokens (groups a) ≠ [] := by
    intro a hnil
    have hlen := congrArg List.length hnil
    rw [hexTokens, length_map, groups_length] at hlen
    cases hlen
  refine groups_inj ?_
  split at h
  · split at h
    · exact hexTokens_inj (Text.intercalate_inj (fun l hl => (hexTokens_tokens _ l hl).2)
        (fun l hl => (hexTokens_tokens _ l hl).2) (hne ip) (hne ip') h)
    · exact absurd h.symm (Text.gapped_ne_intercalate (hexTokens_tokens _) (hexTokens_tokens _)
        (hexTokens_tokens _) (hne ip))
  · split at h
    · exact absurd h (Text.gapped_ne_intercalate (hexTokens_tokens _) (hexTokens_tokens _)
        (hexTokens_tokens _) (hne ip'))
    · obtain ⟨hfront, hback⟩ := Text.gapped_inj (hexTokens_tokens _) (hexTokens_tokens _)
        (hexTokens_tokens _) (hexTokens_tokens _) h
      rw [groups_of_gap (groups_length ip), groups_of_gap (groups_length ip'),
        hexTokens_inj hfront, hexTokens_inj hback]

/-! ## Addresses -/

/-- The text of an IPv6 address without its zone. -/
def v6Body (ip : BitVec 128) : String :=
  if (v6 ip "").is4In6 then "::ffff:" ++ v4String (ip.setWidth 32) else v6String ip

theorem toList_string_v6 (ip : BitVec 128) (zone : String) : (v6 ip zone).string.toList =
      (v6Body ip).toList ++ if zone = "" then [] else '%' :: zone.toList := by
  have hbody : (v6 ip zone).string = v6Body ip ++ if zone = "" then "" else "%" ++ zone := rfl
  rw [hbody, String.toList_append]
  split
  · rfl
  · rw [String.toList_append]
    rfl

theorem not_mem_v6Body (hcolon : c ≠ ':') (hdot : c ≠ '.') (hdigit : ∀ d : Nat, d.digitChar ≠ c)
    (ip : BitVec 128) : c ∉ (v6Body ip).toList := by
  unfold v6Body
  split
  · rw [String.toList_append, mem_append]
    rintro (h | h)
    · have hmapped : ∀ x ∈ "::ffff:".toList, x = ':' ∨ x = Nat.digitChar 15 :=
        Text.forall_mem_of_all (by decide)
      rcases hmapped c h with rfl | rfl
      · exact hcolon rfl
      · exact hdigit 15 rfl
    · exact not_mem_v4String hdot hdigit _ h
  · exact not_mem_v6String hcolon hdigit ip

theorem dot_mem_v4String (ip : BitVec 32) : '.' ∈ (v4String ip).toList := by
  rw [toList_v4String]
  simp [v4Tokens, List.intercalate]

theorem v6Body_inj (h : (v6Body ip).toList = (v6Body ip').toList) : ip = ip' := by
  -- Only a mapped address has a dot.
  have hdot : ∀ a : BitVec 128, '.' ∉ (v6String a).toList :=
    not_mem_v6String (by decide) dot_not_digit
  have hmem : ∀ a : BitVec 32, '.' ∈ ("::ffff:" ++ v4String a).toList := by
    intro a
    rw [String.toList_append]
    exact mem_append_right _ (dot_mem_v4String a)
  unfold v6Body at h
  split at h
  · rename_i hmapped
    split at h
    · rename_i hmapped'
      rw [String.toList_append, String.toList_append] at h
      have hlow := v4String_inj (append_cancel_left h)
      have hhigh : ip >>> 32 = 0xffff#128 := by simpa [is4In6] using hmapped
      have hhigh' : ip' >>> 32 = 0xffff#128 := by simpa [is4In6] using hmapped'
      have hlow' := congrArg BitVec.toNat hlow
      have htop := congrArg BitVec.toNat hhigh
      have htop' := congrArg BitVec.toNat hhigh'
      simp only [BitVec.toNat_setWidth, BitVec.toNat_ushiftRight, Nat.shiftRight_eq_div_pow,
        BitVec.toNat_ofNat] at hlow' htop htop'
      refine BitVec.eq_of_toNat_eq ?_
      omega
    · have hin := hmem (ip.setWidth 32)
      rw [h] at hin
      exact absurd hin (hdot ip')
  · split at h
    · have hin := hmem (ip'.setWidth 32)
      rw [← h] at hin
      exact absurd hin (hdot ip)
    · exact v6String_inj h

theorem string_v6_inj {zone zone' : String}
    (h : (v6 ip zone).string.toList = (v6 ip' zone').string.toList) :
    v6 ip zone = v6 ip' zone' := by
  have hpercent : ∀ a : BitVec 128, '%' ∉ (v6Body a).toList :=
    not_mem_v6Body (by decide) (by decide) percent_not_digit
  rw [toList_string_v6, toList_string_v6] at h
  split at h
  · rename_i hzone
    rw [append_nil] at h
    split at h
    · rename_i hzone'
      rw [append_nil] at h
      rw [v6Body_inj h, hzone, hzone']
    · exact absurd h.symm (Text.ne_of_separator (hpercent ip))
  · split at h
    · rw [append_nil] at h
      exact absurd h (Text.ne_of_separator (hpercent ip'))
    · obtain ⟨hbody, hzone⟩ := Text.split_first (hpercent ip) (hpercent ip') h
      rw [v6Body_inj hbody, String.toList_inj.mp hzone]

end Addr

end SysnetLinux.Netip
