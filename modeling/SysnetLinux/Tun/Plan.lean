/-
  SysnetLinux.Tun.Plan

  What the changes that `planTunAddrReconciliation` plans leave on a link.

  A change of the plan touches the entries of one address only, so a plan is followed
  address by address (`Keyed.here_foldl`).  The bookkeeping of the planner by positions
  comes to a normal form without them: no loop deletes what another one has deleted.
-/

import SysnetLinux.DefaultTun.Check
import SysnetLinux.Lib.Keyed
import SysnetLinux.Tun.Address

namespace SysnetLinux.TunAddress

open Netip DefaultTun CallProg CallProg.Prog List

/-! ## Changes act address by address -/

/-- The address that an entry of a link is about. -/
def NlAddr.ip (a : NlAddr) : Addr := a.net.addr

/-- The address that a change is about. -/
def TunAddrChange.ip : TunAddrChange → Addr
  | .tunAddrReplace p => p.addr
  | .tunAddrDelete addr => addr.ip

/-- What a change does to the entries of a link. -/
def applyChange (addrs : List NlAddr) : TunAddrChange → List NlAddr
  | .tunAddrReplace p => replaceAddr (netlinkAddrFromPrefix p) addrs
  | .tunAddrDelete addr => deleteAddr addr addrs

/-- The entries of one address. -/
abbrev entries (k : Addr) (addrs : List NlAddr) : List NlAddr := Keyed.here NlAddr.ip k addrs

theorem entries_cons (k : Addr) (a : NlAddr) (addrs : List NlAddr) :
    entries k (a :: addrs) = if a.ip = k then a :: entries k addrs else entries k addrs := by
  by_cases h : a.ip = k
  · simp [entries, Keyed.here, h]
  · simp [entries, Keyed.here, h]

theorem entries_replaceAddr (new : NlAddr) (addrs : List NlAddr) (k : Addr) :
    entries k (replaceAddr new addrs) =
      if new.ip = k then replaceAddr new (entries k addrs) else entries k addrs := by
  induction addrs with
  | nil => exact entries_cons k new []
  | cons a addrs ih =>
    rw [replaceAddr]
    split
    · rename_i hreplaced
      have hip : a.ip = new.ip := NlAddr.replacedBy_addr hreplaced
      have hip' : (a.replace new).ip = new.ip := hip
      rw [entries_cons, entries_cons, hip, hip']
      split
      · rw [replaceAddr, if_pos hreplaced]
      · rfl
    · rename_i hnot
      rw [entries_cons, entries_cons, ih]
      by_cases hk : new.ip = k
      · rw [if_pos hk, if_pos hk]
        split
        · rw [replaceAddr, if_neg hnot]
        · rfl
      · rw [if_neg hk, if_neg hk]

variable {addrs : List NlAddr} {current : Current}

theorem replaceAddr_new {new : NlAddr} (h : ∀ a ∈ addrs, a.ip ≠ new.ip) :
    replaceAddr new addrs = addrs ++ [new] := by
  induction addrs with
  | nil => rfl
  | cons a addrs ih =>
    have hnot : ¬ a.replacedBy new = true :=
      fun hreplaced => h a mem_cons_self (NlAddr.replacedBy_addr hreplaced)
    rw [replaceAddr, if_neg hnot, ih fun b hb => h b (mem_cons_of_mem a hb)]
    rfl

theorem entries_deleteAddr (addr : NlAddr) (addrs : List NlAddr) (k : Addr) :
    entries k (deleteAddr addr addrs) =
      if addr.ip = k then deleteAddr addr (entries k addrs) else entries k addrs := by
  induction addrs with
  | nil => simp [deleteAddr, entries, Keyed.here]
  | cons a addrs ih =>
    unfold deleteAddr at ih ⊢
    rw [eraseP_cons]
    by_cases hnet : a.net = addr.net
    · have hip : a.ip = addr.ip := congrArg Prefix.addr hnet
      have hsame : (a.net == addr.net) = true := by simp [hnet]
      rw [hsame, cond_true, entries_cons, hip]
      split
      · rw [eraseP_cons, hsame, cond_true]
      · rfl
    · have hother : (a.net == addr.net) = false := by simp [hnet]
      rw [hother, cond_false, entries_cons, entries_cons, ih]
      by_cases hk : addr.ip = k
      · rw [if_pos hk, if_pos hk]
        split
        · rw [eraseP_cons, hother, cond_false]
        · rfl
      · rw [if_neg hk, if_neg hk]

theorem applyChange_local : Keyed.Local NlAddr.ip TunAddrChange.ip applyChange := by
  intro addrs c k
  cases c with
  | tunAddrReplace p => exact entries_replaceAddr (netlinkAddrFromPrefix p) addrs k
  | tunAddrDelete addr => exact entries_deleteAddr addr addrs k

theorem deleteAddr_eq_filter (h : (addrs.map NlAddr.net).Nodup) (addr : NlAddr) :
    deleteAddr addr addrs = addrs.filter fun a => a.net ≠ addr.net := by
  induction addrs with
  | nil => rfl
  | cons a addrs ih =>
    obtain ⟨hnot, hnodup⟩ := nodup_cons.mp h
    unfold deleteAddr at ih ⊢
    rw [eraseP_cons]
    by_cases hnet : a.net = addr.net
    · have hrest : ∀ b ∈ addrs, b.net ≠ addr.net := fun b hb heq =>
        hnot (hnet.trans heq.symm ▸ mem_map_of_mem hb)
      rw [beq_iff_eq.mpr hnet, cond_true, filter_cons_of_neg (by simp [hnet]),
        filter_eq_self.mpr fun b hb => by simpa using hrest b hb]
    · rw [beq_eq_false_iff_ne.mpr hnet, cond_false, filter_cons_of_pos (by simp [hnet]), ih hnodup]

theorem foldl_delete (h : (addrs.map NlAddr.net).Nodup) (gone : List NlAddr) :
    (gone.map TunAddrChange.tunAddrDelete).foldl applyChange addrs =
      addrs.filter fun a => a.net ∉ gone.map NlAddr.net := by
  induction gone generalizing addrs with
  | nil => simp
  | cons g gone ih =>
    have hsub : (deleteAddr g addrs).Sublist addrs := eraseP_sublist
    rw [map_cons, foldl_cons, applyChange, ih (h.sublist (hsub.map _)),
      deleteAddr_eq_filter h, filter_filter]
    refine filter_congr fun a _ => ?_
    rw [Bool.eq_iff_iff]
    simp only [map_cons, mem_cons, Bool.and_eq_true, decide_eq_true_eq, not_or, ne_eq, and_comm]

/-! ## The plan without positions -/

/-- The changes of the third loop for one prefix. -/
def recreateFor (current : Current) (p : Prefix) : List TunAddrChange :=
  match currentByPrefix current p with
  | none => []
  | some (addr, _) =>
    if !p.addr.is6 || !addr.flags.unusable then []
    else [.tunAddrDelete addr, .tunAddrReplace p]

/-- What the fourth loop finds in the way of a prefix. -/
def conflictsFor (current : Current) (p : Prefix) : Current :=
  match currentByPrefix current p with
  | none => currentByIP current p.addr
  | some _ => []

/-- The changes of the fourth loop for one prefix. -/
def resolveFor (current : Current) (p : Prefix) : List TunAddrChange :=
  match conflictsFor current p with
  | [] => []
  | conflicts => conflicts.map (fun x => .tunAddrDelete x.1) ++ [.tunAddrReplace p]

theorem recreateUnusable_changes (current : Current) (desired : List Prefix) :
    (recreateUnusable current desired).2 = desired.flatMap (recreateFor current) := by
  induction desired with
  | nil => rfl
  | cons p desired ih =>
    rw [flatMap_cons, ← ih, recreateUnusable, recreateFor]
    cases currentByPrefix current p with
    | none => rfl
    | some x =>
      simp only
      split
      · rfl
      · rfl

theorem mem_recreateUnusable {desired : List Prefix} {i : Nat}
    (h : i ∈ (recreateUnusable current desired).1) :
    ∃ p ∈ desired, ∃ a, currentByPrefix current p = some (a, i) := by
  induction desired with
  | nil => cases h
  | cons p desired ih =>
    have hrest : i ∈ (recreateUnusable current desired).1 →
        ∃ q ∈ p :: desired, ∃ a, currentByPrefix current q = some (a, i) := by
      intro hi
      obtain ⟨q, hq, a, ha⟩ := ih hi
      exact ⟨q, mem_cons_of_mem p hq, a, ha⟩
    rw [recreateUnusable] at h
    cases hfind : currentByPrefix current p with
    | none =>
      rw [hfind] at h
      exact hrest h
    | some x =>
      obtain ⟨a, j⟩ := x
      rw [hfind] at h
      simp only at h
      split at h
      · exact hrest h
      · rcases mem_cons.mp h with rfl | hi
        · exact ⟨p, mem_cons_self, a, hfind⟩
        · exact hrest hi

theorem mem_conflictsFor {p : Prefix} {x : NlAddr × Nat} (h : x ∈ conflictsFor current p) :
    currentByPrefix current p = none ∧ x ∈ current ∧
      (tunAddrPrefix x.1).map Prefix.addr = some p.addr := by
  unfold conflictsFor at h
  split at h
  · rename_i hnone
    unfold currentByIP at h
    obtain ⟨hx, hip⟩ := mem_filter.mp h
    exact ⟨hnone, hx, by simpa using hip⟩
  · cases h

/-- As long as nothing that is in the way has been deleted before, the fourth loop deletes
    all of it. -/
theorem resolveConflicts_eq {desired : List Prefix} {deleted : List Nat}
    (hindex : ∀ x ∈ current, ∀ y ∈ current, x.2 = y.2 → x = y)
    (hdesired : (desired.map Prefix.addr).Nodup)
    (hdeleted : ∀ p ∈ desired, ∀ x ∈ conflictsFor current p, x.2 ∉ deleted) :
    resolveConflicts current desired deleted =
      (deleted ++ (desired.flatMap (conflictsFor current)).map Prod.snd,
        desired.flatMap (resolveFor current)) := by
  induction desired generalizing deleted with
  | nil => simp [resolveConflicts]
  | cons p desired ih =>
    obtain ⟨hnot, hnodup⟩ := nodup_cons.mp hdesired
    have hhere := hdeleted p mem_cons_self
    have hrest : ∀ q ∈ desired, ∀ x ∈ conflictsFor current q, x.2 ∉ deleted :=
      fun q hq => hdeleted q (mem_cons_of_mem p hq)
    rw [resolveConflicts, flatMap_cons, flatMap_cons]
    cases hfind : currentByPrefix current p with
    | some x =>
      have hconflicts : conflictsFor current p = [] := by simp [conflictsFor, hfind]
      have hresolve : resolveFor current p = [] := by simp [resolveFor, hconflicts]
      rw [hconflicts, hresolve, ih hnodup hrest]
      rfl
    | none =>
      have hconflicts : conflictsFor current p = currentByIP current p.addr := by
        simp [conflictsFor, hfind]
      rw [hconflicts] at hhere ⊢
      have hresolve : resolveFor current p = match currentByIP current p.addr with
          | [] => []
          | conflicts =>
            conflicts.map (fun x => .tunAddrDelete x.1) ++ [.tunAddrReplace p] := by
        rw [resolveFor, hconflicts]
      rw [hresolve]
      cases hip : currentByIP current p.addr with
      | nil =>
        simp only
        rw [ih hnodup hrest]
        rfl
      | cons conflict conflicts =>
        rw [hip] at hhere hconflicts
        simp only
        rw [filter_eq_self.mpr fun x hx => by simpa using hhere x hx]
        -- What stands in the way of another prefix has another address.
        have hafter : ∀ q ∈ desired, ∀ x ∈ conflictsFor current q,
            x.2 ∉ deleted ++ (conflict :: conflicts).map Prod.snd := by
          intro q hq x hx hmem
          rcases mem_append.mp hmem with hmem | hmem
          · exact hrest q hq x hx hmem
          · obtain ⟨y, hy, heq⟩ := mem_map.mp hmem
            obtain ⟨-, hxc, hxip⟩ := mem_conflictsFor hx
            obtain ⟨-, hyc, hyip⟩ := mem_conflictsFor (hconflicts ▸ hy)
            obtain rfl := hindex y hyc x hxc heq
            have hsame : q.addr = p.addr := Option.some.inj (hxip.symm.trans hyip)
            exact hnot (hsame ▸ mem_map_of_mem hq)
        rw [ih hnodup hafter]
        simp

section WellKept

variable {addrs : List NlAddr} {p : Prefix} {desired : List Prefix}

variable {a : NlAddr} {current : Current} {changes : List TunAddrChange}

theorem WellKept.net_iff (h : WellKept addrs) (ha : a ∈ addrs) :
    tunAddrPrefix a = some p ↔ a.net = p := by
  rw [h.decodable a ha, Option.some.injEq]

theorem mem_of_mem_zipIdx {x : NlAddr × Nat} (h : x ∈ addrs.zipIdx) : x.1 ∈ addrs :=
  mem_of_getElem? (mem_zipIdx_iff_getElem?.mp h)

theorem zipIdx_index {x y : NlAddr × Nat} (hx : x ∈ addrs.zipIdx) (hy : y ∈ addrs.zipIdx)
    (h : x.2 = y.2) : x = y := by
  rw [mem_zipIdx_iff_getElem?] at hx hy
  rw [h] at hx
  exact Prod.ext (Option.some.inj (hx.symm.trans hy)) h

theorem currentByPrefix_some (h : WellKept addrs) {i : Nat}
    (hfind : currentByPrefix addrs.zipIdx p = some (a, i)) :
    (a, i) ∈ addrs.zipIdx ∧ a ∈ addrs ∧ a.net = p := by
  have hmem := mem_of_find?_eq_some hfind
  have hnet := find?_some hfind
  have ha := mem_of_mem_zipIdx hmem
  exact ⟨hmem, ha, (h.net_iff ha).mp (by simpa using hnet)⟩

theorem currentByPrefix_none (h : WellKept addrs) :
    currentByPrefix addrs.zipIdx p = none ↔ ∀ a ∈ addrs, a.net ≠ p := by
  unfold currentByPrefix
  rw [find?_eq_none]
  constructor
  · intro hnone a ha heq
    obtain ⟨i, hi⟩ := mem_iff_getElem?.mp ha
    have := hnone (a, i) (mem_zipIdx_iff_getElem?.mpr hi)
    exact this (by simpa using (h.net_iff ha).mpr heq)
  · intro hnone x hx heq
    have hx' := mem_of_mem_zipIdx hx
    exact hnone x.1 hx' ((h.net_iff hx').mp (by simpa using heq))

theorem currentByIP_entries (h : WellKept addrs) (k : Addr) :
    (currentByIP addrs.zipIdx k).map Prod.fst = entries k addrs := by
  have hfilter : currentByIP addrs.zipIdx k =
      addrs.zipIdx.filter ((fun a : NlAddr => decide (a.ip = k)) ∘ Prod.fst) := by
    refine filter_congr fun x hx => ?_
    rw [Function.comp_apply, decide_eq_decide, h.decodable x.1 (mem_of_mem_zipIdx hx),
      Option.map_some, Option.some.injEq]
    rfl
  rw [hfilter, ← filter_map, zipIdx_map_fst]
  rfl

/-- An entry that is not wanted, and that no loop before the last one deletes. -/
def Stale (addrs : List NlAddr) (desired : List Prefix) (a : NlAddr) : Prop :=
  a.net ∉ desired ∧ ∀ p ∈ desired, p.addr = a.ip → p ∈ addrs.map NlAddr.net
  deriving Decidable

/-- What the last loop finds deleted was in the way of a wanted prefix. -/
theorem deleteOthers_eq (h : WellKept addrs) {deleted : List Nat}
    (hdeleted : ∀ x ∈ addrs.zipIdx, x.1.net ∉ desired →
      (x.2 ∈ deleted ↔ ∃ p ∈ desired, x ∈ conflictsFor addrs.zipIdx p)) :
    deleteOthers addrs.zipIdx desired deleted =
      (addrs.filter fun a => Stale addrs desired a).map .tunAddrDelete := by
  have hfilter : (addrs.zipIdx.filter fun x => !(retained desired x.1) && x.2 ∉ deleted) =
      addrs.zipIdx.filter ((fun a => decide (Stale addrs desired a)) ∘ Prod.fst) := by
    refine filter_congr fun x hx => ?_
    have hmem := mem_of_mem_zipIdx hx
    rw [Bool.eq_iff_iff]
    simp only [retained, h.decodable x.1 hmem, Option.any_some, Bool.and_eq_true,
      Bool.not_eq_eq_eq_not, Bool.not_true, decide_eq_false_iff_not, decide_eq_true_eq,
      Function.comp_apply]
    refine and_congr_right fun hnot => ?_
    rw [hdeleted x hx hnot]
    constructor
    · intro hnone p hp hip
      by_contra hoff
      have hfind : currentByPrefix addrs.zipIdx p = none :=
        (currentByPrefix_none h).mpr fun a ha heq => hoff (heq ▸ mem_map_of_mem ha)
      refine hnone ⟨p, hp, ?_⟩
      rw [conflictsFor, hfind]
      exact mem_filter.mpr ⟨hx, by simpa [h.decodable x.1 hmem, NlAddr.ip] using hip.symm⟩
    · rintro hon ⟨p, hp, hconflict⟩
      obtain ⟨hfind, -, hip⟩ := mem_conflictsFor hconflict
      rw [h.decodable x.1 hmem] at hip
      obtain ⟨a, ha, hnet⟩ := mem_map.mp (hon p hp (Option.some.inj hip).symm)
      exact (currentByPrefix_none h).mp hfind a ha hnet
  unfold deleteOthers
  rw [hfilter, ← Function.comp_def TunAddrChange.tunAddrDelete Prod.fst, ← map_map,
    ← filter_map, zipIdx_map_fst]

/-- The plan without positions. -/
theorem planTunAddrReconciliation_eq (h : WellKept addrs)
    (hdesired : normalizeTunAddrPrefixSet desired = .ok desired)
    (hnodup : (desired.map Prefix.addr).Nodup) :
    planTunAddrReconciliation addrs desired = .ok (desired.flatMap (disableDAD addrs.zipIdx) ++
        desired.flatMap (addMissing addrs.zipIdx) ++
        desired.flatMap (recreateFor addrs.zipIdx) ++
        desired.flatMap (resolveFor addrs.zipIdx) ++
        (addrs.filter fun a => Stale addrs desired a).map .tunAddrDelete) := by
  -- What the third loop deletes is wanted, and in the way of no other wanted prefix.
  have hwanted : ∀ i ∈ (recreateUnusable addrs.zipIdx desired).1, ∀ x ∈ addrs.zipIdx,
      x.2 = i → x.1.net ∈ desired := by
    intro i hi x hx heq
    obtain ⟨p, hp, a, hfind⟩ := mem_recreateUnusable hi
    obtain ⟨hmem, -, hnet⟩ := currentByPrefix_some h hfind
    obtain rfl := zipIdx_index hx hmem heq
    exact hnet ▸ hp
  have hfree : ∀ p ∈ desired, ∀ x ∈ conflictsFor addrs.zipIdx p,
      x.2 ∉ (recreateUnusable addrs.zipIdx desired).1 := by
    intro p hp x hx hi
    obtain ⟨hfind, hxc, hip⟩ := mem_conflictsFor hx
    have hxm := mem_of_mem_zipIdx hxc
    rw [h.decodable x.1 hxm] at hip
    have hsame : x.1.net = p :=
      inj_on_of_nodup_map hnodup (hwanted _ hi x hxc rfl) hp (Option.some.inj hip)
    exact (currentByPrefix_none h).mp hfind x.1 hxm hsame
  have hresolve := resolveConflicts_eq (fun x hx y hy => zipIdx_index hx hy) hnodup hfree
  rw [planTunAddrReconciliation, hdesired]
  simp only
  rw [hresolve, recreateUnusable_changes]
  rw [deleteOthers_eq h fun x hx hnot => ?_]
  rw [mem_append]
  constructor
  · rintro (hi | hi)
    · exact absurd (hwanted _ hi x hx rfl) hnot
    · obtain ⟨y, hy, heq⟩ := mem_map.mp hi
      obtain ⟨p, hp, hconflict⟩ := mem_flatMap.mp hy
      obtain rfl := zipIdx_index (mem_conflictsFor hconflict).2.1 hx heq
      exact ⟨p, hp, hconflict⟩
  · rintro ⟨p, hp, hconflict⟩
    exact .inr (mem_map_of_mem (mem_flatMap.mpr ⟨p, hp, hconflict⟩))

/-! ## The plan for one address -/

theorem tunAddrPrefix_eq_some (h : tunAddrPrefix a = some p) : a.net = p := by
  unfold tunAddrPrefix at h
  split at h
  · exact Option.some.inj h
  · cases h

theorem disableDAD_ip : ∀ c ∈ disableDAD current p, c.ip = p.addr := by
  intro c hc
  unfold disableDAD at hc
  split at hc
  · cases hc
  · split at hc
    · cases hc
    · rw [mem_singleton.mp hc]
      rfl

theorem addMissing_ip : ∀ c ∈ addMissing current p, c.ip = p.addr := by
  intro c hc
  unfold addMissing at hc
  split at hc
  · rw [mem_singleton.mp hc]
    rfl
  · cases hc

theorem recreateFor_ip : ∀ c ∈ recreateFor current p, c.ip = p.addr := by
  intro c hc
  unfold recreateFor at hc
  split at hc
  · cases hc
  · rename_i a i hfind
    split at hc
    · cases hc
    · have hnet : a.net = p :=
        tunAddrPrefix_eq_some (by simpa using find?_some hfind)
      rcases mem_cons.mp hc with rfl | hc
      · exact congrArg Prefix.addr hnet
      · rw [mem_singleton.mp hc]
        rfl

theorem resolveFor_ip : ∀ c ∈ resolveFor current p, c.ip = p.addr := by
  intro c hc
  unfold resolveFor at hc
  split at hc
  · cases hc
  · rcases mem_append.mp hc with hc | hc
    · obtain ⟨x, hx, rfl⟩ := mem_map.mp hc
      obtain ⟨-, -, hip⟩ := mem_conflictsFor hx
      obtain ⟨q, hq, hqp⟩ := Option.map_eq_some_iff.mp hip
      rw [← hqp, ← tunAddrPrefix_eq_some hq]
      rfl
    · rw [mem_singleton.mp hc]
      rfl

/-- The changes of the plan for one address. -/
def planAt (addrs : List NlAddr) (desired : List Prefix) (k : Addr) : List TunAddrChange :=
  (Keyed.here Prefix.addr k desired).flatMap (disableDAD addrs.zipIdx) ++
    (Keyed.here Prefix.addr k desired).flatMap (addMissing addrs.zipIdx) ++
    (Keyed.here Prefix.addr k desired).flatMap (recreateFor addrs.zipIdx) ++
    (Keyed.here Prefix.addr k desired).flatMap (resolveFor addrs.zipIdx) ++
    ((entries k addrs).filter fun a => Stale addrs desired a).map .tunAddrDelete

theorem entries_reconciled (h : WellKept addrs)
    (hdesired : normalizeTunAddrPrefixSet desired = .ok desired)
    (hnodup : (desired.map Prefix.addr).Nodup)
    (hplan : planTunAddrReconciliation addrs desired = .ok changes) (k : Addr) :
    entries k (changes.foldl applyChange addrs) =
      (planAt addrs desired k).foldl applyChange (entries k addrs) := by
  rw [planTunAddrReconciliation_eq h hdesired hnodup] at hplan
  obtain rfl := Except.ok.inj hplan
  have hdelete : ∀ gone : List NlAddr, Keyed.here TunAddrChange.ip k
      (gone.map TunAddrChange.tunAddrDelete) = (entries k gone).map .tunAddrDelete :=
    fun gone => Keyed.here_map (fun _ => rfl) gone k
  rw [entries, Keyed.here_foldl applyChange_local]
  simp only [Keyed.here_append]
  rw [Keyed.here_flatMap fun p => disableDAD_ip, Keyed.here_flatMap fun p => addMissing_ip,
    Keyed.here_flatMap fun p => recreateFor_ip, Keyed.here_flatMap fun p => resolveFor_ip,
    hdelete, entries, Keyed.here_filter, planAt]

/-- An entry as the package leaves it: an IPv6 address is usable, without duplicate detection. -/
def NlAddr.Ready (a : NlAddr) : Prop :=
  a.net.addr.is6 = true → a.flags.nodad = true ∧ a.flags.unusable = false

theorem ready_netlinkAddrFromPrefix (p : Prefix) : (netlinkAddrFromPrefix p).Ready :=
  fun h6 => ⟨h6, rfl⟩

theorem entries_distinct (h : WellKept addrs) (k : Addr) :
    ((entries k addrs).map NlAddr.net).Nodup :=
  h.distinct.sublist (filter_sublist.map _)

/-- Only one entry has a given network. -/
theorem filter_net (h : WellKept addrs) (ha : a ∈ addrs) :
    ((entries a.ip addrs).filter fun b => b.net = a.net) = [a] := by
  have hone : Keyed.here NlAddr.net a.net addrs = [a] := Keyed.here_eq_singleton h.distinct ha
  rw [← Keyed.here_filter]
  unfold Keyed.here at hone ⊢
  rw [filter_filter, ← hone]
  refine filter_congr fun b _ => ?_
  rw [Bool.eq_iff_iff]
  simp only [Bool.and_eq_true, decide_eq_true_eq, and_iff_right_iff_imp]
  exact fun hnet => congrArg Prefix.addr hnet

theorem entries_single (h : WellKept addrs) (ha : a ∈ addrs) (h6 : a.net.addr.is6 = true) :
    entries a.ip addrs = [a] := by
  rw [← filter_net h ha, eq_comm, filter_eq_self]
  intro b hb
  obtain ⟨hb, hip⟩ := Keyed.mem_here.mp hb
  exact decide_eq_true (h.single a ha b hb h6 hip.symm).symm

section Wanted

variable (h : WellKept addrs) (hnodup : (desired.map Prefix.addr).Nodup) (hp : p ∈ desired)

include hnodup hp

/-- A wanted prefix is the only one with its address. -/
theorem stale_iff {a : NlAddr} (hon : p ∈ addrs.map NlAddr.net) (hip : a.ip = p.addr) :
    Stale addrs desired a ↔ a.net ≠ p := by
  have honly : ∀ q ∈ desired, q.addr = p.addr → q = p :=
    fun q hq heq => inj_on_of_nodup_map hnodup hq hp heq
  constructor
  · rintro ⟨hnot, -⟩ rfl
    exact hnot hp
  · intro hne
    refine ⟨fun hmem => hne (honly _ hmem hip), fun q hq heq => ?_⟩
    rw [honly q hq (heq.trans hip)]
    exact hon

include h

/-- A wanted prefix that is on the link stays there, usable. -/
theorem reconciled_present {a : NlAddr} (ha : a ∈ addrs) (hnet : a.net = p) :
    ∃ b, (planAt addrs desired p.addr).foldl applyChange (entries p.addr addrs) = [b] ∧
      b.net = p ∧ b.Ready := by
  have hon : p ∈ addrs.map NlAddr.net := hnet ▸ mem_map_of_mem ha
  obtain ⟨⟨a', i⟩, hfind⟩ : ∃ x, currentByPrefix addrs.zipIdx p = some x := by
    refine Option.ne_none_iff_exists'.mp fun hnone => ?_
    exact (currentByPrefix_none h).mp hnone a ha hnet
  obtain ⟨-, ha', hnet'⟩ := currentByPrefix_some h hfind
  obtain rfl := inj_on_of_nodup_map h.distinct ha' ha (hnet'.trans hnet.symm)
  have hhere : Keyed.here Prefix.addr p.addr desired = [p] := Keyed.here_eq_singleton hnodup hp
  have hip : a'.ip = p.addr := congrArg Prefix.addr hnet
  have hstale : ((entries p.addr addrs).filter fun b => Stale addrs desired b) =
      (entries p.addr addrs).filter fun b => b.net ≠ p := by
    refine filter_congr fun b hb => decide_eq_decide.mpr ?_
    exact stale_iff hnodup hp hon (Keyed.mem_here.mp hb).2
  have hmissing : addMissing addrs.zipIdx p = [] := by simp [addMissing, hfind]
  have hresolve : resolveFor addrs.zipIdx p = [] := by simp [resolveFor, conflictsFor, hfind]
  rw [planAt, hhere, hstale]
  simp only [flatMap_cons, flatMap_nil, append_nil, hmissing, hresolve]
  cases h6 : p.addr.is6 with
  | false =>
    -- An IPv4 address is left as it is, and its other lengths are deleted.
    have hdad : disableDAD addrs.zipIdx p = [] := by simp [disableDAD, hfind, h6]
    have hrecreate : recreateFor addrs.zipIdx p = [] := by simp [recreateFor, hfind, h6]
    refine ⟨a', ?_, hnet, fun his6 => absurd (hnet ▸ his6) (by simp [h6])⟩
    rw [hdad, hrecreate, nil_append, nil_append, foldl_delete (entries_distinct h _),
      ← filter_net h ha, hip]
    refine filter_congr fun b hb => ?_
    rw [decide_eq_decide, hnet]
    constructor
    · intro hnot
      by_contra hne
      exact hnot (mem_map_of_mem (mem_filter.mpr ⟨hb, by simpa using hne⟩))
    · rintro hb' hmem
      obtain ⟨c, hc, hcb⟩ := mem_map.mp hmem
      have hne := (mem_filter.mp hc).2
      simp [hcb, hb'] at hne
  | true =>
    have hone : entries p.addr addrs = [a'] :=
      hip ▸ entries_single h ha (hnet ▸ h6)
    have hothers : (([a'] : List NlAddr).filter fun b => b.net ≠ p) = [] := by simp [hnet]
    rw [hone, hothers, disableDAD, recreateFor, hfind]
    simp only [h6, Bool.not_true, Bool.false_or, map_nil, append_nil]
    have hreplaced : a'.replacedBy (netlinkAddrFromPrefix p) = true := by
      simp [NlAddr.replacedBy, netlinkAddrFromPrefix, h6, hnet]
    cases hunusable : a'.flags.unusable with
    | true =>
      refine ⟨netlinkAddrFromPrefix p, ?_, rfl, ready_netlinkAddrFromPrefix p⟩
      simp [applyChange, deleteAddr, replaceAddr]
    | false =>
      cases hnodad : a'.flags.nodad with
      | true => exact ⟨a', by simp, hnet, fun _ => ⟨hnodad, hunusable⟩⟩
      | false =>
        refine ⟨a'.replace (netlinkAddrFromPrefix p), ?_, hnet, fun _ => ⟨h6, hunusable⟩⟩
        simp [applyChange, replaceAddr, hreplaced]

theorem reconciled_absent (hoff : p ∉ addrs.map NlAddr.net) :
    (planAt addrs desired p.addr).foldl applyChange (entries p.addr addrs) =
      [netlinkAddrFromPrefix p] := by
  have hfind : currentByPrefix addrs.zipIdx p = none :=
    (currentByPrefix_none h).mpr fun a ha heq => hoff (heq ▸ mem_map_of_mem ha)
  have hhere : Keyed.here Prefix.addr p.addr desired = [p] := Keyed.here_eq_singleton hnodup hp
  have hstale : ((entries p.addr addrs).filter fun b => Stale addrs desired b) = [] := by
    refine filter_eq_nil_iff.mpr fun b hb hstale => ?_
    have hon := (of_decide_eq_true hstale).2 p hp (Keyed.mem_here.mp hb).2.symm
    exact hoff hon
  have hdad : disableDAD addrs.zipIdx p = [] := by simp [disableDAD, hfind]
  have hrecreate : recreateFor addrs.zipIdx p = [] := by simp [recreateFor, hfind]
  have hentries := currentByIP_entries h p.addr
  rw [planAt, hhere, hstale]
  simp only [flatMap_cons, flatMap_nil, append_nil, hdad, hrecreate, nil_append, map_nil]
  cases hcurrent : currentByIP addrs.zipIdx p.addr with
  | nil =>
    rw [hcurrent] at hentries
    rw [← hentries]
    simp [addMissing, resolveFor, conflictsFor, hfind, hcurrent, applyChange, replaceAddr]
  | cons x xs =>
    have hmissing : addMissing addrs.zipIdx p = [] := by simp [addMissing, hfind, hcurrent]
    have hresolve : resolveFor addrs.zipIdx p =
        (entries p.addr addrs).map .tunAddrDelete ++ [.tunAddrReplace p] := by
      rw [← hentries]
      simp [resolveFor, conflictsFor, hfind, hcurrent]
    have hnone : ((entries p.addr addrs).filter fun a =>
        a.net ∉ (entries p.addr addrs).map NlAddr.net) = [] :=
      filter_eq_nil_iff.mpr fun a ha => by simpa using ⟨a, ha, rfl⟩
    rw [hmissing, hresolve, nil_append, foldl_append, foldl_delete (entries_distinct h _), hnone]
    rfl

end Wanted

/-- An address that is not wanted goes. -/
theorem reconciled_unwanted (h : WellKept addrs) {k : Addr} (hk : ∀ q ∈ desired, q.addr ≠ k) :
    (planAt addrs desired k).foldl applyChange (entries k addrs) = [] := by
  have hhere : Keyed.here Prefix.addr k desired = [] := Keyed.here_eq_nil hk
  have hstale : ((entries k addrs).filter fun b => Stale addrs desired b) = entries k addrs := by
    refine filter_eq_self.mpr fun b hb => decide_eq_true ?_
    have hip := (Keyed.mem_here.mp hb).2
    exact ⟨fun hmem => hk _ hmem hip, fun q hq heq => absurd (heq.trans hip) (hk q hq)⟩
  rw [planAt, hhere, hstale]
  simp only [flatMap_nil, append_nil, nil_append]
  rw [foldl_delete (entries_distinct h _)]
  exact filter_eq_nil_iff.mpr fun a ha => by simpa using ⟨a, ha, rfl⟩

/-! ## Links that hold what is wanted -/

/-- The link holds exactly these prefixes, all of them ready. -/
structure Matches (ps : List Prefix) (addrs : List NlAddr) : Prop where
  mem_iff : ∀ p, p ∈ addrs.map NlAddr.net ↔ p ∈ ps
  ready : ∀ a ∈ addrs, a.Ready

theorem Matches.of_mem_iff {ps qs : List Prefix} (h : Matches ps addrs)
    (hmem : ∀ p, p ∈ ps ↔ p ∈ qs) : Matches qs addrs :=
  ⟨fun p => (h.mem_iff p).trans (hmem p), h.ready⟩

section

variable (h : WellKept addrs) (hdesired : normalizeTunAddrPrefixSet desired = .ok desired)
    (hnodup : (desired.map Prefix.addr).Nodup)
include h hdesired hnodup

theorem matches_reconciled (hplan : planTunAddrReconciliation addrs desired = .ok changes) :
    Matches desired (changes.foldl applyChange addrs) := by
  have hentries := entries_reconciled h hdesired hnodup hplan
  have hwanted : ∀ p ∈ desired, ∃ b,
      entries p.addr (changes.foldl applyChange addrs) = [b] ∧ b.net = p ∧ b.Ready := by
    intro p hp
    rw [hentries]
    by_cases hon : p ∈ addrs.map NlAddr.net
    · obtain ⟨a, ha, hnet⟩ := mem_map.mp hon
      exact reconciled_present h hnodup hp ha hnet
    · exact ⟨_, reconciled_absent h hnodup hp hon, rfl, ready_netlinkAddrFromPrefix p⟩
  have hall : ∀ a ∈ changes.foldl applyChange addrs, a.net ∈ desired ∧ a.Ready := by
    intro a ha
    have hmem : a ∈ entries a.ip (changes.foldl applyChange addrs) :=
      Keyed.mem_here.mpr ⟨ha, rfl⟩
    by_cases hk : ∃ p ∈ desired, p.addr = a.ip
    · obtain ⟨p, hp, hip⟩ := hk
      obtain ⟨b, hb, hnet, hready⟩ := hwanted p hp
      rw [← hip, hb] at hmem
      obtain rfl := mem_singleton.mp hmem
      exact ⟨hnet ▸ hp, hready⟩
    · rw [hentries, reconciled_unwanted h fun q hq heq => hk ⟨q, hq, heq⟩] at hmem
      cases hmem
  refine ⟨fun p => ⟨fun hp => ?_, fun hp => ?_⟩, fun a ha => (hall a ha).2⟩
  · obtain ⟨a, ha, rfl⟩ := mem_map.mp hp
    exact (hall a ha).1
  · obtain ⟨b, hb, hnet, -⟩ := hwanted p hp
    have hmem : b ∈ entries p.addr (changes.foldl applyChange addrs) := hb ▸ mem_cons_self
    exact hnet ▸ mem_map_of_mem (Keyed.mem_here.mp hmem).1

/-- Where the link holds what is wanted, nothing is planned. -/
theorem plan_of_matches (hmatches : Matches desired addrs) :
    planTunAddrReconciliation addrs desired = .ok [] := by
  have hfind : ∀ p ∈ desired, ∃ a i,
      currentByPrefix addrs.zipIdx p = some (a, i) ∧ a.net = p ∧ a.Ready := by
    intro p hp
    cases hfind : currentByPrefix addrs.zipIdx p with
    | none =>
      obtain ⟨a, ha, hnet⟩ := mem_map.mp ((hmatches.mem_iff p).mpr hp)
      exact absurd hnet ((currentByPrefix_none h).mp hfind a ha)
    | some x =>
      obtain ⟨-, ha, hnet⟩ := currentByPrefix_some h hfind
      exact ⟨x.1, x.2, rfl, hnet, hmatches.ready _ ha⟩
  have hstale : (addrs.filter fun a => Stale addrs desired a) = [] := by
    refine filter_eq_nil_iff.mpr fun a ha hstale => (of_decide_eq_true hstale).1 ?_
    exact (hmatches.mem_iff _).mp (mem_map_of_mem ha)
  have hnone : ∀ f : Prefix → List TunAddrChange, (∀ p ∈ desired, f p = []) →
      desired.flatMap f = [] := fun f hf => flatMap_eq_nil_iff.mpr hf
  rw [planTunAddrReconciliation_eq h hdesired hnodup, hstale,
    hnone (disableDAD addrs.zipIdx) ?_, hnone (addMissing addrs.zipIdx) ?_,
    hnone (recreateFor addrs.zipIdx) ?_, hnone (resolveFor addrs.zipIdx) ?_]
  · rfl
  · intro p hp
    obtain ⟨a, i, hsome, -, -⟩ := hfind p hp
    simp [resolveFor, conflictsFor, hsome]
  · intro p hp
    obtain ⟨a, i, hsome, hnet, hready⟩ := hfind p hp
    rw [recreateFor, hsome]
    simp only
    cases h6 : p.addr.is6 with
    | false => rfl
    | true => simp [(hready (hnet ▸ h6)).2]
  · intro p hp
    obtain ⟨a, i, hsome, -, -⟩ := hfind p hp
    simp [addMissing, hsome]
  · intro p hp
    obtain ⟨a, i, hsome, hnet, hready⟩ := hfind p hp
    rw [disableDAD, hsome]
    simp only
    cases h6 : p.addr.is6 with
    | false => rfl
    | true => simp [(hready (hnet ▸ h6)).1]

/-- Every change of a plan adds a wanted prefix or deletes an entry of the link, which is not
    wanted or not usable. -/
theorem mem_plan (hplan : planTunAddrReconciliation addrs desired = .ok changes) {c : TunAddrChange}
    (hc : c ∈ changes) :
    (∃ p ∈ desired, c = .tunAddrReplace p) ∨
      ∃ a ∈ addrs, c = .tunAddrDelete a ∧ (a.net ∈ desired → a.flags.unusable = true) := by
  rw [planTunAddrReconciliation_eq h hdesired hnodup] at hplan
  obtain rfl := Except.ok.inj hplan
  simp only [mem_append, mem_flatMap, mem_map, mem_filter, decide_eq_true_eq] at hc
  rcases hc with (((⟨p, hp, hc⟩ | ⟨p, hp, hc⟩) | ⟨p, hp, hc⟩) | ⟨p, hp, hc⟩) | ⟨a, ha, rfl⟩
  · refine .inl ⟨p, hp, ?_⟩
    unfold disableDAD at hc
    split at hc
    · cases hc
    · split at hc
      · cases hc
      · exact mem_singleton.mp hc
  · refine .inl ⟨p, hp, ?_⟩
    unfold addMissing at hc
    split at hc
    · exact mem_singleton.mp hc
    · cases hc
  · unfold recreateFor at hc
    split at hc
    · cases hc
    · rename_i a i hfind
      split at hc
      · cases hc
      · rename_i hunusable
        have hdown : p.addr.is6 = true ∧ a.flags.unusable = true := by simpa using hunusable
        rcases mem_cons.mp hc with rfl | hc
        · exact .inr ⟨a, (currentByPrefix_some h hfind).2.1, rfl, fun _ => hdown.2⟩
        · exact .inl ⟨p, hp, mem_singleton.mp hc⟩
  · unfold resolveFor at hc
    split at hc
    · cases hc
    · rcases mem_append.mp hc with hc | hc
      · obtain ⟨x, hx, rfl⟩ := mem_map.mp hc
        obtain ⟨hnone, hxc, hip⟩ := mem_conflictsFor hx
        have hmem := mem_of_mem_zipIdx hxc
        refine .inr ⟨x.1, hmem, rfl, fun hwanted => ?_⟩
        -- What stands in the way of a wanted prefix is not wanted itself.
        rw [h.decodable x.1 hmem] at hip
        have hsame : x.1.net = p :=
          inj_on_of_nodup_map hnodup hwanted hp (Option.some.inj hip)
        exact absurd hsame ((currentByPrefix_none h).mp hnone x.1 hmem)
      · exact .inl ⟨p, hp, mem_singleton.mp hc⟩
  · exact .inr ⟨a, ha.1, rfl, fun hwanted => absurd hwanted ha.2.1⟩

end

end WellKept

end SysnetLinux.TunAddress
