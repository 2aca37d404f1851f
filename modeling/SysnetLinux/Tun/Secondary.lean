/-
  SysnetLinux.Tun.Secondary

  `SetTunAddrs` of the `tun` package on IPv4 addresses of a link of the Linux kernel.

  The planner adds before it deletes and deletes one address at a time, so the deletion
  of a primary can take along what the plan has added, or what it is about to delete.
  `Replaceable` says for which lists that does no harm
  (`setTunAddrPrefixes_exact_iff`).
-/

import SysnetLinux.Tun.Ifa
import SysnetLinux.Tun.Reconcile

namespace SysnetLinux.TunAddress

open Netip DefaultTun CallProg CallProg.Prog List

/-! ## The plan -/

/-- A wanted prefix takes the place of an address: it is not on the link, and the address
    is, with another length. -/
def Replaces (ifas : List Ifa) (q : Prefix) (a : Ifa) : Prop :=
  q ∉ ifas.map Ifa.net ∧ q.addr = a.net.addr
  deriving Decidable

section Plan

variable {ifas : List Ifa} {desired : List Prefix}

theorem Grouped.wellKept (h : Grouped ifas) : WellKept (ifas.map Ifa.addr) := by
  have h4 : ∀ a ∈ ifas, a.net.addr.is6 = false ∧ a.net.addr.is4In6 = false := by
    intro a ha
    have := (h.ipv4 a ha).2
    cases haddr : a.net.addr with
    | v4 ip => exact ⟨rfl, rfl⟩
    | _ => simp [haddr, Addr.is4] at this
  refine ⟨?_, ?_, ?_⟩
  · intro b hb
    obtain ⟨a, ha, rfl⟩ := mem_map.mp hb
    simp [tunAddrPrefix, Ifa.addr, (h.ipv4 a ha).1, (h4 a ha).2]
  · rw [map_map]
    exact h.distinct
  · intro b hb _ _ h6
    obtain ⟨a, ha, rfl⟩ := mem_map.mp hb
    have := (h4 a ha).1
    simp [Ifa.addr, this] at h6

theorem map_net_addr : (ifas.map Ifa.addr).map NlAddr.net = ifas.map Ifa.net := by
  rw [map_map]
  rfl

/-- The additions of the second loop. -/
def additions (ifas : List Ifa) (desired : List Prefix) : List TunAddrChange :=
  desired.flatMap (addMissing (ifas.map Ifa.addr).zipIdx)

/-- The replacements of the fourth loop. -/
def replacements (ifas : List Ifa) (desired : List Prefix) : List TunAddrChange :=
  desired.flatMap (resolveFor (ifas.map Ifa.addr).zipIdx)

/-- An address that the last loop deletes. -/
def Left (ifas : List Ifa) (desired : List Prefix) (a : Ifa) : Prop :=
  a.net ∉ desired ∧ ∀ q ∈ desired, ¬ Replaces ifas q a
  deriving Decidable

def ipv4Plan (ifas : List Ifa) (desired : List Prefix) : List TunAddrChange :=
  additions ifas desired ++ replacements ifas desired ++
    (ifas.filter fun a => Left ifas desired a).map fun a => .tunAddrDelete a.addr

theorem stale_addr (a : Ifa) : Stale (ifas.map Ifa.addr) desired a.addr ↔ Left ifas desired a := by
  unfold Stale Left Replaces
  rw [map_net_addr]
  refine and_congr_right fun _ => forall₂_congr fun q hq => ?_
  rw [not_and', not_not]
  rfl

section

variable (h : Grouped ifas)
include h

/-- The plan for IPv4 addresses: the two loops for IPv6 do nothing. -/
theorem plan_ipv4 (hdesired : normalizeTunAddrPrefixSet desired = .ok desired)
    (hnodup : (desired.map Prefix.addr).Nodup) (h4 : ∀ p ∈ desired, p.addr.is4 = true) :
    planTunAddrReconciliation (ifas.map Ifa.addr) desired = .ok (ipv4Plan ifas desired) := by
  have h6 : ∀ p ∈ desired, p.addr.is6 = false := by
    intro p hp
    have := h4 p hp
    cases haddr : p.addr with
    | v4 ip => rfl
    | _ => simp [haddr, Addr.is4] at this
  have hdad : desired.flatMap (disableDAD (ifas.map Ifa.addr).zipIdx) = [] := by
    refine flatMap_eq_nil_iff.mpr fun p hp => ?_
    unfold disableDAD
    split
    · rfl
    · simp [h6 p hp]
  have hrecreate : desired.flatMap (recreateFor (ifas.map Ifa.addr).zipIdx) = [] := by
    refine flatMap_eq_nil_iff.mpr fun p hp => ?_
    unfold recreateFor
    split
    · rfl
    · simp [h6 p hp]
  have hstale : ((ifas.map Ifa.addr).filter fun a => Stale (ifas.map Ifa.addr) desired a).map
        TunAddrChange.tunAddrDelete =
      (ifas.filter fun a => Left ifas desired a).map fun a => .tunAddrDelete a.addr := by
    rw [filter_map, map_map]
    congr 1
    exact filter_congr fun a _ => decide_eq_decide.mpr (stale_addr a)
  rw [planTunAddrReconciliation_eq h.wellKept hdesired hnodup, hdad, hrecreate, hstale,
    nil_append, append_nil]
  rfl

theorem currentByPrefix_ifas (p : Prefix) :
    currentByPrefix (ifas.map Ifa.addr).zipIdx p = none ↔ p ∉ ifas.map Ifa.net := by
  rw [currentByPrefix_none h.wellKept, ← map_net_addr, mem_map]
  push Not
  rfl

/-- The addresses of a link that stand for one address, as the planner lists them. -/
theorem currentByIP_ifas (k : Addr) : (currentByIP (ifas.map Ifa.addr).zipIdx k).map Prod.fst =
      (ifas.filter fun a => a.net.addr = k).map Ifa.addr := by
  rw [currentByIP_entries h.wellKept]
  exact filter_map ..

theorem currentByIP_eq_nil (k : Addr) :
    currentByIP (ifas.map Ifa.addr).zipIdx k = [] ↔ ∀ a ∈ ifas, a.net.addr ≠ k := by
  rw [← map_eq_nil_iff, currentByIP_ifas h, map_eq_nil_iff, filter_eq_nil_iff]
  simp

theorem addMissing_ifas (p : Prefix) : addMissing (ifas.map Ifa.addr).zipIdx p =
      if ∀ a ∈ ifas, a.net.addr ≠ p.addr then [.tunAddrReplace p] else [] := by
  by_cases hfree : ∀ a ∈ ifas, a.net.addr ≠ p.addr
  · have hnone : currentByPrefix (ifas.map Ifa.addr).zipIdx p = none := by
      rw [currentByPrefix_ifas h]
      intro hon
      obtain ⟨a, ha, rfl⟩ := mem_map.mp hon
      exact hfree a ha rfl
    rw [if_pos hfree, addMissing, hnone, (currentByIP_eq_nil h p.addr).mpr hfree]
  · rw [if_neg hfree]
    unfold addMissing
    split
    · rename_i hnil
      exact absurd ((currentByIP_eq_nil h p.addr).mp hnil) hfree
    · rfl

/-- What the fourth loop does for one prefix. -/
theorem resolveFor_ifas (p : Prefix) : resolveFor (ifas.map Ifa.addr).zipIdx p =
      if ∃ a ∈ ifas, Replaces ifas p a then
        ((ifas.filter fun a => a.net.addr = p.addr).map fun a => .tunAddrDelete a.addr) ++
          [.tunAddrReplace p]
      else [] := by
  have hip := currentByIP_ifas h p.addr
  by_cases hon : p ∈ ifas.map Ifa.net
  · rw [if_neg (by rintro ⟨a, -, hoff, -⟩; exact hoff hon)]
    have hfound : currentByPrefix (ifas.map Ifa.addr).zipIdx p ≠ none := fun hnone =>
      (currentByPrefix_ifas h p).mp hnone hon
    obtain ⟨x, hx⟩ := Option.ne_none_iff_exists'.mp hfound
    simp [resolveFor, conflictsFor, hx]
  · have hnone := (currentByPrefix_ifas h p).mpr hon
    have hconflicts : conflictsFor (ifas.map Ifa.addr).zipIdx p =
        currentByIP (ifas.map Ifa.addr).zipIdx p.addr := by
      rw [conflictsFor, hnone]
    by_cases hreplaces : ∃ a ∈ ifas, Replaces ifas p a
    · rw [if_pos hreplaces, resolveFor, hconflicts]
      obtain ⟨a, ha, -, haddr⟩ := hreplaces
      split
      · rename_i hnil
        exact absurd haddr.symm ((currentByIP_eq_nil h p.addr).mp hnil a ha)
      · have hdeletes := congrArg (List.map TunAddrChange.tunAddrDelete) hip
        rw [map_map, map_map] at hdeletes
        exact congrArg (· ++ [TunAddrChange.tunAddrReplace p]) hdeletes
    · rw [if_neg hreplaces, resolveFor, hconflicts]
      rw [(currentByIP_eq_nil h p.addr).mpr fun a ha heq => hreplaces ⟨a, ha, hon, heq.symm⟩]

end

variable {p : Prefix} {b : NlAddr}

section

variable (h : Grouped ifas)
include h

theorem mem_additions {c : TunAddrChange} : c ∈ additions ifas desired ↔
      ∃ q ∈ desired, (∀ a ∈ ifas, a.net.addr ≠ q.addr) ∧ c = .tunAddrReplace q := by
  simp only [additions, mem_flatMap, addMissing_ifas h, mem_ite_nil_right, mem_singleton]

theorem mem_replacements {c : TunAddrChange} : c ∈ replacements ifas desired ↔
      ∃ q ∈ desired, (∃ a ∈ ifas, Replaces ifas q a) ∧
        ((∃ a ∈ ifas, a.net.addr = q.addr ∧ .tunAddrDelete a.addr = c) ∨ c = .tunAddrReplace q) := by
  simp only [replacements, mem_flatMap, resolveFor_ifas h, mem_ite_nil_right,
    mem_append, mem_map, mem_filter, decide_eq_true_eq, mem_singleton, and_assoc]

theorem replace_mem_additions : .tunAddrReplace p ∈ additions ifas desired ↔
      p ∈ desired ∧ ∀ a ∈ ifas, a.net.addr ≠ p.addr := by
  rw [mem_additions h]
  constructor
  · rintro ⟨q, hq, hfree, heq⟩
    obtain rfl := TunAddrChange.tunAddrReplace.inj heq
    exact ⟨hq, hfree⟩
  · exact fun ⟨hp, hfree⟩ => ⟨p, hp, hfree, rfl⟩

theorem delete_not_mem_additions (b : NlAddr) : .tunAddrDelete b ∉ additions ifas desired := by
  rw [mem_additions h]
  exact fun ⟨_, _, _, heq⟩ => TunAddrChange.noConfusion heq

theorem replace_mem_replacements : .tunAddrReplace p ∈ replacements ifas desired ↔
      p ∈ desired ∧ ∃ a ∈ ifas, Replaces ifas p a := by
  rw [mem_replacements h]
  constructor
  · rintro ⟨q, hq, hreplaces, ⟨_, _, _, heq⟩ | heq⟩
    · exact TunAddrChange.noConfusion heq
    · obtain rfl := TunAddrChange.tunAddrReplace.inj heq
      exact ⟨hq, hreplaces⟩
  · exact fun ⟨hp, hreplaces⟩ => ⟨p, hp, hreplaces, .inr rfl⟩

theorem delete_mem_replacements : .tunAddrDelete b ∈ replacements ifas desired ↔
      ∃ a ∈ ifas, a.addr = b ∧ ∃ q ∈ desired, Replaces ifas q a := by
  rw [mem_replacements h]
  constructor
  · rintro ⟨q, hq, ⟨-, -, hoff, -⟩, ⟨a, ha, haddr, heq⟩ | heq⟩
    · exact ⟨a, ha, TunAddrChange.tunAddrDelete.inj heq, q, hq, hoff, haddr.symm⟩
    · exact TunAddrChange.noConfusion heq
  · rintro ⟨a, ha, rfl, q, hq, hreplaces⟩
    exact ⟨q, hq, ⟨a, ha, hreplaces⟩, .inl ⟨a, ha, hreplaces.2.symm, rfl⟩⟩

end

theorem delete_mem_left : .tunAddrDelete b ∈ ((ifas.filter fun a => Left ifas desired a).map
        fun a => TunAddrChange.tunAddrDelete a.addr) ↔
      ∃ a ∈ ifas, a.addr = b ∧ Left ifas desired a := by
  simp only [mem_map, mem_filter, decide_eq_true_eq, TunAddrChange.tunAddrDelete.injEq]
  constructor
  · rintro ⟨a, ⟨ha, hleft⟩, haddr⟩
    exact ⟨a, ha, haddr, hleft⟩
  · rintro ⟨a, ha, haddr, hleft⟩
    exact ⟨a, ⟨ha, hleft⟩, haddr⟩

theorem replace_mem_ipv4Plan (h : Grouped ifas) :
    .tunAddrReplace p ∈ ipv4Plan ifas desired ↔ p ∈ desired ∧ p ∉ ifas.map Ifa.net := by
  have hdeletes : TunAddrChange.tunAddrReplace p ∉
      (ifas.filter fun a => Left ifas desired a).map fun a => .tunAddrDelete a.addr := by simp
  unfold ipv4Plan
  rw [mem_append, mem_append, replace_mem_additions h, replace_mem_replacements h,
    or_iff_left hdeletes, ← and_or_left]
  refine and_congr_right fun _ => ?_
  constructor
  · rintro (hfree | ⟨a, -, hoff, -⟩)
    · intro hon
      obtain ⟨a, ha, rfl⟩ := mem_map.mp hon
      exact hfree a ha rfl
    · exact hoff
  · intro hoff
    by_cases hfree : ∀ a ∈ ifas, a.net.addr ≠ p.addr
    · exact .inl hfree
    · push Not at hfree
      obtain ⟨a, ha, haddr⟩ := hfree
      exact .inr ⟨a, ha, hoff, haddr.symm⟩

/-- What takes the place of an address is wanted in its stead. -/
theorem Replaces.unwanted (hnodup : (desired.map Prefix.addr).Nodup) {a : Ifa} (ha : a ∈ ifas)
    {q : Prefix} (hq : q ∈ desired) (h : Replaces ifas q a) : a.net ∉ desired := by
  intro hwanted
  have hsame := inj_on_of_nodup_map hnodup hq hwanted h.2
  exact h.1 (hsame ▸ mem_map_of_mem ha)

theorem delete_mem_ipv4Plan (h : Grouped ifas) (hnodup : (desired.map Prefix.addr).Nodup) :
    .tunAddrDelete b ∈ ipv4Plan ifas desired ↔ ∃ a ∈ ifas, a.addr = b ∧ a.net ∉ desired := by
  unfold ipv4Plan
  rw [mem_append, mem_append, or_iff_right (delete_not_mem_additions h b),
    delete_mem_replacements h, delete_mem_left]
  constructor
  · rintro (⟨a, ha, haddr, q, hq, hreplaces⟩ | ⟨a, ha, haddr, hleft⟩)
    · exact ⟨a, ha, haddr, hreplaces.unwanted hnodup ha hq⟩
    · exact ⟨a, ha, haddr, hleft.1⟩
  · rintro ⟨a, ha, haddr, hunwanted⟩
    by_cases hreplaced : ∃ q ∈ desired, Replaces ifas q a
    · exact .inl ⟨a, ha, haddr, hreplaced⟩
    · push Not at hreplaced
      exact .inr ⟨a, ha, haddr, hunwanted, hreplaced⟩

/-- Changes that the wanted prefixes give rise to, each about its own address. -/
theorem nodup_flatMap {f : Prefix → List TunAddrChange} (hip : ∀ p, ∀ c ∈ f p, c.ip = p.addr)
    (hf : ∀ p, (f p).Nodup) (hnodup : (desired.map Prefix.addr).Nodup) :
    (desired.flatMap f).Nodup := by
  refine List.nodup_flatMap.mpr ⟨fun p _ => hf p, ?_⟩
  refine (pairwise_map.mp hnodup).imp fun {p q} hne => ?_
  intro c hp hq
  exact hne ((hip p c hp).symm.trans (hip q c hq))

theorem nodup_ipv4Plan (h : Grouped ifas) (hnodup : (desired.map Prefix.addr).Nodup) :
    (ipv4Plan ifas desired).Nodup := by
  have hdeletes : ∀ q : Ifa → Bool,
      ((ifas.filter q).map fun a => TunAddrChange.tunAddrDelete a.addr).Nodup := by
    intro q
    have hnets : ((ifas.filter q).map Ifa.net).Nodup :=
      h.distinct.sublist (filter_sublist.map _)
    refine List.Nodup.map_on (fun a ha b hb heq => ?_) (List.Nodup.of_map _ hnets)
    have hnet : a.net = b.net := congrArg NlAddr.net (TunAddrChange.tunAddrDelete.inj heq)
    exact inj_on_of_nodup_map hnets ha hb hnet
  have hadditions : (additions ifas desired).Nodup := by
    refine nodup_flatMap (fun p => addMissing_ip) (fun p => ?_) hnodup
    rw [addMissing_ifas h]
    split
    · exact nodup_singleton _
    · exact nodup_nil
  have hreplacements : (replacements ifas desired).Nodup := by
    refine nodup_flatMap (fun p => resolveFor_ip) (fun p => ?_) hnodup
    rw [resolveFor_ifas h]
    split
    · rw [nodup_append]
      refine ⟨hdeletes _, nodup_singleton _, ?_⟩
      rintro c hc _ hd rfl
      obtain rfl := mem_singleton.mp hd
      simp at hc
    · exact nodup_nil
  unfold ipv4Plan
  rw [nodup_append, nodup_append]
  refine ⟨⟨hadditions, hreplacements, ?_⟩, hdeletes _, ?_⟩
  · rintro c hc _ hd rfl
    cases c with
    | tunAddrReplace p =>
      obtain ⟨-, a, ha, -, haddr⟩ := (replace_mem_replacements h).mp hd
      exact ((replace_mem_additions h).mp hc).2 a ha haddr.symm
    | tunAddrDelete b => exact delete_not_mem_additions h b hc
  · rintro c hc _ hd rfl
    cases c with
    | tunAddrReplace p => simp at hd
    | tunAddrDelete b =>
      obtain ⟨a, ha, rfl, hleft⟩ := delete_mem_left.mp hd
      rcases mem_append.mp hc with hc | hc
      · exact delete_not_mem_additions h _ hc
      · obtain ⟨a', ha', haddr, q, hq, hreplaces⟩ := (delete_mem_replacements h).mp hc
        have hnet : a'.net = a.net := congrArg NlAddr.net haddr
        obtain rfl := inj_on_of_nodup_map h.distinct ha' ha hnet
        exact hleft.2 q hq hreplaces

end Plan

/-! ## The plan in one network -/

section Network

variable {ifas : List Ifa} {desired : List Prefix} {n : Prefix} {x : Ifa} {secondaries : List Ifa}

theorem eq_of_masked {p q : Prefix} (hp : p.isValid = true) (hq : q.isValid = true)
    (haddr : p.addr = q.addr) (hmasked : p.masked = q.masked) : p = q := by
  refine Prefix.eq_of_addr_bits haddr ?_
  unfold Prefix.bits
  rw [← Prefix.masked_bitsPlusOne hp, ← Prefix.masked_bitsPlusOne hq, hmasked]

theorem mem_of_group (hgroup : group n ifas = x :: secondaries) {y : Ifa} :
    y ∈ x :: secondaries ↔ y ∈ ifas ∧ y.network = n := hgroup ▸ mem_group

theorem Grouped.headed (h : Grouped ifas) (hgroup : group n ifas = x :: secondaries) :
    Headed n x secondaries := by
  refine ⟨hgroup ▸ h.led n, ?_, fun y hy => ?_⟩
  · rw [← hgroup]
    exact h.distinct.sublist (filter_sublist.map _)
  · exact ((mem_of_group hgroup).mp hy).2

/-- The changes in one network. -/
abbrev changesIn (n : Prefix) (changes : List TunAddrChange) : List TunAddrChange :=
  Keyed.here TunAddrChange.network n changes

theorem changesIn_append (changes changes' : List TunAddrChange) :
    changesIn n (changes ++ changes') = changesIn n changes ++ changesIn n changes' :=
  Keyed.here_append ..

theorem mem_changesIn {changes : List TunAddrChange} {c : TunAddrChange} :
    c ∈ changesIn n changes ↔ c ∈ changes ∧ c.network = n := Keyed.mem_here

theorem changesIn_deletes (q : Ifa → Bool) :
    changesIn n ((ifas.filter q).map fun a => .tunAddrDelete a.addr) =
      ((group n ifas).filter q).map fun a => .tunAddrDelete a.addr := by
  rw [← group_filter]
  exact Keyed.here_map (fun _ => rfl) _ _

/-- Among the changes for a prefix that takes the place of a primary, those in the network
    of the primary delete it. -/
theorem changesIn_resolveFor (h : Grouped ifas) (hgroup : group n ifas = x :: secondaries)
    {q : Prefix} (hvalid : q.isValid = true) (hreplaces : Replaces ifas q x) :
    changesIn n (resolveFor (ifas.map Ifa.addr).zipIdx q) = [.tunAddrDelete x.addr] := by
  have hheaded := h.headed hgroup
  have hmem : ∀ y ∈ x :: secondaries, y ∈ ifas := fun y hy => ((mem_of_group hgroup).mp hy).1
  have hx := hmem x mem_cons_self
  have hnetwork := hheaded.network x mem_cons_self
  have hothers : (secondaries.filter fun a => a.net.addr = q.addr) = [] := by
    refine filter_eq_nil_iff.mpr fun y hy => ?_
    intro haddr
    have hsame : y.net = x.net := by
      refine eq_of_masked (h.ipv4 y (hmem y (mem_cons_of_mem x hy))).1 (h.ipv4 x hx).1 ?_ ?_
      · rw [← hreplaces.2]
        simpa using haddr
      · exact (hheaded.network y (mem_cons_of_mem x hy)).trans hnetwork.symm
    exact (nodup_cons.mp hheaded.distinct).1 (hsame ▸ mem_map_of_mem hy)
  have hadd : changesIn n [.tunAddrReplace q] = [] := by
    refine Keyed.here_eq_nil fun c hc heq => ?_
    obtain rfl := mem_singleton.mp hc
    have hsame := eq_of_masked hvalid (h.ipv4 x hx).1 hreplaces.2 (heq.trans hnetwork.symm)
    exact hreplaces.1 (hsame ▸ mem_map_of_mem hx)
  rw [resolveFor_ifas h, if_pos ⟨x, hx, hreplaces⟩, changesIn_append, changesIn_deletes, hadd,
    hgroup, filter_cons_of_pos (by simpa using hreplaces.2.symm), hothers]
  rfl

/-- Where a primary is deleted in the plan: in the place of the prefix that replaces it,
    or at the end and before its secondaries. -/
theorem changesIn_ipv4Plan (h : Grouped ifas) (hvalid : ∀ p ∈ desired, p.isValid = true)
    (hgroup : group n ifas = x :: secondaries) (hx : x.net ∉ desired) :
    ∃ before after, ((desired = before ∧ after = [] ∧ ∀ q ∈ desired, ¬ Replaces ifas q x) ∨
        ∃ q, desired = before ++ q :: after ∧ Replaces ifas q x) ∧
      changesIn n (ipv4Plan ifas desired) =
        changesIn n (additions ifas desired ++ replacements ifas before) ++
          .tunAddrDelete x.addr :: (changesIn n (replacements ifas after) ++
            (secondaries.filter fun a => Left ifas desired a).map fun a => .tunAddrDelete a.addr) := by
  by_cases hreplaced : ∃ q ∈ desired, Replaces ifas q x
  · obtain ⟨q, hq, hreplaces⟩ := hreplaced
    obtain ⟨before, after, hsplit⟩ := append_of_mem hq
    refine ⟨before, after, .inr ⟨q, hsplit, hreplaces⟩, ?_⟩
    have hleft : ¬ Left ifas desired x := fun hleft => hleft.2 q hq hreplaces
    have hloop : replacements ifas desired = replacements ifas before ++
        (resolveFor (ifas.map Ifa.addr).zipIdx q ++ replacements ifas after) := by
      unfold replacements
      rw [hsplit, flatMap_append, flatMap_cons]
    unfold ipv4Plan
    rw [changesIn_append, changesIn_append, changesIn_append, changesIn_deletes, hgroup,
      filter_cons_of_neg (by simpa using hleft), hloop, changesIn_append, changesIn_append,
      changesIn_resolveFor h hgroup (hvalid q hq) hreplaces]
    simp
  · push Not at hreplaced
    refine ⟨desired, [], .inl ⟨rfl, rfl, hreplaced⟩, ?_⟩
    have hleft : Left ifas desired x := ⟨hx, hreplaced⟩
    unfold ipv4Plan
    rw [changesIn_append, changesIn_deletes, hgroup, filter_cons_of_pos (by simpa using hleft)]
    rfl

/-- The changes in one network leave what is wanted there. -/
def ExactIn (ifas : List Ifa) (desired : List Prefix) (n : Prefix) : Prop :=
  ∃ ifas', (changesIn n (ipv4Plan ifas desired)).foldlM kernelChange (group n ifas) = some ifas' ∧
    ∀ p, p.masked = n → (p ∈ ifas'.map Ifa.net ↔ p ∈ desired)

section

variable (h : Grouped ifas) (hnodup : (desired.map Prefix.addr).Nodup)
include h hnodup

theorem exactIn_empty (hgroup : group n ifas = []) : ExactIn ifas desired n := by
  have hoff : ∀ a ∈ ifas, a.network ≠ n := by
    intro a ha heq
    have : a ∈ group n ifas := mem_group.mpr ⟨ha, heq⟩
    rw [hgroup] at this
    cases this
  have hdelete : ∀ b, .tunAddrDelete b ∉ changesIn n (ipv4Plan ifas desired) := by
    intro b hb
    obtain ⟨hb, hn⟩ := mem_changesIn.mp hb
    obtain ⟨a, ha, rfl, -⟩ := (delete_mem_ipv4Plan h hnodup).mp hb
    exact hoff a ha hn
  obtain ⟨ifas', hrun, hmem⟩ := run_additions hdelete (group n ifas)
  refine ⟨ifas', hrun, fun p hp => ?_⟩
  have hnew : p ∉ ifas.map Ifa.net := by
    intro hon
    obtain ⟨a, ha, rfl⟩ := mem_map.mp hon
    exact hoff a ha hp
  rw [hmem, mem_changesIn, replace_mem_ipv4Plan h, hgroup]
  simp [hnew, TunAddrChange.network, hp]

/-- Changes of the plan in one network, other than the deletion of the primary. -/
theorem run_plan (hgroup : group n ifas = x :: secondaries) {changes : List TunAddrChange}
    (hchanges : changes.Nodup) (hplan : ∀ c ∈ changes, c ∈ ipv4Plan ifas desired ∧ c.network = n)
    (hx : .tunAddrDelete x.addr ∉ changes) :
    ∃ secondaries', changes.foldlM kernelChange (x :: secondaries) = some (x :: secondaries') ∧
      Headed n x secondaries' ∧ ∀ p, p ∈ secondaries'.map Ifa.net ↔
        (∃ y ∈ secondaries, y.net = p ∧ .tunAddrDelete y.addr ∉ changes) ∨
          .tunAddrReplace p ∈ changes := by
  refine run_secondaries (h.headed hgroup) hchanges (fun c hc => (hplan c hc).2) ?_ ?_
  · intro p hp hon
    obtain ⟨y, hy, rfl⟩ := mem_map.mp hon
    obtain ⟨-, hoff⟩ := (replace_mem_ipv4Plan h).mp (hplan _ hp).1
    exact hoff (mem_map_of_mem ((mem_of_group hgroup).mp hy).1)
  · intro b hb
    obtain ⟨hb', hn⟩ := hplan _ hb
    obtain ⟨a, ha, rfl, -⟩ := (delete_mem_ipv4Plan h hnodup).mp hb'
    rcases mem_cons.mp ((mem_of_group hgroup).mpr ⟨ha, hn⟩) with rfl | hsecondary
    · exact absurd hb hx
    · exact ⟨a, hsecondary, rfl⟩

theorem exactIn_kept (hgroup : group n ifas = x :: secondaries) (hx : x.net ∈ desired) :
    ExactIn ifas desired n := by
  have hkeeps : ∀ {y : Ifa}, y.net ∈ desired →
      .tunAddrDelete y.addr ∉ changesIn n (ipv4Plan ifas desired) := by
    intro y hwanted hdelete
    obtain ⟨a, -, haddr, hunwanted⟩ :=
      (delete_mem_ipv4Plan h hnodup).mp (mem_changesIn.mp hdelete).1
    have hnet : a.net = y.net := congrArg NlAddr.net haddr
    exact hunwanted (hnet ▸ hwanted)
  have hplan : (changesIn n (ipv4Plan ifas desired)).Nodup := (nodup_ipv4Plan h hnodup).filter _
  obtain ⟨secondaries', hrun, -, hnets⟩ :=
    run_plan h hnodup hgroup hplan (fun c hc => mem_changesIn.mp hc) (hkeeps hx)
  refine ⟨x :: secondaries', by rw [hgroup]; exact hrun, fun p hp => ?_⟩
  rw [map_cons, mem_cons, hnets, mem_changesIn, replace_mem_ipv4Plan h]
  constructor
  · rintro (rfl | ⟨y, hy, rfl, hkept⟩ | ⟨⟨hwanted, -⟩, -⟩)
    · exact hx
    · by_contra hunwanted
      obtain ⟨hy, hn⟩ := (mem_of_group hgroup).mp (mem_cons_of_mem x hy)
      exact hkept (mem_changesIn.mpr ⟨(delete_mem_ipv4Plan h hnodup).mpr
        ⟨y, hy, rfl, hunwanted⟩, hn⟩)
    · exact hwanted
  · intro hwanted
    by_cases hon : p ∈ ifas.map Ifa.net
    · obtain ⟨y, hy, rfl⟩ := mem_map.mp hon
      rcases mem_cons.mp ((mem_of_group hgroup).mpr ⟨hy, hp⟩) with rfl | hsecondary
      · exact .inl rfl
      · exact .inr (.inl ⟨y, hsecondary, rfl, hkeeps hwanted⟩)
    · exact .inr (.inr ⟨⟨hwanted, hon⟩, hp⟩)

/-- The deletion of the primary leaves nothing in its network, whatever the changes before
    it have done. -/
theorem foldlM_primary (hgroup : group n ifas = x :: secondaries)
    {before after : List TunAddrChange}
    (hplan : changesIn n (ipv4Plan ifas desired) = before ++ .tunAddrDelete x.addr :: after) :
    (changesIn n (ipv4Plan ifas desired)).foldlM kernelChange (group n ifas) =
      after.foldlM kernelChange [] := by
  have hchanges : (changesIn n (ipv4Plan ifas desired)).Nodup := (nodup_ipv4Plan h hnodup).filter _
  rw [hplan] at hchanges
  obtain ⟨hbefore, -, hdisjoint⟩ := nodup_append.mp hchanges
  obtain ⟨rest, hrun, hrest, -⟩ := run_plan h hnodup hgroup hbefore
    (fun c hc => mem_changesIn.mp (hplan ▸ mem_append_left _ hc))
    fun hx => hdisjoint _ hx _ mem_cons_self rfl
  have hgone : kernelChange (x :: rest) (.tunAddrDelete x.addr) = some [] :=
    removeIfa_primary hrest.led fun a ha =>
      (hrest.network a (mem_cons_of_mem x ha)).trans (hrest.network x mem_cons_self).symm
  rw [hplan, hgroup, foldlM_append, hrun]
  simp only [Option.bind_eq_bind, Option.bind_some, foldlM_cons, hgone]

/-- Where the primary goes, its secondaries have to be gone, and what is wanted in the
    network has to come afterwards. -/
theorem exactIn_unwanted (hgroup : group n ifas = x :: secondaries) {before after : List Prefix}
    (hafter : after ⊆ desired) (hplan : changesIn n (ipv4Plan ifas desired) =
      changesIn n (additions ifas desired ++ replacements ifas before) ++
        .tunAddrDelete x.addr :: (changesIn n (replacements ifas after) ++
          (secondaries.filter fun a => Left ifas desired a).map fun a => .tunAddrDelete a.addr)) :
    ExactIn ifas desired n ↔ (∀ y ∈ secondaries, ∃ r ∈ before, Replaces ifas r y) ∧
        ∀ p ∈ desired, p.masked = n → p ∈ after ∧ ∃ a ∈ ifas, Replaces ifas p a := by
  have hheaded := h.headed hgroup
  have hchanges : (changesIn n (ipv4Plan ifas desired)).Nodup := (nodup_ipv4Plan h hnodup).filter _
  rw [hplan] at hchanges
  unfold ExactIn
  rw [foldlM_primary h hnodup hgroup hplan]
  have hdeleted : ∀ b, .tunAddrDelete b ∈
      changesIn n (additions ifas desired ++ replacements ifas before) ↔
      (∃ a ∈ ifas, a.addr = b ∧ ∃ q ∈ before, Replaces ifas q a) ∧ b.net.masked = n := by
    intro b
    rw [mem_changesIn, mem_append, or_iff_right (delete_not_mem_additions h b),
      delete_mem_replacements h]
    rfl
  have hadded : ∀ p, .tunAddrReplace p ∈ changesIn n (replacements ifas after) ++
      (secondaries.filter fun a => Left ifas desired a).map
        (fun a => TunAddrChange.tunAddrDelete a.addr) ↔
      (p ∈ after ∧ ∃ a ∈ ifas, Replaces ifas p a) ∧ p.masked = n := by
    intro p
    rw [mem_append, or_iff_left (by simp), mem_changesIn, replace_mem_replacements h]
    rfl
  generalize changesIn n (additions ifas desired ++ replacements ifas before) = pre at *
  generalize changesIn n (replacements ifas after) ++
    (secondaries.filter fun a => Left ifas desired a).map
      (fun a => TunAddrChange.tunAddrDelete a.addr) = post at *
  obtain ⟨-, hrest, hdisjoint⟩ := nodup_append.mp hchanges
  constructor
  · rintro ⟨ifas', hpostrun, hexact⟩
    have hcome : ∀ p ∈ desired, p.masked = n → .tunAddrReplace p ∈ post := by
      intro p hp hn
      rcases run_nets hpostrun ((hexact p hn).mpr hp) with hon | hadd
      · cases hon
      · exact hadd
    refine ⟨fun y hy => ?_, fun p hp hn => ((hadded p).mp (hcome p hp hn)).1⟩
    obtain ⟨hy', hn⟩ := (mem_of_group hgroup).mp (mem_cons_of_mem x hy)
    have hstays : .tunAddrReplace y.net ∉ post := by
      intro hadd
      obtain ⟨⟨-, a, -, hoff, -⟩, -⟩ := (hadded y.net).mp hadd
      exact hoff (mem_map_of_mem hy')
    have hunwanted : y.net ∉ desired := fun hwanted => hstays (hcome y.net hwanted hn)
    have hdelete : .tunAddrDelete y.addr ∈ changesIn n (ipv4Plan ifas desired) :=
      mem_changesIn.mpr ⟨(delete_mem_ipv4Plan h hnodup).mpr ⟨y, hy', rfl, hunwanted⟩, hn⟩
    rw [hplan] at hdelete
    rcases mem_append.mp hdelete with hd | hd
    · obtain ⟨⟨a, ha, haddr, r, hr, hreplaces⟩, -⟩ := (hdeleted y.addr).mp hd
      have hnet : a.net = y.net := congrArg NlAddr.net haddr
      obtain rfl := inj_on_of_nodup_map h.distinct ha hy' hnet
      exact ⟨r, hr, hreplaces⟩
    · rcases mem_cons.mp hd with heq | hd
      · have hnet : y.net = x.net := congrArg NlAddr.net (TunAddrChange.tunAddrDelete.inj heq)
        exact absurd (hnet ▸ mem_map_of_mem hy) (nodup_cons.mp hheaded.distinct).1
      · rw [run_missing hd hstays (by simp)] at hpostrun
        cases hpostrun
  · rintro ⟨hgone, hcomes⟩
    have hkeeps : ∀ b, .tunAddrDelete b ∉ post := by
      intro b hb
      have hb' : .tunAddrDelete b ∈ changesIn n (ipv4Plan ifas desired) :=
        hplan ▸ mem_append_right _ (mem_cons_of_mem _ hb)
      obtain ⟨hb', hn⟩ := mem_changesIn.mp hb'
      obtain ⟨a, ha, rfl, -⟩ := (delete_mem_ipv4Plan h hnodup).mp hb'
      rcases mem_cons.mp ((mem_of_group hgroup).mpr ⟨ha, hn⟩) with rfl | hsec
      · exact (nodup_cons.mp hrest).1 hb
      · obtain ⟨r, hr, hreplaces⟩ := hgone a hsec
        have hpre := (hdeleted a.addr).mpr ⟨⟨a, ha, rfl, r, hr, hreplaces⟩, hn⟩
        exact hdisjoint _ hpre _ (mem_cons_of_mem _ hb) rfl
    obtain ⟨ifas', hpostrun, hnets⟩ := run_additions hkeeps []
    refine ⟨ifas', hpostrun, fun p hn => ?_⟩
    rw [hnets, hadded]
    constructor
    · rintro (hon | ⟨⟨hp, -⟩, -⟩)
      · cases hon
      · exact hafter hp
    · exact fun hp => .inr ⟨hcomes p hp hn, hn⟩

end

end Network

/-! ## Which lists can be replaced -/

section Order

variable {α : Type} [DecidableEq α] {before after : List α} {q r : α}

theorem idxOf_split (h : (before ++ q :: after).Nodup) :
    (before ++ q :: after).idxOf q = before.length := by
  have hq : q ∉ before := fun hmem =>
    (nodup_append.mp h).2.2 q hmem q mem_cons_self rfl
  rw [idxOf_append_of_notMem hq, idxOf_cons_self, Nat.add_zero]

theorem idxOf_lt_split (h : (before ++ q :: after).Nodup) :
    (before ++ q :: after).idxOf r < (before ++ q :: after).idxOf q ↔ r ∈ before := by
  rw [idxOf_split h]
  by_cases hr : r ∈ before
  · rw [idxOf_append_of_mem hr]
    exact iff_of_true (idxOf_lt_length_iff.mpr hr) hr
  · rw [idxOf_append_of_notMem hr]
    exact iff_of_false (by omega) hr

theorem split_lt_idxOf (h : (before ++ q :: after).Nodup) (hr : r ∈ before ++ q :: after) :
    (before ++ q :: after).idxOf q < (before ++ q :: after).idxOf r ↔ r ∈ after := by
  rw [idxOf_split h]
  by_cases hbefore : r ∈ before
  · have hlt := idxOf_lt_length_iff.mpr hbefore
    have hafter : r ∉ after := fun hmem =>
      (nodup_append.mp h).2.2 r hbefore r (mem_cons_of_mem q hmem) rfl
    rw [idxOf_append_of_mem hbefore]
    exact iff_of_false (by omega) hafter
  · rw [idxOf_append_of_notMem hbefore]
    rcases mem_cons.mp ((mem_append.mp hr).resolve_left hbefore) with rfl | hafter
    · have hnot := (nodup_cons.mp (nodup_append.mp h).2.1).1
      rw [idxOf_cons_self]
      exact iff_of_false (by omega) hnot
    · have hne : q ≠ r := by
        rintro rfl
        exact (nodup_cons.mp (nodup_append.mp h).2.1).1 hafter
      rw [idxOf_cons_ne after hne]
      exact iff_of_true (by omega) hafter

end Order

/-- Every primary that is not wanted is deleted after its secondaries and before what is
    wanted in its network.  An address goes when a wanted prefix takes its place, in the
    order in which they are given, and otherwise at the end. -/
def Replaceable (ifas : List Ifa) (ps : List Prefix) : Prop :=
  ∀ x ∈ ifas, x.secondary = false → x.net ∉ ps →
    (∀ y ∈ ifas, y.network = x.network → y ≠ x →
      ∃ r ∈ ps, Replaces ifas r y ∧
        ∀ q ∈ ps, Replaces ifas q x → ps.idxOf r < ps.idxOf q) ∧
    ∀ p ∈ ps, p.masked = x.network →
      (∃ y ∈ ifas, Replaces ifas p y) ∧
        ∃ q ∈ ps, Replaces ifas q x ∧ ps.idxOf q < ps.idxOf p
  deriving Decidable

section Replaceable

variable {ifas : List Ifa} {ps desired : List Prefix}

theorem replaceable_foldl_appendNew :
    Replaceable ifas (ps.foldl appendNew []) ↔ Replaceable ifas ps := by
  have hmem : ∀ p, p ∈ ps.foldl appendNew [] ↔ p ∈ ps := fun p => by
    rw [mem_foldl_appendNew]
    simp
  unfold Replaceable
  simp only [hmem]
  refine forall₄_congr fun x _ _ _ => and_congr ?_ ?_
  · refine forall₄_congr fun y _ _ _ => exists_congr fun r => and_congr_right fun hr =>
      and_congr_right fun _ => forall₃_congr fun q _ _ => ?_
    exact Unseen.idxOf_collect hr
  · refine forall₃_congr fun p _ _ => and_congr_right fun _ => exists_congr fun q =>
      and_congr_right fun hq => and_congr_right fun _ => ?_
    exact Unseen.idxOf_collect hq

/-- At most one wanted prefix takes the place of an address. -/
theorem Replaces.unique (hnodup : (desired.map Prefix.addr).Nodup) {q r : Prefix} {a : Ifa}
    (hq : q ∈ desired) (hr : r ∈ desired) (h : Replaces ifas q a) (h' : Replaces ifas r a) :
    q = r :=
  inj_on_of_nodup_map hnodup hq hr (h.2.trans h'.2.symm)

/-- A primary that is not wanted, and what the plan makes of its network. -/
theorem exactIn_iff (h : Grouped ifas) (hvalid : ∀ p ∈ desired, p.isValid = true)
    (hnodup : (desired.map Prefix.addr).Nodup) {n : Prefix} {x : Ifa} {secondaries : List Ifa}
    (hgroup : group n ifas = x :: secondaries) (hx : x.net ∉ desired) :
    ExactIn ifas desired n ↔ (∀ y ∈ secondaries, ∃ r ∈ desired, Replaces ifas r y ∧
          ∀ q ∈ desired, Replaces ifas q x → desired.idxOf r < desired.idxOf q) ∧
        ∀ p ∈ desired, p.masked = n → (∃ a ∈ ifas, Replaces ifas p a) ∧
          ∃ q ∈ desired, Replaces ifas q x ∧ desired.idxOf q < desired.idxOf p := by
  obtain ⟨before, after, hsplit, hplan⟩ := changesIn_ipv4Plan h hvalid hgroup hx
  rcases hsplit with ⟨rfl, rfl, hnone⟩ | ⟨q, rfl, hreplaces⟩
  · rw [exactIn_unwanted h hnodup hgroup (nil_subset _) hplan]
    refine and_congr ?_ ?_
    · refine forall₂_congr fun y _ => exists_congr fun r => and_congr_right fun _ => ?_
      exact (and_iff_left fun q hq hr => absurd hr (hnone q hq)).symm
    · refine forall₃_congr fun p hp _ => ?_
      refine iff_of_false (by simp) ?_
      rintro ⟨-, q, hq, hr, -⟩
      exact hnone q hq hr
  · have hlist : (before ++ q :: after).Nodup := List.Nodup.of_map _ hnodup
    have hq : q ∈ before ++ q :: after := mem_append_right _ mem_cons_self
    have hbefore : before ⊆ before ++ q :: after := subset_append_left ..
    have hafter : after ⊆ before ++ q :: after := fun p hp =>
      mem_append_right _ (mem_cons_of_mem q hp)
    rw [exactIn_unwanted h hnodup hgroup hafter hplan]
    refine and_congr ?_ ?_
    · refine forall₂_congr fun y _ => ?_
      constructor
      · rintro ⟨r, hr, hry⟩
        refine ⟨r, hbefore hr, hry, fun q' hq' hr' => ?_⟩
        rw [hr'.unique hnodup hq' hq hreplaces]
        exact (idxOf_lt_split hlist).mpr hr
      · rintro ⟨r, hr, hry, hfirst⟩
        exact ⟨r, (idxOf_lt_split hlist).mp (hfirst q hq hreplaces), hry⟩
    · refine forall₃_congr fun p hp _ => ?_
      rw [and_comm]
      refine and_congr_right fun _ => ?_
      constructor
      · exact fun hpa => ⟨q, hq, hreplaces, (split_lt_idxOf hlist hp).mpr hpa⟩
      · rintro ⟨q', hq', hr', hlt⟩
        rw [hr'.unique hnodup hq' hq hreplaces] at hlt
        exact (split_lt_idxOf hlist hp).mp hlt

theorem exactIn_all_iff (h : Grouped ifas) (hvalid : ∀ p ∈ desired, p.isValid = true)
    (hnodup : (desired.map Prefix.addr).Nodup) :
    (∀ n, ExactIn ifas desired n) ↔ Replaceable ifas desired := by
  constructor
  · intro hexact x hx hprimary hunwanted
    have hmem : x ∈ group x.network ifas := mem_group.mpr ⟨hx, rfl⟩
    cases hgroup : group x.network ifas with
    | nil =>
      rw [hgroup] at hmem
      cases hmem
    | cons x' secondaries =>
      rw [hgroup] at hmem
      obtain rfl := (h.headed hgroup).led.eq_primary hmem hprimary
      obtain ⟨hgone, hcomes⟩ := (exactIn_iff h hvalid hnodup hgroup hunwanted).mp (hexact _)
      refine ⟨fun y hy hn hne => hgone y ?_, hcomes⟩
      have hy' : y ∈ x :: secondaries := hgroup ▸ mem_group.mpr ⟨hy, hn⟩
      exact (mem_cons.mp hy').resolve_left hne
  · intro hreplaceable n
    cases hgroup : group n ifas with
    | nil => exact exactIn_empty h hnodup hgroup
    | cons x secondaries =>
      have hheaded := h.headed hgroup
      obtain ⟨hx, rfl⟩ := (mem_of_group hgroup).mp mem_cons_self
      by_cases hwanted : x.net ∈ desired
      · exact exactIn_kept h hnodup hgroup hwanted
      · obtain ⟨hgone, hcomes⟩ := hreplaceable x hx hheaded.led.1 hwanted
        refine (exactIn_iff h hvalid hnodup hgroup hwanted).mpr ⟨fun y hy => ?_, hcomes⟩
        obtain ⟨hy', hn⟩ := (mem_of_group hgroup).mp (mem_cons_of_mem x hy)
        refine hgone y hy' hn ?_
        rintro rfl
        exact (nodup_cons.mp hheaded.distinct).1 (mem_map_of_mem hy)

/-- A plan is exact on a link if it is in every network. -/
theorem exact_iff : (∃ ifas', (ipv4Plan ifas desired).foldlM kernelChange ifas = some ifas' ∧
      ∀ p, p ∈ ifas'.map Ifa.net ↔ p ∈ desired) ↔ ∀ n, ExactIn ifas desired n := by
  constructor
  · rintro ⟨ifas', hrun, hexact⟩ n
    refine ⟨group n ifas', Keyed.here_foldlM kernelChange_local hrun n, ?_⟩
    rintro p rfl
    rw [mem_nets_group, hexact]
  · intro hexact
    obtain ⟨ifas', hrun⟩ := Keyed.foldlM_of_here kernelChange_local fun n =>
      let ⟨ifas', hin, _⟩ := hexact n
      ⟨ifas', hin⟩
    refine ⟨ifas', hrun, fun p => ?_⟩
    obtain ⟨_, hin, hmem⟩ := hexact p.masked
    have hhere := Keyed.here_foldlM kernelChange_local hrun p.masked
    obtain rfl := Option.some.inj (hhere.symm.trans hin)
    rw [← hmem p rfl, mem_nets_group]

end Replaceable

/-! ## The program on a link of the kernel -/

section Programs

variable {ifas ifas' : List Ifa} {ps : List Prefix}

theorem kernel_list (ifas : List Ifa) :
    kernelAnswer .list ifas = (.ok (ifas.map Ifa.addr), ifas) := rfl

theorem kernel_applyTunAddrChange {c : TunAddrChange} :
    eval kernelAnswer (applyTunAddrChange c) ifas = (.ok (), ifas') ↔
      kernelChange ifas c = some ifas' := by
  cases c with
  | tunAddrReplace p =>
    have heval : eval kernelAnswer (applyTunAddrChange (.tunAddrReplace p)) ifas =
        (.ok (), insertIfa ifas p) := rfl
    rw [heval, Prod.mk.injEq, kernelChange, Option.some.injEq]
    simp
  | tunAddrDelete addr =>
    rw [kernelChange]
    constructor
    · intro h
      obtain ⟨v, hanswer⟩ := eval_attempt_eq_ok h
      simp only [kernelAnswer] at hanswer
      split at hanswer
      · cases hanswer
      · rename_i mid hmid
        obtain rfl := (Prod.ext_iff.mp hanswer).2
        exact hmid
    · intro h
      have hanswer : kernelAnswer (.delete addr) ifas = (.ok (), ifas') := by
        simp only [kernelAnswer, h]
      exact eval_attempt_ok hanswer

variable {changes : List TunAddrChange}

theorem kernel_applyTunAddrChanges :
    eval kernelAnswer (applyTunAddrChanges changes) ifas = (.ok (), ifas') ↔
      changes.foldlM kernelChange ifas = some ifas' := by
  induction changes generalizing ifas with
  | nil =>
    have heval : eval kernelAnswer (applyTunAddrChanges []) ifas = (.ok (), ifas) := rfl
    rw [heval, Prod.mk.injEq, foldlM_nil]
    simp
  | cons c changes ih =>
    rw [foldlM_cons, Option.bind_eq_bind, Option.bind_eq_some_iff]
    constructor
    · intro h
      obtain ⟨_, mid, hc, hrest⟩ := eval_andThen_eq_ok h
      exact ⟨mid, kernel_applyTunAddrChange.mp hc, ih.mp hrest⟩
    · rintro ⟨mid, hc, hrest⟩
      exact (eval_andThen_ok (kernel_applyTunAddrChange.mpr hc)).trans (ih.mpr hrest)

theorem verifyPrefix_ifas {E : Type} (h : Grouped ifas) {p : Prefix}
    (hon : p ∈ ifas.map Ifa.net) : verifyPrefix (E := E) (ifas.map Ifa.addr) p = none := by
  obtain ⟨a, ha, rfl⟩ := mem_map.mp hon
  refine verifyPrefix_of_ready h.wellKept (mem_map_of_mem ha) rfl fun h6 => ?_
  have h4 := (h.ipv4 a ha).2
  cases haddr : a.net.addr with
  | v4 ip => simp [Ifa.addr, haddr, Addr.is6] at h6
  | _ => simp [haddr, Addr.is4] at h4

theorem Grouped.foldlM (h : Grouped ifas)
    (hadd : ∀ p, .tunAddrReplace p ∈ changes → p.isValid = true ∧ p.addr.is4 = true)
    (hrun : changes.foldlM kernelChange ifas = some ifas') : Grouped ifas' := by
  induction changes generalizing ifas with
  | nil =>
    obtain rfl : ifas = ifas' := Option.some.inj hrun
    exact h
  | cons c changes ih =>
    rw [foldlM_cons] at hrun
    obtain ⟨mid, hmid, hrest⟩ := Option.bind_eq_some_iff.mp hrun
    refine ih ?_ (fun p hp => hadd p (mem_cons_of_mem c hp)) hrest
    cases c with
    | tunAddrReplace p =>
      obtain rfl := Option.some.inj hmid
      obtain ⟨hvalid, h4⟩ := hadd p mem_cons_self
      exact h.insertIfa hvalid h4
    | tunAddrDelete b => exact h.removeIfa hmid

/-- `SetTunAddrs` on the IPv4 addresses of a link returns nil and leaves exactly what it was given
    if and only if no deletion takes a wanted address, or one that is still to be deleted, along. -/
theorem setTunAddrPrefixes_exact_iff (h : Reachable ifas) (hone : OneLength ps)
    (hps : ∀ p ∈ ps, p.isValid = true ∧ p.addr.is4 = true) :
    (∃ ifas', eval kernelAnswer (setTunAddrPrefixes ps) ifas = (.ok (), ifas') ∧
      ∀ p, p ∈ ifas'.map Ifa.net ↔ p ∈ ps) ↔ Replaceable ifas ps := by
  have hgrouped := h.grouped
  have hnormalize : normalizeTunAddrPrefixSet ps = .ok (ps.foldl appendNew []) :=
    normalizeTunAddrPrefixSet_eq_ok.mpr ⟨fun p hp => (hps p hp).1, hone, rfl⟩
  obtain ⟨hdesired, hnodup, hmem⟩ := normalizeTunAddrPrefixSet_normal hnormalize
  have hwanted : ∀ p ∈ ps.foldl appendNew [], p.isValid = true ∧ p.addr.is4 = true :=
    fun p hp => hps p ((hmem p).mp hp)
  have hplan := plan_ipv4 hgrouped hdesired hnodup fun p hp => (hwanted p hp).2
  rw [← replaceable_foldl_appendNew,
    ← exactIn_all_iff hgrouped (fun p hp => (hwanted p hp).1) hnodup, ← exact_iff]
  refine exists_congr fun ifas' => ?_
  simp only [hmem]
  refine and_congr_left fun hexact => ?_
  rw [eval_setTunAddrPrefixes kernel_list hnormalize hplan, kernel_applyTunAddrChanges]
  refine and_iff_left_of_imp fun hrun p hp => ?_
  -- The link that a run leaves is a link of the kernel again.
  have hgrouped' : Grouped ifas' := hgrouped.foldlM (fun q hq =>
    hwanted q ((replace_mem_ipv4Plan hgrouped).mp hq).1) hrun
  exact verifyPrefix_ifas hgrouped' ((hexact p).mpr ((hmem p).mp hp))

end Programs

/-- `10.0.0.1/24`, `10.0.0.2/24` and `10.0.0.2/16`. -/
def firstHost : Prefix := .ofV4 0x0a000001#32 24

def secondHost : Prefix := .ofV4 0x0a000002#32 24

def wideHost : Prefix := .ofV4 0x0a000002#32 16

/-- The second address is a secondary of the first, and it gets another length. -/
theorem setTunAddrPrefixes_exact_sample :
    ∃ ifas', eval kernelAnswer (setTunAddrPrefixes [firstHost, wideHost])
        [⟨firstHost, false⟩, ⟨secondHost, true⟩] = (.ok (), ifas') ∧
      ∀ p, p ∈ ifas'.map Ifa.net ↔ p ∈ [firstHost, wideHost] := by
  have hfirst : Reachable (insertIfa [] firstHost) := .add .empty rfl rfl
  have hreachable : Reachable (insertIfa (insertIfa [] firstHost) secondHost) := .add hfirst rfl rfl
  exact (setTunAddrPrefixes_exact_iff hreachable (by unfold OneLength; decide) (by decide)).mpr
    (by decide)

/-- One address in the place of another one of the same network: the deletion of the old
    one takes the new one along. -/
theorem replaced_primary_takes_along :
    Reachable [⟨firstHost, false⟩] ∧ OneLength [secondHost] ∧
      (∀ p ∈ [secondHost], p.isValid = true ∧ p.addr.is4 = true) ∧
      (eval kernelAnswer (setTunAddrPrefixes [secondHost]) [⟨firstHost, false⟩]).2 = [] ∧
      ¬ ∃ ifas', eval kernelAnswer (setTunAddrPrefixes [secondHost]) [⟨firstHost, false⟩] =
          (.ok (), ifas') ∧ ∀ p, p ∈ ifas'.map Ifa.net ↔ p ∈ [secondHost] := by
  have hreachable : Reachable (insertIfa [] firstHost) := .add .empty rfl rfl
  refine ⟨hreachable, by unfold OneLength; decide, by decide, by decide +kernel, ?_⟩
  rintro ⟨ifas', hrun, hexact⟩
  have hleft : (eval kernelAnswer (setTunAddrPrefixes [secondHost]) [⟨firstHost, false⟩]).2 = [] := by
    decide +kernel
  rw [hrun] at hleft
  obtain rfl : ifas' = [] := hleft
  exact absurd ((hexact secondHost).mpr (by decide)) (by simp)

end SysnetLinux.TunAddress
