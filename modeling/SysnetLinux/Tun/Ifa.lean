/-
  SysnetLinux.Tun.Ifa

  The IPv4 addresses of a link in the Linux kernel.

  The kernel keeps the IPv4 addresses of one network together: the first of them is
  primary, those that come later are its secondaries, and with the default of
  `promote_secondaries` a primary that is deleted takes its secondaries along.  A change
  acts on the addresses of one network only (`kernelChange_local`), so a plan is followed
  network by network.
-/

import SysnetLinux.Tun.Plan

namespace SysnetLinux.TunAddress

open Netip DefaultTun CallProg CallProg.Prog List

/-! ## Addresses of a link in the kernel -/

/-- An IPv4 address of a link. -/
structure Ifa where
  net : Prefix
  secondary : Bool
  deriving DecidableEq

/-- The masked network with its length. -/
def Ifa.network (a : Ifa) : Prefix := a.net.masked

/-- The address as netlink lists it. -/
def Ifa.addr (a : Ifa) : NlAddr := ⟨a.net, false, false, false⟩

/-- An address becomes a secondary of the primary of its network, if there is one. -/
def insertIfa (ifas : List Ifa) (p : Prefix) : List Ifa :=
  if p ∈ ifas.map Ifa.net then ifas
  else ifas ++ [⟨p, ifas.any fun a => !a.secondary && a.network == p.masked⟩]

/-- A primary takes its secondaries along. -/
def removeIfa (ifas : List Ifa) (p : Prefix) : Option (List Ifa) :=
  match ifas.find? fun a => a.net == p with
  | none => none
  | some a =>
    if a.secondary then some (ifas.filter fun b => b.net != p)
    else some (ifas.filter fun b => b.net != p && !(b.secondary && b.network == p.masked))

/-- The IPv4 addresses that a link can have. -/
inductive Reachable : List Ifa → Prop
  | empty : Reachable []
  | add {ifas : List Ifa} {p : Prefix} (h : Reachable ifas) (hvalid : p.isValid = true)
      (h4 : p.addr.is4 = true) : Reachable (insertIfa ifas p)
  | delete {ifas ifas' : List Ifa} {p : Prefix} (h : Reachable ifas)
      (hdelete : removeIfa ifas p = some ifas') : Reachable ifas'

/-- The link answers the calls of the package. -/
def kernelAnswer : (c : AddrCall) → List Ifa → Except String (AddrReply c) × List Ifa
  | .list, ifas => (.ok (ifas.map Ifa.addr), ifas)
  | .replace addr, ifas => (.ok (), insertIfa ifas addr.net)
  | .delete addr, ifas =>
    match removeIfa ifas addr.net with
    | none => (.error "cannot assign requested address", ifas)
    | some ifas' => (.ok (), ifas')

/-! ## Changes act network by network -/

/-- The network that a change is about. -/
def TunAddrChange.network : TunAddrChange → Prefix
  | .tunAddrReplace p => p.masked
  | .tunAddrDelete addr => addr.net.masked

/-- What a change does to the addresses of a link. -/
def kernelChange (ifas : List Ifa) : TunAddrChange → Option (List Ifa)
  | .tunAddrReplace p => some (insertIfa ifas p)
  | .tunAddrDelete addr => removeIfa ifas addr.net

/-- The addresses of one network. -/
abbrev group (n : Prefix) (ifas : List Ifa) : List Ifa := Keyed.here Ifa.network n ifas

variable {n p : Prefix} {ifas ifas' : List Ifa} {ops : List TunAddrChange}

theorem mem_group {a : Ifa} : a ∈ group n ifas ↔ a ∈ ifas ∧ a.network = n := Keyed.mem_here

theorem group_append (n : Prefix) (ifas ifas' : List Ifa) :
    group n (ifas ++ ifas') = group n ifas ++ group n ifas' := Keyed.here_append ..

theorem group_filter (n : Prefix) (q : Ifa → Bool) (ifas : List Ifa) :
    group n (ifas.filter q) = (group n ifas).filter q := Keyed.here_filter ..

theorem mem_nets_group (p : Prefix) :
    p ∈ (group p.masked ifas).map Ifa.net ↔ p ∈ ifas.map Ifa.net := by
  rw [mem_map, mem_map]
  constructor
  · rintro ⟨a, ha, rfl⟩
    exact ⟨a, (mem_group.mp ha).1, rfl⟩
  · rintro ⟨a, ha, rfl⟩
    exact ⟨a, mem_group.mpr ⟨ha, rfl⟩, rfl⟩

theorem any_primary_group (ifas : List Ifa) (n : Prefix) :
    ((group n ifas).any fun a => !a.secondary && a.network == n) =
      ifas.any fun a => !a.secondary && a.network == n := by
  rw [Bool.eq_iff_iff, any_eq_true, any_eq_true]
  constructor
  · rintro ⟨a, ha, hcond⟩
    exact ⟨a, (mem_group.mp ha).1, hcond⟩
  · rintro ⟨a, ha, hcond⟩
    have hnetwork : a.network = n := by
      rw [Bool.and_eq_true] at hcond
      exact eq_of_beq hcond.2
    exact ⟨a, mem_group.mpr ⟨ha, hnetwork⟩, hcond⟩

theorem group_insertIfa (ifas : List Ifa) (p : Prefix) :
    group p.masked (insertIfa ifas p) = insertIfa (group p.masked ifas) p := by
  unfold insertIfa
  rw [any_primary_group]
  by_cases hon : p ∈ ifas.map Ifa.net
  · rw [if_pos hon, if_pos ((mem_nets_group p).mpr hon)]
  · rw [if_neg hon, if_neg fun h => hon ((mem_nets_group p).mp h), group_append]
    congr 1
    simp [Keyed.here, Ifa.network]

theorem group_insertIfa_ne (ifas : List Ifa) (h : p.masked ≠ n) :
    group n (insertIfa ifas p) = group n ifas := by
  unfold insertIfa
  split
  · rfl
  · rw [group_append]
    have hnil : group n [⟨p, ifas.any fun a => !a.secondary && a.network == p.masked⟩] = [] :=
      Keyed.here_eq_nil (by simpa [Ifa.network] using h)
    rw [hnil, append_nil]

theorem find_group (ifas : List Ifa) (p : Prefix) :
    ((group p.masked ifas).find? fun a => a.net == p) = ifas.find? fun a => a.net == p := by
  unfold group Keyed.here
  rw [find?_filter]
  congr 1
  funext a
  by_cases h : a.net = p
  · simp [h, Ifa.network]
  · simp [h]

theorem group_removeIfa (ifas : List Ifa) (p : Prefix) :
    removeIfa (group p.masked ifas) p = (removeIfa ifas p).map (group p.masked) := by
  unfold removeIfa
  rw [find_group]
  split
  · rfl
  · split
    · rw [Option.map_some, group_filter]
    · rw [Option.map_some, group_filter]

theorem group_removeIfa_ne (h : removeIfa ifas p = some ifas') (hne : p.masked ≠ n) :
    group n ifas' = group n ifas := by
  have hnet : ∀ a ∈ group n ifas, a.net ≠ p := fun a ha heq =>
    hne (heq ▸ (mem_group.mp ha).2)
  have hnetwork : ∀ a ∈ group n ifas, a.network ≠ p.masked := fun a ha heq =>
    hne (heq.symm.trans (mem_group.mp ha).2)
  unfold removeIfa at h
  split at h
  · cases h
  · split at h
    · obtain rfl := Option.some.inj h
      rw [group_filter]
      exact filter_eq_self.mpr fun a ha => by simpa using hnet a ha
    · obtain rfl := Option.some.inj h
      rw [group_filter]
      exact filter_eq_self.mpr fun a ha => by simp [hnet a ha, hnetwork a ha]

theorem kernelChange_local : Keyed.LocalOption Ifa.network TunAddrChange.network kernelChange where
  own ifas c := by
    cases c with
    | tunAddrReplace p => exact congrArg some (group_insertIfa ifas p).symm
    | tunAddrDelete addr => exact group_removeIfa ifas addr.net
  others {ifas ifas'} {c} {n} h hne := by
    cases c with
    | tunAddrReplace p =>
      obtain rfl := Option.some.inj h
      exact group_insertIfa_ne ifas hne
    | tunAddrDelete addr => exact group_removeIfa_ne h hne

/-! ## Groups -/

/-- The addresses of one network: none, or a primary and then its secondaries. -/
def Led : List Ifa → Prop
  | [] => True
  | x :: secondaries => x.secondary = false ∧ ∀ y ∈ secondaries, y.secondary = true

/-- The addresses of a link: IPv4 prefixes, each of them once, and one primary for each
    network, which is its first address. -/
structure Grouped (ifas : List Ifa) : Prop where
  ipv4 : ∀ a ∈ ifas, a.net.isValid = true ∧ a.net.addr.is4 = true
  distinct : (ifas.map Ifa.net).Nodup
  led : ∀ n, Led (group n ifas)

theorem insertIfa_led (h : Led ifas) (hnetwork : ∀ a ∈ ifas, a.network = p.masked) :
    Led (insertIfa ifas p) := by
  unfold insertIfa
  split
  · exact h
  · cases ifas with
    | nil => exact ⟨rfl, by simp⟩
    | cons x secondaries =>
      refine ⟨h.1, fun y hy => ?_⟩
      rcases mem_append.mp hy with hy | hy
      · exact h.2 y hy
      · obtain rfl := mem_singleton.mp hy
        simp [h.1, hnetwork x mem_cons_self]

theorem Led.filter (h : Led ifas) {q : Ifa → Bool}
    (hprimary : ∀ x ∈ ifas, x.secondary = false → q x = true) : Led (ifas.filter q) := by
  cases ifas with
  | nil => trivial
  | cons x secondaries =>
    rw [filter_cons_of_pos (hprimary x mem_cons_self h.1)]
    exact ⟨h.1, fun y hy => h.2 y (mem_filter.mp hy).1⟩

theorem Led.eq_primary {x y : Ifa} {secondaries : List Ifa} (h : Led (x :: secondaries))
    (hy : y ∈ x :: secondaries) (hprimary : y.secondary = false) : y = x := by
  rcases mem_cons.mp hy with rfl | hmem
  · rfl
  · rw [h.2 y hmem] at hprimary
    cases hprimary

theorem removeIfa_some (h : removeIfa ifas p = some ifas') : p ∈ ifas.map Ifa.net := by
  unfold removeIfa at h
  split at h
  · cases h
  · rename_i a ha
    have hnet : a.net = p := by simpa using find?_some ha
    exact hnet ▸ mem_map_of_mem (mem_of_find?_eq_some ha)

section Remove

variable {ifas : List Ifa} {x : Ifa}

theorem find_net (hdistinct : (ifas.map Ifa.net).Nodup) (hx : x ∈ ifas) :
    (ifas.find? fun a => a.net == x.net) = some x := by
  cases hfind : ifas.find? fun a => a.net == x.net with
  | none => exact absurd (find?_eq_none.mp hfind x hx) (by simp)
  | some a =>
    have hmem := mem_of_find?_eq_some hfind
    have hnet : a.net = x.net := by simpa using find?_some hfind
    rw [inj_on_of_nodup_map hdistinct hmem hx hnet]

theorem removeIfa_secondary (hdistinct : (ifas.map Ifa.net).Nodup) (hx : x ∈ ifas)
    (hsecondary : x.secondary = true) :
    removeIfa ifas x.net = some (ifas.filter fun b => b.net != x.net) := by
  rw [removeIfa, find_net hdistinct hx]
  simp only
  rw [if_pos hsecondary]

/-- A primary is deleted with its whole network. -/
theorem removeIfa_primary {secondaries : List Ifa} (h : Led (x :: secondaries))
    (hnetwork : ∀ a ∈ secondaries, a.network = x.network) :
    removeIfa (x :: secondaries) x.net = some [] := by
  rw [removeIfa, find?_cons_of_pos (by simp)]
  simp only
  rw [if_neg (by simp [h.1])]
  congr 1
  refine filter_eq_nil_iff.mpr fun b hb => ?_
  rcases mem_cons.mp hb with rfl | hb
  · simp
  · have hmasked : b.network = x.net.masked := hnetwork b hb
    simp [h.2 b hb, hmasked]

end Remove

theorem removeIfa_led (h : Led ifas) (hdistinct : (ifas.map Ifa.net).Nodup)
    (hnetwork : ∀ a ∈ ifas, a.network = p.masked) (hremove : removeIfa ifas p = some ifas') :
    Led ifas' := by
  obtain ⟨x, hx, rfl⟩ := mem_map.mp (removeIfa_some hremove)
  cases hsecondary : x.secondary with
  | true =>
    rw [removeIfa_secondary hdistinct hx hsecondary] at hremove
    obtain rfl := Option.some.inj hremove
    refine h.filter fun y hy hprimary => ?_
    have hne : y.net ≠ x.net := by
      intro heq
      rw [inj_on_of_nodup_map hdistinct hy hx heq, hsecondary] at hprimary
      cases hprimary
    simpa using hne
  | false =>
    cases ifas with
    | nil => cases hx
    | cons y secondaries =>
      obtain rfl := h.eq_primary hx hsecondary
      have hrest : ∀ a ∈ secondaries, a.network = x.network := fun a ha =>
        hnetwork a (mem_cons_of_mem x ha)
      rw [removeIfa_primary h hrest] at hremove
      obtain rfl := Option.some.inj hremove
      trivial

theorem removeIfa_sublist (h : removeIfa ifas p = some ifas') : ifas'.Sublist ifas := by
  unfold removeIfa at h
  split at h
  · cases h
  · split at h
    · obtain rfl := Option.some.inj h
      exact filter_sublist
    · obtain rfl := Option.some.inj h
      exact filter_sublist

theorem Grouped.insertIfa (h : Grouped ifas) (hvalid : p.isValid = true) (h4 : p.addr.is4 = true) :
    Grouped (insertIfa ifas p) := by
  refine ⟨?_, ?_, fun n => ?_⟩
  · intro a ha
    unfold TunAddress.insertIfa at ha
    split at ha
    · exact h.ipv4 a ha
    · rcases mem_append.mp ha with ha | ha
      · exact h.ipv4 a ha
      · obtain rfl := mem_singleton.mp ha
        exact ⟨hvalid, h4⟩
  · unfold TunAddress.insertIfa
    split
    · exact h.distinct
    · rename_i hoff
      rw [map_append, nodup_append]
      refine ⟨h.distinct, by simp, ?_⟩
      intro q hq r hr heq
      obtain rfl : r = p := by simpa using hr
      exact hoff (heq ▸ hq)
  · by_cases hn : p.masked = n
    · subst hn
      rw [group_insertIfa]
      exact insertIfa_led (h.led _) fun a ha => (mem_group.mp ha).2
    · rw [group_insertIfa_ne ifas hn]
      exact h.led n

theorem Grouped.removeIfa (h : Grouped ifas) (hremove : removeIfa ifas p = some ifas') :
    Grouped ifas' := by
  have hsub := removeIfa_sublist hremove
  refine ⟨fun a ha => h.ipv4 a (hsub.subset ha), h.distinct.sublist (hsub.map _), fun n => ?_⟩
  by_cases hn : p.masked = n
  · subst hn
    have hown := group_removeIfa ifas p
    rw [hremove, Option.map_some] at hown
    have hdistinct : ((group p.masked ifas).map Ifa.net).Nodup :=
      h.distinct.sublist (filter_sublist.map _)
    exact removeIfa_led (h.led _) hdistinct (fun a ha => (mem_group.mp ha).2) hown
  · rw [group_removeIfa_ne hremove hn]
    exact h.led n

theorem Reachable.grouped (h : Reachable ifas) : Grouped ifas := by
  induction h with
  | empty => exact ⟨by simp, nodup_nil, fun n => trivial⟩
  | add _ hvalid h4 ih => exact ih.insertIfa hvalid h4
  | delete _ hdelete ih => exact ih.removeIfa hdelete

/-! ## Runs in one network -/

theorem mem_nets_insertIfa {q : Prefix} :
    q ∈ (insertIfa ifas p).map Ifa.net ↔ q ∈ ifas.map Ifa.net ∨ q = p := by
  unfold insertIfa
  split
  · rename_i hon
    constructor
    · exact .inl
    · rintro (hq | rfl)
      · exact hq
      · exact hon
  · rw [map_append, mem_append, map_singleton, mem_singleton]

theorem run_additions (h : ∀ b, .tunAddrDelete b ∉ ops) (ifas : List Ifa) :
    ∃ ifas', ops.foldlM kernelChange ifas = some ifas' ∧
      ∀ p, p ∈ ifas'.map Ifa.net ↔ p ∈ ifas.map Ifa.net ∨ .tunAddrReplace p ∈ ops := by
  induction ops generalizing ifas with
  | nil => exact ⟨ifas, rfl, fun p => by simp⟩
  | cons c ops ih =>
    cases c with
    | tunAddrDelete b => exact absurd mem_cons_self (h b)
    | tunAddrReplace q =>
      obtain ⟨ifas', hrun, hmem⟩ :=
        ih (fun b hb => h b (mem_cons_of_mem _ hb)) (insertIfa ifas q)
      refine ⟨ifas', hrun, fun p => ?_⟩
      rw [hmem, mem_nets_insertIfa, mem_cons, TunAddrChange.tunAddrReplace.injEq, or_assoc]

/-- What is on the link was there or has been added. -/
theorem run_nets (h : ops.foldlM kernelChange ifas = some ifas') (hp : p ∈ ifas'.map Ifa.net) :
    p ∈ ifas.map Ifa.net ∨ .tunAddrReplace p ∈ ops := by
  induction ops generalizing ifas with
  | nil =>
    obtain rfl : ifas = ifas' := Option.some.inj h
    exact .inl hp
  | cons c ops ih =>
    rw [foldlM_cons] at h
    obtain ⟨mid, hmid, hrest⟩ := Option.bind_eq_some_iff.mp h
    rcases ih hrest with hon | hadd
    · cases c with
      | tunAddrReplace q =>
        obtain rfl := Option.some.inj hmid
        rcases mem_nets_insertIfa.mp hon with hon | rfl
        · exact .inl hon
        · exact .inr mem_cons_self
      | tunAddrDelete b => exact .inl (((removeIfa_sublist hmid).map Ifa.net).subset hon)
    · exact .inr (mem_cons_of_mem c hadd)

/-- A deletion fails where its address is not on the link and is not added. -/
theorem run_missing {b : NlAddr} (hdelete : .tunAddrDelete b ∈ ops)
    (hadd : .tunAddrReplace b.net ∉ ops) (hoff : b.net ∉ ifas.map Ifa.net) :
    ops.foldlM kernelChange ifas = none := by
  induction ops generalizing ifas with
  | nil => cases hdelete
  | cons c ops ih =>
    rw [foldlM_cons]
    cases hc : kernelChange ifas c with
    | none => rfl
    | some mid =>
      have hrest : .tunAddrDelete b ∈ ops := by
        rcases mem_cons.mp hdelete with rfl | hrest
        · exact absurd (removeIfa_some hc) hoff
        · exact hrest
      refine ih hrest (fun hmem => hadd (mem_cons_of_mem c hmem)) ?_
      cases c with
      | tunAddrReplace q =>
        obtain rfl := Option.some.inj hc
        rw [mem_nets_insertIfa]
        rintro (hon | rfl)
        · exact hoff hon
        · exact hadd mem_cons_self
      | tunAddrDelete b' =>
        exact fun hon => hoff (((removeIfa_sublist hc).map Ifa.net).subset hon)

/-- A network with its primary. -/
structure Headed (n : Prefix) (x : Ifa) (secondaries : List Ifa) : Prop where
  led : Led (x :: secondaries)
  distinct : ((x :: secondaries).map Ifa.net).Nodup
  network : ∀ y ∈ x :: secondaries, y.network = n

section Headed

variable {n : Prefix} {x : Ifa} {secondaries : List Ifa}

theorem Headed.insertIfa (h : Headed n x secondaries) {p : Prefix} (hn : p.masked = n)
    (hnew : p ∉ (x :: secondaries).map Ifa.net) :
    insertIfa (x :: secondaries) p = x :: (secondaries ++ [⟨p, true⟩]) ∧
      Headed n x (secondaries ++ [⟨p, true⟩]) := by
  have hhead := h.network x mem_cons_self
  have hany : ((x :: secondaries).any fun a => !a.secondary && a.network == p.masked) = true := by
    simp [h.led.1, hhead, hn]
  refine ⟨by rw [TunAddress.insertIfa, if_neg hnew, hany]; rfl, ?_, ?_, ?_⟩
  · refine ⟨h.led.1, fun y hy => ?_⟩
    rcases mem_append.mp hy with hy | hy
    · exact h.led.2 y hy
    · obtain rfl := mem_singleton.mp hy
      rfl
  · rw [← cons_append, map_append, nodup_append]
    refine ⟨h.distinct, by simp, ?_⟩
    intro q hq r hr heq
    obtain rfl : r = p := by simpa using hr
    exact hnew (heq ▸ hq)
  · intro y hy
    rw [← cons_append] at hy
    rcases mem_append.mp hy with hy | hy
    · exact h.network y hy
    · obtain rfl := mem_singleton.mp hy
      exact hn

theorem Headed.removeIfa (h : Headed n x secondaries) {y : Ifa} (hy : y ∈ secondaries) :
    removeIfa (x :: secondaries) y.net = some (x :: secondaries.filter fun b => b.net != y.net) ∧
      Headed n x (secondaries.filter fun b => b.net != y.net) := by
  have hne : x.net ≠ y.net := by
    intro heq
    have hnot := (nodup_cons.mp h.distinct).1
    exact hnot (heq ▸ mem_map_of_mem hy)
  have hsub : (x :: secondaries.filter fun b => b.net != y.net).Sublist (x :: secondaries) :=
    filter_sublist.cons_cons x
  have hremove := removeIfa_secondary h.distinct (mem_cons_of_mem x hy) (h.led.2 y hy)
  rw [filter_cons_of_pos (by simpa using hne)] at hremove
  refine ⟨hremove, ⟨h.led.1, fun z hz => h.led.2 z (mem_filter.mp hz).1⟩, ?_, ?_⟩
  · exact h.distinct.sublist (hsub.map _)
  · exact fun z hz => h.network z (hsub.subset hz)

/-- Additions and deletions of secondaries succeed and leave the primary in place. -/
theorem run_secondaries {ops : List TunAddrChange} (h : Headed n x secondaries)
    (hops : ops.Nodup) (hn : ∀ c ∈ ops, c.network = n)
    (hadd : ∀ p, .tunAddrReplace p ∈ ops → p ∉ (x :: secondaries).map Ifa.net)
    (hdelete : ∀ b, .tunAddrDelete b ∈ ops → ∃ y ∈ secondaries, y.addr = b) :
    ∃ secondaries', ops.foldlM kernelChange (x :: secondaries) = some (x :: secondaries') ∧
      Headed n x secondaries' ∧ ∀ p, p ∈ secondaries'.map Ifa.net ↔
        (∃ y ∈ secondaries, y.net = p ∧ .tunAddrDelete y.addr ∉ ops) ∨ .tunAddrReplace p ∈ ops := by
  induction ops generalizing secondaries with
  | nil => exact ⟨secondaries, rfl, h, fun p => by simp⟩
  | cons c ops ih =>
    obtain ⟨hnot, hnodup⟩ := nodup_cons.mp hops
    have hn' : ∀ d ∈ ops, d.network = n := fun d hd => hn d (mem_cons_of_mem c hd)
    cases c with
    | tunAddrReplace q =>
      have hnew := hadd q mem_cons_self
      obtain ⟨hinsert, hheaded⟩ := h.insertIfa (hn _ mem_cons_self) hnew
      obtain ⟨secondaries', hrun, hheaded', hmem⟩ := ih hheaded hnodup hn' (by
        intro p hp hon
        rw [← cons_append, map_append, mem_append] at hon
        rcases hon with hon | hon
        · exact hadd p (mem_cons_of_mem _ hp) hon
        · obtain rfl : p = q := by simpa using hon
          exact hnot hp) (by
        intro b hb
        obtain ⟨y, hy, haddr⟩ := hdelete b (mem_cons_of_mem _ hb)
        exact ⟨y, mem_append_left _ hy, haddr⟩)
      refine ⟨secondaries', ?_, hheaded', fun p => ?_⟩
      · rw [foldlM_cons, kernelChange, hinsert]
        exact hrun
      · rw [hmem]
        constructor
        · rintro (⟨y, hy, rfl, hkept⟩ | hp)
          · rcases mem_append.mp hy with hy | hy
            · exact .inl ⟨y, hy, rfl, by simpa using hkept⟩
            · obtain rfl := mem_singleton.mp hy
              exact .inr mem_cons_self
          · exact .inr (mem_cons_of_mem _ hp)
        · rintro (⟨y, hy, rfl, hkept⟩ | hp)
          · exact .inl ⟨y, mem_append_left _ hy, rfl, fun hmem =>
              hkept (mem_cons_of_mem _ hmem)⟩
          · rcases mem_cons.mp hp with heq | hp
            · obtain rfl := TunAddrChange.tunAddrReplace.inj heq
              refine .inl ⟨⟨p, true⟩, by simp, rfl, fun hdel => ?_⟩
              -- What is added was not on the link, so no change deletes it.
              obtain ⟨y, hy, haddr⟩ := hdelete _ (mem_cons_of_mem _ hdel)
              have hnet : y.net = p := congrArg NlAddr.net haddr
              exact hnew (hnet ▸ mem_map_of_mem (mem_cons_of_mem x hy))
            · exact .inr hp
    | tunAddrDelete b =>
      obtain ⟨y, hy, rfl⟩ := hdelete b mem_cons_self
      obtain ⟨hremove, hheaded⟩ := h.removeIfa hy
      have hother : ∀ z ∈ secondaries, z ≠ y → z ∈ secondaries.filter fun b => b.net != y.net := by
        intro z hz hne
        refine mem_filter.mpr ⟨hz, ?_⟩
        have hdistinct := (nodup_cons.mp h.distinct).2
        simpa using fun heq => hne (inj_on_of_nodup_map hdistinct hz hy heq)
      obtain ⟨secondaries', hrun, hheaded', hmem⟩ := ih hheaded hnodup hn' (by
        intro p hp hon
        have hsub : (x :: secondaries.filter fun b => b.net != y.net).Sublist
            (x :: secondaries) := filter_sublist.cons_cons x
        exact hadd p (mem_cons_of_mem _ hp) ((hsub.map Ifa.net).subset hon)) (by
        intro b hb
        obtain ⟨z, hz, rfl⟩ := hdelete b (mem_cons_of_mem _ hb)
        exact ⟨z, hother z hz fun heq => hnot (heq ▸ hb), rfl⟩)
      refine ⟨secondaries', ?_, hheaded', fun p => ?_⟩
      · rw [foldlM_cons, kernelChange]
        have hnet : y.addr.net = y.net := rfl
        rw [hnet, hremove]
        exact hrun
      · rw [hmem]
        constructor
        · rintro (⟨z, hz, rfl, hkept⟩ | hp)
          · obtain ⟨hz, hne⟩ := mem_filter.mp hz
            refine .inl ⟨z, hz, rfl, fun hmem => ?_⟩
            rcases mem_cons.mp hmem with heq | hmem
            · have hnet : z.net = y.net :=
                congrArg NlAddr.net (TunAddrChange.tunAddrDelete.inj heq)
              simp [hnet] at hne
            · exact hkept hmem
          · exact .inr (mem_cons_of_mem _ hp)
        · rintro (⟨z, hz, rfl, hkept⟩ | hp)
          · refine .inl ⟨z, hother z hz fun heq => ?_, rfl, fun hmem =>
              hkept (mem_cons_of_mem _ hmem)⟩
            exact hkept (heq ▸ mem_cons_self)
          · rcases mem_cons.mp hp with heq | hp
            · cases heq
            · exact .inr hp

end Headed

end SysnetLinux.TunAddress
