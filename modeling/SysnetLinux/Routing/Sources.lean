/-
  SysnetLinux.Routing.Sources

  Source selection of the VPN table.

  `validate` accepts source routes that are masked, of a family the TUN carries and pairwise
  different in their destination (`validateSourceRoutes_iff`).  The VPN table then holds, for each
  default destination and each destination of a source route, one route through the TUN with the
  source chosen for it (`mem_vpnRoutes_iff`).
-/

import Mathlib.Data.List.MinMax
import SysnetLinux.Lib.Compare
import SysnetLinux.Lib.LastMatch
import SysnetLinux.Netip.Blocks
import SysnetLinux.Routing.Compiler

namespace SysnetLinux

open List

namespace Netip

variable {α : Type} {dst : α → Prefix} {table : List α} {a : Addr} {x y : α}

/-- An entry of a table that holds the address and has the longest prefix among those. -/
structure LongestMatch (dst : α → Prefix) (table : List α) (a : Addr) (x : α) : Prop where
  mem : x ∈ table
  holds : (dst x).contains a = true
  longest : ∀ y ∈ table, (dst y).contains a = true → (dst y).bits ≤ (dst x).bits

theorem exists_longestMatch (hx : x ∈ table) (h : (dst x).contains a = true) :
    ∃ best, LongestMatch dst table a best := by
  have hmem : x ∈ table.filter fun y => (dst y).contains a := mem_filter.mpr ⟨hx, h⟩
  obtain ⟨best, hbest⟩ : ∃ best,
      (table.filter fun y => (dst y).contains a).argmax (fun y => (dst y).bits) = some best := by
    rw [← Option.ne_none_iff_exists', ne_eq, argmax_eq_none]
    exact ne_nil_of_mem hmem
  obtain ⟨hin, hholds⟩ := mem_filter.mp (argmax_mem hbest)
  have hle : ∀ y ∈ table.filter (fun y => (dst y).contains a), (dst y).bits ≤ (dst best).bits :=
    fun y hy => le_of_mem_argmax (f := fun y => (dst y).bits) hy hbest
  exact ⟨best, hin, hholds, fun y hy hya => hle y (mem_filter.mpr ⟨hy, hya⟩)⟩

/-- Masked prefixes of one length that hold one address are the same. -/
theorem Prefix.eq_of_bits_eq {p q : Prefix} (hp : p.contains a = true) (hq : q.contains a = true)
    (hpm : p = p.masked) (hqm : q = q.masked) (hbits : p.bits = q.bits) : p = q := by
  rw [hpm, hqm]
  refine Prefix.masked_eq_of_meet ?_ hp hq
  have hpv := Prefix.bits_eq_len (Prefix.isValid_of_contains hp)
  have hqv := Prefix.bits_eq_len (Prefix.isValid_of_contains hq)
  omega

end Netip

namespace Routing

open Netip

/-! ## Accepted source routes -/

/-- What `validate` checks of one source route. -/
structure SourceRoute.Accepted (tunnelFamilies : FamilySet) (route : SourceRoute) : Prop where
  valid : route.destination.isValid = true
  not_mapped : route.destination.addr.is4In6 = false
  masked : route.destination = route.destination.masked
  source : validPreferredSource route.source = true
  same_family : route.destination.addr.is4 = route.source.is4
  carried : familyEnabled tunnelFamilies (if route.source.is4 then afInet else afInet6) = true

theorem check_iff {p : Prop} [Decidable p] {e : ConfigError} {x : Except ConfigError Unit} :
    (if p then .error e else x) = .ok () ↔ ¬ p ∧ x = .ok () :=
  ⟨check_passed, fun h => check_passes h.1 h.2⟩

variable {families : FamilySet} {seen : List (Prefix × Addr)} {routes : List SourceRoute}
    {c : Config} {s : SourceRoute} {dst : Prefix}

theorem validateSourceRoutes_cons {i : Nat} {route : SourceRoute} :
    validateSourceRoutes families i seen (route :: routes) = .ok () ↔
      route.Accepted families ∧ seen.lookup route.destination = none ∧
        validateSourceRoutes families (i + 1)
          ((route.destination, route.source) :: seen) routes = .ok () := by
  rw [validateSourceRoutes, check_iff, check_iff, check_iff, check_iff, check_iff]
  simp only [Bool.or_eq_true, Bool.not_eq_true', not_or, Bool.not_eq_false, Bool.not_eq_true,
    ne_eq, not_not]
  constructor
  · rintro ⟨⟨hvalid, hmapped⟩, hmasked, hsource, hsame, hcarried, hrest⟩
    cases hlook : seen.lookup route.destination with
    | none =>
      rw [hlook] at hrest
      exact ⟨⟨hvalid, hmapped, hmasked, hsource, hsame, hcarried⟩, rfl, hrest⟩
    | some source =>
      simp only [hlook] at hrest
      split at hrest <;> cases hrest
  · rintro ⟨hok, hlook, hrest⟩
    rw [hlook]
    exact ⟨⟨hok.valid, hok.not_mapped⟩, hok.masked, hok.source, hok.same_family, hok.carried, hrest⟩

/-- The loop over the source routes accepts them one by one, each with a destination of its own. -/
theorem validateSourceRoutes_iff {i : Nat} : validateSourceRoutes families i seen routes = .ok () ↔
      (∀ route ∈ routes, route.Accepted families ∧ seen.lookup route.destination = none) ∧
        (routes.map SourceRoute.destination).Nodup := by
  induction routes generalizing i seen with
  | nil => simp [validateSourceRoutes]
  | cons route routes ih =>
    rw [validateSourceRoutes_cons, ih]
    simp only [forall_mem_cons, map_cons, nodup_cons, mem_map, not_exists, not_and, lookup_cons]
    constructor
    · rintro ⟨hok, hlook, hrest, hnodup⟩
      have hne : ∀ other ∈ routes, other.destination ≠ route.destination := by
        intro other hother heq
        have hfound := (hrest other hother).2
        simp [heq] at hfound
      refine ⟨⟨⟨hok, hlook⟩, fun other hother => ⟨(hrest other hother).1, ?_⟩⟩, hne, hnodup⟩
      have hfound := (hrest other hother).2
      rwa [beq_eq_false_iff_ne.mpr (hne other hother)] at hfound
    · rintro ⟨⟨⟨hok, hlook⟩, hrest⟩, hne, hnodup⟩
      refine ⟨hok, hlook, fun other hother => ⟨(hrest other hother).1, ?_⟩, hnodup⟩
      rw [beq_eq_false_iff_ne.mpr (hne other hother)]
      exact (hrest other hother).2

/-- The checks on the source routes come last and are the only ones that read them. -/
theorem Config.validate_sourceRoutes (routes : List SourceRoute) (h : c.validate = .ok ()) :
    ({ c with sourceRoutes := routes } : Config).validate =
      validateSourceRoutes (effectiveTunnelFamilies c) 0 [] routes := by
  unfold Config.validate at h
  simp only [check_iff] at h
  obtain ⟨h₁, h₂, h₃, h₄, h₅, h₆, h₇, h₈, h₉, h₁₀, h₁₁, h₁₂, h₁₃, h₁₄, -⟩ := h
  unfold Config.validate
  rw [if_neg h₁, if_neg h₂, if_neg h₃, if_neg h₄, if_neg h₅, if_neg h₆, if_neg h₇, if_neg h₈,
    if_neg h₉, if_neg h₁₀, if_neg h₁₁, if_neg h₁₂, if_neg h₁₃, if_neg h₁₄]
  rfl

/-- What an accepted config gives about its source routes. -/
structure Config.Sourced (c : Config) : Prop where
  accepted : ∀ route ∈ c.sourceRoutes, route.Accepted (effectiveTunnelFamilies c)
  distinct : (c.sourceRoutes.map SourceRoute.destination).Nodup

theorem Config.sourced_of_validate (h : c.validate = .ok ()) : c.Sourced := by
  have hroutes : validateSourceRoutes (effectiveTunnelFamilies c) 0 [] c.sourceRoutes = .ok () :=
    (c.validate_sourceRoutes c.sourceRoutes h).symm.trans h
  obtain ⟨hok, hnodup⟩ := validateSourceRoutes_iff.mp hroutes
  exact ⟨fun route hroute => (hok route hroute).1, hnodup⟩

/-- Acceptance does not depend on the order of the source routes. -/
theorem Config.validate_perm (h : c.validate = .ok ()) (hperm : routes.Perm c.sourceRoutes) :
    ({ c with sourceRoutes := routes } : Config).validate = .ok () := by
  rw [c.validate_sourceRoutes routes h, validateSourceRoutes_iff]
  obtain ⟨hok, hnodup⟩ := Config.sourced_of_validate h
  exact ⟨fun route hroute => ⟨hok route (hperm.mem_iff.mp hroute), rfl⟩,
    (hperm.map SourceRoute.destination).nodup_iff.mpr hnodup⟩

/-! ## The order of the source routes -/

instance : Std.TransCmp sourceRouteOrder := by
  have haddr := Compare.transCmp_on Addr.compare fun r : SourceRoute => r.destination.addr
  have hsource := Compare.transCmp_on Addr.compare fun r : SourceRoute => r.source
  exact inferInstanceAs (Std.TransCmp (compareLex
    (fun a b : SourceRoute => a.destination.addr.compare b.destination.addr)
    (compareLex (compareOn fun r : SourceRoute => r.destination.bits)
      (fun a b : SourceRoute => a.source.compare b.source))))

/-- The comparator tells any two source routes apart. -/
instance : Std.LawfulEqCmp sourceRouteOrder where
  eq_of_compare {a b} h := by
    simp only [sourceRouteOrder, Ordering.then_eq_eq, Std.LawfulEqCmp.compare_eq_iff_eq] at h
    obtain ⟨haddr, hbits, hsource⟩ := h
    obtain ⟨destination, source⟩ := a
    obtain ⟨destination', source'⟩ := b
    obtain rfl : destination = destination' := Prefix.eq_of_addr_bits haddr hbits
    obtain rfl : source = source' := hsource
    rfl

/-- Whatever sort the code uses, and whatever the order it starts from, the sorted source
    routes are these. -/
theorem sortSourceRoutes_unique {sorted : List SourceRoute} (hperm : sorted.Perm routes)
    (hsorted : sorted.Pairwise (Compare.NotAbove sourceRouteOrder)) :
    sorted = sortSourceRoutes routes :=
  Compare.sorted_unique hperm hsorted

/-! ## The source of a destination -/

/-- The source the config names for a destination; the zero address if it names none. -/
def Config.sourceFor (c : Config) (dst : Prefix) : Addr :=
  ((c.sourceRoutes.find? fun route => route.destination = dst).map SourceRoute.source).getD .zero

theorem Config.Sourced.sourceFor_destination (hc : c.Sourced) (hs : s ∈ c.sourceRoutes) :
    c.sourceFor s.destination = s.source := by
  obtain ⟨found, hfound⟩ : ∃ found,
      (c.sourceRoutes.find? fun route => route.destination = s.destination) = some found := by
    rw [← Option.isSome_iff_exists, find?_isSome]
    exact ⟨s, hs, by simp⟩
  have hdst : found.destination = s.destination := by
    simpa using find?_some hfound
  have heq : found = s :=
    inj_on_of_nodup_map hc.distinct (mem_of_find?_eq_some hfound) hs hdst
  rw [Config.sourceFor, hfound, heq]
  rfl

theorem Config.sourceFor_of_not_mem (h : ∀ s ∈ c.sourceRoutes, s.destination ≠ dst) :
    c.sourceFor dst = .zero := by
  have hnone : (c.sourceRoutes.find? fun route => route.destination = dst) = none := by
    rw [find?_eq_none]
    intro s hs
    simpa using h s hs
  rw [Config.sourceFor, hnone]
  rfl

variable {family : Int}

/-- The loop of the compiler ends with the last match; the accepted source routes have at
    most one. -/
theorem defaultRouteSource_of_mem (hnodup : (routes.map SourceRoute.destination).Nodup)
    (hs : s ∈ routes) (hfamily : sourceRouteFamily s = family)
    (hdst : s.destination = familyDefaultPrefix family) :
    defaultRouteSource family routes = s.source := by
  refine LastMatch.lastMatch_of_mem hs ⟨hfamily, hdst⟩ fun other hother hmatch => ?_
  rw [inj_on_of_nodup_map hnodup hother hs (hmatch.2.trans hdst.symm)]

theorem defaultRouteSource_of_not_mem
    (h : ∀ s ∈ routes, s.destination ≠ familyDefaultPrefix family) :
    defaultRouteSource family routes = .zero :=
  LastMatch.lastMatch_of_none fun s hs hmatch => h s hs hmatch.2

theorem familyEnabled_cases (h : familyEnabled families family = true) :
    family = afInet ∨ family = afInet6 := by
  simp only [familyEnabled, Bool.or_eq_true, Bool.and_eq_true, beq_iff_eq] at h
  exact h.imp And.left And.left

theorem sourceRouteFamily_of_default (hf : family = afInet ∨ family = afInet6)
    (h : s.destination = familyDefaultPrefix family) : sourceRouteFamily s = family := by
  rw [sourceRouteFamily, h]
  rcases hf with rfl | rfl <;> rfl

theorem Config.Sourced.defaultRouteSource_eq (hc : c.Sourced)
    (hf : family = afInet ∨ family = afInet6) :
    defaultRouteSource family c.sourceRoutes = c.sourceFor (familyDefaultPrefix family) := by
  by_cases h : ∃ s ∈ c.sourceRoutes, s.destination = familyDefaultPrefix family
  · obtain ⟨s, hs, hdst⟩ := h
    rw [defaultRouteSource_of_mem hc.distinct hs (sourceRouteFamily_of_default hf hdst) hdst,
      ← hdst, hc.sourceFor_destination hs]
  · have hnone : ∀ s ∈ c.sourceRoutes, s.destination ≠ familyDefaultPrefix family :=
      fun s hs hdst => h ⟨s, hs, hdst⟩
    rw [defaultRouteSource_of_not_mem hnone, Config.sourceFor_of_not_mem hnone]

/-! ## The VPN table -/

/-- The destinations of the VPN table in a tunnelled family. -/
def vpnDestinations (config : Config) (family : Int) : List Prefix :=
  familyDefaultPrefix family ::
    (sortSourceRoutes (specificSourceRoutes family config.sourceRoutes)).map
      SourceRoute.destination

section Table

variable {c : Config} (hc : c.Sourced)
include hc

/-- One route through the TUN for each destination, with the source of that destination. -/
theorem compileVPNRoutes_eq (hf : family = afInet ∨ family = afInet6) : compileVPNRoutes c family =
      (vpnDestinations c family).map fun dst => vpnRoute c family dst (c.sourceFor dst) := by
  rw [compileVPNRoutes, vpnDestinations, map_cons, map_map, hc.defaultRouteSource_eq hf]
  refine congrArg _ (map_congr_left fun s hs => ?_)
  have hmem : s ∈ c.sourceRoutes :=
    mem_of_mem_filter ((mem_insertionSort _).mp hs)
  rw [Function.comp_apply, hc.sourceFor_destination hmem]

theorem nodup_vpnDestinations : (vpnDestinations c family).Nodup := by
  have hperm : ((sortSourceRoutes (specificSourceRoutes family c.sourceRoutes)).map
      SourceRoute.destination).Perm
      ((specificSourceRoutes family c.sourceRoutes).map SourceRoute.destination) :=
    (perm_insertionSort _ _).map _
  refine nodup_cons.mpr ⟨?_, ?_⟩
  · rw [hperm.mem_iff, mem_map]
    rintro ⟨s, hs, hdst⟩
    have hne := (mem_filter.mp hs).2
    simp [hdst] at hne
  · rw [hperm.nodup_iff]
    exact hc.distinct.sublist (filter_sublist.map _)

end Table

theorem mem_vpnDestinations_iff :
    dst ∈ vpnDestinations c family ↔ dst = familyDefaultPrefix family ∨
      ∃ s ∈ c.sourceRoutes, sourceRouteFamily s = family ∧ s.destination = dst := by
  simp only [vpnDestinations, mem_cons, mem_map, sortSourceRoutes,
    mem_insertionSort, specificSourceRoutes, mem_filter, decide_eq_true_eq, ne_eq]
  constructor
  · rintro (rfl | ⟨s, ⟨hs, hfamily, -⟩, rfl⟩)
    · exact .inl rfl
    · exact .inr ⟨s, hs, hfamily, rfl⟩
  · rintro (rfl | ⟨s, hs, hfamily, rfl⟩)
    · exact .inl rfl
    · by_cases hdst : s.destination = familyDefaultPrefix family
      · exact .inl hdst
      · exact .inr ⟨s, ⟨hs, hfamily, hdst⟩, rfl⟩

theorem family_of_vpnDestination (hf : family = afInet ∨ family = afInet6)
    (h : dst ∈ vpnDestinations c family) :
    (if dst.addr.is4 then afInet else afInet6) = family := by
  rcases mem_vpnDestinations_iff.mp h with rfl | ⟨s, -, hfamily, rfl⟩
  · rcases hf with rfl | rfl <;> rfl
  · exact hfamily

theorem familyDefaultPrefix_bits (family : Int) : (familyDefaultPrefix family).bits = 0 := by
  unfold familyDefaultPrefix
  split <;> rfl

section Selection

variable {c : Config} {snapshot : Snapshot} {r : Route} {a : Addr}

theorem vpnDestination_masked (hc : c.Sourced) {dst : Prefix}
    (h : dst ∈ vpnDestinations c family) : dst = dst.masked := by
  rcases mem_vpnDestinations_iff.mp h with rfl | ⟨s, hs, -, rfl⟩
  · exact (masked_familyDefaultPrefix family).symm
  · exact (hc.accepted s hs).masked

/-- The TUN carries the family of each source route. -/
theorem tunnelled_sourceRoute (hc : c.Sourced) {s : SourceRoute} (hs : s ∈ c.sourceRoutes) :
    familyEnabled (effectiveTunnelFamilies c) (sourceRouteFamily s) = true := by
  have hok := hc.accepted s hs
  rw [sourceRouteFamily, hok.same_family]
  exact hok.carried

theorem mem_vpnRoutes_iff (hk : c.Checked) (hc : c.Sourced) :
    r ∈ (desiredState c snapshot).vpnRoutes ↔
      ∃ family, familyEnabled (effectiveTunnelFamilies c) family = true ∧
        ∃ dst ∈ vpnDestinations c family, vpnRoute c family dst (c.sourceFor dst) = r := by
  simp only [desiredState, mem_flatMap, mem_filter, mem_familyConstants]
  constructor
  · rintro ⟨family, ⟨-, htunnel⟩, hr⟩
    rw [compileVPNRoutes_eq hc (familyEnabled_cases htunnel)] at hr
    exact ⟨family, htunnel, mem_map.mp hr⟩
  · rintro ⟨family, htunnel, hr⟩
    refine ⟨family, ⟨familyEnabled_of_tunnel hk htunnel, htunnel⟩, ?_⟩
    rw [compileVPNRoutes_eq hc (familyEnabled_cases htunnel)]
    exact mem_map.mpr hr

theorem nodup_vpnRoutes_dst (hc : c.Sourced) :
    ((desiredState c snapshot).vpnRoutes.map Route.dst).Nodup := by
  have hdst : ∀ family, family = afInet ∨ family = afInet6 →
      (compileVPNRoutes c family).map Route.dst = vpnDestinations c family := by
    intro family hf
    rw [compileVPNRoutes_eq hc hf, map_map]
    exact map_id _
  have hcases : ∀ family ∈ (familyConstants c.families).filter
      (fun family => familyEnabled (effectiveTunnelFamilies c) family),
      family = afInet ∨ family = afInet6 :=
    fun family h => familyEnabled_cases (mem_filter.mp h).2
  have hfamilies : (familyConstants c.families).Nodup := by
    rcases c.families with ⟨v4, v6⟩
    cases v4 <;> cases v6 <;> decide
  rw [desiredState, map_flatMap, List.nodup_flatMap]
  refine ⟨fun family h => ?_, ?_⟩
  · rw [hdst family (hcases family h)]
    exact nodup_vpnDestinations hc
  · refine (hfamilies.filter _).imp_of_mem fun {f g} hf hg hne => ?_
    show List.Disjoint ((compileVPNRoutes c f).map Route.dst) ((compileVPNRoutes c g).map Route.dst)
    rw [hdst f (hcases f hf), hdst g (hcases g hg)]
    intro p hp hq
    exact hne ((family_of_vpnDestination (hcases f hf) hp).symm.trans
      (family_of_vpnDestination (hcases g hg) hq))

/-- A route of the table that holds an address of a family is of that family. -/
theorem family_of_contains (hf : family = afInet ∨ family = afInet6)
    (ha : (familyDefaultPrefix family).contains a = true) {dst : Prefix}
    (hdst : dst.contains a = true) : (if dst.addr.is4 then afInet else afInet6) = family := by
  rw [Prefix.is4_of_contains hdst, ← Prefix.is4_of_contains ha]
  rcases hf with rfl | rfl <;> rfl

section

variable (hk : c.Checked) (hc : c.Sourced) (hf : family = afInet ∨ family = afInet6)
    (ha : (familyDefaultPrefix family).contains a = true)
include hk hc hf ha

theorem vpnDestination_of_route (hr : r ∈ (desiredState c snapshot).vpnRoutes)
    (hra : r.dst.contains a = true) :
    r.dst ∈ vpnDestinations c family ∧ r.preferredSource = c.sourceFor r.dst := by
  obtain ⟨other, htunnel, dst, hdst, rfl⟩ := (mem_vpnRoutes_iff hk hc).mp hr
  have hsame : other = family :=
    (family_of_vpnDestination (familyEnabled_cases htunnel) hdst).symm.trans
      (family_of_contains hf ha hra)
  exact ⟨hsame ▸ hdst, rfl⟩

theorem longest_vpnRoute_unique {r' : Route}
    (h : LongestMatch Route.dst (desiredState c snapshot).vpnRoutes a r)
    (h' : LongestMatch Route.dst (desiredState c snapshot).vpnRoutes a r') : r = r' := by
  have hdst : r.dst = r'.dst := by
    refine Prefix.eq_of_bits_eq h.holds h'.holds ?_ ?_
      (le_antisymm (h'.longest r h.mem h.holds) (h.longest r' h'.mem h'.holds))
    · exact vpnDestination_masked hc (vpnDestination_of_route hk hc hf ha h.mem h.holds).1
    · exact vpnDestination_masked hc (vpnDestination_of_route hk hc hf ha h'.mem h'.holds).1
  exact inj_on_of_nodup_map (nodup_vpnRoutes_dst hc) h.mem h'.mem hdst

/-- The longest route has the source of the longest source route: that source route has a
    route of its own, and every route but the default comes from a source route. -/
theorem source_of_longest (h : LongestMatch Route.dst (desiredState c snapshot).vpnRoutes a r)
    {s : SourceRoute} (hs : LongestMatch SourceRoute.destination c.sourceRoutes a s) :
    r.preferredSource = s.source := by
  obtain ⟨hrdst, hsource⟩ := vpnDestination_of_route hk hc hf ha h.mem h.holds
  have hsfamily : sourceRouteFamily s = family := family_of_contains hf ha hs.holds
  have hsdst : s.destination ∈ vpnDestinations c family :=
    mem_vpnDestinations_iff.mpr (.inr ⟨s, hs.mem, hsfamily, rfl⟩)
  have htunnel := tunnelled_sourceRoute hc hs.mem
  rw [hsfamily] at htunnel
  have hle : s.destination.bits ≤ r.dst.bits :=
    h.longest _ ((mem_vpnRoutes_iff hk hc).mpr ⟨family, htunnel, _, hsdst, rfl⟩) hs.holds
  have hge : r.dst.bits ≤ s.destination.bits := by
    rcases mem_vpnDestinations_iff.mp hrdst with hdefault | ⟨s', hs', -, hdst⟩
    · have hvalid := Prefix.bits_eq_len (Prefix.isValid_of_contains hs.holds)
      rw [hdefault, familyDefaultPrefix_bits]
      omega
    · have hholds := h.holds
      rw [← hdst] at hholds ⊢
      exact hs.longest s' hs' hholds
  have hdst : r.dst = s.destination :=
    Prefix.eq_of_bits_eq h.holds hs.holds (vpnDestination_masked hc hrdst)
      (vpnDestination_masked hc hsdst) (le_antisymm hge hle)
  rw [hsource, hdst, hc.sourceFor_destination hs.mem]

theorem no_source_of_longest (h : LongestMatch Route.dst (desiredState c snapshot).vpnRoutes a r)
    (hnone : ∀ s ∈ c.sourceRoutes, s.destination.contains a = false) :
    r.preferredSource = .zero := by
  have hholds := h.holds
  rw [(vpnDestination_of_route hk hc hf ha h.mem h.holds).2]
  refine Config.sourceFor_of_not_mem fun s hs hdst => ?_
  rw [← hdst, hnone s hs] at hholds
  cases hholds

end

end Selection

/-- The order of the source routes does not show in the VPN table. -/
theorem compileVPNRoutes_perm (hc : c.Sourced) (hperm : routes.Perm c.sourceRoutes) :
    compileVPNRoutes { c with sourceRoutes := routes } family = compileVPNRoutes c family := by
  have hdefault : defaultRouteSource family routes = defaultRouteSource family c.sourceRoutes :=
    LastMatch.lastMatch_congr (fun s => hperm.mem_iff) fun s hs other hother hmatch hmatch' => by
      rw [inj_on_of_nodup_map hc.distinct hother hs (hmatch'.2.trans hmatch.2.symm)]
  have hsorted : sortSourceRoutes (specificSourceRoutes family routes) =
      sortSourceRoutes (specificSourceRoutes family c.sourceRoutes) :=
    Compare.insertionSort_congr (hperm.filter _)
  rw [compileVPNRoutes, compileVPNRoutes, hdefault, hsorted]
  rfl

theorem vpn_source_selection {c : Config} {snapshot : Snapshot} (h : c.validate = .ok ()) :
    ∃ state, compileDesiredState c snapshot = .ok state ∧
      (∀ routes, routes.Perm c.sourceRoutes →
        ∃ state', compileDesiredState { c with sourceRoutes := routes } snapshot = .ok state' ∧
          state'.vpnRoutes = state.vpnRoutes) ∧
      (∀ r ∈ state.vpnRoutes, r.type = .unicast ∧ r.table = c.vpnTable ∧
        r.linkIndex = c.tunIndex ∧ r.gateway = .zero ∧ r.multipath = []) ∧
      (state.vpnRoutes.map Route.dst).Nodup ∧
      ∀ family, familyEnabled (effectiveTunnelFamilies c) family = true →
        (∃ r ∈ state.vpnRoutes, r.family = family ∧ r.dst = familyDefaultPrefix family) ∧
        ∀ a, (familyDefaultPrefix family).contains a = true →
          ∃ r, LongestMatch Route.dst state.vpnRoutes a r ∧
            (∀ r', LongestMatch Route.dst state.vpnRoutes a r' → r' = r) ∧
            (∀ s, LongestMatch SourceRoute.destination c.sourceRoutes a s →
              r.preferredSource = s.source) ∧
            ((∀ s ∈ c.sourceRoutes, s.destination.contains a = false) →
              r.preferredSource = .zero) := by
  have hk := Config.checked_of_validate h
  have hc := Config.sourced_of_validate h
  refine ⟨desiredState c snapshot, by rw [compileDesiredState, h], ?_, ?_,
    nodup_vpnRoutes_dst hc, ?_⟩
  · intro routes hperm
    refine ⟨desiredState { c with sourceRoutes := routes } snapshot,
      by rw [compileDesiredState, c.validate_perm h hperm], ?_⟩
    exact flatMap_congr fun family _ => compileVPNRoutes_perm hc hperm
  · intro r hr
    obtain ⟨family, -, dst, -, rfl⟩ := (mem_vpnRoutes_iff hk hc).mp hr
    exact ⟨rfl, rfl, rfl, rfl, rfl⟩
  · intro family htunnel
    have hf := familyEnabled_cases htunnel
    have hdefault : vpnRoute c family (familyDefaultPrefix family)
        (c.sourceFor (familyDefaultPrefix family)) ∈ (desiredState c snapshot).vpnRoutes :=
      (mem_vpnRoutes_iff hk hc).mpr
        ⟨family, htunnel, _, mem_vpnDestinations_iff.mpr (.inl rfl), rfl⟩
    refine ⟨⟨_, hdefault, rfl, rfl⟩, fun a ha => ?_⟩
    obtain ⟨best, hbest⟩ :
        ∃ best, LongestMatch Route.dst (desiredState c snapshot).vpnRoutes a best :=
      exists_longestMatch hdefault ha
    exact ⟨best, hbest, fun r hr => longest_vpnRoute_unique hk hc hf ha hr hbest,
      fun s hs => source_of_longest hk hc hf ha hbest hs,
      fun hnone => no_source_of_longest hk hc hf ha hbest hnone⟩

/-- Two nested source routes of a TUN, the longer first. -/
def nestedSources : Config :=
  { sampleConfig with
    sourceRoutes := [⟨Prefix.ofV4 0x0a010000#32 16, .v4 0x0a010002#32⟩,
      ⟨Prefix.ofV4 0x0a000000#32 8, .v4 0x0a000002#32⟩] }

theorem vpn_source_selection_nested :
    ∃ state, compileDesiredState nestedSources ⟨[]⟩ = .ok state ∧
      ∃ r, LongestMatch Route.dst state.vpnRoutes (.v4 0x0a010203#32) r ∧
        r.preferredSource = .v4 0x0a010002#32 := by
  obtain ⟨state, hstate, -, -, -, hselect⟩ := vpn_source_selection (c := nestedSources) rfl
  obtain ⟨-, haddr⟩ := hselect afInet (by decide)
  obtain ⟨r, hr, -, hsource, -⟩ := haddr (.v4 0x0a010203#32) (by decide +kernel)
  refine ⟨state, hstate, r, hr, hsource ⟨Prefix.ofV4 0x0a010000#32 16, .v4 0x0a010002#32⟩ ?_⟩
  exact ⟨by decide +kernel, by decide +kernel, by decide +kernel⟩

end Routing
end SysnetLinux
