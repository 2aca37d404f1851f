/-
  SysnetLinux.Routing.InstallOrder

  The order in which the safe table is installed.

  The kernel accepts a route through a gateway only when it can reach the gateway, so the routes
  without one come first.  The comparison is a strict weak order (`safeRouteOrder_iff`), and the
  sort is stable.  `compileSafeRoutes` is the loop of `CompileDesiredState` over routes whose next
  hops lie in a heap that others read; it writes to arrays of its own only.
-/

import Mathlib.Data.List.Pairwise
import SysnetLinux.Lib.Compare
import SysnetLinux.Lib.Slices
import SysnetLinux.Routing.SafeRoutes

namespace SysnetLinux.Routing

open Netip Compare List

/-! ## The order -/

/-- A packet on the route may leave through a gateway. -/
def HasGateway (r : Route) : Prop :=
  r.gateway.isValid = true ∨ ∃ hop ∈ r.multipath, hop.gateway.isValid = true

/-- By family, then by the address and the length of the destination. -/
def DestinationLE (a b : Route) : Prop :=
  a.family < b.family ∨ (a.family = b.family ∧
    (a.dst.addr.compare b.dst.addr = .lt ∨
      (a.dst.addr = b.dst.addr ∧ a.dst.bits ≤ b.dst.bits)))

/-- The first route is installed before the second: no gateway before a gateway, and in a
    class by destination. -/
structure InstallsBefore (a b : Route) : Prop where
  gateway : HasGateway a → HasGateway b
  destination : (HasGateway a ↔ HasGateway b) → DestinationLE a b

/-- The routes tie: the same class, family and destination. -/
def Ties (a b : Route) : Prop :=
  (HasGateway a ↔ HasGateway b) ∧ a.family = b.family ∧ a.dst = b.dst

variable {a b r : Route}

theorem routeDependsOnGateway_iff : routeDependsOnGateway r = true ↔ HasGateway r := by
  simp [routeDependsOnGateway, HasGateway]

instance : DecidablePred HasGateway := fun _ => decidable_of_iff _ routeDependsOnGateway_iff

instance : DecidableRel Ties := fun a b =>
  inferInstanceAs (Decidable ((HasGateway a ↔ HasGateway b) ∧ a.family = b.family ∧ a.dst = b.dst))

instance : Std.TransCmp safeRouteOrder := by
  have haddr := transCmp_on Addr.compare fun r : Route => r.dst.addr
  exact inferInstanceAs (Std.TransCmp (compareLex
    (compareOn fun r : Route => (routeDependsOnGateway r).toNat)
    (compareLex (compareOn fun r : Route => r.family)
      (compareLex (fun a b : Route => a.dst.addr.compare b.dst.addr)
        (compareOn fun r : Route => r.dst.bits)))))

theorem toNat_routeDependsOnGateway (r : Route) :
    (routeDependsOnGateway r).toNat = if HasGateway r then 1 else 0 := by
  by_cases h : HasGateway r
  · rw [if_pos h, routeDependsOnGateway_iff.mpr h]
    rfl
  · rw [if_neg h, Bool.eq_false_iff.mpr (mt routeDependsOnGateway_iff.mp h)]
    rfl

theorem compare_class_eq_gt_iff :
    Ord.compare (routeDependsOnGateway a).toNat (routeDependsOnGateway b).toNat = .gt ↔
      HasGateway a ∧ ¬HasGateway b := by
  rw [compare_gt_iff_gt, toNat_routeDependsOnGateway, toNat_routeDependsOnGateway]
  by_cases ha : HasGateway a <;> by_cases hb : HasGateway b <;> simp [ha, hb]

theorem compare_class_eq_iff :
    Ord.compare (routeDependsOnGateway a).toNat (routeDependsOnGateway b).toNat = .eq ↔
      (HasGateway a ↔ HasGateway b) := by
  rw [compare_eq_iff_eq, toNat_routeDependsOnGateway, toNat_routeDependsOnGateway]
  by_cases ha : HasGateway a <;> by_cases hb : HasGateway b <;> simp [ha, hb]

theorem destinationOrder_iff : (Ord.compare a.family b.family).then
        ((a.dst.addr.compare b.dst.addr).then (Ord.compare a.dst.bits b.dst.bits)) ≠ .gt ↔
      DestinationLE a b := by
  rw [ne_eq, Ordering.then_eq_gt, Ordering.then_eq_gt, compare_gt_iff_gt, compare_gt_iff_gt,
    compare_eq_iff_eq, DestinationLE]
  have haddr : a.dst.addr.compare b.dst.addr = .eq ↔ a.dst.addr = b.dst.addr :=
    Std.LawfulEqCmp.compare_eq_iff_eq
  cases hcmp : a.dst.addr.compare b.dst.addr with
  | lt => simp; omega
  | eq => simp [haddr.mp hcmp]; omega
  | gt =>
    have hne : a.dst.addr ≠ b.dst.addr := fun h => by rw [haddr.mpr h] at hcmp; cases hcmp
    simp [hne]
    omega

/-- What the comparison of the source says. -/
theorem safeRouteOrder_iff : NotAbove safeRouteOrder a b ↔ InstallsBefore a b := by
  rw [NotAbove, safeRouteOrder, ne_eq, Ordering.then_eq_gt, compare_class_eq_gt_iff,
    compare_class_eq_iff, not_or, not_and_not_right, not_and, ← ne_eq, destinationOrder_iff]
  exact ⟨fun h => ⟨h.1, h.2⟩, fun h => ⟨h.1, h.2⟩⟩

theorem safeRouteOrder_eq_iff : safeRouteOrder a b = .eq ↔ Ties a b := by
  rw [safeRouteOrder, Ordering.then_eq_eq, Ordering.then_eq_eq, Ordering.then_eq_eq,
    compare_class_eq_iff, compare_eq_iff_eq, compare_eq_iff_eq,
    Std.LawfulEqCmp.compare_eq_iff_eq, Ties]
  refine and_congr_right fun _ => and_congr_right fun _ => ?_
  constructor
  · rintro ⟨haddr, hbits⟩
    exact Prefix.eq_of_addr_bits haddr hbits
  · intro h
    rw [h]
    exact ⟨rfl, rfl⟩

theorem Ties.symm (h : Ties a b) : Ties b a := ⟨h.1.symm, h.2.1.symm, h.2.2.symm⟩

instance : Std.Symm fun a b => ¬Ties a b := ⟨fun _ _ h htie => h htie.symm⟩

theorem Ties.trans {c : Route} (hab : Ties a b) (hbc : Ties b c) : Ties a c :=
  ⟨hab.1.trans hbc.1, hab.2.1.trans hbc.2.1, hab.2.2.trans hbc.2.2⟩

/-! ## The routes to install -/

/-- The main routes that the safe table replays, in the order of the snapshot. -/
def replayed (config : Config) (snapshot : Snapshot) : List Route :=
  (snapshot.mainRoutes.filter fun route =>
      familyEnabled config.families route.family &&
        classifySafeRoute route config.tunIndex == .routeSafe).map fun route =>
    safeTableRoute route config.safeTable

theorem safeRoutes_eq (config : Config) (snapshot : Snapshot) :
    (desiredState config snapshot).safeRoutes =
      (replayed config snapshot).insertionSort (NotAbove safeRouteOrder) := rfl

/-- Without ties the order of the snapshot does not show. -/
theorem safeRoutes_congr {config : Config} {snapshot snapshot' : Snapshot}
    (hdistinct : (replayed config snapshot).Pairwise fun a b => ¬Ties a b)
    (hperm : snapshot'.mainRoutes.Perm snapshot.mainRoutes) :
    (desiredState config snapshot').safeRoutes = (desiredState config snapshot).safeRoutes := by
  rw [safeRoutes_eq, safeRoutes_eq]
  refine sorted_unique_of_distinct ?_
    ((perm_insertionSort _ _).trans ((hperm.filter _).map _)) (pairwise_insertionSort _ _)
  intro a ha b hb htie
  by_contra hne
  exact hdistinct.forall ha hb hne (safeRouteOrder_eq_iff.mp htie)

/-- The flags a caller sets on a next hop. -/
def CallerOwned (flags : Nat) : Prop := flags &&& (rtnhFOnlink ||| rtnhFPervasive) = flags

theorem callerOwned_desiredNexthopFlags (flags : Nat) : CallerOwned (desiredNexthopFlags flags) := by
  rw [CallerOwned, desiredNexthopFlags, Nat.and_assoc, Nat.and_self]

theorem callerOwned_of_mem_safeRoutes {config : Config} {snapshot : Snapshot}
    (h : r ∈ (desiredState config snapshot).safeRoutes) :
    CallerOwned r.flags ∧ ∀ hop ∈ r.multipath, CallerOwned hop.flags := by
  obtain ⟨route, -, -, -, rfl⟩ := mem_safeRoutes_iff.mp h
  refine ⟨callerOwned_desiredNexthopFlags route.flags, ?_⟩
  intro hop hhop
  obtain ⟨hop', -, rfl⟩ := mem_map.mp hhop
  exact callerOwned_desiredNexthopFlags hop'.flags

/-! ## Shared next hops -/

open Slices

/-- A route as the struct that Go copies: its fields, of which the next hops are a slice.  The
    next hops of `header` are not looked at. -/
structure StoredRoute where
  header : Route
  multipath : Slice
  deriving DecidableEq, Repr

/-- The route that is read through the heap. -/
def StoredRoute.load (heap : Heap Nexthop) (route : StoredRoute) : Route :=
  { route.header with multipath := read heap route.multipath }

/-- `safeTableRoute` on stored routes: next hops are copied before their flags are changed. -/
def storeSafeTableRoute (heap : Heap Nexthop) (route : StoredRoute) (table : Int) :
    Heap Nexthop × StoredRoute :=
  let copied := { route with
    header := { route.header with
      table := table
      flags := desiredNexthopFlags route.header.flags } }
  if 0 < route.multipath.len then
    let hops := clone heap route.multipath
    (modifyAll hops.1 hops.2 fun hop => { hop with flags := desiredNexthopFlags hop.flags },
      { copied with multipath := hops.2 })
  else (heap, copied)

/-- The loop of `CompileDesiredState` over the main routes, before the sort. -/
def storeSafeRoutes (config : Config) :
    Heap Nexthop → List StoredRoute → Heap Nexthop × List StoredRoute
  | heap, [] => (heap, [])
  | heap, route :: routes =>
    if familyEnabled config.families (route.load heap).family &&
        classifySafeRoute (route.load heap) config.tunIndex == .routeSafe then
      let copied := storeSafeTableRoute heap route config.safeTable
      let rest := storeSafeRoutes config copied.1 routes
      (rest.1, copied.2 :: rest.2)
    else storeSafeRoutes config heap routes

/-- The safe routes of `CompileDesiredState`; the sort moves the structs. -/
def compileSafeRoutes (config : Config) (heap : Heap Nexthop) (routes : List StoredRoute) :
    Heap Nexthop × List StoredRoute :=
  let stored := storeSafeRoutes config heap routes
  (stored.1, stored.2.insertionSort fun a b =>
    NotAbove safeRouteOrder (a.load stored.1) (b.load stored.1))

variable {heap heap' : Heap Nexthop} (config : Config)

theorem load_of_extends {route : StoredRoute} (h : route.multipath.In heap)
    (hext : heap <+: heap') : route.load heap' = route.load heap := by
  rw [StoredRoute.load, StoredRoute.load, read_of_extends h hext]

/-- The copy lies in new memory and reads as `safeTableRoute` of the route. -/
theorem storeSafeTableRoute_spec {route : StoredRoute} (h : route.multipath.In heap) (table : Int) :
    heap <+: (storeSafeTableRoute heap route table).1 ∧
      (storeSafeTableRoute heap route table).2.multipath.In
        (storeSafeTableRoute heap route table).1 ∧
      (storeSafeTableRoute heap route table).2.load (storeSafeTableRoute heap route table).1 =
        safeTableRoute (route.load heap) table := by
  by_cases hlen : 0 < route.multipath.len
  · have hresult : storeSafeTableRoute heap route table =
        (heap ++ [(read heap route.multipath).map fun hop =>
            { hop with flags := desiredNexthopFlags hop.flags }],
          ⟨{ route.header with
              table := table, flags := desiredNexthopFlags route.header.flags },
            ⟨heap.length, 0, (read heap route.multipath).length⟩⟩) := by
      rw [storeSafeTableRoute, if_pos hlen]
      dsimp only
      rw [cloned_modified]
      rfl
    rw [hresult]
    refine ⟨prefix_append _ _, ?_, ?_⟩
    · simp [Slice.In]
    · rw [StoredRoute.load, read_last _ _ (length_map _).symm]
      rfl
  · have hnil : read heap route.multipath = [] := by
      rw [Slices.read, show route.multipath.len = 0 by omega, take_zero]
    rw [storeSafeTableRoute, if_neg hlen]
    refine ⟨prefix_rfl, h, ?_⟩
    simp [StoredRoute.load, safeTableRoute, hnil]

theorem storeSafeRoutes_spec {routes : List StoredRoute}
    (h : ∀ route ∈ routes, route.multipath.In heap) :
    heap <+: (storeSafeRoutes config heap routes).1 ∧ (storeSafeRoutes config heap routes).2.map
          (StoredRoute.load (storeSafeRoutes config heap routes).1) =
        replayed config ⟨routes.map (StoredRoute.load heap)⟩ := by
  -- Each turn only adds arrays, so the routes still to come read as at the start.
  induction routes generalizing heap with
  | nil => exact ⟨prefix_rfl, rfl⟩
  | cons route routes ih =>
    have hroute := h route mem_cons_self
    have hroutes : ∀ route ∈ routes, route.multipath.In heap := fun route' hmem =>
      h route' (mem_cons_of_mem route hmem)
    rw [storeSafeRoutes]
    split
    · rename_i hsafe
      obtain ⟨hext, hin, hload⟩ := storeSafeTableRoute_spec hroute config.safeTable
      have hkeep : routes.map (StoredRoute.load (storeSafeTableRoute heap route
          config.safeTable).1) = routes.map (StoredRoute.load heap) :=
        map_congr_left fun route' hmem => load_of_extends (hroutes route' hmem) hext
      obtain ⟨hext', hrest⟩ := ih fun route' hmem => in_of_extends (hroutes route' hmem) hext
      refine ⟨hext.trans hext', ?_⟩
      rw [map_cons, hrest, hkeep, load_of_extends hin hext', hload]
      simp only [replayed, map_cons, filter_cons, hsafe, if_true]
    · rename_i hsafe
      obtain ⟨hext, hrest⟩ := ih hroutes
      refine ⟨hext, ?_⟩
      rw [hrest]
      simp only [replayed, map_cons, filter_cons, hsafe, Bool.false_eq_true, if_false]

/-- Compiling in the heap reads as compiling the routes, and changes none of them. -/
theorem compileSafeRoutes_spec {routes : List StoredRoute}
    (h : ∀ route ∈ routes, route.multipath.In heap) :
    heap <+: (compileSafeRoutes config heap routes).1 ∧
      routes.map (StoredRoute.load (compileSafeRoutes config heap routes).1) =
        routes.map (StoredRoute.load heap) ∧
      (compileSafeRoutes config heap routes).2.map
          (StoredRoute.load (compileSafeRoutes config heap routes).1) =
        (desiredState config ⟨routes.map (StoredRoute.load heap)⟩).safeRoutes := by
  obtain ⟨hext, hloads⟩ := storeSafeRoutes_spec config h
  refine ⟨hext, map_congr_left fun route hmem => load_of_extends (h route hmem) hext, ?_⟩
  rw [safeRoutes_eq, ← hloads]
  exact map_insertionSort _ _ _ _ fun a _ b _ => Iff.rfl

/-! ## The install order -/

theorem safe_route_install_order {config : Config} (h : config.validate = .ok ())
    (snapshot : Snapshot) :
    ∃ state, compileDesiredState config snapshot = .ok state ∧
      state.safeRoutes.Perm (replayed config snapshot) ∧
      state.safeRoutes.Pairwise InstallsBefore ∧
      (∀ route, state.safeRoutes.filter (fun r => Ties route r) =
        (replayed config snapshot).filter fun r => Ties route r) ∧
      ((replayed config snapshot).Pairwise (fun a b => ¬Ties a b) →
        ∀ snapshot' : Snapshot, snapshot'.mainRoutes.Perm snapshot.mainRoutes →
          ∃ state', compileDesiredState config snapshot' = .ok state' ∧
            state'.safeRoutes = state.safeRoutes) ∧
      (∀ r ∈ state.safeRoutes,
        CallerOwned r.flags ∧ ∀ hop ∈ r.multipath, CallerOwned hop.flags) ∧
      ∀ (heap : Heap Nexthop) (routes : List StoredRoute),
        (∀ route ∈ routes, route.multipath.In heap) →
        routes.map (StoredRoute.load heap) = snapshot.mainRoutes →
          heap <+: (compileSafeRoutes config heap routes).1 ∧
          routes.map (StoredRoute.load (compileSafeRoutes config heap routes).1) =
            snapshot.mainRoutes ∧
          (compileSafeRoutes config heap routes).2.map
            (StoredRoute.load (compileSafeRoutes config heap routes).1) = state.safeRoutes := by
  have hcompile : ∀ snapshot,
      compileDesiredState config snapshot = .ok (desiredState config snapshot) := fun snapshot => by
    rw [compileDesiredState, h]
  refine ⟨desiredState config snapshot, hcompile snapshot, ?_, ?_, ?_, ?_, ?_, ?_⟩
  · exact perm_insertionSort _ _
  · rw [safeRoutes_eq]
    exact (pairwise_insertionSort _ _).imp safeRouteOrder_iff.mp
  · intro route
    rw [safeRoutes_eq]
    apply filter_insertionSort
    intro a b ha hb
    rw [decide_eq_true_eq] at ha hb
    exact safeRouteOrder_eq_iff.mpr (ha.symm.trans hb)
  · intro hdistinct snapshot' hperm
    exact ⟨desiredState config snapshot', hcompile snapshot', safeRoutes_congr hdistinct hperm⟩
  · exact fun r hr => callerOwned_of_mem_safeRoutes hr
  · intro heap routes hin hloads
    obtain ⟨hext, hkeep, hsafe⟩ := compileSafeRoutes_spec config hin
    rw [hloads] at hkeep hsafe
    exact ⟨hext, hkeep, hsafe⟩

/-- Two routes to 10.0.0.0/8 and 192.168.0.0/16 through 192.168.1.1, and the one to
    192.168.1.0/24 on the link, which the gateway is reached by. -/
def officeSnapshot : Snapshot where
  mainRoutes :=
    [(0x0a000000#32, 8, Addr.v4 0xc0a80101#32), (0xc0a80000#32, 16, .v4 0xc0a80101#32),
      (0xc0a80100#32, 24, .zero)].map fun route =>
    { family := afInet, table := rtTableMain, dst := Prefix.ofV4 route.1 route.2.1,
      gateway := route.2.2, preferredSource := .zero, linkIndex := 2, priority := 100,
      scope := 0, flags := 20, type := .unicast, multipath := [] }

theorem safe_route_install_order_office :
    ∃ state, compileDesiredState sampleConfig officeSnapshot = .ok state ∧
      (state.safeRoutes.map fun r => r.dst.len) = [24, 8, 16] ∧
      (∀ r ∈ state.safeRoutes, CallerOwned r.flags) ∧
      ∃ state', compileDesiredState sampleConfig ⟨officeSnapshot.mainRoutes.reverse⟩ = .ok state' ∧
        state'.safeRoutes = state.safeRoutes := by
  obtain ⟨state, hstate, -, -, -, hunique, hflags, -⟩ :=
    safe_route_install_order sampleConfig_valid.accepted officeSnapshot
  refine ⟨state, hstate, ?_, fun r hr => (hflags r hr).1,
    hunique (by decide +kernel) ⟨officeSnapshot.mainRoutes.reverse⟩ (reverse_perm _)⟩
  obtain ⟨-, rfl⟩ := compileDesiredState_eq_ok hstate
  decide +kernel

end SysnetLinux.Routing
