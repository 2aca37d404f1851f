/-
  SysnetLinux.DefaultTun.Check

  What `CheckDefaultTunOpts` promises a build.

  Addresses, routes and source routes that the normalisations accept make a config
  that `validate` accepts.  The address set of the TUN configurator is stricter
  than the normalisation: it refuses one address with two lengths, which the check
  does not look for.
-/

import SysnetLinux.DefaultTun.Options

namespace SysnetLinux.DefaultTun

open Netip Routing List

/-! ## One length for each address -/

/-- No address stands with two lengths. -/
def OneLength (ps : List Prefix) : Prop :=
  ∀ p ∈ ps, ∀ q ∈ ps, p.addr = q.addr → p.bits = q.bits

theorem OneLength.subset {ps qs : List Prefix} (h : OneLength qs) (hsub : ∀ p ∈ ps, p ∈ qs) :
    OneLength ps := fun p hp q hq => h p (hsub p hp) q (hsub q hq)

/-- A prefix that agrees with the kept ones can be kept too. -/
theorem OneLength.appendNew {ps : List Prefix} (h : OneLength ps) {cidr : Prefix}
    (hagree : ∀ p ∈ ps, p.addr = cidr.addr → p.bits = cidr.bits) :
    OneLength (appendNew ps cidr) := by
  intro p hp q hq heq
  rcases mem_appendNew.mp hp with hp' | rfl <;> rcases mem_appendNew.mp hq with hq' | rfl
  · exact h p hp' q hq' heq
  · exact hagree p hp' heq
  · exact (hagree q hq' heq.symm).symm
  · rfl

theorem scanPrefixSet_eq_ok {normalized prefixes out : List Prefix} (h : OneLength normalized) :
    scanPrefixSet normalized prefixes = .ok out ↔
      (∀ p ∈ prefixes, p.isValid = true) ∧ OneLength (normalized ++ prefixes) ∧
        out = prefixes.foldl appendNew normalized := by
  induction prefixes generalizing normalized with
  | nil =>
    rw [scanPrefixSet, Except.ok.injEq, append_nil, foldl_nil]
    constructor
    · rintro rfl
      exact ⟨by simp, h, rfl⟩
    · exact fun hr => hr.2.2.symm
  | cons cidr prefixes ih =>
    have hmembers : ∀ p, p ∈ appendNew normalized cidr ++ prefixes ↔
        p ∈ normalized ++ cidr :: prefixes := by
      intro p
      rw [mem_append, mem_append, mem_appendNew, mem_cons, or_assoc]
    -- Behind a prefix that agrees with the kept ones the scan goes on.
    have hgoes : (∀ p ∈ normalized, p.addr = cidr.addr → p.bits = cidr.bits) →
        (scanPrefixSet (appendNew normalized cidr) prefixes = .ok out ↔
          (∀ p ∈ prefixes, p.isValid = true) ∧ OneLength (normalized ++ cidr :: prefixes) ∧
            out = prefixes.foldl appendNew (appendNew normalized cidr)) := by
      intro hagree
      rw [ih (h.appendNew hagree)]
      refine and_congr Iff.rfl (and_congr ⟨fun hone => ?_, fun hone => ?_⟩ Iff.rfl)
      · exact hone.subset fun p hp => (hmembers p).mpr hp
      · exact hone.subset fun p hp => (hmembers p).mp hp
    rw [scanPrefixSet, foldl_cons, forall_mem_cons]
    by_cases hvalid : cidr.isValid = true
    · rw [if_neg (by simp [hvalid])]
      cases hfind : normalized.find? fun p => p.addr = cidr.addr with
      | none =>
        have hnew : ∀ p ∈ normalized, p.addr = cidr.addr → p.bits = cidr.bits := by
          intro p hp heq
          simpa [heq] using find?_eq_none.mp hfind p hp
        simpa [hvalid] using hgoes hnew
      | some p =>
        have hp := mem_of_find?_eq_some hfind
        have heq : p.addr = cidr.addr := by simpa using find?_some hfind
        by_cases hbits : p.bits = cidr.bits
        · have hagree : ∀ q ∈ normalized, q.addr = cidr.addr → q.bits = cidr.bits :=
            fun q hq hq' => (h q hq p hp (hq'.trans heq.symm)).trans hbits
          simpa [hvalid, hbits] using hgoes hagree
        · simp only [hbits, ne_eq, not_false_eq_true, if_true, reduceCtorEq, false_iff]
          rintro ⟨-, hone, -⟩
          exact hbits (hone p (by simp [hp]) cidr (by simp) heq)
    · rw [if_pos (by simpa using hvalid)]
      simp [hvalid]

/-- The configurator accepts the addresses exactly if they are valid and no address
    has two lengths. -/
theorem normalizeTunAddrPrefixSet_eq_ok {prefixes out : List Prefix} :
    normalizeTunAddrPrefixSet prefixes = .ok out ↔
      (∀ p ∈ prefixes, p.isValid = true) ∧ OneLength prefixes ∧ out = prefixes.foldl appendNew [] :=
  scanPrefixSet_eq_ok fun _ hp => absurd hp not_mem_nil

/-! ## Source routes that fit -/

/-- A source route that the routing package accepts on a TUN with these addresses. -/
structure SourceRouteFits (assigned : List Addr) (route : SourceRoute) : Prop where
  destination_valid : route.destination.isValid = true
  not_mapped : route.destination.addr.is4In6 = false
  masked : route.destination.masked = route.destination
  source_valid : validPreferredSource route.source = true
  family : route.destination.addr.is4 = route.source.is4
  assigned : route.source ∈ assigned

/-- All of them fit, and no destination stands twice. -/
structure SourceRoutesFit (addrs : List Prefix) (routes : List SourceRoute) : Prop where
  each : ∀ route ∈ routes, SourceRouteFits (addrs.map Prefix.addr) route
  distinct : (routes.map SourceRoute.destination).Nodup

variable {normalized out sourceRoutes : List SourceRoute} {i : Nat} {routes : List TunSourceRoute}
    {addrs : List Prefix}

theorem sourceOf_eq_none {destination : Prefix} (h : sourceOf normalized destination = none) :
    ∀ route ∈ normalized, route.destination ≠ destination := by
  intro route hroute
  have hnone := find?_eq_none.mp (Option.map_eq_none_iff.mp h) route hroute
  simpa using hnone

theorem sourceOf_eq_some {destination : Prefix} {source : Addr}
    (h : sourceOf normalized destination = some source) :
    ∃ route ∈ normalized, route.destination = destination ∧ route.source = source := by
  obtain ⟨route, hfind, rfl⟩ := Option.map_eq_some_iff.mp h
  exact ⟨route, mem_of_find?_eq_some hfind, by simpa using find?_some hfind, rfl⟩

/-- One round of the loop: the route has passed the checks, and it is dropped as a
    repetition or kept. -/
theorem scanSourceRoutes_cons {assigned : List Addr} {route : TunSourceRoute}
    (h : scanSourceRoutes assigned i normalized (route :: routes) = .ok out) :
    SourceRouteFits assigned ⟨route.destination.masked, route.source⟩ ∧
      ((sourceOf normalized route.destination.masked = some route.source ∧
          scanSourceRoutes assigned (i + 1) normalized routes = .ok out) ∨
        (sourceOf normalized route.destination.masked = none ∧ scanSourceRoutes assigned (i + 1)
            (normalized ++ [⟨route.destination.masked, route.source⟩]) routes = .ok out)) := by
  rw [scanSourceRoutes] at h
  split at h
  · cases h
  rename_i hdestination
  split at h
  · cases h
  rename_i hsource
  split at h
  · cases h
  rename_i hfamily
  split at h
  · cases h
  rename_i hassigned
  simp only [Bool.or_eq_true, Bool.not_eq_true', not_or, Bool.not_eq_false, Bool.not_eq_true]
    at hdestination hsource
  have hvalid := hdestination.1
  refine ⟨⟨Prefix.masked_isValid hvalid, Prefix.masked_not_mapped hdestination.2,
    Prefix.masked_masked hvalid, hsource, ?_, not_not.mp hassigned⟩, ?_⟩
  · rw [Prefix.masked_is4 hvalid]
    exact not_not.mp hfamily
  · split at h
    · rename_i source hseen
      split at h
      · cases h
      · rename_i hsame
        exact .inl ⟨not_not.mp hsame ▸ hseen, h⟩
    · rename_i hseen
      exact .inr ⟨hseen, h⟩

theorem scanSourceRoutes_fit {assigned : List Addr}
    (h : scanSourceRoutes assigned i normalized routes = .ok out)
    (hfit : ∀ route ∈ normalized, SourceRouteFits assigned route)
    (hdistinct : (normalized.map SourceRoute.destination).Nodup) :
    (∀ route ∈ out, SourceRouteFits assigned route) ∧ (out.map SourceRoute.destination).Nodup := by
  induction routes generalizing i normalized with
  | nil =>
    cases h
    exact ⟨hfit, hdistinct⟩
  | cons route routes ih =>
    obtain ⟨hroute, ⟨-, hrest⟩ | ⟨hnew, hrest⟩⟩ := scanSourceRoutes_cons h
    · exact ih hrest hfit hdistinct
    · refine ih hrest ?_ ?_
      · intro r hr
        rcases mem_append.mp hr with hr | hr
        · exact hfit r hr
        · rw [mem_singleton.mp hr]
          exact hroute
      · rw [map_append, nodup_append]
        refine ⟨hdistinct, nodup_singleton _, ?_⟩
        rintro d hd d' hd' rfl
        obtain ⟨r, hr, rfl⟩ := mem_map.mp hd
        exact sourceOf_eq_none hnew r hr (mem_singleton.mp hd')

theorem normalizeTunSourceRoutes_fit (h : normalizeTunSourceRoutes addrs routes = .ok out) :
    SourceRoutesFit addrs out := by
  obtain ⟨heach, hdistinct⟩ := scanSourceRoutes_fit h (by simp) nodup_nil
  exact ⟨heach, hdistinct⟩

/-! ## The assembled config -/

/-- The mark selectors of the `System` are selectors and do not overlap. -/
structure Settings.MarksValid (s : Settings) : Prop where
  appBypass : s.appBypassMask ≠ 0
  user : s.userMarkMask ≠ 0
  apart : marksOverlap s.appBypassMark s.appBypassMask s.userMark s.userMarkMask = false

theorem routeFamilies_eq (addrs routes : List Prefix) : routeFamilies addrs routes =
      if !((addrs ++ routes).any fun cidr => cidr.addr.is4) &&
          !((addrs ++ routes).any fun cidr => cidr.addr.is6) then bothFamilies
      else ⟨(addrs ++ routes).any fun cidr => cidr.addr.is4,
        (addrs ++ routes).any fun cidr => cidr.addr.is6⟩ := rfl

theorem routeFamilies_some (addrs routes : List Prefix) :
    (routeFamilies addrs routes).ipv4 = true ∨ (routeFamilies addrs routes).ipv6 = true := by
  rw [routeFamilies_eq]
  cases (addrs ++ routes).any fun cidr => cidr.addr.is4 <;>
    cases (addrs ++ routes).any fun cidr => cidr.addr.is6 <;> simp [bothFamilies]

/-- The TUN carries the family of each of its addresses. -/
theorem familyEnabled_routeFamilies (routes : List Prefix) {addr : Addr}
    (hmem : addr ∈ addrs.map Prefix.addr) (hvalid : addr.isValid = true) :
    familyEnabled (routeFamilies addrs routes) (if addr.is4 then afInet else afInet6) = true := by
  obtain ⟨p, hp, rfl⟩ := mem_map.mp hmem
  have hp' : p ∈ addrs ++ routes := mem_append_left _ hp
  cases haddr : p.addr with
  | zero =>
    rw [haddr] at hvalid
    cases hvalid
  | v4 ip =>
    have h4 : ((addrs ++ routes).any fun cidr => cidr.addr.is4) = true :=
      any_eq_true.mpr ⟨p, hp', by rw [haddr]; rfl⟩
    rw [routeFamilies_eq, h4]
    rfl
  | v6 ip z =>
    have h6 : ((addrs ++ routes).any fun cidr => cidr.addr.is6) = true :=
      any_eq_true.mpr ⟨p, hp', by rw [haddr]; rfl⟩
    rw [routeFamilies_eq, h6]
    simp [familyEnabled, Addr.is4]

theorem effectiveTunnelFamilies_eq {c : Config} {routes : List Prefix}
    (h : c.tunnelFamilies = routeFamilies addrs routes) :
    effectiveTunnelFamilies c = routeFamilies addrs routes := by
  rw [effectiveTunnelFamilies, if_neg, h]
  rw [h]
  rcases routeFamilies_some addrs routes with hf | hf <;> simp [hf]

theorem validateSourceRoutes_ok {routes : List Prefix} {seen : List (Prefix × Addr)}
    (h : SourceRoutesFit addrs sourceRoutes)
    (hseen : ∀ route ∈ sourceRoutes, seen.lookup route.destination = none) :
    validateSourceRoutes (routeFamilies addrs routes) i seen sourceRoutes = .ok () := by
  induction sourceRoutes generalizing i seen with
  | nil => rfl
  | cons route rest ih =>
    have hroute := h.each route mem_cons_self
    have hsource : route.source.isValid = true := by
      have hpref := hroute.source_valid
      simp only [validPreferredSource, Bool.and_eq_true] at hpref
      exact hpref.1.1.1.1.1.1
    have hfamily := familyEnabled_routeFamilies routes hroute.assigned hsource
    have hdistinct := nodup_cons.mp h.distinct
    rw [validateSourceRoutes, if_neg (by simp [hroute.destination_valid, hroute.not_mapped]),
      if_neg (by simp [hroute.masked]), if_neg (by simp [hroute.source_valid]),
      if_neg (by simp [hroute.family]), if_neg (by simp [hfamily]),
      hseen route mem_cons_self]
    refine ih ⟨fun r hr => h.each r (mem_cons_of_mem route hr), hdistinct.2⟩ ?_
    intro r hr
    have hne : r.destination ≠ route.destination := fun heq =>
      hdistinct.1 (mem_map.mpr ⟨r, hr, heq⟩)
    rw [lookup_cons, beq_eq_false_iff_ne.mpr hne]
    exact hseen r (mem_cons_of_mem route hr)

/-- `validate` accepts what a build assembles from normalised options. -/
theorem routingConfig_accepted {s : Settings} (hmarks : s.MarksValid) (opts : DefaultTunOpts)
    {index : Int} (hindex : 0 < index) {routes : List Prefix}
    (hfit : SourceRoutesFit addrs sourceRoutes) :
    (s.routingConfig opts index addrs routes sourceRoutes).validate = .ok () := by
  have hsome := routeFamilies_some addrs routes
  have heffective : effectiveTunnelFamilies (s.routingConfig opts index addrs routes sourceRoutes) =
      routeFamilies addrs routes := effectiveTunnelFamilies_eq rfl
  have hroutes : validateSourceRoutes (routeFamilies addrs routes) 0 [] sourceRoutes = .ok () :=
    validateSourceRoutes_ok hfit fun _ _ => rfl
  have hcovered : ∀ f : FamilySet, (f = bothFamilies ∨ f = routeFamilies addrs routes) →
        (f.ipv4 = true ∨ f.ipv6 = true) ∧ ((routeFamilies addrs routes).ipv4 && !f.ipv4 ||
            (routeFamilies addrs routes).ipv6 && !f.ipv6) = false := by
    rintro f (rfl | rfl)
    · exact ⟨.inl rfl, by simp [bothFamilies]⟩
    · exact ⟨hsome, by simp⟩
  have hfamilies := hcovered (s.routingConfig opts index addrs routes sourceRoutes).families (by
    cases hstrict : opts.strict
    · exact .inr (by simp [Settings.routingConfig, hstrict])
    · exact .inl (by simp [Settings.routingConfig, hstrict]))
  have hmode : (if opts.include_ = [] then Mode.modeExclude else .modeInclude) = .modeExclude ∨
      (if opts.include_ = [] then Mode.modeExclude else .modeInclude) = .modeInclude := by
    split <;> simp
  have hstrictness : (if opts.strict then Strictness.strict else .nonStrict) = .strict ∨
      (if opts.strict then Strictness.strict else .nonStrict) = .nonStrict := by
    split <;> simp
  unfold Config.validate
  rw [heffective]
  refine check_passes (show ¬ index ≤ 0 by omega) ?_
  refine check_passes (show ¬ reservedRouteTable defaultVPNTable = true by decide) ?_
  refine check_passes (show ¬ reservedRouteTable defaultSafeTable = true by decide) ?_
  refine check_passes (show ¬ defaultVPNTable = defaultSafeTable by decide) ?_
  refine check_passes (show ¬ defaultPriorityBase ≤ 0 by decide) ?_
  refine check_passes (show ¬ defaultPrioritySpan < defaultPrioritySpan by decide) ?_
  refine check_passes (show ¬ firstKernelBuiltinPriority <
    intAdd defaultPriorityBase defaultPrioritySpan by decide) ?_
  refine check_passes hmarks.appBypass (check_passes hmarks.user ?_)
  refine check_passes (Bool.eq_false_iff.mp hmarks.apart) ?_
  refine check_passes (fun h => hmode.elim h.1 h.2) ?_
  refine check_passes (fun h => hstrictness.elim h.1 h.2) ?_
  refine check_passes (by rcases hfamilies.1 with h | h <;> simp [h]) ?_
  exact check_passes (Bool.eq_false_iff.mp hfamilies.2) hroutes

/-! ## The check and the build -/

/-- None of the validations that a build runs on its options rejects them. -/
def Settings.InputsAccepted (s : Settings) (opts : DefaultTunOpts) (index : Int) : Prop :=
  ∃ addrs dnsIP routes sourceRoutes prefixes,
    normalizeTunAddrs opts.tunAddrs s.defaultTunCIDR opts.dnsIP = .ok (addrs, dnsIP) ∧
    dnsIP.isValid = true ∧
    normalizeTunRoutes opts.tunRoutes = .ok routes ∧
    normalizeTunSourceRoutes addrs opts.sourceRoutes = .ok sourceRoutes ∧
    normalizeTunAddrPrefixSet addrs = .ok prefixes ∧
    (s.routingConfig opts index addrs routes sourceRoutes).validate = .ok ()

section Check

variable {s : Settings} {opts : DefaultTunOpts} {activeName : String}

theorem parsedPrefixes_map (ps : List Prefix) : parsedPrefixes (ps.map .ok) = ps := by
  induction ps with
  | nil => rfl
  | cons p ps ih => simpa [parsedPrefixes, Except.toOption] using ih

theorem checkAddrs_ok {addrs : List Prefix} {dnsIP : Addr}
    (h : s.checkAddrs opts = (addrs, dnsIP, [])) :
    normalizeTunAddrs opts.tunAddrs s.defaultTunCIDR opts.dnsIP = .ok (addrs, dnsIP) := by
  simp only [Settings.checkAddrs] at h
  by_cases hissues : prefixListIssues "TunAddrs" opts.tunAddrs ≠ []
  · rw [if_pos hissues] at h
    exact absurd (Prod.mk.inj (Prod.mk.inj h).2).2 hissues
  · rw [if_neg hissues] at h
    cases hnorm : normalizeTunAddrs opts.tunAddrs s.defaultTunCIDR opts.dnsIP with
    | error e =>
      rw [hnorm] at h
      cases h
    | ok result =>
      rw [hnorm] at h
      cases h
      rfl

theorem checkRoutes_ok {routes : List Prefix} (h : checkRoutes opts = (routes, [])) :
    normalizeTunRoutes opts.tunRoutes = .ok routes := by
  simp only [checkRoutes] at h
  by_cases hissues : prefixListIssues "TunRoutes" opts.tunRoutes ≠ []
  · rw [if_pos hissues] at h
    exact absurd (Prod.mk.inj h).2 hissues
  · rw [if_neg hissues] at h
    cases hnorm : normalizeTunRoutes opts.tunRoutes with
    | error e =>
      rw [hnorm] at h
      cases h
    | ok result =>
      rw [hnorm] at h
      cases h
      rfl

theorem checkSourceRoutes_ok {family : AddressFamily} {addrs : List Prefix}
    (h : s.checkSourceRoutes opts family addrs = []) :
    ∃ sourceRoutes, normalizeTunSourceRoutes addrs opts.sourceRoutes = .ok sourceRoutes := by
  unfold Settings.checkSourceRoutes at h
  split at h
  · rename_i hnil
    rw [hnil]
    exact ⟨[], rfl⟩
  · have hnorm := (append_eq_nil_iff.mp h).2
    split at hnorm
    · rename_i sourceRoutes hok
      exact ⟨sourceRoutes, hok⟩
    · cases hnorm

/-- A check without issues has normalised the addresses, the routes and the source
    routes as the build will. -/
theorem checkDefaultTunOpts_ok (h : s.checkDefaultTunOpts opts activeName = []) :
    ∃ addrs dnsIP routes sourceRoutes,
      normalizeTunAddrs opts.tunAddrs s.defaultTunCIDR opts.dnsIP = .ok (addrs, dnsIP) ∧
      dnsIP.isValid = true ∧ normalizeTunRoutes opts.tunRoutes = .ok routes ∧
      normalizeTunSourceRoutes addrs opts.sourceRoutes = .ok sourceRoutes := by
  rcases hcheckAddrs : s.checkAddrs opts with ⟨addrs, dnsIP, addrIssues⟩
  rcases hcheckRoutes : checkRoutes opts with ⟨routes, routeIssues⟩
  simp only [Settings.checkDefaultTunOpts, hcheckAddrs, hcheckRoutes, append_eq_nil_iff] at h
  obtain ⟨⟨⟨⟨⟨⟨⟨⟨-, haddrs⟩, hroutes⟩, hdns⟩, -⟩, -⟩, -⟩, hsource⟩, -⟩ := h
  subst haddrs hroutes
  obtain ⟨sourceRoutes, hsourceRoutes⟩ := checkSourceRoutes_ok hsource
  refine ⟨addrs, dnsIP, routes, sourceRoutes, checkAddrs_ok hcheckAddrs, ?_,
    checkRoutes_ok hcheckRoutes, hsourceRoutes⟩
  by_contra hinvalid
  rw [if_neg hinvalid] at hdns
  cases hdns

/-- If no address given stands with two lengths, no address of the TUN does. -/
theorem oneLength_tunAddrsOf {fallback : Prefix} {ps : List Prefix} :
    OneLength (tunAddrsOf fallback ps) ↔ OneLength (nonLoopback ps) := by
  constructor
  · intro h
    exact h.subset fun p hp => mem_tunAddrsOf.mpr (.inl (mem_nonLoopback.mp hp))
  · intro h p hp q hq heq
    rcases mem_tunAddrsOf.mp hp with hp' | ⟨rfl, -, hnot⟩ <;>
      rcases mem_tunAddrsOf.mp hq with hq' | ⟨rfl, -, hnot'⟩
    · exact h p (mem_nonLoopback.mpr hp') q (mem_nonLoopback.mpr hq') heq
    · exact absurd heq (hnot' p (mem_keptOnce.mpr hp'))
    · exact absurd heq.symm (hnot q (mem_keptOnce.mpr hq'))
    · rfl

end Check

/-- After a check without issues the validations of the build accept the options
    exactly if no address of `TunAddrs` is given with two lengths. -/
theorem checked_accepted_iff {s : Settings} (hmarks : s.MarksValid) (opts : DefaultTunOpts)
    (activeName : String) (hcheck : s.checkDefaultTunOpts opts activeName = []) {index : Int}
    (hindex : 0 < index) :
    s.InputsAccepted opts index ↔ OneLength (nonLoopback (parsedPrefixes opts.tunAddrs)) := by
  obtain ⟨addrs, dnsIP, routes, sourceRoutes, haddrs, hdns, hroutes, hsource⟩ :=
    checkDefaultTunOpts_ok hcheck
  obtain ⟨fallback, ps, -, hps, hout, -⟩ := normalizeTunAddrs_eq_ok haddrs
  have hone : OneLength addrs ↔ OneLength (nonLoopback (parsedPrefixes opts.tunAddrs)) := by
    rw [hps, parsedPrefixes_map, hout]
    exact oneLength_tunAddrsOf
  rw [← hone]
  constructor
  · rintro ⟨addrs', dnsIP', routes', sourceRoutes', prefixes, haddrs', -, -, -, hset, -⟩
    obtain ⟨rfl, -⟩ := Prod.mk.inj (Except.ok.inj (haddrs'.symm.trans haddrs))
    exact (normalizeTunAddrPrefixSet_eq_ok.mp hset).2.1
  · intro hlengths
    have hvalid : ∀ p ∈ addrs, p.isValid = true := by
      intro p hp
      rw [hout] at hp
      rcases mem_tunAddrsOf.mp hp with ⟨hp, -⟩ | ⟨rfl, hfallback, -⟩
      · exact opts.addrs_parsed (.ok p) (by rw [hps]; exact mem_map_of_mem hp) p rfl
      · exact hfallback
    exact ⟨addrs, dnsIP, routes, sourceRoutes, _, haddrs, hdns, hroutes, hsource,
      normalizeTunAddrPrefixSet_eq_ok.mpr ⟨hvalid, hlengths, rfl⟩,
      routingConfig_accepted hmarks opts hindex (normalizeTunSourceRoutes_fit hsource)⟩

/-- A host with the fallback address 10.250.0.1/24 that has no issue with anything. -/
def sampleSettings : Settings where
  defaultTunCIDR := some (.ok (Prefix.ofV4 0x0afa0001#32 24))
  tunOperationError := fun _ _ => none
  appBypassMark := defaultAppBypassMark
  appBypassMask := defaultMarkMask
  userMark := 0x4d000001
  userMarkMask := defaultMarkMask
  operationIssue := fun _ _ => none
  profileIssue := fun _ => none
  ruleIssues := fun _ _ => []
  tunNameVerify := fun _ => (true, true)

theorem sampleSettings_marksValid : sampleSettings.MarksValid where
  appBypass := by decide
  user := by decide
  apart := by decide

/-- Options with the given addresses, routes and source routes only. -/
def plainOpts (addrs routes : List Prefix) (sourceRoutes : List TunSourceRoute)
    (haddrs : ∀ p ∈ addrs, p.isValid = true) (hroutes : ∀ p ∈ routes, p.isValid = true) :
    DefaultTunOpts where
  name := ""
  tunAddrs := addrs.map .ok
  tunRoutes := routes.map .ok
  sourceRoutes := sourceRoutes
  dnsIP := .zero
  mtu := 0
  strict := true
  include_ := []
  exclude := []
  addrs_parsed := by
    intro cidr hcidr p hp
    obtain ⟨q, hq, rfl⟩ := mem_map.mp hcidr
    exact haddrs p (Except.ok.inj hp ▸ hq)
  routes_parsed := by
    intro cidr hcidr p hp
    obtain ⟨q, hq, rfl⟩ := mem_map.mp hcidr
    exact hroutes p (Except.ok.inj hp ▸ hq)

/-- An IPv4 and an IPv6 address, and a route with a preferred source. -/
def dualOpts : DefaultTunOpts :=
  plainOpts [Prefix.ofV4 0x0a000001#32 24, Prefix.ofV6 0xfd000000000000000000000000000001#128 64]
    [Prefix.ofV4 0 0] [⟨Prefix.ofV4 0x0a000100#32 24, .v4 0x0a000001#32⟩] (by decide) (by decide)

theorem checked_accepted_dual :
    sampleSettings.checkDefaultTunOpts dualOpts "" = [] ∧
      sampleSettings.InputsAccepted dualOpts 10 := by
  have hcheck : sampleSettings.checkDefaultTunOpts dualOpts "" = [] := by decide +kernel
  have hlengths : OneLength (nonLoopback (parsedPrefixes dualOpts.tunAddrs)) := by
    unfold OneLength
    decide +kernel
  exact ⟨hcheck, (checked_accepted_iff sampleSettings_marksValid dualOpts "" hcheck
    (by decide)).mpr hlengths⟩

/-- 10.0.0.1 with the lengths 24 and 16. -/
def twoLengths : DefaultTunOpts :=
  plainOpts [Prefix.ofV4 0x0a000001#32 24, Prefix.ofV4 0x0a000001#32 16] [] [] (by decide)
    (by decide)

/-- The check has no issue with one address in two lengths, and the configurator refuses it. -/
theorem check_misses_two_lengths :
    sampleSettings.MarksValid ∧ sampleSettings.checkDefaultTunOpts twoLengths "" = [] ∧
      ¬ sampleSettings.InputsAccepted twoLengths 10 := by
  have hcheck : sampleSettings.checkDefaultTunOpts twoLengths "" = [] := by decide +kernel
  refine ⟨sampleSettings_marksValid, hcheck, ?_⟩
  rintro ⟨addrs, dnsIP, routes, sourceRoutes, prefixes, haddrs, -, -, -, hset, -⟩
  obtain ⟨fallback, ps, hfallback, hps, rfl, -⟩ := normalizeTunAddrs_eq_ok haddrs
  have hlengths := (normalizeTunAddrPrefixSet_eq_ok.mp hset).2.1
  rw [oneLength_tunAddrsOf, ← parsedPrefixes_map ps, ← hps] at hlengths
  have hconflict : ¬ OneLength (nonLoopback (parsedPrefixes twoLengths.tunAddrs)) := by
    unfold OneLength
    decide +kernel
  exact hconflict hlengths

end SysnetLinux.DefaultTun
