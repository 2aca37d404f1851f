/-
  SysnetLinux.DefaultTun.Options

  The options of `BuildDefaultTun` and the validations that read them: the normalisation of source
  routes (`sysnet.go`), `CheckDefaultTunOpts` (`capabilities.go`), the address set of the TUN
  configurator (`tun/address_linux.go`) and the routing config made from the result.
-/

import SysnetLinux.DefaultTun.Update
import SysnetLinux.Lib.Unseen
import SysnetLinux.Rules.Compile

namespace SysnetLinux.DefaultTun

open Netip Routing List

/-! ## Options -/

structure TunSourceRoute where
  destination : Prefix
  source : Addr
  deriving DecidableEq

/-- A text parses to valid prefixes only. -/
def Parsed (cidr : CIDR) : Prop := ∀ p, cidr = .ok p → p.isValid = true

/-- `DefaultTunOpts`; `dnsIP` is what `netip.ParseAddr` makes of its text, the zero
    address if it does not parse. -/
structure DefaultTunOpts where
  name : String
  tunAddrs : List CIDR
  tunRoutes : List CIDR
  sourceRoutes : List TunSourceRoute
  dnsIP : Addr
  mtu : Int
  strict : Bool
  include_ : List Rules.Rule
  exclude : List Rules.Rule
  addrs_parsed : ∀ cidr ∈ tunAddrs, Parsed cidr
  routes_parsed : ∀ cidr ∈ tunRoutes, Parsed cidr

/-! ## Source routes -/

inductive SourceRouteError where
  | destination (i : Nat)
  | source (i : Nat)
  | families (i : Nat)
  | unassigned (i : Nat) (addr : Addr)
  | conflict (destination : Prefix)
  deriving DecidableEq

def SourceRouteError.message : SourceRouteError → String
  | destination i => "source route " ++ toString i ++ " has an invalid destination prefix"
  | source i => "source route " ++ toString i ++ " has an invalid source address"
  | families i => "source route " ++ toString i ++ " uses different address families"
  | unassigned i addr =>
    "source route " ++ toString i ++ " source " ++ addr.string ++
      " is not assigned to the TUN"
  | conflict p => "source route destination " ++ p.string ++ " has conflicting sources"

/-- The checks of the routing package, repeated. -/
def validTunSourceRouteAddr (addr : Addr) : Bool := validPreferredSource addr

/-- The source that a destination has so far. -/
def sourceOf (normalized : List SourceRoute) (destination : Prefix) : Option Addr :=
  (normalized.find? fun route => route.destination = destination).map SourceRoute.source

/-- The loop of `normalizeTunSourceRoutes`; the map `seen` is read off the routes kept so far. -/
def scanSourceRoutes (assigned : List Addr) :
    Nat → List SourceRoute → List TunSourceRoute → Except SourceRouteError (List SourceRoute)
  | _, normalized, [] => .ok normalized
  | i, normalized, route :: routes =>
    if !route.destination.isValid || route.destination.addr.is4In6 then
      .error (.destination i)
    else if !validTunSourceRouteAddr route.source then .error (.source i)
    else if route.destination.addr.is4 ≠ route.source.is4 then .error (.families i)
    else if route.source ∉ assigned then .error (.unassigned i route.source)
    else match sourceOf normalized route.destination.masked with
      | some source =>
        if source ≠ route.source then .error (.conflict route.destination.masked)
        else scanSourceRoutes assigned (i + 1) normalized routes
      | none =>
        scanSourceRoutes assigned (i + 1)
          (normalized ++ [⟨route.destination.masked, route.source⟩]) routes

def normalizeTunSourceRoutes (tunAddrs : List Prefix) (routes : List TunSourceRoute) :
    Except SourceRouteError (List SourceRoute) :=
  scanSourceRoutes (tunAddrs.map Prefix.addr) 0 [] routes

/-! ## The address set of the configurator -/

inductive PrefixSetError where
  | invalid (cidr : Prefix)
  | conflict (addr : Addr) (bits bits' : Int)
  deriving DecidableEq

def PrefixSetError.message : PrefixSetError → String
  | invalid cidr => "invalid address prefix " ++ cidr.string
  | conflict addr bits bits' =>
    "address " ++ addr.string ++ " has conflicting prefix lengths " ++ toString bits ++
      " and " ++ toString bits'

/-- The loop of `normalizeTunAddrPrefixSet`.  Both of its maps are read off the
    prefixes kept so far, since a prefix that passes agrees with them. -/
def scanPrefixSet : List Prefix → List Prefix → Except PrefixSetError (List Prefix)
  | normalized, [] => .ok normalized
  | normalized, cidr :: prefixes =>
    if !cidr.isValid then .error (.invalid cidr)
    else match normalized.find? fun p => p.addr = cidr.addr with
      | some p =>
        if p.bits ≠ cidr.bits then .error (.conflict cidr.addr p.bits cidr.bits)
        else scanPrefixSet (appendNew normalized cidr) prefixes
      | none => scanPrefixSet (appendNew normalized cidr) prefixes

def normalizeTunAddrPrefixSet (prefixes : List Prefix) : Except PrefixSetError (List Prefix) :=
  scanPrefixSet [] prefixes

/-! ## The check -/

inductive CreateOperation where
  | opCreate
  | opCreateNamed
  | opSourceRoutes
  deriving DecidableEq, Repr

inductive RoutingMode where
  | routingFull
  | routingExclude
  | routingInclude
  deriving DecidableEq, Repr

structure RoutingProfileKey where
  family : AddressFamily
  mode : RoutingMode
  strict : Bool
  deriving DecidableEq

structure Issue where
  path : String
  text : String
  deriving DecidableEq

/-- What the build reads of the `System`.  The functions are its capability report: the issue, if
    any, it has with an operation, a profile or a rule, and `TunNameVerify`. -/
structure Settings extends System where
  appBypassMark : BitVec 32
  appBypassMask : BitVec 32
  userMark : BitVec 32
  userMarkMask : BitVec 32
  operationIssue : CreateOperation → AddressFamily → Option Issue
  profileIssue : RoutingProfileKey → Option Issue
  ruleIssues : Rules.Rule → RoutingProfileKey → List Issue
  tunNameVerify : String → Bool × Bool

/-- `path[i]`. -/
def indexed (path : String) (i : Nat) : String := path ++ "[" ++ toString i ++ "]"

def prefixListIssues (path : String) (values : List CIDR) : List Issue :=
  values.zipIdx.filterMap fun
    | (.ok _, _) => none
    | (.error _, i) => some ⟨indexed path i, "invalid IP prefix"⟩

/-- The prefixes of the texts that parse. -/
def parsedPrefixes (values : List CIDR) : List Prefix := values.filterMap Except.toOption

/-- An issue of a rule, under the path of the rule. -/
def Issue.under (path : String) (issue : Issue) : Issue :=
  { issue with path := if issue.path = "" then path else path ++ "." ++ issue.path }

def DefaultTunOpts.mode (opts : DefaultTunOpts) : RoutingMode :=
  if opts.exclude ≠ [] then .routingExclude
  else if opts.include_ ≠ [] then .routingInclude
  else .routingFull

/-- The rules that are checked, and their path. -/
def DefaultTunOpts.checkedRules (opts : DefaultTunOpts) : List Rules.Rule × String :=
  if opts.exclude = [] ∧ opts.include_ ≠ [] then (opts.include_, "Include")
  else (opts.exclude, "Exclude")

def checkRoutes (opts : DefaultTunOpts) : List Prefix × List Issue :=
  let routeIssues := prefixListIssues "TunRoutes" opts.tunRoutes
  if routeIssues ≠ [] then (parsedPrefixes opts.tunRoutes, routeIssues)
  else match normalizeTunRoutes opts.tunRoutes with
    | .ok routes => (routes, [])
    | .error _ => ([], [⟨"TunRoutes", "invalid TUN routes"⟩])

namespace Settings

variable (s : Settings)

/-- The addresses and the DNS address the check goes on with, and its issues. -/
def checkAddrs (opts : DefaultTunOpts) : List Prefix × Addr × List Issue :=
  let addrIssues := prefixListIssues "TunAddrs" opts.tunAddrs
  if addrIssues ≠ [] then (parsedPrefixes opts.tunAddrs, .zero, addrIssues)
  else match normalizeTunAddrs opts.tunAddrs s.defaultTunCIDR opts.dnsIP with
    | .ok (addrs, dnsIP) => (addrs, dnsIP, [])
    | .error _ => ([], .zero, [⟨"TunAddrs", "invalid TUN addresses"⟩])

def checkSourceRoutes (opts : DefaultTunOpts) (family : AddressFamily) (addrs : List Prefix) :
    List Issue :=
  if opts.sourceRoutes = [] then []
  else
    ((s.operationIssue .opSourceRoutes family).toList.map fun issue =>
      { issue with path := "SourceRoutes" }) ++
    match normalizeTunSourceRoutes addrs opts.sourceRoutes with
    | .ok _ => []
    | .error _ => [⟨"SourceRoutes", "invalid source-route policy"⟩]

/-- The name of the active default TUN is free for its own rebuild. -/
def checkName (opts : DefaultTunOpts) (activeName : String) : List Issue :=
  if opts.name = "" then []
  else
    let valid := (s.tunNameVerify opts.name).1
    let free := (s.tunNameVerify opts.name).2 || (valid && activeName == opts.name)
    if !valid || !free then [⟨"Name", "TUN name is invalid or already in use"⟩] else []

/-- `CheckDefaultTunOpts`. -/
def checkDefaultTunOpts (opts : DefaultTunOpts) (activeName : String) : List Issue :=
  let (addrs, dnsIP, addrIssues) := s.checkAddrs opts
  let (routes, routeIssues) := checkRoutes opts
  let family := orDual (optionFamily addrs routes)
  let profileKey : RoutingProfileKey := ⟨family, opts.mode, opts.strict⟩
  (if opts.exclude ≠ [] ∧ opts.include_ ≠ [] then
    [⟨"Include", "Include and Exclude are mutually exclusive"⟩] else []) ++
  addrIssues ++ routeIssues ++
  (if dnsIP.isValid then [] else [⟨"DnsIP", "default TUN DNS address is unavailable"⟩]) ++
  (s.operationIssue (if opts.name = "" then .opCreate else .opCreateNamed) family).toList ++
  (s.profileIssue profileKey).toList ++
  (opts.checkedRules.1.zipIdx.flatMap fun (rule, i) =>
    (s.ruleIssues rule profileKey).map (Issue.under (indexed opts.checkedRules.2 i))) ++
  s.checkSourceRoutes opts family addrs ++ s.checkName opts activeName

/-- The routing config of a build. -/
def routingConfig (opts : DefaultTunOpts) (index : Int) (addrs routes : List Prefix)
    (sourceRoutes : List SourceRoute) : Config :=
  { defaultConfig with
    tunIndex := index
    appBypassMark := s.appBypassMark
    appBypassMask := s.appBypassMask
    userMark := s.userMark
    userMarkMask := s.userMarkMask
    tunnelFamilies := routeFamilies addrs routes
    families := if opts.strict then bothFamilies else routeFamilies addrs routes
    sourceRoutes := sourceRoutes
    mode := if opts.include_ = [] then .modeExclude else .modeInclude
    strictness := if opts.strict then .strict else .nonStrict }

end Settings

/-! ## What the normalisations return -/

/-- The prefixes a normalisation keeps. -/
def nonLoopback (ps : List Prefix) : List Prefix := ps.filter fun p => !p.addr.isLoopback

/-- Each of them once. -/
def keptOnce (ps : List Prefix) : List Prefix := (nonLoopback ps).foldl appendNew []

/-- The addresses of a TUN that is given the prefixes `ps`. -/
def tunAddrsOf (fallback : Prefix) (ps : List Prefix) : List Prefix :=
  if fallback.isValid ∧ ∀ q ∈ keptOnce ps, q.addr ≠ fallback.addr then keptOnce ps ++ [fallback]
  else keptOnce ps

/-- The DNS address of a TUN with the addresses `out`. -/
def dnsAddrOf (fallback : Prefix) (out : List Prefix) (dnsIP : Addr) : Addr :=
  if dnsIP.isValid ∧ dnsIP ∈ out.map Prefix.addr then dnsIP
  else if fallback.isValid then fallback.addr else .zero

section Appended

variable {out ps : List Prefix} {p q : Prefix}

theorem mem_appendNew : p ∈ appendNew out q ↔ p ∈ out ∨ p = q := Unseen.mem_append

theorem mem_foldl_appendNew : p ∈ ps.foldl appendNew out ↔ p ∈ out ∨ p ∈ ps := Unseen.mem_foldl

theorem nodup_foldl_appendNew (h : out.Nodup) : (ps.foldl appendNew out).Nodup :=
  Unseen.nodup_foldl h

theorem foldl_appendNew_of_nodup (h : (out ++ ps).Nodup) :
    ps.foldl appendNew out = out ++ ps := Unseen.foldl_of_nodup h

theorem mem_nonLoopback : p ∈ nonLoopback ps ↔ p ∈ ps ∧ p.addr.isLoopback = false := by
  simp [nonLoopback]

theorem mem_keptOnce : p ∈ keptOnce ps ↔ p ∈ ps ∧ p.addr.isLoopback = false := by
  simp [keptOnce, mem_foldl_appendNew, mem_nonLoopback]

theorem nodup_keptOnce (ps : List Prefix) : (keptOnce ps).Nodup :=
  nodup_foldl_appendNew nodup_nil

theorem keptOnce_eq_self (hnodup : ps.Nodup) (h : ∀ p ∈ ps, p.addr.isLoopback = false) :
    keptOnce ps = ps := by
  have hall : nonLoopback ps = ps := filter_eq_self.mpr fun p hp => by simp [h p hp]
  rw [keptOnce, hall, foldl_appendNew_of_nodup (by simpa using hnodup), nil_append]

@[simp] theorem keptOnce_keptOnce (ps : List Prefix) : keptOnce (keptOnce ps) = keptOnce ps :=
  keptOnce_eq_self (nodup_keptOnce ps) fun _ hp => (mem_keptOnce.mp hp).2

end Appended

theorem scanTunRoutes_map (out ps : List Prefix) :
    scanTunRoutes out (ps.map .ok) = .ok ((nonLoopback ps).foldl appendNew out) := by
  induction ps generalizing out with
  | nil => rfl
  | cons p ps ih =>
    rw [map_cons, scanTunRoutes]
    cases hloop : p.addr.isLoopback with
    | true | false => simp [ih, nonLoopback, hloop]

variable {out : List Prefix} {fallback : Prefix}

theorem scanTunRoutes_parses {out' : List Prefix} {routes : List CIDR}
    (h : scanTunRoutes out routes = .ok out') : ∃ ps : List Prefix, routes = ps.map .ok := by
  induction routes generalizing out with
  | nil => exact ⟨[], rfl⟩
  | cons cidr routes ih =>
    cases cidr with
    | error e => cases h
    | ok p =>
      rw [scanTunRoutes] at h
      split at h
      all_goals
        obtain ⟨ps, rfl⟩ := ih h
        exact ⟨p :: ps, rfl⟩

/-- `normalizeTunRoutes` keeps each prefix that is no loopback once. -/
theorem normalizeTunRoutes_eq_ok {routes : List CIDR} : normalizeTunRoutes routes = .ok out ↔
      ∃ ps : List Prefix, routes = ps.map .ok ∧ out = keptOnce ps := by
  constructor
  · intro h
    obtain ⟨ps, rfl⟩ := scanTunRoutes_parses h
    rw [normalizeTunRoutes, scanTunRoutes_map] at h
    exact ⟨ps, rfl, (Except.ok.inj h).symm⟩
  · rintro ⟨ps, rfl, rfl⟩
    exact scanTunRoutes_map [] ps

theorem scanTunAddrs_map (fallback : Prefix) (dnsAddr : Addr) (scan : AddrScan) (ps : List Prefix) :
    scanTunAddrs fallback dnsAddr scan (ps.map .ok) = .ok {
      out := (nonLoopback ps).foldl appendNew scan.out
      containsDNS := scan.containsDNS ||
        (nonLoopback ps).any fun p => dnsAddr.isValid && p.addr == dnsAddr
      containsFallbackAddr := scan.containsFallbackAddr ||
        (nonLoopback ps).any fun p => fallback.isValid && p.addr == fallback.addr } := by
  induction ps generalizing scan with
  | nil => simp [scanTunAddrs, nonLoopback]
  | cons p ps ih =>
    rw [map_cons, scanTunAddrs]
    cases hloop : p.addr.isLoopback with
    | true => simp [ih, nonLoopback, hloop]
    | false => simp [ih, nonLoopback, hloop, Bool.or_assoc]

theorem scanTunAddrs_parses {dnsAddr : Addr} {scan scan' : AddrScan} {addrs : List CIDR}
    (h : scanTunAddrs fallback dnsAddr scan addrs = .ok scan') :
    ∃ ps : List Prefix, addrs = ps.map .ok := by
  induction addrs generalizing scan with
  | nil => exact ⟨[], rfl⟩
  | cons cidr addrs ih =>
    cases cidr with
    | error e => cases h
    | ok p =>
      rw [scanTunAddrs] at h
      split at h
      all_goals
        obtain ⟨ps, rfl⟩ := ih h
        exact ⟨p :: ps, rfl⟩

/-- The scan has met an address: one of the kept prefixes has it. -/
theorem any_addr_iff {valid : Bool} {addr : Addr} {ps : List Prefix} :
    ((nonLoopback ps).any fun p => valid && p.addr == addr) = true ↔
      valid = true ∧ addr ∈ (keptOnce ps).map Prefix.addr := by
  simp only [any_eq_true, Bool.and_eq_true, beq_iff_eq, mem_map, mem_nonLoopback, mem_keptOnce]
  constructor
  · rintro ⟨p, hp, hvalid, rfl⟩
    exact ⟨hvalid, p, hp, rfl⟩
  · rintro ⟨hvalid, p, hp, rfl⟩
    exact ⟨p, hp, hvalid, rfl⟩

/-- The fallback is added unless an address given is its own. -/
theorem addsFallback_iff {ps : List Prefix} : (fallback.isValid &&
      !((nonLoopback ps).any fun p => fallback.isValid && p.addr == fallback.addr)) = true ↔
      fallback.isValid = true ∧ ∀ q ∈ keptOnce ps, q.addr ≠ fallback.addr := by
  rw [Bool.and_eq_true, Bool.not_eq_true', Bool.eq_false_iff, ne_eq, any_addr_iff]
  constructor
  · rintro ⟨hvalid, hnot⟩
    exact ⟨hvalid, fun q hq heq => hnot ⟨hvalid, mem_map.mpr ⟨q, hq, heq⟩⟩⟩
  · rintro ⟨hvalid, hnot⟩
    refine ⟨hvalid, fun hmem => ?_⟩
    obtain ⟨q, hq, heq⟩ := mem_map.mp hmem.2
    exact hnot q hq heq

theorem normalizeTunAddrs_map {fallbackCIDR : Option CIDR}
    (hf : fallbackCIDR.getD (.ok Prefix.zero) = .ok fallback) (ps : List Prefix) (dnsIP : Addr) :
    normalizeTunAddrs (ps.map .ok) fallbackCIDR dnsIP =
      .ok (tunAddrsOf fallback ps, dnsAddrOf fallback (tunAddrsOf fallback ps) dnsIP) := by
  simp only [normalizeTunAddrs, hf, scanTunAddrs_map, Bool.false_or]
  rw [show (nonLoopback ps).foldl appendNew [] = keptOnce ps from rfl]
  by_cases hadd : fallback.isValid = true ∧ ∀ q ∈ keptOnce ps, q.addr ≠ fallback.addr
  · -- No address given is the fallback's, so it comes last.
    have hout : tunAddrsOf fallback ps = keptOnce ps ++ [fallback] :=
      if_pos hadd
    have hnew : fallback ∉ keptOnce ps := fun hmem =>
      hadd.2 fallback hmem rfl
    have hcontains : (dnsIP.isValid && (((nonLoopback ps).any fun p =>
        dnsIP.isValid && p.addr == dnsIP) || (true && dnsIP.isValid && fallback.addr == dnsIP))) =
          true ↔ dnsIP.isValid = true ∧ dnsIP ∈ (tunAddrsOf fallback ps).map Prefix.addr := by
      rw [hout, Bool.and_eq_true, Bool.or_eq_true, any_addr_iff]
      simp only [Bool.true_and, Bool.and_eq_true, beq_iff_eq, map_append, mem_append,
        map_singleton, mem_singleton, eq_comm (a := dnsIP)]
      tauto
    simp only [addsFallback_iff.mpr hadd, hcontains, if_true, appendNew, if_neg hnew, dnsAddrOf,
      ← hout]
    split_ifs <;> rfl
  · have hout : tunAddrsOf fallback ps = keptOnce ps := if_neg hadd
    have hcontains : (dnsIP.isValid && (((nonLoopback ps).any fun p =>
        dnsIP.isValid && p.addr == dnsIP) || (false && dnsIP.isValid && fallback.addr == dnsIP))) =
          true ↔ dnsIP.isValid = true ∧ dnsIP ∈ (tunAddrsOf fallback ps).map Prefix.addr := by
      rw [hout, Bool.and_eq_true, Bool.or_eq_true, any_addr_iff]
      simp
    simp only [Bool.eq_false_iff.mpr (mt addsFallback_iff.mp hadd), hcontains, Bool.false_eq_true,
      if_false, dnsAddrOf, ← hout]
    split_ifs <;> rfl

/-- What `normalizeTunAddrs` accepts, and what it makes of it. -/
theorem normalizeTunAddrs_eq_ok {addrs : List CIDR} {fallbackCIDR : Option CIDR} {dnsIP d : Addr}
    (h : normalizeTunAddrs addrs fallbackCIDR dnsIP = .ok (out, d)) :
    ∃ (fallback : Prefix) (ps : List Prefix),
      fallbackCIDR.getD (.ok Prefix.zero) = .ok fallback ∧ addrs = ps.map .ok ∧
        out = tunAddrsOf fallback ps ∧ d = dnsAddrOf fallback out dnsIP := by
  cases hf : fallbackCIDR.getD (.ok Prefix.zero) with
  | error e =>
    rw [normalizeTunAddrs, hf] at h
    cases h
  | ok fallback =>
    have hparses : ∃ ps : List Prefix, addrs = ps.map .ok := by
      simp only [normalizeTunAddrs, hf] at h
      cases hscan : scanTunAddrs fallback dnsIP ⟨[], false, false⟩ addrs with
      | error e =>
        rw [hscan] at h
        cases h
      | ok scan => exact scanTunAddrs_parses hscan
    obtain ⟨ps, rfl⟩ := hparses
    rw [normalizeTunAddrs_map hf] at h
    obtain ⟨rfl, rfl⟩ := Prod.mk.inj (Except.ok.inj h)
    exact ⟨fallback, ps, rfl, rfl, rfl, rfl⟩

/-! ## Normalised addresses -/

section Normalised

variable {fallback : Prefix} {ps : List Prefix} {p : Prefix}

theorem nodup_tunAddrsOf (fallback : Prefix) (ps : List Prefix) :
    (tunAddrsOf fallback ps).Nodup := by
  unfold tunAddrsOf
  split
  · rename_i hadd
    rw [nodup_append]
    refine ⟨nodup_keptOnce ps, nodup_singleton _, fun a ha b hb heq => ?_⟩
    rw [mem_singleton.mp hb] at heq
    exact hadd.2 a ha (congrArg Prefix.addr heq)
  · exact nodup_keptOnce ps

theorem mem_tunAddrsOf : p ∈ tunAddrsOf fallback ps ↔
    (p ∈ ps ∧ p.addr.isLoopback = false) ∨ (p = fallback ∧ fallback.isValid = true ∧
      ∀ q ∈ keptOnce ps, q.addr ≠ fallback.addr) := by
  unfold tunAddrsOf
  split
  · rename_i hadd
    rw [mem_append, mem_keptOnce, mem_singleton]
    exact or_congr Iff.rfl ⟨fun h => ⟨h, hadd⟩, fun h => h.1⟩
  · rename_i hadd
    rw [mem_keptOnce]
    constructor
    · exact .inl
    · rintro (h | ⟨-, hnot⟩)
      · exact h
      · exact absurd hnot hadd

theorem fallback_addr_mem (hvalid : fallback.isValid = true) :
    fallback.addr ∈ (tunAddrsOf fallback ps).map Prefix.addr := by
  by_cases h : ∀ q ∈ keptOnce ps, q.addr ≠ fallback.addr
  · exact mem_map.mpr ⟨fallback, mem_tunAddrsOf.mpr (.inr ⟨rfl, hvalid, h⟩), rfl⟩
  · push Not at h
    obtain ⟨q, hq, heq⟩ := h
    exact mem_map.mpr ⟨q, mem_tunAddrsOf.mpr (.inl (mem_keptOnce.mp hq)), heq⟩

theorem dnsAddrOf_mem {dnsIP : Addr}
    (h : (dnsAddrOf fallback (tunAddrsOf fallback ps) dnsIP).isValid = true) :
    dnsAddrOf fallback (tunAddrsOf fallback ps) dnsIP ∈
      (tunAddrsOf fallback ps).map Prefix.addr := by
  unfold dnsAddrOf at h ⊢
  split
  · rename_i hdns
    exact hdns.2
  · split
    · rename_i hvalid
      exact fallback_addr_mem hvalid
    · rename_i hdns hvalid
      rw [if_neg hdns, if_neg hvalid] at h
      cases h

theorem tunAddrsOf_tunAddrsOf (fallback : Prefix) (ps : List Prefix) :
    tunAddrsOf fallback (tunAddrsOf fallback ps) = tunAddrsOf fallback ps := by
  by_cases hadd : fallback.isValid = true ∧ ∀ q ∈ keptOnce ps, q.addr ≠ fallback.addr
  · have hout : tunAddrsOf fallback ps = keptOnce ps ++ [fallback] := if_pos hadd
    cases hloop : fallback.addr.isLoopback with
    | false =>
      -- The fallback is kept as an address that was given.
      have hkept : keptOnce (tunAddrsOf fallback ps) = tunAddrsOf fallback ps := by
        refine keptOnce_eq_self (nodup_tunAddrsOf fallback ps) fun p hp => ?_
        rcases mem_tunAddrsOf.mp hp with h | ⟨rfl, -⟩
        · exact h.2
        · exact hloop
      have hmem : fallback ∈ tunAddrsOf fallback ps := by simp [hout]
      rw [tunAddrsOf.eq_def fallback (tunAddrsOf fallback ps), hkept, if_neg]
      exact fun h => h.2 fallback hmem rfl
    | true =>
      -- The fallback is dropped as a loopback and added again.
      have hkept : keptOnce (keptOnce ps ++ [fallback]) = keptOnce ps := by
        have hdrop : nonLoopback (keptOnce ps ++ [fallback]) = nonLoopback (keptOnce ps) := by
          simp [nonLoopback, hloop]
        rw [keptOnce, hdrop]
        exact keptOnce_keptOnce ps
      rw [hout, tunAddrsOf, hkept, if_pos hadd]
  · have hout : tunAddrsOf fallback ps = keptOnce ps := if_neg hadd
    rw [hout, tunAddrsOf, keptOnce_keptOnce, if_neg hadd]

theorem dnsAddrOf_dnsAddrOf {dnsIP : Addr}
    (h : (dnsAddrOf fallback (tunAddrsOf fallback ps) dnsIP).isValid = true) :
    dnsAddrOf fallback (tunAddrsOf fallback ps)
        (dnsAddrOf fallback (tunAddrsOf fallback ps) dnsIP) =
      dnsAddrOf fallback (tunAddrsOf fallback ps) dnsIP := by
  rw [dnsAddrOf.eq_def fallback _ (dnsAddrOf fallback (tunAddrsOf fallback ps) dnsIP), if_pos]
  exact ⟨h, dnsAddrOf_mem h⟩

end Normalised

end SysnetLinux.DefaultTun
