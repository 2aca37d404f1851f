/-
  SysnetLinux.Routing.Config

  The data of the routing package (`routing/model.go`) and its configuration with the validation
  every operation starts from (`routing/config.go`).

  Go's `int` is a 64-bit integer: values are `Int`, and every sum the source takes is `intAdd`,
  which wraps.  `Mode` and `Strictness` are integer types, so a value outside the named constants
  can be written; `validate` rejects it.
-/

import Mathlib.Data.Int.Order.Basic
import Mathlib.Algebra.Group.Int.Defs
import SysnetLinux.Netip

namespace SysnetLinux.Routing

open Netip

/-! ## Constants -/

def afInet : Int := 2
def afInet6 : Int := 10

def rtTableDefault : Int := 253
def rtTableMain : Int := 254
def rtTableLocal : Int := 255

/-- `RTNH_F_PERVASIVE` and `RTNH_F_ONLINK`, the next-hop flags a caller sets. -/
def rtnhFPervasive : Nat := 2
def rtnhFOnlink : Nat := 4

def defaultAppBypassMark : BitVec 32 := 0xeb9f0001#32
def defaultMarkMask : BitVec 32 := 0xffffffff#32
def defaultPrioritySpan : Int := 32
def defaultPriorityBase : Int := 10000
def defaultVPNTable : Int := 51820
def defaultSafeTable : Int := 51821
def firstKernelBuiltinPriority : Int := 32766

def ruleOffsetAppMain : Int := 0
def ruleOffsetAppUnreachable : Int := 1
def ruleOffsetTransitionGuard : Int := 2
def ruleOffsetUserFirst : Int := 3

/-- The sum of two 64-bit integers. -/
def intAdd (a b : Int) : Int := Int.bmod (a + b) (2 ^ 64)

theorem intAdd_eq {a b : Int} (hlo : -(2 ^ 63) ≤ a + b) (hhi : a + b < 2 ^ 63) :
    intAdd a b = a + b := by
  unfold intAdd
  rw [Int.bmod_eq_of_le (by omega) (by omega)]

/-! ## Rules and routes -/

inductive RuleAction where
  | lookup
  | unreachable
  deriving DecidableEq, Repr

structure Rule where
  family : Int
  priority : Int
  action : RuleAction
  table : Int
  mark : BitVec 32
  mask : BitVec 32
  deriving DecidableEq, Repr

inductive RouteType where
  | unicast
  | unsupported
  deriving DecidableEq, Repr

structure Nexthop where
  linkIndex : Int
  gateway : Addr
  flags : Nat
  deriving DecidableEq, Repr

structure Route where
  family : Int
  table : Int
  dst : Prefix
  gateway : Addr
  preferredSource : Addr
  linkIndex : Int
  priority : Int
  scope : Int
  flags : Nat
  type : RouteType
  multipath : List Nexthop
  deriving DecidableEq, Repr

/-- A preferred TUN source address for a destination. -/
structure SourceRoute where
  destination : Prefix
  source : Addr
  deriving DecidableEq, Repr

/-- The main-table routes a state is compiled from. -/
structure Snapshot where
  mainRoutes : List Route
  deriving DecidableEq, Repr

/-! ## Configuration -/

inductive Mode where
  | modeExclude
  | modeInclude
  | other (code : Int)
  deriving DecidableEq, Repr

def Mode.string : Mode → String
  | modeExclude => "exclude"
  | modeInclude => "include"
  | other code => "Mode(" ++ toString code ++ ")"

inductive Strictness where
  | strict
  | nonStrict
  | other (code : Int)
  deriving DecidableEq, Repr

def Strictness.string : Strictness → String
  | strict => "strict"
  | nonStrict => "non-strict"
  | other code => "Strictness(" ++ toString code ++ ")"

structure FamilySet where
  ipv4 : Bool
  ipv6 : Bool
  deriving DecidableEq, Repr

def bothFamilies : FamilySet := ⟨true, true⟩

structure Config where
  tunIndex : Int
  sourceRoutes : List SourceRoute
  vpnTable : Int
  safeTable : Int
  priorityBase : Int
  prioritySpan : Int
  appBypassMark : BitVec 32
  appBypassMask : BitVec 32
  userMark : BitVec 32
  userMarkMask : BitVec 32
  mode : Mode
  strictness : Strictness
  families : FamilySet
  tunnelFamilies : FamilySet
  deriving DecidableEq, Repr

/-- The complete result of compiling a validated config. -/
structure DesiredState where
  config : Config
  rules : List Rule
  vpnRoutes : List Route
  safeRoutes : List Route
  deriving DecidableEq, Repr

def defaultConfig : Config where
  tunIndex := 0
  sourceRoutes := []
  vpnTable := defaultVPNTable
  safeTable := defaultSafeTable
  priorityBase := defaultPriorityBase
  prioritySpan := defaultPrioritySpan
  appBypassMark := defaultAppBypassMark
  appBypassMask := defaultMarkMask
  userMark := 0
  userMarkMask := defaultMarkMask
  mode := .modeExclude
  strictness := .strict
  families := bothFamilies
  tunnelFamilies := ⟨false, false⟩

inductive ConfigError where
  | tunIndex
  | vpnTableReserved (table : Int)
  | safeTableReserved (table : Int)
  | tablesEqual
  | priorityBase
  | prioritySpan (span : Int)
  | priorityRange
  | appBypassMask
  | userMarkMask
  | marksOverlap
  | mode (m : Mode)
  | strictness (s : Strictness)
  | noFamily
  | tunnelFamilies
  | sourceDestination (i : Nat)
  | sourceUnmasked (i : Nat)
  | sourceAddress (i : Nat)
  | sourceFamilies (i : Nat)
  | sourceNotCarried (i : Nat)
  | sourceConflict (destination : Prefix)
  | sourceDuplicate (destination : Prefix)
  deriving DecidableEq, Repr

/-- The text behind `ErrInvalidConfig`. -/
def ConfigError.text : ConfigError → String
  | tunIndex => "TUN interface index must be positive"
  | vpnTableReserved t => "VPN table " ++ toString t ++ " is reserved"
  | safeTableReserved t => "safe table " ++ toString t ++ " is reserved"
  | tablesEqual => "VPN and safe tables must differ"
  | priorityBase => "priority base must be above kernel priority 0"
  | prioritySpan n =>
    "priority span " ++ toString n ++ " is smaller than " ++ toString defaultPrioritySpan
  | priorityRange => "priority range overlaps kernel built-in rules"
  | appBypassMask => "app bypass mark mask must be non-zero"
  | userMarkMask => "user mark mask must be non-zero"
  | marksOverlap => "app bypass and user mark selectors overlap"
  | mode m => "unsupported mode " ++ m.string
  | strictness s => "unsupported strictness " ++ s.string
  | noFamily => "at least one IP family must be enabled"
  | tunnelFamilies => "tunnel families must be covered by policy families"
  | sourceDestination i => "source route " ++ toString i ++ " has an invalid destination prefix"
  | sourceUnmasked i => "source route " ++ toString i ++ " destination is not masked"
  | sourceAddress i => "source route " ++ toString i ++ " has an invalid source address"
  | sourceFamilies i => "source route " ++ toString i ++ " uses different address families"
  | sourceNotCarried i =>
    "source route " ++ toString i ++ " uses a family not carried by the TUN"
  | sourceConflict p => "source route destination " ++ p.string ++ " has conflicting sources"
  | sourceDuplicate p => "duplicate source route destination " ++ p.string

def ConfigError.message (e : ConfigError) : String := "routing: invalid config: " ++ e.text

/-! ## Helpers of the validation -/

def reservedRouteTable (table : Int) : Bool :=
  table == 0 || table == rtTableMain || table == rtTableLocal || table == rtTableDefault ||
    decide (table < 0)

def marksOverlap (aValue aMask bValue bMask : BitVec 32) : Bool :=
  aValue &&& (aMask &&& bMask) == bValue &&& (aMask &&& bMask)

def familyConstants (f : FamilySet) : List Int :=
  (if f.ipv4 then [afInet] else []) ++ (if f.ipv6 then [afInet6] else [])

def familyEnabled (families : FamilySet) (family : Int) : Bool :=
  (family == afInet && families.ipv4) || (family == afInet6 && families.ipv6)

def familyDefaultPrefix (family : Int) : Prefix :=
  if family = afInet6 then Prefix.ofV6 0 0 else Prefix.ofV4 0 0

theorem masked_familyDefaultPrefix (family : Int) :
    (familyDefaultPrefix family).masked = familyDefaultPrefix family := by
  unfold familyDefaultPrefix
  split <;> decide +kernel

def effectiveTunnelFamilies (config : Config) : FamilySet :=
  if !config.tunnelFamilies.ipv4 && !config.tunnelFamilies.ipv6 then config.families
  else config.tunnelFamilies

def validPreferredSource (addr : Addr) : Bool :=
  addr.isValid && !addr.is4In6 && !addr.isUnspecified && !addr.isMulticast &&
    !addr.isLoopback && addr.zone == "" && (addr.isGlobalUnicast || addr.isLinkLocalUnicast)

/-- The loop of `validate` over the source routes; `i` is the index of the head
    and `seen` the destinations before it with their sources. -/
def validateSourceRoutes (tunnelFamilies : FamilySet) :
    Nat → List (Prefix × Addr) → List SourceRoute → Except ConfigError Unit
  | _, _, [] => .ok ()
  | i, seen, route :: routes =>
    if !route.destination.isValid || route.destination.addr.is4In6 then
      .error (.sourceDestination i)
    else if route.destination ≠ route.destination.masked then .error (.sourceUnmasked i)
    else if !validPreferredSource route.source then .error (.sourceAddress i)
    else if route.destination.addr.is4 ≠ route.source.is4 then .error (.sourceFamilies i)
    else if !familyEnabled tunnelFamilies (if route.source.is4 then afInet else afInet6) then
      .error (.sourceNotCarried i)
    else match seen.lookup route.destination with
      | some source =>
        if source ≠ route.source then .error (.sourceConflict route.destination)
        else .error (.sourceDuplicate route.destination)
      | none =>
        validateSourceRoutes tunnelFamilies (i + 1)
          ((route.destination, route.source) :: seen) routes

def Config.validate (c : Config) : Except ConfigError Unit :=
  if c.tunIndex ≤ 0 then .error .tunIndex
  else if reservedRouteTable c.vpnTable then .error (.vpnTableReserved c.vpnTable)
  else if reservedRouteTable c.safeTable then .error (.safeTableReserved c.safeTable)
  else if c.vpnTable = c.safeTable then .error .tablesEqual
  else if c.priorityBase ≤ 0 then .error .priorityBase
  else if c.prioritySpan < defaultPrioritySpan then .error (.prioritySpan c.prioritySpan)
  else if firstKernelBuiltinPriority < intAdd c.priorityBase c.prioritySpan then
    .error .priorityRange
  else if c.appBypassMask = 0 then .error .appBypassMask
  else if c.userMarkMask = 0 then .error .userMarkMask
  else if marksOverlap c.appBypassMark c.appBypassMask c.userMark c.userMarkMask then
    .error .marksOverlap
  else if c.mode ≠ .modeExclude ∧ c.mode ≠ .modeInclude then .error (.mode c.mode)
  else if c.strictness ≠ .strict ∧ c.strictness ≠ .nonStrict then
    .error (.strictness c.strictness)
  else if !c.families.ipv4 && !c.families.ipv6 then .error .noFamily
  else if (c.tunnelFamilies.ipv4 && !c.families.ipv4) ||
      (c.tunnelFamilies.ipv6 && !c.families.ipv6) then .error .tunnelFamilies
  else validateSourceRoutes (effectiveTunnelFamilies c) 0 [] c.sourceRoutes

/-! ## What an accepted config gives -/

/-- The facts about a config that `validate` checks and later proofs use. -/
structure Config.Checked (c : Config) : Prop where
  vpn_free : reservedRouteTable c.vpnTable = false
  safe_free : reservedRouteTable c.safeTable = false
  tables_ne : c.vpnTable ≠ c.safeTable
  base_pos : 0 < c.priorityBase
  span_ge : 32 ≤ c.prioritySpan
  range_le : intAdd c.priorityBase c.prioritySpan ≤ 32766
  marks_apart :
    marksOverlap c.appBypassMark c.appBypassMask c.userMark c.userMarkMask = false
  mode_known : c.mode = .modeExclude ∨ c.mode = .modeInclude
  strictness_known : c.strictness = .strict ∨ c.strictness = .nonStrict
  some_family : c.families.ipv4 = true ∨ c.families.ipv6 = true
  tunnel_covered : (c.tunnelFamilies.ipv4 = true → c.families.ipv4 = true) ∧
    (c.tunnelFamilies.ipv6 = true → c.families.ipv6 = true)

/-- One check of `validate` passed. -/
theorem check_passed {p : Prop} [Decidable p] {e : ConfigError} {x : Except ConfigError Unit}
    (h : (if p then .error e else x) = .ok ()) : ¬ p ∧ x = .ok () := by
  by_cases hp : p
  · rw [if_pos hp] at h
    cases h
  · rw [if_neg hp] at h
    exact ⟨hp, h⟩

theorem check_passes {p : Prop} [Decidable p] {e : ConfigError} {x : Except ConfigError Unit}
    (hp : ¬ p) (h : x = .ok ()) : (if p then .error e else x) = .ok () := by
  rw [if_neg hp]
  exact h

theorem Config.checked_of_validate {c : Config} (h : c.validate = .ok ()) : c.Checked := by
  unfold Config.validate at h
  obtain ⟨-, h⟩ := check_passed h
  obtain ⟨hvpn, h⟩ := check_passed h
  obtain ⟨hsafe, h⟩ := check_passed h
  obtain ⟨htables, h⟩ := check_passed h
  obtain ⟨hbase, h⟩ := check_passed h
  obtain ⟨hspan, h⟩ := check_passed h
  obtain ⟨hrange, h⟩ := check_passed h
  obtain ⟨-, h⟩ := check_passed h
  obtain ⟨-, h⟩ := check_passed h
  obtain ⟨hmarks, h⟩ := check_passed h
  obtain ⟨hmode, h⟩ := check_passed h
  obtain ⟨hstrict, h⟩ := check_passed h
  obtain ⟨hfamily, h⟩ := check_passed h
  obtain ⟨htunnel, -⟩ := check_passed h
  simp only [defaultPrioritySpan, firstKernelBuiltinPriority] at hspan hrange
  simp only [Bool.or_eq_true, Bool.and_eq_true, Bool.not_eq_true', not_or, not_and] at htunnel
  exact {
    vpn_free := by simpa using hvpn
    safe_free := by simpa using hsafe
    tables_ne := htables
    base_pos := by omega
    span_ge := by omega
    range_le := by omega
    marks_apart := by simpa using hmarks
    mode_known := by tauto
    strictness_known := by tauto
    some_family := by
      simp only [Bool.and_eq_true, Bool.not_eq_true', not_and, Bool.not_eq_false] at hfamily
      cases h4 : c.families.ipv4 with
      | true => exact .inl rfl
      | false => exact .inr (hfamily h4)
    tunnel_covered := ⟨fun h4 => by simpa using htunnel.1 h4, fun h6 => by simpa using htunnel.2 h6⟩ }

end SysnetLinux.Routing
