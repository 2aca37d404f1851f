/-
  SysnetLinux.Tun.Address

  The address reconciliation of the `tun` package (`address_linux.go`): the planners of
  `SetTunAddrs` and `AddTunAddr`, the programs that list the addresses of a link, apply the
  planned changes and verify the result, and a link in memory that answers them
  (`address_test.go`).

  An address of a link is its network and the flags that the package reads; without a network it
  is no valid prefix, and a network from the kernel has a contiguous mask.
-/

import SysnetLinux.DefaultTun.Options

namespace SysnetLinux.TunAddress

open Netip DefaultTun CallProg CallProg.Prog List

/-! ## Addresses of a link -/

/-- `IFA_F_NODAD`, `IFA_F_TENTATIVE` and `IFA_F_DADFAILED`. -/
structure Flags where
  nodad : Bool
  tentative : Bool
  dadfailed : Bool
  deriving DecidableEq

/-- `Flags & unusableIPv6AddrFlags != 0`. -/
def Flags.unusable (f : Flags) : Bool := f.tentative || f.dadfailed

/-- `netlink.Addr`. -/
structure NlAddr where
  net : Prefix
  flags : Flags
  deriving DecidableEq

/-- `addrFromIP` turns an IPv4-mapped address into an IPv4 address, which has fewer bits
    than the mask. -/
def tunAddrPrefix (addr : NlAddr) : Option Prefix :=
  if addr.net.isValid && !addr.net.addr.is4In6 then some addr.net else none

def netlinkAddrFromPrefix (p : Prefix) : NlAddr := ⟨p, p.addr.is6, false, false⟩

inductive TunAddrChange where
  | tunAddrReplace (p : Prefix)
  | tunAddrDelete (addr : NlAddr)
  deriving DecidableEq

/-! ## Planning a replacement -/

/-- The addresses of a link with their positions. -/
abbrev Current := List (NlAddr × Nat)

/-- `currentByPrefix`: the first one with the prefix. -/
def currentByPrefix (current : Current) (p : Prefix) : Option (NlAddr × Nat) :=
  current.find? fun x => tunAddrPrefix x.1 = some p

def currentByIP (current : Current) (ip : Addr) : Current :=
  current.filter fun x => (tunAddrPrefix x.1).map Prefix.addr = some ip

def retained (desired : List Prefix) (addr : NlAddr) : Bool :=
  (tunAddrPrefix addr).any fun p => p ∈ desired

/-- First loop: usable IPv6 addresses that have duplicate detection enabled. -/
def disableDAD (current : Current) (p : Prefix) : List TunAddrChange :=
  match currentByPrefix current p with
  | none => []
  | some (addr, _) =>
    if !p.addr.is6 || addr.flags.unusable || addr.flags.nodad then [] else [.tunAddrReplace p]

/-- Second loop: addresses that are new on the link. -/
def addMissing (current : Current) (p : Prefix) : List TunAddrChange :=
  match currentByPrefix current p, currentByIP current p.addr with
  | none, [] => [.tunAddrReplace p]
  | _, _ => []

/-- Third loop: unusable IPv6 addresses.  It returns what is marked as deleted with the changes. -/
def recreateUnusable (current : Current) : List Prefix → List Nat × List TunAddrChange
  | [] => ([], [])
  | p :: desired =>
    let rest := recreateUnusable current desired
    match currentByPrefix current p with
    | none => rest
    | some (addr, i) =>
      if !p.addr.is6 || !addr.flags.unusable then rest
      else (i :: rest.1, .tunAddrDelete addr :: .tunAddrReplace p :: rest.2)

/-- Fourth loop: addresses that are on the link with another length. -/
def resolveConflicts (current : Current) :
    List Prefix → List Nat → List Nat × List TunAddrChange
  | [], deleted => (deleted, [])
  | p :: desired, deleted =>
    match currentByPrefix current p, currentByIP current p.addr with
    | some _, _ => resolveConflicts current desired deleted
    | none, [] => resolveConflicts current desired deleted
    | none, conflict :: conflicts =>
      let fresh := (conflict :: conflicts).filter fun x => x.2 ∉ deleted
      let rest := resolveConflicts current desired (deleted ++ fresh.map Prod.snd)
      (rest.1, fresh.map (fun x => .tunAddrDelete x.1) ++ .tunAddrReplace p :: rest.2)

/-- Last loop: what is not wanted. -/
def deleteOthers (current : Current) (desired : List Prefix) (deleted : List Nat) :
    List TunAddrChange :=
  (current.filter fun x => !(retained desired x.1) && x.2 ∉ deleted).map
    fun x => .tunAddrDelete x.1

def planTunAddrReconciliation (addrs : List NlAddr) (desired : List Prefix) :
    Except PrefixSetError (List TunAddrChange) :=
  match normalizeTunAddrPrefixSet desired with
  | .error e => .error e
  | .ok desired =>
    let current := addrs.zipIdx
    let unusable := recreateUnusable current desired
    let conflicts := resolveConflicts current desired unusable.1
    .ok (desired.flatMap (disableDAD current) ++ desired.flatMap (addMissing current) ++
      unusable.2 ++ conflicts.2 ++ deleteOthers current desired conflicts.1)

/-! ## Planning an addition -/

def planExistingIPv6AddrAddition (current : NlAddr) (p : Prefix) : List TunAddrChange :=
  if current.flags.nodad && !current.flags.unusable then []
  else if !current.flags.unusable then [.tunAddrReplace p]
  else [.tunAddrDelete current, .tunAddrReplace p]

/-- The loop of `planTunAddrAddition`, with the conflicts so far. -/
def scanAddition (p : Prefix) : List NlAddr → List NlAddr → List TunAddrChange
  | conflicts, [] => conflicts.map .tunAddrDelete ++ [.tunAddrReplace p]
  | conflicts, addr :: addrs =>
    match tunAddrPrefix addr with
    | none => scanAddition p conflicts addrs
    | some q =>
      if q.addr ≠ p.addr then scanAddition p conflicts addrs
      else if q ≠ p then scanAddition p (conflicts ++ [addr]) addrs
      else planExistingIPv6AddrAddition addr p

def planTunAddrAddition (addrs : List NlAddr) (p : Prefix) :
    Except PrefixSetError (List TunAddrChange) :=
  if !p.isValid then .error (.invalid p)
  else if !p.addr.is6 then .ok [.tunAddrReplace p]
  else .ok (scanAddition p [] addrs)

/-! ## Programs -/

inductive AddrCall where
  | list
  | replace (addr : NlAddr)
  | delete (addr : NlAddr)
  deriving DecidableEq

def AddrReply : AddrCall → Type
  | .list => List NlAddr
  | _ => Unit

inductive AddrError (E : Type) where
  | prefixSet (e : PrefixSetError)
  | list (e : E)
  | replace (p : Prefix) (e : E)
  | delete (addr : NlAddr) (e : E)
  | verify (e : E)
  | absent (p : Prefix)
  | nodadNotSet (p : Prefix)
  | unusable (p : Prefix) (flags : Flags)

/-- The text an error starts with. -/
def AddrError.context {E : Type} : AddrError E → String
  | .prefixSet e => e.message
  | .list _ => "list addresses: "
  | .replace p _ => "replace address " ++ p.string ++ ": "
  | .delete addr _ => "delete address " ++ addr.net.string ++ ": "
  | .verify _ => "verify addresses: "
  | .absent p => "verify address " ++ p.string ++ ": address is absent"
  | .nodadNotSet p => "verify address " ++ p.string ++ ": IFA_F_NODAD is not set"
  | .unusable p _ => "verify address " ++ p.string ++ ": unusable flags "

abbrev AddrProg (E α : Type) := Prog AddrCall AddrReply E (Except (AddrError E) α)

variable {E : Type}

def applyTunAddrChange : TunAddrChange → AddrProg E Unit
  | .tunAddrReplace p => attempt (.replace p) (.replace (netlinkAddrFromPrefix p))
  | .tunAddrDelete addr => attempt (.delete addr) (.delete addr)

def applyTunAddrChanges (changes : List TunAddrChange) : AddrProg E Unit :=
  forEach applyTunAddrChange changes

/-- What is wrong with a wanted prefix on a link.  The map of the source keeps the last
    address with a prefix. -/
def verifyPrefix (current : List NlAddr) (p : Prefix) : Option (AddrError E) :=
  match current.reverse.find? fun addr => tunAddrPrefix addr = some p with
  | none => some (.absent p)
  | some addr =>
    if !p.addr.is6 then none
    else if !addr.flags.nodad then some (.nodadNotSet p)
    else if addr.flags.unusable then some (.unusable p addr.flags)
    else none

def verifyTunAddrPrefixes (desired : List Prefix) : AddrProg E Unit :=
  .call .list fun
    | .error e => .ret (.error (.verify e))
    | .ok (current : List NlAddr) =>
      match desired.findSome? (verifyPrefix current) with
      | some e => .ret (.error e)
      | none => .ret (.ok ())

/-- The addresses of the link, as `SetTunAddrs` and `AddTunAddr` read them. -/
def listAddrs : AddrProg E (List NlAddr) :=
  .call .list fun
    | .error e => .ret (.error (.list e))
    | .ok (current : List NlAddr) => .ret (.ok current)

/-- Apply a plan, unless the planner has refused. -/
def applyPlan : Except PrefixSetError (List TunAddrChange) → AddrProg E Unit
  | .error e => .ret (.error (.prefixSet e))
  | .ok changes => applyTunAddrChanges changes

def setTunAddrPrefixes (prefixes : List Prefix) : AddrProg E Unit :=
  match normalizeTunAddrPrefixSet prefixes with
  | .error e => .ret (.error (.prefixSet e))
  | .ok desired =>
    listAddrs.andThen fun current =>
    (applyPlan (planTunAddrReconciliation current desired)).andThen fun _ =>
    verifyTunAddrPrefixes desired

def addTunAddrPrefix (p : Prefix) : AddrProg E Unit :=
  if !p.isValid then .ret (.error (.prefixSet (.invalid p)))
  else
    listAddrs.andThen fun current =>
    (applyPlan (planTunAddrAddition current p)).andThen fun _ =>
    verifyTunAddrPrefixes [p]

/-! ## A link in memory -/

/-- What `Replace` finds on the link: the prefix, or for IPv6 the address. -/
def NlAddr.replacedBy (addr new : NlAddr) : Bool :=
  if new.net.addr.is6 then addr.net.addr == new.net.addr else addr.net == new.net

/-- An address that is replaced keeps its prefix and its state. -/
def NlAddr.replace (addr new : NlAddr) : NlAddr where
  net := addr.net
  flags :=
    { nodad := new.flags.nodad
      tentative := new.flags.tentative || addr.flags.tentative
      dadfailed := new.flags.dadfailed || addr.flags.dadfailed }

def replaceAddr (new : NlAddr) : List NlAddr → List NlAddr
  | [] => [new]
  | addr :: addrs =>
    if addr.replacedBy new then addr.replace new :: addrs else addr :: replaceAddr new addrs

def deleteAddr (addr : NlAddr) (addrs : List NlAddr) : List NlAddr :=
  addrs.eraseP fun a => a.net == addr.net

/-- The addresses of a link: prefixes that can be decoded, each of them once, and one
    prefix for each IPv6 address. -/
structure WellKept (addrs : List NlAddr) : Prop where
  decodable : ∀ a ∈ addrs, tunAddrPrefix a = some a.net
  distinct : (addrs.map NlAddr.net).Nodup
  single : ∀ a ∈ addrs, ∀ b ∈ addrs, a.net.addr.is6 = true → a.net.addr = b.net.addr →
    a.net = b.net

theorem NlAddr.replacedBy_addr {addr new : NlAddr} (h : addr.replacedBy new = true) :
    addr.net.addr = new.net.addr := by
  unfold NlAddr.replacedBy at h
  split at h
  · simpa using h
  · rw [eq_of_beq h]

/-- The networks behind a replacement: the same, or one more that is new. -/
theorem map_net_replaceAddr (new : NlAddr) (addrs : List NlAddr) :
    (replaceAddr new addrs).map NlAddr.net = addrs.map NlAddr.net ∨
      (∀ a ∈ addrs, a.replacedBy new = false) ∧ (replaceAddr new addrs) = addrs ++ [new] := by
  induction addrs with
  | nil => exact .inr ⟨by simp, rfl⟩
  | cons a addrs ih =>
    rw [replaceAddr]
    split
    · exact .inl rfl
    · rename_i hnot
      rcases ih with ih | ⟨hnew, ih⟩
      · exact .inl (by rw [map_cons, ih, map_cons])
      · refine .inr ⟨?_, by rw [ih]; rfl⟩
        exact forall_mem_cons.mpr ⟨by simpa using hnot, hnew⟩

/-- It is the networks that are well kept. -/
theorem WellKept.of_map_net {addrs addrs' : List NlAddr} (h : WellKept addrs)
    (hmap : addrs'.map NlAddr.net = addrs.map NlAddr.net) : WellKept addrs' := by
  have hmem : ∀ a ∈ addrs', ∃ b ∈ addrs, b.net = a.net := by
    intro a ha
    have : a.net ∈ addrs.map NlAddr.net := hmap ▸ mem_map_of_mem ha
    exact mem_map.mp this
  refine ⟨fun a ha => ?_, hmap ▸ h.distinct, fun a ha b hb h6 heq => ?_⟩
  · obtain ⟨b, hb, hnet⟩ := hmem a ha
    have := h.decodable b hb
    unfold tunAddrPrefix at this ⊢
    rwa [hnet] at this
  · obtain ⟨a', ha', hneta⟩ := hmem a ha
    obtain ⟨b', hb', hnetb⟩ := hmem b hb
    rw [← hneta, ← hnetb]
    exact h.single a' ha' b' hb' (by rw [hneta]; exact h6) (by rw [hneta, hnetb]; exact heq)

theorem WellKept.replaceAddr {addrs : List NlAddr} (h : WellKept addrs) {new : NlAddr}
    (hnew : tunAddrPrefix new = some new.net) : WellKept (replaceAddr new addrs) := by
  rcases map_net_replaceAddr new addrs with hmap | ⟨hnone, happend⟩
  · exact h.of_map_net hmap
  rw [happend]
  have hnet : ∀ a ∈ addrs, a.net ≠ new.net := by
    intro a ha heq
    have := hnone a ha
    simp [NlAddr.replacedBy, heq] at this
  have h6 : ∀ a ∈ addrs, new.net.addr.is6 = true → a.net.addr ≠ new.net.addr := by
    intro a ha hnew6 heq
    have := hnone a ha
    simp [NlAddr.replacedBy, hnew6, heq] at this
  refine ⟨?_, ?_, ?_⟩
  · simp only [mem_append, mem_singleton]
    rintro a (ha | rfl)
    · exact h.decodable a ha
    · exact hnew
  · rw [map_append, nodup_append]
    refine ⟨h.distinct, by simp, ?_⟩
    simp only [mem_map, map_cons, map_nil, mem_singleton]
    rintro _ ⟨a, ha, rfl⟩ _ rfl
    exact hnet a ha
  · simp only [mem_append, mem_singleton]
    rintro a (ha | rfl) b (hb | rfl) his6 heq
    · exact h.single a ha b hb his6 heq
    · exact absurd heq (h6 a ha (heq ▸ his6))
    · exact absurd heq.symm (h6 b hb his6)
    · rfl

theorem WellKept.sublist {addrs addrs' : List NlAddr} (h : WellKept addrs)
    (hsub : addrs'.Sublist addrs) : WellKept addrs' :=
  ⟨fun a ha => h.decodable a (hsub.subset ha), h.distinct.sublist (hsub.map _),
    fun a ha b hb => h.single a (hsub.subset ha) b (hsub.subset hb)⟩

theorem WellKept.deleteAddr {addrs : List NlAddr} (h : WellKept addrs) (addr : NlAddr) :
    WellKept (deleteAddr addr addrs) :=
  h.sublist eraseP_sublist

/-- A link in memory. -/
structure AddrStore where
  addrs : List NlAddr
  kept : WellKept addrs

/-- The prefixes on the link. -/
def AddrStore.prefixes (store : AddrStore) : List Prefix := store.addrs.map NlAddr.net

/-- `memoryTunAddrNetlink`. -/
def AddrStore.answer : (c : AddrCall) → AddrStore → Except String (AddrReply c) × AddrStore
  | .list, store => (.ok store.addrs, store)
  | .replace addr, store =>
    if h : tunAddrPrefix addr = some addr.net then
      (.ok (), ⟨replaceAddr addr store.addrs, store.kept.replaceAddr h⟩)
    else (.error "replacement address has no prefix", store)
  | .delete addr, store =>
    if tunAddrPrefix addr = some addr.net then
      (.ok (), ⟨deleteAddr addr store.addrs, store.kept.deleteAddr addr⟩)
    else (.error "deleted address has no prefix", store)

/-- A program of the package on a link in memory. -/
def AddrStore.run {α : Type} (store : AddrStore) (p : AddrProg String α) :
    Except (AddrError String) α × AddrStore :=
  eval AddrStore.answer p store

end SysnetLinux.TunAddress
