/-
  SysnetLinux.Dns.Servers

  Upstream servers of the `dns` package: `netip.AddrPort`, the exclusion of the managed server,
  and the URLs by which a forwarding client is known.

  `filterAddr` reuses the array of its argument; every caller passes a copy, or a slice that
  nothing reads afterwards, so it is a filter.
-/

import SysnetLinux.Lib.Unseen
import SysnetLinux.Netip.Strings

namespace SysnetLinux.Dns

open Netip List

/-- `netip.AddrPort`. -/
structure AddrPort where
  addr : Addr
  port : BitVec 16
  deriving DecidableEq, Repr

namespace AddrPort

def isValid (s : AddrPort) : Bool := s.addr.isValid

/-- `AddrPort.String`. -/
def string (s : AddrPort) : String :=
  match s.addr with
  | .zero => "invalid AddrPort"
  | .v4 _ => s.addr.string ++ ":" ++ toString s.port.toNat
  | .v6 _ _ => "[" ++ s.addr.string ++ "]:" ++ toString s.port.toNat

end AddrPort

def addrExcluded (addr : Addr) (exclude : List Addr) : Bool :=
  exclude.any fun candidate => candidate.isValid && addr == candidate

def filterAddr (servers : List AddrPort) (exclude : List Addr) : List AddrPort :=
  servers.filter fun server => !addrExcluded server.addr exclude

def dedupeServers (servers : List AddrPort) : List AddrPort :=
  Unseen.collect (servers.filter AddrPort.isValid)

def serverURLs (servers : List AddrPort) : List String :=
  (dedupeServers servers).map fun server => "udp://" ++ server.string

variable {servers : List AddrPort} {exclude : List Addr} {s : AddrPort}

theorem mem_filterAddr :
    s ∈ filterAddr servers exclude ↔ s ∈ servers ∧ addrExcluded s.addr exclude = false := by
  unfold filterAddr
  rw [mem_filter]
  simp

/-- A valid address that is excluded is not the address of a server that stays. -/
theorem addr_ne_of_mem_filterAddr (h : s ∈ filterAddr servers exclude) {addr : Addr}
    (hmem : addr ∈ exclude) (hvalid : addr.isValid = true) : s.addr ≠ addr := by
  rintro rfl
  have hnot := (mem_filterAddr.mp h).2
  rw [addrExcluded, any_eq_false] at hnot
  exact hnot s.addr hmem (by simp [hvalid])

theorem mem_dedupeServers : s ∈ dedupeServers servers ↔ s ∈ servers ∧ s.isValid = true := by
  unfold dedupeServers
  rw [Unseen.mem_collect, mem_filter]

theorem dedupeServers_eq_nil : dedupeServers servers = [] ↔ ∀ s ∈ servers, s.isValid = false := by
  unfold dedupeServers
  rw [Unseen.collect_eq_nil, filter_eq_nil_iff]
  simp

theorem AddrPort.toList_string_v4 (ip : BitVec 32) (port : BitVec 16) :
    (AddrPort.string ⟨.v4 ip, port⟩).toList =
      (Addr.v4String ip).toList ++ ':' :: Nat.toDigits 10 port.toNat := by
  rw [← Addr.toList_toString, AddrPort.string, String.toList_append, String.toList_append,
    append_assoc]
  rfl

theorem AddrPort.toList_string_v6 (ip : BitVec 128) (zone : String) (port : BitVec 16) :
    (AddrPort.string ⟨.v6 ip zone, port⟩).toList =
      ('[' :: (Addr.v6 ip zone).string.toList ++ [']']) ++ ':' :: Nat.toDigits 10 port.toNat := by
  rw [← Addr.toList_toString, AddrPort.string, String.toList_append, String.toList_append,
    String.toList_append]
  simp

theorem AddrPort.string_inj {t : AddrPort} (hs : s.isValid = true) (ht : t.isValid = true)
    (h : s.string = t.string) : s = t := by
  obtain ⟨a, port⟩ := s
  obtain ⟨b, port'⟩ := t
  have hcolon : ∀ n, ':' ∉ Nat.toDigits 10 n :=
    Text.not_mem_toDigits (by decide) Addr.colon_not_digit
  have hport : Nat.toDigits 10 port.toNat = Nat.toDigits 10 port'.toNat → port = port' :=
    fun hdigits => BitVec.eq_of_toNat_eq (Text.toDigits_inj (by decide) (by decide) hdigits)
  -- Only the text of an IPv6 address has a bracket.
  have hbracket : ∀ (ip : BitVec 32) (p : BitVec 16), '[' ∉ (AddrPort.string ⟨.v4 ip, p⟩).toList := by
    intro ip p
    rw [AddrPort.toList_string_v4, mem_append, mem_cons]
    rintro (hmem | hmem | hmem)
    · exact Addr.not_mem_v4String (by decide) Addr.bracket_not_digit ip hmem
    · exact absurd hmem (by decide)
    · exact Text.not_mem_toDigits (by decide) Addr.bracket_not_digit _ hmem
  have hinside : ∀ (ip : BitVec 128) (zone : String) (p : BitVec 16),
      '[' ∈ (AddrPort.string ⟨.v6 ip zone, p⟩).toList := by
    intro ip zone p
    rw [AddrPort.toList_string_v6]
    exact mem_cons_self
  have htext := congrArg String.toList h
  cases a with
  | zero => cases hs
  | v4 ip =>
    cases b with
    | zero => cases ht
    | v4 ip' =>
      rw [AddrPort.toList_string_v4, AddrPort.toList_string_v4] at htext
      obtain ⟨haddr, hdigits⟩ := Text.split_last (hcolon _) (hcolon _) htext
      rw [Addr.v4String_inj haddr, hport hdigits]
    | v6 ip' zone' =>
      have hmem := hinside ip' zone' port'
      rw [← htext] at hmem
      exact absurd hmem (hbracket ip port)
  | v6 ip zone =>
    cases b with
    | zero => cases ht
    | v4 ip' =>
      have hmem := hinside ip zone port
      rw [htext] at hmem
      exact absurd hmem (hbracket ip' port')
    | v6 ip' zone' =>
      rw [AddrPort.toList_string_v6, AddrPort.toList_string_v6] at htext
      obtain ⟨haddr, hdigits⟩ := Text.split_last (hcolon _) (hcolon _) htext
      have hbody := append_cancel_right haddr
      rw [Addr.string_v6_inj (List.cons.inj hbody).2, hport hdigits]

/-- One of the URLs has this address. -/
def NamesAddr (urls : List String) (addr : Addr) : Prop :=
  ∃ port, "udp://" ++ AddrPort.string ⟨addr, port⟩ ∈ urls

/-- What is left after an exclusion does not name an excluded address. -/
theorem not_namesAddr_filterAddr {addr : Addr} (hmem : addr ∈ exclude)
    (hvalid : addr.isValid = true) :
    ¬ NamesAddr (serverURLs (filterAddr servers exclude)) addr := by
  rintro ⟨port, hurl⟩
  obtain ⟨s, hs, heq⟩ := mem_map.mp hurl
  have hstring : s.string = AddrPort.string ⟨addr, port⟩ := by
    have htext := congrArg String.toList heq
    rw [String.toList_append, String.toList_append] at htext
    exact String.toList_inj.mp (append_cancel_left htext)
  obtain ⟨hin, hsvalid⟩ := mem_dedupeServers.mp hs
  have hserver := AddrPort.string_inj hsvalid (t := ⟨addr, port⟩) hvalid hstring
  exact addr_ne_of_mem_filterAddr hin hmem hvalid (congrArg AddrPort.addr hserver)

theorem serverURLs_eq_nil : serverURLs servers = [] ↔ ∀ s ∈ servers, s.isValid = false := by
  unfold serverURLs
  rw [map_eq_nil_iff, dedupeServers_eq_nil]

end SysnetLinux.Dns
