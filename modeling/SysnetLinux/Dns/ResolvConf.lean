/-
  SysnetLinux.Dns.ResolvConf

  The contents that the providers write: `resolvconffile.Config.Write`, and the mark by
  which `Direct` tells its own file from the files of others.

  A file is its text.  `Parse` is read by the constructors only, for the nameservers; it
  stays a parameter there.
-/

import Mathlib.Data.List.Infix
import SysnetLinux.Dns.Routes

namespace SysnetLinux.Dns

open Netip

/-- `resolvconffile.Config`. -/
structure ResolvConf where
  nameservers : List Addr
  searchDomains : List String
  deriving DecidableEq, Repr

def withoutTrailingDot (domain : String) : String :=
  if domain.toList.getLast? = some '.' then String.ofList domain.toList.dropLast else domain

/-- `Config.Write`. -/
def ResolvConf.write (c : ResolvConf) (owner : String) : String :=
  "# resolv.conf(5) file generated by " ++ owner ++ "\n" ++
    "# DO NOT EDIT THIS FILE BY HAND -- CHANGES WILL BE OVERWRITTEN\n\n" ++
    String.join (c.nameservers.map fun ns => "nameserver " ++ ns.string ++ "\n") ++
    if c.searchDomains = [] then ""
    else "search" ++
      String.join (c.searchDomains.map fun domain =>
        " " ++ if domain = "." then "." else withoutTrailingDot domain) ++ "\n"

def directOwner : String := "sysnet-linux direct DNS provider"

def openresolvOwner : String := "sysnet-linux openresolv DNS provider"

def debianResolvconfOwner : String := "sysnet-linux Debian resolvconf DNS provider"

def resolvconfForServer (server : Addr) : String := ResolvConf.write ⟨[server], []⟩ directOwner

def openresolvForServer (server : Addr) : String := ResolvConf.write ⟨[server], []⟩ openresolvOwner

def debianResolvconfForServer (server : Addr) : String :=
  ResolvConf.write ⟨[server], []⟩ debianResolvconfOwner

def directResolvconfOwned (text : String) : Bool :=
  ("generated by " ++ directOwner).toList <:+: text.toList

/-- `resolvconfNameservers`, with `Parse` given. -/
def resolvconfNameservers (parse : String → Except String (List Addr)) (text : String) :
    Except String (List AddrPort) :=
  match parse text with
  | .error e => .error e
  | .ok nameservers => .ok (dedupeServers (nameservers.map fun ns => ⟨ns, 53⟩))

theorem owned_resolvconfForServer (server : Addr) :
    directResolvconfOwned (resolvconfForServer server) = true := by
  have hhead : "# resolv.conf(5) file generated by ".toList =
      "# resolv.conf(5) file ".toList ++ "generated by ".toList := by decide
  have hmark : ("generated by ".toList ++ directOwner.toList) <:+:
      ("# resolv.conf(5) file generated by ".toList ++ directOwner.toList) := by
    rw [hhead, List.append_assoc]
    exact (List.suffix_append _ _).isInfix
  refine decide_eq_true ?_
  unfold resolvconfForServer ResolvConf.write
  simp only [String.toList_append, List.append_assoc]
  rw [← List.append_assoc]
  exact hmark.trans (List.prefix_append _ _).isInfix

theorem valid_resolvconfNameservers {parse : String → Except String (List Addr)} {text : String}
    {servers : List AddrPort} (h : resolvconfNameservers parse text = .ok servers) :
    ∀ s ∈ servers, s.isValid = true := by
  unfold resolvconfNameservers at h
  split at h
  · cases h
  · obtain rfl := Except.ok.inj h
    exact fun s hs => (mem_dedupeServers.mp hs).2

end SysnetLinux.Dns
