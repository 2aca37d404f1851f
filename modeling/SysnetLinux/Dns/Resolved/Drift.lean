/-
  SysnetLinux.Dns.Resolved.Drift

  The repair of a link reaches a fixpoint.

  Resolved reports what has been set on a link (`faithful`); others may change it between two
  calls, and each change is counted (`drifting`).  A setup without a change in between leaves the
  link repaired, and a repaired link is not set up again; so a monitor has never made more setups
  than there were changes (`Level`).
-/

import SysnetLinux.Dns.Excluded
import SysnetLinux.Dns.Resolved.Specs

namespace SysnetLinux.Dns.Resolved

open Netip
open CallProg CallProg.Prog

/-! ## A resolved that reports what has been set -/

/-- A call that sets something may fail without effect, but not with the error of an unknown
    method. -/
def faithful : Handler Call Reply BusError Bus := fun c b r b' =>
  answer c b = (r, b') ∨
    (c.reads = false ∧ ∃ e, r = .error e ∧ isDBusUnknownMethod e = false ∧ b' = b)

/-- A world with the changes that others have made and the link setups that have got to
    their end: `SetLinkDNS` is their last call that can fail. -/
structure Drift where
  world : World
  changes : Nat
  applies : Nat
  deriving DecidableEq

/-- The setups that an answer completes. -/
def completed : (c : Call) → Except BusError (Reply c) → Nat
  | .setLinkDNS _ _, .ok _ => 1
  | _, _ => 0

/-- The steps of the monitor; ahead of each others may change anything in resolved. -/
def drifting : Handler Call Reply BusError Drift := fun c d r d' =>
  ∃ bus n, (n = 0 → bus = d.world.bus) ∧
    steps faithful 0 c { d.world with bus := bus } r d'.world ∧
    d'.changes = d.changes + n ∧ d'.applies = d.applies + completed c r

variable {server : Addr} {ifidx : Int} {own : Provider} {b b' : Bus} {d d₀ d' : Drift}

/-- The server as resolved reports it. -/
def reportedServer (server : Addr) : LinkNameserverEx :=
  ⟨(resolvedNameserver server).family, (resolvedNameserver server).address, 0⟩

theorem addrFromResolved_resolvedNameserver (hvalid : server.isValid = true)
    (hzone : server.zone = "") :
    addrFromResolved (resolvedNameserver server).family (resolvedNameserver server).address =
      some server := by
  cases server with
  | zero => cases hvalid
  | v4 ip =>
    have hword : Bytes.toWord 32 (Bytes.ofWord 4 ip) = ip := Bytes.toWord_ofWord (by omega)
    simp [resolvedNameserver, addrFromResolved, hword]
  | v6 ip z =>
    obtain rfl : z = "" := hzone
    have hword : Bytes.toWord 128 (Bytes.ofWord 16 ip) = ip := Bytes.toWord_ofWord (by omega)
    have hne : afInet6 ≠ afInet := by decide
    simp [resolvedNameserver, addrFromResolved, hword, hne]

/-- The parts of a setup, from the first to the last. -/
def HasDomains (ifidx : Int) (b : Bus) : Prop :=
  ∃ l, b.link ifidx = some l ∧ l.domains = [⟨rootDomain, true⟩]

def HasRoute (ifidx : Int) (b : Bus) : Prop :=
  ∃ l, b.link ifidx = some l ∧ l.domains = [⟨rootDomain, true⟩] ∧
    (b.hasDefaultRoute = true → l.defaultRoute = true)

def Repaired (server : Addr) (ifidx : Int) (b : Bus) : Prop :=
  ∃ l, b.link ifidx = some l ∧ l.domains = [⟨rootDomain, true⟩] ∧
    (b.hasDefaultRoute = true → l.defaultRoute = true) ∧ l.dns = [reportedServer server]

theorem link_change (b : Bus) (ifidx : Int) (f : Link → Link) :
    (b.change ifidx f).link ifidx = (b.link ifidx).map f := by
  simp only [Bus.link, Bus.change]
  induction b.links with
  | nil => rfl
  | cons x links ih =>
    by_cases hx : x.1 = ifidx
    · simp [hx]
    · simpa [List.find?_cons, hx] using ih

variable {v : Unit} {c : Call} {r : Except BusError (Reply c)} {k : Nat} {P : Bus → Prop}

theorem changed_ok {f : Link → Link} (h : b.changed ifidx f = (.ok v, b')) :
    ∃ l, b.link ifidx = some l ∧ b'.link ifidx = some (f l) ∧
      b'.hasDefaultRoute = b.hasDefaultRoute := by
  unfold Bus.changed at h
  split at h
  · cases h
  · rename_i l hl
    obtain rfl : b.change ifidx f = b' := congrArg Prod.snd h
    exact ⟨l, hl, by rw [link_change, hl]; rfl, rfl⟩

/-! ## The calls of a setup -/

theorem faithful_ok {v : Reply c} (h : faithful c b (.ok v) b') : answer c b = (.ok v, b') := by
  rcases h with h | ⟨-, e, he, -⟩
  · exact h
  · cases he

theorem hasDomains_of_set (h : faithful (.setLinkDomains ifidx [⟨rootDomain, true⟩]) b (.ok v) b') :
    HasDomains ifidx b' := by
  obtain ⟨l, -, hl, -⟩ := changed_ok (faithful_ok h)
  exact ⟨_, hl, rfl⟩

theorem hasRoute_of_set (h : HasDomains ifidx b) {r : Except BusError Unit}
    (hr : ∀ e, r = .error e → isDBusUnknownMethod e = true)
    (hset : faithful (.setLinkDefaultRoute ifidx true) b r b') : HasRoute ifidx b' := by
  obtain ⟨l, hl, hdomains⟩ := h
  by_cases hroute : b.hasDefaultRoute = true
  · have hanswer : answer (.setLinkDefaultRoute ifidx true) b =
        (.ok (), b.change ifidx fun l => { l with defaultRoute := true }) := by
      rw [answer, if_pos hroute, Bus.changed, hl]
    rcases hset with hset | ⟨-, e, he, hknown, -⟩
    · obtain rfl : (b.change ifidx fun l => { l with defaultRoute := true }) = b' :=
        congrArg Prod.snd (hanswer.symm.trans hset)
      have hlink := link_change b ifidx fun l => { l with defaultRoute := true }
      rw [hl, Option.map_some] at hlink
      exact ⟨_, hlink, hdomains, fun _ => rfl⟩
    · exact absurd ((hr e he).symm.trans hknown) nofun
  · have hsame : b' = b := by
      rcases hset with hset | ⟨-, _, -, -, hsame⟩
      · rw [answer, if_neg hroute] at hset
        exact (congrArg Prod.snd hset).symm
      · exact hsame
    rw [hsame]
    exact ⟨l, hl, hdomains, fun hyes => absurd hyes hroute⟩

theorem repaired_of_set (h : HasRoute ifidx b)
    (hset : faithful (.setLinkDNS ifidx [resolvedNameserver server]) b (.ok v) b') :
    Repaired server ifidx b' := by
  obtain ⟨l, hl, hdomains, hroute⟩ := h
  obtain ⟨l', hl', hlink, hsupport⟩ := changed_ok (faithful_ok hset)
  obtain rfl := Option.some.inj (hl.symm.trans hl')
  exact ⟨_, hlink, hdomains, fun hyes => hroute (hsupport ▸ hyes), rfl⟩

/-- The calls at the end of a setup leave the links as they are. -/
def Call.idle : Call → Bool
  | .setLinkMode _ _ _ | .flushCaches => true
  | _ => false

theorem faithful_idle (hc : c.idle = true) (h : faithful c b r b') : b' = b := by
  rcases h with h | ⟨-, _, -, -, h⟩
  · cases c with
    | setLinkMode mode i value =>
      have hid : b.change i id = b := by simp [Bus.change]
      obtain rfl : (b.changed i id).2 = b' := congrArg Prod.snd h
      unfold Bus.changed
      split
      · rfl
      · exact hid
    | flushCaches => exact (congrArg Prod.snd h).symm
    | _ => cases hc
  · exact h

/-! ## A setup among changes -/

/-- Since `d₀` the provider is the same and `k` setups have been completed; if there was no
    change, resolved is as `P` says. -/
structure Since (d₀ : Drift) (k : Nat) (P : Bus → Prop) (d : Drift) : Prop where
  provider : d.world.provider = d₀.world.provider
  changes : d₀.changes ≤ d.changes
  applies : d.applies = d₀.applies + k
  quiet : d.changes = d₀.changes → P d.world.bus

theorem Since.external {P' : Bus → Prop} (h : Since d₀ k P d) (hc : c.internal = false)
    (hstep : drifting c d r d') (hP : ∀ b b', P b → faithful c b r b' → P' b') :
    Since d₀ (k + completed c r) P' d' := by
  obtain ⟨bus, n, hsame, hstep, hchanges, happlies⟩ := hstep
  obtain ⟨hpackage, -, hbus⟩ := steps_external hc hstep
  have := h.changes
  refine ⟨hpackage.provider.trans h.provider, by omega, by rw [happlies, h.applies, Nat.add_assoc],
    fun hquiet => ?_⟩
  rw [hsame (by omega)] at hbus
  exact hP _ _ (h.quiet (by omega)) hbus

theorem Since.load (h : Since d₀ k P d) {r : Except BusError Provider}
    (hstep : drifting .load d r d') :
    r = .ok d₀.world.provider ∧ Since d₀ k P d' := by
  obtain ⟨bus, n, hsame, hstep, hchanges, happlies⟩ := hstep
  obtain ⟨rfl, hworld⟩ := steps_act rfl rfl hstep
  have := h.changes
  refine ⟨congrArg _ h.provider, by rw [hworld]; exact h.provider, by omega,
    happlies.trans h.applies, fun hquiet => ?_⟩
  rw [hworld, hsame (by omega)]
  exact h.quiet (by omega)

abbrev Watched {α : Type} (Q : Except (List ResolvedError) α → Drift → Prop) (p : ResolvedProg α)
    (d : Drift) : Prop := wp drifting (fun _ _ => True) Q p d

/-- A setup that returns nil is a completed one, on a link that has a number. -/
def SetUp (server : Addr) (d₀ : Drift) (r : Except (List ResolvedError) Unit) (d : Drift) : Prop :=
  match r with
  | .ok _ => d₀.world.provider.ifidx ≠ 0 ∧ Since d₀ 1 (Repaired server d₀.world.provider.ifidx) d
  | .error _ => Since d₀ 0 (fun _ => True) d

theorem setUp_modes (hindex : d₀.world.provider.ifidx ≠ 0)
    (h : Since d₀ 1 (Repaired server d₀.world.provider.ifidx) d) (i : Int) :
    Watched (SetUp server d₀) (setLinkModes i) d := by
  have hissues : Issues (fun c => c.idle = true) (setLinkModes i) :=
    issues_andThen (issues_bestEffort rfl) fun _ => issues_andThen (issues_bestEffort rfl) fun _ =>
      issues_andThen (issues_bestEffort rfl) fun _ => issues_andThen (issues_bestEffort rfl)
        fun _ => issues_bestEffort rfl
  have hyields : Yields (fun r => r = .ok ()) (setLinkModes i) := fun _ _ _ _ _ => rfl
  refine wp_post (fun r u hu => ?_) (wp_yields hyields (wp_steady hissues h fun c u hc hu =>
    ⟨trivial, fun r u' hstep => ?_⟩))
  · obtain ⟨rfl, hu⟩ := hu
    exact ⟨hindex, hu⟩
  · cases c with
    | setLinkMode | flushCaches =>
      exact hu.external rfl hstep fun b b' hb hset => faithful_idle rfl hset ▸ hb
    | _ => cases hc

theorem since_applyDNS (server : Addr) (d : Drift) :
    Watched (SetUp server d) (applyDNS server) d := by
  have hstart : Since d 0 (fun _ => True) d := ⟨rfl, le_refl _, rfl, fun _ => trivial⟩
  refine ⟨trivial, fun r d₁ hload => ?_⟩
  obtain ⟨rfl, h₁⟩ := hstart.load hload
  show Watched _ (Prog.bind (if _ then _ else _) _) d₁
  by_cases hindex : d.world.provider.ifidx = 0
  · rw [if_pos hindex]
    exact h₁
  rw [if_neg hindex]
  refine ⟨trivial, fun r d₂ hdomains => ?_⟩
  cases r with
  | error e => exact (h₁.external rfl hdomains fun _ _ _ _ => trivial : Since d 0 (fun _ => True) d₂)
  | ok _ =>
    have h₂ : Since d 0 (HasDomains d.world.provider.ifidx) d₂ :=
      h₁.external rfl hdomains fun _ _ _ => hasDomains_of_set
    refine ⟨trivial, fun r d₃ hroute => ?_⟩
    have hrest : Since d 0 (HasRoute d.world.provider.ifidx) d₃ →
        Watched (SetUp server d) ((setLinkDNS d.world.provider.ifidx server).andThen fun _ =>
          setLinkModes d.world.provider.ifidx) d₃ := by
      refine fun h₃ => ⟨trivial, fun r d₄ hdns => ?_⟩
      cases r with
      | error e => exact (h₃.external rfl hdns fun _ _ _ _ => trivial : Since d 0 (fun _ => True) d₄)
      | ok _ =>
        exact setUp_modes hindex (h₃.external rfl hdns fun _ _ hb hset => repaired_of_set hb hset) _
    cases r with
    | ok _ => exact hrest (h₂.external rfl hroute fun _ _ hb => hasRoute_of_set hb nofun)
    | error e =>
      by_cases hunknown : isDBusUnknownMethod e = true
      · simp only [hunknown, if_true]
        refine hrest (h₂.external rfl hroute fun _ _ hb => hasRoute_of_set hb fun e' he' => ?_)
        cases he'
        exact hunknown
      · simp only [hunknown, Bool.false_eq_true, if_false]
        exact (h₂.external rfl hroute fun _ _ _ _ => trivial : Since d 0 (fun _ => True) d₃)

/-! ## A monitor among changes -/

/-- The monitor has made no more setups than there were changes, and where it has made as
    many the link is repaired. -/
structure Level (server : Addr) (own : Provider) (d : Drift) : Prop where
  index : own.ifidx ≠ 0
  provider : d.world.provider = { own with upstreams := d.world.provider.upstreams }
  le : d.applies ≤ d.changes
  repaired : d.applies = d.changes → Repaired server own.ifidx d.world.bus

/-- A change has not been repaired yet. -/
def Owed (d : Drift) : Prop := d.applies < d.changes

/-- The calls that leave resolved and the server of the provider alone. -/
def Call.looks : Call → Bool
  | .lockDNS _ | .unlockDNS | .commit _ _ => true
  | c => c.reads

theorem looks_of_reads (h : c.reads = true) : c.looks = true := by
  cases c with
  | _ => first | exact h | cases h

theorem looks_of_refreshes {exclude : List Addr} (h : c.Refreshes exclude) : c.looks = true := by
  cases c with
  | commit cfg exclude' => rfl
  | _ => exact looks_of_reads h

theorem answer_reads (hc : c.reads = true) (h : faithful c b r b') :
    b' = b ∧ r = (answer c b).1 := by
  rcases h with h | ⟨hreads, -⟩
  · refine ⟨(congrArg Prod.snd h).symm.trans ?_, (congrArg Prod.fst h).symm⟩
    cases c with
    | _ => first | rfl | cases hc
  · exact absurd (hreads.symm.trans hc) nofun

theorem steps_looks (hc : c.looks = true) {w w' : World} (h : steps faithful 0 c w r w') :
    w'.bus = w.bus ∧ w'.provider = { w.provider with upstreams := w'.provider.upstreams } ∧
      (c.internal = false → r = (answer c w'.bus).1) := by
  by_cases hreads : c.reads = true ∧ c.internal = false
  · obtain ⟨hpackage, -, hbus⟩ := steps_external hreads.2 h
    obtain ⟨hsame, hr⟩ := answer_reads hreads.1 hbus
    refine ⟨hsame, by rw [hpackage.provider], fun _ => hr.trans ?_⟩
    rw [hsame]
  · cases c with
    | load =>
      obtain ⟨-, rfl⟩ := steps_act rfl rfl h
      exact ⟨rfl, rfl, nofun⟩
    | commit cfg exclude =>
      rw [(steps_commit h).2]
      split
      · exact ⟨rfl, rfl, nofun⟩
      · exact ⟨rfl, rfl, nofun⟩
    | lockDNS op =>
      obtain ⟨v, -, hact⟩ := steps_internal rfl h
      obtain ⟨-, rfl⟩ := act_lockDNS hact
      exact ⟨rfl, rfl, nofun⟩
    | unlockDNS =>
      obtain ⟨v, -, hact⟩ := steps_internal rfl h
      obtain ⟨op, -, rfl⟩ := act_unlockDNS_released hact
      exact ⟨rfl, rfl, nofun⟩
    | _ => first | exact absurd ⟨rfl, rfl⟩ hreads | cases hc

theorem Level.looks (h : Level server own d) (hc : c.looks = true) (hstep : drifting c d r d') :
    Level server own d' ∧ (Owed d → Owed d') ∧
      (c.internal = false → r = (answer c d'.world.bus).1) := by
  obtain ⟨bus, n, hsame, hstep, hchanges, happlies⟩ := hstep
  obtain ⟨hbus, hprovider, hr⟩ := steps_looks hc hstep
  have hcompleted : completed c r = 0 := by
    cases c with
    | _ => first | rfl | cases hc
  have hle := h.le
  refine ⟨⟨h.index, ?_, by omega, fun hlevel => ?_⟩, fun howed => ?_, hr⟩
  · rw [hprovider, h.provider]
  · rw [hbus, show bus = d.world.bus from hsame (by omega)]
    exact h.repaired (by omega)
  · unfold Owed at howed ⊢
    omega

/-- The result is as on a repaired link, or there is something to repair. -/
abbrev Fine {α : Type} (server : Addr) (own : Provider) (G : Except (List ResolvedError) α → Prop)
    (r : Except (List ResolvedError) α) (d : Drift) : Prop :=
  Level server own d ∧ (G r ∨ Owed d)

abbrev Looks {α : Type} (p : ResolvedProg α) : Prop := Issues (fun c => c.looks = true) p

section Reading

variable {α β : Type} {G : Except (List ResolvedError) α → Prop}
  {G' : Except (List ResolvedError) β → Prop}

variable {p : ResolvedProg α}

theorem Looks.of_reads (h : Reads p) : Looks p :=
  h.mono fun _ => looks_of_reads

theorem watched_looks (hp : Looks p) (h : Level server own d) :
    Watched (fun _ d' => Level server own d' ∧ (Owed d → Owed d')) p d :=
  wp_steady hp ⟨h, id⟩ fun _ _ hc hA => ⟨trivial, fun _ _ hstep =>
    ⟨(hA.1.looks hc hstep).1, fun howed => (hA.1.looks hc hstep).2.1 (hA.2 howed)⟩⟩

theorem fine_of_owed (hp : Looks p) (h : Level server own d) (howed : Owed d) :
    Watched (Fine server own G) p d :=
  wp_post (fun _ _ hd => ⟨hd.1, .inr (hd.2 howed)⟩) (watched_looks hp h)

/-- A call that reads, where the answers on a repaired link are known. -/
theorem fine_call {c : Call} {k : Except BusError (Reply c) → ResolvedProg α}
    {A : Except BusError (Reply c) → Prop} (hext : c.internal = false)
    (hgood : ∀ b, Repaired server own.ifidx b → A (answer c b).1) (hp : Reads (.call c k))
    (hrest : ∀ r d', A r → Level server own d' → Watched (Fine server own G) (k r) d')
    (h : Level server own d) : Watched (Fine server own G) (.call c k) d := by
  refine ⟨trivial, fun r d' hstep => ?_⟩
  obtain ⟨h', -, hr⟩ := h.looks (looks_of_reads hp.1) hstep
  by_cases howed : Owed d'
  · exact fine_of_owed (.of_reads (hp.2 r)) h' howed
  · have hle := h'.le
    unfold Owed at howed
    refine hrest r d' ?_ h'
    rw [hr hext]
    exact hgood _ (h'.repaired (by omega))

theorem fine_andThen {f : α → ResolvedProg β} {a : α}
    (hp : Watched (Fine server own (· = .ok a)) p d) (hf : ∀ a, Reads (f a))
    (hrest : ∀ d', Level server own d' → Watched (Fine server own G') (f a) d') :
    Watched (Fine server own G') (p.andThen f) d := by
  refine (wp_bind _ _).mpr (wp_post (fun r d' hr => ?_) hp)
  rcases hr.2 with rfl | howed
  · exact hrest d' hr.1
  · cases r with
    | ok a => exact fine_of_owed (.of_reads (hf a)) hr.1 howed
    | error e => exact ⟨hr.1, .inr howed⟩

end Reading

theorem fine_linkObject (h : Level server own d) :
    Watched (Fine server own (· = .ok own.ifidx)) linkObject d := by
  refine ⟨trivial, fun r d₁ hload => ?_⟩
  have h₁ := (h.looks rfl hload).1
  obtain ⟨bus, n, -, hstep, -⟩ := hload
  obtain ⟨rfl, -⟩ := steps_act rfl rfl hstep
  show Watched _ (Prog.bind (if d.world.provider.ifidx = 0 then _ else _) _) d₁
  rw [h.provider, if_neg h.index]
  refine fine_call (c := .getLink own.ifidx) (A := (· = .ok own.ifidx)) rfl (fun b hb => ?_)
    (issues_request rfl) (fun r d' hr h' => ?_) h₁
  · obtain ⟨l, hl, -⟩ := hb
    simp only [answer, Bus.reading, hl]
  · rw [hr]
    exact ⟨h', .inl rfl⟩

section Valid

variable (hvalid : server.isValid = true) (hzone : server.zone = "")

include hvalid hzone

theorem fine_linkDNSServers (h : Level server own d) :
    Watched (Fine server own (· = .ok [⟨server, 53⟩])) linkDNSServers d := by
  have haddr := addrFromResolved_resolvedNameserver hvalid hzone
  refine fine_andThen (fine_linkObject h) reads_linkDNSServersFor fun d' h' => ?_
  have hreads := reads_linkDNSServersFor own.ifidx
  refine fine_call (c := .linkDNSEx own.ifidx)
    (A := fun r => r = .ok (some [reportedServer server]) ∨ ∃ e, r = .error e) rfl
    (fun b hb => ?_) hreads (fun r d'' hr h'' => ?_) h'
  · obtain ⟨l, hl, -, -, hdns⟩ := hb
    by_cases hex : b.hasDNSEx = true
    · exact .inl (by simp only [answer, Bus.reading, hl, hex, hdns, if_true])
    · exact .inr ⟨Bus.unknownProperty, by simp [answer, Bus.reading, hl, hex]⟩
  · rcases hr with rfl | ⟨e, rfl⟩
    · refine ⟨h'', .inl ?_⟩
      simp [LinkNameserverEx.server, reportedServer, haddr, addrPort]
    · refine fine_call (c := .linkDNS own.ifidx) (A := (· = .ok (some [resolvedNameserver server])))
        rfl (fun b hb => ?_) (hreads.2 (.error e)) (fun r u hr hu => ?_) h''
      · obtain ⟨l, hl, -, -, hdns⟩ := hb
        simp only [answer, Bus.reading, hl, hdns]
        rfl
      · rw [hr]
        refine ⟨hu, .inl ?_⟩
        simp [LinkNameserver.server, haddr]

end Valid

theorem fine_linkConfigNeedsApply (h : Level server own d) :
    Watched (Fine server own (· = .ok false)) (linkConfigNeedsApply server [⟨server, 53⟩]) d := by
  have haddr : [(⟨server, 53⟩ : AddrPort)].map AddrPort.addr = [server] := rfl
  rw [linkConfigNeedsApply, if_pos haddr]
  refine fine_andThen (fine_linkObject h) reads_linkNeedsApply fun d' h' => ?_
  have hreads := reads_linkNeedsApply own.ifidx
  refine fine_call (c := .linkDomains own.ifidx) (A := (· = .ok (some [⟨rootDomain, true⟩]))) rfl
    (fun b hb => ?_) hreads (fun r d'' hr h'' => ?_) h'
  · obtain ⟨l, hl, hdomains, -⟩ := hb
    simp only [answer, Bus.reading, hl, hdomains]
  · subst hr
    refine fine_call (c := .linkDefaultRoute own.ifidx)
      (A := fun r => r = .ok (some true) ∨ ∃ e, r = .error e) rfl
      (fun b hb => ?_) (hreads.2 (.ok (some [⟨rootDomain, true⟩]))) (fun r u hr hu => ?_) h''
    · obtain ⟨l, hl, -, hroute, -⟩ := hb
      by_cases hhas : b.hasDefaultRoute = true
      · exact .inl (by simp only [answer, Bus.reading, hl, hhas, hroute hhas, if_true])
      · exact .inr ⟨Bus.unknownProperty, by simp [answer, Bus.reading, hl, hhas]⟩
    · rcases hr with rfl | ⟨e, rfl⟩
      · exact ⟨hu, .inl rfl⟩
      · exact ⟨hu, .inl rfl⟩

/-- What a function reads from a repaired link that nobody changes. -/
theorem execute_reads {α : Type} {p : ResolvedProg α} {r₀ : Except (List ResolvedError) α}
    {w : World} (hp : Reads p) (h : Watched (Fine server own (· = r₀)) p ⟨w, 0, 0⟩) :
    execute (reply 0) p w = some (r₀, w) := by
  induction p with
  | ret r =>
    rcases h.2 with rfl | howed
    · rfl
    · exact absurd howed (Nat.lt_irrefl 0)
  | call c k ih =>
    obtain ⟨r, hreply, hstep⟩ : ∃ r, reply 0 c w = some (r, w) ∧ steps faithful 0 c w r w := by
      have hc := hp.1
      cases c with
      | load => exact ⟨_, rfl, _, rfl, rfl⟩
      | _ => first | exact ⟨_, rfl, _, .inl rfl, rfl⟩ | cases hc
    have hcompleted : completed c r = 0 := by
      have hc := hp.1
      cases c with
      | _ => first | rfl | cases hc
    rw [execute, hreply]
    exact ih r (hp.2 r) (h.2 r ⟨w, 0, 0⟩ ⟨w.bus, 0, fun _ => rfl, hstep, rfl, by rw [hcompleted]⟩)

/-! ## Rounds of the monitor -/

/-- A setup that the monitor owes. -/
theorem level_applyDNS (h : Level server own d) (howed : Owed d) :
    Watched (fun _ d' => Level server own d') (applyDNS server) d := by
  refine wp_post (fun r d' hr => ?_) (since_applyDNS server d)
  have hlevel : ∀ {k P}, Since d k P d' → k ≤ 1 →
      (d'.applies = d'.changes → Repaired server own.ifidx d'.world.bus) → Level server own d' := by
    intro k P hs hk hrepaired
    have := hs.changes
    have := hs.applies
    unfold Owed at howed
    exact ⟨h.index, hs.provider ▸ h.provider, by omega, hrepaired⟩
  unfold Owed at howed
  cases r with
  | ok _ =>
    have hs : Since d 1 (Repaired server d.world.provider.ifidx) d' := hr.2
    have := hs.changes
    have := hs.applies
    refine hlevel hs (le_refl 1) fun heq => ?_
    have hrepaired := hs.quiet (by omega)
    rw [h.provider] at hrepaired
    exact hrepaired
  | error es =>
    have hs : Since d 0 (fun _ => True) d' := hr
    have := hs.changes
    have := hs.applies
    exact hlevel hs (Nat.zero_le 1) fun heq => absurd heq (by omega)

theorem level_reapplyDNS (h : Level server own d) (howed : Owed d) :
    Watched (fun _ d' => Level server own d') (reapplyDNS server) d := by
  refine wp_andThen ⟨trivial, fun r d₁ hlock => ?_⟩
  obtain ⟨h₁, howed₁, -⟩ := h.looks rfl hlock
  cases r with
  | error e => exact h₁
  | ok _ =>
    show Watched _ (Prog.bind _ _) d₁
    refine (wp_bind _ _).mpr (wp_post (Q := fun _ u => Level server own u) (fun _ u hu => ?_) ?_)
    · exact wp_post (fun _ _ hd => hd.1)
        (watched_looks (issues_andThen (issues_request rfl) fun _ => trivial) hu)
    refine ⟨trivial, fun r d₂ hload => ?_⟩
    obtain ⟨h₂, howed₂, -⟩ := h₁.looks rfl hload
    cases r with
    | error e => exact h₂
    | ok p =>
      show Watched _ (if p.setDNSActive = true ∧ p.setDNS = server ∧ p.closed = false then _
        else _) d₂
      split
      · refine wp_andThen (wp_post (fun r u hu => ?_) (level_applyDNS h₂ (howed₂ (howed₁ howed))))
        cases r with
        | ok _ | error es => exact hu
      · exact h₂

theorem level_reapplyDNSIfNeeded (h : Level server own d) {servers : List AddrPort}
    (hservers : servers = [⟨server, 53⟩] ∨ Owed d) :
    Watched (fun _ d' => Level server own d') (reapplyDNSIfNeeded true server servers) d := by
  have hneeds : Watched (Fine server own (· = .ok false)) (linkConfigNeedsApply server servers) d := by
    rcases hservers with rfl | howed
    · exact fine_linkConfigNeedsApply h
    · exact fine_of_owed (.of_reads (reads_linkConfigNeedsApply ..)) h howed
  refine wp_andThen (wp_post (fun r u hu => ?_) hneeds)
  match r with
  | .error _ | .ok false => exact hu.1
  | .ok true => exact level_reapplyDNS hu.1 (hu.2.resolve_left nofun)

theorem level_sync (hvalid : server.isValid = true) (hzone : server.zone = "")
    (hown : own.setDNS = server ∧ own.setDNSActive = true) (h : Level server own d) :
    Watched (fun _ d' => Level server own d') syncResolvedState d := by
  refine ⟨trivial, fun r d₁ hload => ?_⟩
  have h₁ := (h.looks rfl hload).1
  obtain ⟨bus, n, -, hstep, -⟩ := hload
  obtain ⟨rfl, -⟩ := steps_act rfl rfl hstep
  show Watched _ (if d.world.provider.closed = true then _ else _) d₁
  rw [h.provider, hown.1, hown.2]
  split
  · exact h₁
  have htarget : Watched (Fine server own fun r => ∃ domains, r = .ok ([⟨server, 53⟩], domains))
      (targetRead own.ifidx) d₁ := by
    rw [targetRead, if_neg h.index]
    refine fine_andThen (fine_linkDNSServers hvalid hzone h₁)
      (fun _ => issues_bind reads_linkDomains fun _ => trivial) fun u hu => (wp_bind _ _).mpr ?_
    exact wp_post (fun r u' hu' => ⟨hu'.1, .inl ⟨_, rfl⟩⟩)
      (watched_looks (.of_reads reads_linkDomains) hu)
  refine wp_andThen (wp_post (fun r u hu => ?_) htarget)
  cases r with
  | error es => exact hu.1
  | ok target =>
    have hservers : target.1 = [⟨server, 53⟩] ∨ Owed u :=
      hu.2.imp_left fun ⟨_, hr⟩ => by rw [Except.ok.inj hr]
    refine wp_andThen (wp_post (fun r u' hu' => ?_) (level_reapplyDNSIfNeeded hu.1 hservers))
    cases r with
    | error es => exact hu'
    | ok applied =>
      refine wp_post (fun _ _ hd => hd.1) (watched_looks ?_ hu')
      split
      · exact (refreshes_fromLink ..).mono fun _ => looks_of_refreshes
      · exact (refreshes_withFallback ..).mono fun _ => looks_of_refreshes

/-- A round of the monitor, whatever changes meanwhile. -/
def Round (d d' : Drift) : Prop := ∃ tr r, Exec drifting syncResolvedState d tr r d'

theorem level_rounds (hvalid : server.isValid = true) (hzone : server.zone = "")
    (hown : own.setDNS = server ∧ own.setDNSActive = true) (h : Level server own d)
    (hrounds : Relation.ReflTransGen Round d d') :
    Level server own d' := by
  induction hrounds with
  | refl => exact h
  | tail _ hround ih =>
    obtain ⟨tr, r, hex⟩ := hround
    exact (wp_sound hex (level_sync hvalid hzone hown ih)).2

/-- Behind a setup that returned nil, with nothing changed by others, the server is read back
    from the link, no setup is needed, and no computation of upstreams that excludes the
    server keeps it; a monitor then makes at most one setup for each change by others. -/
theorem drift_repair_settles {tr : List (Event Call Drift)} (hvalid : server.isValid = true)
    (hzone : server.zone = "") (hex : Exec drifting (applyDNS server) d tr (.ok ()) d')
    (hquiet : d'.changes = d.changes) :
    execute (reply 0) linkDNSServers d'.world = some (.ok [⟨server, 53⟩], d'.world) ∧
      execute (reply 0) (linkConfigNeedsApply server [⟨server, 53⟩]) d'.world =
        some (.ok false, d'.world) ∧
      (∀ exclude, server ∈ exclude → filterAddr [⟨server, 53⟩] exclude = [] ∧
        ∀ r fallback servers domains cfg,
          upstreamConfigFromLink r fallback exclude servers domains = .ok cfg →
            Free server cfg.routes) ∧
      (d'.world.provider.setDNS = server → d'.world.provider.setDNSActive = true →
        ∀ d'', Relation.ReflTransGen Round ⟨d'.world, 0, 0⟩ d'' → d''.applies ≤ d''.changes) := by
  have hset : SetUp server d (.ok ()) d' := (wp_sound hex (since_applyDNS server d)).2
  obtain ⟨hindex, hsince⟩ := hset
  have hrepaired := hsince.quiet hquiet
  rw [← hsince.provider] at hindex hrepaired
  have hlevel : Level server d'.world.provider ⟨d'.world, 0, 0⟩ :=
    ⟨hindex, rfl, le_refl 0, fun _ => hrepaired⟩
  refine ⟨execute_reads reads_linkDNSServers (fine_linkDNSServers hvalid hzone hlevel),
    execute_reads (reads_linkConfigNeedsApply ..) (fine_linkConfigNeedsApply hlevel),
    fun exclude hmem => ⟨?_, fun _ _ _ _ _ hok => free_of_ok hok hmem hvalid⟩,
    fun hset hactive d'' hrounds => (level_rounds hvalid hzone ⟨hset, hactive⟩ hlevel hrounds).le⟩
  refine List.eq_nil_iff_forall_not_mem.mpr fun s hs => ?_
  obtain rfl := List.mem_singleton.mp (mem_of_mem_filterAddr hs)
  exact addr_ne_of_mem_filterAddr hs hmem hvalid rfl

/-- The steps where nothing fails and nobody else changes anything. -/
def quietReply (c : Call) (d : Drift) : Option (Except BusError (Reply c) × Drift) :=
  (reply 0 c d.world).map fun x => (x.1, ⟨x.2, d.changes, d.applies + completed c x.1⟩)

theorem quietReply_drifting (h : quietReply c d = some (r, d')) : drifting c d r d' := by
  obtain ⟨x, hx, heq⟩ := Option.map_eq_some_iff.mp h
  obtain ⟨rfl, rfl⟩ := Prod.ext_iff.mp heq
  exact ⟨d.world.bus, 0, fun _ => rfl, steps_mono (fun _ _ _ _ => .inl) (reply_steps hx), rfl, rfl⟩

def driftedState : Drift := ⟨(World.fresh 2 [] sampleBus).installed sampleServer, 0, 0⟩

def repairedState : Drift :=
  ((execute quietReply (applyDNS sampleServer) driftedState).map Prod.snd).getD driftedState

theorem drift_repair_settles_sample :
    execute (reply 0) (linkConfigNeedsApply sampleServer [⟨sampleServer, 53⟩])
        repairedState.world = some (.ok false, repairedState.world) ∧
      ∀ d'', Relation.ReflTransGen Round ⟨repairedState.world, 0, 0⟩ d'' →
        d''.applies ≤ d''.changes := by
  have hrun : execute quietReply (applyDNS sampleServer) driftedState =
      some (.ok (), repairedState) := by decide +kernel
  have hquiet : ∀ c d r d', quietReply c d = some (r, d') → drifting c d r d' :=
    fun _ _ _ _ => quietReply_drifting
  obtain ⟨tr, hex⟩ := execute_exec hquiet hrun
  have hsettled := drift_repair_settles (by decide) rfl hex (by decide +kernel)
  exact ⟨hsettled.2.1, hsettled.2.2.2 (by decide +kernel) (by decide +kernel)⟩

end SysnetLinux.Dns.Resolved
