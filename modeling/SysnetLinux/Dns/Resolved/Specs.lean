/-
  SysnetLinux.Dns.Resolved.Specs

  What the functions of the resolved provider can call, and what a call changes.

  There are functions that only read, that refresh the upstreams with a list of excluded servers,
  and that set up a link for a server; proofs treat whole functions by their kind.  On its
  own, a refresh is that of `Dns.Refresh` (`ran_withFallback`).
-/

import SysnetLinux.Dns.Resolved.Model
import SysnetLinux.Lib.Threads

namespace SysnetLinux.Dns.Resolved

open Netip
open CallProg CallProg.Prog CallProg.Threads

/-! ## Kinds of calls -/

def Call.reads : Call → Bool
  | .load | .getLink _ | .linkDNSEx _ | .linkDNS _ | .linkDomains _ | .linkDefaultRoute _
  | .managerDNSEx | .managerDNS | .managerDomains => true
  | _ => false

/-- The calls that put a setting of the provider on a link. -/
def Call.setsLink : Call → Bool
  | .setLinkDomains _ _ | .setLinkDefaultRoute _ _ | .setLinkDNS _ _ => true
  | _ => false

/-- The calls of a refresh that leaves out `exclude`. -/
def Call.Refreshes (exclude : List Addr) : Call → Prop
  | .commit _ exclude' => exclude' = exclude
  | c => c.reads = true

/-- The calls of `applyDNS`. -/
def Call.Applies (server : Addr) : Call → Prop
  | .load | .setLinkDomains _ _ | .setLinkDefaultRoute _ _ | .setLinkMode _ _ _ | .flushCaches => True
  | .setLinkDNS _ servers => servers = [resolvedNameserver server]
  | _ => False

/-- The calls that leave links to themselves, and those that take settings back. -/
def Call.reverts : Call → Bool
  | .load | .revertLink _ | .closeRouter | .closeClient _ | .closeBus => true
  | _ => false

variable {c : Call} {B : Handler Call Reply BusError Bus} {w : World}
    {r : Except BusError (Reply c)}

theorem refreshes_of_reads (exclude : List Addr) (h : c.reads = true) : c.Refreshes exclude := by
  cases c with
  | commit cfg exclude' => cases h
  | _ => exact h

section Issues

variable {P : Call → Prop} {α : Type}

theorem issues_request {wrap : BusError → ResolvedError} {c : Call} (hc : P c) :
    Issues P (request wrap c) :=
  issues_call hc (fun _ => trivial) fun _ => trivial

theorem issues_requireInterfaceIndex (h : P .load) : Issues P requireInterfaceIndex := by
  refine issues_andThen (issues_request h) fun r => ?_
  split
  · exact trivial
  · exact trivial

theorem issues_bestEffort {c : Call} (hc : P c) : Issues P (bestEffort c) :=
  ⟨hc, fun _ => trivial⟩

theorem issues_decoded {property : String} {p : ResolvedProg (Option α)} (hp : Issues P p) :
    Issues P (decoded property p) := by
  refine issues_andThen hp fun v => ?_
  cases v with
  | none | some v => exact trivial

end Issues

/-! ## Functions that only read -/

abbrev Reads {α : Type} (p : ResolvedProg α) : Prop := Issues (fun c => c.reads = true) p

theorem reads_load : Reads (request .other .load) := issues_request rfl

theorem reads_linkObject : Reads linkObject :=
  issues_andThen (issues_requireInterfaceIndex rfl) fun _ => issues_request rfl

theorem reads_linkDNSServersFor (link : Int) : Reads (linkDNSServersFor link) := by
  refine ⟨rfl, fun r => ?_⟩
  have hlegacy : Reads (linkDNSServersLegacy link) :=
    issues_andThen (issues_decoded (issues_request rfl)) fun _ => trivial
  match r with
  | .ok (some raw) => exact trivial
  | .ok none | .error _ => exact hlegacy

theorem reads_linkDNSServers : Reads linkDNSServers :=
  issues_andThen reads_linkObject reads_linkDNSServersFor

theorem reads_linkDomains : Reads linkDomains :=
  issues_andThen reads_linkObject fun _ => issues_decoded (issues_request rfl)

theorem reads_managerDNSServers : Reads managerDNSServers := by
  have hlegacy : Reads managerDNSServersLegacy :=
    issues_andThen (issues_decoded (issues_request rfl)) fun _ => trivial
  refine ⟨rfl, fun r => ?_⟩
  match r with
  | .ok (some raw) => exact trivial
  | .ok none | .error _ => exact hlegacy

theorem reads_configFromLink (fallback : List AddrPort) (exclude : List Addr)
    (servers : List AddrPort) (domains : List LinkDomain) :
    Reads (configFromLink fallback exclude servers domains) := by
  refine issues_andThen reads_load fun r => ?_
  refine issues_andThen reads_managerDNSServers fun managerServers => ?_
  refine issues_bind (issues_decoded (issues_request rfl)) fun managerDomains => ?_
  dsimp only
  split
  · exact trivial
  · exact trivial

theorem reads_targetRead (ifidx : Int) : Reads (targetRead ifidx) := by
  unfold targetRead
  split
  · exact trivial
  · exact issues_andThen reads_linkDNSServers fun _ => issues_bind reads_linkDomains fun _ => trivial

theorem reads_upstreamConfig (fallback : List AddrPort) (exclude : List Addr) :
    Reads (upstreamConfig fallback exclude) :=
  issues_andThen reads_load fun r =>
    issues_andThen (reads_targetRead r.ifidx) fun _ => reads_configFromLink ..

theorem reads_linkNeedsApply (link : Int) : Reads (linkNeedsApply link) := by
  refine ⟨rfl, fun r => ?_⟩
  match r with
  | .error _ | .ok none => exact trivial
  | .ok (some domains) =>
    dsimp only
    split
    · exact trivial
    · refine ⟨rfl, fun r' => ?_⟩
      cases r' with
      | ok v | error e => exact trivial

theorem reads_linkConfigNeedsApply (server : Addr) (linkServers : List AddrPort) :
    Reads (linkConfigNeedsApply server linkServers) := by
  unfold linkConfigNeedsApply
  split
  · exact issues_andThen reads_linkObject reads_linkNeedsApply
  · exact trivial

/-! ## Functions that refresh, apply and revert -/

theorem refreshes_install (exclude : List Addr) (cfg : UpstreamConfig) :
    Issues (Call.Refreshes exclude) (install exclude cfg) := by
  refine issues_andThen (issues_request rfl) fun r => ?_
  split
  · exact trivial
  · refine issues_andThen (issues_request rfl) fun isOpen => ?_
    split
    · exact trivial
    · exact trivial

theorem refreshes_withFallback (fallback : List AddrPort) (exclude : List Addr) :
    Issues (Call.Refreshes exclude) (refreshUpstreamsWithFallback fallback exclude) :=
  issues_andThen ((reads_upstreamConfig fallback exclude).mono fun _ => refreshes_of_reads exclude)
    (refreshes_install exclude)

theorem refreshes_fromLink (fallback : List AddrPort) (exclude : List Addr)
    (servers : List AddrPort) (domains : List LinkDomain) :
    Issues (Call.Refreshes exclude) (refreshUpstreamsFromLink fallback exclude servers domains) :=
  issues_andThen
    ((reads_configFromLink fallback exclude servers domains).mono fun _ => refreshes_of_reads exclude)
    (refreshes_install exclude)

theorem refreshes_excluding (exclude : List Addr) :
    Issues (Call.Refreshes exclude) (refreshUpstreamsExcluding exclude) :=
  issues_andThen (issues_request rfl) fun r => refreshes_withFallback r.fallback exclude

theorem applies_setLinkModes (server : Addr) (ifidx : Int) :
    Issues (Call.Applies server) (setLinkModes ifidx) :=
  issues_andThen (issues_bestEffort trivial) fun _ =>
    issues_andThen (issues_bestEffort trivial) fun _ =>
      issues_andThen (issues_bestEffort trivial) fun _ =>
        issues_andThen (issues_bestEffort trivial) fun _ => issues_bestEffort trivial

theorem applies_setLinkDefaultRoute (server : Addr) (ifidx : Int) :
    Issues (Call.Applies server) (setLinkDefaultRoute ifidx) := by
  refine issues_call trivial (fun e => ?_) fun _ => trivial
  dsimp only
  split
  · exact trivial
  · exact trivial

theorem applies_applyDNS (server : Addr) : Issues (Call.Applies server) (applyDNS server) :=
  issues_andThen (issues_requireInterfaceIndex trivial) fun ifidx =>
    issues_andThen (issues_request trivial) fun _ =>
      issues_andThen (applies_setLinkDefaultRoute server ifidx) fun _ =>
        issues_andThen (issues_request rfl) fun _ => applies_setLinkModes server ifidx

abbrev Reverts {α : Type} (p : ResolvedProg α) : Prop := Issues (fun c => c.reverts = true) p

theorem reverts_revertLink (ifidx : Int) : Reverts (revertLink ifidx) := by
  unfold revertLink
  split
  · exact trivial
  · refine issues_call rfl (fun e => ?_) fun _ => trivial
    dsimp only
    split
    · exact trivial
    · exact trivial

theorem reverts_revertDNS : Reverts revertDNS := by
  refine issues_andThen (issues_request rfl) fun r => ?_
  split
  · exact reverts_revertLink _
  · exact trivial

theorem reverts_closeClients (routes : List UpstreamRoute)
    (result : Except (List ResolvedError) Unit) : Reverts (closeClients result routes) := by
  induction routes generalizing result with
  | nil => exact trivial
  | cons route routes ih => exact issues_bind (issues_request rfl) fun closed => ih _

/-- The part of `Close` that holds the mutex. -/
theorem reverts_closing (routes : List UpstreamRoute) : Reverts (revertDNS.bind fun reverted =>
    (request .other .closeRouter).bind fun closed =>
      (closeClients (joined reverted closed) routes).bind fun result =>
        (request .other .closeBus).bind fun closed => .ret (joined result closed)) :=
  issues_bind reverts_revertDNS fun _ => issues_bind (issues_request rfl) fun _ =>
    issues_bind (reverts_closeClients routes _) fun _ =>
      issues_bind (issues_request rfl) fun _ => trivial

/-! ## What a call changes -/

section Steps

variable {B : Handler Call Reply BusError Bus} {i : Nat} {c : Call} {w w' : World}

variable {r : Except BusError (Reply c)}

theorem steps_internal (hc : c.internal = true) (h : steps B i c w r w') :
    ∃ v, r = .ok v ∧ act i c w = some (v, w') := by
  unfold steps at h
  rw [if_pos hc] at h
  exact h

/-- A section that always has the same reply. -/
theorem steps_act (hc : c.internal = true) {v : Reply c} {u : World}
    (hact : act i c w = some (v, u)) (h : steps B i c w r w') :
    r = .ok v ∧ w' = u := by
  obtain ⟨v', rfl, heq⟩ := steps_internal hc h
  rw [hact] at heq
  obtain ⟨rfl, rfl⟩ := Prod.ext_iff.mp (Option.some.inj heq)
  exact ⟨rfl, rfl⟩

/-- A call that leaves the package changes nothing in it. -/
structure SamePackage (w w' : World) : Prop where
  provider : w'.provider = w.provider
  dnsMu : w'.dnsMu = w.dnsMu
  stopped : w'.stopped = w.stopped

theorem SamePackage.refl (w : World) : SamePackage w w := ⟨rfl, rfl, rfl⟩

theorem samePackage_noted (w : World) (c : Call) (r : Except BusError (Reply c)) :
    SamePackage w (w.noted c r) := by
  unfold World.noted
  split <;> first | exact ⟨rfl, rfl, rfl⟩ | (split <;> exact ⟨rfl, rfl, rfl⟩)

theorem steps_external (hc : c.internal = false) (h : steps B i c w r w') :
    SamePackage w w' ∧ w'.applied = (w.noted c r).applied ∧ B c w.bus r w'.bus := by
  unfold steps at h
  rw [if_neg (by simp [hc])] at h
  obtain ⟨bus, hbus, rfl⟩ := h
  have hnoted := samePackage_noted w c r
  exact ⟨⟨hnoted.provider, hnoted.dnsMu, hnoted.stopped⟩, rfl, hbus⟩

/-- A call that only reads changes nothing in the package. -/
theorem steps_reads (hc : c.reads = true) (h : steps B i c w r w') : SamePackage w w' := by
  cases c with
  | load =>
    obtain ⟨-, rfl⟩ := steps_act rfl rfl h
    exact SamePackage.refl _
  | _ => first | exact (steps_external rfl h).1 | cases hc

theorem steps_applies {server : Addr} (hc : c.Applies server) (h : steps B i c w r w') :
    SamePackage w w' := by
  cases c with
  | load => exact steps_reads rfl h
  | _ => first | exact (steps_external rfl h).1 | cases hc

theorem steps_reverts (hc : c.reverts = true) (h : steps B i c w r w') : SamePackage w w' := by
  cases c with
  | load => exact steps_reads rfl h
  | _ => first | exact (steps_external rfl h).1 | cases hc

/-- A refresh changes nothing but the upstreams. -/
structure SameButUpstreams (w w' : World) : Prop where
  provider : w'.provider = { w.provider with upstreams := w'.provider.upstreams }
  dnsMu : w'.dnsMu = w.dnsMu
  stopped : w'.stopped = w.stopped

theorem SamePackage.butUpstreams (h : SamePackage w w') : SameButUpstreams w w' := by
  refine ⟨?_, h.dnsMu, h.stopped⟩
  rw [h.provider]

theorem steps_commit {cfg : UpstreamConfig} {exclude : List Addr}
    {r : Except BusError (Reply (.commit cfg exclude))}
    (h : steps B i (.commit cfg exclude) w r w') :
    r = .ok (!w.provider.closed) ∧ w' = if w.provider.closed = true then w else w.committed cfg :=
  steps_act rfl rfl h

theorem steps_refreshes {exclude : List Addr} (hc : c.Refreshes exclude) (h : steps B i c w r w') :
    SameButUpstreams w w' := by
  by_cases hreads : c.reads = true
  · exact (steps_reads hreads h).butUpstreams
  · cases c with
    | commit cfg exclude' =>
      rw [(steps_commit h).2]
      split
      · exact (SamePackage.refl w).butUpstreams
      · exact ⟨rfl, rfl, rfl⟩
    | _ => exact absurd hc hreads

end Steps

/-! ## Rules for the sections of a thread -/

section Rules

variable {B : Handler Call Reply BusError Bus} {i : Nat} {W : Handler Call Reply BusError World}
  {Rely Guar : World → World → Prop} {I : Call → World → Prop} {β : Type} {w : World}
  {A : World → Prop} {Q : Except (List ResolvedError) β → World → Prop}

variable {wrap : BusError → ResolvedError} {v : Unit} {w' : World}

theorem relies_section {c : Call} {f : Reply c → ResolvedProg β}
    (hW : ∀ w r w', W c w r w' → steps B i c w r w') (hc : c.internal = true) (hA : A w)
    (hstable : ∀ w w', Rely w w' → A w → A w') (hI : ∀ w, A w → I c w)
    (hsection : ∀ w v w', A w → act i c w = some (v, w') →
      Guar w w' ∧ relies W Rely Guar I Q (f v) w') :
    relies W Rely Guar I Q ((request wrap c).andThen f) w := by
  refine relies_call hA hstable fun t hAt => ⟨hI t hAt, fun r u hstep => ?_⟩
  obtain ⟨v, rfl, hact⟩ := steps_internal hc (hW t r u hstep)
  exact hsection t v u hAt hact

theorem relies_load {f : Provider → ResolvedProg β}
    (hW : ∀ w r w', W .load w r w' → steps B i .load w r w') (hA : A w)
    (hstable : ∀ w w', Rely w w' → A w → A w') (hI : ∀ w, A w → I .load w) (hguar : ∀ w, Guar w w)
    (hf : ∀ w, A w → relies W Rely Guar I Q (f w.provider) w) :
    relies W Rely Guar I Q ((request wrap .load).andThen f) w := by
  refine relies_section hW rfl hA hstable hI fun t v t' hAt hact => ?_
  obtain ⟨rfl, rfl⟩ := Prod.ext_iff.mp (Option.some.inj hact)
  exact ⟨hguar t, hf t hAt⟩

theorem act_lockDNS {op : Operation} (h : act i (.lockDNS op) w = some (v, w')) :
    w.dnsMu = none ∧ w' = w.acquired i op := by
  obtain ⟨hfree, hacquired⟩ := Option.ite_none_right_eq_some.mp h
  exact ⟨hfree, (congrArg Prod.snd (Option.some.inj hacquired)).symm⟩

theorem act_unlockDNS_released (h : act i .unlockDNS w = some (v, w')) :
    ∃ op, w.dnsMu = some (i, op) ∧ w' = w.released op := by
  cases hmu : w.dnsMu with
  | none =>
    simp only [act, hmu] at h
    cases h
  | some held =>
    obtain ⟨j, op⟩ := held
    simp only [act, hmu] at h
    obtain ⟨rfl, hreleased⟩ := Option.ite_none_right_eq_some.mp h
    exact ⟨op, rfl, (congrArg Prod.snd (Option.some.inj hreleased)).symm⟩

theorem act_unlockDNS {op : Operation} (hmu : w.dnsMu = some (i, op))
    (h : act i .unlockDNS w = some (v, w')) : w' = w.released op := by
  obtain ⟨op', hmu', rfl⟩ := act_unlockDNS_released h
  rw [hmu] at hmu'
  cases hmu'
  rfl

end Rules

/-! ## A refresh on its own

No other thread takes a step while the two refresh functions of an open provider run. -/

section Refresh

variable {B : Handler Call Reply BusError Bus} {i : Nat} {α : Type} {w : World} {r₀ : Provider}
  {fallback : List AddrPort} {exclude : List Addr} {servers : List AddrPort}
  {domains : List LinkDomain} {Q : Except (List ResolvedError) α → World → Prop}

theorem wp_reads {p : ResolvedProg α} (hw : w.provider = r₀) (hp : Reads p)
    (hQ : ∀ r t, t.provider = r₀ → Q r t) : wp (steps B i) Any Q p w :=
  wp_post hQ (wp_steady (A := fun t : World => t.provider = r₀) hp hw fun _ _ hc hA =>
    ⟨trivial, fun _ _ hstep => (steps_reads hc hstep).provider.trans hA⟩)

theorem wp_load {f : Provider → ResolvedProg α} (hw : w.provider = r₀)
    (h : wp (steps B i) Any Q (f r₀) w) :
    wp (steps B i) Any Q ((request .other .load).andThen f) w := by
  refine ⟨trivial, fun r t hstep => ?_⟩
  obtain ⟨rfl, rfl⟩ := steps_act rfl rfl hstep
  exact hw ▸ h

/-- A refresh that succeeds has installed what `Refresh.run` installs, and one that fails
    has changed nothing. -/
def Ran (fallback : List AddrPort) (exclude : List Addr)
    (link : LinkRead ⊕ List AddrPort × List LinkDomain) (r₀ : Provider) :
    Except (List ResolvedError) Unit → World → Prop
  | .ok _, w => ∃ manager u, w.provider = { r₀ with upstreams := u } ∧
      Refresh.run ⟨fallback, exclude, link, manager⟩ r₀.ifidx r₀.upstreams = (.ok (), u)
  | .error _, w => w.provider = r₀

theorem ran_install {link : LinkRead ⊕ List AddrPort × List LinkDomain} {cfg : UpstreamConfig}
    (manager : ManagerRead) (hw : w.provider = r₀) (hopen : r₀.closed = false)
    (h : Refresh.config ⟨fallback, exclude, link, manager⟩ r₀.ifidx r₀.upstreams = .ok cfg) :
    wp (steps B i) Any (Ran fallback exclude link r₀) (install exclude cfg) w := by
  have hrun : Refresh.run ⟨fallback, exclude, link, manager⟩ r₀.ifidx r₀.upstreams =
      (.ok (), r₀.upstreams.install cfg) := by rw [Refresh.run, h]
  rw [Upstreams.install] at hrun
  refine wp_load hw ?_
  split
  · rename_i hsame
    exact ⟨manager, _, hw, by rw [hrun, if_pos hsame]⟩
  · rename_i hother
    refine ⟨trivial, fun r t hstep => ?_⟩
    obtain ⟨rfl, rfl⟩ := steps_commit hstep
    rw [hw, hopen]
    exact ⟨manager, _, by rw [← hw]; rfl, by rw [hrun, if_neg hother]⟩

/-- The link is one that reports the servers and domains, such as `.inr (servers, domains)`. -/
theorem ran_fromLink (link : LinkRead ⊕ List AddrPort × List LinkDomain)
    (hw : w.provider = r₀) (hopen : r₀.closed = false)
    (hlink : ∀ c : Refresh, c.link = link → c.linkReport r₀.ifidx = .ok (servers, domains)) :
    wp (steps B i) Any (Ran fallback exclude link r₀)
      (refreshUpstreamsFromLink fallback exclude servers domains) w := by
  refine wp_andThen (wp_load hw (wp_andThen (wp_reads hw reads_managerDNSServers fun r t ht => ?_)))
  cases r with
  | error es => exact ht
  | ok managerServers =>
    refine (wp_bind _ _).mpr (wp_reads ht (issues_decoded (issues_request rfl)) fun found u hu => ?_)
    dsimp only
    split
    · rename_i cfg hcfg
      refine ran_install ⟨some managerServers, found.toOption⟩ hu hopen ?_
      rw [Refresh.config, hlink _ rfl]
      simp only [Refresh.configFromLink, hcfg]
    · exact hu

theorem ran_withFallback (hw : w.provider = r₀) (hopen : r₀.closed = false) :
    wp (steps B i) Any (fun r t => ∃ read, Ran fallback exclude (.inl read) r₀ r t)
      (refreshUpstreamsWithFallback fallback exclude) w := by
  refine (wp_bind _ _).mpr (wp_load hw (wp_andThen ?_))
  unfold targetRead
  split
  · rename_i hzero
    refine (wp_bind _ _).mp (wp_post (fun _ _ h => ⟨⟨none, none⟩, h⟩)
      (ran_fromLink _ hw hopen fun c hc => ?_))
    rw [Refresh.linkReport, hc]
    exact if_pos hzero
  · rename_i hindex
    refine wp_andThen (wp_reads hw reads_linkDNSServers fun r t ht => ?_)
    cases r with
    | error es => exact ⟨⟨none, none⟩, ht⟩
    | ok servers =>
      refine (wp_bind _ _).mpr (wp_reads ht reads_linkDomains fun found u hu => ?_)
      refine (wp_bind _ _).mp (wp_post (fun _ _ h => ⟨⟨some servers, found.toOption⟩, h⟩)
        (ran_fromLink _ hu hopen fun c hc => ?_))
      rw [Refresh.linkReport, hc]
      exact if_neg hindex

end Refresh

/-! ## Constructed providers -/

theorem close_then_fails {u : World} {tr : List (Event Call World)} (es : List ResolvedError) :
    ¬ Exec (steps B 0) (close.bind fun _ => (.ret (.error es) : ResolvedProg Unit)) u tr (.ok ()) w := by
  intro h
  obtain ⟨_, _, _, _, -, hrest, -⟩ := exec_of_bind h
  cases (exec_ret_iff.mp hrest).2.1

/-- A constructed provider has committed its upstreams and nothing else. -/
theorem Built.refreshed (h : Built B w) : ∃ ifidx fallback bus tr u,
      Exec (steps B 0) (refreshUpstreams .zero) (World.fresh ifidx fallback bus) tr (.ok ()) u ∧
        SamePackage u w ∧ w.applied = u.applied ∧
        ∃ given, resolvedOptionalIfIndex given = .ok ifidx := by
  obtain ⟨given, ifidx, fallback, bus, tr, hgiven, hex⟩ := h
  obtain ⟨tr₁, refreshed, u, tr₂, hrefresh, hrest, -⟩ := exec_of_bind hex
  cases refreshed with
  | error es =>
    obtain ⟨_, _, _, -, hrest, -⟩ := exec_call_iff.mp hrest
    obtain ⟨_, _, _, -, hrest, -⟩ := exec_call_iff.mp hrest
    cases (exec_ret_iff.mp hrest).2.1
  | ok _ =>
    refine ⟨ifidx, fallback, bus, tr₁, u, hrefresh, ?_⟩
    obtain ⟨r₁, v, _, hstep₁, hrest, -⟩ := exec_call_iff.mp hrest
    cases r₁ with
    | error e => exact absurd hrest (close_then_fails _)
    | ok _ =>
      obtain ⟨r₂, v', _, hstep₂, hrest, -⟩ := exec_call_iff.mp hrest
      cases r₂ with
      | error e => exact absurd hrest (close_then_fails _)
      | ok _ =>
        obtain ⟨hsame₁, happlied₁, -⟩ := steps_external rfl hstep₁
        obtain ⟨hsame₂, happlied₂, -⟩ := steps_external rfl hstep₂
        obtain ⟨-, -, rfl⟩ := exec_ret_iff.mp hrest
        exact ⟨⟨hsame₂.provider.trans hsame₁.provider, hsame₂.dnsMu.trans hsame₁.dnsMu,
          hsame₂.stopped.trans hsame₁.stopped⟩, happlied₂.trans happlied₁, given, hgiven⟩

/-! ## Explicit runs -/

theorem steps_mono {B' : Handler Call Reply BusError Bus}
    (hB : ∀ c b r b', B c b r b' → B' c b r b') {i : Nat} (h : steps B i c w r w') :
    steps B' i c w r w' := by
  unfold steps at h ⊢
  by_cases hc : c.internal = true
  · rw [if_pos hc] at h ⊢
    exact h
  · rw [if_neg hc] at h ⊢
    obtain ⟨bus, hbus, hw⟩ := h
    exact ⟨bus, hB _ _ _ _ hbus, hw⟩

/-- The steps of thread `i` with a resolved that keeps what has been set. -/
def reply (i : Nat) (c : Call) (w : World) : Option (Except BusError (Reply c) × World) :=
  if c.internal = true then (act i c w).map fun x => (.ok x.1, x.2)
  else some ((answer c w.bus).1,
    { w.noted c (answer c w.bus).1 with bus := (answer c w.bus).2 })

theorem reply_steps {i : Nat} {w' : World} (h : reply i c w = some (r, w')) :
    steps (replies answer) i c w r w' := by
  unfold reply at h
  unfold steps
  split at h
  · rename_i hc
    rw [if_pos hc]
    obtain ⟨x, hx, heq⟩ := Option.map_eq_some_iff.mp h
    obtain ⟨rfl, rfl⟩ := Prod.ext_iff.mp heq
    exact ⟨x.1, rfl, hx⟩
  · rename_i hc
    rw [if_neg hc]
    obtain ⟨rfl, rfl⟩ := Prod.ext_iff.mp (Option.some.inj h)
    exact ⟨_, rfl, rfl⟩

/-- One link without settings, and a server of resolved itself. -/
def sampleBus : Bus := ⟨[(2, Link.blank)], [⟨0, afInet, [9, 9, 9, 9], 0⟩], [], true, true⟩

def sampleServer : Addr := .v4 0x0a000001

/-- The world after a program that returns no error. -/
def succeeded {α : Type} (run : Option (Except (List ResolvedError) α × World)) : Option World :=
  match run with
  | some (.ok _, w) => some w
  | _ => none

theorem exec_of_succeeded {H : Handler Call Reply BusError World}
    {answer : (c : Call) → World → Option (Except BusError (Reply c) × World)}
    (hanswer : ∀ c w r w', answer c w = some (r, w') → H c w r w') {p : ResolvedProg Unit}
    {w' : World} (h : succeeded (execute answer p w) = some w') : ∃ tr, Exec H p w tr (.ok ()) w' := by
  unfold succeeded at h
  split at h
  · rename_i w'' hrun
    obtain rfl := Option.some.inj h
    exact execute_exec hanswer hrun
  · cases h

/-- A provider, if it can be constructed. -/
def construct (ifidx : Int) (fallback : List AddrPort) (bus : Bus) : Option World :=
  succeeded (execute (reply 0) newResolved (World.fresh ifidx fallback bus))

theorem construct_built {ifidx : Int} {fallback : List AddrPort} {bus : Bus}
    (hifidx : resolvedOptionalIfIndex ifidx = .ok ifidx)
    (h : construct ifidx fallback bus = some w) : Built (replies answer) w := by
  obtain ⟨tr, hex⟩ := exec_of_succeeded (fun _ _ _ _ => reply_steps) h
  exact ⟨ifidx, ifidx, fallback, bus, tr, hifidx, hex⟩

end SysnetLinux.Dns.Resolved
