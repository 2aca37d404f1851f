/-
  SysnetLinux.Dns.Resolved.NoLoop

  No committed route leads back to the managed server.

  A refresh leaves out the servers that it is given.  Under `dnsMu` these include the recorded
  one; the monitor goes by what it has read at its beginning and commits without `dnsMu`, so it
  can commit the server that a `SetDNS` has just put on the link (`stale_sync_loops`).  If it
  commits only while no `SetDNS` holds `dnsMu` and the recorded server is the one it has read,
  there is no loop in any state of any run (`no_loop_of_current`).
-/

import SysnetLinux.Dns.Excluded
import SysnetLinux.Dns.Resolved.Maintenance

namespace SysnetLinux.Dns.Resolved

open Netip List
open CallProg CallProg.Prog CallProg.Threads

/-! ## Configurations -/

/-- A configuration that leaves out the excluded servers. -/
structure Good (exclude : List Addr) (cfg : UpstreamConfig) : Prop where
  signature : cfg.signature = cfg.routes.map UpstreamRoute.signature
  ne : cfg.routes ≠ []
  plain : ∀ route ∈ cfg.routes, PlainURLs route.urls
  saved : ∀ s ∈ cfg.targetServers, Plain s
  free : ∀ addr ∈ exclude, addr.isValid = true → Free addr cfg.routes

/-- The recorded signature is that of the routes, or has been forgotten. -/
structure Sound (u : Upstreams) : Prop where
  signature : u.upstreamSig = [] ∨ u.upstreamSig = u.routes.map UpstreamRoute.signature
  plain : ∀ route ∈ u.routes, PlainURLs route.urls
  saved : ∀ s ∈ u.targetServers, Plain s

variable {exclude : List Addr} {cfg : UpstreamConfig} {server : Addr} {active : Bool}

theorem good_of_ok {r : Reported} {fallback servers : List AddrPort} {domains : List LinkDomain}
    (h : upstreamConfigFromLink r fallback exclude servers domains = .ok cfg)
    (hknown : ∀ s, r.Knows servers s → Plain s) (hfallback : ∀ s ∈ fallback, Plain s) :
    Good exclude cfg := by
  obtain ⟨hne, hsignature, htarget⟩ := upstreamConfigFromLink_ok h
  refine ⟨hsignature, hne, fun route hroute => ?_, fun s hs => ?_,
    fun addr hmem hvalid => free_of_ok h hmem hvalid⟩
  · obtain ⟨hne, hurls⟩ := url_of_ok h hroute
    refine plainURLs_of_servers hne fun url hurl => ?_
    obtain ⟨s, hs, -, hsource, rfl⟩ := hurls url hurl
    exact ⟨s, hs, hsource.elim (hknown s) (hfallback s), rfl⟩
  · have hservers : cfg.targetServers = (targetContribution r exclude servers domains).servers :=
      congrArg Contribution.servers htarget
    rw [hservers] at hs
    exact hknown s (mem_targetLink hs).2

theorem Good.sound (h : Good exclude cfg) :
    Sound (Upstreams.setUpstreamConfig cfg) := ⟨.inr h.signature, h.plain, h.saved⟩

/-- A refresh that is skipped finds the excluded servers left out. -/
theorem Good.free_of_skip {u : Upstreams} (h : Good exclude cfg) (hu : Sound u)
    (hskip : cfg.signature = u.upstreamSig) {addr : Addr} (hmem : addr ∈ exclude)
    (hvalid : addr.isValid = true) : Free addr u.routes := by
  rcases hu.signature with hnil | hsig
  · rw [hnil, h.signature, map_eq_nil_iff] at hskip
    exact absurd hskip h.ne
  · rw [hsig, h.signature] at hskip
    exact free_of_signature h.plain hu.plain hskip (h.free addr hmem hvalid)

/-! ## Servers that resolved reports -/

theorem plain_of_resolved {family : Int} {raw : List (BitVec 8)} {addr : Addr} {port : BitVec 16}
    (h : addrFromResolved family raw = some addr) : Plain ⟨addr, port⟩ := by
  have hzone : addr.zone = "" := by
    unfold addrFromResolved at h
    split at h
    · split at h
      · rw [← Option.some.inj h]
        rfl
      · cases h
    · split at h
      · split at h
        · rw [← Option.some.inj h]
          rfl
        · cases h
      · cases h
  unfold Plain
  rw [hzone]
  decide

theorem returns_any {α : Type} (p : ResolvedProg α) : Returns (fun _ => True) p :=
  yields_of_forall (fun _ _ _ => trivial) p

theorem returns_filterMap {α β : Type} {raw : List α} {addr : α → Option Addr} {f : α → Addr → β}
    {P : β → Prop} (h : ∀ x a, addr x = some a → P (f x a)) :
    Returns (fun l => ∀ s ∈ l, P s)
      (.ret (.ok (raw.filterMap fun x => (addr x).map (f x))) : ResolvedProg (List β)) := by
  refine returns_ok fun s hs => ?_
  obtain ⟨x, -, hx⟩ := mem_filterMap.mp hs
  obtain ⟨a, ha, rfl⟩ := Option.map_eq_some_iff.mp hx
  exact h x a ha

theorem returns_linkDNSServers : Returns (fun servers => ∀ s ∈ servers, Plain s) linkDNSServers := by
  refine returns_andThen (returns_any linkObject) fun link _ r => ?_
  match r with
  | .ok none | .error _ =>
    exact returns_andThen (returns_any _) fun _ _ => returns_filterMap fun _ _ => plain_of_resolved
  | .ok (some raw) => exact returns_filterMap fun _ _ => plain_of_resolved

theorem returns_managerDNSServers :
    Returns (fun servers => ∀ x ∈ servers, Plain x.2) managerDNSServers := by
  intro r
  match r with
  | .ok none | .error _ =>
    exact returns_andThen (returns_any _) fun _ _ => returns_filterMap fun _ _ => plain_of_resolved
  | .ok (some raw) => exact returns_filterMap fun _ _ => plain_of_resolved

theorem returns_targetRead (ifidx : Int) :
    Returns (fun target => ∀ s ∈ target.1, Plain s) (targetRead ifidx) := by
  unfold targetRead
  split
  · exact returns_ok fun s hs => absurd hs not_mem_nil
  · refine returns_andThen returns_linkDNSServers fun servers hservers => ?_
    exact yields_bind (yields_of_forall (fun _ => trivial) linkDomains) fun _ _ => returns_ok hservers

/-! ## Refreshes -/

/-- What a refresh that leaves out `exclude` keeps (`A`) and reaches (`F`). -/
structure Refreshing (B : Handler Call Reply BusError Bus) (i : Nat)
    (W : Handler Call Reply BusError World) (Rely Guar : World → World → Prop)
    (exclude : List Addr) (A F : World → Prop) : Prop where
  refl : ∀ w, Rely w w
  world : ∀ c w r w', W c w r w' → steps B i c w r w'
  stable : ∀ w w', Rely w w' → A w → A w'
  reached : ∀ w w', Rely w w' → A w → F w → F w'
  fallback : ∀ w, A w → ∀ s ∈ w.provider.fallback, Plain s
  sound : ∀ w, A w → Sound w.provider.upstreams
  same : ∀ w w', SamePackage w w' → A w → Guar w w' ∧ A w'
  skip : ∀ cfg w, Good exclude cfg → A w → cfg.signature = w.provider.upstreams.upstreamSig → F w
  commit : ∀ cfg w r w', Good exclude cfg → A w → W (.commit cfg exclude) w r w' →
    Guar w (w.committed cfg) ∧ A (w.committed cfg) ∧ F (w.committed cfg)

section Refreshing

variable {B : Handler Call Reply BusError Bus} {i : Nat} {W : Handler Call Reply BusError World}
  {Rely Guar : World → World → Prop} {exclude : List Addr} {A F : World → Prop} {w : World}

abbrev Relies (W : Handler Call Reply BusError World) (Rely Guar : World → World → Prop)
    {α : Type} (Q : Except (List ResolvedError) α → World → Prop) (p : ResolvedProg α) (w : World) :
    Prop :=
  relies W Rely Guar (fun _ _ => True) Q p w

theorem Refreshing.load (h : Refreshing B i W Rely Guar exclude A F) {β : Type}
    {Q : Except (List ResolvedError) β → World → Prop} {f : Provider → ResolvedProg β} (hA : A w)
    (hf : ∀ w, A w → Relies W Rely Guar Q (f w.provider) w) :
    Relies W Rely Guar Q ((request .other .load).andThen f) w := by
  refine relies_section (h.world _) rfl hA h.stable (fun _ _ => trivial) fun t v t' hAt hact => ?_
  obtain ⟨rfl, rfl⟩ := Prod.ext_iff.mp (Option.some.inj hact)
  exact ⟨(h.same t t (SamePackage.refl t) hAt).1, hf t hAt⟩

theorem Refreshing.reads (h : Refreshing B i W Rely Guar exclude A F) {α : Type}
    {Y : α → Prop} {p : ResolvedProg α} (hp : Reads p) (hY : Returns Y p) (hA : A w) :
    Relies W Rely Guar (fun r w => (∀ a, r = .ok a → Y a) ∧ A w) p w :=
  relies_steady hp hY hA h.stable fun c t hc hAt =>
    ⟨trivial, fun r u hstep => h.same t u (steps_reads hc (h.world c t r u hstep)) hAt⟩

variable {fallback : List AddrPort}

theorem Refreshing.configFromLink (h : Refreshing B i W Rely Guar exclude A F)
    {servers : List AddrPort} (domains : List LinkDomain) (hfallback : ∀ s ∈ fallback, Plain s)
    (hservers : ∀ s ∈ servers, Plain s) (hA : A w) :
    Relies W Rely Guar (fun r w => (∀ cfg, r = .ok cfg → Good exclude cfg) ∧ A w)
      (configFromLink fallback exclude servers domains) w := by
  refine h.load hA fun w hA => ?_
  have hsaved := (h.sound w hA).saved
  refine h.reads ?_ ?_ hA
  · refine issues_andThen reads_managerDNSServers fun managerServers => ?_
    refine issues_bind (issues_decoded (issues_request rfl)) fun managerDomains => ?_
    dsimp only
    split
    · exact trivial
    · exact trivial
  · refine returns_andThen returns_managerDNSServers fun managerServers hmanager => ?_
    refine yields_bind (yields_of_forall (fun _ => trivial) managerDomains) fun domains' _ => ?_
    dsimp only
    split
    · rename_i cfg hcfg
      refine returns_ok (good_of_ok hcfg (fun s hs => ?_) hfallback)
      rcases hs with hs | hs | hs
      · exact hservers s hs
      · exact hsaved s hs
      · obtain ⟨x, hx, rfl⟩ := mem_map.mp hs
        exact hmanager x hx
    · exact returns_error _

theorem Refreshing.install (h : Refreshing B i W Rely Guar exclude A F) {cfg : UpstreamConfig}
    (hgood : Good exclude cfg) (hA : A w) :
    Relies W Rely Guar (fun r w => A w ∧ (r = .ok () → F w)) (install exclude cfg) w := by
  have hend : ∀ w, A w → F w →
      Relies W Rely Guar (fun r w => A w ∧ (r = .ok () → F w)) (.ret (.ok ())) w :=
    fun w hA hF w' hrely => ⟨h.stable w w' hrely hA, fun _ => h.reached w w' hrely hA hF⟩
  refine h.load hA fun w hA => ?_
  split
  · rename_i hskip
    exact hend w hA (h.skip cfg w hgood hA hskip)
  · refine relies_call hA h.stable fun t hAt => ⟨trivial, fun r u hstep => ?_⟩
    obtain ⟨rfl, rfl⟩ := steps_commit (h.world _ _ _ _ hstep)
    obtain ⟨hguar, hnext, hF⟩ := h.commit cfg t _ _ hgood hAt hstep
    cases hclosed : t.provider.closed with
    | false =>
      rw [if_neg (by simp)]
      exact ⟨hguar, hend _ hnext hF⟩
    | true =>
      rw [if_pos rfl]
      refine ⟨(h.same t t (SamePackage.refl t) hAt).1, ?_⟩
      exact fun t' hrely => ⟨h.stable t t' hrely hAt, fun hok => nomatch hok⟩

/-- What a refresh ends with. -/
abbrev Refreshed (A F : World → Prop) (r : Except (List ResolvedError) Unit) (w : World) : Prop :=
  A w ∧ (r = .ok () → F w)

section

variable (h : Refreshing B i W Rely Guar exclude A F)
include h

theorem Refreshing.fail (es : List ResolvedError) (hA : A w) :
    Relies W Rely Guar (Refreshed A F) (.ret (.error es)) w :=
  fun t hrely => ⟨h.stable w t hrely hA, fun hok => nomatch hok⟩

theorem Refreshing.fromLink {servers : List AddrPort} (domains : List LinkDomain)
    (hfallback : ∀ s ∈ fallback, Plain s) (hservers : ∀ s ∈ servers, Plain s) (hA : A w) :
    Relies W Rely Guar (Refreshed A F)
      (refreshUpstreamsFromLink fallback exclude servers domains) w :=
  relies_andThen h.refl (h.configFromLink domains hfallback hservers hA)
    (fun cfg _ hcfg => h.install (hcfg.1 cfg rfl) hcfg.2) fun es _ hes => h.fail es hes.2

theorem Refreshing.withFallback (hfallback : ∀ s ∈ fallback, Plain s) (hA : A w) :
    Relies W Rely Guar (Refreshed A F) (refreshUpstreamsWithFallback fallback exclude) w := by
  have hconfig : Relies W Rely Guar (fun r w => (∀ cfg, r = .ok cfg → Good exclude cfg) ∧ A w)
      (upstreamConfig fallback exclude) w := by
    refine h.load hA fun w hA => ?_
    refine relies_andThen h.refl (h.reads (reads_targetRead _) (returns_targetRead _) hA)
      (fun target t ht => h.configFromLink target.2 hfallback (ht.1 target rfl) ht.2) ?_
    exact fun es t ht t' hrely => ⟨fun cfg hok => (nomatch hok), h.stable t t' hrely ht.2⟩
  exact relies_andThen h.refl hconfig (fun cfg _ hcfg => h.install (hcfg.1 cfg rfl) hcfg.2)
    fun es _ hes => h.fail es hes.2

theorem Refreshing.excluding (hA : A w) :
    Relies W Rely Guar (Refreshed A F) (refreshUpstreamsExcluding exclude) w :=
  h.load hA fun w hA => h.withFallback (h.fallback w hA) hA

end

end Refreshing

/-! ## What a thread relies on -/

/-- No committed route leads to the managed server. -/
structure Loopless (w : World) : Prop where
  fallback : ∀ s ∈ w.provider.fallback, Plain s
  sound : Sound w.provider.upstreams
  valid : w.provider.setDNSActive = true → w.provider.setDNS.isValid = true
  free : w.provider.setDNSActive = true → Free w.provider.setDNS w.provider.upstreams.routes

/-- What the other threads leave to thread `i`. -/
structure KeepsRoutes (i : Nat) (w w' : World) : Prop where
  loopless : Loopless w → Loopless w'
  held : ∀ op, w.dnsMu = some (i, op) → w'.dnsMu = some (i, op) ∧
    w'.provider.setDNS = w.provider.setDNS ∧
    w'.provider.setDNSActive = w.provider.setDNSActive ∧
    (op.setsDNS = true → w'.provider.upstreams = w.provider.upstreams)

/-- What thread `i` promises. -/
def SparesRoutes (i : Nat) (w w' : World) : Prop := ∀ j, j ≠ i → KeepsRoutes j w w'

/-- The monitor commits what is current: no `SetDNS` holds `dnsMu`, and the managed server is
    among those that have been left out. -/
def Current : Call → World → Prop
  | .commit _ exclude, w => (∀ j op, w.dnsMu = some (j, op) → op.setsDNS = false) ∧
      (w.provider.setDNSActive = true → w.provider.setDNS ∈ exclude)
  | _, _ => True

/-- The steps of a thread, if the monitor commits what is current. -/
def currentSteps (B : Handler Call Reply BusError Bus) (i : Nat) (op : Operation) :
    Handler Call Reply BusError World :=
  fun c w r w' => (op = .sync → Current c w) ∧ steps B i c w r w'

variable {B : Handler Call Reply BusError Bus} {i : Nat} {op : Operation} {w w' : World}

theorem KeepsRoutes.refl (i : Nat) (w : World) : KeepsRoutes i w w :=
  ⟨id, fun _ hmu => ⟨hmu, rfl, rfl, fun _ => rfl⟩⟩

theorem KeepsRoutes.trans {u v : World} (h : KeepsRoutes i u v) (h' : KeepsRoutes i v w) :
    KeepsRoutes i u w where
  loopless := fun hu => h'.loopless (h.loopless hu)
  held := fun op hmu => by
    obtain ⟨hmu, hserver, hactive, hroutes⟩ := h.held op hmu
    obtain ⟨hmu', hserver', hactive', hroutes'⟩ := h'.held op hmu
    exact ⟨hmu', hserver'.trans hserver, hactive'.trans hactive,
      fun hop => (hroutes' hop).trans (hroutes hop)⟩

theorem SparesRoutes.loopless (h : SparesRoutes i w w') (hw : Loopless w) : Loopless w' :=
  (h (i + 1) (Nat.succ_ne_self i)).loopless hw

/-- A step under `dnsMu`, or before it is acquired. -/
theorem sparesRoutes_of_held (hmu : ∀ j op', w.dnsMu = some (j, op') → j = i)
    (hloopless : Loopless w → Loopless w') : SparesRoutes i w w' :=
  fun j hj => ⟨hloopless, fun op' hmu' => absurd (hmu j op' hmu') hj⟩

theorem held_eq (h : w.dnsMu = some (i, op)) : ∀ j op', w.dnsMu = some (j, op') → j = i := by
  intro j op' hmu
  rw [h] at hmu
  exact (congrArg Prod.fst (Option.some.inj hmu)).symm

theorem SamePackage.sparesRoutes (h : SamePackage w w') (i : Nat) : SparesRoutes i w w' := by
  intro j _
  refine ⟨fun hw => ?_, fun op hmu => ?_⟩
  · exact ⟨by rw [h.provider]; exact hw.fallback, by rw [h.provider]; exact hw.sound,
      by rw [h.provider]; exact hw.valid, by rw [h.provider]; exact hw.free⟩
  · rw [h.provider]
    exact ⟨h.dnsMu.trans hmu, rfl, rfl, fun _ => rfl⟩

theorem SamePackage.keepsRoutes (h : SamePackage w w') : KeepsRoutes i w w' :=
  h.sparesRoutes (i + 1) i (Nat.succ_ne_self i).symm

/-- A commit that leaves out the managed server. -/
theorem Loopless.committed (h : Loopless w) (hgood : Good exclude cfg)
    (hcurrent : w.provider.setDNSActive = true → w.provider.setDNS ∈ exclude) :
    Loopless (w.committed cfg) :=
  ⟨h.fallback, hgood.sound, h.valid,
    fun hactive => hgood.free _ (hcurrent hactive) (h.valid hactive)⟩

theorem Loopless.forget (h : Loopless w) : Loopless w.forget :=
  ⟨h.fallback, h.sound, fun hactive => (nomatch hactive), fun hactive => (nomatch hactive)⟩

theorem Loopless.selected (h : Loopless w) (ifidx : Int) : Loopless (w.selected ifidx) :=
  ⟨h.fallback, ⟨.inl rfl, h.sound.plain, fun _ hs => absurd hs not_mem_nil⟩, h.valid, h.free⟩

theorem Loopless.installed (h : Loopless w) (hvalid : server.isValid = true)
    (hfree : Free server w.provider.upstreams.routes) : Loopless (w.installed server) :=
  ⟨h.fallback, h.sound, fun _ => hvalid, fun _ => hfree⟩

/-! ## Rules for the parts of an operation -/

abbrev Sparing (B : Handler Call Reply BusError Bus) (i : Nat) (op : Operation) {α : Type}
    (Q : Except (List ResolvedError) α → World → Prop) (p : ResolvedProg α) (w : World) : Prop :=
  Relies (currentSteps B i op) (KeepsRoutes i) (SparesRoutes i) Q p w

section Rules

variable {α β : Type} {A : World → Prop} {Q : Except (List ResolvedError) β → World → Prop}

variable {p : ResolvedProg α} {server : Addr}

theorem sparing_bind {f : Except (List ResolvedError) α → ResolvedProg β}
    {X : Except (List ResolvedError) α → World → Prop} (hp : Sparing B i op X p w)
    (hf : ∀ a w, X a w → Sparing B i op Q (f a) w) :
    Sparing B i op Q (p.bind f) w := relies_then (KeepsRoutes.refl i) hp hf

theorem sparing_section {c : Call} {f : Reply c → ResolvedProg β} (hc : c.internal = true)
    (hA : A w) (hstable : ∀ w w', KeepsRoutes i w w' → A w → A w')
    (hsection : ∀ w v w', A w → act i c w = some (v, w') →
      SparesRoutes i w w' ∧ Sparing B i op Q (f v) w') :
    Sparing B i op Q ((request .other c).andThen f) w :=
  relies_section (fun _ _ _ h => h.2) hc hA hstable (fun _ _ => trivial) hsection

theorem sparing_load {f : Provider → ResolvedProg β} (hA : A w)
    (hstable : ∀ w w', KeepsRoutes i w w' → A w → A w')
    (hf : ∀ w, A w → Sparing B i op Q (f w.provider) w) :
    Sparing B i op Q ((request .other .load).andThen f) w :=
  relies_load (fun _ _ _ h => h.2) hA hstable (fun _ _ => trivial)
    (fun t => (SamePackage.refl t).sparesRoutes i) hf

theorem sparing_steady {P : Call → Prop} (hp : Issues P p)
    (hsame : ∀ c w r w', P c → steps B i c w r w' → SamePackage w w') (hA : A w)
    (hstable : ∀ w w', KeepsRoutes i w w' → A w → A w') : Sparing B i op (fun _ => A) p w := by
  refine relies_mono (fun _ _ h => h) (fun _ _ h => h) (fun _ _ h => h.2)
    (relies_steady hp (yields_of_forall (fun _ => trivial) p) hA hstable ?_)
  refine fun c t hc hAt => ⟨trivial, fun r u hstep => ?_⟩
  have h := hsame c t r u hc hstep.2
  exact ⟨h.sparesRoutes i, hstable t u h.keepsRoutes hAt⟩

theorem sparing_applies (hp : Issues (Call.Applies server) p) (hA : A w)
    (hstable : ∀ w w', KeepsRoutes i w w' → A w → A w') :
    Sparing B i op (fun _ => A) p w :=
  sparing_steady hp (fun _ _ _ _ hc h => steps_applies hc h) hA hstable

theorem sparing_reverts (hp : Reverts p) (hA : A w)
    (hstable : ∀ w w', KeepsRoutes i w w' → A w → A w') : Sparing B i op (fun _ => A) p w :=
  sparing_steady hp (fun _ _ _ _ hc h => steps_reverts hc h) hA hstable

/-- Thread `i` holds `dnsMu` for `op`. -/
structure Owning (i : Nat) (op : Operation) (w : World) : Prop where
  held : w.dnsMu = some (i, op)
  loopless : Loopless w

theorem Owning.stable (h : KeepsRoutes i w w') (hw : Owning i op w) : Owning i op w' :=
  ⟨(h.held op hw.held).1, h.loopless hw.loopless⟩

theorem loopless_stable (w w' : World) (h : KeepsRoutes i w w') : Loopless w → Loopless w' :=
  h.loopless

theorem sparing_locked {op' : Operation} (hw : Loopless w)
    (hbody : ∀ w, Owning i op' w → Sparing B i op (fun _ => Owning i op') p w) :
    Sparing B i op (fun _ => Loopless) (locked op' p) w := by
  refine sparing_section rfl hw loopless_stable fun t _ t' ht hact => ?_
  obtain ⟨hfree, rfl⟩ := act_lockDNS hact
  have hnext : Loopless (t.acquired i op') := ⟨ht.fallback, ht.sound, ht.valid, ht.free⟩
  refine ⟨sparesRoutes_of_held (fun j op'' hmu => ?_) fun _ => hnext, ?_⟩
  · rw [hfree] at hmu
    cases hmu
  refine sparing_bind (hbody _ ⟨rfl, hnext⟩) fun result u hu => ?_
  refine sparing_section rfl hu (fun _ _ => Owning.stable) fun v _ v' hv hact => ?_
  obtain rfl := act_unlockDNS hv.held hact
  have hnext : Loopless (v.released op') :=
    ⟨hv.loopless.fallback, hv.loopless.sound, hv.loopless.valid, hv.loopless.free⟩
  exact ⟨sparesRoutes_of_held (held_eq hv.held) fun _ => hnext,
    relies_ret hnext loopless_stable fun _ h => h⟩

/-- The holder of `dnsMu` knows the managed server. -/
structure Knowing (i : Nat) (op : Operation) (server : Addr) (active : Bool) (w : World) : Prop
    extends Owning i op w where
  server_eq : w.provider.setDNS = server
  active_eq : w.provider.setDNSActive = active

theorem Knowing.stable {active : Bool} (h : KeepsRoutes i w w') (hw : Knowing i op server active w) :
    Knowing i op server active w' := by
  obtain ⟨-, hserver, hactive, -⟩ := h.held op hw.held
  exact ⟨hw.toOwning.stable h, hserver.trans hw.server_eq, hactive.trans hw.active_eq⟩

theorem Owning.knowing (h : Owning i op w) :
    Knowing i op w.provider.setDNS w.provider.setDNSActive w := ⟨h, rfl, rfl⟩

/-- A refresh under `dnsMu` that leaves out the managed server, of an operation that is not
    the monitor's. -/
theorem refreshing_held {active : Bool} {exclude : List Addr} {F : World → Prop}
    (hexclude : active = true → server ∈ exclude)
    (hreached : ∀ w w', KeepsRoutes i w w' → Knowing i op server active w → F w → F w')
    (hskip : ∀ cfg w, Good exclude cfg → Sound w.provider.upstreams →
      cfg.signature = w.provider.upstreams.upstreamSig → F w)
    (hcommit : ∀ cfg w, Good exclude cfg → F (World.committed w cfg)) :
    Refreshing B i (currentSteps B i op) (KeepsRoutes i) (SparesRoutes i) exclude
      (Knowing i op server active) F where
  refl := KeepsRoutes.refl i
  world := fun _ _ _ _ h => h.2
  stable := fun _ _ => Knowing.stable
  reached := hreached
  fallback := fun _ h => h.loopless.fallback
  sound := fun _ h => h.loopless.sound
  same := fun _ _ hsame h => ⟨hsame.sparesRoutes i, h.stable hsame.keepsRoutes⟩
  skip := fun cfg w hgood h hsig => hskip cfg w hgood h.loopless.sound hsig
  commit := fun cfg w _ _ hgood h _ => by
    have hcurrent : w.provider.setDNSActive = true → w.provider.setDNS ∈ exclude := by
      rw [h.active_eq, h.server_eq]
      exact hexclude
    have hnext := h.loopless.committed hgood hcurrent
    exact ⟨sparesRoutes_of_held (held_eq h.held) fun _ => hnext,
      ⟨⟨h.held, hnext⟩, h.server_eq, h.active_eq⟩, hcommit cfg w hgood⟩

end Rules

/-! ## The operations -/

/-- `SetDNS` has left out its server. -/
structure Cleared (i : Nat) (server old : Addr) (active : Bool) (w : World) : Prop
    extends Knowing i (.setDNS server) old active w where
  free : Free server w.provider.upstreams.routes

theorem free_stable {old : Addr} (h : KeepsRoutes i w w')
    (hw : Knowing i (.setDNS server) old active w)
    (hfree : Free server w.provider.upstreams.routes) :
    Free server w'.provider.upstreams.routes := by
  rw [(h.held _ hw.held).2.2.2 rfl]
  exact hfree

theorem Cleared.stable {old : Addr} (h : KeepsRoutes i w w') (hw : Cleared i server old active w) :
    Cleared i server old active w' :=
  ⟨hw.toKnowing.stable h, free_stable h hw.toKnowing hw.free⟩

theorem mem_setDNSExclude (server : Addr) (r : Provider) : server ∈ setDNSExclude server r := by
  unfold setDNSExclude
  split
  · exact mem_cons_self
  · exact mem_cons_self

theorem old_mem_setDNSExclude (server : Addr) {r : Provider} (h : r.setDNSActive = true) :
    r.setDNS ∈ setDNSExclude server r := by
  unfold setDNSExclude
  rw [if_pos h]
  simp

theorem sparing_setDNS (server : Addr) (hw : Loopless w) :
    Sparing B i (.setDNS server) (fun _ => Loopless) (setDNS server) w := by
  refine sparing_locked hw fun w hown => ?_
  have hstable : ∀ w w', KeepsRoutes i w w' → Owning i (.setDNS server) w →
      Owning i (.setDNS server) w' := fun _ _ => Owning.stable
  refine sparing_load hown hstable fun w hown => ?_
  split
  · exact relies_ret hown hstable fun _ h => h
  split
  · exact relies_ret hown hstable fun _ h => h
  rename_i hvalid
  have hvalid : server.isValid = true := Bool.eq_true_of_not_eq_false hvalid
  refine sparing_load hown hstable fun w hown => ?_
  generalize hr : w.provider = r
  have hknow : Knowing i (.setDNS server) r.setDNS r.setDNSActive w := by
    rw [← hr]
    exact hown.knowing
  have hrefresh : Refreshing B i (currentSteps B i (.setDNS server)) (KeepsRoutes i)
      (SparesRoutes i) (setDNSExclude server r)
      (Knowing i (.setDNS server) r.setDNS r.setDNSActive)
      (fun w => Free server w.provider.upstreams.routes) :=
    refreshing_held (fun hactive => old_mem_setDNSExclude server hactive) (fun _ _ => free_stable)
      (fun cfg w hgood hsound hsig =>
        hgood.free_of_skip hsound hsig (mem_setDNSExclude server r) hvalid)
      fun cfg w hgood => hgood.free server (mem_setDNSExclude server r) hvalid
  refine relies_andThen (KeepsRoutes.refl i) (hrefresh.excluding hknow) (fun _ w hdone => ?_)
    fun _ w hdone => relies_ret hdone.1 (fun _ _ => Knowing.stable) fun _ h => h.toOwning
  have hclear : Cleared i server r.setDNS r.setDNSActive w := ⟨hdone.1, hdone.2 rfl⟩
  have hcleared : ∀ w w', KeepsRoutes i w w' → Cleared i server r.setDNS r.setDNSActive w →
      Cleared i server r.setDNS r.setDNSActive w' := fun _ _ => Cleared.stable
  refine relies_andThen (KeepsRoutes.refl i)
    (sparing_applies (applies_applyDNS server) hclear hcleared) (fun _ w hclear => ?_)
    fun _ w hclear => relies_ret hclear hcleared fun _ h => h.toOwning
  refine relies_call hclear hcleared fun t ht => ⟨trivial, fun r' u hstep => ?_⟩
  obtain ⟨rfl, rfl⟩ := steps_act rfl rfl hstep.2
  have hnext : Owning i (.setDNS server) (t.installed server) :=
    ⟨ht.held, ht.loopless.installed hvalid ht.free⟩
  exact ⟨sparesRoutes_of_held (held_eq ht.held) fun _ => hnext.loopless,
    relies_ret hnext hstable fun _ h => h⟩

/-- A refresh under `dnsMu` that is not made for a new server. -/
theorem sparing_refresh {exclude : Addr} (hexclude : active = true → exclude = server)
    (hw : Knowing i op server active w) :
    Sparing B i op (fun _ => Knowing i op server active) (refreshUpstreams exclude) w := by
  have hrefresh : Refreshing B i (currentSteps B i op) (KeepsRoutes i) (SparesRoutes i) [exclude]
      (Knowing i op server active) (fun _ => True) :=
    refreshing_held (fun hactive => by rw [hexclude hactive]; exact mem_cons_self)
      (fun _ _ _ _ _ => trivial) (fun _ _ _ _ _ => trivial) fun _ _ _ => trivial
  exact relies_mono (fun _ _ h => h) (fun _ _ h => h) (fun _ _ h => h.1) (hrefresh.excluding hw)

theorem sparing_unsetDNS (hw : Loopless w) :
    Sparing B i .unsetDNS (fun _ => Loopless) unsetDNS w := by
  refine sparing_locked hw fun w hown => ?_
  refine sparing_section rfl hown (fun _ _ => Owning.stable) fun t v t' ht hact => ?_
  obtain ⟨hv, ht'⟩ := Prod.ext_iff.mp (Option.some.inj hact)
  obtain rfl : t.provider = v := hv
  have ht' : (if t.provider.closed = true then t else t.forget) = t' := ht'
  by_cases hclosed : t.provider.closed = true
  · rw [if_pos hclosed] at ht' ⊢
    rw [← ht']
    exact ⟨(SamePackage.refl t).sparesRoutes i, relies_ret ht (fun _ _ => Owning.stable) fun _ h => h⟩
  rw [if_neg hclosed] at ht' ⊢
  rw [← ht']
  have hforgotten : Knowing i .unsetDNS .zero false t.forget :=
    ⟨⟨ht.held, ht.loopless.forget⟩, rfl, rfl⟩
  have hstable : ∀ w w', KeepsRoutes i w w' → Knowing i .unsetDNS .zero false w →
      Knowing i .unsetDNS .zero false w' := fun _ _ => Knowing.stable
  refine ⟨sparesRoutes_of_held (held_eq ht.held) fun _ => hforgotten.loopless, ?_⟩
  split
  · exact relies_ret hforgotten hstable fun _ h => h.toOwning
  refine sparing_bind (sparing_reverts reverts_revertDNS hforgotten hstable) fun reverted w hw => ?_
  have hrefresh : ∀ exclude, Sparing B i .unsetDNS (fun _ => Knowing i .unsetDNS .zero false)
      (refreshUpstreams exclude) w := fun exclude => sparing_refresh (fun h => (nomatch h)) hw
  cases reverted with
  | ok _ =>
    exact relies_mono (fun _ _ h => h) (fun _ _ h => h) (fun _ _ h => h.toOwning) (hrefresh _)
  | error es =>
    exact sparing_bind (hrefresh _) fun _ w hw => relies_ret hw hstable fun _ h => h.toOwning

theorem sparing_close (hw : Loopless w) : Sparing B i .close (fun _ => Loopless) close w := by
  refine sparing_section rfl hw loopless_stable fun t v t' ht hact => ?_
  obtain ⟨-, ht'⟩ := Prod.ext_iff.mp (Option.some.inj hact)
  obtain rfl : t.shut = t' := ht'
  have hshut : Loopless t.shut := ⟨ht.fallback, ht.sound, ht.valid, ht.free⟩
  refine ⟨fun j _ => ⟨fun _ => hshut, fun _ hmu => ⟨hmu, rfl, rfl, fun _ => rfl⟩⟩, ?_⟩
  cases v with
  | none => exact relies_ret hshut loopless_stable fun _ h => h
  | some routes =>
    refine sparing_locked hshut fun w hown => ?_
    exact sparing_reverts (reverts_closing routes) hown fun _ _ => Owning.stable

theorem sparing_switchLink {ifidx' : Int} {r : Provider} (ifidx : Int)
    (hw : Knowing i (.setInterfaceIndex ifidx) r.setDNS r.setDNSActive w) :
    Sparing B i (.setInterfaceIndex ifidx) (fun _ => Owning i (.setInterfaceIndex ifidx))
      (switchLink r ifidx') w := by
  have hstable : ∀ w w', KeepsRoutes i w w' →
      Knowing i (.setInterfaceIndex ifidx) r.setDNS r.setDNSActive w →
      Knowing i (.setInterfaceIndex ifidx) r.setDNS r.setDNSActive w' := fun _ _ => Knowing.stable
  have hend : ∀ result w, Knowing i (.setInterfaceIndex ifidx) r.setDNS r.setDNSActive w →
      Sparing B i (.setInterfaceIndex ifidx) (fun _ => Owning i (.setInterfaceIndex ifidx))
        (.ret result : ResolvedProg Unit) w :=
    fun _ _ hw => relies_ret hw hstable fun _ h => h.toOwning
  refine sparing_bind (sparing_reverts (reverts_revertLink _) hw hstable) fun reverted w hw => ?_
  refine sparing_section rfl hw hstable fun t _ t' ht hact => ?_
  obtain ⟨-, ht'⟩ := Prod.ext_iff.mp (Option.some.inj hact)
  obtain rfl : t.selected ifidx' = t' := ht'
  have hnext : Knowing i (.setInterfaceIndex ifidx) r.setDNS r.setDNSActive (t.selected ifidx') :=
    ⟨⟨ht.held, ht.loopless.selected ifidx'⟩, ht.server_eq, ht.active_eq⟩
  refine ⟨sparesRoutes_of_held (held_eq ht.held) fun _ => hnext.loopless, ?_⟩
  refine sparing_bind (sparing_refresh (fun hactive => if_pos hactive) hnext)
    fun refreshed w hw => ?_
  split
  · exact sparing_bind (sparing_applies (applies_applyDNS _) hw hstable) fun _ w hw => hend _ w hw
  · exact hend _ w hw

theorem sparing_setInterfaceIndex (ifidx : Int) (hw : Loopless w) :
    Sparing B i (.setInterfaceIndex ifidx) (fun _ => Loopless) (setInterfaceIndex ifidx) w := by
  unfold setInterfaceIndex
  split
  · exact relies_ret hw loopless_stable fun _ h => h
  refine sparing_locked hw fun w hown => ?_
  have hstable : ∀ w w', KeepsRoutes i w w' → Owning i (.setInterfaceIndex ifidx) w →
      Owning i (.setInterfaceIndex ifidx) w' := fun _ _ => Owning.stable
  refine sparing_load hown hstable fun w hown => ?_
  split
  · exact relies_ret hown hstable fun _ h => h
  split
  · exact relies_ret hown hstable fun _ h => h
  split
  · exact relies_ret hown hstable fun _ h => h
  exact sparing_switchLink ifidx hown.knowing

/-- A refresh of the monitor, which commits what is current. -/
theorem refreshing_sync (exclude : List Addr) :
    Refreshing B i (currentSteps B i .sync) (KeepsRoutes i) (SparesRoutes i) exclude Loopless
      (fun _ => True) where
  refl := KeepsRoutes.refl i
  world := fun _ _ _ _ h => h.2
  stable := loopless_stable
  reached := fun _ _ _ _ _ => trivial
  fallback := fun _ h => h.fallback
  sound := fun _ h => h.sound
  same := fun _ _ hsame h => ⟨hsame.sparesRoutes i, (hsame.sparesRoutes i).loopless h⟩
  skip := fun _ _ _ _ _ => trivial
  commit := fun cfg w _ _ hgood h hstep => by
    obtain ⟨hnone, hcurrent⟩ := hstep.1 rfl
    have hnext := h.committed hgood hcurrent
    refine ⟨fun j _ => ⟨fun _ => hnext, fun op hmu => ⟨hmu, rfl, rfl, fun hop => ?_⟩⟩, hnext, trivial⟩
    rw [hnone j op hmu] at hop
    cases hop

theorem sparing_reapplyDNS (server : Addr) (hw : Loopless w) :
    Sparing B i .sync (fun _ => Loopless) (reapplyDNS server) w := by
  refine sparing_locked hw fun w hown => ?_
  have hstable : ∀ w w', KeepsRoutes i w w' → Owning i .sync w → Owning i .sync w' :=
    fun _ _ => Owning.stable
  refine sparing_load hown hstable fun w hown => ?_
  split
  · refine relies_andThen (KeepsRoutes.refl i)
      (sparing_applies (applies_applyDNS server) hown hstable) (fun _ w hown => ?_)
      fun _ w hown => relies_ret hown hstable fun _ h => h
    exact relies_ret hown hstable fun _ h => h
  · exact relies_ret hown hstable fun _ h => h

theorem sparing_sync (hw : Loopless w) :
    Sparing B i .sync (fun _ => Loopless) syncResolvedState w := by
  have hfail : ∀ {α : Type} (es : List ResolvedError) w, Loopless w →
      Sparing B i .sync (fun _ => Loopless) (.ret (.error es) : ResolvedProg α) w :=
    fun _ _ hw => relies_ret hw loopless_stable fun _ h => h
  refine sparing_load hw loopless_stable fun w hw => ?_
  split
  · exact hfail _ w hw
  have hfallback := hw.fallback
  generalize w.provider = r at hfallback ⊢
  refine relies_andThen (KeepsRoutes.refl i)
    ((refreshing_sync []).reads (reads_targetRead _) (returns_targetRead _) hw)
    (fun target w ht => ?_) fun es w ht => hfail es w ht.2
  obtain ⟨htarget, hw⟩ := ht
  have htarget := htarget target rfl
  have hreapply : Sparing B i .sync (fun _ => Loopless)
      (reapplyDNSIfNeeded r.setDNSActive r.setDNS target.1) w := by
    unfold reapplyDNSIfNeeded
    split
    · exact relies_ret hw loopless_stable fun _ h => h
    refine relies_andThen (KeepsRoutes.refl i)
      (sparing_steady (reads_linkConfigNeedsApply _ _) (fun _ _ _ _ hc h => steps_reads hc h) hw
        loopless_stable)
      (fun needsApply w hw => ?_) hfail
    split
    · exact sparing_reapplyDNS _ hw
    · exact relies_ret hw loopless_stable fun _ h => h
  refine relies_andThen (KeepsRoutes.refl i) hreapply (fun applied w hw => ?_) hfail
  have hdone : ∀ {p : ResolvedProg Unit}, Sparing B i .sync (Refreshed Loopless fun _ => True) p w →
      Sparing B i .sync (fun _ => Loopless) p w :=
    relies_mono (fun _ _ h => h) (fun _ _ h => h) fun _ _ h => h.1
  split
  · exact hdone ((refreshing_sync _).fromLink target.2 hfallback htarget hw)
  · exact hdone ((refreshing_sync _).withFallback hfallback hw)

theorem sparing_code (op : Operation) (hw : Loopless w) :
    Sparing B i op (fun _ => Loopless) op.code w := by
  cases op with
  | setDNS server => exact sparing_setDNS server hw
  | unsetDNS => exact sparing_unsetDNS hw
  | setInterfaceIndex ifidx => exact sparing_setInterfaceIndex ifidx hw
  | close => exact sparing_close hw
  | sync => exact sparing_sync hw

/-! ## No loop in any run -/

/-- A refresh while nothing else runs and no server is managed. -/
theorem refreshing_alone : Refreshing B 0 (steps B 0) Eq (fun _ _ => True) [.zero]
    (fun w => Loopless w ∧ w.provider.setDNSActive = false) (fun _ => True) where
  refl := fun _ => rfl
  world := fun _ _ _ _ h => h
  stable := fun _ _ heq h => heq ▸ h
  reached := fun _ _ _ _ _ => trivial
  fallback := fun _ h => h.1.fallback
  sound := fun _ h => h.1.sound
  same := fun _ _ hsame h => by
    refine ⟨trivial, (hsame.sparesRoutes 0).loopless h.1, ?_⟩
    rw [hsame.provider]
    exact h.2
  skip := fun _ _ _ _ _ => trivial
  commit := fun cfg w _ _ hgood h _ => by
    have hinactive : w.provider.setDNSActive = true → w.provider.setDNS ∈ [Addr.zero] := by
      intro hactive
      rw [h.2] at hactive
      cases hactive
    exact ⟨trivial, ⟨h.1.committed hgood hinactive, h.2⟩, trivial⟩

theorem Built.loopless (h : Built B w) (hfallback : ∀ s ∈ w.provider.fallback, Plain s) :
    Loopless w := by
  obtain ⟨ifidx, fallback, bus, tr, u, hex, hsame, -⟩ := h.refreshed
  have hkept : u.provider.fallback = fallback := by
    refine (wp_sound (I := fun _ _ => True) hex (wp_steady
      (A := fun w => w.provider.fallback = fallback) (refreshes_excluding [.zero]) rfl
      fun c t hc ht => ⟨trivial, fun r t' hstep => ?_⟩)).2
    rw [(steps_refreshes hc hstep).provider]
    exact ht
  rw [hsame.provider, hkept] at hfallback
  have hfresh : Loopless (World.fresh ifidx fallback bus) :=
    ⟨hfallback, ⟨.inl rfl, fun _ hs => absurd hs not_mem_nil,
      fun _ hs => absurd hs not_mem_nil⟩, fun hactive => (nomatch hactive),
      fun hactive => (nomatch hactive)⟩
  have hdone := relies_exec (fun _ => rfl) hex (refreshing_alone.excluding ⟨hfresh, rfl⟩)
  exact (hsame.sparesRoutes 0).loopless hdone.1.1

/-- Every commit of the monitor is current. -/
def CurrentCommits (cfg : ResolvedConfig) : Action Nat Operation Call Reply BusError → Prop
  | .start _ _ => True
  | .call i c _ => ∀ p, cfg.threads i = some (.sync, p) → Current c cfg.shared

/-- In every run in which the monitor commits only what is current, whatever resolved
    answers: while DNS is managed, no committed route names the managed server. -/
theorem no_loop_of_current {w₀ : World} (hbuilt : Built B w₀)
    (hfallback : ∀ s ∈ w₀.provider.fallback, Plain s) {cfg : ResolvedConfig}
    (hreach : Reach Operation.code (steps B) CurrentCommits w₀ cfg)
    (hactive : cfg.shared.provider.setDNSActive = true) :
    ∀ route ∈ cfg.shared.provider.upstreams.routes,
      ¬ NamesAddr route.urls cfg.shared.provider.setDNS := by
  have hothers : ∀ i j s t, i ≠ j → Loopless s → SparesRoutes i s t → KeepsRoutes j s t :=
    fun i j _ _ hne _ hspares => hspares j hne.symm
  have hall := Reach.relied (fun i op => currentSteps B i op) KeepsRoutes SparesRoutes
    (fun _ _ _ _ => True) (fun _ _ _ => Loopless) Loopless
    (fun _ _ op _ _ _ _ hallowed hthread hstep =>
      ⟨fun hop => hallowed _ (hop ▸ hthread), hstep⟩)
    KeepsRoutes.refl (fun _ _ _ _ => KeepsRoutes.trans) hothers
    (fun _ _ _ hw hspares => hspares.loopless hw) (hbuilt.loopless hfallback)
    (fun _ _ op _ _ hw => sparing_code op hw) hreach
  exact hall.1.free hactive

/-- The steps of thread 1, if it commits what is current. -/
def replyCurrent : (c : Call) → World → Option (Except BusError (Reply c) × World)
  | .commit cfg exclude, w =>
    if w.dnsMu = none ∧ w.provider.setDNS ∈ exclude then reply 1 (.commit cfg exclude) w else none
  | c, w => reply 1 c w

theorem replyCurrent_steps {c : Call} {r : Except BusError (Reply c)}
    (h : replyCurrent c w = some (r, w')) : currentSteps (replies answer) 1 .sync c w r w' := by
  cases c with
  | commit cfg exclude =>
    obtain ⟨⟨hfree, hexclude⟩, h⟩ := Option.ite_none_right_eq_some.mp h
    refine ⟨fun _ => ⟨fun j op hmu => ?_, fun _ => hexclude⟩, reply_steps h⟩
    rw [hfree] at hmu
    cases hmu
  | _ => exact ⟨fun _ => trivial, reply_steps h⟩

/-- A constructed provider with a fallback, the same after `SetDNS` of the only server that
    resolved has and then of another one, and after a round of its monitor. -/
def settledSample : Option (World × World × World) :=
  (construct 2 [⟨.v4 0x08080808, 53⟩]
      ⟨[(2, Link.blank)], [⟨0, afInet, [10, 0, 0, 1], 0⟩], [], true, true⟩).bind fun w =>
    (succeeded (execute (reply 0) (setDNS sampleServer) w)).bind fun s =>
      (succeeded (execute (reply 2) (setDNS (.v4 0x0a000002)) s)).bind fun s =>
        (succeeded (execute replyCurrent syncResolvedState s)).map fun t => (w, s, t)

/-- The round of the monitor commits the server of resolved in place of the fallback. -/
theorem no_loop_of_current_settled : ∃ w s t : World, settledSample = some (w, s, t) ∧
    w.provider.fallback ≠ [] ∧ t.provider.upstreams ≠ s.provider.upstreams ∧
    ∀ route ∈ t.provider.upstreams.routes, ¬ NamesAddr route.urls t.provider.setDNS := by
  have hrun : settledSample.any (fun x => decide
      (x.1.provider.fallback = [⟨.v4 0x08080808, 53⟩] ∧
        x.2.2.provider.upstreams ≠ x.2.1.provider.upstreams ∧
        x.2.2.provider.setDNSActive = true)) = true := by decide +kernel
  obtain ⟨⟨w, s, t⟩, hsample, hchecks⟩ := (Option.any_eq_true _ _).mp hrun
  obtain ⟨hfallback, hcommits, hactive⟩ := of_decide_eq_true hchecks
  refine ⟨w, s, t, hsample, by rw [hfallback]; exact cons_ne_nil _ _, hcommits, ?_⟩
  obtain ⟨_, hw, hrest⟩ := Option.bind_eq_some_iff.mp hsample
  obtain ⟨_, hfirst, hrest⟩ := Option.bind_eq_some_iff.mp hrest
  obtain ⟨_, hs, hrest⟩ := Option.bind_eq_some_iff.mp hrest
  obtain ⟨_, ht, heq⟩ := Option.map_eq_some_iff.mp hrest
  cases heq
  obtain ⟨_, hset⟩ := exec_of_succeeded (fun _ _ _ _ => reply_steps) hfirst
  obtain ⟨_, hsecond⟩ := exec_of_succeeded (fun _ _ _ _ => reply_steps) hs
  obtain ⟨_, hsync⟩ := exec_of_succeeded (fun _ _ _ _ => replyCurrent_steps) ht
  have hstart : Reach Operation.code (steps (replies answer)) CurrentCommits w
      ((Config.initial w : ResolvedConfig).goOn 0 (.setDNS sampleServer) (setDNS sampleServer) w) :=
    .step (a := .start 0 (.setDNS sampleServer)) .initial trivial (.start rfl)
  have hmanaged := hstart.exec (fun _ _ _ _ _ hthread h =>
    ⟨fun p hp => (nomatch hthread.symm.trans hp), h⟩) hset
  have hmanaged := Reach.exec (fun _ _ _ _ _ hthread h =>
    ⟨fun p hp => (nomatch hthread.symm.trans hp), h⟩) hsecond
    (hmanaged.step (a := .start 2 (.setDNS (.v4 0x0a000002))) trivial (.start rfl))
  have hsynced := Reach.exec (fun _ _ _ _ _ _ h => ⟨fun _ _ => h.1 rfl, h.2⟩) hsync
    (hmanaged.step (a := .start 1 .sync) trivial (.start rfl))
  refine no_loop_of_current (construct_built (by decide) hw) ?_ hsynced hactive
  rw [hfallback]
  decide

/-- The monitor reads before `SetDNS` has recorded its server and commits after the link has it. -/
def staleTurns : List (Turn Nat Operation) :=
  [.start 0 .sync, .go 0, .start 1 (.setDNS sampleServer)] ++ List.replicate 19 (.go 1) ++
    List.replicate 18 (.go 0) ++ List.replicate 7 (.go 1)

/-- Whether a route leads to the managed server. -/
def loops (cfg : ResolvedConfig) : Bool :=
  cfg.shared.provider.setDNSActive && cfg.shared.provider.upstreams.routes.any fun route =>
    decide ("udp://" ++ AddrPort.string ⟨cfg.shared.provider.setDNS, 53⟩ ∈ route.urls)

theorem stale_sync_loops : ∃ w₀ cfg, Built (replies answer) w₀ ∧
    Reach Operation.code (steps (replies answer)) (fun _ _ => True) w₀ cfg ∧
    cfg.shared.provider.setDNSActive = true ∧
    ∃ route ∈ cfg.shared.provider.upstreams.routes,
      NamesAddr route.urls cfg.shared.provider.setDNS := by
  have hrun : (sampleRun staleTurns).any loops = true := by decide +kernel
  obtain ⟨cfg, hcfg, hloops⟩ := (Option.any_eq_true _ _).mp hrun
  obtain ⟨hactive, hany⟩ := Bool.and_eq_true_iff.mp hloops
  obtain ⟨route, hroute, hmem⟩ := any_eq_true.mp hany
  obtain ⟨w₀, hbuilt, hreach⟩ := sampleRun_reach hcfg
  exact ⟨w₀, cfg, hbuilt, hreach, hactive, route, hroute, 53, of_decide_eq_true hmem⟩

end SysnetLinux.Dns.Resolved
