/-
  SysnetLinux.Dns.Refresh

  Refreshing the upstream routes of the systemd-resolved provider (`resolved.go`), call after
  call.

  A refresh is skipped if the signature is the recorded one.  The signature says nothing about the
  target link beyond the first route, and its separators may stand in domains and URLs; so a
  skipped refresh is transparent only under conditions (`skipped_refresh_transparent`).
-/

import SysnetLinux.Dns.MostSpecific

namespace SysnetLinux.Dns

open Netip Strings List

/-! ## The committed configuration -/

/-- What the provider has committed. -/
structure Upstreams where
  routes : List UpstreamRoute
  upstreamSig : List String
  targetServers : List AddrPort
  targetDomains : List LinkDomain
  deriving DecidableEq, Repr

namespace Upstreams

/-- Nothing has been committed, as in a new provider. -/
def empty : Upstreams := ⟨[], [], [], []⟩

/-- `setUpstreamConfig` of an open provider, whose router is open and takes the routes. -/
def setUpstreamConfig (cfg : UpstreamConfig) : Upstreams :=
  ⟨cfg.routes, cfg.signature, cfg.targetServers, cfg.targetDomains⟩

/-- The end of both refresh functions: a configuration with the recorded signature is skipped. -/
def install (u : Upstreams) (cfg : UpstreamConfig) : Upstreams :=
  if cfg.signature = u.upstreamSig then u else setUpstreamConfig cfg

/-- What `upstreamConfigFromLink` goes by: the saved target link and what the manager reports. -/
def reported (u : Upstreams) (ifidx : Int) (managerServers : List (Int × AddrPort))
    (managerDomains : List GlobalDomain) : Reported :=
  ⟨ifidx, u.targetServers, u.targetDomains, managerServers, managerDomains⟩

end Upstreams

/-! ## Calls -/

/-- `managerDNSServers` and `managerDomains`, each of which can fail. -/
structure ManagerRead where
  servers : Option (List (Int × AddrPort))
  domains : Option (List GlobalDomain)
  deriving DecidableEq, Repr

/-- `linkDNSServers` and `linkDomains`, each of which can fail. -/
structure LinkRead where
  servers : Option (List AddrPort)
  domains : Option (List LinkDomain)
  deriving DecidableEq, Repr

inductive RefreshError where
  | linkServers
  | managerServers
  | upstream (err : UpstreamError)
  deriving DecidableEq, Repr

/-- A refresh, with what it reads from resolved. -/
structure Refresh where
  fallback : List AddrPort
  exclude : List Addr
  /-- The servers and domains of the target link: read, or handed over by `syncResolvedState`. -/
  link : LinkRead ⊕ List AddrPort × List LinkDomain
  manager : ManagerRead
  deriving DecidableEq, Repr

namespace Refresh

/-- `upstreamConfigFromLink`, with its reads of the manager. -/
def configFromLink (c : Refresh) (ifidx : Int) (u : Upstreams) (servers : List AddrPort)
    (domains : List LinkDomain) : Except RefreshError UpstreamConfig :=
  match c.manager.servers with
  | none => .error .managerServers
  | some managerServers =>
    match upstreamConfigFromLink (u.reported ifidx managerServers (c.manager.domains.getD []))
        c.fallback c.exclude servers domains with
    | .error err => .error (.upstream err)
    | .ok cfg => .ok cfg

/-- What the target link reports to the call. -/
def linkReport (c : Refresh) (ifidx : Int) :
    Except RefreshError (List AddrPort × List LinkDomain) :=
  match c.link with
  | .inr given => .ok given
  | .inl read =>
    if ifidx = 0 then .ok ([], [])
    else match read.servers with
      | none => .error .linkServers
      | some servers => .ok (servers, read.domains.getD [])

/-- The configuration that the call computes. -/
def config (c : Refresh) (ifidx : Int) (u : Upstreams) : Except RefreshError UpstreamConfig :=
  match c.linkReport ifidx with
  | .error err => .error err
  | .ok report => c.configFromLink ifidx u report.1 report.2

/-- `refreshUpstreamsWithFallback` and `refreshUpstreamsFromLink`. -/
def run (c : Refresh) (ifidx : Int) (u : Upstreams) : Except RefreshError Unit × Upstreams :=
  match c.config ifidx u with
  | .error err => (.error err, u)
  | .ok cfg => (.ok (), u.install cfg)

end Refresh

/-- The state after a sequence of calls. -/
def Upstreams.after (ifidx : Int) (calls : List Refresh) : Upstreams :=
  calls.foldl (fun u c => (c.run ifidx u).2) Upstreams.empty

theorem Upstreams.after_append (ifidx : Int) (calls : List Refresh) (c : Refresh) :
    Upstreams.after ifidx (calls ++ [c]) = (c.run ifidx (Upstreams.after ifidx calls)).2 := by
  unfold Upstreams.after
  rw [foldl_append]
  rfl

/-! ## What a signature determines -/

/-- The parts of a route can be told apart in its signature. -/
structure UpstreamRoute.Separable (route : UpstreamRoute) : Prop where
  name : '|' ∉ route.name.toList
  domains_ne : route.domains ≠ []
  urls_ne : route.urls ≠ []
  domains : ∀ d ∈ route.domains, ',' ∉ d.toList ∧ '|' ∉ d.toList
  urls : ∀ url ∈ route.urls, ',' ∉ url.toList

theorem UpstreamRoute.toList_signature (route : UpstreamRoute) :
    route.signature.toList = route.name.toList ++ '|' ::
      ([','].intercalate (route.domains.map String.toList) ++ '|' ::
        [','].intercalate (route.urls.map String.toList)) := by
  have hbar : ("|" : String).toList = ['|'] := rfl
  have hcomma : ("," : String).toList = [','] := rfl
  unfold UpstreamRoute.signature
  simp only [String.toList_append, String.toList_intercalate, hbar, hcomma, append_assoc,
    cons_append, nil_append]

theorem toList_injective_map {ls ms : List String} (h : ls.map String.toList = ms.map String.toList) :
    ls = ms :=
  map_injective_iff.mpr (fun _ _ => String.toList_inj.mp) h

theorem UpstreamRoute.signature_inj {r r' : UpstreamRoute} (hr : r.Separable)
    (hr' : r'.Separable) (h : r.signature = r'.signature) : r = r' := by
  have htext := congrArg String.toList h
  rw [UpstreamRoute.toList_signature, UpstreamRoute.toList_signature] at htext
  have hbar : ∀ {route : UpstreamRoute}, route.Separable →
      '|' ∉ [','].intercalate (route.domains.map String.toList) := by
    intro route hroute
    refine Addr.not_mem_intercalate (by decide) fun l hl => ?_
    obtain ⟨d, hd, rfl⟩ := mem_map.mp hl
    exact (hroute.domains d hd).2
  have hcommas : ∀ {texts : List String}, (∀ text ∈ texts, ',' ∉ text.toList) →
      ∀ l ∈ texts.map String.toList, ',' ∉ l := by
    intro texts htexts l hl
    obtain ⟨text, hmem, rfl⟩ := mem_map.mp hl
    exact htexts text hmem
  obtain ⟨hname, htext⟩ := Text.split_first hr.name hr'.name htext
  obtain ⟨hdomains, hurls⟩ := Text.split_first (hbar hr) (hbar hr') htext
  have hdomains := Text.intercalate_inj (hcommas fun d hd => (hr.domains d hd).1)
    (hcommas fun d hd => (hr'.domains d hd).1) (by simpa using hr.domains_ne)
    (by simpa using hr'.domains_ne) hdomains
  have hurls := Text.intercalate_inj (hcommas hr.urls) (hcommas hr'.urls)
    (by simpa using hr.urls_ne) (by simpa using hr'.urls_ne) hurls
  cases r
  cases r'
  simp only [UpstreamRoute.mk.injEq]
  exact ⟨String.toList_inj.mp hname, toList_injective_map hdomains, toList_injective_map hurls⟩

theorem signatures_inj {routes routes' : List UpstreamRoute} (h : ∀ r ∈ routes, r.Separable)
    (h' : ∀ r ∈ routes', r.Separable)
    (heq : routes.map UpstreamRoute.signature = routes'.map UpstreamRoute.signature) :
    routes = routes' := by
  induction routes generalizing routes' with
  | nil => exact (map_eq_nil_iff.mp heq.symm).symm
  | cons r routes ih =>
    cases routes' with
    | nil => cases heq
    | cons r' routes' =>
      obtain ⟨hhead, htail⟩ := List.cons.inj heq
      rw [UpstreamRoute.signature_inj (h r mem_cons_self) (h' r' mem_cons_self) hhead,
        ih (fun x hx => h x (mem_cons_of_mem r hx))
          (fun x hx => h' x (mem_cons_of_mem r' hx)) htail]

/-! ## What a call is given -/

namespace Refresh

/-- What the link reports to a call whose reads of it succeed. -/
def report (c : Refresh) (ifidx : Int) : List AddrPort × List LinkDomain :=
  match c.link with
  | .inr given => given
  | .inl read => if ifidx = 0 then ([], []) else (read.servers.getD [], read.domains.getD [])

/-- The manager's part of what a call goes by. -/
def reportedTo (c : Refresh) (ifidx : Int) (u : Upstreams) : Reported :=
  u.reported ifidx (c.manager.servers.getD []) (c.manager.domains.getD [])

/-- What the target link shows once the excluded servers are left out: its own report, or
    the manager's entry for it. -/
def shown (c : Refresh) (ifidx : Int) : Contribution :=
  let servers := filterAddr (c.report ifidx).1 c.exclude
  if servers = [] ∧ ifidx ≠ 0 then
    managerContribution (c.reportedTo ifidx Upstreams.empty) c.exclude ifidx
  else ⟨servers, (c.report ifidx).2⟩

theorem linkReport_ok {c : Refresh} {ifidx : Int} {report : List AddrPort × List LinkDomain}
    (h : c.linkReport ifidx = .ok report) : report = c.report ifidx := by
  unfold linkReport at h
  unfold Refresh.report
  split at h
  · exact (Except.ok.inj h).symm
  · split at h
    · rename_i hzero
      rw [if_pos hzero]
      exact (Except.ok.inj h).symm
    · rename_i hzero
      rw [if_neg hzero]
      split at h
      · cases h
      · rename_i servers hservers
        rw [hservers]
        exact (Except.ok.inj h).symm

theorem config_ok {c : Refresh} {ifidx : Int} {u : Upstreams} {cfg : UpstreamConfig}
    (h : c.config ifidx u = .ok cfg) :
    upstreamConfigFromLink (c.reportedTo ifidx u) c.fallback c.exclude (c.report ifidx).1
      (c.report ifidx).2 = .ok cfg := by
  unfold config at h
  split at h
  · cases h
  · rename_i report hreport
    rw [linkReport_ok hreport, configFromLink] at h
    split at h
    · cases h
    · rename_i managerServers hmanager
      unfold reportedTo
      rw [hmanager]
      split at h
      · cases h
      · rename_i cfg' hcfg
        rw [← Except.ok.inj h]
        exact hcfg

/-- The target link of the configuration is what the link shows, or else what is left of
    the saved servers with the saved domains. -/
theorem targetLink_eq (c : Refresh) (ifidx : Int) (u : Upstreams) :
    targetContribution (c.reportedTo ifidx u) c.exclude (c.report ifidx).1 (c.report ifidx).2 =
      if (c.shown ifidx).servers = [] ∧ ifidx ≠ 0 then
        ⟨filterAddr u.targetServers c.exclude, u.targetDomains⟩
      else c.shown ifidx := by
  have hifidx : (c.reportedTo ifidx u).targetIfidx = ifidx := rfl
  have hmanager : managerContribution (c.reportedTo ifidx u) c.exclude ifidx =
      managerContribution (c.reportedTo ifidx Upstreams.empty) c.exclude ifidx := rfl
  unfold targetContribution targetLink shown
  simp only [hifidx]
  by_cases hlink : filterAddr (c.report ifidx).1 c.exclude = [] ∧ ifidx ≠ 0
  · simp only [if_pos hlink]
    rw [← hmanager]
    generalize hc : managerContribution (c.reportedTo ifidx u) c.exclude ifidx = shown
    have hservers : filterAddr ((c.reportedTo ifidx u).serversOf ifidx) c.exclude =
        shown.servers := congrArg Contribution.servers hc
    have hdomains : globalDomainsAsLinkDomains ((c.reportedTo ifidx u).domainsOf ifidx) =
        shown.domains := congrArg Contribution.domains hc
    simp only [hservers, hdomains]
    by_cases hshown : shown.servers = []
    · rw [if_neg (not_not.mpr hshown), if_pos ⟨hshown, hlink.2⟩]
      rfl
    · rw [if_pos hshown, if_neg fun h => hshown h.1]
  · simp only [if_neg hlink]

end Refresh

theorem upstreamConfigFromLink_ok {r : Reported} {fallback servers : List AddrPort}
    {exclude : List Addr} {domains : List LinkDomain} {cfg : UpstreamConfig}
    (h : upstreamConfigFromLink r fallback exclude servers domains = .ok cfg) :
    cfg.routes ≠ [] ∧ cfg.signature = cfg.routes.map UpstreamRoute.signature ∧
      (⟨cfg.targetServers, cfg.targetDomains⟩ : Contribution) =
        targetContribution r exclude servers domains := by
  unfold upstreamConfigFromLink at h
  simp only at h
  generalize (if reportedRoutes r exclude servers domains = [] then
    (reportedRoutes r exclude servers domains).addDefault (filterAddr fallback exclude)
    else reportedRoutes r exclude servers domains) = b at h
  split at h
  · cases h
  · split at h
    · cases h
    · rename_i hne
      rw [← Except.ok.inj h]
      exact ⟨hne, rfl, rfl⟩

/-! ## Texts without separators -/

/-- The servers and domains have none of the separators in their texts. -/
structure Contribution.Separable (c : Contribution) : Prop where
  servers : ∀ s ∈ c.servers, ',' ∉ s.string.toList
  domains : ∀ d ∈ c.domains, ',' ∉ d.domain.toList ∧ '|' ∉ d.domain.toList

/-- A character of the normal form that lowering leaves alone is the dot or stands in the domain. -/
theorem mem_of_mem_normalize {c : Char} (hc : Caseless c) (hdot : c ≠ '.')
    {domain : String} (h : c ∈ (normalizeResolvedDomain domain).toList) : c ∈ domain.toList := by
  unfold normalizeResolvedDomain at h
  simp only at h
  split at h
  · exact absurd (mem_singleton.mp h) hdot
  · rw [String.toList_ofList, mem_append] at h
    rcases h with h | h
    · have h := trimHead_subset c (mem_reverse.mp h)
      obtain ⟨d, hd, hlower⟩ := mem_map.mp (mem_reverse.mp h)
      rw [(toLower_eq_iff hc).mp hlower] at hd
      exact trimHead_subset c (mem_of_mem_trimSpace hd)
    · exact absurd (mem_singleton.mp h) hdot

theorem bar_not_mem_routeOf_name (input : RouteInput) (i : Nat) :
    '|' ∉ (routeOf input i).name.toList := by
  have hdigits : '|' ∉ Nat.toDigits 10 i :=
    Text.not_mem_toDigits (by decide) (fun d => Nat.digitChar_ne '|' (by decide)) i
  have hname : (routeOf input i).name.toList = "default-".toList ++ Nat.toDigits 10 i := by
    rw [← Addr.toList_toString, ← String.toList_append]
    rfl
  rw [hname, mem_append]
  rintro (h | h)
  · revert h
    decide
  · exact hdigits h

theorem mem_input_domains {c : Contribution} {d : String} :
    d ∈ c.input.domains ↔ (c.domains = [] ∧ d = rootDomain) ∨
      ∃ e ∈ c.domains, normalizeResolvedDomain e.domain = d := by
  unfold Contribution.input
  simp only
  rw [mem_dedupeStrings]
  by_cases hnil : c.domains = []
  · rw [if_pos hnil, mem_singleton, hnil]
    constructor
    · rintro ⟨hd, -⟩
      exact .inl ⟨rfl, hd⟩
    · rintro (⟨-, rfl⟩ | ⟨e, he, -⟩)
      · exact ⟨rfl, by decide⟩
      · exact absurd he not_mem_nil
  · rw [if_neg hnil, linkDomainRoutes, mem_map]
    constructor
    · rintro ⟨he, -⟩
      exact .inr he
    · rintro (⟨h, -⟩ | ⟨e, he, rfl⟩)
      · exact absurd h hnil
      · exact ⟨⟨e, he, rfl⟩, (dotted_normalizeResolvedDomain e.domain).ne_empty⟩

/-- The route of separable servers and domains is separable. -/
theorem Contribution.Separable.routeOf {c : Contribution} (h : c.Separable)
    (hvalid : c.servers.any AddrPort.isValid = true) (i : Nat) :
    (routeOf c.input i).Separable where
  name := bar_not_mem_routeOf_name c.input i
  domains_ne := by
    have hmem : ∃ d, d ∈ c.input.domains := by
      cases hdomains : c.domains with
      | nil => exact ⟨rootDomain, mem_input_domains.mpr (.inl ⟨hdomains, rfl⟩)⟩
      | cons e rest =>
        exact ⟨_, mem_input_domains.mpr (.inr ⟨e, hdomains ▸ mem_cons_self, rfl⟩)⟩
    obtain ⟨d, hd⟩ := hmem
    exact ne_nil_of_mem hd
  urls_ne := input_urls hvalid
  domains := by
    intro d hd
    rcases mem_input_domains.mp hd with ⟨-, rfl⟩ | ⟨e, he, rfl⟩
    · decide
    · obtain ⟨hcomma, hbar⟩ := h.domains e he
      exact ⟨fun hmem => hcomma (mem_of_mem_normalize (by decide) (by decide) hmem),
        fun hmem => hbar (mem_of_mem_normalize (by decide) (by decide) hmem)⟩
  urls := by
    intro url hurl
    obtain ⟨s, hs, rfl⟩ := mem_map.mp hurl
    have hserver : s ∈ c.servers := (mem_dedupeServers.mp (mem_dedupeServers.mp hs).1).1
    rw [String.toList_append, mem_append]
    rintro (hmem | hmem)
    · revert hmem
      decide
    · exact h.servers s hserver hmem

theorem separable_routes {cs : List Contribution} (hcs : ∀ c ∈ cs, c.Separable)
    (hvalid : ∀ c ∈ cs, c.servers.any AddrPort.isValid = true) :
    ∀ route ∈ RouteBuilder.routes (cs.map Contribution.input), route.Separable := by
  intro route hroute
  obtain ⟨x, hx, rfl⟩ := mem_map.mp hroute
  have hinput : x.1 ∈ cs.map Contribution.input :=
    mem_of_getElem? (mem_zipIdx_iff_getElem?.mp (mem_filter.mp hx).1)
  obtain ⟨c, hc, hinput⟩ := mem_map.mp hinput
  rw [← hinput]
  exact (hcs c hc).routeOf (hvalid c hc) x.2

/-! ## When a skipped refresh is transparent -/

/-- The domains and URLs of a route. -/
def UpstreamRoute.content (route : UpstreamRoute) : List String × List String :=
  (route.domains, route.urls)

/-- The domains and URLs of the route that servers and domains make. -/
def Contribution.content (c : Contribution) : List String × List String :=
  (c.input.domains, serverURLs c.input.servers)

/-- What the provider has saved of the target link. -/
def Upstreams.saved (u : Upstreams) : Contribution := ⟨u.targetServers, u.targetDomains⟩

namespace Refresh

/-- No text that the call is given has a separator of the signature in it. -/
structure Separable (c : Refresh) (ifidx : Int) : Prop where
  fallback : ∀ s ∈ c.fallback, ',' ∉ s.string.toList
  link : (⟨(c.report ifidx).1, (c.report ifidx).2⟩ : Contribution).Separable
  managerServers : ∀ x ∈ c.manager.servers.getD [], ',' ∉ x.2.string.toList
  managerDomains : ∀ d ∈ c.manager.domains.getD [],
    ',' ∉ d.domain.toList ∧ '|' ∉ d.domain.toList

/-- The link shows what has been saved; or it shows a usable server, and its servers and
    domains do not make the first of the committed routes; or it shows nothing and no saved
    server is excluded. -/
def TellsTarget (c : Refresh) (ifidx : Int) (u : Upstreams) : Prop :=
  c.shown ifidx = u.saved ∨
    (c.shown ifidx).servers.any AddrPort.isValid = true ∧
      u.routes.head?.map UpstreamRoute.content ≠ some (c.shown ifidx).content ∨
    ifidx ≠ 0 ∧ (c.shown ifidx).servers = [] ∧
      filterAddr u.targetServers c.exclude = u.targetServers

/-- The call is given texts without separators and a target link that can be told. -/
structure Tellable (c : Refresh) (ifidx : Int) (u : Upstreams) : Prop where
  separable : c.Separable ifidx
  target : c.TellsTarget ifidx u

end Refresh

/-- The signature is that of the routes, and no separator stands in a text. -/
structure Upstreams.Recorded (u : Upstreams) : Prop where
  signature : u.upstreamSig = u.routes.map UpstreamRoute.signature
  routes : ∀ route ∈ u.routes, route.Separable
  saved : u.saved.Separable

theorem Upstreams.recorded_empty : Upstreams.empty.Recorded where
  signature := rfl
  routes := fun _ h => absurd h not_mem_nil
  saved := ⟨fun _ h => absurd h not_mem_nil, fun _ h => absurd h not_mem_nil⟩

section Step

variable {c : Refresh} {ifidx : Int} {u : Upstreams} {cfg : UpstreamConfig}

theorem mem_of_mem_filterAddr {servers : List AddrPort} {exclude : List Addr} {s : AddrPort}
    (h : s ∈ filterAddr servers exclude) : s ∈ servers := (mem_filterAddr.mp h).1

section

variable (hc : c.Separable ifidx)
include hc

/-- What is left of an entry of the manager is separable. -/
theorem separable_managerContribution (entry : Int) :
    (managerContribution (c.reportedTo ifidx u) c.exclude entry).Separable where
  servers := by
    intro s hs
    obtain ⟨x, hx, rfl⟩ := mem_map.mp (mem_of_mem_filterAddr hs)
    exact hc.managerServers x (mem_filter.mp hx).1
  domains := by
    intro d hd
    obtain ⟨e, he, rfl⟩ := mem_map.mp hd
    exact hc.managerDomains e (mem_filter.mp he).1

theorem separable_shown : (c.shown ifidx).Separable := by
  unfold Refresh.shown
  simp only
  split
  · exact separable_managerContribution hc ifidx
  · exact ⟨fun s hs => hc.link.servers s (mem_of_mem_filterAddr hs), hc.link.domains⟩

theorem separable_targetContribution (hu : u.saved.Separable) :
    (targetContribution (c.reportedTo ifidx u) c.exclude (c.report ifidx).1
      (c.report ifidx).2).Separable := by
  rw [Refresh.targetLink_eq]
  split
  · exact ⟨fun s hs => hu.servers s (mem_of_mem_filterAddr hs), hu.domains⟩
  · exact separable_shown hc

theorem separable_contributions (hu : u.saved.Separable) :
    ∀ x ∈ contributions (c.reportedTo ifidx u) c.exclude (c.report ifidx).1 (c.report ifidx).2,
      x.Separable := by
  intro x hx
  rcases mem_cons.mp (mem_filter.mp hx).1 with rfl | hx
  · exact separable_targetContribution hc hu
  · obtain ⟨entry, -, rfl⟩ := mem_map.mp hx
    exact separable_managerContribution hc entry

theorem separable_config (hu : u.saved.Separable) (hcfg : c.config ifidx u = .ok cfg) :
    ∀ route ∈ cfg.routes, route.Separable := by
  rcases routes_of_ok (Refresh.config_ok hcfg) with ⟨-, hroutes⟩ | ⟨-, hvalid, hroutes⟩
  · rw [hroutes]
    exact separable_routes (separable_contributions hc hu) fun x hx => (mem_filter.mp hx).2
  · rw [hroutes]
    have hfallback : ∀ x ∈ [(⟨filterAddr c.fallback c.exclude, []⟩ : Contribution)],
        x.Separable := by
      intro x hx
      rw [mem_singleton.mp hx]
      exact ⟨fun s hs => hc.fallback s (mem_of_mem_filterAddr hs),
        fun d hd => absurd hd not_mem_nil⟩
    refine separable_routes hfallback fun x hx => ?_
    rw [mem_singleton.mp hx]
    exact hvalid

end

theorem contributions_of_valid {r : Reported} {exclude : List Addr} {servers : List AddrPort}
    {domains : List LinkDomain}
    (h : (targetContribution r exclude servers domains).servers.any AddrPort.isValid = true) :
    ∃ others, contributions r exclude servers domains =
      targetContribution r exclude servers domains :: others :=
  ⟨_, filter_cons_of_pos (p := fun c : Contribution => c.servers.any AddrPort.isValid) h⟩

theorem head?_routes (hcfg : c.config ifidx u = .ok cfg)
    (hvalid : (targetContribution (c.reportedTo ifidx u) c.exclude (c.report ifidx).1
      (c.report ifidx).2).servers.any AddrPort.isValid = true) :
    cfg.routes.head?.map UpstreamRoute.content =
      some (targetContribution (c.reportedTo ifidx u) c.exclude (c.report ifidx).1
        (c.report ifidx).2).content := by
  obtain ⟨others, hothers⟩ := contributions_of_valid hvalid
  have hroutes := routes_of_ok (Refresh.config_ok hcfg)
  rw [hothers] at hroutes
  generalize targetContribution (c.reportedTo ifidx u) c.exclude (c.report ifidx).1
    (c.report ifidx).2 = target at hroutes hvalid ⊢
  rcases hroutes with ⟨-, hroutes⟩ | ⟨hnil, -⟩
  · rw [hroutes, map_cons, RouteBuilder.routes, zipIdx_cons, filter_cons_of_pos]
    · rfl
    · exact bne_iff_ne.mpr (input_urls hvalid)
  · cases hnil

/-- The target link of the configuration is the saved one, or makes another first route. -/
theorem Refresh.TellsTarget.cases (h : c.TellsTarget ifidx u) (hcfg : c.config ifidx u = .ok cfg) :
    (⟨cfg.targetServers, cfg.targetDomains⟩ : Contribution) = u.saved ∨
      cfg.routes.head?.map UpstreamRoute.content ≠ u.routes.head?.map UpstreamRoute.content := by
  have htarget := (upstreamConfigFromLink_ok (Refresh.config_ok hcfg)).2.2
  have heq := Refresh.targetLink_eq c ifidx u
  rw [htarget]
  rcases h with hsaved | ⟨hvalid, hother⟩ | ⟨hifidx, hnil, hkept⟩
  · left
    rw [heq, hsaved]
    split
    · rename_i hnil
      have hnil : u.targetServers = [] := hnil.1
      unfold Upstreams.saved
      rw [hnil]
      rfl
    · rfl
  · right
    have hshown : (c.shown ifidx).servers ≠ [] := fun hnil => by
      rw [hnil] at hvalid
      cases hvalid
    rw [if_neg fun h => hshown h.1] at heq
    rw [head?_routes hcfg (by rw [heq]; exact hvalid), heq]
    exact fun h => hother h.symm
  · left
    rw [heq, if_pos ⟨hnil, hifidx⟩, hkept]
    rfl

/-- A call that can be told commits what it computes, or has found it committed. -/
theorem install_eq (hu : u.Recorded) (hc : c.Tellable ifidx u)
    (hcfg : c.config ifidx u = .ok cfg) : u.install cfg = Upstreams.setUpstreamConfig cfg := by
  have hsig := (upstreamConfigFromLink_ok (Refresh.config_ok hcfg)).2.1
  unfold Upstreams.install
  by_cases hsame : cfg.signature = u.upstreamSig
  · rw [if_pos hsame]
    have hroutes : cfg.routes = u.routes := by
      refine signatures_inj (separable_config hc.separable hu.saved hcfg) hu.routes ?_
      rw [← hsig, ← hu.signature, hsame]
    rcases hc.target.cases hcfg with hsaved | hother
    · obtain ⟨hservers, hdomains⟩ := Contribution.mk.inj hsaved
      unfold Upstreams.setUpstreamConfig
      rw [hroutes, hsame, hservers, hdomains]
    · exact absurd (by rw [hroutes]) hother
  · rw [if_neg hsame]

theorem recorded_setUpstreamConfig (hu : u.Recorded) (hc : c.Separable ifidx)
    (hcfg : c.config ifidx u = .ok cfg) : (Upstreams.setUpstreamConfig cfg).Recorded := by
  obtain ⟨-, hsig, htarget⟩ := upstreamConfigFromLink_ok (Refresh.config_ok hcfg)
  refine ⟨hsig, separable_config hc hu.saved hcfg, ?_⟩
  show (⟨cfg.targetServers, cfg.targetDomains⟩ : Contribution).Separable
  rw [htarget]
  exact separable_targetContribution hc hu.saved

theorem recorded_run (hu : u.Recorded) (hc : c.Tellable ifidx u) : (c.run ifidx u).2.Recorded := by
  unfold Refresh.run
  split
  · exact hu
  · rename_i cfg hcfg
    rw [install_eq hu hc hcfg]
    exact recorded_setUpstreamConfig hu hc.separable hcfg

end Step

/-- Every call of the sequence can be told in the state before it. -/
def Upstreams.TellableRun (ifidx : Int) (calls : List Refresh) : Prop :=
  ∀ before c, before ++ [c] <+: calls → c.Tellable ifidx (Upstreams.after ifidx before)

theorem Upstreams.tellableRun_nil (ifidx : Int) : Upstreams.TellableRun ifidx [] := by
  intro before c h
  have hlength := h.length_le
  simp at hlength

theorem Upstreams.TellableRun.append {ifidx : Int} {calls : List Refresh} {c : Refresh}
    (h : Upstreams.TellableRun ifidx calls) (hc : c.Tellable ifidx (Upstreams.after ifidx calls)) :
    Upstreams.TellableRun ifidx (calls ++ [c]) := by
  intro before d hd
  rcases prefix_concat_iff.mp hd with heq | hd
  · obtain ⟨rfl, hlast⟩ := append_inj' heq rfl
    obtain rfl := (List.cons.inj hlast).1
    exact hc
  · exact h before d hd

theorem Upstreams.recorded_after {ifidx : Int} {calls : List Refresh}
    (h : Upstreams.TellableRun ifidx calls) : (Upstreams.after ifidx calls).Recorded := by
  induction calls using List.reverseRecOn with
  | nil => exact Upstreams.recorded_empty
  | append_singleton calls c ih =>
    have hbefore : (Upstreams.after ifidx calls).Recorded :=
      ih fun before d hd => h before d (hd.trans (prefix_append calls [c]))
    rw [Upstreams.after_append]
    exact recorded_run hbefore (h calls c (prefix_refl _))

/-- In a run whose calls can all be told, every call that returns nil leaves the routes and
    the target link of the configuration it has computed; what the link shows is saved. -/
theorem skipped_refresh_transparent {ifidx : Int} {calls : List Refresh}
    (h : Upstreams.TellableRun ifidx calls) {before : List Refresh} {c : Refresh}
    (hc : before ++ [c] <+: calls) {cfg : UpstreamConfig}
    (hcfg : c.config ifidx (Upstreams.after ifidx before) = .ok cfg) :
    (Upstreams.after ifidx (before ++ [c])).routes = cfg.routes ∧
      (Upstreams.after ifidx (before ++ [c])).targetServers = cfg.targetServers ∧
      (Upstreams.after ifidx (before ++ [c])).targetDomains = cfg.targetDomains ∧
      ((c.shown ifidx).servers ≠ [] →
        (Upstreams.after ifidx (before ++ [c])).saved = c.shown ifidx) := by
  have hbefore : (Upstreams.after ifidx before).Recorded :=
    Upstreams.recorded_after fun b d hd =>
      h b d (hd.trans ((prefix_append before [c]).trans hc))
  have hafter : Upstreams.after ifidx (before ++ [c]) = Upstreams.setUpstreamConfig cfg := by
    rw [Upstreams.after_append, Refresh.run, hcfg]
    exact install_eq hbefore (h before c hc) hcfg
  rw [hafter]
  refine ⟨rfl, rfl, rfl, fun hshown => ?_⟩
  have htarget := (upstreamConfigFromLink_ok (Refresh.config_ok hcfg)).2.2
  rw [Refresh.targetLink_eq, if_neg fun hnil => hshown hnil.1] at htarget
  exact htarget

/-! ## Sample runs -/

/-- A refresh that reads these servers and domains from the link, with this fallback and no
    entries of the manager. -/
def sampleRefresh (fallback servers : List AddrPort) (domains : List LinkDomain) : Refresh where
  fallback := fallback
  exclude := []
  link := .inl ⟨some servers, some domains⟩
  manager := ⟨some [], none⟩

def sampleServer : AddrPort := ⟨.v4 0xC0000201, 53⟩

def sampleFallback : AddrPort := ⟨.v4 0xC6336401, 53⟩

/-- A link without servers, then one with a server of its own. -/
def sampleCalls : List Refresh :=
  [sampleRefresh [sampleFallback] [] [],
    sampleRefresh [sampleFallback] [sampleServer] [⟨"corp.example", false⟩]]

theorem separable_sampleRefresh {servers : List AddrPort} {domains : List LinkDomain}
    (h : (⟨servers, domains⟩ : Contribution).Separable) :
    (sampleRefresh [sampleFallback] servers domains).Separable 7 where
  fallback := show ∀ s ∈ [sampleFallback], ',' ∉ s.string.toList by decide +kernel
  link := h
  managerServers := fun x hx => absurd hx not_mem_nil
  managerDomains := fun d hd => absurd hd not_mem_nil

theorem tellableRun_sampleCalls : Upstreams.TellableRun 7 sampleCalls := by
  have hfirst : Upstreams.TellableRun 7 [sampleRefresh [sampleFallback] [] []] := by
    refine (Upstreams.tellableRun_nil 7).append ⟨?_, .inl ?_⟩
    · exact separable_sampleRefresh ⟨by decide, by decide⟩
    · decide +kernel
  refine hfirst.append ⟨?_, .inr (.inl ?_)⟩
  · exact separable_sampleRefresh ⟨by decide +kernel, by decide +kernel⟩
  · decide +kernel

/-- The server of the link is saved. -/
theorem skipped_refresh_transparent_sample :
    Upstreams.TellableRun 7 sampleCalls ∧
      (Upstreams.after 7 sampleCalls).targetServers = [sampleServer] := by
  refine ⟨tellableRun_sampleCalls, ?_⟩
  have hcfg : (sampleRefresh [sampleFallback] [sampleServer] [⟨"corp.example", false⟩]).config 7
      (Upstreams.after 7 [sampleRefresh [sampleFallback] [] []]) =
        .ok ⟨[⟨"default-0", ["corp.example."], ["udp://192.0.2.1:53"]⟩],
          ["default-0|corp.example.|udp://192.0.2.1:53"], [sampleServer],
          [⟨"corp.example", false⟩]⟩ := by
    decide +kernel
  exact (skipped_refresh_transparent tellableRun_sampleCalls (prefix_refl _) hcfg).2.1

/-- The link begins to report the server that has been the fallback: the signature stays and
    the refresh is skipped, so the server is not saved.  A domain with a comma in it has the
    signature of two domains. -/
theorem skipped_refresh_keeps_target :
    (let before := [sampleRefresh [sampleFallback] [] []]
      let c := sampleRefresh [sampleFallback] [sampleFallback] []
      ∃ cfg, c.config 7 (Upstreams.after 7 before) = .ok cfg ∧
        cfg.targetServers = [sampleFallback] ∧
        (c.run 7 (Upstreams.after 7 before)).1.isOk = true ∧
        (Upstreams.after 7 (before ++ [c])).targetServers = []) ∧
    (let before := [sampleRefresh [] [sampleServer] [⟨"a.,b", true⟩]]
      let c := sampleRefresh [] [sampleServer] [⟨"a", true⟩, ⟨"b", true⟩]
      ∃ cfg, c.config 7 (Upstreams.after 7 before) = .ok cfg ∧
        (cfg.routes.map UpstreamRoute.domains) = [["a.", "b."]] ∧
        (c.run 7 (Upstreams.after 7 before)).1.isOk = true ∧
        ((Upstreams.after 7 (before ++ [c])).routes.map UpstreamRoute.domains) = [["a.,b."]]) := by
  refine ⟨⟨⟨[⟨"default-0", ["."], ["udp://198.51.100.1:53"]⟩],
    ["default-0|.|udp://198.51.100.1:53"], [sampleFallback], []⟩, ?_⟩,
    ⟨⟨[⟨"default-0", ["a.", "b."], ["udp://192.0.2.1:53"]⟩],
    ["default-0|a.,b.|udp://192.0.2.1:53"], [sampleServer], [⟨"a", true⟩, ⟨"b", true⟩]⟩, ?_⟩⟩
  · decide +kernel
  · decide +kernel

end SysnetLinux.Dns
