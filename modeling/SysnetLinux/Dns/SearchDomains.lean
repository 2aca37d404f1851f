/-
  SysnetLinux.Dns.SearchDomains

  When the routes of the systemd-resolved provider serve every name.

  In resolved a link with search domains alone also serves the names outside them;
  `linkDomainRoutes` and `globalDomainRoutes` route by every domain.  All names have a route if
  and only if some link that contributes servers has no domains or the root domain, or no link
  does and the fallback is used (`public_names_routed_iff`).
-/

import SysnetLinux.Dns.Routes

namespace SysnetLinux.Dns

open Netip List

/-! ## Routing a question -/

section Routing

variable {routes : List UpstreamRoute} {question : String}

/-- A domain that the question belongs to. -/
def Serves (question domain : String) : Prop :=
  domain = rootDomain ∨ dnsNameMatchesDomain question domain = true

/-- Nothing has been found, or the name of a route has. -/
def BestRoute.Sound (routes : List UpstreamRoute) (best : BestRoute) : Prop :=
  best = ⟨"", -1⟩ ∨ 0 ≤ best.length ∧ ∃ route ∈ routes, best.name = route.name

variable {route : UpstreamRoute}

theorem BestRoute.Sound.tryDomain {best : BestRoute} (h : best.Sound routes)
    (hroute : route ∈ routes) (domain : String) :
    (best.tryDomain question route domain).Sound routes := by
  unfold BestRoute.tryDomain
  split
  · split
    · exact .inr ⟨Int.natCast_nonneg _, route, hroute, rfl⟩
    · exact h
  · exact h

theorem length_le_tryDomain (best : BestRoute) (route : UpstreamRoute) (domain : String) :
    best.length ≤ (best.tryDomain question route domain).length := by
  unfold BestRoute.tryDomain
  split
  · split
    · rename_i hlt
      exact le_of_lt hlt
    · exact le_refl _
  · exact le_refl _

theorem length_le_tryRoute (best : BestRoute) (route : UpstreamRoute) :
    best.length ≤ (best.tryRoute question route).length := by
  unfold BestRoute.tryRoute
  generalize route.domains = domains
  induction domains generalizing best with
  | nil => exact le_refl _
  | cons domain domains ih =>
    rw [foldl_cons]
    exact le_trans (length_le_tryDomain best route domain) (ih _)

theorem BestRoute.Sound.tryRoute {best : BestRoute} (h : best.Sound routes)
    (hroute : route ∈ routes) :
    (best.tryRoute question route).Sound routes := by
  unfold BestRoute.tryRoute
  generalize route.domains = domains
  induction domains generalizing best with
  | nil => exact h
  | cons domain domains ih =>
    rw [foldl_cons]
    exact ih (h.tryDomain hroute domain)

/-- A domain that serves the question leaves a length behind. -/
theorem nonneg_tryRoute {domain : String} (hmem : domain ∈ route.domains)
    (hserves : Serves question domain) (best : BestRoute) :
    0 ≤ (best.tryRoute question route).length := by
  unfold BestRoute.tryRoute
  obtain ⟨before, after, hsplit⟩ := append_of_mem hmem
  rw [hsplit, foldl_append, foldl_cons]
  generalize before.foldl (BestRoute.tryDomain question route) best = best
  have hhere : 0 ≤ (best.tryDomain question route domain).length := by
    unfold BestRoute.tryDomain
    rw [if_pos (show domain = rootDomain ∨ dnsNameMatchesDomain question domain = true from hserves)]
    split
    · exact Int.natCast_nonneg _
    · rename_i hle
      have := Int.natCast_nonneg (domainLength domain)
      omega
  have hlater : ∀ (domains : List String) (b : BestRoute),
      b.length ≤ (domains.foldl (BestRoute.tryDomain question route) b).length := by
    intro domains
    induction domains with
    | nil => exact fun b => le_refl _
    | cons d domains ih =>
      intro b
      rw [foldl_cons]
      exact le_trans (length_le_tryDomain b route d) (ih _)
  exact le_trans hhere (hlater after _)

/-- Where no domain serves the question, nothing is found. -/
theorem tryRoute_of_unserved (h : ∀ domain ∈ route.domains, ¬ Serves question domain)
    (best : BestRoute) :
    best.tryRoute question route = best := by
  unfold BestRoute.tryRoute
  generalize route.domains = domains at h
  induction domains with
  | nil => rfl
  | cons domain domains ih =>
    have hfirst : best.tryDomain question route domain = best :=
      if_neg (h domain mem_cons_self)
    rw [foldl_cons, hfirst]
    exact ih fun d hd => h d (mem_cons_of_mem domain hd)

/-- The search finds the name of a route if some domain serves the question, and nothing
    otherwise. -/
theorem foldl_tryRoute (routes : List UpstreamRoute) (question : String) :
    let best := routes.foldl (BestRoute.tryRoute question) ⟨"", -1⟩
    (best = ⟨"", -1⟩ ∧ ∀ route ∈ routes, ∀ domain ∈ route.domains, ¬ Serves question domain) ∨
      (∃ route ∈ routes, best.name = route.name) ∧
        ∃ route ∈ routes, ∃ domain ∈ route.domains, Serves question domain := by
  have hsound : ∀ (rs : List UpstreamRoute) (best : BestRoute), (∀ route ∈ rs, route ∈ routes) →
      best.Sound routes → (rs.foldl (BestRoute.tryRoute question) best).Sound routes := by
    intro rs
    induction rs with
    | nil => exact fun best _ h => h
    | cons route rs ih =>
      intro best hrs h
      rw [foldl_cons]
      exact ih _ (fun r hr => hrs r (mem_cons_of_mem route hr))
        (h.tryRoute (hrs route mem_cons_self))
  have hlater : ∀ (rs : List UpstreamRoute) (best : BestRoute),
      best.length ≤ (rs.foldl (BestRoute.tryRoute question) best).length := by
    intro rs
    induction rs with
    | nil => exact fun best => le_refl _
    | cons route rs ih =>
      intro best
      rw [foldl_cons]
      exact le_trans (length_le_tryRoute best route) (ih _)
  by_cases hserved : ∃ route ∈ routes, ∃ domain ∈ route.domains, Serves question domain
  · refine .inr ⟨?_, hserved⟩
    obtain ⟨route, hroute, domain, hmem, hserves⟩ := hserved
    have hpositive : 0 ≤ (routes.foldl (BestRoute.tryRoute question) ⟨"", -1⟩).length := by
      obtain ⟨before, after, hsplit⟩ := append_of_mem hroute
      rw [hsplit, foldl_append, foldl_cons]
      exact le_trans (nonneg_tryRoute hmem hserves _) (hlater after _)
    rcases hsound routes ⟨"", -1⟩ (fun _ h => h) (.inl rfl) with hnone | ⟨-, hname⟩
    · rw [hnone] at hpositive
      cases hpositive
    · exact hname
  · push Not at hserved
    refine .inl ⟨?_, hserved⟩
    generalize (⟨"", -1⟩ : BestRoute) = best
    clear hsound hlater
    induction routes generalizing best with
    | nil => rfl
    | cons route routes ih =>
      rw [foldl_cons, tryRoute_of_unserved (hserved route mem_cons_self)]
      exact ih (fun r hr => hserved r (mem_cons_of_mem route hr)) best

/-- The root belongs to no domain but the root. -/
theorem serves_root {domain : String} (hne : domain ≠ "") (h : Serves rootDomain domain) :
    domain = rootDomain := by
  rcases h with h | h
  · exact h
  · unfold dnsNameMatchesDomain at h
    rcases Bool.or_eq_true_iff.mp h with h | h
    · exact (eq_of_beq h).symm
    · have hsuffix : ('.' :: domain.toList) <:+ rootDomain.toList :=
        isSuffixOf_iff_suffix.mp h
      have hlength := hsuffix.length_le
      have hroot : rootDomain.toList.length = 1 := by decide
      rw [hroot, length_cons] at hlength
      have hnil : domain.toList = [] := length_eq_zero_iff.mp (by omega)
      exact absurd (String.toList_eq_nil_iff.mp hnil) hne

end Routing

/-! ## The routes of a configuration -/

/-- A link that contributes servers, with its domains. -/
structure Contribution where
  servers : List AddrPort
  domains : List LinkDomain
  deriving DecidableEq, Repr

/-- What is left of an entry of the manager. -/
def managerContribution (r : Reported) (exclude : List Addr) (ifidx : Int) : Contribution where
  servers := filterAddr (r.serversOf ifidx) exclude
  domains := globalDomainsAsLinkDomains (r.domainsOf ifidx)

/-- What is left of the target link. -/
def targetContribution (r : Reported) (exclude : List Addr) (servers : List AddrPort)
    (domains : List LinkDomain) : Contribution where
  servers := (targetLink r exclude servers domains).1
  domains := (targetLink r exclude servers domains).2

/-- The links that have a usable server left: the target link, then the others. -/
def contributions (r : Reported) (exclude : List Addr) (servers : List AddrPort)
    (domains : List LinkDomain) : List Contribution :=
  let others := r.ifindices.filter fun ifidx => ¬ (r.targetIfidx ≠ 0 ∧ ifidx = r.targetIfidx)
  (targetContribution r exclude servers domains ::
    others.map (managerContribution r exclude)).filter fun c => c.servers.any AddrPort.isValid

/-- The input that a link adds. -/
def Contribution.input (c : Contribution) : RouteInput where
  domains := dedupeStrings (if c.domains = [] then [rootDomain] else linkDomainRoutes c.domains)
  servers := dedupeServers c.servers

/-- The link serves the root: it has no domains, or the root is one of them. -/
def Contribution.ServesRoot (c : Contribution) : Prop :=
  c.domains = [] ∨ ∃ d ∈ c.domains, normalizeResolvedDomain d.domain = rootDomain
  deriving Decidable

/-- The domains of the link are search domains. -/
def Contribution.SearchOnly (c : Contribution) : Prop := ∀ d ∈ c.domains, d.routingOnly = false
  deriving Decidable

section Builder

variable {r : Reported} {fallback servers : List AddrPort} {exclude : List Addr}
  {domains : List LinkDomain}

theorem dedupeServers_eq_nil_iff_any {servers : List AddrPort} :
    dedupeServers servers = [] ↔ servers.any AddrPort.isValid = false := by
  rw [dedupeServers_eq_nil, any_eq_false]
  simp

theorem add_eq (b : RouteBuilder) (c : Contribution) :
    b.add c.servers (linkDomainRoutes c.domains) =
      b ++ if c.servers.any AddrPort.isValid then [c.input] else [] := by
  have hempty : linkDomainRoutes c.domains = [] ↔ c.domains = [] := map_eq_nil_iff
  unfold RouteBuilder.add Contribution.input
  cases hvalid : c.servers.any AddrPort.isValid with
  | false => simp [dedupeServers_eq_nil_iff_any.mpr hvalid]
  | true =>
    have hne : dedupeServers c.servers ≠ [] := by
      rw [ne_eq, dedupeServers_eq_nil_iff_any, hvalid]
      decide
    simp [hne, hempty]

theorem globalDomainRoutes_eq (domains : List GlobalDomain) :
    globalDomainRoutes domains = linkDomainRoutes (globalDomainsAsLinkDomains domains) := by
  unfold globalDomainRoutes linkDomainRoutes globalDomainsAsLinkDomains
  rw [map_map]
  rfl

theorem addManagerEntry_eq (b : RouteBuilder) (ifidx : Int) : addManagerEntry r exclude b ifidx =
      if r.targetIfidx ≠ 0 ∧ ifidx = r.targetIfidx then b
      else b ++ if (managerContribution r exclude ifidx).servers.any AddrPort.isValid then
        [(managerContribution r exclude ifidx).input] else [] := by
  unfold addManagerEntry
  split
  · rfl
  rw [← add_eq]
  by_cases hnil : filterAddr (r.serversOf ifidx) exclude = []
  · rw [if_pos hnil]
    unfold RouteBuilder.add managerContribution
    rw [hnil]
    rfl
  · rw [if_neg hnil, RouteBuilder.addGlobal, globalDomainRoutes_eq]
    rfl

theorem foldl_addManagerEntry (ifindices : List Int) (b : RouteBuilder) :
    ifindices.foldl (addManagerEntry r exclude) b =
      b ++ (((ifindices.filter fun i => ¬ (r.targetIfidx ≠ 0 ∧ i = r.targetIfidx)).map
        (managerContribution r exclude)).filter
          fun c => c.servers.any AddrPort.isValid).map Contribution.input := by
  induction ifindices generalizing b with
  | nil => simp
  | cons ifidx ifindices ih =>
    rw [foldl_cons, ih, addManagerEntry_eq]
    by_cases htarget : r.targetIfidx ≠ 0 ∧ ifidx = r.targetIfidx
    · rw [if_pos htarget, filter_cons_of_neg (by simpa using htarget)]
    · rw [if_neg htarget, filter_cons_of_pos (by exact decide_eq_true htarget), map_cons,
        filter_cons]
      split
      · simp
      · simp

/-- The builder has one input for every link that contributes. -/
theorem reportedRoutes_eq : reportedRoutes r exclude servers domains =
      (contributions r exclude servers domains).map Contribution.input := by
  have htarget := add_eq [] (targetContribution r exclude servers domains)
  unfold reportedRoutes contributions
  simp only [RouteBuilder.addLink]
  rw [foldl_addManagerEntry, filter_cons]
  refine Eq.trans (congrArg (· ++ _) htarget) ?_
  split
  · rfl
  · rfl

theorem mem_dedupeStrings {values : List String} {x : String} :
    x ∈ dedupeStrings values ↔ x ∈ values ∧ x ≠ "" := by
  unfold dedupeStrings
  rw [mem_insertionSort, Unseen.mem_collect, mem_filter]
  simp

theorem root_mem_input {c : Contribution} : rootDomain ∈ c.input.domains ↔ c.ServesRoot := by
  have hne : rootDomain ≠ "" := by decide
  unfold Contribution.input Contribution.ServesRoot
  simp only
  rw [mem_dedupeStrings, and_iff_left hne]
  by_cases hnil : c.domains = []
  · simp [hnil]
  · rw [if_neg hnil, linkDomainRoutes, mem_map]
    simp [hnil]

variable {b : RouteBuilder}

theorem routes_eq (h : ∀ input ∈ b, serverURLs input.servers ≠ []) :
    b.routes = b.zipIdx.map fun x => routeOf x.1 x.2 := by
  unfold RouteBuilder.routes
  congr 1
  refine filter_eq_self.mpr fun x hx => ?_
  have hmem : x.1 ∈ b := mem_of_getElem? (mem_zipIdx_iff_getElem?.mp hx)
  simpa using h x.1 hmem

theorem exists_route_iff (h : ∀ input ∈ b, serverURLs input.servers ≠ []) (q : List String → Prop) :
    (∃ route ∈ b.routes, q route.domains) ↔ ∃ input ∈ b, q input.domains := by
  rw [routes_eq h]
  constructor
  · rintro ⟨route, hroute, hq⟩
    obtain ⟨x, hx, rfl⟩ := mem_map.mp hroute
    exact ⟨x.1, mem_of_getElem? (mem_zipIdx_iff_getElem?.mp hx), hq⟩
  · rintro ⟨input, hinput, hq⟩
    obtain ⟨i, hi⟩ := mem_iff_getElem?.mp hinput
    exact ⟨routeOf input i, mem_map.mpr ⟨(input, i), mem_zipIdx_iff_getElem?.mpr hi, rfl⟩, hq⟩

theorem routeOf_name_ne (input : RouteInput) (i : Nat) : (routeOf input i).name ≠ "" := by
  intro h
  have hlength := congrArg String.length h
  simp [routeOf, resolvedBackendName, String.length_append] at hlength

theorem route_name_ne {route : UpstreamRoute} (h : route ∈ b.routes) : route.name ≠ "" := by
  obtain ⟨x, -, rfl⟩ := mem_map.mp h
  exact routeOf_name_ne x.1 x.2

/-- Every question has a route if and only if some route has the root domain. -/
theorem routed_iff_root (h : ∀ input ∈ b, serverURLs input.servers ≠ [])
    (hdomains : ∀ input ∈ b, "" ∉ input.domains) :
    (∀ question, ∃ route ∈ b.routes, resolvedRouteFunc b.routes question = route.name ∧
      route.name ≠ "") ↔ ∃ input ∈ b, rootDomain ∈ input.domains := by
  rw [← exists_route_iff h fun domains => rootDomain ∈ domains]
  constructor
  · intro hrouted
    obtain ⟨route, hroute, hname, hne⟩ := hrouted none
    rcases foldl_tryRoute b.routes (resolvedQuestionName none) with ⟨hbest, -⟩ | ⟨-, hserved⟩
    · rw [resolvedRouteFunc, hbest] at hname
      exact absurd hname.symm hne
    · obtain ⟨route', hroute', domain, hmem, hserves⟩ := hserved
      have hdomain : domain ≠ "" := by
        rintro rfl
        obtain ⟨input, hinput, hempty⟩ :=
          (exists_route_iff h fun domains => "" ∈ domains).mp ⟨route', hroute', hmem⟩
        exact hdomains input hinput hempty
      exact ⟨route', hroute', serves_root hdomain hserves ▸ hmem⟩
  · rintro ⟨root, hroot, hmem⟩ question
    rcases foldl_tryRoute b.routes (resolvedQuestionName question) with ⟨-, hnone⟩ | ⟨hfound, -⟩
    · exact absurd (.inl rfl) (hnone root hroot rootDomain hmem)
    · obtain ⟨route, hroute, hname⟩ := hfound
      exact ⟨route, hroute, hname, route_name_ne hroute⟩

theorem input_urls {servers : List AddrPort} (h : servers.any AddrPort.isValid = true) :
    serverURLs (dedupeServers servers) ≠ [] := by
  intro hnil
  obtain ⟨s, hs, hvalid⟩ := any_eq_true.mp h
  have := serverURLs_eq_nil.mp hnil s (mem_dedupeServers.mpr ⟨hs, hvalid⟩)
  rw [hvalid] at this
  cases this

/-- Links that contribute route every question if and only if one of them serves the root. -/
theorem inputs_routed_iff {cs : List Contribution}
    (hvalid : ∀ c ∈ cs, c.servers.any AddrPort.isValid = true) :
    (∀ question, ∃ route ∈ RouteBuilder.routes (cs.map Contribution.input),
      resolvedRouteFunc (RouteBuilder.routes (cs.map Contribution.input)) question = route.name ∧
        route.name ≠ "") ↔ ∃ c ∈ cs, c.ServesRoot := by
  rw [routed_iff_root]
  · constructor
    · rintro ⟨input, hinput, hroot⟩
      obtain ⟨c, hc, rfl⟩ := mem_map.mp hinput
      exact ⟨c, hc, root_mem_input.mp hroot⟩
    · rintro ⟨c, hc, hroot⟩
      exact ⟨c.input, mem_map_of_mem hc, root_mem_input.mpr hroot⟩
  · intro input hinput
    obtain ⟨c, hc, rfl⟩ := mem_map.mp hinput
    exact input_urls (hvalid c hc)
  · intro input hinput
    obtain ⟨c, -, rfl⟩ := mem_map.mp hinput
    exact fun hempty => (mem_dedupeStrings.mp hempty).2 rfl

end Builder

/-! ## When every name has a route -/

/-- A configuration has the routes of the links that contribute, or those of the fallback. -/
theorem routes_of_ok {r : Reported} {fallback servers : List AddrPort} {exclude : List Addr}
    {domains : List LinkDomain} {cfg : UpstreamConfig}
    (h : upstreamConfigFromLink r fallback exclude servers domains = .ok cfg) :
    (contributions r exclude servers domains ≠ [] ∧ cfg.routes = RouteBuilder.routes
        ((contributions r exclude servers domains).map Contribution.input)) ∨
    (contributions r exclude servers domains = [] ∧
      (filterAddr fallback exclude).any AddrPort.isValid = true ∧
      cfg.routes = RouteBuilder.routes [Contribution.input ⟨filterAddr fallback exclude, []⟩]) := by
  unfold upstreamConfigFromLink at h
  simp only [reportedRoutes_eq] at h
  generalize contributions r exclude servers domains = cs at h ⊢
  by_cases hcs : cs = []
  · subst hcs
    have hadd : RouteBuilder.addDefault [] (filterAddr fallback exclude) =
        if (filterAddr fallback exclude).any AddrPort.isValid then
          [Contribution.input ⟨filterAddr fallback exclude, []⟩] else [] :=
      add_eq [] ⟨filterAddr fallback exclude, []⟩
    cases hany : (filterAddr fallback exclude).any AddrPort.isValid with
    | false => simp [hadd, hany] at h
    | true =>
      simp only [map_nil, if_true, hadd, hany, reduceIte, cons_ne_nil] at h
      split at h
      · cases h
      · obtain rfl := Except.ok.inj h
        exact .inr ⟨rfl, rfl, rfl⟩
  · have hinputs : cs.map Contribution.input ≠ [] := by simpa using hcs
    rw [if_neg hinputs, if_neg hinputs] at h
    split at h
    · cases h
    · obtain rfl := Except.ok.inj h
      exact .inl ⟨hcs, rfl⟩

/-- Where a link contributes servers and has search domains only, or where the fallback
    is used, every name has a route if and only if some link that contributes serves the
    root, whatever its domains are for. -/
theorem public_names_routed_iff {r : Reported} {fallback servers : List AddrPort}
    {exclude : List Addr} {domains : List LinkDomain} {cfg : UpstreamConfig}
    (h : upstreamConfigFromLink r fallback exclude servers domains = .ok cfg) :
    ((∃ c ∈ contributions r exclude servers domains, c.SearchOnly) ∨
        contributions r exclude servers domains = [] →
      ∀ question, ∃ route ∈ cfg.routes,
        resolvedRouteFunc cfg.routes question = route.name ∧ route.name ≠ "") ↔
    ((∃ c ∈ contributions r exclude servers domains, c.SearchOnly) →
      ∃ c ∈ contributions r exclude servers domains, c.ServesRoot) := by
  have hroutes := routes_of_ok h
  have hvalid : ∀ c ∈ contributions r exclude servers domains,
      c.servers.any AddrPort.isValid = true := fun c hc => (mem_filter.mp hc).2
  generalize contributions r exclude servers domains = cs at hroutes hvalid ⊢
  rcases hroutes with ⟨hcs, hroutes⟩ | ⟨rfl, hservers, hroutes⟩
  · rw [hroutes, inputs_routed_iff hvalid, or_iff_left hcs]
  · refine iff_of_true (fun _ => ?_) (by simp)
    rw [hroutes]
    have hfallback : ∀ c ∈ [(⟨filterAddr fallback exclude, []⟩ : Contribution)],
        c.servers.any AddrPort.isValid = true := by
      simpa using hservers
    exact (inputs_routed_iff hfallback).mpr ⟨_, mem_cons_self, .inl rfl⟩

/-- A link with a search domain, next to a link without domains. -/
theorem public_names_routed_sample :
    let server : AddrPort := ⟨.v4 0xC0000201, 53⟩
    let other : AddrPort := ⟨.v4 0xC6336401, 53⟩
    let r : Reported := ⟨7, [], [], [(3, other)], []⟩
    ∃ cfg, upstreamConfigFromLink r [] [] [server] [⟨"corp.example", false⟩] = .ok cfg ∧
      ∀ question, ∃ route ∈ cfg.routes,
        resolvedRouteFunc cfg.routes question = route.name ∧ route.name ≠ "" := by
  intro server other r
  have hok : (upstreamConfigFromLink r [] [] [server] [⟨"corp.example", false⟩]).isOk = true := by
    decide +kernel
  cases hcfg : upstreamConfigFromLink r [] [] [server] [⟨"corp.example", false⟩] with
  | error err =>
    rw [hcfg] at hok
    cases hok
  | ok cfg =>
    refine ⟨cfg, rfl, (public_names_routed_iff hcfg).mpr (fun _ => ?_) ?_⟩
    · decide +kernel
    · decide +kernel

/-- A link with a search domain only: the search domain has a route, the other names have none. -/
theorem search_domain_unrouted :
    let server : AddrPort := ⟨.v4 0xC0000201, 53⟩
    let r : Reported := ⟨7, [], [], [], []⟩
    let domains : List LinkDomain := [⟨"corp.example", false⟩]
    ∃ cfg, upstreamConfigFromLink r [] [] [server] domains = .ok cfg ∧
      (∃ c ∈ contributions r [] [server] domains, c.SearchOnly) ∧
      resolvedRouteFunc cfg.routes (some "www.corp.example") = "default-0" ∧
      resolvedRouteFunc cfg.routes (some "example.org") = "" := by
  intro server r domains
  refine ⟨⟨[⟨"default-0", ["corp.example."], ["udp://192.0.2.1:53"]⟩],
    ["default-0|corp.example.|udp://192.0.2.1:53"], [server], domains⟩, ?_⟩
  decide +kernel

end SysnetLinux.Dns
