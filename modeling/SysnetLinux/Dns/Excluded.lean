/-
  SysnetLinux.Dns.Excluded

  Which servers a computed configuration names.

  Every URL of a route is that of a valid reported, saved or fallback server that is not excluded
  (`url_of_ok`).  If the zones of these servers have no separator in them, the signature of a
  route determines its URLs (`urls_of_signature`).
-/

import SysnetLinux.Dns.Refresh

namespace SysnetLinux.Dns

open Netip Strings List

/-- No route names the address. -/
def Free (addr : Addr) (routes : List UpstreamRoute) : Prop :=
  ∀ route ∈ routes, ¬ NamesAddr route.urls addr

section Config

variable {r : Reported} {fallback servers : List AddrPort} {exclude : List Addr}
  {domains : List LinkDomain} {cfg : UpstreamConfig} {s : AddrPort}

/-- Where the servers of a configuration come from. -/
def Reported.Knows (r : Reported) (servers : List AddrPort) (s : AddrPort) : Prop :=
  s ∈ servers ∨ s ∈ r.savedServers ∨ s ∈ r.managerServers.map Prod.snd

theorem mem_serversOf {ifidx : Int} (h : s ∈ r.serversOf ifidx) :
    s ∈ r.managerServers.map Prod.snd := by
  obtain ⟨x, hx, rfl⟩ := mem_map.mp h
  exact mem_map_of_mem (mem_filter.mp hx).1

theorem mem_targetLink (h : s ∈ (targetLink r exclude servers domains).1) :
    addrExcluded s.addr exclude = false ∧ r.Knows servers s := by
  unfold targetLink at h
  simp only at h
  split at h
  · split at h
    · obtain ⟨hmem, hnot⟩ := mem_filterAddr.mp h
      exact ⟨hnot, .inr (.inr (mem_serversOf hmem))⟩
    · obtain ⟨hmem, hnot⟩ := mem_filterAddr.mp h
      exact ⟨hnot, .inr (.inl hmem)⟩
  · obtain ⟨hmem, hnot⟩ := mem_filterAddr.mp h
    exact ⟨hnot, .inl hmem⟩

theorem mem_contribution {c : Contribution} (hc : c ∈ contributions r exclude servers domains)
    (hs : s ∈ c.servers) : addrExcluded s.addr exclude = false ∧ r.Knows servers s := by
  rcases mem_cons.mp (mem_filter.mp hc).1 with rfl | hc
  · exact mem_targetLink hs
  · obtain ⟨ifidx, -, rfl⟩ := mem_map.mp hc
    obtain ⟨hmem, hnot⟩ := mem_filterAddr.mp hs
    exact ⟨hnot, .inr (.inr (mem_serversOf hmem))⟩

theorem mem_serverURLs {url : String} (h : url ∈ serverURLs servers) :
    ∃ s ∈ servers, s.isValid = true ∧ url = "udp://" ++ s.string := by
  obtain ⟨s, hs, rfl⟩ := mem_map.mp h
  obtain ⟨hmem, hvalid⟩ := mem_dedupeServers.mp hs
  exact ⟨s, hmem, hvalid, rfl⟩

theorem route_of_inputs {cs : List Contribution} {route : UpstreamRoute}
    (h : route ∈ RouteBuilder.routes (cs.map Contribution.input)) :
    route.urls ≠ [] ∧ ∃ c ∈ cs, ∀ url ∈ route.urls, ∃ s ∈ c.servers,
      s.isValid = true ∧ url = "udp://" ++ s.string := by
  obtain ⟨x, hx, rfl⟩ := mem_map.mp h
  obtain ⟨hx, hne⟩ := mem_filter.mp hx
  obtain ⟨c, hc, hinput⟩ := mem_map.mp (mem_of_getElem? (mem_zipIdx_iff_getElem?.mp hx))
  refine ⟨bne_iff_ne.mp hne, c, hc, fun url hurl => ?_⟩
  have hurl : url ∈ serverURLs x.1.servers := hurl
  rw [← hinput] at hurl
  obtain ⟨s, hs, hvalid, rfl⟩ := mem_serverURLs hurl
  exact ⟨s, (mem_dedupeServers.mp hs).1, hvalid, rfl⟩

theorem url_of_ok (h : upstreamConfigFromLink r fallback exclude servers domains = .ok cfg)
    {route : UpstreamRoute} (hroute : route ∈ cfg.routes) :
    route.urls ≠ [] ∧ ∀ url ∈ route.urls, ∃ s : AddrPort, s.isValid = true ∧
      addrExcluded s.addr exclude = false ∧ (r.Knows servers s ∨ s ∈ fallback) ∧
        url = "udp://" ++ s.string := by
  rcases routes_of_ok h with ⟨-, hroutes⟩ | ⟨-, -, hroutes⟩
  · rw [hroutes] at hroute
    obtain ⟨hne, c, hc, hurls⟩ := route_of_inputs hroute
    refine ⟨hne, fun url hurl => ?_⟩
    obtain ⟨s, hs, hvalid, rfl⟩ := hurls url hurl
    obtain ⟨hnot, hknown⟩ := mem_contribution hc hs
    exact ⟨s, hvalid, hnot, .inl hknown, rfl⟩
  · rw [hroutes] at hroute
    have hroute : route ∈ RouteBuilder.routes
        ([(⟨filterAddr fallback exclude, []⟩ : Contribution)].map Contribution.input) := hroute
    obtain ⟨hne, c, hc, hurls⟩ := route_of_inputs hroute
    refine ⟨hne, fun url hurl => ?_⟩
    obtain ⟨s, hs, hvalid, rfl⟩ := hurls url hurl
    rw [mem_singleton.mp hc] at hs
    obtain ⟨hmem, hnot⟩ := mem_filterAddr.mp hs
    exact ⟨s, hvalid, hnot, .inr hmem, rfl⟩

theorem addr_of_url {port : BitVec 16} {addr : Addr} (hs : s.isValid = true)
    (haddr : addr.isValid = true)
    (h : "udp://" ++ AddrPort.string ⟨addr, port⟩ = "udp://" ++ s.string) : s.addr = addr := by
  have htext := congrArg String.toList h
  rw [String.toList_append, String.toList_append] at htext
  have hstring := String.toList_inj.mp (append_cancel_left htext)
  exact (congrArg AddrPort.addr (AddrPort.string_inj (s := ⟨addr, port⟩) haddr hs hstring)).symm

theorem free_of_ok (h : upstreamConfigFromLink r fallback exclude servers domains = .ok cfg)
    {addr : Addr} (hmem : addr ∈ exclude) (hvalid : addr.isValid = true) :
    Free addr cfg.routes := by
  rintro route hroute ⟨port, hurl⟩
  obtain ⟨s, hs, hnot, -, heq⟩ := (url_of_ok h hroute).2 _ hurl
  have haddr := addr_of_url hs hvalid heq
  rw [haddr, addrExcluded, any_eq_false] at hnot
  exact hnot addr hmem (by simp [hvalid])

end Config

/-! ## Signatures -/

/-- The zone has no separator of the signature in it. -/
def Plain (s : AddrPort) : Prop := ',' ∉ s.addr.zone.toList ∧ '|' ∉ s.addr.zone.toList

instance (s : AddrPort) : Decidable (Plain s) := inferInstanceAs (Decidable (_ ∧ _))

/-- What the text of a server has besides digits and the zone. -/
def marks : List Char := ['u', 'd', 'p', ':', '/', '.', '[', ']', '%']

theorem not_mem_url {c : Char} {s : AddrPort} (hs : s.isValid = true)
    (hdigit : ∀ d : Nat, d.digitChar ≠ c) (hmarks : c ∉ marks)
    (hzone : c ∉ s.addr.zone.toList) : c ∉ ("udp://" ++ s.string).toList := by
  have hne : ∀ x ∈ marks, c ≠ x := fun x hx heq => hmarks (heq ▸ hx)
  have hcolon : c ≠ ':' := hne ':' (by decide)
  have hport : ∀ n, c ∉ Nat.toDigits 10 n := Text.not_mem_toDigits (by decide) hdigit
  have hscheme : ∀ x ∈ "udp://".toList, x ∈ marks := Text.forall_mem_of_all (by decide)
  rw [String.toList_append, mem_append]
  rintro (hmem | hmem)
  · exact hmarks (hscheme c hmem)
  obtain ⟨addr, port⟩ := s
  cases addr with
  | zero => cases hs
  | v4 ip =>
    rw [AddrPort.toList_string_v4, mem_append, mem_cons] at hmem
    rcases hmem with hmem | hmem | hmem
    · exact Addr.not_mem_v4String (hne '.' (by decide)) hdigit ip hmem
    · exact hcolon hmem
    · exact hport _ hmem
  | v6 ip zone =>
    have hbody : c ∉ (Addr.v6 ip zone).string.toList := by
      rw [Addr.toList_string_v6, mem_append]
      rintro (hmem | hmem)
      · exact Addr.not_mem_v6Body hcolon (hne '.' (by decide)) hdigit ip hmem
      · split at hmem
        · exact absurd hmem not_mem_nil
        · rcases mem_cons.mp hmem with hmem | hmem
          · exact hne '%' (by decide) hmem
          · exact hzone hmem
    rw [AddrPort.toList_string_v6, mem_append, mem_cons] at hmem
    rcases hmem with hmem | hmem | hmem
    · rcases mem_append.mp hmem with hmem | hmem
      · rcases mem_cons.mp hmem with hmem | hmem
        · exact hne '[' (by decide) hmem
        · exact hbody hmem
      · exact hne ']' (by decide) (mem_singleton.mp hmem)
    · exact hcolon hmem
    · exact hport _ hmem

/-- The URLs can be told apart in the signature of the route. -/
structure PlainURLs (urls : List String) : Prop where
  ne : urls ≠ []
  comma : ∀ url ∈ urls, ',' ∉ url.toList
  bar : ∀ url ∈ urls, '|' ∉ url.toList

theorem plainURLs_of_servers {urls : List String} (hne : urls ≠ [])
    (h : ∀ url ∈ urls, ∃ s : AddrPort, s.isValid = true ∧ Plain s ∧ url = "udp://" ++ s.string) :
    PlainURLs urls := by
  refine ⟨hne, fun url hurl => ?_, fun url hurl => ?_⟩
  · obtain ⟨s, hs, hplain, rfl⟩ := h url hurl
    exact not_mem_url hs (fun _ => Nat.digitChar_ne ',' (by decide)) (by decide) hplain.1
  · obtain ⟨s, hs, hplain, rfl⟩ := h url hurl
    exact not_mem_url hs (fun _ => Nat.digitChar_ne '|' (by decide)) (by decide) hplain.2

/-- The URLs stand behind the last bar of a signature. -/
theorem urls_of_signature {route route' : UpstreamRoute} (h : PlainURLs route.urls)
    (h' : PlainURLs route'.urls) (heq : route.signature = route'.signature) :
    route.urls = route'.urls := by
  have hbar : ∀ {urls : List String}, PlainURLs urls →
      '|' ∉ [','].intercalate (urls.map String.toList) := by
    intro urls hurls
    refine Addr.not_mem_intercalate (by decide) fun l hl => ?_
    obtain ⟨url, hurl, rfl⟩ := mem_map.mp hl
    exact hurls.bar url hurl
  have hcomma : ∀ {urls : List String}, PlainURLs urls → ∀ l ∈ urls.map String.toList, ',' ∉ l := by
    intro urls hurls l hl
    obtain ⟨url, hurl, rfl⟩ := mem_map.mp hl
    exact hurls.comma url hurl
  have htext := congrArg String.toList heq
  rw [UpstreamRoute.toList_signature, UpstreamRoute.toList_signature, ← cons_append,
    ← append_assoc, ← cons_append, ← append_assoc] at htext
  have hurls := (Text.split_last (hbar h) (hbar h') htext).2
  exact toList_injective_map (Text.intercalate_inj (hcomma h) (hcomma h') (by simpa using h.ne)
    (by simpa using h'.ne) hurls)

/-- Routes with the same signature as routes that do not name an address. -/
theorem free_of_signature {addr : Addr} {routes routes' : List UpstreamRoute}
    (h : ∀ route ∈ routes, PlainURLs route.urls) (h' : ∀ route ∈ routes', PlainURLs route.urls)
    (hsignature : routes.map UpstreamRoute.signature = routes'.map UpstreamRoute.signature)
    (hfree : Free addr routes) : Free addr routes' := by
  intro route' hroute'
  have hmem := mem_map_of_mem (f := UpstreamRoute.signature) hroute'
  rw [← hsignature] at hmem
  obtain ⟨route, hroute, heq⟩ := mem_map.mp hmem
  rw [← urls_of_signature (h route hroute) (h' route' hroute') heq]
  exact hfree route hroute

end SysnetLinux.Dns
