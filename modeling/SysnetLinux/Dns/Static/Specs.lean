/-
  SysnetLinux.Dns.Static.Specs

  What the shared parts of the providers do where some calls can fail without effect, but no
  section under the mutex (`Fallible`): `refreshUpstreams` commits a client or changes nothing,
  `restoreResolvConfIfOwned` puts the original file back or changes nothing.
-/

import SysnetLinux.Dns.Static.Model

namespace SysnetLinux.Dns.Static

open Netip List
open CallProg CallProg.Prog

/-- The calls that can fail: those that leave the package, and a commit. -/
structure Fallible (mayFail : Call → Prop) : Prop where
  outside : ∀ c, mayFail c → c.external = true ∨ ∃ client, c = .commit client

theorem fallible_external : Fallible fun c => c.external = true := ⟨fun _ h => .inl h⟩

section

variable {mayFail : Call → Prop} {I : Call → World → Prop}
  {Q : List ProviderError → World → Prop} {w : World}

variable {c : Call} {wrap : CallError → ProviderError} {v : Reply c} {w' : World}

theorem wp_section (hfallible : Fallible mayFail) (hc : c.external = false)
    (hcommit : ∀ client, c ≠ .commit client) {k : Reply c → StaticProg}
    (hact : act c w = (.ok v, w')) (hI : I c w) (h : wp (flaky mayFail act) I Q (k v) w') :
    wp (flaky mayFail act) I Q (step wrap c k) w := by
  rw [step, wp_call_flaky, hact]
  refine ⟨hI, h, fun hfails => ?_⟩
  rcases hfallible.outside c hfails with hout | ⟨client, rfl⟩
  · rw [hc] at hout
    cases hout
  · exact absurd rfl (hcommit client)

theorem act_closing_done (h : w.provider.closed = true ∧ w.provider.setDNSActive = false) :
    act .closing w = (.ok none, w) := if_pos h

theorem act_closing (h : ¬ (w.provider.closed = true ∧ w.provider.setDNSActive = false)) :
    act .closing w = (.ok (some ⟨w.provider.setDNSActive, w.provider.setDNS, w.provider.client⟩),
      w.shut) := if_neg h

theorem wp_step {k : Reply c → StaticProg} (hact : act c w = (.ok v, w')) (hI : I c w)
    (h : wp (flaky mayFail act) I Q (k v) w') (hfailed : ∀ e, Q [wrap e] w) :
    wp (flaky mayFail act) I Q (step wrap c k) w := by
  rw [step, wp_call_flaky, hact]
  exact ⟨hI, h, fun _ => hfailed⟩

theorem wp_joining {errs : List ProviderError} {k : List ProviderError → StaticProg}
    (hact : act c w = (.ok v, w')) (hI : I c w) (h : wp (flaky mayFail act) I Q (k errs) w')
    (hfailed : ∀ e, wp (flaky mayFail act) I Q (k (errs ++ [wrap e])) w) :
    wp (flaky mayFail act) I Q (joining wrap errs c k) w := by
  rw [joining, wp_call_flaky, hact]
  exact ⟨hI, h, fun _ => hfailed⟩

theorem wp_dropping {k : StaticProg} (hact : (act c w).2 = w) (hI : I c w)
    (h : wp (flaky mayFail act) I Q k w) : wp (flaky mayFail act) I Q (dropping c k) w := by
  rw [dropping, wp_call_flaky, hact]
  exact ⟨hI, h, fun _ _ => h⟩

theorem wp_orReturn {p k : StaticProg} (h : wp (flaky mayFail act) I (fun errs t =>
      if errs = [] then wp (flaky mayFail act) I Q k t else Q errs t) p w) :
    wp (flaky mayFail act) I Q (p.orReturn k) w := by
  rw [StaticProg.orReturn, wp_bind]
  refine wp_post (fun errs t ht => ?_) h
  split
  · rename_i hnil
    rw [if_pos hnil] at ht
    exact ht
  · rename_i hne
    rw [if_neg hne] at ht
    exact ht

end

/-! ## refreshUpstreams -/

/-- How `refreshUpstreams` ends. -/
inductive Refreshed (w : World) (exclude : List Addr) : List ProviderError → World → Prop
  | kept : upstreamURLs w.upstreams exclude ≠ [] →
      w.provider.upstreamSig = upstreamURLs w.upstreams exclude → Refreshed w exclude [] w
  | committed : upstreamURLs w.upstreams exclude ≠ [] → w.provider.closed = false →
      Refreshed w exclude [] (w.committed (upstreamURLs w.upstreams exclude))
  | failed {errs : List ProviderError} : errs ≠ [] → Refreshed w exclude errs w

/-- The calls of `refreshUpstreams`. -/
def Call.refreshes : Call → Bool
  | .upstreams | .commit _ | .closeClient _ => true
  | _ => false

section

variable {mayFail : Call → Prop} {I : Call → World → Prop} {w : World}

theorem act_commit_open {client : Client} (hclosed : w.provider.closed = false)
    (hrouter : w.router.closed = false) :
    act (.commit client) w = (.ok w.provider.client, w.committed client) := by
  simp [act, hclosed, hrouter]

theorem act_commit_refused (client : Client)
    (h : w.provider.closed = true ∨ w.router.closed = true) :
    ∃ e, act (.commit client) w = (.error e, w) := by
  cases hclosed : w.provider.closed with
  | true => exact ⟨.closed, by simp [act, hclosed]⟩
  | false =>
    have hrouter : w.router.closed = true := by simpa [hclosed] using h
    exact ⟨_, by simp only [act, hclosed, hrouter]; rfl⟩

theorem wp_refreshUpstreams (hfallible : Fallible mayFail) (exclude : List Addr)
    (hI : ∀ c, c.refreshes = true → I c w ∧ I c (w.committed (upstreamURLs w.upstreams exclude))) :
    wp (flaky mayFail act) I (Refreshed w exclude) (refreshUpstreams exclude) w := by
  refine wp_section hfallible rfl (fun _ => Call.noConfusion) rfl (hI .upstreams rfl).1 ?_
  dsimp only
  split
  · exact Refreshed.failed (cons_ne_nil _ _)
  rename_i hne
  split
  · rename_i hsame
    exact Refreshed.kept hne hsame.symm
  have hrefused : ∀ e : CallError, wp (flaky mayFail act) I (Refreshed w exclude)
      (dropping (.closeClient (upstreamURLs w.upstreams exclude))
        (.ret [if e = .closed then .closed else .other e])) w := by
    intro e
    exact wp_dropping rfl (hI (.closeClient _) rfl).1 (Refreshed.failed (cons_ne_nil _ _))
  rw [wp_call_flaky]
  refine ⟨(hI (.commit _) rfl).1, ?_, fun _ e => hrefused e⟩
  by_cases hopen : w.provider.closed = false ∧ w.router.closed = false
  · rw [act_commit_open hopen.1 hopen.2]
    have hdone := Refreshed.committed hne hopen.1
    cases w.provider.client with
    | none => exact hdone
    | some old => exact wp_dropping rfl (hI (.closeClient old) rfl).2 hdone
  · have hclosed : w.provider.closed = true ∨ w.router.closed = true := by
      cases hprovider : w.provider.closed with
      | true => exact .inl rfl
      | false =>
        refine .inr ?_
        cases hrouter : w.router.closed with
        | true => rfl
        | false => exact absurd ⟨hprovider, hrouter⟩ hopen
    obtain ⟨e, hact⟩ := act_commit_refused (upstreamURLs w.upstreams exclude) hclosed
    rw [hact]
    exact hrefused e

/-- The chosen URLs do not name an excluded address. -/
theorem not_namesAddr_upstreamURLs {u : Upstreams} {exclude : List Addr} {addr : Addr}
    (hmem : addr ∈ exclude) (hvalid : addr.isValid = true) :
    ¬ NamesAddr (upstreamURLs u exclude) addr := by
  unfold upstreamURLs
  split
  · exact not_namesAddr_filterAddr hmem hvalid
  · exact not_namesAddr_filterAddr hmem hvalid

end

/-! ## Upstreams that are left -/

variable {exclude : List Addr}

/-- Some server is left, of the original ones or of the fallback. -/
theorem upstreamURLs_ne_nil {u : Upstreams} (hvalid : ∀ s ∈ u.servers, s.isValid = true) :
    upstreamURLs u exclude ≠ [] ↔
      ∃ s ∈ u.servers ++ u.fallback, s.isValid = true ∧ addrExcluded s.addr exclude = false := by
  have hurls : ∀ servers, serverURLs (filterAddr servers exclude) ≠ [] ↔
      ∃ s ∈ servers, s.isValid = true ∧ addrExcluded s.addr exclude = false := by
    intro servers
    rw [ne_eq, serverURLs_eq_nil]
    push Not
    constructor
    · rintro ⟨s, hs, hsvalid⟩
      obtain ⟨hmem, hleft⟩ := mem_filterAddr.mp hs
      exact ⟨s, hmem, Bool.eq_true_of_not_eq_false hsvalid, hleft⟩
    · rintro ⟨s, hmem, hsvalid, hleft⟩
      exact ⟨s, mem_filterAddr.mpr ⟨hmem, hleft⟩, by rw [hsvalid]; decide⟩
  unfold upstreamURLs
  split
  · rename_i hnone
    rw [hurls]
    constructor
    · rintro ⟨s, hs, hleft⟩
      exact ⟨s, mem_append_right _ hs, hleft⟩
    · rintro ⟨s, hs, hsvalid, hleft⟩
      rcases mem_append.mp hs with hs | hs
      · have hmem := mem_filterAddr.mpr ⟨hs, hleft⟩
        rw [hnone] at hmem
        cases hmem
      · exact ⟨s, hs, hsvalid, hleft⟩
  · rename_i hsome
    obtain ⟨s, hs⟩ := exists_mem_of_ne_nil _ hsome
    obtain ⟨hmem, hleft⟩ := mem_filterAddr.mp hs
    exact iff_of_true ((hurls _).mpr ⟨s, hmem, hvalid s hmem, hleft⟩)
      ⟨s, mem_append_left _ hmem, hvalid s hmem, hleft⟩

theorem addrExcluded_subset {addr : Addr} {exclude' : List Addr}
    (h : addrExcluded addr exclude = false) (hsub : exclude' ⊆ exclude) :
    addrExcluded addr exclude' = false := by
  rw [addrExcluded, any_eq_false] at h ⊢
  exact fun x hx => h x (hsub hx)

/-- What is left with a server among the excluded ones is left with that one excluded. -/
theorem Refreshed.left {w w' : World} (h : Refreshed w exclude [] w')
    (hvalid : ∀ s ∈ w.provider.originalServers, s.isValid = true) {server : Addr}
    (hmem : server ∈ exclude) : upstreamURLs w'.upstreams [server] ≠ [] := by
  have hsub : [server] ⊆ exclude := fun x hx => mem_singleton.mp hx ▸ hmem
  have hshrink : upstreamURLs w.upstreams exclude ≠ [] →
      upstreamURLs w.upstreams [server] ≠ [] := by
    intro hne
    obtain ⟨s, hs, hsvalid, hnot⟩ := (upstreamURLs_ne_nil hvalid).mp hne
    exact (upstreamURLs_ne_nil hvalid).mpr ⟨s, hs, hsvalid, addrExcluded_subset hnot hsub⟩
  cases h with
  | kept hne | committed hne => exact hshrink hne
  | failed hne => exact absurd rfl hne

/-! ## restoreResolvConfIfOwned -/

/-- The world with the original file. -/
def World.restored (w : World) : World :=
  { w with host := { w.host with file := w.provider.original, managed := none } }

/-- The file is absent or owned by `Direct`. -/
def Host.Replaceable (h : Host) : Prop := h.file.all directResolvconfOwned = true

/-- The file is there and owned by `Direct`. -/
def Host.Owned (h : Host) : Prop := h.file.any directResolvconfOwned = true

instance (h : Host) : Decidable h.Owned := inferInstanceAs (Decidable (_ = true))

instance (h : Host) : Decidable h.Replaceable := inferInstanceAs (Decidable (_ = true))

theorem Host.Owned.replaceable {h : Host} (howned : h.Owned) : h.Replaceable := by
  unfold Host.Owned at howned
  unfold Host.Replaceable
  cases hfile : h.file with
  | none => rfl
  | some text =>
    rw [hfile] at howned
    exact howned

/-- How `restoreResolvConfIfOwned` ends. -/
inductive Restored (w : World) : List ProviderError → World → Prop
  | skipped : ¬ w.host.Replaceable → Restored w [] w
  | restored : w.host.Replaceable → Restored w [] w.restored
  | failed {errs : List ProviderError} : errs ≠ [] → Restored w errs w

theorem wp_restoreResolvConfIfOwned {mayFail : Call → Prop} {I : Call → World → Prop} {w : World}
    (hfallible : Fallible mayFail) (hread : I .readFile w) (horiginal : I .original w)
    (hwrite : w.host.Replaceable → ∀ text, w.provider.original = some text →
      I (.writeFile text none) w)
    (hremove : w.host.Replaceable → w.provider.original = none → I .removeFile w) :
    wp (flaky mayFail act) I (Restored w) Direct.restoreResolvConfIfOwned w := by
  refine wp_step rfl hread ?_ fun _ => Restored.failed (cons_ne_nil _ _)
  split
  · rename_i hforeign
    refine Restored.skipped fun hreplaceable => ?_
    rw [Host.Replaceable, hforeign] at hreplaceable
    cases hreplaceable
  rename_i hreplaceable
  have hreplaceable : w.host.Replaceable := Bool.eq_true_of_not_eq_false hreplaceable
  have hdone := Restored.restored hreplaceable
  refine wp_section hfallible rfl (fun _ => Call.noConfusion) rfl horiginal ?_
  cases hkept : w.provider.original with
  | none =>
    refine wp_step rfl (hremove hreplaceable hkept) ?_ fun _ =>
      Restored.failed (cons_ne_nil _ _)
    rw [World.restored, hkept] at hdone
    exact hdone
  | some text =>
    refine wp_step rfl (hwrite hreplaceable text hkept) ?_ fun _ =>
      Restored.failed (cons_ne_nil _ _)
    rw [World.restored, hkept] at hdone
    exact hdone

end SysnetLinux.Dns.Static
