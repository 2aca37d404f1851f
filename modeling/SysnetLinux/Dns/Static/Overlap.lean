/-
  SysnetLinux.Dns.Static.Overlap

  Calls on one `Direct` at the same time.

  `SetDNS` writes the file and records the server in two steps: two `SetDNS` calls leave the file
  of one and the record of the other (`overlapping_sets_disagree`).  As long as no call overlaps a
  `SetDNS`, the file and the record agree once all calls have returned (`agrees_of_undisturbed`):
  what `UnsetDNS` and `Close` do beside each other only clears (`Clearing`).
-/

import SysnetLinux.Dns.Static.Rollback
import SysnetLinux.Lib.Threads

namespace SysnetLinux.Dns.Static.Direct

open Netip
open CallProg CallProg.Prog CallProg.Threads

/-! ## Runs -/

abbrev DirectConfig := Threads.Config Nat Operation Call Reply CallError (List ProviderError) World

/-- No call fails, but for a refresh of a closed provider. -/
abbrev together (_ : Nat) : Handler Call Reply CallError World := replies act

/-- `UnsetDNS` and `Close`. -/
def clears : Operation → Bool
  | .setDNS _ => false
  | .unsetDNS | .close => true

/-- A call does not overlap a `SetDNS`: what is in progress when it is started are calls of
    `UnsetDNS` and `Close`, and it is one of them too. -/
def Undisturbed (cfg : DirectConfig) : Action Nat Operation Call Reply CallError → Prop
  | .start _ op => ∀ i op' p, cfg.threads i = some (op', p) →
      (∃ errs, p = .ret errs) ∨ (clears op = true ∧ clears op' = true)
  | .call _ _ _ => True

/-- The file and the state of the provider agree. -/
structure Agrees (w : World) : Prop where
  owned : w.host.Owned ↔ w.provider.setDNSActive = true ∧ w.provider.closed = false
  names : w.host.Owned → w.host.file = some (resolvconfForServer w.provider.setDNS)
  excluded : w.host.Owned → ∀ client, w.router.attached = some client →
    ¬ NamesAddr client w.provider.setDNS

/-! ## SetDNS alone -/

/-- What all calls keep, whatever the file is. -/
structure Grounded (original : Option String) (w : World) : Prop where
  original : w.provider.original = original
  valid : ∀ s ∈ w.provider.originalServers, s.isValid = true
  active : w.provider.setDNSActive = true → w.provider.setDNS.isValid = true
  upstreams : w.provider.setDNSActive = true → upstreamURLs w.upstreams [w.provider.setDNS] ≠ []
  router : w.router.closed = true → w.provider.closed = true
  attached : ∀ client, w.router.attached = some client → client = w.provider.upstreamSig

section Calls

variable {original : Option String} {w w' : World}

theorem Grounded.committed (h : Grounded original w) (client : Client) :
    Grounded original (w.committed client) :=
  ⟨h.original, h.valid, h.active, h.upstreams, h.router,
    fun _ hclient => (Option.some.inj hclient).symm⟩

theorem Grounded.forget (h : Grounded original w) : Grounded original w.forget where
  original := h.original
  valid := h.valid
  active := fun hactive => by cases hactive
  upstreams := fun hactive => by cases hactive
  router := h.router
  attached := h.attached

theorem Grounded.ofHost (h : Grounded original w) (host : Host) :
    Grounded original { w with host := host } :=
  ⟨h.original, h.valid, h.active, h.upstreams, h.router, h.attached⟩

variable {errs : List ProviderError} {c : Call} {k : Except CallError (Reply c) → StaticProg}

theorem Grounded.refreshed (h : Grounded original w) {exclude : List Addr}
    (hend : Refreshed w exclude errs w') : Grounded original w' := by
  cases hend with
  | kept => exact h
  | committed => exact h.committed _
  | failed => exact h

/-- A refresh that leaves out the installed server. -/
theorem Agrees.refreshed (h : Agrees w) (hgrounded : Grounded original w) {exclude : List Addr}
    (hmem : w.provider.setDNSActive = true → w.provider.setDNS ∈ exclude)
    (hend : Refreshed w exclude errs w') : Agrees w' := by
  cases hend with
  | kept => exact h
  | committed =>
    refine ⟨h.owned, h.names, fun howned client hclient => ?_⟩
    have hactive := (h.owned.mp howned).1
    obtain rfl := Option.some.inj hclient
    exact not_namesAddr_upstreamURLs (hmem hactive) (hgrounded.active hactive)
  | failed => exact h

theorem agrees_setDNS (hgrounded : Grounded original w) (h : Agrees w) (server : Addr) :
    wp directWorld Any (fun _ w' => Grounded original w' ∧ Agrees w') (setDNS server) w := by
  unfold setDNS Actions.setDNS
  split
  · exact ⟨hgrounded, h⟩
  rename_i hvalid
  have hvalid : server.isValid = true := Bool.eq_true_of_not_eq_false hvalid
  refine wp_section fallible_refusable rfl (fun _ => Call.noConfusion) rfl trivial ?_
  split
  · exact ⟨hgrounded, h⟩
  rename_i hopen
  have hopen : w.provider.closed = false := Bool.eq_false_of_not_eq_true hopen
  dsimp only
  have hold : w.provider.setDNSActive = true → w.provider.setDNS ∈
      if w.provider.setDNSActive = true then [server, w.provider.setDNS] else [server] := by
    intro hactive
    rw [if_pos hactive]
    simp
  have hnew : server ∈ if w.provider.setDNSActive = true then [server, w.provider.setDNS]
      else [server] := by
    split <;> exact List.mem_cons_self
  refine wp_orReturn (wp_post (fun errs w₁ hend => ?_) (wp_refreshUpstreams fallible_refusable _
    fun _ _ => ⟨trivial, trivial⟩))
  have hgrounded₁ := hgrounded.refreshed hend
  have h₁ := h.refreshed hgrounded hold hend
  split
  · rename_i hnil
    subst hnil
    have hexcluded := hend.excluded hnew hvalid
    have hleft := hend.left hgrounded.valid hnew
    have hopen₁ : w₁.provider.closed = false := by
      cases hend with
      | kept | committed => exact hopen
      | failed hne => exact absurd rfl hne
    refine wp_orReturn (wp_step rfl trivial ?_ fun _ => ⟨hgrounded₁, h₁⟩)
    change wp directWorld Any (fun _ w' => Grounded original w' ∧ Agrees w')
      (step .other (.installed server) fun _ => .ret []) _
    refine wp_section fallible_refusable rfl (fun _ => Call.noConfusion) rfl trivial ⟨?_, ?_⟩
    · exact ⟨hgrounded₁.original, hgrounded₁.valid, fun _ => hvalid, fun _ => hleft,
        hgrounded₁.router, hgrounded₁.attached⟩
    · refine ⟨iff_of_true (owned_resolvconfForServer server) ⟨rfl, hopen₁⟩, fun _ => rfl, ?_⟩
      intro _ client hclient
      rw [hgrounded₁.attached client hclient]
      exact hexcluded
  · exact ⟨hgrounded₁, h₁⟩

/-! ## UnsetDNS and Close together -/

/-- What a step of `UnsetDNS` or `Close` can do. -/
structure Clearing (original : Option String) (w w' : World) : Prop where
  grounded : Grounded original w → Grounded original w'
  foreign : ¬ w.host.Owned → ¬ w'.host.Owned
  inactive : w.provider.setDNSActive = false → w'.provider.setDNSActive = false
  server : w'.provider.setDNSActive = true → w'.provider.setDNS = w.provider.setDNS
  closed : w.provider.closed = true → w'.provider.closed = true
  upstreams : ∀ exclude, upstreamURLs w'.upstreams exclude = upstreamURLs w.upstreams exclude

theorem Clearing.refl (w : World) : Clearing original w w :=
  ⟨id, id, id, fun _ => rfl, id, fun _ => rfl⟩

theorem Clearing.trans {u v w : World} (h : Clearing original u v) (h' : Clearing original v w) :
    Clearing original u w where
  grounded := h'.grounded ∘ h.grounded
  foreign := h'.foreign ∘ h.foreign
  inactive := h'.inactive ∘ h.inactive
  server := fun hactive => by
    have hbefore : v.provider.setDNSActive = true := by
      refine Bool.eq_true_of_not_eq_false fun hfalse => ?_
      rw [h'.inactive hfalse] at hactive
      cases hactive
    rw [h'.server hactive, h.server hbefore]
  closed := h'.closed ∘ h.closed
  upstreams := fun exclude => (h'.upstreams exclude).trans (h.upstreams exclude)

/-- What a call of `UnsetDNS` or `Close` knows that has seen `server`: whether the file is
    gone for good, and whether the flag is cleared or the provider closed. -/
structure Noted (original : Option String) (server : Addr) (gone ended : Bool) (w : World) :
    Prop where
  grounded : Grounded original w
  left : upstreamURLs w.upstreams [server] ≠ []
  server : w.provider.setDNSActive = true → w.provider.setDNS = server
  gone : gone = true → ¬ w.host.Owned
  ended : ended = true → w.provider.setDNSActive = false ∨ w.provider.closed = true

variable {server : Addr} {gone ended : Bool}

theorem Noted.stable (hstep : Clearing original w w') (h : Noted original server gone ended w) :
    Noted original server gone ended w' where
  grounded := hstep.grounded h.grounded
  left := by
    rw [hstep.upstreams]
    exact h.left
  server := fun hactive => by
    rw [hstep.server hactive]
    refine h.server (Bool.eq_true_of_not_eq_false fun hfalse => ?_)
    rw [hstep.inactive hfalse] at hactive
    cases hactive
  gone := fun hgone => hstep.foreign (h.gone hgone)
  ended := fun hover => (h.ended hover).imp hstep.inactive hstep.closed

/-- The file is not the provider's, and the flag is cleared or the provider closed. -/
def Cleared (w : World) : Prop :=
  ¬ w.host.Owned ∧ (w.provider.setDNSActive = false ∨ w.provider.closed = true)

theorem Cleared.stable (hstep : Clearing original w w') (h : Cleared w) : Cleared w' :=
  ⟨hstep.foreign h.1, h.2.imp hstep.inactive hstep.closed⟩

theorem Noted.cleared (h : Noted original server true true w) : Cleared w :=
  ⟨h.gone rfl, h.ended rfl⟩

theorem Cleared.agrees (h : Cleared w) : Agrees w where
  owned := by
    refine iff_of_false h.1 ?_
    rintro ⟨hactive, hopen⟩
    rcases h.2 with hfalse | hclosed
    · rw [hfalse] at hactive
      cases hactive
    · rw [hclosed] at hopen
      cases hopen
  names := fun howned => absurd howned h.1
  excluded := fun howned => absurd howned h.1

/-- The rule for one call among others that only clear. -/
abbrev Clears (original : Option String) (Q : List ProviderError → World → Prop)
    (p : StaticProg) (w : World) : Prop :=
  relies (replies act) (Clearing original) (Clearing original) (fun _ _ => True) Q p w

variable {P : World → Prop} {Q : List ProviderError → World → Prop}

section

variable (hP : P w) (hstable : ∀ s t, Clearing original s t → P s → P t)
include hP hstable

theorem clears_call
    (h : ∀ t, P t → Clearing original t (act c t).2 ∧ Clears original Q (k (act c t).1) (act c t).2) :
    Clears original Q (.call c k) w := by
  refine relies_call hP hstable fun t ht => ⟨trivial, fun r u hu => ?_⟩
  obtain ⟨hclearing, hrest⟩ := h t ht
  rw [replies] at hu
  rw [hu] at hclearing hrest
  exact ⟨hclearing, hrest⟩

theorem clears_step {wrap : CallError → ProviderError} {k : Reply c → StaticProg}
    (h : ∀ t, P t → ∃ v u, act c t = (.ok v, u) ∧ Clearing original t u ∧ Clears original Q (k v) u) :
    Clears original Q (step wrap c k) w := by
  refine clears_call hP hstable fun t ht => ?_
  obtain ⟨v, u, hact, hclearing, hrest⟩ := h t ht
  rw [hact]
  exact ⟨hclearing, hrest⟩

theorem clears_ret (h : ∀ t, P t → Q errs t) : Clears original Q (.ret errs) w :=
  relies_ret hP hstable h

end

theorem clears_stable {p : StaticProg} (h : Clears original Q p w)
    (hstep : Clearing original w w') : Clears original Q p w' := by
  have htrans : ∀ u v w, Clearing original u v → Clearing original v w → Clearing original u w :=
    fun _ _ _ => Clearing.trans
  exact relies_stable htrans h hstep

theorem clearing_ofHost {file : Option String} (hforeign : Foreign file) :
    Clearing original w { w with host := { w.host with file := file, managed := none } } :=
  ⟨fun h => h.ofHost _, fun _ => hforeign.not_owned, id, fun _ => rfl, id, fun _ => rfl⟩

theorem Noted.ofHost (h : Noted original server gone ended w) {file : Option String}
    (hforeign : Foreign file) :
    Noted original server true ended
      { w with host := { w.host with file := file, managed := none } } :=
  ⟨h.grounded.ofHost _, h.left, h.server, fun _ => hforeign.not_owned, h.ended⟩

theorem clears_restore (hforeign : Foreign original) (h : Noted original server false ended w) :
    Clears original (fun errs t => errs = [] ∧ Noted original server true ended t)
      restoreResolvConfIfOwned w := by
  have hret : ∀ t, Noted original server true ended t →
      Clears original (fun errs t => errs = [] ∧ Noted original server true ended t) (.ret []) t :=
    fun t ht => clears_ret ht (fun _ _ => Noted.stable) fun _ hu => ⟨rfl, hu⟩
  refine clears_step h (fun _ _ => Noted.stable) fun t ht => ⟨_, t, rfl, .refl t, ?_⟩
  split
  · rename_i hskipped
    refine hret t ⟨ht.grounded, ht.left, ht.server, fun _ => ?_, ht.ended⟩
    refine not_owned_of_skipped fun hreplaceable => ?_
    rw [Host.Replaceable, hskipped] at hreplaceable
    cases hreplaceable
  · refine clears_step ht (fun _ _ => Noted.stable) fun t ht => ⟨_, t, rfl, .refl t, ?_⟩
    rw [ht.grounded.original]
    cases original with
    | none | some text =>
      refine clears_step ht (fun _ _ => Noted.stable) fun t ht => ⟨(), _, rfl, ?_, ?_⟩
      · exact clearing_ofHost hforeign
      · exact hret _ (ht.ofHost hforeign)

/-- A refresh is refused only by a closed provider. -/
theorem clears_refresh (h : Noted original server true ended w) :
    Clears original (fun errs t => (errs = [] ∧ Noted original server true ended t) ∨
      (errs ≠ [] ∧ Noted original server true true t)) (refreshUpstreams [server]) w := by
  refine clears_step h (fun _ _ => Noted.stable) fun t ht => ⟨_, t, rfl, .refl t, ?_⟩
  dsimp only
  rw [if_neg ht.left]
  split
  · exact clears_ret ht (fun _ _ => Noted.stable) fun _ hu => .inl ⟨rfl, hu⟩
  generalize upstreamURLs t.upstreams [server] = urls
  refine clears_call ht (fun _ _ => Noted.stable) fun t ht => ?_
  by_cases hclosed : t.provider.closed = true
  · -- The new client is closed again, and the error is returned.
    have hact : act (.commit urls) t = (.error .closed, t) := if_pos hclosed
    have hover : Noted original server true true t :=
      ⟨ht.grounded, ht.left, ht.server, ht.gone, fun _ => .inr hclosed⟩
    rw [hact]
    refine ⟨.refl t, clears_call hover (fun _ _ => Noted.stable) fun t ht => ⟨.refl t, ?_⟩⟩
    exact clears_ret ht (fun _ _ => Noted.stable) fun _ hu => .inr ⟨List.cons_ne_nil _ _, hu⟩
  · have hopen : t.provider.closed = false := Bool.eq_false_of_not_eq_true hclosed
    have hrouter : t.router.closed = false :=
      Bool.eq_false_of_not_eq_true fun hrouter => hclosed (ht.grounded.router hrouter)
    rw [act_commit_open hopen hrouter]
    have hclearing : Clearing original t (t.committed urls) :=
      ⟨fun hgrounded => hgrounded.committed urls, id, id, fun _ => rfl, id, fun _ => rfl⟩
    have hret : ∀ u, Noted original server true ended u → Clears original
        (fun errs t => (errs = [] ∧ Noted original server true ended t) ∨
          (errs ≠ [] ∧ Noted original server true true t)) (.ret []) u :=
      fun u hu => clears_ret hu (fun _ _ => Noted.stable) fun _ hu => .inl ⟨rfl, hu⟩
    have hcommitted := ht.stable hclearing
    refine ⟨hclearing, ?_⟩
    cases t.provider.client with
    | none => exact hret _ hcommitted
    | some old =>
      exact clears_call hcommitted (fun _ _ => Noted.stable) fun u hu => ⟨.refl u, hret u hu⟩

theorem clearing_forget : Clearing original w w.forget where
  grounded := Grounded.forget
  foreign := id
  inactive := fun _ => rfl
  server := fun hactive => by cases hactive
  closed := id
  upstreams := fun _ => rfl

/-- `UnsetDNS` behind its first section, if it has seen the flag. -/
theorem clears_unsetting (hforeign : Foreign original) (h : Noted original server false false w) :
    Clears original (fun _ t => Cleared t) (restoreResolvConfIfOwned.bind fun errs =>
        (refreshUpstreams [server]).bind fun refreshErrs =>
          if errs ++ refreshErrs = [] then step .other (.unset server) fun _ => .ret []
          else .ret (errs ++ refreshErrs)) w := by
  refine relies_bind Clearing.refl ?_
  refine relies_mono (fun _ _ => id) (fun _ _ => id) (fun errs t ht => ?_)
    (clears_restore hforeign h)
  obtain ⟨rfl, ht⟩ := ht
  refine relies_bind Clearing.refl ?_
  refine relies_mono (fun _ _ => id) (fun _ _ => id) (fun errs u hu => ?_) (clears_refresh ht)
  rcases hu with ⟨rfl, hu⟩ | ⟨hne, hu⟩
  · rw [List.append_nil, if_pos rfl]
    refine clears_step hu (fun _ _ => Noted.stable) fun u hu => ?_
    by_cases hsame : u.provider.setDNSActive = true ∧ u.provider.setDNS = server
    · refine ⟨(), u.forget, by simp [act, hsame], clearing_forget, ?_⟩
      exact clears_ret ⟨hu.gone rfl, .inl rfl⟩ (fun _ _ => Cleared.stable) fun _ h => h
    · have hinactive : u.provider.setDNSActive = false :=
        Bool.eq_false_of_not_eq_true fun hactive => hsame ⟨hactive, hu.server hactive⟩
      refine ⟨(), u, by simp [act, hinactive], .refl u, ?_⟩
      exact clears_ret ⟨hu.gone rfl, .inl hinactive⟩ (fun _ _ => Cleared.stable) fun _ h => h
  · rw [List.nil_append, if_neg hne]
    exact clears_ret hu.cleared (fun _ _ => Cleared.stable) fun _ h => h

theorem clears_closeForwarding (client : Option Client) (errs : List ProviderError)
    (hclosed : w.provider.closed = true) (hP : P w)
    (hstable : ∀ s t, Clearing original s t → P s → P t) :
    Clears original (fun _ t => P t) (closeForwarding client errs) w := by
  have hboth : ∀ s t, Clearing original s t → P s ∧ s.provider.closed = true →
      P t ∧ t.provider.closed = true :=
    fun s t hstep hs => ⟨hstable s t hstep hs.1, hstep.closed hs.2⟩
  refine clears_call ⟨hP, hclosed⟩ hboth fun t ht => ?_
  have hclearing : Clearing original t { t with router := { t.router with closed := true } } :=
    ⟨fun h => ⟨h.original, h.valid, h.active, h.upstreams, fun _ => ht.2, h.attached⟩, id, id,
      fun _ => rfl, id, fun _ => rfl⟩
  have hthen := hstable _ _ hclearing ht.1
  refine ⟨hclearing, ?_⟩
  dsimp only [act]
  cases client with
  | none => exact clears_ret hthen hstable fun _ h => h
  | some client =>
    refine clears_call hthen hstable fun u hu => ⟨.refl u, ?_⟩
    exact clears_ret hu hstable fun _ h => h

/-- `Close` behind its first section, if it has seen the flag. -/
theorem clears_closing (hforeign : Foreign original) (client : Option Client)
    (hclosed : w.provider.closed = true) (h : Noted original server false true w) :
    Clears original (fun _ t => Cleared t) ((restoreResolvConfIfOwned.orReturn <|
        step .other (.forgotten server) fun _ => .ret []).bind (closeForwarding client)) w := by
  have hrest : ∀ (errs : List ProviderError) (t : World), t.provider.closed = true → Cleared t →
      Clears original (fun _ t => Cleared t) (closeForwarding client errs) t :=
    fun errs t hopen ht => clears_closeForwarding client errs hopen ht fun _ _ => Cleared.stable
  have hboth : ∀ s t, Clearing original s t → Cleared s ∧ s.provider.closed = true →
      Cleared t ∧ t.provider.closed = true :=
    fun s t hstep hs => ⟨hs.1.stable hstep, hstep.closed hs.2⟩
  refine relies_bind Clearing.refl (relies_bind Clearing.refl ?_)
  refine relies_mono (fun _ _ => id) (fun _ _ => id) (fun errs t ht => ?_)
    (relies_frame (fun _ _ hstep => hstep.closed) (fun _ _ hstep => hstep.closed) hclosed
      (clears_restore hforeign h))
  obtain ⟨⟨rfl, ht⟩, hstays⟩ := ht
  rw [if_pos rfl]
  refine clears_step ⟨ht.cleared, hstays⟩ hboth fun u hu => ?_
  by_cases hsame : u.provider.setDNS = server
  · refine ⟨(), u.forget, by simp [act, hsame], clearing_forget, ?_⟩
    exact clears_ret (P := fun t => Cleared t ∧ t.provider.closed = true)
      ⟨⟨hu.1.1, .inl rfl⟩, hu.2⟩ hboth fun _ h => hrest [] _ h.2 h.1
  · refine ⟨(), u, by simp [act, hsame], .refl u, ?_⟩
    exact clears_ret hu hboth fun _ h => hrest [] _ h.2 h.1

theorem Grounded.shut (h : Grounded original w) : Grounded original w.shut :=
  ⟨h.original, h.valid, h.active, h.upstreams, fun _ => rfl, h.attached⟩

/-- What is left of a call of `UnsetDNS` or `Close` behind its first section: it clears, and
    if the first section has found file and state in agreement then the call is over and has
    changed nothing, or it ends with both gone. -/
structure Entered (original : Option String) (w w' : World) (rest : StaticProg) : Prop where
  step : Clearing original w w'
  clears : Clears original (fun _ _ => True) rest w'
  ends : Agrees w → (w' = w ∧ ∃ errs, rest = .ret errs) ∨
    Clears original (fun _ t => Cleared t) rest w'

theorem Entered.finished (errs : List ProviderError) : Entered original w w (.ret errs) where
  step := .refl w
  clears := fun _ _ => trivial
  ends := fun _ => .inl ⟨rfl, errs, rfl⟩

theorem Entered.cleared {rest : StaticProg} (hstep : Clearing original w w')
    (h : Clears original (fun _ t => Cleared t) rest w') : Entered original w w' rest where
  step := hstep
  clears := relies_mono (fun _ _ => id) (fun _ _ => id) (fun _ _ _ => trivial) h
  ends := fun _ => .inr h

section

variable (hforeign : Foreign original)
include hforeign

theorem entered_unsetDNS (h : Grounded original w) {k : Except CallError Managed → StaticProg}
    (hk : unsetDNS = .call .managed k) :
    Entered original w (act .managed w).2 (k (act .managed w).1) := by
  obtain rfl : _ = k := eq_of_heq (Prog.call.inj hk).2
  change Entered original w w (if w.provider.closed = true then .ret [.closed]
    else if w.provider.setDNSActive = false then .ret [] else _)
  split
  · exact Entered.finished _
  split
  · exact Entered.finished _
  rename_i hactive
  have hactive : w.provider.setDNSActive = true := Bool.eq_true_of_not_eq_false hactive
  refine Entered.cleared (.refl w) (clears_unsetting hforeign ?_)
  exact ⟨h, h.upstreams hactive, fun _ => rfl, fun hfalse => (by cases hfalse),
    fun hfalse => (by cases hfalse)⟩

theorem entered_close (h : Grounded original w) {k : Except CallError (Option Closing) → StaticProg}
    (hk : close = .call .closing k) :
    Entered original w (act .closing w).2 (k (act .closing w).1) := by
  obtain rfl : _ = k := eq_of_heq (Prog.call.inj hk).2
  by_cases hdone : w.provider.closed = true ∧ w.provider.setDNSActive = false
  · rw [act_closing_done hdone]
    exact Entered.finished _
  rw [act_closing hdone]
  have hstep : Clearing original w w.shut :=
    ⟨Grounded.shut, id, id, fun _ => rfl, fun _ => rfl, fun _ => rfl⟩
  by_cases hactive : w.provider.setDNSActive = true
  · have hrollback : actions.rollback
        ⟨w.provider.setDNSActive, w.provider.setDNS, w.provider.client⟩ =
        restoreResolvConfIfOwned.orReturn
          (step .other (.forgotten w.provider.setDNS) fun _ => .ret []) := if_pos hactive
    dsimp only
    rw [hrollback]
    refine Entered.cleared hstep (clears_closing hforeign _ rfl ?_)
    exact ⟨h.shut, h.upstreams hactive, fun _ => rfl, fun hfalse => (by cases hfalse),
      fun _ => .inr rfl⟩
  · have hrollback : actions.rollback
        ⟨w.provider.setDNSActive, w.provider.setDNS, w.provider.client⟩ = .ret [] :=
      if_neg hactive
    dsimp only
    rw [hrollback]
    refine ⟨hstep, ?_, fun hagrees => .inr ?_⟩
    · exact clears_closeForwarding _ [] rfl trivial fun _ _ _ => id
    · refine clears_closeForwarding _ [] rfl ⟨fun howned => ?_, .inr rfl⟩ fun _ _ => Cleared.stable
      exact hactive (hagrees.owned.mp howned).1

/-- The first section of `UnsetDNS` and of `Close`. -/
theorem entered {op : Operation} (hop : clears op = true) (h : Grounded original w)
    (hk : Backend.direct.perform op = .call c k) :
    Entered original w (act c w).2 (k (act c w).1) := by
  cases op with
  | setDNS server => cases hop
  | unsetDNS =>
    obtain rfl : Call.managed = c := (Prog.call.inj hk).1
    exact entered_unsetDNS hforeign h hk
  | close =>
    obtain rfl : Call.closing = c := (Prog.call.inj hk).1
    exact entered_close hforeign h hk

/-- Every step of a call of `UnsetDNS` or `Close` is one of `Clearing`. -/
theorem clears_operation {op : Operation} (hop : clears op = true) (h : Grounded original w) :
    Clears original (fun _ _ => True) (Backend.direct.perform op) w := by
  cases hcode : Backend.direct.perform op with
  | ret errs => exact fun _ _ => trivial
  | call c k =>
    refine clears_call h (fun _ _ hstep => hstep.grounded) fun t ht => ?_
    exact ⟨(entered hforeign hop ht hcode).step, (entered hforeign hop ht hcode).clears⟩

end

end Calls

/-! ## Runs without overlap -/

/-- One `SetDNS` is in progress, or calls of `UnsetDNS` and `Close` are.  In the second case
    none of them has passed its first section, or one of them ends with file and flag gone. -/
inductive Phase (original : Option String) (cfg : DirectConfig) : Prop
  | setting {i : Nat} {server : Addr} {p : StaticProg}
      (thread : cfg.threads i = some (.setDNS server, p))
      (others : ∀ j op q, j ≠ i → cfg.threads j = some (op, q) → ∃ errs, q = .ret errs)
      (alone : wp directWorld (fun _ _ => True) (fun _ w => Grounded original w ∧ Agrees w) p
        cfg.shared)
  | clearing (grounded : Grounded original cfg.shared)
      (running : ∀ i op p, cfg.threads i = some (op, p) → (∃ errs, p = .ret errs) ∨
        (clears op = true ∧ Clears original (fun _ _ => True) p cfg.shared))
      (ends : (Agrees cfg.shared ∧ ∀ i op p, cfg.threads i = some (op, p) →
          (∃ errs, p = .ret errs) ∨ p = Backend.direct.perform op) ∨
        ∃ i op p, cfg.threads i = some (op, p) ∧ Clears original (fun _ t => Cleared t) p cfg.shared)

section Runs

variable {original : Option String} {cfg cfg' : DirectConfig}

theorem Phase.at_rest (h : Phase original cfg) (hreturned : cfg.Returned) :
    Grounded original cfg.shared ∧ Agrees cfg.shared := by
  cases h with
  | setting thread _ alone =>
    obtain ⟨errs, rfl⟩ := hreturned _ _ _ thread
    exact alone
  | clearing grounded _ ends =>
    refine ⟨grounded, ?_⟩
    rcases ends with ⟨hagrees, -⟩ | ⟨i, op, p, hthread, hcleared⟩
    · exact hagrees
    · obtain ⟨errs, rfl⟩ := hreturned i op p hthread
      exact (hcleared cfg.shared (.refl _)).agrees

section

variable (hforeign : Foreign original)
include hforeign

/-- A state in agreement, in which all calls have returned, is a phase of its own. -/
theorem Phase.started (hreturned : cfg.Returned) (hgrounded : Grounded original cfg.shared)
    (hagrees : Agrees cfg.shared) (i : Nat) (op : Operation) :
    Phase original (cfg.goOn i op (Backend.direct.perform op) cfg.shared) := by
  have hothers : ∀ j op' q, j ≠ i →
      (cfg.goOn i op (Backend.direct.perform op) cfg.shared).threads j = some (op', q) →
      ∃ errs, q = .ret errs := by
    intro j op' q hne hj
    rw [Config.goOn_threads_of_ne cfg hne] at hj
    exact hreturned j op' q hj
  by_cases hop : clears op = true
  · refine .clearing hgrounded (fun j op' q hj => ?_) (.inl ⟨hagrees, fun j op' q hj => ?_⟩)
    · rcases Config.threads_goOn hj with ⟨rfl, rfl, rfl⟩ | ⟨hne, -⟩
      · exact .inr ⟨hop, clears_operation hforeign hop hgrounded⟩
      · exact .inl (hothers j op' q hne hj)
    · rcases Config.threads_goOn hj with ⟨rfl, rfl, rfl⟩ | ⟨hne, -⟩
      · exact .inr rfl
      · exact .inl (hothers j op' q hne hj)
  · cases op with
    | unsetDNS | close => exact absurd rfl hop
    | setDNS server =>
      exact .setting (Config.goOn_threads_self cfg ..) hothers
        (agrees_setDNS hgrounded hagrees server)

theorem Phase.start (h : Phase original cfg) {i : Nat} {op : Operation}
    (hallowed : Undisturbed cfg (.start i op)) (hfree : cfg.threads i = none) :
    Phase original (cfg.goOn i op (Backend.direct.perform op) cfg.shared) := by
  by_cases hreturned : cfg.Returned
  · obtain ⟨hgrounded, hagrees⟩ := h.at_rest hreturned
    exact Phase.started hforeign hreturned hgrounded hagrees i op
  -- Something is in progress, so this is another call that clears.
  have hop : clears op = true := by
    by_contra hsets
    refine hreturned fun j op' p hj => ?_
    rcases hallowed j op' p hj with hret | ⟨hclears, -⟩
    · exact hret
    · exact absurd hclears hsets
  cases h with
  | @setting j server p thread others alone =>
    refine absurd (fun j' op' q hj' => ?_) hreturned
    by_cases hj : j' = j
    · subst hj
      rcases hallowed j' op' q hj' with hret | ⟨-, hclears⟩
      · exact hret
      · rw [thread] at hj'
        obtain ⟨rfl, -⟩ := Prod.mk.inj (Option.some.inj hj')
        cases hclears
    · exact others j' op' q hj hj'
  | clearing grounded running ends =>
    refine .clearing grounded (fun j op' q hj => ?_) ?_
    · rcases Config.threads_goOn hj with ⟨rfl, rfl, rfl⟩ | ⟨-, hj⟩
      · exact .inr ⟨hop, clears_operation hforeign hop grounded⟩
      · exact running j op' q hj
    · rcases ends with ⟨hagrees, hinitial⟩ | ⟨j, op', q, hj, hcleared⟩
      · refine .inl ⟨hagrees, fun j op' q hj => ?_⟩
        rcases Config.threads_goOn hj with ⟨rfl, rfl, rfl⟩ | ⟨-, hj⟩
        · exact .inr rfl
        · exact hinitial j op' q hj
      · refine .inr ⟨j, op', q, ?_, hcleared⟩
        have hne : j ≠ i := by
          rintro rfl
          rw [hfree] at hj
          cases hj
        rw [Config.goOn_threads_of_ne cfg hne]
        exact hj

theorem Phase.call (h : Phase original cfg) {i : Nat} {op : Operation} {c : Call}
    {k : Except CallError (Reply c) → StaticProg} {r : Except CallError (Reply c)} {w : World}
    (hthread : cfg.threads i = some (op, .call c k)) (hact : act c cfg.shared = (r, w)) :
    Phase original (cfg.goOn i op (k r) w) := by
  cases h with
  | @setting j server p thread others alone =>
    -- Only the `SetDNS` is in progress.
    obtain rfl : i = j := by
      by_contra hne
      obtain ⟨errs, hret⟩ := others i op _ hne hthread
      cases hret
    rw [thread] at hthread
    obtain ⟨rfl, rfl⟩ := Prod.mk.inj (Option.some.inj hthread)
    refine .setting (Config.goOn_threads_self cfg ..) (fun j' op' q hne hj' => ?_)
      (alone.2 r w (.inl hact))
    rw [Config.goOn_threads_of_ne cfg hne] at hj'
    exact others j' op' q hne hj'
  | clearing grounded running ends =>
    rcases running i op _ hthread with ⟨errs, hret⟩ | ⟨hop, hclears⟩
    · cases hret
    obtain ⟨-, hk⟩ := hclears cfg.shared (.refl _)
    obtain ⟨hstep, hrest⟩ := hk r w hact
    have hrunning : ∀ j op' q, (cfg.goOn i op (k r) w).threads j = some (op', q) →
        (∃ errs, q = .ret errs) ∨ (clears op' = true ∧ Clears original (fun _ _ => True) q w) := by
      intro j op' q hj
      rcases Config.threads_goOn hj with ⟨rfl, rfl, rfl⟩ | ⟨-, hj⟩
      · exact .inr ⟨hop, hrest⟩
      · exact (running j op' q hj).imp id fun ⟨hop', hq⟩ =>
          ⟨hop', clears_stable hq hstep⟩
    refine .clearing (hstep.grounded grounded) hrunning ?_
    rcases ends with ⟨hagrees, hinitial⟩ | ⟨j, op', q, hj, hcleared⟩
    · -- This call is the first to pass its first section.
      have hcode : Backend.direct.perform op = .call c k := by
        rcases hinitial i op _ hthread with ⟨errs, hret⟩ | hcode
        · cases hret
        · exact hcode.symm
      have hentered := entered hforeign hop grounded hcode
      rw [hact] at hentered
      rcases hentered.ends hagrees with ⟨rfl, errs, hret⟩ | hcleared
      · refine .inl ⟨hagrees, fun j op' q hj => ?_⟩
        rcases Config.threads_goOn hj with ⟨rfl, rfl, rfl⟩ | ⟨-, hj⟩
        · exact .inl ⟨errs, hret⟩
        · exact hinitial j op' q hj
      · exact .inr ⟨i, op, _, Config.goOn_threads_self cfg .., hcleared⟩
    · by_cases hji : j = i
      · subst hji
        rw [hthread] at hj
        obtain ⟨rfl, rfl⟩ := Prod.mk.inj (Option.some.inj hj)
        obtain ⟨-, hk'⟩ := hcleared cfg.shared (.refl _)
        exact .inr ⟨j, op, _, Config.goOn_threads_self cfg .., (hk' r w hact).2⟩
      · refine .inr ⟨j, op', q, ?_, clears_stable hcleared hstep⟩
        rw [Config.goOn_threads_of_ne cfg hji]
        exact hj

theorem phase_reach {w₀ : World} (hgrounded : Grounded original w₀) (hagrees : Agrees w₀)
    (h : Threads.Reach Backend.direct.perform together Undisturbed w₀ cfg) :
    Phase original cfg := by
  induction h with
  | initial =>
    refine .clearing hgrounded (fun _ _ _ hthread => ?_) (.inl ⟨hagrees, fun _ _ _ hthread => ?_⟩)
    · cases hthread
    · cases hthread
  | step _ hallowed hstep ih =>
    cases hstep with
    | start hfree => exact ih.start hforeign hallowed hfree
    | call hthread hact => exact ih.call hforeign hthread hact

end

end Runs

/-- In every run on a provider that was constructed over a file that is not its own, in which
    no call overlaps a `SetDNS`: whenever all calls have returned, the file and the state of the
    provider agree. -/
theorem agrees_of_undisturbed {parse : String → Except String (List Addr)}
    {fallback : List AddrPort} {file record : Option String} (hforeign : Foreign file)
    {tr : List (Event Call World)} {w₀ : World}
    (hconstructed : Exec directWorld (newDirect parse) (World.start fallback file record) tr [] w₀)
    {cfg : DirectConfig}
    (h : Threads.Reach Backend.direct.perform together Undisturbed w₀ cfg)
    (hreturned : cfg.Returned) : Agrees cfg.shared := by
  have hnew := (wp_sound hconstructed (rolled_newDirect hforeign)).2 rfl
  have hinactive : ∀ {q : Prop}, w₀.provider.setDNSActive = true → q := by
    intro q hactive
    rw [hnew.inactive] at hactive
    cases hactive
  have hgrounded : Grounded file w₀ :=
    ⟨hnew.original, hnew.valid, hinactive, hinactive, hnew.router, hnew.attached⟩
  have hcleared : Cleared w₀ := ⟨hnew.not_owned hnew.inactive, .inl hnew.inactive⟩
  exact ((phase_reach hforeign hgrounded hcleared.agrees h).at_rest hreturned).2

/-- A `SetDNS` to its end, and then `UnsetDNS` and `Close` step by step beside each other. -/
theorem agrees_of_undisturbed_overlap : ∃ cfg : DirectConfig,
    Threads.Reach Backend.direct.perform together Undisturbed directBuilt.2.2 cfg ∧ cfg.Returned ∧
      cfg.shared.provider.closed = true ∧ Agrees cfg.shared := by
  have hexec : Exec (together 0) (setDNS (.v4 0x7F000035)) directBuilt.2.2 _ _ _ :=
    traced_exec act _ _
  have hstart : Threads.Reach Backend.direct.perform together Undisturbed directBuilt.2.2
      ((Config.initial directBuilt.2.2 : DirectConfig).goOn 0 (.setDNS (.v4 0x7F000035))
        (setDNS (.v4 0x7F000035)) directBuilt.2.2) := by
    refine Reach.initial.step (a := .start 0 (.setDNS (.v4 0x7F000035))) ?_ (.start rfl)
    rintro i op p ⟨⟩
  have hset := Reach.exec (fun _ _ _ _ _ _ h => ⟨trivial, h⟩) hexec hstart
  have hunset := hset.step (a := .start 1 .unsetDNS) (fun i op p hi => by
    rcases Config.threads_goOn hi with ⟨-, -, rfl⟩ | ⟨-, ⟨⟩⟩
    exact .inl ⟨_, rfl⟩) (.start rfl)
  have hclose := hunset.step (a := .start 2 .close) (fun i op p hi => by
    rcases Config.threads_goOn hi with ⟨-, rfl, -⟩ | ⟨-, hi⟩
    · exact .inr ⟨rfl, rfl⟩
    rcases Config.threads_goOn hi with ⟨-, -, rfl⟩ | ⟨-, ⟨⟩⟩
    exact .inl ⟨_, rfl⟩) (.start rfl)
  obtain ⟨cfg, hreach, hreturned, hclosed⟩ := hclose.of_schedule (fun _ c w => some (act c w))
    (fun _ _ _ _ _ h => Option.some.inj h) ((List.replicate 6 [.go 1, .go 2]).flatten ++ [.go 2])
    (fun _ a ha => by cases a with | start => simp [Action.turn] at ha | call => trivial)
    (fun i hi => by
      -- threads 1 and 2 have turns
      rcases i with _ | _ | _ | i
      · rfl
      · exact absurd hi (by decide)
      · exact absurd hi (by decide)
      · rfl)
    (fun w => w.provider.closed) (by decide +kernel)
  exact ⟨cfg, hreach, hreturned, hclosed,
    agrees_of_undisturbed foreign_threeStart constructed_directBuilt hreach hreturned⟩

/-- Two `SetDNS` calls: the second writes the file and is recorded between the write and the
    record of the first. -/
theorem overlapping_sets_disagree :
    ∃ cfg : DirectConfig,
      Threads.Reach Backend.direct.perform together (fun _ _ => True) directBuilt.2.2 cfg ∧
      cfg.Returned ∧ cfg.shared.provider.setDNS = .v4 0x7F000035 ∧
      cfg.shared.host.file = some (resolvconfForServer (.v4 0x7F000036)) ∧
      ¬ Agrees cfg.shared := by
  have hrun : ∃ cfg : DirectConfig,
      Threads.Reach Backend.direct.perform together (fun _ _ => True) directBuilt.2.2 cfg ∧
      cfg.Returned ∧ decide (cfg.shared.provider.setDNS = .v4 0x7F000035 ∧
        cfg.shared.host.file = some (resolvconfForServer (.v4 0x7F000036))) = true :=
    Reach.initial.of_schedule (fun _ c w => some (act c w)) (fun _ _ _ _ _ h => Option.some.inj h)
      [.start 0 (.setDNS (.v4 0x7F000035)), .start 1 (.setDNS (.v4 0x7F000036)),
        .go 0, .go 0, .go 0, .go 1, .go 1, .go 1, .go 1, .go 0]
      (fun _ _ _ => trivial) (fun _ _ => rfl) (fun w => decide (w.provider.setDNS = .v4 0x7F000035 ∧
        w.host.file = some (resolvconfForServer (.v4 0x7F000036)))) (by decide +kernel)
  obtain ⟨cfg, hreach, hreturned, hcheck⟩ := hrun
  obtain ⟨hserver, hfile⟩ := of_decide_eq_true hcheck
  refine ⟨cfg, hreach, hreturned, hserver, hfile, fun hagrees => ?_⟩
  have howned : cfg.shared.host.Owned := by
    rw [Host.Owned, hfile, Option.any_some]
    exact owned_resolvconfForServer (.v4 0x7F000036)
  have hnames := hagrees.names howned
  rw [hfile, hserver] at hnames
  have hdifferent : resolvconfForServer (.v4 0x7F000036) ≠ resolvconfForServer (.v4 0x7F000035) := by
    decide +kernel
  exact hdifferent (Option.some.inj hnames)

end SysnetLinux.Dns.Static.Direct
