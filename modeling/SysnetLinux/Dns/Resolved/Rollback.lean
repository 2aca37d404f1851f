/-
  SysnetLinux.Dns.Resolved.Rollback

  Which links still have a setting of the resolved provider, call after call.

  `UnsetDNS` forgets the server before it reverts the link, so a failed revert is not made again
  (`failed_unset_not_retried`).  Settings are lost to it as well if a first `SetDNS` fails behind
  its first setting, or if `SetInterfaceIndex` cannot revert the old link.  Otherwise they are on
  the selected link while a server is recorded and on no link else (`Settled`).
-/

import SysnetLinux.Dns.Resolved.Specs

namespace SysnetLinux.Dns.Resolved

open Netip
open CallProg CallProg.Prog

/-! ## Histories -/

/-- The link has been reverted, or is gone. -/
def Reverted : Except BusError Unit → Prop
  | .ok _ => True
  | .error e => isResolvedNoSuchLink e = true

/-- The setting has been made, or resolved does not know it. -/
def Accepted : Except BusError Unit → Prop
  | .ok _ => True
  | .error e => isDBusUnknownMethod e = true

/-- The answers that keep track of the settings: the reverts of `UnsetDNS`, and of
    `SetInterfaceIndex` while a server is recorded, do not fail, and while none is recorded
    a `SetDNS` does not fail behind its first setting. -/
def Tracks (op : Operation) (w : World) : (c : Call) → Except BusError (Reply c) → Prop
  | .revertLink _, r =>
    match op with
    | .unsetDNS => Reverted r
    | .setInterfaceIndex _ => w.provider.setDNSActive = true → Reverted r
    | _ => True
  | .setLinkDefaultRoute _ _, r =>
    op.setsDNS = true → w.provider.setDNSActive = false → Accepted r
  | .setLinkDNS _ _, r =>
    op.setsDNS = true → w.provider.setDNSActive = false → isError r = false
  | _, _ => True

/-- The steps of an operation on its own, if its answers keep track of the settings. -/
def trackedSteps (B : Handler Call Reply BusError Bus) (op : Operation) :
    Handler Call Reply BusError World :=
  fun c w r w' => Tracks op w c r ∧ steps B 0 c w r w'

/-- The states between calls of `SetDNS`, `UnsetDNS` and `SetInterfaceIndex`, one after the
    other. -/
inductive History (H : Operation → Handler Call Reply BusError World) (w₀ : World) : World → Prop
  | start : History H w₀ w₀
  | call (op : Operation) {w w' : World} {tr : List (Event Call World)}
      {r : Except (List ResolvedError) Unit} :
      History H w₀ w → op ≠ .close → op ≠ .sync → Exec (H op) op.code w tr r w' → History H w₀ w'

/-! ## The invariant -/

/-- Between calls: the settings are on the selected link, if a server is recorded. -/
structure Settled (w : World) : Prop where
  index : resolvedOptionalIfIndex w.provider.ifidx = .ok w.provider.ifidx
  inactive : w.provider.setDNSActive = false → w.applied = []
  active : w.provider.setDNSActive = true →
    w.provider.ifidx ≠ 0 ∧ ∀ x ∈ w.applied, x = w.provider.ifidx

/-- The part of the world that the invariant speaks of is the same. -/
structure SameSettings (w w' : World) : Prop where
  ifidx : w'.provider.ifidx = w.provider.ifidx
  server : w'.provider.setDNS = w.provider.setDNS
  activity : w'.provider.setDNSActive = w.provider.setDNSActive
  applied : w'.applied = w.applied

variable {B : Handler Call Reply BusError Bus} {op : Operation} {w w' : World}

theorem SameSettings.refl (w : World) : SameSettings w w := ⟨rfl, rfl, rfl, rfl⟩

theorem SameSettings.trans {u v : World} (h : SameSettings u v) (h' : SameSettings v w) :
    SameSettings u w :=
  ⟨h'.ifidx.trans h.ifidx, h'.server.trans h.server, h'.activity.trans h.activity,
    h'.applied.trans h.applied⟩

theorem Settled.same (h : Settled w) (hsame : SameSettings w w') : Settled w' := by
  obtain ⟨hindex, hinactive, hactive⟩ := h
  constructor
  · rw [hsame.ifidx]
    exact hindex
  · rw [hsame.activity, hsame.applied]
    exact hinactive
  · rw [hsame.activity, hsame.applied, hsame.ifidx]
    exact hactive

variable {c : Call} {r : Except BusError (Reply c)}

theorem steps_refreshes_same {exclude : List Addr} {i : Nat} (hc : c.Refreshes exclude)
    (h : steps B i c w r w') : SameSettings w w' := by
  have hsame := steps_refreshes hc h
  refine ⟨by rw [hsame.provider], by rw [hsame.provider], by rw [hsame.provider], ?_⟩
  cases c with
  | load =>
    obtain ⟨-, rfl⟩ := steps_act rfl rfl h
    rfl
  | commit cfg exclude' =>
    rw [(steps_commit h).2]
    split
    · rfl
    · rfl
  | _ => first | exact (steps_external rfl h).2.1 | cases hc

/-! ## The parts of an operation -/

/-- What an operation on its own ends with. -/
abbrev Ends {α : Type} (B : Handler Call Reply BusError Bus) (op : Operation)
    (Q : Except (List ResolvedError) α → World → Prop) (p : ResolvedProg α) (w : World) : Prop :=
  wp (trackedSteps B op) (fun _ _ => True) Q p w

section Parts

variable {α : Type} {Q : Except (List ResolvedError) α → World → Prop}

theorem ends_section {c : Call} {wrap : BusError → ResolvedError} {f : Reply c → ResolvedProg α}
    {v : Reply c} {u : World} (hc : c.internal = true) (hact : act 0 c w = some (v, u))
    (h : Ends B op Q (f v) u) : Ends B op Q ((request wrap c).andThen f) w := by
  refine ⟨trivial, fun r t hstep => ?_⟩
  obtain ⟨rfl, rfl⟩ := steps_act hc hact hstep.2
  exact h

/-- The two steps of `dnsMu` do not touch the settings. -/
theorem ends_locked {op₁ : Operation} {p : ResolvedProg α}
    {Y : Except (List ResolvedError) α → List Int → Prop} (h : Settled w)
    (hp : ∀ u, Settled u → Ends B op (fun r t => Settled t ∧ Y r t.applied) p u) :
    Ends B op (fun r t => Settled t ∧ Y r t.applied) (locked op₁ p) w := by
  refine ⟨trivial, fun r t hstep => ?_⟩
  obtain ⟨v, rfl, hact⟩ := steps_internal rfl hstep.2
  obtain ⟨-, rfl⟩ := act_lockDNS hact
  have hu : Settled (w.acquired 0 op₁) := h.same ⟨rfl, rfl, rfl, rfl⟩
  show Ends B op _ (p.bind _) _
  refine (wp_bind _ _).mpr (wp_post (fun a t ht => ⟨trivial, fun r t' hstep' => ?_⟩) (hp _ hu))
  obtain ⟨v, rfl, hact'⟩ := steps_internal rfl hstep'.2
  obtain ⟨op', -, rfl⟩ := act_unlockDNS_released hact'
  exact ⟨ht.1.same ⟨rfl, rfl, rfl, rfl⟩, ht.2⟩

theorem ends_refresh (exclude : List Addr) :
    Ends B op (fun _ t => SameSettings w t) (refreshUpstreamsExcluding exclude) w :=
  wp_steady (refreshes_excluding exclude) (SameSettings.refl w) fun _ _ hc hA =>
    ⟨trivial, fun _ _ hstep => hA.trans (steps_refreshes_same hc hstep.2)⟩

/-- A call of resolved keeps the provider, and its answer says what is on the links. -/
theorem tracked_external {c : Call} (hc : c.internal = false) {r : Except BusError (Reply c)}
    (h : trackedSteps B op c w r w') :
    w'.provider = w.provider ∧ w'.applied = (w.noted c r).applied :=
  ⟨(steps_external hc h.2).1.provider, (steps_external hc h.2).2.1⟩

/-- While a link is set up: the settings are those from before, and some on the link. -/
structure Applying (w t : World) : Prop where
  provider : t.provider = w.provider
  applied : ∀ x ∈ t.applied, x ∈ w.applied ∨ x = w.provider.ifidx

theorem Applying.set {t u : World} (h : Applying w t) (hu : u.provider = t.provider)
    (happlied : u.applied = w.provider.ifidx :: t.applied ∨ u.applied = t.applied) :
    Applying w u := by
  refine ⟨hu.trans h.provider, fun x hx => ?_⟩
  rcases happlied with heq | heq
  · rw [heq] at hx
    rcases List.mem_cons.mp hx with rfl | hx
    · exact .inr rfl
    · exact h.applied x hx
  · rw [heq] at hx
    exact h.applied x hx

/-- The end of a link setup; the last part says what a first `SetDNS` needs. -/
structure ApplyEnd (op : Operation) (w : World) (r : Except (List ResolvedError) Unit) (t : World) :
    Prop where
  applying : Applying w t
  index : r = .ok () → w.provider.ifidx ≠ 0
  failed : op.setsDNS = true → w.provider.setDNSActive = false → isError r = true →
    t.applied = w.applied

theorem ends_setLinkModes {t : World} (h : Applying w t) (hindex : w.provider.ifidx ≠ 0) :
    Ends B op (ApplyEnd op w) (setLinkModes w.provider.ifidx) t := by
  have hissues : Issues (fun c => c.internal = false ∧ ∀ (u : World) r, (u.noted c r).applied =
      u.applied) (setLinkModes w.provider.ifidx) :=
    issues_andThen (issues_bestEffort ⟨rfl, fun _ _ => rfl⟩) fun _ =>
      issues_andThen (issues_bestEffort ⟨rfl, fun _ _ => rfl⟩) fun _ =>
        issues_andThen (issues_bestEffort ⟨rfl, fun _ _ => rfl⟩) fun _ =>
          issues_andThen (issues_bestEffort ⟨rfl, fun _ _ => rfl⟩) fun _ =>
            issues_bestEffort ⟨rfl, fun _ _ => rfl⟩
  have hyields : Yields (fun r => r = .ok ()) (setLinkModes w.provider.ifidx) :=
    fun _ _ _ _ _ => rfl
  refine wp_post (fun r u hu => ?_) (wp_yields hyields (wp_steady hissues h fun c u hc hu =>
    ⟨trivial, fun r u' hstep => ?_⟩))
  · obtain ⟨rfl, hu⟩ := hu
    exact ⟨hu, fun _ => hindex, fun _ _ herr => nomatch herr⟩
  · obtain ⟨hprovider, happlied⟩ := tracked_external hc.1 hstep
    exact hu.set hprovider (.inr (happlied.trans (hc.2 u r)))

theorem ends_applyDNS (server : Addr) : Ends B op (ApplyEnd op w) (applyDNS server) w := by
  have hstart : Applying w w := ⟨rfl, fun x hx => .inl hx⟩
  refine wp_andThen ?_
  refine ends_section rfl rfl ?_
  by_cases hindex : w.provider.ifidx = 0
  · rw [if_pos hindex]
    exact ⟨hstart, nofun, fun _ _ _ => rfl⟩
  rw [if_neg hindex]
  refine ⟨trivial, fun r t hstep => ?_⟩
  obtain ⟨hprovider, happlied⟩ := tracked_external rfl hstep
  cases r with
  | error e => exact ⟨hstart.set hprovider (.inr happlied), nofun, fun _ _ _ => happlied⟩
  | ok _ =>
    have ht := hstart.set hprovider (.inl happlied)
    -- Behind its first setting a first `SetDNS` does not fail.
    refine ⟨trivial, fun r u hstep => ?_⟩
    obtain ⟨hprovider, happlied⟩ := tracked_external rfl hstep
    have hrest : Applying w u → Ends B op (ApplyEnd op w)
        ((setLinkDNS w.provider.ifidx server).andThen fun _ =>
          setLinkModes w.provider.ifidx) u := by
      refine fun hu => ⟨trivial, fun r v hstep => ?_⟩
      obtain ⟨hprovider, happlied⟩ := tracked_external rfl hstep
      cases r with
      | error e =>
        refine ⟨hu.set hprovider (.inr happlied), nofun, fun hsets hinactive _ => ?_⟩
        rw [← hu.provider] at hinactive
        cases hstep.1 hsets hinactive
      | ok _ => exact ends_setLinkModes (hu.set hprovider (.inl happlied)) hindex
    cases r with
    | ok _ => exact hrest (ht.set hprovider (.inl happlied))
    | error e =>
      have hu := ht.set hprovider (.inr happlied)
      by_cases hunknown : isDBusUnknownMethod e = true
      · simp only [hunknown, if_true]
        exact hrest hu
      · simp only [hunknown, Bool.false_eq_true, if_false]
        refine ⟨hu, nofun, fun hsets hinactive _ => ?_⟩
        rw [← ht.provider] at hinactive
        exact absurd (hstep.1 hsets hinactive) hunknown

/-- The end of a revert; the last part is for one that does not fail. -/
structure RevertEnd (op : Operation) (w : World) (ifidx : Int)
    (r : Except (List ResolvedError) Unit) (t : World) : Prop where
  provider : t.provider = w.provider
  applied : ∀ x ∈ t.applied, x ∈ w.applied
  reverted : (∀ r, Tracks op w (.revertLink ifidx) r → Reverted r) → ifidx ≠ 0 →
    r = .ok () ∧ ifidx ∉ t.applied

theorem ends_revertLink (ifidx : Int) : Ends B op (RevertEnd op w ifidx) (revertLink ifidx) w := by
  unfold revertLink
  by_cases hzero : ifidx = 0
  · rw [if_pos hzero]
    exact ⟨rfl, fun _ => id, fun _ hne => absurd hzero hne⟩
  rw [if_neg hzero]
  refine ⟨trivial, fun r t hstep => ?_⟩
  obtain ⟨hprovider, happlied⟩ := tracked_external rfl hstep
  have hgone : t.applied = w.applied.filter (· ≠ ifidx) →
      RevertEnd op w ifidx (.ok ()) t := fun heq => by
    refine ⟨hprovider, fun x hx => ?_, fun _ _ => ⟨rfl, fun hx => ?_⟩⟩
    · rw [heq] at hx
      exact (List.mem_filter.mp hx).1
    · rw [heq] at hx
      exact absurd rfl (of_decide_eq_true (List.mem_filter.mp hx).2)
  cases r with
  | ok _ => exact hgone happlied
  | error e =>
    rw [World.noted] at happlied
    by_cases hnone : isResolvedNoSuchLink e = true
    · simp only [hnone, if_true] at happlied ⊢
      exact hgone happlied
    · simp only [hnone, Bool.false_eq_true, if_false] at happlied ⊢
      refine ⟨hprovider, fun x hx => happlied ▸ hx, fun hreverted _ => ?_⟩
      exact absurd (hreverted _ hstep.1) hnone

end Parts

/-! ## The operations -/

theorem optionalIfIndex_idem {ifidx ifidx' : Int} (h : resolvedOptionalIfIndex ifidx = .ok ifidx') :
    resolvedOptionalIfIndex ifidx' = .ok ifidx' := by
  have h' := h
  unfold resolvedOptionalIfIndex at h'
  split at h'
  · cases h'
    rfl
  · split at h'
    · cases h'
    · obtain rfl := Except.ok.inj h'
      exact h

/-- If the settings are on one link, its revert leaves none. -/
theorem RevertEnd.applied_eq_nil {t : World} {ifidx : Int} {r : Except (List ResolvedError) Unit}
    (h : RevertEnd op w ifidx r t) (hindex : ifidx ≠ 0) (hlink : ∀ x ∈ w.applied, x = ifidx)
    (hreverted : ∀ r, Tracks op w (.revertLink ifidx) r → Reverted r) :
    r = .ok () ∧ t.applied = [] := by
  obtain ⟨hok, hgone⟩ := h.reverted hreverted hindex
  refine ⟨hok, List.eq_nil_iff_forall_not_mem.mpr fun x hx => hgone ?_⟩
  rw [← hlink x (h.applied x hx)]
  exact hx

/-- With no settings and no server recorded, the invariant is about the index alone. -/
theorem settled_of_nil (hindex : resolvedOptionalIfIndex w.provider.ifidx = .ok w.provider.ifidx)
    (hnil : w.applied = []) (hactive : w.provider.setDNSActive = true → w.provider.ifidx ≠ 0) :
    Settled w :=
  ⟨hindex, fun _ => hnil, fun h => ⟨hactive h, fun x hx => by simp [hnil] at hx⟩⟩

theorem Settled.applying {t : World} {r : Except (List ResolvedError) Unit} (h : Settled w)
    (hend : ApplyEnd op w r t)
    (hactive : w.provider.setDNSActive = true) : Settled t := by
  obtain ⟨hindex, hlink⟩ := h.active hactive
  refine ⟨?_, ?_, ?_⟩ <;> rw [hend.applying.provider]
  · exact h.index
  · exact fun hinactive => absurd (hactive.symm.trans hinactive) nofun
  · exact fun _ => ⟨hindex, fun x hx => (hend.applying.applied x hx).elim (hlink x) id⟩

theorem ends_unsetDNS (h : Settled w) :
    Ends B .unsetDNS (fun r t => Settled t ∧ (r = .ok () → t.applied = [])) unsetDNS w := by
  refine ends_locked (Y := fun r applied => r = .ok () → applied = []) h fun u hu => ?_
  refine ends_section rfl rfl ?_
  by_cases hclosed : u.provider.closed = true
  · simp only [hclosed, if_true]
    exact ⟨hu, nofun⟩
  simp only [hclosed, Bool.false_eq_true, if_false]
  cases hactive : u.provider.setDNSActive with
  | false =>
    have hnil := hu.inactive hactive
    simp only [if_true]
    exact ⟨settled_of_nil hu.index hnil nofun, fun _ => hnil⟩
  | true =>
    obtain ⟨hindex, hlink⟩ := hu.active hactive
    simp only [Bool.true_eq_false, if_false]
    refine (wp_bind _ _).mpr (ends_section rfl rfl ?_)
    rw [show resolvedOptionalIfIndex u.forget.provider.ifidx = _ from hu.index]
    refine wp_post (fun r t hend => ?_) (ends_revertLink u.provider.ifidx)
    obtain ⟨rfl, hnil⟩ := hend.applied_eq_nil hindex hlink fun r hr => hr
    have ht : Settled t := by
      refine settled_of_nil ?_ hnil ?_ <;> rw [hend.provider]
      · exact hu.index
      · exact nofun
    refine wp_post (fun r t' hsame => ?_) (ends_refresh [.zero])
    exact ⟨ht.same hsame, fun _ => hsame.applied.trans hnil⟩

theorem ends_setDNS (server : Addr) (h : Settled w) :
    Ends B (.setDNS server) (fun _ t => Settled t ∧ True) (setDNS server) w := by
  refine ends_locked (Y := fun _ _ => True) h fun u hu => ends_section rfl rfl ?_
  split
  · exact ⟨hu, trivial⟩
  split
  · exact ⟨hu, trivial⟩
  refine ends_section rfl rfl (wp_andThen (wp_post (fun r t hsame => ?_) (ends_refresh _)))
  have ht := hu.same hsame
  cases r with
  | error es => exact ⟨ht, trivial⟩
  | ok _ =>
    refine wp_andThen (wp_post (fun r v hend => ?_) (ends_applyDNS server))
    cases hactive : t.provider.setDNSActive with
    | true =>
      have hv := ht.applying hend hactive
      cases r with
      | error es => exact ⟨hv, trivial⟩
      | ok _ =>
        refine ⟨trivial, fun r v' hstep => ?_⟩
        obtain ⟨rfl, rfl⟩ := steps_act rfl rfl hstep.2
        have hactive' : v.provider.setDNSActive = true := by
          rw [hend.applying.provider]
          exact hactive
        exact ⟨⟨hv.index, nofun, fun _ => hv.active hactive'⟩, trivial⟩
    | false =>
      have hnil := ht.inactive hactive
      cases r with
      | error es =>
        refine ⟨settled_of_nil ?_ ((hend.failed rfl hactive rfl).trans hnil) ?_, trivial⟩ <;>
          rw [hend.applying.provider]
        · exact ht.index
        · exact fun hyes => absurd (hactive.symm.trans hyes) nofun
      | ok _ =>
        refine ⟨trivial, fun r v' hstep => ?_⟩
        obtain ⟨rfl, rfl⟩ := steps_act rfl rfl hstep.2
        have hprovider := hend.applying.provider
        refine ⟨⟨?_, nofun, fun _ => ⟨?_, fun x hx => ?_⟩⟩, trivial⟩
        · show resolvedOptionalIfIndex v.provider.ifidx = .ok v.provider.ifidx
          rw [hprovider]
          exact ht.index
        · show v.provider.ifidx ≠ 0
          rw [hprovider]
          exact hend.index rfl
        · show x = v.provider.ifidx
          rw [hprovider]
          refine (hend.applying.applied x hx).resolve_left fun hold => ?_
          simp [hnil] at hold

theorem ends_setInterfaceIndex (ifidx : Int) (h : Settled w) :
    Ends B (.setInterfaceIndex ifidx) (fun _ t => Settled t ∧ True) (setInterfaceIndex ifidx) w := by
  unfold setInterfaceIndex
  split
  · exact ⟨h, trivial⟩
  rename_i ifidx' hok
  refine ends_locked (Y := fun _ _ => True) h fun u hu => ends_section rfl rfl ?_
  split
  · exact ⟨hu, trivial⟩
  split
  · exact ⟨hu, trivial⟩
  split
  · exact ⟨hu, trivial⟩
  rename_i hclears
  refine (wp_bind _ _).mpr (wp_post (fun reverted t hend => ?_) (ends_revertLink u.provider.ifidx))
  -- Whether a server is recorded or not, no setting is left on the old link.
  have hnil : t.applied = [] := by
    cases hactive : u.provider.setDNSActive with
    | true =>
      obtain ⟨hindex, hlink⟩ := hu.active hactive
      exact (hend.applied_eq_nil hindex hlink fun r hr => hr hactive).2
    | false =>
      refine List.eq_nil_iff_forall_not_mem.mpr fun x hx => ?_
      have hold := hend.applied x hx
      simp [hu.inactive hactive] at hold
  refine ends_section rfl rfl ?_
  have hselected : Settled (t.selected ifidx') := by
    refine settled_of_nil (optionalIfIndex_idem hok) hnil fun hactive hzero => hclears ⟨?_, hzero⟩
    rw [← hend.provider]
    exact hactive
  refine (wp_bind _ _).mpr (wp_post (fun refreshed v hsame => ?_) (ends_refresh _))
  have hv := hselected.same hsame
  split
  · rename_i hactive
    refine (wp_bind _ _).mpr (wp_post (fun applied x hx => ⟨hv.applying hx ?_, trivial⟩)
      (ends_applyDNS u.provider.setDNS))
    rw [hsame.activity]
    show t.provider.setDNSActive = true
    rw [hend.provider]
    exact hactive
  · exact ⟨hv, trivial⟩

/-! ## Histories keep track of the settings -/

theorem Built.settled (h : Built B w) : Settled w := by
  obtain ⟨ifidx, fallback, bus, tr, u, hex, hsame, happlied, _, hindex⟩ := h.refreshed
  have hsettings : SameSettings (World.fresh ifidx fallback bus) u :=
    (wp_sound (I := fun _ _ => True) hex (wp_steady (refreshes_excluding [.zero])
      (SameSettings.refl _) fun _ _ hc hA =>
        ⟨trivial, fun _ _ hstep => hA.trans (steps_refreshes_same hc hstep)⟩)).2
  have hfresh : Settled (World.fresh ifidx fallback bus) :=
    settled_of_nil (optionalIfIndex_idem hindex) rfl nofun
  refine (hfresh.same hsettings).same ⟨?_, ?_, ?_, happlied⟩ <;> rw [hsame.provider]

theorem History.settled {w₀ : World} (hbuilt : Built B w₀)
    (h : History (trackedSteps B) w₀ w) : Settled w := by
  induction h with
  | start => exact hbuilt.settled
  | call op _ hclose hsync hex ih =>
    cases op with
    | setDNS server => exact (wp_sound hex (ends_setDNS server ih)).2.1
    | unsetDNS => exact (wp_sound hex (ends_unsetDNS ih)).2.1
    | setInterfaceIndex ifidx => exact (wp_sound hex (ends_setInterfaceIndex ifidx ih)).2.1
    | close => exact absurd rfl hclose
    | sync => exact absurd rfl hsync

theorem unset_rolls_back {w₀ : World} (hbuilt : Built B w₀)
    (hhistory : History (trackedSteps B) w₀ w) {tr : List (Event Call World)}
    (hex : Exec (trackedSteps B .unsetDNS) unsetDNS w tr (.ok ()) w') : w'.applied = [] :=
  (wp_sound hex (ends_unsetDNS (hhistory.settled hbuilt))).2.2 rfl

/-! ## Runs on fixed inputs -/

/-- A resolved in which any call may fail, and then does nothing. -/
def faults : Handler Call Reply BusError Bus := flaky (fun _ => True) answer

theorem faults_of_replies {b b' : Bus} (h : replies answer c b r b') : faults c b r b' := .inl h

theorem Built.faults (h : Built (replies answer) w) : Built faults w := by
  obtain ⟨ifidx, ifidx', fallback, bus, tr, hindex, hex⟩ := h
  have hsim := hex.simulate (G := steps Resolved.faults 0) id (fun _ => True) (fun _ => True)
    (fun _ _ _ _ _ _ hstep => ⟨steps_mono (fun _ _ _ _ => faults_of_replies) hstep, trivial⟩)
    (fun _ _ => trivial) trivial
  exact ⟨ifidx, ifidx', fallback, bus, _, hindex, hsim⟩

/-- The answers of the sample resolved as long as no call fails. -/
def goodReply (c : Call) (w : World) : Option (Except BusError (Reply c) × World) :=
  (reply 0 c w).filter fun x => !isError x.1

/-- The same, except that reverts time out. -/
def timedOut : (c : Call) → World → Option (Except BusError (Reply c) × World)
  | .revertLink _, w => some (.error (.other "timeout"), w)
  | c, w => goodReply c w

theorem goodReply_tracked (op : Operation) (h : goodReply c w = some (r, w')) :
    trackedSteps (replies answer) op c w r w' := by
  obtain ⟨hreply, hok⟩ := Option.filter_eq_some_iff.mp h
  refine ⟨?_, reply_steps hreply⟩
  cases r with
  | error e => cases hok
  | ok v =>
    cases c with
    | revertLink => cases op with
        | setInterfaceIndex => exact fun _ => trivial
        | _ => trivial
    | setLinkDefaultRoute => exact fun _ _ => trivial
    | setLinkDNS => exact fun _ _ => rfl
    | _ => trivial

theorem timedOut_steps (h : timedOut c w = some (r, w')) : steps faults 0 c w r w' := by
  by_cases hc : ∃ ifidx, c = .revertLink ifidx
  · obtain ⟨ifidx, rfl⟩ := hc
    obtain ⟨rfl, rfl⟩ := Prod.ext_iff.mp (Option.some.inj h)
    exact ⟨w.bus, .inr ⟨trivial, rfl, rfl⟩, rfl⟩
  · have hgood : goodReply c w = some (r, w') := by
      cases c with
      | revertLink ifidx => exact absurd ⟨ifidx, rfl⟩ hc
      | _ => exact h
    exact steps_mono (fun _ _ _ _ => faults_of_replies) (goodReply_tracked .sync hgood).2

/-- A provider for link 2; the same with a server set; and behind an `UnsetDNS`. -/
def startState : World := (construct 2 [] sampleBus).getD (World.fresh 2 [] sampleBus)

def setState : World :=
  ((execute goodReply (setDNS sampleServer) startState).map Prod.snd).getD startState

def unsetState (answers : (c : Call) → World → Option (Except BusError (Reply c) × World))
    (w : World) : World := ((execute answers unsetDNS w).map Prod.snd).getD w

theorem startState_built : Built (replies answer) startState :=
  construct_built (show resolvedOptionalIfIndex 2 = .ok 2 from rfl)
    (show construct 2 [] sampleBus = some startState by decide +kernel)

theorem execute_setDNS :
    execute goodReply (setDNS sampleServer) startState = some (.ok (), setState) := by
  decide +kernel

theorem unset_rolls_back_sample :
    setState.applied = [2, 2, 2] ∧
      ∃ tr, Exec (trackedSteps (replies answer) .unsetDNS) unsetDNS setState tr (.ok ())
          (unsetState goodReply setState) ∧ (unsetState goodReply setState).applied = [] := by
  have hset : execute goodReply unsetDNS setState =
      some (.ok (), unsetState goodReply setState) := by decide +kernel
  have hgood : ∀ op c w r w', goodReply c w = some (r, w') →
      trackedSteps (replies answer) op c w r w' := fun op _ _ _ _ => goodReply_tracked op
  obtain ⟨_, hsetDNS⟩ := execute_exec (hgood (.setDNS sampleServer)) execute_setDNS
  obtain ⟨tr, hex⟩ := execute_exec (hgood .unsetDNS) hset
  exact ⟨by decide +kernel, tr, hex,
    unset_rolls_back startState_built (.call (.setDNS sampleServer) .start nofun nofun hsetDNS) hex⟩

/-- A revert times out, `UnsetDNS` returns the error, and the next `UnsetDNS` returns nil
    with the settings still on the link. -/
theorem failed_unset_not_retried :
    ¬ ∀ w₀ w w' tr, Built faults w₀ → w₀.provider.ifidx ≠ 0 →
      History (fun _ => steps faults 0) w₀ w →
      Exec (steps faults 0) unsetDNS w tr (.ok ()) w' → w'.applied = [] := by
  intro h
  have hgood : ∀ c w r w', goodReply c w = some (r, w') → steps faults 0 c w r w' :=
    fun _ _ _ _ hr => steps_mono (fun _ _ _ _ => faults_of_replies) (goodReply_tracked .sync hr).2
  have hbad : ∀ c w r w', timedOut c w = some (r, w') → steps faults 0 c w r w' :=
    fun _ _ _ _ => timedOut_steps
  have hfailed : execute timedOut unsetDNS setState =
      some (.error [.other (.other "timeout")], unsetState timedOut setState) := by decide +kernel
  have hagain : execute timedOut unsetDNS (unsetState timedOut setState) =
      some (.ok (), unsetState timedOut (unsetState timedOut setState)) := by decide +kernel
  obtain ⟨_, hset⟩ := execute_exec hgood execute_setDNS
  obtain ⟨_, hunset⟩ := execute_exec hbad hfailed
  obtain ⟨tr, hex⟩ := execute_exec hbad hagain
  have hhistory : History (fun _ => steps faults 0) startState (unsetState timedOut setState) :=
    .call .unsetDNS (.call (.setDNS sampleServer) .start nofun nofun hset) nofun nofun hunset
  exact absurd (h startState _ _ tr startState_built.faults (by decide +kernel) hhistory hex)
    (by decide +kernel)

end SysnetLinux.Dns.Resolved
