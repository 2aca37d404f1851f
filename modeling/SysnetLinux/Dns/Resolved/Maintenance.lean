/-
  SysnetLinux.Dns.Resolved.Maintenance

  `UnsetDNS` and `Close` end the maintenance of the managed server.

  The monitor observes without `dnsMu` and acts under it.  Every setting of a link is made under
  `dnsMu` by a thread that has seen the server managed, or by `SetDNS`.  Once `UnsetDNS` or
  `Close` has released `dnsMu`, and until a `SetDNS` acquires it, no setting is made
  (`maintenance_stops`); that `SetDNS` may have been waiting all along (`waiting_set_applies`).
-/

import SysnetLinux.Dns.Resolved.Specs

namespace SysnetLinux.Dns.Resolved

open Netip
open CallProg CallProg.Prog CallProg.Threads

abbrev ResolvedConfig :=
  Threads.Config Nat Operation Call Reply BusError (Except (List ResolvedError) Unit) World

/-! ## What a thread relies on -/

/-- After `UnsetDNS` and `Close` no server is managed, or the provider is closed. -/
def Quiet (w : World) : Prop :=
  w.stopped = true → w.provider.setDNSActive = false ∨ w.provider.closed = true

/-- What the other threads leave to thread `i`. -/
structure Keeps (i : Nat) (w w' : World) : Prop where
  closed : w.provider.closed = true → w'.provider.closed = true
  held : ∀ op, w.dnsMu = some (i, op) → w'.dnsMu = some (i, op) ∧
    w'.provider.setDNS = w.provider.setDNS ∧
    w'.provider.setDNSActive = w.provider.setDNSActive ∧ w'.stopped = w.stopped
  quiet : Quiet w → Quiet w'

/-- What thread `i` promises. -/
def Spares (i : Nat) (w w' : World) : Prop := ∀ j, j ≠ i → Keeps j w w'

/-- Where a call may be issued: no setting is made after `UnsetDNS` or `Close`, and the
    monitor applies the server of the provider. -/
def Permitted (op : Operation) (c : Call) (w : World) : Prop :=
  c.setsLink = true → w.stopped = false ∧
    (op = .sync → w.provider.setDNSActive = true ∧ ∀ ifidx servers,
      c = .setLinkDNS ifidx servers → servers = [resolvedNameserver w.provider.setDNS])

variable {B : Handler Call Reply BusError Bus} {i : Nat} {op : Operation} {w w' : World}

theorem quiet_of_going (h : w.stopped = false) : Quiet w := by
  intro hstopped
  rw [h] at hstopped
  cases hstopped

theorem Keeps.refl (i : Nat) (w : World) : Keeps i w w :=
  ⟨id, fun _ h => ⟨h, rfl, rfl, rfl⟩, id⟩

theorem Keeps.trans {u v : World} (h : Keeps i u v) (h' : Keeps i v w) : Keeps i u w where
  closed := fun hclosed => h'.closed (h.closed hclosed)
  held := fun op hmu => by
    obtain ⟨hmu, hserver, hactive, hstopped⟩ := h.held op hmu
    obtain ⟨hmu', hserver', hactive', hstopped'⟩ := h'.held op hmu
    exact ⟨hmu', hserver'.trans hserver, hactive'.trans hactive, hstopped'.trans hstopped⟩
  quiet := fun hquiet => h'.quiet (h.quiet hquiet)

theorem Spares.quiet (h : Spares i w w') (hquiet : Quiet w) : Quiet w' :=
  (h (i + 1) (Nat.succ_ne_self i)).quiet hquiet

/-- A step that leaves the managed server and the mutex as they are. -/
structure SameDNS (w w' : World) : Prop where
  closed : w'.provider.closed = w.provider.closed
  server : w'.provider.setDNS = w.provider.setDNS
  active : w'.provider.setDNSActive = w.provider.setDNSActive
  dnsMu : w'.dnsMu = w.dnsMu
  stopped : w'.stopped = w.stopped

theorem SameButUpstreams.sameDNS (h : SameButUpstreams w w') : SameDNS w w' :=
  ⟨by rw [h.provider], by rw [h.provider], by rw [h.provider], h.dnsMu, h.stopped⟩

theorem SameDNS.spares (h : SameDNS w w') : Spares i w w' := by
  intro j _
  refine ⟨fun hc => h.closed.trans hc, fun op hmu => ?_, fun hquiet => ?_⟩
  · exact ⟨h.dnsMu.trans hmu, h.server, h.active, h.stopped⟩
  · unfold Quiet
    rw [h.stopped, h.active, h.closed]
    exact hquiet

theorem SameDNS.keeps (h : SameDNS w w') : Keeps i w w' :=
  h.spares (i := i + 1) i (Nat.succ_ne_self i).symm

/-- The calls that leave the managed server and the mutex as they are. -/
def Call.upholds : Call → Bool
  | .lockDNS _ | .unlockDNS | .closing | .installed _ | .unset => false
  | _ => true

theorem steps_upholds {c : Call} (hc : c.upholds = true) {r : Except BusError (Reply c)}
    (h : steps B i c w r w') : SameDNS w w' := by
  cases c with
  | load => exact (steps_reads rfl h).butUpstreams.sameDNS
  | commit cfg exclude =>
    have hc : (Call.commit cfg exclude).Refreshes exclude := rfl
    exact (steps_refreshes hc h).sameDNS
  | selected ifidx =>
    obtain ⟨-, rfl⟩ := steps_act rfl rfl h
    exact ⟨rfl, rfl, rfl, rfl, rfl⟩
  | _ => first | exact (steps_external rfl h).1.butUpstreams.sameDNS | cases hc

theorem spares_of_held (hmu : w.dnsMu = some (i, op))
    (hclosed : w.provider.closed = true → w'.provider.closed = true) (hquiet : Quiet w → Quiet w') :
    Spares i w w' := by
  intro j hj
  refine ⟨hclosed, fun op' hmu' => ?_, hquiet⟩
  rw [hmu] at hmu'
  exact absurd (congrArg Prod.fst (Option.some.inj hmu')).symm hj

/-! ## Assertions -/

/-- Thread `i` holds `dnsMu` for `op`. -/
structure Holding (i : Nat) (op : Operation) (w : World) : Prop where
  held : w.dnsMu = some (i, op)
  quiet : Quiet w

/-- A server is being set up, or a managed one has been seen. -/
structure Setting (i : Nat) (op : Operation) (w : World) : Prop extends Holding i op w where
  going : w.stopped = false

/-- The monitor has seen that `server` is managed. -/
structure Reapplying (i : Nat) (server : Addr) (w : World) : Prop extends Setting i .sync w where
  active : w.provider.setDNSActive = true
  server : w.provider.setDNS = server

/-- `dnsMu` can be released. -/
structure Releasing (i : Nat) (op : Operation) (w : World) : Prop extends Holding i op w where
  ended : op.stops = true → w.provider.setDNSActive = false ∨ w.provider.closed = true

theorem Holding.stable (hkeeps : Keeps i w w') (h : Holding i op w) : Holding i op w' :=
  ⟨(hkeeps.held op h.held).1, hkeeps.quiet h.quiet⟩

theorem Setting.stable (hkeeps : Keeps i w w') (h : Setting i op w) : Setting i op w' :=
  ⟨h.toHolding.stable hkeeps, (hkeeps.held op h.held).2.2.2.trans h.going⟩

theorem Reapplying.stable {server : Addr} (hkeeps : Keeps i w w') (h : Reapplying i server w) :
    Reapplying i server w' := by
  obtain ⟨-, hserver, hactive, -⟩ := hkeeps.held .sync h.held
  exact ⟨h.toSetting.stable hkeeps, hactive.trans h.active, hserver.trans h.server⟩

theorem Releasing.stable (hkeeps : Keeps i w w') (h : Releasing i op w) : Releasing i op w' := by
  obtain ⟨-, -, hactive, -⟩ := hkeeps.held op h.held
  refine ⟨h.toHolding.stable hkeeps, fun hstops => ?_⟩
  exact (h.ended hstops).imp (fun hover => hactive.trans hover) hkeeps.closed

theorem Releasing.quiet_released (h : Releasing i op w) : Quiet (w.released op) := by
  intro hstopped
  rcases Bool.or_eq_true_iff.mp hstopped with hstopped | hstops
  · exact h.quiet hstopped
  · exact h.ended hstops

theorem Holding.releasing (h : Holding i op w) (hop : op.stops = false) : Releasing i op w := by
  refine ⟨h, fun hstops => ?_⟩
  rw [hop] at hstops
  cases hstops

/-- A managed server has been seen under `dnsMu`. -/
theorem Holding.going (h : Holding i op w) (hopen : w.provider.closed = false)
    (hactive : w.provider.setDNSActive = true) : Setting i op w := by
  refine ⟨h, Bool.eq_false_of_not_eq_true fun hstopped => ?_⟩
  rcases h.quiet hstopped with hover | hover
  · rw [hactive] at hover
    cases hover
  · rw [hopen] at hover
    cases hover

/-! ## Rules for the parts of an operation -/

/-- What is shown of every operation. -/
abbrev Follows (B : Handler Call Reply BusError Bus) (i : Nat) (op : Operation) {α : Type}
    (Q : Except (List ResolvedError) α → World → Prop) (p : ResolvedProg α) (w : World) : Prop :=
  relies (steps B i) (Keeps i) (Spares i) (Permitted op) Q p w

section Rules

variable {α β : Type} {A : World → Prop} {Q : Except (List ResolvedError) β → World → Prop}

theorem permitted_of_not (c : Call) (hc : c.setsLink = false) (w : World) : Permitted op c w := by
  intro hsets
  rw [hc] at hsets
  cases hsets

variable {p : ResolvedProg α} {wrap : BusError → ResolvedError}

theorem follows_bind {f : Except (List ResolvedError) α → ResolvedProg β}
    (hp : Follows B i op (fun _ => A) p w) (hf : ∀ a w, A w → Follows B i op Q (f a) w) :
    Follows B i op Q (p.bind f) w := relies_then (Keeps.refl i) hp hf

theorem follows_andThen {f : α → ResolvedProg β} (hp : Follows B i op (fun _ => A) p w)
    (hstable : ∀ w w', Keeps i w w' → A w → A w') (hf : ∀ a w, A w → Follows B i op Q (f a) w)
    (herr : ∀ es w, A w → Q (.error es) w) :
    Follows B i op Q (p.andThen f) w :=
  relies_andThen (Keeps.refl i) hp hf fun es _ hA => relies_ret hA hstable (herr es)

/-- A part whose calls keep an assertion. -/
theorem follows_steady {P : Call → Prop} (hp : Issues P p) (hA : A w)
    (hstable : ∀ w w', Keeps i w w' → A w → A w') (hstep : ∀ c w, P c → A w → Permitted op c w ∧
      ∀ r w', steps B i c w r w' → Spares i w w' ∧ A w') :
    Follows B i op (fun _ => A) p w :=
  relies_mono (fun _ _ h => h) (fun _ _ h => h) (fun _ _ h => h.2)
    (relies_steady hp (yields_of_forall (fun _ => trivial) p) hA hstable hstep)

theorem follows_section {c : Call} {f : Reply c → ResolvedProg β} (hc : c.internal = true)
    (hA : A w) (hstable : ∀ w w', Keeps i w w' → A w → A w')
    (hsection : ∀ w v w', A w → act i c w = some (v, w') →
      Spares i w w' ∧ Follows B i op Q (f v) w') :
    Follows B i op Q ((request wrap c).andThen f) w := by
  refine relies_section (fun _ _ _ h => h) hc hA hstable (fun t _ => permitted_of_not c ?_ t) hsection
  cases c with
  | setLinkDomains _ _ | setLinkDefaultRoute _ _ | setLinkDNS _ _ => cases hc
  | _ => rfl

theorem follows_load {f : Provider → ResolvedProg β} (hA : A w)
    (hstable : ∀ w w', Keeps i w w' → A w → A w')
    (hf : ∀ w, A w → Follows B i op Q (f w.provider) w) :
    Follows B i op Q ((request wrap .load).andThen f) w :=
  relies_load (fun _ _ _ h => h) hA hstable (fun t _ => permitted_of_not _ rfl t)
    (fun t => (SamePackage.refl t).butUpstreams.sameDNS.spares) hf

theorem follows_quietly (hp : Issues (fun c => c.upholds = true ∧ c.setsLink = false) p) (hA : A w)
    (hstable : ∀ w w', Keeps i w w' → A w → A w') : Follows B i op (fun _ => A) p w := by
  refine follows_steady hp hA hstable fun c t hc hAt => ?_
  refine ⟨permitted_of_not c hc.2 t, fun r t' hstep => ?_⟩
  have hsame := steps_upholds hc.1 hstep
  exact ⟨hsame.spares, hstable t t' hsame.keeps hAt⟩

/-- A part that can make settings, of an operation that is not the monitor's. -/
theorem follows_setting {op' : Operation} (hop : op ≠ .sync)
    (hp : Issues (fun c => c.upholds = true) p) (hA : Setting i op' w) :
    Follows B i op (fun _ => Setting i op') p w := by
  refine follows_steady hp hA (fun _ _ => Setting.stable) fun c t hc hAt => ?_
  refine ⟨fun _ => ⟨hAt.going, fun hsync => absurd hsync hop⟩, fun r t' hstep => ?_⟩
  have hsame := steps_upholds hc hstep
  exact ⟨hsame.spares, hAt.stable hsame.keeps⟩

/-- The monitor reapplies the server that it has seen. -/
theorem follows_reapplying {server : Addr} (hp : Issues (Call.Applies server) p)
    (hA : Reapplying i server w) :
    Follows B i op (fun _ => Reapplying i server) p w := by
  refine follows_steady hp hA (fun _ _ => Reapplying.stable) fun c t hc hAt => ?_
  refine ⟨fun _ => ⟨hAt.going, fun _ => ⟨hAt.active, ?_⟩⟩, fun r t' hstep => ?_⟩
  · rintro ifidx servers rfl
    rw [hAt.server]
    exact hc
  · have hsame := (steps_applies hc hstep).butUpstreams.sameDNS
    exact ⟨hsame.spares, hAt.stable hsame.keeps⟩

/-- A part under `dnsMu`; `K` is what the thread knows of the provider before it. -/
theorem follows_locked {op' : Operation} {K : Provider → Prop} (hK : K w.provider)
    (hKstable : ∀ w w', Keeps i w w' → K w.provider → K w'.provider) (hquiet : Quiet w)
    (hbody : ∀ w, Holding i op' w → (op'.setsDNS = true → w.stopped = false) → K w.provider →
      Follows B i op (fun _ => Releasing i op') p w) :
    Follows B i op (fun _ => Quiet) (locked op' p) w := by
  refine follows_section rfl (A := fun w => Quiet w ∧ K w.provider) ⟨hquiet, hK⟩
    (fun w w' hkeeps h => ⟨hkeeps.quiet h.1, hKstable w w' hkeeps h.2⟩) fun t _ t' hAt hact => ?_
  obtain ⟨hfree, rfl⟩ := act_lockDNS hact
  have hquiet' : Quiet (t.acquired i op') :=
    fun hstopped => hAt.1 (Bool.and_eq_true_iff.mp hstopped).1
  constructor
  · intro j _
    refine ⟨id, fun op'' hmu => ?_, fun _ => hquiet'⟩
    rw [hfree] at hmu
    cases hmu
  · refine follows_bind (hbody _ ⟨rfl, hquiet'⟩ ?_ hAt.2) fun result u hu => ?_
    · intro hsets
      show (t.stopped && !op'.setsDNS) = false
      rw [hsets]
      simp
    · refine follows_section rfl hu (fun _ _ => Releasing.stable) fun v _ v' hv hact => ?_
      obtain rfl := act_unlockDNS hv.held hact
      refine ⟨spares_of_held hv.held id fun _ => hv.quiet_released, ?_⟩
      exact relies_ret hv.quiet_released (fun _ _ hkeeps => hkeeps.quiet) fun _ h => h

end Rules

/-! ## The operations -/

variable {α : Type} {p : ResolvedProg α} {cfg : ResolvedConfig}

theorem upholds_of_reads (hp : Reads p) :
    Issues (fun c => c.upholds = true ∧ c.setsLink = false) p := by
  refine hp.mono fun c hc => ?_
  cases c with
  | _ => first | exact ⟨rfl, rfl⟩ | cases hc

theorem upholds_of_refreshes {exclude : List Addr} (hp : Issues (Call.Refreshes exclude) p) :
    Issues (fun c => c.upholds = true ∧ c.setsLink = false) p := by
  refine hp.mono fun c hc => ?_
  cases c with
  | commit _ _ => exact ⟨rfl, rfl⟩
  | _ => first | exact ⟨rfl, rfl⟩ | cases hc

theorem upholds_of_reverts (hp : Reverts p) :
    Issues (fun c => c.upholds = true ∧ c.setsLink = false) p := by
  refine hp.mono fun c hc => ?_
  cases c with
  | _ => first | exact ⟨rfl, rfl⟩ | cases hc

theorem upholds_of_applies {server : Addr} (hp : Issues (Call.Applies server) p) :
    Issues (fun c => c.upholds = true) p := by
  refine hp.mono fun c hc => ?_
  cases c with
  | _ => first | rfl | cases hc

theorem Setting.releasing (h : Setting i op w) (hop : op.stops = false) : Releasing i op w :=
  h.toHolding.releasing hop

theorem follows_setDNS (server : Addr) (hquiet : Quiet w) :
    Follows B i (.setDNS server) (fun _ => Quiet) (setDNS server) w := by
  refine follows_locked (K := fun _ => True) trivial (fun _ _ _ _ => trivial) hquiet
    fun w hheld hgoing _ => ?_
  have hstable : ∀ w w', Keeps i w w' → Setting i (.setDNS server) w →
      Setting i (.setDNS server) w' := fun _ _ => Setting.stable
  have hend : ∀ w, Setting i (.setDNS server) w → Releasing i (.setDNS server) w :=
    fun _ h => h.releasing rfl
  refine follows_load ⟨hheld, hgoing rfl⟩ hstable fun w hA => ?_
  split
  · exact relies_ret hA hstable hend
  split
  · exact relies_ret hA hstable hend
  refine follows_load hA hstable fun w hA => ?_
  refine follows_andThen (follows_setting Operation.noConfusion
    ((upholds_of_refreshes (refreshes_excluding _)).mono fun _ h => h.1) hA) hstable
    (fun _ w hA => ?_) fun _ => hend
  refine follows_andThen (follows_setting Operation.noConfusion
    (upholds_of_applies (applies_applyDNS server)) hA) hstable (fun _ w hA => ?_) fun _ => hend
  -- The server is recorded while `stopped` is not set.
  refine relies_call hA hstable fun t hAt => ⟨permitted_of_not _ rfl t, fun r u hstep => ?_⟩
  obtain ⟨rfl, rfl⟩ := steps_act rfl rfl hstep
  have hnext : Setting i (.setDNS server) (t.installed server) :=
    ⟨⟨hAt.held, quiet_of_going hAt.going⟩, hAt.going⟩
  exact ⟨spares_of_held hAt.held id fun _ => hnext.quiet, relies_ret hnext hstable hend⟩

theorem Releasing.of_over (hmu : w.dnsMu = some (i, op))
    (hover : w.provider.setDNSActive = false ∨ w.provider.closed = true) : Releasing i op w :=
  ⟨⟨hmu, fun _ => hover⟩, fun _ => hover⟩

theorem follows_unsetDNS (hquiet : Quiet w) :
    Follows B i .unsetDNS (fun _ => Quiet) unsetDNS w := by
  refine follows_locked (K := fun _ => True) trivial (fun _ _ _ _ => trivial) hquiet
    fun w hheld _ _ => ?_
  have hstable : ∀ w w', Keeps i w w' → Releasing i .unsetDNS w → Releasing i .unsetDNS w' :=
    fun _ _ => Releasing.stable
  refine follows_section rfl hheld (fun _ _ => Holding.stable) fun t v t' hAt hact => ?_
  obtain ⟨hv, ht'⟩ := Prod.ext_iff.mp (Option.some.inj hact)
  obtain rfl : t.provider = v := hv
  have ht' : (if t.provider.closed = true then t else t.forget) = t' := ht'
  have hA : Releasing i .unsetDNS t' := by
    rw [← ht']
    split
    · rename_i hclosed
      exact .of_over hAt.held (.inr hclosed)
    · exact .of_over hAt.held (.inl rfl)
  refine ⟨spares_of_held hAt.held ?_ fun _ => hA.quiet, ?_⟩
  · intro hclosed
    rw [← ht', if_pos hclosed]
    exact hclosed
  split
  · exact relies_ret hA hstable fun _ h => h
  split
  · exact relies_ret hA hstable fun _ h => h
  refine follows_bind (follows_quietly (upholds_of_reverts reverts_revertDNS) hA hstable)
    fun reverted w hA => ?_
  have hrefresh : ∀ exclude, Follows B i .unsetDNS (fun _ => Releasing i .unsetDNS)
      (refreshUpstreams exclude) w := fun exclude =>
    follows_quietly (upholds_of_refreshes (refreshes_excluding _)) hA hstable
  cases reverted with
  | ok _ => exact hrefresh _
  | error es =>
    exact follows_bind (hrefresh _) fun _ w hA => relies_ret hA hstable fun _ h => h

theorem follows_close (hquiet : Quiet w) : Follows B i .close (fun _ => Quiet) close w := by
  have hstable : ∀ w w', Keeps i w w' → Quiet w → Quiet w' := fun _ _ hkeeps => hkeeps.quiet
  refine follows_section rfl hquiet hstable fun t v t' hAt hact => ?_
  obtain ⟨-, ht'⟩ := Prod.ext_iff.mp (Option.some.inj hact)
  obtain rfl : t.shut = t' := ht'
  have hshut : Quiet t.shut := fun _ => .inr rfl
  have hspares : Spares i t t.shut := fun j _ =>
    ⟨fun _ => rfl, fun _ hmu => ⟨hmu, rfl, rfl, rfl⟩, fun _ => hshut⟩
  refine ⟨hspares, ?_⟩
  cases v with
  | none => exact relies_ret hshut hstable fun _ h => h
  | some routes =>
    -- From its first section on the thread knows that the provider is closed.
    refine follows_locked (K := fun r => r.closed = true) rfl (fun _ _ hkeeps => hkeeps.closed)
      hshut fun w hheld _ hclosed => ?_
    exact follows_quietly (upholds_of_reverts (reverts_closing routes))
      (.of_over hheld.held (.inr hclosed)) fun _ _ => Releasing.stable

theorem upholds_switchLink (r : Provider) (ifidx : Int) :
    Issues (fun c => c.upholds = true) (switchLink r ifidx) := by
  refine issues_bind ((upholds_of_reverts (reverts_revertLink _)).mono fun _ h => h.1) fun _ => ?_
  refine issues_andThen (issues_request rfl) fun _ => ?_
  refine issues_bind ((upholds_of_refreshes (refreshes_excluding _)).mono fun _ h => h.1) fun _ => ?_
  split
  · exact issues_bind (upholds_of_applies (applies_applyDNS _)) fun _ => trivial
  · exact trivial

theorem quietly_switchLink (r : Provider) (ifidx : Int) (h : r.setDNSActive = false) :
    Issues (fun c => c.upholds = true ∧ c.setsLink = false) (switchLink r ifidx) := by
  refine issues_bind (upholds_of_reverts (reverts_revertLink _)) fun _ => ?_
  refine issues_andThen (issues_request ⟨rfl, rfl⟩) fun _ => ?_
  refine issues_bind (upholds_of_refreshes (refreshes_excluding _)) fun _ => ?_
  rw [if_neg (by simp [h])]
  exact trivial

theorem follows_setInterfaceIndex (ifidx : Int) (hquiet : Quiet w) :
    Follows B i (.setInterfaceIndex ifidx) (fun _ => Quiet) (setInterfaceIndex ifidx) w := by
  unfold setInterfaceIndex
  split
  · exact relies_ret hquiet (fun _ _ hkeeps => hkeeps.quiet) fun _ h => h
  rename_i ifidx' _
  refine follows_locked (K := fun _ => True) trivial (fun _ _ _ _ => trivial) hquiet
    fun w hheld _ _ => ?_
  have hstable : ∀ w w', Keeps i w w' → Holding i (.setInterfaceIndex ifidx) w →
      Holding i (.setInterfaceIndex ifidx) w' := fun _ _ => Holding.stable
  have hend : ∀ w, Holding i (.setInterfaceIndex ifidx) w →
      Releasing i (.setInterfaceIndex ifidx) w := fun _ h => h.releasing rfl
  refine follows_load hheld hstable fun w hheld => ?_
  split
  · exact relies_ret hheld hstable hend
  rename_i hopen
  split
  · exact relies_ret hheld hstable hend
  split
  · exact relies_ret hheld hstable hend
  cases hactive : w.provider.setDNSActive with
  | false =>
    refine relies_mono (fun _ _ h => h) (fun _ _ h => h) (fun _ => hend) ?_
    exact follows_quietly (quietly_switchLink _ _ hactive) hheld hstable
  | true =>
    have hsetting := hheld.going (Bool.eq_false_of_not_eq_true hopen) hactive
    refine relies_mono (fun _ _ h => h) (fun _ _ h => h)
      (fun _ w (h : Setting i _ w) => hend w h.toHolding) ?_
    exact follows_setting Operation.noConfusion (upholds_switchLink _ _) hsetting

theorem follows_reapplyDNS (server : Addr) (hquiet : Quiet w) :
    Follows B i .sync (fun _ => Quiet) (reapplyDNS server) w := by
  refine follows_locked (K := fun _ => True) trivial (fun _ _ _ _ => trivial) hquiet
    fun w hheld _ _ => ?_
  have hend : ∀ w, Holding i .sync w → Releasing i .sync w := fun _ h => h.releasing rfl
  refine follows_load hheld (fun _ _ => Holding.stable) fun w hheld => ?_
  split
  · rename_i hstill
    obtain ⟨hactive, hserver, hopen⟩ := hstill
    have hA : Reapplying i server w := ⟨hheld.going hopen hactive, hactive, hserver⟩
    refine follows_andThen (follows_reapplying (applies_applyDNS server) hA)
      (fun _ _ => Reapplying.stable) (fun _ w hA => ?_) fun _ w hA => hend w hA.toHolding
    exact relies_ret hA (fun _ _ => Reapplying.stable) fun w hA => hend w hA.toHolding
  · exact relies_ret hheld (fun _ _ => Holding.stable) hend

theorem follows_sync (hquiet : Quiet w) :
    Follows B i .sync (fun _ => Quiet) syncResolvedState w := by
  have hstable : ∀ w w', Keeps i w w' → Quiet w → Quiet w' := fun _ _ hkeeps => hkeeps.quiet
  have hend : ∀ (es : List ResolvedError) w, Quiet w → Quiet w := fun _ _ h => h
  refine follows_load hquiet hstable fun w hquiet => ?_
  split
  · exact relies_ret hquiet hstable fun _ h => h
  generalize w.provider = r
  refine follows_andThen (follows_quietly (upholds_of_reads (reads_targetRead _)) hquiet hstable)
    hstable (fun target w hquiet => ?_) hend
  have hreapply : Follows B i .sync (fun _ => Quiet)
      (reapplyDNSIfNeeded r.setDNSActive r.setDNS target.1) w := by
    unfold reapplyDNSIfNeeded
    split
    · exact relies_ret hquiet hstable fun _ h => h
    refine follows_andThen (follows_quietly (upholds_of_reads (reads_linkConfigNeedsApply _ _))
      hquiet hstable) hstable (fun needsApply w hquiet => ?_) hend
    split
    · exact follows_reapplyDNS _ hquiet
    · exact relies_ret hquiet hstable fun _ h => h
  refine follows_andThen hreapply hstable (fun applied w hquiet => ?_) hend
  split
  · exact follows_quietly (upholds_of_refreshes (refreshes_fromLink ..)) hquiet hstable
  · exact follows_quietly (upholds_of_refreshes (refreshes_withFallback ..)) hquiet hstable

theorem follows_code (op : Operation) (hquiet : Quiet w) :
    Follows B i op (fun _ => Quiet) op.code w := by
  cases op with
  | setDNS server => exact follows_setDNS server hquiet
  | unsetDNS => exact follows_unsetDNS hquiet
  | setInterfaceIndex ifidx => exact follows_setInterfaceIndex ifidx hquiet
  | close => exact follows_close hquiet
  | sync => exact follows_sync hquiet

/-! ## The end of the maintenance -/

theorem Built.quiet (h : Built B w) : Quiet w := by
  obtain ⟨ifidx, fallback, bus, tr, u, hex, hsame, -⟩ := h.refreshed
  have hkept : Issues (fun c => c.upholds = true) (refreshUpstreams .zero) :=
    (upholds_of_refreshes (refreshes_excluding _)).mono fun _ h => h.1
  have hgoing : u.stopped = false := by
    refine (wp_sound (I := fun _ _ => True) hex (wp_steady (A := fun w => w.stopped = false) hkept
      rfl fun c t hc ht => ⟨trivial, fun r t' hstep => ?_⟩)).2
    exact (steps_upholds hc hstep).stopped.trans ht
  exact quiet_of_going (hsame.stopped.trans hgoing)

/-- In every run of a provider, whatever resolved answers: once `UnsetDNS` or the `Close`
    that has closed the provider has released `dnsMu`, and until a `SetDNS` acquires it,
    no thread is about to make a setting of a link; and where the monitor is about to make
    one, DNS is managed and the server is the one of the provider. -/
theorem maintenance_stops {w₀ : World} (hbuilt : Built B w₀) {cfg : ResolvedConfig}
    (hreach : Reach Operation.code (steps B) (fun _ _ => True) w₀ cfg) {c : Call}
    {k : Except BusError (Reply c) → ResolvedProg Unit} (hnext : cfg.threads i = some (op, .call c k))
    (hsets : c.setsLink = true) :
    cfg.shared.stopped = false ∧ (op = .sync → cfg.shared.provider.setDNSActive = true ∧
      ∀ ifidx servers, c = .setLinkDNS ifidx servers →
        servers = [resolvedNameserver cfg.shared.provider.setDNS]) := by
  have hothers : ∀ i j s t, i ≠ j → Quiet s → Spares i s t → Keeps j s t :=
    fun i j _ _ hne _ hspares => hspares j hne.symm
  have hall := Reach.relied (fun i _ => steps B i) Keeps Spares (fun _ => Permitted)
    (fun _ _ _ => Quiet) Quiet (fun _ _ _ _ _ _ _ _ _ hstep => hstep) Keeps.refl
    (fun _ _ _ _ => Keeps.trans) hothers (fun _ _ _ hquiet hspares => hspares.quiet hquiet)
    hbuilt.quiet (fun _ _ op _ _ hquiet => follows_code op hquiet) hreach
  obtain ⟨hpermitted, -⟩ := hall.2 i op _ hnext cfg.shared (Keeps.refl i cfg.shared)
  exact hpermitted hsets

/-- The next call of a thread. -/
def nextSets (cfg : ResolvedConfig) (i : Nat) : Bool :=
  match cfg.threads i with
  | some (_, .call c _) => c.setsLink
  | _ => false

theorem exists_next (h : nextSets cfg i = true) :
    ∃ op c k, cfg.threads i = some (op, .call c k) ∧ c.setsLink = true := by
  unfold nextSets at h
  split at h
  · rename_i op c k hthread
    exact ⟨op, c, k, hthread, h⟩
  · cases h

/-- A run of a constructed provider. -/
def sampleRun (turns : List (Turn Nat Operation)) : Option ResolvedConfig :=
  (construct 2 [] sampleBus).bind fun w =>
    (Config.initial w : ResolvedConfig).schedule Operation.code reply turns

theorem sampleRun_reach {turns : List (Turn Nat Operation)} (h : sampleRun turns = some cfg) :
    ∃ w₀, Built (replies answer) w₀ ∧
      Reach Operation.code (steps (replies answer)) (fun _ _ => True) w₀ cfg := by
  obtain ⟨w₀, hw₀, hrun⟩ := Option.bind_eq_some_iff.mp h
  have hreply : ∀ i c w r w', reply i c w = some (r, w') → steps (replies answer) i c w r w' :=
    fun _ _ _ _ _ => reply_steps
  exact ⟨w₀, construct_built (by decide) hw₀, Reach.schedule hreply .initial (fun _ _ _ => trivial) hrun⟩

/-- The monitor reads the provider before `UnsetDNS` and the link after it, and has the link set
    again once the same server is managed anew. -/
def reapplyingTurns : List (Turn Nat Operation) :=
  .start 0 (.setDNS sampleServer) :: List.replicate 26 (.go 0) ++
    [.start 1 .sync, .go 1, .start 2 .unsetDNS] ++ List.replicate 17 (.go 2) ++
    List.replicate 6 (.go 1) ++
    .start 3 (.setDNS sampleServer) :: List.replicate 26 (.go 3) ++ List.replicate 3 (.go 1)

theorem maintenance_stops_reapplying : ∃ cfg : ResolvedConfig,
    sampleRun reapplyingTurns = some cfg ∧ nextSets cfg 1 = true ∧ cfg.shared.stopped = false ∧
      cfg.shared.provider.setDNSActive = true := by
  have hrun : (sampleRun reapplyingTurns).any (fun cfg => nextSets cfg 1 &&
      (cfg.threads 1).any fun x => decide (x.1 = .sync)) = true := by decide +kernel
  obtain ⟨cfg, hcfg, hchecks⟩ := (Option.any_eq_true _ _).mp hrun
  obtain ⟨hnext, hsync⟩ := Bool.and_eq_true_iff.mp hchecks
  obtain ⟨w₀, hbuilt, hreach⟩ := sampleRun_reach hcfg
  obtain ⟨op, c, k, hthread, hsets⟩ := exists_next hnext
  rw [hthread] at hsync
  have hstops := maintenance_stops hbuilt hreach hthread hsets
  exact ⟨cfg, hcfg, hnext, hstops.1, (hstops.2 (of_decide_eq_true hsync)).1⟩

/-- `SetDNS` in front of its first setting. -/
def settingTurns : List (Turn Nat Operation) :=
  .start 0 (.setDNS sampleServer) :: List.replicate 16 (.go 0)

/-- A call of `op` has returned without an error, and without a further call being started
    a thread is about to make a setting. -/
def SetsAfter (op : Operation) : Prop :=
  ∃ w₀ cfg cfg' turns i j, Built (replies answer) w₀ ∧
    Reach Operation.code (steps (replies answer)) (fun _ _ => True) w₀ cfg ∧
    cfg.threads i = some (op, .ret (.ok ())) ∧ (∀ t ∈ turns, ∃ l, t = Turn.go l) ∧
    Config.schedule Operation.code reply cfg turns = some cfg' ∧ nextSets cfg' j = true

def returned (cfg : ResolvedConfig) (i : Nat) (op : Operation) : Bool :=
  match cfg.threads i with
  | some (op', .ret (.ok _)) => decide (op' = op)
  | _ => false

theorem threads_of_returned (h : returned cfg i op = true) :
    cfg.threads i = some (op, .ret (.ok ())) := by
  unfold returned at h
  split at h
  · rename_i op' _ hthread
    rw [hthread, of_decide_eq_true h]
  · cases h

/-- The turns of a run before and after the return. -/
theorem setsAfter_of_run (before : List (Turn Nat Operation)) (i j n : Nat)
    (h : (sampleRun before).any (fun cfg => returned cfg i op &&
      (cfg.schedule Operation.code reply (List.replicate n (.go j))).any (nextSets · j)) = true) :
    SetsAfter op := by
  obtain ⟨cfg, hcfg, h⟩ := (Option.any_eq_true _ _).mp h
  obtain ⟨hreturned, h⟩ := Bool.and_eq_true_iff.mp h
  obtain ⟨cfg', hcfg', hnext⟩ := (Option.any_eq_true _ _).mp h
  obtain ⟨w₀, hbuilt, hreach⟩ := sampleRun_reach hcfg
  exact ⟨w₀, cfg, cfg', _, i, j, hbuilt, hreach, threads_of_returned hreturned,
    fun t ht => ⟨j, (List.mem_replicate.mp ht).2⟩, hcfg', hnext⟩

/-- `UnsetDNS` returns while a `SetDNS` waits for `dnsMu`. -/
def waitingTurns : List (Turn Nat Operation) :=
  [.start 0 .unsetDNS, .start 1 (.setDNS sampleServer)] ++ List.replicate 3 (.go 0)

/-- A second `Close` returns while the first one waits for a `SetDNS`. -/
def secondCloseTurns : List (Turn Nat Operation) :=
  settingTurns ++ [.start 1 .close, .go 1, .start 2 .close, .go 2]

/-- Settings are made after `UnsetDNS` and after `Close` have returned. -/
theorem waiting_set_applies : SetsAfter .unsetDNS ∧ SetsAfter .close :=
  ⟨setsAfter_of_run waitingTurns 0 1 16 (by decide +kernel),
    setsAfter_of_run secondCloseTurns 2 0 0 (by decide +kernel)⟩

end SysnetLinux.Dns.Resolved
