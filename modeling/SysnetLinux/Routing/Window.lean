/-
  SysnetLinux.Routing.Window

  The guard after a failed `Apply`.

  Once an `Apply` has failed behind its guards, its packets stay protected until an
  `Apply` or `Rollback` returns nil, in every careful run.  A `Refresh` that does not
  find the applied state intact is not careful: it takes the guard out with rules or
  VPN table still missing.
-/

import SysnetLinux.Routing.Orphans
import SysnetLinux.Routing.Shelter

namespace SysnetLinux.Routing

open CallProg CallProg.Prog List

/-- Steps up to the first `Apply` or `Rollback` that returned nil; it is one of them
    itself if it is an `Apply`.  The last step stands first. -/
def Window : List Step → Prop
  | [] => True
  | t :: mid => (t.settles = true → ∃ c, t.op = .apply c) ∧ ∀ t' ∈ mid, t'.settles = false

theorem Window.tail {t : Step} {mid : List Step} (h : Window (t :: mid)) : Window mid := by
  cases mid with
  | nil => trivial
  | cons t' mid =>
    refine ⟨fun hsettles => ?_, fun t'' ht'' => h.2 t'' (mem_cons_of_mem t' ht'')⟩
    rw [h.2 t' mem_cons_self] at hsettles
    cases hsettles

/-- What holds in a window that a failed `Apply` over the configs `B` has opened, in a run whose
    configs are in `L`. -/
structure WindowInv (start : Kernel) (B L : List Config) (p : Packet) (steps : List Step)
    (m : Manager) (k : Kernel) : Prop where
  failed : leftBehind steps ≠ []
  sub : ∀ c ∈ m.appliedConfigs, c ∈ B
  family : ∃ b ∈ B, familyEnabled b.families p.family = true ∧
    b ∈ m.appliedConfigs ++ leftBehind steps
  within : ∀ c ∈ m.appliedConfigs ++ leftBehind steps, c ∈ L
  sheltered : Sheltered start False L B p k

section Open

variable {start : Kernel} {before : List Step} {m : Manager} {k : Kernel}
  (h : GuardInv start before m k) {p : Packet} {L : List Config}
  (hp : ∀ c ∈ L, appBypass c p = false)
include h hp

/-- While the guards of an `Apply` go up, the applied policy shelters the packet, or the
    guard that stands does. -/
theorem GuardInv.sheltered_opening {b c : Config} (hb : b.Valid)
    (hahead : GuardsAhead m b (leftBehind before))
    (hwithin : ∀ c ∈ m.appliedConfigs ++ b :: leftBehind before, c ∈ L) (hc : c ∈ m.configs b)
    (hcf : familyEnabled c.families p.family = true) {done : List Rule}
    (hdone : ∀ g ∈ done, g ∈ m.guards (desiredFrom b k))
    (hgx : transitionGuard c p.family ∈ (k.addRules done).rules) :
    Sheltered start True L (m.configs b) p (k.addRules done) := by
  by_cases hfam : ∃ c ∈ m.appliedConfigs, familyEnabled c.families p.family = true
  · have hmem := fun c hc => hwithin c (((sublist_cons_self b _).append_left _).subset hc)
    have hW := h.sheltered p (fun c hc => hp c (hmem c hc)) hfam
    refine (hW.mono hmem fun c' hc' => ?_).addRules fun g hg => transitionGuard_action (hdone g hg)
    rw [m.configs_eq]
    exact mem_cons_of_mem b hc'
  · -- the guard that stands is the new config's, and the family is its own
    have hself : ∀ b' ∈ m.configs b, familyEnabled b'.families p.family = true → b' = b := by
      intro b' hb' hbf'
      rw [m.configs_eq] at hb'
      rcases mem_cons.mp hb' with rfl | hb'
      · rfl
      · exact absurd ⟨b', hb', hbf'⟩ hfam
    obtain rfl := hself c hc hcf
    refine .inl (h.run.shut_foremost hb (fun c hc => hp c (hwithin c hc)) hahead hc ?_
      ⟨c, hc, hcf, le_refl _⟩ hgx ?_)
    · intro b' hb' hbf'
      rw [hself b' hb' hbf']
    · intro r hr
      rcases Kernel.mem_addRules.mp hr with hg | hk
      · exact .inr (.inl (hdone r hg))
      · exact .inl hk

/-- A failed `Apply` shelters the packets of the families that its guards stand for. -/
theorem GuardInv.window_start {b : Config} (hb : b.Valid)
    {tr : List (Event AdapterCall Kernel)} {out : Outcome} {k' : Kernel}
    (hex : Exec adapter (m.apply b) k tr out k') (hactive : guardActive out.2 = true)
    (hfree : Free (m.configs b) start)
    (hcare : Step.Careful ⟨.apply b, m, k, tr, out, k'⟩ (leftBehind before))
    (hL : ∀ c ∈ m.configs b ++ leftBehind before, c ∈ L)
    (hguarded : ∃ g ∈ transitionGuards (m.configs b), g.family = p.family ∧ g ∈ k'.rules) :
    WindowInv start (m.configs b) L p (⟨.apply b, m, k, tr, out, k'⟩ :: before) out.1 k' := by
  have hleft : leftBehind (⟨.apply b, m, k, tr, out, k'⟩ :: before) = b :: leftBehind before :=
    leftBehind_applyFailed rfl hactive
  obtain ⟨⟨hcov, hmist⟩, hahead, -⟩ := hcare
  obtain ⟨g, hg, hgf, hgx⟩ := hguarded
  obtain ⟨c, hc, f, hf, rfl⟩ := mem_transitionGuards.mp hg
  obtain rfl : f = p.family := hgf
  have hcf := mem_familyConstants.mp hf
  rw [m.configs_eq, cons_append, forall_mem_cons, forall_mem_append] at hL
  obtain ⟨hbL, happliedL, hleftL⟩ := hL
  have hwithin : ∀ c ∈ m.appliedConfigs ++ b :: leftBehind before, c ∈ L :=
    forall_mem_append.mpr ⟨happliedL, forall_mem_cons.mpr ⟨hbL, hleftL⟩⟩
  have hvalid : (Operation.apply b).Valid := hb
  have hperf := performed_of_exec h.run.good hvalid hex
  cases hperf with
  | idle hidle =>
    rw [hidle] at hactive
    cases hactive
  | applied => cases hactive
  | refreshFailed hrefreshes | refreshed hrefreshes => cases hrefreshes
  | applyFailed _ hx =>
    refine ⟨by simp [hleft], ?_, ⟨c, hc, hcf, ?_⟩, ?_, ?_⟩
    · intro c' hc'
      rw [m.configs_eq]
      exact mem_cons_of_mem b hc'
    · rw [hleft]
      exact Manager.mem_owners hc _
    · rw [hleft]
      exact hwithin
    · -- a policy without the family may have replaced one with it, but its guard stands
      suffices hW : Sheltered start True L (m.configs b) p k' from
        hW.shut hc (Manager.configs_valid h.run.good hb hc) hcf hgx
      refine h.run.sheltered_apply hb (fun c hc => hp c (hwithin c hc)) hfree hcov hmist hahead hbL
        (.inr trivial) ⟨c, hc, hcf, Manager.mem_owners hc _⟩ hx ?_
      rintro done rest hsplit rfl
      exact h.sheltered_opening hp hb hahead hwithin hc hcf
        (fun g hg => hsplit ▸ mem_append_left rest hg) hgx

variable {B : List Config} (hw : WindowInv start B L p before m k)
  {op : Operation} {tr : List (Event AdapterCall Kernel)} {out : Outcome} {k' : Kernel}
  (hop : op.Valid) (hex : Exec adapter (m.perform op) k tr out k')
  (hfree : Free (usedConfigs (⟨op, m, k, tr, out, k'⟩ :: before)) start)
  (hcare : Step.Careful ⟨op, m, k, tr, out, k'⟩ (leftBehind before))
  (hL : ∀ c ∈ op.configs, c ∈ L)
include hw hop hex hfree hcare hL

theorem GuardInv.window_visited
    (hsettles : Step.settles ⟨op, m, k, tr, out, k'⟩ = true → ∃ c, op = .apply c) :
    ∀ x ∈ visited tr k', Sheltered start False L B p x := by
  by_cases hrollback : ∃ c, op = .rollback c
  · obtain ⟨c, rfl⟩ := hrollback
    rcases rollback_undisturbed hop hex hcare.2 with ⟨rfl, rfl, -⟩ | hnil
    · simpa [visited] using hw.sheltered
    · obtain ⟨c', hc'⟩ := hsettles (by simp [Step.settles, hnil])
      cases hc'
  · obtain ⟨happlied, hleft⟩ := forall_mem_append.mp hw.within
    have hwithin : ∀ b ∈ m.appliedConfigs ++ (op.configs ++ leftBehind before), b ∈ L :=
      forall_mem_append.mpr ⟨happlied, forall_mem_append.mpr ⟨hL, hleft⟩⟩
    intro x hx
    refine h.passes hop (h.run.free_step hfree) hcare (fun c hc => hp c (hwithin c hc))
      (forall_mem_append.mpr ⟨happlied, hL⟩) ?_ hw.sub hw.family hw.sheltered
      (fun c hc => hrollback ⟨c, hc⟩) (passes_of_visited h.run.good hop hex x hx)
    · -- the window is open, so the next policy keeps the family
      rintro c rfl
      obtain ⟨b, -, hbf, hmem⟩ := hw.family
      exact .inl (hcare.2.2 hw.failed b hmem _ hbf)

theorem GuardInv.window_step (hsettles : Step.settles ⟨op, m, k, tr, out, k'⟩ = false) :
    WindowInv start B L p (⟨op, m, k, tr, out, k'⟩ :: before) out.1 k' := by
  have hlast : Sheltered start False L B p k' := by
    refine h.window_visited hp hw hop hex hfree hcare hL (fun hs => ?_) k' (by simp [visited])
    rw [hsettles] at hs
    cases hs
  have hsame : leftBehind (⟨op, m, k, tr, out, k'⟩ :: before) = leftBehind before →
      out.1.appliedConfigs = m.appliedConfigs →
      WindowInv start B L p (⟨op, m, k, tr, out, k'⟩ :: before) out.1 k' := by
    intro hleft happlied
    refine ⟨hleft ▸ hw.failed, ?_, ?_, ?_, hlast⟩ <;> rw [happlied]
    · exact hw.sub
    · rw [hleft]
      exact hw.family
    · rw [hleft]
      exact hw.within
  cases performed_of_exec h.run.good hop hex with
  | idle hactive hnil =>
    exact hsame (leftBehind_other (settles_eq_false hnil) (.inl hactive)) rfl
  | @applyFailed c _ _ hactive hx =>
    refine ⟨?_, hw.sub, ?_, ?_, hlast⟩ <;> rw [leftBehind_applyFailed rfl hactive]
    · exact cons_ne_nil _ _
    · obtain ⟨b, hb, hbf, hmem⟩ := hw.family
      exact ⟨b, hb, hbf, ((sublist_cons_self c _).append_left _).subset hmem⟩
    · obtain ⟨happlied, hleft⟩ := forall_mem_append.mp hw.within
      exact forall_mem_append.mpr ⟨happlied, forall_mem_cons.mpr ⟨hL c mem_cons_self, hleft⟩⟩
  | applied => cases hsettles
  | refreshFailed hrefreshes ha hx => exact hsame (leftBehind_refreshes hrefreshes) rfl
  | refreshed hrefreshes ha =>
    exact hsame (leftBehind_refreshes hrefreshes) (by simp [Manager.appliedConfigs, ha])
  | rollbackFailed hactive hnil _ =>
    exact hsame (leftBehind_other (settles_eq_false fun _ _ => hnil) (.inl hactive)) rfl
  | rolledBack => cases hsettles
  | begun ha hsplit => exact hsame (leftBehind_other rfl (.inr fun c hc => by cases hc)) rfl

end Open

/-! ## The guard survives -/

section Run

variable {m₀ : Manager} (hfresh : m₀.applied = none) {start : Kernel} {before : List Step}
  {s : Step} {b : Config} (hb : s.op = .apply b) (hactive : guardActive s.outcome.2 = true)
  {p : Packet} {L : List Config} (hp : ∀ c ∈ L, appBypass c p = false)
  (hguarded : ∃ g ∈ transitionGuards (s.manager.configs b),
    g.family = p.family ∧ g ∈ s.final.rules)
include hfresh hb hactive hp hguarded

/-- The window invariant at the end of every window that no step has closed. -/
theorem Run.windowInv {after : List Step} {m : Manager} {k : Kernel}
    (hrun : Run m₀ start (after ++ s :: before) m k)
    (hfree : Free (usedConfigs (after ++ s :: before)) start)
    (hcare : Careful (after ++ s :: before)) (hopen : ∀ t ∈ after, t.settles = false)
    (hL : ∀ c ∈ s.manager.configs b ++ leftBehind before ++ usedConfigs after, c ∈ L) :
    WindowInv start (s.manager.configs b) L p (after ++ s :: before) m k := by
  induction after generalizing m k with
  | nil =>
    cases hrun with
    | @step _ m k op tr out _ hrun hop hex =>
      obtain rfl : op = .apply b := hb
      have hinv := hrun.guardInv hfresh (fun c hc => hfree c (mem_append_right _ hc)) hcare.2
      refine hinv.window_start hp hop hex hactive ?_ hcare.1
        (fun c hc => hL c (mem_append_left _ hc)) hguarded
      rw [m.configs_eq]
      exact hinv.run.free_step hfree
  | cons t mid ih =>
    cases hrun with
    | step hrun hop hex =>
      have hfree' : Free (usedConfigs (mid ++ s :: before)) start :=
        fun c hc => hfree c (mem_append_right _ hc)
      have hw := ih hrun hfree' hcare.2 (fun t ht => hopen t (mem_cons_of_mem _ ht))
        fun c hc => hL c (((sublist_append_right ..).append_left _).subset hc)
      exact (hrun.guardInv hfresh hfree' hcare.2).window_step hp hw hop hex hfree hcare.1
        (fun c hc => hL c (mem_append_right _ (mem_append_left _ hc)))
        (hopen _ mem_cons_self)

end Run

/-- Everything the policy does not decide goes by the main table. -/
def mainRule : Rule := ⟨afInet, 32766, .lookup, rtTableMain, 0, 0⟩

/-- A host with a default route in the main table. -/
def mainKernel : Kernel :=
  (Kernel.empty.addRule mainRule).replaceRoute
    { vpnRoute sampleConfig afInet (familyDefaultPrefix afInet) .zero with
      table := rtTableMain, linkIndex := 2 }

def appliedStep : Step := stepOf freshManager mainKernel (.apply sampleConfig) []

/-- The next `Apply` fails with the old rules deleted and no new one installed. -/
def halfwayStep : Step :=
  stepOf appliedStep.outcome.1 appliedStep.final (.apply sampleConfig)
    (List.replicate 25 none ++ [some (.other "busy")])

def refreshStep : Step := stepOf halfwayStep.outcome.1 halfwayStep.final .refresh []

/-- No policy is complete without a rule of its block. -/
theorem not_complete {d : DesiredState} (hd : d.Compiled) {k : Kernel}
    (hk : ∀ r ∈ k.rules, 32766 ≤ r.priority) : ¬ Complete d k := by
  intro hcomplete
  obtain ⟨f, hf⟩ := exists_family hd.valid
  obtain ⟨r, hr, hrf, -⟩ := exists_lookup d.config f
  have hmem : r ∈ d.rules :=
    hd.mem_rules.mpr ⟨hrf ▸ mem_familyConstants.mp hf, hrf ▸ hr⟩
  have hprio := (inBlock_iff.mp (hd.inBlock_of_mem hmem)).2.2
  have hrange := hd.valid.checked.range_le
  rw [hd.valid.intAdd_span] at hrange
  have hlarge := hk r (hcomplete.rules r hmem)
  omega

end SysnetLinux.Routing
