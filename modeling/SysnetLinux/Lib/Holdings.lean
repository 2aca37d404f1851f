/-
  SysnetLinux.Lib.Holdings

  What a program holds: resources that it has taken and not given back.

  A release can fail, and then it is `stuck` until another release of it succeeds.  `Left P w`
  bounds what is held: every held resource satisfies `P` or is stuck.  A clean-up is a run of
  releases each of which takes its resources out of the bound (`Clears`).
-/

import Mathlib.Data.Finset.Basic
import SysnetLinux.Lib.Stage

variable {ρ : Type}

/-- The resources held, those whose last release failed, and those released. -/
structure Holdings (ρ : Type) where
  held : Finset ρ
  stuck : Finset ρ
  released : Finset ρ

namespace Holdings

def empty : Holdings ρ := ⟨∅, ∅, ∅⟩

/-- The resource has never been held. -/
def New (w : Holdings ρ) (r : ρ) : Prop := r ∉ w.held ∧ r ∉ w.released

/-- What is held satisfies `P` or is stuck. -/
def Left (P : ρ → Prop) (w : Holdings ρ) : Prop := ∀ r ∈ w.held, P r ∨ r ∈ w.stuck

/-- The resources of `f` are gone, without a release. -/
def discard (w : Holdings ρ) (f : ρ → Bool) : Holdings ρ :=
  { w with held := w.held.filter fun r => f r = false }

section Bounds

variable {P Q : ρ → Prop} {w : Holdings ρ} {f : ρ → Bool}

theorem Left.mono (h : Left P w) (hPQ : ∀ r, P r → Q r) : Left Q w :=
  fun r hr => (h r hr).imp (hPQ r) id

theorem Left.discard (h : Left P w) : Left (fun r => P r ∧ f r = false) (w.discard f) := by
  intro r hr
  obtain ⟨hheld, hf⟩ := Finset.mem_filter.mp hr
  exact (h r hheld).imp (fun hP => ⟨hP, hf⟩) id

/-- With nothing left and nothing stuck, nothing is held. -/
theorem Left.none (h : Left P w) (hP : ∀ r, ¬ P r) (hstuck : w.stuck = ∅) : w.held = ∅ := by
  refine Finset.eq_empty_of_forall_notMem fun r hr => ?_
  rcases h r hr with hr | hr
  · exact hP r hr
  · rw [hstuck] at hr
    exact absurd hr (Finset.notMem_empty r)

/-- With nothing stuck, all that is held satisfies the bound. -/
theorem Left.all (h : Left P w) (hstuck : w.stuck = ∅) : ∀ r ∈ w.held, P r := by
  intro r hr
  rcases h r hr with hr | hr
  · exact hr
  · rw [hstuck] at hr
    exact absurd hr (Finset.notMem_empty r)

end Bounds

variable [DecidableEq ρ]

def take (w : Holdings ρ) (r : ρ) : Holdings ρ := { w with held := insert r w.held }

/-- A release of the resources of `f`, in the name of `target`, that succeeds. -/
def release (w : Holdings ρ) (f : ρ → Bool) (target : ρ) : Holdings ρ where
  held := w.held.filter fun r => f r = false
  stuck := w.stuck.filter fun r => f r = false
  released := insert target w.released

/-- A release of the resources of `f`, in the name of `target`, that fails. -/
def refuse (w : Holdings ρ) (f : ρ → Bool) (target : ρ) : Holdings ρ :=
  { w with stuck := insert target (w.stuck ∪ w.held.filter fun r => f r = true) }

section Changes

variable {P Q : ρ → Prop} {w : Holdings ρ} {f : ρ → Bool} {r : ρ}

theorem Left.take (h : Left P w) (hPQ : ∀ r, P r → Q r) (hr : Q r) : Left Q (w.take r) := by
  intro r' hr'
  rcases Finset.mem_insert.mp hr' with rfl | hr'
  · exact .inl hr
  · exact (h r' hr').imp (hPQ r') id

theorem Left.release (h : Left P w) (target : ρ) :
    Left (fun r => P r ∧ f r = false) (w.release f target) := by
  intro r hr
  obtain ⟨hheld, hf⟩ := Finset.mem_filter.mp hr
  exact (h r hheld).imp (fun hP => ⟨hP, hf⟩) fun hstuck => Finset.mem_filter.mpr ⟨hstuck, hf⟩

theorem Left.refuse (h : Left P w) (target : ρ) :
    Left (fun r => P r ∧ f r = false) (w.refuse f target) := by
  intro r hr
  by_cases hf : f r = true
  · refine .inr (Finset.mem_insert_of_mem (Finset.mem_union_right _ ?_))
    exact Finset.mem_filter.mpr ⟨hr, hf⟩
  · refine (h r hr).imp (fun hP => ⟨hP, by simpa using hf⟩) fun hstuck => ?_
    exact Finset.mem_insert_of_mem (Finset.mem_union_left _ hstuck)

/-- A new resource that is given back at once leaves what was held. -/
theorem held_release_take (hnew : r ∉ w.held) (hf : ∀ r', f r' = true ↔ r' = r) :
    ((w.take r).release f r).held = w.held := by
  ext r'
  have hfalse : f r' = false ↔ r' ≠ r := by
    rw [← Bool.not_eq_true, hf r']
  simp only [Holdings.take, Holdings.release, Finset.mem_filter, Finset.mem_insert, hfalse]
  constructor
  · rintro ⟨rfl | hr', hne⟩
    · exact absurd rfl hne
    · exact hr'
  · intro hr'
    exact ⟨.inr hr', fun heq => hnew (heq ▸ hr')⟩

end Changes

end Holdings

/-! ## Clean-ups -/

namespace CallProg.Prog

variable {C : Type} {R : C → Type} {E α ε : Type} {H : Handler C R E (Holdings ρ)}

/-- Behind the program the resources of `K` are gone or stuck. -/
def Clears (H : Handler C R E (Holdings ρ)) (p : Prog C R E α) (K : ρ → Prop) : Prop :=
  ∀ (P : ρ → Prop) (w : Holdings ρ), w.Left P →
    wp H (fun _ _ => True) (fun _ w' => w'.Left fun r => P r ∧ ¬ K r) p w

namespace Clears

variable {K K' : ρ → Prop}

theorem mono {p : Prog C R E α} (h : Clears H p K) (hK : ∀ r, K' r → K r) : Clears H p K' :=
  fun P w hP => wp_post
    (fun _ _ hleft => hleft.mono fun r hr => ⟨hr.1, fun hr' => hr.2 (hK r hr')⟩) (h P w hP)

theorem idle {p : Prog C R E α} (h : Issues (Idle H) p) : Clears H p fun _ => False :=
  fun _ _ hP => wp_of_idle h (yields_of_forall (fun _ => hP.mono fun _ hr => ⟨hr, not_false⟩) p)

theorem collect_nil : Clears H (collect id ([] : List (Prog C R E (List ε)))) fun _ => False :=
  idle trivial

theorem collect_cons {p : Prog C R E (List ε)} {ps : List (Prog C R E (List ε))}
    (hp : Clears H p K) (hps : Clears H (collect id ps) K') :
    Clears H (collect id (p :: ps)) fun r => K r ∨ K' r := by
  intro P w hP
  refine wp_collect_cons (wp_post (fun _ w' hleft => ?_) (hp P w hP))
  refine wp_post (fun _ w'' hleft' => hleft'.mono fun r hr => ?_) (hps _ w' hleft)
  exact ⟨hr.1.1, not_or.mpr ⟨hr.1.2, hr.2⟩⟩

end Clears

end CallProg.Prog
