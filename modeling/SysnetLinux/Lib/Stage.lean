/-
  SysnetLinux.Lib.Stage

  Longer programs out of smaller ones.

  - `embed` runs a program over the calls of a component as a program over the
    calls of a system that has the component; `pull` is the world it sees.
  - `inTurn` runs stages one after the other.  A stage takes the local variables of
    the program and returns them changed, or fails; `Stage` is its triple, and
    `Stage.cons` the rule of sequence.
  - What a program can return (`Yields`) can be enough for its postcondition.
-/

import SysnetLinux.Lib.Prog

namespace CallProg.Prog

open List

variable {C : Type} {R : C → Type} {E S α β σ τ ε : Type}

/-! ## What a program can return -/

variable {H : Handler C R E S} {Q : α → S → Prop} {p : Prog C R E α} {s : S}

/-- What a program returns is enough for the postcondition in every state. -/
theorem wp_of_yields (h : Yields (fun a => ∀ s, Q a s) p) (s : S) : wp H Any Q p s := by
  induction p generalizing s with
  | ret a => exact h s
  | call c k ih => exact ⟨trivial, fun r s' _ => ih r (h r) s'⟩

theorem wp_of_forall (h : ∀ a s, Q a s) (p : Prog C R E α) (s : S) : wp H Any Q p s :=
  wp_of_yields (yields_of_forall h p) s

theorem wp_and {I : C → S → Prop} {Q' : α → S → Prop} (h : wp H I Q p s) (h' : wp H I Q' p s) :
    wp H I (fun a t => Q a t ∧ Q' a t) p s := by
  induction p generalizing s with
  | ret a => exact ⟨h, h'⟩
  | call c k ih => exact ⟨h.1, fun r t hr => ih r (h.2 r t hr) (h'.2 r t hr)⟩

variable {c : C} {k : Except E (R c) → Prog C R E α}

theorem wp_call_cases (herr : ∀ e s', H c s (.error e) s' → wp H Any Q (k (.error e)) s')
    (hok : ∀ v s', H c s (.ok v) s' → wp H Any Q (k (.ok v)) s') : wp H Any Q (.call c k) s := by
  refine ⟨trivial, fun r s' hr => ?_⟩
  cases r with
  | error e => exact herr e s' hr
  | ok v => exact hok v s' hr

/-! ## Calls that leave the world alone -/

/-- The call changes nothing, however it is answered. -/
def Idle (H : Handler C R E S) (c : C) : Prop := ∀ s r s', H c s r s' → s' = s

theorem wp_call_idle (hidle : Idle H c) (herr : ∀ e, wp H Any Q (k (.error e)) s)
    (hok : ∀ v, wp H Any Q (k (.ok v)) s) : wp H Any Q (.call c k) s :=
  wp_call_cases (fun e s' hr => hidle s _ s' hr ▸ herr e) fun v s' hr => hidle s _ s' hr ▸ hok v

theorem wp_of_idle (hidle : Issues (Idle H) p) (hp : Yields (fun a => Q a s) p) :
    wp H Any Q p s := by
  induction p with
  | ret a => exact hp
  | call c k ih =>
    refine ⟨trivial, fun r s' hr => ?_⟩
    obtain rfl := hidle.1 s r s' hr
    exact ih r (hidle.2 r) (hp r)

theorem wp_bind_idle {Q : β → S → Prop} {f : α → Prog C R E β} (hidle : Issues (Idle H) p)
    (h : ∀ a, wp H Any Q (f a) s) : wp H Any Q (p.bind f) s :=
  (wp_bind _ _).mpr (wp_of_idle hidle (yields_of_forall h p))

/-! ## Worlds with fewer failures -/

/-- The world `H` in which a call does not fail where `G` holds. -/
def restrict (H : Handler C R E S) (G : C → S → Prop) : Handler C R E S :=
  fun c s r s' => H c s r s' ∧ (isError r = true → ¬ G c s)

theorem Exec.restrict {G : C → S → Prop} {t : S} {tr : List (Event C S)} {a : α}
    (hex : Exec H p s tr a t) (h : ∀ ev ∈ tr, ev.failed = true → ¬ G ev.call ev.before) :
    Exec (Prog.restrict H G) p s tr a t := by
  induction hex with
  | ret => exact .ret
  | call hstep _ ih =>
    exact .call ⟨hstep, h _ mem_cons_self⟩ (ih fun ev hev => h ev (mem_cons_of_mem _ hev))

/-! ## Components -/

section Embed

variable {C' : Type} {R' : C' → Type} {E' : Type}

/-- A program over the calls `C` as one over the calls `C'`: `g` turns the calls,
    `back` the answers. -/
def embed (g : C → C') (back : (c : C) → Except E' (R' (g c)) → Except E (R c)) :
    Prog C R E α → Prog C' R' E' α
  | .ret a => .ret a
  | .call c k => .call (g c) fun r => embed g back (k (back c r))

/-- The world as the embedded program sees it. -/
def pull (g : C → C') (back : (c : C) → Except E' (R' (g c)) → Except E (R c))
    (H : Handler C' R' E' S) : Handler C R E S :=
  fun c s r s' => ∃ r', H (g c) s r' s' ∧ back c r' = r

variable {g : C → C'} {back : (c : C) → Except E' (R' (g c)) → Except E (R c)}
  {H : Handler C' R' E' S} {I : C' → S → Prop}

variable {p : Prog C R E α}

theorem wp_embed {Q : α → S → Prop} {s : S} :
    wp H I Q (embed g back p) s ↔ wp (pull g back H) (fun c => I (g c)) Q p s := by
  induction p generalizing s with
  | ret a => exact Iff.rfl
  | call c k ih =>
    constructor
    · rintro ⟨hI, hk⟩
      refine ⟨hI, fun r s' hr => ?_⟩
      obtain ⟨r', hstep, rfl⟩ := hr
      exact (ih _).mp (hk r' s' hstep)
    · rintro ⟨hI, hk⟩
      exact ⟨hI, fun r' s' hstep => (ih _).mpr (hk _ s' ⟨r', hstep, rfl⟩)⟩

theorem yields_embed {P : α → Prop} (h : Yields P p) : Yields P (embed g back p) := by
  induction p with
  | ret a => exact h
  | call c k ih => exact fun r => ih _ (h _)

theorem issues_embed {P : C' → Prop} (h : Issues (fun c => P (g c)) p) :
    Issues P (embed g back p) := by
  induction p with
  | ret a => exact trivial
  | call c k ih => exact ⟨h.1, fun r => ih _ (h.2 _)⟩

end Embed

/-! ## Stages -/

/-- Run the stages one after the other, until one fails. -/
def inTurn : List (σ → Prog C R E (Except ε σ)) → σ → Prog C R E (Except ε σ)
  | [], l => .ret (.ok l)
  | p :: ps, l => (p l).andThen (inTurn ps)

/-- The two ends of a stage. -/
def ends (Q : τ → S → Prop) (F : ε → S → Prop) : Except ε τ → S → Prop
  | .ok l => Q l
  | .error e => F e

/-- Started with locals and in a state that satisfy `P`, the stage `p` ends in `Q`
    or fails in `F`. -/
def Stage (H : Handler C R E S) (I : C → S → Prop) (P : σ → S → Prop)
    (p : σ → Prog C R E (Except ε τ)) (Q : τ → S → Prop) (F : ε → S → Prop) : Prop :=
  ∀ l s, P l s → wp H I (ends Q F) (p l) s

namespace Stage

variable {H : Handler C R E S} {I : C → S → Prop} {P Q Q' : σ → S → Prop}
  {F : ε → S → Prop} {p : σ → Prog C R E (Except ε σ)}
  {ps : List (σ → Prog C R E (Except ε σ))}

theorem nil : Stage H I P (inTurn []) P F := fun _ _ h => h

theorem cons (hp : Stage H I P p Q F) (hps : Stage H I Q (inTurn ps) Q' F) :
    Stage H I P (inTurn (p :: ps)) Q' F := by
  intro l s h
  apply wp_andThen
  refine wp_post (fun r t hr => ?_) (hp l s h)
  cases r with
  | ok l' => exact hps l' t hr
  | error e => exact hr

/-- An invariant of every stage is one of the whole. -/
theorem all (h : ∀ p ∈ ps, Stage H I P p P F) : Stage H I P (inTurn ps) P F := by
  induction ps with
  | nil => exact nil
  | cons p ps ih =>
    exact cons (h p mem_cons_self) (ih fun q hq => h q (mem_cons_of_mem p hq))

theorem append {ps' : List (σ → Prog C R E (Except ε σ))} (hps : Stage H I P (inTurn ps) Q F)
    (hps' : Stage H I Q (inTurn ps') Q' F) : Stage H I P (inTurn (ps ++ ps')) Q' F := by
  induction ps generalizing P with
  | nil => exact fun l s h => hps' l s (hps l s h)
  | cons p ps ih =>
    -- What holds behind the first stage is what the rest of the first part needs.
    refine cons (Q := fun l s => wp H I (ends Q F) (inTurn ps l) s) (fun l s h => ?_)
      (ih fun l s h => h)
    have hwhole := hps l s h
    rw [inTurn, andThen, wp_bind] at hwhole
    refine wp_post (fun r t hr => ?_) hwhole
    cases r with
    | ok l' | error e => exact hr

end Stage

/-! ## Releases -/

section Releases

variable {H : Handler C R E S} {I : C → S → Prop} {p : Prog C R E (List ε)}
  {ps : List (Prog C R E (List ε))} {s : S}

variable {Q : List ε → S → Prop}

theorem wp_collect_nil (h : Q [] s) : wp H I Q (collect id ([] : List (Prog C R E (List ε)))) s := h

/-- One release after the other; the errors are joined. -/
theorem wp_collect_cons
    (h : wp H I (fun es t => wp H I (fun es' u => Q (es ++ es') u) (collect id ps) t) p s) :
    wp H I Q (collect id (p :: ps)) s := by
  rw [collect, wp_bind]
  refine wp_post (fun es t ht => ?_) h
  rw [wp_bind]
  exact ht

theorem wp_collect_idle (hp : Issues (Idle H) p)
    (h : ∀ es, wp H Any (fun es' u => Q (es ++ es') u) (collect id ps) s) :
    wp H Any Q (collect id (p :: ps)) s :=
  wp_collect_cons (wp_of_idle hp (yields_of_forall h p))

/-- Only one of the releases touches the world. -/
theorem wp_collect_at {i : Nat} (hp : ps[i]? = some p)
    (hidle : ∀ q ∈ ps.eraseIdx i, Issues (Idle H) q)
    (h : wp H Any (fun es u => ∀ es₁ es₂, Q (es₁ ++ es ++ es₂) u) p s) :
    wp H Any Q (collect id ps) s := by
  induction ps generalizing i Q with
  | nil => exact absurd hp nofun
  | cons q ps ih =>
    cases i with
    | zero =>
      obtain rfl : q = p := by simpa using hp
      refine wp_collect_cons (wp_post (fun es u hu => ?_) h)
      exact wp_of_idle (issues_collect hidle) (yields_of_forall (hu []) _)
    | succ i =>
      refine wp_collect_idle (hidle q mem_cons_self) fun es => ?_
      refine ih (by simpa using hp) (fun q' hq' => hidle q' (mem_cons_of_mem q hq')) ?_
      refine wp_post (fun es' u hu es₁ es₂ => ?_) h
      have hall := hu (es ++ es₁) es₂
      simpa only [append_assoc] using hall

end Releases

end CallProg.Prog
