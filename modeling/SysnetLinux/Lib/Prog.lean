/-
  SysnetLinux.Lib.Prog

  Programs over fallible calls.

  Each call is answered by a reply or by an error.  The world the calls act on is a relation
  (`Handler`), so a failed call may or may not have had an effect.

  - `Prog` is the syntax; of the loops, `forEach` leaves at the first error, `collect` joins them.
  - `Exec` is one execution with its trace: every call, the state it was issued in and whether it
    failed.
  - `Issues` and `Yields` say which calls a program can make and what it can return.
  - `wp` says that every call is issued in a state its invariant allows, and that every return
    meets the postcondition, whatever the world answers.
  - `faulty` is the world in which a call acts as a given function says or fails without effect,
    `flaky` one of which only some calls can fail, `answered` a world as long as no call fails.
  - `run`, `play`, `eval` and `execute` execute a program in such worlds.
-/

import Mathlib.Data.List.Basic

namespace CallProg

open List

/-- A program whose calls `c : C` are answered by `R c` or an error of type `E`. -/
inductive Prog (C : Type) (R : C → Type) (E : Type) (α : Type) : Type where
  | ret (a : α)
  | call (c : C) (k : Except E (R c) → Prog C R E α)

/-- The world: `H c s r s'` says that call `c` in state `s` may be answered by
    `r` and leave the state `s'`. -/
abbrev Handler (C : Type) (R : C → Type) (E S : Type) :=
  (c : C) → S → Except E (R c) → S → Prop

/-- One entry of a trace: the call, the state it was issued in, and whether it
    was answered by an error. -/
structure Event (C S : Type) where
  call : C
  before : S
  failed : Bool

/-- The states an execution visits: those its calls were issued in, and the last one. -/
def visited {C S : Type} (tr : List (Event C S)) (last : S) : List S :=
  tr.map Event.before ++ [last]

def isError {E α : Type} : Except E α → Bool
  | .ok _ => false
  | .error _ => true

namespace Prog

variable {C : Type} {R : C → Type} {E S α β γ ε : Type}

/-! ## Syntax -/

/-- Run `p`, then go on from its result. -/
def bind : Prog C R E α → (α → Prog C R E β) → Prog C R E β
  | .ret a, f => f a
  | .call c k, f => .call c fun r => (k r).bind f

/-- Run `p`, and go on only when it did not end in an error. -/
def andThen (p : Prog C R E (Except ε α)) (f : α → Prog C R E (Except ε β)) :
    Prog C R E (Except ε β) :=
  p.bind fun
    | .ok a => f a
    | .error e => .ret (.error e)

/-- A call made for its effect; the caller wraps its error. -/
def attempt (wrap : E → ε) (c : C) : Prog C R E (Except ε Unit) :=
  .call c fun
    | .ok _ => .ret (.ok ())
    | .error e => .ret (.error (wrap e))

/-- A loop that leaves at the first error. -/
def forEach (f : β → Prog C R E (Except ε Unit)) : List β → Prog C R E (Except ε Unit)
  | [] => .ret (.ok ())
  | x :: xs => (f x).andThen fun _ => forEach f xs

/-- A loop that goes on after an error; the errors of all rounds are joined. -/
def collect (f : β → Prog C R E (List ε)) : List β → Prog C R E (List ε)
  | [] => .ret []
  | x :: xs => (f x).bind fun es => (collect f xs).bind fun es' => .ret (es ++ es')

/-! ## Executions -/

/-- `Exec H p s tr a t`: started in `s`, the program `p` returns `a` in state
    `t`, and `tr` is the trace of its calls. -/
inductive Exec (H : Handler C R E S) : Prog C R E α → S → List (Event C S) → α → S → Prop
  | ret {a : α} {s : S} : Exec H (.ret a) s [] a s
  | call {c : C} {k : Except E (R c) → Prog C R E α} {s s' t : S} {r : Except E (R c)}
      {tr : List (Event C S)} {a : α} :
      H c s r s' → Exec H (k r) s' tr a t →
      Exec H (.call c k) s (⟨c, s, isError r⟩ :: tr) a t

variable {t : S} {a : α} {tr : List (Event C S)} {c : C} {p : Prog C R E α}
    {f : α → Prog C R E (Except ε β)} {Q : α → S → Prop} {P : C → Prop}
    {answer : (c : C) → S → Except E (R c) × S}

theorem exec_ret_iff {H : Handler C R E S} {s : S} {b : α} :
    Exec H (.ret a) s tr b t ↔ tr = [] ∧ b = a ∧ t = s := by
  constructor
  · rintro ⟨⟩
    exact ⟨rfl, rfl, rfl⟩
  · rintro ⟨rfl, rfl, rfl⟩
    exact .ret

theorem exec_call_iff {H : Handler C R E S} {s : S} {k : Except E (R c) → Prog C R E α} :
    Exec H (.call c k) s tr a t ↔
      ∃ r s' tr', H c s r s' ∧ Exec H (k r) s' tr' a t ∧ tr = ⟨c, s, isError r⟩ :: tr' := by
  constructor
  · rintro ⟨⟩
    exact ⟨_, _, _, by assumption, by assumption, rfl⟩
  · rintro ⟨r, s', tr', hstep, hrest, rfl⟩
    exact .call hstep hrest

theorem exec_of_bind {H : Handler C R E S} {s : S} {f : α → Prog C R E β} {b : β}
    (hex : Exec H (p.bind f) s tr b t) :
    ∃ tr₁ a u tr₂, Exec H p s tr₁ a u ∧ Exec H (f a) u tr₂ b t ∧ tr = tr₁ ++ tr₂ := by
  induction p generalizing s tr with
  | ret a => exact ⟨[], a, s, tr, .ret, hex, rfl⟩
  | call c k ih =>
    obtain ⟨r, s', tr', hstep, hrest, rfl⟩ := exec_call_iff.mp hex
    obtain ⟨tr₁, a, u, tr₂, hp, hf, rfl⟩ := ih r hrest
    exact ⟨_, a, u, tr₂, .call hstep hp, hf, rfl⟩

/-- Executions are carried along a simulation: `f` maps the states in which the
    invariant `J` holds, for the calls that satisfy `P`. -/
theorem Exec.simulate {S' : Type} {H : Handler C R E S} {G : Handler C R E S'} (f : S → S')
    (J : S → Prop) (P : C → Prop)
    (hstep : ∀ c s r s', P c → J s → H c s r s' → G c (f s) r (f s') ∧ J s') {s : S}
    (hex : Exec H p s tr a t) (hP : ∀ ev ∈ tr, P ev.call) (hJ : J s) :
    Exec G p (f s) (tr.map fun ev => ⟨ev.call, f ev.before, ev.failed⟩) a (f t) := by
  induction hex with
  | ret => exact .ret
  | call hcall _ ih =>
    obtain ⟨hcall', hJ'⟩ := hstep _ _ _ _ (hP _ mem_cons_self) hJ hcall
    exact .call hcall' (ih (fun ev hev => hP ev (mem_cons_of_mem _ hev)) hJ')

/-- Every call is issued in a state that `I` allows for it, and every return meets `Q`. -/
def wp (H : Handler C R E S) (I : C → S → Prop) (Q : α → S → Prop) :
    Prog C R E α → S → Prop
  | .ret a, s => Q a s
  | .call c k, s => I c s ∧ ∀ r s', H c s r s' → wp H I Q (k r) s'

/-- Nothing is asked of the state that a call is issued in. -/
abbrev Any (_ : C) (_ : S) : Prop := True

variable {H : Handler C R E S} {I : C → S → Prop} {s : S}

@[simp] theorem wp_ret (a : α) : wp H I Q (.ret a) s = Q a s := rfl

theorem wp_sound (hex : Exec H p s tr a t) (hwp : wp H I Q p s) :
    (∀ ev ∈ tr, I ev.call ev.before) ∧ Q a t := by
  induction hex with
  | ret => exact ⟨by simp, hwp⟩
  | call hstep _ ih =>
    obtain ⟨hI, hk⟩ := hwp
    obtain ⟨htr, hQ⟩ := ih (hk _ _ hstep)
    refine ⟨?_, hQ⟩
    intro ev hev
    rcases mem_cons.mp hev with rfl | hev
    · exact hI
    · exact htr ev hev

/-- A state property that the invariant and the postcondition both give holds in
    every state an execution visits. -/
theorem visited_of_wp {J : S → Prop} (hex : Exec H p s tr a t) (hwp : wp H (fun _ => J) Q p s)
    (hQ : Q a t → J t) :
    ∀ x ∈ visited tr t, J x := by
  obtain ⟨htr, hlast⟩ := wp_sound hex hwp
  intro x hx
  rcases mem_append.mp hx with hx | hx
  · obtain ⟨ev, hev, rfl⟩ := mem_map.mp hx
    exact htr ev hev
  · rw [mem_singleton.mp hx]
    exact hQ hlast

theorem wp_mono {I' : C → S → Prop} {Q' : α → S → Prop} (hI : ∀ c s, I c s → I' c s)
    (hQ : ∀ a s, Q a s → Q' a s) (h : wp H I Q p s) : wp H I' Q' p s := by
  induction p generalizing s with
  | ret a => exact hQ a s h
  | call c k ih => exact ⟨hI c s h.1, fun r s' hr => ih r (h.2 r s' hr)⟩

theorem wp_post {Q' : α → S → Prop} (hQ : ∀ a s, Q a s → Q' a s) (h : wp H I Q p s) :
    wp H I Q' p s :=
  wp_mono (fun _ _ hI => hI) hQ h

theorem wp_bind {Q : β → S → Prop} (p : Prog C R E α) (f : α → Prog C R E β) :
    wp H I Q (p.bind f) s ↔ wp H I (fun a t => wp H I Q (f a) t) p s := by
  induction p generalizing s with
  | ret a => exact Iff.rfl
  | call c k ih =>
    constructor
    · rintro ⟨hI, hk⟩
      exact ⟨hI, fun r s' hr => (ih r).mp (hk r s' hr)⟩
    · rintro ⟨hI, hk⟩
      exact ⟨hI, fun r s' hr => (ih r).mpr (hk r s' hr)⟩

/-- The rule for `andThen`: an error of the first part is the error of the whole. -/
theorem wp_andThen {Q : Except ε β → S → Prop} {p : Prog C R E (Except ε α)}
    (h : wp H I (fun r t => match r with
      | .ok a => wp H I Q (f a) t
      | .error e => Q (.error e) t) p s) :
    wp H I Q (p.andThen f) s := by
  rw [andThen, wp_bind]
  refine wp_post (fun r t hr => ?_) h
  cases r with
  | ok a | error e => exact hr

/-- The loop rule of `forEach`: `J done` holds before each round, where `done`
    are the items already handled without an error. -/
theorem wp_forEach {Q : Except ε Unit → S → Prop} {f : β → Prog C R E (Except ε Unit)}
    (J : List β → S → Prop) (xs : List β)
    (hstep : ∀ (done : List β) (x : β) (rest : List β) (t : S), xs = done ++ x :: rest → J done t →
      wp H I (fun r u => match r with
        | .ok _ => J (done ++ [x]) u
        | .error e => Q (.error e) u) (f x) t)
    (hdone : ∀ t, J xs t → Q (.ok ()) t) (h0 : J [] s) :
    wp H I Q (forEach f xs) s := by
  -- The induction walks the rest of the list; `done` is what lies behind it.
  suffices h : ∀ (rest done : List β) (t : S), xs = done ++ rest → J done t →
      wp H I Q (forEach f rest) t from h xs [] s rfl h0
  intro rest
  induction rest with
  | nil =>
    intro done t hxs hJ
    rw [append_nil] at hxs
    exact hdone t (hxs ▸ hJ)
  | cons x rest ih =>
    intro done t hxs hJ
    apply wp_andThen
    refine wp_post (fun r u hr => ?_) (hstep done x rest t hxs hJ)
    cases r with
    | ok a => exact ih (done ++ [x]) u (by simp [hxs]) hr
    | error e => exact hr

/-- The loop rule of `collect`: `J errs rest` holds before each round, where
    `errs` are the errors so far and `rest` the items still to do. -/
theorem wp_collect {f : β → Prog C R E (List ε)} (J : List ε → List β → S → Prop) (xs : List β)
    (hstep : ∀ errs x rest t, J errs (x :: rest) t →
      wp H I (fun es u => J (errs ++ es) rest u) (f x) t)
    (h0 : J [] xs s) :
    wp H I (fun es t => J es [] t) (collect f xs) s := by
  suffices h : ∀ (rest : List β) (errs : List ε) (t : S), J errs rest t →
      wp H I (fun es u => J (errs ++ es) [] u) (collect f rest) t by
    simpa using h xs [] s h0
  intro rest
  induction rest with
  | nil =>
    intro errs t hJ
    simpa [collect] using hJ
  | cons x rest ih =>
    intro errs t hJ
    rw [collect, wp_bind]
    refine wp_post (fun es u hu => ?_) (hstep errs x rest t hJ)
    rw [wp_bind]
    refine wp_post (fun es' v hv => ?_) (ih (errs ++ es) u hu)
    simpa [append_assoc] using hv

/-! ## The calls a program can make -/

/-- Every call that the program can make satisfies `P`. -/
def Issues (P : C → Prop) : Prog C R E α → Prop
  | .ret _ => True
  | .call c k => P c ∧ ∀ r, Issues P (k r)

theorem issues_call {k : Except E (R c) → Prog C R E α} (hc : P c)
    (herr : ∀ e, Issues P (k (.error e))) (hok : ∀ v, Issues P (k (.ok v))) :
    Issues P (.call c k) := by
  refine ⟨hc, fun r => ?_⟩
  cases r with
  | error e => exact herr e
  | ok v => exact hok v

theorem issues_bind {f : α → Prog C R E β} (hp : Issues P p) (hf : ∀ a, Issues P (f a)) :
    Issues P (p.bind f) := by
  induction p with
  | ret a => exact hf a
  | call c k ih => exact ⟨hp.1, fun r => ih r (hp.2 r)⟩

theorem Issues.mono {P' : C → Prop} (h : ∀ c, P c → P' c) (hp : Issues P p) : Issues P' p := by
  induction p with
  | ret a => exact trivial
  | call c k ih => exact ⟨h c hp.1, fun r => ih r (hp.2 r)⟩

theorem issues_andThen {p : Prog C R E (Except ε α)} (hp : Issues P p) (hf : ∀ a, Issues P (f a)) :
    Issues P (p.andThen f) := by
  refine issues_bind hp fun r => ?_
  cases r with
  | ok a => exact hf a
  | error e => exact trivial

theorem issues_collect {f : β → Prog C R E (List ε)} {xs : List β} (h : ∀ x ∈ xs, Issues P (f x)) :
    Issues P (collect f xs) := by
  induction xs with
  | nil => exact trivial
  | cons x xs ih =>
    refine issues_bind (h x mem_cons_self) fun _ => issues_bind ?_ fun _ => trivial
    exact ih fun y hy => h y (mem_cons_of_mem x hy)

/-- A program that keeps an assertion with each of its calls. -/
theorem wp_steady {A : S → Prop} (hp : Issues P p) (hA : A s)
    (hstep : ∀ c s, P c → A s → I c s ∧ ∀ r u, H c s r u → A u) :
    wp H I (fun _ t => A t) p s := by
  induction p generalizing s with
  | ret a => exact hA
  | call c k ih =>
    obtain ⟨hI, hnext⟩ := hstep c s hp.1 hA
    exact ⟨hI, fun r u hu => ih r (hp.2 r) (hnext r u hu)⟩

theorem Exec.issued (hex : Exec H p s tr a t) (hp : Issues P p) : ∀ ev ∈ tr, P ev.call := by
  induction hex with
  | ret => simp
  | call _ _ ih =>
    intro ev hev
    rcases mem_cons.mp hev with rfl | hev
    · exact hp.1
    · exact ih (hp.2 _) ev hev

/-! ## What a program can return -/

/-- Every value that the program can return satisfies `P`. -/
def Yields (P : α → Prop) : Prog C R E α → Prop
  | .ret a => P a
  | .call _ k => ∀ r, Yields P (k r)

/-- Every value that the program can return without an error satisfies `P`. -/
abbrev Returns (P : α → Prop) (p : Prog C R E (Except ε α)) : Prop :=
  Yields (fun r => ∀ a, r = .ok a → P a) p

theorem yields_call {P : α → Prop} {k : Except E (R c) → Prog C R E α}
    (herr : ∀ e, Yields P (k (.error e))) (hok : ∀ v, Yields P (k (.ok v))) :
    Yields P (.call c k) := by
  rintro (e | v)
  · exact herr e
  · exact hok v

theorem yields_bind {P : β → Prop} {Q : α → Prop} {f : α → Prog C R E β} (hp : Yields Q p)
    (hf : ∀ a, Q a → Yields P (f a)) : Yields P (p.bind f) := by
  induction p with
  | ret a => exact hf a hp
  | call c k ih => exact fun r => ih r (hp r)

theorem Yields.mono {P Q : α → Prop} (h : ∀ a, P a → Q a) (hp : Yields P p) : Yields Q p := by
  induction p with
  | ret a => exact h a hp
  | call c k ih => exact fun r => ih r (hp r)

theorem yields_of_forall {P : α → Prop} (h : ∀ a, P a) (p : Prog C R E α) : Yields P p := by
  induction p with
  | ret a => exact h a
  | call c k ih => exact fun r => ih r

theorem wp_yields {P : α → Prop} (hp : Yields P p) (h : wp H I Q p s) :
    wp H I (fun a t => P a ∧ Q a t) p s := by
  induction p generalizing s with
  | ret a => exact ⟨hp, h⟩
  | call c k ih => exact ⟨h.1, fun r t hstep => ih r (hp r) (h.2 r t hstep)⟩

theorem returns_error {Y : α → Prop} (e : ε) :
    Returns Y (.ret (.error e) : Prog C R E (Except ε α)) := fun _ h => by cases h

theorem returns_ok {Y : α → Prop} (h : Y a) :
    Returns Y (.ret (.ok a) : Prog C R E (Except ε α)) := by
  rintro b hb
  obtain rfl := Except.ok.inj hb
  exact h

theorem returns_andThen {X : α → Prop} {Y : β → Prop} {p : Prog C R E (Except ε α)}
    (hp : Returns X p) (hf : ∀ a, X a → Returns Y (f a)) :
    Returns Y (p.andThen f) := by
  refine yields_bind hp fun r hr => ?_
  cases r with
  | ok a => exact hf a (hr a rfl)
  | error e => exact returns_error e

/-! ## Calls that are answered without an error -/

/-- The world `H` as long as no call fails. -/
def answered (H : Handler C R E S) : Handler C R E S :=
  fun c s r s' => isError r = false ∧ H c s r s'

theorem Exec.answered_of_no_fault (hex : Exec H p s tr a t) (h : ∀ ev ∈ tr, ev.failed = false) :
    Exec (answered H) p s tr a t := by
  induction hex with
  | ret => exact .ret
  | call hstep _ ih =>
    exact .call ⟨h _ mem_cons_self, hstep⟩ (ih fun ev hev => h ev (mem_cons_of_mem _ hev))

theorem wp_call_answered (c : C) (k : Except E (R c) → Prog C R E α) :
    wp (answered H) I Q (.call c k) s ↔
      I c s ∧ ∀ v s', H c s (.ok v) s' → wp (answered H) I Q (k (.ok v)) s' := by
  constructor
  · rintro ⟨hI, hk⟩
    exact ⟨hI, fun v s' hv => hk _ _ ⟨rfl, hv⟩⟩
  · rintro ⟨hI, hk⟩
    refine ⟨hI, fun r s' hr => ?_⟩
    obtain ⟨hok, hstep⟩ := hr
    cases r with
    | ok v => exact hk v s' hstep
    | error e => cases hok

/-! ## Calls that act or fail without effect -/

/-- The world in which a call acts as `act` says or fails and changes nothing. -/
def faulty (act : (c : C) → S → R c × S) : Handler C R E S :=
  fun c s r s' => (r = .ok (act c s).1 ∧ s' = (act c s).2) ∨ (∃ e, r = .error e ∧ s' = s)

variable {act : (c : C) → S → R c × S}

theorem faulty_ok (c : C) (s : S) :
    faulty (E := E) act c s (.ok (act c s).1) (act c s).2 := .inl ⟨rfl, rfl⟩

theorem faulty_error (c : C) (s : S) (e : E) : faulty act c s (.error e) s :=
  .inr ⟨e, rfl, rfl⟩

theorem wp_call_faulty (c : C) (k : Except E (R c) → Prog C R E α) :
    wp (faulty act) I Q (.call c k) s ↔
      I c s ∧ wp (faulty act) I Q (k (.ok (act c s).1)) (act c s).2 ∧
        ∀ e, wp (faulty act) I Q (k (.error e)) s := by
  constructor
  · rintro ⟨hI, hk⟩
    exact ⟨hI, hk _ _ (faulty_ok c s), fun e => hk _ _ (faulty_error c s e)⟩
  · rintro ⟨hI, hok, herr⟩
    refine ⟨hI, fun r s' hr => ?_⟩
    rcases hr with ⟨rfl, rfl⟩ | ⟨e, rfl, rfl⟩
    · exact hok
    · exact herr e

/-- The world of a function that answers every call, in which the calls that `mayFail`
    lists can also fail and change nothing. -/
def flaky (mayFail : C → Prop) (answer : (c : C) → S → Except E (R c) × S) : Handler C R E S :=
  fun c s r s' => answer c s = (r, s') ∨ mayFail c ∧ isError r = true ∧ s' = s

theorem wp_call_flaky {mayFail : C → Prop} {answer : (c : C) → S → Except E (R c) × S} (c : C)
    (k : Except E (R c) → Prog C R E α) :
    wp (flaky mayFail answer) I Q (.call c k) s ↔
      I c s ∧ wp (flaky mayFail answer) I Q (k (answer c s).1) (answer c s).2 ∧
        (mayFail c → ∀ e, wp (flaky mayFail answer) I Q (k (.error e)) s) := by
  constructor
  · rintro ⟨hI, hk⟩
    exact ⟨hI, hk _ _ (.inl rfl), fun hc e => hk _ _ (.inr ⟨hc, rfl, rfl⟩)⟩
  · rintro ⟨hI, hok, herr⟩
    refine ⟨hI, fun r s' hr => ?_⟩
    rcases hr with hanswer | ⟨hc, hfailed, rfl⟩
    · rw [hanswer] at hok
      exact hok
    · cases r with
      | ok v => cases hfailed
      | error e => exact herr hc e

/-- A loop of single calls: the states it visits are those after a prefix of the calls, and it ends
    in an error after a proper prefix or without one after all of them. -/
theorem wp_forEach_attempt {Q : Except ε Unit → S → Prop}
    (mk : β → C) (wrap : β → E → ε) (xs : List β)
    (hI : ∀ done x rest, xs = done ++ x :: rest →
      I (mk x) (done.foldl (fun t y => (act (mk y) t).2) s))
    (herr : ∀ done x rest e, xs = done ++ x :: rest →
      Q (.error (wrap x e)) (done.foldl (fun t y => (act (mk y) t).2) s))
    (hok : Q (.ok ()) (xs.foldl (fun t y => (act (mk y) t).2) s)) :
    wp (faulty (E := E) act) I Q (forEach (fun x => attempt (wrap x) (mk x)) xs) s := by
  apply wp_forEach (fun done t => t = done.foldl (fun t y => (act (mk y) t).2) s)
  · rintro done x rest t hxs rfl
    rw [attempt, wp_call_faulty]
    refine ⟨hI done x rest hxs, ?_, fun e => herr done x rest e hxs⟩
    simp
  · rintro t rfl
    exact hok
  · rfl

/-- Execution under a list of faults: each call takes the next entry, `some e`
    for a failure; when the list is used up every call succeeds. -/
def run (act : (c : C) → S → R c × S) :
    Prog C R E α → List (Option E) → S → List (Event C S) × α × S
  | .ret a, _, s => ([], a, s)
  | .call c k, some e :: fs, s =>
    let rest := run act (k (.error e)) fs s
    (⟨c, s, true⟩ :: rest.1, rest.2)
  | .call c k, none :: fs, s =>
    let rest := run act (k (.ok (act c s).1)) fs (act c s).2
    (⟨c, s, false⟩ :: rest.1, rest.2)
  | .call c k, [], s =>
    let rest := run act (k (.ok (act c s).1)) [] (act c s).2
    (⟨c, s, false⟩ :: rest.1, rest.2)

/-- What `run` computes is an execution. -/
theorem run_exec (act : (c : C) → S → R c × S) (p : Prog C R E α) (fs : List (Option E)) (s : S) :
    Exec (faulty act) p s (run act p fs s).1 (run act p fs s).2.1 (run act p fs s).2.2 := by
  induction p generalizing fs s with
  | ret a => exact .ret
  | call c k ih =>
    match fs with
    | [] => exact .call (faulty_ok c s) (ih _ _ _)
    | none :: fs => exact .call (faulty_ok c s) (ih _ _ _)
    | some e :: fs => exact .call (faulty_error c s e) (ih _ _ _)

theorem run_nil_exec (act : (c : C) → S → R c × S) (p : Prog C R E α) (s : S) :
    Exec (answered (faulty act)) p s (run act p [] s).1 (run act p [] s).2.1
      (run act p [] s).2.2 := by
  induction p generalizing s with
  | ret a => exact .ret
  | call c k ih => exact .call ⟨rfl, faulty_ok c s⟩ (ih _ _)

/-! ## Scripted worlds -/

/-- Execution in a world whose answer to a call is chosen by the next entry of a
    script, and by `rest` once the script is used up. -/
def play {F : Type} (answer : (c : C) → F → S → Except E (R c) × S) (rest : F) :
    Prog C R E α → List F → S → List (Event C S) × α × S
  | .ret a, _, s => ([], a, s)
  | .call c k, [], s =>
    let reply := answer c rest s
    let tail := play answer rest (k reply.1) [] reply.2
    (⟨c, s, isError reply.1⟩ :: tail.1, tail.2)
  | .call c k, f :: fs, s =>
    let reply := answer c f s
    let tail := play answer rest (k reply.1) fs reply.2
    (⟨c, s, isError reply.1⟩ :: tail.1, tail.2)

/-- What `play` computes is an execution, if the world allows its answers. -/
theorem play_exec {F : Type} {answer : (c : C) → F → S → Except E (R c) × S} {rest : F}
    (h : ∀ c f s, H c s (answer c f s).1 (answer c f s).2) (p : Prog C R E α) (fs : List F)
    (s : S) :
    Exec H p s (play answer rest p fs s).1 (play answer rest p fs s).2.1
      (play answer rest p fs s).2.2 := by
  induction p generalizing fs s with
  | ret a => exact .ret
  | call c k ih =>
    match fs with
    | [] => exact .call (h c rest s) (ih _ _ _)
    | f :: fs => exact .call (h c f s) (ih _ _ _)

/-- The answers of a `flaky` world: `some e` makes a call fail that can. -/
def flakyAnswer (mayFail : C → Prop) [DecidablePred mayFail]
    (answer : (c : C) → S → Except E (R c) × S) (c : C) (f : Option E) (s : S) :
    Except E (R c) × S :=
  match f with
  | none => answer c s
  | some e => if mayFail c then (.error e, s) else answer c s

theorem play_flaky (mayFail : C → Prop) [DecidablePred mayFail]
    (answer : (c : C) → S → Except E (R c) × S) (p : Prog C R E α) (fs : List (Option E)) (s : S) :
    let ended := play (flakyAnswer mayFail answer) none p fs s
    Exec (flaky mayFail answer) p s ended.1 ended.2.1 ended.2.2 := by
  refine play_exec (fun c f s => ?_) p fs s
  cases f with
  | none => exact .inl rfl
  | some e =>
    unfold flakyAnswer
    dsimp only
    split
    · rename_i hc
      exact .inr ⟨hc, rfl, rfl⟩
    · exact .inl rfl

/-! ## Worlds with one answer -/

/-- Execution in a world that has one answer to each call. -/
def eval (answer : (c : C) → S → Except E (R c) × S) : Prog C R E α → S → α × S
  | .ret a, s => (a, s)
  | .call c k, s => eval answer (k (answer c s).1) (answer c s).2

theorem eval_bind (answer : (c : C) → S → Except E (R c) × S) (p : Prog C R E α)
    (f : α → Prog C R E β) (s : S) :
    eval answer (p.bind f) s = eval answer (f (eval answer p s).1) (eval answer p s).2 := by
  induction p generalizing s with
  | ret a => rfl
  | call c k ih => exact ih _ _

/-- Execution in a world that has at most one answer to each call. -/
def execute (answer : (c : C) → S → Option (Except E (R c) × S)) : Prog C R E α → S → Option (α × S)
  | .ret a, s => some (a, s)
  | .call c k, s => (answer c s).bind fun x => execute answer (k x.1) x.2

theorem execute_exec {answer : (c : C) → S → Option (Except E (R c) × S)}
    (h : ∀ c s r s', answer c s = some (r, s') → H c s r s') {s : S}
    (hrun : execute answer p s = some (a, t)) : ∃ tr, Exec H p s tr a t := by
  induction p generalizing s with
  | ret b =>
    obtain ⟨rfl, rfl⟩ := Prod.ext_iff.mp (Option.some.inj hrun)
    exact ⟨[], .ret⟩
  | call c k ih =>
    obtain ⟨x, hx, hrest⟩ := Option.bind_eq_some_iff.mp hrun
    obtain ⟨tr, htr⟩ := ih x.1 hrest
    exact ⟨_, .call (h c s x.1 x.2 hx) htr⟩

/-- The world of a function that answers every call. -/
def replies (answer : (c : C) → S → Except E (R c) × S) : Handler C R E S :=
  fun c s r s' => answer c s = (r, s')

/-- Execution with its trace, in a world that has one answer to each call. -/
def traced (answer : (c : C) → S → Except E (R c) × S) (p : Prog C R E α) (s : S) :
    List (Event C S) × α × S :=
  play (fun c (_ : Unit) s => answer c s) () p [] s

theorem traced_exec (answer : (c : C) → S → Except E (R c) × S) (p : Prog C R E α) (s : S) :
    Exec (replies answer) p s (traced answer p s).1 (traced answer p s).2.1
      (traced answer p s).2.2 :=
  play_exec (fun _ _ _ => rfl) p [] s

theorem traced_eval (answer : (c : C) → S → Except E (R c) × S) (p : Prog C R E α) (s : S) :
    (traced answer p s).2 = eval answer p s := by
  induction p generalizing s with
  | ret a => rfl
  | call c k ih => exact ih _ _

theorem eval_attempt_ok {wrap : E → ε} {s : S} {v : R c} (h : answer c s = (.ok v, t)) :
    eval answer (attempt wrap c) s = (.ok (), t) := by
  rw [attempt, eval, h]
  rfl

theorem eval_attempt_eq_ok {wrap : E → ε} {s : S}
    (h : eval answer (attempt wrap c) s = (.ok (), t)) : ∃ v, answer c s = (.ok v, t) := by
  rw [attempt, eval] at h
  cases hanswer : answer c s with
  | mk r u =>
    rw [hanswer] at h
    cases r with
    | error e => cases h
    | ok v =>
      obtain rfl : u = t := (Prod.ext_iff.mp h).2
      exact ⟨v, rfl⟩

theorem eval_andThen_ok {answer : (c : C) → S → Except E (R c) × S} {p : Prog C R E (Except ε α)}
    {s : S} (h : eval answer p s = (.ok a, t)) :
    eval answer (p.andThen f) s = eval answer (f a) t := by
  rw [andThen, eval_bind, h]

/-- A sequence succeeds only if both parts do. -/
theorem eval_andThen_eq_ok {answer : (c : C) → S → Except E (R c) × S} {p : Prog C R E (Except ε α)}
    {s u : S} {b : β} (h : eval answer (p.andThen f) s = (.ok b, u)) :
    ∃ a t, eval answer p s = (.ok a, t) ∧ eval answer (f a) t = (.ok b, u) := by
  rw [andThen, eval_bind] at h
  cases hp : eval answer p s with
  | mk r t =>
    rw [hp] at h
    cases r with
    | error e => cases h
    | ok a => exact ⟨a, t, rfl, h⟩

end Prog
end CallProg
