/-
  SysnetLinux.Lib.Threads

  Programs that run at the same time.

  A step starts an operation in a new thread or makes the next call of one thread; a thread whose
  program has returned stays as it is.  The world sees which thread a call comes from, so a lock
  is a call like any other.

  - `Reach` are the configurations that steps lead to, if each of them is allowed.
  - `relies` is the rule for one thread: whatever the others do (`Rely`), its calls are issued
    where they may be, its steps do no more than promised (`Guar`), and its result holds from its
    return on.
  - `Reach.relied`: if every operation follows the rule and what one thread promises is what the
    others rely on, then every thread follows it in every configuration.
  - `schedule` executes an explicit interleaving.
-/

import SysnetLinux.Lib.Prog

namespace CallProg.Threads

variable {ι L C : Type} {R : C → Type} {E S α β : Type}

/-! ## Configurations -/

/-- Threads `ι` that perform operations `L`, and the state they share. -/
structure Config (ι L C : Type) (R : C → Type) (E α S : Type) where
  threads : ι → Option (L × Prog C R E α)
  shared : S

inductive Action (ι L C : Type) (R : C → Type) (E : Type) where
  | start (i : ι) (l : L)
  | call (i : ι) (c : C) (r : Except E (R c))

namespace Config

variable [DecidableEq ι]

/-- No thread has been started. -/
def initial (s : S) : Config ι L C R E α S := ⟨fun _ => none, s⟩

/-- Thread `i` goes on with `p`. -/
def goOn (cfg : Config ι L C R E α S) (i : ι) (l : L) (p : Prog C R E α) (s : S) :
    Config ι L C R E α S :=
  ⟨Function.update cfg.threads i (some (l, p)), s⟩

def Returned (cfg : Config ι L C R E α S) : Prop :=
  ∀ i l p, cfg.threads i = some (l, p) → ∃ a, p = .ret a

theorem goOn_threads_self (cfg : Config ι L C R E α S) (i : ι) (l : L) (p : Prog C R E α)
    (s : S) : (cfg.goOn i l p s).threads i = some (l, p) := Function.update_self ..

theorem goOn_threads_of_ne (cfg : Config ι L C R E α S) {i j : ι} (hne : j ≠ i) (l : L)
    (p : Prog C R E α) (s : S) : (cfg.goOn i l p s).threads j = cfg.threads j :=
  Function.update_of_ne hne ..

/-- The threads after one has gone on: that one, and the others as they were. -/
theorem threads_goOn {cfg : Config ι L C R E α S} {i j : ι} {l l' : L} {p p' : Prog C R E α}
    {s : S} (h : (cfg.goOn i l p s).threads j = some (l', p')) :
    (j = i ∧ l' = l ∧ p' = p) ∨ (j ≠ i ∧ cfg.threads j = some (l', p')) := by
  by_cases hj : j = i
  · subst hj
    rw [goOn_threads_self] at h
    obtain ⟨rfl, rfl⟩ := Prod.ext_iff.mp (Option.some.inj h)
    exact .inl ⟨rfl, rfl, rfl⟩
  · rw [goOn_threads_of_ne cfg hj] at h
    exact .inr ⟨hj, h⟩

end Config

variable [DecidableEq ι]

/-- One step, with the operations `code` and a world that sees the thread. -/
inductive Step (code : L → Prog C R E α) (H : ι → Handler C R E S) :
    Action ι L C R E → Config ι L C R E α S → Config ι L C R E α S → Prop
  | start {cfg : Config ι L C R E α S} {i : ι} {l : L} :
      cfg.threads i = none → Step code H (.start i l) cfg (cfg.goOn i l (code l) cfg.shared)
  | call {cfg : Config ι L C R E α S} {i : ι} {l : L} {c : C}
      {k : Except E (R c) → Prog C R E α} {r : Except E (R c)} {s : S} :
      cfg.threads i = some (l, .call c k) → H i c cfg.shared r s →
      Step code H (.call i c r) cfg (cfg.goOn i l (k r) s)

/-- The configurations that allowed steps lead to. -/
inductive Reach (code : L → Prog C R E α) (H : ι → Handler C R E S)
    (allowed : Config ι L C R E α S → Action ι L C R E → Prop) (s₀ : S) :
    Config ι L C R E α S → Prop
  | initial : Reach code H allowed s₀ (Config.initial s₀)
  | step {cfg cfg' : Config ι L C R E α S} {a : Action ι L C R E} :
      Reach code H allowed s₀ cfg → allowed cfg a → Step code H a cfg cfg' →
      Reach code H allowed s₀ cfg'

theorem Config.goOn_goOn (cfg : Config ι L C R E α S) (i : ι) (l : L) (p q : Prog C R E α)
    (s t : S) : (cfg.goOn i l p s).goOn i l q t = cfg.goOn i l q t := by
  unfold Config.goOn
  rw [Function.update_idem]

variable {code : L → Prog C R E α} {allowed : Config ι L C R E α S → Action ι L C R E → Prop}
    {s₀ : S} {i : ι} {p : Prog C R E α} {a : α} {cfg cfg' : Config ι L C R E α S}
    {answer : ι → (c : C) → S → Option (Except E (R c) × S)}

/-- A thread can run to its end while the others wait, in a world `W` of calls it may make. -/
theorem Reach.exec {H : ι → Handler C R E S} {W : Handler C R E S} {l : L}
    (hcalls : ∀ cfg p c r s, cfg.threads i = some (l, p) → W c cfg.shared r s →
      allowed cfg (.call i c r) ∧ H i c cfg.shared r s) {s t : S}
    {tr : List (Event C S)} (hex : Prog.Exec W p s tr a t)
    (h : Reach code H allowed s₀ (cfg.goOn i l p s)) :
    Reach code H allowed s₀ (cfg.goOn i l (.ret a) t) := by
  induction hex with
  | ret => exact h
  | call hcall _ ih =>
    refine ih ?_
    have hself := Config.goOn_threads_self cfg i l
    obtain ⟨hallowed, hH⟩ := hcalls _ _ _ _ _ (hself _ _) hcall
    have hstep := h.step hallowed (.call (hself _ _) hH)
    rw [Config.goOn_goOn] at hstep
    exact hstep

/-! ## Relying on the other threads -/

/-- Between its steps the state changes by `Rely`; every call is issued in a state that `I`
    allows for it, every step is one of `Guar`, and from the return on `Q` holds. -/
def relies (H : Handler C R E S) (Rely Guar : S → S → Prop) (I : C → S → Prop)
    (Q : α → S → Prop) : Prog C R E α → S → Prop
  | .ret a, s => ∀ t, Rely s t → Q a t
  | .call c k, s => ∀ t, Rely s t → I c t ∧
      ∀ r u, H c t r u → Guar t u ∧ relies H Rely Guar I Q (k r) u

variable {H : Handler C R E S} {Rely Guar : S → S → Prop} {I : C → S → Prop}
  {Q : α → S → Prop} {s t : S}

theorem relies_stable (htrans : ∀ a b c, Rely a b → Rely b c → Rely a c)
    (h : relies H Rely Guar I Q p s) (hst : Rely s t) : relies H Rely Guar I Q p t := by
  cases p with
  | ret a | call c k => exact fun u htu => h u (htrans s t u hst htu)

theorem relies_mono {G : S → S → Prop} {J : C → S → Prop} {P : α → S → Prop}
    (hG : ∀ s t, Guar s t → G s t) (hJ : ∀ c s, I c s → J c s) (hP : ∀ a s, Q a s → P a s)
    (h : relies H Rely Guar I Q p s) :
    relies H Rely G J P p s := by
  induction p generalizing s with
  | ret a => exact fun t hst => hP a t (h t hst)
  | call c k ih =>
    intro t hst
    obtain ⟨hI, hk⟩ := h t hst
    exact ⟨hJ c t hI, fun r u hu => ⟨hG t u (hk r u hu).1, ih r (hk r u hu).2⟩⟩

/-- The frame rule: what all threads keep still holds at the return. -/
theorem relies_frame {X : S → Prop} (hrely : ∀ s t, Rely s t → X s → X t)
    (hguar : ∀ s t, Guar s t → X s → X t) (hX : X s) (h : relies H Rely Guar I Q p s) :
    relies H Rely Guar I (fun a t => Q a t ∧ X t) p s := by
  induction p generalizing s with
  | ret a => exact fun t hst => ⟨h t hst, hrely s t hst hX⟩
  | call c k ih =>
    intro t hst
    obtain ⟨hI, hk⟩ := h t hst
    refine ⟨hI, fun r u hu => ⟨(hk r u hu).1, ?_⟩⟩
    exact ih r (hguar t u (hk r u hu).1 (hrely s t hst hX)) (hk r u hu).2

/-- A return behind an assertion that the other threads keep. -/
theorem relies_ret {P : S → Prop} (hP : P s) (hstable : ∀ s t, Rely s t → P s → P t)
    (h : ∀ t, P t → Q a t) : relies H Rely Guar I Q (.ret a) s :=
  fun t hst => h t (hstable s t hst hP)

/-- A call behind an assertion that the other threads keep. -/
theorem relies_call {P : S → Prop} {c : C} {k : Except E (R c) → Prog C R E α} (hP : P s)
    (hstable : ∀ s t, Rely s t → P s → P t)
    (h : ∀ t, P t → I c t ∧ ∀ r u, H c t r u → Guar t u ∧ relies H Rely Guar I Q (k r) u) :
    relies H Rely Guar I Q (.call c k) s :=
  fun t hst => h t (hstable s t hst hP)

theorem relies_bind {P : β → S → Prop} {f : α → Prog C R E β} (hrefl : ∀ s, Rely s s)
    (h : relies H Rely Guar I (fun a t => relies H Rely Guar I P (f a) t) p s) :
    relies H Rely Guar I P (p.bind f) s := by
  induction p generalizing s with
  | ret a => exact h s (hrefl s)
  | call c k ih =>
    intro t hst
    obtain ⟨hI, hk⟩ := h t hst
    exact ⟨hI, fun r u hu => ⟨(hk r u hu).1, ih r (hk r u hu).2⟩⟩

theorem relies_then {P : β → S → Prop} {f : α → Prog C R E β} (hrefl : ∀ s, Rely s s)
    (hp : relies H Rely Guar I Q p s) (hf : ∀ a t, Q a t → relies H Rely Guar I P (f a) t) :
    relies H Rely Guar I P (p.bind f) s :=
  relies_bind hrefl (relies_mono (fun _ _ hG => hG) (fun _ _ hI => hI) hf hp)

/-- The rule for `andThen`: an error of the first part is the error of the whole. -/
theorem relies_andThen {ε : Type} {X : Except ε α → S → Prop} {P : Except ε β → S → Prop}
    {p : Prog C R E (Except ε α)} {f : α → Prog C R E (Except ε β)} (hrefl : ∀ s, Rely s s)
    (hp : relies H Rely Guar I X p s)
    (hf : ∀ a t, X (.ok a) t → relies H Rely Guar I P (f a) t)
    (herr : ∀ e t, X (.error e) t → relies H Rely Guar I P (.ret (.error e)) t) :
    relies H Rely Guar I P (p.andThen f) s := by
  refine relies_then hrefl hp fun r t hr => ?_
  cases r with
  | ok a => exact hf a t hr
  | error e => exact herr e t hr

/-- A program that keeps an assertion with each of its calls. -/
theorem relies_steady {P : C → Prop} {Y : α → Prop} {A : S → Prop} (hp : Prog.Issues P p)
    (hY : Prog.Yields Y p) (hA : A s) (hrely : ∀ s t, Rely s t → A s → A t)
    (hstep : ∀ c s, P c → A s → I c s ∧ ∀ r u, H c s r u → Guar s u ∧ A u) :
    relies H Rely Guar I (fun a t => Y a ∧ A t) p s := by
  induction p generalizing s with
  | ret a => exact fun t hst => ⟨hY, hrely s t hst hA⟩
  | call c k ih =>
    intro t hst
    obtain ⟨hI, hnext⟩ := hstep c t hp.1 (hrely s t hst hA)
    exact ⟨hI, fun r u hu => ⟨(hnext r u hu).1, ih r (hp.2 r) (hY r) (hnext r u hu).2⟩⟩

/-- What is relied on in a run on its own. -/
theorem relies_exec (hrefl : ∀ s, Rely s s) {tr : List (Event C S)} (hex : Prog.Exec H p s tr a t)
    (h : relies H Rely Guar I Q p s) : Q a t := by
  induction hex with
  | ret => exact h _ (hrefl _)
  | call hstep _ ih => exact ih ((h _ (hrefl _)).2 _ _ hstep).2

/-- If every operation follows the rule where it is started, what it promises keeps the
    invariant and is what the other threads rely on, then in every configuration the
    invariant holds and every thread follows the rule. -/
theorem Reach.relied {H : ι → Handler C R E S} (W : ι → L → Handler C R E S)
    (Rely Guar : ι → S → S → Prop) (I : ι → L → C → S → Prop) (Q : ι → L → α → S → Prop)
    (J : S → Prop) (hworld : ∀ cfg i l c k r s, allowed cfg (.call i c r) →
      cfg.threads i = some (l, .call c k) → H i c cfg.shared r s → W i l c cfg.shared r s)
    (hrefl : ∀ i s, Rely i s s) (htrans : ∀ i a b c, Rely i a b → Rely i b c → Rely i a c)
    (hothers : ∀ i j s t, i ≠ j → J s → Guar i s t → Rely j s t)
    (hkeeps : ∀ i s t, J s → Guar i s t → J t) (h₀ : J s₀)
    (hstart : ∀ cfg i l, allowed cfg (.start i l) → cfg.threads i = none → J cfg.shared →
      relies (W i l) (Rely i) (Guar i) (I i l) (Q i l) (code l) cfg.shared)
    (h : Reach code H allowed s₀ cfg) :
    J cfg.shared ∧ ∀ i l p, cfg.threads i = some (l, p) →
      relies (W i l) (Rely i) (Guar i) (I i l) (Q i l) p cfg.shared := by
  induction h with
  | initial => exact ⟨h₀, fun i l p hp => by cases hp⟩
  | @step cfg _ _ _ hallowed hstep ih =>
    obtain ⟨hJ, hthreads⟩ := ih
    cases hstep with
    | start hfree =>
      refine ⟨hJ, fun j l' p' hj => ?_⟩
      rcases Config.threads_goOn hj with ⟨rfl, rfl, rfl⟩ | ⟨-, hj⟩
      · exact hstart cfg _ _ hallowed hfree hJ
      · exact hthreads j l' p' hj
    | call hcall hH =>
      obtain ⟨-, hk⟩ := hthreads _ _ _ hcall _ (hrefl _ _)
      obtain ⟨hguar, hrest⟩ := hk _ _ (hworld _ _ _ _ _ _ _ hallowed hcall hH)
      refine ⟨hkeeps _ _ _ hJ hguar, fun j l' p' hj => ?_⟩
      rcases Config.threads_goOn hj with ⟨rfl, rfl, rfl⟩ | ⟨hne, hj⟩
      · exact hrest
      · exact relies_stable (htrans j) (hthreads j l' p' hj)
          (hothers _ j _ _ (Ne.symm hne) hJ hguar)

/-! ## Explicit interleavings -/

/-- An entry of a schedule: start an operation, or make the next call of a thread. -/
inductive Turn (ι L : Type) where
  | start (i : ι) (l : L)
  | go (i : ι)
  deriving DecidableEq, Repr

/-- One turn, if it can be taken; `answer` has no answer to a call that has to wait. -/
def Config.turn (code : L → Prog C R E α)
    (answer : ι → (c : C) → S → Option (Except E (R c) × S)) (cfg : Config ι L C R E α S) :
    Turn ι L → Option (Config ι L C R E α S)
  | .start i l =>
    match cfg.threads i with
    | none => some (cfg.goOn i l (code l) cfg.shared)
    | some _ => none
  | .go i =>
    match cfg.threads i with
    | some (l, .call c k) =>
      (answer i c cfg.shared).map fun x => cfg.goOn i l (k x.1) x.2
    | _ => none

def Config.schedule (code : L → Prog C R E α)
    (answer : ι → (c : C) → S → Option (Except E (R c) × S)) (cfg : Config ι L C R E α S) :
    List (Turn ι L) → Option (Config ι L C R E α S)
  | [] => some cfg
  | t :: ts => (cfg.turn code answer t).bind fun cfg' => cfg'.schedule code answer ts

/-- The turn in which an action is taken. -/
def Action.turn : Action ι L C R E → Turn ι L
  | .start i l => .start i l
  | .call i _ _ => .go i

theorem turn_step {H : ι → Handler C R E S}
    (hanswer : ∀ i c s r s', answer i c s = some (r, s') → H i c s r s') {t : Turn ι L}
    (h : cfg.turn code answer t = some cfg') :
    ∃ a : Action ι L C R E, a.turn = t ∧ Step code H a cfg cfg' := by
  cases t with
  | start i l =>
    rw [Config.turn] at h
    split at h
    · rename_i hfree
      obtain rfl := Option.some.inj h
      exact ⟨_, rfl, .start hfree⟩
    · cases h
  | go i =>
    rw [Config.turn] at h
    split at h
    · rename_i l c k hcall
      obtain ⟨x, hx, rfl⟩ := Option.map_eq_some_iff.mp h
      exact ⟨_, rfl, .call hcall (hanswer i c cfg.shared x.1 x.2 hx)⟩
    · cases h

/-- What a schedule executes is a run, if its turns are allowed. -/
theorem Reach.schedule {H : ι → Handler C R E S}
    (hanswer : ∀ i c s r s', answer i c s = some (r, s') → H i c s r s')
    (hreach : Reach code H allowed s₀ cfg) {ts : List (Turn ι L)}
    (hallowed : ∀ cfg (a : Action ι L C R E), a.turn ∈ ts → allowed cfg a)
    (h : cfg.schedule code answer ts = some cfg') : Reach code H allowed s₀ cfg' := by
  induction ts generalizing cfg with
  | nil =>
    obtain rfl := Option.some.inj h
    exact hreach
  | cons t ts ih =>
    obtain ⟨next, hnext, hrest⟩ := Option.bind_eq_some_iff.mp h
    obtain ⟨a, hturn, hstep⟩ := turn_step hanswer hnext
    refine ih (hreach.step (hallowed cfg a (hturn ▸ List.mem_cons_self)) hstep) ?_ hrest
    exact fun cfg a ha => hallowed cfg a (List.mem_cons_of_mem t ha)

def Turn.thread : Turn ι L → ι
  | .start i _ => i
  | .go i => i

theorem turn_threads {t : Turn ι L} (h : cfg.turn code answer t = some cfg') (hi : i ≠ t.thread) :
    cfg'.threads i = cfg.threads i := by
  cases t with
  | start j l =>
    rw [Config.turn] at h
    split at h
    · obtain rfl := Option.some.inj h
      exact Config.goOn_threads_of_ne cfg hi ..
    · cases h
  | go j =>
    rw [Config.turn] at h
    split at h
    · obtain ⟨x, -, rfl⟩ := Option.map_eq_some_iff.mp h
      exact Config.goOn_threads_of_ne cfg hi ..
    · cases h

/-- A schedule leaves the threads alone that have no turn. -/
theorem schedule_threads {ts : List (Turn ι L)} (h : cfg.schedule code answer ts = some cfg')
    (hi : ∀ t ∈ ts, i ≠ t.thread) : cfg'.threads i = cfg.threads i := by
  induction ts generalizing cfg with
  | nil =>
    obtain rfl := Option.some.inj h
    rfl
  | cons t ts ih =>
    obtain ⟨next, hnext, hrest⟩ := Option.bind_eq_some_iff.mp h
    rw [ih hrest fun t' ht' => hi t' (List.mem_cons_of_mem t ht'),
      turn_threads hnext (hi t List.mem_cons_self)]

/-- The thread has not been started or has returned. -/
def Config.done (cfg : Config ι L C R E α S) (i : ι) : Bool :=
  match cfg.threads i with
  | none => true
  | some (_, .ret _) => true
  | some (_, .call _ _) => false

omit [DecidableEq ι] in
theorem Config.returned_of_done (h : ∀ i, cfg.done i = true) : cfg.Returned := by
  intro i l p hp
  have hdone := h i
  unfold Config.done at hdone
  rw [hp] at hdone
  cases p with
  | ret a => exact ⟨a, rfl⟩
  | call c k => cases hdone

/-- A schedule with all threads that are in progress, checked by evaluation. -/
theorem Reach.of_schedule {H : ι → Handler C R E S}
    (answer : ι → (c : C) → S → Option (Except E (R c) × S))
    (hanswer : ∀ i c s r s', answer i c s = some (r, s') → H i c s r s')
    (hreach : Reach code H allowed s₀ cfg) (ts : List (Turn ι L))
    (hallowed : ∀ cfg (a : Action ι L C R E), a.turn ∈ ts → allowed cfg a)
    (hothers : ∀ i ∉ ts.map Turn.thread, cfg.done i = true) (check : S → Bool)
    (h : (cfg.schedule code answer ts).any
      (fun cfg => (ts.map Turn.thread).all cfg.done && check cfg.shared) = true) :
    ∃ cfg : Config ι L C R E α S, Reach code H allowed s₀ cfg ∧ cfg.Returned ∧
      check cfg.shared = true := by
  obtain ⟨cfg', hcfg, h⟩ := (Option.any_eq_true _ _).mp h
  obtain ⟨hall, hcheck⟩ := Bool.and_eq_true_iff.mp h
  refine ⟨cfg', hreach.schedule hanswer hallowed hcfg, ?_, hcheck⟩
  refine Config.returned_of_done fun i => ?_
  by_cases hi : i ∈ ts.map Turn.thread
  · exact List.all_eq_true.mp hall i hi
  · have hturn : ∀ t ∈ ts, i ≠ t.thread := by
      rintro t ht rfl
      exact hi (List.mem_map_of_mem ht)
    have hdone := hothers i hi
    unfold Config.done at hdone ⊢
    rwa [schedule_threads hcfg hturn]

end CallProg.Threads
