/-
  SysnetLinux.Tun.Reconcile

  `SetTunAddrs` and `AddTunAddr` of the `tun` package on a link in memory.

  `SetTunAddrs` that returns nil leaves exactly the prefixes it was given
  (`run_setTunAddrPrefixes_ok`), it returns nil for every set of prefixes that netlink
  takes and that has one length for each address (`run_setTunAddrPrefixes`), and it
  changes nothing where the link holds them already (`run_setTunAddrPrefixes_again`).
-/

import SysnetLinux.Tun.Plan

namespace SysnetLinux.TunAddress

open Netip DefaultTun CallProg CallProg.Prog List

/-! ## The programs on a link -/

/-- What normalisation returns is normalised, and has every address once. -/
theorem normalizeTunAddrPrefixSet_normal {ps desired : List Prefix}
    (h : normalizeTunAddrPrefixSet ps = .ok desired) :
    normalizeTunAddrPrefixSet desired = .ok desired ∧ (desired.map Prefix.addr).Nodup ∧
      ∀ p, p ∈ desired ↔ p ∈ ps := by
  obtain ⟨hvalid, hone, rfl⟩ := normalizeTunAddrPrefixSet_eq_ok.mp h
  have hmem : ∀ p, p ∈ ps.foldl appendNew [] ↔ p ∈ ps := by
    intro p
    rw [mem_foldl_appendNew]
    simp
  have hnodup : (ps.foldl appendNew []).Nodup := nodup_foldl_appendNew nodup_nil
  have hone' : OneLength (ps.foldl appendNew []) := hone.subset fun p hp => (hmem p).mp hp
  refine ⟨normalizeTunAddrPrefixSet_eq_ok.mpr ⟨fun p hp => hvalid p ((hmem p).mp hp), hone', ?_⟩,
    ?_, hmem⟩
  · have hsame : (ps.foldl appendNew []).foldl appendNew [] = [] ++ ps.foldl appendNew [] :=
      foldl_appendNew_of_nodup (by simpa using hnodup)
    exact hsame.symm
  · exact hnodup.map_on fun p hp q hq haddr => Prefix.eq_of_addr_bits haddr (hone' p hp q hq haddr)

section Listing

variable {S E : Type} {answer : (c : AddrCall) → S → Except E (AddrReply c) × S}
  {view : S → List NlAddr} {s t : S} {ps desired : List Prefix} {changes : List TunAddrChange}

/-- The verification changes nothing, and it looks at the link once. -/
theorem eval_verifyTunAddrPrefixes (hlist : ∀ s, answer .list s = (.ok (view s), s)) :
    eval answer (verifyTunAddrPrefixes desired) s = (.ok (), t) ↔
      s = t ∧ ∀ p ∈ desired, verifyPrefix (E := E) (view s) p = none := by
  rw [verifyTunAddrPrefixes, eval, hlist, ← findSome?_eq_none_iff]
  simp only
  cases hfind : desired.findSome? (verifyPrefix (E := E) (view s)) with
  | none =>
    simp only [eval, Prod.mk.injEq, true_and, and_true]
  | some e =>
    simp only [eval, Prod.mk.injEq, reduceCtorEq, false_and, and_false]

/-- `SetTunAddrs` applies the plan for the addresses it lists and verifies the result. -/
theorem eval_setTunAddrPrefixes (hlist : ∀ s, answer .list s = (.ok (view s), s))
    (hnormalize : normalizeTunAddrPrefixSet ps = .ok desired)
    (hplan : planTunAddrReconciliation (view s) desired = .ok changes) :
    eval answer (setTunAddrPrefixes ps) s = (.ok (), t) ↔
      eval answer (applyTunAddrChanges changes) s = (.ok (), t) ∧
        ∀ p ∈ desired, verifyPrefix (E := E) (view t) p = none := by
  have hread : eval answer listAddrs s = (.ok (view s), s) := by
    rw [listAddrs, eval, hlist]
    rfl
  rw [setTunAddrPrefixes, hnormalize]
  simp only
  rw [eval_andThen_ok hread, hplan]
  constructor
  · intro h
    obtain ⟨_, mid, happly, hverify⟩ := eval_andThen_eq_ok h
    obtain ⟨rfl, hnone⟩ := (eval_verifyTunAddrPrefixes hlist).mp hverify
    exact ⟨happly, hnone⟩
  · rintro ⟨happly, hnone⟩
    exact (eval_andThen_ok happly).trans ((eval_verifyTunAddrPrefixes hlist).mpr ⟨rfl, hnone⟩)

end Listing

/-! ## The programs on a link in memory -/

section Programs

variable {store store' : AddrStore} {ps : List Prefix} {p : Prefix}

theorem answer_list (store : AddrStore) :
    AddrStore.answer .list store = (.ok store.addrs, store) := rfl

/-- The change is about a prefix that netlink takes. -/
def TunAddrChange.Decodable : TunAddrChange → Prop
  | .tunAddrReplace p => p.isValid = true ∧ p.addr.is4In6 = false
  | .tunAddrDelete addr => tunAddrPrefix addr = some addr.net

/-- A change that is applied is the one that was planned. -/
theorem run_applyTunAddrChange_ok {c : TunAddrChange}
    (h : store.run (applyTunAddrChange c) = (.ok (), store')) :
    store'.addrs = applyChange store.addrs c := by
  cases c with
  | tunAddrReplace p | tunAddrDelete addr =>
    obtain ⟨v, hanswer⟩ := eval_attempt_eq_ok h
    simp only [AddrStore.answer] at hanswer
    split at hanswer
    · obtain rfl := (Prod.ext_iff.mp hanswer).2
      rfl
    · cases hanswer

theorem run_applyTunAddrChange {c : TunAddrChange} (h : c.Decodable) :
    ∃ store', store.run (applyTunAddrChange c) = (.ok (), store') := by
  cases c with
  | tunAddrReplace p =>
    have hdecodable : tunAddrPrefix (netlinkAddrFromPrefix p) =
        some (netlinkAddrFromPrefix p).net := by
      simp [tunAddrPrefix, netlinkAddrFromPrefix, h.1, h.2]
    exact ⟨_, eval_attempt_ok (dif_pos hdecodable)⟩
  | tunAddrDelete addr =>
    have hdecodable : tunAddrPrefix addr = some addr.net := h
    exact ⟨_, eval_attempt_ok (if_pos hdecodable)⟩

variable {changes : List TunAddrChange} {addrs : List NlAddr} {I : AddrCall → AddrStore → Prop}

theorem run_applyTunAddrChanges_ok
    (h : store.run (applyTunAddrChanges changes) = (.ok (), store')) :
    store'.addrs = changes.foldl applyChange store.addrs := by
  induction changes generalizing store with
  | nil =>
    obtain rfl : store = store' := (Prod.ext_iff.mp h).2
    rfl
  | cons c changes ih =>
    obtain ⟨_, mid, hc, hrest⟩ := eval_andThen_eq_ok h
    rw [foldl_cons, ← run_applyTunAddrChange_ok hc]
    exact ih hrest

theorem run_applyTunAddrChanges (h : ∀ c ∈ changes, c.Decodable) :
    ∃ store', store.run (applyTunAddrChanges changes) = (.ok (), store') := by
  induction changes generalizing store with
  | nil => exact ⟨store, rfl⟩
  | cons c changes ih =>
    obtain ⟨mid, hc⟩ : ∃ mid, store.run (applyTunAddrChange c) = (.ok (), mid) :=
      run_applyTunAddrChange (h c mem_cons_self)
    obtain ⟨store', hrest⟩ : ∃ store', mid.run (applyTunAddrChanges changes) = (.ok (), store') :=
      ih fun d hd => h d (mem_cons_of_mem c hd)
    exact ⟨store', (eval_andThen_ok hc).trans hrest⟩

theorem verifyPrefix_of_ready {E : Type} (h : WellKept addrs) {a : NlAddr} (ha : a ∈ addrs)
    (hnet : a.net = p) (hready : a.Ready) :
    verifyPrefix (E := E) addrs p = none := by
  unfold verifyPrefix
  split
  · rename_i hnone
    have := find?_eq_none.mp hnone a (mem_reverse.mpr ha)
    exact absurd ((h.net_iff ha).mpr hnet) (by simpa using this)
  · rename_i b hfind
    have hb := mem_reverse.mp (mem_of_find?_eq_some hfind)
    have hbnet : b.net = p := (h.net_iff hb).mp (by simpa using find?_some hfind)
    obtain rfl := inj_on_of_nodup_map h.distinct hb ha (hbnet.trans hnet.symm)
    cases h6 : p.addr.is6 with
    | false => rfl
    | true =>
      obtain ⟨hnodad, husable⟩ := hready (hnet ▸ h6)
      simp [hnodad, husable]

/-- Where `SetTunAddrs` returns nil, the link holds what it was given. -/
theorem run_setTunAddrPrefixes_ok (h : store.run (setTunAddrPrefixes ps) = (.ok (), store')) :
    OneLength ps ∧ Matches ps store'.addrs := by
  cases hnormalize : normalizeTunAddrPrefixSet ps with
  | error e =>
    rw [setTunAddrPrefixes, hnormalize] at h
    cases h
  | ok desired =>
    obtain ⟨hdesired, hnodup, hmem⟩ := normalizeTunAddrPrefixSet_normal hnormalize
    have hplan := planTunAddrReconciliation_eq store.kept hdesired hnodup
    obtain ⟨happly, -⟩ := (eval_setTunAddrPrefixes answer_list hnormalize hplan).mp h
    refine ⟨(normalizeTunAddrPrefixSet_eq_ok.mp hnormalize).2.1, ?_⟩
    rw [run_applyTunAddrChanges_ok happly]
    exact (matches_reconciled store.kept hdesired hnodup hplan).of_mem_iff hmem

theorem Matches.verified {E : Type} (h : Matches ps store.addrs) :
    ∀ p ∈ ps, verifyPrefix (E := E) store.addrs p = none := by
  intro p hp
  obtain ⟨a, ha, hnet⟩ := mem_map.mp ((h.mem_iff p).mpr hp)
  exact verifyPrefix_of_ready store.kept ha hnet (h.ready a ha)

/-- `SetTunAddrs` returns nil for prefixes that netlink takes, each address with one length. -/
theorem run_setTunAddrPrefixes (hone : OneLength ps)
    (hps : ∀ p ∈ ps, p.isValid = true ∧ p.addr.is4In6 = false) :
    ∃ store', store.run (setTunAddrPrefixes ps) = (.ok (), store') ∧ Matches ps store'.addrs := by
  have hnormalize : normalizeTunAddrPrefixSet ps = .ok (ps.foldl appendNew []) :=
    normalizeTunAddrPrefixSet_eq_ok.mpr ⟨fun p hp => (hps p hp).1, hone, rfl⟩
  obtain ⟨hdesired, hnodup, hmem⟩ := normalizeTunAddrPrefixSet_normal hnormalize
  obtain ⟨changes, hplan⟩ : ∃ changes, planTunAddrReconciliation store.addrs
      (ps.foldl appendNew []) = .ok changes :=
    ⟨_, planTunAddrReconciliation_eq store.kept hdesired hnodup⟩
  have hdecodable : ∀ c ∈ changes, c.Decodable := by
    intro c hc
    rcases mem_plan store.kept hdesired hnodup hplan hc with ⟨p, hp, rfl⟩ | ⟨a, ha, rfl, -⟩
    · exact hps p ((hmem p).mp hp)
    · exact store.kept.decodable a ha
  obtain ⟨store', happly⟩ : ∃ store', store.run (applyTunAddrChanges changes) = (.ok (), store') :=
    run_applyTunAddrChanges hdecodable
  have hmatches : Matches (ps.foldl appendNew []) store'.addrs := by
    rw [run_applyTunAddrChanges_ok happly]
    exact matches_reconciled store.kept hdesired hnodup hplan
  refine ⟨store', ?_, hmatches.of_mem_iff hmem⟩
  exact (eval_setTunAddrPrefixes answer_list hnormalize hplan).mpr ⟨happly, hmatches.verified⟩

theorem Matches.takes (h : Matches ps store.addrs) :
    ∀ p ∈ ps, p.isValid = true ∧ p.addr.is4In6 = false := by
  intro p hp
  obtain ⟨a, ha, hnet⟩ := mem_map.mp ((h.mem_iff p).mpr hp)
  have hdecodable := store.kept.decodable a ha
  unfold tunAddrPrefix at hdecodable
  split at hdecodable
  · rename_i hcond
    rw [hnet] at hcond
    simpa using hcond
  · cases hdecodable

/-- `SetTunAddrs` with what the link holds returns nil and changes nothing. -/
theorem run_setTunAddrPrefixes_again (hone : OneLength ps) (h : Matches ps store.addrs) :
    store.run (setTunAddrPrefixes ps) = (.ok (), store) := by
  have hnormalize : normalizeTunAddrPrefixSet ps = .ok (ps.foldl appendNew []) :=
    normalizeTunAddrPrefixSet_eq_ok.mpr ⟨fun p hp => (h.takes p hp).1, hone, rfl⟩
  obtain ⟨hdesired, hnodup, hmem⟩ := normalizeTunAddrPrefixSet_normal hnormalize
  have hmatches : Matches (ps.foldl appendNew []) store.addrs :=
    h.of_mem_iff fun p => (hmem p).symm
  have hplan := plan_of_matches store.kept hdesired hnodup hmatches
  exact (eval_setTunAddrPrefixes answer_list hnormalize hplan).mpr ⟨rfl, hmatches.verified⟩

theorem scanAddition_new (h : ∀ a ∈ addrs, a.ip ≠ p.addr) (conflicts : List NlAddr) :
    scanAddition p conflicts addrs = conflicts.map .tunAddrDelete ++ [.tunAddrReplace p] := by
  induction addrs with
  | nil => rfl
  | cons a addrs ih =>
    have hrest := ih fun b hb => h b (mem_cons_of_mem a hb)
    rw [scanAddition]
    split
    · exact hrest
    · rename_i q hq
      have hnet : a.net = q := tunAddrPrefix_eq_some hq
      rw [if_pos fun heq => h a mem_cons_self ((congrArg Prefix.addr hnet).trans heq)]
      exact hrest

/-- Where the address is new on the link, `AddTunAddr` that returns nil puts the prefix
    there and changes nothing else. -/
theorem run_addTunAddrPrefix_ok (hnew : ∀ a ∈ store.addrs, a.ip ≠ p.addr)
    (h : store.run (addTunAddrPrefix p) = (.ok (), store')) :
    store'.addrs = store.addrs ++ [netlinkAddrFromPrefix p] := by
  unfold addTunAddrPrefix at h
  split at h
  · cases h
  rename_i hvalid
  obtain ⟨current, mid, hlist, h⟩ := eval_andThen_eq_ok h
  obtain ⟨rfl, rfl⟩ : store.addrs = current ∧ store = mid := by
    obtain ⟨hcurrent, hmid⟩ := Prod.ext_iff.mp hlist
    exact ⟨Except.ok.inj hcurrent, hmid⟩
  obtain ⟨_, applied, happly, hverify⟩ := eval_andThen_eq_ok h
  obtain ⟨rfl, -⟩ := (eval_verifyTunAddrPrefixes answer_list).mp hverify
  have hplan : planTunAddrAddition store.addrs p = .ok [.tunAddrReplace p] := by
    unfold planTunAddrAddition
    rw [if_neg hvalid]
    split
    · rfl
    · rw [scanAddition_new hnew]
      rfl
  rw [hplan] at happly
  rw [run_applyTunAddrChanges_ok happly]
  exact replaceAddr_new hnew

theorem Matches.add (h : Matches ps addrs) :
    Matches (ps ++ [p]) (addrs ++ [netlinkAddrFromPrefix p]) := by
  refine ⟨fun q => ?_, fun a ha => ?_⟩
  · rw [map_append, mem_append, mem_append, h.mem_iff]
    rfl
  · rcases mem_append.mp ha with ha | ha
    · exact h.ready a ha
    · rw [mem_singleton.mp ha]
      exact ready_netlinkAddrFromPrefix p

/-! ## The calls of a reconciliation -/

/-- The call that a change makes. -/
def TunAddrChange.call : TunAddrChange → AddrCall
  | .tunAddrReplace p => .replace (netlinkAddrFromPrefix p)
  | .tunAddrDelete addr => .delete addr

theorem calls_verifyTunAddrPrefixes (hlist : ∀ s, I .list s) :
    wp (replies AddrStore.answer) I (fun _ _ => True) (verifyTunAddrPrefixes ps) store := by
  refine ⟨hlist store, fun r s _ => ?_⟩
  cases r with
  | error e => exact trivial
  | ok current =>
    simp only
    split
    · exact trivial
    · exact trivial

theorem calls_applyTunAddrChanges (h : ∀ c ∈ changes, ∀ s, I c.call s) :
    wp (replies AddrStore.answer) I (fun _ _ => True) (applyTunAddrChanges changes) store := by
  refine wp_forEach (fun _ _ => True) changes (fun done c rest s hchanges _ => ?_)
    (fun _ _ => trivial) trivial
  have hc : ∀ s, I c.call s := h c (by rw [hchanges]; simp)
  cases c with
  | tunAddrReplace p | tunAddrDelete addr =>
    refine ⟨hc s, fun r s' _ => ?_⟩
    cases r with
    | ok v | error e => exact trivial

/-- `SetTunAddrs` lists the addresses and makes the calls of its plan. -/
theorem calls_setTunAddrPrefixes (hlist : ∀ s, I .list s)
    (hplan : ∀ desired changes, normalizeTunAddrPrefixSet ps = .ok desired →
      planTunAddrReconciliation store.addrs desired = .ok changes →
      ∀ c ∈ changes, ∀ s, I c.call s) :
    wp (replies AddrStore.answer) I (fun _ _ => True) (setTunAddrPrefixes ps) store := by
  unfold setTunAddrPrefixes
  split
  · exact trivial
  rename_i desired hnormalize
  refine wp_andThen ⟨hlist store, fun r s hr => ?_⟩
  obtain ⟨rfl, rfl⟩ := Prod.mk.inj hr
  refine wp_andThen ?_
  cases hchanges : planTunAddrReconciliation store.addrs desired with
  | error e => exact trivial
  | ok changes =>
    refine wp_post (fun r s _ => ?_)
      (calls_applyTunAddrChanges (hplan desired changes hnormalize hchanges))
    cases r with
    | ok v => exact calls_verifyTunAddrPrefixes hlist
    | error e => exact trivial

/-- On every link, for prefixes that netlink takes and that have one length for each address:
    `SetTunAddrs` returns nil and leaves exactly these prefixes, each of them once and the IPv6
    ones ready; no state on the way has two prefixes of an IPv6 address; a prefix that is wanted
    is deleted only if it was not usable; and a second call lists and changes nothing.  An
    address with two lengths is refused before any call. -/
theorem reconciliation_exact (store : AddrStore) (ps : List Prefix) :
    ((∀ p ∈ ps, p.isValid = true ∧ p.addr.is4In6 = false) → OneLength ps →
      ∃ tr store', traced AddrStore.answer (setTunAddrPrefixes ps) store = (tr, .ok (), store') ∧
        store'.prefixes.Nodup ∧ (∀ p, p ∈ store'.prefixes ↔ p ∈ ps) ∧
        (∀ a ∈ store'.addrs, a.net.addr.is6 = true →
          a.flags.nodad = true ∧ a.flags.unusable = false) ∧
        (∀ s ∈ visited tr store', ∀ a ∈ s.addrs, ∀ b ∈ s.addrs,
          a.net.addr.is6 = true → a.net.addr = b.net.addr → a = b) ∧
        (∀ ev ∈ tr, ∀ a, ev.call = .delete a → a.net ∈ ps →
          a ∈ store.addrs ∧ a.flags.unusable = true) ∧
        ∀ ev ∈ (traced AddrStore.answer (setTunAddrPrefixes ps) store').1, ev.call = .list) ∧
      (¬ OneLength ps →
        ∃ e, traced AddrStore.answer (setTunAddrPrefixes ps) store =
          ([], .error (.prefixSet e), store)) := by
  constructor
  · intro htakes hone
    obtain ⟨store', hrun, hmatches⟩ : ∃ store', store.run (setTunAddrPrefixes ps) =
        (.ok (), store') ∧ Matches ps store'.addrs := run_setTunAddrPrefixes hone htakes
    have hresult : (traced AddrStore.answer (setTunAddrPrefixes ps) store).2 = (.ok (), store') :=
      (traced_eval _ _ _).trans hrun
    refine ⟨_, store', Prod.ext rfl hresult, store'.kept.distinct, hmatches.mem_iff,
      fun a ha => hmatches.ready a ha, ?_, ?_, ?_⟩
    · rintro s - a ha b hb h6 heq
      exact inj_on_of_nodup_map s.kept.distinct ha hb (s.kept.single a ha b hb h6 heq)
    · intro ev hev
      refine (wp_sound (I := fun c _ => ∀ a, c = .delete a → a.net ∈ ps →
          a ∈ store.addrs ∧ a.flags.unusable = true) (traced_exec _ _ store)
        (calls_setTunAddrPrefixes (fun _ a ha => absurd ha nofun) ?_)).1 ev hev
      intro desired changes hnormalize hplan c hc _ a hcall hwanted
      obtain ⟨hdesired, hnodup, hmem⟩ := normalizeTunAddrPrefixSet_normal hnormalize
      rcases mem_plan store.kept hdesired hnodup hplan hc with ⟨p, -, rfl⟩ | ⟨b, hb, rfl, hdown⟩
      · cases hcall
      · obtain rfl : b = a := AddrCall.delete.inj hcall
        exact ⟨hb, hdown ((hmem b.net).mpr hwanted)⟩
    · intro ev hev
      refine (wp_sound (I := fun c _ => c = .list) (traced_exec _ _ store')
        (calls_setTunAddrPrefixes (fun _ => rfl) ?_)).1 ev hev
      intro desired changes hnormalize hplan c hc
      obtain ⟨hdesired, hnodup, hmem⟩ := normalizeTunAddrPrefixSet_normal hnormalize
      have hnone := plan_of_matches store'.kept hdesired hnodup
        (hmatches.of_mem_iff fun p => (hmem p).symm)
      rw [Except.ok.inj (hplan.symm.trans hnone)] at hc
      cases hc
  · intro hnot
    cases hnormalize : normalizeTunAddrPrefixSet ps with
    | ok desired => exact absurd (normalizeTunAddrPrefixSet_eq_ok.mp hnormalize).2.1 hnot
    | error e =>
      refine ⟨e, ?_⟩
      unfold setTunAddrPrefixes
      rw [hnormalize]
      rfl

/-- A link with the tentative address fd00::1/64 and the address 10.0.0.1/24. -/
def tentativeStore : AddrStore :=
  ⟨[⟨Prefix.ofV6 0xfd000000000000000000000000000001#128 64, true, true, false⟩,
    ⟨Prefix.ofV4 0x0a000001#32 24, false, false, false⟩],
    ⟨by decide, by decide, by decide⟩⟩

/-- The prefixes fd00::1/64 and 10.0.0.1/16. -/
def samplePrefixes : List Prefix :=
  [Prefix.ofV6 0xfd000000000000000000000000000001#128 64, Prefix.ofV4 0x0a000001#32 16]

theorem reconciliation_exact_sample :
    OneLength samplePrefixes ∧
      ∃ tr store', traced AddrStore.answer (setTunAddrPrefixes samplePrefixes) tentativeStore =
          (tr, .ok (), store') ∧ ∀ p, p ∈ store'.prefixes ↔ p ∈ samplePrefixes := by
  have hone : OneLength samplePrefixes := by unfold OneLength; decide
  obtain ⟨tr, store', htraced, -, hmem, -⟩ :=
    (reconciliation_exact tentativeStore samplePrefixes).1 (by decide) hone
  exact ⟨hone, tr, store', htraced, hmem⟩

end Programs

end SysnetLinux.TunAddress
