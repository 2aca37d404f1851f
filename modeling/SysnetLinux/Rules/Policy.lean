/-
  SysnetLinux.Rules.Policy

  The process checker of a default TUN and the policy it gives the kernel (`defaultTunChecker` of
  `default_tun.go`).

  A `comm` rule whose regular expression matches one name only also becomes a kernel rule; any
  other rule leaves something to userspace, which the mode of the policy says.
  `kernel_policy_agrees` relates the two answers in each mode.
-/

import SysnetLinux.Rules.Compile

namespace SysnetLinux.Rules

open List

/-! ## The tracker -/

/-- `multirule.Tracker`, with states `σ`. -/
structure RuleTracker (σ : Type) where
  registerRule : σ → (ProcessInfo → Bool) → Nat × σ
  applyProcess : σ → ProcessInfo → σ
  matchesRule : σ → ProcessKey → Nat → Bool

/-- What a tracker does, in terms of the rules that are registered in a state: a new rule has
    an ID of its own, and once a process has been applied, a rule answers its predicate on
    that process. -/
structure RuleTracker.Answers {σ : Type} (t : RuleTracker σ)
    (registered : σ → Nat → Option (ProcessInfo → Bool)) : Prop where
  register : ∀ s predicate,
    registered (t.registerRule s predicate).2 (t.registerRule s predicate).1 = some predicate
  keeps : ∀ s predicate id old, registered s id = some old →
    registered (t.registerRule s predicate).2 id = some old
  answers : ∀ s info id predicate, registered s id = some predicate →
    t.matchesRule (t.applyProcess s info) info.key id = predicate info

/-! ## The checker -/

inductive KernelPolicyMode where
  | userspaceOnly
  | positiveOnly
  | authoritative
  deriving DecidableEq, Repr

/-- `pmark.ExactCommRule`. -/
structure ExactCommRule where
  comm : String
  priority : Int
  mark : BitVec 64
  deriving DecidableEq, Repr

/-- `pmark.KernelPolicy`. -/
structure KernelPolicy where
  mode : KernelPolicyMode
  commRules : List ExactCommRule
  deriving DecidableEq, Repr

/-- The rules of `sysnet.DefaultTunOpts`. -/
structure RuleOpts where
  include' : List Rule
  exclude : List Rule
  deriving DecidableEq, Repr

/-- The fields of `System` that the checker reads, with `fwmark.ToMark`. -/
structure PmarkSettings where
  pmarkPriority : Int
  userMark : BitVec 32
  toMark : BitVec 32 → BitVec 64

/-- `defaultTunPmarkConfig`. -/
structure PmarkConfig (σ : Type) where
  ruleIDs : List Nat
  /-- The priority and the mark of a match, and the tracker after the process. -/
  check : σ → ProcessInfo → Option (Int × BitVec 64) × σ
  kernelPolicy : KernelPolicy

inductive CheckerError where
  | priorityRange (priority : Int)
  | compile (err : CompileError)
  | exactComm (message : String)
  deriving DecidableEq, Repr

/-- The variables of the loop over the rules. -/
structure Collected where
  ids : List Nat
  exactCommRules : List ExactCommRule
  hasFallbackRule : Bool
  deriving DecidableEq, Repr

section Checker

variable {σ : Type} (host : Host) (t : RuleTracker σ) (priority : Int) (mark : BitVec 64)

/-- One round of the loop over the rules. -/
def collectRule (rule : Rule) (c : Collected) (s : σ) : Except CheckerError Collected × σ :=
  match compileRule host rule with
  | .error err => (.error (.compile err), s)
  | .ok compiled =>
    match compiled.process with
    | none => (.ok c, s)
    | some process =>
      let (id, s) := t.registerRule s process
      let c := { c with ids := c.ids ++ [id] }
      if rule.type ≠ .comm then (.ok { c with hasFallbackRule := true }, s)
      else
        match host.exactCommFromRegexp rule.rule with
        | .error message => (.error (.exactComm message), s)
        | .ok none => (.ok { c with hasFallbackRule := true }, s)
        | .ok (some comm) =>
          (.ok { c with exactCommRules := c.exactCommRules ++ [⟨comm, priority, mark⟩] }, s)

def collectRules : List Rule → Collected → σ → Except CheckerError Collected × σ
  | [], c, s => (.ok c, s)
  | rule :: rules, c, s =>
    match collectRule host t priority mark rule c s with
    | (.error err, s) => (.error err, s)
    | (.ok c, s) => collectRules rules c s

/-- The `check` closure. -/
def checkProcess (ids : List Nat) (s : σ) (info : ProcessInfo) :
    Option (Int × BitVec 64) × σ :=
  let s := t.applyProcess s info
  if ids = [] then (none, s)
  else if ids.any fun id => t.matchesRule s info.key id then (some (priority, mark), s)
  else (none, s)

def kernelPolicyMode (c : Collected) : KernelPolicyMode :=
  if !c.hasFallbackRule then .authoritative
  else if c.exactCommRules ≠ [] then .positiveOnly
  else .userspaceOnly

/-- `defaultTunChecker`; without a tracker there is no configuration. -/
def defaultTunChecker (settings : PmarkSettings) (tracker : Option (RuleTracker σ))
    (opts : RuleOpts) (s : σ) : Except CheckerError (Option (PmarkConfig σ)) × σ :=
  match tracker with
  | none => (.ok none, s)
  | some t =>
    let priority := settings.pmarkPriority
    if priority < -128 ∨ 127 < priority then (.error (.priorityRange priority), s)
    else
      let mark := settings.toMark settings.userMark
      let rules := if opts.include' ≠ [] then opts.include' else opts.exclude
      match collectRules host t priority mark rules ⟨[], [], false⟩ s with
      | (.error err, s) => (.error err, s)
      | (.ok c, s) =>
        (.ok (some ⟨c.ids, checkProcess t priority mark c.ids,
          ⟨kernelPolicyMode c, c.exactCommRules⟩⟩), s)

end Checker

/-! ## What the loop collects -/

/-- An exact name of a regular expression is the only text that it matches. -/
def Host.ExactComm (host : Host) : Prop :=
  ∀ rule comm re, host.exactCommFromRegexp rule = .ok (some comm) →
    host.compileRegexp rule = .ok re → ∀ text, re text = true ↔ text = comm

section Collect

variable {σ : Type} {host : Host} {t : RuleTracker σ} {priority : Int} {mark : BitVec 64}
  {registered : σ → Nat → Option (ProcessInfo → Bool)}

/-- The predicate holds of the processes of this name and of no other. -/
def Selects (predicate : ProcessInfo → Bool) (comm : String) : Prop :=
  ∀ info, predicate info = true ↔ info.comm = comm

/-- What holds of the variables of the loop: every ID has its predicate, every kernel rule stands
    for one of them, and if nothing is left to userspace then every ID has a kernel rule. -/
structure Collected.Sound (registered : σ → Nat → Option (ProcessInfo → Bool)) (priority : Int)
    (mark : BitVec 64) (c : Collected) (s : σ) : Prop where
  ids : ∀ id ∈ c.ids, ∃ predicate, registered s id = some predicate
  kernel : ∀ r ∈ c.exactCommRules, r.priority = priority ∧ r.mark = mark ∧
    ∃ id ∈ c.ids, ∃ predicate, registered s id = some predicate ∧ Selects predicate r.comm
  covered : c.hasFallbackRule = false → ∀ id ∈ c.ids, ∃ r ∈ c.exactCommRules,
    ∃ predicate, registered s id = some predicate ∧ Selects predicate r.comm

theorem Collected.sound_nil (s : σ) :
    Collected.Sound registered priority mark ⟨[], [], false⟩ s where
  ids := fun _ h => absurd h not_mem_nil
  kernel := fun _ h => absurd h not_mem_nil
  covered := fun _ _ h => absurd h not_mem_nil

variable {c : Collected} {s s' : σ} {process : ProcessInfo → Bool}

/-- A rule with something left to userspace. -/
theorem Collected.Sound.fallback (hc : c.Sound registered priority mark s)
    (ht : t.Answers registered) (process : ProcessInfo → Bool) :
    Collected.Sound registered priority mark
      ⟨c.ids ++ [(t.registerRule s process).1], c.exactCommRules, true⟩
      (t.registerRule s process).2 where
  ids := by
    intro id hid
    rcases mem_append.mp hid with hid | hid
    · obtain ⟨predicate, hpredicate⟩ := hc.ids id hid
      exact ⟨predicate, ht.keeps s process id predicate hpredicate⟩
    · rw [mem_singleton.mp hid]
      exact ⟨process, ht.register s process⟩
  kernel := by
    intro r hr
    obtain ⟨hpriority, hmark, id, hid, predicate, hpredicate, hselects⟩ := hc.kernel r hr
    exact ⟨hpriority, hmark, id, mem_append_left _ hid, predicate,
      ht.keeps s process id predicate hpredicate, hselects⟩
  covered := fun h => absurd h Bool.noConfusion

theorem Collected.Sound.exact (hc : c.Sound registered priority mark s) (ht : t.Answers registered)
    {comm : String} (hselects : Selects process comm) :
    Collected.Sound registered priority mark
      ⟨c.ids ++ [(t.registerRule s process).1], c.exactCommRules ++ [⟨comm, priority, mark⟩],
        c.hasFallbackRule⟩ (t.registerRule s process).2 where
  ids := (hc.fallback ht process).ids
  kernel := by
    intro r hr
    rcases mem_append.mp hr with hr | hr
    · exact (hc.fallback ht process).kernel r hr
    · rw [mem_singleton.mp hr]
      exact ⟨rfl, rfl, _, mem_append_right _ (mem_singleton_self _), process,
        ht.register s process, hselects⟩
  covered := by
    intro hnone id hid
    rcases mem_append.mp hid with hid | hid
    · obtain ⟨r, hr, predicate, hpredicate, hr'⟩ := hc.covered hnone id hid
      exact ⟨r, mem_append_left _ hr, predicate, ht.keeps s process id predicate hpredicate, hr'⟩
    · rw [mem_singleton.mp hid]
      exact ⟨_, mem_append_right _ (mem_singleton_self _), process, ht.register s process, hselects⟩

theorem selects_of_exactComm (hexact : host.ExactComm) {rule : Rule} (htype : rule.type = .comm)
    {compiled : CompiledRule} (hcompiled : compileRule host rule = .ok compiled)
    (hprocess : compiled.process = some process) {comm : String}
    (hcomm : host.exactCommFromRegexp rule.rule = .ok (some comm)) : Selects process comm := by
  unfold compileRule at hcompiled
  rw [htype] at hcompiled
  simp only [compileRegexpRule] at hcompiled
  split at hcompiled
  · cases hcompiled
  · rename_i re hre
    obtain rfl := Except.ok.inj hcompiled
    obtain rfl := Option.some.inj hprocess
    exact fun info => hexact rule.rule comm re hcomm hre info.comm

section

variable (hexact : host.ExactComm) (ht : t.Answers registered)
include hexact ht

theorem Collected.Sound.collectRule {rule : Rule} {c' : Collected}
    (hc : c.Sound registered priority mark s)
    (h : Rules.collectRule host t priority mark rule c s = (.ok c', s')) :
    c'.Sound registered priority mark s' := by
  unfold Rules.collectRule at h
  split at h
  · cases h
  rename_i compiled hcompiled
  split at h
  · obtain ⟨rfl, rfl⟩ := Prod.mk.inj h |>.imp Except.ok.inj id
    exact hc
  rename_i process hprocess
  simp only at h
  split at h
  · obtain ⟨rfl, rfl⟩ := Prod.mk.inj h |>.imp Except.ok.inj id
    exact hc.fallback ht process
  rename_i htype
  split at h
  · cases h
  · obtain ⟨rfl, rfl⟩ := Prod.mk.inj h |>.imp Except.ok.inj id
    exact hc.fallback ht process
  · rename_i comm hcomm
    obtain ⟨rfl, rfl⟩ := Prod.mk.inj h |>.imp Except.ok.inj id
    exact hc.exact ht (selects_of_exactComm hexact (not_not.mp htype) hcompiled hprocess hcomm)

theorem Collected.Sound.collectRules {rules : List Rule} {c' : Collected}
    (hc : c.Sound registered priority mark s)
    (h : Rules.collectRules host t priority mark rules c s = (.ok c', s')) :
    c'.Sound registered priority mark s' := by
  induction rules generalizing c s with
  | nil =>
    obtain ⟨rfl, rfl⟩ := Prod.mk.inj h |>.imp Except.ok.inj id
    exact hc
  | cons rule rules ih =>
    rw [Rules.collectRules] at h
    split at h
    · cases h
    · rename_i c₁ s₁ hround
      exact ih (hc.collectRule hexact ht hround) h

/-- An accepted configuration is made from what the loop has collected. -/
theorem defaultTunChecker_ok {settings : PmarkSettings} {opts : RuleOpts} {config : PmarkConfig σ}
    (h : defaultTunChecker host settings (some t) opts s = (.ok (some config), s')) :
    ∃ c : Collected, c.Sound registered settings.pmarkPriority
        (settings.toMark settings.userMark) s' ∧
      config = ⟨c.ids, checkProcess t settings.pmarkPriority
        (settings.toMark settings.userMark) c.ids, ⟨kernelPolicyMode c, c.exactCommRules⟩⟩ := by
  unfold defaultTunChecker at h
  simp only at h
  split at h
  · cases h
  split at h
  · cases h
  · rename_i c s₁ hrules
    obtain ⟨hconfig, rfl⟩ := Prod.mk.inj h
    refine ⟨c, (Collected.sound_nil s).collectRules hexact ht hrules, ?_⟩
    exact (Option.some.inj (Except.ok.inj hconfig)).symm

end

end Collect

/-! ## The kernel and the checker -/

/-- A kernel rule names the process. -/
def KernelPolicy.Matches (policy : KernelPolicy) (info : ProcessInfo) : Prop :=
  ∃ r ∈ policy.commRules, r.comm = info.comm

section Agreement

variable {σ : Type} {host : Host} {t : RuleTracker σ} {priority : Int} {mark : BitVec 64}
  {registered : σ → Nat → Option (ProcessInfo → Bool)}

/-- The checker answers with the predicates of its rules. -/
theorem checkProcess_isSome_iff (ht : t.Answers registered) {ids : List Nat} {s : σ}
    (hids : ∀ id ∈ ids, ∃ predicate, registered s id = some predicate) (info : ProcessInfo) :
    (checkProcess t priority mark ids s info).1.isSome = true ↔
      ∃ id ∈ ids, ∃ predicate, registered s id = some predicate ∧ predicate info = true := by
  have hany : (ids.any fun id => t.matchesRule (t.applyProcess s info) info.key id) = true ↔
      ∃ id ∈ ids, ∃ predicate, registered s id = some predicate ∧ predicate info = true := by
    rw [any_eq_true]
    constructor
    · rintro ⟨id, hid, hmatch⟩
      obtain ⟨predicate, hpredicate⟩ := hids id hid
      rw [ht.answers s info id predicate hpredicate] at hmatch
      exact ⟨id, hid, predicate, hpredicate, hmatch⟩
    · rintro ⟨id, hid, predicate, hpredicate, hinfo⟩
      refine ⟨id, hid, ?_⟩
      rw [ht.answers s info id predicate hpredicate]
      exact hinfo
  unfold checkProcess
  simp only
  split
  · rename_i hnil
    refine iff_of_false Bool.false_ne_true ?_
    rintro ⟨id, hid, -⟩
    rw [hnil] at hid
    exact absurd hid not_mem_nil
  · split
    · rename_i hmatch
      exact iff_of_true rfl (hany.mp hmatch)
    · rename_i hmatch
      exact iff_of_false Bool.false_ne_true (mt hany.mpr hmatch)

theorem checkProcess_eq_some {ids : List Nat} {s : σ} {info : ProcessInfo}
    {answer : Int × BitVec 64} (h : (checkProcess t priority mark ids s info).1 = some answer) :
    answer = (priority, mark) := by
  unfold checkProcess at h
  simp only at h
  split at h
  · cases h
  · split at h
    · exact (Option.some.inj h).symm
    · cases h

/-- In every later state of the tracker that still has the rules, an authoritative policy
    matches exactly the processes that the checker matches, a positive-only policy no others,
    and a kernel match carries the checker's priority and mark. -/
theorem kernel_policy_agrees (hexact : host.ExactComm) (ht : t.Answers registered)
    {settings : PmarkSettings} {opts : RuleOpts} {s s' : σ} {config : PmarkConfig σ}
    (h : defaultTunChecker host settings (some t) opts s = (.ok (some config), s'))
    {later : σ} (hlater : ∀ id ∈ config.ruleIDs, registered later id = registered s' id)
    (info : ProcessInfo) :
    (config.kernelPolicy.mode = .authoritative →
      (config.kernelPolicy.Matches info ↔ (config.check later info).1.isSome = true)) ∧
    (config.kernelPolicy.mode = .positiveOnly → config.kernelPolicy.Matches info →
      (config.check later info).1.isSome = true) ∧
    ∀ r ∈ config.kernelPolicy.commRules, r.comm = info.comm →
      ∀ answer, (config.check later info).1 = some answer → answer = (r.priority, r.mark) := by
  obtain ⟨c, hc, rfl⟩ := defaultTunChecker_ok hexact ht h
  have hids : ∀ id ∈ c.ids, ∃ predicate, registered later id = some predicate := by
    intro id hid
    rw [hlater id hid]
    exact hc.ids id hid
  have hcheck : (checkProcess t settings.pmarkPriority (settings.toMark settings.userMark) c.ids
      later info).1.isSome = true ↔ ∃ id ∈ c.ids, ∃ predicate,
        registered later id = some predicate ∧ predicate info = true :=
    checkProcess_isSome_iff ht hids info
  have hpositive : (∃ r ∈ c.exactCommRules, r.comm = info.comm) →
      ∃ id ∈ c.ids, ∃ predicate, registered later id = some predicate ∧
        predicate info = true := by
    rintro ⟨r, hr, hcomm⟩
    obtain ⟨-, -, id, hid, predicate, hpredicate, hselects⟩ := hc.kernel r hr
    exact ⟨id, hid, predicate, (hlater id hid).trans hpredicate, (hselects info).mpr hcomm.symm⟩
  refine ⟨fun hmode => ⟨fun hkernel => hcheck.mpr (hpositive hkernel), fun hsome => ?_⟩,
    fun _ hkernel => hcheck.mpr (hpositive hkernel), ?_⟩
  · have hnone : c.hasFallbackRule = false := by
      unfold kernelPolicyMode at hmode
      cases hfallback : c.hasFallbackRule with
      | false => rfl
      | true =>
        rw [hfallback] at hmode
        split at hmode
        · rename_i hnot
          cases hnot
        · split at hmode
          · cases hmode
          · cases hmode
    obtain ⟨id, hid, predicate, hpredicate, hinfo⟩ := hcheck.mp hsome
    obtain ⟨r, hr, predicate', hpredicate', hselects⟩ := hc.covered hnone id hid
    have hsame : predicate' = predicate := by
      rw [hlater id hid, hpredicate'] at hpredicate
      exact Option.some.inj hpredicate
    exact ⟨r, hr, ((hselects info).mp (hsame ▸ hinfo)).symm⟩
  · intro r hr _ answer hanswer
    obtain ⟨hpriority, hmark, -⟩ := hc.kernel r hr
    rw [checkProcess_eq_some hanswer, hpriority, hmark]

end Agreement

/-! ## A tracker and a host -/

/-- The rules by ID, and the processes that have been applied, the last one first. -/
structure ListTracker where
  rules : List (ProcessInfo → Bool)
  applied : List ProcessInfo

def listTracker : RuleTracker ListTracker where
  registerRule s predicate := (s.rules.length, { s with rules := s.rules ++ [predicate] })
  applyProcess s info := { s with applied := info :: s.applied }
  matchesRule s key id :=
    match s.applied.find? fun info => info.key = key, s.rules[id]? with
    | some info, some predicate => predicate info
    | _, _ => false

theorem listTracker_answers : listTracker.Answers fun s id => s.rules[id]? where
  register := by
    intro s predicate
    show (s.rules ++ [predicate])[s.rules.length]? = some predicate
    rw [getElem?_append_right (Nat.le_refl _), Nat.sub_self]
    rfl
  keeps := by
    intro s predicate id old hold
    show (s.rules ++ [predicate])[id]? = some old
    rw [getElem?_append_left (List.getElem?_eq_some_iff.mp hold).1]
    exact hold
  answers := by
    intro s info id predicate hpredicate
    have hfind : (info :: s.applied).find? (fun x => x.key = info.key) = some info := by
      rw [find?_cons, decide_eq_true rfl]
    simp [listTracker, hfind, hpredicate]

/-- A host whose regular expressions are names between `^` and `$`. -/
def anchoredHost : Host where
  compileRegexp rule := .ok fun text => rule.toList == '^' :: text.toList ++ ['$']
  exactCommFromRegexp rule :=
    .ok (if rule = "^curl$" then some "curl" else none)
  lookupUser name := .error name
  lookupGroup name := .error name
  processStatusIDs _ := none

theorem anchoredHost_exactComm : anchoredHost.ExactComm := by
  intro rule comm re hcomm hre text
  have hrule : rule = "^curl$" ∧ comm = "curl" := by
    have hsome := Except.ok.inj hcomm
    split at hsome
    · rename_i hrule
      exact ⟨hrule, (Option.some.inj hsome).symm⟩
    · cases hsome
  obtain ⟨rfl, rfl⟩ := hrule
  obtain rfl := Except.ok.inj hre
  have htext : "^curl$".toList = '^' :: "curl".toList ++ ['$'] := by decide
  rw [beq_iff_eq, htext, append_left_inj, List.cons.injEq]
  constructor
  · rintro ⟨-, heq⟩
    exact (String.toList_inj.mp heq).symm
  · rintro rfl
    exact ⟨rfl, rfl⟩

def sampleSettings : PmarkSettings := ⟨7, 0x12345678, fun mark => mark.setWidth 64⟩

def sampleRuleOpts : RuleOpts := ⟨[], [⟨.comm, "^curl$"⟩, ⟨.pid, "7"⟩]⟩

/-- The rules of the sample, with one left to userspace. -/
def sampleConfig : PmarkConfig ListTracker where
  ruleIDs := [0, 1]
  check := checkProcess listTracker 7 0x12345678 [0, 1]
  kernelPolicy := ⟨.positiveOnly, [⟨"curl", 7, 0x12345678⟩]⟩

def sampleTracker : ListTracker :=
  (defaultTunChecker anchoredHost sampleSettings (some listTracker) sampleRuleOpts ⟨[], []⟩).2

def curlProcess : ProcessInfo := ⟨⟨12⟩, "curl", "curl --proxy", "/usr/bin/curl"⟩

/-- An exact name and a process ID: what the kernel marks, the checker marks. -/
theorem kernel_policy_agrees_curl :
    defaultTunChecker anchoredHost sampleSettings (some listTracker) sampleRuleOpts ⟨[], []⟩ =
        (.ok (some sampleConfig), sampleTracker) ∧
      (sampleConfig.check sampleTracker curlProcess).1.isSome = true := by
  have hconfig : defaultTunChecker anchoredHost sampleSettings (some listTracker) sampleRuleOpts
      ⟨[], []⟩ = (.ok (some sampleConfig), sampleTracker) := rfl
  refine ⟨hconfig, ?_⟩
  have hagrees := kernel_policy_agrees anchoredHost_exactComm listTracker_answers hconfig
    (fun _ _ => rfl) curlProcess
  exact hagrees.2.1 rfl ⟨_, mem_singleton_self _, rfl⟩

end SysnetLinux.Rules
