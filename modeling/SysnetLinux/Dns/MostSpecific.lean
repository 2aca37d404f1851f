/-
  SysnetLinux.Dns.MostSpecific

  `resolvedRouteFunc` picks the route of the most specific domain.

  The source compares texts and their lengths.  Over labels, a domain serves the names whose
  labels end in its own (`serves_iff_ancestor`), and among the domains of one name more bytes are
  more labels (`domainLength_le_iff`).
-/

import SysnetLinux.Dns.SearchDomains
import SysnetLinux.Lib.FirstMax

namespace SysnetLinux.Dns

open Netip Strings List

/-! ## Labels -/

/-- The labels of a domain name, the root having none. -/
def domainLabels (domain : String) : List (List Char) :=
  if domain = rootDomain then [] else Text.fields '.' domain.toList

/-- The domain is the name or one above it. -/
def Ancestor (domain name : String) : Prop := domainLabels domain <:+ domainLabels name
  deriving Decidable

def Dotted (name : String) : Prop := ['.'] <:+ name.toList

theorem dotted_rootDomain : Dotted rootDomain := suffix_refl _

theorem dotted_normalizeResolvedDomain (domain : String) :
    Dotted (normalizeResolvedDomain domain) := by
  unfold normalizeResolvedDomain
  simp only
  split
  · exact dotted_rootDomain
  · rw [Dotted, String.toList_ofList]
    exact suffix_append _ _

variable {name : String} {b : RouteBuilder}

theorem Dotted.ne_empty (h : Dotted name) : name ≠ "" := by
  rintro rfl
  exact absurd (suffix_nil.mp h) (cons_ne_nil _ _)

theorem domainLabels_rootDomain : domainLabels rootDomain = [] := if_pos rfl

/-- A domain serves the names below it. -/
theorem serves_iff_ancestor {domain : String} (hname : Dotted name) (hdomain : Dotted domain) :
    Serves name domain ↔ Ancestor domain name := by
  unfold Ancestor
  by_cases hroot : domain = rootDomain
  · rw [hroot, domainLabels_rootDomain]
    exact iff_of_true (.inl rfl) (nil_suffix)
  by_cases hname' : name = rootDomain
  · have hlabels : domainLabels domain ≠ [] := by
      rw [domainLabels, if_neg hroot]
      exact Text.fields_ne_nil (mt String.toList_eq_nil_iff.mp hdomain.ne_empty)
    rw [hname', domainLabels_rootDomain, suffix_nil]
    exact iff_of_false (fun h => hroot (serves_root hdomain.ne_empty h)) hlabels
  · rw [domainLabels, domainLabels, if_neg hroot, if_neg hname',
      Text.fields_suffix_iff hname hdomain, Serves, or_iff_right hroot, dnsNameMatchesDomain,
      Bool.or_eq_true_iff, beq_iff_eq, isSuffixOf_iff_suffix, String.toList_inj]

/-! ## Lengths -/

/-- The bytes of labels, with a dot behind each. -/
def labelBytes (labels : List (List Char)) : Nat :=
  (labels.map fun label => (String.ofList label).utf8ByteSize + 1).sum

theorem utf8ByteSize_terminate (labels : List (List Char)) :
    (String.ofList (Text.terminate '.' labels)).utf8ByteSize = labelBytes labels := by
  induction labels with
  | nil => rfl
  | cons label labels ih =>
    have hdot : (String.ofList ['.']).utf8ByteSize = 1 := by decide
    rw [Text.terminate, flatMap_cons, String.ofList_append, String.ofList_append,
      String.utf8ByteSize_append, String.utf8ByteSize_append, hdot, labelBytes, map_cons,
      sum_cons]
    exact congrArg (_ + ·) ih

theorem domainLength_eq {domain : String} (h : Dotted domain) :
    domainLength domain = labelBytes (domainLabels domain) := by
  by_cases hroot : domain = rootDomain
  · rw [hroot]
    rfl
  · rw [domainLength, if_neg hroot, domainLabels, if_neg hroot, ← utf8ByteSize_terminate,
      Text.terminate_fields (.inr h), String.ofList_toList]

theorem labelBytes_append (front labels : List (List Char)) :
    labelBytes (front ++ labels) = labelBytes front + labelBytes labels := by
  rw [labelBytes, map_append, sum_append]
  rfl

theorem length_le_labelBytes (labels : List (List Char)) : labels.length ≤ labelBytes labels := by
  induction labels with
  | nil => exact Nat.le_refl _
  | cons label labels ih =>
    rw [labelBytes, map_cons, sum_cons, length_cons]
    rw [labelBytes] at ih
    omega

/-- Where one domain is above another, it has fewer bytes exactly if it has fewer labels. -/
theorem labelBytes_le_iff_of_suffix {a b : List (List Char)} (h : a <:+ b) :
    labelBytes b ≤ labelBytes a ↔ b.length ≤ a.length := by
  obtain ⟨front, rfl⟩ := h
  have hfront := length_le_labelBytes front
  rw [labelBytes_append, length_append]
  constructor
  · intro hle
    omega
  · intro hle
    have hnil : front = [] := length_eq_zero_iff.mp (by omega)
    subst hnil
    exact Nat.le_of_eq (Nat.zero_add _)

/-- Of two domains of one name, the one with more bytes has more labels. -/
theorem domainLength_le_iff {d e : String} (hd : Dotted d) (he : Dotted e)
    (hdname : Ancestor d name) (hename : Ancestor e name) :
    domainLength e ≤ domainLength d ↔ (domainLabels e).length ≤ (domainLabels d).length := by
  rw [domainLength_eq hd, domainLength_eq he]
  rcases suffix_or_suffix_of_suffix hdname hename with h | h
  · exact labelBytes_le_iff_of_suffix h
  · have hle : (domainLabels e).length ≤ (domainLabels d).length := h.length_le
    refine iff_of_true ?_ hle
    obtain ⟨front, hfront⟩ := h
    rw [← hfront, labelBytes_append]
    omega

/-! ## The search -/

section Search

variable {routes : List UpstreamRoute} {question : String}

instance {domain : String} : Decidable (Serves question domain) := inferInstanceAs (Decidable (_ ∨ _))

/-- The domains that serve the question, with their routes, in the order of the loops. -/
def candidates (question : String) (routes : List UpstreamRoute) :
    List (UpstreamRoute × String) :=
  routes.flatMap fun route =>
    (route.domains.filter fun d => decide (Serves question d)).map fun d => (route, d)

theorem mem_candidates {x : UpstreamRoute × String} :
    x ∈ candidates question routes ↔ x.1 ∈ routes ∧ x.2 ∈ x.1.domains ∧ Serves question x.2 := by
  unfold candidates
  rw [mem_flatMap]
  constructor
  · rintro ⟨route, hroute, hx⟩
    obtain ⟨d, hd, rfl⟩ := mem_map.mp hx
    obtain ⟨hmem, hserves⟩ := mem_filter.mp hd
    exact ⟨hroute, hmem, of_decide_eq_true hserves⟩
  · rintro ⟨hroute, hmem, hserves⟩
    exact ⟨x.1, hroute, mem_map.mpr ⟨x.2, mem_filter.mpr ⟨hmem, decide_eq_true hserves⟩, rfl⟩⟩

/-- One candidate of the loops. -/
def BestRoute.tryCandidate (best : BestRoute) (x : UpstreamRoute × String) : BestRoute :=
  if best.length < domainLength x.2 then ⟨x.1.name, domainLength x.2⟩ else best

theorem tryRoute_eq_foldl (best : BestRoute) (route : UpstreamRoute) :
    best.tryRoute question route =
      ((route.domains.filter fun d => decide (Serves question d)).map fun d =>
        (route, d)).foldl BestRoute.tryCandidate best := by
  unfold BestRoute.tryRoute
  rw [foldl_map, foldl_filter]
  refine foldl_ext _ _ _ fun b d _ => ?_
  by_cases hserves : Serves question d
  · rw [if_pos (decide_eq_true hserves)]
    exact if_pos hserves
  · rw [if_neg (by rw [decide_eq_true_eq]; exact hserves)]
    exact if_neg hserves

/-- The two loops are one loop over the candidates. -/
theorem foldl_tryRoute_eq (best : BestRoute) : routes.foldl (BestRoute.tryRoute question) best =
      (candidates question routes).foldl BestRoute.tryCandidate best := by
  unfold candidates
  rw [foldl_flatMap]
  exact foldl_ext _ _ _ fun b route _ => tryRoute_eq_foldl b route

/-- No candidate of the question is longer than this one. -/
def Longest (question : String) (routes : List UpstreamRoute) (x : UpstreamRoute × String) :
    Prop :=
  ∀ y ∈ candidates question routes, (domainLength y.2 : Int) ≤ domainLength x.2
  deriving Decidable

/-- The first candidate of the greatest length. -/
theorem resolvedRouteFunc_eq_candidate (routes : List UpstreamRoute) (message : Option String) :
    resolvedRouteFunc routes message =
      (((candidates (resolvedQuestionName message) routes).find? fun x =>
        decide (Longest (resolvedQuestionName message) routes x)).map fun x => x.1.name).getD "" := by
  have hlongest : (fun x => decide (Longest (resolvedQuestionName message) routes x)) = fun x =>
      decide (∀ y ∈ candidates (resolvedQuestionName message) routes,
        (domainLength y.2 : Int) ≤ domainLength x.2) :=
    funext fun x => decide_eq_decide.mpr Iff.rfl
  rw [hlongest, resolvedRouteFunc, foldl_tryRoute_eq]
  generalize candidates (resolvedQuestionName message) routes = l
  have hmake : ∀ x : UpstreamRoute × String,
      (BestRoute.mk x.1.name (domainLength x.2)).length = domainLength x.2 := fun x => rfl
  have hstep : ∀ (best : BestRoute) (x : UpstreamRoute × String), best.tryCandidate x =
      if best.length < domainLength x.2 then ⟨x.1.name, domainLength x.2⟩ else best :=
    fun best x => rfl
  have hstart : ∀ x ∈ l, (⟨"", -1⟩ : BestRoute).length < domainLength x.2 := by
    intro x _
    show (-1 : Int) < domainLength x.2
    omega
  rw [FirstMax.foldl_eq_find? hmake hstep hstart]
  cases l.find? fun x => decide (∀ y ∈ l, (domainLength y.2 : Int) ≤ domainLength x.2) with
  | none | some x => rfl

/-- The route owns a domain above the name that no domain above the name exceeds in labels. -/
def OwnsMostSpecific (routes : List UpstreamRoute) (name : String) (route : UpstreamRoute) :
    Prop :=
  ∃ d ∈ route.domains, Ancestor d name ∧ ∀ other ∈ routes, ∀ e ∈ other.domains,
    Ancestor e name → (domainLabels e).length ≤ (domainLabels d).length
  deriving Decidable

/-- The domains of all routes end in a dot. -/
def DottedRoutes (routes : List UpstreamRoute) : Prop :=
  ∀ route ∈ routes, ∀ d ∈ route.domains, Dotted d

theorem ownsMostSpecific_iff (hroutes : DottedRoutes routes) (hquestion : Dotted question)
    {route : UpstreamRoute} (hroute : route ∈ routes) :
    OwnsMostSpecific routes question route ↔
      ∃ d ∈ route.domains, Serves question d ∧ Longest question routes (route, d) := by
  have hserves : ∀ r ∈ routes, ∀ d ∈ r.domains, (Serves question d ↔ Ancestor d question) :=
    fun r hr d hd => serves_iff_ancestor hquestion (hroutes r hr d hd)
  constructor
  · rintro ⟨d, hd, hancestor, hmost⟩
    refine ⟨d, hd, (hserves route hroute d hd).mpr hancestor, fun y hy => ?_⟩
    obtain ⟨hother, he, hname⟩ := mem_candidates.mp hy
    have hname := (hserves y.1 hother y.2 he).mp hname
    exact Int.ofNat_le.mpr ((domainLength_le_iff (hroutes route hroute d hd)
      (hroutes y.1 hother y.2 he) hancestor hname).mpr (hmost y.1 hother y.2 he hname))
  · rintro ⟨d, hd, hname, hlongest⟩
    have hancestor := (hserves route hroute d hd).mp hname
    refine ⟨d, hd, hancestor, fun other hother e he hename => ?_⟩
    have hle := hlongest (other, e)
      (mem_candidates.mpr ⟨hother, he, (hserves other hother e he).mpr hename⟩)
    exact (domainLength_le_iff (hroutes route hroute d hd) (hroutes other hother e he) hancestor
      hename).mp (Int.ofNat_le.mp hle)

/-- The first candidate that meets a test is in the first route that has one. -/
theorem find?_candidates {p : UpstreamRoute × String → Bool} {q : UpstreamRoute → Bool}
    (h : ∀ route ∈ routes, (q route = true ↔ ∃ d ∈ route.domains, Serves question d ∧
      p (route, d) = true)) :
    ((candidates question routes).find? p).map (fun x => x.1.name) =
      (routes.find? q).map UpstreamRoute.name := by
  induction routes with
  | nil => rfl
  | cons route routes ih =>
    have hcons : candidates question (route :: routes) =
        ((route.domains.filter fun d => decide (Serves question d)).map fun d => (route, d)) ++
          candidates question routes := flatMap_cons
    rw [hcons, find?_append, find?_cons]
    have hhere := h route mem_cons_self
    cases hfind : ((route.domains.filter fun d => decide (Serves question d)).map
        fun d => (route, d)).find? p with
    | some x =>
      have hx := mem_of_find?_eq_some hfind
      obtain ⟨d, hd, rfl⟩ := mem_map.mp hx
      obtain ⟨hmem, hserves⟩ := mem_filter.mp hd
      have hq : q route = true := hhere.mpr ⟨d, hmem, of_decide_eq_true hserves, find?_some hfind⟩
      rw [hq]
      rfl
    | none =>
      have hq : q route = false := by
        refine Bool.eq_false_iff.mpr fun hq => ?_
        obtain ⟨d, hmem, hserves, hp⟩ := hhere.mp hq
        exact find?_eq_none.mp hfind (route, d) (mem_map.mpr
          ⟨d, mem_filter.mpr ⟨hmem, decide_eq_true hserves⟩, rfl⟩) hp
      rw [hq]
      exact ih fun r hr => h r (mem_cons_of_mem route hr)

/-- The question goes to the first route that owns a most specific domain. -/
theorem resolvedRouteFunc_eq_find? (hroutes : DottedRoutes routes) (message : Option String)
    (hquestion : Dotted (resolvedQuestionName message)) :
    resolvedRouteFunc routes message = ((routes.find? fun route =>
        decide (OwnsMostSpecific routes (resolvedQuestionName message) route)).map
          UpstreamRoute.name).getD "" := by
  rw [resolvedRouteFunc_eq_candidate]
  congr 1
  refine find?_candidates fun route hroute => ?_
  simp only [decide_eq_true_eq]
  exact ownsMostSpecific_iff hroutes hquestion hroute

end Search

/-! ## Names with one normal form -/

/-- The name has no white space. -/
def Unspaced (name : String) : Prop := ∀ c ∈ name.toList, isSpace c = false

/-- The second name is the first with other cases of letters, or with a dot added. -/
def NameVariant (s t : String) : Prop :=
  Unspaced s ∧ Unspaced t ∧
    (s.toList.map toLower = t.toList.map toLower ∨
      ¬ Dotted s ∧ t = s ++ ".")

/-- The normal form of a lowered name without white space. -/
def normalizeLowered (s : List Char) : String :=
  let trimmed := trimHead '~' s
  if trimmed = [] ∨ trimmed = ['.'] then rootDomain
  else String.ofList (trimLast '.' trimmed ++ ['.'])

theorem map_toLower_trimHead {c : Char} (hc : Caseless c) (s : List Char) :
    (trimHead c s).map toLower = trimHead c (s.map toLower) := by
  cases s with
  | nil => rfl
  | cons d s =>
    rw [map_cons, trimHead, trimHead]
    by_cases hd : d = c
    · rw [if_pos hd, if_pos ((toLower_eq_iff hc).mpr hd)]
    · rw [if_neg hd, if_neg (mt (toLower_eq_iff hc).mp hd), map_cons]

theorem map_toLower_eq_dot {s : List Char} : s.map toLower = ['.'] ↔ s = ['.'] := by
  rw [map_eq_singleton_iff]
  constructor
  · rintro ⟨c, rfl, hc⟩
    rw [(toLower_eq_iff (by decide)).mp hc]
  · rintro rfl
    exact ⟨'.', rfl, by decide⟩

/-- A name without white space has the normal form of its lowered letters. -/
theorem normalizeResolvedDomain_eq (h : Unspaced name) :
    normalizeResolvedDomain name = normalizeLowered (name.toList.map toLower) := by
  have htrim : trimSpace (trimHead '~' name.toList) = trimHead '~' name.toList :=
    trimSpace_eq_self fun c hc => h c (trimHead_subset c hc)
  unfold normalizeResolvedDomain normalizeLowered
  simp only [htrim, ← map_toLower_trimHead (c := '~') (by decide), map_eq_nil_iff,
    map_toLower_eq_dot]

/-- A dot behind a name that has none does not show in the normal form. -/
theorem normalizeLowered_append_dot {s : List Char} (h : ¬ ['.'] <:+ s) :
    normalizeLowered (s ++ ['.']) = normalizeLowered s := by
  by_cases hs : s = []
  · rw [hs]
    rfl
  unfold normalizeLowered
  rw [trimHead_append hs]
  generalize htrimmed : trimHead '~' s = t
  have ht : ¬ ['.'] <:+ t := by
    intro hsuffix
    refine h (hsuffix.trans ?_)
    rw [← htrimmed]
    cases s with
    | nil => exact suffix_refl _
    | cons d s =>
      rw [trimHead]
      split
      · exact suffix_cons d s
      · exact suffix_refl _
  have hdot : t ≠ ['.'] := fun heq => ht (heq ▸ suffix_refl _)
  by_cases hnil : t = []
  · rw [hnil]
    rfl
  · simp [hnil, hdot, trimLast_append_singleton, trimLast_of_not_suffix ht]

theorem NameVariant.normalize_eq {s t : String} (h : NameVariant s t) :
    normalizeResolvedDomain s = normalizeResolvedDomain t := by
  obtain ⟨hs, ht, hvariant⟩ := h
  rw [normalizeResolvedDomain_eq hs, normalizeResolvedDomain_eq ht]
  rcases hvariant with hcase | ⟨hdot, rfl⟩
  · rw [hcase]
  · have hlast : ¬ ['.'] <:+ s.toList.map toLower := by
      intro hsuffix
      rw [suffix_map_iff] at hsuffix
      obtain ⟨l, hl, heq⟩ := hsuffix
      rw [map_toLower_eq_dot.mp heq.symm] at hl
      exact hdot hl
    rw [String.toList_append, map_append]
    exact (normalizeLowered_append_dot hlast).symm

/-- Names with one normal form, by any number of changes. -/
theorem normalize_eq_of_eqvGen {s t : String} (h : Relation.EqvGen NameVariant s t) :
    normalizeResolvedDomain s = normalizeResolvedDomain t := by
  induction h with
  | rel s t h => exact h.normalize_eq
  | refl s => rfl
  | symm s t _ ih => exact ih.symm
  | trans s t u _ _ ihs iht => exact ihs.trans iht

/-! ## Routes that a builder makes -/

/-- One call of the builder. -/
inductive BuilderCall where
  | link (servers : List AddrPort) (domains : List LinkDomain)
  | global (servers : List AddrPort) (domains : List GlobalDomain)
  | default (servers : List AddrPort)
  deriving DecidableEq, Repr

def RouteBuilder.call (b : RouteBuilder) : BuilderCall → RouteBuilder
  | .link servers domains => b.addLink servers domains
  | .global servers domains => b.addGlobal servers domains
  | .default servers => b.addDefault servers

/-- The routes that `config` returns after these calls. -/
def builtRoutes (calls : List BuilderCall) : List UpstreamRoute :=
  RouteBuilder.routes (calls.foldl RouteBuilder.call [])

/-- The calls differ in the writing of domains only. -/
inductive BuilderCall.Variant : BuilderCall → BuilderCall → Prop where
  | link {servers : List AddrPort} {domains domains' : List LinkDomain}
      (h : List.Forall₂ (fun d e => Relation.EqvGen NameVariant d.domain e.domain) domains
        domains') : Variant (.link servers domains) (.link servers domains')
  | global {servers : List AddrPort} {domains domains' : List GlobalDomain}
      (h : List.Forall₂ (fun d e => Relation.EqvGen NameVariant d.domain e.domain) domains
        domains') : Variant (.global servers domains) (.global servers domains')
  | default {servers : List AddrPort} : Variant (.default servers) (.default servers)

/-- The inputs of the builder have domains in normal form. -/
def RouteBuilder.DottedInputs (b : RouteBuilder) : Prop := ∀ input ∈ b, ∀ d ∈ input.domains, Dotted d

theorem RouteBuilder.DottedInputs.add (hb : b.DottedInputs) (servers : List AddrPort)
    {domains : List String} (h : ∀ d ∈ domains, Dotted d) :
    (b.add servers domains).DottedInputs := by
  unfold RouteBuilder.add
  simp only
  split
  · exact hb
  · intro input hinput d hd
    rcases mem_append.mp hinput with hinput | hinput
    · exact hb input hinput d hd
    · rw [mem_singleton.mp hinput] at hd
      have hmem := (mem_dedupeStrings.mp hd).1
      split at hmem
      · rw [mem_singleton.mp hmem]
        exact dotted_rootDomain
      · exact h d hmem

theorem RouteBuilder.DottedInputs.call (hb : b.DottedInputs) (c : BuilderCall) :
    (b.call c).DottedInputs := by
  cases c with
  | link servers domains | global servers domains =>
    refine hb.add servers fun d hd => ?_
    obtain ⟨e, -, rfl⟩ := mem_map.mp hd
    exact dotted_normalizeResolvedDomain e.domain
  | default servers =>
    refine hb.add servers fun d hd => ?_
    rw [mem_singleton.mp hd]
    exact dotted_rootDomain

theorem dottedInputs_foldl (calls : List BuilderCall) (hb : b.DottedInputs) :
    (calls.foldl RouteBuilder.call b).DottedInputs := by
  induction calls generalizing b with
  | nil => exact hb
  | cons c calls ih =>
    rw [foldl_cons]
    exact ih (hb.call c)

theorem dottedRoutes_builtRoutes (calls : List BuilderCall) : DottedRoutes (builtRoutes calls) := by
  intro route hroute d hd
  obtain ⟨x, hx, rfl⟩ := mem_map.mp hroute
  have hinput : x.1 ∈ calls.foldl RouteBuilder.call [] :=
    mem_of_getElem? (mem_zipIdx_iff_getElem?.mp (mem_filter.mp hx).1)
  have hnone : RouteBuilder.DottedInputs [] := fun input hmem => absurd hmem not_mem_nil
  exact dottedInputs_foldl calls hnone x.1 hinput d hd

theorem map_normalize_eq {α : Type} {domain : α → String} {ds es : List α}
    (h : List.Forall₂ (fun d e => Relation.EqvGen NameVariant (domain d) (domain e)) ds es) :
    ds.map (fun d => normalizeResolvedDomain (domain d)) =
      es.map fun d => normalizeResolvedDomain (domain d) := by
  induction h with
  | nil => rfl
  | cons hd _ ih => rw [map_cons, map_cons, normalize_eq_of_eqvGen hd, ih]

theorem BuilderCall.Variant.call_eq {c c' : BuilderCall} (h : c.Variant c') (b : RouteBuilder) :
    b.call c = b.call c' := by
  cases h with
  | link h | global h => exact congrArg (b.add _) (map_normalize_eq h)
  | default => rfl

theorem builtRoutes_eq_of_variant {calls calls' : List BuilderCall}
    (h : List.Forall₂ BuilderCall.Variant calls calls') : builtRoutes calls = builtRoutes calls' := by
  unfold builtRoutes
  generalize ([] : RouteBuilder) = b
  congr 1
  induction h generalizing b with
  | nil => rfl
  | cons hc _ ih => rw [foldl_cons, foldl_cons, hc.call_eq, ih]

theorem dotted_resolvedQuestionName (message : Option String) :
    Dotted (resolvedQuestionName message) := by
  cases message with
  | none => exact dotted_rootDomain
  | some name => exact dotted_normalizeResolvedDomain name

/-- A question finds no route exactly where no configured domain is above its name. -/
theorem resolvedRouteFunc_eq_empty_iff (calls : List BuilderCall) (message : Option String) :
    resolvedRouteFunc (builtRoutes calls) message = "" ↔
      ∀ route ∈ builtRoutes calls, ∀ d ∈ route.domains,
        ¬ Ancestor d (resolvedQuestionName message) := by
  have hserves : ∀ route ∈ builtRoutes calls, ∀ d ∈ route.domains,
      (Serves (resolvedQuestionName message) d ↔ Ancestor d (resolvedQuestionName message)) :=
    fun route hroute d hd => serves_iff_ancestor (dotted_resolvedQuestionName message)
      (dottedRoutes_builtRoutes calls route hroute d hd)
  rcases foldl_tryRoute (builtRoutes calls) (resolvedQuestionName message) with
    ⟨hbest, hnone⟩ | ⟨⟨found, hfound, hname⟩, route, hroute, d, hd, hd'⟩
  · refine iff_of_true (by rw [resolvedRouteFunc, hbest]) fun route hroute d hd hancestor => ?_
    exact hnone route hroute d hd ((hserves route hroute d hd).mpr hancestor)
  · refine iff_of_false (fun hempty => ?_) fun hno => ?_
    · exact route_name_ne hfound (hname.symm.trans hempty)
    · exact hno route hroute d hd ((hserves route hroute d hd).mp hd')

/-- The question goes to the first route that owns a domain above its name with the most
    labels, and nowhere if no configured domain is above it.  The case of letters and a
    missing last dot make no difference, in the question and in the domains. -/
theorem most_specific_route (calls : List BuilderCall) (message : Option String) :
    resolvedRouteFunc (builtRoutes calls) message =
        (((builtRoutes calls).find? fun route => decide
          (OwnsMostSpecific (builtRoutes calls) (resolvedQuestionName message) route)).map
            UpstreamRoute.name).getD "" ∧
      (resolvedRouteFunc (builtRoutes calls) message = "" ↔
        ∀ route ∈ builtRoutes calls, ∀ d ∈ route.domains,
          ¬ Ancestor d (resolvedQuestionName message)) ∧
      (∀ name name', message = some name → Relation.EqvGen NameVariant name name' →
        resolvedRouteFunc (builtRoutes calls) (some name') =
          resolvedRouteFunc (builtRoutes calls) message) ∧
      ∀ calls', List.Forall₂ BuilderCall.Variant calls calls' →
        resolvedRouteFunc (builtRoutes calls') message =
          resolvedRouteFunc (builtRoutes calls) message := by
  refine ⟨?_, resolvedRouteFunc_eq_empty_iff calls message, ?_, ?_⟩
  · exact resolvedRouteFunc_eq_find? (dottedRoutes_builtRoutes calls) message
      (dotted_resolvedQuestionName message)
  · rintro name name' rfl hvariant
    have hname : resolvedQuestionName (some name') = resolvedQuestionName (some name) :=
      (normalize_eq_of_eqvGen hvariant).symm
    rw [resolvedRouteFunc, hname]
    rfl
  · intro calls' hcalls
    rw [builtRoutes_eq_of_variant hcalls]

/-- Two links with nested domains and a default. -/
example :
    let server : AddrPort := ⟨.v4 0xC0000201, 53⟩
    let routes := builtRoutes [.link [server] [⟨"example.org", false⟩],
      .global [server] [⟨3, "~Corp.Example.ORG.", true⟩], .default [server]]
    resolvedRouteFunc routes (some "www.corp.example.org") = "default-1" ∧
      resolvedRouteFunc routes (some "xexample.org") = "default-2" := by
  decide +kernel

end SysnetLinux.Dns
