/-
  SysnetLinux.Dns.Static.Rollback

  `Direct` gives /etc/resolv.conf back, and spares the files of others.

  A history mixes calls, whose steps can fail, with writes and removals by others.  Between calls
  a file with the mark of the provider names the remembered server (`Rolled`); `UnsetDNS` and
  `Close` write nothing but the contents at construction, over a file that is absent or their own.
-/

import SysnetLinux.Dns.Static.NoLoop

namespace SysnetLinux.Dns.Static.Direct

open Netip List
open CallProg CallProg.Prog

/-! ## Histories -/

/-- The calls that can fail here: besides those that leave the package, a commit. -/
def refusable : Call → Bool
  | .commit _ => true
  | c => c.external

abbrev directWorld : Handler Call Reply CallError World := flaky (fun c => refusable c = true) act

theorem fallible_refusable : Fallible fun c => refusable c = true where
  outside := fun c hc => by
    cases c with
    | commit client => exact .inr ⟨client, rfl⟩
    | _ => exact .inl hc

/-- A file that does not have the mark of the provider. -/
def Foreign (file : Option String) : Prop := file.any directResolvconfOwned = false

instance (file : Option String) : Decidable (Foreign file) :=
  inferInstanceAs (Decidable (_ = false))

theorem Foreign.not_owned {h : Host} (hforeign : Foreign h.file) : ¬ h.Owned := by
  intro howned
  rw [Host.Owned, hforeign] at howned
  cases howned

/-- Someone else has written or removed the file. -/
def overwritten (w : World) (file : Option String) : World :=
  { w with host := { w.host with file := file, managed := none } }

/-- The worlds between the calls of a history. -/
inductive History (parse : String → Except String (List Addr)) (w₀ : World) : World → Prop
  | constructed {tr : List (Event Call World)} {w : World} :
      Exec directWorld (newDirect parse) w₀ tr [] w → History parse w₀ w
  | performed {w w' : World} {op : Operation} {tr : List (Event Call World)}
      {errs : List ProviderError} :
      History parse w₀ w → Exec directWorld (Backend.direct.perform op) w tr errs w' →
      History parse w₀ w'
  | overwritten {w : World} {file : Option String} :
      History parse w₀ w → Foreign file → History parse w₀ (overwritten w file)

/-! ## The invariant -/

/-- Between calls: the file of the provider names the remembered server, which can be taken
    out again.  `original` is the file at construction. -/
structure Rolled (original : Option String) (w : World) : Prop where
  owned : w.host.Owned →
    w.provider.setDNSActive = true ∧ w.host.file = some (resolvconfForServer w.provider.setDNS)
  original : w.provider.original = original
  valid : ∀ s ∈ w.provider.originalServers, s.isValid = true
  upstreams : w.provider.setDNSActive = true → upstreamURLs w.upstreams [w.provider.setDNS] ≠ []
  router : w.router.closed = true → w.provider.closed = true

/-- What `UnsetDNS` and `Close` may do to the host: put the original file back, over a file
    that is absent or owned by the provider. -/
def RestoresOnly (original : Option String) : Call → World → Prop
  | .writeFile data _, w => original = some data ∧ w.host.Replaceable
  | .removeFile, w => original = none ∧ w.host.Replaceable
  | .resolvconf _ _ _, _ => False
  | _, _ => True

section Calls

variable {original : Option String} {w w' : World}

section

variable (h : Rolled original w)
include h

theorem Rolled.committed (client : Client) : Rolled original (w.committed client) :=
  ⟨h.owned, h.original, h.valid, h.upstreams, h.router⟩

theorem Rolled.refreshed {exclude : List Addr} {errs : List ProviderError}
    (hend : Refreshed w exclude errs w') :
    Rolled original w' ∧ w'.host = w.host ∧ w'.provider.closed = w.provider.closed := by
  cases hend with
  | kept => exact ⟨h, rfl, rfl⟩
  | committed => exact ⟨h.committed _, rfl, rfl⟩
  | failed => exact ⟨h, rfl, rfl⟩

theorem Rolled.shut : Rolled original w.shut :=
  ⟨h.owned, h.original, h.valid, h.upstreams, fun _ => rfl⟩

theorem Rolled.forget (hforeign : ¬ w.host.Owned) : Rolled original w.forget where
  owned := fun howned => absurd howned hforeign
  original := h.original
  valid := h.valid
  upstreams := fun hactive => by cases hactive
  router := h.router

theorem Rolled.ofFile {file : Option String} {managed : Option Addr} (hforeign : Foreign file) :
    Rolled original { w with host := { w.host with file := file, managed := managed } } where
  owned := fun howned => absurd howned hforeign.not_owned
  original := h.original
  valid := h.valid
  upstreams := h.upstreams
  router := h.router

/-- Without the flag the file is not the provider's. -/
theorem Rolled.not_owned (hinactive : w.provider.setDNSActive = false) : ¬ w.host.Owned := by
  intro howned
  have hactive := (h.owned howned).1
  rw [hinactive] at hactive
  cases hactive

theorem Rolled.restored (hforeign : Foreign original) :
    Rolled original w.restored ∧ ¬ w.restored.host.Owned := by
  have hfile : Foreign w.provider.original := by
    rw [h.original]
    exact hforeign
  exact ⟨h.ofFile hfile, Foreign.not_owned (h := w.restored.host) hfile⟩

end

/-- A file that is skipped is not the provider's. -/
theorem not_owned_of_skipped (h : ¬ w.host.Replaceable) : ¬ w.host.Owned :=
  fun howned => h howned.replaceable

theorem rolled_setDNS (h : Rolled original w) (server : Addr) :
    wp directWorld Any (fun _ w' => Rolled original w') (setDNS server) w := by
  unfold setDNS Actions.setDNS
  split
  · exact h
  refine wp_section fallible_refusable rfl (fun _ => Call.noConfusion) rfl trivial ?_
  split
  · exact h
  dsimp only
  refine wp_orReturn (wp_post (fun errs w₁ hend => ?_) (wp_refreshUpstreams fallible_refusable _
    fun _ _ => ⟨trivial, trivial⟩))
  obtain ⟨h₁, -, -⟩ := h.refreshed hend
  split
  · rename_i hnil
    subst hnil
    have hleft : upstreamURLs w₁.upstreams [server] ≠ [] := by
      refine hend.left h.valid ?_
      split <;> exact mem_cons_self
    refine wp_orReturn (wp_step rfl trivial ?_ fun e => h₁)
    change wp directWorld Any (fun _ w' => Rolled original w')
      (step .other (.installed server) fun _ => .ret []) _
    refine wp_section fallible_refusable rfl (fun _ => Call.noConfusion) rfl trivial ?_
    exact ⟨fun _ => ⟨rfl, rfl⟩, h₁.original, h₁.valid, fun _ => hleft, h₁.router⟩
  · exact h₁

theorem rolled_restoreResolvConfIfOwned (hforeign : Foreign original) (h : Rolled original w) :
    wp directWorld (RestoresOnly original)
      (fun errs w' => Rolled original w' ∧ w'.provider = w.provider ∧
        (errs = [] → ¬ w'.host.Owned)) restoreResolvConfIfOwned w := by
  refine wp_post (fun errs w' hend => ?_) (wp_restoreResolvConfIfOwned fallible_refusable trivial
    trivial (fun hreplaceable text htext => ⟨h.original ▸ htext, hreplaceable⟩)
    fun hreplaceable hnone => ⟨h.original ▸ hnone, hreplaceable⟩)
  cases hend with
  | skipped hskipped => exact ⟨h, rfl, fun _ => not_owned_of_skipped hskipped⟩
  | restored =>
    obtain ⟨hrestored, hnot⟩ := h.restored hforeign
    exact ⟨hrestored, rfl, fun _ => hnot⟩
  | failed hne => exact ⟨h, rfl, fun hnil => absurd hnil hne⟩

theorem rolled_unsetDNS (hforeign : Foreign original) (h : Rolled original w) :
    wp directWorld (RestoresOnly original)
      (fun errs w' => Rolled original w' ∧ (errs = [] → ¬ w'.host.Owned)) unsetDNS w := by
  refine wp_section fallible_refusable rfl (fun _ => Call.noConfusion) rfl trivial ?_
  split
  · exact ⟨h, fun hnil => absurd hnil (cons_ne_nil _ _)⟩
  split
  · rename_i hinactive
    exact ⟨h, fun _ => h.not_owned hinactive⟩
  rw [wp_bind]
  refine wp_post (fun errs w₁ hend => ?_) (rolled_restoreResolvConfIfOwned hforeign h)
  obtain ⟨h₁, -, hgone⟩ := hend
  rw [wp_bind]
  refine wp_post (fun errs' w₂ hend' => ?_) (wp_refreshUpstreams fallible_refusable _ ?_)
  · obtain ⟨h₂, hhost, -⟩ := h₁.refreshed hend'
    split
    · rename_i hnil
      have hnot : ¬ w₂.host.Owned := by
        rw [hhost]
        exact hgone (append_eq_nil_iff.mp hnil).1
      refine wp_section fallible_refusable rfl (fun _ => Call.noConfusion) rfl trivial ?_
      split
      · exact ⟨h₂.forget hnot, fun _ => hnot⟩
      · exact ⟨h₂, fun _ => hnot⟩
    · rename_i hne
      exact ⟨h₂, fun hnil => absurd hnil hne⟩
  · intro c hc
    cases c with
    | writeFile data server | removeFile | resolvconf args stdin server => cases hc
    | _ => exact ⟨trivial, trivial⟩

theorem rolled_closeForwarding (client : Option Client) {errs : List ProviderError}
    (h : Rolled original w) (hclosed : w.provider.closed = true)
    (hgone : errs = [] → ¬ w.host.Owned) :
    wp directWorld (RestoresOnly original)
      (fun errs w' => Rolled original w' ∧ (errs = [] → ¬ w'.host.Owned))
      (closeForwarding client errs) w := by
  have hrouter : Rolled original { w with router := { w.router with closed := true } } :=
    ⟨h.owned, h.original, h.valid, h.upstreams, fun _ => hclosed⟩
  cases client with
  | none => exact wp_joining rfl trivial ⟨hrouter, hgone⟩ fun e => ⟨h, fun hnil => by simp at hnil⟩
  | some client =>
    have hclient : ∀ (errs' : List ProviderError) (x : World), Rolled original x →
        (errs' = [] → ¬ x.host.Owned) →
        wp directWorld (RestoresOnly original)
          (fun errs w' => Rolled original w' ∧ (errs = [] → ¬ w'.host.Owned))
          (joining .other errs' (.closeClient client) .ret) x :=
      fun errs' x hx hnot =>
        wp_joining rfl trivial ⟨hx, hnot⟩ fun e => ⟨hx, fun hnil => by simp at hnil⟩
    exact wp_joining rfl trivial (hclient errs _ hrouter hgone)
      fun e => hclient _ w h fun hnil => by simp at hnil

theorem rolled_close (hforeign : Foreign original) (h : Rolled original w) :
    wp directWorld (RestoresOnly original)
      (fun errs w' => Rolled original w' ∧ (errs = [] → ¬ w'.host.Owned)) close w := by
  by_cases hdone : w.provider.closed = true ∧ w.provider.setDNSActive = false
  · exact wp_section fallible_refusable rfl (fun _ => Call.noConfusion) (act_closing_done hdone)
      trivial ⟨h, fun _ => h.not_owned hdone.2⟩
  refine wp_section fallible_refusable rfl (fun _ => Call.noConfusion) (act_closing hdone)
    trivial ?_
  rw [wp_bind]
  unfold Actions.rollback
  split
  · refine wp_orReturn (wp_post (fun errs w₁ hend => ?_)
      (rolled_restoreResolvConfIfOwned hforeign h.shut))
    obtain ⟨h₁, hprovider, hgone⟩ := hend
    have hclosed : w₁.provider.closed = true := by
      rw [hprovider]
      rfl
    split
    · rename_i hnil
      refine wp_section fallible_refusable rfl (fun _ => Call.noConfusion) rfl trivial ?_
      split
      · exact rolled_closeForwarding _ (h₁.forget (hgone hnil)) hclosed fun _ => hgone hnil
      · exact rolled_closeForwarding _ h₁ hclosed fun _ => hgone hnil
    · exact rolled_closeForwarding _ h₁ hclosed hgone
  · rename_i hactive
    exact rolled_closeForwarding _ h.shut rfl
      fun _ => h.not_owned (Bool.eq_false_of_not_eq_true hactive)

/-- A provider that has just been constructed. -/
structure Constructed (file : Option String) (w : World) : Prop extends Rolled file w where
  inactive : w.provider.setDNSActive = false
  attached : ∀ client, w.router.attached = some client → client = w.provider.upstreamSig

theorem rolled_newDirect {parse : String → Except String (List Addr)} {fallback : List AddrPort}
    {file record : Option String} (hforeign : Foreign file) :
    wp directWorld Any (fun errs w' => errs = [] → Constructed file w')
      (newDirect parse) (World.start fallback file record) := by
  have hfailed : ∀ (errs : List ProviderError) (x : World), errs ≠ [] →
      wp directWorld Any (fun errs w' => errs = [] → Constructed file w')
        (dropping .closeRouter (.ret errs)) x := by
    intro errs x hne
    rw [dropping, wp_call_flaky]
    exact ⟨trivial, fun hnil => absurd hnil hne, fun _ _ hnil => absurd hnil hne⟩
  have hrefresh : ∀ x, Constructed file x →
      wp directWorld Any (fun errs w' => errs = [] → Constructed file w')
        ((refreshUpstreams []).bind fun errs =>
          if errs = [] then .ret [] else dropping .closeRouter (.ret errs)) x := by
    intro x hx
    rw [wp_bind]
    refine wp_post (fun errs w₁ hend => ?_) (wp_refreshUpstreams fallible_refusable _
      fun _ _ => ⟨trivial, trivial⟩)
    split
    · intro _
      refine ⟨(hx.toRolled.refreshed hend).1, ?_, ?_⟩
      · cases hend with
        | kept | committed | failed => exact hx.inactive
      · cases hend with
        | kept => exact hx.attached
        | committed => exact fun _ hclient => (Option.some.inj hclient).symm
        | failed => exact hx.attached
    · rename_i hne
      exact hfailed errs w₁ hne
  have hfilled : ∀ servers : List AddrPort, (∀ s ∈ servers, s.isValid = true) →
      Constructed file { World.start fallback file record with provider :=
        ⟨false, none, fallback, file, servers, .zero, false, []⟩ } := by
    intro servers hvalid
    refine ⟨⟨fun howned => ?_, rfl, hvalid, ?_, ?_⟩, rfl, ?_⟩
    · exact absurd howned (Foreign.not_owned (h := (World.start fallback file record).host) hforeign)
    · rintro ⟨⟩
    · rintro ⟨⟩
    · rintro client ⟨⟩
  unfold newDirect construct
  rw [wp_call_flaky]
  refine ⟨trivial, ?_, fun _ e => hfailed _ _ (cons_ne_nil _ _)⟩
  dsimp only [act, World.start]
  cases file with
  | none =>
    refine wp_section fallible_refusable rfl (fun _ => Call.noConfusion) rfl trivial ?_
    exact hrefresh _ (hfilled [] fun _ hs => by cases hs)
  | some text =>
    dsimp only
    split
    · exact hfailed _ _ (cons_ne_nil _ _)
    · rename_i servers hservers
      refine wp_section fallible_refusable rfl (fun _ => Call.noConfusion) rfl trivial ?_
      exact hrefresh _ (hfilled servers (valid_resolvconfNameservers hservers))

end Calls

theorem rolled_history {parse : String → Except String (List Addr)} {fallback : List AddrPort}
    {file record : Option String} (hforeign : Foreign file) {w : World}
    (h : History parse (World.start fallback file record) w) : Rolled file w := by
  induction h with
  | constructed hex => exact ((wp_sound hex (rolled_newDirect hforeign)).2 rfl).toRolled
  | @performed w w' op tr errs _ hex ih =>
    cases op with
    | setDNS server => exact (wp_sound hex (rolled_setDNS ih server)).2
    | unsetDNS => exact (wp_sound hex (rolled_unsetDNS hforeign ih)).2.1
    | close => exact (wp_sound hex (rolled_close hforeign ih)).2.1
  | overwritten _ hfile ih => exact ih.ofFile hfile

/-! ## Rollback without failures -/

/-- The rollback is complete: the file is given back and the server forgotten. -/
structure RolledBack (original : Option String) (w : World)
    (result : List ProviderError × World) : Prop where
  returns : result.1 = []
  foreign : ¬ result.2.host.Owned
  inactive : result.2.provider.setDNSActive = false
  restored : w.host.Owned → result.2.host.file = original

section Complete

variable {original : Option String} {w : World}

theorem eval_step {c : Call} {wrap : CallError → ProviderError} {k : Reply c → StaticProg}
    {v : Reply c} {w' : World} (hact : act c w = (.ok v, w')) :
    eval act (step wrap c k) w = eval act (k v) w' := by
  rw [step, eval, hact]

theorem eval_joining {c : Call} {wrap : CallError → ProviderError} {errs : List ProviderError}
    {k : List ProviderError → StaticProg} {v : Reply c} {w' : World}
    (hact : act c w = (.ok v, w')) :
    eval act (joining wrap errs c k) w = eval act (k errs) w' := by
  rw [joining, eval, hact]

theorem eval_restoreResolvConfIfOwned : eval act restoreResolvConfIfOwned w =
      ([], if w.host.Replaceable then w.restored else w) := by
  unfold restoreResolvConfIfOwned
  rw [eval_step rfl]
  by_cases hreplaceable : w.host.Replaceable
  · rw [if_pos hreplaceable, if_neg (by rw [show _ = true from hreplaceable]; decide),
      eval_step rfl]
    unfold World.restored
    cases w.provider.original with
    | none | some text => rw [eval_step rfl]; rfl
  · rw [if_neg hreplaceable, if_pos (Bool.eq_false_of_not_eq_true hreplaceable)]
    rfl

/-- An open provider with a server left refreshes its client. -/
theorem eval_refreshUpstreams {exclude : List Addr} (hleft : upstreamURLs w.upstreams exclude ≠ [])
    (hclosed : w.provider.closed = false) (hrouter : w.router.closed = false) :
    ∃ w', eval act (refreshUpstreams exclude) w = ([], w') ∧ Refreshed w exclude [] w' := by
  unfold refreshUpstreams
  rw [eval_step rfl]
  dsimp only
  rw [if_neg hleft]
  split
  · rename_i hsame
    exact ⟨w, rfl, .kept hleft hsame.symm⟩
  · refine ⟨_, ?_, .committed hleft hclosed⟩
    rw [eval, act_commit_open hclosed hrouter]
    cases w.provider.client with
    | none | some old => rfl

theorem Rolled.eval_restore (h : Rolled original w) (hforeign : Foreign original) :
    ∃ w', eval act restoreResolvConfIfOwned w = ([], w') ∧ Rolled original w' ∧
      w'.provider = w.provider ∧ w'.router = w.router ∧ ¬ w'.host.Owned ∧
      (w.host.Owned → w'.host.file = original) := by
  rw [eval_restoreResolvConfIfOwned]
  by_cases hreplaceable : w.host.Replaceable
  · rw [if_pos hreplaceable]
    obtain ⟨hrestored, hnot⟩ := h.restored hforeign
    exact ⟨_, rfl, hrestored, rfl, rfl, hnot, fun _ => h.original⟩
  · rw [if_neg hreplaceable]
    exact ⟨_, rfl, h, rfl, rfl, not_owned_of_skipped hreplaceable,
      fun howned => absurd howned.replaceable hreplaceable⟩

theorem Rolled.unsetDNS_completes (h : Rolled original w) (hforeign : Foreign original)
    (hopen : w.provider.closed = false) : RolledBack original w (eval act unsetDNS w) := by
  unfold unsetDNS Actions.unsetDNS
  rw [eval_step rfl]
  dsimp only
  rw [if_neg (by rw [hopen]; decide)]
  by_cases hinactive : w.provider.setDNSActive = false
  · rw [if_pos hinactive]
    exact ⟨rfl, h.not_owned hinactive, hinactive,
      fun howned => absurd howned (h.not_owned hinactive)⟩
  rw [if_neg hinactive, eval_bind]
  obtain ⟨w₁, heval, h₁, hprovider, hsame, hgone, hfile⟩ := h.eval_restore hforeign
  have hactive : w₁.provider.setDNSActive = true := by
    rw [hprovider]
    exact Bool.eq_true_of_not_eq_false hinactive
  have hrouter : w₁.router.closed = false := by
    rw [hsame]
    refine Bool.eq_false_of_not_eq_true fun hclosed => ?_
    have := h.router hclosed
    rw [hopen] at this
    cases this
  have hleft := h₁.upstreams hactive
  rw [show actions.uninstall = restoreResolvConfIfOwned from rfl, heval]
  dsimp only
  rw [eval_bind, ← hprovider]
  obtain ⟨w₂, heval', hend⟩ := eval_refreshUpstreams hleft (by rw [hprovider]; exact hopen) hrouter
  rw [heval']
  dsimp only
  rw [append_nil, if_pos rfl, eval_step rfl]
  -- The commit leaves the flag and the server, so they are cleared now.
  have hflags : w₂.host = w₁.host ∧ w₂.provider.setDNSActive = true ∧
      w₂.provider.setDNS = w₁.provider.setDNS := by
    cases hend with
    | kept | committed => exact ⟨rfl, hactive, rfl⟩
    | failed hne => exact absurd rfl hne
  rw [if_pos ⟨hflags.2.1, hflags.2.2⟩]
  refine ⟨rfl, ?_, rfl, fun howned => ?_⟩
  · change ¬ w₂.host.Owned
    rw [hflags.1]
    exact hgone
  · change w₂.host.file = original
    rw [hflags.1]
    exact hfile howned

theorem eval_closeForwarding (client : Option Client) : eval act (closeForwarding client []) w =
      ([], { w with router := { w.router with closed := true } }) := by
  unfold closeForwarding
  rw [eval_joining rfl]
  cases client with
  | none | some client => rfl

theorem Rolled.close_completes (h : Rolled original w) (hforeign : Foreign original) :
    RolledBack original w (eval act close w) := by
  unfold close Actions.close
  by_cases hdone : w.provider.closed = true ∧ w.provider.setDNSActive = false
  · rw [eval_step (act_closing_done hdone)]
    exact ⟨rfl, h.not_owned hdone.2, hdone.2, fun howned => absurd howned (h.not_owned hdone.2)⟩
  rw [eval_step (act_closing hdone)]
  dsimp only
  rw [eval_bind]
  unfold Actions.rollback
  by_cases hactive : w.provider.setDNSActive = true
  · obtain ⟨w₁, heval, h₁, hprovider, -, hgone, hfile⟩ := h.shut.eval_restore hforeign
    have hsame : w₁.provider.setDNS = w.provider.setDNS := by
      rw [hprovider]
      rfl
    rw [if_pos hactive, StaticProg.orReturn, eval_bind,
      show actions.uninstall = restoreResolvConfIfOwned from rfl, heval]
    dsimp only
    rw [if_pos rfl, eval_step rfl, if_pos hsame]
    dsimp only [eval]
    rw [eval_closeForwarding]
    exact ⟨rfl, hgone, rfl, hfile⟩
  · have hinactive := Bool.eq_false_of_not_eq_true hactive
    rw [if_neg hactive]
    dsimp only [eval]
    rw [eval_closeForwarding]
    exact ⟨rfl, h.not_owned hinactive, hinactive,
      fun howned => absurd howned (h.not_owned hinactive)⟩

end Complete

/-! ## The result -/

/-- In every state between the calls of a history that starts with a file that is absent or someone
    else's: a file of the provider names the remembered server; `UnsetDNS` and `Close` put nothing
    but the original back, over nothing but their own file, and leave no file of the provider behind
    when they return no error; without failures they end the rollback. -/
theorem direct_rolls_back {parse : String → Except String (List Addr)} {fallback : List AddrPort}
    {file record : Option String} (hforeign : Foreign file) {w : World}
    (h : History parse (World.start fallback file record) w) :
    (w.host.Owned → w.provider.setDNSActive = true ∧
      w.host.file = some (resolvconfForServer w.provider.setDNS)) ∧
    (∀ op tr errs w', op = .unsetDNS ∨ op = .close →
      Exec directWorld (Backend.direct.perform op) w tr errs w' →
      (errs = [] → ¬ w'.host.Owned) ∧ ∀ ev ∈ tr, RestoresOnly file ev.call ev.before) ∧
    (w.provider.closed = false → RolledBack file w (eval act unsetDNS w)) ∧
    RolledBack file w (eval act close w) := by
  have hrolled := rolled_history hforeign h
  refine ⟨hrolled.owned, ?_, hrolled.unsetDNS_completes hforeign, hrolled.close_completes hforeign⟩
  rintro op tr errs w' (rfl | rfl) hex
  · obtain ⟨hcalls, hend⟩ := wp_sound hex (rolled_unsetDNS hforeign hrolled)
    exact ⟨hend.2, hcalls⟩
  · obtain ⟨hcalls, hend⟩ := wp_sound hex (rolled_close hforeign hrolled)
    exact ⟨hend.2, hcalls⟩

/-- A call under a list of faults. -/
def playDirect (p : StaticProg) (faults : List (Option CallError)) (w : World) :
    List (Event Call World) × List ProviderError × World :=
  play (flakyAnswer (fun c => refusable c = true) act) none p faults w

theorem playDirect_exec (p : StaticProg) (faults : List (Option CallError)) (w : World) :
    Exec directWorld p w (playDirect p faults w).1 (playDirect p faults w).2.1
      (playDirect p faults w).2.2 :=
  play_flaky _ act p faults w

def directBuilt : List (Event Call World) × List ProviderError × World :=
  playDirect (newDirect threeServers) [] threeStart

def directSet : List (Event Call World) × List ProviderError × World :=
  playDirect (Backend.direct.perform (.setDNS (.v4 0x0A000001))) [] directBuilt.2.2

/-- A `Close` that cannot write the file. -/
def directClosed : List (Event Call World) × List ProviderError × World :=
  playDirect (Backend.direct.perform .close)
    [none, none, none, some (.failed "read-only file system")] directSet.2.2

theorem constructed_directBuilt :
    Exec directWorld (newDirect threeServers) threeStart directBuilt.1 [] directBuilt.2.2 := by
  have hbuilt : directBuilt.2.1 = [] := by decide +kernel
  have hexec : Exec directWorld (newDirect threeServers) threeStart directBuilt.1 directBuilt.2.1
      directBuilt.2.2 := playDirect_exec _ _ _
  rw [hbuilt] at hexec
  exact hexec

theorem foreign_threeStart : Foreign (some "nameserver 10.0.0.1") := by decide +kernel

theorem history_directClosed : History threeServers threeStart directClosed.2.2 := by
  have hset : History threeServers threeStart directSet.2.2 :=
    (History.constructed constructed_directBuilt).performed (playDirect_exec _ _ _)
  exact hset.performed (playDirect_exec _ _ _)

/-- After a `Close` that has failed the file is still the provider's; the next `Close` gives
    it back. -/
theorem direct_rolls_back_retried :
    directClosed.2.1 ≠ [] ∧ directClosed.2.2.host.Owned ∧
      (eval act close directClosed.2.2).2.host.file = some "nameserver 10.0.0.1" := by
  have howned : directClosed.2.2.host.Owned := by decide +kernel
  refine ⟨by decide +kernel, howned, ?_⟩
  exact (direct_rolls_back foreign_threeStart history_directClosed).2.2.2.restored howned

end SysnetLinux.Dns.Static.Direct
