/-
  SysnetLinux.Lib.Ledger

  A ledger of tokens that are given out and taken back.

  `Balanced w owned` says that the tokens given out and not taken back are exactly those
  that the owners list, each by one of them, and that none was taken back twice.  The
  lemmas move one token, or a list of them, across the ledger.
-/

import Mathlib.Data.Finset.Basic

namespace Tokens

open List

variable {α : Type} [DecidableEq α]

/-- The tokens given out and not taken back, and those taken back in their order. -/
structure Ledger (α : Type) where
  live : Finset α
  freed : List α

namespace Ledger

def acquire (w : Ledger α) (a : α) : Ledger α := { w with live := insert a w.live }

def release (w : Ledger α) (a : α) : Ledger α := ⟨w.live.erase a, w.freed ++ [a]⟩

/-- The token has never been given out. -/
def Unused (w : Ledger α) (a : α) : Prop := a ∉ w.live ∧ a ∉ w.freed

end Ledger

/-- The owners list the live tokens, each once, and no token was taken back twice. -/
structure Balanced (w : Ledger α) (owned : List α) : Prop where
  distinct : owned.Nodup
  live : w.live = owned.toFinset
  once : w.freed.Nodup
  gone : ∀ a ∈ w.freed, a ∉ owned

namespace Balanced

variable {w : Ledger α} {owned owned' : List α} {a : α}

theorem perm (h : Balanced w owned) (hperm : owned.Perm owned') : Balanced w owned' where
  distinct := hperm.nodup_iff.mp h.distinct
  live := by
    rw [h.live]
    exact toFinset_eq_of_perm _ _ hperm
  once := h.once
  gone := fun b hb hmem => h.gone b hb (hperm.mem_iff.mpr hmem)

theorem acquire (h : Balanced w owned) (ha : w.Unused a) :
    Balanced (w.acquire a) (owned ++ [a]) := by
  have hnew : a ∉ owned := fun hmem => ha.1 (by rw [h.live]; exact mem_toFinset.mpr hmem)
  refine ⟨?_, ?_, h.once, ?_⟩
  · refine nodup_append.mpr ⟨h.distinct, nodup_singleton a, ?_⟩
    rintro b hb c hc rfl
    exact hnew (mem_singleton.mp hc ▸ hb)
  · ext b
    rw [Ledger.acquire, Finset.mem_insert, h.live, mem_toFinset, mem_toFinset, mem_append,
      mem_singleton, or_comm]
  · intro b hb hmem
    rcases mem_append.mp hmem with hmem | hmem
    · exact h.gone b hb hmem
    · exact ha.2 (mem_singleton.mp hmem ▸ hb)

theorem release (h : Balanced w (a :: owned)) : Balanced (w.release a) owned := by
  obtain ⟨hnot, hdistinct⟩ := nodup_cons.mp h.distinct
  refine ⟨hdistinct, ?_, ?_, ?_⟩
  · ext b
    simp only [Ledger.release, h.live, Finset.mem_erase, mem_toFinset, mem_cons]
    constructor
    · rintro ⟨hne, rfl | hb⟩
      · exact absurd rfl hne
      · exact hb
    · intro hb
      exact ⟨fun heq => hnot (heq ▸ hb), Or.inr hb⟩
  · refine nodup_append.mpr ⟨h.once, nodup_singleton a, ?_⟩
    rintro b hb c hc rfl
    exact h.gone b hb (mem_singleton.mp hc ▸ mem_cons_self)
  · intro b hb hmem
    rcases mem_append.mp hb with hb | hb
    · exact h.gone b hb (mem_cons_of_mem a hmem)
    · exact hnot (mem_singleton.mp hb ▸ hmem)

end Balanced

end Tokens
