/-
  MobileBgb.Store.LastWrite — a state made by a list of writes, read one place at a time.

  A write either HITS the place a reader looks at, and then decides alone what is read
  there, or leaves it.  After any list of writes the reader sees the last hit, or what
  was there before (`foldl_lastHit`).

  Writes that hit different places may change their order: `Reordered key` is the least
  such rearrangement, and it keeps the last hit of every place.

  Nothing in this file is about the repository.
-/
import Mathlib.Data.List.Induction

namespace MobileBgb.Store

variable {σ β ω κ : Type}

/-! ## §1. The last hit. -/

/-- The last of the writes that hit. -/
def lastHit (hit : ω → Bool) (ws : List ω) : Option ω := (ws.filter hit).getLast?

theorem lastHit_snoc (hit : ω → Bool) (ws : List ω) (w : ω) :
    lastHit hit (ws ++ [w]) = if hit w then some w else lastHit hit ws := by
  unfold lastHit
  by_cases h : hit w = true
  · simp [h]
  · simp [h]

/-- **The last write wins.**  `read` looks at one place: a write that hits leaves `val w` there,
    any other leaves the place alone. -/
theorem foldl_lastHit (write : σ → ω → σ) (read : σ → β) (hit : ω → Bool) (val : ω → β)
    (h : ∀ s w, read (write s w) = if hit w then val w else read s) (s : σ) (ws : List ω) :
    read (ws.foldl write s) = (lastHit hit ws).elim (read s) val := by
  -- from the right: the last write is the one that decides
  induction ws using List.reverseRecOn with
  | nil => rfl
  | append_singleton ws w ih =>
      rw [List.foldl_append, List.foldl_cons, List.foldl_nil, h, lastHit_snoc]
      by_cases hw : hit w = true
      · rw [if_pos hw, if_pos hw]
        rfl
      · rw [if_neg hw, if_neg hw]
        exact ih

/-! ## §2. Changing the order. -/

/-- Rearrangement by exchanging neighbours that hit different places. -/
inductive Reordered (key : ω → κ) : List ω → List ω → Prop where
  | refl (ws : List ω) : Reordered key ws ws
  | swap (before : List ω) (v w : ω) (after : List ω) (hne : key v ≠ key w) :
      Reordered key (before ++ v :: w :: after) (before ++ w :: v :: after)
  | trans {us vs ws : List ω} (h₁ : Reordered key us vs) (h₂ : Reordered key vs ws) :
      Reordered key us ws

variable [DecidableEq κ]

/-- The writes to one place stay in their order. -/
theorem Reordered.filter_eq {key : ω → κ} {us vs : List ω} (h : Reordered key us vs) (k : κ) :
    us.filter (fun w => key w = k) = vs.filter (fun w => key w = k) := by
  induction h with
  | refl ws => rfl
  | swap before v w after hne =>
      rw [List.filter_append, List.filter_append]
      congr 1
      by_cases hv : key v = k
      · have hw : key w ≠ k := fun hw => hne (hv.trans hw.symm)
        simp [hv, hw]
      · by_cases hw : key w = k
        · simp [hv, hw]
        · simp [hv, hw]
  | trans _ _ ih₁ ih₂ => exact ih₁.trans ih₂

theorem Reordered.lastHit_eq {key : ω → κ} {us vs : List ω} (h : Reordered key us vs) (k : κ) :
    lastHit (fun w => key w = k) us = lastHit (fun w => key w = k) vs := by
  unfold lastHit
  rw [h.filter_eq k]

end MobileBgb.Store
