/-
  MobileBgb.Store.Memory — bytes in memory, written and read in pieces.

  A memory gives what is at each offset.  `store` copies a piece into it, `load` takes
  one out.  What is seen after a `store` depends on where one looks: at the very piece
  (`load_store`), apart from it (`store_outside`), or at one place of a piece that was FILLED
  with one value (`store_fill`).

  Nothing in this file is about the repository.
-/
import Mathlib.Tactic

namespace MobileBgb.Store

variable {β : Type} {k n : Nat}

/-! ## §1. Pieces. -/

/-- Copy a piece to an offset. -/
def store (m : Nat → β) (offset : Nat) (piece : Vector β n) : Nat → β := fun i =>
  if i < offset then m i else piece[i - offset]?.getD (m i)

/-- The piece of `n` at an offset. -/
def load (m : Nat → β) (offset n : Nat) : Vector β n := Vector.ofFn fun i => m (offset + i)

theorem store_outside (m : Nat → β) (offset : Nat) (piece : Vector β n) {i : Nat}
    (h : i < offset ∨ offset + n ≤ i) : store m offset piece i = m i := by
  unfold store
  split_ifs with hi
  · rfl
  · rw [Vector.getElem?_eq_none (by omega)]
    rfl

theorem store_inside (m : Nat → β) (offset : Nat) (piece : Vector β n) {i : Nat} (h : i < n) :
    store m offset piece (offset + i) = piece[i] := by
  have hi : offset + i - offset = i := by omega
  unfold store
  rw [if_neg (by omega), hi, Vector.getElem?_eq_getElem h]
  rfl

theorem store_fill (m : Nat → β) (offset : Nat) (b : β) {i : Nat} (h : offset ≤ i)
    (h' : i < offset + n) : store m offset (Vector.replicate n b) i = b := by
  obtain ⟨j, rfl⟩ := Nat.exists_eq_add_of_le h
  rw [store_inside m offset (Vector.replicate n b) (by omega), Vector.getElem_replicate]

/-! ## §2. A piece after a store. -/

@[simp] theorem load_store (m : Nat → β) (offset : Nat) (piece : Vector β n) :
    load (store m offset piece) offset n = piece := by
  apply Vector.ext
  intro i hi
  unfold load
  rw [Vector.getElem_ofFn]
  exact store_inside m offset piece hi

/-- Pieces that are equal are equal at each offset. -/
theorem eq_of_load_eq {m m' : Nat → β} {offset : Nat} (h : load m offset k = load m' offset k)
    {i : Nat} (hi : i < k) : m (offset + i) = m' (offset + i) := by
  have hget := congrArg (fun piece : Vector β k => piece[i]) h
  unfold load at hget
  simpa only [Vector.getElem_ofFn] using hget

end MobileBgb.Store
