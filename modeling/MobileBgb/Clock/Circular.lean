/-
  MobileBgb.Clock.Circular — an unbounded clock seen modulo `N`.

  A reader that only ever sees times modulo `N` keeps the latest one, and takes
  a reading that lies at most `B` BEHIND it for jitter: the stored time stays.
  `ahead N c t` is how far a reading `t` lies ahead of `c` on the circle, and
  `follow N B c t` the time stored after it.

  `follow_near` is the simulation step: as long as the unbounded time moves by
  at most `B` back and `F` forward, seen from its own maximum `M`, with
  `B + F < N`, the stored time is `M` modulo `N`, however often `M` wraps.

  Nothing in this file is about the repository.
-/
import Mathlib.Tactic

namespace MobileBgb.Clock

/-! ## §1. Distances on the circle. -/

/-- How far `t` lies ahead of `c`, modulo `N`. -/
def ahead (N c t : Int) : Int := (t - c) % N

/-- The distance only depends on the two residues. -/
theorem ahead_emod (N c t : Int) : ahead N (c % N) (t % N) = ahead N c t := by
  unfold ahead
  rw [Int.sub_emod (t % N), Int.emod_emod, Int.emod_emod, ← Int.sub_emod]

theorem ahead_range {N : Int} (hN : 0 < N) (c t : Int) : 0 ≤ ahead N c t ∧ ahead N c t < N := by
  unfold ahead
  exact ⟨Int.emod_nonneg _ (by omega), Int.emod_lt_of_pos _ hN⟩

/-- A reading that really is ahead, by less than a turn. -/
theorem ahead_of_le {N c t : Int} (hle : c ≤ t) (hlt : t < c + N) : ahead N c t = t - c := by
  unfold ahead
  exact Int.emod_eq_of_lt (by omega) (by omega)

/-- A reading that is behind, by at most a turn, shows up at the far end of the circle. -/
theorem ahead_of_lt {N c t : Int} (hlt : t < c) (hle : c ≤ t + N) : ahead N c t = N - (c - t) := by
  unfold ahead
  have hturn : (t - c) % N = (t - c + N) % N := (Int.add_emod_right (t - c) N).symm
  rw [hturn, Int.emod_eq_of_lt (by omega) (by omega)]
  omega

/-- Seen the other way round, a nonzero distance is what is left of the turn. -/
theorem ahead_swap {N : Int} (hN : 0 < N) (c t : Int) :
    (ahead N c t = 0 ∧ ahead N t c = 0) ∨ (0 < ahead N c t ∧ ahead N t c = N - ahead N c t) := by
  obtain ⟨h0, hlt⟩ := ahead_range hN c t
  have hswap : ahead N t c = ahead N (ahead N c t) 0 := by
    unfold ahead
    have hdiff : c - t = 0 - (t - c) := by omega
    rw [hdiff, Int.sub_emod 0 (t - c) N, Int.sub_emod 0 ((t - c) % N) N, Int.emod_emod]
  rcases Int.lt_or_eq_of_le h0 with hpos | hzero
  · right
    rw [hswap, ahead_of_lt hpos (by omega)]
    exact ⟨hpos, by omega⟩
  · left
    rw [hswap, ← hzero]
    exact ⟨rfl, Int.zero_emod N⟩

/-- Distances add up along the circle, modulo the turn. -/
theorem ahead_add (N a b c : Int) : (ahead N a b + ahead N b c) % N = ahead N a c := by
  unfold ahead
  rw [← Int.add_emod]
  congr 1
  omega

/-- The two ways of saying that `t` lies behind `c` by at most `B`. -/
theorem behind_iff {N B : Int} (hN : 0 < N) (hB : B < N) (c t : Int) :
    (ahead N t c ≠ 0 ∧ ahead N t c ≤ B) ↔ N - B ≤ ahead N c t := by
  obtain ⟨_, hlt⟩ := ahead_range hN c t
  rcases ahead_swap hN c t with ⟨h, h'⟩ | ⟨h, h'⟩ <;> rw [h'] <;> omega

/-! ## §2. Following a clock. -/

/-- The time stored after the reading `t`: a reading at most `B` behind is ignored. -/
def follow (N B c t : Int) : Int := if N - B ≤ ahead N c t then c else t

/-- **The simulation step.**  When the unbounded time `T` is near the maximum `M` so far, the
    stored residue goes from that of `M` to that of `max M T`, and the reading is seen either
    at most `F` ahead or at most `B` behind. -/
theorem follow_near {N B F M T : Int} (hB : 0 ≤ B) (hF : 0 ≤ F) (hN : B + F < N)
    (hlo : M - B ≤ T) (hhi : T ≤ M + F) :
    follow N B (M % N) (T % N) = max M T % N ∧
      (ahead N (M % N) (T % N) ≤ F ∨ N - B ≤ ahead N (M % N) (T % N)) := by
  unfold follow
  rw [ahead_emod]
  by_cases hback : T < M
  · have hd := ahead_of_lt (N := N) hback (by omega)
    rw [hd, if_pos (by omega), max_eq_left (by omega)]
    exact ⟨rfl, Or.inr (by omega)⟩
  · have hd := ahead_of_le (N := N) (c := M) (t := T) (by omega) (by omega)
    rw [hd, if_neg (by omega), max_eq_right (by omega)]
    exact ⟨rfl, Or.inl (by omega)⟩

end MobileBgb.Clock
