/-
  MobileBgb.Main.TestMaster — the clock of the test suite's emulator.

  `test.py` plays the emulator (`BGBMaster`).  Its clock is real time plus an offset,
  shown modulo 2^31; when it has gone far, `forward_time` first sends SYNC3 packets
  in steps of 0x1000, so that the adapter does not take the jump for a reset.

  The loop compares the two 31-bit readings with a plain `<`.  Once the clock has
  wrapped between them the later one is the smaller number, no step is sent, and the
  jump goes out in one piece.  `master_update_iff` says that these are all the updates
  that go wrong.
-/
import MobileBgb.Main.Reset

namespace MobileBgb.Main

open MobileBgb.Effect
open MobileBgb.System
open MobileBgb.Link
open MobileBgb.Clock

variable {tgt : Target} {σ : Type} {E : Env (Sys tgt) σ} {w w' : σ} {t : Trace (Sys tgt)}

/-! ## §1. `BGBMaster`. -/

/-- `BGBMaster`, less its sockets: times in units of 2^-21 s. -/
structure BGBMaster where
  time : Int
  timeoffset : Int
  deriving DecidableEq, Repr

namespace BGBMaster

/-- `get_time`: `& 0x7FFFFFFF` of a Python integer. -/
def getTime (self : BGBMaster) : Nat := ((self.time + self.timeoffset) % 2 ^ 31).toNat

/-- A SYNC3 as `send` packs it: the fields that are not given are 0. -/
def sync3 (timestamp : Nat) : BgbPacket := ⟨BgbCmd.sync3.code, 0, 0, 0, UInt32.ofNat timestamp⟩

/-- The timestamps of the loop `while old + 0x1000 < cur`. -/
def forwardSteps (old cur : Nat) : List Nat :=
  if old + 0x1000 < cur then (old + 0x1000) :: forwardSteps (old + 0x1000) cur else []
termination_by cur - old
decreasing_by omega

/-- `forward_time`; `now` is `int(time.time() * 2**21)`.  The packets sent and the master after
    it. -/
def forwardTime (self : BGBMaster) (old : Option Nat) (now : Int) : List BgbPacket × BGBMaster :=
  let old := old.getD self.getTime
  let self := { self with time := now }
  ((forwardSteps old self.getTime).map sync3, self)

/-- `update` -/
def update (self : BGBMaster) (old : Option Nat) (now : Int) : List BgbPacket × BGBMaster :=
  let (packets, self) := self.forwardTime old now
  (packets ++ [sync3 self.getTime], self)

/-- `add_time`; `offset` is `int(offset * 2**21)`. -/
def addTime (self : BGBMaster) (offset now : Int) : List BgbPacket × BGBMaster :=
  let old := self.getTime
  { self with timeoffset := self.timeoffset + offset }.update (some old) now

end BGBMaster

/-! ## §2. What the adapter makes of a list of packets. -/

/-- The clock and the reset flag after the packet `p`. -/
def clockStep (c : UInt32 × Bool) (p : BgbPacket) : UInt32 × Bool :=
  (clockNext c.1 (p.stamp c.1), c.2 || asksReset c.1 (p.stamp c.1))

/-- Once raised, the flag stays up. -/
theorem clockSteps_raised (clock : UInt32) (ps : List BgbPacket) :
    (ps.foldl clockStep (clock, true)).2 = true := by
  induction ps generalizing clock with
  | nil => rfl
  | cons p ps ih => exact ih _

/-- Calls of `bgb_loop` with the clocks in step: they end where the packets handled lead, and as
    long as the flag is down at the end it was down all along. -/
theorem rounds_clockSteps {s : MainState tgt} {rs : List (LoopRound tgt)}
    {fl : Flow (MainState tgt) (MainState tgt)} (hs : Synced s)
    (h : Rounds E bgbLoopRound s w rs fl w') :
    (fl.get.2.bgbClock, fl.get.2.reset)
        = (handledOf rs).foldl clockStep (s.2.bgbClock, s.2.reset) ∧
      (fl.get.2.reset = false → s.2.reset = false ∧ ∀ r ∈ rs, r.out.get.2.reset = false) ∧
      ((∀ r ∈ rs, r.out.get.2.reset = false) → s.2.reset = false → fl.get.2.reset = false) := by
  -- induction on the calls; the flag never goes down between them
  induction h with
  | stop s w => exact ⟨rfl, fun h => ⟨h, fun r hr => nomatch hr⟩, fun _ h => h⟩
  | @go s s₁ w w₁ w' t rs fl hx _ ih =>
    have hcall := exec_bgbLoopRound_go hx
    have hstep : Synced s₁ ∧ (s₁.2.bgbClock, s₁.2.reset)
        = (packetsOf (obsOf t)).foldl clockStep (s.2.bgbClock, s.2.reset) := by
      rcases exec_bgbLoop_synced hs hcall with ⟨ho, hs₁⟩ | ⟨p, o, _, hserved, hsync, ho, hcore⟩
      · rw [ho, hs₁]
        exact ⟨hs, rfl⟩
      · refine ⟨hsync, ?_⟩
        have hps : packetsOf (obsOf t) = [p] := by
          rw [ho, packetsOf_append, hserved.packets]
          split <;> rfl
        rw [hps]
        exact Prod.ext (congrArg Core.bgbClock hcore) (congrArg Core.reset hcore)
    obtain ⟨hs₁, hmid⟩ := hstep
    obtain ⟨hend, hdown, hup⟩ := ih hs₁
    have hkeep : s₁.2.reset = false → s.2.reset = false := by
      intro h₁
      rw [← Bool.not_eq_true]
      intro hraised
      rw [hraised] at hmid
      have hup := clockSteps_raised s.2.bgbClock (packetsOf (obsOf t))
      rw [← hmid, h₁] at hup
      cases hup
    refine ⟨?_, ?_, ?_⟩
    · rw [handledOf_go, List.foldl_append, ← hmid]
      exact hend
    · intro hfl
      obtain ⟨h₁, hall⟩ := hdown hfl
      refine ⟨hkeep h₁, ?_⟩
      intro r hr
      rcases List.mem_cons.mp hr with hr | hr
      · rw [hr]
        exact h₁
      · exact hall r hr
    · intro hall _
      exact hup (fun r hr => hall r (List.mem_cons_of_mem _ hr)) (hall _ List.mem_cons_self)
  | @done s w w' t s' hx =>
    obtain ⟨hs', _⟩ := exec_bgbLoop_lost (exec_bgbLoopRound_done hx)
    rw [handledOf_done]
    show (s'.2.bgbClock, s'.2.reset) = (s.2.bgbClock, s.2.reset) ∧
      (s'.2.reset = false → _) ∧ (_ → _ → s'.2.reset = false)
    rw [hs']
    refine ⟨rfl, ?_, fun _ h => h⟩
    intro hdown
    refine ⟨hdown, ?_⟩
    intro r hr
    rw [List.mem_singleton.mp hr]
    exact hdown

/-! ## §3. The packets of one update. -/

theorem stamp_sync3 (ts : Nat) (clock : UInt32) : (BGBMaster.sync3 ts).stamp clock = UInt32.ofNat ts :=
  stamp_of_timestamped rfl clock

theorem toNat_ofNat_lt {n : Nat} (h : n < 2 ^ 31) : (UInt32.ofNat n).toNat = n := by
  rw [UInt32.toNat_ofNat']
  exact Nat.mod_eq_of_lt (by omega)

/-- How far one 31-bit time lies ahead of another. -/
theorem ahead31_ofNat {a b : Nat} (ha : a < 2 ^ 31) (hb : b < 2 ^ 31) :
    ahead31 (UInt32.ofNat a) (UInt32.ofNat b) = ((b : Int) - a) % 2 ^ 31 := by
  unfold ahead31 ahead
  rw [toNat_ofNat_lt ha, toNat_ofNat_lt hb]

/-- A SYNC3 at most 0x1000 ahead is followed without a reset. -/
theorem clockStep_near {a b : Nat} (hle : a ≤ b) (hnear : b ≤ a + 0x1000) (hb : b < 2 ^ 31) :
    clockStep (UInt32.ofNat a, false) (BGBMaster.sync3 b) = (UInt32.ofNat b, false) := by
  have hdist := ahead31_ofNat (a := a) (b := b) (by omega) hb
  unfold clockStep
  dsimp only
  rw [stamp_sync3, Bool.false_or]
  have hback : ¬ WentBack (UInt32.ofNat a) (UInt32.ofNat b) := by
    rw [wentBack_iff, hdist]
    omega
  have hask : asksReset (UInt32.ofNat a) (UInt32.ofNat b) = false := by
    rw [← Bool.not_eq_true, asksReset_iff, hdist]
    omega
  unfold clockNext
  rw [if_neg hback, hask]

/-- The loop of `forward_time` brings the adapter's clock to within one step of `cur`. -/
theorem clockSteps_forward {old cur : Nat} (hle : old ≤ cur) (hcur : cur < 2 ^ 31) :
    ∃ last, ((BGBMaster.forwardSteps old cur).map BGBMaster.sync3).foldl clockStep
        (UInt32.ofNat old, false) = (UInt32.ofNat last, false) ∧
      last ≤ cur ∧ cur ≤ last + 0x1000 := by
  -- along the recursion of the loop, with the distance left to `cur`
  induction old using BGBMaster.forwardSteps.induct cur with
  | case1 old hlt ih =>
    rw [BGBMaster.forwardSteps, if_pos hlt, List.map_cons, List.foldl_cons,
      clockStep_near (by omega) (by omega) (by omega)]
    exact ih (by omega)
  | case2 old hlt =>
    rw [BGBMaster.forwardSteps, if_neg hlt]
    exact ⟨old, rfl, hle, by omega⟩

/-- A jump back over the wrap goes out in one piece, and is taken for a reset unless it is short. -/
theorem clockStep_wrapped {old cur D : Nat} (hold : old < 2 ^ 31) (hD : D < 2 ^ 31 - 0x1000)
    (hcur : cur = (old + D) % 2 ^ 31) (hwrap : 2 ^ 31 ≤ old + D) :
    clockStep (UInt32.ofNat old, false) (BGBMaster.sync3 cur)
      = (UInt32.ofNat cur, decide (0x1000 < D)) := by
  have hdist := ahead31_ofNat (a := old) (b := cur) hold (by omega)
  have hD' : ((cur : Int) - old) % 2 ^ 31 = D := by omega
  rw [hD'] at hdist
  unfold clockStep
  dsimp only
  rw [stamp_sync3, Bool.false_or]
  have hback : ¬ WentBack (UInt32.ofNat old) (UInt32.ofNat cur) := by
    rw [wentBack_iff, hdist]
    omega
  have hask : asksReset (UInt32.ofNat old) (UInt32.ofNat cur) = decide (0x1000 < D) := by
    rw [Bool.eq_iff_iff, asksReset_iff, hdist, decide_eq_true_eq]
    omega
  unfold clockNext
  rw [if_neg hback, hask]

/-- The whole update, from a clock at `old`. -/
theorem clockSteps_update {self : BGBMaster} {old? : Option Nat} {now : Int} {old D : Nat}
    (hold : old < 2 ^ 31) (hold? : old?.getD self.getTime = old) (hD : D < 2 ^ 31 - 0x1000)
    (hcur : (self.update old? now).2.getTime = (old + D) % 2 ^ 31) :
    (self.update old? now).1.foldl clockStep (UInt32.ofNat old, false)
      = (UInt32.ofNat ((old + D) % 2 ^ 31), decide (2 ^ 31 ≤ old + D ∧ 0x1000 < D)) := by
  have hcur' : ({ self with time := now } : BGBMaster).getTime = (old + D) % 2 ^ 31 := hcur
  show ((BGBMaster.forwardSteps (old?.getD self.getTime) _).map BGBMaster.sync3 ++
    [BGBMaster.sync3 _]).foldl clockStep _ = _
  rw [hold?, hcur', List.foldl_append, List.foldl_cons, List.foldl_nil]
  by_cases hwrap : old + D < 2 ^ 31
  · -- no wrap: the loop gets within one step, the last packet makes it
    have hmod : (old + D) % 2 ^ 31 = old + D := Nat.mod_eq_of_lt hwrap
    rw [hmod]
    obtain ⟨last, hsteps, hle, hnear⟩ := clockSteps_forward (Nat.le_add_right old D) hwrap
    rw [hsteps, clockStep_near hle hnear hwrap, decide_eq_false (by omega)]
  · -- wrapped: the later reading is the smaller number, and the loop does nothing
    have hless : ¬ old + 0x1000 < (old + D) % 2 ^ 31 := by omega
    rw [BGBMaster.forwardSteps, if_neg hless, List.map_nil, List.foldl_nil,
      clockStep_wrapped hold hD rfl (by omega)]
    congr 1
    rw [decide_eq_decide]
    omega

/-! ## §4. The update, as the adapter sees it. -/

/-- **The test master's time steps.**  Let the adapter's clock stand at the 31-bit time `old`, with no
    reset asked for, and let the master's clock have gone on by `D` since.  Handling the packets of
    `update` never raises the reset flag and leaves the clock at the master's time, if and only if
    the clock did not wrap in between or `D` is at most one step. -/
theorem master_update_iff {s : MainState tgt} {rs : List (LoopRound tgt)}
    {fl : Flow (MainState tgt) (MainState tgt)} {self : BGBMaster} {old? : Option Nat} {now : Int}
    {old D : Nat} (hs : Synced s) (hreset : s.2.reset = false) (hold : old < 2 ^ 31)
    (hclock : s.2.bgbClock.toNat = old) (hold? : old?.getD self.getTime = old)
    (hD : D < 2 ^ 31 - 0x1000) (hcur : (self.update old? now).2.getTime = (old + D) % 2 ^ 31)
    (h : Rounds E bgbLoopRound s w rs fl w') (hps : handledOf rs = (self.update old? now).1) :
    ((∀ r ∈ rs, r.out.get.2.reset = false) ∧ fl.get.2.bgbClock.toNat = (old + D) % 2 ^ 31) ↔
      (old + D < 2 ^ 31 ∨ D ≤ 0x1000) := by
  obtain ⟨hend, hdown, hup⟩ := rounds_clockSteps hs h
  have hstart : s.2.bgbClock = UInt32.ofNat old := by rw [← hclock, UInt32.ofNat_toNat]
  rw [hps, hstart, hreset, clockSteps_update hold hold? hD hcur] at hend
  obtain ⟨hendclock, hendreset⟩ := Prod.mk.inj hend
  have hlast : fl.get.2.bgbClock.toNat = (old + D) % 2 ^ 31 := by
    rw [hendclock]
    exact toNat_ofNat_lt (Nat.mod_lt _ (by decide))
  rw [and_iff_left hlast]
  constructor
  · intro hall
    have hfl := hup hall hreset
    rw [hendreset, decide_eq_false_iff_not] at hfl
    omega
  · intro hcond
    refine (hdown ?_).2
    rw [hendreset, decide_eq_false_iff_not]
    omega

/-- The adapter in its main loop with the clock at `old`. -/
def adapterAt (old : UInt32) : MainState host :=
  (⟨3, host.serialIdleByte, some bgbLoopTransfer, some bgbLoopTimestamp, old, true⟩,
    { MobileUser.init with bgbClock := old, bgbClockInit := true })

theorem adapterAt_synced (old : UInt32) : Synced (adapterAt old) := ⟨rfl, rfl, rfl, rfl⟩

/-- Three rounds of it against a master that has sent these packets. -/
def masterRun (old : UInt32) (ps : List BgbPacket) :
    List (LoopRound host) × Flow (MainState host) (MainState host) × Script :=
  runRounds Script.serve bgbLoopRound 3 (adapterAt old)
    ⟨ps.flatMap (BgbPacket.toBytes .little), [], []⟩

theorem rounds_masterRun (old : UInt32) (ps : List BgbPacket) :
    Rounds (scripted host) bgbLoopRound (adapterAt old)
      ⟨ps.flatMap (BgbPacket.toBytes .little), [], []⟩ (masterRun old ps).1 (masterRun old ps).2.1
      (masterRun old ps).2.2 := rounds_runRounds scripted_serve _ _ _ _

/-- A master at 0x100. -/
def earlyMaster : BGBMaster := ⟨0x100, 0⟩

/-- It goes on by 0x2801: two steps and the rest. -/
def earlyPackets : List BgbPacket :=
  [BGBMaster.sync3 0x1100, BGBMaster.sync3 0x2100, BGBMaster.sync3 0x2901]

theorem update_earlyMaster : (earlyMaster.update none 0x2901).1 = earlyPackets := by
  show (BGBMaster.forwardSteps 0x100 0x2901).map BGBMaster.sync3 ++ [BGBMaster.sync3 0x2901] = _
  rw [BGBMaster.forwardSteps, if_pos (by decide), BGBMaster.forwardSteps, if_pos (by decide),
    BGBMaster.forwardSteps, if_neg (by decide)]
  rfl

/-- There no reset is asked for, and the clock is the master's. -/
theorem master_update_iff_early :
    (∀ r ∈ (masterRun 0x100 earlyPackets).1, r.out.get.2.reset = false) ∧
      (masterRun 0x100 earlyPackets).2.1.get.2.bgbClock.toNat = 0x2901 := by
  have hps : handledOf (masterRun 0x100 earlyPackets).1 = (earlyMaster.update none 0x2901).1 := by
    rw [update_earlyMaster]
    decide +kernel
  have hcur : (earlyMaster.update none 0x2901).2.getTime = (0x100 + 0x2801) % 2 ^ 31 := by
    decide +kernel
  have hold : (none : Option Nat).getD earlyMaster.getTime = 0x100 := by decide +kernel
  exact (master_update_iff (adapterAt_synced 0x100) rfl (by decide) rfl hold (by decide) hcur
    (rounds_masterRun 0x100 earlyPackets) hps).mpr (Or.inl (by decide))

/-- A master just before the wrap. -/
def lateMaster : BGBMaster := ⟨0x7FFFF800, 0⟩

/-- It goes on by 0x2000, over the wrap, to 0x1800: one packet. -/
theorem addTime_lateMaster :
    (lateMaster.addTime 0x2000 0x7FFFF800).1 = [BGBMaster.sync3 0x1800] := by
  show (BGBMaster.forwardSteps 0x7FFFF800 0x1800).map BGBMaster.sync3 ++ [BGBMaster.sync3 0x1800] = _
  rw [BGBMaster.forwardSteps, if_neg (by decide)]
  rfl

/-- The adapter takes it for a reset. -/
theorem master_update_late :
    (lateMaster.addTime 0x2000 0x7FFFF800).2.getTime = (0x7FFFF800 + 0x2000) % 2 ^ 31 ∧
      Synced (adapterAt 0x7FFFF800) ∧
      Rounds (scripted host) bgbLoopRound (adapterAt 0x7FFFF800)
        ⟨[BGBMaster.sync3 0x1800].flatMap (BgbPacket.toBytes .little), [], []⟩
        (masterRun 0x7FFFF800 [BGBMaster.sync3 0x1800]).1
        (masterRun 0x7FFFF800 [BGBMaster.sync3 0x1800]).2.1
        (masterRun 0x7FFFF800 [BGBMaster.sync3 0x1800]).2.2 ∧
      handledOf (masterRun 0x7FFFF800 [BGBMaster.sync3 0x1800]).1
        = (lateMaster.addTime 0x2000 0x7FFFF800).1 ∧
      ¬ ∀ r ∈ (masterRun 0x7FFFF800 [BGBMaster.sync3 0x1800]).1, r.out.get.2.reset = false := by
  refine ⟨by decide +kernel, adapterAt_synced _, rounds_masterRun _ _, ?_, by decide +kernel⟩
  rw [addTime_lateMaster]
  decide +kernel

end MobileBgb.Main
