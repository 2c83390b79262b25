/-
  MobileBgb.Main.Reset — reset detection, over whole runs of the main loop.

  A timestamp is judged by its distance `d` from the clock on a circle of 2^31
  (`ahead31`).  The two comparisons of the source, one backwards in `bgb_loop`
  and one forwards in `bgb_loop_timestamp`, cut that circle into three arcs:

      0 ≤ d ≤ 0x1000                 — followed;
      0x1000 < d ≤ 2^31 - 0x101      — followed, and a reset is asked for;
      2^31 - 0x100 ≤ d < 2^31        — ignored.

  `reset_exact` says so for every packet of every run, and that the restarts of
  the adapter are exactly the resets asked for, each in the turn that asked.
-/
import MobileBgb.Main.Runs
import MobileBgb.Clock.Circular

namespace MobileBgb.Main

open MobileBgb.Effect
open MobileBgb.System
open MobileBgb.Link
open MobileBgb.Clock

variable {tgt : Target} {σ : Type} {E : Env (Sys tgt) σ} {w w' : σ} {t : Trace (Sys tgt)}

/-! ## §1. The circle. -/

/-- How far `ts` lies ahead of `clock`, modulo 2^31. -/
def ahead31 (clock ts : UInt32) : Int := ahead (2 ^ 31) clock.toNat ts.toNat

/-- The masked difference of the source is that distance. -/
theorem toNat_sub_mask (clock ts : UInt32) :
    (((ts - clock) &&& 0x7FFFFFFF).toNat : Int) = ahead31 clock ts := by
  have hmask : ((ts - clock) &&& 0x7FFFFFFF).toNat = (ts - clock).toNat % 2 ^ 31 := by
    rw [UInt32.toNat_and]
    exact Nat.and_two_pow_sub_one_eq_mod _ 31
  have hsub : (ts - clock).toNat = (2 ^ 32 - clock.toNat + ts.toNat) % 2 ^ 32 :=
    UInt32.toNat_sub ts clock
  have hclock : clock.toNat < 2 ^ 32 := clock.toNat_lt
  have hts : ts.toNat < 2 ^ 32 := ts.toNat_lt
  unfold ahead31 ahead
  rw [hmask, hsub]
  omega

theorem wentBack_iff (clock ts : UInt32) :
    WentBack clock ts ↔ 2 ^ 31 - 0x100 ≤ ahead31 clock ts := by
  have hbehind := behind_iff (N := 2 ^ 31) (B := 0x100) (by decide) (by decide) clock.toNat ts.toNat
  have hdist := toNat_sub_mask ts clock
  unfold WentBack
  rw [← UInt32.toNat_inj.ne, UInt32.le_iff_toNat_le]
  show ¬ (_ : Nat) = 0 ∧ (_ : Nat) ≤ 0x100 ↔ _
  unfold ahead31 at hdist ⊢
  rw [← hbehind, ← hdist]
  omega

/-- A reset is asked for on the middle arc. -/
theorem asksReset_iff (clock ts : UInt32) :
    asksReset clock ts = true ↔ 0x1000 < ahead31 clock ts ∧ ahead31 clock ts ≤ 2 ^ 31 - 0x101 := by
  have hdist := toNat_sub_mask clock ts
  have hback := wentBack_iff clock ts
  have hgt : (ts - clock) &&& 0x7FFFFFFF > 0x1000 ↔ 0x1000 < ahead31 clock ts := by
    rw [← hdist, gt_iff_lt, UInt32.lt_iff_toNat_lt]
    show 0x1000 < (_ : Nat) ↔ _
    omega
  unfold asksReset
  rw [decide_eq_true_eq, hback, hgt]
  omega

/-! ## §2. One turn. -/

/-- What a call of `bgb_loop` may do to the two clocks and the reset flag, by the packets `ps` it
    handled. -/
structure FollowsClock (pre mid : MainState tgt) (ps : List BgbPacket) : Prop where
  single : ps.length ≤ 1
  synced : mid.2.bgbClock = mid.1.timestampLast
  /-- No packet, or one of another command. -/
  other : (∀ p ∈ ps, p.timestamped = false) →
    mid.2.bgbClock = pre.2.bgbClock ∧ mid.2.reset = pre.2.reset
  near : ∀ p ∈ ps, p.timestamped = true → ahead31 pre.2.bgbClock p.timestamp ≤ 0x1000 →
    mid.2.bgbClock = p.timestamp ∧ mid.2.reset = false
  far : ∀ p ∈ ps, p.timestamped = true → 0x1000 < ahead31 pre.2.bgbClock p.timestamp →
    ahead31 pre.2.bgbClock p.timestamp ≤ 2 ^ 31 - 0x101 →
    mid.2.bgbClock = p.timestamp ∧ mid.2.reset = true
  back : ∀ p ∈ ps, p.timestamped = true → 2 ^ 31 - 0x100 ≤ ahead31 pre.2.bgbClock p.timestamp →
    mid.2.bgbClock = pre.2.bgbClock ∧ mid.1.timestampLast = pre.1.timestampLast ∧
      mid.2.reset = false

/-- A packet of another command leaves the clock where it is. -/
theorem stamp_of_other {p : BgbPacket} (hp : p.timestamped = false) (clock : UInt32) :
    p.stamp clock = clock := by
  unfold BgbPacket.stamp
  rw [if_neg (by simp [hp])]

theorem stamp_of_timestamped {p : BgbPacket} (hp : p.timestamped = true) (clock : UInt32) :
    p.stamp clock = p.timestamp := by
  unfold BgbPacket.stamp
  rw [if_pos hp]

/-- The three arcs, read off `clockNext` and `asksReset`. -/
theorem followsClock_packet {pre mid : MainState tgt} {p : BgbPacket} (hpre : LoopHead pre)
    (hmid : Synced mid)
    (hcore : mid.2.core = { pre.2.core with
      reset := pre.2.reset || asksReset pre.2.bgbClock (p.stamp pre.2.bgbClock)
      bgbClock := clockNext pre.2.bgbClock (p.stamp pre.2.bgbClock) }) :
    FollowsClock pre mid [p] := by
  have hclock : mid.2.bgbClock = clockNext pre.2.bgbClock (p.stamp pre.2.bgbClock) :=
    congrArg Core.bgbClock hcore
  have hreset : mid.2.reset = asksReset pre.2.bgbClock (p.stamp pre.2.bgbClock) := by
    have hr : mid.2.reset = (pre.2.reset || asksReset pre.2.bgbClock (p.stamp pre.2.bgbClock)) :=
      congrArg Core.reset hcore
    rw [hr, hpre.reset, Bool.false_or]
  have hback := wentBack_iff pre.2.bgbClock p.timestamp
  have hask := asksReset_iff pre.2.bgbClock p.timestamp
  refine ⟨Nat.le_refl 1, hmid.clock, ?_, ?_, ?_, ?_⟩
  · -- a packet without a timestamp
    intro hp
    have hp : p.timestamped = false := hp p (List.mem_singleton.mpr rfl)
    rw [stamp_of_other hp] at hclock hreset
    rw [hclock, hreset, hpre.reset]
    exact ⟨clockNext_self _, asksReset_self _⟩
  -- the others differ only in the arc in which the timestamp lies
  all_goals
    intro q hq hp
    rw [List.mem_singleton.mp hq] at hp ⊢
    rw [stamp_of_timestamped hp] at hclock hreset
    unfold clockNext at hclock
  · intro hnear
    rw [hclock, hreset, if_neg (by rw [hback]; omega)]
    exact ⟨rfl, Bool.eq_false_iff.mpr (by rw [Ne, hask]; omega)⟩
  · intro hlo hhi
    rw [hclock, hreset, if_neg (by rw [hback]; omega)]
    exact ⟨rfl, hask.mpr ⟨hlo, hhi⟩⟩
  · intro hfar
    rw [if_pos (hback.mpr hfar)] at hclock
    rw [← hmid.clock, ← hpre.clock, hclock, hreset]
    exact ⟨rfl, rfl, Bool.eq_false_iff.mpr (by rw [Ne, hask]; omega)⟩

/-- The observations a restart is made of. -/
def restartEvent : Obs → Bool
  | .reset | .stop | .start => true
  | _ => false

theorem served_quiet {p : BgbPacket} {byte byte' : UInt8} {o : List Obs}
    (h : Served p byte o byte') : ∀ e ∈ o, restartEvent e = false := by
  cases h <;> simp [restartEvent]

theorem acts_quiet {a a' : MobileAction} {o : List Obs} (h : Acts tgt a o a') :
    ∀ e ∈ o, restartEvent e = false := by
  cases h <;> simp [restartEvent]

theorem lost_quiet {byte : UInt8} {o : List Obs} (h : Lost byte o) :
    ∀ e ∈ o, restartEvent e = false := by
  rcases h with h | ⟨p, o', h, ⟨_, h'⟩ | ⟨q, _, h'⟩⟩ <;> subst h <;> simp [restartEvent] <;>
    rw [h'] <;> simp

/-- A turn that goes on, in its two halves: `bgb_loop` leads from the head of the loop to `mid`,
    `mobile_handle_loop` from there to the next head.  A reset that is asked for ends the first
    half, the restart begins the second. -/
structure TurnExact (E : Env (Sys tgt) σ) (r : LoopRound tgt) (mid s' : MainState tgt)
    (t₁ t₂ : Trace (Sys tgt)) : Prop where
  link : ∃ w₁ w₂, Exec E (bgbLoop r.pre.1 r.pre.2) w₁ t₁ (true, mid) w₂
  adapter : ∃ w₁ w₂, Exec E (mobileHandleLoop mid.2) w₁ t₂ s'.2 w₂
  shows : obsOf r.trace = obsOf t₁ ++ obsOf t₂
  clock : FollowsClock r.pre mid (packetsOf (obsOf t₁))
  kept : s'.1 = mid.1 ∧ s'.2.bgbClock = mid.2.bgbClock ∧ s'.2.reset = false
  request : ∃ a, obsOf t₁ = a ++ (if mid.2.reset then [.reset] else []) ∧
    ∀ e ∈ a, restartEvent e = false
  restart : ∃ b, obsOf t₂ = (if mid.2.reset then [.stop, .start] else []) ++ b ∧
    ∀ e ∈ b, restartEvent e = false

theorem exec_loopBody_exact {bgbSock : SOCKET} {s s' : MainState tgt} (hs : LoopHead s)
    (h : Exec E (loopBody bgbSock s) w t (.go s') w') :
    ∃ mid t₁ t₂, TurnExact E ⟨s, t, .go s'⟩ mid s' t₁ t₂ := by
  obtain ⟨mid, w₁, t₁, w₂, t₂, w₃, hloop, hhandle, hst, ho⟩ := exec_loopBody_go h
  obtain ⟨b, ho₂, hacts, hcore⟩ := exec_mobileHandleLoop hhandle
  have hkept : s'.1 = mid.1 ∧ s'.2.bgbClock = mid.2.bgbClock ∧ s'.2.reset = false :=
    ⟨hst, congrArg Core.bgbClock hcore, congrArg Core.reset hcore⟩
  have hrestart := And.intro ho₂ (acts_quiet hacts)
  refine ⟨mid, t₁, t₂, ⟨⟨_, _, hloop⟩, ⟨_, _, hhandle⟩, ho, ?_, hkept, ?_, b, hrestart⟩⟩
  · -- where the clock goes
    rcases exec_bgbLoop_synced hs.toSynced hloop with ⟨ho₁, hmid⟩
      | ⟨p, a, _, hserved, hsync, ho₁, hmid⟩
    · subst hmid
      rw [ho₁]
      exact ⟨Nat.zero_le 1, hs.clock, fun _ => ⟨rfl, rfl⟩, (fun p hp => nomatch hp),
        (fun p hp => nomatch hp), (fun p hp => nomatch hp)⟩
    · have hps : packetsOf (obsOf t₁) = [p] := by
        rw [ho₁, packetsOf_append, hserved.packets]
        split <;> rfl
      rw [hps]
      exact followsClock_packet hs hsync hmid
  · -- what is announced
    rcases exec_bgbLoop_synced hs.toSynced hloop with ⟨ho₁, hmid⟩
      | ⟨p, a, _, hserved, hsync, ho₁, hmid⟩
    · subst hmid
      refine ⟨[], ?_, (fun e he => nomatch he)⟩
      rw [ho₁, hs.reset]
      rfl
    · have hr : mid.2.reset = (s.2.reset || asksReset s.2.bgbClock (p.stamp s.2.bgbClock)) :=
        congrArg Core.reset hmid
      refine ⟨a, ?_, served_quiet hserved⟩
      rw [ho₁, hr, hs.reset, Bool.false_or]

/-! ## §3. The restarts of a run. -/

/-- Starting and stopping the adapter. -/
def lifecycle : Obs → Bool
  | .stop | .start => true
  | _ => false

/-- Does the packet of a turn ask for a reset, from this clock? -/
def asked (clock : UInt32) (ps : List BgbPacket) : Bool :=
  ps.any fun p => p.timestamped &&
    decide (0x1000 < ahead31 clock p.timestamp ∧ ahead31 clock p.timestamp ≤ 2 ^ 31 - 0x101)

/-- The rounds that ask for a reset: a packet was handled, and its timestamp asks. -/
def requestsReset (r : LoopRound tgt) : Bool :=
  wentOn r && asked r.pre.2.bgbClock (packetsOf (obsOf r.trace))

theorem filter_lifecycle_quiet {o : List Obs} (h : ∀ e ∈ o, restartEvent e = false) :
    o.filter lifecycle = [] := by
  rw [List.filter_eq_nil_iff]
  intro e he hl
  have hq := h e he
  cases e <;> simp [restartEvent, lifecycle] at hq hl

theorem asked_singleton (clock : UInt32) (p : BgbPacket) :
    asked clock [p] = asksReset clock (p.stamp clock) := by
  unfold asked
  rw [List.any_cons, List.any_nil, Bool.or_false]
  cases hp : p.timestamped with
  | false => rw [stamp_of_other hp, asksReset_self, Bool.false_and]
  | true =>
    rw [stamp_of_timestamped hp, Bool.true_and, Bool.eq_iff_iff, asksReset_iff, decide_eq_true_eq]

/-- A turn restarts the adapter when its packet asks for it, once, and not otherwise. -/
theorem Turn.restarts {v v' : View} {o : List Obs} (h : Turn tgt v o v') :
    o.filter lifecycle = if asked v.clock (packetsOf o) then [.stop, .start] else [] := by
  cases h with
  | idle h =>
    rw [filter_lifecycle_quiet (acts_quiet h), h.packets]
    rfl
  | packet hs ha =>
    rw [packetsOf_turn hs _ ha, asked_singleton, List.filter_append, List.filter_append,
      filter_lifecycle_quiet (served_quiet hs), filter_lifecycle_quiet (acts_quiet ha),
      List.append_nil, List.nil_append]
    unfold restartObs
    split <;> rfl

/-- Over a run: the restarts are the requests, one for one and in order. -/
theorem rounds_restarts {bgbSock : SOCKET} {s : MainState tgt} {rs : List (LoopRound tgt)}
    {fl : Flow (MainState tgt) (MainState tgt)} (hs : LoopHead s)
    (h : Rounds E (loopBody bgbSock) s w rs fl w') :
    (obsOf (traceOf rs)).filter lifecycle
      = (rs.filter requestsReset).flatMap fun _ => [.stop, .start] := by
  -- induction on the run; each round contributes its own restart to both sides
  induction h with
  | stop s w => rfl
  | @go s s₁ w w₁ w' t rs fl hx _ ih =>
    obtain ⟨hs₁, hturn⟩ := exec_loopBody_turn hs hx
    have hreq : requestsReset (⟨s, t, .go s₁⟩ : LoopRound tgt)
        = asked (viewOf s).clock (packetsOf (obsOf t)) := Bool.true_and _
    rw [traceOf_cons, obsOf_append, List.filter_append, hturn.restarts, ih hs₁, List.filter_cons,
      hreq]
    split <;> rfl
  | @done s w w' t s' hx =>
    -- a round that leaves the loop neither asks nor restarts
    obtain ⟨_, hlost⟩ := exec_loopBody_done hx
    have hreq : requestsReset (⟨s, t, .done s'⟩ : LoopRound tgt) = false := Bool.false_and _
    rw [traceOf_singleton, filter_lifecycle_quiet (lost_quiet hlost), List.filter_cons, hreq]
    rfl

/-- **Reset detection.**  Once `main` is in its loop, whatever the environment does: the two
    clocks agree at every head of the loop; in every turn that goes on, the packet handled moves
    the clock and asks for a reset as its distance from the clock says, and a reset asked for is
    carried out next, before anything else is done with the adapter; a turn that leaves the loop
    changes nothing; and the restarts of the whole run are the requests, one for one. -/
theorem reset_exact {bgbSock : SOCKET} {ws : List (WaitRound tgt)} {s : MainState tgt} {w₀ : σ}
    {rs : List (LoopRound tgt)} {fl : Flow (MainState tgt) (MainState tgt)}
    (hb : Begins E bgbSock ws w₀ s w) (h : Rounds E (loopBody bgbSock) s w rs fl w') :
    (∀ r ∈ rs, r.pre.2.bgbClock = r.pre.1.timestampLast ∧ r.pre.2.reset = false) ∧
    fl.get.2.bgbClock = fl.get.1.timestampLast ∧ fl.get.2.reset = false ∧
    (∀ r ∈ rs, ∀ s', r.out = .go s' → ∃ mid t₁ t₂, TurnExact E r mid s' t₁ t₂) ∧
    (∀ r ∈ rs, ∀ s', r.out = .done s' → s' = r.pre ∧ ∀ e ∈ obsOf r.trace, restartEvent e = false) ∧
    (obsOf (traceOf rs)).filter lifecycle
      = (rs.filter requestsReset).flatMap fun _ => [.stop, .start] := by
  obtain ⟨_, _, _, hs, _⟩ := hb.loopHead
  -- the invariant of the loop, kept by one turn
  have hkeep : ∀ (s : MainState tgt) (w : σ) (t : Trace (Sys tgt)) (s' : MainState tgt) (w' : σ),
      LoopHead s → Exec E (loopBody bgbSock s) w t (.go s') w' → LoopHead s' := by
    intro s w t s' w' hs hx
    exact (exec_loopBody_turn hs hx).1
  have hrounds := Rounds.forall_round (Q := fun r =>
    (r.pre.2.bgbClock = r.pre.1.timestampLast ∧ r.pre.2.reset = false) ∧
    (∀ s', r.out = .go s' → ∃ mid t₁ t₂, TurnExact E r mid s' t₁ t₂) ∧
    ∀ s', r.out = .done s' → s' = r.pre ∧ ∀ e ∈ obsOf r.trace, restartEvent e = false) hkeep ?_ hs h
  · have hend : LoopHead fl.get := by
      refine Rounds.invariant (I := fun fl _ _ => LoopHead fl.get) ?_ [] hs h
      intro s w t₀ t fl w' hs hx
      cases fl with
      | go s' => exact hkeep s w t s' w' hs hx
      | done s' =>
        obtain ⟨hs', _⟩ := exec_loopBody_done hx
        rw [hs']
        exact hs
    exact ⟨fun r hr => (hrounds r hr).1, hend.clock, hend.reset, fun r hr => (hrounds r hr).2.1,
      fun r hr => (hrounds r hr).2.2, rounds_restarts hs h⟩
  · -- what the invariant gives of one round
    intro s w t fl w' hs hx
    refine ⟨⟨hs.clock, hs.reset⟩, ?_, ?_⟩
    · intro s' hfl
      have hfl : fl = .go s' := hfl
      subst hfl
      exact exec_loopBody_exact hs hx
    · intro s' hfl
      have hfl : fl = .done s' := hfl
      subst hfl
      obtain ⟨hs', hlost⟩ := exec_loopBody_done hx
      exact ⟨hs', lost_quiet hlost⟩

/-- A session with one step too far (a reset), one step back (ignored) and one that only differs
    in the top bit (followed); a joypad packet between them. -/
def resetScript : Script where
  rx := [handshake, ⟨108, 5, 0, 0, 0⟩, ⟨106, 1, 0, 0, 5⟩, ⟨104, 0x99, 0x81, 0, 0x2005⟩,
    ⟨101, 8, 0, 0, 0⟩, ⟨104, 0x66, 0x81, 0, 0x2004⟩,
    ⟨106, 1, 0, 0, 0x80002005⟩].flatMap (BgbPacket.toBytes .little)
  transfers := [0x88, 0x00]
  actions := []

def resetBegin : List (WaitRound host) × MainState host × Script :=
  (runToLoop 3 4 resetScript).get (by decide +kernel)

def resetRun : List (LoopRound host) × Flow (MainState host) (MainState host) × Script :=
  runRounds Script.serve (loopBody 3) 5 resetBegin.2.1 resetBegin.2.2

/-- In that session the clock goes 5, 0x2005, 0x2005, 0x2005, 0x80002005, and the adapter is
    restarted once. -/
theorem reset_exact_session :
    resetRun.1.map (fun r => r.pre.2.bgbClock) = [5, 0x2005, 0x2005, 0x2005, 0x80002005] ∧
      resetRun.1.map requestsReset = [true, false, false, false, false] ∧
      (obsOf (traceOf resetRun.1)).filter lifecycle = [.stop, .start] ∧
      resetRun.2.1.get.2.bgbClock = resetRun.2.1.get.1.timestampLast := by
  have hb : Begins (scripted host) 3 resetBegin.1 resetScript resetBegin.2.1 resetBegin.2.2 :=
    begins_get (n := 4) _ rfl
  have hrun : Rounds (scripted host) (loopBody 3) resetBegin.2.1 resetBegin.2.2 resetRun.1
      resetRun.2.1 resetRun.2.2 := rounds_runRounds scripted_serve _ _ _ _
  obtain ⟨_, hclock, _, _, _, hrestarts⟩ := reset_exact hb hrun
  have hone : (resetRun.1.filter requestsReset).length = 1 := by decide +kernel
  obtain ⟨r, hr⟩ := List.length_eq_one_iff.mp hone
  refine ⟨by decide +kernel, by decide +kernel, ?_, hclock⟩
  rw [hrestarts, hr]
  rfl

end MobileBgb.Main
