/-
  MobileBgb.Main.WallClock — the 31-bit clock follows an unbounded one.

  The emulator's clock is an unbounded time that only its residue modulo 2^31 is
  seen of (`wrap`).  As long as each time stays near the maximum of those before
  it (`Jitters`: at most 0x100 back, at most 0x1000 forward), `bgb_clock` is that
  maximum, wrapped, after every packet, and no reset is ever detected.

  The step is `follow_near` of the clock library; the run is an induction over the
  turns of the main loop, with the number of timestamps seen so far as index.
-/
import MobileBgb.Main.Reset
import Mathlib.Order.PartialSups

namespace MobileBgb.Main

open MobileBgb.Effect
open MobileBgb.System
open MobileBgb.Link
open MobileBgb.Clock

variable {tgt : Target} {σ : Type} {E : Env (Sys tgt) σ} {w w' : σ} {t : Trace (Sys tgt)}

/-! ## §1. Times and timestamps. -/

/-- The timestamp of a time: its residue modulo 2^31. -/
def wrap (time : Int) : UInt32 := UInt32.ofNat (time % 2 ^ 31).toNat

/-- Each time lies near the maximum of the times before it. -/
def Jitters (T : Nat → Int) : Prop :=
  ∀ k, partialSups T k - 0x100 ≤ T (k + 1) ∧ T (k + 1) ≤ partialSups T k + 0x1000

/-- The timestamps of the SYNC1 and SYNC3 packets among `ps`. -/
def timestampsOf (ps : List BgbPacket) : List UInt32 :=
  (ps.filter BgbPacket.timestamped).map BgbPacket.timestamp

/-- The timestamps are those of the times `T j`, `T (j + 1)` and so on. -/
def Ticks (T : Nat → Int) : Nat → List UInt32 → Prop
  | _, [] => True
  | j, ts :: l => ts = wrap (T j) ∧ Ticks T (j + 1) l

@[simp] theorem timestampsOf_append (ps qs : List BgbPacket) :
    timestampsOf (ps ++ qs) = timestampsOf ps ++ timestampsOf qs := by
  unfold timestampsOf
  rw [List.filter_append, List.map_append]

theorem toNat_wrap (time : Int) : ((wrap time).toNat : Int) = time % 2 ^ 31 := by
  unfold wrap
  rw [UInt32.toNat_ofNat']
  omega

theorem ticks_of_eq {T : Nat → Int} {n : Nat} :
    ∀ {j : Nat} {l : List UInt32}, l = (List.range' j n).map (fun i => wrap (T i)) → Ticks T j l := by
  induction n with
  | zero =>
    intro j l h
    rw [h]
    trivial
  | succ n ih =>
    intro j l h
    rw [h, List.range'_succ, List.map_cons]
    exact ⟨rfl, ih rfl⟩

/-! ## §2. One timestamp. -/

/-- A timestamp near the maximum so far: the clock moves to the new maximum, no reset. -/
theorem clockNext_near {M T : Int} (hlo : M - 0x100 ≤ T) (hhi : T ≤ M + 0x1000) :
    clockNext (wrap M) (wrap T) = wrap (max M T) ∧ asksReset (wrap M) (wrap T) = false := by
  obtain ⟨hfollow, hseen⟩ := follow_near (N := 2 ^ 31) (B := 0x100) (F := 0x1000) (by decide)
    (by decide) (by decide) hlo hhi
  -- the code's distance is the one on the circle, so `follow_near` applies to it
  have hd : ahead31 (wrap M) (wrap T) = ahead (2 ^ 31) (M % 2 ^ 31) (T % 2 ^ 31) := by
    unfold ahead31
    rw [toNat_wrap, toNat_wrap]
  refine ⟨?_, ?_⟩
  · have hnext : ((clockNext (wrap M) (wrap T)).toNat : Int) = max M T % 2 ^ 31 := by
      rw [← hfollow]
      unfold clockNext follow
      rw [← hd]
      by_cases hback : WentBack (wrap M) (wrap T)
      · rw [if_pos hback, if_pos ((wentBack_iff _ _).mp hback), toNat_wrap]
      · rw [if_neg hback, if_neg (fun h => hback ((wentBack_iff _ _).mpr h)), toNat_wrap]
    rw [← UInt32.toNat_inj]
    have hmax := toNat_wrap (max M T)
    omega
  · rw [← Bool.not_eq_true, asksReset_iff, hd]
    omega

/-! ## §3. Turns and runs. -/

/-- One turn: as many timestamps as it handles, so many steps of the maximum, and no reset. -/
theorem Turn.ticks {T : Nat → Int} (hT : Jitters T) {j : Nat} {v v' : View} {o : List Obs}
    {l : List UInt32} (h : Turn tgt v o v') (hclock : v.clock = wrap (partialSups T j))
    (hticks : Ticks T (j + 1) (timestampsOf (packetsOf o) ++ l)) :
    v'.clock = wrap (partialSups T (j + (timestampsOf (packetsOf o)).length)) ∧ .reset ∉ o ∧
      Ticks T (j + (timestampsOf (packetsOf o)).length + 1) l := by
  cases h with
  | idle ha =>
    rw [ha.packets] at hticks ⊢
    exact ⟨hclock, (fun hmem => nomatch acts_quiet ha _ hmem), hticks⟩
  | @packet p o₁ o₂ byte a hs ha =>
    rw [packetsOf_turn hs _ ha] at hticks ⊢
    have hquiet : asksReset v.clock (p.stamp v.clock) = false →
        Obs.reset ∉ o₁ ++ restartObs (asksReset v.clock (p.stamp v.clock)) ++ o₂ := by
      intro hask hmem
      rw [hask, show restartObs false = [] from rfl, List.append_nil, List.mem_append] at hmem
      rcases hmem with hmem | hmem
      · exact nomatch served_quiet hs _ hmem
      · exact nomatch acts_quiet ha _ hmem
    show clockNext v.clock (p.stamp v.clock) = _ ∧ _
    -- only a packet with a timestamp takes a step of `T`
    cases hp : p.timestamped with
    | false =>
      have hnone : timestampsOf [p] = [] := by simp [timestampsOf, hp]
      rw [hnone] at hticks ⊢
      rw [stamp_of_other hp] at hquiet ⊢
      exact ⟨(clockNext_self _).trans hclock, hquiet (asksReset_self _), hticks⟩
    | true =>
      have hone : timestampsOf [p] = [p.timestamp] := by simp [timestampsOf, hp]
      rw [hone] at hticks ⊢
      obtain ⟨hts, hticks⟩ := hticks
      obtain ⟨hlo, hhi⟩ := hT j
      obtain ⟨hnext, hask⟩ := clockNext_near hlo hhi
      have hmax : partialSups T (j + 1) = max (partialSups T j) (T (j + 1)) := partialSups_succ T j
      rw [stamp_of_timestamped hp, hclock, hts] at hquiet ⊢
      refine ⟨?_, hquiet hask, hticks⟩
      rw [hnext, ← hmax]
      rfl

/-- Every run of the main loop, round by round. -/
theorem rounds_ticks {T : Nat → Int} (hT : Jitters T) {bgbSock : SOCKET} {s : MainState tgt}
    {rs : List (LoopRound tgt)} {fl : Flow (MainState tgt) (MainState tgt)}
    (h : Rounds E (loopBody bgbSock) s w rs fl w') :
    ∀ {j : Nat}, LoopHead s → s.2.bgbClock = wrap (partialSups T j) →
      Ticks T (j + 1) (timestampsOf (handledOf rs)) →
      ∀ pre r post, rs = pre ++ r :: post →
        r.out.get.2.bgbClock
          = wrap (partialSups T (j + (timestampsOf (handledOf (pre ++ [r]))).length)) ∧
        r.out.get.2.reset = false ∧ .reset ∉ obsOf r.trace := by
  -- induction on the run; the index of the last timestamp is what changes from round to round
  induction h with
  | stop s w =>
    intro j _ _ _ pre r post hrs
    cases pre <;> cases hrs
  | @go s s₁ w w₁ w' t rs fl hx _ ih =>
    intro j hs hclock hticks pre r post hrs
    obtain ⟨hs₁, hturn⟩ := exec_loopBody_turn hs hx
    rw [handledOf_go, timestampsOf_append] at hticks
    obtain ⟨hclock₁, hreset, hticks⟩ := hturn.ticks hT hclock hticks
    cases pre with
    | nil =>
      injection hrs with hr _
      rw [← hr, List.nil_append, handledOf_go]
      refine ⟨?_, hs₁.reset, hreset⟩
      show s₁.2.bgbClock = _
      rw [show handledOf ([] : List (LoopRound tgt)) = [] from rfl, List.append_nil]
      exact hclock₁
    | cons r₀ pre =>
      injection hrs with hr hrs
      obtain ⟨hclock₂, hend⟩ := ih hs₁ hclock₁ hticks pre r post hrs
      rw [← hr, List.cons_append, handledOf_go, timestampsOf_append, List.length_append,
        ← Nat.add_assoc]
      exact ⟨hclock₂, hend⟩
  | @done s w w' t s' hx =>
    intro j hs hclock _ pre r post hrs
    obtain ⟨hs', hlost⟩ := exec_loopBody_done hx
    cases pre with
    | cons r₀ pre =>
      injection hrs with _ hrs
      cases pre <;> cases hrs
    | nil =>
      injection hrs with hr _
      rw [← hr, List.nil_append, handledOf_done]
      show s'.2.bgbClock = _ ∧ s'.2.reset = false ∧ _
      rw [hs']
      exact ⟨hclock, hs.reset, fun hmem => nomatch lost_quiet hlost _ hmem⟩

/-- **The wall clock.**  Let the packets handled carry the times `T 0, …, T n` in order, the first
    packet of all `T 0`, with packets of other commands anywhere after it; and let each time be
    near the maximum of those before it.  Then the clock starts at `T 0`; after every turn, with
    the times up to `T k` seen, it is the maximum of `T 0, …, T k` modulo 2^31; and no reset is
    ever asked for. -/
theorem clock_follows {T : Nat → Int} (hT : Jitters T) {bgbSock : SOCKET}
    {ws : List (WaitRound tgt)} {s : MainState tgt} {w₀ : σ} {rs : List (LoopRound tgt)}
    {fl : Flow (MainState tgt) (MainState tgt)} (hb : Begins E bgbSock ws w₀ s w)
    (h : Rounds E (loopBody bgbSock) s w rs fl w')
    (hfirst : ∀ p ∈ packetsOf (obsOf (traceOf ws)), p.timestamped = true) {n : Nat}
    (hts : timestampsOf (packetsOf (obsOf (traceOf ws)) ++ handledOf rs)
      = (List.range (n + 1)).map fun i => wrap (T i)) :
    s.2.bgbClock = wrap (T 0) ∧ s.2.reset = false ∧
    ∀ pre r post, rs = pre ++ r :: post →
      (∃ k, (timestampsOf (packetsOf (obsOf (traceOf ws)) ++ handledOf (pre ++ [r]))).length = k + 1 ∧
        r.out.get.2.bgbClock = wrap (partialSups T k)) ∧
      r.out.get.2.reset = false ∧ .reset ∉ obsOf r.trace := by
  obtain ⟨p, _, hp, hs, hclock⟩ := hb.loopHead
  have hptime : p.timestamped = true := hfirst p (by rw [hp]; exact List.mem_singleton.mpr rfl)
  have hone : timestampsOf [p] = [p.timestamp] := by simp [timestampsOf, hptime]
  rw [hp, timestampsOf_append, hone, List.range_eq_range', List.range'_succ, List.map_cons] at hts
  -- `T 0` is the packet that ended the waiting, the others are those of the loop
  injection hts with hp₀ hts
  rw [stamp_of_timestamped hptime, hp₀] at hclock
  refine ⟨hclock, hs.reset, ?_⟩
  intro pre r post hrs
  have hstart : s.2.bgbClock = wrap (partialSups T 0) := by
    rw [partialSups_zero]
    exact hclock
  obtain ⟨hk, hend⟩ := rounds_ticks hT h hs hstart (ticks_of_eq hts) pre r post hrs
  refine ⟨⟨_, ?_, hk⟩, hend⟩
  rw [hp, timestampsOf_append, hone, List.length_append, Nat.zero_add]
  exact Nat.add_comm _ _

/-- A clock that starts just before the wrap, advances by 8 a packet and lags by 0x20 at every
    second one. -/
def tickTimes (k : Nat) : Int := 2 ^ 31 - 4 + 8 * k - if k % 2 = 1 then 0x20 else 0

theorem jitters_tickTimes : Jitters tickTimes := by
  have hbound : ∀ i : Nat, 2 ^ 31 - 4 + 8 * i - 0x20 ≤ tickTimes i ∧ tickTimes i ≤ 2 ^ 31 - 4 + 8 * i := by
    intro i
    unfold tickTimes
    split <;> omega
  intro k
  have hlow : tickTimes k ≤ partialSups tickTimes k := le_partialSups tickTimes k
  have hhigh : partialSups tickTimes k ≤ 2 ^ 31 - 4 + 8 * k := by
    refine partialSups_le tickTimes k _ ?_
    intro i hi
    have hi' := (hbound i).2
    omega
  have hk := hbound k
  have hk₁ := hbound (k + 1)
  push_cast at hk₁
  omega

/-- The emulator of that clock, with a joypad packet between its packets. -/
def tickScript : Script where
  rx := [handshake, ⟨108, 5, 0, 0, 0⟩, ⟨106, 1, 0, 0, wrap (tickTimes 0)⟩,
    ⟨104, 0x99, 0x81, 0, wrap (tickTimes 1)⟩, ⟨101, 8, 0, 0, 0⟩,
    ⟨106, 1, 0, 0, wrap (tickTimes 2)⟩,
    ⟨104, 0x66, 0x81, 0, wrap (tickTimes 3)⟩].flatMap (BgbPacket.toBytes .little)
  transfers := [0x88, 0x00]
  actions := []

def tickBegin : List (WaitRound host) × MainState host × Script :=
  (runToLoop 3 4 tickScript).get (by decide +kernel)

def tickRun : List (LoopRound host) × Flow (MainState host) (MainState host) × Script :=
  runRounds Script.serve (loopBody 3) 4 tickBegin.2.1 tickBegin.2.2

/-- In that session the clock waits at the maximum twice, once across the wrap. -/
theorem clock_follows_session :
    tickRun.1.map (fun r => r.out.get.2.bgbClock) = [0x7FFFFFFC, 0x7FFFFFFC, 12, 12] ∧
      (tickRun.1.map fun r => r.out.get.2.bgbClock).getLast? = some (wrap (partialSups tickTimes 3)) := by
  have hb : Begins (scripted host) 3 tickBegin.1 tickScript tickBegin.2.1 tickBegin.2.2 :=
    begins_get (n := 4) _ rfl
  have hrun : Rounds (scripted host) (loopBody 3) tickBegin.2.1 tickBegin.2.2 tickRun.1
      tickRun.2.1 tickRun.2.2 := rounds_runRounds scripted_serve _ _ _ _
  have hfirst : ∀ p ∈ packetsOf (obsOf (traceOf tickBegin.1)), p.timestamped = true :=
    List.all_eq_true.mp (by decide +kernel)
  have hts : timestampsOf (packetsOf (obsOf (traceOf tickBegin.1)) ++ handledOf tickRun.1)
      = (List.range (3 + 1)).map fun i => wrap (tickTimes i) := by decide +kernel
  have hne : tickRun.1 ≠ [] := by
    intro h
    have hlen : tickRun.1.length = 4 := by decide +kernel
    rw [h] at hlen
    cases hlen
  obtain ⟨_, _, hall⟩ := clock_follows jitters_tickTimes hb hrun hfirst hts
  obtain ⟨⟨k, hk, hclock⟩, _⟩ := hall tickRun.1.dropLast (tickRun.1.getLast hne) []
    (List.dropLast_append_getLast hne).symm
  have hcount : (timestampsOf (packetsOf (obsOf (traceOf tickBegin.1)) ++
      handledOf (tickRun.1.dropLast ++ [tickRun.1.getLast hne]))).length = 3 + 1 := by
    rw [List.dropLast_append_getLast hne, hts]
    rfl
  have hk : k = 3 := by omega
  refine ⟨by decide +kernel, ?_⟩
  rw [List.getLast?_map, List.getLast?_eq_some_getLast hne, Option.map_some, hclock, hk]

end MobileBgb.Main
