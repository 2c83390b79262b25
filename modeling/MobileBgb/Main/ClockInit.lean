/-
  MobileBgb.Main.ClockInit — which value initialises the clock?

  `main` waits for the first timestamp.  The tail of `bgb_loop` runs for every command
  it knows, though, so the first packet of ANY of them ends the waiting: one without a
  timestamp of its own initialises the clock with `timestamp_last`, which is still 0.

    * `clock_init_iff`      — the clock comes from a SYNC1 or SYNC3, and the first of
                              these never causes a reset, exactly when the packet
                              `main` waits for carries a timestamp;
    * `clock_init_joypad`   — a session that begins with a JOYPAD packet.

  The monitor `stampCount` counts timestamps and lets a reset pass from the second on.
-/
import MobileBgb.Main.WallClock

namespace MobileBgb.Main

open MobileBgb.Effect
open MobileBgb.System
open MobileBgb.Link

variable {tgt : Target} {σ : Type} {E : Env (Sys tgt) σ} {w w' : σ} {t : Trace (Sys tgt)}

/-! ## §1. The property. -/

/-- Whenever a turn of waiting initialises the clock, the value is the timestamp of a SYNC1 or
    SYNC3 read in it. -/
def InitFromStamp (ws : List (WaitRound tgt)) : Prop :=
  ∀ r ∈ ws, ∀ s, r.out = .go s → r.pre.2.bgbClockInit = false → s.2.bgbClockInit = true →
    ∃ p ∈ packetsOf (obsOf r.trace), p.timestamped = true ∧ s.2.bgbClock = p.timestamp

/-- What a run that waited for the rounds `ws` can show after the handshake: it is still waiting,
    or it went on into the main loop. -/
inductive Shows (E : Env (Sys tgt) σ) (bgbSock : SOCKET) (ws : List (WaitRound tgt))
    (fl : Flow (MainState tgt) (Option (MainState tgt))) (w : σ) : List Obs → Prop where
  | waiting : Shows E bgbSock ws fl w (obsOf (traceOf ws))
  | looping {s : MainState tgt} {t : Trace (Sys tgt)} {mobile : MobileUser tgt} {w₁ w₂ : σ}
      {rs : List (LoopRound tgt)} {fl' : Flow (MainState tgt) (MainState tgt)}
      (hfl : fl = .done (some s)) (hstart : Exec E (mobileStart s.2) w t mobile w₁)
      (hloop : Rounds E (loopBody bgbSock) (loopStart s.1 mobile) w₁ rs fl' w₂) :
      Shows E bgbSock ws fl w (obsOf (traceOf ws) ++ obsOf t ++ obsOf (traceOf rs))

/-- Every reset comes after at least two timestamps, so the first one does not cause it. -/
def ResetsFromSecond (o : List Obs) : Prop :=
  ∀ a b, o = a ++ .reset :: b → 2 ≤ (timestampsOf (packetsOf a)).length

/-! ## §2. The waiting loop, round by round. -/

/-- Everything one round of waiting can do with a packet. -/
theorem waitRound_packet {bgbSock : SOCKET} {s : MainState tgt} {ws : List (WaitRound tgt)}
    {fl : Flow (MainState tgt) (Option (MainState tgt))} (hs : s = waitState tgt bgbSock)
    (h : Rounds E waitBody s w ws fl w') :
    ∀ r ∈ ws, packetsOf (obsOf r.trace) = [] ∧ (∀ s', r.out = .go s' → s' = r.pre) ∨
      (∃ p, packetsOf (obsOf r.trace) = [p] ∧ (p.known = true → p.timestamped = true) ∧
        r.out = .done none) ∨
      ∃ p s', packetsOf (obsOf r.trace) = [p] ∧ p.known = true ∧ r.out = .go s' ∧
        r.pre.2.bgbClockInit = false ∧ FirstSeen p s' := by
  -- as long as the clock is not initialised, the state is the one `main` started to wait in
  refine Rounds.forall_round
    (I := fun s => s = waitState tgt bgbSock ∨ s.2.bgbClockInit = true) ?_ ?_ (Or.inl hs) h
  · intro s w t s' w' hs hx
    rcases hs with hs | hs
    · subst hs
      rcases exec_waitBody_call rfl hx with ⟨hfl, _⟩ | ⟨s₁, hfl, hloop⟩
      · cases hfl
      · injection hfl with hfl
        subst hfl
        rcases exec_bgbLoop_waiting hloop with ⟨_, hs'⟩ | ⟨p, _, _, hfirst⟩
        · exact Or.inl hs'
        · exact Or.inr (congrArg Core.bgbClockInit hfirst.core)
    · obtain ⟨_, hfl⟩ := exec_waitBody_init hs hx
      cases hfl
  · intro s w t fl w' hs hx
    rcases hs with hs | hs
    · subst hs
      rcases exec_waitBody_call rfl hx with ⟨hfl, hfailed⟩ | ⟨s₁, hfl, hloop⟩
      · subst hfl
        rcases (exec_bgbLoop_lost hfailed).2 with ho | ⟨p, o, ho, href⟩
        · left
          show packetsOf (obsOf t) = [] ∧ _
          rw [ho]
          exact ⟨rfl, fun s' hs' => nomatch hs'⟩
        · -- only a packet that is answered can be known and refused
          right; left
          refine ⟨p, ?_, ?_, rfl⟩
          · show packetsOf (obsOf t) = [p]
            rw [ho]
            rcases href with ⟨_, ho'⟩ | ⟨q, _, ho'⟩ <;> rw [ho'] <;> rfl
          · intro hk
            rcases href with ⟨hk', _⟩ | ⟨q, hq, _⟩
            · rw [hk] at hk'
              cases hk'
            · unfold BgbPacket.timestamped
              unfold BgbPacket.replies at hq
              split at hq
              next h1 => rw [h1, Bool.true_or]
              next =>
                split at hq
                next h3 => rw [h3.1, Bool.or_true]
                next => cases hq
      · subst hfl
        rcases exec_bgbLoop_waiting hloop with ⟨ho, hs'⟩ | ⟨p, hk, hserved, hfirst⟩
        · left
          show packetsOf (obsOf t) = [] ∧ _
          rw [ho]
          refine ⟨rfl, ?_⟩
          intro s' hs₁
          injection hs₁ with hs₁
          rw [← hs₁, hs']
        · right; right
          exact ⟨p, s₁, hserved.packets, hk, rfl, rfl, hfirst⟩
    · left
      obtain ⟨ht, hfl⟩ := exec_waitBody_init hs hx
      subst ht hfl
      exact ⟨rfl, fun s' hs' => nomatch hs'⟩

/-- The first half of the property, against the packets read while waiting. -/
theorem initFromStamp_iff {bgbSock : SOCKET} {s : MainState tgt} {ws : List (WaitRound tgt)}
    {fl : Flow (MainState tgt) (Option (MainState tgt))} (hs : s = waitState tgt bgbSock)
    (h : Rounds E waitBody s w ws fl w') :
    InitFromStamp ws ↔
      ∀ p ∈ packetsOf (obsOf (traceOf ws)), p.known = true → p.timestamped = true := by
  have hround := waitRound_packet hs h
  -- a packet read while waiting is one of some round
  have hmem : ∀ p, p ∈ packetsOf (obsOf (traceOf ws)) ↔ ∃ r ∈ ws, p ∈ packetsOf (obsOf r.trace) := by
    intro p
    unfold packetsOf obsOf traceOf
    rw [List.filterMap_flatten, List.filterMap_flatten]
    simp
  constructor
  · intro hfrom p hp hk
    obtain ⟨r, hr, hp⟩ := (hmem p).mp hp
    rcases hround r hr with ⟨hnone, _⟩ | ⟨q, hq, hts, _⟩ | ⟨q, s', hq, _, hout, hinit, hfirst⟩
    · rw [hnone] at hp
      cases hp
    · rw [hq, List.mem_singleton] at hp
      subst hp
      exact hts hk
    · rw [hq, List.mem_singleton] at hp
      subst hp
      obtain ⟨p', hp', hts, _⟩ := hfrom r hr s' hout hinit (congrArg Core.bgbClockInit hfirst.core)
      rw [hq, List.mem_singleton] at hp'
      rw [← hp']
      exact hts
  · intro hall r hr s' hout hinit hinit'
    rcases hround r hr with ⟨_, hsame⟩ | ⟨_, _, _, hout'⟩ | ⟨q, s₁, hq, hk, hout', _, hfirst⟩
    · rw [hsame s' hout, hinit] at hinit'
      cases hinit'
    · rw [hout] at hout'
      cases hout'
    · rw [hout] at hout'
      injection hout' with hs₁
      subst hs₁
      have hqr : q ∈ packetsOf (obsOf r.trace) := by
        rw [hq]
        exact List.mem_singleton.mpr rfl
      have hts : q.timestamped = true := hall q ((hmem q).mpr ⟨r, hr, hqr⟩) hk
      refine ⟨q, hqr, hts, ?_⟩
      rw [← stamp_of_timestamped hts 0]
      exact congrArg Core.bgbClock hfirst.core

/-! ## §3. Timestamps before a reset. -/

/-- Does this observation carry a timestamp? -/
def stamped : Obs → Bool
  | .packet p => p.timestamped
  | _ => false

/-- Counts the timestamps; a reset passes from the second on. -/
def stampCount : Monitor Obs Nat where
  step n e := if stamped e then n + 1 else n
  Allowed n e := e = .reset → 2 ≤ n

theorem stampCount_after (n : Nat) (o : List Obs) :
    stampCount.after n o = n + (timestampsOf (packetsOf o)).length := by
  induction o generalizing n with
  | nil => rfl
  | cons e o ih =>
    rw [Monitor.after_cons, ih]
    cases e with
    | packet p =>
      have hcons : packetsOf (.packet p :: o) = [p] ++ packetsOf o := rfl
      rw [hcons, timestampsOf_append, List.length_append]
      cases hp : p.timestamped with
      | false => simp [stampCount, stamped, timestampsOf, hp]
      | true =>
        simp [stampCount, stamped, timestampsOf, hp]
        omega
    | _ => rfl

theorem resetsFromSecond_iff (o : List Obs) : ResetsFromSecond o ↔ stampCount.Accepts 0 o := by
  rw [Monitor.accepts_iff]
  simp only [stampCount_after, Nat.zero_add]
  constructor
  · intro h a e b ho he
    subst he
    exact h a b ho
  · intro h a b ho
    exact h a .reset b ho rfl

/-- Where no reset is announced, everything passes. -/
theorem stampCount_quiet {o : List Obs} (h : ∀ e ∈ o, restartEvent e = false) (n : Nat) :
    stampCount.Accepts n o := by
  rw [Monitor.accepts_iff]
  intro pre e post ho he
  have hmem : e ∈ o := by
    rw [ho]
    simp
  have hq := h e hmem
  rw [he] at hq
  cases hq

/-- From the first timestamp on, a turn only resets when its own packet carries the next one. -/
theorem Turn.counted {v v' : View} {o : List Obs} (h : Turn tgt v o v') {n : Nat} (hn : 1 ≤ n) :
    stampCount.Accepts n o ∧ 1 ≤ stampCount.after n o := by
  refine ⟨?_, ?_⟩
  · cases h with
    | idle ha => exact stampCount_quiet (acts_quiet ha) n
    | @packet p o₁ o₂ byte a hs ha =>
      rw [Monitor.accepts_append, Monitor.accepts_append]
      refine ⟨⟨stampCount_quiet (served_quiet hs) n, ?_⟩, stampCount_quiet (acts_quiet ha) _⟩
      cases hask : asksReset v.clock (p.stamp v.clock) with
      | false => trivial
      | true =>
        have hp : p.timestamped = true := by
          rw [← Bool.not_eq_false]
          intro hp
          rw [stamp_of_other hp, asksReset_self] at hask
          cases hask
        have hcount : stampCount.after n o₁ = n + 1 := by
          rw [stampCount_after, hs.packets]
          simp [timestampsOf, hp]
        rw [hcount]
        refine ⟨fun _ => by omega, ?_, ?_, trivial⟩
        · intro he
          cases he
        · intro he
          cases he
  · rw [stampCount_after]
    omega

/-- A run of the main loop, entered after a first timestamp. -/
theorem rounds_stampCount {bgbSock : SOCKET} {s : MainState tgt} {rs : List (LoopRound tgt)}
    {fl : Flow (MainState tgt) (MainState tgt)} (hs : LoopHead s)
    (h : Rounds E (loopBody bgbSock) s w rs fl w') {n : Nat} (hn : 1 ≤ n) :
    stampCount.Accepts n (obsOf (traceOf rs)) := by
  obtain ⟨o, o', hturns, ho, hend⟩ := rounds_turns hs h
  obtain ⟨hacc, _⟩ := Turns.accepts (M := stampCount) (R := fun _ n => 1 ≤ n)
    (fun v o v' n h hn => h.counted hn) hturns hn
  rw [ho, Monitor.accepts_append]
  refine ⟨hacc, ?_⟩
  rcases hend with ⟨_, _, ho'⟩ | ⟨_, _, hlost⟩
  · rw [ho']
    trivial
  · exact stampCount_quiet (lost_quiet hlost) _

/-- The second half of the property, when the packet that ends the waiting has a timestamp. -/
theorem Shows.resetsFromSecond {bgbSock : SOCKET} {s : MainState tgt} {ws : List (WaitRound tgt)}
    {fl : Flow (MainState tgt) (Option (MainState tgt))} {w₁ : σ} {o : List Obs}
    (hs : s = waitState tgt bgbSock) (h : Rounds E waitBody s w ws fl w₁)
    (hall : ∀ p ∈ packetsOf (obsOf (traceOf ws)), p.known = true → p.timestamped = true)
    (ho : Shows E bgbSock ws fl w₁ o) : ResetsFromSecond o := by
  rw [resetsFromSecond_iff]
  have hquiet : stampCount.Accepts 0 (obsOf (traceOf ws)) := by
    rcases rounds_wait hs h with ⟨ho, _⟩ | ⟨hlost, _⟩ | ⟨p, s', _, hserved, _⟩
    · rw [ho]
      trivial
    · exact stampCount_quiet (lost_quiet hlost) 0
    · exact stampCount_quiet (served_quiet hserved) 0
  cases ho with
  | waiting => exact hquiet
  | @looping s' t mobile w₂ w₃ rs fl' hfl hstart hloop =>
    rcases rounds_wait hs h with ⟨_, hfl'⟩ | ⟨_, hfl'⟩ | ⟨p, s₁, hk, hserved, hfirst, hfl' | hfl'⟩
    · rw [hfl] at hfl'
      cases hfl'
    · rw [hfl] at hfl'
      cases hfl'
    · rw [hfl] at hfl'
      cases hfl'
    · rw [hfl] at hfl'
      cases hfl'
      obtain ⟨hobs, hcore⟩ := exec_mobileStart hstart
      obtain ⟨hhead, _, _⟩ := loopStart_first hfirst hcore
      have hp : p.timestamped = true := hall p (by rw [hserved.packets]; simp) hk
      have hone : stampCount.after 0 (obsOf (traceOf ws)) = 1 := by
        rw [stampCount_after, hserved.packets]
        simp [timestampsOf, hp]
      rw [Monitor.accepts_append, Monitor.accepts_append, Monitor.after_append, hone, hobs]
      refine ⟨⟨hquiet, ?_, trivial⟩, rounds_stampCount hhead hloop (Nat.le_refl 1)⟩
      intro he
      cases he

/-! ## §4. The clock's first value. -/

/-- **The clock is initialised from a real timestamp** in a run of `main`, and the first timestamp
    after the handshake causes no reset however the run goes on, if and only if the packet that
    `main` waits for is not one of those `bgb_loop` knows but takes no timestamp from. -/
theorem clock_init_iff {bgbSock : SOCKET} {w₀ w₁ w₂ : σ} {t₀ : Trace (Sys tgt)}
    {state : BgbState tgt (MobileUser tgt)} {ws : List (WaitRound tgt)}
    {fl : Flow (MainState tgt) (Option (MainState tgt))}
    (hinit : Exec E (mainInit bgbSock) w₀ t₀ (true, state) w₁)
    (hwait : Rounds E waitBody (waitStart state) w₁ ws fl w₂) :
    (InitFromStamp ws ∧ ∀ o, Shows E bgbSock ws fl w₂ o → ResetsFromSecond o) ↔
      ∀ p ∈ packetsOf (obsOf (traceOf ws)), p.known = true → p.timestamped = true := by
  have hstate := (mainInit_state hinit).1
  rw [initFromStamp_iff hstate hwait]
  constructor
  · intro h
    exact h.1
  · intro hall
    exact ⟨hall, fun o ho => ho.resetsFromSecond hstate hwait hall⟩

/-- In a session that begins with a SYNC3 the clock starts at its timestamp. -/
theorem clock_init_iff_session :
    resetBegin.2.1.2.bgbClock = 5 ∧ InitFromStamp resetBegin.1 := by
  have hb : Begins (scripted host) 3 resetBegin.1 resetScript resetBegin.2.1 resetBegin.2.2 :=
    begins_get (n := 4) _ rfl
  obtain ⟨t₀, state, w₁, state₁, mobile₁, w₂, t₁, mobile₂, hinit, hwait, _, _⟩ := hb
  have hall : ∀ p ∈ packetsOf (obsOf (traceOf resetBegin.1)),
      p.known = true → p.timestamped = true := by
    have hp : packetsOf (obsOf (traceOf resetBegin.1)) = [⟨106, 1, 0, 0, 5⟩] := by decide +kernel
    rw [hp]
    intro p hp _
    rw [List.mem_singleton.mp hp]
    rfl
  exact ⟨by decide +kernel, ((clock_init_iff hinit hwait).mpr hall).1⟩

/-- An emulator that sends a JOYPAD packet before its first SYNC3. -/
def joypadFirst : Script where
  rx := [handshake, ⟨108, 5, 0, 0, 0⟩, ⟨101, 8, 0, 0, 0⟩,
    ⟨106, 1, 0, 0, 0x5000⟩].flatMap (BgbPacket.toBytes .little)
  transfers := []
  actions := []

def joypadBegin : List (WaitRound host) × MainState host × Script :=
  (runToLoop 3 4 joypadFirst).get (by decide +kernel)

def joypadRun : List (LoopRound host) × Flow (MainState host) (MainState host) × Script :=
  runRounds Script.serve (loopBody 3) 1 joypadBegin.2.1 joypadBegin.2.2

/-- There the clock starts at 0, which no packet carried, and the first timestamp, 0x5000, is taken
    for a reset. -/
theorem clock_init_joypad :
    joypadBegin.2.1.2.bgbClock = 0 ∧
      ∃ w₁ w₂ t₀ state fl, Exec (scripted host) (mainInit 3) joypadFirst t₀ (true, state) w₁ ∧
        Rounds (scripted host) waitBody (waitStart state) w₁ joypadBegin.1 fl w₂ ∧
        ¬ InitFromStamp joypadBegin.1 ∧
        ∃ o, Shows (scripted host) 3 joypadBegin.1 fl w₂ o ∧ ¬ ResetsFromSecond o := by
  have hb : Begins (scripted host) 3 joypadBegin.1 joypadFirst joypadBegin.2.1 joypadBegin.2.2 :=
    begins_get (n := 4) _ rfl
  have hloop : Rounds (scripted host) (loopBody 3) joypadBegin.2.1 joypadBegin.2.2 joypadRun.1
      joypadRun.2.1 joypadRun.2.2 := rounds_runRounds scripted_serve _ _ _ _
  obtain ⟨t₀, state, w₁, state₁, mobile₁, w₂, t₁, mobile₂, hinit, hwait, hstart, hs⟩ := hb
  rw [hs] at hloop
  refine ⟨by decide +kernel, w₁, w₂, t₀, state, _, hinit, hwait, ?_, _, .looping rfl hstart hloop, ?_⟩
  · rw [initFromStamp_iff (mainInit_state hinit).1 hwait]
    intro hall
    have hp : packetsOf (obsOf (traceOf joypadBegin.1)) = [⟨101, 8, 0, 0, 0⟩] := by decide +kernel
    have hts := hall ⟨101, 8, 0, 0, 0⟩ (by rw [hp]; exact List.mem_singleton.mpr rfl) rfl
    cases hts
  · intro hsecond
    have ho : obsOf (traceOf joypadBegin.1) ++ obsOf t₁ ++ obsOf (traceOf joypadRun.1)
        = [.packet ⟨101, 8, 0, 0, 0⟩, .start, .packet ⟨106, 1, 0, 0, 0x5000⟩] ++
          .reset :: [.stop, .start, .actionsGet 0] := by
      rw [(exec_mobileStart hstart).1]
      decide +kernel
    have htwo := hsecond _ _ ho
    revert htwo
    decide

end MobileBgb.Main
