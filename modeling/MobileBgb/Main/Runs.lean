/-
  MobileBgb.Main.Runs — whole runs of `main`, and what they show.

  Three ways to speak of a run, each taken from the one before:

    Begins   — `main` got to its loop: the handshake, the turns of waiting and
               the first `mobile_start`, with the state the loop starts in;
    Turns    — the turns of the main loop as steps of an ABSTRACT machine, whose
               state is the reply byte, the clock and the pending action (`View`);
    MainObs  — everything a run can show after the handshake.

  `rounds_turns` and `exec_mainProg` say that the model of the code does nothing
  that the abstract machine does not do.
-/
import MobileBgb.Main.Turn
import MobileBgb.Effect.Monitor
import MobileBgb.Link.Exchange

namespace MobileBgb.Main

open MobileBgb.Effect
open MobileBgb.System
open MobileBgb.Socket
open MobileBgb.Link

variable {tgt : Target} {σ : Type} {E : Env (Sys tgt) σ} {w w' : σ} {t : Trace (Sys tgt)}

/-! ## §1. Waiting. -/

/-- The rounds of the waiting loop and of the main loop. -/
abbrev WaitRound (tgt : Target) := Round (Sys tgt) (MainState tgt) (Option (MainState tgt))

abbrev LoopRound (tgt : Target) := Round (Sys tgt) (MainState tgt) (MainState tgt)

theorem rounds_wait_init {s : MainState tgt} {ws : List (WaitRound tgt)}
    {fl : Flow (MainState tgt) (Option (MainState tgt))} (hs : s.2.bgbClockInit = true)
    (h : Rounds E waitBody s w ws fl w') :
    obsOf (traceOf ws) = [] ∧ (fl = .go s ∨ fl = .done (some s)) := by
  cases h with
  | stop => exact ⟨rfl, Or.inl rfl⟩
  | go hx _ =>
    obtain ⟨_, hfl⟩ := exec_waitBody_init hs hx
    cases hfl
  | done hx =>
    obtain ⟨ht, hfl⟩ := exec_waitBody_init hs hx
    subst ht
    exact ⟨rfl, Or.inr hfl⟩

/-- The waiting loop handles no packet, loses the link, or handles exactly one packet: the one
    that initialises the clock. -/
theorem rounds_wait {bgbSock : SOCKET} {s : MainState tgt} {ws : List (WaitRound tgt)}
    {fl : Flow (MainState tgt) (Option (MainState tgt))} (hs : s = waitState tgt bgbSock)
    (h : Rounds E waitBody s w ws fl w') :
    (obsOf (traceOf ws) = [] ∧ fl = .go s) ∨
    (Lost tgt.serialIdleByte (obsOf (traceOf ws)) ∧ fl = .done none) ∨
    ∃ p s', p.known = true ∧ Served p tgt.serialIdleByte (obsOf (traceOf ws)) s'.1.byte ∧
      FirstSeen p s' ∧ (fl = .go s' ∨ fl = .done (some s')) := by
  -- induction on the rounds; as long as no packet comes the state does not change
  induction h with
  | stop s w => exact Or.inl ⟨rfl, rfl⟩
  | @go s s₁ w w₁ w' t ws fl hx hr ih =>
    subst hs
    rw [traceOf_cons, obsOf_append]
    rcases exec_waitBody_call rfl hx with ⟨hfl, _⟩ | ⟨s', hfl, hloop⟩
    · cases hfl
    · injection hfl with hfl
      subst hfl
      rcases exec_bgbLoop_waiting hloop with ⟨ho, hs⟩ | ⟨p, hk, hserved, hfirst⟩
      · subst hs
        rw [ho]
        exact ih rfl
      · -- the packet came: the next turn leaves
        have hinit : s₁.2.bgbClockInit = true := congrArg Core.bgbClockInit hfirst.core
        obtain ⟨ho, hfl⟩ := rounds_wait_init hinit hr
        rw [ho, List.append_nil]
        exact Or.inr (Or.inr ⟨p, s₁, hk, hserved, hfirst, hfl⟩)
  | done hx =>
    subst hs
    -- the loop is left from the state it waits in: only by losing the link
    rcases exec_waitBody_call rfl hx with ⟨hfl, hloop⟩ | ⟨s', hfl, _⟩
    · rw [traceOf_singleton]
      exact Or.inr (Or.inl ⟨(exec_bgbLoop_lost hloop).2, hfl⟩)
    · cases hfl

/-! ## §2. Up to the main loop. -/

/-- `main` gets from the handshake through the rounds `ws` of waiting to its loop, which starts
    in `s`. -/
def Begins (E : Env (Sys tgt) σ) (bgbSock : SOCKET) (ws : List (WaitRound tgt)) (w : σ)
    (s : MainState tgt) (w' : σ) : Prop :=
  ∃ t₀ state w₁ state₁ mobile₁ w₂ t₁ mobile₂,
    Exec E (mainInit bgbSock) w t₀ (true, state) w₁ ∧
    Rounds E waitBody (waitStart state) w₁ ws (.done (some (state₁, mobile₁))) w₂ ∧
    Exec E (mobileStart mobile₁) w₂ t₁ mobile₂ w' ∧
    s = loopStart state₁ mobile₂

/-- The state with which the loop starts, once the packet `p` has been seen. -/
theorem loopStart_first {p : BgbPacket} {s : MainState tgt} {mobile : MobileUser tgt}
    (hfirst : FirstSeen p s) (hcore : mobile.core = s.2.core) :
    LoopHead (loopStart s.1 mobile) ∧ mobile.bgbClock = p.stamp 0 ∧
      mobile.action = MOBILE_ACTION_NONE := by
  rw [hfirst.core] at hcore
  have hclock : mobile.bgbClock = p.stamp 0 := congrArg Core.bgbClock hcore
  refine ⟨⟨⟨hfirst.transfer, rfl, hfirst.init, ?_⟩, congrArg Core.reset hcore⟩, hclock,
    congrArg Core.action hcore⟩
  show mobile.bgbClock = s.1.timestampLast
  rw [hclock, hfirst.last]

theorem mainInit_state {bgbSock : SOCKET} {ok : Bool} {state : BgbState tgt (MobileUser tgt)}
    (h : Exec E (mainInit bgbSock) w t (ok, state) w') :
    waitStart state = waitState tgt bgbSock ∧ Handshake tgt.byteOrder ok (obsOf t) (recvs t) := by
  obtain ⟨hstate, hshake⟩ := bgbInit_cases h
  rw [hstate]
  exact ⟨rfl, hshake⟩

/-- What a packet handled shows of packets is the packet. -/
theorem Served.packets {p : BgbPacket} {byte byte' : UInt8} {o : List Obs}
    (h : Served p byte o byte') : packetsOf o = [p] := by
  cases h <;> rfl

/-- The loop starts with the clocks in step at the timestamp of the one packet that was handled
    while waiting. -/
theorem Begins.loopHead {bgbSock : SOCKET} {ws : List (WaitRound tgt)} {s : MainState tgt}
    (h : Begins E bgbSock ws w s w') :
    ∃ p, p.known = true ∧ packetsOf (obsOf (traceOf ws)) = [p] ∧ LoopHead s ∧
      s.2.bgbClock = p.stamp 0 := by
  obtain ⟨t₀, state, w₁, state₁, mobile₁, w₂, t₁, mobile₂, hinit, hwait, hstart, hs⟩ := h
  rcases rounds_wait (mainInit_state hinit).1 hwait with ⟨_, hfl⟩ | ⟨_, hfl⟩
    | ⟨p, s', hk, hserved, hfirst, hfl | hfl⟩
  · cases hfl
  · cases hfl
  · cases hfl
  · cases hfl
    obtain ⟨hhead, hclock, _⟩ := loopStart_first hfirst (exec_mobileStart hstart).2
    subst hs
    exact ⟨p, hk, hserved.packets, hhead, hclock⟩

/-! ## §3. The main loop as an abstract machine. -/

/-- What of the loop's state decides what it shows. -/
structure View where
  byte : UInt8
  clock : UInt32
  action : MobileAction

def viewOf (s : MainState tgt) : View := ⟨s.1.byte, s.2.bgbClock, s.2.action⟩

/-- What a restart shows: it is announced, then carried out. -/
def restartObs (asked : Bool) : List Obs := if asked then [.reset, .stop, .start] else []

/-- One turn of the machine. -/
inductive Turn (tgt : Target) : View → List Obs → View → Prop where
  /-- No packet. -/
  | idle {v : View} {o : List Obs} {a : MobileAction} (h : Acts tgt v.action o a) :
      Turn tgt v o { v with action := a }
  /-- A packet, the restart if its timestamp asks for one, then the actions. -/
  | packet {v : View} {p : BgbPacket} {o₁ o₂ : List Obs} {byte : UInt8} {a : MobileAction}
      (hs : Served p v.byte o₁ byte) (ha : Acts tgt v.action o₂ a) :
      Turn tgt v (o₁ ++ restartObs (asksReset v.clock (p.stamp v.clock)) ++ o₂)
        ⟨byte, clockNext v.clock (p.stamp v.clock), a⟩

theorem Acts.packets {a a' : MobileAction} {o : List Obs} (h : Acts tgt a o a') :
    packetsOf o = [] := by
  cases h <;> rfl

/-- A turn with a packet shows that packet and no other. -/
theorem packetsOf_turn {p : BgbPacket} {byte byte' : UInt8} {a a' : MobileAction}
    {o₁ o₂ : List Obs} (hs : Served p byte o₁ byte') (asked : Bool) (ha : Acts tgt a o₂ a') :
    packetsOf (o₁ ++ restartObs asked ++ o₂) = [p] := by
  have hrestart : packetsOf (restartObs asked) = [] := by cases asked <;> rfl
  rw [packetsOf_append, packetsOf_append, hs.packets, hrestart, ha.packets]
  rfl

/-- Turns, one after the other. -/
inductive Turns (tgt : Target) : View → List Obs → View → Prop where
  | nil (v : View) : Turns tgt v [] v
  | cons {v v₁ v₂ : View} {o o' : List Obs} (h : Turn tgt v o v₁) (hs : Turns tgt v₁ o' v₂) :
      Turns tgt v (o ++ o') v₂

/-- The rule for monitors of the machine: what every turn keeps, all turns keep. -/
theorem Turns.accepts {μ : Type} {M : Monitor Obs μ} {R : View → μ → Prop}
    (hstep : ∀ v o v' m, Turn tgt v o v' → R v m → M.Accepts m o ∧ R v' (M.after m o))
    {v v' : View} {o : List Obs} (h : Turns tgt v o v') :
    ∀ {m : μ}, R v m → M.Accepts m o ∧ R v' (M.after m o) := by
  -- induction on the turns; `R` says which state the monitor is in between two of them
  induction h with
  | nil v =>
    intro m hm
    exact ⟨trivial, hm⟩
  | cons h _ ih =>
    intro m hm
    obtain ⟨hacc, hm₁⟩ := hstep _ _ _ m h hm
    obtain ⟨hacc', hm₂⟩ := ih hm₁
    rw [Monitor.accepts_append, Monitor.after_append]
    exact ⟨⟨hacc, hacc'⟩, hm₂⟩

/-- A turn of the code that goes on is a turn of the machine, and ends at the head of the loop. -/
theorem exec_loopBody_turn {bgbSock : SOCKET} {s s' : MainState tgt} (hs : LoopHead s)
    (h : Exec E (loopBody bgbSock s) w t (.go s') w') :
    LoopHead s' ∧ Turn tgt (viewOf s) (obsOf t) (viewOf s') := by
  obtain ⟨mid, w₁, t₁, w₂, t₂, w₃, hloop, hhandle, hst, ho⟩ := exec_loopBody_go h
  obtain ⟨o₂, ho₂, hacts, hcore⟩ := exec_mobileHandleLoop hhandle
  have hclock' : s'.2.bgbClock = mid.2.bgbClock := congrArg Core.bgbClock hcore
  rcases exec_bgbLoop_synced hs.toSynced hloop with ⟨ho₁, hmid⟩
    | ⟨p, o₁, _, hserved, hsync, ho₁, hmid⟩
  · -- no packet
    subst hmid
    refine ⟨loopHead_handled hs.toSynced hst hcore, ?_⟩
    rw [ho, ho₁, ho₂, hs.reset]
    have hview : viewOf s' = { viewOf mid with action := s'.2.action } := by
      unfold viewOf
      rw [hst, hclock']
    rw [hview]
    exact .idle hacts
  · -- a packet: at the head of the loop the flag is down, so it is up now only if this one asks
    have hreset : mid.2.reset = asksReset s.2.bgbClock (p.stamp s.2.bgbClock) := by
      have hr : mid.2.reset = (s.2.reset || asksReset s.2.bgbClock (p.stamp s.2.bgbClock)) :=
        congrArg Core.reset hmid
      rw [hr, hs.reset, Bool.false_or]
    have hclock : mid.2.bgbClock = clockNext s.2.bgbClock (p.stamp s.2.bgbClock) :=
      congrArg Core.bgbClock hmid
    have haction : mid.2.action = s.2.action := congrArg Core.action hmid
    refine ⟨loopHead_handled hsync hst hcore, ?_⟩
    have hobs : obsOf t
        = o₁ ++ restartObs (asksReset s.2.bgbClock (p.stamp s.2.bgbClock)) ++ o₂ := by
      rw [ho, ho₁, ho₂, hreset]
      unfold restartObs
      cases asksReset s.2.bgbClock (p.stamp s.2.bgbClock) <;> simp
    have hview : viewOf s'
        = ⟨mid.1.byte, clockNext s.2.bgbClock (p.stamp s.2.bgbClock), s'.2.action⟩ := by
      unfold viewOf
      rw [hst, hclock', hclock]
    rw [hobs, hview]
    rw [haction] at hacts
    exact .packet hserved hacts

/-- **The code refines the machine**: the rounds that went on are turns of it; the last round may
    lose the link. -/
theorem rounds_turns {bgbSock : SOCKET} {s : MainState tgt} {rs : List (LoopRound tgt)}
    {fl : Flow (MainState tgt) (MainState tgt)} (hs : LoopHead s)
    (h : Rounds E (loopBody bgbSock) s w rs fl w') :
    ∃ o o', Turns tgt (viewOf s) o (viewOf fl.get) ∧ obsOf (traceOf rs) = o ++ o' ∧
      ((∃ s', fl = .go s' ∧ o' = []) ∨ ∃ s', fl = .done s' ∧ Lost s'.1.byte o') := by
  -- simulation, round by round; a round that leaves the loop has no turn, it only ends the run
  induction h with
  | stop s w => exact ⟨[], [], .nil _, rfl, Or.inl ⟨s, rfl, rfl⟩⟩
  | go hx _ ih =>
    obtain ⟨hs₁, hturn⟩ := exec_loopBody_turn hs hx
    obtain ⟨o, o', hturns, ho, hend⟩ := ih hs₁
    refine ⟨_, o', .cons hturn hturns, ?_, hend⟩
    rw [traceOf_cons, obsOf_append, ho, List.append_assoc]
  | @done s w w' t s' hx =>
    obtain ⟨hs', hlost⟩ := exec_loopBody_done hx
    subst hs'
    refine ⟨[], obsOf t, .nil _, ?_, Or.inr ⟨s', rfl, hlost⟩⟩
    rw [traceOf_singleton]
    rfl

/-! ## §4. Whole runs. -/

/-- Everything a run of `main` can show after the handshake. -/
inductive MainObs (tgt : Target) : List Obs → Prop where
  /-- No packet yet, or the link is lost before the first one is handled. -/
  | lost {o : List Obs} (h : Lost tgt.serialIdleByte o) : MainObs tgt o
  /-- The first packet was handled. -/
  | first {p : BgbPacket} {o : List Obs} {byte : UInt8} (hs : Served p tgt.serialIdleByte o byte) :
      MainObs tgt o
  /-- In the main loop. -/
  | looping {p : BgbPacket} {o₀ o : List Obs} {byte : UInt8} {v : View}
      (hs : Served p tgt.serialIdleByte o₀ byte)
      (ht : Turns tgt ⟨byte, p.stamp 0, MOBILE_ACTION_NONE⟩ o v) : MainObs tgt (o₀ ++ .start :: o)
  /-- Left the main loop. -/
  | exited {p : BgbPacket} {o₀ o o' : List Obs} {byte : UInt8} {v : View}
      (hs : Served p tgt.serialIdleByte o₀ byte)
      (ht : Turns tgt ⟨byte, p.stamp 0, MOBILE_ACTION_NONE⟩ o v) (hl : Lost v.byte o') :
      MainObs tgt (o₀ ++ .start :: (o ++ o') ++ [.stop])

/-- The end of `main` closes sockets only. -/
theorem exec_close_obs {mobile : MobileUser tgt} {bgbSock : SOCKET} {e : MainEnd}
    (h : Exec E (do
      socketImplStop mobile.socket
      Sys.close bgbSock
      return .exited) w t e w') : obsOf t = [] := by
  have hloop : ∀ conns : List (Fin tgt.maxConnections),
      (socketImplStopLoop mobile.socket conns).Uses SilentOp := by
    intro conns
    induction conns with
    | nil => exact Prog.uses_pure _
    | cons i conns ih =>
      unfold socketImplStopLoop
      split
      · exact Prog.uses_bind (Prog.uses_ask trivial) fun _ => ih
      · exact ih
  refine obsOf_silent (Exec.uses (Prog.uses_bind (hloop _) ?_) h)
  intro _
  exact Prog.uses_bind (Prog.uses_ask trivial) fun _ => Prog.uses_pure _

/-- From the first packet on: the adapter is started, the loop runs, the adapter is stopped. -/
theorem exec_mainLoop {bgbSock : SOCKET} {m : Nat} {e : MainEnd} {p : BgbPacket} {o₀ : List Obs}
    {s : MainState tgt} (hserved : Served p tgt.serialIdleByte o₀ s.1.byte) (hfirst : FirstSeen p s)
    (h : Exec E (do
      let mobile ← mobileStart s.2
      match ← loop (loopBody bgbSock) m (loopStart s.1 mobile) with
      | .go _ => return .looping
      | .done (_, mobile) =>
          let mobile ← mobileStop mobile
          socketImplStop mobile.socket
          Sys.close bgbSock
          return .exited) w t e w') : MainObs tgt (o₀ ++ obsOf t) := by
  rw [exec_bind] at h
  obtain ⟨t₁, mobile, w₁, t₂, hstart, h, ht⟩ := h
  obtain ⟨ho₁, hcore⟩ := exec_mobileStart hstart
  obtain ⟨hhead, hclock, haction⟩ := loopStart_first hfirst hcore
  rw [exec_bind] at h
  obtain ⟨t₃, fl, w₃, t₄, hloop, h, ht₂⟩ := h
  obtain ⟨rs, hrs, ht₃⟩ := exec_loop hloop
  obtain ⟨o, o', hturns, ho, hend⟩ := rounds_turns hhead hrs
  have hview : viewOf (loopStart s.1 mobile) = ⟨s.1.byte, p.stamp 0, MOBILE_ACTION_NONE⟩ := by
    unfold viewOf loopStart
    rw [hclock, haction]
  rw [hview] at hturns
  subst ht ht₂ ht₃
  rw [obsOf_append, obsOf_append, ho₁, ho]
  rcases hend with ⟨s', hfl, ho'⟩ | ⟨s', hfl, hlost⟩
  · -- the rounds allowed are used up
    subst hfl ho'
    obtain ⟨ht₄, _, _⟩ := (exec_pure E).mp h
    subst ht₄
    rw [obsOf_nil, List.append_nil, List.append_nil]
    exact .looping hserved hturns
  · -- interrupted, or the link is lost: the adapter is stopped, the sockets are closed
    subst hfl
    dsimp only at h
    rw [exec_bind] at h
    obtain ⟨t₅, mobile₁, w₅, t₆, hstop, h, ht₄⟩ := h
    subst ht₄
    rw [obsOf_append, (exec_mobileStop hstop).1, exec_close_obs h]
    have hexit := MainObs.exited hserved hturns hlost
    simpa using hexit

/-- **Every run of `main`** shows a handshake and then what `MainObs` allows. -/
theorem exec_mainProg {bgbSock : SOCKET} {n m : Nat} {e : MainEnd}
    (h : Exec E (mainProg bgbSock n m) w t e w') :
    ∃ oh o ok rs, obsOf t = oh ++ o ∧ Handshake tgt.byteOrder ok oh rs ∧
      (ok = false → o = []) ∧ MainObs tgt o := by
  unfold mainProg at h
  rw [exec_bind] at h
  obtain ⟨t₀, ⟨ok, state⟩, w₁, t₁, hinit, h, ht⟩ := h
  obtain ⟨hstate, hshake⟩ := mainInit_state hinit
  subst ht
  rw [obsOf_append]
  refine ⟨obsOf t₀, obsOf t₁, ok, recvs t₀, rfl, hshake, ?_⟩
  dsimp only at h
  cases ok with
  | false =>
    rw [if_pos (by decide)] at h
    obtain ⟨ht₁, _, _⟩ := (exec_pure E).mp h
    subst ht₁
    exact ⟨fun _ => rfl, .lost (Or.inl rfl)⟩
  | true =>
    refine ⟨(fun hf => nomatch hf), ?_⟩
    rw [if_neg (by decide), exec_bind] at h
    obtain ⟨t₂, fl, w₂, t₃, hwait, h, ht₁⟩ := h
    obtain ⟨ws, hws, ht₂⟩ := exec_loop hwait
    subst ht₁ ht₂
    rw [obsOf_append]
    -- the four ways in which waiting can stand when it stops
    rcases rounds_wait hstate hws with ⟨ho, hfl⟩ | ⟨hlost, hfl⟩
      | ⟨p, s', hk, hserved, hfirst, hfl | hfl⟩
    · subst hfl
      obtain ⟨ht₃, _, _⟩ := (exec_pure E).mp h
      subst ht₃
      rw [ho]
      exact .lost (Or.inl rfl)
    · subst hfl
      obtain ⟨ht₃, _, _⟩ := (exec_pure E).mp h
      subst ht₃
      rw [obsOf_nil, List.append_nil]
      exact .lost hlost
    · subst hfl
      obtain ⟨ht₃, _, _⟩ := (exec_pure E).mp h
      subst ht₃
      rw [obsOf_nil, List.append_nil]
      exact .first hserved
    · subst hfl
      exact exec_mainLoop hserved hfirst h

/-! ## §5. Concrete runs. -/

/-- What the emulator sends and libmobile answers in a concrete run. -/
structure Script where
  /-- The bytes the emulator sends. -/
  rx : List UInt8
  /-- What `mobile_transfer` returns, call by call. -/
  transfers : List UInt8
  /-- What `mobile_actions_get` returns, call by call. -/
  actions : List MobileAction

/-- Serve a script: every `recv` and `send` is whole, a poll reports data while there is some, and
    nothing is left to do for libmobile at its end. -/
def Script.serve (c : Script) : (op : SysOp tgt) → op.Ans × Script
  | .poll _ _ => (if c.rx = [] then 0 else 1, c)
  | .send _ data => (some data.length, c)
  | .recv _ size => (some (c.rx.take size), { c with rx := c.rx.drop size })
  | .mobileTransfer _ =>
      ((c.transfers.headD tgt.serialIdleByte, []), { c with transfers := c.transfers.tail })
  | .mobileActionsGet =>
      ((c.actions.headD MOBILE_ACTION_NONE, []), { c with actions := c.actions.tail })
  | op => (plainAns op, c)

/-- The environment that follows a script. -/
def scripted (tgt : Target) : Env (Sys tgt) Script := fun c op ans c' => (ans, c') = c.serve op

theorem scripted_serve (c : Script) (op : SysOp tgt) :
    scripted tgt c op (c.serve op).1 (c.serve op).2 := rfl

/-- Run `main` up to its loop, with at most `n` turns of waiting. -/
def runToLoop (bgbSock : SOCKET) (n : Nat) (c : Script) :
    Option (List (WaitRound tgt) × MainState tgt × Script) :=
  match (mainInit bgbSock).run Script.serve c with
  | (_, (true, state), c₁) =>
      match runRounds Script.serve waitBody n (waitStart state) c₁ with
      | (ws, .done (some (state₁, mobile₁)), c₂) =>
          let r := (mobileStart mobile₁).run Script.serve c₂
          some (ws, loopStart state₁ r.2.1, r.2.2)
      | _ => none
  | _ => none

theorem begins_runToLoop {bgbSock : SOCKET} {n : Nat} {c c' : Script} {ws : List (WaitRound tgt)}
    {s : MainState tgt} (h : runToLoop bgbSock n c = some (ws, s, c')) :
    Begins (scripted tgt) bgbSock ws c s c' := by
  unfold runToLoop at h
  split at h
  next t₀ state c₁ hinit =>
    split at h
    next ws' state₁ mobile₁ c₂ hwait =>
      have hx₀ := exec_run scripted_serve (mainInit bgbSock : Prog (Sys tgt) _) c
      have hx₁ := rounds_runRounds scripted_serve waitBody n (waitStart state) c₁
      have hx₂ := exec_run scripted_serve (mobileStart mobile₁) c₂
      rw [hinit] at hx₀
      rw [hwait] at hx₁
      injection h with h
      injection h with hws h
      injection h with hs hc
      subst hws hs hc
      exact ⟨_, _, _, _, _, _, _, _, hx₀, hx₁, hx₂, rfl⟩
    next => cases h
  next => cases h

theorem begins_get {bgbSock : SOCKET} {n : Nat} {c : Script}
    {r : List (WaitRound tgt) × MainState tgt × Script} (h : (runToLoop bgbSock n c).isSome = true)
    (hr : r = (runToLoop bgbSock n c).get h) : Begins (scripted tgt) bgbSock r.1 c r.2.1 r.2.2 := by
  rw [hr]
  exact begins_runToLoop (Option.some_get h).symm

/-- Run all of `main` on a script. -/
def runMain (n m : Nat) (c : Script) : Trace (Sys host) × MainEnd × Script :=
  (mainProg 3 n m).run Script.serve c

theorem exec_runMain (n m : Nat) (c : Script) :
    Exec (scripted host) (mainProg 3 n m) c (runMain n m c).1 (runMain n m c).2.1
      (runMain n m c).2.2 :=
  exec_run scripted_serve _ c

/-- The restarts of a concrete run, by their place. -/
theorem restart_at {P : List Obs → Prop} {o : List Obs}
    (h : ∀ k < o.length, (o.drop k).take 2 = [.stop, .start] → P (o.take k)) :
    ∀ a b, o = a ++ .stop :: .start :: b → P a := by
  intro a b ho
  have hlen : a.length < o.length := by
    rw [ho]
    simp
  have htake : o.take a.length = a := by rw [ho, List.take_left]
  have hdrop : (o.drop a.length).take 2 = [.stop, .start] := by
    rw [ho, List.drop_left]
    rfl
  rw [← htake]
  exact h a.length hlen hdrop

end MobileBgb.Main
