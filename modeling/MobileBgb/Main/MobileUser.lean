/-
  MobileBgb.Main.MobileUser — `main.c` from the handshake on.

  `struct mobile_user` is the object behind the `user` pointers of both sides:
  the link's callbacks (`bgb_loop_transfer`, `bgb_loop_timestamp`) and
  libmobile's (`impl_*`) work on the same value.  A call into libmobile is a
  request; the callbacks it made come back with the answer and are run on the
  object in order before the caller goes on (`implCalls`).

  The loops are cut into rounds: `waitBody` is one turn of the loop that waits
  for the first timestamp, `loopBody` one turn of the main loop.  `mainProg`
  puts them together with a bound on the number of turns; a run that is cut off
  by its bound is a run of `main` that has not ended yet.

  The parts of the object that only the title and the configuration file use are
  left out, as is everything before the handshake.
-/
import MobileBgb.Link.BgbLink
import MobileBgb.Socket.SocketImpl
import MobileBgb.Effect.Loop

namespace MobileBgb.Main

open MobileBgb.Effect
open MobileBgb.System
open MobileBgb.Socket
open MobileBgb.Link

variable {tgt : Target}

/-! ## §1. The user object. -/

/-- `struct mobile_user` -/
structure MobileUser (tgt : Target) where
  socket : SocketImpl tgt
  action : MobileAction
  reset : Bool
  bgbClock : UInt32
  bgbClockInit : Bool
  bgbClockLatch : Fin tgt.maxTimers → UInt32

/-- The object as `main` initialises it. -/
def MobileUser.init : MobileUser tgt where
  socket := socketImplInit
  action := MOBILE_ACTION_NONE
  reset := false
  bgbClock := 0
  bgbClockInit := false
  bgbClockLatch := fun _ => 0

/-! ## §2. What libmobile calls back. -/

/-- `impl_time_latch` -/
def implTimeLatch (mobile : MobileUser tgt) (timer : Fin tgt.maxTimers) : MobileUser tgt :=
  { mobile with bgbClockLatch := Function.update mobile.bgbClockLatch timer mobile.bgbClock }

/-- `impl_time_check_ms`; the conversion from milliseconds is exact in a `double` before it is
    cut off. -/
def implTimeCheckMs (mobile : MobileUser tgt) (timer : Fin tgt.maxTimers) (ms : UInt32) : Bool :=
  ((mobile.bgbClock - mobile.bgbClockLatch timer) &&& 0x7FFFFFFF).toNat ≥ ms.toNat * 2 ^ 21 / 1000

/-- One callback.  What it returns goes back to libmobile. -/
def implCall (mobile : MobileUser tgt) : ImplCall tgt → Prog (Sys tgt) (MobileUser tgt)
  | .timeLatch timer => return implTimeLatch mobile timer
  | .timeCheckMs _ _ => return mobile
  | .sock call => do
      let (_, socket) ← implSock mobile.socket call
      return { mobile with socket := socket }

/-- The callbacks of one call into libmobile, in order. -/
def implCalls : MobileUser tgt → List (ImplCall tgt) → Prog (Sys tgt) (MobileUser tgt)
  | mobile, [] => return mobile
  | mobile, call :: calls => do
      let mobile ← implCall mobile call
      implCalls mobile calls

/-! ## §3. Calls into libmobile. -/

/-- `mobile_start(mobile->adapter)` -/
def mobileStart (mobile : MobileUser tgt) : Prog (Sys tgt) (MobileUser tgt) := do
  let calls ← Sys.mobileStart
  implCalls mobile calls

/-- `mobile_stop(mobile->adapter)` -/
def mobileStop (mobile : MobileUser tgt) : Prog (Sys tgt) (MobileUser tgt) := do
  let calls ← Sys.mobileStop
  implCalls mobile calls

/-- `mobile_actions_get(mobile->adapter)` -/
def mobileActionsGet (mobile : MobileUser tgt) : Prog (Sys tgt) (MobileAction × MobileUser tgt) := do
  let (actions, calls) ← Sys.mobileActionsGet
  let mobile ← implCalls mobile calls
  return (actions, mobile)

/-- `mobile_actions_process(mobile->adapter, actions)` -/
def mobileActionsProcess (mobile : MobileUser tgt) (actions : MobileAction) :
    Prog (Sys tgt) (MobileUser tgt) := do
  let calls ← Sys.mobileActionsProcess actions
  implCalls mobile calls

/-! ## §4. The adapter's side of the loop. -/

/-- `filter_actions` -/
def filterActions (tgt : Target) (actions : MobileAction) : MobileAction :=
  -- Filter out the actions that aren't relevant to this emulator
  actions &&& ~~~tgt.actionResetSerial

/-- Fetch the next action into `mobile->action`. -/
def fetchAction (mobile : MobileUser tgt) : Prog (Sys tgt) (MobileUser tgt) := do
  let (actions, mobile) ← mobileActionsGet mobile
  return { mobile with action := filterActions tgt actions }

/-- `mobile_handle_loop`; it always returns `true`. -/
def mobileHandleLoop (mobile : MobileUser tgt) : Prog (Sys tgt) (MobileUser tgt) := do
  -- Reset the adapter if requested
  let mobile ← (
    if mobile.reset then do
      let mobile ← mobileStop mobile
      let mobile ← mobileStart mobile
      return { mobile with reset := false }
    else return mobile)
  -- Fetch action if none exists
  let mobile ← (
    if mobile.action = MOBILE_ACTION_NONE then fetchAction mobile
    else return mobile)
  -- Process action
  if mobile.action ≠ MOBILE_ACTION_NONE then do
    let mobile ← mobileActionsProcess mobile mobile.action
    -- Fetch next action
    fetchAction mobile
  else return mobile

/-! ## §5. The link's callbacks. -/

/-- `bgb_loop_transfer` -/
def bgbLoopTransfer (mobile : MobileUser tgt) (c : UInt8) :
    Prog (Sys tgt) (UInt8 × MobileUser tgt) := do
  -- Transfer a byte over the serial port
  let (c, calls) ← Sys.mobileTransfer c
  let mobile ← implCalls mobile calls
  return (c, mobile)

/-- `bgb_loop_timestamp` -/
def bgbLoopTimestamp (mobile : MobileUser tgt) (t : UInt32) : Prog (Sys tgt) (MobileUser tgt) := do
  -- Bail if the time difference is too big. This happens whenever the
  --   emulator is reset, a new game is loaded, or a save state is loaded.
  let diff := (t - mobile.bgbClock) &&& 0x7FFFFFFF
  let mobile ← (
    if diff > 0x1000 then do
      Sys.diag .emulatorReset
      return { mobile with reset := true }
    else return mobile)
  return { mobile with bgbClock := t }

/-- `bgb_loop_timestamp_init` -/
def bgbLoopTimestampInit (mobile : MobileUser tgt) (t : UInt32) :
    Prog (Sys tgt) (MobileUser tgt) :=
  return { mobile with bgbClock := t, bgbClockInit := true }

/-! ## §6. The loops of `main`. -/

/-- What the loops pass on. -/
abbrev MainState (tgt : Target) := BgbState tgt (MobileUser tgt) × MobileUser tgt

/-- One turn of the loop that waits for the timestamp to be initialized; it leaves with `none` for
    `goto error`. -/
def waitBody (s : MainState tgt) :
    Prog (Sys tgt) (Flow (MainState tgt) (Option (MainState tgt))) := do
  if s.2.bgbClockInit then return .done (some s)
  let (ok, state, mobile) ← bgbLoop s.1 s.2
  if !ok then return .done none
  return .go (state, mobile)

/-- One turn of the main loop. -/
def loopBody (bgbSock : SOCKET) (s : MainState tgt) :
    Prog (Sys tgt) (Flow (MainState tgt) (MainState tgt)) := do
  if ← Sys.signalIntTrig then return .done s
  let (ok, state, mobile) ← bgbLoop s.1 s.2
  if !ok then return .done (state, mobile)
  let mobile ← mobileHandleLoop mobile
  -- Wait for any of the sockets to do something; time out after 100ms
  let _ ← socketWait (waitSockets bgbSock mobile.socket) 100
  return .go (state, mobile)

/-- The state with which the waiting loop starts: `bgb_init`'s, the timestamp callback swapped. -/
def waitStart (state : BgbState tgt (MobileUser tgt)) : MainState tgt :=
  ({ state with callbackTimestamp := some bgbLoopTimestampInit }, .init)

/-- The state with which the main loop starts. -/
def loopStart (state : BgbState tgt (MobileUser tgt)) (mobile : MobileUser tgt) : MainState tgt :=
  ({ state with callbackTimestamp := some bgbLoopTimestamp }, mobile)

/-- `bgb_init` as `main` calls it. -/
def mainInit (bgbSock : SOCKET) : Prog (Sys tgt) (Bool × BgbState tgt (MobileUser tgt)) :=
  bgbInit bgbSock tgt.serialIdleByte (some bgbLoopTransfer) (some bgbLoopTimestamp)

/-- How a run of `main` stands. -/
inductive MainEnd where
  /-- `EXIT_FAILURE` -/
  | error
  /-- Still waiting for the first timestamp. -/
  | waiting
  /-- Still in the main loop. -/
  | looping
  /-- `EXIT_SUCCESS` -/
  | exited
  deriving DecidableEq, Repr

/-- `main` from the handshake on, with at most `n` turns of waiting and `m` of the main loop. -/
def mainProg (bgbSock : SOCKET) (n m : Nat) : Prog (Sys tgt) MainEnd := do
  -- Connect to the emulator
  let (ok, state) ← mainInit bgbSock
  if !ok then return .error
  -- Wait for the timestamp to be initialized
  match ← loop waitBody n (waitStart state) with
  | .go _ => return .waiting
  | .done none => return .error
  | .done (some (state, mobile)) =>
      -- Start main mobile thread
      let mobile ← mobileStart mobile
      match ← loop (loopBody bgbSock) m (loopStart state mobile) with
      | .go _ => return .looping
      | .done (_, mobile) =>
          -- Wait for the mobile thread to finish, close all sockets
          let mobile ← mobileStop mobile
          socketImplStop mobile.socket
          Sys.close bgbSock
          return .exited

end MobileBgb.Main
