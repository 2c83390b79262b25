/-
  MobileBgb.Link.BgbLink — `bgblink.c`: the handshake and one call of the loop.

  The functions are programs over `Sys tgt`.  `struct bgb_state` is passed in and
  out; the object behind its `user` pointer is a value of a type `U` that the
  callbacks transform, so the code stays generic in it, as the C is.  A `NULL`
  callback is `none`.

  `bgb_loop` is cut where its source is: the `switch` on the command
  (`bgbLoopSwitch`) and the shared tail that follows the clock
  (`bgbLoopClock`).  Every early `return false` of the source comes before the
  first write to the state, so a failing call returns the state it was given.
-/
import MobileBgb.Link.Packet
import MobileBgb.Socket.Socket

namespace MobileBgb.Link

open MobileBgb.Effect
open MobileBgb.System
open MobileBgb.Socket

variable {tgt : Target} {U : Type}

/-! ## §1. Sending and receiving one packet. -/

/-- `bgb_send` -/
def bgbSend (socket : SOCKET) (buf : BgbPacket) : Prog (Sys tgt) Bool := do
  match ← Sys.send socket (buf.toBytes tgt.byteOrder) with
  | none =>
      Sys.diag (.socketPerror "bgb_send")
      return false
  | some num => return num == packetSize

/-- `bgb_recv`: the packet, when the call returns `true`. -/
def bgbRecv (socket : SOCKET) : Prog (Sys tgt) (Option BgbPacket) := do
  match ← Sys.recv socket packetSize with
  | none =>
      Sys.diag (.socketPerror "bgb_recv")
      return none
  | some buf =>
      return if buf.length = packetSize then some (BgbPacket.ofBytes tgt.byteOrder buf) else none

/-! ## §2. `struct bgb_state`. -/

/-- `struct bgb_state`, less its `user` pointer. -/
structure BgbState (tgt : Target) (U : Type) where
  socket : SOCKET
  byte : UInt8
  callbackTransfer : Option (U → UInt8 → Prog (Sys tgt) (UInt8 × U))
  callbackTimestamp : Option (U → UInt32 → Prog (Sys tgt) U)
  timestampLast : UInt32
  timestampInit : Bool

/-- The fields as `bgb_init` sets them before it starts the handshake. -/
def BgbState.start (socket : SOCKET) (initByte : UInt8)
    (callbackTransfer : Option (U → UInt8 → Prog (Sys tgt) (UInt8 × U)))
    (callbackTimestamp : Option (U → UInt32 → Prog (Sys tgt) U)) : BgbState tgt U where
  socket := socket
  byte := initByte
  callbackTransfer := callbackTransfer
  callbackTimestamp := callbackTimestamp
  timestampLast := 0
  timestampInit := false

/-! ## §3. The handshake. -/

/-- `bgb_init`: the state it leaves and whether the handshake succeeded.  One packet buffer is
    used throughout: what a step does not set is what the step before it left there. -/
def bgbInit (socket : SOCKET) (initByte : UInt8)
    (callbackTransfer : Option (U → UInt8 → Prog (Sys tgt) (UInt8 × U)))
    (callbackTimestamp : Option (U → UInt32 → Prog (Sys tgt) U)) :
    Prog (Sys tgt) (Bool × BgbState tgt U) := do
  let state := BgbState.start socket initByte callbackTransfer callbackTimestamp

  -- Handshake
  if !(← bgbSend socket handshake) then return (false, state)
  let some packet ← bgbRecv socket | return (false, state)
  if packet ≠ handshake then
    Sys.diag .invalidHandshake
    return (false, state)

  -- Send initial status
  let packet : BgbPacket := { packet with
    cmd := BgbCmd.status.code
    b2 := BGB_STATUS_RUNNING ||| BGB_STATUS_PAUSED ||| BGB_STATUS_SUPPORTRECONNECT
    b3 := 0
    b4 := 0
    timestamp := 0 }
  if !(← bgbSend socket packet) then return (false, state)

  -- Expect a status packet back
  let some packet ← bgbRecv socket | return (false, state)
  if packet.cmd ≠ BgbCmd.status.code then
    Sys.diag .unexpectedPacket
    return (false, state)

  -- Unpause the emulator (the timestamp stays the one received)
  let packet : BgbPacket := { packet with
    cmd := BgbCmd.status.code
    b2 := BGB_STATUS_RUNNING ||| BGB_STATUS_SUPPORTRECONNECT
    b3 := 0
    b4 := 0 }
  if !(← bgbSend socket packet) then return (false, state)
  return (true, state)

/-! ## §4. One call of the loop. -/

/-- The reply to a SYNC1, built over the packet received. -/
def BgbPacket.sync2 (packet : BgbPacket) (byte : UInt8) : BgbPacket :=
  { packet with cmd := BgbCmd.sync2.code, b2 := byte, b3 := 0x80, b4 := 0, timestamp := 0 }

/-- The `switch` of `bgb_loop`: `none` is its `return false`, otherwise the state, the user
    object and `timestamp_cur` with which the function goes on. -/
def bgbLoopSwitch (state : BgbState tgt U) (user : U) (packet : BgbPacket) :
    Prog (Sys tgt) (Option (BgbState tgt U × U × UInt32)) :=
  match BgbCmd.ofCode packet.cmd with
  | some .joypad =>
      -- Not relevant
      return some (state, user, state.timestampLast)
  | some .sync1 => do
      let byteCur := packet.b2
      let timestampCur := packet.timestamp
      if !(← bgbSend state.socket (packet.sync2 state.byte)) then return none
      match state.callbackTransfer with
      | none => return some (state, user, timestampCur)
      | some callbackTransfer =>
          let (byte, user) ← callbackTransfer user byteCur
          return some ({ state with byte := byte }, user, timestampCur)
  | some .sync2 =>
      -- Can be sent if the game has queued up a byte to send as slave
      return some (state, user, state.timestampLast)
  | some .sync3 => do
      let timestampCur := packet.timestamp
      if packet.b2 ≠ 0 then return some (state, user, timestampCur)
      if !(← bgbSend state.socket packet) then return none
      return some (state, user, timestampCur)
  | some .status =>
      -- Ignore, we've already sent a status packet
      return some (state, user, state.timestampLast)
  | some .wantdisconnect =>
      -- Ignore, the server is gonna disconnect for us anyway
      return some (state, user, state.timestampLast)
  | some .version | none => do
      Sys.diag (.unknownCommand packet.cmd packet.b2 packet.b3 packet.b4 packet.timestamp)
      return none

/-- The first part of the tail: the very first timestamp initialises the clock. -/
def bgbLoopClockInit (state : BgbState tgt U) (user : U)
    (callbackTimestamp : U → UInt32 → Prog (Sys tgt) U) (timestampCur : UInt32) :
    Prog (Sys tgt) (BgbState tgt U × U) :=
  if state.timestampInit then
    return (state, user)
  else do
    let user ← callbackTimestamp user timestampCur
    return ({ state with timestampLast := timestampCur, timestampInit := true }, user)

/-- The second part of the tail: follow the clock, unless it went back a little. -/
def bgbLoopClockFollow (state : BgbState tgt U) (user : U)
    (callbackTimestamp : U → UInt32 → Prog (Sys tgt) U) (timestampCur : UInt32) :
    Prog (Sys tgt) (BgbState tgt U × U) := do
  -- Attempt to detect the clock going back in time
  let diff := (state.timestampLast - timestampCur) &&& 0x7FFFFFFF
  let timestampCur ← (
    if diff ≠ 0 ∧ diff ≤ 0x100 then do
      Sys.diag (.wentBackInTime state.timestampLast timestampCur)
      return state.timestampLast
    else return timestampCur)
  let user ← (
    if state.timestampLast ≠ timestampCur then callbackTimestamp user timestampCur
    else return user)
  return ({ state with timestampLast := timestampCur }, user)

/-- The tail of `bgb_loop`, for whatever command was handled. -/
def bgbLoopClock (state : BgbState tgt U) (user : U) (timestampCur : UInt32) :
    Prog (Sys tgt) (BgbState tgt U × U) :=
  match state.callbackTimestamp with
  | none => return (state, user)
  | some callbackTimestamp => do
      let (state, user) ← bgbLoopClockInit state user callbackTimestamp timestampCur
      bgbLoopClockFollow state user callbackTimestamp timestampCur

/-- `bgb_loop` -/
def bgbLoop (state : BgbState tgt U) (user : U) : Prog (Sys tgt) (Bool × BgbState tgt U × U) := do
  if (← socketHasdata state.socket) ≤ 0 then return (true, state, user)
  let some packet ← bgbRecv state.socket | return (false, state, user)
  match ← bgbLoopSwitch state user packet with
  | none => return (false, state, user)
  | some (state, user, timestampCur) =>
      let (state, user) ← bgbLoopClock state user timestampCur
      return (true, state, user)

end MobileBgb.Link
