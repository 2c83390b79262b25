/-
  MobileBgb.Socket.SocketImpl — `socket_impl.c`: libmobile's connections as sockets.

  `struct socket_impl` is a table from connection numbers to descriptors, with
  `INVALID_SOCKET` for a free slot.  Each function is a program over `Sys tgt`
  that takes the table and, where it writes to it, returns the table after it.

  `socket_impl_open` is cut after `socket()`: what follows configures the new
  descriptor and closes it at whichever step fails (`socketImplOpenSetup`).
-/
import MobileBgb.Socket.Socket

namespace MobileBgb.Socket

open MobileBgb.Effect
open MobileBgb.System

variable {tgt : Target}

/-! ## §1. The table. -/

/-- `struct socket_impl` -/
structure SocketImpl (tgt : Target) where
  sockets : Fin tgt.maxConnections → SOCKET

/-- `state->sockets[conn] = sock` -/
def SocketImpl.set (state : SocketImpl tgt) (conn : Fin tgt.maxConnections) (sock : SOCKET) :
    SocketImpl tgt :=
  ⟨Function.update state.sockets conn sock⟩

@[simp] theorem SocketImpl.set_self (state : SocketImpl tgt) (conn : Fin tgt.maxConnections)
    (sock : SOCKET) : (state.set conn sock).sockets conn = sock := by
  unfold SocketImpl.set
  exact Function.update_self ..

@[simp] theorem SocketImpl.set_other (state : SocketImpl tgt) {conn i : Fin tgt.maxConnections}
    (sock : SOCKET) (h : i ≠ conn) : (state.set conn sock).sockets i = state.sockets i := by
  unfold SocketImpl.set
  exact Function.update_of_ne h ..

/-- `socket_impl_init` -/
def socketImplInit : SocketImpl tgt where
  sockets := fun _ => INVALID_SOCKET

/-- The loop of `socket_impl_stop` over the slots `conns`. -/
def socketImplStopLoop (state : SocketImpl tgt) :
    List (Fin tgt.maxConnections) → Prog (Sys tgt) Unit
  | [] => return ()
  | i :: conns =>
      if state.sockets i ≠ INVALID_SOCKET then do
        Sys.close (state.sockets i)
        socketImplStopLoop state conns
      else socketImplStopLoop state conns

/-- `socket_impl_stop` -/
def socketImplStop (state : SocketImpl tgt) : Prog (Sys tgt) Unit :=
  socketImplStopLoop state (List.finRange tgt.maxConnections)

/-! ## §2. Addresses. -/

/-- `convert_sockaddr`: the address to hand to the system, `none` for NULL. -/
def convertSockaddr (o : ByteOrder) : Option MobileAddr → Option SockAddr
  | none => none
  | some (.addr4 port host) => some (.addr4 (htons o port.toUInt16) host)
  | some (.addr6 port host) => some (.addr6 (htons o port.toUInt16) 0 host 0)
  | some (.other _) => none

/-- The address `socket_impl_recv` reports for the one the system gave, if it writes any. -/
def reportSockaddr (o : ByteOrder) : Option SockAddr → Option MobileAddr
  | some (.addr4 sinPort sAddr) => some (.addr4 (ntohs o sinPort).toUInt32 sAddr)
  | some (.addr6 sin6Port _ s6Addr _) => some (.addr6 (ntohs o sin6Port).toUInt32 s6Addr)
  | _ => none

/-- `(int)len` of a length: the low 32 bits as a signed number. -/
def intOfLen (len : Nat) : Int := ((len : Int) + 2 ^ 31) % 2 ^ 32 - 2 ^ 31

/-! ## §3. Opening and closing. -/

/-- `sock_type` of `socket_impl_open`; `none` is the `default` case. -/
def sockType : MobileSocktype → Option SockType
  | .tcp => some .stream
  | .udp => some .dgram
  | .other _ => none

/-- `sock_addrtype` of `socket_impl_open`; `none` is the `default` case. -/
def sockAddrtype : MobileAddrtype → Option SockFamily
  | .ipv4 => some .inet
  | .ipv6 => some .inet6
  | .other _ => none

/-- The address `socket_impl_open` binds to: any host, the port given. -/
def bindAddr (o : ByteOrder) (family : SockFamily) (bindport : UInt32) : SockAddr :=
  match family with
  | .inet => .addr4 (htons o bindport.toUInt16) (.replicate 4 0)
  | .inet6 => .addr6 (htons o bindport.toUInt16) 0 (.replicate 16 0) 0

/-- The last steps of `socket_impl_open` on the new descriptor, its options and its port: was it
    set up?  Where a step fails the descriptor is closed. -/
def socketImplOpenOptions (sock : SOCKET) (type : MobileSocktype) (family : SockFamily)
    (bindport : UInt32) : Prog (Sys tgt) Bool := do
  -- Set SO_REUSEADDR so that we can bind to the same port again after
  if (← Sys.setsockopt sock .soReuseaddr) = SOCKET_ERROR then
    Sys.diag (.socketPerror "setsockopt")
    Sys.close sock
    return false

  -- Set TCP_NODELAY to aid sending packets inmediately, reducing latency
  let nodelay ← (if type = .tcp then Sys.setsockopt sock .tcpNodelay else return 0)
  if type = .tcp ∧ nodelay = SOCKET_ERROR then
    Sys.diag (.socketPerror "setsockopt")
    Sys.close sock
    return false

  if (← Sys.bind sock (bindAddr tgt.byteOrder family bindport)) = SOCKET_ERROR then
    Sys.diag (.socketPerror "bind")
    Sys.close sock
    return false
  return true

/-- All steps of `socket_impl_open` on the new descriptor. -/
def socketImplOpenSetup (sock : SOCKET) (type : MobileSocktype) (family : SockFamily)
    (bindport : UInt32) : Prog (Sys tgt) Bool := do
  if (← socketSetblocking sock false) = -1 then
    Sys.close sock
    return false
  socketImplOpenOptions sock type family bindport

/-- `socket_impl_open` -/
def socketImplOpen (state : SocketImpl tgt) (conn : Fin tgt.maxConnections) (type : MobileSocktype)
    (addrtype : MobileAddrtype) (bindport : UInt32) : Prog (Sys tgt) (Bool × SocketImpl tgt) := do
  Sys.assert (state.sockets conn = INVALID_SOCKET)
  match sockType type, sockAddrtype addrtype with
  | none, _ =>
      Sys.assert false
      return (false, state)
  | some _, none =>
      Sys.assert false
      return (false, state)
  | some stype, some family =>
      let sock ← Sys.socket family stype
      if sock = INVALID_SOCKET then
        Sys.diag (.socketPerror "socket")
        return (false, state)
      if !(← socketImplOpenSetup sock type family bindport) then return (false, state)
      return (true, state.set conn sock)

/-- `socket_impl_close` -/
def socketImplClose (state : SocketImpl tgt) (conn : Fin tgt.maxConnections) :
    Prog (Sys tgt) (SocketImpl tgt) := do
  Sys.assert (state.sockets conn ≠ INVALID_SOCKET)
  Sys.close (state.sockets conn)
  return state.set conn INVALID_SOCKET

/-! ## §4. Connections. -/

/-- `socket_impl_connect` -/
def socketImplConnect (state : SocketImpl tgt) (conn : Fin tgt.maxConnections)
    (addr : Option MobileAddr) : Prog (Sys tgt) Int := do
  let sock := state.sockets conn
  Sys.assert (sock ≠ INVALID_SOCKET)
  let sockAddr := convertSockaddr tgt.byteOrder addr

  -- Try to connect/check if we're connected
  match ← Sys.connect sock sockAddr with
  | .ok () => return 1
  | .error .ewouldblock | .error .einprogress | .error .ealready => return 0
  | .error .eisconn => return 1
  | .error (.other _) =>
      let str ← socketStraddr sockAddr
      Sys.diag (.couldNotConnect str)
      Sys.diag (.socketPerror none)
      return -1

/-- `socket_impl_listen` -/
def socketImplListen (state : SocketImpl tgt) (conn : Fin tgt.maxConnections) :
    Prog (Sys tgt) Bool := do
  let sock := state.sockets conn
  Sys.assert (sock ≠ INVALID_SOCKET)
  if (← Sys.listen sock 1) = SOCKET_ERROR then
    Sys.diag (.socketPerror "listen")
    return false
  return true

/-- `socket_impl_accept` -/
def socketImplAccept (state : SocketImpl tgt) (conn : Fin tgt.maxConnections) :
    Prog (Sys tgt) (Bool × SocketImpl tgt) := do
  let sock := state.sockets conn
  Sys.assert (sock ≠ INVALID_SOCKET)
  if (← socketHasdata sock) ≤ 0 then return (false, state)
  let newsock ← Sys.accept sock
  if newsock = INVALID_SOCKET then
    Sys.diag (.socketPerror "accept")
    return (false, state)
  if (← socketSetblocking newsock false) = -1 then return (false, state)
  Sys.close sock
  return (true, state.set conn newsock)

/-! ## §5. Data. -/

/-- `socket_impl_send` -/
def socketImplSend (state : SocketImpl tgt) (conn : Fin tgt.maxConnections) (data : List UInt8)
    (addr : Option MobileAddr) : Prog (Sys tgt) Int := do
  let sock := state.sockets conn
  Sys.assert (sock ≠ INVALID_SOCKET)
  match ← Sys.sendto sock data (convertSockaddr tgt.byteOrder addr) with
  | .error .ewouldblock =>
      -- If the socket is blocking, we just haven't sent anything
      return 0
  | .error _ =>
      Sys.diag (.socketPerror "send")
      return -1
  | .ok len => return intOfLen len

/-- What `socket_impl_recv` gives back: its result, what is in `data`, what is in `addr`. -/
structure RecvResult where
  rc : Int
  data : List UInt8
  addr : Option MobileAddr
  deriving DecidableEq, Repr

/-- A result that writes nothing. -/
def RecvResult.code (rc : Int) : RecvResult := ⟨rc, [], none⟩

/-- The end of `socket_impl_recv`, once `recvfrom` has delivered `buf`. -/
def socketImplRecvDone (size : Option UInt32) (addr : Bool) (buf : List UInt8)
    (sockAddr : Option SockAddr) : Prog (Sys tgt) RecvResult :=
  match size with
  | none => return .code 0
  | some _ =>
      return ⟨intOfLen buf.length, buf,
        if addr then reportSockaddr tgt.byteOrder sockAddr else none⟩

/-- `socket_impl_recv`; `size = none` is a NULL `data`, `addr` tells whether an address buffer is
    given. -/
def socketImplRecv (state : SocketImpl tgt) (conn : Fin tgt.maxConnections) (size : Option UInt32)
    (addr : Bool) : Prog (Sys tgt) RecvResult := do
  let sock := state.sockets conn
  Sys.assert (sock ≠ INVALID_SOCKET)

  -- Make sure at least one byte is in the buffer
  if (← socketHasdata sock) ≤ 0 then return .code 0

  let res ← (
    match size with
    | some size => Sys.recvfrom sock size.toNat false   -- Retrieve at least 1 byte from the buffer
    | none => Sys.recvfrom sock 1 true)                 -- Check if at least 1 byte is available
  match res with
  | .error .ewouldblock => return .code 0
  | .error _ =>
      Sys.diag (.socketPerror "recv")
      return .code (-1)
  | .ok ([], sockAddr) =>
      -- A length of 0 will be returned if the remote has disconnected; only relevant to TCP
      match ← Sys.getsockoptType sock with
      | none =>
          Sys.diag (.socketPerror "getsockopt")
          return .code (-1)
      | some .stream => return .code (-2)
      | some _ => socketImplRecvDone size addr [] sockAddr
  | .ok (buf, sockAddr) => socketImplRecvDone size addr buf sockAddr

/-! ## §6. The calls libmobile makes. -/

/-- The connection a call is about. -/
def connOf : SocketCall tgt → Fin tgt.maxConnections
  | .sockOpen conn _ _ _ => conn
  | .sockClose conn => conn
  | .sockConnect conn _ => conn
  | .sockListen conn => conn
  | .sockAccept conn => conn
  | .sockSend conn _ _ => conn
  | .sockRecv conn _ _ => conn

/-- What a call returns to libmobile. -/
inductive SocketRet where
  | unit
  | bool (b : Bool)
  | int (rc : Int)
  | recv (r : RecvResult)
  deriving DecidableEq, Repr

/-- The `impl_sock_*` callbacks of `main.c`: hand the call to `socket_impl.c`. -/
def implSock (state : SocketImpl tgt) : SocketCall tgt → Prog (Sys tgt) (SocketRet × SocketImpl tgt)
  | .sockOpen conn type addrtype bindport => do
      let (b, state) ← socketImplOpen state conn type addrtype bindport
      return (.bool b, state)
  | .sockClose conn => do
      let state ← socketImplClose state conn
      return (.unit, state)
  | .sockConnect conn addr => do
      let rc ← socketImplConnect state conn addr
      return (.int rc, state)
  | .sockListen conn => do
      let b ← socketImplListen state conn
      return (.bool b, state)
  | .sockAccept conn => do
      let (b, state) ← socketImplAccept state conn
      return (.bool b, state)
  | .sockSend conn data addr => do
      let rc ← socketImplSend state conn data addr
      return (.int rc, state)
  | .sockRecv conn size addr => do
      let r ← socketImplRecv state conn size addr
      return (.recv r, state)

/-- The sockets `main` waits on: the link's and every slot in use, in order. -/
def waitSockets (bgbSock : SOCKET) (state : SocketImpl tgt) : List SOCKET :=
  bgbSock :: (List.finRange tgt.maxConnections).filterMap fun i =>
    if state.sockets i = INVALID_SOCKET then none else some (state.sockets i)

end MobileBgb.Socket
