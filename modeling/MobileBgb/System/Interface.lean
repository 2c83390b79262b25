/-
  MobileBgb.System.Interface — everything the program asks of the outside.

  The C program stands between three parties it does not contain: the operating
  system (sockets, `poll`, `fcntl`), libmobile (the adapter itself, a library of
  its own) and the user (`SIGINT`).  Each call to one of them is a request of the
  signature `Sys tgt`; the modelled functions are programs over it.

  Conventions:
    * a C `int` that is only compared with `-1` is an `Int`, so that the
      comparisons of the source can be written as they stand;
    * a call that fills a buffer answers with the bytes it wrote (`none` / an
      `Errno` where the C call returns `-1`);
    * libmobile may call back into `main.c` while it runs.  The answer to a
      libmobile request therefore carries the list of callbacks it made
      (`ImplCall`), in order: the environment picks it freely, so every
      sequence of callbacks is covered;
    * `assert`, a diagnostic on stderr and a read through a NULL pointer are
      requests too: they show up in the trace, and an environment that refuses
      `assert false` is one whose callers respect the asserts.

  The POSIX side of the `#if`s is modelled (`SOCKET_USE_POLL`, `fcntl`).
-/
import MobileBgb.Effect.Prog

namespace MobileBgb.System

open MobileBgb.Effect

/-! ## §1. What the build fixes. -/

/-- Byte order of the host: packets and socket addresses are read through host integers. -/
inductive ByteOrder where
  | little
  | big
  deriving DecidableEq, Repr

/-- What is fixed outside the repository's own sources: the host's byte order and the constants
    of `mobile.h` that the modelled functions use. -/
structure Target where
  byteOrder : ByteOrder
  /-- `MOBILE_MAX_CONNECTIONS` -/
  maxConnections : Nat
  /-- `MOBILE_MAX_TIMERS` -/
  maxTimers : Nat
  /-- `MOBILE_SERIAL_IDLE_BYTE` -/
  serialIdleByte : UInt8
  /-- `MOBILE_ACTION_RESET_SERIAL` -/
  actionResetSerial : UInt32
  deriving DecidableEq, Repr

/-- A little-endian host with libmobile's own constants, for concrete runs. -/
def host : Target where
  byteOrder := .little
  maxConnections := 2
  maxTimers := 4
  serialIdleByte := 0xD2
  actionResetSerial := 0x20

/-! ## §2. Sockets and addresses. -/

/-- `SOCKET`: a POSIX descriptor. -/
abbrev SOCKET := Int

/-- `INVALID_SOCKET` -/
def INVALID_SOCKET : SOCKET := -1

/-- `SOCKET_ERROR` -/
def SOCKET_ERROR : Int := -1

/-- `O_NONBLOCK` of the file status flags. -/
def O_NONBLOCK : UInt32 := 0x800

/-- Error codes the source tells apart (`SOCKET_EWOULDBLOCK` and so on), and all others. -/
inductive Errno where
  | ewouldblock
  | einprogress
  | ealready
  | eisconn
  | other (code : Nat)
  deriving DecidableEq, Repr

/-- `AF_INET`, `AF_INET6`. -/
inductive SockFamily where
  | inet
  | inet6
  deriving DecidableEq, Repr

/-- `SOCK_STREAM`, `SOCK_DGRAM`, or any other type `getsockopt` may report. -/
inductive SockType where
  | stream
  | dgram
  | other (code : Nat)
  deriving DecidableEq, Repr

/-- The options `setsockopt` is called with. -/
inductive SockOpt where
  | soReuseaddr
  | tcpNodelay
  deriving DecidableEq, Repr

/-- `union u_sockaddr` by its family; the ports are in memory order, as `htons` left them. -/
inductive SockAddr where
  | addr4 (sinPort : UInt16) (sAddr : Vector UInt8 4)
  | addr6 (sin6Port : UInt16) (flowinfo : UInt32) (s6Addr : Vector UInt8 16) (scopeId : UInt32)
  | other (family : Nat)
  deriving DecidableEq, Repr

/-- `enum mobile_socktype`; `other` is a value that is neither. -/
inductive MobileSocktype where
  | tcp
  | udp
  | other (code : Nat)
  deriving DecidableEq, Repr

/-- `enum mobile_addrtype`; `other` is `MOBILE_ADDRTYPE_NONE` or any value that is neither. -/
inductive MobileAddrtype where
  | ipv4
  | ipv6
  | other (code : Nat)
  deriving DecidableEq, Repr

/-- `struct mobile_addr`, with the `struct mobile_addr4` / `struct mobile_addr6` it stands for. -/
inductive MobileAddr where
  | addr4 (port : UInt32) (host : Vector UInt8 4)
  | addr6 (port : UInt32) (host : Vector UInt8 16)
  | other (type : Nat)
  deriving DecidableEq, Repr

/-- `enum mobile_action`, a mask; `MOBILE_ACTION_NONE` is the empty one. -/
abbrev MobileAction := UInt32

/-- `MOBILE_ACTION_NONE` -/
def MOBILE_ACTION_NONE : MobileAction := 0

/-! ## §3. What libmobile calls back. -/

/-- The calls of `socket_impl.c` that libmobile makes through the `impl_sock_*` wrappers. -/
inductive SocketCall (tgt : Target) where
  | sockOpen (conn : Fin tgt.maxConnections) (type : MobileSocktype) (addrtype : MobileAddrtype)
      (bindport : UInt32)
  | sockClose (conn : Fin tgt.maxConnections)
  | sockConnect (conn : Fin tgt.maxConnections) (addr : Option MobileAddr)
  | sockListen (conn : Fin tgt.maxConnections)
  | sockAccept (conn : Fin tgt.maxConnections)
  | sockSend (conn : Fin tgt.maxConnections) (data : List UInt8) (addr : Option MobileAddr)
  /-- `size = none`: `data` is NULL.  `addr`: whether an address buffer is given. -/
  | sockRecv (conn : Fin tgt.maxConnections) (size : Option UInt32) (addr : Bool)
  deriving DecidableEq

/-- The callbacks of `main.c` that change or read its state. -/
inductive ImplCall (tgt : Target) where
  | timeLatch (timer : Fin tgt.maxTimers)
  | timeCheckMs (timer : Fin tgt.maxTimers) (ms : UInt32)
  | sock (call : SocketCall tgt)
  deriving DecidableEq

/-! ## §4. Diagnostics. -/

/-- The messages the modelled functions print on stderr. -/
inductive Diag where
  /-- `socket_perror(func)`: the text of the current error code after `func`. -/
  | socketPerror (func : Option String)
  /-- `perror(func)` -/
  | perror (func : String)
  /-- "bgb_loop: Invalid handshake" -/
  | invalidHandshake
  /-- "bgb_init: unexpected packet (1)" -/
  | unexpectedPacket
  /-- "bgb_loop: Unknown command: %d (%02X %02X %02X) @ %d" -/
  | unknownCommand (cmd b2 b3 b4 : UInt8) (timestamp : UInt32)
  /-- "[BGB] Emulator went back in time? old: 0x%08X; new: 0x%08X" -/
  | wentBackInTime (old new : UInt32)
  /-- "[BGB] Emulator reset detected! Resetting adapter" -/
  | emulatorReset
  /-- "getaddrinfo: %s": the text of `gai_strerror(code)`. -/
  | getaddrinfo (code : Int)
  /-- "Could not connect (%s): ": what `socket_straddr` printed, if anything. -/
  | couldNotConnect (str : Option (List UInt8 × UInt16))
  deriving DecidableEq, Repr

/-! ## §5. The signature. -/

/-- The requests. -/
inductive SysOp (tgt : Target) where
  /-- `poll` on these descriptors; `timeout` in milliseconds. -/
  | poll (fds : List SOCKET) (timeout : Int)
  | socket (family : SockFamily) (type : SockType)
  | fcntlGetfl (fd : SOCKET)
  | fcntlSetfl (fd : SOCKET) (flags : UInt32)
  | setsockopt (fd : SOCKET) (opt : SockOpt)
  /-- `getsockopt(fd, SOL_SOCKET, SO_TYPE, …)` -/
  | getsockoptType (fd : SOCKET)
  | bind (fd : SOCKET) (addr : SockAddr)
  | connect (fd : SOCKET) (addr : Option SockAddr)
  | listen (fd : SOCKET) (backlog : Nat)
  | accept (fd : SOCKET)
  | close (fd : SOCKET)
  | send (fd : SOCKET) (data : List UInt8)
  | recv (fd : SOCKET) (size : Nat)
  | sendto (fd : SOCKET) (data : List UInt8) (addr : Option SockAddr)
  | recvfrom (fd : SOCKET) (size : Nat) (peek : Bool)
  | mobileStart
  | mobileStop
  | mobileTransfer (c : UInt8)
  | mobileActionsGet
  | mobileActionsProcess (actions : MobileAction)
  /-- Read `signal_int_trig`. -/
  | signalIntTrig
  | assert (ok : Bool)
  | diag (msg : Diag)
  /-- A read through a NULL pointer. -/
  | nullRead

/-- The answers. -/
@[reducible] def SysOp.Ans {tgt : Target} : SysOp tgt → Type
  | .poll _ _ => Int
  | .socket _ _ => SOCKET
  | .fcntlGetfl _ => Option UInt32
  | .fcntlSetfl _ _ => Int
  | .setsockopt _ _ => Int
  | .getsockoptType _ => Option SockType
  | .bind _ _ => Int
  | .connect _ _ => Except Errno Unit
  | .listen _ _ => Int
  | .accept _ => SOCKET
  | .close _ => Unit
  | .send _ _ => Option Nat
  | .recv _ _ => Option (List UInt8)
  | .sendto _ _ _ => Except Errno Nat
  | .recvfrom _ _ _ => Except Errno (List UInt8 × Option SockAddr)
  | .mobileStart => List (ImplCall tgt)
  | .mobileStop => List (ImplCall tgt)
  | .mobileTransfer _ => UInt8 × List (ImplCall tgt)
  | .mobileActionsGet => MobileAction × List (ImplCall tgt)
  | .mobileActionsProcess _ => List (ImplCall tgt)
  | .signalIntTrig => Bool
  | .assert _ => Unit
  | .diag _ => Unit
  | .nullRead => Unit

/-- The signature of the program's requests. -/
@[reducible] def Sys (tgt : Target) : Signature := ⟨SysOp tgt, SysOp.Ans⟩

end MobileBgb.System
