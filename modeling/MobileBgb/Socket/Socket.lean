/-
  MobileBgb.Socket.Socket — `socket.c`: the helpers over the system's calls.

  `socket_isconnected` is left out (nothing calls it); `socket_connect` is in
  `MobileBgb.Socket.Connect`.
-/
import MobileBgb.System.Calls

namespace MobileBgb.Socket

open MobileBgb.Effect
open MobileBgb.System

variable {tgt : Target}

/-! ## §1. The functions. -/

/-- `socket_hasdata`: does the socket have data in the receive buffer (or an error)? -/
def socketHasdata (socket : SOCKET) : Prog (Sys tgt) Int := do
  let rc ← Sys.poll [socket] 0
  if rc = -1 then
    Sys.diag (.socketPerror "poll")
    return rc
  else return rc

/-- `socket_wait`: wait on one or more sockets to become readable. -/
def socketWait (sockets : List SOCKET) (delay : Int) : Prog (Sys tgt) Int := do
  let rc ← Sys.poll sockets delay
  if rc = -1 then
    Sys.diag (.socketPerror "poll")
    return rc
  else return rc

/-- `socket_setblocking`: set whether `connect()` and `recv()` calls on a socket block. -/
def socketSetblocking (socket : SOCKET) (flag : Bool) : Prog (Sys tgt) Int := do
  match ← Sys.fcntlGetfl socket with
  | none =>
      Sys.diag (.perror "fcntl")
      return -1
  | some flags =>
      let flags := flags &&& ~~~O_NONBLOCK
      let flags := if !flag then flags ||| O_NONBLOCK else flags
      if (← Sys.fcntlSetfl socket flags) = -1 then
        Sys.diag (.perror "fcntl")
        return -1
      else return 0

/-- `htons`: the value of a 16-bit port in network order, read as a host integer. -/
def htons (o : ByteOrder) (x : UInt16) : UInt16 :=
  match o with
  | .little => (x <<< 8) ||| (x >>> 8)
  | .big => x

/-- `ntohs` -/
def ntohs (o : ByteOrder) (x : UInt16) : UInt16 := htons o x

/-- `socket_straddr`: the host bytes and the port it prints, `none` when it prints nothing.
    The family is read through the pointer before anything else. -/
def socketStraddr (addr : Option SockAddr) : Prog (Sys tgt) (Option (List UInt8 × UInt16)) :=
  match addr with
  | none => do
      Sys.nullRead
      return none
  | some (.addr4 sinPort sAddr) => return some (sAddr.toList, ntohs tgt.byteOrder sinPort)
  | some (.addr6 sin6Port _ s6Addr _) => return some (s6Addr.toList, ntohs tgt.byteOrder sin6Port)
  | some (.other _) => return none

/-! ## §2. Their executions. -/

variable {σ : Type} {E : Env (Sys tgt) σ} {w w' : σ} {t : Trace (Sys tgt)}

/-- `socket_hasdata` polls once and returns what `poll` returned. -/
theorem exec_socketHasdata {socket : SOCKET} {rc : Int}
    (h : Exec E (socketHasdata socket) w t rc w') :
    ∃ w₁, E w (.poll [socket] 0) rc w₁ ∧
      ((t = [⟨.poll [socket] 0, rc⟩] ∧ w' = w₁) ∨
        (t = [⟨.poll [socket] 0, rc⟩, ⟨.diag (.socketPerror "poll"), ()⟩] ∧
          E w₁ (.diag (.socketPerror "poll")) () w')) := by
  unfold socketHasdata at h
  rw [exec_ask_bind] at h
  obtain ⟨rc', w₁, t₁, hE, ht, h⟩ := h
  split at h
  · obtain ⟨u, w₂, t₂, hd, ht₁, h⟩ := (exec_ask_bind E).mp h
    rw [exec_pure] at h
    obtain ⟨ht₂, hrc, hw⟩ := h
    subst ht ht₁ ht₂ hrc hw
    exact ⟨w₁, hE, Or.inr ⟨rfl, hd⟩⟩
  · obtain ⟨ht₁, hrc, hw⟩ := (exec_pure E).mp h
    subst ht ht₁ hrc hw
    exact ⟨_, hE, Or.inl ⟨rfl, rfl⟩⟩

end MobileBgb.Socket
