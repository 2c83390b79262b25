/-
  MobileBgb.System.Calls — the requests as typed programs.

  `Sys.poll fds timeout` is the program that makes the request `poll` and
  returns its answer at its own type, so that the modelled functions read like
  the C they embed.  Each unfolds to `Prog.ask`, so the rules `exec_ask` and
  `exec_ask_bind` apply to all of them as they stand.
-/
import MobileBgb.System.Interface

namespace MobileBgb.System.Sys

open MobileBgb.Effect

variable {tgt : Target}

/-! ## §1. The requests. -/

abbrev poll (fds : List SOCKET) (timeout : Int) : Prog (Sys tgt) Int :=
  Prog.ask (S := Sys tgt) (.poll fds timeout)

abbrev socket (family : SockFamily) (type : SockType) : Prog (Sys tgt) SOCKET :=
  Prog.ask (S := Sys tgt) (.socket family type)

abbrev fcntlGetfl (fd : SOCKET) : Prog (Sys tgt) (Option UInt32) :=
  Prog.ask (S := Sys tgt) (.fcntlGetfl fd)

abbrev fcntlSetfl (fd : SOCKET) (flags : UInt32) : Prog (Sys tgt) Int :=
  Prog.ask (S := Sys tgt) (.fcntlSetfl fd flags)

abbrev setsockopt (fd : SOCKET) (opt : SockOpt) : Prog (Sys tgt) Int :=
  Prog.ask (S := Sys tgt) (.setsockopt fd opt)

abbrev getsockoptType (fd : SOCKET) : Prog (Sys tgt) (Option SockType) :=
  Prog.ask (S := Sys tgt) (.getsockoptType fd)

abbrev bind (fd : SOCKET) (addr : SockAddr) : Prog (Sys tgt) Int :=
  Prog.ask (S := Sys tgt) (.bind fd addr)

abbrev connect (fd : SOCKET) (addr : Option SockAddr) : Prog (Sys tgt) (Except Errno Unit) :=
  Prog.ask (S := Sys tgt) (.connect fd addr)

abbrev listen (fd : SOCKET) (backlog : Nat) : Prog (Sys tgt) Int :=
  Prog.ask (S := Sys tgt) (.listen fd backlog)

abbrev accept (fd : SOCKET) : Prog (Sys tgt) SOCKET :=
  Prog.ask (S := Sys tgt) (.accept fd)

abbrev close (fd : SOCKET) : Prog (Sys tgt) Unit :=
  Prog.ask (S := Sys tgt) (.close fd)

abbrev send (fd : SOCKET) (data : List UInt8) : Prog (Sys tgt) (Option Nat) :=
  Prog.ask (S := Sys tgt) (.send fd data)

abbrev recv (fd : SOCKET) (size : Nat) : Prog (Sys tgt) (Option (List UInt8)) :=
  Prog.ask (S := Sys tgt) (.recv fd size)

abbrev sendto (fd : SOCKET) (data : List UInt8) (addr : Option SockAddr) :
    Prog (Sys tgt) (Except Errno Nat) :=
  Prog.ask (S := Sys tgt) (.sendto fd data addr)

abbrev recvfrom (fd : SOCKET) (size : Nat) (peek : Bool) :
    Prog (Sys tgt) (Except Errno (List UInt8 × Option SockAddr)) :=
  Prog.ask (S := Sys tgt) (.recvfrom fd size peek)

abbrev mobileStart : Prog (Sys tgt) (List (ImplCall tgt)) :=
  Prog.ask (S := Sys tgt) .mobileStart

abbrev mobileStop : Prog (Sys tgt) (List (ImplCall tgt)) :=
  Prog.ask (S := Sys tgt) .mobileStop

abbrev mobileTransfer (c : UInt8) : Prog (Sys tgt) (UInt8 × List (ImplCall tgt)) :=
  Prog.ask (S := Sys tgt) (.mobileTransfer c)

abbrev mobileActionsGet : Prog (Sys tgt) (MobileAction × List (ImplCall tgt)) :=
  Prog.ask (S := Sys tgt) .mobileActionsGet

abbrev mobileActionsProcess (actions : MobileAction) : Prog (Sys tgt) (List (ImplCall tgt)) :=
  Prog.ask (S := Sys tgt) (.mobileActionsProcess actions)

abbrev signalIntTrig : Prog (Sys tgt) Bool :=
  Prog.ask (S := Sys tgt) .signalIntTrig

abbrev assert (ok : Bool) : Prog (Sys tgt) Unit :=
  Prog.ask (S := Sys tgt) (.assert ok)

abbrev diag (msg : Diag) : Prog (Sys tgt) Unit :=
  Prog.ask (S := Sys tgt) (.diag msg)

abbrev nullRead : Prog (Sys tgt) Unit :=
  Prog.ask (S := Sys tgt) .nullRead

end MobileBgb.System.Sys

namespace MobileBgb.System

variable {tgt : Target}

/-! ## §2. Serving requests in concrete runs. -/

/-- The plainest answer to each request: what can fail fails, libmobile does nothing. -/
def plainAns : (op : SysOp tgt) → op.Ans
  | .poll _ _ => 0
  | .socket _ _ => INVALID_SOCKET
  | .fcntlGetfl _ => none
  | .fcntlSetfl _ _ => -1
  | .setsockopt _ _ => SOCKET_ERROR
  | .getsockoptType _ => none
  | .bind _ _ => SOCKET_ERROR
  | .connect _ _ => .error (.other 0)
  | .listen _ _ => SOCKET_ERROR
  | .accept _ => INVALID_SOCKET
  | .close _ => ()
  | .send _ _ => none
  | .recv _ _ => none
  | .sendto _ _ _ => .error (.other 0)
  | .recvfrom _ _ _ => .error (.other 0)
  | .mobileStart => []
  | .mobileStop => []
  | .mobileTransfer c => (c, [])
  | .mobileActionsGet => (MOBILE_ACTION_NONE, [])
  | .mobileActionsProcess _ => []
  | .signalIntTrig => false
  | .assert _ => ()
  | .diag _ => ()
  | .nullRead => ()

/-- A request other than a failed `assert`. -/
def assertHolds : SysOp tgt → Bool
  | .assert ok => ok
  | _ => true

end MobileBgb.System
