/-
  MobileBgb.Main.Program — all of `main`, from the configuration file to its return.

  `mainProg` of `MobileBgb.Main.MobileUser` starts with the handshake.  What comes before
  and after it works on three more things, which `main` has to release on every way out:

    config   — the stream of the configuration file;
    mobile   — the user object, from `malloc`;
    adapter  — libmobile's own object, from `mobile_new`.

  The requests are those of `Sys tgt` and the ones below (`OsOp`).  While libmobile runs it
  may also read and write the configuration through `impl_config_read` and
  `impl_config_write`: `liftOp` puts these calls behind every request to libmobile, with any
  list of them.

  ASSUMED of libmobile: `mobile_new` does not fail (`osEnv`), and the calls that set it up,
  `mobile_def_*` and `mobile_config_*`, call back for the configuration only.

  The `error:` label is `mainError`; which of the two objects exist there is its argument.
-/
import MobileBgb.Effect.Translate
import MobileBgb.Main.ConfigFile
import MobileBgb.Main.Settings
import MobileBgb.Main.Ownership
import MobileBgb.Socket.Connect

namespace MobileBgb.Main

open MobileBgb.Effect
open MobileBgb.System
open MobileBgb.Socket

variable {tgt : Target}

/-! ## §1. The requests. -/

/-- The mode of `fopen`: "r+b" or "w+b". -/
inductive OpenMode where
  | update
  | create
  deriving DecidableEq

/-- The callbacks `main` registers, one `mobile_def_*` each. -/
inductive Callback where
  | debugLog
  | configRead
  | configWrite
  | timeLatch
  | timeCheckMs
  | sockOpen
  | sockClose
  | sockConnect
  | sockListen
  | sockAccept
  | sockSend
  | sockRecv
  | updateNumber
  deriving DecidableEq

/-- Requests of `main` besides those of `Sys tgt`.  A stream request is about `config`. -/
inductive OsOp (tgt : Target) where
  | sys (op : SysOp tgt)
  | fopen (fname : CStr) (mode : OpenMode)
  | fseekEnd
  | ftell
  | fputc (c : UInt8)
  | rewind
  /-- The requests of `impl_config_read` and `impl_config_write`. -/
  | fseekSet (offset : Int)
  | fread (size : Nat)
  | fwrite (src : List UInt8)
  | fclose
  /-- `malloc(sizeof(struct mobile_user))`, `free(mobile)` -/
  | malloc
  | free
  /-- `mobile_new(mobile)`, `free(mobile->adapter)` -/
  | mobileNew
  | freeAdapter
  | mobileDef (callback : Callback)
  | mobileConfigLoad
  | mobileConfigSetDevice (device : UInt32) (unmetered : Bool)
  /-- `MOBILE_DNS1`, or `MOBILE_DNS2` -/
  | mobileConfigSetDns (addr : MobileAddr) (second : Bool)
  | mobileConfigSetP2pPort (port : UInt32)
  | mobileConfigSetRelay (addr : MobileAddr)
  | mobileConfigSetRelayToken (token : Option (List UInt8))
  | mobileConfigSave
  /-- Which configuration callbacks did the call into libmobile make? -/
  | configCalls
  | getaddrinfo (host port : CStr)
  | sigaction
  /-- "Could not connect (%s:%s): " -/
  | couldNotConnect (host port : CStr)
  | updateTitle

/-- The answers; for `fopen` and `malloc` whether the pointer is not NULL.  `mobile_new` is taken to
    succeed and has none. -/
@[reducible] def OsOp.Ans : OsOp tgt → Type
  | .sys op => op.Ans
  | .fopen _ _ => Bool
  | .ftell => Int
  | .fread _ => List UInt8
  | .fwrite _ => Nat
  | .malloc => Bool
  | .configCalls => List ConfigCall
  | .getaddrinfo _ _ => Except (Int × Option Errno) (List AddrInfo)
  | .sigaction => Int
  | _ => Unit

/-- The signature of all of `main`. -/
@[reducible] def Os (tgt : Target) : Signature := ⟨OsOp tgt, OsOp.Ans⟩

/-- One request. -/
abbrev Os.ask (op : OsOp tgt) : Prog (Os tgt) op.Ans := Prog.ask (S := Os tgt) op

/-! ## §2. Calls into libmobile. -/

/-- `impl_config_read` or `impl_config_write`; the result goes back to libmobile. -/
def implConfigCall : ConfigCall → Prog (Os tgt) Unit
  | .read offset size => do
      Os.ask (.fseekSet (longOfUintptr offset))
      let _ ← Os.ask (.fread size)
      return ()
  | .write offset src => do
      Os.ask (.fseekSet (longOfUintptr offset))
      let _ ← Os.ask (.fwrite src)
      return ()

def implConfigCalls : List ConfigCall → Prog (Os tgt) Unit
  | [] => return ()
  | call :: calls => do
      implConfigCall call
      implConfigCalls calls

/-- The configuration callbacks of one call into libmobile. -/
def configCallbacks : Prog (Os tgt) Unit := do
  let calls ← Os.ask .configCalls
  implConfigCalls calls

/-- A call into libmobile. -/
def libmobile (op : OsOp tgt) : Prog (Os tgt) op.Ans := do
  let ans ← Os.ask op
  configCallbacks
  return ans

/-- The requests of `Sys tgt` that are calls into libmobile. -/
def callsMobile : SysOp tgt → Bool
  | .mobileStart => true
  | .mobileStop => true
  | .mobileTransfer _ => true
  | .mobileActionsGet => true
  | .mobileActionsProcess _ => true
  | _ => false

/-- A request of `Sys tgt` here. -/
def liftOp (op : SysOp tgt) : Prog (Os tgt) op.Ans :=
  if callsMobile op then libmobile (.sys op) else Os.ask (.sys op)

abbrev Os.diag (msg : Diag) : Prog (Os tgt) Unit := Os.ask (.sys (.diag msg))

/-! ## §3. The parts of `main`. -/

/-- "Open or create configuration" -/
def mainOpenConfig (fname : CStr) : Prog (Os tgt) Bool := do
  if ← Os.ask (.fopen fname .update) then return true
  else Os.ask (.fopen fname .create)

/-- `n` times `fputc(0, config)` -/
def fillConfig : Nat → Prog (Os tgt) Unit
  | 0 => return ()
  | n + 1 => do
      Os.ask (.fputc 0)
      fillConfig n

/-- "Make sure config file is at least CONFIG_SIZE bytes big" -/
def mainFillConfig (configSize : Nat) : Prog (Os tgt) Unit := do
  Os.ask .fseekEnd
  let i ← Os.ask .ftell
  fillConfig (configSize - i).toNat
  Os.ask .rewind

def mainDefs : List Callback → Prog (Os tgt) Unit
  | [] => return ()
  | callback :: callbacks => do
      libmobile (.mobileDef callback)
      mainDefs callbacks

/-- "Initialize mobile library", the settings included. -/
def mainConfigure (r : Settings) : Prog (Os tgt) Unit := do
  Os.ask .mobileNew
  mainDefs [.debugLog, .configRead, .configWrite, .timeLatch, .timeCheckMs, .sockOpen, .sockClose,
    .sockConnect, .sockListen, .sockAccept, .sockSend, .sockRecv, .updateNumber]
  libmobile .mobileConfigLoad
  libmobile (.mobileConfigSetDevice r.device r.deviceUnmetered)
  libmobile (.mobileConfigSetDns r.dns1 false)
  libmobile (.mobileConfigSetDns r.dns2 true)
  libmobile (.mobileConfigSetP2pPort r.p2pPort)
  libmobile (.mobileConfigSetRelay r.relay)
  match r.relayToken with
  | some token => libmobile (.mobileConfigSetRelayToken token)
  | none => pure ()
  libmobile .mobileConfigSave

/-- `socket_connect(host, port)` -/
def mainSocketConnect (host port : CStr) : Prog (Os tgt) SOCKET := do
  let gai ← Os.ask (.getaddrinfo host port)
  let (sock, _) ← (socketConnect gai).translate liftOp
  return sock

/-- `EXIT_SUCCESS`, `EXIT_FAILURE` -/
inductive ExitCode where
  | success
  | failure
  deriving DecidableEq

/-- From the label `error:` on: do `config` and `mobile` exist? -/
def mainError (config mobile : Bool) : Prog (Os tgt) (Option ExitCode) := do
  if mobile then
    Os.ask .freeAdapter
    Os.ask .free
  if config then
    Os.ask .fclose
  return some .failure

/-- From the handshake on; `none` while `main` runs. -/
def mainServe (bgbSock : SOCKET) (n m : Nat) : Prog (Os tgt) (Option ExitCode) := do
  match ← (mainProg bgbSock n m).translate liftOp with
  | .error => mainError true true
  | .waiting => return none
  | .looping => return none
  | .exited =>
      Os.ask .freeAdapter
      Os.ask .free
      Os.ask .fclose
      return some .success

/-- From the connection on. -/
def mainConnected (bgbSock : SOCKET) (n m : Nat) : Prog (Os tgt) (Option ExitCode) := do
  let rc ← Os.ask (.sys (.setsockopt bgbSock .tcpNodelay))
  if rc = SOCKET_ERROR then
    Os.diag (.socketPerror "setsockopt")
    mainError true true
  else
    -- Set up CTRL+C signal handler
    let rc ← Os.ask .sigaction
    if rc = -1 then
      Os.diag (.perror "sigaction")
      mainError true true
    else
      Os.ask .updateTitle
      mainServe bgbSock n m

/-- `main` once the options are scanned, with at most `n` turns of waiting and `m` of the main
    loop. -/
def mainAll (configSize : Nat) (r : Settings) (n m : Nat) : Prog (Os tgt) (Option ExitCode) := do
  let config ← mainOpenConfig r.fnameConfig
  if !config then
    Os.diag (.perror "fopen")
    mainError false false
  else
    mainFillConfig configSize
    -- Initialize main data structure
    let mobile ← Os.ask .malloc
    if !mobile then
      Os.diag (.perror "malloc")
      mainError true false
    else
      mainConfigure r
      -- Connect to the emulator
      let bgbSock ← mainSocketConnect r.host r.port
      if bgbSock = INVALID_SOCKET then
        Os.ask (.couldNotConnect r.host r.port)
        Os.diag (.socketPerror none)
        mainError true true
      else mainConnected bgbSock n m

/-! ## §4. The process. -/

/-- What the system knows of the process: its descriptors, the one behind `config`, and whether
    the two objects are allocated. -/
structure Process where
  fds : Fds
  config : Option SOCKET
  mobile : Bool
  adapter : Bool

/-- The descriptors once a stream is closed. -/
def closeStream (fds : Fds) : Option SOCKET → Fds
  | some fd => Function.update fds fd none
  | none => fds

/-- The system: the descriptors are those of `fdEnv`, a stream takes one of them, every request
    whose result `main` tests may fail.  `mobile_new` does not fail: this is ASSUMED, since `main`
    does not test its result and goes on with the pointer. -/
def osEnv (tgt : Target) : Env (Os tgt) Process := fun u op ans u' =>
  match op, ans with
  | .sys op, ans => ∃ fds, fdEnv tgt u.fds op ans fds ∧ u' = { u with fds := fds }
  | .fopen _ _, ok =>
      (ok = false ∧ u' = u) ∨ (ok = true ∧ ∃ fd flags, fd ≠ INVALID_SOCKET ∧ u.fds fd = none ∧
        u' = { u with fds := Function.update u.fds fd (some flags), config := some fd })
  | .fclose, _ => u' = { u with fds := closeStream u.fds u.config, config := none }
  | .malloc, ok => (ok = false ∧ u' = u) ∨ (ok = true ∧ u' = { u with mobile := true })
  | .free, _ => u' = { u with mobile := false }
  | .mobileNew, _ => u' = { u with adapter := true }
  | .freeAdapter, _ => u' = { u with adapter := false }
  | _, _ => u' = u

/-- The things `main` has to release. -/
inductive Object where
  | config
  | mobile
  | adapter
  deriving DecidableEq

def Process.alive (u : Process) : Object → Bool
  | .config => u.config.isSome
  | .mobile => u.mobile
  | .adapter => u.adapter

/-- What a request works on. -/
def OsOp.uses : OsOp tgt → List Object
  | .sys op => if callsMobile op then [.mobile, .adapter] else []
  | .fopen _ _ => []
  | .fseekEnd => [.config]
  | .ftell => [.config]
  | .fputc _ => [.config]
  | .rewind => [.config]
  | .fseekSet _ => [.config, .mobile]
  | .fread _ => [.config, .mobile]
  | .fwrite _ => [.config, .mobile]
  | .fclose => [.config]
  | .malloc => []
  | .free => [.mobile]
  | .mobileNew => [.mobile]
  | .getaddrinfo _ _ => []
  | .sigaction => []
  | .couldNotConnect _ _ => []
  | .updateTitle => [.mobile]
  | _ => [.mobile, .adapter]

/-- What would be lost, or point to something that is gone, if it existed when the request is
    made. -/
def OsOp.orphans : OsOp tgt → List Object
  | .fopen _ _ => [.config]
  | .malloc => [.mobile]
  | .mobileNew => [.adapter]
  | .free => [.adapter]
  | .fclose => [.mobile]
  | _ => []

/-- The descriptors of a request are open. -/
def OsOp.opens (fds : Fds) : OsOp tgt → Prop
  | .sys op => fdGuard fds op
  | _ => True

/-- A request that touches nothing released and loses nothing. -/
structure Allowed (u : Process) (op : OsOp tgt) : Prop where
  uses : ∀ o ∈ op.uses, u.alive o = true
  orphans : ∀ o ∈ op.orphans, u.alive o = false
  fds : op.opens u.fds

end MobileBgb.Main
