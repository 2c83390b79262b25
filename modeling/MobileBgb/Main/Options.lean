/-
  MobileBgb.Main.Options — `main` before it connects: the command line.

  The argument vector is a list of C strings with a NULL after the last one.  The
  cursor `argv` of the source is an INDEX into it here, moved where the source moves
  the pointer: in the head of the loop, in the branches that take a parameter, and
  after the loop.  A read at the index of the NULL gives none; a read past it is
  `Stop.overrun`, and using the NULL as a string is `Stop.nullDeref`, so that both
  would show.

  What comes from outside, `strtol`, `mobile_inet_pton` and the constants of
  `mobile.h`, is in the record `Lib`.  The three addresses are raw storage
  (`AddrBuf`), one memory for both families, as `struct mobile_addr` is.
-/
import MobileBgb.System.CString
import MobileBgb.System.Interface
import MobileBgb.Effect.Loop

namespace MobileBgb.Main

open MobileBgb.Effect
open MobileBgb.System

/-! ## §1. The argument vector. -/

/-- The texts with which `main` gives up on its arguments. -/
inductive Exit where
  /-- `show_help_full` -/
  | helpFull
  /-- "Missing parameter for %s" -/
  | missingParam (option : CStr)
  /-- "Invalid parameter for %s: %s" -/
  | invalidParam (option param : CStr)
  /-- "Unknown option: %s" -/
  | unknownOption (option : CStr)
  deriving DecidableEq

/-- Why the scan did not get to its end. -/
inductive Stop where
  | exit (e : Exit)
  /-- A read of the argument vector past its NULL. -/
  | overrun
  /-- The NULL of the argument vector used as a string. -/
  | nullDeref
  /-- The rounds allowed are used up. -/
  | running
  deriving DecidableEq

/-- `argv[i]`, counted from the program name. -/
def argvAt (argv : List CStr) (i : Nat) : Except Stop (Option CStr) :=
  if i ≤ argv.length then .ok argv[i]? else .error .overrun

/-- `argv[i]`, used as a string. -/
def strAt (argv : List CStr) (i : Nat) : Except Stop CStr := do
  match ← argvAt argv i with
  | some s => return s
  | none => throw .nullDeref

/-! ## §2. What comes from outside. -/

/-- What `mobile_inet_pton` makes of a string: an address of either family, or none. -/
inductive Pton where
  | ipv4 (ip : Vector UInt8 4)
  | ipv6 (ip : Vector UInt8 16)
  | invalid
  deriving DecidableEq

structure Lib where
  /-- `MOBILE_ADAPTER_BLUE` -/
  adapterBlue : UInt32
  /-- `MOBILE_DNS_PORT` -/
  dnsPort : UInt32
  /-- `MOBILE_DEFAULT_P2P_PORT` -/
  defaultP2pPort : UInt32
  /-- `MOBILE_DEFAULT_RELAY_PORT` -/
  defaultRelayPort : UInt32
  /-- `MOBILE_RELAY_TOKEN_SIZE` -/
  relayTokenSize : Nat
  /-- `mobile_inet_pton(MOBILE_INET_PTON_ANY, …)` -/
  inetPton : CStr → Pton
  /-- `strtol(str, &endptr, base)`: the value and how far `endptr` is from `str`. -/
  strtol : CStr → Nat → Int × Nat

/-- A `long` as it is stored in an `unsigned` or an `enum`. -/
def unsignedOfLong (v : Int) : UInt32 := UInt32.ofNat (v % 2 ^ 32).toNat

/-! ## §3. `struct mobile_addr` as storage. -/

/-- The storage: `struct mobile_addr4` and `struct mobile_addr6` lie over the same bytes. -/
structure AddrBuf where
  type : MobileAddrtype
  port : UInt32
  host : Vector UInt8 16
  deriving DecidableEq

/-- `{0}` -/
def AddrBuf.zero : AddrBuf := ⟨.other 0, 0, Vector.replicate 16 0⟩

/-- `memcpy(dest4->host, ip, sizeof(dest4->host))`: the first four bytes. -/
def AddrBuf.copyHost4 (dest : AddrBuf) (ip : Vector UInt8 4) : Vector UInt8 16 :=
  Vector.ofFn fun i => if h : i.val < 4 then ip[i.val] else dest.host[i]

/-- The address as its reader takes it, by its type. -/
def AddrBuf.get (a : AddrBuf) : MobileAddr :=
  match a.type with
  | .ipv4 => .addr4 a.port (a.host.take 4)
  | .ipv6 => .addr6 a.port a.host
  | .other code => .other code

/-! ## §4. The functions `main` calls. -/

/-- `main_checkparam` -/
def mainCheckparam (argv : List CStr) (i : Nat) : Except Stop Unit := do
  match ← argvAt argv (i + 1) with
  | some _ => return ()
  | none => throw (.exit (.missingParam (← strAt argv i)))

/-- `main_parse_addr`: the type and the host; the port is left alone. -/
def mainParseAddr (lib : Lib) (dest : AddrBuf) (argv : List CStr) (i : Nat) :
    Except Stop AddrBuf := do
  match lib.inetPton (← strAt argv (i + 1)) with
  | .ipv4 ip => return { dest with type := .ipv4, host := dest.copyHost4 ip }
  | .ipv6 ip => return { dest with type := .ipv6, host := ip }
  | .invalid => throw (.exit (.invalidParam (← strAt argv i) (← strAt argv (i + 1))))

/-- `main_set_port` -/
def mainSetPort (dest : AddrBuf) (port : UInt32) : AddrBuf :=
  match dest.type with
  | .ipv4 => { dest with port := port }
  | .ipv6 => { dest with port := port }
  | .other _ => dest

/-- The value of a character as a hexadecimal digit. -/
def hexDigit (c : UInt8) : Option UInt8 :=
  if 0x30 ≤ c ∧ c ≤ 0x39 then some (c - 0x30)
  else if 0x41 ≤ c ∧ c ≤ 0x46 then some (c - (0x41 - 10))
  else if 0x61 ≤ c ∧ c ≤ 0x66 then some (c - (0x61 - 10))
  else none

/-- The loop of `main_parse_hex`, with `n` rounds to go; `x` is the byte under construction. -/
def mainParseHexLoop {size : Nat} (str : CStr) :
    Nat → Nat → UInt8 → Vector UInt8 size → Bool × Vector UInt8 size
  | 0, _, _, buf => (true, buf)
  | n + 1, i, x, buf =>
      match hexDigit (str.charAt i) with
      | none => (false, buf)
      | some c =>
          let x := (x <<< 4) ||| c
          if i % 2 = 1 then mainParseHexLoop str n (i + 1) 0 (buf.setIfInBounds (i / 2) x)
          else mainParseHexLoop str n (i + 1) x buf

/-- `main_parse_hex`: whether it returns `true`, and the buffer after it. -/
def mainParseHex {size : Nat} (buf : Vector UInt8 size) (str : CStr) : Bool × Vector UInt8 size :=
  mainParseHexLoop str (size * 2) 0 0 buf

/-! ## §5. The loop. -/

/-- The variables of `main` that the options set; `size` is that of the token's buffer. -/
structure Options (size : Nat) where
  fnameConfig : CStr
  device : UInt32
  deviceUnmetered : Bool
  dns1 : AddrBuf
  dns2 : AddrBuf
  dnsPort : UInt32
  p2pPort : UInt32
  relay : AddrBuf
  relayTokenUpdate : Bool
  /-- Does `relay_token` point to the buffer?  It is NULL otherwise. -/
  relayToken : Bool
  relayTokenBuf : Vector UInt8 size

/-- Their values before the loop.  The source leaves the buffer uninitialised: `buf` is what lies
    there. -/
def Options.init (lib : Lib) (buf : Vector UInt8 lib.relayTokenSize) :
    Options lib.relayTokenSize where
  fnameConfig := .ofString "config.bin"
  device := lib.adapterBlue
  deviceUnmetered := false
  dns1 := .zero
  dns2 := .zero
  dnsPort := lib.dnsPort
  p2pPort := lib.defaultP2pPort
  relay := .zero
  relayTokenUpdate := false
  relayToken := false
  relayTokenBuf := buf

/-- The cursor and the variables. -/
abbrev ScanState (lib : Lib) := Nat × Options lib.relayTokenSize

/-- The branch of `--relay-token`: the value of `ok`, and the variables. -/
def setRelayToken {size : Nat} (o : Options size) (param : CStr) : Bool × Options size :=
  let o := { o with relayTokenUpdate := true }
  if param.bytes.length = 0 then
    (true, { o with relayToken := false })
  else if param.bytes.length = size * 2 then
    let (ok, buf) := mainParseHex o.relayTokenBuf param
    (ok, { o with relayTokenBuf := buf, relayToken := true })
  else (false, o)

/-- The branches of the loop that set something, and the last `else`; `i` is the index of `arg`. -/
def scanOption (lib : Lib) (argv : List CStr) (i : Nat) (o : Options lib.relayTokenSize)
    (arg : CStr) : Except Stop (Flow (ScanState lib) (ScanState lib)) := do
  if arg = .ofString "-c" ∨ arg = .ofString "--config" then
    mainCheckparam argv i
    let param ← strAt argv (i + 1)
    return .go (i + 1, { o with fnameConfig := param })
  else if arg = .ofString "--device" then
    mainCheckparam argv i
    let param ← strAt argv (i + 1)
    return .go (i + 1, { o with device := unsignedOfLong (lib.strtol param 0).1 })
  else if arg = .ofString "--unmetered" then
    return .go (i, { o with deviceUnmetered := true })
  else if arg = .ofString "--dns1" then
    mainCheckparam argv i
    let dns1 ← mainParseAddr lib o.dns1 argv i
    return .go (i + 1, { o with dns1 := dns1 })
  else if arg = .ofString "--dns2" then
    mainCheckparam argv i
    let dns2 ← mainParseAddr lib o.dns2 argv i
    return .go (i + 1, { o with dns2 := dns2 })
  else if arg = .ofString "--dns_port" then
    mainCheckparam argv i
    let param ← strAt argv (i + 1)
    let (value, endptr) := lib.strtol param 10
    -- `!**argv` looks at the option itself, not at its parameter
    if arg.charAt 0 = 0 ∨ param.charAt endptr ≠ 0 then
      throw (.exit (.invalidParam (.ofString "--dns_port") param))
    return .go (i + 1, { o with dnsPort := unsignedOfLong value })
  else if arg = .ofString "--p2p_port" then
    mainCheckparam argv i
    let param ← strAt argv (i + 1)
    return .go (i + 1, { o with p2pPort := unsignedOfLong (lib.strtol param 0).1 })
  else if arg = .ofString "--relay" then
    mainCheckparam argv i
    let relay ← mainParseAddr lib o.relay argv i
    return .go (i + 1, { o with relay := mainSetPort relay lib.defaultRelayPort })
  else if arg = .ofString "--relay-token" then
    mainCheckparam argv i
    let param ← strAt argv (i + 1)
    let (ok, o) := setRelayToken o param
    if !ok then
      throw (.exit (.invalidParam (.ofString "--relay-token") param))
    return .go (i + 1, o)
  else
    throw (.exit (.unknownOption arg))

/-- One turn of `while (*++argv)`. -/
def scanBody (lib : Lib) (argv : List CStr) (s : ScanState lib) :
    Except Stop (Flow (ScanState lib) (ScanState lib)) := do
  let (i, o) := s
  let i := i + 1
  match ← argvAt argv i with
  | none => return .done (i, o)
  | some arg =>
      if arg.charAt 0 ≠ 0x2D then
        return .done (i, o)
      else if arg = .ofString "--" then
        return .done (i + 1, o)
      else if arg = .ofString "-h" ∨ arg = .ofString "--help" then
        throw (.exit .helpFull)
      else scanOption lib argv i o arg

/-- At most `n` turns of the loop. -/
def scanLoop (lib : Lib) (argv : List CStr) : Nat → ScanState lib → Except Stop (ScanState lib)
  | 0, _ => throw .running
  | n + 1, s => do
      match ← scanBody lib argv s with
      | .go s => scanLoop lib argv n s
      | .done s => return s

/-- What `main` goes on with. -/
structure CommandLine (lib : Lib) where
  options : Options lib.relayTokenSize
  host : CStr
  port : CStr

/-- `main` from the start of its loop over the options up to "Set the DNS ports".  One turn for
    each string of the vector is enough. -/
def mainScan (lib : Lib) (buf : Vector UInt8 lib.relayTokenSize) (argv : List CStr) :
    Except Stop (CommandLine lib) := do
  let (i, o) ← scanLoop lib argv argv.length (0, .init lib buf)
  -- if (*argv) host = *argv++;
  let (host, i) :=
    match ← argvAt argv i with
    | some s => (s, i + 1)
    | none => (CStr.ofString "127.0.0.1", i)
  -- if (*argv) port = *argv;
  let port :=
    match ← argvAt argv i with
    | some s => s
    | none => CStr.ofString "8765"
  -- Set the DNS ports
  return ⟨{ o with dns1 := mainSetPort o.dns1 o.dnsPort, dns2 := mainSetPort o.dns2 o.dnsPort },
    host, port⟩

end MobileBgb.Main
