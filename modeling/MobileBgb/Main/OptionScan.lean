/-
  MobileBgb.Main.OptionScan — the scan of the options against its order-free meaning.

  A command line is a list of option GROUPS, a name with the parameter it takes, then
  `--` or nothing, then the host and the port (`Line`).  The scan accepts exactly the
  lines, and what it leaves in the variables of `main` does not depend on the order of
  the groups: each setting is the one its last group asks for, or its default
  (`Line.settings`).

  The chain of comparisons in `scanBody` is read once, as a table (`scanOption_eq`).  Above
  it the cursor is gone: a turn of the loop takes one group off the rest of the vector.
-/
import MobileBgb.Main.Options
import MobileBgb.Store.LastWrite

namespace MobileBgb.Main

open MobileBgb.Effect
open MobileBgb.System
open MobileBgb.Store

/-! ## §1. The options as a table. -/

/-- The options, by what they set: `-c` and `--config` are one. -/
inductive Opt where
  | config
  | device
  | unmetered
  | dns1
  | dns2
  | dnsPort
  | p2pPort
  | relay
  | relayToken
  deriving DecidableEq

/-- The option a name stands for, if any. -/
def Opt.ofName (s : CStr) : Option Opt :=
  if s = .ofString "-c" ∨ s = .ofString "--config" then some .config
  else if s = .ofString "--device" then some .device
  else if s = .ofString "--unmetered" then some .unmetered
  else if s = .ofString "--dns1" then some .dns1
  else if s = .ofString "--dns2" then some .dns2
  else if s = .ofString "--dns_port" then some .dnsPort
  else if s = .ofString "--p2p_port" then some .p2pPort
  else if s = .ofString "--relay" then some .relay
  else if s = .ofString "--relay-token" then some .relayToken
  else none

/-- Does a parameter follow the name? -/
def Opt.takesParam : Opt → Bool
  | .unmetered => false
  | _ => true

/-- Is every byte a hexadecimal digit? -/
def isHex (s : CStr) : Bool := s.bytes.all fun c => (hexDigit c).isSome

/-- The parameters an option accepts. -/
def Opt.accepts (lib : Lib) (p : CStr) : Opt → Bool
  | .dns1 | .dns2 | .relay => lib.inetPton p ≠ .invalid
  | .dnsPort => p.charAt (lib.strtol p 10).2 = 0
  | .relayToken =>
      p.bytes.length = 0 ∨ (p.bytes.length = lib.relayTokenSize * 2 ∧ isHex p = true)
  | _ => true

/-- What `main_parse_addr` leaves for the address it was given. -/
def AddrBuf.setHost (dest : AddrBuf) : Pton → AddrBuf
  | .ipv4 ip => { dest with type := .ipv4, host := dest.copyHost4 ip }
  | .ipv6 ip => { dest with type := .ipv6, host := ip }
  | .invalid => dest

/-- What a turn of the loop does to the variables, by the option. -/
def Opt.set (lib : Lib) (p : CStr) (o : Options lib.relayTokenSize) :
    Opt → Options lib.relayTokenSize
  | .config => { o with fnameConfig := p }
  | .device => { o with device := unsignedOfLong (lib.strtol p 0).1 }
  | .unmetered => { o with deviceUnmetered := true }
  | .dns1 => { o with dns1 := o.dns1.setHost (lib.inetPton p) }
  | .dns2 => { o with dns2 := o.dns2.setHost (lib.inetPton p) }
  | .dnsPort => { o with dnsPort := unsignedOfLong (lib.strtol p 10).1 }
  | .p2pPort => { o with p2pPort := unsignedOfLong (lib.strtol p 0).1 }
  | .relay =>
      { o with relay := mainSetPort (o.relay.setHost (lib.inetPton p)) lib.defaultRelayPort }
  | .relayToken => (setRelayToken o p).2

/-! ## §2. The token. -/

/-- The bytes a string of hexadecimal digits spells, two digits a byte. -/
def hexBytes : List UInt8 → List UInt8
  | a :: b :: cs =>
      (((hexDigit a).getD 0) <<< 4 ||| (hexDigit b).getD 0) :: hexBytes cs
  | _ => []

/-- Two rounds of the loop: one byte of the buffer. -/
theorem mainParseHexLoop_pair {size : Nat} (str : CStr) (n k : Nat) (buf : Vector UInt8 size) :
    mainParseHexLoop str (n + 2) (2 * k) 0 buf =
      match hexDigit (str.charAt (2 * k)), hexDigit (str.charAt (2 * k + 1)) with
      | some a, some b =>
          mainParseHexLoop str n (2 * (k + 1)) 0 (buf.setIfInBounds k (a <<< 4 ||| b))
      | _, _ => (false, buf) := by
  have heven : ¬ 2 * k % 2 = 1 := by omega
  have hodd : (2 * k + 1) % 2 = 1 := by omega
  have hhalf : (2 * k + 1) / 2 = k := by omega
  have hnext : 2 * k + 1 + 1 = 2 * (k + 1) := by omega
  have hzero : ∀ a : UInt8, (0 : UInt8) <<< 4 ||| a = a := by
    intro a
    simp
  cases ha : hexDigit (str.charAt (2 * k)) with
  | none => simp [mainParseHexLoop, ha]
  | some a =>
      cases hb : hexDigit (str.charAt (2 * k + 1)) with
      | none => simp [mainParseHexLoop, ha, hb]
      | some b =>
          simp only [mainParseHexLoop, ha, hb, heven, hodd, hhalf, hnext, hzero, if_true, if_false]

/-- The loop from byte `k` on, over the rest of a string that has just the digits still needed. -/
theorem mainParseHexLoop_eq {size : Nat} (str : CStr) (m k : Nat) (buf : Vector UInt8 size)
    (cs : List UInt8) (hcs : str.bytes.drop (2 * k) = cs) (hlen : cs.length = 2 * m)
    (hsize : k + m = size) :
    (mainParseHexLoop str (2 * m) (2 * k) 0 buf).1 = cs.all (fun c => (hexDigit c).isSome) ∧
      (cs.all (fun c => (hexDigit c).isSome) = true →
        (mainParseHexLoop str (2 * m) (2 * k) 0 buf).2.toList =
          buf.toList.take k ++ hexBytes cs) := by
  -- what is before byte `k` is kept, what is from it on is overwritten, old contents and all
  induction m generalizing k buf cs with
  | zero =>
      have hnil : cs = [] := List.length_eq_zero_iff.mp (by omega)
      have hall : buf.toList.take k = buf.toList := List.take_of_length_le (by simp; omega)
      subst hnil
      simp [mainParseHexLoop, hexBytes, hall]
  | succ m ih =>
      match cs, hlen with
      | a :: b :: cs, hlen =>
          have ha : str.charAt (2 * k) = a := CStr.charAt_of_drop hcs
          have hrest : str.bytes.drop (2 * k + 1) = b :: cs := by
            rw [← List.drop_drop, hcs]
            rfl
          have hb : str.charAt (2 * k + 1) = b := CStr.charAt_of_drop hrest
          have hmore : str.bytes.drop (2 * (k + 1)) = cs := by
            have htwo : 2 * (k + 1) = 2 * k + 1 + 1 := by omega
            rw [htwo, ← List.drop_drop, hrest]
            rfl
          have htwo : 2 * (m + 1) = 2 * m + 2 := by omega
          rw [htwo, mainParseHexLoop_pair, ha, hb]
          cases hda : hexDigit a with
          | none => simp [hda]
          | some x =>
              cases hdb : hexDigit b with
              | none => simp [hdb]
              | some y =>
                  obtain ⟨hok, hbuf⟩ := ih (k + 1) (buf.setIfInBounds k (x <<< 4 ||| y)) cs hmore
                    (by simp at hlen; omega) (by omega)
                  have hkeep : (buf.toList.set k (x <<< 4 ||| y)).take (k + 1) =
                      buf.toList.take k ++ [x <<< 4 ||| y] := by
                    have hk : k < buf.toList.length := by
                      rw [Vector.length_toList]
                      omega
                    rw [← List.take_append_getElem (by simpa using hk), List.take_set_of_le (le_refl k),
                      List.getElem_set_self]
                  simp only [List.all_cons, hda, hdb, Option.isSome_some, Bool.true_and]
                  refine ⟨hok, ?_⟩
                  intro hall
                  rw [hbuf hall, Vector.toList_setIfInBounds, hkeep]
                  simp [hexBytes, hda, hdb]

/-- A token of the right length: accepted when it is all digits, and then its bytes fill the whole
    buffer. -/
theorem mainParseHex_eq {size : Nat} (buf : Vector UInt8 size) (str : CStr)
    (hlen : str.bytes.length = size * 2) :
    (mainParseHex buf str).1 = isHex str ∧
      (isHex str = true → (mainParseHex buf str).2.toList = hexBytes str.bytes) := by
  unfold mainParseHex isHex
  rw [Nat.mul_comm] at hlen ⊢
  exact mainParseHexLoop_eq str size 0 buf str.bytes rfl hlen (Nat.zero_add size)

/-! ## §3. One turn of the loop. -/

variable {lib : Lib} {argv : List CStr} {i : Nat}

/-- `argv[i]`, by what is left of the vector there. -/
theorem argvAt_drop (hi : i ≤ argv.length) : argvAt argv i = .ok (argv.drop i).head? := by
  unfold argvAt
  rw [if_pos hi, List.head?_drop]

theorem le_of_drop {s : CStr} {more : List CStr} (h : argv.drop i = s :: more) :
    i ≤ argv.length := by
  by_contra hgt
  rw [List.drop_of_length_le (by omega)] at h
  cases h

/-- What is left behind a part of the vector. -/
theorem drop_behind {part more : List CStr} (h : argv.drop (i + 1) = part ++ more) :
    argv.drop (i + part.length + 1) = more := by
  have hidx : i + part.length + 1 = i + 1 + part.length := by omega
  rw [hidx, ← List.drop_drop, h, List.drop_left]

/-- A string that is there. -/
theorem strAt_drop {s : CStr} {more : List CStr} (h : argv.drop i = s :: more) :
    strAt argv i = .ok s := by
  unfold strAt
  rw [argvAt_drop (le_of_drop h), h]
  rfl

/-- `main_checkparam` where a string follows. -/
theorem mainCheckparam_ok {p : CStr} {more : List CStr} (h : argv.drop (i + 1) = p :: more) :
    mainCheckparam argv i = .ok () := by
  unfold mainCheckparam
  rw [argvAt_drop (le_of_drop h), h]
  rfl

/-- `main_checkparam` on the last string of the vector. -/
theorem mainCheckparam_missing {arg : CStr} (h : argv.drop i = [arg]) :
    mainCheckparam argv i = .error (.exit (.missingParam arg)) := by
  have hlen : argv.length - i = 1 := by
    rw [← List.length_drop, h]
    rfl
  have hnext : argv.drop (i + 1) = [] := List.drop_of_length_le (by omega)
  unfold mainCheckparam
  rw [argvAt_drop (by omega), hnext, strAt_drop h]
  rfl

/-- `main_parse_addr`, and what is done with the result. -/
theorem mainParseAddr_then {α : Type} {arg : CStr} (dest : AddrBuf) (f : AddrBuf → α)
    (harg : strAt argv i = .ok arg) :
    (mainParseAddr lib dest argv i >>= fun dest => pure (f dest)) = (do
      let p ← strAt argv (i + 1)
      if decide (lib.inetPton p ≠ .invalid) then return f (dest.setHost (lib.inetPton p))
      else throw (.exit (.invalidParam arg p))) := by
  unfold mainParseAddr
  rw [harg]
  cases strAt argv (i + 1) with
  | error stop => rfl
  | ok p =>
      cases hpton : lib.inetPton p with
      | ipv4 ip => simp [hpton, AddrBuf.setHost, bind, Except.bind, pure, Except.pure]
      | ipv6 ip => simp [hpton, AddrBuf.setHost, bind, Except.bind, pure, Except.pure]
      | invalid => simp [hpton, bind, Except.bind, throw, throwThe, MonadExceptOf.throw]

/-- The branch of `--relay-token` accepts what the table says. -/
theorem setRelayToken_ok (o : Options lib.relayTokenSize) (p : CStr) :
    (setRelayToken o p).1 = Opt.relayToken.accepts lib p := by
  unfold setRelayToken Opt.accepts
  by_cases hnil : p.bytes.length = 0
  · simp [hnil]
  · by_cases hlen : p.bytes.length = lib.relayTokenSize * 2
    · have hhex := (mainParseHex_eq o.relayTokenBuf p hlen).1
      have hsize : lib.relayTokenSize ≠ 0 := by omega
      simp only [if_neg hnil, if_pos hlen, hhex]
      simp [hsize, hlen]
    · simp [hnil, hlen]

variable {o : Options lib.relayTokenSize} {arg p : CStr} {more : List CStr} {opt : Opt}

/-- **The chain of branches is the table.** -/
theorem scanOption_eq (harg : strAt argv i = .ok arg) (hfirst : arg.charAt 0 ≠ 0)
    (hopt : Opt.ofName arg = some opt) :
    scanOption lib argv i o arg =
      if opt.takesParam then do
        mainCheckparam argv i
        let p ← strAt argv (i + 1)
        if opt.accepts lib p then return .go (i + 1, opt.set lib p o)
        else throw (.exit (.invalidParam arg p))
      else .ok (.go (i, opt.set lib (.ofString "") o)) := by
  unfold Opt.ofName at hopt
  unfold scanOption
  split_ifs at hopt with h₁ h₂ h₃ h₄ h₅ h₆ h₇ h₈ h₉
  all_goals cases hopt
  · rw [if_pos h₁]
    rfl
  · rw [if_neg h₁, if_pos h₂]
    rfl
  · rw [if_neg h₁, if_neg h₂, if_pos h₃]
    rfl
  · rw [if_neg h₁, if_neg h₂, if_neg h₃, if_pos h₄, mainParseAddr_then o.dns1 _ harg]
    rfl
  · rw [if_neg h₁, if_neg h₂, if_neg h₃, if_neg h₄, if_pos h₅, mainParseAddr_then o.dns2 _ harg]
    rfl
  · rw [if_neg h₁, if_neg h₂, if_neg h₃, if_neg h₄, if_neg h₅, if_pos h₆]
    -- the test of the option itself never holds
    cases mainCheckparam argv i with
    | error stop => rfl
    | ok u =>
        cases strAt argv (i + 1) with
        | error stop => rfl
        | ok p =>
            by_cases hend : p.charAt (lib.strtol p 10).2 = 0
            · simp [Opt.accepts, Opt.takesParam, hend, hfirst, bind, Except.bind]
              rfl
            · simp [Opt.accepts, Opt.takesParam, hend, h₆, bind, Except.bind]
              rfl
  · rw [if_neg h₁, if_neg h₂, if_neg h₃, if_neg h₄, if_neg h₅, if_neg h₆, if_pos h₇]
    rfl
  · rw [if_neg h₁, if_neg h₂, if_neg h₃, if_neg h₄, if_neg h₅, if_neg h₆, if_neg h₇, if_pos h₈,
      mainParseAddr_then o.relay _ harg]
    rfl
  · rw [if_neg h₁, if_neg h₂, if_neg h₃, if_neg h₄, if_neg h₅, if_neg h₆, if_neg h₇, if_neg h₈,
      if_pos h₉]
    cases mainCheckparam argv i with
    | error stop => rfl
    | ok u =>
        cases strAt argv (i + 1) with
        | error stop => rfl
        | ok p =>
            have hok := setRelayToken_ok o p
            cases hacc : Opt.relayToken.accepts lib p with
            | true => simp [Opt.takesParam, hok, hacc, bind, Except.bind, Opt.set]
            | false =>
                simp [Opt.takesParam, hok, hacc, h₉, bind, Except.bind]
                rfl

/-- The branches on an option with its parameter. -/
theorem scanOption_param (h : argv.drop i = arg :: p :: more) (hfirst : arg.charAt 0 ≠ 0)
    (hopt : Opt.ofName arg = some opt) (htakes : opt.takesParam = true) :
    scanOption lib argv i o arg =
      if opt.accepts lib p then .ok (.go (i + 1, opt.set lib p o))
      else .error (.exit (.invalidParam arg p)) := by
  have hp : argv.drop (i + 1) = p :: more := by
    rw [← List.drop_drop, h]
    rfl
  rw [scanOption_eq (strAt_drop h) hfirst hopt, if_pos htakes, mainCheckparam_ok hp, strAt_drop hp]
  rfl

/-- The branches on an option at the end of the vector, without its parameter. -/
theorem scanOption_missing (h : argv.drop i = [arg]) (hfirst : arg.charAt 0 ≠ 0)
    (hopt : Opt.ofName arg = some opt) (htakes : opt.takesParam = true) :
    scanOption lib argv i o arg = .error (.exit (.missingParam arg)) := by
  rw [scanOption_eq (strAt_drop h) hfirst hopt, if_pos htakes, mainCheckparam_missing h]
  rfl

/-- The branch of the option without a parameter. -/
theorem scanOption_flag (h : argv.drop i = arg :: more) (hfirst : arg.charAt 0 ≠ 0)
    (hopt : Opt.ofName arg = some opt) (htakes : opt.takesParam = false) :
    scanOption lib argv i o arg = .ok (.go (i, opt.set lib (.ofString "") o)) := by
  rw [scanOption_eq (strAt_drop h) hfirst hopt, if_neg (by simp [htakes])]

/-- The last `else`. -/
theorem scanOption_unknown (hopt : Opt.ofName arg = none) :
    scanOption lib argv i o arg = .error (.exit (.unknownOption arg)) := by
  unfold Opt.ofName at hopt
  split_ifs at hopt with h₁ h₂ h₃ h₄ h₅ h₆ h₇ h₈ h₉
  unfold scanOption
  rw [if_neg h₁, if_neg h₂, if_neg h₃, if_neg h₄, if_neg h₅, if_neg h₆, if_neg h₇, if_neg h₈,
    if_neg h₉]
  rfl

/-- The name of an option begins with `-`, and is not one of those the loop treats first. -/
theorem Opt.ofName_some {s : CStr} {opt : Opt} (h : Opt.ofName s = some opt) :
    s.charAt 0 = 0x2D ∧ s ≠ .ofString "--" ∧ ¬ (s = .ofString "-h" ∨ s = .ofString "--help") := by
  unfold Opt.ofName at h
  split_ifs at h with h₁ h₂ h₃ h₄ h₅ h₆ h₇ h₈ h₉
  · rcases h₁ with rfl | rfl <;> decide
  all_goals subst_vars; decide

/-- A turn on a string that begins with `-` and is not `--`. -/
theorem scanBody_dash (h : argv.drop (i + 1) = arg :: more) (hdash : arg.charAt 0 = 0x2D)
    (hdashes : arg ≠ .ofString "--") :
    scanBody lib argv (i, o) =
      if arg = .ofString "-h" ∨ arg = .ofString "--help" then .error (.exit .helpFull)
      else scanOption lib argv (i + 1) o arg := by
  unfold scanBody
  dsimp only
  rw [argvAt_drop (le_of_drop h), h]
  dsimp only [List.head?_cons, bind, Except.bind]
  rw [if_neg (not_not_intro hdash), if_neg hdashes]
  rfl

/-- A turn on the name of an option. -/
theorem scanBody_option (h : argv.drop (i + 1) = arg :: more) (hopt : Opt.ofName arg = some opt) :
    scanBody lib argv (i, o) = scanOption lib argv (i + 1) o arg := by
  obtain ⟨hdash, hdashes, hhelp⟩ := Opt.ofName_some hopt
  rw [scanBody_dash h hdash hdashes, if_neg hhelp]

/-- A turn that ends the loop: at the end of the vector, at `--` or at a string that is no
    option. -/
theorem scanBody_end {rest : List CStr} (hi : i < argv.length) (dashes : Bool)
    (h : argv.drop (i + 1) = (if dashes then [.ofString "--"] else []) ++ rest)
    (hends : dashes = false → ∀ s, rest.head? = some s → s.charAt 0 ≠ 0x2D) :
    scanBody lib argv (i, o) = .ok (.done (argv.length - rest.length, o)) := by
  have hlen := congrArg List.length h
  rw [List.length_drop, List.length_append] at hlen
  unfold scanBody
  dsimp only
  rw [argvAt_drop (by omega), h]
  cases dashes with
  | true =>
      have hnext : argv.length - rest.length = i + 1 + 1 := by
        simp only [if_true, List.length_singleton] at hlen
        omega
      rw [hnext]
      rfl
  | false =>
      have hnext : argv.length - rest.length = i + 1 := by
        simp only [Bool.false_eq_true, if_false, List.length_nil] at hlen
        omega
      rw [hnext]
      cases rest with
      | nil => rfl
      | cons s rest =>
          have hs : s.charAt 0 ≠ 0x2D := hends rfl s rfl
          have hhead : ((if false = true then [CStr.ofString "--"] else []) ++ s :: rest).head? =
            some s := rfl
          rw [hhead]
          dsimp only [bind, Except.bind]
          rw [if_pos hs]
          rfl

/-! ## §4. Groups and lines. -/

/-- An option with the parameter it takes, one that is accepted. -/
structure Group (lib : Lib) where
  opt : Opt
  name : CStr
  param : Option CStr
  named : Opt.ofName name = some opt
  takes : param.isSome = opt.takesParam
  accepted : ∀ p, param = some p → opt.accepts lib p = true

/-- The strings of a group. -/
def Group.args (g : Group lib) : List CStr := g.name :: g.param.toList

/-- The parameter, empty where the option takes none. -/
def Group.value (g : Group lib) : CStr := g.param.getD (.ofString "")

/-- What a group does to the variables. -/
def Group.apply (o : Options lib.relayTokenSize) (g : Group lib) : Options lib.relayTokenSize :=
  g.opt.set lib g.value o

/-- A command line: the groups, then maybe `--`, then the arguments proper. -/
structure Line (lib : Lib) where
  groups : List (Group lib)
  dashes : Bool
  rest : List CStr
  ends : dashes = false → ∀ s, rest.head? = some s → s.charAt 0 ≠ 0x2D

/-- The strings of a line. -/
def Line.args (l : Line lib) : List CStr :=
  l.groups.flatMap Group.args ++ ((if l.dashes then [.ofString "--"] else []) ++ l.rest)

/-- **One turn takes one group.** -/
theorem scanBody_group (g : Group lib) (h : argv.drop (i + 1) = g.args ++ more) :
    scanBody lib argv (i, o) = .ok (.go (i + g.args.length, g.apply o)) := by
  obtain ⟨hdash, -, -⟩ := Opt.ofName_some g.named
  have hfirst : g.name.charAt 0 ≠ 0 := by
    rw [hdash]
    decide
  unfold Group.args at h ⊢
  unfold Group.apply Group.value
  rw [scanBody_option h g.named]
  have htakes := g.takes
  cases hparam : g.param with
  | none =>
      rw [hparam] at htakes
      exact scanOption_flag h hfirst g.named htakes.symm
  | some p =>
      rw [hparam] at h htakes
      rw [scanOption_param h hfirst g.named htakes.symm, if_pos (g.accepted p hparam)]
      rfl

/-- A string that begins with `-` and is not `--`: it begins a group, or the turn gives up. -/
theorem group_or_exit (h : argv.drop (i + 1) = arg :: more) (hdash : arg.charAt 0 = 0x2D)
    (hdashes : arg ≠ .ofString "--") :
    (∃ e, scanBody lib argv (i, o) = .error (.exit e)) ∨
      ∃ (g : Group lib) (left : List CStr), arg :: more = g.args ++ left := by
  cases hopt : Opt.ofName arg with
  | none =>
      left
      rw [scanBody_dash h hdash hdashes, scanOption_unknown hopt]
      split_ifs
      · exact ⟨_, rfl⟩
      · exact ⟨_, rfl⟩
  | some opt =>
      have hturn : scanBody lib argv (i, o) = scanOption lib argv (i + 1) o arg :=
        scanBody_option h hopt
      have hfirst : arg.charAt 0 ≠ 0 := by
        rw [hdash]
        decide
      cases htakes : opt.takesParam with
      | false =>
          right
          exact ⟨⟨opt, arg, none, hopt, htakes.symm, by simp⟩, more, rfl⟩
      | true =>
          cases more with
          | nil =>
              left
              exact ⟨_, hturn.trans (scanOption_missing h hfirst hopt htakes)⟩
          | cons p more =>
              rw [scanOption_param h hfirst hopt htakes] at hturn
              by_cases hacc : opt.accepts lib p = true
              · right
                refine ⟨⟨opt, arg, some p, hopt, htakes.symm, ?_⟩, more, rfl⟩
                intro q hq
                cases hq
                exact hacc
              · left
                rw [if_neg hacc] at hturn
                exact ⟨_, hturn⟩

/-! ## §5. The loop. -/

/-- The turns of the loop that take these groups, each the strings at the cursor. -/
def Takes (argv : List CStr) : ScanState lib → List (Group lib) → ScanState lib → Prop
  | s, [], s' => s' = s
  | (i, o), g :: gs, s' =>
      g.args <+: argv.drop (i + 1) ∧
      scanBody lib argv (i, o) = .ok (.go (i + g.args.length, g.apply o)) ∧
      Takes argv (i + g.args.length, g.apply o) gs s'

/-- Groups that stand at the cursor are taken, one a turn. -/
theorem takes_groups (gs : List (Group lib))
    (h : argv.drop (i + 1) = gs.flatMap Group.args ++ more) :
    Takes argv (i, o) gs (i + (gs.flatMap Group.args).length, gs.foldl Group.apply o) := by
  induction gs generalizing i o with
  | nil => rfl
  | cons g gs ih =>
      rw [List.flatMap_cons, List.append_assoc] at h
      have htakes := ih (o := g.apply o) (drop_behind h)
      rw [Nat.add_assoc, ← List.length_append, ← List.flatMap_cons] at htakes
      exact ⟨⟨_, h.symm⟩, scanBody_group g h, htakes⟩

/-- The loop after the turns that take some groups. -/
theorem scanLoop_takes {s s' : ScanState lib} (gs : List (Group lib)) (n : Nat)
    (h : Takes argv s gs s') :
    scanLoop lib argv (gs.length + n) s = scanLoop lib argv n s' := by
  induction gs generalizing s with
  | nil =>
      rw [show s' = s from h]
      simp
  | cons g gs ih =>
      obtain ⟨i, o⟩ := s
      obtain ⟨-, hturn, htakes⟩ := h
      have hn : (g :: gs).length + n = gs.length + n + 1 := by
        rw [List.length_cons]
        omega
      rw [hn, scanLoop, hturn]
      exact ih htakes

/-- A group has at least its name. -/
theorem length_groups_le (gs : List (Group lib)) : gs.length ≤ (gs.flatMap Group.args).length := by
  induction gs with
  | nil => exact le_refl 0
  | cons g gs ih =>
      rw [List.flatMap_cons, List.length_append, List.length_cons]
      unfold Group.args at ih ⊢
      rw [List.length_cons]
      omega

/-- The loop over a line: a turn for each group, and the turn that ends it. -/
theorem takes_line (l : Line lib) (prog : CStr) (o : Options lib.relayTokenSize) :
    Takes (prog :: l.args) (0, o) l.groups
      (0 + (l.groups.flatMap Group.args).length, l.groups.foldl Group.apply o) ∧
    scanBody lib (prog :: l.args)
        (0 + (l.groups.flatMap Group.args).length, l.groups.foldl Group.apply o) =
      .ok (.done ((prog :: l.args).length - l.rest.length, l.groups.foldl Group.apply o)) := by
  have hlt : 0 + (l.groups.flatMap Group.args).length < (prog :: l.args).length := by
    unfold Line.args
    rw [List.length_cons, List.length_append]
    omega
  have hargs : (prog :: l.args).drop (0 + 1) = l.groups.flatMap Group.args ++
      ((if l.dashes then [.ofString "--"] else []) ++ l.rest) := rfl
  exact ⟨takes_groups l.groups hargs, scanBody_end hlt l.dashes (drop_behind hargs) l.ends⟩

/-- **A line is scanned to its end**, in one turn more than it has groups. -/
theorem scanLoop_line (l : Line lib) (prog : CStr) (o : Options lib.relayTokenSize) {n : Nat}
    (hn : l.groups.length + 1 ≤ n) :
    scanLoop lib (prog :: l.args) n (0, o) =
      .ok ((prog :: l.args).length - l.rest.length, l.groups.foldl Group.apply o) := by
  obtain ⟨n, rfl⟩ := Nat.exists_eq_add_of_le hn
  obtain ⟨htakes, hturn⟩ := takes_line l prog o
  rw [Nat.add_assoc, Nat.add_comm 1 n, scanLoop_takes l.groups (n + 1) htakes, scanLoop, hturn]
  rfl

/-- What the loop gives up on, it gives up on with a message; anything else is a line. -/
theorem line_or_exit (hi : i < argv.length) :
    (∃ e, ∀ n, argv.length - i ≤ n → scanLoop lib argv n (i, o) = .error (.exit e)) ∨
      ∃ l : Line lib, argv.drop (i + 1) = l.args := by
  -- by what is left of the vector: a turn that goes on takes at least the name of an option
  obtain ⟨k, hk⟩ : ∃ k, argv.length - i = k := ⟨_, rfl⟩
  induction k using Nat.strong_induction_on generalizing i o with
  | _ k ih =>
  cases hrest : argv.drop (i + 1) with
  | nil => exact Or.inr ⟨⟨[], false, [], by simp⟩, rfl⟩
  | cons arg more =>
      by_cases hdash : arg.charAt 0 = 0x2D
      · by_cases hdashes : arg = .ofString "--"
        · exact Or.inr ⟨⟨[], true, more, by simp⟩, by rw [hdashes]; rfl⟩
        · rcases group_or_exit (o := o) hrest hdash hdashes with ⟨e, he⟩ | ⟨g, left, hg⟩
          · left
            refine ⟨e, ?_⟩
            intro n hn
            obtain ⟨n, rfl⟩ : ∃ n', n = n' + 1 := ⟨n - 1, by omega⟩
            rw [scanLoop, he]
            rfl
          · -- the rest of the vector after the group
            rw [hg] at hrest
            have hturn := scanBody_group (o := o) g hrest
            have hpos : 1 ≤ g.args.length := by
              unfold Group.args
              rw [List.length_cons]
              omega
            have hleft := drop_behind hrest
            have hlen : argv.length - (i + 1) = g.args.length + left.length := by
              rw [← List.length_drop, hrest, List.length_append]
            rcases ih (argv.length - (i + g.args.length)) (by omega) (o := g.apply o) (by omega) rfl
              with ⟨e, he⟩ | ⟨l, hl⟩
            · left
              refine ⟨e, ?_⟩
              intro n hn
              obtain ⟨n, rfl⟩ : ∃ n', n = n' + 1 := ⟨n - 1, by omega⟩
              rw [scanLoop, hturn]
              exact he n (by omega)
            · right
              refine ⟨⟨g :: l.groups, l.dashes, l.rest, l.ends⟩, ?_⟩
              rw [hg, ← hleft, hl]
              unfold Line.args
              rw [List.flatMap_cons, List.append_assoc]
      · refine Or.inr ⟨⟨[], false, arg :: more, ?_⟩, rfl⟩
        rintro - s hs
        cases hs
        exact hdash

end MobileBgb.Main
