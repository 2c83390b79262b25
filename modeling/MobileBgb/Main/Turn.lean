/-
  MobileBgb.Main.Turn — what one turn of each loop of `main` does.

  Bottom up, one result per function of `main.c`:

    exec_implCalls         — libmobile's callbacks show nothing on the link and
                             leave the clock, the reset flag and the action alone;
    exec_mobileHandleLoop  — the restart if one was asked for, then the actions;
    exec_bgbLoop_synced    — a call of `bgb_loop` with `bgb_loop_timestamp`;
    exec_bgbLoop_waiting   — a call of `bgb_loop` with `bgb_loop_timestamp_init`;
    exec_loopBody_go, …    — the turns.

  A turn is described by what it shows (`Obs`): `Served` for a packet handled,
  `Acts` for the actions fetched and processed, `Lost` for a call that ends the
  session.  What a timestamp does to the clock is said by two functions of the
  stored clock and the timestamp alone, `clockNext` and `asksReset`.
-/
import MobileBgb.Main.MobileUser
import MobileBgb.Link.LoopCases

namespace MobileBgb.Main

open MobileBgb.Effect
open MobileBgb.System
open MobileBgb.Socket
open MobileBgb.Link

variable {tgt : Target} {σ : Type} {E : Env (Sys tgt) σ} {w w' : σ} {t : Trace (Sys tgt)}

/-! ## §1. Callbacks. -/

/-- The sockets of libmobile never touch the link: no `recv`, no `send`, no call into the
    adapter. -/
theorem uses_implSock (state : SocketImpl tgt) (call : SocketCall tgt) :
    (implSock state call).Uses SilentOp := by
  unfold implSock
  cases call <;>
    simp only [socketImplOpen, socketImplOpenSetup, socketImplOpenOptions, socketImplClose,
      socketImplConnect, socketImplListen, socketImplAccept, socketImplSend, socketImplRecv,
      socketImplRecvDone, socketHasdata, socketSetblocking, socketStraddr] <;>
    repeat' first
      | exact Prog.uses_pure _
      | exact Prog.uses_ask (by simp [SilentOp])
      | refine Prog.uses_bind ?_ ?_
      | intro _
      | split

/-- The fields of the user object that libmobile's callbacks leave alone. -/
structure Core where
  action : MobileAction
  reset : Bool
  bgbClock : UInt32
  bgbClockInit : Bool

def MobileUser.core (mobile : MobileUser tgt) : Core where
  action := mobile.action
  reset := mobile.reset
  bgbClock := mobile.bgbClock
  bgbClockInit := mobile.bgbClockInit

theorem exec_implCall {mobile mobile' : MobileUser tgt} {call : ImplCall tgt}
    (h : Exec E (implCall mobile call) w t mobile' w') :
    obsOf t = [] ∧ mobile'.core = mobile.core := by
  unfold implCall at h
  cases call with
  | timeLatch timer =>
    obtain ⟨ht, hm, _⟩ := (exec_pure E).mp h
    subst ht hm
    exact ⟨rfl, rfl⟩
  | timeCheckMs timer ms =>
    obtain ⟨ht, hm, _⟩ := (exec_pure E).mp h
    subst ht hm
    exact ⟨rfl, rfl⟩
  | sock call =>
    rw [exec_bind] at h
    obtain ⟨t₁, ⟨_, socket⟩, w₁, t₂, hs, h, ht⟩ := h
    obtain ⟨ht₂, hm, _⟩ := (exec_pure E).mp h
    subst ht ht₂ hm
    rw [List.append_nil]
    exact ⟨obsOf_silent (Exec.uses (uses_implSock _ _) hs), rfl⟩

/-- The callbacks of a call into libmobile show nothing and leave the core alone. -/
theorem exec_implCalls {mobile mobile' : MobileUser tgt} {calls : List (ImplCall tgt)}
    (h : Exec E (implCalls mobile calls) w t mobile' w') :
    obsOf t = [] ∧ mobile'.core = mobile.core := by
  -- induction on the callbacks, in the order libmobile makes them
  induction calls generalizing mobile w t with
  | nil =>
    unfold implCalls at h
    obtain ⟨ht, hm, _⟩ := (exec_pure E).mp h
    subst ht hm
    exact ⟨rfl, rfl⟩
  | cons call calls ih =>
    unfold implCalls at h
    rw [exec_bind] at h
    obtain ⟨t₁, mobile₁, w₁, t₂, h₁, h₂, ht⟩ := h
    obtain ⟨ho₁, hc₁⟩ := exec_implCall h₁
    obtain ⟨ho₂, hc₂⟩ := ih h₂
    rw [ht, obsOf_append, ho₁, ho₂, hc₂, hc₁]
    exact ⟨rfl, rfl⟩

/-! ## §2. Calls into libmobile. -/

/-- A call into libmobile that returns nothing: its own observation, then its callbacks. -/
theorem exec_call {q : SysOp tgt} {callsOf : (Sys tgt).Ans q → List (ImplCall tgt)}
    {mobile mobile' : MobileUser tgt}
    (h : Exec E (do
      let ans ← Prog.ask (S := Sys tgt) q
      implCalls mobile (callsOf ans)) w t mobile' w') :
    ∃ ans, obsOf t = (obs (⟨q, ans⟩ : Event (Sys tgt))).toList ∧ mobile'.core = mobile.core := by
  rw [exec_ask_bind] at h
  obtain ⟨ans, w₁, t₁, _, ht, h⟩ := h
  obtain ⟨ho, hcore⟩ := exec_implCalls h
  refine ⟨ans, ?_, hcore⟩
  rw [ht, obsOf_cons, ho, List.append_nil]

/-- A call into libmobile that returns a value next to its callbacks. -/
theorem exec_call_value {α : Type} {q : SysOp tgt} {a : α} {mobile mobile' : MobileUser tgt}
    {valueOf : (Sys tgt).Ans q → α} {callsOf : (Sys tgt).Ans q → List (ImplCall tgt)}
    (h : Exec E (do
      let ans ← Prog.ask (S := Sys tgt) q
      let mobile ← implCalls mobile (callsOf ans)
      return (valueOf ans, mobile)) w t (a, mobile') w') :
    ∃ ans, a = valueOf ans ∧ obsOf t = (obs (⟨q, ans⟩ : Event (Sys tgt))).toList ∧
      mobile'.core = mobile.core := by
  rw [exec_ask_bind] at h
  obtain ⟨ans, w₁, t₁, _, ht, h⟩ := h
  rw [exec_bind] at h
  obtain ⟨t₂, mobile₁, w₂, t₃, hcalls, h, ht₁⟩ := h
  obtain ⟨ho, hcore⟩ := exec_implCalls hcalls
  obtain ⟨ht₃, hx, _⟩ := (exec_pure E).mp h
  obtain ⟨ha, hm⟩ := Prod.mk.inj hx
  subst ht ht₁ ht₃ hm
  refine ⟨ans, ha, ?_, hcore⟩
  rw [obsOf_cons, obsOf_append, ho, obsOf_nil, List.append_nil, List.append_nil]

theorem exec_mobileStart {mobile mobile' : MobileUser tgt}
    (h : Exec E (mobileStart mobile) w t mobile' w') :
    obsOf t = [.start] ∧ mobile'.core = mobile.core := by
  obtain ⟨_, ho, hcore⟩ := exec_call (q := .mobileStart) h
  exact ⟨ho, hcore⟩

theorem exec_mobileStop {mobile mobile' : MobileUser tgt}
    (h : Exec E (mobileStop mobile) w t mobile' w') :
    obsOf t = [.stop] ∧ mobile'.core = mobile.core := by
  obtain ⟨_, ho, hcore⟩ := exec_call (q := .mobileStop) h
  exact ⟨ho, hcore⟩

theorem exec_mobileActionsProcess {mobile mobile' : MobileUser tgt} {actions : MobileAction}
    (h : Exec E (mobileActionsProcess mobile actions) w t mobile' w') :
    obsOf t = [.actionsProcess actions] ∧ mobile'.core = mobile.core := by
  obtain ⟨_, ho, hcore⟩ := exec_call (q := .mobileActionsProcess actions) h
  exact ⟨ho, hcore⟩

theorem exec_mobileActionsGet {mobile mobile' : MobileUser tgt} {actions : MobileAction}
    (h : Exec E (mobileActionsGet mobile) w t (actions, mobile') w') :
    obsOf t = [.actionsGet actions] ∧ mobile'.core = mobile.core := by
  obtain ⟨ans, ha, ho, hcore⟩ := exec_call_value (q := .mobileActionsGet) h
  rw [ha]
  exact ⟨ho, hcore⟩

theorem exec_bgbLoopTransfer {mobile mobile' : MobileUser tgt} {c r : UInt8}
    (h : Exec E (bgbLoopTransfer mobile c) w t (r, mobile') w') :
    obsOf t = [.transfer c r] ∧ mobile'.core = mobile.core := by
  obtain ⟨ans, hr, ho, hcore⟩ := exec_call_value (q := .mobileTransfer c) h
  rw [hr]
  exact ⟨ho, hcore⟩

/-! ## §3. `mobile_handle_loop`. -/

/-- The actions of one turn: what is fetched and processed when `action` is pending before it,
    and what is pending after it. -/
inductive Acts (tgt : Target) : MobileAction → List Obs → MobileAction → Prop where
  /-- Nothing pending, nothing to fetch. -/
  | rest {a : MobileAction} (h : filterActions tgt a = MOBILE_ACTION_NONE) :
      Acts tgt MOBILE_ACTION_NONE [.actionsGet a] MOBILE_ACTION_NONE
  /-- Nothing pending: fetched, processed at once. -/
  | fetched {a b : MobileAction} (h : filterActions tgt a ≠ MOBILE_ACTION_NONE) :
      Acts tgt MOBILE_ACTION_NONE
        [.actionsGet a, .actionsProcess (filterActions tgt a), .actionsGet b] (filterActions tgt b)
  /-- Pending from the turn before. -/
  | pending {action b : MobileAction} (h : action ≠ MOBILE_ACTION_NONE) :
      Acts tgt action [.actionsProcess action, .actionsGet b] (filterActions tgt b)

theorem exec_fetchAction {mobile mobile' : MobileUser tgt}
    (h : Exec E (fetchAction mobile) w t mobile' w') :
    ∃ a, obsOf t = [.actionsGet a] ∧
      mobile'.core = { mobile.core with action := filterActions tgt a } := by
  unfold fetchAction at h
  rw [exec_bind] at h
  obtain ⟨t₁, ⟨a, mobile₁⟩, w₁, t₂, hget, h, ht⟩ := h
  obtain ⟨ho, hcore⟩ := exec_mobileActionsGet hget
  obtain ⟨ht₂, hm, _⟩ := (exec_pure E).mp h
  subst ht ht₂ hm
  rw [List.append_nil]
  refine ⟨a, ho, ?_⟩
  rw [← hcore]
  rfl

/-- The first part of `mobile_handle_loop`: one restart when one was asked for. -/
theorem exec_restart {mobile mobile' : MobileUser tgt}
    (h : Exec E (if mobile.reset then do
        let mobile ← mobileStop mobile
        let mobile ← mobileStart mobile
        return { mobile with reset := false }
      else return mobile) w t mobile' w') :
    obsOf t = (if mobile.reset then [.stop, .start] else []) ∧
      mobile'.core = { mobile.core with reset := false } := by
  by_cases hr : mobile.reset = true
  · rw [if_pos hr] at h ⊢
    rw [exec_bind] at h
    obtain ⟨t₁, mobile₁, w₁, t₂, hstop, h, ht⟩ := h
    rw [exec_bind] at h
    obtain ⟨t₃, mobile₂, w₂, t₄, hstart, h, ht₂⟩ := h
    obtain ⟨ho₁, hc₁⟩ := exec_mobileStop hstop
    obtain ⟨ho₃, hc₃⟩ := exec_mobileStart hstart
    obtain ⟨ht₄, hm, _⟩ := (exec_pure E).mp h
    subst ht ht₂ ht₄ hm
    refine ⟨by simp [ho₁, ho₃], ?_⟩
    rw [← hc₁, ← hc₃]
    rfl
  · rw [if_neg hr] at h ⊢
    obtain ⟨ht, hm, _⟩ := (exec_pure E).mp h
    have hr : mobile.reset = false := Bool.eq_false_iff.mpr hr
    subst ht hm
    refine ⟨rfl, ?_⟩
    unfold MobileUser.core
    rw [hr]

/-- The last part of `mobile_handle_loop`, from whatever action is pending by then. -/
theorem exec_process {mobile mobile' : MobileUser tgt}
    (h : Exec E (if mobile.action ≠ MOBILE_ACTION_NONE then do
        let mobile ← mobileActionsProcess mobile mobile.action
        fetchAction mobile
      else return mobile) w t mobile' w') :
    (mobile.action = MOBILE_ACTION_NONE ∧ obsOf t = [] ∧ mobile' = mobile) ∨
      (mobile.action ≠ MOBILE_ACTION_NONE ∧ ∃ b,
        obsOf t = [.actionsProcess mobile.action, .actionsGet b] ∧
        mobile'.core = { mobile.core with action := filterActions tgt b }) := by
  by_cases hn : mobile.action = MOBILE_ACTION_NONE
  · left
    rw [if_neg (by simp [hn])] at h
    obtain ⟨ht, hm, _⟩ := (exec_pure E).mp h
    subst ht hm
    exact ⟨hn, rfl, rfl⟩
  · right
    rw [if_pos hn, exec_bind] at h
    obtain ⟨t₁, mobile₁, w₁, t₂, hproc, h, ht⟩ := h
    obtain ⟨ho₁, hc₁⟩ := exec_mobileActionsProcess hproc
    obtain ⟨b, ho₂, hc₂⟩ := exec_fetchAction h
    refine ⟨hn, b, ?_, ?_⟩
    · rw [ht, obsOf_append, ho₁, ho₂]
      rfl
    · rw [hc₂, hc₁]

/-- **`mobile_handle_loop`**: the restart if one was asked for, then the actions. -/
theorem exec_mobileHandleLoop {mobile mobile' : MobileUser tgt}
    (h : Exec E (mobileHandleLoop mobile) w t mobile' w') :
    ∃ o, obsOf t = (if mobile.reset then [.stop, .start] else []) ++ o ∧
      Acts tgt mobile.action o mobile'.action ∧
      mobile'.core = { mobile.core with action := mobile'.action, reset := false } := by
  unfold mobileHandleLoop at h
  rw [exec_bind] at h
  obtain ⟨t₁, mobile₁, w₁, t₂, hrestart, h, ht⟩ := h
  obtain ⟨ho₁, hc₁⟩ := exec_restart hrestart
  have ha₁ : mobile₁.action = mobile.action := congrArg Core.action hc₁
  rw [exec_bind] at h
  obtain ⟨t₃, mobile₂, w₂, t₄, hfetch, h, ht₂⟩ := h
  subst ht ht₂
  rw [obsOf_append, obsOf_append, ho₁]
  refine ⟨_, rfl, ?_⟩
  -- the action pending BEFORE the turn decides; the restart in between does not touch it
  by_cases hn : mobile.action = MOBILE_ACTION_NONE
  · rw [if_pos (ha₁.trans hn)] at hfetch
    obtain ⟨a, ho₃, hc₃⟩ := exec_fetchAction hfetch
    have ha₂ : mobile₂.action = filterActions tgt a := congrArg Core.action hc₃
    rcases exec_process h with ⟨hn₂, ho₄, hm⟩ | ⟨hn₂, b, ho₄, hc₄⟩
    · subst hm
      rw [ho₃, ho₄, hc₃, hc₁, hn, hn₂]
      refine ⟨.rest (ha₂.symm.trans hn₂), ?_⟩
      rw [← ha₂, hn₂]
    · have ha' : mobile'.action = filterActions tgt b := congrArg Core.action hc₄
      rw [ha₂] at ho₄ hn₂
      rw [ho₃, ho₄, hc₄, hc₃, hc₁, hn, ha']
      exact ⟨.fetched hn₂, rfl⟩
  · -- an action was pending: nothing is fetched before it is processed
    rw [if_neg (by rw [ha₁]; exact hn)] at hfetch
    obtain ⟨ht₃, hm, _⟩ := (exec_pure E).mp hfetch
    subst ht₃ hm
    rcases exec_process h with ⟨hn₂, _, _⟩ | ⟨_, b, ho₄, hc₄⟩
    · exact absurd (ha₁.symm.trans hn₂) hn
    · have ha' : mobile'.action = filterActions tgt b := congrArg Core.action hc₄
      rw [ho₄, hc₄, hc₁, ha₁, ha']
      exact ⟨.pending hn, rfl⟩

/-! ## §4. A packet handled, a packet refused. -/

/-- What handling the packet `p` shows while `byte` is the byte to reply with, up to its
    timestamp, and the byte to reply with after it. -/
inductive Served (p : BgbPacket) (byte : UInt8) : List Obs → UInt8 → Prop where
  /-- A SYNC1: the reply, then the transfer. -/
  | sync1 (h : p.isSync1 = true) (r : UInt8) :
      Served p byte [.packet p, .sent (p.sync2 byte) true, .transfer p.b2 r] r
  /-- A SYNC3 that is echoed. -/
  | echo (h : p.isSync3 = true) : Served p byte [.packet p, .sent p true] byte
  /-- A packet without a reply. -/
  | plain (h : p.isSync1 = false) : Served p byte [.packet p] byte

/-- What a call that ends the session shows: no whole packet, or one that is refused. -/
def Lost (byte : UInt8) (o : List Obs) : Prop :=
  o = [] ∨ ∃ p o', o = .packet p :: o' ∧ Refused p byte o'

/-- The transfer of a SYNC1 goes to libmobile; it changes nothing but the reply byte. -/
theorem transferExec_served {state state' : BgbState tgt (MobileUser tgt)}
    {mobile mobile' : MobileUser tgt} {p : BgbPacket}
    (hcb : state.callbackTransfer = some bgbLoopTransfer)
    (h : TransferExec E state mobile p w t state' mobile' w') :
    Served p state.byte (.packet p :: (p.replies state.byte).map (Obs.sent · true) ++ obsOf t)
        state'.byte ∧
      state' = { state with byte := state'.byte } ∧ mobile'.core = mobile.core := by
  unfold TransferExec at h
  cases hp : p.isSync1 with
  | true =>
    simp only [hp, hcb] at h
    obtain ⟨r, hx, hs⟩ := h
    obtain ⟨ho, hcore⟩ := exec_bgbLoopTransfer hx
    have hrep : p.replies state.byte = [p.sync2 state.byte] := by
      simp [BgbPacket.replies, BgbPacket.sync2, hp]
    subst hs
    rw [ho, hrep]
    exact ⟨.sync1 hp r, by rw [hcb], hcore⟩
  | false =>
    simp only [hp] at h
    obtain ⟨ht, hs, hm, _⟩ := h
    subst ht hs hm
    refine ⟨?_, rfl, rfl⟩
    -- of the other packets only a SYNC3 with `b2 = 0` is echoed
    by_cases h3 : p.isSync3 = true ∧ p.b2 = 0
    · have hrep : p.replies state'.byte = [p] := by simp [BgbPacket.replies, hp, h3]
      rw [hrep]
      exact .echo h3.1
    · have hrep : p.replies state'.byte = [] := by
        unfold BgbPacket.replies
        rw [if_neg (by simp [hp]), if_neg h3]
      rw [hrep]
      exact .plain hp

/-- A call of `bgb_loop` that returns `false` changes nothing. -/
theorem exec_bgbLoop_lost {s s' : MainState tgt}
    (h : Exec E (bgbLoop s.1 s.2) w t (false, s') w') : s' = s ∧ Lost s.1.byte (obsOf t) := by
  obtain ⟨state', mobile'⟩ := s'
  rcases bgbLoop_cases h with ⟨hf, _⟩ | ⟨_, hs, hm, ho, _⟩ | ⟨p, o, _, hs, hm, ho, href, _⟩
    | ⟨_, _, _, _, _, _, _, _, hf, _⟩
  · cases hf
  · exact ⟨Prod.ext hs hm, Or.inl ho⟩
  · exact ⟨Prod.ext hs hm, Or.inr ⟨p, o, ho, href⟩⟩
  · cases hf

/-! ## §5. The clock. -/

/-- The clock after the timestamp `ts`: a small step back is ignored. -/
def clockNext (clock ts : UInt32) : UInt32 := if WentBack clock ts then clock else ts

/-- Does the timestamp `ts` ask for a reset? -/
def asksReset (clock ts : UInt32) : Bool :=
  ¬ WentBack clock ts ∧ (ts - clock) &&& 0x7FFFFFFF > 0x1000

@[simp] theorem clockNext_self (clock : UInt32) : clockNext clock clock = clock := by
  unfold clockNext
  rw [if_neg (not_wentBack_self clock)]

@[simp] theorem asksReset_self (clock : UInt32) : asksReset clock clock = false := by
  unfold asksReset
  rw [UInt32.sub_self, UInt32.zero_and]
  simp

/-- `bgb_loop_timestamp`: the flag is raised, and the reset announced, when the step is too big. -/
theorem exec_bgbLoopTimestamp {mobile mobile' : MobileUser tgt} {ts : UInt32}
    (hback : ¬ WentBack mobile.bgbClock ts)
    (h : Exec E (bgbLoopTimestamp mobile ts) w t mobile' w') :
    obsOf t = (if asksReset mobile.bgbClock ts then [.reset] else []) ∧
      mobile' = { mobile with
        reset := mobile.reset || asksReset mobile.bgbClock ts, bgbClock := ts } := by
  have hask : asksReset mobile.bgbClock ts
      = decide ((ts - mobile.bgbClock) &&& 0x7FFFFFFF > 0x1000) := by simp [asksReset, hback]
  unfold bgbLoopTimestamp at h
  rw [exec_bind] at h
  obtain ⟨t₁, mobile₁, w₁, t₂, h₁, h, ht⟩ := h
  obtain ⟨ht₂, hm, _⟩ := (exec_pure E).mp h
  subst ht ht₂ hm
  rw [List.append_nil, hask]
  -- the difference is taken modulo 2^31, the top bit of both sides does not count
  by_cases hd : (ts - mobile.bgbClock) &&& 0x7FFFFFFF > 0x1000
  · rw [if_pos hd, exec_ask_bind] at h₁
    obtain ⟨_, w₂, t₃, _, ht₁, h₁⟩ := h₁
    obtain ⟨ht₃, hm, _⟩ := (exec_pure E).mp h₁
    subst ht₁ ht₃ hm
    rw [decide_eq_true hd, Bool.or_true]
    exact ⟨rfl, rfl⟩
  · rw [if_neg hd] at h₁
    obtain ⟨ht₁, hm, _⟩ := (exec_pure E).mp h₁
    subst ht₁ hm
    rw [decide_eq_false hd, Bool.or_false]
    exact ⟨rfl, rfl⟩

/-- The tail of `bgb_loop` when the two clocks agree: both follow in step. -/
theorem exec_clock_synced {state state' : BgbState tgt (MobileUser tgt)}
    {mobile mobile' : MobileUser tgt} {ts : UInt32}
    (hcb : state.callbackTimestamp = some bgbLoopTimestamp) (hinit : state.timestampInit = true)
    (hclock : mobile.bgbClock = state.timestampLast)
    (h : Exec E (bgbLoopClock state mobile ts) w t (state', mobile') w') :
    obsOf t = (if asksReset mobile.bgbClock ts then [.reset] else []) ∧
      state' = { state with timestampLast := clockNext mobile.bgbClock ts } ∧
      mobile' = { mobile with
        reset := mobile.reset || asksReset mobile.bgbClock ts
        bgbClock := clockNext mobile.bgbClock ts } := by
  rcases exec_bgbLoopClock hcb h with ⟨hf, _⟩ | ⟨_, ⟨hstay, hs, hm, ho, _⟩ | ⟨hback, _, hs, hx⟩⟩
  · -- the clock is initialised before the main loop
    rw [hinit] at hf
    cases hf
  · -- nothing is called: the step is back, or there is none
    have hsame : clockNext mobile.bgbClock ts = mobile.bgbClock ∧
        asksReset mobile.bgbClock ts = false := by
      rw [← hclock] at hstay
      rcases hstay with hback | hts
      · unfold clockNext asksReset
        rw [if_pos hback]
        simp [hback]
      · rw [hts]
        exact ⟨clockNext_self _, asksReset_self _⟩
    subst hs hm
    rw [hsame.1, hsame.2, Bool.or_false]
    exact ⟨ho, by rw [hclock], rfl⟩
  · -- followed: the callback compares with the same clock as `bgb_loop` did
    rw [← hclock] at hback
    obtain ⟨ho, hm⟩ := exec_bgbLoopTimestamp hback hx
    have hnext : clockNext mobile.bgbClock ts = ts := if_neg hback
    rw [hnext]
    exact ⟨ho, hs, hm⟩

/-! ## §6. The main loop. -/

/-- Between the calls of the main loop: the callbacks are in place and the two clocks agree. -/
structure Synced (s : MainState tgt) : Prop where
  transfer : s.1.callbackTransfer = some bgbLoopTransfer
  timestamp : s.1.callbackTimestamp = some bgbLoopTimestamp
  init : s.1.timestampInit = true
  clock : s.2.bgbClock = s.1.timestampLast

/-- At the head of the main loop no reset is outstanding either. -/
structure LoopHead (s : MainState tgt) : Prop extends Synced s where
  reset : s.2.reset = false

/-- A call of `bgb_loop` that returns `true` with the clocks in step: nothing, or one packet. -/
theorem exec_bgbLoop_synced {s s' : MainState tgt} (hs : Synced s)
    (h : Exec E (bgbLoop s.1 s.2) w t (true, s') w') :
    (obsOf t = [] ∧ s' = s) ∨
      ∃ p o, p.known = true ∧ Served p s.1.byte o s'.1.byte ∧ Synced s' ∧
        obsOf t = o ++ (if asksReset s.2.bgbClock (p.stamp s.2.bgbClock) then [.reset] else []) ∧
        s'.2.core = { s.2.core with
          reset := s.2.reset || asksReset s.2.bgbClock (p.stamp s.2.bgbClock)
          bgbClock := clockNext s.2.bgbClock (p.stamp s.2.bgbClock) } := by
  obtain ⟨state', mobile'⟩ := s'
  rcases bgbLoop_cases h with ⟨_, hst, hm, ho, _⟩ | ⟨hf, _⟩ | ⟨_, _, hf, _⟩
    | ⟨p, t₀, t₁, t₂, w₁, w₂, state₁, mobile₁, _, ht, hk, ho, _, htr, hclock⟩
  · exact Or.inl ⟨ho, Prod.ext hst hm⟩
  · cases hf
  · cases hf
  · right
    -- the transfer touches neither clock, so they still agree when the tail runs
    obtain ⟨hserved, hs₁, hcore₁⟩ := transferExec_served hs.transfer htr
    have hbc : mobile₁.bgbClock = s.2.bgbClock := congrArg Core.bgbClock hcore₁
    have hrs : mobile₁.reset = s.2.reset := congrArg Core.reset hcore₁
    rw [← hs.clock] at hclock
    obtain ⟨ho₂, hs', hm'⟩ := exec_clock_synced (by rw [hs₁]; exact hs.timestamp)
      (by rw [hs₁]; exact hs.init) (by rw [hbc, hs.clock, hs₁]) hclock
    rw [hbc] at ho₂ hs' hm'
    rw [hrs] at hm'
    subst ht hs' hm'
    rw [hs₁]
    refine ⟨p, _, hk, hserved, ⟨hs.transfer, hs.timestamp, hs.init, rfl⟩, ?_, ?_⟩
    · rw [obsOf_append, obsOf_append, ho, ho₂]
    · rw [← hcore₁]
      rfl

theorem uses_socketWait (sockets : List SOCKET) (delay : Int) :
    (socketWait sockets delay : Prog (Sys tgt) Int).Uses SilentOp := by
  unfold socketWait
  refine Prog.uses_bind (Prog.uses_ask trivial) ?_
  intro rc
  split
  · exact Prog.uses_bind (Prog.uses_ask (by simp [SilentOp])) fun _ => Prog.uses_pure _
  · exact Prog.uses_pure _

/-- **Everything one turn of the main loop can do.**  It leaves, interrupted or with the link
    lost, and nothing was changed; or it goes on: a call of `bgb_loop` that returned `true`, then
    `mobile_handle_loop` on the object it left.  The signal before and the wait after are silent. -/
theorem loopBody_cases {bgbSock : SOCKET} {s : MainState tgt}
    {fl : Flow (MainState tgt) (MainState tgt)} (h : Exec E (loopBody bgbSock s) w t fl w') :
    (fl = .done s ∧ Lost s.1.byte (obsOf t)) ∨
      ∃ s' mid w₁ t₀ t₁ w₂ t₂ w₃ t₃, fl = .go s' ∧ t = t₀ ++ (t₁ ++ (t₂ ++ t₃)) ∧
        (∀ e ∈ t₀, SilentOp e.op) ∧ (∀ e ∈ t₃, SilentOp e.op) ∧
        Exec E (bgbLoop s.1 s.2) w₁ t₁ (true, mid) w₂ ∧
        Exec E (mobileHandleLoop mid.2) w₂ t₂ s'.2 w₃ ∧ s'.1 = mid.1 := by
  unfold loopBody at h
  rw [exec_ask_bind] at h
  obtain ⟨sig, w₁, t₁, _, ht, h⟩ := h
  subst ht
  cases sig with
  | true =>
    -- interrupted
    rw [if_pos rfl] at h
    obtain ⟨ht₁, hfl, _⟩ := (exec_pure E).mp h
    subst ht₁
    exact Or.inl ⟨hfl, Or.inl rfl⟩
  | false =>
    rw [if_neg (by decide), exec_bind] at h
    obtain ⟨t₂, ⟨ok, state, mobile⟩, w₂, t₃, hloop, h, ht₁⟩ := h
    dsimp only at h
    cases ok with
    | false =>
      -- the link is lost
      obtain ⟨hmid, hlost⟩ := exec_bgbLoop_lost hloop
      rw [if_pos (by decide)] at h
      obtain ⟨ht₃, hfl, _⟩ := (exec_pure E).mp h
      subst ht₁ ht₃
      rw [List.append_nil, obsOf_cons]
      rw [hmid] at hfl
      exact Or.inl ⟨hfl, hlost⟩
    | true =>
      -- the adapter's side, then the wait
      right
      rw [if_neg (by decide), exec_bind] at h
      obtain ⟨t₄, mobile', w₄, t₅, hhandle, h, ht₃⟩ := h
      rw [exec_bind] at h
      obtain ⟨t₆, rc, w₆, t₇, hwait, h, ht₅⟩ := h
      obtain ⟨ht₇, hfl, _⟩ := (exec_pure E).mp h
      subst ht₁ ht₃ ht₅ ht₇
      rw [List.append_nil]
      refine ⟨_, (state, mobile), _, [⟨.signalIntTrig, false⟩], t₂, _, t₄, _, t₆, hfl, rfl, ?_,
        Exec.uses (uses_socketWait _ _) hwait, hloop, hhandle, rfl⟩
      intro e he
      rw [List.mem_singleton.mp he]
      trivial

theorem exec_loopBody_done {bgbSock : SOCKET} {s s' : MainState tgt}
    (h : Exec E (loopBody bgbSock s) w t (.done s') w') : s' = s ∧ Lost s.1.byte (obsOf t) := by
  rcases loopBody_cases h with ⟨hfl, hlost⟩ | ⟨_, _, _, _, _, _, _, _, _, hfl, _⟩
  · injection hfl with hs
    exact ⟨hs, hlost⟩
  · cases hfl

theorem exec_loopBody_go {bgbSock : SOCKET} {s s' : MainState tgt}
    (h : Exec E (loopBody bgbSock s) w t (.go s') w') :
    ∃ mid w₁ t₁ w₂ t₂ w₃, Exec E (bgbLoop s.1 s.2) w₁ t₁ (true, mid) w₂ ∧
      Exec E (mobileHandleLoop mid.2) w₂ t₂ s'.2 w₃ ∧ s'.1 = mid.1 ∧
      obsOf t = obsOf t₁ ++ obsOf t₂ := by
  rcases loopBody_cases h with ⟨hfl, _⟩
    | ⟨s₁, mid, w₁, t₀, t₁, w₂, t₂, w₃, t₃, hfl, ht, ho₀, ho₃, hloop, hhandle, hst⟩
  · cases hfl
  · injection hfl with hs
    rw [← hs] at hhandle hst
    refine ⟨mid, w₁, t₁, w₂, t₂, w₃, hloop, hhandle, hst, ?_⟩
    rw [ht, obsOf_append, obsOf_append, obsOf_append, obsOf_silent ho₀, obsOf_silent ho₃,
      List.append_nil, List.nil_append]

/-- What `mobile_handle_loop` leaves of the loop's state. -/
theorem loopHead_handled {mid s' : MainState tgt} (hmid : Synced mid) (hst : s'.1 = mid.1)
    (hcore : s'.2.core = { mid.2.core with action := s'.2.action, reset := false }) :
    LoopHead s' := by
  have hclock : s'.2.bgbClock = mid.2.bgbClock := congrArg Core.bgbClock hcore
  refine ⟨⟨?_, ?_, ?_, ?_⟩, congrArg Core.reset hcore⟩
  · rw [hst]
    exact hmid.transfer
  · rw [hst]
    exact hmid.timestamp
  · rw [hst]
    exact hmid.init
  · rw [hst, hclock]
    exact hmid.clock

/-! ## §7. The waiting loop. -/

/-- The user object and the state once the packet `p` has initialised the clock. -/
structure FirstSeen (p : BgbPacket) (s : MainState tgt) : Prop where
  transfer : s.1.callbackTransfer = some bgbLoopTransfer
  init : s.1.timestampInit = true
  last : s.1.timestampLast = p.stamp 0
  core : s.2.core = ⟨MOBILE_ACTION_NONE, false, p.stamp 0, true⟩

/-- The state in which `main` waits. -/
def waitState (tgt : Target) (bgbSock : SOCKET) : MainState tgt :=
  waitStart (.start bgbSock tgt.serialIdleByte (some bgbLoopTransfer) (some bgbLoopTimestamp))

/-- A call of `bgb_loop` while `main` waits: nothing, or the packet that initialises the clock. -/
theorem exec_bgbLoop_waiting {bgbSock : SOCKET} {s' : MainState tgt}
    (h : Exec E (bgbLoop (waitState tgt bgbSock).1 (waitState tgt bgbSock).2) w t (true, s') w') :
    (obsOf t = [] ∧ s' = waitState tgt bgbSock) ∨
      ∃ p, p.known = true ∧ Served p tgt.serialIdleByte (obsOf t) s'.1.byte ∧ FirstSeen p s' := by
  obtain ⟨state', mobile'⟩ := s'
  rcases bgbLoop_cases h with ⟨_, hst, hm, ho, _⟩ | ⟨hf, _⟩ | ⟨_, _, hf, _⟩
    | ⟨p, t₀, t₁, t₂, w₁, w₂, state₁, mobile₁, _, ht, hk, ho, _, htr, hclock⟩
  · exact Or.inl ⟨ho, Prod.ext hst hm⟩
  · cases hf
  · cases hf
  · right
    obtain ⟨hserved, hs₁, hcore₁⟩ := transferExec_served rfl htr
    have hcb : state₁.callbackTimestamp = some bgbLoopTimestampInit := by rw [hs₁]; rfl
    have hinit : state₁.timestampInit = false := by rw [hs₁]; rfl
    -- the first packet of ANY known command initialises the clock: without a timestamp of its own it
    -- carries the initial `timestamp_last`, which is 0
    rcases exec_bgbLoopClock hcb hclock with ⟨_, hs', t₃, t₄, w₃, ht₂, hx, ho₄, _⟩ | ⟨hf, _⟩
    · unfold bgbLoopTimestampInit at hx
      obtain ⟨ht₃, hm', _⟩ := (exec_pure E).mp hx
      subst ht ht₂ ht₃ hs' hm'
      refine ⟨p, hk, ?_, ⟨?_, rfl, rfl, ?_⟩⟩
      · rw [obsOf_append, obsOf_append, obsOf_append, ho, ho₄, obsOf_nil, List.append_nil,
          List.append_nil]
        exact hserved
      · show state₁.callbackTransfer = _
        rw [hs₁]
        rfl
      · show (⟨mobile₁.core.action, mobile₁.core.reset, _, true⟩ : Core) = _
        rw [hcore₁]
        rfl
    · rw [hinit] at hf
      cases hf

/-- Once the clock is initialised the waiting loop is left at once. -/
theorem exec_waitBody_init {s : MainState tgt} {fl : Flow (MainState tgt) (Option (MainState tgt))}
    (hs : s.2.bgbClockInit = true) (h : Exec E (waitBody s) w t fl w') :
    t = [] ∧ fl = .done (some s) := by
  unfold waitBody at h
  rw [if_pos hs] at h
  obtain ⟨ht, hfl, _⟩ := (exec_pure E).mp h
  exact ⟨ht, hfl⟩

/-- A turn of waiting is a call of `bgb_loop`. -/
theorem exec_waitBody_call {s : MainState tgt} {fl : Flow (MainState tgt) (Option (MainState tgt))}
    (hs : s.2.bgbClockInit = false) (h : Exec E (waitBody s) w t fl w') :
    (fl = .done none ∧ Exec E (bgbLoop s.1 s.2) w t (false, s) w') ∨
      ∃ s', fl = .go s' ∧ Exec E (bgbLoop s.1 s.2) w t (true, s') w' := by
  unfold waitBody at h
  rw [if_neg (by simp [hs]), exec_bind] at h
  obtain ⟨t₁, ⟨ok, state, mobile⟩, w₁, t₂, hloop, h, ht⟩ := h
  dsimp only at h
  cases ok with
  | false =>
    left
    rw [if_pos (by decide)] at h
    obtain ⟨ht₂, hfl, hw⟩ := (exec_pure E).mp h
    have hsame := (exec_bgbLoop_lost hloop).1
    subst ht ht₂ hw
    rw [List.append_nil]
    rw [hsame] at hloop
    exact ⟨hfl, hloop⟩
  | true =>
    right
    rw [if_neg (by decide)] at h
    obtain ⟨ht₂, hfl, hw⟩ := (exec_pure E).mp h
    subst ht ht₂ hw
    rw [List.append_nil]
    exact ⟨(state, mobile), hfl, hloop⟩

end MobileBgb.Main
