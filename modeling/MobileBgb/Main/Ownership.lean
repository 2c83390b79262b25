/-
  MobileBgb.Main.Ownership — the descriptors of a whole run of `main`.

  `MobileBgb.Socket.Ownership` is about libmobile's calls one by one.  In `main` they
  come from everywhere: from `mobile_transfer` in the middle of a packet, from
  `mobile_stop` in a restart, while the link's own descriptor is polled, read and
  written between them.  Bottom up, one triple per function says that the ownership of
  the descriptors survives; `main_descriptors` is what is left of it at the end.

  The triples are proved in a world that holds the link's descriptor and nothing else.
  The frame rule carries them to every other: the rest of the process is not touched.

  A run that FAILS does much less: it gives up in the handshake or before the first packet
  is handled, and has used the link alone (`exec_mainProg_error`).
-/
import MobileBgb.Socket.Ownership
import MobileBgb.Main.Runs

namespace MobileBgb.Main

open MobileBgb.Effect
open MobileBgb.System
open MobileBgb.Socket
open MobileBgb.Link

variable {tgt : Target} {bgbSock : SOCKET} {flags : UInt32}

/-! ## §1. libmobile. -/

/-- The assertion of this file, on the user object. -/
abbrev Owns (bgbSock : SOCKET) (flags : UInt32) (mobile : MobileUser tgt) :
    Assertion (Sys tgt) Fds :=
  Accounted bgbSock flags mobile.socket

theorem triple_implCall (mobile : MobileUser tgt) (call : ImplCall tgt) :
    Triple (fdEnv tgt) fdGuard (Owns bgbSock flags mobile) (implCall mobile call)
      (Owns bgbSock flags) := by
  unfold implCall
  cases call with
  | timeLatch timer => exact triple_pure fun _ _ h => h
  | timeCheckMs timer ms => exact triple_pure fun _ _ h => h
  | sock call =>
    refine triple_bind (triple_implSock call) ?_
    intro r
    exact triple_pure fun _ _ h => h

/-- The callbacks of one call into libmobile. -/
theorem triple_implCalls (mobile : MobileUser tgt) (calls : List (ImplCall tgt)) :
    Triple (fdEnv tgt) fdGuard (Owns bgbSock flags mobile) (implCalls mobile calls)
      (Owns bgbSock flags) := by
  induction calls generalizing mobile with
  | nil => exact triple_pure fun _ _ h => h
  | cons call calls ih =>
    unfold implCalls
    refine triple_bind (triple_implCall mobile call) ?_
    intro mobile'
    exact ih mobile'

/-- A request that is about no descriptor and changes none. -/
theorem triple_ask {s : SocketImpl tgt} {op : SysOp tgt} (hfds : fdsOf op = [])
    (hop : changesFds op = false) :
    Triple (fdEnv tgt) fdGuard (Accounted bgbSock flags s) (Prog.ask (S := Sys tgt) op)
      fun _ => Accounted bgbSock flags s :=
  triple_link (Prog.uses_ask (quietOn_none hfds hop))

theorem triple_mobileStart (mobile : MobileUser tgt) :
    Triple (fdEnv tgt) fdGuard (Owns bgbSock flags mobile) (mobileStart mobile)
      (Owns bgbSock flags) := by
  refine triple_bind (triple_ask rfl rfl) ?_
  intro calls
  exact triple_implCalls mobile calls

theorem triple_mobileStop (mobile : MobileUser tgt) :
    Triple (fdEnv tgt) fdGuard (Owns bgbSock flags mobile) (mobileStop mobile)
      (Owns bgbSock flags) := by
  refine triple_bind (triple_ask rfl rfl) ?_
  intro calls
  exact triple_implCalls mobile calls

theorem triple_fetchAction (mobile : MobileUser tgt) :
    Triple (fdEnv tgt) fdGuard (Owns bgbSock flags mobile) (fetchAction mobile)
      (Owns bgbSock flags) := by
  have hget : Triple (fdEnv tgt) fdGuard (Owns bgbSock flags mobile) (mobileActionsGet mobile)
      fun r => Owns bgbSock flags r.2 := by
    refine triple_bind (triple_ask rfl rfl) ?_
    intro ans
    refine triple_bind (triple_implCalls mobile ans.2) ?_
    intro mobile'
    exact triple_pure fun _ _ h => h
  refine triple_bind hget ?_
  intro r
  exact triple_pure fun _ _ h => h

theorem triple_mobileHandleLoop (mobile : MobileUser tgt) :
    Triple (fdEnv tgt) fdGuard (Owns bgbSock flags mobile) (mobileHandleLoop mobile)
      (Owns bgbSock flags) := by
  -- the restart
  have hrestart : Triple (fdEnv tgt) fdGuard (Owns bgbSock flags mobile)
      (if mobile.reset then do
        let mobile ← mobileStop mobile
        let mobile ← mobileStart mobile
        return { mobile with reset := false }
      else return mobile) (Owns bgbSock flags) := by
    split_ifs
    · refine triple_bind (triple_mobileStop mobile) ?_
      intro mobile₁
      refine triple_bind (triple_mobileStart mobile₁) ?_
      intro mobile₂
      exact triple_pure fun _ _ h => h
    · exact triple_pure fun _ _ h => h
  have hfetch : ∀ mobile : MobileUser tgt, Triple (fdEnv tgt) fdGuard (Owns bgbSock flags mobile)
      (if mobile.action = MOBILE_ACTION_NONE then fetchAction mobile else return mobile)
      (Owns bgbSock flags) := by
    intro mobile
    split_ifs
    · exact triple_fetchAction mobile
    · exact triple_pure fun _ _ h => h
  unfold mobileHandleLoop
  refine triple_bind hrestart ?_
  intro mobile₁
  refine triple_bind (hfetch mobile₁) ?_
  intro mobile₂
  split_ifs
  · refine triple_bind (triple_bind (triple_ask rfl rfl) fun calls =>
      triple_implCalls mobile₂ calls) ?_
    intro mobile₃
    exact triple_fetchAction mobile₃
  · exact triple_pure fun _ _ h => h

/-! ## §2. The link. -/

/-- The requests on the link: to wait for it, to read and to write it, and messages. -/
def LinkOp (sock : SOCKET) : SysOp tgt → Prop
  | .poll fds _ => fds = [sock]
  | .send fd _ => fd = sock
  | .recv fd _ => fd = sock
  | .diag _ => True
  | _ => False

theorem LinkOp.quiet {sock : SOCKET} {op : SysOp tgt} (h : LinkOp sock op) : QuietOn sock op := by
  cases op with
  | poll fds timeout => exact quietOn_sock h rfl
  | send fd data => exact quietOn_sock (congrArg (fun fd => [fd]) h) rfl
  | recv fd size => exact quietOn_sock (congrArg (fun fd => [fd]) h) rfl
  | diag msg => exact quietOn_none rfl rfl
  | _ => cases h

/-- A message, and nothing more. -/
theorem linkOp_diag {α : Type} (sock : SOCKET) (msg : Diag) (a : α) :
    (do Sys.diag msg; return a : Prog (Sys tgt) α).Uses (LinkOp sock) :=
  ⟨trivial, fun _ => trivial⟩

theorem linkOp_socketHasdata (sock : SOCKET) :
    (socketHasdata sock : Prog (Sys tgt) Int).Uses (LinkOp sock) := by
  unfold socketHasdata
  refine Prog.uses_bind (Prog.uses_ask rfl) ?_
  intro rc
  split_ifs
  · exact linkOp_diag sock _ rc
  · exact Prog.uses_pure rc

theorem linkOp_bgbSend (sock : SOCKET) (p : BgbPacket) :
    (bgbSend sock p : Prog (Sys tgt) Bool).Uses (LinkOp sock) := by
  unfold bgbSend
  refine Prog.uses_bind (Prog.uses_ask rfl) ?_
  intro ans
  cases ans with
  | none => exact linkOp_diag sock _ _
  | some num => exact Prog.uses_pure _

theorem linkOp_bgbRecv (sock : SOCKET) :
    (bgbRecv sock : Prog (Sys tgt) (Option BgbPacket)).Uses (LinkOp sock) := by
  unfold bgbRecv
  refine Prog.uses_bind (Prog.uses_ask rfl) ?_
  intro ans
  cases ans with
  | none => exact linkOp_diag sock _ _
  | some buf => exact Prog.uses_pure _

/-- The handshake is about the link alone. -/
theorem linkOp_mainInit (sock : SOCKET) :
    (mainInit sock : Prog (Sys tgt) _).Uses (LinkOp sock) := by
  unfold mainInit bgbInit
  refine Prog.uses_bind (linkOp_bgbSend sock _) ?_
  intro ok
  split_ifs
  · exact Prog.uses_pure _
  refine Prog.uses_bind (linkOp_bgbRecv sock) ?_
  intro r
  split
  · split_ifs
    · exact linkOp_diag sock _ _
    refine Prog.uses_bind (linkOp_bgbSend sock _) ?_
    intro ok
    split_ifs
    · exact Prog.uses_pure _
    refine Prog.uses_bind (linkOp_bgbRecv sock) ?_
    intro r
    split
    · split_ifs
      · exact linkOp_diag sock _ _
      refine Prog.uses_bind (linkOp_bgbSend sock _) ?_
      intro ok
      split_ifs
      · exact Prog.uses_pure _
      · exact Prog.uses_pure _
    · exact Prog.uses_pure _
  · exact Prog.uses_pure _

/-- Requests on the link keep what is owned. -/
theorem triple_linkOp {α : Type} {s : SocketImpl tgt} {p : Prog (Sys tgt) α}
    (hp : p.Uses (LinkOp bgbSock)) :
    Triple (fdEnv tgt) fdGuard (Accounted bgbSock flags s) p fun _ => Accounted bgbSock flags s :=
  triple_link (Prog.uses_mono (fun _ h => h.quiet) hp)

/-- The link's state is about the link's descriptor and carries the callbacks of `main.c`. -/
structure Wired (bgbSock : SOCKET) (state : BgbState tgt (MobileUser tgt)) : Prop where
  socket : state.socket = bgbSock
  transfer : state.callbackTransfer = some bgbLoopTransfer
  timestamp : state.callbackTimestamp = some bgbLoopTimestamp ∨
    state.callbackTimestamp = some bgbLoopTimestampInit

/-- The assertion on both objects. -/
def Holding (bgbSock : SOCKET) (flags : UInt32) (s : MainState tgt) : Assertion (Sys tgt) Fds :=
  fun past w => Wired bgbSock s.1 ∧ Owns bgbSock flags s.2 past w

theorem triple_bgbLoopTransfer (mobile : MobileUser tgt) (c : UInt8) :
    Triple (fdEnv tgt) fdGuard (Owns bgbSock flags mobile) (bgbLoopTransfer mobile c)
      fun r => Owns bgbSock flags r.2 := by
  refine triple_bind (triple_ask rfl rfl) ?_
  intro ans
  refine triple_bind (triple_implCalls mobile ans.2) ?_
  intro mobile'
  exact triple_pure fun _ _ h => h

/-- Either timestamp callback. -/
theorem triple_timestamp {callback : MobileUser tgt → UInt32 → Prog (Sys tgt) (MobileUser tgt)}
    (h : callback = bgbLoopTimestamp ∨ callback = bgbLoopTimestampInit) (mobile : MobileUser tgt)
    (ts : UInt32) :
    Triple (fdEnv tgt) fdGuard (Owns bgbSock flags mobile) (callback mobile ts)
      (Owns bgbSock flags) := by
  rcases h with h | h
  · subst h
    unfold bgbLoopTimestamp
    have hdiff : Triple (fdEnv tgt) fdGuard (Owns bgbSock flags mobile)
        (if (ts - mobile.bgbClock) &&& 0x7FFFFFFF > 0x1000 then do
          Sys.diag .emulatorReset
          return { mobile with reset := true }
        else return mobile) (Owns bgbSock flags) := by
      split_ifs
      · refine triple_bind (triple_ask rfl rfl) ?_
        intro u
        exact triple_pure fun _ _ h => h
      · exact triple_pure fun _ _ h => h
    refine triple_bind hdiff ?_
    intro mobile'
    exact triple_pure fun _ _ h => h
  · subst h
    exact triple_pure fun _ _ h => h

/-- How the `switch` of `bgb_loop` ends. -/
def SwitchEnd (bgbSock : SOCKET) (flags : UInt32) (s : MainState tgt) :
    Option (BgbState tgt (MobileUser tgt) × MobileUser tgt × UInt32) → Assertion (Sys tgt) Fds
  | none => Holding bgbSock flags s
  | some (state, mobile, _) => Holding bgbSock flags (state, mobile)

theorem triple_bgbLoopSwitch (s : MainState tgt) (p : BgbPacket) :
    Triple (fdEnv tgt) fdGuard (Holding bgbSock flags s) (bgbLoopSwitch s.1 s.2 p)
      (SwitchEnd bgbSock flags s) := by
  apply triple_of_fact
  intro hwired
  have hsend : ∀ q, Triple (fdEnv tgt) fdGuard (Owns bgbSock flags s.2) (bgbSend s.1.socket q)
      fun _ => Owns bgbSock flags s.2 := by
    intro q
    rw [hwired.socket]
    exact triple_linkOp (linkOp_bgbSend bgbSock q)
  have hsame : ∀ {r}, (r = none ∨ ∃ ts, r = some (s.1, s.2, ts)) →
      Triple (fdEnv tgt) fdGuard (Owns bgbSock flags s.2) (pure r) (SwitchEnd bgbSock flags s) := by
    intro r hr
    apply triple_pure
    intro past w h
    rcases hr with hr | ⟨ts, hr⟩
    · rw [hr]
      exact ⟨hwired, h⟩
    · rw [hr]
      exact ⟨hwired, h⟩
  have hunknown : ∀ msg : Diag, Triple (fdEnv tgt) fdGuard (Owns bgbSock flags s.2)
      (do Sys.diag msg; return none) (SwitchEnd bgbSock flags s) :=
    fun msg => triple_bind (triple_ask rfl rfl) fun _ => hsame (Or.inl rfl)
  unfold bgbLoopSwitch
  split
  · exact hsame (Or.inr ⟨_, rfl⟩)
  · -- a SYNC1: the reply, then the transfer with its callbacks
    refine triple_bind (hsend _) ?_
    intro ok
    split_ifs
    · exact hsame (Or.inl rfl)
    · rw [hwired.transfer]
      refine triple_bind (triple_bgbLoopTransfer s.2 p.b2) ?_
      intro r
      apply triple_pure
      intro past w h
      exact ⟨⟨hwired.socket, rfl, hwired.timestamp⟩, h⟩
  · exact hsame (Or.inr ⟨_, rfl⟩)
  · -- a SYNC3: echoed or not
    split_ifs
    · exact hsame (Or.inr ⟨_, rfl⟩)
    · refine triple_bind (hsend _) ?_
      intro ok
      split_ifs
      · exact hsame (Or.inl rfl)
      · exact hsame (Or.inr ⟨_, rfl⟩)
  · exact hsame (Or.inr ⟨_, rfl⟩)
  · exact hsame (Or.inr ⟨_, rfl⟩)
  · exact hunknown _
  · exact hunknown _

theorem triple_bgbLoopClock (s : MainState tgt) (ts : UInt32) :
    Triple (fdEnv tgt) fdGuard (Holding bgbSock flags s) (bgbLoopClock s.1 s.2 ts)
      (Holding bgbSock flags) := by
  apply triple_of_fact
  intro hwired
  -- the callback is one of the two, and stays the one it is
  obtain ⟨callback, hcallback, hone⟩ : ∃ callback, s.1.callbackTimestamp = some callback ∧
      (callback = bgbLoopTimestamp ∨ callback = bgbLoopTimestampInit) := by
    rcases hwired.timestamp with h | h
    · exact ⟨_, h, Or.inl rfl⟩
    · exact ⟨_, h, Or.inr rfl⟩
  have hinit : Triple (fdEnv tgt) fdGuard (Owns bgbSock flags s.2)
      (bgbLoopClockInit s.1 s.2 callback ts) (Holding bgbSock flags) := by
    unfold bgbLoopClockInit
    split_ifs
    · exact triple_pure fun _ _ h => ⟨hwired, h⟩
    · refine triple_bind (triple_timestamp hone s.2 ts) ?_
      intro mobile
      apply triple_pure
      intro past w h
      exact ⟨⟨hwired.socket, hwired.transfer, hwired.timestamp⟩, h⟩
  have hfollow : ∀ s : MainState tgt, Triple (fdEnv tgt) fdGuard (Holding bgbSock flags s)
      (bgbLoopClockFollow s.1 s.2 callback ts) (Holding bgbSock flags) := by
    intro s
    apply triple_of_fact
    intro hwired
    unfold bgbLoopClockFollow
    dsimp only
    refine triple_bind (R := fun _ => Owns bgbSock flags s.2) ?_ ?_
    · split_ifs
      · exact triple_bind (triple_ask rfl rfl) fun _ => triple_pure fun _ _ h => h
      · exact triple_pure fun _ _ h => h
    intro ts'
    refine triple_bind (R := Owns bgbSock flags) ?_ ?_
    · split_ifs
      · exact triple_timestamp hone s.2 ts'
      · exact triple_pure fun _ _ h => h
    intro mobile
    apply triple_pure
    intro past w h
    exact ⟨⟨hwired.socket, hwired.transfer, hwired.timestamp⟩, h⟩
  unfold bgbLoopClock
  rw [hcallback]
  refine triple_bind hinit ?_
  intro r
  exact hfollow r

/-- **One call of `bgb_loop`.** -/
theorem triple_bgbLoop (s : MainState tgt) :
    Triple (fdEnv tgt) fdGuard (Holding bgbSock flags s) (bgbLoop s.1 s.2)
      fun r => Holding bgbSock flags r.2 := by
  have hlink : ∀ {α : Type} {p : SOCKET → Prog (Sys tgt) α}, (p bgbSock).Uses (LinkOp bgbSock) →
      Triple (fdEnv tgt) fdGuard (Holding bgbSock flags s) (p s.1.socket)
        fun _ => Holding bgbSock flags s := by
    intro α p hp
    apply triple_of_fact
    intro hwired
    rw [hwired.socket]
    exact triple_conseq (triple_linkOp hp) (fun _ _ h => h) fun _ _ _ h => ⟨hwired, h⟩
  unfold bgbLoop
  refine triple_bind (hlink (linkOp_socketHasdata bgbSock)) ?_
  intro rc
  split_ifs
  · exact triple_pure fun _ _ h => h
  refine triple_bind (hlink (linkOp_bgbRecv bgbSock)) ?_
  intro r
  split
  · refine triple_bind (triple_bgbLoopSwitch s _) ?_
    intro r
    cases r with
    | none => exact triple_pure fun _ _ h => h
    | some r =>
      refine triple_bind (triple_bgbLoopClock (r.1, r.2.1) r.2.2) ?_
      intro r'
      exact triple_pure fun _ _ h => h
  · exact triple_pure fun _ _ h => h

/-! ## §3. The loops. -/

/-- How a turn of waiting ends. -/
def WaitEnd (bgbSock : SOCKET) (flags : UInt32) :
    Flow (MainState tgt) (Option (MainState tgt)) → Assertion (Sys tgt) Fds
  | .go s => Holding bgbSock flags s
  | .done (some s) => Holding bgbSock flags s
  | .done none => fun past w => ∃ s : MainState tgt, Holding bgbSock flags s past w

theorem triple_waitBody (s : MainState tgt) :
    Triple (fdEnv tgt) fdGuard (Holding bgbSock flags s) (waitBody s)
      (WaitEnd bgbSock flags) := by
  unfold waitBody
  split_ifs
  · exact triple_pure fun _ _ h => h
  refine triple_bind (triple_bgbLoop s) ?_
  intro r
  dsimp only
  split_ifs
  · exact triple_pure fun _ _ h => ⟨r.2, h⟩
  · exact triple_pure fun _ _ h => h

/-- `socket_wait` on the link and on every slot in use. -/
theorem triple_socketWait (s : SocketImpl tgt) (delay : Int) :
    Triple (fdEnv tgt) fdGuard (Accounted bgbSock flags s) (socketWait (waitSockets bgbSock s) delay)
      fun _ => Accounted bgbSock flags s := by
  have hpoll : Triple (fdEnv tgt) fdGuard (Accounted bgbSock flags s)
      (Sys.poll (waitSockets bgbSock s) delay) fun _ => Accounted bgbSock flags s := by
    intro past w h
    refine ⟨h.table.waitSockets, ?_⟩
    intro rc w₁ hE
    have hE : w₁ = w := hE
    subst hE
    exact h.later (List.forall_mem_singleton.mpr rfl)
  unfold socketWait
  refine triple_bind hpoll ?_
  intro rc
  split_ifs
  · exact triple_bind (triple_ask rfl rfl) fun _ => triple_pure fun _ _ h => h
  · exact triple_pure fun _ _ h => h

/-- How a turn of the main loop ends. -/
def LoopEnd (bgbSock : SOCKET) (flags : UInt32) (fl : Flow (MainState tgt) (MainState tgt)) :
    Assertion (Sys tgt) Fds :=
  Holding bgbSock flags fl.get

theorem triple_loopBody (s : MainState tgt) :
    Triple (fdEnv tgt) fdGuard (Holding bgbSock flags s) (loopBody bgbSock s)
      (LoopEnd bgbSock flags) := by
  have hask : Triple (fdEnv tgt) fdGuard (Holding bgbSock flags s)
      (Sys.signalIntTrig : Prog (Sys tgt) Bool) fun _ => Holding bgbSock flags s := by
    apply triple_of_fact
    intro hwired
    exact triple_conseq (triple_ask rfl rfl) (fun _ _ h => h) fun _ _ _ h => ⟨hwired, h⟩
  unfold loopBody
  refine triple_bind hask ?_
  intro interrupted
  split_ifs
  · exact triple_pure fun _ _ h => h
  refine triple_bind (triple_bgbLoop s) ?_
  intro r
  dsimp only
  split_ifs
  · exact triple_pure fun _ _ h => h
  apply triple_of_fact
  intro hwired
  refine triple_bind (triple_mobileHandleLoop r.2.2) ?_
  intro mobile
  refine triple_bind (triple_socketWait mobile.socket 100) ?_
  intro rc
  exact triple_pure fun _ _ h => ⟨hwired, h⟩

/-! ## §4. The whole of `main`. -/

/-- How a run of `main` leaves the descriptors: on exit only lost ones are open, before that the
    link's, those of a table, and lost ones. -/
def MainLeaves (bgbSock : SOCKET) (flags : UInt32) : MainEnd → Assertion (Sys tgt) Fds
  | .exited => fun past w => ∀ fd, w fd ≠ none → fd ∈ unset past
  | _ => fun past w => ∃ s : SocketImpl tgt, Accounted bgbSock flags s past w

/-- `socket_impl_stop` closes the slots in use and nothing else. -/
theorem exec_socketImplStopLoop {s : SocketImpl tgt} {w w' : Fds} {t : Trace (Sys tgt)}
    {conns : List (Fin tgt.maxConnections)}
    (h : Exec (fdEnv tgt) (socketImplStopLoop s conns) w t () w') :
    ∀ fd, w' fd = if fd ≠ INVALID_SOCKET ∧ ∃ i ∈ conns, s.sockets i = fd then none else w fd := by
  induction conns generalizing w t with
  | nil =>
    obtain ⟨_, _, hw'⟩ := (exec_pure _).mp h
    subst hw'
    intro fd
    simp
  | cons i conns ih =>
    unfold socketImplStopLoop at h
    intro fd
    by_cases hi : s.sockets i ≠ INVALID_SOCKET
    · rw [if_pos hi] at h
      obtain ⟨u, w₁, t₁, hE, _, h⟩ := (exec_ask_bind _).mp h
      have hE : w₁ = Function.update w (s.sockets i) none := hE
      rw [ih h fd, hE]
      by_cases hfd : s.sockets i = fd
      · subst hfd
        simp [hi]
      · have hne : fd ≠ s.sockets i := fun heq => hfd heq.symm
        simp [hfd, Function.update_of_ne hne]
    · rw [if_neg hi] at h
      have hi : s.sockets i = INVALID_SOCKET := not_not.mp hi
      rw [ih h fd]
      refine if_congr ?_ rfl rfl
      constructor
      · rintro ⟨hfd, j, hj, hjf⟩
        exact ⟨hfd, j, List.mem_cons_of_mem i hj, hjf⟩
      · rintro ⟨hfd, j, hj, hjf⟩
        refine ⟨hfd, j, ?_, hjf⟩
        rcases List.mem_cons.mp hj with hj | hj
        · rw [hj, hi] at hjf
          exact absurd hjf.symm hfd
        · exact hj

theorem spares_socketImplStopLoop {s : SocketImpl tgt} {fd : SOCKET} (h : ∀ i, s.sockets i ≠ fd)
    (conns : List (Fin tgt.maxConnections)) : (socketImplStopLoop s conns).Uses (Spares fd) := by
  induction conns with
  | nil => exact Prog.uses_pure _
  | cons i conns ih =>
    unfold socketImplStopLoop
    split_ifs
    · exact Prog.uses_bind (Prog.uses_ask fun hop => h i (SysOp.close.inj hop)) fun _ => ih
    · exact ih

/-- The end of `main`. -/
theorem triple_close (s : SocketImpl tgt) :
    Triple (fdEnv tgt) fdGuard (Accounted bgbSock flags s)
      (do
        socketImplStop s
        Sys.close bgbSock
        return .exited) (MainLeaves bgbSock flags) := by
  intro past w h
  apply wp_bind
  refine wp_of_exec ?_ (wp_socketImplStop h.table)
  intro t u w₁ hx _
  have hw₁ := exec_socketImplStopLoop hx
  have hlink : w₁ bgbSock = some flags := by
    rw [hw₁ bgbSock, if_neg, h.link]
    rintro ⟨hvalid, i, _, hi⟩
    exact h.table.notLink i (by rw [hi]; exact hvalid) hi
  refine ⟨fdGuard_one rfl (by rw [hlink]; exact Option.some_ne_none flags), ?_⟩
  intro u' w₂ hE
  have hE : w₂ = Function.update w₁ bgbSock none := hE
  subst hE
  show ∀ fd, Function.update w₁ bgbSock none fd ≠ none →
    fd ∈ unset (past ++ (t ++ [⟨.close bgbSock, u'⟩]))
  intro fd hfd
  by_cases hfdlink : fd = bgbSock
  · rw [hfdlink, Function.update_self] at hfd
    exact absurd rfl hfd
  · rw [Function.update_of_ne hfdlink, hw₁ fd] at hfd
    split_ifs at hfd with hslot
    · exact absurd rfl hfd
    have hfree : ∀ i, s.sockets i ≠ fd := by
      intro i hi
      refine hslot ⟨?_, i, List.mem_finRange i, hi⟩
      intro hinv
      rw [hinv, h.valid] at hfd
      exact hfd rfl
    rcases h.owned fd hfd with hown | ⟨i, hi⟩ | hown
    · exact absurd hown hfdlink
    · exact absurd hi (hfree i)
    · -- lost before, and not closed here: it is in no slot
      refine unset_append hown (Unclosed.append ?_ ?_)
      · exact unclosed_of_uses (spares_socketImplStopLoop hfree _) hx
      · exact (unclosed_nil fd).cons (closes_spared fun hop => hfdlink (SysOp.close.inj hop).symm)

theorem triple_mainProg (n m : Nat) :
    Triple (fdEnv tgt) fdGuard (Accounted bgbSock flags socketImplInit) (mainProg bgbSock n m)
      (MainLeaves bgbSock flags) := by
  -- as long as `main` has not come to its end
  have hstay : ∀ {e : MainEnd} {past : Trace (Sys tgt)} {w : Fds} {s : SocketImpl tgt},
      e ≠ .exited → Accounted bgbSock flags s past w → MainLeaves bgbSock flags e past w := by
    intro e past w s he h
    cases e with
    | exited => exact absurd rfl he
    | _ => exact ⟨s, h⟩
  have hinit : Triple (fdEnv tgt) fdGuard (Accounted bgbSock flags socketImplInit)
      (mainInit bgbSock : Prog (Sys tgt) _) fun r past w =>
        waitStart r.2 = waitState tgt bgbSock ∧ Accounted bgbSock flags socketImplInit past w := by
    intro past w h
    refine wp_of_exec ?_ (triple_linkOp (linkOp_mainInit bgbSock) past w h)
    intro t r w' hx hpost
    obtain ⟨ok, state⟩ := r
    exact ⟨(mainInit_state hx).1, hpost⟩
  unfold mainProg
  refine triple_bind hinit ?_
  intro r
  apply triple_of_fact
  intro hstart
  dsimp only
  split_ifs
  · exact triple_pure fun _ _ h => hstay (fun he => nomatch he) h
  have hwired : Wired bgbSock (waitStart r.2).1 := by
    rw [hstart]
    exact ⟨rfl, rfl, Or.inr rfl⟩
  have hwait : Triple (fdEnv tgt) fdGuard (Accounted bgbSock flags socketImplInit)
      (loop waitBody n (waitStart r.2)) (WaitEnd bgbSock flags) :=
    triple_conseq (triple_loop triple_waitBody n (waitStart r.2)) (fun _ _ h => ⟨hwired, h⟩)
      fun _ _ _ h => h
  refine triple_bind hwait ?_
  intro fl
  split
  · exact triple_pure fun _ _ h => hstay (fun he => nomatch he) h.2
  · apply triple_pure
    rintro past w ⟨s, h⟩
    exact hstay (fun he => nomatch he) h.2
  · -- the main loop
    next state mobile =>
    apply triple_of_fact
    intro hwired
    refine triple_bind (triple_mobileStart mobile) ?_
    intro mobile₁
    have hloop : Triple (fdEnv tgt) fdGuard (Owns bgbSock flags mobile₁)
        (loop (loopBody bgbSock) m (loopStart state mobile₁)) (LoopEnd bgbSock flags) :=
      triple_conseq (triple_loop triple_loopBody m (loopStart state mobile₁))
        (fun _ _ h => ⟨⟨hwired.socket, hwired.transfer, Or.inl rfl⟩, h⟩) fun _ _ _ h => h
    refine triple_bind hloop ?_
    intro fl
    split
    · exact triple_pure fun _ _ h => hstay (fun he => nomatch he) h.2
    · next state₂ mobile₂ =>
      refine triple_bind (triple_conseq (triple_mobileStop mobile₂) (fun _ _ h => h.2)
        fun _ _ _ h => h) ?_
      intro mobile₃
      exact triple_close mobile₃.socket

/-! ## §5. Runs that fail. -/

section Failed

variable {σ : Type} {E : Env (Sys tgt) σ} {w w' : σ} {t : Trace (Sys tgt)}

/-- The `switch` fails before it calls libmobile. -/
theorem exec_bgbLoopSwitch_none {s : MainState tgt} {p : BgbPacket}
    (h : Exec E (bgbLoopSwitch s.1 s.2 p) w t none w') : ∀ e ∈ t, LinkOp s.1.socket e.op := by
  have hdone : ∀ {r : BgbState tgt (MobileUser tgt) × MobileUser tgt × UInt32}
      {t₁ : Trace (Sys tgt)} {w₁ : σ}, Exec E (pure (some r)) w₁ t₁ none w' →
      ∀ e ∈ t, LinkOp s.1.socket e.op := by
    intro r t₁ w₁ h
    obtain ⟨_, hr, _⟩ := (exec_pure E).mp h
    cases hr
  -- a packet sent, then a failure
  have hsend : ∀ {q t₁ t₂ ok w₁}, Exec E (bgbSend s.1.socket q) w t₁ ok w₁ → t₂ = [] →
      ∀ e ∈ t₁ ++ t₂, LinkOp s.1.socket e.op := by
    intro q t₁ t₂ ok w₁ hx ht₂
    subst ht₂
    rw [List.append_nil]
    exact Exec.uses (linkOp_bgbSend s.1.socket q) hx
  unfold bgbLoopSwitch at h
  split at h
  · exact hdone h
  · rw [exec_bind] at h
    obtain ⟨t₁, ok, w₁, t₂, hx, h, ht⟩ := h
    split_ifs at h
    · rw [ht]
      exact hsend hx ((exec_pure E).mp h).1
    · split at h
      · exact hdone h
      · rw [exec_bind] at h
        obtain ⟨t₃, r, w₂, t₄, _, h, _⟩ := h
        exact hdone h
  · exact hdone h
  · split_ifs at h
    · exact hdone h
    · rw [exec_bind] at h
      obtain ⟨t₁, ok, w₁, t₂, hx, h, ht⟩ := h
      split_ifs at h
      · rw [ht]
        exact hsend hx ((exec_pure E).mp h).1
      · exact hdone h
  · exact hdone h
  · exact hdone h
  · exact Exec.uses (linkOp_diag _ _ _) h
  · exact Exec.uses (linkOp_diag _ _ _) h

/-- A call of `bgb_loop` that fails, or reads nothing, uses the link alone. -/
theorem exec_bgbLoop_link {s s' : MainState tgt} {ok : Bool}
    (h : Exec E (bgbLoop s.1 s.2) w t (ok, s') w') (hok : ok = false ∨ obsOf t = []) :
    ∀ e ∈ t, LinkOp s.1.socket e.op := by
  unfold bgbLoop at h
  rw [exec_bind] at h
  obtain ⟨t₁, rc, w₁, t₂, hpoll, h, ht⟩ := h
  have h₁ := Exec.uses (linkOp_socketHasdata s.1.socket) hpoll
  subst ht
  by_cases hrc : rc ≤ 0
  · rw [if_pos hrc] at h
    rw [((exec_pure E).mp h).1, List.append_nil]
    exact h₁
  rw [if_neg hrc] at h
  rw [exec_bind] at h
  obtain ⟨t₃, r, w₂, t₄, hrecv, h, ht₂⟩ := h
  have h₃ := Exec.uses (linkOp_bgbRecv s.1.socket) hrecv
  subst ht₂
  rcases exec_bgbRecv hrecv with ⟨hr, _⟩ | ⟨p, hr, hobs, _⟩
  · subst hr
    rw [((exec_pure E).mp h).1, List.append_nil]
    exact List.forall_mem_append.mpr ⟨h₁, h₃⟩
  · subst hr
    rw [exec_bind] at h
    obtain ⟨t₅, r, w₃, t₆, hswitch, h, ht₄⟩ := h
    subst ht₄
    cases r with
    | none =>
      have h₅ := exec_bgbLoopSwitch_none hswitch
      rw [((exec_pure E).mp h).1, List.append_nil]
      exact List.forall_mem_append.mpr ⟨h₁, List.forall_mem_append.mpr ⟨h₃, h₅⟩⟩
    | some r =>
      -- a packet was read and handled
      rw [exec_bind] at h
      obtain ⟨t₇, r', w₄, t₈, _, h, _⟩ := h
      obtain ⟨_, hr, _⟩ := (exec_pure E).mp h
      rcases hok with hok | hok
      · rw [hok] at hr
        cases hr
      · rw [obsOf_append, obsOf_append, hobs] at hok
        simp at hok

/-- `main` that gives up waiting has used the link alone: no packet was handled. -/
theorem rounds_wait_none {s : MainState tgt} {ws : List (WaitRound tgt)}
    {fl : Flow (MainState tgt) (Option (MainState tgt))} (hs : s = waitState tgt bgbSock)
    (hfl : fl = .done none) (h : Rounds E waitBody s w ws fl w') :
    ∀ e ∈ traceOf ws, LinkOp bgbSock e.op := by
  -- induction on the rounds; after a packet the loop is left the other way
  induction h with
  | stop s w => cases hfl
  | @go s s₁ w w₁ w' t ws fl hx hr ih =>
    subst hs
    rw [traceOf_cons]
    rcases exec_waitBody_call rfl hx with ⟨hgo, _⟩ | ⟨s', hgo, hloop⟩
    · cases hgo
    · injection hgo with hgo
      subst hgo
      rcases exec_bgbLoop_waiting hloop with ⟨ho, hs⟩ | ⟨p, _, _, hfirst⟩
      · exact List.forall_mem_append.mpr ⟨exec_bgbLoop_link hloop (Or.inr ho), ih hs hfl⟩
      · have hinit : s₁.2.bgbClockInit = true := congrArg Core.bgbClockInit hfirst.core
        rcases (rounds_wait_init hinit hr).2 with hgo | hdone
        · rw [hgo] at hfl
          cases hfl
        · rw [hdone] at hfl
          cases hfl
  | done hx =>
    subst hs
    rw [traceOf_singleton]
    rcases exec_waitBody_call rfl hx with ⟨_, hloop⟩ | ⟨s', hgo, _⟩
    · exact exec_bgbLoop_link hloop (Or.inl rfl)
    · cases hgo

/-- **A failed run uses the link alone**: it ends before the first call into libmobile. -/
theorem exec_mainProg_error {n m : Nat} (h : Exec E (mainProg bgbSock n m) w t .error w') :
    ∀ e ∈ t, LinkOp bgbSock e.op := by
  -- every other way out returns something else
  have hother : ∀ {e : MainEnd} {t₁ w₁}, e ≠ .error → ¬ Exec E (pure e) w₁ t₁ .error w' := by
    intro e t₁ w₁ he h
    exact he ((exec_pure E).mp h).2.1.symm
  unfold mainProg at h
  rw [exec_bind] at h
  obtain ⟨t₁, ⟨ok, state⟩, w₁, t₂, hinit, h, ht⟩ := h
  have h₁ := Exec.uses (linkOp_mainInit bgbSock) hinit
  subst ht
  dsimp only at h
  cases ok with
  | false =>
    rw [if_pos (by decide)] at h
    rw [((exec_pure E).mp h).1, List.append_nil]
    exact h₁
  | true =>
    rw [if_neg (by decide)] at h
    rw [exec_bind] at h
    obtain ⟨t₃, fl, w₂, t₄, hwait, h, ht₂⟩ := h
    obtain ⟨ws, hws, ht₃⟩ := exec_loop hwait
    subst ht₂ ht₃
    split at h
    · exact absurd h (hother fun he => nomatch he)
    · have hstart := (mainInit_state hinit).1
      rw [((exec_pure E).mp h).1, List.append_nil]
      exact List.forall_mem_append.mpr ⟨h₁, rounds_wait_none hstart rfl hws⟩
    · rw [exec_bind] at h
      obtain ⟨_, mobile, _, _, _, h, _⟩ := h
      rw [exec_bind] at h
      obtain ⟨_, fl, _, _, _, h, _⟩ := h
      split at h
      · exact absurd h (hother fun he => nomatch he)
      · rw [exec_bind] at h
        obtain ⟨_, _, _, _, _, h, _⟩ := h
        rw [exec_bind] at h
        obtain ⟨_, _, _, _, _, h, _⟩ := h
        rw [exec_ask_bind] at h
        obtain ⟨_, _, _, _, _, h⟩ := h
        exact absurd h (hother fun he => nomatch he)

end Failed

/-! ## §6. The descriptors of a run. -/

/-- The descriptors of a run before it starts: the link's, in the mode it comes in. -/
def onlyLink (bgbSock : SOCKET) (flags : UInt32) : Fds :=
  fun fd => if fd = bgbSock then some flags else none

theorem accounted_onlyLink (hsock : bgbSock ≠ INVALID_SOCKET) :
    Accounted bgbSock flags (socketImplInit : SocketImpl tgt) [] (onlyLink bgbSock flags) where
  table := tableInv_init (by simp [onlyLink])
  link := if_pos rfl
  valid := if_neg hsock.symm
  owned := by
    intro fd hfd
    left
    by_contra hne
    exact hfd (if_neg hne)

/-- **The descriptors of a whole run.**  However the run stands, and whatever libmobile, the
    emulator and the system did in it: every descriptor it used was the link's, or one it had been
    given and had not closed; no other descriptor of the process has changed.  On exit every
    descriptor it was given is closed, the link's too, except accepted ones that an `fcntl` failed
    on; before that the link's is open in the mode it came in, and whatever else is open is in
    non-blocking mode in a table of `MOBILE_MAX_CONNECTIONS` slots, or lost in the same way. -/
theorem main_descriptors {n m : Nat} {e : MainEnd} {w w' : Fds} {t : Trace (Sys tgt)}
    (hsock : bgbSock ≠ INVALID_SOCKET) (hlink : w bgbSock = some flags)
    (h : Exec (fdEnv tgt) (mainProg bgbSock n m) w t e w') :
    (∀ pre ev post, t = pre ++ ev :: post →
      ∀ fd ∈ fdsOf ev.op, fd ∈ pre.foldl fdStep {bgbSock}) ∧
    (∀ fd, fd ≠ bgbSock → w fd ≠ none → w' fd = w fd) ∧
    (e = .exited → ∀ fd, w' fd ≠ none → (fd ≠ bgbSock ∧ w fd ≠ none) ∨ fd ∈ unset t) ∧
    (e ≠ .exited → w' bgbSock = some flags ∧
      ∃ s : SocketImpl tgt, (∀ i, s.sockets i ≠ INVALID_SOCKET → Nonblocking w' (s.sockets i)) ∧
        ∀ fd, w' fd ≠ none → w fd ≠ none ∨ (∃ i, s.sockets i = fd) ∨ fd ∈ unset t) := by
  -- the rest of the process
  have hbeside : Beside (Function.update w bgbSock none) (onlyLink bgbSock flags) w := by
    constructor
    · intro fd hfd
      have heq : fd = bgbSock := by
        by_contra hne
        exact hfd (if_neg hne)
      rw [heq, Function.update_self]
    · intro fd
      unfold onlyLink
      by_cases heq : fd = bgbSock
      · rw [if_pos heq, heq, hlink]
        rfl
      · rw [if_neg heq, Function.update_of_ne heq]
        rfl
  obtain ⟨v', hx, hbeside', hend⟩ :=
    wp_framed fdEnv_local (triple_mainProg n m [] _ (accounted_onlyLink hsock)) hbeside h
  have hopen : openFds (onlyLink bgbSock flags) = {bgbSock} := by
    ext fd
    simp [openFds, onlyLink]
  -- what is open now belongs to the rest of the process, or is open in the small world
  have hwhose : ∀ fd, w' fd ≠ none → (fd ≠ bgbSock ∧ w fd ≠ none) ∨ v' fd ≠ none := by
    intro fd hfd
    by_cases hv : v' fd = none
    · left
      rw [hbeside'.all fd, hv, Option.none_or] at hfd
      have hne : fd ≠ bgbSock := by
        intro heq
        rw [heq, Function.update_self] at hfd
        exact hfd rfl
      rw [Function.update_of_ne hne] at hfd
      exact ⟨hne, hfd⟩
    · exact Or.inr hv
  refine ⟨?_, ?_, ?_, ?_⟩
  · intro pre ev post ht fd hfd
    have hev := fdGuard_event hx pre ev post ht fd hfd
    rw [hopen] at hev
    exact hev
  · intro fd hne hfd
    have hforeign : Function.update w bgbSock none fd = w fd := Function.update_of_ne hne _ _
    have hv : v' fd = none := by
      by_contra hv
      rw [hbeside'.apart fd hv] at hforeign
      exact hfd hforeign.symm
    rw [hbeside'.all fd, hv, hforeign]
    rfl
  · intro he fd hfd
    subst he
    rcases hwhose fd hfd with hfd | hfd
    · exact Or.inl hfd
    · exact Or.inr (hend fd hfd)
  · intro he
    obtain ⟨s, hs⟩ : ∃ s : SocketImpl tgt, Accounted bgbSock flags s t v' := by
      cases e with
      | exited => exact absurd rfl he
      | _ => exact hend
    have hmine : ∀ {fd}, v' fd ≠ none → w' fd = v' fd := fun hv => hbeside'.mine hv
    refine ⟨?_, s, ?_, ?_⟩
    · rw [hmine hs.table.link, hs.link]
    · intro i hi
      obtain ⟨flags', hflags', hset⟩ := hs.table.nonblocking i hi
      exact ⟨flags', (hmine (hs.table.isOpen hi)).trans hflags', hset⟩
    · intro fd hfd
      rcases hwhose fd hfd with ⟨_, hfd⟩ | hfd
      · exact Or.inl hfd
      · rcases hs.owned fd hfd with hown | hown | hown
        · rw [hown, hlink]
          exact Or.inl (Option.some_ne_none flags)
        · exact Or.inr (Or.inl hown)
        · exact Or.inr (Or.inr hown)

/-- A script and the system's descriptors: libmobile opens its first connection when a byte is
    transferred, and the user interrupts once the emulator has nothing more to send. -/
def scriptServe (c : Script × Fds) : (op : SysOp host) → op.Ans × Script × Fds
  | .mobileTransfer b =>
      let r := c.1.serve (.mobileTransfer b : SysOp host)
      ((r.1.1, [.sock (.sockOpen firstConn .tcp .ipv4 1027)]), r.2, c.2)
  | .signalIntTrig => (decide (c.1.rx = []), c)
  | .poll fds timeout =>
      let r := c.1.serve (.poll fds timeout : SysOp host)
      (r.1, r.2, c.2)
  | .send fd data =>
      let r := c.1.serve (.send fd data : SysOp host)
      (r.1, r.2, c.2)
  | .recv fd size =>
      let r := c.1.serve (.recv fd size : SysOp host)
      (r.1, r.2, c.2)
  | op => ((fdServe c.2 op).1, c.1, (fdServe c.2 op).2)

theorem scriptServe_fds (c : Script × Fds) (op : SysOp host) (hop : assertHolds op = true) :
    fdEnv host c.2 op (scriptServe c op).1 (scriptServe c op).2.2 := by
  cases op with
  | mobileTransfer b => rfl
  | signalIntTrig => rfl
  | poll fds timeout => rfl
  | send fd data => rfl
  | recv fd size => rfl
  | _ => exact fdEnv_serve c.2 _ hop

/-- The emulator sends a SYNC3, then a SYNC1; descriptor 2 is open beside the link's, which is 3. -/
def syncedTransfer : Script × Fds :=
  (⟨[handshake, ⟨108, 5, 0, 0, 0⟩, ⟨106, 1, 0, 0, 5⟩,
      ⟨104, 0x99, 0x81, 0, 6⟩].flatMap (BgbPacket.toBytes .little), [0x88], []⟩,
    Function.update (onlyLink 3 2) 2 (some 1))

def openOnTransfer : Trace (Sys host) × MainEnd × Script × Fds :=
  (mainProg 3 4 4).run scriptServe syncedTransfer

/-- Descriptor 4 was handed out once; at the end only 2 is open. -/
theorem main_descriptors_openOnTransfer :
    openOnTransfer.2.1 = .exited ∧ openOnTransfer.1.countP (hands 4) = 1 ∧
      ∀ fd, openOnTransfer.2.2.2 fd ≠ none →
        (fd ≠ 3 ∧ syncedTransfer.2 fd ≠ none) ∨ fd ∈ unset openOnTransfer.1 := by
  have hok : ∀ e ∈ openOnTransfer.1, assertHolds e.op = true := by
    have hall : openOnTransfer.1.all (fun e => assertHolds e.op) = true := by decide +kernel
    exact List.all_eq_true.mp hall
  have hrun : Exec (fun c op x c' => fdEnv host c.2 op x c'.2) (mainProg 3 4 4) syncedTransfer
      openOnTransfer.1 openOnTransfer.2.1 openOnTransfer.2.2 := by
    apply exec_run_of scriptServe_fds
    exact hok
  have hfds : Exec (fdEnv host) (mainProg 3 4 4) syncedTransfer.2 openOnTransfer.1
      openOnTransfer.2.1 openOnTransfer.2.2.2 :=
    hrun.project Prod.snd fun _ _ _ _ hE => hE
  have hexit : openOnTransfer.2.1 = .exited := by decide +kernel
  have hlink : syncedTransfer.2 3 = some 2 := by decide
  refine ⟨hexit, by decide +kernel, ?_⟩
  exact (main_descriptors (by decide) hlink hfds).2.2.1 hexit

end MobileBgb.Main
