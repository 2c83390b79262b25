/-
  MobileBgb.Socket.Descriptors — open descriptors, and the invariant of the table.

  The system's side is `fdEnv`: it knows which descriptors are open and with
  which status flags, `socket` and `accept` hand out a number that is NOT open
  (numbers of closed descriptors come back), every call may fail, and a failed
  `assert` ends the run.

  `TableInv` is the invariant of the table: the slots in use hold open
  descriptors in non-blocking mode, no two of them the same, none of them the
  link's.  `net` counts what a trace takes from the system and gives back.  The
  helpers below the calls are specified here; the calls and the runs are in
  `MobileBgb.Socket.Table`.
-/
import MobileBgb.Effect.Wp
import MobileBgb.Socket.SocketImpl

namespace MobileBgb.Socket

open MobileBgb.Effect
open MobileBgb.System

variable {tgt : Target}

/-! ## §1. The system's descriptors. -/

/-- The status flags of every open descriptor. -/
abbrev Fds := SOCKET → Option UInt32

/-- The open descriptors. -/
def openFds (w : Fds) : Set SOCKET := {fd | w fd ≠ none}

/-- The system: see the head of this file. -/
def fdEnv (tgt : Target) : Env (Sys tgt) Fds := fun w op ans w' =>
  match op, ans with
  | .socket _ _, fd =>
      (fd = INVALID_SOCKET ∧ w' = w) ∨
        (fd ≠ INVALID_SOCKET ∧ w fd = none ∧ ∃ flags, w' = Function.update w fd (some flags))
  | .accept _, fd =>
      (fd = INVALID_SOCKET ∧ w' = w) ∨
        (fd ≠ INVALID_SOCKET ∧ w fd = none ∧ ∃ flags, w' = Function.update w fd (some flags))
  | .close fd, _ => w' = Function.update w fd none
  | .fcntlGetfl fd, ans => (∀ flags, ans = some flags → w fd = some flags) ∧ w' = w
  | .fcntlSetfl fd flags, rc =>
      (rc = -1 ∧ w' = w) ∨ (rc ≠ -1 ∧ w fd ≠ none ∧ w' = Function.update w fd (some flags))
  | .assert ok, _ => ok = true ∧ w' = w
  | _, _ => w' = w

/-- The descriptors a request is about. -/
def fdsOf : SysOp tgt → List SOCKET
  | .poll fds _ => fds
  | .fcntlGetfl fd => [fd]
  | .fcntlSetfl fd _ => [fd]
  | .setsockopt fd _ => [fd]
  | .getsockoptType fd => [fd]
  | .bind fd _ => [fd]
  | .connect fd _ => [fd]
  | .listen fd _ => [fd]
  | .accept fd => [fd]
  | .close fd => [fd]
  | .send fd _ => [fd]
  | .recv fd _ => [fd]
  | .sendto fd _ _ => [fd]
  | .recvfrom fd _ _ => [fd]
  | _ => []

/-- A request about open descriptors only. -/
def UsesOpen (O : Set SOCKET) (op : SysOp tgt) : Prop := ∀ fd ∈ fdsOf op, fd ∈ O

/-- The open descriptors after an event. -/
def fdStep (O : Set SOCKET) : Event (Sys tgt) → Set SOCKET
  | ⟨.socket _ _, fd⟩ => if (fd : SOCKET) = INVALID_SOCKET then O else insert fd O
  | ⟨.accept _, fd⟩ => if (fd : SOCKET) = INVALID_SOCKET then O else insert fd O
  | ⟨.close fd, _⟩ => O \ {fd}
  | _ => O

theorem openFds_update_some (w : Fds) (fd : SOCKET) (flags : UInt32) :
    openFds (Function.update w fd (some flags)) = insert fd (openFds w) := by
  ext fd'
  by_cases h : fd' = fd
  · subst h
    simp [openFds]
  · simp [openFds, h]

theorem openFds_update_none (w : Fds) (fd : SOCKET) :
    openFds (Function.update w fd none) = openFds w \ {fd} := by
  ext fd'
  by_cases h : fd' = fd
  · subst h
    simp [openFds]
  · simp [openFds, h]

/-- The trace tells which descriptors are open. -/
theorem openFds_step (w : Fds) (op : SysOp tgt) (ans : op.Ans) (w' : Fds)
    (h : fdEnv tgt w op ans w') :
    openFds w' = fdStep (openFds w) (⟨op, ans⟩ : Event (Sys tgt)) := by
  -- `socket` and `accept` hand out alike
  have hnew : ∀ fd : SOCKET, ((fd = INVALID_SOCKET ∧ w' = w) ∨ (fd ≠ INVALID_SOCKET ∧ w fd = none ∧
      ∃ flags, w' = Function.update w fd (some flags))) →
      openFds w' = if fd = INVALID_SOCKET then openFds w else insert fd (openFds w) := by
    intro fd h
    rcases h with ⟨hfd, hw⟩ | ⟨hfd, _, flags, hw⟩
    · rw [if_pos hfd, hw]
    · rw [if_neg hfd, hw, openFds_update_some]
  cases op with
  | socket family type => exact hnew ans h
  | accept fd => exact hnew ans h
  | close fd =>
    have h : w' = Function.update w fd none := h
    rw [h, openFds_update_none]
    rfl
  | fcntlGetfl fd =>
    rw [h.2]
    rfl
  | fcntlSetfl fd flags =>
    rcases h with ⟨_, hw⟩ | ⟨_, hopen, hw⟩
    · rw [hw]
      rfl
    · rw [hw, openFds_update_some]
      exact Set.insert_eq_of_mem hopen
  | assert ok =>
    rw [h.2]
    rfl
  | _ =>
    have h : w' = w := h
    rw [h]
    rfl

/-! ## §2. Taking and giving back. -/

/-- Did this event hand out `fd`? -/
def hands (fd : SOCKET) : Event (Sys tgt) → Bool
  | ⟨.socket _ _, ans⟩ => (ans : SOCKET) == fd
  | ⟨.accept _, ans⟩ => (ans : SOCKET) == fd
  | _ => false

/-- Did this event close `fd`? -/
def closes (fd : SOCKET) : Event (Sys tgt) → Bool
  | ⟨.close fd', _⟩ => fd' == fd
  | _ => false

/-- How often a trace hands out `fd`, less how often it closes it. -/
def net (fd : SOCKET) (t : Trace (Sys tgt)) : Int := t.countP (hands fd) - t.countP (closes fd)

@[simp] theorem net_nil (fd : SOCKET) : net fd ([] : Trace (Sys tgt)) = 0 := rfl

@[simp] theorem net_append (fd : SOCKET) (t₁ t₂ : Trace (Sys tgt)) :
    net fd (t₁ ++ t₂) = net fd t₁ + net fd t₂ := by
  unfold net
  rw [List.countP_append, List.countP_append]
  omega

theorem net_cons (fd : SOCKET) (e : Event (Sys tgt)) (t : Trace (Sys tgt)) :
    net fd (e :: t) = (if hands fd e then 1 else 0) - (if closes fd e then 1 else 0) + net fd t := by
  unfold net
  rw [List.countP_cons, List.countP_cons]
  split_ifs <;> omega

@[simp] theorem net_socket (fd : SOCKET) (family : SockFamily) (type : SockType) (sock : SOCKET)
    (t : Trace (Sys tgt)) :
    net fd ((⟨.socket family type, sock⟩ : Event (Sys tgt)) :: t)
      = (if sock = fd then 1 else 0) + net fd t := by
  rw [net_cons]
  show (if (sock == fd) = true then (1 : Int) else 0) - 0 + net fd t = _
  simp

@[simp] theorem net_accept (fd fd' sock : SOCKET) (t : Trace (Sys tgt)) :
    net fd ((⟨.accept fd', sock⟩ : Event (Sys tgt)) :: t)
      = (if sock = fd then 1 else 0) + net fd t := by
  rw [net_cons]
  show (if (sock == fd) = true then (1 : Int) else 0) - 0 + net fd t = _
  simp

@[simp] theorem net_close (fd sock : SOCKET) (u : Unit) (t : Trace (Sys tgt)) :
    net fd ((⟨.close sock, u⟩ : Event (Sys tgt)) :: t)
      = -(if sock = fd then 1 else 0) + net fd t := by
  rw [net_cons]
  show (0 : Int) - (if (sock == fd) = true then 1 else 0) + net fd t = _
  simp

@[simp] theorem net_assert (fd : SOCKET) (ok : Bool) (u : Unit) (t : Trace (Sys tgt)) :
    net fd ((⟨.assert ok, u⟩ : Event (Sys tgt)) :: t) = net fd t := by
  rw [net_cons]
  show (0 : Int) - 0 + net fd t = _
  simp

@[simp] theorem net_diag (fd : SOCKET) (msg : Diag) (u : Unit) (t : Trace (Sys tgt)) :
    net fd ((⟨.diag msg, u⟩ : Event (Sys tgt)) :: t) = net fd t := by
  rw [net_cons]
  show (0 : Int) - 0 + net fd t = _
  simp

/-- An `fcntl` that failed. -/
def fcntlFailed : Event (Sys tgt) → Bool
  | ⟨.fcntlGetfl _, ans⟩ => (ans : Option UInt32).isNone
  | ⟨.fcntlSetfl _ _, rc⟩ => (rc : Int) == -1
  | _ => false

/-- An `accept` that handed out a descriptor. -/
def acceptGave : Event (Sys tgt) → Bool
  | ⟨.accept _, ans⟩ => (ans : SOCKET) != INVALID_SOCKET
  | _ => false

/-- In these events an `accept` handed out a descriptor and an `fcntl` failed. -/
def acceptUnset (t : Trace (Sys tgt)) : Bool := t.any acceptGave && t.any fcntlFailed

/-! ## §3. The invariant. -/

/-- An open descriptor in non-blocking mode. -/
def Nonblocking (w : Fds) (fd : SOCKET) : Prop :=
  ∃ flags, w fd = some flags ∧ flags &&& O_NONBLOCK ≠ 0

/-- The invariant of the table, with `bgbSock` the link's descriptor. -/
structure TableInv (bgbSock : SOCKET) (s : SocketImpl tgt) (w : Fds) : Prop where
  nonblocking : ∀ i, s.sockets i ≠ INVALID_SOCKET → Nonblocking w (s.sockets i)
  injective : ∀ i j, s.sockets i = s.sockets j → s.sockets i ≠ INVALID_SOCKET → i = j
  link : w bgbSock ≠ none
  notLink : ∀ i, s.sockets i ≠ INVALID_SOCKET → s.sockets i ≠ bgbSock

/-- Is `fd` in the table? -/
def inTable (s : SocketImpl tgt) (fd : SOCKET) : Int := if ∃ i, s.sockets i = fd then 1 else 0

variable {bgbSock : SOCKET} {s : SocketImpl tgt} {w w' : Fds}

theorem tableInv_init (h : w bgbSock ≠ none) : TableInv bgbSock (socketImplInit : SocketImpl tgt) w where
  nonblocking := fun _ hi => absurd rfl hi
  injective := fun _ _ _ hi => absurd rfl hi
  link := h
  notLink := fun _ hi => absurd rfl hi

theorem Nonblocking.isOpen {fd : SOCKET} (h : Nonblocking w fd) : w fd ≠ none := by
  obtain ⟨flags, hfd, _⟩ := h
  rw [hfd]
  exact Option.some_ne_none flags

theorem TableInv.isOpen (h : TableInv bgbSock s w) {i : Fin tgt.maxConnections}
    (hi : s.sockets i ≠ INVALID_SOCKET) : w (s.sockets i) ≠ none :=
  (h.nonblocking i hi).isOpen

/-- The invariant looks at open descriptors only. -/
theorem TableInv.congr (h : TableInv bgbSock s w) (hw : ∀ fd, w fd ≠ none → w' fd = w fd) :
    TableInv bgbSock s w' where
  nonblocking := by
    intro i hi
    unfold Nonblocking
    rw [hw _ (h.isOpen hi)]
    exact h.nonblocking i hi
  injective := h.injective
  link := by
    rw [hw _ h.link]
    exact h.link
  notLink := h.notLink

/-- A slot may be filled with a new descriptor, or emptied, once its old one is gone. -/
theorem TableInv.set (h : TableInv bgbSock s w) {conn : Fin tgt.maxConnections} {sock : SOCKET}
    (hold : ∀ fd, w fd ≠ none → fd ≠ s.sockets conn ∨ s.sockets conn = INVALID_SOCKET →
      w' fd = w fd)
    (hsock : sock = INVALID_SOCKET ∨ (w sock = none ∧ Nonblocking w' sock)) :
    TableInv bgbSock (s.set conn sock) w' := by
  -- the other slots: their descriptors are not the old one of this slot
  have hother : ∀ i, i ≠ conn → s.sockets i ≠ INVALID_SOCKET →
      w' (s.sockets i) = w (s.sockets i) := by
    intro i hne hi
    apply hold _ (h.isOpen hi)
    left
    intro heq
    exact hne (h.injective i conn heq hi)
  have hnew : sock ≠ INVALID_SOCKET → ∀ fd, w fd ≠ none → fd ≠ sock := by
    intro hs fd hfd heq
    rcases hsock with hs' | ⟨hs', _⟩
    · exact hs hs'
    · rw [heq] at hfd
      exact hfd hs'
  constructor
  · intro i hi
    by_cases hc : i = conn
    · subst hc
      rw [SocketImpl.set_self] at hi ⊢
      rcases hsock with hs | ⟨_, hs⟩
      · exact absurd hs hi
      · exact hs
    · rw [SocketImpl.set_other _ _ hc] at hi ⊢
      unfold Nonblocking
      rw [hother i hc hi]
      exact h.nonblocking i hi
  · -- a new descriptor differs from every one that was open, so no two slots share it
    intro i j hij hi
    by_cases hci : i = conn <;> by_cases hcj : j = conn
    · rw [hci, hcj]
    · subst hci
      rw [SocketImpl.set_self] at hij hi
      rw [SocketImpl.set_other _ _ hcj] at hij
      rw [hij] at hi
      exact absurd hij.symm (hnew (by rw [hij]; exact hi) _ (h.isOpen hi))
    · subst hcj
      rw [SocketImpl.set_self] at hij
      rw [SocketImpl.set_other _ _ hci] at hij hi
      exact absurd hij (hnew (by rw [← hij]; exact hi) _ (h.isOpen hi))
    · rw [SocketImpl.set_other _ _ hci] at hij hi
      rw [SocketImpl.set_other _ _ hcj] at hij
      exact h.injective i j hij hi
  · have hlink : w' bgbSock = w bgbSock := by
      apply hold _ h.link
      by_cases hc : s.sockets conn = INVALID_SOCKET
      · exact Or.inr hc
      · exact Or.inl (Ne.symm (h.notLink conn hc))
    rw [hlink]
    exact h.link
  · intro i hi
    by_cases hc : i = conn
    · subst hc
      rw [SocketImpl.set_self] at hi ⊢
      exact Ne.symm (hnew hi bgbSock h.link)
    · rw [SocketImpl.set_other _ _ hc] at hi ⊢
      exact h.notLink i hi

/-- What the table holds once a slot was set: the slot's new descriptor and the other slots'. -/
theorem SocketImpl.exists_set {conn : Fin tgt.maxConnections} {sock fd : SOCKET} :
    (∃ i, (s.set conn sock).sockets i = fd) ↔ sock = fd ∨ ∃ i, i ≠ conn ∧ s.sockets i = fd := by
  constructor
  · intro hex
    obtain ⟨i, hi⟩ := hex
    by_cases hc : i = conn
    · subst hc
      rw [SocketImpl.set_self] at hi
      exact Or.inl hi
    · rw [SocketImpl.set_other _ _ hc] at hi
      exact Or.inr ⟨i, hc, hi⟩
  · intro hor
    rcases hor with hs | ⟨i, hc, hi⟩
    · exact ⟨conn, by rw [SocketImpl.set_self]; exact hs⟩
    · exact ⟨i, by rw [SocketImpl.set_other _ _ hc]; exact hi⟩

/-- A descriptor that is not open is nowhere in the table. -/
theorem TableInv.not_mem (h : TableInv bgbSock s w) {fd : SOCKET} (hfd : fd ≠ INVALID_SOCKET)
    (hw : w fd = none) : ¬ ∃ i, s.sockets i = fd := by
  intro hex
  obtain ⟨i, hi⟩ := hex
  have hopen := h.isOpen (i := i) (by rw [hi]; exact hfd)
  rw [hi] at hopen
  exact hopen hw

/-- What filling or emptying a slot does to the table's contents. -/
theorem TableInv.inTable_set (h : TableInv bgbSock s w) {conn : Fin tgt.maxConnections}
    {sock fd : SOCKET} (hsock : sock = INVALID_SOCKET ∨ w sock = none) (hfd : fd ≠ INVALID_SOCKET) :
    inTable (s.set conn sock) fd = inTable s fd - (if s.sockets conn = fd then 1 else 0)
      + (if sock = fd then 1 else 0) := by
  unfold inTable
  rw [if_congr SocketImpl.exists_set rfl rfl]
  by_cases hs : sock = fd
  · have hno : ¬ ∃ i, s.sockets i = fd := by
      rcases hsock with hs' | hs'
      · exact absurd (by rw [← hs, hs']) hfd
      · exact h.not_mem hfd (by rw [← hs]; exact hs')
    have hc : ¬ s.sockets conn = fd := fun hc => hno ⟨conn, hc⟩
    rw [if_pos (Or.inl hs), if_neg hno, if_neg hc, if_pos hs]
    rfl
  · by_cases hc : s.sockets conn = fd
    · have hno : ¬ (sock = fd ∨ ∃ i, i ≠ conn ∧ s.sockets i = fd) := by
        intro hor
        rcases hor with h' | ⟨i, hi, h'⟩
        · exact hs h'
        · exact hi (h.injective i conn (by rw [h', hc]) (by rw [h']; exact hfd))
      rw [if_neg hno, if_pos ⟨conn, hc⟩, if_pos hc, if_neg hs]
      rfl
    · have hiff : (sock = fd ∨ ∃ i, i ≠ conn ∧ s.sockets i = fd) ↔ ∃ i, s.sockets i = fd := by
        constructor
        · intro hor
          rcases hor with h' | ⟨i, _, h'⟩
          · exact absurd h' hs
          · exact ⟨i, h'⟩
        · intro hex
          obtain ⟨i, hi⟩ := hex
          refine Or.inr ⟨i, ?_, hi⟩
          intro hic
          rw [hic] at hi
          exact hc hi
      rw [if_congr hiff rfl rfl, if_neg hc, if_neg hs]
      omega

/-! ## §4. The helpers. -/

/-- The guard of this file: only open descriptors are used. -/
abbrev fdGuard (w : Fds) (op : SysOp tgt) : Prop := UsesOpen (openFds w) op

/-- Event by event: every descriptor used was open then. -/
theorem fdGuard_event {α : Type} {p : Prog (Sys tgt) α} {t : Trace (Sys tgt)} {a : α}
    (h : Exec (Guarded (fdEnv tgt) fdGuard) p w t a w') :
    ∀ pre e post, t = pre ++ e :: post →
      ∀ fd ∈ fdsOf e.op, fd ∈ pre.foldl fdStep (openFds w) := by
  have h : Exec (Guarded (fdEnv tgt) fun w op => UsesOpen (openFds w) op) p w t a w' := h
  exact Guarded.event openFds_step h

theorem fdGuard_none {op : SysOp tgt} (h : fdsOf op = []) : fdGuard w op := by
  intro fd hfd
  rw [h] at hfd
  cases hfd

theorem fdGuard_one {op : SysOp tgt} {fd : SOCKET} (h : fdsOf op = [fd]) (hfd : w fd ≠ none) :
    fdGuard w op := by
  intro fd' hfd'
  rw [h, List.mem_singleton] at hfd'
  rw [hfd']
  exact hfd

/-- The requests after which the descriptors may be others, or in another mode. -/
def changesFds : SysOp tgt → Bool
  | .socket _ _ => true
  | .accept _ => true
  | .close _ => true
  | .fcntlSetfl _ _ => true
  | _ => false

/-- A request that changes no descriptor and is about `sock` at most. -/
def QuietOn (sock : SOCKET) (op : SysOp tgt) : Prop :=
  (∀ fd ∈ fdsOf op, fd = sock) ∧ changesFds op = false

theorem quietOn_sock {sock : SOCKET} {op : SysOp tgt} (hfds : fdsOf op = [sock])
    (hop : changesFds op = false) : QuietOn sock op := by
  refine ⟨?_, hop⟩
  intro fd hfd
  rw [hfds] at hfd
  exact List.mem_singleton.mp hfd

theorem quietOn_none {sock : SOCKET} {op : SysOp tgt} (hfds : fdsOf op = [])
    (hop : changesFds op = false) : QuietOn sock op := by
  refine ⟨?_, hop⟩
  intro fd hfd
  rw [hfds] at hfd
  cases hfd

theorem QuietOn.step {sock : SOCKET} {op : SysOp tgt} {ans : op.Ans} (h : QuietOn sock op)
    (hE : fdEnv tgt w op ans w') :
    w' = w ∧ (∀ fd, hands fd (⟨op, ans⟩ : Event (Sys tgt)) = false ∧
      closes fd (⟨op, ans⟩ : Event (Sys tgt)) = false) := by
  cases op with
  | socket family type => cases h.2
  | accept fd => cases h.2
  | close fd => cases h.2
  | fcntlSetfl fd flags => cases h.2
  | fcntlGetfl fd => exact ⟨hE.2, fun _ => ⟨rfl, rfl⟩⟩
  | assert ok => exact ⟨hE.2, fun _ => ⟨rfl, rfl⟩⟩
  | _ => exact ⟨hE, fun _ => ⟨rfl, rfl⟩⟩

/-- A program of such requests changes nothing and takes nothing. -/
theorem wp_quiet {α : Type} {sock : SOCKET} {p : Prog (Sys tgt) α} (hp : p.Uses (QuietOn sock))
    (h : w sock ≠ none) :
    wp (fdEnv tgt) fdGuard p (fun t _ w' => w' = w ∧ ∀ fd, net fd t = 0) w := by
  -- induction on the program: every request leaves the system as it is
  induction p with
  | ret a => exact ⟨rfl, fun _ => rfl⟩
  | call op k ih =>
    refine ⟨?_, ?_⟩
    · intro fd hfd
      rw [hp.1.1 fd hfd]
      exact h
    · intro x w₁ hE
      obtain ⟨hw₁, hev⟩ := hp.1.step hE
      subst hw₁
      refine wp_mono ?_ (ih x (hp.2 x))
      intro t a w' hpost
      refine ⟨hpost.1, ?_⟩
      intro fd
      rw [net_cons, (hev fd).1, (hev fd).2, hpost.2 fd]
      rfl

theorem uses_socketHasdata (sock : SOCKET) :
    (socketHasdata sock : Prog (Sys tgt) Int).Uses (QuietOn sock) := by
  unfold socketHasdata
  apply Prog.uses_bind
  · exact Prog.uses_ask (quietOn_sock rfl rfl)
  · intro rc
    split_ifs
    · exact ⟨quietOn_none rfl rfl, fun _ => trivial⟩
    · exact Prog.uses_pure rc

theorem or_nonblock (flags : UInt32) : (flags ||| O_NONBLOCK) &&& O_NONBLOCK ≠ 0 := by
  have h : (flags ||| O_NONBLOCK) &&& O_NONBLOCK = O_NONBLOCK := by
    apply UInt32.toBitVec_inj.mp
    ext i
    simp
    tauto
  rw [h]
  decide

/-- `socket_setblocking(fd, 0)` fails with an `fcntl`, changing nothing, or leaves `fd` in
    non-blocking mode. -/
theorem wp_socketSetblocking {fd : SOCKET} (h : w fd ≠ none) :
    wp (fdEnv tgt) fdGuard (socketSetblocking fd false)
      (fun t rc w' => (∀ fd', net fd' t = 0) ∧
        ((rc = -1 ∧ w' = w ∧ t.any fcntlFailed = true) ∨
          (rc = 0 ∧ ∃ flags, flags &&& O_NONBLOCK ≠ 0 ∧
            w' = Function.update w fd (some flags)))) w := by
  unfold socketSetblocking
  rw [wp_ask_bind]
  refine ⟨fdGuard_one rfl h, ?_⟩
  intro ans w₁ hE
  obtain ⟨_, hw₁⟩ := hE
  subst hw₁
  cases ans with
  -- the flags could not be read
  | none =>
    dsimp only
    rw [wp_ask_bind]
    refine ⟨fdGuard_none rfl, ?_⟩
    intro u w₂ hE
    have hE : w₂ = w₁ := hE
    subst hE
    exact ⟨fun fd' => rfl, Or.inl ⟨rfl, rfl, rfl⟩⟩
  | some flags =>
    dsimp only
    rw [wp_ask_bind]
    refine ⟨fdGuard_one rfl h, ?_⟩
    intro rc w₂ hE
    by_cases hrc : (rc : Int) = -1
    · -- the flags could not be set
      rw [if_pos hrc]
      rcases hE with ⟨_, hw₂⟩ | ⟨hne, _⟩
      · subst hw₂
        rw [wp_ask_bind]
        refine ⟨fdGuard_none rfl, ?_⟩
        intro u w₃ hE
        have hE : w₃ = w₂ := hE
        subst hE
        refine ⟨fun fd' => rfl, Or.inl ⟨rfl, rfl, ?_⟩⟩
        show (false || (((rc : Int) == -1) || (false || false))) = true
        simpa using hrc
      · exact absurd hrc hne
    · rw [if_neg hrc]
      rcases hE with ⟨heq, _⟩ | ⟨_, _, hw₂⟩
      · exact absurd heq hrc
      · exact ⟨fun fd' => rfl, Or.inr ⟨rfl, _, or_nonblock _, hw₂⟩⟩

/-- The setup of a new descriptor failed: it is closed. -/
def Dropped (sock : SOCKET) (w : Fds) (t : Trace (Sys tgt)) (b : Bool) (w' : Fds) : Prop :=
  b = false ∧ w' = Function.update w sock none ∧ ∀ fd, net fd t = -(if sock = fd then 1 else 0)

/-- How a part of the setup ends: with the descriptor closed, or with nothing changed. -/
def SetUp (sock : SOCKET) (w : Fds) (t : Trace (Sys tgt)) (b : Bool) (w' : Fds) : Prop :=
  Dropped sock w t b w' ∨ (b = true ∧ w' = w ∧ ∀ fd, net fd t = 0)

/-- What came before and took nothing does not matter. -/
theorem SetUp.append {sock : SOCKET} {t₁ t₂ : Trace (Sys tgt)} {b : Bool}
    (h : SetUp sock w t₂ b w') (ht : ∀ fd, net fd t₁ = 0) : SetUp sock w (t₁ ++ t₂) b w' := by
  rcases h with ⟨hb, hw', hnet⟩ | ⟨hb, hw', hnet⟩
  · refine Or.inl ⟨hb, hw', ?_⟩
    intro fd
    rw [net_append, ht, hnet, Int.zero_add]
  · refine Or.inr ⟨hb, hw', ?_⟩
    intro fd
    rw [net_append, ht, hnet, Int.zero_add]

/-- A quiet part first. -/
theorem wp_setUp_bind {α : Type} {sock : SOCKET} {p : Prog (Sys tgt) α} {f : α → Prog (Sys tgt) Bool}
    (hp : p.Uses (QuietOn sock)) (hsock : w sock ≠ none)
    (hf : ∀ a, wp (fdEnv tgt) fdGuard (f a) (SetUp sock w) w) :
    wp (fdEnv tgt) fdGuard (p >>= f) (SetUp sock w) w := by
  apply wp_bind
  refine wp_mono ?_ (wp_quiet hp hsock)
  intro t₁ a w₁ hpost
  obtain ⟨hw₁, hnet⟩ := hpost
  subst hw₁
  refine wp_mono ?_ (hf a)
  intro t₂ b w' h
  exact h.append hnet

/-- The end of every failed step. -/
theorem wp_close_dropped {sock : SOCKET} (hsock : w sock ≠ none) :
    wp (fdEnv tgt) fdGuard (do Sys.close sock; return false) (Dropped sock w) w := by
  rw [wp_ask_bind]
  refine ⟨fdGuard_one rfl hsock, ?_⟩
  intro u w₁ hE
  refine ⟨rfl, hE, ?_⟩
  intro fd
  simp

theorem wp_socketImplOpenOptions {sock : SOCKET} {type : MobileSocktype} {family : SockFamily}
    {bindport : UInt32} (h : w sock ≠ none) :
    wp (fdEnv tgt) fdGuard (socketImplOpenOptions sock type family bindport) (SetUp sock w) w := by
  -- every failed step ends alike: a message, and the descriptor is closed
  have hfail : ∀ msg : Diag, wp (fdEnv tgt) fdGuard
      (do Sys.diag msg; Sys.close sock; return false) (SetUp sock w) w := by
    intro msg
    exact wp_setUp_bind (Prog.uses_ask (quietOn_none rfl rfl)) h
      fun _ => wp_mono (fun _ _ _ hdrop => Or.inl hdrop) (wp_close_dropped h)
  unfold socketImplOpenOptions
  refine wp_setUp_bind (Prog.uses_ask (quietOn_sock rfl rfl)) h ?_
  intro rc
  by_cases hrc : rc = SOCKET_ERROR
  · rw [if_pos hrc]
    exact hfail _
  rw [if_neg hrc]
  refine wp_setUp_bind ?_ h ?_
  · by_cases htcp : type = .tcp
    · rw [if_pos htcp]
      exact Prog.uses_ask (quietOn_sock rfl rfl)
    · rw [if_neg htcp]
      exact Prog.uses_pure _
  intro nodelay
  by_cases hno : type = .tcp ∧ nodelay = SOCKET_ERROR
  · rw [if_pos hno]
    exact hfail _
  rw [if_neg hno]
  refine wp_setUp_bind (Prog.uses_ask (quietOn_sock rfl rfl)) h ?_
  intro rc
  by_cases hrc : rc = SOCKET_ERROR
  · rw [if_pos hrc]
    exact hfail _
  · rw [if_neg hrc]
    exact Or.inr ⟨rfl, rfl, fun fd => rfl⟩

/-- The whole setup of a new descriptor: it ends closed, or in non-blocking mode. -/
theorem wp_socketImplOpenSetup {sock : SOCKET} {type : MobileSocktype} {family : SockFamily}
    {bindport : UInt32} (h : w sock ≠ none) :
    wp (fdEnv tgt) fdGuard (socketImplOpenSetup sock type family bindport)
      (fun t b w' => (∀ fd, fd ≠ sock → w' fd = w fd) ∧
        ((b = false ∧ w' sock = none ∧ ∀ fd, net fd t = -(if sock = fd then 1 else 0)) ∨
          (b = true ∧ Nonblocking w' sock ∧ ∀ fd, net fd t = 0))) w := by
  -- closed again, the descriptor is as it was and no other one has changed
  have hdropped : ∀ {w₁ w' : Fds} {t₁ t₂ : Trace (Sys tgt)} {b : Bool},
      (∀ fd, fd ≠ sock → w₁ fd = w fd) → (∀ fd, net fd t₁ = 0) → Dropped sock w₁ t₂ b w' →
      (∀ fd, fd ≠ sock → w' fd = w fd) ∧ b = false ∧ w' sock = none ∧
        ∀ fd, net fd (t₁ ++ t₂) = -(if sock = fd then 1 else 0) := by
    intro w₁ w' t₁ t₂ b hw₁ ht₁ hdrop
    obtain ⟨hb, hw', hnet⟩ := hdrop
    subst hw'
    refine ⟨?_, hb, Function.update_self sock none w₁, ?_⟩
    · intro fd hfd
      rw [Function.update_of_ne hfd, hw₁ fd hfd]
    · intro fd
      rw [net_append, ht₁, hnet, Int.zero_add]
  unfold socketImplOpenSetup
  apply wp_bind
  refine wp_mono ?_ (wp_socketSetblocking h)
  intro t₁ rc w₁ hpost
  obtain ⟨hnet, ⟨hrc, hw₁, _⟩ | ⟨hrc, flags, hflags, hw₁⟩⟩ := hpost
  · subst hrc hw₁
    rw [if_pos rfl]
    refine wp_mono ?_ (wp_close_dropped h)
    intro t₂ b w' hdrop
    obtain ⟨hw', hend⟩ := hdropped (fun _ _ => rfl) hnet hdrop
    exact ⟨hw', Or.inl hend⟩
  · subst hrc
    rw [if_neg (by decide)]
    have hself : w₁ sock = some flags := by
      rw [hw₁, Function.update_self]
    have hother : ∀ fd, fd ≠ sock → w₁ fd = w fd := by
      intro fd hfd
      rw [hw₁, Function.update_of_ne hfd]
    refine wp_mono ?_ (wp_socketImplOpenOptions (by rw [hself]; exact Option.some_ne_none flags))
    intro t₂ b w' hset
    rcases hset with hdrop | ⟨hb, hw', hnet₂⟩
    · obtain ⟨hw', hend⟩ := hdropped hother hnet hdrop
      exact ⟨hw', Or.inl hend⟩
    · subst hw'
      refine ⟨hother, Or.inr ⟨hb, ⟨flags, hself, hflags⟩, ?_⟩⟩
      intro fd
      rw [net_append, hnet, hnet₂]
      rfl

end MobileBgb.Socket
