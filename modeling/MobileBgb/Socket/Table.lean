/-
  MobileBgb.Socket.Table — the descriptor table over whole runs.

  `wp_implSock` is the one step lemma: every call of libmobile keeps the
  invariant of the table, touches only open descriptors, and accounts for what
  it took and gave back.  A run is any sequence of such calls with `main`'s waits
  between them; `descriptor_table` says what holds at every point of it, and
  that `socket_impl_stop` may end it anywhere.
-/
import MobileBgb.Socket.Descriptors

namespace MobileBgb.Socket

open MobileBgb.Effect
open MobileBgb.System

variable {tgt : Target} {bgbSock : SOCKET} {s : SocketImpl tgt} {w w' : Fds}

/-! ## §1. The calls. -/

/-- What every call leaves: the invariant, and descriptors accounted for, unless an `accept`
    handed one out that could not be configured. -/
def CallPost (bgbSock : SOCKET) (s : SocketImpl tgt) (t : Trace (Sys tgt)) (s' : SocketImpl tgt)
    (w' : Fds) : Prop :=
  TableInv bgbSock s' w' ∧
    (acceptUnset t = false → ∀ fd, fd ≠ INVALID_SOCKET → net fd t = inTable s' fd - inTable s fd)

/-- A call that changed nothing. -/
theorem CallPost.same {t : Trace (Sys tgt)} (h : TableInv bgbSock s w)
    (ht : ∀ fd, fd ≠ INVALID_SOCKET → net fd t = 0) : CallPost bgbSock s t s w := by
  refine ⟨h, ?_⟩
  intro _ fd hfd
  rw [ht fd hfd]
  omega

/-- An `assert` first. -/
theorem wp_assert_bind {α : Type} {c : Prop} [Decidable c] {f : Unit → Prog (Sys tgt) α}
    {Q : Trace (Sys tgt) → α → Fds → Prop}
    (h : c → wp (fdEnv tgt) fdGuard (f ())
      (fun t a w' => Q ((⟨.assert (decide c), ()⟩ : Event (Sys tgt)) :: t) a w') w) :
    wp (fdEnv tgt) fdGuard (Sys.assert (decide c) >>= f) Q w := by
  rw [wp_ask_bind]
  refine ⟨fdGuard_none rfl, ?_⟩
  intro u w₁ hE
  obtain ⟨hc, hw₁⟩ := hE
  subst hw₁
  exact h (of_decide_eq_true hc)

/-- A call that only makes quiet requests on its slot. -/
theorem wp_quietCall {α : Type} {conn : Fin tgt.maxConnections} {p : Prog (Sys tgt) α}
    {ret : α → SocketRet} (h : TableInv bgbSock s w) (hp : p.Uses (QuietOn (s.sockets conn))) :
    wp (fdEnv tgt) fdGuard
      ((Sys.assert (decide (s.sockets conn ≠ INVALID_SOCKET)) >>= fun _ => p) >>= fun a =>
        pure (ret a, s))
      (fun t r w' => CallPost bgbSock s t r.2 w') w := by
  apply wp_bind_pure
  apply wp_assert_bind
  intro hvalid
  refine wp_mono ?_ (wp_quiet hp (h.isOpen hvalid))
  intro t a w' hpost
  obtain ⟨hw', hnet⟩ := hpost
  subst hw'
  apply CallPost.same h
  intro fd _
  rw [net_assert, hnet fd]

/-- A descriptor just handed out is open and none of those in use, which stay as they were. -/
theorem handed_out {w₁ : Fds} {sock : SOCKET} {flags : UInt32} (hnew : w sock = none)
    (hw₁ : w₁ = Function.update w sock (some flags)) :
    w₁ sock ≠ none ∧ ∀ fd, w fd ≠ none → fd ≠ sock ∧ w₁ fd = w fd := by
  subst hw₁
  refine ⟨by rw [Function.update_self]; exact Option.some_ne_none flags, ?_⟩
  intro fd hfd
  have hne : fd ≠ sock := by
    intro heq
    rw [heq] at hfd
    exact hfd hnew
  exact ⟨hne, Function.update_of_ne hne _ _⟩

theorem wp_socketImplOpen {conn : Fin tgt.maxConnections} {type : MobileSocktype}
    {addrtype : MobileAddrtype} {bindport : UInt32} (h : TableInv bgbSock s w) :
    wp (fdEnv tgt) fdGuard (socketImplOpen s conn type addrtype bindport)
      (fun t r w' => CallPost bgbSock s t r.2 w') w := by
  unfold socketImplOpen
  apply wp_assert_bind
  intro hfree
  -- a type that is neither fails an assert, which ends the run
  have habort : wp (fdEnv tgt) fdGuard
      (do Sys.assert false; return (false, s) : Prog (Sys tgt) (Bool × SocketImpl tgt))
      (fun t r w' => CallPost bgbSock s
        ((⟨.assert (decide (s.sockets conn = INVALID_SOCKET)), ()⟩ : Event (Sys tgt)) :: t) r.2 w')
      w := by
    rw [wp_ask_bind]
    refine ⟨fdGuard_none rfl, ?_⟩
    intro u w₁ hE
    exact absurd hE.1 (by decide)
  split
  · exact habort
  · exact habort
  · rw [wp_ask_bind]
    refine ⟨fdGuard_none rfl, ?_⟩
    intro sock w₁ hE
    rcases hE with ⟨hsock, hw₁⟩ | ⟨hsock, hnew, flags, hw₁⟩
    · -- no descriptor
      rw [if_pos hsock, wp_ask_bind]
      refine ⟨fdGuard_none rfl, ?_⟩
      intro u w₂ hE
      have hE : w₂ = w₁ := hE
      subst hE hw₁
      apply CallPost.same h
      intro fd hfd
      rw [net_assert, net_socket, net_diag, net_nil, if_neg (by rw [hsock]; exact Ne.symm hfd)]
      rfl
    · rw [if_neg hsock]
      apply wp_bind
      obtain ⟨hopen, hold⟩ := handed_out hnew hw₁
      refine wp_mono ?_ (wp_socketImplOpenSetup hopen)
      intro t b w₂ hpost
      obtain ⟨hother, hpost⟩ := hpost
      have hsame : ∀ fd, w fd ≠ none → w₂ fd = w fd := by
        intro fd hfd
        obtain ⟨hne, hfd₁⟩ := hold fd hfd
        rw [hother fd hne, hfd₁]
      rcases hpost with ⟨hb, hgone, hnet⟩ | ⟨hb, hnb, hnet⟩
      · -- closed again: the system is as it was
        subst hb
        rw [if_pos (by decide)]
        apply CallPost.same (h.congr hsame)
        intro fd _
        rw [List.append_nil, net_assert, net_socket, hnet]
        omega
      · subst hb
        rw [if_neg (by decide)]
        refine ⟨?_, ?_⟩
        · apply h.set _ (Or.inr ⟨hnew, hnb⟩)
          intro fd hfd _
          exact hsame fd hfd
        · intro _ fd hfd
          have hslot : ¬ s.sockets conn = fd := by
            rw [hfree]
            exact Ne.symm hfd
          rw [List.append_nil, net_assert, net_socket, hnet, h.inTable_set (Or.inr hnew) hfd,
            if_neg hslot]
          omega

theorem wp_socketImplClose {conn : Fin tgt.maxConnections} (h : TableInv bgbSock s w) :
    wp (fdEnv tgt) fdGuard (socketImplClose s conn)
      (fun t s' w' => CallPost bgbSock s t s' w') w := by
  unfold socketImplClose
  apply wp_assert_bind
  intro hvalid
  rw [wp_ask_bind]
  refine ⟨fdGuard_one rfl (h.isOpen hvalid), ?_⟩
  intro u w₁ hE
  have hE : w₁ = Function.update w (s.sockets conn) none := hE
  refine ⟨?_, ?_⟩
  · -- the slot is emptied together with its descriptor
    apply h.set _ (Or.inl rfl)
    intro fd _ hor
    rw [hE]
    rcases hor with hne | hinv
    · exact Function.update_of_ne hne none w
    · exact absurd hinv hvalid
  · intro _ fd hfd
    rw [net_assert, net_close, net_nil, h.inTable_set (Or.inl rfl) hfd,
      if_neg (c := INVALID_SOCKET = fd) (Ne.symm hfd)]
    omega

theorem wp_socketImplAccept {conn : Fin tgt.maxConnections} (h : TableInv bgbSock s w) :
    wp (fdEnv tgt) fdGuard (socketImplAccept s conn)
      (fun t r w' => CallPost bgbSock s t r.2 w') w := by
  unfold socketImplAccept
  apply wp_assert_bind
  intro hvalid
  have hopen := h.isOpen hvalid
  apply wp_bind
  refine wp_mono ?_ (wp_quiet (uses_socketHasdata _) hopen)
  intro t₁ rc w₁ hpost
  obtain ⟨hw₁, hnet₁⟩ := hpost
  subst hw₁
  by_cases hrc : rc ≤ 0
  · -- nobody is waiting
    rw [if_pos hrc]
    apply CallPost.same h
    intro fd _
    rw [List.append_nil, net_assert, hnet₁]
  rw [if_neg hrc, wp_ask_bind]
  refine ⟨fdGuard_one rfl hopen, ?_⟩
  intro newsock w₂ hE
  rcases hE with ⟨hsock, hw₂⟩ | ⟨hsock, hnew, flags, hw₂⟩
  · -- no descriptor
    rw [if_pos hsock, wp_ask_bind]
    refine ⟨fdGuard_none rfl, ?_⟩
    intro u w₃ hE
    have hE : w₃ = w₂ := hE
    subst hE hw₂
    apply CallPost.same h
    intro fd hfd
    rw [net_assert, net_append, hnet₁, net_accept, net_diag, net_nil,
      if_neg (by rw [hsock]; exact Ne.symm hfd)]
    rfl
  · rw [if_neg hsock]
    obtain ⟨hopen₂, hold⟩ := handed_out hnew hw₂
    apply wp_bind
    refine wp_mono ?_ (wp_socketSetblocking hopen₂)
    intro t₃ rc₃ w₃ hpost
    obtain ⟨hnet₃, ⟨hrc₃, hw₃, hfailed⟩ | ⟨hrc₃, flags₃, hflags₃, hw₃⟩⟩ := hpost
    · -- handed out and not configured: the source leaves it open
      subst hrc₃ hw₃
      rw [if_pos rfl]
      refine ⟨h.congr fun fd hfd => (hold fd hfd).2, ?_⟩
      intro hunset
      exfalso
      have hgave : acceptGave (⟨.accept (s.sockets conn), newsock⟩ : Event (Sys tgt)) = true := by
        show (newsock != INVALID_SOCKET) = true
        simpa using hsock
      simp [acceptUnset, hgave, hfailed] at hunset
    · subst hrc₃
      rw [if_neg (by decide), wp_ask_bind]
      have hold₃ : ∀ fd, w₁ fd ≠ none → w₃ fd = w₁ fd := by
        intro fd hfd
        obtain ⟨hne, hfd₂⟩ := hold fd hfd
        rw [hw₃, Function.update_of_ne hne, hfd₂]
      refine ⟨fdGuard_one rfl (by rw [hold₃ _ hopen]; exact hopen), ?_⟩
      intro u w₄ hE
      have hE : w₄ = Function.update w₃ (s.sockets conn) none := hE
      refine ⟨?_, ?_⟩
      · apply h.set
        · intro fd hfd hor
          rcases hor with hfd' | hinv
          · rw [hE, Function.update_of_ne hfd', hold₃ fd hfd]
          · exact absurd hinv hvalid
        · refine Or.inr ⟨hnew, flags₃, ?_, hflags₃⟩
          rw [hE, Function.update_of_ne (Ne.symm (hold _ hopen).1), hw₃, Function.update_self]
      · intro _ fd hfd
        rw [net_assert, net_append, hnet₁, net_accept, net_append, hnet₃, net_close, net_nil,
          h.inTable_set (Or.inr hnew) hfd]
        omega

/-- A diagnostic before the last value. -/
theorem uses_diag {α : Type} {sock : SOCKET} (msg : Diag) {p : Prog (Sys tgt) α}
    (hp : p.Uses (QuietOn sock)) : (Sys.diag msg >>= fun _ => p).Uses (QuietOn sock) :=
  Prog.uses_bind (Prog.uses_ask (quietOn_none rfl rfl)) fun _ => hp

theorem uses_socketStraddr {sock : SOCKET} (addr : Option SockAddr) :
    (socketStraddr addr : Prog (Sys tgt) _).Uses (QuietOn sock) := by
  unfold socketStraddr
  split
  · exact Prog.uses_bind (Prog.uses_ask (quietOn_none rfl rfl)) fun _ => Prog.uses_pure _
  · exact Prog.uses_pure _
  · exact Prog.uses_pure _
  · exact Prog.uses_pure _

theorem uses_socketImplRecvDone {sock : SOCKET} (size : Option UInt32) (addr : Bool)
    (buf : List UInt8) (sockAddr : Option SockAddr) :
    (socketImplRecvDone size addr buf sockAddr : Prog (Sys tgt) RecvResult).Uses (QuietOn sock) := by
  unfold socketImplRecvDone
  split
  · exact Prog.uses_pure _
  · exact Prog.uses_pure _

/-- **Every call keeps the invariant, uses open descriptors only and accounts for them.** -/
theorem wp_implSock (call : SocketCall tgt) (h : TableInv bgbSock s w) :
    wp (fdEnv tgt) fdGuard (implSock s call) (fun t r w' => CallPost bgbSock s t r.2 w') w := by
  cases call with
  | sockOpen conn type addrtype bindport => exact wp_bind_pure (wp_socketImplOpen h)
  | sockClose conn => exact wp_bind_pure (wp_socketImplClose h)
  | sockConnect conn addr =>
    apply wp_quietCall h
    refine Prog.uses_bind (Prog.uses_ask (quietOn_sock rfl rfl)) ?_
    intro ans
    split
    · exact Prog.uses_pure _
    · exact Prog.uses_pure _
    · exact Prog.uses_pure _
    · exact Prog.uses_pure _
    · exact Prog.uses_pure _
    · refine Prog.uses_bind (uses_socketStraddr _) ?_
      intro str
      exact uses_diag _ (uses_diag _ (Prog.uses_pure _))
  | sockListen conn =>
    apply wp_quietCall h
    refine Prog.uses_bind (Prog.uses_ask (quietOn_sock rfl rfl)) ?_
    intro rc
    split_ifs
    · exact uses_diag _ (Prog.uses_pure _)
    · exact Prog.uses_pure _
  | sockAccept conn => exact wp_bind_pure (wp_socketImplAccept h)
  | sockSend conn data addr =>
    apply wp_quietCall h
    refine Prog.uses_bind (Prog.uses_ask (quietOn_sock rfl rfl)) ?_
    intro ans
    split
    · exact Prog.uses_pure _
    · exact uses_diag _ (Prog.uses_pure _)
    · exact Prog.uses_pure _
  | sockRecv conn size addr =>
    apply wp_quietCall h
    refine Prog.uses_bind (uses_socketHasdata _) ?_
    intro rc
    by_cases hrc : rc ≤ 0
    · rw [if_pos hrc]
      exact Prog.uses_pure _
    rw [if_neg hrc]
    refine Prog.uses_bind ?_ ?_
    · split
      · exact Prog.uses_ask (quietOn_sock rfl rfl)
      · exact Prog.uses_ask (quietOn_sock rfl rfl)
    intro res
    split
    · exact Prog.uses_pure _
    · exact uses_diag _ (Prog.uses_pure _)
    · refine Prog.uses_bind (Prog.uses_ask (quietOn_sock rfl rfl)) ?_
      intro type
      split
      · exact uses_diag _ (Prog.uses_pure _)
      · exact Prog.uses_pure _
      · exact uses_socketImplRecvDone _ _ _ _
    · exact uses_socketImplRecvDone _ _ _ _

/-- What a call leaves alone, whatever the system answers: the other slots, and the whole table
    when an open or an accept returns `false`. -/
theorem implSock_frame {σ : Type} {E : Env (Sys tgt) σ} {v v' : σ} {t : Trace (Sys tgt)}
    {s s' : SocketImpl tgt} {call : SocketCall tgt} {r : SocketRet}
    (h : Exec E (implSock s call) v t (r, s') v') :
    (∀ i, i ≠ connOf call → s'.sockets i = s.sockets i) ∧ (r = .bool false → s' = s) := by
  have hsame : ∀ conn : Fin tgt.maxConnections, ∀ i, i ≠ conn → s.sockets i = s.sockets i :=
    fun _ _ _ => rfl
  have hopen : ∀ conn type addrtype bindport, (socketImplOpen s conn type addrtype bindport).Returns
      fun r => (∀ i, i ≠ conn → r.2.sockets i = s.sockets i) ∧ (r.1 = false → r.2 = s) := by
    intro conn type addrtype bindport
    unfold socketImplOpen
    repeat' first
      | exact Prog.returns_pure ⟨fun _ _ => rfl, fun _ => rfl⟩
      | exact Prog.returns_pure ⟨fun _ hi => SocketImpl.set_other s _ hi, fun hf => nomatch hf⟩
      | apply Prog.returns_seq; intro _
      | split
  have haccept : ∀ conn, (socketImplAccept s conn).Returns
      fun r => (∀ i, i ≠ conn → r.2.sockets i = s.sockets i) ∧ (r.1 = false → r.2 = s) := by
    intro conn
    unfold socketImplAccept
    repeat' first
      | exact Prog.returns_pure ⟨fun _ _ => rfl, fun _ => rfl⟩
      | exact Prog.returns_pure ⟨fun _ hi => SocketImpl.set_other s _ hi, fun hf => nomatch hf⟩
      | apply Prog.returns_seq; intro _
      | split
  -- the other calls do not write the table at all
  have hret : (implSock s call).Returns fun r =>
      (∀ i, i ≠ connOf call → r.2.sockets i = s.sockets i) ∧ (r.1 = .bool false → r.2 = s) := by
    cases call with
    | sockOpen conn type addrtype bindport =>
      refine Prog.returns_bind (hopen conn type addrtype bindport) ?_
      intro r hr
      exact Prog.returns_pure ⟨hr.1, fun hb => hr.2 (by injection hb)⟩
    | sockClose conn =>
      unfold implSock socketImplClose
      refine Prog.returns_bind (P := fun s' => ∀ i, i ≠ conn → s'.sockets i = s.sockets i) ?_ ?_
      · apply Prog.returns_seq
        intro _
        apply Prog.returns_seq
        intro _
        exact Prog.returns_pure fun _ hi => SocketImpl.set_other s _ hi
      · intro s' hs'
        exact Prog.returns_pure ⟨hs', fun hb => nomatch hb⟩
    | sockAccept conn =>
      refine Prog.returns_bind (haccept conn) ?_
      intro r hr
      exact Prog.returns_pure ⟨hr.1, fun hb => hr.2 (by injection hb)⟩
    | _ => exact Prog.returns_seq _ fun _ => Prog.returns_pure ⟨hsame _, fun _ => rfl⟩
  have hr := Exec.returns hret h
  exact hr

/-! ## §2. Runs. -/

/-- What happens to the table in a run: libmobile's calls, and `main` waiting. -/
inductive TableOp (tgt : Target) where
  | call (c : SocketCall tgt)
  | wait

/-- One of them. -/
def tableOp (bgbSock : SOCKET) (s : SocketImpl tgt) : TableOp tgt → Prog (Sys tgt) (SocketImpl tgt)
  | .call c => do
      let (_, s) ← implSock s c
      return s
  | .wait => do
      let _ ← socketWait (waitSockets bgbSock s) 100
      return s

/-- A sequence of them, one a round. -/
def tableBody (bgbSock : SOCKET) : List (TableOp tgt) × SocketImpl tgt →
    Prog (Sys tgt) (Flow (List (TableOp tgt) × SocketImpl tgt) (SocketImpl tgt))
  | ([], s) => return .done s
  | (op :: ops, s) => do
      let s ← tableOp bgbSock s op
      return .go (ops, s)

/-- The table a run stands at. -/
def tableOf : Flow (List (TableOp tgt) × SocketImpl tgt) (SocketImpl tgt) → SocketImpl tgt
  | .go (_, s) => s
  | .done s => s

theorem TableInv.waitSockets (h : TableInv bgbSock s w) :
    ∀ fd ∈ waitSockets bgbSock s, w fd ≠ none := by
  intro fd hfd
  unfold Socket.waitSockets at hfd
  rcases List.mem_cons.mp hfd with hfd | hfd
  · rw [hfd]
    exact h.link
  · obtain ⟨i, _, hi⟩ := List.mem_filterMap.mp hfd
    split_ifs at hi with hinv
    injection hi with hi
    rw [← hi]
    exact h.isOpen hinv

theorem wp_tableOp (op : TableOp tgt) (h : TableInv bgbSock s w) :
    wp (fdEnv tgt) fdGuard (tableOp bgbSock s op) (fun t s' w' => CallPost bgbSock s t s' w') w := by
  cases op with
  | call c => exact wp_bind_pure (wp_implSock c h)
  | wait =>
    -- the poll and its diagnostic leave everything as it is
    apply wp_bind
    unfold socketWait
    rw [wp_ask_bind]
    refine ⟨h.waitSockets, ?_⟩
    intro rc w₁ hE
    have hE : w₁ = w := hE
    subst hE
    split_ifs
    · rw [wp_ask_bind]
      refine ⟨fdGuard_none rfl, ?_⟩
      intro u w₂ hE
      have hE : w₂ = w₁ := hE
      subst hE
      exact CallPost.same h fun fd _ => rfl
    · exact CallPost.same h fun fd _ => rfl

theorem wp_tableBody {ops : List (TableOp tgt)} (h : TableInv bgbSock s w) :
    wp (fdEnv tgt) fdGuard (tableBody bgbSock (ops, s))
      (fun t fl w' => CallPost bgbSock s t (tableOf fl) w') w := by
  cases ops with
  | nil => exact CallPost.same h fun fd _ => rfl
  | cons op ops => exact wp_bind_pure (wp_tableOp op h)

/-- `socket_impl_stop` closes every slot in use, once. -/
theorem wp_socketImplStopLoop (conns : List (Fin tgt.maxConnections)) (hnodup : conns.Nodup)
    (hinj : ∀ i j, s.sockets i = s.sockets j → s.sockets i ≠ INVALID_SOCKET → i = j)
    (hopen : ∀ i ∈ conns, s.sockets i ≠ INVALID_SOCKET → w (s.sockets i) ≠ none) :
    wp (fdEnv tgt) fdGuard (socketImplStopLoop s conns)
      (fun t _ _ => ∀ fd, fd ≠ INVALID_SOCKET →
        net fd t = -(if ∃ i ∈ conns, s.sockets i = fd then 1 else 0)) w := by
  -- induction on the slots; closing one leaves the descriptors of the others open
  induction conns generalizing w with
  | nil =>
    intro fd _
    simp
  | cons i conns ih =>
    obtain ⟨hi, hnodup⟩ := List.nodup_cons.mp hnodup
    unfold socketImplStopLoop
    by_cases hinv : s.sockets i ≠ INVALID_SOCKET
    · rw [if_pos hinv, wp_ask_bind]
      refine ⟨fdGuard_one rfl (hopen i List.mem_cons_self hinv), ?_⟩
      intro u w₁ hE
      have hE : w₁ = Function.update w (s.sockets i) none := hE
      have hne : ∀ j ∈ conns, s.sockets j ≠ s.sockets i := by
        intro j hj heq
        rw [hinj i j heq.symm hinv] at hi
        exact hi hj
      have hopen₁ : ∀ j ∈ conns, s.sockets j ≠ INVALID_SOCKET → w₁ (s.sockets j) ≠ none := by
        intro j hj hjv
        rw [hE, Function.update_of_ne (hne j hj)]
        exact hopen j (List.mem_cons_of_mem i hj) hjv
      refine wp_mono ?_ (ih hnodup hopen₁)
      intro t _ _ hpost fd hfd
      rw [net_close, hpost fd hfd]
      by_cases hfi : s.sockets i = fd
      · have hno : ¬ ∃ j ∈ conns, s.sockets j = fd := by
          intro hex
          obtain ⟨j, hj, hjf⟩ := hex
          exact hne j hj (by rw [hjf, hfi])
        rw [if_pos hfi, if_neg hno, if_pos ⟨i, List.mem_cons_self, hfi⟩]
        rfl
      · have hiff : (∃ j ∈ i :: conns, s.sockets j = fd) ↔ ∃ j ∈ conns, s.sockets j = fd := by
          simp [hfi]
        rw [if_neg hfi, if_congr hiff rfl rfl]
        omega
    · rw [if_neg hinv]
      have hinv : s.sockets i = INVALID_SOCKET := not_not.mp hinv
      refine wp_mono ?_ (ih hnodup fun j hj => hopen j (List.mem_cons_of_mem i hj))
      intro t _ _ hpost fd hfd
      have hiff : (∃ j ∈ i :: conns, s.sockets j = fd) ↔ ∃ j ∈ conns, s.sockets j = fd := by
        simp [hinv, Ne.symm hfd]
      rw [hpost fd hfd, if_congr hiff rfl rfl]

theorem wp_socketImplStop (h : TableInv bgbSock s w) :
    wp (fdEnv tgt) fdGuard (socketImplStop s)
      (fun t _ _ => ∀ fd, fd ≠ INVALID_SOCKET → net fd t = -inTable s fd) w := by
  unfold socketImplStop
  refine wp_mono ?_ (wp_socketImplStopLoop _ (List.nodup_finRange _) h.injective
    fun i _ => h.isOpen)
  intro t _ _ hpost fd hfd
  rw [hpost fd hfd]
  simp [inTable]

/-- Every run keeps the invariant and uses open descriptors only. -/
theorem rounds_table {w₀ : Fds} {ops : List (TableOp tgt)}
    {rs : List (Round (Sys tgt) (List (TableOp tgt) × SocketImpl tgt) (SocketImpl tgt))}
    {fl : Flow (List (TableOp tgt) × SocketImpl tgt) (SocketImpl tgt)}
    (h0 : TableInv bgbSock s w₀) (h : Rounds (fdEnv tgt) (tableBody bgbSock) (ops, s) w₀ rs fl w) :
    Rounds (Guarded (fdEnv tgt) fdGuard) (tableBody bgbSock) (ops, s) w₀ rs fl w ∧
      TableInv bgbSock (tableOf fl) w := by
  refine Rounds.wp (J := fun fl w => TableInv bgbSock (tableOf fl) w) ?_ h0 h
  intro p w hp
  refine wp_mono ?_ (wp_tableBody hp)
  intro t fl w' hpost
  exact hpost.1

/-- **The descriptor table.**  From `socket_impl_init`, over any sequence of calls and waits and
    any pattern of success and failure of the system, at every point: each slot in use holds an
    open descriptor in non-blocking mode; no two slots hold the same one; every descriptor handed
    to the system so far was open at that moment, closes and waits included, and so it is when
    `socket_impl_stop` ends the run here; a call touches its own slot only, and an open or accept
    that returns `false` leaves the table as it was. -/
theorem descriptor_table {w₀ : Fds} {ops : List (TableOp tgt)}
    {rs : List (Round (Sys tgt) (List (TableOp tgt) × SocketImpl tgt) (SocketImpl tgt))}
    {fl : Flow (List (TableOp tgt) × SocketImpl tgt) (SocketImpl tgt)}
    (hlink : w₀ bgbSock ≠ none)
    (h : Rounds (fdEnv tgt) (tableBody bgbSock) (ops, socketImplInit) w₀ rs fl w) :
    (∀ i, (tableOf fl).sockets i ≠ INVALID_SOCKET → Nonblocking w ((tableOf fl).sockets i)) ∧
    (∀ i j, (tableOf fl).sockets i = (tableOf fl).sockets j →
      (tableOf fl).sockets i ≠ INVALID_SOCKET → i = j) ∧
    (∀ pre e post, traceOf rs = pre ++ e :: post →
      ∀ fd ∈ fdsOf e.op, fd ∈ pre.foldl fdStep (openFds w₀)) ∧
    (∀ t w', Exec (fdEnv tgt) (socketImplStop (tableOf fl)) w t () w' →
      ∀ pre e post, t = pre ++ e :: post →
        ∀ fd ∈ fdsOf e.op, fd ∈ pre.foldl fdStep (openFds w)) ∧
    (∀ (s s' : SocketImpl tgt) (call : SocketCall tgt) (r : SocketRet) (v v' : Fds)
        (t : Trace (Sys tgt)), Exec (fdEnv tgt) (implSock s call) v t (r, s') v' →
      (∀ i, i ≠ connOf call → s'.sockets i = s.sockets i) ∧ (r = .bool false → s' = s)) := by
  obtain ⟨hg, hinv⟩ := rounds_table (tableInv_init hlink) h
  refine ⟨hinv.nonblocking, hinv.injective, ?_, ?_, ?_⟩
  · exact fdGuard_event hg.exec_loop
  · intro t w' hstop
    exact fdGuard_event (wp_exec (wp_socketImplStop hinv) hstop).2
  · intro s s' call r v v' t hx
    exact implSock_frame hx

/-- The first free number from 3 on, as the system picks it; none once there are too many. -/
def freshFd (w : Fds) : SOCKET :=
  (([3, 4, 5, 6, 7, 8, 9] : List SOCKET).find? fun fd => (w fd).isNone).getD INVALID_SOCKET

theorem freshFd_none {w : Fds} (h : freshFd w ≠ INVALID_SOCKET) : w (freshFd w) = none := by
  unfold freshFd at h ⊢
  cases hf : ([3, 4, 5, 6, 7, 8, 9] : List SOCKET).find? fun fd => (w fd).isNone with
  | none =>
    rw [hf] at h
    exact absurd rfl h
  | some fd =>
    have hfd := List.find?_some hf
    simpa using hfd

/-- One way to serve the table: everything succeeds, as long as there are numbers. -/
def fdServe (w : Fds) : (op : SysOp tgt) → op.Ans × Fds
  | .poll _ _ => (1, w)
  | .socket _ _ =>
      (freshFd w, if freshFd w = INVALID_SOCKET then w else Function.update w (freshFd w) (some 2))
  | .fcntlGetfl fd => (w fd, w)
  | .fcntlSetfl fd flags =>
      if (w fd).isNone then (-1, w) else (0, Function.update w fd (some flags))
  | .setsockopt _ _ => (0, w)
  | .bind _ _ => (0, w)
  | .listen _ _ => (0, w)
  | .accept _ =>
      (freshFd w, if freshFd w = INVALID_SOCKET then w else Function.update w (freshFd w) (some 2))
  | .close fd => ((), Function.update w fd none)
  | op => (plainAns op, w)

theorem fdEnv_serve (w : Fds) (op : SysOp tgt) (hop : assertHolds op = true) :
    fdEnv tgt w op (fdServe w op).1 (fdServe w op).2 := by
  have hnew : (freshFd w = INVALID_SOCKET ∧
        (if freshFd w = INVALID_SOCKET then w else Function.update w (freshFd w) (some 2)) = w) ∨
      (freshFd w ≠ INVALID_SOCKET ∧ w (freshFd w) = none ∧ ∃ flags,
        (if freshFd w = INVALID_SOCKET then w else Function.update w (freshFd w) (some 2))
          = Function.update w (freshFd w) (some flags)) := by
    by_cases h : freshFd w = INVALID_SOCKET
    · exact Or.inl ⟨h, if_pos h⟩
    · exact Or.inr ⟨h, freshFd_none h, 2, if_neg h⟩
  cases op with
  | socket family type => exact hnew
  | accept fd => exact hnew
  | fcntlGetfl fd => exact ⟨fun flags h => h, rfl⟩
  | fcntlSetfl fd flags =>
    have hserve : fdServe w (.fcntlSetfl fd flags : SysOp tgt)
        = if (w fd).isNone then (-1, w) else (0, Function.update w fd (some flags)) := rfl
    rw [hserve]
    by_cases h : (w fd).isNone = true
    · rw [if_pos h]
      exact Or.inl ⟨rfl, rfl⟩
    · rw [if_neg h]
      refine Or.inr ⟨(by decide : (0 : Int) ≠ -1), ?_, rfl⟩
      intro hnone
      rw [hnone] at h
      exact h rfl
  | assert ok => exact ⟨hop, rfl⟩
  | _ => rfl

def firstConn : Fin host.maxConnections := ⟨0, by decide⟩
def secondConn : Fin host.maxConnections := ⟨1, by decide⟩

/-- Two connections, one of which accepts, and a close. -/
def tableSession : List (TableOp host) :=
  [.call (.sockOpen firstConn .tcp .ipv4 1027), .call (.sockListen firstConn), .wait,
   .call (.sockOpen secondConn .udp .ipv6 0), .call (.sockAccept firstConn), .wait,
   .call (.sockClose secondConn)]

/-- At first only the link is open, on descriptor 3. -/
def linkOnly : Fds := fun fd => if fd = 3 then some 2 else none

/-- That session, served. -/
def tableSessionRun :
    List (Round (Sys host) (List (TableOp host) × SocketImpl host) (SocketImpl host)) ×
      Flow (List (TableOp host) × SocketImpl host) (SocketImpl host) × Fds :=
  runRounds fdServe (tableBody 3) 8 (tableSession, socketImplInit) linkOnly

/-- At its end the first slot holds the accepted connection, in non-blocking mode. -/
theorem descriptor_table_session :
    (tableOf tableSessionRun.2.1).sockets (0 : Fin 2) = 6 ∧
      Nonblocking tableSessionRun.2.2 ((tableOf tableSessionRun.2.1).sockets (0 : Fin 2)) := by
  have hok : ∀ e ∈ traceOf tableSessionRun.1, assertHolds e.op = true := by
    have hall : (traceOf tableSessionRun.1).all (fun e => assertHolds e.op) = true := by
      decide +kernel
    exact List.all_eq_true.mp hall
  have hslot : (tableOf tableSessionRun.2.1).sockets (0 : Fin 2) = 6 := by decide +kernel
  have hrun : Rounds (fdEnv host) (tableBody 3) (tableSession, socketImplInit) linkOnly
      tableSessionRun.1 tableSessionRun.2.1 tableSessionRun.2.2 := by
    apply rounds_runRounds_of fdEnv_serve
    exact hok
  refine ⟨hslot, ?_⟩
  have htable := (descriptor_table (by decide) hrun).1
  apply htable (0 : Fin 2)
  have hvalid : (tableOf tableSessionRun.2.1).sockets (0 : Fin 2) ≠ INVALID_SOCKET := by
    rw [hslot]
    decide
  exact hvalid

end MobileBgb.Socket
