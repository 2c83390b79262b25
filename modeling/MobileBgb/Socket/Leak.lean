/-
  MobileBgb.Socket.Leak — every descriptor is closed once.

  The books are kept per descriptor number: how often it was handed out, how
  often it was closed (`hands`, `closes`).  Along a run the two agree, but for
  one when the number is in the table; `socket_impl_stop` settles the rest.

  There is ONE call that spoils the books.  `socket_impl_accept` returns when
  the accepted descriptor cannot be put into non-blocking mode, and forgets it;
  `socket_impl_open` closes its own at the same place.  `descriptors_closed_once`
  is about the runs in which this does not happen, `accept_leaks` shows one in
  which it does.
-/
import MobileBgb.Socket.Table

namespace MobileBgb.Socket

open MobileBgb.Effect
open MobileBgb.System

variable {tgt : Target} {bgbSock : SOCKET} {s : SocketImpl tgt} {w w' : Fds}

/-! ## §1. The books over a run. -/

/-- Over a run whose calls all leave their descriptors accounted for, what was taken and not
    given back is what has come into the table. -/
theorem rounds_net {w₀ : Fds} {p : List (TableOp tgt) × SocketImpl tgt}
    {rs : List (Round (Sys tgt) (List (TableOp tgt) × SocketImpl tgt) (SocketImpl tgt))}
    {fl : Flow (List (TableOp tgt) × SocketImpl tgt) (SocketImpl tgt)}
    (h : Rounds (fdEnv tgt) (tableBody bgbSock) p w₀ rs fl w) :
    TableInv bgbSock p.2 w₀ → (∀ r ∈ rs, acceptUnset r.trace = false) →
      ∀ fd, fd ≠ INVALID_SOCKET → net fd (traceOf rs) = inTable (tableOf fl) fd - inTable p.2 fd := by
  -- induction on the run; the books of the rounds add up, the invariant carries the table along
  induction h with
  | stop p w =>
    intro _ _ fd _
    show net fd [] = inTable p.2 fd - inTable p.2 fd
    rw [net_nil]
    omega
  | @go p p₁ w w₁ w' t rs fl hx _ ih =>
    intro h0 hset fd hfd
    obtain ⟨⟨hinv, hnet⟩, _⟩ := wp_exec (wp_tableBody h0) hx
    have ih := ih hinv (fun r hr => hset r (List.mem_cons_of_mem _ hr)) fd hfd
    have hnet := hnet (hset _ List.mem_cons_self) fd hfd
    have hnet : net fd t = inTable p₁.2 fd - inTable p.2 fd := hnet
    rw [traceOf_cons, net_append, ih, hnet]
    omega
  | @done p w w' t s' hx =>
    intro h0 hset fd hfd
    obtain ⟨⟨_, hnet⟩, _⟩ := wp_exec (wp_tableBody h0) hx
    have hnet := hnet (hset _ List.mem_cons_self) fd hfd
    rw [traceOf_singleton, hnet]

theorem inTable_init (fd : SOCKET) (hfd : fd ≠ INVALID_SOCKET) :
    inTable (socketImplInit : SocketImpl tgt) fd = 0 := by
  unfold inTable
  rw [if_neg]
  intro hex
  obtain ⟨i, hi⟩ := hex
  exact hfd hi.symm

/-! ## §2. No leak. -/

/-- **No descriptor leak.**  In every run in which no `accept` hands out a descriptor that the
    `fcntl`s after it fail on, at every point: a descriptor that was handed out and has not been
    closed is in the table, and once `socket_impl_stop` has run every descriptor has been closed
    exactly as often as it was handed out. -/
theorem descriptors_closed_once {w₀ : Fds} {ops : List (TableOp tgt)}
    {rs : List (Round (Sys tgt) (List (TableOp tgt) × SocketImpl tgt) (SocketImpl tgt))}
    {fl : Flow (List (TableOp tgt) × SocketImpl tgt) (SocketImpl tgt)}
    (hlink : w₀ bgbSock ≠ none)
    (h : Rounds (fdEnv tgt) (tableBody bgbSock) (ops, socketImplInit) w₀ rs fl w)
    (hset : ∀ r ∈ rs, acceptUnset r.trace = false) :
    (∀ fd, fd ≠ INVALID_SOCKET → (traceOf rs).countP (hands fd)
      = (traceOf rs).countP (closes fd) + if ∃ i, (tableOf fl).sockets i = fd then 1 else 0) ∧
    (∀ t w', Exec (fdEnv tgt) (socketImplStop (tableOf fl)) w t () w' →
      ∀ fd, fd ≠ INVALID_SOCKET →
        (traceOf rs ++ t).countP (hands fd) = (traceOf rs ++ t).countP (closes fd)) := by
  have hinv := (rounds_table (tableInv_init hlink) h).2
  have hnet : ∀ fd, fd ≠ INVALID_SOCKET → net fd (traceOf rs) = inTable (tableOf fl) fd := by
    intro fd hfd
    rw [rounds_net h (tableInv_init hlink) hset fd hfd, inTable_init fd hfd]
    omega
  refine ⟨?_, ?_⟩
  · intro fd hfd
    have hfd := hnet fd hfd
    unfold net inTable at hfd
    split_ifs at hfd ⊢ <;> omega
  · -- what is in the table is what `socket_impl_stop` closes
    intro t w' hstop fd hfd
    have hstop := (wp_exec (wp_socketImplStop hinv) hstop).1 fd hfd
    have hall : net fd (traceOf rs ++ t) = 0 := by
      rw [net_append, hnet fd hfd, hstop]
      omega
    unfold net at hall
    omega

/-- The session of `MobileBgb.Socket.Table`, and `socket_impl_stop` at its end. -/
def tableSessionStop : Trace (Sys host) × Unit × Fds :=
  (socketImplStop (tableOf tableSessionRun.2.1)).run fdServe tableSessionRun.2.2

/-- Stopped there, the accepted connection has been closed as often as it was handed out: once. -/
theorem descriptors_closed_once_session :
    (traceOf tableSessionRun.1 ++ tableSessionStop.1).countP (hands 6) = 1 ∧
      (traceOf tableSessionRun.1 ++ tableSessionStop.1).countP (hands 6)
        = (traceOf tableSessionRun.1 ++ tableSessionStop.1).countP (closes 6) := by
  have hok : ∀ e ∈ traceOf tableSessionRun.1 ++ tableSessionStop.1, assertHolds e.op = true := by
    have hall : (traceOf tableSessionRun.1 ++ tableSessionStop.1).all
        (fun e => assertHolds e.op) = true := by decide +kernel
    exact List.all_eq_true.mp hall
  have hrun : Rounds (fdEnv host) (tableBody 3) (tableSession, socketImplInit) linkOnly
      tableSessionRun.1 tableSessionRun.2.1 tableSessionRun.2.2 := by
    apply rounds_runRounds_of fdEnv_serve
    exact fun e he => hok e (List.mem_append_left _ he)
  have hstop : Exec (fdEnv host) (socketImplStop (tableOf tableSessionRun.2.1))
      tableSessionRun.2.2 tableSessionStop.1 () tableSessionStop.2.2 := by
    apply exec_run_of fdEnv_serve
    exact fun e he => hok e (List.mem_append_right _ he)
  have hset : ∀ r ∈ tableSessionRun.1, acceptUnset r.trace = false := by
    have hall : tableSessionRun.1.all (fun r => !acceptUnset r.trace) = true := by
      decide +kernel
    intro r hr
    simpa using List.all_eq_true.mp hall r hr
  refine ⟨by decide +kernel, ?_⟩
  exact (descriptors_closed_once (by decide) hrun hset).2 _ _ hstop 6 (by decide)

/-! ## §3. The leak. -/

/-- The system of `fdServe`, except that `fcntl` fails on descriptor 5. -/
def fdServeBut5 (w : Fds) : (op : SysOp tgt) → op.Ans × Fds
  | .fcntlGetfl fd => (if fd = 5 then none else w fd, w)
  | op => fdServe w op

theorem fdEnv_serveBut5 (w : Fds) (op : SysOp tgt) (hop : assertHolds op = true) :
    fdEnv tgt w op (fdServeBut5 w op).1 (fdServeBut5 w op).2 := by
  cases op with
  | fcntlGetfl fd =>
    refine ⟨?_, rfl⟩
    intro flags h
    have h : (if fd = 5 then none else w fd) = some flags := h
    split_ifs at h
    exact h
  | _ => exact fdEnv_serve w _ hop

/-- A connection is opened, listens, and accepts. -/
def leakSession : List (TableOp host) :=
  [.call (.sockOpen firstConn .tcp .ipv4 1027), .call (.sockListen firstConn),
   .call (.sockAccept firstConn)]

def leakRun :
    List (Round (Sys host) (List (TableOp host) × SocketImpl host) (SocketImpl host)) ×
      Flow (List (TableOp host) × SocketImpl host) (SocketImpl host) × Fds :=
  runRounds fdServeBut5 (tableBody 3) 4 (leakSession, socketImplInit) linkOnly

/-- The accepted descriptor 5 cannot be configured: it is neither closed nor in the table. -/
theorem accept_leaks :
    ¬ ∀ (w₀ w : Fds) (ops : List (TableOp host))
        (rs : List (Round (Sys host) (List (TableOp host) × SocketImpl host) (SocketImpl host)))
        (fl : Flow (List (TableOp host) × SocketImpl host) (SocketImpl host)),
      w₀ 3 ≠ none → Rounds (fdEnv host) (tableBody 3) (ops, socketImplInit) w₀ rs fl w →
      ∀ fd, fd ≠ INVALID_SOCKET →
        (traceOf rs).countP (closes fd) < (traceOf rs).countP (hands fd) →
        ∃ i, (tableOf fl).sockets i = fd := by
  intro hclaim
  have hok : ∀ e ∈ traceOf leakRun.1, assertHolds e.op = true := by
    have hall : (traceOf leakRun.1).all (fun e => assertHolds e.op) = true := by
      decide +kernel
    exact List.all_eq_true.mp hall
  have hrun : Rounds (fdEnv host) (tableBody 3) (leakSession, socketImplInit) linkOnly
      leakRun.1 leakRun.2.1 leakRun.2.2 := by
    apply rounds_runRounds_of fdEnv_serveBut5
    exact hok
  have hslot := hclaim _ _ _ _ _ (by decide) hrun 5 (by decide) (by decide +kernel)
  have hno : ∀ i : Fin 2, (tableOf leakRun.2.1).sockets i ≠ 5 :=
    Fin.forall_fin_two.mpr ⟨by decide +kernel, by decide +kernel⟩
  obtain ⟨i, hi⟩ := hslot
  exact hno i hi

end MobileBgb.Socket
