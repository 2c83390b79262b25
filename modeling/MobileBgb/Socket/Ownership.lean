/-
  MobileBgb.Socket.Ownership — who owns which descriptor.

  `TableInv` of `MobileBgb.Socket.Descriptors` says that what is in the table is
  open.  Here the other direction: what is open belongs to somebody.  `Accounted` says
  that every open descriptor is the link's, or in the table, or one of those that
  `socket_impl_accept` has lost on the way (`unset`); and that the link's descriptor
  is still in the mode it came in.

  `CallEffect` lists everything a call of libmobile can do to the descriptors;
  `Accounted.call` is then one case for each of its forms.

  `Beside` is the frame: the descriptors of the rest of the process.  A program that
  uses only descriptors of its own does not see them and does not change them
  (`fdEnv_local`).
-/
import MobileBgb.Effect.Translate
import MobileBgb.Effect.Triple
import MobileBgb.Socket.Table

namespace MobileBgb.Socket

open MobileBgb.Effect
open MobileBgb.System

variable {tgt : Target} {bgbSock : SOCKET} {s s' : SocketImpl tgt} {w w' : Fds}
  {t : Trace (Sys tgt)}

/-! ## §1. Descriptors lost on the way. -/

/-- Did this event hand out `fd` as an accepted connection? -/
def accepts (fd : SOCKET) : Event (Sys tgt) → Bool
  | ⟨.accept _, ans⟩ => (ans : SOCKET) == fd
  | _ => false

/-- Nothing in `t` closes `fd`. -/
def Unclosed (fd : SOCKET) (t : Trace (Sys tgt)) : Prop := ∀ e ∈ t, closes fd e = false

/-- The accepted descriptors that an `fcntl` failed on, neither closed in between nor since. -/
def unset (t : Trace (Sys tgt)) : Set SOCKET :=
  {fd | ∃ t₁ a t₂, t = t₁ ++ a :: t₂ ∧ accepts fd a = true ∧ Unclosed fd t₂ ∧
    ∃ e ∈ t₂, fcntlFailed e = true ∧ fd ∈ fdsOf e.op}

theorem Unclosed.append {fd : SOCKET} {t t' : Trace (Sys tgt)} (h : Unclosed fd t)
    (h' : Unclosed fd t') : Unclosed fd (t ++ t') := by
  intro e he
  rcases List.mem_append.mp he with he | he
  · exact h e he
  · exact h' e he

theorem Unclosed.cons {fd : SOCKET} {e : Event (Sys tgt)} {t : Trace (Sys tgt)}
    (he : closes fd e = false) (h : Unclosed fd t) : Unclosed fd (e :: t) :=
  List.forall_mem_cons.mpr ⟨he, h⟩

theorem unclosed_nil (fd : SOCKET) : Unclosed fd ([] : Trace (Sys tgt)) :=
  fun _ he => nomatch he

/-- What was lost stays lost as long as it is not closed. -/
theorem unset_append {fd : SOCKET} {t t' : Trace (Sys tgt)} (h : fd ∈ unset t)
    (h' : Unclosed fd t') : fd ∈ unset (t ++ t') := by
  obtain ⟨t₁, a, t₂, ht, hacc, hopen, e, he, hfail⟩ := h
  subst ht
  refine ⟨t₁, a, t₂ ++ t', by simp, hacc, hopen.append h', e, ?_, hfail⟩
  exact List.mem_append_left t' he

/-- What came before does not matter. -/
theorem unset_append_right {t : Trace (Sys tgt)} (t₀ : Trace (Sys tgt)) :
    unset t ⊆ unset (t₀ ++ t) := by
  rintro fd ⟨t₁, a, t₂, ht, hrest⟩
  subst ht
  exact ⟨t₀ ++ t₁, a, t₂, by simp, hrest⟩

/-- A request that does not close `fd`. -/
def Spares (fd : SOCKET) (op : SysOp tgt) : Prop := op ≠ .close fd

/-- A request about `sock` at most. -/
def About (sock : SOCKET) (op : SysOp tgt) : Prop := ∀ fd ∈ fdsOf op, fd = sock

theorem about_sock {sock : SOCKET} {op : SysOp tgt} (h : fdsOf op = [sock]) : About sock op := by
  intro fd hfd
  rw [h] at hfd
  exact List.mem_singleton.mp hfd

theorem About.spares {fd sock : SOCKET} {op : SysOp tgt} (h : About sock op) (hfd : fd ≠ sock) :
    Spares fd op := by
  intro hop
  rw [hop] at h
  exact hfd (h fd (List.mem_singleton_self fd))

theorem about_diag (sock : SOCKET) (msg : Diag) : About sock (.diag msg : SysOp tgt) :=
  fun _ hfd => nomatch hfd

/-- Only a `close` about `fd` closes it. -/
theorem closes_spared {fd : SOCKET} {e : Event (Sys tgt)} (h : Spares fd e.op) :
    closes fd e = false := by
  obtain ⟨op, ans⟩ := e
  cases op with
  | close fd' =>
    refine beq_false_of_ne ?_
    intro heq
    rw [heq] at h
    exact h rfl
  | _ => rfl

theorem unclosed_of_same {fd : SOCKET} {t : Trace (Sys tgt)}
    (h : ∀ e ∈ t, changesFds e.op = false) : Unclosed fd t := by
  intro e he
  apply closes_spared
  intro hop
  have hsame := h e he
  rw [hop] at hsame
  cases hsame

theorem unclosed_of_uses {α σ : Type} {E : Env (Sys tgt) σ} {w w' : σ} {a : α} {fd : SOCKET}
    {p : Prog (Sys tgt) α} (hp : p.Uses (Spares fd)) (h : Exec E p w t a w') : Unclosed fd t :=
  fun e he => closes_spared (Exec.uses hp h e he)

/-- `socket_setblocking` works on its descriptor and does not close it. -/
theorem uses_socketSetblocking (sock : SOCKET) (flag : Bool) :
    (socketSetblocking sock flag : Prog (Sys tgt) Int).Uses
      fun op => About sock op ∧ ∀ fd, Spares fd op := by
  have hdiag : ∀ msg : Diag, (do Sys.diag msg; return -1 : Prog (Sys tgt) Int).Uses
      fun op => About sock op ∧ ∀ fd, Spares fd op :=
    fun msg => ⟨⟨about_diag sock msg, fun fd h => nomatch h⟩, fun _ => trivial⟩
  unfold socketSetblocking
  refine Prog.uses_bind (Prog.uses_ask ⟨about_sock rfl, fun fd h => nomatch h⟩) ?_
  intro ans
  cases ans with
  | none => exact hdiag _
  | some old =>
    refine Prog.uses_bind (Prog.uses_ask ⟨about_sock rfl, fun fd h => nomatch h⟩) ?_
    intro rc
    split_ifs
    · exact hdiag _
    · exact Prog.uses_pure _

/-- All of `socket_impl_open` after `socket` works on the new descriptor. -/
theorem uses_socketImplOpenSetup (sock : SOCKET) (type : MobileSocktype) (family : SockFamily)
    (bindport : UInt32) :
    (socketImplOpenSetup sock type family bindport : Prog (Sys tgt) Bool).Uses (About sock) := by
  have hset : (socketSetblocking sock false : Prog (Sys tgt) Int).Uses (About sock) :=
    Prog.uses_mono (fun _ h => h.1) (uses_socketSetblocking sock false)
  unfold socketImplOpenSetup socketImplOpenOptions
  repeat' first
    | exact hset
    | exact Prog.uses_pure _
    | exact Prog.uses_ask (about_sock rfl)
    | exact Prog.uses_ask (about_diag sock _)
    | refine Prog.uses_bind ?_ ?_
    | intro _
    | split

theorem fdsOf_of_fcntlFailed {e : Event (Sys tgt)} (h : fcntlFailed e = true) :
    ∃ fd, fd ∈ fdsOf e.op := by
  obtain ⟨op, ans⟩ := e
  cases op with
  | fcntlGetfl fd => exact ⟨fd, List.mem_singleton_self fd⟩
  | fcntlSetfl fd flags => exact ⟨fd, List.mem_singleton_self fd⟩
  | _ => cases h

/-! ## §2. What a call can do. -/

/-- Everything a call on the connection `conn` can do to the table and the descriptors. -/
inductive CallEffect (s : SocketImpl tgt) (conn : Fin tgt.maxConnections) (w : Fds)
    (t : Trace (Sys tgt)) : SocketImpl tgt → Fds → Prop where
  | nothing : CallEffect s conn w t s w
  /-- A new descriptor in a free slot. -/
  | opened {sock : SOCKET} {flags : UInt32} (hfree : s.sockets conn = INVALID_SOCKET)
      (hsock : sock ≠ INVALID_SOCKET) (hnew : w sock = none) :
      CallEffect s conn w t (s.set conn sock) (Function.update w sock (some flags))
  | closed (hused : s.sockets conn ≠ INVALID_SOCKET) :
      CallEffect s conn w t (s.set conn INVALID_SOCKET) (Function.update w (s.sockets conn) none)
  /-- A new descriptor in the place of the listening one, which is closed. -/
  | accepted {sock : SOCKET} {flags : UInt32} (hused : s.sockets conn ≠ INVALID_SOCKET)
      (hsock : sock ≠ INVALID_SOCKET) (hnew : w sock = none) :
      CallEffect s conn w t (s.set conn sock)
        (Function.update (Function.update w sock (some flags)) (s.sockets conn) none)
  /-- A new descriptor that nobody keeps. -/
  | lost {sock : SOCKET} {flags : UInt32} (hsock : sock ≠ INVALID_SOCKET) (hnew : w sock = none)
      (hunset : sock ∈ unset t) : CallEffect s conn w t s (Function.update w sock (some flags))

/-- An `assert` that was passed. -/
theorem exec_assert_bind {α : Type} {a : α} {c : Prop} [Decidable c] {f : Unit → Prog (Sys tgt) α}
    (h : Exec (fdEnv tgt) (Sys.assert (decide c) >>= f) w t a w') :
    c ∧ ∃ t₁, t = ⟨.assert (decide c), ()⟩ :: t₁ ∧ Exec (fdEnv tgt) (f ()) w t₁ a w' := by
  rw [exec_ask_bind] at h
  obtain ⟨u, w₁, t₁, ⟨hc, hw₁⟩, ht, h⟩ := h
  subst hw₁
  exact ⟨of_decide_eq_true hc, t₁, ht, h⟩

/-- A request that changes no descriptor leaves them all as they are. -/
theorem fdEnv_same {op : SysOp tgt} {x : op.Ans} (hop : changesFds op = false)
    (h : fdEnv tgt w op x w') : w' = w := by
  cases op with
  | socket family type => cases hop
  | accept fd => cases hop
  | close fd => cases hop
  | fcntlSetfl fd flags => cases hop
  | fcntlGetfl fd => exact h.2
  | assert ok => exact h.2
  | _ => exact h

theorem exec_unchanged {α : Type} {a : α} {p : Prog (Sys tgt) α}
    (ht : ∀ e ∈ t, changesFds e.op = false) (h : Exec (fdEnv tgt) p w t a w') : w' = w := by
  induction p generalizing w t with
  | ret b => exact h.2.2
  | call op k ih =>
    obtain ⟨x, w₁, t₁, hE, ht₁, h⟩ := h
    subst ht₁
    obtain ⟨hop, ht⟩ := List.forall_mem_cons.mp ht
    have hw₁ := fdEnv_same hop hE
    subst hw₁
    exact ih x ht h

theorem exec_socketImplOpen {conn : Fin tgt.maxConnections} {type : MobileSocktype}
    {addrtype : MobileAddrtype} {bindport : UInt32} {b : Bool}
    (h : Exec (fdEnv tgt) (socketImplOpen s conn type addrtype bindport) w t (b, s') w') :
    CallEffect s conn w t s' w' := by
  -- the two `default` cases end in an `assert` that does not hold
  have hnever : ∀ {t₁ : Trace (Sys tgt)}, ¬ Exec (fdEnv tgt)
      (do Sys.assert false; return (false, s)) w t₁ (b, s') w' := by
    intro t₁ h
    obtain ⟨u, w₁, t₂, ⟨hc, _⟩, _, _⟩ := (exec_ask_bind _).mp h
    cases hc
  unfold socketImplOpen at h
  obtain ⟨hfree, t₁, ht, h⟩ := exec_assert_bind h
  split at h
  · exact absurd h hnever
  · exact absurd h hnever
  · obtain ⟨sock, w₁, t₂, hE, ht₁, h⟩ := (exec_ask_bind _).mp h
    rcases hE with ⟨hsock, hw₁⟩ | ⟨hsock, hnew, flags, hw₁⟩
    · -- no descriptor
      rw [if_pos hsock] at h
      obtain ⟨u, w₂, t₃, hE, _, h⟩ := (exec_ask_bind _).mp h
      have hE : w₂ = w₁ := hE
      obtain ⟨_, hr, hw'⟩ := (exec_pure _).mp h
      injection hr with _ hs'
      subst hs' hw' hE hw₁
      exact .nothing
    · rw [if_neg hsock, exec_bind] at h
      obtain ⟨t₃, ok, w₂, t₄, hsetup, h, _⟩ := h
      obtain ⟨hopen₁, _⟩ := handed_out hnew hw₁
      obtain ⟨⟨hother, hend⟩, _⟩ := wp_exec (wp_socketImplOpenSetup hopen₁) hsetup
      have hrest : ∀ fd, fd ≠ sock → w₂ fd = w fd := by
        intro fd hfd
        rw [hother fd hfd, hw₁, Function.update_of_ne hfd]
      rcases hend with ⟨hok, hnone, _⟩ | ⟨hok, ⟨flags₂, hflags₂, _⟩, _⟩
      · -- a step failed: the descriptor is closed again
        subst hok
        rw [if_pos (by decide)] at h
        obtain ⟨_, hr, hw'⟩ := (exec_pure _).mp h
        injection hr with _ hs'
        have hsame : w' = w := by
          rw [hw']
          funext fd
          by_cases hfd : fd = sock
          · rw [hfd, hnone, hnew]
          · exact hrest fd hfd
        subst hs' hsame
        exact .nothing
      · subst hok
        rw [if_neg (by decide)] at h
        obtain ⟨_, hr, hw'⟩ := (exec_pure _).mp h
        injection hr with _ hs'
        have hset : w' = Function.update w sock (some flags₂) := by
          rw [hw']
          funext fd
          by_cases hfd : fd = sock
          · rw [hfd, hflags₂, Function.update_self]
          · rw [hrest fd hfd, Function.update_of_ne hfd]
        subst hs' hset
        exact .opened hfree hsock hnew

theorem exec_socketImplClose {conn : Fin tgt.maxConnections}
    (h : Exec (fdEnv tgt) (socketImplClose s conn) w t s' w') : CallEffect s conn w t s' w' := by
  unfold socketImplClose at h
  obtain ⟨hused, t₁, _, h⟩ := exec_assert_bind h
  obtain ⟨u, w₁, t₂, hE, _, h⟩ := (exec_ask_bind _).mp h
  have hE : w₁ = Function.update w (s.sockets conn) none := hE
  obtain ⟨_, hs', hw'⟩ := (exec_pure _).mp h
  subst hs' hw' hE
  exact .closed hused

theorem exec_socketImplAccept {conn : Fin tgt.maxConnections} {b : Bool}
    (hx : Exec (fdEnv tgt) (socketImplAccept s conn) w t (b, s') w') :
    CallEffect s conn w t s' w' := by
  -- the ways to leave early change nothing
  have hstay : ∀ {t₁ : Trace (Sys tgt)} {w₁ : Fds}, w₁ = w →
      Exec (fdEnv tgt) (return (false, s)) w₁ t₁ (b, s') w' → CallEffect s conn w t s' w' := by
    intro t₁ w₁ hw₁ h
    obtain ⟨_, hr, hw'⟩ := (exec_pure _).mp h
    injection hr with _ hs'
    subst hs' hw' hw₁
    exact .nothing
  unfold socketImplAccept at hx
  obtain ⟨hused, t₁, ht, hx⟩ := exec_assert_bind hx
  obtain ⟨t₂, rc, w₁, t₃, hpoll, h, ht₁⟩ := (exec_bind _).mp hx
  have hquiet : (socketHasdata (s.sockets conn) : Prog (Sys tgt) Int).Uses
      fun op => changesFds op = false := by
    refine ⟨rfl, ?_⟩
    intro rc
    show (if rc = -1 then _ else _ : Prog (Sys tgt) Int).Uses _
    split_ifs
    · exact ⟨rfl, fun _ => trivial⟩
    · trivial
  have hw₁ := exec_unchanged (Exec.uses hquiet hpoll) hpoll
  subst hw₁
  by_cases hrc : rc ≤ 0
  · rw [if_pos hrc] at h
    exact hstay rfl h
  · rw [if_neg hrc] at h
    obtain ⟨newsock, w₂, t₄, hE, ht₃, h⟩ := (exec_ask_bind _).mp h
    rcases hE with ⟨hsock, hw₂⟩ | ⟨hsock, hnew, flags, hw₂⟩
    · rw [if_pos hsock] at h
      obtain ⟨u, w₃, t₅, hE, _, h⟩ := (exec_ask_bind _).mp h
      have hE : w₃ = w₂ := hE
      exact hstay (hE.trans hw₂) h
    · rw [if_neg hsock, exec_bind] at h
      obtain ⟨t₅, rc', w₃, t₆, hset, h, ht₄⟩ := h
      obtain ⟨hopen₂, _⟩ := handed_out hnew hw₂
      obtain ⟨⟨_, hend⟩, _⟩ := wp_exec (wp_socketSetblocking hopen₂) hset
      rcases hend with ⟨hrc', hw₃, hfailed⟩ | ⟨hrc', flags₃, _, hw₃⟩
      · -- it cannot be configured: the function returns and forgets it
        subst hrc'
        rw [if_pos rfl] at h
        obtain ⟨_, hr, hw'⟩ := (exec_pure _).mp h
        injection hr with _ hs'
        have hunset : newsock ∈ unset t := by
          obtain ⟨e, he, hfail⟩ := List.any_eq_true.mp hfailed
          obtain ⟨fd, hfd⟩ := fdsOf_of_fcntlFailed hfail
          have hops := Exec.uses (uses_socketSetblocking newsock false) hset
          have hfd' := (hops e he).1 fd hfd
          subst hfd'
          obtain ⟨ht₆, _, _⟩ := (exec_pure _).mp h
          refine ⟨⟨.assert (decide (s.sockets conn ≠ INVALID_SOCKET)), ()⟩ :: t₂,
            ⟨.accept (s.sockets conn), fd⟩, t₅, ?_, beq_self_eq_true fd,
            fun e he => closes_spared ((hops e he).2 fd), e, he, hfail, hfd⟩
          rw [ht, ht₁, ht₃, ht₄, ht₆, List.append_nil]
          rfl
        subst hs' hw' hw₃ hw₂
        exact .lost hsock hnew hunset
      · subst hrc'
        rw [if_neg (by decide)] at h
        obtain ⟨u, w₄, t₇, hE, _, h⟩ := (exec_ask_bind _).mp h
        have hE : w₄ = Function.update w₃ (s.sockets conn) none := hE
        obtain ⟨_, hr, hw'⟩ := (exec_pure _).mp h
        injection hr with _ hs'
        subst hs' hw' hE hw₃ hw₂
        rw [Function.update_idem]
        exact .accepted hused hsock hnew

/-- `socket_impl_open` closes no descriptor that was open before. -/
theorem unclosed_socketImplOpen {conn : Fin tgt.maxConnections} {type : MobileSocktype}
    {addrtype : MobileAddrtype} {bindport : UInt32} {b : Bool} {fd : SOCKET} (hfd : w fd ≠ none)
    (h : Exec (fdEnv tgt) (socketImplOpen s conn type addrtype bindport) w t (b, s') w') :
    Unclosed fd t := by
  have hend : ∀ {r} {t₁ : Trace (Sys tgt)} {w₁ : Fds},
      Exec (fdEnv tgt) (pure r) w₁ t₁ (b, s') w' → Unclosed fd t₁ := by
    intro r t₁ w₁ h
    rw [((exec_pure _).mp h).1]
    exact unclosed_nil fd
  have hnever : ∀ {t₁ : Trace (Sys tgt)}, Exec (fdEnv tgt)
      (do Sys.assert false; return (false, s)) w t₁ (b, s') w' → Unclosed fd t₁ := by
    intro t₁ h
    obtain ⟨u, w₁, t₂, _, ht₁, h⟩ := (exec_ask_bind _).mp h
    rw [ht₁]
    exact (hend h).cons rfl
  unfold socketImplOpen at h
  obtain ⟨_, t₁, ht, h⟩ := exec_assert_bind h
  rw [ht]
  refine Unclosed.cons rfl ?_
  split at h
  · exact hnever h
  · exact hnever h
  · obtain ⟨sock, w₁, t₂, hE, ht₁, h⟩ := (exec_ask_bind _).mp h
    rw [ht₁]
    refine Unclosed.cons rfl ?_
    rcases hE with ⟨hsock, _⟩ | ⟨hsock, hnew, _⟩
    · rw [if_pos hsock] at h
      obtain ⟨u, w₂, t₃, _, ht₂, h⟩ := (exec_ask_bind _).mp h
      rw [ht₂]
      exact (hend h).cons rfl
    · rw [if_neg hsock, exec_bind] at h
      obtain ⟨t₃, ok, w₂, t₄, hsetup, h, ht₂⟩ := h
      have hne : fd ≠ sock := by
        intro heq
        rw [heq] at hfd
        exact hfd hnew
      rw [ht₂]
      refine Unclosed.append (unclosed_of_uses ?_ hsetup) ?_
      · exact Prog.uses_mono (fun _ h => h.spares hne) (uses_socketImplOpenSetup sock type _ bindport)
      split_ifs at h
      · exact hend h
      · exact hend h

/-- `socket_impl_accept` closes the listening descriptor at most. -/
theorem unclosed_socketImplAccept {conn : Fin tgt.maxConnections} {b : Bool} {fd : SOCKET}
    (hfd : fd ≠ s.sockets conn)
    (h : Exec (fdEnv tgt) (socketImplAccept s conn) w t (b, s') w') : Unclosed fd t := by
  have hset : ∀ newsock, (socketSetblocking newsock false : Prog (Sys tgt) Int).Uses (Spares fd) :=
    fun newsock => Prog.uses_mono (fun _ h => h.2 fd) (uses_socketSetblocking newsock false)
  refine unclosed_of_uses ?_ h
  unfold socketImplAccept socketHasdata
  repeat' first
    | exact hset _
    | exact Prog.uses_pure _
    | exact Prog.uses_ask (fun hop => hfd (SysOp.close.inj hop).symm)
    | exact Prog.uses_ask (fun hop => nomatch hop)
    | refine Prog.uses_bind ?_ ?_
    | intro _
    | split

/-- The calls that open or close. -/
def movesFds : SocketCall tgt → Bool
  | .sockOpen _ _ _ _ => true
  | .sockClose _ => true
  | .sockAccept _ => true
  | _ => false

/-- The other calls change neither the table nor the descriptors. -/
theorem exec_quietCall {call : SocketCall tgt} {r : SocketRet} (hcall : movesFds call = false)
    (h : Exec (fdEnv tgt) (implSock s call) w t (r, s') w') :
    s' = s ∧ ∀ e ∈ t, changesFds e.op = false := by
  suffices hcode : (implSock s call).Uses (fun op => changesFds op = false) ∧
      (implSock s call).Returns fun r => r.2 = s by
    have hs' := Exec.returns hcode.2 h
    exact ⟨hs', Exec.uses hcode.1 h⟩
  cases call with
  | sockOpen conn type addrtype bindport => cases hcall
  | sockClose conn => cases hcall
  | sockAccept conn => cases hcall
  | _ =>
    refine ⟨?_, Prog.returns_seq _ fun _ => Prog.returns_pure rfl⟩
    simp only [implSock, socketImplConnect, socketImplListen, socketImplSend, socketImplRecv,
      socketImplRecvDone, socketHasdata, socketStraddr]
    repeat' first
      | exact Prog.uses_pure _
      | exact Prog.uses_ask rfl
      | refine Prog.uses_bind ?_ ?_
      | intro _
      | split

/-- A program whose result is only packed: the trace is its own. -/
theorem exec_pack {α β : Type} {p : Prog (Sys tgt) α} {f : α → β} {b : β}
    (h : Exec (fdEnv tgt) (p >>= fun a => pure (f a)) w t b w') :
    ∃ a, Exec (fdEnv tgt) p w t a w' ∧ b = f a := by
  rw [exec_bind] at h
  obtain ⟨t₁, a, w₁, t₂, hp, h, ht⟩ := h
  obtain ⟨ht₂, hb, hw'⟩ := (exec_pure _).mp h
  subst ht ht₂ hw'
  rw [List.append_nil]
  exact ⟨a, hp, hb⟩

/-- **Every call** has one of the effects, and of the descriptors that were open before it closes
    that of its own slot at most. -/
theorem exec_implSock_effect {call : SocketCall tgt} {r : SocketRet}
    (h : Exec (fdEnv tgt) (implSock s call) w t (r, s') w') :
    CallEffect s (connOf call) w t s' w' ∧
      ∀ fd, w fd ≠ none → fd ≠ s.sockets (connOf call) → Unclosed fd t := by
  cases call with
  | sockOpen conn type addrtype bindport =>
    obtain ⟨⟨b, s₁⟩, hp, hr⟩ := exec_pack h
    injection hr with _ hs'
    subst hs'
    exact ⟨exec_socketImplOpen hp, fun fd hopen _ => unclosed_socketImplOpen hopen hp⟩
  | sockClose conn =>
    obtain ⟨s₁, hp, hr⟩ := exec_pack h
    injection hr with _ hs'
    subst hs'
    refine ⟨exec_socketImplClose hp, ?_⟩
    intro fd _ hfd
    have hops : (socketImplClose s conn).Uses (Spares fd) :=
      ⟨(fun hop => nomatch hop), fun _ =>
        ⟨fun hop => hfd (SysOp.close.inj hop).symm, fun _ => trivial⟩⟩
    exact unclosed_of_uses hops hp
  | sockAccept conn =>
    obtain ⟨⟨b, s₁⟩, hp, hr⟩ := exec_pack h
    injection hr with _ hs'
    subst hs'
    exact ⟨exec_socketImplAccept hp, fun fd _ hfd => unclosed_socketImplAccept hfd hp⟩
  | _ =>
    obtain ⟨hs', hsame⟩ := exec_quietCall rfl h
    have hw' := exec_unchanged hsame h
    subst hs' hw'
    exact ⟨.nothing, fun fd _ _ => unclosed_of_same hsame⟩

/-! ## §3. Ownership. -/

/-- Every open descriptor is the link's, in the table, or was lost in what has happened so far;
    the link's is in the mode `flags`. -/
structure Accounted (bgbSock : SOCKET) (flags : UInt32) (s : SocketImpl tgt) (past : Trace (Sys tgt))
    (w : Fds) : Prop where
  table : TableInv bgbSock s w
  link : w bgbSock = some flags
  valid : w INVALID_SOCKET = none
  owned : ∀ fd, w fd ≠ none → fd = bgbSock ∨ (∃ i, s.sockets i = fd) ∨ fd ∈ unset past

variable {flags : UInt32} {past : Trace (Sys tgt)}

/-- Nothing that changes the descriptors has happened since. -/
theorem Accounted.later (h : Accounted bgbSock flags s past w)
    (ht : ∀ e ∈ t, changesFds e.op = false) : Accounted bgbSock flags s (past ++ t) w where
  table := h.table
  link := h.link
  valid := h.valid
  owned := by
    intro fd hfd
    rcases h.owned fd hfd with hown | hown | hown
    · exact Or.inl hown
    · exact Or.inr (Or.inl hown)
    · exact Or.inr (Or.inr (unset_append hown (unclosed_of_same ht)))

/-- **A call keeps the ownership.** -/
theorem Accounted.call {conn : Fin tgt.maxConnections} (h : Accounted bgbSock flags s past w)
    (he : CallEffect s conn w t s' w')
    (hkeep : ∀ fd, w fd ≠ none → fd ≠ s.sockets conn → Unclosed fd t)
    (htable : TableInv bgbSock s' w') : Accounted bgbSock flags s' (past ++ t) w' := by
  -- a descriptor just handed out is none of those that were open
  have hfresh : ∀ {sock fd : SOCKET}, w sock = none → w fd ≠ none → fd ≠ sock := by
    intro sock fd hnew hfd heq
    rw [heq] at hfd
    exact hfd hnew
  have hlink : w bgbSock ≠ none := by
    rw [h.link]
    exact Option.some_ne_none flags
  -- the other slots keep what they had, and what was lost is not closed
  have hslot : ∀ {fd sock : SOCKET}, w fd ≠ none → fd ≠ s.sockets conn →
      fd = bgbSock ∨ (∃ i, (s.set conn sock).sockets i = fd) ∨ fd ∈ unset (past ++ t) := by
    intro fd sock hfd hne
    rcases h.owned fd hfd with hown | ⟨i, hi⟩ | hown
    · exact Or.inl hown
    · have hi' : i ≠ conn := by
        intro hic
        rw [hic] at hi
        exact hne hi.symm
      exact Or.inr (Or.inl ⟨i, by rw [SocketImpl.set_other _ _ hi']; exact hi⟩)
    · exact Or.inr (Or.inr (unset_append hown (hkeep fd hfd hne)))
  -- the same with the slot of the call, where the table does not change
  have hsame : ∀ {fd : SOCKET}, w fd ≠ none →
      fd = bgbSock ∨ (∃ i, s.sockets i = fd) ∨ fd ∈ unset (past ++ t) := by
    intro fd hfd
    by_cases hne : fd = s.sockets conn
    · exact Or.inr (Or.inl ⟨conn, hne.symm⟩)
    · rcases h.owned fd hfd with hown | hown | hown
      · exact Or.inl hown
      · exact Or.inr (Or.inl hown)
      · exact Or.inr (Or.inr (unset_append hown (hkeep fd hfd hne)))
  cases he with
  | nothing => exact ⟨htable, h.link, h.valid, fun fd hfd => hsame hfd⟩
  | @opened sock flags' hfree hsock hnew =>
    refine ⟨htable, ?_, ?_, ?_⟩
    · rw [Function.update_of_ne (hfresh hnew hlink), h.link]
    · rw [Function.update_of_ne hsock.symm, h.valid]
    · intro fd hfd
      by_cases heq : fd = sock
      · subst heq
        exact Or.inr (Or.inl ⟨conn, SocketImpl.set_self ..⟩)
      · rw [Function.update_of_ne heq] at hfd
        refine hslot hfd ?_
        rw [hfree]
        intro hinv
        rw [hinv] at hfd
        exact hfd h.valid
  | closed hused =>
    refine ⟨htable, ?_, ?_, ?_⟩
    · rw [Function.update_of_ne (h.table.notLink conn hused).symm, h.link]
    · rw [Function.update_of_ne hused.symm, h.valid]
    · intro fd hfd
      by_cases heq : fd = s.sockets conn
      · rw [heq, Function.update_self] at hfd
        exact absurd rfl hfd
      · rw [Function.update_of_ne heq] at hfd
        exact hslot hfd heq
  | @accepted sock flags' hused hsock hnew =>
    refine ⟨htable, ?_, ?_, ?_⟩
    · rw [Function.update_of_ne (h.table.notLink conn hused).symm,
        Function.update_of_ne (hfresh hnew hlink), h.link]
    · rw [Function.update_of_ne hused.symm, Function.update_of_ne hsock.symm, h.valid]
    · intro fd hfd
      by_cases heq : fd = s.sockets conn
      · rw [heq, Function.update_self] at hfd
        exact absurd rfl hfd
      · rw [Function.update_of_ne heq] at hfd
        by_cases hsame : fd = sock
        · subst hsame
          exact Or.inr (Or.inl ⟨conn, SocketImpl.set_self ..⟩)
        · rw [Function.update_of_ne hsame] at hfd
          exact hslot hfd heq
  | @lost sock flags' hsock hnew hunset =>
    refine ⟨htable, ?_, ?_, ?_⟩
    · rw [Function.update_of_ne (hfresh hnew hlink), h.link]
    · rw [Function.update_of_ne hsock.symm, h.valid]
    · intro fd hfd
      by_cases heq : fd = sock
      · subst heq
        exact Or.inr (Or.inr (unset_append_right past hunset))
      · rw [Function.update_of_ne heq] at hfd
        exact hsame hfd

/-- The callbacks of libmobile on their own. -/
theorem triple_implSock (call : SocketCall tgt) :
    Triple (fdEnv tgt) fdGuard (Accounted bgbSock flags s) (implSock s call)
      fun r => Accounted bgbSock flags r.2 := by
  intro past w h
  refine wp_of_exec ?_ (wp_implSock call h.table)
  intro t r w' hx hpost
  obtain ⟨heffect, hkeep⟩ := exec_implSock_effect hx
  exact h.call heffect hkeep hpost.1

/-- Requests on the link alone. -/
theorem triple_link {α : Type} {p : Prog (Sys tgt) α} (hp : p.Uses (QuietOn bgbSock)) :
    Triple (fdEnv tgt) fdGuard (Accounted bgbSock flags s) p fun _ => Accounted bgbSock flags s := by
  intro past w h
  have hopen : w bgbSock ≠ none := by
    rw [h.link]
    exact Option.some_ne_none flags
  refine wp_of_exec ?_ (wp_quiet hp hopen)
  intro t a w' hx hpost
  rw [hpost.1]
  exact h.later fun e he => (Exec.uses hp hx e he).2

/-! ## §4. The rest of the process. -/

/-- The descriptors `v` and, beside them, those of the rest of the process, are the ones of `w`. -/
structure Beside (foreign v w : Fds) : Prop where
  apart : ∀ fd, v fd ≠ none → foreign fd = none
  all : ∀ fd, w fd = (v fd).or (foreign fd)

variable {foreign v : Fds}

theorem Beside.mine (h : Beside foreign v w) {fd : SOCKET} (hfd : v fd ≠ none) : w fd = v fd := by
  rw [h.all fd]
  cases hv : v fd with
  | none => exact absurd hv hfd
  | some flags => rfl

theorem Beside.of_none (h : Beside foreign v w) {fd : SOCKET} (hfd : w fd = none) :
    v fd = none ∧ foreign fd = none := by
  rw [h.all fd] at hfd
  exact Option.or_eq_none_iff.mp hfd

/-- What is one's own can be used beside the rest. -/
theorem Beside.guard {foreign v w : Fds} (h : Beside foreign v w) {op : SysOp tgt}
    (hop : fdGuard v op) : fdGuard w op := by
  intro fd hfd
  have hv : v fd ≠ none := hop fd hfd
  show w fd ≠ none
  rw [h.mine hv]
  exact hv

/-- One of one's own descriptors changes. -/
theorem Beside.update (h : Beside foreign v w) {fd : SOCKET} (hfd : foreign fd = none)
    (x : Option UInt32) : Beside foreign (Function.update v fd x) (Function.update w fd x) where
  apart := by
    intro fd' hfd'
    by_cases heq : fd' = fd
    · rw [heq, hfd]
    · rw [Function.update_of_ne heq] at hfd'
      exact h.apart fd' hfd'
  all := by
    intro fd'
    by_cases heq : fd' = fd
    · rw [heq, Function.update_self, Function.update_self, hfd, Option.or_none]
    · rw [Function.update_of_ne heq, Function.update_of_ne heq, h.all fd']

/-- **The system is local**: requests about one's own descriptors are answered, beside those of
    others, as if they were the only ones. -/
theorem fdEnv_local (v w : Fds) (op : SysOp tgt) (x : op.Ans) (w' : Fds)
    (h : Beside foreign v w) (hguard : fdGuard v op) (hE : fdEnv tgt w op x w') :
    ∃ v', fdEnv tgt v op x v' ∧ Beside foreign v' w' := by
  have hnew : ∀ fd : SOCKET, ((fd = INVALID_SOCKET ∧ w' = w) ∨ (fd ≠ INVALID_SOCKET ∧ w fd = none ∧
      ∃ flags, w' = Function.update w fd (some flags))) →
      ∃ v', ((fd = INVALID_SOCKET ∧ v' = v) ∨ (fd ≠ INVALID_SOCKET ∧ v fd = none ∧
        ∃ flags, v' = Function.update v fd (some flags))) ∧ Beside foreign v' w' := by
    intro fd hE
    rcases hE with ⟨hfd, hw'⟩ | ⟨hfd, hnone, flags, hw'⟩
    · subst hw'
      exact ⟨v, Or.inl ⟨hfd, rfl⟩, h⟩
    · subst hw'
      obtain ⟨hv, hforeign⟩ := h.of_none hnone
      exact ⟨_, Or.inr ⟨hfd, hv, flags, rfl⟩, h.update hforeign _⟩
  have hsame : w' = w → ∃ v', v' = v ∧ Beside foreign v' w' := by
    intro hw'
    subst hw'
    exact ⟨v, rfl, h⟩
  cases op with
  | socket family type => exact hnew x hE
  | accept fd => exact hnew x hE
  | close fd =>
    have hE : w' = Function.update w fd none := hE
    subst hE
    have hfd : v fd ≠ none := hguard fd (List.mem_singleton_self fd)
    exact ⟨_, rfl, h.update (h.apart fd hfd) none⟩
  | fcntlGetfl fd =>
    obtain ⟨hans, hw'⟩ := hE
    subst hw'
    have hfd : v fd ≠ none := hguard fd (List.mem_singleton_self fd)
    exact ⟨v, ⟨fun flags hx => (h.mine hfd).symm.trans (hans flags hx), rfl⟩, h⟩
  | fcntlSetfl fd flags =>
    have hfd : v fd ≠ none := hguard fd (List.mem_singleton_self fd)
    rcases hE with ⟨hrc, hw'⟩ | ⟨hrc, _, hw'⟩
    · subst hw'
      exact ⟨v, Or.inl ⟨hrc, rfl⟩, h⟩
    · subst hw'
      exact ⟨_, Or.inr ⟨hrc, hfd, rfl⟩, h.update (h.apart fd hfd) _⟩
  | assert ok =>
    obtain ⟨v', hv', hb⟩ := hsame hE.2
    exact ⟨v', ⟨hE.1, hv'⟩, hb⟩
  | _ => exact hsame hE

end MobileBgb.Socket
