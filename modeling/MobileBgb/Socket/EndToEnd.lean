/-
  MobileBgb.Socket.EndToEnd — two adapters that talk to each other over TCP.

  Both ends run `socket_impl.c`; libmobile makes any calls of `socket_impl_send`,
  `socket_impl_recv` and `socket_impl_close` on its connection, and the two programs
  interleave at every system call, over the connection of `MobileBgb.Socket.Duplex`.

  What counts is what libmobile is TOLD: `accepted` are the bytes whose number
  `socket_impl_send` returned, `handedOver` those that `socket_impl_recv` gave it.  Each call
  tells what its own events did (`Told`), and the events of both sides meet in the queues.
-/
import MobileBgb.Effect.Parallel
import MobileBgb.Socket.Duplex

namespace MobileBgb.Socket

open MobileBgb.Effect
open MobileBgb.System
open Relation

variable {tgt : Target}

/-! ## §1. The two programs. -/

/-- The calls of libmobile on its connection. -/
inductive ConnCall where
  | send (data : List UInt8) (addr : Option MobileAddr)
  | recv (call : RecvCall)
  | close

def ConnCall.call (conn : Fin tgt.maxConnections) : ConnCall → SocketCall tgt
  | .send data addr => .sockSend conn data addr
  | .recv call => .sockRecv conn call.size call.addr
  | .close => .sockClose conn

/-- What libmobile has been told, call by call. -/
abbrev Log := List (ConnCall × SocketRet)

/-- One call; its result is written down. -/
def talk (conn : Fin tgt.maxConnections) (c : ConnCall) (s : SocketImpl tgt × Log) :
    Prog (Sys tgt) (SocketImpl tgt × Log) := do
  let (r, state) ← implSock s.1 (c.call conn)
  return (state, s.2 ++ [(c, r)])

/-- The bytes a send was told to have gone out. -/
def acceptedOf : ConnCall × SocketRet → List UInt8
  | (.send data _, .int rc) => data.take rc.toNat
  | _ => []

/-- The bytes a read handed over. -/
def handedOf : ConnCall × SocketRet → List UInt8
  | (.recv call, .recv r) => deliveredOf call.size r
  | _ => []

def accepted (log : Log) : List UInt8 := log.flatMap acceptedOf
def handedOver (log : Log) : List UInt8 := log.flatMap handedOf

/-- The number a call returned. -/
def codeOf : SocketRet → Int
  | .int rc => rc
  | .recv r => r.rc
  | _ => 0

theorem codeOf_int (rc : Int) : codeOf (.int rc) = rc := rfl

theorem codeOf_recv (r : RecvResult) : codeOf (.recv r) = r.rc := rfl

/-- libmobile was told that the other side is gone, and of no error before that. -/
def goneCleanly (log : Log) : Bool :=
  before (fun x => codeOf x.2 == -2) (fun x => codeOf x.2 == -1) log

/-! ## §2. Each call tells what its events did. -/

/-- The answers of a TCP socket. -/
def Plausible : Event (Sys tgt) → Prop
  | ⟨.recvfrom _ _ _, ans⟩ =>
      match (ans : Except Errno (List UInt8 × Option SockAddr)) with
      | .ok (buf, _) => buf.length ≤ MAX_RW_COUNT
      | .error _ => True
  | ⟨.sendto _ _ _, ans⟩ =>
      match (ans : Except Errno Nat) with
      | .ok n => n ≤ MAX_RW_COUNT
      | .error _ => True
  | ⟨.getsockoptType _, ans⟩ => (ans : Option SockType) = none ∨ (ans : Option SockType) = some .stream
  | _ => True

theorem sideEnv_plausible {e : Side} {w w' : Duplex} {op : SysOp tgt} {x : op.Ans}
    (h : sideEnv tgt e w op x w') : Plausible ⟨op, x⟩ := by
  cases op with
  | recvfrom fd size peek =>
    match x, h with
    | .error err, _ => trivial
    | .ok (buf, sockAddr), h =>
      rcases h.1 with ⟨hbuf, _, _⟩ | ⟨_, _, hmax, _⟩
      · subst hbuf
        exact Nat.zero_le _
      · exact hmax
  | sendto fd data addr =>
    match x, h with
    | .error err, _ => trivial
    | .ok n, h => exact h.2.2.1
  | getsockoptType fd => exact h.1.2
  | _ => trivial

/-- What a call tells, against the events in it. -/
structure Told (c : ConnCall) (t : Trace (Sys tgt)) (r : SocketRet) : Prop where
  accepted : acceptedOf (c, r) = sentIn t
  handed : handedOf (c, r) = readIn t
  failed : t.any failsHard = true → codeOf r = -1
  gone : codeOf r = -2 → cleanEnd t = true

/-- Events that neither read nor send. -/
def Quiet (t : Trace (Sys tgt)) : Prop :=
  ∀ e ∈ t, bytesSent e = [] ∧ bytesRead e = [] ∧ failsHard e = false ∧ findsEnd e = false

section Quiet

variable {t₀ t₁ : Trace (Sys tgt)}

theorem Quiet.sentIn (h : Quiet t₀) : sentIn t₀ = [] :=
  List.flatMap_eq_nil_iff.mpr fun e he => (h e he).1

theorem Quiet.readIn (h : Quiet t₀) : readIn t₀ = [] :=
  List.flatMap_eq_nil_iff.mpr fun e he => (h e he).2.1

theorem Quiet.failsHard (h : Quiet t₀) : t₀.any failsHard = false :=
  List.any_eq_false.mpr fun e he => by rw [(h e he).2.2.1]; decide

theorem Quiet.cons {e : Event (Sys tgt)} (he : bytesSent e = [] ∧ bytesRead e = [] ∧
    MobileBgb.Socket.failsHard e = false ∧ findsEnd e = false) (h : Quiet t₀) :
    Quiet (e :: t₀) := by
  intro e' hmem
  rcases List.mem_cons.mp hmem with rfl | hmem
  · exact he
  · exact h e' hmem

theorem Quiet.nil : Quiet ([] : Trace (Sys tgt)) := fun _ he => nomatch he

/-- A call with one event that is not quiet. -/
theorem Told.one {c : ConnCall} {e : Event (Sys tgt)} {r : SocketRet} (h₀ : Quiet t₀)
    (h₁ : Quiet t₁) (hacc : acceptedOf (c, r) = bytesSent e) (hread : handedOf (c, r) = bytesRead e)
    (hfail : failsHard e = true → codeOf r = -1) (hgone : codeOf r = -2 → findsEnd e = true) :
    Told c (t₀ ++ e :: t₁) r where
  accepted := by
    rw [sentIn_append, h₀.sentIn, List.nil_append, hacc]
    show _ = bytesSent e ++ sentIn t₁
    rw [h₁.sentIn, List.append_nil]
  handed := by
    rw [readIn_append, h₀.readIn, List.nil_append, hread]
    show _ = bytesRead e ++ readIn t₁
    rw [h₁.readIn, List.append_nil]
  failed := by
    rw [List.any_append, h₀.failsHard, List.any_cons, h₁.failsHard, Bool.false_or, Bool.or_false]
    exact hfail
  gone := by
    intro hcode
    rw [cleanEnd_append, h₀.failsHard]
    simp [cleanEnd, before, hgone hcode]

/-- A call with quiet events only. -/
theorem Told.quiet {c : ConnCall} {r : SocketRet} (h₀ : Quiet t₀) (hacc : acceptedOf (c, r) = [])
    (hread : handedOf (c, r) = []) (hgone : codeOf r ≠ -2) : Told c t₀ r where
  accepted := hacc.trans h₀.sentIn.symm
  handed := hread.trans h₀.readIn.symm
  failed := by
    rw [h₀.failsHard]
    exact fun hfail => nomatch hfail
  gone := fun hcode => absurd hcode hgone

end Quiet

/-- Without a guard, in an environment that gives plausible answers. -/
abbrev wpTcp {α : Type} (p : Prog (Sys tgt) α) (Q : Trace (Sys tgt) → α → Prop) : Prop :=
  wp (allowing Plausible) (fun _ _ => True) p (fun t a _ => Q t a) ()

theorem wp_hasdata_quiet {sock : SOCKET} :
    wpTcp (socketHasdata sock : Prog (Sys tgt) Int) (fun t _ => Quiet t) := by
  unfold wpTcp socketHasdata
  rw [wp_ask_bind]
  refine ⟨trivial, ?_⟩
  intro rc _ _
  by_cases hrc : (rc : Int) = -1
  · rw [if_pos hrc]
    exact ⟨trivial, fun _ _ _ => .cons ⟨rfl, rfl, rfl, rfl⟩ (.cons ⟨rfl, rfl, rfl, rfl⟩ .nil)⟩
  · rw [if_neg hrc]
    exact .cons ⟨rfl, rfl, rfl, rfl⟩ .nil

theorem wp_send_told {s : SocketImpl tgt} {conn : Fin tgt.maxConnections} {data : List UInt8}
    {addr : Option MobileAddr} :
    wpTcp (socketImplSend s conn data addr)
      (fun t rc => Told (.send data addr) t (.int rc)) := by
  unfold socketImplSend
  refine ⟨trivial, ?_⟩
  intro _ _ _
  refine ⟨trivial, ?_⟩
  intro res _ hres
  have hassert : Quiet [(⟨.assert (decide (s.sockets conn ≠ INVALID_SOCKET)), ()⟩ : Event (Sys tgt))] :=
    .cons ⟨rfl, rfl, rfl, rfl⟩ .nil
  have hperror : ∀ u, Quiet [(⟨.diag (.socketPerror "send"), u⟩ : Event (Sys tgt))] :=
    fun u => .cons ⟨rfl, rfl, rfl, rfl⟩ .nil
  match res, hres with
  | .ok n, hres =>
    have hn : n ≤ MAX_RW_COUNT := hres
    refine .one hassert .nil ?_ rfl (fun h => nomatch h) ?_
    · show data.take (intOfLen n).toNat = data.take n
      rw [intOfLen_eq hn, Int.toNat_natCast]
    · intro hcode
      rw [codeOf_int, intOfLen_eq hn] at hcode
      omega
  | .error err, _ =>
    cases err with
    | ewouldblock =>
      exact .one hassert .nil rfl rfl (fun h => nomatch h) (fun h => absurd h (by decide))
    | _ =>
      exact ⟨trivial, fun u _ _ => .one hassert (hperror u) rfl rfl (fun _ => rfl)
        (fun h => absurd h (by decide))⟩

/-- The end of a read, whichever of the two kinds it is. -/
theorem wp_recvAnswer_told {sock : SOCKET} (call : RecvCall) {n : Nat} {peek : Bool}
    {res : Except Errno (List UInt8 × Option SockAddr)} {t₀ : Trace (Sys tgt)} (h₀ : Quiet t₀)
    (hpeek : call.size = none ↔ peek = true) (hn : 0 < n)
    (hres : Plausible (⟨.recvfrom sock n peek, res⟩ : Event (Sys tgt))) :
    wpTcp (recvAnswer sock call.size call.addr res) (fun t r =>
      Told (.recv call) (t₀ ++ (⟨.recvfrom sock n peek, res⟩ : Event (Sys tgt)) :: t) (.recv r)) := by
  have hcode : ∀ rc, handedOf (.recv call, .recv (.code rc)) = [] := by
    intro rc
    show deliveredOf call.size (.code rc) = []
    cases call.size with
    | none => rfl
    | some n => exact List.take_nil
  match res, hres with
  | .error err, _ =>
    cases err with
    | ewouldblock =>
      exact .one h₀ .nil rfl (hcode 0) (fun h => nomatch h) (fun h => absurd h (by decide))
    | _ =>
      exact ⟨trivial, fun u _ _ => .one h₀ (.cons ⟨rfl, rfl, rfl, rfl⟩ .nil) rfl (hcode (-1))
        (fun _ => rfl) (fun h => absurd h (by decide))⟩
  | .ok ([], sockAddr), _ =>
    have hread : bytesRead (⟨.recvfrom sock n peek, .ok ([], sockAddr)⟩ : Event (Sys tgt)) = [] :=
      ite_self _
    refine ⟨trivial, ?_⟩
    intro type _ htype
    rcases htype with htype | htype
    · subst htype
      exact ⟨trivial, fun u _ _ => .one h₀ (.cons ⟨rfl, rfl, rfl, rfl⟩ (.cons ⟨rfl, rfl, rfl, rfl⟩ .nil))
        rfl ((hcode (-1)).trans hread.symm) (fun h => nomatch h) (fun h => absurd h (by decide))⟩
    · subst htype
      exact .one h₀ (.cons ⟨rfl, rfl, rfl, rfl⟩ .nil) rfl ((hcode (-2)).trans hread.symm)
        (fun h => nomatch h) (fun _ => decide_eq_true ⟨rfl, hn⟩)
  | .ok (b :: bs, sockAddr), hres =>
    have hlen : (b :: bs).length ≤ MAX_RW_COUNT := hres
    unfold recvAnswer socketImplRecvDone
    cases hsize : call.size with
    | none =>
      have hp := hpeek.mp hsize
      subst hp
      exact .one h₀ .nil rfl (hcode 0) (fun h => nomatch h) (fun h => absurd h (by decide))
    | some m =>
      have hp : peek = false := by
        cases peek with
        | false => rfl
        | true => exact absurd (hpeek.mpr rfl) (by rw [hsize]; simp)
      subst hp
      refine .one h₀ .nil rfl ?_ (fun h => nomatch h) ?_
      · show deliveredOf call.size _ = b :: bs
        rw [hsize]
        show (b :: bs).take (intOfLen (b :: bs).length).toNat = b :: bs
        rw [intOfLen_eq hlen, Int.toNat_natCast, List.take_length]
      · intro hcode
        rw [codeOf_recv] at hcode
        dsimp only at hcode
        rw [intOfLen_eq hlen] at hcode
        omega

theorem wp_recv_told {s : SocketImpl tgt} {conn : Fin tgt.maxConnections} {call : RecvCall} :
    wpTcp (socketImplRecv s conn call.size call.addr)
      (fun t r => Told (.recv call) t (.recv r)) := by
  unfold wpTcp socketImplRecv
  rw [wp_ask_bind]
  refine ⟨trivial, ?_⟩
  intro u _ _
  apply wp_bind
  refine wp_mono ?_ wp_hasdata_quiet
  intro t₂ rc _ hquiet
  have hquiet : Quiet (_ :: t₂) := .cons (e := ⟨.assert (decide (s.sockets conn ≠ INVALID_SOCKET)), u⟩)
    ⟨rfl, rfl, rfl, rfl⟩ hquiet
  by_cases hrc : rc ≤ 0
  · rw [if_pos hrc]
    refine .quiet ?_ rfl ?_ (by decide)
    · rw [List.append_nil]
      exact hquiet
    · show deliveredOf call.size (.code 0) = []
      cases call.size with
      | none => rfl
      | some n => rfl
  rw [if_neg hrc]
  cases hsize : call.size with
  | none =>
    dsimp only
    rw [wp_ask_bind]
    refine ⟨trivial, ?_⟩
    intro res _ hres
    have hend := wp_recvAnswer_told call hquiet (by rw [hsize]; simp) Nat.one_pos hres
    rw [hsize] at hend
    exact hend
  | some n =>
    dsimp only
    rw [wp_ask_bind]
    refine ⟨trivial, ?_⟩
    intro res _ hres
    have hend := wp_recvAnswer_told call hquiet (by rw [hsize]; simp)
      (call.nonempty n hsize) hres
    rw [hsize] at hend
    exact hend

/-- **One call**, whatever it is. -/
theorem wp_talk {s : SocketImpl tgt} {conn : Fin tgt.maxConnections} {c : ConnCall} {log : Log} :
    wpTcp (talk conn c (s, log)) (fun t s' => ∃ r, s'.2 = log ++ [(c, r)] ∧ Told c t r) := by
  unfold wpTcp talk
  apply wp_bind_pure
  cases c with
  | send data addr =>
    apply wp_bind_pure
    exact wp_mono (fun t rc _ h => ⟨.int rc, rfl, h⟩) wp_send_told
  | recv call =>
    apply wp_bind_pure
    exact wp_mono (fun t r _ h => ⟨.recv r, rfl, h⟩) wp_recv_told
  | close =>
    apply wp_bind_pure
    refine ⟨trivial, fun _ _ _ => ⟨trivial, fun _ _ _ => ⟨.unit, rfl, ?_⟩⟩⟩
    exact .quiet (.cons ⟨rfl, rfl, rfl, rfl⟩ (.cons ⟨rfl, rfl, rfl, rfl⟩ .nil)) rfl rfl (by decide)

/-- What libmobile was told by completed calls, against the events in them. -/
structure LogInv (t : Trace (Sys tgt)) (log : Log) : Prop where
  accepted : accepted log = sentIn t
  handedOver : handedOver log = readIn t
  failed : t.any failsHard = true → (log.any fun x => codeOf x.2 == -1) = true
  gone : goneCleanly log = true → cleanEnd t = true

theorem LogInv.snoc {t t' : Trace (Sys tgt)} {log : Log} {c : ConnCall} {r : SocketRet}
    (h : LogInv t log) (hcall : Told c t' r) : LogInv (t ++ t') (log ++ [(c, r)]) where
  accepted := by
    unfold MobileBgb.Socket.accepted
    rw [List.flatMap_append, List.flatMap_singleton, sentIn_append, hcall.accepted, ← h.accepted]
    rfl
  handedOver := by
    unfold MobileBgb.Socket.handedOver
    rw [List.flatMap_append, List.flatMap_singleton, readIn_append, hcall.handed, ← h.handedOver]
    rfl
  failed := by
    rw [List.any_append, List.any_append, Bool.or_eq_true, Bool.or_eq_true]
    intro hfail
    rcases hfail with hfail | hfail
    · exact Or.inl (h.failed hfail)
    · exact Or.inr (by simp [hcall.failed hfail])
  gone := by
    unfold goneCleanly
    rw [before_snoc, cleanEnd_append, Bool.or_eq_true, Bool.or_eq_true]
    intro hgone
    rcases hgone with hgone | hgone
    · exact Or.inl (h.gone hgone)
    · -- told now: no call before it has told of an error, so none has met one
      rw [Bool.and_eq_true, Bool.not_eq_true', beq_iff_eq] at hgone
      right
      have hclean : t.any failsHard = false := by
        cases hfail : t.any failsHard with
        | false => rfl
        | true =>
          have htold := h.failed hfail
          rw [hgone.1] at htold
          cases htold
      rw [hclean, hcall.gone hgone.2]
      rfl

theorem calls_logInv {conn : Fin tgt.maxConnections} {table : SocketImpl tgt}
    {t : Trace (Sys tgt)} {s : SocketImpl tgt × Log}
    (h : Calls Plausible (talk conn) (table, []) t s) : LogInv t s.2 := by
  induction h with
  | none => exact ⟨rfl, rfl, (fun h => nomatch h), (fun h => nomatch h)⟩
  | snoc _ c hx ih =>
    obtain ⟨⟨r, hlog, htold⟩, _⟩ := wp_exec wp_talk hx
    rw [hlog]
    exact ih.snoc htold

/-! ## §3. End to end. -/

/-- The two adapters. -/
abbrev Adapters (tgt : Target) := Parties Side (Sys tgt) ConnCall (SocketImpl tgt × Log) Duplex

/-- One step of the two: any call, any answer, an abort. -/
abbrev AdapterStep (conn : Side → Fin tgt.maxConnections) : Adapters tgt → Adapters tgt → Prop :=
  ParStep (sideEnv tgt) Aborts fun e => talk (conn e)

/-- Connected, before the first calls. -/
def connected (tables : Side → SocketImpl tgt) : Adapters tgt :=
  .start (fun e => (tables e, [])) fun _ => .fresh

/-- What libmobile has been told on one side. -/
def logOf (g : Adapters tgt) (e : Side) : Log := (g.party e).state.2

section EndToEnd

variable {conn : Side → Fin tgt.maxConnections} {tables : Side → SocketImpl tgt}
  {g : Adapters tgt}

theorem duplexInv_reached (h : ReflTransGen (AdapterStep conn) (connected tables) g) :
    DuplexInv g.pasts g.shared := by
  refine parties_invariant (fun ts w i op x w' => duplexInv_request) (fun ts w w' => duplexInv_abort)
    ?_ h
  intro e
  exact ⟨rfl, List.prefix_rfl, fun _ => rfl, (fun h => nomatch h), (fun h => nomatch h),
    (fun h => nomatch h)⟩

/-- The completed calls of a side are a part of what it has done, all of it between two calls. -/
theorem logInv_reached (h : ReflTransGen (AdapterStep conn) (connected tables) g) (e : Side) :
    ∃ t t', LogInv t (logOf g e) ∧ g.pasts e = t ++ t' ∧ ((g.party e).doing = none → t' = []) := by
  obtain ⟨t, t', hcalls, hwithin, hpast⟩ :=
    parties_follow (fun i w op x w' => sideEnv_plausible) _ _ h e
  refine ⟨t, t', calls_logInv hcalls, hpast, ?_⟩
  intro hidle
  unfold Party.within at hwithin
  rw [hidle] at hwithin
  exact hwithin

/-- **End to end.**  In every interleaving of two adapters, whatever fails, with reads into buffers
    of at least one byte (`RecvCall.nonempty`): seen by a side that is between two calls, what the other side has been handed is a prefix of what this side was told
    to have gone out.  If both are between two calls and the connection was not aborted, the rest
    is in the queue.  And a side that is told the other one is gone, before it is told of any
    error, has been handed all that the other side was told to have gone out: that side has
    closed. -/
theorem adapters_end_to_end (h : ReflTransGen (AdapterStep conn) (connected tables) g) (e : Side)
    (hidle : (g.party e).doing = none) :
    handedOver (logOf g e.other) <+: accepted (logOf g e) ∧
    ((g.party e.other).doing = none →
      ((g.shared e.other).lost = false →
        accepted (logOf g e) = handedOver (logOf g e.other) ++ (g.shared e.other).queue) ∧
      (goneCleanly (logOf g e) = true →
        (g.shared e).closed = true ∧ handedOver (logOf g e) = accepted (logOf g e.other))) := by
  have hinv := duplexInv_reached h
  obtain ⟨t, t', hlog, hpast, hall⟩ := logInv_reached h e
  obtain ⟨u, u', hlog', hpast', hall'⟩ := logInv_reached h e.other
  have hmine : g.pasts e = t := by
    rw [hpast, hall hidle, List.append_nil]
  have hway := hinv e.other
  rw [e.other_other, hmine] at hway
  refine ⟨?_, ?_⟩
  · rw [hlog.accepted, hlog'.handedOver, ← hway.sent]
    refine .trans ?_ hway.held
    rw [hpast', readIn_append, List.append_assoc]
    exact List.prefix_append _ _
  · intro hidle'
    have hother : g.pasts e.other = u := by
      rw [hpast', hall' hidle', List.append_nil]
    rw [hother] at hway
    refine ⟨?_, ?_⟩
    · intro hkept
      rw [hlog.accepted, hlog'.handedOver, ← hway.sent, hway.whole hkept]
    · intro hgone
      have hback := hinv e
      rw [hmine, hother] at hback
      obtain ⟨hclosed, hread⟩ := hback.ended (hlog.gone hgone)
      exact ⟨hclosed, by rw [hlog.handedOver, hlog'.accepted, ← hback.sent, hread]⟩

end EndToEnd

/-- One way to serve two adapters: a send takes two bytes, nothing is lost. -/
def duplexServe (e : Side) (w : Duplex) : (op : SysOp tgt) → op.Ans × Duplex
  | .sendto _ data _ =>
      if (w e.other).closed then (.error .ewouldblock, w)
      else (.ok (min data.length 2),
        Function.update w e.other ((w e.other).push (data.take (min data.length 2))))
  | .recvfrom _ size peek =>
      if (w e).queue ≠ [] ∧ 0 < size then
        (.ok ((w e).queue.take (min size MAX_RW_COUNT), none),
          if peek then w
          else Function.update w e { w e with queue := (w e).queue.drop (min size MAX_RW_COUNT) })
      else if (w e).queue = [] ∧ (w e).closed ∧ (w e).lost = false then (.ok ([], none), w)
      else (.error .ewouldblock, w)
  | .poll _ _ => (1, w)
  | .getsockoptType _ => (some .stream, w)
  | .close _ => ((), Function.update w e.other { w e.other with closed := true })
  | op => (plainAns op, w)

theorem report_ewouldblock (q : Way) : q.report .ewouldblock = q := by
  unfold Way.report
  simp

theorem sideEnv_serve (e : Side) (w : Duplex) (op : SysOp tgt) (hop : assertHolds op = true) :
    sideEnv tgt e w op (duplexServe e w op).1 (duplexServe e w op).2 := by
  have hne : e ≠ e.other := e.other_ne.symm
  cases op with
  | sendto fd data addr =>
    have hserve : duplexServe e w (.sendto fd data addr : SysOp tgt)
        = if (w e.other).closed then (.error .ewouldblock, w)
          else (.ok (min data.length 2),
            Function.update w e.other ((w e.other).push (data.take (min data.length 2)))) := rfl
    rw [hserve]
    split_ifs with hclosed
    · exact ⟨(report_ewouldblock _).symm, rfl⟩
    · refine ⟨Function.update_of_ne hne _ _, Nat.min_le_left _ _, ?_, ?_, Function.update_self _ _ _⟩
      · exact (Nat.min_le_right _ _).trans (by decide)
      · exact Bool.not_eq_true _ ▸ hclosed
  | recvfrom fd size peek =>
    have hserve : duplexServe e w (.recvfrom fd size peek : SysOp tgt)
        = if (w e).queue ≠ [] ∧ 0 < size then
            (.ok ((w e).queue.take (min size MAX_RW_COUNT), none),
              if peek then w
              else Function.update w e
                { w e with queue := (w e).queue.drop (min size MAX_RW_COUNT) })
          else if (w e).queue = [] ∧ (w e).closed ∧ (w e).lost = false then (.ok ([], none), w)
          else (.error .ewouldblock, w) := rfl
    rw [hserve]
    have hmax : 0 < MAX_RW_COUNT := by decide
    have htaken : (w e).queue ≠ [] ∧ 0 < size → (w e).queue.take (min size MAX_RW_COUNT) ≠ [] ∧
        ((w e).queue.take (min size MAX_RW_COUNT)).length ≤ size ∧
        ((w e).queue.take (min size MAX_RW_COUNT)).length ≤ MAX_RW_COUNT := by
      rintro ⟨hqueue, hsize⟩
      rw [List.length_take]
      refine ⟨?_, by omega, by omega⟩
      intro hnil
      rcases List.take_eq_nil_iff.mp hnil with hzero | hnil
      · omega
      · exact hqueue hnil
    split_ifs with hqueue hpeek hend
    · obtain ⟨hbuf, hle, hle'⟩ := htaken hqueue
      exact ⟨Or.inr ⟨hbuf, hle, hle', _, (List.take_append_drop _ _).symm, (if_pos hpeek).symm⟩, rfl⟩
    · obtain ⟨hbuf, hle, hle'⟩ := htaken hqueue
      refine ⟨Or.inr ⟨hbuf, hle, hle', _, (List.take_append_drop _ _).symm, ?_⟩,
        Function.update_of_ne e.other_ne _ _⟩
      rw [if_neg hpeek]
      exact Function.update_self _ _ _
    · refine ⟨Or.inl ⟨rfl, Or.inl ⟨hend.1, Or.inl hend.2.1, ?_⟩, rfl⟩, rfl⟩
      rw [hend.2.2]
      exact fun h => nomatch h
    · exact ⟨(report_ewouldblock _).symm, rfl⟩
  | getsockoptType fd => exact ⟨⟨rfl, Or.inr rfl⟩, rfl⟩
  | close fd => exact ⟨Function.update_of_ne hne _ _, Function.update_self _ _ _⟩
  | assert ok => exact ⟨⟨hop, rfl⟩, rfl⟩
  | _ => exact ⟨rfl, rfl⟩

/-- The left side sends three bytes, of which two are accepted, and closes; the right side reads
    meanwhile, and once more after that. -/
def hangUp : List (Side × ConnCall) :=
  let send : Side × ConnCall := (.left, .send [1, 2, 3] none)
  let close : Side × ConnCall := (.left, .close)
  let recv : Side × ConnCall := (.right, .recv recvTwo)
  [send, send, recv, recv, send, recv, send, recv, recv,
    recv, close, recv, close, close, recv, close, recv, recv, recv]

/-- The connection both sides use. -/
def talkConn : Fin host.maxConnections := ⟨0, Nat.two_pos⟩

def hangUpRun : Adapters host :=
  (connected fun _ => ⟨fun _ => 5⟩).runSchedule duplexServe (fun _ => talk talkConn) hangUp

/-- The right side is told `2` and `-2`: it has all that the left side was told to have sent. -/
theorem adapters_end_to_end_hangUp :
    (logOf hangUpRun .right).map (fun x => codeOf x.2) = [2, -2] ∧
      handedOver (logOf hangUpRun .right) = accepted (logOf hangUpRun .left) := by
  have hok : ∀ i, ∀ e ∈ hangUpRun.pasts i, assertHolds e.op = true := by
    intro i
    have hall : (hangUpRun.pasts i).all (fun e => assertHolds e.op) = true := by
      cases i <;> decide +kernel
    exact List.all_eq_true.mp hall
  have hreach : ReflTransGen (AdapterStep fun _ => talkConn) (connected fun _ => ⟨fun _ => 5⟩)
      hangUpRun := by
    apply reaches_runSchedule sideEnv_serve
    exact hok
  have hright : (hangUpRun.party .right).doing.isNone = true := by decide +kernel
  have hleft : (hangUpRun.party .left).doing.isNone = true := by decide +kernel
  exact ⟨by decide +kernel, (((adapters_end_to_end hreach .right (Option.isNone_iff_eq_none.mp hright)).2
    (Option.isNone_iff_eq_none.mp hleft)).2 (by decide +kernel)).2⟩

end MobileBgb.Socket
