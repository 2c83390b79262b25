/-
  MobileBgb.Socket.Receive — what `socket_impl_recv` delivers, and when it says
  that the other side is gone.

  The system's side of a TCP connection is a queue, a closed flag and, as a ghost,
  everything the peer ever sent (`RecvSide`).  The peer moves whenever it likes:
  before each request it may have sent more, or closed (`Peer`).  `poll` and
  `recvfrom` may fail at any time; a check (`MSG_PEEK`) takes nothing.

  Invariant of a run: what the peer sent is what the reads have delivered,
  followed by what is in the queue.  `wp_socketImplRecv` is one call,
  `received_stream` any interleaving of calls and peer moves.
-/
import MobileBgb.Effect.Wp
import MobileBgb.Socket.SocketImpl

namespace MobileBgb.Socket

open MobileBgb.Effect
open MobileBgb.System

variable {tgt : Target}

/-! ## §1. The system's side of a connection. -/

/-- The receive side of a TCP connection. -/
structure RecvSide where
  queue : List UInt8
  closed : Bool
  /-- Everything the peer has sent so far. -/
  sent : List UInt8
  deriving DecidableEq

/-- The peer may send more, and may close; once it has closed nothing comes any more. -/
def Peer (q q' : RecvSide) : Prop :=
  ∃ bs, q'.queue = q.queue ++ bs ∧ q'.sent = q.sent ++ bs ∧
    (q.closed = true → bs = [] ∧ q'.closed = true)

/-- The peer has closed and everything has been read. -/
def RecvSide.AtEnd (q : RecvSide) : Prop := q.closed = true ∧ q.queue = []

/-- `MAX_RW_COUNT`: no call transfers more, whatever size it is given. -/
def MAX_RW_COUNT : Nat := 0x7ffff000

/-- The answers to a request on a connected TCP socket, once the peer has moved. -/
def tcpAnswer (q : RecvSide) (op : SysOp tgt) (ans : op.Ans) (q' : RecvSide) : Prop :=
  match op, ans with
  | .poll _ _, rc =>
      q' = q ∧ (rc = (-1 : Int) ∨ (rc = (1 : Int) ∧ (q.queue ≠ [] ∨ q.closed = true)) ∨
        (rc = (0 : Int) ∧ ¬ (q.queue ≠ [] ∨ q.closed = true)))
  | .recvfrom _ _ _, .error _ => q' = q
  | .recvfrom _ size peek, .ok (buf, _) =>
      (buf = [] ∧ (q.AtEnd ∨ size = 0) ∧ q' = q) ∨
        (buf ≠ [] ∧ buf.length ≤ size ∧ buf.length ≤ MAX_RW_COUNT ∧
          ∃ rest, q.queue = buf ++ rest ∧ q' = if peek then q else { q with queue := rest })
  | .getsockoptType _, ans => q' = q ∧ (ans = none ∨ ans = some .stream)
  | .assert ok, _ => ok = true ∧ q' = q
  | _, _ => q' = q

/-- The environment: the peer moves, then the request is answered. -/
def tcpEnv (tgt : Target) : Env (Sys tgt) RecvSide := fun q op ans q' =>
  ∃ q₁, Peer q q₁ ∧ tcpAnswer q₁ op ans q'

/-- An error of the system. -/
def osError : Event (Sys tgt) → Bool
  | ⟨.poll _ _, rc⟩ => (rc : Int) == -1
  | ⟨.recvfrom _ _ _, ans⟩ =>
      match (ans : Except Errno (List UInt8 × Option SockAddr)) with
      | .error _ => true
      | .ok _ => false
  | ⟨.getsockoptType _, ans⟩ => (ans : Option SockType).isNone
  | _ => false

/-- What the reads of a connection have delivered, and what it still holds. -/
def Streams (delivered : List UInt8) (q : RecvSide) : Prop := q.sent = delivered ++ q.queue

section Peer

variable {q q' q'' : RecvSide} {d : List UInt8}

theorem Peer.refl (q : RecvSide) : Peer q q :=
  ⟨[], (List.append_nil _).symm, (List.append_nil _).symm, fun h => ⟨rfl, h⟩⟩

theorem Peer.trans (h : Peer q q') (h' : Peer q' q'') : Peer q q'' := by
  obtain ⟨bs, hq, hs, hc⟩ := h
  obtain ⟨bs', hq', hs', hc'⟩ := h'
  refine ⟨bs ++ bs', by rw [hq', hq, List.append_assoc], by rw [hs', hs, List.append_assoc], ?_⟩
  intro hclosed
  obtain ⟨hbs, hclosed⟩ := hc hclosed
  obtain ⟨hbs', hclosed⟩ := hc' hclosed
  exact ⟨by rw [hbs, hbs']; rfl, hclosed⟩

theorem Peer.streams (h : Peer q q') (hq : Streams d q) : Streams d q' := by
  obtain ⟨bs, hqueue, hsent, _⟩ := h
  unfold Streams at hq ⊢
  rw [hsent, hqueue, hq, List.append_assoc]

theorem Peer.atEnd (h : Peer q q') (hq : q.AtEnd) : q'.AtEnd := by
  obtain ⟨bs, hqueue, _, hclosed⟩ := h
  obtain ⟨hbs, hc⟩ := hclosed hq.1
  exact ⟨hc, by rw [hqueue, hq.2, hbs]; rfl⟩

end Peer

/-- A request that is not answered from the queue leaves the connection to the peer. -/
theorem tcpEnv_peer {q q' : RecvSide} {op : SysOp tgt} {ans : op.Ans}
    (h : tcpEnv tgt q op ans q') (hop : ∀ fd size peek, op ≠ .recvfrom fd size peek) : Peer q q' := by
  obtain ⟨q₁, hpeer, hans⟩ := h
  cases op with
  | recvfrom fd size peek => exact absurd rfl (hop fd size peek)
  | poll fds timeout =>
    rw [hans.1]
    exact hpeer
  | getsockoptType fd =>
    rw [hans.1]
    exact hpeer
  | assert ok =>
    rw [hans.2]
    exact hpeer
  | _ =>
    have hans : q' = q₁ := hans
    rw [hans]
    exact hpeer

/-- A `recvfrom` fails and leaves the connection to the peer, or finds the end, or takes the front
    of the queue off (a check: leaves it there). -/
theorem tcpEnv_recvfrom {q q' : RecvSide} {fd : SOCKET} {size : Nat} {peek : Bool}
    {buf : List UInt8} {sockAddr : Option SockAddr}
    (hsize : 0 < size) (h : tcpEnv tgt q (.recvfrom fd size peek) (.ok (buf, sockAddr)) q') :
    (buf = [] ∧ Peer q q' ∧ q'.AtEnd) ∨
      (buf ≠ [] ∧ buf.length ≤ MAX_RW_COUNT ∧ ¬ q.AtEnd ∧ (peek = true → Peer q q') ∧
        (peek = false → ∀ d, Streams d q → Streams (d ++ buf) q')) := by
  obtain ⟨q₁, hpeer, hans⟩ := h
  rcases hans with ⟨hbuf, hend, hq'⟩ | ⟨hbuf, _, hmax, rest, hqueue, hq'⟩
  · subst hq'
    rcases hend with hend | hzero
    · exact Or.inl ⟨hbuf, hpeer, hend⟩
    · omega
  · refine Or.inr ⟨hbuf, hmax, ?_, ?_, ?_⟩
    · -- bytes that were there cannot have been behind the end
      intro hend
      have hnil := (hpeer.atEnd hend).2
      rw [hqueue] at hnil
      exact hbuf (List.append_eq_nil_iff.mp hnil).1
    · intro hpeek
      rw [hq', hpeek]
      exact hpeer
    · intro hpeek d hd
      have hd := hpeer.streams hd
      rw [hq', hpeek]
      unfold Streams at hd ⊢
      rw [hqueue] at hd
      show q₁.sent = d ++ buf ++ rest
      rw [hd, List.append_assoc]

theorem tcpEnv_recvfrom_error {q q' : RecvSide} {fd : SOCKET} {size : Nat} {peek : Bool}
    {err : Errno} (h : tcpEnv tgt q (.recvfrom fd size peek) (.error err) q') : Peer q q' := by
  obtain ⟨q₁, hpeer, hans⟩ := h
  have hans : q' = q₁ := hans
  rw [hans]
  exact hpeer

/-! ## §2. One call. -/

theorem intOfLen_eq {n : Nat} (h : n ≤ MAX_RW_COUNT) : intOfLen n = n := by
  unfold MAX_RW_COUNT at h
  unfold intOfLen
  omega

/-- The bytes a call hands to libmobile: the first `rc` of the buffer, when there is one. -/
def deliveredOf (size : Option UInt32) (r : RecvResult) : List UInt8 :=
  match size with
  | none => []
  | some _ => r.data.take r.rc.toNat

/-- What one call leaves, seen from the state `q` before it and the bytes `d` delivered until
    then. -/
structure RecvPost (d : List UInt8) (size : Option UInt32) (q : RecvSide) (t : Trace (Sys tgt))
    (r : RecvResult) (q' : RecvSide) : Prop where
  streams : Streams (d ++ deliveredOf size r) q'
  check : size = none → r.rc ≤ 0 ∧ Peer q q'
  gone : r.rc = -2 → q'.AtEnd
  atEnd : q.AtEnd → q'.AtEnd
  detects : q.AtEnd → t.any osError = false → r.rc = -2

/-- At the end of the stream a poll that does not fail reports it. -/
theorem wp_socketHasdata_tcp {sock : SOCKET} {q : RecvSide} :
    wp (tcpEnv tgt) (fun _ _ => True) (socketHasdata sock)
      (fun t rc q' => Peer q q' ∧ (q.AtEnd → t.any osError = false → 0 < rc)) q := by
  unfold socketHasdata
  rw [wp_ask_bind]
  refine ⟨trivial, ?_⟩
  intro rc q₁ hE
  have hpeer := tcpEnv_peer hE (fun _ _ _ h => nomatch h)
  by_cases hrc : (rc : Int) = -1
  · rw [if_pos hrc, wp_ask_bind]
    refine ⟨trivial, ?_⟩
    intro u q₂ hE₂
    refine ⟨hpeer.trans (tcpEnv_peer hE₂ (fun _ _ _ h => nomatch h)), ?_⟩
    intro _ herr
    have herr : (((rc : Int) == -1) || (false || false)) = false := herr
    simp [hrc] at herr
  · rw [if_neg hrc]
    refine ⟨hpeer, ?_⟩
    intro hend _
    -- a closed connection counts as readable
    obtain ⟨q₀, hpeer₀, _, hans⟩ := hE
    rcases hans with h | ⟨h, _⟩ | ⟨_, hnot⟩
    · exact absurd h hrc
    · have h : rc = (1 : Int) := h
      subst h
      exact Int.one_pos
    · exact absurd (Or.inr (hpeer₀.atEnd hend).1) hnot

/-- The end of a call that delivered nothing. -/
theorem RecvPost.nothing {d : List UInt8} {size : Option UInt32} {q q' : RecvSide}
    {t : Trace (Sys tgt)} {rc : Int} (hd : Streams d q) (hpeer : Peer q q') (hrc : rc ≤ 0)
    (hgone : rc = -2 → q'.AtEnd) (hdetects : q.AtEnd → t.any osError = false → rc = -2) :
    RecvPost d size q t (.code rc) q' where
  streams := by
    have hnone : deliveredOf size (.code rc) = [] := by
      cases size <;> simp [deliveredOf, RecvResult.code]
    rw [hnone, List.append_nil]
    exact hpeer.streams hd
  check := fun _ => ⟨hrc, hpeer⟩
  gone := hgone
  atEnd := hpeer.atEnd
  detects := hdetects

/-- What `socket_impl_recv` does with an empty read: only a stream has ended. -/
def recvEmpty (sock : SOCKET) (size : Option UInt32) (addr : Bool) (sockAddr : Option SockAddr) :
    Prog (Sys tgt) RecvResult := do
  match ← Sys.getsockoptType sock with
  | none =>
      Sys.diag (.socketPerror "getsockopt")
      return .code (-1)
  | some .stream => return .code (-2)
  | some _ => socketImplRecvDone size addr [] sockAddr

/-- What it does with the answer of its `recvfrom`, whichever of the two it was. -/
def recvAnswer (sock : SOCKET) (size : Option UInt32) (addr : Bool) :
    Except Errno (List UInt8 × Option SockAddr) → Prog (Sys tgt) RecvResult
  | .error .ewouldblock => return .code 0
  | .error _ => do
      Sys.diag (.socketPerror "recv")
      return .code (-1)
  | .ok ([], sockAddr) => recvEmpty sock size addr sockAddr
  | .ok (buf, sockAddr) => socketImplRecvDone size addr buf sockAddr

theorem wp_recvEmpty {sock : SOCKET} {d : List UInt8} {size : Option UInt32} {addr : Bool}
    {sockAddr : Option SockAddr} {q q₀ : RecvSide} (t₀ : Trace (Sys tgt)) (hd : Streams d q₀)
    (hpeer : Peer q₀ q) (hend : q.AtEnd) :
    wp (tcpEnv tgt) (fun _ _ => True) (recvEmpty sock size addr sockAddr)
      (fun t r q' => RecvPost d size q₀ (t₀ ++ t) r q') q := by
  unfold recvEmpty
  rw [wp_ask_bind]
  refine ⟨trivial, ?_⟩
  intro ans q₁ hE
  have hpeer₁ := hpeer.trans (tcpEnv_peer hE (fun _ _ _ h => nomatch h))
  have hend₁ := (tcpEnv_peer hE (fun _ _ _ h => nomatch h)).atEnd hend
  obtain ⟨_, _, _, hans⟩ := hE
  rcases hans with hans | hans
  · subst hans
    dsimp only
    rw [wp_ask_bind]
    refine ⟨trivial, ?_⟩
    intro u q₂ hE₂
    refine RecvPost.nothing hd (hpeer₁.trans (tcpEnv_peer hE₂ (fun _ _ _ h => nomatch h)))
      (by decide) (fun h => absurd h (by decide)) ?_
    intro _ herr
    simp [osError] at herr
  · -- a TCP socket says it is a stream: the other side is gone
    subst hans
    exact RecvPost.nothing hd hpeer₁ (by decide) (fun _ => hend₁) (fun _ _ => rfl)

/-- After an error nothing need be detected. -/
theorem wp_recvError {sock : SOCKET} {d : List UInt8} {size : Option UInt32} {addr : Bool}
    {q q₀ q₁ : RecvSide} {n : Nat} {peek : Bool} {err : Errno} (t₀ : Trace (Sys tgt))
    (hd : Streams d q₀) (hpeer : Peer q₀ q)
    (hE : tcpEnv tgt q (.recvfrom sock n peek) (.error err) q₁) :
    wp (tcpEnv tgt) (fun _ _ => True) (recvAnswer sock size addr (.error err))
      (fun t r q' => RecvPost d size q₀
        (t₀ ++ (⟨.recvfrom sock n peek, .error err⟩ : Event (Sys tgt)) :: t) r q') q₁ := by
  have hpeer₁ := hpeer.trans (tcpEnv_recvfrom_error hE)
  have herror : ∀ (t : Trace (Sys tgt)) (rc : Int),
      (t₀ ++ (⟨.recvfrom sock n peek, .error err⟩ : Event (Sys tgt)) :: t).any osError = false →
      rc = -2 := by
    intro t rc herr
    have herr₁ : osError (⟨.recvfrom sock n peek, .error err⟩ : Event (Sys tgt)) = true := rfl
    simp [herr₁] at herr
  have hfail : wp (tcpEnv tgt) (fun _ _ => True)
      (do Sys.diag (.socketPerror "recv"); return .code (-1) : Prog (Sys tgt) RecvResult)
      (fun t r q' => RecvPost d size q₀
        (t₀ ++ (⟨.recvfrom sock n peek, .error err⟩ : Event (Sys tgt)) :: t) r q') q₁ := by
    rw [wp_ask_bind]
    refine ⟨trivial, ?_⟩
    intro u q₂ hE₂
    exact RecvPost.nothing hd (hpeer₁.trans (tcpEnv_peer hE₂ (fun _ _ _ h => nomatch h)))
      (by decide) (fun h => absurd h (by decide)) (fun _ => herror _ _)
  cases err with
  | ewouldblock =>
    exact RecvPost.nothing hd hpeer₁ (Int.le_refl 0) (fun h => absurd h (by decide))
      (fun _ => herror _ _)
  | _ => exact hfail

/-- The end of a call that read something. -/
theorem RecvPost.read {d buf : List UInt8} {m : UInt32} {addr : Option MobileAddr}
    {q q' : RecvSide} {t : Trace (Sys tgt)} (hmax : buf.length ≤ MAX_RW_COUNT)
    (hnot : ¬ q.AtEnd) (hd : Streams (d ++ buf) q') :
    RecvPost d (some m) q t ⟨intOfLen buf.length, buf, addr⟩ q' where
  streams := by
    show Streams (d ++ buf.take (intOfLen buf.length).toNat) q'
    rw [intOfLen_eq hmax, Int.toNat_natCast, List.take_length]
    exact hd
  check := fun hnone => nomatch hnone
  gone := by
    intro hrc
    have hrc : intOfLen buf.length = -2 := hrc
    rw [intOfLen_eq hmax] at hrc
    omega
  atEnd := fun hend => absurd hend hnot
  detects := fun hend => absurd hend hnot

theorem wp_recvAnswer {sock : SOCKET} {d : List UInt8} {size : Option UInt32} {addr : Bool}
    {q q₀ q₁ : RecvSide} {n : Nat} {peek : Bool} (t₀ : Trace (Sys tgt))
    {res : Except Errno (List UInt8 × Option SockAddr)}
    (hsize : size = none ↔ peek = true) (hn : 0 < n) (hd : Streams d q₀) (hpeer : Peer q₀ q)
    (hE : tcpEnv tgt q (.recvfrom sock n peek) res q₁) :
    wp (tcpEnv tgt) (fun _ _ => True) (recvAnswer sock size addr res)
      (fun t r q' => RecvPost d size q₀
        (t₀ ++ (⟨.recvfrom sock n peek, res⟩ : Event (Sys tgt)) :: t) r q') q₁ := by
  match res, hE with
  | .error err, hE => exact wp_recvError t₀ hd hpeer hE
  | .ok (buf, sockAddr), hE =>
    rcases tcpEnv_recvfrom hn hE with ⟨hbuf, hpeer₁, hend⟩ | ⟨hbuf, hmax, hnot, hpeek, hread⟩
    · -- the end of the stream
      subst hbuf
      refine wp_mono ?_ (wp_recvEmpty (t₀ ++ [⟨.recvfrom sock n peek, .ok ([], sockAddr)⟩]) hd
        (hpeer.trans hpeer₁) hend)
      intro t r q' hpost
      rw [List.append_assoc, List.singleton_append] at hpost
      exact hpost
    · -- data: read, or only looked at
      have hnot₀ : ¬ q₀.AtEnd := fun hend => hnot (hpeer.atEnd hend)
      cases buf with
      | nil => exact absurd rfl hbuf
      | cons b bs =>
        unfold recvAnswer socketImplRecvDone
        cases size with
        | none =>
          exact RecvPost.nothing hd (hpeer.trans (hpeek (hsize.mp rfl))) (Int.le_refl 0)
            (fun h => absurd h (by decide)) (fun hend => absurd hend hnot₀)
        | some m =>
          have hpeek : peek = false := by
            cases peek with
            | false => rfl
            | true => exact absurd (hsize.mpr rfl) (by simp)
          exact RecvPost.read hmax hnot₀ (hread hpeek d (hpeer.streams hd))

/-- **One call.** -/
theorem wp_socketImplRecv {s : SocketImpl tgt} {conn : Fin tgt.maxConnections} {d : List UInt8}
    {size : Option UInt32} {addr : Bool} {q : RecvSide}
    (hsize : ∀ n, size = some n → 0 < n.toNat) (hd : Streams d q) :
    wp (tcpEnv tgt) (fun _ _ => True) (socketImplRecv s conn size addr)
      (fun t r q' => RecvPost d size q t r q') q := by
  unfold socketImplRecv
  rw [wp_ask_bind]
  refine ⟨trivial, ?_⟩
  intro u q₁ hE₁
  have hpeer₁ := tcpEnv_peer hE₁ (fun _ _ _ h => nomatch h)
  apply wp_bind
  refine wp_mono ?_ wp_socketHasdata_tcp
  intro t₂ rc q₂ hpost
  obtain ⟨hpeer₂, hready⟩ := hpost
  have hpeer₂ := hpeer₁.trans hpeer₂
  by_cases hrc : rc ≤ 0
  · -- nothing there, or the poll failed
    rw [if_pos hrc]
    refine RecvPost.nothing hd hpeer₂ (Int.le_refl 0) (fun h => absurd h (by decide)) ?_
    intro hend herr
    rw [List.append_nil] at herr
    have hpos := hready (hpeer₁.atEnd hend) herr
    omega
  rw [if_neg hrc]
  cases size with
  | none =>
    dsimp only
    rw [wp_ask_bind]
    refine ⟨trivial, ?_⟩
    intro res q₃ hE₃
    exact wp_recvAnswer (_ :: t₂) (by simp) Nat.one_pos hd hpeer₂ hE₃
  | some n =>
    dsimp only
    rw [wp_ask_bind]
    refine ⟨trivial, ?_⟩
    intro res q₃ hE₃
    exact wp_recvAnswer (_ :: t₂) (by simp) (hsize n rfl) hd hpeer₂ hE₃

/-! ## §3. Runs. -/

/-- A call of `socket_impl_recv`: a read of at least one byte, or a check. -/
structure RecvCall where
  size : Option UInt32
  addr : Bool
  nonempty : ∀ n, size = some n → 0 < n.toNat

/-- Calls on one connection, one a round; the results are written down. -/
def recvBody (s : SocketImpl tgt) (conn : Fin tgt.maxConnections) :
    List RecvCall × List (RecvCall × RecvResult) →
      Prog (Sys tgt) (Flow (List RecvCall × List (RecvCall × RecvResult))
        (List (RecvCall × RecvResult)))
  | ([], results) => return .done results
  | (c :: calls, results) => do
      let r ← socketImplRecv s conn c.size c.addr
      return .go (calls, results ++ [(c, r)])

/-- The results a run has so far. -/
def resultsOf : Flow (List RecvCall × List (RecvCall × RecvResult))
    (List (RecvCall × RecvResult)) → List (RecvCall × RecvResult)
  | .go (_, results) => results
  | .done results => results

/-- All bytes delivered, in order. -/
def deliveredBy (results : List (RecvCall × RecvResult)) : List UInt8 :=
  results.flatMap fun x => deliveredOf x.1.size x.2

/-- What holds at every point of a run. -/
structure RecvInv (results : List (RecvCall × RecvResult)) (q : RecvSide) : Prop where
  streams : Streams (deliveredBy results) q
  check : ∀ x ∈ results, x.1.size = none → x.2.rc ≤ 0
  gone : ∀ x ∈ results, x.2.rc = -2 → q.AtEnd

theorem wp_recvBody {s : SocketImpl tgt} {conn : Fin tgt.maxConnections}
    {p : List RecvCall × List (RecvCall × RecvResult)} {q : RecvSide} (h : RecvInv p.2 q) :
    wp (tcpEnv tgt) (fun _ _ => True) (recvBody s conn p)
      (fun _ fl q' => RecvInv (resultsOf fl) q') q := by
  obtain ⟨calls, results⟩ := p
  cases calls with
  | nil => exact h
  | cons c calls =>
    apply wp_bind
    refine wp_mono ?_ (wp_socketImplRecv c.nonempty h.streams)
    intro t r q' hpost
    -- the results grow by the one of this call; of the older ones only the end has to be kept
    constructor
    · show Streams (deliveredBy (results ++ [(c, r)])) q'
      have hcons : deliveredBy (results ++ [(c, r)]) = deliveredBy results ++ deliveredOf c.size r := by
        simp [deliveredBy]
      rw [hcons]
      exact hpost.streams
    · intro x hx hsize
      rcases List.mem_append.mp hx with hx | hx
      · exact h.check x hx hsize
      · rw [List.mem_singleton.mp hx] at hsize ⊢
        exact (hpost.check hsize).1
    · intro x hx hrc
      rcases List.mem_append.mp hx with hx | hx
      · exact hpost.atEnd (h.gone x hx hrc)
      · rw [List.mem_singleton.mp hx] at hrc
        exact hpost.gone hrc

theorem rounds_recv {s : SocketImpl tgt} {conn : Fin tgt.maxConnections}
    {p : List RecvCall × List (RecvCall × RecvResult)} {q₀ q : RecvSide}
    {rs : List (Round (Sys tgt) (List RecvCall × List (RecvCall × RecvResult))
      (List (RecvCall × RecvResult)))}
    {fl : Flow (List RecvCall × List (RecvCall × RecvResult)) (List (RecvCall × RecvResult))}
    (h0 : RecvInv p.2 q₀) (h : Rounds (tcpEnv tgt) (recvBody s conn) p q₀ rs fl q) :
    RecvInv (resultsOf fl) q := by
  refine (Rounds.wp (G := fun _ _ => True) (J := fun fl q => RecvInv (resultsOf fl) q) ?_ h0 h).2
  intro p q hp
  exact wp_recvBody hp

/-! ## §4. UDP. -/

/-- A UDP socket: any datagram may arrive at any time, also an empty one, and any call may fail.
    All that is fixed is what kind of socket it is. -/
def udpEnv (tgt : Target) : Env (Sys tgt) Unit := fun _ op ans _ =>
  match op, ans with
  | .recvfrom _ _ _, .ok (buf, _) => buf.length ≤ MAX_RW_COUNT
  | .getsockoptType _, ans => ans = none ∨ ans = some .dgram
  | .assert ok, _ => ok = true
  | _, _ => True

/-- The last step delivers a length, which is no error code. -/
theorem wp_recvDone_udp {size : Option UInt32} {addr : Bool} {buf : List UInt8}
    {sockAddr : Option SockAddr} (hlen : buf.length ≤ MAX_RW_COUNT) :
    wp (udpEnv tgt) (fun _ _ => True) (socketImplRecvDone size addr buf sockAddr)
      (fun _ r _ => r.rc ≠ -2) () := by
  unfold socketImplRecvDone
  cases size with
  | none =>
    show (0 : Int) ≠ -2
    decide
  | some n =>
    show intOfLen buf.length ≠ -2
    rw [intOfLen_eq hlen]
    omega

theorem wp_recvAnswer_udp {sock : SOCKET} {size : Option UInt32} {addr : Bool} {n : Nat}
    {peek : Bool} {res : Except Errno (List UInt8 × Option SockAddr)}
    (hE : udpEnv tgt () (.recvfrom sock n peek) res ()) :
    wp (udpEnv tgt) (fun _ _ => True) (recvAnswer sock size addr res)
      (fun _ r _ => r.rc ≠ -2) () := by
  have hcode : ∀ {msg : Diag},
      wp (udpEnv tgt) (fun _ _ => True)
        (do Sys.diag msg; return .code (-1) : Prog (Sys tgt) RecvResult)
        (fun _ r _ => r.rc ≠ -2) () := by
    intro msg
    exact ⟨trivial, fun _ _ _ => (by decide : (-1 : Int) ≠ -2)⟩
  match res, hE with
  | .error .ewouldblock, _ => exact (by decide : (0 : Int) ≠ -2)
  | .error .einprogress, _ => exact hcode
  | .error .ealready, _ => exact hcode
  | .error .eisconn, _ => exact hcode
  | .error (.other _), _ => exact hcode
  | .ok (b :: bs, sockAddr), hE => exact wp_recvDone_udp hE
  | .ok ([], sockAddr), hE =>
    -- an empty datagram: the socket says it is not a stream
    refine ⟨trivial, ?_⟩
    intro type _ htype
    rcases htype with htype | htype
    · subst htype
      exact hcode
    · subst htype
      exact wp_recvDone_udp hE

/-- On UDP a call never reports that the other side is gone. -/
theorem wp_socketImplRecv_udp {s : SocketImpl tgt} {conn : Fin tgt.maxConnections}
    {size : Option UInt32} {addr : Bool} :
    wp (udpEnv tgt) (fun _ _ => True) (socketImplRecv s conn size addr)
      (fun _ r _ => r.rc ≠ -2) () := by
  unfold socketImplRecv
  rw [wp_ask_bind]
  refine ⟨trivial, ?_⟩
  intro u _ _
  apply wp_bind
  refine wp_mono ?_ (wp_true _ ())
  intro t rc _ _
  by_cases hrc : rc ≤ 0
  · rw [if_pos hrc]
    exact (by decide : (0 : Int) ≠ -2)
  rw [if_neg hrc]
  cases size with
  | none => exact ⟨trivial, fun res _ hE => wp_recvAnswer_udp hE⟩
  | some n => exact ⟨trivial, fun res _ hE => wp_recvAnswer_udp hE⟩

/-! ## §5. The stream. -/

/-- **Received stream integrity.**  Over every interleaving of peer sends, peer close and calls on
    a TCP connection, at every point: what the peer sent is what the reads have delivered followed
    by what is still in the queue; a check returns no positive number, and the next check changes
    the connection no more than the peer does; `-2` has been returned only if the peer has closed
    and everything it sent has been delivered; and from there on every call without a system error
    returns `-2`.  On a UDP socket `-2` is never returned. -/
theorem received_stream {s : SocketImpl tgt} {conn : Fin tgt.maxConnections}
    {calls : List RecvCall} {q : RecvSide}
    {rs : List (Round (Sys tgt) (List RecvCall × List (RecvCall × RecvResult))
      (List (RecvCall × RecvResult)))}
    {fl : Flow (List RecvCall × List (RecvCall × RecvResult)) (List (RecvCall × RecvResult))}
    (h : Rounds (tcpEnv tgt) (recvBody s conn) (calls, []) ⟨[], false, []⟩ rs fl q) :
    q.sent = deliveredBy (resultsOf fl) ++ q.queue ∧
    (∀ x ∈ resultsOf fl, x.1.size = none → x.2.rc ≤ 0) ∧
    (∀ (c : RecvCall) t r q', c.size = none →
      Exec (tcpEnv tgt) (socketImplRecv s conn c.size c.addr) q t r q' → r.rc ≤ 0 ∧ Peer q q') ∧
    (∀ x ∈ resultsOf fl, x.2.rc = -2 → q.closed = true ∧ deliveredBy (resultsOf fl) = q.sent) ∧
    (q.closed = true → deliveredBy (resultsOf fl) = q.sent →
      ∀ (c : RecvCall) t r q', Exec (tcpEnv tgt) (socketImplRecv s conn c.size c.addr) q t r q' →
        t.any osError = false → r.rc = -2) ∧
    (∀ (c : RecvCall) t r, Exec (udpEnv tgt) (socketImplRecv s conn c.size c.addr) () t r () →
      r.rc ≠ -2) := by
  have h0 : RecvInv [] ⟨[], false, []⟩ :=
    ⟨rfl, (fun x hx => nomatch hx), (fun x hx => nomatch hx)⟩
  have hinv := rounds_recv h0 h
  have hstreams : q.sent = deliveredBy (resultsOf fl) ++ q.queue := hinv.streams
  refine ⟨hstreams, hinv.check, ?_, ?_, ?_, ?_⟩
  · intro c t r q' hcheck hx
    exact (wp_exec (wp_socketImplRecv c.nonempty hinv.streams) hx).1.check hcheck
  · intro x hx hrc
    obtain ⟨hclosed, hqueue⟩ := hinv.gone x hx hrc
    rw [hqueue, List.append_nil] at hstreams
    exact ⟨hclosed, hstreams.symm⟩
  · -- all that was sent is delivered: the queue is empty, and the next call finds the end
    intro hclosed hall c t r q' hx herr
    have hqueue : q.queue = [] := by
      rw [hall] at hstreams
      exact List.self_eq_append_right.mp hstreams
    exact (wp_exec (wp_socketImplRecv c.nonempty hinv.streams) hx).1.detects ⟨hclosed, hqueue⟩ herr
  · intro c t r hx
    exact (wp_exec wp_socketImplRecv_udp hx).1

/-- Before the first request the peer sends three bytes and closes. -/
def peerMove (q : RecvSide) : RecvSide :=
  if q = ⟨[], false, []⟩ then ⟨[1, 2, 3], true, [1, 2, 3]⟩ else q

theorem peer_peerMove (q : RecvSide) : Peer q (peerMove q) := by
  unfold peerMove
  split_ifs with h
  · subst h
    exact ⟨[1, 2, 3], rfl, rfl, fun h => nomatch h⟩
  · exact Peer.refl q

/-- One way to serve such a connection: nothing fails. -/
def recvServe (q : RecvSide) : (op : SysOp tgt) → op.Ans × RecvSide
  | .poll _ _ =>
      (if (peerMove q).queue ≠ [] ∨ (peerMove q).closed = true then 1 else 0, peerMove q)
  | .recvfrom _ size peek =>
      if (peerMove q).queue = [] ∧ (peerMove q).closed = false then
        (.error .ewouldblock, peerMove q)
      else
        (.ok ((peerMove q).queue.take (min size MAX_RW_COUNT), none),
          if peek then peerMove q
          else { peerMove q with queue := (peerMove q).queue.drop (min size MAX_RW_COUNT) })
  | .getsockoptType _ => (some .stream, peerMove q)
  | op => (plainAns op, peerMove q)

theorem tcpEnv_serve (q : RecvSide) (op : SysOp tgt) (hop : assertHolds op = true) :
    tcpEnv tgt q op (recvServe q op).1 (recvServe q op).2 := by
  refine ⟨peerMove q, peer_peerMove q, ?_⟩
  cases op with
  | poll fds timeout =>
    refine ⟨rfl, Or.inr ?_⟩
    show ((if (peerMove q).queue ≠ [] ∨ (peerMove q).closed = true then (1 : Int) else 0) = 1 ∧ _) ∨
      ((if (peerMove q).queue ≠ [] ∨ (peerMove q).closed = true then (1 : Int) else 0) = 0 ∧ _)
    by_cases hready : (peerMove q).queue ≠ [] ∨ (peerMove q).closed = true
    · exact Or.inl ⟨if_pos hready, hready⟩
    · exact Or.inr ⟨if_neg hready, hready⟩
  | recvfrom fd size peek =>
    have hserve : recvServe q (.recvfrom fd size peek : SysOp tgt)
        = if (peerMove q).queue = [] ∧ (peerMove q).closed = false then
            (.error .ewouldblock, peerMove q)
          else (.ok ((peerMove q).queue.take (min size MAX_RW_COUNT), none),
            if peek then peerMove q
            else { peerMove q with queue := (peerMove q).queue.drop (min size MAX_RW_COUNT) }) := rfl
    rw [hserve]
    by_cases hwait : (peerMove q).queue = [] ∧ (peerMove q).closed = false
    · rw [if_pos hwait]
      rfl
    rw [if_neg hwait]
    by_cases hbuf : (peerMove q).queue.take (min size MAX_RW_COUNT) = []
    · -- nothing was taken: the end, or nothing was asked for
      left
      have hdrop : (peerMove q).queue.drop (min size MAX_RW_COUNT) = (peerMove q).queue := by
        have happend := List.take_append_drop (min size MAX_RW_COUNT) (peerMove q).queue
        rw [hbuf] at happend
        exact happend
      refine ⟨hbuf, ?_, ?_⟩
      · rcases List.take_eq_nil_iff.mp hbuf with hzero | hnil
        · right
          have hpos : 0 < MAX_RW_COUNT := by decide
          omega
        · left
          refine ⟨?_, hnil⟩
          cases hclosed : (peerMove q).closed with
          | false => exact absurd ⟨hnil, hclosed⟩ hwait
          | true => rfl
      · show (if peek = true then _ else _) = _
        rw [hdrop]
        split_ifs <;> rfl
    · right
      refine ⟨hbuf, ?_, ?_, (peerMove q).queue.drop (min size MAX_RW_COUNT), ?_, rfl⟩
      · rw [List.length_take]
        omega
      · rw [List.length_take]
        omega
      · exact (List.take_append_drop _ _).symm
  | getsockoptType fd => exact ⟨rfl, Or.inr rfl⟩
  | assert ok => exact ⟨hop, rfl⟩
  | _ => rfl

/-- A read of two bytes, and a check. -/
def recvTwo : RecvCall := ⟨some 2, false, by rintro n ⟨⟩; decide⟩
def recvCheck : RecvCall := ⟨none, false, by rintro n ⟨⟩⟩

/-- Reads of two bytes, a check after them, and a last read. -/
def recvSession : List RecvCall := [recvTwo, recvCheck, recvTwo, recvCheck, recvTwo]

def recvSessionRun :
    List (Round (Sys host) (List RecvCall × List (RecvCall × RecvResult))
      (List (RecvCall × RecvResult))) ×
      Flow (List RecvCall × List (RecvCall × RecvResult)) (List (RecvCall × RecvResult)) ×
      RecvSide :=
  runRounds recvServe (recvBody ⟨fun _ => 5⟩ (0 : Fin 2)) 6 (recvSession, []) ⟨[], false, []⟩

/-- The three bytes come in two reads; after that both kinds of call report the end. -/
theorem received_stream_session :
    (resultsOf recvSessionRun.2.1).map (fun x => x.2.rc) = [2, 0, 1, -2, -2] ∧
      recvSessionRun.2.2.sent
        = deliveredBy (resultsOf recvSessionRun.2.1) ++ recvSessionRun.2.2.queue := by
  have hok : ∀ e ∈ traceOf recvSessionRun.1, assertHolds e.op = true := by
    have hall : (traceOf recvSessionRun.1).all (fun e => assertHolds e.op) = true := by
      decide +kernel
    exact List.all_eq_true.mp hall
  have hrun : Rounds (tcpEnv host) (recvBody ⟨fun _ => 5⟩ (0 : Fin 2)) (recvSession, [])
      ⟨[], false, []⟩ recvSessionRun.1 recvSessionRun.2.1 recvSessionRun.2.2 := by
    apply rounds_runRounds_of tcpEnv_serve
    exact hok
  exact ⟨by decide +kernel, (received_stream hrun).1⟩

end MobileBgb.Socket
