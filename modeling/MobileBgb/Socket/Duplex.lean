/-
  MobileBgb.Socket.Duplex — a TCP connection between two adapters, both ways.

  Each way is a queue (`Way`).  Any call may fail, any part of a send may be accepted, any
  part of the queue may come in one read, and at any moment the connection may be aborted:
  then what is under way is lost, and the receiving side gets an error before it finds the
  end.

  The events of the two sides decide what is in the queues (`WayInv`): what has been read,
  followed by what is queued, is a prefix of what was sent, all of it unless something was
  lost; and an end that is found before any error is the end of all that was sent.
-/
import MobileBgb.Socket.Receive

namespace MobileBgb.Socket

open MobileBgb.Effect
open MobileBgb.System

variable {tgt : Target}

/-! ## §1. The connection. -/

/-- The two ends. -/
inductive Side where
  | left
  | right
  deriving DecidableEq

def Side.other : Side → Side
  | .left => .right
  | .right => .left

/-- One direction of the connection. -/
structure Way where
  queue : List UInt8
  /-- Everything the sending side's system has accepted. -/
  sent : List UInt8
  /-- The sending side has closed. -/
  closed : Bool
  /-- The connection was aborted. -/
  lost : Bool
  /-- An error has been reported to the receiving side. -/
  reported : Bool
  deriving DecidableEq

/-- The way to each side. -/
abbrev Duplex := Side → Way

/-- A fresh connection. -/
def Way.fresh : Way := ⟨[], [], false, false, false⟩

/-- Bytes are accepted; those of an aborted connection go nowhere. -/
def Way.push (q : Way) (bs : List UInt8) : Way :=
  { q with queue := if q.lost then q.queue else q.queue ++ bs, sent := q.sent ++ bs }

/-- The receiving side gets an error: one that says more than "try again" is a report. -/
def Way.report (q : Way) (err : Errno) : Way :=
  { q with reported := q.reported || err != .ewouldblock }

/-- Nothing more comes.  The loss of data is reported before that. -/
def Way.AtEnd (q : Way) : Prop :=
  q.queue = [] ∧ (q.closed = true ∨ q.lost = true) ∧ (q.lost = true → q.reported = true)

/-- What a request does to the way TO the side that makes it. -/
def recvPart (q : Way) (op : SysOp tgt) (ans : op.Ans) (q' : Way) : Prop :=
  match op, ans with
  | .recvfrom _ _ _, .error err => q' = q.report err
  | .recvfrom _ size peek, .ok (buf, _) =>
      (buf = [] ∧ (q.AtEnd ∨ size = 0) ∧ q' = q) ∨
        (buf ≠ [] ∧ buf.length ≤ size ∧ buf.length ≤ MAX_RW_COUNT ∧
          ∃ rest, q.queue = buf ++ rest ∧ q' = if peek then q else { q with queue := rest })
  | .sendto _ _ _, .error err => q' = q.report err
  | .getsockoptType _, ans => q' = q ∧ (ans = none ∨ ans = some .stream)
  | .assert ok, _ => ok = true ∧ q' = q
  | _, _ => q' = q

/-- What a request does to the way FROM the side that makes it. -/
def sendPart (q : Way) (op : SysOp tgt) (ans : op.Ans) (q' : Way) : Prop :=
  match op, ans with
  | .sendto _ data _, .ok n =>
      n ≤ data.length ∧ n ≤ MAX_RW_COUNT ∧ q.closed = false ∧ q' = q.push (data.take n)
  | .close _, _ => q' = { q with closed := true }
  | _, _ => q' = q

/-- The system of one side. -/
def sideEnv (tgt : Target) (e : Side) : Env (Sys tgt) Duplex := fun w op ans w' =>
  recvPart (w e) op ans (w' e) ∧ sendPart (w e.other) op ans (w' e.other)

/-- The connection is aborted: of what is under way to one side only a part is still there. -/
def Aborts (w w' : Duplex) : Prop :=
  ∃ e kept, kept <+: (w e).queue ∧
    w' = Function.update w e { w e with queue := kept, lost := true }

/-! ## §2. What is read off the events. -/

def bytesSent : Event (Sys tgt) → List UInt8
  | ⟨.sendto _ data _, ans⟩ =>
      match (ans : Except Errno Nat) with
      | .ok n => data.take n
      | .error _ => []
  | _ => []

def bytesRead : Event (Sys tgt) → List UInt8
  | ⟨.recvfrom _ _ peek, ans⟩ =>
      match (ans : Except Errno (List UInt8 × Option SockAddr)) with
      | .ok (buf, _) => if peek then [] else buf
      | .error _ => []
  | _ => []

/-- An error that says more than "try again". -/
def failsHard : Event (Sys tgt) → Bool
  | ⟨.sendto _ _ _, ans⟩ =>
      match (ans : Except Errno Nat) with
      | .ok _ => false
      | .error err => err != .ewouldblock
  | ⟨.recvfrom _ _ _, ans⟩ =>
      match (ans : Except Errno (List UInt8 × Option SockAddr)) with
      | .ok _ => false
      | .error err => err != .ewouldblock
  | _ => false

/-- A read that finds the end. -/
def findsEnd : Event (Sys tgt) → Bool
  | ⟨.recvfrom _ size _, ans⟩ =>
      match (ans : Except Errno (List UInt8 × Option SockAddr)) with
      | .ok (buf, _) => decide (buf = [] ∧ 0 < size)
      | .error _ => false
  | _ => false

def hangsUp : Event (Sys tgt) → Bool
  | ⟨.close _, _⟩ => true
  | _ => false

def sentIn (t : Trace (Sys tgt)) : List UInt8 := t.flatMap bytesSent
def readIn (t : Trace (Sys tgt)) : List UInt8 := t.flatMap bytesRead

/-- Something is `p`, and nothing before it is `q`. -/
def before {α : Type} (p q : α → Bool) : List α → Bool
  | [] => false
  | a :: l => p a || (!q a && before p q l)

theorem before_append {α : Type} (p q : α → Bool) (l l' : List α) :
    before p q (l ++ l') = (before p q l || (!l.any q && before p q l')) := by
  induction l with
  | nil => simp [before]
  | cons a l ih =>
    simp only [List.cons_append, before, ih, List.any_cons]
    cases p a <;> cases q a <;> simp

theorem before_snoc {α : Type} (p q : α → Bool) (l : List α) (a : α) :
    before p q (l ++ [a]) = (before p q l || (!l.any q && p a)) := by
  rw [before_append]
  simp [before]

/-- The end was found before any error. -/
def cleanEnd (t : Trace (Sys tgt)) : Bool := before findsEnd failsHard t

theorem cleanEnd_append (t t' : Trace (Sys tgt)) :
    cleanEnd (t ++ t') = (cleanEnd t || (!t.any failsHard && cleanEnd t')) :=
  before_append findsEnd failsHard t t'

theorem cleanEnd_snoc (t : Trace (Sys tgt)) (e : Event (Sys tgt)) :
    cleanEnd (t ++ [e]) = (cleanEnd t || (!t.any failsHard && findsEnd e)) :=
  before_snoc findsEnd failsHard t e

@[simp] theorem sentIn_append (t t' : Trace (Sys tgt)) : sentIn (t ++ t') = sentIn t ++ sentIn t' :=
  List.flatMap_append

@[simp] theorem readIn_append (t t' : Trace (Sys tgt)) : readIn (t ++ t') = readIn t ++ readIn t' :=
  List.flatMap_append

@[simp] theorem sentIn_singleton (e : Event (Sys tgt)) : sentIn [e] = bytesSent e :=
  List.flatMap_singleton _ _

@[simp] theorem readIn_singleton (e : Event (Sys tgt)) : readIn [e] = bytesRead e :=
  List.flatMap_singleton _ _

theorem readIn_snoc {t : Trace (Sys tgt)} {e : Event (Sys tgt)} {bs : List UInt8}
    (h : bytesRead e = bs) : readIn (t ++ [e]) = readIn t ++ bs := by
  rw [readIn_append, readIn_singleton, h]

theorem readIn_noRead {t : Trace (Sys tgt)} {e : Event (Sys tgt)} (h : bytesRead e = []) :
    readIn (t ++ [e]) = readIn t := by
  rw [readIn_snoc h, List.append_nil]

/-- What has been seen once stays seen. -/
theorem any_snoc {p : Event (Sys tgt) → Bool} {t : Trace (Sys tgt)} (e : Event (Sys tgt))
    (h : t.any p = true) : (t ++ [e]).any p = true := by
  rw [List.any_append, h]
  rfl

theorem any_snoc_last {p : Event (Sys tgt) → Bool} (t : Trace (Sys tgt)) {e : Event (Sys tgt)}
    (h : p e = true) : (t ++ [e]).any p = true := by
  rw [List.any_append]
  simp [h]

/-! ## §3. The events decide what is in the queues. -/

/-- One way of the connection, from what the receiving side (`t`) and the sending side (`t'`) have
    done. -/
structure WayInv (t t' : Trace (Sys tgt)) (q : Way) : Prop where
  sent : q.sent = sentIn t'
  held : readIn t ++ q.queue <+: q.sent
  whole : q.lost = false → readIn t ++ q.queue = q.sent
  closed : q.closed = true → t'.any hangsUp = true
  reported : q.reported = true → t.any failsHard = true
  ended : cleanEnd t = true → q.closed = true ∧ readIn t = q.sent

section WayInv

variable {t t' : Trace (Sys tgt)} {q q' : Way} {e : Event (Sys tgt)}

/-- The receiving side did something that is no read; an error may have been reported, the end may
    have been found. -/
theorem WayInv.noRead (h : WayInv t t' q) (hread : bytesRead e = []) (b : Bool)
    (hb : b = true → q.reported = true ∨ failsHard e = true)
    (hended : cleanEnd (t ++ [e]) = true → q.closed = true ∧ readIn t = q.sent) :
    WayInv (t ++ [e]) t' { q with reported := b } where
  sent := h.sent
  held := by
    rw [readIn_noRead hread]
    exact h.held
  whole := by
    rw [readIn_noRead hread]
    exact h.whole
  closed := h.closed
  reported := by
    intro hrep
    rcases hb hrep with hrep | hfail
    · exact any_snoc e (h.reported hrep)
    · exact any_snoc_last t hfail
  ended := by
    rw [readIn_noRead hread]
    exact hended

/-- An event that finds no end leaves a clean end where it was. -/
theorem WayInv.ended_snoc (h : WayInv t t' q) (hend : findsEnd e = false)
    (hclean : cleanEnd (t ++ [e]) = true) : q.closed = true ∧ readIn t = q.sent := by
  rw [cleanEnd_snoc, hend, Bool.and_false, Bool.or_false] at hclean
  exact h.ended hclean

theorem WayInv.quiet (h : WayInv t t' q) (hread : bytesRead e = []) (hend : findsEnd e = false) :
    WayInv (t ++ [e]) t' q :=
  h.noRead hread q.reported Or.inl (h.ended_snoc hend)

theorem WayInv.report (h : WayInv t t' q) (hread : bytesRead e = []) (hend : findsEnd e = false)
    {err : Errno} (hfail : failsHard e = (err != .ewouldblock)) :
    WayInv (t ++ [e]) t' (q.report err) := by
  refine h.noRead hread _ ?_ (h.ended_snoc hend)
  intro hb
  rw [hfail]
  exact (Bool.or_eq_true _ _).mp hb

/-- The receiving side found the end. -/
theorem WayInv.atEnd (h : WayInv t t' q) (hread : bytesRead e = []) (hend : q.AtEnd) :
    WayInv (t ++ [e]) t' q := by
  refine h.noRead hread q.reported Or.inl ?_
  intro hclean
  rw [cleanEnd_snoc, Bool.or_eq_true] at hclean
  rcases hclean with hclean | hnow
  · exact h.ended hclean
  · -- no error so far, so nothing was lost
    rw [Bool.and_eq_true, Bool.not_eq_true'] at hnow
    obtain ⟨hqueue, hover, hreport⟩ := hend
    have hkept : q.lost = false := by
      cases hlost : q.lost with
      | false => rfl
      | true =>
        have hfailed := h.reported (hreport hlost)
        rw [hnow.1] at hfailed
        cases hfailed
    have hall := h.whole hkept
    rw [hqueue, List.append_nil] at hall
    rw [hkept] at hover
    exact ⟨hover.resolve_right (by decide), hall⟩

/-- The receiving side took the front of the queue off. -/
theorem WayInv.read (h : WayInv t t' q) {buf rest : List UInt8} (hread : bytesRead e = buf)
    (hend : findsEnd e = false) (hqueue : q.queue = buf ++ rest) :
    WayInv (t ++ [e]) t' { q with queue := rest } where
  sent := h.sent
  held := by
    rw [readIn_snoc hread, List.append_assoc, ← hqueue]
    exact h.held
  whole := by
    intro hkept
    rw [readIn_snoc hread, List.append_assoc, ← hqueue]
    exact h.whole hkept
  closed := h.closed
  reported := fun hrep => any_snoc e (h.reported hrep)
  ended := by
    intro hclean
    obtain ⟨hclosed, hall⟩ := h.ended_snoc hend hclean
    refine ⟨hclosed, ?_⟩
    -- all had been read before, so the queue was empty
    have hheld := h.held
    rw [hall] at hheld
    have hnil : q.queue = [] := by
      have hle := hheld.length_le
      rw [List.length_append] at hle
      exact List.length_eq_zero_iff.mp (by omega)
    rw [hnil] at hqueue
    obtain ⟨hbuf, _⟩ := List.append_eq_nil_iff.mp hqueue.symm
    rw [readIn_snoc hread, hbuf, List.append_nil]
    exact hall

/-- **The receiving side makes a request.** -/
theorem WayInv.recvPart {op : SysOp tgt} {ans : op.Ans} (h : WayInv t t' q)
    (hpart : recvPart q op ans q') : WayInv (t ++ [⟨op, ans⟩]) t' q' := by
  cases op with
  | recvfrom fd size peek =>
    match ans, hpart with
    | .error err, hpart =>
      rw [show q' = q.report err from hpart]
      exact h.report rfl rfl rfl
    | .ok (buf, sockAddr), hpart =>
      rcases hpart with ⟨hbuf, hend, hq'⟩ | ⟨hbuf, _, _, rest, hqueue, hq'⟩
      · subst hq' hbuf
        have hread : bytesRead (⟨.recvfrom fd size peek, .ok ([], sockAddr)⟩ : Event (Sys tgt)) = [] :=
          ite_self _
        rcases hend with hend | hzero
        · exact h.atEnd hread hend
        · subst hzero
          exact h.quiet hread rfl
      · have hnot : findsEnd (⟨.recvfrom fd size peek, .ok (buf, sockAddr)⟩ : Event (Sys tgt))
            = false := decide_eq_false fun hfound => hbuf hfound.1
        cases peek with
        | true =>
          rw [show q' = q from hq']
          exact h.quiet rfl hnot
        | false =>
          rw [show q' = { q with queue := rest } from hq']
          exact h.read rfl hnot hqueue
  | sendto fd data addr =>
    match ans, hpart with
    | .error err, hpart =>
      rw [show q' = q.report err from hpart]
      exact h.report rfl rfl rfl
    | .ok n, hpart =>
      rw [show q' = q from hpart]
      exact h.quiet rfl rfl
  | getsockoptType fd =>
    rw [hpart.1]
    exact h.quiet rfl rfl
  | assert ok =>
    rw [hpart.2]
    exact h.quiet rfl rfl
  | _ =>
    rw [show q' = q from hpart]
    exact h.quiet rfl rfl

/-- The sending side did something that is no send; it may have closed. -/
theorem WayInv.noSend (h : WayInv t t' q) (hsent : bytesSent e = []) (b : Bool)
    (hb : b = true → q.closed = true ∨ hangsUp e = true) (hkeep : q.closed = true → b = true) :
    WayInv t (t' ++ [e]) { q with closed := b } where
  sent := by
    rw [sentIn_append, sentIn_singleton, hsent, List.append_nil]
    exact h.sent
  held := h.held
  whole := h.whole
  closed := by
    intro hclosed
    rcases hb hclosed with hclosed | hcloses
    · exact any_snoc e (h.closed hclosed)
    · exact any_snoc_last t' hcloses
  reported := h.reported
  ended := by
    intro hclean
    obtain ⟨hclosed, hall⟩ := h.ended hclean
    exact ⟨hkeep hclosed, hall⟩

/-- Bytes of the sending side were accepted: it has not closed. -/
theorem WayInv.push (h : WayInv t t' q) {bs : List UInt8} (hsent : bytesSent e = bs)
    (hopen : q.closed = false) : WayInv t (t' ++ [e]) (q.push bs) where
  sent := by
    rw [sentIn_append, sentIn_singleton, hsent, ← h.sent]
    rfl
  held := by
    show readIn t ++ (if q.lost = true then q.queue else q.queue ++ bs) <+: q.sent ++ bs
    cases hlost : q.lost with
    | true => exact h.held.trans (List.prefix_append _ _)
    | false =>
      rw [if_neg (by decide), ← List.append_assoc, h.whole hlost]
  whole := by
    intro hkept
    have hkept : q.lost = false := hkept
    show readIn t ++ (if q.lost = true then q.queue else q.queue ++ bs) = q.sent ++ bs
    rw [hkept, if_neg (by decide), ← List.append_assoc, h.whole hkept]
  closed := fun hclosed => any_snoc e (h.closed hclosed)
  reported := h.reported
  ended := by
    intro hclean
    have hclosed := (h.ended hclean).1
    rw [hopen] at hclosed
    cases hclosed

/-- **The sending side makes a request.** -/
theorem WayInv.sendPart {op : SysOp tgt} {ans : op.Ans} (h : WayInv t t' q)
    (hpart : sendPart q op ans q') : WayInv t (t' ++ [⟨op, ans⟩]) q' := by
  have hquiet : ∀ {e : Event (Sys tgt)}, bytesSent e = [] → WayInv t (t' ++ [e]) q :=
    fun hsent => h.noSend hsent q.closed Or.inl id
  cases op with
  | sendto fd data addr =>
    match ans, hpart with
    | .error err, hpart =>
      rw [show q' = q from hpart]
      exact hquiet rfl
    | .ok n, hpart =>
      obtain ⟨_, _, hopen, hq'⟩ := hpart
      rw [hq']
      exact h.push rfl hopen
  | close fd =>
    rw [show q' = { q with closed := true } from hpart]
    exact h.noSend rfl true (fun _ => Or.inr rfl) (fun _ => rfl)
  | _ =>
    rw [show q' = q from hpart]
    exact hquiet rfl

/-- The connection is aborted. -/
theorem WayInv.abort (h : WayInv t t' q) {kept : List UInt8} (hkept : kept <+: q.queue) :
    WayInv t t' { q with queue := kept, lost := true } where
  sent := h.sent
  held := ((List.prefix_append_right_inj _).mpr hkept).trans h.held
  whole := fun hlost => nomatch hlost
  closed := h.closed
  reported := h.reported
  ended := h.ended

end WayInv

/-- Both ways. -/
def DuplexInv (ts : Side → Trace (Sys tgt)) (w : Duplex) : Prop :=
  ∀ e : Side, WayInv (ts e) (ts e.other) (w e)

theorem Side.other_ne (e : Side) : e.other ≠ e := by
  cases e <;> decide

theorem Side.other_other (e : Side) : e.other.other = e := by
  cases e <;> rfl

theorem Side.eq_or_other (e i : Side) : e = i ∨ e = i.other := by
  cases e <;> cases i <;> decide

theorem duplexInv_request {ts : Side → Trace (Sys tgt)} {w w' : Duplex} {i : Side} {op : SysOp tgt}
    {x : op.Ans} (h : DuplexInv ts w) (hE : sideEnv tgt i w op x w') :
    DuplexInv (Function.update ts i (ts i ++ [⟨op, x⟩])) w' := by
  intro e
  rcases e.eq_or_other i with rfl | rfl
  · rw [Function.update_self, Function.update_of_ne e.other_ne]
    exact (h e).recvPart hE.1
  · have hway := h i.other
    rw [i.other_other] at hway
    rw [i.other_other, Function.update_self, Function.update_of_ne i.other_ne]
    exact hway.sendPart hE.2

theorem duplexInv_abort {ts : Side → Trace (Sys tgt)} {w w' : Duplex} (h : DuplexInv ts w)
    (hM : Aborts w w') : DuplexInv ts w' := by
  obtain ⟨i, kept, hkept, hw'⟩ := hM
  subst hw'
  intro e
  by_cases he : e = i
  · subst he
    rw [Function.update_self]
    exact (h e).abort hkept
  · rw [Function.update_of_ne he]
    exact h e

end MobileBgb.Socket
