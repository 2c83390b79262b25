/-
  MobileBgb.Session.Master — `test.py` and the adapter at the two ends of the link.

  A test asks three things of the bus: to transfer a byte, to update the clock, to
  add time.  It is a program over these (`Prog Bus α`), so that what it asks next may
  depend on every byte it got; as a program it is finite, each of its runs ends.  `BGBMaster` turns each request into packets; its
  `transfer` then reads packets until a SYNC2 comes.

  The other end is the C program.  Between them are two channels, first in first out,
  that carry whole packets: a `send` or `recv` of the adapter fails or moves one whole
  packet, never a part of it.  `World` is everything on the far side of the adapter's
  socket, `Move` one step of the test, and `linkEnv` the environment in which the
  adapter runs: before and after each of its requests the test takes as many steps as
  it likes.  The executions in it are all interleavings of the two programs.

  The master packs its integers as little-endian, the adapter as its host does.
-/
import MobileBgb.Effect.Interleave
import MobileBgb.Main.TestMaster

namespace MobileBgb.Session

open MobileBgb.Effect
open MobileBgb.System
open MobileBgb.Link
open MobileBgb.Main
open Relation

variable {tgt : Target} {α : Type}

/-! ## §1. What a test asks of the bus. -/

/-- The requests of a test; times in units of 2^-21 s. -/
inductive BusOp where
  | transfer (byte : UInt8)
  | update
  | addTime (offset : Int)
  deriving DecidableEq

@[reducible] def BusOp.Ans : BusOp → Type
  | .transfer _ => UInt8
  | .update => Unit
  | .addTime _ => Unit

/-- The bus as a test sees it. -/
@[reducible] def Bus : Signature := ⟨BusOp, BusOp.Ans⟩

/-! ## §2. The packets of the master. -/

/-- `stat` of `accept`; the fields that are not given are 0. -/
def stat : BgbPacket := ⟨BgbCmd.status.code, 1, 0, 0, 0⟩

/-- The SYNC1 of `transfer`. -/
def sync1 (byte : UInt8) (timestamp : Nat) : BgbPacket :=
  ⟨BgbCmd.sync1.code, byte, 0x81, 0, UInt32.ofNat timestamp⟩

/-- What the master sends for a request, and its clock after it; `now` is its one reading of
    `int(time.time() * 2**21)`. -/
def request (clock : BGBMaster) (now : Int) : BusOp → List BgbPacket × BGBMaster
  | .transfer byte =>
      let (packets, self) := clock.forwardTime none now
      (packets ++ [sync1 byte self.getTime], self)
  | .update => clock.update none now
  | .addTime offset => clock.addTime offset now

/-! ## §3. The world of the adapter. -/

/-- Where the test stands. -/
inductive Control (α : Type) where
  /-- In `accept`, before the adapter's version has come. -/
  | accept (c : Prog Bus α)
  /-- Between two requests, `c` being left to do. -/
  | run (c : Prog Bus α)
  /-- In the loop of `transfer(byte)`, which goes on with the byte of the SYNC2. -/
  | wait (byte : UInt8) (k : UInt8 → Prog Bus α)

/-- The test, its master and the channels. -/
structure World (α : Type) where
  clock : BGBMaster
  /-- What the calls of `send` under way are still to send. -/
  out : List BgbPacket
  control : Control α
  toAdapter : List BgbPacket
  toMaster : List BgbPacket
  /-- Each request's reading of the clock, with the one before it. -/
  readings : List (Nat × Nat)

/-- The test `c`, connected and waiting in `accept`. -/
def World.start (clock : BGBMaster) (c : Prog Bus α) : World α :=
  ⟨clock, [], .accept c, [], [], []⟩

/-- The clock is read for a request. -/
def reading (clock : BGBMaster) (now : Int) (op : BusOp) : Nat × Nat :=
  (clock.getTime, (request clock now op).2.getTime)

/-- One step of the test. -/
inductive Move : World α → World α → Prop where
  /-- `send` -/
  | send (clock : BGBMaster) (p : BgbPacket) (out : List BgbPacket) (ctl : Control α)
      (ta tm : List BgbPacket) (rs : List (Nat × Nat)) :
      Move ⟨clock, p :: out, ctl, ta, tm, rs⟩ ⟨clock, out, ctl, ta ++ [p], tm, rs⟩
  /-- `accept`: the version is compared field by field; nothing is sent if it differs, and the
      caller goes on all the same. -/
  | accept (clock : BGBMaster) (c : Prog Bus α) (p : BgbPacket) (ta tm : List BgbPacket)
      (rs : List (Nat × Nat)) :
      Move ⟨clock, [], .accept c, ta, p :: tm, rs⟩
        ⟨clock, if p = handshake then [handshake, stat] else [], .run c, ta, tm, rs⟩
  | transfer (clock : BGBMaster) (byte : UInt8) (k : UInt8 → Prog Bus α) (now : Int)
      (ta tm : List BgbPacket) (rs : List (Nat × Nat)) :
      Move ⟨clock, [], .run (.call (.transfer byte) k), ta, tm, rs⟩
        ⟨(request clock now (.transfer byte)).2, (request clock now (.transfer byte)).1,
          .wait byte k, ta, tm, rs ++ [reading clock now (.transfer byte)]⟩
  | update (clock : BGBMaster) (k : Unit → Prog Bus α) (now : Int) (ta tm : List BgbPacket)
      (rs : List (Nat × Nat)) :
      Move ⟨clock, [], .run (.call .update k), ta, tm, rs⟩
        ⟨(request clock now .update).2, (request clock now .update).1, .run (k ()), ta, tm,
          rs ++ [reading clock now .update]⟩
  | addTime (clock : BGBMaster) (offset : Int) (k : Unit → Prog Bus α) (now : Int)
      (ta tm : List BgbPacket) (rs : List (Nat × Nat)) :
      Move ⟨clock, [], .run (.call (.addTime offset) k), ta, tm, rs⟩
        ⟨(request clock now (.addTime offset)).2, (request clock now (.addTime offset)).1,
          .run (k ()), ta, tm, rs ++ [reading clock now (.addTime offset)]⟩
  /-- `handle`, called by `transfer` until it returns a SYNC2. -/
  | handle (clock : BGBMaster) (byte : UInt8) (k : UInt8 → Prog Bus α) (p : BgbPacket)
      (ta tm : List BgbPacket) (rs : List (Nat × Nat)) :
      Move ⟨clock, [], .wait byte k, ta, p :: tm, rs⟩
        ⟨clock, [], if p.cmd = BgbCmd.sync2.code then .run (k p.b2) else .wait byte k, ta, tm, rs⟩

/-! ## §4. The adapter's requests. -/

/-- A packet packed in one byte order and unpacked in another. -/
def recode (a b : ByteOrder) (p : BgbPacket) : BgbPacket := .ofBytes b (p.toBytes a)

@[simp] theorem recode_cmd (a b : ByteOrder) (p : BgbPacket) : (recode a b p).cmd = p.cmd := by
  cases a <;> rfl

@[simp] theorem recode_b2 (a b : ByteOrder) (p : BgbPacket) : (recode a b p).b2 = p.b2 := by
  cases a <;> rfl

@[simp] theorem recode_self (a : ByteOrder) (p : BgbPacket) : recode a a p = p :=
  BgbPacket.ofBytes_toBytes a p

@[simp] theorem recode_handshake (a b : ByteOrder) : recode a b handshake = handshake := by
  cases a <;> cases b <;> decide

@[simp] theorem recode_isSync1 (a b : ByteOrder) (p : BgbPacket) :
    (recode a b p).isSync1 = p.isSync1 := by
  unfold BgbPacket.isSync1
  rw [recode_cmd]

/-- How the link answers: a `recv` fails or delivers the next packet, a `send` fails or takes a
    whole packet; everything else is answered freely. -/
def serves (tgt : Target) : Env (Sys tgt) (World α) := fun w op ans w' =>
  match op, ans with
  | .recv _ _, some buf =>
      ∃ p ps, w.toAdapter = p :: ps ∧ buf = p.toBytes .little ∧ w' = { w with toAdapter := ps }
  | .send _ data, some n =>
      (∃ q : BgbPacket, data = q.toBytes tgt.byteOrder) ∧ n = packetSize ∧
        w' = { w with toMaster := w.toMaster ++ [.ofBytes .little data] }
  | _, _ => w' = w

/-- The link with a test at its other end. -/
def linkEnv (tgt : Target) : Env (Sys tgt) (World α) := interleaved Move (serves tgt)

/-! ## §5. A run, seen from the link. -/

/-- What an observation of the adapter does to the world. -/
def Shown (tgt : Target) : Obs → World α → World α → Prop
  | .packet p, w, w' => ∃ q qs, w.toAdapter = q :: qs ∧ p = recode .little tgt.byteOrder q ∧
      w' = { w with toAdapter := qs }
  | .sent q ok, w, w' =>
      w' = if ok then { w with toMaster := w.toMaster ++ [recode tgt.byteOrder .little q] } else w
  | _, w, w' => w' = w

theorem serves_shown {w w' : World α} {op : SysOp tgt} {x : op.Ans}
    (h : serves tgt w op x w') :
    ofShown (Shown tgt) (obs (⟨op, x⟩ : Event (Sys tgt))) w w' := by
  cases op with
  | recv fd size =>
    cases x with
    | none => exact h
    | some buf =>
      obtain ⟨p, ps, hp, hbuf, hw⟩ := h
      have hlen : buf.length = packetSize := by
        rw [hbuf]
        exact BgbPacket.toBytes_length _ _
      have hobs : obs (⟨.recv fd size, some buf⟩ : Event (Sys tgt))
          = some (.packet (.ofBytes tgt.byteOrder buf)) := if_pos hlen
      rw [hobs]
      exact ⟨p, ps, hp, by rw [hbuf]; rfl, hw⟩
  | send fd data =>
    cases x with
    | none => exact h
    | some n =>
      obtain ⟨⟨q, hq⟩, hn, hw⟩ := h
      have htaken : allTaken data (some n) = true := by
        unfold allTaken
        rw [hn, hq, BgbPacket.toBytes_length]
        exact beq_self_eq_true _
      show w' = if allTaken data (some n) = true then _ else w
      rw [htaken, if_pos rfl, hw, hq, BgbPacket.ofBytes_toBytes]
      rfl
  | diag msg =>
    cases msg <;> exact h
  | _ => exact h

/-- Every execution among the moves of the test follows what it shows. -/
theorem linkEnv_follows {β : Type} {p : Prog (Sys tgt) β} {w w' : World α} {t : Trace (Sys tgt)}
    {b : β} (h : Exec (linkEnv tgt) p w t b w') : Follows Move (Shown tgt) (obsOf t) w w' :=
  exec_follows (fun _ _ _ _ h => serves_shown h) h

/-! ## §6. A packet and its reply. -/

/-- A packet sent to the master is out of the way of everything the master does. -/
theorem move_append {w w₁ : World α} (h : Move w w₁) (qs : List BgbPacket) :
    Move { w with toMaster := w.toMaster ++ qs } { w₁ with toMaster := w₁.toMaster ++ qs } := by
  cases h with
  | send clock p out ctl ta tm rs => exact .send ..
  | accept clock c p ta tm rs => exact .accept ..
  | transfer clock byte k now ta tm rs => exact .transfer ..
  | update clock k now ta tm rs => exact .update ..
  | addTime clock offset k now ta tm rs => exact .addTime ..
  | handle clock byte k p ta tm rs => exact .handle ..

/-- So a packet can be taken as sent before the moves that came before it. -/
theorem follows_sent {q : BgbPacket} {os : List Obs} {w w' : World α}
    (h : Follows Move (Shown tgt) (.sent q true :: os) w w') :
    Follows Move (Shown tgt) os
      { w with toMaster := w.toMaster ++ [recode tgt.byteOrder .little q] } w' := by
  obtain ⟨w₁, w₂, hm, hs, h⟩ := follows_cons.mp h
  have hs : w₂ = { w₁ with toMaster := w₁.toMaster ++ [recode tgt.byteOrder .little q] } := hs
  obtain ⟨w₃, hw₃, hms⟩ := left_mover (M := Move)
    (R := fun w w' => w' = { w with toMaster := w.toMaster ++ [recode tgt.byteOrder .little q] })
    (fun w w₁ w₂ hm hw => ⟨_, rfl, by rw [hw]; exact move_append hm _⟩) hm hs
  subst hw₃
  exact h.after hms

/-- An observation without effect is none. -/
theorem follows_silent {o : Obs} {os : List Obs} {w w' : World α}
    (ho : ∀ w w' : World α, Shown tgt o w w' → w' = w)
    (h : Follows Move (Shown tgt) (o :: os) w w') : Follows Move (Shown tgt) os w w' := by
  obtain ⟨w₁, w₂, hm, hs, h⟩ := follows_cons.mp h
  have hw := ho _ _ hs
  subst hw
  exact h.after hm

/-! ## §7. A test that runs ahead. -/

/-- The step the test can take when its clock shows `now`, if any. -/
def World.step (now : Int) (w : World α) : Option (World α) :=
  match w.out with
  | p :: out => some { w with out := out, toAdapter := w.toAdapter ++ [p] }
  | [] =>
      match w.control with
      | .accept c =>
          match w.toMaster with
          | [] => none
          | p :: tm => some { w with
              out := if p = handshake then [handshake, stat] else []
              control := .run c
              toMaster := tm }
      | .run (.ret _) => none
      | .run (.call (.transfer byte) k) => some { w with
          clock := (request w.clock now (.transfer byte)).2
          out := (request w.clock now (.transfer byte)).1
          control := .wait byte k
          readings := w.readings ++ [reading w.clock now (.transfer byte)] }
      | .run (.call .update k) => some { w with
          clock := (request w.clock now .update).2
          out := (request w.clock now .update).1
          control := .run (k ())
          readings := w.readings ++ [reading w.clock now .update] }
      | .run (.call (.addTime offset) k) => some { w with
          clock := (request w.clock now (.addTime offset)).2
          out := (request w.clock now (.addTime offset)).1
          control := .run (k ())
          readings := w.readings ++ [reading w.clock now (.addTime offset)] }
      | .wait byte k =>
          match w.toMaster with
          | [] => none
          | p :: tm => some { w with
              control := if p.cmd = BgbCmd.sync2.code then .run (k p.b2) else .wait byte k
              toMaster := tm }

theorem move_step {now : Int} {w w' : World α} (h : w.step now = some w') : Move w w' := by
  obtain ⟨clock, out, ctl, ta, tm, rs⟩ := w
  cases out with
  | cons p out =>
    injection h with h
    subst h
    exact .send ..
  | nil =>
    cases ctl with
    | accept c =>
      cases tm with
      | nil => cases h
      | cons p tm =>
        injection h with h
        subst h
        exact .accept ..
    | run c =>
      cases c with
      | ret a => cases h
      | call op k =>
        cases op <;> injection h with h <;> subst h
        · exact .transfer ..
        · exact .update ..
        · exact .addTime ..
    | wait byte k =>
      cases tm with
      | nil => cases h
      | cons p tm =>
        injection h with h
        subst h
        exact .handle ..

/-- At most `n` steps of the test, as far as it gets. -/
def World.settle (now : Int) : Nat → World α → World α
  | 0, w => w
  | n + 1, w =>
      match w.step now with
      | none => w
      | some w' => World.settle now n w'

theorem moves_settle (now : Int) (n : Nat) (w : World α) :
    ReflTransGen Move w (w.settle now n) := by
  induction n generalizing w with
  | zero => exact .refl
  | succ n ih =>
    unfold World.settle
    split
    next => exact .refl
    next w' hstep => exact .head (move_step hstep) (ih w')

/-- Answer a request in the world as it stands: every packet goes through, and a poll tells the
    truth. -/
def World.answer (w : World α) : (op : SysOp tgt) → op.Ans × World α
  | .poll _ _ => (if w.toAdapter = [] then 0 else 1, w)
  | .recv _ _ =>
      match w.toAdapter with
      | [] => (none, w)
      | p :: ps => (some (p.toBytes .little), { w with toAdapter := ps })
  | .send _ data =>
      if data.length = packetSize then
        (some packetSize, { w with toMaster := w.toMaster ++ [.ofBytes .little data] })
      else (none, w)
  | op => (plainAns op, w)

theorem serves_answer (w : World α) (op : SysOp tgt) :
    serves tgt w op (w.answer op).1 (w.answer op).2 := by
  cases op with
  | recv fd size =>
    obtain ⟨clock, out, ctl, ta, tm, rs⟩ := w
    cases ta with
    | nil => rfl
    | cons p ps => exact ⟨p, ps, rfl, rfl, rfl⟩
  | send fd data =>
    by_cases hlen : data.length = packetSize
    · have hans : w.answer (.send fd data : SysOp tgt)
          = (some packetSize, { w with toMaster := w.toMaster ++ [.ofBytes .little data] }) := if_pos hlen
      rw [hans]
      exact ⟨⟨.ofBytes tgt.byteOrder data, (BgbPacket.toBytes_ofBytes _ hlen).symm⟩, rfl, rfl⟩
    · have hans : w.answer (.send fd data : SysOp tgt) = (none, w) := if_neg hlen
      rw [hans]
      rfl
  | _ => rfl

/-- The test runs ahead as far as it gets before each request of the adapter. -/
def linkServe (now : Int) (w : World α) (op : SysOp tgt) : op.Ans × World α :=
  (w.settle now 100).answer op

theorem linkEnv_serve (now : Int) (w : World α) (op : SysOp tgt) :
    linkEnv tgt w op (linkServe now w op).1 (linkServe now w op).2 :=
  ⟨_, _, moves_settle now 100 w, serves_answer _ op, .refl⟩

end MobileBgb.Session
