/-
  MobileBgb.Link.Observe — what a trace shows of the link and of the adapter.

  The results about runs speak of packets, replies and calls into libmobile, not
  of single system calls.  `obsOf` is that view of a trace: a complete packet
  read off the link, a packet handed to `send` (with whether all its bytes were
  taken), each libmobile call with its answer, and the diagnostic that announces
  a reset.  `recvs` is the other view, the answers of `recv` as they came, and
  `received` the raw bytes in them.  All are taken event by event, so the view of
  a sequence is the sequence of views.
-/
import MobileBgb.Link.Packet
import MobileBgb.Effect.Loop

namespace MobileBgb.Link

open MobileBgb.Effect
open MobileBgb.System

variable {tgt : Target}

/-! ## §1. Observations. -/

/-- What one event shows. -/
inductive Obs where
  /-- A complete packet was read off the link. -/
  | packet (p : BgbPacket)
  /-- A packet was handed to `send`; `complete`: all its bytes were taken. -/
  | sent (p : BgbPacket) (complete : Bool)
  /-- "Emulator reset detected" -/
  | reset
  | start
  | stop
  /-- `mobile_transfer(c)` returned `r`. -/
  | transfer (c r : UInt8)
  /-- `mobile_actions_get` returned this mask. -/
  | actionsGet (actions : MobileAction)
  | actionsProcess (actions : MobileAction)
  deriving DecidableEq, Repr

/-- Did `send` take all the bytes it was given? -/
def allTaken (data : List UInt8) (ans : Option Nat) : Bool := ans == some data.length

/-- The observation an event makes, if any. -/
def obs : Event (Sys tgt) → Option Obs
  | ⟨.recv _ _, ans⟩ =>
      match (ans : Option (List UInt8)) with
      | some buf =>
          if buf.length = packetSize then some (.packet (.ofBytes tgt.byteOrder buf)) else none
      | none => none
  | ⟨.send _ data, ans⟩ => some (.sent (.ofBytes tgt.byteOrder data) (allTaken data ans))
  | ⟨.diag .emulatorReset, _⟩ => some .reset
  | ⟨.mobileStart, _⟩ => some .start
  | ⟨.mobileStop, _⟩ => some .stop
  | ⟨.mobileTransfer c, ans⟩ => some (.transfer c (ans : UInt8 × List (ImplCall tgt)).1)
  | ⟨.mobileActionsGet, ans⟩ =>
      some (.actionsGet (ans : MobileAction × List (ImplCall tgt)).1)
  | ⟨.mobileActionsProcess a, _⟩ => some (.actionsProcess a)
  | _ => none

/-- The observations of a trace, in order. -/
def obsOf (t : Trace (Sys tgt)) : List Obs := t.filterMap obs

@[simp] theorem obsOf_nil : obsOf ([] : Trace (Sys tgt)) = [] := rfl

@[simp] theorem obsOf_append (t₁ t₂ : Trace (Sys tgt)) :
    obsOf (t₁ ++ t₂) = obsOf t₁ ++ obsOf t₂ := List.filterMap_append

theorem obsOf_cons (e : Event (Sys tgt)) (t : Trace (Sys tgt)) :
    obsOf (e :: t) = (obs e).toList ++ obsOf t := by
  unfold obsOf
  rw [List.filterMap_cons]
  cases obs e <;> rfl

/-! ## §2. The bytes received. -/

/-- The answer of a `recv`: the bytes it delivered, `none` when it failed. -/
def recvAns : Event (Sys tgt) → Option (Option (List UInt8))
  | ⟨.recv _ _, ans⟩ => some (ans : Option (List UInt8))
  | _ => none

/-- The answers of `recv` in a trace, in order. -/
def recvs (t : Trace (Sys tgt)) : List (Option (List UInt8)) := t.filterMap recvAns

/-- All bytes received in a trace, in order. -/
def received (t : Trace (Sys tgt)) : List UInt8 := (recvs t).flatMap fun a => a.getD []

@[simp] theorem recvs_nil : recvs ([] : Trace (Sys tgt)) = [] := rfl

@[simp] theorem recvs_append (t₁ t₂ : Trace (Sys tgt)) : recvs (t₁ ++ t₂) = recvs t₁ ++ recvs t₂ :=
  List.filterMap_append

theorem recvs_cons (e : Event (Sys tgt)) (t : Trace (Sys tgt)) :
    recvs (e :: t) = (recvAns e).toList ++ recvs t := by
  unfold recvs
  rw [List.filterMap_cons]
  cases recvAns e <;> rfl

@[simp] theorem received_append (t₁ t₂ : Trace (Sys tgt)) :
    received (t₁ ++ t₂) = received t₁ ++ received t₂ := by
  unfold received
  rw [recvs_append, List.flatMap_append]

/-! ## §3. Quiet requests. -/

/-- A request that shows nothing, whatever its answer: everything but the link's own `recv` and
    `send`, the libmobile calls and the reset diagnostic. -/
def SilentOp : SysOp tgt → Prop
  | .recv _ _ => False
  | .send _ _ => False
  | .diag msg => msg ≠ .emulatorReset
  | .mobileStart => False
  | .mobileStop => False
  | .mobileTransfer _ => False
  | .mobileActionsGet => False
  | .mobileActionsProcess _ => False
  | _ => True

theorem obs_of_silent {e : Event (Sys tgt)} (h : SilentOp e.op) : obs e = none := by
  obtain ⟨op, ans⟩ := e
  cases op with
  | diag msg =>
    cases msg with
    | emulatorReset => exact absurd rfl h
    | _ => rfl
  | _ => first | rfl | exact absurd h id

/-- A trace of silent requests shows nothing. -/
theorem obsOf_silent {t : Trace (Sys tgt)} (h : ∀ e ∈ t, SilentOp e.op) : obsOf t = [] := by
  unfold obsOf
  rw [List.filterMap_eq_nil_iff]
  intro e he
  exact obs_of_silent (h e he)

end MobileBgb.Link
