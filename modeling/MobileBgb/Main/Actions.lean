/-
  MobileBgb.Main.Actions — where the actions that are processed come from.

  `mobile_handle_loop` fetches the next action at the end of one turn and processes
  it in the next.  The monitor `queue` follows the action that is pending: what is
  processed is what was fetched last.  Every run of `main` is accepted.

  A restart leaves the pending action where it is, and it is processed right after
  `mobile_start`.  `fresh_iff` says what follows: every action processed was fetched
  since the last `mobile_start` exactly when no action is pending at any restart.

  The monitor `ledger` keeps both lists, what was fetched and what was processed.
  `actions_exact` is about calls of `mobile_handle_loop` alone, whatever is done to the
  object between them short of touching its action: nothing is lost, nothing is done
  twice.
-/
import MobileBgb.Main.Runs

namespace MobileBgb.Main

open MobileBgb.Effect
open MobileBgb.System
open MobileBgb.Link

variable {tgt : Target} {σ : Type} {E : Env (Sys tgt) σ} {w w' : σ} {t : Trace (Sys tgt)}

/-! ## §1. The monitor. -/

/-- The actions fetched, without RESET_SERIAL. -/
def fetched (tgt : Target) (o : List Obs) : List MobileAction :=
  o.filterMap fun | .actionsGet a => some (a &&& ~~~tgt.actionResetSerial) | _ => none

/-- The action fetched last, before any of them none. -/
def pendingOf (tgt : Target) (o : List Obs) : MobileAction :=
  (fetched tgt o).getLastD MOBILE_ACTION_NONE

/-- The pending action; was the adapter stopped just now; is the action to be processed next. -/
structure Queue where
  pending : MobileAction
  stopped : Bool
  due : Bool
  deriving DecidableEq, Repr

def Queue.step (tgt : Target) (m : Queue) : Obs → Queue
  | .start => ⟨m.pending, false, m.pending ≠ MOBILE_ACTION_NONE⟩
  | .stop => ⟨m.pending, true, false⟩
  | .actionsGet a => ⟨filterActions tgt a, false, false⟩
  | _ => ⟨m.pending, false, false⟩

/-- What is processed is what is pending; a start comes right after a stop unless nothing was
    fetched before it; and what is pending at a start is processed next. -/
def Queue.Allowed (m : Queue) : Obs → Prop
  | .start => m.due = false ∧ (m.stopped = true ∨ m.pending = MOBILE_ACTION_NONE)
  | .actionsProcess x => x = m.pending ∧ x ≠ MOBILE_ACTION_NONE
  | _ => m.due = false

def queue (tgt : Target) : Monitor Obs Queue where
  step := Queue.step tgt
  Allowed := Queue.Allowed

theorem queue_pending (m : Queue) (o : List Obs) :
    ((queue tgt).after m o).pending = (fetched tgt o).getLastD m.pending := by
  induction o generalizing m with
  | nil => rfl
  | cons e o ih =>
    rw [Monitor.after_cons, ih]
    cases e with
    | actionsGet a => exact List.getLastD_cons.symm
    | _ => rfl

/-- The state before anything was fetched. -/
def Queue.init : Queue := ⟨MOBILE_ACTION_NONE, false, false⟩

theorem queue_stopped {m : Queue} {o : List Obs} (hm : m.stopped = false)
    (h : ((queue tgt).after m o).stopped = true) : ∃ o', o = o' ++ [.stop] := by
  rcases List.eq_nil_or_concat o with ho | ⟨o', e, ho⟩
  · subst ho
    rw [Monitor.after_nil, hm] at h
    cases h
  · rw [List.concat_eq_append] at ho
    subst ho
    rw [Monitor.after_append] at h
    cases e with
    | stop => exact ⟨o', rfl⟩
    | _ => cases h

/-! ## §2. Every run is accepted. -/

theorem queue_served (tgt : Target) {p : BgbPacket} {byte byte' : UInt8} {o : List Obs}
    (h : Served p byte o byte') (action : MobileAction) :
    (queue tgt).Accepts ⟨action, false, false⟩ o ∧
      (queue tgt).after ⟨action, false, false⟩ o = ⟨action, false, false⟩ := by
  cases h <;> simp [queue, Queue.step, Queue.Allowed]

theorem queue_lost (tgt : Target) {byte : UInt8} {o : List Obs} (h : Lost byte o)
    (action : MobileAction) :
    (queue tgt).Accepts ⟨action, false, false⟩ o ∧
      (queue tgt).after ⟨action, false, false⟩ o = ⟨action, false, false⟩ := by
  rcases h with h | ⟨p, o', h, ⟨_, h'⟩ | ⟨q, _, h'⟩⟩ <;> subst h
  · exact ⟨trivial, rfl⟩
  all_goals
    subst h'
    simp [queue, Queue.step, Queue.Allowed]

/-- The actions of a turn, from the pending action on; a pending action may be due. -/
theorem queue_acts {a a' : MobileAction} {o : List Obs} (h : Acts tgt a o a') {due : Bool}
    (hdue : due = true → a ≠ MOBILE_ACTION_NONE) :
    (queue tgt).Accepts ⟨a, false, due⟩ o ∧
      (queue tgt).after ⟨a, false, due⟩ o = ⟨a', false, false⟩ := by
  cases h with
  | rest ha =>
    have hdue : due = false := Bool.eq_false_iff.mpr fun h => hdue h rfl
    simp [queue, Queue.step, Queue.Allowed, hdue, ha]
  | fetched ha =>
    have hdue : due = false := Bool.eq_false_iff.mpr fun h => hdue h rfl
    simp [queue, Queue.step, Queue.Allowed, hdue, ha]
  | pending ha => simp [queue, Queue.step, Queue.Allowed, ha]

/-- A restart keeps what is pending, and makes it due. -/
theorem queue_restart (tgt : Target) (action : MobileAction) (asked : Bool) :
    ∃ due, (due = true → action ≠ MOBILE_ACTION_NONE) ∧
      (queue tgt).Accepts ⟨action, false, false⟩ (restartObs asked) ∧
      (queue tgt).after ⟨action, false, false⟩ (restartObs asked) = ⟨action, false, due⟩ := by
  cases asked with
  | false => exact ⟨false, (fun h => nomatch h), trivial, rfl⟩
  | true =>
    refine ⟨decide (action ≠ MOBILE_ACTION_NONE), of_decide_eq_true, ?_, rfl⟩
    simp [restartObs, queue, Queue.step, Queue.Allowed]

theorem Turn.queued {v v' : View} {o : List Obs} (h : Turn tgt v o v') :
    (queue tgt).Accepts ⟨v.action, false, false⟩ o ∧
      (queue tgt).after ⟨v.action, false, false⟩ o = ⟨v'.action, false, false⟩ := by
  cases h with
  | idle ha => exact queue_acts ha (fun h => nomatch h)
  | @packet p o₁ o₂ byte a hs ha =>
    obtain ⟨hacc₁, hst₁⟩ := queue_served tgt hs v.action
    obtain ⟨due, hdue, hacc, hst⟩ :=
      queue_restart tgt v.action (asksReset v.clock (p.stamp v.clock))
    obtain ⟨hacc₂, hst₂⟩ := queue_acts ha hdue
    simp only [Monitor.accepts_append, Monitor.after_append, hst₁, hst]
    exact ⟨⟨⟨hacc₁, hacc⟩, hacc₂⟩, hst₂⟩

theorem Turns.queued {v v' : View} {o : List Obs} (h : Turns tgt v o v') :
    (queue tgt).Accepts ⟨v.action, false, false⟩ o ∧
      (queue tgt).after ⟨v.action, false, false⟩ o = ⟨v'.action, false, false⟩ := by
  refine Turns.accepts (R := fun v (m : Queue) => m = ⟨v.action, false, false⟩) ?_ h rfl
  intro v o v' m h hm
  rw [hm]
  exact h.queued

/-- A run of `main` from the handshake on is accepted, and ends with nothing due. -/
theorem MainObs.queued {o : List Obs} (h : MainObs tgt o) :
    (queue tgt).Accepts .init o ∧ ((queue tgt).after .init o).due = false := by
  -- the first start comes before anything is fetched
  have hstart : (queue tgt).Allowed .init .start ∧ (queue tgt).step .init .start = .init :=
    ⟨⟨rfl, Or.inr rfl⟩, rfl⟩
  cases h with
  | lost hl =>
    obtain ⟨hacc, hst⟩ := queue_lost tgt hl MOBILE_ACTION_NONE
    exact ⟨hacc, congrArg Queue.due hst⟩
  | first hs =>
    obtain ⟨hacc, hst⟩ := queue_served tgt hs MOBILE_ACTION_NONE
    exact ⟨hacc, congrArg Queue.due hst⟩
  | looping hs ht =>
    obtain ⟨hacc, hst⟩ := queue_served tgt hs MOBILE_ACTION_NONE
    obtain ⟨hacc', hst'⟩ := ht.queued
    have hst : (queue tgt).after .init _ = .init := hst
    simp only [Monitor.accepts_append, Monitor.after_append, Monitor.accepts_cons,
      Monitor.after_cons, hst, hstart.2]
    exact ⟨⟨hacc, hstart.1, hacc'⟩, congrArg Queue.due hst'⟩
  | @exited p o₀ o o' byte v hs ht hl =>
    obtain ⟨hacc, hst⟩ := queue_served tgt hs MOBILE_ACTION_NONE
    obtain ⟨hacc', hst'⟩ := ht.queued
    obtain ⟨hacc'', hst''⟩ := queue_lost tgt hl v.action
    have hst : (queue tgt).after .init _ = .init := hst
    have hst' : (queue tgt).after .init _ = _ := hst'
    simp only [Monitor.accepts_append, Monitor.after_append, Monitor.accepts_cons,
      Monitor.after_cons, hst, hstart.2, hst', hst'']
    exact ⟨⟨⟨hacc, hstart.1, hacc', hacc''⟩, rfl, trivial⟩, rfl⟩

theorem handshake_queued (tgt : Target) {o : ByteOrder} {ok : Bool} {oh : List Obs}
    {rs : List (Option (List UInt8))} (h : Handshake o ok oh rs) :
    (queue tgt).Accepts .init oh ∧ (queue tgt).after .init oh = .init := by
  cases h <;> simp [queue, Queue.step, Queue.Allowed, Queue.init]

/-! ## §3. What is pending. -/

theorem fetched_append (a b : List Obs) : fetched tgt (a ++ b) = fetched tgt a ++ fetched tgt b :=
  List.filterMap_append

/-- Nothing fetched, nothing changed. -/
theorem pendingOf_append {b : List Obs} (hb : fetched tgt b = []) (a : List Obs) :
    pendingOf tgt (a ++ b) = pendingOf tgt a := by
  unfold pendingOf
  rw [fetched_append, hb, List.append_nil]

theorem pendingOf_get (a : List Obs) (y : MobileAction) :
    pendingOf tgt (a ++ [.actionsGet y]) = filterActions tgt y := by
  unfold pendingOf
  rw [fetched_append]
  exact List.getLastD_concat

/-- An action that is pending was fetched, and nothing was fetched since. -/
theorem last_fetched {o : List Obs} (h : pendingOf tgt o ≠ MOBILE_ACTION_NONE) :
    ∃ a y c, o = a ++ .actionsGet y :: c ∧ pendingOf tgt o = filterActions tgt y ∧
      fetched tgt c = [] := by
  -- from the end: the last event fetched it, or the action was pending before that event
  induction o using List.reverseRecOn with
  | nil => exact absurd rfl h
  | append_singleton o e ih =>
    have other : fetched tgt [e] = [] →
        ∃ a y c, o ++ [e] = a ++ .actionsGet y :: c ∧
          pendingOf tgt (o ++ [e]) = filterActions tgt y ∧ fetched tgt c = [] := by
      intro hnone
      rw [pendingOf_append hnone] at h ⊢
      obtain ⟨a, y, c, ho, hy, hc⟩ := ih h
      refine ⟨a, y, c ++ [e], by rw [ho, List.append_assoc, List.cons_append], hy, ?_⟩
      rw [fetched_append, hc, hnone]
      rfl
    cases e with
    | actionsGet y => exact ⟨o, y, [], rfl, pendingOf_get o y, rfl⟩
    | _ => exact other rfl

/-! ## §4. Across a restart. -/

/-- Right after a start nothing has been fetched since. -/
theorem start_mem_of_get {a b c : List Obs} {y : MobileAction}
    (h : a ++ [.start] = b ++ .actionsGet y :: c) : .start ∈ c := by
  rcases List.eq_nil_or_concat c with hc | ⟨c', e, hc⟩
  · rw [hc] at h
    obtain ⟨_, he⟩ := List.append_inj' h rfl
    cases he
  · rw [List.concat_eq_append] at hc
    rw [hc, ← List.cons_append, ← List.append_assoc] at h
    obtain ⟨_, he⟩ := List.append_inj' h rfl
    rw [hc, ← he]
    simp

/-- What is pending at a restart is processed right after it. -/
theorem processed_next {a b : List Obs} (h : (queue tgt).Accepts .init (a ++ .stop :: .start :: b))
    (hend : ((queue tgt).after .init (a ++ .stop :: .start :: b)).due = false)
    (hne : pendingOf tgt a ≠ MOBILE_ACTION_NONE) : ∃ x b', b = .actionsProcess x :: b' := by
  -- the start left the action due
  have hdue : ((queue tgt).after .init (a ++ [.stop, .start])).due = true := by
    rw [Monitor.after_append]
    show decide (((queue tgt).after .init a).pending ≠ MOBILE_ACTION_NONE) = true
    rw [queue_pending, decide_eq_true_eq]
    exact hne
  have hsplit : a ++ .stop :: .start :: b = (a ++ [.stop, .start]) ++ b := by simp
  rw [hsplit, Monitor.after_append] at hend
  rw [hsplit, Monitor.accepts_append] at h
  obtain ⟨_, h⟩ := h
  generalize (queue tgt).after .init (a ++ [.stop, .start]) = m at hdue hend h
  -- a run may not end with an action due, and only processing it is allowed next
  cases b with
  | nil =>
    rw [Monitor.after_nil, hdue] at hend
    cases hend
  | cons e b =>
    obtain ⟨hallowed, _⟩ := h
    cases e with
    | actionsProcess x => exact ⟨x, b, rfl⟩
    | start =>
      have hdue' : m.due = false := hallowed.1
      rw [hdue] at hdue'
      cases hdue'
    | _ =>
      have hdue' : m.due = false := hallowed
      rw [hdue] at hdue'
      cases hdue'

/-- A start with an action pending is that of a restart. -/
theorem restart_of_pending {o a b : List Obs} (h : (queue tgt).Accepts .init o)
    (ho : o = a ++ .start :: b) (hne : pendingOf tgt a ≠ MOBILE_ACTION_NONE) :
    ∃ a', a = a' ++ [.stop] := by
  have hallowed : (queue tgt).Allowed ((queue tgt).after .init a) .start :=
    (Monitor.accepts_iff _).mp h a _ b ho
  obtain ⟨_, hstop | hnone⟩ := hallowed
  · exact queue_stopped rfl hstop
  · rw [queue_pending] at hnone
    exact absurd hnone hne

/-- If nothing is pending at any restart, everything processed was fetched since the last start. -/
theorem fresh_of_pending {o : List Obs} (h : (queue tgt).Accepts .init o)
    (hcond : ∀ a b, o = a ++ .stop :: .start :: b → pendingOf tgt a = MOBILE_ACTION_NONE)
    {a post : List Obs} {x : MobileAction} (ho : o = a ++ .actionsProcess x :: post) :
    ∃ b y c, a = b ++ .actionsGet y :: c ∧ x = filterActions tgt y ∧ .start ∉ c := by
  have hallowed : x = ((queue tgt).after .init a).pending ∧ x ≠ MOBILE_ACTION_NONE :=
    (Monitor.accepts_iff _).mp h a _ post ho
  obtain ⟨hx, hne⟩ := hallowed
  rw [queue_pending] at hx
  have hx : x = pendingOf tgt a := hx
  rw [hx] at hne
  obtain ⟨b, y, c, ha, hy, hc⟩ := last_fetched hne
  refine ⟨b, y, c, ha, hx.trans hy, ?_⟩
  intro hmem
  -- a start since the action was fetched is a restart with the action pending
  obtain ⟨c₁, c₂, hc₁⟩ := List.append_of_mem hmem
  have hnone : fetched tgt c₁ = [] := by
    rw [hc₁, fetched_append] at hc
    exact (List.append_eq_nil_iff.mp hc).1
  have hpend : pendingOf tgt ((b ++ [.actionsGet y]) ++ c₁) ≠ MOBILE_ACTION_NONE := by
    rw [pendingOf_append hnone, pendingOf_get, ← hy]
    exact hne
  have hcut : o = ((b ++ [.actionsGet y]) ++ c₁) ++ .start :: (c₂ ++ .actionsProcess x :: post) := by
    rw [ho, ha, hc₁]
    simp
  obtain ⟨a', ha'⟩ := restart_of_pending h hcut hpend
  rw [ha'] at hpend hcut
  rw [pendingOf_append rfl] at hpend
  rw [List.append_assoc] at hcut
  exact hpend (hcond a' _ hcut)

/-- **No stale action.**  In a run of `main`: every action processed was fetched since the last
    `mobile_start`, if and only if at every restart the action fetched last is none after
    filtering (or none was fetched yet). -/
theorem fresh_iff {bgbSock : SOCKET} {n m : Nat} {e : MainEnd}
    (h : Exec E (mainProg bgbSock n m) w t e w') :
    (∀ a x post, obsOf t = a ++ .actionsProcess x :: post →
      ∃ b y c, a = b ++ .actionsGet y :: c ∧ x = filterActions tgt y ∧ .start ∉ c) ↔
    ∀ a b, obsOf t = a ++ .stop :: .start :: b → pendingOf tgt a = MOBILE_ACTION_NONE := by
  obtain ⟨oh, o, ok, rs, ho, hshake, _, hmain⟩ := exec_mainProg h
  obtain ⟨hacc, hst⟩ := handshake_queued tgt hshake
  obtain ⟨hacc', hend⟩ := hmain.queued
  have hall : (queue tgt).Accepts .init (obsOf t) := by
    rw [ho, Monitor.accepts_append, hst]
    exact ⟨hacc, hacc'⟩
  have hlast : ((queue tgt).after .init (obsOf t)).due = false := by
    rw [ho, Monitor.after_append, hst]
    exact hend
  constructor
  · intro hfresh a b hsplit
    -- an action pending at a restart is processed right after it, before any fetch
    by_contra hne
    rw [hsplit] at hall hlast
    obtain ⟨x, b', hb⟩ := processed_next hall hlast hne
    obtain ⟨b₁, y, c, hget, _, hstart⟩ := hfresh (a ++ [.stop, .start]) x b' (by
      rw [hsplit, hb]
      simp)
    rw [show a ++ [Obs.stop, .start] = (a ++ [.stop]) ++ [.start] by simp] at hget
    exact hstart (start_mem_of_get hget)
  · intro hcond a x post hsplit
    exact fresh_of_pending hall hcond hsplit

/-- A turn with an action, then a packet that asks for a reset. -/
def resetPending (actions : List MobileAction) : Script where
  rx := [handshake, ⟨108, 5, 0, 0, 0⟩, ⟨106, 1, 0, 0, 5⟩, ⟨106, 1, 0, 0, 6⟩,
    ⟨106, 1, 0, 0, 0x5000⟩].flatMap (BgbPacket.toBytes .little)
  transfers := []
  actions := actions

/-- Nothing is pending when the reset comes: the action processed after it was fetched after it. -/
theorem fresh_iff_resetPending :
    (obsOf (runMain 4 2 (resetPending [1, 0, 2, 0])).1).drop 12
        = [.reset, .stop, .start, .actionsGet 2, .actionsProcess 2, .actionsGet 0] ∧
      ∀ a x post, obsOf (runMain 4 2 (resetPending [1, 0, 2, 0])).1 = a ++ .actionsProcess x :: post →
        ∃ b y c, a = b ++ .actionsGet y :: c ∧ x = filterActions host y ∧ .start ∉ c := by
  refine ⟨by decide +kernel, (fresh_iff (exec_runMain 4 2 (resetPending [1, 0, 2, 0]))).mpr ?_⟩
  refine restart_at (P := fun a => pendingOf host a = MOBILE_ACTION_NONE) ?_
  decide +kernel

/-- An action is pending when the reset comes: it is processed by the restarted adapter. -/
theorem fresh_stale :
    Exec (scripted host) (mainProg 3 4 2) (resetPending [1, 2, 0])
        (runMain 4 2 (resetPending [1, 2, 0])).1 (runMain 4 2 (resetPending [1, 2, 0])).2.1
        (runMain 4 2 (resetPending [1, 2, 0])).2.2 ∧
      ¬ ∀ a x post, obsOf (runMain 4 2 (resetPending [1, 2, 0])).1 = a ++ .actionsProcess x :: post →
        ∃ b y c, a = b ++ .actionsGet y :: c ∧ x = filterActions host y ∧ .start ∉ c := by
  refine ⟨exec_runMain 4 2 (resetPending [1, 2, 0]), ?_⟩
  intro h
  obtain ⟨b, y, c, hget, _, hstart⟩ := h
    ((obsOf (runMain 4 2 (resetPending [1, 2, 0])).1).take 14 ++ [.start]) 2 [.actionsGet 0]
    (by decide +kernel)
  exact hstart (start_mem_of_get hget)

/-! ## §5. Nothing is lost. -/

/-- An action as the list of what is to be done. -/
def nonEmpty (a : MobileAction) : List MobileAction := if a = MOBILE_ACTION_NONE then [] else [a]

/-- The actions fetched, without RESET_SERIAL, the empty ones dropped. -/
def toProcess (tgt : Target) (o : List Obs) : List MobileAction := (fetched tgt o).flatMap nonEmpty

/-- The actions processed. -/
def processed (o : List Obs) : List MobileAction :=
  o.filterMap fun | .actionsProcess x => some x | _ => none

/-- What was processed and what was there to be processed, so far. -/
structure Ledger where
  done : List MobileAction
  due : List MobileAction

def Ledger.step (tgt : Target) (m : Ledger) : Obs → Ledger
  | .actionsGet a => ⟨m.done, m.due ++ nonEmpty (filterActions tgt a)⟩
  | .actionsProcess x => ⟨m.done ++ [x], m.due⟩
  | _ => m

/-- Only when all that was fetched is processed is more fetched. -/
def Ledger.Allowed (m : Ledger) : Obs → Prop
  | .actionsGet _ => m.done = m.due
  | _ => True

def ledger (tgt : Target) : Monitor Obs Ledger where
  step := Ledger.step tgt
  Allowed := Ledger.Allowed

theorem ledger_after (m : Ledger) (o : List Obs) :
    (ledger tgt).after m o = ⟨m.done ++ processed o, m.due ++ toProcess tgt o⟩ := by
  induction o generalizing m with
  | nil =>
    show m = ⟨m.done ++ [], m.due ++ []⟩
    rw [List.append_nil, List.append_nil]
  | cons e o ih =>
    rw [Monitor.after_cons, ih]
    cases e with
    | actionsGet a =>
      show (⟨m.done ++ processed o, m.due ++ nonEmpty (filterActions tgt a) ++ toProcess tgt o⟩ : Ledger)
        = ⟨m.done ++ processed o, m.due ++ (nonEmpty (filterActions tgt a) ++ toProcess tgt o)⟩
      rw [List.append_assoc]
    | actionsProcess x =>
      show (⟨m.done ++ [x] ++ processed o, m.due ++ toProcess tgt o⟩ : Ledger)
        = ⟨m.done ++ (x :: processed o), m.due ++ toProcess tgt o⟩
      rw [List.append_assoc]
      rfl
    | _ => rfl

/-- Between two calls the two lists differ by what is pending. -/
def Ledger.Balanced (m : Ledger) (action : MobileAction) : Prop := m.done ++ nonEmpty action = m.due

theorem nonEmpty_none : nonEmpty MOBILE_ACTION_NONE = [] := rfl

theorem nonEmpty_of_ne {a : MobileAction} (h : a ≠ MOBILE_ACTION_NONE) : nonEmpty a = [a] := if_neg h

/-- The actions of one call: at most one is processed, each fetch finds everything processed. -/
theorem ledger_acts {a a' : MobileAction} {o : List Obs} (h : Acts tgt a o a') {m : Ledger}
    (hm : m.Balanced a) :
    (ledger tgt).Accepts m o ∧ ((ledger tgt).after m o).Balanced a' ∧ (processed o).length ≤ 1 := by
  unfold Ledger.Balanced at hm
  cases h with
  | @rest x hx =>
    rw [nonEmpty_none, List.append_nil] at hm
    refine ⟨⟨hm, trivial⟩, ?_, Nat.zero_le 1⟩
    show m.done ++ nonEmpty MOBILE_ACTION_NONE = m.due ++ nonEmpty (filterActions tgt x)
    rw [hx, hm]
  | @fetched x y hx =>
    -- fetched and processed in this call, then the next one is fetched
    rw [nonEmpty_none, List.append_nil] at hm
    have hbook : m.done ++ [filterActions tgt x] = m.due ++ nonEmpty (filterActions tgt x) := by
      rw [nonEmpty_of_ne hx, hm]
    refine ⟨⟨hm, trivial, hbook, trivial⟩, ?_, Nat.le_refl 1⟩
    show m.done ++ [filterActions tgt x] ++ nonEmpty (filterActions tgt y)
      = m.due ++ nonEmpty (filterActions tgt x) ++ nonEmpty (filterActions tgt y)
    rw [hbook]
  | @pending _ y hx =>
    rw [nonEmpty_of_ne hx] at hm
    refine ⟨⟨trivial, hm, trivial⟩, ?_, Nat.le_refl 1⟩
    show m.done ++ [a] ++ nonEmpty (filterActions tgt y) = m.due ++ nonEmpty (filterActions tgt y)
    rw [hm]

/-- Calls of `mobile_handle_loop`, each with its trace.  Between two of them the object, its reset
    flag included, and the environment may change in any way that leaves the action alone. -/
inductive HandleRun (E : Env (Sys tgt) σ) :
    MobileUser tgt → List (Trace (Sys tgt)) → MobileUser tgt → Prop where
  | nil (mobile : MobileUser tgt) : HandleRun E mobile [] mobile
  | call {mobile mobile₁ mobile₂ mobile' : MobileUser tgt} {w w' : σ} {t : Trace (Sys tgt)}
      {ts : List (Trace (Sys tgt))} (hkeep : mobile₁.action = mobile.action)
      (hx : Exec E (mobileHandleLoop mobile₁) w t mobile₂ w') (hr : HandleRun E mobile₂ ts mobile') :
      HandleRun E mobile (t :: ts) mobile'

/-- One call, with its restart if there is one. -/
theorem ledger_call {mobile mobile' : MobileUser tgt} {m : Ledger} (hm : m.Balanced mobile.action)
    (h : Exec E (mobileHandleLoop mobile) w t mobile' w') :
    (ledger tgt).Accepts m (obsOf t) ∧ ((ledger tgt).after m (obsOf t)).Balanced mobile'.action ∧
      (processed (obsOf t)).length ≤ 1 := by
  obtain ⟨o, ho, hacts, _⟩ := exec_mobileHandleLoop h
  obtain ⟨hacc, hbal, hone⟩ := ledger_acts hacts hm
  have hrestart : (ledger tgt).Accepts m (if mobile.reset then [.stop, .start] else []) ∧
      (ledger tgt).after m (if mobile.reset then [.stop, .start] else []) = m ∧
      processed (if mobile.reset then [Obs.stop, .start] else []) = [] := by
    split
    · exact ⟨⟨trivial, trivial, trivial⟩, rfl, rfl⟩
    · exact ⟨trivial, rfl, rfl⟩
  obtain ⟨hacc₀, hst₀, hnone₀⟩ := hrestart
  rw [ho, Monitor.accepts_append, Monitor.after_append, hst₀]
  refine ⟨⟨hacc₀, hacc⟩, hbal, ?_⟩
  unfold processed at hnone₀ hone ⊢
  rw [List.filterMap_append, hnone₀, List.nil_append]
  exact hone

/-- A run of calls. -/
theorem HandleRun.ledger {mobile mobile' : MobileUser tgt} {ts : List (Trace (Sys tgt))}
    (h : HandleRun E mobile ts mobile') :
    ∀ {m : Ledger}, m.Balanced mobile.action →
      (Main.ledger tgt).Accepts m (obsOf ts.flatten) ∧
      ((Main.ledger tgt).after m (obsOf ts.flatten)).Balanced mobile'.action ∧
      ∀ t ∈ ts, (processed (obsOf t)).length ≤ 1 := by
  -- induction on the calls; the ledger is handed on balanced from one to the next
  induction h with
  | nil mobile =>
    intro m hm
    exact ⟨trivial, hm, fun t ht => nomatch ht⟩
  | call hkeep hx _ ih =>
    intro m hm
    rw [← hkeep] at hm
    obtain ⟨hacc, hbal, hone⟩ := ledger_call hm hx
    obtain ⟨hacc', hbal', hall⟩ := ih hbal
    rw [List.flatten_cons, obsOf_append, Monitor.accepts_append, Monitor.after_append]
    refine ⟨⟨hacc, hacc'⟩, hbal', ?_⟩
    intro t ht
    rcases List.mem_cons.mp ht with ht | ht
    · rw [ht]
      exact hone
    · exact hall t ht

/-- **No action is lost or processed twice.**  For every run of calls of `mobile_handle_loop` from
    the initial object: the masks processed, followed by the pending one unless it is empty, are
    the masks fetched, filtered and without the empty ones; whenever another is fetched, all
    fetched before it have been processed; and each call processes at most one. -/
theorem actions_exact {ts : List (Trace (Sys tgt))} {mobile : MobileUser tgt}
    (h : HandleRun E .init ts mobile) :
    processed (obsOf ts.flatten) ++ nonEmpty mobile.action = toProcess tgt (obsOf ts.flatten) ∧
    (∀ pre a post, obsOf ts.flatten = pre ++ .actionsGet a :: post →
      processed pre = toProcess tgt pre) ∧
    ∀ t ∈ ts, (processed (obsOf t)).length ≤ 1 := by
  obtain ⟨hacc, hbal, hone⟩ := h.ledger (m := ⟨[], []⟩) rfl
  refine ⟨?_, ?_, hone⟩
  · rw [ledger_after] at hbal
    exact hbal
  · intro pre a post ho
    have hget : (Main.ledger tgt).Allowed ((Main.ledger tgt).after ⟨[], []⟩ pre) (.actionsGet a) :=
      (Monitor.accepts_iff _).mp hacc pre _ post ho
    rw [ledger_after] at hget
    exact hget

/-- A first call; the mask it fetches is empty once filtered. -/
def handleFirst : Trace (Sys host) × MobileUser host × Script :=
  (mobileHandleLoop .init).run Script.serve ⟨[], [], [0x20, 0x23, 4]⟩

/-- A second one, for which a reset was asked. -/
def handleSecond : Trace (Sys host) × MobileUser host × Script :=
  (mobileHandleLoop { handleFirst.2.1 with reset := true }).run Script.serve handleFirst.2.2

/-- There 0x20 is dropped, 3 is processed after the restart and 4 is pending. -/
theorem actions_exact_handled :
    toProcess host (obsOf [handleFirst.1, handleSecond.1].flatten) = [3, 4] ∧
      processed (obsOf [handleFirst.1, handleSecond.1].flatten) ++ nonEmpty handleSecond.2.1.action
        = [3, 4] := by
  have hfetched : toProcess host (obsOf [handleFirst.1, handleSecond.1].flatten) = [3, 4] := by
    decide +kernel
  have hx : Exec (scripted host) (mobileHandleLoop { handleFirst.2.1 with reset := true })
      handleFirst.2.2 handleSecond.1 handleSecond.2.1 handleSecond.2.2 :=
    exec_run scripted_serve _ _
  have hsecond : HandleRun (scripted host) handleFirst.2.1 [handleSecond.1] handleSecond.2.1 := by
    refine .call ?_ hx (.nil _)
    rfl
  have hrun : HandleRun (scripted host) .init [handleFirst.1, handleSecond.1] handleSecond.2.1 :=
    .call rfl (exec_run scripted_serve _ _) hsecond
  exact ⟨hfetched, (actions_exact hrun).1.trans hfetched⟩

end MobileBgb.Main
