/-
  MobileBgb.Effect.Monitor — a monitor that reads a run, event by event.

  A monitor is a small machine: `step` is the state it moves to on an event,
  `Allowed` which events it lets pass in which state.  It ACCEPTS a run when it
  lets every event pass in the state the events before it led to.

  Acceptance is cut and joined with the run (`accepts_append`), so that of a loop
  follows from that of its turns; and it can be read off event by event: each event is
  allowed after the events before it (`accepts_iff`).

  Nothing in this file is about the repository.
-/
import Mathlib.Data.List.Basic

namespace MobileBgb.Effect

/-- A monitor for runs of events of type `ε`. -/
structure Monitor (ε μ : Type) where
  step : μ → ε → μ
  Allowed : μ → ε → Prop

namespace Monitor

variable {ε μ : Type} (M : Monitor ε μ)

/-- The state after a run. -/
def after (m : μ) (o : List ε) : μ := o.foldl M.step m

/-- Every event is allowed in the state the events before it led to. -/
def Accepts : μ → List ε → Prop
  | _, [] => True
  | m, e :: o => M.Allowed m e ∧ Accepts (M.step m e) o

@[simp] theorem after_nil (m : μ) : M.after m [] = m := rfl

@[simp] theorem after_cons (m : μ) (e : ε) (o : List ε) :
    M.after m (e :: o) = M.after (M.step m e) o := rfl

@[simp] theorem after_append (m : μ) (o₁ o₂ : List ε) :
    M.after m (o₁ ++ o₂) = M.after (M.after m o₁) o₂ := List.foldl_append

@[simp] theorem accepts_nil (m : μ) : M.Accepts m [] := trivial

@[simp] theorem accepts_cons (m : μ) (e : ε) (o : List ε) :
    M.Accepts m (e :: o) ↔ M.Allowed m e ∧ M.Accepts (M.step m e) o := Iff.rfl

/-- A run is accepted piece by piece. -/
@[simp] theorem accepts_append (m : μ) (o₁ o₂ : List ε) :
    M.Accepts m (o₁ ++ o₂) ↔ M.Accepts m o₁ ∧ M.Accepts (M.after m o₁) o₂ := by
  induction o₁ generalizing m with
  | nil => simp
  | cons e o₁ ih =>
    rw [List.cons_append, accepts_cons, accepts_cons, after_cons, ih, and_assoc]

/-- Acceptance, event by event: each is allowed after those before it. -/
theorem accepts_iff {m : μ} {o : List ε} :
    M.Accepts m o ↔ ∀ pre e post, o = pre ++ e :: post → M.Allowed (M.after m pre) e := by
  constructor
  · intro h pre e post ho
    rw [ho, accepts_append] at h
    exact h.2.1
  · intro h
    -- for every state: the events before this one have moved the monitor on
    induction o generalizing m with
    | nil => trivial
    | cons e o ih =>
      refine ⟨h [] e o rfl, ih ?_⟩
      intro pre e' post ho
      exact h (e :: pre) e' post (by rw [ho, List.cons_append])

end Monitor

end MobileBgb.Effect
