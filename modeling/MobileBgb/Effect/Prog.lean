/-
  MobileBgb.Effect.Prog — programs that talk to an environment, and their executions.

  A C function is modelled as a finite tree of REQUESTS: at every node the
  program makes one request of a signature `S` (a system call, a call into a
  library whose code is elsewhere) and goes on with the answer.  Nothing is
  said here about WHICH answer comes back: that is the environment's part.

    * `Prog S α`          — the programs, a monad;
    * `Env S σ`           — an environment: which answers it may give in which
                            state, and the state it moves to (a relation, so
                            every pattern of success and failure is covered);
    * `Exec E p w t a w'` — `p` started in environment state `w` makes exactly
                            the requests and gets exactly the answers of the
                            trace `t`, returns `a` and leaves `w'`;
    * `Prog.run`          — the execution against one deterministic handler,
                            for concrete runs (`exec_run` says it is one of
                            the executions above);
    * `Prog.Uses P p`     — every request `p` can ever make satisfies `P`;
    * `Prog.Returns P p`  — every value `p` can ever return satisfies `P`.

  Nothing in this file is about the repository.
-/
import Mathlib.Tactic

namespace MobileBgb.Effect

/-! ## §1. Programs. -/

/-- The requests a program can make, with the type of the answer to each. -/
structure Signature where
  Op : Type
  Ans : Op → Type

/-- A program over the signature `S` that returns a value of type `α`. -/
inductive Prog (S : Signature) (α : Type) : Type where
  | ret (a : α) : Prog S α
  | call (op : S.Op) (k : S.Ans op → Prog S α) : Prog S α

namespace Prog

variable {S : Signature} {α β : Type}

/-- Sequencing: graft the second program onto the leaves of the first. -/
def bind : Prog S α → (α → Prog S β) → Prog S β
  | ret a, f => f a
  | call op k, f => call op (fun x => (k x).bind f)

instance : Monad (Prog S) where
  pure := ret
  bind := bind

/-- Make one request and return its answer. -/
def ask (op : S.Op) : Prog S (S.Ans op) := call op ret

end Prog

/-! ## §2. Executions. -/

/-- One request together with the answer it got. -/
structure Event (S : Signature) where
  op : S.Op
  ans : S.Ans op

/-- What a program did, in order. -/
abbrev Trace (S : Signature) := List (Event S)

/-- An environment: `E w op x w'` when, in state `w`, the request `op` may be answered by `x`,
    the environment moving to `w'`. -/
abbrev Env (S : Signature) (σ : Type) := σ → (op : S.Op) → S.Ans op → σ → Prop

section Exec

variable {S : Signature} {σ α β : Type} (E : Env S σ)

/-- `p` can run from `w` with trace `t`, returning `b` and leaving the environment in `w'`. -/
def Exec : Prog S α → σ → Trace S → α → σ → Prop
  | .ret a, w, t, b, w' => t = [] ∧ b = a ∧ w' = w
  | .call op k, w, t, b, w' =>
      ∃ x w₁ t₁, E w op x w₁ ∧ t = ⟨op, x⟩ :: t₁ ∧ Exec (k x) w₁ t₁ b w'

theorem exec_pure {a b : α} {w w' : σ} {t : Trace S} :
    Exec E (pure a) w t b w' ↔ t = [] ∧ b = a ∧ w' = w := Iff.rfl

/-- An execution of a sequence splits into an execution of each part. -/
theorem exec_bind {p : Prog S α} {f : α → Prog S β} {w w' : σ} {t : Trace S} {b : β} :
    Exec E (p >>= f) w t b w' ↔
      ∃ t₁ a w₁ t₂, Exec E p w t₁ a w₁ ∧ Exec E (f a) w₁ t₂ b w' ∧ t = t₁ ++ t₂ := by
  show Exec E (p.bind f) w t b w' ↔ _
  -- induction on the first program: its events come off the front of the trace one by one
  induction p generalizing w t with
  | ret a =>
    constructor
    · intro h
      exact ⟨[], a, w, t, ⟨rfl, rfl, rfl⟩, h, rfl⟩
    · intro h
      obtain ⟨t₁, a', w₁, t₂, ⟨h₁, h₂, h₃⟩, h, ht⟩ := h
      subst h₁ h₂ h₃ ht
      exact h
  | call op k ih =>
    constructor
    · intro h
      obtain ⟨x, w₁, t₁, hE, ht, h⟩ := h
      obtain ⟨t₂, a, w₂, t₃, h₁, h₂, ht₁⟩ := (ih x).mp h
      exact ⟨⟨op, x⟩ :: t₂, a, w₂, t₃, ⟨x, w₁, t₂, hE, rfl, h₁⟩, h₂, by rw [ht, ht₁]; rfl⟩
    · intro h
      obtain ⟨t₁, a, w₁, t₂, ⟨x, w₂, t₃, hE, ht₁, h₁⟩, h₂, ht⟩ := h
      exact ⟨x, w₂, t₃ ++ t₂, hE, by rw [ht, ht₁]; rfl,
        (ih x).mpr ⟨t₃, a, w₁, t₂, h₁, h₂, rfl⟩⟩

/-- A request first: one event, then the rest of the program. -/
theorem exec_ask_bind {op : S.Op} {f : S.Ans op → Prog S β} {w w' : σ} {t : Trace S} {b : β} :
    Exec E (Prog.ask op >>= f) w t b w' ↔
      ∃ x w₁ t₁, E w op x w₁ ∧ t = ⟨op, x⟩ :: t₁ ∧ Exec E (f x) w₁ t₁ b w' := Iff.rfl

/-- A program whose first request is answered comes to an end if what is left of it does. -/
theorem exists_exec_ask_bind {op : S.Op} {f : S.Ans op → Prog S β} {w w₁ : σ} {x : S.Ans op}
    (hE : E w op x w₁) (h : ∃ t b w', Exec E (f x) w₁ t b w') :
    ∃ t b w', Exec E (Prog.ask op >>= f) w t b w' := by
  obtain ⟨t, b, w', h⟩ := h
  exact ⟨⟨op, x⟩ :: t, b, w', x, w₁, t, hE, rfl, h⟩

/-- An environment that allows more allows every execution. -/
theorem Exec.mono {E F : Env S σ} (hEF : ∀ w op x w', E w op x w' → F w op x w') :
    ∀ {p : Prog S α} {w : σ} {t : Trace S} {a : α} {w' : σ},
      Exec E p w t a w' → Exec F p w t a w'
  | .ret _, _, _, _, _, h => h
  | .call _ k, _, _, _, _, h => by
      obtain ⟨x, w₁, t₁, hE, ht, h⟩ := h
      exact ⟨x, w₁, t₁, hEF _ _ _ _ hE, ht, Exec.mono hEF h⟩

end Exec

/-! ## §3. Running against one handler. -/

section Run

variable {S : Signature} {σ α : Type}

/-- Run `p` with the answers of a deterministic handler. -/
def Prog.run (h : σ → (op : S.Op) → S.Ans op × σ) : Prog S α → σ → Trace S × α × σ
  | .ret a, w => ([], a, w)
  | .call op k, w =>
      let r := (k (h w op).1).run h (h w op).2
      (⟨op, (h w op).1⟩ :: r.1, r.2)

/-- A run is an execution in every environment that allows the handler's answers to the requests
    made in it. -/
theorem exec_run_of {E : Env S σ} {h : σ → (op : S.Op) → S.Ans op × σ} {P : S.Op → Prop}
    (hE : ∀ w op, P op → E w op (h w op).1 (h w op).2) :
    ∀ (p : Prog S α) (w : σ), (∀ e ∈ (p.run h w).1, P e.op) →
      Exec E p w (p.run h w).1 (p.run h w).2.1 (p.run h w).2.2
  | .ret _, _, _ => ⟨rfl, rfl, rfl⟩
  | .call op k, w, hP =>
      ⟨(h w op).1, (h w op).2, _, hE w op (hP _ List.mem_cons_self), rfl,
        exec_run_of hE (k (h w op).1) _ fun e he => hP e (List.mem_cons_of_mem _ he)⟩

theorem exec_run {E : Env S σ} {h : σ → (op : S.Op) → S.Ans op × σ}
    (hE : ∀ w op, E w op (h w op).1 (h w op).2) (p : Prog S α) (w : σ) :
    Exec E p w (p.run h w).1 (p.run h w).2.1 (p.run h w).2.2 :=
  exec_run_of (P := fun _ => True) (fun w op _ => hE w op) p w fun _ _ => trivial

end Run

/-! ## §4. Which requests a program can make, which values it can return. -/

section Uses

variable {S : Signature} {σ α β : Type}

/-- Every request `p` makes, whatever the answers, satisfies `P`. -/
def Prog.Uses (P : S.Op → Prop) : Prog S α → Prop
  | .ret _ => True
  | .call op k => P op ∧ ∀ x, (k x).Uses P

theorem Prog.uses_pure {P : S.Op → Prop} (a : α) : (pure a : Prog S α).Uses P := trivial

theorem Prog.uses_ask {P : S.Op → Prop} {op : S.Op} (h : P op) : (Prog.ask op).Uses P :=
  ⟨h, fun _ => trivial⟩

theorem Prog.uses_bind {P : S.Op → Prop} {p : Prog S α} {f : α → Prog S β}
    (hp : p.Uses P) (hf : ∀ a, (f a).Uses P) : (p >>= f).Uses P := by
  show (p.bind f).Uses P
  induction p with
  | ret a => exact hf a
  | call op k ih => exact ⟨hp.1, fun x => ih x (hp.2 x)⟩

/-- The trace of a program holds only requests the program can make. -/
theorem Exec.uses {E : Env S σ} {P : S.Op → Prop} :
    ∀ {p : Prog S α} {w : σ} {t : Trace S} {a : α} {w' : σ},
      p.Uses P → Exec E p w t a w' → ∀ e ∈ t, P e.op
  | .ret _, _, _, _, _, _, h => by
      rw [h.1]
      intro e he
      cases he
  | .call op k, _, _, _, _, hp, h => by
      obtain ⟨x, w₁, t₁, _, ht, h⟩ := h
      intro e he
      rw [ht] at he
      rcases List.mem_cons.mp he with he | he
      · rw [he]
        exact hp.1
      · exact Exec.uses (hp.2 x) h e he

/-- Every value `p` returns, whatever the answers, satisfies `P`. -/
def Prog.Returns (P : α → Prop) : Prog S α → Prop
  | .ret a => P a
  | .call _ k => ∀ x, (k x).Returns P

theorem Prog.returns_pure {P : α → Prop} {a : α} (h : P a) : (pure a : Prog S α).Returns P := h

theorem Prog.returns_bind {P : α → Prop} {Q : β → Prop} {p : Prog S α} {f : α → Prog S β}
    (hp : p.Returns P) (hf : ∀ a, P a → (f a).Returns Q) : (p >>= f).Returns Q := by
  show (p.bind f).Returns Q
  induction p with
  | ret a => exact hf a hp
  | call op k ih => exact fun x => ih x (hp x)

theorem Prog.returns_true (p : Prog S α) : p.Returns fun _ => True := by
  induction p with
  | ret a => trivial
  | call op k ih => exact ih

/-- When only the last part of a program decides. -/
theorem Prog.returns_seq {Q : β → Prop} (p : Prog S α) {f : α → Prog S β}
    (hf : ∀ a, (f a).Returns Q) : (p >>= f).Returns Q :=
  Prog.returns_bind p.returns_true fun a _ => hf a

theorem Exec.returns {E : Env S σ} {P : α → Prop} :
    ∀ {p : Prog S α} {w : σ} {t : Trace S} {a : α} {w' : σ},
      p.Returns P → Exec E p w t a w' → P a
  | .ret _, _, _, _, _, hp, h => by
      rw [h.2.1]
      exact hp
  | .call op k, _, _, _, _, hp, h => by
      obtain ⟨x, w₁, t₁, _, _, h⟩ := h
      exact Exec.returns (hp x) h

end Uses

end MobileBgb.Effect
