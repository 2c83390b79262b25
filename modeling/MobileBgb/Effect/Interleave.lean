/-
  MobileBgb.Effect.Interleave — a program and another party, in any order.

  The environment of a program may itself be a party that moves on its own: between
  two requests it takes as many steps as it likes.  `interleaved M E` is such an
  environment: `E` answers the requests, `M` is one move of the other party.  The
  executions in it are all interleavings of the two.

    * `Follows`        — a run seen from outside: the moves, and between them what
                         the program showed, each item with its effect;
    * `exec_follows`   — every execution is such a run;
    * `left_mover`     — an effect that does not depend on the moves before it can be
                         taken first, so that it need not be tracked among them;
    * `Steps`          — an execution that has not come to its end: what is left of
                         the program is kept.

  Nothing in this file is about the repository.
-/
import MobileBgb.Effect.Prog
import Mathlib.Logic.Relation

namespace MobileBgb.Effect

open Relation

variable {S : Signature} {σ ο α : Type}

/-! ## §1. The other party. -/

/-- Requests are answered by `E`; before and after each of them the other party moves. -/
def interleaved (M : σ → σ → Prop) (E : Env S σ) : Env S σ := fun w op x w' =>
  ∃ w₁ w₂, ReflTransGen M w w₁ ∧ E w₁ op x w₂ ∧ ReflTransGen M w₂ w'

/-- The other party need not move at all. -/
theorem interleaved_of {M : σ → σ → Prop} {E : Env S σ} {w w' : σ} {op : S.Op} {x : S.Ans op}
    (h : E w op x w') : interleaved M E w op x w' :=
  ⟨w, w', .refl, h, .refl⟩

/-! ## §2. What is shown, and what it does. -/

/-- The effect of an event that shows the item `o`, or nothing. -/
def ofShown (shows : ο → σ → σ → Prop) (o : Option ο) (w w' : σ) : Prop :=
  match o with
  | none => w' = w
  | some o => shows o w w'

/-- From `w` to `w'` by moves of the other party and the effects of the items `os`, in order. -/
inductive Follows (M : σ → σ → Prop) (shows : ο → σ → σ → Prop) : List ο → σ → σ → Prop where
  | nil {w w' : σ} (h : ReflTransGen M w w') : Follows M shows [] w w'
  | cons {o : ο} {os : List ο} {w w₁ w₂ w' : σ} (hm : ReflTransGen M w w₁) (ho : shows o w₁ w₂)
      (h : Follows M shows os w₂ w') : Follows M shows (o :: os) w w'

section Follows

variable {M : σ → σ → Prop} {shows : ο → σ → σ → Prop}

theorem follows_nil {w w' : σ} : Follows M shows [] w w' ↔ ReflTransGen M w w' := by
  constructor
  · intro h
    cases h with
    | nil h => exact h
  · exact .nil

theorem follows_cons {o : ο} {os : List ο} {w w' : σ} :
    Follows M shows (o :: os) w w' ↔
      ∃ w₁ w₂, ReflTransGen M w w₁ ∧ shows o w₁ w₂ ∧ Follows M shows os w₂ w' := by
  constructor
  · intro h
    cases h with
    | cons hm ho h => exact ⟨_, _, hm, ho, h⟩
  · intro h
    obtain ⟨w₁, w₂, hm, ho, h⟩ := h
    exact .cons hm ho h

/-- The other party moves first. -/
theorem Follows.after {os : List ο} {w w₁ w' : σ} (hm : ReflTransGen M w w₁)
    (h : Follows M shows os w₁ w') : Follows M shows os w w' := by
  cases h with
  | nil h => exact .nil (hm.trans h)
  | cons hm' ho h => exact .cons (hm.trans hm') ho h

/-- Two runs, one after the other. -/
theorem follows_append {os os' : List ο} {w w' : σ} :
    Follows M shows (os ++ os') w w' ↔
      ∃ w₁, Follows M shows os w w₁ ∧ Follows M shows os' w₁ w' := by
  constructor
  · intro h
    induction os generalizing w with
    | nil => exact ⟨w, .nil .refl, h⟩
    | cons o os ih =>
      rw [List.cons_append, follows_cons] at h
      obtain ⟨w₁, w₂, hm, ho, h⟩ := h
      obtain ⟨w₃, h₁, h₂⟩ := ih h
      exact ⟨w₃, .cons hm ho h₁, h₂⟩
  · intro h
    obtain ⟨w₁, h₁, h₂⟩ := h
    induction h₁ with
    | nil hm => exact h₂.after hm
    | cons hm ho _ ih => exact .cons hm ho (ih h₂)

/-- **Executions, seen from outside.**  When `view` picks what an event shows, and an event that
    shows nothing has no effect, every execution among the moves follows what it shows. -/
theorem exec_follows {E : Env S σ} {view : Event S → Option ο}
    (hE : ∀ w op x w', E w op x w' → ofShown shows (view ⟨op, x⟩) w w') :
    ∀ {p : Prog S α} {w : σ} {t : Trace S} {a : α} {w' : σ},
      Exec (interleaved M E) p w t a w' → Follows M shows (t.filterMap view) w w'
  | .ret _, w, t, a, w', h => by
      obtain ⟨ht, _, hw⟩ := h
      subst ht hw
      exact .nil .refl
  | .call op k, w, t, a, w', h => by
      obtain ⟨x, w₁, t₁, ⟨w₂, w₃, hm, hx, hm'⟩, ht, h⟩ := h
      have ih := exec_follows hE h
      have heff := hE _ _ _ _ hx
      subst ht
      rw [List.filterMap_cons]
      cases hv : view ⟨op, x⟩ with
      | none =>
        rw [hv] at heff
        have heff : w₃ = w₂ := heff
        subst heff
        exact (ih.after hm').after hm
      | some o =>
        rw [hv] at heff
        exact .cons hm heff (ih.after hm')

/-- **Left movers.**  An effect that can be taken before any one move can be taken before all of
    them. -/
theorem left_mover {R : σ → σ → Prop}
    (hR : ∀ w w₁ w₂, M w w₁ → R w₁ w₂ → ∃ w₃, R w w₃ ∧ M w₃ w₂) {w w₁ w₂ : σ}
    (hm : ReflTransGen M w w₁) (h : R w₁ w₂) : ∃ w₃, R w w₃ ∧ ReflTransGen M w₃ w₂ := by
  -- induction on the moves, from the last to the first
  induction hm using ReflTransGen.head_induction_on with
  | refl => exact ⟨w₂, h, .refl⟩
  | head hstep _ ih =>
    obtain ⟨w₃, hr, hms⟩ := ih
    obtain ⟨w₄, hr', hm'⟩ := hR _ _ _ hstep hr
    exact ⟨w₄, hr', .head hm' hms⟩

end Follows

/-- Where a relation is accessible no chain goes down forever. -/
theorem not_infinite_of_acc {R : σ → σ → Prop} {x : σ} (h : Acc (fun y x => R x y) x)
    {f : Nat → σ} (h0 : f 0 = x) (hstep : ∀ n, R (f n) (f (n + 1))) : False := by
  induction h generalizing f with
  | intro x _ ih =>
    subst h0
    exact ih (f 1) (hstep 0) (f := fun n => f (n + 1)) rfl fun n => hstep (n + 1)

/-! ## §3. Executions that have not ended. -/

/-- `p` started in `w` has done `t`, and `q` is what is left of it. -/
inductive Steps (E : Env S σ) : Prog S α → σ → Trace S → Prog S α → σ → Prop where
  | refl (p : Prog S α) (w : σ) : Steps E p w [] p w
  | tail {p : Prog S α} {op : S.Op} {k : S.Ans op → Prog S α} {x : S.Ans op} {w w₁ w₂ : σ}
      {t : Trace S} (h : Steps E p w t (.call op k) w₁) (hE : E w₁ op x w₂) :
      Steps E p w (t ++ [⟨op, x⟩]) (k x) w₂

section Steps

variable {E : Env S σ}

/-- What was done, then what is left. -/
theorem Steps.exec {p q : Prog S α} {w w₁ w' : σ} {t t' : Trace S} {a : α}
    (h : Steps E p w t q w₁) (hq : Exec E q w₁ t' a w') : Exec E p w (t ++ t') a w' := by
  induction h generalizing t' with
  | refl => exact hq
  | @tail op k x w w₁ w₂ t _ hE ih =>
    rw [List.append_assoc]
    exact ih ⟨_, _, _, hE, rfl, hq⟩

/-- What was done, then more of it. -/
theorem Steps.trans {p q r : Prog S α} {w w₁ w' : σ} {t t' : Trace S} (h : Steps E p w t q w₁)
    (h' : Steps E q w₁ t' r w') : Steps E p w (t ++ t') r w' := by
  induction h' with
  | refl =>
    rw [List.append_nil]
    exact h
  | tail _ hE ih =>
    rw [← List.append_assoc]
    exact .tail (ih h) hE

/-- When nothing is left the execution has come to its end. -/
theorem Steps.ended {p : Prog S α} {w w' : σ} {t : Trace S} {a : α}
    (h : Steps E p w t (.ret a) w') : Exec E p w t a w' := by
  have hret : Exec E (.ret a) w' [] a w' := ⟨rfl, rfl, rfl⟩
  have hend := h.exec hret
  rw [List.append_nil] at hend
  exact hend

/-- The invariant rule: what one request keeps holds however far the execution has come. -/
theorem Steps.invariant {I : σ → Trace S → Prop} {p q : Prog S α} {w w' : σ} {t : Trace S}
    (hstep : ∀ w t op x w', I w t → E w op x w' → I w' (t ++ [⟨op, x⟩])) (h0 : I w [])
    (h : Steps E p w t q w') : I w' t := by
  induction h with
  | refl => exact h0
  | tail _ hE ih => exact hstep _ _ _ _ _ (ih h0) hE

end Steps

end MobileBgb.Effect
