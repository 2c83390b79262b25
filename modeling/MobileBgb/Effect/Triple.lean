/-
  MobileBgb.Effect.Triple — triples that see the past, and a frame rule.

  `Triple E G P p Q` is a Hoare triple for programs in an environment.  Its
  assertions speak of the environment's state AND of everything that has happened
  so far (`Trace S`), so what a program has spoiled on the way can be named at its
  end.  As in `wp`, every request has to be allowed by `G`.

    * `triple_bind`, `triple_loop` — sequences and loops;
    * `wp_framed`                  — the frame rule.  A program that is specified in
                                     a SMALL world runs in every larger one that
                                     answers the requests allowed in the small one
                                     as the small one could;
    * `Exec.project`               — forget a part of the environment.

  Nothing in this file is about the repository.
-/
import MobileBgb.Effect.Wp

namespace MobileBgb.Effect

variable {S : Signature} {σ τ α β : Type}

/-! ## §1. Triples. -/

/-- An assertion: of what has happened so far, and of the state. -/
abbrev Assertion (S : Signature) (σ : Type) := Trace S → σ → Prop

/-- From `P`, every request of `p` is allowed by `G` and every execution ends in `Q`. -/
def Triple (E : Env S σ) (G : σ → S.Op → Prop) (P : Assertion S σ) (p : Prog S α)
    (Q : α → Assertion S σ) : Prop :=
  ∀ past w, P past w → wp E G p (fun t a w' => Q a (past ++ t) w') w

section Rules

variable {E : Env S σ} {G : σ → S.Op → Prop} {P : Assertion S σ}

theorem triple_pure {a : α} {Q : α → Assertion S σ} (h : ∀ past w, P past w → Q a past w) :
    Triple E G P (pure a) Q := by
  intro past w hP
  show Q a (past ++ []) w
  rw [List.append_nil]
  exact h past w hP

theorem triple_bind {p : Prog S α} {f : α → Prog S β} {R : α → Assertion S σ}
    {Q : β → Assertion S σ} (hp : Triple E G P p R) (hf : ∀ a, Triple E G (R a) (f a) Q) :
    Triple E G P (p >>= f) Q := by
  intro past w hP
  apply wp_bind
  refine wp_mono ?_ (hp past w hP)
  intro t₁ a w₁ hR
  refine wp_mono ?_ (hf a _ _ hR)
  intro t₂ b w' hQ
  rw [← List.append_assoc]
  exact hQ

/-- A stronger precondition, a weaker postcondition. -/
theorem triple_conseq {P' : Assertion S σ} {p : Prog S α} {Q Q' : α → Assertion S σ}
    (hp : Triple E G P p Q) (hP : ∀ past w, P' past w → P past w)
    (hQ : ∀ a past w, Q a past w → Q' a past w) : Triple E G P' p Q' := by
  intro past w h
  refine wp_mono ?_ (hp past w (hP past w h))
  intro t a w' h
  exact hQ a _ w' h

/-- What does not depend on the state can be taken out of a precondition. -/
theorem triple_of_fact {φ : Prop} {p : Prog S α} {Q : α → Assertion S σ}
    (h : φ → Triple E G P p Q) : Triple E G (fun past w => φ ∧ P past w) p Q :=
  fun past w hP => h hP.1 past w hP.2

/-- **The loop rule.**  What every round hands to the next one, and to the end, holds however
    many rounds are allowed. -/
theorem triple_loop {body : τ → Prog S (Flow τ β)} {J : Flow τ β → Assertion S σ}
    (hbody : ∀ s, Triple E G (J (.go s)) (body s) J) (n : Nat) (s : τ) :
    Triple E G (J (.go s)) (loop body n s) J := by
  -- induction on the rounds allowed, for every state the next one may start in
  induction n generalizing s with
  | zero => exact triple_pure fun past w h => h
  | succ n ih =>
    unfold loop
    refine triple_bind (hbody s) ?_
    intro fl
    cases fl with
    | go s' => exact ih s'
    | done b => exact triple_pure fun past w h => h

end Rules

/-! ## §2. The frame rule. -/

/-- **The frame rule.**  `R v w`: the small world `v` is a part of `w`.  If the answers `w` gives
    to requests allowed in `v` are answers of `v`, and leave a part again, then an execution in
    `w` is one in `v`, and ends as `v` says. -/
theorem wp_framed {E : Env S σ} {F : Env S τ} {G : τ → S.Op → Prop} {R : τ → σ → Prop}
    (hlocal : ∀ v w op x w', R v w → G v op → E w op x w' → ∃ v', F v op x v' ∧ R v' w') :
    ∀ {p : Prog S α} {Q : Trace S → α → τ → Prop} {v : τ} {w : σ} {t : Trace S} {a : α} {w' : σ},
      wp F G p Q v → R v w → Exec E p w t a w' →
      ∃ v', Exec (Guarded F G) p v t a v' ∧ R v' w' ∧ Q t a v'
  | .ret _, Q, v, w, t, a, w', h, hR, hx => by
      obtain ⟨ht, ha, hw⟩ := hx
      subst ht ha hw
      exact ⟨v, ⟨rfl, rfl, rfl⟩, hR, h⟩
  | .call op k, Q, v, w, t, a, w', h, hR, hx => by
      obtain ⟨x, w₁, t₁, hE, ht, hx⟩ := hx
      obtain ⟨v₁, hF, hR₁⟩ := hlocal v w op x w₁ hR h.1 hE
      obtain ⟨v', hx', hR', hQ⟩ := wp_framed hlocal (h.2 x v₁ hF) hR₁ hx
      subst ht
      exact ⟨v', ⟨x, v₁, t₁, ⟨h.1, hF⟩, rfl, hx'⟩, hR', hQ⟩

/-- An execution, seen through a part of the environment's state. -/
theorem Exec.project {E : Env S σ} {F : Env S τ} (f : σ → τ)
    (hEF : ∀ w op x w', E w op x w' → F (f w) op x (f w')) :
    ∀ {p : Prog S α} {w : σ} {t : Trace S} {a : α} {w' : σ},
      Exec E p w t a w' → Exec F p (f w) t a (f w')
  | .ret _, w, t, a, w', h => by
      obtain ⟨ht, ha, hw⟩ := h
      subst ht ha hw
      exact ⟨rfl, rfl, rfl⟩
  | .call op k, w, t, a, w', h => by
      obtain ⟨x, w₁, t₁, hE, ht, h⟩ := h
      exact ⟨x, f w₁, t₁, hEF _ _ _ _ hE, ht, h.project f hEF⟩

end MobileBgb.Effect
