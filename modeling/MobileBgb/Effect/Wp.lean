/-
  MobileBgb.Effect.Wp — preconditions for programs in an environment.

  `wp E G p Q w` says: started in `w`, the program `p` makes only requests that
  `G` allows in the state they are made in, and however the environment `E`
  answers, it ends with `Q` of its trace, its value and the last state.  It is a
  recursion over the program, so a proof follows the code request by request;
  `wp_bind` cuts it at a call, and `wp_mono` puts the callee's own result there.

  `wp_exec` and `Rounds.wp` take it back to executions and to whole runs, and
  `Guarded.event` reads off, event by event, that every request was allowed.

  Nothing in this file is about the repository.
-/
import MobileBgb.Effect.Loop

namespace MobileBgb.Effect

variable {S : Signature} {σ τ α β : Type}

/-! ## §1. Weakest preconditions. -/

/-- From `w`, every request of `p` is allowed by `G` and every execution ends in `Q`. -/
def wp (E : Env S σ) (G : σ → S.Op → Prop) : Prog S α → (Trace S → α → σ → Prop) → σ → Prop
  | .ret a, Q, w => Q [] a w
  | .call op k, Q, w =>
      G w op ∧ ∀ x w₁, E w op x w₁ → wp E G (k x) (fun t a w' => Q (⟨op, x⟩ :: t) a w') w₁

section Rules

variable {E : Env S σ} {G : σ → S.Op → Prop}

theorem wp_ask_bind {op : S.Op} {f : S.Ans op → Prog S β} {Q : Trace S → β → σ → Prop} {w : σ} :
    wp E G (Prog.ask op >>= f) Q w ↔
      G w op ∧ ∀ x w₁, E w op x w₁ → wp E G (f x) (fun t b w' => Q (⟨op, x⟩ :: t) b w') w₁ :=
  Iff.rfl

/-- A weaker postcondition. -/
theorem wp_mono {p : Prog S α} {Q Q' : Trace S → α → σ → Prop} {w : σ}
    (hQ : ∀ t a w', Q t a w' → Q' t a w') (h : wp E G p Q w) : wp E G p Q' w := by
  induction p generalizing Q Q' w with
  | ret a => exact hQ _ _ _ h
  | call op k ih => exact ⟨h.1, fun x w₁ hE => ih x (fun t a w' => hQ _ a w') (h.2 x w₁ hE)⟩

/-- Without a guard every program ends somehow. -/
theorem wp_true (p : Prog S α) (w : σ) :
    wp E (fun _ _ => True) p (fun _ _ _ => True) w := by
  induction p generalizing w with
  | ret a => trivial
  | call op k ih => exact ⟨trivial, fun x w₁ _ => ih x w₁⟩

/-- Sequencing: the second part starts where the first one ended. -/
theorem wp_bind {p : Prog S α} {f : α → Prog S β} {Q : Trace S → β → σ → Prop} {w : σ}
    (h : wp E G p (fun t₁ a w₁ => wp E G (f a) (fun t₂ b w' => Q (t₁ ++ t₂) b w') w₁) w) :
    wp E G (p >>= f) Q w := by
  show wp E G (p.bind f) Q w
  induction p generalizing Q w with
  | ret a => exact h
  | call op k ih => exact ⟨h.1, fun x w₁ hE => ih x (h.2 x w₁ hE)⟩

/-- What every execution gives can be used for the postcondition. -/
theorem wp_of_exec {p : Prog S α} {Q Q' : Trace S → α → σ → Prop} {w : σ}
    (hQ : ∀ t a w', Exec E p w t a w' → Q t a w' → Q' t a w') (h : wp E G p Q w) :
    wp E G p Q' w := by
  induction p generalizing Q Q' w with
  | ret a => exact hQ _ _ _ ⟨rfl, rfl, rfl⟩ h
  | call op k ih =>
    refine ⟨h.1, fun x w₁ hE => ih x ?_ (h.2 x w₁ hE)⟩
    intro t a w' hx
    exact hQ _ _ _ ⟨x, w₁, t, hE, rfl, hx⟩

/-- A last step that only packs the value. -/
theorem wp_bind_pure {p : Prog S α} {f : α → β} {Q : Trace S → β → σ → Prop} {w : σ}
    (h : wp E G p (fun t a w' => Q t (f a) w') w) : wp E G (p >>= fun a => pure (f a)) Q w := by
  apply wp_bind
  refine wp_mono ?_ h
  intro t a w' hQ
  show Q (t ++ []) (f a) w'
  rw [List.append_nil]
  exact hQ

end Rules

/-- The guard that asks for an answer: as long as it holds of every request, the program never
    waits in vain. -/
def Answerable (E : Env S σ) (w : σ) (op : S.Op) : Prop := ∃ x w', E w op x w'

/-! ## §2. Back to executions. -/

/-- The environment that only answers requests `G` allows. -/
def Guarded (E : Env S σ) (G : σ → S.Op → Prop) : Env S σ :=
  fun w op x w' => G w op ∧ E w op x w'

/-- An execution of a program with a precondition ends in the postcondition, and all its
    requests were allowed. -/
theorem wp_exec {E : Env S σ} {G : σ → S.Op → Prop} :
    ∀ {p : Prog S α} {Q : Trace S → α → σ → Prop} {w : σ} {t : Trace S} {a : α} {w' : σ},
      wp E G p Q w → Exec E p w t a w' → Q t a w' ∧ Exec (Guarded E G) p w t a w'
  | .ret _, Q, w, t, a, w', h, hx => by
      obtain ⟨ht, ha, hw⟩ := hx
      subst ht ha hw
      exact ⟨h, rfl, rfl, rfl⟩
  | .call op k, Q, w, t, a, w', h, hx => by
      obtain ⟨x, w₁, t₁, hE, ht, hx⟩ := hx
      subst ht
      obtain ⟨hQ, hg⟩ := wp_exec (h.2 x w₁ hE) hx
      exact ⟨hQ, x, w₁, t₁, ⟨h.1, hE⟩, rfl, hg⟩

/-- A body that keeps `J`, of how the run stands and of the environment, keeps it in every run,
    and all requests of the run are allowed. -/
theorem Rounds.wp {E : Env S σ} {G : σ → S.Op → Prop} {body : τ → Prog S (Flow τ β)}
    {J : Flow τ β → σ → Prop}
    (hstep : ∀ s w, J (.go s) w → wp E G (body s) (fun _ fl w' => J fl w') w)
    {s : τ} {w w' : σ} {rs : List (Round S τ β)} {fl : Flow τ β}
    (h0 : J (.go s) w) (h : Rounds E body s w rs fl w') :
    Rounds (Guarded E G) body s w rs fl w' ∧ J fl w' := by
  -- induction on the run; `wp_exec` turns the precondition of each round into its end
  induction h with
  | stop s w => exact ⟨.stop s w, h0⟩
  | go hx _ ih =>
    obtain ⟨hJ, hg⟩ := wp_exec (hstep _ _ h0) hx
    obtain ⟨hrs, hend⟩ := ih hJ
    exact ⟨.go hg hrs, hend⟩
  | done hx =>
    obtain ⟨hJ, hg⟩ := wp_exec (hstep _ _ h0) hx
    exact ⟨.done hg, hJ⟩

/-- What a guard says at each event of a trace, when the part of the state it looks at (`view`)
    can be followed along the trace (`step`). -/
theorem Guarded.event {υ : Type} {E : Env S σ} {view : σ → υ} {step : υ → Event S → υ}
    {G : υ → S.Op → Prop} (hview : ∀ w op x w', E w op x w' → view w' = step (view w) ⟨op, x⟩) :
    ∀ {p : Prog S α} {w : σ} {t : Trace S} {a : α} {w' : σ},
      Exec (Guarded E fun w op => G (view w) op) p w t a w' →
      ∀ pre e post, t = pre ++ e :: post → G (pre.foldl step (view w)) e.op
  | .ret _, w, t, a, w', hx, pre, e, post, ht => by
      rw [hx.1] at ht
      exact absurd ht.symm (by simp)
  | .call op k, w, t, a, w', hx, pre, e, post, ht => by
      obtain ⟨x, w₁, t₁, ⟨hG, hE⟩, ht₁, hx⟩ := hx
      rw [ht₁] at ht
      cases pre with
      | nil =>
        injection ht with he _
        rw [← he]
        exact hG
      | cons e₁ pre =>
        injection ht with he ht
        rw [List.foldl_cons, ← he, ← hview w op x w₁ hE]
        exact Guarded.event hview hx pre e post ht

end MobileBgb.Effect
