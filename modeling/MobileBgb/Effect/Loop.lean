/-
  MobileBgb.Effect.Loop — loops of programs, round by round.

  A `while` loop is a body that says, after each round, whether to go on
  (`Flow.go`) or to leave (`Flow.done`).  `loop body n s` is the program that
  makes at most `n` rounds; `Rounds` lists the rounds of such a run one by one,
  each with the state before it and its own trace.  Properties of whole runs
  come from ONE rule, `Rounds.invariant`: what one round preserves, every run
  preserves, over the environment state and the trace accumulated so far.
-/
import MobileBgb.Effect.Prog

namespace MobileBgb.Effect

/-! ## §1. The loop. -/

/-- How a round of a loop ends. -/
inductive Flow (τ β : Type) where
  /-- Go on with the next round from this state. -/
  | go (s : τ)
  /-- Leave the loop with this result. -/
  | done (b : β)
  deriving DecidableEq

variable {S : Signature} {σ τ β : Type}

/-- The state in which a loop stands, when it also leaves with its state. -/
def Flow.get : Flow τ τ → τ
  | .go s => s
  | .done s => s

/-- At most `n` rounds of `body` (`Flow.go` at the end: the loop is still running). -/
def loop (body : τ → Prog S (Flow τ β)) : Nat → τ → Prog S (Flow τ β)
  | 0, s => pure (.go s)
  | n + 1, s => do
      match ← body s with
      | .go s' => loop body n s'
      | .done b => pure (.done b)

/-! ## §2. The rounds of a run. -/

/-- One round: the state before it, what it did, how it ended. -/
structure Round (S : Signature) (τ β : Type) where
  pre : τ
  trace : Trace S
  out : Flow τ β

/-- The trace of a run is that of its rounds, one after the other. -/
def traceOf (rs : List (Round S τ β)) : Trace S := (rs.map Round.trace).flatten

theorem traceOf_cons (r : Round S τ β) (rs : List (Round S τ β)) :
    traceOf (r :: rs) = r.trace ++ traceOf rs := by
  simp [traceOf]

@[simp] theorem traceOf_singleton (r : Round S τ β) : traceOf [r] = r.trace := by
  rw [traceOf_cons]
  exact List.append_nil r.trace

/-- A run of the loop from `s`: its rounds, how it stands at the end. -/
inductive Rounds (E : Env S σ) (body : τ → Prog S (Flow τ β)) :
    τ → σ → List (Round S τ β) → Flow τ β → σ → Prop where
  | stop (s : τ) (w : σ) : Rounds E body s w [] (.go s) w
  | go {s s₁ : τ} {w w₁ w' : σ} {t : Trace S} {rs : List (Round S τ β)} {fl : Flow τ β}
      (h : Exec E (body s) w t (.go s₁) w₁) (hr : Rounds E body s₁ w₁ rs fl w') :
      Rounds E body s w (⟨s, t, .go s₁⟩ :: rs) fl w'
  | done {s : τ} {w w' : σ} {t : Trace S} {b : β}
      (h : Exec E (body s) w t (.done b) w') :
      Rounds E body s w [⟨s, t, .done b⟩] (.done b) w'

/-- Every execution of the loop program is a run, with the concatenated trace. -/
theorem exec_loop {E : Env S σ} {body : τ → Prog S (Flow τ β)} :
    ∀ {n : Nat} {s : τ} {w : σ} {t : Trace S} {fl : Flow τ β} {w' : σ},
      Exec E (loop body n s) w t fl w' →
      ∃ rs, Rounds E body s w rs fl w' ∧ t = traceOf rs
  | 0, s, w, t, fl, w', h => by
      rw [loop, exec_pure] at h
      obtain ⟨ht, hfl, hw⟩ := h
      subst ht hfl hw
      exact ⟨[], .stop s _, rfl⟩
  | n + 1, s, w, t, fl, w', h => by
      rw [loop, exec_bind] at h
      obtain ⟨t₁, fl₁, w₁, t₂, h₁, h₂, ht⟩ := h
      -- the round decides whether there is another one
      cases fl₁ with
      | go s₁ =>
        obtain ⟨rs, hrs, ht₂⟩ := exec_loop h₂
        exact ⟨_, .go h₁ hrs, by rw [traceOf_cons, ht, ht₂]⟩
      | done b =>
        obtain ⟨ht₂, hfl, hw⟩ := (exec_pure E).mp h₂
        subst ht₂ hfl hw
        exact ⟨_, .done h₁, by rw [traceOf_cons, ht]; rfl⟩

/-- And every run is an execution of the loop with enough rounds allowed. -/
theorem Rounds.exec_loop {E : Env S σ} {body : τ → Prog S (Flow τ β)}
    {s : τ} {w w' : σ} {rs : List (Round S τ β)} {fl : Flow τ β}
    (h : Rounds E body s w rs fl w') :
    Exec E (loop body rs.length s) w (traceOf rs) fl w' := by
  induction h with
  | stop s w => exact ⟨rfl, rfl, rfl⟩
  | go h _ ih =>
    rw [List.length_cons, loop, exec_bind, traceOf_cons]
    exact ⟨_, _, _, _, h, ih, rfl⟩
  | done h =>
    rw [List.length_cons, loop, exec_bind, traceOf_cons]
    exact ⟨_, _, _, _, h, ⟨rfl, rfl, rfl⟩, rfl⟩

/-- The rounds of the loop against one deterministic handler, at most `n` of them. -/
def runRounds (h : σ → (op : S.Op) → S.Ans op × σ) (body : τ → Prog S (Flow τ β)) :
    Nat → τ → σ → List (Round S τ β) × Flow τ β × σ
  | 0, s, w => ([], .go s, w)
  | n + 1, s, w =>
      match (body s).run h w with
      | (t, .go s₁, w₁) =>
          let r := runRounds h body n s₁ w₁
          (⟨s, t, .go s₁⟩ :: r.1, r.2)
      | (t, .done b, w₁) => ([⟨s, t, .done b⟩], .done b, w₁)

/-- They are a run in every environment that allows the handler's answers to the requests made
    in it. -/
theorem rounds_runRounds_of {E : Env S σ} {h : σ → (op : S.Op) → S.Ans op × σ} {P : S.Op → Prop}
    (hE : ∀ w op, P op → E w op (h w op).1 (h w op).2) (body : τ → Prog S (Flow τ β)) :
    ∀ (n : Nat) (s : τ) (w : σ),
      (∀ e ∈ traceOf (runRounds h body n s w).1, P e.op) →
      Rounds E body s w (runRounds h body n s w).1 (runRounds h body n s w).2.1
        (runRounds h body n s w).2.2
  | 0, s, w, _ => .stop s w
  | n + 1, s, w, hP => by
      have hx := exec_run_of hE (body s) w
      unfold runRounds at hP ⊢
      split
      next t s₁ w₁ hrun =>
        simp only [hrun, traceOf_cons, List.mem_append] at hx hP
        exact .go (hx fun e he => hP e (Or.inl he))
          (rounds_runRounds_of hE body n s₁ w₁ fun e he => hP e (Or.inr he))
      next t b w₁ hrun =>
        simp only [hrun, traceOf_cons, List.mem_append] at hx hP
        exact .done (hx fun e he => hP e (Or.inl he))

theorem rounds_runRounds {E : Env S σ} {h : σ → (op : S.Op) → S.Ans op × σ}
    (hE : ∀ w op, E w op (h w op).1 (h w op).2) (body : τ → Prog S (Flow τ β)) (n : Nat) (s : τ)
    (w : σ) :
    Rounds E body s w (runRounds h body n s w).1 (runRounds h body n s w).2.1
      (runRounds h body n s w).2.2 :=
  rounds_runRounds_of (P := fun _ => True) (fun w op _ => hE w op) body n s w fun _ _ => trivial

/-! ## §3. The invariant rule. -/

/-- **The invariant rule.**  `I` relates how the run stands, the environment and the trace so
    far; one round keeps it, so every run keeps it. -/
theorem Rounds.invariant {E : Env S σ} {body : τ → Prog S (Flow τ β)}
    {I : Flow τ β → σ → Trace S → Prop}
    (hstep : ∀ s w t₀ t fl w', I (.go s) w t₀ → Exec E (body s) w t fl w' → I fl w' (t₀ ++ t))
    {s : τ} {w w' : σ} {rs : List (Round S τ β)} {fl : Flow τ β} (t₀ : Trace S)
    (h0 : I (.go s) w t₀) (h : Rounds E body s w rs fl w') : I fl w' (t₀ ++ traceOf rs) := by
  -- induction on the run, for every trace that came before it
  induction h generalizing t₀ with
  | stop s w => rw [show traceOf ([] : List (Round S τ β)) = [] from rfl, List.append_nil]; exact h0
  | go h _ ih =>
    rw [traceOf_cons, ← List.append_assoc]
    exact ih _ (hstep _ _ _ _ _ _ h0 h)
  | done h =>
    rw [traceOf_singleton]
    exact hstep _ _ _ _ _ _ h0 h

/-- The invariant rule for a property of the state alone, together with what it gives of every
    round of the run: the round starts in a state with the property. -/
theorem Rounds.forall_round {E : Env S σ} {body : τ → Prog S (Flow τ β)}
    {I : τ → Prop} {Q : Round S τ β → Prop}
    (hstep : ∀ s w t s' w', I s → Exec E (body s) w t (.go s') w' → I s')
    (hround : ∀ s w t fl w', I s → Exec E (body s) w t fl w' → Q ⟨s, t, fl⟩)
    {s : τ} {w w' : σ} {rs : List (Round S τ β)} {fl : Flow τ β}
    (h0 : I s) (h : Rounds E body s w rs fl w') : ∀ r ∈ rs, Q r := by
  -- induction on the run; the property of the state is handed on by `hstep`
  induction h with
  | stop s w =>
    intro r hr
    cases hr
  | go h _ ih =>
    intro r hr
    rcases List.mem_cons.mp hr with hr | hr
    · rw [hr]
      exact hround _ _ _ _ _ h0 h
    · exact ih (hstep _ _ _ _ _ h0 h) r hr
  | done h =>
    intro r hr
    rw [List.mem_singleton.mp hr]
    exact hround _ _ _ _ _ h0 h

end MobileBgb.Effect
