/-
  MobileBgb.Effect.Parallel — several parties that share an environment.

  Each party makes one call after the other; a call is a program over `S`, from the
  party's own state to its next one.  The parties take turns at every single request,
  in any order, and the shared state may move on its own in between.

    * `ParStep`          — one step of the whole;
    * `parties_invariant` — what every request and every move keeps, of the shared state
                           and of what each party has done, holds at every point;
    * `parties_follow`   — what one party has done is the trace of its calls, one after
                           the other, as if it were alone (`Calls`), and of a part of the
                           call it is in.

  So a result about one call, of its trace and its value, and a result about the events of
  all parties meet in the traces.

  Nothing in this file is about the repository.
-/
import MobileBgb.Effect.Interleave

namespace MobileBgb.Effect

open Relation

variable {S : Signature} {ι κ σ τ : Type}

/-! ## §1. One party. -/

/-- A party: its state between calls, everything it has done, and what is left of the call it is
    in. -/
structure Party (S : Signature) (κ τ : Type) where
  state : τ
  past : Trace S
  doing : Option (κ × Prog S τ)

/-- Any answer that `P` allows. -/
def allowing (P : Event S → Prop) : Env S Unit := fun _ op x _ => P ⟨op, x⟩

/-- Calls of one party, from `s` to `s'`, and what was done in them. -/
inductive Calls (P : Event S → Prop) (body : κ → τ → Prog S τ) (s : τ) : Trace S → τ → Prop where
  | none : Calls P body s [] s
  | snoc {t t' : Trace S} {s₁ s₂ : τ} (h : Calls P body s t s₁) (c : κ)
      (hx : Exec (allowing P) (body c s₁) () t' s₂ ()) : Calls P body s (t ++ t') s₂

/-- What a party has done in the call it is in, if it is in one. -/
def Party.within (P : Event S → Prop) (body : κ → τ → Prog S τ) (p : Party S κ τ) (t : Trace S) :
    Prop :=
  match p.doing with
  | .none => t = []
  | .some (c, rest) => Steps (allowing P) (body c p.state) () t rest ()

/-- The past of a party: its completed calls, and a part of the one it is in. -/
def Party.FollowsCalls (P : Event S → Prop) (body : κ → τ → Prog S τ) (s : τ) (p : Party S κ τ) :
    Prop :=
  ∃ t t', Calls P body s t p.state ∧ p.within P body t' ∧ p.past = t ++ t'

/-! ## §2. All of them. -/

/-- The parties and what they share. -/
structure Parties (ι : Type) (S : Signature) (κ τ σ : Type) where
  party : ι → Party S κ τ
  shared : σ

variable [DecidableEq ι]

/-- One party has gone on. -/
def Parties.set (g : Parties ι S κ τ σ) (i : ι) (p : Party S κ τ) (w : σ) : Parties ι S κ τ σ :=
  ⟨Function.update g.party i p, w⟩

/-- One step: a party begins a call, makes a request of it or ends it, or the shared state moves.
    `E i` answers the requests of the party `i`. -/
inductive ParStep (E : ι → Env S σ) (M : σ → σ → Prop) (body : ι → κ → τ → Prog S τ)
    (g : Parties ι S κ τ σ) : Parties ι S κ τ σ → Prop where
  | call (i : ι) (c : κ) (h : (g.party i).doing = none) :
      ParStep E M body g (g.set i
        ⟨(g.party i).state, (g.party i).past, some (c, body i c (g.party i).state)⟩ g.shared)
  | request (i : ι) {c : κ} {op : S.Op} {k : S.Ans op → Prog S τ} {x : S.Ans op} {w : σ}
      (h : (g.party i).doing = some (c, .call op k)) (hE : E i g.shared op x w) :
      ParStep E M body g (g.set i
        ⟨(g.party i).state, (g.party i).past ++ [⟨op, x⟩], some (c, k x)⟩ w)
  | ret (i : ι) {c : κ} {s : τ} (h : (g.party i).doing = some (c, .ret s)) :
      ParStep E M body g (g.set i ⟨s, (g.party i).past, none⟩ g.shared)
  | move {w : σ} (h : M g.shared w) : ParStep E M body g ⟨g.party, w⟩

/-- The parties before their first calls. -/
def Parties.start (s : ι → τ) (w : σ) : Parties ι S κ τ σ := ⟨fun i => ⟨s i, [], none⟩, w⟩

/-- What each party has done. -/
def Parties.pasts (g : Parties ι S κ τ σ) (i : ι) : Trace S := (g.party i).past

section Rules

variable {E : ι → Env S σ} {M : σ → σ → Prop} {body : ι → κ → τ → Prog S τ}
  {g g' : Parties ι S κ τ σ}

theorem Parties.pasts_set (g : Parties ι S κ τ σ) (i : ι) (p : Party S κ τ) (w : σ) :
    (g.set i p w).pasts = Function.update g.pasts i p.past := by
  funext j
  show (Function.update g.party i p j).past = Function.update g.pasts i p.past j
  by_cases hj : j = i
  · subst hj
    rw [Function.update_self, Function.update_self]
  · rw [Function.update_of_ne hj, Function.update_of_ne hj]
    rfl

/-- **The invariant rule**, for the events of all parties. -/
theorem parties_invariant {J : (ι → Trace S) → σ → Prop}
    (hrequest : ∀ ts w i op x w', J ts w → E i w op x w' →
      J (Function.update ts i (ts i ++ [⟨op, x⟩])) w')
    (hmove : ∀ ts w w', J ts w → M w w' → J ts w') (h0 : J g.pasts g.shared)
    (h : ReflTransGen (ParStep E M body) g g') : J g'.pasts g'.shared := by
  induction h with
  | refl => exact h0
  | @tail g₁ g₂ _ hstep ih =>
    cases hstep with
    | call i c hdoing =>
      rw [Parties.pasts_set]
      show J (Function.update g₁.pasts i (g₁.pasts i)) g₁.shared
      rw [Function.update_eq_self]
      exact ih
    | request i hdoing hE =>
      rw [Parties.pasts_set]
      exact hrequest _ _ i _ _ _ ih hE
    | ret i hdoing =>
      rw [Parties.pasts_set]
      show J (Function.update g₁.pasts i (g₁.pasts i)) g₁.shared
      rw [Function.update_eq_self]
      exact ih
    | move hM => exact hmove _ _ _ ih hM

/-- One step, for one party. -/
theorem ParStep.follows {P : Event S → Prop} (hP : ∀ i w op x w', E i w op x w' → P ⟨op, x⟩)
    (hstep : ParStep E M body g g') (s : ι → τ)
    (ih : ∀ i, (g.party i).FollowsCalls P (body i) (s i)) (i : ι) :
    (g'.party i).FollowsCalls P (body i) (s i) := by
  -- the party that goes on gets a case of its own, the others are as they were
  have hother : ∀ j p w, ((p : Party S κ τ).FollowsCalls P (body j) (s j)) →
      ((g.set j p w).party i).FollowsCalls P (body i) (s i) := by
    intro j p w hp
    show (Function.update g.party j p i).FollowsCalls P (body i) (s i)
    by_cases hi : i = j
    · subst hi
      rw [Function.update_self]
      exact hp
    · rw [Function.update_of_ne hi]
      exact ih i
  cases hstep with
  | call j c hdoing =>
    apply hother
    obtain ⟨t, t', hcalls, hwithin, hpast⟩ := ih j
    unfold Party.within at hwithin
    rw [hdoing] at hwithin
    have hwithin : t' = [] := hwithin
    exact ⟨t, [], hcalls, .refl _ _, by rw [hpast, hwithin]⟩
  | @request j c op k x w hdoing hE =>
    apply hother
    obtain ⟨t, t', hcalls, hwithin, hpast⟩ := ih j
    unfold Party.within at hwithin
    rw [hdoing] at hwithin
    have hsteps : Steps (allowing P) (body j c (g.party j).state) () (t' ++ [⟨op, x⟩]) (k x) () :=
      .tail hwithin (hP j _ _ _ _ hE)
    refine ⟨t, _, hcalls, hsteps, ?_⟩
    rw [hpast, List.append_assoc]
  | ret j hdoing =>
    apply hother
    obtain ⟨t, t', hcalls, hwithin, hpast⟩ := ih j
    unfold Party.within at hwithin
    rw [hdoing] at hwithin
    refine ⟨t ++ t', [], .snoc hcalls _ (Steps.ended hwithin), rfl, ?_⟩
    rw [List.append_nil]
    exact hpast
  | move hM => exact ih i

/-- **Each party for itself.**  However the parties take turns, what one of them has done is what
    its own calls do. -/
theorem parties_follow {P : Event S → Prop} (hP : ∀ i w op x w', E i w op x w' → P ⟨op, x⟩)
    (s : ι → τ) (w : σ) (h : ReflTransGen (ParStep E M body) (.start s w) g) (i : ι) :
    (g.party i).FollowsCalls P (body i) (s i) := by
  induction h generalizing i with
  | refl => exact ⟨[], [], .none, rfl, rfl⟩
  | tail _ hstep ih => exact hstep.follows hP s (fun j => ih j) i

end Rules

/-! ## §3. Running on a schedule. -/

/-- The next step of the party `i`, with the answers of a handler: the call `c` is begun if the
    party is in none. -/
def Parties.turn (serve : ι → σ → (op : S.Op) → S.Ans op × σ) (body : ι → κ → τ → Prog S τ)
    (g : Parties ι S κ τ σ) (i : ι) (c : κ) : Parties ι S κ τ σ :=
  match g.party i with
  | ⟨s, past, none⟩ => g.set i ⟨s, past, some (c, body i c s)⟩ g.shared
  | ⟨s, past, some (c, .call op k)⟩ =>
      match serve i g.shared op with
      | (x, w) => g.set i ⟨s, past ++ [⟨op, x⟩], some (c, k x)⟩ w
  | ⟨_, past, some (_, .ret s)⟩ => g.set i ⟨s, past, none⟩ g.shared

/-- Turns in the order of a schedule. -/
def Parties.runSchedule (serve : ι → σ → (op : S.Op) → S.Ans op × σ) (body : ι → κ → τ → Prog S τ)
    (g : Parties ι S κ τ σ) : List (ι × κ) → Parties ι S κ τ σ
  | [] => g
  | (i, c) :: turns => (g.turn serve body i c).runSchedule serve body turns

section Schedule

variable {E : ι → Env S σ} {M : σ → σ → Prop} {body : ι → κ → τ → Prog S τ}
  {serve : ι → σ → (op : S.Op) → S.Ans op × σ}

/-- What a turn adds to what was done. -/
theorem pasts_turn (g : Parties ι S κ τ σ) (i : ι) (c : κ) :
    ∃ t, (g.turn serve body i c).pasts = Function.update g.pasts i (g.pasts i ++ t) := by
  have hpast : g.pasts i = (g.party i).past := rfl
  unfold Parties.turn
  match hparty : g.party i with
  | ⟨s, past, none⟩ =>
    refine ⟨[], ?_⟩
    rw [Parties.pasts_set, hpast, hparty, List.append_nil]
  | ⟨s, past, some (c', .call op k)⟩ =>
    refine ⟨[⟨op, (serve i g.shared op).1⟩], ?_⟩
    rw [Parties.pasts_set, hpast, hparty]
  | ⟨s, past, some (c', .ret s')⟩ =>
    refine ⟨[], ?_⟩
    rw [Parties.pasts_set, hpast, hparty, List.append_nil]

/-- Nothing that was done is forgotten. -/
theorem mem_pasts_runSchedule {e : Event S} {j : ι} (g : Parties ι S κ τ σ)
    (turns : List (ι × κ)) (he : e ∈ g.pasts j) :
    e ∈ (g.runSchedule serve body turns).pasts j := by
  induction turns generalizing g with
  | nil => exact he
  | cons turn turns ih =>
    refine ih _ ?_
    obtain ⟨t, ht⟩ : ∃ t, (g.turn serve body turn.1 turn.2).pasts = _ := pasts_turn g turn.1 turn.2
    rw [ht]
    by_cases hj : j = turn.1
    · rw [hj, Function.update_self]
      rw [hj] at he
      exact List.mem_append_left _ he
    · rw [Function.update_of_ne hj]
      exact he

/-- A turn is a step, if the handler's answer is allowed. -/
theorem parStep_turn {P : S.Op → Prop}
    (hserve : ∀ i w op, P op → E i w op (serve i w op).1 (serve i w op).2)
    (g : Parties ι S κ τ σ) (i : ι) (c : κ)
    (hP : ∀ e ∈ (g.turn serve body i c).pasts i, P e.op) :
    ParStep E M body g (g.turn serve body i c) := by
  match hparty : g.party i with
  | ⟨s, past, none⟩ =>
    have hstep : ParStep E M body g _ := .call i c
      (show (g.party i).doing = none by rw [hparty])
    unfold Parties.turn
    rw [hparty] at hstep ⊢
    exact hstep
  | ⟨s, past, some (c', .call op k)⟩ =>
    have hturn : g.turn serve body i c = g.set i ⟨s, past ++ [⟨op, (serve i g.shared op).1⟩],
        some (c', k (serve i g.shared op).1)⟩ (serve i g.shared op).2 := by
      unfold Parties.turn
      rw [hparty]
    rw [hturn] at hP ⊢
    rw [Parties.pasts_set, Function.update_self] at hP
    have hop : P op := hP _ (List.mem_append_right past (List.mem_singleton.mpr rfl))
    have hstep : ParStep E M body g _ := .request i
      (show (g.party i).doing = some (c', .call op k) by rw [hparty]) (hserve i g.shared op hop)
    rw [hparty] at hstep
    exact hstep
  | ⟨s, past, some (c', .ret s')⟩ =>
    have hstep : ParStep E M body g _ := .ret i
      (show (g.party i).doing = some (c', .ret s') by rw [hparty])
    unfold Parties.turn
    rw [hparty] at hstep ⊢
    exact hstep

/-- A schedule leads to a reachable state, if the handler's answers to the requests made are
    allowed. -/
theorem reaches_runSchedule {P : S.Op → Prop}
    (hserve : ∀ i w op, P op → E i w op (serve i w op).1 (serve i w op).2)
    (g : Parties ι S κ τ σ) (turns : List (ι × κ))
    (hP : ∀ i, ∀ e ∈ (g.runSchedule serve body turns).pasts i, P e.op) :
    ReflTransGen (ParStep E M body) g (g.runSchedule serve body turns) := by
  induction turns generalizing g with
  | nil => exact .refl
  | cons turn turns ih =>
    refine .head (parStep_turn hserve g turn.1 turn.2 ?_) (ih _ hP)
    intro e he
    exact hP turn.1 e (mem_pasts_runSchedule _ turns he)

end Schedule

end MobileBgb.Effect
