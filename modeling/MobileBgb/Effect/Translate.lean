/-
  MobileBgb.Effect.Translate — programs over a larger interface.

  A program over the signature `S` is carried to a larger signature `T` by saying what
  each of its requests is there: `translate f p` asks `f op` wherever `p` asks `op`.

  `wp_translate` carries a precondition along.  `R w u` says that the state `w` is
  what `S` sees of `u`; it is enough that each single request is answered through `f`
  as `S` could have answered it.  `view` picks the requests of `S` out of the events
  of `T`, so that the postcondition still speaks of the original trace.

  `Prog.Makes P p l` says that of the requests in `P` the program makes exactly `l`, in this
  order, whatever the answers.

  Nothing in this file is about the repository.
-/
import MobileBgb.Effect.Triple

namespace MobileBgb.Effect

variable {S T : Signature} {σ υ α β : Type}

/-! ## §1. Translation. -/

/-- Every request of the program, as `f` makes it. -/
def Prog.translate (f : (op : S.Op) → Prog T (S.Ans op)) : Prog S α → Prog T α
  | .ret a => .ret a
  | .call op k => (f op).bind fun x => (k x).translate f

/-- **Translation keeps preconditions**, when it keeps them request by request. -/
theorem wp_translate {E : Env S σ} {G : σ → S.Op → Prop} {F : Env T υ} {H : υ → T.Op → Prop}
    {f : (op : S.Op) → Prog T (S.Ans op)} {R : σ → υ → Prop} {view : Event T → Option (Event S)}
    (hf : ∀ w u op, R w u → G w op →
      wp F H (f op) (fun t x u' => t.filterMap view = [⟨op, x⟩] ∧ ∃ w', E w op x w' ∧ R w' u') u)
    {p : Prog S α} {Q : Trace S → α → σ → Prop} {w : σ} {u : υ} (h : wp E G p Q w) (hR : R w u) :
    wp F H (p.translate f) (fun t a u' => ∃ w', R w' u' ∧ Q (t.filterMap view) a w') u := by
  -- induction on the program: the answer to each request is one that `S` allows
  induction p generalizing Q w u with
  | ret a => exact ⟨w, hR, h⟩
  | call op k ih =>
    show wp F H (f op >>= fun x => (k x).translate f) _ u
    apply wp_bind
    refine wp_mono ?_ (hf w u op hR h.1)
    intro t x u₁ hpost
    obtain ⟨hview, w₁, hE, hR₁⟩ := hpost
    refine wp_mono ?_ (ih x (h.2 x w₁ hE) hR₁)
    intro t' a u' hend
    obtain ⟨w', hR', hQ⟩ := hend
    refine ⟨w', hR', ?_⟩
    rw [List.filterMap_append, hview]
    exact hQ

/-- A weaker property of the requests. -/
theorem Prog.uses_mono {P Q : S.Op → Prop} (hPQ : ∀ op, P op → Q op) {p : Prog S α}
    (h : p.Uses P) : p.Uses Q := by
  induction p with
  | ret a => trivial
  | call op k ih => exact ⟨hPQ op h.1, fun x => ih x (h.2 x)⟩

/-- A translated program makes the requests its handler makes. -/
theorem Prog.uses_translate {f : (op : S.Op) → Prog T (S.Ans op)} {P : T.Op → Prop}
    (hf : ∀ op, (f op).Uses P) (p : Prog S α) : (p.translate f).Uses P := by
  induction p with
  | ret a => exact Prog.uses_pure a
  | call op k ih => exact Prog.uses_bind (hf op) ih

/-! ## §2. Which requests, in which order. -/

/-- Of the requests in `P` the program makes exactly `l`, in this order, whatever the answers. -/
def Prog.Makes (P : S.Op → Bool) : Prog S α → List S.Op → Prop
  | .ret _, l => l = []
  | .call op k, l =>
      if P op = true then ∃ l', l = op :: l' ∧ ∀ x, (k x).Makes P l' else ∀ x, (k x).Makes P l

/-- The requests of a trace that are in `P`. -/
def Trace.picked (P : S.Op → Bool) (t : Trace S) : List S.Op := (t.map Event.op).filter P

theorem Trace.picked_append (P : S.Op → Bool) (t t' : Trace S) :
    picked P (t ++ t') = picked P t ++ picked P t' := by
  unfold Trace.picked
  rw [List.map_append, List.filter_append]

section Makes

variable {P : S.Op → Bool}

theorem Prog.makes_ask {op : S.Op} (h : P op = true) : (Prog.ask op).Makes P [op] := by
  show if P op = true then _ else _
  rw [if_pos h]
  exact ⟨[], rfl, fun _ => rfl⟩

/-- A program of other requests. -/
theorem Prog.makes_none {p : Prog S α} (h : p.Uses fun op => P op = false) : p.Makes P [] := by
  induction p with
  | ret a => rfl
  | call op k ih =>
    show if P op = true then _ else _
    rw [if_neg (by rw [h.1]; decide)]
    exact fun x => ih x (h.2 x)

theorem Prog.makes_bind {p : Prog S α} {f : α → Prog S β} {l l' : List S.Op} (hp : p.Makes P l)
    (hf : ∀ a, (f a).Makes P l') : (p >>= f).Makes P (l ++ l') := by
  show (p.bind f).Makes P (l ++ l')
  induction p generalizing l with
  | ret a =>
    rw [show l = [] from hp]
    exact hf a
  | call op k ih =>
    have hp : if P op = true then ∃ l', l = op :: l' ∧ ∀ x, (k x).Makes P l'
      else ∀ x, (k x).Makes P l := hp
    show if P op = true then _ else _
    by_cases hop : P op = true
    · rw [if_pos hop] at hp ⊢
      obtain ⟨rest, hl, hk⟩ := hp
      exact ⟨rest ++ l', by rw [hl]; rfl, fun x => ih x (hk x)⟩
    · rw [if_neg hop] at hp ⊢
      exact fun x => ih x (hp x)

theorem Prog.makes_cons {p : Prog S α} {f : α → Prog S β} {op : S.Op} {l : List S.Op}
    (hp : p.Makes P [op]) (hf : ∀ a, (f a).Makes P l) : (p >>= f).Makes P (op :: l) :=
  Prog.makes_bind hp hf

/-- Back to executions. -/
theorem Exec.makes {E : Env S σ} :
    ∀ {p : Prog S α} {l : List S.Op} {w : σ} {t : Trace S} {a : α} {w' : σ},
      p.Makes P l → Exec E p w t a w' → Trace.picked P t = l
  | .ret _, l, w, t, a, w', hp, hx => by
      rw [hx.1, show l = [] from hp]
      rfl
  | .call op k, l, w, t, a, w', hp, hx => by
      obtain ⟨x, w₁, t₁, _, ht, hx⟩ := hx
      have hp : if P op = true then ∃ l', l = op :: l' ∧ ∀ x, (k x).Makes P l'
        else ∀ x, (k x).Makes P l := hp
      rw [ht]
      show ((op :: t₁.map Event.op).filter P) = l
      by_cases hop : P op = true
      · rw [if_pos hop] at hp
        obtain ⟨rest, hl, hk⟩ := hp
        rw [List.filter_cons_of_pos hop, hl]
        exact congrArg (op :: ·) (Exec.makes (hk x) hx)
      · rw [if_neg hop] at hp
        rw [List.filter_cons_of_neg hop]
        exact Exec.makes (hp x) hx

end Makes

end MobileBgb.Effect
