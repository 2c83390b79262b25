/-
  MobileBgb.Link.Exchange — the serial exchange over whole runs of `bgb_loop`.

  The emulator's stream is a list of bytes; `recv` takes any number of them off
  the front (`streamEnv`), `poll` and `send` answer as they like.  The transfer
  callback is any stateful function `f`; `recorded f` also writes down each call
  with its argument and its result, so that the calls can be spoken about.

  The reply to a SYNC1 is the byte that was ready BEFORE it: `exchange byte ps rs`
  lists what goes back for the packets `ps` when the callback returns `rs`.
  `bgbLoop_exchange` says that this is what goes back, over every run.
-/
import MobileBgb.Link.LoopCases

namespace MobileBgb.Link

open MobileBgb.Effect
open MobileBgb.System

variable {tgt : Target} {U : Type}

/-! ## §1. The stream. -/

/-- The environment of the link: its state is what the emulator sent and `recv` has not yet
    delivered.  A `recv` fails, or takes any number of bytes up to its size (none at the end of
    the stream, or fewer than there are); every other request is answered freely. -/
def streamEnv (tgt : Target) : Env (Sys tgt) (List UInt8) := fun rx op ans rx' =>
  match op, ans with
  | .recv _ size, some buf => buf.length ≤ size ∧ rx = buf ++ rx'
  | _, _ => rx' = rx

theorem streamEnv_recv {rx rx' : List UInt8} {op : SysOp tgt} {ans : (Sys tgt).Ans op}
    (h : streamEnv tgt rx op ans rx') :
    rx = received [(⟨op, ans⟩ : Event (Sys tgt))] ++ rx' := by
  cases op with
  | recv fd size =>
    cases ans with
    | none =>
      have h : rx' = rx := h
      rw [h]
      rfl
    | some buf =>
      show rx = (buf ++ []) ++ rx'
      rw [List.append_nil]
      exact h.2
  | _ =>
    have h : rx' = rx := h
    rw [h]
    rfl

/-- Whatever the program: what it received is what is gone from the front of the stream. -/
theorem streamEnv_received {α : Type} :
    ∀ {p : Prog (Sys tgt) α} {rx rx' : List UInt8} {t : Trace (Sys tgt)} {a : α},
      Exec (streamEnv tgt) p rx t a rx' → rx = received t ++ rx'
  | .ret _, rx, rx', t, a, h => by
      obtain ⟨ht, _, hrx⟩ := h
      rw [ht, hrx]
      rfl
  | .call op k, rx, rx', t, a, h => by
      obtain ⟨x, rx₁, t₁, hE, ht, h⟩ := h
      rw [ht, ← List.singleton_append, received_append, List.append_assoc, ← streamEnv_received h]
      exact streamEnv_recv hE

/-- One way to serve the link: every poll reports data, `recv` delivers what fits, `send` takes
    everything, and nothing else happens. -/
def streamServe (rx : List UInt8) : (op : SysOp tgt) → op.Ans × List UInt8
  | .poll _ _ => (1, rx)
  | .send _ data => (some data.length, rx)
  | .recv _ size => (some (rx.take size), rx.drop size)
  | op => (plainAns op, rx)

theorem streamEnv_serve (rx : List UInt8) (op : SysOp tgt) :
    streamEnv tgt rx op (streamServe rx op).1 (streamServe rx op).2 := by
  cases op with
  | recv fd size =>
    show (rx.take size).length ≤ size ∧ rx = rx.take size ++ rx.drop size
    exact ⟨List.length_take_le size rx, (List.take_append_drop size rx).symm⟩
  | _ => rfl

/-! ## §2. Callbacks that write down their calls. -/

/-- A user object with the transfers made so far, as (argument, result). -/
abbrev Recorded (U : Type) := U × List (UInt8 × UInt8)

/-- What successive calls pass on. -/
abbrev LinkState (tgt : Target) (U : Type) := BgbState tgt (Recorded U) × Recorded U

/-- A stateful transfer callback that also lists its calls. -/
def recorded (f : U → UInt8 → UInt8 × U) (u : Recorded U) (c : UInt8) :
    Prog (Sys tgt) (UInt8 × Recorded U) :=
  pure ((f u.1 c).1, (f u.1 c).2, u.2 ++ [(c, (f u.1 c).1)])

/-- A timestamp callback on the same user object. -/
def recordedTimestamp (g : U → UInt32 → U) (u : Recorded U) (t : UInt32) :
    Prog (Sys tgt) (Recorded U) :=
  pure (g u.1 t, u.2)

/-! ## §3. Successive calls, and what is said of them. -/

/-- One `bgb_loop` call as a round: it goes on while the call returns `true`. -/
def bgbLoopRound (s : BgbState tgt U × U) :
    Prog (Sys tgt) (Flow (BgbState tgt U × U) (BgbState tgt U × U)) := do
  let (ok, state, user) ← bgbLoop s.1 s.2
  return if ok then .go (state, user) else .done (state, user)

/-- The complete packets read. -/
def packetsOf (o : List Obs) : List BgbPacket :=
  o.filterMap fun | .packet p => some p | _ => none

/-- The complete packets sent. -/
def sentOf (o : List Obs) : List BgbPacket :=
  o.filterMap fun | .sent p true => some p | _ => none

@[simp] theorem packetsOf_append (o₁ o₂ : List Obs) :
    packetsOf (o₁ ++ o₂) = packetsOf o₁ ++ packetsOf o₂ := List.filterMap_append

@[simp] theorem sentOf_append (o₁ o₂ : List Obs) : sentOf (o₁ ++ o₂) = sentOf o₁ ++ sentOf o₂ :=
  List.filterMap_append

theorem packetsOf_sent (ps : List BgbPacket) : packetsOf (ps.map (Obs.sent · true)) = [] := by
  induction ps with
  | nil => rfl
  | cons p ps ih => exact ih

theorem sentOf_sent (ps : List BgbPacket) : sentOf (ps.map (Obs.sent · true)) = ps := by
  induction ps with
  | nil => rfl
  | cons p ps ih =>
    show p :: sentOf (ps.map (Obs.sent · true)) = p :: ps
    rw [ih]

/-- Did the call return `true`? -/
def wentOn {S : Signature} {τ β : Type} (r : Round S τ β) : Bool :=
  match r.out with
  | .go _ => true
  | .done _ => false

/-- The packets of the calls that returned `true`: the packets handled. -/
def handledOf {τ β : Type} (rs : List (Round (Sys tgt) τ β)) : List BgbPacket :=
  packetsOf (obsOf (traceOf (rs.filter wentOn)))

theorem handledOf_go {τ β : Type} (s s' : τ) (t : Trace (Sys tgt))
    (rs : List (Round (Sys tgt) τ β)) :
    handledOf (⟨s, t, .go s'⟩ :: rs) = packetsOf (obsOf t) ++ handledOf rs := by
  unfold handledOf
  rw [List.filter_cons_of_pos (by rfl), traceOf_cons, obsOf_append, packetsOf_append]

theorem handledOf_done {τ β : Type} (s : τ) (t : Trace (Sys tgt)) (b : β) :
    handledOf [(⟨s, t, .done b⟩ : Round (Sys tgt) τ β)] = [] := rfl

/-- What is sent for the packets `ps` when `byte` is the next byte to reply with and the
    transfer callback returns `rs` for the SYNC1s among them, in order. -/
def exchange (byte : UInt8) : List BgbPacket → List UInt8 → List BgbPacket
  | [], _ => []
  | p :: ps, rs =>
      p.replies byte ++
        if p.isSync1 then
          match rs with
          | r :: rs => exchange r ps rs
          | [] => []
        else exchange byte ps rs

/-! ## §4. One call. -/

section Round

variable {f : U → UInt8 → UInt8 × U} {g : Option (U → UInt32 → U)}

/-- The state carries the recorded callbacks. -/
def Carries (f : U → UInt8 → UInt8 × U) (g : Option (U → UInt32 → U))
    (state : BgbState tgt (Recorded U)) : Prop :=
  state.callbackTransfer = some (recorded f) ∧
    state.callbackTimestamp = g.map fun g => recordedTimestamp g

/-- What a packet does through the transfer callback. -/
def transferStep (f : U → UInt8 → UInt8 × U) (s : LinkState tgt U) (p : BgbPacket) :
    LinkState tgt U :=
  if p.isSync1 then
    ({ s.1 with byte := (f s.2.1 p.b2).1 }, ((f s.2.1 p.b2).2, s.2.2 ++ [(p.b2, (f s.2.1 p.b2).1)]))
  else s

/-- What the tail does. -/
def clockStep (g : Option (U → UInt32 → U)) (s : LinkState tgt U) (ts : UInt32) : LinkState tgt U :=
  match g with
  | none => s
  | some g =>
      if s.1.timestampInit = false then
        ({ s.1 with timestampLast := ts, timestampInit := true }, (g s.2.1 ts, s.2.2))
      else if WentBack s.1.timestampLast ts ∨ ts = s.1.timestampLast then s
      else ({ s.1 with timestampLast := ts }, (g s.2.1 ts, s.2.2))

/-- What handling a packet does, as a function: the callbacks are functions, so it is one too. -/
def handle (f : U → UInt8 → UInt8 × U) (g : Option (U → UInt32 → U)) (s : LinkState tgt U)
    (p : BgbPacket) : LinkState tgt U :=
  clockStep g (transferStep f s p) (p.stamp s.1.timestampLast)

/-- The tail keeps the reply byte, the callbacks and the log. -/
theorem clockStep_frame (g : Option (U → UInt32 → U)) (s : LinkState tgt U) (ts : UInt32) :
    (clockStep g s ts).1.byte = s.1.byte ∧ (clockStep g s ts).2.2 = s.2.2 ∧
      (clockStep g s ts).1.callbackTransfer = s.1.callbackTransfer ∧
      (clockStep g s ts).1.callbackTimestamp = s.1.callbackTimestamp := by
  unfold clockStep
  cases g with
  | none => exact ⟨rfl, rfl, rfl, rfl⟩
  | some g =>
    dsimp only
    split_ifs <;> exact ⟨rfl, rfl, rfl, rfl⟩

/-- A SYNC1 makes the next reply byte and is written down. -/
theorem handle_sync1 {s : LinkState tgt U} {p : BgbPacket} (hp : p.isSync1 = true) :
    (handle f g s p).2.2 = s.2.2 ++ [(p.b2, (handle f g s p).1.byte)] := by
  obtain ⟨hbyte, hlog, _⟩ := clockStep_frame g (transferStep f s p) (p.stamp s.1.timestampLast)
  unfold handle
  rw [hbyte, hlog]
  unfold transferStep
  rw [if_pos hp]

/-- Any other packet leaves the reply byte and the log alone. -/
theorem handle_other {s : LinkState tgt U} {p : BgbPacket} (hp : p.isSync1 = false) :
    (handle f g s p).2.2 = s.2.2 ∧ (handle f g s p).1.byte = s.1.byte := by
  obtain ⟨hbyte, hlog, _⟩ := clockStep_frame g (transferStep f s p) (p.stamp s.1.timestampLast)
  unfold handle
  rw [hbyte, hlog]
  unfold transferStep
  rw [if_neg (by simp [hp])]
  exact ⟨rfl, rfl⟩

theorem carries_handle {s : LinkState tgt U} (hc : Carries f g s.1) (p : BgbPacket) :
    Carries f g (handle f g s p).1 := by
  obtain ⟨_, _, hcbt, hcbs⟩ := clockStep_frame g (transferStep f s p) (p.stamp s.1.timestampLast)
  unfold Carries handle
  rw [hcbt, hcbs]
  unfold transferStep
  split_ifs <;> exact hc

/-- With recorded callbacks the tail shows nothing and does what `clockStep` says. -/
theorem exec_clock_recorded {σ : Type} {E : Env (Sys tgt) σ} {w w' : σ} {t : Trace (Sys tgt)}
    {state state' : BgbState tgt (Recorded U)} {user user' : Recorded U}
    {ts : UInt32} (hc : Carries f g state)
    (h : Exec E (bgbLoopClock state user ts) w t (state', user') w') :
    obsOf t = [] ∧ recvs t = [] ∧ (state', user') = clockStep g (state, user) ts := by
  cases g with
  | none =>
    have hcb : state.callbackTimestamp = none := hc.2
    unfold bgbLoopClock at h
    simp only [hcb] at h
    rw [exec_pure] at h
    obtain ⟨ht, hr, _⟩ := h
    subst ht
    exact ⟨rfl, rfl, hr⟩
  | some g =>
    -- a recorded callback is pure: whenever it runs, it only changes the user object
    have hcall : ∀ {w w' : σ} {t : Trace (Sys tgt)},
        Exec E (recordedTimestamp g user ts) w t user' w' → t = [] ∧ user' = (g user.1 ts, user.2) := by
      intro w w' t h
      unfold recordedTimestamp at h
      rw [exec_pure] at h
      exact ⟨h.1, h.2.1⟩
    unfold clockStep
    dsimp only
    rcases exec_bgbLoopClock hc.2 h with ⟨hinit, hs, t₁, t₂, w₁, ht, hx, ho, hr⟩
      | ⟨hinit, ⟨hback, hs, hu, ho, hr⟩ | ⟨hback, hne, hs, hx⟩⟩
    · -- the first timestamp
      obtain ⟨ht₁, hu⟩ := hcall hx
      subst ht ht₁
      rw [if_pos hinit, hs, hu]
      exact ⟨ho, hr, rfl⟩
    · -- back a little, or not moved: nothing is called
      rw [if_neg (by simp [hinit]), if_pos hback, hs, hu]
      exact ⟨ho, hr, rfl⟩
    · -- followed
      obtain ⟨ht, hu⟩ := hcall hx
      subst ht
      rw [if_neg (by simp [hinit]), if_neg (not_or.mpr ⟨hback, hne⟩), hs, hu]
      exact ⟨rfl, rfl, rfl⟩

/-- With a recorded callback the transfer shows nothing and does what `transferStep` says. -/
theorem exec_transfer_recorded {σ : Type} {E : Env (Sys tgt) σ} {w w' : σ} {t : Trace (Sys tgt)}
    {s : LinkState tgt U} {p : BgbPacket} {state' : BgbState tgt (Recorded U)} {user' : Recorded U}
    (hc : Carries f g s.1) (h : TransferExec E s.1 s.2 p w t state' user' w') :
    t = [] ∧ (state', user') = transferStep f s p ∧ Carries f g state' := by
  unfold TransferExec at h
  unfold transferStep
  by_cases hp : p.isSync1 = true
  · simp only [hp, hc.1] at h
    obtain ⟨byte, hx, hs'⟩ := h
    unfold recorded at hx
    rw [exec_pure] at hx
    obtain ⟨ht, hb, _⟩ := hx
    obtain ⟨hb, hu'⟩ := Prod.mk.inj hb
    subst hs' hb hu'
    rw [if_pos hp]
    exact ⟨ht, by simp only [hc.1], rfl, hc.2⟩
  · have hp : p.isSync1 = false := Bool.eq_false_iff.mpr hp
    simp only [hp] at h
    obtain ⟨ht, hs', hu', _⟩ := h
    subst hs' hu'
    rw [if_neg (by simp [hp])]
    exact ⟨ht, rfl, hc⟩

/-- A call that returns `true` did nothing, or handled one packet. -/
theorem bgbLoop_true {σ : Type} {E : Env (Sys tgt) σ} {w w' : σ} {t : Trace (Sys tgt)}
    {s s' : LinkState tgt U} (hc : Carries f g s.1)
    (h : Exec E (bgbLoop s.1 s.2) w t (true, s') w') :
    (obsOf t = [] ∧ recvs t = [] ∧ s' = s ∧ ∃ rc w₁, rc ≤ 0 ∧ E w (.poll [s.1.socket] 0) rc w₁) ∨
      ∃ p, p.known = true ∧ recvs t = [some (p.toBytes tgt.byteOrder)] ∧
        obsOf t = .packet p :: (p.replies s.1.byte).map (Obs.sent · true) ∧
        s' = handle f g s p := by
  obtain ⟨state', user'⟩ := s'
  rcases bgbLoop_cases h with ⟨_, hs, hu, ho, hr, hpoll⟩ | ⟨hf, _⟩ | ⟨_, _, hf, _⟩
    | ⟨p, t₀, t₁, t₂, w₁, w₂, state₁, user₁, _, ht, hk, ho, hr, htr, hclock⟩
  · exact Or.inl ⟨ho, hr, Prod.ext hs hu, hpoll⟩
  · cases hf
  · cases hf
  · -- a packet was handled: the transfer, then the tail
    right
    obtain ⟨ht₁, hs₁, hc₁⟩ := exec_transfer_recorded hc htr
    obtain ⟨ho₂, hr₂, hs'⟩ := exec_clock_recorded hc₁ hclock
    subst ht
    refine ⟨p, hk, ?_, ?_, ?_⟩
    · simp [hr, ht₁, hr₂]
    · simp [ho, ht₁, ho₂]
    · rw [hs', hs₁]
      rfl

/-- A call that returns `false` changes nothing and sends no complete packet; what it read is no
    packet at all or exactly one. -/
theorem bgbLoop_false {σ : Type} {E : Env (Sys tgt) σ} {w w' : σ} {t : Trace (Sys tgt)}
    {state state' : BgbState tgt U} {user user' : U}
    (h : Exec E (bgbLoop state user) w t (false, state', user') w') :
    state' = state ∧ user' = user ∧ sentOf (obsOf t) = [] ∧ (packetsOf (obsOf t)).length ≤ 1 ∧
      ∃ tail, received t = (packetsOf (obsOf t)).flatMap (BgbPacket.toBytes tgt.byteOrder) ++ tail := by
  rcases bgbLoop_cases h with ⟨hf, _⟩ | ⟨_, hs, hu, ho, _⟩ | ⟨p, o, _, hs, hu, ho, href, hr⟩
    | ⟨_, _, _, _, _, _, _, _, hf, _⟩
  · cases hf
  · -- no whole packet was read
    rw [ho]
    exact ⟨hs, hu, rfl, by decide, received t, rfl⟩
  · -- a packet that is refused: at most a cut reply goes out
    have hsent : sentOf o = [] ∧ packetsOf o = [] := by
      rcases href with ⟨_, ho⟩ | ⟨q, _, ho⟩ <;> rw [ho] <;> exact ⟨rfl, rfl⟩
    rw [ho]
    refine ⟨hs, hu, ?_, ?_, [], ?_⟩
    · show sentOf o = []
      exact hsent.1
    · show (p :: packetsOf o).length ≤ 1
      rw [hsent.2]
      exact Nat.le_refl 1
    · show received t = (p :: packetsOf o).flatMap (BgbPacket.toBytes tgt.byteOrder) ++ []
      unfold received
      rw [hsent.2, hr]
      simp
  · cases hf

/-- A round is one call, and it leaves when the call returned `false`. -/
theorem exec_bgbLoopRound {σ : Type} {E : Env (Sys tgt) σ} {w w' : σ} {t : Trace (Sys tgt)}
    {s : BgbState tgt U × U} {fl : Flow (BgbState tgt U × U) (BgbState tgt U × U)}
    (h : Exec E (bgbLoopRound s) w t fl w') :
    ∃ ok s', Exec E (bgbLoop s.1 s.2) w t (ok, s') w' ∧ fl = if ok then .go s' else .done s' := by
  unfold bgbLoopRound at h
  rw [exec_bind] at h
  obtain ⟨t₁, ⟨ok, s'⟩, w₁, t₂, hx, h, ht⟩ := h
  rw [exec_pure] at h
  obtain ⟨ht₂, hfl, hw⟩ := h
  subst ht ht₂ hw
  rw [List.append_nil]
  exact ⟨ok, s', hx, hfl⟩

theorem exec_bgbLoopRound_go {σ : Type} {E : Env (Sys tgt) σ} {w w' : σ} {t : Trace (Sys tgt)}
    {s s' : BgbState tgt U × U} (h : Exec E (bgbLoopRound s) w t (.go s') w') :
    Exec E (bgbLoop s.1 s.2) w t (true, s') w' := by
  obtain ⟨ok, s₁, hx, hfl⟩ := exec_bgbLoopRound h
  cases ok with
  | false => cases hfl
  | true =>
    injection hfl with hs
    rw [hs]
    exact hx

theorem exec_bgbLoopRound_done {σ : Type} {E : Env (Sys tgt) σ} {w w' : σ} {t : Trace (Sys tgt)}
    {s s' : BgbState tgt U × U} (h : Exec E (bgbLoopRound s) w t (.done s') w') :
    Exec E (bgbLoop s.1 s.2) w t (false, s') w' := by
  obtain ⟨ok, s₁, hx, hfl⟩ := exec_bgbLoopRound h
  cases ok with
  | true => cases hfl
  | false =>
    injection hfl with hs
    rw [hs]
    exact hx

/-! ## §5. Whole runs. -/

/-- What a handled packet shows, split into packets and replies. -/
theorem views_handled {p : BgbPacket} {ps : List BgbPacket} {o : List Obs}
    (h : o = .packet p :: ps.map (Obs.sent · true)) : packetsOf o = [p] ∧ sentOf o = ps := by
  rw [h]
  exact ⟨congrArg (p :: ·) (packetsOf_sent _), sentOf_sent _⟩

/-- What handling a packet contributes: it comes first in the exchange, its call first in the
    log. -/
theorem exchange_handle (s : LinkState tgt U) (p : BgbPacket) :
    ∃ new, (handle f g s p).2.2 = s.2.2 ++ new ∧
      new.map Prod.fst = ([p].filter BgbPacket.isSync1).map BgbPacket.b2 ∧
      ∀ ps rs, p.replies s.1.byte ++ exchange (handle f g s p).1.byte ps rs
        = exchange s.1.byte (p :: ps) (new.map Prod.snd ++ rs) := by
  by_cases hp : p.isSync1 = true
  · -- a SYNC1 logs one call, whose value answers the next one
    refine ⟨_, handle_sync1 hp, by simp [hp], ?_⟩
    intro ps rs
    show _ = p.replies s.1.byte ++ if p.isSync1 = true then exchange _ ps rs else _
    rw [if_pos hp]
  · -- any other packet leaves log and byte alone
    have hp : p.isSync1 = false := Bool.eq_false_iff.mpr hp
    obtain ⟨hlog, hbyte⟩ := handle_other (f := f) (g := g) (s := s) hp
    refine ⟨[], by rw [hlog, List.append_nil], by simp [hp], ?_⟩
    intro ps rs
    show _ = p.replies s.1.byte ++ if p.isSync1 = true then _ else exchange s.1.byte ps rs
    rw [if_neg (by simp [hp]), hbyte]

/-- Every run: the bytes read, the packets handled, the replies and the calls fit together. -/
theorem rounds_exchange {σ : Type} {E : Env (Sys tgt) σ} {w w' : σ}
    {s : LinkState tgt U}
    {rs : List (Round (Sys tgt) (LinkState tgt U) (LinkState tgt U))}
    {fl : Flow (LinkState tgt U) (LinkState tgt U)}
    (h : Rounds E bgbLoopRound s w rs fl w') (hc : Carries f g s.1) :
    (∃ tail, received (traceOf rs)
        = (packetsOf (obsOf (traceOf rs))).flatMap (BgbPacket.toBytes tgt.byteOrder) ++ tail) ∧
    (∃ last, packetsOf (obsOf (traceOf rs)) = handledOf rs ++ last ∧ last.length ≤ 1) ∧
    ∃ calls, fl.get.2.2 = s.2.2 ++ calls ∧
      calls.map Prod.fst = ((handledOf rs).filter BgbPacket.isSync1).map BgbPacket.b2 ∧
      sentOf (obsOf (traceOf rs)) = exchange s.1.byte (handledOf rs) (calls.map Prod.snd) := by
  -- induction on the run; the log and the reply byte of the first state are what carries over
  induction h with
  | stop s w => exact ⟨⟨[], rfl⟩, ⟨[], rfl, by simp⟩, [], by simp [Flow.get], rfl, rfl⟩
  | @go s s₁ w w₁ w' t rs fl h _ ih =>
    rw [traceOf_cons, obsOf_append, packetsOf_append, sentOf_append, received_append, handledOf_go]
    rcases bgbLoop_true hc (exec_bgbLoopRound_go h) with ⟨ho, hr, hs, _⟩ | ⟨p, _, hr, ho, hs⟩
    · -- nothing happened
      subst hs
      unfold received at ih ⊢
      rw [ho, hr]
      exact ih hc
    · subst hs
      obtain ⟨⟨tail, hbytes⟩, ⟨last, hpk, hlast⟩, calls, hlog', hargs', hsent'⟩ :=
        ih (carries_handle hc p)
      obtain ⟨new, hlog, hargs, hsent⟩ := exchange_handle (f := f) (g := g) s p
      obtain ⟨hp, hsp⟩ := views_handled ho
      have hrecv : received t = p.toBytes tgt.byteOrder := by
        unfold received
        rw [hr]
        simp
      rw [hp, hsp]
      refine ⟨⟨tail, ?_⟩, ⟨last, ?_, hlast⟩, new ++ calls, ?_, ?_, ?_⟩
      · rw [hrecv, hbytes]
        simp
      · rw [hpk, List.append_assoc]
      · rw [hlog', hlog, List.append_assoc]
      · rw [List.map_append, hargs, hargs', List.filter_append, List.map_append]
      · rw [hsent', List.map_append, hsent]
        rfl
  | @done s w w' t s' h =>
    obtain ⟨_, hu, hsent, hpk, tail, hrecv⟩ := bgbLoop_false (exec_bgbLoopRound_done h)
    rw [traceOf_singleton]
    refine ⟨⟨tail, hrecv⟩, ⟨packetsOf (obsOf t), rfl, hpk⟩, [], ?_, rfl, hsent⟩
    show s'.2.2 = s.2.2 ++ []
    rw [hu, List.append_nil]

end Round

/-- What every single call of a run does: at most one packet is handled, a call without a packet
    does nothing at all, a call that returns `false` changes nothing and sends nothing whole. -/
theorem bgbLoopRound_single {σ : Type} {E : Env (Sys tgt) σ} {w w' : σ}
    {f : U → UInt8 → UInt8 × U} {g : Option (U → UInt32 → U)}
    {s : LinkState tgt U}
    {rs : List (Round (Sys tgt) (LinkState tgt U) (LinkState tgt U))}
    {fl : Flow (LinkState tgt U) (LinkState tgt U)}
    (h : Rounds E bgbLoopRound s w rs fl w') (hc : Carries f g s.1) :
    ∀ r ∈ rs, (packetsOf (obsOf r.trace)).length ≤ 1 ∧
      (∀ s', r.out = .go s' → packetsOf (obsOf r.trace) = [] →
        s' = r.pre ∧ obsOf r.trace = [] ∧ recvs r.trace = []) ∧
      (∀ s', r.out = .done s' → s' = r.pre ∧ sentOf (obsOf r.trace) = []) := by
  -- what carries over from call to call is only that the callbacks stay in place
  refine Rounds.forall_round (I := fun s => Carries f g s.1) ?_ ?_ hc h
  · intro s w t s' w' hc h
    rcases bgbLoop_true hc (exec_bgbLoopRound_go h) with ⟨_, _, hs, _⟩ | ⟨p, _, _, _, hs⟩
    · rw [hs]
      exact hc
    · rw [hs]
      exact carries_handle hc p
  · intro s w t fl w' hc h
    cases fl with
    | done s' =>
      obtain ⟨hs, hu, hsent, hpk, _⟩ := bgbLoop_false (exec_bgbLoopRound_done h)
      refine ⟨hpk, (fun s₁ h₁ => nomatch h₁), ?_⟩
      intro s₁ h₁
      injection h₁ with h₁
      subst h₁
      exact ⟨Prod.ext hs hu, hsent⟩
    | go s' =>
      rcases bgbLoop_true hc (exec_bgbLoopRound_go h) with ⟨ho, hr, hs, _⟩ | ⟨p, _, _, ho, _⟩
      · refine ⟨?_, ?_, (fun s₁ h₁ => nomatch h₁)⟩
        · show (packetsOf (obsOf t)).length ≤ 1
          rw [ho]
          exact Nat.zero_le 1
        · intro s₁ h₁ _
          injection h₁ with h₁
          subst h₁
          exact ⟨hs, ho, hr⟩
      · have hp := (views_handled ho).1
        refine ⟨Nat.le_of_eq (congrArg List.length hp), ?_, (fun s₁ h₁ => nomatch h₁)⟩
        intro s₁ _ hnone
        rw [hp] at hnone
        cases hnone

/-! ## §6. The exchange from the handshake on. -/

/-- **The serial exchange.**  From the state `bgb_init` leaves, over any stream, any outcomes of
    `poll`, `recv` and `send`, any stateful transfer callback `f` and any timestamp callback `g`:
    the packets read are the leading 8-byte blocks of the stream, all of them handled but
    possibly the last; the packets sent whole are the replies in the order of the packets
    handled, each SYNC1 answered by the byte the callback returned for the SYNC1 before; the
    callback ran once for each SYNC1 handled, with its `b2`; and a call that returns `false`, or
    finds no packet, changes nothing. -/
theorem bgbLoop_exchange {f : U → UInt8 → UInt8 × U} {g : Option (U → UInt32 → U)}
    {socket : SOCKET} {initByte : UInt8} {u₀ : U} {stream₀ stream rest : List UInt8}
    {t₀ : Trace (Sys tgt)} {state : BgbState tgt (Recorded U)}
    {rs : List (Round (Sys tgt) (LinkState tgt U) (LinkState tgt U))}
    {fl : Flow (LinkState tgt U) (LinkState tgt U)}
    (hinit : Exec (streamEnv tgt)
      (bgbInit socket initByte (some (recorded f)) (g.map fun g => recordedTimestamp g))
      stream₀ t₀ (true, state) stream)
    (hrun : Rounds (streamEnv tgt) bgbLoopRound (state, (u₀, [])) stream rs fl rest) :
    (∃ tail, stream
      = (packetsOf (obsOf (traceOf rs))).flatMap (BgbPacket.toBytes tgt.byteOrder) ++ tail) ∧
    (∃ last, packetsOf (obsOf (traceOf rs)) = handledOf rs ++ last ∧ last.length ≤ 1) ∧
    sentOf (obsOf (traceOf rs)) = exchange initByte (handledOf rs) (fl.get.2.2.map Prod.snd) ∧
    fl.get.2.2.map Prod.fst = ((handledOf rs).filter BgbPacket.isSync1).map BgbPacket.b2 ∧
    ∀ r ∈ rs, (packetsOf (obsOf r.trace)).length ≤ 1 ∧
      (∀ s', r.out = .go s' → packetsOf (obsOf r.trace) = [] →
        s' = r.pre ∧ obsOf r.trace = [] ∧ recvs r.trace = []) ∧
      (∀ s', r.out = .done s' → s' = r.pre ∧ sentOf (obsOf r.trace) = []) := by
  obtain ⟨hstate, _⟩ := bgbInit_cases hinit
  have hc : Carries f g state := by
    rw [hstate]
    exact ⟨rfl, rfl⟩
  obtain ⟨⟨tail, hbytes⟩, hlast, calls, hlog, hargs, hsent⟩ := rounds_exchange hrun hc
  have hlog : fl.get.2.2 = calls := hlog
  have hbyte : state.byte = initByte := by
    rw [hstate]
    rfl
  rw [hlog]
  refine ⟨⟨tail ++ rest, ?_⟩, hlast, ?_, hargs, bgbLoopRound_single hrun hc⟩
  · -- what was received is what is gone from the stream
    rw [streamEnv_received hrun.exec_loop, hbytes, List.append_assoc]
  · rw [hsent]
    show exchange state.byte _ _ = _
    rw [hbyte]

/-- A session: the handshake, two bytes exchanged with a joypad packet and a SYNC3 between them,
    and a packet that is cut off. -/
def session : List UInt8 :=
  handshake.toBytes .little ++ (BgbPacket.toBytes .little ⟨108, 5, 0, 0, 0⟩) ++
  (BgbPacket.toBytes .little ⟨104, 0x99, 0x81, 0, 5⟩) ++
  (BgbPacket.toBytes .little ⟨101, 8, 0, 0, 0⟩) ++
  (BgbPacket.toBytes .little ⟨106, 0, 0, 0, 6⟩) ++
  (BgbPacket.toBytes .little ⟨104, 0x66, 0x81, 0, 7⟩) ++ [104, 1, 2]

/-- The handshake of that session, with a callback that returns its argument plus one. -/
def sessionStart : Trace (Sys host) × (Bool × BgbState host (Recorded Nat)) × List UInt8 :=
  (bgbInit 3 0xD2 (some (recorded fun u c => (c + 1, u + 1)))
    (some (recordedTimestamp fun u _ => u))).run streamServe session

/-- The calls of `bgb_loop` after it. -/
def sessionRun : List (Round (Sys host) (LinkState host Nat) (LinkState host Nat)) ×
    Flow (LinkState host Nat) (LinkState host Nat) × List UInt8 :=
  runRounds streamServe bgbLoopRound 8 (sessionStart.2.1.2, (0, [])) sessionStart.2.2

/-- In that session the first reply is the initial byte, the second what the callback returned
    for the first SYNC1; the packet that is cut off is not handled. -/
theorem bgbLoop_exchange_session :
    handledOf sessionRun.1 = [⟨104, 0x99, 0x81, 0, 5⟩, ⟨101, 8, 0, 0, 0⟩, ⟨106, 0, 0, 0, 6⟩,
        ⟨104, 0x66, 0x81, 0, 7⟩] ∧
      sentOf (obsOf (traceOf sessionRun.1)) = [⟨105, 0xD2, 0x80, 0, 0⟩, ⟨106, 0, 0, 0, 6⟩,
        ⟨105, 0x9A, 0x80, 0, 0⟩] ∧
      sentOf (obsOf (traceOf sessionRun.1))
        = exchange 0xD2 (handledOf sessionRun.1) (sessionRun.2.1.get.2.2.map Prod.snd) ∧
      sessionRun.2.1.get.2.2.map Prod.fst = [0x99, 0x66] := by
  have hok : sessionStart.2.1.1 = true := by decide +kernel
  have hstart : sessionStart.2.1 = (true, sessionStart.2.1.2) := Prod.ext hok rfl
  have hinit : Exec (streamEnv host) _ session sessionStart.1 sessionStart.2.1 sessionStart.2.2 :=
    exec_run streamEnv_serve _ session
  rw [hstart] at hinit
  have hrun := rounds_runRounds streamEnv_serve bgbLoopRound 8 (sessionStart.2.1.2, (0, []))
    sessionStart.2.2
  have hhandled : handledOf sessionRun.1 = [⟨104, 0x99, 0x81, 0, 5⟩, ⟨101, 8, 0, 0, 0⟩,
      ⟨106, 0, 0, 0, 6⟩, ⟨104, 0x66, 0x81, 0, 7⟩] := by decide +kernel
  obtain ⟨_, _, hsent, hargs, _⟩ :=
    bgbLoop_exchange (g := some fun u _ => u) hinit hrun
  refine ⟨hhandled, by decide +kernel, hsent, ?_⟩
  have hargs : sessionRun.2.1.get.2.2.map Prod.fst
      = ((handledOf sessionRun.1).filter BgbPacket.isSync1).map BgbPacket.b2 := hargs
  rw [hargs, hhandled]
  decide +kernel

end MobileBgb.Link
