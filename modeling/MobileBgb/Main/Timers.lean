/-
  MobileBgb.Main.Timers — timers measure accumulated emulator time.

  libmobile latches a timer with `impl_time_latch` and asks with `impl_time_check_ms`
  whether so many milliseconds have passed; both only look at `bgb_clock`, which
  `bgb_loop` moves between their calls.  What the timers depend on is the order of
  three things: the callbacks made during `mobile_transfer`, the move of the clock
  that follows in the same call of `bgb_loop`, and the callbacks of
  `mobile_handle_loop`.

    * `happeningsOf r`   — these, for one turn of the loop, read off its trace;
    * `Journal E τ j τ'` — a list of them with the object BEFORE and AFTER each, every
                           callback being an execution of `impl_call`;
    * `rounds_journaled` — every run of the loop keeps such a journal;
    * `timer_measures`   — at every entry of the journal, a timer that was latched
                           before has expired exactly when the forward steps of the
                           clock since then add up to its time.
-/
import MobileBgb.Main.Reset

namespace MobileBgb.Main

open MobileBgb.Effect
open MobileBgb.System
open MobileBgb.Link
open MobileBgb.Clock

variable {tgt : Target} {σ : Type} {E : Env (Sys tgt) σ} {w w' : σ} {t : Trace (Sys tgt)}

/-! ## §1. Callbacks in a trace. -/

/-- The callbacks made during `mobile_transfer`. -/
def transferCall : Event (Sys tgt) → List (ImplCall tgt)
  | ⟨.mobileTransfer _, ans⟩ => (ans : UInt8 × List (ImplCall tgt)).2
  | _ => []

/-- The callbacks made during the other calls into libmobile. -/
def adapterCall : Event (Sys tgt) → List (ImplCall tgt)
  | ⟨.mobileStart, ans⟩ => (ans : List (ImplCall tgt))
  | ⟨.mobileStop, ans⟩ => (ans : List (ImplCall tgt))
  | ⟨.mobileActionsGet, ans⟩ => (ans : MobileAction × List (ImplCall tgt)).2
  | ⟨.mobileActionsProcess _, ans⟩ => (ans : List (ImplCall tgt))
  | _ => []

def transferCalls (t : Trace (Sys tgt)) : List (ImplCall tgt) := t.flatMap transferCall

def adapterCalls (t : Trace (Sys tgt)) : List (ImplCall tgt) := t.flatMap adapterCall

@[simp] theorem transferCalls_nil : transferCalls ([] : Trace (Sys tgt)) = [] := rfl

@[simp] theorem adapterCalls_nil : adapterCalls ([] : Trace (Sys tgt)) = [] := rfl

@[simp] theorem transferCalls_append (t₁ t₂ : Trace (Sys tgt)) :
    transferCalls (t₁ ++ t₂) = transferCalls t₁ ++ transferCalls t₂ := List.flatMap_append

@[simp] theorem adapterCalls_append (t₁ t₂ : Trace (Sys tgt)) :
    adapterCalls (t₁ ++ t₂) = adapterCalls t₁ ++ adapterCalls t₂ := List.flatMap_append

/-- The observations that stand for calls into libmobile. -/
def callsAdapter : Obs → Bool
  | .start | .stop | .transfer _ _ | .actionsGet _ | .actionsProcess _ => true
  | _ => false

/-- Where no call into libmobile shows, there are no callbacks. -/
theorem calls_nil_of_obs (h : ∀ o ∈ obsOf t, callsAdapter o = false) :
    transferCalls t = [] ∧ adapterCalls t = [] := by
  have hevent : ∀ e ∈ t, transferCall e = [] ∧ adapterCall e = [] := by
    intro e he
    -- an event with callbacks is a call, and shows as one
    have hshow : ∀ o, obs e = some o → callsAdapter o = false := fun o ho =>
      h o (List.mem_filterMap.mpr ⟨e, he, ho⟩)
    obtain ⟨op, ans⟩ := e
    cases op with
    | mobileStart => exact nomatch hshow _ rfl
    | mobileStop => exact nomatch hshow _ rfl
    | mobileTransfer c => exact nomatch hshow _ rfl
    | mobileActionsGet => exact nomatch hshow _ rfl
    | mobileActionsProcess a => exact nomatch hshow _ rfl
    | _ => exact ⟨rfl, rfl⟩
  exact ⟨List.flatMap_eq_nil_iff.mpr fun e he => (hevent e he).1,
    List.flatMap_eq_nil_iff.mpr fun e he => (hevent e he).2⟩

theorem calls_nil_of_silent (h : ∀ e ∈ t, SilentOp e.op) :
    transferCalls t = [] ∧ adapterCalls t = [] := by
  apply calls_nil_of_obs
  rw [obsOf_silent h]
  intro o ho
  cases ho

/-! ## §2. The journal. -/

/-- What the timers depend on. -/
structure Times (tgt : Target) where
  clock : UInt32
  latch : Fin tgt.maxTimers → UInt32

def MobileUser.times (mobile : MobileUser tgt) : Times tgt := ⟨mobile.bgbClock, mobile.bgbClockLatch⟩

/-- What happens to them: a callback, or a packet that `bgb_loop` handled. -/
inductive Happening (tgt : Target) where
  | call (c : ImplCall tgt)
  | clock (old new : UInt32)
  deriving DecidableEq

/-- How far the clock went forward, modulo 2^31. -/
def Happening.forward : Happening tgt → Int
  | .call _ => 0
  | .clock old new => ahead31 old new

/-- A happening with the object it found and the object it left. -/
structure Entry (tgt : Target) where
  pre : MobileUser tgt
  what : Happening tgt
  post : MobileUser tgt

/-- An entry tells what the code did. -/
def Entry.Real (E : Env (Sys tgt) σ) (e : Entry tgt) : Prop :=
  match e.what with
  | .call c => ∃ w t w', Exec E (implCall e.pre c) w t e.post w'
  | .clock old new =>
      e.pre.bgbClock = old ∧ e.post.bgbClock = new ∧ e.post.bgbClockLatch = e.pre.bgbClockLatch

/-- A journal that leads from `τ` to `τ'`: between two entries only what the timers do not depend
    on may change. -/
def Journal (E : Env (Sys tgt) σ) : Times tgt → List (Entry tgt) → Times tgt → Prop
  | τ, [], τ' => τ' = τ
  | τ, e :: j, τ' => e.pre.times = τ ∧ e.Real E ∧ Journal E e.post.times j τ'

theorem journal_append {τ τ' : Times tgt} {j₁ j₂ : List (Entry tgt)} :
    Journal E τ (j₁ ++ j₂) τ' ↔ ∃ τ₁, Journal E τ j₁ τ₁ ∧ Journal E τ₁ j₂ τ' := by
  induction j₁ generalizing τ with
  | nil =>
    constructor
    · intro h
      exact ⟨τ, rfl, h⟩
    · rintro ⟨τ₁, h₁, h₂⟩
      rw [← h₁]
      exact h₂
  | cons e j₁ ih =>
    constructor
    · rintro ⟨hpre, hreal, h⟩
      obtain ⟨τ₁, h₁, h₂⟩ := ih.mp h
      exact ⟨τ₁, ⟨hpre, hreal, h₁⟩, h₂⟩
    · rintro ⟨τ₁, ⟨hpre, hreal, h₁⟩, h₂⟩
      exact ⟨hpre, hreal, ih.mpr ⟨τ₁, h₁, h₂⟩⟩

/-- Some journal of these happenings leads from one object to the other. -/
def Journaled (E : Env (Sys tgt) σ) (mobile : MobileUser tgt) (hs : List (Happening tgt))
    (mobile' : MobileUser tgt) : Prop :=
  ∃ j, Journal E mobile.times j mobile'.times ∧ j.map Entry.what = hs

theorem Journaled.nil {mobile mobile' : MobileUser tgt} (h : mobile'.times = mobile.times) :
    Journaled E mobile [] mobile' := ⟨[], h, rfl⟩

theorem Journaled.append {mobile mobile₁ mobile₂ : MobileUser tgt} {hs₁ hs₂ : List (Happening tgt)}
    (h₁ : Journaled E mobile hs₁ mobile₁) (h₂ : Journaled E mobile₁ hs₂ mobile₂) :
    Journaled E mobile (hs₁ ++ hs₂) mobile₂ := by
  obtain ⟨j₁, hj₁, hw₁⟩ := h₁
  obtain ⟨j₂, hj₂, hw₂⟩ := h₂
  refine ⟨j₁ ++ j₂, journal_append.mpr ⟨_, hj₁, hj₂⟩, ?_⟩
  rw [List.map_append, hw₁, hw₂]

/-- A change of what the timers do not depend on. -/
theorem Journaled.frame {mobile mobile₁ mobile₂ : MobileUser tgt} {hs : List (Happening tgt)}
    (h : Journaled E mobile hs mobile₁) (hframe : mobile₂.times = mobile₁.times) :
    Journaled E mobile hs mobile₂ := by
  unfold Journaled
  rw [hframe]
  exact h

/-- The callbacks of one call into libmobile go into the journal one by one. -/
theorem journaled_implCalls {mobile mobile' : MobileUser tgt} {calls : List (ImplCall tgt)}
    (h : Exec E (implCalls mobile calls) w t mobile' w') :
    Journaled E mobile (calls.map .call) mobile' := by
  induction calls generalizing mobile w t with
  | nil =>
    obtain ⟨_, hm, _⟩ := (exec_pure E).mp h
    rw [hm]
    exact .nil rfl
  | cons call calls ih =>
    unfold implCalls at h
    rw [exec_bind] at h
    obtain ⟨t₁, mobile₁, w₁, t₂, h₁, h₂, ht⟩ := h
    obtain ⟨j, hj, hw⟩ := ih h₂
    refine ⟨⟨mobile, .call call, mobile₁⟩ :: j, ⟨rfl, ⟨w, t₁, w₁, h₁⟩, hj⟩, ?_⟩
    rw [List.map_cons, hw]
    rfl

/-! ## §3. `mobile_handle_loop`. -/

/-- The part of a run with trace `t` only journals the callbacks of the adapter's calls. -/
def Adapts (E : Env (Sys tgt) σ) (mobile : MobileUser tgt) (t : Trace (Sys tgt))
    (mobile' : MobileUser tgt) : Prop :=
  Journaled E mobile ((adapterCalls t).map .call) mobile' ∧ transferCalls t = []

theorem Adapts.nil (mobile : MobileUser tgt) : Adapts E mobile [] mobile := ⟨.nil rfl, rfl⟩

theorem Adapts.append {mobile mobile₁ mobile₂ : MobileUser tgt} {t₁ t₂ : Trace (Sys tgt)}
    (h₁ : Adapts E mobile t₁ mobile₁) (h₂ : Adapts E mobile₁ t₂ mobile₂) :
    Adapts E mobile (t₁ ++ t₂) mobile₂ := by
  refine ⟨?_, ?_⟩
  · rw [adapterCalls_append, List.map_append]
    exact h₁.1.append h₂.1
  · rw [transferCalls_append, h₁.2, h₂.2]
    rfl

theorem Adapts.frame {mobile mobile₁ mobile₂ : MobileUser tgt} (h : Adapts E mobile t mobile₁)
    (hframe : mobile₂.times = mobile₁.times) : Adapts E mobile t mobile₂ :=
  ⟨h.1.frame hframe, h.2⟩

/-- One call into libmobile, other than `mobile_transfer`: the request, then its callbacks. -/
theorem adapts_call {q : SysOp tgt} {ans : (Sys tgt).Ans q} {calls : List (ImplCall tgt)}
    {mobile mobile' : MobileUser tgt} (hcalls : adapterCall (⟨q, ans⟩ : Event (Sys tgt)) = calls)
    (hnone : transferCall (⟨q, ans⟩ : Event (Sys tgt)) = [])
    (h : Exec E (implCalls mobile calls) w t mobile' w') :
    Adapts E mobile (⟨q, ans⟩ :: t) mobile' := by
  obtain ⟨htr, had⟩ := calls_nil_of_obs (t := t) (by
    rw [(exec_implCalls h).1]
    intro o ho
    cases ho)
  refine ⟨?_, ?_⟩
  · show Journaled E mobile ((adapterCall (⟨q, ans⟩ : Event (Sys tgt)) ++ adapterCalls t).map .call) _
    rw [hcalls, had, List.append_nil]
    exact journaled_implCalls h
  · show transferCall (⟨q, ans⟩ : Event (Sys tgt)) ++ transferCalls t = []
    rw [hnone, htr]
    rfl

theorem adapts_mobileStart {mobile mobile' : MobileUser tgt}
    (h : Exec E (mobileStart mobile) w t mobile' w') : Adapts E mobile t mobile' := by
  obtain ⟨ans, w₁, t₁, _, ht, h⟩ := h
  rw [ht]
  exact adapts_call rfl rfl h

theorem adapts_mobileStop {mobile mobile' : MobileUser tgt}
    (h : Exec E (mobileStop mobile) w t mobile' w') : Adapts E mobile t mobile' := by
  obtain ⟨ans, w₁, t₁, _, ht, h⟩ := h
  rw [ht]
  exact adapts_call rfl rfl h

theorem adapts_mobileActionsProcess {mobile mobile' : MobileUser tgt} {actions : MobileAction}
    (h : Exec E (mobileActionsProcess mobile actions) w t mobile' w') :
    Adapts E mobile t mobile' := by
  obtain ⟨ans, w₁, t₁, _, ht, h⟩ := h
  rw [ht]
  exact adapts_call rfl rfl h

theorem adapts_fetchAction {mobile mobile' : MobileUser tgt}
    (h : Exec E (fetchAction mobile) w t mobile' w') : Adapts E mobile t mobile' := by
  unfold fetchAction mobileActionsGet at h
  rw [exec_bind] at h
  obtain ⟨t₁, ⟨a, mobile₁⟩, w₁, t₂, hget, h, ht⟩ := h
  rw [exec_ask_bind] at hget
  obtain ⟨ans, w₂, t₃, _, ht₁, hget⟩ := hget
  rw [exec_bind] at hget
  obtain ⟨t₄, mobile₂, w₄, t₅, hcalls, hget, ht₃⟩ := hget
  obtain ⟨ht₅, hr, _⟩ := (exec_pure E).mp hget
  obtain ⟨_, rfl⟩ := Prod.mk.inj hr
  obtain ⟨ht₂, hm, _⟩ := (exec_pure E).mp h
  subst ht ht₁ ht₂ ht₃ ht₅ hm
  rw [List.append_nil, List.append_nil]
  exact (adapts_call (q := .mobileActionsGet) rfl rfl hcalls).frame rfl

/-- `mobile_handle_loop` makes the callbacks of its calls into libmobile, and moves no clock. -/
theorem adapts_mobileHandleLoop {mobile mobile' : MobileUser tgt}
    (h : Exec E (mobileHandleLoop mobile) w t mobile' w') : Adapts E mobile t mobile' := by
  unfold mobileHandleLoop at h
  rw [exec_bind] at h
  obtain ⟨t₁, mobile₁, w₁, t₂, hrestart, h, ht⟩ := h
  rw [exec_bind] at h
  obtain ⟨t₃, mobile₂, w₂, t₄, hfetch, h, ht₂⟩ := h
  subst ht ht₂
  have h₁ : Adapts E mobile t₁ mobile₁ := by
    split at hrestart
    · rw [exec_bind] at hrestart
      obtain ⟨t₅, mobile₃, w₃, t₆, hstop, hrestart, ht₁⟩ := hrestart
      rw [exec_bind] at hrestart
      obtain ⟨t₇, mobile₄, w₄, t₈, hstart, hrestart, ht₆⟩ := hrestart
      obtain ⟨ht₈, hm, _⟩ := (exec_pure E).mp hrestart
      subst ht₁ ht₆ ht₈ hm
      rw [List.append_nil]
      exact ((adapts_mobileStop hstop).append (adapts_mobileStart hstart)).frame rfl
    · obtain ⟨ht₁, hm, _⟩ := (exec_pure E).mp hrestart
      subst ht₁ hm
      exact .nil _
  have h₂ : Adapts E mobile₁ t₃ mobile₂ := by
    split at hfetch
    · exact adapts_fetchAction hfetch
    · obtain ⟨ht₃, hm, _⟩ := (exec_pure E).mp hfetch
      subst ht₃ hm
      exact .nil _
  have h₃ : Adapts E mobile₂ t₄ mobile' := by
    split at h
    · rw [exec_bind] at h
      obtain ⟨t₅, mobile₃, w₃, t₆, hproc, h, ht₄⟩ := h
      subst ht₄
      exact (adapts_mobileActionsProcess hproc).append (adapts_fetchAction h)
    · obtain ⟨ht₄, hm, _⟩ := (exec_pure E).mp h
      subst ht₄ hm
      exact .nil _
  exact h₁.append (h₂.append h₃)

/-! ## §4. A turn of the main loop. -/

/-- What happens in a round of the loop, in order: the callbacks of `mobile_transfer`, the clock for
    the packet handled, the callbacks of `mobile_handle_loop`. -/
def happeningsOf (r : LoopRound tgt) : List (Happening tgt) :=
  (transferCalls r.trace).map .call ++
    (handledOf [r]).map (fun _ => .clock r.pre.2.bgbClock r.out.get.2.bgbClock) ++
    (adapterCalls r.trace).map .call

/-- The transfer of a packet runs the callbacks of `mobile_transfer` and nothing else. -/
theorem journaled_transferExec {state state' : BgbState tgt (MobileUser tgt)}
    {mobile mobile' : MobileUser tgt} {p : BgbPacket}
    (htransfer : state.callbackTransfer = some bgbLoopTransfer)
    (h : TransferExec E state mobile p w t state' mobile' w') :
    Journaled E mobile ((transferCalls t).map .call) mobile' ∧ adapterCalls t = [] ∧
      packetsOf (obsOf t) = [] := by
  unfold TransferExec at h
  cases hp : p.isSync1 with
  | false =>
    simp only [hp] at h
    obtain ⟨ht, _, hm, _⟩ := h
    subst ht hm
    exact ⟨.nil rfl, rfl, rfl⟩
  | true =>
    simp only [hp, htransfer] at h
    obtain ⟨byte, h, _⟩ := h
    have hobs := (exec_bgbLoopTransfer h).1
    unfold bgbLoopTransfer at h
    rw [exec_ask_bind] at h
    obtain ⟨ans, w₁, t₁, _, ht, h⟩ := h
    rw [exec_bind] at h
    obtain ⟨t₂, mobile₁, w₂, t₃, hcalls, h, ht₁⟩ := h
    obtain ⟨ht₃, hr, _⟩ := (exec_pure E).mp h
    obtain ⟨_, rfl⟩ := Prod.mk.inj hr
    -- the callbacks' own system calls are no callbacks
    obtain ⟨htr₂, had₂⟩ := calls_nil_of_obs (t := t₂) (by
      rw [(exec_implCalls hcalls).1]
      intro o ho
      cases ho)
    subst ht₁ ht₃
    rw [List.append_nil] at ht
    refine ⟨?_, ?_, by rw [hobs]; rfl⟩
    · rw [ht]
      show Journaled E mobile ((ans.2 ++ transferCalls t₂).map .call) mobile'
      rw [htr₂, List.append_nil]
      exact journaled_implCalls hcalls
    · rw [ht]
      exact had₂

/-- A call of `bgb_loop` that returns `true`: the callbacks of the transfer, then the clock. -/
theorem journaled_bgbLoop {s s' : MainState tgt} (hs : Synced s)
    (h : Exec E (bgbLoop s.1 s.2) w t (true, s') w') :
    Journaled E s.2 ((transferCalls t).map .call ++
        (packetsOf (obsOf t)).map (fun _ => .clock s.2.bgbClock s'.2.bgbClock)) s'.2 ∧
      adapterCalls t = [] := by
  obtain ⟨state', mobile'⟩ := s'
  rcases bgbLoop_cases h with ⟨_, hst, hm, ho, _⟩ | ⟨hf, _⟩ | ⟨_, _, hf, _⟩
    | ⟨p, t₀, t₁, t₂, w₁, w₂, state₁, mobile₁, _, ht, _, ho, _, htr, hclock⟩
  · -- no packet
    obtain ⟨htr, had⟩ := calls_nil_of_obs (t := t) (by rw [ho]; intro o ho; cases ho)
    rw [htr, ho]
    exact ⟨.nil (congrArg MobileUser.times hm), had⟩
  · cases hf
  · cases hf
  -- the three parts of the call, and what each contributes to the trace
  obtain ⟨_, hs₁, hcore₁⟩ := transferExec_served hs.transfer htr
  have hbc : mobile₁.bgbClock = s.2.bgbClock := congrArg Core.bgbClock hcore₁
  rw [← hs.clock] at hclock
  obtain ⟨ho₂, _, hm'⟩ := exec_clock_synced (by rw [hs₁]; exact hs.timestamp)
    (by rw [hs₁]; exact hs.init) (by rw [hbc, hs.clock, hs₁]) hclock
  obtain ⟨htr₀, had₀⟩ := calls_nil_of_obs (t := t₀) (by
    rw [ho]
    intro o ho
    rcases List.mem_cons.mp ho with ho | ho
    · rw [ho]
      rfl
    · obtain ⟨q, _, hq⟩ := List.mem_map.mp ho
      rw [← hq]
      rfl)
  obtain ⟨htr₂, had₂⟩ := calls_nil_of_obs (t := t₂) (by
    rw [ho₂]
    intro o ho
    split at ho
    · rw [List.mem_singleton.mp ho]
      rfl
    · cases ho)
  obtain ⟨hjournal, had₁, hps₁⟩ := journaled_transferExec hs.transfer htr
  have hps₂ : packetsOf (obsOf t₂) = [] := by
    rw [ho₂]
    split <;> rfl
  have hps₀ : packetsOf (obsOf t₀) = [p] := by
    rw [ho]
    show p :: packetsOf _ = [p]
    rw [packetsOf_sent]
  subst ht
  rw [transferCalls_append, transferCalls_append, adapterCalls_append, adapterCalls_append,
    obsOf_append, obsOf_append, packetsOf_append, packetsOf_append, htr₀, htr₂, had₀, had₁, had₂,
    hps₀, hps₁, hps₂, List.append_nil, List.nil_append]
  refine ⟨hjournal.append ?_, rfl⟩
  refine ⟨[⟨mobile₁, .clock s.2.bgbClock mobile'.bgbClock, mobile'⟩], ⟨rfl, ?_, rfl⟩, rfl⟩
  exact ⟨hbc, rfl, by rw [hm']⟩

/-- A turn that goes on. -/
theorem journaled_loopBody {bgbSock : SOCKET} {s s' : MainState tgt} (hs : LoopHead s)
    (h : Exec E (loopBody bgbSock s) w t (.go s') w') :
    Journaled E s.2 (happeningsOf ⟨s, t, .go s'⟩) s'.2 := by
  rcases loopBody_cases h with ⟨hfl, _⟩
    | ⟨s₁, mid, w₁, t₀, t₁, w₂, t₂, w₃, t₃, hfl, ht, hq₀, hq₃, hloop, hhandle, _⟩
  · cases hfl
  injection hfl with hs₁
  subst hs₁
  obtain ⟨hlink, had₁⟩ := journaled_bgbLoop hs.toSynced hloop
  obtain ⟨hadapter, htr₂⟩ := adapts_mobileHandleLoop hhandle
  obtain ⟨htr₀, had₀⟩ := calls_nil_of_silent hq₀
  obtain ⟨htr₃, had₃⟩ := calls_nil_of_silent hq₃
  -- `mobile_handle_loop` leaves the clock where `bgb_loop` put it
  obtain ⟨o, ho₂, hacts, hcore⟩ := exec_mobileHandleLoop hhandle
  have hclock : s'.2.bgbClock = mid.2.bgbClock := congrArg Core.bgbClock hcore
  have hps₂ : packetsOf (obsOf t₂) = [] := by
    rw [ho₂, packetsOf_append, hacts.packets]
    split <;> rfl
  have hps : handledOf [(⟨s, t, .go s'⟩ : LoopRound tgt)] = packetsOf (obsOf t₁) := by
    rw [handledOf_go, ht, obsOf_append, obsOf_append, obsOf_append, obsOf_silent hq₀,
      obsOf_silent hq₃, packetsOf_append, packetsOf_append, packetsOf_append, hps₂]
    show [] ++ (packetsOf (obsOf t₁) ++ ([] ++ [])) ++ [] = _
    simp
  have htr : transferCalls t = transferCalls t₁ := by
    rw [ht]
    simp [htr₀, htr₂, htr₃]
  have had : adapterCalls t = adapterCalls t₂ := by
    rw [ht]
    simp [had₀, had₁, had₃]
  unfold happeningsOf
  rw [hps, htr, had]
  show Journaled E s.2 (_ ++ (packetsOf (obsOf t₁)).map
    (fun _ => .clock s.2.bgbClock s'.2.bgbClock) ++ _) s'.2
  rw [hclock]
  exact hlink.append hadapter

/-- Every run of the main loop keeps a journal. -/
theorem rounds_journaled {bgbSock : SOCKET} {s : MainState tgt} {rs : List (LoopRound tgt)}
    {fl : Flow (MainState tgt) (MainState tgt)} (hs : LoopHead s)
    (h : Rounds E (loopBody bgbSock) s w rs fl w') :
    Journaled E s.2 (rs.flatMap happeningsOf) fl.get.2 := by
  induction h with
  | stop s w => exact .nil rfl
  | go hx _ ih =>
    rw [List.flatMap_cons]
    exact (journaled_loopBody hs hx).append (ih (exec_loopBody_turn hs hx).1)
  | @done s w w' t s' hx =>
    -- a round that leaves the loop calls nothing and handles nothing
    obtain ⟨hs', hlost⟩ := exec_loopBody_done hx
    obtain ⟨htr, had⟩ := calls_nil_of_obs (t := t) (by
      intro o ho
      rcases hlost with h | ⟨p, o', h, ⟨_, h'⟩ | ⟨q, _, h'⟩⟩ <;> rw [h] at ho
      · cases ho
      · rw [h', List.mem_singleton] at ho
        rw [ho]
        rfl
      · rw [h', List.mem_cons, List.mem_singleton] at ho
        rcases ho with ho | ho <;> rw [ho] <;> rfl)
    have hnone : happeningsOf (⟨s, t, .done s'⟩ : LoopRound tgt) = [] := by
      unfold happeningsOf
      rw [htr, had, handledOf_done]
      rfl
    rw [List.flatMap_singleton, hnone]
    exact .nil (by rw [← hs']; rfl)

/-! ## §5. Elapsed time. -/

/-- The forward steps of the clock, added up. -/
def elapsed (j : List (Entry tgt)) : Int := (j.map fun e => e.what.forward).sum

theorem elapsed_cons (e : Entry tgt) (j : List (Entry tgt)) :
    elapsed (e :: j) = e.what.forward + elapsed j := by
  unfold elapsed
  rw [List.map_cons, List.sum_cons]

theorem elapsed_append (j₁ j₂ : List (Entry tgt)) :
    elapsed (j₁ ++ j₂) = elapsed j₁ + elapsed j₂ := by
  unfold elapsed
  rw [List.map_append, List.sum_append]

theorem ahead31_range (clock ts : UInt32) : 0 ≤ ahead31 clock ts ∧ ahead31 clock ts < 2 ^ 31 :=
  ahead_range (by decide) _ _

theorem elapsed_nonneg (j : List (Entry tgt)) : 0 ≤ elapsed j := by
  induction j with
  | nil => exact Int.le_refl 0
  | cons e j ih =>
    have hstep : 0 ≤ e.what.forward := by
      cases e.what with
      | call c => exact Int.le_refl 0
      | clock old new => exact (ahead31_range old new).1
    rw [elapsed_cons]
    omega

/-- Only latching a timer changes its latch. -/
theorem implCall_latch {mobile mobile' : MobileUser tgt} {c : ImplCall tgt} {i : Fin tgt.maxTimers}
    (hc : c ≠ .timeLatch i) (h : Exec E (implCall mobile c) w t mobile' w') :
    mobile'.bgbClockLatch i = mobile.bgbClockLatch i := by
  unfold implCall at h
  cases c with
  | timeLatch k =>
    obtain ⟨_, hm, _⟩ := (exec_pure E).mp h
    have hne : i ≠ k := by
      intro hik
      rw [hik] at hc
      exact hc rfl
    rw [hm]
    exact Function.update_of_ne hne _ _
  | timeCheckMs k ms =>
    obtain ⟨_, hm, _⟩ := (exec_pure E).mp h
    rw [hm]
  | sock call =>
    rw [exec_bind] at h
    obtain ⟨t₁, ⟨_, socket⟩, w₁, t₂, _, h, _⟩ := h
    obtain ⟨_, hm, _⟩ := (exec_pure E).mp h
    rw [hm]

/-- Along a journal in which timer `i` is not latched, its latch stays and the clock moves on by
    the elapsed time, modulo 2^31. -/
theorem journal_elapsed {τ τ' : Times tgt} {j : List (Entry tgt)} {i : Fin tgt.maxTimers}
    (h : Journal E τ j τ') (hi : ∀ e ∈ j, e.what ≠ .call (.timeLatch i)) :
    τ'.latch i = τ.latch i ∧ ahead31 τ.clock τ'.clock = elapsed j % 2 ^ 31 := by
  -- induction on the journal; the distances on the circle add up entry by entry
  induction j generalizing τ with
  | nil =>
    rw [show τ' = τ from h]
    refine ⟨rfl, ?_⟩
    unfold ahead31 ahead
    rw [Int.sub_self]
    rfl
  | cons e j ih =>
    obtain ⟨hpre, hreal, h⟩ := h
    obtain ⟨hlatch, hclock⟩ := ih h fun x hx => hi x (List.mem_cons_of_mem _ hx)
    have hwhat := hi e List.mem_cons_self
    have hstep : e.post.bgbClockLatch i = e.pre.bgbClockLatch i ∧
        ahead31 e.pre.bgbClock e.post.bgbClock = e.what.forward := by
      unfold Entry.Real at hreal
      cases hw : e.what with
      | call c =>
        rw [hw] at hreal hwhat
        obtain ⟨w, t, w', hx⟩ := hreal
        have hcore : e.post.bgbClock = e.pre.bgbClock := congrArg Core.bgbClock (exec_implCall hx).2
        refine ⟨implCall_latch (fun hc => hwhat (by rw [hc])) hx, ?_⟩
        rw [hcore]
        unfold ahead31 ahead
        rw [Int.sub_self]
        rfl
      | clock old new =>
        rw [hw] at hreal
        obtain ⟨hold, hnew, hsame⟩ := hreal
        rw [hsame, hold, hnew]
        exact ⟨rfl, rfl⟩
    subst hpre
    refine ⟨hlatch.trans hstep.1, ?_⟩
    have hadd : (ahead31 e.pre.bgbClock e.post.bgbClock + ahead31 e.post.bgbClock τ'.clock) % 2 ^ 31
        = ahead31 e.pre.bgbClock τ'.clock := ahead_add _ _ _ _
    show ahead31 e.pre.bgbClock τ'.clock = _
    have hclock : ahead31 e.post.bgbClock τ'.clock = elapsed j % 2 ^ 31 := hclock
    rw [← hadd, hstep.2, hclock, elapsed_cons, Int.add_emod_emod]

/-- The object after the last entry of a journal, from an object on. -/
def objectAfter (mobile : MobileUser tgt) (j : List (Entry tgt)) : MobileUser tgt :=
  (j.map Entry.post).getLastD mobile

theorem times_objectAfter {τ' : Times tgt} {j : List (Entry tgt)} {mobile : MobileUser tgt}
    (h : Journal E mobile.times j τ') : (objectAfter mobile j).times = τ' := by
  unfold objectAfter
  induction j generalizing mobile with
  | nil => exact h.symm
  | cons e j ih =>
    rw [List.map_cons, List.getLastD_cons]
    exact ih h.2.2

/-- A timer latched by the first entry, and not since, shows the elapsed time. -/
theorem timeCheck_iff {τ : Times tgt} {e : Entry tgt} {b : List (Entry tgt)} {i : Fin tgt.maxTimers}
    (h : Journal E e.pre.times (e :: b) τ) (he : e.what = .call (.timeLatch i))
    (hb : ∀ x ∈ b, x.what ≠ .call (.timeLatch i)) (hlt : elapsed b < 2 ^ 31) (ms : UInt32) :
    implTimeCheckMs (objectAfter e.post b) i ms = true ↔
      ((ms.toNat * 2 ^ 21 / 1000 : Nat) : Int) ≤ elapsed b := by
  obtain ⟨_, hreal, h⟩ := h
  obtain ⟨hlatch, hclock⟩ := journal_elapsed h hb
  have htimes := times_objectAfter h
  -- right after the call the latch is the clock
  have hset : e.post.bgbClockLatch i = e.post.bgbClock := by
    unfold Entry.Real at hreal
    rw [he] at hreal
    obtain ⟨w, t, w', hx⟩ := hreal
    obtain ⟨_, hm, _⟩ := (exec_pure E).mp hx
    rw [hm]
    exact Function.update_self _ _ _
  have hnow : (objectAfter e.post b).bgbClock = τ.clock := congrArg Times.clock htimes
  have hthen : (objectAfter e.post b).bgbClockLatch i = e.post.bgbClock := by
    rw [← hset]
    exact (congrFun (congrArg Times.latch htimes) i).trans hlatch
  have hdist := toNat_sub_mask e.post.bgbClock τ.clock
  have hpast : ahead31 e.post.bgbClock τ.clock = elapsed b := by
    have hmod : ahead31 e.post.bgbClock τ.clock = elapsed b % 2 ^ 31 := hclock
    rw [hmod, Int.emod_eq_of_lt (elapsed_nonneg b) hlt]
  unfold implTimeCheckMs
  rw [hnow, hthen, decide_eq_true_eq, ← hpast, ← hdist]
  omega

/-! ## §6. Timers in a run of `main`. -/

/-- `main` from the moment its clock is initialised, in state `s`: the adapter is started, the loop
    runs, and at its end the adapter is stopped; with what happens to the timers and the object
    with which the run stands. -/
inductive Session (E : Env (Sys tgt) σ) (bgbSock : SOCKET) (s : MainState tgt) (w : σ) :
    List (Happening tgt) → MobileUser tgt → Prop where
  | looping {t₁ : Trace (Sys tgt)} {mobile : MobileUser tgt} {w₁ w₂ : σ} {rs : List (LoopRound tgt)}
      {fl : Flow (MainState tgt) (MainState tgt)}
      (hstart : Exec E (mobileStart s.2) w t₁ mobile w₁)
      (hloop : Rounds E (loopBody bgbSock) (loopStart s.1 mobile) w₁ rs fl w₂) :
      Session E bgbSock s w ((adapterCalls t₁).map .call ++ rs.flatMap happeningsOf) fl.get.2
  | stopped {t₁ t₂ : Trace (Sys tgt)} {mobile mobile' : MobileUser tgt} {w₁ w₂ w₃ : σ}
      {rs : List (LoopRound tgt)} {s' : MainState tgt}
      (hstart : Exec E (mobileStart s.2) w t₁ mobile w₁)
      (hloop : Rounds E (loopBody bgbSock) (loopStart s.1 mobile) w₁ rs (.done s') w₂)
      (hstop : Exec E (mobileStop s'.2) w₂ t₂ mobile' w₃) :
      Session E bgbSock s w
        ((adapterCalls t₁).map .call ++ rs.flatMap happeningsOf ++ (adapterCalls t₂).map .call)
        mobile'

/-- The whole session keeps a journal. -/
theorem Session.journaled {bgbSock : SOCKET} {p : BgbPacket} {s : MainState tgt}
    {hs : List (Happening tgt)} {mobile' : MobileUser tgt} (hfirst : FirstSeen p s)
    (h : Session E bgbSock s w hs mobile') : Journaled E s.2 hs mobile' := by
  cases h with
  | looping hstart hloop =>
    obtain ⟨hhead, _, _⟩ := loopStart_first hfirst (exec_mobileStart hstart).2
    exact (adapts_mobileStart hstart).1.append (rounds_journaled hhead hloop)
  | stopped hstart hloop hstop =>
    obtain ⟨hhead, _, _⟩ := loopStart_first hfirst (exec_mobileStart hstart).2
    exact ((adapts_mobileStart hstart).1.append (rounds_journaled hhead hloop)).append
      (adapts_mobileStop hstop).1

/-- **Timers measure accumulated emulator time.**  A run of `main` from the initialisation of its
    clock on has a journal of its callbacks and clock steps, in order and with the objects they
    worked on.  Let timer `i` be latched anywhere in it and not again in what follows (`b`), and
    let the forward steps of the clock in `b` add up to less than 2^31.  Then on the object after
    `b` the timer has expired exactly when that sum has reached its time; and once expired within
    `b`, it stays so. -/
theorem timer_measures {bgbSock : SOCKET} {w₀ w₁ w₂ : σ} {t₀ : Trace (Sys tgt)}
    {state : BgbState tgt (MobileUser tgt)} {ws : List (WaitRound tgt)} {s : MainState tgt}
    {hs : List (Happening tgt)} {mobile' : MobileUser tgt}
    (hinit : Exec E (mainInit bgbSock) w₀ t₀ (true, state) w₁)
    (hwait : Rounds E waitBody (waitStart state) w₁ ws (.done (some s)) w₂)
    (h : Session E bgbSock s w₂ hs mobile') :
    ∃ j, Journal E s.2.times j mobile'.times ∧ j.map Entry.what = hs ∧
      ∀ (i : Fin tgt.maxTimers) (a : List (Entry tgt)) (e : Entry tgt) (b c : List (Entry tgt)),
        j = a ++ e :: (b ++ c) → e.what = .call (.timeLatch i) →
        (∀ x ∈ b, x.what ≠ .call (.timeLatch i)) → elapsed b < 2 ^ 31 →
        ∀ ms : UInt32, ms.toNat < 1024000 →
          (implTimeCheckMs (objectAfter e.post b) i ms = true ↔
            ((ms.toNat * 2 ^ 21 / 1000 : Nat) : Int) ≤ elapsed b) ∧
          ∀ b₁ b₂, b = b₁ ++ b₂ → implTimeCheckMs (objectAfter e.post b₁) i ms = true →
            implTimeCheckMs (objectAfter e.post b) i ms = true := by
  have hfirst : ∃ p, FirstSeen p s := by
    rcases rounds_wait (mainInit_state hinit).1 hwait with ⟨_, hfl⟩ | ⟨_, hfl⟩
      | ⟨p, s', _, _, hfirst, hfl | hfl⟩
    · cases hfl
    · cases hfl
    · cases hfl
    · cases hfl
      exact ⟨p, hfirst⟩
  obtain ⟨p, hfirst⟩ := hfirst
  obtain ⟨j, hj, hwhat⟩ := h.journaled hfirst
  refine ⟨j, hj, hwhat, ?_⟩
  intro i a e b c hsplit he hb hlt ms _
  -- the part of the journal from the latch to the moment looked at
  have hpart : ∀ b₁ b₂, b = b₁ ++ b₂ → ∃ τ, Journal E e.pre.times (e :: b₁) τ := by
    intro b₁ b₂ hb₁
    rw [hsplit, hb₁, List.append_assoc, ← List.cons_append, journal_append] at hj
    obtain ⟨τ, _, hj⟩ := hj
    rw [journal_append] at hj
    obtain ⟨τ₁, hj, _⟩ := hj
    exact ⟨τ₁, rfl, hj.2⟩
  obtain ⟨τ, hτ⟩ := hpart b [] (List.append_nil b).symm
  have hiff := timeCheck_iff hτ he hb hlt ms
  refine ⟨hiff, ?_⟩
  intro b₁ b₂ hb₁ hexpired
  obtain ⟨τ₁, hτ₁⟩ := hpart b₁ b₂ hb₁
  have hsum : elapsed b = elapsed b₁ + elapsed b₂ := by rw [hb₁, elapsed_append]
  have hrest := elapsed_nonneg b₂
  have hb₁' : ∀ x ∈ b₁, x.what ≠ .call (.timeLatch i) := by
    intro x hx
    apply hb
    rw [hb₁]
    exact List.mem_append_left _ hx
  have hiff₁ := timeCheck_iff hτ₁ he hb₁' (by omega) ms
  have hold := hiff₁.mp hexpired
  exact hiff.mpr (by omega)

/-- An emulator that goes on by 0x800, sends a JOYPAD packet, lags a little and goes on by another
    0x800. -/
def latchScript : Script where
  rx := [handshake, ⟨108, 5, 0, 0, 0⟩, ⟨106, 1, 0, 0, 5⟩, ⟨106, 1, 0, 0, 0x805⟩,
    ⟨101, 8, 0, 0, 0⟩, ⟨106, 1, 0, 0, 0x7F0⟩,
    ⟨106, 1, 0, 0, 0x1005⟩].flatMap (BgbPacket.toBytes .little)
  transfers := []
  actions := []

def firstTimer : Fin host.maxTimers := ⟨0, by decide⟩

/-- A libmobile that latches its first timer when it is started. -/
def latchServe (c : Script) : (op : SysOp host) → op.Ans × Script
  | .mobileStart => ([.timeLatch firstTimer], c)
  | op => c.serve op

def latching : Env (Sys host) Script := fun c op ans c' => (ans, c') = latchServe c op

theorem latching_serve (c : Script) (op : SysOp host) :
    latching c op (latchServe c op).1 (latchServe c op).2 := rfl

def latchInit : Trace (Sys host) × (Bool × BgbState host (MobileUser host)) × Script :=
  (mainInit 3).run latchServe latchScript

def latchWait : List (WaitRound host) × Flow (MainState host) (Option (MainState host)) × Script :=
  runRounds latchServe waitBody 4 (waitStart latchInit.2.1.2) latchInit.2.2

/-- The state with which a loop was left, if it was. -/
def leftWith : Flow (MainState tgt) (Option (MainState tgt)) → Option (MainState tgt)
  | .go _ => none
  | .done s => s

def latchWaited : MainState host := (leftWith latchWait.2.1).get (by decide +kernel)

def latchStart : Trace (Sys host) × MobileUser host × Script :=
  (mobileStart latchWaited.2).run latchServe latchWait.2.2

def latchLoop : List (LoopRound host) × Flow (MainState host) (MainState host) × Script :=
  runRounds latchServe (loopBody 3) 4 (loopStart latchWaited.1 latchStart.2.1) latchStart.2.2

/-- In that session 0x1000 ticks have passed at the end: 1 ms has, 2 ms have not. -/
theorem timer_measures_session :
    ∃ j, Journal latching latchWaited.2.times j latchLoop.2.1.get.2.times ∧
      implTimeCheckMs (objectAfter latchWaited.2 j) firstTimer 1 = true ∧
      implTimeCheckMs (objectAfter latchWaited.2 j) firstTimer 2 = false := by
  have hinit : Exec latching (mainInit 3) latchScript latchInit.1 (true, latchInit.2.1.2)
      latchInit.2.2 := by
    have hok : latchInit.2.1 = (true, latchInit.2.1.2) := Prod.ext (by decide +kernel) rfl
    rw [← hok]
    exact exec_run latching_serve _ _
  have hwait : Rounds latching waitBody (waitStart latchInit.2.1.2) latchInit.2.2 latchWait.1
      (.done (some latchWaited)) latchWait.2.2 := by
    have hleft : ∀ (fl : Flow (MainState host) (Option (MainState host))) (s : MainState host),
        leftWith fl = some s → fl = .done (some s) := by
      intro fl s h
      cases fl with
      | go s' => cases h
      | done s' => exact congrArg Flow.done h
    rw [← hleft latchWait.2.1 latchWaited (Option.some_get _).symm]
    exact rounds_runRounds latching_serve _ _ _ _
  have hsession : Session latching 3 latchWaited latchWait.2.2
      ((adapterCalls latchStart.1).map .call ++ latchLoop.1.flatMap happeningsOf)
      latchLoop.2.1.get.2 :=
    .looping (exec_run latching_serve _ _) (rounds_runRounds latching_serve _ _ _ _)
  obtain ⟨j, hj, hwhat, hall⟩ := timer_measures hinit hwait hsession
  have hhappened : (adapterCalls latchStart.1).map .call ++ latchLoop.1.flatMap happeningsOf
      = .call (.timeLatch firstTimer) :: [.clock 5 0x805, .clock 0x805 0x805, .clock 0x805 0x805,
        .clock 0x805 0x1005] := by decide +kernel
  rw [hhappened, List.map_eq_cons_iff] at hwhat
  obtain ⟨e, b, hjb, he, hb⟩ := hwhat
  have hsum : elapsed b = 0x1000 := by
    have hmap : elapsed b = ((b.map Entry.what).map Happening.forward).sum := by
      rw [List.map_map]
      rfl
    rw [hmap, hb]
    decide
  have hother : ∀ x ∈ b, x.what ≠ .call (.timeLatch firstTimer) := by
    intro x hx hwhat
    have hmem : Happening.call (.timeLatch firstTimer) ∈ b.map Entry.what :=
      List.mem_map.mpr ⟨x, hx, hwhat⟩
    rw [hb] at hmem
    revert hmem
    decide
  have hafter : objectAfter latchWaited.2 j = objectAfter e.post b := by
    unfold objectAfter
    rw [hjb, List.map_cons, List.getLastD_cons]
  have hcheck := fun ms hms => (hall firstTimer [] e b [] (by rw [hjb, List.append_nil]; rfl) he
    hother (by rw [hsum]; decide) ms hms).1
  refine ⟨j, hj, ?_, ?_⟩
  · rw [hafter, hcheck 1 (by decide), hsum]
    decide
  · rw [hafter, ← Bool.not_eq_true, hcheck 2 (by decide), hsum]
    decide

end MobileBgb.Main
