/-
  MobileBgb.Session.Progress — a test always comes to its end.

  Two facts together: the two ends of the link never wait for each other (there is no
  deadlock), and they never go on forever (there is no livelock).

    Awaited         — what a waiting test waits for is under way: its SYNC1 or its
                      SYNC2 is in a channel, or about to be sent;
    jointStep_wf    — the protocol terminates: where the test stands goes down, or
                      else the load of the channels does;
    turn_possible   — a packet that is there is handled by a turn of the main loop.

  `session_comes_to_rest` puts them together for the code: turns of `main` on one
  side, the test on the other, in any order.
-/
import MobileBgb.Session.Agreement
import MobileBgb.Session.Opening

namespace MobileBgb.Session

open MobileBgb.Effect
open MobileBgb.System
open MobileBgb.Socket
open MobileBgb.Link
open MobileBgb.Main
open Relation

variable {tgt : Target} {α : Type}

/-! ## §1. What the test waits for is under way. -/

/-- A test that waits has a SYNC1 or a SYNC2 under way. -/
def Awaited (w : World α) : Prop :=
  ∀ byte k, w.control = .wait byte k →
    asks (w.toAdapter ++ w.out) ≠ [] ∨ answers w.toMaster ≠ []

theorem awaited_move {w w' : World α} (h : Awaited w) (hm : Move w w') : Awaited w' := by
  cases hm with
  | send clock p out ctl ta tm rs =>
    intro byte k hc
    have hq : (ta ++ [p]) ++ out = ta ++ p :: out := by rw [List.append_assoc]; rfl
    show asks ((ta ++ [p]) ++ out) ≠ [] ∨ _
    rw [hq]
    exact h byte k hc
  | accept clock c p ta tm rs => exact fun _ _ hc => nomatch hc
  | transfer clock byte k now ta tm rs =>
    intro _ _ _
    left
    show asks (ta ++ (request clock now (.transfer byte)).1) ≠ []
    rw [asks_append, asks_request]
    simp
  | update clock k now ta tm rs => exact fun _ _ hc => nomatch hc
  | addTime clock off k now ta tm rs => exact fun _ _ hc => nomatch hc
  | handle clock byte k p ta tm rs =>
    intro byte' k' hc
    by_cases hp : p.cmd = BgbCmd.sync2.code
    · rw [if_pos hp] at hc
      cases hc
    · -- not the packet it waits for
      have h2 : isSync2 p = false := beq_eq_false_iff_ne.mpr hp
      have hw := h byte k rfl
      rw [answers_cons, h2] at hw
      exact hw

/-- The adapter takes a SYNC1 away only to put a SYNC2 in its place. -/
theorem awaited_adapter {w : World α} {q : BgbPacket} {qs : List BgbPacket} {o : List Obs}
    {byte byte' : UInt8} (h : Awaited w) (hq : w.toAdapter = q :: qs)
    (hs : Served (recode .little tgt.byteOrder q) byte o byte') :
    Awaited { w with
      toAdapter := qs
      toMaster := w.toMaster ++ (sentOf o).map (recode tgt.byteOrder .little) } := by
  intro b k hc
  have hcons : asks (w.toAdapter ++ w.out)
      = (if q.isSync1 then [q.b2] else []) ++ asks (qs ++ w.out) := by
    rw [hq, List.cons_append, asks_cons]
  -- any other packet leaves what is asked for, and takes nothing from the answers
  have hother : q.isSync1 = false → asks (qs ++ w.out) ≠ [] ∨
      answers (w.toMaster ++ (sentOf o).map (recode tgt.byteOrder .little)) ≠ [] := by
    intro h1
    rw [h1] at hcons
    rcases h b k hc with ha | hr
    · rw [hcons] at ha
      exact Or.inl ha
    · right
      rw [answers_append]
      exact fun hnil => hr (List.append_eq_nil_iff.mp hnil).1
  cases hs with
  | sync1 h1 =>
    right
    show answers (w.toMaster ++ [recode tgt.byteOrder .little
      ((recode .little tgt.byteOrder q).sync2 byte)]) ≠ []
    rw [answers_append, answers_cons, isSync2_recode, isSync2_sync2]
    simp
  | echo h3 =>
    refine hother ?_
    rw [← recode_isSync1 .little tgt.byteOrder]
    exact BgbPacket.isSync1_of_isSync3 h3
  | plain h1 =>
    rw [recode_isSync1] at h1
    exact hother h1

/-! ## §2. The protocol terminates. -/

/-- Where the test can stand next. -/
inductive Control.Next : Control α → Control α → Prop where
  | accept (c : Prog Bus α) : Next (.accept c) (.run c)
  | transfer (byte : UInt8) (k : UInt8 → Prog Bus α) :
      Next (.run (.call (.transfer byte) k)) (.wait byte k)
  | update (k : Unit → Prog Bus α) : Next (.run (.call .update k)) (.run (k ()))
  | addTime (off : Int) (k : Unit → Prog Bus α) :
      Next (.run (.call (.addTime off) k)) (.run (k ()))
  | answer (byte : UInt8) (k : UInt8 → Prog Bus α) (r : UInt8) : Next (.wait byte k) (.run (k r))

/-- A test has an end on every path. -/
theorem next_wf : WellFounded fun b a : Control α => Control.Next a b := by
  -- by induction on what is left of the test
  have hrun : ∀ c : Prog Bus α, Acc (fun b a : Control α => Control.Next a b) (.run c) := by
    intro c
    induction c with
    | ret a => exact .intro _ (fun _ hn => nomatch hn)
    | call op k ih =>
      constructor
      intro b hn
      cases hn with
      | transfer byte k =>
        constructor
        intro b hn
        cases hn with
        | answer byte k r => exact ih r
      | update k => exact ih ()
      | addTime off k => exact ih ()
  constructor
  intro a
  cases a with
  | run c => exact hrun c
  | accept c =>
    constructor
    intro b hn
    cases hn with
    | accept c => exact hrun c
  | wait byte k =>
    constructor
    intro b hn
    cases hn with
    | answer byte k r => exact hrun (k r)

/-- What the channels still have to carry: a packet that is to be sent, then read by the adapter,
    then answered. -/
def load (w : World α) : Nat := 3 * w.out.length + 2 * w.toAdapter.length + w.toMaster.length

theorem sentOf_served {p : BgbPacket} {byte byte' : UInt8} {o : List Obs}
    (h : Served p byte o byte') : (sentOf o).length ≤ 1 := by
  cases h <;> simp [sentOf]

/-- A step takes the test further, or it takes load off the channels. -/
theorem jointStep_descends {j j' : Joint α} (h : JointStep tgt j j') :
    Control.Next j.world.control j'.world.control ∨
      (j'.world.control = j.world.control ∧ load j'.world < load j.world) := by
  cases h with
  | @master byte calls w w' hm =>
    cases hm with
    | send clock p out ctl ta tm rs =>
      right
      refine ⟨rfl, ?_⟩
      simp only [load, List.length_append, List.length_cons, List.length_nil]
      omega
    | accept clock c p ta tm rs => exact Or.inl (.accept c)
    | transfer clock byte k now ta tm rs => exact Or.inl (.transfer byte k)
    | update clock k now ta tm rs => exact Or.inl (.update k)
    | addTime clock off k now ta tm rs => exact Or.inl (.addTime off k)
    | handle clock byte k p ta tm rs =>
      by_cases hp : p.cmd = BgbCmd.sync2.code
      · left
        simp only [if_pos hp]
        exact .answer byte k p.b2
      · right
        simp only [if_neg hp, load, List.length_cons, List.length_nil]
        exact ⟨trivial, by omega⟩
  | @adapter byte byte' calls w q qs o hq hs =>
    right
    have hsent := sentOf_served hs
    refine ⟨rfl, ?_⟩
    simp only [load, hq, List.length_append, List.length_map, List.length_cons]
    omega

/-- **Termination of the protocol**: no test, no order of steps makes it go on forever. -/
theorem jointStep_wf (tgt : Target) : WellFounded fun j' j : Joint α => JointStep tgt j j' := by
  refine Subrelation.wf (r := InvImage (Prod.Lex (fun b a => Control.Next a b) (· < ·))
    fun j : Joint α => (j.world.control, load j.world)) ?_
    (InvImage.wf _ (WellFounded.prod_lex next_wf Nat.lt_wfRel.wf))
  intro j' j h
  rcases jointStep_descends h with hnext | ⟨hsame, hload⟩
  · exact Prod.Lex.left _ _ hnext
  · show Prod.Lex _ _ (j'.world.control, load j'.world) (j.world.control, load j.world)
    rw [hsame]
    exact Prod.Lex.right _ hload

/-! ## §3. A packet that is there is handled. -/

/-- The world as it stands, with every packet going through. -/
def stillEnv (tgt : Target) : Env (Sys tgt) (World α) := fun w op x w' => (x, w') = w.answer op

theorem stillEnv_answer (w : World α) (op : SysOp tgt) :
    stillEnv tgt w op (w.answer op).1 (w.answer op).2 := rfl

theorem stillEnv_linkEnv (w : World α) (op : SysOp tgt) (x : op.Ans) (w' : World α)
    (h : stillEnv tgt w op x w') : linkEnv tgt w op x w' := by
  have h : (x, w') = w.answer op := h
  have hserves := serves_answer w op
  rw [← h] at hserves
  exact interleaved_of hserves

section Wp

variable {U : Type} {w : World α}

theorem wp_still_send (socket : SOCKET) (q : BgbPacket) :
    wp (stillEnv tgt) (fun _ _ => True) (bgbSend socket q) (fun _ ok _ => ok = true) w := by
  unfold bgbSend
  rw [wp_ask_bind]
  refine ⟨trivial, ?_⟩
  intro x w₁ hE
  have hans : w.answer (.send socket (q.toBytes tgt.byteOrder) : SysOp tgt)
      = (some packetSize, { w with toMaster := w.toMaster ++ [_] }) :=
    if_pos (BgbPacket.toBytes_length _ _)
  have hE : (x, w₁) = w.answer (.send socket (q.toBytes tgt.byteOrder) : SysOp tgt) := hE
  rw [hans] at hE
  obtain ⟨hx, _⟩ := Prod.mk.inj hE
  rw [hx]
  rfl

theorem wp_still_switch (state : BgbState tgt U) (user : U) {p : BgbPacket}
    (hk : p.known = true) :
    wp (stillEnv tgt) (fun _ _ => True) (bgbLoopSwitch state user p)
      (fun _ r _ => r.isSome = true) w := by
  unfold bgbLoopSwitch
  unfold BgbPacket.known at hk
  -- one case for each command; the two that reply send a whole packet
  split <;> rename_i hcmd <;> simp only [hcmd] at hk
  · exact rfl
  · apply wp_bind
    refine wp_mono ?_ (wp_still_send _ _)
    intro t ok w₁ hok
    rw [hok, if_neg (by decide)]
    cases state.callbackTransfer with
    | none => exact rfl
    | some cb =>
      apply wp_bind
      refine wp_mono ?_ (wp_true _ _)
      intro t' r w₂ _
      exact rfl
  · exact rfl
  · dsimp only
    by_cases hb : p.b2 ≠ 0
    · rw [if_pos hb]
      exact rfl
    · rw [if_neg hb]
      apply wp_bind
      refine wp_mono ?_ (wp_still_send _ _)
      intro t ok w₁ hok
      rw [hok, if_neg (by decide)]
      exact rfl
  · exact rfl
  · exact rfl
  · cases hk
  · cases hk

/-- A poll tells the truth. -/
theorem still_poll {fds : List SOCKET} {x : Int} {w' : World α} {q : BgbPacket}
    {qs : List BgbPacket} (hq : w.toAdapter = q :: qs) (h : stillEnv tgt w (.poll fds 0) x w') :
    x = 1 ∧ w' = w := by
  have h : (x, w') = ((if w.toAdapter = [] then 0 else 1, w) : Int × World α) := h
  rw [hq, if_neg (by simp)] at h
  exact Prod.mk.inj h

theorem wp_still_hasdata {socket : SOCKET} {q : BgbPacket} {qs : List BgbPacket}
    (hq : w.toAdapter = q :: qs) :
    wp (stillEnv tgt) (fun _ _ => True) (socketHasdata socket) (fun _ rc w' => rc = 1 ∧ w' = w) w := by
  unfold socketHasdata
  rw [wp_ask_bind]
  refine ⟨trivial, ?_⟩
  intro x w₁ hE
  obtain ⟨hx, hw₁⟩ := still_poll hq hE
  subst hx hw₁
  rw [if_neg (by decide)]
  exact ⟨rfl, rfl⟩

theorem wp_still_recv {socket : SOCKET} {q : BgbPacket} {qs : List BgbPacket}
    (hq : w.toAdapter = q :: qs) :
    wp (stillEnv tgt) (fun _ _ => True) (bgbRecv socket)
      (fun _ r _ => r = some (recode .little tgt.byteOrder q)) w := by
  unfold bgbRecv
  rw [wp_ask_bind]
  refine ⟨trivial, ?_⟩
  intro x w₁ hE
  have hE : (x, w₁) = w.answer (.recv socket packetSize : SysOp tgt) := hE
  have hans : w.answer (.recv socket packetSize : SysOp tgt)
      = (some (q.toBytes .little), { w with toAdapter := qs }) := by
    unfold World.answer
    rw [hq]
  rw [hans] at hE
  obtain ⟨hx, _⟩ := Prod.mk.inj hE
  rw [hx]
  show (if (q.toBytes .little).length = packetSize then some _ else none) = _
  rw [if_pos (BgbPacket.toBytes_length _ _)]
  rfl

/-- With a packet on the channel, `bgb_loop` handles it. -/
theorem wp_still_bgbLoop {state : BgbState tgt U} {user : U} {q : BgbPacket} {qs : List BgbPacket}
    (hq : w.toAdapter = q :: qs) (hk : q.known = true) :
    wp (stillEnv tgt) (fun _ _ => True) (bgbLoop state user)
      (fun t r _ => r.1 = true ∧ packetsOf (obsOf t) ≠ []) w := by
  have hk' : (recode .little tgt.byteOrder q).known = true := by
    unfold BgbPacket.known at hk ⊢
    rw [recode_cmd]
    exact hk
  have htrue : wp (stillEnv tgt) (fun _ _ => True) (bgbLoop state user)
      (fun _ r _ => r.1 = true) w := by
    unfold bgbLoop
    apply wp_bind
    refine wp_mono ?_ (wp_still_hasdata hq)
    intro t rc w₁ hrc
    obtain ⟨hrc, hw₁⟩ := hrc
    subst hrc hw₁
    rw [if_neg (by decide)]
    apply wp_bind
    refine wp_mono ?_ (wp_still_recv hq)
    intro t₁ r w₂ hr
    subst hr
    apply wp_bind
    refine wp_mono ?_ (wp_still_switch state user hk')
    intro t₂ r w₃ hr
    cases r with
    | none => cases hr
    | some r =>
      apply wp_bind
      refine wp_mono ?_ (wp_true _ _)
      intro t₃ r' w₄ _
      exact rfl
  -- of the ways in which the call can end, only one is left
  refine wp_of_exec ?_ htrue
  intro t r w' hx hok
  refine ⟨hok, ?_⟩
  obtain ⟨ok, state', user'⟩ := r
  have hok : ok = true := hok
  subst hok
  rcases bgbLoop_cases hx with ⟨_, _, _, _, _, rc, w₁, hrc, hE⟩ | ⟨hf, _⟩ | ⟨_, _, hf, _⟩
    | ⟨p, t₀, t₁, t₂, _, _, _, _, _, ht, _, ho, _⟩
  · rw [(still_poll hq hE).1] at hrc
    have hrc : (1 : Int) ≤ 0 := hrc
    omega
  · cases hf
  · cases hf
  · subst ht
    simp only [obsOf_append, ho, packetsOf_append]
    simp [packetsOf]

/-- So does a turn of the main loop. -/
theorem wp_still_turn {bgbSock : SOCKET} {s : MainState tgt} {q : BgbPacket} {qs : List BgbPacket}
    (hq : w.toAdapter = q :: qs) (hk : q.known = true) :
    wp (stillEnv tgt) (fun _ _ => True) (loopBody bgbSock s)
      (fun t fl _ => (∃ s', fl = .go s') ∧ packetsOf (obsOf t) ≠ []) w := by
  unfold loopBody
  rw [wp_ask_bind]
  refine ⟨trivial, ?_⟩
  intro x w₁ hE
  obtain ⟨hx, hw₁⟩ := Prod.mk.inj (show (x, w₁) = (false, w) from hE)
  subst hx hw₁
  rw [if_neg (by decide)]
  apply wp_bind
  refine wp_mono ?_ (wp_still_bgbLoop hq hk)
  intro t r w₂ hr
  obtain ⟨ok, state, mobile⟩ := r
  obtain ⟨hok, hne⟩ := hr
  have hok : ok = true := hok
  subst hok
  dsimp only
  rw [if_neg (by decide)]
  apply wp_bind
  refine wp_mono ?_ (wp_true _ _)
  intro t' mobile' w₃ _
  apply wp_bind
  refine wp_mono ?_ (wp_true _ _)
  intro t'' rc w₄ _
  refine ⟨⟨_, rfl⟩, ?_⟩
  show packetsOf (obsOf (_ :: (t ++ (t' ++ (t'' ++ []))))) ≠ []
  intro hnil
  rw [obsOf_cons, obsOf_append, packetsOf_append, packetsOf_append] at hnil
  have hnil := (List.append_eq_nil_iff.mp hnil).2
  exact hne (List.append_eq_nil_iff.mp hnil).1

end Wp

/-- A turn that handles the packet exists, however the loop stands. -/
theorem turn_possible {bgbSock : SOCKET} {s : MainState tgt} {w : World α} {q : BgbPacket}
    {qs : List BgbPacket} (hq : w.toAdapter = q :: qs) (hk : q.known = true) :
    ∃ t s' w', Exec (linkEnv tgt) (loopBody bgbSock s) w t (.go s') w' ∧
      packetsOf (obsOf t) ≠ [] := by
  have hx := exec_run stillEnv_answer (loopBody bgbSock s) w
  obtain ⟨⟨⟨s', hs'⟩, hne⟩, _⟩ := wp_exec (wp_still_turn hq hk) hx
  rw [hs'] at hx
  exact ⟨_, s', _, hx.mono stillEnv_linkEnv, hne⟩

/-! ## §4. The code. -/

/-- The protocol keeps the link open and what is awaited under way. -/
theorem jointStep_live {j j' : Joint α} (ho : Opened knownRequests [] j.world) (ha : Awaited j.world)
    (h : JointStep tgt j j') : Opened knownRequests [] j'.world ∧ Awaited j'.world := by
  cases h with
  | master hm => exact ⟨opened_move ho hm, awaited_move ha hm⟩
  | adapter hq hs =>
    exact ⟨opened_sent (opened_known ho hq).2 _, awaited_adapter ha hq hs⟩

theorem jointSteps_live {j j' : Joint α} (ho : Opened knownRequests [] j.world) (ha : Awaited j.world)
    (h : ReflTransGen (JointStep tgt) j j') : Opened knownRequests [] j'.world ∧ Awaited j'.world := by
  induction h with
  | refl => exact ⟨ho, ha⟩
  | tail _ hstep ih => exact jointStep_live ih.1 ih.2 hstep

/-- One step of the two programs: a step of the test, or a turn of the main loop of `main` that
    handles a packet, with steps of the test in between. -/
inductive SystemStep (tgt : Target) (bgbSock : SOCKET) :
    MainState tgt × World α → MainState tgt × World α → Prop where
  | master {s : MainState tgt} {w w' : World α} (h : Move w w') :
      SystemStep tgt bgbSock (s, w) (s, w')
  | adapter {s s' : MainState tgt} {w w' : World α} {t : Trace (Sys tgt)}
      (h : Exec (linkEnv tgt) (loopBody bgbSock s) w t (.go s') w')
      (hp : packetsOf (obsOf t) ≠ []) : SystemStep tgt bgbSock (s, w) (s', w')

/-- A step of the programs is some steps of the protocol. -/
theorem systemStep_joint {bgbSock : SOCKET} {x y : MainState tgt × World α} (hs : LoopHead x.1)
    (h : SystemStep tgt bgbSock x y) (calls : List (UInt8 × UInt8)) :
    LoopHead y.1 ∧ ∃ calls', TransGen (JointStep tgt) ⟨x.1.1.byte, calls, x.2⟩
      ⟨y.1.1.byte, calls', y.2⟩ := by
  cases h with
  | master hm => exact ⟨hs, calls, .single (.master hm)⟩
  | @adapter s s' w w' t hx hp =>
    obtain ⟨hs', hturn⟩ := exec_loopBody_turn hs hx
    have hf := linkEnv_follows hx
    rw [← List.append_nil (obsOf t)] at hf
    obtain ⟨w₁, _, hsteps, hf₁⟩ := turn_joint hturn hf calls
    exact ⟨hs', _, TransGen.trans_left (hsteps hp) (joint_moves tgt (follows_nil.mp hf₁))⟩

theorem systemSteps_joint {bgbSock : SOCKET} {x y : MainState tgt × World α} (hs : LoopHead x.1)
    (h : ReflTransGen (SystemStep tgt bgbSock) x y) :
    LoopHead y.1 ∧ ∃ calls', ReflTransGen (JointStep tgt) ⟨x.1.1.byte, [], x.2⟩
      ⟨y.1.1.byte, calls', y.2⟩ := by
  induction h with
  | refl => exact ⟨hs, [], .refl⟩
  | tail _ hstep ih =>
    obtain ⟨hs₁, calls, hsteps⟩ := ih
    obtain ⟨hs₂, calls', hmore⟩ := systemStep_joint hs₁ hstep calls
    exact ⟨hs₂, calls', hsteps.trans hmore.to_reflTransGen⟩

/-- No run of the two programs goes on forever. -/
theorem systemStep_acc {bgbSock : SOCKET} {x : MainState tgt × World α} (hs : LoopHead x.1) :
    Acc (fun y x => SystemStep tgt bgbSock x y) x := by
  -- along the steps of the protocol, whatever the calls of `mobile_transfer` so far
  have hacc : ∀ (j : Joint α) (x : MainState tgt × World α) (calls : List (UInt8 × UInt8)),
      j = ⟨x.1.1.byte, calls, x.2⟩ → LoopHead x.1 →
      Acc (fun y x => SystemStep tgt bgbSock x y) x := by
    intro j
    induction j using (WellFounded.transGen (jointStep_wf tgt)).induction with
    | _ j ih =>
      intro x calls hj hs
      constructor
      intro y hstep
      obtain ⟨hs', calls', hsteps⟩ := systemStep_joint hs hstep calls
      refine ih ⟨y.1.1.byte, calls', y.2⟩ ?_ y calls' rfl hs'
      rw [hj]
      exact transGen_swap.mpr hsteps
  exact hacc _ x [] rfl hs

/-- When neither program can do anything, the test has come to its end. -/
theorem finished_of_stuck {bgbSock : SOCKET} {s : MainState tgt} {w : World α}
    (ho : Opened knownRequests [] w) (ha : Awaited w) (hstuck : ∀ y, ¬ SystemStep tgt bgbSock (s, w) y) :
    (∃ a, w.control = .run (.ret a)) ∧ w.toAdapter = [] ∧ w.out = [] := by
  have hmove : ∀ w', ¬ Move w w' := fun w' hm => hstuck _ (.master hm)
  -- nothing is left for the adapter
  have hta : w.toAdapter = [] := by
    cases hq : w.toAdapter with
    | nil => rfl
    | cons q qs =>
      obtain ⟨t, s', w', hx, hp⟩ := turn_possible hq (opened_known ho hq).1
      exact absurd (.adapter hx hp) (hstuck _)
  obtain ⟨clock, out, ctl, ta, tm, rs⟩ := w
  have hta : ta = [] := hta
  subst hta
  have hout : out = [] := by
    cases out with
    | nil => rfl
    | cons p out => exact absurd (.send ..) (hmove _)
  subst hout
  refine ⟨?_, rfl, rfl⟩
  cases ctl with
  | accept c => exact absurd rfl (ho.accepted c)
  | run c =>
    cases c with
    | ret a => exact ⟨a, rfl⟩
    | call op k =>
      cases op with
      | transfer byte => exact absurd (.transfer clock byte k 0 ..) (hmove _)
      | update => exact absurd (.update clock k 0 ..) (hmove _)
      | addTime off => exact absurd (.addTime clock off k 0 ..) (hmove _)
  | wait byte k =>
    -- what it waits for would have to be in a channel
    cases tm with
    | nil => rcases ha byte k rfl with hne | hne <;> exact absurd rfl hne
    | cons p tm => exact absurd (.handle ..) (hmove _)

/-! ## §5. From the handshake on. -/

theorem awaited_moves {w w' : World α} (h : Awaited w) (hm : ReflTransGen Move w w') :
    Awaited w' := by
  induction hm with
  | refl => exact h
  | tail _ hstep ih => exact awaited_move ih hstep

theorem awaited_sent {w : World α} (h : Awaited w) (as : List BgbPacket) :
    Awaited { w with toMaster := w.toMaster ++ as } := by
  intro byte k hc
  rcases h byte k hc with ha | hr
  · exact Or.inl ha
  · right
    rw [answers_append]
    exact fun hnil => hr (List.append_eq_nil_iff.mp hnil).1

theorem awaited_read {w : World α} {q : BgbPacket} {qs : List BgbPacket} (h : Awaited w)
    (hq : w.toAdapter = q :: qs) (h1 : q.isSync1 = false) : Awaited { w with toAdapter := qs } := by
  intro byte k hc
  have hw := h byte k hc
  rw [hq, List.cons_append, asks_cons, h1] at hw
  exact hw

/-- A handshake that succeeds leaves the link open. -/
theorem handshake_live {R : Requests} {clock : BGBMaster} {c : Prog Bus α} {w : World α}
    {p : BgbPacket} {ok : Bool} (hR : R.Holds clock [] [])
    (hf : Follows Move (Shown tgt) [.sent handshake true, .packet handshake, .sent greeting true,
      .packet p, .sent (unpause p) ok] (World.start clock c) w) : Opened R [] w ∧ Awaited w := by
  -- the version is out
  have hf := follows_sent hf
  have hgreeted : Greeted R { World.start clock c with
      toMaster := [] ++ [recode tgt.byteOrder .little handshake] } := by
    rw [recode_handshake]
    exact Or.inl ⟨⟨c, rfl⟩, rfl, rfl, rfl, hR⟩
  have hawaited : Awaited { World.start clock c with
      toMaster := [] ++ [recode tgt.byteOrder .little handshake] } := fun _ _ hc => nomatch hc
  -- the other one is read, and the status after it
  obtain ⟨w₁, q, qs, hm, hq, _, hf⟩ := follows_packet hf
  obtain ⟨hversion, hopen⟩ := greeted_read (greeted_moves hgreeted hm) hq
  have h1 : q.isSync1 = false := by rw [hversion]; rfl
  have hawaited := awaited_read (awaited_moves hawaited hm) hq h1
  have hf := follows_sent hf
  obtain ⟨w₂, q', qs', hm', hq', _, hf⟩ := follows_packet hf
  obtain ⟨hstat, hopen⟩ := opened_read (opened_moves (opened_sent hopen _) hm') hq'
  have h1 : q'.isSync1 = false := by rw [hstat]; rfl
  have hawaited := awaited_read (awaited_moves (awaited_sent hawaited _) hm') hq' h1
  -- the last status goes out, or does not
  obtain ⟨w₃, w₄, hm₃, hshown, hf⟩ := follows_cons.mp hf
  have hshown : w₄ = if ok = true then
      { w₃ with toMaster := w₃.toMaster ++ [recode tgt.byteOrder .little (unpause p)] } else w₃ := hshown
  have hm₄ := follows_nil.mp hf
  have hopen := opened_moves hopen hm₃
  have hawaited := awaited_moves hawaited hm₃
  cases ok with
  | true =>
    rw [if_pos rfl] at hshown
    subst hshown
    exact ⟨opened_moves (opened_sent hopen _) hm₄, awaited_moves (awaited_sent hawaited _) hm₄⟩
  | false =>
    rw [if_neg (by decide)] at hshown
    subst hshown
    exact ⟨opened_moves hopen hm₄, awaited_moves hawaited hm₄⟩

/-- When `main` gets to its loop the link is open. -/
theorem begins_live {bgbSock : SOCKET} {ws : List (WaitRound tgt)} {clock : BGBMaster}
    {c : Prog Bus α} {s : MainState tgt} {w : World α}
    (h : Begins (linkEnv tgt) bgbSock ws (World.start clock c) s w) :
    LoopHead s ∧ Opened knownRequests [] w ∧ Awaited w := by
  obtain ⟨_, _, _, hhead, _⟩ := h.loopHead
  refine ⟨hhead, ?_⟩
  obtain ⟨t₀, state, w₁, state₁, mobile₁, w₂, t₁, mobile₂, hinit, hwait, hstart, _⟩ := h
  -- the handshake
  have hf₀ := linkEnv_follows hinit
  obtain ⟨hstate, hshake⟩ := mainInit_state hinit
  have hlive : Opened knownRequests [] w₁ ∧ Awaited w₁ := by
    generalize obsOf t₀ = o at hshake hf₀
    generalize recvs t₀ = rs at hshake
    cases hshake with
    | status hp => exact handshake_live (fun _ hp => nomatch hp) hf₀
  -- the packet that initialises the clock
  have hf₁ := linkEnv_follows hwait.exec_loop
  have hlive₂ : Opened knownRequests [] w₂ ∧ Awaited w₂ := by
    rcases rounds_wait hstate hwait with ⟨_, hfl⟩ | ⟨_, hfl⟩ | ⟨p, s', _, hserved, _, _⟩
    · cases hfl
    · cases hfl
    · rw [← List.append_nil (obsOf (traceOf ws))] at hf₁
      obtain ⟨w₃, hsteps, hf₁⟩ := served_joint hserved hf₁ []
      obtain ⟨hopen, hawaited⟩ := jointSteps_live hlive.1 hlive.2 hsteps.to_reflTransGen
      have hmoves := follows_nil.mp hf₁
      exact ⟨opened_moves hopen hmoves, awaited_moves hawaited hmoves⟩
  -- the adapter is started
  have hf₂ := linkEnv_follows hstart
  rw [(exec_mobileStart hstart).1] at hf₂
  have hmoves := follows_nil.mp (follows_quiet (o := [.start]) (by simp [quiet]) hf₂).1
  exact ⟨opened_moves hlive₂.1 hmoves, awaited_moves hlive₂.2 hmoves⟩

/-- **A session comes to rest.**  A test is a finite program: on a bus that answered at once each of
    its runs would end.  From the moment `main` is in its loop, with any such test at the other end
    of the link: turns of `main` that handle a packet and steps of the test, in whatever order, do
    not go on forever; and wherever they can no longer go on, the test has come to its end and
    nothing is left for the adapter. -/
theorem session_comes_to_rest {bgbSock : SOCKET} {ws : List (WaitRound tgt)} {clock : BGBMaster}
    {c : Prog Bus α} {s : MainState tgt} {w : World α}
    (h : Begins (linkEnv tgt) bgbSock ws (World.start clock c) s w) :
    (¬ ∃ f : Nat → MainState tgt × World α, f 0 = (s, w) ∧
      ∀ n, SystemStep tgt bgbSock (f n) (f (n + 1))) ∧
    ∀ s' w', ReflTransGen (SystemStep tgt bgbSock) (s, w) (s', w') →
      (∀ y, ¬ SystemStep tgt bgbSock (s', w') y) →
      (∃ a, w'.control = .run (.ret a)) ∧ w'.toAdapter = [] ∧ w'.out = [] := by
  obtain ⟨hhead, hopen, hawaited⟩ := begins_live h
  constructor
  · intro hrun
    obtain ⟨f, h0, hsteps⟩ := hrun
    have hacc : Acc (fun y x => SystemStep tgt bgbSock x y) (f 0) := by
      rw [h0]
      exact systemStep_acc hhead
    exact not_infinite_of_acc hacc rfl hsteps
  · intro s' w' hsteps hstuck
    obtain ⟨_, calls, hjoint⟩ := systemSteps_joint (x := (s, w)) hhead hsteps
    obtain ⟨hopen', hawaited'⟩ := jointSteps_live hopen hawaited hjoint
    exact finished_of_stuck hopen' hawaited' hstuck

/-- `main` up to its loop against one handler, with at most `n` turns of waiting. -/
def beginWith {σ : Type} (serve : σ → (op : SysOp host) → op.Ans × σ) (n : Nat) (w : σ) :
    Option (List (WaitRound host) × MainState host × σ) :=
  match (mainInit 3).run serve w with
  | (_, (true, state), w₁) =>
      match runRounds serve waitBody n (waitStart state) w₁ with
      | (ws, .done (some (state₁, mobile₁)), w₂) =>
          let r := (mobileStart mobile₁).run serve w₂
          some (ws, loopStart state₁ r.2.1, r.2.2)
      | _ => none
  | _ => none

theorem begins_beginWith {σ : Type} {E : Env (Sys host) σ}
    {serve : σ → (op : SysOp host) → op.Ans × σ}
    (hE : ∀ w op, E w op (serve w op).1 (serve w op).2) {n : Nat} {w w' : σ}
    {ws : List (WaitRound host)} {s : MainState host}
    (h : beginWith serve n w = some (ws, s, w')) : Begins E 3 ws w s w' := by
  unfold beginWith at h
  split at h
  next t₀ state w₁ hinit =>
    split at h
    next ws' state₁ mobile₁ w₂ hwait =>
      have hx₀ := exec_run hE (mainInit 3 : Prog (Sys host) _) w
      have hx₁ := rounds_runRounds hE waitBody n (waitStart state) w₁
      have hx₂ := exec_run hE (mobileStart mobile₁) w₂
      rw [hinit] at hx₀
      rw [hwait] at hx₁
      injection h with h
      injection h with hws h
      injection h with hs hw
      subst hws hs hw
      exact ⟨_, _, _, _, _, _, _, _, hx₀, hx₁, hx₂, rfl⟩
    next => cases h
  next => cases h

/-- The two bytes, with `main` in its loop. -/
def twoBytesLoop : Option (List (WaitRound host) × MainState host × World (UInt8 × UInt8)) :=
  beginWith (linkServe 0x100) 2 (.start ⟨0x100, 0⟩ twoBytes)

/-- `main` gets there, and from there the test comes to its end. -/
theorem session_comes_to_rest_twoBytes :
    ∃ ws s w, twoBytesLoop = some (ws, s, w) ∧
      (¬ ∃ f : Nat → MainState host × World (UInt8 × UInt8), f 0 = (s, w) ∧
        ∀ n, SystemStep host 3 (f n) (f (n + 1))) ∧
      ∀ s' w', ReflTransGen (SystemStep host 3) (s, w) (s', w') →
        (∀ y, ¬ SystemStep host 3 (s', w') y) →
        (∃ a, w'.control = .run (.ret a)) ∧ w'.toAdapter = [] ∧ w'.out = [] := by
  have hsome : twoBytesLoop.isSome = true := by decide +kernel
  obtain ⟨⟨ws, s, w⟩, hloop⟩ := Option.isSome_iff_exists.mp hsome
  exact ⟨ws, s, w, hloop, session_comes_to_rest (begins_beginWith (linkEnv_serve 0x100) hloop)⟩

end MobileBgb.Session
