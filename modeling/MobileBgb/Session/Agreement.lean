/-
  MobileBgb.Session.Agreement — the link is an atomic bus.

  Three levels of the same thing:

    the code   — `main` in `linkEnv`, among the steps of a test;
    Joint      — the PROTOCOL: a step is a move of the test, or the adapter taking one
                 packet off its channel and putting the reply, if any, on the other;
    busEnv     — the PURPOSE: a bus without packets.  A transfer returns the byte that
                 is ready and hands its own byte to `mobile_transfer`, whose result is
                 the next one to be ready.

  Between the levels: what `main` shows takes the protocol along (`served_joint` and
  what follows it), and the protocol takes the bus along (`coupled_step`).  A transfer
  of the bus happens when the adapter handles its SYNC1; until then the test is where
  it was, and from then on it has, in effect, its answer (`InFlight`).
-/
import MobileBgb.Session.Master
import MobileBgb.Main.Pipeline

namespace MobileBgb.Session

open MobileBgb.Effect
open MobileBgb.System
open MobileBgb.Link
open MobileBgb.Main
open Relation

variable {tgt : Target} {α : Type}

/-! ## §1. The bus. -/

/-- The bus: the byte that is ready, and the calls of `mobile_transfer` so far, each with its
    argument and its result. -/
abbrev BusState := UInt8 × List (UInt8 × UInt8)

/-- A transfer returns the byte that is ready; `mobile_transfer` makes the next one. -/
def busEnv : Env Bus BusState := fun s op ans s' =>
  match op with
  | .transfer byte => (ans : UInt8) = s.1 ∧ ∃ r, s' = (r, s.2 ++ [(byte, r)])
  | .update => s' = s
  | .addTime _ => s' = s

/-- The transfers in a trace of the bus: the byte given and the byte got. -/
def transferred (t : Trace Bus) : List (UInt8 × UInt8) :=
  t.filterMap fun
    | ⟨.transfer byte, ans⟩ => some (byte, (ans : UInt8))
    | _ => none

theorem transferred_append (t t' : Trace Bus) :
    transferred (t ++ t') = transferred t ++ transferred t' := List.filterMap_append

/-- On the bus every byte reaches `mobile_transfer`, in order, and comes back one transfer late:
    the first transfer returns what was ready, each later one the result of the one before. -/
theorem bus_transferred {c c' : Prog Bus α} {byte byte' : UInt8} {t : Trace Bus}
    {calls : List (UInt8 × UInt8)} (h : Steps busEnv c (byte, []) t c' (byte', calls)) :
    (transferred t).map Prod.fst = calls.map Prod.fst ∧
      (transferred t).map Prod.snd ++ [byte'] = byte :: calls.map Prod.snd := by
  have hinv := Steps.invariant (I := fun (s : BusState) (t : Trace Bus) =>
    (transferred t).map Prod.fst = s.2.map Prod.fst ∧
      (transferred t).map Prod.snd ++ [s.1] = byte :: s.2.map Prod.snd) ?_ ⟨rfl, rfl⟩ h
  · exact hinv
  · intro s t op x s' hI hE
    obtain ⟨hargs, hress⟩ := hI
    rw [transferred_append]
    cases op with
    | transfer b =>
      obtain ⟨hx, r, hs'⟩ := hE
      have hone : transferred [(⟨.transfer b, x⟩ : Event Bus)] = [(b, s.1)] := by
        rw [← hx]
        rfl
      rw [hone, hs']
      constructor
      · simp [hargs]
      · simp only [List.map_append, List.map_cons, List.map_nil, hress, List.cons_append]
    | update =>
      have hs' : s' = s := hE
      rw [hs', show transferred [(⟨.update, x⟩ : Event Bus)] = [] from rfl, List.append_nil]
      exact ⟨hargs, hress⟩
    | addTime off =>
      have hs' : s' = s := hE
      rw [hs', show transferred [(⟨.addTime off, x⟩ : Event Bus)] = [] from rfl, List.append_nil]
      exact ⟨hargs, hress⟩

/-! ## §2. What is under way. -/

/-- The bytes asked for by the SYNC1s among some packets. -/
def asks (ps : List BgbPacket) : List UInt8 := (ps.filter BgbPacket.isSync1).map BgbPacket.b2

/-- The bytes carried by the SYNC2s among them. -/
def answers (ps : List BgbPacket) : List UInt8 := (ps.filter isSync2).map BgbPacket.b2

@[simp] theorem asks_nil : asks [] = [] := rfl

@[simp] theorem answers_nil : answers [] = [] := rfl

@[simp] theorem asks_append (ps qs : List BgbPacket) : asks (ps ++ qs) = asks ps ++ asks qs := by
  unfold asks
  rw [List.filter_append, List.map_append]

@[simp] theorem answers_append (ps qs : List BgbPacket) :
    answers (ps ++ qs) = answers ps ++ answers qs := by
  unfold answers
  rw [List.filter_append, List.map_append]

theorem asks_cons (p : BgbPacket) (ps : List BgbPacket) :
    asks (p :: ps) = (if p.isSync1 then [p.b2] else []) ++ asks ps := by
  unfold asks
  rw [List.filter_cons]
  split <;> rfl

theorem answers_cons (p : BgbPacket) (ps : List BgbPacket) :
    answers (p :: ps) = (if isSync2 p then [p.b2] else []) ++ answers ps := by
  unfold answers
  rw [List.filter_cons]
  split <;> rfl

@[simp] theorem isSync2_recode (a b : ByteOrder) (p : BgbPacket) :
    isSync2 (recode a b p) = isSync2 p := by
  unfold isSync2
  rw [recode_cmd]

/-- The steps of the clock ask for nothing. -/
@[simp] theorem asks_sync3 (ts : List Nat) : asks (ts.map BGBMaster.sync3) = [] := by
  induction ts with
  | nil => rfl
  | cons t ts ih =>
    rw [List.map_cons, asks_cons, ih]
    rfl

/-- What a request sends asks for the byte it transfers, and for nothing else. -/
theorem asks_request (clock : BGBMaster) (now : Int) (op : BusOp) :
    asks (request clock now op).1 =
      match op with
      | .transfer byte => [byte]
      | _ => [] := by
  cases op with
  | transfer byte =>
    show asks (List.map BGBMaster.sync3 _ ++ [sync1 byte _]) = _
    rw [asks_append, asks_sync3]
    rfl
  | update =>
    show asks (List.map BGBMaster.sync3 _ ++ [BGBMaster.sync3 _]) = _
    rw [asks_append, asks_sync3]
    rfl
  | addTime off =>
    show asks (List.map BGBMaster.sync3 _ ++ [BGBMaster.sync3 _]) = _
    rw [asks_append, asks_sync3]
    rfl

/-- What is left of the test, seen from the bus, while the world stands at `w`: a transfer has
    been made as soon as its answer is on the way. -/
inductive InFlight : Prog Bus α → World α → Prop where
  | accepting {c : Prog Bus α} {w : World α} (hc : w.control = .accept c)
      (ha : asks (w.toAdapter ++ w.out) = []) (hr : answers w.toMaster = []) : InFlight c w
  | idle {c : Prog Bus α} {w : World α} (hc : w.control = .run c)
      (ha : asks (w.toAdapter ++ w.out) = []) (hr : answers w.toMaster = []) : InFlight c w
  /-- The SYNC1 has not been handled yet. -/
  | asked {byte : UInt8} {k : UInt8 → Prog Bus α} {w : World α} (hc : w.control = .wait byte k)
      (ha : asks (w.toAdapter ++ w.out) = [byte]) (hr : answers w.toMaster = []) :
      InFlight (.call (.transfer byte) k) w
  /-- The SYNC2 is on its way back. -/
  | answered {byte r : UInt8} {k : UInt8 → Prog Bus α} {w : World α}
      (hc : w.control = .wait byte k) (ha : asks (w.toAdapter ++ w.out) = [])
      (hr : answers w.toMaster = [r]) : InFlight (k r) w
  /-- The SYNC1 was read and could not be answered. -/
  | lost {byte : UInt8} {k : UInt8 → Prog Bus α} {w : World α} (hc : w.control = .wait byte k)
      (ha : asks (w.toAdapter ++ w.out) = []) (hr : answers w.toMaster = []) :
      InFlight (.call (.transfer byte) k) w

/-- What the test itself stands at, when `c` is left of it seen from the bus. -/
def Pending (c : Prog Bus α) (w : World α) : Prop :=
  w.control = .accept c ∨ w.control = .run c ∨
    ∃ byte k, w.control = .wait byte k ∧
      (c = .call (.transfer byte) k ∨ ∃ r, c = k r ∧ answers w.toMaster = [r])

theorem InFlight.pending {c : Prog Bus α} {w : World α} (h : InFlight c w) : Pending c w := by
  cases h with
  | accepting hc _ _ => exact Or.inl hc
  | idle hc _ _ => exact Or.inr (Or.inl hc)
  | asked hc _ _ => exact Or.inr (Or.inr ⟨_, _, hc, Or.inl rfl⟩)
  | answered hc _ hr => exact Or.inr (Or.inr ⟨_, _, hc, Or.inr ⟨_, rfl, hr⟩⟩)
  | lost hc _ _ => exact Or.inr (Or.inr ⟨_, _, hc, Or.inl rfl⟩)

/-! ## §3. The protocol. -/

/-- Both ends of the link: the byte the adapter will reply with, its calls of `mobile_transfer`,
    and everything beyond its socket. -/
structure Joint (α : Type) where
  byte : UInt8
  calls : List (UInt8 × UInt8)
  world : World α

/-- The calls of `mobile_transfer` that are shown. -/
def transfersOf (o : List Obs) : List (UInt8 × UInt8) :=
  o.filterMap fun
    | .transfer c r => some (c, r)
    | _ => none

theorem transfersOf_append (o o' : List Obs) :
    transfersOf (o ++ o') = transfersOf o ++ transfersOf o' := List.filterMap_append

/-- One step of the protocol. -/
inductive JointStep (tgt : Target) : Joint α → Joint α → Prop where
  /-- The test moves. -/
  | master {byte : UInt8} {calls : List (UInt8 × UInt8)} {w w' : World α} (h : Move w w') :
      JointStep tgt ⟨byte, calls, w⟩ ⟨byte, calls, w'⟩
  /-- The adapter handles the next packet. -/
  | adapter {byte byte' : UInt8} {calls : List (UInt8 × UInt8)} {w : World α} {q : BgbPacket}
      {qs : List BgbPacket} {o : List Obs} (hq : w.toAdapter = q :: qs)
      (hs : Served (recode .little tgt.byteOrder q) byte o byte') :
      JointStep tgt ⟨byte, calls, w⟩ ⟨byte', calls ++ transfersOf o,
        { w with
          toAdapter := qs
          toMaster := w.toMaster ++ (sentOf o).map (recode tgt.byteOrder .little) }⟩

theorem joint_moves (tgt : Target) {byte : UInt8} {calls : List (UInt8 × UInt8)} {w w' : World α}
    (h : ReflTransGen Move w w') :
    ReflTransGen (JointStep tgt) ⟨byte, calls, w⟩ ⟨byte, calls, w'⟩ :=
  h.lift (fun w => (⟨byte, calls, w⟩ : Joint α)) fun _ _ hm => .master hm

/-- A packet is read: it was the next one on the channel. -/
theorem follows_packet {p : BgbPacket} {os : List Obs} {w w' : World α}
    (h : Follows Move (Shown tgt) (.packet p :: os) w w') :
    ∃ w₁ q qs, ReflTransGen Move w w₁ ∧ w₁.toAdapter = q :: qs ∧
      p = recode .little tgt.byteOrder q ∧
      Follows Move (Shown tgt) os { w₁ with toAdapter := qs } w' := by
  obtain ⟨w₁, w₂, hm, ⟨q, qs, hq, hp, hw⟩, h⟩ := follows_cons.mp h
  rw [hw] at h
  exact ⟨w₁, q, qs, hm, hq, hp, h⟩

/-- A packet is handled: it is read, and its reply is taken as sent at once. -/
theorem served_read {p : BgbPacket} {byte byte' : UInt8} {o os : List Obs} {w w' : World α}
    (hs : Served p byte o byte') (h : Follows Move (Shown tgt) (o ++ os) w w') :
    ∃ w₁ q qs, ReflTransGen Move w w₁ ∧ w₁.toAdapter = q :: qs ∧
      p = recode .little tgt.byteOrder q ∧
      Follows Move (Shown tgt) os
        { w₁ with
          toAdapter := qs
          toMaster := w₁.toMaster ++ (sentOf o).map (recode tgt.byteOrder .little) } w' := by
  cases hs with
  | sync1 hp =>
    obtain ⟨w₁, q, qs, hm, hq, hpq, h⟩ := follows_packet h
    have hsilent : ∀ w w' : World α, Shown tgt (.transfer p.b2 byte') w w' → w' = w := fun _ _ hw => hw
    exact ⟨w₁, q, qs, hm, hq, hpq, follows_silent hsilent (follows_sent h)⟩
  | echo hp =>
    obtain ⟨w₁, q, qs, hm, hq, hpq, h⟩ := follows_packet h
    exact ⟨w₁, q, qs, hm, hq, hpq, follows_sent h⟩
  | plain hp =>
    obtain ⟨w₁, q, qs, hm, hq, hpq, h⟩ := follows_packet h
    have hnone : w₁.toMaster ++ (sentOf [.packet p]).map (recode tgt.byteOrder .little)
        = w₁.toMaster := List.append_nil _
    refine ⟨w₁, q, qs, hm, hq, hpq, ?_⟩
    rw [hnone]
    exact h

/-- **A packet handled is a step of the protocol**, with moves of the test before it. -/
theorem served_joint {p : BgbPacket} {byte byte' : UInt8} {o os : List Obs} {w w' : World α}
    (hs : Served p byte o byte') (h : Follows Move (Shown tgt) (o ++ os) w w')
    (calls : List (UInt8 × UInt8)) :
    ∃ w₁, TransGen (JointStep tgt) ⟨byte, calls, w⟩ ⟨byte', calls ++ transfersOf o, w₁⟩ ∧
      Follows Move (Shown tgt) os w₁ w' := by
  obtain ⟨w₁, q, qs, hm, hq, hp, h⟩ := served_read hs h
  rw [hp] at hs
  exact ⟨_, TransGen.tail' (joint_moves tgt hm) (.adapter hq hs), h⟩

/-- Nothing on the link: neither a packet nor a transfer. -/
def quiet : Obs → Bool
  | .packet _ => false
  | .sent _ _ => false
  | .transfer _ _ => false
  | _ => true

theorem follows_quiet {o os : List Obs} {w w' : World α} (ho : ∀ e ∈ o, quiet e = true)
    (h : Follows Move (Shown tgt) (o ++ os) w w') :
    Follows Move (Shown tgt) os w w' ∧ transfersOf o = [] := by
  induction o generalizing w with
  | nil => exact ⟨h, rfl⟩
  | cons e o ih =>
    have he := ho e List.mem_cons_self
    have hsilent : ∀ w w' : World α, Shown tgt e w w' → w' = w := by
      intro w w' hw
      cases e <;> first | exact hw | cases he
    obtain ⟨h', hnone⟩ := ih (fun e' h' => ho e' (List.mem_cons_of_mem _ h')) (follows_silent hsilent h)
    refine ⟨h', ?_⟩
    cases e <;> first | exact hnone | cases he

theorem Acts.quiet {a a' : MobileAction} {o : List Obs} (h : Acts tgt a o a') :
    ∀ e ∈ o, Session.quiet e = true := by
  cases h <;> simp [Session.quiet]

theorem restartObs_quiet (asked : Bool) : ∀ e ∈ restartObs asked, quiet e = true := by
  cases asked <;> simp [restartObs, quiet]

/-- A turn of `main`: moves of the test, and at most one packet. -/
theorem turn_joint {v v' : View} {o os : List Obs} {w w' : World α} (ht : Turn tgt v o v')
    (h : Follows Move (Shown tgt) (o ++ os) w w') (calls : List (UInt8 × UInt8)) :
    ∃ w₁, ReflTransGen (JointStep tgt) ⟨v.byte, calls, w⟩ ⟨v'.byte, calls ++ transfersOf o, w₁⟩ ∧
      (packetsOf o ≠ [] →
        TransGen (JointStep tgt) ⟨v.byte, calls, w⟩ ⟨v'.byte, calls ++ transfersOf o, w₁⟩) ∧
      Follows Move (Shown tgt) os w₁ w' := by
  cases ht with
  | idle ha =>
    obtain ⟨h', hnone⟩ := follows_quiet (Acts.quiet ha) h
    rw [hnone, List.append_nil, ha.packets]
    exact ⟨w, .refl, fun hne => absurd rfl hne, h'⟩
  | @packet p o₁ o₂ byte a hs ha =>
    rw [List.append_assoc, List.append_assoc] at h
    obtain ⟨w₁, hstep, h₁⟩ := served_joint hs h calls
    obtain ⟨h₂, hnone⟩ := follows_quiet (restartObs_quiet _) h₁
    obtain ⟨h₃, hnone'⟩ := follows_quiet (Acts.quiet ha) h₂
    rw [transfersOf_append, transfersOf_append, hnone, hnone', List.append_nil, List.append_nil]
    exact ⟨w₁, hstep.to_reflTransGen, fun _ => hstep, h₃⟩

theorem turns_joint {v v' : View} {o os : List Obs} {w w' : World α} (ht : Turns tgt v o v')
    (h : Follows Move (Shown tgt) (o ++ os) w w') (calls : List (UInt8 × UInt8)) :
    ∃ w₁, ReflTransGen (JointStep tgt) ⟨v.byte, calls, w⟩ ⟨v'.byte, calls ++ transfersOf o, w₁⟩ ∧
      Follows Move (Shown tgt) os w₁ w' := by
  -- induction on the turns, with the calls made so far
  induction ht generalizing w calls with
  | nil v =>
    rw [show transfersOf [] = [] from rfl, List.append_nil]
    exact ⟨w, .refl, h⟩
  | cons hturn _ ih =>
    rw [List.append_assoc] at h
    obtain ⟨w₁, hstep, _, h₁⟩ := turn_joint hturn h calls
    obtain ⟨w₂, hsteps, h₂⟩ := ih h₁ (calls ++ transfersOf _)
    refine ⟨w₂, ?_, h₂⟩
    rw [transfersOf_append, ← List.append_assoc]
    exact hstep.trans hsteps

/-! ## §4. The protocol refines the bus. -/

/-- Only the test's control and the SYNC1s and SYNC2s under way count. -/
theorem InFlight.congr {c : Prog Bus α} {w w' : World α} (h : InFlight c w)
    (hctl : w'.control = w.control)
    (hask : asks (w'.toAdapter ++ w'.out) = asks (w.toAdapter ++ w.out))
    (hans : answers w'.toMaster = answers w.toMaster) : InFlight c w' := by
  cases h with
  | accepting hc ha hr => exact .accepting (hctl.trans hc) (hask.trans ha) (hans.trans hr)
  | idle hc ha hr => exact .idle (hctl.trans hc) (hask.trans ha) (hans.trans hr)
  | asked hc ha hr => exact .asked (hctl.trans hc) (hask.trans ha) (hans.trans hr)
  | answered hc ha hr => exact .answered (hctl.trans hc) (hask.trans ha) (hans.trans hr)
  | lost hc ha hr => exact .lost (hctl.trans hc) (hask.trans ha) (hans.trans hr)

/-- A test between two requests has nothing under way. -/
theorem InFlight.of_run {c c' : Prog Bus α} {w : World α} (h : InFlight c w)
    (hctl : w.control = .run c') :
    c = c' ∧ asks (w.toAdapter ++ w.out) = [] ∧ answers w.toMaster = [] := by
  cases h with
  | idle hc ha hr =>
    rw [hctl] at hc
    injection hc with hc
    exact ⟨hc.symm, ha, hr⟩
  | accepting hc => rw [hctl] at hc; cases hc
  | asked hc => rw [hctl] at hc; cases hc
  | answered hc => rw [hctl] at hc; cases hc
  | lost hc => rw [hctl] at hc; cases hc

/-- A request that only moves the clock leaves nothing under way. -/
theorem inFlight_clock {c k : Prog Bus α} {w w' : World α} {clock : BGBMaster} {now : Int}
    {op : BusOp} (h : InFlight c w) (hctl : w.control = .run c) (hctl' : w'.control = .run k)
    (hout' : w'.out = (request clock now op).1) (hnone : asks (request clock now op).1 = [])
    (hta : w'.toAdapter = w.toAdapter) (htm : w'.toMaster = w.toMaster) : InFlight k w' := by
  obtain ⟨_, ha, hr⟩ := h.of_run hctl
  rw [asks_append, List.append_eq_nil_iff] at ha
  refine .idle hctl' ?_ (by rw [htm, hr])
  rw [asks_append, hout', hnone, hta, ha.1]
  rfl

/-- **A move of the test** is a request to the bus, or none. -/
theorem inFlight_move {c : Prog Bus α} {w w' : World α} (h : InFlight c w) (hm : Move w w')
    (s : BusState) : ∃ t c', Steps busEnv c s t c' s ∧ InFlight c' w' := by
  cases hm with
  | send clock p out ctl ta tm rs =>
    refine ⟨[], c, .refl _ _, h.congr rfl ?_ rfl⟩
    show asks ((ta ++ [p]) ++ out) = asks (ta ++ p :: out)
    rw [List.append_assoc]
    rfl
  | accept clock c' p ta tm rs =>
    cases h with
    | accepting hc ha hr =>
      injection hc with hc
      subst hc
      have hnone : asks (if p = handshake then [handshake, stat] else []) = [] := by
        split <;> rfl
      rw [answers_cons, List.append_eq_nil_iff] at hr
      refine ⟨[], c', .refl _ _, .idle rfl ?_ hr.2⟩
      rw [asks_append, hnone, List.append_nil]
      simpa using ha
    | _ => contradiction
  | transfer clock byte k now ta tm rs =>
    obtain ⟨hc, ha, hr⟩ := h.of_run rfl
    subst hc
    refine ⟨[], _, .refl _ _, .asked rfl ?_ hr⟩
    have ha : asks ta = [] := by simpa using ha
    rw [asks_append, asks_request, ha]
    rfl
  | update clock k now ta tm rs =>
    obtain ⟨hc, _, _⟩ := h.of_run rfl
    subst hc
    have hE : busEnv s .update () s := rfl
    exact ⟨_, _, .tail (.refl _ _) hE,
      inFlight_clock h rfl rfl rfl (asks_request clock now .update) rfl rfl⟩
  | addTime clock off k now ta tm rs =>
    obtain ⟨hc, _, _⟩ := h.of_run rfl
    subst hc
    have hE : busEnv s (.addTime off) () s := rfl
    exact ⟨_, _, .tail (.refl _ _) hE,
      inFlight_clock h rfl rfl rfl (asks_request clock now (.addTime off)) rfl rfl⟩
  | handle clock byte k p ta tm rs =>
    refine ⟨[], c, .refl _ _, ?_⟩
    by_cases hp : p.cmd = BgbCmd.sync2.code
    · -- the answer: the transfer returns, and the bus has made it already
      have h2 : isSync2 p = true := by
        unfold isSync2
        rw [hp]
        rfl
      rw [if_pos hp]
      cases h with
      | answered hc ha hr =>
        injection hc with _ hk
        rw [answers_cons, h2] at hr
        obtain ⟨hr, htm⟩ := List.cons.inj hr
        rw [hk, ← hr]
        exact .idle rfl ha htm
      | accepting hc => cases hc
      | idle hc => cases hc
      | asked hc ha hr =>
        rw [answers_cons, h2] at hr
        cases hr
      | lost hc ha hr =>
        rw [answers_cons, h2] at hr
        cases hr
    · have h2 : isSync2 p = false := by
        unfold isSync2
        exact beq_eq_false_iff_ne.mpr hp
      rw [if_neg hp]
      refine h.congr rfl rfl ?_
      show answers tm = answers (p :: tm)
      rw [answers_cons, h2]
      rfl

/-- The SYNC1 that is handled is the one the test waits on; the transfer is made, and its answer
    is on the way. -/
theorem inFlight_sync1 {c : Prog Bus α} {w : World α} {q a : BgbPacket} {qs : List BgbPacket}
    {byte : UInt8} (h : InFlight c w) (hq : w.toAdapter = q :: qs) (h1 : q.isSync1 = true)
    (h2 : isSync2 a = true) (hb : a.b2 = byte) (calls : List (UInt8 × UInt8)) (r : UInt8) :
    ∃ t c', Steps busEnv c (byte, calls) t c' (r, calls ++ [(q.b2, r)]) ∧
      InFlight c' { w with toAdapter := qs, toMaster := w.toMaster ++ [a] } := by
  have hask : asks (w.toAdapter ++ w.out) = q.b2 :: asks (qs ++ w.out) := by
    rw [hq, List.cons_append, asks_cons, h1]
    rfl
  cases h with
  | @asked b k w hc ha hr =>
    rw [hask] at ha
    obtain ⟨hb', hrest⟩ := List.cons.inj ha
    subst hb'
    have hE : busEnv (byte, calls) (.transfer q.b2) byte (r, calls ++ [(q.b2, r)]) := ⟨rfl, r, rfl⟩
    refine ⟨_, _, .tail (.refl _ _) hE, .answered hc hrest ?_⟩
    rw [answers_append, hr, answers_cons, h2, hb]
    rfl
  | accepting hc ha hr => rw [hask] at ha; cases ha
  | idle hc ha hr => rw [hask] at ha; cases ha
  | answered hc ha hr => rw [hask] at ha; cases ha
  | lost hc ha hr => rw [hask] at ha; cases ha

/-- Any other packet, and anything but a SYNC2, is of no account. -/
theorem inFlight_other {c : Prog Bus α} {w : World α} {q : BgbPacket} {qs as : List BgbPacket}
    (h : InFlight c w) (hq : w.toAdapter = q :: qs) (h1 : q.isSync1 = false)
    (h2 : answers as = []) :
    InFlight c { w with toAdapter := qs, toMaster := w.toMaster ++ as } := by
  refine h.congr rfl ?_ ?_
  · show asks (qs ++ w.out) = _
    rw [hq, List.cons_append, asks_cons, h1]
    rfl
  · show answers (w.toMaster ++ as) = _
    rw [answers_append, h2, List.append_nil]

/-- A packet that is read and not handled: if it is the SYNC1 under way, its answer never
    comes. -/
theorem inFlight_read {c : Prog Bus α} {w : World α} {q : BgbPacket} {qs : List BgbPacket}
    (h : InFlight c w) (hq : w.toAdapter = q :: qs) : InFlight c { w with toAdapter := qs } := by
  cases h1 : q.isSync1 with
  | false =>
    have hother := inFlight_other h hq h1 answers_nil
    rw [List.append_nil] at hother
    exact hother
  | true =>
    have hask : asks (w.toAdapter ++ w.out) = q.b2 :: asks (qs ++ w.out) := by
      rw [hq, List.cons_append, asks_cons, h1]
      rfl
    cases h with
    | asked hc ha hr =>
      rw [hask] at ha
      exact .lost hc (List.cons.inj ha).2 hr
    | accepting hc ha hr => rw [hask] at ha; cases ha
    | idle hc ha hr => rw [hask] at ha; cases ha
    | answered hc ha hr => rw [hask] at ha; cases ha
    | lost hc ha hr => rw [hask] at ha; cases ha

/-- The bus, started with `byte` ready, can have brought the test `c` to where the two ends of the
    link stand. -/
def Coupled (c : Prog Bus α) (byte : UInt8) (j : Joint α) : Prop :=
  ∃ t c', Steps busEnv c (byte, []) t c' (j.byte, j.calls) ∧ InFlight c' j.world

/-- **Simulation.**  Every step of the protocol is a step of the bus, or none. -/
theorem coupled_step {c : Prog Bus α} {byte : UInt8} {j j' : Joint α} (h : Coupled c byte j)
    (hs : JointStep tgt j j') : Coupled c byte j' := by
  obtain ⟨t, c', hsteps, hfly⟩ := h
  cases hs with
  | @master b calls w w' hm =>
    obtain ⟨t', c'', hsteps', hfly'⟩ := inFlight_move hfly hm (b, calls)
    exact ⟨_, _, hsteps.trans hsteps', hfly'⟩
  | @adapter b b' calls w q qs o hq hserved =>
    cases hserved with
    | sync1 hp =>
      rw [recode_isSync1] at hp
      have h2 : isSync2 (recode tgt.byteOrder .little
          ((recode .little tgt.byteOrder q).sync2 b)) = true := by
        rw [isSync2_recode, isSync2_sync2]
      have hb : (recode tgt.byteOrder .little ((recode .little tgt.byteOrder q).sync2 b)).b2 = b := by
        rw [recode_b2]
        rfl
      obtain ⟨t', c'', hsteps', hfly'⟩ := inFlight_sync1 hfly hq hp h2 hb calls b'
      rw [← recode_b2 .little tgt.byteOrder q] at hsteps'
      exact ⟨_, _, hsteps.trans hsteps', hfly'⟩
    | echo hp =>
      have h1 : q.isSync1 = false := by
        rw [← recode_isSync1 .little tgt.byteOrder]
        exact BgbPacket.isSync1_of_isSync3 hp
      have h2 : isSync2 (recode tgt.byteOrder .little (recode .little tgt.byteOrder q)) = false := by
        rw [isSync2_recode]
        exact isSync2_of_isSync3 hp
      refine ⟨t, c', ?_, inFlight_other hfly hq h1 ?_⟩
      · show Steps busEnv c (byte, []) t c' (b, calls ++ [])
        rw [List.append_nil]
        exact hsteps
      · show answers [_] = []
        rw [answers_cons, h2]
        rfl
    | plain hp =>
      rw [recode_isSync1] at hp
      refine ⟨t, c', ?_, inFlight_other hfly hq hp rfl⟩
      show Steps busEnv c (byte, []) t c' (b, calls ++ [])
      rw [List.append_nil]
      exact hsteps

theorem coupled_steps {c : Prog Bus α} {byte : UInt8} {j j' : Joint α} (h : Coupled c byte j)
    (hs : ReflTransGen (JointStep tgt) j j') : Coupled c byte j' := by
  induction hs with
  | refl => exact h
  | tail _ hstep ih => exact coupled_step ih hstep

/-! ## §5. Every run of `main`. -/

/-- Of no account to the bus: everything but a transfer and a SYNC2 that goes out whole. -/
def harmless : Obs → Bool
  | .sent q ok => !ok || !isSync2 q
  | .transfer _ _ => false
  | _ => true

theorem coupled_sent {c : Prog Bus α} {byte : UInt8} {j : Joint α} {a : BgbPacket}
    (h : Coupled c byte j) (h2 : isSync2 a = false) :
    Coupled c byte { j with world := { j.world with toMaster := j.world.toMaster ++ [a] } } := by
  obtain ⟨t, c', hsteps, hfly⟩ := h
  refine ⟨t, c', hsteps, hfly.congr rfl rfl ?_⟩
  show answers (j.world.toMaster ++ [a]) = _
  rw [answers_append, answers_cons, h2]
  simp

theorem coupled_harmless {c : Prog Bus α} {byte b : UInt8} {calls : List (UInt8 × UInt8)}
    {o os : List Obs} {w w' : World α} (ho : ∀ e ∈ o, harmless e = true)
    (h : Coupled c byte ⟨b, calls, w⟩) (hf : Follows Move (Shown tgt) (o ++ os) w w') :
    transfersOf o = [] ∧
      ∃ w₁, Coupled c byte ⟨b, calls, w₁⟩ ∧ Follows Move (Shown tgt) os w₁ w' := by
  -- item by item; what an item does to the world keeps the bus where it is
  induction o generalizing w with
  | nil => exact ⟨rfl, w, h, hf⟩
  | cons e o ih =>
    have he := ho e List.mem_cons_self
    obtain ⟨w₁, w₂, hm, hs, hf⟩ := follows_cons.mp hf
    have h₁ : Coupled c byte ⟨b, calls, w₁⟩ := coupled_steps h (joint_moves tgt hm)
    have h₂ : Coupled c byte ⟨b, calls, w₂⟩ := by
      cases e with
      | packet p =>
        obtain ⟨q, qs, hq, _, hw⟩ := hs
        obtain ⟨t, c', hsteps, hfly⟩ := h₁
        rw [hw]
        exact ⟨t, c', hsteps, inFlight_read hfly hq⟩
      | sent q ok =>
        have hs : w₂ = if ok then _ else w₁ := hs
        cases ok with
        | false =>
          rw [if_neg (by decide)] at hs
          rw [hs]
          exact h₁
        | true =>
          rw [if_pos rfl] at hs
          have h2 : isSync2 q = false := by simpa [harmless] using he
          rw [hs]
          exact coupled_sent h₁ (by rw [isSync2_recode, h2])
      | transfer c r => cases he
      | _ =>
        have hs : w₂ = w₁ := hs
        rw [hs]
        exact h₁
    obtain ⟨hnone, hrest⟩ := ih (fun e' h' => ho e' (List.mem_cons_of_mem _ h')) h₂ hf
    refine ⟨?_, hrest⟩
    cases e <;> first | exact hnone | cases he

theorem handshake_harmless {ok : Bool} {o : List Obs} {rs : List (Option (List UInt8))}
    (h : Handshake tgt.byteOrder ok o rs) : ∀ e ∈ o, harmless e = true := by
  have hsent : isSync2 handshake = false ∧ isSync2 greeting = false := ⟨rfl, rfl⟩
  cases h with
  | @status p hp ok =>
    have hun : isSync2 (unpause p) = false := rfl
    simp [harmless, hsent, hun]
  | _ => simp [harmless, hsent]

theorem lost_harmless {byte : UInt8} {o : List Obs} (h : Lost byte o) :
    ∀ e ∈ o, harmless e = true := by
  rcases h with h | ⟨p, o', h, ⟨_, h'⟩ | ⟨q, _, h'⟩⟩ <;> subst h
  · simp
  · subst h'
    simp [harmless]
  · subst h'
    simp [harmless]

/-- After the handshake: everything `main` can show keeps the bus in step. -/
theorem mainObs_coupled {c : Prog Bus α} {o : List Obs} {w w' : World α} (ho : MainObs tgt o)
    (hf : Follows Move (Shown tgt) o w w')
    (h : Coupled c tgt.serialIdleByte ⟨tgt.serialIdleByte, [], w⟩) :
    ∃ byte, Coupled c tgt.serialIdleByte ⟨byte, transfersOf o, w'⟩ := by
  -- the end of a run: nothing is shown any more, only the test moves
  have hend : ∀ {b : UInt8} {calls : List (UInt8 × UInt8)} {w : World α},
      Coupled c tgt.serialIdleByte ⟨b, calls, w⟩ → Follows Move (Shown tgt) [] w w' →
      Coupled c tgt.serialIdleByte ⟨b, calls, w'⟩ := fun h hf =>
    coupled_steps h (joint_moves tgt (follows_nil.mp hf))
  cases ho with
  | lost hl =>
    rw [← List.append_nil o] at hf
    obtain ⟨hnone, w₁, h₁, hf₁⟩ := coupled_harmless (lost_harmless hl) h hf
    rw [hnone]
    exact ⟨_, hend h₁ hf₁⟩
  | first hs =>
    rw [← List.append_nil o] at hf
    obtain ⟨w₁, hstep, hf₁⟩ := served_joint hs hf []
    exact ⟨_, hend (coupled_steps h hstep.to_reflTransGen) hf₁⟩
  | @looping p o₀ o byte v hs ht =>
    obtain ⟨w₁, hstep, hf₁⟩ := served_joint hs hf []
    have hf₂ := (follows_quiet (o := [.start]) (by simp [quiet]) hf₁).1
    rw [← List.append_nil o] at hf₂
    obtain ⟨w₂, hsteps, hf₃⟩ := turns_joint ht hf₂ (transfersOf o₀)
    rw [transfersOf_append]
    exact ⟨_, hend (coupled_steps h (hstep.to_reflTransGen.trans hsteps)) hf₃⟩
  | @exited p o₀ o o' byte v hs ht hl =>
    have hlist : o₀ ++ .start :: (o ++ o') ++ [.stop] = o₀ ++ .start :: (o ++ (o' ++ [.stop])) := by
      simp
    rw [hlist] at hf ⊢
    obtain ⟨w₁, hstep, hf₁⟩ := served_joint hs hf []
    have hf₂ := (follows_quiet (o := [.start]) (by simp [quiet]) hf₁).1
    obtain ⟨w₂, hsteps, hf₃⟩ := turns_joint ht hf₂ (transfersOf o₀)
    have h₂ := coupled_steps h (hstep.to_reflTransGen.trans hsteps)
    obtain ⟨hnone, w₃, h₃, hf₄⟩ := coupled_harmless (lost_harmless hl) h₂ hf₃
    have hf₅ := (follows_quiet (o := [.stop]) (by simp [quiet]) hf₄).1
    have hcalls : transfersOf (o₀ ++ .start :: (o ++ (o' ++ [.stop]))) = transfersOf o₀ ++ transfersOf o := by
      have hstart : transfersOf (.start :: (o ++ (o' ++ [.stop]))) = transfersOf (o ++ (o' ++ [.stop])) := rfl
      have hstop : transfersOf [.stop] = [] := rfl
      rw [transfersOf_append, hstart, transfersOf_append, transfersOf_append, hnone, hstop]
      simp
    rw [hcalls]
    exact ⟨_, hend h₃ hf₅⟩

/-- **The link is an atomic bus.**  Let `main` run at one end of the link and any test at the other,
    interleaved in any way, with any failures of the adapter's sends and receives.  Then the bus
    can have brought the test to where it stands (`Pending`), with the very calls of
    `mobile_transfer` that `main` made: each byte transferred was handed to `mobile_transfer`
    exactly once, in order, the first transfer returned the idle byte and each later one the result
    of the call before it. -/
theorem main_atomic_bus {bgbSock : SOCKET} {n m : Nat} {e : MainEnd} {t : Trace (Sys tgt)}
    {clock : BGBMaster} {c : Prog Bus α} {w' : World α}
    (h : Exec (linkEnv tgt) (mainProg bgbSock n m) (World.start clock c) t e w') :
    ∃ tb c' byte', Steps busEnv c (tgt.serialIdleByte, []) tb c' (byte', transfersOf (obsOf t)) ∧
      Pending c' w' ∧
      (transferred tb).map Prod.fst = (transfersOf (obsOf t)).map Prod.fst ∧
      (transferred tb).map Prod.snd ++ [byte']
        = tgt.serialIdleByte :: (transfersOf (obsOf t)).map Prod.snd := by
  have hf := linkEnv_follows h
  obtain ⟨oh, o, ok, rs, ho, hshake, hfail, hmain⟩ := exec_mainProg h
  have h0 : Coupled c tgt.serialIdleByte ⟨tgt.serialIdleByte, [], World.start clock c⟩ :=
    ⟨[], c, .refl _ _, .accepting rfl rfl rfl⟩
  rw [ho] at hf ⊢
  obtain ⟨hnone, w₁, h₁, hf₁⟩ := coupled_harmless (handshake_harmless hshake) h0 hf
  obtain ⟨byte', tb, c', hsteps, hfly⟩ := mainObs_coupled hmain hf₁ h₁
  rw [transfersOf_append, hnone, List.nil_append]
  exact ⟨tb, c', byte', hsteps, hfly.pending, bus_transferred hsteps⟩

/-- A test that transfers two bytes. -/
def twoBytes : Prog Bus (UInt8 × UInt8) := do
  let a ← Prog.ask (S := Bus) (.transfer 0x99)
  let b ← Prog.ask (S := Bus) (.transfer 0x66)
  return (a, b)

/-- `main` against it, with a libmobile that returns what it is given. -/
def twoBytesRun : Trace (Sys host) × MainEnd × World (UInt8 × UInt8) :=
  (mainProg 3 2 3).run (linkServe 0x100) (.start ⟨0x100, 0⟩ twoBytes)

theorem exec_twoBytesRun : Exec (linkEnv host) (mainProg 3 2 3) (.start ⟨0x100, 0⟩ twoBytes)
    twoBytesRun.1 twoBytesRun.2.1 twoBytesRun.2.2 := exec_run (linkEnv_serve 0x100) _ _

/-- There the transfers return the idle byte and the first byte. -/
theorem main_atomic_bus_twoBytes :
    transfersOf (obsOf twoBytesRun.1) = [(0x99, 0x99), (0x66, 0x66)] ∧
      ∃ tb c' byte', Steps busEnv twoBytes (0xD2, []) tb c' (byte', [(0x99, 0x99), (0x66, 0x66)]) ∧
        Pending c' twoBytesRun.2.2 ∧ (transferred tb).map Prod.fst = [0x99, 0x66] ∧
        (transferred tb).map Prod.snd ++ [byte'] = [0xD2, 0x99, 0x66] := by
  have hcalls : transfersOf (obsOf twoBytesRun.1) = [(0x99, 0x99), (0x66, 0x66)] := by
    decide +kernel
  have hbus := main_atomic_bus exec_twoBytesRun
  rw [hcalls] at hbus
  exact ⟨hcalls, hbus⟩

end MobileBgb.Session
