/-
  MobileBgb.Session.Opening — both ends open the link.

  `bgb_init` sends its version and waits for the other one; `accept` waits for a
  version and then sends its own and a status.  `Opened R pre w` says how far the two
  have come: the test has left `accept`, and the packets that are under way to the
  adapter are `pre` and then requests of the test, which may already have begun.  What
  is known of these is the parameter `R`, a property that every request keeps.

  `init_meets_accept` is the handshake as a whole: on a link that loses nothing it
  succeeds however the two are interleaved, and neither ever waits for a packet that
  does not come.
-/
import MobileBgb.Session.Master
import MobileBgb.Link.Greeting
import MobileBgb.Effect.Wp

namespace MobileBgb.Session

open MobileBgb.Effect
open MobileBgb.System
open MobileBgb.Link
open MobileBgb.Main
open Relation

variable {tgt : Target} {α U : Type}

/-! ## §1. What is under way. -/

/-- A property of the master's clock, its readings so far and the requests under way to the
    adapter that every further request keeps. -/
structure Requests where
  Holds : BGBMaster → List (Nat × Nat) → List BgbPacket → Prop
  request : ∀ clock now op rs ps, Holds clock rs ps →
    Holds (request clock now op).2 (rs ++ [reading clock now op]) (ps ++ (request clock now op).1)

theorem known_sync3 (ts : Nat) : (BGBMaster.sync3 ts).known = true := rfl

theorem known_request (clock : BGBMaster) (now : Int) (op : BusOp) :
    ∀ p ∈ (request clock now op).1, p.known = true := by
  -- the steps of the clock, then the packet itself
  have hsteps : ∀ (ts : List Nat) (q : BgbPacket), q.known = true →
      ∀ p ∈ ts.map BGBMaster.sync3 ++ [q], p.known = true := by
    intro ts q hq p hp
    rcases List.mem_append.mp hp with hp | hp
    · obtain ⟨t, _, ht⟩ := List.mem_map.mp hp
      rw [← ht]
      exact known_sync3 t
    · rw [List.mem_singleton.mp hp]
      exact hq
  cases op with
  | transfer byte => exact hsteps _ _ rfl
  | update => exact hsteps _ _ rfl
  | addTime off => exact hsteps _ _ rfl

/-- The requests are packets that `bgb_loop` knows. -/
def knownRequests : Requests where
  Holds _ _ ps := ∀ p ∈ ps, p.known = true
  request clock now op rs ps h := by
    intro p hp
    rcases List.mem_append.mp hp with hp | hp
    · exact h p hp
    · exact known_request clock now op p hp

/-- The test has left `accept`; `pre` is to be read first, and after it the requests. -/
structure Opened (R : Requests) (pre : List BgbPacket) (w : World α) : Prop where
  accepted : ∀ c, w.control ≠ .accept c
  queue : ∃ rest, w.toAdapter ++ w.out = pre ++ rest ∧ R.Holds w.clock w.readings rest

section Opened

variable {R : Requests} {pre : List BgbPacket} {w w' : World α}

/-- A request adds to the end of the queue. -/
theorem opened_request {now : Int} {op : BusOp} (h : Opened R pre w) (hout : w.out = [])
    (hta : w'.toAdapter = w.toAdapter) (hout' : w'.out = (request w.clock now op).1)
    (hclock : w'.clock = (request w.clock now op).2)
    (hrs : w'.readings = w.readings ++ [reading w.clock now op])
    (hctl : ∀ c, w'.control ≠ .accept c) : Opened R pre w' := by
  obtain ⟨rest, hq, hR⟩ := h.queue
  rw [hout, List.append_nil] at hq
  refine ⟨hctl, rest ++ (request w.clock now op).1, ?_, ?_⟩
  · rw [hta, hout', hq, List.append_assoc]
  · rw [hclock, hrs]
    exact R.request _ _ _ _ _ hR

theorem opened_move (h : Opened R pre w) (hm : Move w w') : Opened R pre w' := by
  cases hm with
  | send clock p out ctl ta tm rs =>
    obtain ⟨rest, hq, hR⟩ := h.queue
    refine ⟨h.accepted, rest, ?_, hR⟩
    rw [← hq]
    show (ta ++ [p]) ++ out = ta ++ p :: out
    rw [List.append_assoc]
    rfl
  | accept clock c p ta tm rs => exact absurd rfl (h.accepted c)
  | transfer clock byte k now ta tm rs =>
    exact opened_request h rfl rfl rfl rfl rfl fun _ hc => nomatch hc
  | update clock k now ta tm rs =>
    exact opened_request h rfl rfl rfl rfl rfl fun _ hc => nomatch hc
  | addTime clock off k now ta tm rs =>
    exact opened_request h rfl rfl rfl rfl rfl fun _ hc => nomatch hc
  | handle clock byte k p ta tm rs =>
    refine ⟨?_, h.queue⟩
    intro c hc
    have hc : (if p.cmd = BgbCmd.sync2.code then Control.run (k p.b2) else .wait byte k)
        = .accept c := hc
    split at hc <;> cases hc

theorem opened_moves (h : Opened R pre w) (hm : ReflTransGen Move w w') : Opened R pre w' := by
  induction hm with
  | refl => exact h
  | tail _ hstep ih => exact opened_move ih hstep

/-- Packets for the master change nothing on this side. -/
theorem opened_sent (h : Opened R pre w) (tm : List BgbPacket) :
    Opened R pre { w with toMaster := tm } :=
  ⟨h.accepted, h.queue⟩

/-- The next packet read is the first of `pre`. -/
theorem opened_read {p q : BgbPacket} {qs : List BgbPacket} (h : Opened R (p :: pre) w)
    (hq : w.toAdapter = q :: qs) : q = p ∧ Opened R pre { w with toAdapter := qs } := by
  obtain ⟨rest, hqueue, hR⟩ := h.queue
  rw [hq] at hqueue
  obtain ⟨hhead, htail⟩ := List.cons.inj hqueue
  exact ⟨hhead, h.accepted, rest, htail, hR⟩

/-- Once `pre` is read, the next one is the first of the requests. -/
theorem opened_next {R' : Requests} {q : BgbPacket} {qs : List BgbPacket} (h : Opened R [] w)
    (hq : w.toAdapter = q :: qs)
    (hnext : ∀ ps, R.Holds w.clock w.readings (q :: ps) → R'.Holds w.clock w.readings ps) :
    Opened R' [] { w with toAdapter := qs } := by
  obtain ⟨rest, hqueue, hR⟩ := h.queue
  rw [hq, List.nil_append] at hqueue
  rw [← hqueue] at hR
  exact ⟨h.accepted, qs ++ w.out, rfl, hnext _ hR⟩

theorem opened_known {q : BgbPacket} {qs : List BgbPacket} (h : Opened knownRequests [] w)
    (hq : w.toAdapter = q :: qs) :
    q.known = true ∧ Opened knownRequests [] { w with toAdapter := qs } := by
  constructor
  · obtain ⟨rest, hqueue, hR⟩ := h.queue
    rw [hq, List.nil_append] at hqueue
    exact hR q (hqueue ▸ List.mem_cons_self)
  · exact opened_next h hq fun ps hps p hp => hps p (List.mem_cons_of_mem _ hp)

end Opened

/-- The test is still in `accept`, and `tm` is on its way to it. -/
structure Unopened (R : Requests) (tm : List BgbPacket) (w : World α) : Prop where
  accepting : ∃ c, w.control = .accept c
  out : w.out = []
  toAdapter : w.toAdapter = []
  toMaster : w.toMaster = tm
  holds : R.Holds w.clock w.readings []

/-- Our version is out: the test has not read it yet, or it has answered. -/
def Greeted (R : Requests) (w : World α) : Prop :=
  Unopened R [handshake] w ∨ Opened R [handshake, stat] w

section Unopened

variable {R : Requests} {w w' : World α}

theorem unopened_start {clock : BGBMaster} (h : R.Holds clock [] []) (c : Prog Bus α) :
    Unopened R [] (.start clock c) :=
  ⟨⟨c, rfl⟩, rfl, rfl, rfl, h⟩

/-- Before our version is out the test does not move. -/
theorem unopened_moves (h : Unopened R [] w) (hm : ReflTransGen Move w w') : w' = w := by
  -- the first move would have to read a packet that is not there
  have hstuck : ∀ w₁, ¬ Move w w₁ := by
    intro w₁ hm
    obtain ⟨⟨c, hc⟩, hout, _, htm, _⟩ := h
    cases hm with
    | send => cases hout
    | accept => cases htm
    | transfer => cases hc
    | update => cases hc
    | addTime => cases hc
    | handle => cases hc
  cases hm.cases_head with
  | inl h => exact h.symm
  | inr h =>
    obtain ⟨w₁, hstep, _⟩ := h
    exact absurd hstep (hstuck w₁)

/-- `accept` has read our version. -/
theorem opened_accept {clock : BGBMaster} {rs : List (Nat × Nat)} (h : R.Holds clock rs [])
    (c : Prog Bus α) (tm : List BgbPacket) :
    Opened R [handshake, stat] ⟨clock, [handshake, stat], .run c, [], tm, rs⟩ :=
  ⟨(fun _ hc => nomatch hc), [], rfl, h⟩

theorem greeted_move (h : Greeted R w) (hm : Move w w') : Greeted R w' := by
  rcases h with h | h
  · obtain ⟨⟨c, hc⟩, hout, hta, htm, hR⟩ := h
    cases hm with
    | accept clock c' p ta tm rs =>
      -- the version is the one it expects
      obtain ⟨hp, _⟩ := List.cons.inj htm
      have hta : ta = [] := hta
      rw [hp, if_pos rfl, hta]
      exact Or.inr (opened_accept hR ..)
    | send => cases hout
    | transfer => cases hc
    | update => cases hc
    | addTime => cases hc
    | handle => cases hc
  · exact Or.inr (opened_move h hm)

theorem greeted_moves (h : Greeted R w) (hm : ReflTransGen Move w w') : Greeted R w' := by
  induction hm with
  | refl => exact h
  | tail _ hstep ih => exact greeted_move ih hstep

/-- So a packet that is read is the other version, and the status comes next. -/
theorem greeted_read {q : BgbPacket} {qs : List BgbPacket} (h : Greeted R w)
    (hq : w.toAdapter = q :: qs) : q = handshake ∧ Opened R [stat] { w with toAdapter := qs } := by
  rcases h with h | h
  · rw [h.toAdapter] at hq
    cases hq
  · exact opened_read h hq

end Unopened

/-! ## §2. A packet will come. -/

/-- What is queued first gets to the adapter's end of the channel. -/
theorem opened_arrives {R : Requests} {p : BgbPacket} {pre : List BgbPacket} {w : World α}
    (h : Opened R (p :: pre) w) :
    ∃ w₁ q qs, ReflTransGen Move w w₁ ∧ w₁.toAdapter = q :: qs := by
  obtain ⟨rest, hqueue, _⟩ := h.queue
  obtain ⟨clock, out, ctl, ta, tm, rs⟩ := w
  cases ta with
  | cons q qs => exact ⟨_, q, qs, .refl, rfl⟩
  | nil =>
    -- it is still to be sent
    cases out with
    | nil => cases hqueue
    | cons q out => exact ⟨_, q, [], .single (.send ..), rfl⟩

theorem greeted_arrives {R : Requests} {w : World α} (h : Greeted R w) :
    ∃ w₁ q qs, ReflTransGen Move w w₁ ∧ w₁.toAdapter = q :: qs := by
  rcases h with h | h
  · -- the test reads our version, answers it, and sends
    obtain ⟨⟨c, hc⟩, hout, hta, htm, hR⟩ := h
    obtain ⟨clock, out, ctl, ta, tm, rs⟩ := w
    have hc : ctl = .accept c := hc
    have hout : out = [] := hout
    have hta : ta = [] := hta
    have htm : tm = [handshake] := htm
    subst hc hout hta htm
    obtain ⟨w₂, q, qs, hms, hq⟩ := opened_arrives (opened_accept hR c [])
    exact ⟨w₂, q, qs, .head (.accept ..) hms, hq⟩
  · exact opened_arrives h

/-! ## §3. The handshake. -/

/-- A link that loses nothing: no `recv` and no `send` fails. -/
def reliable (tgt : Target) : Env (Sys tgt) (World α) := fun w op ans w' =>
  serves tgt w op ans w' ∧
    match op, ans with
    | .recv _ _, none => False
    | .send _ _, none => False
    | _, _ => True

/-- The reliable link with a test at its other end. -/
def reliableEnv (tgt : Target) : Env (Sys tgt) (World α) := interleaved Move (reliable tgt)

section Wp

variable {socket : SOCKET} {w : World α}

/-- A packet goes out whole. -/
theorem wp_bgbSend {q : BgbPacket} {Q : Trace (Sys tgt) → Bool → World α → Prop}
    (hQ : ∀ t w₁ w', obsOf t = [.sent q true] → ReflTransGen Move w w₁ →
      ReflTransGen Move
        { w₁ with toMaster := w₁.toMaster ++ [recode tgt.byteOrder .little q] } w' → Q t true w') :
    wp (reliableEnv tgt) (Answerable (reliableEnv tgt)) (bgbSend socket q) Q w := by
  unfold bgbSend
  rw [wp_ask_bind]
  constructor
  · exact ⟨some packetSize, _, interleaved_of ⟨⟨⟨q, rfl⟩, rfl, rfl⟩, trivial⟩⟩
  · intro x w₁ hE
    obtain ⟨w₂, w₃, hm, ⟨hserve, hsome⟩, hm'⟩ := hE
    cases x with
    | none => exact absurd hsome id
    | some n =>
      obtain ⟨_, hn, hw₃⟩ := hserve
      subst hn hw₃
      refine hQ _ w₂ w₁ ?_ hm hm'
      have htaken : allTaken (q.toBytes tgt.byteOrder) (some packetSize) = true := by
        unfold allTaken
        rw [BgbPacket.toBytes_length]
        rfl
      show [Obs.sent (.ofBytes tgt.byteOrder (q.toBytes tgt.byteOrder)) _] = _
      rw [htaken, BgbPacket.ofBytes_toBytes]

/-- The next packet comes in, when one is under way. -/
theorem wp_bgbRecv {Q : Trace (Sys tgt) → Option BgbPacket → World α → Prop}
    (hready : ∃ w₁ q qs, ReflTransGen Move w w₁ ∧ w₁.toAdapter = q :: qs)
    (hQ : ∀ t w₁ q qs w', obsOf t = [.packet (recode .little tgt.byteOrder q)] →
      ReflTransGen Move w w₁ → w₁.toAdapter = q :: qs →
      ReflTransGen Move { w₁ with toAdapter := qs } w' →
      Q t (some (recode .little tgt.byteOrder q)) w') :
    wp (reliableEnv tgt) (Answerable (reliableEnv tgt)) (bgbRecv socket) Q w := by
  unfold bgbRecv
  rw [wp_ask_bind]
  constructor
  · obtain ⟨w₁, q, qs, hm, hq⟩ := hready
    exact ⟨some (q.toBytes .little), _, w₁, _, hm, ⟨⟨q, qs, hq, rfl, rfl⟩, trivial⟩, .refl⟩
  · intro x w₁ hE
    obtain ⟨w₂, w₃, hm, ⟨hserve, hsome⟩, hm'⟩ := hE
    cases x with
    | none => exact absurd hsome id
    | some buf =>
      obtain ⟨q, qs, hq, hbuf, hw₃⟩ := hserve
      subst hw₃
      have hlen : buf.length = packetSize := by
        rw [hbuf]
        exact BgbPacket.toBytes_length _ _
      have hpacket : BgbPacket.ofBytes tgt.byteOrder buf = recode .little tgt.byteOrder q := by
        rw [hbuf]
        rfl
      show Q _ (if buf.length = packetSize then _ else none) _
      rw [if_pos hlen, hpacket]
      refine hQ _ w₂ q qs w₁ ?_ hm hq hm'
      show (if buf.length = packetSize then
        some (Obs.packet (.ofBytes tgt.byteOrder buf)) else none).toList = _
      rw [if_pos hlen, hpacket]
      rfl

end Wp

theorem recode_stat (a b : ByteOrder) : recode a b stat = stat := by
  cases a <;> cases b <;> decide

/-- The version is out: `accept` may answer it. -/
theorem greeted_sent {R : Requests} {w w₁ w' : World α} (h : Unopened R [] w) (hm : ReflTransGen Move w w₁)
    (hm' : ReflTransGen Move
      { w₁ with toMaster := w₁.toMaster ++ [recode tgt.byteOrder .little handshake] } w') :
    Greeted R w' := by
  have hw := unopened_moves h hm
  subst hw
  refine greeted_moves (Or.inl ?_) hm'
  refine ⟨h.accepting, h.out, h.toAdapter, ?_, h.holds⟩
  show w₁.toMaster ++ [recode tgt.byteOrder .little handshake] = [handshake]
  rw [h.toMaster, recode_handshake]
  rfl

/-- **The handshake.**  `bgb_init` at one end of a reliable link and `accept` at the other, with any
    test after it, interleaved in any way: whenever `bgb_init` waits for a packet one can come, it
    returns `true`, having sent its version and its two statuses and read the other version and
    status; the test has left `accept`, and all that is left on the link are its requests. -/
theorem init_meets_accept (socket : SOCKET) (initByte : UInt8)
    (cbt : Option (U → UInt8 → Prog (Sys tgt) (UInt8 × U)))
    (cbs : Option (U → UInt32 → Prog (Sys tgt) U)) (clock : BGBMaster) (c : Prog Bus α) :
    wp (reliableEnv tgt) (Answerable (reliableEnv tgt)) (bgbInit socket initByte cbt cbs)
      (fun t r w' => r = (true, BgbState.start socket initByte cbt cbs) ∧
        obsOf t = [.sent handshake true, .packet handshake, .sent greeting true, .packet stat,
          .sent resume true] ∧ Opened knownRequests [] w')
      (World.start clock c) := by
  unfold bgbInit
  -- our version goes out
  apply wp_bind
  apply wp_bgbSend
  intro t₁ w₁ w₂ ho₁ hm₁ hm₂
  have hnone : knownRequests.Holds clock [] [] := fun _ hp => nomatch hp
  have hgreeted := greeted_sent (unopened_start hnone c) hm₁ hm₂
  rw [if_neg (by decide)]
  -- theirs comes in
  apply wp_bind
  apply wp_bgbRecv (greeted_arrives hgreeted)
  intro t₂ w₃ q qs w₄ ho₂ hm₃ hq hm₄
  obtain ⟨hversion, hopen⟩ := greeted_read (greeted_moves hgreeted hm₃) hq
  have hopen := opened_moves hopen hm₄
  rw [hversion, recode_handshake] at ho₂ ⊢
  dsimp only
  rw [if_neg (by decide)]
  -- the first status goes out
  apply wp_bind
  apply wp_bgbSend
  intro t₃ w₅ w₆ ho₃ hm₅ hm₆
  have hopen := opened_moves (opened_sent (opened_moves hopen hm₅) _) hm₆
  rw [if_neg (by decide)]
  -- theirs comes in
  apply wp_bind
  apply wp_bgbRecv (opened_arrives hopen)
  intro t₄ w₇ q' qs' w₈ ho₄ hm₇ hq' hm₈
  obtain ⟨hstat, hopen⟩ := opened_read (opened_moves hopen hm₇) hq'
  have hopen := opened_moves hopen hm₈
  rw [hstat, recode_stat] at ho₄ ⊢
  dsimp only
  rw [if_neg (by decide)]
  -- the second status goes out
  apply wp_bind
  apply wp_bgbSend
  intro t₅ w₉ w₁₀ ho₅ hm₉ hm₁₀
  rw [if_neg (by decide)]
  refine ⟨rfl, ?_, opened_moves (opened_sent (opened_moves hopen hm₉) _) hm₁₀⟩
  simp only [obsOf_append, ho₁, ho₂, ho₃, ho₄, ho₅, obsOf_nil]
  rfl

end MobileBgb.Session
