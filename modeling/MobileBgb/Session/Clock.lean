/-
  MobileBgb.Session.Clock — a session without resets.

  The adapter takes a jump of the emulator's clock by more than 0x1000 for a reset.
  The master sends its time in steps, so that no such jump is ever seen: the packets
  under way are PACED, each at most 0x1000 ahead of the one before it, from the
  adapter's clock up to the master's.

  One request goes wrong when the 31-bit clock wraps between two readings that are
  far apart (see `master_update_iff`).  In every other session, whatever the test and
  however the two are interleaved, the adapter is never reset.
-/
import MobileBgb.Session.Progress

namespace MobileBgb.Session

open MobileBgb.Effect
open MobileBgb.System
open MobileBgb.Link
open MobileBgb.Main
open Relation

variable {tgt : Target} {α : Type}

/-! ## §1. Paced packets. -/

/-- On the 31-bit circle `b` is ahead of `a` by at most one step. -/
def Near (a b : Nat) : Prop :=
  a < 2 ^ 31 ∧ b < 2 ^ 31 ∧ (a ≤ b ∧ b ≤ a + 0x1000 ∨ b + 2 ^ 31 ≤ a + 0x1000)

/-- From the time `last`, the packets bring the clock to `cur` without a jump. -/
def Paced : Nat → List BgbPacket → Nat → Prop
  | last, [], cur => last = cur
  | last, p :: ps, cur =>
      p.timestamped = true ∧ Near last p.timestamp.toNat ∧ Paced p.timestamp.toNat ps cur

theorem paced_cons {last cur : Nat} {p : BgbPacket} {ps : List BgbPacket}
    (hp : p.timestamped = true) (hnear : Near last p.timestamp.toNat)
    (h : Paced p.timestamp.toNat ps cur) : Paced last (p :: ps) cur := ⟨hp, hnear, h⟩

theorem paced_append {last mid cur : Nat} {ps qs : List BgbPacket} (h : Paced last ps mid)
    (h' : Paced mid qs cur) : Paced last (ps ++ qs) cur := by
  induction ps generalizing last with
  | nil =>
    have hlast : last = mid := h
    rw [hlast]
    exact h'
  | cons p ps ih => exact ⟨h.1, h.2.1, ih h.2.2⟩

/-- A reading that does not jump: the clock went forward, or it wrapped within one step. -/
def Steady (r : Nat × Nat) : Prop := r.1 ≤ r.2 ∨ r.2 + 2 ^ 31 ≤ r.1 + 0x1000

instance (r : Nat × Nat) : Decidable (Steady r) := inferInstanceAs (Decidable (_ ∨ _))

theorem getTime_lt (clock : BGBMaster) : clock.getTime < 2 ^ 31 := by
  unfold BGBMaster.getTime
  have hpos : (0 : Int) < 2 ^ 31 := by decide
  have hlt := Int.emod_lt_of_pos (clock.time + clock.timeoffset) hpos
  have hge := Int.emod_nonneg (clock.time + clock.timeoffset) (ne_of_gt hpos)
  omega

/-- The last packet of a request, when the clock is within one step of it. -/
theorem paced_last {a b : Nat} {p : BgbPacket} (hp : p.timestamped = true)
    (hts : p.timestamp = UInt32.ofNat b) (h : Near a b) : Paced a [p] b := by
  have hb : p.timestamp.toNat = b := by
    rw [hts]
    exact toNat_ofNat_lt h.2.1
  exact ⟨hp, by rw [hb]; exact h, hb⟩

theorem sync3_timestamp (ts : Nat) : (BGBMaster.sync3 ts).timestamp = UInt32.ofNat ts := rfl

/-- The loop of `forward_time`, then the packet with the time itself. -/
theorem paced_forward {old cur : Nat} {p : BgbPacket} (hold : old < 2 ^ 31) (hcur : cur < 2 ^ 31)
    (hp : p.timestamped = true) (hts : p.timestamp = UInt32.ofNat cur) (h : Steady (old, cur)) :
    Paced old ((BGBMaster.forwardSteps old cur).map BGBMaster.sync3 ++ [p]) cur := by
  -- along the recursion of the loop
  induction old using BGBMaster.forwardSteps.induct cur with
  | case1 old hlt ih =>
    rw [BGBMaster.forwardSteps, if_pos hlt, List.map_cons, List.cons_append]
    have hts : (BGBMaster.sync3 (old + 0x1000)).timestamp.toNat = old + 0x1000 := by
      rw [sync3_timestamp]
      exact toNat_ofNat_lt (by omega)
    refine paced_cons rfl ?_ ?_
    · rw [hts]
      exact ⟨hold, by omega, Or.inl ⟨by omega, by omega⟩⟩
    · rw [hts]
      exact ih (by omega) (Or.inl (by show old + 0x1000 ≤ cur; omega))
  | case2 old hlt =>
    rw [BGBMaster.forwardSteps, if_neg hlt]
    refine paced_last hp hts ⟨hold, hcur, ?_⟩
    have h : old ≤ cur ∨ cur + 2 ^ 31 ≤ old + 0x1000 := h
    omega

/-- **Every request is paced**, from the master's clock before it to that after it. -/
theorem paced_request (clock : BGBMaster) (now : Int) (op : BusOp)
    (h : Steady (reading clock now op)) :
    Paced clock.getTime (request clock now op).1 (request clock now op).2.getTime := by
  cases op with
  | transfer byte => exact paced_forward (getTime_lt _) (getTime_lt _) rfl rfl h
  | update => exact paced_forward (getTime_lt _) (getTime_lt _) rfl rfl h
  | addTime off => exact paced_forward (getTime_lt _) (getTime_lt _) rfl rfl h

/-- The requests under way are paced from the time `last`, if no reading jumped. -/
def pacedRequests (last : Nat) : Requests where
  Holds clock rs ps := (∀ r ∈ rs, Steady r) → Paced last ps clock.getTime
  request clock now op rs ps h := by
    intro hsteady
    refine paced_append (h fun r hr => hsteady r (List.mem_append_left _ hr)) ?_
    exact paced_request clock now op (hsteady _ (List.mem_append_right _ (List.mem_singleton.mpr rfl)))

/-! ## §2. The adapter keeps pace. -/

/-- A timestamp within one step is followed, and no reset is asked for. -/
theorem follow_near {clock ts : UInt32} (h : Near clock.toNat ts.toNat) :
    clockNext clock ts = ts ∧ asksReset clock ts = false := by
  obtain ⟨hclock, hts, hnear⟩ := h
  have hdist : ahead31 clock ts = ((ts.toNat : Int) - clock.toNat) % 2 ^ 31 := rfl
  constructor
  · unfold clockNext
    rw [if_neg]
    rw [wentBack_iff, hdist]
    omega
  · rw [← Bool.not_eq_true, asksReset_iff, hdist]
    omega

/-- Readings of the clock are only added. -/
theorem readings_moves {w w' : World α} (h : ReflTransGen Move w w') : w.readings <+: w'.readings := by
  induction h with
  | refl => exact List.prefix_rfl
  | tail _ hm ih =>
    refine ih.trans ?_
    cases hm with
    | transfer => exact List.prefix_append _ _
    | update => exact List.prefix_append _ _
    | addTime => exact List.prefix_append _ _
    | _ => exact List.prefix_rfl

theorem readings_follows {o : List Obs} {w w' : World α}
    (h : Follows Move (Shown tgt) o w w') : w.readings <+: w'.readings := by
  induction h with
  | nil hm => exact readings_moves hm
  | @cons e os w w₁ w₂ w' hm ho _ ih =>
    refine (readings_moves hm).trans (List.IsPrefix.trans ?_ ih)
    -- what the adapter does is not read off the clock
    have hsame : w₂.readings = w₁.readings := by
      cases e with
      | packet p =>
        obtain ⟨q, qs, _, _, hw⟩ := ho
        rw [hw]
      | sent q ok =>
        have ho : w₂ = if ok then _ else w₁ := ho
        rw [ho]
        split <;> rfl
      | _ =>
        have ho : w₂ = w₁ := ho
        rw [ho]
    rw [hsame]

theorem acts_no_reset {a a' : MobileAction} {o : List Obs} (h : Acts tgt a o a') : .reset ∉ o := by
  cases h <;> simp

theorem served_no_reset {p : BgbPacket} {byte byte' : UInt8} {o : List Obs}
    (h : Served p byte o byte') : .reset ∉ o := by
  cases h <;> simp

section Pace

variable {w w' : World α} {os : List Obs} (hlittle : tgt.byteOrder = .little)
  (hsteady : ∀ r ∈ w'.readings, Steady r)

include hlittle hsteady

/-- The packet that is handled next is timestamped within one step of the one before. -/
theorem served_paced {p : BgbPacket} {byte byte' : UInt8} {o : List Obs} {last : Nat}
    (hs : Served p byte o byte') (hopen : Opened (pacedRequests last) [] w)
    (hf : Follows Move (Shown tgt) (o ++ os) w w') :
    p.timestamped = true ∧ Near last p.timestamp.toNat ∧
      ∃ w₁, Opened (pacedRequests p.timestamp.toNat) [] w₁ ∧ Follows Move (Shown tgt) os w₁ w' := by
  obtain ⟨w₁, q, qs, hm, hq, hp, hf⟩ := served_read hs hf
  rw [hlittle, recode_self] at hp
  subst hp
  have hopen₁ := opened_moves hopen hm
  have hsteady₁ : ∀ r ∈ w₁.readings, Steady r := fun r hr =>
    hsteady r ((readings_follows hf).subset hr)
  obtain ⟨rest, hqueue, hR⟩ := hopen₁.queue
  rw [hq, List.nil_append] at hqueue
  rw [← hqueue] at hR
  obtain ⟨hts, hnear, _⟩ := hR hsteady₁
  refine ⟨hts, hnear, _, opened_sent (opened_next hopen₁ hq ?_) _, hf⟩
  intro ps hps hst
  exact (hps hst).2.2

theorem turn_paced {v v' : View} {o : List Obs} (ht : Turn tgt v o v')
    (hopen : Opened (pacedRequests v.clock.toNat) [] w)
    (hf : Follows Move (Shown tgt) (o ++ os) w w') :
    .reset ∉ o ∧ ∃ w₁, Opened (pacedRequests v'.clock.toNat) [] w₁ ∧
      Follows Move (Shown tgt) os w₁ w' := by
  cases ht with
  | idle ha =>
    obtain ⟨hf', _⟩ := follows_quiet (Acts.quiet ha) hf
    exact ⟨acts_no_reset ha, w, hopen, hf'⟩
  | @packet p o₁ o₂ byte a hs ha =>
    rw [List.append_assoc, List.append_assoc] at hf
    obtain ⟨hts, hnear, w₁, hopen₁, hf₁⟩ := served_paced hlittle hsteady hs hopen hf
    rw [stamp_of_timestamped hts] at hf₁ ⊢
    obtain ⟨hnext, hask⟩ := follow_near hnear
    rw [hask] at hf₁ ⊢
    rw [hnext]
    obtain ⟨hf₂, _⟩ := follows_quiet (restartObs_quiet false) hf₁
    obtain ⟨hf₃, _⟩ := follows_quiet (Acts.quiet ha) hf₂
    refine ⟨?_, w₁, hopen₁, hf₃⟩
    simp [restartObs, served_no_reset hs, acts_no_reset ha]

theorem turns_paced {v v' : View} {o : List Obs} (ht : Turns tgt v o v')
    (hopen : Opened (pacedRequests v.clock.toNat) [] w)
    (hf : Follows Move (Shown tgt) (o ++ os) w w') : .reset ∉ o := by
  induction ht generalizing w with
  | nil v => simp
  | cons hturn _ ih =>
    rw [List.append_assoc] at hf
    obtain ⟨hnone, w₁, hopen₁, hf₁⟩ := turn_paced hlittle hsteady hturn hopen hf
    rw [List.mem_append, not_or]
    exact ⟨hnone, ih hopen₁ hf₁⟩

end Pace

/-! ## §3. Sessions. -/

theorem lost_no_reset {byte : UInt8} {o : List Obs} (h : Lost byte o) : .reset ∉ o := by
  rcases h with h | ⟨p, o', h, ⟨_, h'⟩ | ⟨q, _, h'⟩⟩ <;> subst h
  · simp
  · subst h'
    simp
  · subst h'
    simp

/-- **A session without resets.**  On a little-endian host, with any test at the other end of the
    link and however the two are interleaved: as long as no reading of the master's clock jumps,
    that is, it goes forward or wraps within one step of 0x1000, the adapter never takes the
    emulator to have been reset. -/
theorem session_no_reset {bgbSock : SOCKET} {n m : Nat} {e : MainEnd} {t : Trace (Sys tgt)}
    {clock : BGBMaster} {c : Prog Bus α} {w' : World α} (hlittle : tgt.byteOrder = .little)
    (h : Exec (linkEnv tgt) (mainProg bgbSock n m) (World.start clock c) t e w')
    (hsteady : ∀ r ∈ w'.readings, Steady r) : .reset ∉ obsOf t := by
  have hf := linkEnv_follows h
  obtain ⟨oh, o, ok, rs, ho, hshake, hfail, hmain⟩ := exec_mainProg h
  rw [ho] at hf ⊢
  have hnone : .reset ∉ oh := by cases hshake <;> simp
  rw [List.mem_append, not_or]
  refine ⟨hnone, ?_⟩
  cases hok : ok with
  | false =>
    rw [hfail hok]
    simp
  | true =>
    subst hok
    -- after the handshake the requests are paced from the master's first time
    obtain ⟨w₁, hf₀, hf₁⟩ := follows_append.mp hf
    have hopen : Opened (pacedRequests clock.getTime) [] w₁ := by
      cases hshake with
      | status hp => exact (handshake_live (R := pacedRequests clock.getTime) (fun _ => rfl) hf₀).1
    -- the first packet sets the clock
    have hfirst : ∀ {p : BgbPacket} {o₀ os : List Obs} {byte : UInt8},
        Served p tgt.serialIdleByte o₀ byte → Follows Move (Shown tgt) (o₀ ++ os) w₁ w' →
        .reset ∉ o₀ ∧ ∃ w₂, Opened (pacedRequests (p.stamp 0).toNat) [] w₂ ∧
          Follows Move (Shown tgt) os w₂ w' := by
      intro p o₀ os byte hs hf
      obtain ⟨hts, _, w₂, hopen₂, hf₂⟩ := served_paced hlittle hsteady hs hopen hf
      rw [stamp_of_timestamped hts]
      exact ⟨served_no_reset hs, w₂, hopen₂, hf₂⟩
    cases hmain with
    | lost hl => exact lost_no_reset hl
    | first hs =>
      rw [← List.append_nil o] at hf₁
      exact (hfirst hs hf₁).1
    | @looping p o₀ o byte v hs ht =>
      obtain ⟨hno, w₂, hopen₂, hf₂⟩ := hfirst hs hf₁
      have hf₃ := (follows_quiet (o := [.start]) (by simp [quiet]) hf₂).1
      rw [← List.append_nil o] at hf₃
      have hturns := turns_paced hlittle hsteady ht hopen₂ hf₃
      simp [hno, hturns]
    | @exited p o₀ o o' byte v hs ht hl =>
      have hlist : o₀ ++ .start :: (o ++ o') ++ [.stop] = o₀ ++ .start :: (o ++ (o' ++ [.stop])) := by
        simp
      rw [hlist] at hf₁
      obtain ⟨hno, w₂, hopen₂, hf₂⟩ := hfirst hs hf₁
      have hf₃ := (follows_quiet (o := [.start]) (by simp [quiet]) hf₂).1
      have hturns := turns_paced hlittle hsteady ht hopen₂ hf₃
      have hlost := lost_no_reset hl
      simp [hno, hturns, hlost]

/-- A test that transfers a byte, adds 0x2800 to the time and transfers another. -/
def lateByte : Prog Bus UInt8 := do
  let _ ← Prog.ask (S := Bus) (.transfer 0x99)
  let _ ← Prog.ask (S := Bus) (.addTime 0x2800)
  Prog.ask (S := Bus) (.transfer 0x66)

/-- `main` against it. -/
def lateByteRun : Trace (Sys host) × MainEnd × World UInt8 :=
  (mainProg 3 2 6).run (linkServe 0x100) (.start ⟨0x100, 0⟩ lateByte)

/-- There the time goes on in three packets, and no reset is seen. -/
theorem session_no_reset_lateByte :
    lateByteRun.2.2.readings = [(0x100, 0x100), (0x100, 0x2900), (0x2900, 0x2900)] ∧
      (packetsOf (obsOf lateByteRun.1)).map BgbPacket.timestamp
        = [0, 0, 0x100, 0x1100, 0x2100, 0x2900, 0x2900] ∧
      .reset ∉ obsOf lateByteRun.1 := by
  have hreadings : lateByteRun.2.2.readings = [(0x100, 0x100), (0x100, 0x2900), (0x2900, 0x2900)] := by
    decide +kernel
  refine ⟨hreadings, by decide +kernel, ?_⟩
  have hexec : Exec (linkEnv host) (mainProg 3 2 6) (.start ⟨0x100, 0⟩ lateByte) lateByteRun.1
      lateByteRun.2.1 lateByteRun.2.2 := exec_run (linkEnv_serve 0x100) _ _
  refine session_no_reset rfl hexec ?_
  rw [hreadings]
  decide

end MobileBgb.Session
