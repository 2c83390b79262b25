/-
  MobileBgb.Main.Pipeline — the reply byte and the restarts.

  The byte a SYNC1 is answered with was computed for the SYNC1 before it, so one
  byte is always under way.  The monitor `serial` follows it: a SYNC1 is read, its
  reply goes out with that byte, the transfer makes the next one.  Every run of
  `main` is accepted.

  A restart does not touch the byte under way.  `isolation_iff` says what follows:
  the replies after a restart are free of bytes from before it exactly when, at
  every restart that a SYNC1 follows, the byte under way happens to be the idle
  byte.
-/
import MobileBgb.Main.Runs

namespace MobileBgb.Main

open MobileBgb.Effect
open MobileBgb.System
open MobileBgb.Link

variable {tgt : Target} {σ : Type} {E : Env (Sys tgt) σ} {w w' : σ} {t : Trace (Sys tgt)}

/-! ## §1. The monitor. -/

/-- Where the exchange of a byte stands. -/
inductive Phase where
  /-- No SYNC1 under way. -/
  | ready
  /-- A SYNC1 was read and is to be answered. -/
  | owes
  /-- The reply was sent, the transfer is to be made. -/
  | replied
  /-- The reply was not sent whole. -/
  | lost
  deriving DecidableEq, Repr

/-- The exchange, with the byte to reply with. -/
structure Serial where
  phase : Phase
  byte : UInt8
  deriving DecidableEq, Repr

def isSync2 (q : BgbPacket) : Bool := q.cmd == BgbCmd.sync2.code

def Serial.step (m : Serial) : Obs → Serial
  | .packet p => if p.isSync1 then { m with phase := .owes } else m
  | .sent q ok => if isSync2 q then { m with phase := if ok then .replied else .lost } else m
  | .transfer _ r => ⟨.ready, r⟩
  | _ => m

/-- A reply carries the byte that is ready; nothing else happens between a SYNC1, its reply and
    its transfer; and a start comes when no SYNC1 is under way. -/
def Serial.Allowed (m : Serial) : Obs → Prop
  | .sent q _ => if isSync2 q then m.phase = .owes ∧ q.b2 = m.byte else m.phase = .ready
  | .stop => m.phase = .ready ∨ m.phase = .lost
  | .transfer _ _ => m.phase = .replied
  | _ => m.phase = .ready

def serial : Monitor Obs Serial where
  step := Serial.step
  Allowed := Serial.Allowed

/-- The bytes of the SYNC2 replies, whole or not. -/
def sync2Bytes (o : List Obs) : List UInt8 :=
  o.filterMap fun | .sent q _ => if isSync2 q then some q.b2 else none | _ => none

/-- The bytes `mobile_transfer` returned. -/
def returned (o : List Obs) : List UInt8 :=
  o.filterMap fun | .transfer _ r => some r | _ => none

/-- The last of them, before any of them `idle`. -/
def lastReturned (idle : UInt8) (o : List Obs) : UInt8 := (returned o).getLastD idle

/-- The byte that is ready is the one returned last. -/
theorem serial_byte (m : Serial) (o : List Obs) :
    (serial.after m o).byte = lastReturned m.byte o := by
  induction o generalizing m with
  | nil => rfl
  | cons e o ih =>
    rw [Monitor.after_cons, ih]
    cases e with
    | transfer c r => exact List.getLastD_cons.symm
    | packet p =>
      have hbyte : (serial.step m (.packet p)).byte = m.byte := by
        simp only [serial, Serial.step]
        split <;> rfl
      rw [hbyte]
      rfl
    | sent q ok =>
      have hbyte : (serial.step m (.sent q ok)).byte = m.byte := by
        simp only [serial, Serial.step]
        split <;> rfl
      rw [hbyte]
      rfl
    | _ => rfl

theorem serial_start (m : Serial) : serial.step m .start = m := rfl

theorem serial_stop (m : Serial) : serial.step m .stop = m := rfl

/-! ## §2. The replies of a run. -/

/-- The bytes that are due from a state on: the one that is ready, then those returned. -/
def Serial.due (m : Serial) (o : List Obs) : List UInt8 :=
  match m.phase with
  | .ready | .owes => m.byte :: returned o
  | .replied => returned o
  | .lost => []

/-- **The pipeline.**  The replies of an accepted run are the bytes due, in order, as far as they
    go. -/
theorem serial_due {m : Serial} {o : List Obs} (h : serial.Accepts m o) :
    sync2Bytes o <+: m.due o := by
  -- induction on the run, for every state: the byte due moves from the state into the list
  induction o generalizing m with
  | nil => exact List.nil_prefix
  | cons e o ih =>
    obtain ⟨hallowed, h⟩ := h
    have ih := ih h
    obtain ⟨phase, byte⟩ := m
    cases e with
    | packet p =>
      have hphase : phase = .ready := hallowed
      subst hphase
      simp only [serial, Serial.step] at ih
      by_cases hp : p.isSync1 = true
      · rw [if_pos hp] at ih
        exact ih
      · rw [if_neg hp] at ih
        exact ih
    | sent q ok =>
      by_cases hq : isSync2 q = true
      · simp only [serial, Serial.step, Serial.Allowed, hq, if_true] at hallowed ih
        obtain ⟨hphase, hbyte⟩ := hallowed
        subst hphase hbyte
        have hbytes : sync2Bytes (.sent q ok :: o) = q.b2 :: sync2Bytes o := by
          simp [sync2Bytes, hq]
        rw [hbytes]
        refine List.cons_prefix_cons.mpr ⟨rfl, ?_⟩
        show sync2Bytes o <+: returned o
        -- a reply that was cut is the last one: nothing is due after it
        cases ok with
        | true => exact ih
        | false => exact ih.trans List.nil_prefix
      · have hq : isSync2 q = false := Bool.eq_false_iff.mpr hq
        simp only [serial, Serial.step, Serial.Allowed, hq, Bool.false_eq_true, if_false] at hallowed ih
        subst hallowed
        have hbytes : sync2Bytes (.sent q ok :: o) = sync2Bytes o := by simp [sync2Bytes, hq]
        rw [hbytes]
        exact ih
    | transfer c r =>
      have hphase : phase = .replied := hallowed
      subst hphase
      exact ih
    | _ => exact ih

/-- A reply needs a SYNC1 before it. -/
theorem sync1_of_sync2 {m : Serial} {o : List Obs} (h : serial.Accepts m o)
    (hready : m.phase = .ready) (hne : sync2Bytes o ≠ []) :
    ∃ o₁ p o₂, o = o₁ ++ .packet p :: o₂ ∧ p.isSync1 = true := by
  induction o generalizing m with
  | nil => exact absurd rfl hne
  | cons e o ih =>
    obtain ⟨hallowed, h⟩ := h
    -- the reply is further on, and so is its SYNC1
    have later : ∀ {m' : Serial}, serial.Accepts m' o → m'.phase = .ready → sync2Bytes o ≠ [] →
        ∃ o₁ p o₂, e :: o = o₁ ++ .packet p :: o₂ ∧ p.isSync1 = true := by
      intro m' h hready hne
      obtain ⟨o₁, p, o₂, ho, hp⟩ := ih h hready hne
      exact ⟨e :: o₁, p, o₂, by rw [ho, List.cons_append], hp⟩
    cases e with
    | packet p =>
      by_cases hp : p.isSync1 = true
      · exact ⟨[], p, o, rfl, hp⟩
      · simp only [serial, Serial.step, if_neg hp] at h
        exact later h hready hne
    | sent q ok =>
      by_cases hq : isSync2 q = true
      · simp only [serial, Serial.Allowed, hq, if_true] at hallowed
        rw [hready] at hallowed
        cases hallowed.1
      · have hq : isSync2 q = false := Bool.eq_false_iff.mpr hq
        have hbytes : sync2Bytes (.sent q ok :: o) = sync2Bytes o := by simp [sync2Bytes, hq]
        rw [hbytes] at hne
        simp only [serial, Serial.step, hq, Bool.false_eq_true, if_false] at h
        exact later h hready hne
    | transfer c r =>
      have hphase : m.phase = .replied := hallowed
      rw [hready] at hphase
      cases hphase
    | _ => exact later h hready hne

/-! ## §3. Every run is accepted. -/

theorem isSync2_sync2 (p : BgbPacket) (byte : UInt8) : isSync2 (p.sync2 byte) = true := rfl

theorem isSync2_of_isSync3 {p : BgbPacket} (h : p.isSync3 = true) : isSync2 p = false := by
  unfold BgbPacket.isSync3 at h
  unfold isSync2
  rw [eq_of_beq h]
  decide

/-- A packet handled takes the exchange from one ready byte to the next. -/
theorem serial_served {p : BgbPacket} {byte byte' : UInt8} {o : List Obs}
    (h : Served p byte o byte') :
    serial.Accepts ⟨.ready, byte⟩ o ∧ serial.after ⟨.ready, byte⟩ o = ⟨.ready, byte'⟩ := by
  cases h with
  | sync1 h r =>
    have hb2 : (p.sync2 byte).b2 = byte := rfl
    simp [serial, Serial.step, Serial.Allowed, h, isSync2_sync2, hb2]
  | echo h => simp [serial, Serial.step, Serial.Allowed, BgbPacket.isSync1_of_isSync3 h, isSync2_of_isSync3 h]
  | plain h => simp [serial, Serial.step, Serial.Allowed, h]

theorem serial_acts {a a' : MobileAction} {o : List Obs} (h : Acts tgt a o a') (byte : UInt8) :
    serial.Accepts ⟨.ready, byte⟩ o ∧ serial.after ⟨.ready, byte⟩ o = ⟨.ready, byte⟩ := by
  cases h <;> simp [serial, Serial.step, Serial.Allowed]

/-- A link that is lost leaves no SYNC1 without an attempt to answer it. -/
theorem serial_lost {byte : UInt8} {o : List Obs} (h : Lost byte o) :
    serial.Accepts ⟨.ready, byte⟩ o ∧
      ((serial.after ⟨.ready, byte⟩ o).phase = .ready ∨
        (serial.after ⟨.ready, byte⟩ o).phase = .lost) := by
  rcases h with h | ⟨p, o', h, ⟨hk, h'⟩ | ⟨q, hq, h'⟩⟩ <;> subst h
  · exact ⟨trivial, Or.inl rfl⟩
  · subst h'
    simp [serial, Serial.step, Serial.Allowed, BgbPacket.isSync1_of_unknown hk]
  · subst h'
    unfold BgbPacket.replies at hq
    split_ifs at hq with h1 h3
    · -- a SYNC1 whose reply was cut
      have hq : p.sync2 byte = q := List.singleton_inj.mp hq
      subst hq
      have hb2 : (p.sync2 byte).b2 = byte := rfl
      simp [serial, Serial.step, Serial.Allowed, h1, isSync2_sync2, hb2]
    · have hq : p = q := List.singleton_inj.mp hq
      subst hq
      simp [serial, Serial.step, Serial.Allowed, h1, isSync2_of_isSync3 h3.1]

theorem Turn.accepted {v v' : View} {o : List Obs} (h : Turn tgt v o v') :
    serial.Accepts ⟨.ready, v.byte⟩ o ∧ serial.after ⟨.ready, v.byte⟩ o = ⟨.ready, v'.byte⟩ := by
  cases h with
  | idle ha => exact serial_acts ha v.byte
  | @packet p o₁ o₂ byte a hs ha =>
    obtain ⟨hacc₁, hst₁⟩ := serial_served hs
    obtain ⟨hacc₂, hst₂⟩ := serial_acts ha byte
    -- the restart finds the exchange at rest and leaves the byte as it is
    have hrestart : ∀ asked, serial.Accepts ⟨.ready, byte⟩ (restartObs asked) ∧
        serial.after ⟨.ready, byte⟩ (restartObs asked) = ⟨.ready, byte⟩ := by
      intro asked
      cases asked <;> simp [restartObs, serial, Serial.step, Serial.Allowed]
    obtain ⟨hacc, hst⟩ := hrestart (asksReset v.clock (p.stamp v.clock))
    simp only [Monitor.accepts_append, Monitor.after_append, hst₁, hst]
    exact ⟨⟨⟨hacc₁, hacc⟩, hacc₂⟩, hst₂⟩

theorem Turns.accepted {v v' : View} {o : List Obs} (h : Turns tgt v o v') :
    serial.Accepts ⟨.ready, v.byte⟩ o ∧ serial.after ⟨.ready, v.byte⟩ o = ⟨.ready, v'.byte⟩ := by
  refine Turns.accepts (R := fun v (m : Serial) => m = ⟨.ready, v.byte⟩) ?_ h rfl
  intro v o v' m h hm
  rw [hm]
  exact h.accepted

/-- A run of `main` from the handshake on is accepted, and ends with no reply owed. -/
theorem MainObs.accepted {o : List Obs} (h : MainObs tgt o) :
    serial.Accepts ⟨.ready, tgt.serialIdleByte⟩ o ∧
      (serial.after ⟨.ready, tgt.serialIdleByte⟩ o).phase ≠ .owes := by
  -- a run stops at rest or with the link lost, never between a SYNC1 and its reply
  have hend : ∀ {m : Serial}, m.phase = .ready ∨ m.phase = .lost → m.phase ≠ .owes := by
    intro m hm ho
    rw [ho] at hm
    rcases hm with hm | hm <;> cases hm
  cases h with
  | lost hl =>
    obtain ⟨hacc, hphase⟩ := serial_lost hl
    exact ⟨hacc, hend hphase⟩
  | first hs =>
    obtain ⟨hacc, hst⟩ := serial_served hs
    rw [hst]
    exact ⟨hacc, hend (Or.inl rfl)⟩
  | looping hs ht =>
    obtain ⟨hacc, hst⟩ := serial_served hs
    obtain ⟨hacc', hst'⟩ := ht.accepted
    simp only [Monitor.accepts_append, Monitor.after_append, Monitor.accepts_cons,
      Monitor.after_cons, hst, serial_start, hst']
    exact ⟨⟨hacc, rfl, hacc'⟩, by decide⟩
  | exited hs ht hl =>
    obtain ⟨hacc, hst⟩ := serial_served hs
    obtain ⟨hacc', hst'⟩ := ht.accepted
    obtain ⟨hacc'', hphase⟩ := serial_lost hl
    simp only [Monitor.accepts_append, Monitor.after_append, Monitor.accepts_cons,
      Monitor.after_cons, hst, serial_start, hst', serial_stop, Monitor.after_nil]
    exact ⟨⟨⟨hacc, rfl, hacc', hacc''⟩, hphase, trivial⟩, hend hphase⟩

/-- So is the handshake before it, which neither starts nor stops the adapter nor transfers. -/
theorem handshake_serial {o : ByteOrder} {ok : Bool} {oh : List Obs}
    {rs : List (Option (List UInt8))} (h : Handshake o ok oh rs) (byte : UInt8) :
    .stop ∉ oh ∧ (ok = true →
      serial.Accepts ⟨.ready, byte⟩ oh ∧ serial.after ⟨.ready, byte⟩ oh = ⟨.ready, byte⟩) := by
  cases h with
  | @status p hp ok =>
    refine ⟨by simp, fun _ => ?_⟩
    have hp1 : p.isSync1 = false := by
      unfold BgbPacket.isSync1
      rw [hp]
      decide
    have hsent : isSync2 handshake = false ∧ isSync2 greeting = false ∧
        isSync2 (unpause p) = false ∧ handshake.isSync1 = false := by
      refine ⟨?_, ?_, ?_, ?_⟩ <;> rfl
    simp [serial, Serial.step, Serial.Allowed, hp1, hsent]
  | _ => exact ⟨by simp, (fun hf => nomatch hf)⟩

/-! ## §4. Across a restart. -/

/-- Before the next start a SYNC1 comes. -/
def Sync1Next (o : List Obs) : Prop :=
  ∃ b p c, o = b ++ .packet p :: c ∧ .start ∉ b ∧ p.isSync1 = true

/-- A restart finds the exchange at rest: it goes on with the byte returned last, whenever that
    was. -/
theorem serial_restart {idle : UInt8} {a b : List Obs}
    (h : serial.Accepts ⟨.ready, idle⟩ (a ++ .stop :: .start :: b)) :
    serial.Accepts ⟨.ready, lastReturned idle a⟩ b ∧
      serial.after ⟨.ready, idle⟩ (a ++ .stop :: .start :: b)
        = serial.after ⟨.ready, lastReturned idle a⟩ b := by
  rw [Monitor.accepts_append, Monitor.accepts_cons, Monitor.accepts_cons, serial_start,
    serial_stop] at h
  obtain ⟨_, _, hready, hb⟩ := h
  -- a start is only allowed at rest, and at rest the state is the byte returned last
  have hstate : serial.after ⟨.ready, idle⟩ a = ⟨.ready, lastReturned idle a⟩ := by
    have hphase : (serial.after ⟨.ready, idle⟩ a).phase = .ready := hready
    have hbyte := serial_byte ⟨.ready, idle⟩ a
    generalize serial.after ⟨.ready, idle⟩ a = m at hphase hbyte
    obtain ⟨phase, byte⟩ := m
    subst hphase hbyte
    rfl
  rw [hstate] at hb
  rw [Monitor.after_append, Monitor.after_cons, Monitor.after_cons, serial_start, serial_stop,
    hstate]
  exact ⟨hb, rfl⟩

/-- A SYNC1 that is read is answered next, unless the run ends there. -/
theorem reply_of_sync1 {m : Serial} {b c : List Obs} {p : BgbPacket}
    (h : serial.Accepts m (b ++ .packet p :: c)) (hp : p.isSync1 = true)
    (hend : (serial.after m (b ++ .packet p :: c)).phase ≠ .owes) :
    ∃ q ok c', c = .sent q ok :: c' ∧ isSync2 q = true := by
  have howes : (serial.step (serial.after m b) (.packet p)).phase = .owes := by
    simp only [serial, Serial.step, hp, if_true]
  rw [Monitor.accepts_append, Monitor.accepts_cons] at h
  rw [Monitor.after_append, Monitor.after_cons] at hend
  obtain ⟨_, _, h⟩ := h
  generalize serial.step (serial.after m b) (.packet p) = m' at howes h hend
  cases c with
  | nil => exact absurd howes hend
  | cons e c =>
    obtain ⟨hallowed, _⟩ := h
    -- with a reply owed the monitor allows nothing but the reply
    cases e with
    | sent q ok =>
      refine ⟨q, ok, c, rfl, ?_⟩
      by_contra hq
      simp only [serial, Serial.Allowed, if_neg hq] at hallowed
      rw [howes] at hallowed
      cases hallowed
    | stop => rcases hallowed with h' | h' <;> rw [howes] at h' <;> cases h'
    | _ =>
      have h' : _ = _ := hallowed
      rw [howes] at h'
      cases h'

/-- Two lists of bytes due that begin alike, one byte apart: a reply tells the bytes apart. -/
theorem head_of_due {x y : UInt8} {l l₁ l₂ : List UInt8} (hx : l <+: x :: l₁)
    (hy : l <+: y :: l₂) (hne : l ≠ []) : x = y := by
  cases l with
  | nil => exact absurd rfl hne
  | cons z l =>
    obtain ⟨hzx, _⟩ := List.cons_prefix_cons.mp hx
    obtain ⟨hzy, _⟩ := List.cons_prefix_cons.mp hy
    exact hzx.symm.trans hzy

/-- A SYNC1 after a restart is answered; when that reply is the idle byte, so is the byte under
    way at the restart. -/
theorem idle_of_isolation {idle : UInt8} {a b : List Obs}
    (h : serial.Accepts ⟨.ready, idle⟩ (a ++ .stop :: .start :: b))
    (hend : (serial.after ⟨.ready, idle⟩ (a ++ .stop :: .start :: b)).phase ≠ .owes)
    (hiso : ∀ b₁ c, b = b₁ ++ c → .start ∉ b₁ → sync2Bytes b₁ <+: idle :: returned b₁)
    (hnext : Sync1Next b) : lastReturned idle a = idle := by
  obtain ⟨b₁, p, b₂, hb, hstart, hp⟩ := hnext
  obtain ⟨hacc, hafter⟩ := serial_restart h
  rw [hafter, hb] at hend
  rw [hb] at hacc
  obtain ⟨q, ok, c, hc, hq⟩ := reply_of_sync1 hacc hp hend
  -- the replies up to this one
  have hseg : b = (b₁ ++ [.packet p, .sent q ok]) ++ c := by
    rw [hb, hc, List.append_assoc]
    rfl
  have hnot : Obs.start ∉ b₁ ++ [.packet p, .sent q ok] := by
    rw [List.mem_append, not_or]
    exact ⟨hstart, by simp⟩
  have hne : sync2Bytes (b₁ ++ [.packet p, .sent q ok]) ≠ [] := by
    unfold sync2Bytes
    rw [List.filterMap_append]
    simp [hq]
  have hidle := hiso _ c hseg hnot
  rw [← hb, hseg, Monitor.accepts_append] at hacc
  exact head_of_due (serial_due hacc.1) hidle hne

/-- When the idle byte is under way at a restart that a SYNC1 follows, the replies after it begin
    with the idle byte. -/
theorem isolation_of_idle {idle : UInt8} {a b c : List Obs}
    (h : serial.Accepts ⟨.ready, idle⟩ (a ++ .stop :: .start :: (b ++ c))) (hstart : .start ∉ b)
    (hidle : Sync1Next (b ++ c) → lastReturned idle a = idle) :
    sync2Bytes b <+: idle :: returned b := by
  obtain ⟨hacc, _⟩ := serial_restart h
  rw [Monitor.accepts_append] at hacc
  have hdue := serial_due hacc.1
  by_cases hnone : sync2Bytes b = []
  · rw [hnone]
    exact List.nil_prefix
  · obtain ⟨b₁, p, b₂, hb, hp⟩ := sync1_of_sync2 hacc.1 rfl hnone
    have hnext : Sync1Next (b ++ c) := by
      refine ⟨b₁, p, b₂ ++ c, by rw [hb, List.append_assoc, List.cons_append], ?_, hp⟩
      intro hmem
      exact hstart (by rw [hb]; exact List.mem_append_left _ hmem)
    rw [hidle hnext] at hdue
    exact hdue

/-- The replies since a restart, up to the next, are free of older bytes exactly when the byte
    under way at the restart is the idle byte, or is never used. -/
theorem isolation_of_accepts {idle : UInt8} {o : List Obs}
    (h : serial.Accepts ⟨.ready, idle⟩ o) (hend : (serial.after ⟨.ready, idle⟩ o).phase ≠ .owes) :
    (∀ a b c, o = a ++ .stop :: .start :: (b ++ c) → .start ∉ b →
      sync2Bytes b <+: idle :: returned b) ↔
    ∀ a b, o = a ++ .stop :: .start :: b → Sync1Next b → lastReturned idle a = idle := by
  constructor
  · intro hiso a b ho hnext
    rw [ho] at h hend
    refine idle_of_isolation h hend ?_ hnext
    intro b₁ c hb
    exact hiso a b₁ c (by rw [ho, hb])
  · intro hcond a b c ho hstart
    rw [ho] at h
    exact isolation_of_idle h hstart (hcond a (b ++ c) ho)

/-- **Isolation across a restart.**  In a run of `main`: between each restart and the next, the
    replies are the idle byte and then the bytes `mobile_transfer` returned since, if and only if
    at each restart that is followed by a SYNC1 before the next one, the byte `mobile_transfer`
    returned last is the idle byte (or it returned none yet). -/
theorem isolation_iff {bgbSock : SOCKET} {n m : Nat} {e : MainEnd}
    (h : Exec E (mainProg bgbSock n m) w t e w') :
    (∀ a b c, obsOf t = a ++ .stop :: .start :: (b ++ c) → .start ∉ b →
      sync2Bytes b <+: tgt.serialIdleByte :: returned b) ↔
    ∀ a b, obsOf t = a ++ .stop :: .start :: b → Sync1Next b →
      lastReturned tgt.serialIdleByte a = tgt.serialIdleByte := by
  obtain ⟨oh, o, ok, rs, ho, hshake, hfail, hmain⟩ := exec_mainProg h
  obtain ⟨hstop, hserial⟩ := handshake_serial hshake tgt.serialIdleByte
  cases ok with
  | false =>
    -- no restart at all
    rw [hfail rfl, List.append_nil] at ho
    refine iff_of_true ?_ ?_
    · intro a b c hsplit
      exact absurd (by rw [← ho, hsplit]; simp) hstop
    · intro a b hsplit
      exact absurd (by rw [← ho, hsplit]; simp) hstop
  | true =>
    obtain ⟨hacc, hst⟩ := hserial rfl
    obtain ⟨hacc', hend⟩ := hmain.accepted
    refine isolation_of_accepts ?_ ?_
    · rw [ho, Monitor.accepts_append, hst]
      exact ⟨hacc, hacc'⟩
    · rw [ho, Monitor.after_append, hst]
      exact hend

/-- The bytes a game sends to begin a session: the command, its data and its checksum. -/
def beginSession : List UInt8 :=
  [0x99, 0x66, 0x10, 0x00, 0x00, 0x08, 0x4E, 0x49, 0x4E, 0x54, 0x45, 0x4E, 0x44, 0x4F, 0x02, 0x77]

/-- A game sends `sent`, the adapter returning `returned` for it; then the emulator is reset, and
    the game sends the first byte of a new command. -/
def resetAfter (sent returned : List UInt8) : Script where
  rx :=
    let before : List BgbPacket := [handshake, ⟨108, 5, 0, 0, 0⟩, ⟨106, 1, 0, 0, 5⟩]
    let bytes : List BgbPacket := sent.map fun c => ⟨104, c, 0x81, 0, 6⟩
    let after : List BgbPacket := [⟨106, 1, 0, 0, 0x5000⟩, ⟨104, 0x99, 0x81, 0, 0x5001⟩]
    (before ++ bytes ++ after).flatMap (BgbPacket.toBytes .little)
  transfers := returned
  actions := []

/-- The emulator is reset after the first byte, with the idle byte under way. -/
def resetIdle : Script := resetAfter [0x99] [0xD2, 0x4B]

/-- There the reply after the restart is the idle byte. -/
theorem isolation_iff_resetIdle :
    sync2Bytes ((obsOf (runMain 4 3 resetIdle).1).drop 15) = [0xD2] ∧
      ∀ a b c, obsOf (runMain 4 3 resetIdle).1 = a ++ .stop :: .start :: (b ++ c) → .start ∉ b →
        sync2Bytes b <+: 0xD2 :: returned b := by
  refine ⟨by decide +kernel, (isolation_iff (exec_runMain 4 3 resetIdle)).mpr ?_⟩
  intro a b ho _
  refine restart_at (P := fun a => lastReturned 0xD2 a = 0xD2) ?_ a b ho
  decide +kernel

/-- The emulator is reset when the command is complete and its acknowledgement under way. -/
def resetAcknowledged : Script := resetAfter beginSession (List.replicate 15 0xD2 ++ [0x88, 0xD2])

/-- There the first byte of the new command is answered with the acknowledgement of the old. -/
theorem isolation_resetAcknowledged :
    Exec (scripted host) (mainProg 3 4 18) resetAcknowledged (runMain 4 18 resetAcknowledged).1
        (runMain 4 18 resetAcknowledged).2.1 (runMain 4 18 resetAcknowledged).2.2 ∧
      ¬ ∀ a b c, obsOf (runMain 4 18 resetAcknowledged).1 = a ++ .stop :: .start :: (b ++ c) →
          .start ∉ b → sync2Bytes b <+: 0xD2 :: returned b := by
  refine ⟨exec_runMain 4 18 resetAcknowledged, ?_⟩
  intro h
  have hdue := h ((obsOf (runMain 4 18 resetAcknowledged).1).take 73)
    [.actionsGet 0, .packet ⟨104, 0x99, 0x81, 0, 0x5001⟩, .sent ⟨105, 0x88, 0x80, 0, 0⟩ true,
      .transfer 0x99 0xD2, .actionsGet 0] [] (by decide +kernel) (by decide)
  revert hdue
  decide

end MobileBgb.Main
