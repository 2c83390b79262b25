/-
  MobileBgb.Main.Lifecycle — is the adapter started when it is used?

  `mobile_start` is called once before the main loop and once in every restart,
  `mobile_stop` in every restart and at the end; `mobile_transfer`,
  `mobile_actions_get` and `mobile_actions_process` are to be called in between.
  The monitor `power` follows the two and lets the three pass while it is on.

  Everything from the first `mobile_start` on is accepted.  The one place that is
  not is the packet `main` waits for: `bgb_loop_transfer` is already in place
  then, so a SYNC1 goes to `mobile_transfer` before `mobile_start`.
  `lifecycle_iff` says that this is the only way.
-/
import MobileBgb.Main.Runs

namespace MobileBgb.Main

open MobileBgb.Effect
open MobileBgb.System
open MobileBgb.Link

variable {tgt : Target} {σ : Type} {E : Env (Sys tgt) σ} {w w' : σ} {t : Trace (Sys tgt)}

/-! ## §1. The monitor. -/

/-- The calls that need a started adapter. -/
def usesAdapter : Obs → Bool
  | .transfer _ _ | .actionsGet _ | .actionsProcess _ => true
  | _ => false

/-- The adapter is started: some `mobile_start`, with no `mobile_stop` after it. -/
def Started (o : List Obs) : Prop := ∃ a b, o = a ++ .start :: b ∧ .stop ∉ b

/-- On between `mobile_start` and `mobile_stop`; the adapter is used while it is on. -/
def power : Monitor Obs Bool where
  step on e :=
    match e with
    | .start => true
    | .stop => false
    | _ => on
  Allowed on e := usesAdapter e = true → on = true

theorem started_append_singleton (o : List Obs) (e : Obs) :
    Started (o ++ [e]) ↔ e = .start ∨ (Started o ∧ e ≠ .stop) := by
  constructor
  · rintro ⟨a, b, h, hb⟩
    -- is the last event the start itself, or one of those after it?
    rcases List.eq_nil_or_concat b with hnil | ⟨b', e', hcons⟩
    · subst hnil
      obtain ⟨_, he⟩ := List.append_inj' h rfl
      exact Or.inl (List.singleton_inj.mp he)
    · rw [List.concat_eq_append] at hcons
      subst hcons
      rw [← List.cons_append, ← List.append_assoc] at h
      obtain ⟨ho, he⟩ := List.append_inj' h rfl
      rw [List.mem_append, not_or, List.mem_singleton] at hb
      rw [List.singleton_inj.mp he]
      exact Or.inr ⟨⟨a, b', ho, hb.1⟩, fun h => hb.2 h.symm⟩
  · rintro (he | ⟨⟨a, b, ho, hb⟩, he⟩)
    · exact ⟨o, [], by rw [he], fun h => nomatch h⟩
    · refine ⟨a, b ++ [e], by rw [ho, List.append_assoc, List.cons_append], ?_⟩
      rw [List.mem_append, not_or, List.mem_singleton]
      exact ⟨hb, fun h => he h.symm⟩

/-- The monitor is on exactly when the adapter is started. -/
theorem power_after (o : List Obs) : power.after false o = true ↔ Started o := by
  induction o using List.reverseRecOn with
  | nil =>
    constructor
    · intro h
      cases h
    · rintro ⟨a, b, h, _⟩
      cases a <;> cases h
  | append_singleton o e ih =>
    rw [started_append_singleton, ← ih, Monitor.after_append, Monitor.after_cons, Monitor.after_nil]
    cases e <;> simp [power]

/-- Acceptance, in terms of the run alone. -/
theorem power_accepts (o : List Obs) :
    power.Accepts false o ↔
      ∀ pre e post, o = pre ++ e :: post → usesAdapter e = true → Started pre := by
  rw [Monitor.accepts_iff]
  simp only [← power_after]
  rfl

/-! ## §2. What passes. -/

/-- A packet passes while the adapter is off unless it is a SYNC1. -/
theorem power_served_off {p : BgbPacket} {byte byte' : UInt8} {o : List Obs}
    (h : Served p byte o byte') :
    (power.Accepts false o ↔ p.isSync1 = false) ∧ power.after false o = false := by
  cases h with
  | sync1 h r => simp [power, usesAdapter, h]
  | echo h => simp [power, usesAdapter, BgbPacket.isSync1_of_isSync3 h]
  | plain h => simp [power, usesAdapter, h]

theorem power_served_on {p : BgbPacket} {byte byte' : UInt8} {o : List Obs}
    (h : Served p byte o byte') : power.Accepts true o ∧ power.after true o = true := by
  cases h <;> simp [power]

theorem power_acts {a a' : MobileAction} {o : List Obs} (h : Acts tgt a o a') :
    power.Accepts true o ∧ power.after true o = true := by
  cases h <;> simp [power]

/-- A call that loses the link uses nothing. -/
theorem power_lost {byte : UInt8} {o : List Obs} (h : Lost byte o) (on : Bool) :
    power.Accepts on o ∧ power.after on o = on := by
  rcases h with h | ⟨p, o', h, ⟨_, h'⟩ | ⟨q, _, h'⟩⟩ <;> subst h
  · exact ⟨trivial, rfl⟩
  all_goals
    rw [h']
    simp [power, usesAdapter]

/-- A turn of the loop leaves the adapter on, restart or not. -/
theorem Turn.power_on {v v' : View} {o : List Obs} (h : Turn tgt v o v') :
    power.Accepts true o ∧ power.after true o = true := by
  cases h with
  | idle ha => exact power_acts ha
  | @packet p o₁ o₂ byte a hs ha =>
    obtain ⟨hacc₁, hon₁⟩ := power_served_on hs
    obtain ⟨hacc₂, hon₂⟩ := power_acts ha
    have hrestart : ∀ asked, power.Accepts true (restartObs asked) ∧
        power.after true (restartObs asked) = true := by
      intro asked
      cases asked <;> simp [restartObs, power, usesAdapter]
    obtain ⟨hacc, hon⟩ := hrestart (asksReset v.clock (p.stamp v.clock))
    simp only [Monitor.accepts_append, Monitor.after_append, hon₁, hon]
    exact ⟨⟨⟨hacc₁, hacc⟩, hacc₂⟩, hon₂⟩

theorem Turns.power_on {v v' : View} {o : List Obs} (h : Turns tgt v o v') :
    power.Accepts true o ∧ power.after true o = true := by
  refine Turns.accepts (R := fun _ on => on = true) ?_ h rfl
  intro v o v' on h hon
  rw [hon]
  exact h.power_on

/-! ## §3. The first packet. -/

/-- The same number of packets before it: it is the same packet. -/
theorem packet_split {a b c d : List Obs} {p q : BgbPacket}
    (h : a ++ .packet p :: b = c ++ .packet q :: d)
    (hlen : (packetsOf a).length = (packetsOf c).length) : a = c ∧ p = q ∧ b = d := by
  -- induction on the first beginning, with the second cut along with it
  induction a generalizing c with
  | nil =>
    cases c with
    | nil =>
      injection h with hp hb
      injection hp with hp
      exact ⟨rfl, hp, hb⟩
    | cons e c =>
      injection h with he _
      rw [← he] at hlen
      cases hlen
  | cons e a ih =>
    cases c with
    | nil =>
      injection h with he _
      rw [he] at hlen
      cases hlen
    | cons e' c =>
      injection h with he h
      have hlen : (packetsOf a).length = (packetsOf c).length := by
        rw [he] at hlen
        cases e' <;> simpa [packetsOf] using hlen
      obtain ⟨ha, hp, hb⟩ := ih h hlen
      exact ⟨by rw [he, ha], hp, hb⟩

/-- The packet after the handshake is a SYNC1, and its reply was sent whole: it is handled while
    `main` still waits for the clock. -/
def FirstIsSync1 (o : List Obs) : Prop :=
  ∃ pre p q post, o = pre ++ .packet p :: .sent q true :: post ∧
    (packetsOf pre).length = 2 ∧ p.isSync1 = true

/-- A handshake reads at most two packets, two when it succeeds, and does not touch the adapter. -/
theorem handshake_quiet {o : ByteOrder} {ok : Bool} {oh : List Obs}
    {rs : List (Option (List UInt8))} (h : Handshake o ok oh rs) :
    (packetsOf oh).length ≤ 2 ∧ (ok = true → (packetsOf oh).length = 2) ∧
      power.Accepts false oh ∧ power.after false oh = false := by
  cases h <;> simp [packetsOf, power, usesAdapter]

/-- After the handshake: the link is lost at once, or a packet is handled and all that follows it
    passes. -/
theorem MainObs.power_rest {o : List Obs} (h : MainObs tgt o) :
    Lost tgt.serialIdleByte o ∨
      ∃ p o₀ byte rest, Served p tgt.serialIdleByte o₀ byte ∧ o = o₀ ++ rest ∧
        power.Accepts false rest := by
  cases h with
  | lost h => exact Or.inl h
  | first hs => exact Or.inr ⟨_, _, _, [], hs, (List.append_nil _).symm, trivial⟩
  | looping hs ht =>
    -- the start itself uses nothing, and from there on the adapter is on
    refine Or.inr ⟨_, _, _, _, hs, rfl, (fun hu => nomatch hu), ?_⟩
    exact ht.power_on.1
  | @exited p o₀ o o' byte v hs ht hl =>
    obtain ⟨hacc, hon⟩ := ht.power_on
    obtain ⟨hacc', hon'⟩ := power_lost hl true
    have hrest : power.Accepts true (o ++ o' ++ [.stop]) := by
      rw [Monitor.accepts_append, Monitor.accepts_append, hon]
      exact ⟨⟨hacc, hacc'⟩, (fun hu => nomatch hu), trivial⟩
    refine Or.inr ⟨_, _, _, _, hs, List.append_assoc _ _ _, ?_⟩
    exact ⟨(fun hu => nomatch hu), hrest⟩

/-- What a packet handled shows first: itself, and for a SYNC1 the reply. -/
theorem Served.head {p : BgbPacket} {byte byte' : UInt8} {o : List Obs}
    (h : Served p byte o byte') :
    ∃ o', o = .packet p :: o' ∧ (p.isSync1 = true → ∃ q o'', o' = .sent q true :: o'') := by
  cases h with
  | sync1 h r => exact ⟨_, rfl, fun _ => ⟨_, _, rfl⟩⟩
  | echo h => exact ⟨_, rfl, fun _ => ⟨_, _, rfl⟩⟩
  | plain h => exact ⟨_, rfl, fun hp => by rw [h] at hp; cases hp⟩

/-- A link that is lost before the first packet is handled answered no SYNC1. -/
theorem not_firstIsSync1_of_lost {byte : UInt8} {oh o : List Obs}
    (hlen : (packetsOf oh).length ≤ 2) (h : Lost byte o) : ¬ FirstIsSync1 (oh ++ o) := by
  rintro ⟨pre, p, q, post, ho, hpre, _⟩
  have hcount := congrArg (fun o => (packetsOf o).length) ho
  have hp : packetsOf (.packet p :: .sent q true :: post) = p :: packetsOf post := rfl
  simp only [packetsOf_append, List.length_append, hp, List.length_cons] at hcount
  rcases h with h | ⟨p', o', h, href⟩ <;> subst h
  · have hnil : (packetsOf []).length = 0 := rfl
    omega
  · -- the packet refused is the third one: its reply was not sent whole
    have hp' : packetsOf (.packet p' :: o') = p' :: packetsOf o' := rfl
    have hnone : packetsOf o' = [] := by
      rcases href with ⟨_, h'⟩ | ⟨q', _, h'⟩ <;> rw [h'] <;> rfl
    rw [hp', hnone, List.length_singleton] at hcount
    obtain ⟨_, _, htail⟩ := packet_split ho (by omega)
    rcases href with ⟨_, h'⟩ | ⟨q', _, h'⟩ <;> rw [h'] at htail <;> cases htail

/-- **The adapter's lifecycle.**  In a run of `main`, every use of the adapter comes while it is
    started, if and only if the packet after the handshake is not a SYNC1 whose reply is sent. -/
theorem lifecycle_iff {bgbSock : SOCKET} {n m : Nat} {e : MainEnd}
    (h : Exec E (mainProg bgbSock n m) w t e w') :
    (∀ pre e post, obsOf t = pre ++ e :: post → usesAdapter e = true → Started pre) ↔
      ¬ FirstIsSync1 (obsOf t) := by
  obtain ⟨oh, o, ok, rs, ho, hshake, hfail, hmain⟩ := exec_mainProg h
  obtain ⟨hle, htwo, hacc, hoff⟩ := handshake_quiet hshake
  rw [← power_accepts, ho, Monitor.accepts_append, hoff, and_iff_right hacc]
  cases ok with
  | false =>
    rw [hfail rfl]
    have hlost : Lost 0 [] := Or.inl rfl
    exact iff_of_true trivial (not_firstIsSync1_of_lost hle hlost)
  | true =>
    rcases hmain.power_rest with hlost | ⟨p, o₀, byte, rest, hs, hrest, haccr⟩
    · exact iff_of_true (power_lost hlost false).1 (not_firstIsSync1_of_lost hle hlost)
    · obtain ⟨hiff, hoff₀⟩ := power_served_off hs
      obtain ⟨o', ho', hsync1⟩ := hs.head
      rw [hrest, Monitor.accepts_append, hiff, hoff₀, and_iff_left haccr, ← Bool.not_eq_true]
      -- the packet handled first is the one the condition is about
      refine not_congr ⟨?_, ?_⟩
      · intro hp
        obtain ⟨q, o'', hq⟩ := hsync1 hp
        exact ⟨oh, p, q, o'' ++ rest, by rw [ho', hq]; rfl, htwo rfl, hp⟩
      · rintro ⟨pre, p', q, post, hsplit, hpre, hp'⟩
        rw [ho', List.cons_append] at hsplit
        obtain ⟨_, hp, _⟩ := packet_split hsplit (by rw [htwo rfl, hpre])
        rw [hp]
        exact hp'

/-- An emulator whose first packet is a SYNC3, followed by a SYNC1. -/
def sync3First : Script where
  rx := [handshake, ⟨108, 5, 0, 0, 0⟩, ⟨106, 1, 0, 0, 5⟩,
    ⟨104, 0x99, 0x81, 0, 6⟩].flatMap (BgbPacket.toBytes .little)
  transfers := [0x88]
  actions := [1]

/-- There the adapter is used, and only while it is started. -/
theorem lifecycle_iff_sync3First :
    ((obsOf (runMain 4 2 sync3First).1).filter usesAdapter).length = 5 ∧
      ∀ pre e post, obsOf (runMain 4 2 sync3First).1 = pre ++ e :: post →
        usesAdapter e = true → Started pre := by
  refine ⟨by decide +kernel, (lifecycle_iff (exec_runMain 4 2 sync3First)).mpr ?_⟩
  rintro ⟨pre, p, q, post, ho, hpre, hp⟩
  have hthird : (packetsOf (obsOf (runMain 4 2 sync3First).1))[2]? = some ⟨106, 1, 0, 0, 5⟩ := by
    decide +kernel
  rw [ho, packetsOf_append, ← hpre, List.getElem?_append_right (Nat.le_refl _), Nat.sub_self] at hthird
  injection hthird with hthird
  rw [hthird] at hp
  cases hp

/-- An emulator whose first packet is a SYNC1. -/
def sync1First : Script where
  rx := [handshake, ⟨108, 5, 0, 0, 0⟩,
    ⟨104, 0x99, 0x81, 0, 5⟩].flatMap (BgbPacket.toBytes .little)
  transfers := [0x88]
  actions := []

/-- There `mobile_transfer(0x99)` is called before `mobile_start`. -/
theorem lifecycle_sync1First :
    Exec (scripted host) (mainProg 3 4 1) sync1First (runMain 4 1 sync1First).1
        (runMain 4 1 sync1First).2.1 (runMain 4 1 sync1First).2.2 ∧
      ¬ ∀ pre e post, obsOf (runMain 4 1 sync1First).1 = pre ++ e :: post →
        usesAdapter e = true → Started pre := by
  refine ⟨exec_runMain 4 1 sync1First, ?_⟩
  intro h
  have ho : obsOf (runMain 4 1 sync1First).1
      = (obsOf (runMain 4 1 sync1First).1).take 7 ++
        .transfer 0x99 0x88 :: [.start, .actionsGet 0] := by decide +kernel
  obtain ⟨a, b, hstart, _⟩ := h _ _ _ ho rfl
  have hmem : Obs.start ∈ (obsOf (runMain 4 1 sync1First).1).take 7 := by
    rw [hstart]
    simp
  have hnot : Obs.start ∉ (obsOf (runMain 4 1 sync1First).1).take 7 := by decide +kernel
  exact hnot hmem

end MobileBgb.Main
