/-
  MobileBgb.Link.LoopCases — everything one call of `bgb_loop` can do.

  `bgbLoop_cases` is the inversion lemma the results about runs are built on.
  A call does one of four things:

    idle      — nothing to read: it returns `true` and nothing happened;
    unread    — no complete packet came: it returns `false`;
    refused   — a packet came, but its command is unknown or its reply was not
                taken whole: it returns `false`;
    handled   — a packet came, its reply (if it has one) was sent whole, a SYNC1
                went through the transfer callback, the tail followed the clock.

  The first three leave the state and the user object alone.  What a packet
  asks for is said by three functions of the packet itself: `known`, `replies`
  and `stamp`.
-/
import MobileBgb.Link.BgbLink
import MobileBgb.Link.Observe

namespace MobileBgb.Link

open MobileBgb.Effect
open MobileBgb.System
open MobileBgb.Socket

/-! ## §1. What a packet asks for. -/

/-- Does `bgb_loop` have a case for this command? -/
def BgbPacket.known (p : BgbPacket) : Bool :=
  match BgbCmd.ofCode p.cmd with
  | some .version | none => false
  | some _ => true

def BgbPacket.isSync1 (p : BgbPacket) : Bool := p.cmd == BgbCmd.sync1.code

def BgbPacket.isSync3 (p : BgbPacket) : Bool := p.cmd == BgbCmd.sync3.code

/-- SYNC1 and SYNC3 carry a timestamp. -/
def BgbPacket.timestamped (p : BgbPacket) : Bool := p.isSync1 || p.isSync3

/-- The packets sent back for `p` while `byte` is the byte to reply with. -/
def BgbPacket.replies (p : BgbPacket) (byte : UInt8) : List BgbPacket :=
  if p.isSync1 then [⟨BgbCmd.sync2.code, byte, 0x80, 0, 0⟩]
  else if p.isSync3 ∧ p.b2 = 0 then [p]
  else []

/-- `timestamp_cur` after the `switch`. -/
def BgbPacket.stamp (p : BgbPacket) (last : UInt32) : UInt32 :=
  if p.timestamped then p.timestamp else last

/-- The five facts about a packet that depend only on which command it is. -/
theorem BgbPacket.of_command {p : BgbPacket} {c : BgbCmd} (h : BgbCmd.ofCode p.cmd = some c) :
    p.known = (c != .version) ∧ p.isSync1 = (c == .sync1) ∧ p.isSync3 = (c == .sync3) := by
  have hcmd := BgbCmd.ofCode_eq_some h
  unfold BgbPacket.known BgbPacket.isSync1 BgbPacket.isSync3
  rw [h, hcmd]
  cases c <;> decide

theorem BgbPacket.isSync1_of_isSync3 {p : BgbPacket} (h : p.isSync3 = true) : p.isSync1 = false := by
  unfold BgbPacket.isSync3 at h
  unfold BgbPacket.isSync1
  rw [eq_of_beq h]
  decide

theorem BgbPacket.isSync1_of_unknown {p : BgbPacket} (h : p.known = false) : p.isSync1 = false := by
  rw [← Bool.not_eq_true]
  intro hp
  unfold BgbPacket.isSync1 at hp
  unfold BgbPacket.known at h
  rw [eq_of_beq hp] at h
  cases h

section Exec

variable {tgt : Target} {U σ : Type} {E : Env (Sys tgt) σ} {w w' : σ} {t : Trace (Sys tgt)}

/-! ## §2. The pieces. -/

/-- A poll shows nothing. -/
theorem exec_socketHasdata_obs {socket : SOCKET} {rc : Int}
    (h : Exec E (socketHasdata socket) w t rc w') : obsOf t = [] ∧ recvs t = [] := by
  obtain ⟨w₁, _, h⟩ := exec_socketHasdata h
  rcases h with ⟨ht, _⟩ | ⟨ht, _⟩ <;> subst ht <;> exact ⟨rfl, rfl⟩

/-- `bgb_send` hands the packet to `send` once and returns whether it was taken whole. -/
theorem exec_bgbSend {socket : SOCKET} {p : BgbPacket} {b : Bool}
    (h : Exec E (bgbSend socket p) w t b w') : obsOf t = [.sent p b] ∧ recvs t = [] := by
  unfold bgbSend at h
  rw [exec_ask_bind] at h
  obtain ⟨ans, w₁, t₁, _, ht, h⟩ := h
  -- the packet can be read back from the bytes handed to `send`
  have hobs : ∀ ans : Option Nat,
      obs (⟨.send socket (p.toBytes tgt.byteOrder), ans⟩ : Event (Sys tgt))
        = some (.sent p (allTaken (p.toBytes tgt.byteOrder) ans)) := by
    intro ans
    show some (Obs.sent (.ofBytes tgt.byteOrder (p.toBytes tgt.byteOrder))
      (allTaken (p.toBytes tgt.byteOrder) ans)) = _
    rw [BgbPacket.ofBytes_toBytes]
  subst ht
  rw [obsOf_cons, hobs, recvs_cons]
  cases ans with
  | none =>
    rw [exec_ask_bind] at h
    obtain ⟨u, w₂, t₂, _, ht₁, h⟩ := h
    rw [exec_pure] at h
    obtain ⟨ht₂, hb, _⟩ := h
    subst ht₁ ht₂ hb
    exact ⟨rfl, rfl⟩
  | some num =>
    rw [exec_pure] at h
    obtain ⟨ht₁, hb, _⟩ := h
    subst ht₁ hb
    refine ⟨?_, rfl⟩
    show [Obs.sent p (some num == some (p.toBytes tgt.byteOrder).length)] = [Obs.sent p (num == packetSize)]
    rw [BgbPacket.toBytes_length]
    rfl

/-- A packet is sent whole and the function goes on with `k`, or it returns `x`. -/
theorem exec_bgbSend_or {α : Type} {socket : SOCKET} {q : BgbPacket} {x r : α}
    {k : Prog (Sys tgt) α}
    (h : Exec E (bgbSend socket q >>= fun b => if (!b) = true then pure x else k) w t r w') :
    (obsOf t = [.sent q false] ∧ recvs t = [] ∧ r = x) ∨
      ∃ t₀ t₁ w₁, t = t₀ ++ t₁ ∧ obsOf t₀ = [.sent q true] ∧ recvs t₀ = [] ∧
        Exec E k w₁ t₁ r w' := by
  rw [exec_bind] at h
  obtain ⟨t₀, b, w₁, t₁, hsend, h, ht⟩ := h
  obtain ⟨hobs, hrecv⟩ := exec_bgbSend hsend
  cases b with
  | false =>
    rw [if_pos (by decide), exec_pure] at h
    obtain ⟨ht₁, hr, _⟩ := h
    subst ht ht₁
    rw [List.append_nil]
    exact Or.inl ⟨hobs, hrecv, hr⟩
  | true =>
    rw [if_neg (by decide)] at h
    exact Or.inr ⟨t₀, t₁, w₁, ht, hobs, hrecv, h⟩

/-- `bgb_recv` either delivers a packet, reading exactly its bytes, or reads no whole packet. -/
theorem exec_bgbRecv {socket : SOCKET} {r : Option BgbPacket}
    (h : Exec E (bgbRecv socket) w t r w') :
    (r = none ∧ obsOf t = [] ∧ ∃ a, recvs t = [a] ∧ ∀ c, a = some c → c.length ≠ packetSize) ∨
      ∃ p, r = some p ∧ obsOf t = [.packet p] ∧ recvs t = [some (p.toBytes tgt.byteOrder)] := by
  unfold bgbRecv at h
  rw [exec_ask_bind] at h
  obtain ⟨ans, w₁, t₁, _, ht, h⟩ := h
  subst ht
  rw [obsOf_cons, recvs_cons]
  cases ans with
  | none =>
    rw [exec_ask_bind] at h
    obtain ⟨u, w₂, t₂, _, ht₁, h⟩ := h
    rw [exec_pure] at h
    obtain ⟨ht₂, hr, _⟩ := h
    subst ht₁ ht₂ hr
    exact Or.inl ⟨rfl, rfl, none, rfl, fun c hc => nomatch hc⟩
  | some buf =>
    rw [exec_pure] at h
    obtain ⟨ht₁, hr, _⟩ := h
    subst ht₁ hr
    have hobs : obs (⟨.recv socket packetSize, some buf⟩ : Event (Sys tgt))
        = if buf.length = packetSize then some (.packet (.ofBytes tgt.byteOrder buf)) else none :=
      rfl
    have hbytes : recvAns (⟨.recv socket packetSize, some buf⟩ : Event (Sys tgt))
        = some (some buf) := rfl
    rw [hobs, hbytes]
    -- a short read is an answer of `recv` too, but no packet
    by_cases hlen : buf.length = packetSize
    · right
      refine ⟨.ofBytes tgt.byteOrder buf, if_pos hlen, ?_, ?_⟩
      · rw [if_pos hlen]
        rfl
      · rw [BgbPacket.toBytes_ofBytes _ hlen]
        rfl
    · left
      refine ⟨if_neg hlen, ?_, some buf, rfl, ?_⟩
      · rw [if_neg hlen]
        rfl
      · intro c hc
        injection hc with hc
        rw [← hc]
        exact hlen

/-! ## §3. The handshake. -/

/-- The first status packet `bgb_init` sends. -/
def greeting : BgbPacket where
  cmd := BgbCmd.status.code
  b2 := BGB_STATUS_RUNNING ||| BGB_STATUS_PAUSED ||| BGB_STATUS_SUPPORTRECONNECT
  b3 := 0
  b4 := 0
  timestamp := 0

/-- The second one, built over the status packet received. -/
def unpause (p : BgbPacket) : BgbPacket := { p with
  cmd := BgbCmd.status.code
  b2 := BGB_STATUS_RUNNING ||| BGB_STATUS_SUPPORTRECONNECT
  b3 := 0
  b4 := 0 }

/-- How far a handshake gets: what it shows and what `recv` answered, `true` when it succeeds. -/
inductive Handshake (o : ByteOrder) : Bool → List Obs → List (Option (List UInt8)) → Prop where
  | unsent : Handshake o false [.sent handshake false] []
  | noVersion {a : Option (List UInt8)} (h : ∀ c, a = some c → c.length ≠ packetSize) :
      Handshake o false [.sent handshake true] [a]
  | badVersion {p : BgbPacket} (h : p ≠ handshake) :
      Handshake o false [.sent handshake true, .packet p] [some (p.toBytes o)]
  | unsentStatus :
      Handshake o false [.sent handshake true, .packet handshake, .sent greeting false]
        [some (handshake.toBytes o)]
  | noStatus {a : Option (List UInt8)} (h : ∀ c, a = some c → c.length ≠ packetSize) :
      Handshake o false [.sent handshake true, .packet handshake, .sent greeting true]
        [some (handshake.toBytes o), a]
  | badStatus {p : BgbPacket} (h : p.cmd ≠ BgbCmd.status.code) :
      Handshake o false [.sent handshake true, .packet handshake, .sent greeting true, .packet p]
        [some (handshake.toBytes o), some (p.toBytes o)]
  | status {p : BgbPacket} (h : p.cmd = BgbCmd.status.code) (ok : Bool) :
      Handshake o ok
        [.sent handshake true, .packet handshake, .sent greeting true, .packet p,
          .sent (unpause p) ok]
        [some (handshake.toBytes o), some (p.toBytes o)]

/-- **Everything `bgb_init` can do.** -/
theorem bgbInit_cases {socket : SOCKET} {initByte : UInt8}
    {cbt : Option (U → UInt8 → Prog (Sys tgt) (UInt8 × U))}
    {cbs : Option (U → UInt32 → Prog (Sys tgt) U)} {ok : Bool} {state : BgbState tgt U}
    (h : Exec E (bgbInit socket initByte cbt cbs) w t (ok, state) w') :
    state = BgbState.start socket initByte cbt cbs ∧
      Handshake tgt.byteOrder ok (obsOf t) (recvs t) := by
  unfold bgbInit at h
  -- our version goes out
  rcases exec_bgbSend_or h with ⟨ho, hr, heq⟩ | ⟨t₁, t₂, w₁, ht, ho₁, hr₁, h⟩
  · obtain ⟨rfl, rfl⟩ := Prod.mk.inj heq
    rw [ho, hr]
    exact ⟨rfl, .unsent⟩
  -- theirs comes in
  rw [exec_bind] at h
  obtain ⟨t₃, r₃, w₃, t₄, hrecv, h, ht₂⟩ := h
  subst ht ht₂
  rcases exec_bgbRecv hrecv with ⟨hr, ho₃, a, hr₃, hlen⟩ | ⟨p, hr, ho₃, hr₃⟩
  · subst hr
    obtain ⟨ht₄, hr, _⟩ := (exec_pure E).mp h
    obtain ⟨rfl, rfl⟩ := Prod.mk.inj hr
    subst ht₄
    refine ⟨rfl, ?_⟩
    simp only [obsOf_append, recvs_append, ho₁, hr₁, ho₃, hr₃]
    exact .noVersion hlen
  subst hr
  dsimp only at h
  by_cases hp : p = handshake
  swap
  · rw [if_pos hp, exec_ask_bind] at h
    obtain ⟨u, w₅, t₅, _, ht₄, h⟩ := h
    obtain ⟨ht₅, hr, _⟩ := (exec_pure E).mp h
    obtain ⟨rfl, rfl⟩ := Prod.mk.inj hr
    subst ht₄ ht₅
    refine ⟨rfl, ?_⟩
    simp only [obsOf_append, recvs_append, ho₁, hr₁, ho₃, hr₃]
    exact .badVersion hp
  subst hp
  rw [if_neg (by simp)] at h
  -- the first status goes out
  rcases exec_bgbSend_or h with ⟨ho, hr, heq⟩ | ⟨t₅, t₆, w₅, ht, ho₅, hr₅, h⟩
  · obtain ⟨rfl, rfl⟩ := Prod.mk.inj heq
    refine ⟨rfl, ?_⟩
    simp only [obsOf_append, recvs_append, ho₁, hr₁, ho₃, hr₃, ho, hr]
    exact .unsentStatus
  have ho₅ : obsOf t₅ = [.sent greeting true] := ho₅
  -- theirs comes in
  rw [exec_bind] at h
  obtain ⟨t₇, r₇, w₇, t₈, hrecv₇, h, ht₆⟩ := h
  subst ht ht₆
  rcases exec_bgbRecv hrecv₇ with ⟨hr, ho₇, a, hr₇, hlen⟩ | ⟨p, hr, ho₇, hr₇⟩
  · subst hr
    obtain ⟨ht₈, hr, _⟩ := (exec_pure E).mp h
    obtain ⟨rfl, rfl⟩ := Prod.mk.inj hr
    subst ht₈
    refine ⟨rfl, ?_⟩
    simp only [obsOf_append, recvs_append, ho₁, hr₁, ho₃, hr₃, ho₅, hr₅, ho₇, hr₇]
    exact .noStatus hlen
  subst hr
  dsimp only at h
  by_cases hp : p.cmd = BgbCmd.status.code
  swap
  · rw [if_pos hp, exec_ask_bind] at h
    obtain ⟨u, w₉, t₉, _, ht₈, h⟩ := h
    obtain ⟨ht₉, hr, _⟩ := (exec_pure E).mp h
    obtain ⟨rfl, rfl⟩ := Prod.mk.inj hr
    subst ht₈ ht₉
    refine ⟨rfl, ?_⟩
    simp only [obsOf_append, recvs_append, ho₁, hr₁, ho₃, hr₃, ho₅, hr₅, ho₇, hr₇]
    exact .badStatus hp
  rw [if_neg (by simp [hp])] at h
  -- the second status goes out
  rcases exec_bgbSend_or h with ⟨ho, hr, heq⟩ | ⟨t₉, t₁₀, w₉, ht, ho₉, hr₉, h⟩
  · obtain ⟨rfl, rfl⟩ := Prod.mk.inj heq
    refine ⟨rfl, ?_⟩
    simp only [obsOf_append, recvs_append, ho₁, hr₁, ho₃, hr₃, ho₅, hr₅, ho₇, hr₇, ho, hr]
    exact .status hp false
  · obtain ⟨ht₁₀, hr, _⟩ := (exec_pure E).mp h
    obtain ⟨rfl, rfl⟩ := Prod.mk.inj hr
    subst ht ht₁₀
    refine ⟨rfl, ?_⟩
    simp only [obsOf_append, recvs_append, ho₁, hr₁, ho₃, hr₃, ho₅, hr₅, ho₇, hr₇, ho₉, hr₉]
    exact .status hp true

/-! ## §4. The switch. -/

/-- The transfer callback runs for a SYNC1 (when there is one), for no other packet. -/
def TransferExec (E : Env (Sys tgt) σ) (state : BgbState tgt U) (user : U) (p : BgbPacket)
    (w : σ) (t : Trace (Sys tgt)) (state' : BgbState tgt U) (user' : U) (w' : σ) : Prop :=
  match p.isSync1, state.callbackTransfer with
  | true, some callbackTransfer =>
      ∃ byte, Exec E (callbackTransfer user p.b2) w t (byte, user') w' ∧
        state' = { state with byte := byte }
  | _, _ => t = [] ∧ state' = state ∧ user' = user ∧ w' = w

/-- What a refused packet shows: itself, and possibly a reply that was not taken whole. -/
def Refused (p : BgbPacket) (byte : UInt8) (o : List Obs) : Prop :=
  (p.known = false ∧ o = []) ∨ ∃ q, p.replies byte = [q] ∧ o = [.sent q false]

/-- A packet without reply goes straight to the tail. -/
theorem transferExec_of_not_sync1 {state : BgbState tgt U} {user : U} {p : BgbPacket}
    (hp : p.isSync1 = false) : TransferExec E state user p w [] state user w := by
  unfold TransferExec
  rw [hp]
  exact ⟨rfl, rfl, rfl, rfl⟩

/-- What the switch does with a packet it handles: it sends the replies, then it runs the
    transfer callback. -/
def Handles (E : Env (Sys tgt) σ) (state : BgbState tgt U) (user : U) (p : BgbPacket)
    (t : Trace (Sys tgt)) (r : Option (BgbState tgt U × U × UInt32)) (w' : σ) : Prop :=
  ∃ t₀ t₁ w₁ state' user', t = t₀ ++ t₁ ∧ p.known = true ∧ recvs t₀ = [] ∧
    obsOf t₀ = (p.replies state.byte).map (Obs.sent · true) ∧
    TransferExec E state user p w₁ t₁ state' user' w' ∧
    r = some (state', user', p.stamp state.timestampLast)

/-- A packet that is neither answered nor transferred. -/
theorem handles_silent {state : BgbState tgt U} {user : U} {p : BgbPacket}
    {r : Option (BgbState tgt U × U × UInt32)} (hk : p.known = true) (hs₁ : p.isSync1 = false)
    (hrep : p.replies state.byte = [])
    (h : Exec E (pure (some (state, user, p.stamp state.timestampLast))) w t r w') :
    Handles E state user p t r w' := by
  rw [exec_pure] at h
  obtain ⟨ht, hr, hw⟩ := h
  subst ht hr hw
  refine ⟨[], [], _, state, user, rfl, hk, rfl, ?_, transferExec_of_not_sync1 hs₁, rfl⟩
  rw [hrep]
  rfl

/-- JOYPAD, SYNC2, STATUS and WANTDISCONNECT only run the tail. -/
theorem handles_ignored {state : BgbState tgt U} {user : U} {p : BgbPacket} {c : BgbCmd}
    {r : Option (BgbState tgt U × U × UInt32)} (hc : BgbCmd.ofCode p.cmd = some c)
    (hne₀ : (c != .version) = true) (hne₁ : (c == .sync1) = false) (hne₃ : (c == .sync3) = false)
    (h : Exec E (pure (some (state, user, state.timestampLast))) w t r w') :
    Handles E state user p t r w' := by
  obtain ⟨hk, hs₁, hs₃⟩ := BgbPacket.of_command hc
  rw [hne₀] at hk
  rw [hne₁] at hs₁
  rw [hne₃] at hs₃
  have hrep : p.replies state.byte = [] := by simp [BgbPacket.replies, hs₁, hs₃]
  have hst : p.stamp state.timestampLast = state.timestampLast := by
    simp [BgbPacket.stamp, BgbPacket.timestamped, hs₁, hs₃]
  rw [← hst] at h
  exact handles_silent hk hs₁ hrep h

/-- SYNC1: the reply, then the transfer callback. -/
theorem exec_switch_sync1 {state : BgbState tgt U} {user : U} {p : BgbPacket}
    {r : Option (BgbState tgt U × U × UInt32)} (hc : BgbCmd.ofCode p.cmd = some .sync1)
    (h : Exec E (bgbLoopSwitch state user p) w t r w') :
    recvs t = [] ∧ r = none ∧ Refused p state.byte (obsOf t) ∨ Handles E state user p t r w' := by
  obtain ⟨hk, hs₁, _⟩ := BgbPacket.of_command hc
  have hs₁ : p.isSync1 = true := hs₁
  have hrep : p.replies state.byte = [p.sync2 state.byte] := by simp [BgbPacket.replies, BgbPacket.sync2, hs₁]
  have hst : p.stamp state.timestampLast = p.timestamp := by
    simp [BgbPacket.stamp, BgbPacket.timestamped, hs₁]
  unfold bgbLoopSwitch at h
  rw [hc] at h
  rcases exec_bgbSend_or h with ⟨hobs, hrecv, hr⟩ | ⟨t₀, t₁, w₁, ht, hobs, hrecv, h⟩
  · exact Or.inl ⟨hrecv, hr, Or.inr ⟨_, hrep, hobs⟩⟩
  right
  have hsent : obsOf t₀ = (p.replies state.byte).map (Obs.sent · true) := by
    rw [hobs, hrep]
    rfl
  -- the reply went out with the OLD byte; the callback only now sets the next one
  cases hcb : state.callbackTransfer with
  | none =>
    simp only [hcb] at h
    rw [exec_pure] at h
    obtain ⟨ht₁, hr, hw⟩ := h
    subst ht₁ hw
    refine ⟨t₀, [], w', state, user, ht, hk, hrecv, hsent, ?_, by rw [hr, hst]⟩
    unfold TransferExec
    rw [hs₁, hcb]
    exact ⟨rfl, rfl, rfl, rfl⟩
  | some cb =>
    simp only [hcb] at h
    rw [exec_bind] at h
    obtain ⟨t₂, ⟨byte, user'⟩, w₂, t₃, hx, h, ht₁⟩ := h
    rw [exec_pure] at h
    obtain ⟨ht₃, hr, hw⟩ := h
    subst ht₁ ht₃ hw
    rw [List.append_nil] at ht
    refine ⟨t₀, t₂, w₁, { state with byte := byte }, user', ht, hk, hrecv, hsent, ?_, ?_⟩
    · unfold TransferExec
      rw [hs₁, hcb]
      exact ⟨byte, hx, rfl⟩
    · rw [hr, hst, hcb]

/-- SYNC3: echoed when `b2` is zero. -/
theorem exec_switch_sync3 {state : BgbState tgt U} {user : U} {p : BgbPacket}
    {r : Option (BgbState tgt U × U × UInt32)} (hc : BgbCmd.ofCode p.cmd = some .sync3)
    (h : Exec E (bgbLoopSwitch state user p) w t r w') :
    recvs t = [] ∧ r = none ∧ Refused p state.byte (obsOf t) ∨ Handles E state user p t r w' := by
  obtain ⟨hk, hs₁, hs₃⟩ := BgbPacket.of_command hc
  have hs₁ : p.isSync1 = false := hs₁
  have hs₃ : p.isSync3 = true := hs₃
  have hst : p.stamp state.timestampLast = p.timestamp := by
    simp [BgbPacket.stamp, BgbPacket.timestamped, hs₃]
  unfold bgbLoopSwitch at h
  rw [hc] at h
  dsimp only at h
  by_cases hb2 : p.b2 = 0
  · have hrep : p.replies state.byte = [p] := by simp [BgbPacket.replies, hs₁, hs₃, hb2]
    rw [if_neg (not_not.mpr hb2)] at h
    rcases exec_bgbSend_or h with ⟨hobs, hrecv, hr⟩ | ⟨t₀, t₁, w₁, ht, hobs, hrecv, h⟩
    · exact Or.inl ⟨hrecv, hr, Or.inr ⟨_, hrep, hobs⟩⟩
    · right
      rw [exec_pure] at h
      obtain ⟨ht₁, hr, hw⟩ := h
      subst ht₁ hw
      refine ⟨t₀, [], w', state, user, ht, hk, hrecv, ?_, transferExec_of_not_sync1 hs₁,
        by rw [hr, hst]⟩
      rw [hobs, hrep]
      rfl
  · right
    have hrep : p.replies state.byte = [] := by simp [BgbPacket.replies, hs₁, hb2]
    rw [if_pos hb2, ← hst] at h
    exact handles_silent hk hs₁ hrep h

/-- Any other command is refused. -/
theorem exec_switch_unknown {state : BgbState tgt U} {p : BgbPacket}
    {r : Option (BgbState tgt U × U × UInt32)} (hk : p.known = false)
    (h : Exec E (do
      Sys.diag (.unknownCommand p.cmd p.b2 p.b3 p.b4 p.timestamp)
      return none) w t r w') :
    recvs t = [] ∧ r = none ∧ Refused p state.byte (obsOf t) := by
  rw [exec_ask_bind] at h
  obtain ⟨u, w₁, t₁, _, ht, h⟩ := h
  rw [exec_pure] at h
  obtain ⟨ht₁, hr, _⟩ := h
  subst ht ht₁ hr
  exact ⟨rfl, rfl, Or.inl ⟨hk, rfl⟩⟩

/-- **Everything the switch can do.** -/
theorem exec_bgbLoopSwitch {state : BgbState tgt U} {user : U} {p : BgbPacket}
    {r : Option (BgbState tgt U × U × UInt32)} (h : Exec E (bgbLoopSwitch state user p) w t r w') :
    recvs t = [] ∧ r = none ∧ Refused p state.byte (obsOf t) ∨ Handles E state user p t r w' := by
  cases hc : BgbCmd.ofCode p.cmd with
  | none =>
    have hk : p.known = false := by
      unfold BgbPacket.known
      rw [hc]
    unfold bgbLoopSwitch at h
    rw [hc] at h
    exact Or.inl (exec_switch_unknown hk h)
  | some c =>
    cases c with
    | sync1 => exact exec_switch_sync1 hc h
    | sync3 => exact exec_switch_sync3 hc h
    -- a second version packet has no case of its own in the source
    | version =>
      unfold bgbLoopSwitch at h
      rw [hc] at h
      exact Or.inl (exec_switch_unknown (BgbPacket.of_command hc).1 h)
    | _ =>
      unfold bgbLoopSwitch at h
      rw [hc] at h
      exact Or.inr (handles_ignored hc rfl rfl rfl h)

/-! ## §5. The tail. -/

/-- The clock went back a little: by at most `0x100`, but not by zero, seen modulo `2^31`. -/
def WentBack (last cur : UInt32) : Prop :=
  (last - cur) &&& 0x7FFFFFFF ≠ 0 ∧ (last - cur) &&& 0x7FFFFFFF ≤ 0x100

instance (last cur : UInt32) : Decidable (WentBack last cur) := by
  unfold WentBack
  infer_instance

theorem not_wentBack_self (ts : UInt32) : ¬ WentBack ts ts := by
  unfold WentBack
  rw [UInt32.sub_self, UInt32.zero_and]
  exact fun h => h.1 rfl

/-- Following the clock: a step back or no step shows nothing and changes nothing, any other
    step calls back and is stored. -/
theorem exec_bgbLoopClockFollow {state state' : BgbState tgt U} {user user' : U}
    {cb : U → UInt32 → Prog (Sys tgt) U} {ts : UInt32}
    (h : Exec E (bgbLoopClockFollow state user cb ts) w t (state', user') w') :
    ((WentBack state.timestampLast ts ∨ ts = state.timestampLast) ∧
      state' = state ∧ user' = user ∧ obsOf t = [] ∧ recvs t = []) ∨
    (¬ WentBack state.timestampLast ts ∧ ts ≠ state.timestampLast ∧
      state' = { state with timestampLast := ts } ∧ Exec E (cb user ts) w t user' w') := by
  unfold bgbLoopClockFollow at h
  rw [exec_bind] at h
  obtain ⟨t₁, ts₁, w₁, t₂, h₁, h, ht⟩ := h
  rw [exec_bind] at h
  obtain ⟨t₃, user₁, w₃, t₄, h₃, h, ht₂⟩ := h
  rw [exec_pure] at h
  obtain ⟨ht₄, hr, hw⟩ := h
  obtain ⟨rfl, rfl⟩ : state' = { state with timestampLast := ts₁ } ∧ user' = user₁ := by
    simpa using hr
  subst ht₄ hw
  split at h₁
  next hback =>
    -- the time is put back to the last one, so there is nothing to report
    left
    rw [exec_ask_bind] at h₁
    obtain ⟨u, w₂, t₅, _, ht₁, h₁⟩ := h₁
    rw [exec_pure] at h₁
    obtain ⟨ht₅, hts, _⟩ := h₁
    subst hts
    rw [if_neg (by simp), exec_pure] at h₃
    obtain ⟨ht₃, hu, _⟩ := h₃
    subst ht ht₁ ht₂ ht₃ ht₅ hu
    exact ⟨Or.inl hback, rfl, rfl, rfl, rfl⟩
  next hback =>
    rw [exec_pure] at h₁
    obtain ⟨ht₁, hts, hw₁⟩ := h₁
    subst hts ht₁ hw₁
    by_cases heq : state.timestampLast ≠ ts₁
    · right
      rw [if_pos heq] at h₃
      subst ht ht₂
      rw [List.append_nil]
      exact ⟨hback, heq.symm, rfl, h₃⟩
    · left
      rw [if_neg heq, exec_pure] at h₃
      obtain ⟨ht₃, hu, _⟩ := h₃
      have heq : state.timestampLast = ts₁ := not_not.mp heq
      subst ht ht₂ ht₃ hu heq
      exact ⟨Or.inr rfl, rfl, rfl, rfl, rfl⟩

/-- The tail: the first timestamp initialises the clock, every later one is followed. -/
theorem exec_bgbLoopClock {state state' : BgbState tgt U} {user user' : U}
    {cb : U → UInt32 → Prog (Sys tgt) U} {ts : UInt32} (hcb : state.callbackTimestamp = some cb)
    (h : Exec E (bgbLoopClock state user ts) w t (state', user') w') :
    (state.timestampInit = false ∧
      state' = { state with timestampLast := ts, timestampInit := true } ∧
      ∃ t₁ t₂ w₁, t = t₁ ++ t₂ ∧ Exec E (cb user ts) w t₁ user' w₁ ∧
        obsOf t₂ = [] ∧ recvs t₂ = []) ∨
    (state.timestampInit = true ∧
      (((WentBack state.timestampLast ts ∨ ts = state.timestampLast) ∧
        state' = state ∧ user' = user ∧ obsOf t = [] ∧ recvs t = []) ∨
      (¬ WentBack state.timestampLast ts ∧ ts ≠ state.timestampLast ∧
        state' = { state with timestampLast := ts } ∧ Exec E (cb user ts) w t user' w'))) := by
  unfold bgbLoopClock at h
  simp only [hcb] at h
  rw [exec_bind] at h
  obtain ⟨t₁, ⟨state₁, user₁⟩, w₁, t₂, h₁, h, ht⟩ := h
  unfold bgbLoopClockInit at h₁
  by_cases hinit : state.timestampInit = true
  · right
    rw [if_pos hinit, exec_pure] at h₁
    obtain ⟨ht₁, hr, hw₁⟩ := h₁
    obtain ⟨rfl, rfl⟩ : state₁ = state ∧ user₁ = user := by simpa using hr
    subst ht ht₁ hw₁
    exact ⟨hinit, exec_bgbLoopClockFollow h⟩
  · left
    rw [if_neg hinit, exec_bind] at h₁
    obtain ⟨t₃, user₂, w₂, t₄, hx, h₁, ht₁⟩ := h₁
    rw [exec_pure] at h₁
    obtain ⟨ht₄, hr, hw₁⟩ := h₁
    obtain ⟨hs, rfl⟩ : state₁ = { state with timestampLast := ts, timestampInit := true } ∧
        user₁ = user₂ := by simpa using hr
    subst ht₄ hw₁ hs
    rw [List.append_nil] at ht₁
    subst ht₁
    -- the second half then compares the timestamp with itself
    rcases exec_bgbLoopClockFollow h with ⟨_, hst, hu, hobs, hrec⟩ | ⟨_, hne, _, _⟩
    · subst hst hu
      exact ⟨Bool.eq_false_iff.mpr hinit, rfl, t₁, t₂, _, ht, hx, hobs, hrec⟩
    · exact absurd rfl hne

/-! ## §6. The call. -/

/-- **Everything one call of `bgb_loop` can do.** -/
theorem bgbLoop_cases {state state' : BgbState tgt U} {user user' : U} {ok : Bool}
    (h : Exec E (bgbLoop state user) w t (ok, state', user') w') :
    (ok = true ∧ state' = state ∧ user' = user ∧ obsOf t = [] ∧ recvs t = [] ∧
      ∃ rc w₁, rc ≤ 0 ∧ E w (.poll [state.socket] 0) rc w₁) ∨
    (ok = false ∧ state' = state ∧ user' = user ∧ obsOf t = [] ∧
      ∃ a, recvs t = [a] ∧ ∀ c, a = some c → c.length ≠ packetSize) ∨
    (∃ p o, ok = false ∧ state' = state ∧ user' = user ∧ obsOf t = .packet p :: o ∧
      Refused p state.byte o ∧ recvs t = [some (p.toBytes tgt.byteOrder)]) ∨
    (∃ p t₀ t₁ t₂ w₁ w₂ state₁ user₁, ok = true ∧ t = t₀ ++ t₁ ++ t₂ ∧ p.known = true ∧
      obsOf t₀ = .packet p :: (p.replies state.byte).map (Obs.sent · true) ∧
      recvs t₀ = [some (p.toBytes tgt.byteOrder)] ∧
      TransferExec E state user p w₁ t₁ state₁ user₁ w₂ ∧
      Exec E (bgbLoopClock state₁ user₁ (p.stamp state.timestampLast)) w₂ t₂ (state', user') w') := by
  unfold bgbLoop at h
  rw [exec_bind] at h
  obtain ⟨t₀, rc, w₁, t₁, hpoll, h, ht⟩ := h
  obtain ⟨hobs₀, hrecv₀⟩ := exec_socketHasdata_obs hpoll
  split at h
  -- nothing to read, or the poll failed
  next hrc =>
    left
    obtain ⟨w₂, hE, _⟩ := exec_socketHasdata hpoll
    rw [exec_pure] at h
    obtain ⟨ht₁, hr, _⟩ := h
    obtain ⟨rfl, rfl, rfl⟩ : ok = true ∧ state' = state ∧ user' = user := by simpa using hr
    subst ht ht₁
    rw [List.append_nil]
    exact ⟨rfl, rfl, rfl, hobs₀, hrecv₀, rc, w₂, hrc, hE⟩
  next =>
    right
    rw [exec_bind] at h
    obtain ⟨t₂, r, w₂, t₃, hrecv, h, ht₁⟩ := h
    rcases exec_bgbRecv hrecv with ⟨hr, hobs₂, a, ha, hlen⟩ | ⟨p, hr, hobs₂, hbytes⟩
    · -- no whole packet
      left
      subst hr
      rw [exec_pure] at h
      obtain ⟨ht₃, hr, _⟩ := h
      obtain ⟨rfl, rfl, rfl⟩ : ok = false ∧ state' = state ∧ user' = user := by simpa using hr
      subst ht ht₁ ht₃
      refine ⟨rfl, rfl, rfl, ?_, a, ?_, hlen⟩
      · simp [hobs₀, hobs₂]
      · simp [hrecv₀, ha]
    · right
      subst hr
      rw [exec_bind] at h
      obtain ⟨t₄, r, w₄, t₅, hsw, h, ht₃⟩ := h
      rcases exec_bgbLoopSwitch hsw with ⟨hrecv₄, hr, href⟩
        | ⟨t₆, t₇, w₆, state₁, user₁, ht₄, hk, hrecv₆, hobs₆, htr, hr⟩
      · -- refused by the switch
        left
        subst hr
        rw [exec_pure] at h
        obtain ⟨ht₅, hr, _⟩ := h
        obtain ⟨rfl, rfl, rfl⟩ : ok = false ∧ state' = state ∧ user' = user := by simpa using hr
        subst ht ht₁ ht₃ ht₅
        refine ⟨p, obsOf t₄, rfl, rfl, rfl, ?_, href, ?_⟩
        · simp [hobs₀, hobs₂]
        · simp [hrecv₀, hbytes, hrecv₄]
      · -- handled, then the clock
        right
        subst hr
        rw [exec_bind] at h
        obtain ⟨t₈, ⟨state₂, user₂⟩, w₈, t₉, hclock, h, ht₅⟩ := h
        rw [exec_pure] at h
        obtain ⟨ht₉, hr, hw⟩ := h
        obtain ⟨rfl, rfl, rfl⟩ : ok = true ∧ state' = state₂ ∧ user' = user₂ := by simpa using hr
        subst ht ht₁ ht₃ ht₄ ht₅ ht₉ hw
        refine ⟨p, t₀ ++ (t₂ ++ t₆), t₇, t₈, w₆, w₄, state₁, user₁, rfl, by simp, hk, ?_, ?_, htr,
          hclock⟩
        · simp [hobs₀, hobs₂, hobs₆]
        · simp [hrecv₀, hbytes, hrecv₆]

end Exec

end MobileBgb.Link
