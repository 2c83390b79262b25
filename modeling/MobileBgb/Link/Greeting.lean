/-
  MobileBgb.Link.Greeting — what `bgb_init` sends, byte by byte.

  Three packets go out in the handshake: the version, a status that says PAUSED and a
  status that says it no longer.  One buffer is used for these and for the two packets
  that come in, so a field that is not written before a send is one the PEER chose.
  For the second status that is the timestamp: the first one sets it to 0, the second
  one does not.

    * `peerEnv`          — a peer with a byte stream; a send or a `recv` may fail or
                           stop short anywhere;
    * `init_sends_iff`   — for each stream: whatever fails, the bytes sent are the
                           beginning of one fixed sequence, all of it exactly when
                           `bgb_init` returns `true`, if and only if the status packet
                           of the peer, when it comes to it, has the timestamp 0.
-/
import MobileBgb.Link.LoopCases

namespace MobileBgb.Link

open MobileBgb.Effect
open MobileBgb.System

variable {tgt : Target} {U α : Type}

/-! ## §1. The bytes sent. -/

/-- The bytes a `send` took. -/
def sentPiece : Event (Sys tgt) → List UInt8
  | ⟨.send _ data, ans⟩ => data.take ((ans : Option Nat).getD 0)
  | _ => []

/-- All bytes sent in a trace, in order. -/
def sentBytes (t : Trace (Sys tgt)) : List UInt8 := t.flatMap sentPiece

theorem sentBytes_cons (e : Event (Sys tgt)) (t : Trace (Sys tgt)) :
    sentBytes (e :: t) = sentPiece e ++ sentBytes t := List.flatMap_cons

/-- The second status packet, as the source's other packets are: every field set. -/
def resume : BgbPacket where
  cmd := BgbCmd.status.code
  b2 := BGB_STATUS_RUNNING ||| BGB_STATUS_SUPPORTRECONNECT
  b3 := 0
  b4 := 0
  timestamp := 0

/-- The version, the status RUNNING, PAUSED, SUPPORTRECONNECT and the status RUNNING,
    SUPPORTRECONNECT: 24 bytes. -/
def initBytes (o : ByteOrder) : List UInt8 :=
  handshake.toBytes o ++ (greeting.toBytes o ++ resume.toBytes o)

theorem initBytes_length (o : ByteOrder) : (initBytes o).length = 3 * packetSize := by
  unfold initBytes
  rw [List.length_append, List.length_append, BgbPacket.toBytes_length, BgbPacket.toBytes_length,
    BgbPacket.toBytes_length]
  rfl

/-! ## §2. The peer. -/

/-- A peer whose stream is the state: a `recv` takes at most as many bytes as it asks for, or fails,
    a `send` takes at most as many as it was given, or fails. -/
def peerEnv (tgt : Target) : Env (Sys tgt) (List UInt8) := fun bs op ans bs' =>
  match op, ans with
  | .send _ data, ans => (∀ n, ans = some n → n ≤ data.length) ∧ bs' = bs
  | .recv _ size, ans =>
      (ans = none ∧ bs' = bs) ∨ ∃ c, ans = some c ∧ c.length ≤ size ∧ bs = c ++ bs'
  | _, _ => bs' = bs

/-- The answers of a peer with whom no I/O fails: each send is taken whole, each `recv` gets all it
    asks for as long as the stream has it. -/
def calmServe (bs : List UInt8) : (op : SysOp tgt) → op.Ans × List UInt8
  | .send _ data => (some data.length, bs)
  | .recv _ size => (some (bs.take size), bs.drop size)
  | op => (plainAns op, bs)

def calmEnv (tgt : Target) : Env (Sys tgt) (List UInt8) := fun bs op ans bs' =>
  (ans, bs') = calmServe bs op

theorem calmEnv_peerEnv (bs : List UInt8) (op : SysOp tgt) (ans : op.Ans) (bs' : List UInt8)
    (h : calmEnv tgt bs op ans bs') : peerEnv tgt bs op ans bs' := by
  obtain ⟨hans, hbs⟩ := Prod.mk.inj h
  subst hans hbs
  cases op with
  | send fd data =>
    refine ⟨?_, rfl⟩
    intro n hn
    injection hn with hn
    exact Nat.le_of_eq hn.symm
  | recv fd size =>
    right
    exact ⟨bs.take size, rfl, List.length_take_le _ _, (List.take_append_drop _ _).symm⟩
  | _ => rfl

/-- What was received and what is left make up the stream. -/
theorem peerEnv_received :
    ∀ {p : Prog (Sys tgt) α} {bs bs' : List UInt8} {t : Trace (Sys tgt)} {a : α},
      Exec (peerEnv tgt) p bs t a bs' → bs = received t ++ bs'
  | .ret _, bs, bs', t, a, h => by
      obtain ⟨ht, _, hbs⟩ := h
      rw [ht, hbs]
      rfl
  | .call op k, bs, bs', t, a, h => by
      obtain ⟨x, bs₁, t₁, hE, ht, h⟩ := h
      have ih := peerEnv_received h
      rw [ht]
      cases op with
      | recv fd size =>
        rcases hE with ⟨hx, hbs⟩ | ⟨c, hx, _, hbs⟩
        · subst hx
          rw [← hbs]
          exact ih
        · subst hx
          show bs = (c ++ received t₁) ++ bs'
          rw [List.append_assoc, ← ih, hbs]
      | send fd data =>
        obtain ⟨_, hbs⟩ := hE
        rw [← hbs]
        exact ih
      | _ =>
        have hbs : bs₁ = bs := hE
        rw [← hbs]
        exact ih

/-! ## §3. From packets to bytes. -/

/-- The bytes that went out with an observation: a packet whole, or less of it than all. -/
def Piece (o : ByteOrder) (e : Obs) (c : List UInt8) : Prop :=
  match e with
  | .sent p complete =>
      if complete then c = p.toBytes o else c <+: p.toBytes o ∧ c.length < packetSize
  | _ => c = []

/-- The bytes that went out with a sequence of observations. -/
def Wire (o : ByteOrder) : List Obs → List UInt8 → Prop
  | [], bs => bs = []
  | e :: es, bs => ∃ c rest, Piece o e c ∧ Wire o es rest ∧ bs = c ++ rest

@[simp] theorem wire_nil {o : ByteOrder} {c : List UInt8} : Wire o [] c ↔ c = [] := Iff.rfl

@[simp] theorem wire_packet {o : ByteOrder} {p : BgbPacket} {es : List Obs} {c : List UInt8} :
    Wire o (.packet p :: es) c ↔ Wire o es c := by
  constructor
  · rintro ⟨d, rest, hd, hrest, hc⟩
    have hd : d = [] := hd
    rw [hc, hd]
    exact hrest
  · intro h
    exact ⟨[], c, rfl, h, rfl⟩

@[simp] theorem wire_sent {o : ByteOrder} {p : BgbPacket} {es : List Obs} {c : List UInt8} :
    Wire o (.sent p true :: es) c ↔ ∃ rest, Wire o es rest ∧ c = p.toBytes o ++ rest := by
  constructor
  · rintro ⟨d, rest, hd, hrest, hc⟩
    have hd : d = p.toBytes o := hd
    rw [hd] at hc
    exact ⟨rest, hrest, hc⟩
  · rintro ⟨rest, hrest, hc⟩
    exact ⟨p.toBytes o, rest, rfl, hrest, hc⟩

/-- A packet that was not taken whole ends a handshake. -/
@[simp] theorem wire_cut {o : ByteOrder} {p : BgbPacket} {c : List UInt8} :
    Wire o [.sent p false] c ↔ c <+: p.toBytes o ∧ c.length < packetSize := by
  constructor
  · rintro ⟨d, rest, hd, hrest, hc⟩
    have hrest : rest = [] := hrest
    rw [hrest, List.append_nil] at hc
    rw [hc]
    exact hd
  · intro h
    exact ⟨c, [], h, rfl, (List.append_nil c).symm⟩

/-- A request that sends, if anything, a packet. -/
def SendsPacket : SysOp tgt → Prop
  | .send _ data => data.length = packetSize
  | _ => True

/-- A `send` of a packet: the bytes it took, from what it shows. -/
theorem piece_send {o : ByteOrder} {data : List UInt8} {x : Option Nat}
    (hlen : data.length = packetSize) (hle : ∀ n, x = some n → n ≤ data.length) :
    Piece o (.sent (.ofBytes o data) (allTaken data x)) (data.take (x.getD 0)) := by
  unfold Piece
  dsimp only
  rw [BgbPacket.toBytes_ofBytes o hlen]
  -- how much of the packet did `send` take?
  cases x with
  | none =>
    refine ⟨List.take_prefix _ _, ?_⟩
    show 0 < packetSize
    decide
  | some n =>
    by_cases hn : n = data.length
    · subst hn
      rw [show allTaken data (some data.length) = true from beq_self_eq_true _, if_pos rfl]
      exact List.take_length
    · have htaken : allTaken data (some n) = false := by
        unfold allTaken
        rw [beq_eq_false_iff_ne]
        intro h
        injection h with h
        exact hn h
      rw [htaken, if_neg (by decide)]
      refine ⟨List.take_prefix _ _, ?_⟩
      have hn' := hle n rfl
      show (data.take n).length < packetSize
      rw [List.length_take]
      omega

/-- A `recv` sends nothing, whatever it shows. -/
theorem piece_recv {fd : SOCKET} {size : Nat} {x : Option (List UInt8)} {e : Obs}
    (h : obs (⟨.recv fd size, x⟩ : Event (Sys tgt)) = some e) : Piece tgt.byteOrder e [] := by
  cases x with
  | none => cases h
  | some c =>
    have h : (if c.length = packetSize then
        some (Obs.packet (.ofBytes tgt.byteOrder c)) else none) = some e := h
    split at h
    · injection h with h
      rw [← h]
      rfl
    · cases h

/-- The bytes of a trace in which only packets are sent, from what it shows. -/
theorem peerEnv_wire :
    ∀ {p : Prog (Sys tgt) α} {bs bs' : List UInt8} {t : Trace (Sys tgt)} {a : α},
      p.Uses SendsPacket → Exec (peerEnv tgt) p bs t a bs' →
      Wire tgt.byteOrder (obsOf t) (sentBytes t)
  | .ret _, bs, bs', t, a, _, h => by
      rw [h.1]
      rfl
  | .call op k, bs, bs', t, a, hu, h => by
      obtain ⟨x, bs₁, t₁, hE, ht, h⟩ := h
      have ih := peerEnv_wire (hu.2 x) h
      rw [ht, obsOf_cons, sentBytes_cons]
      cases op with
      | send fd data => exact ⟨_, _, piece_send hu.1 hE.1, ih, rfl⟩
      | recv fd size =>
        have hnone : sentPiece (⟨.recv fd size, x⟩ : Event (Sys tgt)) = [] := rfl
        rw [hnone, List.nil_append]
        cases hobs : obs (⟨.recv fd size, x⟩ : Event (Sys tgt)) with
        | none => exact ih
        | some e => exact ⟨[], _, piece_recv hobs, ih, rfl⟩
      | diag msg =>
        cases msg with
        | emulatorReset => exact ⟨[], _, rfl, ih, rfl⟩
        | _ => exact ih
      | _ => first | exact ih | exact ⟨[], _, rfl, ih, rfl⟩

/-! ## §4. The handshake. -/

theorem uses_bgbSend (socket : SOCKET) (buf : BgbPacket) :
    (bgbSend socket buf : Prog (Sys tgt) Bool).Uses SendsPacket := by
  unfold bgbSend
  refine Prog.uses_bind (Prog.uses_ask (BgbPacket.toBytes_length _ _)) ?_
  intro ans
  cases ans with
  | none => exact Prog.uses_bind (Prog.uses_ask trivial) fun _ => Prog.uses_pure _
  | some n => exact Prog.uses_pure _

theorem uses_bgbRecv (socket : SOCKET) :
    (bgbRecv socket : Prog (Sys tgt) (Option BgbPacket)).Uses SendsPacket := by
  unfold bgbRecv
  refine Prog.uses_bind (Prog.uses_ask trivial) ?_
  intro ans
  cases ans with
  | none => exact Prog.uses_bind (Prog.uses_ask trivial) fun _ => Prog.uses_pure _
  | some n => exact Prog.uses_pure _

/-- `bgb_init` sends nothing but packets. -/
theorem uses_bgbInit (socket : SOCKET) (initByte : UInt8)
    (cbt : Option (U → UInt8 → Prog (Sys tgt) (UInt8 × U)))
    (cbs : Option (U → UInt32 → Prog (Sys tgt) U)) :
    (bgbInit socket initByte cbt cbs).Uses SendsPacket := by
  unfold bgbInit
  repeat' first
    | exact Prog.uses_pure _
    | exact Prog.uses_ask trivial
    | exact uses_bgbSend _ _
    | exact uses_bgbRecv _
    | refine Prog.uses_bind ?_ ?_
    | intro _
    | split

/-- The packet in the second eight bytes of a stream. -/
def secondPacket (o : ByteOrder) (bs : List UInt8) : BgbPacket :=
  .ofBytes o ((bs.drop packetSize).take packetSize)

/-- The stream begins with the version packet and a whole packet with the command STATUS. -/
def Greets (o : ByteOrder) (bs : List UInt8) : Prop :=
  bs.take packetSize = handshake.toBytes o ∧ 2 * packetSize ≤ bs.length ∧
    (secondPacket o bs).cmd = BgbCmd.status.code

theorem secondPacket_append (o : ByteOrder) (p q : BgbPacket) (rest : List UInt8) :
    secondPacket o (p.toBytes o ++ (q.toBytes o ++ rest)) = q := by
  unfold secondPacket
  rw [List.drop_left' (BgbPacket.toBytes_length o p), List.take_left' (BgbPacket.toBytes_length o q),
    BgbPacket.ofBytes_toBytes]

/-- The two packets at the front of such a stream. -/
theorem greets_iff (o : ByteOrder) (bs : List UInt8) :
    Greets o bs ↔ ∃ (p : BgbPacket) (rest : List UInt8), bs = handshake.toBytes o ++ (p.toBytes o ++ rest) ∧
      p.cmd = BgbCmd.status.code := by
  constructor
  · rintro ⟨hver, hlen, hcmd⟩
    refine ⟨secondPacket o bs, (bs.drop packetSize).drop packetSize, ?_, hcmd⟩
    have hsecond : ((bs.drop packetSize).take packetSize).length = packetSize := by
      rw [List.length_take, List.length_drop]
      omega
    unfold secondPacket
    rw [BgbPacket.toBytes_ofBytes o hsecond, ← hver, List.take_append_drop, List.take_append_drop]
  · rintro ⟨p, rest, hbs, hcmd⟩
    subst hbs
    refine ⟨List.take_left' (BgbPacket.toBytes_length o _), ?_, ?_⟩
    · rw [List.length_append, List.length_append, BgbPacket.toBytes_length, BgbPacket.toBytes_length]
      omega
    · rw [secondPacket_append]
      exact hcmd

/-- A status whose timestamp the peer left at 0 is answered as it should be. -/
theorem unpause_eq_resume {p : BgbPacket} (h : p.timestamp = 0) : unpause p = resume := by
  unfold unpause resume
  rw [h]

/-- An incomplete piece of the next packet, after packets that went out whole. -/
theorem prefix_of_piece {pre rest c d : List UInt8} (h : c <+: d) : pre ++ c <+: pre ++ (d ++ rest) :=
  (List.prefix_append_right_inj pre).mpr (h.trans (List.prefix_append d rest))

/-- The bytes of a handshake, as far as it got: the beginning of `initBytes`, all of it when it
    succeeded; provided the timestamp that is sent back is 0. -/
theorem handshake_wire {o : ByteOrder} {ok : Bool} {obs : List Obs}
    {rs : List (Option (List UInt8))} {c : List UInt8} (h : Handshake o ok obs rs)
    (hw : Wire o obs c)
    (hzero : ∀ p : BgbPacket, p.cmd = BgbCmd.status.code →
      rs = [some (handshake.toBytes o), some (p.toBytes o)] → p.timestamp = 0) :
    c <+: initBytes o ∧ (c.length = 3 * packetSize ↔ ok = true) := by
  have hlen : ∀ p : BgbPacket, (p.toBytes o).length = packetSize := BgbPacket.toBytes_length o
  have hpos : 0 < packetSize := by decide
  unfold initBytes
  -- one case for each point at which the handshake may have ended
  cases h with
  | unsent =>
    obtain ⟨hpart, hlt⟩ := wire_cut.mp hw
    refine ⟨hpart.trans (List.prefix_append _ _), ?_⟩
    simp only [Bool.false_eq_true, iff_false]
    omega
  | noVersion _ | badVersion _ =>
    -- the version is out, whatever came back
    simp only [wire_sent, wire_packet, wire_nil] at hw
    obtain ⟨_, rfl, rfl⟩ := hw
    refine ⟨prefix_of_piece List.nil_prefix, ?_⟩
    simp only [List.length_append, hlen, List.length_nil, Bool.false_eq_true, iff_false]
    omega
  | unsentStatus =>
    simp only [wire_sent, wire_packet, wire_cut] at hw
    obtain ⟨c₂, ⟨hpart, hlt⟩, rfl⟩ := hw
    refine ⟨prefix_of_piece hpart, ?_⟩
    simp only [List.length_append, hlen, Bool.false_eq_true, iff_false]
    omega
  | noStatus _ | badStatus _ =>
    -- the first STATUS is out, whatever came back
    simp only [wire_sent, wire_packet, wire_nil] at hw
    obtain ⟨_, ⟨_, rfl, rfl⟩, rfl⟩ := hw
    rw [List.append_nil]
    refine ⟨prefix_of_piece (List.prefix_refl _), ?_⟩
    simp only [List.length_append, hlen, Bool.false_eq_true, iff_false]
    omega
  | @status p hp ok =>
    rw [unpause_eq_resume (hzero p hp rfl)] at hw
    cases ok with
    | true =>
      simp only [wire_sent, wire_packet, wire_nil] at hw
      obtain ⟨_, ⟨_, ⟨_, rfl, rfl⟩, rfl⟩, rfl⟩ := hw
      rw [List.append_nil]
      refine ⟨List.prefix_refl _, ?_⟩
      simp only [List.length_append, hlen, iff_true]
      omega
    | false =>
      simp only [wire_sent, wire_packet, wire_cut] at hw
      obtain ⟨_, ⟨c₃, ⟨hpart, hlt⟩, rfl⟩, rfl⟩ := hw
      rw [← List.append_assoc, ← List.append_assoc]
      refine ⟨(List.prefix_append_right_inj _).mpr hpart, ?_⟩
      simp only [List.length_append, hlen, Bool.false_eq_true, iff_false]
      omega

/-! ## §5. When no I/O fails. -/

theorem calm_bgbSend {socket : SOCKET} {q : BgbPacket} {bs bs' : List UInt8} {t : Trace (Sys tgt)}
    {b : Bool} (h : Exec (calmEnv tgt) (bgbSend socket q) bs t b bs') : b = true ∧ bs' = bs := by
  unfold bgbSend at h
  rw [exec_ask_bind] at h
  obtain ⟨ans, bs₁, t₁, hE, _, h⟩ := h
  obtain ⟨hans, hbs⟩ := Prod.mk.inj hE
  subst hans hbs
  obtain ⟨_, hb, hbs'⟩ := (exec_pure _).mp h
  rw [BgbPacket.toBytes_length] at hb
  exact ⟨hb, hbs'⟩

theorem calm_bgbRecv {socket : SOCKET} {q : BgbPacket} {rest bs' : List UInt8}
    {t : Trace (Sys tgt)} {r : Option BgbPacket}
    (h : Exec (calmEnv tgt) (bgbRecv socket) (q.toBytes tgt.byteOrder ++ rest) t r bs') :
    r = some q ∧ bs' = rest := by
  unfold bgbRecv at h
  rw [exec_ask_bind] at h
  obtain ⟨ans, bs₁, t₁, hE, _, h⟩ := h
  obtain ⟨hans, hbs⟩ := Prod.mk.inj hE
  have hlen := BgbPacket.toBytes_length tgt.byteOrder q
  rw [List.take_left' hlen] at hans
  rw [List.drop_left' hlen] at hbs
  subst hans hbs
  obtain ⟨_, hr, hbs'⟩ := (exec_pure _).mp h
  rw [if_pos hlen, BgbPacket.ofBytes_toBytes] at hr
  exact ⟨hr, hbs'⟩

/-- Whatever may fail: a handshake that succeeds has read the version and a status. -/
theorem greets_of_success {socket : SOCKET} {initByte : UInt8}
    {cbt : Option (U → UInt8 → Prog (Sys tgt) (UInt8 × U))}
    {cbs : Option (U → UInt32 → Prog (Sys tgt) U)} {bs bs' : List UInt8} {t : Trace (Sys tgt)}
    {state : BgbState tgt U}
    (h : Exec (peerEnv tgt) (bgbInit socket initByte cbt cbs) bs t (true, state) bs') :
    ∃ p, Greets tgt.byteOrder bs ∧ secondPacket tgt.byteOrder bs = p ∧
      sentBytes t = handshake.toBytes tgt.byteOrder ++
        (greeting.toBytes tgt.byteOrder ++ (unpause p).toBytes tgt.byteOrder) := by
  obtain ⟨_, hshake⟩ := bgbInit_cases h
  have hwire := peerEnv_wire (uses_bgbInit socket initByte cbt cbs) h
  have hstream := peerEnv_received h
  generalize obsOf t = obs at hshake hwire
  unfold received at hstream
  generalize recvs t = rs at hshake hstream
  cases hshake with
  | @status p hp ok =>
    have hstream : bs = handshake.toBytes tgt.byteOrder ++ (p.toBytes tgt.byteOrder ++ bs') := by
      rw [hstream]
      simp
    refine ⟨p, (greets_iff _ _).mpr ⟨p, bs', hstream, hp⟩, ?_, ?_⟩
    · rw [hstream, secondPacket_append]
    · simp only [wire_sent, wire_packet, wire_nil] at hwire
      obtain ⟨_, ⟨_, ⟨_, rfl, hc₃⟩, hc₂⟩, hc₁⟩ := hwire
      rw [hc₁, hc₂, hc₃, List.append_nil]

/-- With no I/O failure, a peer that greets is enough. -/
theorem calm_bgbInit {socket : SOCKET} {initByte : UInt8}
    {cbt : Option (U → UInt8 → Prog (Sys tgt) (UInt8 × U))}
    {cbs : Option (U → UInt32 → Prog (Sys tgt) U)} {bs bs' : List UInt8} {t : Trace (Sys tgt)}
    {ok : Bool} {state : BgbState tgt U} (hg : Greets tgt.byteOrder bs)
    (h : Exec (calmEnv tgt) (bgbInit socket initByte cbt cbs) bs t (ok, state) bs') : ok = true := by
  obtain ⟨p, rest, hbs, hp⟩ := (greets_iff _ _).mp hg
  subst hbs
  unfold bgbInit at h
  -- the version out and in
  rw [exec_bind] at h
  obtain ⟨t₁, b₁, bs₁, t₂, hsend₁, h, _⟩ := h
  obtain ⟨rfl, rfl⟩ := calm_bgbSend hsend₁
  rw [if_neg (by decide), exec_bind] at h
  obtain ⟨t₃, r₃, bs₃, t₄, hrecv₃, h, _⟩ := h
  obtain ⟨rfl, rfl⟩ := calm_bgbRecv hrecv₃
  dsimp only at h
  rw [if_neg (by simp), exec_bind] at h
  -- the status out and in
  obtain ⟨t₅, b₅, bs₅, t₆, hsend₅, h, _⟩ := h
  obtain ⟨rfl, rfl⟩ := calm_bgbSend hsend₅
  rw [if_neg (by decide), exec_bind] at h
  obtain ⟨t₇, r₇, bs₇, t₈, hrecv₇, h, _⟩ := h
  obtain ⟨rfl, rfl⟩ := calm_bgbRecv hrecv₇
  dsimp only at h
  rw [if_neg (by simp [hp]), exec_bind] at h
  -- the second status out
  obtain ⟨t₉, b₉, bs₉, t₁₀, hsend₉, h, _⟩ := h
  obtain ⟨rfl, _⟩ := calm_bgbSend hsend₉
  rw [if_neg (by decide)] at h
  obtain ⟨_, hr, _⟩ := (exec_pure _).mp h
  exact (Prod.mk.inj hr).1

/-! ## §6. What is sent does not depend on the peer. -/

/-- **What `bgb_init` sends.**  For the stream `bs` of a peer: wherever a send or a `recv` fails or
    stops short, the bytes sent are the beginning of `initBytes`, and all of them exactly when
    `bgb_init` returns `true`; and when nothing fails it does so exactly when the stream begins
    with the version and a STATUS packet.  This holds if and only if that STATUS packet, in a
    stream that begins so, carries the timestamp 0. -/
theorem init_sends_iff (socket : SOCKET) (initByte : UInt8)
    (cbt : Option (U → UInt8 → Prog (Sys tgt) (UInt8 × U)))
    (cbs : Option (U → UInt32 → Prog (Sys tgt) U)) (bs : List UInt8) :
    ((∀ t ok state bs',
        Exec (peerEnv tgt) (bgbInit socket initByte cbt cbs) bs t (ok, state) bs' →
        sentBytes t <+: initBytes tgt.byteOrder ∧
          (sentBytes t = initBytes tgt.byteOrder ↔ ok = true)) ∧
      ∀ t ok state bs',
        Exec (calmEnv tgt) (bgbInit socket initByte cbt cbs) bs t (ok, state) bs' →
        (ok = true ↔ Greets tgt.byteOrder bs)) ↔
      (Greets tgt.byteOrder bs → (secondPacket tgt.byteOrder bs).timestamp = 0) := by
  constructor
  · rintro ⟨hsent, hcalm⟩ hg
    -- the run in which nothing fails
    have hx := exec_run (E := calmEnv tgt) (h := calmServe) (fun _ _ => rfl)
      (bgbInit socket initByte cbt cbs) bs
    generalize (bgbInit socket initByte cbt cbs).run calmServe bs = run at hx
    obtain ⟨t, ⟨ok, state⟩, bs'⟩ := run
    have hpeer := Exec.mono calmEnv_peerEnv hx
    have hok : ok = true := (hcalm t ok state bs' hx).mpr hg
    subst hok
    obtain ⟨p, _, hp, hbytes⟩ := greets_of_success hpeer
    have hall := ((hsent t true state bs' hpeer).2).mpr rfl
    rw [hbytes] at hall
    unfold initBytes at hall
    have hunpause : unpause p = resume :=
      BgbPacket.toBytes_injective _ (List.append_cancel_left (List.append_cancel_left hall))
    rw [hp]
    exact congrArg BgbPacket.timestamp hunpause
  · intro hzero
    refine ⟨?_, ?_⟩
    · intro t ok state bs' h
      obtain ⟨_, hshake⟩ := bgbInit_cases h
      have hwire := peerEnv_wire (uses_bgbInit socket initByte cbt cbs) h
      have hstream := peerEnv_received h
      obtain ⟨hbegin, hlen⟩ := handshake_wire hshake hwire (by
        intro p hp hrs
        have hbs : bs = handshake.toBytes tgt.byteOrder ++ (p.toBytes tgt.byteOrder ++ bs') := by
          rw [hstream]
          unfold received
          rw [hrs]
          simp
        have hts := hzero ((greets_iff _ _).mpr ⟨p, bs', hbs, hp⟩)
        rw [hbs, secondPacket_append] at hts
        exact hts)
      refine ⟨hbegin, ?_⟩
      rw [← hlen, ← initBytes_length tgt.byteOrder]
      constructor
      · intro heq
        rw [heq]
      · intro heq
        exact hbegin.eq_of_length heq
    · intro t ok state bs' h
      constructor
      · intro hok
        subst hok
        obtain ⟨_, hg, _⟩ := greets_of_success (Exec.mono calmEnv_peerEnv h)
        exact hg
      · intro hg
        exact calm_bgbInit hg h

/-- A peer whose status packet carries the timestamp 0x1234. -/
def stampedPeer : List UInt8 :=
  [handshake, ⟨108, 5, 0, 0, 0x1234⟩].flatMap (BgbPacket.toBytes .little)

def stampedInit : Trace (Sys host) × (Bool × BgbState host Unit) × List UInt8 :=
  (bgbInit 3 host.serialIdleByte none none).run calmServe stampedPeer

/-- It gets that timestamp back: the bytes sent are not the beginning of `initBytes`. -/
theorem init_sends_stampedPeer :
    Exec (peerEnv host) (bgbInit 3 host.serialIdleByte none none) stampedPeer stampedInit.1
        stampedInit.2.1 stampedInit.2.2 ∧
      ¬ sentBytes stampedInit.1 <+: initBytes .little := by
  refine ⟨Exec.mono calmEnv_peerEnv (exec_run (fun _ _ => rfl) _ _), ?_⟩
  decide +kernel

end MobileBgb.Link
