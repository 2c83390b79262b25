/-
  MobileBgb.Link.Segmentation — how TCP cuts the stream, and what comes of it.

  TCP keeps the bytes in order but not the boundaries of the writes: one `recv`
  of eight bytes may deliver any number of them from one on.  `bgb_recv` takes a
  delivery of fewer than eight for the end of the session.

  Everything a session does is therefore decided by the packets that come in
  ONE PIECE, up to the first that does not, and of these by the leading ones the
  code accepts (`acceptedPrefix`).  `session_behaviour` says so, and
  `segmentation_iff` draws the consequence for two ways of cutting one stream.

  Sends are whole here (the socket is blocking); `poll` answers freely.
-/
import MobileBgb.Link.Exchange

namespace MobileBgb.Link

open MobileBgb.Effect
open MobileBgb.System

variable {tgt : Target} {U : Type}

/-! ## §1. A cut stream. -/

/-- A way of cutting `stream` into `recv` results: each has at least one byte and at most the
    eight asked for. -/
def Cut (stream : List UInt8) (segs : List (List UInt8)) : Prop :=
  segs.flatten = stream ∧ ∀ c ∈ segs, 1 ≤ c.length ∧ c.length ≤ packetSize

/-- The environment of a cut stream: each `recv` delivers the next piece, and no byte at all once
    the stream has ended; each `send` takes everything. -/
def segEnv (tgt : Target) : Env (Sys tgt) (List (List UInt8)) := fun segs op ans segs' =>
  match op, ans with
  | .recv _ _, ans => ans = some (segs.headD []) ∧ segs' = segs.tail
  | .send _ data, ans => ans = some data.length ∧ segs' = segs
  | _, _ => segs' = segs

/-- The leading pieces that hold a whole packet. -/
def wholePieces (segs : List (List UInt8)) : List (List UInt8) :=
  segs.takeWhile fun c => c.length == packetSize

/-- The packets in them. -/
def delivered (o : ByteOrder) (segs : List (List UInt8)) : List BgbPacket :=
  (wholePieces segs).map (BgbPacket.ofBytes o)

/-- The packets of a stream: its 8-byte blocks, less an incomplete one at the end. -/
def packetsIn (o : ByteOrder) : List UInt8 → List BgbPacket
  | a :: b :: c :: d :: e :: f :: g :: h :: rest =>
      .ofBytes o [a, b, c, d, e, f, g, h] :: packetsIn o rest
  | _ => []

theorem packetsIn_append (o : ByteOrder) {c : List UInt8} (h : c.length = packetSize)
    (rest : List UInt8) : packetsIn o (c ++ rest) = .ofBytes o c :: packetsIn o rest := by
  match c, h with
  | [_, _, _, _, _, _, _, _], _ => rfl

/-- Whole pieces at the front of a cut are packets at the front of the stream. -/
theorem delivered_eq_take (o : ByteOrder) (segs : List (List UInt8)) :
    delivered o segs = (packetsIn o segs.flatten).take (wholePieces segs).length := by
  induction segs with
  | nil => rfl
  | cons c segs ih =>
    unfold delivered wholePieces at ih ⊢
    by_cases hc : c.length = packetSize
    · rw [List.takeWhile_cons_of_pos (by simpa using hc), List.flatten_cons,
        packetsIn_append o hc, List.map_cons, List.length_cons, List.take_succ_cons, ih]
    · rw [List.takeWhile_cons_of_neg (by simpa using hc)]
      rfl

theorem delivered_of_short {o : ByteOrder} {segs : List (List UInt8)}
    (h : (segs.headD []).length ≠ packetSize) : delivered o segs = [] := by
  cases segs with
  | nil => rfl
  | cons c segs =>
    unfold delivered wholePieces
    rw [List.takeWhile_cons_of_neg (by simpa using h)]
    rfl

theorem delivered_of_whole {o : ByteOrder} {segs : List (List UInt8)}
    (h : (segs.headD []).length = packetSize) :
    delivered o segs = .ofBytes o (segs.headD []) :: delivered o segs.tail := by
  cases segs with
  | nil => exact absurd h (by decide)
  | cons c segs =>
    unfold delivered wholePieces
    rw [List.takeWhile_cons_of_pos (by simpa using h)]
    rfl

/-! ## §2. Executions in a cut stream. -/

/-- The pieces `recv` delivered are the first ones. -/
def Served : List (List UInt8) → List (Option (List UInt8)) → List (List UInt8) → Prop
  | segs, [], segs' => segs' = segs
  | segs, a :: as, segs' => a = some (segs.headD []) ∧ Served segs.tail as segs'

theorem segEnv_served {α : Type} :
    ∀ {p : Prog (Sys tgt) α} {segs segs' : List (List UInt8)} {t : Trace (Sys tgt)} {a : α},
      Exec (segEnv tgt) p segs t a segs' → Served segs (recvs t) segs'
  | .ret _, segs, segs', t, a, h => by
      obtain ⟨ht, _, hs⟩ := h
      rw [ht]
      exact hs
  | .call op k, segs, segs', t, a, h => by
      obtain ⟨x, segs₁, t₁, hE, ht, h⟩ := h
      have ih := segEnv_served h
      rw [ht, recvs_cons]
      -- only a `recv` takes a piece off
      cases op with
      | recv fd size =>
        obtain ⟨hx, hs⟩ := hE
        rw [hs] at ih
        exact ⟨hx, ih⟩
      | send fd data =>
        obtain ⟨_, hs⟩ := hE
        rw [hs] at ih
        exact ih
      | _ =>
        have hs : segs₁ = segs := hE
        rw [hs] at ih
        exact ih

/-- No packet is sent in part. -/
theorem segEnv_sent {α : Type} :
    ∀ {p : Prog (Sys tgt) α} {segs segs' : List (List UInt8)} {t : Trace (Sys tgt)} {a : α},
      Exec (segEnv tgt) p segs t a segs' → ∀ q, Obs.sent q false ∉ obsOf t
  | .ret _, segs, segs', t, a, h => by
      rw [h.1]
      intro q hq
      cases hq
  | .call op k, segs, segs', t, a, h => by
      obtain ⟨x, segs₁, t₁, hE, ht, h⟩ := h
      intro q hq
      rw [ht, obsOf_cons, List.mem_append] at hq
      rcases hq with hq | hq
      · -- only a `send` shows as sent, and it took everything
        have hq : obs (⟨op, x⟩ : Event (Sys tgt)) = some (.sent q false) := by
          simpa using hq
        cases op with
        | send fd data =>
          have hx : x = some data.length := hE.1
          have hobs : obs (⟨.send fd data, x⟩ : Event (Sys tgt))
              = some (.sent (.ofBytes tgt.byteOrder data) true) := by
            rw [hx]
            show some (Obs.sent _ (some data.length == some data.length)) = _
            rw [beq_self_eq_true]
          rw [hobs] at hq
          injection hq with hq
          injection hq with _ hq
          cases hq
        | recv fd size =>
          have hx : x = some (segs.headD []) := hE.1
          subst hx
          unfold obs at hq
          dsimp only at hq
          split_ifs at hq
          cases hq
        | diag msg => cases msg <;> cases hq
        | _ => cases hq
      · exact segEnv_sent h q hq

/-! ## §3. What a session does. -/

/-- The leading packets the code accepts: the handshake, a status packet, known commands. -/
def acceptedPrefix : List BgbPacket → List BgbPacket
  | [] => []
  | p :: ps => if p = handshake then p :: afterVersion ps else []
where
  /-- After the version: a status packet is expected. -/
  afterVersion : List BgbPacket → List BgbPacket
    | [] => []
    | p :: ps =>
        if p.cmd = BgbCmd.status.code then p :: ps.takeWhile BgbPacket.known else []

theorem afterVersion_take (ps : List BgbPacket) (n : Nat) :
    acceptedPrefix.afterVersion (ps.take n) = (acceptedPrefix.afterVersion ps).take n := by
  cases ps with
  | nil => simp [acceptedPrefix.afterVersion]
  | cons p ps =>
    cases n with
    | zero => rfl
    | succ n =>
      simp only [List.take_succ_cons, acceptedPrefix.afterVersion]
      split_ifs with hp
      · rw [List.take_succ_cons, List.take_takeWhile]
      · rfl

/-- Cutting a list short cuts its accepted packets short. -/
theorem acceptedPrefix_take (ps : List BgbPacket) (n : Nat) :
    acceptedPrefix (ps.take n) = (acceptedPrefix ps).take n := by
  cases ps with
  | nil => simp [acceptedPrefix]
  | cons p ps =>
    cases n with
    | zero => rfl
    | succ n =>
      simp only [List.take_succ_cons, acceptedPrefix]
      split_ifs with hp
      · rw [List.take_succ_cons, afterVersion_take]
      · rfl

/-- What can be told of a session from the outside. -/
structure Behaviour (U : Type) where
  /-- Did `bgb_init` accept the handshake? -/
  accepted : Bool
  /-- The packets `bgb_loop` handled. -/
  handled : List BgbPacket
  /-- The packets sent, from the handshake on. -/
  sent : List BgbPacket
  /-- The user object at the end, with the transfer calls made on it. -/
  user : Recorded U

section Session

variable (f : U → UInt8 → UInt8 × U) (g : Option (U → UInt32 → U))

/-- The replies to a list of packets, each from the state the ones before it left. -/
def repliesFrom (s : LinkState tgt U) : List BgbPacket → List BgbPacket
  | [] => []
  | p :: ps => p.replies s.1.byte ++ repliesFrom (handle f g s p) ps

/-- The state a session starts in. -/
def linkStart (tgt : Target) (socket : SOCKET) (initByte : UInt8) (u₀ : U) : LinkState tgt U :=
  (BgbState.start socket initByte (some (recorded f)) (g.map fun g => recordedTimestamp g), (u₀, []))

/-- The behaviour that belongs to a list of accepted packets. -/
def behaviourOf (s : LinkState tgt U) : List BgbPacket → Behaviour U
  | [] => ⟨false, [], [handshake], s.2⟩
  | [_] => ⟨false, [], [handshake, greeting], s.2⟩
  | _ :: p :: ps =>
      ⟨true, ps, [handshake, greeting, unpause p] ++ repliesFrom f g s ps,
        (ps.foldl (handle f g) s).2⟩

/-- The number of packets accepted can be read off the behaviour. -/
theorem behaviourOf_length {s : LinkState tgt U} {ps qs : List BgbPacket}
    (h : behaviourOf f g s ps = behaviourOf f g s qs) : ps.length = qs.length := by
  have hacc := congrArg Behaviour.accepted h
  have hhandled := congrArg Behaviour.handled h
  have hsent := congrArg (fun b => b.sent.length) h
  -- fewer than two packets: the handshake failed, and what was sent tells how far it got
  match ps, qs, hacc, hhandled, hsent with
  | [], [], _, _, _ => rfl
  | [_], [_], _, _, _ => rfl
  | _ :: _ :: ps, _ :: _ :: qs, _, hhandled, _ =>
    have hhandled : ps = qs := hhandled
    rw [hhandled]
    rfl
  | [], [_], _, _, hsent => exact nomatch hsent
  | [_], [], _, _, hsent => exact nomatch hsent
  | [], _ :: _ :: _, hacc, _, _ => exact nomatch hacc
  | [_], _ :: _ :: _, hacc, _, _ => exact nomatch hacc
  | _ :: _ :: _, [], hacc, _, _ => exact nomatch hacc
  | _ :: _ :: _, [_], hacc, _, _ => exact nomatch hacc

end Session

/-! ## §4. The handshake in a cut stream. -/

/-- The packets of `recv`s that deliver whole packets, one after the other. -/
theorem served_packet {o : ByteOrder} {segs segs' : List (List UInt8)} {p : BgbPacket}
    {rs : List (Option (List UInt8))} (h : Served segs (some (p.toBytes o) :: rs) segs') :
    delivered o segs = p :: delivered o segs.tail ∧ Served segs.tail rs segs' := by
  obtain ⟨hhead, h⟩ := h
  injection hhead with hhead
  have hlen : (segs.headD []).length = packetSize := by
    rw [← hhead]
    exact BgbPacket.toBytes_length _ _
  refine ⟨?_, h⟩
  rw [delivered_of_whole hlen, ← hhead, BgbPacket.ofBytes_toBytes]

/-- A `recv` that does not deliver a whole packet ends what is delivered. -/
theorem served_short {o : ByteOrder} {segs segs' : List (List UInt8)} {a : Option (List UInt8)}
    {rs : List (Option (List UInt8))} (h : Served segs (a :: rs) segs')
    (hlen : ∀ c, a = some c → c.length ≠ packetSize) : delivered o segs = [] :=
  delivered_of_short (hlen _ h.1)

/-- How far the handshake gets is decided by the packets delivered. -/
theorem exec_bgbInit_seg {socket : SOCKET} {initByte : UInt8}
    {cbt : Option (U → UInt8 → Prog (Sys tgt) (UInt8 × U))}
    {cbs : Option (U → UInt32 → Prog (Sys tgt) U)} {ok : Bool} {state : BgbState tgt U}
    {t : Trace (Sys tgt)} {segs segs' : List (List UInt8)}
    (h : Exec (segEnv tgt) (bgbInit socket initByte cbt cbs) segs t (ok, state) segs') :
    (ok = false ∧ sentOf (obsOf t) = [handshake] ∧
      acceptedPrefix (delivered tgt.byteOrder segs) = []) ∨
    (ok = false ∧ sentOf (obsOf t) = [handshake, greeting] ∧
      acceptedPrefix (delivered tgt.byteOrder segs) = [handshake]) ∨
    (∃ p, ok = true ∧ sentOf (obsOf t) = [handshake, greeting, unpause p] ∧
      acceptedPrefix (delivered tgt.byteOrder segs)
        = handshake :: p :: (delivered tgt.byteOrder segs').takeWhile BgbPacket.known) := by
  have hserved := segEnv_served h
  have hsent := segEnv_sent h
  obtain ⟨_, hshake⟩ := bgbInit_cases h
  -- the outcomes in which a packet is not taken whole do not occur here
  generalize obsOf t = o at hshake hsent
  generalize recvs t = rs at hshake hserved
  cases hshake with
  | unsent => exact absurd (by simp) (hsent handshake)
  | unsentStatus => exact absurd (by simp) (hsent greeting)
  | noVersion hlen =>
    rw [served_short hserved hlen]
    exact Or.inl ⟨rfl, rfl, rfl⟩
  | badVersion hp =>
    rw [(served_packet hserved).1]
    exact Or.inl ⟨rfl, rfl, if_neg hp⟩
  | noStatus hlen =>
    obtain ⟨hd, hserved⟩ := served_packet hserved
    rw [hd, served_short hserved hlen]
    exact Or.inr (Or.inl ⟨rfl, rfl, rfl⟩)
  | badStatus hp =>
    obtain ⟨hd, hserved⟩ := served_packet hserved
    rw [hd, (served_packet hserved).1]
    refine Or.inr (Or.inl ⟨rfl, rfl, ?_⟩)
    simp only [acceptedPrefix, acceptedPrefix.afterVersion, if_neg hp]
    rfl
  | @status p hp ok =>
    cases ok with
    | false => exact absurd (by simp) (hsent (unpause p))
    | true =>
      obtain ⟨hd, hserved⟩ := served_packet hserved
      obtain ⟨hd₁, hs⟩ := served_packet hserved
      have hs : segs' = segs.tail.tail := hs
      rw [hd, hd₁, hs]
      refine Or.inr (Or.inr ⟨p, rfl, rfl, ?_⟩)
      simp only [acceptedPrefix, acceptedPrefix.afterVersion, if_pos hp]
      rfl

/-! ## §5. The calls of `bgb_loop` in a cut stream. -/

section Session

variable {f : U → UInt8 → UInt8 × U} {g : Option (U → UInt32 → U)}

/-- A packet read off a cut stream was delivered in one piece. -/
theorem delivered_of_recvs {α : Type} {prog : Prog (Sys tgt) α} {a : α} {t : Trace (Sys tgt)}
    {segs segs' : List (List UInt8)} {p : BgbPacket} (h : Exec (segEnv tgt) prog segs t a segs')
    (hr : recvs t = [some (p.toBytes tgt.byteOrder)]) :
    delivered tgt.byteOrder segs = p :: delivered tgt.byteOrder segs' := by
  have hserved := segEnv_served h
  rw [hr] at hserved
  obtain ⟨hd, hs⟩ := served_packet hserved
  have hs : segs' = segs.tail := hs
  rw [hd, hs]

/-- A call that returns `false` found no further packet it accepts. -/
theorem bgbLoop_false_seg {state state' : BgbState tgt U} {user user' : U} {t : Trace (Sys tgt)}
    {segs segs' : List (List UInt8)}
    (h : Exec (segEnv tgt) (bgbLoop state user) segs t (false, state', user') segs') :
    (delivered tgt.byteOrder segs).takeWhile BgbPacket.known = [] := by
  rcases bgbLoop_cases h with ⟨hf, _⟩ | ⟨_, _, _, _, a, ha, hlen⟩ | ⟨p, o, _, _, _, ho, href, hr⟩
    | ⟨_, _, _, _, _, _, _, _, hf, _⟩
  · cases hf
  · -- a piece that is no whole packet: nothing is delivered from here on
    have hserved := segEnv_served h
    rw [ha] at hserved
    rw [delivered_of_short (hlen _ hserved.1)]
    rfl
  · rw [delivered_of_recvs h hr]
    rcases href with ⟨hk, _⟩ | ⟨q, _, ho'⟩
    · rw [List.takeWhile_cons_of_neg (by simp [hk])]
    · -- a reply sent in part is impossible here
      have hsent := segEnv_sent h q
      rw [ho, ho'] at hsent
      exact absurd (by simp) hsent
  · cases hf

/-- A run that has ended handled every packet delivered, up to the first it does not know. -/
theorem rounds_seg {s : LinkState tgt U} {segs segs' : List (List UInt8)}
    {rs : List (Round (Sys tgt) (LinkState tgt U) (LinkState tgt U))}
    {fl : Flow (LinkState tgt U) (LinkState tgt U)}
    (h : Rounds (segEnv tgt) bgbLoopRound s segs rs fl segs') :
    ∀ (s' : LinkState tgt U), fl = .done s' → Carries f g s.1 →
      handledOf rs = (delivered tgt.byteOrder segs).takeWhile BgbPacket.known ∧
      sentOf (obsOf (traceOf rs)) = repliesFrom f g s (handledOf rs) ∧
      s' = (handledOf rs).foldl (handle f g) s := by
  -- induction on the run; what is delivered shrinks by each packet handled
  induction h with
  | stop s w =>
    intro s' hs'
    cases hs'
  | @go s s₁ w w₁ w' t rs fl h _ ih =>
    intro s' hs' hc
    rw [handledOf_go, traceOf_cons, obsOf_append, sentOf_append]
    have hx := exec_bgbLoopRound_go h
    rcases bgbLoop_true hc hx with ⟨ho, hr, hs, _⟩ | ⟨p, hk, hr, ho, hs⟩
    · -- nothing was read
      have hserved := segEnv_served hx
      rw [hr] at hserved
      have hw : w₁ = w := hserved
      subst hs hw
      rw [ho]
      exact ih s' hs' hc
    · obtain ⟨hp, hsp⟩ := views_handled ho
      subst hs
      obtain ⟨ih₁, ih₂, ih₃⟩ := ih s' hs' (carries_handle hc p)
      rw [hp, hsp, delivered_of_recvs hx hr, List.takeWhile_cons_of_pos hk, ← ih₁, ih₂]
      exact ⟨rfl, rfl, ih₃⟩
  | @done s w w' t s' h =>
    intro s₁ hs₁ hc
    injection hs₁ with hs₁
    subst hs₁
    have hx := exec_bgbLoopRound_done h
    obtain ⟨hs, hu, hsent, _⟩ := bgbLoop_false hx
    rw [traceOf_singleton, bgbLoop_false_seg hx, hsent]
    exact ⟨rfl, rfl, Prod.ext hs hu⟩

/-! ## §6. Sessions. -/

/-- A session over a cut stream, run to its end: `bgb_init`, and if it succeeded the calls of
    `bgb_loop` up to the one that returns `false`. -/
structure Session (tgt : Target) (f : U → UInt8 → UInt8 × U) (g : Option (U → UInt32 → U))
    (socket : SOCKET) (initByte : UInt8) (u₀ : U) (segs : List (List UInt8)) where
  initTrace : Trace (Sys tgt)
  ok : Bool
  state : BgbState tgt (Recorded U)
  segs₁ : List (List UInt8)
  init : Exec (segEnv tgt)
    (bgbInit socket initByte (some (recorded f)) (g.map fun g => recordedTimestamp g))
    segs initTrace (ok, state) segs₁
  rounds : List (Round (Sys tgt) (LinkState tgt U) (LinkState tgt U))
  last : LinkState tgt U
  segs₂ : List (List UInt8)
  run : if ok then Rounds (segEnv tgt) bgbLoopRound (state, (u₀, [])) segs₁ rounds (.done last) segs₂
    else rounds = [] ∧ last = (state, (u₀, []))

/-- What it shows. -/
def Session.behaviour {socket : SOCKET} {initByte : UInt8} {u₀ : U} {segs : List (List UInt8)}
    (S : Session tgt f g socket initByte u₀ segs) : Behaviour U where
  accepted := S.ok
  handled := handledOf S.rounds
  sent := sentOf (obsOf (S.initTrace ++ traceOf S.rounds))
  user := S.last.2

/-- **A session is decided by the packets that come in one piece.** -/
theorem session_behaviour {socket : SOCKET} {initByte : UInt8} {u₀ : U} {segs : List (List UInt8)}
    (S : Session tgt f g socket initByte u₀ segs) :
    S.behaviour = behaviourOf f g (linkStart f g tgt socket initByte u₀)
      (acceptedPrefix (delivered tgt.byteOrder segs)) := by
  obtain ⟨t₀, ok, state, segs₁, hinit, rs, last, segs₂, hrun⟩ := S
  obtain ⟨hstate, _⟩ := bgbInit_cases hinit
  subst hstate
  unfold Session.behaviour
  dsimp only
  rw [obsOf_append, sentOf_append]
  rcases exec_bgbInit_seg hinit with ⟨hok, hsent, hacc⟩ | ⟨hok, hsent, hacc⟩ | ⟨p, hok, hsent, hacc⟩
  · -- the version was not answered
    subst hok
    obtain ⟨hrs, hlast⟩ := hrun
    rw [hsent, hacc, hrs, hlast]
    rfl
  · subst hok
    obtain ⟨hrs, hlast⟩ := hrun
    rw [hsent, hacc, hrs, hlast]
    rfl
  · subst hok
    have hrun : Rounds (segEnv tgt) bgbLoopRound (linkStart f g tgt socket initByte u₀) segs₁ rs
        (.done last) segs₂ := hrun
    obtain ⟨hhandled, hreplies, hlast⟩ := rounds_seg hrun last rfl ⟨rfl, rfl⟩
    rw [hsent, hacc, hreplies, hlast, hhandled]
    rfl

/-- One way to serve a cut stream: every poll reports data. -/
def segServe (segs : List (List UInt8)) (op : SysOp tgt) : op.Ans × List (List UInt8) :=
  match op with
  | .recv _ _ => (some (segs.headD []), segs.tail)
  | op => ((streamServe [] op).1, segs)

/-- The environments in which every poll reports data. -/
def Ready (E : Env (Sys tgt) (List (List UInt8))) : Env (Sys tgt) (List (List UInt8)) :=
  fun segs op ans segs' => E segs op ans segs' ∧
    match op, ans with
    | .poll _ _, rc => (0 : Int) < rc
    | _, _ => True

theorem ready_segServe (segs : List (List UInt8)) (op : SysOp tgt) :
    Ready (segEnv tgt) segs op (segServe segs op).1 (segServe segs op).2 := by
  cases op with
  | poll fds timeout => exact ⟨rfl, (by decide : (0 : Int) < 1)⟩
  | recv fd size => exact ⟨⟨rfl, rfl⟩, trivial⟩
  | send fd data => exact ⟨⟨rfl, rfl⟩, trivial⟩
  | _ => exact ⟨rfl, trivial⟩

/-- With data always reported, a call that goes on takes a piece. -/
theorem bgbLoopRound_takes {s s₁ : LinkState tgt U} {segs segs₁ : List (List UInt8)}
    {t : Trace (Sys tgt)} (hc : Carries f g s.1)
    (h : Exec (Ready (segEnv tgt)) (bgbLoopRound s) segs t (.go s₁) segs₁) :
    segs.length = segs₁.length + 1 ∧ Carries f g s₁.1 := by
  have hx := exec_bgbLoopRound_go h
  rcases bgbLoop_true hc hx with ⟨_, _, _, rc, w₁, hrc, hE⟩ | ⟨p, _, hr, _, hs⟩
  · -- a call that found nothing had an idle poll
    exact absurd hE.2 (Int.not_lt.mpr hrc)
  · rw [hs]
    refine ⟨?_, carries_handle hc p⟩
    have hserved := segEnv_served (Exec.mono (fun _ _ _ _ h => h.1) hx)
    rw [hr] at hserved
    obtain ⟨hhead, hs⟩ := hserved
    have hs : segs₁ = segs.tail := hs
    cases segs with
    | nil => cases hhead
    | cons c segs =>
      rw [hs]
      rfl

/-- Whatever the cut, the calls of `bgb_loop` come to an end. -/
theorem rounds_seg_end (segs : List (List UInt8)) (s : LinkState tgt U) (hc : Carries f g s.1) :
    ∃ rs last segs', Rounds (segEnv tgt) bgbLoopRound s segs rs (.done last) segs' := by
  -- each call takes a piece, so the number of pieces left bounds the calls
  induction hn : segs.length using Nat.strong_induction_on generalizing segs s with
  | _ n ih =>
    have hx := exec_run ready_segServe (bgbLoopRound s) segs
    have hx' := Exec.mono (fun _ _ _ _ h => h.1) hx
    cases hfl : ((bgbLoopRound s).run segServe segs).2.1 with
    | done last =>
      rw [hfl] at hx'
      exact ⟨_, last, _, .done hx'⟩
    | go s₁ =>
      rw [hfl] at hx hx'
      obtain ⟨hlen, hc₁⟩ := bgbLoopRound_takes hc hx
      obtain ⟨rs, last, segs', hrs⟩ :=
        ih ((bgbLoopRound s).run segServe segs).2.2.length (by omega) _ s₁ hc₁ rfl
      exact ⟨_, last, segs', .go hx' hrs⟩

/-- Every cut of every stream has a session that ends. -/
theorem session_exists (tgt : Target) (f : U → UInt8 → UInt8 × U) (g : Option (U → UInt32 → U))
    (socket : SOCKET) (initByte : UInt8) (u₀ : U) (segs : List (List UInt8)) :
    Nonempty (Session tgt f g socket initByte u₀ segs) := by
  let start : Prog (Sys tgt) (Bool × BgbState tgt (Recorded U)) :=
    bgbInit socket initByte (some (recorded f)) (g.map fun g => recordedTimestamp g)
  have hinit := Exec.mono (fun _ _ _ _ h => h.1) (exec_run ready_segServe start segs)
  cases hr : (start.run segServe segs).2.1 with
  | mk ok state =>
    rw [hr] at hinit
    cases ok with
    | false => exact ⟨⟨_, false, state, _, hinit, [], _, [], ⟨rfl, rfl⟩⟩⟩
    | true =>
      have hc : Carries f g state := by
        rw [(bgbInit_cases hinit).1]
        exact ⟨rfl, rfl⟩
      obtain ⟨rs, last, segs', hrun⟩ := rounds_seg_end _ (state, (u₀, [])) hc
      exact ⟨⟨_, true, state, _, hinit, rs, last, segs', hrun⟩⟩

end Session

/-! ## §7. Two cuts of one stream. -/

/-- A transfer callback on a user object that keeps a list of timestamps. -/
def stampedTransfer (f : U → UInt8 → UInt8 × U) (u : U × List UInt32) (c : UInt8) :
    UInt8 × (U × List UInt32) :=
  ((f u.1 c).1, ((f u.1 c).2, u.2))

/-- A timestamp callback that adds its timestamp to the list. -/
def stampedTimestamp (g : U → UInt32 → U) (u : U × List UInt32) (t : UInt32) : U × List UInt32 :=
  (g u.1 t, u.2 ++ [t])

/-- **When the cut does not show.**  Two sessions over two cuts of one stream accept or reject
    the handshake alike, handle the same packets, send the same packets and make the same calls
    of both callbacks exactly when the two cuts deliver equally many leading packets in one
    piece, counting only the leading packets of the stream that the code accepts. -/
theorem segmentation_iff {f : U → UInt8 → UInt8 × U} {g : Option (U → UInt32 → U)}
    {socket : SOCKET} {initByte : UInt8} {u₀ : U} {stream : List UInt8}
    {segsA segsB : List (List UInt8)} (hA : Cut stream segsA) (hB : Cut stream segsB)
    (A : Session tgt (stampedTransfer f) (g.map stampedTimestamp) socket initByte (u₀, []) segsA)
    (B : Session tgt (stampedTransfer f) (g.map stampedTimestamp) socket initByte (u₀, []) segsB) :
    A.behaviour = B.behaviour ↔
      min (wholePieces segsA).length (acceptedPrefix (packetsIn tgt.byteOrder stream)).length
        = min (wholePieces segsB).length
            (acceptedPrefix (packetsIn tgt.byteOrder stream)).length := by
  -- of what the code would accept, a cut delivers as many packets as come in one piece
  have hacc : ∀ segs, Cut stream segs → acceptedPrefix (delivered tgt.byteOrder segs)
      = (acceptedPrefix (packetsIn tgt.byteOrder stream)).take (wholePieces segs).length := by
    intro segs hcut
    rw [delivered_eq_take, hcut.1, acceptedPrefix_take]
  rw [session_behaviour A, session_behaviour B, hacc _ hA, hacc _ hB]
  constructor
  · intro h
    -- equal behaviours have equally many accepted packets
    have hlen := behaviourOf_length _ _ h
    rwa [List.length_take, List.length_take] at hlen
  · intro h
    -- equally many of the same packets are the same packets
    rw [List.take_eq_take_iff.mpr h]

/-- A stream cut at its packets: the handshake, a SYNC1, a command the code does not know. -/
def cutWhole : List (List UInt8) :=
  [handshake.toBytes .little, BgbPacket.toBytes .little ⟨108, 5, 0, 0, 0⟩,
   BgbPacket.toBytes .little ⟨104, 0x99, 0x81, 0, 5⟩, BgbPacket.toBytes .little ⟨7, 0, 0, 0, 0⟩]

/-- The same stream cut inside the last packet. -/
def cutLast : List (List UInt8) :=
  [handshake.toBytes .little, BgbPacket.toBytes .little ⟨108, 5, 0, 0, 0⟩,
   BgbPacket.toBytes .little ⟨104, 0x99, 0x81, 0, 5⟩, [7, 0], [0, 0, 0, 0, 0, 0]]

/-- The same stream cut inside the SYNC1. -/
def cutSync1 : List (List UInt8) :=
  [handshake.toBytes .little, BgbPacket.toBytes .little ⟨108, 5, 0, 0, 0⟩,
   [104, 0x99, 0x81], [0, 5, 0, 0, 0], BgbPacket.toBytes .little ⟨7, 0, 0, 0, 0⟩]

/-- A cut inside a packet that would have been refused does not show. -/
theorem segmentation_iff_cutLast :
    ∃ (A : Session host (stampedTransfer fun u c => (c + 1, u + 1))
          (some (stampedTimestamp fun u _ => u)) 3 0xD2 ((0 : Nat), []) cutWhole)
      (B : Session host (stampedTransfer fun u c => (c + 1, u + 1))
          (some (stampedTimestamp fun u _ => u)) 3 0xD2 ((0 : Nat), []) cutLast),
      A.behaviour = B.behaviour := by
  obtain ⟨A⟩ := session_exists host (stampedTransfer fun u c => (c + 1, u + 1))
    (some (stampedTimestamp fun u _ => u)) 3 0xD2 ((0 : Nat), []) cutWhole
  obtain ⟨B⟩ := session_exists host (stampedTransfer fun u c => (c + 1, u + 1))
    (some (stampedTimestamp fun u _ => u)) 3 0xD2 ((0 : Nat), []) cutLast
  have hA : Cut cutWhole.flatten cutWhole := ⟨rfl, by decide +kernel⟩
  have hB : Cut cutWhole.flatten cutLast := ⟨by decide +kernel, by decide +kernel⟩
  refine ⟨A, B, ?_⟩
  exact (segmentation_iff (g := some fun u _ => u) hA hB A B).mpr (by decide +kernel)

/-- A cut inside the SYNC1 loses the session: the byte is never exchanged. -/
theorem segmentation_cutSync1 :
    ¬ ∀ (stream : List UInt8) (segsA segsB : List (List UInt8)), Cut stream segsA →
      Cut stream segsB →
      ∀ (A : Session host (stampedTransfer fun u c => (c + 1, u + 1))
            (some (stampedTimestamp fun u _ => u)) 3 0xD2 ((0 : Nat), []) segsA)
        (B : Session host (stampedTransfer fun u c => (c + 1, u + 1))
            (some (stampedTimestamp fun u _ => u)) 3 0xD2 ((0 : Nat), []) segsB),
        A.behaviour = B.behaviour := by
  intro h
  obtain ⟨A⟩ := session_exists host (stampedTransfer fun u c => (c + 1, u + 1))
    (some (stampedTimestamp fun u _ => u)) 3 0xD2 ((0 : Nat), []) cutWhole
  obtain ⟨B⟩ := session_exists host (stampedTransfer fun u c => (c + 1, u + 1))
    (some (stampedTimestamp fun u _ => u)) 3 0xD2 ((0 : Nat), []) cutSync1
  have hA : Cut cutWhole.flatten cutWhole := ⟨rfl, by decide +kernel⟩
  have hB : Cut cutWhole.flatten cutSync1 := ⟨by decide +kernel, by decide +kernel⟩
  have hAB := congrArg Behaviour.handled (h _ _ _ hA hB A B)
  rw [session_behaviour A, session_behaviour B] at hAB
  exact absurd hAB (by decide +kernel)

end MobileBgb.Link
