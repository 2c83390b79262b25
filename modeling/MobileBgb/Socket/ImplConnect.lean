/-
  MobileBgb.Socket.ImplConnect — `socket_impl_connect` on every address.

  libmobile may hand over no address at all, or one of neither family; `convert_sockaddr`
  then gives NULL.  That is meant: a later call on a connection asks how the attempt went.
  But when `connect()` fails for good the address is printed, and `socket_straddr` reads
  its family through the pointer it is given, NULL or not.

  `connect_safe_iff` says when the call is safe and what it returns then: where the address
  is of one of the two families, or `connect()` does not fail for good.
-/
import MobileBgb.Socket.SocketImpl

namespace MobileBgb.Socket

open MobileBgb.Effect
open MobileBgb.System

variable {tgt : Target}

/-! ## §1. What the call meets. -/

/-- The system that answers `connect()` by `outcome`. -/
def connectEnv (tgt : Target) (outcome : Except Errno Unit) : Env (Sys tgt) Unit :=
  fun _ op ans _ =>
    match op, ans with
    | .connect _ _, ans => ans = outcome
    | _, _ => True

/-- An address of one of the two families. -/
def isInet : Option MobileAddr → Bool
  | some (.addr4 _ _) => true
  | some (.addr6 _ _) => true
  | some (.other _) => false
  | none => false

/-- `connect()` fails, and not because the connection is under way or there already. -/
def failsForGood : Except Errno Unit → Bool
  | .error (.other _) => true
  | _ => false

/-- What the call should return. -/
def connectCode : Except Errno Unit → Int
  | .ok () => 1
  | .error .eisconn => 1
  | .error .ewouldblock => 0
  | .error .einprogress => 0
  | .error .ealready => 0
  | .error (.other _) => -1

/-- A read through a NULL pointer. -/
def isNullRead : SysOp tgt → Bool
  | .nullRead => true
  | _ => false

/-- The trace reads through a NULL pointer. -/
def readsNull (t : Trace (Sys tgt)) : Bool := t.any fun e => isNullRead e.op

/-! ## §2. What the call does. -/

/-- Only an address of one of the two families is converted. -/
theorem convertSockaddr_isSome (o : ByteOrder) (addr : Option MobileAddr) :
    (convertSockaddr o addr).isSome = isInet addr := by
  match addr with
  | none => rfl
  | some (.addr4 _ _) => rfl
  | some (.addr6 _ _) => rfl
  | some (.other _) => rfl

section Exec

variable {σ : Type} {E : Env (Sys tgt) σ} {w w' : σ} {t : Trace (Sys tgt)}

/-- `socket_straddr` reads through the pointer it is given. -/
theorem readsNull_socketStraddr {addr : Option SockAddr} {str : Option (List UInt8 × UInt16)}
    (h : Exec E (socketStraddr addr) w t str w') : readsNull t = addr.isNone := by
  match addr, h with
  | none, h =>
      unfold socketStraddr at h
      rw [exec_ask_bind] at h
      obtain ⟨u, w₁, t₁, -, ht, h⟩ := h
      obtain ⟨ht₁, -, -⟩ := (exec_pure E).mp h
      subst ht ht₁
      rfl
  | some (.addr4 _ _), h =>
      obtain ⟨ht, -, -⟩ := (exec_pure E).mp h
      subst ht
      rfl
  | some (.addr6 _ _ _ _), h =>
      obtain ⟨ht, -, -⟩ := (exec_pure E).mp h
      subst ht
      rfl
  | some (.other _), h =>
      obtain ⟨ht, -, -⟩ := (exec_pure E).mp h
      subst ht
      rfl

/-- Outcomes that are not reported: nothing follows `connect()`. -/
theorem exec_quiet {outcome : Except Errno Unit} {addr : Option MobileAddr} {sock : SOCKET}
    {sockAddr : Option SockAddr} {ok : Bool} {u : Unit} {code rc : Int}
    (hcode : connectCode outcome = code) (hgood : failsForGood outcome = false)
    (h : Exec E (pure code) w t rc w') :
    rc = connectCode outcome ∧
      readsNull ((⟨.assert ok, u⟩ : Event (Sys tgt)) :: ⟨.connect sock sockAddr, outcome⟩ :: t) =
        (failsForGood outcome && !isInet addr) := by
  obtain ⟨ht, hr, -⟩ := (exec_pure E).mp h
  subst ht hr hcode
  rw [hgood]
  exact ⟨rfl, rfl⟩

end Exec

/-- **The call**, by the outcome of `connect()`: the code is the right one in every case, and NULL
    is read through where the address was not converted and the failure is reported. -/
theorem exec_socketImplConnect {outcome : Except Errno Unit} {state : SocketImpl tgt}
    {conn : Fin tgt.maxConnections} {addr : Option MobileAddr} {w w' : Unit}
    {t : Trace (Sys tgt)} {rc : Int}
    (h : Exec (connectEnv tgt outcome) (socketImplConnect state conn addr) w t rc w') :
    rc = connectCode outcome ∧ readsNull t = (failsForGood outcome && !isInet addr) := by
  unfold socketImplConnect at h
  rw [exec_ask_bind] at h
  obtain ⟨u, w₁, t₁, -, ht, h⟩ := h
  rw [exec_ask_bind] at h
  obtain ⟨ans, w₂, t₂, hE, ht₁, h⟩ := h
  have hans : ans = outcome := hE
  subst hans ht ht₁
  match ans, h with
  | .ok (), h => exact exec_quiet rfl rfl h
  | .error .eisconn, h => exact exec_quiet rfl rfl h
  | .error .ewouldblock, h => exact exec_quiet rfl rfl h
  | .error .einprogress, h => exact exec_quiet rfl rfl h
  | .error .ealready, h => exact exec_quiet rfl rfl h
  | .error (.other code), h =>
      dsimp only at h
      rw [exec_bind] at h
      obtain ⟨t₃, str, w₃, t₄, hstr, h, ht₂⟩ := h
      rw [exec_ask_bind] at h
      obtain ⟨u₁, w₄, t₅, -, ht₄, h⟩ := h
      rw [exec_ask_bind] at h
      obtain ⟨u₂, w₅, t₆, -, ht₅, h⟩ := h
      obtain ⟨ht₆, hrc, -⟩ := (exec_pure (connectEnv tgt (.error (.other code)))).mp h
      have hnull := readsNull_socketStraddr hstr
      have hinet : (convertSockaddr tgt.byteOrder addr).isNone = !isInet addr := by
        rw [← convertSockaddr_isSome tgt.byteOrder addr, Option.not_isSome]
      subst ht₂ ht₄ ht₅ ht₆
      refine ⟨hrc, ?_⟩
      rw [hinet] at hnull
      simpa [readsNull, isNullRead, failsForGood] using hnull

/-! ## §3. When it is safe. -/

/-- The callback libmobile makes: the same, and the table is handed back as it was. -/
theorem exec_implSock_connect {outcome : Except Errno Unit} {state state' : SocketImpl tgt}
    {conn : Fin tgt.maxConnections} {addr : Option MobileAddr} {w w' : Unit}
    {t : Trace (Sys tgt)} {ret : SocketRet}
    (h : Exec (connectEnv tgt outcome) (implSock state (.sockConnect conn addr)) w t
      (ret, state') w') :
    ret = .int (connectCode outcome) ∧ readsNull t = (failsForGood outcome && !isInet addr) ∧
      state' = state := by
  unfold implSock at h
  rw [exec_bind] at h
  obtain ⟨t₁, rc, w₁, t₂, hcall, h, ht⟩ := h
  obtain ⟨ht₂, hr, -⟩ := (exec_pure (connectEnv tgt outcome)).mp h
  obtain ⟨hrc, hnull⟩ := exec_socketImplConnect hcall
  cases hr
  rw [ht₂, List.append_nil] at ht
  subst ht hrc
  exact ⟨rfl, hnull, rfl⟩

/-- The answers of the system that answers `connect()` by `outcome`. -/
def connectAns (outcome : Except Errno Unit) : Unit → (op : SysOp tgt) → op.Ans × Unit
  | _, .connect _ _ => (outcome, ())
  | _, op => (plainAns op, ())

theorem connectEnv_connectAns (outcome : Except Errno Unit) (w : Unit) (op : SysOp tgt) :
    connectEnv tgt outcome w op (connectAns outcome w op).1 (connectAns outcome w op).2 := by
  cases op with
  | connect fd addr => rfl
  | _ => trivial

/-- The code is the one asked for: 1 iff `connect()` succeeded or the connection was there, 0 iff it
    is under way, -1 otherwise. -/
def CodeIs (rc : Int) (outcome : Except Errno Unit) : Prop :=
  (rc = 1 ↔ outcome = .ok () ∨ outcome = .error .eisconn) ∧
  (rc = 0 ↔ outcome = .error .ewouldblock ∨ outcome = .error .einprogress ∨
    outcome = .error .ealready) ∧
  (rc = -1 ↔ ¬ (outcome = .ok () ∨ outcome = .error .eisconn) ∧
    ¬ (outcome = .error .ewouldblock ∨ outcome = .error .einprogress ∨
      outcome = .error .ealready))

theorem codeIs_connectCode (outcome : Except Errno Unit) : CodeIs (connectCode outcome) outcome := by
  unfold CodeIs
  match outcome with
  | .ok () => simp [connectCode]
  | .error .eisconn => simp [connectCode]
  | .error .ewouldblock => simp [connectCode]
  | .error .einprogress => simp [connectCode]
  | .error .ealready => simp [connectCode]
  | .error (.other _) => simp [connectCode]

/-- **When connecting is safe.**  For every address and every outcome of `connect()` the call
    returns; and it returns the right code without reading through NULL, the table unchanged, if and
    only if the address is of one of the two families or `connect()` does not fail for good. -/
theorem connect_safe_iff (state : SocketImpl tgt) (conn : Fin tgt.maxConnections)
    (addr : Option MobileAddr) (outcome : Except Errno Unit) :
    (∃ t r, Exec (connectEnv tgt outcome) (implSock state (.sockConnect conn addr)) () t r ()) ∧
    ∀ t ret state',
      Exec (connectEnv tgt outcome) (implSock state (.sockConnect conn addr)) () t (ret, state') () →
      (((∃ rc, ret = .int rc ∧ CodeIs rc outcome) ∧ readsNull t = false ∧ state' = state) ↔
        (isInet addr = true ∨ failsForGood outcome = false)) := by
  refine ⟨⟨_, _, exec_run (connectEnv_connectAns outcome) _ ()⟩, ?_⟩
  intro t ret state' h
  obtain ⟨hret, hnull, hstate⟩ := exec_implSock_connect h
  rw [hnull]
  constructor
  · rintro ⟨-, hsafe, -⟩
    cases hinet : isInet addr with
    | true => exact Or.inl rfl
    | false =>
        rw [hinet] at hsafe
        exact Or.inr (by simpa using hsafe)
  · intro hcond
    refine ⟨⟨connectCode outcome, hret, codeIs_connectCode outcome⟩, ?_, hstate⟩
    rcases hcond with hinet | hsoft
    · simp [hinet]
    · simp [hsoft]

/-- A table with descriptors in every slot. -/
def sampleTable : SocketImpl host := ⟨fun _ => 3⟩

/-- A connection refused at 10.0.0.1: the code is -1 and NULL is not read through. -/
theorem connect_safe_iff_refused :
    ∃ t r, Exec (connectEnv host (.error (.other 111)))
        (implSock sampleTable (.sockConnect ⟨0, by decide⟩ (some (.addr4 80 #v[10, 0, 0, 1]))))
        () t r () ∧ readsNull t = false := by
  obtain ⟨⟨t, ⟨ret, state'⟩, h⟩, hall⟩ := connect_safe_iff sampleTable ⟨0, by decide⟩
    (some (.addr4 80 #v[10, 0, 0, 1])) (.error (.other 111))
  obtain ⟨-, hsafe, -⟩ := (hall t ret state' h).mpr (Or.inl rfl)
  exact ⟨t, (ret, state'), h, hsafe⟩

/-- A connection refused, asked about without an address: NULL is read through. -/
theorem connect_null_refused :
    ∃ t r, Exec (connectEnv host (.error (.other 111)))
        (implSock sampleTable (.sockConnect ⟨0, by decide⟩ none)) () t r () ∧
      sampleTable.sockets ⟨0, by decide⟩ ≠ INVALID_SOCKET ∧ readsNull t = true := by
  refine ⟨_, _, exec_run (connectEnv_connectAns (.error (.other 111))) _ (), by decide, ?_⟩
  decide

end MobileBgb.Socket
