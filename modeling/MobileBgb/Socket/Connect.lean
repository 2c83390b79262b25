/-
  MobileBgb.Socket.Connect — `socket_connect`: the first address that answers.

  `getaddrinfo` answers with a list of addresses; the loop tries them in order.  As in the
  source the loop has ONE variable `sock` for the descriptor at hand, which is stale after
  a failed attempt, and success is read off the cursor `info`: NULL when the list is used
  up.

  The outcome of `socket()` and `connect()` on each address is fixed beforehand
  (`Entry`), and the system plays these outcomes (`entryEnv`): any list, any pattern of
  failures.  The numbers of closed descriptors may come back.
-/
import MobileBgb.Socket.Socket

namespace MobileBgb.Socket

open MobileBgb.Effect
open MobileBgb.System

variable {tgt : Target}

/-! ## §1. The function. -/

/-- `struct addrinfo`, what is used of it. -/
structure AddrInfo where
  family : SockFamily
  socktype : SockType
  addr : SockAddr
  deriving DecidableEq

/-- The loop of `socket_connect` from `info` on: `info`, `sock` and `error` after it. -/
def socketConnectLoop : List AddrInfo → SOCKET → Option Errno →
    Prog (Sys tgt) (List AddrInfo × SOCKET × Option Errno)
  | [], sock, error => return ([], sock, error)
  | info :: next, _, error => do
      let sock ← Sys.socket info.family info.socktype
      if sock = INVALID_SOCKET then
        Sys.diag (.socketPerror "socket")
        socketConnectLoop next sock error
      else
        match ← Sys.connect sock (some info.addr) with
        | .ok _ => return (info :: next, sock, error)
        | .error e =>
            Sys.close sock
            socketConnectLoop next sock (some e)

/-- `socket_connect`, from the answer of `getaddrinfo` on: its error code with the `errno` it left,
    or the list.  The result is the descriptor and the error code left to the caller, `none` for
    0. -/
def socketConnect (gai : Except (Int × Option Errno) (List AddrInfo)) :
    Prog (Sys tgt) (SOCKET × Option Errno) := do
  match gai with
  | .error (code, errno) =>
      Sys.diag (.getaddrinfo code)
      return (INVALID_SOCKET, errno)
  | .ok result =>
      let (info, sock, error) ← socketConnectLoop result INVALID_SOCKET none
      if info.isEmpty then return (INVALID_SOCKET, error)
      else return (sock, error)

/-! ## §2. Outcomes. -/

/-- An address with what `socket()` and `connect()` come to on it. -/
structure Entry where
  info : AddrInfo
  fd : SOCKET
  conn : Except Errno Unit

/-- Both succeed. -/
def Entry.connects (e : Entry) : Bool := e.fd ≠ INVALID_SOCKET ∧ e.conn.isOk = true

/-- The system that plays the outcomes; its state is the entries still to come.  An entry is over
    when its `socket()` fails or its `connect()` is answered. -/
def entryEnv (tgt : Target) : Env (Sys tgt) (List Entry) := fun es op ans es' =>
  match op, ans with
  | .socket _ _, fd => ∃ e later, es = e :: later ∧ fd = e.fd ∧
      es' = if e.fd = INVALID_SOCKET then later else es
  | .connect _ _, conn => ∃ e later, es = e :: later ∧ conn = e.conn ∧ es' = later
  | _, _ => es' = es

/-- What the call does on one entry. -/
def Entry.trace (e : Entry) : Trace (Sys tgt) :=
  if e.fd = INVALID_SOCKET then
    [⟨.socket e.info.family e.info.socktype, e.fd⟩, ⟨.diag (.socketPerror "socket"), ()⟩]
  else
    match e.conn with
    | .ok _ =>
        [⟨.socket e.info.family e.info.socktype, e.fd⟩, ⟨.connect e.fd (some e.info.addr), e.conn⟩]
    | .error _ =>
        [⟨.socket e.info.family e.info.socktype, e.fd⟩, ⟨.connect e.fd (some e.info.addr), e.conn⟩,
          ⟨.close e.fd, ()⟩]

/-- The descriptors a trace obtained from `socket()`, in order. -/
def obtained (t : Trace (Sys tgt)) : List SOCKET :=
  t.filterMap fun
    | ⟨.socket _ _, fd⟩ => if (fd : SOCKET) = INVALID_SOCKET then none else some fd
    | _ => none

/-- The descriptors a trace closed, in order. -/
def closed (t : Trace (Sys tgt)) : List SOCKET :=
  t.filterMap fun
    | ⟨.close fd, _⟩ => some fd
    | _ => none

/-- The error codes of the failed `connect()`s of a trace, in order. -/
def connectErrors (t : Trace (Sys tgt)) : List Errno :=
  t.filterMap fun
    | ⟨.connect _ _, conn⟩ =>
        match (conn : Except Errno Unit) with
        | .ok _ => none
        | .error e => some e
    | _ => none

@[simp] theorem obtained_append (t₁ t₂ : Trace (Sys tgt)) :
    obtained (t₁ ++ t₂) = obtained t₁ ++ obtained t₂ := List.filterMap_append

@[simp] theorem closed_append (t₁ t₂ : Trace (Sys tgt)) :
    closed (t₁ ++ t₂) = closed t₁ ++ closed t₂ := List.filterMap_append

@[simp] theorem connectErrors_append (t₁ t₂ : Trace (Sys tgt)) :
    connectErrors (t₁ ++ t₂) = connectErrors t₁ ++ connectErrors t₂ := List.filterMap_append

/-- What an entry comes to, in the three cases: no descriptor, refused, connected. -/
theorem Entry.cases (e : Entry) :
    (e.fd = INVALID_SOCKET ∧ e.connects = false) ∨
    (e.fd ≠ INVALID_SOCKET ∧ (∃ err, e.conn = .error err) ∧ e.connects = false) ∨
    (e.fd ≠ INVALID_SOCKET ∧ e.conn = .ok () ∧ e.connects = true) := by
  unfold Entry.connects
  by_cases hfd : e.fd = INVALID_SOCKET
  · exact Or.inl ⟨hfd, by simp [hfd]⟩
  · cases hconn : e.conn with
    | error err => exact Or.inr (Or.inl ⟨hfd, ⟨err, rfl⟩, by simp [Except.isOk, Except.toBool]⟩)
    | ok u => exact Or.inr (Or.inr ⟨hfd, rfl, by simp [hfd, Except.isOk, Except.toBool]⟩)

/-- An entry that connects has a descriptor and an accepted `connect()`. -/
theorem Entry.of_connects {e : Entry} (h : e.connects = true) :
    e.fd ≠ INVALID_SOCKET ∧ e.conn = .ok () := by
  rcases e.cases with ⟨-, hno⟩ | ⟨-, -, hno⟩ | ⟨hfd, hconn, -⟩
  · rw [h] at hno
    cases hno
  · rw [h] at hno
    cases hno
  · exact ⟨hfd, hconn⟩

/-- An entry that does not connect gives back what it obtained. -/
theorem closed_trace {e : Entry} (h : e.connects = false) :
    closed (e.trace : Trace (Sys tgt)) = obtained (e.trace : Trace (Sys tgt)) := by
  rcases e.cases with ⟨hfd, -⟩ | ⟨hfd, ⟨err, herr⟩, -⟩ | ⟨-, -, hyes⟩
  · simp [Entry.trace, hfd, closed, obtained]
  · simp [Entry.trace, hfd, herr, closed, obtained]
  · rw [h] at hyes
    cases hyes

/-- An entry that connects obtains its descriptor, closes nothing and leaves no error. -/
theorem obtained_trace {e : Entry} (h : e.connects = true) :
    obtained (e.trace : Trace (Sys tgt)) = [e.fd] ∧ closed (e.trace : Trace (Sys tgt)) = [] ∧
      connectErrors (e.trace : Trace (Sys tgt)) = [] := by
  obtain ⟨hfd, hconn⟩ := Entry.of_connects h
  simp [Entry.trace, hfd, hconn, closed, obtained, connectErrors]

/-! ## §3. The loop. -/

/-- The entries were tried in order, up to the first that connects: `info`, `sock` and `error`
    after the loop. -/
def Tried (es : List Entry) (error₀ : Option Errno) (t : Trace (Sys tgt)) (info : List AddrInfo)
    (sock : SOCKET) (error : Option Errno) : Prop :=
  error = (connectErrors t).getLast?.or error₀ ∧
    ∃ failed, (∀ e ∈ failed, e.connects = false) ∧
      ((es = failed ∧ info = [] ∧ t = failed.flatMap Entry.trace) ∨
        ∃ e later, es = failed ++ e :: later ∧ e.connects = true ∧ info ≠ [] ∧ sock = e.fd ∧
          t = (failed ++ [e]).flatMap Entry.trace)

/-- An entry that does not connect, before the others. -/
theorem Tried.cons {e : Entry} {es : List Entry} {error₀ error : Option Errno}
    {t : Trace (Sys tgt)} {info : List AddrInfo} {sock : SOCKET} (he : e.connects = false)
    (h : Tried es ((connectErrors (e.trace : Trace (Sys tgt))).getLast?.or error₀) t info sock error) :
    Tried (e :: es) error₀ (e.trace ++ t) info sock error := by
  obtain ⟨herror, failed, hfailed, hend⟩ := h
  refine ⟨?_, e :: failed, ?_, ?_⟩
  · rw [herror, connectErrors_append, List.getLast?_append, Option.or_assoc]
  · intro x hx
    rcases List.mem_cons.mp hx with rfl | hx
    · exact he
    · exact hfailed x hx
  · rcases hend with ⟨hes, hinfo, ht⟩ | ⟨g, later, hes, hg, hinfo, hsock, ht⟩
    · exact Or.inl ⟨by rw [hes], hinfo, by rw [ht, List.flatMap_cons]⟩
    · exact Or.inr ⟨g, later, by rw [hes]; rfl, hg, hinfo, hsock, by rw [ht]; rfl⟩

/-- **One turn of the loop**: an entry that does not connect is left behind, with the code of its
    `connect()` if it got that far; one that connects ends the loop, with the cursor at it. -/
theorem exec_turn {e : Entry} {es es' : List Entry} {infos : List AddrInfo} {sock₀ : SOCKET}
    {error₀ : Option Errno} {t : Trace (Sys tgt)} {r : List AddrInfo × SOCKET × Option Errno}
    (h : Exec (entryEnv tgt) (socketConnectLoop (e.info :: infos) sock₀ error₀) (e :: es) t r es') :
    (e.connects = false ∧ ∃ t', t = e.trace ++ t' ∧
      Exec (entryEnv tgt) (socketConnectLoop infos e.fd
        ((connectErrors (e.trace : Trace (Sys tgt))).getLast?.or error₀)) es t' r es') ∨
    (e.connects = true ∧ t = e.trace ∧ r = (e.info :: infos, e.fd, error₀)) := by
  rw [socketConnectLoop, exec_ask_bind] at h
  obtain ⟨fd, w₁, t₁, ⟨e', later, hes, hfd, hw₁⟩, ht, h⟩ := h
  cases hes
  subst hfd ht
  rcases e.cases with ⟨hinvalid, hno⟩ | ⟨hvalid, ⟨err, herr⟩, hno⟩ | ⟨hvalid, hconn, hyes⟩
  · -- `continue`: the descriptor is not valid
    rw [if_pos hinvalid] at h hw₁
    rw [exec_ask_bind] at h
    obtain ⟨u, w₂, t₂, hE, ht, h⟩ := h
    have hw₂ : w₂ = w₁ := hE
    subst hw₂ hw₁ ht
    left
    unfold Entry.trace
    rw [if_pos hinvalid]
    exact ⟨hno, t₂, rfl, h⟩
  · -- refused: the descriptor is closed, `sock` is stale
    rw [if_neg hvalid] at h hw₁
    subst hw₁
    rw [exec_ask_bind] at h
    obtain ⟨conn, w₂, t₂, ⟨e', later, hes, hconn, hw₂⟩, ht, h⟩ := h
    cases hes
    subst hconn ht hw₂
    rw [herr] at h
    dsimp only at h
    rw [exec_ask_bind] at h
    obtain ⟨u, w₃, t₃, hE, ht, h⟩ := h
    have hw₃ : w₃ = w₂ := hE
    subst hw₃ ht
    left
    unfold Entry.trace
    rw [if_neg hvalid, herr]
    exact ⟨hno, t₃, rfl, h⟩
  · -- `break`: the cursor is not NULL
    rw [if_neg hvalid] at h hw₁
    subst hw₁
    rw [exec_ask_bind] at h
    obtain ⟨conn, w₂, t₂, ⟨e', later, hes, hans, -⟩, ht, h⟩ := h
    cases hes
    subst hans ht
    rw [hconn] at h
    obtain ⟨ht, hr, -⟩ := (exec_pure (entryEnv tgt)).mp h
    subst ht
    right
    unfold Entry.trace
    rw [if_neg hvalid, hconn]
    exact ⟨hyes, rfl, hr⟩

/-- **The loop tries the entries in order, up to the first that connects.** -/
theorem exec_socketConnectLoop (es : List Entry) {sock₀ sock : SOCKET} {error₀ error : Option Errno}
    {info : List AddrInfo} {t : Trace (Sys tgt)} {es' : List Entry}
    (h : Exec (entryEnv tgt) (socketConnectLoop (es.map Entry.info) sock₀ error₀) es t
      (info, sock, error) es') : Tried es error₀ t info sock error := by
  induction es generalizing sock₀ error₀ t with
  | nil =>
      obtain ⟨ht, hr, -⟩ := (exec_pure (entryEnv tgt)).mp h
      cases hr
      subst ht
      exact ⟨rfl, [], by simp, Or.inl ⟨rfl, rfl, rfl⟩⟩
  | cons e es ih =>
      rcases exec_turn h with ⟨hno, t', rfl, hrest⟩ | ⟨hyes, rfl, hr⟩
      · exact Tried.cons hno (ih hrest)
      · cases hr
        refine ⟨?_, [], by simp, Or.inr ⟨e, es, rfl, hyes, by simp, rfl, ?_⟩⟩
        · rw [(obtained_trace hyes).2.2]
          rfl
        · rw [List.nil_append, List.flatMap_singleton]

/-- Whatever the outcomes, the loop comes to an end. -/
theorem exists_exec_socketConnectLoop (es : List Entry) (sock₀ : SOCKET) (error₀ : Option Errno) :
    ∃ t r es', Exec (entryEnv tgt) (socketConnectLoop (es.map Entry.info) sock₀ error₀) es t r es' := by
  induction es generalizing sock₀ error₀ with
  | nil => exact ⟨[], _, [], rfl, rfl, rfl⟩
  | cons e es ih =>
      have hsocket : entryEnv tgt (e :: es) (.socket e.info.family e.info.socktype) e.fd
        (if e.fd = INVALID_SOCKET then es else e :: es) := ⟨e, es, rfl, rfl, rfl⟩
      have hconnect : entryEnv tgt (e :: es) (.connect e.fd (some e.info.addr)) e.conn es :=
        ⟨e, es, rfl, rfl, rfl⟩
      rw [List.map_cons, socketConnectLoop]
      refine exists_exec_ask_bind (entryEnv tgt) hsocket ?_
      rcases e.cases with ⟨hinvalid, -⟩ | ⟨hvalid, ⟨err, herr⟩, -⟩ | ⟨hvalid, hconn, -⟩
      · rw [if_pos hinvalid, if_pos hinvalid]
        exact exists_exec_ask_bind (x := ()) (entryEnv tgt) rfl (ih e.fd error₀)
      · rw [if_neg hvalid, if_neg hvalid]
        refine exists_exec_ask_bind (entryEnv tgt) hconnect ?_
        rw [herr]
        exact exists_exec_ask_bind (x := ()) (entryEnv tgt) rfl (ih e.fd (some err))
      · rw [if_neg hvalid, if_neg hvalid]
        refine exists_exec_ask_bind (entryEnv tgt) hconnect ?_
        rw [hconn]
        exact ⟨[], _, es, rfl, rfl, rfl⟩

/-! ## §4. The call. -/

/-- The call: what it tried, and what it returns of it. -/
theorem exec_socketConnect (es : List Entry) {sock : SOCKET} {errno : Option Errno}
    {t : Trace (Sys tgt)} {es' : List Entry}
    (h : Exec (entryEnv tgt) (socketConnect (.ok (es.map Entry.info))) es t (sock, errno) es') :
    errno = (connectErrors t).getLast? ∧
      ∃ failed, (∀ e ∈ failed, e.connects = false) ∧
        ((es = failed ∧ sock = INVALID_SOCKET ∧ t = failed.flatMap Entry.trace) ∨
          ∃ e later, es = failed ++ e :: later ∧ e.connects = true ∧ sock = e.fd ∧
            t = (failed ++ [e]).flatMap Entry.trace) := by
  unfold socketConnect at h
  rw [exec_bind] at h
  obtain ⟨t₁, ⟨info, sock₁, error⟩, w₁, t₂, hloop, h, ht⟩ := h
  obtain ⟨herror, failed, hfailed, hend⟩ := exec_socketConnectLoop es hloop
  rw [Option.or_none] at herror
  -- success is read off the cursor
  rcases hend with ⟨hes, hinfo, ht₁⟩ | ⟨e, later, hes, he, hinfo, hsock, ht₁⟩
  · subst hinfo
    obtain ⟨ht₂, hr, -⟩ := (exec_pure (entryEnv tgt)).mp h
    cases hr
    rw [ht₂, List.append_nil] at ht
    subst ht
    exact ⟨herror, failed, hfailed, Or.inl ⟨hes, rfl, ht₁⟩⟩
  · have hcursor : ¬ info.isEmpty = true := by simpa using hinfo
    dsimp only at h
    rw [if_neg hcursor] at h
    obtain ⟨ht₂, hr, -⟩ := (exec_pure (entryEnv tgt)).mp h
    cases hr
    rw [ht₂, List.append_nil] at ht
    subst ht
    exact ⟨herror, failed, hfailed, Or.inr ⟨e, later, hes, he, hsock, ht₁⟩⟩

/-- Whatever the outcomes, the call returns. -/
theorem exists_exec_socketConnect (es : List Entry) :
    ∃ t r es', Exec (entryEnv tgt) (socketConnect (.ok (es.map Entry.info))) es t r es' := by
  obtain ⟨t, ⟨info, sock, error⟩, es', h⟩ :
    ∃ t r es', Exec (entryEnv tgt) (socketConnectLoop (es.map Entry.info) INVALID_SOCKET none) es
      t r es' := exists_exec_socketConnectLoop es INVALID_SOCKET none
  unfold socketConnect
  by_cases hinfo : info.isEmpty = true
  · refine ⟨t, (INVALID_SOCKET, error), es', (exec_bind _).mpr ⟨t, _, es', [], h, ?_, by simp⟩⟩
    dsimp only
    rw [if_pos hinfo]
    exact ⟨rfl, rfl, rfl⟩
  · refine ⟨t, (sock, error), es', (exec_bind _).mpr ⟨t, _, es', [], h, ?_, by simp⟩⟩
    dsimp only
    rw [if_neg hinfo]
    exact ⟨rfl, rfl, rfl⟩

/-- Entries that do not connect give back all they obtained, in order. -/
theorem closed_failed {failed : List Entry} (h : ∀ e ∈ failed, e.connects = false) :
    closed (failed.flatMap Entry.trace : Trace (Sys tgt)) =
      obtained (failed.flatMap Entry.trace : Trace (Sys tgt)) := by
  induction failed with
  | nil => rfl
  | cons e failed ih =>
      rw [List.flatMap_cons, closed_append, obtained_append,
        closed_trace (h e List.mem_cons_self), ih fun x hx => h x (List.mem_cons_of_mem _ hx)]

/-- The first entry that connects, and those before it, are determined by the list. -/
theorem split_first {failed : List Entry} {e : Entry} (later : List Entry)
    (hfailed : ∀ x ∈ failed, x.connects = false) (he : e.connects = true) :
    (failed ++ e :: later).takeWhile (fun x => !x.connects) = failed ∧
      (failed ++ e :: later).find? Entry.connects = some e := by
  induction failed with
  | nil => simp [he]
  | cons x failed ih =>
      have hx : x.connects = false := hfailed x List.mem_cons_self
      obtain ⟨htake, hfind⟩ := ih fun y hy => hfailed y (List.mem_cons_of_mem _ hy)
      simp [hx, htake, hfind]

/-- The statement below for one execution. -/
theorem socketConnect_of_exec (es : List Entry) {sock : SOCKET} {errno : Option Errno}
    {t : Trace (Sys tgt)} {es' : List Entry}
    (h : Exec (entryEnv tgt) (socketConnect (.ok (es.map Entry.info))) es t (sock, errno) es') :
    (sock ≠ INVALID_SOCKET ↔ ∃ e ∈ es, e.connects = true) ∧
    (∀ failed e later, es = failed ++ e :: later → (∀ x ∈ failed, x.connects = false) →
      e.connects = true → sock = e.fd ∧ t = (failed ++ [e]).flatMap Entry.trace) ∧
    ((∀ e ∈ es, e.connects = false) → t = es.flatMap Entry.trace) ∧
    obtained t = closed t ++ (if sock = INVALID_SOCKET then [] else [sock]) ∧
    errno = (connectErrors t).getLast? := by
  obtain ⟨herrno, failed, hfailed, hend⟩ := exec_socketConnect es h
  rcases hend with ⟨hes, hsock, ht⟩ | ⟨e, later, hes, he, hsock, ht⟩
  · -- the list ran out
    have hnone : ∀ e ∈ es, ¬ e.connects = true := by
      intro e hmem hyes
      rw [hes] at hmem
      rw [hfailed e hmem] at hyes
      cases hyes
    refine ⟨⟨fun hne => absurd hsock hne, ?_⟩, ?_, ?_, ?_, herrno⟩
    · rintro ⟨e, hmem, hyes⟩
      exact absurd hyes (hnone e hmem)
    · intro failed' e later hes' _ hyes
      have hmem : e ∈ es := by
        rw [hes']
        exact List.mem_append_right _ List.mem_cons_self
      exact absurd hyes (hnone e hmem)
    · intro _
      rw [hes]
      exact ht
    · rw [ht, closed_failed hfailed, if_pos hsock, List.append_nil]
  · -- the loop broke off at `e`, the first entry that connects
    have hmem : e ∈ es := by
      rw [hes]
      exact List.mem_append_right _ List.mem_cons_self
    have hvalid : sock ≠ INVALID_SOCKET := by
      rw [hsock]
      exact (Entry.of_connects he).1
    refine ⟨⟨fun _ => ⟨e, hmem, he⟩, fun _ => hvalid⟩, ?_, ?_, ?_, herrno⟩
    · intro failed' e' later' hes' hfailed' he'
      -- a list has one such split only
      obtain ⟨htake, hfind⟩ := split_first later hfailed he
      obtain ⟨htake', hfind'⟩ := split_first later' hfailed' he'
      rw [← hes] at htake hfind
      rw [← hes', htake] at htake'
      rw [← hes', hfind] at hfind'
      cases hfind'
      rw [← htake']
      exact ⟨hsock, ht⟩
    · intro hnone
      rw [hnone e hmem] at he
      cases he
    · have hobtained : obtained (e.trace : Trace (Sys tgt)) = [e.fd] := (obtained_trace he).1
      have hclosed : closed (e.trace : Trace (Sys tgt)) = [] := (obtained_trace he).2.1
      rw [ht, List.flatMap_append, List.flatMap_singleton, obtained_append, closed_append,
        hobtained, hclosed, closed_failed hfailed, if_neg hvalid, List.append_nil, hsock]

/-- **`socket_connect`, over every list and every pattern of failures.**  The call returns.  Its
    result is valid iff some entry connects; it is then the descriptor of the first one that does,
    and the trace ends with that entry.  What was obtained is closed, each once and in order, all
    but the result.  The error code is that of the last failed `connect()`, 0 if there was none. -/
theorem socketConnect_first (tgt : Target) (es : List Entry) :
    (∃ t r es', Exec (entryEnv tgt) (socketConnect (.ok (es.map Entry.info))) es t r es') ∧
    ∀ t sock errno es',
      Exec (entryEnv tgt) (socketConnect (.ok (es.map Entry.info))) es t (sock, errno) es' →
      (sock ≠ INVALID_SOCKET ↔ ∃ e ∈ es, e.connects = true) ∧
      (∀ failed e later, es = failed ++ e :: later → (∀ x ∈ failed, x.connects = false) →
        e.connects = true → sock = e.fd ∧ t = (failed ++ [e]).flatMap Entry.trace) ∧
      ((∀ e ∈ es, e.connects = false) → t = es.flatMap Entry.trace) ∧
      obtained t = closed t ++ (if sock = INVALID_SOCKET then [] else [sock]) ∧
      errno = (connectErrors t).getLast? :=
  ⟨exists_exec_socketConnect es, fun _ _ _ _ h => socketConnect_of_exec es h⟩

/-- Four addresses: no socket, refused on descriptor 3, connected on the same number, not tried. -/
def sampleEntries : List Entry :=
  [⟨⟨.inet6, .stream, .addr6 0 0 (.replicate 16 0) 0⟩, INVALID_SOCKET, .ok ()⟩,
    ⟨⟨.inet, .stream, .addr4 0 (.replicate 4 1)⟩, 3, .error (.other 111)⟩,
    ⟨⟨.inet, .stream, .addr4 0 (.replicate 4 2)⟩, 3, .ok ()⟩,
    ⟨⟨.inet, .stream, .addr4 0 (.replicate 4 3)⟩, 4, .ok ()⟩]

theorem socketConnect_first_sample :
    ∃ t es', Exec (entryEnv host) (socketConnect (.ok (sampleEntries.map Entry.info))) sampleEntries
        t (3, some (.other 111)) es' ∧
      obtained t = [3, 3] ∧ closed t = [3] := by
  obtain ⟨⟨t, ⟨sock, errno⟩, es', h⟩, hall⟩ := socketConnect_first host sampleEntries
  obtain ⟨-, hfirst, -, -, herrno⟩ := hall t sock errno es' h
  obtain ⟨hsock, ht⟩ := hfirst (sampleEntries.take 2) _ (sampleEntries.drop 3) rfl (by decide)
    (by decide)
  have hsock : sock = 3 := hsock
  have herrno : errno = some (.other 111) := by
    rw [herrno, ht]
    rfl
  subst hsock herrno
  refine ⟨t, es', h, ?_, ?_⟩
  · rw [ht]
    rfl
  · rw [ht]
    rfl

end MobileBgb.Socket
