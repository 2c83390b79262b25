/-
  MobileBgb.Main.Release — `main` releases what it took, on every way out.

  `main` has one exit at the end and five jumps to `error:`.  The assertion `At` says how
  far it has come: which of the three objects exist, and which descriptors are its own,
  beside those the process started with and the one behind the configuration file.  Each
  part of `main` moves from one `At` to the next; no part makes a request that `Allowed`
  refuses, so nothing is used after it was released and nothing is released twice.

  What `mainProg` does to the descriptors is known (`triple_mainProg`); `wp_translate`
  brings it here, with the configuration callbacks in between.

  `links` is the list of the descriptors connected so far.  Up to `socket_connect` it is
  empty, after it it has at most one element; a run that fails stays with that, since it
  never comes to call libmobile (`exec_mainProg_error`).
-/
import MobileBgb.Main.Program

namespace MobileBgb.Main

open MobileBgb.Effect
open MobileBgb.System
open MobileBgb.Socket

variable {tgt : Target} {base own : Fds} {cfg : Option (SOCKET × UInt32)} {c : SOCKET × UInt32}
  {mobile adapter : Bool} {u u' : Process}

/-! ## §1. How far `main` has come. -/

/-- The descriptors that are not `main`'s sockets. -/
def reserve (base : Fds) : Option (SOCKET × UInt32) → Fds
  | none => base
  | some c => Function.update base c.1 (some c.2)

/-- `cfg` is the descriptor behind `config`, `own` are the sockets, `base` is what the process
    started with. -/
structure At (base : Fds) (cfg : Option (SOCKET × UInt32)) (mobile adapter : Bool) (own : Fds)
    (u : Process) : Prop where
  config : u.config = cfg.map Prod.fst
  fresh : ∀ c ∈ cfg, base c.1 = none
  mobile : u.mobile = mobile
  adapter : u.adapter = adapter
  beside : Beside (reserve base cfg) own u.fds

/-- The requests after which the process is the same. -/
def OsOp.idle : OsOp tgt → Bool
  | .sys _ => false
  | .fopen _ _ => false
  | .fclose => false
  | .malloc => false
  | .free => false
  | .mobileNew => false
  | .freeAdapter => false
  | _ => true

abbrev Idle (op : OsOp tgt) : Prop := op.idle = true

theorem osEnv_idle {op : OsOp tgt} {x : op.Ans} (hop : Idle op)
    (h : osEnv tgt u op x u') : u' = u := by
  cases op with
  | sys op => cases hop
  | fopen fname mode => cases hop
  | fclose => cases hop
  | malloc => cases hop
  | free => cases hop
  | mobileNew => cases hop
  | freeAdapter => cases hop
  | _ => exact h

/-- Once all three objects exist everything may be used. -/
theorem At.alive (h : At base (some c) true true own u) (o : Object) : u.alive o = true := by
  cases o with
  | config =>
    show u.config.isSome = true
    rw [h.config]
    rfl
  | mobile => exact h.mobile
  | adapter => exact h.adapter

theorem At.allowed (h : At base (some c) true true own u) {op : OsOp tgt} (hop : Idle op) :
    Allowed u op := by
  refine ⟨fun o _ => h.alive o, ?_, ?_⟩
  · intro o ho
    cases op with
    | fopen fname mode => cases hop
    | fclose => cases hop
    | malloc => cases hop
    | free => cases hop
    | mobileNew => cases hop
    | _ => cases ho
  · cases op with
    | sys op => cases hop
    | _ => trivial

/-- The events that are requests of `Sys tgt`. -/
def sysEvent : Event (Os tgt) → Option (Event (Sys tgt))
  | ⟨.sys op, ans⟩ => some ⟨op, ans⟩
  | _ => none

theorem sysEvent_idle {op : OsOp tgt} {x : op.Ans} (hop : Idle op) :
    sysEvent (⟨op, x⟩ : Event (Os tgt)) = none := by
  cases op with
  | sys op => cases hop
  | _ => rfl

/-- The descriptor of a `connect` that went through. -/
def connectedFd : Event (Sys tgt) → Option SOCKET
  | ⟨.connect fd _, ans⟩ =>
      match (ans : Except Errno Unit) with
      | .ok _ => some fd
      | .error _ => none
  | _ => none

/-- The descriptors connected so far, in order. -/
def links (t : Trace (Os tgt)) : List SOCKET := (t.filterMap sysEvent).filterMap connectedFd

theorem links_append (t t' : Trace (Os tgt)) : links (t ++ t') = links t ++ links t' := by
  unfold links
  rw [List.filterMap_append, List.filterMap_append]

/-- The requests that connect. -/
def OsOp.connects : OsOp tgt → Bool
  | .sys (.connect _ _) => true
  | _ => false

abbrev Unlinked (op : OsOp tgt) : Prop := op.connects = false

theorem links_eq_nil {t : Trace (Os tgt)} (h : ∀ e ∈ t, Unlinked e.op) : links t = [] := by
  unfold links
  rw [List.filterMap_filterMap, List.filterMap_eq_nil_iff]
  rintro ⟨op, ans⟩ he
  have hop := h _ he
  cases op with
  | sys op =>
    cases op with
    | connect fd addr => cases hop
    | _ => rfl
  | _ => rfl

/-- What does not connect keeps the list of what is connected. -/
theorem triple_links {α : Type} {p : Prog (Os tgt) α} {P : Assertion (Os tgt) Process}
    {Q : α → Assertion (Os tgt) Process} (hp : p.Uses Unlinked)
    (h : Triple (osEnv tgt) Allowed P p Q) (l : List SOCKET) :
    Triple (osEnv tgt) Allowed (fun past u => links past = l ∧ P past u) p
      fun a past u => links past = l ∧ Q a past u := by
  rintro past u ⟨hl, hP⟩
  refine wp_of_exec ?_ (h past u hP)
  intro t a u' hx hQ
  refine ⟨?_, hQ⟩
  rw [links_append, hl, links_eq_nil (Exec.uses hp hx), List.append_nil]

theorem unlinked_of_idle (op : OsOp tgt) (h : Idle op) : Unlinked op := by
  cases op with
  | sys op => cases h
  | _ => rfl

/-- A program of such requests. -/
theorem wp_idle {α : Type} {p : Prog (Os tgt) α} (hp : p.Uses Idle)
    (h : At base (some c) true true own u) :
    wp (osEnv tgt) Allowed p (fun t _ u' => u' = u ∧ t.filterMap sysEvent = []) u := by
  induction p with
  | ret a => exact ⟨rfl, rfl⟩
  | call op k ih =>
    refine ⟨h.allowed hp.1, ?_⟩
    intro x u₁ hE
    have hu₁ := osEnv_idle hp.1 hE
    subst hu₁
    refine wp_mono ?_ (ih x (hp.2 x))
    intro t a u' hpost
    refine ⟨hpost.1, ?_⟩
    rw [List.filterMap_cons, sysEvent_idle hp.1]
    exact hpost.2

theorem triple_idle {α : Type} {p : Prog (Os tgt) α} (hp : p.Uses Idle) :
    Triple (osEnv tgt) Allowed (fun _ u => At base (some c) true true own u) p
      fun _ _ u => At base (some c) true true own u := by
  intro past u h
  refine wp_mono ?_ (wp_idle hp h)
  intro t a u' hpost
  rw [hpost.1]
  exact h

theorem triple_idle_links {α : Type} {p : Prog (Os tgt) α} (hp : p.Uses Idle) (l : List SOCKET) :
    Triple (osEnv tgt) Allowed
      (fun past u => links past = l ∧ At base (some c) true true own u) p
      fun _ past u => links past = l ∧ At base (some c) true true own u :=
  triple_links (Prog.uses_mono unlinked_of_idle hp) (triple_idle hp) l

theorem uses_configCallbacks : (configCallbacks : Prog (Os tgt) Unit).Uses Idle := by
  refine Prog.uses_bind (Prog.uses_ask rfl) ?_
  intro calls
  induction calls with
  | nil => exact Prog.uses_pure _
  | cons call calls ih =>
    refine Prog.uses_bind ?_ fun _ => ih
    cases call with
    | read offset size => exact ⟨rfl, fun _ => ⟨rfl, fun _ => trivial⟩⟩
    | write offset src => exact ⟨rfl, fun _ => ⟨rfl, fun _ => trivial⟩⟩

theorem uses_libmobile {op : OsOp tgt} (hop : Idle op) : (libmobile op).Uses Idle :=
  Prog.uses_bind (Prog.uses_ask hop) fun _ =>
    Prog.uses_bind uses_configCallbacks fun _ => Prog.uses_pure _

/-! ## §2. Requests on descriptors. -/

/-- A request that changes no descriptor, about open ones at most. -/
theorem wp_same {op : SysOp tgt} (hcalls : callsMobile op = false) (hop : changesFds op = false)
    (hfds : fdGuard u.fds op) :
    wp (osEnv tgt) Allowed (Os.ask (.sys op)) (fun _ _ u' => u' = u) u := by
  refine ⟨⟨?_, (fun o ho => nomatch ho), hfds⟩, ?_⟩
  · intro o ho
    have huses : (OsOp.sys op).uses = [] := by
      show (if callsMobile op then [Object.mobile, .adapter] else []) = []
      rw [hcalls]
      rfl
    rw [huses] at ho
    cases ho
  · rintro x u₁ ⟨fds, hE, hu₁⟩
    have hfds := fdEnv_same hop hE
    subst hfds hu₁
    rfl

/-- A message changes nothing. -/
theorem triple_diag (msg : Diag) (P : Process → Prop) (l : List SOCKET) :
    Triple (osEnv tgt) Allowed (fun past u => links past = l ∧ P u) (Os.diag msg)
      fun _ past u => links past = l ∧ P u := by
  refine triple_links (Prog.uses_ask rfl) ?_ l
  intro past u h
  refine wp_mono ?_ (wp_same rfl rfl (fdGuard_none rfl))
  intro t x u' hu'
  rw [hu']
  exact h

/-- **A request of `Sys tgt`**, with the configuration callbacks behind it, is answered as the
    descriptors of `main` alone would have it. -/
theorem wp_liftOp (v : Fds) (u : Process) (op : SysOp tgt) (h : At base (some c) true true v u)
    (hop : fdGuard v op) :
    wp (osEnv tgt) Allowed (liftOp op) (fun t x u' => t.filterMap sysEvent = [⟨op, x⟩] ∧
      ∃ v', fdEnv tgt v op x v' ∧ At base (some c) true true v' u') u := by
  have hallowed : Allowed u (.sys op) :=
    ⟨fun o _ => h.alive o, (fun o ho => nomatch ho), h.beside.guard hop⟩
  -- the request itself
  have hreq : ∀ x u₁, osEnv tgt u (.sys op) x u₁ →
      ∃ v', fdEnv tgt v op x v' ∧ At base (some c) true true v' u₁ := by
    rintro x u₁ ⟨fds, hE, hu₁⟩
    obtain ⟨v', hv', hbeside⟩ := fdEnv_local v u.fds op x fds h.beside hop hE
    subst hu₁
    exact ⟨v', hv', h.config, h.fresh, h.mobile, h.adapter, hbeside⟩
  unfold liftOp
  split_ifs
  · refine ⟨hallowed, ?_⟩
    intro x u₁ hE
    obtain ⟨v', hv', hat⟩ := hreq x u₁ hE
    apply wp_bind_pure
    refine wp_mono ?_ (wp_idle uses_configCallbacks hat)
    intro t y u' hpost
    obtain ⟨hu', hview⟩ := hpost
    subst hu'
    refine ⟨?_, v', hv', hat⟩
    show (⟨op, x⟩ : Event (Sys tgt)) :: t.filterMap sysEvent = [⟨op, x⟩]
    rw [hview]
  · refine ⟨hallowed, ?_⟩
    intro x u₁ hE
    exact ⟨rfl, hreq x u₁ hE⟩

/-! ## §3. Start-up. -/

/-- No socket yet. -/
def noFds : Fds := fun _ => none

theorem triple_mainOpenConfig (fname : CStr) :
    Triple (osEnv tgt) Allowed (fun _ u => At base none false false noFds u)
      (mainOpenConfig fname) fun ok _ u =>
        (ok = false ∧ At base none false false noFds u) ∨
          (ok = true ∧ ∃ c, At base (some c) false false noFds u) := by
  -- one `fopen`
  have hopen : ∀ mode, Triple (osEnv tgt) Allowed (fun _ u => At base none false false noFds u)
      (Os.ask (.fopen fname mode)) fun ok _ u =>
        (ok = false ∧ At base none false false noFds u) ∨
          (ok = true ∧ ∃ c, At base (some c) false false noFds u) := by
    intro mode past u h
    have hclosed : u.alive .config = false := by
      show u.config.isSome = false
      rw [h.config]
      rfl
    refine ⟨⟨(fun o ho => nomatch ho), ?_, trivial⟩, ?_⟩
    · intro o ho
      rw [List.mem_singleton.mp ho]
      exact hclosed
    · intro ok u₁ hE
      rcases hE with ⟨hok, hu₁⟩ | ⟨hok, fd, flags, _, hnew, hu₁⟩
      · subst hu₁
        exact Or.inl ⟨hok, h⟩
      · subst hu₁
        have hbase : base fd = none := (h.beside.of_none hnew).2
        refine Or.inr ⟨hok, (fd, flags), rfl, ?_, h.mobile, h.adapter, ?_⟩
        · rintro c ⟨⟩
          exact hbase
        · constructor
          · intro fd' hfd'
            exact absurd rfl hfd'
          · intro fd'
            show Function.update u.fds fd (some flags) fd' = Function.update base fd (some flags) fd'
            by_cases heq : fd' = fd
            · rw [heq, Function.update_self, Function.update_self]
            · rw [Function.update_of_ne heq, Function.update_of_ne heq, h.beside.all fd']
              rfl
  unfold mainOpenConfig
  refine triple_bind (hopen .update) ?_
  intro ok
  cases ok with
  | true =>
    rw [if_pos rfl]
    exact triple_pure fun _ _ h => h
  | false =>
    rw [if_neg (by decide)]
    refine triple_conseq (hopen .create) ?_ fun _ _ _ h => h
    rintro past u (⟨_, h⟩ | ⟨hok, _⟩)
    · exact h
    · cases hok

theorem unlinked_mainOpenConfig (fname : CStr) :
    (mainOpenConfig fname : Prog (Os tgt) Bool).Uses Unlinked := by
  unfold mainOpenConfig
  refine Prog.uses_bind (Prog.uses_ask rfl) ?_
  intro ok
  split_ifs
  · exact Prog.uses_pure _
  · exact Prog.uses_ask rfl

/-- Filling up works on the stream alone. -/
theorem triple_mainFillConfig (configSize : Nat) :
    Triple (osEnv tgt) Allowed (fun _ u => At base (some c) false false noFds u)
      (mainFillConfig configSize) fun _ _ u => At base (some c) false false noFds u := by
  have hstream : ∀ {op : OsOp tgt}, op.uses = [.config] → op.orphans = [] → op.idle = true →
      (∀ fds, op.opens fds) → Triple (osEnv tgt) Allowed
        (fun _ u => At base (some c) false false noFds u) (Os.ask op)
        fun _ _ u => At base (some c) false false noFds u := by
    intro op huses horphans hidle hopens past u h
    refine ⟨⟨?_, ?_, hopens u.fds⟩, ?_⟩
    · intro o ho
      rw [huses] at ho
      rw [List.mem_singleton.mp ho]
      show u.config.isSome = true
      rw [h.config]
      rfl
    · intro o ho
      rw [horphans] at ho
      cases ho
    · intro x u₁ hE
      have hu₁ := osEnv_idle hidle hE
      subst hu₁
      exact h
  have hfill : ∀ n, Triple (osEnv tgt) Allowed (fun _ u => At base (some c) false false noFds u)
      (fillConfig n) fun _ _ u => At base (some c) false false noFds u := by
    intro n
    induction n with
    | zero => exact triple_pure fun _ _ h => h
    | succ n ih => exact triple_bind (hstream rfl rfl rfl fun _ => trivial) fun _ => ih
  unfold mainFillConfig
  refine triple_bind (hstream rfl rfl rfl fun _ => trivial) fun _ => ?_
  refine triple_bind (hstream rfl rfl rfl fun _ => trivial) fun i => ?_
  refine triple_bind (hfill _) fun _ => ?_
  exact hstream rfl rfl rfl fun _ => trivial

theorem unlinked_mainFillConfig (configSize : Nat) :
    (mainFillConfig configSize : Prog (Os tgt) Unit).Uses Unlinked := by
  have hfill : ∀ n, (fillConfig n : Prog (Os tgt) Unit).Uses Unlinked := by
    intro n
    induction n with
    | zero => exact Prog.uses_pure _
    | succ n ih => exact Prog.uses_bind (Prog.uses_ask rfl) fun _ => ih
  refine Prog.uses_bind (Prog.uses_ask rfl) fun _ => ?_
  refine Prog.uses_bind (Prog.uses_ask rfl) fun i => ?_
  exact Prog.uses_bind (hfill _) fun _ => Prog.uses_ask rfl

theorem triple_malloc :
    Triple (osEnv tgt) Allowed (fun _ u => At base (some c) false false noFds u)
      (Os.ask .malloc) fun ok _ u => At base (some c) ok false noFds u := by
  intro past u h
  refine ⟨⟨(fun o ho => nomatch ho), ?_, trivial⟩, ?_⟩
  · intro o ho
    rw [List.mem_singleton.mp ho]
    exact h.mobile
  · intro ok u₁ hE
    rcases hE with ⟨hok, hu₁⟩ | ⟨hok, hu₁⟩
    · subst hok hu₁
      exact h
    · subst hok hu₁
      exact ⟨h.config, h.fresh, rfl, h.adapter, h.beside⟩

theorem uses_mainDefs (callbacks : List Callback) :
    (mainDefs callbacks : Prog (Os tgt) Unit).Uses Idle := by
  induction callbacks with
  | nil => exact Prog.uses_pure _
  | cons callback callbacks ih => exact Prog.uses_bind (uses_libmobile rfl) fun _ => ih

/-- All that follows `mobile_new` are calls into libmobile. -/
theorem uses_mainConfigure (r : Settings) : ∃ p : Prog (Os tgt) Unit,
    (mainConfigure r = do Os.ask .mobileNew; p) ∧ p.Uses Idle := by
  refine ⟨_, rfl, ?_⟩
  refine Prog.uses_bind (uses_mainDefs _) fun _ => ?_
  refine Prog.uses_bind (uses_libmobile rfl) fun _ => ?_
  refine Prog.uses_bind (uses_libmobile rfl) fun _ => ?_
  refine Prog.uses_bind (uses_libmobile rfl) fun _ => ?_
  refine Prog.uses_bind (uses_libmobile rfl) fun _ => ?_
  refine Prog.uses_bind (uses_libmobile rfl) fun _ => ?_
  refine Prog.uses_bind (uses_libmobile rfl) fun _ => ?_
  have hsave : (libmobile .mobileConfigSave : Prog (Os tgt) Unit).Uses Idle := uses_libmobile rfl
  cases r.relayToken with
  | some token => exact Prog.uses_bind (uses_libmobile rfl) fun _ => hsave
  | none => exact hsave

theorem unlinked_mainConfigure (r : Settings) :
    (mainConfigure r : Prog (Os tgt) Unit).Uses Unlinked := by
  obtain ⟨p, hp, hidle⟩ := uses_mainConfigure r
  rw [hp]
  exact Prog.uses_bind (Prog.uses_ask rfl) fun _ => Prog.uses_mono unlinked_of_idle hidle

theorem triple_mainConfigure (r : Settings) :
    Triple (osEnv tgt) Allowed (fun _ u => At base (some c) true false noFds u)
      (mainConfigure r) fun _ _ u => At base (some c) true true noFds u := by
  have hnew : Triple (osEnv tgt) Allowed (fun _ u => At base (some c) true false noFds u)
      (Os.ask .mobileNew) fun _ _ u => At base (some c) true true noFds u := by
    intro past u h
    refine ⟨⟨?_, ?_, trivial⟩, ?_⟩
    · intro o ho
      rw [List.mem_singleton.mp ho]
      exact h.mobile
    · intro o ho
      rw [List.mem_singleton.mp ho]
      exact h.adapter
    · intro x u₁ hE
      have hE : u₁ = { u with adapter := true } := hE
      subst hE
      exact ⟨h.config, h.fresh, h.mobile, rfl, h.beside⟩
  obtain ⟨p, hp, hidle⟩ := uses_mainConfigure r
  rw [hp]
  exact triple_bind hnew fun _ => triple_idle hidle

/-! ## §4. The connection. -/

/-- `socket_connect` leaves nothing open but the descriptor it returns, the one it connected. -/
theorem wp_socketConnectLoop (infos : List AddrInfo) (sock₀ : SOCKET) (error₀ : Option Errno) :
    wp (fdEnv tgt) fdGuard (socketConnectLoop infos sock₀ error₀) (fun t r v =>
      (r.1 = [] ∧ t.filterMap connectedFd = [] ∧ v = noFds) ∨
        (r.1 ≠ [] ∧ t.filterMap connectedFd = [r.2.1] ∧ r.2.1 ≠ INVALID_SOCKET ∧
          ∃ flags, v = onlyLink r.2.1 flags)) noFds := by
  induction infos generalizing sock₀ error₀ with
  | nil => exact Or.inl ⟨rfl, rfl, rfl⟩
  | cons info next ih =>
    unfold socketConnectLoop
    rw [wp_ask_bind]
    refine ⟨fdGuard_none rfl, ?_⟩
    intro sock v₁ hE
    rcases hE with ⟨hsock, hv₁⟩ | ⟨hsock, _, flags, hv₁⟩
    · -- no descriptor: on to the next address
      subst hv₁
      rw [if_pos hsock, wp_ask_bind]
      refine ⟨fdGuard_none rfl, ?_⟩
      intro x v₂ hE
      have hE : v₂ = noFds := hE
      subst hE
      exact ih sock error₀
    · rw [if_neg hsock, wp_ask_bind]
      have hopen : v₁ sock ≠ none := by
        rw [hv₁, Function.update_self]
        exact Option.some_ne_none flags
      refine ⟨fdGuard_one rfl hopen, ?_⟩
      intro ans v₂ hE
      have hE : v₂ = v₁ := hE
      subst hE
      cases ans with
      | ok x =>
        refine Or.inr ⟨List.cons_ne_nil _ _, rfl, hsock, flags, ?_⟩
        rw [hv₁]
        funext fd
        by_cases hfd : fd = sock
        · rw [hfd, Function.update_self]
          exact (if_pos rfl).symm
        · rw [Function.update_of_ne hfd]
          exact (if_neg hfd).symm
      | error e =>
        -- refused: the descriptor is closed
        dsimp only
        rw [wp_ask_bind]
        refine ⟨fdGuard_one rfl hopen, ?_⟩
        intro x v₃ hE
        have hE : v₃ = Function.update v₂ sock none := hE
        have hnone : v₃ = noFds := by
          rw [hE, hv₁, Function.update_idem]
          exact Function.update_eq_self sock noFds
        subst hnone
        exact ih sock (some e)

theorem wp_socketConnect (gai : Except (Int × Option Errno) (List AddrInfo)) :
    wp (fdEnv tgt) fdGuard (socketConnect gai) (fun t r v =>
      (r.1 = INVALID_SOCKET ∧ t.filterMap connectedFd = [] ∧ v = noFds) ∨
        (r.1 ≠ INVALID_SOCKET ∧ t.filterMap connectedFd = [r.1] ∧ ∃ flags, v = onlyLink r.1 flags))
      noFds := by
  unfold socketConnect
  cases gai with
  | error e =>
    refine ⟨fdGuard_none rfl, ?_⟩
    intro x v₁ hE
    exact Or.inl ⟨rfl, rfl, hE⟩
  | ok result =>
    apply wp_bind
    refine wp_mono ?_ (wp_socketConnectLoop result INVALID_SOCKET none)
    rintro t ⟨info, sock, error⟩ v (⟨hnil, hlinks, hv⟩ | ⟨hcons, hlinks, hsock, hflags⟩)
    · have hnil : info = [] := hnil
      subst hnil
      refine Or.inl ⟨rfl, ?_, hv⟩
      rw [List.filterMap_append, hlinks]
      rfl
    · cases info with
      | nil => exact absurd rfl hcons
      | cons i is =>
        refine Or.inr ⟨hsock, ?_, hflags⟩
        rw [List.append_nil]
        exact hlinks

/-- `socket_connect` in `main`. -/
theorem triple_mainSocketConnect (host port : CStr) :
    Triple (osEnv tgt) Allowed
      (fun past u => links past = [] ∧ At base (some c) true true noFds u)
      (mainSocketConnect host port) fun sock past u =>
        (sock = INVALID_SOCKET ∧ links past = [] ∧ At base (some c) true true noFds u) ∨
        (sock ≠ INVALID_SOCKET ∧ ∃ flags, links past = [sock] ∧
          At base (some c) true true (onlyLink sock flags) u) := by
  rintro past u ⟨hl, h⟩
  refine ⟨h.allowed rfl, ?_⟩
  intro gai u₁ hE
  have hE : u₁ = u := hE
  subst hE
  apply wp_bind_pure
  refine wp_mono ?_ (wp_translate wp_liftOp (wp_socketConnect gai) h)
  rintro t ⟨sock, errno⟩ u' ⟨v, hat, hend⟩
  -- `getaddrinfo` is no request on a descriptor
  have hlinks : links (past ++ ⟨.getaddrinfo host port, gai⟩ :: t) =
      (t.filterMap sysEvent).filterMap connectedFd := by
    rw [links_append, hl]
    rfl
  rcases hend with ⟨hsock, hnone, hv⟩ | ⟨hsock, hone, flags, hv⟩
  · subst hv
    exact Or.inl ⟨hsock, hlinks.trans hnone, hat⟩
  · subst hv
    exact Or.inr ⟨hsock, flags, hlinks.trans hone, hat⟩

/-! ## §5. The ways out. -/

/-- `fclose(config)` gives back the descriptor behind the stream, and no other. -/
theorem At.close (h : At base (some c) false false own u) :
    At base none false false own
      { u with fds := closeStream u.fds u.config, config := none } := by
  have hown : own c.1 = none := by
    by_contra hne
    have hapart := h.beside.apart c.1 hne
    rw [reserve, Function.update_self] at hapart
    cases hapart
  have hother : ∀ fd, fd ≠ c.1 → reserve base (some c) fd = base fd :=
    fun fd hfd => Function.update_of_ne hfd _ _
  refine ⟨rfl, (fun c hc => nomatch hc), h.mobile, h.adapter, ?_, ?_⟩
  · intro fd hfd
    have hne : fd ≠ c.1 := by
      intro heq
      rw [heq] at hfd
      exact hfd hown
    have hapart := h.beside.apart fd hfd
    rw [hother fd hne] at hapart
    exact hapart
  · intro fd
    show closeStream u.fds u.config fd = (own fd).or (base fd)
    rw [h.config]
    show Function.update u.fds c.1 none fd = (own fd).or (base fd)
    by_cases heq : fd = c.1
    · rw [heq, Function.update_self, hown, h.fresh c rfl]
      rfl
    · rw [Function.update_of_ne heq, h.beside.all fd, hother fd heq]

theorem wp_fclose {α : Type} {a : α} {Q : Trace (Os tgt) → α → Process → Prop}
    (h : At base (some c) false false own u)
    (hQ : ∀ u', At base none false false own u' → Q [⟨.fclose, ()⟩] a u') :
    wp (osEnv tgt) Allowed (do Os.ask .fclose; return a) Q u := by
  refine ⟨⟨?_, ?_, trivial⟩, ?_⟩
  · intro o ho
    rw [List.mem_singleton.mp ho]
    show u.config.isSome = true
    rw [h.config]
    rfl
  · intro o ho
    rw [List.mem_singleton.mp ho]
    exact h.mobile
  · intro x u₁ hE
    have hE : u₁ = { u with fds := closeStream u.fds u.config, config := none } := hE
    subst hE
    exact hQ _ h.close

/-- `free(mobile->adapter)` and `free(mobile)`, in this order. -/
theorem wp_frees {α : Type} {p : Prog (Os tgt) α} {Q : Trace (Os tgt) → α → Process → Prop}
    (h : At base (some c) true true own u)
    (hp : ∀ u', At base (some c) false false own u' →
      wp (osEnv tgt) Allowed p (fun t a u'' => Q (⟨.freeAdapter, ()⟩ :: ⟨.free, ()⟩ :: t) a u'') u') :
    wp (osEnv tgt) Allowed (do Os.ask .freeAdapter; Os.ask .free; p) Q u := by
  refine ⟨⟨fun o _ => h.alive o, (fun o ho => nomatch ho), trivial⟩, ?_⟩
  intro x u₁ hE
  have hE : u₁ = { u with adapter := false } := hE
  subst hE
  refine ⟨⟨?_, ?_, trivial⟩, ?_⟩
  · intro o ho
    rw [List.mem_singleton.mp ho]
    exact h.mobile
  · intro o ho
    rw [List.mem_singleton.mp ho]
    rfl
  · intro x' u₂ hE
    have hE : u₂ = { u with adapter := false, mobile := false } := hE
    subst hE
    exact hp _ ⟨h.config, h.fresh, rfl, rfl, h.beside⟩

/-- How `main` leaves the process. -/
def Released (base : Fds) : Option ExitCode → Assertion (Os tgt) Process
  | some .success => fun past u => ∃ own, At base none false false own u ∧
      ∀ fd, own fd ≠ none → fd ∈ unset (past.filterMap sysEvent)
  | some .failure => fun past u => ∃ (own : Fds) (link : Option SOCKET),
      links past = link.toList ∧ At base none false false own u ∧
      ∀ fd, own fd ≠ none ↔ link = some fd
  | none => fun _ u => ∃ c own, At base (some c) true true own u

/-- Failed before there was a connection. -/
theorem released_noLink {past : Trace (Os tgt)} (hlinks : links past = [])
    (h : At base none false false noFds u) : Released base (some .failure) past u :=
  ⟨noFds, none, hlinks, h, fun _ => ⟨fun hne => absurd rfl hne, fun hsome => nomatch hsome⟩⟩

/-- Failed with the connection open. -/
theorem released_link {past : Trace (Os tgt)} {bgbSock : SOCKET} {flags : UInt32}
    (hlinks : links past = [bgbSock]) (h : At base none false false (onlyLink bgbSock flags) u) :
    Released base (some .failure) past u := by
  refine ⟨_, some bgbSock, hlinks, h, ?_⟩
  intro fd
  unfold onlyLink
  split_ifs with heq
  · simp [heq]
  · simp [Ne.symm heq]

/-- The last three requests of `main`, after `error:` or at its end. -/
theorem triple_free {α : Type} {a : α} {P : Trace (Sys tgt) → Prop} :
    Triple (osEnv tgt) Allowed
      (fun past u => P (past.filterMap sysEvent) ∧ At base (some c) true true own u)
      (do Os.ask .freeAdapter; Os.ask .free; Os.ask .fclose; return a)
      fun b past u => b = a ∧ P (past.filterMap sysEvent) ∧ At base none false false own u := by
  rintro past u ⟨hP, h⟩
  refine wp_frees h fun u₁ h₁ => wp_fclose h₁ fun u₂ h₂ => ⟨rfl, ?_, h₂⟩
  rw [List.filterMap_append]
  show P (past.filterMap sysEvent ++ [])
  rw [List.append_nil]
  exact hP

/-- `error:` once `mobile` is there. -/
theorem triple_mainError {l : List SOCKET}
    (hend : ∀ (past : Trace (Os tgt)) (u : Process), links past = l →
      At base none false false own u → Released base (some .failure) past u) :
    Triple (osEnv tgt) Allowed
      (fun past u => links past = l ∧ At base (some c) true true own u) (mainError true true)
      (Released base) := by
  refine triple_conseq (triple_free (P := fun t => t.filterMap connectedFd = l)) (fun _ _ h => h) ?_
  rintro code past u ⟨hcode, hl, h⟩
  subst hcode
  exact hend past u hl h

/-- The requests on the link connect nothing. -/
theorem connectedFd_linkOp {sock : SOCKET} {t : Trace (Sys tgt)} (h : ∀ e ∈ t, LinkOp sock e.op) :
    t.filterMap connectedFd = [] := by
  rw [List.filterMap_eq_nil_iff]
  rintro ⟨op, ans⟩ he
  have hop := h _ he
  cases op with
  | connect fd addr => cases hop
  | _ => rfl

/-- `mainProg` in a world of its own: how it leaves its descriptors, and that it has changed none
    when it fails. -/
theorem wp_mainProg {bgbSock : SOCKET} {flags : UInt32} (hsock : bgbSock ≠ INVALID_SOCKET)
    (n m : Nat) :
    wp (fdEnv tgt) fdGuard (mainProg bgbSock n m) (fun t e v =>
      MainLeaves bgbSock flags e t v ∧
        (e = .error → t.filterMap connectedFd = [] ∧ v = onlyLink bgbSock flags))
      (onlyLink bgbSock flags) := by
  refine wp_of_exec ?_ (triple_mainProg n m [] _ (accounted_onlyLink hsock))
  intro t e v hx hleaves
  refine ⟨hleaves, ?_⟩
  intro he
  subst he
  have hops := exec_mainProg_error hx
  exact ⟨connectedFd_linkOp hops, exec_unchanged (fun ev hev => (hops ev hev).quiet.2) hx⟩

/-- The handshake and the loops. -/
theorem triple_mainProg_lifted {bgbSock : SOCKET} {flags : UInt32}
    (hsock : bgbSock ≠ INVALID_SOCKET) (n m : Nat) :
    Triple (osEnv tgt) Allowed
      (fun past u => links past = [bgbSock] ∧
        At base (some c) true true (onlyLink bgbSock flags) u)
      ((mainProg bgbSock n m).translate liftOp) fun e past u =>
        ∃ v, At base (some c) true true v u ∧
          (e = .error → links past = [bgbSock] ∧ v = onlyLink bgbSock flags) ∧
          (e = .exited → ∀ fd, v fd ≠ none → fd ∈ unset (past.filterMap sysEvent)) := by
  rintro past u ⟨hlinks, h⟩
  refine wp_mono ?_ (wp_translate wp_liftOp (wp_mainProg hsock n m) h)
  rintro t e u' ⟨v, hat, hleaves, hfailed⟩
  refine ⟨v, hat, ?_, ?_⟩
  · intro he
    obtain ⟨hnone, hv⟩ := hfailed he
    refine ⟨?_, hv⟩
    rw [links_append, hlinks]
    show [bgbSock] ++ (t.filterMap sysEvent).filterMap connectedFd = [bgbSock]
    rw [hnone, List.append_nil]
  · intro he fd hfd
    subst he
    rw [List.filterMap_append]
    exact unset_append_right _ (hleaves fd hfd)

theorem triple_mainServe {bgbSock : SOCKET} {flags : UInt32} (hsock : bgbSock ≠ INVALID_SOCKET)
    (n m : Nat) :
    Triple (osEnv tgt) Allowed
      (fun past u => links past = [bgbSock] ∧
        At base (some c) true true (onlyLink bgbSock flags) u)
      (mainServe bgbSock n m) (Released base) := by
  unfold mainServe
  refine triple_bind (triple_mainProg_lifted hsock n m) ?_
  intro e
  cases e with
  | error =>
    rintro past u ⟨v, hat, hfailed, _⟩
    obtain ⟨hlinks, hv⟩ := hfailed rfl
    subst hv
    exact triple_mainError (fun _ _ => released_link) past u ⟨hlinks, hat⟩
  | waiting => exact triple_pure fun _ _ ⟨v, hat, _⟩ => ⟨c, v, hat⟩
  | looping => exact triple_pure fun _ _ ⟨v, hat, _⟩ => ⟨c, v, hat⟩
  | exited =>
    rintro past u ⟨v, hat, _, hlost⟩
    refine wp_mono ?_ (triple_free (P := fun t => ∀ fd, v fd ≠ none → fd ∈ unset t) past u
      ⟨hlost rfl, hat⟩)
    rintro t code u' ⟨hcode, hlost, h⟩
    subst hcode
    exact ⟨v, h, hlost⟩

theorem triple_mainConnected {bgbSock : SOCKET} {flags : UInt32} (hsock : bgbSock ≠ INVALID_SOCKET)
    (n m : Nat) :
    Triple (osEnv tgt) Allowed
      (fun past u => links past = [bgbSock] ∧
        At base (some c) true true (onlyLink bgbSock flags) u)
      (mainConnected bgbSock n m) (Released base) := by
  -- given up with the connection open
  have hfail : ∀ msg : Diag, Triple (osEnv tgt) Allowed
      (fun past u => links past = [bgbSock] ∧
        At base (some c) true true (onlyLink bgbSock flags) u)
      (do Os.diag msg; mainError true true) (Released base) := by
    intro msg
    refine triple_bind (triple_diag msg _ [bgbSock]) ?_
    intro x
    exact triple_mainError fun _ _ => released_link
  have hopt : Triple (osEnv tgt) Allowed
      (fun _ u => At base (some c) true true (onlyLink bgbSock flags) u)
      (Os.ask (.sys (.setsockopt bgbSock .tcpNodelay))) fun _ _ u =>
        At base (some c) true true (onlyLink bgbSock flags) u := by
    intro past u h
    have hlink : onlyLink bgbSock flags bgbSock ≠ none := by simp [onlyLink]
    refine wp_mono ?_ (wp_same rfl rfl (h.beside.guard (fdGuard_one rfl hlink)))
    intro t x u' hu'
    rw [hu']
    exact h
  unfold mainConnected
  refine triple_bind (triple_links (Prog.uses_ask rfl) hopt [bgbSock]) ?_
  intro rc
  split_ifs
  · exact hfail _
  · refine triple_bind (triple_idle_links (Prog.uses_ask rfl) [bgbSock]) ?_
    intro rc'
    split_ifs
    · exact hfail _
    · refine triple_bind (triple_idle_links (Prog.uses_ask rfl) [bgbSock]) ?_
      intro x
      exact triple_mainServe hsock n m

theorem triple_mainAll (configSize : Nat) (r : Settings) (n m : Nat) :
    Triple (osEnv tgt) Allowed (fun past u => links past = [] ∧ At base none false false noFds u)
      (mainAll configSize r n m) (Released base) := by
  unfold mainAll
  refine triple_bind (triple_links (unlinked_mainOpenConfig _)
    (triple_mainOpenConfig r.fnameConfig) []) ?_
  intro config
  cases config with
  | false =>
    rw [if_pos (by decide)]
    refine triple_bind (R := fun _ past u => links past = [] ∧ At base none false false noFds u) ?_ ?_
    · refine triple_conseq (triple_diag _ _ []) ?_
        fun _ _ _ h => h
      rintro past u ⟨hl, ⟨_, h⟩ | ⟨hok, _⟩⟩
      · exact ⟨hl, h⟩
      · cases hok
    · intro x
      exact triple_pure fun _ _ h => released_noLink h.1 h.2
  | true =>
    rw [if_neg (by decide)]
    rintro past u ⟨hl, ⟨hok, _⟩ | ⟨_, c, h⟩⟩
    · cases hok
    · refine triple_bind (triple_links (unlinked_mainFillConfig configSize)
        (triple_mainFillConfig configSize) []) ?_ past u ⟨hl, h⟩
      intro x
      refine triple_bind (triple_links (Prog.uses_ask rfl) triple_malloc []) ?_
      intro mobile
      cases mobile with
      | false =>
        rw [if_pos (by decide)]
        refine triple_bind (triple_diag _ _ []) ?_
        rintro x past u ⟨hl, h⟩
        refine wp_fclose h fun u' h' => released_noLink ?_ h'
        rw [links_append, hl]
        rfl
      | true =>
        rw [if_neg (by decide)]
        refine triple_bind (triple_links (unlinked_mainConfigure r) (triple_mainConfigure r) []) ?_
        intro x
        refine triple_bind (triple_mainSocketConnect r.host r.port) ?_
        rintro sock past u (⟨hsock, h⟩ | ⟨hsock, flags, h⟩)
        · rw [if_pos hsock]
          refine triple_bind (triple_idle_links (Prog.uses_ask rfl) []) ?_ past u h
          intro x
          refine triple_bind (triple_diag _ _ []) ?_
          intro x
          exact triple_mainError fun _ _ => released_noLink
        · rw [if_neg hsock]
          exact triple_mainConnected hsock n m past u h

/-! ## §6. Every way out. -/

theorem At.dead (h : At base none false false own u) (o : Object) : u.alive o = false := by
  cases o with
  | config =>
    show u.config.isSome = false
    rw [h.config]
    rfl
  | mobile => exact h.mobile
  | adapter => exact h.adapter

/-- **`main` releases what it took.**  In every run, whatever the system, the emulator and libmobile
    do: no request touches the stream, the user object, the adapter or a descriptor before it is
    there or after it was released, and none is made that would lose one of them.  As long as
    `main` runs the three objects are there; when it returns they are gone.  The descriptors the
    process had before are as they were.  After `EXIT_SUCCESS` no other is open, except accepted
    ones an `fcntl` failed on.  After `EXIT_FAILURE` at most one other is: at most one `connect` of
    the run went through, and its descriptor, the connection to the emulator, is then left open.
    `mobile_new` is taken to succeed (`osEnv`). -/
theorem main_releases {configSize n m : Nat} {r : Settings} {t : Trace (Os tgt)}
    {code : Option ExitCode} (hconfig : u.config = none) (hmobile : u.mobile = false)
    (hadapter : u.adapter = false) (h : Exec (osEnv tgt) (mainAll configSize r n m) u t code u') :
    Exec (Guarded (osEnv tgt) Allowed) (mainAll configSize r n m) u t code u' ∧
    (code = none → ∀ o, u'.alive o = true) ∧ (code ≠ none → ∀ o, u'.alive o = false) ∧
    (∀ fd, u.fds fd ≠ none → u'.fds fd = u.fds fd) ∧
    (code = some .success → ∀ fd, u'.fds fd ≠ none →
      u.fds fd ≠ none ∨ fd ∈ unset (t.filterMap sysEvent)) ∧
    (code = some .failure → ∃ link : Option SOCKET, links t = link.toList ∧
      (∀ fd, link = some fd → u.fds fd = none) ∧
      ∀ fd, u'.fds fd ≠ none ↔ u.fds fd ≠ none ∨ link = some fd) := by
  have hstart : At u.fds none false false noFds u :=
    ⟨hconfig, (fun c hc => nomatch hc), hmobile, hadapter, (fun fd hfd => absurd rfl hfd),
      fun fd => rfl⟩
  obtain ⟨hend, hguarded⟩ := wp_exec (triple_mainAll configSize r n m [] u ⟨rfl, hstart⟩) h
  -- what was there before is nobody's own, and behind no stream
  have hkept : ∀ {cfg mobile adapter own}, At u.fds cfg mobile adapter own u' →
      ∀ fd, u.fds fd ≠ none → u'.fds fd = u.fds fd := by
    intro cfg mobile adapter own hat fd hfd
    have hres : reserve u.fds cfg fd = u.fds fd := by
      cases cfg with
      | none => rfl
      | some c =>
        refine Function.update_of_ne ?_ _ _
        intro heq
        rw [heq, hat.fresh c rfl] at hfd
        exact hfd rfl
    have hown : own fd = none := by
      by_contra hne
      rw [hat.beside.apart fd hne] at hres
      exact hfd hres.symm
    rw [hat.beside.all fd, hown, hres]
    rfl
  have hopen : ∀ {own}, At u.fds none false false own u' → ∀ fd, u'.fds fd ≠ none →
      u.fds fd ≠ none ∨ own fd ≠ none := by
    intro own hat fd hfd
    by_cases hown : own fd = none
    · rw [hat.beside.all fd, hown] at hfd
      exact Or.inl hfd
    · exact Or.inr hown
  refine ⟨hguarded, ?_⟩
  cases code with
  | none =>
    obtain ⟨c, own, hat⟩ := hend
    exact ⟨fun _ => hat.alive, fun hc => absurd rfl hc, hkept hat, (fun hc => nomatch hc),
      fun hc => nomatch hc⟩
  | some code =>
    cases code with
    | success =>
      obtain ⟨own, hat, hlost⟩ := hend
      refine ⟨(fun hc => nomatch hc), fun _ => hat.dead, hkept hat, ?_, (fun hc => nomatch hc)⟩
      intro _ fd hfd
      rcases hopen hat fd hfd with hfd | hfd
      · exact Or.inl hfd
      · exact Or.inr (hlost fd hfd)
    | failure =>
      obtain ⟨own, link, hlinks, hat, hown⟩ := hend
      refine ⟨(fun hc => nomatch hc), fun _ => hat.dead, hkept hat, (fun hc => nomatch hc), ?_⟩
      intro _
      refine ⟨link, hlinks, fun fd hfd => hat.beside.apart fd ((hown fd).mpr hfd), ?_⟩
      intro fd
      constructor
      · intro hfd
        rcases hopen hat fd hfd with hfd | hfd
        · exact Or.inl hfd
        · exact Or.inr ((hown fd).mp hfd)
      · rintro (hfd | hfd)
        · rw [hkept hat fd hfd]
          exact hfd
        · have hne := (hown fd).mpr hfd
          rw [hat.beside.mine hne]
          exact hne

/-- The system of `scriptServe` with a configuration file to be created, one address to connect to,
    and libmobile writing a byte of the configuration whenever it is called. -/
def osServe (c : Script × Process) : (op : OsOp host) → op.Ans × Script × Process
  | .sys (.connect _ _) => (.ok (), c)
  | .sys op =>
      let r := scriptServe (c.1, c.2.fds) op
      (r.1, r.2.1, { c.2 with fds := r.2.2 })
  | .fopen _ .update => (false, c)
  | .fopen _ .create =>
      if freshFd c.2.fds = INVALID_SOCKET then (false, c)
      else (true, c.1, { c.2 with
        fds := Function.update c.2.fds (freshFd c.2.fds) (some 2), config := some (freshFd c.2.fds) })
  | .ftell => (0, c)
  | .fread _ => ([], c)
  | .fwrite src => (src.length, c)
  | .fclose => ((), c.1, { c.2 with fds := closeStream c.2.fds c.2.config, config := none })
  | .malloc => (true, c.1, { c.2 with mobile := true })
  | .free => ((), c.1, { c.2 with mobile := false })
  | .mobileNew => ((), c.1, { c.2 with adapter := true })
  | .freeAdapter => ((), c.1, { c.2 with adapter := false })
  | .configCalls => ([.write 0 [1]], c)
  | .getaddrinfo _ _ => (.ok [⟨.inet, .stream, .addr4 0 (.replicate 4 0)⟩], c)
  | .sigaction => (0, c)
  | .fseekEnd => ((), c)
  | .fputc _ => ((), c)
  | .rewind => ((), c)
  | .fseekSet _ => ((), c)
  | .mobileDef _ => ((), c)
  | .mobileConfigLoad => ((), c)
  | .mobileConfigSetDevice _ _ => ((), c)
  | .mobileConfigSetDns _ _ => ((), c)
  | .mobileConfigSetP2pPort _ => ((), c)
  | .mobileConfigSetRelay _ => ((), c)
  | .mobileConfigSetRelayToken _ => ((), c)
  | .mobileConfigSave => ((), c)
  | .couldNotConnect _ _ => ((), c)
  | .updateTitle => ((), c)

/-- `assert`s hold in a request. -/
def osAssertHolds : OsOp host → Bool
  | .sys op => assertHolds op
  | _ => true

theorem osEnv_serve (c : Script × Process) (op : OsOp host) (hop : osAssertHolds op = true) :
    osEnv host c.2 op (osServe c op).1 (osServe c op).2.2 := by
  cases op with
  | sys op =>
    cases op with
    | connect fd addr => exact ⟨_, rfl, rfl⟩
    | _ => exact ⟨_, scriptServe_fds (c.1, c.2.fds) _ hop, rfl⟩
  | fopen fname mode =>
    cases mode with
    | update => exact Or.inl ⟨rfl, rfl⟩
    | create =>
      show (_ ∧ _) ∨ (_ ∧ _)
      unfold osServe
      dsimp only
      split_ifs with hfd
      · exact Or.inl ⟨rfl, rfl⟩
      · exact Or.inr ⟨rfl, _, 2, hfd, freshFd_none hfd, rfl⟩
  | malloc => exact Or.inr ⟨rfl, rfl⟩
  | _ => rfl

/-- Settings with no parameter given. -/
def plainSettings : Settings where
  fnameConfig := .ofString "config.bin"
  device := 8
  deviceUnmetered := false
  dns1 := .other 0
  dns2 := .other 0
  dnsPort := 53
  p2pPort := 1027
  relay := .other 0
  relayToken := some none
  host := .ofString "127.0.0.1"
  port := .ofString "8765"

/-- Only descriptor 2 is open when `main` starts; the script is that of `syncedTransfer`. -/
def fromShell : Script × Process :=
  (syncedTransfer.1, ⟨Function.update noFds 2 (some 1), none, false, false⟩)

/-- `main` in that system, from `c` on. -/
def runFrom (c : Script × Process) : Trace (Os host) × Option ExitCode × Script × Process :=
  (mainAll 2 plainSettings 4 4).run osServe c

theorem exec_runFrom {c : Script × Process}
    (hok : (runFrom c).1.all (fun e => osAssertHolds e.op) = true) :
    Exec (osEnv host) (mainAll 2 plainSettings 4 4) c.2 (runFrom c).1 (runFrom c).2.1
      (runFrom c).2.2.2 := by
  have hrun : Exec (fun c op x c' => osEnv host c.2 op x c'.2) (mainAll 2 plainSettings 4 4) c
      (runFrom c).1 (runFrom c).2.1 (runFrom c).2.2 := by
    apply exec_run_of osEnv_serve
    exact List.all_eq_true.mp hok
  exact hrun.project Prod.snd fun _ _ _ _ hE => hE

def wholeRun : Trace (Os host) × Option ExitCode × Script × Process := runFrom fromShell

/-- The emulator takes the connection and says nothing. -/
def silentRun : Trace (Os host) × Option ExitCode × Script × Process :=
  runFrom (⟨[], [], []⟩, fromShell.2)

/-- In the first run `main` exits with success: it had opened the descriptors 3, 4 and 5, and only 2
    is left.  In the second it fails, and leaves 4, the connection to the emulator. -/
theorem main_releases_wholeRun :
    (wholeRun.2.1 = some .success ∧
      (wholeRun.1.filterMap sysEvent).countP (hands 5) = 1 ∧
      (∀ o, wholeRun.2.2.2.alive o = false) ∧
      ∀ fd, wholeRun.2.2.2.fds fd ≠ none →
        fromShell.2.fds fd ≠ none ∨ fd ∈ unset (wholeRun.1.filterMap sysEvent)) ∧
    silentRun.2.1 = some .failure ∧ links silentRun.1 = [4] ∧
      ∀ fd, silentRun.2.2.2.fds fd ≠ none ↔ fromShell.2.fds fd ≠ none ∨ fd = 4 := by
  constructor
  · have hos := exec_runFrom (c := fromShell) (by decide +kernel)
    have hexit : wholeRun.2.1 = some .success := by decide +kernel
    obtain ⟨_, _, hdead, _, hfds, _⟩ := main_releases rfl rfl rfl hos
    exact ⟨hexit, by decide +kernel, hdead (by rw [← wholeRun, hexit]; exact Option.some_ne_none _),
      hfds hexit⟩
  · have hos := exec_runFrom (c := (⟨[], [], []⟩, fromShell.2)) (by decide +kernel)
    have hexit : silentRun.2.1 = some .failure := by decide +kernel
    have hlinks : links silentRun.1 = [4] := by decide +kernel
    obtain ⟨_, _, _, _, _, hfds⟩ := main_releases rfl rfl rfl hos
    obtain ⟨link, hlink, _, hfds⟩ := hfds hexit
    refine ⟨hexit, hlinks, ?_⟩
    intro fd
    rw [← silentRun, hlinks] at hlink
    have hsome : link = some 4 := by
      cases link with
      | none => cases hlink
      | some fd =>
        injection hlink with hfd
        rw [hfd]
    rw [hsome] at hfds
    refine (hfds fd).trans (or_congr Iff.rfl ?_)
    constructor
    · intro h
      exact (Option.some.inj h).symm
    · intro h
      rw [h]

end MobileBgb.Main
