/-
  MobileBgb.Main.Startup — from the command line to libmobile.

  `MobileBgb.Main.Settings` ends with the variables of `main`; `MobileBgb.Main.Program` starts
  from them.  Here the two are joined: what the user typed is what libmobile is given.

      argv  ──mainScan──▶  settings  ──mainAll──▶  requests to libmobile

  `commandLine_reaches` says it for every argument vector, every execution and every failure:
  either `main` ends before it touches libmobile, or libmobile is given exactly what the line
  means (`configureOps`), in this order, all of it before it runs for the first time, and
  nothing is given to it again.
-/
import MobileBgb.Main.Release

namespace MobileBgb.Main

open MobileBgb.Effect
open MobileBgb.System
open MobileBgb.Socket

variable {tgt : Target}

/-! ## §1. What libmobile should be given. -/

/-- Requests that set libmobile up, or look the emulator up. -/
def setsUp : OsOp tgt → Bool
  | .mobileNew => true
  | .mobileDef _ => true
  | .mobileConfigLoad => true
  | .mobileConfigSetDevice _ _ => true
  | .mobileConfigSetDns _ _ => true
  | .mobileConfigSetP2pPort _ => true
  | .mobileConfigSetRelay _ => true
  | .mobileConfigSetRelayToken _ => true
  | .mobileConfigSave => true
  | .getaddrinfo _ _ => true
  | _ => false

/-- Requests in which libmobile runs. -/
def runsMobile : OsOp tgt → Bool
  | .sys op => callsMobile op
  | _ => false

/-- The name of the file a request opens. -/
def opensFile : OsOp tgt → Option CStr
  | .fopen fname _ => some fname
  | _ => none

/-- All callbacks, in the order of their registration. -/
def callbacks : List Callback :=
  [.debugLog, .configRead, .configWrite, .timeLatch, .timeCheckMs, .sockOpen, .sockClose,
    .sockConnect, .sockListen, .sockAccept, .sockSend, .sockRecv, .updateNumber]

/-- The requests that hand the settings to libmobile: those of the file are loaded first, the ones
    asked for replace them, the result is saved. -/
def configureOps (r : Settings) : List (OsOp tgt) :=
  .mobileNew :: (callbacks.map .mobileDef ++
    .mobileConfigLoad :: .mobileConfigSetDevice r.device r.deviceUnmetered ::
    .mobileConfigSetDns r.dns1 false :: .mobileConfigSetDns r.dns2 true ::
    .mobileConfigSetP2pPort r.p2pPort :: .mobileConfigSetRelay r.relay ::
    ((r.relayToken.map .mobileConfigSetRelayToken).toList ++ [.mobileConfigSave]))

/-! ## §2. Requests that set nothing up. -/

/-- Requests that set nothing up and open no file. -/
def Aside (op : OsOp tgt) : Prop := setsUp op = false ∧ opensFile op = none

/-- Requests in which libmobile does not run, and which open this file at most. -/
def Early (fname : CStr) (op : OsOp tgt) : Prop :=
  runsMobile op = false ∧ ∀ f, opensFile op = some f → f = fname

/-- Requests that are both. -/
def Neutral (op : OsOp tgt) : Prop :=
  setsUp op = false ∧ runsMobile op = false ∧ opensFile op = none

theorem Neutral.aside {op : OsOp tgt} (h : Neutral op) : Aside op := ⟨h.1, h.2.2⟩

theorem Neutral.early {op : OsOp tgt} (h : Neutral op) (fname : CStr) : Early fname op := by
  refine ⟨h.2.1, ?_⟩
  intro f hf
  rw [h.2.2] at hf
  cases hf

theorem neutral_configCallbacks : (configCallbacks : Prog (Os tgt) Unit).Uses Neutral := by
  refine Prog.uses_bind (Prog.uses_ask ⟨rfl, rfl, rfl⟩) ?_
  intro calls
  induction calls with
  | nil => exact Prog.uses_pure _
  | cons call calls ih =>
    refine Prog.uses_bind ?_ fun _ => ih
    cases call with
    | read offset size => exact ⟨⟨rfl, rfl, rfl⟩, fun _ => ⟨⟨rfl, rfl, rfl⟩, fun _ => trivial⟩⟩
    | write offset src => exact ⟨⟨rfl, rfl, rfl⟩, fun _ => ⟨⟨rfl, rfl, rfl⟩, fun _ => trivial⟩⟩

/-- A request of the exchange sets nothing up. -/
theorem aside_liftOp (op : SysOp tgt) : (liftOp op).Uses Aside := by
  unfold liftOp
  split_ifs
  · exact Prog.uses_bind (Prog.uses_ask ⟨rfl, rfl⟩) fun _ =>
      Prog.uses_bind (Prog.uses_mono (fun _ h => h.aside) neutral_configCallbacks) fun _ =>
        Prog.uses_pure _
  · exact Prog.uses_ask ⟨rfl, rfl⟩

/-- The way out: nothing is set up, and the result is `EXIT_FAILURE`. -/
theorem neutral_mainError (config mobile : Bool) :
    (mainError config mobile : Prog (Os tgt) (Option ExitCode)).Uses Neutral ∧
      (mainError config mobile : Prog (Os tgt) (Option ExitCode)).Returns
        fun code => code = some .failure := by
  unfold mainError
  cases config with
  | false =>
    cases mobile with
    | false => exact ⟨trivial, rfl⟩
    | true =>
      exact ⟨⟨⟨rfl, rfl, rfl⟩, fun _ => ⟨⟨rfl, rfl, rfl⟩, fun _ => trivial⟩⟩, fun _ _ => rfl⟩
  | true =>
    cases mobile with
    | false => exact ⟨⟨⟨rfl, rfl, rfl⟩, fun _ => trivial⟩, fun _ => rfl⟩
    | true =>
      exact ⟨⟨⟨rfl, rfl, rfl⟩, fun _ => ⟨⟨rfl, rfl, rfl⟩, fun _ => ⟨⟨rfl, rfl, rfl⟩, fun _ =>
        trivial⟩⟩⟩, fun _ _ _ => rfl⟩

theorem neutral_mainFillConfig (configSize : Nat) :
    (mainFillConfig configSize : Prog (Os tgt) Unit).Uses Neutral := by
  have hfill : ∀ n, (fillConfig n : Prog (Os tgt) Unit).Uses Neutral := by
    intro n
    induction n with
    | zero => exact Prog.uses_pure _
    | succ n ih => exact ⟨⟨rfl, rfl, rfl⟩, fun _ => ih⟩
  refine Prog.uses_bind (Prog.uses_ask ⟨rfl, rfl, rfl⟩) fun _ => ?_
  refine Prog.uses_bind (Prog.uses_ask ⟨rfl, rfl, rfl⟩) fun i => ?_
  exact Prog.uses_bind (hfill _) fun _ => Prog.uses_ask ⟨rfl, rfl, rfl⟩

theorem aside_mainError (config mobile : Bool) :
    (mainError config mobile : Prog (Os tgt) (Option ExitCode)).Uses Aside :=
  Prog.uses_mono (fun _ h => h.aside) (neutral_mainError config mobile).1

theorem aside_mainConnected (bgbSock : SOCKET) (n m : Nat) :
    (mainConnected bgbSock n m : Prog (Os tgt) (Option ExitCode)).Uses Aside := by
  have hserve : (mainServe bgbSock n m : Prog (Os tgt) (Option ExitCode)).Uses Aside := by
    refine Prog.uses_bind (Prog.uses_translate aside_liftOp _) ?_
    intro last
    cases last with
    | error => exact aside_mainError true true
    | waiting => exact trivial
    | looping => exact trivial
    | exited => exact ⟨⟨rfl, rfl⟩, fun _ => ⟨⟨rfl, rfl⟩, fun _ => ⟨⟨rfl, rfl⟩, fun _ => trivial⟩⟩⟩
  refine Prog.uses_bind (Prog.uses_ask ⟨rfl, rfl⟩) fun rc => ?_
  split_ifs
  · exact Prog.uses_bind (Prog.uses_ask ⟨rfl, rfl⟩) fun _ => aside_mainError true true
  · refine Prog.uses_bind (Prog.uses_ask ⟨rfl, rfl⟩) fun rc => ?_
    split_ifs
    · exact Prog.uses_bind (Prog.uses_ask ⟨rfl, rfl⟩) fun _ => aside_mainError true true
    · exact Prog.uses_bind (Prog.uses_ask ⟨rfl, rfl⟩) fun _ => hserve

/-! ## §3. The stages. -/

theorem makes_libmobile {op : OsOp tgt} (h : setsUp op = true) :
    (libmobile op).Makes setsUp [op] := by
  have hcalls : (configCallbacks : Prog (Os tgt) Unit).Makes setsUp [] :=
    Prog.makes_none (Prog.uses_mono (fun _ h => h.1) neutral_configCallbacks)
  exact Prog.makes_bind (Prog.makes_ask (S := Os tgt) h) fun _ =>
    Prog.makes_bind hcalls fun _ => (rfl : ([] : List (OsOp tgt)) = [])

theorem makes_mainDefs (cs : List Callback) :
    (mainDefs cs : Prog (Os tgt) Unit).Makes setsUp (cs.map .mobileDef) := by
  induction cs with
  | nil => rfl
  | cons c cs ih => exact Prog.makes_bind (makes_libmobile rfl) fun _ => ih

/-- **The settings are handed over**, one request each. -/
theorem makes_mainConfigure (r : Settings) :
    (mainConfigure r : Prog (Os tgt) Unit).Makes setsUp (configureOps r) := by
  have hsave : (libmobile .mobileConfigSave : Prog (Os tgt) Unit).Makes setsUp [.mobileConfigSave] :=
    makes_libmobile rfl
  have hnew : (Os.ask .mobileNew : Prog (Os tgt) Unit).Makes setsUp [.mobileNew] :=
    Prog.makes_ask rfl
  refine Prog.makes_cons hnew fun _ => ?_
  refine Prog.makes_bind (makes_mainDefs callbacks) fun _ => ?_
  refine Prog.makes_cons (makes_libmobile rfl) fun _ => ?_
  refine Prog.makes_cons (makes_libmobile rfl) fun _ => ?_
  refine Prog.makes_cons (makes_libmobile rfl) fun _ => ?_
  refine Prog.makes_cons (makes_libmobile rfl) fun _ => ?_
  refine Prog.makes_cons (makes_libmobile rfl) fun _ => ?_
  refine Prog.makes_cons (makes_libmobile rfl) fun _ => ?_
  cases r.relayToken with
  | none => exact hsave
  | some token => exact Prog.makes_cons (makes_libmobile rfl) fun _ => hsave

theorem early_mainConfigure (fname : CStr) (r : Settings) :
    (mainConfigure r : Prog (Os tgt) Unit).Uses (Early fname) := by
  have hearly : ∀ {op : OsOp tgt}, runsMobile op = false → opensFile op = none →
      Early fname op := by
    intro op hrun hopen
    refine ⟨hrun, ?_⟩
    rw [hopen]
    exact fun f hf => nomatch hf
  have hlib : ∀ {op : OsOp tgt}, runsMobile op = false → opensFile op = none →
      (libmobile op).Uses (Early fname) := by
    intro op hrun hopen
    exact Prog.uses_bind (Prog.uses_ask (hearly hrun hopen)) fun _ =>
      Prog.uses_bind (Prog.uses_mono (fun _ h => h.early fname) neutral_configCallbacks) fun _ =>
        Prog.uses_pure _
  have hdefs : ∀ cs : List Callback, (mainDefs cs : Prog (Os tgt) Unit).Uses (Early fname) := by
    intro cs
    induction cs with
    | nil => exact Prog.uses_pure _
    | cons c cs ih => exact Prog.uses_bind (hlib rfl rfl) fun _ => ih
  have hsave : (libmobile .mobileConfigSave : Prog (Os tgt) Unit).Uses (Early fname) :=
    hlib rfl rfl
  unfold mainConfigure
  refine Prog.uses_bind (Prog.uses_ask (hearly rfl rfl)) fun _ => ?_
  refine Prog.uses_bind (hdefs _) fun _ => ?_
  refine Prog.uses_bind (hlib rfl rfl) fun _ => ?_
  refine Prog.uses_bind (hlib rfl rfl) fun _ => ?_
  refine Prog.uses_bind (hlib rfl rfl) fun _ => ?_
  refine Prog.uses_bind (hlib rfl rfl) fun _ => ?_
  refine Prog.uses_bind (hlib rfl rfl) fun _ => ?_
  refine Prog.uses_bind (hlib rfl rfl) fun _ => ?_
  cases r.relayToken with
  | none => exact hsave
  | some token => exact Prog.uses_bind (hlib rfl rfl) fun _ => hsave

/-- The file is opened under its name, and only there. -/
theorem early_mainOpenConfig (fname : CStr) :
    (mainOpenConfig fname : Prog (Os tgt) Bool).Uses
      fun op => Early fname op ∧ setsUp op = false := by
  have hopen : ∀ mode : OpenMode, Early fname (.fopen fname mode : OsOp tgt) ∧
      setsUp (.fopen fname mode : OsOp tgt) = false := by
    intro mode
    refine ⟨⟨rfl, ?_⟩, rfl⟩
    intro f hf
    injection hf with hf
    exact hf.symm
  refine Prog.uses_bind (Prog.uses_ask (hopen .update)) ?_
  intro ok
  split_ifs
  · exact Prog.uses_pure _
  · exact Prog.uses_ask (hopen .create)

/-- From the look-up of the emulator on. -/
def mainReach (r : Settings) (n m : Nat) : Prog (Os tgt) (Option ExitCode) := do
  let bgbSock ← mainSocketConnect r.host r.port
  if bgbSock = INVALID_SOCKET then
    Os.ask (.couldNotConnect r.host r.port)
    Os.diag (.socketPerror none)
    mainError true true
  else mainConnected bgbSock n m

theorem aside_afterConnect (r : Settings) (bgbSock : SOCKET) (n m : Nat) :
    (if bgbSock = INVALID_SOCKET then do
        Os.ask (.couldNotConnect r.host r.port)
        Os.diag (.socketPerror none)
        mainError true true
      else mainConnected bgbSock n m : Prog (Os tgt) (Option ExitCode)).Uses Aside := by
  split_ifs
  · refine Prog.uses_bind (Prog.uses_ask ⟨rfl, rfl⟩) fun _ => ?_
    exact Prog.uses_bind (Prog.uses_ask ⟨rfl, rfl⟩) fun _ => aside_mainError true true
  · exact aside_mainConnected bgbSock n m

/-- Only the emulator is looked up, under the names it was given. -/
theorem makes_mainReach (r : Settings) (n m : Nat) :
    (mainReach r n m : Prog (Os tgt) (Option ExitCode)).Makes setsUp
        [.getaddrinfo r.host r.port] ∧
      (mainReach r n m : Prog (Os tgt) (Option ExitCode)).Uses fun op => opensFile op = none := by
  have hasks : (Os.ask (.getaddrinfo r.host r.port) : Prog (Os tgt) _).Makes setsUp
      [.getaddrinfo r.host r.port] := Prog.makes_ask rfl
  have hconnect : ∀ gai, ((socketConnect gai).translate liftOp : Prog (Os tgt) _).Uses Aside :=
    fun gai => Prog.uses_translate aside_liftOp _
  unfold mainReach
  constructor
  · refine Prog.makes_cons (Prog.makes_cons hasks fun gai => ?_) fun bgbSock =>
      Prog.makes_none (Prog.uses_mono (fun _ h => h.1) (aside_afterConnect r bgbSock n m))
    exact Prog.makes_none (Prog.uses_bind (Prog.uses_mono (fun _ h => h.1) (hconnect gai)) fun _ =>
      Prog.uses_pure _)
  · refine Prog.uses_bind (Prog.uses_bind (Prog.uses_ask rfl) fun gai => ?_) fun bgbSock =>
      Prog.uses_mono (fun _ h => h.2) (aside_afterConnect r bgbSock n m)
    exact Prog.uses_bind (Prog.uses_mono (fun _ h => h.2) (hconnect gai)) fun _ => Prog.uses_pure _

/-! ## §4. All of it. -/

/-- What an execution does with the settings `r`. -/
structure HandsOver (r : Settings) (t : Trace (Os tgt)) (code : Option ExitCode) : Prop where
  /-- The configuration file is the only one that is opened. -/
  file : ∀ e ∈ t, ∀ fname, opensFile e.op = some fname → fname = r.fnameConfig
  /-- `main` ends before libmobile is there, or libmobile is given all settings, before it runs,
      and nothing after that but the emulator being looked up. -/
  settings :
    (code = some .failure ∧ Trace.picked setsUp t = [] ∧ ∀ e ∈ t, runsMobile e.op = false) ∨
    ∃ pre post, t = pre ++ post ∧ Trace.picked setsUp pre = configureOps r ∧
      (∀ e ∈ pre, runsMobile e.op = false) ∧
      Trace.picked setsUp post = [.getaddrinfo r.host r.port]

section Exec

variable {σ : Type} {E : Env (Os tgt) σ} {r : Settings} {w w' : σ} {t t₀ : Trace (Os tgt)}
  {code : Option ExitCode}

/-- What has been done while nothing was set up. -/
structure Preparing (r : Settings) (t : Trace (Os tgt)) : Prop where
  early : ∀ e ∈ t, Early r.fnameConfig e.op
  picked : Trace.picked setsUp t = []

theorem Preparing.append (h₀ : Preparing r t₀) (h : Preparing r t) : Preparing r (t₀ ++ t) where
  early := by
    intro e he
    rcases List.mem_append.mp he with he | he
    · exact h₀.early e he
    · exact h.early e he
  picked := by
    rw [Trace.picked_append, h₀.picked, h.picked]
    rfl

theorem preparing_of_neutral {α : Type} {p : Prog (Os tgt) α} {a : α} (hp : p.Uses Neutral)
    (hx : Exec E p w t a w') : Preparing r t where
  early := fun e he => (Exec.uses hp hx e he).early r.fnameConfig
  picked := Exec.makes (Prog.makes_none (Prog.uses_mono (fun _ h => h.1) hp)) hx

/-- A way out before libmobile is there. -/
theorem Preparing.gives_up {config mobile : Bool} {msg : Diag} (h₀ : Preparing r t₀)
    (hx : Exec E (do Os.diag msg; mainError config mobile) w t code w') :
    HandsOver r (t₀ ++ t) code := by
  have hneutral : (do Os.diag msg; mainError config mobile : Prog (Os tgt) _).Uses Neutral :=
    Prog.uses_bind (Prog.uses_ask ⟨rfl, rfl, rfl⟩) fun _ => (neutral_mainError config mobile).1
  have hfails : code = some .failure := by
    obtain ⟨_, _, _, _, _, hx⟩ := hx
    exact Exec.returns (P := fun code => code = some .failure) (neutral_mainError config mobile).2 hx
  have hall := h₀.append (preparing_of_neutral hneutral hx)
  exact ⟨fun e he => (hall.early e he).2,
    Or.inl ⟨hfails, hall.picked, fun e he => (hall.early e he).1⟩⟩

/-- The rest, once the file and the object are there. -/
theorem Preparing.hands_over {n m : Nat} (h₀ : Preparing r t₀)
    (hx : Exec E (do mainConfigure r; mainReach r n m) w t code w') :
    HandsOver r (t₀ ++ t) code := by
  rw [exec_bind] at hx
  obtain ⟨t₁, _, w₁, t₂, hconf, hreach, ht⟩ := hx
  obtain ⟨hmakes, hfiles⟩ := @makes_mainReach tgt r n m
  have hearly := Exec.uses (early_mainConfigure r.fnameConfig r) hconf
  subst ht
  constructor
  · intro e he fname hfname
    rw [List.mem_append, List.mem_append] at he
    rcases he with he | he | he
    · exact (h₀.early e he).2 fname hfname
    · exact (hearly e he).2 fname hfname
    · rw [Exec.uses hfiles hreach e he] at hfname
      cases hfname
  · right
    refine ⟨t₀ ++ t₁, t₂, (List.append_assoc _ _ _).symm, ?_, ?_, Exec.makes hmakes hreach⟩
    · rw [Trace.picked_append, h₀.picked, Exec.makes (makes_mainConfigure r) hconf]
      rfl
    · intro e he
      rcases List.mem_append.mp he with he | he
      · exact (h₀.early e he).1
      · exact (hearly e he).1

/-- **One run of `main`** on its settings. -/
theorem exec_mainAll {configSize n m : Nat}
    (hx : Exec E (mainAll configSize r n m) w t code w') : HandsOver r t code := by
  unfold mainAll at hx
  rw [exec_bind] at hx
  obtain ⟨t₁, config, w₁, t₂, hopen, hx, ht⟩ := hx
  subst ht
  have hopened : Preparing r t₁ :=
    ⟨fun e he => (Exec.uses (early_mainOpenConfig r.fnameConfig) hopen e he).1,
      Exec.makes (Prog.makes_none (Prog.uses_mono (fun _ h => h.2) (early_mainOpenConfig r.fnameConfig)))
        hopen⟩
  cases config with
  | false => exact hopened.gives_up hx
  | true =>
    have hx : Exec E (do
        mainFillConfig configSize
        let mobile ← Os.ask .malloc
        if !mobile then
          Os.diag (.perror "malloc")
          mainError true false
        else
          mainConfigure r
          mainReach r n m) w₁ t₂ code w' := hx
    rw [exec_bind] at hx
    obtain ⟨t₃, _, w₃, t₄, hfill, hx, ht⟩ := hx
    rw [exec_ask_bind] at hx
    obtain ⟨mobile, w₄, t₅, _, ht', hx⟩ := hx
    have hfilled := hopened.append (preparing_of_neutral (neutral_mainFillConfig configSize) hfill)
    have hmalloc : Preparing r [(⟨.malloc, mobile⟩ : Event (Os tgt))] :=
      ⟨fun e he => by
        rw [List.mem_singleton.mp he]
        exact ⟨rfl, fun _ h => nomatch h⟩, rfl⟩
    have hready := hfilled.append hmalloc
    have hassoc : t₁ ++ t₂ = (t₁ ++ t₃ ++ [⟨.malloc, mobile⟩]) ++ t₅ := by
      rw [ht, ht']
      simp
    rw [hassoc]
    cases mobile with
    | false => exact hready.gives_up hx
    | true => exact hready.hands_over hx

end Exec

/-- **What the user typed is what libmobile is given.**  For every argument vector the scan ends
    with a message, or the vector is a command line, and every execution of the rest of `main`
    hands over the settings this line asks for. -/
theorem commandLine_reaches (lib : Lib) (buf : Vector UInt8 lib.relayTokenSize) (prog : CStr)
    (args : List CStr) (configSize n m : Nat) :
    (∃ e, mainScan lib buf (prog :: args) = .error (.exit e)) ∨
      ∃ (l : Line lib) (r : CommandLine lib), args = l.args ∧
        mainScan lib buf (prog :: args) = .ok r ∧
        ∀ (σ : Type) (E : Env (Os tgt) σ) (w w' : σ) (t : Trace (Os tgt)) (code : Option ExitCode),
          Exec E (mainAll configSize r.settings n m) w t code w' → HandsOver l.settings t code := by
  rcases mainScan_cases buf prog args with hexit | ⟨l, rfl⟩
  · exact Or.inl hexit
  · right
    obtain ⟨r, hscan, hsettings⟩ := mainScan_line buf prog l
    refine ⟨l, r, rfl, hscan, ?_⟩
    intro σ E w w' t code hx
    rw [hsettings] at hx
    exact exec_mainAll hx

/-- `mobile --relay-token ""` asks for the settings of `wholeRun`, and there they are handed over. -/
theorem commandLine_reaches_wholeRun :
    ∃ (l : Line sampleLib) (r : CommandLine sampleLib),
      [.ofString "--relay-token", .ofString ""] = l.args ∧ r.settings = plainSettings ∧
      HandsOver l.settings wholeRun.1 wholeRun.2.1 := by
  have hscans : (mainScan sampleLib (.replicate 16 0)
      (.ofString "mobile" :: [.ofString "--relay-token", .ofString ""])).toOption.map
        CommandLine.settings = some plainSettings := by
    decide +kernel
  have hexec : Exec (osEnv host) (mainAll 2 plainSettings 4 4) fromShell.2 wholeRun.1 wholeRun.2.1
      wholeRun.2.2.2 :=
    exec_runFrom (by decide +kernel)
  rcases @commandLine_reaches host sampleLib (.replicate 16 0) (.ofString "mobile")
    [.ofString "--relay-token", .ofString ""] 2 4 4 with ⟨e, hexit⟩ | ⟨l, r, hargs, hscan, hrun⟩
  · rw [hexit] at hscans
    cases hscans
  · rw [hscan] at hscans
    have hsettings : r.settings = plainSettings := Option.some.inj hscans
    refine ⟨l, r, hargs, hsettings, ?_⟩
    rw [hsettings] at hrun
    exact hrun _ _ _ _ _ _ hexec

end MobileBgb.Main
