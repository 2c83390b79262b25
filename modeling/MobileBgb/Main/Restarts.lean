/-
  MobileBgb.Main.Restarts — the configuration file over many sessions.

  `MobileBgb.Main.ConfigFile` follows one stream.  The file is there for the time between:
  one session closes it, the next one opens it, measures it and fills it up again.
  `restarts_invisible` says that libmobile cannot tell: however its calls are cut into
  sessions, it gets the answers of one session that makes them all, and the same file is
  left.
-/
import MobileBgb.Main.ConfigFile

namespace MobileBgb.Main

open MobileBgb.System

/-! ## §1. Sessions. -/

/-- One run of the program on the file: the results of the calls, and the bytes `fclose` leaves on
    the disk. -/
def runSession (configSize : Nat) (disk : Option (List UInt8)) (calls : List ConfigCall) :
    Option (List ConfigResult × List UInt8) := do
  let config ← openConfig configSize disk
  let (results, config) ← runCalls config calls
  return (results, config.content)

/-- One session after the other, each on what the one before it left. -/
def runSessions (configSize : Nat) : Option (List UInt8) → List (List ConfigCall) →
    Option (List (List ConfigResult) × Option (List UInt8))
  | disk, [] => some ([], disk)
  | disk, calls :: sessions => do
      let (results, file) ← runSession configSize disk calls
      let (more, disk) ← runSessions configSize (some file) sessions
      return (results :: more, disk)

/-! ## §2. The file between two sessions. -/

/-- What the calls should give back, the first of them after `done`. -/
def answers (disk : Option (List UInt8)) : List ConfigCall → List ConfigCall → List ConfigResult
  | _, [] => []
  | done, call :: calls => call.answer disk done :: answers disk (done ++ [call]) calls

theorem length_answers (disk : Option (List UInt8)) (done calls : List ConfigCall) :
    (answers disk done calls).length = calls.length := by
  induction calls generalizing done with
  | nil => rfl
  | cons call calls ih =>
    show (answers disk (done ++ [call]) calls).length + 1 = calls.length + 1
    rw [ih]

theorem answers_append (disk : Option (List UInt8)) (done calls more : List ConfigCall) :
    answers disk done (calls ++ more)
      = answers disk done calls ++ answers disk (done ++ calls) more := by
  induction calls generalizing done with
  | nil =>
    rw [List.append_nil]
    rfl
  | cons call calls ih =>
    show call.answer disk done :: answers disk (done ++ [call]) (calls ++ more) = _
    rw [ih, List.append_assoc]
    rfl

theorem answers_getElem? (disk : Option (List UInt8)) (done calls : List ConfigCall) (k : Nat) :
    (answers disk done calls)[k]?
      = calls[k]?.map fun call => call.answer disk (done ++ calls.take k) := by
  induction calls generalizing done k with
  | nil => rfl
  | cons call calls ih =>
    cases k with
    | zero =>
      show some (call.answer disk done) = some (call.answer disk (done ++ []))
      rw [List.append_nil]
    | succ k =>
      show (answers disk (done ++ [call]) calls)[k]? = _
      rw [ih, List.append_assoc]
      rfl

/-- Opened again, a file that is long enough is what it was. -/
theorem openConfig_again {configSize len : Nat} (g : Nat → UInt8) (hlen : configSize ≤ len) :
    ∃ config, openConfig configSize (some (bytesOf g len)) = some config ∧
      config.content = bytesOf g len := by
  obtain ⟨config, hopen, hcontent⟩ := openConfig_eq configSize (some (bytesOf g len))
  have hlength : configLength configSize (some (bytesOf g len)) = len := by
    show max (bytesOf g len).length configSize = len
    rw [length_bytesOf]
    omega
  refine ⟨config, hopen, ?_⟩
  rw [hcontent, hlength]
  apply bytesOf_of_getElem? (length_bytesOf _ _)
  intro j hj
  rw [getElem?_bytesOf _ hj]
  show some ((bytesOf g len).getD j 0) = some (g j)
  rw [List.getD_eq_getElem?_getD, getElem?_bytesOf g hj]
  rfl

/-- **A session** on a file that the calls `done` have left. -/
theorem runSession_after {configSize len : Nat} (hsize : configSize < 2 ^ 31)
    (hlen : configSize ≤ len) {disk file : Option (List UInt8)} {done calls : List ConfigCall}
    (hopen : ∃ config, openConfig configSize file = some config ∧
      config.content = bytesOf (byteAfter disk done) len)
    (hrange : ∀ call ∈ calls, call.InRange configSize) :
    runSession configSize file calls
      = some (answers disk done calls, bytesOf (byteAfter disk (done ++ calls)) len) := by
  obtain ⟨config, hopen, hcontent⟩ := hopen
  obtain ⟨results, config', hruns, hcount, hresults, hcontent'⟩ :=
    runCalls_inRange hsize hlen hcontent calls hrange
  have hanswers : results = answers disk done calls := by
    apply List.ext_getElem?
    intro k
    rw [answers_getElem?]
    cases hcall : calls[k]? with
    | none =>
      have hk := List.getElem?_eq_none_iff.mp hcall
      exact List.getElem?_eq_none (by omega)
    | some call => exact hresults k call hcall
  unfold runSession
  rw [hopen]
  show (do
    let (results, config) ← runCalls config calls
    return (results, config.content)) = _
  rw [hruns, ← hcontent', ← hanswers]
  rfl

theorem runSessions_cons {configSize : Nat} {disk disk' : Option (List UInt8)} {file : List UInt8}
    {calls : List ConfigCall} {sessions : List (List ConfigCall)} {results : List ConfigResult}
    {more : List (List ConfigResult)} (h : runSession configSize disk calls = some (results, file))
    (hs : runSessions configSize (some file) sessions = some (more, disk')) :
    runSessions configSize disk (calls :: sessions) = some (results :: more, disk') := by
  unfold runSessions
  rw [h]
  show (do
    let (more, disk'') ← runSessions configSize (some file) sessions
    return (results :: more, disk'')) = _
  rw [hs]
  rfl

/-- The sessions after the first one. -/
theorem runSessions_after {configSize len : Nat} (hsize : configSize < 2 ^ 31)
    (hlen : configSize ≤ len) (disk : Option (List UInt8)) (done : List ConfigCall)
    {sessions : List (List ConfigCall)}
    (hrange : ∀ calls ∈ sessions, ∀ call ∈ calls, call.InRange configSize) :
    ∃ results, runSessions configSize (some (bytesOf (byteAfter disk done) len)) sessions
        = some (results, some (bytesOf (byteAfter disk (done ++ sessions.flatten)) len)) ∧
      results.flatten = answers disk done sessions.flatten ∧
      results.map List.length = sessions.map List.length := by
  -- induction on the sessions; what was done before them grows by one session at a time
  induction sessions generalizing done with
  | nil => exact ⟨[], by rw [List.flatten_nil, List.append_nil]; rfl, rfl, rfl⟩
  | cons calls sessions ih =>
    have hsession := runSession_after hsize hlen (openConfig_again (byteAfter disk done) hlen)
      (hrange calls List.mem_cons_self)
    obtain ⟨results, hruns, hflat, hlengths⟩ :=
      ih (done ++ calls) fun calls' h => hrange calls' (List.mem_cons_of_mem _ h)
    refine ⟨answers disk done calls :: results, ?_, ?_, ?_⟩
    · rw [List.flatten_cons, ← List.append_assoc]
      exact runSessions_cons hsession hruns
    · rw [List.flatten_cons, List.flatten_cons, hflat, answers_append]
    · rw [List.map_cons, List.map_cons, hlengths, length_answers]

/-! ## §3. Restarts. -/

/-- **Restarts are invisible.**  Without I/O errors, and whatever file there was, or none: calls in
    range, cut into sessions anywhere, give back in each session what they give back in one session
    that makes them all, and leave the same file.  Its length is fixed by the first session. -/
theorem restarts_invisible (configSize : Fin (2 ^ 31)) (disk : Option (List UInt8))
    (calls : List ConfigCall) (sessions : List (List ConfigCall))
    (hrange : ∀ calls' ∈ calls :: sessions, ∀ call ∈ calls', call.InRange configSize) :
    ∃ results file, runSessions configSize disk (calls :: sessions) = some (results, some file) ∧
      runSession configSize disk (calls :: sessions).flatten = some (results.flatten, file) ∧
      results.map List.length = (calls :: sessions).map List.length ∧
      file.length = configLength configSize disk := by
  have hlen : (configSize : Nat) ≤ configLength configSize disk := Nat.le_max_right _ _
  -- the first session finds the file as it was on the disk
  have hopen : ∃ config, openConfig configSize disk = some config ∧
      config.content = bytesOf (byteAfter disk []) (configLength configSize disk) :=
    openConfig_eq configSize disk
  have hfirst := runSession_after configSize.isLt hlen hopen (hrange calls List.mem_cons_self)
  obtain ⟨results, hruns, hflat, hlengths⟩ :=
    runSessions_after configSize.isLt hlen disk ([] ++ calls) fun calls' h =>
      hrange calls' (List.mem_cons_of_mem _ h)
  have hflatten : ∀ call ∈ (calls :: sessions).flatten, call.InRange configSize := by
    intro call hcall
    obtain ⟨calls', hcalls', hmem⟩ := List.mem_flatten.mp hcall
    exact hrange calls' hcalls' call hmem
  have hall := runSession_after configSize.isLt hlen hopen hflatten
  refine ⟨answers disk [] calls :: results,
    bytesOf (byteAfter disk ([] ++ (calls :: sessions).flatten)) (configLength configSize disk),
    ?_, ?_, ?_, length_bytesOf _ _⟩
  · exact runSessions_cons hfirst hruns
  · rw [hall, List.flatten_cons, List.flatten_cons, hflat, answers_append]
  · rw [List.map_cons, List.map_cons, hlengths, length_answers]

/-- A missing file of size 3: the second session reads what the first one wrote, between zeros. -/
theorem restarts_invisible_twoSessions :
    ∃ results file, runSessions 3 none [[.write 1 [9]], [.read 0 3]] = some (results, some file) ∧
      runSession 3 none [.write 1 [9], .read 0 3] = some (results.flatten, file) ∧
      results[1]? = some [⟨true, [0, 9, 0]⟩] := by
  obtain ⟨results, file, hruns, hone, _, _⟩ :=
    restarts_invisible 3 none [.write 1 [9]] [[.read 0 3]] (by
      intro calls hcalls call hcall
      rcases List.mem_cons.mp hcalls with rfl | hcalls
      · rcases List.mem_singleton.mp hcall with rfl
        exact (by decide : (1 : UInt64).toNat + 1 ≤ 3)
      · rcases List.mem_singleton.mp hcalls with rfl
        rcases List.mem_singleton.mp hcall with rfl
        exact (by decide : (0 : UInt64).toNat + 3 ≤ 3))
  have hrun : runSessions 3 none [[.write 1 [9]], [.read 0 3]]
      = some ([[⟨true, []⟩], [⟨true, [0, 9, 0]⟩]], some [0, 9, 0]) := by decide
  have hsame := hruns.symm.trans hrun
  injection hsame with hsame
  injection hsame with hresults _
  refine ⟨results, file, hruns, hone, ?_⟩
  rw [hresults]
  rfl

end MobileBgb.Main
