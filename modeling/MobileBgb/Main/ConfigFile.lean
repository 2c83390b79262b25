/-
  MobileBgb.Main.ConfigFile — the configuration file is a byte array.

  `main` opens the file, or creates it, and fills it up with zeros to `MOBILE_CONFIG_SIZE`;
  after that libmobile reads and writes parts of it through `impl_config_read` and
  `impl_config_write`, which share one stream and its position.

  The array is given by its LAST WRITES: the byte at a place is the one the last write
  covering it left there, or what the file had at the start, or 0 where it was filled up
  (`byteAfter`).  `config_byteArray` says that the stream never shows anything else.
-/
import MobileBgb.System.File
import MobileBgb.Store.LastWrite

namespace MobileBgb.Main

open MobileBgb.System
open MobileBgb.Store

/-! ## §1. The functions. -/

/-- `(long)offset` of a `uintptr_t`. -/
def longOfUintptr (offset : UInt64) : Int :=
  if offset.toNat < 2 ^ 63 then offset.toNat else offset.toNat - 2 ^ 64

/-- `impl_config_read`: what it returns, the bytes stored at `dest`, and the stream. -/
def implConfigRead (config : File) (offset : UInt64) (size : Nat) :
    Option (Bool × List UInt8 × File) := do
  let config := fseekSet config (longOfUintptr offset)
  let (dest, config) ← fread config size
  return (dest.length = size, dest, config)

/-- `impl_config_write`: what it returns, and the stream. -/
def implConfigWrite (config : File) (offset : UInt64) (src : List UInt8) : Option (Bool × File) := do
  let config := fseekSet config (longOfUintptr offset)
  let (written, config) ← fwrite config src
  return (written = src.length, config)

/-- The loop that fills up the file, with `n` rounds to go. -/
def padConfig : Nat → File → Option File
  | 0, config => some config
  | n + 1, config => do
      let config ← fputc config 0
      padConfig n config

/-- "Open or create configuration" and "Make sure config file is at least CONFIG_SIZE bytes big". -/
def openConfig (configSize : Nat) (disk : Option (List UInt8)) : Option File := do
  let config := (fopenUpdate disk).getD fopenCreate
  let config := fseekEnd config
  let config ← padConfig (configSize - ftell config) config
  return rewind config

/-! ## §2. Sequences of calls. -/

/-- A call by libmobile. -/
inductive ConfigCall where
  | read (offset : UInt64) (size : Nat)
  | write (offset : UInt64) (src : List UInt8)
  deriving DecidableEq

/-- What a call gives back: its result, and the bytes a read stored. -/
structure ConfigResult where
  ok : Bool
  dest : List UInt8
  deriving DecidableEq

/-- One call. -/
def ConfigCall.run (config : File) : ConfigCall → Option (ConfigResult × File)
  | .read offset size => do
      let (ok, dest, config) ← implConfigRead config offset size
      return (⟨ok, dest⟩, config)
  | .write offset src => do
      let (ok, config) ← implConfigWrite config offset src
      return (⟨ok, []⟩, config)

/-- One call after the other. -/
def runCalls (config : File) : List ConfigCall → Option (List ConfigResult × File)
  | [] => some ([], config)
  | c :: cs => do
      let (r, config) ← c.run config
      let (rs, config) ← runCalls config cs
      return (r :: rs, config)

/-- The range of the call lies in the first `configSize` bytes. -/
def ConfigCall.InRange (configSize : Nat) : ConfigCall → Prop
  | .read offset size => offset.toNat + size ≤ configSize
  | .write offset src => offset.toNat + src.length ≤ configSize

/-! ## §3. The array. -/

/-- Does the call write the byte at `j`? -/
def ConfigCall.covers (j : Nat) : ConfigCall → Bool
  | .read _ _ => false
  | .write offset src => offset.toNat ≤ j ∧ j < offset.toNat + src.length

/-- The byte a write leaves at `j`. -/
def ConfigCall.byteAt (j : Nat) : ConfigCall → UInt8
  | .read _ _ => 0
  | .write offset src => src.getD (j - offset.toNat) 0

/-- The byte at `j` before any call: that of the file, 0 where it was filled up. -/
def byteBefore (disk : Option (List UInt8)) (j : Nat) : UInt8 := (disk.getD []).getD j 0

/-- The byte at `j` after these calls. -/
def byteAfter (disk : Option (List UInt8)) (calls : List ConfigCall) (j : Nat) : UInt8 :=
  (lastHit (ConfigCall.covers j) calls).elim (byteBefore disk j) (ConfigCall.byteAt j)

/-- What a call should give back after these calls. -/
def ConfigCall.answer (disk : Option (List UInt8)) (calls : List ConfigCall) :
    ConfigCall → ConfigResult
  | .read offset size => ⟨true, (List.range size).map fun i => byteAfter disk calls (offset.toNat + i)⟩
  | .write _ _ => ⟨true, []⟩

/-- The length of the file from start-up on. -/
def configLength (configSize : Nat) (disk : Option (List UInt8)) : Nat :=
  max (disk.getD []).length configSize

/-! ## §4. Start-up. -/

/-- Filling up at the end appends zeros. -/
theorem padConfig_eq (n : Nat) (config : File) (hpos : config.pos = config.content.length)
    (hmode : config.mode ≠ .reading) :
    ∃ config', padConfig n config = some config' ∧
      config'.content = config.content ++ List.replicate n 0 := by
  induction n generalizing config with
  | zero => exact ⟨config, rfl, by simp⟩
  | succ n ih =>
      have hput : fputc config 0 = some ⟨config.content ++ [0], config.pos + 1, .writing⟩ := by
        unfold fputc fwrite
        rw [if_neg (by simp), if_neg hmode, hpos, overwrite_end]
        rfl
      obtain ⟨config', hrun, hcontent⟩ := ih ⟨config.content ++ [0], config.pos + 1, .writing⟩
        (by simp [hpos]) (by simp)
      refine ⟨config', ?_, ?_⟩
      · unfold padConfig
        rw [hput]
        exact hrun
      · rw [hcontent, List.replicate_succ]
        simp

/-- **Start-up** leaves the bytes of the file, filled up with zeros. -/
theorem openConfig_eq (configSize : Nat) (disk : Option (List UInt8)) :
    ∃ config, openConfig configSize disk = some config ∧
      config.content = bytesOf (byteBefore disk) (configLength configSize disk) := by
  have hopen : ((fopenUpdate disk).getD fopenCreate).content = disk.getD [] := by
    cases disk with
    | none => rfl
    | some c => rfl
  obtain ⟨config, hpad, hcontent⟩ := padConfig_eq
    (configSize - ftell (fseekEnd ((fopenUpdate disk).getD fopenCreate)))
    (fseekEnd ((fopenUpdate disk).getD fopenCreate)) rfl (by simp [fseekEnd])
  refine ⟨rewind config, ?_, ?_⟩
  · unfold openConfig
    dsimp only
    rw [hpad]
    rfl
  · have hbytes : config.content =
        disk.getD [] ++ List.replicate (configSize - (disk.getD []).length) 0 := by
      rw [hcontent]
      simp only [fseekEnd, ftell, hopen]
    show config.content = _
    rw [hbytes]
    unfold configLength byteBefore
    apply bytesOf_of_getElem?
    · rw [List.length_append, List.length_replicate]
      omega
    · intro j hj
      by_cases hin : j < (disk.getD []).length
      · rw [List.getElem?_append_left hin, List.getD_eq_getElem _ _ hin, List.getElem?_eq_getElem hin]
      · rw [List.getElem?_append_right (by omega), List.getD_eq_default _ _ (by omega),
          List.getElem?_replicate_of_lt (by omega)]

/-! ## §5. One call. -/

/-- The position is set, whatever the stream did before. -/
theorem fseekSet_inRange (config : File) {offset : UInt64} (h : offset.toNat < 2 ^ 31) :
    fseekSet config (longOfUintptr offset) = { config with pos := offset.toNat, mode := .idle } := by
  have hlong : longOfUintptr offset = offset.toNat := by
    unfold longOfUintptr
    rw [if_pos (by omega)]
  unfold fseekSet
  rw [hlong, if_neg (by omega), Int.toNat_natCast]

/-- `impl_config_read` in range. -/
theorem implConfigRead_eq {config : File} {g : Nat → UInt8} {len : Nat} (offset : UInt64)
    (size : Nat) (hcontent : config.content = bytesOf g len) (hoffset : offset.toNat < 2 ^ 31)
    (h : offset.toNat + size ≤ len) :
    ∃ config', implConfigRead config offset size =
        some (true, bytesOf (fun i => g (offset.toNat + i)) size, config') ∧
      config'.content = bytesOf g len := by
  obtain ⟨config', hread, hcontent'⟩ := fread_inside
    (f := { config with pos := offset.toNat, mode := .idle }) size rfl hcontent h
  refine ⟨config', ?_, hcontent'⟩
  unfold implConfigRead
  rw [fseekSet_inRange config hoffset]
  dsimp only
  rw [hread]
  simp

/-- `impl_config_write` in range. -/
theorem implConfigWrite_eq {config : File} {g : Nat → UInt8} {len : Nat} (offset : UInt64)
    (src : List UInt8) (hcontent : config.content = bytesOf g len) (hoffset : offset.toNat < 2 ^ 31)
    (h : offset.toNat + src.length ≤ len) :
    ∃ config', implConfigWrite config offset src = some (true, config') ∧
      config'.content = bytesOf (fun j =>
        if offset.toNat ≤ j ∧ j < offset.toNat + src.length then src.getD (j - offset.toNat) 0
        else g j) len := by
  obtain ⟨config', hwrite, hcontent'⟩ := fwrite_inside
    (f := { config with pos := offset.toNat, mode := .idle }) src rfl hcontent h
  refine ⟨config', ?_, hcontent'⟩
  unfold implConfigWrite
  rw [fseekSet_inRange config hoffset]
  dsimp only
  rw [hwrite]
  simp

/-- What a call does to the array. -/
theorem byteAfter_snoc (disk : Option (List UInt8)) (calls : List ConfigCall) (c : ConfigCall)
    (j : Nat) : byteAfter disk (calls ++ [c]) j =
      if c.covers j then c.byteAt j else byteAfter disk calls j := by
  unfold byteAfter
  rw [lastHit_snoc]
  by_cases h : c.covers j = true
  · rw [if_pos h, if_pos h]
    rfl
  · rw [if_neg h, if_neg h]

/-- **One call in range**: the answer is that of the array, and the stream goes on holding the
    array. -/
theorem run_inRange {configSize len : Nat} (hsize : configSize < 2 ^ 31) (hlen : configSize ≤ len)
    {disk : Option (List UInt8)} {calls : List ConfigCall} {config : File}
    (hcontent : config.content = bytesOf (byteAfter disk calls) len) (c : ConfigCall)
    (hrange : c.InRange configSize) :
    ∃ config', c.run config = some (c.answer disk calls, config') ∧
      config'.content = bytesOf (byteAfter disk (calls ++ [c])) len := by
  cases c with
  | read offset size =>
      have hrange : offset.toNat + size ≤ configSize := hrange
      obtain ⟨config', hread, hcontent'⟩ :=
        implConfigRead_eq offset size hcontent (by omega) (by omega)
      have hkeep : byteAfter disk (calls ++ [.read offset size]) = byteAfter disk calls := by
        funext j
        rw [byteAfter_snoc]
        rfl
      refine ⟨config', ?_, by rw [hkeep, hcontent']⟩
      unfold ConfigCall.run
      dsimp only
      rw [hread]
      rfl
  | write offset src =>
      have hrange : offset.toNat + src.length ≤ configSize := hrange
      obtain ⟨config', hwrite, hcontent'⟩ :=
        implConfigWrite_eq offset src hcontent (by omega) (by omega)
      refine ⟨config', ?_, ?_⟩
      · unfold ConfigCall.run
        dsimp only
        rw [hwrite]
        rfl
      · rw [hcontent']
        congr 1
        funext j
        rw [byteAfter_snoc]
        simp [ConfigCall.covers, ConfigCall.byteAt]

/-! ## §6. Any sequence of calls. -/

/-- **Calls in range, one after the other**, after the calls `done`. -/
theorem runCalls_inRange {configSize len : Nat} (hsize : configSize < 2 ^ 31)
    (hlen : configSize ≤ len) {disk : Option (List UInt8)} {done : List ConfigCall} {config : File}
    (hcontent : config.content = bytesOf (byteAfter disk done) len) (calls : List ConfigCall)
    (hrange : ∀ c ∈ calls, c.InRange configSize) :
    ∃ results config', runCalls config calls = some (results, config') ∧
      results.length = calls.length ∧
      (∀ (k : Nat) (c : ConfigCall), calls[k]? = some c →
        results[k]? = some (c.answer disk (done ++ calls.take k))) ∧
      config'.content = bytesOf (byteAfter disk (done ++ calls)) len := by
  induction calls generalizing done config with
  | nil => exact ⟨[], config, rfl, rfl, by simp, by rw [List.append_nil, hcontent]⟩
  | cons c calls ih =>
      obtain ⟨config₁, hrun, hcontent₁⟩ :=
        run_inRange hsize hlen hcontent c (hrange c List.mem_cons_self)
      obtain ⟨results, config', hruns, hcount, hresults, hcontent'⟩ :=
        ih hcontent₁ fun x hx => hrange x (List.mem_cons_of_mem _ hx)
      refine ⟨c.answer disk done :: results, config', ?_, ?_, ?_, ?_⟩
      · unfold runCalls
        rw [hrun]
        show (do
          let (rs, config) ← runCalls config₁ calls
          return (c.answer disk done :: rs, config)) = _
        rw [hruns]
        rfl
      · rw [List.length_cons, List.length_cons, hcount]
      · intro k d hd
        cases k with
        | zero =>
            cases hd
            simp
        | succ k =>
            have hanswer := hresults k d hd
            rw [List.append_assoc] at hanswer
            exact hanswer
      · rw [hcontent', List.append_assoc]
        rfl

/-- **The configuration file behaves as a byte array.**  `MOBILE_CONFIG_SIZE` is an `int` constant;
    the file may be missing, or of any length.  Start-up succeeds and leaves `configLength` bytes.
    After that, any calls in range give the answers of the array, and leave the array in the
    file. -/
theorem config_byteArray (configSize : Fin (2 ^ 31)) (disk : Option (List UInt8)) :
    ∃ config₀, openConfig configSize disk = some config₀ ∧
      config₀.content.length = configLength configSize disk ∧
      (∀ j, j < configLength configSize disk → config₀.content[j]? = some (byteBefore disk j)) ∧
      ∀ calls : List ConfigCall, (∀ c ∈ calls, c.InRange configSize) →
        ∃ results config, runCalls config₀ calls = some (results, config) ∧
          results.length = calls.length ∧
          (∀ (k : Nat) (c : ConfigCall), calls[k]? = some c →
            results[k]? = some (c.answer disk (calls.take k))) ∧
          config.content.length = configLength configSize disk ∧
          ∀ j, j < configLength configSize disk →
            config.content[j]? = some (byteAfter disk calls j) := by
  obtain ⟨config₀, hopen, hcontent⟩ := openConfig_eq configSize disk
  refine ⟨config₀, hopen, by rw [hcontent, length_bytesOf], ?_, ?_⟩
  · intro j hj
    rw [hcontent, getElem?_bytesOf _ hj]
  · intro calls hrange
    have hlen : (configSize : Nat) ≤ configLength configSize disk := Nat.le_max_right _ _
    have hstart : config₀.content = bytesOf (byteAfter disk []) (configLength configSize disk) := hcontent
    obtain ⟨results, config, hruns, hcount, hresults, hcontent'⟩ :=
      runCalls_inRange configSize.isLt hlen hstart calls hrange
    refine ⟨results, config, hruns, hcount, hresults, by rw [hcontent', length_bytesOf], ?_⟩
    intro j hj
    rw [hcontent', getElem?_bytesOf _ hj]
    rfl

/-- A file of one byte: the read sees it, two bytes written, and one filled up. -/
theorem config_byteArray_sample :
    ∃ config₀ results config, openConfig 4 (some [7]) = some config₀ ∧
      runCalls config₀ [.write 1 [9, 9], .read 0 4] = some (results, config) ∧
      results[1]? = some ⟨true, [7, 9, 9, 0]⟩ ∧ config.content.length = 4 := by
  obtain ⟨config₀, hopen, -, -, hall⟩ := config_byteArray 4 (some [7])
  obtain ⟨results, config, hruns, -, hresults, hlength, -⟩ :=
    hall [.write 1 [9, 9], .read 0 4] (by
      intro c hc
      rcases List.mem_cons.mp hc with rfl | hc
      · exact (by decide : (1 : UInt64).toNat + 2 ≤ 4)
      · rcases List.mem_singleton.mp hc with rfl
        exact (by decide : (0 : UInt64).toNat + 4 ≤ 4))
  refine ⟨config₀, results, config, hopen, hruns, ?_, hlength⟩
  rw [hresults 1 (.read 0 4) rfl]
  decide

end MobileBgb.Main
