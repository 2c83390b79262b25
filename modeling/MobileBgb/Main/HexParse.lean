/-
  MobileBgb.Main.HexParse — `main_parse_hex`, access by access.

  `Main.Options` has `main_parse_hex` as a function of the string and the buffer.  Here
  every read of `str` and every write to `buf` is a REQUEST, so that a run shows which
  characters were looked at and which bytes were written; `i` and `size` are 32-bit
  numbers, and a character is what `char` makes of it, signed or not.

  At the head of the loop: the characters before `i` are digits and have been read once
  each, in order; the bytes before `i / 2` have been written; `x` is the digit that waits
  for its second half (`Reached`).  `mainParseHex_exact` reads everything off where the loop
  ends, and `parseHex_refines` takes it back to the function of `Main.Options`.
-/
import MobileBgb.Main.OptionScan

namespace MobileBgb.Main

open MobileBgb.Effect
open MobileBgb.System

/-! ## §1. The function. -/

/-- Whether `char` is signed: that is up to the compiler. -/
inductive CharSign where
  | signed
  | unsigned
  deriving DecidableEq

/-- A byte of a string as a `char`. -/
def charOf (sign : CharSign) (b : UInt8) : Int :=
  match sign with
  | .signed => if b.toNat < 128 then b.toNat else b.toNat - 256
  | .unsigned => b.toNat

/-- The value of a `char` as a hexadecimal digit, as the chain of tests has it. -/
def hexValueOf (c : Int) : Option Int :=
  if 0x30 ≤ c ∧ c ≤ 0x39 then some (c - 0x30)
  else if 0x41 ≤ c ∧ c ≤ 0x46 then some (c - (0x41 - 10))
  else if 0x61 ≤ c ∧ c ≤ 0x66 then some (c - (0x61 - 10))
  else none

/-- The accesses of `main_parse_hex` to memory. -/
inductive HexOp where
  /-- Read `str[i]`. -/
  | str (i : UInt32)
  /-- `buf[i] = x` -/
  | buf (i : UInt32) (x : UInt8)

/-- What an access gives back. -/
@[reducible] def HexOp.Ans : HexOp → Type
  | .str _ => UInt8
  | .buf _ _ => Unit

@[reducible] def HexMem : Signature := ⟨HexOp, HexOp.Ans⟩

/-- One turn of the loop of `main_parse_hex`, its test first; the state is `i` and `x`. -/
def parseHexBody (sign : CharSign) (size : UInt32) (s : UInt32 × UInt8) :
    Prog HexMem (Flow (UInt32 × UInt8) Bool) :=
  let (i, x) := s
  if i < size * 2 then do
    let b ← Prog.ask (S := HexMem) (.str i)
    match hexValueOf (charOf sign b) with
    | none => return .done false
    | some c =>
        let x := x <<< 4
        let x := x ||| UInt8.ofInt c
        if i % 2 = 1 then do
          Prog.ask (S := HexMem) (.buf (i / 2) x)
          return .go (i + 1, 0)
        else return .go (i + 1, x)
  else return .done true

/-- `main_parse_hex`.  One turn for each digit, and the last test. -/
def mainParseHexMem (sign : CharSign) (size : UInt32) :
    Prog HexMem (Flow (UInt32 × UInt8) Bool) :=
  loop (parseHexBody sign size) (2 * size.toNat + 1) (0, 0)

/-- The memory it runs in: the string up to its NUL, and whatever follows it; and the buffer with
    whatever lies behind it. -/
def hexEnv (str : CStr) : Env HexMem (Nat → UInt8) := fun buf op ans buf' =>
  match op, ans with
  | .str i, b => buf' = buf ∧ (i.toNat ≤ str.bytes.length → b = str.charAt i.toNat)
  | .buf i x, _ => buf' = Function.update buf i.toNat x

/-- The index an access reads. -/
def readOf : Event HexMem → Option Nat
  | ⟨.str i, _⟩ => some i.toNat
  | ⟨.buf _ _, _⟩ => none

/-- The index an access writes, and the byte. -/
def writeOf : Event HexMem → Option (Nat × UInt8)
  | ⟨.str _, _⟩ => none
  | ⟨.buf i x, _⟩ => some (i.toNat, x)

/-- The indices read, in order. -/
def reads (t : Trace HexMem) : List Nat := t.filterMap readOf

/-- The indices written with the bytes, in order. -/
def writes (t : Trace HexMem) : List (Nat × UInt8) := t.filterMap writeOf

/-! ## §2. Hexadecimal digits. -/

/-- The digits, by their value. -/
def hexChars : List UInt8 := (CStr.ofString "0123456789abcdef").bytes

/-- `tolower` -/
def toLower (c : UInt8) : UInt8 := if 0x41 ≤ c ∧ c ≤ 0x5A then c + 0x20 else c

/-- A hexadecimal digit of either case. -/
def isHexDigit (c : UInt8) : Bool := toLower c ∈ hexChars

/-- The value of a digit. -/
def hexValue (c : UInt8) : Nat := hexChars.idxOf (toLower c)

/-- A byte printed with `%02x`. -/
def printByte (b : UInt8) : List UInt8 :=
  [hexChars.getD (b >>> 4).toNat 0, hexChars.getD (b &&& 0xF).toNat 0]

/-- Bytes printed one after the other. -/
def printHex (bs : List UInt8) : List UInt8 := bs.flatMap printByte

/-- What holds of every number below 256 holds of every byte. -/
theorem forall_byte {P : UInt8 → Prop} (h : ∀ n : Fin 256, P (UInt8.ofNat n)) (b : UInt8) : P b := by
  have hb := h ⟨b.toNat, b.toNat_lt⟩
  rwa [UInt8.ofNat_toNat] at hb

/-- The tests find the digits and their values, whether `char` is signed or not. -/
theorem hexValueOf_charOf (sign : CharSign) (b : UInt8) :
    (hexValueOf (charOf sign b)).map UInt8.ofInt =
      if isHexDigit b then some (UInt8.ofNat (hexValue b)) else none := by
  apply forall_byte (P := fun b => (hexValueOf (charOf sign b)).map UInt8.ofInt =
    if isHexDigit b then some (UInt8.ofNat (hexValue b)) else none)
  cases sign with
  | signed => decide +kernel
  | unsigned => decide +kernel

/-- What the tests come to on a byte. -/
theorem hexValueOf_cases (sign : CharSign) (b : UInt8) :
    (isHexDigit b = false ∧ hexValueOf (charOf sign b) = none) ∨
      (isHexDigit b = true ∧ ∃ c, hexValueOf (charOf sign b) = some c ∧
        UInt8.ofInt c = UInt8.ofNat (hexValue b)) := by
  have hvalue := hexValueOf_charOf sign b
  cases hhex : isHexDigit b with
  | false =>
      rw [hhex] at hvalue
      exact Or.inl ⟨rfl, Option.map_eq_none_iff.mp hvalue⟩
  | true =>
      rw [hhex] at hvalue
      obtain ⟨c, hc, hofInt⟩ := Option.map_eq_some_iff.mp hvalue
      exact Or.inr ⟨rfl, c, hc, hofInt⟩

/-- And so do those of `Main.Options`. -/
theorem hexDigit_eq (b : UInt8) :
    hexDigit b = if isHexDigit b then some (UInt8.ofNat (hexValue b)) else none := by
  apply forall_byte (P := fun b =>
    hexDigit b = if isHexDigit b then some (UInt8.ofNat (hexValue b)) else none)
  decide +kernel

/-- A digit is the character printed for its value, up to its case. -/
theorem getD_hexValue {c : UInt8} (h : isHexDigit c = true) :
    hexChars.getD (hexValue c) 0 = toLower c := by
  have hmem : toLower c ∈ hexChars := of_decide_eq_true h
  unfold hexValue
  rw [List.getD_eq_getElem _ _ (List.idxOf_lt_length_of_mem hmem)]
  exact List.getElem_idxOf _

theorem hexValue_lt {c : UInt8} (h : isHexDigit c = true) : hexValue c < 16 := by
  have hmem : toLower c ∈ hexChars := of_decide_eq_true h
  have hlen : hexChars.length = 16 := by decide
  rw [← hlen]
  exact List.idxOf_lt_length_of_mem hmem

/-! ## §3. One turn. -/

variable {sign : CharSign} {size : UInt32} {str : CStr} {buf₀ buf buf' : Nat → UInt8}
  {t : Trace HexMem}

/-- The number of digits does not wrap. -/
theorem toNat_digits (hsize : 2 * size.toNat < 2 ^ 32) : (size * 2).toNat = 2 * size.toNat := by
  rw [UInt32.toNat_mul]
  show size.toNat * 2 % 2 ^ 32 = _
  omega

/-- Neither does the index. -/
theorem toNat_succ (hsize : 2 * size.toNat < 2 ^ 32) {i : UInt32} (hi : i.toNat < 2 * size.toNat) :
    (i + 1).toNat = i.toNat + 1 := by
  rw [UInt32.toNat_add]
  show (i.toNat + 1) % 2 ^ 32 = _
  omega

theorem toNat_half (i : UInt32) : (i / 2).toNat = i.toNat / 2 := by
  rw [UInt32.toNat_div]
  rfl

/-- The byte at `x` with the digit `b` after it. -/
def pushDigit (x b : UInt8) : UInt8 := x <<< 4 ||| UInt8.ofNat (hexValue b)

/-- A turn that reads the digit `b`: it writes the byte at odd `i`, and keeps it at even `i`. -/
def TakesDigit (i : UInt32) (x b : UInt8) (buf : Nat → UInt8) (t : Trace HexMem)
    (fl : Flow (UInt32 × UInt8) Bool) (buf' : Nat → UInt8) : Prop :=
  if i.toNat % 2 = 1 then
    t = [⟨.str i, b⟩, ⟨.buf (i / 2) (pushDigit x b), ()⟩] ∧ fl = .go (i + 1, 0) ∧
      buf' = Function.update buf (i.toNat / 2) (pushDigit x b)
  else t = [⟨.str i, b⟩] ∧ fl = .go (i + 1, pushDigit x b) ∧ buf' = buf

/-- The rest of a turn that has read a digit. -/
theorem takesDigit_of_exec {i : UInt32} {x b : UInt8} {fl : Flow (UInt32 × UInt8) Bool}
    (h : Exec (hexEnv str)
      (if i % 2 = 1 then do
        Prog.ask (S := HexMem) (.buf (i / 2) (pushDigit x b))
        return .go (i + 1, 0)
      else return .go (i + 1, pushDigit x b)) buf t fl buf') :
    TakesDigit i x b buf (⟨.str i, b⟩ :: t) fl buf' := by
  have hmod : i % 2 = 1 ↔ i.toNat % 2 = 1 := by
    rw [← UInt32.toNat_inj, UInt32.toNat_mod]
    rfl
  unfold TakesDigit
  by_cases hodd : i.toNat % 2 = 1
  · rw [if_pos (hmod.mpr hodd), exec_ask_bind] at h
    obtain ⟨u, buf₁, t₁, hbuf₁, ht, h⟩ := h
    obtain ⟨ht₁, hfl, hbuf'⟩ := (exec_pure _).mp h
    have hbuf₁ : buf₁ = Function.update buf (i / 2).toNat (pushDigit x b) := hbuf₁
    rw [toNat_half] at hbuf₁
    subst ht ht₁
    rw [if_pos hodd]
    exact ⟨rfl, hfl, hbuf'.trans hbuf₁⟩
  · rw [if_neg (fun h => hodd (hmod.mp h))] at h
    obtain ⟨ht, hfl, hbuf'⟩ := (exec_pure _).mp h
    subst ht
    rw [if_neg hodd]
    exact ⟨rfl, hfl, hbuf'⟩

/-- **What one turn can do**: leave at the end of the digits wanted, leave at a character that is
    no digit, or take a digit. -/
theorem parseHexBody_cases (hsize : 2 * size.toNat < 2 ^ 32) {i : UInt32} {x : UInt8}
    {fl : Flow (UInt32 × UInt8) Bool}
    (h : Exec (hexEnv str) (parseHexBody sign size (i, x)) buf t fl buf') :
    (2 * size.toNat ≤ i.toNat ∧ t = [] ∧ fl = .done true ∧ buf' = buf) ∨
    (i.toNat < 2 * size.toNat ∧ ∃ b, (i.toNat ≤ str.bytes.length → b = str.charAt i.toNat) ∧
      ((isHexDigit b = false ∧ t = [⟨.str i, b⟩] ∧ fl = .done false ∧ buf' = buf) ∨
        (isHexDigit b = true ∧ TakesDigit i x b buf t fl buf'))) := by
  have htwo := toNat_digits hsize
  unfold parseHexBody at h
  dsimp only at h
  by_cases hlt : i < size * 2
  · have hin : i.toNat < 2 * size.toNat := by
      rw [← htwo]
      exact UInt32.lt_iff_toNat_lt.mp hlt
    rw [if_pos hlt, exec_ask_bind] at h
    obtain ⟨b, buf₁, t₁, ⟨hbuf₁, hb⟩, ht, h⟩ := h
    subst hbuf₁ ht
    refine Or.inr ⟨hin, b, hb, ?_⟩
    rcases hexValueOf_cases sign b with ⟨hno, hnone⟩ | ⟨hdigit, c, hsome, hc⟩
    · rw [hnone] at h
      obtain ⟨ht₁, hfl, hbuf'⟩ := (exec_pure _).mp h
      subst ht₁
      exact Or.inl ⟨hno, rfl, hfl, hbuf'⟩
    · rw [hsome] at h
      dsimp only at h
      rw [hc] at h
      exact Or.inr ⟨hdigit, takesDigit_of_exec h⟩
  · rw [if_neg hlt] at h
    obtain ⟨ht, hfl, hbuf'⟩ := (exec_pure _).mp h
    refine Or.inl ⟨?_, ht, hfl, hbuf'⟩
    rw [← htwo]
    exact Nat.le_of_not_lt (fun hnat => hlt (UInt32.lt_iff_toNat_lt.mpr hnat))

/-! ## §4. The loop. -/

/-- The byte that the digits at `2 * j` and `2 * j + 1` spell. -/
def byteOf (str : CStr) (j : Nat) : UInt8 :=
  pushDigit (pushDigit 0 (str.charAt (2 * j))) (str.charAt (2 * j + 1))

/-- How far the loop has come: `k` digits are taken, `n` characters were read, and a byte was
    written for each two digits. -/
structure Reached (str : CStr) (buf₀ : Nat → UInt8) (k n : Nat) (t : Trace HexMem)
    (buf : Nat → UInt8) : Prop where
  digits : ∀ j, j < k → isHexDigit (str.charAt j) = true
  reads : reads t = List.range n
  writes : writes t = (List.range (k / 2)).map fun j => (j, byteOf str j)
  buf : ∀ j, buf j = if j < k / 2 then byteOf str j else buf₀ j

/-- `x` at the head of the loop: the digit before an odd `i`. -/
def pendingDigit (str : CStr) (i : Nat) : UInt8 :=
  if i % 2 = 1 then pushDigit 0 (str.charAt (i - 1)) else 0

/-- The invariant, and what it gives at either end of the loop. -/
def ParseInv (str : CStr) (size : UInt32) (buf₀ : Nat → UInt8) (fl : Flow (UInt32 × UInt8) Bool)
    (buf : Nat → UInt8) (t : Trace HexMem) : Prop :=
  match fl with
  | .go (i, x) =>
      i.toNat ≤ 2 * size.toNat ∧ x = pendingDigit str i.toNat ∧
        Reached str buf₀ i.toNat i.toNat t buf
  | .done true => Reached str buf₀ (2 * size.toNat) (2 * size.toNat) t buf
  | .done false =>
      ∃ k, k < 2 * size.toNat ∧ isHexDigit (str.charAt k) = false ∧
        Reached str buf₀ k (k + 1) t buf

/-- The NUL is no digit: where all characters before `k` are digits, `k` is not past the NUL. -/
theorem le_length_of_digits {k : Nat} (h : ∀ j, j < k → isHexDigit (str.charAt j) = true) :
    k ≤ str.bytes.length := by
  by_contra hlt
  have hnul : str.charAt str.bytes.length = 0 := (CStr.charAt_eq_zero (Nat.le_refl _)).mpr rfl
  have hdigit := h str.bytes.length (by omega)
  rw [hnul] at hdigit
  exact absurd hdigit (by decide)

theorem reads_append (t₁ t₂ : Trace HexMem) : reads (t₁ ++ t₂) = reads t₁ ++ reads t₂ :=
  List.filterMap_append

theorem writes_append (t₁ t₂ : Trace HexMem) : writes (t₁ ++ t₂) = writes t₁ ++ writes t₂ :=
  List.filterMap_append

/-- A character that was read and is no digit. -/
theorem Reached.stop {i : UInt32} {b : UInt8} (h : Reached str buf₀ i.toNat i.toNat t buf) :
    Reached str buf₀ i.toNat (i.toNat + 1) (t ++ [⟨.str i, b⟩]) buf where
  digits := h.digits
  reads := by
    rw [reads_append, h.reads, List.range_succ]
    rfl
  writes := by
    rw [writes_append, h.writes]
    exact List.append_nil _
  buf := h.buf

/-- A digit at even `i`: nothing is written, the digit waits. -/
theorem Reached.even {i : UInt32} (h : Reached str buf₀ i.toNat i.toNat t buf)
    (hdigit : isHexDigit (str.charAt i.toNat) = true) (heven : ¬ i.toNat % 2 = 1) :
    Reached str buf₀ (i.toNat + 1) (i.toNat + 1) (t ++ [⟨.str i, str.charAt i.toNat⟩]) buf := by
  have hhalf : (i.toNat + 1) / 2 = i.toNat / 2 := by omega
  obtain ⟨hdigits, hreads, hwrites, hbuf⟩ := h.stop (b := str.charAt i.toNat)
  refine ⟨?_, hreads, by rw [hhalf]; exact hwrites, by rw [hhalf]; exact hbuf⟩
  intro j hj
  rcases Nat.lt_succ_iff_lt_or_eq.mp hj with hj | rfl
  · exact hdigits j hj
  · exact hdigit

/-- A digit at odd `i`: the byte is complete and written. -/
theorem Reached.odd {i : UInt32} (h : Reached str buf₀ i.toNat i.toNat t buf)
    (hdigit : isHexDigit (str.charAt i.toNat) = true) (hodd : i.toNat % 2 = 1) :
    Reached str buf₀ (i.toNat + 1) (i.toNat + 1)
      (t ++ [⟨.str i, str.charAt i.toNat⟩, ⟨.buf (i / 2) (byteOf str (i.toNat / 2)), ()⟩])
      (Function.update buf (i.toNat / 2) (byteOf str (i.toNat / 2))) := by
  have hhalf : (i.toNat + 1) / 2 = i.toNat / 2 + 1 := by omega
  constructor
  · intro j hj
    rcases Nat.lt_succ_iff_lt_or_eq.mp hj with hj | rfl
    · exact h.digits j hj
    · exact hdigit
  · rw [reads_append, h.reads, List.range_succ]
    rfl
  · rw [writes_append, h.writes, hhalf, List.range_succ, List.map_append]
    show _ ++ [((i / 2).toNat, byteOf str (i.toNat / 2))] = _
    rw [toNat_half]
    rfl
  · intro j
    rw [hhalf]
    by_cases hj : j = i.toNat / 2
    · subst hj
      rw [Function.update_self, if_pos (Nat.lt_succ_self _)]
    · rw [Function.update_of_ne hj, h.buf j]
      by_cases hlt : j < i.toNat / 2
      · rw [if_pos hlt, if_pos (by omega)]
      · rw [if_neg hlt, if_neg (by omega)]

/-- **One turn keeps the invariant.** -/
theorem parseInv_step (hsize : 2 * size.toNat < 2 ^ 32) {s : UInt32 × UInt8}
    {t₀ : Trace HexMem} {fl : Flow (UInt32 × UInt8) Bool}
    (hinv : ParseInv str size buf₀ (.go s) buf t₀)
    (h : Exec (hexEnv str) (parseHexBody sign size s) buf t fl buf') :
    ParseInv str size buf₀ fl buf' (t₀ ++ t) := by
  obtain ⟨i, x⟩ := s
  obtain ⟨hi, hx, hreached⟩ := hinv
  rcases parseHexBody_cases hsize h with ⟨hend, ht, hfl, hbuf⟩
    | ⟨hin, b, hb, ⟨hno, ht, hfl, hbuf⟩ | ⟨hdigit, htakes⟩⟩
  · -- all digits are taken
    subst ht hfl hbuf
    have hall : i.toNat = 2 * size.toNat := by omega
    rw [List.append_nil]
    show Reached str buf₀ (2 * size.toNat) (2 * size.toNat) t₀ buf'
    rw [← hall]
    exact hreached
  · -- a character that is no digit
    rw [hb (le_length_of_digits hreached.digits)] at hno
    subst ht hfl hbuf
    exact ⟨i.toNat, hin, hno, hreached.stop⟩
  · have hnext := toNat_succ hsize hin
    have hb := hb (le_length_of_digits hreached.digits)
    subst hb
    unfold TakesDigit at htakes
    by_cases hodd : i.toNat % 2 = 1
    · have hbyte : pushDigit x (str.charAt i.toNat) = byteOf str (i.toNat / 2) := by
        have hlow : 2 * (i.toNat / 2) + 1 = i.toNat := by omega
        have hhigh : 2 * (i.toNat / 2) = i.toNat - 1 := by omega
        unfold byteOf
        rw [hx, pendingDigit, if_pos hodd, hlow, hhigh]
      rw [if_pos hodd, hbyte] at htakes
      obtain ⟨ht, hfl, hbuf⟩ := htakes
      subst ht hfl hbuf
      refine ⟨by omega, ?_, ?_⟩
      · rw [hnext, pendingDigit, if_neg (by omega)]
      · rw [hnext]
        exact hreached.odd hdigit hodd
    · have hzero : x = 0 := by rw [hx, pendingDigit, if_neg hodd]
      rw [if_neg hodd, hzero] at htakes
      obtain ⟨ht, hfl, hbuf⟩ := htakes
      subst ht hfl hbuf
      refine ⟨by omega, ?_, ?_⟩
      · rw [hnext, pendingDigit, if_pos (by omega), Nat.add_sub_cancel]
      · rw [hnext]
        exact hreached.even hdigit hodd

theorem parseInv_init : ParseInv str size buf₀ (.go (0, 0)) buf₀ [] := by
  refine ⟨Nat.zero_le _, rfl, ?_, rfl, rfl, ?_⟩
  · intro j hj
    exact absurd hj (Nat.not_lt_zero j)
  · intro j
    exact (if_neg (Nat.not_lt_zero j)).symm

/-- **The whole loop** keeps the invariant. -/
theorem exec_mainParseHexMem (hsize : 2 * size.toNat < 2 ^ 32) {fl : Flow (UInt32 × UInt8) Bool}
    (h : Exec (hexEnv str) (mainParseHexMem sign size) buf₀ t fl buf) :
    ParseInv str size buf₀ fl buf t := by
  obtain ⟨rs, hrs, ht⟩ := exec_loop h
  rw [ht, ← List.nil_append (traceOf rs)]
  refine Rounds.invariant (I := ParseInv str size buf₀) ?_ [] parseInv_init hrs
  intro s buf t₀ t fl buf' hinv hx
  exact parseInv_step hsize hinv hx

/-- The rounds allowed are enough: each takes a digit or is the last. -/
theorem loop_parseHexBody_ends (hsize : 2 * size.toNat < 2 ^ 32) {n : Nat} {i : UInt32} {x : UInt8}
    {fl : Flow (UInt32 × UInt8) Bool} (hi : i.toNat ≤ 2 * size.toNat)
    (hn : 2 * size.toNat < i.toNat + n)
    (h : Exec (hexEnv str) (loop (parseHexBody sign size) n (i, x)) buf t fl buf') :
    ∃ ok, fl = .done ok := by
  induction n generalizing i x buf t with
  | zero => omega
  | succ n ih =>
      rw [loop, exec_bind] at h
      obtain ⟨t₁, fl₁, buf₁, t₂, hbody, h, _⟩ := h
      cases fl₁ with
      | done ok => exact ⟨ok, ((exec_pure _).mp h).2.1⟩
      | go s =>
          rcases parseHexBody_cases hsize hbody with ⟨_, _, hfl, _⟩
            | ⟨hin, b, _, ⟨_, _, hfl, _⟩ | ⟨_, htakes⟩⟩
          · cases hfl
          · cases hfl
          · have hnext := toNat_succ hsize hin
            have hs : s.1 = i + 1 := by
              unfold TakesDigit at htakes
              split_ifs at htakes
              · obtain ⟨_, hfl, _⟩ := htakes
                cases hfl
                rfl
              · obtain ⟨_, hfl, _⟩ := htakes
                cases hfl
                rfl
            obtain ⟨i', x'⟩ := s
            have hs : i' = i + 1 := hs
            subst hs
            exact ih (by omega) (by omega) h

/-- The memory answers: the string is read, the buffer is written. -/
def hexServe (str : CStr) (buf : Nat → UInt8) : (op : HexOp) → op.Ans × (Nat → UInt8)
  | .str i => (str.charAt i.toNat, buf)
  | .buf i x => ((), Function.update buf i.toNat x)

theorem hexEnv_hexServe (str : CStr) (buf : Nat → UInt8) (op : HexOp) :
    hexEnv str buf op (hexServe str buf op).1 (hexServe str buf op).2 := by
  cases op with
  | str i => exact ⟨rfl, fun _ => rfl⟩
  | buf i x => rfl

/-! ## §5. What is written. -/

/-- The two halves of a byte made of two digits. -/
theorem byteOf_halves {j : Nat} (hhigh : isHexDigit (str.charAt (2 * j)) = true)
    (hlow : isHexDigit (str.charAt (2 * j + 1)) = true) :
    (byteOf str j >>> 4).toNat = hexValue (str.charAt (2 * j)) ∧
      (byteOf str j &&& 0xF).toNat = hexValue (str.charAt (2 * j + 1)) := by
  have hall : ∀ a, a < 16 → ∀ b, b < 16 →
      (((0 : UInt8) <<< 4 ||| UInt8.ofNat a) <<< 4 ||| UInt8.ofNat b) >>> 4 = UInt8.ofNat a ∧
        (((0 : UInt8) <<< 4 ||| UInt8.ofNat a) <<< 4 ||| UInt8.ofNat b) &&& 0xF = UInt8.ofNat b := by
    decide +kernel
  have ha := hexValue_lt hhigh
  have hb := hexValue_lt hlow
  obtain ⟨hshift, hmask⟩ := hall _ ha _ hb
  unfold byteOf pushDigit
  rw [hshift, hmask, UInt8.toNat_ofNat', UInt8.toNat_ofNat']
  omega

/-- The bytes of the digits, printed, are the digits in lower case. -/
theorem printHex_byteOf {n : Nat} (h : ∀ j, j < 2 * n → isHexDigit (str.charAt j) = true) :
    printHex ((List.range n).map (byteOf str)) =
      ((List.range (2 * n)).map str.charAt).map toLower := by
  induction n with
  | zero => rfl
  | succ n ih =>
      have hhigh := h (2 * n) (by omega)
      have hlow := h (2 * n + 1) (by omega)
      obtain ⟨hshift, hmask⟩ := byteOf_halves hhigh hlow
      have hbyte : printByte (byteOf str n) =
          [toLower (str.charAt (2 * n)), toLower (str.charAt (2 * n + 1))] := by
        unfold printByte
        rw [hshift, hmask, getD_hexValue hhigh, getD_hexValue hlow]
      have htwo : 2 * (n + 1) = 2 * n + 1 + 1 := by omega
      have hprev := ih fun j hj => h j (by omega)
      unfold printHex at hprev ⊢
      rw [List.range_succ, List.map_append, List.flatMap_append, hprev, htwo, List.range_succ,
        List.range_succ, List.map_append, List.map_append, List.map_append, List.map_append,
        List.append_assoc]
      simp [hbyte]

/-- The first `n` characters of a string that has as many. -/
theorem take_eq_charAt {n : Nat} (h : n ≤ str.bytes.length) :
    str.bytes.take n = (List.range n).map str.charAt := by
  apply List.ext_getElem
  · simp [h]
  · intro j hj hj'
    have hlt : j < str.bytes.length := by
      rw [List.length_take] at hj
      omega
    simp [CStr.charAt, hlt]

/-- The first `n` characters are digits. -/
theorem digits_iff {n : Nat} :
    (∀ j, j < n → isHexDigit (str.charAt j) = true) ↔
      n ≤ str.bytes.length ∧ ∀ c ∈ str.bytes.take n, isHexDigit c = true := by
  constructor
  · intro h
    have hle := le_length_of_digits h
    refine ⟨hle, ?_⟩
    intro c hc
    rw [take_eq_charAt hle] at hc
    obtain ⟨j, hj, rfl⟩ := List.mem_map.mp hc
    exact h j (List.mem_range.mp hj)
  · rintro ⟨hle, h⟩ j hj
    apply h
    rw [take_eq_charAt hle]
    exact List.mem_map_of_mem (List.mem_range.mpr hj)

/-! ## §6. The function of `Main.Options`. -/

/-- The memory at the buffer holds these bytes. -/
def Holds {n : Nat} (buf : Nat → UInt8) (v : Vector UInt8 n) : Prop :=
  ∀ (j : Nat) (h : j < n), buf j = v[j]

/-- Where the loop stands, the function would come to its result from there. -/
def Simulates (str : CStr) (size : UInt32) (token : Vector UInt8 size.toNat)
    (fl : Flow (UInt32 × UInt8) Bool) (buf : Nat → UInt8) : Prop :=
  match fl with
  | .go (i, x) =>
      ∃ v : Vector UInt8 size.toNat, Holds buf v ∧
        mainParseHexLoop str (2 * size.toNat - i.toNat) i.toNat x v = mainParseHex token str
  | .done ok => ∃ v, Holds buf v ∧ mainParseHex token str = (ok, v)

/-- A byte written to the buffer. -/
theorem Holds.update {n : Nat} {v : Vector UInt8 n} (h : Holds buf v) (k : Nat) (x : UInt8) :
    Holds (Function.update buf k x) (v.setIfInBounds k x) := by
  intro j hj
  rw [Vector.getElem_setIfInBounds hj]
  by_cases hjk : j = k
  · subst hjk
    rw [Function.update_self, if_pos rfl]
  · rw [Function.update_of_ne hjk, if_neg (Ne.symm hjk)]
    exact h j hj

/-- **One turn is one step of the function.** -/
theorem simulates_step (hsize : 2 * size.toNat < 2 ^ 32) {token : Vector UInt8 size.toNat}
    {s : UInt32 × UInt8} {t₀ : Trace HexMem} {fl : Flow (UInt32 × UInt8) Bool}
    (hinv : ParseInv str size buf₀ (.go s) buf t₀) (hsim : Simulates str size token (.go s) buf)
    (h : Exec (hexEnv str) (parseHexBody sign size s) buf t fl buf') :
    Simulates str size token fl buf' := by
  obtain ⟨i, x⟩ := s
  obtain ⟨hi, -, hreached⟩ := hinv
  obtain ⟨v, hv, hloop⟩ := hsim
  rcases parseHexBody_cases hsize h with ⟨hend, -, hfl, hbuf⟩
    | ⟨hin, b, hb, hturn⟩
  · -- no turn is left, for the function either
    have hnone : 2 * size.toNat - i.toNat = 0 := by omega
    rw [hnone] at hloop
    subst hfl hbuf
    exact ⟨v, hv, hloop.symm⟩
  · have hb := hb (le_length_of_digits hreached.digits)
    subst hb
    -- the function's next step looks at the same character
    have hmore : 2 * size.toNat - i.toNat = 2 * size.toNat - (i.toNat + 1) + 1 := by omega
    have hnext := toNat_succ hsize hin
    rw [hmore, mainParseHexLoop, hexDigit_eq] at hloop
    rcases hturn with ⟨hno, -, hfl, hbuf⟩ | ⟨hdigit, htakes⟩
    · rw [hno] at hloop
      subst hfl hbuf
      exact ⟨v, hv, hloop.symm⟩
    · rw [hdigit, if_pos rfl] at hloop
      dsimp only at hloop
      unfold TakesDigit at htakes
      by_cases hodd : i.toNat % 2 = 1
      · rw [if_pos hodd] at htakes
        obtain ⟨-, hfl, hbuf⟩ := htakes
        subst hfl hbuf
        refine ⟨_, hv.update (i.toNat / 2) _, ?_⟩
        rw [if_pos hodd] at hloop
        rw [hnext]
        exact hloop
      · rw [if_neg hodd] at htakes
        obtain ⟨-, hfl, hbuf⟩ := htakes
        subst hfl hbuf
        refine ⟨v, hv, ?_⟩
        rw [if_neg hodd] at hloop
        rw [hnext]
        exact hloop

/-- **The accesses refine the function**: a run ends with its result, and leaves its buffer. -/
theorem parseHex_refines (hsize : 2 * size.toNat < 2 ^ 32) {token : Vector UInt8 size.toNat}
    (htoken : Holds buf₀ token) {fl : Flow (UInt32 × UInt8) Bool}
    (h : Exec (hexEnv str) (mainParseHexMem sign size) buf₀ t fl buf) :
    Simulates str size token fl buf := by
  obtain ⟨rs, hrs, -⟩ := exec_loop h
  have h0 : ParseInv str size buf₀ (.go (0, 0)) buf₀ [] ∧
      Simulates str size token (.go (0, 0)) buf₀ := by
    refine ⟨parseInv_init, token, htoken, ?_⟩
    unfold mainParseHex
    rw [Nat.mul_comm size.toNat 2]
    rfl
  have hend := Rounds.invariant
    (I := fun fl buf t => ParseInv str size buf₀ fl buf t ∧ Simulates str size token fl buf)
    (by
      intro s buf t₀ t fl buf' hI hx
      exact ⟨parseInv_step hsize hI.1 hx, simulates_step hsize hI.1 hI.2 hx⟩)
    [] h0 hrs
  exact hend.2

/-! ## §7. The token. -/

/-- The strings `--relay-token` is meant for. -/
def IsToken (n : Nat) (s : CStr) : Prop :=
  s.bytes = [] ∨ (s.bytes.length = 2 * n ∧ ∀ c ∈ s.bytes, isHexDigit c = true)

theorem isHex_iff (s : CStr) : isHex s = true ↔ ∀ c ∈ s.bytes, isHexDigit c = true := by
  have hdigit : ∀ c, (hexDigit c).isSome = isHexDigit c := by
    intro c
    rw [hexDigit_eq]
    cases isHexDigit c <;> rfl
  unfold isHex
  rw [List.all_eq_true]
  simp only [hdigit]

/-- The table of the options has the same strings. -/
theorem accepts_relayToken_iff (lib : Lib) (s : CStr) :
    Opt.relayToken.accepts lib s = true ↔ IsToken lib.relayTokenSize s := by
  unfold Opt.accepts IsToken
  rw [decide_eq_true_eq, List.length_eq_zero_iff, isHex_iff, Nat.mul_comm]

/-- A turn of the loop over the options on `--relay-token`. -/
theorem scanBody_relayToken {lib : Lib} {argv more : List CStr} {i : Nat} {s : CStr}
    (o : Options lib.relayTokenSize)
    (h : argv.drop (i + 1) = .ofString "--relay-token" :: s :: more) :
    (IsToken lib.relayTokenSize s → ∃ o', scanBody lib argv (i, o) = .ok (.go (i + 2, o'))) ∧
      (¬ IsToken lib.relayTokenSize s → scanBody lib argv (i, o) =
        .error (.exit (.invalidParam (.ofString "--relay-token") s))) := by
  have hname : Opt.ofName (.ofString "--relay-token") = some .relayToken := by decide
  have hturn : scanBody lib argv (i, o) =
      if Opt.relayToken.accepts lib s then .ok (.go (i + 2, Opt.relayToken.set lib s o))
      else .error (.exit (.invalidParam (.ofString "--relay-token") s)) := by
    rw [scanBody_option h hname, scanOption_param h (by decide) hname rfl]
  rw [hturn, ← accepts_relayToken_iff]
  constructor
  · intro hacc
    exact ⟨_, if_pos hacc⟩
  · intro hacc
    exact if_neg hacc

/-! ## §8. Where the loop ends. -/

/-- `true` is returned when all digits wanted are there. -/
theorem ParseInv.ok_iff {ok : Bool} (h : ParseInv str size buf₀ (.done ok) buf t) :
    ok = true ↔ ∀ j, j < 2 * size.toNat → isHexDigit (str.charAt j) = true := by
  cases ok with
  | true => exact ⟨fun _ => h.digits, fun _ => rfl⟩
  | false =>
      obtain ⟨k, hk, hno, -⟩ := h
      constructor
      · intro hok
        cases hok
      · intro hall
        rw [hall k hk] at hno
        cases hno

/-- At either end, one character at most was read behind the digits taken. -/
theorem ParseInv.reached {ok : Bool} (h : ParseInv str size buf₀ (.done ok) buf t) :
    ∃ k n, k ≤ 2 * size.toNat ∧ n ≤ k + 1 ∧ Reached str buf₀ k n t buf := by
  cases ok with
  | true => exact ⟨_, _, Nat.le_refl _, Nat.le_succ _, h⟩
  | false =>
      obtain ⟨k, hk, -, hreached⟩ := h
      exact ⟨k, k + 1, Nat.le_of_lt hk, Nat.le_refl _, hreached⟩

/-- What stands before a character that was read, and that it is not behind the NUL. -/
theorem Reached.read_le {k n : Nat} (h : Reached str buf₀ k n t buf) (hn : n ≤ k + 1) {i : Nat}
    (hi : i ∈ Main.reads t) :
    i ≤ str.bytes.length ∧ ∀ j, j < i → isHexDigit (str.charAt j) = true := by
  rw [h.reads, List.mem_range] at hi
  have hbefore : ∀ j, j < i → isHexDigit (str.charAt j) = true := fun j hj => h.digits j (by omega)
  exact ⟨le_length_of_digits hbefore, hbefore⟩

/-- Only the buffer is written. -/
theorem Reached.write_lt {k n : Nat} (h : Reached str buf₀ k n t buf) (hk : k ≤ 2 * size.toNat)
    {p : Nat × UInt8} (hp : p ∈ Main.writes t) : p.1 < size.toNat := by
  rw [h.writes] at hp
  obtain ⟨j, hj, rfl⟩ := List.mem_map.mp hp
  have hj : j < k / 2 := List.mem_range.mp hj
  show j < size.toNat
  omega

theorem Reached.outside {k n : Nat} (h : Reached str buf₀ k n t buf) (hk : k ≤ 2 * size.toNat)
    {j : Nat} (hj : size.toNat ≤ j) : buf j = buf₀ j := by
  rw [h.buf j, if_neg (by omega)]

/-- With all digits taken the buffer holds their bytes. -/
theorem Reached.filled {m n : Nat} (h : Reached str buf₀ (2 * m) n t buf) {j : Nat} (hj : j < m) :
    buf j = byteOf str j := by
  rw [h.buf j, if_pos (by omega)]

/-- **What a successful call has written**: each byte once and in order, its halves the two digits,
    so that printing the bytes gives the digits back in lower case. -/
theorem Reached.written {m n : Nat} (h : Reached str buf₀ (2 * m) n t buf) :
    Main.writes t = (List.range m).map (fun j => (j, buf j)) ∧
    (∀ j, j < m → (buf j >>> 4).toNat = hexValue (str.charAt (2 * j)) ∧
      (buf j &&& 0xF).toNat = hexValue (str.charAt (2 * j + 1))) ∧
    printHex ((List.range m).map buf) = (str.bytes.take (2 * m)).map toLower := by
  have hhalf : 2 * m / 2 = m := by omega
  refine ⟨?_, ?_, ?_⟩
  · rw [h.writes, hhalf]
    apply List.map_congr_left
    intro j hj
    rw [h.filled (List.mem_range.mp hj)]
  · intro j hj
    rw [h.filled hj]
    exact byteOf_halves (h.digits _ (by omega)) (h.digits _ (by omega))
  · have hbytes : (List.range m).map buf = (List.range m).map (byteOf str) := by
      apply List.map_congr_left
      intro j hj
      exact h.filled (List.mem_range.mp hj)
    rw [hbytes, printHex_byteOf h.digits, take_eq_charAt (le_length_of_digits h.digits)]

/-- **`main_parse_hex` accepts exactly hexadecimal, and decodes it**, whether `char` is signed or
    not.  The call returns.  It returns `true` if and only if the first `2 * size` characters are
    hexadecimal digits; then it has written the `size` bytes they spell, each once and in order.
    No character behind the first that is no digit is read, hence none behind the NUL, and no byte
    behind the buffer is written.  It is the function `main` was modelled with, so that
    `--relay-token` accepts the empty string and the strings of twice the token's size in digits,
    and gives up on all others. -/
theorem mainParseHex_exact (sign : CharSign) (size : UInt32) (hsize : 2 * size.toNat < 2 ^ 32)
    (str : CStr) (buf : Nat → UInt8) :
    (∃ t fl buf', Exec (hexEnv str) (mainParseHexMem sign size) buf t fl buf') ∧
    (∀ t fl buf', Exec (hexEnv str) (mainParseHexMem sign size) buf t fl buf' →
      ∃ ok, fl = .done ok ∧
        (ok = true ↔ 2 * size.toNat ≤ str.bytes.length ∧
          ∀ c ∈ str.bytes.take (2 * size.toNat), isHexDigit c = true) ∧
        (ok = true →
          writes t = (List.range size.toNat).map (fun j => (j, buf' j)) ∧
          (∀ j, j < size.toNat → (buf' j >>> 4).toNat = hexValue (str.charAt (2 * j)) ∧
            (buf' j &&& 0xF).toNat = hexValue (str.charAt (2 * j + 1))) ∧
          printHex ((List.range size.toNat).map buf') =
            (str.bytes.take (2 * size.toNat)).map toLower) ∧
        (∀ i ∈ reads t, i ≤ str.bytes.length ∧ ∀ j, j < i → isHexDigit (str.charAt j) = true) ∧
        (∀ p ∈ writes t, p.1 < size.toNat) ∧
        (∀ j, size.toNat ≤ j → buf' j = buf j) ∧
        (∀ token : Vector UInt8 size.toNat, Holds buf token →
          (mainParseHex token str).1 = ok ∧ Holds buf' (mainParseHex token str).2)) ∧
    (∀ (lib : Lib) (argv more : List CStr) (i : Nat) (s : CStr) (o : Options lib.relayTokenSize),
      lib.relayTokenSize = size.toNat →
      argv.drop (i + 1) = .ofString "--relay-token" :: s :: more →
      (IsToken size.toNat s → ∃ o', scanBody lib argv (i, o) = .ok (.go (i + 2, o'))) ∧
      (¬ IsToken size.toNat s → scanBody lib argv (i, o) =
        .error (.exit (.invalidParam (.ofString "--relay-token") s)))) := by
  refine ⟨⟨_, _, _, exec_run (hexEnv_hexServe str) _ buf⟩, ?_, ?_⟩
  · intro t fl buf' h
    obtain ⟨ok, hok⟩ := loop_parseHexBody_ends hsize (Nat.zero_le _)
      (show 2 * size.toNat < 0 + (2 * size.toNat + 1) by omega) h
    subst hok
    have hinv := exec_mainParseHexMem hsize h
    obtain ⟨k, n, hk, hn, hreached⟩ := hinv.reached
    refine ⟨ok, rfl, ?_, ?_, ?_, ?_, ?_, ?_⟩
    · rw [hinv.ok_iff, digits_iff]
    · intro htrue
      subst htrue
      exact Reached.written hinv
    · intro i hi
      exact hreached.read_le hn hi
    · intro p hp
      exact hreached.write_lt hk hp
    · intro j hj
      exact hreached.outside hk hj
    · intro token htoken
      obtain ⟨v, hv, hresult⟩ := parseHex_refines hsize htoken h
      rw [hresult]
      exact ⟨rfl, hv⟩
  · intro lib argv more i s o hlib hargv
    rw [← hlib]
    exact scanBody_relayToken o hargv

/-- Two bytes from digits of either case. -/
theorem mainParseHex_exact_sample :
    ∃ t buf', Exec (hexEnv (.ofString "aB09")) (mainParseHexMem .signed 2) (fun _ => 0) t
        (.done true) buf' ∧
      printHex [buf' 0, buf' 1] = (CStr.ofString "ab09").bytes := by
  obtain ⟨⟨t, fl, buf', h⟩, hall, -⟩ :=
    mainParseHex_exact .signed 2 (by decide) (.ofString "aB09") (fun _ => 0)
  obtain ⟨ok, hfl, hiff, hwritten, -⟩ := hall t fl buf' h
  have hok : ok = true := hiff.mpr (by decide +kernel)
  subst hok hfl
  refine ⟨t, buf', h, ?_⟩
  rw [show [buf' 0, buf' 1] = (List.range (2 : UInt32).toNat).map buf' from rfl,
    (hwritten rfl).2.2]
  decide +kernel

end MobileBgb.Main
