/-
  MobileBgb.System.CString — C strings, and what the standard library reads from them.

  A C string is the list of its bytes up to the NUL: there is no NUL among them.  `charAt`
  reads it at an index up to the NUL's own.

  `strtol` follows the C standard, in the "C" locale and with a 64-bit `long`: white
  space, a sign, the mark of base 16, then the digits, as many as there are.  Where there
  is no digit nothing is read at all, and `endptr` is back at the start.
-/
import Mathlib.Data.List.GetD
import Mathlib.Data.List.TakeWhile
import Mathlib.Tactic

namespace MobileBgb.System

/-! ## §1. C strings. -/

/-- A C string: its bytes up to the NUL. -/
structure CStr where
  bytes : List UInt8
  noNul : (0 : UInt8) ∉ bytes
  deriving DecidableEq

/-- A string literal of the source. -/
def CStr.ofString (s : String) : CStr where
  bytes := s.toUTF8.data.toList.filter (· ≠ 0)
  noNul := by simp

/-- `s[i]`, for `i` up to the NUL. -/
def CStr.charAt (s : CStr) (i : Nat) : UInt8 := s.bytes.getD i 0

theorem CStr.charAt_of_drop {s : CStr} {i : Nat} {c : UInt8} {cs : List UInt8}
    (h : s.bytes.drop i = c :: cs) : s.charAt i = c := by
  unfold CStr.charAt
  rw [List.getD_eq_getElem?_getD, ← List.head?_drop, h]
  rfl

/-- The NUL is at the end, and only there. -/
theorem CStr.charAt_eq_zero {s : CStr} {i : Nat} (hi : i ≤ s.bytes.length) :
    s.charAt i = 0 ↔ i = s.bytes.length := by
  constructor
  · intro h
    by_contra hne
    have hlt : i < s.bytes.length := by omega
    have hmem : s.bytes[i] ∈ s.bytes := List.getElem_mem hlt
    unfold CStr.charAt at h
    rw [List.getD_eq_getElem _ _ hlt] at h
    rw [h] at hmem
    exact s.noNul hmem
  · intro h
    unfold CStr.charAt
    exact List.getD_eq_default _ _ (by omega)

/-! ## §2. `strtol`. -/

/-- `isspace` -/
def isSpace (c : UInt8) : Bool := c = 0x20 ∨ (0x09 ≤ c ∧ c ≤ 0x0D)

/-- The value of a character as a digit; 36 is no digit in any base. -/
def digitValue (c : UInt8) : Nat :=
  if 0x30 ≤ c ∧ c ≤ 0x39 then c.toNat - 0x30
  else if 0x41 ≤ c ∧ c ≤ 0x5A then c.toNat - 0x41 + 10
  else if 0x61 ≤ c ∧ c ≤ 0x7A then c.toNat - 0x61 + 10
  else 36

/-- The base the digits are read in, and how many characters mark it. -/
def strtolBase (base : Nat) (cs : List UInt8) : Nat × Nat :=
  if (base = 0 ∨ base = 16) ∧ cs[0]? = some 0x30 ∧ (cs[1]? = some 0x78 ∨ cs[1]? = some 0x58) ∧
      (cs[2]?.any fun c => digitValue c < 16) then
    (16, 2)
  else if base ≠ 0 then (base, 0)
  else if cs[0]? = some 0x30 then (8, 0)
  else (10, 0)

/-- A value too large for a `long` becomes `LONG_MIN` or `LONG_MAX`. -/
def clampLong (v : Int) : Int := max (-2 ^ 63) (min (2 ^ 63 - 1) v)

/-- `strtol(str, &endptr, base)`: the value, and how far `endptr` is from `str`. -/
def strtol (s : CStr) (base : Nat) : Int × Nat :=
  let spaces := (s.bytes.takeWhile isSpace).length
  let cs := s.bytes.drop spaces
  let sign := if cs[0]? = some 0x2B ∨ cs[0]? = some 0x2D then 1 else 0
  let negative := cs[0]? = some 0x2D
  let cs := cs.drop sign
  let (base, mark) := strtolBase base cs
  let digits := (cs.drop mark).takeWhile fun c => digitValue c < base
  let value : Nat := digits.foldl (fun v c => v * base + digitValue c) 0
  if digits = [] then (0, 0)
  else (clampLong (if negative then -value else value), spaces + sign + mark + digits.length)

/-- What is read of a list after some of it was skipped lies inside the list. -/
theorem skipped_add_takeWhile_le {α : Type} (l : List α) (a b c : Nat) (p : α → Bool)
    (h : (((l.drop a).drop b).drop c).takeWhile p ≠ []) :
    a + b + c + ((((l.drop a).drop b).drop c).takeWhile p).length ≤ l.length := by
  have hle := (List.takeWhile_sublist (l := ((l.drop a).drop b).drop c) p).length_le
  have hpos := List.length_pos_iff.mpr h
  rw [List.length_drop, List.length_drop, List.length_drop] at hle
  omega

/-- `endptr` stays in the string. -/
theorem strtol_end_le (s : CStr) (base : Nat) : (strtol s base).2 ≤ s.bytes.length := by
  unfold strtol
  dsimp only
  split_ifs with hsign hdigits hneg hdigits hneg
  all_goals first
    | exact Nat.zero_le _
    | exact skipped_add_takeWhile_le _ _ _ _ _ hdigits

/-! ## §3. Strings that are numbers throughout. -/

/-- A decimal digit. -/
def isDigit (c : UInt8) : Bool := digitValue c < 10

/-- The number the decimal digits of a string spell. -/
def CStr.decimal (s : CStr) : Nat :=
  (s.bytes.filter isDigit).foldl (fun v c => v * 10 + digitValue c) 0

/-- The number a string spells in decimal, its minus sign with it. -/
def CStr.number (s : CStr) : Int := if 0x2D ∈ s.bytes then -s.decimal else s.decimal

theorem not_isDigit_of_isSpace {c : UInt8} (h : isSpace c = true) : isDigit c = false := by
  have hc : c.toNat = 0x20 ∨ (0x09 ≤ c.toNat ∧ c.toNat ≤ 0x0D) := by
    simpa [isSpace, UInt8.le_iff_toNat_le, ← UInt8.toNat_inj] using h
  unfold isDigit digitValue
  simp only [UInt8.le_iff_toNat_le, UInt8.reduceToNat]
  rw [if_neg (by omega), if_neg (by omega), if_neg (by omega)]
  rfl

/-- What `takeWhile` takes, and what is behind it by count. -/
theorem takeWhile_append_drop {α : Type} (p : α → Bool) (l : List α) :
    l.takeWhile p ++ l.drop (l.takeWhile p).length = l := by
  have hsplit : l.takeWhile p ++ l.dropWhile p = l := List.takeWhile_append_dropWhile
  have hdrop := congrArg (List.drop (l.takeWhile p).length) hsplit
  rw [List.drop_left] at hdrop
  rw [← hdrop]
  exact hsplit

/-- The sign at the head of a list, as `strtol` skips it. -/
theorem take_sign (cs : List UInt8) :
    let sign := cs.take (if cs[0]? = some 0x2B ∨ cs[0]? = some 0x2D then 1 else 0)
    (sign = [] ∨ sign = [0x2B] ∨ sign = [0x2D]) ∧ (cs[0]? = some 0x2D ↔ sign = [0x2D]) := by
  cases cs with
  | nil => simp
  | cons c cs =>
      by_cases hplus : c = 0x2B
      · subst hplus
        simp
      · by_cases hminus : c = 0x2D
        · subst hminus
          simp
        · simp [hplus, hminus]

/-- What `strtol` reads of a string in base 10 where it reads a number: white space, a sign and the
    digits, and the value is theirs. -/
theorem strtol_ten {s : CStr} (h : (strtol s 10).2 ≠ 0) :
    ∃ (spaces sign digits more : List UInt8),
      s.bytes = spaces ++ (sign ++ (digits ++ more)) ∧
      (∀ c ∈ spaces, isSpace c = true) ∧
      (sign = [] ∨ sign = [0x2B] ∨ sign = [0x2D]) ∧
      (∀ c ∈ digits, isDigit c = true) ∧
      (strtol s 10).2 = spaces.length + sign.length + digits.length ∧
      (strtol s 10).1 = clampLong (
        let value : Nat := digits.foldl (fun v c => v * 10 + digitValue c) 0
        if sign = [0x2D] then -value else value) := by
  have hbase : ∀ cs, strtolBase 10 cs = (10, 0) := by
    intro cs
    rfl
  have hten : (fun c => decide (digitValue c < 10)) = isDigit := rfl
  -- `cs` is what follows the white space, `k` the length of the sign
  obtain ⟨cs, hcs⟩ : ∃ cs, s.bytes.drop (s.bytes.takeWhile isSpace).length = cs := ⟨_, rfl⟩
  obtain ⟨k, hk⟩ : ∃ k, (if cs[0]? = some 0x2B ∨ cs[0]? = some 0x2D then 1 else 0) = k := ⟨_, rfl⟩
  have hsign := take_sign cs
  rw [hk] at hsign
  obtain ⟨hsigns, hminus⟩ := hsign
  unfold strtol at h ⊢
  simp only [hbase, hten, hcs, hk, List.drop_zero] at h ⊢
  by_cases hdigits : (cs.drop k).takeWhile isDigit = []
  · rw [if_pos hdigits] at h
    exact absurd rfl h
  · rw [if_neg hdigits]
    have hrest := takeWhile_append_drop isSpace s.bytes
    rw [hcs] at hrest
    have hlen : (cs.take k).length = k := by
      have hle := (List.takeWhile_sublist (l := cs.drop k) isDigit).length_le
      have hpos := List.length_pos_iff.mpr hdigits
      rw [List.length_drop] at hle
      rw [List.length_take]
      omega
    refine ⟨s.bytes.takeWhile isSpace, cs.take k, (cs.drop k).takeWhile isDigit,
      (cs.drop k).dropWhile isDigit, ?_, ?_, hsigns, ?_, ?_, ?_⟩
    · rw [List.takeWhile_append_dropWhile, List.take_append_drop]
      exact hrest.symm
    · intro c hc
      exact List.mem_takeWhile_imp hc
    · intro c hc
      exact List.mem_takeWhile_imp hc
    · rw [hlen]
      rfl
    · dsimp only
      congr 1
      simp only [hminus]

/-- **A string that `strtol` reads to its end** in base 10, and that is not empty, is the number it
    spells. -/
theorem strtol_ten_number {s : CStr} (hne : s.bytes ≠ [])
    (hend : (strtol s 10).2 = s.bytes.length) : (strtol s 10).1 = clampLong s.number := by
  have hpos := List.length_pos_iff.mpr hne
  obtain ⟨spaces, sign, digits, more, hbytes, hspaces, hsign, hdigits, hlen, hvalue⟩ :=
    strtol_ten (s := s) (by omega)
  have hmore : more = [] := by
    rw [hend, hbytes] at hlen
    simp only [List.length_append] at hlen
    exact List.length_eq_zero_iff.mp (by omega)
  subst hmore
  -- the digits are in the last part only, and so is a minus sign in the second only
  have hfilter : s.bytes.filter isDigit = digits := by
    have hno : spaces.filter isDigit = [] := by
      rw [List.filter_eq_nil_iff]
      intro c hc
      simp [not_isDigit_of_isSpace (hspaces c hc)]
    have hnoSign : sign.filter isDigit = [] := by
      rcases hsign with rfl | rfl | rfl <;> decide
    rw [hbytes, List.append_nil, List.filter_append, List.filter_append, hno, hnoSign,
      List.filter_eq_self.mpr hdigits]
    rfl
  have hminus : 0x2D ∈ s.bytes ↔ sign = [0x2D] := by
    have hno : (0x2D : UInt8) ∉ spaces := by
      intro hmem
      exact absurd (hspaces _ hmem) (by decide)
    have hnoDigit : (0x2D : UInt8) ∉ digits := by
      intro hmem
      exact absurd (hdigits _ hmem) (by decide)
    rw [hbytes]
    rcases hsign with rfl | rfl | rfl <;> simp [hno, hnoDigit]
  rw [hvalue]
  unfold CStr.number CStr.decimal
  rw [hfilter]
  simp only [hminus]

end MobileBgb.System
