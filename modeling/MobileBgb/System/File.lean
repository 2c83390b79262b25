/-
  MobileBgb.System.File — a C stream opened for update, without I/O errors.

  A stream is the bytes of the file and a position.  The C standard does not allow input
  right after output, or output right after input, on such a stream: the position has to be
  set in between.  What it does not allow is `none` here, so a model that runs is also a
  model that keeps to the rule.
-/
import Mathlib.Data.List.GetD
import Mathlib.Tactic

namespace MobileBgb.System

/-! ## §1. The operations. -/

/-- What the stream did last since its position was set. -/
inductive FileMode where
  | idle
  | reading
  | writing
  deriving DecidableEq, Repr

/-- `FILE` -/
structure File where
  content : List UInt8
  pos : Nat
  mode : FileMode
  deriving DecidableEq, Repr

/-- `fopen(fname, "r+b")`, by what is on the disk under that name. -/
def fopenUpdate (disk : Option (List UInt8)) : Option File := disk.map fun c => ⟨c, 0, .idle⟩

/-- `fopen(fname, "w+b")` -/
def fopenCreate : File := ⟨[], 0, .idle⟩

/-- `fseek(f, offset, SEEK_SET)`: a negative offset fails and changes nothing. -/
def fseekSet (f : File) (offset : Int) : File :=
  if offset < 0 then f else { f with pos := offset.toNat, mode := .idle }

/-- `fseek(f, 0, SEEK_END)` -/
def fseekEnd (f : File) : File := { f with pos := f.content.length, mode := .idle }

/-- `rewind` -/
def rewind (f : File) : File := { f with pos := 0, mode := .idle }

/-- `ftell` -/
def ftell (f : File) : Nat := f.pos

/-- `fread(dest, 1, size, f)`: the bytes stored at `dest`. -/
def fread (f : File) (size : Nat) : Option (List UInt8 × File) :=
  if size = 0 then some ([], f)
  else if f.mode = .writing then none
  else
    let dest := (f.content.drop f.pos).take size
    some (dest, { f with pos := f.pos + dest.length, mode := .reading })

/-- The bytes `src` written over `content` at `pos`; a gap behind the end is filled with zeros. -/
def overwrite (content : List UInt8) (pos : Nat) (src : List UInt8) : List UInt8 :=
  (content ++ List.replicate (pos - content.length) 0).take pos ++ src ++
    content.drop (pos + src.length)

/-- `fwrite(src, 1, size, f)`: how many bytes were written. -/
def fwrite (f : File) (src : List UInt8) : Option (Nat × File) :=
  if src = [] then some (0, f)
  else if f.mode = .reading then none
  else
    some (src.length,
      { f with content := overwrite f.content f.pos src, pos := f.pos + src.length, mode := .writing })

/-- `fputc(c, f)` -/
def fputc (f : File) (c : UInt8) : Option File := (fwrite f [c]).map fun r => r.2

/-! ## §2. Bytes in place. -/

/-- The bytes of a file as a function of the place. -/
def bytesOf (g : Nat → UInt8) (len : Nat) : List UInt8 := (List.range len).map g

@[simp] theorem length_bytesOf (g : Nat → UInt8) (len : Nat) : (bytesOf g len).length = len := by
  unfold bytesOf
  simp

theorem getElem?_bytesOf (g : Nat → UInt8) {len j : Nat} (h : j < len) :
    (bytesOf g len)[j]? = some (g j) := by
  unfold bytesOf
  simp [h]

/-- A list is the bytes at its places. -/
theorem bytesOf_of_getElem? {l : List UInt8} {g : Nat → UInt8} {len : Nat} (hlen : l.length = len)
    (h : ∀ j, j < len → l[j]? = some (g j)) : l = bytesOf g len := by
  apply List.ext_getElem?
  intro j
  by_cases hj : j < len
  · rw [h j hj, getElem?_bytesOf g hj]
  · rw [List.getElem?_eq_none (by omega), List.getElem?_eq_none (by simp; omega)]

/-- Reading a part of a file. -/
theorem take_drop_bytesOf (g : Nat → UInt8) {len offset size : Nat} (h : offset + size ≤ len) :
    ((bytesOf g len).drop offset).take size = bytesOf (fun i => g (offset + i)) size := by
  apply bytesOf_of_getElem?
  · rw [List.length_take, List.length_drop, length_bytesOf]
    omega
  · intro j hj
    rw [List.getElem?_take_of_lt hj, List.getElem?_drop]
    exact getElem?_bytesOf g (by omega)

/-- **Writing over a part of a file** changes the bytes there, and nothing else. -/
theorem overwrite_bytesOf (g : Nat → UInt8) {len offset : Nat} {src : List UInt8}
    (h : offset + src.length ≤ len) :
    overwrite (bytesOf g len) offset src =
      bytesOf (fun j => if offset ≤ j ∧ j < offset + src.length then src.getD (j - offset) 0 else g j)
        len := by
  have hpad : offset - (bytesOf g len).length = 0 := by
    rw [length_bytesOf]
    omega
  have htake : ((bytesOf g len).take offset).length = offset := by
    rw [List.length_take, length_bytesOf]
    omega
  unfold overwrite
  rw [hpad, List.replicate_zero, List.append_nil]
  apply bytesOf_of_getElem?
  · simp only [List.length_append, htake, List.length_drop, length_bytesOf]
    omega
  · intro j hj
    rw [List.append_assoc]
    -- before, in and behind what is written
    by_cases hlo : j < offset
    · rw [List.getElem?_append_left (by omega), List.getElem?_take_of_lt hlo,
        getElem?_bytesOf g hj, if_neg (by omega)]
    · rw [List.getElem?_append_right (by omega), htake]
      by_cases hhi : j < offset + src.length
      · rw [List.getElem?_append_left (by omega), if_pos (by omega), List.getD_eq_getElem?_getD,
          List.getElem?_eq_getElem (by omega)]
        rfl
      · have hplace : offset + src.length + (j - offset - src.length) = j := by omega
        rw [List.getElem?_append_right (by omega), List.getElem?_drop, hplace,
          getElem?_bytesOf g hj, if_neg (by omega)]

/-- Writing at the end appends. -/
theorem overwrite_end (content src : List UInt8) :
    overwrite content content.length src = content ++ src := by
  unfold overwrite
  rw [Nat.sub_self, List.replicate_zero, List.append_nil, List.take_length,
    List.drop_of_length_le (by omega), List.append_nil]

/-! ## §3. Reading and writing inside the file. -/

/-- `fread` after the position was set. -/
theorem fread_inside {f : File} {g : Nat → UInt8} {len : Nat} (size : Nat) (hmode : f.mode = .idle)
    (hcontent : f.content = bytesOf g len) (h : f.pos + size ≤ len) :
    ∃ f', fread f size = some (bytesOf (fun i => g (f.pos + i)) size, f') ∧
      f'.content = bytesOf g len := by
  unfold fread
  by_cases hzero : size = 0
  · subst hzero
    exact ⟨f, rfl, hcontent⟩
  · rw [if_neg hzero, if_neg (by simp [hmode]), hcontent, take_drop_bytesOf g h]
    exact ⟨_, rfl, rfl⟩

/-- `fwrite` after the position was set. -/
theorem fwrite_inside {f : File} {g : Nat → UInt8} {len : Nat} (src : List UInt8)
    (hmode : f.mode = .idle) (hcontent : f.content = bytesOf g len)
    (h : f.pos + src.length ≤ len) :
    ∃ f', fwrite f src = some (src.length, f') ∧
      f'.content = bytesOf (fun j =>
        if f.pos ≤ j ∧ j < f.pos + src.length then src.getD (j - f.pos) 0 else g j) len := by
  unfold fwrite
  by_cases hnil : src = []
  · subst hnil
    have hnone : ∀ j, ¬ (f.pos ≤ j ∧ j < f.pos + ([] : List UInt8).length) := by
      intro j hj
      simp only [List.length_nil] at hj
      omega
    simp only [if_neg (hnone _)]
    exact ⟨f, rfl, hcontent⟩
  · rw [if_neg hnil, if_neg (by simp [hmode]), hcontent, overwrite_bytesOf g h]
    exact ⟨_, rfl, rfl⟩

end MobileBgb.System
