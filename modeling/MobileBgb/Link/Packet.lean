/-
  MobileBgb.Link.Packet — `struct bgb_packet` and its eight bytes on the wire.

  The packed struct is sent and received as raw memory, so its `timestamp` is in
  the byte order of the HOST.  `toBytes` and `ofBytes` are that memory image and
  its inverse; everything the link does with packets goes through them.
-/
import MobileBgb.System.Interface

namespace MobileBgb.Link

open MobileBgb.System

/-! ## §1. The struct and its commands. -/

/-- `enum bgb_cmd` -/
inductive BgbCmd where
  | version
  | joypad
  | sync1
  | sync2
  | sync3
  | status
  | wantdisconnect
  deriving DecidableEq, Repr

/-- The value of a command in the `cmd` byte. -/
def BgbCmd.code : BgbCmd → UInt8
  | .version => 1
  | .joypad => 101
  | .sync1 => 104
  | .sync2 => 105
  | .sync3 => 106
  | .status => 108
  | .wantdisconnect => 109

/-- The command a `cmd` byte stands for, if it is one. -/
def BgbCmd.ofCode (b : UInt8) : Option BgbCmd :=
  if b = 1 then some .version
  else if b = 101 then some .joypad
  else if b = 104 then some .sync1
  else if b = 105 then some .sync2
  else if b = 106 then some .sync3
  else if b = 108 then some .status
  else if b = 109 then some .wantdisconnect
  else none

theorem BgbCmd.ofCode_code (c : BgbCmd) : BgbCmd.ofCode c.code = some c := by
  cases c <;> rfl

theorem BgbCmd.ofCode_eq_some {b : UInt8} {c : BgbCmd} (h : BgbCmd.ofCode b = some c) :
    b = c.code := by
  unfold BgbCmd.ofCode at h
  split_ifs at h <;> (injection h with h; subst h; assumption)

/-- `struct bgb_packet` -/
structure BgbPacket where
  cmd : UInt8
  b2 : UInt8
  b3 : UInt8
  b4 : UInt8
  timestamp : UInt32
  deriving DecidableEq, Repr

/-- `BGB_STATUS_RUNNING`: `1 << 0` -/
def BGB_STATUS_RUNNING : UInt8 := 0x01

/-- `BGB_STATUS_PAUSED`: `1 << 1` -/
def BGB_STATUS_PAUSED : UInt8 := 0x02

/-- `BGB_STATUS_SUPPORTRECONNECT`: `1 << 2` -/
def BGB_STATUS_SUPPORTRECONNECT : UInt8 := 0x04

/-- `handshake`: the version packet. -/
def handshake : BgbPacket where
  cmd := BgbCmd.version.code
  b2 := 1
  b3 := 4
  b4 := 0
  timestamp := 0

/-- `sizeof(struct bgb_packet)` -/
def packetSize : Nat := 8

/-! ## §2. A 32-bit word in memory. -/

/-- The four bytes of a word, least significant first. -/
def leBytes (t : UInt32) : List UInt8 :=
  [UInt8.ofNat t.toNat, UInt8.ofNat (t.toNat / 2 ^ 8), UInt8.ofNat (t.toNat / 2 ^ 16),
   UInt8.ofNat (t.toNat / 2 ^ 24)]

/-- The word with these four bytes, least significant first. -/
def leWord (b₀ b₁ b₂ b₃ : UInt8) : UInt32 :=
  UInt32.ofNat (b₀.toNat + 2 ^ 8 * b₁.toNat + 2 ^ 16 * b₂.toNat + 2 ^ 24 * b₃.toNat)

theorem leWord_toNat (b₀ b₁ b₂ b₃ : UInt8) :
    (leWord b₀ b₁ b₂ b₃).toNat
      = b₀.toNat + 2 ^ 8 * b₁.toNat + 2 ^ 16 * b₂.toNat + 2 ^ 24 * b₃.toNat := by
  have h₀ := b₀.toNat_lt
  have h₁ := b₁.toNat_lt
  have h₂ := b₂.toNat_lt
  have h₃ := b₃.toNat_lt
  unfold leWord
  rw [UInt32.toNat_ofNat']
  omega

theorem leBytes_leWord (b₀ b₁ b₂ b₃ : UInt8) : leBytes (leWord b₀ b₁ b₂ b₃) = [b₀, b₁, b₂, b₃] := by
  have h₀ := b₀.toNat_lt
  have h₁ := b₁.toNat_lt
  have h₂ := b₂.toNat_lt
  have h₃ := b₃.toNat_lt
  have ext : ∀ (n : Nat) (b : UInt8), n % 2 ^ 8 = b.toNat → UInt8.ofNat n = b := by
    intro n b h
    apply UInt8.toNat_inj.mp
    rw [UInt8.toNat_ofNat']
    exact h
  unfold leBytes
  rw [leWord_toNat, ext _ b₀ (by omega), ext _ b₁ (by omega), ext _ b₂ (by omega),
    ext _ b₃ (by omega)]

theorem leWord_leBytes (t : UInt32) :
    leWord (UInt8.ofNat t.toNat) (UInt8.ofNat (t.toNat / 2 ^ 8)) (UInt8.ofNat (t.toNat / 2 ^ 16))
      (UInt8.ofNat (t.toNat / 2 ^ 24)) = t := by
  have ht := t.toNat_lt
  apply UInt32.toNat_inj.mp
  rw [leWord_toNat]
  simp only [UInt8.toNat_ofNat']
  omega

/-! ## §3. The packet in memory. -/

/-- The memory image of a packet. -/
def BgbPacket.toBytes (o : ByteOrder) (p : BgbPacket) : List UInt8 :=
  [p.cmd, p.b2, p.b3, p.b4] ++
    match o with
    | .little => leBytes p.timestamp
    | .big => (leBytes p.timestamp).reverse

/-- The packet a buffer of `packetSize` bytes holds (bytes past its end read as zero). -/
def BgbPacket.ofBytes (o : ByteOrder) (bs : List UInt8) : BgbPacket where
  cmd := bs.getD 0 0
  b2 := bs.getD 1 0
  b3 := bs.getD 2 0
  b4 := bs.getD 3 0
  timestamp :=
    match o with
    | .little => leWord (bs.getD 4 0) (bs.getD 5 0) (bs.getD 6 0) (bs.getD 7 0)
    | .big => leWord (bs.getD 7 0) (bs.getD 6 0) (bs.getD 5 0) (bs.getD 4 0)

@[simp] theorem BgbPacket.toBytes_length (o : ByteOrder) (p : BgbPacket) :
    (p.toBytes o).length = packetSize := by
  cases o <;> rfl

@[simp] theorem BgbPacket.ofBytes_toBytes (o : ByteOrder) (p : BgbPacket) :
    BgbPacket.ofBytes o (p.toBytes o) = p := by
  obtain ⟨cmd, b2, b3, b4, t⟩ := p
  have ht := leWord_leBytes t
  cases o
  · exact congrArg (BgbPacket.mk cmd b2 b3 b4) ht
  · exact congrArg (BgbPacket.mk cmd b2 b3 b4) ht

theorem BgbPacket.toBytes_ofBytes (o : ByteOrder) {bs : List UInt8} (h : bs.length = packetSize) :
    (BgbPacket.ofBytes o bs).toBytes o = bs := by
  -- a list of length eight is a list of eight bytes
  match bs, h with
  | [a, b, c, d, e, f, g, i], _ =>
    cases o
    · show [a, b, c, d] ++ leBytes (leWord e f g i) = _
      rw [leBytes_leWord]
      rfl
    · show [a, b, c, d] ++ (leBytes (leWord i g f e)).reverse = _
      rw [leBytes_leWord]
      rfl

theorem BgbPacket.toBytes_injective (o : ByteOrder) : Function.Injective (BgbPacket.toBytes o) := by
  intro p q h
  rw [← BgbPacket.ofBytes_toBytes o p, h, BgbPacket.ofBytes_toBytes]

end MobileBgb.Link
