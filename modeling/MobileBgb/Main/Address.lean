/-
  MobileBgb.Main.Address — addresses on their way to the system and back.

  `convert_sockaddr` writes a `struct mobile_addr` into a `union u_sockaddr`, and the end
  of `socket_impl_recv` reads one out of it.  The union is modelled as its BYTES, laid out
  as on Linux: both members begin with the family and the port, 16 bits each in host
  order; the four host bytes of IPv4 lie where IPv6 has its flow info.

  The functions of `Socket.SocketImpl` speak of the address a union holds (`SockAddr`) and
  not of the bytes; `convertSockaddrMem_eq` and `get_socketImplRecvAddr` say that the bytes
  carry exactly these values.  The round trips are proved for the values and then hold of
  the bytes (`address_roundTrip`).
-/
import MobileBgb.Main.DnsPort
import MobileBgb.Link.Packet
import MobileBgb.Socket.Receive
import MobileBgb.Store.Memory

namespace MobileBgb.Main

open MobileBgb.Effect
open MobileBgb.System
open MobileBgb.Socket
open MobileBgb.Store
open MobileBgb.Link (leWord leBytes leBytes_leWord)

variable {tgt : Target} {o : ByteOrder}

/-! ## §1. The union. -/

/-- The bytes of a `union u_sockaddr`. -/
abbrev USockaddr := Nat → UInt8

/-- `AF_INET` -/
def AF_INET : UInt16 := 2

/-- `AF_INET6` -/
def AF_INET6 : UInt16 := 10

/-- A 16-bit host integer as its two bytes. -/
def shortBytes (o : ByteOrder) (x : UInt16) : Vector UInt8 2 :=
  Vector.ofFn fun i => if i.val = 0 then (bytesInMemory o x).1 else (bytesInMemory o x).2

/-- The 16-bit host integer at an offset. -/
def loadShort (o : ByteOrder) (u : USockaddr) (offset : Nat) : UInt16 :=
  match o with
  | .little => UInt16.ofNat ((u offset).toNat + 2 ^ 8 * (u (offset + 1)).toNat)
  | .big => UInt16.ofNat ((u (offset + 1)).toNat + 2 ^ 8 * (u offset).toNat)

/-- The 32-bit host integer at an offset. -/
def loadWord (o : ByteOrder) (u : USockaddr) (offset : Nat) : UInt32 :=
  match o with
  | .little => leWord (u offset) (u (offset + 1)) (u (offset + 2)) (u (offset + 3))
  | .big => leWord (u (offset + 3)) (u (offset + 2)) (u (offset + 1)) (u offset)

/-- The address a union holds, by its family. -/
def sockaddrAt (o : ByteOrder) (u : USockaddr) : SockAddr :=
  if loadShort o u 0 = AF_INET then .addr4 (loadShort o u 2) (load u 4 4)
  else if loadShort o u 0 = AF_INET6 then
    .addr6 (loadShort o u 2) (loadWord o u 4) (load u 8 16) (loadWord o u 24)
  else .other (loadShort o u 0).toNat

/-- `sizeof` the member of the union that an address is in. -/
def sockaddrLen : SockAddr → Nat
  | .addr4 _ _ => 16
  | .addr6 _ _ _ _ => 28
  | .other _ => 0

/-! ## §2. The code. -/

/-- What `convert_sockaddr` leaves. -/
structure Converted where
  addrlen : Nat
  uAddr : USockaddr
  /-- Is the result the address of the union?  It is NULL otherwise. -/
  result : Bool

/-- `convert_sockaddr`, on the bytes of the union.  The two tests on `sizeof` never hold. -/
def convertSockaddrMem (o : ByteOrder) (uAddr : USockaddr) : Option AddrBuf → Converted
  | none => ⟨0, uAddr, false⟩
  | some addr =>
      match addr.type with
      | .ipv4 =>
          let uAddr := store uAddr 0 (Vector.replicate 16 0)
          let uAddr := store uAddr 0 (shortBytes o AF_INET)
          let uAddr := store uAddr 2 (shortBytes o (htons o addr.port.toUInt16))
          let uAddr := store uAddr 4 (addr.host.take 4)
          ⟨16, uAddr, true⟩
      | .ipv6 =>
          let uAddr := store uAddr 0 (Vector.replicate 28 0)
          let uAddr := store uAddr 0 (shortBytes o AF_INET6)
          let uAddr := store uAddr 2 (shortBytes o (htons o addr.port.toUInt16))
          let uAddr := store uAddr 8 addr.host
          ⟨28, uAddr, true⟩
      | .other _ => ⟨0, uAddr, false⟩

/-- The end of `socket_impl_recv`: what is in `*addr` after it. -/
def socketImplRecvAddr (o : ByteOrder) (uAddr : USockaddr) (sockAddrlen : Nat) (addr : AddrBuf) :
    AddrBuf :=
  if sockAddrlen = 0 then addr
  else if loadShort o uAddr 0 = AF_INET then
    { type := .ipv4
      port := (ntohs o (loadShort o uAddr 2)).toUInt32
      host := addr.copyHost4 (load uAddr 4 4) }
  else if loadShort o uAddr 0 = AF_INET6 then
    { type := .ipv6
      port := (ntohs o (loadShort o uAddr 2)).toUInt32
      host := load uAddr 8 16 }
  else addr

/-! ## §3. Integers in the union. -/

theorem loadShort_toNat (o : ByteOrder) (u : USockaddr) (offset : Nat) :
    (loadShort o u offset).toNat =
      match o with
      | .little => (u offset).toNat + 2 ^ 8 * (u (offset + 1)).toNat
      | .big => (u (offset + 1)).toNat + 2 ^ 8 * (u offset).toNat := by
  have h₀ := (u offset).toNat_lt
  have h₁ := (u (offset + 1)).toNat_lt
  cases o with
  | little =>
      unfold loadShort
      rw [UInt16.toNat_ofNat']
      dsimp only
      omega
  | big =>
      unfold loadShort
      rw [UInt16.toNat_ofNat']
      dsimp only
      omega

/-- A short that was just stored. -/
theorem loadShort_store (o : ByteOrder) (u : USockaddr) (offset : Nat) (x : UInt16) :
    loadShort o (store u offset (shortBytes o x)) offset = x := by
  have h₀ : store u offset (shortBytes o x) offset = (bytesInMemory o x).1 := by
    have h := store_inside u offset (shortBytes o x) (i := 0) (by decide)
    exact h
  have h₁ : store u offset (shortBytes o x) (offset + 1) = (bytesInMemory o x).2 := by
    have h := store_inside u offset (shortBytes o x) (i := 1) (by decide)
    exact h
  have hbytes := toNat_bytes x
  apply UInt16.toNat_inj.mp
  rw [loadShort_toNat, h₀, h₁]
  cases o with
  | little =>
      unfold bytesInMemory
      dsimp only
      omega
  | big =>
      unfold bytesInMemory
      dsimp only
      omega

/-- A short that a later store does not touch. -/
theorem loadShort_store_apart {n : Nat} (o : ByteOrder) (u : USockaddr) (offset : Nat)
    (piece : Vector UInt8 n) {offset' : Nat} (h : offset' + 2 ≤ offset ∨ offset + n ≤ offset') :
    loadShort o (store u offset piece) offset' = loadShort o u offset' := by
  unfold loadShort
  rw [store_outside u offset piece (by omega), store_outside u offset piece (by omega)]

/-- Equal shorts are equal byte for byte. -/
theorem bytes_of_loadShort {u v : USockaddr} {offset : Nat}
    (h : loadShort o u offset = loadShort o v offset) {i : Nat} (hi : i < 2) :
    u (offset + i) = v (offset + i) := by
  have hnat := congrArg UInt16.toNat h
  rw [loadShort_toNat, loadShort_toNat] at hnat
  have hu₀ := (u offset).toNat_lt
  have hu₁ := (u (offset + 1)).toNat_lt
  have hv₀ := (v offset).toNat_lt
  have hv₁ := (v (offset + 1)).toNat_lt
  have hboth : (u offset).toNat = (v offset).toNat ∧ (u (offset + 1)).toNat = (v (offset + 1)).toNat := by
    cases o with
    | little =>
        dsimp only at hnat
        omega
    | big =>
        dsimp only at hnat
        omega
  match i, hi with
  | 0, _ => exact UInt8.toNat_inj.mp hboth.1
  | 1, _ => exact UInt8.toNat_inj.mp hboth.2

/-- A word is zero when its bytes are. -/
theorem loadWord_eq_zero {u : USockaddr} {offset : Nat} :
    loadWord o u offset = 0 ↔ ∀ i, i < 4 → u (offset + i) = 0 := by
  have hzero : leBytes 0 = [0, 0, 0, 0] := by decide
  constructor
  · intro h
    have hbytes : u offset = 0 ∧ u (offset + 1) = 0 ∧ u (offset + 2) = 0 ∧ u (offset + 3) = 0 := by
      have hle := congrArg leBytes h
      cases o with
      | little =>
          unfold loadWord at hle
          rw [leBytes_leWord, hzero] at hle
          simpa using hle
      | big =>
          unfold loadWord at hle
          rw [leBytes_leWord, hzero] at hle
          obtain ⟨h₃, h₂, h₁, h₀⟩ : u (offset + 3) = 0 ∧ u (offset + 2) = 0 ∧ u (offset + 1) = 0 ∧
            u offset = 0 := by simpa using hle
          exact ⟨h₀, h₁, h₂, h₃⟩
    obtain ⟨h₀, h₁, h₂, h₃⟩ := hbytes
    intro i hi
    match i, hi with
    | 0, _ => exact h₀
    | 1, _ => exact h₁
    | 2, _ => exact h₂
    | 3, _ => exact h₃
  · intro h
    have h₀ : u offset = 0 := h 0 (by decide)
    unfold loadWord
    rw [h₀, h 1 (by decide), h 2 (by decide), h 3 (by decide)]
    cases o <;> decide

/-! ## §4. The bytes carry the values. -/

/-- An IPv4 address, converted. -/
theorem sockaddrAt_ipv4 (o : ByteOrder) (uAddr : USockaddr) {addr : AddrBuf}
    (h : addr.type = .ipv4) :
    sockaddrAt o (convertSockaddrMem o uAddr (some addr)).uAddr =
      .addr4 (htons o addr.port.toUInt16) (addr.host.take 4) := by
  unfold convertSockaddrMem sockaddrAt
  simp only [h]
  rw [if_pos]
  · simp (disch := omega) only [loadShort_store_apart, loadShort_store]
    exact congrArg (SockAddr.addr4 _) (load_store _ 4 (addr.host.take 4))
  · simp (disch := omega) only [loadShort_store_apart, loadShort_store]

/-- An IPv6 address, converted: the flow info and the scope id are what `memset` left. -/
theorem sockaddrAt_ipv6 (o : ByteOrder) (uAddr : USockaddr) {addr : AddrBuf}
    (h : addr.type = .ipv6) :
    sockaddrAt o (convertSockaddrMem o uAddr (some addr)).uAddr =
      .addr6 (htons o addr.port.toUInt16) 0 addr.host 0 := by
  have hzero : ∀ i, (4 ≤ i ∧ i < 8) ∨ (24 ≤ i ∧ i < 28) →
      (convertSockaddrMem o uAddr (some addr)).uAddr i = 0 := by
    intro i hi
    unfold convertSockaddrMem
    simp only [h]
    rw [store_outside _ _ _ (by omega), store_outside _ _ _ (by omega),
      store_outside _ _ _ (by omega), store_fill _ _ _ (by omega) (by omega)]
  have hflow : loadWord o (convertSockaddrMem o uAddr (some addr)).uAddr 4 = 0 :=
    loadWord_eq_zero.mpr fun i hi => hzero (4 + i) (by omega)
  have hscope : loadWord o (convertSockaddrMem o uAddr (some addr)).uAddr 24 = 0 :=
    loadWord_eq_zero.mpr fun i hi => hzero (24 + i) (by omega)
  unfold sockaddrAt
  rw [hflow, hscope]
  unfold convertSockaddrMem
  simp only [h]
  have hfamily : AF_INET6 ≠ AF_INET := by decide
  simp (disch := omega) only [loadShort_store_apart, loadShort_store, load_store, if_neg hfamily,
    if_true]

/-- **`convert_sockaddr` on the bytes** leaves the address the values say, with its length, and
    NULL where they say there is none. -/
theorem convertSockaddrMem_eq (o : ByteOrder) (uAddr : USockaddr) (addr : Option AddrBuf) :
    let c := convertSockaddrMem o uAddr addr
    convertSockaddr o (addr.map AddrBuf.get) =
        (if c.result then some (sockaddrAt o c.uAddr) else none) ∧
      c.addrlen = if c.result then sockaddrLen (sockaddrAt o c.uAddr) else 0 := by
  cases addr with
  | none => exact ⟨rfl, rfl⟩
  | some addr =>
      cases htype : addr.type with
      | ipv4 =>
          obtain ⟨hresult, hlen⟩ : (convertSockaddrMem o uAddr (some addr)).result = true ∧
              (convertSockaddrMem o uAddr (some addr)).addrlen = 16 := by
            simp only [convertSockaddrMem, htype, and_self]
          dsimp only
          rw [hresult, hlen, sockaddrAt_ipv4 o uAddr htype]
          simp only [Option.map_some, AddrBuf.get, htype]
          exact ⟨rfl, rfl⟩
      | ipv6 =>
          obtain ⟨hresult, hlen⟩ : (convertSockaddrMem o uAddr (some addr)).result = true ∧
              (convertSockaddrMem o uAddr (some addr)).addrlen = 28 := by
            simp only [convertSockaddrMem, htype, and_self]
          dsimp only
          rw [hresult, hlen, sockaddrAt_ipv6 o uAddr htype]
          simp only [Option.map_some, AddrBuf.get, htype]
          exact ⟨rfl, rfl⟩
      | other code =>
          simp only [convertSockaddrMem, AddrBuf.get, htype, Option.map_some]
          exact ⟨rfl, rfl⟩

/-- **The end of `socket_impl_recv` on the bytes** writes the address the values say, and leaves
    `*addr` alone where they say there is none. -/
theorem get_socketImplRecvAddr (o : ByteOrder) (uAddr : USockaddr) {sockAddrlen : Nat}
    (hlen : sockAddrlen ≠ 0) (addr : AddrBuf) :
    (socketImplRecvAddr o uAddr sockAddrlen addr).get =
      (reportSockaddr o (some (sockaddrAt o uAddr))).getD addr.get := by
  unfold socketImplRecvAddr sockaddrAt
  rw [if_neg hlen]
  split_ifs with h₄ h₆
  · simp only [AddrBuf.get, take_copyHost4]
    rfl
  · rfl
  · rfl

/-! ## §5. The round trips of the values. -/

/-- Swapping the bytes of a port twice. -/
theorem htons_htons (o : ByteOrder) (x : UInt16) : htons o (htons o x) = x := by
  cases o with
  | big => rfl
  | little =>
      have hone := bytesInMemory_htons .little x
      have htwo := bytesInMemory_htons .little (htons .little x)
      obtain ⟨hlow, hhigh⟩ := Prod.mk.inj hone
      obtain ⟨hlow', hhigh'⟩ := Prod.mk.inj htwo
      apply UInt16.toNat_inj.mp
      rw [← toNat_bytes (htons .little (htons .little x)), ← toNat_bytes x, hlow', hhigh', hhigh,
        hlow]

/-- An address of one of the two families, with a port of 16 bits. -/
def isSendable : MobileAddr → Bool
  | .addr4 port _ => port.toNat < 65536
  | .addr6 port _ => port.toNat < 65536
  | .other _ => false

/-- A socket address of one of the two families, without flow info and scope id. -/
def isPlain : SockAddr → Bool
  | .addr4 _ _ => true
  | .addr6 _ flowinfo _ scopeId => flowinfo = 0 ∧ scopeId = 0
  | .other _ => false

/-- A port of 16 bits comes back through the network order. -/
theorem port_roundTrip (o : ByteOrder) {port : UInt32} (h : port.toNat < 65536) :
    (ntohs o (htons o port.toUInt16)).toUInt32 = port := by
  unfold ntohs
  rw [htons_htons]
  apply UInt32.toNat_inj.mp
  rw [UInt16.toNat_toUInt32, UInt32.toNat_toUInt16]
  omega

/-- **An address that was converted** is reported as it was. -/
theorem report_convert (o : ByteOrder) {addr : MobileAddr} (h : isSendable addr = true) :
    reportSockaddr o (convertSockaddr o (some addr)) = some addr := by
  cases addr with
  | addr4 port host =>
      have hport : port.toNat < 65536 := of_decide_eq_true h
      show some (MobileAddr.addr4 (ntohs o (htons o port.toUInt16)).toUInt32 host) = _
      rw [port_roundTrip o hport]
  | addr6 port host =>
      have hport : port.toNat < 65536 := of_decide_eq_true h
      show some (MobileAddr.addr6 (ntohs o (htons o port.toUInt16)).toUInt32 host) = _
      rw [port_roundTrip o hport]
  | other type => cases h

/-- **An address that was reported** is converted to what it was. -/
theorem convert_report (o : ByteOrder) {addr : SockAddr} (h : isPlain addr = true) :
    convertSockaddr o (reportSockaddr o (some addr)) = some addr := by
  have hport : ∀ x : UInt16, htons o (ntohs o x).toUInt32.toUInt16 = x := by
    intro x
    unfold ntohs
    rw [UInt16.toUInt16_toUInt32, htons_htons]
  cases addr with
  | addr4 sinPort sAddr =>
      show some (SockAddr.addr4 (htons o (ntohs o sinPort).toUInt32.toUInt16) sAddr) = _
      rw [hport]
  | addr6 sin6Port flowinfo s6Addr scopeId =>
      obtain ⟨hflow, hscope⟩ : flowinfo = 0 ∧ scopeId = 0 := of_decide_eq_true h
      subst hflow hscope
      show some (SockAddr.addr6 (htons o (ntohs o sin6Port).toUInt32.toUInt16) 0 s6Addr 0) = _
      rw [hport]
  | other family => cases h

/-! ## §6. Byte for byte. -/

theorem sockaddrAt_eq_addr4 {u : USockaddr} {sinPort : UInt16} {sAddr : Vector UInt8 4} :
    sockaddrAt o u = .addr4 sinPort sAddr ↔
      loadShort o u 0 = AF_INET ∧ loadShort o u 2 = sinPort ∧ load u 4 4 = sAddr := by
  unfold sockaddrAt
  split_ifs with h₄ h₆
  · simp [h₄]
  · simp [h₄]
  · simp [h₄]

theorem sockaddrAt_eq_addr6 {u : USockaddr} {sin6Port : UInt16} {flowinfo scopeId : UInt32}
    {s6Addr : Vector UInt8 16} :
    sockaddrAt o u = .addr6 sin6Port flowinfo s6Addr scopeId ↔
      loadShort o u 0 = AF_INET6 ∧ loadShort o u 2 = sin6Port ∧ loadWord o u 4 = flowinfo ∧
        load u 8 16 = s6Addr ∧ loadWord o u 24 = scopeId := by
  have hfamily : AF_INET ≠ AF_INET6 := by decide
  unfold sockaddrAt
  split_ifs with h₄ h₆
  · simp [h₄, hfamily]
  · simp [h₆]
  · simp [h₆]

/-- `sin_zero`, the padding of the IPv4 member, is zero. -/
def SinZero (o : ByteOrder) (u : USockaddr) : Prop :=
  loadShort o u 0 = AF_INET → ∀ i, 8 ≤ i → i < 16 → u i = 0

/-- `memset` leaves the padding zero. -/
theorem sinZero_convertSockaddrMem (o : ByteOrder) (uAddr : USockaddr) (addr : AddrBuf)
    (h : addr.type = .ipv4) (i : Nat) (hi : 8 ≤ i) (hi' : i < 16) :
    (convertSockaddrMem o uAddr (some addr)).uAddr i = 0 := by
  unfold convertSockaddrMem
  simp only [h]
  rw [store_outside _ _ _ (by omega), store_outside _ _ _ (by omega),
    store_outside _ _ _ (by omega), store_fill _ _ _ (by omega) (by omega)]

/-- The same family and port are the same four bytes, in either member. -/
theorem bytes_of_head {u v : USockaddr} (hfamily : loadShort o u 0 = loadShort o v 0)
    (hport : loadShort o u 2 = loadShort o v 2) {i : Nat} (hi : i < 4) : u i = v i := by
  by_cases h₂ : i < 2
  · have hbyte := bytes_of_loadShort hfamily h₂
    rwa [Nat.zero_add] at hbyte
  · obtain ⟨j, rfl⟩ := Nat.exists_eq_add_of_le (Nat.le_of_not_lt h₂)
    exact bytes_of_loadShort hport (by omega)

/-- Two unions that hold the same address, with the same padding, have the same bytes. -/
theorem bytes_of_sockaddrAt {u v : USockaddr} (h : sockaddrAt o u = sockaddrAt o v)
    (hplain : isPlain (sockaddrAt o v) = true)
    (hpad : loadShort o v 0 = AF_INET → ∀ i, 8 ≤ i → i < 16 → u i = v i) :
    ∀ i, i < sockaddrLen (sockaddrAt o v) → u i = v i := by
  intro i hi
  cases hv : sockaddrAt o v with
  | other family =>
      rw [hv] at hi
      exact absurd hi (Nat.not_lt_zero i)
  | addr4 sinPort sAddr =>
      rw [hv] at h hi
      obtain ⟨hfam, hport, hhost⟩ := sockaddrAt_eq_addr4.mp h
      obtain ⟨hfam', hport', hhost'⟩ := sockaddrAt_eq_addr4.mp hv
      have hi : i < 16 := hi
      -- the fields in order: family and port, host, padding
      by_cases h₄ : i < 4
      · exact bytes_of_head (hfam.trans hfam'.symm) (hport.trans hport'.symm) h₄
      by_cases h₈ : i < 8
      · obtain ⟨j, rfl⟩ := Nat.exists_eq_add_of_le (Nat.le_of_not_lt h₄)
        exact eq_of_load_eq (hhost.trans hhost'.symm) (by omega)
      · exact hpad hfam' i (by omega) hi
  | addr6 sin6Port flowinfo s6Addr scopeId =>
      rw [hv] at h hi hplain
      obtain ⟨hfam, hport, hflow, hhost, hscope⟩ := sockaddrAt_eq_addr6.mp h
      obtain ⟨hfam', hport', hflow', hhost', hscope'⟩ := sockaddrAt_eq_addr6.mp hv
      obtain ⟨hzero, hzero'⟩ : flowinfo = 0 ∧ scopeId = 0 := of_decide_eq_true hplain
      subst hzero hzero'
      have hi : i < 28 := hi
      -- the fields in order: family and port, flow info, host, scope id
      by_cases h₄ : i < 4
      · exact bytes_of_head (hfam.trans hfam'.symm) (hport.trans hport'.symm) h₄
      by_cases h₈ : i < 8
      · obtain ⟨j, rfl⟩ := Nat.exists_eq_add_of_le (Nat.le_of_not_lt h₄)
        rw [loadWord_eq_zero.mp hflow j (by omega), loadWord_eq_zero.mp hflow' j (by omega)]
      by_cases h₂₄ : i < 24
      · obtain ⟨j, rfl⟩ := Nat.exists_eq_add_of_le (Nat.le_of_not_lt h₈)
        exact eq_of_load_eq (hhost.trans hhost'.symm) (by omega)
      · obtain ⟨j, rfl⟩ := Nat.exists_eq_add_of_le (Nat.le_of_not_lt h₂₄)
        rw [loadWord_eq_zero.mp hscope j (by omega), loadWord_eq_zero.mp hscope' j (by omega)]

/-! ## §7. Datagrams. -/

variable {σ : Type} {E : Env (Sys tgt) σ} {w w' : σ} {t : Trace (Sys tgt)}

/-- The address an event sends to. -/
def sentToOf : Event (Sys tgt) → Option (Option SockAddr)
  | ⟨.sendto _ _ addr, _⟩ => some addr
  | _ => none

/-- The address an event receives from. -/
def receivedFromOf : Event (Sys tgt) → Option (Option SockAddr)
  | ⟨.recvfrom _ _ _, ans⟩ =>
      match (ans : Except Errno (List UInt8 × Option SockAddr)) with
      | .ok (_, addr) => some addr
      | .error _ => none
  | _ => none

/-- The addresses of the datagrams sent, in order. -/
def sentTo (t : Trace (Sys tgt)) : List (Option SockAddr) := t.filterMap sentToOf

/-- The addresses of the datagrams received, in order. -/
def receivedFrom (t : Trace (Sys tgt)) : List (Option SockAddr) := t.filterMap receivedFromOf

/-- `socket_impl_send` sends once, to the address converted. -/
theorem sentTo_socketImplSend {s : SocketImpl tgt} {conn : Fin tgt.maxConnections}
    {data : List UInt8} {addr : Option MobileAddr} {rc : Int}
    (h : Exec E (socketImplSend s conn data addr) w t rc w') :
    sentTo t = [convertSockaddr tgt.byteOrder addr] := by
  unfold socketImplSend at h
  rw [exec_ask_bind] at h
  obtain ⟨u, w₁, t₁, _, ht, h⟩ := h
  rw [exec_ask_bind] at h
  obtain ⟨ans, w₂, t₂, _, ht₁, h⟩ := h
  have hrest : sentTo t₂ = [] := by
    -- what follows the call is a diagnostic at most
    split at h
    · rw [((exec_pure E).mp h).1]
      rfl
    · rw [exec_ask_bind] at h
      obtain ⟨_, _, t₃, _, ht₂, h⟩ := h
      rw [ht₂, ((exec_pure E).mp h).1]
      rfl
    · rw [((exec_pure E).mp h).1]
      rfl
  subst ht ht₁
  show convertSockaddr tgt.byteOrder addr :: sentTo t₂ = _
  rw [hrest]

/-- The last step, with a buffer for the data and one for the address. -/
theorem addr_socketImplRecvDone (size : UInt32) {buf : List UInt8} {sockAddr : Option SockAddr}
    {r : RecvResult} (h : Exec E (socketImplRecvDone (some size) true buf sockAddr) w t r w') :
    t = [] ∧ r.addr = reportSockaddr tgt.byteOrder sockAddr := by
  obtain ⟨ht, hr, _⟩ := (exec_pure E).mp h
  exact ⟨ht, by rw [hr]; rfl⟩

/-- **`socket_impl_recv` on a UDP socket** reports the address the datagram came from, where
    nothing fails. -/
theorem addr_socketImplRecv {s : SocketImpl tgt} {conn : Fin tgt.maxConnections} {size : UInt32}
    {r : RecvResult} {from? : Option SockAddr}
    (h : Exec (udpEnv tgt) (socketImplRecv s conn (some size) true) () t r ())
    (herr : t.any osError = false) (hfrom : receivedFrom t = [from?]) :
    r.addr = reportSockaddr tgt.byteOrder from? := by
  unfold socketImplRecv at h
  rw [exec_ask_bind] at h
  obtain ⟨u, _, t₁, _, ht, h⟩ := h
  rw [exec_bind] at h
  obtain ⟨t₂, rc, _, t₃, hpoll, h, ht₁⟩ := h
  have hnone : receivedFrom t₂ = [] := by
    obtain ⟨_, _, ⟨ht₂, _⟩ | ⟨ht₂, _⟩⟩ := exec_socketHasdata hpoll
    · rw [ht₂]
      rfl
    · rw [ht₂]
      rfl
  have hreceived : receivedFrom t₃ = [from?] := by
    rw [← hfrom, ht, ht₁]
    show receivedFrom t₃ = (t₂ ++ t₃).filterMap receivedFromOf
    rw [List.filterMap_append]
    show receivedFrom t₃ = receivedFrom t₂ ++ receivedFrom t₃
    rw [hnone, List.nil_append]
  have herr₃ : t₃.any osError = false := by
    rw [ht, ht₁, List.any_cons, List.any_append, Bool.or_eq_false_iff, Bool.or_eq_false_iff] at herr
    exact herr.2.2
  by_cases hrc : rc ≤ 0
  · -- nothing to read: no datagram was received
    rw [if_pos hrc] at h
    rw [((exec_pure _).mp h).1] at hreceived
    cases hreceived
  rw [if_neg hrc, exec_ask_bind] at h
  obtain ⟨res, _, t₄, _, ht₃, h⟩ := h
  subst ht₃
  match res, h with
  | .error err, _ => cases herr₃
  | .ok (b :: buf, sockAddr), hx =>
      obtain ⟨ht₄, haddr⟩ := addr_socketImplRecvDone size hx
      subst ht₄
      cases hreceived
      exact haddr
  | .ok ([], sockAddr), hx =>
      -- an empty datagram: the socket says it is not a stream
      obtain ⟨type, _, t₅, htype, ht₄, hx⟩ := hx
      subst ht₄
      rcases htype with htype | htype
      · subst htype
        cases herr₃
      · subst htype
        obtain ⟨ht₅, haddr⟩ := addr_socketImplRecvDone size hx
        subst ht₅
        cases hreceived
        exact haddr

/-! ## §8. There and back. -/

theorem isSendable_get {addr : AddrBuf} (htype : addr.type = .ipv4 ∨ addr.type = .ipv6)
    (hport : addr.port.toNat < 65536) : isSendable addr.get = true := by
  rcases htype with htype | htype
  · simp only [AddrBuf.get, htype]
    exact decide_eq_true hport
  · simp only [AddrBuf.get, htype]
    exact decide_eq_true hport

/-- What is in the union after an address with a value was converted. -/
theorem convertSockaddrMem_some (uAddr : USockaddr) {addr : AddrBuf} {sockAddr : SockAddr}
    (h : convertSockaddr o (some addr.get) = some sockAddr) :
    let c := convertSockaddrMem o uAddr (some addr)
    c.result = true ∧ sockaddrAt o c.uAddr = sockAddr ∧ c.addrlen = sockaddrLen sockAddr := by
  obtain ⟨hvalue, hlen⟩ := convertSockaddrMem_eq o uAddr (some addr)
  dsimp only at hvalue hlen ⊢
  rw [Option.map_some, h] at hvalue
  cases hresult : (convertSockaddrMem o uAddr (some addr)).result with
  | false =>
      rw [hresult] at hvalue
      cases hvalue
  | true =>
      rw [hresult, if_pos rfl] at hvalue hlen
      injection hvalue with hvalue
      exact ⟨rfl, hvalue.symm, by rw [hlen, hvalue]⟩

/-- A socket address that has a length. -/
theorem sockaddrLen_pos {addr : MobileAddr} {sockAddr : SockAddr}
    (h : convertSockaddr o (some addr) = some sockAddr) : sockaddrLen sockAddr ≠ 0 := by
  cases addr with
  | addr4 port host =>
      cases h
      exact (by decide : (16 : Nat) ≠ 0)
  | addr6 port host =>
      cases h
      exact (by decide : (28 : Nat) ≠ 0)
  | other type => cases h

/-- **Address conversion round-trips**, on hosts of either byte order.  An address of either
    family with a port below 65536, converted and reported, has the same type, host and port,
    whatever was in the union and in the buffer it is reported to.  A socket address of either
    family without flow info and scope id, reported and converted, is the same again, with the
    length of its family; and byte for byte where its padding is zero.  So a datagram that comes
    from the address one was sent to is reported with the address given for sending. -/
theorem address_roundTrip (tgt : Target) :
    (∀ (uAddr : USockaddr) (addr dest : AddrBuf), (addr.type = .ipv4 ∨ addr.type = .ipv6) →
      addr.port.toNat < 65536 →
      let c := convertSockaddrMem tgt.byteOrder uAddr (some addr)
      c.result = true ∧
        (socketImplRecvAddr tgt.byteOrder c.uAddr c.addrlen dest).get = addr.get) ∧
    (∀ (sockAddr uAddr : USockaddr) (sockAddrlen : Nat) (dest : AddrBuf),
      isPlain (sockaddrAt tgt.byteOrder sockAddr) = true → sockAddrlen ≠ 0 →
      let c := convertSockaddrMem tgt.byteOrder uAddr
        (some (socketImplRecvAddr tgt.byteOrder sockAddr sockAddrlen dest))
      c.result = true ∧
        sockaddrAt tgt.byteOrder c.uAddr = sockaddrAt tgt.byteOrder sockAddr ∧
        c.addrlen = sockaddrLen (sockaddrAt tgt.byteOrder sockAddr) ∧
        (SinZero tgt.byteOrder sockAddr → ∀ i, i < c.addrlen → c.uAddr i = sockAddr i)) ∧
    (∀ {σ : Type} (E : Env (Sys tgt) σ) (w w' : σ) (s s' : SocketImpl tgt)
      (conn conn' : Fin tgt.maxConnections) (data : List UInt8) (addr : AddrBuf) (size : UInt32)
      (t t' : Trace (Sys tgt)) (rc : Int) (r : RecvResult),
      (addr.type = .ipv4 ∨ addr.type = .ipv6) → addr.port.toNat < 65536 →
      Exec E (socketImplSend s conn data (some addr.get)) w t rc w' →
      Exec (udpEnv tgt) (socketImplRecv s' conn' (some size) true) () t' r () →
      t'.any osError = false → receivedFrom t' = sentTo t → r.addr = some addr.get) := by
  refine ⟨?_, ?_, ?_⟩
  · intro uAddr addr dest htype hport
    have hback := report_convert tgt.byteOrder (isSendable_get htype hport)
    cases hconv : convertSockaddr tgt.byteOrder (some addr.get) with
    | none =>
        rw [hconv] at hback
        cases hback
    | some sockAddr =>
        obtain ⟨hresult, hvalue, hlen⟩ := convertSockaddrMem_some uAddr hconv
        refine ⟨hresult, ?_⟩
        rw [get_socketImplRecvAddr _ _ (by rw [hlen]; exact sockaddrLen_pos hconv), hvalue, ← hconv,
          hback]
        rfl
  · intro sockAddr uAddr sockAddrlen dest hplain hlen
    have hback := convert_report tgt.byteOrder hplain
    cases hreport : reportSockaddr tgt.byteOrder (some (sockaddrAt tgt.byteOrder sockAddr)) with
    | none =>
        rw [hreport] at hback
        cases hback
    | some addr =>
        have hget : (socketImplRecvAddr tgt.byteOrder sockAddr sockAddrlen dest).get = addr := by
          rw [get_socketImplRecvAddr _ _ hlen, hreport]
          rfl
        rw [hreport, ← hget] at hback
        obtain ⟨hresult, hvalue, haddrlen⟩ := convertSockaddrMem_some uAddr hback
        refine ⟨hresult, hvalue, haddrlen, ?_⟩
        intro hzero i hi
        rw [haddrlen] at hi
        refine bytes_of_sockaddrAt hvalue hplain ?_ i hi
        intro hfamily j hj hj'
        have htype : (socketImplRecvAddr tgt.byteOrder sockAddr sockAddrlen dest).type = .ipv4 := by
          unfold socketImplRecvAddr
          rw [if_neg hlen, if_pos hfamily]
        rw [hzero hfamily j hj hj']
        exact sinZero_convertSockaddrMem tgt.byteOrder uAddr _ htype j hj hj'
  · intro σ E w w' s s' conn conn' data addr size t t' rc r htype hport hsend hrecv herr hfrom
    rw [sentTo_socketImplSend hsend] at hfrom
    rw [addr_socketImplRecv hrecv herr hfrom]
    exact report_convert tgt.byteOrder (isSendable_get htype hport)

/-- 10.0.0.1, port 53. -/
def sampleServer : AddrBuf where
  type := .ipv4
  port := 53
  host := Vector.ofFn fun i => if i.val = 0 then 10 else if i.val = 3 then 1 else 0

/-- A UDP socket on which a byte has arrived from that server. -/
def serverServe (_ : Unit) : (op : SysOp host) → op.Ans × Unit
  | .poll _ _ => (1, ())
  | .sendto _ data _ => (.ok data.length, ())
  | .recvfrom _ _ _ => (.ok ([7], convertSockaddr .little (some sampleServer.get)), ())
  | op => (plainAns op, ())

theorem udpEnv_serverServe (w : Unit) (op : SysOp host) (hop : assertHolds op = true) :
    udpEnv host w op (serverServe w op).1 (serverServe w op).2 := by
  cases op with
  | recvfrom fd size peek => exact (by decide : 1 ≤ MAX_RW_COUNT)
  | getsockoptType fd => exact Or.inl rfl
  | assert ok => exact hop
  | _ => trivial

/-- A query to the server, and the read after it. -/
def serverQuery (conn : Fin host.maxConnections) : Trace (Sys host) × Int × Unit :=
  (socketImplSend ⟨fun _ => 5⟩ conn [1, 2] (some sampleServer.get)).run serverServe ()

def serverReply (conn : Fin host.maxConnections) : Trace (Sys host) × RecvResult × Unit :=
  (socketImplRecv ⟨fun _ => 5⟩ conn (some 512) true).run serverServe ()

/-- The reply is reported with the address of the query; and so is what a union that held other
    bytes before gives back. -/
theorem address_roundTrip_query :
    ∃ conn, receivedFrom (serverReply conn).1 = sentTo (serverQuery conn).1 ∧
      (serverReply conn).2.1.addr = some sampleServer.get ∧
      (socketImplRecvAddr .little
        (convertSockaddrMem .little (fun _ => 0xFF) (some sampleServer)).uAddr 16 .zero).get =
        sampleServer.get := by
  have conn : Fin host.maxConnections := ⟨0, by decide⟩
  have hport : sampleServer.port.toNat < 65536 := by decide
  have hsend : Exec (udpEnv host)
      (socketImplSend ⟨fun _ => 5⟩ conn [1, 2] (some sampleServer.get)) () (serverQuery conn).1
      (serverQuery conn).2.1 () := by
    apply exec_run_of udpEnv_serverServe
    have hall : (serverQuery conn).1.all (fun e => assertHolds e.op) = true := rfl
    exact List.all_eq_true.mp hall
  have hrecv : Exec (udpEnv host) (socketImplRecv ⟨fun _ => 5⟩ conn (some 512) true) ()
      (serverReply conn).1 (serverReply conn).2.1 () := by
    apply exec_run_of udpEnv_serverServe
    have hall : (serverReply conn).1.all (fun e => assertHolds e.op) = true := rfl
    exact List.all_eq_true.mp hall
  have hfrom : receivedFrom (serverReply conn).1 = sentTo (serverQuery conn).1 := rfl
  obtain ⟨hbytes, -, hdatagram⟩ := address_roundTrip host
  refine ⟨conn, hfrom, ?_, (hbytes (fun _ => 0xFF) sampleServer .zero (Or.inl rfl) hport).2⟩
  exact hdatagram (udpEnv host) () () _ _ _ _ _ sampleServer 512 _ _ _ _ (Or.inl rfl) hport hsend
    hrecv rfl hfrom

end MobileBgb.Main
