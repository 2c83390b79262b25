/-
  MobileBgb.Main.DnsPort — from the text after `--dns_port` to the port in a socket address.

  The text goes through `strtol` into a `long`, from there into an `unsigned`, into the
  two DNS addresses, and through a 16-bit `htons` into the socket addresses.  The only test
  on the way is the one after `strtol`, and half of it looks at the wrong string: `**argv`
  is the `-` of the option.  So an EMPTY text passes, and so does any number.

  `dnsPort_iff` says which texts are the port that is used: not empty, and spelling a
  number from 0 to 65535.
-/
import MobileBgb.Main.Settings
import MobileBgb.Socket.SocketImpl

namespace MobileBgb.Main

open MobileBgb.System
open MobileBgb.Socket
open MobileBgb.Store

/-! ## §1. Ports in network byte order. -/

/-- The two bytes of a 16-bit host integer as they lie in memory. -/
def bytesInMemory (o : ByteOrder) (x : UInt16) : UInt8 × UInt8 :=
  match o with
  | .little => (x.toUInt8, (x >>> 8).toUInt8)
  | .big => ((x >>> 8).toUInt8, x.toUInt8)

/-- The port field of a socket address. -/
def portField : SockAddr → Option UInt16
  | .addr4 sinPort _ => some sinPort
  | .addr6 sin6Port _ _ _ => some sin6Port
  | .other _ => none

/-- The address carries the port `v` in network byte order, the high byte first. -/
def CarriesPort (o : ByteOrder) (addr : SockAddr) (v : Int) : Prop :=
  ∃ x, portField addr = some x ∧
    v = (bytesInMemory o x).1.toNat * 256 + (bytesInMemory o x).2.toNat

/-- `htons` puts the high byte first, on either host. -/
theorem bytesInMemory_htons (o : ByteOrder) (x : UInt16) :
    bytesInMemory o (htons o x) = ((x >>> 8).toUInt8, x.toUInt8) := by
  cases o with
  | big => rfl
  | little =>
      have hlow : (x <<< 8 ||| x >>> 8).toUInt8 = (x >>> 8).toUInt8 := by
        apply UInt8.eq_of_toBitVec_eq
        ext i hi
        simp
      have hhigh : ((x <<< 8 ||| x >>> 8) >>> 8).toUInt8 = x.toUInt8 := by
        apply UInt8.eq_of_toBitVec_eq
        ext i hi
        have hout : x.toBitVec.getLsbD (8 + (8 + i)) = false :=
          BitVec.getLsbD_of_ge x.toBitVec _ (by omega)
        have hin : 8 + i < 16 := by omega
        simp [hout, hin]
        exact (BitVec.getLsbD_eq_getElem (by omega)).symm
      unfold bytesInMemory htons
      dsimp only
      rw [hlow, hhigh]

/-- The two bytes of a port together. -/
theorem toNat_bytes (x : UInt16) : (x >>> 8).toUInt8.toNat * 256 + x.toUInt8.toNat = x.toNat := by
  have hlt := x.toNat_lt
  have height : (8 : UInt16).toNat % 16 = 8 := rfl
  simp only [UInt16.toNat_toUInt8, UInt16.toNat_shiftRight, Nat.shiftRight_eq_div_pow, height]
  omega

/-- **What `convert_sockaddr` builds** carries the port of the address modulo 2^16. -/
theorem convertSockaddr_carries {o : ByteOrder} {pton : Pton} {port : UInt32} {addr : SockAddr}
    (h : convertSockaddr o (some (addrOf port pton)) = some addr) (v : Int) :
    CarriesPort o addr v ↔ v = (port.toNat % 2 ^ 16 : Nat) := by
  have hfield : portField addr = some (htons o port.toUInt16) := by
    cases pton with
    | ipv4 ip =>
        cases h
        rfl
    | ipv6 ip =>
        cases h
        rfl
    | invalid => cases h
  have hbytes : (bytesInMemory o (htons o port.toUInt16)).1.toNat * 256 +
      (bytesInMemory o (htons o port.toUInt16)).2.toNat = port.toNat % 2 ^ 16 := by
    rw [bytesInMemory_htons, toNat_bytes, UInt32.toNat_toUInt16]
  unfold CarriesPort
  rw [hfield]
  constructor
  · rintro ⟨x, hx, hv⟩
    cases hx
    rw [hv, ← hbytes]
    rfl
  · intro hv
    refine ⟨_, rfl, ?_⟩
    rw [hv, ← hbytes]
    rfl

/-- A `long` from 0 to 65535 comes through unchanged. -/
theorem port_of_long {v : Int} (h0 : 0 ≤ v) (h1 : v ≤ 65535) :
    v = ((unsignedOfLong v).toNat % 2 ^ 16 : Nat) := by
  unfold unsignedOfLong
  rw [UInt32.toNat_ofNat']
  omega

/-- The number a text spells, clamped to a `long`, is a port when the number itself is. -/
theorem clampLong_port (v : Int) :
    (0 ≤ clampLong v ∧ clampLong v ≤ 65535) ↔ (0 ≤ v ∧ v ≤ 65535) := by
  unfold clampLong
  omega

/-! ## §2. The text of a port. -/

/-- The library with the C library's own `strtol`. -/
def hosted (lib : Lib) : Lib := { lib with strtol := strtol }

/-- A `--dns_port` that is reached and whose text is not accepted: `main` gives up on it. -/
theorem mainScan_invalid {lib : Lib} (buf : Vector UInt8 lib.relayTokenSize) (prog : CStr)
    (gs : List (Group lib)) (s : CStr) (more : List CStr)
    (hacc : ¬ Opt.dnsPort.accepts lib s = true) :
    mainScan lib buf (prog :: (gs.flatMap Group.args ++ .ofString "--dns_port" :: s :: more)) =
      .error (.exit (.invalidParam (.ofString "--dns_port") s)) := by
  obtain ⟨argv, hargv⟩ : ∃ argv,
    prog :: (gs.flatMap Group.args ++ .ofString "--dns_port" :: s :: more) = argv := ⟨_, rfl⟩
  rw [hargv]
  have hdrop : argv.drop (0 + 1) =
      gs.flatMap Group.args ++ .ofString "--dns_port" :: s :: more := by
    rw [← hargv]
    rfl
  have hnext := drop_behind hdrop
  have hname : Opt.ofName (.ofString "--dns_port") = some .dnsPort := by decide
  have hturn : ∀ o, scanBody lib argv (0 + (gs.flatMap Group.args).length, o) =
      .error (.exit (.invalidParam (.ofString "--dns_port") s)) := by
    intro o
    rw [scanBody_option hnext hname, scanOption_param hnext (by decide) hname rfl, if_neg hacc]
  have hlen : gs.length + 1 ≤ argv.length := by
    have hle := length_groups_le gs
    rw [← hargv, List.length_cons, List.length_append]
    omega
  obtain ⟨n, hn⟩ := Nat.exists_eq_add_of_le hlen
  have hloop : scanLoop lib argv (gs.length + (n + 1)) (0, .init lib buf) =
      .error (.exit (.invalidParam (.ofString "--dns_port") s)) := by
    rw [scanLoop_takes gs (n + 1) (takes_groups gs hdrop), scanLoop, hturn]
    rfl
  have hfuel : argv.length = gs.length + (n + 1) := by omega
  unfold mainScan
  rw [hfuel, hloop]
  rfl

/-- A text that is accepted is read to its end; where it is not empty, it is the number it
    spells. -/
theorem accepted_text {lib : Lib} {s : CStr} (hacc : Opt.dnsPort.accepts (hosted lib) s = true) :
    (strtol s 10).2 = s.bytes.length ∧
      (s.bytes ≠ [] → (strtol s 10).1 = clampLong s.number) := by
  have hzero : s.charAt (strtol s 10).2 = 0 := of_decide_eq_true hacc
  have hend := (CStr.charAt_eq_zero (strtol_end_le s 10)).mp hzero
  exact ⟨hend, fun hne => strtol_ten_number hne hend⟩

/-- Both DNS addresses of a line have the DNS port of the line, where they have one at all. -/
theorem settings_dns {lib : Lib} (l : Line lib) {addr : MobileAddr}
    (h : addr = l.settings.dns1 ∨ addr = l.settings.dns2) :
    ∃ pton, addr = addrOf l.dnsPort pton := by
  have hlast : ∀ p : Option CStr, ∃ pton,
      p.elim (.other 0) (fun p => addrOf l.dnsPort (lib.inetPton p)) = addrOf l.dnsPort pton := by
    intro p
    cases p with
    | none => exact ⟨.invalid, rfl⟩
    | some p => exact ⟨lib.inetPton p, rfl⟩
  rcases h with rfl | rfl
  · exact hlast _
  · exact hlast _

/-! ## §3. The port that is used. -/

/-- **When the text is the port that is used.**  `s` is a text given to `--dns_port`, after any
    groups and before anything, and `main` does not give up with "Invalid parameter".  Then `s` is
    what it should be, a port in decimal that both DNS addresses carry, if and only if it is not
    empty and spells a number from 0 to 65535.  Where the option is repeated the last one is the one
    that is carried. -/
theorem dnsPort_iff (lib : Lib) (buf : Vector UInt8 (hosted lib).relayTokenSize) (o : ByteOrder)
    (prog : CStr) (gs : List (Group (hosted lib))) (s : CStr) (args more : List CStr)
    (hargs : args = gs.flatMap Group.args ++ .ofString "--dns_port" :: s :: more)
    (hvalid : ∀ name p,
      mainScan (hosted lib) buf (prog :: args) ≠ .error (.exit (.invalidParam name p))) :
    (s.bytes ≠ [] ∧ (strtol s 10).2 = s.bytes.length ∧
      0 ≤ (strtol s 10).1 ∧ (strtol s 10).1 ≤ 65535 ∧
      ∀ r, mainScan (hosted lib) buf (prog :: args) = .ok r →
        ∀ l : Line (hosted lib), args = l.args → lastParam l.groups .dnsPort = some s →
          ∀ dns addr, dns = r.settings.dns1 ∨ dns = r.settings.dns2 →
            convertSockaddr o (some dns) = some addr → CarriesPort o addr (strtol s 10).1) ↔
    (s.bytes ≠ [] ∧ 0 ≤ s.number ∧ s.number ≤ 65535) := by
  have hacc : Opt.dnsPort.accepts (hosted lib) s = true := by
    by_contra hno
    refine hvalid (.ofString "--dns_port") s ?_
    rw [hargs]
    exact mainScan_invalid buf prog gs s more hno
  obtain ⟨hend, hnumber⟩ := accepted_text hacc
  constructor
  · rintro ⟨hne, -, h0, h1, -⟩
    rw [hnumber hne] at h0 h1
    exact ⟨hne, (clampLong_port _).mp ⟨h0, h1⟩⟩
  · rintro ⟨hne, hrange⟩
    have hport : 0 ≤ (strtol s 10).1 ∧ (strtol s 10).1 ≤ 65535 := by
      rw [hnumber hne]
      exact (clampLong_port _).mpr hrange
    refine ⟨hne, hend, hport.1, hport.2, ?_⟩
    rintro r hr l rfl hlast dns addr hdns haddr
    -- the scan gives what the line asks for, and the line asks for this port
    obtain ⟨r', hr', hsettings⟩ := mainScan_line buf prog l
    rw [hr] at hr'
    cases hr'
    rw [hsettings] at hdns
    obtain ⟨pton, rfl⟩ := settings_dns l hdns
    have hline : l.dnsPort = unsignedOfLong (strtol s 10).1 := by
      unfold Line.dnsPort
      rw [hlast]
      rfl
    rw [convertSockaddr_carries haddr, hline]
    exact port_of_long hport.1 hport.2

/-- `--dns_port port --dns1 10.0.0.1` -/
def sampleArgs (port : String) : List CStr :=
  [.ofString "--dns_port", .ofString port, .ofString "--dns1", .ofString "10.0.0.1"]

/-- What `main` makes of it: the first DNS address, if it goes on. -/
def sampleDns1 (port : String) : Option MobileAddr :=
  (mainScan sampleLib (.replicate 16 0) (.ofString "mobile" :: sampleArgs port)).toOption.map
    fun r => r.settings.dns1

theorem sampleDns1_some {port : String} {dns : MobileAddr} (h : sampleDns1 port = some dns) :
    ∃ r, mainScan sampleLib (.replicate 16 0) (.ofString "mobile" :: sampleArgs port) = .ok r ∧
      r.settings.dns1 = dns := by
  unfold sampleDns1 at h
  cases hscan : mainScan sampleLib (.replicate 16 0) (.ofString "mobile" :: sampleArgs port) with
  | error stop =>
      rw [hscan] at h
      cases h
  | ok r =>
      rw [hscan] at h
      cases h
      exact ⟨r, rfl, rfl⟩

/-- The port 5353 is used. -/
theorem dnsPort_iff_sample :
    ∃ r, mainScan sampleLib (.replicate 16 0) (.ofString "mobile" :: sampleArgs "5353") = .ok r ∧
      convertSockaddr .little (some r.settings.dns1) =
        some (.addr4 (htons .little 5353) #v[10, 0, 0, 1]) ∧
      CarriesPort .little (.addr4 (htons .little 5353) #v[10, 0, 0, 1]) 5353 := by
  have hdns1 : sampleDns1 "5353" = some (.addr4 5353 #v[10, 0, 0, 1]) := by decide +kernel
  obtain ⟨r, hr, hdns⟩ := sampleDns1_some hdns1
  have hsock : convertSockaddr .little (some r.settings.dns1) =
      some (.addr4 (htons .little 5353) #v[10, 0, 0, 1]) := by
    rw [hdns]
    rfl
  have hiff := dnsPort_iff sampleLib (.replicate 16 0) .little (.ofString "mobile") []
    (.ofString "5353") (sampleArgs "5353") [.ofString "--dns1", .ofString "10.0.0.1"] rfl (by
      intro name p herr
      rw [show mainScan (hosted sampleLib) _ _ = .ok r from hr] at herr
      cases herr)
  obtain ⟨-, -, -, -, huse⟩ := hiff.mpr (by decide +kernel)
  refine ⟨r, hr, hsock, ?_⟩
  exact huse r hr ⟨[samplePort, sampleDns4], false, [], by simp⟩ rfl rfl _ _ (Or.inl rfl) hsock

/-- The empty text passes, with port 0; and so does 70000, for which port 4464 is used. -/
theorem dnsPort_unchecked :
    (∃ r, mainScan sampleLib (.replicate 16 0) (.ofString "mobile" :: sampleArgs "") = .ok r ∧
      (CStr.ofString "").bytes = []) ∧
    (∃ r, mainScan sampleLib (.replicate 16 0) (.ofString "mobile" :: sampleArgs "70000") = .ok r ∧
      ¬ (strtol (.ofString "70000") 10).1 ≤ 65535 ∧
      convertSockaddr .little (some r.settings.dns1) =
        some (.addr4 (htons .little 4464) #v[10, 0, 0, 1])) := by
  have hempty : sampleDns1 "" = some (.addr4 0 #v[10, 0, 0, 1]) := by decide +kernel
  have hlarge : sampleDns1 "70000" = some (.addr4 70000 #v[10, 0, 0, 1]) := by decide +kernel
  obtain ⟨r, hr, -⟩ := sampleDns1_some hempty
  obtain ⟨r', hr', hdns'⟩ := sampleDns1_some hlarge
  refine ⟨⟨r, hr, by decide⟩, r', hr', by decide +kernel, ?_⟩
  rw [hdns']
  rfl

end MobileBgb.Main
