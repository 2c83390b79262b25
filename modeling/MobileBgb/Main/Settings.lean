/-
  MobileBgb.Main.Settings — the settings a command line asks for.

  `Line.settings` is the order-free meaning of a command line: for each option the
  parameter of its LAST group, or the default.  Both DNS addresses get the DNS port in
  force at the end, wherever `--dns_port` stands.

  `CommandLine.settings` is what `main` has after the scan, read the way its callers read
  it: an address by its type, the token only where the pointer is set.  Old contents of
  the storage, the other family's bytes or the token before, do not show.
-/
import MobileBgb.Main.OptionScan

namespace MobileBgb.Main

open MobileBgb.System
open MobileBgb.Store

variable {lib : Lib}

/-! ## §1. What a line means. -/

/-- The settings, as the rest of `main` sees them. -/
structure Settings where
  fnameConfig : CStr
  device : UInt32
  deviceUnmetered : Bool
  dns1 : MobileAddr
  dns2 : MobileAddr
  dnsPort : UInt32
  p2pPort : UInt32
  relay : MobileAddr
  /-- `none` leaves the token as it is, `some none` clears it. -/
  relayToken : Option (Option (List UInt8))
  host : CStr
  port : CStr
  deriving DecidableEq

/-- The address a parameter gives, with its port. -/
def addrOf (port : UInt32) : Pton → MobileAddr
  | .ipv4 ip => .addr4 port ip
  | .ipv6 ip => .addr6 port ip
  | .invalid => .other 0

/-- The token a parameter gives: empty clears it. -/
def tokenOf (p : CStr) : Option (List UInt8) :=
  if p.bytes.length = 0 then none else some (hexBytes p.bytes)

/-- The parameter of the last group of an option. -/
def lastParam (gs : List (Group lib)) (opt : Opt) : Option CStr :=
  (lastHit (fun g => g.opt = opt) gs).map Group.value

/-- The DNS port in force at the end. -/
def Line.dnsPort (l : Line lib) : UInt32 :=
  (lastParam l.groups .dnsPort).elim lib.dnsPort fun p => unsignedOfLong (lib.strtol p 10).1

/-- What a line asks for. -/
def Line.settings (l : Line lib) : Settings where
  fnameConfig := (lastParam l.groups .config).getD (.ofString "config.bin")
  device := (lastParam l.groups .device).elim lib.adapterBlue fun p =>
    unsignedOfLong (lib.strtol p 0).1
  deviceUnmetered := (lastParam l.groups .unmetered).isSome
  dns1 := (lastParam l.groups .dns1).elim (.other 0) fun p => addrOf l.dnsPort (lib.inetPton p)
  dns2 := (lastParam l.groups .dns2).elim (.other 0) fun p => addrOf l.dnsPort (lib.inetPton p)
  dnsPort := l.dnsPort
  p2pPort := (lastParam l.groups .p2pPort).elim lib.defaultP2pPort fun p =>
    unsignedOfLong (lib.strtol p 0).1
  relay := (lastParam l.groups .relay).elim (.other 0) fun p =>
    addrOf lib.defaultRelayPort (lib.inetPton p)
  relayToken := (lastParam l.groups .relayToken).map tokenOf
  host := l.rest[0]?.getD (.ofString "127.0.0.1")
  port := l.rest[1]?.getD (.ofString "8765")

/-! ## §2. What `main` has. -/

/-- `relay_token_update` and `relay_token`: `none` if the token is not to be changed. -/
def Options.token {size : Nat} (o : Options size) : Option (Option (List UInt8)) :=
  if o.relayTokenUpdate then some (if o.relayToken then some o.relayTokenBuf.toList else none)
  else none

/-- The variables after the scan, as their readers take them. -/
def CommandLine.settings (r : CommandLine lib) : Settings where
  fnameConfig := r.options.fnameConfig
  device := r.options.device
  deviceUnmetered := r.options.deviceUnmetered
  dns1 := r.options.dns1.get
  dns2 := r.options.dns2.get
  dnsPort := r.options.dnsPort
  p2pPort := r.options.p2pPort
  relay := r.options.relay.get
  relayToken := r.options.token
  host := r.host
  port := r.port

/-! ## §3. The last group decides. -/

/-- The parameter of a group is one its option accepts. -/
theorem Group.accepts_value (g : Group lib) : g.opt.accepts lib g.value = true := by
  have htakes := g.takes
  unfold Group.value
  cases hparam : g.param with
  | none =>
      rw [hparam] at htakes
      cases hopt : g.opt with
      | unmetered => rfl
      | _ => rw [hopt] at htakes; cases htakes
  | some p => exact g.accepted p hparam

/-- Two states of the variables agree on what an option sets. -/
def Opt.Same {size : Nat} (o o' : Options size) : Opt → Prop
  | .config => o'.fnameConfig = o.fnameConfig
  | .device => o'.device = o.device
  | .unmetered => o'.deviceUnmetered = o.deviceUnmetered
  | .dns1 => o'.dns1 = o.dns1
  | .dns2 => o'.dns2 = o.dns2
  | .dnsPort => o'.dnsPort = o.dnsPort
  | .p2pPort => o'.p2pPort = o.p2pPort
  | .relay => o'.relay = o.relay
  | .relayToken => o'.relayTokenUpdate = o.relayTokenUpdate ∧ o'.relayToken = o.relayToken ∧
      o'.relayTokenBuf = o.relayTokenBuf

/-- **An option leaves alone what the others set.** -/
theorem Opt.set_same {k opt : Opt} (hne : opt ≠ k) (p : CStr) (o : Options lib.relayTokenSize) :
    k.Same o (opt.set lib p o) := by
  cases opt with
  | relayToken =>
      unfold Opt.set setRelayToken
      dsimp only
      split_ifs
      all_goals cases k with
      | relayToken => exact absurd rfl hne
      | _ => rfl
  | _ =>
      cases k with
      | relayToken => exact ⟨rfl, rfl, rfl⟩
      | _ => first | rfl | exact absurd rfl hne

/-- **The last group decides** what is read, where one option sets it. -/
theorem read_groups {β : Type} (k : Opt) (read : Options lib.relayTokenSize → β) (val : CStr → β)
    (hset : ∀ o p, k.accepts lib p = true → read (k.set lib p o) = val p)
    (hsame : ∀ o o', k.Same o o' → read o' = read o)
    (o : Options lib.relayTokenSize) (gs : List (Group lib)) :
    read (gs.foldl Group.apply o) = (lastParam gs k).elim (read o) val := by
  have hstep : ∀ o (g : Group lib), read (Group.apply o g) =
      if decide (g.opt = k) then val g.value else read o := by
    intro o g
    unfold Group.apply
    by_cases hk : g.opt = k
    · rw [hk, hset o _ (hk ▸ g.accepts_value)]
      simp
    · rw [hsame _ _ (Opt.set_same hk g.value o)]
      simp [hk]
  rw [foldl_lastHit Group.apply read _ (fun g => val g.value) hstep]
  unfold lastParam
  cases lastHit (fun g : Group lib => decide (g.opt = k)) gs with
  | none => rfl
  | some g => rfl

/-- The four host bytes read back as they were copied. -/
theorem take_copyHost4 (dest : AddrBuf) (ip : Vector UInt8 4) : (dest.copyHost4 ip).take 4 = ip := by
  apply Vector.ext
  intro i hi
  have hi : i < 4 := hi
  rw [Vector.getElem_take]
  simp [AddrBuf.copyHost4, hi]

/-- An address that was parsed reads back as its parameter says, whatever the storage held. -/
theorem get_setHost (dest : AddrBuf) (port : UInt32) {pton : Pton} (h : pton ≠ .invalid) :
    (mainSetPort (dest.setHost pton) port).get = addrOf port pton := by
  cases pton with
  | ipv4 ip => simp only [AddrBuf.setHost, mainSetPort, AddrBuf.get, addrOf, take_copyHost4]
  | ipv6 ip => rfl
  | invalid => exact absurd rfl h

/-- A token that was parsed reads back as its parameter says, whatever the buffer held. -/
theorem token_set (o : Options lib.relayTokenSize) {p : CStr}
    (h : Opt.relayToken.accepts lib p = true) : (setRelayToken o p).2.token = some (tokenOf p) := by
  unfold setRelayToken tokenOf
  by_cases hnil : p.bytes.length = 0
  · rw [if_pos hnil, if_pos hnil]
    rfl
  · have hhex : p.bytes.length = lib.relayTokenSize * 2 ∧ isHex p = true := by
      simpa [Opt.accepts, hnil] using h
    have hbuf := (mainParseHex_eq o.relayTokenBuf p hhex.1).2 hhex.2
    rw [if_neg hnil, if_neg hnil, if_pos hhex.1, ← hbuf]
    rfl

/-! ## §4. The variables after the groups. -/

section Groups

variable (o : Options lib.relayTokenSize) (gs : List (Group lib))

/-- An address that gets its port at the end. -/
theorem addr_groups (k : Opt) (addr : Options lib.relayTokenSize → AddrBuf) (port : UInt32)
    (hset : ∀ o p, addr (k.set lib p o) = (addr o).setHost (lib.inetPton p))
    (hsame : ∀ o o', k.Same o o' → addr o' = addr o)
    (hacc : ∀ p, k.accepts lib p = true → lib.inetPton p ≠ .invalid) :
    (mainSetPort (addr (gs.foldl Group.apply o)) port).get =
      (lastParam gs k).elim (mainSetPort (addr o) port).get
        fun p => addrOf port (lib.inetPton p) := by
  apply read_groups k (fun o => (mainSetPort (addr o) port).get)
  · intro o p hp
    rw [hset]
    exact get_setHost (addr o) port (hacc p hp)
  · intro o o' h
    rw [hsame o o' h]

/-- Parameters of the options that take an address. -/
theorem accepts_addr {k : Opt} (hk : k = .dns1 ∨ k = .dns2 ∨ k = .relay) {p : CStr}
    (h : k.accepts lib p = true) : lib.inetPton p ≠ .invalid := by
  rcases hk with rfl | rfl | rfl <;> exact of_decide_eq_true h

theorem relay_groups : (gs.foldl Group.apply o).relay.get =
    (lastParam gs .relay).elim o.relay.get
      fun p => addrOf lib.defaultRelayPort (lib.inetPton p) := by
  apply read_groups .relay (fun o => o.relay.get)
  · intro o p hacc
    exact get_setHost o.relay lib.defaultRelayPort (accepts_addr (by simp) hacc)
  · intro o o' hsame
    exact congrArg AddrBuf.get hsame

theorem token_groups : (gs.foldl Group.apply o).token =
    (lastParam gs .relayToken).elim o.token fun p => some (tokenOf p) := by
  apply read_groups .relayToken Options.token
  · intro o p hacc
    exact token_set o hacc
  · intro o o' hsame
    obtain ⟨hupdate, htoken, hbuf⟩ := hsame
    unfold Options.token
    rw [hupdate, htoken, hbuf]

end Groups

/-- `main` after the loop: the rest of the vector, then the DNS ports. -/
theorem mainScan_of_loop {buf : Vector UInt8 lib.relayTokenSize} {argv rest : List CStr}
    {i : Nat} {o : Options lib.relayTokenSize}
    (hloop : scanLoop lib argv argv.length (0, .init lib buf) = .ok (i, o))
    (hi : i ≤ argv.length) (hrest : argv.drop i = rest) :
    mainScan lib buf argv = .ok ⟨{ o with
      dns1 := mainSetPort o.dns1 o.dnsPort
      dns2 := mainSetPort o.dns2 o.dnsPort },
      rest[0]?.getD (.ofString "127.0.0.1"), rest[1]?.getD (.ofString "8765")⟩ := by
  unfold mainScan
  rw [hloop]
  dsimp only [bind, Except.bind]
  rw [argvAt_drop hi, hrest]
  cases rest with
  | nil =>
      dsimp only [List.head?_nil]
      rw [argvAt_drop hi, hrest]
      rfl
  | cons host rest =>
      have hnext : argv.drop (i + 1) = rest := by
        rw [← List.drop_drop, hrest]
        rfl
      have hlt : i < argv.length := by
        have hlen := congrArg List.length hrest
        rw [List.length_drop, List.length_cons] at hlen
        omega
      dsimp only [List.head?_cons]
      rw [argvAt_drop hlt, hnext]
      cases rest with
      | nil => rfl
      | cons port rest => rfl

/-- **A line is accepted, and `main` has the settings it asks for.** -/
theorem mainScan_line (buf : Vector UInt8 lib.relayTokenSize) (prog : CStr) (l : Line lib) :
    ∃ r, mainScan lib buf (prog :: l.args) = .ok r ∧ r.settings = l.settings := by
  have hturns : l.groups.length + 1 ≤ (prog :: l.args).length := by
    have hle := length_groups_le l.groups
    unfold Line.args
    rw [List.length_cons, List.length_append]
    omega
  have hrest : (prog :: l.args).drop ((prog :: l.args).length - l.rest.length) = l.rest := by
    unfold Line.args
    rw [← List.append_assoc, ← List.cons_append, List.length_append, Nat.add_sub_cancel,
      List.drop_left]
  have hscan := mainScan_of_loop (scanLoop_line l prog (.init lib buf) hturns) (by omega) hrest
  refine ⟨_, hscan, ?_⟩
  have hport : (l.groups.foldl Group.apply (.init lib buf)).dnsPort = l.dnsPort :=
    read_groups .dnsPort (fun o => o.dnsPort) _ (fun _ _ _ => rfl) (fun _ _ h => h) _ _
  have hconfig := read_groups .config (fun o => o.fnameConfig) (fun p => p) (fun _ _ _ => rfl)
    (fun _ _ h => h) (.init lib buf) l.groups
  have hdevice := read_groups .device (fun o => o.device)
    (fun p => unsignedOfLong (lib.strtol p 0).1) (fun _ _ _ => rfl) (fun _ _ h => h)
    (.init lib buf) l.groups
  have hunmetered := read_groups .unmetered (fun o => o.deviceUnmetered) (fun _ => true)
    (fun _ _ _ => rfl) (fun _ _ h => h) (.init lib buf) l.groups
  have hp2p := read_groups .p2pPort (fun o => o.p2pPort)
    (fun p => unsignedOfLong (lib.strtol p 0).1) (fun _ _ _ => rfl) (fun _ _ h => h)
    (.init lib buf) l.groups
  have hdns1 := addr_groups (.init lib buf) l.groups .dns1 (fun o => o.dns1) l.dnsPort
    (fun _ _ => rfl) (fun _ _ h => h) (fun _ => accepts_addr (by simp))
  have hdns2 := addr_groups (.init lib buf) l.groups .dns2 (fun o => o.dns2) l.dnsPort
    (fun _ _ => rfl) (fun _ _ h => h) (fun _ => accepts_addr (by simp))
  have hrelay := relay_groups (.init lib buf) l.groups
  have htoken := token_groups (.init lib buf) l.groups
  unfold CommandLine.settings Line.settings
  dsimp only
  rw [hport, hdns1, hdns2, hrelay, hconfig, hdevice, hunmetered, hp2p, Settings.mk.injEq]
  refine ⟨?_, rfl, ?_, rfl, rfl, rfl, rfl, rfl, ?_, rfl, rfl⟩
  · cases lastParam l.groups .config <;> rfl
  · cases lastParam l.groups .unmetered <;> rfl
  · refine Eq.trans htoken ?_
    cases lastParam l.groups .relayToken <;> rfl

/-- Whatever `main` does not go on with, it gives up on with a message. -/
theorem mainScan_cases (buf : Vector UInt8 lib.relayTokenSize) (prog : CStr) (args : List CStr) :
    (∃ e, mainScan lib buf (prog :: args) = .error (.exit e)) ∨ ∃ l : Line lib, args = l.args := by
  have hpos : 0 < (prog :: args).length := Nat.zero_lt_succ _
  rcases @line_or_exit lib (prog :: args) 0 (.init lib buf) hpos with ⟨e, he⟩ | hline
  · left
    refine ⟨e, ?_⟩
    unfold mainScan
    rw [he (prog :: args).length (by omega)]
    rfl
  · exact Or.inr hline

/-! ## §5. The order does not matter. -/

/-- Lines whose groups are rearranged ask for the same settings. -/
theorem settings_reordered {l l' : Line lib} (hgroups : Reordered Group.opt l.groups l'.groups)
    (hrest : l'.rest = l.rest) : l'.settings = l.settings := by
  have hlast : ∀ k, lastParam l'.groups k = lastParam l.groups k := by
    intro k
    unfold lastParam
    rw [hgroups.lastHit_eq k]
  have hport : l'.dnsPort = l.dnsPort := by
    unfold Line.dnsPort
    rw [hlast]
  unfold Line.settings
  rw [hport, hrest]
  simp only [hlast]

/-- **The scan of the options is its order-free meaning.**  For every vector: the scan comes to an
    end without leaving the vector, and where it does not give up with a message, the vector is a
    line, each turn took one group of it, and the settings are those the line asks for.  Groups of
    different options may change places. -/
theorem scan_orderFree (lib : Lib) (buf : Vector UInt8 lib.relayTokenSize) (prog : CStr) :
    (∀ args stop, mainScan lib buf (prog :: args) = .error stop → ∃ e, stop = .exit e) ∧
    (∀ args r, mainScan lib buf (prog :: args) = .ok r →
      ∃ l : Line lib, args = l.args ∧
        (∃ i o, Takes (prog :: args) (0, .init lib buf) l.groups (i, o) ∧
          scanBody lib (prog :: args) (i, o) =
            .ok (.done ((prog :: args).length - l.rest.length, o))) ∧
        r.settings = l.settings) ∧
    (∀ l l' : Line lib, Reordered Group.opt l.groups l'.groups → l'.rest = l.rest →
      ∃ r r', mainScan lib buf (prog :: l.args) = .ok r ∧
        mainScan lib buf (prog :: l'.args) = .ok r' ∧ r'.settings = r.settings) := by
  refine ⟨?_, ?_, ?_⟩
  · intro args stop hstop
    rcases mainScan_cases buf prog args with ⟨e, he⟩ | ⟨l, rfl⟩
    · rw [he] at hstop
      cases hstop
      exact ⟨e, rfl⟩
    · obtain ⟨r, hr, -⟩ := mainScan_line buf prog l
      rw [hr] at hstop
      cases hstop
  · intro args r hok
    rcases mainScan_cases buf prog args with ⟨e, he⟩ | ⟨l, rfl⟩
    · rw [he] at hok
      cases hok
    · obtain ⟨r', hr, hsettings⟩ := mainScan_line buf prog l
      rw [hr] at hok
      cases hok
      exact ⟨l, rfl, ⟨_, _, takes_line l prog (.init lib buf)⟩, hsettings⟩
  · intro l l' hgroups hrest
    obtain ⟨r, hr, hsettings⟩ := mainScan_line buf prog l
    obtain ⟨r', hr', hsettings'⟩ := mainScan_line buf prog l'
    refine ⟨r, r', hr, hr', ?_⟩
    rw [hsettings, hsettings']
    exact settings_reordered hgroups hrest

/-- libmobile's constants, and its address parser on the two addresses used below. -/
def sampleLib : Lib where
  adapterBlue := 8
  dnsPort := 53
  defaultP2pPort := 1027
  defaultRelayPort := 31227
  relayTokenSize := 16
  inetPton := fun s =>
    if s = .ofString "10.0.0.1" then .ipv4 #v[10, 0, 0, 1]
    else if s = .ofString "::1" then .ipv6 #v[0, 0, 0, 0, 0, 0, 0, 0, 0, 0, 0, 0, 0, 0, 0, 1]
    else .invalid
  strtol := strtol

/-- `--dns1 ::1` -/
def sampleDns6 : Group sampleLib :=
  ⟨.dns1, .ofString "--dns1", some (.ofString "::1"), by decide, by decide, by
    intro p hp
    cases hp
    decide⟩

/-- `--dns_port 5353` -/
def samplePort : Group sampleLib :=
  ⟨.dnsPort, .ofString "--dns_port", some (.ofString "5353"), by decide, by decide, by
    intro p hp
    cases hp
    decide⟩

/-- `--dns1 10.0.0.1` -/
def sampleDns4 : Group sampleLib :=
  ⟨.dns1, .ofString "--dns1", some (.ofString "10.0.0.1"), by decide, by decide, by
    intro p hp
    cases hp
    decide⟩

/-- `--dns1 ::1 --dns_port 5353 --dns1 10.0.0.1 -- -gb` -/
def sampleLine : Line sampleLib where
  groups := [sampleDns6, samplePort, sampleDns4]
  dashes := true
  rest := [.ofString "-gb"]
  ends := by simp

/-- The same with the port last. -/
def sampleLine' : Line sampleLib where
  groups := [sampleDns6, sampleDns4, samplePort]
  dashes := true
  rest := [.ofString "-gb"]
  ends := by simp

/-- Both lines give the IPv4 address, written over the IPv6 one, with the port 5353. -/
theorem scan_orderFree_sample :
    ∃ r r', mainScan sampleLib (.replicate 16 0) (.ofString "mobile" :: sampleLine.args) = .ok r ∧
      mainScan sampleLib (.replicate 16 0) (.ofString "mobile" :: sampleLine'.args) = .ok r' ∧
      r.settings.dns1 = .addr4 5353 #v[10, 0, 0, 1] ∧ r'.settings = r.settings ∧
      ∃ l : Line sampleLib, sampleLine.args = l.args ∧ r.settings = l.settings := by
  obtain ⟨-, hline, horder⟩ := scan_orderFree sampleLib (.replicate 16 0) (.ofString "mobile")
  obtain ⟨r, r', hr, hr', hsame⟩ := horder sampleLine sampleLine'
    (.swap [sampleDns6] samplePort sampleDns4 [] (by decide)) rfl
  obtain ⟨l, hl, -, hsettings⟩ := hline sampleLine.args r hr
  have hdns1 : (mainScan sampleLib (.replicate 16 0) (.ofString "mobile" :: sampleLine.args)).toOption.map
      (fun r => r.settings.dns1) = some (.addr4 5353 #v[10, 0, 0, 1]) := by
    decide +kernel
  rw [hr] at hdns1
  exact ⟨r, r', hr, hr', by simpa [Except.toOption] using hdns1, hsame, l, hl, hsettings⟩

end MobileBgb.Main
