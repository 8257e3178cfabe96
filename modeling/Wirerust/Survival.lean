import Wirerust.Analyzer.ArpWindows
import Wirerust.Analyzer.HttpPipelining
import Wirerust.Analyzer.TlsNames
import Wirerust.Endurance
import Wirerust.RunAnalyze

/-!
No capture makes `run_analyze` panic.

`decodePacket_comes_back` is the decoder's part: it comes back for all bytes, and the payload it
finds is a part of them. `onPacket_lasts` puts the decoder, the summary, the ARP analyzer, the
reassembler and the dispatcher together, and `runAnalyze_survives` says of whole runs for which
options there is a panic: those whose limits, in bytes, do not fit into a machine word.
-/

namespace Wirerust.Survival

open Lib Wirerust.Analyzer Wirerust.Decoder Wirerust.Dispatcher Wirerust.Endurance Wirerust.Engine
  Wirerust.EngineSpec Wirerust.Flow Wirerust.Moves Wirerust.Retiring Wirerust.RunAnalyze
  Wirerust.Volume Wirerust.Wiring
open Wirerust.Capture (DataLink RawPacket)
open Wirerust.Pipelines hiding runAnalyze

/-! ## The decoder -/

/-- The addresses are as long as the slice says. -/
def Sized (arp : ArpPacketSlice) : Prop :=
  arp.senderHwAddr.length = arp.hwAddrSize.toNat ∧
    arp.senderProtocolAddr.length = arp.protoAddrSize.toNat ∧
    arp.targetHwAddr.length = arp.hwAddrSize.toNat ∧
    arp.targetProtocolAddr.length = arp.protoAddrSize.toNat

def payloadLength : TransportSlice → Nat
  | .tcp _ payload => payload.length
  | .udp _ _ payload => payload.length
  | .icmpv4 => 0
  | .icmpv6 => 0

/-- Slices of so many bytes. -/
structure Within (size : Nat) (net : Option NetSlice) (transport : Option TransportSlice) :
    Prop where
  arp : ∀ arp, net = some (.arp arp) → Sized arp
  payload : ∀ t, transport = some t → payloadLength t ≤ size

theorem Within.mono {size size' : Nat} {net : Option NetSlice} {transport : Option TransportSlice}
    (h : Within size net transport) (hle : size ≤ size') : Within size' net transport :=
  ⟨h.arp, fun t ht => Nat.le_trans (h.payload t ht) hle⟩

/-- The slicers cut slices out of their input. -/
structure Cuts (lib : Etherparse) : Prop where
  ethernet : ∀ data p, lib.fromEthernet data = .ok p → Within data.length p.net p.transport
  ip : ∀ data p, lib.fromIp data = .ok p → Within data.length p.net p.transport
  linuxSll : ∀ data p, lib.fromLinuxSll data = .ok p → Within data.length p.net p.transport
  laxEthernet : ∀ data p, lib.laxFromEthernet data = .ok p →
    Within data.length p.net p.transport
  laxIp : ∀ data p, lib.laxFromIp data = .ok p → Within data.length p.net p.transport
  laxEtherType : ∀ etherType data, Within data.length (lib.laxFromEtherType etherType data).net
    (lib.laxFromEtherType etherType data).transport

/-- What a frame of so many bytes decodes to. -/
def Measured (size : Nat) : Decoded → Prop
  | .ok (.ip parsed packetLen) => packetLen = size ∧ parsed.payload.length ≤ size
  | .ok (.arp _) => True
  | .error _ => True

theorem extractArpFrame_returns {arp : ArpPacketSlice} (h : Sized arp)
    (source : Option Arp.Mac) (packetLen : Nat) :
    Returns (extractArpFrame arp source packetLen) fun _ => True := by
  obtain ⟨hsender, hsenderIp, htarget, htargetIp⟩ := h
  unfold extractArpFrame
  split
  · exact .pure trivial
  · rename_i hstandard
    obtain ⟨⟨⟨-, -⟩, hhw⟩, hproto⟩ : ((arp.hwAddrType = 1 ∧ arp.protoAddrType = 0x0800) ∧
        arp.hwAddrSize = 6) ∧ arp.protoAddrSize = 4 := by simpa using hstandard
    rw [hhw] at hsender htarget
    rw [hproto] at hsenderIp htargetIp
    change _ = 6 at hsender htarget
    change _ = 4 at hsenderIp htargetIp
    rw [byteArray_of_length hsender, byteArray_of_length hsenderIp,
      byteArray_of_length htarget, byteArray_of_length htargetIp]
    exact .pure trivial

theorem decodeArp_returns {arp : ArpPacketSlice} (h : Sized arp) (link : Option LinkSlice)
    (size : Nat) : Returns (decodeArp arp link size) (Measured size) :=
  (extractArpFrame_returns h _ size).bind fun frame _ => by
    cases frame with
    | none => exact .pure trivial
    | some frame => exact .pure trivial

theorem payload_buildParsed {size : Nat} {transport : Option TransportSlice}
    (h : ∀ t, transport = some t → payloadLength t ≤ size) (ip : IpTriple) :
    (buildParsed ip transport).payload.length ≤ size := by
  obtain ⟨srcIp, dstIp, ipProtocol⟩ := ip
  cases transport with
  | none => exact Nat.zero_le _
  | some t =>
    have ht := h t rfl
    cases t with
    | tcp fields payload => exact ht
    | udp sourcePort destinationPort payload => exact ht
    | icmpv4 => exact Nat.zero_le _
    | icmpv6 => exact Nat.zero_le _

/-- The arms of the two paths that find a network layer. -/
theorem decodeNet_returns {size : Nat} {net : NetSlice} {transport : Option TransportSlice}
    (h : Within size (some net) transport) (hnet : ∀ arp, net ≠ .arp arp) :
    Returns (ipTriple net >>= fun ip =>
      .ok (.ok (.ip (buildParsed ip transport) size))) (Measured size) := by
  cases net with
  | ipv4 source destination protocol =>
    exact .pure ⟨rfl, payload_buildParsed h.payload _⟩
  | ipv6 source destination ipNumber =>
    exact .pure ⟨rfl, payload_buildParsed h.payload _⟩
  | arp arp => exact absurd rfl (hnet arp)

theorem laxParse_within {lib : Etherparse} (hlib : Cuts lib) {data : List UInt8}
    {datalink : DataLink} {lax : LaxSlicedPacket} (h : laxParse lib data datalink = .ok lax) :
    Within data.length lax.net lax.transport := by
  have hmap : ∀ x : Except String LaxSlicedPacket, x.mapError parseError = .ok lax →
      x = .ok lax := by
    intro x hx
    cases x with
    | error e => cases hx
    | ok p => exact hx
  unfold laxParse at h
  split at h
  · exact hlib.laxEthernet data lax (hmap _ h)
  · split at h
    · exact hlib.laxIp data lax (hmap _ h)
    · split at h
      · split at h
        · cases h
          refine (hlib.laxEtherType _ _).mono ?_
          rw [List.length_drop]
          exact Nat.sub_le _ _
        · cases h
      · cases h

theorem decodeLax_returns {lib : Etherparse} (hlib : Cuts lib) (data : List UInt8)
    (datalink : DataLink) : Returns (decodeLax lib data datalink) (Measured data.length) := by
  unfold decodeLax
  cases hlax : laxParse lib data datalink with
  | error text => exact .pure trivial
  | ok lax =>
    have hwithin := laxParse_within hlib hlax
    simp only
    split
    · rename_i arp hnet
      exact decodeArp_returns (hwithin.arp arp hnet) lax.link data.length
    · rename_i net hother hnet
      rw [hnet] at hwithin
      exact decodeNet_returns hwithin fun arp heq => hother arp (heq ▸ rfl)
    · exact .pure trivial

theorem strictSlice_within {lib : Etherparse} (hlib : Cuts lib) {data : List UInt8}
    {datalink : DataLink} {p : SlicedPacket} (h : strictSlice lib data datalink = some (.ok p)) :
    Within data.length p.net p.transport := by
  unfold strictSlice at h
  split at h
  · exact hlib.ethernet data p (Option.some.inj h)
  · split at h
    · exact hlib.ip data p (Option.some.inj h)
    · split at h
      · exact hlib.linuxSll data p (Option.some.inj h)
      · cases h

/-- No bytes make the decoder panic. -/
theorem decodePacket_comes_back {lib : Etherparse} (hlib : Cuts lib) (data : List UInt8)
    (datalink : DataLink) : Returns (decodePacket lib data datalink) (Measured data.length) := by
  unfold decodePacket
  cases hstrict : strictSlice lib data datalink with
  | none => exact .pure trivial
  | some r =>
    cases r with
    | error e =>
      cases e with
      | len text => exact decodeLax_returns hlib data datalink
      | other text => exact .pure trivial
    | ok p =>
      have hwithin := strictSlice_within hlib hstrict
      simp only
      split
      · rename_i arp hnet
        exact decodeArp_returns (hwithin.arp arp hnet) p.link data.length
      · rename_i net hother hnet
        rw [hnet] at hwithin
        exact decodeNet_returns hwithin fun arp heq => hother arp (heq ▸ rfl)
      · exact .pure trivial

/-! ## One packet -/

/-- Bytes and frames are paid for. -/
def packetCost (raw : RawPacket) : Nat := raw.data.length + 1

section Loop

variable {libs : Libraries} {hasModbus : Bool} {threshold rate : UInt32}

/-- A reassembler that has counted no more than `n`. -/
structure Running (n : Nat) (reasm : TcpReassembler) : Prop where
  ready : Ready (view reasm)
  fits : Fits reasm.config
  opened : reasm.finalized = false
  index : reasm.packetIndex ≤ n
  bytes : spent (view reasm) ≤ n

theorem Running.mono {n n' : Nat} {reasm : TcpReassembler} (h : Running n reasm) (hle : n ≤ n') :
    Running n' reasm :=
  ⟨h.ready, h.fits, h.opened, Nat.le_trans h.index hle, Nat.le_trans h.bytes hle⟩

/-- The counters of 64 bits have room for the next packet. -/
theorem Running.processPacket {n : Nat} {reasm : TcpReassembler} (h : Running n reasm)
    (ord : IterOrder) (packet : ParsedPacket) (timestamp : UInt32) :
    ReturnsIf (n + (packet.payload.length + 1) < 2 ^ 64)
      (processPacket ord reasm packet timestamp) fun reasm' =>
        Running (n + (packet.payload.length + 1)) reasm' ∧
          Adds packet.payload.length reasm reasm' := by
  obtain ⟨hready, hfits, hopened, hindex, hbytes⟩ := h
  have hroom : n + (packet.payload.length + 1) < 2 ^ 64 →
      Fits reasm.config ∧ Room reasm 1 packet.payload.length :=
    fun hlt => ⟨hfits, by omega, by omega⟩
  have hspends := processPacket_spends ord hready packet timestamp
  have hadds := processPacket_adds ord hready packet timestamp
  refine ⟨fun hlt => hspends.1 (hroom hlt), fun reasm' hs => ?_⟩
  obtain ⟨⟨hpath, hready'⟩, hspent⟩ := hspends.2 reasm' hs
  have hclock : reasm'.packetIndex = reasm.packetIndex + 1 :=
    congrArg Prod.fst (Clock.processPacket_clock hs)
  have hconfig : reasm'.config = reasm.config := path_config hpath
  exact ⟨⟨hready', hconfig ▸ hfits, (path_finalized hpath).trans hopened, by omega, by omega⟩,
    hadds.2 reasm' hs⟩

/-- The reassembler and the dispatcher, when the packets so far had `n` bytes: what the analyzers
have been given and what is still kept is no more. -/
structure Streaming (hasModbus : Bool) (n : Nat) (reassembler : Option TcpReassembler)
    (dispatcher : StreamDispatcher (analyzers libs)) : Prop where
  streams : ∃ m, (endurance hasModbus).Hold m dispatcher ∧ m ≤ n ∧
    ∀ reasm, reassembler = some reasm → Running n reasm ∧ m + reasm.totalMemory ≤ n

/-- A summary of packets that have cost at most `n`. -/
def Summarizes (n : Nat) (summary : Summary) : Prop :=
  ∃ packets, Summary.Totals packets summary ∧
    packets.length + (packets.map Prod.snd).sum ≤ n

/-- The summary has packets that have cost `seen`, the streams those that have cost `n`. -/
structure Alive (hasModbus : Bool) (threshold rate : UInt32) (seen n : Nat)
    (s : Analysis (analyzers libs)) : Prop where
  summary : seen < 2 ^ 64 → Summarizes seen s.summary
  arp : Arp.Fits threshold rate s.arpAnalyzer
  streaming : Streaming hasModbus n s.reassembler s.dispatcher

theorem Streaming.mono {n n' : Nat} {reassembler : Option TcpReassembler}
    {dispatcher : StreamDispatcher (analyzers libs)}
    (h : Streaming hasModbus n reassembler dispatcher) (hle : n ≤ n') :
    Streaming hasModbus n' reassembler dispatcher := by
  obtain ⟨m, hhold, hm, hreasm⟩ := h.streams
  refine ⟨m, hhold, Nat.le_trans hm hle, fun reasm heq => ?_⟩
  obtain ⟨hrunning, hmem⟩ := hreasm reasm heq
  exact ⟨hrunning.mono hle, Nat.le_trans hmem hle⟩

theorem Alive.mono {seen seen' n n' : Nat} {s : Analysis (analyzers libs)}
    (h : Alive hasModbus threshold rate seen n s) (hseen : seen ≤ seen') (hle : n ≤ n') :
    Alive hasModbus threshold rate seen' n' s := by
  refine ⟨fun hlt => ?_, h.arp, h.streaming.mono hle⟩
  obtain ⟨packets, htotals, hsum⟩ := h.summary (Nat.lt_of_le_of_lt hseen hlt)
  exact ⟨packets, htotals, Nat.le_trans hsum hseen⟩

/-- The calls that an operation of the reassembler makes are handled. -/
theorem Streaming.handle {n m bytes : Nat} {reasm reasm' : TcpReassembler}
    {dispatcher : StreamDispatcher (analyzers libs)}
    (hhold : (endurance hasModbus).Hold m dispatcher) (hmem : m + reasm.totalMemory ≤ n)
    (hadds : Adds bytes reasm reasm') :
    ReturnsIf (n + bytes < capacity hasModbus)
      (run CoverageGaps.handle dispatcher (reasm'.events.drop reasm.events.length))
      fun dispatcher' => ∃ m', (endurance hasModbus).Hold m' dispatcher' ∧
        m' + reasm'.totalMemory ≤ n + bytes := by
  obtain ⟨new, hevents, hle⟩ := hadds
  rw [hevents, List.drop_left]
  have hrun := (handle_lasts (endurance_last libs hasModbus)).run hhold new
  change ReturnsIf (m + delivered new < capacity hasModbus) _
    ((endurance hasModbus).Hold (m + delivered new)) at hrun
  exact (hrun.imp fun hlt => by omega).mono fun d hd => ⟨_, hd, by omega⟩

theorem Alive.reassemble (ord : Orders) {seen n : Nat} {s : Analysis (analyzers libs)}
    (h : Alive hasModbus threshold rate seen n s) (parsed : ParsedPacket)
    (timestampSecs : UInt32) :
    ReturnsIf (n + (parsed.payload.length + 1) < capacity hasModbus)
      (Pipelines.reassemble ord s parsed timestampSecs)
      (Alive hasModbus threshold rate seen (n + (parsed.payload.length + 1))) := by
  have hcapacity := capacity_le hasModbus
  unfold Pipelines.reassemble
  cases hreasm : s.reassembler with
  | none => exact .pure (h.mono (Nat.le_refl seen) (Nat.le_add_right n _))
  | some reasm =>
    obtain ⟨m, hhold, -, hknown⟩ := h.streaming.streams
    obtain ⟨hrunning, hmem⟩ := hknown reasm hreasm
    have hpacket := hrunning.processPacket ord.iter parsed timestampSecs
    refine (hpacket.imp fun hlt => by omega).bind fun reasm' ⟨hrunning', hadds⟩ => ?_
    have hhandle := Streaming.handle hhold hmem hadds
    refine (hhandle.imp fun hlt => by omega).bind fun dispatcher' ⟨m', hhold', hmem'⟩ => ?_
    refine .pure ⟨h.summary, h.arp, m', hhold', by omega, fun r hr => ?_⟩
    cases hr
    exact ⟨hrunning', by omega⟩

theorem Alive.analyzeDns {seen n : Nat} {s : Analysis (analyzers libs)} (flags : Flags)
    (h : Alive hasModbus threshold rate seen n s) (parsed : ParsedPacket) :
    Alive hasModbus threshold rate seen n (Pipelines.analyzeDns flags s parsed) := by
  unfold Pipelines.analyzeDns
  split
  · exact ⟨h.summary, h.arp, h.streaming⟩
  · exact h

theorem Alive.countGap {seen n : Nat} {s : Analysis (analyzers libs)} (flags : Flags)
    (h : Alive hasModbus threshold rate seen n s) (parsed : ParsedPacket) :
    Alive hasModbus threshold rate seen n (Pipelines.countGap flags s parsed) := by
  unfold Pipelines.countGap
  split
  · split
    · exact ⟨h.summary, h.arp, h.streaming⟩
    · exact h
  · exact h

theorem Summarizes.ingest {n : Nat} {summary : Summary} (h : Summarizes n summary)
    (parsed : ParsedPacket) {packetLen : Nat} (hlt : n + (packetLen + 1) < 2 ^ 64) :
    Returns (summary.ingest parsed packetLen) (Summarizes (n + (packetLen + 1))) := by
  obtain ⟨packets, htotals, hsum⟩ := h
  have hlength : (packets ++ [(parsed, packetLen)]).length = packets.length + 1 :=
    List.length_append
  have hbytes : ((packets ++ [(parsed, packetLen)]).map Prod.snd).sum =
      (packets.map Prod.snd).sum + packetLen := by simp
  refine (htotals.ingest (p := (parsed, packetLen)) (by omega) (by omega)).mono
    fun summary' htotals' => ⟨_, htotals', ?_⟩
  rw [hlength, hbytes]
  omega

theorem Alive.ingest {n : Nat} {s : Analysis (analyzers libs)}
    (h : Alive hasModbus threshold rate n n s) (parsed : ParsedPacket) (packetLen : Nat) :
    ReturnsIf (n + (packetLen + 1) < capacity hasModbus) (s.summary.ingest parsed packetLen)
      fun summary =>
        Alive hasModbus threshold rate (n + (packetLen + 1)) n { s with summary := summary } := by
  have hcapacity := capacity_le hasModbus
  refine ⟨fun hlt => ?_, fun summary hsummary => ⟨fun hlt => ?_, h.arp, h.streaming⟩⟩
  · have hword := Nat.lt_of_lt_of_le hlt hcapacity
    have hbefore := h.summary (Nat.lt_of_le_of_lt (Nat.le_add_right n _) hword)
    exact ⟨_, ((hbefore.ingest parsed hword).eq_valueOr .new).1⟩
  · have hbefore := h.summary (Nat.lt_of_le_of_lt (Nat.le_add_right n _) hlt)
    exact (hbefore.ingest parsed hlt).apply hsummary

theorem Alive.analyzeIp (flags : Flags) (ord : Orders) {n : Nat} {s : Analysis (analyzers libs)}
    (h : Alive hasModbus threshold rate n n s) {parsed : ParsedPacket} {packetLen : Nat}
    (hload : parsed.payload.length ≤ packetLen) (timestampSecs : UInt32) :
    ReturnsIf (n + (packetLen + 1) < capacity hasModbus)
      (Pipelines.analyzeIp flags ord s parsed packetLen timestampSecs)
      (Alive hasModbus threshold rate (n + (packetLen + 1)) (n + (packetLen + 1))) := by
  refine (h.ingest parsed packetLen).bind fun summary hsummary => ?_
  have hstream := (hsummary.analyzeDns flags parsed).reassemble ord parsed timestampSecs
  refine (hstream.imp fun hlt => by omega).bind fun s' hs' => .pure ?_
  exact (hs'.countGap flags parsed).mono (Nat.le_refl _) (by omega)

theorem Alive.analyzeArp (flags : Flags) (ord : Orders) {n : Nat} {s : Analysis (analyzers libs)}
    (h : Alive hasModbus threshold rate n n s) (frame : Arp.ArpFrame) (timestampSecs : UInt32)
    (φ : Prop) : ReturnsIf φ (Pipelines.analyzeArp flags ord s frame timestampSecs)
      (Alive hasModbus threshold rate n n) := by
  unfold Pipelines.analyzeArp
  split
  · have harp : Returns (Arp.processArp ord.tables s.arpAnalyzer frame timestampSecs)
        fun r => Arp.Fits threshold rate r.1 := by
      obtain ⟨r, hr⟩ := h.arp.returns ord.tables ⟨frame, timestampSecs⟩
      exact ⟨r, hr, h.arp.step (a := ⟨frame, timestampSecs⟩) hr⟩
    exact (harp.returnsIf φ).bind fun r hr => .pure ⟨h.summary, hr, h.streaming⟩
  · exact .pure h

theorem Alive.analyzeMalformed (flags : Flags) {n : Nat} {s : Analysis (analyzers libs)}
    (h : Alive hasModbus threshold rate n n s) (packetLen : Nat) :
    Alive hasModbus threshold rate n n (Pipelines.analyzeMalformed flags s packetLen) := by
  have harp := h.arp
  unfold Pipelines.analyzeMalformed
  split <;>
    exact ⟨h.summary, ⟨harp.bindings, harp.counters, harp.threshold, harp.rate, harp.flaps,
      harp.storms⟩, h.streaming⟩

theorem onPacket_lasts {lib : Etherparse} (hlib : Cuts lib) (flags : Flags) (ord : Orders)
    (datalink : DataLink) :
    Lasts (capacity hasModbus) (onPacket (a := analyzers libs) lib flags ord datalink) packetCost
      (fun n => Alive hasModbus threshold rate n n) where
  mono := fun n n' s hle h => h.mono hle hle
  step := fun n s raw h => by
    have hnext := h.mono (Nat.le_add_right n (packetCost raw)) (Nat.le_add_right n (packetCost raw))
    refine ((decodePacket_comes_back hlib raw.data datalink).returnsIf _).bind fun decoded hd => ?_
    unfold analyzePacket
    cases decoded with
    | ok frame =>
      cases frame with
      | ip parsed packetLen =>
        obtain ⟨rfl, hload⟩ := hd
        exact h.analyzeIp flags ord hload raw.timestampSecs
      | arp frame => exact hnext.analyzeArp flags ord frame raw.timestampSecs _
    | error e =>
      simp only
      split
      · exact .pure (hnext.analyzeMalformed flags raw.data.length)
      · exact .pure ⟨hnext.summary, hnext.arp, hnext.streaming⟩

/-! ## Files and targets -/

def fileCost : CaptureFile → Nat
  | .error _ => 0
  | .ok source => Lasts.spent packetCost source.packets

def targetCost : Target → Nat
  | .error _ => 0
  | .ok files => Lasts.spent fileCost files

theorem onFile_lasts {lib : Etherparse} (hlib : Cuts lib) (flags : Flags) (ord : Orders) :
    Lasts (capacity hasModbus) (onFile (a := analyzers libs) lib flags ord) fileCost
      (fun n => Alive hasModbus threshold rate n n) where
  mono := fun n n' s hle h => h.mono hle hle
  step := fun n s file h => by
    cases file with
    | error e => exact .pure ⟨h.summary, h.arp, h.streaming⟩
    | ok source =>
      simp only [onFile]
      by_cases hempty : source.packets.isEmpty
      · rw [if_pos hempty]
        exact .pure (h.mono (Nat.le_add_right n _) (Nat.le_add_right n _))
      · rw [if_neg hempty]
        exact (onPacket_lasts hlib flags ord source.datalink).run h source.packets

/-- The invariant of a loop that may have been left. -/
def Unless {α : Type} (P : α → Prop) (r : Except String α) : Prop := ∀ a, r = .ok a → P a

theorem onTargets_alive {lib : Etherparse} (hlib : Cuts lib) (flags : Flags) (ord : Orders)
    {n : Nat} {s : Analysis (analyzers libs)} (h : Alive hasModbus threshold rate n n s)
    (targets : List Target) :
    ReturnsIf (n + Lasts.spent targetCost targets < capacity hasModbus)
      (onTargets lib flags ord s targets) (Unless fun s' => ∃ n',
        n' ≤ n + Lasts.spent targetCost targets ∧ Alive hasModbus threshold rate n' n' s') := by
  induction targets generalizing n s with
  | nil =>
    refine .pure fun s' hs' => ?_
    cases hs'
    exact ⟨n, Nat.le_add_right n _, h⟩
  | cons target targets ih =>
    rw [Lasts.spent_cons, ← Nat.add_assoc]
    cases target with
    | error message => exact .pure fun s' hs' => by cases hs'
    | ok files =>
      have hfiles := (onFile_lasts hlib flags ord).run h files
      refine (hfiles.imp fun hlt => ?_).bind fun s' hs' => ih hs'
      exact Nat.lt_of_le_of_lt (Nat.le_add_right _ _) hlt

/-! ## The end -/

/-- The reassembler is through with its flows. -/
def Drained (s : Analysis (analyzers libs)) : Prop :=
  ∀ reasm, s.reassembler = some reasm →
    reasm.finalized = true ∧ reasm.flows.entries = [] ∧ reasm.totalMemory = 0

theorem finalize_drains (ord : IterOrder) {reasm : TcpReassembler} (hr : Ready (view reasm))
    (hfin : reasm.finalized = false) : Returns (finalize ord reasm) fun reasm' =>
      reasm'.finalized = true ∧ reasm'.flows.entries = [] ∧ reasm'.totalMemory = 0 := by
  refine (finalize_closes ord hr.wf hfin).mono fun reasm' ⟨hret, hflows, hmem⟩ => ?_
  exact ⟨(Retires.shrinks hret).finalized, hflows, hmem⟩

theorem finalizeStreams_drains (ord : Orders) {n : Nat} {s : Analysis (analyzers libs)}
    (h : Streaming hasModbus n s.reassembler s.dispatcher) :
    ReturnsIf (n < capacity hasModbus) (finalizeStreams ord s) Drained := by
  unfold finalizeStreams
  cases hreasm : s.reassembler with
  | none =>
    refine .pure fun reasm heq => ?_
    rw [hreasm] at heq
    cases heq
  | some reasm =>
    obtain ⟨m, hhold, -, hknown⟩ := h.streams
    obtain ⟨hrunning, hmem⟩ := hknown reasm hreasm
    have hready := hrunning.ready
    have hfinal := ((finalize_adds ord.iter hready).returnsIf (n < capacity hasModbus)).and
      ((finalize_drains ord.iter hready hrunning.opened).returnsIf _)
    refine hfinal.bind fun reasm' ⟨hadds, hdrained⟩ => ?_
    refine (Streaming.handle hhold hmem hadds).bind fun dispatcher' _ => .pure fun r hr => ?_
    cases hr
    exact hdrained

theorem conclude_drains (ord : Orders) {n : Nat} {s : Analysis (analyzers libs)}
    (h : Streaming hasModbus n s.reassembler s.dispatcher) :
    ReturnsIf (n < capacity hasModbus) (conclude ord s) Drained :=
  ReturnsIf.bind (finalizeStreams_drains ord h) fun _ hs' => .pure hs'

end Loop

/-! ## Options -/

/-- Depth and memory cap, in bytes, fit into a machine word. -/
def Affordable (o : Options) : Prop :=
  o.reassemblyDepth * 1048576 < 2 ^ 64 ∧ o.reassemblyMemcap * 1048576 < 2 ^ 64

instance (o : Options) : Decidable (Affordable o) := inferInstanceAs (Decidable (_ ∧ _))

def hasModbus (o : Options) : Bool := o.enableModbus && !o.noReassemble

theorem reassemblyConfig_returns {o : Options} (h : Affordable o) :
    Returns o.reassemblyConfig fun config => 0 < config.maxDepth ∧ 0 < config.memcap ∧
      config.maxFlows = 100000 ∧ config.maxSegmentsPerDirection = 10000 ∧
      config.maxReceiveWindow = 1048576 := by
  unfold Options.reassemblyConfig
  rw [checkedProduct_of_lt h.1, checkedProduct_of_lt h.2]
  refine .pure ⟨?_, ?_, rfl, rfl, rfl⟩
  · exact Nat.mul_pos o.depth_pos (by decide)
  · exact Nat.mul_pos o.memcap_pos (by decide)

theorem of_checkedProduct {w a b n : Nat} (h : checkedProduct w a b = .ok n) : a * b < 2 ^ w := by
  unfold checkedProduct at h
  split at h
  · assumption
  · cases h

theorem affordable_of_config {o : Options} {config : ReassemblyConfig}
    (h : o.reassemblyConfig = .ok config) : Affordable o := by
  obtain ⟨maxDepth, hdepth, h⟩ := bind_eq_ok.mp h
  obtain ⟨memcap, hmemcap, -⟩ := bind_eq_ok.mp h
  exact ⟨of_checkedProduct hdepth, of_checkedProduct hmemcap⟩

/-- The reassembler before the first packet. -/
def Fresh (reassembler : Option TcpReassembler) : Prop :=
  ∀ reasm, reassembler = some reasm → Running 0 reasm

theorem reassembler_fresh {o : Options} (h : o.streams = true → Affordable o) :
    Returns o.reassembler Fresh := by
  unfold Options.reassembler
  by_cases hstreams : o.streams = true
  · rw [if_pos hstreams]
    refine (reassemblyConfig_returns (h hstreams)).bind fun config ⟨hdepth, hmemcap, hflows,
      hsegments, hwindow⟩ => ?_
    have hnew : ∃ reasm, TcpReassembler.new config = .ok reasm := by
      unfold TcpReassembler.new
      rw [assertThat_of hdepth, assertThat_of hmemcap, assertThat_of (by omega),
        assertThat_of (by omega), assertThat_of (by omega)]
      exact ⟨_, rfl⟩
    obtain ⟨reasm, hnew⟩ := hnew
    obtain ⟨hready, hconfig⟩ := EngineSpec.ready_new hnew
    have hview := (new_eq_ok hnew).2
    rw [hnew]
    refine .pure fun r hr => ?_
    cases hr
    have hfits : Fits reasm.config := by
      rw [hconfig, Retiring.Fits, hflows]
      decide
    have hindex : reasm.packetIndex = 0 := congrArg Prod.fst (new_clock hnew)
    have hspent : spent (view reasm) = 0 := congrArg spent hview
    exact ⟨hready, hfits, congrArg View.finalized hview, Nat.le_of_eq hindex, Nat.le_of_eq hspent⟩
  · rw [if_neg hstreams]
    exact .pure fun reasm hr => by cases hr

theorem affordable_of_reassembler {o : Options} {reassembler : Option TcpReassembler}
    (h : o.reassembler = .ok reassembler) (hstreams : o.streams = true) : Affordable o := by
  rw [Options.reassembler, if_pos hstreams] at h
  obtain ⟨config, hconfig, -⟩ := bind_eq_ok.mp h
  exact affordable_of_config hconfig

/-! ## All runs -/

theorem given_eq_some {α : Type} {o : Options} {enabled : Bool} {analyzer b : α}
    (h : o.given enabled analyzer = some b) :
    b = analyzer ∧ (enabled && !o.noReassemble) = true := by
  unfold Options.given at h
  split at h
  · cases h
    exact ⟨rfl, by assumption⟩
  · cases h

/-- A table of an analyzer that has seen nothing. -/
theorem heldTable_given {σ ν : Type} {m : Wiring.Streaming σ} {flows : σ → SortedMap FlowKey ν}
    {I : Nat → σ → Prop} {o : Options} {enabled : Bool} {analyzer : σ}
    (hempty : flows analyzer = .empty) (hI : I 0 analyzer) :
    HeldTable m flows I 0 ((o.given enabled analyzer).map Table.new) := by
  intro t ht
  obtain ⟨s, hs, rfl⟩ := Option.map_eq_some_iff.mp ht
  obtain ⟨rfl, -⟩ := given_eq_some hs
  exact ⟨tracks_new hempty, hI⟩

theorem hold_setup (o : Options) (libs : Libraries) :
    (endurance (hasModbus o)).Hold 0 (o.setup libs).dispatcher where
  http := heldTable_given rfl httpWithin_new
  tls := heldTable_given rfl Tls.sound_new
  modbus := fun s hs => by
    obtain ⟨t, ht, rfl⟩ := Option.map_eq_some_iff.mp hs
    obtain ⟨rfl, henabled⟩ := given_eq_some ht
    exact ⟨henabled, modbusWithin_new _ _⟩
  dnp3 := fun s hs => by
    obtain ⟨t, -, rfl⟩ := Option.map_eq_some_iff.mp hs
    exact dnp3Within_new t
  enip := heldTable_given rfl (Enip.walks_new _ _)
  iec104 := heldTable_given rfl trivial

theorem alive_start (o : Options) (libs : Libraries) {reassembler : Option TcpReassembler}
    (h : Fresh reassembler) :
    Alive (hasModbus o) o.arpSpoofThreshold o.arpStormRate 0 0 (o.start libs reassembler) where
  summary := fun _ => ⟨[], Summary.totals_new, Nat.le_refl 0⟩
  arp := Arp.fits_new _ _
  streaming := by
    refine ⟨0, hold_setup o libs, Nat.le_refl 0, fun reasm heq => ?_⟩
    have hrunning := h reasm heq
    have hmem : reasm.totalMemory ≤ spent (view reasm) := Nat.le_add_left _ _
    exact ⟨hrunning, (Nat.zero_add _).trans_le (Nat.le_trans hmem hrunning.bytes)⟩

/-- The run from its reassembler on. -/
theorem onTargets_drains {lib : Etherparse} (hlib : Cuts lib) (libs : Libraries) (ord : Orders)
    (o : Options) {targets : List Target}
    (hsize : Lasts.spent targetCost targets < capacity (hasModbus o))
    {reassembler : Option TcpReassembler} (hfresh : Fresh reassembler) :
    Returns (onTargets lib o.flags ord (o.start libs reassembler) targets >>= report ord)
      (Unless Drained) := by
  have htargets := onTargets_alive hlib o.flags ord (alive_start o libs hfresh) targets
  rw [Nat.zero_add] at htargets
  refine (htargets.returns hsize).bind fun r hr => ?_
  cases r with
  | error message => exact .pure fun s hs => by cases hs
  | ok s =>
    obtain ⟨n, hle, halive⟩ := hr s rfl
    refine ((conclude_drains ord halive.streaming).returns (by omega)).bind fun s' hs' => ?_
    exact .pure fun s'' heq => by
      cases heq
      exact hs'

theorem runAnalyze_returns_iff {lib : Etherparse} (hlib : Cuts lib) (libs : Libraries)
    (ord : Orders) (o : Options) {targets : List Target}
    (hsize : Lasts.spent targetCost targets < capacity (hasModbus o)) :
    (∃ r, runAnalyze lib libs ord o targets = .ok r) ↔
      (o.refusal = none → o.streams = true → Affordable o) := by
  unfold runAnalyze
  cases hrefusal : o.refusal with
  | some message => exact ⟨fun _ h => (by cases h), fun _ => ⟨_, rfl⟩⟩
  | none =>
    simp only
    refine ⟨fun ⟨r, hr⟩ _ hstreams => ?_, fun h => ?_⟩
    · obtain ⟨reassembler, hreassembler, -⟩ := bind_eq_ok.mp hr
      exact affordable_of_reassembler hreassembler hstreams
    · obtain ⟨reassembler, hreassembler, hfresh⟩ := reassembler_fresh (h trivial)
      rw [hreassembler]
      obtain ⟨r, hr, -⟩ := onTargets_drains hlib libs ord o hsize hfresh
      exact ⟨r, hr⟩

theorem runAnalyze_drained {lib : Etherparse} (hlib : Cuts lib) {libs : Libraries}
    {ord : Orders} {o : Options} {targets : List Target}
    (hsize : Lasts.spent targetCost targets < capacity (hasModbus o))
    {s : Analysis (analyzers libs)} (hs : runAnalyze lib libs ord o targets = .ok (.ok s)) :
    Drained s := by
  unfold runAnalyze at hs
  cases hrefusal : o.refusal with
  | some message =>
    rw [hrefusal] at hs
    cases hs
  | none =>
    rw [hrefusal] at hs
    obtain ⟨reassembler, hreassembler, hs⟩ := bind_eq_ok.mp hs
    have hfresh := (reassembler_fresh (affordable_of_reassembler hreassembler)).apply hreassembler
    exact (onTargets_drains hlib libs ord o hsize hfresh).apply hs s rfl

/-- A run panics if and only if the limits of its reassembler do not fit into a machine word, and
a run with a report has closed all flows. -/
theorem runAnalyze_survives (lib : Etherparse) (hlib : Cuts lib) (libs : Libraries) (ord : Orders)
    (o : Options) (targets : List Target)
    (hsize : Lasts.spent targetCost targets < capacity (hasModbus o)) :
    ((∃ r, runAnalyze lib libs ord o targets = .ok r) ↔
        (o.refusal = none → o.streams = true → Affordable o)) ∧
      ∀ s, runAnalyze lib libs ord o targets = .ok (.ok s) → Drained s :=
  ⟨runAnalyze_returns_iff hlib libs ord o hsize, fun _ hs => runAnalyze_drained hlib hsize hs⟩

/-- Only IPv4 and TCP, without options and behind no other header. -/
def plainIp : Etherparse where
  fromEthernet := fun _ => .error (.other "no IP")
  fromIp := fun data =>
    match AnalyzeLoop.plainTcp data .raw with
    | .ok (.ip ⟨.v4 source, .v4 destination, _, .tcp fields, payload⟩ _) =>
      .ok ⟨none, some (.ipv4 source destination 6), some (.tcp fields payload)⟩
    | _ => .error (.other "no TCP")
  fromLinuxSll := fun _ => .error (.other "no IP")
  laxFromEthernet := fun _ => .error "no IP"
  laxFromIp := fun _ => .error "no IP"
  laxFromEtherType := fun _ _ => ⟨none, [], none, none, none⟩
  arpFromSlice := fun _ => none
  showDataLink := fun _ => "RAW"

theorem plainIp_cuts : Cuts plainIp where
  ethernet := fun data p h => by cases h
  ip := fun data p h => by
    unfold plainIp AnalyzeLoop.plainTcp at h
    simp only at h
    split at h
    · rename_i htcp
      split at htcp
      · cases htcp
        cases h
        refine ⟨fun arp harp => ?_, fun t ht => ?_⟩
        · cases harp
        · cases ht
          rw [payloadLength, List.length_drop]
          exact Nat.sub_le _ _
      · cases htcp
    · cases h
  linuxSll := fun data p h => by cases h
  laxEthernet := fun data p h => by cases h
  laxIp := fun data p h => by cases h
  laxEtherType := fun etherType data => by
    refine ⟨fun arp h => ?_, fun t h => ?_⟩
    · cases h
    · cases h

def plainLibraries : Libraries := ⟨Http.lineParser, Tls.namingParser, Dnp3.keyOrder⟩

/-- `analyze --all`, with a depth in MiB. -/
def allAnalyzers (depth : Nat) (hpos : 0 < depth) : Options where
  enableDns := true
  enableHttp := true
  enableTls := true
  enableModbus := true
  modbusWriteBurstThreshold := 20
  modbusWriteSustainedThreshold := 10
  enableDnp3 := true
  dnp3DirectOperateThreshold := 10
  enableArp := true
  arpSpoofThreshold := 3
  arpStormRate := 50
  enableEnip := true
  enipWriteBurstThreshold := 50
  enipErrorBurstThreshold := 5
  enableIec104 := true
  coverageGaps := false
  reassemble := false
  noReassemble := false
  reassemblyDepth := depth
  reassemblyMemcap := 1024
  overlapThreshold := none
  smallSegmentThreshold := none
  smallSegmentMaxBytes := none
  smallSegmentIgnorePorts := none
  outOfWindowThreshold := none
  flowTimeout := 300
  depth_pos := hpos
  memcap_pos := by decide

/-- With the default depth there is no panic, with a depth of 2^44 MiB there is one. -/
theorem runAnalyze_survives_exchange :
    (∃ r, runAnalyze plainIp plainLibraries Pipelines.plainOrders (allAnalyzers 10 (by decide))
      [.ok [AnalyzeLoop.exchangeFile]] = .ok r) ∧
    ¬ ∃ r, runAnalyze plainIp plainLibraries Pipelines.plainOrders
      (allAnalyzers (2 ^ 44) (by decide)) [.ok [AnalyzeLoop.exchangeFile]] = .ok r := by
  constructor
  · exact (runAnalyze_survives plainIp plainIp_cuts plainLibraries Pipelines.plainOrders
      (allAnalyzers 10 (by decide)) [.ok [AnalyzeLoop.exchangeFile]] (by decide)).1.mpr
      fun _ _ => by decide
  · intro h
    have hword := (runAnalyze_survives plainIp plainIp_cuts plainLibraries Pipelines.plainOrders
      (allAnalyzers (2 ^ 44) (by decide)) [.ok [AnalyzeLoop.exchangeFile]] (by decide)).1.mp h
    exact absurd (hword rfl rfl) (by decide)

end Wirerust.Survival
