import Wirerust.Decoder

/-!
ARP frames on Ethernet.

Such a frame is decoded on one of three paths: strict slicing, lax slicing, or a look at the bytes
where both slicers stop. What the slicers do with it is `Slices`, and the lengths in the payload
decide on the path. `decodePacket_arp` says that the result is that of the payload on all of them.
-/

namespace Wirerust.Decoder

open Lib Wirerust.Analyzer Wirerust.Capture
open Wirerust.Arp (Mac Ipv4 ArpFrame)

/-! ## Frames -/

/-- Hardware type Ethernet, protocol type IPv4, and their lengths. -/
def EthernetIpv4 (p : List UInt8) : Prop :=
  beU16 (byteAt p 0) (byteAt p 1) = 0x0001 ∧ beU16 (byteAt p 2) (byteAt p 3) = 0x0800 ∧
    byteAt p 4 = 6 ∧ byteAt p 5 = 4

instance (p : List UInt8) : Decidable (EthernetIpv4 p) := inferInstanceAs (Decidable (_ ∧ _))

/-- Part of a payload. -/
def field (p : List UInt8) (start length : Nat) : List UInt8 := (p.drop start).take length

theorem length_field {p : List UInt8} {start length : Nat} (h : start + length ≤ p.length) :
    (field p start length).length = length := by
  rw [field, List.length_take, List.length_drop]
  omega

/-- 802.1Q, 802.1ad and the older type of stacked tags. -/
def vlanTypes : List (UInt8 × UInt8) := [(0x81, 0x00), (0x88, 0xa8), (0x91, 0x00)]

structure VlanTag where
  type : UInt8 × UInt8
  control : UInt8 × UInt8
  known : type ∈ vlanTypes

def VlanTag.bytes (t : VlanTag) : List UInt8 := [t.type.1, t.type.2, t.control.1, t.control.2]

/-- An Ethernet II frame with up to three tags and EtherType 0x0806. -/
structure ArpEthernet where
  destination : List UInt8
  source : List UInt8
  tags : List VlanTag
  payload : List UInt8
  destination_length : destination.length = 6
  source_length : source.length = 6
  tags_length : tags.length ≤ 3

namespace ArpEthernet

def bytes (f : ArpEthernet) : List UInt8 :=
  f.destination ++ (f.source ++ (f.tags.flatMap VlanTag.bytes ++ ([0x08, 0x06] ++ f.payload)))

def sourceMac (f : ArpEthernet) : Mac := BitVec.ofNat 48 (bigEndian f.source)

/-- The fields of a payload of the usual kind. -/
def frame (f : ArpEthernet) : ArpFrame where
  operation := beU16 (byteAt f.payload 6) (byteAt f.payload 7)
  senderMac := BitVec.ofNat 48 (bigEndian (field f.payload 8 6))
  senderIp := BitVec.ofNat 32 (bigEndian (field f.payload 14 4))
  targetMac := BitVec.ofNat 48 (bigEndian (field f.payload 18 6))
  targetIp := BitVec.ofNat 32 (bigEndian (field f.payload 24 4))
  outerSrcMac := some f.sourceMac
  packetLen := f.bytes.length

theorem length_tags (tags : List VlanTag) :
    (tags.flatMap VlanTag.bytes).length = 4 * tags.length := by
  induction tags with
  | nil => rfl
  | cons t tags ih =>
    rw [List.flatMap_cons, List.length_append, ih, List.length_cons]
    simp only [VlanTag.bytes, List.length_cons, List.length_nil]
    omega

theorem drop_bytes (f : ArpEthernet) : f.bytes.drop (14 + 4 * f.tags.length) = f.payload := by
  have hlink : (f.destination ++ (f.source ++
      (f.tags.flatMap VlanTag.bytes ++ [0x08, 0x06]))).length = 14 + 4 * f.tags.length := by
    simp only [List.length_append, f.destination_length, f.source_length, length_tags,
      List.length_cons, List.length_nil]
    omega
  have hbytes : f.bytes =
      (f.destination ++ (f.source ++ (f.tags.flatMap VlanTag.bytes ++ [0x08, 0x06]))) ++
        f.payload := by
    simp only [bytes, List.append_assoc]
  rw [hbytes, List.drop_left' hlink]

end ArpEthernet

/-! ## What the crate promises -/

/-- The lengths of the payload leave room for the two addresses of each kind. -/
def ArpFits (p : List UInt8) : Prop :=
  8 ≤ p.length ∧ 8 + 2 * (byteAt p 4).toNat + 2 * (byteAt p 5).toNat ≤ p.length

instance (p : List UInt8) : Decidable (ArpFits p) := inferInstanceAs (Decidable (_ ∧ _))

/-- The fields where ARP has them. -/
def arpFields (p : List UInt8) : ArpPacketSlice :=
  let hlen := (byteAt p 4).toNat
  let plen := (byteAt p 5).toNat
  { hwAddrType := beU16 (byteAt p 0) (byteAt p 1)
    protoAddrType := beU16 (byteAt p 2) (byteAt p 3)
    hwAddrSize := byteAt p 4
    protoAddrSize := byteAt p 5
    operation := beU16 (byteAt p 6) (byteAt p 7)
    senderHwAddr := field p 8 hlen
    senderProtocolAddr := field p (8 + hlen) plen
    targetHwAddr := field p (8 + hlen + plen) hlen
    targetProtocolAddr := field p (8 + hlen + plen + hlen) plen }

/-- What the slicers do with a frame that carries ARP. -/
structure Slices (lib : Etherparse) : Prop where
  accepts : ∀ p, lib.arpFromSlice p = if ArpFits p then some (arpFields p) else none
  strict : ∀ (f : ArpEthernet) (arp : ArpPacketSlice), lib.arpFromSlice f.payload = some arp →
    lib.fromEthernet f.bytes = .ok ⟨some (.ethernet2 f.sourceMac), some (.arp arp), none⟩
  strict_fails : ∀ f : ArpEthernet, lib.arpFromSlice f.payload = none →
    ∃ text, lib.fromEthernet f.bytes = .error (.len text)
  lax_stops : ∀ f : ArpEthernet, lib.arpFromSlice f.payload = none →
    lib.laxFromEthernet f.bytes =
      .ok ⟨some (.ethernet2 f.sourceMac), f.tags.map fun _ => ⟨4⟩, none, none, some .arp⟩

/-! ## Any path -/

theorem byteArray_of_length {n : Nat} {bytes : List UInt8} (h : bytes.length = n) :
    byteArray n bytes = .ok (BitVec.ofNat (8 * n) (bigEndian bytes)) := if_pos h

theorem fits_iff {p : List UInt8} (h : EthernetIpv4 p) : ArpFits p ↔ 28 ≤ p.length := by
  obtain ⟨-, -, hhlen, hplen⟩ := h
  rw [ArpFits, hhlen, hplen]
  change 8 ≤ p.length ∧ 8 + 2 * 6 + 2 * 4 ≤ p.length ↔ _
  omega

theorem extractArpFrame_standard {f : ArpEthernet} (h : EthernetIpv4 f.payload)
    (hlength : 28 ≤ f.payload.length) :
    extractArpFrame (arpFields f.payload) (some f.sourceMac) f.bytes.length =
      .ok (some f.frame) := by
  obtain ⟨hhtype, hptype, hhlen, hplen⟩ := h
  rw [extractArpFrame, if_neg (by simp [arpFields, hhtype, hptype, hhlen, hplen])]
  simp only [arpFields, hhlen, hplen, show (6 : UInt8).toNat = 6 from rfl,
    show (4 : UInt8).toNat = 4 from rfl]
  rw [byteArray_of_length (length_field (by omega)),
    byteArray_of_length (length_field (by omega)),
    byteArray_of_length (length_field (by omega)),
    byteArray_of_length (length_field (by omega))]
  rfl

theorem extractArpFrame_other {p : List UInt8} (h : ¬ EthernetIpv4 p) (source : Option Mac)
    (packetLen : Nat) : extractArpFrame (arpFields p) source packetLen = .ok none := by
  rw [extractArpFrame, if_pos]
  simp only [EthernetIpv4, not_and_or] at h
  simp only [Bool.or_eq_true, decide_eq_true_eq, or_assoc]
  exact h

/-- Lax slicing stops, and the header is looked at in place. -/
theorem isMalformed_iff (p : List UInt8) :
    isMalformed p = true ↔ 8 ≤ p.length ∧ ¬ EthernetIpv4 p := by
  unfold isMalformed
  split
  · rename_i t0 t1 p0 p1 hlen plen o0 o1 rest
    simp only [EthernetIpv4, not_and_or]
    simp [byteAt, or_assoc]
  · rename_i hshort
    simp only [Bool.false_eq_true, false_iff, not_and]
    intro hlength
    rcases p with
      _ | ⟨t0, _ | ⟨t1, _ | ⟨p0, _ | ⟨p1, _ | ⟨hl, _ | ⟨pl, _ | ⟨o0, _ | ⟨o1, p⟩⟩⟩⟩⟩⟩⟩⟩
    case cons.cons.cons.cons.cons.cons.cons.cons =>
      exact absurd rfl (hshort t0 t1 p0 p1 hl pl o0 o1 p)
    all_goals simp at hlength

/-- What becomes of a frame, whichever way it is decoded. -/
def classify (f : ArpEthernet) : Decoded :=
  if EthernetIpv4 f.payload then
    if 28 ≤ f.payload.length then .ok (.arp f.frame) else .error truncatedArp
  else if 8 ≤ f.payload.length then .error nonEthernetIpv4 else .error truncatedArp

theorem decodeArp_fields {f : ArpEthernet} (h : ArpFits f.payload) :
    decodeArp (arpFields f.payload) (some (.ethernet2 f.sourceMac)) f.bytes.length =
      .ok (classify f) := by
  unfold decodeArp
  rw [outerSrcMac, classify]
  by_cases hstandard : EthernetIpv4 f.payload
  · have hlength := (fits_iff hstandard).mp h
    rw [extractArpFrame_standard hstandard hlength, if_pos hstandard, if_pos hlength]
    rfl
  · rw [extractArpFrame_other hstandard, if_neg hstandard, if_pos h.1]
    rfl

theorem stoppedError_tags (f : ArpEthernet) :
    stoppedError f.bytes ⟨some (.ethernet2 f.sourceMac), f.tags.map fun _ => ⟨4⟩, none, none,
      some .arp⟩ = if isMalformed f.payload then nonEthernetIpv4 else truncatedArp := by
  have hlengths : ((f.tags.map fun _ => (⟨4⟩ : LaxLinkExtSlice)).map
      LaxLinkExtSlice.headerLen).sum = 4 * f.tags.length := by
    rw [List.map_map]
    change (f.tags.map fun _ => 4).sum = _
    rw [List.map_const', List.sum_replicate_nat]
    exact Nat.mul_comm _ _
  rw [stoppedError, if_pos rfl, arpOffset]
  simp only [hlengths, Option.any_some, f.drop_bytes]

theorem decodePacket_classify {lib : Etherparse} (hlib : Slices lib) (f : ArpEthernet) :
    decodePacket lib f.bytes .ethernet = .ok (classify f) := by
  have haccepts := hlib.accepts f.payload
  by_cases hfits : ArpFits f.payload
  · -- Strict slicing hands out the slice.
    rw [if_pos hfits] at haccepts
    simp only [decodePacket, strictSlice, if_true, hlib.strict f _ haccepts]
    exact decodeArp_fields hfits
  · rw [if_neg hfits] at haccepts
    obtain ⟨text, hstrict⟩ := hlib.strict_fails f haccepts
    have hlax : laxParse lib f.bytes .ethernet = .ok ⟨some (.ethernet2 f.sourceMac),
        f.tags.map fun _ => ⟨4⟩, none, none, some .arp⟩ := by
      rw [laxParse, if_pos rfl, hlib.lax_stops f haccepts]
      rfl
    simp only [decodePacket, strictSlice, if_true, hstrict, decodeLax, hlax, stoppedError_tags]
    rw [classify]
    by_cases hstandard : EthernetIpv4 f.payload
    · have hmalformed : ¬ isMalformed f.payload = true := by
        rw [isMalformed_iff]
        exact fun h => h.2 hstandard
      have hshort : ¬ 28 ≤ f.payload.length := fun h => hfits ((fits_iff hstandard).mpr h)
      rw [if_neg hmalformed, if_pos hstandard, if_neg hshort]
    · by_cases hheader : 8 ≤ f.payload.length
      · have hmalformed := (isMalformed_iff f.payload).mpr ⟨hheader, hstandard⟩
        rw [if_pos hmalformed, if_neg hstandard, if_pos hheader]
      · have hmalformed : ¬ isMalformed f.payload = true := by
          rw [isMalformed_iff]
          exact fun h => hheader h.1
        rw [if_neg hmalformed, if_neg hstandard, if_neg hheader]

/-- What the payload of an ARP frame on Ethernet says about the result. -/
structure Classified (f : ArpEthernet) (r : Decoded) : Prop where
  arp : (∃ a, r = .ok (.arp a)) ↔ 28 ≤ f.payload.length ∧ EthernetIpv4 f.payload
  fields : ∀ a, r = .ok (.arp a) → a = f.frame
  malformed : r = .error "Non-Ethernet/IPv4 ARP frame" ↔
    8 ≤ f.payload.length ∧ ¬ EthernetIpv4 f.payload
  truncated : r = .error "truncated ARP frame" ↔
    ¬ (28 ≤ f.payload.length ∧ EthernetIpv4 f.payload) ∧
      ¬ (8 ≤ f.payload.length ∧ ¬ EthernetIpv4 f.payload)

theorem classify_classified (f : ArpEthernet) : Classified f (classify f) := by
  have htexts : nonEthernetIpv4 ≠ truncatedArp := by decide
  unfold classify
  by_cases hstandard : EthernetIpv4 f.payload
  · rw [if_pos hstandard]
    by_cases hlength : 28 ≤ f.payload.length
    · rw [if_pos hlength]
      refine ⟨⟨fun _ => ⟨hlength, hstandard⟩, fun _ => ⟨f.frame, rfl⟩⟩, fun a ha => ?_,
        ⟨fun h => (by cases h), fun h => absurd hstandard h.2⟩,
        ⟨fun h => (by cases h), fun h => absurd ⟨hlength, hstandard⟩ h.1⟩⟩
      cases ha
      rfl
    · rw [if_neg hlength]
      exact ⟨⟨fun ⟨a, ha⟩ => (by cases ha), fun h => absurd h.1 hlength⟩,
        fun a ha => (by cases ha),
        ⟨fun h => absurd (Except.error.inj h).symm htexts, fun h => absurd hstandard h.2⟩,
        ⟨fun _ => ⟨fun h => hlength h.1, fun h => h.2 hstandard⟩, fun _ => rfl⟩⟩
  · rw [if_neg hstandard]
    by_cases hheader : 8 ≤ f.payload.length
    · rw [if_pos hheader]
      exact ⟨⟨fun ⟨a, ha⟩ => (by cases ha), fun h => absurd h.2 hstandard⟩,
        fun a ha => (by cases ha), ⟨fun _ => ⟨hheader, hstandard⟩, fun _ => rfl⟩,
        ⟨fun h => absurd (Except.error.inj h) htexts,
          fun h => absurd ⟨hheader, hstandard⟩ h.2⟩⟩
    · rw [if_neg hheader]
      exact ⟨⟨fun ⟨a, ha⟩ => (by cases ha), fun h => absurd h.2 hstandard⟩,
        fun a ha => (by cases ha),
        ⟨fun h => absurd (Except.error.inj h).symm htexts, fun h => absurd h.1 hheader⟩,
        ⟨fun _ => ⟨fun h => hstandard h.2, fun h => hheader h.1⟩, fun _ => rfl⟩⟩

/-- The path of an ARP frame through the decoder makes no difference. -/
theorem decodePacket_arp (lib : Etherparse) (hlib : Slices lib) (f : ArpEthernet) :
    Returns (decodePacket lib f.bytes .ethernet) (Classified f) :=
  ⟨classify f, decodePacket_classify hlib f, classify_classified f⟩

/-! ## A reading of the frame -/

def isVlan (hi lo : UInt8) : Bool := (hi, lo) ∈ vlanTypes

/-- Up to `n` tags, and what is behind them. -/
def skipTags : Nat → List UInt8 → List LaxLinkExtSlice × List UInt8
  | n + 1, hi :: lo :: control₁ :: control₂ :: rest =>
    if isVlan hi lo then
      let (exts, rest) := skipTags n rest
      (⟨4⟩ :: exts, rest)
    else ([], hi :: lo :: control₁ :: control₂ :: rest)
  | _, bytes => ([], bytes)

theorem skipTags_arp (n : Nat) (p : List UInt8) : skipTags n (0x08 :: 0x06 :: p) =
    ([], 0x08 :: 0x06 :: p) := by
  cases n with
  | zero => rfl
  | succ n =>
    rcases p with _ | ⟨a, _ | ⟨b, p⟩⟩
    · rfl
    · rfl
    · rfl

theorem skipTags_tags {n : Nat} {tags : List VlanTag} (h : tags.length ≤ n) (p : List UInt8) :
    skipTags n (tags.flatMap VlanTag.bytes ++ (0x08 :: 0x06 :: p)) =
      (tags.map fun _ => ⟨4⟩, 0x08 :: 0x06 :: p) := by
  induction tags generalizing n with
  | nil => exact skipTags_arp n p
  | cons t tags ih =>
    cases n with
    | zero => exact absurd h (by simp)
    | succ n =>
      have hvlan : isVlan t.type.1 t.type.2 = true := decide_eq_true t.known
      have hrest := ih (Nat.le_of_succ_le_succ h)
      simp only [List.flatMap_cons, VlanTag.bytes, List.cons_append, List.nil_append, skipTags,
        hvlan, if_true, hrest, List.map_cons]

/-- Slicers that know ARP frames on Ethernet and nothing else. -/
def arpOnly : Etherparse where
  fromEthernet bytes :=
    match skipTags 3 (bytes.drop 12) with
    | (_, 0x08 :: 0x06 :: p) =>
      if ArpFits p then
        .ok ⟨some (.ethernet2 (BitVec.ofNat 48 (bigEndian (field bytes 6 6)))),
          some (.arp (arpFields p)), none⟩
      else .error (.len "ARP")
    | _ => .error (.other "not ARP")
  fromIp _ := .error (.other "not ARP")
  fromLinuxSll _ := .error (.other "not ARP")
  laxFromEthernet bytes :=
    match skipTags 3 (bytes.drop 12) with
    | (exts, 0x08 :: 0x06 :: p) =>
      .ok ⟨some (.ethernet2 (BitVec.ofNat 48 (bigEndian (field bytes 6 6)))), exts,
        if ArpFits p then some (.arp (arpFields p)) else none, none,
        if ArpFits p then none else some .arp⟩
    | _ => .error "not ARP"
  laxFromIp _ := .error "not ARP"
  laxFromEtherType _ _ := ⟨none, [], none, none, none⟩
  arpFromSlice p := if ArpFits p then some (arpFields p) else none
  showDataLink link := toString link.code

theorem arpOnly_slices : Slices arpOnly := by
  have hskip : ∀ f : ArpEthernet, skipTags 3 (f.bytes.drop 12) =
      (f.tags.map fun _ => ⟨4⟩, 0x08 :: 0x06 :: f.payload) := by
    intro f
    have hlink : (f.destination ++ f.source).length = 12 := by
      rw [List.length_append, f.destination_length, f.source_length]
    rw [ArpEthernet.bytes, ← List.append_assoc, List.drop_left' hlink]
    exact skipTags_tags f.tags_length f.payload
  have hsource : ∀ f : ArpEthernet, field f.bytes 6 6 = f.source := by
    intro f
    rw [field, ArpEthernet.bytes, List.drop_left' f.destination_length,
      List.take_left' f.source_length]
  refine ⟨fun p => rfl, fun f arp h => ?_, fun f h => ?_, fun f h => ?_⟩
  · by_cases hfits : ArpFits f.payload
    · simp only [arpOnly, if_pos hfits] at h
      cases h
      simp only [arpOnly, hskip, if_pos hfits, hsource]
      rfl
    · simp only [arpOnly, if_neg hfits] at h
      cases h
  · by_cases hfits : ArpFits f.payload
    · simp only [arpOnly, if_pos hfits] at h
      cases h
    · refine ⟨"ARP", ?_⟩
      simp only [arpOnly, hskip, if_neg hfits]
  · by_cases hfits : ArpFits f.payload
    · simp only [arpOnly, if_pos hfits] at h
      cases h
    · simp only [arpOnly, hskip, if_neg hfits, hsource]
      rfl

/-- A request behind one tag, cut off after its operation. -/
def cutRequest : ArpEthernet where
  destination := [0xff, 0xff, 0xff, 0xff, 0xff, 0xff]
  source := [2, 0, 0, 0, 0, 1]
  tags := [⟨(0x81, 0x00), (0, 7), by decide⟩]
  payload := [0, 1, 8, 0, 6, 4, 0, 1]
  destination_length := rfl
  source_length := rfl
  tags_length := by decide

theorem decodePacket_arp_cut :
    Returns (decodePacket arpOnly cutRequest.bytes .ethernet) (Classified cutRequest) ∧
      decodePacket arpOnly cutRequest.bytes .ethernet = .ok (.error "truncated ARP frame") :=
  ⟨decodePacket_arp arpOnly arpOnly_slices cutRequest, by decide⟩

end Wirerust.Decoder
