import Wirerust.Capture.BlockWalk

/-!
What a capture reader makes of the way its bytes arrive.

The probe for the magic bytes looks at one read. If that read has four bytes, all that follows
depends on the bytes alone (`fromPcapReader_eq`); if not, the capture is called too short, however
long it is. So two sources of the same bytes are read alike exactly if the first read of both
suffices or of neither does, or if there is nothing to be read in the bytes anyway
(`fromPcapReader_agrees`).
-/

namespace Wirerust.Capture

open Lib

/-! ## The bytes behind a buffer -/

theorem BufReader.readToEnd_fillBuf (r : BufReader) : r.fillBuf.readToEnd = r.readToEnd := by
  obtain ⟨buffer, inner⟩ := r
  unfold fillBuf
  cases buffer with
  | cons b buffer => rfl
  | nil =>
    cases inner with
    | nil => rfl
    | cons chunk chunks =>
      show chunk.take capacity ++ (if chunk.length ≤ capacity then chunks
        else chunk.drop capacity :: chunks).flatten = chunk ++ chunks.flatten
      split
      · rename_i hle
        rw [List.take_of_length_le hle]
      · rw [List.flatten_cons, ← List.append_assoc, List.take_append_drop]

/-- How much the first read brings. -/
def Source.firstRead (s : Source) : Nat := (s.chunks.headD []).length

theorem buffer_fillBuf_new (s : Source) :
    (BufReader.new s).fillBuf.buffer = (s.chunks.headD []).take BufReader.capacity := by
  unfold BufReader.new BufReader.fillBuf
  cases s.chunks with
  | nil => rfl
  | cons chunk chunks => rfl

theorem length_buffer_lt (s : Source) :
    (BufReader.new s).fillBuf.buffer.length < 4 ↔ s.firstRead < 4 := by
  rw [buffer_fillBuf_new, List.length_take, Source.firstRead, BufReader.capacity]
  omega

theorem take_buffer (s : Source) (h : 4 ≤ s.firstRead) :
    (BufReader.new s).fillBuf.buffer.take 4 = s.bytes.take 4 := by
  rw [buffer_fillBuf_new, List.take_take, Source.bytes]
  unfold Source.firstRead at h
  cases hchunks : s.chunks with
  | nil =>
    rw [hchunks] at h
    exact absurd h (by decide)
  | cons chunk chunks =>
    rw [hchunks, List.headD_cons] at h
    rw [List.flatten_cons, List.headD_cons, List.take_append_of_le_length h]
    rfl

/-! ## Reading from the bytes -/

/-- The classic reader does not see where one chunk ends and the next one starts. -/
def PcapFile.Insensitive (crate : PcapFile) : Prop :=
  ∀ r r' : BufReader, r.readToEnd = r'.readToEnd → crate.newReader r = crate.newReader r'

/-- What is read if the probe has its four bytes. -/
def readBytes (crate : PcapFile) (bytes : List UInt8) : Except Error PcapSource :=
  let magic := bytes.take 4
  if magic = pcapngMagic then readPcapngCrate crate bytes
  else if magic ∈ classicPcapMagics then readClassic crate ⟨bytes, []⟩
  else
    fail ("unrecognized pcap magic: " ++
      " ".intercalate (magic.map fun b => Analyzer.hexUpper 2 b.toNat))

theorem fromPcapReader_of_short (crate : PcapFile) {s : Source} (h : s.firstRead < 4) :
    ∃ e, fromPcapReader crate s = .error e := by
  unfold fromPcapReader
  simp only [if_pos ((length_buffer_lt s).mpr h)]
  exact ⟨_, rfl⟩

theorem fromPcapReader_eq {crate : PcapFile} (hcrate : crate.Insensitive) {s : Source}
    (h : 4 ≤ s.firstRead) : fromPcapReader crate s = readBytes crate s.bytes := by
  have hbytes : (BufReader.new s).fillBuf.readToEnd = s.bytes := BufReader.readToEnd_fillBuf _
  have hreader : crate.newReader (BufReader.new s).fillBuf = crate.newReader ⟨s.bytes, []⟩ :=
    hcrate _ _ (hbytes.trans (List.append_nil _).symm)
  have hlen : ¬ (BufReader.new s).fillBuf.buffer.length < 4 := by
    rw [length_buffer_lt]
    omega
  unfold fromPcapReader readBytes readClassic
  simp only [if_neg hlen, take_buffer s h, hbytes, hreader]

/-- A capture: the block walk accepts it, or the classic reader opens it, with a link type that is
known, and reads all its records. -/
def IsCapture (crate : PcapFile) (bytes : List UInt8) : Prop :=
  (bytes.take 4 = pcapngMagic ∧ ∃ source, readPcapngCrate crate bytes = .ok source) ∨
  (bytes.take 4 ∈ classicPcapMagics ∧ ∃ reader, crate.newReader ⟨bytes, []⟩ = .ok reader ∧
    reader.datalink.supported = true ∧
    ∀ record ∈ reader.rawPackets, ∃ packet, record = .ok packet)

theorem mapError_eq_ok {ε ε' α : Type} {f : ε → ε'} {x : Except ε α} {a : α} :
    x.mapError f = .ok a ↔ x = .ok a := by
  cases x with
  | ok b => simp only [Except.mapError, Except.ok.injEq]
  | error err => exact ⟨fun h => (by cases h), fun h => (by cases h)⟩

theorem readRecords_returns (resolution : TsResolution)
    (records : List (Except PcapError RawPcapPacket)) :
    (∃ packets, readRecords resolution records = .ok packets) ↔
      ∀ record ∈ records, ∃ packet, record = .ok packet := by
  induction records with
  | nil => exact ⟨fun _ record h => (by cases h), fun _ => ⟨[], rfl⟩⟩
  | cons record records ih =>
    rw [List.forall_mem_cons, ← ih, readRecords]
    simp only [bind_eq_ok, context_eq_ok, mapError_eq_ok]
    constructor
    · rintro ⟨_, packet, hpacket, packets, hpackets, -⟩
      exact ⟨⟨packet, hpacket⟩, packets, hpackets⟩
    · rintro ⟨⟨packet, hpacket⟩, packets, hpackets⟩
      exact ⟨_, packet, hpacket, packets, hpackets, rfl⟩

theorem readClassic_returns (crate : PcapFile) (r : BufReader) :
    (∃ source, readClassic crate r = .ok source) ↔
      ∃ reader, crate.newReader r = .ok reader ∧ reader.datalink.supported = true ∧
        ∀ record ∈ reader.rawPackets, ∃ packet, record = .ok packet := by
  unfold readClassic
  simp only [bind_eq_ok, context_eq_ok, mapError_eq_ok, guard_eq_ok, Bool.not_eq_false]
  constructor
  · rintro ⟨_, reader, hreader, hlink, packets, hpackets, -⟩
    exact ⟨reader, hreader, hlink, (readRecords_returns _ _).mp ⟨packets, hpackets⟩⟩
  · rintro ⟨reader, hreader, hlink, hrecords⟩
    obtain ⟨packets, hpackets⟩ := (readRecords_returns reader.tsResolution _).mpr hrecords
    exact ⟨_, reader, hreader, hlink, packets, hpackets, rfl⟩

theorem readBytes_returns (crate : PcapFile) (bytes : List UInt8) :
    (∃ source, readBytes crate bytes = .ok source) ↔ IsCapture crate bytes := by
  unfold readBytes IsCapture
  by_cases hng : bytes.take 4 = pcapngMagic
  · have hclassic : pcapngMagic ∉ classicPcapMagics := by decide
    simp [hng, hclassic]
  · by_cases hclassic : bytes.take 4 ∈ classicPcapMagics
    · simp [hng, hclassic, readClassic_returns]
    · simp [hng, hclassic, fail]

/-! ## Two sources -/

/-- The same result, or an error in both. -/
def Agree (x y : Except Error PcapSource) : Prop :=
  (∃ source, x = .ok source ∧ y = .ok source) ∨ ∃ e e', x = .error e ∧ y = .error e'

theorem Agree.refl (x : Except Error PcapSource) : Agree x x := by
  cases x with
  | ok source => exact .inl ⟨source, rfl, rfl⟩
  | error e => exact .inr ⟨e, e, rfl, rfl⟩

theorem Agree.symm {x y : Except Error PcapSource} (h : Agree x y) : Agree y x := by
  rcases h with ⟨source, hx, hy⟩ | ⟨e, e', hx, hy⟩
  · exact .inl ⟨source, hy, hx⟩
  · exact .inr ⟨e', e, hy, hx⟩

theorem agree_error_iff {x : Except Error PcapSource} {e : Error} :
    Agree x (.error e) ↔ ¬ ∃ source, x = .ok source := by
  constructor
  · rintro (⟨source, -, hy⟩ | ⟨e₁, e₂, rfl, -⟩) ⟨source', hx⟩
    · cases hy
    · cases hx
  · intro h
    cases x with
    | ok source => exact absurd ⟨source, rfl⟩ h
    | error e₁ => exact .inr ⟨e₁, e, rfl, rfl⟩

/-- If only one source has the four bytes at once, the two agree on what is no capture. -/
theorem agree_of_one {crate : PcapFile} (hcrate : crate.Insensitive) {long short : Source}
    (hlong : 4 ≤ long.firstRead) (hshort : short.firstRead < 4) :
    Agree (fromPcapReader crate long) (fromPcapReader crate short) ↔
      ¬ IsCapture crate long.bytes := by
  obtain ⟨e, he⟩ := fromPcapReader_of_short crate hshort
  rw [he, agree_error_iff, fromPcapReader_eq hcrate hlong, readBytes_returns]

theorem fromPcapReader_agrees (crate : PcapFile) (hcrate : crate.Insensitive)
    (left right : Source) (hbytes : left.bytes = right.bytes) :
    Agree (fromPcapReader crate left) (fromPcapReader crate right) ↔
      (4 ≤ left.firstRead ↔ 4 ≤ right.firstRead) ∨ ¬ IsCapture crate left.bytes := by
  by_cases hleft : 4 ≤ left.firstRead
  · by_cases hright : 4 ≤ right.firstRead
    · rw [fromPcapReader_eq hcrate hleft, fromPcapReader_eq hcrate hright, hbytes]
      simp [hleft, hright, Agree.refl]
    · rw [agree_of_one hcrate hleft (Nat.not_le.mp hright)]
      simp [hleft, hright]
  · by_cases hright : 4 ≤ right.firstRead
    · have hagree := agree_of_one hcrate hright (Nat.not_le.mp hleft)
      rw [← hbytes] at hagree
      simp only [hleft, hright, false_iff, not_true_eq_false, false_or]
      exact ⟨fun h => hagree.mp h.symm, fun h => (hagree.mpr h).symm⟩
    · obtain ⟨e, he⟩ := fromPcapReader_of_short crate (Nat.not_le.mp hleft)
      obtain ⟨e', he'⟩ := fromPcapReader_of_short crate (Nat.not_le.mp hright)
      simp only [hleft, hright, iff_self, true_or, iff_true]
      exact .inr ⟨e, e', he, he'⟩

/-! ## A capture that arrives byte by byte -/

theorem plainCrate_insensitive : plainCrate.Insensitive := by
  intro r r' h
  simp only [plainCrate, h]

/-- A classic capture without a record. -/
def emptyCapture : List UInt8 :=
  [0xd4, 0xc3, 0xb2, 0xa1, 2, 0, 4, 0, 0, 0, 0, 0, 0, 0, 0, 0, 255, 255, 0, 0, 1, 0, 0, 0]

/-- The whole capture at once. -/
def atOnce : Source := ⟨[emptyCapture], by decide⟩

/-- The capture in pieces of `n` bytes and the rest. -/
def headFirst (n : Nat) (h : emptyCapture.take n ≠ [] ∧ emptyCapture.drop n ≠ []) : Source :=
  ⟨[emptyCapture.take n, emptyCapture.drop n], by simp [h]⟩

theorem fromPcapReader_agrees_at_four :
    atOnce.bytes = (headFirst 4 (by decide)).bytes ∧
      Agree (fromPcapReader plainCrate atOnce)
        (fromPcapReader plainCrate (headFirst 4 (by decide))) :=
  ⟨by decide, (fromPcapReader_agrees plainCrate plainCrate_insensitive atOnce
    (headFirst 4 (by decide)) (by decide)).mpr (.inl (by decide))⟩

/-- The first byte alone, and then all the others: the capture is called too short. -/
theorem one_byte_first :
    plainCrate.Insensitive ∧ atOnce.bytes = (headFirst 1 (by decide)).bytes ∧
      fromPcapReader plainCrate atOnce = .ok ⟨[], .ethernet, 0, 0, false⟩ ∧
      fromPcapReader plainCrate (headFirst 1 (by decide)) =
        .error ["stream too short: expected at least 4 bytes for pcap magic, got 1"] ∧
      ¬ Agree (fromPcapReader plainCrate atOnce)
        (fromPcapReader plainCrate (headFirst 1 (by decide))) := by
  have hwhole : fromPcapReader plainCrate atOnce = .ok ⟨[], .ethernet, 0, 0, false⟩ := rfl
  have hsplit : fromPcapReader plainCrate (headFirst 1 (by decide)) =
      .error ["stream too short: expected at least 4 bytes for pcap magic, got 1"] := by rfl
  refine ⟨plainCrate_insensitive, by decide, hwhole, hsplit, ?_⟩
  rw [hwhole, hsplit, agree_error_iff, not_not]
  exact ⟨_, rfl⟩

end Wirerust.Capture
