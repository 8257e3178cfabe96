import Wirerust.Capture.Grammar

/-!
The block walk reads exactly the captures of the grammar.

The proof goes block by block from the left: `Walked` is what the walk knows about the blocks
behind it, and `onNext_step` says that it takes one more block exactly if the grammar does.
`readPcapngCrate_accepts` puts this together for a whole capture.
-/

namespace Wirerust.Capture

open Lib Wirerust.Analyzer

/-! ## The walk over a list -/

/-- A turn of the loop on the block it has got. -/
def onNext (crate : PcapFile) (e : SectionEndianness) (w : Walk) (b : RawBlock) :
    Except Error Walk :=
  onBlock crate e { w with blockSeq := saturatingInc 32 w.blockSeq } b

/-- The parser hands out the blocks, each from one byte or more. -/
inductive Yields (crate : PcapFile) : crate.Parser → List UInt8 → List RawBlock → Prop
  | done (parser : crate.Parser) : Yields crate parser [] []
  | next {parser parser' : crate.Parser} {src rest : List UInt8} {b : RawBlock}
      {blocks : List RawBlock} (h : crate.nextRawBlock parser src = .ok (rest, b, parser'))
      (hlen : rest.length < src.length) (hrest : Yields crate parser' rest blocks) :
      Yields crate parser src (b :: blocks)

theorem walkBlocks_eq {crate : PcapFile} {parser : crate.Parser} {src : List UInt8}
    {blocks : List RawBlock} (h : Yields crate parser src blocks) (e : SectionEndianness)
    {turns : Nat} (hlen : src.length ≤ turns) (w : Walk) :
    walkBlocks crate e turns parser src w = run (onNext crate e) w blocks := by
  induction h generalizing turns w with
  | done parser =>
    cases turns with
    | zero => rfl
    | succ turns => rfl
  | @next parser parser' src rest b blocks h hshort hrest ih =>
    cases turns with
    | zero => omega
    | succ turns =>
      have hne : src.isEmpty = false := by
        cases src with
        | nil => exact absurd hshort (Nat.not_lt_zero _)
        | cons c src => rfl
      rw [walkBlocks, hne, if_neg Bool.false_ne_true, h, run_cons]
      show (if rest.length ≥ src.length then _ else _) = _
      rw [if_neg (Nat.not_le.mpr hshort)]
      exact bind_congr_ok fun w' _ => ih (by omega) w'

/-- What the walk has after the blocks. -/
structure Walked (e : SectionEndianness) (blocks : List RawBlock) (w : Walk) : Prop where
  packets : w.packets.map some = (blocks.filter isPacket).map (packetOf e (tableOf e blocks))
  interfaces : w.interfaces = tableOf e blocks
  emitted : w.packetsEmitted = min (blocks.countP isPacket) (2 ^ 32 - 1)
  skipped : w.skippedBlocks = min (blocks.countP isOther) (2 ^ 32 - 1)
  opb : w.opbSkipped = min (blocks.countP isOpb) (2 ^ 32 - 1)

theorem walked_nil (e : SectionEndianness) : Walked e [] {} := ⟨rfl, rfl, rfl, rfl, rfl⟩

section Blocks

variable {crate : PcapFile} {e : SectionEndianness} {w w' : Walk} {body : List UInt8}

theorem context_eq_ok {α : Type} {message : String} {x : Except Error α} {a : α} :
    context message x = .ok a ↔ x = .ok a := by
  cases x with
  | ok b => exact Iff.rfl
  | error err => exact ⟨fun h => (by cases h), fun h => (by cases h)⟩

/-- A test that has to be passed. -/
theorem guard_eq_ok {α : Type} {p : Prop} [Decidable p] {message : String} {x : Except Error α}
    {a : α} : (if p then fail message else x) = .ok a ↔ ¬ p ∧ x = .ok a := by
  by_cases hp : p
  · rw [if_pos hp]
    exact ⟨fun h => (by cases h), fun h => absurd hp h.1⟩
  · rw [if_neg hp]
    exact ⟨fun h => ⟨hp, h⟩, fun h => h.2⟩

/-- An interface is registered if all of the tests are passed. -/
theorem onIdb_eq_ok : onIdb crate e w body = .ok w' ↔
    w.packetsEmitted = 0 ∧ w.interfaces.length < maxInterfaceTableEntries ∧
    idbBodyFixedBytes ≤ body.length ∧
    (⟨(u16At e body 0).toUInt32⟩ : DataLink).supported = true ∧
    (∀ link, w.firstLink = some link → link = ⟨(u16At e body 0).toUInt32⟩) ∧
    ∃ resol, parseIdbOptions body e = .ok resol ∧
      w' = { w with interfaces := w.interfaces ++ [⟨⟨(u16At e body 0).toUInt32⟩, resol⟩] } := by
  unfold onIdb
  simp only [guard_eq_ok, bind_eq_ok, context_eq_ok, Except.ok.injEq, Bool.not_eq_false,
    gt_iff_lt, ge_iff_le, Nat.not_lt, Nat.not_le, Nat.le_zero, eq_comm (b := w')]
  have hlink : ¬ (w.firstLink.any fun link => decide (link ≠ ⟨(u16At e body 0).toUInt32⟩)) = true ↔
      ∀ link, w.firstLink = some link → link = ⟨(u16At e body 0).toUInt32⟩ := by
    cases w.firstLink with
    | none => simp
    | some link => simp
  rw [hlink]

theorem onSpb_eq_ok : onSpb e w body = .ok w' ↔
    w.interfaces ≠ [] ∧ spbFixedOverheadBytes ≤ body.length ∧ w' = w.emit (spbPacket e body) := by
  unfold onSpb
  rw [guard_eq_ok, guard_eq_ok, List.isEmpty_iff, Nat.not_lt, Except.ok.injEq, eq_comm (b := w')]

theorem onEpb_eq_ok : onEpb e w body = .ok w' ↔
    ∃ packet, decodeEpbBody body w.interfaces e = .ok packet ∧ w' = w.emit packet := by
  simp only [onEpb, bind_eq_ok, Except.ok.injEq]
  exact ⟨fun ⟨p, hp, h⟩ => ⟨p, hp, h.symm⟩, fun ⟨p, hp, h⟩ => ⟨p, hp, h.symm⟩⟩

end Blocks

/-! ## What a turn keeps -/

section Step

variable {crate : PcapFile} {e : SectionEndianness} {pre : List RawBlock} {b : RawBlock}
  {w : Walk}

theorem Walked.emitted_eq_zero (h : Walked e pre w) :
    w.packetsEmitted = 0 ↔ ∀ c ∈ pre, isPacket c = false := by
  have hzero : w.packetsEmitted = 0 ↔ pre.countP isPacket = 0 := by
    rw [h.emitted]
    omega
  rw [hzero, List.countP_eq_zero]
  simp only [Bool.not_eq_true]

theorem Walked.firstLink (h : Walked e pre w) :
    w.firstLink = (pre.filter isIdb).head?.map (linkOf e) := by
  rw [Walk.firstLink, h.interfaces, tableOf, List.head?_map, Option.map_map]
  rfl

theorem Walked.interfaces_ne_nil (h : Walked e pre w) :
    w.interfaces ≠ [] ↔ ∃ i ∈ pre, isIdb i = true := by
  rw [h.interfaces, tableOf, Ne, List.map_eq_nil_iff, List.filter_eq_nil_iff]
  simp

/-- The five quantities after an interface. -/
theorem Walked.idb (h : Walked e pre w) (hidb : isIdb b = true)
    (hnone : ∀ c ∈ pre, isPacket c = false) {resol : UInt8}
    (hresol : parseIdbOptions b.body e = .ok resol) :
    Walked e (pre ++ [b]) { w with interfaces := w.interfaces ++ [⟨linkOf e b, resol⟩] } := by
  have htype : b.type = idbBlockType := by simpa [isIdb] using hidb
  have hother : isOther b = false := by simp [isOther, htype]
  have hopb : isOpb b = false := by simp [isOpb, htype, idbBlockType, opbBlockType]
  have hpacket := isPacket_of_isIdb hidb
  have hfilter : pre.filter isPacket = [] :=
    List.filter_eq_nil_iff.mpr fun c hc => by simp [hnone c hc]
  refine ⟨?_, ?_, ?_, ?_, ?_⟩
  · have hpackets := h.packets
    rw [hfilter] at hpackets
    rw [List.filter_append, hfilter, List.filter_cons_of_neg (by simp [hpacket])]
    exact hpackets
  · have hinterface : interfaceOf e b = ⟨linkOf e b, resol⟩ := by
      rw [interfaceOf, hresol]
      rfl
    rw [tableOf, filter_snoc_of_idb hidb, List.map_append, List.map_singleton, hinterface]
    exact congrArg (· ++ [_]) h.interfaces
  · rw [countP_snoc, hpacket]
    exact h.emitted
  · rw [countP_snoc, hother]
    exact h.skipped
  · rw [countP_snoc, hopb]
    exact h.opb

theorem Walked.packet (h : Walked e pre w) (hpacket : isPacket b = true) {packet : RawPacket}
    (hdecoded : packetOf e w.interfaces b = some packet) :
    Walked e (pre ++ [b]) (w.emit packet) := by
  have hidb := isIdb_of_isPacket hpacket
  have htype : b.type = epbBlockType ∨ b.type = spbBlockType := by
    simpa [isPacket, isEpb, isSpb] using hpacket
  have hother : isOther b = false := by rcases htype with ht | ht <;> simp [isOther, ht]
  have hopb : isOpb b = false := by
    rcases htype with ht | ht <;>
      simp [isOpb, ht, epbBlockType, spbBlockType, opbBlockType]
  have htable := tableOf_snoc_of_not_idb e pre hidb
  refine ⟨?_, h.interfaces.trans htable.symm, ?_, ?_, ?_⟩
  · rw [htable, ← h.interfaces, List.filter_append, List.filter_cons_of_pos hpacket,
      List.filter_nil, List.map_append, List.map_singleton, hdecoded, Walk.emit, List.map_append,
      h.packets, h.interfaces]
    rfl
  · rw [countP_snoc, hpacket, Walk.emit, h.emitted]
    exact saturatingInc_min 32 _
  · rw [countP_snoc, hother]
    exact h.skipped
  · rw [countP_snoc, hopb]
    exact h.opb

theorem Walked.other (h : Walked e pre w) (hother : isOther b = true) {opb : Nat}
    (hopb : opb = if isOpb b then saturatingInc 32 w.opbSkipped else w.opbSkipped) :
    Walked e (pre ++ [b])
      { w with skippedBlocks := saturatingInc 32 w.skippedBlocks, opbSkipped := opb } := by
  have htypes : b.type ≠ shbBlockType ∧ b.type ≠ idbBlockType ∧ b.type ≠ epbBlockType ∧
      b.type ≠ spbBlockType := by simpa [isOther] using hother
  have hidb : isIdb b = false := by simp [isIdb, htypes.2.1]
  have hpacket : isPacket b = false := by simp [isPacket, isEpb, isSpb, htypes.2.2.1, htypes.2.2.2]
  have htable := tableOf_snoc_of_not_idb e pre hidb
  refine ⟨?_, h.interfaces.trans htable.symm, ?_, ?_, ?_⟩
  · rw [htable, List.filter_append, List.filter_cons_of_neg (by simp [hpacket]), List.filter_nil,
      List.append_nil]
    exact h.packets
  · rw [countP_snoc, hpacket]
    exact h.emitted
  · rw [countP_snoc, hother]
    exact (congrArg (saturatingInc 32) h.skipped).trans (saturatingInc_min 32 _)
  · rw [countP_snoc]
    cases hb : isOpb b with
    | false =>
      rw [hb] at hopb
      exact hopb.trans h.opb
    | true =>
      rw [hb] at hopb
      exact hopb.trans ((congrArg (saturatingInc 32) h.opb).trans (saturatingInc_min 32 _))

/-- The kinds of blocks, as the walk tells them apart. -/
theorem onBlock_kinds (crate : PcapFile) (e : SectionEndianness) (w : Walk) (b : RawBlock) :
    (b.type = shbBlockType ∧ ∃ message, onBlock crate e w b = fail message) ∨
    (b.type ≠ shbBlockType ∧ isIdb b = true ∧ isPacket b = false ∧
      onBlock crate e w b = onIdb crate e w b.body) ∨
    (b.type ≠ shbBlockType ∧ isIdb b = false ∧ isEpb b = true ∧ isSpb b = false ∧
      onBlock crate e w b = onEpb e w b.body) ∨
    (b.type ≠ shbBlockType ∧ isIdb b = false ∧ isEpb b = false ∧ isSpb b = true ∧
      onBlock crate e w b = onSpb e w b.body) ∨
    (isOther b = true ∧ isIdb b = false ∧ isEpb b = false ∧ isSpb b = false ∧
      onBlock crate e w b = .ok { w with
        skippedBlocks := saturatingInc 32 w.skippedBlocks
        opbSkipped := if isOpb b then saturatingInc 32 w.opbSkipped else w.opbSkipped }) := by
  unfold onBlock
  split
  · rename_i hshb
    exact .inl ⟨hshb, _, rfl⟩
  · rename_i hshb
    split
    · rename_i hidb
      have hkind : isIdb b = true := by simp [isIdb, hidb]
      exact .inr (.inl ⟨hshb, hkind, isPacket_of_isIdb hkind, rfl⟩)
    · rename_i hidb
      split
      · rename_i hepb
        exact .inr (.inr (.inl ⟨hshb, by simp [isIdb, hidb], by simp [isEpb, hepb],
          by simp [isSpb, hepb, epbBlockType, spbBlockType], rfl⟩))
      · rename_i hepb
        split
        · rename_i hspb
          exact .inr (.inr (.inr (.inl ⟨hshb, by simp [isIdb, hidb], by simp [isEpb, hepb],
            by simp [isSpb, hspb], rfl⟩)))
        · rename_i hspb
          refine .inr (.inr (.inr (.inr ⟨by simp [isOther, hshb, hidb, hepb, hspb],
            by simp [isIdb, hidb], by simp [isEpb, hepb], by simp [isSpb, hspb], ?_⟩)))
          split
          · rename_i hopb
            simp [isOpb, hopb]
          · rename_i hopb
            simp [isOpb, hopb]

theorem onIdb_step (h : Walked e pre w) (hshb : b.type ≠ shbBlockType) (hidb : isIdb b = true)
    (hpacket : isPacket b = false) :
    (∀ w', onIdb crate e w b.body = .ok w' → BlockOk e pre b ∧ Walked e (pre ++ [b]) w') ∧
    (BlockOk e pre b → ∃ w', onIdb crate e w b.body = .ok w') := by
  have hlength : w.interfaces.length = (pre.filter isIdb).length := by
    rw [h.interfaces, tableOf, List.length_map]
  have hlinks : (∀ link, w.firstLink = some link → link = linkOf e b) ↔
      ∀ first, (pre.filter isIdb).head? = some first → linkOf e first = linkOf e b := by
    rw [h.firstLink]
    cases (pre.filter isIdb).head? with
    | none => simp
    | some first => simp
  have hepb : isEpb b = false := (Bool.or_eq_false_iff.mp hpacket).1
  have hspb : isSpb b = false := (Bool.or_eq_false_iff.mp hpacket).2
  constructor
  · intro w' hw'
    obtain ⟨hnone, hroom, hlen, hlink, hagree, resol, hresol, rfl⟩ := onIdb_eq_ok.mp hw'
    rw [h.emitted_eq_zero] at hnone
    rw [hlength] at hroom
    exact ⟨⟨hshb, fun _ => ⟨hnone, hroom, hlen, hlink, hlinks.mp hagree, resol, hresol⟩,
      fun hb => absurd (hepb.symm.trans hb) Bool.false_ne_true,
      fun hb => absurd (hspb.symm.trans hb) Bool.false_ne_true⟩, h.idb hidb hnone hresol⟩
  · intro hb
    obtain ⟨hnone, hroom, hlen, hlink, hagree, resol, hresol⟩ := hb.idb hidb
    exact ⟨_, onIdb_eq_ok.mpr ⟨h.emitted_eq_zero.mpr hnone, hlength ▸ hroom, hlen, hlink,
      hlinks.mpr hagree, resol, hresol, rfl⟩⟩

theorem onEpb_step (h : Walked e pre w) (hshb : b.type ≠ shbBlockType) (hidb : isIdb b = false)
    (hepb : isEpb b = true) (hspb : isSpb b = false) :
    (∀ w', onEpb e w b.body = .ok w' → BlockOk e pre b ∧ Walked e (pre ++ [b]) w') ∧
    (BlockOk e pre b → ∃ w', onEpb e w b.body = .ok w') := by
  simp only [onEpb_eq_ok, h.interfaces]
  constructor
  · rintro w' ⟨packet, hdecoded, rfl⟩
    refine ⟨⟨hshb, fun hb => absurd (hidb.symm.trans hb) Bool.false_ne_true,
      fun _ => ⟨packet, hdecoded⟩, fun hb => absurd (hspb.symm.trans hb) Bool.false_ne_true⟩,
      h.packet (isPacket_of_isEpb hepb) ?_⟩
    rw [packetOf, if_pos hepb, h.interfaces, hdecoded]
    rfl
  · intro hb
    obtain ⟨packet, hdecoded⟩ := hb.epb hepb
    exact ⟨_, packet, hdecoded, rfl⟩

theorem onSpb_step (h : Walked e pre w) (hshb : b.type ≠ shbBlockType) (hidb : isIdb b = false)
    (hepb : isEpb b = false) (hspb : isSpb b = true) :
    (∀ w', onSpb e w b.body = .ok w' → BlockOk e pre b ∧ Walked e (pre ++ [b]) w') ∧
    (BlockOk e pre b → ∃ w', onSpb e w b.body = .ok w') := by
  simp only [onSpb_eq_ok, h.interfaces_ne_nil]
  constructor
  · rintro w' ⟨hsome, hlen, rfl⟩
    refine ⟨⟨hshb, fun hb => absurd (hidb.symm.trans hb) Bool.false_ne_true,
      fun hb => absurd (hepb.symm.trans hb) Bool.false_ne_true, fun _ => ⟨hsome, hlen⟩⟩,
      h.packet (by simp [isPacket, hspb]) ?_⟩
    rw [packetOf, if_neg (by simp [hepb])]
  · intro hb
    obtain ⟨hsome, hlen⟩ := hb.spb hspb
    exact ⟨_, hsome, hlen, rfl⟩

/-- The walk takes a block exactly if the grammar does. -/
theorem onNext_step (crate : PcapFile) (h : Walked e pre w) :
    (∀ w', onNext crate e w b = .ok w' → BlockOk e pre b ∧ Walked e (pre ++ [b]) w') ∧
    (BlockOk e pre b → ∃ w', onNext crate e w b = .ok w') := by
  replace h : Walked e pre { w with blockSeq := saturatingInc 32 w.blockSeq } :=
    ⟨h.packets, h.interfaces, h.emitted, h.skipped, h.opb⟩
  unfold onNext
  generalize ({ w with blockSeq := saturatingInc 32 w.blockSeq } : Walk) = w at h
  rcases onBlock_kinds crate e w b with ⟨hshb, message, heq⟩ | ⟨hshb, hidb, hpacket, heq⟩ |
    ⟨hshb, hidb, hepb, hspb, heq⟩ | ⟨hshb, hidb, hepb, hspb, heq⟩ | ⟨hother, hidb, hepb, hspb, heq⟩
  · rw [heq]
    exact ⟨fun w' hw' => (by cases hw'), fun hb => absurd hshb hb.oneSection⟩
  · rw [heq]
    exact onIdb_step h hshb hidb hpacket
  · rw [heq]
    exact onEpb_step h hshb hidb hepb hspb
  · rw [heq]
    exact onSpb_step h hshb hidb hepb hspb
  · rw [heq]
    refine ⟨fun w' hw' => ?_, fun _ => ⟨_, rfl⟩⟩
    cases hw'
    refine ⟨⟨fun hb => ?_, fun hb => absurd (hidb.symm.trans hb) Bool.false_ne_true,
      fun hb => absurd (hepb.symm.trans hb) Bool.false_ne_true,
      fun hb => absurd (hspb.symm.trans hb) Bool.false_ne_true⟩, h.other hother rfl⟩
    simp [isOther, hb] at hother

end Step

/-! ## The whole walk -/

theorem run_walks_blocks (crate : PcapFile) (e : SectionEndianness) (blocks : List RawBlock) :
    (∀ w, run (onNext crate e) {} blocks = .ok w → Accepted e blocks ∧ Walked e blocks w) ∧
    (Accepted e blocks → ∃ w, run (onNext crate e) {} blocks = .ok w) := by
  induction blocks using List.reverseRecOn with
  | nil =>
    constructor
    · intro w hw
      cases hw
      exact ⟨⟨by simp, .nil, Nat.zero_le _, by simp, by simp, by simp, by simp⟩, walked_nil e⟩
    · exact fun _ => ⟨_, rfl⟩
  | append_singleton pre b ih =>
    rw [run_snoc]
    constructor
    · intro w hw
      obtain ⟨w₁, hpre, hlast⟩ := bind_eq_ok.mp hw
      obtain ⟨haccepted, hwalked⟩ := ih.1 w₁ hpre
      obtain ⟨hb, hend⟩ := (onNext_step crate hwalked).1 w hlast
      exact ⟨accepted_snoc.mpr ⟨haccepted, hb⟩, hend⟩
    · intro h
      obtain ⟨haccepted, hb⟩ := accepted_snoc.mp h
      obtain ⟨w₁, hpre⟩ := ih.2 haccepted
      obtain ⟨w, hlast⟩ := (onNext_step crate (ih.1 w₁ hpre).2).2 hb
      exact ⟨w, bind_eq_ok.mpr ⟨w₁, hpre, hlast⟩⟩

/-- What is read from an accepted list of blocks. -/
structure ReadFrom (e : SectionEndianness) (blocks : List RawBlock) (source : PcapSource) :
    Prop where
  packets : source.packets.map some =
    (blocks.filter isPacket).map (packetOf e (tableOf e blocks))
  datalink : source.datalink = ((blocks.filter isIdb).head?.map (linkOf e)).getD .null
  skippedBlocks : source.skippedBlocks = min (blocks.countP isOther) (2 ^ 32 - 1)
  opbSkipped : source.opbSkipped = min (blocks.countP isOpb) (2 ^ 32 - 1)

/-- Exactly the lists of the grammar are read, with one packet for each packet block. -/
theorem readPcapngCrate_accepts (crate : PcapFile) {raw src : List UInt8} {parser : crate.Parser}
    {blocks : List RawBlock} (hnew : crate.newParser raw = .ok (src, parser))
    (hversion : crate.majorVersion parser = 1) (hblocks : Yields crate parser src blocks) :
    ((∃ source, readPcapngCrate crate raw = .ok source) ↔
      Accepted (crate.endianness parser) blocks) ∧
    ∀ source, readPcapngCrate crate raw = .ok source →
      ReadFrom (crate.endianness parser) blocks source := by
  have hread : readPcapngCrate crate raw =
      run (onNext crate (crate.endianness parser)) {} blocks >>= fun w => .ok w.source := by
    rw [readPcapngCrate, hnew, ← walkBlocks_eq hblocks _ (Nat.le_refl _)]
    show (if crate.majorVersion parser ≠ 1 then _ else _) = _
    rw [if_neg (not_not.mpr hversion)]
  obtain ⟨hsound, hcomplete⟩ := run_walks_blocks crate (crate.endianness parser) blocks
  rw [hread]
  refine ⟨⟨fun ⟨source, h⟩ => ?_, fun h => ?_⟩, fun source h => ?_⟩
  · obtain ⟨w, hw, -⟩ := bind_eq_ok.mp h
    exact (hsound w hw).1
  · obtain ⟨w, hw⟩ := hcomplete h
    exact ⟨w.source, bind_eq_ok.mpr ⟨w, hw, rfl⟩⟩
  · obtain ⟨w, hw, hout⟩ := bind_eq_ok.mp h
    cases hout
    have hwalked := (hsound w hw).2
    exact ⟨hwalked.packets, congrArg (·.getD .null) hwalked.firstLink, hwalked.skipped, hwalked.opb⟩

/-! ## A capture of one packet -/

/-- The records of a classic capture: times, two lengths and the data. -/
def plainRecords (e : SectionEndianness) : Nat → List UInt8 → List (Except PcapError RawPcapPacket)
  | 0, _ => []
  | turns + 1, src =>
    let len := (u32At e src 8).toNat
    if src.isEmpty then []
    else if src.length < 16 + len then [.error ⟨"Need more bytes", none⟩]
    else
      .ok ⟨u32At e src 0, u32At e src 4, (src.drop 16).take len⟩ ::
        plainRecords e turns (src.drop (16 + len))

/-- A crate that reads well-formed files: every block is its type, its length, its body and its
length again. -/
def plainCrate : PcapFile where
  Parser := SectionEndianness × UInt16
  newParser := fun raw =>
    let e : SectionEndianness :=
      if (raw.drop 8).take 4 = [0x1a, 0x2b, 0x3c, 0x4d] then .bigEndian else .littleEndian
    let len := (u32At e raw 4).toNat
    if raw.length < len ∨ len < 28 then .error ⟨"Need more bytes", none⟩
    else .ok (raw.drop len, e, u16At e raw 12)
  majorVersion := Prod.snd
  endianness := Prod.fst
  nextRawBlock := fun parser src =>
    let len := (u32At parser.1 src 4).toNat
    if src.length < len ∨ len < 12 then .error ⟨"Need more bytes", none⟩
    else .ok (src.drop len, ⟨u32At parser.1 src 0, (src.take (len - 4)).drop 8⟩, parser)
  newReader := fun r =>
    let bytes := r.readToEnd
    let e : SectionEndianness := if bytes.head? = some 0xa1 then .bigEndian else .littleEndian
    if bytes.length < 24 then .error ⟨"Need more bytes", none⟩
    else .ok ⟨⟨u32At e bytes 20⟩,
      if u32At e bytes 0 = 0xa1b23c4d then .nanoSecond else .microSecond,
      plainRecords e bytes.length (bytes.drop 24)⟩
  showDataLink := fun link => toString link.code

/-- A section header, an interface and a packet of two bytes. -/
def simpleCapture : List UInt8 :=
  [0x0a, 0x0d, 0x0d, 0x0a, 28, 0, 0, 0, 0x4d, 0x3c, 0x2b, 0x1a, 1, 0, 0, 0,
    255, 255, 255, 255, 255, 255, 255, 255, 28, 0, 0, 0] ++
  [1, 0, 0, 0, 20, 0, 0, 0, 1, 0, 0, 0, 0, 0, 0, 0, 20, 0, 0, 0] ++
  [3, 0, 0, 0, 20, 0, 0, 0, 2, 0, 0, 0, 0xaa, 0xbb, 0, 0, 20, 0, 0, 0]

def simpleBlocks : List RawBlock :=
  [⟨1, [1, 0, 0, 0, 0, 0, 0, 0]⟩, ⟨3, [2, 0, 0, 0, 0xaa, 0xbb, 0, 0]⟩]

theorem readPcapngCrate_accepts_simple :
    Yields plainCrate (.littleEndian, 1) (simpleCapture.drop 28) simpleBlocks ∧
    Accepted .littleEndian simpleBlocks ∧
    ∃ source, readPcapngCrate plainCrate simpleCapture = .ok source ∧
      ReadFrom .littleEndian simpleBlocks source := by
  have hyields : Yields plainCrate (.littleEndian, 1) (simpleCapture.drop 28) simpleBlocks :=
    .next rfl (by decide) (.next rfl (by decide) (.done _))
  have hnew : plainCrate.newParser simpleCapture =
      .ok (simpleCapture.drop 28, .littleEndian, 1) := rfl
  obtain ⟨hiff, hread⟩ := readPcapngCrate_accepts plainCrate hnew rfl hyields
  have hok : readPcapngCrate plainCrate simpleCapture =
      .ok ⟨[⟨0, 0, [0xaa, 0xbb]⟩], .ethernet, 0, 0, true⟩ := rfl
  exact ⟨hyields, hiff.mp ⟨_, hok⟩, _, hok, hread _ hok⟩

end Wirerust.Capture
