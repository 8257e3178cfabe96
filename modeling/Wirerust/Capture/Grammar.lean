import Wirerust.Capture.Reader

/-!
The grammar of a pcapng capture.

`Accepted` says which lists of blocks make a capture, without a word about the walk. `BlockOk` is
what it takes to add one more block, and `accepted_snoc` says so.
-/

namespace Wirerust.Capture

/-! ## The grammar -/

def isIdb (b : RawBlock) : Bool := b.type = idbBlockType

def isEpb (b : RawBlock) : Bool := b.type = epbBlockType

def isSpb (b : RawBlock) : Bool := b.type = spbBlockType

def isOpb (b : RawBlock) : Bool := b.type = opbBlockType

def isPacket (b : RawBlock) : Bool := isEpb b || isSpb b

/-- A block of any other type. -/
def isOther (b : RawBlock) : Bool :=
  b.type ∉ [shbBlockType, idbBlockType, epbBlockType, spbBlockType]

def linkOf (e : SectionEndianness) (b : RawBlock) : DataLink := ⟨(u16At e b.body 0).toUInt32⟩

def interfaceOf (e : SectionEndianness) (b : RawBlock) : InterfaceInfo :=
  ⟨linkOf e b, (parseIdbOptions b.body e).toOption.getD defaultTsresol⟩

/-- The table of all interfaces. -/
def tableOf (e : SectionEndianness) (blocks : List RawBlock) : List InterfaceInfo :=
  (blocks.filter isIdb).map (interfaceOf e)

/-- The packet of a packet block. -/
def packetOf (e : SectionEndianness) (interfaces : List InterfaceInfo) (b : RawBlock) :
    Option RawPacket :=
  if isEpb b then (decodeEpbBody b.body interfaces e).toOption else some (spbPacket e b.body)

structure Accepted (e : SectionEndianness) (blocks : List RawBlock) : Prop where
  oneSection : ∀ b ∈ blocks, b.type ≠ shbBlockType
  order : blocks.Pairwise fun b b' => isPacket b = true → isIdb b' = false
  room : (blocks.filter isIdb).length ≤ maxInterfaceTableEntries
  idbs : ∀ b ∈ blocks, isIdb b = true → idbBodyFixedBytes ≤ b.body.length ∧
    (linkOf e b).supported = true ∧ ∃ resol, parseIdbOptions b.body e = .ok resol
  links : ∀ b ∈ blocks, isIdb b = true → ∀ first, (blocks.filter isIdb).head? = some first →
    linkOf e b = linkOf e first
  epbs : ∀ b ∈ blocks, isEpb b = true →
    ∃ packet, decodeEpbBody b.body (tableOf e blocks) e = .ok packet
  spbs : ∀ pre b post, blocks = pre ++ b :: post → isSpb b = true →
    (∃ i ∈ pre, isIdb i = true) ∧ spbFixedOverheadBytes ≤ b.body.length

/-! ## One more block -/

/-- What is asked of a block that comes after `pre`. -/
structure BlockOk (e : SectionEndianness) (pre : List RawBlock) (b : RawBlock) : Prop where
  oneSection : b.type ≠ shbBlockType
  idb : isIdb b = true → (∀ b' ∈ pre, isPacket b' = false) ∧
    (pre.filter isIdb).length < maxInterfaceTableEntries ∧ idbBodyFixedBytes ≤ b.body.length ∧
    (linkOf e b).supported = true ∧
    (∀ first, (pre.filter isIdb).head? = some first → linkOf e first = linkOf e b) ∧
    ∃ resol, parseIdbOptions b.body e = .ok resol
  epb : isEpb b = true → ∃ packet, decodeEpbBody b.body (tableOf e pre) e = .ok packet
  spb : isSpb b = true → (∃ i ∈ pre, isIdb i = true) ∧ spbFixedOverheadBytes ≤ b.body.length

theorem append_singleton_eq_iff {α : Type} {l pre post : List α} {a b : α} :
    l ++ [a] = pre ++ b :: post ↔
      (l = pre ∧ a = b ∧ post = []) ∨ ∃ post', l = pre ++ b :: post' ∧ post = post' ++ [a] := by
  rcases List.eq_nil_or_concat post with rfl | ⟨post', c, rfl⟩
  · constructor
    · intro h
      obtain ⟨hl, ha⟩ := List.append_inj' h rfl
      exact .inl ⟨hl, by simpa using ha, rfl⟩
    · rintro (⟨rfl, rfl, -⟩ | ⟨post', -, h⟩)
      · rfl
      · simp at h
  · rw [List.concat_eq_append, ← List.cons_append, ← List.append_assoc]
    constructor
    · intro h
      obtain ⟨hl, ha⟩ := List.append_inj' h rfl
      exact .inr ⟨post', hl, by rw [List.cons.inj ha |>.1]⟩
    · rintro (⟨-, -, h⟩ | ⟨post'', rfl, h⟩)
      · simp at h
      · obtain ⟨hl, ha⟩ := List.append_inj' h rfl
        rw [hl, ha]

section Grammar

variable {e : SectionEndianness} {pre : List RawBlock} {b : RawBlock}

theorem isPacket_of_isIdb (h : isIdb b = true) : isPacket b = false := by
  have htype : b.type = idbBlockType := by simpa [isIdb] using h
  simp [isPacket, isEpb, isSpb, htype, idbBlockType, epbBlockType, spbBlockType]

theorem filter_snoc_of_idb (h : isIdb b = true) :
    (pre ++ [b]).filter isIdb = pre.filter isIdb ++ [b] := by
  rw [List.filter_append, List.filter_cons_of_pos h, List.filter_nil]

theorem filter_snoc_of_not_idb (h : isIdb b = false) :
    (pre ++ [b]).filter isIdb = pre.filter isIdb := by
  rw [List.filter_append, List.filter_cons_of_neg (by simp [h]), List.filter_nil, List.append_nil]

theorem tableOf_snoc_of_not_idb (e : SectionEndianness) (pre : List RawBlock)
    (h : isIdb b = false) :
    tableOf e (pre ++ [b]) = tableOf e pre := by
  rw [tableOf, filter_snoc_of_not_idb h, tableOf]

theorem mem_snoc {c : RawBlock} : c ∈ pre ++ [b] ↔ c ∈ pre ∨ c = b := by
  rw [List.mem_append, List.mem_singleton]

theorem order_snoc : (pre ++ [b]).Pairwise (fun b b' => isPacket b = true → isIdb b' = false) ↔
    pre.Pairwise (fun b b' => isPacket b = true → isIdb b' = false) ∧
      ∀ c ∈ pre, isPacket c = true → isIdb b = false := by
  rw [List.pairwise_append]
  simp

theorem head_snoc {first : RawBlock} (h : (pre.filter isIdb).head? = some first) :
    ((pre ++ [b]).filter isIdb).head? = some first := by
  rw [List.filter_append, List.head?_append, h, Option.some_or]

theorem isIdb_of_isPacket (h : isPacket b = true) : isIdb b = false := by
  cases hidb : isIdb b with
  | false => rfl
  | true =>
    rw [isPacket_of_isIdb hidb] at h
    cases h

theorem isPacket_of_isEpb (h : isEpb b = true) : isPacket b = true := by simp [isPacket, h]

theorem Accepted.init (h : Accepted e (pre ++ [b])) : Accepted e pre where
  oneSection := fun c hc => h.oneSection c (mem_snoc.mpr (.inl hc))
  order := (order_snoc.mp h.order).1
  room := by
    have hroom := h.room
    rw [List.filter_append, List.length_append] at hroom
    omega
  idbs := fun c hc => h.idbs c (mem_snoc.mpr (.inl hc))
  links := fun c hc hidb first hfirst => h.links c (mem_snoc.mpr (.inl hc)) hidb first
    (head_snoc hfirst)
  epbs := fun c hc hepb => by
    have hidb := (order_snoc.mp h.order).2 c hc (isPacket_of_isEpb hepb)
    rw [← tableOf_snoc_of_not_idb e pre hidb]
    exact h.epbs c (mem_snoc.mpr (.inl hc)) hepb
  spbs := fun l c r hpre hspb => h.spbs l c (r ++ [b])
    (append_singleton_eq_iff.mpr (.inr ⟨r, hpre, rfl⟩)) hspb

theorem Accepted.last (h : Accepted e (pre ++ [b])) : BlockOk e pre b where
  oneSection := h.oneSection b (mem_snoc.mpr (.inr rfl))
  idb := fun hidb => by
    obtain ⟨hlen, hlink, hopts⟩ := h.idbs b (mem_snoc.mpr (.inr rfl)) hidb
    refine ⟨fun c hc => ?_, ?_, hlen, hlink, fun first hfirst => ?_, hopts⟩
    · cases hpacket : isPacket c with
      | false => rfl
      | true =>
        rw [(order_snoc.mp h.order).2 c hc hpacket] at hidb
        cases hidb
    · have hroom := h.room
      rw [filter_snoc_of_idb hidb, List.length_append] at hroom
      exact hroom
    · exact (h.links b (mem_snoc.mpr (.inr rfl)) hidb first (head_snoc hfirst)).symm
  epb := fun hepb => by
    rw [← tableOf_snoc_of_not_idb e pre (isIdb_of_isPacket (isPacket_of_isEpb hepb))]
    exact h.epbs b (mem_snoc.mpr (.inr rfl)) hepb
  spb := fun hspb => h.spbs pre b [] rfl hspb

theorem Accepted.snoc (h : Accepted e pre) (hb : BlockOk e pre b) : Accepted e (pre ++ [b]) where
  oneSection := fun c hc => by
    rcases mem_snoc.mp hc with hc | rfl
    · exact h.oneSection c hc
    · exact hb.oneSection
  order := by
    refine order_snoc.mpr ⟨h.order, fun c hc hpacket => ?_⟩
    cases hidb : isIdb b with
    | false => rfl
    | true =>
      rw [(hb.idb hidb).1 c hc] at hpacket
      cases hpacket
  room := by
    cases hidb : isIdb b with
    | false =>
      rw [filter_snoc_of_not_idb hidb]
      exact h.room
    | true =>
      rw [filter_snoc_of_idb hidb, List.length_append]
      exact (hb.idb hidb).2.1
  idbs := fun c hc hidb => by
    rcases mem_snoc.mp hc with hc | rfl
    · exact h.idbs c hc hidb
    · obtain ⟨-, -, hlen, hlink, -, hopts⟩ := hb.idb hidb
      exact ⟨hlen, hlink, hopts⟩
  links := fun c hc hidb first hfirst => by
    cases hhead : (pre.filter isIdb).head? with
    | some first' =>
      rw [head_snoc hhead] at hfirst
      cases hfirst
      rcases mem_snoc.mp hc with hc | rfl
      · exact h.links c hc hidb first hhead
      · exact ((hb.idb hidb).2.2.2.2.1 first hhead).symm
    | none =>
      -- The block is the first interface, so there is nothing to agree with.
      have hnil : pre.filter isIdb = [] := List.head?_eq_none_iff.mp hhead
      rcases mem_snoc.mp hc with hc | rfl
      · have hmem : c ∈ pre.filter isIdb := List.mem_filter.mpr ⟨hc, hidb⟩
        rw [hnil] at hmem
        cases hmem
      · rw [filter_snoc_of_idb hidb, hnil] at hfirst
        cases hfirst
        rfl
  epbs := fun c hc hepb => by
    have hpacket := isPacket_of_isEpb hepb
    have hidb : isIdb b = false := by
      rcases mem_snoc.mp hc with hc | rfl
      · cases hidb : isIdb b with
        | false => rfl
        | true =>
          rw [(hb.idb hidb).1 c hc] at hpacket
          cases hpacket
      · exact isIdb_of_isPacket hpacket
    rw [tableOf_snoc_of_not_idb e pre hidb]
    rcases mem_snoc.mp hc with hc | rfl
    · exact h.epbs c hc hepb
    · exact hb.epb hepb
  spbs := fun l c r heq hspb => by
    rcases append_singleton_eq_iff.mp heq with ⟨rfl, rfl, -⟩ | ⟨r', hpre, -⟩
    · exact hb.spb hspb
    · exact h.spbs l c r' hpre hspb

theorem accepted_snoc : Accepted e (pre ++ [b]) ↔ Accepted e pre ∧ BlockOk e pre b :=
  ⟨fun h => ⟨h.init, h.last⟩, fun h => h.1.snoc h.2⟩

end Grammar

end Wirerust.Capture
