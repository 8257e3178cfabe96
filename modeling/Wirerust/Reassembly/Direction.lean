import Wirerust.Reassembly.Buffer

/-!
The two operations of a direction, each with one lemma that says all it does.

* `insertSegment_spec`: the guards let a segment through or not (`admittedSegment`), and
  what gets through is stored as `storedPieces` says, with the result that `Classified` gives.
* `flushContiguous_returns`: the chunks handed out are buffered segments, they follow one
  another from the old cursor to the new one, and nothing is left at the new cursor.
* `Wf` is kept by both, so neither ever panics.
-/

namespace Wirerust.Direction

open Lib Wirerust.Segment Wirerust.Gaps Wirerust.Buffer

/-- Non-empty segments that share no offset, counted by `buffered_bytes`. -/
structure Wf (d : FlowDirection) : Prop extends Tidy d where
  accounted : d.bufferedBytes = (contents d.segments.entries).length

theorem contents_length_perm {cs ds : List (Chunk UInt8)} (h : cs.Perm ds) :
    (contents cs).length = (contents ds).length := by
  simp only [contents, List.length_flatMap]
  exact (h.map _).sum_nat

/-! ## Insertion -/

/-- The segment that reaches the buffer: past the window, segment and depth guards, cut to
the depth that is left. -/
def admittedSegment (d : FlowDirection) (seq : UInt32) (data : List UInt8) (lim : Limits) :
    Option (Chunk UInt8) :=
  match d.isn with
  | none => none
  | some isn =>
    if data ≠ [] ∧ d.baseOffset ≤ seqOffset seq isn + data.length ∧
        seqOffset seq isn ≤ d.baseOffset + lim.maxReceiveWindow ∧
        d.segments.size < lim.maxSegments ∧
        d.reassembledBytes + d.bufferedBytes < lim.maxDepth then
      some (seqOffset seq isn, data.take (lim.maxDepth - (d.reassembledBytes + d.bufferedBytes)))
    else none

/-- The segment is past the window and segment guards, and longer than the depth that is left. -/
def losesDepth (d : FlowDirection) (seq : UInt32) (data : List UInt8) (lim : Limits) : Bool :=
  match d.isn with
  | none => false
  | some isn =>
    data ≠ [] ∧ d.baseOffset ≤ seqOffset seq isn + data.length ∧
      seqOffset seq isn ≤ d.baseOffset + lim.maxReceiveWindow ∧
      d.segments.size < lim.maxSegments ∧
      lim.maxDepth < d.reassembledBytes + d.bufferedBytes + data.length

/-- The result of a call, and what it does to the flag of the depth. -/
structure Answered (d : FlowDirection) (seq : UInt32) (data : List UInt8) (lim : Limits)
    (out : FlowDirection × InsertResult) : Prop where
  admitted : ∀ new, admittedSegment d seq data lim = some new →
    Classified d new (losesDepth d seq data lim) lim.maxSegments out.2
  refused : admittedSegment d seq data lim = none →
    out.2 ≠ .conflictingOverlap ∧ out.2 ≠ .truncated
  exceeded : out.1.depthExceeded = (d.depthExceeded || losesDepth d seq data lim)

def insertedPieces (d : FlowDirection) (seq : UInt32) (data : List UInt8) (lim : Limits) :
    List (Chunk UInt8) :=
  match admittedSegment d seq data lim with
  | none => []
  | some new => storedPieces d new lim.maxSegments

theorem admittedSegment_fits {d : FlowDirection} {seq : UInt32} {data : List UInt8}
    {lim : Limits} {new : Chunk UInt8} (h : admittedSegment d seq data lim = some new) :
    d.segments.size < lim.maxSegments ∧
      d.reassembledBytes + d.bufferedBytes + new.2.length ≤ lim.maxDepth := by
  unfold admittedSegment at h
  split at h
  · cases h
  · split at h
    · rename_i hg
      cases h
      simp only [List.length_take]
      omega
    · cases h

theorem stored_nil {d d' : FlowDirection} (h : d' = { d with
    overlapCount := d'.overlapCount
    outOfWindowCount := d'.outOfWindowCount
    depthExceeded := d'.depthExceeded }) : Stored d d' [] := by
  rw [h]
  exact ⟨by simp [contents], by simp⟩

theorem admittedSegment_of_isn {d : FlowDirection} {isn : UInt32} (h : d.isn = some isn)
    (seq : UInt32) (data : List UInt8) (lim : Limits) :
    admittedSegment d seq data lim =
      if data ≠ [] ∧ d.baseOffset ≤ seqOffset seq isn + data.length ∧
          seqOffset seq isn ≤ d.baseOffset + lim.maxReceiveWindow ∧
          d.segments.size < lim.maxSegments ∧
          d.reassembledBytes + d.bufferedBytes < lim.maxDepth then
        some (seqOffset seq isn, data.take (lim.maxDepth - (d.reassembledBytes + d.bufferedBytes)))
      else none := by
  rw [admittedSegment, h]

theorem admittedSegment_nil (d : FlowDirection) (seq : UInt32) (lim : Limits) :
    admittedSegment d seq [] lim = none := by
  unfold admittedSegment
  split
  · rfl
  · rw [if_neg (by simp)]

/-- The guards of `insert_segment`, once the ISN is known and there is a byte to insert. -/
theorem insertSegment_of_isn {d : FlowDirection} {isn : UInt32} (h : d.isn = some isn)
    (seq : UInt32) {data : List UInt8} (hne : data ≠ []) (lim : Limits) :
    insertSegment d seq data lim =
      if seqOffset seq isn + data.length < d.baseOffset then
        .ok ({ d with outOfWindowCount := saturatingInc 32 d.outOfWindowCount }, .outOfWindow)
      else if seqOffset seq isn > d.baseOffset + lim.maxReceiveWindow then
        .ok ({ d with outOfWindowCount := saturatingInc 32 d.outOfWindowCount }, .outOfWindow)
      else if d.segments.size ≥ lim.maxSegments then
        .ok (d, .segmentLimitReached)
      else if lim.maxDepth - d.reassembledBytes = 0 then
        .ok ({ d with depthExceeded := true }, .depthExceeded)
      else if d.reassembledBytes + d.bufferedBytes + data.length > lim.maxDepth then
        if lim.maxDepth - (d.reassembledBytes + d.bufferedBytes) = 0 then
          .ok ({ d with depthExceeded := true }, .depthExceeded)
        else
          bufferSegment { d with depthExceeded := true } (seqOffset seq isn)
            (data.take (lim.maxDepth - (d.reassembledBytes + d.bufferedBytes))) true
            lim.maxSegments
      else
        bufferSegment d (seqOffset seq isn) data false lim.maxSegments := by
  have hdata : data.isEmpty = false := List.isEmpty_eq_false_iff.mpr hne
  cases d
  simp only at h
  subst h
  simp [insertSegment, hdata]

theorem losesDepth_of_isn {d : FlowDirection} {isn : UInt32} (h : d.isn = some isn)
    (seq : UInt32) (data : List UInt8) (lim : Limits) :
    losesDepth d seq data lim = true ↔
      data ≠ [] ∧ d.baseOffset ≤ seqOffset seq isn + data.length ∧
        seqOffset seq isn ≤ d.baseOffset + lim.maxReceiveWindow ∧
        d.segments.size < lim.maxSegments ∧
        lim.maxDepth < d.reassembledBytes + d.bufferedBytes + data.length := by
  rw [losesDepth, h]
  exact decide_eq_true_iff

theorem losesDepth_nil (d : FlowDirection) (seq : UInt32) (lim : Limits) :
    losesDepth d seq [] lim = false := by
  unfold losesDepth
  split
  · rfl
  · simp

/-- A segment that the guards turn away. -/
theorem refused_spec {d d' : FlowDirection} {seq : UInt32} {data : List UInt8} {lim : Limits}
    {result : InsertResult} (h : admittedSegment d seq data lim = none)
    (hframe : d' = { d with
      overlapCount := d'.overlapCount
      outOfWindowCount := d'.outOfWindowCount
      depthExceeded := d'.depthExceeded })
    (hresult : result ≠ .conflictingOverlap ∧ result ≠ .truncated)
    (hflag : d'.depthExceeded = (d.depthExceeded || losesDepth d seq data lim)) :
    Stored d d' (insertedPieces d seq data lim) ∧ Answered d seq data lim (d', result) := by
  refine ⟨?_, ⟨fun new hnew => ?_, fun _ => hresult, hflag⟩⟩
  · rw [insertedPieces, h]
    exact stored_nil hframe
  · rw [h] at hnew
    cases hnew

/-- A segment that the guards let through. -/
theorem admitted_spec {d : FlowDirection} (ht : Tidy d) {seq : UInt32} {data : List UInt8}
    {lim : Limits} {new : Chunk UInt8} (h : admittedSegment d seq data lim = some new)
    (hne : new.2 ≠ []) {lost : Bool} (hlost : losesDepth d seq data lim = lost) :
    Returns (bufferSegment { d with depthExceeded := d.depthExceeded || lost } new.1 new.2 lost
      lim.maxSegments) (fun out =>
        Stored d out.1 (insertedPieces d seq data lim) ∧ Answered d seq data lim out) := by
  subst hlost
  have hroom := (admittedSegment_fits h).1
  refine (bufferSegment_returns
    (d := { d with depthExceeded := d.depthExceeded || losesDepth d seq data lim })
    ⟨ht.nonempty, ht.apart⟩ new hne (losesDepth d seq data lim) hroom).mono fun out hout => ?_
  obtain ⟨hstored, hflag, hclass⟩ := hout
  refine ⟨?_, ⟨fun new' hnew => ?_, fun hnone => ?_, hflag⟩⟩
  · rw [insertedPieces, h]
    refine ⟨?_, hstored.entries⟩
    rw [hstored.frame]
    rfl
  · rw [h] at hnew
    cases hnew
    exact ⟨hclass.conflict, hclass.duplicate, hclass.limit, hclass.cut, hclass.whole⟩
  · rw [h] at hnone
    cases hnone

theorem insertSegment_spec {d : FlowDirection} (ht : Tidy d) (seq : UInt32)
    (data : List UInt8) (lim : Limits) :
    Returns (insertSegment d seq data lim) (fun out =>
      Stored d out.1 (insertedPieces d seq data lim) ∧ Answered d seq data lim out) := by
  by_cases hne : data = []
  · subst hne
    refine Returns.pure (refused_spec (admittedSegment_nil d seq lim) rfl (by decide) ?_)
    rw [losesDepth_nil, Bool.or_false]
  cases hisn : d.isn with
  | none =>
    have hdata : data.isEmpty = false := List.isEmpty_eq_false_iff.mpr hne
    have hnone : admittedSegment d seq data lim = none := by rw [admittedSegment, hisn]
    have hloss : losesDepth d seq data lim = false := by rw [losesDepth, hisn]
    rw [insertSegment, hdata, hisn]
    exact Returns.pure (refused_spec hnone rfl (by decide) (by rw [hloss, Bool.or_false]))
  | some isn =>
    have hpos := List.length_pos_iff.mpr hne
    have hadm := admittedSegment_of_isn hisn seq data lim
    have hloses := losesDepth_of_isn hisn seq data lim
    have hkeeps : losesDepth d seq data lim = false →
        d.depthExceeded = (d.depthExceeded || losesDepth d seq data lim) := fun h => by
      rw [h, Bool.or_false]
    have hsets : losesDepth d seq data lim = true →
        true = (d.depthExceeded || losesDepth d seq data lim) := fun h => by
      rw [h, Bool.or_true]
    rw [insertSegment_of_isn hisn seq hne]
    by_cases h₁ : seqOffset seq isn + data.length < d.baseOffset
    · rw [if_neg (fun h => by omega)] at hadm
      rw [if_pos h₁]
      refine Returns.pure (refused_spec hadm rfl (by decide) (hkeeps ?_))
      rw [Bool.eq_false_iff, Ne, hloses]
      omega
    rw [if_neg h₁]
    by_cases h₂ : seqOffset seq isn > d.baseOffset + lim.maxReceiveWindow
    · rw [if_neg (fun h => by omega)] at hadm
      rw [if_pos h₂]
      refine Returns.pure (refused_spec hadm rfl (by decide) (hkeeps ?_))
      rw [Bool.eq_false_iff, Ne, hloses]
      omega
    rw [if_neg h₂]
    by_cases h₃ : d.segments.size ≥ lim.maxSegments
    · rw [if_neg (fun h => by omega)] at hadm
      rw [if_pos h₃]
      refine Returns.pure (refused_spec hadm rfl (by decide) (hkeeps ?_))
      rw [Bool.eq_false_iff, Ne, hloses]
      omega
    rw [if_neg h₃]
    by_cases h₄ : lim.maxDepth - d.reassembledBytes = 0
    · rw [if_neg (fun h => by omega)] at hadm
      rw [if_pos h₄]
      refine Returns.pure (refused_spec hadm rfl (by decide) (hsets (hloses.mpr ?_)))
      exact ⟨hne, by omega, by omega, by omega, by omega⟩
    rw [if_neg h₄]
    by_cases h₅ : d.reassembledBytes + d.bufferedBytes + data.length > lim.maxDepth
    · have hlost := hloses.mpr ⟨hne, by omega, by omega, by omega, h₅⟩
      rw [if_pos h₅]
      by_cases h₆ : lim.maxDepth - (d.reassembledBytes + d.bufferedBytes) = 0
      · rw [if_neg (fun h => by omega)] at hadm
        rw [if_pos h₆]
        exact Returns.pure (refused_spec hadm rfl (by decide) (hsets hlost))
      · rw [if_pos ⟨hne, by omega, by omega, by omega, by omega⟩] at hadm
        have hcut : data.take (lim.maxDepth - (d.reassembledBytes + d.bufferedBytes)) ≠ [] := by
          rw [← List.length_pos_iff, List.length_take]
          omega
        rw [if_neg h₆]
        have hspec := admitted_spec ht hadm hcut hlost
        rwa [Bool.or_true] at hspec
    · rw [if_pos ⟨hne, by omega, by omega, by omega, by omega⟩,
        List.take_of_length_le (by omega)] at hadm
      have hkept : losesDepth d seq data lim = false := by
        rw [Bool.eq_false_iff, Ne, hloses]
        omega
      rw [if_neg h₅]
      have hspec := admitted_spec ht hadm hne hkept
      rwa [Bool.or_false] at hspec

theorem insertSegment_returns {d : FlowDirection} (ht : Tidy d) (seq : UInt32)
    (data : List UInt8) (lim : Limits) :
    Returns (insertSegment d seq data lim) (fun out =>
      Stored d out.1 (insertedPieces d seq data lim)) :=
  (insertSegment_spec ht seq data lim).mono fun _ h => h.1

theorem insertedPieces_bytes_le {d : FlowDirection} (ht : Tidy d) (seq : UInt32)
    (data : List UInt8) (lim : Limits) :
    (contents (insertedPieces d seq data lim)).length ≤ data.length := by
  unfold insertedPieces
  cases hadm : admittedSegment d seq data lim with
  | none => exact Nat.zero_le _
  | some new =>
    refine Nat.le_trans (storedPieces_bytes_le new ht lim.maxSegments) ?_
    unfold admittedSegment at hadm
    split at hadm
    · cases hadm
    · split at hadm
      · cases hadm
        exact (List.take_prefix _ _).length_le
      · cases hadm

theorem insertedPieces_nonempty (d : FlowDirection) (seq : UInt32) (data : List UInt8)
    (lim : Limits) : ∀ c ∈ insertedPieces d seq data lim, c.2 ≠ [] := by
  unfold insertedPieces
  split
  · simp
  · exact storedPieces_nonempty _ _

theorem insertedPieces_apart {d : FlowDirection} (ht : Tidy d) (seq : UInt32) (data : List UInt8)
    (lim : Limits) : (insertedPieces d seq data lim).Pairwise Chunk.Apart := by
  unfold insertedPieces
  split
  · simp
  · exact storedPieces_apart _ ht _

theorem insertedPieces_free {d : FlowDirection} (ht : Tidy d) (seq : UInt32) (data : List UInt8)
    (lim : Limits) : ∀ c ∈ insertedPieces d seq data lim, ∀ e ∈ d.segments.entries, c.Apart e := by
  unfold insertedPieces
  split
  · simp
  · exact storedPieces_free _ ht _

theorem Stored.wf {d d' : FlowDirection} {seq : UInt32} {data : List UInt8} {lim : Limits}
    (h : Stored d d' (insertedPieces d seq data lim)) (hwf : Wf d) : Wf d' where
  toTidy := h.tidy hwf.toTidy (insertedPieces_nonempty d seq data lim)
    (insertedPieces_apart hwf.toTidy seq data lim) (insertedPieces_free hwf.toTidy seq data lim)
  accounted := by
    rw [contents_length_perm h.entries, contents_append, List.length_append, h.bufferedBytes,
      hwf.accounted, Nat.add_comm]

/-- First wins: an offset keeps the byte it has, and a free one gets the inserted byte. -/
theorem Stored.byteAt {d d' : FlowDirection} {seq : UInt32} {data : List UInt8} {lim : Limits}
    (h : Stored d d' (insertedPieces d seq data lim)) (ht : Tidy d) (p : Nat) :
    byteAt d' p = (byteAt d p).or (valueAt (insertedPieces d seq data lim) p) := by
  have hap : (d.segments.entries ++ insertedPieces d seq data lim).Pairwise Chunk.Apart := by
    rw [List.pairwise_append]
    exact ⟨ht.apart, insertedPieces_apart ht seq data lim, fun e he c hc =>
      (insertedPieces_free ht seq data lim c hc e he).symm⟩
  rw [Buffer.byteAt, valueAt_perm (h.entries.trans List.perm_append_comm) hap, valueAt_append]
  rfl

/-! ## Flushing -/

/-- `chunks` has left the buffer of `d` in stream order, and `d'` is what remains. -/
structure Flushed (d d' : FlowDirection) (chunks : List (Chunk UInt8)) : Prop where
  frame : d' = { d with
    segments := d'.segments
    bufferedBytes := d'.bufferedBytes
    baseOffset := d'.baseOffset
    reassembledBytes := d.reassembledBytes + (contents chunks).length }
  entries : d.segments.entries.Perm (chunks ++ d'.segments.entries)
  contiguous : ContiguousFrom d.baseOffset chunks d'.baseOffset
  bufferedBytes : d.bufferedBytes = (contents chunks).length + d'.bufferedBytes
  drained : d'.segments.get? d'.baseOffset = none

theorem flushLoop_returns (turns : Nat) (d : FlowDirection) (hturns : d.segments.size ≤ turns)
    (hacc : d.bufferedBytes = (contents d.segments.entries).length) :
    Returns (flushLoop turns d) (fun out => Flushed d out.1 out.2) := by
  have hdone : d.segments.get? d.baseOffset = none → Flushed d d [] := fun h =>
    ⟨by simp [contents], by simp, rfl, by simp [contents], h⟩
  induction turns generalizing d with
  | zero =>
    refine Returns.pure (hdone ?_)
    have hnil : d.segments.entries = [] := List.length_eq_zero_iff.mp (Nat.le_zero.mp hturns)
    simp [SortedMap.get?, hnil]
  | succ turns ih =>
    unfold flushLoop
    cases hget : d.segments.get? d.baseOffset with
    | none => exact Returns.pure (hdone hget)
    | some data =>
      have hperm := d.segments.erase_perm hget
      have hlen := contents_length_perm hperm
      rw [show (d.baseOffset, data) :: (d.segments.erase d.baseOffset).entries =
        [(d.baseOffset, data)] ++ (d.segments.erase d.baseOffset).entries from rfl,
        contents_append, List.length_append] at hlen
      have hdata : (contents [(d.baseOffset, data)]).length = data.length := by simp [contents]
      simp only
      rw [checkedSub_of_le (by omega)]
      simp only [bind, Except.bind]
      have hsize := d.segments.size_erase_of_some hget
      refine (ih { d with
          segments := d.segments.erase d.baseOffset
          bufferedBytes := d.bufferedBytes - data.length
          baseOffset := d.baseOffset + data.length
          reassembledBytes := d.reassembledBytes + data.length }
        (by simp only; omega) (by simp only; omega)
        (fun h => ⟨by simp [contents], by simp, rfl, by simp [contents], h⟩)).bind
        fun out hout => Returns.pure ?_
      have hcons : (contents ((d.baseOffset, data) :: out.2)).length =
          data.length + (contents out.2).length := by simp [contents]
      refine ⟨?_, ?_, ⟨rfl, hout.contiguous⟩, ?_, hout.drained⟩
      · rw [hout.frame, hcons]
        simp only [Nat.add_assoc]
      · exact hperm.trans (hout.entries.cons _)
      · have := hout.bufferedBytes
        simp only at this ⊢
        rw [hcons]
        omega

theorem flushContiguous_returns {d : FlowDirection} (hwf : Wf d) :
    Returns (flushContiguous d) (fun out => Flushed d out.1 out.2) :=
  flushLoop_returns _ d (Nat.le_refl _) hwf.accounted

namespace Flushed

variable {d d' : FlowDirection} {chunks : List (Chunk UInt8)}

theorem isn (h : Flushed d d' chunks) : d'.isn = d.isn := by rw [h.frame]

theorem finSeen (h : Flushed d d' chunks) : d'.finSeen = d.finSeen := by rw [h.frame]

theorem reassembledBytes (h : Flushed d d' chunks) :
    d'.reassembledBytes = d.reassembledBytes + (contents chunks).length := by rw [h.frame]

theorem baseOffset (h : Flushed d d' chunks) :
    d'.baseOffset = d.baseOffset + (contents chunks).length := contiguousFrom_le h.contiguous

theorem size (h : Flushed d d' chunks) : d.segments.size = chunks.length + d'.segments.size := by
  simpa [SortedMap.size] using h.entries.length_eq

theorem mem (h : Flushed d d' chunks) {e : Chunk UInt8} (he : e ∈ d'.segments.entries) :
    e ∈ d.segments.entries := h.entries.mem_iff.mpr (List.mem_append_right _ he)

theorem apart (h : Flushed d d' chunks) (ht : Tidy d) :
    (chunks ++ d'.segments.entries).Pairwise Chunk.Apart :=
  (h.entries.pairwise_iff fun h => h.symm).mp ht.apart

theorem wf (h : Flushed d d' chunks) (hwf : Wf d) : Wf d' where
  nonempty := fun e he => hwf.nonempty e (h.mem he)
  apart := (List.pairwise_append.mp (h.apart hwf.toTidy)).2.1
  accounted := by
    have := h.bufferedBytes
    rw [hwf.accounted, contents_length_perm h.entries, contents_append, List.length_append] at this
    omega

/-- Every buffered byte is either handed out or still there, unchanged. -/
theorem byteAt (h : Flushed d d' chunks) (ht : Tidy d) (p : Nat) :
    byteAt d p = (valueAt chunks p).or (byteAt d' p) := by
  rw [Buffer.byteAt, valueAt_perm h.entries (h.apart ht), valueAt_append]
  rfl

end Flushed

end Wirerust.Direction
