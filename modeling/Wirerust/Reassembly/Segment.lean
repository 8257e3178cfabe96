import Mathlib.Data.Nat.Basic
import Wirerust.Lib.SortedMap
import Wirerust.Machine

/-!
One direction of a TCP flow and its out-of-order buffer (`segment.rs`, and the
`FlowDirection` part of `flow.rs`).

`insertSegment` and `flushContiguous` are the two operations; `setIsn` and `inferIsn`
fix the initial sequence number, which places stream offset `1` at the first data byte.
The `BTreeMap` of segments is a `Lib.SortedMap` from start offset to bytes. A loop of the
source is a recursion over what the loop still has to visit.
-/

namespace Wirerust.Segment

open Lib

inductive InsertResult
  | inserted
  | duplicate
  | partialOverlap
  | conflictingOverlap
  | truncated
  | depthExceeded
  | segmentLimitReached
  | outOfWindow
  | isnMissing
  deriving DecidableEq, Repr

structure FlowDirection where
  isn : Option UInt32
  baseOffset : Nat
  segments : SortedMap Nat (List UInt8)
  bufferedBytes : Nat
  reassembledBytes : Nat
  overlapCount : Nat
  overlapAlertFired : Bool
  smallSegmentRun : Nat
  smallSegmentAlertFired : Bool
  outOfWindowCount : Nat
  outOfWindowAlertFired : Bool
  finSeen : Bool
  rstSeen : Bool
  depthExceeded : Bool
  deriving DecidableEq

/-- The three limits every insertion is given. -/
structure Limits where
  maxDepth : Nat
  maxSegments : Nat
  maxReceiveWindow : Nat
  deriving DecidableEq, Repr

def FlowDirection.new : FlowDirection where
  isn := none
  baseOffset := 0
  segments := .empty
  bufferedBytes := 0
  reassembledBytes := 0
  overlapCount := 0
  overlapAlertFired := false
  smallSegmentRun := 0
  smallSegmentAlertFired := false
  outOfWindowCount := 0
  outOfWindowAlertFired := false
  finSeen := false
  rstSeen := false
  depthExceeded := false

def setIsn (d : FlowDirection) (isn : UInt32) : FlowDirection :=
  if d.isn.isNone then { d with isn := some isn, baseOffset := 1 } else d

def inferIsn (d : FlowDirection) (firstSeq : UInt32) : FlowDirection :=
  if d.isn.isNone then { d with isn := some (firstSeq - 1), baseOffset := 1 } else d

def memoryUsed (d : FlowDirection) : Checked Nat := do
  assertThat (d.bufferedBytes = (d.segments.entries.map fun e => e.2.length).sum)
  .ok d.bufferedBytes

/-! ## Offsets and overlaps -/

/-- `seq.wrapping_sub(isn) as u64`. -/
def seqOffset (seq isn : UInt32) : Nat := (seq - isn).toNat

def rangesOverlap (newStart newEnd existingOffset existingEnd : Nat) : Bool :=
  newStart < existingEnd && newEnd > existingOffset

def segmentOverlap (newStart : Nat) (newData : List UInt8) (existingOffset : Nat)
    (existingData : List UInt8) : Checked (Bool × Bool) :=
  let newEnd := newStart + newData.length
  let existingEnd := existingOffset + existingData.length
  if rangesOverlap newStart newEnd existingOffset existingEnd then do
    let overlapStart := max newStart existingOffset
    let overlapEnd := min newEnd existingEnd
    let newSliceStart ← checkedSub overlapStart newStart
    let newSliceEnd ← checkedSub overlapEnd newStart
    let existingSliceStart ← checkedSub overlapStart existingOffset
    let existingSliceEnd ← checkedSub overlapEnd existingOffset
    if newSliceEnd ≤ newData.length ∧ existingSliceEnd ≤ existingData.length then do
      let newSlice ← slice newData newSliceStart newSliceEnd
      let existingSlice ← slice existingData existingSliceStart existingSliceEnd
      .ok (true, newSlice != existingSlice)
    else
      .ok (true, false)
  else
    .ok (false, false)

structure SelectGaps where
  fullyCovered : Bool
  gaps : List (Nat × Nat)
  deriving DecidableEq, Repr

/-- The cursor sweep over the ranges not visited yet. -/
def sweepGaps (newStart newEnd : Nat) : Nat → List (Nat × Nat) → SelectGaps
  | cursor, [] => ⟨false, if cursor < newEnd then [(cursor, newEnd)] else []⟩
  | cursor, (es, ee) :: rest =>
    if rangesOverlap newStart newEnd es ee then
      let tail := sweepGaps newStart newEnd (max cursor ee) rest
      ⟨(es ≤ newStart && ee ≥ newEnd) || tail.fullyCovered,
        if cursor < es then (cursor, min es newEnd) :: tail.gaps else tail.gaps⟩
    else
      sweepGaps newStart newEnd cursor rest

/-- `existing.windows(2).all(|w| w[0].0 <= w[1].0)`. -/
def sortedByStart : List (Nat × Nat) → Bool
  | a :: b :: rest => a.1 ≤ b.1 && sortedByStart (b :: rest)
  | _ => true

def selectGaps (newStart newEnd : Nat) (existing : List (Nat × Nat)) : Checked SelectGaps := do
  assertThat (sortedByStart existing = true)
  .ok (sweepGaps newStart newEnd newStart existing)

/-! ## Insertion -/

/-- What the scan of the buffered segments that start before `newEnd` collects. -/
structure Overlaps where
  hasOverlap : Bool
  hasConflict : Bool
  overlappingRanges : List (Nat × Nat)

def scanOverlaps (newStart : Nat) (segmentData : List UInt8) :
    List (Nat × List UInt8) → Checked Overlaps
  | [] => .ok ⟨false, false, []⟩
  | (existingOffset, existingData) :: rest => do
    let existingEnd := existingOffset + existingData.length
    let (overlaps, conflicts) ←
      segmentOverlap newStart segmentData existingOffset existingData
    let others ← scanOverlaps newStart segmentData rest
    if overlaps then
      .ok ⟨true, conflicts || others.hasConflict,
        (existingOffset, existingEnd) :: others.overlappingRanges⟩
    else
      .ok others

/-- `self.segments.insert` with the accounting that follows it. The `old` branch of the
source is the failed assertion. -/
def storeSegment (d : FlowDirection) (key : Nat) (data : List UInt8) : Checked FlowDirection := do
  assertThat (d.segments.get? key = none)
  .ok { d with
    segments := d.segments.insert key data
    bufferedBytes := d.bufferedBytes + data.length }

/-- The gap loop; the flag says that the segment limit cut it short. -/
def fillGaps (newStart : Nat) (segmentData : List UInt8) (maxSegments : Nat) :
    FlowDirection → List (Nat × Nat) → Checked (FlowDirection × Bool)
  | d, [] => .ok (d, false)
  | d, (gapStart, gapEnd) :: gaps =>
    if d.segments.size ≥ maxSegments then
      .ok (d, true)
    else do
      let startIdx ← checkedSub gapStart newStart
      let endIdx ← checkedSub gapEnd newStart
      if startIdx < segmentData.length ∧ endIdx ≤ segmentData.length then do
        let gapData ← slice segmentData startIdx endIdx
        if gapData.isEmpty then
          fillGaps newStart segmentData maxSegments d gaps
        else do
          let d' ← storeSegment d gapStart gapData
          fillGaps newStart segmentData maxSegments d' gaps
      else
        fillGaps newStart segmentData maxSegments d gaps

def gapResult (hadGap hasConflict segmentsExhausted truncated : Bool) : InsertResult :=
  if !hadGap && hasConflict then .conflictingOverlap
  else if !hadGap then .duplicate
  else if segmentsExhausted then .segmentLimitReached
  else if truncated then .truncated
  else .partialOverlap

/-- The part of `insert_segment` after the guards, on the depth-truncated bytes. -/
def bufferSegment (d : FlowDirection) (offset : Nat) (segmentData : List UInt8)
    (truncated : Bool) (maxSegments : Nat) : Checked (FlowDirection × InsertResult) := do
  let newEnd := offset + segmentData.length
  let found ← scanOverlaps offset segmentData
    (d.segments.entries.filter (fun e => e.1 < newEnd))
  if found.hasOverlap then do
    let d := { d with overlapCount := saturatingInc 32 d.overlapCount }
    let sel ← selectGaps offset newEnd found.overlappingRanges
    if sel.fullyCovered then
      .ok (d, if found.hasConflict then .conflictingOverlap else .duplicate)
    else do
      let (d, segmentsExhausted) ← fillGaps offset segmentData maxSegments d sel.gaps
      .ok (d, gapResult (!sel.gaps.isEmpty) found.hasConflict segmentsExhausted truncated)
  else do
    let d ← storeSegment d offset segmentData
    .ok (d, if truncated then .truncated else .inserted)

def insertSegment (d : FlowDirection) (seq : UInt32) (data : List UInt8) (lim : Limits) :
    Checked (FlowDirection × InsertResult) :=
  if data.isEmpty then
    .ok (d, .inserted)
  else
    match d.isn with
    | none => .ok (d, .isnMissing)
    | some isn =>
      let offset := seqOffset seq isn
      let endOffset := offset + data.length
      if endOffset < d.baseOffset then
        .ok ({ d with outOfWindowCount := saturatingInc 32 d.outOfWindowCount }, .outOfWindow)
      else if offset > d.baseOffset + lim.maxReceiveWindow then
        .ok ({ d with outOfWindowCount := saturatingInc 32 d.outOfWindowCount }, .outOfWindow)
      else if d.segments.size ≥ lim.maxSegments then
        .ok (d, .segmentLimitReached)
      else if lim.maxDepth - d.reassembledBytes = 0 then
        .ok ({ d with depthExceeded := true }, .depthExceeded)
      else
        let totalAfter := d.reassembledBytes + d.bufferedBytes + data.length
        if totalAfter > lim.maxDepth then
          let allowed := lim.maxDepth - (d.reassembledBytes + d.bufferedBytes)
          if allowed = 0 then
            .ok ({ d with depthExceeded := true }, .depthExceeded)
          else
            bufferSegment { d with depthExceeded := true } offset (data.take allowed) true
              lim.maxSegments
        else
          bufferSegment d offset data false lim.maxSegments

/-! ## Flushing -/

/-- The `while let` loop of `flush_contiguous`. Every turn removes a segment, so as many
turns as there are segments are enough. -/
def flushLoop : Nat → FlowDirection → Checked (FlowDirection × List (Nat × List UInt8))
  | 0, d => .ok (d, [])
  | turns + 1, d =>
    match d.segments.get? d.baseOffset with
    | none => .ok (d, [])
    | some data => do
      let bufferedBytes ← checkedSub d.bufferedBytes data.length
      let (d', flushed) ← flushLoop turns
        { d with
          segments := d.segments.erase d.baseOffset
          bufferedBytes := bufferedBytes
          baseOffset := d.baseOffset + data.length
          reassembledBytes := d.reassembledBytes + data.length }
      .ok (d', (d.baseOffset, data) :: flushed)

def flushContiguous (d : FlowDirection) : Checked (FlowDirection × List (Nat × List UInt8)) :=
  flushLoop d.segments.size d

end Wirerust.Segment
