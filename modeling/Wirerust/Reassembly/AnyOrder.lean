import Mathlib.Data.List.Infix
import Wirerust.Lib.Words
import Wirerust.Reassembly.Runs

/-!
Reassembly of a stream that arrives in any order.

A byte stream is cut into non-empty segments, and the segments are delivered in any order,
each at least once: every delivery is one `insert_segment` followed by one
`flush_contiguous`. `anyOrder_reassembles`: whatever the order, the repetitions and the
initial sequence number, the chunks handed out spell the stream.

The invariant (`Placed`) is that the segments before some index `f` have been handed out,
that every buffered entry is a whole segment, and that every segment from `f` on that has
arrived is buffered. Copies of delivered segments may be buffered too; they count against
the limits, but leave room as long as segment `f` is missing.
-/

namespace Wirerust.AnyOrder

open Lib Wirerust.Segment Wirerust.Buffer Wirerust.Direction Wirerust.Runs

section

variable (segs : List (List UInt8))

/-- How many bytes of the stream come before segment `i`. -/
def start (i : Nat) : Nat := (segs.take i).flatten.length

/-- Segment `i` at its place in the stream; the first byte has offset 1. -/
def seg (i : Fin segs.length) : Chunk UInt8 := (1 + start segs i, segs[i])

/-- One delivery of segment `i`: its sequence number is that of its first byte. -/
def delivery (isn : UInt32) (lim : Limits) (i : Fin segs.length) : List Op :=
  [.insert (isn + 1 + UInt32.ofNat (start segs i)) segs[i] lim, .flush]

/-! ## Where the segments lie -/

theorem start_succ (i : Fin segs.length) : start segs (i + 1) = start segs i + segs[i].length := by
  rw [start, List.take_succ_eq_append_getElem i.isLt, List.flatten_append, List.length_append]
  simp [start]

theorem start_mono {i j : Nat} (h : i ≤ j) : start segs i ≤ start segs j := by
  unfold start
  exact (List.take_prefix_take_left h).flatten.length_le

theorem start_le (i : Nat) : start segs i ≤ segs.flatten.length :=
  (List.take_prefix i segs).flatten.length_le

theorem seg_stop (i : Fin segs.length) : (seg segs i).stop = 1 + start segs (i + 1) := by
  rw [start_succ, Chunk.stop, seg, Nat.add_assoc]

theorem seg_stop_le (i : Fin segs.length) : (seg segs i).stop ≤ 1 + segs.flatten.length := by
  rw [seg_stop]
  exact Nat.add_le_add_left (start_le segs _) 1

theorem seg_apart {i j : Fin segs.length} (h : i ≠ j) : (seg segs i).Apart (seg segs j) := by
  unfold Chunk.Apart
  rw [seg_stop, seg_stop]
  rcases Nat.lt_or_gt_of_ne (Fin.val_ne_of_ne h) with hlt | hgt
  · exact .inl (Nat.add_le_add_left (start_mono segs hlt) 1)
  · exact .inr (Nat.add_le_add_left (start_mono segs hgt) 1)

theorem seqOffset_delivery (isn : UInt32) (i : Fin segs.length)
    (hlen : segs.flatten.length < 2 ^ 31) :
    seqOffset (isn + 1 + UInt32.ofNat (start segs i)) isn = 1 + start segs i := by
  have hle := start_le segs i
  have hsub : isn + 1 + UInt32.ofNat (start segs i) - isn = 1 + UInt32.ofNat (start segs i) := by
    rw [UInt32.add_assoc, UInt32.add_comm, UInt32.add_sub_cancel]
  rw [seqOffset, hsub, UInt32.toNat_add, UInt32.toNat_ofNat']
  simp only [UInt32.toNat_one]
  omega

variable {segs} (hne : ∀ s ∈ segs, s ≠ [])

include hne

theorem seg_pos (i : Fin segs.length) : 0 < segs[i].length :=
  List.length_pos_iff.mpr (hne _ (List.getElem_mem i.isLt))

theorem start_strict {i : Fin segs.length} {j : Nat} (h : i.val < j) :
    start segs i < start segs j := by
  have hstep := start_succ segs i
  have hpos := seg_pos hne i
  have := start_mono segs (i := i + 1) h
  omega

theorem start_injective {i : Fin segs.length} {j : Nat} (hj : j ≤ segs.length)
    (h : start segs i = start segs j) : i.val = j := by
  rcases Nat.lt_trichotomy i.val j with hlt | heq | hgt
  · have := start_strict hne hlt
    omega
  · exact heq
  · have := start_strict hne (i := ⟨j, by omega⟩) hgt
    simp only at this
    omega

/-! ## The invariant -/

/-- The segments before `f` have been handed out, and of the others those in `seen` are
buffered. -/
structure Placed (segs : List (List UInt8)) (isn : UInt32) (seen : List (Fin segs.length))
    (f : Nat) (s : State) : Prop where
  le : f ≤ segs.length
  isn : s.dir.isn = some isn
  cursor : s.dir.baseOffset = 1 + start segs f
  delivered : contents s.delivered = (segs.take f).flatten
  whole : ∀ e ∈ s.dir.segments.entries, ∃ i, e = seg segs i
  buffered : ∀ i ∈ seen, f ≤ i.val → seg segs i ∈ s.dir.segments.entries

/-- Segment `f` has not arrived. -/
def Missing (segs : List (List UInt8)) (f : Nat) (s : State) : Prop :=
  ∀ i : Fin segs.length, i.val = f → seg segs i ∉ s.dir.segments.entries

section Placed

variable {isn : UInt32} {seen : List (Fin segs.length)} {f : Nat} {s : State}

omit hne in
theorem Placed.reassembled (h : Placed segs isn seen f s) (hinv : Inv s) :
    s.dir.reassembledBytes = start segs f := by
  rw [hinv.counted, h.delivered]
  rfl

omit hne in
/-- Whole segments that share no offset are no longer than the stream. -/
theorem Placed.bufferedBytes_le (h : Placed segs isn seen f s) (hinv : Inv s) :
    s.dir.bufferedBytes ≤ segs.flatten.length := by
  have hin : ∀ e ∈ s.dir.segments.entries,
      1 ≤ e.1 ∧ Chunk.stop e ≤ 1 + segs.flatten.length := by
    intro e he
    obtain ⟨i, rfl⟩ := h.whole e he
    exact ⟨Nat.le_add_right _ _, seg_stop_le segs i⟩
  have hle := contents_length_le (Nat.le_add_right _ _) hinv.wf.toTidy.ordered hin
  rw [hinv.wf.accounted]
  omega

omit hne in
/-- Fewer than all segments are buffered while one is missing. -/
theorem Placed.size_lt (h : Placed segs isn seen f s) (hm : Missing segs f s)
    (hf : f < segs.length) : s.dir.segments.size < segs.length := by
  have hnodup : s.dir.segments.entries.Nodup :=
    s.dir.segments.sorted.imp fun hlt heq => absurd (heq ▸ hlt) (Nat.lt_irrefl _)
  have hmissing : seg segs ⟨f, hf⟩ ∉ s.dir.segments.entries := hm ⟨f, hf⟩ rfl
  have hsub : (seg segs ⟨f, hf⟩ :: s.dir.segments.entries) ⊆
      (List.finRange segs.length).map (seg segs) := by
    intro e he
    rcases List.mem_cons.mp he with rfl | he
    · exact List.mem_map_of_mem (List.mem_finRange _)
    · obtain ⟨i, rfl⟩ := h.whole e he
      exact List.mem_map_of_mem (List.mem_finRange _)
  have := (List.nodup_cons.mpr ⟨hmissing, hnodup⟩).length_le_of_subset hsub
  rw [List.length_cons, List.length_map, List.length_finRange] at this
  exact this

/-! ## One delivery -/

/-- The limits leave room for the stream and two more copies of it. -/
structure Roomy (segs : List (List UInt8)) (lim : Limits) : Prop where
  window : segs.flatten.length ≤ lim.maxReceiveWindow
  depth : 3 * segs.flatten.length ≤ lim.maxDepth
  segments : segs.length ≤ lim.maxSegments

variable {lim : Limits} (hlen : segs.flatten.length < 2 ^ 31) (hroom : Roomy segs lim)

include hlen hroom

/-- Whatever the guards let through of a delivery is the whole segment. -/
theorem Placed.admitted (h : Placed segs isn seen f s) (hinv : Inv s) (i : Fin segs.length) :
    admittedSegment s.dir (isn + 1 + UInt32.ofNat (start segs i)) segs[i] lim =
      if start segs f ≤ start segs i + segs[i].length ∧ s.dir.segments.size < lim.maxSegments
      then some (seg segs i) else none := by
  have hpos := seg_pos hne i
  have hnext := start_succ segs i
  have hle := start_le segs (i + 1)
  have hbuf := h.bufferedBytes_le hinv
  have hf := start_le segs f
  rw [admittedSegment_of_isn h.isn, seqOffset_delivery segs isn i hlen, h.cursor,
    h.reassembled hinv, List.take_of_length_le (by have := hroom.depth; omega)]
  apply if_congr _ rfl rfl
  have := hroom.depth
  have := hroom.window
  constructor
  · rintro ⟨-, h₁, -, h₂, -⟩
    exact ⟨by omega, h₂⟩
  · rintro ⟨h₁, h₂⟩
    exact ⟨List.length_pos_iff.mp hpos, by omega, by omega, h₂, by omega⟩

theorem Placed.insertedPieces (h : Placed segs isn seen f s) (hinv : Inv s)
    (i : Fin segs.length) :
    insertedPieces s.dir (isn + 1 + UInt32.ofNat (start segs i)) segs[i] lim =
      if start segs f ≤ start segs i + segs[i].length ∧ s.dir.segments.size < lim.maxSegments ∧
          seg segs i ∉ s.dir.segments.entries
      then [seg segs i] else [] := by
  rw [Direction.insertedPieces, h.admitted hne hlen hroom hinv i]
  by_cases hg : start segs f ≤ start segs i + segs[i].length ∧
      s.dir.segments.size < lim.maxSegments
  · rw [if_pos hg]
    by_cases hmem : seg segs i ∈ s.dir.segments.entries
    · rw [if_neg (fun hc => hc.2.2 hmem)]
      exact storedPieces_of_mem hinv.wf.toTidy hmem _
    · rw [if_pos ⟨hg.1, hg.2, hmem⟩]
      refine storedPieces_of_apart (List.length_pos_iff.mp (seg_pos hne i)) (fun e he => ?_) hg.2
      obtain ⟨j, rfl⟩ := h.whole e he
      exact seg_apart segs fun heq => hmem (heq ▸ he)
  · rw [if_neg hg, if_neg (fun hc => hg ⟨hc.1, hc.2.1⟩)]

theorem Placed.insert {s' : State} (h : Placed segs isn seen f s) (hinv : Inv s)
    (hm : Missing segs f s) (i : Fin segs.length)
    (hmv : Moved s (.insert (isn + 1 + UInt32.ofNat (start segs i)) segs[i] lim) s') :
    Placed segs isn (seen ++ [i]) f s' := by
  obtain ⟨hdel, hst⟩ := hmv.of_insert
  rw [h.insertedPieces hne hlen hroom hinv i] at hst
  refine ⟨h.le, hst.isn.trans h.isn, hst.baseOffset.trans h.cursor, ?_, fun e he => ?_,
    fun j hj hle => ?_⟩
  · rw [hdel]
    exact h.delivered
  · rcases hst.mem_iff.mp he with hnew | hold
    · split at hnew
      · exact ⟨i, List.mem_singleton.mp hnew⟩
      · cases hnew
    · exact h.whole e hold
  · rw [hst.mem_iff]
    by_cases hmem : seg segs j ∈ s.dir.segments.entries
    · exact .inr hmem
    rcases List.mem_append.mp hj with hj | hj
    · exact .inr (h.buffered j hj hle)
    · obtain rfl := List.mem_singleton.mp hj
      have hsize := h.size_lt hm (Nat.lt_of_le_of_lt hle j.isLt)
      have hstart := start_mono segs hle
      refine .inl ?_
      rw [if_pos ⟨by omega, Nat.lt_of_lt_of_le hsize hroom.segments, hmem⟩]
      exact List.mem_singleton_self _

omit hlen hroom in
/-- Whole segments that follow one another are consecutive. -/
theorem consecutive {chunks : List (Chunk UInt8)} {f e : Nat} (hf : f ≤ segs.length)
    (hc : ContiguousFrom (1 + start segs f) chunks e) (hw : ∀ c ∈ chunks, ∃ i, c = seg segs i) :
    ∃ g, f ≤ g ∧ g ≤ segs.length ∧ e = 1 + start segs g ∧
      (segs.take f).flatten ++ contents chunks = (segs.take g).flatten := by
  induction chunks generalizing f with
  | nil => exact ⟨f, Nat.le_refl _, hf, hc.symm, by simp [contents]⟩
  | cons c cs ih =>
    obtain ⟨hfirst, hrest⟩ := hc
    obtain ⟨i, rfl⟩ := hw c List.mem_cons_self
    obtain rfl : i.val = f := start_injective hne hf (Nat.add_left_cancel hfirst)
    rw [seg_stop] at hrest
    obtain ⟨g, hle, hg, he, hcat⟩ := ih i.isLt hrest fun c hc => hw c (List.mem_cons_of_mem _ hc)
    refine ⟨g, Nat.le_of_succ_le hle, hg, he, ?_⟩
    rw [← hcat, List.take_succ_eq_append_getElem i.isLt, List.flatten_append]
    simp [contents, seg]

omit hlen hroom in
theorem Placed.flush {s' : State} (h : Placed segs isn seen f s)
    (hmv : Moved s .flush s') : ∃ g, Placed segs isn seen g s' ∧ Missing segs g s' := by
  obtain ⟨chunks, hdel, hfl⟩ := hmv.of_flush
  have hcont := hfl.contiguous
  rw [h.cursor] at hcont
  obtain ⟨g, hle, hg, hbase, hcat⟩ := consecutive hne h.le hcont fun c hc =>
    h.whole c (hfl.entries.mem_iff.mpr (List.mem_append_left _ hc))
  refine ⟨g, ⟨hg, hfl.isn.trans h.isn, hbase, ?_, fun e he => h.whole e (hfl.mem he),
    fun j hj hgj => ?_⟩, fun i hi hmem => ?_⟩
  · rw [hdel, contents_append, h.delivered, hcat]
  · -- a flushed chunk ends before segment `g`, so `j` is still in the buffer
    rcases List.mem_append.mp
      (hfl.entries.mem_iff.mp (h.buffered j hj (Nat.le_trans hle hgj))) with hin | hin
    · have hstop := (contiguousFrom_bounds hcont _ hin).2
      rw [hbase, seg_stop, start_succ] at hstop
      have := start_mono segs hgj
      have := seg_pos hne j
      omega
    · exact hin
  · have := (SortedMap.get?_eq_none_iff _ _).mp hfl.drained (seg segs i).2
    rw [hbase, ← hi] at this
    exact this hmem

/-- What holds between two deliveries. -/
def Between (segs : List (List UInt8)) (isn : UInt32) (seen : List (Fin segs.length))
    (s : State) : Prop :=
  Inv s ∧ ∃ f, Placed segs isn seen f s ∧ Missing segs f s

theorem Between.delivery (h : Between segs isn seen s) (i : Fin segs.length) :
    Returns (run step s (delivery segs isn lim i)) (Between segs isn (seen ++ [i])) := by
  obtain ⟨hinv, f, hp, hm⟩ := h
  refine (step_returns hinv.wf _).bind fun s₁ h₁ => ?_
  have hp₁ := hp.insert hne hlen hroom hinv hm i h₁
  have hinv₁ := hinv.moved h₁
  refine (step_returns hinv₁.wf .flush).bind fun s₂ h₂ => ?_
  exact Returns.pure ⟨hinv₁.moved h₂, hp₁.flush hne h₂⟩

omit hne hlen hroom in
/-- Once every segment has arrived, all of them have been handed out. -/
theorem Between.complete (h : Between segs isn seen s) (hall : ∀ i, i ∈ seen) :
    contents s.delivered = segs.flatten ∧
      ContiguousFrom 1 s.delivered (1 + segs.flatten.length) := by
  obtain ⟨hinv, f, hp, hm⟩ := h
  have hf : f = segs.length := by
    rcases Nat.lt_or_eq_of_le hp.le with hlt | heq
    · exact absurd (hp.buffered ⟨f, hlt⟩ (hall _) (Nat.le_refl _)) (hm ⟨f, hlt⟩ rfl)
    · exact heq
  have hcont := hinv.contiguous (by rw [hp.isn]; simp)
  have hdel := hp.delivered
  rw [hp.cursor] at hcont
  simp only [hf, start, List.take_length] at hcont hdel
  exact ⟨hdel, hcont⟩

end Placed

end

/-! ## Every order -/

theorem between_init (segs : List (List UInt8)) (isn : UInt32) :
    Returns (step .init (.setIsn isn)) (Between segs isn []) := by
  obtain ⟨s, hs, hm⟩ := step_returns Inv.init.wf (.setIsn isn)
  refine ⟨s, hs, Inv.init.moved hm, 0, ?_, ?_⟩
  · cases hs
    exact ⟨Nat.zero_le _, rfl, rfl, rfl, (fun e he => by cases he), by simp⟩
  · cases hs
    intro i _ he
    cases he

/-- Whatever the order of the deliveries, the chunks handed out are the stream, and their
offsets follow one another from 1. -/
theorem anyOrder_reassembles (segs : List (List UInt8)) (hne : ∀ s ∈ segs, s ≠ [])
    (hlen : segs.flatten.length < 2 ^ 31) (isn : UInt32) (lim : Limits)
    (hwindow : segs.flatten.length ≤ lim.maxReceiveWindow)
    (hdepth : 3 * segs.flatten.length ≤ lim.maxDepth) (hsegs : segs.length ≤ lim.maxSegments)
    (deliveries : List (Fin segs.length)) (hall : ∀ i, i ∈ deliveries) :
    Returns (run step .init (.setIsn isn :: deliveries.flatMap (delivery segs isn lim)))
      (fun s => contents s.delivered = segs.flatten ∧
        ContiguousFrom 1 s.delivered (1 + segs.flatten.length)) := by
  refine (between_init segs isn).bind fun s₀ h₀ => ?_
  rw [← run, run_flatMap]
  refine (run_returns (I := Between segs isn) deliveries h₀ ?_).mono fun s h =>
    h.complete hall
  intro pre i s _ _ h
  exact h.delivery hne hlen ⟨hwindow, hdepth, hsegs⟩ i

/-- Three segments in reverse order, the first one twice, across the wrap of the sequence
numbers. -/
theorem anyOrder_reassembles_wrap :
    Returns (run step .init (.setIsn 4294967293 ::
        [(2 : Fin 3), 0, 0, 1].flatMap (delivery [[1, 2], [3], [4, 5, 6]] 4294967293 ⟨18, 3, 6⟩)))
      (fun s => contents s.delivered = [1, 2, 3, 4, 5, 6] ∧ ContiguousFrom 1 s.delivered 7) :=
  anyOrder_reassembles [[1, 2], [3], [4, 5, 6]] (by decide) (by decide) 4294967293 ⟨18, 3, 6⟩
    (by decide) (by decide) (by decide) [2, 0, 0, 1] (by decide)

end Wirerust.AnyOrder
