import Wirerust.Reassembly.Gaps

/-!
What one `insert_segment` call stores.

A direction whose buffered segments are non-empty and apart (`Tidy`) takes a segment as a
list of pieces, one for each gap that `select_gaps` leaves and the segment limit still
admits (`bufferSegment_returns`). No subtraction, slice or assertion of the code fails on
the way, and nothing already buffered moves: the new entries are the pieces next to the old
ones (`Stored`).
-/

namespace Wirerust.Buffer

open Lib Wirerust.Segment Wirerust.Gaps

/-- The byte buffered for a stream offset. -/
def byteAt (d : FlowDirection) (p : Nat) : Option UInt8 := valueAt d.segments.entries p

def taken (d : FlowDirection) (p : Nat) : Bool := (byteAt d p).isSome

/-- The buffered segments are non-empty and share no offset. -/
structure Tidy (d : FlowDirection) : Prop where
  nonempty : ∀ e ∈ d.segments.entries, e.2 ≠ []
  apart : d.segments.entries.Pairwise Chunk.Apart

theorem Tidy.ordered {d : FlowDirection} (h : Tidy d) :
    d.segments.entries.Pairwise (fun a b => Chunk.stop a ≤ b.1) := by
  refine (h.apart.and d.segments.sorted).imp_of_mem ?_
  rintro a b ha hb ⟨hap, hlt⟩
  rcases hap with hap | hap
  · exact hap
  · have := List.length_pos_iff.mpr (h.nonempty b hb)
    unfold Chunk.stop at hap
    omega

/-! ## The overlap scan -/

/-- The bytes of two segments disagree somewhere. -/
def Conflict (a b : Chunk UInt8) : Prop :=
  ∃ p x y, a.at? p = some x ∧ b.at? p = some y ∧ x ≠ y

theorem exists_getElem?_ne {xs ys : List UInt8} (h : xs ≠ ys) : ∃ i : Nat, xs[i]? ≠ ys[i]? := by
  apply Classical.byContradiction
  intro hall
  exact h (List.ext_getElem? fun i => Classical.byContradiction fun hi => hall ⟨i, hi⟩)

theorem slice_getElem? (xs : List UInt8) (start stop i : Nat) :
    ((xs.take stop).drop start)[i]? = if start + i < stop then xs[start + i]? else none := by
  rw [List.getElem?_drop, List.getElem?_take]

theorem Conflict.overlap {a b : Chunk UInt8} (h : Conflict a b) : a.1 < b.stop ∧ b.1 < a.stop := by
  obtain ⟨p, x, y, hx, hy, -⟩ := h
  obtain ⟨ha, ha'⟩ := Chunk.covers_of_at? hx
  obtain ⟨hb, hb'⟩ := Chunk.covers_of_at? hy
  omega

/-- Comparing the two slices of the common range finds every conflict. -/
theorem slices_ne_iff {a b : Chunk UInt8} {lo hi : Nat} (hlo : lo = max a.1 b.1)
    (hhi : hi = min a.stop b.stop) :
    (a.2.take (hi - a.1)).drop (lo - a.1) ≠ (b.2.take (hi - b.1)).drop (lo - b.1) ↔
      Conflict a b := by
  constructor
  · intro hne
    obtain ⟨i, hi'⟩ := exists_getElem?_ne hne
    rw [slice_getElem?, slice_getElem?] at hi'
    by_cases hlt : lo + i < hi
    · rw [if_pos (by omega), if_pos (by omega)] at hi'
      have hia : lo - a.1 + i < a.2.length := by unfold Chunk.stop at hhi; omega
      have hib : lo - b.1 + i < b.2.length := by unfold Chunk.stop at hhi; omega
      rw [List.getElem?_eq_getElem hia, List.getElem?_eq_getElem hib] at hi'
      refine ⟨lo + i, a.2[lo - a.1 + i], b.2[lo - b.1 + i], ?_, ?_, fun h => hi' (by rw [h])⟩
      · rw [Chunk.at?, if_pos (by omega), ← List.getElem?_eq_getElem hia]
        congr 1
        omega
      · rw [Chunk.at?, if_pos (by omega), ← List.getElem?_eq_getElem hib]
        congr 1
        omega
    · rw [if_neg (by omega), if_neg (by omega)] at hi'
      exact absurd rfl hi'
  · rintro ⟨p, x, y, hx, hy, hxy⟩ heq
    obtain ⟨ha, ha'⟩ := Chunk.covers_of_at? hx
    obtain ⟨hb, hb'⟩ := Chunk.covers_of_at? hy
    rw [Chunk.at?, if_pos ha] at hx
    rw [Chunk.at?, if_pos hb] at hy
    have hat := congrArg (fun l => l[p - lo]?) heq
    simp only [slice_getElem?] at hat
    rw [if_pos (by omega), if_pos (by omega), show lo - a.1 + (p - lo) = p - a.1 by omega,
      show lo - b.1 + (p - lo) = p - b.1 by omega, hx, hy] at hat
    exact hxy (Option.some.inj hat)

theorem segmentOverlap_returns (new old : Chunk UInt8) :
    Returns (segmentOverlap new.1 new.2 old.1 old.2) (fun r =>
      r.1 = rangesOverlap new.1 new.stop old.1 old.stop ∧ (r.2 = true ↔ Conflict new old)) := by
  unfold segmentOverlap
  simp only [← Chunk.stop.eq_1]
  by_cases hov : rangesOverlap new.1 new.stop old.1 old.stop = true
  · obtain ⟨h₁, h₂⟩ := (rangesOverlap_iff _ _ _ _).mp hov
    have hn : new.stop = new.1 + new.2.length := rfl
    have ho : old.stop = old.1 + old.2.length := rfl
    rw [if_pos hov, checkedSub_of_le (by omega), checkedSub_of_le (by omega),
      checkedSub_of_le (by omega), checkedSub_of_le (by omega)]
    simp only [bind, Except.bind]
    rw [if_pos (by omega), slice_of_le (by omega) (by omega), slice_of_le (by omega) (by omega)]
    refine Returns.pure ⟨hov.symm, ?_⟩
    rw [bne_iff_ne, slices_ne_iff rfl rfl]
  · rw [if_neg hov]
    refine Returns.pure ⟨by simpa using hov, ?_⟩
    rw [rangesOverlap_iff] at hov
    simp only [Bool.false_eq_true, false_iff]
    exact fun h => hov h.overlap

def overlapsWith (new : Chunk UInt8) (e : Chunk UInt8) : Bool :=
  rangesOverlap new.1 new.stop e.1 e.stop

def rangeOf (e : Chunk UInt8) : Nat × Nat := (e.1, e.stop)

theorem scanOverlaps_returns (new : Chunk UInt8) (es : List (Chunk UInt8)) :
    Returns (scanOverlaps new.1 new.2 es) (fun o =>
      o.overlappingRanges = (es.filter (overlapsWith new)).map rangeOf ∧
      o.hasOverlap = !(es.filter (overlapsWith new)).isEmpty ∧
      (o.hasConflict = true ↔ ∃ e ∈ es, Conflict new e)) := by
  induction es with
  | nil => exact Returns.pure ⟨rfl, rfl, by simp⟩
  | cons e es ih =>
    obtain ⟨eo, ed⟩ := e
    unfold scanOverlaps
    refine (segmentOverlap_returns new (eo, ed)).bind fun r hr => ?_
    obtain ⟨overlaps, conflicts⟩ := r
    obtain ⟨hover, hconf⟩ := hr
    simp only at hover hconf
    refine ih.bind fun o ho => ?_
    obtain ⟨hranges, hany, hoc⟩ := ho
    by_cases h : overlaps = true
    · rw [if_pos h]
      have hf : overlapsWith new (eo, ed) = true := by rw [overlapsWith, ← hover, h]
      refine Returns.pure ⟨?_, ?_, ?_⟩
      · rw [List.filter_cons_of_pos hf, hranges]
        rfl
      · rw [List.filter_cons_of_pos hf]
        rfl
      · simp only [Bool.or_eq_true, hoc, hconf, List.mem_cons, exists_eq_or_imp]
    · rw [if_neg h]
      have hf : ¬ overlapsWith new (eo, ed) = true := by rw [overlapsWith, ← hover]; exact h
      have hno : ¬ Conflict new (eo, ed) := by
        rw [overlapsWith, rangesOverlap_iff] at hf
        exact fun h => hf h.overlap
      refine Returns.pure ⟨?_, ?_, ?_⟩
      · rw [List.filter_cons_of_neg hf, hranges]
      · rw [List.filter_cons_of_neg hf, hany]
      · simp only [hoc, List.mem_cons, exists_eq_or_imp, hno, false_or]

/-! ## Storing pieces -/

/-- `d'` is `d` with the pieces buffered next to what was there. Only the buffer and the
three anomaly fields an insertion may touch are different. -/
structure Stored (d d' : FlowDirection) (pieces : List (Chunk UInt8)) : Prop where
  frame : d' = { d with
    segments := d'.segments
    bufferedBytes := d.bufferedBytes + (contents pieces).length
    overlapCount := d'.overlapCount
    outOfWindowCount := d'.outOfWindowCount
    depthExceeded := d'.depthExceeded }
  entries : d'.segments.entries.Perm (pieces ++ d.segments.entries)

namespace Stored

variable {d d' : FlowDirection} {pieces : List (Chunk UInt8)}

theorem isn (h : Stored d d' pieces) : d'.isn = d.isn := by rw [h.frame]

theorem baseOffset (h : Stored d d' pieces) : d'.baseOffset = d.baseOffset := by rw [h.frame]

theorem reassembledBytes (h : Stored d d' pieces) : d'.reassembledBytes = d.reassembledBytes := by
  rw [h.frame]

theorem finSeen (h : Stored d d' pieces) : d'.finSeen = d.finSeen := by rw [h.frame]

theorem bufferedBytes (h : Stored d d' pieces) :
    d'.bufferedBytes = d.bufferedBytes + (contents pieces).length := by rw [h.frame]

theorem mem_iff (h : Stored d d' pieces) {e : Chunk UInt8} :
    e ∈ d'.segments.entries ↔ e ∈ pieces ∨ e ∈ d.segments.entries :=
  h.entries.mem_iff.trans List.mem_append

theorem size (h : Stored d d' pieces) : d'.segments.size = pieces.length + d.segments.size := by
  simpa [SortedMap.size] using h.entries.length_eq

end Stored

theorem Tidy.get?_eq_none {d : FlowDirection} (ht : Tidy d) {c : Chunk UInt8} (hne : c.2 ≠ [])
    (hap : ∀ e ∈ d.segments.entries, c.Apart e) : d.segments.get? c.1 = none := by
  rw [SortedMap.get?_eq_none_iff]
  intro old hold
  have hl := List.length_pos_iff.mpr hne
  have hl' := List.length_pos_iff.mpr (ht.nonempty _ hold)
  have := hap _ hold
  unfold Chunk.Apart Chunk.stop at this
  simp only at this hl'
  omega

theorem storeSegment_returns {d : FlowDirection} (ht : Tidy d) {c : Chunk UInt8} (hne : c.2 ≠ [])
    (hap : ∀ e ∈ d.segments.entries, c.Apart e) :
    Returns (storeSegment d c.1 c.2) (fun d' =>
      Stored d d' [c] ∧ d'.depthExceeded = d.depthExceeded) := by
  have hfree := ht.get?_eq_none hne hap
  rw [storeSegment, assertThat_of hfree]
  refine Returns.pure ⟨⟨by simp [contents], ?_⟩, rfl⟩
  have hp := d.segments.insert_perm c.1 c.2
  rwa [SortedMap.erase_of_none _ hfree] at hp

theorem Stored.tidy {d d' : FlowDirection} {pieces : List (Chunk UInt8)} (h : Stored d d' pieces)
    (ht : Tidy d) (hne : ∀ c ∈ pieces, c.2 ≠ []) (hap : pieces.Pairwise Chunk.Apart)
    (hfree : ∀ c ∈ pieces, ∀ e ∈ d.segments.entries, c.Apart e) : Tidy d' := by
  refine ⟨fun e he => ?_, ?_⟩
  · rcases List.mem_append.mp (h.entries.mem_iff.mp he) with he | he
    · exact hne e he
    · exact ht.nonempty e he
  · rw [h.entries.pairwise_iff fun h => h.symm, List.pairwise_append]
    exact ⟨hap, ht.apart, hfree⟩

theorem Stored.refl (d : FlowDirection) : Stored d d [] := ⟨by simp [contents], by simp⟩

theorem Stored.trans {d d' d'' : FlowDirection} {ps qs : List (Chunk UInt8)}
    (h : Stored d d' ps) (h' : Stored d' d'' qs) : Stored d d'' (ps ++ qs) := by
  constructor
  · have hf := h'.frame
    rw [h.frame] at hf
    rw [hf]
    simp [contents, Nat.add_assoc]
  · refine h'.entries.trans ((h.entries.append_left qs).trans ?_)
    rw [← List.append_assoc]
    exact List.perm_append_comm.append_right _

theorem fillGaps_returns (new : Chunk UInt8) (maxSegments : Nat) (gaps : List (Nat × Nat))
    (d : FlowDirection) (ht : Tidy d)
    (hin : ∀ g ∈ gaps, new.1 ≤ g.1 ∧ g.1 < g.2 ∧ g.2 ≤ new.stop)
    (hasc : gaps.Pairwise (fun a b => a.2 ≤ b.1))
    (hfree : ∀ g ∈ gaps, ∀ e ∈ d.segments.entries, (new.piece g).Apart e) :
    Returns (fillGaps new.1 new.2 maxSegments d gaps) (fun out =>
      Stored d out.1 ((gaps.take (maxSegments - d.segments.size)).map new.piece) ∧
      out.1.depthExceeded = d.depthExceeded ∧
      (out.2 = true ↔ maxSegments - d.segments.size < gaps.length)) := by
  induction gaps generalizing d with
  | nil => exact Returns.pure ⟨by simpa using Stored.refl d, rfl, by simp⟩
  | cons g gaps ih =>
    obtain ⟨hin₀, hin'⟩ := List.forall_mem_cons.mp hin
    obtain ⟨hfree₀, hfree'⟩ := List.forall_mem_cons.mp hfree
    obtain ⟨hasc₀, hasc'⟩ := List.pairwise_cons.mp hasc
    have hs : new.stop = new.1 + new.2.length := rfl
    unfold fillGaps
    by_cases hfull : d.segments.size ≥ maxSegments
    · rw [if_pos hfull, Nat.sub_eq_zero_of_le hfull]
      exact Returns.pure ⟨Stored.refl d, rfl, by simp⟩
    · rw [if_neg hfull, checkedSub_of_le hin₀.1, checkedSub_of_le (by omega)]
      simp only [bind, Except.bind]
      rw [if_pos (by omega), slice_of_le (by omega) (by omega)]
      have hstop := Chunk.piece_stop hin₀.1 (by omega) hin₀.2.2
      have hne : (new.piece g).2 ≠ [] := by
        rw [← List.length_pos_iff]
        unfold Chunk.stop Chunk.piece at hstop
        unfold Chunk.piece
        omega
      have hsome : ((new.2.take (g.2 - new.1)).drop (g.1 - new.1)).isEmpty = false :=
        List.isEmpty_eq_false_iff.mpr hne
      simp only [hsome, Bool.false_eq_true, if_false]
      refine (storeSegment_returns (c := new.piece g) ht hne hfree₀).bind fun d₁ h₁ => ?_
      obtain ⟨h₁, hdepth₁⟩ := h₁
      have ht₁ : Tidy d₁ := h₁.tidy ht (by simpa using hne) (by simp) (by simpa using hfree₀)
      have hfree₁ : ∀ g' ∈ gaps, ∀ e ∈ d₁.segments.entries, (new.piece g').Apart e := by
        intro g' hg' e he
        rcases List.mem_append.mp (h₁.entries.mem_iff.mp he) with he | he
        · rw [List.mem_singleton.mp he]
          exact Or.inr (by rw [hstop]; exact hasc₀ g' hg')
        · exact hfree' g' hg' e he
      refine (ih d₁ ht₁ hin' hasc' hfree₁).mono fun out hout => ?_
      have hroom : maxSegments - d.segments.size = (maxSegments - d₁.segments.size) + 1 := by
        rw [h₁.size, List.length_singleton]
        omega
      obtain ⟨hstored, hdepth, hflag⟩ := hout
      rw [hroom, List.take_succ_cons, List.map_cons]
      refine ⟨h₁.trans hstored, hdepth.trans hdepth₁, ?_⟩
      rw [hflag, List.length_cons]
      omega

/-! ## The gaps a new segment may fill -/

/-- The ranges of the buffered segments that the new segment overlaps. -/
def overlappedRanges (d : FlowDirection) (new : Chunk UInt8) : List (Nat × Nat) :=
  (d.segments.entries.filter (overlapsWith new)).map rangeOf

def openGaps (d : FlowDirection) (new : Chunk UInt8) : List (Nat × Nat) :=
  (sweepGaps new.1 new.stop new.1 (overlappedRanges d new)).gaps

/-- Some byte of the new segment is buffered with another value. -/
def Disagrees (d : FlowDirection) (new : Chunk UInt8) : Prop :=
  ∃ p x y, new.at? p = some x ∧ byteAt d p = some y ∧ x ≠ y

/-- The result of a call after the guards, by the open gaps and the room for them. -/
structure Classified (d : FlowDirection) (new : Chunk UInt8) (truncated : Bool)
    (maxSegments : Nat) (result : InsertResult) : Prop where
  conflict : openGaps d new = [] → Disagrees d new → result = .conflictingOverlap
  duplicate : openGaps d new = [] → ¬ Disagrees d new → result = .duplicate
  limit : maxSegments - d.segments.size < (openGaps d new).length →
    result = .segmentLimitReached
  cut : openGaps d new ≠ [] → (openGaps d new).length ≤ maxSegments - d.segments.size →
    truncated = true → result = .truncated
  whole : openGaps d new ≠ [] → (openGaps d new).length ≤ maxSegments - d.segments.size →
    truncated = false → result = .inserted ∨ result = .partialOverlap

/-- What the call buffers: the open gaps, as far as the segment limit admits them. -/
def storedPieces (d : FlowDirection) (new : Chunk UInt8) (maxSegments : Nat) :
    List (Chunk UInt8) :=
  ((openGaps d new).take (maxSegments - d.segments.size)).map new.piece

section Gaps

variable {d : FlowDirection} (new : Chunk UInt8)

theorem mem_overlappedRanges (r : Nat × Nat) :
    r ∈ overlappedRanges d new ↔
      ∃ e ∈ d.segments.entries, overlapsWith new e = true ∧ r = rangeOf e := by
  simp only [overlappedRanges, List.mem_map, List.mem_filter]
  constructor
  · rintro ⟨e, ⟨he, hov⟩, rfl⟩
    exact ⟨e, he, hov, rfl⟩
  · rintro ⟨e, he, hov, rfl⟩
    exact ⟨e, ⟨he, hov⟩, rfl⟩

theorem overlappedRanges_lt (ht : Tidy d) : ∀ r ∈ overlappedRanges d new, r.1 < r.2 := by
  intro r hr
  obtain ⟨e, he, -, rfl⟩ := (mem_overlappedRanges new r).mp hr
  exact Nat.lt_add_of_pos_right (List.length_pos_iff.mpr (ht.nonempty e he))

theorem overlappedRanges_apart (ht : Tidy d) :
    (overlappedRanges d new).Pairwise (fun a b => a.2 ≤ b.1) := by
  rw [overlappedRanges, List.pairwise_map]
  exact ht.ordered.filter _

theorem overlappedRanges_overlap : ∀ r ∈ overlappedRanges d new,
    rangesOverlap new.1 new.stop r.1 r.2 = true := by
  intro r hr
  obtain ⟨e, -, hov, rfl⟩ := (mem_overlappedRanges new r).mp hr
  exact hov

theorem overlappedRanges_sorted (ht : Tidy d) :
    (overlappedRanges d new).Pairwise (fun a b => a.1 ≤ b.1) := by
  refine (overlappedRanges_apart new ht).imp_of_mem fun {a b} ha _ h => ?_
  have := overlappedRanges_lt new ht a ha
  omega

/-- A covered position of the new segment is a taken one. -/
theorem taken_iff {p : Nat} (hp : new.Covers p) :
    taken d p = true ↔ ∃ r ∈ overlappedRanges d new, Within r p := by
  rw [taken, byteAt, valueAt_isSome_iff]
  constructor
  · rintro ⟨e, he, hc⟩
    refine ⟨rangeOf e, (mem_overlappedRanges new _).mpr ⟨e, he, ?_, rfl⟩, hc⟩
    rw [overlapsWith, rangesOverlap_iff]
    unfold Chunk.Covers at hp hc
    omega
  · rintro ⟨r, hr, hw⟩
    obtain ⟨e, he, -, rfl⟩ := (mem_overlappedRanges new r).mp hr
    exact ⟨e, he, hw⟩

theorem openGaps_bounds : ∀ g ∈ openGaps d new, new.1 ≤ g.1 ∧ g.1 < g.2 ∧ g.2 ≤ new.stop :=
  sweepGaps_bounds _ _

theorem openGaps_ascending (ht : Tidy d) :
    (openGaps d new).Pairwise (fun a b => a.2 ≤ b.1) :=
  sweepGaps_ascending _ (fun r hr => Nat.le_of_lt (overlappedRanges_lt new ht r hr)) _

theorem openGaps_covers {g : Nat × Nat} (hg : g ∈ openGaps d new) {p : Nat} (hp : Within g p) :
    new.Covers p := by
  have := openGaps_bounds new g hg
  unfold Within at hp
  unfold Chunk.Covers
  omega

/-- The open gaps hold exactly the free positions of the new segment. -/
theorem openGaps_mem_iff (ht : Tidy d) (p : Nat) :
    (∃ g ∈ openGaps d new, Within g p) ↔ new.Covers p ∧ taken d p = false := by
  constructor
  · rintro ⟨g, hg, hw⟩
    have hc := openGaps_covers new hg hw
    refine ⟨hc, ?_⟩
    rw [Bool.eq_false_iff, Ne, taken_iff new hc]
    rintro ⟨r, hr, hr'⟩
    exact (sweepGaps_mem_iff _ (overlappedRanges_sorted new ht) _ p hc.1 hc.2).mp ⟨g, hg, hw⟩ r hr
      (overlappedRanges_overlap new r hr) hr'
  · rintro ⟨hc, hfree⟩
    refine (sweepGaps_mem_iff _ (overlappedRanges_sorted new ht) _ p hc.1 hc.2).mpr
      fun r hr _ hr' => ?_
    rw [(taken_iff new hc).mpr ⟨r, hr, hr'⟩] at hfree
    exact Bool.noConfusion hfree

theorem openGaps_free (ht : Tidy d) {g : Nat × Nat} (hg : g ∈ openGaps d new)
    {e : Chunk UInt8} (he : e ∈ d.segments.entries) : (new.piece g).Apart e := by
  have hb := openGaps_bounds new g hg
  have hstop := Chunk.piece_stop hb.1 (Nat.le_of_lt hb.2.1) hb.2.2
  refine Chunk.apart_of_not_covers ?_ (ht.nonempty e he) fun p hp hep => ?_
  · rw [← List.length_pos_iff]
    have : (new.piece g).stop = g.1 + (new.piece g).2.length := rfl
    omega
  · have hw : Within g p := ⟨hp.1, hstop ▸ hp.2⟩
    have := ((openGaps_mem_iff new ht p).mp ⟨g, hg, hw⟩).2
    rw [taken, byteAt, Option.isSome_eq_false_iff, Option.isNone_iff_eq_none,
      valueAt_eq_none_iff] at this
    exact this e he hep

/-- The rank of an open gap among the others is the number of holes before it. -/
theorem openGaps_rank (ht : Tidy d) {i : Nat} {g : Nat × Nat} (hg : (openGaps d new)[i]? = some g)
    {p : Nat} (hw : Within g p) : holesBefore (taken d) new.1 p = i :=
  sweepGaps_rank (taken d) _ (overlappedRanges_apart new ht) (overlappedRanges_lt new ht)
    (overlappedRanges_overlap new) _ (fun _ h h' => taken_iff new ⟨h, h'⟩) i g hg p hw

/-- Which free positions fall into the gaps the limit admits. -/
theorem admitted_iff (ht : Tidy d) (room p : Nat) :
    (∃ g ∈ (openGaps d new).take room, Within g p) ↔
      new.Covers p ∧ taken d p = false ∧ holesBefore (taken d) new.1 p < room := by
  constructor
  · rintro ⟨g, hg, hw⟩
    obtain ⟨i, hi⟩ := List.mem_iff_getElem?.mp hg
    rw [List.getElem?_take] at hi
    split at hi
    · rename_i hlt
      obtain ⟨hc, hf⟩ := (openGaps_mem_iff new ht p).mp ⟨g, List.mem_of_getElem? hi, hw⟩
      exact ⟨hc, hf, by rw [openGaps_rank new ht hi hw]; exact hlt⟩
    · cases hi
  · rintro ⟨hc, hf, hlt⟩
    obtain ⟨g, hg, hw⟩ := (openGaps_mem_iff new ht p).mpr ⟨hc, hf⟩
    obtain ⟨i, hi⟩ := List.mem_iff_getElem?.mp hg
    refine ⟨g, List.mem_of_getElem? (i := i) ?_, hw⟩
    rw [List.getElem?_take, if_pos (by rw [← openGaps_rank new ht hi hw]; exact hlt), hi]

/-- A gap goes on for as long as the positions are free: the next one has the same rank. -/
theorem openGaps_within_succ (ht : Tidy d) {g : Nat × Nat} (hg : g ∈ openGaps d new) {p : Nat}
    (hw : Within g p) (hc : new.Covers (p + 1)) (hf : taken d (p + 1) = false) :
    Within g (p + 1) := by
  obtain ⟨i, hi⟩ := List.mem_iff_getElem?.mp hg
  obtain ⟨g', hg', hw'⟩ := (openGaps_mem_iff new ht (p + 1)).mpr ⟨hc, hf⟩
  obtain ⟨j, hj⟩ := List.mem_iff_getElem?.mp hg'
  have hp : new.1 ≤ p := (openGaps_covers new hg hw).1
  have hsplit := holesBefore_split (taken d) hp (Nat.le_succ p)
  rw [holesBefore_succ, hf, Bool.and_false, openGaps_rank new ht hi hw,
    openGaps_rank new ht hj hw'] at hsplit
  obtain rfl : j = i := hsplit
  rw [hi] at hj
  cases hj
  exact hw'

variable {new} in
theorem mem_storedPieces {maxSegments : Nat} {c : Chunk UInt8} :
    c ∈ storedPieces d new maxSegments ↔
      ∃ g ∈ (openGaps d new).take (maxSegments - d.segments.size), c = new.piece g := by
  simp only [storedPieces, List.mem_map, eq_comm]

theorem storedPieces_nonempty (maxSegments : Nat) :
    ∀ c ∈ storedPieces d new maxSegments, c.2 ≠ [] := by
  intro c hc
  obtain ⟨g, hg, rfl⟩ := mem_storedPieces.mp hc
  have hb := openGaps_bounds new g (List.mem_of_mem_take hg)
  have hstop := Chunk.piece_stop hb.1 (Nat.le_of_lt hb.2.1) hb.2.2
  rw [← List.length_pos_iff]
  have : (new.piece g).stop = g.1 + (new.piece g).2.length := rfl
  omega

theorem storedPieces_free (ht : Tidy d) (maxSegments : Nat) :
    ∀ c ∈ storedPieces d new maxSegments, ∀ e ∈ d.segments.entries, c.Apart e := by
  intro c hc e he
  obtain ⟨g, hg, rfl⟩ := mem_storedPieces.mp hc
  exact openGaps_free new ht (List.mem_of_mem_take hg) he

theorem storedPieces_apart (ht : Tidy d) (maxSegments : Nat) :
    (storedPieces d new maxSegments).Pairwise Chunk.Apart := by
  rw [storedPieces, List.pairwise_map]
  refine (((openGaps_ascending new ht).sublist (List.take_sublist _ _)).imp_of_mem ?_)
  intro a b ha _ hab
  have hb := openGaps_bounds new a (List.mem_of_mem_take ha)
  exact Or.inl (by rw [Chunk.piece_stop hb.1 (Nat.le_of_lt hb.2.1) hb.2.2]; exact hab)

theorem storedPieces_length_le (maxSegments : Nat) :
    (storedPieces d new maxSegments).length ≤ maxSegments - d.segments.size := by
  rw [storedPieces, List.length_map]
  exact List.length_take_le _ _

/-- No more bytes are stored than the new segment has. -/
theorem storedPieces_bytes_le (ht : Tidy d) (maxSegments : Nat) :
    (contents (storedPieces d new maxSegments)).length ≤ new.2.length := by
  have hstop : ∀ g ∈ (openGaps d new).take (maxSegments - d.segments.size),
      (new.piece g).stop = g.2 := fun g hg => by
    have hb := openGaps_bounds new g (List.mem_of_mem_take hg)
    exact Chunk.piece_stop hb.1 (Nat.le_of_lt hb.2.1) hb.2.2
  have hasc : (storedPieces d new maxSegments).Pairwise (fun a b => Chunk.stop a ≤ b.1) := by
    rw [storedPieces, List.pairwise_map]
    refine ((openGaps_ascending new ht).sublist (List.take_sublist _ _)).imp_of_mem ?_
    intro a b ha _ hab
    rw [hstop a ha]
    exact hab
  have hin : ∀ c ∈ storedPieces d new maxSegments, new.1 ≤ c.1 ∧ Chunk.stop c ≤ new.stop := by
    intro c hc
    obtain ⟨g, hg, rfl⟩ := mem_storedPieces.mp hc
    have hb := openGaps_bounds new g (List.mem_of_mem_take hg)
    rw [hstop g hg]
    exact ⟨hb.1, hb.2.2⟩
  have hstop' : new.stop = new.1 + new.2.length := rfl
  have hle := contents_length_le (by omega) hasc hin
  omega

theorem piece_covers_iff {g : Nat × Nat} (hg : g ∈ openGaps d new) (p : Nat) :
    (new.piece g).Covers p ↔ Within g p := by
  have hb := openGaps_bounds new g hg
  rw [Chunk.Covers, Chunk.piece_stop hb.1 (Nat.le_of_lt hb.2.1) hb.2.2]
  rfl

theorem storedPieces_covers_iff (ht : Tidy d) (maxSegments p : Nat) :
    (∃ c ∈ storedPieces d new maxSegments, c.Covers p) ↔
      new.Covers p ∧ taken d p = false ∧
        holesBefore (taken d) new.1 p < maxSegments - d.segments.size := by
  rw [← admitted_iff new ht]
  constructor
  · rintro ⟨c, hc, hp⟩
    obtain ⟨g, hg, rfl⟩ := mem_storedPieces.mp hc
    exact ⟨g, hg, (piece_covers_iff new (List.mem_of_mem_take hg) p).mp hp⟩
  · rintro ⟨g, hg, hw⟩
    exact ⟨_, mem_storedPieces.mpr ⟨g, hg, rfl⟩,
      (piece_covers_iff new (List.mem_of_mem_take hg) p).mpr hw⟩

/-- A stored piece ends where the new segment ends or a buffered one begins. -/
theorem storedPieces_covers_succ (ht : Tidy d) {maxSegments : Nat} {c : Chunk UInt8}
    (hc : c ∈ storedPieces d new maxSegments) {p : Nat} (hp : c.Covers p) :
    c.Covers (p + 1) ↔ new.Covers (p + 1) ∧ taken d (p + 1) = false := by
  constructor
  · intro hs
    have := (storedPieces_covers_iff new ht maxSegments (p + 1)).mp ⟨c, hc, hs⟩
    exact ⟨this.1, this.2.1⟩
  · rintro ⟨hcov, hfree⟩
    obtain ⟨g, hg, rfl⟩ := mem_storedPieces.mp hc
    have hgap := List.mem_of_mem_take hg
    rw [piece_covers_iff new hgap] at hp ⊢
    exact openGaps_within_succ new ht hgap hp hcov hfree

/-- The pieces put exactly the admitted bytes of the new segment in the buffer. -/
theorem valueAt_storedPieces (ht : Tidy d) (maxSegments p : Nat) :
    valueAt (storedPieces d new maxSegments) p =
      if taken d p = false ∧
          holesBefore (taken d) new.1 p < maxSegments - d.segments.size
        then new.at? p else none := by
  apply Option.ext
  intro x
  rw [valueAt_eq_some_iff (storedPieces_apart new ht maxSegments)]
  constructor
  · rintro ⟨c, hc, hx⟩
    obtain ⟨g, hg, rfl⟩ := mem_storedPieces.mp hc
    have hb := openGaps_bounds new g (List.mem_of_mem_take hg)
    rw [Chunk.piece_at? hb.1] at hx
    split at hx
    · rename_i hw
      have := (admitted_iff new ht (maxSegments - d.segments.size) p).mp ⟨g, hg, hw⟩
      rw [if_pos this.2]
      exact hx
    · cases hx
  · intro hx
    split at hx
    · rename_i hadm
      obtain ⟨g, hg, hw⟩ := (admitted_iff new ht (maxSegments - d.segments.size) p).mpr
        ⟨Chunk.covers_of_at? hx, hadm⟩
      have hb := openGaps_bounds new g (List.mem_of_mem_take hg)
      refine ⟨_, mem_storedPieces.mpr ⟨g, hg, rfl⟩, ?_⟩
      rw [Chunk.piece_at? hb.1, if_pos ⟨hw.1, hw.2⟩]
      exact hx
    · cases hx

end Gaps

/-! ## The whole call after the guards -/

theorem openGaps_of_fullyCovered {d : FlowDirection} (ht : Tidy d) (new : Chunk UInt8)
    (h : (sweepGaps new.1 new.stop new.1 (overlappedRanges d new)).fullyCovered = true) :
    openGaps d new = [] := by
  obtain ⟨r, hr, -, hlo, hhi⟩ := (sweepGaps_fullyCovered_iff _ _).mp h
  apply List.eq_nil_iff_forall_not_mem.mpr
  intro g hg
  have hb := openGaps_bounds new g hg
  have hw : Within g g.1 := ⟨Nat.le_refl _, hb.2.1⟩
  have hc := openGaps_covers new hg hw
  have hfree := ((openGaps_mem_iff new ht g.1).mp ⟨g, hg, hw⟩).2
  rw [(taken_iff new hc).mpr ⟨r, hr, by unfold Within; omega⟩] at hfree
  exact Bool.noConfusion hfree

/-- A segment that is already buffered is not stored again. -/
theorem storedPieces_of_mem {d : FlowDirection} (ht : Tidy d) {new : Chunk UInt8}
    (hmem : new ∈ d.segments.entries) (maxSegments : Nat) :
    storedPieces d new maxSegments = [] := by
  apply List.eq_nil_iff_forall_not_mem.mpr
  intro c hc
  have hpos := List.length_pos_iff.mpr (storedPieces_nonempty new maxSegments c hc)
  have hcov : c.Covers c.1 := ⟨Nat.le_refl _, Nat.lt_add_of_pos_right hpos⟩
  have hin := ((storedPieces_covers_iff new ht maxSegments c.1).mp ⟨c, hc, hcov⟩).1
  exact (storedPieces_free new ht maxSegments c hc new hmem).not_covers hcov hin

theorem openGaps_of_apart {d : FlowDirection} {new : Chunk UInt8} (hne : new.2 ≠ [])
    (hap : ∀ e ∈ d.segments.entries, new.Apart e) : openGaps d new = [(new.1, new.stop)] := by
  have hnil : overlappedRanges d new = [] := by
    apply List.eq_nil_iff_forall_not_mem.mpr
    intro r hr
    obtain ⟨e, he, hov, -⟩ := (mem_overlappedRanges new r).mp hr
    have hov' := (rangesOverlap_iff _ _ _ _).mp hov
    rcases hap e he with h | h
    · omega
    · omega
  have hlt : new.1 < new.stop := Nat.lt_add_of_pos_right (List.length_pos_iff.mpr hne)
  rw [openGaps, hnil, sweepGaps, if_pos hlt]

/-- A segment that overlaps nothing is stored whole. -/
theorem storedPieces_of_apart {d : FlowDirection} {new : Chunk UInt8} (hne : new.2 ≠ [])
    (hap : ∀ e ∈ d.segments.entries, new.Apart e) {maxSegments : Nat}
    (hroom : d.segments.size < maxSegments) : storedPieces d new maxSegments = [new] := by
  have hpiece : new.piece (new.1, new.stop) = new := by simp [Chunk.piece, Chunk.stop]
  rw [storedPieces, openGaps_of_apart hne hap, List.take_of_length_le (by simp; omega),
    List.map_singleton, hpiece]

theorem filter_startsBefore (d : FlowDirection) (new : Chunk UInt8) :
    (d.segments.entries.filter (fun e => e.1 < new.stop)).filter (overlapsWith new) =
      d.segments.entries.filter (overlapsWith new) := by
  rw [List.filter_filter]
  apply List.filter_congr
  intro e _
  by_cases h : overlapsWith new e = true
  · have := (rangesOverlap_iff _ _ _ _).mp h
    simp [h, this.2]
  · simp [h]

/-- The scan sees a conflict exactly if the segment disagrees with what is buffered. -/
theorem conflict_iff {d : FlowDirection} (ht : Tidy d) (new : Chunk UInt8) :
    (∃ e ∈ d.segments.entries.filter (fun e => e.1 < new.stop), Conflict new e) ↔
      Disagrees d new := by
  constructor
  · rintro ⟨e, he, p, x, y, hx, hy, hne⟩
    exact ⟨p, x, y, hx, (valueAt_eq_some_iff ht.apart p y).mpr
      ⟨e, (List.mem_filter.mp he).1, hy⟩, hne⟩
  · rintro ⟨p, x, y, hx, hy, hne⟩
    obtain ⟨e, he, hey⟩ := (valueAt_eq_some_iff ht.apart p y).mp hy
    have hconf : Conflict new e := ⟨p, x, y, hx, hey, hne⟩
    exact ⟨e, List.mem_filter.mpr ⟨he, by simpa using hconf.overlap.2⟩, hconf⟩

/-- A segment that overlaps nothing fills one gap. -/
theorem Classified.of_apart {d : FlowDirection} {new : Chunk UInt8} (hne : new.2 ≠ [])
    (hap : ∀ e ∈ d.segments.entries, new.Apart e) {maxSegments : Nat}
    (hroom : d.segments.size < maxSegments) (truncated : Bool) :
    Classified d new truncated maxSegments (if truncated then .truncated else .inserted) := by
  have hgaps := openGaps_of_apart hne hap
  refine ⟨fun h => ?_, fun h => ?_, fun h => ?_, fun _ _ h => ?_, fun _ _ h => ?_⟩
  · rw [hgaps] at h
    cases h
  · rw [hgaps] at h
    cases h
  · rw [hgaps, List.length_singleton] at h
    omega
  · rw [if_pos h]
  · rw [if_neg (by simp [h])]
    exact .inl rfl

/-- A segment of which every byte is buffered already. -/
theorem Classified.of_covered {d : FlowDirection} {new : Chunk UInt8}
    (hgaps : openGaps d new = []) {hasConflict : Bool}
    (hconf : hasConflict = true ↔ Disagrees d new) (truncated : Bool) (maxSegments : Nat) :
    Classified d new truncated maxSegments
      (if hasConflict then .conflictingOverlap else .duplicate) := by
  refine ⟨fun _ h => if_pos (hconf.mpr h), fun _ h => if_neg fun h' => h (hconf.mp h'),
    fun h => ?_, fun h => absurd hgaps h, fun h => absurd hgaps h⟩
  rw [hgaps, List.length_nil] at h
  omega

/-- A segment whose gaps have been filled as far as there is room. -/
theorem Classified.of_gaps {d : FlowDirection} {new : Chunk UInt8} {hasConflict : Bool}
    (hconf : hasConflict = true ↔ Disagrees d new) {maxSegments : Nat} {exhausted : Bool}
    (hflag : exhausted = true ↔ maxSegments - d.segments.size < (openGaps d new).length)
    (truncated : Bool) :
    Classified d new truncated maxSegments
      (gapResult (!(openGaps d new).isEmpty) hasConflict exhausted truncated) := by
  by_cases hgaps : openGaps d new = []
  · have hres : gapResult (!(openGaps d new).isEmpty) hasConflict exhausted truncated =
        if hasConflict then .conflictingOverlap else .duplicate := by
      rw [hgaps]
      cases hasConflict <;> rfl
    rw [hres]
    exact .of_covered hgaps hconf truncated maxSegments
  · have hsome : (openGaps d new).isEmpty = false := List.isEmpty_eq_false_iff.mpr hgaps
    rw [hsome]
    refine ⟨fun h => absurd h hgaps, fun h => absurd h hgaps, fun h => ?_, fun _ h ht => ?_,
      fun _ h ht => ?_⟩
    · rw [hflag.mpr h]
      rfl
    · have hex : exhausted = false := by
        rw [Bool.eq_false_iff, Ne, hflag]
        omega
      rw [hex, ht]
      rfl
    · have hex : exhausted = false := by
        rw [Bool.eq_false_iff, Ne, hflag]
        omega
      rw [hex, ht]
      exact .inr rfl

theorem bufferSegment_returns {d : FlowDirection} (ht : Tidy d) (new : Chunk UInt8)
    (hne : new.2 ≠ []) (truncated : Bool) {maxSegments : Nat}
    (hroom : d.segments.size < maxSegments) :
    Returns (bufferSegment d new.1 new.2 truncated maxSegments) (fun out =>
      Stored d out.1 (storedPieces d new maxSegments) ∧
      out.1.depthExceeded = d.depthExceeded ∧
      Classified d new truncated maxSegments out.2) := by
  unfold bufferSegment
  simp only [← Chunk.stop.eq_1]
  refine (scanOverlaps_returns new _).bind fun found hfound => ?_
  rw [filter_startsBefore, conflict_iff ht] at hfound
  obtain ⟨hranges, hany, hconf⟩ := hfound
  rw [← overlappedRanges] at hranges
  by_cases hov : found.hasOverlap = true
  · rw [if_pos hov, selectGaps, hranges,
      assertThat_of (sortedByStart_of_pairwise (overlappedRanges_sorted new ht))]
    simp only [bind, Except.bind]
    by_cases hfull : (sweepGaps new.1 new.stop new.1 (overlappedRanges d new)).fullyCovered = true
    · rw [if_pos hfull]
      have hnone := openGaps_of_fullyCovered ht new hfull
      refine Returns.pure ⟨?_, rfl, .of_covered hnone hconf truncated maxSegments⟩
      rw [storedPieces, hnone]
      exact ⟨by simp [contents], by simp⟩
    · rw [if_neg hfull]
      have hfill := fillGaps_returns new maxSegments (openGaps d new)
        { d with overlapCount := saturatingInc 32 d.overlapCount } ⟨ht.nonempty, ht.apart⟩
        (openGaps_bounds new) (openGaps_ascending new ht)
        (fun g hg e he => openGaps_free new ht hg he)
      refine hfill.bind fun out hout => Returns.pure ?_
      obtain ⟨hstored, hdepth, hflag⟩ := hout
      refine ⟨⟨?_, hstored.entries⟩, hdepth, .of_gaps hconf hflag truncated⟩
      have := hstored.frame
      rw [this]
      rfl
  · rw [if_neg hov]
    have hfree : ∀ e ∈ d.segments.entries, new.Apart e := by
      intro e he
      have hno : ¬ overlapsWith new e = true := by
        rw [hany] at hov
        simp only [Bool.not_eq_true', Bool.not_eq_false, List.isEmpty_iff,
          List.filter_eq_nil_iff] at hov
        exact hov e he
      rw [overlapsWith, rangesOverlap_iff] at hno
      unfold Chunk.Apart
      omega
    rw [storedPieces_of_apart hne hfree hroom]
    exact (storeSegment_returns ht hne hfree).bind fun d' hd' =>
      Returns.pure ⟨hd'.1, hd'.2, .of_apart hne hfree hroom truncated⟩

end Wirerust.Buffer
