import Wirerust.Reassembly.Runs

/-!
The buffer and the flush cursor.

`flush_contiguous` removes the segment whose key is the cursor, and nothing else. So a
segment is out of its reach once the cursor is past its start: one that ends at or below the
cursor stays in the buffer for good, and one that goes on beyond it stops the stream there.

`insert_segment` turns away a segment that ends strictly below the cursor, and lets every
other one in as it is. Two conditions on a call say when that goes wrong, and each result
below is an equivalence over whole runs:

* `unstalled_iff`: a flush leaves a segment at the cursor exactly when some earlier call
  `Straddles` it.
* `noZombie_iff`: a segment lies behind the cursor exactly when some call `LeavesBehind` one.
-/

namespace Wirerust.Cursor

open Lib Wirerust.Segment Wirerust.Buffer Wirerust.Direction Wirerust.Runs

/-! ## The bytes a call adds -/

/-- The call has a byte for offset `p`: it is part of the segment `new` that the guards let
through, the offset is free, and the segment limit leaves room for its gap. -/
def Fills (d : FlowDirection) (seq : UInt32) (data : List UInt8) (lim : Limits)
    (new : Chunk UInt8) (p : Nat) : Prop :=
  admittedSegment d seq data lim = some new ∧ new.Covers p ∧ taken d p = false ∧
    holesBefore (taken d) new.1 p < lim.maxSegments - d.segments.size

/-- The call buffers the offset before the cursor and the one at it. -/
def Straddles (d : FlowDirection) (seq : UInt32) (data : List UInt8) (lim : Limits) : Prop :=
  ∃ new p, p + 1 = d.baseOffset ∧ Fills d seq data lim new p ∧
    new.Covers (p + 1) ∧ taken d (p + 1) = false

/-- The call buffers an offset below the cursor, and the segment ends there or meets a
buffered one. -/
def LeavesBehind (d : FlowDirection) (seq : UInt32) (data : List UInt8) (lim : Limits) : Prop :=
  ∃ new p, p < d.baseOffset ∧ Fills d seq data lim new p ∧
    ¬ (new.Covers (p + 1) ∧ taken d (p + 1) = false)

section Pieces

variable {d : FlowDirection} (ht : Tidy d) {seq : UInt32} {data : List UInt8} {lim : Limits}

include ht

theorem insertedPieces_covers_iff (p : Nat) :
    (∃ c ∈ insertedPieces d seq data lim, c.Covers p) ↔ ∃ new, Fills d seq data lim new p := by
  unfold insertedPieces Fills
  cases admittedSegment d seq data lim with
  | none => simp
  | some new =>
    simp only [storedPieces_covers_iff new ht]
    constructor
    · intro h
      exact ⟨new, rfl, h⟩
    · rintro ⟨new', hnew, h⟩
      cases hnew
      exact h

theorem insertedPieces_covers_succ {new : Chunk UInt8}
    (hadm : admittedSegment d seq data lim = some new) {c : Chunk UInt8}
    (hc : c ∈ insertedPieces d seq data lim) {p : Nat} (hp : c.Covers p) :
    c.Covers (p + 1) ↔ new.Covers (p + 1) ∧ taken d (p + 1) = false := by
  rw [insertedPieces, hadm] at hc
  exact storedPieces_covers_succ new ht hc hp

theorem straddles_iff :
    Straddles d seq data lim ↔
      ∃ c ∈ insertedPieces d seq data lim, c.1 < d.baseOffset ∧ d.baseOffset < c.stop := by
  constructor
  · rintro ⟨new, p, hp, hfill, hnext⟩
    obtain ⟨c, hc, hcov⟩ := (insertedPieces_covers_iff ht p).mpr ⟨new, hfill⟩
    have hsucc := (insertedPieces_covers_succ ht hfill.1 hc hcov).mpr hnext
    unfold Chunk.Covers at hcov hsucc
    exact ⟨c, hc, by omega⟩
  · rintro ⟨c, hc, hlt, hgt⟩
    have hcov : c.Covers (d.baseOffset - 1) := by unfold Chunk.Covers; omega
    have hsucc : c.Covers (d.baseOffset - 1 + 1) := by unfold Chunk.Covers; omega
    obtain ⟨new, hfill⟩ := (insertedPieces_covers_iff ht _).mp ⟨c, hc, hcov⟩
    exact ⟨new, d.baseOffset - 1, by omega, hfill,
      (insertedPieces_covers_succ ht hfill.1 hc hcov).mp hsucc⟩

theorem leavesBehind_iff :
    LeavesBehind d seq data lim ↔ ∃ c ∈ insertedPieces d seq data lim, c.stop ≤ d.baseOffset := by
  constructor
  · rintro ⟨new, p, hp, hfill, hend⟩
    obtain ⟨c, hc, hcov⟩ := (insertedPieces_covers_iff ht p).mpr ⟨new, hfill⟩
    have hsucc := mt (insertedPieces_covers_succ ht hfill.1 hc hcov).mp hend
    unfold Chunk.Covers at hcov hsucc
    exact ⟨c, hc, by omega⟩
  · rintro ⟨c, hc, hle⟩
    have hlen := List.length_pos_iff.mpr (insertedPieces_nonempty d seq data lim c hc)
    have hcov : c.Covers (c.stop - 1) := by unfold Chunk.Covers Chunk.stop; omega
    have hsucc : ¬ c.Covers (c.stop - 1 + 1) := by unfold Chunk.Covers; omega
    obtain ⟨new, hfill⟩ := (insertedPieces_covers_iff ht _).mp ⟨c, hc, hcov⟩
    refine ⟨new, c.stop - 1, ?_, hfill,
      mt (insertedPieces_covers_succ ht hfill.1 hc hcov).mpr hsucc⟩
    unfold Chunk.stop at *
    omega

end Pieces

/-- What a flush leaves ahead of the old cursor is ahead of the new one. -/
theorem flushed_covers {d d' : FlowDirection} {chunks : List (Chunk UInt8)}
    (h : Flushed d d' chunks) (ht : Tidy d) {e : Chunk UInt8} (he : e ∈ d'.segments.entries)
    {p : Nat} (hp : e.Covers p) (hle : d.baseOffset ≤ p) : d'.baseOffset ≤ p := by
  apply Nat.le_of_not_lt
  intro hlt
  have hbase := h.baseOffset
  have hsome : (valueAt chunks p).isSome := by
    rw [valueAt_of_contiguousFrom h.contiguous, Chunk.at?_isSome_iff]
    unfold Chunk.Covers Chunk.stop
    simp only
    omega
  obtain ⟨c, hc, hcov⟩ := (valueAt_isSome_iff chunks p).mp hsome
  exact ((List.pairwise_append.mp (h.apart ht)).2.2 c hc e he).not_covers hcov hp

/-! ## Stalled streams -/

/-- No buffered segment covers the cursor. -/
def Unstalled (d : FlowDirection) : Prop :=
  ∀ e ∈ d.segments.entries, ¬ (e.1 ≤ d.baseOffset ∧ d.baseOffset < e.1 + e.2.length)

/-- No buffered segment has the cursor inside it. -/
def Uncrossed (d : FlowDirection) : Prop :=
  ∀ e ∈ d.segments.entries, e.1 < d.baseOffset → Chunk.stop e ≤ d.baseOffset

theorem Uncrossed.moved {s s' : State} {op : Op} (h : Uncrossed s.dir) (hinv : Inv s)
    (hop : ∀ seq data lim, op = .insert seq data lim → ¬ Straddles s.dir seq data lim)
    (hm : Moved s op s') : Uncrossed s'.dir := by
  cases hm with
  | known => exact h
  | learned _ isn _ hnone =>
    intro e he
    rw [(hinv.fresh hnone).1] at he
    cases he
  | stored seq data lim d' hst =>
    intro e he hlt
    rw [hst.baseOffset] at hlt ⊢
    rcases hst.mem_iff.mp he with hnew | hold
    · apply Nat.le_of_not_lt
      intro hgt
      exact hop seq data lim rfl ((straddles_iff hinv.wf.toTidy).mpr ⟨e, hnew, hlt, hgt⟩)
    · exact h e hold hlt
  | flushed d' chunks hfl =>
    intro e he hlt
    by_cases hbehind : e.1 < s.dir.baseOffset
    · have hstop := h e (hfl.mem he) hbehind
      have := hfl.baseOffset
      simp only
      omega
    · -- `e` starts in the range that has just been flushed
      have hpos := List.length_pos_iff.mpr (hinv.wf.nonempty e (hfl.mem he))
      have hcov : Chunk.Covers e e.1 := by unfold Chunk.Covers Chunk.stop; omega
      have := flushed_covers hfl hinv.wf.toTidy he hcov (by omega)
      simp only at hlt
      omega

theorem Uncrossed.unstalled {d d' : FlowDirection} {chunks : List (Chunk UInt8)}
    (h : Uncrossed d') (hfl : Flushed d d' chunks) : Unstalled d' := by
  rintro e he ⟨hle, hgt⟩
  rcases Nat.lt_or_eq_of_le hle with hlt | heq
  · have := h e he hlt
    unfold Chunk.stop at this
    omega
  · have := (SortedMap.get?_eq_none_iff _ _).mp hfl.drained e.2
    rw [← heq] at this
    exact this he

/-- A segment with the cursor inside it, which no call ever removes. -/
def Crosses (d : FlowDirection) (e : Chunk UInt8) : Prop :=
  e ∈ d.segments.entries ∧ e.1 < d.baseOffset ∧ d.baseOffset < e.stop

theorem Crosses.moved {s s' : State} {op : Op} {e : Chunk UInt8} (h : Crosses s.dir e)
    (hinv : Inv s) (hm : Moved s op s') : Crosses s'.dir e := by
  obtain ⟨hmem, hlt, hgt⟩ := h
  cases hm with
  | known => exact ⟨hmem, hlt, hgt⟩
  | learned _ isn _ hnone =>
    rw [(hinv.fresh hnone).1] at hmem
    cases hmem
  | stored seq data lim d' hst =>
    refine ⟨hst.mem_iff.mpr (.inr hmem), ?_⟩
    rw [hst.baseOffset]
    exact ⟨hlt, hgt⟩
  | flushed d' chunks hfl =>
    -- a flushed chunk would start at the cursor, which `e` covers
    have hnil : chunks = [] := by
      cases hch : chunks with
      | nil => rfl
      | cons c cs =>
        have hfirst := hfl.contiguous
        rw [hch] at hfirst
        have hc : c ∈ s.dir.segments.entries :=
          hfl.entries.mem_iff.mpr (by rw [hch]; exact List.mem_cons_self)
        have hpos := List.length_pos_iff.mpr (hinv.wf.nonempty c hc)
        have hne : e ≠ c := fun heq => by rw [heq, hfirst.1] at hlt; omega
        have hap : Chunk.Apart e c := hinv.wf.apart.forall hmem hc hne
        have hcov : Chunk.Covers e s.dir.baseOffset := ⟨Nat.le_of_lt hlt, hgt⟩
        refine absurd ?_ (hap.not_covers hcov)
        rw [← hfirst.1]
        unfold Chunk.Covers Chunk.stop
        omega
    have hbase := hfl.baseOffset
    have hperm := hfl.entries
    rw [hnil] at hbase hperm
    refine ⟨hperm.mem_iff.mp hmem, ?_⟩
    simp only [hbase, contents]
    exact ⟨hlt, hgt⟩

theorem Crosses.not_unstalled {d : FlowDirection} {e : Chunk UInt8} (h : Crosses d e) :
    ¬ Unstalled d := fun hu => hu e h.1 ⟨Nat.le_of_lt h.2.1, h.2.2⟩

/-- A straddling call leaves a segment with the cursor inside it. -/
theorem crosses_of_straddles {s s' : State} {seq : UInt32} {data : List UInt8} {lim : Limits}
    (hinv : Inv s) (h : Straddles s.dir seq data lim) (hm : Moved s (.insert seq data lim) s') :
    ∃ e, Crosses s'.dir e := by
  obtain ⟨c, hc, hlt, hgt⟩ := (straddles_iff hinv.wf.toTidy).mp h
  obtain ⟨-, hst⟩ := hm.of_insert
  refine ⟨c, hst.mem_iff.mpr (.inl hc), ?_⟩
  rw [hst.baseOffset]
  exact ⟨hlt, hgt⟩

theorem prefix_of_snoc_prefix {pre ops : List Op} {a b : Op}
    (h : (pre ++ [a]) <+: (ops ++ [b])) : pre <+: ops := by
  rcases List.prefix_concat_iff.mp h with heq | hpre
  · exact (List.append_inj' heq rfl).1 ▸ List.prefix_refl _
  · exact (List.prefix_append pre [a]).trans hpre

/-- Over every run that ends in a flush: after each of its flushes no segment covers the
cursor if, and only if, no insertion straddles the cursor. -/
theorem unstalled_iff (ops : List Op) :
    (∀ pre, (pre ++ [.flush]) <+: (ops ++ [.flush]) →
      Returns (run step .init (pre ++ [.flush])) (fun s => Unstalled s.dir)) ↔
    ∀ pre seq data lim, (pre ++ [.insert seq data lim]) <+: ops →
      ∀ s, run step .init pre = .ok s → ¬ Straddles s.dir seq data lim := by
  constructor
  · rintro hall pre seq data lim ⟨post, hpost⟩ s hs hbad
    have hinv := (run_inv pre).apply hs
    obtain ⟨t, ht, hm⟩ := step_returns hinv.wf (.insert seq data lim)
    obtain ⟨e, he⟩ := crosses_of_straddles hinv hbad hm
    have hrest := run_returns_inv (hinv.moved hm) (post ++ [.flush])
      (I := fun _ s => Crosses s.dir e) he fun _ _ _ _ _ _ hi hm hx => hx.moved hi hm
    obtain ⟨s', hs', -, he'⟩ := hrest
    refine he'.not_unstalled ((hall ops (List.prefix_refl _)).apply ?_)
    rw [← hpost, List.append_assoc, run_append, run_snoc, hs]
    simp only [bind, Except.bind, ht]
    exact hs'
  · intro hgood pre hpre
    have hprefix := prefix_of_snoc_prefix hpre
    rw [run_snoc]
    refine (run_returns_inv Inv.init pre (I := fun _ s => Uncrossed s.dir) ?_ ?_).bind
      fun s hs => ?_
    · intro e he
      cases he
    · intro pre' op s s' hpre' hrun hinv hm hun
      refine hun.moved hinv (fun seq data lim hop => ?_) hm
      subst hop
      exact hgood pre' seq data lim (hpre'.trans hprefix) s hrun
    · obtain ⟨hinv, hun⟩ := hs
      refine (step_returns hinv.wf .flush).mono fun s' hm => ?_
      obtain ⟨chunks, -, hfl⟩ := hm.of_flush
      exact (hun.moved hinv (fun _ _ _ hop => by cases hop) hm).unstalled hfl

/-- Offsets 1 to 5 are delivered, and a retransmission of offsets 3 to 7 arrives: it is kept
with key 3, so offsets 6 and 7 are never delivered. -/
theorem stalled_run :
    Returns (run step .init [.setIsn 1000, .insert 1001 [1, 2, 3, 4, 5] ⟨100, 10, 100⟩, .flush,
      .insert 1003 [3, 4, 5, 6, 7] ⟨100, 10, 100⟩, .flush]) (fun s => ¬ Unstalled s.dir) := by
  refine ⟨_, rfl, fun h => h (3, [3, 4, 5, 6, 7]) ?_ ?_⟩
  · decide
  · decide

/-! ## Segments behind the cursor -/

/-- Every buffered segment ends above the cursor. -/
def NoZombie (d : FlowDirection) : Prop :=
  ∀ e ∈ d.segments.entries, d.baseOffset < e.1 + e.2.length

theorem NoZombie.moved {s s' : State} {op : Op} (h : NoZombie s.dir) (hinv : Inv s)
    (hop : ∀ seq data lim, op = .insert seq data lim → ¬ LeavesBehind s.dir seq data lim)
    (hm : Moved s op s') : NoZombie s'.dir := by
  cases hm with
  | known => exact h
  | learned _ isn _ hnone =>
    intro e he
    rw [(hinv.fresh hnone).1] at he
    cases he
  | stored seq data lim d' hst =>
    intro e he
    rw [hst.baseOffset]
    rcases hst.mem_iff.mp he with hnew | hold
    · apply Nat.lt_of_not_le
      intro hle
      exact hop seq data lim rfl ((leavesBehind_iff hinv.wf.toTidy).mpr ⟨e, hnew, hle⟩)
    · exact h e hold
  | flushed d' chunks hfl =>
    intro e he
    have hold := hfl.mem he
    have hpos := List.length_pos_iff.mpr (hinv.wf.nonempty e hold)
    have hend := h e hold
    -- the last offset of `e` is ahead of the cursor before and after
    have hcov : Chunk.Covers e (e.1 + e.2.length - 1) := by
      unfold Chunk.Covers Chunk.stop
      omega
    have := flushed_covers hfl hinv.wf.toTidy he hcov (by omega)
    simp only
    omega

/-- Over every run: after each step all segments end above the cursor if, and only if, no
insertion leaves one behind. -/
theorem noZombie_iff (ops : List Op) :
    (∀ pre, pre <+: ops → Returns (run step .init pre) (fun s => NoZombie s.dir)) ↔
    ∀ pre seq data lim, (pre ++ [.insert seq data lim]) <+: ops →
      ∀ s, run step .init pre = .ok s → ¬ LeavesBehind s.dir seq data lim := by
  constructor
  · intro hall pre seq data lim hpre s hs hbad
    obtain ⟨s', hm, hz⟩ := run_snoc_moved hs (hall _ hpre)
    obtain ⟨-, hst⟩ := hm.of_insert
    obtain ⟨c, hc, hle⟩ := (leavesBehind_iff ((run_inv pre).apply hs).wf.toTidy).mp hbad
    have := hz c (hst.mem_iff.mpr (.inl hc))
    rw [hst.baseOffset] at this
    unfold Chunk.stop at hle
    omega
  · intro hgood pre hpre
    refine (run_returns_inv Inv.init pre (I := fun _ s => NoZombie s.dir) ?_ ?_).mono
      fun s hs => hs.2
    · intro e he
      cases he
    · intro pre' op s s' hpre' hrun hinv hm hz
      refine hz.moved hinv (fun seq data lim hop => ?_) hm
      subst hop
      exact hgood pre' seq data lim (hpre'.trans hpre) s hrun

/-- A delivered segment arrives again: it ends at the cursor, so the guard lets it in and it
stays in the buffer. -/
theorem zombie_run :
    Returns (run step .init [.setIsn 1000, .insert 1001 [1, 2, 3, 4, 5] ⟨100, 10, 100⟩, .flush,
      .insert 1001 [1, 2, 3, 4, 5] ⟨100, 10, 100⟩]) (fun s => ¬ NoZombie s.dir) := by
  refine ⟨_, rfl, fun h => absurd (h (1, [1, 2, 3, 4, 5]) ?_) ?_⟩
  · decide
  · decide

end Wirerust.Cursor
