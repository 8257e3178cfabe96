import Wirerust.Reassembly.Direction

/-!
Whole runs of one direction: any sequence of `set_isn`, `infer_isn`, `insert_segment` and
`flush_contiguous` calls on a direction that starts as `FlowDirection::new`.

* `step_returns` says what one call does, with `Moved` as its result.
* `run_returns_inv` is the run rule: no run panics, the delivered chunks follow one another
  from offset 1 to the cursor, and any further invariant only has to be kept by `Moved`.
* `run_repInv`: the representation invariant under fixed limits.
-/

namespace Wirerust.Runs

open Lib Wirerust.Segment Wirerust.Buffer Wirerust.Direction

inductive Op
  | setIsn (isn : UInt32)
  | inferIsn (firstSeq : UInt32)
  | insert (seq : UInt32) (data : List UInt8) (lim : Limits)
  | flush
  deriving DecidableEq

/-- A direction and every chunk its `flush_contiguous` calls have returned, oldest first. -/
structure State where
  dir : FlowDirection
  delivered : List (Chunk UInt8)

def State.init : State := ⟨.new, []⟩

def step (s : State) : Op → Checked State
  | .setIsn isn => .ok { s with dir := setIsn s.dir isn }
  | .inferIsn firstSeq => .ok { s with dir := inferIsn s.dir firstSeq }
  | .insert seq data lim => do
    let (dir, _) ← insertSegment s.dir seq data lim
    .ok { s with dir }
  | .flush => do
    let (dir, flushed) ← flushContiguous s.dir
    .ok ⟨dir, s.delivered ++ flushed⟩

/-! ## One call -/

/-- All that one call does. -/
inductive Moved (s : State) : Op → State → Prop
  | known (op : Op) (isn : UInt32) (hop : op = .setIsn isn ∨ op = .inferIsn (isn + 1))
      (h : s.dir.isn ≠ none) : Moved s op s
  | learned (op : Op) (isn : UInt32) (hop : op = .setIsn isn ∨ op = .inferIsn (isn + 1))
      (h : s.dir.isn = none) :
      Moved s op { s with dir := { s.dir with isn := some isn, baseOffset := 1 } }
  | stored (seq : UInt32) (data : List UInt8) (lim : Limits) (d' : FlowDirection)
      (h : Stored s.dir d' (insertedPieces s.dir seq data lim)) :
      Moved s (.insert seq data lim) { s with dir := d' }
  | flushed (d' : FlowDirection) (chunks : List (Chunk UInt8)) (h : Flushed s.dir d' chunks) :
      Moved s .flush ⟨d', s.delivered ++ chunks⟩

theorem setIsn_moved (s : State) (op : Op) (isn : UInt32)
    (hop : op = .setIsn isn ∨ op = .inferIsn (isn + 1)) :
    Moved s op { s with dir := setIsn s.dir isn } := by
  unfold setIsn
  by_cases h : s.dir.isn = none
  · rw [if_pos (Option.isNone_iff_eq_none.mpr h)]
    exact .learned op isn hop h
  · rw [if_neg (by simpa using h)]
    exact .known op isn hop h

theorem step_returns {s : State} (hwf : Wf s.dir) (op : Op) :
    Returns (step s op) (Moved s op) := by
  cases op with
  | setIsn isn => exact Returns.pure (setIsn_moved s _ isn (.inl rfl))
  | inferIsn firstSeq =>
    have hseq : firstSeq - 1 + 1 = firstSeq := by simp
    exact Returns.pure (setIsn_moved s _ (firstSeq - 1) (.inr (by rw [hseq])))
  | insert seq data lim =>
    exact (insertSegment_returns hwf.toTidy seq data lim).bind fun out h =>
      Returns.pure (.stored seq data lim out.1 h)
  | flush =>
    exact (flushContiguous_returns hwf).bind fun out h => Returns.pure (.flushed out.1 out.2 h)

theorem Moved.of_insert {s s' : State} {seq : UInt32} {data : List UInt8} {lim : Limits}
    (h : Moved s (.insert seq data lim) s') :
    s'.delivered = s.delivered ∧ Stored s.dir s'.dir (insertedPieces s.dir seq data lim) := by
  cases h with
  | known _ isn hop => rcases hop with hop | hop <;> cases hop
  | learned _ isn hop => rcases hop with hop | hop <;> cases hop
  | stored _ _ _ d' hst => exact ⟨rfl, hst⟩

theorem Moved.of_flush {s s' : State} (h : Moved s .flush s') :
    ∃ chunks, s'.delivered = s.delivered ++ chunks ∧ Flushed s.dir s'.dir chunks := by
  cases h with
  | known _ isn hop => rcases hop with hop | hop <;> cases hop
  | learned _ isn hop => rcases hop with hop | hop <;> cases hop
  | flushed d' chunks hfl => exact ⟨chunks, rfl, hfl⟩

/-! ## Every run -/

structure Inv (s : State) : Prop where
  wf : Wf s.dir
  fresh : s.dir.isn = none →
    s.dir.segments.entries = [] ∧ s.dir.baseOffset = 0 ∧ s.delivered = []
  contiguous : s.dir.isn ≠ none → ContiguousFrom 1 s.delivered s.dir.baseOffset
  nonempty : ∀ c ∈ s.delivered, c.2 ≠ []
  counted : s.dir.reassembledBytes = (contents s.delivered).length

theorem Inv.init : Inv State.init where
  wf := ⟨⟨by simp [State.init, FlowDirection.new, SortedMap.empty],
    by simp [State.init, FlowDirection.new, SortedMap.empty]⟩, rfl⟩
  fresh := fun _ => ⟨rfl, rfl, rfl⟩
  contiguous := fun h => absurd rfl h
  nonempty := by simp [State.init]
  counted := rfl

theorem Inv.moved {s s' : State} {op : Op} (h : Inv s) (hm : Moved s op s') : Inv s' := by
  cases hm with
  | known => exact h
  | learned _ isn _ hnone =>
    obtain ⟨hnil, -, hdel⟩ := h.fresh hnone
    refine ⟨⟨⟨h.wf.nonempty, h.wf.apart⟩, h.wf.accounted⟩, ?_, fun _ => ?_, h.nonempty, h.counted⟩
    · intro hn
      cases hn
    · simp only [hdel]
      rfl
  | stored seq data lim d' hst =>
    refine ⟨Direction.Stored.wf hst h.wf, fun hnone => ?_, fun hsome => ?_, h.nonempty, ?_⟩
    · rw [hst.isn] at hnone
      obtain ⟨hnil, hbase, hdel⟩ := h.fresh hnone
      have hpieces : insertedPieces s.dir seq data lim = [] := by
        rw [insertedPieces, admittedSegment, hnone]
      have hperm := hst.entries
      rw [hpieces, hnil] at hperm
      exact ⟨hperm.eq_nil, hst.baseOffset.trans hbase, hdel⟩
    · rw [hst.isn] at hsome
      rw [hst.baseOffset]
      exact h.contiguous hsome
    · rw [hst.reassembledBytes]
      exact h.counted
  | flushed d' chunks hfl =>
    refine ⟨hfl.wf h.wf, fun hnone => ?_, fun hsome => ?_, ?_, ?_⟩
    · rw [hfl.isn] at hnone
      obtain ⟨hnil, hbase, hdel⟩ := h.fresh hnone
      have hperm := hfl.entries
      rw [hnil] at hperm
      obtain ⟨hch, hent⟩ := List.append_eq_nil_iff.mp hperm.symm.eq_nil
      have hcont := hfl.contiguous
      rw [hch] at hcont
      exact ⟨hent, hcont.symm.trans hbase, by rw [hdel, hch]; rfl⟩
    · rw [hfl.isn] at hsome
      exact contiguousFrom_append (h.contiguous hsome) hfl.contiguous
    · intro c hc
      rcases List.mem_append.mp hc with hc | hc
      · exact h.nonempty c hc
      · exact h.wf.nonempty c (hfl.entries.mem_iff.mpr (List.mem_append_left _ hc))
    · rw [hfl.reassembledBytes, contents_append, List.length_append, h.counted]

/-- The run rule of a direction. -/
theorem run_returns_inv {s₀ : State} (hinv : Inv s₀) (ops : List Op) {I : List Op → State → Prop}
    (h₀ : I [] s₀)
    (hstep : ∀ pre op s s', (pre ++ [op]) <+: ops → run step s₀ pre = .ok s → Inv s →
      Moved s op s' → I pre s → I (pre ++ [op]) s') :
    Returns (run step s₀ ops) (fun s => Inv s ∧ I ops s) := by
  refine run_returns (I := fun pre s => Inv s ∧ I pre s) ops ⟨hinv, h₀⟩ ?_
  intro pre op s hpre hrun hs
  exact (step_returns hs.1.wf op).mono fun s' hm =>
    ⟨hs.1.moved hm, hstep pre op s s' hpre hrun hs.1 hm hs.2⟩

theorem run_inv (ops : List Op) : Returns (run step .init ops) Inv :=
  (run_returns_inv Inv.init ops (I := fun _ _ => True) trivial
    (fun _ _ _ _ _ _ _ _ _ => trivial)).mono fun _ h => h.1

/-- The last call of a run, and what is known of its result. -/
theorem run_snoc_moved {pre : List Op} {op : Op} {s : State} (hs : run step .init pre = .ok s)
    {P : State → Prop} (h : Returns (run step .init (pre ++ [op])) P) :
    ∃ s', Moved s op s' ∧ P s' := by
  rw [run_snoc, hs] at h
  obtain ⟨s', hstep, hm⟩ := step_returns ((run_inv pre).apply hs).wf op
  exact ⟨s', hm, h.apply hstep⟩

theorem Inv.baseOffset {s : State} (h : Inv s) (hisn : s.dir.isn ≠ none) :
    s.dir.baseOffset = s.dir.reassembledBytes + 1 := by
  rw [h.counted, contiguousFrom_le (h.contiguous hisn), Nat.add_comm]

/-! ## The representation invariant -/

/-- The call is given these limits, if it is given any. -/
def Op.Under (lim : Limits) : Op → Prop
  | .insert _ _ l => l = lim
  | _ => True

structure RepInv (lim : Limits) (d : FlowDirection) : Prop where
  nonempty : ∀ e ∈ d.segments.entries, e.2 ≠ []
  disjoint : d.segments.entries.Pairwise (fun a b => ∀ p, ¬ (Chunk.Covers a p ∧ Chunk.Covers b p))
  accounted : d.bufferedBytes = (d.segments.entries.map fun e => e.2.length).sum
  segmentCount : d.segments.size ≤ lim.maxSegments
  depth : d.reassembledBytes + d.bufferedBytes ≤ lim.maxDepth
  cursor : d.isn ≠ none → d.baseOffset = d.reassembledBytes + 1

/-- The part of the invariant that depends on the limits. -/
def WithinLimits (lim : Limits) (d : FlowDirection) : Prop :=
  d.segments.size ≤ lim.maxSegments ∧ d.reassembledBytes + d.bufferedBytes ≤ lim.maxDepth

theorem insertedPieces_bounds {d : FlowDirection} (ht : Tidy d) (seq : UInt32)
    (data : List UInt8) {lim : Limits} (h : WithinLimits lim d) :
    (insertedPieces d seq data lim).length + d.segments.size ≤ lim.maxSegments ∧
      d.reassembledBytes + d.bufferedBytes + (contents (insertedPieces d seq data lim)).length ≤
        lim.maxDepth := by
  unfold insertedPieces
  cases hadm : admittedSegment d seq data lim with
  | none => simpa [contents, WithinLimits] using h
  | some new =>
    have hcount := storedPieces_length_le (d := d) new lim.maxSegments
    have hbytes := storedPieces_bytes_le new ht lim.maxSegments
    have hfits := admittedSegment_fits hadm
    unfold WithinLimits at h
    simp only
    omega

theorem WithinLimits.moved {lim : Limits} {s s' : State} {op : Op} (h : WithinLimits lim s.dir)
    (hinv : Inv s) (hop : op.Under lim) (hm : Moved s op s') : WithinLimits lim s'.dir := by
  cases hm with
  | known => exact h
  | learned => exact h
  | stored seq data l d' hst =>
    obtain rfl : l = lim := hop
    have hb := insertedPieces_bounds hinv.wf.toTidy seq data h
    unfold WithinLimits
    rw [hst.size, hst.reassembledBytes, hst.bufferedBytes]
    omega
  | flushed d' chunks hfl =>
    have hsize := hfl.size
    have hbytes := hfl.bufferedBytes
    unfold WithinLimits at h ⊢
    simp only [hfl.reassembledBytes]
    omega

theorem Inv.repInv {lim : Limits} {s : State} (h : Inv s) (hl : WithinLimits lim s.dir) :
    RepInv lim s.dir where
  nonempty := h.wf.nonempty
  disjoint := h.wf.apart.imp fun hap p hp => hap.not_covers hp.1 hp.2
  accounted := by rw [h.wf.accounted, contents, List.length_flatMap]
  segmentCount := hl.1
  depth := hl.2
  cursor := h.baseOffset

/-- Every run under fixed limits returns: no subtraction goes below zero, no slice is out of
range and neither map insert meets an occupied key. The direction it leaves satisfies the
representation invariant. -/
theorem run_repInv (lim : Limits) (ops : List Op) (hlim : ∀ op ∈ ops, op.Under lim) :
    Returns (run step .init ops) (fun s => RepInv lim s.dir) := by
  refine (run_returns_inv Inv.init ops (I := fun _ s => WithinLimits lim s.dir) ?_ ?_).mono
    fun s hs => hs.1.repInv hs.2
  · exact ⟨Nat.zero_le _, Nat.zero_le _⟩
  · intro pre op s s' hpre _ hinv hm h
    exact h.moved hinv (hlim op (hpre.subset (by simp))) hm

/-- Out of order, with an overlap and a segment limit of two. -/
theorem run_repInv_overlap :
    Returns (run step .init [.inferIsn 5, .insert 7 [3, 4] ⟨8, 2, 16⟩, .insert 5 [1, 2, 9] ⟨8, 2, 16⟩,
      .flush]) (fun s => RepInv ⟨8, 2, 16⟩ s.dir) :=
  run_repInv ⟨8, 2, 16⟩ _ (by simp [Op.Under])

end Wirerust.Runs
