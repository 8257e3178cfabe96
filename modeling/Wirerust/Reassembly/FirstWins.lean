import Wirerust.Lib.FirstWins
import Wirerust.Reassembly.Cursor

/-!
The first-wins policy over whole runs.

A direction and what it has delivered are a first-wins store (`storeOf`), and every call
is a step of it (`moved_step`). So each offset is delivered at most once, and with the byte
that was buffered for it first, in every run (`deliveredOnce`, `delivered_firstBuffered`).

What a run need not keep is the byte in the buffer: an offset behind the cursor is free
again, and `insert_segment` may buffer it a second time. `firstWins_iff` says when the whole
policy holds: exactly when no call fills a delivered offset with another byte.
-/

namespace Wirerust.FirstWins

open Lib Lib.FirstWins Wirerust.Segment Wirerust.Buffer Wirerust.Direction Wirerust.Runs
  Wirerust.Cursor

def storeOf (s : State) : Store Nat UInt8 := ⟨byteAt s.dir, valueAt s.delivered⟩

/-- The call fills an offset that has been delivered, and with another byte. -/
def Clashes (s : State) (seq : UInt32) (data : List UInt8) (lim : Limits) : Prop :=
  ∃ new p x v, Fills s.dir seq data lim new p ∧ new.at? p = some x ∧
    valueAt s.delivered p = some v ∧ x ≠ v

theorem valueAt_insertedPieces {d : FlowDirection} (ht : Tidy d) {seq : UInt32}
    {data : List UInt8} {lim : Limits} (p : Nat) (x : UInt8) :
    valueAt (insertedPieces d seq data lim) p = some x ↔
      ∃ new, Fills d seq data lim new p ∧ new.at? p = some x := by
  unfold insertedPieces Fills
  cases admittedSegment d seq data lim with
  | none => simp [valueAt]
  | some new =>
    simp only [valueAt_storedPieces new ht]
    constructor
    · intro h
      split at h
      · rename_i hadm
        exact ⟨new, ⟨rfl, Chunk.covers_of_at? h, hadm⟩, h⟩
      · cases h
    · rintro ⟨new', ⟨hnew, -, hadm⟩, hx⟩
      cases hnew
      rw [if_pos hadm]
      exact hx

theorem taken_eq_false_iff (d : FlowDirection) (p : Nat) :
    taken d p = false ↔ byteAt d p = none := by
  rw [taken, Option.isSome_eq_false_iff, Option.isNone_iff_eq_none]

theorem clashes_iff {s : State} (ht : Tidy s.dir) {seq : UInt32} {data : List UInt8}
    {lim : Limits} :
    Clashes s seq data lim ↔
      Clash (storeOf s) (valueAt (insertedPieces s.dir seq data lim)) := by
  constructor
  · rintro ⟨new, p, x, v, hfill, hx, hv, hne⟩
    exact ⟨p, x, v, (taken_eq_false_iff s.dir p).mp hfill.2.2.1,
      (valueAt_insertedPieces ht p x).mpr ⟨new, hfill, hx⟩, hv, hne⟩
  · rintro ⟨p, x, v, -, hx, hv, hne⟩
    obtain ⟨new, hfill, hx⟩ := (valueAt_insertedPieces ht p x).mp hx
    exact ⟨new, p, x, v, hfill, hx, hv, hne⟩

/-- What a call offers to the store. -/
def offered (s : State) : Op → Nat → Option UInt8
  | .insert seq data lim => valueAt (insertedPieces s.dir seq data lim)
  | _ => fun _ => none

theorem store_idle (st : Store Nat UInt8) : Step st (fun _ => none) st := by
  have h := Step.offer (s := st) (fun _ => none)
  simp only [Option.or_none] at h
  exact h

theorem flushed_step {s : State} (hinv : Inv s) {d' : FlowDirection} {chunks : List (Chunk UInt8)}
    (h : Flushed s.dir d' chunks) :
    Step (storeOf s) (fun _ => none) (storeOf ⟨d', s.delivered ++ chunks⟩) := by
  have hst : storeOf ⟨d', s.delivered ++ chunks⟩ =
      ⟨byteAt d', fun p => (valueAt s.delivered p).or (valueAt chunks p)⟩ := by
    simp only [storeOf, Store.mk.injEq, true_and]
    funext p
    exact valueAt_append _ _ p
  rw [hst]
  refine Step.deliver (valueAt chunks) (byteAt d') (h.byteAt hinv.wf.toTidy) (fun p => ?_)
    (fun p v hv => ?_)
  · cases hc : valueAt chunks p with
    | none => exact .inl rfl
    | some v =>
      refine .inr ((valueAt_eq_none_iff _ p).mpr fun e he hcov => ?_)
      obtain ⟨c, hc, hv⟩ := mem_of_valueAt hc
      have hap := (List.pairwise_append.mp (h.apart hinv.wf.toTidy)).2.2 c hc e he
      exact hap.not_covers (Chunk.covers_of_at? hv) hcov
  · -- what has been delivered lies below the cursor, what is flushed now above it
    obtain ⟨c, hc, hcv⟩ := mem_of_valueAt hv
    obtain ⟨hlo, hhi⟩ := Chunk.covers_of_at? hcv
    have hbounds := contiguousFrom_bounds h.contiguous c hc
    refine (valueAt_eq_none_iff _ p).mpr fun e he hcov => ?_
    by_cases hisn : s.dir.isn = none
    · rw [(hinv.fresh hisn).2.2] at he
      cases he
    · have := contiguousFrom_bounds (hinv.contiguous hisn) e he
      unfold Chunk.Covers at hcov
      omega

/-- Every call of the code is a step of the store. -/
theorem moved_step {s s' : State} {op : Op} (hinv : Inv s) (hm : Moved s op s') :
    Step (storeOf s) (offered s op) (storeOf s') := by
  cases hm with
  | known op isn hop =>
    rcases hop with rfl | rfl
    · exact store_idle _
    · exact store_idle _
  | learned op isn hop =>
    rcases hop with rfl | rfl
    · exact store_idle _
    · exact store_idle _
  | stored seq data lim d' hst =>
    have hst' : storeOf { s with dir := d' } =
        ⟨fun p => (byteAt s.dir p).or (valueAt (insertedPieces s.dir seq data lim) p),
          valueAt s.delivered⟩ := by
      simp only [storeOf, Store.mk.injEq, and_true]
      funext p
      exact Direction.Stored.byteAt hst hinv.wf.toTidy p
    rw [hst']
    exact Step.offer _
  | flushed d' chunks hfl => exact flushed_step hinv hfl

/-! ## What holds in every run -/

/-- After the calls `ops`, offset `p` is buffered with value `v`. -/
def Buffered (ops : List Op) (p : Nat) (v : UInt8) : Prop :=
  Returns (run step .init ops) (fun s => byteAt s.dir p = some v)

def Unbuffered (ops : List Op) (p : Nat) : Prop :=
  Returns (run step .init ops) (fun s => byteAt s.dir p = none)

/-- `v` is the first value that the run buffers for `p`. -/
def FirstBuffered (ops : List Op) (p : Nat) (v : UInt8) : Prop :=
  ∃ pre, pre <+: ops ∧ Buffered pre p v ∧ ∀ pre', pre' <+: pre → pre' ≠ pre → Unbuffered pre' p

theorem FirstBuffered.mono {pre ops : List Op} {p : Nat} {v : UInt8} (h : FirstBuffered pre p v)
    (hpre : pre <+: ops) : FirstBuffered ops p v := by
  obtain ⟨pre₀, h₀, hrest⟩ := h
  exact ⟨pre₀, h₀.trans hpre, hrest⟩

/-- The store remembers the first value of every offset. -/
def Remembers (ops : List Op) (s : State) : Prop :=
  ∀ p, match (storeOf s).held p with
    | none => ∀ pre, pre <+: ops → Unbuffered pre p
    | some v => FirstBuffered ops p v

theorem Remembers.moved {pre : List Op} {op : Op} {s s' : State} (h : Remembers pre s)
    (hinv : Inv s) (hm : Moved s op s') (hrun : run step .init (pre ++ [op]) = .ok s') :
    Remembers (pre ++ [op]) s' := by
  intro p
  have hp := h p
  have hstep := moved_step hinv hm
  cases hheld : (storeOf s).held p with
  | some v =>
    rw [hheld] at hp
    rw [hstep.held hheld]
    exact hp.mono (List.prefix_append _ _)
  | none =>
    rw [hheld] at hp
    have hfirst := hstep.held_of_none hheld
    rw [hfirst]
    cases hb : (storeOf s').buf p with
    | none =>
      intro pre' hpre'
      rcases List.prefix_concat_iff.mp hpre' with rfl | hpre'
      · exact ⟨s', hrun, hb⟩
      · exact hp pre' hpre'
    | some v =>
      refine ⟨pre ++ [op], List.prefix_refl _, ⟨s', hrun, hb⟩, fun pre' hpre' hne => ?_⟩
      rcases List.prefix_concat_iff.mp hpre' with heq | hpre'
      · exact absurd heq hne
      · exact hp pre' hpre'

theorem run_remembers (ops : List Op) :
    Returns (run step .init ops) (fun s => Inv s ∧ Remembers ops s) := by
  refine run_returns (I := fun pre s => Inv s ∧ Remembers pre s) ops ⟨Inv.init, ?_⟩ ?_
  · intro p pre hpre
    rw [List.prefix_nil.mp hpre]
    exact ⟨.init, rfl, rfl⟩
  · intro pre op s _ hrun hs
    obtain ⟨s', hs', hm⟩ := step_returns hs.1.wf op
    refine ⟨s', hs', hs.1.moved hm, hs.2.moved hs.1 hm ?_⟩
    rw [run_snoc, hrun]
    exact hs'

theorem Remembers.firstBuffered {ops : List Op} {s : State} (h : Remembers ops s) {p : Nat}
    {v : UInt8} (hv : (storeOf s).held p = some v) : FirstBuffered ops p v := by
  have := h p
  rw [hv] at this
  exact this

/-- Delivered bytes are first-buffered bytes, in every run. -/
theorem delivered_firstBuffered (ops : List Op) :
    Returns (run step .init ops) (fun s =>
      ∀ c ∈ s.delivered, ∀ p x, c.at? p = some x → FirstBuffered ops p x) := by
  refine (run_remembers ops).mono fun s hs c hc p x hx => hs.2.firstBuffered (Store.held_of_out ?_)
  obtain ⟨hinv, -⟩ := hs
  by_cases hisn : s.dir.isn = none
  · rw [(hinv.fresh hisn).2.2] at hc
    cases hc
  · have hasc := contiguousFrom_apart (hinv.contiguous hisn)
    exact (valueAt_eq_some_iff hasc p x).mpr ⟨c, hc, hx⟩

/-- No offset is delivered twice, in any run. -/
theorem deliveredOnce (ops : List Op) (p : Nat) :
    Returns (run step .init ops) (fun s => s.delivered.countP (fun c => c.Covers p) ≤ 1) := by
  refine (run_inv ops).mono fun s hinv => ?_
  by_cases hisn : s.dir.isn = none
  · rw [(hinv.fresh hisn).2.2]
    exact Nat.zero_le _
  · exact countP_covers_le_one (hinv.contiguous hisn) p

/-! ## The policy -/

/-- First wins over a whole run: a buffered byte stays what it is until it leaves the buffer,
and each offset is delivered at most once, with the byte first buffered for it. -/
structure Policy (ops : List Op) : Prop where
  kept : ∀ pre pre' p v, pre <+: pre' → pre' <+: ops → Buffered pre p v →
    Unbuffered pre' p ∨ Buffered pre' p v
  once : ∀ p, Returns (run step .init ops) (fun s => s.delivered.countP (fun c => c.Covers p) ≤ 1)
  first : Returns (run step .init ops) (fun s =>
    ∀ c ∈ s.delivered, ∀ p x, c.at? p = some x → FirstBuffered ops p x)

/-- No call of the run fills a delivered offset with another byte. -/
def NoClash (ops : List Op) : Prop :=
  ∀ pre seq data lim, (pre ++ [.insert seq data lim]) <+: ops →
    ∀ s, run step .init pre = .ok s → ¬ Clashes s seq data lim

theorem NoClash.agrees {ops pre : List Op} (h : NoClash ops) (hpre : pre <+: ops) :
    Returns (run step .init pre) (fun s => (storeOf s).Agrees) := by
  refine (run_returns_inv Inv.init pre (I := fun _ s => (storeOf s).Agrees) ?_ ?_).mono
    fun s hs => hs.2
  · intro p v w hv
    cases hv
  · intro pre' op s s' hpre' hrun hinv hm ha
    refine (moved_step hinv hm).agrees ha ?_
    cases op with
    | insert seq data lim =>
      rw [offered, ← clashes_iff hinv.wf.toTidy]
      exact h pre' seq data lim (hpre'.trans hpre) s hrun
    | setIsn | inferIsn | flush =>
      rintro ⟨p, x, v, -, hx, -⟩
      cases hx

/-- The first value of an offset is the same after every longer run. -/
theorem held_mono {pre pre' : List Op} (hpre : pre <+: pre') {s s' : State}
    (hs : run step .init pre = .ok s) (hs' : run step .init pre' = .ok s') {p : Nat} {v : UInt8}
    (hv : (storeOf s).held p = some v) : (storeOf s').held p = some v := by
  obtain ⟨post, rfl⟩ := hpre
  rw [run_append, hs] at hs'
  refine ((run_returns_inv ((run_inv pre).apply hs) post
    (I := fun _ s => (storeOf s).held p = some v) hv ?_).apply hs').2
  intro _ _ _ _ _ _ hinv hm h
  exact (moved_step hinv hm).held h

theorem NoClash.kept {ops pre pre' : List Op} (h : NoClash ops) (hpre : pre <+: pre')
    (hpre' : pre' <+: ops) {p : Nat} {v : UInt8} (hv : Buffered pre p v) :
    Unbuffered pre' p ∨ Buffered pre' p v := by
  obtain ⟨s, hs, hbuf⟩ := hv
  obtain ⟨s', hs', hagree'⟩ := h.agrees hpre'
  have hheld := ((h.agrees (hpre.trans hpre')).apply hs).held_of_buf hbuf
  have hheld' := held_mono hpre hs hs' hheld
  cases hbuf' : byteAt s'.dir p with
  | none => exact .inl ⟨s', hs', hbuf'⟩
  | some w =>
    have := hagree'.held_of_buf hbuf'
    rw [hheld'] at this
    cases this
    exact .inr ⟨s', hs', hbuf'⟩

/-- Every run keeps the first-wins policy if, and only if, no insertion of it fills a
delivered offset with a byte that differs from the delivered one. -/
theorem firstWins_iff (ops : List Op) : Policy ops ↔ NoClash ops := by
  constructor
  · rintro hfw pre seq data lim hpre s hs ⟨new, p, x, v, hfill, hx, hv, hne⟩
    obtain ⟨hinv, hrem⟩ := (run_remembers pre).apply hs
    obtain ⟨pre₀, hpre₀, hbuf₀, -⟩ := hrem.firstBuffered (Store.held_of_out hv)
    obtain ⟨s', hstep, hm⟩ := step_returns hinv.wf (.insert seq data lim)
    obtain ⟨-, hst⟩ := hm.of_insert
    have hrun : run step .init (pre ++ [.insert seq data lim]) = .ok s' := by
      rw [run_snoc, hs]
      exact hstep
    have hnow : byteAt s'.dir p = some x := by
      rw [Direction.Stored.byteAt hst hinv.wf.toTidy,
        (taken_eq_false_iff s.dir p).mp hfill.2.2.1, Option.none_or,
        (valueAt_insertedPieces hinv.wf.toTidy p x).mpr ⟨new, hfill, hx⟩]
    rcases hfw.kept pre₀ _ p v (hpre₀.trans (List.prefix_append _ _)) hpre hbuf₀ with h | h
    · have := h.apply hrun
      rw [hnow] at this
      cases this
    · have := h.apply hrun
      rw [hnow] at this
      exact hne (Option.some.inj this)
  · intro h
    exact ⟨fun _ _ _ _ hpre hpre' hv => h.kept hpre hpre' hv, deliveredOnce ops,
      delivered_firstBuffered ops⟩

/-- Offset 1 is buffered with byte 1 and delivered; a segment that ends at the cursor then
buffers byte 9 for it. -/
theorem clashing_run :
    ¬ Policy [.setIsn 1000, .insert 1001 [1, 2, 3] ⟨100, 10, 100⟩, .flush,
      .insert 1001 [9, 2, 3] ⟨100, 10, 100⟩] := by
  intro h
  rcases h.kept [.setIsn 1000, .insert 1001 [1, 2, 3] ⟨100, 10, 100⟩] _ 1 1
    ⟨[.flush, .insert 1001 [9, 2, 3] ⟨100, 10, 100⟩], rfl⟩ (List.prefix_refl _)
    ⟨_, rfl, by decide⟩ with h | h
  · exact absurd (h.apply rfl) (by decide)
  · exact absurd (h.apply rfl) (by decide)

end Wirerust.FirstWins
