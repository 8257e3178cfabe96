import Wirerust.Analyzer.Http

/-!
The two directions of an HTTP flow.

What a delivery does to its direction is a function of that direction and the bytes alone
(`Side.deliver`), for any parser; `onData_delivers` says that the analyzer computes it and leaves
the other direction as it is. From this every run keeps the directions apart, poisons one after
three failing calls and never else (`run_isolates`), and a direction that is not poisoned takes
more bytes unless its buffer is full (`run_open_or_full`).
-/

namespace Wirerust.Http

open Lib Wirerust.Flow Wirerust.Analyzer

/-! ## One direction -/

/-- What the parser says to a buffer. -/
inductive Attempt
  | parsed (n : Nat)
  | waits
  | fails
  deriving DecidableEq, Repr

def attemptOf {α : Type} (result : Parsed α) : Attempt :=
  match result with
  | .ok (some (n, _)) => .parsed n
  | .ok none => .waits
  | .error _ => .fails

def attempt (lib : Httparse) (dir : Direction) (buf : List UInt8) : Attempt :=
  match dir with
  | .clientToServer => attemptOf (lib.request buf)
  | .serverToClient => attemptOf (lib.response buf)

theorem attemptOf_parsed {α : Type} {result : Parsed α} {n : Nat}
    (h : attemptOf result = .parsed n) : ∃ a, result = .ok (some (n, a)) := by
  unfold attemptOf at h
  split at h
  · rename_i m a
    cases h
    exact ⟨a, rfl⟩
  · cases h
  · cases h

theorem attempt_bounds {lib : Httparse} {dir : Direction} {buf : List UInt8} {n : Nat}
    (h : attempt lib dir buf = .parsed n) : 1 ≤ n ∧ n ≤ buf.length := by
  cases dir with
  | clientToServer =>
    obtain ⟨raw, hraw⟩ := attemptOf_parsed h
    exact lib.request_bounds hraw
  | serverToClient =>
    obtain ⟨raw, hraw⟩ := attemptOf_parsed h
    exact lib.response_bounds hraw

namespace Side

/-- An error that is counted. -/
def noteError (side : Side) : Side where
  buf := side.buf
  errorCount := bump8 side.errorCount
  poisoned := side.poisoned || bump8 side.errorCount ≥ poisonThreshold

def clear (side : Side) : Side := { side with buf := [] }

/-- The parse loop. -/
def settle (attempt : List UInt8 → Attempt) : Nat → Bool → Side → Side
  | 0, _, side => side
  | turns + 1, hadSuccess, side =>
    if side.buf.isEmpty then side
    else
      match attempt side.buf with
      | .parsed n =>
        settle attempt turns true { side with buf := side.buf.drop n, errorCount := 0 }
      | .waits => side
      | .fails => if hadSuccess then side.clear else side.noteError.clear

/-- A delivery. -/
def deliver (attempt : List UInt8 → Attempt) (side : Side) (data : List UInt8) : Side :=
  if side.poisoned then side
  else settle attempt (side.append data).buf.length false (side.append data)

theorem length_append_le {side : Side} (h : side.buf.length ≤ maxHeaderBuf) (data : List UInt8) :
    (side.append data).buf.length ≤ maxHeaderBuf := by
  unfold append
  simp only
  split
  · rw [List.length_append, List.length_take]
    omega
  · exact h

theorem append_of_full {side : Side} (h : side.buf.length = maxHeaderBuf) (data : List UInt8) :
    side.append data = side := by
  unfold append
  rw [h, Nat.sub_self]
  rfl

theorem append_of_room {side : Side} (h : side.buf.length < maxHeaderBuf) (data : List UInt8) :
    (side.append data).buf = side.buf ++ data.take (maxHeaderBuf - side.buf.length) := by
  unfold append
  simp only
  rw [if_pos (Nat.sub_pos_of_lt h)]
  simp only
  rw [Nat.min_comm, ← List.take_eq_take_min]

section Settle

variable {attempt : List UInt8 → Attempt}

theorem length_settle_le (turns : Nat) (hadSuccess : Bool) (side : Side) :
    (settle attempt turns hadSuccess side).buf.length ≤ side.buf.length := by
  induction turns generalizing hadSuccess side with
  | zero => exact Nat.le_refl _
  | succ turns ih =>
    rw [settle]
    split
    · exact Nat.le_refl _
    · split
      · refine Nat.le_trans (ih _ _) ?_
        simp only [List.length_drop]
        omega
      · exact Nat.le_refl _
      · split
        · exact Nat.zero_le _
        · exact Nat.zero_le _

/-- The loop ends with an empty buffer or one that the parser waits on. -/
theorem settle_rest (hbounds : ∀ {buf n}, attempt buf = .parsed n → 1 ≤ n ∧ n ≤ buf.length)
    (turns : Nat) (hadSuccess : Bool) (side : Side) (hturns : side.buf.length ≤ turns) :
    (settle attempt turns hadSuccess side).buf = [] ∨
      attempt (settle attempt turns hadSuccess side).buf = .waits := by
  induction turns generalizing hadSuccess side with
  | zero => exact .inl (List.length_eq_zero_iff.mp (Nat.le_zero.mp hturns))
  | succ turns ih =>
    rw [settle]
    by_cases hempty : side.buf.isEmpty = true
    · rw [if_pos hempty]
      exact .inl (List.isEmpty_iff.mp hempty)
    · rw [if_neg hempty]
      cases hattempt : attempt side.buf with
      | parsed n =>
        obtain ⟨hpos, hle⟩ := hbounds hattempt
        refine ih _ _ ?_
        simp only [List.length_drop]
        omega
      | waits => exact .inr hattempt
      | fails =>
        simp only
        split
        · exact .inl rfl
        · exact .inl rfl

end Settle

end Side

/-! ## The parse loop of the analyzer -/

theorem attemptOf_mapParsed {α β : Type} (f : α → β) (result : Parsed α) :
    attemptOf (mapParsed f result) = attemptOf result := by
  unfold mapParsed attemptOf
  cases result with
  | error e => rfl
  | ok status =>
    cases status with
    | none => rfl
    | some message => rfl

/-- The largest total of a map that a message of this direction is counted in. -/
def load (dir : Direction) (s : HttpAnalyzer) : Nat :=
  match dir with
  | .clientToServer =>
    max (countsTotal s.methods) (max (countsTotal s.hosts) (countsTotal s.userAgents))
  | .serverToClient => countsTotal s.statusCodes

/-- What recording a message leaves alone. -/
structure Untouched (s s' : HttpAnalyzer) : Prop where
  flows : s'.flows = s.flows
  nonHttpFlows : s'.nonHttpFlows = s.nonHttpFlows
  skipped : s'.poisonedBytesSkipped = s.poisonedBytesSkipped

/-- A reader of one direction. -/
structure Reads (lib : Httparse) {α : Type} (r : Reader α) : Prop where
  parse : ∀ buf, attemptOf (r.parse buf) = attempt lib r.direction buf
  record : ∀ s lastTs message, ReturnsIf (load r.direction s + 1 < 2 ^ 64)
    (r.record s lastTs message) fun s' => Untouched s s' ∧
      load r.direction s' ≤ load r.direction s + 1 ∧
      ∀ other, other ≠ r.direction → load other s' = load other s

theorem countMapEntry_total (counts : SortedMap String Nat) (dropped : Nat) (key : String) :
    ReturnsIf (countsTotal counts + 1 < 2 ^ 64) (countMapEntry counts dropped key)
      (fun r => countsTotal r.1 ≤ countsTotal counts + 1) := by
  unfold countMapEntry
  split
  · exact (countEntry_total 64 counts key).bind fun r hr => .pure (Nat.le_of_eq hr)
  · exact .pure (Nat.le_succ _)

theorem countOptional_total (counts : SortedMap String Nat) (dropped : Nat)
    (key : Option String) :
    ReturnsIf (countsTotal counts + 1 < 2 ^ 64) (countOptional counts dropped key)
      (fun r => countsTotal r.1 ≤ countsTotal counts + 1) := by
  unfold countOptional
  cases key with
  | none => exact .pure (Nat.le_succ _)
  | some key => exact countMapEntry_total counts dropped key

theorem requestReader_reads (lib : Httparse) : Reads lib (requestReader lib) where
  parse := fun buf => attemptOf_mapParsed _ _
  record := fun s lastTs message => by
    show ReturnsIf (load .clientToServer s + 1 < 2 ^ 64) (recordRequest s lastTs message) _
    have hload : ∀ s, load .clientToServer s =
        max (countsTotal s.methods) (max (countsTotal s.hosts) (countsTotal s.userAgents)) :=
      fun _ => rfl
    unfold recordRequest
    rw [hload]
    refine ((countMapEntry_total s.methods _ _).imp (by omega)).bind fun r₁ h₁ => ?_
    refine ((countOptional_total s.hosts _ _).imp (by omega)).bind fun r₂ h₂ => ?_
    refine ((countOptional_total s.userAgents _ _).imp (by omega)).bind fun r₃ h₃ => .pure ?_
    refine ⟨⟨rfl, rfl, rfl⟩, ?_, fun other hne => ?_⟩
    · simp only [requestReader, hload]
      omega
    · cases other with
      | clientToServer => exact absurd rfl hne
      | serverToClient => rfl

theorem responseReader_reads (lib : Httparse) : Reads lib (responseReader lib) where
  parse := fun buf => attemptOf_mapParsed _ _
  record := fun s lastTs message => by
    show ReturnsIf (load .serverToClient s + 1 < 2 ^ 64) (recordResponse s lastTs message) _
    unfold recordResponse load
    refine (countEntry_total 64 s.statusCodes message).bind fun r hr =>
      .pure ⟨⟨rfl, rfl, rfl⟩, Nat.le_of_eq hr, fun other hne => ?_⟩
    cases other with
    | clientToServer => rfl
    | serverToClient => exact absurd rfl hne

section Sides

variable (flow : HttpFlowState) (dir : Direction)

theorem side_setSide (side : Side) : (flow.setSide dir side).side dir = side := by
  cases dir with
  | clientToServer => rfl
  | serverToClient => rfl

theorem side_setSide_of_ne (side : Side) {other : Direction} (h : other ≠ dir) :
    (flow.setSide dir side).side other = flow.side other := by
  refine Direction.ne_cases ?_ ?_ h
  · rfl
  · rfl

theorem setSide_rest (side : Side) :
    (flow.setSide dir side).countedAsNonHttp = flow.countedAsNonHttp ∧
      (flow.setSide dir side).lastTs = flow.lastTs := by
  cases dir with
  | clientToServer => exact ⟨rfl, rfl⟩
  | serverToClient => exact ⟨rfl, rfl⟩

theorem setSide_side : flow.setSide dir (flow.side dir) = flow := by
  cases dir with
  | clientToServer => rfl
  | serverToClient => rfl

theorem side_lastTs (timestamp : UInt32) :
    ({ flow with lastTs := timestamp } : HttpFlowState).side dir = flow.side dir := by
  cases dir with
  | clientToServer => rfl
  | serverToClient => rfl

end Sides

abbrev Work := HttpAnalyzer × HttpFlowState

/-- The flow has been counted as one that is not HTTP, or nothing of this kind. -/
def CountsFlow (w w' : Work) : Prop :=
  (w'.2.countedAsNonHttp = w.2.countedAsNonHttp ∧ w'.1.nonHttpFlows = w.1.nonHttpFlows) ∨
    (w.2.countedAsNonHttp = false ∧ w'.2.countedAsNonHttp = true ∧
      w'.1.nonHttpFlows = bump64 w.1.nonHttpFlows)

theorem CountsFlow.trans {w w' w'' : Work} (h : CountsFlow w w') (h' : CountsFlow w' w'') :
    CountsFlow w w'' := by
  rcases h with ⟨hflag, hcount⟩ | ⟨hflag, hflag', hcount⟩
  · rcases h' with ⟨hflag₂, hcount₂⟩ | ⟨hflag₂, hflag₂', hcount₂⟩
    · exact .inl ⟨hflag₂.trans hflag, hcount₂.trans hcount⟩
    · exact .inr ⟨hflag ▸ hflag₂, hflag₂', by rw [hcount₂, hcount]⟩
  · rcases h' with ⟨hflag₂, hcount₂⟩ | ⟨hflag₂, -, -⟩
    · exact .inr ⟨hflag, hflag₂.trans hflag', hcount₂.trans hcount⟩
    · rw [hflag'] at hflag₂
      cases hflag₂

/-- The analyzer after work on one direction, which has become `side`. -/
structure Works (dir : Direction) (side : Side) (w w' : Work) : Prop where
  side : w'.2.side dir = side
  other : ∀ other, other ≠ dir → w'.2.side other = w.2.side other
  counted : CountsFlow w w'
  flows : w'.1.flows = w.1.flows
  skipped : w'.1.poisonedBytesSkipped = w.1.poisonedBytesSkipped
  load : load dir w'.1 + (w'.2.side dir).buf.length ≤
    load dir w.1 + (w.2.side dir).buf.length
  loadOther : ∀ other, other ≠ dir → Http.load other w'.1 = Http.load other w.1

theorem Works.refl (dir : Direction) (w : Work) : Works dir (w.2.side dir) w w :=
  ⟨rfl, fun _ _ => rfl, .inl ⟨rfl, rfl⟩, rfl, rfl, Nat.le_refl _, fun _ _ => rfl⟩

theorem Works.trans {dir : Direction} {side side' : Side} {w w' w'' : Work}
    (h : Works dir side w w') (h' : Works dir side' w' w'') : Works dir side' w w'' where
  side := h'.side
  other := fun other hne => (h'.other other hne).trans (h.other other hne)
  counted := h.counted.trans h'.counted
  flows := h'.flows.trans h.flows
  skipped := h'.skipped.trans h.skipped
  load := Nat.le_trans h'.load h.load
  loadOther := fun other hne => (h'.loadOther other hne).trans (h.loadOther other hne)

/-- The direction is set, its buffer gets no longer, and nothing is recorded. -/
theorem works_setSide {s s' : HttpAnalyzer} (flow : HttpFlowState) (dir : Direction) (side : Side)
    (hkept : Untouched s s') (hload : ∀ dir, load dir s' = load dir s)
    (hle : side.buf.length ≤ (flow.side dir).buf.length) :
    Works dir side (s, flow) (s', flow.setSide dir side) where
  side := side_setSide _ _ _
  other := fun _ hne => side_setSide_of_ne _ _ _ hne
  counted := .inl ⟨(setSide_rest _ _ _).1, hkept.nonHttpFlows⟩
  flows := hkept.flows
  skipped := hkept.skipped
  load := by
    simp only [side_setSide, hload]
    omega
  loadOther := fun other _ => hload other

theorem untouched_refl (s : HttpAnalyzer) : Untouched s s := ⟨rfl, rfl, rfl⟩

theorem noteError_works {α : Type} (r : Reader α) (s : HttpAnalyzer) (flow : HttpFlowState) :
    Works r.direction (flow.side r.direction).noteError (s, flow) (noteError r s flow) := by
  have hset := fun s' (hkept : Untouched s s') (hload : ∀ dir, load dir s' = load dir s) =>
    works_setSide flow r.direction (flow.side r.direction).noteError hkept hload (Nat.le_refl _)
  unfold noteError
  simp only
  by_cases hpoison : bump8 (flow.side r.direction).errorCount ≥ poisonThreshold
  · have hside : (flow.side r.direction).noteError = { flow.side r.direction with
        errorCount := bump8 (flow.side r.direction).errorCount, poisoned := true } := by
      simp [Side.noteError, hpoison]
    rw [if_pos hpoison]
    rw [hside] at hset ⊢
    split
    · rename_i hcounted
      rw [(setSide_rest _ _ _).1, Bool.not_eq_true'] at hcounted
      have hworks := hset { s with parseErrors := bump64 s.parseErrors } ⟨rfl, rfl, rfl⟩
        fun _ => rfl
      exact ⟨hworks.side, hworks.other, .inr ⟨hcounted, rfl, rfl⟩, rfl, rfl, hworks.load,
        hworks.loadOther⟩
    · exact hset _ ⟨rfl, rfl, rfl⟩ fun _ => rfl
  · have hside : (flow.side r.direction).noteError = { flow.side r.direction with
        errorCount := bump8 (flow.side r.direction).errorCount } := by
      simp [Side.noteError, hpoison]
    rw [if_neg hpoison]
    rw [hside] at hset ⊢
    exact hset _ ⟨rfl, rfl, rfl⟩ fun _ => rfl

theorem raiseTooManyHeaders_untouched {α : Type} (r : Reader α) (e : HttparseError)
    (lastTs : UInt32) (s : HttpAnalyzer) :
    Untouched s (raiseTooManyHeaders r e lastTs s) ∧
      ∀ dir, load dir (raiseTooManyHeaders r e lastTs s) = load dir s := by
  unfold raiseTooManyHeaders
  split
  · exact ⟨⟨rfl, rfl, rfl⟩, fun _ => rfl⟩
  · exact ⟨⟨rfl, rfl, rfl⟩, fun _ => rfl⟩

/-- The loop does what `Side.settle` does; it comes back if there are fewer than `2^64` messages to
count. -/
theorem tryParse_works {lib : Httparse} {α : Type} {r : Reader α} (hr : Reads lib r) (turns : Nat)
    (hadSuccess : Bool) (s : HttpAnalyzer) (flow : HttpFlowState) :
    ReturnsIf (load r.direction s + (flow.side r.direction).buf.length < 2 ^ 64)
      (tryParse r turns hadSuccess s flow)
      (Works r.direction
        ((flow.side r.direction).settle (attempt lib r.direction) turns hadSuccess) (s, flow)) := by
  induction turns generalizing hadSuccess s flow with
  | zero => exact .pure (Works.refl r.direction (s, flow))
  | succ turns ih =>
    rw [tryParse, Side.settle]
    simp only
    by_cases hempty : (flow.side r.direction).buf.isEmpty = true
    · rw [if_pos hempty, if_pos hempty]
      exact .pure (Works.refl r.direction (s, flow))
    · rw [if_neg hempty, if_neg hempty, ← hr.parse]
      cases hparse : r.parse (flow.side r.direction).buf with
      | error e =>
        cases hadSuccess with
        | true =>
          exact .pure (works_setSide flow r.direction _ (untouched_refl s) (fun _ => rfl)
            (Nat.zero_le _))
        | false =>
          have hnote := noteError_works r s flow
          obtain ⟨hkept, hload⟩ := raiseTooManyHeaders_untouched r e (noteError r s flow).2.lastTs
            (noteError r s flow).1
          have hclear := works_setSide (noteError r s flow).2 r.direction
            ((noteError r s flow).2.side r.direction).clear hkept hload (Nat.zero_le _)
          rw [hnote.side] at hclear
          refine .pure ?_
          have hall := hnote.trans hclear
          rw [← hnote.side] at hall ⊢
          exact hall
      | ok status =>
        cases status with
        | none => exact .pure (Works.refl r.direction (s, flow))
        | some message =>
          obtain ⟨n, parsed⟩ := message
          have hattempt : attempt lib r.direction (flow.side r.direction).buf = .parsed n := by
            rw [← hr.parse, hparse]
            rfl
          obtain ⟨hpos, hle⟩ := attempt_bounds hattempt
          have hlen : ((flow.side r.direction).buf.drop n).length =
              (flow.side r.direction).buf.length - n := List.length_drop
          refine ((hr.record s flow.lastTs parsed).imp (by omega)).bind
            fun s₁ ⟨hkept, hload, hother⟩ => ?_
          rw [slice_of_le hle (Nat.le_refl _), List.take_length, ok_bind]
          have hstep : Works r.direction { flow.side r.direction with
              buf := (flow.side r.direction).buf.drop n, errorCount := 0 } (s, flow)
              (s₁, flow.setSide r.direction { flow.side r.direction with
                buf := (flow.side r.direction).buf.drop n, errorCount := 0 }) :=
            ⟨side_setSide _ _ _, fun _ hne => side_setSide_of_ne _ _ _ hne,
              .inl ⟨(setSide_rest _ _ _).1, hkept.nonHttpFlows⟩, hkept.flows, hkept.skipped,
              by simp only [side_setSide]; omega, hother⟩
          have hrest := ih true s₁ (flow.setSide r.direction { flow.side r.direction with
            buf := (flow.side r.direction).buf.drop n, errorCount := 0 })
          rw [side_setSide] at hrest
          refine (hrest.imp fun hroom => ?_).mono fun w hw => hstep.trans hw
          simp only
          omega

/-! ## Calls -/

theorem tryParseSide_works (lib : Httparse) (dir : Direction) (s : HttpAnalyzer)
    (flow : HttpFlowState) :
    ReturnsIf (load dir s + (flow.side dir).buf.length < 2 ^ 64) (tryParseSide lib dir s flow)
      (Works dir ((flow.side dir).settle (attempt lib dir) (flow.side dir).buf.length false)
        (s, flow)) := by
  cases dir with
  | clientToServer => exact tryParse_works (requestReader_reads lib) _ _ _ _
  | serverToClient => exact tryParse_works (responseReader_reads lib) _ _ _ _

def flowOf (s : HttpAnalyzer) (flowKey : FlowKey) : HttpFlowState :=
  (s.flows.get? flowKey).getD {}

theorem flowOf_insert {s s' : HttpAnalyzer} {flowKey : FlowKey} {flow : HttpFlowState}
    (h : s'.flows = s.flows.insert flowKey flow) : flowOf s' flowKey = flow := by
  rw [flowOf, h, SortedMap.get?_insert_self, Option.getD_some]

/-- What a call does. -/
structure Called (lib : Httparse) (flowKey : FlowKey) (dir : Direction) (data : List UInt8)
    (s s' : HttpAnalyzer) : Prop where
  side : (flowOf s' flowKey).side dir =
    ((flowOf s flowKey).side dir).deliver (attempt lib dir) data
  other : ∀ other, other ≠ dir → (flowOf s' flowKey).side other = (flowOf s flowKey).side other
  counted : CountsFlow (s, flowOf s flowKey) (s', flowOf s' flowKey)
  load : load dir s' + ((flowOf s' flowKey).side dir).buf.length ≤
    load dir s + ((flowOf s flowKey).side dir).buf.length + data.length
  loadOther : ∀ other, other ≠ dir → Http.load other s' = Http.load other s
  skipped : s'.poisonedBytesSkipped ≤ s.poisonedBytesSkipped + data.length

theorem Side.length_append (side : Side) (data : List UInt8) :
    (side.append data).buf.length ≤ side.buf.length + data.length := by
  unfold Side.append
  simp only
  split
  · rw [List.length_append, List.length_take]
    omega
  · exact Nat.le_add_right _ _

theorem onData_delivers (lib : Httparse) (s : HttpAnalyzer) (flowKey : FlowKey) (dir : Direction)
    (data : List UInt8) (timestamp : UInt32) :
    ReturnsIf
      (load dir s + ((flowOf s flowKey).side dir).buf.length + data.length < 2 ^ 64 ∧
        s.poisonedBytesSkipped + data.length < 2 ^ 64)
      (onData lib s flowKey dir data timestamp) (Called lib flowKey dir data s) := by
  unfold onData
  rw [show (s.flows.get? flowKey).getD {} = flowOf s flowKey from rfl]
  simp only [side_lastTs]
  by_cases hpoisoned : ((flowOf s flowKey).side dir).poisoned = true
  · rw [if_pos hpoisoned]
    refine ((checkedAdd_returnsIf 64 _ _).imp fun h => h.2).bind fun skipped hskipped => .pure ?_
    have hflow : flowOf { s with
        flows := s.flows.insert flowKey { flowOf s flowKey with lastTs := timestamp }
        poisonedBytesSkipped := skipped } flowKey = { flowOf s flowKey with lastTs := timestamp } :=
      flowOf_insert (s := s) rfl
    refine ⟨?_, fun other _ => ?_, .inl ⟨?_, rfl⟩, ?_, fun _ _ => rfl, Nat.le_of_eq hskipped⟩
    · rw [hflow, side_lastTs, Side.deliver, if_pos hpoisoned]
    · rw [hflow, side_lastTs]
    · rw [hflow]
    · rw [hflow, side_lastTs]
      exact Nat.le_add_right _ _
  · rw [if_neg hpoisoned]
    generalize hflow₁ : ({ flowOf s flowKey with lastTs := timestamp } : HttpFlowState).setSide dir
      (((flowOf s flowKey).side dir).append data) = flow₁
    have hside : flow₁.side dir = ((flowOf s flowKey).side dir).append data := by
      rw [← hflow₁, side_setSide]
    have hother : ∀ other, other ≠ dir → flow₁.side other = (flowOf s flowKey).side other := by
      intro other hne
      rw [← hflow₁, side_setSide_of_ne _ _ _ hne, side_lastTs]
    have hlen := Side.length_append ((flowOf s flowKey).side dir) data
    have hworks := tryParseSide_works lib dir s flow₁
    rw [hside] at hworks
    refine (hworks.imp fun h => ?_).bind fun w hw => .pure ?_
    · omega
    · have hflow : flowOf { w.1 with flows := w.1.flows.insert flowKey w.2 } flowKey = w.2 :=
        flowOf_insert (s := w.1) rfl
      have hload := hw.load
      have hcounted := hw.counted
      have hloadEq : ∀ dir, load dir { w.1 with flows := w.1.flows.insert flowKey w.2 } =
          load dir w.1 := fun _ => rfl
      refine ⟨?_, fun other hne => ?_, ?_, ?_, fun other hne => ?_, ?_⟩
      · rw [hflow, hw.side, Side.deliver, if_neg hpoisoned]
      · rw [hflow, hw.other other hne]
        exact hother other hne
      · rw [hflow]
        unfold CountsFlow at hcounted ⊢
        rw [← hflow₁, (setSide_rest _ _ _).1] at hcounted
        exact hcounted
      · simp only [hside] at hload
        rw [hflow, hloadEq]
        omega
      · rw [hloadEq]
        exact hw.loadOther other hne
      · simp only [hw.skipped]
        exact Nat.le_add_right _ _

/-! ## What poisons a direction -/

/-- What the parser says first in a call, if it is asked at all. -/
def firstAttempt (attempt : List UInt8 → Attempt) (side : Side) (data : List UInt8) :
    Option Attempt :=
  if side.poisoned || (side.append data).buf.isEmpty then none
  else some (attempt (side.append data).buf)

def firstAttempts (attempt : List UInt8 → Attempt) (side : Side) :
    List (List UInt8) → List (Option Attempt)
  | [] => []
  | data :: rest =>
    firstAttempt attempt side data :: firstAttempts attempt (side.deliver attempt data) rest

def failing (first : Option Attempt) : Bool := first = some .fails

def succeeding : Option Attempt → Bool
  | some (.parsed _) => true
  | _ => false

/-- Three failing calls, with no success between or after them. -/
def PoisonedBy (firsts : List (Option Attempt)) : Prop :=
  ∃ earlier later, firsts = earlier ++ later ∧ (∀ first ∈ later, succeeding first = false) ∧
    3 ≤ later.countP failing

/-- The failing calls since the last success. -/
def streak (firsts : List (Option Attempt)) : Nat :=
  firsts.foldl (fun n first => if succeeding first then 0 else n + (failing first).toNat) 0

theorem streak_snoc (firsts : List (Option Attempt)) (first : Option Attempt) :
    streak (firsts ++ [first]) =
      if succeeding first then 0 else streak firsts + (failing first).toNat := by
  rw [streak, List.foldl_append]
  rfl

theorem le_streak_iff (firsts : List (Option Attempt)) (m : Nat) :
    m ≤ streak firsts ↔ ∃ earlier later, firsts = earlier ++ later ∧
      (∀ first ∈ later, succeeding first = false) ∧ m ≤ later.countP failing := by
  induction firsts using List.reverseRecOn generalizing m with
  | nil =>
    constructor
    · intro h
      exact ⟨[], [], rfl, nofun, h⟩
    · rintro ⟨earlier, later, hsplit, -, hle⟩
      obtain ⟨rfl, rfl⟩ := List.nil_eq_append_iff.mp hsplit
      exact hle
  | append_singleton firsts first ih =>
    rw [streak_snoc]
    constructor
    · intro h
      by_cases hsuccess : succeeding first = true
      · rw [if_pos hsuccess] at h
        exact ⟨firsts ++ [first], [], (List.append_nil _).symm, nofun, h⟩
      · rw [if_neg hsuccess] at h
        obtain ⟨earlier, later, hsplit, hquiet, hle⟩ :=
          (ih (m - (failing first).toNat)).mp (by omega)
        refine ⟨earlier, later ++ [first], by rw [hsplit, List.append_assoc], ?_, ?_⟩
        · intro a ha
          rcases List.mem_append.mp ha with ha | ha
          · exact hquiet a ha
          · rw [List.mem_singleton.mp ha]
            exact Bool.eq_false_of_not_eq_true hsuccess
        · rw [countP_snoc]
          omega
    · rintro ⟨earlier, later, hsplit, hquiet, hle⟩
      rcases List.eq_nil_or_concat later with rfl | ⟨later, last, rfl⟩
      · exact Nat.le_trans hle (Nat.zero_le _)
      · rw [List.concat_eq_append] at hsplit hquiet hle
        rw [← List.append_assoc] at hsplit
        obtain ⟨rfl, hlast⟩ := List.append_inj' hsplit rfl
        cases hlast
        have hfirst : succeeding first = false := hquiet first (by simp)
        rw [countP_snoc] at hle
        have hstreak := (ih (later.countP failing)).mpr
          ⟨earlier, later, rfl, fun a ha => hquiet a (List.mem_append_left _ ha), Nat.le_refl _⟩
        rw [hfirst, if_neg Bool.false_ne_true]
        omega

/-- The counter of a direction is its streak, and the third error poisons it. -/
structure Streaks (firsts : List (Option Attempt)) (side : Side) : Prop where
  count : side.errorCount = streak firsts
  poisoned : side.poisoned = decide (3 ≤ side.errorCount)
  le : side.errorCount ≤ 3

theorem Streaks.poisoned_iff {firsts : List (Option Attempt)} {side : Side}
    (h : Streaks firsts side) : side.poisoned = true ↔ PoisonedBy firsts := by
  rw [h.poisoned, decide_eq_true_iff, h.count, le_streak_iff]
  rfl

/-- A call in which the parser says nothing, or to wait. -/
theorem Streaks.quiet {firsts : List (Option Attempt)} {side : Side} (h : Streaks firsts side)
    {first : Option Attempt} (hfails : failing first = false) (hsucceeds : succeeding first = false)
    {side' : Side} (hcount : side'.errorCount = side.errorCount)
    (hpoisoned : side'.poisoned = side.poisoned) : Streaks (firsts ++ [first]) side' where
  count := by
    rw [streak_snoc, hsucceeds, hfails, hcount, h.count]
    rfl
  poisoned := by rw [hpoisoned, hcount, h.poisoned]
  le := hcount ▸ h.le

namespace Side

/-- After a success no error is counted. -/
theorem settle_success (attempt : List UInt8 → Attempt) (turns : Nat) (side : Side)
    (hcount : side.errorCount = 0) :
    (settle attempt turns true side).errorCount = 0 ∧
      (settle attempt turns true side).poisoned = side.poisoned := by
  induction turns generalizing side with
  | zero => exact ⟨hcount, rfl⟩
  | succ turns ih =>
    rw [settle]
    split
    · exact ⟨hcount, rfl⟩
    · split
      · exact ih _ rfl
      · exact ⟨hcount, rfl⟩
      · exact ⟨hcount, rfl⟩

theorem append_rest (side : Side) (data : List UInt8) :
    (side.append data).errorCount = side.errorCount ∧
      (side.append data).poisoned = side.poisoned := by
  unfold append
  simp only
  split
  · exact ⟨rfl, rfl⟩
  · exact ⟨rfl, rfl⟩

end Side

theorem Streaks.deliver {firsts : List (Option Attempt)} {side : Side} (h : Streaks firsts side)
    (attempt : List UInt8 → Attempt) (data : List UInt8) :
    Streaks (firsts ++ [firstAttempt attempt side data]) (side.deliver attempt data) := by
  obtain ⟨hcount, hpoisoned⟩ := side.append_rest data
  unfold Side.deliver firstAttempt
  by_cases hp : side.poisoned = true
  · rw [if_pos hp, hp, Bool.true_or, if_pos rfl]
    exact h.quiet rfl rfl rfl rfl
  · have hopen : side.poisoned = false := Bool.eq_false_of_not_eq_true hp
    rw [if_neg hp, hopen, Bool.false_or]
    generalize side.append data = side₁ at hcount hpoisoned ⊢
    have hle : side.errorCount ≤ 2 := by
      have hflag := h.poisoned
      have hbound := h.le
      rw [hopen] at hflag
      have hfew := of_decide_eq_false hflag.symm
      omega
    cases hlen : side₁.buf.length with
    | zero =>
      have hempty : side₁.buf.isEmpty = true :=
        List.isEmpty_iff.mpr (List.length_eq_zero_iff.mp hlen)
      rw [hempty, if_pos rfl]
      exact h.quiet rfl rfl hcount hpoisoned
    | succ turns =>
      have hempty : side₁.buf.isEmpty = false := by
        cases hbuf : side₁.buf with
        | nil =>
          rw [hbuf] at hlen
          cases hlen
        | cons b rest => rfl
      rw [Side.settle, hempty, if_neg Bool.false_ne_true, if_neg Bool.false_ne_true]
      cases attempt side₁.buf with
      | waits => exact h.quiet rfl rfl hcount hpoisoned
      | parsed n =>
        obtain ⟨hzero, hkept⟩ := Side.settle_success attempt turns
          { side₁ with buf := side₁.buf.drop n, errorCount := 0 } rfl
        refine ⟨?_, ?_, ?_⟩
        · rw [streak_snoc]
          exact hzero
        · rw [hkept, hzero]
          exact hpoisoned.trans hopen
        · rw [hzero]
          exact Nat.zero_le _
      | fails =>
        have hbump : bump8 side₁.errorCount = side.errorCount + 1 := by
          rw [hcount, bump8, saturatingInc]
          omega
        refine ⟨?_, ?_, ?_⟩
        · show bump8 side₁.errorCount = _
          rw [streak_snoc, hbump, h.count]
          rfl
        · show (side₁.poisoned || decide (bump8 side₁.errorCount ≥ poisonThreshold)) =
            decide (3 ≤ bump8 side₁.errorCount)
          rw [hpoisoned, hopen, Bool.false_or]
          rfl
        · show bump8 side₁.errorCount ≤ 3
          omega

/-! ## Runs -/

structure Call where
  direction : Direction
  data : List UInt8
  timestamp : UInt32

def onCall (lib : Httparse) (flowKey : FlowKey) (s : HttpAnalyzer) (c : Call) :
    Checked HttpAnalyzer := onData lib s flowKey c.direction c.data c.timestamp

def totalBytes (calls : List Call) : Nat := (calls.map fun c => c.data.length).sum

/-- What has been delivered in one direction. -/
def deliveries (dir : Direction) (calls : List Call) : List (List UInt8) :=
  (calls.filter fun c => c.direction = dir).map Call.data

theorem deliveries_cons (dir : Direction) (c : Call) (calls : List Call) :
    deliveries dir (c :: calls) =
      if c.direction = dir then c.data :: deliveries dir calls else deliveries dir calls := by
  unfold deliveries
  rw [List.filter_cons]
  by_cases hdir : c.direction = dir
  · simp [hdir]
  · simp [hdir]

section Runs

variable {lib : Httparse} {flowKey : FlowKey}

theorem onCall_called {s s' : HttpAnalyzer} {c : Call} (h : onCall lib flowKey s c = .ok s') :
    Called lib flowKey c.direction c.data s s' :=
  (onData_delivers lib s flowKey c.direction c.data c.timestamp).2 s' h

/-- A direction is what its own deliveries have made of it. -/
theorem run_side {s s' : HttpAnalyzer} {calls : List Call}
    (h : run (onCall lib flowKey) s calls = .ok s') (dir : Direction) :
    (flowOf s' flowKey).side dir = (deliveries dir calls).foldl
      (fun side data => side.deliver (attempt lib dir) data) ((flowOf s flowKey).side dir) := by
  induction calls generalizing s with
  | nil =>
    cases h
    rfl
  | cons c calls ih =>
    rw [run_cons] at h
    obtain ⟨s₁, hcall, hrest⟩ := bind_eq_ok.mp h
    have hcalled := onCall_called hcall
    rw [ih hrest, deliveries_cons]
    by_cases hdir : c.direction = dir
    · rw [if_pos hdir, List.foldl_cons]
      subst hdir
      rw [hcalled.side]
    · rw [if_neg hdir, hcalled.other dir (Ne.symm hdir)]

theorem run_countsFlow {s s' : HttpAnalyzer} {calls : List Call}
    (h : run (onCall lib flowKey) s calls = .ok s') :
    CountsFlow (s, flowOf s flowKey) (s', flowOf s' flowKey) := by
  induction calls generalizing s with
  | nil =>
    cases h
    exact .inl ⟨rfl, rfl⟩
  | cons c calls ih =>
    rw [run_cons] at h
    obtain ⟨s₁, hcall, hrest⟩ := bind_eq_ok.mp h
    exact (onCall_called hcall).counted.trans (ih hrest)

/-- As long as there are fewer than `2^64` bytes, no counter can overflow. -/
theorem run_comes_back {s : HttpAnalyzer} {n : Nat} (calls : List Call)
    (hload : ∀ dir, load dir s + ((flowOf s flowKey).side dir).buf.length ≤ n)
    (hskipped : s.poisonedBytesSkipped ≤ n) (hn : n + totalBytes calls < 2 ^ 64) :
    ∃ s', run (onCall lib flowKey) s calls = .ok s' := by
  induction calls generalizing s n with
  | nil => exact ⟨s, rfl⟩
  | cons c calls ih =>
    have htotal : totalBytes (c :: calls) = c.data.length + totalBytes calls := rfl
    have hdir := hload c.direction
    obtain ⟨s₁, hs₁, hcalled⟩ :=
      (onData_delivers lib s flowKey c.direction c.data c.timestamp).returns
        ⟨by omega, by omega⟩
    have hload₁ := hcalled.load
    have hskipped₁ := hcalled.skipped
    obtain ⟨s', hs'⟩ := ih (s := s₁) (n := n + c.data.length) (fun dir => by
      by_cases hsame : dir = c.direction
      · rw [hsame]
        omega
      · have hother := hload dir
        rw [hcalled.loadOther dir hsame, hcalled.other dir hsame]
        omega) (by omega) (by omega)
    refine ⟨s', ?_⟩
    rw [run_cons]
    exact bind_eq_ok.mpr ⟨s₁, hs₁, hs'⟩

theorem run_new_comes_back (calls : List Call) (hbytes : totalBytes calls < 2 ^ 64) :
    ∃ s, run (onCall lib flowKey) .new calls = .ok s := by
  refine run_comes_back calls (n := 0) (fun dir => ?_) (Nat.le_refl _) (by omega)
  cases dir with
  | clientToServer => exact Nat.le_refl _
  | serverToClient => exact Nat.le_refl _

end Runs

theorem deliver_fold_streaks (attempt : List UInt8 → Attempt) {past : List (Option Attempt)}
    {side : Side} (h : Streaks past side) (chunks : List (List UInt8)) :
    Streaks (past ++ firstAttempts attempt side chunks)
      (chunks.foldl (fun side data => side.deliver attempt data) side) := by
  induction chunks generalizing past side with
  | nil =>
    rw [firstAttempts, List.append_nil]
    exact h
  | cons data chunks ih =>
    have hnext := ih (h.deliver attempt data)
    rw [List.append_assoc] at hnext
    exact hnext

/-- What holds of a direction after any deliveries. -/
theorem deliver_fold_keeps {attempt : List UInt8 → Attempt} {I : Side → Prop}
    (hstep : ∀ side data, I side → I (side.deliver attempt data)) {side : Side} (h : I side)
    (chunks : List (List UInt8)) :
    I (chunks.foldl (fun side data => side.deliver attempt data) side) := by
  induction chunks generalizing side with
  | nil => exact h
  | cons data chunks ih => exact ih (hstep side data h)

/-- The buffer is within its bound, and the parser waits for more of it unless it is empty. -/
structure Waiting (lib : Httparse) (dir : Direction) (side : Side) : Prop where
  length_le : side.buf.length ≤ maxHeaderBuf
  rest : side.buf = [] ∨ attempt lib dir side.buf = .waits

theorem Waiting.deliver {lib : Httparse} {dir : Direction} {side : Side}
    (h : Waiting lib dir side) (data : List UInt8) :
    Waiting lib dir (side.deliver (attempt lib dir) data) := by
  unfold Side.deliver
  split
  · exact h
  · exact ⟨Nat.le_trans (Side.length_settle_le _ _ _) (Side.length_append_le h.length_le data),
      Side.settle_rest attempt_bounds _ _ _ (Nat.le_refl _)⟩

theorem run_waiting {lib : Httparse} {flowKey : FlowKey} {s s' : HttpAnalyzer}
    {calls : List Call} (hnew : s.flows.get? flowKey = none)
    (h : run (onCall lib flowKey) s calls = .ok s') (dir : Direction) :
    Waiting lib dir ((flowOf s' flowKey).side dir) := by
  rw [run_side h dir, flowOf, hnew]
  refine deliver_fold_keeps (fun side data hside => hside.deliver data) ?_ _
  cases dir with
  | clientToServer => exact ⟨Nat.zero_le _, .inl rfl⟩
  | serverToClient => exact ⟨Nat.zero_le _, .inl rfl⟩

/-! ## Poison -/

theorem Side.deliver_fold_of_poisoned (attempt : List UInt8 → Attempt) {side : Side}
    (h : side.poisoned = true) (chunks : List (List UInt8)) :
    chunks.foldl (fun side data => side.deliver attempt data) side = side := by
  induction chunks with
  | nil => rfl
  | cons data chunks ih =>
    rw [List.foldl_cons, Side.deliver, if_pos h]
    exact ih

/-- The bytes of a poisoned direction are counted, and that is all. -/
theorem onData_poisoned {lib : Httparse} {s s' : HttpAnalyzer} {flowKey : FlowKey}
    {dir : Direction} {data : List UInt8} {timestamp : UInt32}
    (hp : ((flowOf s flowKey).side dir).poisoned = true)
    (h : onData lib s flowKey dir data timestamp = .ok s') :
    s' = { s with
      flows := s.flows.insert flowKey { flowOf s flowKey with lastTs := timestamp }
      poisonedBytesSkipped := s.poisonedBytesSkipped + data.length } := by
  unfold onData at h
  rw [show (s.flows.get? flowKey).getD {} = flowOf s flowKey from rfl] at h
  simp only [side_lastTs] at h
  rw [if_pos hp] at h
  obtain ⟨skipped, hskipped, hs'⟩ := bind_eq_ok.mp h
  cases hs'
  rw [(checkedAdd_returnsIf 64 _ _).2 skipped hskipped]

/-- Every run of fewer than `2^64` bytes comes back. Whatever the parsers say, each direction is a
function of its own deliveries; it is poisoned by three failing calls without a success between or
after them and by nothing else, for good; its buffer stays within bounds; and the flow is counted
at most once as one that is not HTTP. -/
theorem run_isolates (lib : Httparse) (flowKey : FlowKey) :
    (∀ calls, totalBytes calls < 2 ^ 64 → ∃ s, run (onCall lib flowKey) .new calls = .ok s) ∧
    ∀ s₀ calls s, s₀.flows.get? flowKey = none → run (onCall lib flowKey) s₀ calls = .ok s →
      (∀ dir, (flowOf s flowKey).side dir =
          (deliveries dir calls).foldl (fun side data => side.deliver (attempt lib dir) data) {} ∧
        ((flowOf s flowKey).side dir).buf.length ≤ maxHeaderBuf ∧
        (((flowOf s flowKey).side dir).poisoned = true ↔
          PoisonedBy (firstAttempts (attempt lib dir) {} (deliveries dir calls))) ∧
        (((flowOf s flowKey).side dir).poisoned = true →
          (∀ later s', run (onCall lib flowKey) s later = .ok s' →
            (flowOf s' flowKey).side dir = (flowOf s flowKey).side dir) ∧
          ∀ data timestamp s', onData lib s flowKey dir data timestamp = .ok s' →
            s' = { s with
              flows := s.flows.insert flowKey { flowOf s flowKey with lastTs := timestamp }
              poisonedBytesSkipped := s.poisonedBytesSkipped + data.length })) ∧
      s.nonHttpFlows ≤ s₀.nonHttpFlows + 1 := by
  refine ⟨run_new_comes_back, fun s₀ calls s hnew hrun => ⟨fun dir => ?_, ?_⟩⟩
  · have hfresh : (flowOf s₀ flowKey).side dir = {} := by
      rw [flowOf, hnew]
      cases dir with
      | clientToServer => rfl
      | serverToClient => rfl
    have hside := run_side hrun dir
    rw [hfresh] at hside
    refine ⟨hside, (run_waiting hnew hrun dir).length_le, ?_, fun hp => ⟨?_, ?_⟩⟩
    · have hstart : Streaks [] {} := ⟨rfl, rfl, by decide⟩
      rw [hside]
      exact (deliver_fold_streaks (attempt lib dir) hstart (deliveries dir calls)).poisoned_iff
    · intro later s' hlater
      rw [run_side hlater dir, Side.deliver_fold_of_poisoned _ hp]
    · intro data timestamp s' hdata
      exact onData_poisoned hp hdata
  · rcases run_countsFlow hrun with ⟨-, hcount⟩ | ⟨-, -, hcount⟩
    · exact hcount ▸ Nat.le_succ _
    · simp only at hcount
      rw [hcount, bump64, saturatingInc]
      omega

/-! ## Full buffers -/

theorem tryParse_waits {lib : Httparse} {α : Type} {r : Reader α} (hr : Reads lib r) (turns : Nat)
    (hadSuccess : Bool) (s : HttpAnalyzer) (flow : HttpFlowState)
    (hwaits : attempt lib r.direction (flow.side r.direction).buf = .waits) :
    tryParse r turns hadSuccess s flow = .ok (s, flow) := by
  cases turns with
  | zero => rfl
  | succ turns =>
    rw [tryParse]
    simp only
    split
    · rfl
    · rw [← hr.parse] at hwaits
      cases hparse : r.parse (flow.side r.direction).buf with
      | error e =>
        rw [hparse] at hwaits
        cases hwaits
      | ok status =>
        cases status with
        | none => rfl
        | some message =>
          rw [hparse] at hwaits
          cases hwaits

/-- A delivery after which the parser still waits. -/
theorem onData_waits {lib : Httparse} {s : HttpAnalyzer} {flowKey : FlowKey} {dir : Direction}
    {data : List UInt8} (hopen : ((flowOf s flowKey).side dir).poisoned = false)
    (hwaits : attempt lib dir (((flowOf s flowKey).side dir).append data).buf = .waits)
    (timestamp : UInt32) :
    onData lib s flowKey dir data timestamp = .ok { s with
      flows := s.flows.insert flowKey (({ flowOf s flowKey with lastTs := timestamp }
        : HttpFlowState).setSide dir (((flowOf s flowKey).side dir).append data)) } := by
  unfold onData
  rw [show (s.flows.get? flowKey).getD {} = flowOf s flowKey from rfl]
  simp only [side_lastTs]
  rw [if_neg (by rw [hopen]; exact Bool.false_ne_true)]
  generalize hflow : ({ flowOf s flowKey with lastTs := timestamp } : HttpFlowState).setSide dir
    (((flowOf s flowKey).side dir).append data) = flow
  have hside : flow.side dir = ((flowOf s flowKey).side dir).append data := by
    rw [← hflow, side_setSide]
  rw [← hside] at hwaits
  have hparse : tryParseSide lib dir s flow = .ok (s, flow) := by
    cases dir with
    | clientToServer => exact tryParse_waits (requestReader_reads lib) _ _ _ _ hwaits
    | serverToClient => exact tryParse_waits (responseReader_reads lib) _ _ _ _ hwaits
  rw [hparse, ok_bind]

theorem onData_full {lib : Httparse} {s : HttpAnalyzer} {flowKey : FlowKey} {dir : Direction}
    (hopen : ((flowOf s flowKey).side dir).poisoned = false)
    (hfull : ((flowOf s flowKey).side dir).buf.length = maxHeaderBuf)
    (hwaits : attempt lib dir ((flowOf s flowKey).side dir).buf = .waits) (data : List UInt8)
    (timestamp : UInt32) :
    onData lib s flowKey dir data timestamp = .ok { s with
      flows := s.flows.insert flowKey { flowOf s flowKey with lastTs := timestamp } } := by
  rw [onData_waits hopen (by rw [Side.append_of_full hfull]; exact hwaits),
    Side.append_of_full hfull, ← side_lastTs (flowOf s flowKey) dir timestamp, setSide_side]

/-- Nothing tells of what is dropped. -/
theorem onData_full_silent {lib : Httparse} {s : HttpAnalyzer} {flowKey : FlowKey}
    {dir : Direction} (hopen : ((flowOf s flowKey).side dir).poisoned = false)
    (hfull : ((flowOf s flowKey).side dir).buf.length = maxHeaderBuf)
    (hwaits : attempt lib dir ((flowOf s flowKey).side dir).buf = .waits) (data : List UInt8)
    (timestamp : UInt32) :
    ∃ s', onData lib s flowKey dir data timestamp = .ok s' ∧
      flowOf s' flowKey = { flowOf s flowKey with lastTs := timestamp } ∧
      s'.parseErrors = s.parseErrors ∧ s'.methods = s.methods ∧ s'.uris = s.uris ∧
      s'.poisonedBytesSkipped = s.poisonedBytesSkipped :=
  ⟨_, onData_full hopen hfull hwaits data timestamp, flowOf_insert (s := s) rfl, rfl, rfl, rfl, rfl⟩

theorem Side.deliver_fold_of_full {attempt : List UInt8 → Attempt} {side : Side}
    (hfull : side.buf.length = maxHeaderBuf) (hwaits : attempt side.buf = .waits)
    (chunks : List (List UInt8)) :
    chunks.foldl (fun side data => side.deliver attempt data) side = side := by
  induction chunks with
  | nil => rfl
  | cons data chunks ih =>
    have hdeliver : side.deliver attempt data = side := by
      unfold Side.deliver
      split
      · rfl
      · rw [Side.append_of_full hfull, hfull, maxHeaderBuf, Side.settle, hwaits]
        split
        · rfl
        · rfl
    rw [List.foldl_cons, hdeliver]
    exact ih

/-- A direction that is not poisoned either has room, and then the next bytes are put to the parser
as far as it goes, or it holds as much as it may and the parser waits for more. Then all further
deliveries in this direction are dropped, and nothing tells of them. -/
theorem run_open_or_full (lib : Httparse) (flowKey : FlowKey) :
    (∀ calls, totalBytes calls < 2 ^ 64 → ∃ s, run (onCall lib flowKey) .new calls = .ok s) ∧
    ∀ s₀ calls s, s₀.flows.get? flowKey = none → run (onCall lib flowKey) s₀ calls = .ok s →
      ∀ dir, ((flowOf s flowKey).side dir).poisoned = false →
      let side := (flowOf s flowKey).side dir
      (side.buf.length < maxHeaderBuf ∧ ∀ data,
        (side.append data).buf = side.buf ++ data.take (maxHeaderBuf - side.buf.length) ∧
        (data ≠ [] → firstAttempt (attempt lib dir) side data =
          some (attempt lib dir (side.append data).buf))) ∨
      (side.buf.length = maxHeaderBuf ∧ attempt lib dir side.buf = .waits ∧
        (∀ data timestamp, onData lib s flowKey dir data timestamp = .ok { s with
          flows := s.flows.insert flowKey { flowOf s flowKey with lastTs := timestamp } }) ∧
        ∀ later s', run (onCall lib flowKey) s later = .ok s' →
          (flowOf s' flowKey).side dir = side) := by
  refine ⟨run_new_comes_back, fun s₀ calls s hnew hrun dir hopen => ?_⟩
  have hwaiting := run_waiting hnew hrun dir
  rcases Nat.lt_or_eq_of_le hwaiting.length_le with hroom | hfull
  · refine .inl ⟨hroom, fun data => ⟨Side.append_of_room hroom data, fun hdata => ?_⟩⟩
    have hsome : ((((flowOf s flowKey).side dir).append data).buf).isEmpty = false := by
      have hpos := List.length_pos_iff.mpr hdata
      rw [← Bool.not_eq_true, List.isEmpty_iff, ← List.length_eq_zero_iff,
        Side.append_of_room hroom, List.length_append, List.length_take]
      omega
    rw [firstAttempt, hopen, hsome]
    rfl
  · have hwaits : attempt lib dir ((flowOf s flowKey).side dir).buf = .waits := by
      rcases hwaiting.rest with hempty | hwaits
      · rw [hempty] at hfull
        cases hfull
      · exact hwaits
    refine .inr ⟨hfull, hwaits, onData_full hopen hfull hwaits, fun later s' hlater => ?_⟩
    rw [run_side hlater dir, Side.deliver_fold_of_full hfull hwaits]

/-! ## A long head -/

/-- A request is complete as soon as there is a carriage return; nothing is a response. -/
def headParser : Httparse where
  request := fun buf =>
    if 0x0d ∈ buf then .ok (some (buf.length, ⟨some "GET", some "/", some 1, []⟩)) else .ok none
  response := fun _ => .error .version
  request_bounds := fun {buf n raw} h => by
    split at h
    · rename_i hmem
      cases h
      exact ⟨List.length_pos_of_mem hmem, Nat.le_refl _⟩
    · cases h
  response_bounds := fun h => by cases h

def webKey : FlowKey := .new (.v4 1) 1024 (.v4 2) 80

/-- `GET /AAAA…`, without an end. -/
def longHead : List UInt8 := [0x47, 0x45, 0x54, 0x20, 0x2f] ++ List.replicate 65531 0x41

/-- `GET / HTTP/1.1` and an empty line. -/
def shortRequest : List UInt8 :=
  [0x47, 0x45, 0x54, 0x20, 0x2f, 0x20, 0x48, 0x54, 0x54, 0x50, 0x2f, 0x31, 0x2e, 0x31, 0x0d, 0x0a,
    0x0d, 0x0a]

theorem longHead_length : longHead.length = maxHeaderBuf := by
  rw [longHead, List.length_append, List.length_replicate]
  rfl

theorem headParser_waits {buf : List UInt8} (h : 0x0d ∉ buf) :
    attempt headParser .clientToServer buf = .waits := by
  show attemptOf (if 0x0d ∈ buf then _ else _) = _
  rw [if_neg h]
  rfl

theorem longHead_waits : attempt headParser .clientToServer longHead = .waits := by
  refine headParser_waits ?_
  rw [longHead, List.mem_append, List.mem_replicate]
  decide

def afterLongHead : HttpAnalyzer :=
  { HttpAnalyzer.new with
    flows := SortedMap.empty.insert webKey { request := { buf := longHead } } }

theorem onData_longHead :
    onData headParser .new webKey .clientToServer longHead 0 = .ok afterLongHead := by
  have happend : (((flowOf .new webKey).side .clientToServer).append longHead) =
      { buf := longHead } := by
    show Side.append {} longHead = _
    rw [Side.append]
    simp only [List.length_nil, Nat.sub_zero]
    rw [if_pos (by decide), longHead_length, Nat.min_self, ← longHead_length, List.take_length,
      List.nil_append]
  rw [onData_waits rfl (by rw [happend]; exact longHead_waits), happend]
  rfl

theorem run_longHead :
    run (onCall headParser webKey) .new [⟨.clientToServer, longHead, 0⟩] = .ok afterLongHead := by
  rw [run_cons]
  exact bind_eq_ok.mpr ⟨_, onData_longHead, rfl⟩

theorem flowOf_afterLongHead : flowOf afterLongHead webKey = { request := { buf := longHead } } :=
  flowOf_insert (s := .new) rfl

/-- A head that fills the buffer: the direction is not poisoned, no error is counted, and the
request that comes next is not seen. -/
theorem full_after_longHead :
    run (onCall headParser webKey) .new [⟨.clientToServer, longHead, 0⟩] = .ok afterLongHead ∧
    (flowOf afterLongHead webKey).request.poisoned = false ∧
    ¬(flowOf afterLongHead webKey).request.buf.length < maxHeaderBuf ∧
    ∃ s', onData headParser afterLongHead webKey .clientToServer shortRequest 1 = .ok s' ∧
      (flowOf s' webKey).request = (flowOf afterLongHead webKey).request ∧
      s'.parseErrors = 0 ∧ s'.methods = .empty ∧ s'.uris = [] ∧ s'.poisonedBytesSkipped = 0 := by
  have hside : (flowOf afterLongHead webKey).side .clientToServer = { buf := longHead } := by
    rw [flowOf_afterLongHead]
    rfl
  refine ⟨run_longHead, by rw [flowOf_afterLongHead], ?_, ?_⟩
  · rw [flowOf_afterLongHead, longHead_length]
    exact Nat.lt_irrefl _
  · have hopen : ((flowOf afterLongHead webKey).side .clientToServer).poisoned = false := by
      rw [hside]
    have hfull :
        ((flowOf afterLongHead webKey).side .clientToServer).buf.length = maxHeaderBuf := by
      rw [hside]
      exact longHead_length
    have hwaits : attempt headParser .clientToServer
        ((flowOf afterLongHead webKey).side .clientToServer).buf = .waits := by
      rw [hside]
      exact longHead_waits
    obtain ⟨s', hs', hflow, herrors, hmethods, huris, hskipped⟩ :=
      onData_full_silent hopen hfull hwaits shortRequest 1
    exact ⟨s', hs', by rw [hflow], herrors, hmethods, huris, hskipped⟩

theorem run_open_or_full_longHead :
    ((flowOf afterLongHead webKey).side .clientToServer).poisoned = false ∧
    ∀ data timestamp, onData headParser afterLongHead webKey .clientToServer data timestamp =
      .ok { afterLongHead with
        flows := afterLongHead.flows.insert webKey ({ flowOf afterLongHead webKey with
          lastTs := timestamp }) } := by
  have hside : (flowOf afterLongHead webKey).side .clientToServer = { buf := longHead } := by
    rw [flowOf_afterLongHead]
    rfl
  have hopen : ((flowOf afterLongHead webKey).side .clientToServer).poisoned = false := by
    rw [hside]
  refine ⟨hopen, ?_⟩
  rcases (run_open_or_full headParser webKey).2 .new [⟨.clientToServer, longHead, 0⟩] afterLongHead
    rfl run_longHead .clientToServer hopen with ⟨hroom, -⟩ | ⟨-, -, hdropped, -⟩
  · rw [hside, longHead_length] at hroom
    exact absurd hroom (Nat.lt_irrefl _)
  · exact hdropped

def noise (timestamp : UInt32) : Call := ⟨.serverToClient, [0x58], timestamp⟩

theorem run_isolates_noise :
    totalBytes [noise 0, noise 1, noise 2] < 2 ^ 64 ∧ HttpAnalyzer.new.flows.get? webKey = none ∧
    ∃ s, run (onCall headParser webKey) .new [noise 0, noise 1, noise 2] = .ok s ∧
      (flowOf s webKey).response.poisoned = true := by
  obtain ⟨hreturns, hall⟩ := run_isolates headParser webKey
  obtain ⟨s, hs⟩ := hreturns [noise 0, noise 1, noise 2] (by decide)
  obtain ⟨hsides, -⟩ := hall .new _ s rfl hs
  refine ⟨by decide, rfl, s, hs, (hsides .serverToClient).2.2.1.mpr ?_⟩
  exact ⟨[], _, rfl, by decide, by decide⟩

end Wirerust.Http
