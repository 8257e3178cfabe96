import Wirerust.Analyzer.Dnp3Carry

/-!
A stream of well-formed DNP3 frames, cut into chunks.

A chunk is added to the carry before the frames are taken off it, and the carry holds at most 292
bytes. `run_frames` says that this is all that can go wrong: if every chunk fits behind the
beginning of a frame that was left before it, every frame is counted and nothing else is, however
the stream has been cut; and if one does not, there is a parse error. `oversized_chunk` has two
frames that come in one chunk.
-/

namespace Wirerust.Dnp3

open Lib Wirerust.Flow Wirerust.Analyzer

/-! ## Well-formed frames -/

/-- The sync word, a length of at least five and exactly the bytes that it stands for. -/
def WellFormed (frame : List UInt8) : Prop :=
  isSync frame = true ∧ computeDnp3FrameLen (frame.getD 2 0) = some frame.length

instance (frame : List UInt8) : Decidable (WellFormed frame) :=
  inferInstanceAs (Decidable (_ ∧ _))

/-- The application function code of a first fragment with user data. -/
def frameFc (frame : List UInt8) : Option UInt8 :=
  if frame.length ≥ 13 && hasUserData (frame.getD 3 0) && transportIsFir (frame.getD 10 0) then
    some (frame.getD 12 0)
  else none

theorem parse_of_long {frame : List UInt8} (h : 10 ≤ frame.length) :
    ∃ header, parseDnp3DlHeader frame = some header ∧ header.start1 = frame.getD 0 0 ∧
      header.start2 = frame.getD 1 0 ∧ header.length = frame.getD 2 0 ∧
      header.control = frame.getD 3 0 := by
  match frame, h with
  | b0 :: b1 :: b2 :: b3 :: b4 :: b5 :: b6 :: b7 :: b8 :: b9 :: rest, _ =>
    exact ⟨_, rfl, rfl, rfl, rfl, rfl⟩

theorem isSync_getD {xs : List UInt8} (h : isSync xs = true) :
    xs.getD 0 0 = 0x05 ∧ xs.getD 1 0 = 0x64 := by
  unfold isSync at h
  split at h
  · exact ⟨rfl, rfl⟩
  · cases h

namespace WellFormed

variable {frame : List UInt8}

theorem length_bounds (h : WellFormed frame) :
    10 ≤ frame.length ∧ frame.length ≤ maxDnp3FrameLen := (frameLen_bounds h.2).2

theorem header (h : WellFormed frame) : ∃ header, parseDnp3DlHeader frame = some header ∧
    isValidDnp3FrameHeader header = true ∧ appFcOf frame header = frameFc frame := by
  obtain ⟨header, hparse, hs1, hs2, hlen, hcontrol⟩ := parse_of_long h.length_bounds.1
  obtain ⟨hb0, hb1⟩ := isSync_getD h.1
  refine ⟨header, hparse, ?_, ?_⟩
  · have hfive := (frameLen_bounds h.2).1
    simp only [isValidDnp3FrameHeader, hs1, hs2, hlen, hb0, hb1, beq_self_eq_true, Bool.true_and,
      decide_eq_true_eq]
    exact hfive
  · simp only [appFcOf, applicationOf, frameFc, hcontrol]
    split <;> rfl

end WellFormed

/-- A beginning of at least two bytes has the same sync word. -/
theorem isSync_of_isPrefix {xs ys : List UInt8} (h : xs <+: ys) (hlen : 2 ≤ xs.length) :
    isSync xs = isSync ys := by
  obtain ⟨rest, rfl⟩ := h
  match xs, hlen with
  | a :: b :: xs, _ => rw [List.cons_append, List.cons_append, isSync_cons_cons, isSync_cons_cons]

theorem getD_of_isPrefix {xs ys : List UInt8} (h : xs <+: ys) {i : Nat} (hi : i < xs.length) :
    xs.getD i 0 = ys.getD i 0 := by
  obtain ⟨rest, rfl⟩ := h
  rw [List.getD_eq_getElem?_getD, List.getD_eq_getElem?_getD, List.getElem?_append_left hi]

/-- Nothing, or the beginning of a well-formed frame. -/
def Waits (bytes : List UInt8) : Prop :=
  bytes = [] ∨ ∃ frame, WellFormed frame ∧ bytes <+: frame ∧ bytes.length < frame.length

/-! ## The loop on well-formed frames -/

section Loop

variable {ord : PendingOrder} {c : Delivery}

theorem settleShort_of_waits {did : Bool} {s : Dnp3Analyzer} {flow : Dnp3FlowState}
    {frame : List UInt8} (h : WellFormed frame) (hpre : flow.carry c.direction <+: frame) :
    settleShort c did s flow = (s, flow) := by
  unfold settleShort
  simp only
  by_cases htwo : (flow.carry c.direction).length ≥ 2
  · have hsync : isSync (flow.carry c.direction) = true := (isSync_of_isPrefix hpre htwo).trans h.1
    rw [if_pos htwo, if_neg (by simp [hsync]), if_neg]
    simp only [Bool.and_eq_true, decide_eq_true_eq, not_and]
    intro hdid hnone
    rw [getD_of_isPrefix hpre (Nat.lt_of_lt_of_le (by decide : 2 < 3) hdid.2), h.2] at hnone
    cases hnone
  · rw [if_neg htwo]

theorem turn_of_waits {did : Bool} {s : Dnp3Analyzer} {flow : Dnp3FlowState}
    (h : Waits (flow.carry c.direction)) : turn ord c did s flow = .ok (false, s, flow) := by
  unfold turn
  simp only
  rcases h with hnil | ⟨frame, hframe, hpre, hlen⟩
  · have hshort : (flow.carry c.direction).length < 10 := by rw [hnil]; decide
    rw [if_pos hshort, settleShort, if_neg (by rw [hnil]; decide)]
  · by_cases hshort : (flow.carry c.direction).length < 10
    · rw [if_pos hshort, settleShort_of_waits hframe hpre]
    · have hsync : isSync (flow.carry c.direction) = true :=
        (isSync_of_isPrefix hpre (by omega)).trans hframe.1
      rw [if_neg hshort, if_neg (by simp [hsync]), getD_of_isPrefix hpre (by omega), hframe.2]
      simp only
      rw [if_pos hlen]

theorem turn_of_frame {did : Bool} {s : Dnp3Analyzer} {flow : Dnp3FlowState}
    {frame rest : List UInt8} {header : Dnp3DlHeader} (h : WellFormed frame)
    (hcarry : flow.carry c.direction = frame ++ rest)
    (hparse : parseDnp3DlHeader frame = some header)
    (hvalid : isValidDnp3FrameHeader header = true) :
    turn ord c did s flow = processFrame ord c header frame s flow >>= fun w =>
      .ok (true, w.1, w.2.setCarry c.direction rest) := by
  have hbounds := h.length_bounds
  have hpre : frame <+: frame ++ rest := List.prefix_append frame rest
  have hlen : (frame ++ rest).length = frame.length + rest.length := List.length_append
  unfold turn
  simp only [hcarry]
  rw [if_neg (by omega), if_neg (by rw [← isSync_of_isPrefix hpre (by omega), h.1]; decide),
    ← getD_of_isPrefix hpre (by omega), h.2]
  simp only
  rw [if_neg (by omega), List.take_left, hparse, List.drop_left]
  simp only [Option.filter, hvalid, if_true]

end Loop

/-! ## What has been counted -/

/-- The frames `done` have been counted, and nothing else. -/
structure Done (done : List (List UInt8)) (s : Dnp3Analyzer) (flow : Dnp3FlowState) : Prop where
  isNonDnp3 : flow.isNonDnp3 = false
  frameCount : flow.frameCount = done.length
  parseErrors : flow.parseErrors = 0
  fnCodeCounts : ∀ fc, (s.fnCodeCounts.get? fc).getD 0 = (done.filterMap frameFc).count fc
  fcCountsLe : CountsLe done.length flow.fcCounts
  events : events flow ≤ done.length

theorem Done.fnCodeCountsLe {done : List (List UInt8)} {s : Dnp3Analyzer} {flow : Dnp3FlowState}
    (h : Done done s flow) : CountsLe done.length s.fnCodeCounts := by
  intro fc
  rw [h.fnCodeCounts fc]
  exact Nat.le_trans List.count_le_length (List.length_filterMap_le _ _)

theorem Done.setCarry {done : List (List UInt8)} {s : Dnp3Analyzer} {flow : Dnp3FlowState}
    (h : Done done s flow) (dir : Direction) (bytes : List UInt8) :
    Done done s (flow.setCarry dir bytes) := by
  cases dir with
  | clientToServer =>
    exact ⟨h.isNonDnp3, h.frameCount, h.parseErrors, h.fnCodeCounts, h.fcCountsLe, h.events⟩
  | serverToClient =>
    exact ⟨h.isNonDnp3, h.frameCount, h.parseErrors, h.fnCodeCounts, h.fcCountsLe, h.events⟩

/-- The counts of a tally, one by one. -/
theorem Tallied.count {appFc : Option UInt8} {counts counts' : SortedMap UInt8 Nat}
    {fcs : List UInt8} (h : Tallied appFc counts counts')
    (hcounts : ∀ fc, (counts.get? fc).getD 0 = fcs.count fc) (fc : UInt8) :
    (counts'.get? fc).getD 0 = (fcs ++ appFc.toList).count fc := by
  cases appFc with
  | none =>
    rw [show counts' = counts from h, hcounts fc, Option.toList_none, List.append_nil]
  | some code =>
    obtain ⟨n, hn⟩ := h
    obtain ⟨hcount, hinsert⟩ := countEntry_eq_ok hn
    simp only at hcount hinsert
    rw [hinsert, Option.toList_some, List.count_append]
    by_cases hfc : fc = code
    · rw [hfc, SortedMap.get?_insert_self, Option.getD_some, hcount, hcounts code,
        List.count_singleton_self]
    · have hzero : [code].count fc = 0 :=
        List.count_eq_zero_of_not_mem fun hmem => hfc (List.mem_singleton.mp hmem)
      rw [SortedMap.get?_insert_of_ne _ _ hfc, hcounts fc, hzero, Nat.add_zero]

theorem Done.frame {done : List (List UInt8)} {s : Dnp3Analyzer} {flow : Dnp3FlowState}
    {frame : List UInt8} {header : Dnp3DlHeader} (h : Done done s flow)
    (hlt : done.length + 1 < 2 ^ 64) (ord : PendingOrder) (c : Delivery)
    (hfc : appFcOf frame header = frameFc frame) :
    ∃ s' flow', processFrame ord c header frame s flow = .ok (s', flow') ∧
      Done (done ++ [frame]) s' flow' := by
  have hevents := h.events
  obtain ⟨⟨s', flow'⟩, hok⟩ := processFrame_returns h.fcCountsLe h.fnCodeCountsLe hlt
    (by omega) ord c header frame
  have hstep := processFrame_step hok
  rw [hfc] at hstep
  refine ⟨s', flow', hok, hstep.aside.isNonDnp3.trans h.isNonDnp3, ?_,
    hstep.aside.parseErrors.trans h.parseErrors, fun fc => ?_, ?_, ?_⟩
  · rw [hstep.frameCount, h.frameCount, List.length_append, List.length_singleton]
    simp only [bump64, saturatingInc]
    omega
  · rw [hstep.fnCodeCounts.count h.fnCodeCounts fc, List.filterMap_append]
    cases hcode : frameFc frame with
    | none => simp [hcode]
    | some code => simp [hcode]
  · rw [List.length_append, List.length_singleton]
    exact hstep.fcCounts.countsLe h.fcCountsLe
  · have hmore := hstep.events
    rw [List.length_append, List.length_singleton]
    omega

theorem walk_frames (ord : PendingOrder) (c : Delivery) (frames : List (List UInt8))
    {rest : List UInt8} {done : List (List UInt8)} {turns : Nat} {did : Bool} {s : Dnp3Analyzer}
    {flow : Dnp3FlowState} (hframes : ∀ frame ∈ frames, WellFormed frame) (hrest : Waits rest)
    (hturns : (flow.carry c.direction).length < turns) (hdone : Done done s flow)
    (hcarry : flow.carry c.direction = frames.flatten ++ rest)
    (hlt : done.length + frames.length < 2 ^ 64) :
    ∃ w, walk ord c turns did s flow = .ok w ∧ Done (done ++ frames) w.1 w.2 ∧
      w.2.carry c.direction = rest := by
  induction frames generalizing done turns did s flow with
  | nil =>
    rw [List.flatten_nil, List.nil_append] at hcarry
    obtain ⟨turns, rfl⟩ : ∃ n, turns = n + 1 := ⟨turns - 1, by omega⟩
    refine ⟨(s, flow), ?_, by rw [List.append_nil]; exact hdone, hcarry⟩
    rw [walk, turn_of_waits (by rw [hcarry]; exact hrest), ok_bind]
    rfl
  | cons frame frames ih =>
    obtain ⟨turns, rfl⟩ : ∃ n, turns = n + 1 := ⟨turns - 1, by omega⟩
    have hwf := hframes frame List.mem_cons_self
    obtain ⟨header, hparse, hvalid, hfc⟩ := hwf.header
    rw [List.flatten_cons, List.append_assoc] at hcarry
    rw [List.length_cons] at hlt
    obtain ⟨s', flow', hframe, hdone'⟩ := hdone.frame (by omega) ord c hfc
    have hbounds := hwf.length_bounds
    have hset := carry_setCarry flow' c.direction (frames.flatten ++ rest)
    have hturns' : ((flow'.setCarry c.direction (frames.flatten ++ rest)).carry
        c.direction).length < turns := by
      rw [hset]
      rw [hcarry, List.length_append] at hturns
      omega
    have hnext : ∃ w, walk ord c turns true s'
        (flow'.setCarry c.direction (frames.flatten ++ rest)) = .ok w ∧
        Done (done ++ [frame] ++ frames) w.1 w.2 ∧ w.2.carry c.direction = rest := by
      refine ih (fun f hf => hframes f (List.mem_cons_of_mem _ hf)) hturns'
        (hdone'.setCarry c.direction _) hset ?_
      rw [List.length_append, List.length_singleton]
      omega
    obtain ⟨w, hw, hdone'', hcarry'⟩ := hnext
    refine ⟨w, ?_, ?_, hcarry'⟩
    · rw [walk, turn_of_frame hwf hcarry hparse hvalid, hframe]
      exact hw
    · rw [List.append_assoc, List.singleton_append] at hdone''
      exact hdone''

/-! ## One chunk -/

/-- What is left of a stream: its next frames, the first of which may have begun with `rest`. -/
def Tail (rest : List UInt8) : List (List UInt8) → Prop
  | [] => rest = []
  | frame :: _ => rest <+: frame ∧ rest.length < frame.length

theorem Tail.waits {rest : List UInt8} {todo : List (List UInt8)} (h : Tail rest todo)
    (htodo : ∀ frame ∈ todo, WellFormed frame) : Waits rest := by
  cases todo with
  | nil => exact .inl h
  | cons frame todo => exact .inr ⟨frame, htodo frame List.mem_cons_self, h.1, h.2⟩

/-- Any part of a stream from its beginning is made of whole frames and a beginning of the next. -/
theorem exists_tail {bytes : List UInt8} {todo : List (List UInt8)} (h : bytes <+: todo.flatten) :
    ∃ frames todo' rest, todo = frames ++ todo' ∧ bytes = frames.flatten ++ rest ∧
      Tail rest todo' := by
  induction todo generalizing bytes with
  | nil =>
    rw [List.flatten_nil] at h
    exact ⟨[], [], bytes, rfl, rfl, List.prefix_nil.mp h⟩
  | cons frame todo ih =>
    rw [List.flatten_cons] at h
    by_cases hlen : frame.length ≤ bytes.length
    · obtain ⟨bytes', rfl⟩ := List.prefix_of_prefix_length_le (List.prefix_append _ _) h hlen
      obtain ⟨frames, todo', rest, rfl, rfl, htail⟩ := ih ((List.prefix_append_right_inj _).mp h)
      exact ⟨frame :: frames, todo', rest, rfl, by rw [List.flatten_cons, List.append_assoc], htail⟩
    · refine ⟨[], frame :: todo, bytes, rfl, rfl, ?_, by omega⟩
      exact List.prefix_of_prefix_length_le h (List.prefix_append _ _) (by omega)

/-- A chunk that comes when nothing is left of a frame begins with the sync word. -/
theorem isSync_of_frames {frames : List (List UInt8)} {rest : List UInt8}
    (hframes : ∀ frame ∈ frames, WellFormed frame) (hrest : Waits rest)
    (hlen : 2 ≤ (frames.flatten ++ rest).length) : isSync (frames.flatten ++ rest) = true := by
  cases frames with
  | nil =>
    rw [List.flatten_nil, List.nil_append] at hlen ⊢
    rcases hrest with hnil | ⟨frame, hframe, hpre, -⟩
    · rw [hnil] at hlen
      exact absurd hlen (by decide)
    · exact (isSync_of_isPrefix hpre hlen).trans hframe.1
  | cons frame frames =>
    have hframe := hframes frame List.mem_cons_self
    have hbounds := hframe.length_bounds
    rw [List.flatten_cons, List.append_assoc,
      ← isSync_of_isPrefix (List.prefix_append _ _) (by omega)]
    exact hframe.1

theorem not_desynced {frames : List (List UInt8)} {rest data : List UInt8} {dir : Direction}
    {flow : Dnp3FlowState} (hframes : ∀ frame ∈ frames, WellFormed frame) (hrest : Waits rest)
    (hbytes : flow.carry dir ++ data = frames.flatten ++ rest) : desynced flow data = false := by
  by_cases hempty : flow.carry dir = []
  · rw [hempty, List.nil_append] at hbytes
    by_cases hlen : 2 ≤ data.length
    · have hsync : isSync data = true := by
        rw [hbytes] at hlen ⊢
        exact isSync_of_frames hframes hrest hlen
      simp [desynced, hsync]
    · simp [desynced, hlen]
  · cases dir with
    | clientToServer =>
      have hne : flow.carryC2s.isEmpty = false := List.isEmpty_eq_false_iff.mpr hempty
      simp [desynced, hne]
    | serverToClient =>
      have hne : flow.carryS2c.isEmpty = false := List.isEmpty_eq_false_iff.mpr hempty
      simp [desynced, hne]

theorem Done.expire {done : List (List UInt8)} {s : Dnp3Analyzer} {flow : Dnp3FlowState}
    (h : Done done s flow) (ts : UInt32) : Done done s (maybeExpireCorrelationWindow flow ts) := by
  obtain ⟨-, hnon, herrors, hcounts, -, hevents⟩ := expire_spec flow ts
  refine ⟨hnon.trans h.isNonDnp3, hcounts.frameCount.trans h.frameCount,
    herrors.trans h.parseErrors, h.fnCodeCounts, ?_, Nat.le_trans hevents h.events⟩
  rw [hcounts.fcCounts]
  exact h.fcCountsLe

theorem Done.scan {done : List (List UInt8)} {c : Delivery} {s s' : Dnp3Analyzer}
    {flow flow' : Dnp3FlowState} (h : Done done s flow)
    (hscan : scanBlockTimeouts c s flow = .ok (s', flow')) : Done done s' flow' := by
  have hdet := scanBlockTimeouts_detects hscan
  refine ⟨hdet.aside.isNonDnp3.trans h.isNonDnp3, hdet.counts.frameCount.trans h.frameCount,
    hdet.aside.parseErrors.trans h.parseErrors, ?_, ?_, Nat.le_trans hdet.events h.events⟩
  · rw [hdet.fnCodeCounts]
    exact h.fnCodeCounts
  · rw [hdet.counts.fcCounts]
    exact h.fcCountsLe

section Chunk

variable {ord : PendingOrder} {c : Delivery} {data : List UInt8} {s : Dnp3Analyzer}
  {flow : Dnp3FlowState}

theorem onFlowData_chunk {done frames : List (List UInt8)} {rest : List UInt8}
    (hdone : Done done s flow) (hframes : ∀ frame ∈ frames, WellFormed frame) (hrest : Waits rest)
    (hbytes : flow.carry c.direction ++ data = frames.flatten ++ rest)
    (hfit : (flow.carry c.direction).length + data.length ≤ maxDnp3FrameLen)
    (hlt : done.length + frames.length < 2 ^ 64) :
    ∃ w, onFlowData ord c data s flow = .ok w ∧ Done (done ++ frames) w.1 w.2 ∧
      w.2.carry c.direction = rest := by
  have hexpire := hdone.expire c.ts
  have hevents := hexpire.events
  have hlt' : events (maybeExpireCorrelationWindow flow c.ts) < 2 ^ 64 := by omega
  obtain ⟨⟨s₁, flow₁⟩, hscan⟩ := scanBlockTimeouts_returns hlt' c s
  have hcarry₁ : flow₁.carry c.direction = flow.carry c.direction :=
    ((scanBlockTimeouts_detects hscan).aside.carry _).trans ((expire_spec flow c.ts).1 _)
  have hacc : accumulate c data s₁ flow₁ =
      .ok (s₁, flow₁.setCarry c.direction (flow.carry c.direction ++ data)) := by
    unfold accumulate
    simp only [hcarry₁]
    rw [checkedSub_of_le (by omega), ok_bind, if_neg (by omega)]
  have hset := carry_setCarry flow₁ c.direction (flow.carry c.direction ++ data)
  obtain ⟨w, hw, hdone', hcarry'⟩ := walk_frames ord c frames hframes hrest (Nat.lt_succ_self _)
    ((hexpire.scan hscan).setCarry c.direction (flow.carry c.direction ++ data))
    (hset.trans hbytes) hlt
  refine ⟨w, ?_, hdone', hcarry'⟩
  unfold onFlowData
  rw [if_neg (by simp [hdone.isNonDnp3]), if_neg (by simp [not_desynced hframes hrest hbytes])]
  simp only [hscan, hacc, ok_bind]
  exact hw

theorem dropMalformed_errors (rest : List UInt8) :
    1 ≤ (dropMalformed c rest s flow).2.parseErrors := by
  rw [(dropMalformed_drops c rest s flow).parseErrors]
  simp only [bump64, saturatingInc]
  omega

/-- A parse error is never taken back. -/
theorem Turned.errors {again : Bool} {w : Dnp3Analyzer × Dnp3FlowState}
    (hturned : Turned ord c s flow again w) (h : 1 ≤ flow.parseErrors) : 1 ≤ w.2.parseErrors := by
  cases hturned with
  | stop hok => exact h
  | settle hlen hlong => exact dropMalformed_errors _
  | drop rest hlen hrest => exact dropMalformed_errors rest
  | frame n header s' flow' hsync hn hle hparse hframe =>
    have herrors := (processFrame_step hframe).aside.parseErrors
    cases hdir : c.direction <;> exact h.trans_eq herrors.symm

theorem onFlowData_errors {w : Dnp3Analyzer × Dnp3FlowState} (h : 1 ≤ flow.parseErrors)
    (hok : onFlowData ord c data s flow = .ok w) : 1 ≤ w.2.parseErrors := by
  rcases onFlowData_cases hok with ⟨-, rfl⟩ | ⟨-, -, rfl⟩ |
    ⟨-, -, s₁, flow₁, s₂, flow₂, hscan, hacc, hloop⟩
  · exact h
  · exact h
  · have h₁ : 1 ≤ flow₁.parseErrors := by
      rw [(scanBlockTimeouts_detects hscan).aside.parseErrors, (expire_spec flow c.ts).2.2.1]
      exact h
    have h₂ : 1 ≤ flow₂.parseErrors := by
      rcases accumulate_cases hacc with ⟨-, hw⟩ | ⟨-, -, hw⟩
      · cases hw
        cases c.direction <;> exact h₁
      · rw [Prod.mk.injEq] at hw
        rw [hw.2]
        exact dropMalformed_errors _
    exact hloop.keeps (I := fun _ flow => 1 ≤ flow.parseErrors)
      (fun _ _ _ _ hI hturned => hturned.errors hI) h₂

/-- A chunk that does not fit is a parse error. -/
theorem onFlowData_oversized {w : Dnp3Analyzer × Dnp3FlowState} (hlatch : flow.isNonDnp3 = false)
    (hdesync : desynced flow data = false)
    (hover : maxDnp3FrameLen < (flow.carry c.direction).length + data.length)
    (hok : onFlowData ord c data s flow = .ok w) : 1 ≤ w.2.parseErrors := by
  rcases onFlowData_cases hok with ⟨htrue, -⟩ | ⟨-, htrue, -⟩ |
    ⟨-, -, s₁, flow₁, s₂, flow₂, hscan, hacc, hloop⟩
  · rw [hlatch] at htrue
    cases htrue
  · rw [hdesync] at htrue
    cases htrue
  · have hcarry₁ : flow₁.carry c.direction = flow.carry c.direction :=
      ((scanBlockTimeouts_detects hscan).aside.carry _).trans ((expire_spec flow c.ts).1 _)
    have h₂ : 1 ≤ flow₂.parseErrors := by
      rcases accumulate_cases hacc with ⟨hfit, -⟩ | ⟨-, -, hw⟩
      · rw [hcarry₁] at hfit
        omega
      · rw [Prod.mk.injEq] at hw
        rw [hw.2]
        exact dropMalformed_errors _
    exact hloop.keeps (I := fun _ flow => 1 ≤ flow.parseErrors)
      (fun _ _ _ _ hI hturned => hturned.errors hI) h₂

end Chunk

/-! ## The whole stream -/

/-- How many bytes of an unfinished frame there are after `offset` bytes of the stream. -/
def partialAt : List (List UInt8) → Nat → Nat
  | [], offset => offset
  | frame :: frames, offset =>
    if frame.length ≤ offset then partialAt frames (offset - frame.length) else offset

/-- Every chunk fits into 292 bytes behind the unfinished frame before it. -/
def AllFit (frames : List (List UInt8)) : Nat → List (List UInt8) → Prop
  | _, [] => True
  | offset, chunk :: chunks =>
    partialAt frames offset + chunk.length ≤ 292 ∧ AllFit frames (offset + chunk.length) chunks

instance decidableAllFit (frames : List (List UInt8)) :
    (offset : Nat) → (chunks : List (List UInt8)) → Decidable (AllFit frames offset chunks)
  | _, [] => .isTrue trivial
  | offset, chunk :: chunks =>
    @instDecidableAnd _ _ _ (decidableAllFit frames (offset + chunk.length) chunks)

/-- Every frame has been counted, and nothing is left over. -/
structure Intact (frames : List (List UInt8)) (dir : Direction) (s : Dnp3Analyzer)
    (flow : Dnp3FlowState) : Prop where
  frameCount : flow.frameCount = frames.length
  fnCodeCounts : ∀ fc, (s.fnCodeCounts.get? fc).getD 0 = (frames.filterMap frameFc).count fc
  parseErrors : flow.parseErrors = 0
  carry : flow.carry dir = []

theorem partialAt_tail {rest : List UInt8} {todo : List (List UInt8)} (h : Tail rest todo)
    (done : List (List UInt8)) :
    partialAt (done ++ todo) (done.flatten.length + rest.length) = rest.length := by
  induction done with
  | nil =>
    rw [List.nil_append, List.flatten_nil, List.length_nil, Nat.zero_add]
    cases todo with
    | nil => rfl
    | cons frame todo =>
      have hlen := h.2
      rw [partialAt, if_neg (by omega)]
  | cons frame done ih =>
    rw [List.cons_append, partialAt, List.flatten_cons, List.length_append, if_pos (by omega)]
    rw [show frame.length + done.flatten.length + rest.length - frame.length =
      done.flatten.length + rest.length by omega]
    exact ih

/-- The calls of one direction at one time. -/
def callsOf (ts : UInt32) (dir : Direction) (chunks : List (List UInt8)) : List Call :=
  chunks.map fun chunk => ⟨chunk, ts, dir⟩

theorem run_errors {ord : PendingOrder} {flowKey : FlowKey} {s s' : Dnp3Analyzer}
    {calls : List Call} (h : 1 ≤ (flowOf s flowKey).parseErrors)
    (hrun : run (onCall ord flowKey) s calls = .ok s') : 1 ≤ (flowOf s' flowKey).parseErrors :=
  run_flow (I := fun flow => 1 ≤ flow.parseErrors)
    (fun _ _ _ _ hI hdata => onFlowData_errors hI hdata) h hrun

/-- A chunk that fits completes the frames that it completes. -/
theorem onCall_chunk (ord : PendingOrder) (flowKey : FlowKey) (dir : Direction) (ts : UInt32)
    {done frames : List (List UInt8)} {rest chunk : List UInt8} {s : Dnp3Analyzer}
    (hdone : Done done s (flowOf s flowKey)) (hframes : ∀ frame ∈ frames, WellFormed frame)
    (hrest : Waits rest) (hbytes : (flowOf s flowKey).carry dir ++ chunk = frames.flatten ++ rest)
    (hfit : ((flowOf s flowKey).carry dir).length + chunk.length ≤ maxDnp3FrameLen)
    (hlt : done.length + frames.length < 2 ^ 64) :
    ∃ s', onCall ord flowKey s ⟨chunk, ts, dir⟩ = .ok s' ∧
      Done (done ++ frames) s' (flowOf s' flowKey) ∧ (flowOf s' flowKey).carry dir = rest := by
  have hchunk : ∃ w, onFlowData ord ⟨flowKey, dir, ts⟩ chunk s (flowOf s flowKey) = .ok w ∧
      Done (done ++ frames) w.1 w.2 ∧ w.2.carry dir = rest :=
    onFlowData_chunk hdone hframes hrest hbytes hfit hlt
  obtain ⟨w, hw, hdone', hcarry'⟩ := hchunk
  have hcall : onCall ord flowKey s ⟨chunk, ts, dir⟩ =
      .ok { w.1 with flows := w.1.flows.insert flowKey w.2 } := bind_eq_ok.mpr ⟨w, hw, rfl⟩
  have hflow : flowOf { w.1 with flows := w.1.flows.insert flowKey w.2 } flowKey = w.2 := by
    simp only [flowOf, SortedMap.get?_insert_self, Option.getD_some]
  refine ⟨_, hcall, ?_, ?_⟩
  · rw [hflow]
    exact ⟨hdone'.isNonDnp3, hdone'.frameCount, hdone'.parseErrors, hdone'.fnCodeCounts,
      hdone'.fcCountsLe, hdone'.events⟩
  · rw [hflow]
    exact hcarry'

/-- The rest of the stream, after the frames `done` and the beginning of the next one. -/
theorem run_chunks (ord : PendingOrder) (flowKey : FlowKey) (dir : Direction) (ts : UInt32)
    {done todo : List (List UInt8)} {rest : List UInt8} (chunks : List (List UInt8))
    {s : Dnp3Analyzer} (htodo : ∀ frame ∈ todo, WellFormed frame) (htail : Tail rest todo)
    (hdone : Done done s (flowOf s flowKey)) (hcarry : (flowOf s flowKey).carry dir = rest)
    (hcut : rest ++ chunks.flatten = todo.flatten) (hlt : done.length + todo.length < 2 ^ 64) :
    (AllFit (done ++ todo) (done.flatten.length + rest.length) chunks →
      ∃ s', run (onCall ord flowKey) s (callsOf ts dir chunks) = .ok s' ∧
        Intact (done ++ todo) dir s' (flowOf s' flowKey)) ∧
    (¬ AllFit (done ++ todo) (done.flatten.length + rest.length) chunks →
      ∀ s', run (onCall ord flowKey) s (callsOf ts dir chunks) = .ok s' →
        1 ≤ (flowOf s' flowKey).parseErrors) := by
  induction chunks generalizing done todo rest s with
  | nil =>
    refine ⟨fun _ => ⟨s, rfl, ?_⟩, fun h => absurd trivial h⟩
    rw [List.flatten_nil, List.append_nil] at hcut
    cases todo with
    | nil =>
      rw [List.append_nil]
      exact ⟨hdone.frameCount, hdone.fnCodeCounts, hdone.parseErrors, hcarry.trans htail⟩
    | cons frame todo =>
      have hlen := congrArg List.length hcut
      have htail' := htail.2
      rw [List.flatten_cons, List.length_append] at hlen
      omega
  | cons chunk chunks ih =>
    rw [List.flatten_cons, ← List.append_assoc] at hcut
    obtain ⟨frames, todo', rest', rfl, hbytes, htail'⟩ := exists_tail ⟨chunks.flatten, hcut⟩
    have hframes : ∀ frame ∈ frames, WellFormed frame :=
      fun frame hmem => htodo frame (List.mem_append_left _ hmem)
    have htodo' : ∀ frame ∈ todo', WellFormed frame :=
      fun frame hmem => htodo frame (List.mem_append_right _ hmem)
    have hwaits := htail'.waits htodo'
    have hpart := partialAt_tail htail done
    rw [← hcarry] at hbytes
    rw [callsOf, List.map_cons, run_cons]
    by_cases hfit : rest.length + chunk.length ≤ maxDnp3FrameLen
    · rw [List.length_append] at hlt
      obtain ⟨s₁, hcall, hdone₁, hcarry₁⟩ := onCall_chunk ord flowKey dir ts hdone hframes hwaits
        hbytes (by rw [hcarry]; exact hfit) (by omega)
      rw [hcarry] at hbytes
      have hcut' : rest' ++ chunks.flatten = todo'.flatten := by
        rw [hbytes, List.append_assoc, List.flatten_append] at hcut
        exact List.append_cancel_left hcut
      have hoffset : done.flatten.length + rest.length + chunk.length =
          (done ++ frames).flatten.length + rest'.length := by
        have hlen := congrArg List.length hbytes
        rw [List.length_append, List.length_append] at hlen
        rw [List.flatten_append, List.length_append]
        omega
      have hall : AllFit (done ++ (frames ++ todo')) (done.flatten.length + rest.length)
            (chunk :: chunks) ↔
          AllFit (done ++ frames ++ todo') ((done ++ frames).flatten.length + rest'.length)
            chunks := by
        rw [AllFit, hpart, hoffset, List.append_assoc]
        exact and_iff_right hfit
      obtain ⟨hfits, hnot⟩ := ih htodo' htail' hdone₁ hcarry₁ hcut'
        (by rw [List.length_append]; omega)
      rw [hall, hcall, ← List.append_assoc]
      exact ⟨hfits, hnot⟩
    · refine ⟨fun hall => absurd hall.1 (by rw [hpart]; exact hfit), fun _ s' hrun => ?_⟩
      obtain ⟨s₁, hcall, hrun⟩ := bind_eq_ok.mp hrun
      obtain ⟨s₂, flow₁, hdata, -, hflow⟩ := onCall_eq_ok hcall
      refine run_errors ?_ hrun
      rw [hflow]
      exact onFlowData_oversized hdone.isNonDnp3 (not_desynced hframes hwaits hbytes)
        (by simp only [hcarry]; omega) hdata

theorem done_new (threshold : UInt32) (flowKey : FlowKey) :
    Done [] (.new threshold) (flowOf (.new threshold) flowKey) :=
  ⟨rfl, rfl, rfl, fun _ => rfl, fun _ => Nat.le_refl 0, Nat.le_refl 0⟩

/-- However a stream of well-formed frames is cut, it is counted frame by frame exactly if every
chunk fits. -/
theorem run_frames (ord : PendingOrder) (flowKey : FlowKey) (threshold : UInt32) (dir : Direction)
    (ts : UInt32) (frames chunks : List (List UInt8)) (hframes : ∀ frame ∈ frames, WellFormed frame)
    (hcut : chunks.flatten = frames.flatten) (hlt : frames.length < 2 ^ 64) :
    (AllFit frames 0 chunks →
      ∃ s, run (onCall ord flowKey) (.new threshold) (callsOf ts dir chunks) = .ok s ∧
        Intact frames dir s (flowOf s flowKey)) ∧
    (¬ AllFit frames 0 chunks →
      ∀ s, run (onCall ord flowKey) (.new threshold) (callsOf ts dir chunks) = .ok s →
        1 ≤ (flowOf s flowKey).parseErrors) := by
  have htail : Tail [] frames := by
    cases frames with
    | nil => rfl
    | cons frame frames =>
      have hbounds := (hframes frame List.mem_cons_self).length_bounds
      exact ⟨List.nil_prefix, by simp only [List.length_nil]; omega⟩
  have hcarry : (flowOf (.new threshold) flowKey).carry dir = [] := by cases dir <;> rfl
  have hrun := run_chunks ord flowKey dir ts chunks hframes htail (done_new threshold flowKey)
    hcarry hcut (by simp only [List.length_nil]; omega)
  exact hrun

def shortestFrame : List UInt8 := [0x05, 0x64, 5, 0, 0, 0, 0, 0, 0, 0]

def longestFrame : List UInt8 := [0x05, 0x64, 255] ++ List.replicate 289 0

theorem run_frames_in_pieces :
    AllFit [shortestFrame] 0 [[0x05], [0x64, 5, 0, 0, 0], [0, 0, 0, 0]] ∧
    ∃ s, run (onCall keyOrder outstationKey) (.new 10)
        (callsOf 0 .clientToServer [[0x05], [0x64, 5, 0, 0, 0], [0, 0, 0, 0]]) = .ok s ∧
      Intact [shortestFrame] .clientToServer s (flowOf s outstationKey) := by
  have hfit : AllFit [shortestFrame] 0 [[0x05], [0x64, 5, 0, 0, 0], [0, 0, 0, 0]] := by decide
  exact ⟨hfit, (run_frames keyOrder outstationKey 10 .clientToServer 0 [shortestFrame]
    [[0x05], [0x64, 5, 0, 0, 0], [0, 0, 0, 0]]
    (fun frame hmem => by rw [List.mem_singleton.mp hmem]; decide) rfl (by decide)).1 hfit⟩

set_option maxRecDepth 4000 in
/-- Two well-formed frames in one chunk: the second one is lost. -/
theorem oversized_chunk :
    WellFormed longestFrame ∧ WellFormed shortestFrame ∧
    ∃ s, run (onCall keyOrder outstationKey) (.new 10)
        (callsOf 0 .clientToServer [longestFrame ++ shortestFrame]) = .ok s ∧
      (flowOf s outstationKey).frameCount = 1 ∧ (flowOf s outstationKey).parseErrors = 1 :=
  ⟨by decide, by decide, _, rfl, by decide, by decide⟩

end Wirerust.Dnp3
