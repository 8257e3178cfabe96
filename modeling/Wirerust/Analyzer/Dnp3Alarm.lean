import Wirerust.Analyzer.Dnp3Carry

/-!
The alarm for malformed DNP3 frames.

The window is reset when more than 300 seconds have passed since its start, and the alarm is given
when fewer than 300 have. A call at exactly 300 seconds does neither: if the third malformed frame
comes there, it goes by unnoticed (`silent_at_window_end`). How many frames of a call are malformed
is read off its bytes (`rejects`). So the third malformed frame of a window has raised the alarm in
all states of a run if and only if no call brings it at the end of the window (`run_alarmed`).
-/

namespace Wirerust.Dnp3

open Lib Wirerust.Flow Wirerust.Analyzer

/-- The third malformed frame of the window has raised the alarm. -/
def Alarmed (flow : Dnp3FlowState) : Prop :=
  malformedAnomalyThreshold ≤ flow.malformedInWindow → flow.malformedAnomalyEmitted = true

instance (flow : Dnp3FlowState) : Decidable (Alarmed flow) :=
  inferInstanceAs (Decidable (_ → _))

/-! ## The malformed frames of a call -/

/-- A turn on the bytes alone: whether it rejects any, and the bytes of the next turn, if there is
one. -/
def turnBytes (didProcess : Bool) (carry : List UInt8) : Bool × Option (List UInt8) :=
  if carry.length < 10 then
    (decide (2 ≤ carry.length) && (!isSync carry ||
      (didProcess && decide (3 ≤ carry.length) &&
        (computeDnp3FrameLen (carry.getD 2 0)).isNone)), none)
  else if !isSync carry then (true, some (resync 1 carry))
  else
    match computeDnp3FrameLen (carry.getD 2 0) with
    | none => (true, some (resync 1 carry))
    | some frameLen =>
      if carry.length < frameLen then (false, none)
      else
        (((parseDnp3DlHeader (carry.take frameLen)).filter isValidDnp3FrameHeader).isNone,
          some (carry.drop frameLen))

def rejectsIn : Nat → Bool → List UInt8 → Nat
  | 0, _, _ => 0
  | turns + 1, didProcess, carry =>
    (turnBytes didProcess carry).1.toNat +
      match (turnBytes didProcess carry).2 with
      | some rest => rejectsIn turns true rest
      | none => 0

/-- How often bytes are rejected when the data comes behind the carry. -/
def rejects (carry data : List UInt8) : Nat :=
  if carry.length + data.length ≤ maxDnp3FrameLen then
    rejectsIn ((carry ++ data).length + 1) false (carry ++ data)
  else
    let rest := resync 0 (carry ++ data.take (maxDnp3FrameLen - carry.length))
    rejectsIn (rest.length + 1) false rest + 1

/-- What the alarm looks at. -/
structure SameAlarm (flow flow' : Dnp3FlowState) : Prop where
  windowStart : flow'.correlationWindowStartTs = flow.correlationWindowStartTs
  malformed : flow'.malformedInWindow = flow.malformedInWindow
  emitted : flow'.malformedAnomalyEmitted = flow.malformedAnomalyEmitted

theorem Aside.sameAlarm {flow flow' : Dnp3FlowState} (h : Aside flow flow') :
    SameAlarm flow flow' := ⟨h.windowStart, h.malformed, h.malformedEmitted⟩

theorem setCarry_sameAlarm (flow : Dnp3FlowState) (dir : Direction) (bytes : List UInt8) :
    SameAlarm flow (flow.setCarry dir bytes) := by
  cases dir <;> exact ⟨rfl, rfl, rfl⟩

theorem SameAlarm.trans {f₁ f₂ f₃ : Dnp3FlowState} (h : SameAlarm f₁ f₂) (h' : SameAlarm f₂ f₃) :
    SameAlarm f₁ f₃ :=
  ⟨h'.windowStart.trans h.windowStart, h'.malformed.trans h.malformed,
    h'.emitted.trans h.emitted⟩

/-- The turn does to the bytes what `turnBytes` says. -/
structure Turns (c : Delivery) (s : Dnp3Analyzer) (flow : Dnp3FlowState)
    (bytes : Bool × Option (List UInt8)) (again : Bool) (w : Dnp3Analyzer × Dnp3FlowState) :
    Prop where
  rest : bytes.2 = if again then some (w.2.carry c.direction) else none
  rejected : bytes.1 = true → ∃ rest, w = dropMalformed c rest s flow
  taken : bytes.1 = false → SameAlarm flow w.2

theorem Turns.drop {c : Delivery} {s : Dnp3Analyzer} {flow : Dnp3FlowState} (rest : List UInt8) :
    Turns c s flow (true, some rest) true (dropMalformed c rest s flow) where
  rest := by rw [(dropMalformed_drops c rest s flow).carry, if_pos rfl]
  rejected := fun _ => ⟨rest, rfl⟩
  taken := fun h => by cases h

theorem settleShort_turns (c : Delivery) (did : Bool) (s : Dnp3Analyzer) (flow : Dnp3FlowState)
    (hshort : (flow.carry c.direction).length < 10) :
    Turns c s flow (turnBytes did (flow.carry c.direction)) false (settleShort c did s flow) := by
  unfold turnBytes settleShort
  rw [if_pos hshort]
  refine ⟨rfl, fun hrejected => ?_, fun hkept => ?_⟩
  · simp only [Bool.and_eq_true, Bool.or_eq_true, decide_eq_true_eq] at hrejected
    obtain ⟨hlong, hwhy⟩ := hrejected
    refine ⟨resync 1 (flow.carry c.direction), ?_⟩
    simp only [if_pos hlong]
    by_cases hsync : (!isSync (flow.carry c.direction)) = true
    · rw [if_pos hsync]
      rfl
    · obtain ⟨⟨hdid, hthree⟩, hnone⟩ := hwhy.resolve_left hsync
      have hall : (did && decide ((flow.carry c.direction).length ≥ 3) &&
          (computeDnp3FrameLen ((flow.carry c.direction).getD 2 0)).isNone) = true := by
        rw [hdid, hnone, decide_eq_true hthree]
        rfl
      rw [if_neg hsync, if_pos hall]
      rfl
  · simp only
    by_cases hlong : (flow.carry c.direction).length ≥ 2
    · simp only [decide_eq_true hlong, Bool.true_and, Bool.or_eq_false_iff] at hkept
      have hwhy := hkept.2
      simp only [if_pos hlong, hkept.1, Bool.false_eq_true, if_false]
      rw [if_neg fun hyes => Bool.noConfusion (hwhy.symm.trans hyes)]
      exact ⟨rfl, rfl, rfl⟩
    · rw [if_neg hlong]
      exact ⟨rfl, rfl, rfl⟩

theorem turn_turns {ord : PendingOrder} {c : Delivery} {did again : Bool} {s : Dnp3Analyzer}
    {flow : Dnp3FlowState} {w : Dnp3Analyzer × Dnp3FlowState}
    (h : turn ord c did s flow = .ok (again, w)) :
    Turns c s flow (turnBytes did (flow.carry c.direction)) again w := by
  unfold turn at h
  simp only at h
  by_cases hshort : (flow.carry c.direction).length < 10
  · rw [if_pos hshort] at h
    cases h
    exact settleShort_turns c did s flow hshort
  · rw [if_neg hshort] at h
    unfold turnBytes
    rw [if_neg hshort]
    cases hsync : isSync (flow.carry c.direction) with
    | false =>
      simp only [hsync, Bool.not_false, if_true] at h ⊢
      cases h
      rw [← check_setCarry]
      exact .drop _
    | true =>
      simp only [hsync, Bool.not_true, Bool.false_eq_true, if_false] at h ⊢
      cases hn : computeDnp3FrameLen ((flow.carry c.direction).getD 2 0) with
      | none =>
        simp only [hn] at h ⊢
        cases h
        exact .drop _
      | some n =>
        simp only [hn] at h ⊢
        by_cases hwait : (flow.carry c.direction).length < n
        · rw [if_pos hwait] at h ⊢
          cases h
          exact ⟨rfl, fun h => (by cases h), fun _ => ⟨rfl, rfl, rfl⟩⟩
        · rw [if_neg hwait] at h ⊢
          split at h
          · rename_i hnone
            cases h
            rw [hnone]
            exact .drop _
          · rename_i header hheader
            obtain ⟨⟨s', flow'⟩, hframe, hout⟩ := bind_eq_ok.mp h
            cases hout
            rw [hheader]
            refine ⟨?_, fun h => (by cases h), fun _ => ?_⟩
            · rw [if_pos rfl, carry_setCarry]
            · exact (processFrame_step hframe).aside.sameAlarm.trans (setCarry_sameAlarm _ _ _)

/-! ## At the end of the window -/

/-- The call comes exactly at the end of the window. -/
def AtEnd (flow : Dnp3FlowState) (ts : UInt32) : Prop :=
  saturatingSub ts flow.correlationWindowStartTs = correlationWindowSecs

/-- The alarm has not become due at the end of the window, where it would not be given. -/
def Timely (flow : Dnp3FlowState) (data : List UInt8) (ts : UInt32) (direction : Direction) :
    Prop :=
  flow.isNonDnp3 = false → desynced flow data = false → flow.correlationWindowSeeded = true →
    AtEnd flow ts → flow.malformedAnomalyEmitted = false →
      flow.malformedInWindow + rejects (flow.carry direction) data < malformedAnomalyThreshold

theorem AtEnd.same {flow flow' : Dnp3FlowState} {ts : UInt32} (h : AtEnd flow ts)
    (hsame : SameAlarm flow flow') : AtEnd flow' ts := by
  rw [AtEnd, hsame.windowStart]
  exact h

/-- The frame is counted, and that is all. -/
theorem dropMalformed_atEnd {c : Delivery} {flow : Dnp3FlowState} (h : AtEnd flow c.ts)
    (rest : List UInt8) (s : Dnp3Analyzer) :
    AtEnd (dropMalformed c rest s flow).2 c.ts ∧
      (dropMalformed c rest s flow).2.malformedInWindow = bump64 flow.malformedInWindow ∧
      (dropMalformed c rest s flow).2.malformedAnomalyEmitted = flow.malformedAnomalyEmitted := by
  have hcounted : AtEnd (countMalformed flow) c.ts := h
  have hsame := setCarry_sameAlarm (countMalformed flow) c.direction rest
  have hdue : ¬ AlarmDue c ((countMalformed flow).setCarry c.direction rest) := by
    rintro ⟨-, -, hlt⟩
    rw [hsame.windowStart] at hlt
    exact absurd (show correlationWindowSecs < correlationWindowSecs from h ▸ hlt) (by decide)
  rw [dropMalformed, check_of_not_due hdue]
  exact ⟨hcounted.same hsame, hsame.malformed, hsame.emitted⟩

theorem Loops.atEnd {ord : PendingOrder} {c : Delivery} {did : Bool} {s : Dnp3Analyzer}
    {flow : Dnp3FlowState} {w : Dnp3Analyzer × Dnp3FlowState} (h : Loops ord c did s flow w)
    (hend : AtEnd flow c.ts) {turns : Nat} (hlen : (flow.carry c.direction).length < turns) :
    w.2.malformedInWindow =
        bump64^[rejectsIn turns did (flow.carry c.direction)] flow.malformedInWindow ∧
      w.2.malformedAnomalyEmitted = flow.malformedAnomalyEmitted := by
  have hstep : ∀ {did again : Bool} {s : Dnp3Analyzer} {flow : Dnp3FlowState}
      {w : Dnp3Analyzer × Dnp3FlowState}, turn ord c did s flow = .ok (again, w) →
      AtEnd flow c.ts → AtEnd w.2 c.ts ∧
        w.2.malformedInWindow =
          bump64^[(turnBytes did (flow.carry c.direction)).1.toNat] flow.malformedInWindow ∧
        w.2.malformedAnomalyEmitted = flow.malformedAnomalyEmitted := by
    intro did again s flow w hturn hend
    have hturns := turn_turns hturn
    cases hrejected : (turnBytes did (flow.carry c.direction)).1 with
    | true =>
      obtain ⟨rest, rfl⟩ := hturns.rejected hrejected
      exact dropMalformed_atEnd hend rest s
    | false =>
      have hsame := hturns.taken hrejected
      exact ⟨hend.same hsame, hsame.malformed, hsame.emitted⟩
  induction h generalizing turns with
  | stop hturn =>
    obtain ⟨-, hcount, hemitted⟩ := hstep hturn hend
    have hrest := (turn_turns hturn).rest
    cases turns with
    | zero => exact absurd hlen (Nat.not_lt_zero _)
    | succ turns =>
      rw [rejectsIn, hrest]
      exact ⟨hcount, hemitted⟩
  | next hturn _ ih =>
    obtain ⟨hend', hcount, hemitted⟩ := hstep hturn hend
    have hrest := (turn_turns hturn).rest
    have hshorter := (turn_cases hturn).shortens
    cases turns with
    | zero => exact absurd hlen (Nat.not_lt_zero _)
    | succ turns =>
      obtain ⟨hcount', hemitted'⟩ :=
        ih hend' (Nat.lt_of_lt_of_le hshorter (Nat.le_of_lt_succ hlen))
      rw [rejectsIn, hrest, Nat.add_comm, Function.iterate_add_apply, ← hcount]
      exact ⟨hcount', hemitted'.trans hemitted⟩

theorem le_bump64_iterate {k : Nat} (hk : k < 2 ^ 64) (n m : Nat) :
    k ≤ bump64^[n] m ↔ k ≤ m + n := by
  induction n generalizing m with
  | zero => rfl
  | succ n ih =>
    rw [Function.iterate_succ_apply, ih]
    unfold bump64 saturatingInc
    omega

/-- What a call at the end of the window does. -/
theorem onFlowData_atEnd {ord : PendingOrder} {c : Delivery} {data : List UInt8}
    {s : Dnp3Analyzer} {flow : Dnp3FlowState} {w : Dnp3Analyzer × Dnp3FlowState}
    (hlatch : flow.isNonDnp3 = false) (hdesync : desynced flow data = false)
    (hseeded : flow.correlationWindowSeeded = true) (hend : AtEnd flow c.ts)
    (hok : onFlowData ord c data s flow = .ok w) :
    w.2.malformedInWindow =
        bump64^[rejects (flow.carry c.direction) data] flow.malformedInWindow ∧
      w.2.malformedAnomalyEmitted = flow.malformedAnomalyEmitted := by
  have hkept : maybeExpireCorrelationWindow flow c.ts = flow := by
    unfold maybeExpireCorrelationWindow
    rw [hseeded, if_neg (by decide), if_neg]
    rw [show saturatingSub c.ts flow.correlationWindowStartTs = correlationWindowSecs from hend]
    decide
  rcases onFlowData_cases hok with ⟨hyes, -⟩ | ⟨-, hyes, -⟩ |
    ⟨-, -, s₁, flow₁, s₂, flow₂, hscan, hacc, hloop⟩
  · rw [hlatch] at hyes
    cases hyes
  · rw [hdesync] at hyes
    cases hyes
  · rw [hkept] at hscan
    have haside := (scanBlockTimeouts_detects hscan).aside
    have hcarry : flow₁.carry c.direction = flow.carry c.direction := haside.carry c.direction
    have hend₁ := hend.same haside.sameAlarm
    unfold rejects
    rcases accumulate_cases hacc with ⟨hfit, hw⟩ | ⟨hover, -, hw⟩
    · cases hw
      rw [hcarry] at hfit
      rw [if_pos hfit]
      have hset := setCarry_sameAlarm flow₁ c.direction (flow₁.carry c.direction ++ data)
      obtain ⟨hcount, hemitted⟩ := hloop.atEnd (hend₁.same hset) (Nat.lt_succ_self _)
      rw [carry_setCarry, hcarry] at hcount
      rw [hcount, hemitted, ← hcarry, hset.malformed, hset.emitted, haside.malformed,
        haside.malformedEmitted]
      exact ⟨rfl, rfl⟩
    · rw [Prod.mk.injEq] at hw
      obtain ⟨-, rfl⟩ := hw
      rw [hcarry] at hover
      rw [if_neg (Nat.not_le_of_lt hover)]
      obtain ⟨hend₂, hdropped, hsilent⟩ := dropMalformed_atEnd hend₁ (resync 0
        (flow₁.carry c.direction ++
          data.take (maxDnp3FrameLen - (flow₁.carry c.direction).length))) s₁
      obtain ⟨hcount, hemitted⟩ := hloop.atEnd hend₂ (Nat.lt_succ_self _)
      rw [(dropMalformed_drops c _ s₁ flow₁).carry, hcarry] at hcount
      rw [hcount, hemitted, ← hcarry, hdropped, hsilent, haside.malformed,
        haside.malformedEmitted]
      exact ⟨rfl, rfl⟩

/-! ## Before the end of the window -/

/-- The alarm can still be given. -/
def InWindow (c : Delivery) (flow : Dnp3FlowState) : Prop :=
  saturatingSub c.ts flow.correlationWindowStartTs < correlationWindowSecs

theorem expire_alarmed {flow : Dnp3FlowState} {c : Delivery} (h : Alarmed flow)
    (hoff : flow.correlationWindowSeeded = true → ¬ AtEnd flow c.ts) :
    Alarmed (maybeExpireCorrelationWindow flow c.ts) ∧
      InWindow c (maybeExpireCorrelationWindow flow c.ts) := by
  have hstart : saturatingSub c.ts c.ts < correlationWindowSecs := by
    rw [saturatingSub_self]
    decide
  unfold maybeExpireCorrelationWindow
  cases hseeded : flow.correlationWindowSeeded with
  | false => exact ⟨h, hstart⟩
  | true =>
    simp only [Bool.not_true, Bool.false_eq_true, if_false]
    split
    · exact ⟨fun hle => absurd hle (by decide : ¬ malformedAnomalyThreshold ≤ 0), hstart⟩
    · rename_i hle
      refine ⟨h, ?_⟩
      exact UInt32.lt_of_le_of_ne (UInt32.not_lt.mp hle) (hoff hseeded)

/-- Bytes dropped in the window: the alarm is given if it is due. -/
theorem dropMalformed_alarmed {c : Delivery} {rest : List UInt8} {s : Dnp3Analyzer}
    {flow : Dnp3FlowState} (hwindow : InWindow c flow) :
    Alarmed (dropMalformed c rest s flow).2 ∧ InWindow c (dropMalformed c rest s flow).2 := by
  have hstart : ((countMalformed flow).setCarry c.direction rest).correlationWindowStartTs =
      flow.correlationWindowStartTs := by
    cases c.direction <;> rfl
  unfold dropMalformed
  generalize (countMalformed flow).setCarry c.direction rest = flow₁ at hstart ⊢
  have hwindow₁ : InWindow c flow₁ := by
    unfold InWindow
    rw [hstart]
    exact hwindow
  by_cases hdue : AlarmDue c flow₁
  · rw [check_of_due hdue]
    exact ⟨fun _ => rfl, hwindow₁⟩
  · rw [check_of_not_due hdue]
    refine ⟨fun hle => ?_, hwindow₁⟩
    cases hemitted : flow₁.malformedAnomalyEmitted with
    | true => rfl
    | false => exact absurd ⟨hle, hemitted, hwindow₁⟩ hdue

theorem Aside.alarmed {c : Delivery} {flow flow' : Dnp3FlowState} (haside : Aside flow flow')
    (h : Alarmed flow ∧ InWindow c flow) : Alarmed flow' ∧ InWindow c flow' := by
  unfold Alarmed InWindow
  rw [haside.malformed, haside.malformedEmitted, haside.windowStart]
  exact h

theorem setCarry_alarmed {c : Delivery} {flow : Dnp3FlowState} {dir : Direction}
    (bytes : List UInt8) (h : Alarmed flow ∧ InWindow c flow) :
    Alarmed (flow.setCarry dir bytes) ∧ InWindow c (flow.setCarry dir bytes) := by
  cases dir <;> exact h

theorem Turned.alarmed {ord : PendingOrder} {c : Delivery} {s : Dnp3Analyzer}
    {flow : Dnp3FlowState} {again : Bool} {w : Dnp3Analyzer × Dnp3FlowState}
    (hturned : Turned ord c s flow again w) (h : Alarmed flow ∧ InWindow c flow) :
    Alarmed w.2 ∧ InWindow c w.2 := by
  cases hturned with
  | stop hok => exact h
  | settle hlen hlong => exact dropMalformed_alarmed h.2
  | drop rest hlen hrest => exact dropMalformed_alarmed h.2
  | frame n header s' flow' hsync hn hle hparse hframe =>
    exact setCarry_alarmed _ ((processFrame_step hframe).aside.alarmed h)

theorem onFlowData_alarmed {ord : PendingOrder} {c : Delivery} {data : List UInt8}
    {s : Dnp3Analyzer} {flow : Dnp3FlowState} {w : Dnp3Analyzer × Dnp3FlowState}
    (h : Alarmed flow) (hoff : flow.correlationWindowSeeded = true → ¬ AtEnd flow c.ts)
    (hok : onFlowData ord c data s flow = .ok w) : Alarmed w.2 := by
  rcases onFlowData_cases hok with ⟨-, rfl⟩ | ⟨-, -, rfl⟩ |
    ⟨-, -, s₁, flow₁, s₂, flow₂, hscan, hacc, hloop⟩
  · exact h
  · exact h
  · have h₁ := (scanBlockTimeouts_detects hscan).aside.alarmed (expire_alarmed h hoff)
    have h₂ : Alarmed flow₂ ∧ InWindow c flow₂ := by
      rcases accumulate_cases hacc with ⟨-, hw⟩ | ⟨-, -, hw⟩
      · cases hw
        exact setCarry_alarmed _ h₁
      · rw [Prod.mk.injEq] at hw
        rw [hw.2]
        exact dropMalformed_alarmed h₁.2
    exact (hloop.keeps (I := fun _ flow => Alarmed flow ∧ InWindow c flow)
      (fun _ _ _ _ hI hturned => hturned.alarmed hI) h₂).1

/-! ## Runs -/

/-- A call keeps the alarm up if and only if it is in time. -/
theorem onFlowData_alarmed_iff {ord : PendingOrder} {c : Delivery} {data : List UInt8}
    {s : Dnp3Analyzer} {flow : Dnp3FlowState} {w : Dnp3Analyzer × Dnp3FlowState}
    (h : Alarmed flow) (hok : onFlowData ord c data s flow = .ok w) :
    Alarmed w.2 ↔ Timely flow data c.ts c.direction := by
  by_cases hquiet : flow.isNonDnp3 = true ∨ desynced flow data = true
  · have hsame : Alarmed w.2 := by
      rcases onFlowData_cases hok with ⟨-, rfl⟩ | ⟨-, -, rfl⟩ | ⟨hlatch, hdesync, -⟩
      · exact h
      · exact h
      · rw [hlatch, hdesync] at hquiet
        cases hquiet with
        | inl hyes => cases hyes
        | inr hyes => cases hyes
    refine iff_of_true hsame fun hlatch hdesync => ?_
    rw [hlatch, hdesync] at hquiet
    cases hquiet with
    | inl hyes => cases hyes
    | inr hyes => cases hyes
  · simp only [not_or, Bool.not_eq_true] at hquiet
    obtain ⟨hlatch, hdesync⟩ := hquiet
    by_cases hend : flow.correlationWindowSeeded = true ∧ AtEnd flow c.ts
    · obtain ⟨hcount, hemitted⟩ := onFlowData_atEnd hlatch hdesync hend.1 hend.2 hok
      unfold Alarmed Timely
      rw [hcount, hemitted, le_bump64_iterate (by decide)]
      constructor
      · intro halarmed _ _ _ _ hnot
        by_contra hmany
        rw [halarmed (Nat.not_lt.mp hmany)] at hnot
        cases hnot
      · intro htimely hmany
        by_contra hnot
        rw [Bool.not_eq_true] at hnot
        exact Nat.not_lt.mpr hmany (htimely hlatch hdesync hend.1 hend.2 hnot)
    · exact iff_of_true
        (onFlowData_alarmed h (fun hseeded hat => hend ⟨hseeded, hat⟩) hok)
        fun _ _ hseeded hat => absurd ⟨hseeded, hat⟩ hend

/-- Every call of the run is in time. -/
def AllTimely (ord : PendingOrder) (flowKey : FlowKey) : Dnp3Analyzer → List Call → Prop
  | _, [] => True
  | s, call :: calls => Timely (flowOf s flowKey) call.data call.ts call.direction ∧
    ∀ s', onCall ord flowKey s call = .ok s' → AllTimely ord flowKey s' calls

/-- The alarm is up in every state of the run. -/
def AllAlarmed (ord : PendingOrder) (flowKey : FlowKey) (s : Dnp3Analyzer) (calls : List Call) :
    Prop :=
  ∀ pre s', pre <+: calls → run (onCall ord flowKey) s pre = .ok s' → Alarmed (flowOf s' flowKey)

theorem allAlarmed_cons {ord : PendingOrder} {flowKey : FlowKey} {s s₁ : Dnp3Analyzer}
    {call : Call} {calls : List Call} (h : Alarmed (flowOf s flowKey))
    (hcall : onCall ord flowKey s call = .ok s₁) :
    AllAlarmed ord flowKey s (call :: calls) ↔ AllAlarmed ord flowKey s₁ calls := by
  constructor
  · intro hall pre s' hpre hrun
    refine hall (call :: pre) s' (List.cons_prefix_cons.mpr ⟨rfl, hpre⟩) ?_
    rw [run_cons, hcall]
    exact hrun
  · intro hall pre s' hpre hrun
    cases pre with
    | nil =>
      cases hrun
      exact h
    | cons first pre =>
      obtain ⟨rfl, hrest⟩ := List.cons_prefix_cons.mp hpre
      rw [run_cons, hcall] at hrun
      exact hall pre s' hrest hrun

theorem run_alarmed_from {ord : PendingOrder} {flowKey : FlowKey} {s s' : Dnp3Analyzer}
    {calls : List Call} (h : Alarmed (flowOf s flowKey))
    (hrun : run (onCall ord flowKey) s calls = .ok s') :
    AllAlarmed ord flowKey s calls ↔ AllTimely ord flowKey s calls := by
  induction calls generalizing s with
  | nil =>
    refine iff_of_true (fun pre s' hpre hrun => ?_) trivial
    rw [List.prefix_nil.mp hpre] at hrun
    cases hrun
    exact h
  | cons call calls ih =>
    rw [run_cons] at hrun
    obtain ⟨s₁, hcall, hrest⟩ := bind_eq_ok.mp hrun
    obtain ⟨s₂, flow', hdata, -, hflow⟩ := onCall_eq_ok hcall
    have hiff := onFlowData_alarmed_iff h hdata
    rw [← hflow] at hiff
    constructor
    · intro hall
      have hnext : Alarmed (flowOf s₁ flowKey) :=
        hall [call] s₁ (List.prefix_append [call] calls) (by rw [run_cons, hcall]; rfl)
      refine ⟨hiff.mp hnext, fun s₃ hs₃ => ?_⟩
      rw [hcall] at hs₃
      cases hs₃
      exact (ih hnext hrest).mp ((allAlarmed_cons h hcall).mp hall)
    · rintro ⟨hfirst, hall⟩
      exact (allAlarmed_cons h hcall).mpr ((ih (hiff.mpr hfirst) hrest).mpr (hall s₁ hcall))

/-- Of a run that comes back, every state with three malformed frames in the window has raised the
alarm if and only if no call brings the third of them exactly at the end of the window. -/
theorem run_alarmed (ord : PendingOrder) (flowKey : FlowKey) (threshold : UInt32)
    (calls : List Call) (s : Dnp3Analyzer)
    (hrun : run (onCall ord flowKey) (.new threshold) calls = .ok s) :
    AllAlarmed ord flowKey (.new threshold) calls ↔
      AllTimely ord flowKey (.new threshold) calls := by
  have hnew : Alarmed (flowOf (.new threshold) flowKey) :=
    fun h => absurd h (by decide : ¬ malformedAnomalyThreshold ≤ 0)
  exact run_alarmed_from hnew hrun

/-- A byte, and then `ts` seconds later six headers with a length of zero. -/
def probe (ts : UInt32) : List Call :=
  [⟨[0x05], 0, .clientToServer⟩,
    ⟨[0x64, 0, 5, 0x64, 0, 5, 0x64, 0, 5, 0x64, 0, 5, 0x64, 0, 5, 0x64, 0], ts, .clientToServer⟩]

/-- Before the end of the window the alarm is raised, and at the end two of the headers raise none
and need none. -/
theorem run_alarmed_before_end :
    AllAlarmed keyOrder outstationKey (.new 10) (probe 299) ∧
    AllAlarmed keyOrder outstationKey (.new 10)
      [⟨[0x05], 0, .clientToServer⟩, ⟨[0x64, 0, 5, 0x64, 0], 300, .clientToServer⟩] := by
  constructor
  · refine (run_alarmed keyOrder outstationKey 10 (probe 299) _ rfl).mpr
      ⟨fun _ _ hseeded => absurd hseeded (by decide), fun s' hs' => ?_⟩
    cases hs'
    exact ⟨fun _ _ _ hend => absurd hend (by unfold AtEnd; decide), fun _ _ => trivial⟩
  · refine (run_alarmed keyOrder outstationKey 10 [⟨[0x05], 0, .clientToServer⟩,
      ⟨[0x64, 0, 5, 0x64, 0], 300, .clientToServer⟩] _ rfl).mpr
      ⟨fun _ _ hseeded => absurd hseeded (by decide), fun s' hs' => ?_⟩
    cases hs'
    exact ⟨fun _ _ _ _ _ => by decide, fun _ _ => trivial⟩

/-- At the end of the window the same frames raise no alarm. -/
theorem silent_at_window_end :
    ∃ s, run (onCall keyOrder outstationKey) (.new 10) (probe 300) = .ok s ∧
      (flowOf s outstationKey).malformedInWindow = 4 ∧ ¬ Alarmed (flowOf s outstationKey) :=
  ⟨_, rfl, by decide, by decide⟩

end Wirerust.Dnp3
