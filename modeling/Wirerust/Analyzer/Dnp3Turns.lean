import Wirerust.Analyzer.Dnp3Steps

/-!
The loop of the DNP3 analyzer's `on_data`, turn by turn.

`turn_cases` says what a turn can do: it stops on a carry in which nothing is left to do, it drops
bytes as malformed, or it takes a complete frame off the front. Every turn that is followed by
another one shortens the carry, so the loop ends (`walk_loops`); `walk_keeps` is the rule for
what every turn keeps.
-/

namespace Wirerust.Dnp3

open Lib Wirerust.Flow Wirerust.Analyzer

/-! ## Sync words and lengths -/

theorem isSync_cons_cons (a b : UInt8) (rest : List UInt8) :
    isSync (a :: b :: rest) = decide (a = 0x05 ∧ b = 0x64) := by
  unfold isSync
  split
  · rename_i heq
    cases heq
    rfl
  · rename_i hne
    refine (decide_eq_false fun h => ?_).symm
    exact hne rest (by rw [h.1, h.2])

theorem findSync_spec {xs : List UInt8} {i : Nat} (h : findSync xs = some i) :
    i + 2 ≤ xs.length ∧ isSync (xs.drop i) = true := by
  induction xs generalizing i with
  | nil => cases h
  | cons a xs ih =>
    cases xs with
    | nil => cases h
    | cons b rest =>
      rw [findSync] at h
      by_cases hsync : a = 0x05 ∧ b = 0x64
      · rw [if_pos hsync] at h
        cases h
        refine ⟨by simp, ?_⟩
        rw [List.drop_zero, isSync_cons_cons]
        exact decide_eq_true hsync
      · rw [if_neg hsync] at h
        obtain ⟨j, hj, rfl⟩ := Option.map_eq_some_iff.mp h
        obtain ⟨hlen, hdrop⟩ := ih hj
        refine ⟨?_, hdrop⟩
        rw [List.length_cons]
        omega

/-- A realigned carry is empty or starts with the sync word, and has lost the skipped bytes. -/
theorem resync_spec (skip : Nat) (carry : List UInt8) :
    (resync skip carry = [] ∨ isSync (resync skip carry) = true) ∧
      (resync skip carry).length ≤ carry.length - skip := by
  unfold resync
  cases h : findSync (carry.drop skip) with
  | none => exact ⟨.inl rfl, Nat.zero_le _⟩
  | some i =>
    obtain ⟨-, hsync⟩ := findSync_spec h
    refine ⟨.inr ?_, ?_⟩
    · rw [List.drop_drop] at hsync
      exact hsync
    · rw [List.length_drop]
      omega

theorem frameLen_bounds {length : UInt8} {n : Nat} (h : computeDnp3FrameLen length = some n) :
    5 ≤ length ∧ 10 ≤ n ∧ n ≤ maxDnp3FrameLen := by
  unfold computeDnp3FrameLen at h
  split at h
  · cases h
  · rename_i hlt
    have hle : 5 ≤ length := UInt8.not_lt.mp hlt
    have hnat : 5 ≤ length.toNat := UInt8.le_iff_toNat_le.mp hle
    have hmax := length.toNat_lt
    have hframe : maxDnp3FrameLen = 292 := rfl
    cases h
    refine ⟨hle, ?_, ?_⟩
    · omega
    · omega

/-- A complete frame at the front. -/
def HasFrame (carry : List UInt8) : Prop :=
  isSync carry = true ∧ ∃ n, computeDnp3FrameLen (carry.getD 2 0) = some n ∧ n ≤ carry.length

/-- What a carry is between two calls. -/
structure CarryOk (carry : List UInt8) : Prop where
  length : carry.length < maxDnp3FrameLen
  sync : carry.length ≤ 1 ∨ isSync carry = true
  noFrame : ¬ HasFrame carry

theorem carryOk_of_short {carry : List UInt8} (hlen : carry.length < 10)
    (hsync : carry.length ≤ 1 ∨ isSync carry = true) : CarryOk carry := by
  have hmax : maxDnp3FrameLen = 292 := rfl
  refine ⟨by omega, hsync, ?_⟩
  rintro ⟨-, n, hn, hle⟩
  have hbounds := frameLen_bounds hn
  omega

theorem carryOk_nil : CarryOk [] := carryOk_of_short (by simp) (.inl (by simp))

/-! ## Carries -/

theorem carry_setCarry (flow : Dnp3FlowState) (dir : Direction) (bytes : List UInt8) :
    (flow.setCarry dir bytes).carry dir = bytes := by
  cases dir <;> rfl

theorem carry_setCarry_of_ne (flow : Dnp3FlowState) {dir other : Direction} (bytes : List UInt8)
    (h : other ≠ dir) : (flow.setCarry dir bytes).carry other = flow.carry other := by
  cases dir <;> cases other <;> first | exact absurd rfl h | rfl

/-- An alarm is due. -/
def AlarmDue (c : Delivery) (flow : Dnp3FlowState) : Prop :=
  malformedAnomalyThreshold ≤ flow.malformedInWindow ∧ flow.malformedAnomalyEmitted = false ∧
    saturatingSub c.ts flow.correlationWindowStartTs < correlationWindowSecs

theorem check_of_due {c : Delivery} {flow : Dnp3FlowState} (h : AlarmDue c flow)
    (s : Dnp3Analyzer) : checkMalformedAnomaly c s flow =
      (emit s (malformedFinding c flow), { flow with malformedAnomalyEmitted := true }) := by
  obtain ⟨hcount, hemitted, hwindow⟩ := h
  refine if_pos ?_
  simp only [hemitted, Bool.not_false, Bool.and_true, Bool.and_eq_true, decide_eq_true_eq]
  exact ⟨hcount, hwindow⟩

theorem check_of_not_due {c : Delivery} {flow : Dnp3FlowState} (h : ¬ AlarmDue c flow)
    (s : Dnp3Analyzer) : checkMalformedAnomaly c s flow = (s, flow) := by
  refine if_neg fun hdue => h ?_
  simp only [Bool.and_eq_true, decide_eq_true_eq, Bool.not_eq_true'] at hdue
  exact ⟨hdue.1.1, hdue.1.2, hdue.2⟩

theorem alarmDue_setCarry (c : Delivery) (flow : Dnp3FlowState) (dir : Direction)
    (bytes : List UInt8) : AlarmDue c (flow.setCarry dir bytes) ↔ AlarmDue c flow := by
  cases dir <;> rfl

/-- The check for malformed frames does not look at the carries. -/
theorem check_setCarry (c : Delivery) (s : Dnp3Analyzer) (flow : Dnp3FlowState) (dir : Direction)
    (bytes : List UInt8) :
    checkMalformedAnomaly c s (flow.setCarry dir bytes) =
      ((checkMalformedAnomaly c s flow).1,
        (checkMalformedAnomaly c s flow).2.setCarry dir bytes) := by
  by_cases hdue : AlarmDue c flow
  · rw [check_of_due hdue, check_of_due ((alarmDue_setCarry c flow dir bytes).mpr hdue)]
    cases dir <;> rfl
  · rw [check_of_not_due hdue, check_of_not_due (mt (alarmDue_setCarry c flow dir bytes).mp hdue)]

/-- Bytes dropped as malformed: `rest` stays in the carry. -/
def dropMalformed (c : Delivery) (rest : List UInt8) (s : Dnp3Analyzer) (flow : Dnp3FlowState) :
    Dnp3Analyzer × Dnp3FlowState :=
  checkMalformedAnomaly c s ((countMalformed flow).setCarry c.direction rest)

/-- What is left of the flow when bytes are dropped. -/
theorem dropMalformed_eq (c : Delivery) (rest : List UInt8) (s : Dnp3Analyzer)
    (flow : Dnp3FlowState) : ∃ found emitted, dropMalformed c rest s flow =
      ({ s with findings := found },
        { (countMalformed flow).setCarry c.direction rest with
          malformedAnomalyEmitted := emitted }) := by
  unfold dropMalformed
  by_cases hdue : AlarmDue c ((countMalformed flow).setCarry c.direction rest)
  · exact ⟨_, true, check_of_due hdue s⟩
  · exact ⟨s.findings, _, check_of_not_due hdue s⟩

/-- All but the carry, the two counters and the latch of the alarm. -/
structure Drops (c : Delivery) (rest : List UInt8) (s s' : Dnp3Analyzer)
    (flow flow' : Dnp3FlowState) : Prop where
  carry : flow'.carry c.direction = rest
  other : ∀ dir, dir ≠ c.direction → flow'.carry dir = flow.carry dir
  isNonDnp3 : flow'.isNonDnp3 = flow.isNonDnp3
  parseErrors : flow'.parseErrors = bump64 flow.parseErrors
  counts : SameCounts flow flow'
  pending : flow'.pendingRequests = flow.pendingRequests
  events : events flow' = events flow
  flows : s'.flows = s.flows
  fnCodeCounts : s'.fnCodeCounts = s.fnCodeCounts

theorem dropMalformed_drops (c : Delivery) (rest : List UInt8) (s : Dnp3Analyzer)
    (flow : Dnp3FlowState) :
    Drops c rest s (dropMalformed c rest s flow).1 flow (dropMalformed c rest s flow).2 := by
  obtain ⟨found, emitted, heq⟩ := dropMalformed_eq c rest s flow
  rw [heq]
  have hother : ∀ dir, dir ≠ c.direction →
      ((countMalformed flow).setCarry c.direction rest).carry dir = flow.carry dir :=
    fun dir hdir => carry_setCarry_of_ne (countMalformed flow) rest hdir
  obtain ⟨key, dir, ts⟩ := c
  cases dir with
  | clientToServer =>
    exact ⟨rfl, fun dir hdir => by cases dir <;> exact hother _ hdir, rfl, rfl,
      ⟨rfl, rfl, rfl⟩, rfl, rfl, rfl, rfl⟩
  | serverToClient =>
    exact ⟨rfl, fun dir hdir => by cases dir <;> exact hother _ hdir, rfl, rfl,
      ⟨rfl, rfl, rfl⟩, rfl, rfl, rfl, rfl⟩

/-! ## One turn -/

/-- All that a turn can do. -/
inductive Turned (ord : PendingOrder) (c : Delivery) (s : Dnp3Analyzer) (flow : Dnp3FlowState) :
    Bool → Dnp3Analyzer × Dnp3FlowState → Prop
  | stop (hok : CarryOk (flow.carry c.direction)) : Turned ord c s flow false (s, flow)
  | settle (hlen : (flow.carry c.direction).length < 10)
      (hlong : 2 ≤ (flow.carry c.direction).length) :
      Turned ord c s flow false (dropMalformed c (resync 1 (flow.carry c.direction)) s flow)
  | drop (rest : List UInt8) (hlen : 10 ≤ (flow.carry c.direction).length)
      (hrest : rest.length < (flow.carry c.direction).length) :
      Turned ord c s flow true (dropMalformed c rest s flow)
  | frame (n : Nat) (h : Dnp3DlHeader) (s' : Dnp3Analyzer) (flow' : Dnp3FlowState)
      (hsync : isSync (flow.carry c.direction) = true)
      (hn : computeDnp3FrameLen ((flow.carry c.direction).getD 2 0) = some n)
      (hle : n ≤ (flow.carry c.direction).length)
      (hparse : parseDnp3DlHeader ((flow.carry c.direction).take n) = some h)
      (hframe : processFrame ord c h ((flow.carry c.direction).take n) s flow = .ok (s', flow')) :
      Turned ord c s flow true
        (s', flow'.setCarry c.direction ((flow.carry c.direction).drop n))

theorem settleShort_turned (ord : PendingOrder) (c : Delivery) (did : Bool) (s : Dnp3Analyzer)
    (flow : Dnp3FlowState) (hshort : (flow.carry c.direction).length < 10) :
    Turned ord c s flow false (settleShort c did s flow) := by
  unfold settleShort
  simp only
  by_cases hlong : (flow.carry c.direction).length ≥ 2
  · rw [if_pos hlong]
    cases hsync : isSync (flow.carry c.direction) with
    | false => exact .settle hshort hlong
    | true =>
      simp only [Bool.not_true, Bool.false_eq_true, if_false]
      split
      · exact .settle hshort hlong
      · exact .stop (carryOk_of_short hshort (.inr hsync))
  · rw [if_neg hlong]
    exact .stop (carryOk_of_short hshort (.inl (by omega)))

/-- What is before the carry is at most the longest frame, so a carry that waits for more is
shorter. -/
theorem turn_cases {ord : PendingOrder} {c : Delivery} {did again : Bool} {s : Dnp3Analyzer}
    {flow : Dnp3FlowState} {w : Dnp3Analyzer × Dnp3FlowState}
    (h : turn ord c did s flow = .ok (again, w)) : Turned ord c s flow again w := by
  unfold turn at h
  simp only at h
  by_cases hshort : (flow.carry c.direction).length < 10
  · rw [if_pos hshort] at h
    cases h
    exact settleShort_turned ord c did s flow hshort
  · rw [if_neg hshort] at h
    have hlong : 10 ≤ (flow.carry c.direction).length := Nat.not_lt.mp hshort
    have hresync := (resync_spec 1 (flow.carry c.direction)).2
    cases hsync : isSync (flow.carry c.direction) with
    | false =>
      simp only [hsync, Bool.not_false, if_true] at h
      cases h
      rw [← check_setCarry]
      exact .drop _ hlong (by omega)
    | true =>
      simp only [hsync, Bool.not_true, Bool.false_eq_true, if_false] at h
      cases hn : computeDnp3FrameLen ((flow.carry c.direction).getD 2 0) with
      | none =>
        simp only [hn] at h
        cases h
        exact .drop _ hlong (by omega)
      | some n =>
        simp only [hn] at h
        have hbounds := frameLen_bounds hn
        by_cases hwait : (flow.carry c.direction).length < n
        · rw [if_pos hwait] at h
          cases h
          refine .stop ⟨by omega, .inr hsync, ?_⟩
          rintro ⟨-, m, hm, hle⟩
          rw [hn] at hm
          cases hm
          omega
        · rw [if_neg hwait] at h
          split at h
          · cases h
            refine .drop _ hlong ?_
            rw [List.length_drop]
            omega
          · rename_i header hheader
            obtain ⟨⟨s', flow'⟩, hframe, hout⟩ := bind_eq_ok.mp h
            cases hout
            exact .frame n header s' flow' hsync hn (Nat.not_lt.mp hwait)
              (Option.filter_eq_some_iff.mp hheader).1 hframe

section Turned

variable {ord : PendingOrder} {c : Delivery} {s : Dnp3Analyzer} {flow : Dnp3FlowState}
  {again : Bool} {w : Dnp3Analyzer × Dnp3FlowState}

theorem Turned.shortens (h : Turned ord c s flow true w) :
    (w.2.carry c.direction).length < (flow.carry c.direction).length := by
  cases h with
  | drop rest hlen hrest =>
    rw [(dropMalformed_drops c rest s flow).carry]
    exact hrest
  | frame n header s' flow' hsync hn hle hparse hframe =>
    have hbounds := frameLen_bounds hn
    rw [carry_setCarry, List.length_drop]
    omega

theorem Turned.carryOk (h : Turned ord c s flow false w) : CarryOk (w.2.carry c.direction) := by
  cases h with
  | stop hok => exact hok
  | settle hlen hlong =>
    obtain ⟨hsync, hle⟩ := resync_spec 1 (flow.carry c.direction)
    rw [(dropMalformed_drops c _ s flow).carry]
    refine carryOk_of_short (by omega) ?_
    rcases hsync with hnil | hsync
    · exact .inl (by rw [hnil]; exact Nat.zero_le 1)
    · exact .inr hsync

end Turned

/-! ## The loop -/

/-- The loop, however many turns it takes. -/
inductive Loops (ord : PendingOrder) (c : Delivery) :
    Bool → Dnp3Analyzer → Dnp3FlowState → Dnp3Analyzer × Dnp3FlowState → Prop
  | stop {did : Bool} {s : Dnp3Analyzer} {flow : Dnp3FlowState}
      {w : Dnp3Analyzer × Dnp3FlowState} (h : turn ord c did s flow = .ok (false, w)) :
      Loops ord c did s flow w
  | next {did : Bool} {s s' : Dnp3Analyzer} {flow flow' : Dnp3FlowState}
      {w : Dnp3Analyzer × Dnp3FlowState} (h : turn ord c did s flow = .ok (true, s', flow'))
      (hrest : Loops ord c true s' flow' w) : Loops ord c did s flow w

theorem walk_loops {ord : PendingOrder} {c : Delivery} {turns : Nat} {did : Bool}
    {s : Dnp3Analyzer} {flow : Dnp3FlowState} {w : Dnp3Analyzer × Dnp3FlowState}
    (hlen : (flow.carry c.direction).length < turns)
    (h : walk ord c turns did s flow = .ok w) : Loops ord c did s flow w := by
  induction turns generalizing did s flow with
  | zero => exact absurd hlen (Nat.not_lt_zero _)
  | succ turns ih =>
    rw [walk] at h
    obtain ⟨⟨again, s', flow'⟩, hturn, hrest⟩ := bind_eq_ok.mp h
    cases again with
    | false =>
      cases hrest
      exact .stop hturn
    | true =>
      have hshorter := (turn_cases hturn).shortens
      exact .next hturn (ih (Nat.lt_of_lt_of_le hshorter (Nat.le_of_lt_succ hlen)) hrest)

/-- What every turn keeps, the loop keeps. -/
theorem Loops.keeps {ord : PendingOrder} {c : Delivery} {I : Dnp3Analyzer → Dnp3FlowState → Prop}
    (hturn : ∀ s flow again w, I s flow → Turned ord c s flow again w → I w.1 w.2) {did : Bool}
    {s : Dnp3Analyzer} {flow : Dnp3FlowState} {w : Dnp3Analyzer × Dnp3FlowState}
    (h : Loops ord c did s flow w) (hI : I s flow) : I w.1 w.2 := by
  induction h with
  | stop h => exact hturn _ _ _ _ hI (turn_cases h)
  | next h _ ih => exact ih (hturn _ _ _ _ hI (turn_cases h))

theorem Loops.carryOk {ord : PendingOrder} {c : Delivery} {did : Bool} {s : Dnp3Analyzer}
    {flow : Dnp3FlowState} {w : Dnp3Analyzer × Dnp3FlowState} (h : Loops ord c did s flow w) :
    CarryOk (w.2.carry c.direction) := by
  induction h with
  | stop h => exact (turn_cases h).carryOk
  | next _ _ ih => exact ih

/-! ## One call -/

/-- All that accumulating the data can do. -/
theorem accumulate_cases {c : Delivery} {data : List UInt8} {s : Dnp3Analyzer}
    {flow : Dnp3FlowState} {w : Dnp3Analyzer × Dnp3FlowState}
    (h : accumulate c data s flow = .ok w) :
    ((flow.carry c.direction).length + data.length ≤ maxDnp3FrameLen ∧
      w = (s, flow.setCarry c.direction (flow.carry c.direction ++ data))) ∨
    (maxDnp3FrameLen < (flow.carry c.direction).length + data.length ∧
      (flow.carry c.direction).length ≤ maxDnp3FrameLen ∧
      w = dropMalformed c (resync 0 (flow.carry c.direction ++
        data.take (maxDnp3FrameLen - (flow.carry c.direction).length))) s flow) := by
  unfold accumulate at h
  obtain ⟨room, hroom, h⟩ := bind_eq_ok.mp h
  unfold checkedSub at hroom
  split at hroom
  · rename_i hle
    cases hroom
    split at h
    · rename_i hover
      cases h
      exact .inr ⟨by omega, hle, rfl⟩
    · rename_i hfit
      cases h
      exact .inl ⟨by omega, rfl⟩
  · cases hroom

/-- All that a call can do to its flow. -/
theorem onFlowData_cases {ord : PendingOrder} {c : Delivery} {data : List UInt8}
    {s : Dnp3Analyzer} {flow : Dnp3FlowState} {w : Dnp3Analyzer × Dnp3FlowState}
    (h : onFlowData ord c data s flow = .ok w) :
    (flow.isNonDnp3 = true ∧ w = (s, flow)) ∨
    (flow.isNonDnp3 = false ∧ desynced flow data = true ∧
      w = (s, { flow with isNonDnp3 := true })) ∨
    (flow.isNonDnp3 = false ∧ desynced flow data = false ∧ ∃ s₁ flow₁ s₂ flow₂,
      scanBlockTimeouts c s (maybeExpireCorrelationWindow flow c.ts) = .ok (s₁, flow₁) ∧
      accumulate c data s₁ flow₁ = .ok (s₂, flow₂) ∧ Loops ord c false s₂ flow₂ w) := by
  unfold onFlowData at h
  cases hlatch : flow.isNonDnp3 with
  | true =>
    rw [if_pos hlatch] at h
    cases h
    exact .inl ⟨rfl, rfl⟩
  | false =>
    rw [if_neg (by simp [hlatch])] at h
    cases hdesync : desynced flow data with
    | true =>
      rw [if_pos hdesync] at h
      cases h
      exact .inr (.inl ⟨rfl, rfl, rfl⟩)
    | false =>
      rw [if_neg (by simp [hdesync])] at h
      obtain ⟨⟨s₁, flow₁⟩, hscan, h⟩ := bind_eq_ok.mp h
      obtain ⟨⟨s₂, flow₂⟩, haccumulate, h⟩ := bind_eq_ok.mp h
      exact .inr (.inr ⟨rfl, rfl, s₁, flow₁, s₂, flow₂, hscan, haccumulate,
        walk_loops (Nat.lt_succ_self _) h⟩)

theorem Turned.flows {ord : PendingOrder} {c : Delivery} {s : Dnp3Analyzer} {flow : Dnp3FlowState}
    {again : Bool} {w : Dnp3Analyzer × Dnp3FlowState} (h : Turned ord c s flow again w) :
    w.1.flows = s.flows := by
  cases h with
  | stop hok => rfl
  | settle hlen hlong => exact (dropMalformed_drops c _ s flow).flows
  | drop rest hlen hrest => exact (dropMalformed_drops c rest s flow).flows
  | frame n header s' flow' hsync hn hle hparse hframe => exact (processFrame_step hframe).flows

theorem onFlowData_flows {ord : PendingOrder} {c : Delivery} {data : List UInt8}
    {s : Dnp3Analyzer} {flow : Dnp3FlowState} {w : Dnp3Analyzer × Dnp3FlowState}
    (h : onFlowData ord c data s flow = .ok w) : w.1.flows = s.flows := by
  rcases onFlowData_cases h with ⟨-, rfl⟩ | ⟨-, -, rfl⟩ |
    ⟨-, -, s₁, flow₁, s₂, flow₂, hscan, hacc, hloop⟩
  · rfl
  · rfl
  · have hscanned : s₁.flows = s.flows := (scanBlockTimeouts_detects hscan).flows
    have htaken : s₂.flows = s₁.flows := by
      rcases accumulate_cases hacc with ⟨-, hw⟩ | ⟨-, -, hw⟩
      · cases hw
        rfl
      · rw [Prod.mk.injEq] at hw
        rw [hw.1]
        exact (dropMalformed_drops c _ s₁ flow₁).flows
    exact hloop.keeps (I := fun s' _ => s'.flows = s.flows)
      (fun _ _ _ _ hI hturned => hturned.flows.trans hI) (htaken.trans hscanned)

/-- Only the entry of the flow itself changes. -/
theorem onData_flows {ord : PendingOrder} {s s' : Dnp3Analyzer} {flowKey : FlowKey}
    {data : List UInt8} {ts : UInt32} {direction : Direction}
    (h : onData ord s flowKey data ts direction = .ok s') :
    ∃ flow, s'.flows = s.flows.insert flowKey flow := by
  obtain ⟨⟨s₁, flow₁⟩, hdata, hout⟩ := bind_eq_ok.mp h
  cases hout
  exact ⟨flow₁, by rw [← onFlowData_flows hdata]⟩

end Wirerust.Dnp3
