import Wirerust.Analyzer.Modbus

/-!
What one PDU does to the Modbus analyzer.

`processPdu_step` says it in one place: the counters, the findings and the pending requests
change as the PDU asks, and nothing the framing rests on (the carries, the latch, the table of
flows) changes at all. `processPdu_returns` says when no counter runs over.
-/

namespace Wirerust.Modbus

open Lib Wirerust.Flow Wirerust.Analyzer

/-- The fields that belong to `on_data` and to the counters of every PDU. -/
structure Untouched (s s' : ModbusAnalyzer) (flow flow' : ModbusFlowState) : Prop where
  flows : s'.flows = s.flows
  parseErrors : s'.parseErrors = s.parseErrors
  fnCodeCounts : s'.fnCodeCounts = s.fnCodeCounts
  totalPduCount : s'.totalPduCount = s.totalPduCount
  findings : s'.findings = s.findings
  isNonModbus : flow'.isNonModbus = flow.isNonModbus
  carryC2s : flow'.carryC2s = flow.carryC2s
  carryS2c : flow'.carryS2c = flow.carryS2c

/-- The fields about pending requests. -/
structure SameTxns (s s' : ModbusAnalyzer) (flow flow' : ModbusFlowState) : Prop where
  pending : flow'.pending = flow.pending
  duplicateInflightTxn : s'.duplicateInflightTxn = s.duplicateInflightTxn
  droppedTransactions : s'.droppedTransactions = s.droppedTransactions

theorem Untouched.trans {s₁ s₂ s₃ : ModbusAnalyzer} {f₁ f₂ f₃ : ModbusFlowState}
    (h : Untouched s₁ s₂ f₁ f₂) (h' : Untouched s₂ s₃ f₂ f₃) : Untouched s₁ s₃ f₁ f₃ where
  flows := h'.flows.trans h.flows
  parseErrors := h'.parseErrors.trans h.parseErrors
  fnCodeCounts := h'.fnCodeCounts.trans h.fnCodeCounts
  totalPduCount := h'.totalPduCount.trans h.totalPduCount
  findings := h'.findings.trans h.findings
  isNonModbus := h'.isNonModbus.trans h.isNonModbus
  carryC2s := h'.carryC2s.trans h.carryC2s
  carryS2c := h'.carryS2c.trans h.carryS2c

theorem SameTxns.trans {s₁ s₂ s₃ : ModbusAnalyzer} {f₁ f₂ f₃ : ModbusFlowState}
    (h : SameTxns s₁ s₂ f₁ f₂) (h' : SameTxns s₂ s₃ f₂ f₃) : SameTxns s₁ s₃ f₁ f₃ where
  pending := h'.pending.trans h.pending
  duplicateInflightTxn := h'.duplicateInflightTxn.trans h.duplicateInflightTxn
  droppedTransactions := h'.droppedTransactions.trans h.droppedTransactions

/-- Neither group of fields has changed, nor have the windows of the exceptions. -/
structure Windows (s s' : ModbusAnalyzer) (flow flow' : ModbusFlowState) : Prop where
  untouched : Untouched s s' flow flow'
  txns : SameTxns s s' flow flow'
  counts : flow'.exceptionWindowCounts = flow.exceptionWindowCounts

theorem Windows.trans {s₁ s₂ s₃ : ModbusAnalyzer} {f₁ f₂ f₃ : ModbusFlowState}
    (h : Windows s₁ s₂ f₁ f₂) (h' : Windows s₂ s₃ f₂ f₃) : Windows s₁ s₃ f₁ f₃ :=
  ⟨h.untouched.trans h'.untouched, h.txns.trans h'.txns, h'.counts.trans h.counts⟩

/-! ## Writes -/

theorem coordinatedWrite_windows (s : ModbusAnalyzer) (flow : ModbusFlowState) (p : Pdu) :
    Windows s s flow (coordinatedWrite flow p).1 := by
  unfold coordinatedWrite
  split
  · split
    · constructor <;> constructor <;> rfl
    · simp only
      split <;> constructor <;> constructor <;> rfl
  · constructor <;> constructor <;> rfl

theorem writeBurst_windows (s : ModbusAnalyzer) (threshold : UInt32) (flow : ModbusFlowState)
    (p : Pdu) : Windows s s flow (writeBurst threshold flow p).1 := by
  unfold writeBurst
  split
  · constructor <;> constructor <;> rfl
  · simp only
    split <;> constructor <;> constructor <;> rfl

theorem sustainedBurst_windows (s : ModbusAnalyzer) (threshold : UInt32) (flow : ModbusFlowState)
    (p : Pdu) : Windows s s flow (sustainedBurst threshold flow p).1 := by
  unfold sustainedBurst
  split
  · constructor <;> constructor <;> rfl
  · simp only
    split <;> split <;> constructor <;> constructor <;> rfl

theorem processWrite_windows (s : ModbusAnalyzer) (flow : ModbusFlowState) (p : Pdu) :
    Windows s (processWrite s flow p).1 flow (processWrite s flow p).2.1 := by
  have hcount : Windows s { s with totalWriteCount := bump64 s.totalWriteCount } flow
      { flow with writeCount := bump64 flow.writeCount } := by
    constructor <;> constructor <;> rfl
  unfold processWrite
  generalize { s with totalWriteCount := bump64 s.totalWriteCount } = s₁ at hcount ⊢
  generalize { flow with writeCount := bump64 flow.writeCount } = flow₁ at hcount ⊢
  have hcoord := coordinatedWrite_windows s₁ flow₁ p
  have hburst := writeBurst_windows s₁ s₁.writeBurstThreshold (coordinatedWrite flow₁ p).1 p
  exact ((hcount.trans hcoord).trans hburst).trans
    (sustainedBurst_windows s₁ s₁.writeSustainedThreshold _ p)

/-! ## Requests and responses -/

/-- The key of the PDU's transaction in the table. -/
abbrev Pdu.txnKey (p : Pdu) : TxnKey := toLex (p.header.transactionId, p.header.unitId)

/-- Requests go into the table; an exception is never one. -/
def Pdu.isRequest (p : Pdu) : Bool :=
  p.direction = .clientToServer && classifyFc p.fc ≠ .exception

/-- A response takes its request out of the table; an exception does so only if it is about the
same function. -/
def Pdu.closes (p : Pdu) (flow : ModbusFlowState) : Bool :=
  match p.direction, flow.pending.get? p.txnKey with
  | .serverToClient, some (storedFc, _) =>
    classifyFc p.fc ≠ .exception || storedFc = p.fc &&& 0x7f
  | _, _ => false

/-- The requests that are still pending or have been counted as lost. -/
def txns (s : ModbusAnalyzer) (flow : ModbusFlowState) : Nat :=
  flow.pending.size + s.duplicateInflightTxn + s.droppedTransactions

/-- The two counters of lost requests have not stopped. -/
def TxnsBelow (s : ModbusAnalyzer) : Prop :=
  s.duplicateInflightTxn < 2 ^ 64 - 1 ∧ s.droppedTransactions < 2 ^ 64 - 1

/-- One PDU's part in the pending requests: `opened` of them came, `closed` of them went. -/
structure Balances (opened closed : Nat) (s s' : ModbusAnalyzer) (flow flow' : ModbusFlowState) :
    Prop where
  below : TxnsBelow s' → TxnsBelow s
  total : TxnsBelow s' → txns s' flow' + closed = txns s flow + opened
  size : flow.pending.size ≤ maxPendingTransactions →
    flow'.pending.size ≤ maxPendingTransactions

theorem SameTxns.balances {s s' : ModbusAnalyzer} {flow flow' : ModbusFlowState}
    (h : SameTxns s s' flow flow') : Balances 0 0 s s' flow flow' := by
  refine ⟨?_, ?_, ?_⟩
  · rw [TxnsBelow, TxnsBelow, h.duplicateInflightTxn, h.droppedTransactions]
    exact id
  · intro _
    rw [txns, txns, h.pending, h.duplicateInflightTxn, h.droppedTransactions]
  · rw [h.pending]
    exact id

theorem Balances.trans {o₁ c₁ o₂ c₂ : Nat} {s₁ s₂ s₃ : ModbusAnalyzer}
    {f₁ f₂ f₃ : ModbusFlowState} (h : Balances o₁ c₁ s₁ s₂ f₁ f₂)
    (h' : Balances o₂ c₂ s₂ s₃ f₂ f₃) : Balances (o₁ + o₂) (c₁ + c₂) s₁ s₃ f₁ f₃ := by
  refine ⟨fun hb => h.below (h'.below hb), fun hb => ?_, fun hs => h'.size (h.size hs)⟩
  have h₁ := h.total (h'.below hb)
  have h₂ := h'.total hb
  omega

theorem bump64_below {n : Nat} (h : bump64 n < 2 ^ 64 - 1) : bump64 n = n + 1 := by
  simp only [bump64, saturatingInc] at *
  omega

section Register

variable {s : ModbusAnalyzer} {flow : ModbusFlowState} {p : Pdu}

theorem registerRequest_of_some {old : UInt8 × UInt32} (hfc : classifyFc p.fc ≠ .exception)
    (hget : flow.pending.get? p.txnKey = some old) :
    registerRequest s flow p =
      ({ s with duplicateInflightTxn := bump64 s.duplicateInflightTxn },
       { flow with pending := flow.pending.insert p.txnKey (p.fc, p.timestamp) }) := by
  simp [registerRequest, ModbusFlowState.insertRequest, hfc, hget]

theorem registerRequest_of_full (hfc : classifyFc p.fc ≠ .exception)
    (hget : flow.pending.get? p.txnKey = none)
    (hfull : maxPendingTransactions ≤ flow.pending.size) :
    registerRequest s flow p =
      ({ s with droppedTransactions := bump64 s.droppedTransactions }, flow) := by
  simp [registerRequest, ModbusFlowState.insertRequest, hfc, hget, hfull]

theorem registerRequest_of_room (hfc : classifyFc p.fc ≠ .exception)
    (hget : flow.pending.get? p.txnKey = none)
    (hroom : ¬ maxPendingTransactions ≤ flow.pending.size) :
    registerRequest s flow p =
      (s, { flow with pending := flow.pending.insert p.txnKey (p.fc, p.timestamp) }) := by
  simp [registerRequest, ModbusFlowState.insertRequest, hfc, hget, hroom]

/-- A request is stored, takes the place of another one, or is dropped. -/
theorem registerRequest_balances (hfc : classifyFc p.fc ≠ .exception) :
    Balances 1 0 s (registerRequest s flow p).1 flow (registerRequest s flow p).2 := by
  cases hget : flow.pending.get? p.txnKey with
  | some old =>
    have hsize := flow.pending.size_insert_of_some (p.fc, p.timestamp) hget
    rw [registerRequest_of_some hfc hget]
    refine ⟨fun hb => ?_, fun hb => ?_, fun hle => ?_⟩
    · have hinc := bump64_below hb.1
      have hlt : bump64 s.duplicateInflightTxn < 2 ^ 64 - 1 := hb.1
      exact ⟨by omega, hb.2⟩
    · have hinc := bump64_below hb.1
      simp only [txns, hsize, hinc]
      omega
    · exact hsize.trans_le hle
  | none =>
    by_cases hfull : maxPendingTransactions ≤ flow.pending.size
    · rw [registerRequest_of_full hfc hget hfull]
      refine ⟨fun hb => ?_, fun hb => ?_, id⟩
      · have hinc := bump64_below hb.2
        have hlt : bump64 s.droppedTransactions < 2 ^ 64 - 1 := hb.2
        exact ⟨hb.1, by omega⟩
      · have hinc := bump64_below hb.2
        simp only [txns, hinc]
        omega
    · have hsize := flow.pending.size_insert_of_none (p.fc, p.timestamp) hget
      rw [registerRequest_of_room hfc hget hfull]
      refine ⟨id, fun _ => ?_, fun _ => ?_⟩
      · simp only [txns, hsize]
        omega
      · simp only [hsize]
        omega

variable (s flow p) in
theorem registerRequest_untouched :
    Untouched s (registerRequest s flow p).1 flow (registerRequest s flow p).2 ∧
      (registerRequest s flow p).2.exceptionWindowCounts = flow.exceptionWindowCounts := by
  by_cases hfc : classifyFc p.fc ≠ .exception
  · cases hget : flow.pending.get? p.txnKey with
    | some old =>
      rw [registerRequest_of_some hfc hget]
      exact ⟨⟨rfl, rfl, rfl, rfl, rfl, rfl, rfl, rfl⟩, rfl⟩
    | none =>
      by_cases hfull : maxPendingTransactions ≤ flow.pending.size
      · rw [registerRequest_of_full hfc hget hfull]
        exact ⟨⟨rfl, rfl, rfl, rfl, rfl, rfl, rfl, rfl⟩, rfl⟩
      · rw [registerRequest_of_room hfc hget hfull]
        exact ⟨⟨rfl, rfl, rfl, rfl, rfl, rfl, rfl, rfl⟩, rfl⟩
  · rw [registerRequest, if_neg hfc]
    exact ⟨⟨rfl, rfl, rfl, rfl, rfl, rfl, rfl, rfl⟩, rfl⟩

end Register

theorem processRequest_spec (s : ModbusAnalyzer) (flow : ModbusFlowState) (p : Pdu) :
    let r := processRequest s flow p
    Untouched s r.1 flow r.2.1 ∧ r.2.1.exceptionWindowCounts = flow.exceptionWindowCounts ∧
      Balances (if classifyFc p.fc ≠ .exception then 1 else 0) 0 s r.1 flow r.2.1 := by
  obtain ⟨hkept, hcounts⟩ := registerRequest_untouched s flow p
  have hbal : Balances (if classifyFc p.fc ≠ .exception then 1 else 0) 0 s
      (registerRequest s flow p).1 flow (registerRequest s flow p).2 := by
    by_cases hfc : classifyFc p.fc ≠ .exception
    · rw [if_pos hfc]
      exact registerRequest_balances hfc
    · rw [if_neg hfc, registerRequest, if_neg hfc]
      exact SameTxns.balances ⟨rfl, rfl, rfl⟩
  unfold processRequest
  generalize registerRequest s flow p = r at hkept hcounts hbal ⊢
  obtain ⟨s₁, flow₁⟩ := r
  simp only at hkept hcounts hbal ⊢
  cases hc : classifyFc p.fc with
  | write =>
    have hw := processWrite_windows s₁ flow₁ p
    rw [hc] at hbal
    exact ⟨hkept.trans hw.untouched, hw.counts.trans hcounts, hbal.trans hw.txns.balances⟩
  | _ =>
    rw [hc] at hbal
    exact ⟨hkept, hcounts, hbal⟩

/-- The pending request that the exception is about, if it is about the same function. -/
def Pdu.attributed (p : Pdu) (flow : ModbusFlowState) : Bool :=
  match flow.pending.get? p.txnKey with
  | some (storedFc, _) => storedFc = p.fc &&& 0x7f
  | none => false

theorem attributeException_fst (flow : ModbusFlowState) (p : Pdu) :
    (flow.attributeException p.header.transactionId p.header.unitId p.fc).1 =
      if p.attributed flow then { flow with pending := flow.pending.erase p.txnKey }
      else flow := by
  cases hget : flow.pending.get? p.txnKey with
  | none => simp [Pdu.attributed, ModbusFlowState.attributeException, hget]
  | some old =>
    by_cases hfc : old.1 = p.fc &&& 0x7f
    · simp [Pdu.attributed, ModbusFlowState.attributeException, hget, hfc]
    · simp [Pdu.attributed, ModbusFlowState.attributeException, hget, hfc]

/-- A request that is taken out of the table. -/
theorem erase_balances (s : ModbusAnalyzer) (flow : ModbusFlowState) (key : TxnKey) :
    Balances 0 (if (flow.pending.get? key).isSome then 1 else 0) s s flow
      { flow with pending := flow.pending.erase key } := by
  refine ⟨id, fun _ => ?_, fun hle => (flow.pending.size_erase_le key).trans hle⟩
  simp only [txns]
  cases hget : flow.pending.get? key with
  | none =>
    rw [flow.pending.erase_of_none hget]
    rfl
  | some old =>
    have hsize := flow.pending.size_erase_of_some hget
    simp only [Option.isSome_some, if_true]
    omega

theorem attributeException_balances (s : ModbusAnalyzer) (flow : ModbusFlowState) (p : Pdu) :
    Balances 0 (if p.attributed flow then 1 else 0) s s flow
      (flow.attributeException p.header.transactionId p.header.unitId p.fc).1 := by
  rw [attributeException_fst]
  by_cases hattr : p.attributed flow = true
  · have hsome : (flow.pending.get? p.txnKey).isSome = true := by
      unfold Pdu.attributed at hattr
      split at hattr
      · rename_i heq
        rw [heq]
        rfl
      · cases hattr
    have h := erase_balances s flow p.txnKey
    rw [if_pos hsome] at h
    rw [if_pos hattr, if_pos hattr]
    exact h
  · rw [if_neg hattr, if_neg hattr]
    exact SameTxns.balances ⟨rfl, rfl, rfl⟩

theorem attributeException_untouched (s : ModbusAnalyzer) (flow : ModbusFlowState) (p : Pdu) :
    let flow' := (flow.attributeException p.header.transactionId p.header.unitId p.fc).1
    Untouched s s flow flow' ∧ flow'.exceptionWindowCounts = flow.exceptionWindowCounts := by
  simp only [attributeException_fst]
  split
  · exact ⟨⟨rfl, rfl, rfl, rfl, rfl, rfl, rfl, rfl⟩, rfl⟩
  · exact ⟨⟨rfl, rfl, rfl, rfl, rfl, rfl, rfl, rfl⟩, rfl⟩

/-- No window of exceptions has counted more than `n` of them. -/
abbrev WindowsLe (n : Nat) (flow : ModbusFlowState) : Prop :=
  CountsLe n flow.exceptionWindowCounts

theorem exceptionBurst_spec {s : ModbusAnalyzer} {flow flow' : ModbusFlowState} {p : Pdu}
    {found : List Finding} (h : exceptionBurst flow p = .ok (flow', found)) :
    Untouched s s flow flow' ∧ SameTxns s s flow flow' ∧
      ∀ n, WindowsLe n flow → WindowsLe (n + 1) flow' := by
  unfold exceptionBurst at h
  simp only at h
  split at h
  · cases h
    refine ⟨⟨rfl, rfl, rfl, rfl, rfl, rfl, rfl, rfl⟩, ⟨rfl, rfl, rfl⟩, fun n hn => ?_⟩
    exact hn.insert _ (Nat.le_add_left 1 n)
  · obtain ⟨⟨counts, count⟩, hcount, h⟩ := bind_eq_ok.mp h
    simp only at h
    split at h
    · cases h
      exact ⟨⟨rfl, rfl, rfl, rfl, rfl, rfl, rfl, rfl⟩, ⟨rfl, rfl, rfl⟩,
        fun n hn => CountsLe.countEntry hn hcount⟩
    · cases h
      exact ⟨⟨rfl, rfl, rfl, rfl, rfl, rfl, rfl, rfl⟩, ⟨rfl, rfl, rfl⟩,
        fun n hn => CountsLe.countEntry hn hcount⟩

theorem exceptionBurst_returns {n : Nat} {flow : ModbusFlowState} (hle : WindowsLe n flow)
    (hn : n + 1 < 2 ^ 32) (p : Pdu) : ∃ r, exceptionBurst flow p = .ok r := by
  unfold exceptionBurst
  simp only
  split
  · exact ⟨_, rfl⟩
  · obtain ⟨r, hr⟩ := countEntry_returns hle hn (p.data[8]?.getD 0xff)
    rw [hr]
    simp only [Bind.bind, Except.bind]
    split
    · exact ⟨_, rfl⟩
    · exact ⟨_, rfl⟩

theorem closes_eq {flow : ModbusFlowState} {p : Pdu} (hdir : p.direction = .serverToClient) :
    p.closes flow = if classifyFc p.fc = .exception then p.attributed flow
      else (flow.pending.get? p.txnKey).isSome := by
  cases hget : flow.pending.get? p.txnKey with
  | none => simp [Pdu.closes, Pdu.attributed, hdir, hget]
  | some old =>
    by_cases hfc : classifyFc p.fc = .exception
    · simp [Pdu.closes, Pdu.attributed, hdir, hget, hfc]
    · simp [Pdu.closes, hdir, hget, hfc]

/-- The state in which an exception is counted. -/
def exceptionFlow (flow : ModbusFlowState) (p : Pdu) : ModbusFlowState :=
  ({ flow with exceptionCount := bump64 flow.exceptionCount }.attributeException
    p.header.transactionId p.header.unitId p.fc).1

theorem processResponse_of_exception (s : ModbusAnalyzer) (flow : ModbusFlowState) {p : Pdu}
    (hfc : classifyFc p.fc = .exception) :
    processResponse s flow p = exceptionBurst (exceptionFlow flow p) p >>= fun r =>
      .ok ({ s with totalExceptionCount := bump64 s.totalExceptionCount }, r.1, r.2) := by
  rw [processResponse, if_pos hfc]
  rfl

theorem exceptionFlow_spec (s : ModbusAnalyzer) (flow : ModbusFlowState) (p : Pdu) :
    let s' := { s with totalExceptionCount := bump64 s.totalExceptionCount }
    Untouched s s' flow (exceptionFlow flow p) ∧
      (exceptionFlow flow p).exceptionWindowCounts = flow.exceptionWindowCounts ∧
      Balances 0 (if p.attributed flow then 1 else 0) s s' flow (exceptionFlow flow p) := by
  have hcount : Windows s { s with totalExceptionCount := bump64 s.totalExceptionCount } flow
      { flow with exceptionCount := bump64 flow.exceptionCount } := by
    constructor <;> constructor <;> rfl
  obtain ⟨hkept, hwin⟩ := attributeException_untouched
    { s with totalExceptionCount := bump64 s.totalExceptionCount }
    { flow with exceptionCount := bump64 flow.exceptionCount } p
  have hbal := attributeException_balances
    { s with totalExceptionCount := bump64 s.totalExceptionCount }
    { flow with exceptionCount := bump64 flow.exceptionCount } p
  refine ⟨hcount.untouched.trans hkept, hwin.trans hcount.counts, ?_⟩
  have h := hcount.txns.balances.trans hbal
  rw [Nat.zero_add, Nat.zero_add] at h
  exact h

theorem processResponse_spec {s s' : ModbusAnalyzer} {flow flow' : ModbusFlowState} {p : Pdu}
    {found : List Finding} (hdir : p.direction = .serverToClient)
    (h : processResponse s flow p = .ok (s', flow', found)) :
    Untouched s s' flow flow' ∧ (∀ n, WindowsLe n flow → WindowsLe (n + 1) flow') ∧
      Balances 0 (if p.closes flow then 1 else 0) s s' flow flow' := by
  rw [closes_eq hdir]
  by_cases hfc : classifyFc p.fc = .exception
  · rw [processResponse_of_exception s flow hfc] at h
    rw [if_pos hfc]
    obtain ⟨⟨flow₂, found₂⟩, hburst, hout⟩ := bind_eq_ok.mp h
    cases hout
    obtain ⟨hkept, hwin, hbal⟩ := exceptionFlow_spec s flow p
    obtain ⟨hkept', htxns', hle⟩ := exceptionBurst_spec hburst
    refine ⟨hkept.trans hkept', fun n hn => hle n ?_, hbal.trans htxns'.balances⟩
    rw [WindowsLe, hwin]
    exact hn
  · rw [processResponse, if_neg hfc] at h
    rw [if_neg hfc]
    cases h
    exact ⟨⟨rfl, rfl, rfl, rfl, rfl, rfl, rfl, rfl⟩,
      fun n hn key => Nat.le_succ_of_le (hn key), erase_balances s flow p.txnKey⟩

theorem processResponse_returns {n : Nat} {flow : ModbusFlowState} (hle : WindowsLe n flow)
    (hn : n + 1 < 2 ^ 32) (s : ModbusAnalyzer) (p : Pdu) :
    ∃ r, processResponse s flow p = .ok r := by
  by_cases hfc : classifyFc p.fc = .exception
  · have hwin := (exceptionFlow_spec s flow p).2.1
    obtain ⟨r, hr⟩ := exceptionBurst_returns (by rw [WindowsLe, hwin]; exact hle) hn p
    rw [processResponse_of_exception s flow hfc, hr]
    exact ⟨_, rfl⟩
  · rw [processResponse, if_neg hfc]
    exact ⟨_, rfl⟩

/-! ## The whole PDU -/

/-- What one PDU does. -/
structure PduStep (s s' : ModbusAnalyzer) (flow flow' : ModbusFlowState) (p : Pdu)
    (found : List Finding) : Prop where
  flows : s'.flows = s.flows
  parseErrors : s'.parseErrors = s.parseErrors
  isNonModbus : flow'.isNonModbus = flow.isNonModbus
  carryC2s : flow'.carryC2s = flow.carryC2s
  carryS2c : flow'.carryS2c = flow.carryS2c
  totalPduCount : s'.totalPduCount = bump64 s.totalPduCount
  countsTotal : countsTotal s'.fnCodeCounts = countsTotal s.fnCodeCounts + 1
  findings : s'.findings = found.foldl pushFinding s.findings
  txns : Balances (if p.isRequest then 1 else 0) (if p.closes flow then 1 else 0) s s' flow flow'
  countsLe : ∀ n, CountsLe n s.fnCodeCounts → CountsLe (n + 1) s'.fnCodeCounts
  windowsLe : ∀ n, WindowsLe n flow → WindowsLe (n + 1) flow'

/-- The counters of the flow that every PDU changes. -/
def countedFlow (flow : ModbusFlowState) (p : Pdu) : ModbusFlowState :=
  { flow with pduCount := bump64 flow.pduCount, lastTs := p.timestamp }

theorem countPdu_eq (s : ModbusAnalyzer) (flow : ModbusFlowState) (p : Pdu) :
    ∃ n, countPdu s flow p = countEntry 64 s.fnCodeCounts p.fc >>= fun r =>
      .ok ({ s with
        totalFlowsAnalyzed := n
        totalPduCount := bump64 s.totalPduCount
        fnCodeCounts := r.1 }, countedFlow flow p) := by
  unfold countPdu
  by_cases hzero : flow.pduCount = 0
  · exact ⟨bump64 s.totalFlowsAnalyzed, by simp only [if_pos hzero]; rfl⟩
  · exact ⟨s.totalFlowsAnalyzed, by simp only [if_neg hzero]; rfl⟩

theorem processDirected_spec {s s' : ModbusAnalyzer} {flow flow' : ModbusFlowState} {p : Pdu}
    {new : List Finding} (h : processDirected s flow p = .ok (s', flow', new)) :
    Untouched s s' flow flow' ∧ (∀ n, WindowsLe n flow → WindowsLe (n + 1) flow') ∧
      Balances (if p.isRequest then 1 else 0) (if p.closes flow then 1 else 0) s s' flow flow' := by
  unfold processDirected at h
  cases hdir : p.direction with
  | clientToServer =>
    rw [hdir] at h
    obtain ⟨hkept, hwin, hbal⟩ := processRequest_spec s flow p
    have hcloses : p.closes flow = false := by simp [Pdu.closes, hdir]
    have hreq : p.isRequest = decide (classifyFc p.fc ≠ .exception) := by
      simp [Pdu.isRequest, hdir]
    rw [Except.ok.inj h] at hkept hwin hbal
    refine ⟨hkept, fun n hn key => ?_, ?_⟩
    · rw [hwin]
      exact Nat.le_succ_of_le (hn key)
    · rw [hcloses, hreq]
      simpa using hbal
  | serverToClient =>
    rw [hdir] at h
    have hreq : p.isRequest = false := by simp [Pdu.isRequest, hdir]
    rw [hreq]
    exact processResponse_spec hdir h

theorem processPdu_step {s s' : ModbusAnalyzer} {flow flow' : ModbusFlowState} {p : Pdu}
    {found : List Finding} (h : processPdu s flow p = .ok (s', flow', found)) :
    PduStep s s' flow flow' p found := by
  unfold processPdu at h
  obtain ⟨⟨s₁, flow₁⟩, hcount, h⟩ := bind_eq_ok.mp h
  obtain ⟨⟨s₂, flow₂, new⟩, hbody, hout⟩ := bind_eq_ok.mp h
  obtain ⟨m, hcountEq⟩ := countPdu_eq s flow p
  obtain ⟨⟨counts, n⟩, hentry, hcounted⟩ := bind_eq_ok.mp (hcountEq.symm.trans hcount)
  cases hcounted
  cases hout
  obtain ⟨hkept, hwin, hbal⟩ := processDirected_spec hbody
  exact {
    flows := hkept.flows
    parseErrors := hkept.parseErrors
    isNonModbus := hkept.isNonModbus
    carryC2s := hkept.carryC2s
    carryS2c := hkept.carryS2c
    totalPduCount := hkept.totalPduCount
    countsTotal := by
      rw [hkept.fnCodeCounts]
      exact countsTotal_countEntry hentry
    findings := by rw [hkept.findings]
    txns := ⟨hbal.below, hbal.total, hbal.size⟩
    countsLe := fun k hk => by
      rw [hkept.fnCodeCounts]
      exact hk.countEntry hentry
    windowsLe := hwin }

/-- No counter of the flow or of the function codes runs over while all are below `n`. -/
theorem processPdu_returns {n : Nat} {s : ModbusAnalyzer} {flow : ModbusFlowState}
    (hcounts : CountsLe n s.fnCodeCounts) (hwindows : WindowsLe n flow) (hn : n + 1 < 2 ^ 32)
    (p : Pdu) : ∃ r, processPdu s flow p = .ok r := by
  obtain ⟨m, hcountEq⟩ := countPdu_eq s flow p
  obtain ⟨r, hr⟩ := countEntry_returns (w := 64) hcounts (by omega) p.fc
  rw [hr] at hcountEq
  have hwindows' : WindowsLe n (countedFlow flow p) := hwindows
  have hbody : ∀ s', ∃ r', processDirected s' (countedFlow flow p) p = .ok r' := by
    intro s'
    unfold processDirected
    cases p.direction with
    | clientToServer => exact ⟨_, rfl⟩
    | serverToClient => exact processResponse_returns hwindows' hn s' p
  obtain ⟨r', hr'⟩ := hbody _
  exact ⟨_, bind_eq_ok.mpr ⟨_, hcountEq, bind_eq_ok.mpr ⟨r', hr', rfl⟩⟩⟩

end Wirerust.Modbus
