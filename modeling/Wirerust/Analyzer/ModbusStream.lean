import Wirerust.Lib.Framing
import Wirerust.Analyzer.ModbusPdu

/-!
The Modbus analyzer does not see how its stream has been cut.

The loop of `on_data` takes ADUs off the front of the data: `walk_eq` says that it processes the
frames of `Framer.split` one after the other, and then keeps the rest in the carry or latches.
From that and `split_append`, `onData_append` follows for every state of the analyzer.
-/

namespace Wirerust.Modbus

open Lib Wirerust.Flow Wirerust.Analyzer

/-! ## ADUs as frames -/

theorem parseMbapHeader_eq_none {xs : List UInt8} (h : parseMbapHeader xs = none) :
    xs.length < 8 := by
  unfold parseMbapHeader at h
  split at h
  · cases h
  · rename_i hshort
    rcases xs with
      _ | ⟨b0, _ | ⟨b1, _ | ⟨b2, _ | ⟨b3, _ | ⟨b4, _ | ⟨b5, _ | ⟨b6, _ | ⟨b7, xs⟩⟩⟩⟩⟩⟩⟩⟩
    case cons.cons.cons.cons.cons.cons.cons.cons =>
      exact absurd rfl (hshort b0 b1 b2 b3 b4 b5 b6 b7 xs)
    all_goals simp

theorem parseMbapHeader_append {xs : List UInt8} {header : MbapHeader} (ys : List UInt8)
    (h : parseMbapHeader xs = some header) : parseMbapHeader (xs ++ ys) = some header := by
  unfold parseMbapHeader at h
  split at h
  · exact h
  · cases h

/-- The first eight bytes are all that is looked at. -/
theorem parseMbapHeader_take {xs : List UInt8} {n : Nat} (hn : 8 ≤ n) :
    parseMbapHeader (xs.take n) = parseMbapHeader xs := by
  obtain ⟨m, rfl⟩ : ∃ m, n = m + 8 := ⟨n - 8, by omega⟩
  rcases xs with
    _ | ⟨b0, _ | ⟨b1, _ | ⟨b2, _ | ⟨b3, _ | ⟨b4, _ | ⟨b5, _ | ⟨b6, _ | ⟨b7, xs⟩⟩⟩⟩⟩⟩⟩⟩ <;>
    rfl

theorem valid_length {header : MbapHeader} (h : isValidModbusAdu header = true) :
    2 ≤ header.length.toNat ∧ header.length.toNat ≤ 254 := by
  simp only [isValidModbusAdu, Bool.and_eq_true, decide_eq_true_eq] at h
  exact ⟨UInt16.le_iff_toNat_le.mp h.1.2, UInt16.le_iff_toNat_le.mp h.2⟩

/-- What the loop of `on_data` does next. -/
def aduHead (xs : List UInt8) : Lib.Verdict :=
  match parseMbapHeader xs with
  | none => .more
  | some header =>
    if !isValidModbusAdu header then .reject
    else if xs.length < 6 + header.length.toNat then .more
    else .frame (6 + header.length.toNat)

theorem aduHead_frame {xs : List UInt8} {n : Nat} (h : aduHead xs = .frame n) :
    ∃ header, parseMbapHeader xs = some header ∧ isValidModbusAdu header = true ∧
      n = 6 + header.length.toNat ∧ n ≤ xs.length := by
  unfold aduHead at h
  split at h
  · cases h
  · rename_i header hparse
    split at h
    · cases h
    · rename_i hvalid
      split at h
      · cases h
      · rename_i hlen
        cases h
        exact ⟨header, hparse, by simpa using hvalid, rfl, by omega⟩

def aduFramer : Framer UInt8 where
  head := aduHead
  nil := rfl
  bounds := by
    intro xs n h
    obtain ⟨header, -, -, hn, hle⟩ := aduHead_frame h
    exact ⟨by omega, hle⟩
  stable := by
    intro xs ys h
    unfold aduHead at h ⊢
    cases hparse : parseMbapHeader xs with
    | none => simp [hparse] at h
    | some header =>
      simp only [hparse, parseMbapHeader_append ys hparse] at h ⊢
      by_cases hvalid : (!isValidModbusAdu header) = true
      · rw [if_pos hvalid, if_pos hvalid]
      · rw [if_neg hvalid] at h ⊢
        by_cases hlen : xs.length < 6 + header.length.toNat
        · rw [if_pos hlen] at h
          exact absurd rfl h
        · rw [if_neg hlen, if_neg hvalid, if_neg (by rw [List.length_append]; omega)]

/-- Data that waits for more bytes is shorter than the longest ADU. -/
theorem length_lt_of_more {xs : List UInt8} (h : aduHead xs = .more) :
    xs.length < maxAduCarryBytes := by
  have hmax : maxAduCarryBytes = 260 := rfl
  unfold aduHead at h
  split at h
  · rename_i hparse
    have := parseMbapHeader_eq_none hparse
    omega
  · rename_i header hparse
    split at h
    · cases h
    · rename_i hvalid
      have hlen := valid_length (by simpa using hvalid)
      split at h
      · omega
      · cases h

/-! ## The loop -/

section Walk

variable (flowKey : FlowKey) (dir : Direction) (timestamp : UInt32)

/-- One turn of the loop, on an ADU that is complete. -/
def processAdu (w : ModbusAnalyzer × ModbusFlowState) (adu : List UInt8) :
    Checked (ModbusAnalyzer × ModbusFlowState) :=
  match parseMbapHeader adu with
  | none => .ok w
  | some header => do
    let (s, flow, _) ← processPdu w.1 w.2 ⟨flowKey, dir, header, header.functionCode, adu, timestamp⟩
    .ok (s, flow)

/-- How the loop ends. -/
def finish (cut : Split UInt8) (w : ModbusAnalyzer × ModbusFlowState) :
    ModbusAnalyzer × ModbusFlowState :=
  if cut.rejected then
    ({ w.1 with parseErrors := bump64 w.1.parseErrors },
      { w.2 with isNonModbus := true, carryC2s := [], carryS2c := [] })
  else (w.1, w.2.setCarry dir cut.rest)

variable {flowKey dir timestamp}

theorem stash_eq {s : ModbusAnalyzer} {flow : ModbusFlowState} {remaining : List UInt8}
    (hcarry : flow.carry dir = []) (hmore : aduHead remaining = .more) :
    stash s flow dir remaining = (s, flow.setCarry dir remaining) := by
  have hlen := length_lt_of_more hmore
  rw [stash, hcarry, List.length_nil, Nat.zero_add, if_neg (by omega), List.nil_append]

theorem setCarry_nil {flow : ModbusFlowState} (h : flow.carry dir = []) :
    flow.setCarry dir [] = flow := by
  cases dir <;> simp only [ModbusFlowState.carry] at h <;>
    simp only [ModbusFlowState.setCarry, ← h]

theorem isNonModbus_setCarry (flow : ModbusFlowState) (bytes : List UInt8) :
    (flow.setCarry dir bytes).isNonModbus = flow.isNonModbus := by
  cases dir <;> rfl

theorem carry_setCarry (flow : ModbusFlowState) (bytes : List UInt8) :
    (flow.setCarry dir bytes).carry dir = bytes := by
  cases dir <;> rfl

theorem setCarry_setCarry (flow : ModbusFlowState) (bytes bytes' : List UInt8) :
    (flow.setCarry dir bytes).setCarry dir bytes' = flow.setCarry dir bytes' := by
  cases dir <;> rfl

theorem exists_setCarry (flow : ModbusFlowState) (dir : Direction) :
    ∃ (flow₀ : ModbusFlowState) (rest : List UInt8),
      flow = flow₀.setCarry dir rest ∧ flow₀.carry dir = [] := by
  refine ⟨flow.setCarry dir [], flow.carry dir, ?_, carry_setCarry flow []⟩
  cases dir <;> rfl

/-- A turn leaves alone all that the loop itself looks at. -/
theorem processAdu_keeps {w w' : ModbusAnalyzer × ModbusFlowState} {adu : List UInt8}
    (h : processAdu flowKey dir timestamp w adu = .ok w') :
    w'.1.flows = w.1.flows ∧ w'.2.isNonModbus = w.2.isNonModbus ∧
      w'.2.carry dir = w.2.carry dir := by
  unfold processAdu at h
  split at h
  · cases h
    exact ⟨rfl, rfl, rfl⟩
  · obtain ⟨⟨s, flow, found⟩, hpdu, hout⟩ := bind_eq_ok.mp h
    cases hout
    have hstep := processPdu_step hpdu
    refine ⟨hstep.flows, hstep.isNonModbus, ?_⟩
    cases dir with
    | clientToServer => exact hstep.carryC2s
    | serverToClient => exact hstep.carryS2c

theorem walk_of_more {turns : Nat} {s : ModbusAnalyzer} {flow : ModbusFlowState}
    {buf : List UInt8} (hcarry : flow.carry dir = []) (hhead : aduHead buf = .more) :
    walk flowKey dir timestamp (turns + 1) s flow buf = .ok (s, flow.setCarry dir buf) := by
  rw [walk]
  cases buf with
  | nil => rw [setCarry_nil hcarry]; rfl
  | cons b bs =>
    rw [if_neg (by simp)]
    have hstash := stash_eq (s := s) hcarry hhead
    unfold aduHead at hhead
    cases hparse : parseMbapHeader (b :: bs) with
    | none => exact congrArg Except.ok hstash
    | some header =>
      simp only [hparse] at hhead ⊢
      split at hhead
      · cases hhead
      · rename_i hvalid
        rw [if_neg hvalid]
        split at hhead
        · rename_i hlen
          rw [if_pos hlen, hstash]
        · cases hhead

theorem walk_of_reject {turns : Nat} {s : ModbusAnalyzer} {flow : ModbusFlowState}
    {buf : List UInt8} (hhead : aduHead buf = .reject) :
    walk flowKey dir timestamp (turns + 1) s flow buf =
      .ok ({ s with parseErrors := bump64 s.parseErrors },
        { flow with isNonModbus := true, carryC2s := [], carryS2c := [] }) := by
  have hne : buf.isEmpty = false := by
    cases buf with
    | nil => cases hhead
    | cons b bs => rfl
  rw [walk, if_neg (by simp [hne])]
  unfold aduHead at hhead
  cases hparse : parseMbapHeader buf with
  | none =>
    rw [hparse] at hhead
    cases hhead
  | some header =>
    simp only [hparse] at hhead ⊢
    split at hhead
    · rename_i hvalid
      rw [if_pos hvalid]
    · split at hhead
      · cases hhead
      · cases hhead

theorem walk_of_frame {turns n : Nat} {s : ModbusAnalyzer} {flow : ModbusFlowState}
    {buf : List UInt8} (hhead : aduHead buf = .frame n) :
    walk flowKey dir timestamp (turns + 1) s flow buf =
      processAdu flowKey dir timestamp (s, flow) (buf.take n) >>= fun w =>
        walk flowKey dir timestamp turns w.1 w.2 (buf.drop n) := by
  obtain ⟨header, hparse, hvalid, hn, hle⟩ := aduHead_frame hhead
  have hlen := valid_length hvalid
  have hne : buf.isEmpty = false := by
    cases buf with
    | nil => cases hhead
    | cons b bs => rfl
  rw [walk, if_neg (by simp [hne]), processAdu, parseMbapHeader_take (by omega)]
  simp only [hparse]
  rw [if_neg (by simp [hvalid]), if_neg (by omega), ← hn, bind_bind]
  rfl

theorem walk_eq (turns : Nat) (s : ModbusAnalyzer) (flow : ModbusFlowState) (buf : List UInt8)
    (hlen : buf.length ≤ turns) (hcarry : flow.carry dir = []) :
    walk flowKey dir timestamp turns s flow buf =
      run (processAdu flowKey dir timestamp) (s, flow) (aduFramer.split buf).frames >>= fun w =>
        .ok (finish dir (aduFramer.split buf) w) := by
  induction turns generalizing s flow buf with
  | zero =>
    obtain rfl : buf = [] := List.length_eq_zero_iff.mp (Nat.le_zero.mp hlen)
    rw [aduFramer.split_of_more rfl, walk, run_nil, ok_bind, finish, if_neg (by simp),
      setCarry_nil hcarry]
  | succ turns ih =>
    cases hhead : aduHead buf with
    | more =>
      rw [aduFramer.split_of_more hhead, walk_of_more hcarry hhead, run_nil, ok_bind, finish,
        if_neg (by simp)]
    | reject =>
      rw [aduFramer.split_of_reject hhead, walk_of_reject hhead, run_nil, ok_bind, finish,
        if_pos rfl]
    | frame n =>
      obtain ⟨hpos, hle⟩ := aduFramer.bounds buf n hhead
      have hdrop : (buf.drop n).length = buf.length - n := List.length_drop
      rw [aduFramer.split_of_frame hhead, walk_of_frame hhead, run_cons, bind_bind]
      refine bind_congr_ok fun w hw => ?_
      have hkept := (processAdu_keeps hw).2.2
      exact ih w.1 w.2 (buf.drop n) (by omega) (hkept.trans hcarry)

end Walk

/-! ## `on_data` -/

/-- The flow goes back into the table. -/
def putBack (flowKey : FlowKey) (w : ModbusAnalyzer × ModbusFlowState) : ModbusAnalyzer :=
  { w.1 with flows := w.1.flows.insert flowKey w.2 }

section OnData

variable {flowKey : FlowKey} {dir : Direction} {timestamp : UInt32}

/-- `on_data` on a flow that is no longer looked at. -/
theorem onData_of_latched (s : ModbusAnalyzer) (flow : ModbusFlowState) (data : List UInt8)
    (hflows : s.flows.get? flowKey = none) (hlatched : flow.isNonModbus = true) :
    onData (putBack flowKey (s, flow)) flowKey dir data timestamp =
      .ok (putBack flowKey (s, flow)) := by
  unfold onData
  simp only [putBack, SortedMap.get?_insert_self, Option.getD_some, hlatched, if_true,
    SortedMap.erase_insert, s.flows.erase_of_none hflows]

/-- `on_data` on a flow whose carry holds `rest`. -/
theorem onData_of_carry (s : ModbusAnalyzer) (flow : ModbusFlowState) (rest data : List UInt8)
    (hflows : s.flows.get? flowKey = none) (hlatched : flow.isNonModbus = false)
    (hcarry : flow.carry dir = []) :
    onData (putBack flowKey (s, flow.setCarry dir rest)) flowKey dir data timestamp =
      run (processAdu flowKey dir timestamp) (s, flow) (aduFramer.split (rest ++ data)).frames >>=
        fun w => .ok (putBack flowKey (finish dir (aduFramer.split (rest ++ data)) w)) := by
  have hlatch : (flow.setCarry dir rest).isNonModbus = false := by
    rw [isNonModbus_setCarry, hlatched]
  unfold onData
  simp only [putBack, SortedMap.get?_insert_self, Option.getD_some, hlatch, SortedMap.erase_insert,
    s.flows.erase_of_none hflows, carry_setCarry, setCarry_setCarry, setCarry_nil hcarry,
    Bool.false_eq_true, if_false]
  rw [walk_eq _ s flow _ (Nat.le_refl _) hcarry, bind_bind]
  rfl

/-- Any state is one in which the flow has just been put back. -/
theorem onData_putBack (s : ModbusAnalyzer) (data : List UInt8) :
    onData s flowKey dir data timestamp =
      onData (putBack flowKey ({ s with flows := s.flows.erase flowKey },
        (s.flows.get? flowKey).getD {})) flowKey dir data timestamp := by
  have hnone : (s.flows.erase flowKey).get? flowKey = none := s.flows.get?_erase_self flowKey
  unfold onData
  simp only [putBack, SortedMap.get?_insert_self, Option.getD_some, SortedMap.erase_insert,
    (s.flows.erase flowKey).erase_of_none hnone]

/-- Bytes in one call, or in two. -/
theorem onData_concat (s : ModbusAnalyzer) (a b : List UInt8) :
    onData s flowKey dir (a ++ b) timestamp =
      onData s flowKey dir a timestamp >>= fun s' => onData s' flowKey dir b timestamp := by
  rw [onData_putBack s (a ++ b), onData_putBack s a]
  have hflows : (s.flows.erase flowKey).get? flowKey = none := s.flows.get?_erase_self flowKey
  generalize hs₀ : { s with flows := s.flows.erase flowKey } = s₀
  generalize (s.flows.get? flowKey).getD {} = flow
  replace hflows : s₀.flows.get? flowKey = none := by rw [← hs₀]; exact hflows
  cases hlatched : flow.isNonModbus with
  | true =>
    rw [onData_of_latched s₀ flow _ hflows hlatched, onData_of_latched s₀ flow _ hflows hlatched,
      ok_bind, onData_of_latched s₀ flow _ hflows hlatched]
  | false =>
    obtain ⟨flow₀, rest, hflow, hcarry⟩ := exists_setCarry flow dir
    rw [hflow, isNonModbus_setCarry] at hlatched
    rw [hflow, onData_of_carry s₀ flow₀ rest _ hflows hlatched hcarry,
      onData_of_carry s₀ flow₀ rest _ hflows hlatched hcarry, bind_bind, ← List.append_assoc]
    simp only [ok_bind]
    -- The flow after the frames of the first part, in either way of cutting.
    have hkeeps : ∀ w, run (processAdu flowKey dir timestamp) (s₀, flow₀)
        (aduFramer.split (rest ++ a)).frames = .ok w →
        w.1.flows.get? flowKey = none ∧ w.2.isNonModbus = false ∧ w.2.carry dir = [] := by
      intro w hw
      refine run_keeps (I := fun w => w.1.flows.get? flowKey = none ∧ w.2.isNonModbus = false ∧
        w.2.carry dir = []) (fun w adu w' hI hstep => ?_) ⟨hflows, hlatched, hcarry⟩ hw
      obtain ⟨hf, hl, hc⟩ := processAdu_keeps hstep
      rw [hf, hl, hc]
      exact hI
    cases hcut : (aduFramer.split (rest ++ a)).rejected with
    | true =>
      rw [aduFramer.split_append_of_rejected b hcut]
      refine bind_congr_ok fun w hw => ?_
      obtain ⟨hf, -, -⟩ := hkeeps w hw
      simp only [finish, hcut, if_true]
      exact (onData_of_latched { w.1 with parseErrors := bump64 w.1.parseErrors }
        { w.2 with isNonModbus := true, carryC2s := [], carryS2c := [] } b hf rfl).symm
    | false =>
      rw [aduFramer.split_append b hcut, run_append, bind_bind]
      refine bind_congr_ok fun w hw => ?_
      obtain ⟨hf, hl, hc⟩ := hkeeps w hw
      simp only [finish, hcut, Bool.false_eq_true, if_false]
      rw [onData_of_carry w.1 w.2 _ b hf hl hc]
      rfl

/-- The stream of one direction decides; how it has been cut makes no difference. -/
theorem onData_segments (s : ModbusAnalyzer) (flowKey : FlowKey) (dir : Direction)
    (timestamp : UInt32) :
    (∀ a b, onData s flowKey dir (a ++ b) timestamp =
      onData s flowKey dir a timestamp >>= fun s' => onData s' flowKey dir b timestamp) ∧
    (∀ chunk chunks, run (fun t data => onData t flowKey dir data timestamp) s (chunk :: chunks) =
      onData s flowKey dir (chunk :: chunks).flatten timestamp) := by
  refine ⟨onData_concat s, fun chunk chunks => ?_⟩
  induction chunks generalizing s chunk with
  | nil =>
    simp only [run_cons, List.flatten_cons, List.flatten_nil, List.append_nil]
    exact bind_pure _
  | cons next chunks ih =>
    rw [run_cons, List.flatten_cons, onData_concat]
    exact bind_congr_ok fun t _ => ih t next

end OnData

/-- Only the entry of the flow itself changes. -/
theorem onData_flows {s s' : ModbusAnalyzer} {flowKey : FlowKey} {dir : Direction}
    {data : List UInt8} {timestamp : UInt32}
    (h : onData s flowKey dir data timestamp = .ok s') :
    ∃ flow, s'.flows = (s.flows.erase flowKey).insert flowKey flow := by
  unfold onData at h
  simp only at h
  split at h
  · cases h
    exact ⟨_, rfl⟩
  · rw [walk_eq _ _ _ _ (Nat.le_refl _) (carry_setCarry _ [])] at h
    obtain ⟨⟨s₁, flow₁⟩, hwalk, hout⟩ := bind_eq_ok.mp h
    obtain ⟨w, hrun, hfinish⟩ := bind_eq_ok.mp hwalk
    cases hout
    have hkept : w.1.flows = s.flows.erase flowKey :=
      run_keeps (I := fun w => w.1.flows = s.flows.erase flowKey)
        (fun _ _ _ hI hstep => (processAdu_keeps hstep).1.trans hI) rfl hrun
    have hfirst := congrArg Prod.fst (Except.ok.inj hfinish)
    have hsame : s₁.flows = w.1.flows := by
      rw [← show _ = s₁ from hfirst, finish]
      split
      · rfl
      · rfl
    exact ⟨flow₁, by rw [hsame, hkept]⟩

end Wirerust.Modbus
