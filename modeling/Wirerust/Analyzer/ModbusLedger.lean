import Wirerust.Analyzer.ModbusStream

/-!
What becomes of the requests and findings of one Modbus flow.

The analyzer is run beside a `Ledger` that writes down what its own counters only hint at: the
requests that came, those that were answered, the findings that were raised and the carries that
ran over. `run_watched` says that the ledger only watches, and `run_books` that in every run
the books of the analyzer balance.
-/

namespace Wirerust.Modbus

open Lib Wirerust.Flow Wirerust.Analyzer

/-! ## The ledger -/

structure Ledger where
  requests : Nat := 0
  closed : Nat := 0
  overflows : Nat := 0
  raised : List Finding := []

namespace Ledger

/-- One PDU, in the state of the flow before it. -/
def record (l : Ledger) (flow : ModbusFlowState) (p : Pdu) (found : List Finding) : Ledger :=
  { l with
    requests := l.requests + if p.isRequest then 1 else 0
    closed := l.closed + if p.closes flow then 1 else 0
    raised := l.raised ++ found }

/-- One tail of the data; the test is the one in `stash`. -/
def stashed (l : Ledger) (flow : ModbusFlowState) (dir : Direction) (remaining : List UInt8) :
    Ledger :=
  if (flow.carry dir).length + remaining.length > maxAduCarryBytes then
    { l with overflows := l.overflows + 1 }
  else l

end Ledger

/-- `walk`, with the ledger beside it. -/
def walkWatched (flowKey : FlowKey) (dir : Direction) (timestamp : UInt32) :
    Nat → ModbusAnalyzer → ModbusFlowState → Ledger → List UInt8 →
      Checked ((ModbusAnalyzer × ModbusFlowState) × Ledger)
  | 0, s, flow, l, _ => .ok ((s, flow), l)
  | turns + 1, s, flow, l, remaining =>
    if remaining.isEmpty then
      .ok ((s, flow), l)
    else
      match parseMbapHeader remaining with
      | none => .ok (stash s flow dir remaining, l.stashed flow dir remaining)
      | some header =>
        if !isValidModbusAdu header then
          .ok (({ s with parseErrors := bump64 s.parseErrors },
            { flow with isNonModbus := true, carryC2s := [], carryS2c := [] }), l)
        else
          let aduLen := 6 + header.length.toNat
          if remaining.length < aduLen then
            .ok (stash s flow dir remaining, l.stashed flow dir remaining)
          else do
            let p := ⟨flowKey, dir, header, header.functionCode, remaining.take aduLen, timestamp⟩
            let (s', flow', found) ← processPdu s flow p
            walkWatched flowKey dir timestamp turns s' flow' (l.record flow p found)
              (remaining.drop aduLen)

structure Watched where
  analyzer : ModbusAnalyzer
  ledger : Ledger := {}

structure Call where
  direction : Direction
  data : List UInt8
  timestamp : UInt32

/-- `on_data`, with the ledger beside it. -/
def onDataWatched (flowKey : FlowKey) (w : Watched) (c : Call) : Checked Watched := do
  let s := w.analyzer
  let flow := (s.flows.get? flowKey).getD {}
  let s := { s with flows := s.flows.erase flowKey }
  if flow.isNonModbus then
    .ok { w with analyzer := { s with flows := s.flows.insert flowKey flow } }
  else
    let buf := flow.carry c.direction ++ c.data
    let flow := flow.setCarry c.direction []
    let ((s, flow), l) ←
      walkWatched flowKey c.direction c.timestamp buf.length s flow w.ledger buf
    .ok ⟨{ s with flows := s.flows.insert flowKey flow }, l⟩

/-- A call, as the analyzer itself takes it. -/
def onCall (flowKey : FlowKey) (s : ModbusAnalyzer) (c : Call) : Checked ModbusAnalyzer :=
  onData s flowKey c.direction c.data c.timestamp

theorem walk_watched (flowKey : FlowKey) (dir : Direction) (timestamp : UInt32) (turns : Nat)
    (s : ModbusAnalyzer) (flow : ModbusFlowState) (l : Ledger) (buf : List UInt8) :
    walk flowKey dir timestamp turns s flow buf =
      walkWatched flowKey dir timestamp turns s flow l buf >>= fun r => .ok r.1 := by
  induction turns generalizing s flow l buf with
  | zero => rfl
  | succ turns ih =>
    rw [walk, walkWatched]
    by_cases hempty : buf.isEmpty = true
    · rw [if_pos hempty, if_pos hempty]
      rfl
    · rw [if_neg hempty, if_neg hempty]
      cases parseMbapHeader buf with
      | none => rfl
      | some header =>
        by_cases hvalid : (!isValidModbusAdu header) = true
        · simp only [if_pos hvalid]
          rfl
        · simp only [if_neg hvalid]
          by_cases hlen : buf.length < 6 + header.length.toNat
          · rw [if_pos hlen, if_pos hlen]
            rfl
          · rw [if_neg hlen, if_neg hlen, bind_bind]
            exact bind_congr_ok fun r _ => ih _ _ _ _

theorem onCall_watched (flowKey : FlowKey) (w : Watched) (c : Call) :
    onCall flowKey w.analyzer c =
      onDataWatched flowKey w c >>= fun w' => .ok w'.analyzer := by
  unfold onCall onData onDataWatched
  simp only
  split
  · rfl
  · rw [walk_watched _ _ _ _ _ _ w.ledger, bind_bind, bind_bind]
    rfl

/-- The ledger has no part in what the analyzer does. -/
theorem run_watched (flowKey : FlowKey) (w : Watched) (calls : List Call) :
    run (onCall flowKey) w.analyzer calls =
      run (onDataWatched flowKey) w calls >>= fun w' => .ok w'.analyzer := by
  induction calls generalizing w with
  | nil => rfl
  | cons c calls ih =>
    rw [run_cons, run_cons, onCall_watched, bind_bind, bind_bind]
    exact bind_congr_ok fun w' _ => ih w'

/-! ## What a call keeps -/

/-- The books of one flow. -/
structure Books (s : ModbusAnalyzer) (flow : ModbusFlowState) (l : Ledger) : Prop where
  requests : TxnsBelow s → l.requests = txns s flow + l.closed
  size : flow.pending.size ≤ maxPendingTransactions
  overflows : l.overflows = 0
  parseErrors : s.parseErrors = if flow.isNonModbus then 1 else 0
  total : s.totalPduCount < 2 ^ 64 - 1 → s.totalPduCount = countsTotal s.fnCodeCounts
  findings : Capped.Holds maxFindings (2 ^ 64 - 1) l.raised s.findings
  carries : ∀ d, aduHead (flow.carry d) = .more

/-- Every byte of the `n` that have been taken as PDUs has counted at most once; those in the
carries and `extra` more are still to come. -/
def Fits (bytes : Nat) (s : ModbusAnalyzer) (flow : ModbusFlowState) (extra : Nat) : Prop :=
  ∃ n, CountsLe n s.fnCodeCounts ∧ WindowsLe n flow ∧
    n + flow.carryC2s.length + flow.carryS2c.length + extra ≤ bytes

theorem Books.pdu {s s' : ModbusAnalyzer} {flow flow' : ModbusFlowState} {l : Ledger} {p : Pdu}
    {found : List Finding} (h : Books s flow l) (hstep : PduStep s s' flow flow' p found) :
    Books s' flow' (l.record flow p found) := by
  refine ⟨fun hb => ?_, hstep.txns.size h.size, h.overflows, ?_, fun hb => ?_, ?_, fun d => ?_⟩
  · have hold := h.requests (hstep.txns.below hb)
    have hnew := hstep.txns.total hb
    simp only [Ledger.record]
    omega
  · rw [hstep.parseErrors, hstep.isNonModbus]
    exact h.parseErrors
  · rw [hstep.totalPduCount] at hb ⊢
    have hinc := bump64_below hb
    have hold := h.total (by omega)
    rw [hinc, hstep.countsTotal, hold]
  · rw [hstep.findings]
    exact h.findings.pushAll found
  · cases d with
    | clientToServer => exact (congrArg aduHead hstep.carryC2s).trans (h.carries .clientToServer)
    | serverToClient => exact (congrArg aduHead hstep.carryS2c).trans (h.carries .serverToClient)

theorem Books.setCarry {s : ModbusAnalyzer} {flow : ModbusFlowState} {l : Ledger}
    (h : Books s flow l) (dir : Direction) {rest : List UInt8} (hrest : aduHead rest = .more) :
    Books s (flow.setCarry dir rest) l := by
  have hcarries : ∀ d, aduHead ((flow.setCarry dir rest).carry d) = .more := by
    intro d
    cases dir <;> cases d
    · exact hrest
    · exact h.carries .serverToClient
    · exact h.carries .clientToServer
    · exact hrest
  cases dir with
  | clientToServer =>
    exact ⟨h.requests, h.size, h.overflows, h.parseErrors, h.total, h.findings, hcarries⟩
  | serverToClient =>
    exact ⟨h.requests, h.size, h.overflows, h.parseErrors, h.total, h.findings, hcarries⟩

theorem Books.reject {s : ModbusAnalyzer} {flow : ModbusFlowState} {l : Ledger}
    (h : Books s flow l) (hlatch : flow.isNonModbus = false) :
    Books { s with parseErrors := bump64 s.parseErrors }
      { flow with isNonModbus := true, carryC2s := [], carryS2c := [] } l := by
  refine ⟨h.requests, h.size, h.overflows, ?_, h.total, h.findings, fun d => ?_⟩
  · have hzero := h.parseErrors
    rw [hlatch] at hzero
    rw [hzero]
    rfl
  · cases d <;> rfl

theorem Fits.pdu {bytes extra extra' : Nat} {s s' : ModbusAnalyzer}
    {flow flow' : ModbusFlowState} {p : Pdu} {found : List Finding} (h : Fits bytes s flow extra)
    (hstep : PduStep s s' flow flow' p found) (hextra : extra' < extra) :
    Fits bytes s' flow' extra' := by
  obtain ⟨n, hcounts, hwindows, hle⟩ := h
  refine ⟨n + 1, hstep.countsLe n hcounts, hstep.windowsLe n hwindows, ?_⟩
  rw [hstep.carryC2s, hstep.carryS2c]
  omega

theorem Fits.setCarry {bytes extra extra' : Nat} {s : ModbusAnalyzer} {flow : ModbusFlowState}
    {dir : Direction} {rest : List UInt8} (h : Fits bytes s flow extra)
    (hle : extra' + rest.length ≤ extra + (flow.carry dir).length) :
    Fits bytes s (flow.setCarry dir rest) extra' := by
  obtain ⟨n, hcounts, hwindows, hn⟩ := h
  cases dir with
  | clientToServer =>
    refine ⟨n, hcounts, hwindows, ?_⟩
    simp only [ModbusFlowState.setCarry, ModbusFlowState.carry] at hle ⊢
    omega
  | serverToClient =>
    refine ⟨n, hcounts, hwindows, ?_⟩
    simp only [ModbusFlowState.setCarry, ModbusFlowState.carry] at hle ⊢
    omega

theorem Fits.reject {bytes extra n : Nat} {s : ModbusAnalyzer} {flow : ModbusFlowState}
    (h : Fits bytes s flow extra) :
    Fits bytes { s with parseErrors := n }
      { flow with isNonModbus := true, carryC2s := [], carryS2c := [] } 0 := by
  obtain ⟨m, hcounts, hwindows, hle⟩ := h
  exact ⟨m, hcounts, hwindows, by simp only [List.length_nil]; omega⟩

theorem Fits.returns {bytes extra : Nat} {s : ModbusAnalyzer} {flow : ModbusFlowState}
    (h : Fits bytes s flow extra) (hextra : 0 < extra) (p : Pdu) :
    ReturnsIf (bytes < 2 ^ 32) (processPdu s flow p)
      (fun r => PduStep s r.1 flow r.2.1 p r.2.2) := by
  obtain ⟨n, hcounts, hwindows, hle⟩ := h
  exact ⟨fun hbytes => processPdu_returns hcounts hwindows (by omega) p,
    fun r hr => processPdu_step hr⟩

section Loop

variable {flowKey : FlowKey} {dir : Direction} {timestamp : UInt32} {bytes : Nat}

/-- A tail that waits for more bytes. -/
theorem stash_books {s : ModbusAnalyzer} {flow : ModbusFlowState} {l : Ledger} {xs : List UInt8}
    (hbooks : Books s flow l) (hcarry : flow.carry dir = []) (hfits : Fits bytes s flow xs.length)
    (hmore : aduHead xs = .more) :
    let w := stash s flow dir xs
    Books w.1 w.2 (l.stashed flow dir xs) ∧ Fits bytes w.1 w.2 0 := by
  have hshort := length_lt_of_more hmore
  have hl : l.stashed flow dir xs = l := by
    rw [Ledger.stashed, hcarry, if_neg]
    simp only [List.length_nil]
    omega
  simp only [stash_eq hcarry hmore, hl]
  exact ⟨hbooks.setCarry dir hmore, hfits.setCarry (by rw [hcarry, List.length_nil]; omega)⟩

/-- The loop, from its start: the carry is empty, and what was in it is at the front of `buf`. -/
theorem walkWatched_books (turns : Nat) {s : ModbusAnalyzer} {flow : ModbusFlowState} {l : Ledger}
    {buf : List UInt8} (hlen : buf.length ≤ turns) (hbooks : Books s flow l)
    (hlatch : flow.isNonModbus = false) (hcarry : flow.carry dir = [])
    (hfits : Fits bytes s flow buf.length) :
    ReturnsIf (bytes < 2 ^ 32) (walkWatched flowKey dir timestamp turns s flow l buf)
      (fun r => Books r.1.1 r.1.2 r.2 ∧ Fits bytes r.1.1 r.1.2 0) := by
  induction turns generalizing s flow l buf with
  | zero =>
    obtain rfl : buf = [] := List.length_eq_zero_iff.mp (Nat.le_zero.mp hlen)
    exact ReturnsIf.pure ⟨hbooks, hfits⟩
  | succ turns ih =>
    rw [walkWatched]
    by_cases hempty : buf.isEmpty = true
    · obtain rfl : buf = [] := List.isEmpty_iff.mp hempty
      exact ReturnsIf.pure ⟨hbooks, hfits⟩
    · rw [if_neg hempty]
      cases hparse : parseMbapHeader buf with
      | none => exact ReturnsIf.pure (stash_books hbooks hcarry hfits (by rw [aduHead, hparse]))
      | some header =>
        by_cases hvalid : (!isValidModbusAdu header) = true
        · simp only [if_pos hvalid]
          exact ReturnsIf.pure ⟨hbooks.reject hlatch, hfits.reject⟩
        · simp only [if_neg hvalid]
          by_cases hshort : buf.length < 6 + header.length.toNat
          · rw [if_pos hshort]
            refine ReturnsIf.pure (stash_books hbooks hcarry hfits ?_)
            simp only [aduHead, hparse, if_neg hvalid, if_pos hshort]
          · rw [if_neg hshort]
            refine (hfits.returns (by omega) _).bind fun r hstep => ?_
            have hdrop : (buf.drop (6 + header.length.toNat)).length =
              buf.length - (6 + header.length.toNat) := List.length_drop
            refine ih (by omega) (hbooks.pdu hstep) (hstep.isNonModbus.trans hlatch) ?_
              (hfits.pdu hstep (by omega))
            cases dir with
            | clientToServer => exact hstep.carryC2s.trans hcarry
            | serverToClient => exact hstep.carryS2c.trans hcarry

end Loop

/-- The books are in order between two calls, after at most `bytes` bytes. -/
def Sound (flowKey : FlowKey) (bytes : Nat) (w : Watched) : Prop :=
  let flow := (w.analyzer.flows.get? flowKey).getD {}
  Books w.analyzer flow w.ledger ∧ Fits bytes w.analyzer flow 0

theorem onDataWatched_sound {flowKey : FlowKey} {bytes : Nat} {w : Watched}
    (h : Sound flowKey bytes w) (c : Call) :
    ReturnsIf (bytes + c.data.length < 2 ^ 32) (onDataWatched flowKey w c)
      (Sound flowKey (bytes + c.data.length)) := by
  obtain ⟨hbooks, hfits⟩ := h
  unfold onDataWatched
  simp only
  generalize (w.analyzer.flows.get? flowKey).getD {} = flow at hbooks hfits ⊢
  by_cases hlatch : flow.isNonModbus = true
  · rw [if_pos hlatch]
    refine ReturnsIf.pure ?_
    simp only [Sound, SortedMap.get?_insert_self, Option.getD_some]
    obtain ⟨n, hcounts, hwindows, hn⟩ := hfits
    exact ⟨⟨hbooks.requests, hbooks.size, hbooks.overflows, hbooks.parseErrors, hbooks.total,
      hbooks.findings, hbooks.carries⟩, n, hcounts, hwindows, by omega⟩
  · rw [if_neg hlatch]
    have hlatch' : (flow.setCarry c.direction []).isNonModbus = false := by
      rw [isNonModbus_setCarry]
      simpa using hlatch
    have hfits' : Fits (bytes + c.data.length) w.analyzer (flow.setCarry c.direction [])
        (flow.carry c.direction ++ c.data).length := by
      obtain ⟨n, hcounts, hwindows, hn⟩ := hfits
      have hmore : Fits (bytes + c.data.length) w.analyzer flow c.data.length :=
        ⟨n, hcounts, hwindows, by omega⟩
      refine hmore.setCarry ?_
      simp only [List.length_append, List.length_nil]
      omega
    have hbooks' : Books w.analyzer (flow.setCarry c.direction []) w.ledger :=
      hbooks.setCarry c.direction rfl
    refine (walkWatched_books _ (Nat.le_refl _) ?_ hlatch' (carry_setCarry flow []) ?_).bind
      fun r hr => ReturnsIf.pure ?_
    · exact ⟨hbooks'.requests, hbooks'.size, hbooks'.overflows, hbooks'.parseErrors, hbooks'.total,
        hbooks'.findings, hbooks'.carries⟩
    · exact hfits'
    · obtain ⟨hb, n, hcounts, hwindows, hn⟩ := hr
      simp only [Sound, SortedMap.get?_insert_self, Option.getD_some]
      exact ⟨⟨hb.requests, hb.size, hb.overflows, hb.parseErrors, hb.total, hb.findings,
        hb.carries⟩, n, hcounts, hwindows, hn⟩

def totalBytes (calls : List Call) : Nat := (calls.map fun c => c.data.length).sum

theorem run_sound {flowKey : FlowKey} {bytes : Nat} {w : Watched} (calls : List Call)
    (h : Sound flowKey bytes w) :
    ReturnsIf (bytes + totalBytes calls < 2 ^ 32) (run (onDataWatched flowKey) w calls)
      (Sound flowKey (bytes + totalBytes calls)) := by
  induction calls generalizing bytes w with
  | nil => exact ReturnsIf.pure h
  | cons c calls ih =>
    have hsum : bytes + totalBytes (c :: calls) = bytes + c.data.length + totalBytes calls := by
      simp only [totalBytes, List.map_cons, List.sum_cons]
      omega
    rw [hsum, run_cons]
    exact ((onDataWatched_sound h c).imp (by omega)).bind fun w' hw' => ih hw'

theorem sound_new (flowKey : FlowKey) (burst sustained : UInt32) :
    Sound flowKey 0 { analyzer := .new burst sustained } :=
  ⟨⟨fun _ => rfl, Nat.zero_le _, rfl, rfl, fun _ => rfl, Capped.Holds.nil _ _,
    fun d => by cases d <;> rfl⟩, 0, fun _ => Nat.le_refl 0, fun _ => Nat.le_refl 0, Nat.le_refl 0⟩

/-! ## The balance -/

/-- A valid header and all the bytes it announces. -/
def IsAdu (adu : List UInt8) : Prop :=
  ∃ header, parseMbapHeader adu = some header ∧ isValidModbusAdu header = true ∧
    adu.length = 6 + header.length.toNat

/-- Fewer than 260 bytes, and from the eighth on the beginning of an ADU that is longer. The
header is not looked at before it is complete. -/
def PartialAdu (bytes : List UInt8) : Prop :=
  bytes.length < 260 ∧ (8 ≤ bytes.length →
    ∃ adu, IsAdu adu ∧ bytes <+: adu ∧ bytes.length < adu.length)

theorem partialAdu_of_more {xs : List UInt8} (h : aduHead xs = .more) : PartialAdu xs := by
  refine ⟨length_lt_of_more h, fun hlong => ?_⟩
  unfold aduHead at h
  split at h
  · rename_i hparse
    have hshort := parseMbapHeader_eq_none hparse
    omega
  · rename_i header hparse
    split at h
    · cases h
    · rename_i hvalid
      split at h
      · rename_i hlen
        refine ⟨xs ++ List.replicate (6 + header.length.toNat - xs.length) 0,
          ⟨header, parseMbapHeader_append _ hparse, by simpa using hvalid, ?_⟩,
          List.prefix_append _ _, ?_⟩
        · rw [List.length_append, List.length_replicate]
          omega
        · rw [List.length_append, List.length_replicate]
          omega
      · cases h

/-- What holds of a flow and its analyzer, given what has been written down. -/
structure Conserved (s : ModbusAnalyzer) (flow : ModbusFlowState) (l : Ledger) : Prop where
  requests : s.duplicateInflightTxn < 2 ^ 64 - 1 → s.droppedTransactions < 2 ^ 64 - 1 →
    l.requests = flow.pending.size + s.duplicateInflightTxn + s.droppedTransactions + l.closed
  pending : flow.pending.size ≤ 256
  carries : ∀ dir, PartialAdu (flow.carry dir)
  overflows : l.overflows = 0
  parseErrors : s.parseErrors ≤ 1 ∧ (s.parseErrors = 1 ↔ flow.isNonModbus = true)
  total : s.totalPduCount < 2 ^ 64 - 1 → s.totalPduCount = s.fnCodeCounts.sumBy Prod.snd
  kept : s.findings.kept.length ≤ 10000
  findings : s.findings.dropped < 2 ^ 64 - 1 →
    s.findings.kept.length + s.findings.dropped = l.raised.length

theorem Books.conserved {s : ModbusAnalyzer} {flow : ModbusFlowState} {l : Ledger}
    (h : Books s flow l) : Conserved s flow l where
  requests := fun hdup hdropped => h.requests ⟨hdup, hdropped⟩
  pending := h.size
  carries := fun dir => partialAdu_of_more (h.carries dir)
  overflows := h.overflows
  parseErrors := by
    have herrors := h.parseErrors
    cases hlatch : flow.isNonModbus with
    | true =>
      rw [hlatch] at herrors
      exact ⟨Nat.le_of_eq herrors, fun _ => rfl, fun _ => herrors⟩
    | false =>
      rw [hlatch] at herrors
      simp only [Bool.false_eq_true, if_false] at herrors
      exact ⟨by omega, fun h1 => by omega, fun hfalse => by cases hfalse⟩
  total := h.total
  kept := h.findings.length_le
  findings := fun hbelow => by
    have hdropped := h.findings.dropped
    refine h.findings.total ?_
    omega

/-- Every run over one flow keeps its books: the run comes back as long as fewer than `2^32` bytes
are given to it, the ledger only watches, and what it says agrees with the analyzer. -/
theorem run_books (flowKey : FlowKey) (burst sustained : UInt32) (calls : List Call) :
    let watched := run (onDataWatched flowKey) { analyzer := .new burst sustained } calls
    (run (onCall flowKey) (.new burst sustained) calls = watched >>= fun w => .ok w.analyzer) ∧
    (totalBytes calls < 2 ^ 32 → ∃ w, watched = .ok w) ∧
    (∀ w, watched = .ok w →
      Conserved w.analyzer ((w.analyzer.flows.get? flowKey).getD {}) w.ledger) := by
  obtain ⟨hreturns, hsound⟩ := run_sound calls (sound_new flowKey burst sustained)
  rw [Nat.zero_add] at hreturns
  exact ⟨run_watched flowKey { analyzer := .new burst sustained } calls, hreturns,
    fun w hw => (hsound w hw).1.conserved⟩

def plcKey : FlowKey := .new (.v4 1) 1024 (.v4 2) 502

theorem run_books_request :
    let calls : List Call := [⟨.clientToServer, [0, 1, 0, 0, 0, 2, 1, 3], 0⟩]
    totalBytes calls < 2 ^ 32 ∧
    ∃ w, run (onDataWatched plcKey) { analyzer := .new 20 10 } calls = .ok w ∧
      Conserved w.analyzer ((w.analyzer.flows.get? plcKey).getD {}) w.ledger := by
  obtain ⟨-, hreturns, hconserved⟩ :=
    run_books plcKey 20 10 [⟨.clientToServer, [0, 1, 0, 0, 0, 2, 1, 3], 0⟩]
  obtain ⟨w, hw⟩ := hreturns (by decide)
  exact ⟨by decide, w, hw, hconserved w hw⟩

/-- Seven bytes that announce an ADU of six are kept: they are no beginning of an ADU, valid or
not. -/
theorem carry_of_no_adu :
    ∃ s flow, run (onCall plcKey) (.new 20 10)
        [⟨.clientToServer, [0, 0, 0, 0, 0, 0, 1], 0⟩] = .ok s ∧
      s.flows.get? plcKey = some flow ∧ flow.carry .clientToServer = [0, 0, 0, 0, 0, 0, 1] ∧
      ∀ adu header, flow.carry .clientToServer <+: adu →
        (flow.carry .clientToServer).length < adu.length →
        parseMbapHeader adu = some header → adu.length ≠ 6 + header.length.toNat := by
  refine ⟨_, _, rfl, rfl, rfl, ?_⟩
  rintro adu header ⟨more, rfl⟩ hlen hparse
  cases more with
  | nil => exact absurd hlen (by decide)
  | cons b more =>
    have hheader : header.length = 0 := by
      cases hparse
      exact (by decide : beU16 0 0 = 0)
    rw [hheader]
    have hlen' : 7 < ([0, 0, 0, 0, 0, 0, 1] ++ b :: more : List UInt8).length := hlen
    exact fun h => absurd (h ▸ hlen') (by decide)

end Wirerust.Modbus
