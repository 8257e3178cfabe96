import Wirerust.Analyzer.Iec104Stream

/-!
The findings of a run, piece by piece.

The log of a run lists the pieces that its calls read, each with its direction and the findings it
raised. The findings of the log are those of the analyzer (`run_log`), and the pieces of one
direction are those of the stream of that direction, whatever calls it came in (`pieces_runLog`).
A frame too short for an ASDU raises no finding about that, so that the streams for which every
such frame is reported are those that have none (`truncated_reported_iff`).
-/

namespace Wirerust.Iec104

open Lib Wirerust.Flow Wirerust.Analyzer

structure Entry where
  direction : Direction
  piece : Piece
  raised : List Finding

/-- The findings of a log, in order. -/
def findingsOf (log : List Entry) : List Finding := log.flatMap Entry.raised

/-- What the pieces of a call raise; the first of them is at `position`. -/
def logAt (c : Delivery) (flow : Iec104FlowState) (position : Nat) : List Piece → List Entry
  | [] => []
  | piece :: rest =>
    ⟨c.direction, piece, (pieceRaises c flow piece).2.map (Raised.at position)⟩ ::
      logAt c (pieceRaises c flow piece).1 (position + piece.size) rest

def callLog (c : Delivery) (flow : Iec104FlowState) (data : List UInt8) : List Entry :=
  logAt c (flow.setCarry c.direction []) 0 (pieceLexer.lex (flow.carry c.direction ++ data)).1

/-- A call on a flow that is given. -/
structure TimedCall where
  ts : UInt32
  direction : Direction
  data : List UInt8

def TimedCall.delivery (flowKey : FlowKey) (call : TimedCall) : Delivery :=
  ⟨flowKey, call.ts, call.direction⟩

@[simp] theorem TimedCall.delivery_direction (flowKey : FlowKey) (call : TimedCall) :
    (call.delivery flowKey).direction = call.direction := rfl

section Runs

variable (flowKey : FlowKey)

def onTimed (s : Iec104Analyzer) (call : TimedCall) : Checked Iec104Analyzer :=
  onData s (call.delivery flowKey) call.data

/-- The flow after the calls. -/
def flowAfter (flow : Iec104FlowState) : List TimedCall → Iec104FlowState
  | [] => flow
  | call :: calls => flowAfter (effect (call.delivery flowKey) flow call.data).1 calls

def runLog (flow : Iec104FlowState) : List TimedCall → List Entry
  | [] => []
  | call :: calls => callLog (call.delivery flowKey) flow call.data ++
      runLog (effect (call.delivery flowKey) flow call.data).1 calls

end Runs

/-- All that was sent in a direction. -/
def stream (dir : Direction) (calls : List TimedCall) : List UInt8 :=
  (calls.filter fun call => call.direction = dir).flatMap TimedCall.data

/-- The pieces that a log has in a direction. -/
def piecesOf (dir : Direction) (log : List Entry) : List Piece :=
  (log.filter fun e => e.direction = dir).map Entry.piece

/-! ## The log and the analyzer -/

theorem findingsOf_append (log log' : List Entry) :
    findingsOf (log ++ log') = findingsOf log ++ findingsOf log' := List.flatMap_append

theorem findingsOf_logAt (c : Delivery) (flow : Iec104FlowState) (position : Nat)
    (ps : List Piece) : findingsOf (logAt c flow position ps) = findingsAt c flow position ps := by
  induction ps generalizing flow position with
  | nil => rfl
  | cons piece ps ih =>
    rw [logAt, findingsAt, findingsOf, List.flatMap_cons, ← findingsOf, ih]

theorem onData_log (s : Iec104Analyzer) (c : Delivery) (data : List UInt8)
    (hshape : Shape (flowOf s c.flowKey)) :
    onData s c data = .ok { s with
      flows := s.flows.insert c.flowKey (effect c (flowOf s c.flowKey) data).1
      findings := mergeFindings s.findings
        (findingsOf (callLog c (flowOf s c.flowKey) data)) } := by
  unfold onData
  rw [show (s.flows.get? c.flowKey).getD {} = flowOf s c.flowKey from rfl,
    dropLongCarry_of_le (hshape.length_le c.direction)]
  simp only
  rw [walk_eq c _ _ _ _ (Nat.le_refl _), ok_bind]
  simp only [Walking.stash, List.nil_append, effect, callLog, findingsOf_logAt,
    (raises_keeps c _ _).carry, carry_setCarry]

theorem mergeFindings_nil (log : Capped Finding) : mergeFindings log [] = log := by
  unfold mergeFindings
  rw [if_neg (by simp), List.append_nil]

/-- The findings of a log that fits are kept as they are. -/
theorem mergeFindings_of_le {log : Capped Finding} {findings : List Finding}
    (h : log.kept.length + findings.length ≤ maxFindings) :
    mergeFindings log findings = ⟨log.kept ++ findings, log.dropped⟩ := by
  unfold mergeFindings
  rw [if_neg (by omega)]

theorem onTimed_eq {flowKey : FlowKey} {s : Iec104Analyzer} (call : TimedCall)
    (hshape : Shape (flowOf s flowKey)) :
    onTimed flowKey s call = .ok { s with
      flows := s.flows.insert flowKey
        (effect (call.delivery flowKey) (flowOf s flowKey) call.data).1
      findings := mergeFindings s.findings
        (findingsOf (callLog (call.delivery flowKey) (flowOf s flowKey) call.data)) } :=
  onData_log s (call.delivery flowKey) call.data hshape

/-- The findings that a run adds are those of its log. -/
theorem run_log {flowKey : FlowKey} {s : Iec104Analyzer} (calls : List TimedCall)
    (hshape : Shape (flowOf s flowKey)) :
    Returns (run (onTimed flowKey) s calls) fun s' =>
      flowOf s' flowKey = flowAfter flowKey (flowOf s flowKey) calls ∧
      s'.findings =
        mergeFindings s.findings (findingsOf (runLog flowKey (flowOf s flowKey) calls)) := by
  induction calls generalizing s with
  | nil => exact .pure ⟨rfl, (mergeFindings_nil _).symm⟩
  | cons call calls ih =>
    generalize hnext : (effect (call.delivery flowKey) (flowOf s flowKey) call.data).1 = next
    have hkept : Shape next := hnext ▸ hshape.effect _ _
    rw [run_cons, onTimed_eq call hshape, ok_bind, hnext]
    have hflow : flowOf { s with
        flows := s.flows.insert flowKey next
        findings := mergeFindings s.findings (findingsOf
          (callLog (call.delivery flowKey) (flowOf s flowKey) call.data)) } flowKey = next := by
      rw [flowOf, SortedMap.get?_insert_self, Option.getD_some]
    have hrest := ih (hflow.symm ▸ hkept)
    simp only [hflow, ← mergeFindings_append] at hrest
    rw [flowAfter, runLog, findingsOf_append, hnext]
    exact hrest

/-! ## The log and the streams -/

theorem piecesOf_append (dir : Direction) (log log' : List Entry) :
    piecesOf dir (log ++ log') = piecesOf dir log ++ piecesOf dir log' := by
  rw [piecesOf, List.filter_append, List.map_append, piecesOf, piecesOf]

theorem stream_cons (dir : Direction) (call : TimedCall) (calls : List TimedCall) :
    stream dir (call :: calls) =
      (if call.direction = dir then call.data else []) ++ stream dir calls := by
  unfold stream
  rw [List.filter_cons]
  by_cases hdir : call.direction = dir
  · rw [if_pos (by simpa using hdir), if_pos hdir, List.flatMap_cons]
  · rw [if_neg (by simpa using hdir), if_neg hdir, List.nil_append]

theorem piecesOf_logAt (dir : Direction) (c : Delivery) (flow : Iec104FlowState) (position : Nat)
    (ps : List Piece) :
    piecesOf dir (logAt c flow position ps) = if c.direction = dir then ps else [] := by
  induction ps generalizing flow position with
  | nil =>
    rw [ite_self]
    rfl
  | cons piece ps ih =>
    rw [logAt, piecesOf, List.filter_cons]
    by_cases hdir : c.direction = dir
    · rw [if_pos hdir] at ih ⊢
      rw [if_pos (by simpa using hdir), List.map_cons, ← piecesOf, ih]
    · rw [if_neg hdir] at ih ⊢
      rw [if_neg (by simpa using hdir), ← piecesOf, ih]

/-- Each direction is read as one stream. -/
theorem pieces_runLog (flowKey : FlowKey) (dir : Direction) {flow : Iec104FlowState}
    (hshape : Shape flow) (calls : List TimedCall) :
    piecesOf dir (runLog flowKey flow calls) =
      (pieceLexer.lex (flow.carry dir ++ stream dir calls)).1 := by
  induction calls generalizing flow with
  | nil =>
    rw [stream, List.filter_nil, List.flatMap_nil, List.append_nil,
      pieceLexer.lex_of_none (hshape.carries dir)]
    rfl
  | cons call calls ih =>
    rw [runLog, piecesOf_append, ih (hshape.effect _ _), callLog, piecesOf_logAt, stream_cons,
      call.delivery_direction flowKey]
    by_cases hdir : call.direction = dir
    · subst hdir
      rw [if_pos rfl, if_pos rfl, ← List.append_assoc,
        pieceLexer.lex_append pieceLexer_stable (flow.carry call.direction ++ call.data),
        effect, call.delivery_direction flowKey, carry_setCarry]
    · rw [if_neg hdir, if_neg hdir, List.nil_append, List.nil_append,
        (effect_other (call.delivery flowKey) flow call.data (Ne.symm hdir)).1]

/-! ## Frames too short for an ASDU -/

/-- A whole I-frame with less than the six bytes that `parse_asdu` asks for. -/
def TruncatedAsdu : Piece → Prop
  | .frame bytes => IsApdu bytes ∧ classifyFrameFormat (byteAt bytes 2) = .iFormat ∧
      (bytes.drop 6).length < 6
  | _ => False

/-- Every such frame of the log has raised an anomaly. -/
def AsdusReported (log : List Entry) : Prop :=
  ∀ e ∈ log, TruncatedAsdu e.piece → ∃ f ∈ e.raised, "T0814" ∈ f.mitreTechniques

theorem parseApciHeader_cf1 {frame : List UInt8} {header : ApciHeader}
    (h : parseApciHeader frame = some header) : header.cf1 = byteAt frame 2 := by
  simp only [parseApciHeader] at h
  split at h
  · cases h
  · split at h
    · cases h
    · split at h
      · cases h
      · split at h
        · cases h
        · cases h
          rfl

theorem trackNsDesync_techniques (c : Delivery) (flow : Iec104FlowState) (ns : UInt16) :
    ∀ f ∈ (trackNsDesync c flow ns).2, f.mitreTechniques = ["T1692.001"] := by
  intro f hf
  simp only [trackNsDesync] at hf
  split at hf
  · cases hf
  · split at hf
    · rw [List.mem_singleton.mp hf]
      rfl
    · cases hf

/-- The body is passed over; only the sequence number may be remarked on. -/
theorem frameEffect_of_truncated (c : Delivery) (flow : Iec104FlowState) {bytes : List UInt8}
    (h : TruncatedAsdu (.frame bytes)) :
    ∀ f ∈ (frameEffect c flow bytes).2, f.mitreTechniques = ["T1692.001"] := by
  obtain ⟨-, hformat, hshort⟩ := h
  have hnone : asduThreats c (bytes.drop 6) = [] := by
    rw [asduThreats, parseAsdu, if_pos hshort]
  intro f hf
  unfold frameEffect processFrame at hf
  cases hheader : parseApciHeader bytes with
  | none =>
    rw [hheader] at hf
    cases hf
  | some header =>
    simp only [hheader, parseApciHeader_cf1 hheader, hformat, hnone, List.nil_append] at hf
    exact trackNsDesync_techniques c _ _ f hf

theorem logAt_of_truncated (c : Delivery) (flow : Iec104FlowState) (position : Nat)
    (ps : List Piece) : ∀ e ∈ logAt c flow position ps, TruncatedAsdu e.piece →
      ∀ f ∈ e.raised, f.mitreTechniques = ["T1692.001"] := by
  induction ps generalizing flow position with
  | nil =>
    intro e he
    cases he
  | cons piece ps ih =>
    intro e he hshort
    rw [logAt] at he
    rcases List.mem_cons.mp he with rfl | he
    · cases piece with
      | frame bytes =>
        simp only [pieceRaises, map_plain]
        exact frameEffect_of_truncated c flow hshort
      | skip => exact absurd hshort id
      | stub len => exact absurd hshort id
    · exact ih _ _ e he hshort

theorem runLog_of_truncated (flowKey : FlowKey) (flow : Iec104FlowState)
    (calls : List TimedCall) : ∀ e ∈ runLog flowKey flow calls, TruncatedAsdu e.piece →
      ∀ f ∈ e.raised, f.mitreTechniques = ["T1692.001"] := by
  induction calls generalizing flow with
  | nil =>
    intro e he
    cases he
  | cons call calls ih =>
    intro e he
    rw [runLog] at he
    rcases List.mem_append.mp he with he | he
    · exact logAt_of_truncated _ _ _ _ e he
    · exact ih _ e he

theorem asdusReported_iff (flowKey : FlowKey) (flow : Iec104FlowState) (calls : List TimedCall) :
    AsdusReported (runLog flowKey flow calls) ↔
      ∀ dir, ∀ piece ∈ piecesOf dir (runLog flowKey flow calls), ¬ TruncatedAsdu piece := by
  constructor
  · intro h dir piece hpiece hshort
    obtain ⟨e, he, rfl⟩ := List.mem_map.mp hpiece
    have hmem := List.mem_of_mem_filter he
    obtain ⟨f, hf, htechnique⟩ := h e hmem hshort
    rw [runLog_of_truncated flowKey flow calls e hmem hshort f hf] at htechnique
    exact absurd htechnique (by decide)
  · intro h e he hshort
    refine absurd hshort (h e.direction e.piece (List.mem_map.mpr ⟨e, ?_, rfl⟩))
    exact List.mem_filter.mpr ⟨he, by simp⟩

/-- Whatever calls a new flow comes in, the frames of the log are those of the two streams and its
findings are those that the analyzer keeps or counts as dropped. The frames that are too short for
an ASDU are all reported exactly when there are none. -/
theorem truncated_reported_iff (s : Iec104Analyzer) (flowKey : FlowKey)
    (hfresh : s.flows.get? flowKey = none) (calls : List TimedCall) :
    Returns (run (onTimed flowKey) s calls) fun s' =>
      s'.findings = mergeFindings s.findings (findingsOf (runLog flowKey {} calls)) ∧
      (∀ dir, piecesOf dir (runLog flowKey {} calls) =
        (pieceLexer.lex (stream dir calls)).1) ∧
      (AsdusReported (runLog flowKey {} calls) ↔
        ∀ dir, ∀ piece ∈ (pieceLexer.lex (stream dir calls)).1, ¬ TruncatedAsdu piece) := by
  have hflow : flowOf s flowKey = {} := by rw [flowOf, hfresh, Option.getD_none]
  have hpieces : ∀ dir, piecesOf dir (runLog flowKey {} calls) =
      (pieceLexer.lex (stream dir calls)).1 := by
    intro dir
    rw [pieces_runLog flowKey dir shape_new]
    cases dir with
    | clientToServer => rfl
    | serverToClient => rfl
  refine (run_log calls (hflow ▸ shape_new)).mono ?_
  rintro s' ⟨-, hfindings⟩
  rw [hflow] at hfindings
  refine ⟨hfindings, hpieces, ?_⟩
  simp only [asdusReported_iff, hpieces]

/-- An I-frame that is nothing but its header. -/
def bareFrame : List TimedCall := [⟨0, .clientToServer, [0x68, 4, 0, 0, 0, 0]⟩]

theorem truncatedAsdu_bare : TruncatedAsdu (.frame [0x68, 4, 0, 0, 0, 0]) :=
  ⟨⟨4, [0, 0, 0, 0], rfl, by decide, by decide, rfl⟩, by decide, by decide⟩

theorem truncated_reported_iff_bare :
    ∃ s', run (onTimed stationKey) .new bareFrame = .ok s' ∧
      ¬ AsdusReported (runLog stationKey {} bareFrame) := by
  obtain ⟨s', hrun, -, -, hiff⟩ := truncated_reported_iff .new stationKey rfl bareFrame
  refine ⟨s', hrun, fun h => hiff.mp h .clientToServer _ ?_ truncatedAsdu_bare⟩
  exact List.mem_singleton.mpr rfl

/-- It is complete and too short, and nothing is raised, kept or dropped. -/
theorem truncated_unreported :
    ∃ s', run (onTimed stationKey) .new bareFrame = .ok s' ∧ s'.findings = ⟨[], 0⟩ ∧
      Piece.frame [0x68, 4, 0, 0, 0, 0] ∈
        (pieceLexer.lex (stream .clientToServer bareFrame)).1 ∧
      TruncatedAsdu (.frame [0x68, 4, 0, 0, 0, 0]) :=
  ⟨_, rfl, rfl, List.mem_singleton.mpr rfl, truncatedAsdu_bare⟩

end Wirerust.Iec104
