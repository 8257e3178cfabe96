import Wirerust.Lib.History
import Wirerust.Analyzer.S7commStream

/-!
What the flow of an S7comm connection remembers of its frames.

`FrameStep` is all that a frame can do. The flow and the findings of a run of whole frames are
compared with the list of frames seen so far (`Tells`): the session is established by a confirm
against the direction of the latest request, the first protocol byte classifies the flow for good,
and each direction reports one malformed header at most (`run_tells`).
-/

namespace Wirerust.S7comm

open Lib Wirerust.Flow Wirerust.Analyzer

/-! ## Frames -/

/-- What the analyzer distinguishes. A gap is a frame without a COTP header it knows. -/
inductive FrameKind
  | gap
  | connectRequest
  | connectConfirm
  | data (protocolId : Option UInt8) (payload : List UInt8)
  deriving DecidableEq, Repr

def kindOf (tpktPayload : List UInt8) : FrameKind :=
  match parseCotpHeader tpktPayload with
  | none => .gap
  | some header =>
    match header.tpduType with
    | .connectRequest => .connectRequest
    | .connectConfirm => .connectConfirm
    | .dataTransfer => .data header.protocolId (tpktPayload.drop header.payloadOffset)

/-- The payload of a classic frame that gives rise to a report. -/
def Rejected (payload : List UInt8) : Prop :=
  parseS7commHeader payload = none ∨
    ∃ header, parseS7commHeader payload = some header ∧
      s7commBoundsOk header payload.length = false

theorem dispatchClassicS7comm_cases (c : Delivery) (flow : S7commFlowState) {payload : List UInt8}
    (h : payload.head? = some 0x32) :
    (¬ Rejected payload ∧ dispatchClassicS7comm c flow payload = .ok (flow, [])) ∨
      Rejected payload ∧ ∃ reason,
        dispatchClassicS7comm c flow payload = .ok (reportMalformedHeader c flow reason) := by
  unfold dispatchClassicS7comm
  rw [assertThat_of h, ok_bind]
  cases hheader : parseS7commHeader payload with
  | none => exact .inr ⟨.inl hheader, _, rfl⟩
  | some header =>
    simp only
    cases hbounds : s7commBoundsOk header payload.length with
    | true =>
      refine .inl ⟨?_, rfl⟩
      rintro (hnone | ⟨other, hother, hfails⟩)
      · rw [hheader] at hnone
        cases hnone
      · rw [hheader] at hother
        cases hother
        rw [hbounds] at hfails
        cases hfails
    | false => exact .inr ⟨.inr ⟨header, hheader, hbounds⟩, _, rfl⟩

/-- All that a frame can do. -/
inductive FrameStep (c : Delivery) (flow : S7commFlowState) :
    FrameKind → Effect S7commFlowState Finding → Prop
  | gap : FrameStep c flow .gap (flow, [])
  | request : FrameStep c flow .connectRequest ({ flow with crObservedDir := some c.direction }, [])
  | established (crDir : Direction) :
    flow.crObservedDir = some crDir → crDir ≠ c.direction →
    FrameStep c flow .connectConfirm ({ flow with sessionEstablished := true }, [])
  | unmatched : (∀ crDir, flow.crObservedDir = some crDir → crDir = c.direction) →
    FrameStep c flow .connectConfirm (flow, [])
  | empty (payload : List UInt8) : FrameStep c flow (.data none payload) (flow, [])
  | foreign (b : UInt8) (payload : List UInt8) : b ≠ 0x32 →
    FrameStep c flow (.data (some b) payload) (classifyFirstDtFrame flow (some b), [])
  | passed (payload : List UInt8) :
    (classifyFirstDtFrame flow (some 0x32)).classifiedProtocol ≠ some .classic →
    FrameStep c flow (.data (some 0x32) payload) (classifyFirstDtFrame flow (some 0x32), [])
  | accepted (payload : List UInt8) : ¬ Rejected payload →
    FrameStep c flow (.data (some 0x32) payload) (classifyFirstDtFrame flow (some 0x32), [])
  | rejected (payload : List UInt8) (reason : String) : Rejected payload →
    (classifyFirstDtFrame flow (some 0x32)).classifiedProtocol = some .classic →
    FrameStep c flow (.data (some 0x32) payload)
      (reportMalformedHeader c (classifyFirstDtFrame flow (some 0x32)) reason)

theorem frameEffect_step (c : Delivery) (flow : S7commFlowState) (tpktPayload : List UInt8) :
    FrameStep c flow (kindOf tpktPayload) (frameEffect c flow tpktPayload) := by
  unfold frameEffect dispatchCotpFrame kindOf
  cases hheader : parseCotpHeader tpktPayload with
  | none => exact .gap
  | some header =>
    simp only
    cases hkind : header.tpduType with
    | connectRequest => exact .request
    | connectConfirm =>
      cases hcr : flow.crObservedDir with
      | none => exact .unmatched fun crDir h => by rw [hcr] at h; cases h
      | some crDir =>
        simp only
        by_cases hdir : crDir = c.direction
        · rw [if_neg (not_not_intro hdir)]
          exact .unmatched fun other h => by rw [hcr] at h; cases h; exact hdir
        · rw [if_pos hdir, ← hcr]
          exact .established crDir hcr hdir
    | dataTransfer =>
      simp only
      cases hid : header.protocolId with
      | none => exact .empty _
      | some b =>
        by_cases hb : b = 0x32
        · subst hb
          obtain ⟨hoffset, hfirst⟩ := parseCotpHeader_protocolId hheader hid
          rw [if_pos rfl, slice_of_le hoffset (Nat.le_refl _), List.take_length]
          by_cases hclass :
              (classifyFirstDtFrame flow (some 0x32)).classifiedProtocol = some .classic
          · rw [if_pos hclass, ok_bind]
            rcases dispatchClassicS7comm_cases c (classifyFirstDtFrame flow (some 0x32)) hfirst with
              ⟨hgood, heq⟩ | ⟨hbad, reason, heq⟩
            · rw [heq]
              exact .accepted _ hgood
            · rw [heq]
              exact .rejected _ reason hbad hclass
          · rw [if_neg hclass]
            exact .passed _ hclass
        · rw [if_neg (fun h => hb (Option.some.inj h))]
          exact .foreign b _ hb

/-! ## What the frames say -/

/-- A frame and the direction it was sent in. -/
abbrev Seen := Direction × FrameKind

def requestDirection : Seen → Option Direction
  | (dir, .connectRequest) => some dir
  | _ => none

/-- Some confirm was sent against the direction of the latest request before it. -/
def Established (seen : List Seen) : Prop :=
  Occurs (fun before x => x.2 = .connectConfirm ∧
    ∃ dir, latest requestDirection before = some dir ∧ dir ≠ x.1) seen

def protocolByte : Seen → Option UInt8
  | (_, .data protocolId _) => protocolId
  | _ => none

def protocolClass (byte : UInt8) : S7Protocol :=
  if byte = 0x32 then .classic else if byte = 0x72 then .plus else .unclassified

/-- The class of the first protocol byte. -/
def classification (seen : List Seen) : Option S7Protocol :=
  (seen.findSome? protocolByte).map protocolClass

def Malformed (seen : List Seen) (dir : Direction) : Prop :=
  ∃ payload, (dir, .data (some 0x32) payload) ∈ seen ∧ Rejected payload

def isMalformedHeader (dir : Direction) (f : Finding) : Bool :=
  f.mitreTechniques = ["T0814"] && f.direction = some dir &&
    "Malformed classic S7comm header: ".toList.isPrefixOf f.summary.toList

theorem classification_snoc (seen : List Seen) (x : Seen) :
    classification (seen ++ [x]) =
      (classification seen).or ((protocolByte x).map protocolClass) := by
  rw [classification, classification, List.findSome?_append, List.findSome?_singleton,
    Option.map_or]

theorem malformed_snoc (seen : List Seen) (x : Seen) (dir : Direction) :
    Malformed (seen ++ [x]) dir ↔
      Malformed seen dir ∨ ∃ payload, x = (dir, .data (some 0x32) payload) ∧ Rejected payload := by
  simp only [Malformed, List.mem_append, List.mem_singleton, or_and_right, exists_or,
    eq_comm (b := x)]

/-- A malformed frame has a protocol byte. -/
theorem Malformed.classified {seen : List Seen} {dir : Direction} (h : Malformed seen dir) :
    classification seen ≠ none := by
  obtain ⟨payload, hmem, -⟩ := h
  intro hnone
  rw [classification, Option.map_eq_none_iff, List.findSome?_eq_none_iff] at hnone
  cases hnone _ hmem

/-- What a flow and its findings tell of the frames. -/
structure Tells (flow : S7commFlowState) (raised : List Finding) (seen : List Seen) : Prop where
  request : flow.crObservedDir = latest requestDirection seen
  established : flow.sessionEstablished = true ↔ Established seen
  classified : flow.classifiedProtocol = classification seen
  reported : ∀ dir, flow.malformedHeaderReported dir = true ↔
    classification seen = some .classic ∧ Malformed seen dir
  once : ∀ dir, raised.countP (isMalformedHeader dir) = (flow.malformedHeaderReported dir).toNat

theorem tells_nil : Tells {} [] [] where
  request := rfl
  established := by
    constructor
    · intro h
      cases h
    · intro h
      exact absurd h not_occurs_nil
  classified := rfl
  reported := fun dir => by
    constructor
    · intro h
      cases dir with
      | clientToServer => cases h
      | serverToClient => cases h
    · rintro ⟨h, -⟩
      cases h
  once := fun dir => by
    cases dir with
    | clientToServer => rfl
    | serverToClient => rfl

/-! ## One frame -/

section Classify

variable (flow : S7commFlowState)

@[simp] theorem classify_crObservedDir (id : Option UInt8) :
    (classifyFirstDtFrame flow id).crObservedDir = flow.crObservedDir := by
  unfold classifyFirstDtFrame
  cases id with
  | none => rfl
  | some byte => simp only; split <;> rfl

@[simp] theorem classify_sessionEstablished (id : Option UInt8) :
    (classifyFirstDtFrame flow id).sessionEstablished = flow.sessionEstablished := by
  unfold classifyFirstDtFrame
  cases id with
  | none => rfl
  | some byte => simp only; split <;> rfl

@[simp] theorem classify_malformedHeaderReported (id : Option UInt8) :
    (classifyFirstDtFrame flow id).malformedHeaderReported = flow.malformedHeaderReported := by
  unfold classifyFirstDtFrame
  cases id with
  | none => rfl
  | some byte => simp only; split <;> rfl

theorem classify_classifiedProtocol (byte : UInt8) :
    (classifyFirstDtFrame flow (some byte)).classifiedProtocol =
      flow.classifiedProtocol.or (some (protocolClass byte)) := by
  unfold classifyFirstDtFrame protocolClass
  cases h : flow.classifiedProtocol with
  | none => simp
  | some protocol => simp [h]

end Classify

section Report

variable (c : Delivery) (flow : S7commFlowState) (reason : String)

@[simp] theorem report_crObservedDir :
    (reportMalformedHeader c flow reason).1.crObservedDir = flow.crObservedDir := by
  unfold reportMalformedHeader
  split
  · rfl
  · cases c.direction <;> rfl

@[simp] theorem report_sessionEstablished :
    (reportMalformedHeader c flow reason).1.sessionEstablished = flow.sessionEstablished := by
  unfold reportMalformedHeader
  split
  · rfl
  · cases c.direction <;> rfl

@[simp] theorem report_classifiedProtocol :
    (reportMalformedHeader c flow reason).1.classifiedProtocol = flow.classifiedProtocol := by
  unfold reportMalformedHeader
  split
  · rfl
  · cases c.direction <;> rfl

@[simp] theorem reported_of_request (dir : Option Direction) :
    { flow with crObservedDir := dir }.malformedHeaderReported = flow.malformedHeaderReported := rfl

@[simp] theorem reported_of_session (established : Bool) :
    { flow with sessionEstablished := established }.malformedHeaderReported =
      flow.malformedHeaderReported := rfl

theorem setMalformedHeaderReported_eq (dir other : Direction) :
    (flow.setMalformedHeaderReported dir).malformedHeaderReported other =
      (flow.malformedHeaderReported other || decide (other = dir)) := by
  cases dir <;> cases other <;>
    simp [S7commFlowState.setMalformedHeaderReported, S7commFlowState.malformedHeaderReported]

theorem report_malformedHeaderReported (dir : Direction) :
    (reportMalformedHeader c flow reason).1.malformedHeaderReported dir =
      (flow.malformedHeaderReported dir || decide (dir = c.direction)) := by
  unfold reportMalformedHeader
  split
  · rename_i hreported
    by_cases hdir : dir = c.direction
    · simp [hdir, hreported]
    · simp [hdir]
  · exact setMalformedHeaderReported_eq flow c.direction dir

theorem isMalformedHeader_finding (dir : Direction) :
    isMalformedHeader dir (c.finding
      ("Malformed classic S7comm header: " ++ reason ++ " (T0814; BC-2.21.004/007/008/009)")
      reason) = decide (dir = c.direction) := by
  have hprefix : "Malformed classic S7comm header: ".toList.isPrefixOf
      ("Malformed classic S7comm header: " ++ reason ++
        " (T0814; BC-2.21.004/007/008/009)").toList = true := by
    rw [List.isPrefixOf_iff_prefix, String.toList_append, String.toList_append, List.append_assoc]
    exact List.prefix_append _ _
  simp only [isMalformedHeader, Delivery.finding, hprefix, decide_true, Bool.true_and,
    Bool.and_true, Option.some.injEq, eq_comm]

/-- Raised in its own direction, when that had not been reported. -/
theorem report_raised (dir : Direction) :
    (reportMalformedHeader c flow reason).2.countP (isMalformedHeader dir) =
      if flow.malformedHeaderReported dir = false ∧ dir = c.direction then 1 else 0 := by
  unfold reportMalformedHeader
  by_cases hreported : flow.malformedHeaderReported c.direction = true
  · rw [if_pos hreported, if_neg]
    · rfl
    · rintro ⟨hnot, rfl⟩
      rw [hreported] at hnot
      cases hnot
  · rw [if_neg hreported, List.countP_singleton, isMalformedHeader_finding]
    by_cases hdir : dir = c.direction
    · subst hdir
      rw [if_pos (by simp), if_pos ⟨Bool.eq_false_iff.mpr hreported, rfl⟩]
    · rw [if_neg (by simpa using hdir), if_neg (fun h => hdir h.2)]

end Report

namespace FrameStep

variable {c : Delivery} {flow : S7commFlowState} {kind : FrameKind}
  {e : Effect S7commFlowState Finding}

theorem request_eq (h : FrameStep c flow kind e) :
    e.1.crObservedDir = (requestDirection (c.direction, kind)).or flow.crObservedDir := by
  cases h with
  | rejected payload reason _ _ => simp [requestDirection]
  | _ => simp [requestDirection]

theorem established_iff (h : FrameStep c flow kind e) :
    e.1.sessionEstablished = true ↔ flow.sessionEstablished = true ∨
      kind = .connectConfirm ∧ ∃ dir, flow.crObservedDir = some dir ∧ dir ≠ c.direction := by
  cases h with
  | established crDir hcr hdir => simp [hcr, hdir]
  | unmatched hcr =>
    constructor
    · exact .inl
    · rintro (h | ⟨-, dir, hdir, hne⟩)
      · exact h
      · exact absurd (hcr dir hdir) hne
  | _ => simp

theorem classified_eq (h : FrameStep c flow kind e) :
    e.1.classifiedProtocol =
      flow.classifiedProtocol.or ((protocolByte (c.direction, kind)).map protocolClass) := by
  cases h with
  | rejected payload reason _ _ => simp [protocolByte, classify_classifiedProtocol]
  | foreign b payload _ => exact classify_classifiedProtocol flow b
  | passed payload _ => exact classify_classifiedProtocol flow 0x32
  | accepted payload _ => exact classify_classifiedProtocol flow 0x32
  | _ => simp [protocolByte]

theorem reported_iff (h : FrameStep c flow kind e) (dir : Direction) :
    e.1.malformedHeaderReported dir = true ↔ flow.malformedHeaderReported dir = true ∨
      e.1.classifiedProtocol = some .classic ∧
        ∃ payload, (c.direction, kind) = (dir, .data (some 0x32) payload) ∧ Rejected payload := by
  cases h with
  | foreign b payload hb => simp [hb]
  | passed payload hclass => simp [hclass]
  | accepted payload hgood =>
    simp only [classify_malformedHeaderReported, Prod.mk.injEq, FrameKind.data.injEq, true_and]
    constructor
    · exact .inl
    · rintro (h | ⟨-, other, ⟨-, rfl⟩, hbad⟩)
      · exact h
      · exact absurd hbad hgood
  | rejected payload reason hbad hclass =>
    rw [report_malformedHeaderReported, classify_malformedHeaderReported,
      report_classifiedProtocol, Bool.or_eq_true, decide_eq_true_iff]
    constructor
    · rintro (h | rfl)
      · exact .inl h
      · exact .inr ⟨hclass, payload, rfl, hbad⟩
    · rintro (h | ⟨-, other, heq, -⟩)
      · exact .inl h
      · exact .inr (congrArg Prod.fst heq).symm
  | _ => simp

/-- A report is raised when the direction is marked, and never again. -/
theorem raised_eq (h : FrameStep c flow kind e) (dir : Direction) :
    (flow.malformedHeaderReported dir).toNat + e.2.countP (isMalformedHeader dir) =
      (e.1.malformedHeaderReported dir).toNat := by
  cases h with
  | rejected payload reason _ _ =>
    rw [report_raised, report_malformedHeaderReported, classify_malformedHeaderReported]
    cases hreported : flow.malformedHeaderReported dir with
    | true => simp
    | false => by_cases hdir : dir = c.direction <;> simp [hdir]
  | _ => simp

end FrameStep

theorem Tells.step {c : Delivery} {flow : S7commFlowState} {raised : List Finding}
    {seen : List Seen} {kind : FrameKind} {e : Effect S7commFlowState Finding}
    (h : Tells flow raised seen) (hstep : FrameStep c flow kind e) :
    Tells e.1 (raised ++ e.2) (seen ++ [(c.direction, kind)]) where
  request := by rw [hstep.request_eq, latest_snoc, h.request]
  established := by
    rw [hstep.established_iff, Established, occurs_snoc, h.established, h.request]
    rfl
  classified := by rw [hstep.classified_eq, classification_snoc, h.classified]
  reported := fun dir => by
    have hclass : e.1.classifiedProtocol = classification (seen ++ [(c.direction, kind)]) := by
      rw [hstep.classified_eq, classification_snoc, h.classified]
    -- A direction that has been malformed has been classified, and stays so.
    have hsticky : Malformed seen dir →
        classification (seen ++ [(c.direction, kind)]) = classification seen := by
      intro hmalformed
      obtain ⟨protocol, hprotocol⟩ := Option.ne_none_iff_exists'.mp hmalformed.classified
      rw [classification_snoc, hprotocol, Option.some_or]
    rw [hstep.reported_iff, h.reported, malformed_snoc, hclass]
    constructor
    · rintro (⟨hclassic, hmalformed⟩ | ⟨hclassic, hnow⟩)
      · exact ⟨(hsticky hmalformed).trans hclassic, .inl hmalformed⟩
      · exact ⟨hclassic, .inr hnow⟩
    · rintro ⟨hclassic, hmalformed | hnow⟩
      · exact .inl ⟨(hsticky hmalformed).symm.trans hclassic, hmalformed⟩
      · exact .inr ⟨hclassic, hnow⟩
  once := fun dir => by rw [List.countP_append, h.once, hstep.raised_eq]

/-! ## Runs of whole frames -/

/-- A frame that is all there, and nothing after it. -/
structure TpktFrame where
  bytes : List UInt8
  header : TpktHeader
  parses : parseTpktHeader bytes = some header
  whole : bytes.length = header.length.toNat

def TpktFrame.kind (frame : TpktFrame) : FrameKind := kindOf (frame.bytes.drop 4)

/-- The frames of a call, with what is known besides. -/
structure FrameCall where
  ts : UInt32
  direction : Direction
  frames : List TpktFrame

def FrameCall.delivery (flowKey : FlowKey) (call : FrameCall) : Delivery :=
  ⟨flowKey, call.ts, call.direction⟩

def FrameCall.data (call : FrameCall) : List UInt8 := call.frames.flatMap TpktFrame.bytes

def FrameCall.seen (call : FrameCall) : List Seen :=
  call.frames.map fun frame => (call.direction, frame.kind)

def onCall (flowKey : FlowKey) (s : S7commAnalyzer) (call : FrameCall) : Checked S7commAnalyzer :=
  onData s (call.delivery flowKey) call.data

theorem TpktFrame.pieceOf_append (frame : TpktFrame) (rest : List UInt8) :
    pieceOf (frame.bytes ++ rest) = some (.frame frame.bytes, frame.bytes.length) := by
  have hmin := parseTpktHeader_length frame.parses
  have hlen := frame.whole
  rw [pieceOf, if_neg (by rw [List.length_append]; omega), parseTpktHeader_append (by omega),
    frame.parses]
  simp only
  rw [if_pos (by rw [List.length_append]; omega), ← hlen, List.take_left]

theorem lex_frames (frames : List TpktFrame) :
    pieceLexer.lex (frames.flatMap TpktFrame.bytes) =
      (frames.map fun frame => .frame frame.bytes, []) := by
  induction frames with
  | nil => exact pieceLexer.lex_of_none rfl
  | cons frame frames ih =>
    rw [List.flatMap_cons, pieceLexer.lex_of_some (frame.pieceOf_append _), List.drop_left, ih]
    rfl

theorem Tells.frames {c : Delivery} {flow : S7commFlowState} {raised : List Finding}
    {seen : List Seen} (h : Tells flow raised seen) (frames : List TpktFrame) :
    Tells (raises c flow (frames.map fun frame => .frame frame.bytes)).1
      (raised ++ (raises c flow (frames.map fun frame => .frame frame.bytes)).2)
      (seen ++ frames.map fun frame => (c.direction, frame.kind)) := by
  induction frames generalizing flow raised seen with
  | nil =>
    simp only [List.map_nil, raises, emits_nil, List.append_nil]
    exact h
  | cons frame frames ih =>
    have hstep := frameEffect_step c flow (frame.bytes.drop 4)
    have hrest := ih (h.step hstep)
    simp only [List.map_cons, raises, emits_cons, Effect.andThen] at hrest ⊢
    rwa [List.append_assoc, List.append_assoc, List.singleton_append] at hrest

/-- Nothing is left over between two calls. -/
def Empty (flow : S7commFlowState) : Prop := ∀ dir, flow.carry dir = []

theorem setCarry_nil {flow : S7commFlowState} (h : Empty flow) (dir : Direction) :
    flow.setCarry dir [] = flow :=
  setCarry_of_carry _ _ (h dir)

theorem effect_frames {flow : S7commFlowState} (h : Empty flow) (flowKey : FlowKey)
    (call : FrameCall) :
    effect (call.delivery flowKey) flow call.data = raises (call.delivery flowKey) flow
        (call.frames.map fun frame => .frame frame.bytes) ∧
      Empty (effect (call.delivery flowKey) flow call.data).1 := by
  have hkeeps : Empty (raises (call.delivery flowKey) flow
      (call.frames.map fun frame => .frame frame.bytes)).1 := by
    intro dir
    rw [(raises_keeps _ flow _).carry]
    exact h dir
  have heffect : effect (call.delivery flowKey) flow call.data = raises (call.delivery flowKey)
      flow (call.frames.map fun frame => .frame frame.bytes) := by
    rw [effect, h, List.nil_append, FrameCall.data, lex_frames, setCarry_nil h]
    simp only
    rw [setCarry_nil hkeeps]
  exact ⟨heffect, heffect ▸ hkeeps⟩

theorem FrameStep.reported_other {c : Delivery} {flow : S7commFlowState} {kind : FrameKind}
    {e : Effect S7commFlowState Finding} (h : FrameStep c flow kind e) {dir : Direction}
    (hdir : dir ≠ c.direction) :
    e.1.malformedHeaderReported dir = flow.malformedHeaderReported dir := by
  have hno : ¬ ∃ payload, (c.direction, kind) = (dir, .data (some 0x32) payload) ∧
      Rejected payload := by
    rintro ⟨payload, heq, -⟩
    exact hdir (congrArg Prod.fst heq).symm
  rw [Bool.eq_iff_iff, h.reported_iff]
  constructor
  · rintro (hold | ⟨-, hnow⟩)
    · exact hold
    · exact absurd hnow hno
  · exact .inl

theorem raises_reported_other (c : Delivery) (flow : S7commFlowState) (ps : List Piece)
    {dir : Direction} (hdir : dir ≠ c.direction) :
    (raises c flow ps).1.malformedHeaderReported dir = flow.malformedHeaderReported dir := by
  refine emits_keeps (I := fun mid : S7commFlowState => mid.malformedHeaderReported dir =
    flow.malformedHeaderReported dir) (fun mid piece h => ?_) ps rfl
  cases piece with
  | skip => exact h
  | frame bytes => exact ((frameEffect_step c mid (bytes.drop 4)).reported_other hdir).trans h

/-- A call of whole frames finds no carry that is too long. -/
theorem onCall_eq {s : S7commAnalyzer} {flowKey : FlowKey} (h : Empty (flowOf s flowKey))
    (call : FrameCall) :
    onCall flowKey s call = .ok {
      flows := s.flows.insert flowKey
        (effect (call.delivery flowKey) (flowOf s flowKey) call.data).1
      findings := s.findings ++
        (effect (call.delivery flowKey) (flowOf s flowKey) call.data).2 } := by
  refine onData_eq s (call.delivery flowKey) call.data ?_
  rw [show (call.delivery flowKey).flowKey = flowKey from rfl, h]
  exact Nat.zero_le _

theorem flowOf_insert (s : S7commAnalyzer) (flowKey : FlowKey) (flow : S7commFlowState)
    (findings : List Finding) : flowOf ⟨s.flows.insert flowKey flow, findings⟩ flowKey = flow := by
  rw [flowOf, SortedMap.get?_insert_self, Option.getD_some]

theorem run_tells {s : S7commAnalyzer} {flowKey : FlowKey} (hfresh : s.flows.get? flowKey = none)
    (calls : List FrameCall) :
    Returns (run (onCall flowKey) s calls) fun s' => Empty (flowOf s' flowKey) ∧
      ∃ raised, s'.findings = s.findings ++ raised ∧
        Tells (flowOf s' flowKey) raised (calls.flatMap FrameCall.seen) := by
  refine run_returns (I := fun calls s' => Empty (flowOf s' flowKey) ∧
    ∃ raised, s'.findings = s.findings ++ raised ∧
      Tells (flowOf s' flowKey) raised (calls.flatMap FrameCall.seen)) calls ?_ ?_
  · rw [flowOf, hfresh]
    refine ⟨fun dir => ?_, [], (List.append_nil _).symm, tells_nil⟩
    cases dir with
    | clientToServer => rfl
    | serverToClient => rfl
  · rintro done call s' - - ⟨hempty, raised, hfindings, htells⟩
    obtain ⟨heffect, hempty'⟩ := effect_frames hempty flowKey call
    rw [onCall_eq hempty]
    refine .pure ?_
    rw [flowOf_insert, hfindings]
    refine ⟨hempty', _, List.append_assoc _ _ _, ?_⟩
    rw [List.flatMap_append, List.flatMap_singleton, heffect]
    exact htells.frames call.frames

/-- Whatever frames a new flow has seen, in whatever order of the two directions: the session is
established exactly when some confirm went against the latest request before it, the class is that
of the first protocol byte, and each direction has reported a malformed header once if the flow is
classic and it has sent one. No call touches the flags of the other direction. -/
theorem run_sessions (s : S7commAnalyzer) (flowKey : FlowKey)
    (hfresh : s.flows.get? flowKey = none) (calls : List FrameCall) :
    Returns (run (onCall flowKey) s calls) fun s' =>
      ((flowOf s' flowKey).sessionEstablished = true ↔
        Established (calls.flatMap FrameCall.seen)) ∧
      (flowOf s' flowKey).classifiedProtocol =
        classification (calls.flatMap FrameCall.seen) ∧
      (∃ raised, s'.findings = s.findings ++ raised ∧ ∀ dir,
        raised.countP (isMalformedHeader dir) ≤ 1 ∧
        ((∃ f ∈ raised, isMalformedHeader dir f = true) ↔
          (flowOf s' flowKey).classifiedProtocol = some .classic ∧
            Malformed (calls.flatMap FrameCall.seen) dir)) ∧
      ∀ call, Returns (onCall flowKey s' call) fun s'' => ∀ dir, dir ≠ call.direction →
        (flowOf s'' flowKey).malformedHeaderReported dir =
            (flowOf s' flowKey).malformedHeaderReported dir ∧
          (flowOf s'' flowKey).carryOverflowReported dir =
            (flowOf s' flowKey).carryOverflowReported dir ∧
          (flowOf s'' flowKey).carry dir = (flowOf s' flowKey).carry dir := by
  refine (run_tells hfresh calls).mono ?_
  rintro s' ⟨hempty, raised, hfindings, htells⟩
  refine ⟨htells.established, htells.classified, ⟨raised, hfindings, fun dir => ?_⟩,
    fun call => ?_⟩
  · refine ⟨(htells.once dir).trans_le (Bool.toNat_le _), ?_⟩
    rw [htells.classified, ← htells.reported, ← List.countP_pos_iff, htells.once]
    cases (flowOf s' flowKey).malformedHeaderReported dir <;> simp
  · rw [onCall_eq hempty]
    refine .pure fun dir hdir => ?_
    have hkeeps := raises_keeps (call.delivery flowKey) (flowOf s' flowKey)
      (call.frames.map fun frame => .frame frame.bytes)
    have hreported := raises_reported_other (call.delivery flowKey) (flowOf s' flowKey)
      (call.frames.map fun frame => .frame frame.bytes) hdir
    rw [flowOf_insert, (effect_frames hempty flowKey call).1]
    exact ⟨hreported, congrFun hkeeps.overflow dir, congrFun hkeeps.carry dir⟩

/-! ## A short header in a session -/

def requestFrame : TpktFrame := ⟨[3, 0, 0, 7, 2, 0xe0, 0], ⟨3, 7⟩, by decide, by decide⟩

def confirmFrame : TpktFrame := ⟨[3, 0, 0, 7, 2, 0xd0, 0], ⟨3, 7⟩, by decide, by decide⟩

/-- A classic header of one byte. -/
def shortFrame : TpktFrame := ⟨[3, 0, 0, 8, 2, 0xf0, 0x80, 0x32], ⟨3, 8⟩, by decide, by decide⟩

def shortCalls : List FrameCall :=
  [⟨0, .clientToServer, [requestFrame]⟩, ⟨1, .serverToClient, [confirmFrame]⟩,
    ⟨2, .clientToServer, [shortFrame, shortFrame]⟩]

theorem run_sessions_short :
    ∃ s', run (onCall plcDelivery.flowKey) .new shortCalls = .ok s' ∧
      (flowOf s' plcDelivery.flowKey).sessionEstablished = true ∧
      (flowOf s' plcDelivery.flowKey).classifiedProtocol = some .classic ∧
      ∃ f ∈ s'.findings, isMalformedHeader .clientToServer f = true := by
  obtain ⟨s', hrun, hsession, hclass, ⟨raised, hfindings, hraised⟩, -⟩ :=
    run_sessions .new plcDelivery.flowKey rfl shortCalls
  have hclassic : (flowOf s' plcDelivery.flowKey).classifiedProtocol = some .classic :=
    hclass.trans (by decide)
  refine ⟨s', hrun, hsession.mpr ?_, hclassic, ?_⟩
  · exact ⟨[(.clientToServer, .connectRequest)], (.serverToClient, .connectConfirm), _, rfl, rfl,
      .clientToServer, rfl, by decide⟩
  · rw [hfindings]
    exact (hraised .clientToServer).2.mpr
      ⟨hclassic, [0x32], by decide, .inl rfl⟩

end Wirerust.S7comm
