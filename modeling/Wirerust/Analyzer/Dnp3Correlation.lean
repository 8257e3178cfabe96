import Wirerust.Lib.Trail
import Wirerust.Analyzer.Dnp3Carry

/-!
What the correlation of the DNP3 analyzer sees.

A `Board` is the part of a flow that the correlation keeps, and a `Happening` one change of it: a
request, its response or its timeout, a restart, an alarm, or the reset of the window. `Step` says
when each of them may come and what it does. `callTrace` reads the happenings of a call off the
state before it, and `onFlowData_traced` says that they lead from the board before the call to the
board after it, and that the alarms among them are the findings that have been raised.
-/

namespace Wirerust.Dnp3

open Lib Wirerust.Flow Wirerust.Analyzer

/-! ## Happenings -/

inductive Alarm
  | blockedCommand
  | lossOfControl
  deriving DecidableEq, Repr

def Alarm.technique : Alarm → String
  | .blockedCommand => "T1691.001"
  | .lossOfControl => "T0827"

/-- The alarm that a finding with this technique is. -/
def alarmFor (techniques : List String) : Option Alarm :=
  if techniques = [Alarm.blockedCommand.technique] then some .blockedCommand
  else if techniques = [Alarm.lossOfControl.technique] then some .lossOfControl
  else none

def alarmOf (finding : Finding) : Option Alarm := alarmFor finding.mitreTechniques

inductive Happening
  | reset
  /-- `overwrote` says that the key was pending; `evicted` is the request that had to go. -/
  | requested (appFc : UInt8) (key : ReqKey) (overwrote : Bool) (evicted : Option ReqKey)
  /-- A response `0x81`; `removed` says that the key was pending. -/
  | answered (key : ReqKey) (removed : Bool)
  | timedOut (key : ReqKey)
  | restarted
  | raised (alarm : Alarm)
  deriving DecidableEq

namespace Happening

def isRequest : Happening → Bool
  | requested _ _ _ _ => true
  | _ => false

def isOverwrite : Happening → Bool
  | requested _ _ overwrote _ => overwrote
  | _ => false

def isEviction : Happening → Bool
  | requested _ _ _ evicted => evicted.isSome
  | _ => false

def isRemoval : Happening → Bool
  | answered _ removed => removed
  | _ => false

def isTimeout : Happening → Bool
  | timedOut _ => true
  | _ => false

def requests (key : ReqKey) : Happening → Bool
  | requested _ other _ _ => other = key
  | _ => false

def raises (alarm : Alarm) : Happening → Bool
  | raised other => other = alarm
  | _ => false

def alarm? : Happening → Option Alarm
  | raised alarm => some alarm
  | _ => none

end Happening

/-! ## The board -/

structure Board where
  pending : SortedMap ReqKey UInt32
  restarts : Nat
  blocks : Nat
  blockRaised : Bool
  lossRaised : Bool

def boardOf (flow : Dnp3FlowState) : Board where
  pending := flow.pendingRequests
  restarts := flow.restartEventCount
  blocks := flow.blockEventCount
  blockRaised := flow.blockFindingEmittedThisWindow
  lossRaised := flow.lossOfControlEmitted

/-- One happening at the time `ts`. -/
inductive Step (ts : UInt32) : Board → Happening → Board → Prop
  | reset (b : Board) : Step ts b .reset
      { b with restarts := 0, blocks := 0, blockRaised := false, lossRaised := false }
  | requested (b : Board) (appFc : UInt8) (key : ReqKey) (hfc : appFc = 3 ∨ appFc = 4 ∨ appFc = 5)
      (hnew : b.pending.get? key = none) :
      Step ts b (.requested appFc key false none) { b with pending := b.pending.insert key ts }
  | overwrote (b : Board) (appFc : UInt8) (key : ReqKey) (old : UInt32)
      (hfc : appFc = 3 ∨ appFc = 4 ∨ appFc = 5) (hold : b.pending.get? key = some old) :
      Step ts b (.requested appFc key true none) { b with pending := b.pending.insert key ts }
  | evicted (b : Board) (appFc : UInt8) (key victim : ReqKey) (old : UInt32)
      (hfc : appFc = 3 ∨ appFc = 4 ∨ appFc = 5) (hnew : b.pending.get? key = none)
      (hold : b.pending.get? victim = some old) :
      Step ts b (.requested appFc key false (some victim))
        { b with pending := (b.pending.erase victim).insert key ts }
  | answered (b : Board) (key : ReqKey) :
      Step ts b (.answered key (b.pending.get? key).isSome)
        { b with pending := b.pending.erase key }
  | timedOut (b : Board) (key : ReqKey) (since : UInt32) (hsince : b.pending.get? key = some since)
      (hlate : saturatingSub ts since > blockCmdTimeoutSecs) :
      Step ts b (.timedOut key)
        { b with pending := b.pending.erase key, blocks := bump64 b.blocks }
  | restarted (b : Board) : Step ts b .restarted { b with restarts := bump64 b.restarts }
  | blockedCommand (b : Board) (hdue : blockCmdThreshold ≤ b.blocks)
      (hoff : b.blockRaised = false) :
      Step ts b (.raised .blockedCommand) { b with blockRaised := true }
  | lossOfControl (b : Board) (hdue : t0827Threshold ≤ b.restarts + b.blocks)
      (hoff : b.lossRaised = false) :
      Step ts b (.raised .lossOfControl) { b with lossRaised := true }

/-- Both alarms have been raised that are due. -/
structure Due (b : Board) : Prop where
  blocks : blockCmdThreshold ≤ b.blocks → b.blockRaised = true
  loss : t0827Threshold ≤ b.restarts + b.blocks → b.lossRaised = true

/-! ## Traces -/

def lossTrace (b : Board) : List Happening :=
  if t0827Threshold ≤ b.restarts + b.blocks && !b.lossRaised then [.raised .lossOfControl] else []

def blockTrace (b : Board) : List Happening :=
  if blockCmdThreshold ≤ b.blocks && !b.blockRaised then [.raised .blockedCommand] else []

def Board.timeOut (b : Board) (key : ReqKey) : Board :=
  { b with pending := b.pending.erase key, blocks := bump64 b.blocks }

def timedOutKeys (ts : UInt32) (b : Board) : List ReqKey :=
  (b.pending.entries.filter fun e => saturatingSub ts e.2 > blockCmdTimeoutSecs).map Prod.fst

def scanTrace (ts : UInt32) (b : Board) : List Happening :=
  let timedOut := timedOutKeys ts b
  let b' := timedOut.foldl Board.timeOut b
  timedOut.map .timedOut ++ blockTrace b' ++ if timedOut.isEmpty then [] else lossTrace b'

/-- The request, with the victim that makes room for it. -/
def requestHappening (entries : List (ReqKey × UInt32)) (b : Board) (appFc : UInt8)
    (key : ReqKey) : Happening :=
  if b.pending.size ≥ maxPendingRequests && (b.pending.get? key).isNone then
    .requested appFc key false ((oldest entries).map Prod.fst)
  else .requested appFc key (b.pending.get? key).isSome none

def classTrace (ord : PendingOrder) (r : Request) (appCtrl : UInt8) (evictions : Nat)
    (b : Board) : List Happening :=
  match classifyDnp3Fc r.appFc with
  | .control =>
    if r.appFc ≠ 0x06 then
      [requestHappening (ord.visit evictions b.pending.entries) b r.appFc
        (toLex (r.dest, appCtrl &&& 0x0f))]
    else []
  | .restart => .restarted :: lossTrace { b with restarts := bump64 b.restarts }
  | .response =>
    if r.appFc = 0x81 then
      let key := toLex (r.src, appCtrl &&& 0x0f)
      [.answered key (b.pending.get? key).isSome]
    else []
  | _ => []

def frameTrace (ord : PendingOrder) (h : Dnp3DlHeader) (frame : List UInt8) (evictions : Nat)
    (b : Board) : List Happening :=
  match applicationOf frame h with
  | some (r, appCtrl) => classTrace ord r appCtrl evictions b
  | none => []

/-- The complete frame with a valid header at the front of the carry. -/
def frameAt (carry : List UInt8) : Option (Dnp3DlHeader × List UInt8) :=
  if carry.length < 10 || !isSync carry then none
  else
    match computeDnp3FrameLen (carry.getD 2 0) with
    | none => none
    | some frameLen =>
      if carry.length < frameLen then none
      else
        match (parseDnp3DlHeader (carry.take frameLen)).filter isValidDnp3FrameHeader with
        | none => none
        | some h => some (h, carry.take frameLen)

def turnTrace (ord : PendingOrder) (c : Delivery) (s : Dnp3Analyzer) (flow : Dnp3FlowState) :
    List Happening :=
  match frameAt (flow.carry c.direction) with
  | some (h, frame) => frameTrace ord h frame s.evictions (boardOf flow)
  | none => []

/-- The happenings of `walk`. -/
def walkTrace (ord : PendingOrder) (c : Delivery) :
    Nat → Bool → Dnp3Analyzer → Dnp3FlowState → List Happening
  | 0, _, _, _ => []
  | turns + 1, didProcess, s, flow =>
    turnTrace ord c s flow ++
      match turn ord c didProcess s flow with
      | .ok (true, s, flow) => walkTrace ord c turns true s flow
      | _ => []

def expireTrace (flow : Dnp3FlowState) (nowTs : UInt32) : List Happening :=
  if flow.correlationWindowSeeded &&
      saturatingSub nowTs flow.correlationWindowStartTs > correlationWindowSecs then [.reset]
  else []

/-- The happenings of `onFlowData`. -/
def callTrace (ord : PendingOrder) (c : Delivery) (data : List UInt8) (s : Dnp3Analyzer)
    (flow : Dnp3FlowState) : List Happening :=
  if flow.isNonDnp3 || desynced flow data then []
  else
    let flow₀ := maybeExpireCorrelationWindow flow c.ts
    let later :=
      match scanBlockTimeouts c s flow₀ >>= fun w => accumulate c data w.1 w.2 with
      | .ok (s, flow) => walkTrace ord c ((flow.carry c.direction).length + 1) false s flow
      | .error _ => []
    expireTrace flow c.ts ++ scanTrace c.ts (boardOf flow₀) ++ later

/-! ## What is traced -/

/-- The happenings lead from one board to the other, and are told by the findings and the counter
of evictions. -/
structure Traced (ts : UInt32) (l : List Happening) (s s' : Dnp3Analyzer)
    (flow flow' : Dnp3FlowState) : Prop where
  trail : Trail (Step ts) (boardOf flow) l (boardOf flow')
  raised : ∃ findings, s'.findings = s.findings.pushAll maxFindings (2 ^ 64 - 1) findings ∧
    findings.filterMap alarmOf = l.filterMap Happening.alarm?
  evicted : s'.pendingRequestsEvicted =
    bump64^[l.countP Happening.isEviction] s.pendingRequestsEvicted

theorem Traced.trans {ts : UInt32} {l l' : List Happening} {s₁ s₂ s₃ : Dnp3Analyzer}
    {f₁ f₂ f₃ : Dnp3FlowState} (h : Traced ts l s₁ s₂ f₁ f₂) (h' : Traced ts l' s₂ s₃ f₂ f₃) :
    Traced ts (l ++ l') s₁ s₃ f₁ f₃ where
  trail := h.trail.append h'.trail
  raised := by
    obtain ⟨as, has, halarms⟩ := h.raised
    obtain ⟨bs, hbs, halarms'⟩ := h'.raised
    refine ⟨as ++ bs, ?_, ?_⟩
    · rw [hbs, has, Capped.pushAll_append]
    · rw [List.filterMap_append, List.filterMap_append, halarms, halarms']
  evicted := by
    rw [h'.evicted, h.evicted, List.countP_append, Nat.add_comm, Function.iterate_add_apply]

/-- A step that the correlation takes no part in. -/
structure Quiet (s s' : Dnp3Analyzer) (flow flow' : Dnp3FlowState) : Prop where
  board : boardOf flow' = boardOf flow
  findings : ∃ findings, s'.findings = s.findings.pushAll maxFindings (2 ^ 64 - 1) findings ∧
    findings.filterMap alarmOf = []
  evicted : s'.pendingRequestsEvicted = s.pendingRequestsEvicted
  evictions : s'.evictions = s.evictions

namespace Quiet

variable {s s' s'' : Dnp3Analyzer} {flow flow' flow'' : Dnp3FlowState}

theorem same (s : Dnp3Analyzer) (hboard : boardOf flow' = boardOf flow) : Quiet s s flow flow' :=
  ⟨hboard, ⟨[], rfl, rfl⟩, rfl, rfl⟩

theorem refl (s : Dnp3Analyzer) (flow : Dnp3FlowState) : Quiet s s flow flow := same s rfl

/-- A finding that is neither of the two alarms. -/
theorem emit (s : Dnp3Analyzer) {finding : Finding} (hother : alarmOf finding = none)
    (hboard : boardOf flow' = boardOf flow) : Quiet s (Dnp3.emit s finding) flow flow' := by
  refine ⟨hboard, ⟨[finding], rfl, ?_⟩, rfl, rfl⟩
  rw [List.filterMap_cons_none hother, List.filterMap_nil]

theorem trans (h : Quiet s s' flow flow') (h' : Quiet s' s'' flow' flow'') :
    Quiet s s'' flow flow'' where
  board := h'.board.trans h.board
  findings := by
    obtain ⟨as, has, hnone⟩ := h.findings
    obtain ⟨bs, hbs, hnone'⟩ := h'.findings
    refine ⟨as ++ bs, ?_, ?_⟩
    · rw [hbs, has, Capped.pushAll_append]
    · rw [List.filterMap_append, hnone, hnone', List.append_nil]
  evicted := h'.evicted.trans h.evicted
  evictions := h'.evictions.trans h.evictions

theorem traced (h : Quiet s s' flow flow') (ts : UInt32) : Traced ts [] s s' flow flow' where
  trail := by
    rw [h.board]
    exact .nil _
  raised := h.findings
  evicted := h.evicted

theorem due (h : Quiet s s' flow flow') (hd : Due (boardOf flow)) : Due (boardOf flow') := by
  rw [h.board]
  exact hd

end Quiet

/-! ## Detectors -/

section Detectors

variable (c : Delivery) (r : Request) (s : Dnp3Analyzer) (flow : Dnp3FlowState)

theorem alarmOf_finding (category : ThreatCategory) (verdict : Verdict) (confidence : Confidence)
    (summary : String) (evidence : List String) (technique : String) :
    alarmOf (c.finding category verdict confidence summary evidence technique) =
      alarmFor [technique] := rfl

theorem detectControlClassBurstSplit_quiet :
    Quiet s (detectControlClassBurstSplit c r s flow).1 flow
      (detectControlClassBurstSplit c r s flow).2 := by
  have hother : alarmFor ["T1692.001"] = none := by decide
  unfold detectControlClassBurstSplit
  split
  · exact .same s rfl
  · simp only
    split
    · split
      · exact .emit s hother rfl
      · exact .same s rfl
    · split
      · exact .emit s hother rfl
      · exact .same s rfl

theorem detectBroadcastAnomaly_quiet : Quiet s (detectBroadcastAnomaly c r s) flow flow :=
  .emit s (by rw [alarmOf_finding]; decide) rfl

theorem detectWriteSplit_quiet : Quiet s (detectWriteSplit c r s) flow flow :=
  .emit s (by rw [alarmOf_finding]; decide) rfl

theorem detectUnexpectedSourceSplit_quiet :
    Quiet s (detectUnexpectedSourceSplit c r s flow).1 flow
      (detectUnexpectedSourceSplit c r s flow).2 := by
  unfold detectUnexpectedSourceSplit
  split
  · exact .refl s flow
  · exact .emit s (by rw [alarmOf_finding]; decide) rfl

theorem detectUnsolicitedAnomaly_quiet (appCtrl : UInt8) :
    Quiet s (detectUnsolicitedAnomaly c r appCtrl s flow).1 flow
      (detectUnsolicitedAnomaly c r appCtrl s flow).2 := by
  unfold detectUnsolicitedAnomaly
  split
  · exact .same s rfl
  · split
    · exact .emit s (by rw [alarmOf_finding]; decide) rfl
    · exact .refl s flow

theorem detectUnsolicitedControl_quiet :
    Quiet s (detectUnsolicitedControl c r s flow).1 flow
      (detectUnsolicitedControl c r s flow).2 := by
  unfold detectUnsolicitedControl
  split
  · exact .emit s (by rw [alarmOf_finding]; decide) rfl
  · split
    · exact .emit s (by rw [alarmOf_finding]; decide) rfl
    · exact .refl s flow

theorem trackMaster_quiet (h : Dnp3DlHeader) :
    Quiet s (trackMaster h s flow).1 flow (trackMaster h s flow).2 := by
  unfold trackMaster
  split
  · split
    · exact .same s rfl
    · exact ⟨rfl, ⟨[], rfl, rfl⟩, rfl, rfl⟩
  · exact .refl s flow

theorem setCarry_board (dir : Direction) (bytes : List UInt8) :
    boardOf (flow.setCarry dir bytes) = boardOf flow := by
  cases dir with
  | clientToServer => rfl
  | serverToClient => rfl

theorem dropMalformed_quiet (rest : List UInt8) :
    Quiet s (dropMalformed c rest s flow).1 flow (dropMalformed c rest s flow).2 := by
  have hboard : boardOf ((countMalformed flow).setCarry c.direction rest) = boardOf flow :=
    setCarry_board (countMalformed flow) c.direction rest
  unfold dropMalformed
  by_cases hdue : AlarmDue c ((countMalformed flow).setCarry c.direction rest)
  · rw [check_of_due hdue]
    refine .emit s ?_ hboard
    rw [malformedFinding, alarmOf_finding]
    decide
  · rw [check_of_not_due hdue]
    exact .same s hboard

end Detectors

/-! ## The two alarms -/

theorem lossTrace_of_due {b : Board} (hdue : t0827Threshold ≤ b.restarts + b.blocks)
    (hoff : b.lossRaised = false) : lossTrace b = [.raised .lossOfControl] := by
  rw [lossTrace, hoff, Bool.not_false, Bool.and_true, if_pos (decide_eq_true hdue)]

theorem lossTrace_of_not {b : Board}
    (h : ¬(t0827Threshold ≤ b.restarts + b.blocks ∧ b.lossRaised = false)) :
    lossTrace b = [] := by
  refine if_neg fun htrue => h ?_
  simpa using htrue

theorem maybeEmitT0827_traced {c : Delivery} {dest : UInt16} {s s' : Dnp3Analyzer}
    {flow flow' : Dnp3FlowState} (h : maybeEmitT0827 c dest s flow = .ok (s', flow')) :
    Traced c.ts (lossTrace (boardOf flow)) s s' flow flow' ∧
      (Due (boardOf flow') ↔ (blockCmdThreshold ≤ (boardOf flow).blocks →
        (boardOf flow).blockRaised = true)) := by
  obtain ⟨combined, hcombined, h⟩ := bind_eq_ok.mp h
  have hsum : combined = flow.restartEventCount + flow.blockEventCount := by
    unfold checkedAdd at hcombined
    split at hcombined
    · cases hcombined
      rfl
    · cases hcombined
  by_cases hdue : (combined ≥ t0827Threshold && !flow.lossOfControlEmitted) = true
  · rw [if_pos hdue] at h
    cases h
    simp only [Bool.and_eq_true, decide_eq_true_eq, Bool.not_eq_true'] at hdue
    obtain ⟨hthreshold, hoff⟩ := hdue
    rw [hsum] at hthreshold
    rw [lossTrace_of_due (b := boardOf flow) hthreshold hoff]
    refine ⟨⟨.one (.lossOfControl _ hthreshold hoff), ⟨[_], rfl, ?_⟩, rfl⟩,
      fun hdue => hdue.blocks, fun hblocks => ⟨hblocks, fun _ => rfl⟩⟩
    simp only [List.filterMap_cons, alarmOf_finding]
    rfl
  · rw [if_neg hdue] at h
    cases h
    have hnot : ¬(t0827Threshold ≤ (boardOf flow).restarts + (boardOf flow).blocks ∧
        (boardOf flow).lossRaised = false) := by
      rintro ⟨hthreshold, hoff⟩
      refine hdue ?_
      rw [hsum, show flow.lossOfControlEmitted = false from hoff, Bool.not_false, Bool.and_true]
      exact decide_eq_true hthreshold
    rw [lossTrace_of_not hnot]
    refine ⟨(Quiet.refl s flow).traced c.ts,
      fun hdue => hdue.blocks, fun hblocks => ⟨hblocks, fun hthreshold => ?_⟩⟩
    cases hraised : (boardOf flow).lossRaised with
    | true => rfl
    | false => exact absurd ⟨hthreshold, hraised⟩ hnot

/-! ## Timeouts -/

theorem foldl_timeOutRequest (keys : List ReqKey) (acc : Option UInt16 × Dnp3FlowState) :
    boardOf (keys.foldl timeOutRequest acc).2 = keys.foldl Board.timeOut (boardOf acc.2) ∧
      ((keys.foldl timeOutRequest acc).1 = none ↔ acc.1 = none ∧ keys = []) := by
  induction keys generalizing acc with
  | nil => exact ⟨rfl, by simp⟩
  | cons key keys ih =>
    obtain ⟨hboard, hnone⟩ := ih (timeOutRequest acc key)
    refine ⟨hboard, ?_⟩
    rw [List.foldl_cons, hnone]
    constructor
    · rintro ⟨h, -⟩
      cases h
    · rintro ⟨-, h⟩
      cases h

theorem timeOut_trail {ts : UInt32} (keys : List ReqKey) (b : Board) (hnodup : keys.Nodup)
    (hlate : ∀ key ∈ keys, ∃ since, b.pending.get? key = some since ∧
      saturatingSub ts since > blockCmdTimeoutSecs) :
    Trail (Step ts) b (keys.map .timedOut) (keys.foldl Board.timeOut b) := by
  induction keys generalizing b with
  | nil => exact .nil b
  | cons key keys ih =>
    obtain ⟨hfresh, hnodup'⟩ := List.nodup_cons.mp hnodup
    obtain ⟨since, hsince, hpast⟩ := hlate key List.mem_cons_self
    refine .cons (.timedOut b key since hsince hpast) (ih (b.timeOut key) hnodup' ?_)
    intro other hother
    have hne : other ≠ key := fun heq => hfresh (heq ▸ hother)
    rw [Board.timeOut, SortedMap.get?_erase_of_ne _ hne]
    exact hlate other (List.mem_cons_of_mem _ hother)

theorem timedOutKeys_late (ts : UInt32) (b : Board) :
    (timedOutKeys ts b).Nodup ∧ ∀ key ∈ timedOutKeys ts b, ∃ since,
      b.pending.get? key = some since ∧ saturatingSub ts since > blockCmdTimeoutSecs := by
  refine ⟨(keys_filter _).1, fun key hkey => ?_⟩
  obtain ⟨e, he, rfl⟩ := List.mem_map.mp hkey
  obtain ⟨hmem, hpast⟩ := List.mem_filter.mp he
  exact ⟨e.2, (b.pending.get?_eq_some_iff e.1 e.2).mpr hmem, of_decide_eq_true hpast⟩

/-- The finding of blocked commands, if it is due. -/
theorem blockTrace_traced {s : Dnp3Analyzer} {flow : Dnp3FlowState} {finding : Finding}
    {w : Dnp3Analyzer × Dnp3FlowState}
    (hw : (if flow.blockEventCount ≥ blockCmdThreshold && !flow.blockFindingEmittedThisWindow then
      (emit s finding, { flow with blockFindingEmittedThisWindow := true }) else (s, flow)) = w)
    (halarm : alarmOf finding = some .blockedCommand) (ts : UInt32) :
    Traced ts (blockTrace (boardOf flow)) s w.1 flow w.2 ∧
      boardOf w.2 = { boardOf flow with blockRaised := (boardOf w.2).blockRaised } ∧
      (blockCmdThreshold ≤ (boardOf w.2).blocks → (boardOf w.2).blockRaised = true) := by
  by_cases hdue : (flow.blockEventCount ≥ blockCmdThreshold &&
      !flow.blockFindingEmittedThisWindow) = true
  · have htrace : blockTrace (boardOf flow) = [.raised .blockedCommand] := if_pos hdue
    rw [if_pos hdue] at hw
    rw [← hw, htrace]
    simp only [Bool.and_eq_true, decide_eq_true_eq, Bool.not_eq_true'] at hdue
    refine ⟨⟨.one (.blockedCommand _ hdue.1 hdue.2), ⟨[finding], rfl, ?_⟩, rfl⟩, rfl, fun _ => rfl⟩
    rw [List.filterMap_cons_some halarm]
    rfl
  · have htrace : blockTrace (boardOf flow) = [] := if_neg hdue
    rw [if_neg hdue] at hw
    rw [← hw, htrace]
    refine ⟨(Quiet.refl s flow).traced ts, rfl, fun hle => ?_⟩
    cases hraised : (boardOf flow).blockRaised with
    | true => rfl
    | false =>
      refine absurd ?_ hdue
      rw [show flow.blockFindingEmittedThisWindow = false from hraised, Bool.not_false,
        Bool.and_true]
      exact decide_eq_true hle

theorem scanBlockTimeouts_traced {c : Delivery} {s s' : Dnp3Analyzer}
    {flow flow' : Dnp3FlowState} (h : scanBlockTimeouts c s flow = .ok (s', flow')) :
    Traced c.ts (scanTrace c.ts (boardOf flow)) s s' flow flow' ∧
      (Due (boardOf flow) → Due (boardOf flow')) := by
  obtain ⟨hnodup, hlate⟩ := timedOutKeys_late c.ts (boardOf flow)
  have htrail := timeOut_trail _ (boardOf flow) hnodup hlate
  obtain ⟨hboard, hnone⟩ := foldl_timeOutRequest (timedOutKeys c.ts (boardOf flow)) (none, flow)
  unfold scanTrace
  unfold scanBlockTimeouts at h
  simp only at h ⊢
  rw [show (flow.pendingRequests.entries.filter fun e =>
    saturatingSub c.ts e.2 > blockCmdTimeoutSecs).map Prod.fst =
      timedOutKeys c.ts (boardOf flow) from rfl] at h
  rw [← hboard] at htrail ⊢
  generalize timedOutKeys c.ts (boardOf flow) = keys at *
  generalize hacc : keys.foldl timeOutRequest (none, flow) = acc at *
  have htimeouts : Traced c.ts (keys.map .timedOut) s s flow acc.2 := by
    refine ⟨htrail, ⟨[], rfl, ?_⟩, ?_⟩
    · rw [List.filterMap_map, List.filterMap_nil]
      exact (List.filterMap_eq_nil_iff.mpr fun key _ => rfl).symm
    · rw [List.countP_map, List.countP_eq_zero.mpr fun key _ => Bool.noConfusion]
      rfl
  generalize hw : (if acc.2.blockEventCount ≥ blockCmdThreshold &&
    !acc.2.blockFindingEmittedThisWindow then _ else (s, acc.2)) = w at h
  obtain ⟨hblock, hsame, hblocks⟩ := blockTrace_traced hw (by rw [alarmOf_finding]; decide) c.ts
  have hloss : lossTrace (boardOf acc.2) = lossTrace (boardOf w.2) := by
    rw [hsame]
    rfl
  cases hmin : acc.1 with
  | none =>
    obtain ⟨-, rfl⟩ := hnone.mp hmin
    cases hacc
    rw [hmin] at h
    cases h
    rw [List.isEmpty_nil, if_pos rfl, List.append_nil]
    refine ⟨hblock, fun hdue => ⟨hblocks, ?_⟩⟩
    rw [hsame]
    exact hdue.loss
  | some dest =>
    have hsome : keys.isEmpty = false := by
      cases keys with
      | nil =>
        rw [hnone.mpr ⟨rfl, rfl⟩] at hmin
        cases hmin
      | cons key keys => rfl
    rw [hmin] at h
    obtain ⟨hemit, hdue⟩ := maybeEmitT0827_traced h
    rw [hsome, if_neg Bool.noConfusion, hloss]
    exact ⟨(htimeouts.trans hblock).trans hemit, fun _ => hdue.mpr hblocks⟩

/-! ## Frames -/

theorem control_fc {fc : UInt8} (hcontrol : classifyDnp3Fc fc = .control) (hne : fc ≠ 0x06) :
    fc = 3 ∨ fc = 4 ∨ fc = 5 := by
  have hrange : 0x03 ≤ fc ∧ fc ≤ 0x06 := by
    unfold classifyDnp3Fc at hcontrol
    split at hcontrol
    · cases hcontrol
    · split at hcontrol
      · cases hcontrol
      · split at hcontrol
        · rename_i hrange
          exact hrange
        · split at hcontrol
          · cases hcontrol
          · split at hcontrol
            · cases hcontrol
            · split at hcontrol
              · cases hcontrol
              · cases hcontrol
  rw [UInt8.le_iff_toNat_le, UInt8.le_iff_toNat_le] at hrange
  simp only [← UInt8.toNat_inj, ne_eq] at hne ⊢
  simp only [UInt8.reduceToNat] at *
  omega

/-- Putting a request on the board. -/
theorem insertPendingRequest_traced {entries : List (ReqKey × UInt32)} {flow : Dnp3FlowState}
    (hperm : entries.Perm flow.pendingRequests.entries) {appFc : UInt8}
    (hfc : appFc = 3 ∨ appFc = 4 ∨ appFc = 5) (key : ReqKey) (ts : UInt32) :
    Step ts (boardOf flow) (requestHappening entries (boardOf flow) appFc key)
        (boardOf (insertPendingRequest entries flow key ts).1) ∧
      (requestHappening entries (boardOf flow) appFc key).isEviction =
        (insertPendingRequest entries flow key ts).2 ∧
      (requestHappening entries (boardOf flow) appFc key).alarm? = none := by
  unfold insertPendingRequest requestHappening
  rw [show (boardOf flow).pending = flow.pendingRequests from rfl]
  by_cases hfull : (flow.pendingRequests.size ≥ maxPendingRequests &&
      (flow.pendingRequests.get? key).isNone) = true
  · rw [if_pos hfull, if_pos hfull]
    simp only [Bool.and_eq_true, decide_eq_true_eq, Option.isNone_iff_eq_none] at hfull
    unfold evictOldest
    cases hold : oldest entries with
    | none =>
      have hempty : entries.length = 0 := by rw [oldest_eq_none hold]; rfl
      rw [hperm.length_eq] at hempty
      have hmax : maxPendingRequests = 256 := rfl
      have hsize : flow.pendingRequests.size = flow.pendingRequests.entries.length := rfl
      omega
    | some e =>
      have hmem : (e.1, e.2) ∈ flow.pendingRequests.entries := hperm.mem_iff.mp (oldest_mem hold)
      have hget := (flow.pendingRequests.get?_eq_some_iff e.1 e.2).mpr hmem
      exact ⟨.evicted (boardOf flow) appFc key e.1 e.2 hfc hfull.2 hget, rfl, rfl⟩
  · rw [if_neg hfull, if_neg hfull]
    cases hget : flow.pendingRequests.get? key with
    | none => exact ⟨.requested (boardOf flow) appFc key hfc hget, rfl, rfl⟩
    | some old => exact ⟨.overwrote (boardOf flow) appFc key old hfc hget, rfl, rfl⟩

theorem insertPendingRequest_due (entries : List (ReqKey × UInt32)) {flow : Dnp3FlowState}
    (key : ReqKey) (ts : UInt32) (hdue : Due (boardOf flow)) :
    Due (boardOf (insertPendingRequest entries flow key ts).1) := by
  unfold insertPendingRequest
  split
  · exact ⟨hdue.blocks, hdue.loss⟩
  · exact ⟨hdue.blocks, hdue.loss⟩

theorem registerRequest_traced (ord : PendingOrder) (c : Delivery) {r : Request} (appCtrl : UInt8)
    (s : Dnp3Analyzer) (flow : Dnp3FlowState) (hcontrol : classifyDnp3Fc r.appFc = .control) :
    Traced c.ts (classTrace ord r appCtrl s.evictions (boardOf flow)) s
        (registerRequest ord c r appCtrl s flow).1 flow
        (registerRequest ord c r appCtrl s flow).2 ∧
      (Due (boardOf flow) → Due (boardOf (registerRequest ord c r appCtrl s flow).2)) := by
  unfold registerRequest classTrace
  rw [hcontrol]
  simp only
  by_cases hnr : r.appFc ≠ 0x06
  · rw [if_pos hnr, if_pos hnr,
      show (boardOf flow).pending.entries = flow.pendingRequests.entries from rfl]
    have hperm := ord.perm s.evictions flow.pendingRequests.entries
    generalize ord.visit s.evictions flow.pendingRequests.entries = entries at hperm
    generalize toLex (r.dest, appCtrl &&& 0x0f) = key
    obtain ⟨hstep, heviction, halarm⟩ :=
      insertPendingRequest_traced hperm (control_fc hcontrol hnr) key c.ts
    have hdue : Due (boardOf flow) → Due (boardOf (insertPendingRequest entries flow key c.ts).1) :=
      insertPendingRequest_due entries key c.ts
    generalize requestHappening entries (boardOf flow) r.appFc key = happening at *
    generalize insertPendingRequest entries flow key c.ts = w at *
    obtain ⟨flow', evicted⟩ := w
    refine ⟨⟨.one hstep, ⟨[], ?_, ?_⟩, ?_⟩, hdue⟩
    · cases evicted with
      | true => rfl
      | false => rfl
    · rw [List.filterMap_cons_none halarm]
      rfl
    · cases evicted with
      | true =>
        rw [List.countP_cons_of_pos heviction]
        rfl
      | false =>
        rw [List.countP_cons_of_neg (by rw [heviction]; exact Bool.noConfusion)]
        rfl
  · rw [if_neg hnr, if_neg hnr]
    exact ⟨(Quiet.refl s flow).traced c.ts, id⟩

theorem processControl_traced (ord : PendingOrder) (c : Delivery) {r : Request} (appCtrl : UInt8)
    (unexpected : Bool) (s : Dnp3Analyzer) (flow : Dnp3FlowState)
    (hcontrol : classifyDnp3Fc r.appFc = .control) :
    Traced c.ts (classTrace ord r appCtrl s.evictions (boardOf flow)) s
        (processControl ord c r appCtrl unexpected s flow).1 flow
        (processControl ord c r appCtrl unexpected s flow).2 ∧
      (Due (boardOf flow) →
        Due (boardOf (processControl ord c r appCtrl unexpected s flow).2)) := by
  have hbroad : Quiet s (if isBroadcastDestination r.dest then detectBroadcastAnomaly c r s else s)
      flow flow := by
    split
    · exact detectBroadcastAnomaly_quiet c r s flow
    · exact .refl s flow
  unfold processControl
  simp only
  generalize (if isBroadcastDestination r.dest then detectBroadcastAnomaly c r s else s) = s₁ at *
  have hunexpected : Quiet s₁
      (if unexpected then detectUnexpectedSourceSplit c r s₁ flow else (s₁, flow)).1 flow
      (if unexpected then detectUnexpectedSourceSplit c r s₁ flow else (s₁, flow)).2 := by
    split
    · exact detectUnexpectedSourceSplit_quiet c r s₁ flow
    · exact .refl s₁ flow
  generalize (if unexpected then detectUnexpectedSourceSplit c r s₁ flow else (s₁, flow)) = w at *
  have hbefore := hbroad.trans hunexpected
  obtain ⟨hregister, hdue⟩ := registerRequest_traced ord c appCtrl w.1 w.2 hcontrol
  rw [hbefore.board, hbefore.evictions] at hregister
  have hburst := detectControlClassBurstSplit_quiet c r
    (registerRequest ord c r appCtrl w.1 w.2).1 (registerRequest ord c r appCtrl w.1 w.2).2
  have hall := ((hbefore.traced c.ts).trans hregister).trans (hburst.traced c.ts)
  rw [List.nil_append, List.append_nil] at hall
  exact ⟨hall, fun hd => hburst.due (hdue (hbefore.due hd))⟩

/-- A response takes its request off the board. -/
theorem answer_traced (ts : UInt32) (s : Dnp3Analyzer) (flow : Dnp3FlowState) (key : ReqKey) :
    Traced ts [.answered key ((boardOf flow).pending.get? key).isSome] s s flow
      { flow with pendingRequests := flow.pendingRequests.erase key } :=
  ⟨.one (.answered (boardOf flow) key), ⟨[], rfl, rfl⟩, rfl⟩

theorem processClass_traced {ord : PendingOrder} {c : Delivery} {r : Request} {appCtrl : UInt8}
    {unexpected : Bool} {s s' : Dnp3Analyzer} {flow flow' : Dnp3FlowState}
    (h : processClass ord c r appCtrl unexpected s flow = .ok (s', flow')) :
    Traced c.ts (classTrace ord r appCtrl s.evictions (boardOf flow)) s s' flow flow' ∧
      (Due (boardOf flow) → Due (boardOf flow')) := by
  unfold processClass at h
  cases hclass : classifyDnp3Fc r.appFc with
  | control =>
    have htraced := processControl_traced ord c appCtrl unexpected s flow hclass
    rw [hclass] at h
    rw [Except.ok.inj h] at htraced
    exact htraced
  | restart =>
    rw [hclass] at h
    simp only [classTrace, hclass]
    obtain ⟨hemit, hdue⟩ := maybeEmitT0827_traced h
    have hother : alarmFor ["T0814"] = none := by decide
    have hrestart : Traced c.ts [.restarted] s (detectRestartSplit c r s flow).1 flow
        (detectRestartSplit c r s flow).2 :=
      ⟨.one (.restarted (boardOf flow)), ⟨[_], rfl, List.filterMap_cons_none hother⟩, rfl⟩
    exact ⟨hrestart.trans hemit, fun hd => hdue.mpr hd.blocks⟩
  | write =>
    rw [hclass] at h
    simp only [classTrace, hclass]
    cases h
    exact ⟨(detectWriteSplit_quiet c r s flow).traced c.ts, id⟩
  | response =>
    have hquiet := detectUnsolicitedAnomaly_quiet c r s flow appCtrl
    rw [hclass] at h
    simp only [classTrace, hclass] at h ⊢
    by_cases hanswer : r.appFc = 0x81
    · rw [if_pos hanswer] at h ⊢
      cases h
      have hanswered := answer_traced c.ts (detectUnsolicitedAnomaly c r appCtrl s flow).1
        (detectUnsolicitedAnomaly c r appCtrl s flow).2 (toLex (r.src, appCtrl &&& 0x0f))
      rw [hquiet.board] at hanswered
      refine ⟨(hquiet.traced c.ts).trans hanswered, fun hd => ?_⟩
      have hd' := hquiet.due hd
      exact ⟨hd'.blocks, hd'.loss⟩
    · rw [if_neg hanswer] at h ⊢
      cases h
      exact ⟨hquiet.traced c.ts, hquiet.due⟩
  | read =>
    rw [hclass] at h
    simp only [classTrace, hclass]
    cases h
    exact ⟨(Quiet.refl s flow).traced c.ts, id⟩
  | management =>
    rw [hclass] at h
    simp only [classTrace, hclass]
    cases h
    exact ⟨(Quiet.refl s flow).traced c.ts, id⟩
  | unknown =>
    rw [hclass] at h
    simp only [classTrace, hclass]
    cases h
    exact ⟨(Quiet.refl s flow).traced c.ts, id⟩

/-- A quiet step before a traced one. -/
theorem Quiet.before {ts : UInt32} {l : Nat → Board → List Happening} {s s' s'' : Dnp3Analyzer}
    {flow flow' flow'' : Dnp3FlowState} (h : Quiet s s' flow flow')
    (h' : Traced ts (l s'.evictions (boardOf flow')) s' s'' flow' flow'' ∧
      (Due (boardOf flow') → Due (boardOf flow''))) :
    Traced ts (l s.evictions (boardOf flow)) s s'' flow flow'' ∧
      (Due (boardOf flow) → Due (boardOf flow'')) := by
  rw [h.evictions, h.board] at h'
  exact ⟨(h.traced ts).trans h'.1, h'.2⟩

theorem processApplication_traced {ord : PendingOrder} {c : Delivery} {r : Request}
    {appCtrl : UInt8} {unexpected : Bool} {s s' : Dnp3Analyzer} {flow flow' : Dnp3FlowState}
    (h : processApplication ord c r appCtrl unexpected s flow = .ok (s', flow')) :
    Traced c.ts (classTrace ord r appCtrl s.evictions (boardOf flow)) s s' flow flow' ∧
      (Due (boardOf flow) → Due (boardOf flow')) := by
  unfold processApplication at h
  obtain ⟨⟨fcCounts, n⟩, -, h⟩ := bind_eq_ok.mp h
  obtain ⟨⟨fnCodeCounts, m⟩, -, h⟩ := bind_eq_ok.mp h
  have hcounts : Quiet s { s with fnCodeCounts := fnCodeCounts } flow
      { flow with fcCounts := fcCounts } := ⟨rfl, ⟨[], rfl, rfl⟩, rfl, rfl⟩
  refine hcounts.before (l := classTrace ord r appCtrl) ?_
  simp only at h
  by_cases huns : r.appFc = 0x14 ∨ r.appFc = 0x15
  · rw [if_pos huns] at h
    exact (detectUnsolicitedControl_quiet c r _ _).before (l := classTrace ord r appCtrl)
      (processClass_traced h)
  · rw [if_neg huns] at h
    exact processClass_traced h

theorem processFrame_traced {ord : PendingOrder} {c : Delivery} {h : Dnp3DlHeader}
    {frame : List UInt8} {s s' : Dnp3Analyzer} {flow flow' : Dnp3FlowState}
    (hok : processFrame ord c h frame s flow = .ok (s', flow')) :
    Traced c.ts (frameTrace ord h frame s.evictions (boardOf flow)) s s' flow flow' ∧
      (Due (boardOf flow) → Due (boardOf flow')) := by
  have hcount : Quiet s s flow { flow with frameCount := bump64 flow.frameCount } := .same s rfl
  have hbefore := hcount.trans (trackMaster_quiet s _ h)
  refine hbefore.before (l := frameTrace ord h frame) ?_
  unfold processFrame at hok
  simp only at hok
  unfold frameTrace
  cases happ : applicationOf frame h with
  | none =>
    rw [happ] at hok
    cases hok
    exact ⟨(Quiet.refl _ _).traced c.ts, id⟩
  | some a =>
    rw [happ] at hok
    exact processApplication_traced hok

/-! ## Turns -/

/-- A turn takes the frame at the front, if there is one, and otherwise drops at most some bytes. -/
theorem turn_frameAt {ord : PendingOrder} {c : Delivery} {did again : Bool} {s : Dnp3Analyzer}
    {flow : Dnp3FlowState} {w : Dnp3Analyzer × Dnp3FlowState}
    (h : turn ord c did s flow = .ok (again, w)) :
    (frameAt (flow.carry c.direction) = none ∧
      (w = (s, flow) ∨ ∃ rest, w = dropMalformed c rest s flow)) ∨
    ∃ header frame s' flow' rest, frameAt (flow.carry c.direction) = some (header, frame) ∧
      processFrame ord c header frame s flow = .ok (s', flow') ∧
      w = (s', flow'.setCarry c.direction rest) := by
  unfold turn at h
  unfold frameAt
  simp only at h
  by_cases hshort : (flow.carry c.direction).length < 10
  · rw [if_pos hshort] at h
    have hnone : (decide ((flow.carry c.direction).length < 10) ||
        !isSync (flow.carry c.direction)) = true := by
      rw [decide_eq_true hshort, Bool.true_or]
    rw [if_pos hnone]
    refine .inl ⟨rfl, ?_⟩
    have hturned := settleShort_turned ord c did s flow hshort
    rw [(Prod.mk.inj (Except.ok.inj h)).2] at hturned
    cases hturned with
    | stop hok => exact .inl rfl
    | settle hlen hlong => exact .inr ⟨_, rfl⟩
  · rw [if_neg hshort] at h
    cases hsync : isSync (flow.carry c.direction) with
    | false =>
      simp only [hsync, Bool.not_false, if_true] at h
      cases h
      rw [← check_setCarry, Bool.not_false, Bool.or_true, if_pos rfl]
      exact .inl ⟨rfl, .inr ⟨_, rfl⟩⟩
    | true =>
      simp only [hsync, Bool.not_true, Bool.false_eq_true, if_false] at h
      rw [decide_eq_false hshort, Bool.not_true, Bool.or_false, if_neg Bool.noConfusion]
      cases hn : computeDnp3FrameLen ((flow.carry c.direction).getD 2 0) with
      | none =>
        simp only [hn] at h
        cases h
        exact .inl ⟨rfl, .inr ⟨_, rfl⟩⟩
      | some n =>
        simp only [hn] at h ⊢
        by_cases hwait : (flow.carry c.direction).length < n
        · rw [if_pos hwait] at h
          cases h
          rw [if_pos hwait]
          exact .inl ⟨rfl, .inl rfl⟩
        · rw [if_neg hwait] at h
          rw [if_neg hwait]
          cases hparse : (parseDnp3DlHeader ((flow.carry c.direction).take n)).filter
              isValidDnp3FrameHeader with
          | none =>
            rw [hparse] at h
            cases h
            exact .inl ⟨rfl, .inr ⟨_, rfl⟩⟩
          | some header =>
            rw [hparse] at h
            obtain ⟨⟨s', flow'⟩, hframe, hout⟩ := bind_eq_ok.mp h
            cases hout
            exact .inr ⟨header, _, s', flow', _, rfl, hframe, rfl⟩

theorem turn_traced {ord : PendingOrder} {c : Delivery} {did again : Bool} {s : Dnp3Analyzer}
    {flow : Dnp3FlowState} {w : Dnp3Analyzer × Dnp3FlowState}
    (h : turn ord c did s flow = .ok (again, w)) :
    Traced c.ts (turnTrace ord c s flow) s w.1 flow w.2 ∧
      (Due (boardOf flow) → Due (boardOf w.2)) := by
  unfold turnTrace
  rcases turn_frameAt h with ⟨hnone, rfl | ⟨rest, rfl⟩⟩ |
    ⟨header, frame, s', flow', rest, hsome, hframe, rfl⟩
  · rw [hnone]
    exact ⟨(Quiet.refl s flow).traced c.ts, id⟩
  · rw [hnone]
    have hquiet := dropMalformed_quiet c s flow rest
    exact ⟨hquiet.traced c.ts, hquiet.due⟩
  · rw [hsome]
    obtain ⟨htraced, hdue⟩ := processFrame_traced hframe
    have hcarry : Quiet s' s' flow' (flow'.setCarry c.direction rest) :=
      .same s' (setCarry_board flow' c.direction rest)
    have hall := htraced.trans (hcarry.traced c.ts)
    rw [List.append_nil] at hall
    exact ⟨hall, fun hd => hcarry.due (hdue hd)⟩

theorem walk_traced {ord : PendingOrder} {c : Delivery} {turns : Nat} {did : Bool}
    {s : Dnp3Analyzer} {flow : Dnp3FlowState} {w : Dnp3Analyzer × Dnp3FlowState}
    (h : walk ord c turns did s flow = .ok w) :
    Traced c.ts (walkTrace ord c turns did s flow) s w.1 flow w.2 ∧
      (Due (boardOf flow) → Due (boardOf w.2)) := by
  induction turns generalizing did s flow with
  | zero =>
    cases h
    exact ⟨(Quiet.refl s flow).traced c.ts, id⟩
  | succ turns ih =>
    rw [walk] at h
    obtain ⟨⟨again, s₁, flow₁⟩, hturn, hrest⟩ := bind_eq_ok.mp h
    obtain ⟨hfirst, hdue⟩ := turn_traced hturn
    rw [walkTrace, hturn]
    cases again with
    | false =>
      cases hrest
      rw [List.append_nil]
      exact ⟨hfirst, hdue⟩
    | true =>
      obtain ⟨hlater, hdue'⟩ := ih hrest
      exact ⟨hfirst.trans hlater, fun hd => hdue' (hdue hd)⟩

/-! ## Calls -/

theorem expire_traced (s : Dnp3Analyzer) (flow : Dnp3FlowState) (ts : UInt32) :
    Traced ts (expireTrace flow ts) s s flow (maybeExpireCorrelationWindow flow ts) ∧
      (Due (boardOf flow) → Due (boardOf (maybeExpireCorrelationWindow flow ts))) := by
  unfold expireTrace maybeExpireCorrelationWindow
  cases hseeded : flow.correlationWindowSeeded with
  | false =>
    rw [Bool.false_and, if_neg Bool.noConfusion, Bool.not_false, if_pos rfl]
    have hseed : Quiet s s flow
        { flow with correlationWindowStartTs := ts, correlationWindowSeeded := true } := .same s rfl
    exact ⟨hseed.traced ts, fun hd => ⟨hd.blocks, hd.loss⟩⟩
  | true =>
    rw [Bool.true_and, Bool.not_true, if_neg (show ¬false = true from Bool.noConfusion)]
    by_cases hexpired : saturatingSub ts flow.correlationWindowStartTs > correlationWindowSecs
    · rw [if_pos (decide_eq_true hexpired), if_pos hexpired]
      refine ⟨⟨.one (.reset (boardOf flow)), ⟨[], rfl, rfl⟩, rfl⟩, fun _ => ⟨?_, ?_⟩⟩
      · exact fun h => absurd h (by decide : ¬blockCmdThreshold ≤ 0)
      · exact fun h => absurd h (by decide : ¬t0827Threshold ≤ 0 + 0)
    · rw [if_neg (by rw [decide_eq_false hexpired]; exact Bool.noConfusion), if_neg hexpired]
      exact ⟨(Quiet.refl s flow).traced ts, id⟩

theorem accumulate_quiet {c : Delivery} {data : List UInt8} {s : Dnp3Analyzer}
    {flow : Dnp3FlowState} {w : Dnp3Analyzer × Dnp3FlowState}
    (h : accumulate c data s flow = .ok w) : Quiet s w.1 flow w.2 := by
  rcases accumulate_cases h with ⟨-, rfl⟩ | ⟨-, -, rfl⟩
  · exact .same s (setCarry_board flow c.direction _)
  · exact dropMalformed_quiet c s flow _

theorem onFlowData_traced {ord : PendingOrder} {c : Delivery} {data : List UInt8}
    {s : Dnp3Analyzer} {flow : Dnp3FlowState} {w : Dnp3Analyzer × Dnp3FlowState}
    (h : onFlowData ord c data s flow = .ok w) :
    Traced c.ts (callTrace ord c data s flow) s w.1 flow w.2 ∧
      (Due (boardOf flow) → Due (boardOf w.2)) := by
  unfold onFlowData at h
  unfold callTrace
  cases hlatch : flow.isNonDnp3 with
  | true =>
    rw [if_pos hlatch] at h
    cases h
    rw [Bool.true_or, if_pos rfl]
    exact ⟨(Quiet.refl s flow).traced c.ts, id⟩
  | false =>
    rw [if_neg (by simp [hlatch])] at h
    cases hdesync : desynced flow data with
    | true =>
      rw [if_pos hdesync] at h
      cases h
      rw [Bool.or_true, if_pos rfl]
      have hset : Quiet s s flow { flow with isNonDnp3 := true } := .same s rfl
      exact ⟨hset.traced c.ts, fun hd => ⟨hd.blocks, hd.loss⟩⟩
    | false =>
      rw [if_neg (by simp [hdesync])] at h
      obtain ⟨⟨s₁, flow₁⟩, hscan, h⟩ := bind_eq_ok.mp h
      obtain ⟨⟨s₂, flow₂⟩, hacc, h⟩ := bind_eq_ok.mp h
      rw [Bool.or_false, if_neg Bool.noConfusion]
      simp only [hscan, ok_bind, hacc]
      obtain ⟨hexpire, hdue₀⟩ := expire_traced s flow c.ts
      obtain ⟨hscanned, hdue₁⟩ := scanBlockTimeouts_traced hscan
      have hquiet := accumulate_quiet hacc
      obtain ⟨hwalk, hdue₂⟩ := walk_traced h
      exact ⟨(hexpire.trans hscanned).trans ((hquiet.traced c.ts).trans hwalk),
        fun hd => hdue₂ (hquiet.due (hdue₁ (hdue₀ hd)))⟩

end Wirerust.Dnp3
