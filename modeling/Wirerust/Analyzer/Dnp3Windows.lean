import Wirerust.Analyzer.Dnp3Correlation
import Wirerust.Analyzer.Dnp3Stream
import Wirerust.Analyzer.Windows

/-!
Bursts of DNP3 control commands (`detect_control_class_burst_split` of `analyzer/dnp3.rs`).

A log holds the turns of the loop of `on_data`, with the states before and after each of them. The
start, the count and the latch in the flow hold a window (`ControlWindow`) in which every turn that
takes a control command counts it, and no other turn has a part in it (`turn_counted`).
-/

namespace Wirerust.Dnp3

open Lib Wirerust.Flow Wirerust.Analyzer

/-! ## What is seen -/

/-- A turn of the loop. -/
abbrev Turn := Moment Delivery (Dnp3Analyzer × Dnp3FlowState)

/-- The turns of `walk`. -/
def walkTurns (ord : PendingOrder) (c : Delivery) :
    Nat → Bool → Dnp3Analyzer → Dnp3FlowState → List Turn
  | 0, _, _, _ => []
  | turns + 1, didProcess, s, flow =>
    match turn ord c didProcess s flow with
    | .ok (again, s', flow') =>
      ⟨c, (s, flow), (s', flow')⟩ :: if again then walkTurns ord c turns true s' flow' else []
    | .error _ => []

/-- The turns of `onFlowData`. -/
def flowTurns (ord : PendingOrder) (c : Delivery) (data : List UInt8) (s : Dnp3Analyzer)
    (flow : Dnp3FlowState) : List Turn :=
  if flow.isNonDnp3 || desynced flow data then []
  else
    match scanBlockTimeouts c s (maybeExpireCorrelationWindow flow c.ts) >>= fun w =>
        accumulate c data w.1 w.2 with
    | .ok (s, flow) => walkTurns ord c ((flow.carry c.direction).length + 1) false s flow
    | .error _ => []

def callTurns (ord : PendingOrder) (flowKey : FlowKey) (s : Dnp3Analyzer) (call : Call)
    (_ : Dnp3Analyzer) : List Turn :=
  flowTurns ord ⟨flowKey, call.direction, call.ts⟩ call.data s (flowOf s flowKey)

/-- The turns of a run of calls on one flow. -/
def runTurns (ord : PendingOrder) (flowKey : FlowKey) (s : Dnp3Analyzer) (calls : List Call) :
    List Turn :=
  notes (onCall ord flowKey) (callTurns ord flowKey) s calls

/-- The request at the front of a carry. -/
def requestAt (carry : List UInt8) : Option Request :=
  (frameAt carry).bind fun f => (applicationOf f.2 f.1).map Prod.fst

def isControlAt (carry : List UInt8) : Bool :=
  (requestAt carry).any fun r => classifyDnp3Fc r.appFc = .control

def isBurst (f : Finding) : Bool :=
  f.mitreTechniques = ["T1692.001"] ∧ f.category = .execution ∧ f.confidence = .medium

/-! ## The window in the flow -/

/-- There is no window before the first command. -/
abbrev ControlWindow (flow : Dnp3FlowState) (w : Option Window) : Prop :=
  Seeded 32 flow.windowStartTs flow.directOperateCount flow.directOperateEmitted w

/-- More than `threshold` control commands within a minute. -/
def controlDetector (threshold : UInt32) :
    Detector Delivery (Dnp3Analyzer × Dnp3FlowState) where
  width := detectionWindowSecs.toNat
  needed := threshold.toNat + 1
  event := fun c v => isControlAt (v.2.carry c.direction)
  time := fun c => c.ts
  findings := fun v => v.1.findings
  alarm := isBurst
  resets := fun c v => v.2.directOperateCount > 0 &&
    saturatingSub c.ts v.2.windowStartTs > detectionWindowSecs
  anchor := fun v => v.2.windowStartTs
  Holds := fun v w => v.1.directOperateThreshold = threshold ∧ ControlWindow v.2 w
  resets_iff := fun c v w hw => hw.2.expired_iff (by decide) c.ts detectionWindowSecs
  anchor_eq := fun v w hw => hw.2.2.anchor

abbrev controlWatch (threshold : UInt32) : Watch Turn := (controlDetector threshold).watch

/-- A step that has no part in the window. -/
structure Idles (s s' : Dnp3Analyzer) (flow flow' : Dnp3FlowState) : Prop where
  start : flow'.windowStartTs = flow.windowStartTs
  count : flow'.directOperateCount = flow.directOperateCount
  emitted : flow'.directOperateEmitted = flow.directOperateEmitted
  threshold : s'.directOperateThreshold = s.directOperateThreshold
  raises : ∃ found, Raises found s.findings s'.findings ∧ found.any isBurst = false

namespace Idles

variable {s s' s'' : Dnp3Analyzer} {flow flow' flow'' : Dnp3FlowState}

theorem refl (s : Dnp3Analyzer) (flow : Dnp3FlowState) : Idles s s flow flow :=
  ⟨rfl, rfl, rfl, rfl, [], rfl, rfl⟩

theorem trans (h : Idles s s' flow flow') (h' : Idles s' s'' flow' flow'') :
    Idles s s'' flow flow'' where
  start := h'.start.trans h.start
  count := h'.count.trans h.count
  emitted := h'.emitted.trans h.emitted
  threshold := h'.threshold.trans h.threshold
  raises := by
    obtain ⟨found, hfound, hnone⟩ := h.raises
    obtain ⟨found', hfound', hnone'⟩ := h'.raises
    exact ⟨found ++ found', hfound.trans hfound', by rw [List.any_append, hnone, hnone']; rfl⟩

/-- Only other fields of the flow change. -/
theorem same (s : Dnp3Analyzer) (hstart : flow'.windowStartTs = flow.windowStartTs)
    (hcount : flow'.directOperateCount = flow.directOperateCount)
    (hemitted : flow'.directOperateEmitted = flow.directOperateEmitted) : Idles s s flow flow' :=
  ⟨hstart, hcount, hemitted, rfl, [], rfl, rfl⟩

theorem emit (s : Dnp3Analyzer) {finding : Finding} (hother : isBurst finding = false)
    (hflow : Idles s s flow flow') : Idles s (Dnp3.emit s finding) flow flow' := by
  refine ⟨hflow.start, hflow.count, hflow.emitted, rfl, [finding], rfl, ?_⟩
  rw [List.any_cons, hother, List.any_nil, Bool.or_false]

theorem window (h : Idles s s' flow flow') {w : Option Window} (hw : ControlWindow flow w) :
    ControlWindow flow' w := by
  unfold ControlWindow
  rw [h.start, h.count, h.emitted]
  exact hw

theorem detector (h : Idles s s' flow flow') (threshold : UInt32) :
    (controlDetector threshold).Idles (s, flow) (s', flow') :=
  ⟨fun _ hw => ⟨h.threshold.trans hw.1, h.window hw.2⟩, h.raises⟩

end Idles

/-! ## The detectors -/

section Detectors

variable (c : Delivery) (r : Request) (s : Dnp3Analyzer) (flow : Dnp3FlowState)

theorem isBurst_of_technique (category : ThreatCategory) (verdict : Verdict)
    (confidence : Confidence) (summary : String) (evidence : List String) {technique : String}
    (h : technique ≠ "T1692.001") :
    isBurst (c.finding category verdict confidence summary evidence technique) = false := by
  simp [isBurst, Delivery.finding, h]

theorem detectBroadcastAnomaly_idles : Idles s (detectBroadcastAnomaly c r s) flow flow := by
  refine .emit s ?_ (.refl s flow)
  simp [isBurst, Delivery.finding]

theorem detectWriteSplit_idles : Idles s (detectWriteSplit c r s) flow flow :=
  .emit s (isBurst_of_technique c _ _ _ _ _ (by decide)) (.refl s flow)

theorem detectUnexpectedSourceSplit_idles :
    Idles s (detectUnexpectedSourceSplit c r s flow).1 flow
      (detectUnexpectedSourceSplit c r s flow).2 := by
  unfold detectUnexpectedSourceSplit
  split
  · exact .refl s flow
  · refine .emit s ?_ (.same s rfl rfl rfl)
    simp [isBurst, Delivery.finding]

theorem detectUnsolicitedAnomaly_idles (appCtrl : UInt8) :
    Idles s (detectUnsolicitedAnomaly c r appCtrl s flow).1 flow
      (detectUnsolicitedAnomaly c r appCtrl s flow).2 := by
  unfold detectUnsolicitedAnomaly
  split
  · exact .same s rfl rfl rfl
  · split
    · exact .emit s (isBurst_of_technique c _ _ _ _ _ (by decide)) (.same s rfl rfl rfl)
    · exact .refl s flow

theorem detectUnsolicitedControl_idles :
    Idles s (detectUnsolicitedControl c r s flow).1 flow
      (detectUnsolicitedControl c r s flow).2 := by
  unfold detectUnsolicitedControl
  split
  · exact .emit s (isBurst_of_technique c _ _ _ _ _ (by decide)) (.refl s flow)
  · split
    · exact .emit s (isBurst_of_technique c _ _ _ _ _ (by decide)) (.same s rfl rfl rfl)
    · exact .refl s flow

theorem detectRestartSplit_idles :
    Idles s (detectRestartSplit c r s flow).1 flow (detectRestartSplit c r s flow).2 :=
  .emit s (isBurst_of_technique c _ _ _ _ _ (by decide)) (.same s rfl rfl rfl)

theorem trackMaster_idles (h : Dnp3DlHeader) :
    Idles s (trackMaster h s flow).1 flow (trackMaster h s flow).2 := by
  unfold trackMaster
  split
  · split
    · exact .same s rfl rfl rfl
    · exact ⟨rfl, rfl, rfl, rfl, [], rfl, rfl⟩
  · exact .refl s flow

theorem registerRequest_idles (ord : PendingOrder) (appCtrl : UInt8) :
    Idles s (registerRequest ord c r appCtrl s flow).1 flow
      (registerRequest ord c r appCtrl s flow).2 := by
  have hevict : ∀ (evicted : Bool) (flow : Dnp3FlowState),
      Idles s (countEviction s evicted) flow flow := by
    intro evicted flow
    cases evicted with
    | true => exact ⟨rfl, rfl, rfl, rfl, [], rfl, rfl⟩
    | false => exact .refl s flow
  have hinsert : ∀ entries key, Idles s s flow (insertPendingRequest entries flow key c.ts).1 := by
    intro entries key
    unfold insertPendingRequest
    split
    · exact .same s rfl rfl rfl
    · exact .same s rfl rfl rfl
  unfold registerRequest
  split
  · exact (hinsert _ _).trans (hevict _ _)
  · exact .refl s flow

theorem setCarry_idles (dir : Direction) (bytes : List UInt8) :
    Idles s s flow (flow.setCarry dir bytes) := by
  cases dir with
  | clientToServer => exact .same s rfl rfl rfl
  | serverToClient => exact .same s rfl rfl rfl

theorem dropMalformed_idles (rest : List UInt8) :
    Idles s (dropMalformed c rest s flow).1 flow (dropMalformed c rest s flow).2 := by
  have hcount : Idles s s flow (countMalformed flow) := .same s rfl rfl rfl
  have hcarry := hcount.trans (setCarry_idles s (countMalformed flow) c.direction rest)
  unfold dropMalformed
  by_cases hdue : AlarmDue c ((countMalformed flow).setCarry c.direction rest)
  · rw [check_of_due hdue]
    refine .emit s (isBurst_of_technique c _ _ _ _ _ (by decide)) (hcarry.trans ?_)
    exact .same s rfl rfl rfl
  · rw [check_of_not_due hdue]
    exact hcarry

end Detectors

theorem maybeEmitT0827_idles {c : Delivery} {dest : UInt16} {s s' : Dnp3Analyzer}
    {flow flow' : Dnp3FlowState} (h : maybeEmitT0827 c dest s flow = .ok (s', flow')) :
    Idles s s' flow flow' := by
  obtain ⟨combined, -, h⟩ := bind_eq_ok.mp h
  split at h
  · cases h
    exact .emit s (isBurst_of_technique c _ _ _ _ _ (by decide)) (.same s rfl rfl rfl)
  · cases h
    exact .refl s flow

theorem foldl_timeOutRequest_idles (s : Dnp3Analyzer) (keys : List ReqKey)
    (acc : Option UInt16 × Dnp3FlowState) :
    Idles s s acc.2 (keys.foldl timeOutRequest acc).2 := by
  induction keys generalizing acc with
  | nil => exact .refl s acc.2
  | cons key keys ih =>
    have hfirst : Idles s s acc.2 (timeOutRequest acc key).2 := .same s rfl rfl rfl
    exact hfirst.trans (ih (timeOutRequest acc key))

theorem scanBlockTimeouts_idles {c : Delivery} {s s' : Dnp3Analyzer}
    {flow flow' : Dnp3FlowState} (h : scanBlockTimeouts c s flow = .ok (s', flow')) :
    Idles s s' flow flow' := by
  have hfold := fun keys => foldl_timeOutRequest_idles s keys (none, flow)
  unfold scanBlockTimeouts at h
  simp only at h
  generalize hacc : List.foldl timeOutRequest (none, flow) _ = acc at h
  replace hfold := hacc ▸ hfold _
  by_cases hdue : (acc.2.blockEventCount ≥ blockCmdThreshold &&
      !acc.2.blockFindingEmittedThisWindow) = true
  · rw [if_pos hdue] at h
    have hblocked : ∀ f, isBurst f = false → Idles s (emit s f) flow
        { acc.2 with blockFindingEmittedThisWindow := true } :=
      fun f hf => hfold.trans (.emit s hf (.same s rfl rfl rfl))
    split at h
    · refine Idles.trans (hblocked _ ?_) (maybeEmitT0827_idles h)
      exact isBurst_of_technique c _ _ _ _ _ (by decide)
    · cases h
      exact hblocked _ (isBurst_of_technique c _ _ _ _ _ (by decide))
  · rw [if_neg hdue] at h
    split at h
    · exact hfold.trans (maybeEmitT0827_idles h)
    · cases h
      exact hfold

theorem expire_idles (s : Dnp3Analyzer) (flow : Dnp3FlowState) (ts : UInt32) :
    Idles s s flow (maybeExpireCorrelationWindow flow ts) := by
  unfold maybeExpireCorrelationWindow
  split
  · exact .same s rfl rfl rfl
  · split
    · exact .same s rfl rfl rfl
    · exact .refl s flow

theorem accumulate_idles {c : Delivery} {data : List UInt8} {s : Dnp3Analyzer}
    {flow : Dnp3FlowState} {w : Dnp3Analyzer × Dnp3FlowState}
    (h : accumulate c data s flow = .ok w) : Idles s w.1 flow w.2 := by
  rcases accumulate_cases h with ⟨-, rfl⟩ | ⟨-, -, rfl⟩
  · exact setCarry_idles s flow c.direction _
  · exact dropMalformed_idles c s flow _

/-! ## A control command -/

section Steps

variable {threshold : UInt32} {c : Delivery} {r : Request} {w : Option Window}
  {s s₁ : Dnp3Analyzer} {flow flow₁ : Dnp3FlowState}

/-- The check for a burst, when the command has been counted. -/
theorem takes_of_held (flow₁ : Dnp3FlowState) {finding : Finding}
    (hfinding : isBurst finding = true) (hhi : threshold.toNat < 2 ^ 32 - 1)
    (hthreshold : s.directOperateThreshold = threshold)
    (hheld : Held 32 flow₁.windowStartTs flow₁.directOperateCount flow₁.directOperateEmitted
      (Window.enter detectionWindowSecs.toNat w c.ts.toNat))
    (hwithin : ¬ saturatingSub c.ts flow₁.windowStartTs > detectionWindowSecs) {check : Bool}
    (hcheck : check = (decide (flow₁.directOperateCount > s.directOperateThreshold.toNat) &&
      !flow₁.directOperateEmitted &&
      decide (saturatingSub c.ts flow₁.windowStartTs ≤ detectionWindowSecs))) :
    (controlDetector threshold).Takes true c.ts w (s, flow)
      (if check then (emit s finding, { flow₁ with directOperateEmitted := true })
        else (s, flow₁)) := by
  have hpos := Window.enter_count_pos detectionWindowSecs.toNat w c.ts.toNat
  rw [decide_eq_true (UInt32.not_lt.mp hwithin), Bool.and_true, hthreshold] at hcheck
  by_cases hfires : threshold.toNat + 1 ≤ flow₁.directOperateCount ∧
      flow₁.directOperateEmitted = false
  · obtain ⟨hnext, halarm⟩ := hheld.alarm hhi hfires
    rw [if_pos (by simp [hcheck, hfires.2, Nat.lt_of_succ_le hfires.1])]
    refine ⟨⟨hthreshold, hpos, hnext⟩, [finding], rfl, iff_of_true ?_ ⟨rfl, halarm⟩⟩
    exact List.any_eq_true.mpr ⟨finding, List.mem_singleton.mpr rfl, hfinding⟩
  · obtain ⟨hnext, hquiet⟩ := hheld.quiet hhi hfires
    rw [if_neg (by simpa [hcheck, Nat.succ_le_iff] using hfires)]
    exact ⟨⟨hthreshold, hpos, hnext⟩, [], rfl, iff_of_false (by simp) fun h => hquiet h.2⟩

theorem detectControlClassBurstSplit_takes (c : Delivery) (r : Request)
    (hlo : 1 ≤ threshold.toNat) (hhi : threshold.toNat < 2 ^ 32 - 1)
    (hw : (controlDetector threshold).Holds (s, flow) w) :
    (controlDetector threshold).Takes true c.ts w (s, flow)
      (detectControlClassBurstSplit c r s flow) := by
  have hburst : ∀ summary evidence, isBurst (c.finding .execution .likely .medium summary evidence
      "T1692.001") = true := fun _ _ => rfl
  have hnow : ¬ saturatingSub c.ts c.ts > detectionWindowSecs := by
    rw [saturatingSub_self]
    decide
  obtain ⟨hthreshold, hw⟩ := hw
  unfold detectControlClassBurstSplit
  cases w with
  | none =>
    obtain ⟨hcount, hemitted⟩ := hw
    simp only at hcount hemitted
    have hone : bump32 0 = 1 := rfl
    simp only [hcount, Nat.lt_irrefl, gt_iff_lt, decide_false, Bool.false_and, Bool.false_eq_true,
      if_false, hone, if_true]
    refine takes_of_held { flow with directOperateCount := 1, windowStartTs := c.ts }
      (hburst _ _) hhi hthreshold ?_ hnow rfl
    rw [hemitted]
    exact Held.of_new 32 (by decide) c.ts
  | some v =>
    obtain ⟨hpos, hheld⟩ := hw
    have hcount : 0 < flow.directOperateCount := by
      rw [hheld.count]
      omega
    rw [decide_eq_true hcount, Bool.true_and]
    by_cases hpast : saturatingSub c.ts flow.windowStartTs > detectionWindowSecs
    · rw [if_pos (decide_eq_true hpast)]
      rw [past_iff, hheld.anchor] at hpast
      have hfew : ¬ (threshold.toNat + 1 ≤ 1 ∧ false = false) := by omega
      obtain ⟨hnext, hquiet⟩ := (Held.enter_past 32 (by decide) hpast).quiet hhi hfew
      exact ⟨⟨hthreshold, Window.enter_count_pos _ _ _, hnext⟩, [], rfl,
        iff_of_false (by simp) fun h => hquiet h.2⟩
    · rw [if_neg (by simpa using hpast)]
      have hmore : bump32 flow.directOperateCount ≠ 1 := by
        rw [bump32, saturatingInc]
        omega
      simp only [hmore, if_false]
      refine takes_of_held { flow with directOperateCount := bump32 flow.directOperateCount }
        (hburst _ _) hhi hthreshold ?_ hpast rfl
      rw [past_iff, hheld.anchor] at hpast
      exact hheld.enter_within hpast

theorem processControl_takes (ord : PendingOrder) (c : Delivery) (r : Request) (appCtrl : UInt8)
    (unexpected : Bool) (hlo : 1 ≤ threshold.toNat) (hhi : threshold.toNat < 2 ^ 32 - 1)
    (hw : (controlDetector threshold).Holds (s, flow) w) :
    (controlDetector threshold).Takes true c.ts w (s, flow)
      (processControl ord c r appCtrl unexpected s flow) := by
  have hbroad : Idles s (if isBroadcastDestination r.dest then detectBroadcastAnomaly c r s
      else s) flow flow := by
    split
    · exact detectBroadcastAnomaly_idles c r s flow
    · exact .refl s flow
  have hunexp : ∀ s, Idles s
      (if unexpected then detectUnexpectedSourceSplit c r s flow else (s, flow)).1 flow
      (if unexpected then detectUnexpectedSourceSplit c r s flow else (s, flow)).2 := by
    intro s
    split
    · exact detectUnexpectedSourceSplit_idles c r s flow
    · exact .refl s flow
  have hbefore := (hbroad.trans (hunexp _)).trans (registerRequest_idles c r _ _ ord appCtrl)
  have hidles := hbefore.detector threshold
  exact (detectControlClassBurstSplit_takes c r hlo hhi (hidles.window w hw)).after hidles

theorem processClass_takes {ord : PendingOrder} {appCtrl : UInt8} {unexpected : Bool}
    {v : Dnp3Analyzer × Dnp3FlowState} (hlo : 1 ≤ threshold.toNat)
    (hhi : threshold.toNat < 2 ^ 32 - 1) (hw : (controlDetector threshold).Holds (s, flow) w)
    (h : processClass ord c r appCtrl unexpected s flow = .ok v) :
    (controlDetector threshold).Takes (classifyDnp3Fc r.appFc = .control) c.ts w (s, flow) v := by
  have hother : Idles s v.1 flow v.2 → (controlDetector threshold).Takes false c.ts w (s, flow) v :=
    fun hidles => (hidles.detector threshold).takes hw
  unfold processClass at h
  cases hclass : classifyDnp3Fc r.appFc with
  | control =>
    rw [hclass] at h
    have htakes := processControl_takes ord c r appCtrl unexpected hlo hhi hw
    rw [Except.ok.inj h] at htakes
    exact htakes
  | restart =>
    rw [hclass] at h
    exact hother ((detectRestartSplit_idles c r s flow).trans (maybeEmitT0827_idles h))
  | write =>
    rw [hclass] at h
    cases h
    exact hother (detectWriteSplit_idles c r s flow)
  | response =>
    rw [hclass] at h
    have hidles := detectUnsolicitedAnomaly_idles c r s flow appCtrl
    simp only at h
    split at h
    · cases h
      refine hother (hidles.trans ?_)
      exact .same _ rfl rfl rfl
    · cases h
      exact hother hidles
  | read =>
    rw [hclass] at h
    cases h
    exact hother (.refl s flow)
  | management =>
    rw [hclass] at h
    cases h
    exact hother (.refl s flow)
  | unknown =>
    rw [hclass] at h
    cases h
    exact hother (.refl s flow)

theorem processApplication_takes {ord : PendingOrder} {appCtrl : UInt8} {unexpected : Bool}
    {v : Dnp3Analyzer × Dnp3FlowState} (hlo : 1 ≤ threshold.toNat)
    (hhi : threshold.toNat < 2 ^ 32 - 1) (hw : (controlDetector threshold).Holds (s, flow) w)
    (h : processApplication ord c r appCtrl unexpected s flow = .ok v) :
    (controlDetector threshold).Takes (classifyDnp3Fc r.appFc = .control) c.ts w (s, flow) v := by
  unfold processApplication at h
  obtain ⟨⟨fcCounts, n⟩, -, h⟩ := bind_eq_ok.mp h
  obtain ⟨⟨fnCodeCounts, m⟩, -, h⟩ := bind_eq_ok.mp h
  have hcounts : Idles s { s with fnCodeCounts := fnCodeCounts } flow
      { flow with fcCounts := fcCounts } := ⟨rfl, rfl, rfl, rfl, [], rfl, rfl⟩
  have hbefore : ∀ s' flow', Idles s s' flow flow' →
      processClass ord c r appCtrl unexpected s' flow' = .ok v →
      (controlDetector threshold).Takes (classifyDnp3Fc r.appFc = .control) c.ts w (s, flow) v := by
    intro s' flow' hidles hclass
    have hdetector := hidles.detector threshold
    exact (processClass_takes hlo hhi (hdetector.window w hw) hclass).after hdetector
  by_cases huns : r.appFc = 0x14 ∨ r.appFc = 0x15
  · simp only [if_pos huns] at h
    exact hbefore _ _ (hcounts.trans (detectUnsolicitedControl_idles c r _ _)) h
  · simp only [if_neg huns] at h
    exact hbefore _ _ hcounts h

theorem processFrame_takes {ord : PendingOrder} {header : Dnp3DlHeader} {frame : List UInt8}
    {v : Dnp3Analyzer × Dnp3FlowState} (hlo : 1 ≤ threshold.toNat)
    (hhi : threshold.toNat < 2 ^ 32 - 1) (hw : (controlDetector threshold).Holds (s, flow) w)
    (h : processFrame ord c header frame s flow = .ok v) :
    (controlDetector threshold).Takes
      ((applicationOf frame header).any fun a => classifyDnp3Fc a.1.appFc = .control) c.ts w
      (s, flow) v := by
  have hcount : Idles s s flow { flow with frameCount := bump64 flow.frameCount } :=
    .same s rfl rfl rfl
  have htrack := (hcount.trans (trackMaster_idles s _ header)).detector threshold
  unfold processFrame at h
  simp only at h
  cases happ : applicationOf frame header with
  | none =>
    rw [happ] at h
    cases h
    exact htrack.takes hw
  | some a =>
    rw [happ] at h
    exact (processApplication_takes hlo hhi (htrack.window w hw) h).after htrack

/-! ## Turns -/

theorem turn_takes {ord : PendingOrder} {did again : Bool} {v : Dnp3Analyzer × Dnp3FlowState}
    (hlo : 1 ≤ threshold.toNat) (hhi : threshold.toNat < 2 ^ 32 - 1)
    (hw : (controlDetector threshold).Holds (s, flow) w)
    (h : turn ord c did s flow = .ok (again, v)) :
    (controlDetector threshold).Takes (isControlAt (flow.carry c.direction)) c.ts w (s, flow)
      v := by
  unfold isControlAt requestAt
  rcases turn_frameAt h with ⟨hnone, rfl | ⟨rest, rfl⟩⟩ |
    ⟨header, frame, s', flow', rest, hsome, hframe, rfl⟩
  · rw [hnone]
    exact (Detector.Idles.refl _).takes hw
  · rw [hnone]
    exact ((dropMalformed_idles c s flow rest).detector threshold).takes hw
  · have htakes := processFrame_takes hlo hhi hw hframe
    rw [hsome, Option.bind_some, Option.any_map]
    exact htakes.before ((setCarry_idles s' flow' c.direction rest).detector threshold)

end Steps

/-! ## Logs -/

section Logs

variable {ord : PendingOrder} {threshold : UInt32} {w : Option Window} {flowKey : FlowKey}

theorem walkTurns_trail {c : Delivery} {turns : Nat} {did : Bool} {s : Dnp3Analyzer}
    {flow : Dnp3FlowState} {v : Dnp3Analyzer × Dnp3FlowState} (hlo : 1 ≤ threshold.toNat)
    (hhi : threshold.toNat < 2 ^ 32 - 1) (hw : (controlDetector threshold).Holds (s, flow) w)
    (h : walk ord c turns did s flow = .ok v) (hroom : hasRoom v.1.findings = true) :
    ∃ w', Trail (controlWatch threshold).Passes w (walkTurns ord c turns did s flow) w' ∧
      (controlDetector threshold).Holds v w' := by
  induction turns generalizing did s flow w with
  | zero =>
    cases h
    exact ⟨w, .nil w, hw⟩
  | succ turns ih =>
    rw [walk] at h
    obtain ⟨⟨again, s₁, flow₁⟩, hturn, hrest⟩ := bind_eq_ok.mp h
    rw [walkTurns, hturn]
    have htakes := turn_takes hlo hhi hw hturn
    cases again with
    | false =>
      cases hrest
      obtain ⟨w₁, hpasses, hw₁⟩ := htakes.passes hw hroom
      exact ⟨w₁, .one hpasses, hw₁⟩
    | true =>
      obtain ⟨found, hfound, -⟩ := (walk_traced hrest).1.raised
      obtain ⟨w₁, hpasses, hw₁⟩ := htakes.passes hw (hasRoom_of_logged ⟨found, hfound⟩ hroom)
      obtain ⟨w', htrail, hw'⟩ := ih hw₁ hrest
      exact ⟨w', .cons hpasses htrail, hw'⟩

theorem flowTurns_trail {c : Delivery} {data : List UInt8} {s : Dnp3Analyzer}
    {flow : Dnp3FlowState} {v : Dnp3Analyzer × Dnp3FlowState} (hlo : 1 ≤ threshold.toNat)
    (hhi : threshold.toNat < 2 ^ 32 - 1) (hw : (controlDetector threshold).Holds (s, flow) w)
    (h : onFlowData ord c data s flow = .ok v) (hroom : hasRoom v.1.findings = true) :
    ∃ w', Trail (controlWatch threshold).Passes w (flowTurns ord c data s flow) w' ∧
      (controlDetector threshold).Holds v w' := by
  unfold onFlowData at h
  unfold flowTurns
  cases hlatch : flow.isNonDnp3 with
  | true =>
    rw [if_pos hlatch] at h
    cases h
    exact ⟨w, .nil w, hw⟩
  | false =>
    rw [if_neg (by simp [hlatch])] at h
    cases hdesync : desynced flow data with
    | true =>
      rw [if_pos hdesync] at h
      cases h
      have hlatched : Idles s s flow { flow with isNonDnp3 := true } := .same s rfl rfl rfl
      exact ⟨w, .nil w, (hlatched.detector threshold).window w hw⟩
    | false =>
      rw [if_neg (by simp [hdesync])] at h
      obtain ⟨⟨s₁, flow₁⟩, hscan, h⟩ := bind_eq_ok.mp h
      obtain ⟨⟨s₂, flow₂⟩, hacc, h⟩ := bind_eq_ok.mp h
      simp only [hscan, ok_bind, hacc, Bool.or_false, Bool.false_eq_true, if_false]
      have hidles := ((expire_idles s flow c.ts).trans (scanBlockTimeouts_idles hscan)).trans
        (accumulate_idles hacc)
      exact walkTurns_trail hlo hhi ((hidles.detector threshold).window w hw) h hroom

/-- The states of the detector along the calls. -/
def Follows (threshold : UInt32) (flowKey : FlowKey) (s : Dnp3Analyzer) (w : Option Window) :
    Prop := (controlDetector threshold).Holds (s, flowOf s flowKey) w

theorem callTurns_trail {s s' : Dnp3Analyzer} {call : Call} (hlo : 1 ≤ threshold.toNat)
    (hhi : threshold.toNat < 2 ^ 32 - 1) (hroom : hasRoom s'.findings = true)
    (hw : Follows threshold flowKey s w) (h : onCall ord flowKey s call = .ok s') :
    ∃ w', Trail (controlWatch threshold).Passes w (callTurns ord flowKey s call s') w' ∧
      Follows threshold flowKey s' w' := by
  obtain ⟨s₁, flow', hdata, rfl, hflow⟩ := onCall_eq_ok h
  obtain ⟨w', htrail, hkept, hw'⟩ := flowTurns_trail hlo hhi hw hdata hroom
  refine ⟨w', htrail, ?_⟩
  rw [Follows, hflow]
  exact ⟨hkept, hw'⟩

theorem onCall_room {s s' : Dnp3Analyzer} {call : Call} (h : onCall ord flowKey s call = .ok s')
    (hroom : hasRoom s'.findings = true) : hasRoom s.findings = true := by
  obtain ⟨s₁, flow', hdata, rfl, -⟩ := onCall_eq_ok h
  obtain ⟨found, hfound, -⟩ := (onFlowData_traced hdata).1.raised
  exact hasRoom_of_logged ⟨found, hfound⟩ hroom

theorem walkTurns_input (c : Delivery) (turns : Nat) (did : Bool) (s : Dnp3Analyzer)
    (flow : Dnp3FlowState) : ∀ t ∈ walkTurns ord c turns did s flow, t.input = c := by
  induction turns generalizing did s flow with
  | zero => exact fun t ht => absurd ht List.not_mem_nil
  | succ turns ih =>
    intro t ht
    rw [walkTurns] at ht
    split at ht
    · rcases List.mem_cons.mp ht with rfl | ht
      · rfl
      · split at ht
        · exact ih true _ _ t ht
        · cases ht
    · cases ht

theorem callTurns_input (s : Dnp3Analyzer) (call : Call) (s' : Dnp3Analyzer) :
    ∀ t ∈ callTurns ord flowKey s call s', t.input = ⟨flowKey, call.direction, call.ts⟩ := by
  intro t ht
  unfold callTurns flowTurns at ht
  split at ht
  · cases ht
  · split at ht
    · exact walkTurns_input _ _ _ _ _ t ht
    · cases ht

theorem runTurns_ordered {calls : List Call} (s : Dnp3Analyzer)
    (horder : calls.Pairwise fun call call' => call.ts ≤ call'.ts) :
    (controlWatch threshold).Ordered (runTurns ord flowKey s calls) := by
  refine notes_pairwise (fun s call s' => ?_) (horder.imp fun hle s s' t t' m hm m' hm' => ?_)
  · refine List.pairwise_of_forall_mem_list fun m hm m' hm' => ?_
    simp only [Detector.watch, callTurns_input s call s' m hm, callTurns_input s call s' m' hm']
    exact Nat.le_refl _
  · simp only [Detector.watch, callTurns_input _ _ _ m hm, callTurns_input _ _ _ m' hm']
    exact UInt32.le_iff_toNat_le.mp hle

end Logs

/-- A DIRECT_OPERATE_NR that does not come from a master. -/
def operateFrame : List UInt8 := [0x05, 0x64, 8, 0x44, 1, 0, 2, 0, 0, 0, 0xc0, 0xc0, 6, 0, 0]

/-- The bursts of one flow, over any calls in the order of their timestamps. -/
theorem run_controls (ord : PendingOrder) (flowKey : FlowKey) (threshold : UInt32)
    (hlo : 1 ≤ threshold.toNat) (hhi : threshold.toNat < 2 ^ 32 - 1) (calls : List Call)
    (horder : calls.Pairwise fun call call' => call.ts ≤ call'.ts) :
    ReturnsIf (totalBytes calls < 2 ^ 64) (run (onCall ord flowKey) (.new threshold) calls)
      fun s => hasRoom s.findings = true →
        (controlWatch threshold).Watches (runTurns ord flowKey (.new threshold) calls) := by
  have hfits := run_fits ord calls (shape_new threshold flowKey) (fits_new threshold flowKey)
  rw [Nat.zero_add] at hfits
  refine ⟨hfits.1, fun s hrun hroom => ?_⟩
  exact Detector.watches_notes (Follows threshold flowKey) (fun s => hasRoom s.findings = true)
    (fun s call s' h => onCall_room h)
    (fun s call s' w hroom hw h => callTurns_trail hlo hhi hroom hw h)
    ⟨rfl, rfl, rfl⟩ hrun hroom (Nat.succ_pos _) (runTurns_ordered _ horder)

/-! ## The largest threshold -/

def operateHeader : Dnp3DlHeader := ⟨0x05, 0x64, 8, 0x44, 1, 2⟩

def operateCall : Call := ⟨operateFrame, 0, .clientToServer⟩

/-- No finding can come from such a frame. -/
structure Muted (s : Dnp3Analyzer) (flow : Dnp3FlowState) : Prop where
  threshold : s.directOperateThreshold = 0xffffffff
  findings : s.findings = ⟨[], 0⟩
  isNonDnp3 : flow.isNonDnp3 = false
  pending : flow.pendingRequests = .empty
  blocks : flow.blockEventCount = 0

section Muted

variable {ord : PendingOrder} {c : Delivery} {s : Dnp3Analyzer} {flow : Dnp3FlowState}

theorem detectControlClassBurstSplit_silent (c : Delivery) (r : Request)
    (h : s.directOperateThreshold = 0xffffffff) (flow : Dnp3FlowState) :
    ∃ count start emitted, detectControlClassBurstSplit c r s flow = (s, { flow with
      directOperateCount := count
      windowStartTs := start
      directOperateEmitted := emitted }) := by
  have hfew : ∀ n, ¬ bump32 n > s.directOperateThreshold.toNat := by
    intro n
    rw [h, bump32, saturatingInc]
    simp
  unfold detectControlClassBurstSplit
  split
  · exact ⟨_, _, _, rfl⟩
  · simp only
    split
    · simp only [hfew, decide_false, Bool.false_and, Bool.false_eq_true, if_false]
      exact ⟨_, _, _, rfl⟩
    · simp only [hfew, decide_false, Bool.false_and, Bool.false_eq_true, if_false]
      exact ⟨_, _, _, rfl⟩

theorem Muted.frame {v : Dnp3Analyzer × Dnp3FlowState} (h : Muted s flow)
    (hok : processFrame ord c operateHeader operateFrame s flow = .ok v) : Muted v.1 v.2 := by
  have happ : applicationOf operateFrame operateHeader = some (⟨6, 1, 2⟩, 0xc0) := rfl
  have hmaster : isMasterFrame operateHeader.control = false := rfl
  unfold processFrame at hok
  simp only [trackMaster, hmaster, Bool.false_and, Bool.false_eq_true, if_false, happ] at hok
  unfold processApplication at hok
  obtain ⟨⟨fcCounts, n⟩, -, hok⟩ := bind_eq_ok.mp hok
  obtain ⟨⟨fnCodeCounts, m⟩, -, hok⟩ := bind_eq_ok.mp hok
  have hclass : classifyDnp3Fc 6 = .control := rfl
  have hbroad : isBroadcastDestination 1 = false := rfl
  have huns : ¬ ((6 : UInt8) = 0x14 ∨ (6 : UInt8) = 0x15) := by decide
  simp only [if_neg huns, processClass, hclass, processControl, hbroad, Bool.false_eq_true,
    if_false, registerRequest, ne_eq, not_true_eq_false] at hok
  obtain ⟨count, start, emitted, hdetect⟩ := detectControlClassBurstSplit_silent c ⟨6, 1, 2⟩
    (s := { s with fnCodeCounts := fnCodeCounts }) h.threshold
    { flow with frameCount := bump64 flow.frameCount, fcCounts := fcCounts }
  rw [hdetect] at hok
  cases hok
  exact ⟨h.threshold, h.findings, h.isNonDnp3, h.pending, h.blocks⟩

theorem Muted.expire (h : Muted s flow) (ts : UInt32) :
    Muted s (maybeExpireCorrelationWindow flow ts) := by
  unfold maybeExpireCorrelationWindow
  split
  · exact ⟨h.threshold, h.findings, h.isNonDnp3, h.pending, h.blocks⟩
  · split
    · exact ⟨h.threshold, h.findings, h.isNonDnp3, h.pending, rfl⟩
    · exact h

theorem Muted.scan (h : Muted s flow) (c : Delivery) :
    scanBlockTimeouts c s flow = .ok (s, flow) := by
  have hfew : ¬ 0 ≥ blockCmdThreshold := by decide
  unfold scanBlockTimeouts
  simp only [h.pending, SortedMap.empty, List.filter_nil, List.map_nil, List.foldl_nil, h.blocks,
    hfew, decide_false, Bool.false_and, Bool.false_eq_true, if_false]

theorem Muted.setCarry (h : Muted s flow) (dir : Direction) (bytes : List UInt8) :
    Muted s (flow.setCarry dir bytes) := by
  cases dir with
  | clientToServer => exact ⟨h.threshold, h.findings, h.isNonDnp3, h.pending, h.blocks⟩
  | serverToClient => exact ⟨h.threshold, h.findings, h.isNonDnp3, h.pending, h.blocks⟩

theorem expire_carry (flow : Dnp3FlowState) (ts : UInt32) :
    (maybeExpireCorrelationWindow flow ts).carryC2s = flow.carryC2s := by
  unfold maybeExpireCorrelationWindow
  split
  · rfl
  · split
    · rfl
    · rfl

/-- The loop takes the frame in its first turn, and the second turn is the last one. -/
theorem Muted.walk {v : Dnp3Analyzer × Dnp3FlowState} (h : Muted s flow)
    (hdir : c.direction = .clientToServer) (hcarry : flow.carryC2s = operateFrame) {turns : Nat}
    (hok : walk ord c (turns + 2) false s flow = .ok v) :
    Muted v.1 v.2 ∧ v.2.carryC2s = [] ∧ ∃ flow', walkTurns ord c (turns + 2) false s flow =
      [⟨c, (s, flow), v⟩, ⟨c, v, (v.1, flow')⟩] := by
  have hfront : flow.carry c.direction = operateFrame ++ [] := by
    rw [hdir, List.append_nil]
    exact hcarry
  have hparse : parseDnp3DlHeader operateFrame = some operateHeader := rfl
  have hfirst : turn ord c false s flow = _ := turn_of_frame ⟨rfl, rfl⟩ hfront hparse rfl
  rw [Dnp3.walk, hfirst, bind_bind] at hok
  obtain ⟨w, hframe, hok⟩ := bind_eq_ok.mp hok
  rw [walkTurns, hfirst, hframe]
  have hempty : (w.2.setCarry c.direction []).carry c.direction = [] := by
    rw [carry_setCarry]
  have hlast : turn ord c true w.1 (w.2.setCarry c.direction []) = _ :=
    turn_of_waits (.inl hempty)
  simp only [ok_bind, if_true] at hok ⊢
  rw [Dnp3.walk, hlast] at hok
  cases hok
  rw [walkTurns, hlast]
  refine ⟨(Muted.frame h hframe).setCarry c.direction [], ?_, _, rfl⟩
  rw [hdir]
  rfl

theorem Muted.call {flowKey : FlowKey} {v : Dnp3Analyzer × Dnp3FlowState} (h : Muted s flow)
    (hcarry : flow.carryC2s = [])
    (hok : onFlowData ord ⟨flowKey, .clientToServer, 0⟩ operateFrame s flow = .ok v) :
    Muted v.1 v.2 ∧ v.2.carryC2s = [] ∧ ∃ first last : Turn,
      flowTurns ord ⟨flowKey, .clientToServer, 0⟩ operateFrame s flow = [first, last] ∧
      (controlWatch 0xffffffff).event first = true ∧ first.input.ts = 0 ∧
      first.after.1.findings = ⟨[], 0⟩ ∧ last.after.1.findings = ⟨[], 0⟩ := by
  have hsync : desynced flow operateFrame = false := by simp [desynced, operateFrame, isSync]
  have hexpire := h.expire 0
  have hexpired := (expire_carry flow 0).trans hcarry
  unfold onFlowData at hok
  unfold flowTurns
  simp only [h.isNonDnp3, hsync, Bool.false_eq_true, if_false, Bool.or_false, hexpire.scan,
    ok_bind] at hok ⊢
  generalize maybeExpireCorrelationWindow flow 0 = flow₁ at hexpire hexpired hok ⊢
  have hacc : accumulate ⟨flowKey, .clientToServer, 0⟩ operateFrame s flow₁ =
      .ok (s, flow₁.setCarry .clientToServer operateFrame) := by
    unfold accumulate
    simp only [Dnp3FlowState.carry, hexpired]
    rfl
  have hmuted := hexpire.setCarry .clientToServer operateFrame
  rw [hacc] at hok ⊢
  have hcontrol : isControlAt operateFrame = true := by decide
  obtain ⟨hafter, hempty, flow', hturns⟩ := hmuted.walk rfl rfl hok
  refine ⟨hafter, hempty, _, _, hturns, ?_, rfl, hafter.findings, hafter.findings⟩
  simp only [Detector.watch, controlDetector, carry_setCarry, hcontrol]

/-- As many commands as calls, and no finding. -/
theorem Muted.run {flowKey : FlowKey} {n : Nat} {s s' : Dnp3Analyzer}
    (h : Muted s (flowOf s flowKey)) (hcarry : (flowOf s flowKey).carryC2s = [])
    (hrun : run (onCall ord flowKey) s (List.replicate n operateCall) = .ok s') :
    s'.findings = ⟨[], 0⟩ ∧
      (∀ t ∈ runTurns ord flowKey s (List.replicate n operateCall),
        t.after.1.findings = ⟨[], 0⟩) ∧
      n ≤ (runTurns ord flowKey s (List.replicate n operateCall)).countP fun t =>
        (controlWatch 0xffffffff).event t && decide ((controlWatch 0xffffffff).time t = 0) := by
  induction n generalizing s with
  | zero =>
    cases hrun
    exact ⟨h.findings, fun t ht => absurd ht List.not_mem_nil, Nat.zero_le _⟩
  | succ n ih =>
    obtain ⟨s₁, hcall, hrest⟩ := bind_eq_ok.mp hrun
    have hnotes : notes (onCall ord flowKey) (callTurns ord flowKey) s
        (operateCall :: List.replicate n operateCall) = _ := notes_cons hcall _
    obtain ⟨s₂, flow', hdata, rfl, hflow⟩ := onCall_eq_ok hcall
    obtain ⟨hmuted, hempty, first, last, hturns, hevent, hts, hfirst, hlast⟩ := h.call hcarry hdata
    rw [← hflow] at hempty
    have hmuted' : Muted { s₂ with flows := s₂.flows.insert flowKey flow' }
        (flowOf { s₂ with flows := s₂.flows.insert flowKey flow' } flowKey) := by
      rw [hflow]
      exact ⟨hmuted.threshold, hmuted.findings, hmuted.isNonDnp3, hmuted.pending, hmuted.blocks⟩
    obtain ⟨hfindings, hsilent, hmany⟩ := ih hmuted' hempty hrest
    have hlog : runTurns ord flowKey s (List.replicate (n + 1) operateCall) = first :: last ::
        runTurns ord flowKey { s₂ with flows := s₂.flows.insert flowKey flow' }
          (List.replicate n operateCall) := by
      rw [runTurns, List.replicate_succ, hnotes]
      exact congrArg (· ++ _) hturns
    rw [hlog]
    refine ⟨hfindings, List.forall_mem_cons.mpr ⟨hfirst, List.forall_mem_cons.mpr ⟨hlast,
      hsilent⟩⟩, ?_⟩
    have htime : (controlWatch 0xffffffff).time first = 0 := congrArg UInt32.toNat hts
    rw [List.countP_cons_of_pos (by simp [hevent, htime]), List.countP_cons]
    omega

end Muted

theorem totalBytes_replicate (n : Nat) : totalBytes (List.replicate n operateCall) = n * 15 := by
  rw [totalBytes, List.map_replicate, List.sum_replicate_nat]
  rfl

/-- With the largest threshold no number of commands is enough. -/
theorem controls_unreachable : ∃ calls s,
    (calls.Pairwise fun call call' => call.ts ≤ call'.ts) ∧
    run (onCall keyOrder outstationKey) (.new 0xffffffff) calls = .ok s ∧
    hasRoom s.findings = true ∧
    ¬ (controlWatch 0xffffffff).Complete
      (runTurns keyOrder outstationKey (.new 0xffffffff) calls) := by
  have horder : (List.replicate (2 ^ 32) operateCall).Pairwise fun call call' =>
      call.ts ≤ call'.ts := List.pairwise_replicate.mpr (.inr (UInt32.le_refl _))
  have hbytes : 0 + totalBytes (List.replicate (2 ^ 32) operateCall) < 2 ^ 64 := by
    have hall := totalBytes_replicate (2 ^ 32)
    omega
  obtain ⟨s, hs⟩ := (run_fits keyOrder _ (shape_new 0xffffffff outstationKey)
    (fits_new 0xffffffff outstationKey)).1 hbytes
  have hnew : Muted (.new 0xffffffff) (flowOf (.new 0xffffffff) outstationKey) :=
    ⟨rfl, rfl, rfl, rfl, rfl⟩
  obtain ⟨hfindings, hsilent, hmany⟩ := hnew.run rfl hs
  refine ⟨_, s, horder, hs, by rw [hfindings]; decide, fun hcomplete => ?_⟩
  have hneeded : (controlWatch 0xffffffff).needed ≤ 2 ^ 32 := by decide
  obtain ⟨t, ht, hfires, -⟩ := hcomplete 0 (Nat.le_trans hneeded hmany)
  have hnone : keptSince t.before.1.findings t.after.1.findings = [] := by
    rw [keptSince, hsilent t ht, List.drop_nil]
  simp only [Detector.watch, controlDetector, hnone, List.any_nil] at hfires
  cases hfires

end Wirerust.Dnp3
