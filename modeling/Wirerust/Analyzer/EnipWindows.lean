import Wirerust.Analyzer.EnipWalk
import Wirerust.Analyzer.Windows

/-!
Bursts of CIP writes and of CIP errors (`process_pdu` of `analyzer/enip.rs`).

A log holds the items that `process_pdu` goes through, with the states before and after each of
them. The window of the writes is seeded by the first of them (`writeDetector`), that of the errors
has a flag of its own and a map of counts, of which only the sum matters (`errorDetector`). The
latches are only set while there is room for findings.
-/

namespace Wirerust.Enip

open Lib Wirerust.Flow Wirerust.Analyzer

/-! ## What is seen -/

/-- An item that has been looked at. -/
abbrev Item := Moment (Delivery × CpfItem) (EnipAnalyzer × EnipFlowState)

def itemNote (c : Delivery) (w : EnipAnalyzer × EnipFlowState) (item : CpfItem)
    (w' : EnipAnalyzer × EnipFlowState) : List Item := [⟨(c, item), w, w'⟩]

/-- The items of `processPdu`. -/
def pduItems (c : Delivery) (w : EnipAnalyzer × EnipFlowState) (pdu : List UInt8)
    (_ : EnipAnalyzer × EnipFlowState) : List Item :=
  if w.2.isNonEnip then []
  else
    match parseEnipHeader pdu with
    | none => []
    | some header =>
      match classifyEnipCommand header.command with
      | .sendRRData | .sendUnitData =>
        if pdu.length ≤ cpfOffset then []
        else notes (processItem c header) (itemNote c)
          (w.1, { w.2 with pduCount := bump64 w.2.pduCount }) (parseCpfItems (pdu.drop cpfOffset))
      | _ => []

/-- The items of `onData`, if it is for this flow. -/
def callItems (flowKey : FlowKey) (s : EnipAnalyzer) (call : Call) (_ : EnipAnalyzer) :
    List Item :=
  let c := call.delivery
  let flow := flowOf s flowKey
  if c.flowKey = flowKey ∧ flow.isNonEnip = false then
    let s := { s with
      bytesReceived := min (s.bytesReceived + call.data.length) (2 ^ 64 - 1)
      flows := s.flows.erase c.flowKey }
    let flow := maybeExpireMalformedWindow flow c.ts
    let buf := flow.carry c.direction ++ call.data
    match walk c buf.length s (flow.setCarry c.direction []) buf with
    | .ok w => notes (processPdu c) (pduItems c) (stash c w) w.queue
    | .error _ => []
  else []

/-- The items of one flow in a run. -/
def runItems (flowKey : FlowKey) (s : EnipAnalyzer) (calls : List Call) : List Item :=
  notes onCall (callItems flowKey) s calls

/-- A request that sets attributes. -/
def isWrite (cip : CipHeader) : Bool :=
  classifyCipService cip.service ∈ [.setAttributesAll, .setAttributeList, .setAttributeSingle] &&
    cip.service &&& 0x80 == 0

/-- A response with another status than success. -/
def isError (data : List UInt8) (cip : CipHeader) : Bool :=
  classifyCipService cip.service = .response && data.length ≥ 4 && byteAt data 2 ≠ 0

/-- The CIP message of an item, if it is one of unconnected data. -/
def cipOf (item : CpfItem) : Option CipHeader :=
  if item.typeId ≠ 0x00b2 then none else parseCipHeader item.data

def isWriteBurst (f : Finding) : Bool := f.mitreTechniques = ["T0836"]

def isErrorBurst (f : Finding) : Bool := f.mitreTechniques = ["T0888"] ∧ f.verdict = .possible

/-! ## The windows in the flow -/

/-- There is no window before the first write. -/
abbrev WriteWindow (flow : EnipFlowState) (w : Option Window) : Prop :=
  Seeded 64 flow.writeWindowStartTs flow.writeCountInWindow flow.writeBurstEmitted w

/-- There is no window before the first error. -/
def ErrorWindow (flow : EnipFlowState) : Option Window → Prop
  | none => flow.errorWindowActive = false ∧ countsTotal flow.errorCountsInWindow = 0 ∧
    flow.errorRateEmitted = false
  | some w => flow.errorWindowActive = true ∧ flow.errorWindowStartTs.toNat = w.anchor ∧
    countsTotal flow.errorCountsInWindow = w.count ∧ flow.errorRateEmitted = w.fired

theorem ErrorWindow.expired_iff {flow : EnipFlowState} {w : Option Window}
    (h : ErrorWindow flow w) (ts : UInt32) :
    (flow.errorWindowActive && saturatingSub ts flow.errorWindowStartTs > 10) = true ↔
      Window.Expired 10 w ts.toNat := by
  cases w with
  | none =>
    rw [h.1]
    exact ⟨fun h => absurd h (by simp), fun ⟨v, hv, _⟩ => absurd hv (by simp)⟩
  | some v =>
    rw [h.1, Bool.true_and]
    exact past_iff_expired h.2.1

/-- More than `threshold` writes within a second. -/
def writeDetector (threshold : UInt32) :
    Detector (Delivery × CpfItem) (EnipAnalyzer × EnipFlowState) where
  width := 1
  needed := threshold.toNat + 1
  event := fun i _ => (cipOf i.2).any isWrite
  time := fun i => i.1.ts
  findings := fun v => v.1.findings
  alarm := isWriteBurst
  resets := fun i v => v.2.writeCountInWindow > 0 &&
    saturatingSub i.1.ts v.2.writeWindowStartTs > 1
  anchor := fun v => v.2.writeWindowStartTs
  Holds := fun v w => v.1.enipWriteBurstThreshold = threshold ∧ WriteWindow v.2 w
  resets_iff := fun i _ _ hw => hw.2.expired_iff (by decide) i.1.ts 1
  anchor_eq := fun _ _ hw => hw.2.2.anchor

/-- More than `threshold` errors within ten seconds, whatever their statuses are. -/
def errorDetector (threshold : UInt32) :
    Detector (Delivery × CpfItem) (EnipAnalyzer × EnipFlowState) where
  width := 10
  needed := threshold.toNat + 1
  event := fun i _ => (cipOf i.2).any (isError i.2.data)
  time := fun i => i.1.ts
  findings := fun v => v.1.findings
  alarm := isErrorBurst
  resets := fun i v => v.2.errorWindowActive &&
    saturatingSub i.1.ts v.2.errorWindowStartTs > 10
  anchor := fun v => v.2.errorWindowStartTs
  Holds := fun v w => v.1.enipErrorBurstThreshold = threshold ∧ ErrorWindow v.2 w
  resets_iff := fun i _ _ hw => hw.2.expired_iff i.1.ts
  anchor_eq := fun _ _ hw => hw.2.2.1

/-! ## Steps that the windows have no part in -/

section Steps

variable {v v' v'' : EnipAnalyzer × EnipFlowState}

structure SameWrites (v v' : EnipAnalyzer × EnipFlowState) : Prop where
  threshold : v'.1.enipWriteBurstThreshold = v.1.enipWriteBurstThreshold
  start : v'.2.writeWindowStartTs = v.2.writeWindowStartTs
  count : v'.2.writeCountInWindow = v.2.writeCountInWindow
  emitted : v'.2.writeBurstEmitted = v.2.writeBurstEmitted

structure SameErrors (v v' : EnipAnalyzer × EnipFlowState) : Prop where
  threshold : v'.1.enipErrorBurstThreshold = v.1.enipErrorBurstThreshold
  active : v'.2.errorWindowActive = v.2.errorWindowActive
  start : v'.2.errorWindowStartTs = v.2.errorWindowStartTs
  counts : v'.2.errorCountsInWindow = v.2.errorCountsInWindow
  emitted : v'.2.errorRateEmitted = v.2.errorRateEmitted

theorem SameWrites.idles (h : SameWrites v v') (threshold : UInt32)
    (hraises : ∃ found, Raises found v.1.findings v'.1.findings ∧
      found.any isWriteBurst = false) : (writeDetector threshold).Idles v v' := by
  refine ⟨fun w hw => ⟨h.threshold.trans hw.1, ?_⟩, hraises⟩
  unfold WriteWindow
  rw [h.start, h.count, h.emitted]
  exact hw.2

theorem SameErrors.idles (h : SameErrors v v') (threshold : UInt32)
    (hraises : ∃ found, Raises found v.1.findings v'.1.findings ∧
      found.any isErrorBurst = false) : (errorDetector threshold).Idles v v' := by
  refine ⟨fun w hw => ⟨h.threshold.trans hw.1, ?_⟩, hraises⟩
  have hwindow := hw.2
  cases w with
  | none =>
    unfold ErrorWindow at hwindow ⊢
    rw [h.active, h.counts, h.emitted]
    exact hwindow
  | some w =>
    unfold ErrorWindow at hwindow ⊢
    rw [h.active, h.start, h.counts, h.emitted]
    exact hwindow

/-- Neither detector has a part in the step. -/
structure Apart (v v' : EnipAnalyzer × EnipFlowState) : Prop where
  writes : SameWrites v v'
  errors : SameErrors v v'
  raises : ∃ found, Raises found v.1.findings v'.1.findings ∧
    found.any isWriteBurst = false ∧ found.any isErrorBurst = false

namespace Apart

theorem of_same (hwrites : SameWrites v v') (herrors : SameErrors v v')
    (hfindings : v'.1.findings = v.1.findings) : Apart v v' :=
  ⟨hwrites, herrors, [], hfindings, rfl, rfl⟩

theorem refl (v : EnipAnalyzer × EnipFlowState) : Apart v v :=
  of_same ⟨rfl, rfl, rfl, rfl⟩ ⟨rfl, rfl, rfl, rfl, rfl⟩ rfl

theorem trans (h : Apart v v') (h' : Apart v' v'') : Apart v v'' where
  writes := ⟨h'.writes.threshold.trans h.writes.threshold, h'.writes.start.trans h.writes.start,
    h'.writes.count.trans h.writes.count, h'.writes.emitted.trans h.writes.emitted⟩
  errors := ⟨h'.errors.threshold.trans h.errors.threshold, h'.errors.active.trans h.errors.active,
    h'.errors.start.trans h.errors.start, h'.errors.counts.trans h.errors.counts,
    h'.errors.emitted.trans h.errors.emitted⟩
  raises := by
    obtain ⟨found, hfound, hwrite, herror⟩ := h.raises
    obtain ⟨found', hfound', hwrite', herror'⟩ := h'.raises
    refine ⟨found ++ found', hfound.trans hfound', ?_, ?_⟩
    · rw [List.any_append, hwrite, hwrite']
      rfl
    · rw [List.any_append, herror, herror']
      rfl

/-- A finding that is neither of the two alarms. -/
theorem emit {s : EnipAnalyzer} {flow flow' : EnipFlowState} {finding : Finding}
    (hwrite : isWriteBurst finding = false) (herror : isErrorBurst finding = false)
    (h : Apart (s, flow) (s, flow')) : Apart (s, flow) (Enip.emit s finding, flow') := by
  refine ⟨⟨rfl, h.writes.start, h.writes.count, h.writes.emitted⟩,
    ⟨rfl, h.errors.active, h.errors.start, h.errors.counts, h.errors.emitted⟩, [finding], rfl,
    ?_, ?_⟩
  · rw [List.any_cons, hwrite]
    rfl
  · rw [List.any_cons, herror]
    rfl

theorem write (h : Apart v v') (threshold : UInt32) : (writeDetector threshold).Idles v v' := by
  obtain ⟨found, hfound, hwrite, -⟩ := h.raises
  exact h.writes.idles threshold ⟨found, hfound, hwrite⟩

theorem error (h : Apart v v') (threshold : UInt32) : (errorDetector threshold).Idles v v' := by
  obtain ⟨found, hfound, -, herror⟩ := h.raises
  exact h.errors.idles threshold ⟨found, hfound, herror⟩

end Apart

variable (c : Delivery) (header : EnipHeader) (cip : CipHeader) (serviceClass : CipServiceClass)
  (s : EnipAnalyzer) (flow : EnipFlowState)

theorem detectListIdentity_apart : Apart (s, flow) (detectListIdentity c header s flow) := by
  unfold detectListIdentity
  split
  · refine .emit rfl rfl ?_
    split
    · exact .of_same ⟨rfl, rfl, rfl, rfl⟩ ⟨rfl, rfl, rfl, rfl, rfl⟩ rfl
    · exact .refl _
  · exact .refl _

theorem detectIdentityRead_apart :
    Apart (s, flow) (detectIdentityRead c cip serviceClass s, flow) := by
  unfold detectIdentityRead
  split
  · split
    · exact .emit rfl rfl (.refl _)
    · exact .refl _
  · exact .refl _

theorem detectCommand_apart (wanted : CipServiceClass) (summary name : String)
    {technique : String} (hwrite : technique ≠ "T0836") (herror : technique ≠ "T0888") :
    Apart (s, flow)
      (detectCommand c header cip serviceClass s wanted summary name technique, flow) := by
  unfold detectCommand
  split
  · refine .emit ?_ ?_ (.refl _)
    · simp [isWriteBurst, Delivery.finding, hwrite]
    · simp [isErrorBurst, Delivery.finding, herror]
  · exact .refl _

theorem detectConnection_apart :
    Apart (s, flow) (detectConnection c header cip serviceClass s flow) := by
  unfold detectConnection
  split
  · exact .emit rfl rfl (.of_same ⟨rfl, rfl, rfl, rfl⟩ ⟨rfl, rfl, rfl, rfl, rfl⟩ rfl)
  · split
    · exact .emit rfl rfl (.of_same ⟨rfl, rfl, rfl, rfl⟩ ⟨rfl, rfl, rfl, rfl, rfl⟩ rfl)
    · exact .refl _

theorem checkT0814_apart : Apart (s, flow) (checkT0814 c s flow) := by
  unfold checkT0814
  split
  · refine .emit rfl rfl ?_
    split
    · exact .of_same ⟨rfl, rfl, rfl, rfl⟩ ⟨rfl, rfl, rfl, rfl, rfl⟩ rfl
    · exact .refl _
  · exact .refl _

end Steps

/-! ## Writes -/

section Writes

variable {threshold : UInt32} {c : Delivery} {w : Option Window} {s : EnipAnalyzer}
  {flow : EnipFlowState}

/-- The write has been counted. -/
theorem countWrite_held (c : Delivery) (hw : WriteWindow flow w) :
    Held 64 (countWrite c flow).writeWindowStartTs (countWrite c flow).writeCountInWindow
      (countWrite c flow).writeBurstEmitted (Window.enter 1 w c.ts.toNat) := by
  unfold countWrite
  cases w with
  | none =>
    obtain ⟨hcount, hemitted⟩ := hw
    have hone : bump64 0 = 1 := rfl
    simp only [hcount, Nat.lt_irrefl, gt_iff_lt, decide_false, Bool.false_and, Bool.false_eq_true,
      if_false, hone, if_true]
    rw [hemitted]
    exact Held.of_new 64 (by decide) c.ts
  | some v =>
    obtain ⟨hpos, hheld⟩ := hw
    have hcount : flow.writeCountInWindow > 0 := by
      rw [hheld.count]
      omega
    rw [decide_eq_true hcount, Bool.true_and]
    by_cases hpast : saturatingSub c.ts flow.writeWindowStartTs > 1
    · rw [if_pos (decide_eq_true hpast)]
      rw [past_iff, hheld.anchor] at hpast
      exact Held.enter_past 64 (by decide) hpast
    · have hmore : bump64 flow.writeCountInWindow ≠ 1 := by
        rw [bump64, saturatingInc]
        omega
      rw [if_neg (by simpa using hpast), if_neg hmore]
      rw [past_iff, hheld.anchor] at hpast
      exact hheld.enter_within hpast

theorem countWrite_errors (c : Delivery) (s : EnipAnalyzer) (flow : EnipFlowState) :
    SameErrors (s, flow) (s, countWrite c flow) := by
  unfold countWrite
  split
  · exact ⟨rfl, rfl, rfl, rfl, rfl⟩
  · split
    · exact ⟨rfl, rfl, rfl, rfl, rfl⟩
    · exact ⟨rfl, rfl, rfl, rfl, rfl⟩

theorem detectWriteBurst_takes (c : Delivery) (header : EnipHeader) (cip : CipHeader)
    (hroom : hasRoom s.findings = true) (hw : (writeDetector threshold).Holds (s, flow) w) :
    (writeDetector threshold).Takes (isWrite cip) c.ts w (s, flow)
      (detectWriteBurst c header cip (classifyCipService cip.service) s flow) := by
  obtain ⟨hthreshold, hw⟩ := hw
  subst hthreshold
  unfold detectWriteBurst
  cases hwrite : isWrite cip with
  | false =>
    rw [if_neg (by rw [← isWrite, hwrite]; exact Bool.false_ne_true)]
    exact ((Apart.refl (s, flow)).write _).takes ⟨rfl, hw⟩
  | true =>
    have hheld := countWrite_held c hw
    have hpos := Window.enter_count_pos 1 w c.ts.toNat
    have hbelow := s.enipWriteBurstThreshold.toNat_lt
    have hhi : s.enipWriteBurstThreshold.toNat + 1 ≤ 2 ^ 64 - 1 := by omega
    rw [if_pos (by rw [← isWrite, hwrite])]
    simp only [hroom, if_true]
    by_cases hfires : s.enipWriteBurstThreshold.toNat + 1 ≤ (countWrite c flow).writeCountInWindow ∧
        (countWrite c flow).writeBurstEmitted = false
    · obtain ⟨hnext, halarm⟩ := hheld.alarm hhi hfires
      rw [if_pos (by simp [hfires.2, Nat.lt_of_succ_le hfires.1])]
      exact ⟨⟨rfl, hpos, hnext⟩, [_], rfl, iff_of_true rfl ⟨rfl, halarm⟩⟩
    · obtain ⟨hnext, hquiet⟩ := hheld.quiet hhi hfires
      rw [if_neg (by simpa [Nat.succ_le_iff] using hfires)]
      exact ⟨⟨rfl, hpos, hnext⟩, [], rfl, iff_of_false (by simp) fun h => hquiet h.2⟩

theorem detectWriteBurst_errors (c : Delivery) (header : EnipHeader) (cip : CipHeader)
    (serviceClass : CipServiceClass) (s : EnipAnalyzer) (flow : EnipFlowState)
    (threshold : UInt32) : (errorDetector threshold).Idles (s, flow)
      (detectWriteBurst c header cip serviceClass s flow) := by
  have hsame := countWrite_errors c s flow
  unfold detectWriteBurst
  split
  · simp only
    split
    · refine SameErrors.idles ?_ threshold ⟨[_], rfl, rfl⟩
      split
      · exact ⟨rfl, hsame.active, hsame.start, hsame.counts, hsame.emitted⟩
      · exact ⟨rfl, hsame.active, hsame.start, hsame.counts, hsame.emitted⟩
    · refine SameErrors.idles ?_ threshold ⟨[], rfl, rfl⟩
      exact ⟨rfl, hsame.active, hsame.start, hsame.counts, hsame.emitted⟩
  · exact (Apart.refl _).error threshold

end Writes

/-! ## Errors -/

theorem sumCounts_total {counts : SortedMap UInt8 Nat} {total : Nat}
    (h : sumCounts counts = .ok total) : total = countsTotal counts := by
  suffices hfold : ∀ (es : List (UInt8 × Nat)) (acc : Nat),
      es.foldlM (fun acc e => checkedAdd 64 acc e.2) acc = .ok total →
      total = acc + (es.map Prod.snd).sum by
    rw [hfold counts.entries 0 h, Nat.zero_add]
    rfl
  intro es
  induction es with
  | nil =>
    intro acc hacc
    cases hacc
    rfl
  | cons e es ih =>
    intro acc hacc
    rw [List.foldlM_cons] at hacc
    obtain ⟨next, hnext, hrest⟩ := bind_eq_ok.mp hacc
    unfold checkedAdd at hnext
    split at hnext
    · cases hnext
      rw [ih _ hrest, List.map_cons, List.sum_cons, Nat.add_assoc]
    · cases hnext

section Errors

variable {threshold : UInt32} {c : Delivery} {w : Option Window} {s : EnipAnalyzer}
  {flow : EnipFlowState}

/-- The window that the error is counted in, before it is. -/
theorem errorWindow_expire {v : Window} (c : Delivery) (hw : ErrorWindow flow (some v)) :
    ∃ v', ErrorWindow (expireErrorWindow c flow) (some v') ∧
      Window.enter 10 (some v) c.ts.toNat = { v' with count := v'.count + 1 } := by
  have hexpired := hw.expired_iff c.ts
  unfold expireErrorWindow
  by_cases hpast : v.anchor + 10 < c.ts.toNat
  · rw [if_pos (hexpired.mpr ⟨v, rfl, hpast⟩)]
    exact ⟨⟨c.ts.toNat, 0, false⟩, ⟨hw.1, rfl, rfl, rfl⟩, Window.enter_of_lt hpast⟩
  · have hkept : ¬ (flow.errorWindowActive &&
        saturatingSub c.ts flow.errorWindowStartTs > 10) = true := by
      rw [hexpired]
      rintro ⟨v', hv', hpast'⟩
      exact hpast (Option.some.inj hv' ▸ hpast')
    rw [if_neg hkept]
    exact ⟨v, hw, Window.enter_of_le (Nat.le_of_not_lt hpast)⟩

/-- The error has been counted, under its own status. -/
theorem errorWindow_entered {generalStatus : UInt8} {r : SortedMap UInt8 Nat × Nat}
    (hw : ErrorWindow flow w)
    (h : countEntry 64 (expireErrorWindow c flow).errorCountsInWindow generalStatus = .ok r) :
    ErrorWindow (startErrorWindow c { expireErrorWindow c flow with errorCountsInWindow := r.1 })
      (some (Window.enter 10 w c.ts.toNat)) := by
  have hcount := countsTotal_countEntry h
  cases w with
  | none =>
    obtain ⟨hactive, htotal, hemitted⟩ := hw
    have hsame : expireErrorWindow c flow = flow := if_neg (by simp [hactive])
    rw [hsame, htotal] at hcount
    rw [hsame, startErrorWindow, if_pos (by simp [hactive])]
    exact ⟨rfl, rfl, hcount, hemitted⟩
  | some v =>
    obtain ⟨v', ⟨hactive, hanchor, htotal, hemitted⟩, henter⟩ := errorWindow_expire c hw
    rw [startErrorWindow, if_neg (by simp [hactive]), henter]
    exact ⟨hactive, hanchor, by rw [hcount, htotal], hemitted⟩

theorem detectErrorBurst_takes (c : Delivery) (hroom : hasRoom s.findings = true)
    (hw : ErrorWindow flow (some (Window.enter 10 w c.ts.toNat))) :
    (errorDetector s.enipErrorBurstThreshold).Holds
        (detectErrorBurst c s flow (countsTotal flow.errorCountsInWindow))
        (some (Window.next 10 (s.enipErrorBurstThreshold.toNat + 1) w c.ts.toNat)) ∧
      ∃ found, Raises found s.findings
          (detectErrorBurst c s flow (countsTotal flow.errorCountsInWindow)).1.findings ∧
        (found.any isErrorBurst = true ↔
          Window.Fires 10 (s.enipErrorBurstThreshold.toNat + 1) w c.ts.toNat) := by
  obtain ⟨hactive, hanchor, htotal, hemitted⟩ := hw
  have hfires : (countsTotal flow.errorCountsInWindow > s.enipErrorBurstThreshold.toNat &&
      !flow.errorRateEmitted) = true ↔
      Window.Fires 10 (s.enipErrorBurstThreshold.toNat + 1) w c.ts.toNat := by
    rw [Window.Fires, htotal, hemitted, Bool.and_eq_true, decide_eq_true_iff,
      Bool.not_eq_true']
    exact Iff.rfl
  unfold detectErrorBurst
  by_cases hdue : (countsTotal flow.errorCountsInWindow > s.enipErrorBurstThreshold.toNat &&
      !flow.errorRateEmitted) = true
  · have halarm := hfires.mp hdue
    rw [if_pos hdue]
    simp only [hroom, if_true]
    refine ⟨⟨rfl, hactive, hanchor, htotal, ?_⟩, [_], rfl, iff_of_true rfl halarm⟩
    simp [Window.next, halarm.1]
  · have hquiet := mt hfires.mpr hdue
    rw [if_neg hdue]
    refine ⟨⟨rfl, hactive, hanchor, htotal, ?_⟩, [], rfl, iff_of_false (by simp) hquiet⟩
    rw [hemitted, Window.next]
    cases hfired : (Window.enter 10 w c.ts.toNat).fired with
    | true => rfl
    | false =>
      have hfew : ¬ s.enipErrorBurstThreshold.toNat + 1 ≤
          (Window.enter 10 w c.ts.toNat).count := fun hreached => hquiet ⟨hreached, hfired⟩
      simp [hfew]

theorem countError_takes {generalStatus : UInt8} {v : EnipAnalyzer × EnipFlowState}
    (hroom : hasRoom s.findings = true) (hw : (errorDetector threshold).Holds (s, flow) w)
    (h : countError c s flow generalStatus = .ok v) :
    (errorDetector threshold).Takes true c.ts w (s, flow) v := by
  obtain ⟨hthreshold, hw⟩ := hw
  subst hthreshold
  unfold countError at h
  obtain ⟨r, hentry, h⟩ := bind_eq_ok.mp h
  obtain ⟨total, htotal, h⟩ := bind_eq_ok.mp h
  have hentered := errorWindow_entered hw hentry
  rw [sumCounts_total htotal] at h
  cases h
  obtain ⟨hholds, found, hfound, halarm⟩ := detectErrorBurst_takes
    (s := { s with errorCount := bump64 s.errorCount }) c hroom hentered
  exact ⟨hholds, found, hfound, halarm.trans (and_iff_right rfl).symm⟩

theorem countError_writes {generalStatus : UInt8} {v : EnipAnalyzer × EnipFlowState}
    (threshold : UInt32) (h : countError c s flow generalStatus = .ok v) :
    (writeDetector threshold).Idles (s, flow) v := by
  unfold countError at h
  obtain ⟨r, hentry, h⟩ := bind_eq_ok.mp h
  obtain ⟨total, htotal, h⟩ := bind_eq_ok.mp h
  have hexpire : SameWrites (s, flow) (s, expireErrorWindow c flow) := by
    unfold expireErrorWindow
    split
    · exact ⟨rfl, rfl, rfl, rfl⟩
    · exact ⟨rfl, rfl, rfl, rfl⟩
  have hstart : ∀ flow', SameWrites (s, flow') (s, startErrorWindow c flow') := by
    intro flow'
    unfold startErrorWindow
    split
    · exact ⟨rfl, rfl, rfl, rfl⟩
    · exact ⟨rfl, rfl, rfl, rfl⟩
  have hstart' := hstart { expireErrorWindow c flow with errorCountsInWindow := r.1 }
  have hall : SameWrites (s, flow) ({ s with errorCount := bump64 s.errorCount },
      startErrorWindow c { expireErrorWindow c flow with errorCountsInWindow := r.1 }) :=
    ⟨rfl, hstart'.start.trans hexpire.start, hstart'.count.trans hexpire.count,
      hstart'.emitted.trans hexpire.emitted⟩
  cases h
  unfold detectErrorBurst
  split
  · refine SameWrites.idles ?_ threshold ⟨[_], rfl, rfl⟩
    split
    · exact ⟨rfl, hall.start, hall.count, hall.emitted⟩
    · exact ⟨rfl, hall.start, hall.count, hall.emitted⟩
  · refine SameWrites.idles ?_ threshold ⟨[], rfl, rfl⟩
    exact ⟨rfl, hall.start, hall.count, hall.emitted⟩

end Errors

/-! ## Items -/

/-- The thresholds stay what they are. -/
def thresholds (s : EnipAnalyzer) : UInt32 × UInt32 :=
  (s.enipWriteBurstThreshold, s.enipErrorBurstThreshold)

/-- A detector of the analyzer: it looks at every item, and at nothing else. -/
structure Observes (D : Detector (Delivery × CpfItem) (EnipAnalyzer × EnipFlowState)) : Prop where
  findings : ∀ v, D.findings v = v.1.findings
  time : ∀ i, D.time i = i.1.ts
  foreign : ∀ s s' flow w, thresholds s' = thresholds s → D.Holds (s, flow) w →
    D.Holds (s', flow) w
  apart : ∀ v v', Apart v v' → D.Idles v v'
  takes : ∀ c header v item v' w, hasRoom v'.1.findings = true → D.Holds v w →
    processItem c header v item = .ok v' → D.Takes (D.event (c, item) v) c.ts w v v'

section Items

variable {threshold : UInt32} {c : Delivery} {header : EnipHeader} {w : Option Window}
  {v v' : EnipAnalyzer × EnipFlowState} {item : CpfItem}

theorem processItem_logged (h : processItem c header v item = .ok v') :
    Logged v.1.findings v'.1.findings :=
  ((processItem_detects c header v item).2 v' h).findings

/-- What an item does, by what it is. -/
theorem processItem_cases (h : processItem c header v item = .ok v') :
    ((cipOf item).all (fun cip => !isError item.data cip && !isWrite cip) = true ∧ v' = v) ∨
    (∃ cip, cipOf item = some cip ∧ isError item.data cip = true ∧ isWrite cip = false ∧
      countError c v.1 v.2 (byteAt item.data 2) = .ok v') ∨
    ∃ cip, cipOf item = some cip ∧ isError item.data cip = false ∧
      v' = processRequest c header cip (classifyCipService cip.service) v.1 v.2 := by
  unfold processItem at h
  unfold cipOf
  by_cases hother : item.typeId ≠ 0x00b2
  · rw [if_pos hother] at h ⊢
    cases h
    exact .inl ⟨rfl, rfl⟩
  rw [if_neg hother] at h ⊢
  cases hcip : parseCipHeader item.data with
  | none =>
    rw [hcip] at h
    cases h
    exact .inl ⟨rfl, rfl⟩
  | some cip =>
    simp only [hcip] at h
    by_cases hresponse : classifyCipService cip.service = .response
    · have hread : isWrite cip = false := by simp [isWrite, hresponse]
      rw [if_pos hresponse] at h
      unfold processResponse at h
      by_cases hshort : item.data.length < 4
      · rw [if_pos hshort] at h
        cases h
        refine .inl ⟨?_, rfl⟩
        simp [isError, hread, hshort]
      rw [if_neg hshort] at h
      by_cases hstatus : byteAt item.data 2 = 0
      · simp only [hstatus, ne_eq, not_true_eq_false, if_false] at h
        cases h
        refine .inl ⟨?_, rfl⟩
        simp [isError, hread, hstatus]
      · simp only [ne_eq, hstatus, not_false_eq_true, if_true] at h
        refine .inr (.inl ⟨cip, rfl, ?_, hread, h⟩)
        simp [isError, hresponse, hstatus, Nat.le_of_not_lt hshort]
    · rw [if_neg hresponse] at h
      cases h
      exact .inr (.inr ⟨cip, rfl, by simp [isError, hresponse], rfl⟩)

theorem thresholds_of_apart (h : Apart v v') : thresholds v'.1 = thresholds v.1 :=
  Prod.ext h.writes.threshold h.errors.threshold

variable (c header) (cip : CipHeader) (s : EnipAnalyzer) (flow : EnipFlowState)

/-- What comes before the check for writes. -/
def beforeWrites (serviceClass : CipServiceClass) : EnipAnalyzer :=
  detectReset c header cip serviceClass (detectStop c header cip serviceClass
    (detectIdentityRead c cip serviceClass s))

theorem beforeWrites_apart (serviceClass : CipServiceClass) :
    Apart (s, flow) (beforeWrites c header cip s serviceClass, flow) :=
  ((detectIdentityRead_apart c cip serviceClass s flow).trans
    (detectCommand_apart c header cip serviceClass _ flow _ _ _ (by decide) (by decide))).trans
    (detectCommand_apart c header cip serviceClass _ flow _ _ _ (by decide) (by decide))

theorem processRequest_eq (serviceClass : CipServiceClass) :
    processRequest c header cip serviceClass s flow =
      let v := detectWriteBurst c header cip serviceClass
        (beforeWrites c header cip s serviceClass) flow
      detectConnection c header cip serviceClass v.1 v.2 := rfl

theorem processRequest_takes
    (hroom : hasRoom (processRequest c header cip (classifyCipService cip.service) s
      flow).1.findings = true) (hw : (writeDetector threshold).Holds (s, flow) w) :
    (writeDetector threshold).Takes (isWrite cip) c.ts w (s, flow)
      (processRequest c header cip (classifyCipService cip.service) s flow) := by
  have hbefore := (beforeWrites_apart c header cip s flow
    (classifyCipService cip.service)).write threshold
  rw [processRequest_eq] at hroom ⊢
  generalize beforeWrites c header cip s _ = s₁ at hbefore hroom ⊢
  have hafter := detectConnection_apart c header cip (classifyCipService cip.service)
    (detectWriteBurst c header cip (classifyCipService cip.service) s₁ flow).1
    (detectWriteBurst c header cip (classifyCipService cip.service) s₁ flow).2
  have hlogged := (detectWriteBurst_detects c header cip (classifyCipService cip.service) s₁
    flow).findings.trans (hafter.write threshold).logged
  exact ((detectWriteBurst_takes c header cip (hasRoom_of_logged hlogged hroom)
    (hbefore.window w hw)).after hbefore).before (hafter.write threshold)

theorem processRequest_idles (serviceClass : CipServiceClass) (threshold : UInt32) :
    (errorDetector threshold).Idles (s, flow)
      (processRequest c header cip serviceClass s flow) := by
  have hbefore := (beforeWrites_apart c header cip s flow serviceClass).error threshold
  have hwrites := detectWriteBurst_errors c header cip serviceClass
    (beforeWrites c header cip s serviceClass) flow threshold
  exact (hbefore.trans hwrites).trans
    ((detectConnection_apart c header cip serviceClass _ _).error threshold)

end Items

theorem writeDetector_observes (threshold : UInt32) : Observes (writeDetector threshold) where
  findings := fun _ => rfl
  time := fun _ => rfl
  foreign := fun _ _ _ _ h hw => ⟨(congrArg Prod.fst h).trans hw.1, hw.2⟩
  apart := fun _ _ h => h.write threshold
  takes := by
    intro c header v item v' w hroom hw h
    show (writeDetector threshold).Takes ((cipOf item).any isWrite) c.ts w v v'
    rcases processItem_cases h with ⟨hnone, rfl⟩ | ⟨cip, hcip, -, hread, hcount⟩ |
      ⟨cip, hcip, -, rfl⟩
    · have hread : (cipOf item).any isWrite = false := by
        cases hcip : cipOf item with
        | none => rfl
        | some cip =>
          rw [hcip, Option.all_some, Bool.and_eq_true, Bool.not_eq_true'] at hnone
          simpa using hnone.2
      rw [hread]
      exact (Detector.Idles.refl v').takes hw
    · rw [hcip, Option.any_some, hread]
      exact (countError_writes threshold hcount).takes hw
    · rw [hcip, Option.any_some]
      exact processRequest_takes c header cip v.1 v.2 hroom hw

theorem errorDetector_observes (threshold : UInt32) : Observes (errorDetector threshold) where
  findings := fun _ => rfl
  time := fun _ => rfl
  foreign := fun _ _ _ _ h hw => ⟨(congrArg Prod.snd h).trans hw.1, hw.2⟩
  apart := fun _ _ h => h.error threshold
  takes := by
    intro c header v item v' w hroom hw h
    show (errorDetector threshold).Takes ((cipOf item).any (isError item.data)) c.ts w v v'
    have hlogged := processItem_logged h
    rcases processItem_cases h with ⟨hnone, rfl⟩ | ⟨cip, hcip, herror, -, hcount⟩ |
      ⟨cip, hcip, hfine, rfl⟩
    · have hfine : (cipOf item).any (isError item.data) = false := by
        cases hcip : cipOf item with
        | none => rfl
        | some cip =>
          rw [hcip, Option.all_some, Bool.and_eq_true, Bool.not_eq_true'] at hnone
          exact hnone.1
      rw [hfine]
      exact (Detector.Idles.refl v').takes hw
    · rw [hcip, Option.any_some, herror]
      exact countError_takes (hasRoom_of_logged hlogged hroom) hw hcount
    · rw [hcip, Option.any_some, hfine]
      exact (processRequest_idles c header cip v.1 v.2 _ threshold).takes hw

/-! ## Calls -/

section Calls

variable {c : Delivery} {v v' : EnipAnalyzer × EnipFlowState} {w : Option Window}

theorem processItem_thresholds {header : EnipHeader} {item : CpfItem}
    (h : processItem c header v item = .ok v') : thresholds v'.1 = thresholds v.1 := by
  rcases processItem_cases h with ⟨-, rfl⟩ | ⟨-, -, -, -, hcount⟩ | ⟨cip, -, -, rfl⟩
  · rfl
  · obtain ⟨r, -, hcount⟩ := bind_eq_ok.mp hcount
    obtain ⟨total, -, hcount⟩ := bind_eq_ok.mp hcount
    cases hcount
    unfold detectErrorBurst
    split
    · rfl
    · rfl
  · have hbefore := beforeWrites_apart c header cip v.1 v.2 (classifyCipService cip.service)
    rw [processRequest_eq, thresholds_of_apart (detectConnection_apart ..),
      ← thresholds_of_apart hbefore]
    unfold detectWriteBurst
    split
    · simp only
      split
      · rfl
      · rfl
    · rfl

theorem counted_apart (s : EnipAnalyzer) (flow : EnipFlowState) (pdus : Nat) :
    Apart (s, flow) (s, { flow with pduCount := pdus }) :=
  .of_same ⟨rfl, rfl, rfl, rfl⟩ ⟨rfl, rfl, rfl, rfl, rfl⟩ rfl

/-- A frame either has no items, or it is the run of its items. -/
theorem processPdu_cases {pdu : List UInt8} (h : processPdu c v pdu = .ok v') :
    (pduItems c v pdu v' = [] ∧ Apart v v') ∨ ∃ header items v₁, Apart v v₁ ∧
      run (processItem c header) v₁ items = .ok v' ∧
      pduItems c v pdu v' = notes (processItem c header) (itemNote c) v₁ items := by
  have hcounted := counted_apart v.1 v.2 (bump64 v.2.pduCount)
  unfold processPdu at h
  unfold pduItems
  by_cases hnon : v.2.isNonEnip = true
  · rw [if_pos hnon] at h ⊢
    cases h
    exact .inl ⟨rfl, .refl _⟩
  rw [if_neg hnon] at h ⊢
  cases hparse : parseEnipHeader pdu with
  | none =>
    rw [hparse] at h
    cases h
  | some header =>
    simp only [hparse] at h ⊢
    split
    · rename_i hcommand
      simp only [hcommand] at h
      by_cases hshort : pdu.length ≤ cpfOffset
      · rw [if_pos hshort] at h ⊢
        cases h
        exact .inl ⟨rfl, hcounted⟩
      · rw [if_neg hshort] at h ⊢
        exact .inr ⟨header, _, _, hcounted, h, rfl⟩
    · rename_i hcommand
      simp only [hcommand] at h
      by_cases hshort : pdu.length ≤ cpfOffset
      · rw [if_pos hshort] at h ⊢
        cases h
        exact .inl ⟨rfl, hcounted⟩
      · rw [if_neg hshort] at h ⊢
        exact .inr ⟨header, _, _, hcounted, h, rfl⟩
    · rename_i hrr hunit
      split at h
      · cases h
        exact .inl ⟨rfl, hcounted.trans (detectListIdentity_apart ..)⟩
      · exact absurd ‹_› hrr
      · exact absurd ‹_› hunit
      · cases h
        exact .inl ⟨rfl, hcounted⟩

theorem processPdu_logged {pdu : List UInt8} (h : processPdu c v pdu = .ok v') :
    Logged v.1.findings v'.1.findings := by
  rcases processPdu_cases h with ⟨-, hapart⟩ | ⟨header, items, v₁, hapart, hrun, -⟩
  · exact (hapart.write 0).logged
  · have hfirst : Logged v.1.findings v₁.1.findings := (hapart.write 0).logged
    refine run_keeps (I := fun u => Logged v.1.findings u.1.findings) ?_ hfirst hrun
    exact fun u item u' hu hitem => hu.trans (processItem_logged hitem)

theorem processPdu_thresholds {pdu : List UInt8} (h : processPdu c v pdu = .ok v') :
    thresholds v'.1 = thresholds v.1 := by
  rcases processPdu_cases h with ⟨-, hapart⟩ | ⟨header, items, v₁, hapart, hrun, -⟩
  · exact thresholds_of_apart hapart
  · refine run_keeps (I := fun u => thresholds u.1 = thresholds v.1) ?_
      (thresholds_of_apart hapart) hrun
    exact fun u item u' hu hitem => (processItem_thresholds hitem).trans hu

theorem takeToken_apart {token : Token} (h : takeToken c v token = .ok v') : Apart v v' := by
  have hcounts : ∀ counts, Apart v (v.1, { v.2 with commandCounts := counts }) :=
    fun counts => .of_same ⟨rfl, rfl, rfl, rfl⟩ ⟨rfl, rfl, rfl, rfl, rfl⟩ rfl
  cases token with
  | frame command bytes =>
    obtain ⟨flow, hcount, h⟩ := bind_eq_ok.mp h
    obtain ⟨r, -, hcount⟩ := bind_eq_ok.mp hcount
    cases hcount
    cases h
    exact hcounts r.1
  | reject command =>
    obtain ⟨flow, hcount, h⟩ := bind_eq_ok.mp h
    obtain ⟨r, -, hcount⟩ := bind_eq_ok.mp hcount
    cases hcount
    cases h
    refine ((hcounts r.1).trans ?_).trans (checkT0814_apart c v.1 _)
    exact .of_same ⟨rfl, rfl, rfl, rfl⟩ ⟨rfl, rfl, rfl, rfl, rfl⟩ rfl

theorem walk_apart {turns : Nat} {s : EnipAnalyzer} {flow : EnipFlowState} {buf : List UInt8}
    {walked : Walked} (h : walk c turns s flow buf = .ok walked) :
    Apart (s, flow) (walked.analyzer, walked.flow) := by
  rw [walk_eq] at h
  obtain ⟨v, hrun, h⟩ := bind_eq_ok.mp h
  cases h
  refine run_keeps (I := fun u => Apart (s, flow) u) ?_ (.refl _) hrun
  exact fun u token u' hu htoken => hu.trans (takeToken_apart htoken)

theorem setCarry_apart (s : EnipAnalyzer) (flow : EnipFlowState) (dir : Direction)
    (bytes : List UInt8) : Apart (s, flow) (s, flow.setCarry dir bytes) := by
  cases dir with
  | clientToServer => exact .of_same ⟨rfl, rfl, rfl, rfl⟩ ⟨rfl, rfl, rfl, rfl, rfl⟩ rfl
  | serverToClient => exact .of_same ⟨rfl, rfl, rfl, rfl⟩ ⟨rfl, rfl, rfl, rfl, rfl⟩ rfl

theorem maybeExpire_apart (s : EnipAnalyzer) (flow : EnipFlowState) (ts : UInt32) :
    Apart (s, flow) (s, maybeExpireMalformedWindow flow ts) := by
  unfold maybeExpireMalformedWindow
  split
  · exact .of_same ⟨rfl, rfl, rfl, rfl⟩ ⟨rfl, rfl, rfl, rfl, rfl⟩ rfl
  · exact .refl _

theorem stash_apart (c : Delivery) (walked : Walked) :
    Apart (walked.analyzer, walked.flow) (stash c walked) := by
  have hcarry := setCarry_apart walked.analyzer walked.flow c.direction walked.rest
  unfold stash
  simp only
  generalize walked.flow.setCarry c.direction walked.rest = flow at hcarry ⊢
  split
  · have hcheck := checkT0814_apart c walked.analyzer (countMalformed flow)
    have hcount : Apart (walked.analyzer, flow) (walked.analyzer, countMalformed flow) :=
      .of_same ⟨rfl, rfl, rfl, rfl⟩ ⟨rfl, rfl, rfl, rfl, rfl⟩ rfl
    refine ((hcarry.trans hcount).trans hcheck).trans (.trans ?_ (setCarry_apart _ _ _ []))
    exact .of_same ⟨rfl, rfl, rfl, rfl⟩ ⟨rfl, rfl, rfl, rfl, rfl⟩ rfl
  · exact hcarry

/-- A call is the run of its frames. -/
theorem onData_eq_ok {s s' : EnipAnalyzer} {call : Call} (h : onCall s call = .ok s')
    (hopen : (flowOf s call.delivery.flowKey).isNonEnip = false) :
    ∃ v pdus v', Apart (s, flowOf s call.delivery.flowKey) v ∧
      run (processPdu call.delivery) v pdus = .ok v' ∧
      s' = { v'.1 with flows := v'.1.flows.insert call.delivery.flowKey v'.2 } ∧
      callItems call.delivery.flowKey s call s' =
        notes (processPdu call.delivery) (pduItems call.delivery) v pdus := by
  have hopen' : ((s.flows.get? call.delivery.flowKey).getD {}).isNonEnip = false := hopen
  unfold onCall onData at h
  unfold callItems
  simp only [hopen', Bool.false_eq_true, if_false] at h
  simp only [hopen, and_self, if_true]
  obtain ⟨walked, hwalk, h⟩ := bind_eq_ok.mp h
  obtain ⟨v', hrun, h⟩ := bind_eq_ok.mp h
  cases h
  rw [show (s.flows.get? call.delivery.flowKey).getD {} = flowOf s call.delivery.flowKey from rfl]
    at hwalk
  rw [hwalk]
  refine ⟨stash call.delivery walked, walked.queue, v', ?_, hrun, rfl, rfl⟩
  have hstart : ∀ bytes flows flow, Apart (s, flow)
      ({ s with bytesReceived := bytes, flows := flows }, flow) :=
    fun bytes flows flow => .of_same ⟨rfl, rfl, rfl, rfl⟩ ⟨rfl, rfl, rfl, rfl, rfl⟩ rfl
  exact ((((hstart _ _ _).trans (maybeExpire_apart _ _ _)).trans (setCarry_apart _ _ _ _)).trans
    (walk_apart hwalk)).trans (stash_apart _ _)

/-- The other flows, the thresholds and the findings. -/
structure Beside (flowKey : FlowKey) (s s' : EnipAnalyzer) : Prop where
  others : ∀ other, other ≠ flowKey → flowOf s' other = flowOf s other
  thresholds : thresholds s' = thresholds s
  logged : Logged s.findings s'.findings

theorem onCall_closed {s s' : EnipAnalyzer} {call : Call} (h : onCall s call = .ok s')
    (hclosed : (flowOf s call.delivery.flowKey).isNonEnip = true) :
    Beside call.delivery.flowKey s s' ∧
      flowOf s' call.delivery.flowKey = flowOf s call.delivery.flowKey := by
  have hclosed' : ((s.flows.get? call.delivery.flowKey).getD {}).isNonEnip = true := hclosed
  unfold onCall onData at h
  simp only [hclosed', if_true] at h
  cases h
  obtain ⟨hself, hothers⟩ := @flowOf_insert s { s with
    bytesReceived := min (s.bytesReceived + call.data.length) (2 ^ 64 - 1)
    flows := (s.flows.erase call.delivery.flowKey).insert call.delivery.flowKey
      (flowOf s call.delivery.flowKey) } _ _ rfl
  exact ⟨⟨hothers, rfl, .refl _⟩, hself⟩

theorem onCall_beside {s s' : EnipAnalyzer} {call : Call} (h : onCall s call = .ok s') :
    Beside call.delivery.flowKey s s' := by
  cases hopen : (flowOf s call.delivery.flowKey).isNonEnip with
  | true => exact (onCall_closed h hopen).1
  | false =>
    obtain ⟨flow', hflows, hlogged, -⟩ := (onData_called s call.delivery call.data hopen).2 s' h
    obtain ⟨v, pdus, v', hapart, hrun, rfl, -⟩ := onData_eq_ok h hopen
    refine ⟨(flowOf_insert hflows).2, ?_, hlogged⟩
    refine run_keeps (I := fun u => Enip.thresholds u.1 = Enip.thresholds s) ?_
      (thresholds_of_apart hapart) hrun
    exact fun u pdu u' hu hpdu => (processPdu_thresholds hpdu).trans hu

end Calls

/-! ## Runs -/

namespace Observes

variable {D : Detector (Delivery × CpfItem) (EnipAnalyzer × EnipFlowState)} {c : Delivery}
  {w : Option Window} {flowKey : FlowKey}

theorem pdu_trail (hD : Observes D) {v v' : EnipAnalyzer × EnipFlowState} {pdu : List UInt8}
    (hroom : hasRoom v'.1.findings = true) (hw : D.Holds v w)
    (h : processPdu c v pdu = .ok v') :
    ∃ w', Trail D.watch.Passes w (pduItems c v pdu v') w' ∧ D.Holds v' w' := by
  rcases processPdu_cases h with ⟨hnone, hapart⟩ | ⟨header, items, v₁, hapart, hrun, hitems⟩
  · rw [hnone]
    exact ⟨w, .nil w, (hD.apart _ _ hapart).window w hw⟩
  · rw [hitems]
    refine notes_trail D.Holds (fun u => hasRoom u.1.findings = true) ?_ ?_
      ((hD.apart _ _ hapart).window w hw) hrun hroom
    · exact fun u item u' hitem hroom' => hasRoom_of_logged (processItem_logged hitem) hroom'
    · intro u item u' w hroom' hw hitem
      have htakes := hD.takes c header u item u' w hroom' hw hitem
      rw [← hD.time (c, item)] at htakes
      rw [← hD.findings] at hroom'
      obtain ⟨w', hpasses, hw'⟩ := htakes.passes hw hroom'
      exact ⟨w', .one hpasses, hw'⟩

theorem call_trail (hD : Observes D) {s s' : EnipAnalyzer} {call : Call}
    (hroom : hasRoom s'.findings = true) (hw : D.Holds (s, flowOf s flowKey) w)
    (h : onCall s call = .ok s') :
    ∃ w', Trail D.watch.Passes w (callItems flowKey s call s') w' ∧
      D.Holds (s', flowOf s' flowKey) w' := by
  have hbeside := onCall_beside h
  have hskip : callItems flowKey s call s' = [] → flowOf s' flowKey = flowOf s flowKey →
      ∃ w', Trail D.watch.Passes w (callItems flowKey s call s') w' ∧
        D.Holds (s', flowOf s' flowKey) w' := by
    intro hnone hflow
    rw [hnone, hflow]
    exact ⟨w, .nil w, hD.foreign s s' _ w hbeside.thresholds hw⟩
  by_cases hkey : call.delivery.flowKey = flowKey
  · subst hkey
    cases hopen : (flowOf s call.delivery.flowKey).isNonEnip with
    | true =>
      refine hskip ?_ (onCall_closed h hopen).2
      unfold callItems
      simp only [hopen, Bool.true_eq_false, and_false, if_false]
    | false =>
      obtain ⟨v, pdus, v', hapart, hrun, rfl, hitems⟩ := onData_eq_ok h hopen
      rw [hitems]
      obtain ⟨w', htrail, hw'⟩ := notes_trail D.Holds (fun u => hasRoom u.1.findings = true)
        (fun u pdu u' hpdu hroom' => hasRoom_of_logged (processPdu_logged hpdu) hroom')
        (fun u pdu u' w hroom' hw hpdu => hD.pdu_trail hroom' hw hpdu)
        ((hD.apart _ _ hapart).window w hw) hrun hroom
      refine ⟨w', htrail, ?_⟩
      have hself : flowOf { v'.1 with
          flows := v'.1.flows.insert call.delivery.flowKey v'.2 } call.delivery.flowKey = v'.2 := by
        rw [flowOf, SortedMap.get?_insert_self, Option.getD_some]
      rw [hself]
      exact hD.foreign v'.1 _ _ w' rfl hw'
  · refine hskip ?_ (hbeside.others flowKey (Ne.symm hkey))
    unfold callItems
    simp only [hkey, false_and, if_false]

end Observes

theorem pduItems_input {c : Delivery} {v v' : EnipAnalyzer × EnipFlowState} {pdu : List UInt8} :
    ∀ m ∈ pduItems c v pdu v', m.input.1 = c := by
  have hnotes : ∀ header v items, ∀ m ∈ notes (processItem c header) (itemNote c) v items,
      m.input.1 = c := by
    intro header v items m hm
    obtain ⟨item, -, t, t', -, hm⟩ := exists_of_mem_notes hm
    rw [List.mem_singleton.mp hm]
  intro m hm
  unfold pduItems at hm
  split at hm
  · cases hm
  · split at hm
    · cases hm
    · simp only at hm
      split at hm
      · split at hm
        · cases hm
        · exact hnotes _ _ _ m hm
      · split at hm
        · cases hm
        · exact hnotes _ _ _ m hm
      · cases hm

theorem callItems_input {flowKey : FlowKey} {s s' : EnipAnalyzer} {call : Call} :
    ∀ m ∈ callItems flowKey s call s', m.input.1 = call.delivery ∧
      call.delivery.flowKey = flowKey := by
  intro m hm
  unfold callItems at hm
  simp only at hm
  split at hm
  · rename_i hopen
    split at hm
    · obtain ⟨pdu, -, v, v', -, hm⟩ := exists_of_mem_notes hm
      exact ⟨pduItems_input m hm, hopen.1⟩
    · cases hm
  · cases hm

theorem Observes.ordered {D : Detector (Delivery × CpfItem) (EnipAnalyzer × EnipFlowState)}
    (hD : Observes D) {flowKey : FlowKey} {calls : List Call} (s : EnipAnalyzer)
    (horder : calls.Pairwise fun call call' => call.delivery.flowKey = flowKey →
      call'.delivery.flowKey = flowKey → call.delivery.ts ≤ call'.delivery.ts) :
    D.watch.Ordered (runItems flowKey s calls) := by
  have htime : ∀ m : Item, D.watch.time m = m.input.1.ts.toNat :=
    fun m => congrArg UInt32.toNat (hD.time m.input)
  refine notes_pairwise (fun s call s' => ?_) (horder.imp fun hle s s' t t' m hm m' hm' => ?_)
  · refine List.pairwise_of_forall_mem_list fun m hm m' hm' => ?_
    rw [htime, htime, (callItems_input m hm).1, (callItems_input m' hm').1]
  · obtain ⟨hcall, hkey⟩ := callItems_input m hm
    obtain ⟨hcall', hkey'⟩ := callItems_input m' hm'
    rw [htime, htime, hcall, hcall']
    exact UInt32.le_iff_toNat_le.mp (hle hkey hkey')

/-- Below the cap the detector watches every flow of a run. -/
theorem Observes.run_watches {D : Detector (Delivery × CpfItem) (EnipAnalyzer × EnipFlowState)}
    (hD : Observes D) {s s' : EnipAnalyzer} {calls : List Call} (flowKey : FlowKey)
    (hneeded : 0 < D.needed) (hnew : D.Holds (s, flowOf s flowKey) none)
    (horder : calls.Pairwise fun call call' => call.delivery.flowKey = flowKey →
      call'.delivery.flowKey = flowKey → call.delivery.ts ≤ call'.delivery.ts)
    (hrun : run onCall s calls = .ok s') (hroom : hasRoom s'.findings = true) :
    D.watch.Watches (runItems flowKey s calls) :=
  Detector.watches_notes (fun s w => D.Holds (s, flowOf s flowKey) w)
    (fun s => hasRoom s.findings = true)
    (fun _ _ _ h hroom => hasRoom_of_logged (onCall_beside h).logged hroom)
    (fun _ _ _ _ hroom hw h => hD.call_trail hroom hw h) hnew hrun hroom hneeded
    (hD.ordered s horder)

/-- The bursts of writes and of errors of one flow, among the calls of all of them. -/
theorem run_bursts (flowKey : FlowKey) (writeBurst errorBurst : UInt32) (calls : List Call)
    (horder : calls.Pairwise fun call call' => call.delivery.flowKey = flowKey →
      call'.delivery.flowKey = flowKey → call.delivery.ts ≤ call'.delivery.ts) :
    ReturnsIf (totalBytes calls < 2 ^ 64) (run onCall (.new writeBurst errorBurst) calls)
      fun s => hasRoom s.findings = true →
        (writeDetector writeBurst).watch.Watches
          (runItems flowKey (.new writeBurst errorBurst) calls) ∧
        (errorDetector errorBurst).watch.Watches
          (runItems flowKey (.new writeBurst errorBurst) calls) := by
  have hreturns := (run_keeps_walks calls (walks_new writeBurst errorBurst)).1
  rw [Nat.zero_add] at hreturns
  refine ⟨hreturns, fun s hrun hroom => ⟨?_, ?_⟩⟩
  · exact (writeDetector_observes writeBurst).run_watches flowKey (Nat.succ_pos _)
      ⟨rfl, rfl, rfl⟩ horder hrun hroom
  · exact (errorDetector_observes errorBurst).run_watches flowKey (Nat.succ_pos _)
      ⟨rfl, rfl, rfl, rfl⟩ horder hrun hroom

end Wirerust.Enip
