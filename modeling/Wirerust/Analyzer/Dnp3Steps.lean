import Wirerust.Analyzer.Dnp3

/-!
What the parts of the DNP3 analyzer's `on_data` do to a flow.

`Aside` collects the fields that the detectors of commands have nothing to do with, and `Fits n`
says that no counter is above the number `n` of frames. `processFrame_step` and
`scanBlockTimeouts_eq` describe a frame and the scan for timeouts, `processFrame_returns` and
`scanBlockTimeouts_returns` say that no counter runs over.
-/

namespace Wirerust.Dnp3

open Lib Wirerust.Flow Wirerust.Analyzer

/-- The fields of the framing and of the malformed frames. -/
structure Aside (flow flow' : Dnp3FlowState) : Prop where
  carryC2s : flow'.carryC2s = flow.carryC2s
  carryS2c : flow'.carryS2c = flow.carryS2c
  isNonDnp3 : flow'.isNonDnp3 = flow.isNonDnp3
  parseErrors : flow'.parseErrors = flow.parseErrors
  windowStart : flow'.correlationWindowStartTs = flow.correlationWindowStartTs
  windowSeeded : flow'.correlationWindowSeeded = flow.correlationWindowSeeded
  malformed : flow'.malformedInWindow = flow.malformedInWindow
  malformedEmitted : flow'.malformedAnomalyEmitted = flow.malformedAnomalyEmitted

theorem Aside.refl (flow : Dnp3FlowState) : Aside flow flow :=
  ⟨rfl, rfl, rfl, rfl, rfl, rfl, rfl, rfl⟩

theorem Aside.trans {f₁ f₂ f₃ : Dnp3FlowState} (h : Aside f₁ f₂) (h' : Aside f₂ f₃) :
    Aside f₁ f₃ where
  carryC2s := h'.carryC2s.trans h.carryC2s
  carryS2c := h'.carryS2c.trans h.carryS2c
  isNonDnp3 := h'.isNonDnp3.trans h.isNonDnp3
  parseErrors := h'.parseErrors.trans h.parseErrors
  windowStart := h'.windowStart.trans h.windowStart
  windowSeeded := h'.windowSeeded.trans h.windowSeeded
  malformed := h'.malformed.trans h.malformed
  malformedEmitted := h'.malformedEmitted.trans h.malformedEmitted

theorem Aside.carry {flow flow' : Dnp3FlowState} (h : Aside flow flow') (dir : Direction) :
    flow'.carry dir = flow.carry dir := by
  cases dir with
  | clientToServer => exact h.carryC2s
  | serverToClient => exact h.carryS2c

/-- The fields that count frames, commands and masters. -/
structure SameCounts (flow flow' : Dnp3FlowState) : Prop where
  frameCount : flow'.frameCount = flow.frameCount
  fcCounts : flow'.fcCounts = flow.fcCounts
  masters : flow'.masterAddrsSeen = flow.masterAddrsSeen

theorem SameCounts.trans {f₁ f₂ f₃ : Dnp3FlowState} (h : SameCounts f₁ f₂)
    (h' : SameCounts f₂ f₃) : SameCounts f₁ f₃ :=
  ⟨h'.frameCount.trans h.frameCount, h'.fcCounts.trans h.fcCounts, h'.masters.trans h.masters⟩

/-- The requests and restarts that the correlation looks at. -/
def events (flow : Dnp3FlowState) : Nat :=
  flow.restartEventCount + flow.blockEventCount + flow.pendingRequests.size

/-- A detector's step: at most `new` events more, and at most the pending requests allowed. -/
structure Detects (new : Nat) (s s' : Dnp3Analyzer) (flow flow' : Dnp3FlowState) : Prop where
  aside : Aside flow flow'
  counts : SameCounts flow flow'
  flows : s'.flows = s.flows
  fnCodeCounts : s'.fnCodeCounts = s.fnCodeCounts
  events : events flow' ≤ events flow + new
  pending : flow.pendingRequests.size ≤ maxPendingRequests →
    flow'.pendingRequests.size ≤ maxPendingRequests

theorem Detects.trans {n m : Nat} {s₁ s₂ s₃ : Dnp3Analyzer} {f₁ f₂ f₃ : Dnp3FlowState}
    (h : Detects n s₁ s₂ f₁ f₂) (h' : Detects m s₂ s₃ f₂ f₃) : Detects (n + m) s₁ s₃ f₁ f₃ where
  aside := h.aside.trans h'.aside
  counts := h.counts.trans h'.counts
  flows := h'.flows.trans h.flows
  fnCodeCounts := h'.fnCodeCounts.trans h.fnCodeCounts
  events := by
    have h₁ := h.events
    have h₂ := h'.events
    omega
  pending := fun hle => h'.pending (h.pending hle)

/-- A step that leaves the events alone. -/
theorem Detects.of_same {s s' : Dnp3Analyzer} {flow flow' : Dnp3FlowState}
    (haside : Aside flow flow') (hcounts : SameCounts flow flow') (hflows : s'.flows = s.flows)
    (hfn : s'.fnCodeCounts = s.fnCodeCounts)
    (hrestart : flow'.restartEventCount = flow.restartEventCount)
    (hblock : flow'.blockEventCount = flow.blockEventCount)
    (hpending : flow'.pendingRequests = flow.pendingRequests) : Detects 0 s s' flow flow' where
  aside := haside
  counts := hcounts
  flows := hflows
  fnCodeCounts := hfn
  events := by rw [Dnp3.events, Dnp3.events, hrestart, hblock, hpending]; exact Nat.le_refl _
  pending := by rw [hpending]; exact id

theorem Detects.refl (s : Dnp3Analyzer) (flow : Dnp3FlowState) : Detects 0 s s flow flow :=
  .of_same (.refl flow) ⟨rfl, rfl, rfl⟩ rfl rfl rfl rfl rfl

theorem Detects.mono {n m : Nat} {s s' : Dnp3Analyzer} {flow flow' : Dnp3FlowState}
    (h : Detects n s s' flow flow') (hle : n ≤ m) : Detects m s s' flow flow' :=
  { h with events := Nat.le_trans h.events (Nat.add_le_add_left hle _) }

/-! ## Detectors -/

theorem detectControlClassBurstSplit_detects (c : Delivery) (r : Request) (s : Dnp3Analyzer)
    (flow : Dnp3FlowState) :
    Detects 0 s (detectControlClassBurstSplit c r s flow).1 flow
      (detectControlClassBurstSplit c r s flow).2 := by
  unfold detectControlClassBurstSplit
  split
  · exact .of_same ⟨rfl, rfl, rfl, rfl, rfl, rfl, rfl, rfl⟩ ⟨rfl, rfl, rfl⟩ rfl rfl rfl rfl rfl
  · simp only
    split <;> split <;>
      exact .of_same ⟨rfl, rfl, rfl, rfl, rfl, rfl, rfl, rfl⟩ ⟨rfl, rfl, rfl⟩ rfl rfl rfl rfl rfl

theorem detectUnexpectedSourceSplit_detects (c : Delivery) (r : Request) (s : Dnp3Analyzer)
    (flow : Dnp3FlowState) :
    Detects 0 s (detectUnexpectedSourceSplit c r s flow).1 flow
      (detectUnexpectedSourceSplit c r s flow).2 := by
  unfold detectUnexpectedSourceSplit
  split <;>
    exact .of_same ⟨rfl, rfl, rfl, rfl, rfl, rfl, rfl, rfl⟩ ⟨rfl, rfl, rfl⟩ rfl rfl rfl rfl rfl

theorem detectUnsolicitedAnomaly_detects (c : Delivery) (r : Request) (appCtrl : UInt8)
    (s : Dnp3Analyzer) (flow : Dnp3FlowState) :
    Detects 0 s (detectUnsolicitedAnomaly c r appCtrl s flow).1 flow
      (detectUnsolicitedAnomaly c r appCtrl s flow).2 := by
  unfold detectUnsolicitedAnomaly
  split
  · exact .of_same ⟨rfl, rfl, rfl, rfl, rfl, rfl, rfl, rfl⟩ ⟨rfl, rfl, rfl⟩ rfl rfl rfl rfl rfl
  · split <;>
      exact .of_same ⟨rfl, rfl, rfl, rfl, rfl, rfl, rfl, rfl⟩ ⟨rfl, rfl, rfl⟩ rfl rfl rfl rfl rfl

theorem detectUnsolicitedControl_detects (c : Delivery) (r : Request) (s : Dnp3Analyzer)
    (flow : Dnp3FlowState) :
    Detects 0 s (detectUnsolicitedControl c r s flow).1 flow
      (detectUnsolicitedControl c r s flow).2 := by
  unfold detectUnsolicitedControl
  split
  · exact .of_same ⟨rfl, rfl, rfl, rfl, rfl, rfl, rfl, rfl⟩ ⟨rfl, rfl, rfl⟩ rfl rfl rfl rfl rfl
  · split <;>
      exact .of_same ⟨rfl, rfl, rfl, rfl, rfl, rfl, rfl, rfl⟩ ⟨rfl, rfl, rfl⟩ rfl rfl rfl rfl rfl

theorem maybeEmitT0827_detects {c : Delivery} {dest : UInt16} {s s' : Dnp3Analyzer}
    {flow flow' : Dnp3FlowState} (h : maybeEmitT0827 c dest s flow = .ok (s', flow')) :
    Detects 0 s s' flow flow' := by
  obtain ⟨combined, -, h⟩ := bind_eq_ok.mp h
  split at h
  · cases h
    exact .of_same ⟨rfl, rfl, rfl, rfl, rfl, rfl, rfl, rfl⟩ ⟨rfl, rfl, rfl⟩ rfl rfl rfl rfl rfl
  · cases h
    exact .refl s flow

theorem maybeEmitT0827_returns {flow : Dnp3FlowState} (hlt : events flow < 2 ^ 64)
    (c : Delivery) (dest : UInt16) (s : Dnp3Analyzer) :
    ∃ w, maybeEmitT0827 c dest s flow = .ok w := by
  have hadd : checkedAdd 64 flow.restartEventCount flow.blockEventCount =
      .ok (flow.restartEventCount + flow.blockEventCount) := by
    refine if_pos ?_
    unfold events at hlt
    omega
  unfold maybeEmitT0827
  rw [hadd, ok_bind]
  split
  · exact ⟨_, rfl⟩
  · exact ⟨_, rfl⟩

/-! ## Pending requests -/

theorem oldest_mem {l : List (ReqKey × UInt32)} {e : ReqKey × UInt32} (h : oldest l = some e) :
    e ∈ l := by
  induction l with
  | nil => cases h
  | cons a l ih =>
    rw [oldest] at h
    cases hl : oldest l with
    | none =>
      simp only [hl, Option.some.injEq] at h
      rw [h]
      exact List.mem_cons_self
    | some m =>
      simp only [hl] at h
      split at h
      · cases h
        exact List.mem_cons_of_mem _ (ih hl)
      · cases h
        exact List.mem_cons_self

theorem oldest_eq_none {l : List (ReqKey × UInt32)} (h : oldest l = none) : l = [] := by
  cases l with
  | nil => rfl
  | cons a l =>
    rw [oldest] at h
    cases hl : oldest l with
    | none => simp [hl] at h
    | some m =>
      simp only [hl] at h
      split at h
      · cases h
      · cases h

theorem size_insert_le (m : SortedMap ReqKey UInt32) (key : ReqKey) (ts : UInt32) :
    (m.insert key ts).size ≤ m.size + 1 := by
  cases hget : m.get? key with
  | none => exact Nat.le_of_eq (m.size_insert_of_none ts hget)
  | some old => exact Nat.le_trans (Nat.le_of_eq (m.size_insert_of_some ts hget)) (Nat.le_succ _)

/-- An eviction makes room for exactly the new request. -/
theorem size_evict {m : SortedMap ReqKey UInt32} {entries : List (ReqKey × UInt32)}
    (hperm : entries.Perm m.entries) (hfull : maxPendingRequests ≤ m.size) {key : ReqKey}
    (hnone : m.get? key = none) (ts : UInt32) :
    ((evictOldest entries m).insert key ts).size = m.size := by
  unfold evictOldest
  cases hold : oldest entries with
  | none =>
    have hempty : entries.length = 0 := by rw [oldest_eq_none hold]; rfl
    rw [hperm.length_eq] at hempty
    have hmax : maxPendingRequests = 256 := rfl
    have hsize : m.size = m.entries.length := rfl
    omega
  | some e =>
    have hmem : (e.1, e.2) ∈ m.entries := hperm.mem_iff.mp (oldest_mem hold)
    have hget := (m.get?_eq_some_iff e.1 e.2).mpr hmem
    have hne : key ≠ e.1 := by
      intro heq
      rw [heq, hget] at hnone
      cases hnone
    have hnone' : (m.erase e.1).get? key = none := by rw [m.get?_erase_of_ne hne, hnone]
    have herase := m.size_erase_of_some hget
    have hinsert := (m.erase e.1).size_insert_of_none ts hnone'
    exact hinsert.trans herase.symm

theorem insertPendingRequest_detects (s : Dnp3Analyzer) {flow : Dnp3FlowState}
    {entries : List (ReqKey × UInt32)} (hperm : entries.Perm flow.pendingRequests.entries)
    (key : ReqKey) (ts : UInt32) :
    Detects 1 s s flow (insertPendingRequest entries flow key ts).1 := by
  unfold insertPendingRequest
  split
  · rename_i hfull
    simp only [Bool.and_eq_true, decide_eq_true_eq, Option.isNone_iff_eq_none] at hfull
    have hsize := size_evict hperm hfull.1 hfull.2 ts
    refine ⟨⟨rfl, rfl, rfl, rfl, rfl, rfl, rfl, rfl⟩, ⟨rfl, rfl, rfl⟩, rfl, rfl, ?_, ?_⟩
    · simp only [events]
      omega
    · simp only
      omega
  · rename_i hroom
    have hsize := size_insert_le flow.pendingRequests key ts
    refine ⟨⟨rfl, rfl, rfl, rfl, rfl, rfl, rfl, rfl⟩, ⟨rfl, rfl, rfl⟩, rfl, rfl, ?_, ?_⟩
    · simp only [events]
      omega
    · intro hle
      simp only [Bool.and_eq_true, decide_eq_true_eq, Option.isNone_iff_eq_none] at hroom
      cases hget : flow.pendingRequests.get? key with
      | none =>
        have hlt : ¬ maxPendingRequests ≤ flow.pendingRequests.size := fun h => hroom ⟨h, hget⟩
        simp only
        omega
      | some old => exact (flow.pendingRequests.size_insert_of_some ts hget).trans_le hle

theorem erase_detects (s : Dnp3Analyzer) (flow : Dnp3FlowState) (key : ReqKey) :
    Detects 0 s s flow { flow with pendingRequests := flow.pendingRequests.erase key } := by
  have hle := flow.pendingRequests.size_erase_le key
  refine ⟨⟨rfl, rfl, rfl, rfl, rfl, rfl, rfl, rfl⟩, ⟨rfl, rfl, rfl⟩, rfl, rfl, ?_, ?_⟩
  · simp only [events]
    omega
  · exact fun h => hle.trans h

/-- A request that times out is still one event. -/
theorem timeOutRequest_detects (s : Dnp3Analyzer) {acc : Option UInt16 × Dnp3FlowState}
    {key : ReqKey} {since : UInt32} (hget : acc.2.pendingRequests.get? key = some since) :
    Detects 0 s s acc.2 (timeOutRequest acc key).2 := by
  have hsize := acc.2.pendingRequests.size_erase_of_some hget
  have hbump : bump64 acc.2.blockEventCount ≤ acc.2.blockEventCount + 1 := Nat.min_le_left _ _
  refine ⟨⟨rfl, rfl, rfl, rfl, rfl, rfl, rfl, rfl⟩, ⟨rfl, rfl, rfl⟩, rfl, rfl, ?_, ?_⟩
  · simp only [events, timeOutRequest]
    omega
  · intro hle
    exact (acc.2.pendingRequests.size_erase_le key).trans hle

theorem foldl_timeOutRequest_detects (s : Dnp3Analyzer) (keys : List ReqKey)
    (acc : Option UInt16 × Dnp3FlowState) (hnodup : keys.Nodup)
    (hget : ∀ key ∈ keys, (acc.2.pendingRequests.get? key).isSome = true) :
    Detects 0 s s acc.2 (keys.foldl timeOutRequest acc).2 := by
  induction keys generalizing acc with
  | nil => exact .refl s acc.2
  | cons key keys ih =>
    obtain ⟨hfresh, hnodup'⟩ := List.nodup_cons.mp hnodup
    obtain ⟨since, hsince⟩ := Option.isSome_iff_exists.mp (hget key List.mem_cons_self)
    refine (timeOutRequest_detects s hsince).trans (ih (timeOutRequest acc key) hnodup' ?_)
    intro other hother
    have hne : other ≠ key := fun heq => hfresh (heq ▸ hother)
    rw [timeOutRequest, SortedMap.get?_erase_of_ne _ hne]
    exact hget other (List.mem_cons_of_mem _ hother)

/-- The keys of some of the entries. -/
theorem keys_filter {m : SortedMap ReqKey UInt32} (p : ReqKey × UInt32 → Bool) :
    ((m.entries.filter p).map Prod.fst).Nodup ∧
      ∀ key ∈ (m.entries.filter p).map Prod.fst, (m.get? key).isSome = true := by
  constructor
  · have hsorted : ((m.entries.filter p).map Prod.fst).Pairwise (· < ·) :=
      List.pairwise_map.mpr (m.sorted.filter p)
    exact hsorted.imp fun h => ne_of_lt h
  · intro key hkey
    obtain ⟨e, he, rfl⟩ := List.mem_map.mp hkey
    rw [(m.get?_eq_some_iff e.1 e.2).mpr (List.mem_filter.mp he).1]
    rfl

/-- The finding of the scan, if it is due. -/
theorem scanBlockTimeouts_eq (c : Delivery) (s : Dnp3Analyzer) (flow : Dnp3FlowState) :
    ∃ minDest s₁ flow₁, Detects 0 s s₁ flow flow₁ ∧ scanBlockTimeouts c s flow =
      match minDest with
      | some dest => maybeEmitT0827 c dest s₁ flow₁
      | none => .ok (s₁, flow₁) := by
  obtain ⟨hnodup, hget⟩ := keys_filter (m := flow.pendingRequests) fun e =>
    decide (saturatingSub c.ts e.2 > blockCmdTimeoutSecs)
  have hfold := foldl_timeOutRequest_detects s _ (none, flow) hnodup hget
  unfold scanBlockTimeouts
  simp only
  generalize List.foldl timeOutRequest (none, flow) _ = acc at hfold ⊢
  by_cases hdue : (acc.2.blockEventCount ≥ blockCmdThreshold &&
      !acc.2.blockFindingEmittedThisWindow) = true
  · rw [if_pos hdue]
    refine ⟨acc.1, _, _, hfold.trans (m := 0) ?_, rfl⟩
    exact .of_same ⟨rfl, rfl, rfl, rfl, rfl, rfl, rfl, rfl⟩ ⟨rfl, rfl, rfl⟩ rfl rfl rfl rfl rfl
  · rw [if_neg hdue]
    exact ⟨acc.1, s, acc.2, hfold, rfl⟩

theorem scanBlockTimeouts_detects {c : Delivery} {s s' : Dnp3Analyzer}
    {flow flow' : Dnp3FlowState} (h : scanBlockTimeouts c s flow = .ok (s', flow')) :
    Detects 0 s s' flow flow' := by
  obtain ⟨minDest, s₁, flow₁, hdetects, heq⟩ := scanBlockTimeouts_eq c s flow
  rw [heq] at h
  cases minDest with
  | some dest => exact hdetects.trans (maybeEmitT0827_detects h)
  | none =>
    cases h
    exact hdetects

theorem scanBlockTimeouts_returns {flow : Dnp3FlowState} (hlt : events flow < 2 ^ 64)
    (c : Delivery) (s : Dnp3Analyzer) : ∃ w, scanBlockTimeouts c s flow = .ok w := by
  obtain ⟨minDest, s₁, flow₁, hdetects, heq⟩ := scanBlockTimeouts_eq c s flow
  have hevents := hdetects.events
  rw [heq]
  cases minDest with
  | some dest => exact maybeEmitT0827_returns (by omega) c dest s₁
  | none => exact ⟨_, rfl⟩

/-! ## Frames -/

theorem registerRequest_detects (ord : PendingOrder) (c : Delivery) (r : Request)
    (appCtrl : UInt8) (s : Dnp3Analyzer) (flow : Dnp3FlowState) :
    Detects 1 s (registerRequest ord c r appCtrl s flow).1 flow
      (registerRequest ord c r appCtrl s flow).2 := by
  by_cases hfc : r.appFc ≠ 0x06
  · have hinsert := insertPendingRequest_detects s
      (ord.perm s.evictions flow.pendingRequests.entries) (toLex (r.dest, appCtrl &&& 0x0f)) c.ts
    have hevict : ∀ (evicted : Bool) (flow : Dnp3FlowState),
        Detects 0 s (countEviction s evicted) flow flow := by
      intro evicted flow
      cases evicted with
      | true => exact .of_same (.refl flow) ⟨rfl, rfl, rfl⟩ rfl rfl rfl rfl rfl
      | false => exact .refl s flow
    rw [registerRequest, if_pos hfc]
    exact hinsert.trans (hevict _ _)
  · rw [registerRequest, if_neg hfc]
    exact (Detects.refl s flow).mono (Nat.le_succ 0)

theorem processControl_detects (ord : PendingOrder) (c : Delivery) (r : Request) (appCtrl : UInt8)
    (unexpected : Bool) (s : Dnp3Analyzer) (flow : Dnp3FlowState) :
    Detects 1 s (processControl ord c r appCtrl unexpected s flow).1 flow
      (processControl ord c r appCtrl unexpected s flow).2 := by
  have hbroad : Detects 0 s (if isBroadcastDestination r.dest then detectBroadcastAnomaly c r s
      else s) flow flow := by
    split
    · exact .of_same (.refl flow) ⟨rfl, rfl, rfl⟩ rfl rfl rfl rfl rfl
    · exact .refl s flow
  have hunexp : ∀ s₁, Detects 0 s₁
      (if unexpected then detectUnexpectedSourceSplit c r s₁ flow else (s₁, flow)).1 flow
      (if unexpected then detectUnexpectedSourceSplit c r s₁ flow else (s₁, flow)).2 := by
    intro s₁
    split
    · exact detectUnexpectedSourceSplit_detects c r s₁ flow
    · exact .refl s₁ flow
  exact ((hbroad.trans (hunexp _)).trans (registerRequest_detects ord c r appCtrl _ _)).trans
    (detectControlClassBurstSplit_detects c r _ _)

theorem detectRestartSplit_detects (c : Delivery) (r : Request) (s : Dnp3Analyzer)
    (flow : Dnp3FlowState) :
    Detects 1 s (detectRestartSplit c r s flow).1 flow (detectRestartSplit c r s flow).2 := by
  have hbump : bump64 flow.restartEventCount ≤ flow.restartEventCount + 1 := Nat.min_le_left _ _
  refine ⟨⟨rfl, rfl, rfl, rfl, rfl, rfl, rfl, rfl⟩, ⟨rfl, rfl, rfl⟩, rfl, rfl, ?_, id⟩
  simp only [events, detectRestartSplit]
  omega

theorem processClass_detects {ord : PendingOrder} {c : Delivery} {r : Request} {appCtrl : UInt8}
    {unexpected : Bool} {s s' : Dnp3Analyzer} {flow flow' : Dnp3FlowState}
    (h : processClass ord c r appCtrl unexpected s flow = .ok (s', flow')) :
    Detects 1 s s' flow flow' := by
  unfold processClass at h
  split at h
  · have hdetects := processControl_detects ord c r appCtrl unexpected s flow
    rw [Except.ok.inj h] at hdetects
    exact hdetects
  · exact (detectRestartSplit_detects c r s flow).trans (maybeEmitT0827_detects h)
  · cases h
    have hdetects : Detects 0 s (detectWriteSplit c r s) flow flow :=
      .of_same (.refl flow) ⟨rfl, rfl, rfl⟩ rfl rfl rfl rfl rfl
    exact hdetects.mono (Nat.le_succ 0)
  · have hdetects := detectUnsolicitedAnomaly_detects c r appCtrl s flow
    simp only at h
    split at h
    · cases h
      exact (hdetects.trans (erase_detects _ _ _)).mono (Nat.le_succ 0)
    · cases h
      exact hdetects.mono (Nat.le_succ 0)
  · cases h
    exact (Detects.refl s flow).mono (Nat.le_succ 0)

theorem processClass_returns {flow : Dnp3FlowState} (hlt : events flow + 1 < 2 ^ 64)
    (ord : PendingOrder) (c : Delivery) (r : Request) (appCtrl : UInt8) (unexpected : Bool)
    (s : Dnp3Analyzer) : ∃ w, processClass ord c r appCtrl unexpected s flow = .ok w := by
  unfold processClass
  split
  · exact ⟨_, rfl⟩
  · have hevents := (detectRestartSplit_detects c r s flow).events
    exact maybeEmitT0827_returns (Nat.lt_of_le_of_lt hevents hlt) c r.dest _
  · exact ⟨_, rfl⟩
  · simp only
    split
    · exact ⟨_, rfl⟩
    · exact ⟨_, rfl⟩
  · exact ⟨_, rfl⟩

/-- One more of the function code, if there is one. -/
def Tallied (appFc : Option UInt8) (counts counts' : SortedMap UInt8 Nat) : Prop :=
  match appFc with
  | some fc => ∃ n, countEntry 64 counts fc = .ok (counts', n)
  | none => counts' = counts

/-- At most 64 masters, each once. -/
def MastersOk (masters : List UInt16) : Prop := masters.length ≤ maxMasterAddrs ∧ masters.Nodup

/-- What a complete frame does. -/
structure FrameStep (appFc : Option UInt8) (s s' : Dnp3Analyzer) (flow flow' : Dnp3FlowState) :
    Prop where
  aside : Aside flow flow'
  flows : s'.flows = s.flows
  frameCount : flow'.frameCount = bump64 flow.frameCount
  fcCounts : Tallied appFc flow.fcCounts flow'.fcCounts
  fnCodeCounts : Tallied appFc s.fnCodeCounts s'.fnCodeCounts
  events : events flow' ≤ events flow + 1
  pending : flow.pendingRequests.size ≤ maxPendingRequests →
    flow'.pendingRequests.size ≤ maxPendingRequests
  masters : MastersOk flow.masterAddrsSeen → MastersOk flow'.masterAddrsSeen

theorem trackMaster_masters (h : Dnp3DlHeader) (s : Dnp3Analyzer) {flow : Dnp3FlowState}
    (hok : MastersOk flow.masterAddrsSeen) :
    MastersOk (trackMaster h s flow).2.masterAddrsSeen := by
  unfold trackMaster
  split
  · rename_i hnew
    simp only [Bool.and_eq_true, decide_eq_true_eq] at hnew
    split
    · rename_i hroom
      refine ⟨?_, ?_⟩
      · simp only [List.length_append, List.length_singleton]
        omega
      · refine List.nodup_append.mpr ⟨hok.2, by simp, ?_⟩
        intro a ha b hb heq
        rw [heq, List.mem_singleton.mp hb] at ha
        exact hnew.2 ha
    · exact hok
  · exact hok

theorem trackMaster_detects (h : Dnp3DlHeader) (s : Dnp3Analyzer) (flow : Dnp3FlowState) :
    Aside flow (trackMaster h s flow).2 ∧ (trackMaster h s flow).1.flows = s.flows ∧
      (trackMaster h s flow).1.fnCodeCounts = s.fnCodeCounts ∧
      (trackMaster h s flow).2.fcCounts = flow.fcCounts ∧
      (trackMaster h s flow).2.frameCount = flow.frameCount ∧
      (trackMaster h s flow).2.pendingRequests = flow.pendingRequests ∧
      events (trackMaster h s flow).2 = events flow := by
  unfold trackMaster
  split
  · split
    · exact ⟨⟨rfl, rfl, rfl, rfl, rfl, rfl, rfl, rfl⟩, rfl, rfl, rfl, rfl, rfl, rfl⟩
    · exact ⟨.refl flow, rfl, rfl, rfl, rfl, rfl, rfl⟩
  · exact ⟨.refl flow, rfl, rfl, rfl, rfl, rfl, rfl⟩

/-- The flow and the analyzer with the function code counted. -/
theorem processApplication_step {ord : PendingOrder} {c : Delivery} {r : Request} {appCtrl : UInt8}
    {unexpected : Bool} {s s' : Dnp3Analyzer} {flow flow' : Dnp3FlowState}
    (h : processApplication ord c r appCtrl unexpected s flow = .ok (s', flow')) :
    ∃ fcCounts fnCodeCounts n m, countEntry 64 flow.fcCounts r.appFc = .ok (fcCounts, n) ∧
      countEntry 64 s.fnCodeCounts r.appFc = .ok (fnCodeCounts, m) ∧
      Detects 1 { s with fnCodeCounts := fnCodeCounts } s'
        { flow with fcCounts := fcCounts } flow' := by
  unfold processApplication at h
  obtain ⟨⟨fcCounts, n⟩, hfc, h⟩ := bind_eq_ok.mp h
  obtain ⟨⟨fnCodeCounts, m⟩, hfn, h⟩ := bind_eq_ok.mp h
  refine ⟨fcCounts, fnCodeCounts, n, m, hfc, hfn, ?_⟩
  by_cases huns : r.appFc = 0x14 ∨ r.appFc = 0x15
  · simp only [if_pos huns] at h
    exact (detectUnsolicitedControl_detects c r _ _).trans (processClass_detects h)
  · simp only [if_neg huns] at h
    exact processClass_detects h

theorem processApplication_returns {n : Nat} {s : Dnp3Analyzer} {flow : Dnp3FlowState}
    (hfc : CountsLe n flow.fcCounts) (hfn : CountsLe n s.fnCodeCounts) (hn : n + 1 < 2 ^ 64)
    (hlt : events flow + 1 < 2 ^ 64) (ord : PendingOrder) (c : Delivery) (r : Request)
    (appCtrl : UInt8) (unexpected : Bool) :
    ∃ w, processApplication ord c r appCtrl unexpected s flow = .ok w := by
  obtain ⟨⟨fc, k⟩, hfc'⟩ := countEntry_returns hfc hn r.appFc
  obtain ⟨⟨fn, m⟩, hfn'⟩ := countEntry_returns hfn hn r.appFc
  unfold processApplication
  simp only [hfc', hfn', ok_bind]
  by_cases huns : r.appFc = 0x14 ∨ r.appFc = 0x15
  · simp only [if_pos huns]
    have hevents := (detectUnsolicitedControl_detects c r { s with fnCodeCounts := fn }
      { flow with fcCounts := fc }).events
    refine processClass_returns (Nat.lt_of_le_of_lt (Nat.add_le_add_right hevents 1) hlt) ord c r
      appCtrl unexpected _
  · simp only [if_neg huns]
    have hlt' : events { flow with fcCounts := fc } + 1 < 2 ^ 64 := hlt
    exact processClass_returns hlt' ord c r appCtrl unexpected _

/-- The function code of the frame, if it starts an application message. -/
def appFcOf (frame : List UInt8) (h : Dnp3DlHeader) : Option UInt8 :=
  (applicationOf frame h).map fun a => a.1.appFc

theorem processFrame_step {ord : PendingOrder} {c : Delivery} {h : Dnp3DlHeader}
    {frame : List UInt8} {s s' : Dnp3Analyzer} {flow flow' : Dnp3FlowState}
    (hok : processFrame ord c h frame s flow = .ok (s', flow')) :
    FrameStep (appFcOf frame h) s s' flow flow' := by
  unfold processFrame at hok
  simp only at hok
  have hmasters : MastersOk flow.masterAddrsSeen → MastersOk
      (trackMaster h s { flow with frameCount := bump64 flow.frameCount }).2.masterAddrsSeen :=
    fun hm => trackMaster_masters h s hm
  obtain ⟨haside, hflows, hfn, hfc, hcount, hpending, hevents⟩ :=
    trackMaster_detects h s { flow with frameCount := bump64 flow.frameCount }
  generalize trackMaster h s { flow with frameCount := bump64 flow.frameCount } = w at *
  obtain ⟨s₁, flow₁⟩ := w
  have haside₀ : Aside flow { flow with frameCount := bump64 flow.frameCount } :=
    ⟨rfl, rfl, rfl, rfl, rfl, rfl, rfl, rfl⟩
  simp only at *
  unfold appFcOf
  cases happ : applicationOf frame h with
  | none =>
    rw [happ] at hok
    cases hok
    exact ⟨haside₀.trans haside, hflows, hcount, hfc, hfn,
      Nat.le_succ_of_le (Nat.le_of_eq hevents), by rw [hpending]; exact id, hmasters⟩
  | some a =>
    rw [happ] at hok
    obtain ⟨fcCounts, fnCodeCounts, n, m, hfc', hfn', hdet⟩ := processApplication_step hok
    rw [hfc] at hfc'
    rw [hfn] at hfn'
    have haside₁ : Aside flow₁ { flow₁ with fcCounts := fcCounts } :=
      ⟨rfl, rfl, rfl, rfl, rfl, rfl, rfl, rfl⟩
    refine ⟨(haside₀.trans haside).trans (haside₁.trans hdet.aside), hdet.flows.trans hflows,
      hdet.counts.frameCount.trans hcount, ⟨n, ?_⟩, ⟨m, ?_⟩, ?_, ?_, ?_⟩
    · rw [hdet.counts.fcCounts]
      exact hfc'
    · rw [hdet.fnCodeCounts]
      exact hfn'
    · have hd := hdet.events
      simp only [events] at hd hevents ⊢
      omega
    · intro hle
      refine hdet.pending ?_
      simp only [hpending]
      exact hle
    · intro hm
      rw [hdet.counts.masters]
      exact hmasters hm

theorem processFrame_returns {n : Nat} {s : Dnp3Analyzer} {flow : Dnp3FlowState}
    (hfc : CountsLe n flow.fcCounts) (hfn : CountsLe n s.fnCodeCounts) (hn : n + 1 < 2 ^ 64)
    (hlt : events flow + 1 < 2 ^ 64) (ord : PendingOrder) (c : Delivery) (h : Dnp3DlHeader)
    (frame : List UInt8) : ∃ w, processFrame ord c h frame s flow = .ok w := by
  obtain ⟨-, -, hfn', hfc', -, -, hevents⟩ :=
    trackMaster_detects h s { flow with frameCount := bump64 flow.frameCount }
  unfold processFrame
  simp only
  split
  · refine processApplication_returns (n := n) ?_ ?_ hn ?_ ord c _ _ _
    · rw [hfc']
      exact hfc
    · rw [hfn']
      exact hfn
    · rw [hevents]
      exact hlt
  · exact ⟨_, rfl⟩

end Wirerust.Dnp3
