import Mathlib.Data.Finset.Card
import Wirerust.Analyzer.Arp

/-!
The binding table and its findings over whole captures.

`processArp_step` says what a frame does: each of the two tables gets the entry of the frame's
sender, and a D1 finding is returned if the sender was bound to another address. From this,
`run_binds`: as long as there are no more senders than fit into the table, every sender is bound to
the address of its latest frame, and the counters count what they say; whatever comes, the tables
stay within their bounds, an entry leaves only for a new one and only if none is older, and the
entries that came are those that are there and those that left.
-/

namespace Wirerust.Arp

open Lib Wirerust.Analyzer

/-! ## Findings -/

/-- The summary begins with `D1:`. -/
def IsD1 (finding : Finding) : Prop := finding.summary.toList.take 3 = "D1:".toList

theorem isD1_d1Finding (senderIp : Ipv4) (oldMac newMac : Mac) (confidence : Confidence) :
    IsD1 (d1Finding senderIp oldMac newMac confidence) := by
  show (_ ++ _ : String).toList.take 3 = _
  rw [String.toList_append]
  rfl

theorem not_isD1_mismatchFinding (frame : ArpFrame) (ethMac : Mac) :
    ¬IsD1 (mismatchFinding frame ethMac) := by
  unfold IsD1
  simp only [mismatchFinding, anomaly]
  decide

theorem not_isD1_stormFinding (mac : Mac) (frameCount : Nat) (windowSecs : UInt32)
    (ratePps : Nat) : ¬IsD1 (stormFinding mac frameCount windowSecs ratePps) := by
  have hsummary : (stormFinding mac frameCount windowSecs ratePps).summary.toList.take 3 =
      "D3:".toList := by
    show (_ ++ _ : String).toList.take 3 = _
    rw [String.toList_append]
    rfl
  rw [IsD1, hsummary]
  decide

theorem emitD1SpoofFinding_returns (entry : BindingEntry) (senderIp : Ipv4) (oldMac newMac : Mac)
    (timestampSecs spoofThreshold : UInt32) :
    Returns (emitD1SpoofFinding entry senderIp oldMac newMac timestampSecs spoofThreshold)
      (fun r => r.1.mac = entry.mac ∧ r.1.lastSeenTs = entry.lastSeenTs ∧ IsD1 r.2) := by
  have hreset : (resetFlapWindow entry timestampSecs).mac = entry.mac ∧
      (resetFlapWindow entry timestampSecs).lastSeenTs = entry.lastSeenTs := by
    unfold resetFlapWindow
    split
    · split
      · exact ⟨rfl, rfl⟩
      · exact ⟨rfl, rfl⟩
    · exact ⟨rfl, rfl⟩
  unfold emitD1SpoofFinding
  generalize resetFlapWindow entry timestampSecs = fresh at hreset ⊢
  obtain ⟨mac, rebindCount, firstRebindTs, spoofHighEmitted, lastSeenTs⟩ := fresh
  cases firstRebindTs with
  | none =>
    simp only [Option.isNone_none, if_true, unwrap, ok_bind]
    split
    · exact .pure ⟨hreset.1, hreset.2, isD1_d1Finding _ _ _ _⟩
    · exact .pure ⟨hreset.1, hreset.2, isD1_d1Finding _ _ _ _⟩
  | some firstTs =>
    simp only [Option.isNone_some, Bool.false_eq_true, if_false, unwrap, ok_bind]
    split
    · exact .pure ⟨hreset.1, hreset.2, isD1_d1Finding _ _ _ _⟩
    · exact .pure ⟨hreset.1, hreset.2, isD1_d1Finding _ _ _ _⟩

/-! ## Storm counters -/

/-- A saturating counter after an event that may have happened. -/
def bumpIf (happened : Bool) (n : Nat) : Nat := if happened then bump64 n else n

abbrev TouchStorm := Lru.Touch (κ := Mac) maxStormCounters StormCounter.windowStartTs

abbrev TouchBinding := Lru.Touch (κ := Ipv4) maxArpBindings BindingEntry.lastSeenTs

theorem insertStormCounterLru_touch (ord : TableOrder) (s : ArpAnalyzer) (mac : Mac)
    (timestampSecs : UInt32) (hcap : s.stormCounters.size ≤ maxStormCounters) :
    ∃ counters evicted evictions,
      insertStormCounterLru ord s mac timestampSecs = { s with
        stormCounters := counters
        stormCountersEvicted := bumpIf evicted s.stormCountersEvicted
        evictions := evictions } ∧
      TouchStorm s.stormCounters mac ⟨1, timestampSecs, false⟩ counters evicted := by
  unfold insertStormCounterLru
  cases hget : s.stormCounters.get? mac with
  | some entry => exact ⟨_, false, _, rfl, .known entry hget⟩
  | none =>
    by_cases hfull : s.stormCounters.size ≥ maxStormCounters
    · have hpos : 0 < s.stormCounters.size := Nat.lt_of_lt_of_le (by decide) hfull
      obtain ⟨victim, holdest, herase⟩ := Lru.evict_oldest StormCounter.windowStartTs
        (ord.storm_perm s.evictions s.stormCounters.entries) hpos
      simp only [Option.isNone_none, Bool.true_and, decide_eq_true hfull, if_true, herase]
      exact ⟨_, true, _, rfl, .new hget (.full victim (Nat.le_antisymm hcap hfull) holdest)⟩
    · simp only [Option.isNone_none, Bool.true_and, decide_eq_false hfull, Bool.false_eq_true,
        if_false]
      exact ⟨_, false, _, rfl, .new hget (.free (Nat.lt_of_not_le hfull))⟩

theorem countStorm_touch (ord : TableOrder) (s : ArpAnalyzer) (mac : Mac) (timestampSecs : UInt32)
    (hcap : s.stormCounters.size ≤ maxStormCounters) :
    ∃ counters evicted evictions entry,
      countStorm ord s mac timestampSecs = { s with
        stormCounters := counters
        stormCountersEvicted := bumpIf evicted s.stormCountersEvicted
        evictions := evictions } ∧
      TouchStorm s.stormCounters mac entry counters evicted := by
  obtain ⟨counters, evicted, evictions, heq, htouch⟩ :=
    insertStormCounterLru_touch ord s mac timestampSecs hcap
  unfold countStorm
  split
  · rename_i entry hget
    split
    · exact ⟨_, false, _, _, rfl, .known entry hget⟩
    · exact ⟨counters, evicted, evictions, _, heq, htouch⟩
  · exact ⟨counters, evicted, evictions, _, heq, htouch⟩

theorem checkStorm_touch (ord : TableOrder) (s : ArpAnalyzer) (frame : ArpFrame)
    (timestampSecs : UInt32) (hcap : s.stormCounters.size ≤ maxStormCounters) :
    ∃ counters evicted evictions stormFindings entry,
      (checkStorm ord s frame timestampSecs).1 = { s with
        stormCounters := counters
        stormCountersEvicted := bumpIf evicted s.stormCountersEvicted
        evictions := evictions
        stormFindings := stormFindings } ∧
      TouchStorm s.stormCounters frame.senderMac entry counters evicted ∧
      ∀ f ∈ (checkStorm ord s frame timestampSecs).2, ¬IsD1 f := by
  obtain ⟨counters, evicted, evictions, entry, heq, htouch⟩ :=
    countStorm_touch ord s frame.senderMac timestampSecs hcap
  unfold checkStorm detectStorm
  simp only [heq, htouch.get?_self]
  split
  · rename_i hstorm
    split at hstorm
    · cases hstorm
      refine ⟨_, evicted, evictions, _, _, rfl, htouch.update _, fun f hf => ?_⟩
      rw [List.mem_singleton.mp hf]
      exact not_isD1_stormFinding _ _ _ _
    · cases hstorm
  · rename_i hquiet
    split at hquiet
    · cases hquiet
    · cases hquiet
      exact ⟨counters, evicted, evictions, _, _, rfl, htouch, fun f hf => by cases hf⟩

/-! ## Bindings -/

theorem insertBinding_put (ord : TableOrder) (s : ArpAnalyzer) {ip : Ipv4} (mac : Mac)
    (hnew : s.bindings.get? ip = none) (hcap : s.bindings.size ≤ maxArpBindings) :
    ∃ bindings evicted evictions,
      insertBinding ord s ip mac = { s with
        bindings := bindings
        bindingsEvicted := bumpIf evicted s.bindingsEvicted
        evictions := evictions } ∧
      Lru.Put maxArpBindings BindingEntry.lastSeenTs s.bindings ip ⟨mac, 0, none, false, 0⟩
        bindings evicted := by
  unfold insertBinding insertBindingLru
  simp only [hnew]
  by_cases hfull : s.bindings.size ≥ maxArpBindings
  · have hpos : 0 < s.bindings.size := Nat.lt_of_lt_of_le (by decide) hfull
    obtain ⟨victim, holdest, herase⟩ := Lru.evict_oldest BindingEntry.lastSeenTs
      (ord.bindings_perm s.evictions s.bindings.entries) hpos
    simp only [if_pos hfull, if_true, herase]
    exact ⟨_, true, _, rfl, .full victim (Nat.le_antisymm hcap hfull) holdest⟩
  · simp only [if_neg hfull, Bool.false_eq_true, if_false]
    exact ⟨_, false, _, rfl, .free (Nat.lt_of_not_le hfull)⟩

/-- What the last part of `process_arp` does: the sender is bound to its address, and there is a
D1 finding if it was bound to another one. -/
def Binds (s : ArpAnalyzer) (frame : ArpFrame) (timestampSecs : UInt32) (garp : Bool)
    (r : ArpAnalyzer × List Finding) : Prop :=
  ∃ bindings evicted evictions entry,
    r.1 = { s with
      bindings := bindings
      bindingsEvicted := bumpIf evicted s.bindingsEvicted
      evictions := evictions
      garpFindings := bumpIf garp s.garpFindings
      spoofFindings := bumpIf (hasConflict s frame) s.spoofFindings } ∧
    TouchBinding s.bindings frame.senderIp entry bindings evicted ∧
    entry.mac = frame.senderMac ∧ entry.lastSeenTs = timestampSecs ∧
    ((∃ f ∈ r.2, IsD1 f) ↔ hasConflict s frame = true)

theorem hasConflict_of_some {s : ArpAnalyzer} {frame : ArpFrame} {entry : BindingEntry}
    (h : s.bindings.get? frame.senderIp = some entry) :
    hasConflict s frame = decide (entry.mac ≠ frame.senderMac) := by
  rw [hasConflict, h]

theorem hasConflict_of_none {s : ArpAnalyzer} {frame : ArpFrame}
    (h : s.bindings.get? frame.senderIp = none) : hasConflict s frame = false := by
  rw [hasConflict, h]

theorem quiet_iff {findings : List Finding} {conflict : Bool} (hconflict : conflict = false)
    (hquiet : ∀ f ∈ findings, ¬IsD1 f) : (∃ f ∈ findings, IsD1 f) ↔ conflict = true := by
  rw [hconflict]
  exact ⟨fun ⟨f, hf, hd1⟩ => absurd hd1 (hquiet f hf), fun h => Bool.noConfusion h⟩

theorem conflictingGarp_binds {s : ArpAnalyzer} {frame : ArpFrame} (timestampSecs : UInt32)
    (hconflict : hasConflict s frame = true) :
    Returns (conflictingGarp s frame timestampSecs) (Binds s frame timestampSecs true) := by
  cases hget : s.bindings.get? frame.senderIp with
  | none =>
    rw [hasConflict_of_none hget] at hconflict
    cases hconflict
  | some entry =>
    obtain ⟨r, hr, hmac, hseen, hd1⟩ := emitD1SpoofFinding_returns entry frame.senderIp entry.mac
      frame.senderMac timestampSecs s.spoofThreshold
    unfold conflictingGarp applyGarpConflictEscalation
    simp only [hget, unwrap, ok_bind, hr, SortedMap.get?_insert_self, SortedMap.insert_insert]
    refine .pure ⟨_, false, s.evictions,
      { r.1 with lastSeenTs := timestampSecs, mac := frame.senderMac }, ?_, .known entry hget, rfl,
      rfl, fun _ => hconflict, fun _ => ⟨r.2, by simp, hd1⟩⟩
    rw [hconflict]
    rfl

theorem not_isD1_garpFinding (frame : ArpFrame) :
    ¬IsD1 (garpFinding frame "D2: Gratuitous ARP (GARP) — sender_ip equals target_ip") := by
  unfold IsD1
  simp only [garpFinding, anomaly]
  decide

theorem benignGarp_binds (ord : TableOrder) {s : ArpAnalyzer} {frame : ArpFrame}
    (timestampSecs : UInt32) (hconflict : hasConflict s frame = false)
    (hcap : s.bindings.size ≤ maxArpBindings) :
    Binds s frame timestampSecs true (benignGarp ord s frame timestampSecs) := by
  have hquiet : (∃ f ∈ (benignGarp ord s frame timestampSecs).2, IsD1 f) ↔
      hasConflict s frame = true := by
    refine quiet_iff hconflict fun f hf => ?_
    rw [benignGarp, List.mem_singleton] at hf
    rw [hf]
    exact not_isD1_garpFinding frame
  cases hget : s.bindings.get? frame.senderIp with
  | some entry =>
    refine ⟨_, false, s.evictions,
      { entry with lastSeenTs := timestampSecs, mac := frame.senderMac }, ?_, .known entry hget,
      rfl, rfl, hquiet⟩
    rw [hconflict]
    simp only [benignGarp, updateBinding, hget, Option.isNone_some, Bool.false_eq_true, if_false]
    rfl
  | none =>
    obtain ⟨bindings, evicted, evictions, heq, hput⟩ := insertBinding_put ord
      { s with garpFindings := bump64 s.garpFindings } frame.senderMac hget hcap
    refine ⟨_, evicted, evictions, ⟨frame.senderMac, 0, none, false, timestampSecs⟩, ?_,
      .new hget (hput.update _), rfl, rfl, hquiet⟩
    rw [hconflict]
    simp only [benignGarp, updateBinding, hget, Option.isNone_none, if_true, heq, hput.get?_self]
    rfl

theorem bindSender_binds (ord : TableOrder) (s : ArpAnalyzer) (frame : ArpFrame)
    (timestampSecs : UInt32) (hcap : s.bindings.size ≤ maxArpBindings) :
    Returns (bindSender ord s frame timestampSecs) (Binds s frame timestampSecs false) := by
  unfold bindSender
  cases hget : s.bindings.get? frame.senderIp with
  | some entry =>
    have hconflict := hasConflict_of_some hget
    simp only
    by_cases hmac : entry.mac ≠ frame.senderMac
    · obtain ⟨r, hr, -, hseen, hd1⟩ := emitD1SpoofFinding_returns
        { entry with lastSeenTs := timestampSecs } frame.senderIp entry.mac frame.senderMac
        timestampSecs s.spoofThreshold
      rw [decide_eq_true hmac] at hconflict
      simp only [if_pos hmac, hr, ok_bind, unwrap, SortedMap.get?_insert_self,
        SortedMap.insert_insert]
      refine .pure ⟨_, false, s.evictions, { r.1 with mac := frame.senderMac }, ?_,
        .known entry hget, rfl, hseen, fun _ => hconflict,
        fun _ => ⟨r.2, List.mem_singleton_self _, hd1⟩⟩
      rw [hconflict]
      rfl
    · rw [decide_eq_false hmac] at hconflict
      simp only [if_neg hmac]
      refine .pure ⟨_, false, s.evictions, { entry with lastSeenTs := timestampSecs }, ?_,
        .known entry hget, Decidable.not_not.mp hmac, rfl, quiet_iff hconflict (by simp)⟩
      rw [hconflict]
      rfl
  | none =>
    have hconflict := hasConflict_of_none hget
    obtain ⟨bindings, evicted, evictions, heq, hput⟩ :=
      insertBinding_put ord s frame.senderMac hget hcap
    simp only [heq, updateBinding, hput.get?_self]
    refine .pure ⟨_, evicted, evictions, ⟨frame.senderMac, 0, none, false, timestampSecs⟩, ?_,
      .new hget (hput.update _), rfl, rfl, quiet_iff hconflict (by simp)⟩
    rw [hconflict]
    rfl

/-! ## A frame -/

/-- Every frame is counted, and counted by its operation. -/
structure Counted (s : ArpAnalyzer) (operation : UInt16) (s' : ArpAnalyzer) : Prop where
  frames : s'.framesAnalyzed = bumpIf true s.framesAnalyzed
  requests : s'.requestCount = bumpIf (operation = 1) s.requestCount
  replies : s'.replyCount = bumpIf (operation = 2) s.replyCount
  others : s'.otherOpcodeCount = bumpIf (operation ≠ 1 ∧ operation ≠ 2) s.otherOpcodeCount

/-- What a frame with a sender does. -/
structure Processed (s : ArpAnalyzer) (frame : ArpFrame) (timestampSecs : UInt32)
    (r : ArpAnalyzer × List Finding) : Prop where
  bindings : ∃ entry evicted,
    TouchBinding s.bindings frame.senderIp entry r.1.bindings evicted ∧
    entry.mac = frame.senderMac ∧ entry.lastSeenTs = timestampSecs ∧
    r.1.bindingsEvicted = bumpIf evicted s.bindingsEvicted
  storms : ∃ entry evicted,
    TouchStorm s.stormCounters frame.senderMac entry r.1.stormCounters evicted ∧
    r.1.stormCountersEvicted = bumpIf evicted s.stormCountersEvicted
  spoofs : r.1.spoofFindings = bumpIf (hasConflict s frame) s.spoofFindings
  d1 : (∃ f ∈ r.2, IsD1 f) ↔ hasConflict s frame = true
  garps : r.1.garpFindings = bumpIf (isGratuitousArp frame) s.garpFindings
  mismatches : r.1.mismatchFindings = bumpIf (mismatch frame).isSome s.mismatchFindings
  counted : Counted s frame.operation r.1

theorem countFrame_eq (s : ArpAnalyzer) (operation : UInt16) :
    countFrame s operation = { s with
      framesAnalyzed := bump64 s.framesAnalyzed
      requestCount := bumpIf (operation = 1) s.requestCount
      replyCount := bumpIf (operation = 2) s.replyCount
      otherOpcodeCount := bumpIf (operation ≠ 1 ∧ operation ≠ 2) s.otherOpcodeCount } := by
  unfold countFrame bumpIf
  by_cases hrequest : operation = 1
  · simp [hrequest]
  · by_cases hreply : operation = 2
    · simp [hreply]
    · simp [hrequest, hreply]

theorem checkMismatch_spec (s : ArpAnalyzer) (frame : ArpFrame) :
    (checkMismatch s frame).1 =
      { s with mismatchFindings := bumpIf (mismatch frame).isSome s.mismatchFindings } ∧
    ∀ f ∈ (checkMismatch s frame).2, ¬IsD1 f := by
  unfold checkMismatch
  cases mismatch frame with
  | none => exact ⟨rfl, fun f hf => by cases hf⟩
  | some ethMac =>
    refine ⟨rfl, fun f hf => ?_⟩
    rw [List.mem_singleton.mp hf]
    exact not_isD1_mismatchFinding frame ethMac

theorem checkBinding_binds (ord : TableOrder) (s : ArpAnalyzer) (frame : ArpFrame)
    (timestampSecs : UInt32) (hcap : s.bindings.size ≤ maxArpBindings) :
    Returns (checkBinding ord s frame timestampSecs)
      (Binds s frame timestampSecs (isGratuitousArp frame)) := by
  unfold checkBinding
  cases isGratuitousArp frame with
  | false => exact bindSender_binds ord s frame timestampSecs hcap
  | true =>
    cases hconflict : hasConflict s frame with
    | true => exact conflictingGarp_binds timestampSecs hconflict
    | false => exact .pure (benignGarp_binds ord timestampSecs hconflict hcap)

theorem processArp_step (ord : TableOrder) (s : ArpAnalyzer) (frame : ArpFrame)
    (timestampSecs : UInt32) (hignored : isIgnored frame = false)
    (hcap : s.bindings.size ≤ maxArpBindings)
    (hstorms : s.stormCounters.size ≤ maxStormCounters) :
    Returns (processArp ord s frame timestampSecs) (Processed s frame timestampSecs) := by
  unfold processArp
  simp only [hignored, Bool.false_eq_true, if_false, countFrame_eq]
  generalize hs₁ : ({ s with
      framesAnalyzed := bump64 s.framesAnalyzed
      requestCount := bumpIf (frame.operation = 1) s.requestCount
      replyCount := bumpIf (frame.operation = 2) s.replyCount
      otherOpcodeCount := bumpIf (frame.operation ≠ 1 ∧ frame.operation ≠ 2)
        s.otherOpcodeCount } : ArpAnalyzer) = s₁
  obtain ⟨hmismatch, hquiet⟩ := checkMismatch_spec s₁ frame
  obtain ⟨counters, evicted, evictions, findings, entry, hstorm, htouch, hquiet'⟩ :=
    checkStorm_touch ord (checkMismatch s₁ frame).1 frame timestampSecs (by
      rw [hmismatch, ← hs₁]
      exact hstorms)
  obtain ⟨r, hr, bindings, evicted', evictions', entry', hstate, htouch', hmac, hseen, hd1⟩ :=
    checkBinding_binds ord (checkStorm ord (checkMismatch s₁ frame).1 frame timestampSecs).1 frame
      timestampSecs (by
        rw [hstorm, hmismatch, ← hs₁]
        exact hcap)
  rw [hr, ok_bind]
  subst hs₁
  rw [hmismatch] at htouch hstorm
  rw [hmismatch, hstorm] at hstate htouch' hd1
  refine .pure ⟨⟨entry', evicted', ?_, hmac, hseen, ?_⟩, ⟨entry, evicted, ?_, ?_⟩, ?_, ?_, ?_, ?_,
    ?_⟩
  · rw [hstate]
    exact htouch'
  · rw [hstate]
  · rw [hstate]
    exact htouch
  · rw [hstate]
  · rw [hstate]
    rfl
  · refine Iff.trans ?_ hd1
    refine ⟨fun ⟨f, hf, hf'⟩ => ⟨f, ?_, hf'⟩, fun ⟨f, hf, hf'⟩ => ⟨f, ?_, hf'⟩⟩
    · rcases List.mem_append.mp hf with hf | hf
      · rcases List.mem_append.mp hf with hf | hf
        · exact absurd hf' (hquiet f hf)
        · exact absurd hf' (hquiet' f hf)
      · exact hf
    · exact List.mem_append_right _ hf
  · rw [hstate]
  · rw [hstate]
  · rw [hstate]
    exact ⟨rfl, rfl, rfl, rfl⟩

/-! ## Captures -/

structure Arrival where
  frame : ArpFrame
  timestampSecs : UInt32

def heardFrom (ip : Ipv4) (frame : ArpFrame) : Bool := !isIgnored frame && frame.senderIp = ip

/-- The address in the latest frame from `ip`. -/
def latestMac (past : List ArpFrame) (ip : Ipv4) : Option Mac :=
  ((past.filter (heardFrom ip)).getLast?).map ArpFrame.senderMac

def senders (past : List ArpFrame) : Finset Ipv4 :=
  ((past.filter fun frame => !isIgnored frame).map ArpFrame.senderIp).toFinset

/-- The sender has sent before, and then from another address. -/
def isRebind (past : List ArpFrame) (frame : ArpFrame) : Bool :=
  !isIgnored frame &&
    match latestMac past frame.senderIp with
    | some mac => mac ≠ frame.senderMac
    | none => false

def rebinds (past : List ArpFrame) : List ArpFrame → Nat
  | [] => 0
  | frame :: frames => (isRebind past frame).toNat + rebinds (past ++ [frame]) frames

theorem rebinds_snoc (past frames : List ArpFrame) (frame : ArpFrame) :
    rebinds past (frames ++ [frame]) =
      rebinds past frames + (isRebind (past ++ frames) frame).toNat := by
  induction frames generalizing past with
  | nil => simp [rebinds]
  | cons first frames ih =>
    simp only [List.cons_append, rebinds, ih, List.append_assoc, List.nil_append, Nat.add_assoc]

theorem latestMac_snoc (past : List ArpFrame) (frame : ArpFrame) (ip : Ipv4) :
    latestMac (past ++ [frame]) ip =
      if heardFrom ip frame then some frame.senderMac else latestMac past ip := by
  unfold latestMac
  rw [List.filter_append]
  by_cases hfrom : heardFrom ip frame = true
  · simp [hfrom]
  · simp [hfrom]

theorem latestMac_eq_none {past : List ArpFrame} {ip : Ipv4} :
    latestMac past ip = none ↔ ip ∉ senders past := by
  simp only [latestMac, senders, heardFrom, Option.map_eq_none_iff, List.getLast?_eq_none_iff,
    List.filter_eq_nil_iff, List.mem_toFinset, List.mem_map, List.mem_filter, not_exists]
  constructor
  · rintro h frame ⟨⟨hmem, hheard⟩, hip⟩
    exact h frame hmem (by simpa [hip] using hheard)
  · intro h frame hmem hheard
    simp only [Bool.and_eq_true, decide_eq_true_eq] at hheard
    exact h frame ⟨⟨hmem, hheard.1⟩, hheard.2⟩

theorem senders_snoc (past : List ArpFrame) (frame : ArpFrame) :
    senders (past ++ [frame]) =
      if isIgnored frame then senders past else insert frame.senderIp (senders past) := by
  unfold senders
  rw [List.filter_append, List.map_append, List.toFinset_append]
  cases hignored : isIgnored frame with
  | true => simp [hignored]
  | false => simp [hignored, Finset.union_comm]

/-- The run, and how many keys have come into the two tables. -/
structure Watched where
  analyzer : ArpAnalyzer
  newBindings : Nat := 0
  newCounters : Nat := 0

def onArrival (ord : TableOrder) (w : Watched) (a : Arrival) : Checked Watched := do
  let (s, _) ← processArp ord w.analyzer a.frame a.timestampSecs
  let newBinding := !isIgnored a.frame && (w.analyzer.bindings.get? a.frame.senderIp).isNone
  let newCounter := !isIgnored a.frame && (w.analyzer.stormCounters.get? a.frame.senderMac).isNone
  .ok ⟨s, w.newBindings + newBinding.toNat, w.newCounters + newCounter.toNat⟩

/-- A counter that stops at the largest `u64`. -/
def Counts (counter n : Nat) : Prop := counter = min n (2 ^ 64 - 1)

theorem Counts.bumpIf {counter n : Nat} (h : Counts counter n) (happened : Bool) :
    Counts (bumpIf happened counter) (n + happened.toNat) := by
  unfold Counts at *
  subst h
  cases happened with
  | false => rfl
  | true =>
    simp only [Arp.bumpIf, saturatingInc, if_true, Bool.toNat_true]
    omega

theorem Counts.countP {counter : Nat} {p : ArpFrame → Bool} {past : List ArpFrame}
    {frame : ArpFrame} {counter' : Nat} (h : Counts counter (past.countP p))
    (hcounter : counter' = Arp.bumpIf (p frame) counter) :
    Counts counter' ((past ++ [frame]).countP p) := by
  rw [countP_snoc, hcounter]
  exact h.bumpIf (p frame)

/-- The keys that have come into a table are there or have been evicted. -/
def Conserved (size evictedCount inserted : Nat) : Prop :=
  ∃ evicted, inserted = size + evicted ∧ Counts evictedCount evicted

structure Bounded (w : Watched) : Prop where
  bindings : w.analyzer.bindings.size ≤ maxArpBindings
  storms : w.analyzer.stormCounters.size ≤ maxStormCounters
  newBindings : Conserved w.analyzer.bindings.size w.analyzer.bindingsEvicted w.newBindings
  newCounters :
    Conserved w.analyzer.stormCounters.size w.analyzer.stormCountersEvicted w.newCounters

/-- The counters of frames, which no table has a part in. -/
structure Tallied (past : List ArpFrame) (s : ArpAnalyzer) : Prop where
  frames : Counts s.framesAnalyzed past.length
  requests : Counts s.requestCount (past.countP fun frame => frame.operation = 1)
  replies : Counts s.replyCount (past.countP fun frame => frame.operation = 2)
  others : Counts s.otherOpcodeCount
    (past.countP fun frame => frame.operation ≠ 1 ∧ frame.operation ≠ 2)
  garps : Counts s.garpFindings
    (past.countP fun frame => !isIgnored frame && isGratuitousArp frame)
  mismatches : Counts s.mismatchFindings
    (past.countP fun frame => !isIgnored frame && (mismatch frame).isSome)

/-- Every sender is bound to the address of its latest frame. -/
def Binding (s : ArpAnalyzer) (past : List ArpFrame) : Prop :=
  ∀ ip, (s.bindings.get? ip).map BindingEntry.mac = latestMac past ip

theorem Binding.isRebind_eq {s : ArpAnalyzer} {past : List ArpFrame} (h : Binding s past)
    (frame : ArpFrame) : isRebind past frame = (!isIgnored frame && hasConflict s frame) := by
  unfold isRebind hasConflict
  rw [← h frame.senderIp]
  cases s.bindings.get? frame.senderIp with
  | none => rfl
  | some entry => rfl

structure Exact (past : List ArpFrame) (s : ArpAnalyzer) : Prop where
  bound : ∀ ip, (s.bindings.get? ip).map BindingEntry.mac = latestMac past ip
  size : s.bindings.size = (senders past).card
  spoofs : Counts s.spoofFindings (rebinds [] past)

theorem Conserved.touch {κ ν τ : Type} [LinearOrder κ] [LinearOrder τ] {cap : Nat} {stamp : ν → τ}
    {m m' : SortedMap κ ν} {k : κ} {v : ν} {evicted : Bool} {counter inserted : Nat}
    (h : Conserved m.size counter inserted) (htouch : Lru.Touch cap stamp m k v m' evicted) :
    Conserved m'.size (bumpIf evicted counter) (inserted + (m.get? k).isNone.toNat) := by
  obtain ⟨n, hinserted, hcounts⟩ := h
  have hsize := htouch.size_eq
  exact ⟨n + evicted.toNat, by omega, hcounts.bumpIf evicted⟩

theorem Tallied.snoc {past : List ArpFrame} {s s' : ArpAnalyzer} {frame : ArpFrame}
    (h : Tallied past s) (hcounted : Counted s frame.operation s')
    (hgarps : s'.garpFindings = bumpIf (!isIgnored frame && isGratuitousArp frame) s.garpFindings)
    (hmismatches : s'.mismatchFindings =
      bumpIf (!isIgnored frame && (mismatch frame).isSome) s.mismatchFindings) :
    Tallied (past ++ [frame]) s' where
  frames := by
    rw [hcounted.frames, List.length_append]
    exact h.frames.bumpIf true
  requests := h.requests.countP hcounted.requests
  replies := h.replies.countP hcounted.replies
  others := h.others.countP hcounted.others
  garps := h.garps.countP hgarps
  mismatches := h.mismatches.countP hmismatches

/-- An entry that goes in and leaves the others alone keeps the table exact. -/
theorem Exact.snoc {past : List ArpFrame} {s s' : ArpAnalyzer} {frame : ArpFrame}
    {timestampSecs : UInt32} {findings : List Finding} (h : Exact past s)
    (hignored : isIgnored frame = false)
    (hsenders : (senders (past ++ [frame])).card ≤ maxArpBindings)
    (hstep : Processed s frame timestampSecs (s', findings)) : Exact (past ++ [frame]) s' := by
  obtain ⟨entry, evicted, htouch, hmac, -, -⟩ := hstep.bindings
  have hnone : s.bindings.get? frame.senderIp = none ↔ frame.senderIp ∉ senders past := by
    rw [← latestMac_eq_none, ← h.bound, Option.map_eq_none_iff]
  rw [senders_snoc, hignored] at hsenders
  simp only [Bool.false_eq_true, if_false] at hsenders
  obtain ⟨hinsert, -⟩ := htouch.of_room fun hnew => by
    rw [Finset.card_insert_of_notMem (hnone.mp hnew), ← h.size] at hsenders
    exact hsenders
  simp only at hinsert
  refine ⟨fun ip => ?_, ?_, ?_⟩
  · rw [latestMac_snoc, hinsert, heardFrom, hignored]
    by_cases hip : frame.senderIp = ip
    · simp [hip, hmac]
    · simp [hip, SortedMap.get?_insert_of_ne _ _ (Ne.symm hip), h.bound ip]
  · rw [senders_snoc, hignored, hinsert]
    simp only [Bool.false_eq_true, if_false]
    cases hget : s.bindings.get? frame.senderIp with
    | none =>
      rw [SortedMap.size_insert_of_none _ _ hget,
        Finset.card_insert_of_notMem (hnone.mp hget), h.size]
    | some old =>
      have hmem : frame.senderIp ∈ senders past := by
        by_contra hout
        rw [hnone.mpr hout] at hget
        cases hget
      rw [SortedMap.size_insert_of_some _ _ hget, Finset.insert_eq_of_mem hmem, h.size]
  · rw [rebinds_snoc, List.nil_append, Binding.isRebind_eq h.bound, hignored]
    have hspoofs := hstep.spoofs
    simp only at hspoofs
    rw [hspoofs]
    exact h.spoofs.bumpIf (hasConflict s frame)

/-- What holds after every capture. -/
structure Sound (past : List ArpFrame) (w : Watched) : Prop where
  bounded : Bounded w
  tallied : Tallied past w.analyzer
  exact : (senders past).card ≤ maxArpBindings → Exact past w.analyzer

theorem processArp_ignored (ord : TableOrder) (s : ArpAnalyzer) {frame : ArpFrame}
    (timestampSecs : UInt32) (hignored : isIgnored frame = true) :
    processArp ord s frame timestampSecs = .ok (countFrame s frame.operation, []) := by
  rw [processArp, hignored, if_pos rfl]

theorem Sound.ignored {past : List ArpFrame} {w : Watched} (h : Sound past w) {frame : ArpFrame}
    (hignored : isIgnored frame = true) :
    Sound (past ++ [frame]) { w with analyzer := countFrame w.analyzer frame.operation } where
  bounded := by
    rw [countFrame_eq]
    exact ⟨h.bounded.bindings, h.bounded.storms, h.bounded.newBindings, h.bounded.newCounters⟩
  tallied := by
    refine h.tallied.snoc ?_ ?_ ?_
    · rw [countFrame_eq]
      exact ⟨rfl, rfl, rfl, rfl⟩
    · rw [countFrame_eq, hignored]
      rfl
    · rw [countFrame_eq, hignored]
      rfl
  exact := by
    intro hsenders
    rw [senders_snoc, hignored, if_pos rfl] at hsenders
    have hexact := h.exact hsenders
    rw [countFrame_eq]
    refine ⟨fun ip => ?_, ?_, ?_⟩
    · rw [latestMac_snoc, heardFrom, hignored]
      exact hexact.bound ip
    · rw [senders_snoc, hignored]
      exact hexact.size
    · rw [rebinds_snoc, List.nil_append, Binding.isRebind_eq hexact.bound, hignored]
      exact hexact.spoofs

theorem Sound.processed {past : List ArpFrame} {w : Watched} (h : Sound past w) {frame : ArpFrame}
    {timestampSecs : UInt32} (hignored : isIgnored frame = false) {s' : ArpAnalyzer}
    {findings : List Finding} (hstep : Processed w.analyzer frame timestampSecs (s', findings)) :
    Sound (past ++ [frame]) {
      analyzer := s'
      newBindings := w.newBindings + (w.analyzer.bindings.get? frame.senderIp).isNone.toNat
      newCounters :=
        w.newCounters + (w.analyzer.stormCounters.get? frame.senderMac).isNone.toNat } where
  bounded := by
    obtain ⟨entry, evicted, htouch, -, -, hevicted⟩ := hstep.bindings
    obtain ⟨entry', evicted', htouch', hevicted'⟩ := hstep.storms
    simp only at hevicted hevicted'
    refine ⟨htouch.size_le h.bounded.bindings, htouch'.size_le h.bounded.storms, ?_, ?_⟩
    · rw [hevicted]
      exact h.bounded.newBindings.touch htouch
    · rw [hevicted']
      exact h.bounded.newCounters.touch htouch'
  tallied := by
    refine h.tallied.snoc hstep.counted ?_ ?_
    · rw [hignored]
      exact hstep.garps
    · rw [hignored]
      exact hstep.mismatches
  exact := by
    intro hsenders
    refine (h.exact (Nat.le_trans (Finset.card_le_card ?_) hsenders)).snoc hignored hsenders hstep
    rw [senders_snoc, hignored]
    exact Finset.subset_insert _ _

theorem onArrival_sound (ord : TableOrder) {past : List ArpFrame} {w : Watched}
    (h : Sound past w) (a : Arrival) :
    Returns (onArrival ord w a) (Sound (past ++ [a.frame])) := by
  unfold onArrival
  cases hignored : isIgnored a.frame with
  | true =>
    rw [processArp_ignored ord w.analyzer a.timestampSecs hignored, ok_bind]
    exact .pure (h.ignored hignored)
  | false =>
    obtain ⟨⟨s', findings⟩, hr, hstep⟩ := processArp_step ord w.analyzer a.frame a.timestampSecs
      hignored h.bounded.bindings h.bounded.storms
    rw [hr, ok_bind]
    exact .pure (h.processed hignored hstep)

theorem sound_new (spoofThreshold stormRate : UInt32) :
    Sound [] { analyzer := .new spoofThreshold stormRate } where
  bounded := ⟨Nat.zero_le _, Nat.zero_le _, ⟨0, rfl, rfl⟩, ⟨0, rfl, rfl⟩⟩
  tallied := ⟨rfl, rfl, rfl, rfl, rfl, rfl⟩
  exact := fun _ => ⟨fun _ => rfl, rfl, rfl⟩

/-- Every frame is a request, a reply or neither. -/
theorem countP_operations (past : List ArpFrame) :
    past.countP (fun frame => frame.operation = 1) +
      past.countP (fun frame => frame.operation = 2) +
      past.countP (fun frame => frame.operation ≠ 1 ∧ frame.operation ≠ 2) = past.length := by
  induction past with
  | nil => rfl
  | cons frame past ih =>
    simp only [List.countP_cons, List.length_cons]
    by_cases hrequest : frame.operation = 1
    · simp [hrequest] at ih ⊢
      omega
    · by_cases hreply : frame.operation = 2
      · simp [hreply] at ih ⊢
        omega
      · simp [hrequest, hreply] at ih ⊢
        omega

theorem Tallied.total {past : List ArpFrame} {s : ArpAnalyzer} (h : Tallied past s)
    (hlen : past.length < 2 ^ 64) :
    s.requestCount + s.replyCount + s.otherOpcodeCount = s.framesAnalyzed := by
  have hsum := countP_operations past
  have hframes := h.frames
  have hrequests := h.requests
  have hreplies := h.replies
  have hothers := h.others
  unfold Counts at hframes hrequests hreplies hothers
  omega

/-- As long as the senders fit into the table, it is exact and a D1 finding tells a rebind; the
tables stay within their bounds whatever comes, and lose one oldest entry to a new one. -/
theorem run_binds (ord : TableOrder) (spoofThreshold stormRate : UInt32)
    (arrivals : List Arrival) :
    Returns (run (onArrival ord) { analyzer := .new spoofThreshold stormRate } arrivals) fun w =>
      let past := arrivals.map Arrival.frame
      Bounded w ∧ Tallied past w.analyzer ∧
      (past.length < 2 ^ 64 → w.analyzer.requestCount + w.analyzer.replyCount +
        w.analyzer.otherOpcodeCount = w.analyzer.framesAnalyzed) ∧
      ((senders past).card ≤ 65536 → Exact past w.analyzer) ∧
      ∀ frame timestampSecs, Returns (processArp ord w.analyzer frame timestampSecs) fun r =>
        ((senders past).card ≤ 65536 → ((∃ f ∈ r.2, IsD1 f) ↔ isRebind past frame = true)) ∧
        (isIgnored frame = true → r.1.bindings = w.analyzer.bindings ∧
          r.1.stormCounters = w.analyzer.stormCounters) ∧
        (isIgnored frame = false →
          (∃ entry evicted, TouchBinding w.analyzer.bindings frame.senderIp entry r.1.bindings
            evicted ∧ entry.mac = frame.senderMac ∧ entry.lastSeenTs = timestampSecs) ∧
          ∃ entry evicted, TouchStorm w.analyzer.stormCounters frame.senderMac entry
            r.1.stormCounters evicted) := by
  have hrun : Returns (run (onArrival ord) { analyzer := .new spoofThreshold stormRate } arrivals)
      (Sound (arrivals.map Arrival.frame)) :=
    run_returns (I := fun l w => Sound (l.map Arrival.frame) w) arrivals
      (sound_new spoofThreshold stormRate) fun pre a w _ _ hw => by
        rw [List.map_append]
        exact onArrival_sound ord hw a
  refine hrun.mono fun w hw => ⟨hw.bounded, hw.tallied, hw.tallied.total, hw.exact,
    fun frame timestampSecs => ?_⟩
  cases hignored : isIgnored frame with
  | true =>
    rw [processArp_ignored ord w.analyzer timestampSecs hignored, countFrame_eq]
    refine .pure ⟨fun _ => ?_, fun _ => ⟨rfl, rfl⟩, nofun⟩
    rw [isRebind, hignored]
    exact quiet_iff rfl (by simp)
  | false =>
    refine (processArp_step ord w.analyzer frame timestampSecs hignored hw.bounded.bindings
      hw.bounded.storms).mono fun r hr => ⟨fun hsenders => ?_, nofun, fun _ => ?_⟩
    · rw [Binding.isRebind_eq (hw.exact hsenders).bound, hignored]
      exact hr.d1
    · obtain ⟨entry, evicted, htouch, hmac, hseen, -⟩ := hr.bindings
      obtain ⟨entry', evicted', htouch', -⟩ := hr.storms
      exact ⟨⟨entry, evicted, htouch, hmac, hseen⟩, entry', evicted', htouch'⟩

/-- Tables as they are. -/
def TableOrder.plain : TableOrder where
  bindings := fun _ l => l
  bindings_perm := fun _ _ => .refl _
  storm := fun _ l => l
  storm_perm := fun _ _ => .refl _

def request (mac : Mac) : ArpFrame := ⟨1, mac, 0x0a000001, 0, 0x0a000002, none, 60⟩

theorem run_binds_rebind :
    ∃ w, run (onArrival .plain) { analyzer := .new 3 50 } [⟨request 1, 0⟩] = .ok w ∧
      (senders [request 1]).card ≤ 65536 ∧ Exact [request 1] w.analyzer ∧
      isRebind [request 1] (request 2) = true ∧
      ∃ r, processArp .plain w.analyzer (request 2) 1 = .ok r ∧ ∃ f ∈ r.2, IsD1 f := by
  obtain ⟨w, hw, -, -, -, hexact, hnext⟩ := run_binds .plain 3 50 [⟨request 1, 0⟩]
  have hsenders : (senders [request 1]).card ≤ 65536 := by decide
  obtain ⟨r, hr, hd1, -⟩ := hnext (request 2) 1
  exact ⟨w, hw, hsenders, hexact hsenders, by decide, r, hr, (hd1 hsenders).mpr (by decide)⟩

end Wirerust.Arp
