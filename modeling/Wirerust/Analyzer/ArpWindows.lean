import Wirerust.Lib.Rates
import Wirerust.Analyzer.ArpBindings
import Wirerust.Analyzer.Windows

/-!
The spoof escalation and the storm alarm (`emit_d1_spoof_finding` and `detect_storm` of
`analyzer/arp.rs`).

The flap window of a sender address is a window in the sense of `Lib.Window`, and so is the storm
window of a hardware address; the one counts rebinds, on both paths of `process_arp`, the other one
frames. `processArp_heeds` says what a frame does to the two windows of its sender. Without
evictions the windows of all others are left alone, so that the log of a run follows both detectors
for every address.
-/

namespace Wirerust.Arp

open Lib Wirerust.Analyzer

/-! ## What is seen -/

instance : DecidablePred IsD1 := fun finding =>
  inferInstanceAs (Decidable (finding.summary.toList.take 3 = "D1:".toList))

/-- A D1 finding of high confidence. -/
def isEscalation (finding : Finding) : Bool :=
  finding.confidence = .high && decide (IsD1 finding)

/-- The summary begins with `D3:`. -/
def isStorm (finding : Finding) : Bool := finding.summary.toList.take 3 = "D3:".toList

/-- A frame, the analyzer before and after it, and the findings that were returned for it. -/
structure Heard where
  arrival : Arrival
  before : ArpAnalyzer
  after : ArpAnalyzer
  found : List Finding

namespace Heard

abbrev frame (e : Heard) : ArpFrame := e.arrival.frame

abbrev timestampSecs (e : Heard) : UInt32 := e.arrival.timestampSecs

end Heard

/-- `process_arp` on one frame after the other. -/
def listen (ord : TableOrder) (s : ArpAnalyzer) : List Arrival → Checked (List Heard)
  | [] => .ok []
  | a :: arrivals => do
    let (s', found) ← processArp ord s a.frame a.timestampSecs
    let log ← listen ord s' arrivals
    .ok (⟨a, s, s', found⟩ :: log)

def flapStart (s : ArpAnalyzer) (ip : Ipv4) : Option UInt32 :=
  (s.bindings.get? ip).bind BindingEntry.firstRebindTs

def stormStart (s : ArpAnalyzer) (mac : Mac) : Option UInt32 :=
  (s.stormCounters.get? mac).map StormCounter.windowStartTs

/-- The rebinds of an address, and the escalations. -/
def spoofWatch (threshold : UInt32) (ip : Ipv4) : Watch Heard where
  width := arpFlapWindowSecs.toNat
  needed := threshold.toNat
  event := fun e => heardFrom ip e.frame && hasConflict e.before e.frame
  time := fun e => e.timestampSecs.toNat
  fires := fun e => decide (e.frame.senderIp = ip) && e.found.any isEscalation
  resets := fun e => (flapStart e.before ip).any fun start =>
    decide (saturatingSub e.timestampSecs start > arpFlapWindowSecs)
  anchor := fun e => ((flapStart e.after ip).getD 0).toNat

def sentBy (mac : Mac) (frame : ArpFrame) : Bool := !isIgnored frame && frame.senderMac = mac

/-- The frames of a hardware address, and the storms. -/
def stormWatch (rate : UInt32) (mac : Mac) : Watch Heard where
  width := arpFlapWindowSecs.toNat
  needed := rate.toNat
  event := fun e => sentBy mac e.frame
  time := fun e => e.timestampSecs.toNat
  fires := fun e => decide (e.frame.senderMac = mac) && e.found.any isStorm
  resets := fun e => (stormStart e.before mac).any fun start =>
    decide (saturatingSub e.timestampSecs start > arpFlapWindowSecs)
  anchor := fun e => ((stormStart e.after mac).getD 0).toNat

/-! ## The findings -/

theorem isEscalation_d1Finding (senderIp : Ipv4) (oldMac newMac : Mac) (confidence : Confidence) :
    isEscalation (d1Finding senderIp oldMac newMac confidence) = true ↔ confidence = .high := by
  rw [isEscalation, decide_eq_true (isD1_d1Finding senderIp oldMac newMac confidence),
    Bool.and_true, decide_eq_true_eq]
  rfl

theorem isStorm_stormFinding (mac : Mac) (frameCount : Nat) (windowSecs : UInt32) (ratePps : Nat) :
    isStorm (stormFinding mac frameCount windowSecs ratePps) = true := by
  rw [isStorm, decide_eq_true_eq]
  show (_ ++ _ : String).toList.take 3 = _
  rw [String.toList_append]
  rfl

/-- Neither of the two. -/
structure Mild (finding : Finding) : Prop where
  escalation : isEscalation finding = false
  storm : isStorm finding = false

theorem mild_mismatchFinding (frame : ArpFrame) (ethMac : Mac) :
    Mild (mismatchFinding frame ethMac) where
  escalation := by simp [isEscalation, mismatchFinding, anomaly]
  storm := by
    rw [isStorm, decide_eq_false_iff_not]
    simp only [mismatchFinding, anomaly]
    decide

theorem not_isEscalation_stormFinding (mac : Mac) (frameCount : Nat) (windowSecs : UInt32)
    (ratePps : Nat) : isEscalation (stormFinding mac frameCount windowSecs ratePps) = false := by
  simp [isEscalation, stormFinding, anomaly]

theorem not_isStorm_d1Finding (senderIp : Ipv4) (oldMac newMac : Mac) (confidence : Confidence) :
    isStorm (d1Finding senderIp oldMac newMac confidence) = false := by
  have hd1 := isD1_d1Finding senderIp oldMac newMac confidence
  rw [IsD1] at hd1
  rw [isStorm, hd1]
  decide

/-! ## The flap window -/

/-- What the fields of a binding hold of its flap window. -/
def FlapWindow (entry : BindingEntry) : Option Window → Prop
  | none => entry.rebindCount = 0 ∧ entry.firstRebindTs = none ∧ entry.spoofHighEmitted = false
  | some w => ∃ start, entry.firstRebindTs = some start ∧
    Held 32 start entry.rebindCount entry.spoofHighEmitted w

/-- The flap window of an address. -/
def InFlap (ip : Ipv4) (s : ArpAnalyzer) (w : Option Window) : Prop :=
  match s.bindings.get? ip with
  | some entry => FlapWindow entry w
  | none => w = none

theorem inFlap_congr {ip : Ipv4} {s s' : ArpAnalyzer} {w : Option Window}
    (h : s'.bindings.get? ip = s.bindings.get? ip) (hw : InFlap ip s w) : InFlap ip s' w := by
  rw [InFlap, h]
  exact hw

theorem FlapWindow.same {entry entry' : BindingEntry} {w : Option Window}
    (hcount : entry'.rebindCount = entry.rebindCount)
    (hfirst : entry'.firstRebindTs = entry.firstRebindTs)
    (hemitted : entry'.spoofHighEmitted = entry.spoofHighEmitted) (h : FlapWindow entry w) :
    FlapWindow entry' w := by
  cases w with
  | none => exact ⟨hcount.trans h.1, hfirst.trans h.2.1, hemitted.trans h.2.2⟩
  | some w =>
    obtain ⟨start, hstart, hheld⟩ := h
    refine ⟨start, hfirst.trans hstart, ?_⟩
    rw [hcount, hemitted]
    exact hheld

theorem inFlap_of_get {s : ArpAnalyzer} {ip : Ipv4} {entry : BindingEntry} {w : Option Window}
    (hget : s.bindings.get? ip = some entry) (h : FlapWindow entry w) : InFlap ip s w := by
  rw [InFlap, hget]
  exact h

/-- The first two steps of `emit_d1_spoof_finding` count the rebind. -/
theorem FlapWindow.enter {entry : BindingEntry} {w : Option Window} (h : FlapWindow entry w)
    (ts : UInt32) :
    let fresh := resetFlapWindow entry ts
    let start := fresh.firstRebindTs.getD ts
    Held 32 start (bump32 fresh.rebindCount) fresh.spoofHighEmitted
        (Window.enter arpFlapWindowSecs.toNat w ts.toNat) ∧
      ¬ saturatingSub ts start > arpFlapWindowSecs := by
  intro fresh start
  have hnow : ¬ saturatingSub ts ts > arpFlapWindowSecs := by
    rw [saturatingSub_self]
    decide
  cases w with
  | none =>
    obtain ⟨hcount, hfirst, hemitted⟩ := h
    have hfresh : fresh = entry := by simp only [fresh, resetFlapWindow, hfirst]
    have hstart : start = ts := by simp only [start, hfresh, hfirst, Option.getD_none]
    rw [hstart, hfresh, hcount, hemitted]
    exact ⟨Held.of_new 32 (by decide) ts, hnow⟩
  | some v =>
    obtain ⟨first, hfirst, hheld⟩ := h
    by_cases hpast : saturatingSub ts first > arpFlapWindowSecs
    · have hfresh : fresh = { entry with
          rebindCount := 0, firstRebindTs := none, spoofHighEmitted := false } := by
        simp only [fresh, resetFlapWindow, hfirst, if_pos hpast]
      have hstart : start = ts := by simp only [start, hfresh, Option.getD_none]
      rw [hstart, hfresh]
      rw [past_iff, hheld.anchor] at hpast
      exact ⟨Held.enter_past 32 (by decide) hpast, hnow⟩
    · have hfresh : fresh = entry := by simp only [fresh, resetFlapWindow, hfirst, if_neg hpast]
      have hstart : start = first := by simp only [start, hfresh, hfirst, Option.getD_some]
      rw [hstart, hfresh]
      refine ⟨?_, hpast⟩
      rw [past_iff, hheld.anchor] at hpast
      exact hheld.enter_within hpast

theorem emitD1SpoofFinding_flap {entry : BindingEntry} {w : Option Window}
    (h : FlapWindow entry w) (senderIp : Ipv4) (oldMac newMac : Mac) (ts threshold : UInt32) :
    Returns (emitD1SpoofFinding entry senderIp oldMac newMac ts threshold) fun r =>
      FlapWindow r.1
        (some (Window.next arpFlapWindowSecs.toNat threshold.toNat w ts.toNat)) ∧
      (isEscalation r.2 = true ↔
        Window.Fires arpFlapWindowSecs.toNat threshold.toNat w ts.toNat) ∧
      isStorm r.2 = false := by
  obtain ⟨hheld, helapsed⟩ := h.enter ts
  have hmax : threshold.toNat ≤ 2 ^ 32 - 1 := Nat.le_pred_of_lt threshold.toNat_lt
  unfold emitD1SpoofFinding
  generalize resetFlapWindow entry ts = fresh at hheld helapsed ⊢
  obtain ⟨mac, rebindCount, firstRebindTs, spoofHighEmitted, lastSeenTs⟩ := fresh
  -- the timestamp of the first rebind is there, or is set to this one
  obtain ⟨start, hstart, hset⟩ : ∃ start, firstRebindTs.getD ts = start ∧
      (if firstRebindTs.isNone then
        (⟨mac, bump32 rebindCount, some ts, spoofHighEmitted, lastSeenTs⟩ : BindingEntry)
      else ⟨mac, bump32 rebindCount, firstRebindTs, spoofHighEmitted, lastSeenTs⟩) =
        ⟨mac, bump32 rebindCount, some start, spoofHighEmitted, lastSeenTs⟩ := by
    cases firstRebindTs with
    | none => exact ⟨ts, rfl, rfl⟩
    | some first => exact ⟨first, rfl, rfl⟩
  simp only [hstart] at hheld helapsed
  simp only [hset, unwrap, ok_bind]
  have hwithin : saturatingSub ts start ≤ arpFlapWindowSecs := by
    rw [UInt32.le_iff_toNat_le]
    rw [gt_iff_lt, UInt32.lt_iff_toNat_lt] at helapsed
    omega
  by_cases hfires : threshold.toNat ≤ bump32 rebindCount ∧ spoofHighEmitted = false
  · rw [if_pos (by simp [hfires, hwithin])]
    obtain ⟨hnext, halarm⟩ := hheld.alarm hmax hfires
    refine .pure ⟨⟨start, rfl, hnext⟩, iff_of_true ?_ halarm, not_isStorm_d1Finding _ _ _ _⟩
    exact (isEscalation_d1Finding senderIp oldMac newMac .high).mpr rfl
  · rw [if_neg (by simpa [hwithin] using hfires)]
    obtain ⟨hnext, hquiet⟩ := hheld.quiet hmax hfires
    refine .pure ⟨⟨start, rfl, hnext⟩, iff_of_false ?_ hquiet, not_isStorm_d1Finding _ _ _ _⟩
    rw [isEscalation_d1Finding]
    decide

/-! ## The storm window -/

/-- What the counter of a hardware address holds. -/
def InStorm (mac : Mac) (s : ArpAnalyzer) (w : Option Window) : Prop :=
  match s.stormCounters.get? mac with
  | some c => ∃ v, w = some v ∧ Held 64 c.windowStartTs c.countInWindow c.stormEmitted v
  | none => w = none

theorem inStorm_congr {mac : Mac} {s s' : ArpAnalyzer} {w : Option Window}
    (h : s'.stormCounters.get? mac = s.stormCounters.get? mac) (hw : InStorm mac s w) :
    InStorm mac s' w := by
  rw [InStorm, h]
  exact hw

theorem insertStormCounterLru_get (ord : TableOrder) (s : ArpAnalyzer) (mac : Mac)
    (ts : UInt32) :
    (insertStormCounterLru ord s mac ts).stormCounters.get? mac = some ⟨1, ts, false⟩ := by
  simp only [insertStormCounterLru, SortedMap.get?_insert_self]

theorem countStorm_enters (ord : TableOrder) {s : ArpAnalyzer} {mac : Mac} {w : Option Window}
    (h : InStorm mac s w) (ts : UInt32) :
    ∃ c, (countStorm ord s mac ts).stormCounters.get? mac = some c ∧
      Held 64 c.windowStartTs c.countInWindow c.stormEmitted
        (Window.enter arpFlapWindowSecs.toNat w ts.toNat) := by
  unfold InStorm at h
  unfold countStorm
  cases hget : s.stormCounters.get? mac with
  | none =>
    rw [hget] at h
    rw [h]
    exact ⟨_, insertStormCounterLru_get ord s mac ts, Held.of_new 64 (by decide) ts⟩
  | some c =>
    rw [hget] at h
    obtain ⟨v, rfl, hheld⟩ := h
    simp only
    by_cases hpast : saturatingSub ts c.windowStartTs > arpFlapWindowSecs
    · have hnot : ¬ saturatingSub ts c.windowStartTs ≤ arpFlapWindowSecs := by
        rw [UInt32.le_iff_toNat_le]
        rw [gt_iff_lt, UInt32.lt_iff_toNat_lt] at hpast
        omega
      rw [if_neg hnot]
      rw [past_iff, hheld.anchor] at hpast
      exact ⟨_, insertStormCounterLru_get ord s mac ts, Held.enter_past 64 (by decide) hpast⟩
    · have hle : saturatingSub ts c.windowStartTs ≤ arpFlapWindowSecs := by
        rw [UInt32.le_iff_toNat_le]
        rw [gt_iff_lt, UInt32.lt_iff_toNat_lt] at hpast
        omega
      rw [if_pos hle]
      rw [past_iff, hheld.anchor] at hpast
      exact ⟨_, SortedMap.get?_insert_self _ _ _, hheld.enter_within hpast⟩

/-- The quotient of the source, against the product. -/
theorem rate_ge_iff (ts rate : UInt32) {start : UInt32} {count : Nat} {emitted : Bool}
    {v : Window} (h : Held 64 start count emitted v) :
    count / max (saturatingSub ts start).toNat 1 ≥ rate.toNat ↔
      Window.storms rate.toNat v ts.toNat = true := by
  have hpos : 0 < max (saturatingSub ts start).toNat 1 := by omega
  have hmax : max (saturatingSub ts start).toNat 1 = max 1 (ts.toNat - v.anchor) := by
    rw [toNat_saturatingSub, h.anchor, Nat.max_comm]
  have hsmall : rate.toNat * max 1 (ts.toNat - v.anchor) ≤ (2 ^ 32 - 1) * (2 ^ 32 - 1) := by
    refine Nat.mul_le_mul (Nat.le_pred_of_lt rate.toNat_lt) ?_
    have hts := ts.toNat_lt
    omega
  rw [ge_iff_le, Nat.le_div_iff_mul_le hpos, hmax, Window.storms, decide_eq_true_eq, h.count,
    Nat.le_min]
  refine and_iff_left ?_
  omega

theorem checkStorm_storms (ord : TableOrder) {s : ArpAnalyzer} {frame : ArpFrame}
    {w : Option Window} (h : InStorm frame.senderMac s w) (ts : UInt32)
    (hcap : s.stormCounters.size ≤ maxStormCounters) :
    InStorm frame.senderMac (checkStorm ord s frame ts).1
        (some (Window.latch arpFlapWindowSecs.toNat (Window.storms s.stormRate.toNat) w
          ts.toNat)) ∧
      ((checkStorm ord s frame ts).2.any isStorm = true ↔
        Window.Alarms arpFlapWindowSecs.toNat (Window.storms s.stormRate.toNat) w ts.toNat) ∧
      (checkStorm ord s frame ts).2.any isEscalation = false := by
  obtain ⟨c, hget, hheld⟩ := countStorm_enters ord h ts
  have hrate : (countStorm ord s frame.senderMac ts).stormRate = s.stormRate := by
    obtain ⟨counters, evicted, evictions, entry, heq, -⟩ :=
      countStorm_touch ord s frame.senderMac ts hcap
    rw [heq]
  unfold checkStorm detectStorm
  generalize countStorm ord s frame.senderMac ts = s₁ at hget hrate ⊢
  simp only [hget, hrate]
  have hiff := rate_ge_iff ts s.stormRate hheld
  have hfired := hheld.fired
  by_cases hdue : c.countInWindow / max (saturatingSub ts c.windowStartTs).toNat 1 ≥
      s.stormRate.toNat ∧ c.stormEmitted = false
  · rw [if_pos (by simpa using hdue)]
    have hstorms := hiff.mp hdue.1
    refine ⟨?_, iff_of_true ?_ ⟨hstorms, hfired ▸ hdue.2⟩, ?_⟩
    · rw [InStorm]
      simp only [SortedMap.get?_insert_self]
      exact ⟨_, rfl, hheld.anchor, hheld.count, by simp [Window.latch, hstorms]⟩
    · simp [isStorm_stormFinding]
    · simp [not_isEscalation_stormFinding]
  · rw [if_neg (by simpa using hdue)]
    have hnone : ¬ Window.Alarms arpFlapWindowSecs.toNat (Window.storms s.stormRate.toNat) w
        ts.toNat := fun halarm => hdue ⟨hiff.mpr halarm.1, hfired.trans halarm.2⟩
    refine ⟨?_, iff_of_false (by simp) hnone, rfl⟩
    rw [InStorm]
    simp only [hget]
    refine ⟨_, rfl, hheld.anchor, hheld.count, ?_⟩
    rw [hfired, Window.latch]
    cases hlatch : (Window.enter arpFlapWindowSecs.toNat w ts.toNat).fired with
    | true => rfl
    | false =>
      rw [Bool.false_or]
      refine (Bool.not_eq_true _ ▸ fun hstorms => hnone ⟨hstorms, hlatch⟩ :
        Window.storms s.stormRate.toNat _ _ = false).symm

/-! ## One frame -/

/-- What a frame does to the flap window of its sender. -/
structure Rebinds (s : ArpAnalyzer) (frame : ArpFrame) (ts : UInt32) (w : Option Window)
    (r : ArpAnalyzer × List Finding) : Prop where
  conflict : hasConflict s frame = true →
    InFlap frame.senderIp r.1 (some (Window.next arpFlapWindowSecs.toNat s.spoofThreshold.toNat w
      ts.toNat)) ∧
    (r.2.any isEscalation = true ↔
      Window.Fires arpFlapWindowSecs.toNat s.spoofThreshold.toNat w ts.toNat)
  agreed : hasConflict s frame = false →
    InFlap frame.senderIp r.1 w ∧ r.2.any isEscalation = false
  storm : r.2.any isStorm = false

theorem garpFinding_mild (frame : ArpFrame) {summary : String}
    (h : summary.toList.take 3 ≠ "D3:".toList) : Mild (garpFinding frame summary) :=
  ⟨by simp [isEscalation, garpFinding, anomaly], decide_eq_false h⟩

theorem conflictingGarp_rebinds {s : ArpAnalyzer} {frame : ArpFrame} {w : Option Window}
    (hw : InFlap frame.senderIp s w) (ts : UInt32) (hconflict : hasConflict s frame = true) :
    Returns (conflictingGarp s frame ts) (Rebinds s frame ts w) := by
  unfold InFlap at hw
  cases hget : s.bindings.get? frame.senderIp with
  | none =>
    rw [hasConflict_of_none hget] at hconflict
    cases hconflict
  | some entry =>
    rw [hget] at hw
    obtain ⟨r, hr, hnext, hfires, hstorm⟩ := emitD1SpoofFinding_flap hw frame.senderIp entry.mac
      frame.senderMac ts s.spoofThreshold
    unfold conflictingGarp applyGarpConflictEscalation
    simp only [hget, unwrap, ok_bind, hr, SortedMap.get?_insert_self, SortedMap.insert_insert]
    refine .pure ⟨fun _ => ⟨inFlap_of_get (SortedMap.get?_insert_self _ _ _)
      (hnext.same rfl rfl rfl), ?_⟩,
      fun hnot => Bool.noConfusion (hconflict.symm.trans hnot), ?_⟩
    · rw [← hfires]
      simp [isEscalation, garpFinding, anomaly]
    · have hsummary : (garpFinding frame
          ("D2: Gratuitous ARP (GARP) with binding conflict — sender_ip equals target_ip and " ++
            "conflicts with an existing IP→MAC binding")).summary.toList.take 3 =
          "D2:".toList := by
        show (_ ++ _ : String).toList.take 3 = _
        rw [String.toList_append]
        rfl
      simp only [List.any_cons, List.any_nil, hstorm, Bool.or_false]
      rw [isStorm, hsummary]
      decide

theorem benignGarp_rebinds (ord : TableOrder) {s : ArpAnalyzer} {frame : ArpFrame}
    {w : Option Window} (hw : InFlap frame.senderIp s w) (ts : UInt32)
    (hconflict : hasConflict s frame = false) (hcap : s.bindings.size ≤ maxArpBindings) :
    Rebinds s frame ts w (benignGarp ord s frame ts) := by
  have hmild : Mild (garpFinding frame
      "D2: Gratuitous ARP (GARP) — sender_ip equals target_ip") :=
    garpFinding_mild frame (by decide)
  have hflap : InFlap frame.senderIp (benignGarp ord s frame ts).1 w := by
    unfold InFlap at hw
    cases hget : s.bindings.get? frame.senderIp with
    | some entry =>
      rw [hget] at hw
      have hbound : (benignGarp ord s frame ts).1.bindings.get? frame.senderIp =
          some { entry with lastSeenTs := ts, mac := frame.senderMac } := by
        simp only [benignGarp, updateBinding, hget, Option.isNone_some, Bool.false_eq_true,
          if_false, SortedMap.get?_insert_self]
      exact inFlap_of_get hbound (hw.same rfl rfl rfl)
    | none =>
      rw [hget] at hw
      obtain ⟨bindings, evicted, evictions, heq, hput⟩ := insertBinding_put ord
        { s with garpFindings := bump64 s.garpFindings } frame.senderMac hget hcap
      have hbound : (benignGarp ord s frame ts).1.bindings.get? frame.senderIp =
          some ⟨frame.senderMac, 0, none, false, ts⟩ := by
        simp only [benignGarp, updateBinding, hget, Option.isNone_none, if_true, heq,
          hput.get?_self, SortedMap.get?_insert_self]
      refine inFlap_of_get hbound ?_
      rw [hw]
      exact ⟨rfl, rfl, rfl⟩
  refine ⟨fun hyes => Bool.noConfusion (hconflict.symm.trans hyes), fun _ => ⟨hflap, ?_⟩, ?_⟩
  · simp [benignGarp, hmild.escalation]
  · simp [benignGarp, hmild.storm]

theorem bindSender_rebinds (ord : TableOrder) {s : ArpAnalyzer} {frame : ArpFrame}
    {w : Option Window} (hw : InFlap frame.senderIp s w) (ts : UInt32)
    (hcap : s.bindings.size ≤ maxArpBindings) :
    Returns (bindSender ord s frame ts) (Rebinds s frame ts w) := by
  unfold InFlap at hw
  unfold bindSender
  cases hget : s.bindings.get? frame.senderIp with
  | some entry =>
    rw [hget] at hw
    have hconflict := hasConflict_of_some hget
    simp only
    by_cases hmac : entry.mac ≠ frame.senderMac
    · have hseen : FlapWindow { entry with lastSeenTs := ts } w := hw.same rfl rfl rfl
      obtain ⟨r, hr, hnext, hfires, hstorm⟩ := emitD1SpoofFinding_flap hseen frame.senderIp
        entry.mac frame.senderMac ts s.spoofThreshold
      rw [decide_eq_true hmac] at hconflict
      simp only [if_pos hmac, hr, ok_bind, unwrap, SortedMap.get?_insert_self,
        SortedMap.insert_insert]
      refine .pure ⟨fun _ => ⟨inFlap_of_get (SortedMap.get?_insert_self _ _ _)
        (hnext.same rfl rfl rfl), ?_⟩,
        fun hnot => Bool.noConfusion (hconflict.symm.trans hnot), ?_⟩
      · rw [← hfires]
        simp
      · simp [hstorm]
    · rw [decide_eq_false hmac] at hconflict
      simp only [if_neg hmac]
      exact .pure ⟨fun hyes => Bool.noConfusion (hconflict.symm.trans hyes),
        fun _ => ⟨inFlap_of_get (SortedMap.get?_insert_self _ _ _) (hw.same rfl rfl rfl), rfl⟩,
        rfl⟩
  | none =>
    rw [hget] at hw
    have hconflict := hasConflict_of_none hget
    obtain ⟨bindings, evicted, evictions, heq, hput⟩ :=
      insertBinding_put ord s frame.senderMac hget hcap
    simp only [heq, updateBinding, hput.get?_self]
    refine .pure ⟨fun hyes => Bool.noConfusion (hconflict.symm.trans hyes),
      fun _ => ⟨inFlap_of_get (SortedMap.get?_insert_self _ _ _) ?_, rfl⟩, rfl⟩
    rw [hw]
    exact ⟨rfl, rfl, rfl⟩

theorem checkBinding_rebinds (ord : TableOrder) {s : ArpAnalyzer} {frame : ArpFrame}
    {w : Option Window} (hw : InFlap frame.senderIp s w) (ts : UInt32)
    (hcap : s.bindings.size ≤ maxArpBindings) :
    Returns (checkBinding ord s frame ts) (Rebinds s frame ts w) := by
  unfold checkBinding
  cases isGratuitousArp frame with
  | false => exact bindSender_rebinds ord hw ts hcap
  | true =>
    cases hconflict : hasConflict s frame with
    | true => exact conflictingGarp_rebinds hw ts hconflict
    | false => exact .pure (benignGarp_rebinds ord hw ts hconflict hcap)

/-- What a frame does to the two windows of its sender. -/
structure Heeds (s : ArpAnalyzer) (frame : ArpFrame) (ts : UInt32) (w v : Option Window)
    (r : ArpAnalyzer × List Finding) : Prop where
  spoofThreshold : r.1.spoofThreshold = s.spoofThreshold
  stormRate : r.1.stormRate = s.stormRate
  conflict : hasConflict s frame = true →
    InFlap frame.senderIp r.1 (some (Window.next arpFlapWindowSecs.toNat s.spoofThreshold.toNat w
      ts.toNat)) ∧
    (r.2.any isEscalation = true ↔
      Window.Fires arpFlapWindowSecs.toNat s.spoofThreshold.toNat w ts.toNat)
  agreed : hasConflict s frame = false →
    InFlap frame.senderIp r.1 w ∧ r.2.any isEscalation = false
  storm : InStorm frame.senderMac r.1
      (some (Window.latch arpFlapWindowSecs.toNat (Window.storms s.stormRate.toNat) v ts.toNat)) ∧
    (r.2.any isStorm = true ↔
      Window.Alarms arpFlapWindowSecs.toNat (Window.storms s.stormRate.toNat) v ts.toNat)

theorem checkMismatch_mild (s : ArpAnalyzer) (frame : ArpFrame) :
    (checkMismatch s frame).2.any isEscalation = false ∧
      (checkMismatch s frame).2.any isStorm = false := by
  unfold checkMismatch
  cases mismatch frame with
  | none => exact ⟨rfl, rfl⟩
  | some ethMac =>
    have hmild := mild_mismatchFinding frame ethMac
    exact ⟨by simp [hmild.escalation], by simp [hmild.storm]⟩

/-- What a step leaves as it is that does not touch the bindings. -/
structure SameBindings (s s' : ArpAnalyzer) : Prop where
  bindings : s'.bindings = s.bindings
  spoofThreshold : s'.spoofThreshold = s.spoofThreshold
  stormRate : s'.stormRate = s.stormRate

namespace SameBindings

variable {s s' s'' : ArpAnalyzer}

theorem trans (h : SameBindings s s') (h' : SameBindings s' s'') : SameBindings s s'' :=
  ⟨h'.bindings.trans h.bindings, h'.spoofThreshold.trans h.spoofThreshold,
    h'.stormRate.trans h.stormRate⟩

theorem inFlap (h : SameBindings s s') {ip : Ipv4} {w : Option Window} (hw : InFlap ip s w) :
    InFlap ip s' w := by
  refine inFlap_congr ?_ hw
  rw [h.bindings]

theorem hasConflict_eq (h : SameBindings s s') (frame : ArpFrame) :
    hasConflict s' frame = hasConflict s frame := by
  rw [hasConflict, hasConflict, h.bindings]

end SameBindings

/-- The two steps of `process_arp` before it comes to the bindings. -/
theorem checkMismatch_same (s : ArpAnalyzer) (frame : ArpFrame) :
    SameBindings s (checkMismatch (countFrame s frame.operation) frame).1 ∧
      (checkMismatch (countFrame s frame.operation) frame).1.stormCounters = s.stormCounters := by
  rw [(checkMismatch_spec _ frame).1, countFrame_eq]
  exact ⟨⟨rfl, rfl, rfl⟩, rfl⟩

theorem checkStorm_same (ord : TableOrder) {s : ArpAnalyzer} (frame : ArpFrame) (ts : UInt32)
    (hstorms : s.stormCounters.size ≤ maxStormCounters) :
    SameBindings s (checkStorm ord s frame ts).1 := by
  obtain ⟨counters, evicted, evictions, findings, entry, hstorm, -, -⟩ :=
    checkStorm_touch ord s frame ts hstorms
  rw [hstorm]
  exact ⟨rfl, rfl, rfl⟩

theorem processArp_heeds (ord : TableOrder) {s : ArpAnalyzer} {frame : ArpFrame} {ts : UInt32}
    {w v : Option Window} (hignored : isIgnored frame = false)
    (hcap : s.bindings.size ≤ maxArpBindings)
    (hstorms : s.stormCounters.size ≤ maxStormCounters) (hw : InFlap frame.senderIp s w)
    (hv : InStorm frame.senderMac s v) :
    Returns (processArp ord s frame ts) (Heeds s frame ts w v) := by
  unfold processArp
  simp only [hignored, Bool.false_eq_true, if_false]
  obtain ⟨hmismatch, hmild⟩ := checkMismatch_mild (countFrame s frame.operation) frame
  obtain ⟨hsame₁, hcounters₁⟩ := checkMismatch_same s frame
  generalize checkMismatch (countFrame s frame.operation) frame = first at *
  obtain ⟨s₁, found₁⟩ := first
  simp only at hmismatch hmild hsame₁ hcounters₁ ⊢
  rw [← hcounters₁] at hstorms
  have hv₁ : InStorm frame.senderMac s₁ v := inStorm_congr (by rw [hcounters₁]) hv
  have hsame₂ := hsame₁.trans (checkStorm_same ord frame ts hstorms)
  obtain ⟨hnext, hfires, hquiet⟩ := checkStorm_storms ord hv₁ ts hstorms
  generalize checkStorm ord s₁ frame ts = second at *
  obtain ⟨s₂, found₂⟩ := second
  simp only at hsame₂ hnext hfires hquiet ⊢
  rw [← hsame₂.bindings] at hcap
  obtain ⟨r, hr, hbinds⟩ := checkBinding_rebinds ord (hsame₂.inFlap hw) ts hcap
  obtain ⟨r', hr', bindings, evicted', evictions', entry', hkept, -⟩ :=
    checkBinding_binds ord s₂ frame ts hcap
  obtain rfl : r = r' := Except.ok.inj (hr.symm.trans hr')
  have hcounters : r.1.stormCounters = s₂.stormCounters := by rw [hkept]
  rw [hr, ok_bind]
  have hescalates : (found₁ ++ found₂ ++ r.2).any isEscalation = r.2.any isEscalation := by
    rw [List.any_append, List.any_append, hmismatch, hquiet]
    rfl
  have hstormy : (found₁ ++ found₂ ++ r.2).any isStorm = found₂.any isStorm := by
    rw [List.any_append, List.any_append, hmild, hbinds.storm, Bool.false_or, Bool.or_false]
  refine .pure ⟨?_, ?_, ?_, ?_, ?_, ?_⟩
  · rw [hkept]
    exact hsame₂.spoofThreshold
  · rw [hkept]
    exact hsame₂.stormRate
  · rw [← hsame₂.hasConflict_eq frame, ← hsame₂.spoofThreshold, hescalates]
    exact hbinds.conflict
  · rw [← hsame₂.hasConflict_eq frame, hescalates]
    exact hbinds.agreed
  · rw [hsame₁.stormRate] at hnext
    rw [InStorm, hcounters]
    exact hnext
  · rw [hstormy, ← hsame₁.stormRate]
    exact hfires

/-! ## The windows of all addresses -/

theorem not_evicted {evicted : Bool} {n n' : Nat} (h : n' = bumpIf evicted n) (hzero : n' = 0) :
    evicted = false := by
  cases evicted with
  | false => rfl
  | true =>
    rw [hzero] at h
    simp only [bumpIf, if_true, saturatingInc] at h
    omega

/-- The tables are within their bounds and hold windows, and the thresholds are these. -/
structure Fits (threshold rate : UInt32) (s : ArpAnalyzer) : Prop where
  bindings : s.bindings.size ≤ maxArpBindings
  counters : s.stormCounters.size ≤ maxStormCounters
  threshold : s.spoofThreshold = threshold
  rate : s.stormRate = rate
  flaps : ∀ ip, ∃ w, InFlap ip s w
  storms : ∀ mac, ∃ w, InStorm mac s w

theorem fits_new (threshold rate : UInt32) : Fits threshold rate (.new threshold rate) where
  bindings := Nat.zero_le _
  counters := Nat.zero_le _
  threshold := rfl
  rate := rfl
  flaps := fun _ => ⟨none, rfl⟩
  storms := fun _ => ⟨none, rfl⟩

section Steps

variable {ord : TableOrder} {threshold rate : UInt32} {s s' : ArpAnalyzer} {a : Arrival}
  {found : List Finding}

theorem processArp_of_ignored (hignored : isIgnored a.frame = true)
    (h : processArp ord s a.frame a.timestampSecs = .ok (s', found)) :
    s' = countFrame s a.frame.operation ∧ found = [] := by
  rw [processArp_ignored ord s a.timestampSecs hignored] at h
  cases h
  exact ⟨rfl, rfl⟩

theorem Fits.processed (hfits : Fits threshold rate s) (hignored : isIgnored a.frame = false)
    (h : processArp ord s a.frame a.timestampSecs = .ok (s', found)) :
    Processed s a.frame a.timestampSecs (s', found) :=
  (processArp_step ord s a.frame a.timestampSecs hignored hfits.bindings hfits.counters).apply h

theorem Fits.heeds (hfits : Fits threshold rate s) (hignored : isIgnored a.frame = false)
    (h : processArp ord s a.frame a.timestampSecs = .ok (s', found)) {w v : Option Window}
    (hw : InFlap a.frame.senderIp s w) (hv : InStorm a.frame.senderMac s v) :
    Heeds s a.frame a.timestampSecs w v (s', found) :=
  (processArp_heeds ord hignored hfits.bindings hfits.counters hw hv).apply h

theorem Fits.returns (hfits : Fits threshold rate s) (ord : TableOrder) (a : Arrival) :
    ∃ r, processArp ord s a.frame a.timestampSecs = .ok r := by
  cases hignored : isIgnored a.frame with
  | true => exact ⟨_, processArp_ignored ord s a.timestampSecs hignored⟩
  | false =>
    obtain ⟨r, hr, -⟩ := processArp_step ord s a.frame a.timestampSecs hignored hfits.bindings
      hfits.counters
    exact ⟨r, hr⟩

theorem Fits.step (hfits : Fits threshold rate s)
    (h : processArp ord s a.frame a.timestampSecs = .ok (s', found)) :
    Fits threshold rate s' := by
  cases hignored : isIgnored a.frame with
  | true =>
    obtain ⟨rfl, -⟩ := processArp_of_ignored hignored h
    rw [countFrame_eq]
    exact ⟨hfits.bindings, hfits.counters, hfits.threshold, hfits.rate, hfits.flaps, hfits.storms⟩
  | false =>
    obtain ⟨w, hw⟩ := hfits.flaps a.frame.senderIp
    obtain ⟨v, hv⟩ := hfits.storms a.frame.senderMac
    have hheeds := hfits.heeds hignored h hw hv
    have hprocessed := hfits.processed hignored h
    obtain ⟨entry, evicted, htouch, -⟩ := hprocessed.bindings
    obtain ⟨counter, evicted', htouch', -⟩ := hprocessed.storms
    refine ⟨htouch.size_le hfits.bindings, htouch'.size_le hfits.counters,
      hheeds.spoofThreshold.trans hfits.threshold, hheeds.stormRate.trans hfits.rate,
      fun ip => ?_, fun mac => ?_⟩
    · by_cases hip : ip = a.frame.senderIp
      · rw [hip]
        cases hconflict : hasConflict s a.frame with
        | true => exact ⟨_, (hheeds.conflict hconflict).1⟩
        | false => exact ⟨_, (hheeds.agreed hconflict).1⟩
      · obtain ⟨w', hw'⟩ := hfits.flaps ip
        rcases htouch.get?_other hip with hsame | ⟨-, hnone⟩
        · exact ⟨w', inFlap_congr hsame hw'⟩
        · exact ⟨none, by rw [InFlap, hnone]⟩
    · by_cases hmac : mac = a.frame.senderMac
      · rw [hmac]
        exact ⟨_, hheeds.storm.1⟩
      · obtain ⟨v', hv'⟩ := hfits.storms mac
        rcases htouch'.get?_other hmac with hsame | ⟨-, hnone⟩
        · exact ⟨v', inStorm_congr hsame hv'⟩
        · exact ⟨none, by rw [InStorm, hnone]⟩

theorem flapStart_of_some {ip : Ipv4} {w : Window} (h : InFlap ip s (some w)) :
    ∃ start, flapStart s ip = some start ∧ start.toNat = w.anchor := by
  unfold InFlap at h
  cases hget : s.bindings.get? ip with
  | none =>
    rw [hget] at h
    cases h
  | some entry =>
    rw [hget] at h
    obtain ⟨start, hstart, hheld⟩ := h
    refine ⟨start, ?_, hheld.anchor⟩
    rw [flapStart, hget]
    exact hstart

theorem flapStart_of_none {ip : Ipv4} (h : InFlap ip s none) : flapStart s ip = none := by
  unfold InFlap at h
  rw [flapStart]
  cases hget : s.bindings.get? ip with
  | none => rfl
  | some entry =>
    rw [hget] at h
    exact h.2.1

theorem stormStart_of_some {mac : Mac} {w : Window} (h : InStorm mac s (some w)) :
    ∃ start, stormStart s mac = some start ∧ start.toNat = w.anchor := by
  unfold InStorm at h
  cases hget : s.stormCounters.get? mac with
  | none =>
    rw [hget] at h
    cases h
  | some c =>
    rw [hget] at h
    obtain ⟨v, hv, hheld⟩ := h
    cases hv
    refine ⟨c.windowStartTs, ?_, hheld.anchor⟩
    rw [stormStart, hget]
    rfl

theorem stormStart_of_none {mac : Mac} (h : InStorm mac s none) : stormStart s mac = none := by
  unfold InStorm at h
  rw [stormStart]
  cases hget : s.stormCounters.get? mac with
  | none => rfl
  | some c =>
    rw [hget] at h
    obtain ⟨v, hv, -⟩ := h
    cases hv

/-- Without an eviction the bindings of all others stay. -/
theorem Fits.binding_kept (hfits : Fits threshold rate s) (hignored : isIgnored a.frame = false)
    (h : processArp ord s a.frame a.timestampSecs = .ok (s', found))
    (hkept : s'.bindingsEvicted = 0) {ip : Ipv4} (hip : a.frame.senderIp ≠ ip) :
    s'.bindings.get? ip = s.bindings.get? ip := by
  obtain ⟨entry, evicted, htouch, -, -, hcount⟩ := (hfits.processed hignored h).bindings
  rcases htouch.get?_other (Ne.symm hip) with hsame | ⟨hevicted, -⟩
  · exact hsame
  · rw [not_evicted hcount hkept] at hevicted
    cases hevicted

theorem Fits.counter_kept (hfits : Fits threshold rate s) (hignored : isIgnored a.frame = false)
    (h : processArp ord s a.frame a.timestampSecs = .ok (s', found))
    (hkept : s'.stormCountersEvicted = 0) {mac : Mac} (hmac : a.frame.senderMac ≠ mac) :
    s'.stormCounters.get? mac = s.stormCounters.get? mac := by
  obtain ⟨counter, evicted, htouch, hcount⟩ := (hfits.processed hignored h).storms
  rcases htouch.get?_other (Ne.symm hmac) with hsame | ⟨hevicted, -⟩
  · exact hsame
  · rw [not_evicted hcount hkept] at hevicted
    cases hevicted

/-- The start that the fields hold tells whether the window is over. -/
theorem past_start {start : Option UInt32} {w : Option Window}
    (hsome : ∀ v, w = some v → ∃ first, start = some first ∧ first.toNat = v.anchor)
    (hnone : w = none → start = none) (ts : UInt32) :
    (start.any fun first => decide (saturatingSub ts first > arpFlapWindowSecs)) = true ↔
      Window.Expired arpFlapWindowSecs.toNat w ts.toNat := by
  cases w with
  | none =>
    rw [hnone rfl]
    exact ⟨fun h => Bool.noConfusion h, fun ⟨v, hv, _⟩ => by cases hv⟩
  | some v =>
    obtain ⟨first, hstart, hanchor⟩ := hsome v rfl
    rw [hstart, Option.any_some]
    exact past_iff_expired hanchor

/-- A frame and the flap window of any address. -/
theorem flap_step (ip : Ipv4) (hfits : Fits threshold rate s)
    (h : processArp ord s a.frame a.timestampSecs = .ok (s', found))
    (hkept : s'.bindingsEvicted = 0) {w : Option Window} (hw : InFlap ip s w) :
    let e : Heard := ⟨a, s, s', found⟩
    ((spoofWatch threshold ip).event e = true → (spoofWatch threshold ip).Explains w e ∧
      InFlap ip s' (some (Window.next arpFlapWindowSecs.toNat threshold.toNat w
        a.timestampSecs.toNat))) ∧
    ((spoofWatch threshold ip).event e = false →
      (spoofWatch threshold ip).fires e = false ∧ InFlap ip s' w) := by
  intro e
  have hresets : (spoofWatch threshold ip).resets e = true ↔
      Window.Expired arpFlapWindowSecs.toNat w a.timestampSecs.toNat :=
    past_start (fun v hv => flapStart_of_some (hv ▸ hw)) (fun hv => flapStart_of_none (hv ▸ hw)) _
  cases hignored : isIgnored a.frame with
  | true =>
    obtain ⟨rfl, rfl⟩ := processArp_of_ignored hignored h
    have hevent : (spoofWatch threshold ip).event e = false := by
      simp [spoofWatch, heardFrom, hignored, e]
    refine ⟨fun hyes => Bool.noConfusion (hevent.symm.trans hyes), fun _ => ⟨?_, ?_⟩⟩
    · simp [spoofWatch, e]
    · rw [countFrame_eq]
      exact hw
  | false =>
    by_cases hip : a.frame.senderIp = ip
    · subst hip
      obtain ⟨v, hv⟩ := hfits.storms a.frame.senderMac
      have hheeds := hfits.heeds hignored h hw hv
      have hfires : (spoofWatch threshold a.frame.senderIp).fires e = found.any isEscalation := by
        simp [spoofWatch, e]
      have hevent : (spoofWatch threshold a.frame.senderIp).event e = hasConflict s a.frame := by
        simp [spoofWatch, heardFrom, hignored, e]
      rw [hevent, hfires]
      have hthreshold := hfits.threshold
      constructor
      · intro hconflict
        obtain ⟨hnext, hiff⟩ := hheeds.conflict hconflict
        rw [hthreshold] at hnext hiff
        obtain ⟨start, hstart, hanchor⟩ := flapStart_of_some hnext
        refine ⟨⟨hfires ▸ hiff, hresets, ?_⟩, hnext⟩
        simp only [spoofWatch, e, hstart, Option.getD_some, hanchor]
        rfl
      · intro hagreed
        exact (hheeds.agreed hagreed).symm
    · have hevent : (spoofWatch threshold ip).event e = false := by
        simp [spoofWatch, heardFrom, hip, e]
      refine ⟨fun hyes => Bool.noConfusion (hevent.symm.trans hyes), fun _ => ⟨?_, ?_⟩⟩
      · simp [spoofWatch, hip, e]
      · exact inFlap_congr (hfits.binding_kept hignored h hkept hip) hw

/-- A frame and the storm window of any address. -/
theorem storm_step (mac : Mac) (hfits : Fits threshold rate s)
    (h : processArp ord s a.frame a.timestampSecs = .ok (s', found))
    (hkept : s'.stormCountersEvicted = 0) {w : Option Window} (hw : InStorm mac s w) :
    let e : Heard := ⟨a, s, s', found⟩
    ((stormWatch rate mac).event e = true →
      (stormWatch rate mac).Shows (Window.storms rate.toNat) w e ∧
      InStorm mac s' (some (Window.latch arpFlapWindowSecs.toNat (Window.storms rate.toNat) w
        a.timestampSecs.toNat))) ∧
    ((stormWatch rate mac).event e = false →
      (stormWatch rate mac).fires e = false ∧ InStorm mac s' w) := by
  intro e
  have hresets : (stormWatch rate mac).resets e = true ↔
      Window.Expired arpFlapWindowSecs.toNat w a.timestampSecs.toNat :=
    past_start (fun v hv => stormStart_of_some (hv ▸ hw)) (fun hv => stormStart_of_none (hv ▸ hw))
      _
  cases hignored : isIgnored a.frame with
  | true =>
    obtain ⟨rfl, rfl⟩ := processArp_of_ignored hignored h
    have hevent : (stormWatch rate mac).event e = false := by
      simp [stormWatch, sentBy, hignored, e]
    refine ⟨fun hyes => Bool.noConfusion (hevent.symm.trans hyes), fun _ => ⟨?_, ?_⟩⟩
    · simp [stormWatch, e]
    · rw [countFrame_eq]
      exact hw
  | false =>
    by_cases hmac : a.frame.senderMac = mac
    · subst hmac
      obtain ⟨v, hv⟩ := hfits.flaps a.frame.senderIp
      have hheeds := hfits.heeds hignored h hv hw
      have hfires : (stormWatch rate a.frame.senderMac).fires e = found.any isStorm := by
        simp [stormWatch, e]
      have hevent : (stormWatch rate a.frame.senderMac).event e = true := by
        simp [stormWatch, sentBy, hignored, e]
      refine ⟨fun _ => ?_, fun hnot => Bool.noConfusion (hevent.symm.trans hnot)⟩
      obtain ⟨hnext, hiff⟩ := hheeds.storm
      rw [hfits.rate] at hnext hiff
      obtain ⟨start, hstart, hanchor⟩ := stormStart_of_some hnext
      refine ⟨⟨hfires ▸ hiff, hresets, ?_⟩, hnext⟩
      simp only [stormWatch, e, hstart, Option.getD_some, hanchor]
      rfl
    · have hevent : (stormWatch rate mac).event e = false := by
        simp [stormWatch, sentBy, hmac, e]
      refine ⟨fun hyes => Bool.noConfusion (hevent.symm.trans hyes), fun _ => ⟨?_, ?_⟩⟩
      · simp [stormWatch, hmac, e]
      · exact inStorm_congr (hfits.counter_kept hignored h hkept hmac) hw

end Steps

/-! ## Captures -/

section Captures

variable {ord : TableOrder} {threshold rate : UInt32}

/-- A property of the logs of all runs that do not leave the good states, and what is known of the
states meanwhile. -/
theorem listen_rule {α : Type} {F : α → List Heard → Prop} {R : ArpAnalyzer → α → Prop}
    (good : ArpAnalyzer → Prop) (hnil : ∀ w, F w [])
    (hcons : ∀ {s a s' found w}, Fits threshold rate s →
      processArp ord s a.frame a.timestampSecs = .ok (s', found) → good s' → R s w →
      ∃ w', R s' w' ∧ ∀ log, F w' log → F w (⟨a, s, s', found⟩ :: log))
    {s : ArpAnalyzer} {arrivals : List Arrival} {log : List Heard} {w : α}
    (hfits : Fits threshold rate s) (h : listen ord s arrivals = .ok log)
    (hgood : ∀ e ∈ log, good e.after) (hR : R s w) : F w log := by
  induction arrivals generalizing s log w with
  | nil =>
    cases h
    exact hnil w
  | cons a arrivals ih =>
    obtain ⟨⟨s', found⟩, hstep, h⟩ := bind_eq_ok.mp h
    obtain ⟨rest, hrest, h⟩ := bind_eq_ok.mp h
    cases h
    rw [List.forall_mem_cons] at hgood
    obtain ⟨w', hR', hF⟩ := hcons hfits hstep hgood.1 hR
    exact hF rest (ih (hfits.step hstep) hrest hgood.2 hR')

theorem listen_returns (ord : TableOrder) {s : ArpAnalyzer} (hfits : Fits threshold rate s)
    (arrivals : List Arrival) : ∃ log, listen ord s arrivals = .ok log := by
  induction arrivals generalizing s with
  | nil => exact ⟨[], rfl⟩
  | cons a arrivals ih =>
    obtain ⟨⟨s', found⟩, hstep⟩ := hfits.returns ord a
    obtain ⟨log, hlog⟩ := ih (hfits.step hstep)
    exact ⟨_, bind_eq_ok.mpr ⟨(s', found), hstep, bind_eq_ok.mpr ⟨log, hlog, rfl⟩⟩⟩

theorem listen_arrivals {s : ArpAnalyzer} {arrivals : List Arrival} {log : List Heard}
    (h : listen ord s arrivals = .ok log) : log.map Heard.arrival = arrivals := by
  induction arrivals generalizing s log with
  | nil =>
    cases h
    rfl
  | cons a arrivals ih =>
    obtain ⟨⟨s', found⟩, -, h⟩ := bind_eq_ok.mp h
    obtain ⟨rest, hrest, h⟩ := bind_eq_ok.mp h
    cases h
    rw [List.map_cons, ih hrest]

/-- Timestamps do not decrease. -/
def InOrder (arrivals : List Arrival) : Prop :=
  arrivals.Pairwise fun a b => a.timestampSecs ≤ b.timestampSecs

theorem ordered_of_inOrder {W : Watch Heard} (hW : ∀ e, W.time e = e.timestampSecs.toNat)
    {log : List Heard} (h : InOrder (log.map Heard.arrival)) : W.Ordered log := by
  refine (List.pairwise_map.mp h).imp fun hle => ?_
  rw [hW, hW]
  exact UInt32.le_iff_toNat_le.mp hle

theorem spoof_follows (ip : Ipv4) {arrivals : List Arrival} {log : List Heard}
    (h : listen ord (.new threshold rate) arrivals = .ok log)
    (hkept : ∀ e ∈ log, e.after.bindingsEvicted = 0) :
    (spoofWatch threshold ip).Follows none log := by
  refine listen_rule (R := InFlap ip) (fun s => s.bindingsEvicted = 0) (fun _ => trivial) ?_
    (fits_new threshold rate) h hkept rfl
  intro s a s' found w hfits hstep hgood hw
  obtain ⟨hevent, hother⟩ := flap_step ip hfits hstep hgood hw
  cases hrebind : (spoofWatch threshold ip).event ⟨a, s, s', found⟩ with
  | true =>
    obtain ⟨hexplains, hnext⟩ := hevent hrebind
    exact ⟨_, hnext, fun log hlog => (Watch.follows_cons hrebind).mpr ⟨hexplains, hlog⟩⟩
  | false =>
    obtain ⟨hquiet, hsame⟩ := hother hrebind
    exact ⟨w, hsame, fun log hlog => (Watch.follows_cons_of_not hrebind).mpr ⟨hquiet, hlog⟩⟩

theorem storm_latches (mac : Mac) {arrivals : List Arrival} {log : List Heard}
    (h : listen ord (.new threshold rate) arrivals = .ok log)
    (hkept : ∀ e ∈ log, e.after.stormCountersEvicted = 0) :
    (stormWatch rate mac).Latches (Window.storms rate.toNat) none log := by
  refine listen_rule (R := InStorm mac) (fun s => s.stormCountersEvicted = 0) (fun _ => trivial) ?_
    (fits_new threshold rate) h hkept rfl
  intro s a s' found w hfits hstep hgood hw
  obtain ⟨hevent, hother⟩ := storm_step mac hfits hstep hgood hw
  cases hsent : (stormWatch rate mac).event ⟨a, s, s', found⟩ with
  | true =>
    obtain ⟨hshows, hnext⟩ := hevent hsent
    exact ⟨_, hnext, fun log hlog => (Watch.latches_cons hsent).mpr ⟨hshows, hlog⟩⟩
  | false =>
    obtain ⟨hquiet, hsame⟩ := hother hsent
    exact ⟨w, hsame, fun log hlog => (Watch.latches_cons_of_not hsent).mpr ⟨hquiet, hlog⟩⟩

theorem Binding.step {s s' : ArpAnalyzer} {past : List ArpFrame} {a : Arrival}
    {found : List Finding} (hbinding : Binding s past) (hfits : Fits threshold rate s)
    (h : processArp ord s a.frame a.timestampSecs = .ok (s', found))
    (hkept : s'.bindingsEvicted = 0) : Binding s' (past ++ [a.frame]) := by
  intro ip
  rw [latestMac_snoc, heardFrom]
  cases hignored : isIgnored a.frame with
  | true =>
    obtain ⟨rfl, -⟩ := processArp_of_ignored hignored h
    rw [countFrame_eq]
    exact hbinding ip
  | false =>
    by_cases hip : a.frame.senderIp = ip
    · subst hip
      obtain ⟨entry, evicted, htouch, hmac, -⟩ := (hfits.processed hignored h).bindings
      rw [htouch.get?_self]
      simp [hmac]
    · rw [hfits.binding_kept hignored h hkept hip, hbinding ip]
      simp [hip]

/-- The rebinds are what the frames say. -/
theorem listen_rebinds {arrivals : List Arrival} {log : List Heard}
    (h : listen ord (.new threshold rate) arrivals = .ok log)
    (hkept : ∀ e ∈ log, e.after.bindingsEvicted = 0) :
    ∀ before e after, log = before ++ e :: after →
      (!isIgnored e.frame && hasConflict e.before e.frame) =
        isRebind (before.map Heard.frame) e.frame := by
  have hall : ∀ before e after, log = before ++ e :: after →
      (!isIgnored e.frame && hasConflict e.before e.frame) =
        isRebind ([] ++ before.map Heard.frame) e.frame := by
    have hnew : Binding (.new threshold rate) [] := fun _ => rfl
    refine listen_rule (R := Binding) (F := fun past log => ∀ before e after,
      log = before ++ e :: after → (!isIgnored e.frame && hasConflict e.before e.frame) =
        isRebind (past ++ before.map Heard.frame) e.frame) (fun s => s.bindingsEvicted = 0) ?_ ?_
      (fits_new threshold rate) h hkept hnew
    · intro past before e after hlog
      exact absurd hlog.symm (by simp)
    · intro s a s' found past hfits hstep hgood hbinding
      refine ⟨past ++ [a.frame], hbinding.step hfits hstep hgood, fun log hlog => ?_⟩
      intro before e after hsplit
      cases before with
      | nil =>
        obtain ⟨rfl, rfl⟩ := List.cons.inj hsplit
        rw [List.map_nil, List.append_nil]
        exact (hbinding.isRebind_eq a.frame).symm
      | cons x before =>
        obtain ⟨rfl, hrest⟩ := List.cons.inj hsplit
        rw [hlog before e after hrest, List.append_assoc]
        rfl
  exact hall

/-- No table has lost an entry so far. -/
def NoEviction (s : ArpAnalyzer) : Prop := s.bindingsEvicted = 0 ∧ s.stormCountersEvicted = 0

instance (s : ArpAnalyzer) : Decidable (NoEviction s) := inferInstanceAs (Decidable (_ ∧ _))

/-- What the two detectors do over a log. -/
structure Alarmed (threshold rate : UInt32) (log : List Heard) : Prop where
  rebinds : ∀ before e after, log = before ++ e :: after →
    (!isIgnored e.frame && hasConflict e.before e.frame) =
      isRebind (before.map Heard.frame) e.frame
  spoofSound : ∀ ip, (spoofWatch threshold ip).Sound log
  spoofPrompt : ∀ ip, (spoofWatch threshold ip).Prompt log
  spoofSingle : ∀ ip, (spoofWatch threshold ip).Single log
  stormSound : ∀ mac, (stormWatch rate mac).RateSound log
  stormSingle : ∀ mac, (stormWatch rate mac).RateSingle log

/-- Escalations and storms are right and come once, over any frames in the order of their
timestamps. -/
theorem run_alarms (ord : TableOrder) (threshold rate : UInt32) (hthreshold : 1 ≤ threshold.toNat)
    (hrate : 1 ≤ rate.toNat) (arrivals : List Arrival) (horder : InOrder arrivals) :
    Returns (listen ord (.new threshold rate) arrivals) fun log =>
      log.map Heard.arrival = arrivals ∧
        ((∀ e ∈ log, NoEviction e.after) → Alarmed threshold rate log) := by
  obtain ⟨log, h⟩ := listen_returns ord (fits_new threshold rate) arrivals
  have harrivals := listen_arrivals h
  rw [← harrivals] at horder
  refine ⟨log, h, harrivals, fun hkept => ?_⟩
  have hbindings : ∀ e ∈ log, e.after.bindingsEvicted = 0 := fun e he => (hkept e he).1
  have hcounters : ∀ e ∈ log, e.after.stormCountersEvicted = 0 := fun e he => (hkept e he).2
  have hidle : Window.Idle none := fun v hv => by cases hv
  have hspoof : ∀ ip, (spoofWatch threshold ip).Ordered log :=
    fun ip => ordered_of_inOrder (fun _ => rfl) horder
  have hstorm : ∀ mac, (stormWatch rate mac).Rates log := fun mac =>
    (storm_latches mac h hcounters).rates hrate (ordered_of_inOrder (fun _ => rfl) horder)
  exact {
    rebinds := listen_rebinds h hbindings
    spoofSound := fun ip => (spoof_follows ip h hbindings).sound hidle hthreshold (hspoof ip)
    spoofPrompt := fun ip => (spoof_follows ip h hbindings).prompt hidle hthreshold (hspoof ip)
    spoofSingle := fun ip => (spoof_follows ip h hbindings).single
    stormSound := fun mac => (hstorm mac).sound
    stormSingle := fun mac => (hstorm mac).single }

/-- What a test says of a log. -/
theorem listen_all {s : ArpAnalyzer} {arrivals : List Arrival} {log : List Heard}
    (h : listen ord s arrivals = .ok log) (p : Heard → Bool)
    (hall : (listen ord s arrivals).toOption.all (fun log => log.all p) = true) :
    ∀ e ∈ log, p e = true := by
  rw [h] at hall
  exact List.all_eq_true.mp hall

/-- Three frames with two addresses: two rebinds, of which the second one is an escalation. -/
theorem run_alarms_flap :
    ∃ log, listen .plain (.new 2 50) [⟨request 1, 0⟩, ⟨request 2, 1⟩, ⟨request 1, 1⟩] = .ok log ∧
      (∀ e ∈ log, NoEviction e.after) ∧ Alarmed 2 50 log := by
  have horder : InOrder [⟨request 1, 0⟩, ⟨request 2, 1⟩, ⟨request 1, 1⟩] := by
    simp [InOrder]
  obtain ⟨log, h, -, hall⟩ := run_alarms .plain 2 50 (by decide) (by decide) _ horder
  have hkept := listen_all h (fun e => decide (NoEviction e.after)) (by decide)
  exact ⟨log, h, fun e he => of_decide_eq_true (hkept e he),
    hall fun e he => of_decide_eq_true (hkept e he)⟩

/-- A burst of one second is alarmed, unless it comes late in a window that has been quiet. -/
theorem run_storms (ord : TableOrder) (threshold rate : UInt32) (hrate : 1 ≤ rate.toNat)
    (arrivals : List Arrival) (horder : InOrder arrivals) :
    Returns (listen ord (.new threshold rate) arrivals) fun log =>
      log.map Heard.arrival = arrivals ∧
        ((∀ e ∈ log, e.after.stormCountersEvicted = 0) →
          ∀ mac, (stormWatch rate mac).RateComplete log) := by
  obtain ⟨log, h⟩ := listen_returns ord (fits_new threshold rate) arrivals
  have harrivals := listen_arrivals h
  rw [← harrivals] at horder
  refine ⟨log, h, harrivals, fun hkept mac => ?_⟩
  exact (storm_latches mac h hkept).rateComplete hrate (ordered_of_inOrder (fun _ => rfl) horder)

theorem run_storms_burst :
    ∃ log, listen .plain (.new 3 2) [⟨request 1, 0⟩, ⟨request 1, 0⟩] = .ok log ∧
      (∀ e ∈ log, e.after.stormCountersEvicted = 0) ∧ (stormWatch 2 1).RateComplete log := by
  have horder : InOrder [⟨request 1, 0⟩, ⟨request 1, 0⟩] := by simp [InOrder]
  obtain ⟨log, h, -, hall⟩ := run_storms .plain 3 2 (by decide) _ horder
  have hkept := listen_all h (fun e => decide (e.after.stormCountersEvicted = 0)) (by decide)
  exact ⟨log, h, fun e he => of_decide_eq_true (hkept e he),
    hall (fun e he => of_decide_eq_true (hkept e he)) 1⟩

/-- Two frames in the tenth second after a first one, where two for each second are needed. -/
theorem late_burst_missed :
    InOrder [⟨request 1, 0⟩, ⟨request 1, 10⟩, ⟨request 1, 10⟩] ∧
    ∃ log, listen .plain (.new 3 2) [⟨request 1, 0⟩, ⟨request 1, 10⟩, ⟨request 1, 10⟩] = .ok log ∧
      (∀ e ∈ log, e.after.stormCountersEvicted = 0) ∧
      (stormWatch 2 1).needed ≤ log.countP ((stormWatch 2 1).between 10 10) ∧
      ∀ e ∈ log, (stormWatch 2 1).fires e = false := by
  obtain ⟨log, h⟩ := listen_returns .plain (fits_new 3 2)
    [⟨request 1, 0⟩, ⟨request 1, 10⟩, ⟨request 1, 10⟩]
  have hkept := listen_all h (fun e => decide (e.after.stormCountersEvicted = 0)) (by decide)
  have hquiet := listen_all h (fun e => !(stormWatch 2 1).fires e) (by decide)
  have hmany : (listen .plain (.new 3 2)
      [⟨request 1, 0⟩, ⟨request 1, 10⟩, ⟨request 1, 10⟩]).toOption.all (fun log =>
        decide (2 ≤ log.countP ((stormWatch 2 1).between 10 10))) = true := by decide
  rw [h] at hmany
  exact ⟨by simp [InOrder], log, h, fun e he => of_decide_eq_true (hkept e he),
    of_decide_eq_true hmany, fun e he => by simpa using hquiet e he⟩

end Captures

end Wirerust.Arp
