import Wirerust.Lib.Laps
import Wirerust.Analyzer.ModbusFindings

/-!
The sustained write detector (`process_pdu` of `analyzer/modbus.rs`).

Its window is a lap in the sense of `Lib.Lap`: the write that comes two seconds after its start, or
later, is compared with the rate and is the first one of the next lap (`sustainedBurst_lap`). No
other part of `process_pdu` touches its fields (`SameSustained`), so that the log of a flow
follows the detector (`sustained_follows`).
-/

namespace Wirerust.Modbus

open Lib Wirerust.Flow Wirerust.Analyzer

def isSustained (f : Finding) : Bool := evidenceStarts "Sustained write rate exceeded" f

/-- More than `threshold` writes for each second, over two seconds or longer. -/
def sustainedMeter (threshold : UInt32) : Meter Seen where
  width := writeSustainedWindowSecs.toNat
  rate := threshold.toNat
  event := fun e => e.pdu.isWrite
  time := fun e => e.pdu.timestamp.toNat
  fires := fun e => e.raised.any isSustained
  restarts := fun e => e.pdu.isWrite && decide (e.before.sustainedWindowWriteCount ≠ 0 ∧
    saturatingSub e.pdu.timestamp e.before.sustainedWindowStartTs ≥ writeSustainedWindowSecs)

/-! ## The detector -/

/-- What the fields of the sustained window hold. -/
def InLap (flow : ModbusFlowState) : Option Lap → Prop
  | none => flow.sustainedWindowWriteCount = 0
  | some l => flow.sustainedWindowStartTs.toNat = l.start ∧
    flow.sustainedWindowWriteCount = l.count ∧ 0 < l.count ∧ flow.sustainedBurstEmitted = false

theorem elapsed_ge_iff (ts start : UInt32) :
    saturatingSub ts start ≥ writeSustainedWindowSecs ↔
      start.toNat + writeSustainedWindowSecs.toNat ≤ ts.toNat := by
  have htwo : writeSustainedWindowSecs.toNat = 2 := rfl
  rw [ge_iff_le, UInt32.le_iff_toNat_le, toNat_saturatingSub]
  omega

theorem sustainedBurst_lap (threshold : UInt32) {flow : ModbusFlowState} (p : Pdu)
    {l : Option Lap} (hlap : InLap flow l) (hcount : flow.sustainedWindowWriteCount + 1 < 2 ^ 32) :
    InLap (sustainedBurst threshold flow p).1
        (some (Lap.next writeSustainedWindowSecs.toNat l p.timestamp.toNat)) ∧
      (sustainedBurst threshold flow p).2.length ≤ 1 ∧
      ((sustainedBurst threshold flow p).2 ≠ [] ↔
        Lap.Fires writeSustainedWindowSecs.toNat threshold.toNat l p.timestamp.toNat) := by
  unfold sustainedBurst
  cases l with
  | none =>
    have hzero : flow.sustainedWindowWriteCount = 0 := hlap
    rw [if_pos hzero]
    exact ⟨⟨rfl, rfl, Nat.one_pos, rfl⟩, Nat.zero_le 1, by simp [Lap.Fires]⟩
  | some l =>
    obtain ⟨hstart, hheld, hpos, hemitted⟩ := hlap
    have hbump : bump32 flow.sustainedWindowWriteCount = l.count + 1 := by
      rw [bump32, saturatingInc]
      omega
    have helapsed : (saturatingSub p.timestamp flow.sustainedWindowStartTs).toNat =
        p.timestamp.toNat - l.start := by rw [toNat_saturatingSub, hstart]
    rw [if_neg (by omega)]
    simp only [hbump, hemitted, Lap.fires_some, elapsed_ge_iff, hstart]
    by_cases hends : l.start + writeSustainedWindowSecs.toNat ≤ p.timestamp.toNat
    · rw [Lap.next_of_le hends]
      simp only [if_pos hends]
      by_cases hfires : threshold.toNat * (p.timestamp.toNat - l.start) < l.count + 1
      · simp [hends, hfires, helapsed, InLap]
      · simp [hfires, helapsed, InLap]
    · rw [Lap.next_of_lt (Nat.lt_of_not_le hends)]
      simp [hends, hstart, InLap]

/-! ## What leaves it alone -/

structure SameSustained (flow flow' : ModbusFlowState) : Prop where
  start : flow'.sustainedWindowStartTs = flow.sustainedWindowStartTs
  count : flow'.sustainedWindowWriteCount = flow.sustainedWindowWriteCount
  emitted : flow'.sustainedBurstEmitted = flow.sustainedBurstEmitted

theorem SameSustained.trans {a b c : ModbusFlowState} (h : SameSustained a b)
    (h' : SameSustained b c) : SameSustained a c :=
  ⟨h'.start.trans h.start, h'.count.trans h.count, h'.emitted.trans h.emitted⟩

theorem SameSustained.lap {flow flow' : ModbusFlowState} (h : SameSustained flow flow')
    {l : Option Lap} (hlap : InLap flow l) : InLap flow' l := by
  cases l with
  | none => exact h.count.trans hlap
  | some l =>
    obtain ⟨hstart, hcount, hpos, hemitted⟩ := hlap
    exact ⟨h.start ▸ hstart, h.count.trans hcount, hpos, h.emitted.trans hemitted⟩

theorem registerRequest_sustained (s : ModbusAnalyzer) (flow : ModbusFlowState) (p : Pdu) :
    SameSustained flow (registerRequest s flow p).2 := by
  by_cases hfc : classifyFc p.fc ≠ .exception
  · cases hget : flow.pending.get? p.txnKey with
    | some old =>
      rw [registerRequest_of_some hfc hget]
      exact ⟨rfl, rfl, rfl⟩
    | none =>
      by_cases hfull : maxPendingTransactions ≤ flow.pending.size
      · rw [registerRequest_of_full hfc hget hfull]
        exact ⟨rfl, rfl, rfl⟩
      · rw [registerRequest_of_room hfc hget hfull]
        exact ⟨rfl, rfl, rfl⟩
  · rw [registerRequest, if_neg hfc]
    exact ⟨rfl, rfl, rfl⟩

theorem coordinatedWrite_sustained (flow : ModbusFlowState) (p : Pdu) :
    SameSustained flow (coordinatedWrite flow p).1 := by
  unfold coordinatedWrite
  split
  · split
    · exact ⟨rfl, rfl, rfl⟩
    · simp only
      split <;> exact ⟨rfl, rfl, rfl⟩
  · exact ⟨rfl, rfl, rfl⟩

theorem writeBurst_sustained (threshold : UInt32) (flow : ModbusFlowState) (p : Pdu) :
    SameSustained flow (writeBurst threshold flow p).1 := by
  unfold writeBurst
  split
  · exact ⟨rfl, rfl, rfl⟩
  · simp only
    split <;> exact ⟨rfl, rfl, rfl⟩

theorem exceptionFlow_sustained (flow : ModbusFlowState) (p : Pdu) :
    SameSustained flow (exceptionFlow flow p) := by
  rw [exceptionFlow, attributeException_fst]
  split <;> exact ⟨rfl, rfl, rfl⟩

theorem exceptionBurst_sustained {flow flow' : ModbusFlowState} {p : Pdu} {found : List Finding}
    (h : exceptionBurst flow p = .ok (flow', found)) : SameSustained flow flow' := by
  unfold exceptionBurst at h
  simp only at h
  split at h
  · cases h
    exact ⟨rfl, rfl, rfl⟩
  · obtain ⟨⟨counts, count⟩, -, h⟩ := bind_eq_ok.mp h
    simp only at h
    split at h
    · cases h
      exact ⟨rfl, rfl, rfl⟩
    · cases h
      exact ⟨rfl, rfl, rfl⟩

theorem Begins.not_sustained {f : Finding} {c : Char} (h : Begins c f) (hne : 'S' ≠ c) :
    isSustained f = false :=
  h.evidenceStarts (by decide) hne

/-- The findings of the other rules. -/
theorem RaisedBy.not_sustained {p : Pdu} {f : Finding} (h : RaisedBy p f)
    (hwrite : p.isWrite = false) : isSustained f = false := by
  cases h with
  | recon h => exact (reconFindings_begins p f h).1.not_sustained (by decide)
  | write coordinated hyes h => exact Bool.noConfusion (hwrite.symm.trans hyes)
  | burst hyes h => exact Bool.noConfusion (hwrite.symm.trans hyes)
  | sustained hyes h => exact Bool.noConfusion (hwrite.symm.trans hyes)
  | exception excCode count h =>
    rw [h]
    exact (exceptionFinding_begins p excCode count).not_sustained (by decide)
  | diagnostic h => exact (diagnosticFindings_begins p f h).1.not_sustained (by decide)

theorem filter_none {found : List Finding} (h : ∀ f ∈ found, isSustained f = false) :
    found.filter isSustained = [] :=
  List.filter_eq_nil_iff.mpr fun f hf => by simp [h f hf]

/-! ## One PDU -/

/-- A write runs the sustained detector once, and nothing else does. -/
structure Runs (threshold : UInt32) (flow flow' : ModbusFlowState) (p : Pdu)
    (raised : List Finding) : Prop where
  write : p.isWrite = true → ∃ flow₁, SameSustained flow flow₁ ∧
    flow' = (sustainedBurst threshold flow₁ p).1 ∧
    raised.filter isSustained = (sustainedBurst threshold flow₁ p).2
  other : p.isWrite = false → SameSustained flow flow' ∧ raised.filter isSustained = []

theorem processWrite_runs (s : ModbusAnalyzer) (flow : ModbusFlowState) (p : Pdu) :
    ∃ flow₁, SameSustained flow flow₁ ∧
      (processWrite s flow p).2.1 = (sustainedBurst s.writeSustainedThreshold flow₁ p).1 ∧
      (processWrite s flow p).2.2.filter isSustained =
        (sustainedBurst s.writeSustainedThreshold flow₁ p).2 := by
  obtain ⟨flow₁, hflow₁⟩ : ∃ flow₁, { flow with writeCount := bump64 flow.writeCount } = flow₁ :=
    ⟨_, rfl⟩
  have hcounted : SameSustained flow flow₁ := by
    rw [← hflow₁]
    exact ⟨rfl, rfl, rfl⟩
  obtain ⟨flow₂, hflow₂⟩ : ∃ flow₂, (coordinatedWrite flow₁ p).1 = flow₂ := ⟨_, rfl⟩
  obtain ⟨flow₃, hflow₃⟩ : ∃ flow₃, (writeBurst s.writeBurstThreshold flow₂ p).1 = flow₃ :=
    ⟨_, rfl⟩
  have hsplit : (processWrite s flow p).2 =
      ((sustainedBurst s.writeSustainedThreshold flow₃ p).1,
        writeFinding p (coordinatedWrite flow₁ p).2 ::
          ((writeBurst s.writeBurstThreshold flow₂ p).2 ++
            (sustainedBurst s.writeSustainedThreshold flow₃ p).2)) := by
    subst hflow₃ hflow₂ hflow₁
    simp only [processWrite]
  rw [hsplit]
  refine ⟨flow₃, ?_, rfl, ?_⟩
  · rw [← hflow₃, ← hflow₂]
    exact (hcounted.trans (coordinatedWrite_sustained flow₁ p)).trans
      (writeBurst_sustained s.writeBurstThreshold _ p)
  · have hwrite := (writeFinding_begins p (coordinatedWrite flow₁ p).2).not_sustained (by decide)
    have hnone := filter_none fun f hf =>
      ((writeBurst_found s.writeBurstThreshold flow₂ p f hf).begins
        (c := 'B') (by decide)).not_sustained (by decide)
    have hall := List.filter_eq_self.mpr fun f hf =>
      (sustainedBurst_found s.writeSustainedThreshold flow₃ p f hf).starts
    rw [List.filter_cons_of_neg (by simp [hwrite]), List.filter_append, hnone, List.nil_append]
    exact hall

theorem processRequest_runs (s : ModbusAnalyzer) (flow : ModbusFlowState) {p : Pdu}
    (hdir : p.direction = .clientToServer) :
    Runs s.writeSustainedThreshold flow (processRequest s flow p).2.1 p
      (processRequest s flow p).2.2 := by
  have hraises := processRequest_raises s flow hdir
  have hkept := registerRequest_sustained s flow p
  have hthresholds := registerRequest_thresholds s flow p
  unfold processRequest at hraises ⊢
  generalize registerRequest s flow p = r at hraises hkept hthresholds ⊢
  obtain ⟨s₁, flow₁⟩ := r
  simp only at hraises hkept hthresholds ⊢
  cases hclass : classifyFc p.fc with
  | write =>
    have hwrite : p.isWrite = true := by simp [Pdu.isWrite, hdir, hclass]
    refine ⟨fun _ => ?_, fun hnot => Bool.noConfusion (hwrite.symm.trans hnot)⟩
    obtain ⟨flow₂, hsame, hflow', hfound⟩ := processWrite_runs s₁ flow₁ p
    rw [hthresholds.2] at hflow' hfound
    exact ⟨flow₂, hkept.trans hsame, hflow', hfound⟩
  | _ =>
    have hwrite : p.isWrite = false := by simp [Pdu.isWrite, hclass]
    rw [hclass] at hraises
    refine ⟨fun hyes => Bool.noConfusion (hwrite.symm.trans hyes), fun _ => ⟨hkept, ?_⟩⟩
    exact filter_none fun f hf => (hraises f hf).not_sustained hwrite

theorem processResponse_runs {s s' : ModbusAnalyzer} {flow flow' : ModbusFlowState} {p : Pdu}
    {found : List Finding} (threshold : UInt32) (hdir : p.direction = .serverToClient)
    (h : processResponse s flow p = .ok (s', flow', found)) :
    Runs threshold flow flow' p found := by
  have hwrite : p.isWrite = false := by simp [Pdu.isWrite, hdir]
  have hraises := processResponse_raises h
  refine ⟨fun hyes => Bool.noConfusion (hwrite.symm.trans hyes), fun _ => ⟨?_, ?_⟩⟩
  · by_cases hfc : classifyFc p.fc = .exception
    · rw [processResponse_of_exception s flow hfc] at h
      obtain ⟨⟨flow₂, found₂⟩, hburst, hout⟩ := bind_eq_ok.mp h
      cases hout
      exact (exceptionFlow_sustained flow p).trans (exceptionBurst_sustained hburst)
    · rw [processResponse, if_neg hfc] at h
      cases h
      exact ⟨rfl, rfl, rfl⟩
  · exact filter_none fun f hf => (hraises f hf).not_sustained hwrite

theorem Runs.after {threshold : UInt32} {flow flow₁ flow' : ModbusFlowState} {p : Pdu}
    {before found : List Finding} (hsame : SameSustained flow flow₁)
    (hnone : before.filter isSustained = []) (h : Runs threshold flow₁ flow' p found) :
    Runs threshold flow flow' p (before ++ found) := by
  constructor
  · intro hwrite
    obtain ⟨flow₂, hkept, hflow', hfound⟩ := h.write hwrite
    refine ⟨flow₂, hsame.trans hkept, hflow', ?_⟩
    rw [List.filter_append, hnone]
    exact hfound
  · intro hwrite
    obtain ⟨hkept, hfound⟩ := h.other hwrite
    rw [List.filter_append, hnone]
    exact ⟨hsame.trans hkept, hfound⟩

theorem processPdu_runs {s s' : ModbusAnalyzer} {flow flow' : ModbusFlowState} {p : Pdu}
    {raised : List Finding} (h : processPdu s flow p = .ok (s', flow', raised)) :
    Runs s.writeSustainedThreshold flow flow' p raised := by
  unfold processPdu at h
  obtain ⟨⟨s₁, flow₁⟩, hcount, h⟩ := bind_eq_ok.mp h
  obtain ⟨⟨s₂, flow₂, found⟩, hbody, hout⟩ := bind_eq_ok.mp h
  obtain ⟨hsame, hthreshold⟩ : SameSustained flow flow₁ ∧
      s₁.writeSustainedThreshold = s.writeSustainedThreshold := by
    obtain ⟨m, hcountEq⟩ := countPdu_eq s flow p
    obtain ⟨r, -, hcounted⟩ := bind_eq_ok.mp (hcountEq.symm.trans hcount)
    cases hcounted
    exact ⟨⟨rfl, rfl, rfl⟩, rfl⟩
  cases hout
  have hrecon : (reconFindings p).filter isSustained = [] :=
    filter_none fun f hf => (reconFindings_begins p f hf).1.not_sustained (by decide)
  refine Runs.after hsame hrecon ?_
  simp only [processDirected] at hbody
  cases hdir : p.direction with
  | clientToServer =>
    rw [hdir] at hbody
    have hruns := processRequest_runs s₁ flow₁ hdir
    rw [Except.ok.inj hbody, hthreshold] at hruns
    exact hruns
  | serverToClient =>
    rw [hdir] at hbody
    exact processResponse_runs s.writeSustainedThreshold hdir hbody

/-! ## Along a log -/

theorem processPdu_lap {s s' : ModbusAnalyzer} {flow flow' : ModbusFlowState} {p : Pdu}
    {raised : List Finding} (h : processPdu s flow p = .ok (s', flow', raised)) {l : Option Lap}
    (hlap : InLap flow l) (hcount : flow.sustainedWindowWriteCount + p.isWrite.toNat < 2 ^ 32) :
    (raised.filter isSustained).length ≤ 1 ∧
      (p.isWrite = true →
        InLap flow' (some (Lap.next writeSustainedWindowSecs.toNat l p.timestamp.toNat)) ∧
        (raised.any isSustained = true ↔ Lap.Fires writeSustainedWindowSecs.toNat
          s.writeSustainedThreshold.toNat l p.timestamp.toNat)) ∧
      (p.isWrite = false → InLap flow' l ∧ raised.any isSustained = false) := by
  have hany : raised.any isSustained = true ↔ raised.filter isSustained ≠ [] := by
    rw [List.any_eq_true, ne_eq, List.filter_eq_nil_iff]
    simp
  have hruns := processPdu_runs h
  cases hwrite : p.isWrite with
  | true =>
    rw [hwrite] at hcount
    obtain ⟨flow₁, hsame, hflow', hfound⟩ := hruns.write hwrite
    have hcount₁ : flow₁.sustainedWindowWriteCount + 1 < 2 ^ 32 := by
      rw [hsame.count]
      exact hcount
    obtain ⟨hnext, hone, hfires⟩ :=
      sustainedBurst_lap s.writeSustainedThreshold p (hsame.lap hlap) hcount₁
    rw [hany, hfound, hflow']
    exact ⟨hone, fun _ => ⟨hnext, hfires⟩, fun hnot => Bool.noConfusion hnot⟩
  | false =>
    obtain ⟨hsame, hfound⟩ := hruns.other hwrite
    have hquiet : raised.any isSustained = false := by
      rw [← Bool.not_eq_true, hany, hfound]
      exact fun hne => hne rfl
    rw [hfound]
    exact ⟨Nat.zero_le 1, fun hyes => Bool.noConfusion hyes, fun _ => ⟨hsame.lap hlap, hquiet⟩⟩

theorem InLap.count_le {flow flow' : ModbusFlowState} {l : Option Lap} {t : Nat}
    (h : InLap flow l) (h' : InLap flow' (some (Lap.next writeSustainedWindowSecs.toNat l t))) :
    flow'.sustainedWindowWriteCount ≤ flow.sustainedWindowWriteCount + 1 := by
  have hnext : flow'.sustainedWindowWriteCount =
      (Lap.next writeSustainedWindowSecs.toNat l t).count := h'.2.1
  rw [hnext]
  cases l with
  | none => exact Nat.succ_le_succ (Nat.zero_le _)
  | some l =>
    have hcount : flow.sustainedWindowWriteCount = l.count := h.2.1
    rw [hcount, Lap.next]
    split
    · exact Nat.succ_le_succ (Nat.zero_le _)
    · exact Nat.le_refl _

theorem sustained_follows {threshold : UInt32} {s : ModbusAnalyzer} {flow : ModbusFlowState}
    {l : Option Lap} {pdus : List Pdu} {log : List Seen}
    (hthreshold : s.writeSustainedThreshold = threshold) (hlap : InLap flow l)
    (hcount : flow.sustainedWindowWriteCount + pdus.countP Pdu.isWrite < 2 ^ 32)
    (h : observe s flow pdus = .ok log) :
    (sustainedMeter threshold).Follows l log ∧
      ∀ e ∈ log, (e.raised.filter isSustained).length ≤ 1 := by
  induction pdus generalizing s flow l log with
  | nil =>
    cases h
    exact ⟨trivial, fun e he => absurd he List.not_mem_nil⟩
  | cons p pdus ih =>
    obtain ⟨⟨s', flow', raised⟩, hpdu, h⟩ := bind_eq_ok.mp h
    obtain ⟨rest, hrest, h⟩ := bind_eq_ok.mp h
    cases h
    have hthreshold' := (processPdu_effect hpdu).1.2.trans hthreshold
    have hsplit : (p :: pdus).countP Pdu.isWrite =
        p.isWrite.toNat + pdus.countP Pdu.isWrite := by
      rw [List.countP_cons, Nat.add_comm]
      cases p.isWrite <;> rfl
    rw [hsplit] at hcount
    obtain ⟨hone, hyes, hno⟩ := processPdu_lap hpdu hlap (by omega)
    rw [hthreshold] at hyes
    rw [List.forall_mem_cons]
    cases hwrite : p.isWrite with
    | true =>
      obtain ⟨hnext, hfires⟩ := hyes hwrite
      have hle := hlap.count_le hnext
      rw [hwrite, Bool.toNat_true] at hcount
      obtain ⟨hfollows, hall⟩ := ih hthreshold' hnext (by omega) hrest
      refine ⟨(Meter.follows_cons hwrite).mpr ⟨⟨hfires, ?_⟩, hfollows⟩, hone, hall⟩
      simp only [sustainedMeter, hwrite, Bool.true_and, decide_eq_true_eq, elapsed_ge_iff]
      cases l with
      | none =>
        have hzero : flow.sustainedWindowWriteCount = 0 := hlap
        simp [hzero, Lap.Ends]
      | some l =>
        obtain ⟨hstart, hheld, hpos, -⟩ := hlap
        rw [Lap.ends_some, hstart, hheld]
        exact and_iff_right (Nat.ne_of_gt hpos)
    | false =>
      obtain ⟨hkept, hquiet⟩ := hno hwrite
      have hle : flow'.sustainedWindowWriteCount = flow.sustainedWindowWriteCount :=
        ((processPdu_runs hpdu).other hwrite).1.count
      obtain ⟨hfollows, hall⟩ := ih hthreshold' hkept (by omega) hrest
      refine ⟨(Meter.follows_cons_of_not hwrite).mpr ⟨⟨hquiet, ?_⟩, hfollows⟩, hone, hall⟩
      simp [sustainedMeter, hwrite]

/-! ## Runs -/

/-- The two factors of the comparison are of 32 bits, and it is made with 64. -/
theorem product_exact (threshold elapsed : UInt32) :
    (threshold.toUInt64 * elapsed.toUInt64).toNat = threshold.toNat * elapsed.toNat := by
  rw [UInt64.toNat_mul, UInt32.toNat_toUInt64, UInt32.toNat_toUInt64]
  have hlt : threshold.toNat * elapsed.toNat < 2 ^ 32 * 2 ^ 32 :=
    Nat.mul_lt_mul'' threshold.toNat_lt elapsed.toNat_lt
  exact Nat.mod_eq_of_lt hlt

/-- What the sustained detector does on a flow. -/
structure Sustains (threshold : UInt32) (log : List Seen) : Prop where
  sound : (sustainedMeter threshold).Sound log
  complete : (sustainedMeter threshold).Complete log
  once : ∀ e ∈ log, (e.raised.filter isSustained).length ≤ 1 ∧
    (e.raised.any isSustained = true → (sustainedMeter threshold).restarts e = true)
  product : ∀ e ∈ log,
    let elapsed := saturatingSub e.pdu.timestamp e.before.sustainedWindowStartTs
    (threshold.toUInt64 * elapsed.toUInt64).toNat = threshold.toNat * elapsed.toNat

/-- The sustained detector of one flow, over any PDUs in the order of their timestamps. -/
theorem run_sustained (s : ModbusAnalyzer) (pdus : List Pdu) (horder : InOrder pdus)
    (hwrites : pdus.countP Pdu.isWrite < 2 ^ 32) :
    ReturnsIf (countsTotal s.fnCodeCounts + pdus.length < 2 ^ 64 ∧
        pdus.countP Pdu.isException < 2 ^ 32)
      (observe s {} pdus) fun log => log.map Seen.pdu = pdus ∧
        Sustains s.writeSustainedThreshold log := by
  constructor
  · exact observe_new_comes_back
  · intro log h
    have hpdus := observe_pdus h
    rw [← hpdus] at horder
    have hordered : (sustainedMeter s.writeSustainedThreshold).Ordered log :=
      (List.pairwise_map.mp horder).imp fun hle => UInt32.le_iff_toNat_le.mp hle
    have hempty : InLap ({} : ModbusFlowState) none := rfl
    obtain ⟨hfollows, hone⟩ := sustained_follows rfl hempty (by simpa using hwrites) h
    refine ⟨hpdus, hfollows.sound hordered, hfollows.complete hordered, fun e he => ?_, ?_⟩
    · exact ⟨hone e he, fun hfires => hfollows.restarts_of_fires he hfires⟩
    · exact fun e _ => product_exact _ _

/-- Three writes in two seconds are more than one for each second. -/
theorem run_sustained_writes :
    let later : Pdu := { registerWrite with timestamp := 2 }
    InOrder [registerWrite, registerWrite, later] ∧
      ReturnsIf (countsTotal (ModbusAnalyzer.new 9 1).fnCodeCounts + 3 < 2 ^ 64 ∧
          [registerWrite, registerWrite, later].countP Pdu.isException < 2 ^ 32)
        (observe (.new 9 1) {} [registerWrite, registerWrite, later]) fun log =>
          log.map Seen.pdu = [registerWrite, registerWrite, later] ∧ Sustains 1 log := by
  intro later
  have horder : InOrder [registerWrite, registerWrite, later] := by
    simp [InOrder, registerWrite, later]
  exact ⟨horder, run_sustained (.new 9 1) _ horder (by decide)⟩

end Wirerust.Modbus
