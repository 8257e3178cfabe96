import Mathlib.Algebra.Group.Int.Defs
import Mathlib.Data.List.Chain
import Wirerust.Lib.History
import Wirerust.Analyzer.Iec104Log

/-!
Sequence numbers and sessions of an IEC-104 flow.

A flow keeps the last N(S) of each direction and whether data transfer was started last or
stopped. `Tells` says that these are what the log has; from it every entry of the log raises what
its history calls for (`Explained`, `run_explained`). A sender whose N(S) advances by twelve at most
is therefore never flagged, whatever the other direction sends (`not_desync_of_advances`).
-/

namespace Wirerust.Iec104

open Lib Wirerust.Flow Wirerust.Analyzer

/-! ## Sequence numbers -/

/-- The fifteen bits of N(S) in the first two control bytes of an I-frame. -/
def nsValue (cf1 cf2 : UInt8) : Nat := cf1.toNat / 2 + 128 * cf2.toNat

theorem nsValue_lt (cf1 cf2 : UInt8) : nsValue cf1 cf2 < 2 ^ 15 := by
  have h1 := cf1.toNat_lt
  have h2 := cf2.toNat_lt
  unfold nsValue
  omega

/-- Every value is read back from its control bytes. -/
theorem nsValue_encode {v : Nat} (h : v < 2 ^ 15) :
    nsValue (UInt8.ofNat (2 * (v % 128))) (UInt8.ofNat (v / 128)) = v := by
  rw [nsValue, UInt8.toNat_ofNat', UInt8.toNat_ofNat']
  omega

/-- They are those of an I-frame. -/
theorem iFormat_encode (v : Nat) :
    classifyFrameFormat (UInt8.ofNat (2 * (v % 128))) = .iFormat := by
  have hbit : UInt8.ofNat (2 * (v % 128)) &&& 0x01 = 0x00 := by
    apply UInt8.toNat_inj.mp
    rw [UInt8.toNat_and, UInt8.toNat_ofNat']
    show _ % 2 ^ 8 &&& 1 = 0
    rw [Nat.and_one_is_mod]
    omega
  rw [classifyFrameFormat, if_pos hbit]

theorem toNat_extractNs (cf1 cf2 : UInt8) : (extractNs cf1 cf2).toNat = nsValue cf1 cf2 := by
  have h1 := cf1.toNat_lt
  have h2 := cf2.toNat_lt
  have hlow : (cf1.toUInt16 >>> 1).toNat = cf1.toNat / 2 := by
    rw [UInt16.toNat_shiftRight]
    simp [Nat.shiftRight_eq_div_pow]
  have hhigh : (cf2.toUInt16 <<< 7).toNat = 2 ^ 7 * cf2.toNat := by
    rw [UInt16.toNat_shiftLeft]
    simp only [UInt8.toNat_toUInt16, Nat.shiftLeft_eq]
    rw [Nat.mod_eq_of_lt]
    · exact Nat.mul_comm _ _
    · have h7 : (7 : UInt16).toNat % 16 = 7 := rfl
      rw [h7]
      omega
  rw [extractNs, UInt16.toNat_or, hlow, hhigh, Nat.or_comm,
    ← Nat.two_pow_add_eq_or_of_lt (by omega), nsValue]
  omega

/-- The gap of the source is the difference modulo 2^15. -/
theorem toNat_gap (ns prev : UInt16) :
    (((ns - prev) &&& 0x7fff).toNat : Int) = ((ns.toNat : Int) - prev.toNat) % 2 ^ 15 := by
  have hns := ns.toNat_lt
  have hprev := prev.toNat_lt
  have hmask : ((ns - prev) &&& 0x7fff).toNat = (ns - prev).toNat % 2 ^ 15 := by
    rw [UInt16.toNat_and]
    exact Nat.and_two_pow_sub_one_eq_mod _ 15
  rw [hmask, UInt16.toNat_sub]
  omega

/-! ## What the entries of a log call for -/

/-- N(S) of an I-frame. -/
def sequenceNumber : Piece → Option Nat
  | .frame bytes =>
    if classifyFrameFormat (byteAt bytes 2) = .iFormat then
      some (nsValue (byteAt bytes 2) (byteAt bytes 3))
    else none
  | _ => none

/-- Whether a frame starts data transfer or stops it. -/
def startStop : Piece → Option Bool
  | .frame bytes =>
    if byteAt bytes 2 = uStartdtAct ∨ byteAt bytes 2 = uStartdtCon then some true
    else if byteAt bytes 2 = uStopdtAct ∨ byteAt bytes 2 = uStopdtCon then some false
    else none
  | _ => none

def IsStopdtAct (piece : Piece) : Prop :=
  ∃ bytes, piece = .frame bytes ∧ byteAt bytes 2 = uStopdtAct

/-- N(S), if the entry is an I-frame of the direction. -/
def nsIn (dir : Direction) (e : Entry) : Option Nat :=
  if e.direction = dir then sequenceNumber e.piece else none

/-- Data transfer was started last, in whichever direction. -/
def Started (before : List Entry) : Prop :=
  latest (fun e : Entry => startStop e.piece) before = some true

def isDesync (f : Finding) : Bool := "IEC-104 N(S)".toList.isPrefixOf f.summary.toList

/-- The finding about a STOPDT-act. -/
def isStopdt (f : Finding) : Bool := f.mitreTechniques = ["T0881"]

/-- N(S) is more than twelve ahead of the last one of the direction. -/
def Desynced (before : List Entry) (e : Entry) : Prop :=
  ∃ ns prev, sequenceNumber e.piece = some ns ∧ latest (nsIn e.direction) before = some prev ∧
    12 < ((ns : Int) - prev) % 2 ^ 15

/-- What an entry raises, as far as sequence numbers and sessions go, after the entries before. -/
structure Explained (before : List Entry) (e : Entry) : Prop where
  desync : (∃ f ∈ e.raised, isDesync f = true) ↔ Desynced before e
  stopped : IsStopdtAct e.piece → ∃ f ∈ e.raised, isStopdt f = true
  stopdt : ∀ f ∈ e.raised, isStopdt f = true → IsStopdtAct e.piece ∧
    (f.verdict = .possible ↔ Started before) ∧ (f.verdict = .likely ↔ ¬ Started before)

/-! ## What the findings of the handlers are about -/

/-- About neither a sequence number nor a STOPDT-act. -/
def Unrelated (f : Finding) : Prop := isDesync f = false ∧ isStopdt f = false

theorem isDesync_of_summary {f : Finding} {first rest : String} (h : f.summary = first ++ rest)
    (hlen : 12 ≤ first.toList.length) :
    isDesync f = "IEC-104 N(S)".toList.isPrefixOf first.toList := by
  rw [isDesync, h, String.toList_append, Bool.eq_iff_iff, List.isPrefixOf_iff_prefix,
    List.isPrefixOf_iff_prefix]
  constructor
  · intro hpre
    exact List.prefix_of_prefix_length_le hpre (List.prefix_append _ _) hlen
  · intro hpre
    exact hpre.trans (List.prefix_append _ _)

theorem asdu_finding_unrelated (asdu : Asdu) (c : Delivery) {category : ThreatCategory}
    {verdict : Verdict} {evidence technique summary : String} (first rest : String)
    (hsummary : summary = first ++ rest) (hlen : 12 ≤ first.toList.length)
    (hno : "IEC-104 N(S)".toList.isPrefixOf first.toList = false)
    (htechnique : technique ≠ "T0881") :
    Unrelated (asdu.finding c category verdict summary evidence technique) := by
  constructor
  · have hwhole : (asdu.finding c category verdict summary evidence technique).summary =
        first ++ (rest ++ if asdu.cotTest then " [TEST]" else "") := by
      rw [← String.append_assoc, ← hsummary]
      rfl
    rw [isDesync_of_summary hwhole hlen]
    exact hno
  · simp [isStopdt, Asdu.finding, Delivery.finding, htechnique]

theorem detectIec104Threats_unrelated (c : Delivery) (asdu : Asdu) :
    ∀ f ∈ detectIec104Threats c asdu, Unrelated f := by
  have h : ∀ {category verdict evidence technique summary} (first rest : String),
      summary = first ++ rest → 12 ≤ first.toList.length →
      "IEC-104 N(S)".toList.isPrefixOf first.toList = false → technique ≠ "T0881" →
      Unrelated (asdu.finding c category verdict summary evidence technique) :=
    fun first rest => asdu_finding_unrelated asdu c first rest
  simp only [detectIec104Threats, String.append_assoc]
  split
  · exact List.forall_mem_singleton.mpr (h _ _ rfl (by decide) (by decide) (by decide))
  · split
    · exact List.forall_mem_cons.mpr ⟨h _ _ rfl (by decide) (by decide) (by decide),
        List.forall_mem_singleton.mpr (h _ _ rfl (by decide) (by decide) (by decide))⟩
    · split
      · exact List.forall_mem_singleton.mpr (h _ _ rfl (by decide) (by decide) (by decide))
      · split
        · exact List.forall_mem_cons.mpr ⟨h _ _ rfl (by decide) (by decide) (by decide),
            List.forall_mem_singleton.mpr (h _ _ rfl (by decide) (by decide) (by decide))⟩
        · split
          · exact List.forall_mem_singleton.mpr (h _ _ rfl (by decide) (by decide) (by decide))
          · split
            · exact List.forall_mem_singleton.mpr (h _ _ rfl (by decide) (by decide) (by decide))
            · exact fun f hf => absurd hf List.not_mem_nil

theorem asduThreats_unrelated (c : Delivery) (body : List UInt8) :
    ∀ f ∈ asduThreats c body, Unrelated f := by
  unfold asduThreats
  cases parseAsdu body with
  | none => exact fun f hf => absurd hf List.not_mem_nil
  | some asdu => exact detectIec104Threats_unrelated c asdu

/-- The gap decides, and nothing else is raised. -/
theorem trackNsDesync_raises (c : Delivery) (flow : Iec104FlowState) (ns : UInt16) :
    (∀ f ∈ (trackNsDesync c flow ns).2, isStopdt f = false) ∧
    ((∃ f ∈ (trackNsDesync c flow ns).2, isDesync f = true) ↔
      ∃ prev, flow.lastNs c.direction = some prev ∧
        12 < ((ns.toNat : Int) - prev.toNat) % 2 ^ 15) := by
  constructor
  · intro f hf
    rw [isStopdt, trackNsDesync_techniques c flow ns f hf]
    rfl
  · cases hlast : flow.lastNs c.direction with
    | none => simp [trackNsDesync, hlast]
    | some prev =>
      have hgap := toNat_gap ns prev
      simp only [trackNsDesync, hlast, Option.some.injEq, exists_eq_left']
      split
      · rename_i hbig
        have hnat : 12 < ((ns - prev) &&& 0x7fff).toNat := UInt16.lt_iff_toNat_lt.mp hbig
        refine iff_of_true ⟨_, List.mem_singleton.mpr rfl, ?_⟩ (by omega)
        simp only [Delivery.finding, String.append_assoc]
        rw [isDesync_of_summary rfl (by decide)]
        decide
      · rename_i hsmall
        have hnat : ¬ 12 < ((ns - prev) &&& 0x7fff).toNat :=
          fun h => hsmall (UInt16.lt_iff_toNat_lt.mpr h)
        refine iff_of_false ?_ (by omega)
        rintro ⟨f, hf, -⟩
        cases hf

theorem uFrame_raises (c : Delivery) (flow : Iec104FlowState) (cf1 : UInt8) :
    (∀ f ∈ (uFrame c flow cf1).2, isDesync f = false) ∧
    (cf1 = uStopdtAct → ∃ f ∈ (uFrame c flow cf1).2, isStopdt f = true) ∧
    ∀ f ∈ (uFrame c flow cf1).2, isStopdt f = true → cf1 = uStopdtAct ∧
      f.verdict = if flow.sessionStarted then .possible else .likely := by
  unfold uFrame
  split
  · rename_i hstart
    refine ⟨fun f hf => (Option.not_mem_none f hf).elim, ?_,
      fun f hf => (Option.not_mem_none f hf).elim⟩
    rintro rfl
    exact absurd hstart (by decide)
  · split
    · rename_i hstop
      simp only [Option.mem_def, Option.some.injEq, forall_eq', exists_eq_left']
      refine ⟨?_, fun _ => rfl, fun _ => ⟨hstop, rfl⟩⟩
      simp only [Delivery.finding, String.append_assoc]
      rw [isDesync_of_summary rfl (by decide)]
      decide
    · rename_i hno
      split
      · exact ⟨fun f hf => (Option.not_mem_none f hf).elim, fun h => absurd h hno,
          fun f hf => (Option.not_mem_none f hf).elim⟩
      · split
        · exact ⟨fun f hf => (Option.not_mem_none f hf).elim, fun h => absurd h hno,
            fun f hf => (Option.not_mem_none f hf).elim⟩
        · simp only [Option.mem_def, Option.some.injEq, forall_eq', exists_eq_left']
          refine ⟨?_, fun h => absurd h hno, fun h => ?_⟩
          · simp only [Delivery.finding, String.append_assoc]
            rw [isDesync_of_summary rfl (by decide)]
            decide
          · simp [isStopdt, Delivery.finding] at h

theorem uFrame_session (c : Delivery) (flow : Iec104FlowState) (bytes : List UInt8) :
    (uFrame c flow (byteAt bytes 2)).1.sessionStarted =
      (startStop (.frame bytes)).getD flow.sessionStarted := by
  unfold uFrame
  simp only [startStop]
  generalize byteAt bytes 2 = cf1
  by_cases hstart : cf1 = uStartdtAct ∨ cf1 = uStartdtCon
  · rw [if_pos hstart, if_pos hstart, Option.getD_some]
  · rw [if_neg hstart, if_neg hstart]
    by_cases hact : cf1 = uStopdtAct
    · have hstop : cf1 = uStopdtAct ∨ cf1 = uStopdtCon := .inl hact
      rw [if_pos hact, if_pos hstop, Option.getD_some]
    · rw [if_neg hact]
      by_cases hcon : cf1 = uStopdtCon
      · have hstop : cf1 = uStopdtAct ∨ cf1 = uStopdtCon := .inr hcon
        rw [if_pos hcon, if_pos hstop, Option.getD_some]
      · rw [if_neg hcon, if_neg (not_or.mpr ⟨hact, hcon⟩), Option.getD_none]
        split <;> rfl

theorem uFrame_lastNs (c : Delivery) (flow : Iec104FlowState) (cf1 : UInt8) :
    (uFrame c flow cf1).1.lastNs = flow.lastNs := by
  unfold uFrame
  split
  · rfl
  · split
    · rfl
    · split
      · rfl
      · split <;> rfl

/-! ## One piece -/

theorem parseApciHeader_of_isApdu {bytes : List UInt8} (h : IsApdu bytes) :
    parseApciHeader bytes = some ⟨0x68, byteAt bytes 1, byteAt bytes 2, byteAt bytes 3,
      byteAt bytes 4, byteAt bytes 5⟩ := by
  obtain ⟨len, rest, rfl, hmin, hmax, hlen⟩ := h
  have hmin' : 4 ≤ len.toNat := UInt8.le_iff_toNat_le.mp hmin
  have hlong : ¬ (0x68 :: len :: rest).length < 6 := by
    simp only [List.length_cons]
    omega
  have hstart : ¬ byteAt (0x68 :: len :: rest) 0 ≠ 0x68 := not_not_intro rfl
  have hlow : ¬ byteAt (0x68 :: len :: rest) 1 < 4 := UInt8.not_lt.mpr hmin
  have hhigh : ¬ byteAt (0x68 :: len :: rest) 1 > 253 := UInt8.not_lt.mpr hmax
  simp only [parseApciHeader]
  rw [if_neg hlong, if_neg hstart, if_neg hlow, if_neg hhigh]

/-- The flow with one more frame. -/
def Iec104FlowState.counted (flow : Iec104FlowState) : Iec104FlowState :=
  { flow with frameCount := bump64 flow.frameCount }

theorem frameEffect_eq (c : Delivery) (flow : Iec104FlowState) {bytes : List UInt8}
    (h : IsApdu bytes) :
    frameEffect c flow bytes =
      match classifyFrameFormat (byteAt bytes 2) with
      | .uFormat => ((uFrame c flow.counted (byteAt bytes 2)).1,
          (uFrame c flow.counted (byteAt bytes 2)).2.toList)
      | .iFormat =>
        ((trackNsDesync c flow.counted (extractNs (byteAt bytes 2) (byteAt bytes 3))).1,
          asduThreats c (bytes.drop 6) ++
            (trackNsDesync c flow.counted (extractNs (byteAt bytes 2) (byteAt bytes 3))).2)
      | .sFormat => (flow.counted, []) := by
  rw [frameEffect, processFrame, parseApciHeader_of_isApdu h]
  simp only
  cases hformat : classifyFrameFormat (byteAt bytes 2) with
  | uFormat =>
    simp only
    rw [processUFrame, assertThat_of hformat]
    rfl
  | iFormat => rfl
  | sFormat => rfl

/-- What the flow keeps is what the log has. -/
structure Tells (flow : Iec104FlowState) (before : List Entry) : Prop where
  ns : ∀ dir, (flow.lastNs dir).map UInt16.toNat = latest (nsIn dir) before
  session : flow.sessionStarted = true ↔ Started before

theorem tells_nil : Tells {} [] where
  ns := fun dir => by
    cases dir with
    | clientToServer => rfl
    | serverToClient => rfl
  session := by simp [Started]

theorem Tells.snoc {flow flow' : Iec104FlowState} {before : List Entry} {e : Entry}
    (h : Tells flow before)
    (hns : ∀ dir, (flow'.lastNs dir).map UInt16.toNat =
      (nsIn dir e).or ((flow.lastNs dir).map UInt16.toNat))
    (hsession : flow'.sessionStarted = (startStop e.piece).getD flow.sessionStarted) :
    Tells flow' (before ++ [e]) where
  ns := fun dir => by rw [hns, h.ns, latest_snoc]
  session := by
    rw [hsession, Started, latest_snoc]
    cases hstep : startStop e.piece with
    | none =>
      rw [Option.getD_none, Option.none_or]
      exact h.session
    | some started => rw [Option.getD_some, Option.some_or, Option.some.injEq]

theorem lastNs_setLastNs (flow : Iec104FlowState) (dir other : Direction) (ns : UInt16) :
    (flow.setLastNs dir ns).lastNs other = if dir = other then some ns else flow.lastNs other := by
  cases dir <;> cases other <;> rfl

theorem setLastNs_sessionStarted (flow : Iec104FlowState) (dir : Direction) (ns : UInt16) :
    (flow.setLastNs dir ns).sessionStarted = flow.sessionStarted := by
  cases dir <;> rfl

theorem not_stopdtAct_of_format {bytes : List UInt8} {format : FrameFormat}
    (h : classifyFrameFormat (byteAt bytes 2) = format) (hformat : format ≠ .uFormat) :
    ¬ IsStopdtAct (.frame bytes) := by
  rintro ⟨other, heq, hact⟩
  cases heq
  rw [hact] at h
  exact hformat (h.symm.trans (by decide))

theorem startStop_of_format {bytes : List UInt8} {format : FrameFormat}
    (h : classifyFrameFormat (byteAt bytes 2) = format) (hformat : format ≠ .uFormat) :
    startStop (.frame bytes) = none := by
  have hne : ∀ cf1, classifyFrameFormat cf1 = .uFormat → byteAt bytes 2 ≠ cf1 := by
    rintro cf1 hu rfl
    exact hformat (h.symm.trans hu)
  rw [startStop, if_neg (not_or.mpr ⟨hne _ (by decide), hne _ (by decide)⟩),
    if_neg (not_or.mpr ⟨hne _ (by decide), hne _ (by decide)⟩)]

theorem sequenceNumber_of_format {bytes : List UInt8} {format : FrameFormat}
    (h : classifyFrameFormat (byteAt bytes 2) = format) (hformat : format ≠ .iFormat) :
    sequenceNumber (.frame bytes) = none := by
  rw [sequenceNumber, if_neg (h ▸ hformat)]

/-- Entries that have nothing to do with either. -/
theorem explained_of_unrelated {before : List Entry} {e : Entry} (h : ∀ f ∈ e.raised, Unrelated f)
    (hns : sequenceNumber e.piece = none) (hact : ¬ IsStopdtAct e.piece) : Explained before e where
  desync := by
    constructor
    · rintro ⟨f, hf, hdesync⟩
      rw [(h f hf).1] at hdesync
      cases hdesync
    · rintro ⟨ns, prev, hsome, -⟩
      rw [hns] at hsome
      cases hsome
  stopped := fun h => absurd h hact
  stopdt := fun f hf hstop => by
    rw [(h f hf).2] at hstop
    cases hstop

theorem malformedLenFinding_unrelated (c : Delivery) (len : UInt8) (position : Nat) :
    Unrelated (malformedLenFinding c len position) := by
  constructor
  · simp only [malformedLenFinding, Delivery.finding, String.append_assoc]
    rw [isDesync_of_summary rfl (by decide)]
    decide
  · simp [isStopdt, malformedLenFinding, Delivery.finding]

section Piece

variable {c : Delivery} {flow : Iec104FlowState} {before : List Entry}

/-- The entry of an I-frame. -/
theorem Tells.iFrame (h : Tells flow before) {bytes : List UInt8} (hapdu : IsApdu bytes)
    (hformat : classifyFrameFormat (byteAt bytes 2) = .iFormat) :
    Explained before ⟨c.direction, .frame bytes, (frameEffect c flow bytes).2⟩ ∧
      Tells (frameEffect c flow bytes).1
        (before ++ [⟨c.direction, .frame bytes, (frameEffect c flow bytes).2⟩]) := by
  have hsent : sequenceNumber (.frame bytes) =
      some (extractNs (byteAt bytes 2) (byteAt bytes 3)).toNat := by
    rw [sequenceNumber, if_pos hformat, toNat_extractNs]
  have hthreats := asduThreats_unrelated c (bytes.drop 6)
  obtain ⟨hstop, hgap⟩ := trackNsDesync_raises c flow.counted
    (extractNs (byteAt bytes 2) (byteAt bytes 3))
  have heffect := frameEffect_eq c flow hapdu
  rw [hformat] at heffect
  simp only at heffect
  rw [heffect]
  generalize extractNs (byteAt bytes 2) (byteAt bytes 3) = ns at hsent hstop hgap
  have hact := not_stopdtAct_of_format hformat (by decide)
  constructor
  · refine ⟨?_, fun h => absurd h hact, fun f hf hf' => ?_⟩
    · have hlast : ∀ prev, flow.counted.lastNs c.direction = some prev →
          latest (nsIn c.direction) before = some prev.toNat := by
        intro prev hprev
        rw [← h.ns]
        exact congrArg (Option.map UInt16.toNat) hprev
      constructor
      · rintro ⟨f, hf, hdesync⟩
        rcases List.mem_append.mp hf with hf | hf
        · rw [(hthreats f hf).1] at hdesync
          cases hdesync
        · obtain ⟨prev, hprev, hfar⟩ := hgap.mp ⟨f, hf, hdesync⟩
          exact ⟨_, _, hsent, hlast prev hprev, hfar⟩
      · rintro ⟨n, m, hn, hm, hfar⟩
        rw [hsent, Option.some.injEq] at hn
        rw [← h.ns, Option.map_eq_some_iff] at hm
        obtain ⟨prev, hprev, rfl⟩ := hm
        subst hn
        obtain ⟨f, hf, hdesync⟩ := hgap.mpr ⟨prev, hprev, hfar⟩
        exact ⟨f, List.mem_append_right _ hf, hdesync⟩
    · rcases List.mem_append.mp hf with hf | hf
      · rw [(hthreats f hf).2] at hf'
        cases hf'
      · rw [hstop f hf] at hf'
        cases hf'
  · refine h.snoc (fun dir => ?_) ?_
    · simp only [trackNsDesync, lastNs_setLastNs, nsIn, hsent]
      by_cases hdir : c.direction = dir
      · rw [if_pos hdir, if_pos hdir, Option.some_or, Option.map_some]
      · rw [if_neg hdir, if_neg hdir, Option.none_or]
        rfl
    · rw [startStop_of_format hformat (by decide), Option.getD_none]
      exact setLastNs_sessionStarted flow.counted c.direction ns

/-- The entry of a U-frame. -/
theorem Tells.uFrame (h : Tells flow before) {bytes : List UInt8} (hapdu : IsApdu bytes)
    (hformat : classifyFrameFormat (byteAt bytes 2) = .uFormat) :
    Explained before ⟨c.direction, .frame bytes, (frameEffect c flow bytes).2⟩ ∧
      Tells (frameEffect c flow bytes).1
        (before ++ [⟨c.direction, .frame bytes, (frameEffect c flow bytes).2⟩]) := by
  have hnone := sequenceNumber_of_format hformat (by decide)
  obtain ⟨hdesync, hact, hverdict⟩ := uFrame_raises c flow.counted (byteAt bytes 2)
  have hsession := uFrame_session c flow.counted bytes
  have hns := uFrame_lastNs c flow.counted (byteAt bytes 2)
  have heffect := frameEffect_eq c flow hapdu
  rw [hformat] at heffect
  simp only at heffect
  rw [heffect]
  constructor
  · refine ⟨?_, ?_, fun f hf hstop => ?_⟩
    · constructor
      · rintro ⟨f, hf, hf'⟩
        rw [hdesync f (Option.mem_toList.mp hf)] at hf'
        cases hf'
      · rintro ⟨ns, prev, hsome, -⟩
        rw [hnone] at hsome
        cases hsome
    · rintro ⟨other, heq, hstopdt⟩
      cases heq
      obtain ⟨f, hf, hstop⟩ := hact hstopdt
      exact ⟨f, Option.mem_toList.mpr hf, hstop⟩
    · obtain ⟨hstopdt, hf'⟩ := hverdict f (Option.mem_toList.mp hf) hstop
      have hstarted : flow.counted.sessionStarted = true ↔ Started before := h.session
      refine ⟨⟨bytes, rfl, hstopdt⟩, ?_⟩
      rw [hf', ← hstarted]
      cases flow.counted.sessionStarted <;> decide
  · refine h.snoc (fun dir => ?_) hsession
    rw [hns, nsIn, hnone, ite_self, Option.none_or]
    rfl

/-- The entry of a piece that is neither an I-frame nor a U-frame. -/
theorem Tells.quiet (h : Tells flow before) {flow' : Iec104FlowState} {e : Entry}
    (hraised : ∀ f ∈ e.raised, Unrelated f) (hnone : sequenceNumber e.piece = none)
    (hstay : startStop e.piece = none) (hact : ¬ IsStopdtAct e.piece)
    (hns : flow'.lastNs = flow.lastNs) (hsession : flow'.sessionStarted = flow.sessionStarted) :
    Explained before e ∧ Tells flow' (before ++ [e]) := by
  refine ⟨explained_of_unrelated hraised hnone hact, h.snoc (fun dir => ?_) ?_⟩
  · rw [hns, nsIn, hnone, ite_self, Option.none_or]
  · rw [hsession, hstay, Option.getD_none]

theorem reportMalformedLen_same (flow : Iec104FlowState) (dir : Direction) :
    (flow.reportMalformedLen dir).lastNs = flow.lastNs ∧
      (flow.reportMalformedLen dir).sessionStarted = flow.sessionStarted := by
  cases dir <;> exact ⟨rfl, rfl⟩

/-- One piece: the entry raises what it should, and the flow goes on telling what the log has. -/
theorem Tells.piece (h : Tells flow before) (piece : Piece)
    (hapdu : ∀ bytes, piece = .frame bytes → IsApdu bytes) (position : Nat) :
    Explained before
        ⟨c.direction, piece, (pieceRaises c flow piece).2.map (Raised.at position)⟩ ∧
      Tells (pieceRaises c flow piece).1 (before ++
        [⟨c.direction, piece, (pieceRaises c flow piece).2.map (Raised.at position)⟩]) := by
  have hno : ∀ f ∈ ([] : List Finding), Unrelated f := fun f hf => absurd hf List.not_mem_nil
  cases piece with
  | skip => exact h.quiet hno rfl rfl (by rintro ⟨bytes, heq, -⟩; cases heq) rfl rfl
  | stub len =>
    have hact : ¬ IsStopdtAct (.stub len) := by
      rintro ⟨bytes, heq, -⟩
      cases heq
    obtain ⟨hns, hsession⟩ := reportMalformedLen_same flow c.direction
    simp only [pieceRaises]
    split
    · exact h.quiet
        (List.forall_mem_singleton.mpr (malformedLenFinding_unrelated c len position)) rfl rfl
        hact hns hsession
    · exact h.quiet hno rfl rfl hact rfl rfl
  | frame bytes =>
    have hwhole := hapdu bytes rfl
    simp only [pieceRaises, map_plain]
    cases hformat : classifyFrameFormat (byteAt bytes 2) with
    | iFormat => exact h.iFrame hwhole hformat
    | uFormat => exact h.uFrame hwhole hformat
    | sFormat =>
      have heffect := frameEffect_eq c flow hwhole
      rw [hformat] at heffect
      rw [heffect]
      exact h.quiet hno (sequenceNumber_of_format hformat (by decide))
        (startStop_of_format hformat (by decide)) (not_stopdtAct_of_format hformat (by decide))
        rfl rfl

end Piece

/-! ## Runs -/

theorem isApdu_of_pieceOf {buf bytes : List UInt8} {n : Nat}
    (h : pieceOf buf = some (.frame bytes, n)) : IsApdu bytes := by
  cases buf with
  | nil => cases h
  | cons start rest =>
    cases rest with
    | nil =>
      simp only [pieceOf] at h
      split at h <;> cases h
    | cons len rest =>
      simp only [pieceOf] at h
      split at h
      · cases h
      · rename_i hstart
        split at h
        · cases h
        · rename_i hlen
          split at h
          · cases h
          · rename_i hfull
            cases h
            obtain ⟨hmin, hmax⟩ := Decidable.not_not.mp hlen
            simp only [List.length_cons] at hfull
            refine ⟨len, rest.take len.toNat, ?_, hmin, hmax, ?_⟩
            · rw [Decidable.not_not.mp hstart, List.take_succ_cons, List.take_succ_cons]
            · rw [List.length_take]
              omega

theorem isApdu_of_mem_lex (buf : List UInt8) :
    ∀ bytes, .frame bytes ∈ (pieceLexer.lex buf).1 → IsApdu bytes := by
  induction buf using pieceLexer.lex_induction with
  | none buf hhead =>
    rw [pieceLexer.lex_of_none hhead]
    exact fun bytes hmem => absurd hmem List.not_mem_nil
  | some buf piece n hhead ih =>
    rw [pieceLexer.lex_of_some hhead]
    intro bytes hmem
    rcases List.mem_cons.mp hmem with rfl | hmem
    · exact isApdu_of_pieceOf hhead
    · exact ih bytes hmem

theorem Tells.pieces {c : Delivery} {flow : Iec104FlowState} {before : List Entry}
    (h : Tells flow before) (halways : Always Explained before) (ps : List Piece)
    (hapdu : ∀ bytes, .frame bytes ∈ ps → IsApdu bytes) (position : Nat) :
    Always Explained (before ++ logAt c flow position ps) ∧
      Tells (raises c flow ps).1 (before ++ logAt c flow position ps) := by
  induction ps generalizing flow before position with
  | nil =>
    rw [logAt, List.append_nil]
    exact ⟨halways, h⟩
  | cons piece ps ih =>
    obtain ⟨hexplained, htells⟩ := h.piece (c := c) piece
      (fun bytes heq => hapdu bytes (heq ▸ List.mem_cons_self)) position
    have hrest := ih htells ((always_snoc _ _).mpr ⟨halways, hexplained⟩)
      (fun bytes hmem => hapdu bytes (List.mem_cons_of_mem piece hmem)) (position + piece.size)
    rw [List.append_assoc, List.singleton_append] at hrest
    exact hrest

theorem Tells.setCarry {flow : Iec104FlowState} {before : List Entry} (h : Tells flow before)
    (dir : Direction) (bytes : List UInt8) : Tells (flow.setCarry dir bytes) before where
  ns := fun other => by
    rw [lastNs_setCarry]
    exact h.ns other
  session := by
    cases dir with
    | clientToServer => exact h.session
    | serverToClient => exact h.session

theorem runLog_explained (flowKey : FlowKey) {flow : Iec104FlowState} {before : List Entry}
    (h : Tells flow before) (halways : Always Explained before) (calls : List TimedCall) :
    Always Explained (before ++ runLog flowKey flow calls) := by
  induction calls generalizing flow before with
  | nil =>
    rw [runLog, List.append_nil]
    exact halways
  | cons call calls ih =>
    obtain ⟨hcall, htells⟩ := (h.setCarry call.direction []).pieces
      (c := call.delivery flowKey) halways
      (pieceLexer.lex (flow.carry call.direction ++ call.data)).1
      (isApdu_of_mem_lex _) 0
    rw [runLog, ← List.append_assoc]
    exact ih (htells.setCarry call.direction _) hcall

/-! ## Runs of whole APDUs -/

structure Apdu where
  bytes : List UInt8
  whole : IsApdu bytes

/-- The APDUs of a call, with what is known besides. -/
structure ApduCall where
  ts : UInt32
  direction : Direction
  apdus : List Apdu

def ApduCall.timed (call : ApduCall) : TimedCall :=
  ⟨call.ts, call.direction, call.apdus.flatMap Apdu.bytes⟩

def ApduCall.sent (call : ApduCall) : List (Direction × Piece) :=
  call.apdus.map fun apdu => (call.direction, .frame apdu.bytes)

/-- What the entries are about. -/
def sentOf (log : List Entry) : List (Direction × Piece) :=
  log.map fun e => (e.direction, e.piece)

theorem Apdu.pieceOf_append (apdu : Apdu) (rest : List UInt8) :
    pieceOf (apdu.bytes ++ rest) = some (.frame apdu.bytes, apdu.bytes.length) := by
  obtain ⟨bytes, len, tail, rfl, hmin, hmax, hlen⟩ := apdu
  simp only [List.cons_append, pieceOf, List.length_cons, List.length_append, List.take_succ_cons]
  rw [if_neg (not_not_intro rfl), if_neg (not_not_intro ⟨hmin, hmax⟩), if_neg (by omega), ← hlen,
    List.take_left]

theorem lex_apdus (apdus : List Apdu) :
    pieceLexer.lex (apdus.flatMap Apdu.bytes) =
      (apdus.map fun apdu => .frame apdu.bytes, []) := by
  induction apdus with
  | nil => exact pieceLexer.lex_of_none rfl
  | cons apdu apdus ih =>
    rw [List.flatMap_cons, pieceLexer.lex_of_some (apdu.pieceOf_append _), List.drop_left, ih]
    rfl

theorem sentOf_logAt (c : Delivery) (flow : Iec104FlowState) (position : Nat) (ps : List Piece) :
    sentOf (logAt c flow position ps) = ps.map fun piece => (c.direction, piece) := by
  induction ps generalizing flow position with
  | nil => rfl
  | cons piece ps ih =>
    rw [logAt, sentOf, List.map_cons, ← sentOf, ih]
    rfl

/-- Whole APDUs leave nothing over, so each of them is an entry. -/
theorem sentOf_runLog (flowKey : FlowKey) (flow : Iec104FlowState)
    (hempty : ∀ dir, flow.carry dir = []) (calls : List ApduCall) :
    sentOf (runLog flowKey flow (calls.map ApduCall.timed)) = calls.flatMap ApduCall.sent := by
  induction calls generalizing flow with
  | nil => rfl
  | cons call calls ih =>
    have hlex : pieceLexer.lex (flow.carry call.direction ++ call.timed.data) =
        (call.apdus.map fun apdu => .frame apdu.bytes, []) := by
      rw [hempty, List.nil_append]
      exact lex_apdus call.apdus
    have hnext : ∀ dir,
        (effect (call.timed.delivery flowKey) flow call.timed.data).1.carry dir = [] := by
      intro dir
      by_cases hdir : dir = call.direction
      · subst hdir
        simp only [effect]
        rw [show (call.timed.delivery flowKey).direction = call.direction from rfl, carry_setCarry,
          hlex]
      · rw [(effect_other (call.timed.delivery flowKey) flow call.timed.data hdir).1]
        exact hempty dir
    rw [List.map_cons, runLog, sentOf, List.map_append, ← sentOf, ← sentOf, ih _ hnext, callLog,
      sentOf_logAt, List.flatMap_cons]
    rw [show (call.timed.delivery flowKey).direction = call.direction from rfl, hlex, List.map_map]
    rfl

/-! ## Senders that keep to the window -/

/-- The N(S) that were sent in a direction. -/
def numbersSent (dir : Direction) (log : List Entry) : List Nat := log.filterMap (nsIn dir)

/-- From one frame to the next N(S) advances by twelve at most, through the wrap as anywhere. -/
def Advances (numbers : List Nat) : Prop :=
  numbers.IsChain fun prev ns => ∃ step ≤ 12, ns = (prev + step) % 2 ^ 15

theorem nsIn_lt {dir : Direction} {e : Entry} {ns : Nat} (h : nsIn dir e = some ns) :
    ns < 2 ^ 15 := by
  unfold nsIn sequenceNumber at h
  split at h
  · split at h
    · split at h
      · cases h
        exact nsValue_lt _ _
      · cases h
    · cases h
  · cases h

theorem not_desync_of_advances {log : List Entry} (halways : Always Explained log)
    {dir : Direction} (h : Advances (numbersSent dir log)) :
    ∀ e ∈ log, e.direction = dir → ∀ f ∈ e.raised, isDesync f = false := by
  rintro e he rfl f hf
  by_contra hdesync
  obtain ⟨before, after, rfl⟩ := List.append_of_mem he
  obtain ⟨ns, prev, hns, hprev, hfar⟩ := (halways before e after rfl).desync.mp
    ⟨f, hf, by simpa using hdesync⟩
  have hin : nsIn e.direction e = some ns := by rw [nsIn, if_pos rfl, hns]
  -- The last number before the frame and its own are neighbours.
  have hnext : ∃ step ≤ 12, ns = (prev + step) % 2 ^ 15 := by
    rw [Advances, numbersSent, List.filterMap_append, List.filterMap_cons_some hin,
      List.isChain_append] at h
    exact h.2.2 prev hprev ns rfl
  have hlast : prev < 2 ^ 15 := by
    obtain ⟨x, -, hx⟩ := List.mem_filterMap.mp (List.mem_of_getLast? hprev)
    exact nsIn_lt hx
  obtain ⟨step, hstep, rfl⟩ := hnext
  omega

/-- A new flow, and any interleaving of whole APDUs. The log has one entry for each of them, and
its findings are the ones that the analyzer adds. An I-frame raises a desync finding exactly when
N(S) is more than twelve ahead of that of the I-frame before it in its direction, so a sender that
keeps to twelve is never flagged. A STOPDT-act is possible when a start was the last of the starts
and stops before it, likely otherwise. -/
theorem run_sequences (s : Iec104Analyzer) (flowKey : FlowKey)
    (hfresh : s.flows.get? flowKey = none) (calls : List ApduCall) :
    Returns (run (onTimed flowKey) s (calls.map ApduCall.timed)) fun s' =>
      ∃ log, s'.findings = mergeFindings s.findings (findingsOf log) ∧
        (s.findings.kept.length + (findingsOf log).length ≤ maxFindings →
          s'.findings.kept = s.findings.kept ++ findingsOf log) ∧
        sentOf log = calls.flatMap ApduCall.sent ∧
        (∀ v, v < 2 ^ 15 → classifyFrameFormat (UInt8.ofNat (2 * (v % 128))) = .iFormat ∧
          nsValue (UInt8.ofNat (2 * (v % 128))) (UInt8.ofNat (v / 128)) = v) ∧
        (∀ before e after, log = before ++ e :: after →
          ((∃ f ∈ e.raised, isDesync f = true) ↔
            ∃ ns prev, sequenceNumber e.piece = some ns ∧
              latest (nsIn e.direction) before = some prev ∧
              12 < ((ns : Int) - prev) % 2 ^ 15) ∧
          (IsStopdtAct e.piece → ∃ f ∈ e.raised, isStopdt f = true) ∧
          ∀ f ∈ e.raised, isStopdt f = true → IsStopdtAct e.piece ∧
            (f.verdict = .possible ↔ Started before) ∧ (f.verdict = .likely ↔ ¬ Started before)) ∧
        ∀ dir, Advances (numbersSent dir log) →
          ∀ e ∈ log, e.direction = dir → ∀ f ∈ e.raised, isDesync f = false := by
  have hflow : flowOf s flowKey = {} := by rw [flowOf, hfresh, Option.getD_none]
  have halways : Always Explained (runLog flowKey {} (calls.map ApduCall.timed)) :=
    runLog_explained flowKey tells_nil always_nil (calls.map ApduCall.timed)
  have hsent := sentOf_runLog flowKey {}
    (fun dir => by cases dir <;> rfl) calls
  refine (run_log (calls.map ApduCall.timed) (hflow ▸ shape_new)).mono ?_
  rintro s' ⟨-, hfindings⟩
  rw [hflow] at hfindings
  refine ⟨_, hfindings, fun hroom => ?_, hsent, fun v hv => ⟨iFormat_encode v, nsValue_encode hv⟩,
    fun before e after heq => ?_, fun dir hadvances => not_desync_of_advances halways hadvances⟩
  · rw [hfindings, mergeFindings_of_le hroom]
  · have hexplained := halways before e after heq
    exact ⟨hexplained.desync, hexplained.stopped, hexplained.stopdt⟩

/-- N(S) goes from 32767 to 0, and stays below the window. -/
def wrapCalls : List ApduCall :=
  [⟨0, .clientToServer, [⟨[0x68, 4, 0xfe, 0xff, 0, 0], 4, [0xfe, 0xff, 0, 0], rfl, by decide,
    by decide, rfl⟩, ⟨[0x68, 4, 0, 0, 0, 0], 4, [0, 0, 0, 0], rfl, by decide, by decide, rfl⟩]⟩]

theorem run_sequences_wrap :
    ∃ s', run (onTimed stationKey) .new (wrapCalls.map ApduCall.timed) = .ok s' ∧
      ∃ log, s'.findings = mergeFindings ⟨[], 0⟩ (findingsOf log) ∧
        sentOf log = [(.clientToServer, .frame [0x68, 4, 0xfe, 0xff, 0, 0]),
          (.clientToServer, .frame [0x68, 4, 0, 0, 0, 0])] := by
  obtain ⟨s', hrun, log, hfindings, -, hsent, -⟩ := run_sequences .new stationKey rfl wrapCalls
  exact ⟨s', hrun, log, hfindings, hsent⟩

end Wirerust.Iec104
