import Wirerust.Reassembly.Anomalies

/-!
What is reported of a segment that is not taken as it is: bytes that disagree with those buffered,
and bytes beyond the depth.

* `conflicts_reported_iff`: after every run of a direction, a conflict is the result of the
  insertion that has one if, and only if, the segment fills no gap.
* `depth_reported_iff`: over every capture, a flow that loses bytes to the depth has a finding for
  it if, and only if, the first loss of each lifetime is one that can be told: there is depth left,
  the bytes that fit fill a gap, and there is room for all the gaps.
-/

namespace Wirerust.Reports

open Lib Wirerust.Segment Wirerust.Gaps Wirerust.Buffer Wirerust.Direction Wirerust.Flow
  Wirerust.Engine Wirerust.Moves Wirerust.Retiring Wirerust.EngineSpec Wirerust.Alone
  Wirerust.Anomalies

/-! ## Conflicts -/

/-- An insertion that disagrees with the buffer says so. -/
def ConflictReported (d : FlowDirection) (seq : UInt32) (data : List UInt8) (lim : Limits) :
    Prop :=
  ∀ new, admittedSegment d seq data lim = some new → Disagrees d new →
    ∃ d', insertSegment d seq data lim = .ok (d', .conflictingOverlap)

/-- A segment that disagrees with the buffer has no byte at a free offset. -/
def FillsNoGap (d : FlowDirection) (seq : UInt32) (data : List UInt8) (lim : Limits) : Prop :=
  ∀ new, admittedSegment d seq data lim = some new → Disagrees d new →
    ∀ p, new.Covers p → taken d p = true

theorem openGaps_eq_nil_iff {d : FlowDirection} (ht : Tidy d) (new : Chunk UInt8) :
    openGaps d new = [] ↔ ∀ p, new.Covers p → taken d p = true := by
  constructor
  · intro hnil p hp
    by_contra hfree
    obtain ⟨g, hg, -⟩ := (openGaps_mem_iff new ht p).mpr ⟨hp, Bool.eq_false_of_not_eq_true hfree⟩
    rw [hnil] at hg
    cases hg
  · intro hall
    apply List.eq_nil_iff_forall_not_mem.mpr
    intro g hg
    have hw : Within g g.1 := ⟨Nat.le_refl _, (openGaps_bounds new g hg).2.1⟩
    obtain ⟨hc, hfree⟩ := (openGaps_mem_iff new ht g.1).mp ⟨g, hg, hw⟩
    rw [hall g.1 hc] at hfree
    cases hfree

/-- With a gap to fill, the result is never a conflict. -/
theorem Classified.not_conflict {d : FlowDirection} {new : Chunk UInt8} {truncated : Bool}
    {maxSegments : Nat} {result : InsertResult}
    (h : Classified d new truncated maxSegments result) (hgaps : openGaps d new ≠ []) :
    result ≠ .conflictingOverlap := by
  intro hres
  by_cases hroom : (openGaps d new).length ≤ maxSegments - d.segments.size
  · cases truncated with
    | true =>
      rw [h.cut hgaps hroom rfl] at hres
      cases hres
    | false =>
      rcases h.whole hgaps hroom rfl with hw | hw
      · rw [hw] at hres
        cases hres
      · rw [hw] at hres
        cases hres
  · rw [h.limit (Nat.lt_of_not_le hroom)] at hres
    cases hres

theorem conflictReported_iff {d : FlowDirection} (ht : Tidy d) (seq : UInt32) (data : List UInt8)
    (lim : Limits) : ConflictReported d seq data lim ↔ FillsNoGap d seq data lim := by
  obtain ⟨⟨d', result⟩, hins, -, hans⟩ := insertSegment_spec ht seq data lim
  constructor
  · intro hreported new hnew hdis
    obtain ⟨d'', hconf⟩ := hreported new hnew hdis
    rw [hins] at hconf
    cases hconf
    rw [← openGaps_eq_nil_iff ht]
    by_contra hgaps
    exact Classified.not_conflict (hans.admitted new hnew) hgaps rfl
  · intro hfills new hnew hdis
    have hgaps := (openGaps_eq_nil_iff ht new).mpr (hfills new hnew hdis)
    have hres := (hans.admitted new hnew).conflict hgaps hdis
    exact ⟨d', by rw [hins, ← hres]⟩

/-- After every run: a conflict is the result of its insertion if, and only if, the segment fills
no gap. The engine makes a finding of that result, or counts it. -/
theorem conflicts_reported_iff (ops : List Runs.Op) :
    (∀ s, run Runs.step .init ops = .ok s → ∀ seq data lim,
      (ConflictReported s.dir seq data lim ↔ FillsNoGap s.dir seq data lim)) ∧
    ∀ (s : TcpReassembler) (key : FlowKey) (srcIp : IpAddr) (timestamp : UInt32) (added : Nat),
      ∃ finding : Finding,
        finding.summary = "Conflicting TCP segment overlap on flow " ++ key.display ∧
        tally (reportInsert s key srcIp timestamp added .conflictingOverlap) =
          record (tally s) [finding] := by
  constructor
  · intro s hs seq data lim
    exact conflictReported_iff ((Runs.run_inv ops).apply hs).wf.toTidy seq data lim
  · intro s key srcIp timestamp added
    exact ⟨_, rfl, tally_reportInsert s key srcIp timestamp added .conflictingOverlap⟩

/-- A segment that disagrees in its first byte and brings one byte more is taken for an overlap
that agrees. -/
theorem conflict_unreported :
    Returns (run Runs.step .init [.setIsn 1000, .insert 1001 [1, 2] ⟨100, 10, 100⟩]) (fun s =>
      ¬ ConflictReported s.dir 1001 [9, 2, 3] ⟨100, 10, 100⟩ ∧
      ∃ d', insertSegment s.dir 1001 [9, 2, 3] ⟨100, 10, 100⟩ = .ok (d', .partialOverlap)) := by
  refine ⟨_, rfl, fun hreported => ?_, _, rfl⟩
  obtain ⟨d', hd'⟩ := hreported (1, [9, 2, 3]) rfl ⟨1, 9, 1, rfl, rfl, by decide⟩
  cases hd'

/-! ## Watching for losses -/

def depthSummary (key : FlowKey) : String := "Stream depth exceeded on flow " ++ key.display

/-- A payload and the findings raised for it. -/
abbrev Entry := Check × List Finding

/-- An engine, the payloads of the latest lifetime of each key with the findings raised for each,
and all findings raised. -/
structure Reported where
  engine : TcpReassembler
  lifetime : FlowKey → List Entry
  raised : List Finding

def Reported.init (s : TcpReassembler) : Reported := ⟨s, fun _ => [], []⟩

/-- Let the engine process a packet and note what it reports. -/
def observe (ord : IterOrder) (w : Reported) (i : Input) : Checked Reported := do
  let engine ← receive ord w.engine i
  match ← arrive ord w.engine i.1 i.2 with
  | (_, none) => .ok { w with engine }
  | (s, some (key, tcp)) => do
    let flow ← unwrap (s.flows.get? key)
    let out ← packetAlone s.config key flow (flowPacket i.1 tcp) i.2
    let created := (s.events.drop w.engine.events.length).any (· == .flowCreated key)
    let past := if created then [] else w.lifetime key
    .ok {
      engine
      lifetime := fun k =>
        if k = key then past ++ (out.check.toList.map fun c => (c, out.findings)) else w.lifetime k
      raised := w.raised ++ out.findings }

def TellsDepth (key : FlowKey) (findings : List Finding) : Prop :=
  ∃ finding ∈ findings, finding.summary = depthSummary key

/-- Every payload with the flag of its direction set has a finding of the depth, its own or an
earlier one. -/
def Told (key : FlowKey) (entries : List Entry) : Prop :=
  ∀ before entry after, entries = before ++ entry :: after →
    entry.1.flowDir.depthExceeded = true → ∃ e ∈ before ++ [entry], TellsDepth key e.2

/-- No flow has lost bytes to the depth without a finding in the same lifetime. -/
def DepthReported (w : Reported) : Prop := ∀ key, Told key (w.lifetime key)

/-- The direction that the payload of a packet is inserted into. -/
def intake (f : TcpFlow) (p : FlowPacket) : Option FlowDirection :=
  if p.tcp.rst || p.payload.isEmpty then none
  else
    let (g, dir, _) := joinFlow (handshake f p) p.src p.tcp.seq
    some (g.dir dir)

/-- There is depth left, what fits of the segment has a byte at a free offset, and there is room
for all its gaps. -/
def CanTell (d : FlowDirection) (seq : UInt32) (data : List UInt8) (lim : Limits) : Prop :=
  ∃ new, admittedSegment d seq data lim = some new ∧ openGaps d new ≠ [] ∧
    (openGaps d new).length ≤ lim.maxSegments - d.segments.size

/-- If the packet is the first of its flow to lose bytes, the loss can be told. -/
def FirstLossTold (ord : IterOrder) (s : TcpReassembler) (i : Input) : Prop :=
  ∀ s₂ key tcp f d, arrive ord s i.1 i.2 = .ok (s₂, some (key, tcp)) →
    s₂.flows.get? key = some f → intake f (flowPacket i.1 tcp) = some d →
    (∀ w, (f.dir w).depthExceeded = false) →
    losesDepth d tcp.seq i.1.payload s.config.limits = true →
    CanTell d tcp.seq i.1.payload s.config.limits

/-! ## One payload -/

theorem head_depthSummary (shown : String) :
    ("Stream depth exceeded on flow " ++ shown).toList.head? = some 'S' := by
  simp

theorem ne_depthSummary {key : FlowKey} {summary : String}
    (h : summary.toList.head? ≠ some 'S') : summary ≠ depthSummary key := by
  rintro rfl
  exact h (head_depthSummary key.display)

theorem summary_anomaly_ne (config : ReassemblyConfig) (key : FlowKey) (d : FlowDirection)
    (srcIp : IpAddr) (timestamp : UInt32) (dir : Direction) (a : Anomaly) :
    (Anomaly.finding config key d srcIp timestamp dir a).summary ≠ depthSummary key := by
  apply ne_depthSummary
  generalize hshown : key.display = shown
  cases a with
  | overlaps => simp [Anomaly.finding, overlapFinding, hshown]
  | smallSegments => simp [Anomaly.finding, smallSegmentFinding, hshown]
  | outOfWindow => simp [Anomaly.finding, outOfWindowFinding, hshown]

/-- Only a segment that has been cut makes a finding of the depth. -/
theorem tellsDepth_iff (config : ReassemblyConfig) (key : FlowKey) (srcIp : IpAddr)
    (timestamp : UInt32) (result : InsertResult) (d : FlowDirection) (dir : Direction)
    (raised : List Anomaly) :
    TellsDepth key (insertionFindings config key srcIp timestamp result ++
      raised.map (Anomaly.finding config key d srcIp timestamp dir)) ↔ result = .truncated := by
  constructor
  · rintro ⟨finding, hmem, hsum⟩
    rcases List.mem_append.mp hmem with hmem | hmem
    · cases result with
      | truncated => rfl
      | conflictingOverlap =>
        rw [List.mem_singleton.mp hmem] at hsum
        refine absurd hsum (ne_depthSummary ?_)
        generalize key.display = shown
        simp
      | _ => cases hmem
    · obtain ⟨a, -, rfl⟩ := List.mem_map.mp hmem
      exact absurd hsum (summary_anomaly_ne config key d srcIp timestamp dir a)
  · rintro rfl
    exact ⟨_, List.mem_append_left _ (List.mem_singleton.mpr rfl), rfl⟩

/-- A segment is cut exactly if it loses bytes in a way that can be told. -/
theorem truncated_iff {d d' : FlowDirection} {seq : UInt32} {data : List UInt8} {lim : Limits}
    {result : InsertResult} (h : Answered d seq data lim (d', result)) :
    result = .truncated ↔ losesDepth d seq data lim = true ∧ CanTell d seq data lim := by
  constructor
  · intro hres
    cases hadm : admittedSegment d seq data lim with
    | none => exact absurd hres (h.refused hadm).2
    | some new =>
      have hclass := h.admitted new hadm
      have hgaps : openGaps d new ≠ [] := by
        intro hnil
        by_cases hdis : Disagrees d new
        · have hconf := hclass.conflict hnil hdis
          rw [hres] at hconf
          cases hconf
        · have hdup := hclass.duplicate hnil hdis
          rw [hres] at hdup
          cases hdup
      have hroom : (openGaps d new).length ≤ lim.maxSegments - d.segments.size := by
        by_contra hfull
        have hlimit := hclass.limit (Nat.lt_of_not_le hfull)
        rw [hres] at hlimit
        cases hlimit
      refine ⟨?_, new, hadm, hgaps, hroom⟩
      by_contra hkeeps
      rcases hclass.whole hgaps hroom (Bool.eq_false_of_not_eq_true hkeeps) with hw | hw
      · rw [hres] at hw
        cases hw
      · rw [hres] at hw
        cases hw
  · rintro ⟨hlost, new, hadm, hgaps, hroom⟩
    exact (h.admitted new hadm).cut hgaps hroom hlost

/-- What a payload has to do with the flags of its flow. -/
structure Weighed (config : ReassemblyConfig) (key : FlowKey) (f : TcpFlow) (p : FlowPacket)
    (d : FlowDirection) (c : Check) (findings : List Finding) (flow : Option TcpFlow) : Prop where
  flag : c.flowDir.depthExceeded =
    ((f.dir c.dir).depthExceeded || losesDepth d p.tcp.seq p.payload config.limits)
  told : TellsDepth key findings ↔ losesDepth d p.tcp.seq p.payload config.limits = true ∧
    CanTell d p.tcp.seq p.payload config.limits
  own : ∀ f', flow = some f' → (f'.dir c.dir).depthExceeded = c.flowDir.depthExceeded
  other : ∀ f', flow = some f' → ∀ w, w ≠ c.dir →
    (f'.dir w).depthExceeded = (f.dir w).depthExceeded

theorem depthExceeded_countSmallSegment (config : ReassemblyConfig) (d : FlowDirection)
    (payload : List UInt8) (result : InsertResult) :
    (countSmallSegment config d payload result).depthExceeded = d.depthExceeded :=
  (Kept.of_marked (marked_countSmallSegment config d payload result)).depthExceeded

theorem takes_weighed {config : ReassemblyConfig} {key : FlowKey} {f f' f₂ : TcpFlow}
    {p : FlowPacket} {timestamp : UInt32} {out : Outcome} {dir : Direction}
    {d d' : FlowDirection} {result : InsertResult}
    (h : Takes config key (handshake f p) p timestamp f' out f₂ dir d d' result) :
    ∃ c, out.check = some c ∧
      Weighed config key f p (f₂.dir dir) c out.findings (some f') := by
  have hkept : ∀ w, (f₂.dir w).depthExceeded = (f.dir w).depthExceeded := fun w => by
    rw [h.joins.1]
    exact ((kept_handshake f p w).trans (kept_joinFlow _ p.src p.tcp.seq w)).depthExceeded
  obtain ⟨chunks, hfl⟩ := h.flushed
  refine ⟨_, h.check, ?_, ?_, ?_, ?_⟩
  · rw [depthExceeded_countSmallSegment, h.answered.exceeded, hkept dir]
  · rw [h.findings, tellsDepth_iff]
    exact truncated_iff h.answered
  · intro g hg
    cases hg
    rw [h.flow, TcpFlow.dir_setDir_self, hfl.frame]
    rfl
  · intro g hg w hw
    cases hg
    rw [h.flow, TcpFlow.dir_setDir_of_ne f₂ hw, hkept w]

theorem packetAlone_weighs {config : ReassemblyConfig} {key : FlowKey} {f : TcpFlow}
    {p : FlowPacket} {timestamp : UInt32} {out : Outcome} (hwf : ∀ w, Wf (f.dir w))
    (h : packetAlone config key f p timestamp = .ok out) :
    (intake f p = none ∧ out.check = none ∧ out.findings = [] ∧
      ∀ f', out.flow = some f' → ∀ w, (f'.dir w).depthExceeded = (f.dir w).depthExceeded) ∨
    ∃ d c, intake f p = some d ∧ out.check = some c ∧
      Weighed config key f p d c out.findings out.flow := by
  unfold intake
  rcases packetAlone_eq_ok hwf h with ⟨hrst, hflow, hcheck, hfind⟩ |
    ⟨hrst, f', out', hcheck, hfind, hlast, hcases⟩
  · refine .inl ⟨if_pos (by rw [hrst]; rfl), hcheck, hfind, fun f' hf' => ?_⟩
    rw [hflow] at hf'
    cases hf'
  · rcases hcases with ⟨hnil, hnone, hempty, rfl⟩ | ⟨hne, f₂, dir, d, d', result, htakes⟩
    · refine .inl ⟨if_pos (by rw [hnil, Bool.or_eq_true]; exact .inr rfl), hcheck.trans hnone,
        hfind.trans hempty, fun g hg w => ?_⟩
      rw [hlast g hg]
      exact (kept_handshake f p w).depthExceeded
    · obtain ⟨c, hc, hw⟩ := takes_weighed htakes
      refine .inr ⟨f₂.dir dir, c, ?_, hcheck.trans hc, hw.flag, ?_, fun g hg => ?_,
        fun g hg => ?_⟩
      · rw [hrst, List.isEmpty_eq_false_iff.mpr hne, htakes.joins.1, htakes.joins.2]
        rfl
      · rw [hfind]
        exact hw.told
      · rw [hlast g hg]
        exact hw.own f' rfl
      · rw [hlast g hg]
        exact hw.other f' rfl

/-! ## One lifetime -/

/-- The flags of a flow say which of its payloads have set them. -/
def Marks (f : TcpFlow) (entries : List Entry) : Prop :=
  ∀ dir, (f.dir dir).depthExceeded = true ↔
    ∃ e ∈ entries, e.1.dir = dir ∧ e.1.flowDir.depthExceeded = true

/-- A payload that leaves the flag of its direction alone has no finding of the depth. -/
def Quiet (key : FlowKey) (entries : List Entry) : Prop :=
  ∀ e ∈ entries, e.1.flowDir.depthExceeded = false → ¬ TellsDepth key e.2

section Lifetime

variable {config : ReassemblyConfig} {key : FlowKey} {f : TcpFlow} {p : FlowPacket}
  {d : FlowDirection} {c : Check} {findings : List Finding} {flow : Option TcpFlow}
  {past : List Entry} (hw : Weighed config key f p d c findings flow)

include hw

theorem Weighed.quiet (hquiet : Quiet key past) : Quiet key (past ++ [(c, findings)]) := by
  intro e he hflag
  rcases List.mem_append.mp he with he | he
  · exact hquiet e he hflag
  · rw [List.mem_singleton.mp he] at hflag ⊢
    rw [hw.told]
    rintro ⟨hlost, -⟩
    rw [hw.flag, hlost, Bool.or_true] at hflag
    cases hflag

theorem Weighed.marks (hmarks : Marks f past) {f' : TcpFlow} (hf' : flow = some f') :
    Marks f' (past ++ [(c, findings)]) := by
  intro dir
  simp only [List.mem_append, List.mem_singleton, or_and_right, exists_or, exists_eq_left]
  by_cases hdir : c.dir = dir
  · subst hdir
    rw [hw.own f' hf', ← hmarks c.dir, hw.flag, Bool.or_eq_true]
    simp only [true_and]
    constructor
    · rintro (hold | hlost)
      · exact .inl hold
      · exact .inr (.inr hlost)
    · rintro (hold | hold)
      · exact .inl hold
      · exact hold
  · rw [hw.other f' hf' dir (Ne.symm hdir), hmarks dir]
    constructor
    · exact .inl
    · rintro (hold | ⟨heq, -⟩)
      · exact hold
      · exact absurd heq hdir

/-- If the first loss can be told, every loss has been. -/
theorem Weighed.told_of (hmarks : Marks f past) (htold : Told key past)
    (hfirst : (∀ w, (f.dir w).depthExceeded = false) →
      losesDepth d p.tcp.seq p.payload config.limits = true →
      CanTell d p.tcp.seq p.payload config.limits) : Told key (past ++ [(c, findings)]) := by
  intro before entry after hsplit hflag
  rcases List.eq_nil_or_concat after with rfl | ⟨after', last, rfl⟩
  · obtain ⟨rfl, hlast⟩ := List.append_inj' hsplit rfl
    cases hlast
    by_cases hold : ∃ e ∈ past, e.1.flowDir.depthExceeded = true
    · -- the flow has lost bytes before
      obtain ⟨e, he, hset⟩ := hold
      obtain ⟨before', after', rfl⟩ := List.append_of_mem he
      obtain ⟨e', he', htells⟩ := htold before' e after' rfl hset
      refine ⟨e', List.mem_append_left _ ?_, htells⟩
      rcases List.mem_append.mp he' with h | h
      · exact List.mem_append_left _ h
      · rw [List.mem_singleton.mp h]
        exact he
    · have hnone : ∀ w, (f.dir w).depthExceeded = false := by
        intro w
        rw [Bool.eq_false_iff, Ne, hmarks w]
        rintro ⟨e, he, -, hset⟩
        exact hold ⟨e, he, hset⟩
      have hlost : losesDepth d p.tcp.seq p.payload config.limits = true := by
        have hset := hw.flag
        rw [hflag, hnone c.dir, Bool.false_or] at hset
        exact hset.symm
      exact ⟨(c, findings), List.mem_append_right _ (List.mem_singleton.mpr rfl),
        hw.told.mpr ⟨hlost, hfirst hnone hlost⟩⟩
  · rw [List.concat_eq_append, ← List.cons_append, ← List.append_assoc] at hsplit
    obtain ⟨hpast, -⟩ := List.append_inj' hsplit rfl
    exact htold before entry after' hpast hflag

/-- If the last payload is told and no flag was set before, its loss can be told. -/
theorem Weighed.canTell (hmarks : Marks f past) (hquiet : Quiet key past)
    (htold : Told key (past ++ [(c, findings)]))
    (hnone : ∀ w, (f.dir w).depthExceeded = false)
    (hlost : losesDepth d p.tcp.seq p.payload config.limits = true) :
    CanTell d p.tcp.seq p.payload config.limits := by
  have hset : c.flowDir.depthExceeded = true := by
    rw [hw.flag, hlost, Bool.or_true]
  obtain ⟨e, he, htells⟩ := htold past (c, findings) [] rfl hset
  rcases List.mem_append.mp he with he | he
  · have hclear : e.1.flowDir.depthExceeded = false := by
      rw [Bool.eq_false_iff, Ne]
      intro hflag
      have hdir := (hmarks e.1.dir).mpr ⟨e, he, rfl, hflag⟩
      rw [hnone e.1.dir] at hdir
      cases hdir
    exact absurd htells (hquiet e he hclear)
  · rw [List.mem_singleton.mp he] at htells
    exact (hw.told.mp htells).2

end Lifetime

/-! ## Whole captures -/

/-- What `observe` notes of a packet. -/
theorem observe_eq {ord : IterOrder} {w : Reported} {i : Input} {s' : TcpReassembler}
    (hr : Ready (view w.engine)) (hs' : receive ord w.engine i = .ok s') :
    (∃ new, Dismissed w.engine s' new ∧ observe ord w i = .ok { w with engine := s' } ∧
      ∀ s₂ key tcp, arrive ord w.engine i.1 i.2 ≠ .ok (s₂, some (key, tcp))) ∨
    ∃ key tcp s₁ s₂ s₃ f out swept evicted,
      Handled w.engine s' key tcp i.1 i.2 s₁ s₂ s₃ f out swept evicted ∧
      arrive ord w.engine i.1 i.2 = .ok (s₂, some (key, tcp)) ∧
      observe ord w i = .ok {
        engine := s'
        lifetime := fun k => if k = key then
          (if (s₂.events.drop w.engine.events.length).any (· == .flowCreated key) then []
            else w.lifetime key) ++ (out.check.toList.map fun c => (c, out.findings))
          else w.lifetime k
        raised := w.raised ++ out.findings } := by
  unfold observe
  rw [hs']
  rcases processPacket_eq_ok hr hs' with ⟨-, s₂, new, hdis, harr⟩ |
    ⟨key, tcp, s₁, s₂, s₃, f, out, swept, evicted, -, hh, harr⟩
  · refine .inl ⟨new, hdis, ?_, fun s₃ key tcp h => ?_⟩
    · rw [harr]
      rfl
    · rw [harr] at h
      cases h
  · refine .inr ⟨key, tcp, s₁, s₂, s₃, f, out, swept, evicted, hh, harr, ?_⟩
    have halone := hh.alone
    rw [← hh.config] at halone
    simp only [harr, bind, Except.bind, hh.greets.get?, unwrap, halone]

structure Followed (config : ReassemblyConfig) (w : Reported) : Prop where
  ready : Ready (view w.engine) ∧ w.engine.config = config
  marks : ∀ k f, w.engine.flows.get? k = some f → Marks f (w.lifetime k)
  quiet : ∀ k, Quiet k (w.lifetime k)
  budget : Capped.Holds maxFindings (2 ^ 64 - 1) w.raised (tally w.engine)
  among : ∀ k, ∀ e ∈ w.lifetime k, ∀ finding ∈ e.2, finding ∈ w.raised

/-- The lifetime a payload falls into. -/
theorem Followed.past {config : ReassemblyConfig} {w : Reported} (h : Followed config w)
    {s₁ s₂ : TcpReassembler} {key : FlowKey} {timestamp : UInt32} {f : TcpFlow}
    {swept : List Event} (hdis : Dismissed w.engine s₁ swept)
    (hg : Greets s₁ s₂ key timestamp f) {past : List Entry}
    (hpast : past = if (s₂.events.drop w.engine.events.length).any (· == .flowCreated key) then []
      else w.lifetime key) :
    Marks f past ∧ Quiet key past ∧ (∀ e ∈ past, ∀ finding ∈ e.2, finding ∈ w.raised) ∧
      (Told key (w.lifetime key) → Told key past) := by
  rcases Greets.past hdis hg hpast with ⟨rfl, hnew⟩ | ⟨rfl, g, hg, hsame⟩
  · refine ⟨fun dir => ?_, fun e he => absurd he List.not_mem_nil,
      fun e he => absurd he List.not_mem_nil, fun _ => ?_⟩
    · rw [hnew dir]
      simp [FlowDirection.new]
    · intro before entry after hsplit
      cases before <;> cases hsplit
  · refine ⟨fun dir => ?_, h.quiet key, h.among key, id⟩
    rw [hsame dir]
    exact h.marks key g hg dir

theorem Followed.init {config : ReassemblyConfig} {s₀ : TcpReassembler}
    (hnew : TcpReassembler.new config = .ok s₀) : Followed config (.init s₀) := by
  have hsound := Sound.init hnew
  refine ⟨hsound.ready, fun k f hf => ?_, fun k e he => absurd he List.not_mem_nil, hsound.budget,
    fun k e he => absurd he List.not_mem_nil⟩
  rw [Reported.init, show s₀.flows = .empty from congrArg View.flows (new_eq_ok hnew).2] at hf
  cases hf

/-- The lifetime of the key after a packet, and what it has to do with the condition. -/
structure Continues (ord : IterOrder) (config : ReassemblyConfig) (w : Reported) (i : Input)
    (key : FlowKey) (past entries : List Entry) (flow : Option TcpFlow) : Prop where
  marks : ∀ f', flow = some f' → Marks f' entries
  quiet : Quiet key entries
  told : Told key past → FirstLossTold ord w.engine i → Told key entries
  condition : Told key entries → FirstLossTold ord w.engine i

theorem Followed.continues {ord : IterOrder} {config : ReassemblyConfig} {w : Reported}
    (h : Followed config w) {i : Input} {s' s₁ s₂ s₃ : TcpReassembler} {key : FlowKey}
    {tcp : TcpFields} {f : TcpFlow} {out : Outcome} {swept evicted : List Event}
    (hh : Handled w.engine s' key tcp i.1 i.2 s₁ s₂ s₃ f out swept evicted)
    (harr : arrive ord w.engine i.1 i.2 = .ok (s₂, some (key, tcp))) {past : List Entry}
    (hmarks : Marks f past) (hquiet : Quiet key past) :
    Continues ord config w i key past
      (past ++ (out.check.toList.map fun c => (c, out.findings))) out.flow := by
  have hwf : ∀ d, Wf (f.dir d) :=
    Greets.wf hh.greets fun k g hg => h.ready.1.wf.wf k g (hh.before.shrinks k g hg)
  -- the packet of the condition is this one
  have hsame : ∀ s₂' key' tcp' f' d, arrive ord w.engine i.1 i.2 = .ok (s₂', some (key', tcp')) →
      s₂'.flows.get? key' = some f' → intake f' (flowPacket i.1 tcp') = some d →
      f' = f ∧ tcp' = tcp ∧ intake f (flowPacket i.1 tcp) = some d := by
    intro s₂' key' tcp' f' d harr' hf' hd
    rw [harr] at harr'
    cases harr'
    rw [hh.greets.get?] at hf'
    cases hf'
    exact ⟨rfl, rfl, hd⟩
  rcases packetAlone_weighs hwf hh.alone with ⟨hnone, hcheck, -, hflags⟩ | ⟨d, c, hd, hc, hw⟩
  · rw [hcheck]
    simp only [Option.toList_none, List.map_nil, List.append_nil]
    refine ⟨fun f' hf' dir => ?_, hquiet, fun htold _ => htold, fun _ => ?_⟩
    · rw [hflags f' hf' dir]
      exact hmarks dir
    · intro s₂' key' tcp' f' d harr' hf' hd
      obtain ⟨-, -, hsome⟩ := hsame s₂' key' tcp' f' d harr' hf' hd
      rw [hnone] at hsome
      cases hsome
  · rw [hc]
    simp only [Option.toList_some, List.map_cons, List.map_nil]
    refine ⟨fun f' hf' => hw.marks hmarks hf', hw.quiet hquiet, fun htold hfirst => ?_,
      fun htold => ?_⟩
    · exact hw.told_of hmarks htold fun hclear hlost =>
        hfirst s₂ key tcp f d harr hh.greets.get? hd hclear hlost
    · intro s₂' key' tcp' f' d' harr' hf' hd' hclear hlost
      obtain ⟨rfl, rfl, hsome⟩ := hsame s₂' key' tcp' f' d' harr' hf' hd'
      rw [hd] at hsome
      cases hsome
      exact hw.canTell hmarks hquiet htold hclear hlost

theorem Followed.observe {ord : IterOrder} {config : ReassemblyConfig} {w w' : Reported}
    (h : Followed config w) {i : Input} (hw' : observe ord w i = .ok w') :
    Followed config w' ∧ receive ord w.engine i = .ok w'.engine ∧
      (DepthReported w → FirstLossTold ord w.engine i → DepthReported w') ∧
      (DepthReported w' → FirstLossTold ord w.engine i) := by
  obtain ⟨s', hs', -⟩ := bind_eq_ok.mp hw'
  have hready := receive_ready h.ready hs'
  rcases observe_eq h.ready.1 hs' with ⟨new, hdis, heq, hnone⟩ |
    ⟨key, tcp, s₁, s₂, s₃, f, out, swept, evicted, hh, harr, heq⟩
  · rw [heq] at hw'
    cases hw'
    refine ⟨⟨hready, fun k f hf => h.marks k f (hdis.shrinks k f hf), h.quiet, ?_, h.among⟩, hs',
      fun hrep _ => hrep, fun _ s₂ key tcp f d harr => absurd harr (hnone s₂ key tcp)⟩
    rw [hdis.tally]
    exact h.budget
  · rw [heq] at hw'
    cases hw'
    obtain ⟨hmarks, hquiet, hamong, hkept⟩ := h.past hh.before hh.greets rfl
    have hnext := h.continues hh harr hmarks hquiet
    generalize (if (s₂.events.drop w.engine.events.length).any (· == .flowCreated key) then []
      else w.lifetime key) = past at hmarks hquiet hamong hkept hnext
    refine ⟨⟨hready, fun k g hg => ?_, fun k => ?_, ?_, fun k => ?_⟩, hs', fun hrep hfirst k => ?_,
      fun hrep => hnext.condition ?_⟩
    · have hg₃ := hh.after.shrinks k g hg
      rw [hh.acts.flows] at hg₃
      simp only
      split
      · rename_i hk
        rw [hk, get?_place_self] at hg₃
        exact hnext.marks g hg₃
      · rename_i hk
        rw [get?_place_of_ne _ _ hk, hh.greets.get?_other hk] at hg₃
        exact h.marks k g (hh.before.shrinks k g hg₃)
    · simp only
      split
      · rename_i hk
        rw [hk]
        exact hnext.quiet
      · exact h.quiet k
    · rw [hh.after.tally, hh.acts.tally, hh.tally]
      exact h.budget.pushAll _
    · simp only
      split
      · intro e he finding hfinding
        rcases List.mem_append.mp he with he | he
        · exact List.mem_append_left _ (hamong e he finding hfinding)
        · obtain ⟨c, -, rfl⟩ := List.mem_map.mp he
          exact List.mem_append_right _ hfinding
      · exact fun e he finding hfinding => List.mem_append_left _ (h.among k e he finding hfinding)
    · simp only
      split
      · rename_i hk
        rw [hk]
        exact hnext.told (hkept (hrep key)) hfirst
      · exact hrep k
    · have hlast := hrep key
      simpa only [if_true] using hlast

/-- Watching an engine leaves it alone. -/
theorem observe_run (ord : IterOrder) {config : ReassemblyConfig} {s₀ : TcpReassembler}
    (hnew : TcpReassembler.new config = .ok s₀) (inputs : List Input) {s : TcpReassembler}
    (hs : run (receive ord) s₀ inputs = .ok s) :
    ∃ w, run (observe ord) (.init s₀) inputs = .ok w ∧ w.engine = s ∧ Followed config w := by
  induction inputs using List.reverseRecOn generalizing s with
  | nil =>
    cases hs
    exact ⟨_, rfl, rfl, .init hnew⟩
  | append_singleton inputs i ih =>
    rw [run_snoc] at hs
    obtain ⟨s₁, hpre, hlast⟩ := bind_eq_ok.mp hs
    obtain ⟨w, hrun, rfl, hw⟩ := ih hpre
    obtain ⟨w', hw'⟩ : ∃ w', observe ord w i = .ok w' := by
      rcases observe_eq hw.ready.1 hlast with
        ⟨_, -, heq, -⟩ | ⟨_, _, _, _, _, _, _, _, _, -, -, heq⟩
      · exact ⟨_, heq⟩
      · exact ⟨_, heq⟩
    obtain ⟨hfollowed, hrec, -⟩ := hw.observe hw'
    rw [hlast] at hrec
    cases hrec
    exact ⟨w', by rw [run_snoc, hrun]; exact hw', rfl, hfollowed⟩

theorem observe_followed (ord : IterOrder) {config : ReassemblyConfig} {s₀ : TcpReassembler}
    (hnew : TcpReassembler.new config = .ok s₀) {inputs : List Input} {w : Reported}
    (hw : run (observe ord) (.init s₀) inputs = .ok w) : Followed config w :=
  run_keeps (I := Followed config) (fun _ _ _ h hw' => (h.observe hw').1) (.init hnew) hw

/-- Over every capture: all findings raised are kept or counted, and each loss to the depth has one
in the lifetime of its flow if, and only if, the first loss of each lifetime can be told. -/
theorem depth_reported_iff (ord : IterOrder) (config : ReassemblyConfig) (s₀ : TcpReassembler)
    (hnew : TcpReassembler.new config = .ok s₀) (inputs : List Input) :
    (∀ s, run (receive ord) s₀ inputs = .ok s → ∃ w,
      run (observe ord) (.init s₀) inputs = .ok w ∧ w.engine = s ∧
      s.findings = w.raised.take 10000 ∧
      s.stats.droppedFindings = min (w.raised.length - 10000) (2 ^ 64 - 1) ∧
      ∀ k, ∀ e ∈ w.lifetime k, ∀ finding ∈ e.2, finding ∈ w.raised) ∧
    ((∀ pre w, pre <+: inputs → run (observe ord) (.init s₀) pre = .ok w → DepthReported w) ↔
      ∀ pre i w w', (pre ++ [i]) <+: inputs → run (observe ord) (.init s₀) pre = .ok w →
        observe ord w i = .ok w' → FirstLossTold ord w.engine i) := by
  refine ⟨fun s hs => ?_, ?_, ?_⟩
  · obtain ⟨w, hrun, rfl, hw⟩ := observe_run ord hnew inputs hs
    exact ⟨w, hrun, rfl, hw.budget.kept, hw.budget.dropped, hw.among⟩
  · intro hall pre i w w' hpre hrun hw'
    refine ((observe_followed ord hnew hrun).observe hw').2.2.2 (hall _ w' hpre ?_)
    rw [run_snoc, hrun]
    exact hw'
  · intro hfirst pre w hpre hrun
    induction pre using List.reverseRecOn generalizing w with
    | nil =>
      cases hrun
      intro key before entry after hsplit
      cases before <;> cases hsplit
    | append_singleton pre i ih =>
      rw [run_snoc] at hrun
      obtain ⟨w₁, hrun₁, hlast⟩ := bind_eq_ok.mp hrun
      have hold := ih w₁ ((List.prefix_append pre [i]).trans hpre) hrun₁
      exact ((observe_followed ord hnew hrun₁).observe hlast).2.2.1 hold
        (hfirst pre i w₁ w hpre hrun₁ hlast)

/-- A segment that is cut at once, with its finding. -/
theorem depth_reported_cut : ∃ s₀ s w,
    TcpReassembler.new { ReassemblyConfig.default with maxDepth := 4 } = .ok s₀ ∧
    run (receive keyOrder) s₀ [segmentOf left right 7 false [1, 2, 3, 4, 5, 6]] = .ok s ∧
    run (observe keyOrder) (.init s₀) [segmentOf left right 7 false [1, 2, 3, 4, 5, 6]] = .ok w ∧
    s.findings.length = 1 ∧ s.findings = w.raised.take 10000 := by
  obtain ⟨s₀, hnew⟩ : ∃ s₀, TcpReassembler.new
    { ReassemblyConfig.default with maxDepth := 4 } = .ok s₀ := ⟨_, rfl⟩
  have hall := (depth_reported_iff keyOrder _ s₀ hnew
    [segmentOf left right 7 false [1, 2, 3, 4, 5, 6]]).1
  cases hnew
  obtain ⟨w, hw, -, hkept, -⟩ := hall _ rfl
  exact ⟨_, _, w, rfl, rfl, hw, rfl, hkept⟩

/-- Two segments, of which the first fills the depth exactly and the second is lost: the flag is
set, and there is no finding. -/
theorem depth_loss_silent : ∃ s₀ w,
    TcpReassembler.new { ReassemblyConfig.default with maxDepth := 4 } = .ok s₀ ∧
    run (observe keyOrder) (.init s₀)
      [segmentOf left right 7 false [1, 2, 3, 4], segmentOf left right 11 false [5]] = .ok w ∧
    w.raised = [] ∧ ¬ DepthReported w := by
  refine ⟨_, _, rfl, rfl, rfl, fun hreported => ?_⟩
  obtain ⟨e, he, finding, hfinding, -⟩ := hreported sampleKey [_] _ [] rfl rfl
  rcases List.mem_append.mp he with he | he
  · rw [List.mem_singleton.mp he] at hfinding
    cases hfinding
  · rw [List.mem_singleton.mp he] at hfinding
    cases hfinding

end Wirerust.Reports
