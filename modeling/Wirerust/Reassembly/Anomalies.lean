import Wirerust.Reassembly.Alone

/-!
When anomalies are raised, and how many findings are kept.

A `Watched` engine has beside it what it has been seen to do: the payloads of the latest
lifetime of every key, and all findings raised. `run_anomalies` says for every capture that an
anomaly is raised once in a lifetime and direction if its counter has been over the threshold
after some payload and never otherwise, and that the findings kept are the first 10,000
raised, the others being counted.
-/

namespace Wirerust.Anomalies

open Lib Wirerust.Segment Wirerust.Buffer Wirerust.Direction Wirerust.Flow Wirerust.Engine
  Wirerust.Moves Wirerust.Retiring Wirerust.EngineSpec Wirerust.Alone

/-! ## Watching an engine -/

/-- The events a payload raises. -/
def Check.events (c : Check) : Nat :=
  (if c.result = .conflictingOverlap ∨ c.result = .truncated then 1 else 0) + c.raised.length

structure Watched where
  engine : TcpReassembler
  /-- The payloads of the latest lifetime of each key. -/
  history : FlowKey → List Check
  /-- The findings raised, kept or not. -/
  raised : List Finding
  /-- The number of events raised. -/
  events : Nat

def Watched.init (s : TcpReassembler) : Watched := ⟨s, fun _ => [], [], 0⟩

/-- Let the engine process a packet and note what happens to the flow of the packet. -/
def watch (ord : IterOrder) (w : Watched) (i : Input) : Checked Watched := do
  let engine ← receive ord w.engine i
  match ← arrive ord w.engine i.1 i.2 with
  | (_, none) => .ok { w with engine }
  | (s, some (key, tcp)) => do
    let flow ← unwrap (s.flows.get? key)
    let out ← packetAlone s.config key flow (flowPacket i.1 tcp) i.2
    let created := (s.events.drop w.engine.events.length).any (· == .flowCreated key)
    let past := if created then [] else w.history key
    .ok {
      engine
      history := fun k => if k = key then past ++ out.check.toList else w.history k
      raised := w.raised ++ out.findings
      events := w.events + (out.check.toList.map Check.events).sum }

/-- How often an anomaly of a direction is raised in a lifetime. -/
def timesRaised (dir : Direction) (a : Anomaly) (history : List Check) : Nat :=
  ((history.filter fun c => c.dir = dir).flatMap Check.raised).count a

def Anomaly.counter : Anomaly → FlowDirection → Nat
  | .overlaps, d => d.overlapCount
  | .smallSegments, d => d.smallSegmentRun
  | .outOfWindow, d => d.outOfWindowCount

def Anomaly.threshold (config : ReassemblyConfig) : Anomaly → Nat
  | .overlaps => config.overlapAlertThreshold
  | .smallSegments => config.smallSegmentAlertThreshold
  | .outOfWindow => config.outOfWindowAlertThreshold

/-- The counter is over the threshold, and for small segments neither port is ignored. -/
def Exceeds (config : ReassemblyConfig) (key : FlowKey) (a : Anomaly) (d : FlowDirection) : Prop :=
  Anomaly.counter a d > Anomaly.threshold config a ∧
    (a = .smallSegments → key.lowerPort ∉ config.smallSegmentIgnorePorts ∧
      key.upperPort ∉ config.smallSegmentIgnorePorts)

theorem crossed_iff (config : ReassemblyConfig) (key : FlowKey) (a : Anomaly) (d : FlowDirection) :
    Anomaly.crossed config key d a = true ↔ Exceeds config key a d ∧ a.fired d = false := by
  cases a with
  | overlaps =>
    simp [Anomaly.crossed, overlapCrossed, Exceeds, Anomaly.counter, Anomaly.threshold,
      Anomaly.fired]
  | smallSegments =>
    have hports : (config.smallSegmentIgnorePorts.any fun p =>
        p == key.lowerPort || p == key.upperPort) = false ↔
          key.lowerPort ∉ config.smallSegmentIgnorePorts ∧
            key.upperPort ∉ config.smallSegmentIgnorePorts := by
      rw [List.any_eq_false]
      constructor
      · intro h
        constructor
        · intro hmem
          exact absurd (h _ hmem) (by simp)
        · intro hmem
          exact absurd (h _ hmem) (by simp)
      · rintro ⟨hl, hu⟩ p hp
        simp only [Bool.or_eq_true, beq_iff_eq, not_or]
        exact ⟨fun h => hl (h ▸ hp), fun h => hu (h ▸ hp)⟩
    simp only [Anomaly.crossed, smallSegmentsCrossed, Exceeds, Anomaly.counter, Anomaly.threshold,
      Anomaly.fired, Bool.and_eq_true, decide_eq_true_eq, Bool.not_eq_true', hports, forall_const]
    constructor
    · rintro ⟨⟨hc, hf⟩, hp⟩
      exact ⟨⟨hc, hp⟩, hf⟩
    · rintro ⟨⟨hc, hp⟩, hf⟩
      exact ⟨⟨hc, hf⟩, hp⟩
  | outOfWindow =>
    simp [Anomaly.crossed, outOfWindowCrossed, Exceeds, Anomaly.counter, Anomaly.threshold,
      Anomaly.fired]

theorem fired_latchAlerts (config : ReassemblyConfig) (key : FlowKey) (a : Anomaly)
    (d : FlowDirection) :
    a.fired (latchAlerts config key d) = (a.fired d || Anomaly.crossed config key d a) := by
  cases a <;> rfl

/-! ## The latches of a flow -/

/-- No latch has changed. -/
def SameLatches (d d' : FlowDirection) : Prop := ∀ a : Anomaly, a.fired d' = a.fired d

namespace SameLatches

theorem refl (d : FlowDirection) : SameLatches d d := fun _ => rfl

theorem trans {d d' d'' : FlowDirection} (h : SameLatches d d') (h' : SameLatches d' d'') :
    SameLatches d d'' := fun a => (h' a).trans (h a)

theorem setIsn (d : FlowDirection) (isn : UInt32) : SameLatches d (setIsn d isn) := by
  intro a
  unfold Segment.setIsn
  split
  · cases a <;> rfl
  · rfl

theorem countSmallSegment (config : ReassemblyConfig) (d : FlowDirection) (payload : List UInt8)
    (result : InsertResult) : SameLatches d (countSmallSegment config d payload result) := by
  intro a
  unfold Engine.countSmallSegment
  split
  · split <;> cases a <;> rfl
  · rfl

theorem of_stored {d d' : FlowDirection} {pieces : List (Chunk UInt8)} (h : Stored d d' pieces) :
    SameLatches d d' := by
  intro a
  rw [h.frame]
  cases a <;> rfl

theorem of_flushed {d d' : FlowDirection} {chunks : List (Chunk UInt8)} (h : Flushed d d' chunks) :
    SameLatches d d' := by
  intro a
  rw [h.frame]
  cases a <;> rfl

theorem setDir {f : TcpFlow} {dir : Direction} {d : FlowDirection}
    (h : SameLatches (f.dir dir) d) (w : Direction) :
    SameLatches (f.dir w) ((f.setDir dir d).dir w) := by
  by_cases hw : w = dir
  · subst hw
    rw [TcpFlow.dir_setDir_self]
    exact h
  · rw [TcpFlow.dir_setDir_of_ne f hw]
    exact refl _

theorem learnIsn (f : TcpFlow) (src : Endpoint) (seq : UInt32) (w : Direction) :
    SameLatches (f.dir w) ((learnIsn f src seq).dir w) := setDir (setIsn _ seq) w

theorem handshake (f : TcpFlow) (p : FlowPacket) (w : Direction) :
    SameLatches (f.dir w) ((handshake f p).dir w) := by
  have hsyn : SameLatches (f.dir w) ((applySynFlags f p.src p.dst p.tcp).dir w) := by
    rcases applySynFlags_cases f p.src p.dst p.tcp with ⟨-, h⟩ | ⟨-, -, h⟩ | ⟨-, -, h⟩
    · rw [h]
      exact refl _
    · rw [h, dir_onSyn]
      simpa using learnIsn (f.setInitiator p.src) p.src p.tcp.seq w
    · rw [h, dir_onSynAck]
      simpa using learnIsn (f.setInitiator p.dst) p.src p.tcp.seq w
  refine hsyn.trans ?_
  unfold Moves.handshake applyFinFlag
  split
  · rw [dir_onFin]
    exact setDir (fun a => by cases a <;> rfl) w
  · exact refl _

theorem joinFlow (f : TcpFlow) (src : Endpoint) (seq : UInt32) (w : Direction) :
    SameLatches (f.dir w) ((joinFlow f src seq).1.dir w) := by
  rw [joinFlow_eq]
  simpa using learnIsn (Moves.joined f src) src (seq - 1) w

end SameLatches

theorem length_insertionFindings (config : ReassemblyConfig) (key : FlowKey) (srcIp : IpAddr)
    (timestamp : UInt32) (result : InsertResult) :
    (insertionFindings config key srcIp timestamp result).length =
      if result = .conflictingOverlap ∨ result = .truncated then 1 else 0 := by
  cases result <;> rfl

/-- What the latches of a flow have to do with the payload a packet brings. -/
structure Latched (config : ReassemblyConfig) (key : FlowKey) (f : TcpFlow) (c : Check)
    (flow : Option TcpFlow) : Prop where
  raised : c.raised = Anomaly.all.filter (Anomaly.crossed config key c.flowDir)
  before : SameLatches (f.dir c.dir) c.flowDir
  own : ∀ f', flow = some f' →
    SameLatches (latchAlerts config key c.flowDir) (f'.dir c.dir)
  other : ∀ f', flow = some f' → ∀ w, w ≠ c.dir → SameLatches (f.dir w) (f'.dir w)

/-- A payload: the flow and the direction it goes to, that direction after the insertion and after
the flush, and the result. -/
structure Takes (config : ReassemblyConfig) (key : FlowKey) (f : TcpFlow) (p : FlowPacket)
    (timestamp : UInt32) (f' : TcpFlow) (out : Outcome) (f₂ : TcpFlow) (dir : Direction)
    (d d' : FlowDirection) (result : InsertResult) : Prop where
  joins : f₂ = (joinFlow f p.src p.tcp.seq).1 ∧ dir = (joinFlow f p.src p.tcp.seq).2.1
  stored : Stored (f₂.dir dir) d
    (insertedPieces (f₂.dir dir) p.tcp.seq p.payload config.limits)
  answered : Answered (f₂.dir dir) p.tcp.seq p.payload config.limits (d, result)
  flushed : ∃ chunks, Flushed
    (latchAlerts config key (countSmallSegment config d p.payload result)) d' chunks
  flow : f' = f₂.setDir dir d'
  check : out.check = some ⟨dir, countSmallSegment config d p.payload result, result,
    Anomaly.all.filter (Anomaly.crossed config key (countSmallSegment config d p.payload result))⟩
  findings : out.findings = insertionFindings config key p.src.1 timestamp result ++
    (Anomaly.all.filter (Anomaly.crossed config key
      (countSmallSegment config d p.payload result))).map
      (Anomaly.finding config key (countSmallSegment config d p.payload result) p.src.1 timestamp
        dir)

theorem payloadAlone_eq_ok {config : ReassemblyConfig} {key : FlowKey} {f f' : TcpFlow}
    {p : FlowPacket} {timestamp : UInt32} {out : Outcome} (hwf : ∀ w, Wf (f.dir w))
    (h : payloadAlone config key f p timestamp = .ok (f', out)) :
    out.flow = some f' ∧
    ((p.payload = [] ∧ out.check = none ∧ out.findings = [] ∧ f' = f) ∨
      (p.payload ≠ [] ∧
        ∃ f₂ dir d d' result, Takes config key f p timestamp f' out f₂ dir d d' result)) := by
  unfold payloadAlone at h
  split at h
  · rename_i hempty
    cases h
    exact ⟨rfl, .inl ⟨List.isEmpty_iff.mp hempty, rfl, rfl, rfl⟩⟩
  · rename_i hempty
    obtain ⟨⟨f₂, dir, joined⟩, hjoin⟩ : ∃ out, joinFlow f p.src p.tcp.seq = out := ⟨_, rfl⟩
    have hwf₂ : Wf (f₂.dir dir) := by
      have := (kept_joinFlow f p.src p.tcp.seq dir).wf (hwf dir)
      rwa [hjoin] at this
    simp only [hjoin, bind_eq_ok] at h
    obtain ⟨⟨d, result⟩, hins, ⟨d', flushed⟩, hfl, heq⟩ := h
    cases heq
    obtain ⟨hst, hans⟩ :=
      (insertSegment_spec hwf₂.toTidy p.tcp.seq p.payload config.limits).apply hins
    have hfl' : Flushed (latchAlerts config key (countSmallSegment config d p.payload result)) d'
        flushed := by
      have hmark :
          Marked d (latchAlerts config key (countSmallSegment config d p.payload result)) :=
        Marked.trans (marked_countSmallSegment config d p.payload result) rfl
      exact (flushContiguous_returns ((Kept.of_marked hmark).wf
        (Direction.Stored.wf hst hwf₂))).apply hfl
    exact ⟨rfl, .inr ⟨fun hnil => hempty (by rw [hnil]; rfl), f₂, dir, d, d', result,
      ⟨by rw [hjoin], by rw [hjoin]⟩, hst, hans, ⟨flushed, hfl'⟩, rfl, rfl, rfl⟩⟩

theorem Takes.latched {config : ReassemblyConfig} {key : FlowKey} {f f' f₂ : TcpFlow}
    {p : FlowPacket} {timestamp : UInt32} {out : Outcome} {dir : Direction}
    {d d' : FlowDirection} {result : InsertResult}
    (h : Takes config key f p timestamp f' out f₂ dir d d' result) :
    ∃ c, out.check = some c ∧ out.findings.length = Check.events c ∧
      Latched config key f c (some f') := by
  have hlat : ∀ w, SameLatches (f.dir w) (f₂.dir w) := fun w => by
    rw [h.joins.1]
    exact SameLatches.joinFlow f p.src p.tcp.seq w
  obtain ⟨chunks, hfl⟩ := h.flushed
  refine ⟨_, h.check, ?_, rfl, ?_, ?_, ?_⟩
  · rw [h.findings, List.length_append, List.length_map, length_insertionFindings]
    rfl
  · exact ((hlat dir).trans (.of_stored h.stored)).trans (.countSmallSegment _ _ _ _)
  · intro g hg
    cases hg
    rw [h.flow, TcpFlow.dir_setDir_self]
    exact .of_flushed hfl
  · intro g hg w hw
    cases hg
    rw [h.flow, TcpFlow.dir_setDir_of_ne f₂ hw]
    exact hlat w

/-- A packet without RST brings its payload, and the flow goes on as it is unless it is over. -/
theorem packetAlone_eq_ok {config : ReassemblyConfig} {key : FlowKey} {f : TcpFlow}
    {p : FlowPacket} {timestamp : UInt32} {out : Outcome} (hwf : ∀ w, Wf (f.dir w))
    (h : packetAlone config key f p timestamp = .ok out) :
    (p.tcp.rst = true ∧ out.flow = none ∧ out.check = none ∧ out.findings = []) ∨
    (p.tcp.rst = false ∧
      ∃ f' out', out.check = out'.check ∧ out.findings = out'.findings ∧
        (∀ g, out.flow = some g → g = f') ∧
        ((p.payload = [] ∧ out'.check = none ∧ out'.findings = [] ∧ f' = handshake f p) ∨
          (p.payload ≠ [] ∧ ∃ f₂ dir d d' result,
            Takes config key (handshake f p) p timestamp f' out' f₂ dir d d' result))) := by
  unfold packetAlone at h
  split at h
  · rename_i hrst
    rw [bind_eq_ok] at h
    obtain ⟨calls, -, heq⟩ := h
    cases heq
    exact .inl ⟨hrst, rfl, rfl, rfl⟩
  · rename_i hrst
    rw [bind_eq_ok] at h
    obtain ⟨⟨f', out'⟩, hpay, h⟩ := h
    obtain ⟨hflow, hcases⟩ := payloadAlone_eq_ok (fun w => (kept_handshake f p w).wf (hwf w)) hpay
    refine .inr ⟨Bool.eq_false_of_not_eq_true hrst, f', out', ?_⟩
    simp only at h
    split at h
    · rw [bind_eq_ok] at h
      obtain ⟨calls, -, heq⟩ := h
      cases heq
      refine ⟨rfl, rfl, fun g hg => ?_, hcases⟩
      cases hg
    · cases h
      refine ⟨rfl, rfl, fun g hg => ?_, hcases⟩
      rw [hflow] at hg
      cases hg
      rfl

theorem packetAlone_latches {config : ReassemblyConfig} {key : FlowKey} {f : TcpFlow}
    {p : FlowPacket} {timestamp : UInt32} {out : Outcome} (hwf : ∀ w, Wf (f.dir w))
    (h : packetAlone config key f p timestamp = .ok out) :
    (out.check = none ∧ out.findings = [] ∧
      ∀ f', out.flow = some f' → ∀ w, SameLatches (f.dir w) (f'.dir w)) ∨
    ∃ c, out.check = some c ∧ out.findings.length = Check.events c ∧
      Latched config key f c out.flow := by
  rcases packetAlone_eq_ok hwf h with ⟨-, hflow, hcheck, hfind⟩ |
    ⟨-, f', out', hcheck, hfind, hlast, hcases⟩
  · refine .inl ⟨hcheck, hfind, fun f' hf' => ?_⟩
    rw [hflow] at hf'
    cases hf'
  · have hhand := SameLatches.handshake f p
    rcases hcases with ⟨-, hnone, hnil, rfl⟩ | ⟨-, f₂, dir, d, d', result, htakes⟩
    · refine .inl ⟨hcheck.trans hnone, hfind.trans hnil, fun g hg w => ?_⟩
      rw [hlast g hg]
      exact hhand w
    · obtain ⟨c, hc, hlen, hlat⟩ := htakes.latched
      refine .inr ⟨c, hcheck.trans hc, by rw [hfind]; exact hlen, hlat.raised,
        (hhand c.dir).trans hlat.before, fun g hg => ?_, fun g hg w hw => ?_⟩
      · rw [hlast g hg]
        exact hlat.own f' rfl
      · rw [hlast g hg]
        exact (hhand w).trans (hlat.other f' rfl w hw)

/-! ## One lifetime -/

/-- The anomalies of a lifetime are raised when they should be, and once. -/
def Exact (config : ReassemblyConfig) (key : FlowKey) (history : List Check) : Prop :=
  ∀ dir a, timesRaised dir a history ≤ 1 ∧
    (timesRaised dir a history = 1 ↔
      ∃ c ∈ history, c.dir = dir ∧ Exceeds config key a c.flowDir)

/-- The latches of a flow say what has been raised. -/
def Agrees (f : TcpFlow) (history : List Check) : Prop :=
  ∀ dir a, a.fired (f.dir dir) = true ↔ timesRaised dir a history = 1

theorem timesRaised_snoc (dir : Direction) (a : Anomaly) (history : List Check) (c : Check) :
    timesRaised dir a (history ++ [c]) =
      timesRaised dir a history + if c.dir = dir then c.raised.count a else 0 := by
  unfold timesRaised
  by_cases hdir : c.dir = dir
  · simp [hdir]
  · simp [hdir]

theorem count_raised (config : ReassemblyConfig) (key : FlowKey) (a : Anomaly) (d : FlowDirection) :
    (Anomaly.all.filter (Anomaly.crossed config key d)).count a =
      if Anomaly.crossed config key d a then 1 else 0 := by
  have hall : Anomaly.all.count a = 1 := by
    cases a <;> rfl
  split
  · rw [List.count_filter (by assumption), hall]
  · rw [List.count_eq_zero]
    intro hmem
    exact absurd (List.mem_filter.mp hmem).2 (by assumption)

/-- One more payload. -/
theorem Exact.snoc {config : ReassemblyConfig} {key : FlowKey} {history : List Check}
    {f : TcpFlow} {c : Check} {flow : Option TcpFlow} (h : Exact config key history)
    (ha : Agrees f history) (hlat : Latched config key f c flow) :
    Exact config key (history ++ [c]) ∧
      ∀ f', flow = some f' → Agrees f' (history ++ [c]) := by
  have hown : ∀ a, timesRaised c.dir a (history ++ [c]) = timesRaised c.dir a history +
      if Anomaly.crossed config key c.flowDir a then 1 else 0 := by
    intro a
    rw [timesRaised_snoc, if_pos rfl, hlat.raised, count_raised]
  have hother : ∀ dir a, c.dir ≠ dir →
      timesRaised dir a (history ++ [c]) = timesRaised dir a history := by
    intro dir a hdir
    rw [timesRaised_snoc, if_neg hdir, Nat.add_zero]
  have hcrossed : ∀ a, Anomaly.crossed config key c.flowDir a = true ↔
      Exceeds config key a c.flowDir ∧ timesRaised c.dir a history ≠ 1 := by
    intro a
    rw [crossed_iff, hlat.before a, ← Bool.not_eq_true, ha c.dir a]
  constructor
  · intro dir a
    obtain ⟨hle, hiff⟩ := h dir a
    simp only [List.mem_append, List.mem_singleton, or_and_right, exists_or, exists_eq_left]
    by_cases hdir : c.dir = dir
    · subst hdir
      rw [hown a]
      by_cases hc : Anomaly.crossed config key c.flowDir a = true
      · obtain ⟨hex, hne⟩ := (hcrossed a).mp hc
        rw [if_pos hc]
        exact ⟨by omega, fun _ => .inr ⟨rfl, hex⟩, fun _ => by omega⟩
      · rw [if_neg hc, Nat.add_zero]
        refine ⟨hle, fun hone => .inl (hiff.mp hone), ?_⟩
        rintro (hold | ⟨-, hex⟩)
        · exact hiff.mpr hold
        · exact Classical.byContradiction fun hne => hc ((hcrossed a).mpr ⟨hex, hne⟩)
    · rw [hother dir a hdir]
      refine ⟨hle, fun hone => .inl (hiff.mp hone), ?_⟩
      rintro (hold | ⟨heq, -⟩)
      · exact hiff.mpr hold
      · exact absurd heq hdir
  · intro f' hf' dir a
    have hle := (h dir a).1
    by_cases hdir : c.dir = dir
    · subst hdir
      rw [hlat.own f' hf' a, fired_latchAlerts, hown a, hlat.before a, Bool.or_eq_true, ha c.dir a]
      by_cases hc : Anomaly.crossed config key c.flowDir a = true
      · have hne := ((hcrossed a).mp hc).2
        rw [if_pos hc]
        exact ⟨fun _ => by omega, fun _ => .inr hc⟩
      · rw [if_neg hc, Nat.add_zero]
        exact ⟨fun hor => hor.resolve_right hc, .inl⟩
    · rw [hother dir a hdir, hlat.other f' hf' dir (Ne.symm hdir) a]
      exact ha dir a

/-! ## Whole captures -/

structure Sound (config : ReassemblyConfig) (w : Watched) : Prop where
  ready : Ready (view w.engine) ∧ w.engine.config = config
  exact : ∀ k, Exact config k (w.history k)
  agrees : ∀ k f, w.engine.flows.get? k = some f → Agrees f (w.history k)
  budget : Capped.Holds maxFindings (2 ^ 64 - 1) w.raised (tally w.engine)
  events : w.raised.length = w.events

theorem Exact.nil (config : ReassemblyConfig) (key : FlowKey) : Exact config key [] := by
  intro dir a
  simp [timesRaised]

theorem Greets.wf {s s' : TcpReassembler} {key : FlowKey} {timestamp : UInt32} {f : TcpFlow}
    (h : Greets s s' key timestamp f)
    (hwf : ∀ k g, s.flows.get? k = some g → ∀ w, Wf (g.dir w)) (w : Direction) :
    Wf (f.dir w) := by
  cases h with
  | created index hnone hflows hevents => cases w <;> exact Runs.Inv.init.wf
  | known g index hg hflows hevents =>
    have := hwf key g hg w
    cases w <;> exact this

/-- The lifetime a packet falls into: its flow is new, or is the one of the table. -/
theorem Greets.past {s s₁ s₂ : TcpReassembler} {key : FlowKey} {timestamp : UInt32}
    {f : TcpFlow} {swept : List Event} (hdis : Dismissed s s₁ swept)
    (h : Greets s₁ s₂ key timestamp f) {α : Type} {old past : List α}
    (hpast : past = if (s₂.events.drop s.events.length).any (· == .flowCreated key) then []
      else old) :
    (past = [] ∧ ∀ w, f.dir w = FlowDirection.new) ∨
      (past = old ∧ ∃ g, s.flows.get? key = some g ∧ ∀ w, f.dir w = g.dir w) := by
  cases h with
  | created index hnone hflows hevents =>
    rw [hevents, hdis.events, List.append_assoc, List.drop_left, if_pos (by simp)] at hpast
    refine .inl ⟨hpast, fun w => ?_⟩
    cases w <;> rfl
  | known g index hg hflows hevents =>
    have hnone : (swept.any (· == .flowCreated key)) = false := by
      rw [List.any_eq_false]
      intro e he heq
      have := hdis.noneCreated e he
      rw [eq_of_beq heq] at this
      cases this
    rw [hevents, hdis.events, List.drop_left, hnone, if_neg Bool.false_ne_true] at hpast
    refine .inr ⟨hpast, g, hdis.shrinks key g hg, fun w => ?_⟩
    cases w <;> rfl

theorem Greets.history {s s₁ s₂ : TcpReassembler} {key : FlowKey} {timestamp : UInt32}
    {f : TcpFlow} {swept : List Event} (hdis : Dismissed s s₁ swept)
    (h : Greets s₁ s₂ key timestamp f) {config : ReassemblyConfig} {old past : List Check}
    (hpast : past = if (s₂.events.drop s.events.length).any (· == .flowCreated key) then []
      else old)
    (hexact : Exact config key old)
    (hagrees : ∀ g, s.flows.get? key = some g → Agrees g old) :
    Exact config key past ∧ Agrees f past := by
  rcases Greets.past hdis h hpast with ⟨rfl, hnew⟩ | ⟨rfl, g, hg, hsame⟩
  · refine ⟨.nil config key, fun dir a => ?_⟩
    rw [hnew dir]
    cases a <;> simp [timesRaised, Anomaly.fired, FlowDirection.new]
  · refine ⟨hexact, fun dir a => ?_⟩
    rw [hsame dir]
    exact hagrees g hg dir a

theorem Sound.init {config : ReassemblyConfig} {s₀ : TcpReassembler}
    (hnew : TcpReassembler.new config = .ok s₀) : Sound config (.init s₀) := by
  refine ⟨ready_new hnew, fun k => .nil config k, fun k f hf => ?_, ?_, rfl⟩
  · rw [Watched.init, show s₀.flows = .empty from congrArg View.flows (new_eq_ok hnew).2] at hf
    cases hf
  · simp only [TcpReassembler.new, bind_eq_ok] at hnew
    obtain ⟨-, -, -, -, -, -, -, -, -, -, hs⟩ := hnew
    cases hs
    exact .nil maxFindings (2 ^ 64 - 1)

/-- What `watch` notes of a packet. -/
theorem watch_eq {ord : IterOrder} {w : Watched} {i : Input} {s' : TcpReassembler}
    (hr : Ready (view w.engine)) (hs' : receive ord w.engine i = .ok s') :
    (∃ new, Dismissed w.engine s' new ∧ watch ord w i = .ok { w with engine := s' }) ∨
    ∃ key tcp s₁ s₂ s₃ f out swept evicted,
      Handled w.engine s' key tcp i.1 i.2 s₁ s₂ s₃ f out swept evicted ∧
      watch ord w i = .ok {
        engine := s'
        history := fun k => if k = key then
          (if (s₂.events.drop w.engine.events.length).any (· == .flowCreated key) then []
            else w.history key) ++ out.check.toList
          else w.history k
        raised := w.raised ++ out.findings
        events := w.events + (out.check.toList.map Check.events).sum } := by
  unfold watch
  rw [hs']
  rcases processPacket_eq_ok hr hs' with ⟨-, s₂, new, hdis, harr⟩ |
    ⟨key, tcp, s₁, s₂, s₃, f, out, swept, evicted, -, hh, harr⟩
  · refine .inl ⟨new, hdis, ?_⟩
    rw [harr]
    rfl
  · refine .inr ⟨key, tcp, s₁, s₂, s₃, f, out, swept, evicted, hh, ?_⟩
    have halone := hh.alone
    rw [← hh.config] at halone
    simp only [harr, bind, Except.bind, hh.greets.get?, unwrap, halone]

theorem Sound.handled {config : ReassemblyConfig} {w : Watched} (h : Sound config w)
    {s' s₁ s₂ s₃ : TcpReassembler} {key : FlowKey} {tcp : TcpFields} {packet : ParsedPacket}
    {timestamp : UInt32} {f : TcpFlow} {out : Outcome} {swept evicted : List Event}
    (hh : Handled w.engine s' key tcp packet timestamp s₁ s₂ s₃ f out swept evicted)
    (hr : Ready (view s') ∧ s'.config = config) :
    Sound config {
      engine := s'
      history := fun k => if k = key then
        (if (s₂.events.drop w.engine.events.length).any (· == .flowCreated key) then []
          else w.history key) ++ out.check.toList
        else w.history k
      raised := w.raised ++ out.findings
      events := w.events + (out.check.toList.map Check.events).sum } := by
  have hwf : ∀ d, Wf (f.dir d) :=
    Greets.wf hh.greets fun k g hg => h.ready.1.wf.wf k g (hh.before.shrinks k g hg)
  have halone := hh.alone
  rw [h.ready.2] at halone
  obtain ⟨hpast, hagrees⟩ := Greets.history hh.before hh.greets rfl (h.exact key) (h.agrees key)
  generalize (if (s₂.events.drop w.engine.events.length).any (· == .flowCreated key) then []
    else w.history key) = past at hpast hagrees
  have hbudget : Capped.Holds maxFindings (2 ^ 64 - 1) (w.raised ++ out.findings) (tally s') := by
    rw [hh.after.tally, hh.acts.tally, hh.tally]
    exact h.budget.pushAll _
  have hlast : Exact config key (past ++ out.check.toList) ∧
      (∀ f', out.flow = some f' → Agrees f' (past ++ out.check.toList)) ∧
      out.findings.length = (out.check.toList.map Check.events).sum := by
    rcases packetAlone_latches hwf halone with ⟨hnone, hnil, hsame⟩ | ⟨c, hc, hlen, hlat⟩
    · rw [hnone, hnil]
      refine ⟨by simpa using hpast, fun f' hf' dir a => ?_, rfl⟩
      rw [hsame f' hf' dir a]
      simpa using hagrees dir a
    · rw [hc]
      obtain ⟨hexact, hnext⟩ := hpast.snoc hagrees hlat
      exact ⟨hexact, hnext, by simpa using hlen⟩
  obtain ⟨hexact, hnext, hlen⟩ := hlast
  refine ⟨hr, fun k => ?_, fun k g hg => ?_, hbudget, ?_⟩
  · simp only
    split
    · rename_i hk
      rw [hk]
      exact hexact
    · exact h.exact k
  · have hg₃ := hh.after.shrinks k g hg
    rw [hh.acts.flows] at hg₃
    simp only
    split
    · rename_i hk
      rw [hk, get?_place_self] at hg₃
      exact hnext g hg₃
    · rename_i hk
      rw [get?_place_of_ne _ _ hk, hh.greets.get?_other hk] at hg₃
      exact h.agrees k g (hh.before.shrinks k g hg₃)
  · rw [List.length_append, h.events, hlen]

theorem watch_sound {ord : IterOrder} {config : ReassemblyConfig} {w w' : Watched}
    (h : Sound config w) {i : Input} (hw' : watch ord w i = .ok w') :
    Sound config w' ∧ receive ord w.engine i = .ok w'.engine := by
  obtain ⟨s', hs', -⟩ := bind_eq_ok.mp hw'
  have hready := receive_ready h.ready hs'
  rcases watch_eq h.ready.1 hs' with ⟨new, hdis, heq⟩ |
    ⟨key, tcp, s₁, s₂, s₃, f, out, swept, evicted, hh, heq⟩
  · rw [heq] at hw'
    cases hw'
    refine ⟨⟨hready, h.exact, fun k f hf => h.agrees k f (hdis.shrinks k f hf), ?_, h.events⟩, hs'⟩
    rw [hdis.tally]
    exact h.budget
  · rw [heq] at hw'
    cases hw'
    exact ⟨h.handled hh hready, hs'⟩

/-- The watch goes on as long as the engine does. -/
theorem watch_follows {ord : IterOrder} {config : ReassemblyConfig} {w : Watched}
    (h : Sound config w) {i : Input} {s' : TcpReassembler}
    (hs' : receive ord w.engine i = .ok s') :
    ∃ w', watch ord w i = .ok w' ∧ Sound config w' ∧ w'.engine = s' := by
  have hnext : ∃ w', watch ord w i = .ok w' := by
    rcases watch_eq h.ready.1 hs' with ⟨_, -, heq⟩ | ⟨_, _, _, _, _, _, _, _, _, -, heq⟩
    · exact ⟨_, heq⟩
    · exact ⟨_, heq⟩
  obtain ⟨w', hw'⟩ := hnext
  obtain ⟨hsound, hrec⟩ := watch_sound h hw'
  exact ⟨w', hw', hsound, Except.ok.inj (hrec.symm.trans hs')⟩

theorem watch_run_sound (ord : IterOrder) {config : ReassemblyConfig} {s₀ : TcpReassembler}
    (hnew : TcpReassembler.new config = .ok s₀) (inputs : List Input) :
    ReturnsIf (Lasting config (inputs.map arrival)) (run (watch ord) (.init s₀) inputs)
      (Sound config) := by
  refine ⟨fun hlast => ?_, fun w hw => ?_⟩
  · obtain ⟨s, hs⟩ := (receive_run_counted ord hnew inputs).1 hlast
    have hstep : ∀ (pre : List Input) s w i s', Sound config w ∧ w.engine = s →
        receive ord s i = .ok s' →
        ∃ w', watch ord w i = .ok w' ∧ Sound config w' ∧ w'.engine = s' :=
      fun _ _ _ _ _ hR hs' => watch_follows hR.1 (hR.2 ▸ hs')
    obtain ⟨w, hw, -⟩ := run_simulates (R := fun _ s w => Sound config w ∧ w.engine = s) hstep
      inputs ⟨.init hnew, rfl⟩ hs
    exact ⟨w, hw⟩
  · exact run_keeps (fun w i w' hw hw' => (watch_sound hw hw').1) (.init hnew) hw

/-- Watching an engine leaves it alone. -/
theorem watch_engine (ord : IterOrder) {config : ReassemblyConfig} {s₀ : TcpReassembler}
    (hnew : TcpReassembler.new config = .ok s₀) (inputs : List Input) {w : Watched}
    (hw : run (watch ord) (.init s₀) inputs = .ok w) :
    run (receive ord) s₀ inputs = .ok w.engine := by
  suffices h : Sound config w ∧ run (receive ord) s₀ inputs = .ok w.engine from h.2
  induction inputs using List.reverseRecOn generalizing w with
  | nil =>
    cases hw
    exact ⟨.init hnew, rfl⟩
  | append_singleton inputs i ih =>
    rw [run_snoc] at hw
    obtain ⟨w₁, hpre, hlast⟩ := bind_eq_ok.mp hw
    obtain ⟨hsound, hrun⟩ := ih hpre
    obtain ⟨hsound', hrec⟩ := watch_sound hsound hlast
    exact ⟨hsound', by rw [run_snoc, hrun]; exact hrec⟩

/-- `finalize` adds at most one finding. -/
theorem finalize_findings (ord : IterOrder) {s : TcpReassembler} (hwf : EngineWf (view s)) :
    Returns (finalize ord s) (fun s' => s'.findings.length ≤ s.findings.length + 1) := by
  cases hfin : s.finalized with
  | true =>
    rw [finalize, hfin]
    exact Returns.pure (Nat.le_succ _)
  | false =>
    obtain ⟨s', hs', -⟩ := finalize_closes ord hwf hfin
    refine ⟨s', hs', ?_⟩
    simp only [finalize, hfin, Bool.false_eq_true, if_false, bind_eq_ok] at hs'
    obtain ⟨s₁, hloop, hlast⟩ := hs'
    obtain ⟨new, hdis⟩ := foldlM_dismisses (fun t key t' ht => by
      obtain ⟨f, calls, hclosed⟩ := closeFlow_eq_ok ht
      exact ⟨calls, hclosed.dismissed rfl⟩) _ hloop
    have hsame : s₁.findings = s.findings := congrArg Capped.kept hdis.tally
    split at hlast
    · cases hlast
      simp [hsame]
    · cases hlast
      rw [hsame]
      exact Nat.le_succ _

/-- Every capture: when anomalies are raised, and how many findings there are. -/
theorem run_anomalies (ord : IterOrder) (config : ReassemblyConfig) (s₀ : TcpReassembler)
    (hnew : TcpReassembler.new config = .ok s₀) (inputs : List Input) :
    ReturnsIf (Lasting config (inputs.map arrival)) (run (watch ord) (.init s₀) inputs) (fun w =>
      run (receive ord) s₀ inputs = .ok w.engine ∧
      (∀ k dir a, timesRaised dir a (w.history k) ≤ 1 ∧
        (timesRaised dir a (w.history k) = 1 ↔
          ∃ c ∈ w.history k, c.dir = dir ∧ Exceeds config k a c.flowDir)) ∧
      w.engine.findings.length ≤ 10000 ∧
      w.engine.findings = w.raised.take 10000 ∧
      (w.events < 2 ^ 64 →
        w.engine.findings.length + w.engine.stats.droppedFindings = w.events) ∧
      Returns (finalize ord w.engine) (fun s' => s'.findings.length ≤ 10001)) := by
  have hsound := watch_run_sound ord hnew inputs
  refine ⟨hsound.1, fun w hw => ?_⟩
  have h := hsound.2 w hw
  have hle : w.engine.findings.length ≤ 10000 := h.budget.length_le
  refine ⟨watch_engine ord hnew inputs hw, h.exact, hle, h.budget.kept, fun hlt => ?_, ?_⟩
  · have hevents := h.events
    rw [← hevents]
    exact h.budget.total (by omega)
  · exact (finalize_findings ord h.ready.1.wf).mono fun s' hs' => by omega

/-- One small segment is one too many here, and is reported once. -/
theorem run_anomalies_small : ∃ s₀ w,
    TcpReassembler.new { ReassemblyConfig.default with smallSegmentAlertThreshold := 0 } =
      .ok s₀ ∧
    run (watch keyOrder) (.init s₀)
      [segmentOf left right 7 false [1], segmentOf left right 8 false [2]] = .ok w ∧
    timesRaised .clientToServer .smallSegments (w.history sampleKey) = 1 ∧ w.events = 1 ∧
    w.engine.findings.length + w.engine.stats.droppedFindings = w.events := by
  obtain ⟨s₀, hnew⟩ : ∃ s₀, TcpReassembler.new
    { ReassemblyConfig.default with smallSegmentAlertThreshold := 0 } = .ok s₀ := ⟨_, rfl⟩
  have hall := run_anomalies keyOrder _ s₀ hnew
    [segmentOf left right 7 false [1], segmentOf left right 8 false [2]]
  cases hnew
  obtain ⟨-, -, -, -, hsum, -⟩ := hall.2 _ rfl
  exact ⟨_, _, rfl, rfl, by decide, by decide, hsum (by decide)⟩

end Wirerust.Anomalies
