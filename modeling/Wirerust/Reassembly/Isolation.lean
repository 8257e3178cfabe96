import Wirerust.Reassembly.Alone
import Wirerust.Reassembly.Lifetimes

/-!
Flows do not influence each other.

As long as no flow is evicted or expired, what the handler sees of a key is what a machine
with one flow and no table makes of the packets of that key (`run_alone`). Two captures that
agree on the packets of a key therefore lead to the same calls for it (`run_isolated`),
whatever else they hold. The one thing of a flow that other packets leave a mark on is its
`last_activity_index`, which `still` takes away.
-/

namespace Wirerust.Isolation

open Lib Wirerust.Segment Wirerust.Direction Wirerust.Flow Wirerust.Engine Wirerust.Moves
  Wirerust.Retiring Wirerust.EngineSpec Wirerust.Alone Wirerust.Lifetimes

/-! ## The packet index -/

/-- The flow without the index of its last packet. -/
def still (f : TcpFlow) : TcpFlow := { f with lastActivityIndex := 0 }

section Still

variable (f : TcpFlow)

@[simp] theorem still_dir (w : Direction) : (still f).dir w = f.dir w := by
  cases w <;> rfl

@[simp] theorem still_direction (src : Endpoint) : (still f).direction src = f.direction src := rfl

@[simp] theorem still_state : (still f).state = f.state := rfl

@[simp] theorem setDir_still (w : Direction) (d : FlowDirection) :
    (still f).setDir w d = still (f.setDir w d) := by
  cases w <;> rfl

@[simp] theorem setInitiator_still (e : Endpoint) :
    (still f).setInitiator e = still (f.setInitiator e) := by
  by_cases h : f.initiator.isNone
  · simp [TcpFlow.setInitiator, still, h]
  · simp [TcpFlow.setInitiator, still, h]

@[simp] theorem onSyn_still : (still f).onSyn = still f.onSyn := by
  by_cases h : f.state = .new
  · simp [TcpFlow.onSyn, still, h]
  · simp [TcpFlow.onSyn, still, h]

@[simp] theorem onSynAck_still : (still f).onSynAck = still f.onSynAck := by
  by_cases h : f.state = .synSent ∨ f.state = .new
  · simp [TcpFlow.onSynAck, still, h]
  · simp [TcpFlow.onSynAck, still, h]

@[simp] theorem onDataWithoutSyn_still :
    (still f).onDataWithoutSyn = still f.onDataWithoutSyn := by
  by_cases h : f.state = .new
  · simp [TcpFlow.onDataWithoutSyn, still, h]
  · simp [TcpFlow.onDataWithoutSyn, still, h]

@[simp] theorem onFin_still : (still f).onFin = still f.onFin := by
  by_cases hcount : saturatingInc 8 f.finCount ≥ 2
  · simp [TcpFlow.onFin, still, hcount]
  · by_cases h : f.state = .established ∨ f.state = .synSent
    · simp [TcpFlow.onFin, still, hcount, h]
    · simp [TcpFlow.onFin, still, hcount, h]

@[simp] theorem learnIsn_still (src : Endpoint) (seq : UInt32) :
    learnIsn (still f) src seq = still (learnIsn f src seq) := by
  simp [learnIsn]

theorem applySynFlags_still (src dst : Endpoint) (tcp : TcpFields) :
    applySynFlags (still f) src dst tcp = still (applySynFlags f src dst tcp) := by
  obtain ⟨srcPort, dstPort, seq, syn, ack, fin, rst⟩ := tcp
  cases syn with
  | false => rfl
  | true =>
    cases ack with
    | false => simp [applySynFlags]
    | true => simp [applySynFlags]

theorem handshake_still (p : FlowPacket) : handshake (still f) p = still (handshake f p) := by
  unfold handshake
  rw [applySynFlags_still]
  unfold applyFinFlag
  split
  · simp
  · rfl

theorem resetFlow_still (p : FlowPacket) : resetFlow (still f) p = still (resetFlow f p) := by
  unfold resetFlow
  rw [applySynFlags_still]
  rfl

theorem joined_still (src : Endpoint) :
    Moves.joined (still f) src = still (Moves.joined f src) := by
  unfold Moves.joined
  split
  · rw [if_pos (by assumption)]
    simp
  · rw [if_neg (by assumption)]

theorem joinFlow_still (src : Endpoint) (seq : UInt32) :
    joinFlow (still f) src seq =
      (still (joinFlow f src seq).1, (joinFlow f src seq).2) := by
  simp [joinFlow_eq, joined_still]

end Still

/-- The same outcome for a flow without its index. -/
def Outcome.still (out : Outcome) : Outcome := { out with flow := out.flow.map Isolation.still }

theorem closeAlone_still (key : FlowKey) (f : TcpFlow) (reason : CloseReason) :
    closeAlone key (still f) reason = closeAlone key f reason := rfl

theorem payloadAlone_still {config : ReassemblyConfig} {key : FlowKey} {f f' : TcpFlow}
    {p : FlowPacket} {timestamp : UInt32} {out : Outcome}
    (h : payloadAlone config key f p timestamp = .ok (f', out)) :
    payloadAlone config key (still f) p timestamp = .ok (still f', Outcome.still out) := by
  unfold payloadAlone at h ⊢
  split
  · rw [if_pos (by assumption)] at h
    cases h
    rfl
  · rw [if_neg (by assumption)] at h
    rw [joinFlow_still]
    generalize joinFlow f p.src p.tcp.seq = j at h ⊢
    obtain ⟨f₂, dir, joined⟩ := j
    simp only [bind_eq_ok] at h
    obtain ⟨⟨d, result⟩, hins, ⟨d', flushed⟩, hfl, heq⟩ := h
    cases heq
    simp only [still_dir, hins, bind, Except.bind, hfl, setDir_still]
    rfl

theorem packetAlone_still {config : ReassemblyConfig} {key : FlowKey} {f : TcpFlow}
    {p : FlowPacket} {timestamp : UInt32} {out : Outcome}
    (h : packetAlone config key f p timestamp = .ok out) :
    packetAlone config key (still f) p timestamp = .ok (Outcome.still out) := by
  unfold packetAlone at h ⊢
  split
  · rw [if_pos (by assumption), bind_eq_ok] at h
    obtain ⟨calls, hclose, heq⟩ := h
    cases heq
    rw [resetFlow_still, closeAlone_still, hclose]
    rfl
  · rw [if_neg (by assumption), bind_eq_ok] at h
    obtain ⟨⟨f', out'⟩, hpay, h⟩ := h
    rw [handshake_still, payloadAlone_still hpay]
    simp only at h
    by_cases hstate : f'.state = .closed
    · simp only [if_pos hstate, bind_eq_ok] at h
      obtain ⟨calls, hclose, heq⟩ := h
      cases heq
      simp only [bind, Except.bind, still_state, if_pos hstate, closeAlone_still, hclose]
      rfl
    · rw [if_neg hstate] at h
      cases h
      simp only [bind, Except.bind, still_state]
      exact if_neg hstate

/-! ## The machine of one flow -/

/-- The packet belongs to the flow at `k`. -/
def ofKey (k : FlowKey) (i : Input) : Bool := (tcpContext i.1).map Prod.fst == some k

/-- A flow, if there is one, and all that has happened to it and to the ones before it. -/
structure Solo where
  flow : Option TcpFlow
  events : List Event

/-- The flow as a packet meets it. -/
def Solo.meet (t : Solo) (k : FlowKey) (timestamp : UInt32) : TcpFlow × List Event :=
  match t.flow with
  | none => (TcpFlow.new k timestamp, t.events ++ [.flowCreated k])
  | some f => ({ f with lastSeen := timestamp }, t.events)

def soloStep (config : ReassemblyConfig) (k : FlowKey) (t : Solo) (i : Input) : Checked Solo :=
  match tcpContext i.1 with
  | none => .ok t
  | some (_, tcp) => do
    let p := flowPacket i.1 tcp
    let (f, events) := t.meet k i.2
    let out ← packetAlone config k f p i.2
    .ok ⟨out.flow, events ++ p.event :: out.calls⟩

/-- No flow has been evicted or expired. -/
def NoneDismissed (s : TcpReassembler) : Prop := ∀ e ∈ s.events, isDismissal e = false

instance (s : TcpReassembler) : Decidable (NoneDismissed s) :=
  inferInstanceAs (Decidable (∀ e ∈ s.events, isDismissal e = false))

/-- The one flow is the flow of the table. -/
structure Mirrors (k : FlowKey) (s : TcpReassembler) (t : Solo) : Prop where
  flow : t.flow = (s.flows.get? k).map still
  events : t.events = about k s.events

theorem eventKey_closeAlone {key : FlowKey} {f : TcpFlow} {reason : CloseReason}
    {calls : List Event} (h : closeAlone key f reason = .ok calls) :
    ∀ e ∈ calls, eventKey e = key := by
  obtain ⟨client, server, rfl⟩ := closeAlone_eq_ok h
  refine List.forall_mem_append.mpr ⟨?_, by simp [eventKey]⟩
  exact forall_drainEvents (fun _ _ _ _ => rfl) f client server

/-- Every call is about the flow of the packet. -/
theorem eventKey_packetAlone {config : ReassemblyConfig} {key : FlowKey} {f : TcpFlow}
    {p : FlowPacket} {timestamp : UInt32} {out : Outcome}
    (h : packetAlone config key f p timestamp = .ok out) : ∀ e ∈ out.calls, eventKey e = key := by
  unfold packetAlone at h
  split at h
  · rw [bind_eq_ok] at h
    obtain ⟨calls, hclose, heq⟩ := h
    cases heq
    exact eventKey_closeAlone hclose
  · rw [bind_eq_ok] at h
    obtain ⟨⟨f', out'⟩, hpay, h⟩ := h
    have hcalls : ∀ e ∈ out'.calls, eventKey e = key := by
      unfold payloadAlone at hpay
      split at hpay
      · cases hpay
        simp
      · simp only [bind_eq_ok] at hpay
        obtain ⟨x, -, y, -, heq⟩ := hpay
        cases heq
        exact forall_dataEvents (fun _ _ _ _ => rfl) _ _ _
    simp only at h
    split at h
    · rw [bind_eq_ok] at h
      obtain ⟨calls, hclose, heq⟩ := h
      cases heq
      exact List.forall_mem_append.mpr ⟨hcalls, eventKey_closeAlone hclose⟩
    · cases h
      exact hcalls

/-! ## The projection -/

section Step

variable {s s' s₁ s₂ s₃ : TcpReassembler} {key k : FlowKey} {tcp : TcpFields}
  {packet : ParsedPacket} {timestamp : UInt32} {f : TcpFlow} {out : Outcome}
  {swept evicted : List Event} {t : Solo}

theorem NoneDismissed.of_append {new : List Event} (h : NoneDismissed s')
    (hevents : s'.events = s.events ++ new) :
    NoneDismissed s ∧ ∀ e ∈ new, isDismissal e = false := by
  unfold NoneDismissed at h
  rw [hevents] at h
  exact List.forall_mem_append.mp h

/-- What the packet found in the table, and the events it left, if no flow was dismissed. -/
theorem settled (h : Handled s s' key tcp packet timestamp s₁ s₂ s₃ f out swept evicted)
    (hnone : NoneDismissed s') :
    s₁.flows = s.flows ∧ s₁.events = s.events ∧ s'.flows = s₃.flows ∧ s'.events = s₃.events ∧
      NoneDismissed s := by
  obtain ⟨hnone₃, hevicted⟩ := hnone.of_append h.after.events
  obtain ⟨hflows', rfl⟩ := h.after.told hevicted
  obtain ⟨hnone₂, -⟩ := hnone₃.of_append h.acts.events
  have hnone₁ : NoneDismissed s₁ := by
    cases h.greets with
    | created index hn hflows hevents => exact (hnone₂.of_append hevents).1
    | known g index hg hflows hevents =>
      unfold NoneDismissed at hnone₂ ⊢
      rw [← hevents]
      exact hnone₂
  obtain ⟨hnone₀, hswept⟩ := hnone₁.of_append h.before.events
  obtain ⟨hflows, rfl⟩ := h.before.told hswept
  exact ⟨hflows, by simpa using h.before.events, hflows', by simpa using h.after.events, hnone₀⟩

theorem Mirrors.other (h : Handled s s' key tcp packet timestamp s₁ s₂ s₃ f out swept evicted)
    (hctx : tcpContext packet = some (key, tcp)) (hk : k ≠ key) (hnone : NoneDismissed s')
    (hm : Mirrors k s t) : Mirrors k s' t := by
  obtain ⟨hflows₁, hevents₁, hflows', hevents', -⟩ := settled h hnone
  have hget : s'.flows.get? k = s.flows.get? k := by
    rw [hflows', h.acts.flows, get?_place_of_ne _ _ hk, h.greets.get?_other hk, hflows₁]
  have hkey : (flowPacket packet tcp).key ≠ k := by
    rw [tcpContext_key hctx]
    exact hk.symm
  have hcalls : about k ((flowPacket packet tcp).event :: out.calls) = [] := by
    refine about_other (List.forall_mem_cons.mpr ⟨hkey, fun e he => ?_⟩)
    rw [eventKey_packetAlone h.alone e he]
    exact hk.symm
  have hgreet : about k s₂.events = about k s₁.events := by
    cases h.greets with
    | created index hn hflows hevents =>
      have hcreated : about k [.flowCreated key] = [] :=
        about_other (by simpa [eventKey] using hk.symm)
      rw [hevents, about_append, hcreated, List.append_nil]
    | known g index hg hflows hevents => rw [hevents]
  refine ⟨by rw [hget]; exact hm.flow, ?_⟩
  rw [hevents', h.acts.events, about_append, hcalls, List.append_nil, hgreet, hevents₁]
  exact hm.events

theorem Mirrors.own (h : Handled s s' k tcp packet timestamp s₁ s₂ s₃ f out swept evicted)
    (hctx : tcpContext packet = some (k, tcp)) (hnone : NoneDismissed s') (hm : Mirrors k s t) :
    ∃ t', soloStep s.config k t (packet, timestamp) = .ok t' ∧ Mirrors k s' t' := by
  obtain ⟨hflows₁, hevents₁, hflows', hevents', -⟩ := settled h hnone
  have hmeet : t.meet k timestamp = (still f, about k s₂.events) := by
    have hflow := hm.flow
    rw [← hflows₁] at hflow
    cases h.greets with
    | created index hn hflows hevents =>
      rw [hn] at hflow
      have hcreated : about k [.flowCreated k] = [.flowCreated k] := by
        simp [about, eventKey]
      rw [hevents, about_append, hcreated, hevents₁, ← hm.events]
      simp only [Solo.meet, hflow]
      rfl
    | known g index hg hflows hevents =>
      rw [hg] at hflow
      rw [hevents, hevents₁, ← hm.events]
      simp only [Solo.meet, hflow]
      rfl
  have hkey := tcpContext_key hctx
  have hcalls : about k ((flowPacket packet tcp).event :: out.calls) =
      (flowPacket packet tcp).event :: out.calls :=
    about_of_key (List.forall_mem_cons.mpr ⟨hkey, eventKey_packetAlone h.alone⟩)
  refine ⟨⟨out.flow.map still, about k s'.events⟩, ?_, ?_, rfl⟩
  · simp only [soloStep, hctx, hmeet, packetAlone_still h.alone, bind, Except.bind]
    rw [hevents', h.acts.events, about_append, hcalls]
    rfl
  · rw [hflows', h.acts.flows, get?_place_self]

end Step

/-- The handler and the flow of one key see what the machine of one flow makes of its packets. -/
theorem run_alone (ord : IterOrder) {config : ReassemblyConfig} {s₀ s : TcpReassembler}
    (hnew : TcpReassembler.new config = .ok s₀) (k : FlowKey) (inputs : List Input)
    (hrun : run (receive ord) s₀ inputs = .ok s) (hnone : NoneDismissed s) :
    ∃ t, run (soloStep config k) ⟨none, []⟩ (inputs.filter (ofKey k)) = .ok t ∧
      Mirrors k s t := by
  obtain ⟨-, hview⟩ := new_eq_ok hnew
  have hmirrors : Mirrors k s₀ ⟨none, []⟩ := by
    refine ⟨?_, ?_⟩
    · rw [show s₀.flows = .empty from congrArg View.flows hview]
      rfl
    · rw [show s₀.events = [] from congrArg View.events hview]
      rfl
  have hstep : ∀ s i s', Ready (view s) ∧ s.config = config → receive ord s i = .ok s' →
      (Ready (view s') ∧ s'.config = config) ∧ (NoneDismissed s' → NoneDismissed s ∧
        ∀ t, Mirrors k s t →
          (ofKey k i = true → ∃ t', soloStep config k t i = .ok t' ∧ Mirrors k s' t') ∧
          (ofKey k i = false → Mirrors k s' t)) := by
    intro s i s' hI hs'
    refine ⟨receive_ready hI hs', fun hnone' => ?_⟩
    obtain ⟨packet, timestamp⟩ := i
    obtain ⟨hr, hcfg⟩ := hI
    rcases processPacket_eq_ok hr hs' with ⟨hctx, -, new, hdis, -⟩ |
      ⟨key, tcp, s₁, s₂, s₃, f, out, swept, evicted, hctx, hh, -⟩
    · obtain ⟨hnone₀, hnew'⟩ := hnone'.of_append hdis.events
      obtain ⟨hflows, rfl⟩ := hdis.told hnew'
      refine ⟨hnone₀, fun t hm => ⟨fun hk => ?_, fun _ => ?_⟩⟩
      · simp [ofKey, hctx] at hk
      · refine ⟨by rw [hflows]; exact hm.flow, ?_⟩
        rw [hdis.events, List.append_nil]
        exact hm.events
    · refine ⟨(settled hh hnone').2.2.2.2, fun t hm => ⟨fun hk => ?_, fun hk => ?_⟩⟩
      · have hkey : key = k := by simpa [ofKey, hctx] using hk
        subst hkey
        rw [← hcfg]
        exact hm.own hh hctx hnone'
      · have hkey : key ≠ k := by simpa [ofKey, hctx] using hk
        exact hm.other hh hctx hkey.symm hnone'
  exact ((run_projects hstep inputs (ready_new hnew) hmirrors hrun).2 hnone).2

/-- The `on_data` and `on_flow_close` calls for one key. -/
def callsFor (k : FlowKey) (events : List Event) : List Event :=
  (about k events).filter fun e =>
    match e with
    | .onData _ _ _ _ _ => true
    | .onFlowClose _ _ => true
    | _ => false

/-- Two captures that agree on the packets of a key, and in which no flow is evicted or
expired, lead to the same handler calls for it. -/
theorem run_isolated (ord ord' : IterOrder) (config : ReassemblyConfig) (s₀ : TcpReassembler)
    (hnew : TcpReassembler.new config = .ok s₀) (k : FlowKey) (inputs inputs' : List Input)
    (hsame : inputs.filter (ofKey k) = inputs'.filter (ofKey k)) :
    ReturnsIf (Lasting config (inputs.map arrival)) (run (receive ord) s₀ inputs) (fun s =>
      ReturnsIf (Lasting config (inputs'.map arrival)) (run (receive ord') s₀ inputs') (fun s' =>
        NoneDismissed s → NoneDismissed s' → callsFor k s.events = callsFor k s'.events)) := by
  refine ⟨(receive_run_counted ord hnew inputs).1, fun s hs => ?_⟩
  refine ⟨(receive_run_counted ord' hnew inputs').1, fun s' hs' hnone hnone' => ?_⟩
  obtain ⟨t, ht, hm⟩ := run_alone ord hnew k inputs hs hnone
  obtain ⟨t', ht', hm'⟩ := run_alone ord' hnew k inputs' hs' hnone'
  rw [hsame, ht'] at ht
  cases ht
  rw [callsFor, callsFor, ← hm.events, ← hm'.events]

/-- A capture with one connection, and the same with a second connection between its packets. -/
theorem run_isolated_second : ∃ s₀ s s', TcpReassembler.new .default = .ok s₀ ∧
    run (receive keyOrder) s₀
      [segmentOf left right 7 true [], segmentOf left right 8 false [1]] = .ok s ∧
    run (receive keyOrder) s₀
      [segmentOf left right 7 true [], segmentOf left (.v4 3, 90) 5 false [2],
        segmentOf left right 8 false [1]] = .ok s' ∧
    NoneDismissed s ∧ NoneDismissed s' ∧
    callsFor sampleKey s.events = callsFor sampleKey s'.events := by
  obtain ⟨s₀, hnew⟩ : ∃ s₀, TcpReassembler.new .default = .ok s₀ := ⟨_, rfl⟩
  have hiso := run_isolated keyOrder keyOrder .default s₀ hnew sampleKey
    [segmentOf left right 7 true [], segmentOf left right 8 false [1]]
    [segmentOf left right 7 true [], segmentOf left (.v4 3, 90) 5 false [2],
      segmentOf left right 8 false [1]] (by decide)
  cases hnew
  exact ⟨_, _, _, rfl, rfl, rfl, by decide, by decide,
    (hiso.2 _ rfl).2 _ rfl (by decide) (by decide)⟩

end Wirerust.Isolation
