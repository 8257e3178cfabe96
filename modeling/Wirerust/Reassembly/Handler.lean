import Wirerust.Reassembly.Lifetimes

/-!
What a `StreamHandler` sees of one key.

`run_handlerProtocol`: over a whole capture, ended by `finalize`, the calls for a key are a
sequence of lifetimes, one for each flow created, each a number of `on_data` calls and then
one `on_flow_close`. The chunks of either direction follow one another from offset 1.

The invariant behind it is `Streams`: each direction of an open flow satisfies the run
invariant of a direction (`Runs.Inv`), with the chunks handed out so far.
-/

namespace Wirerust.Handler

open Lib Wirerust.Segment Wirerust.Direction Wirerust.Flow Wirerust.Engine Wirerust.Moves
  Wirerust.Retiring Wirerust.EngineSpec Wirerust.Lifetimes

/-! ## Calls -/

/-- An `on_data` call. -/
structure Delivery where
  direction : Direction
  data : List UInt8
  offset : Nat
  timestamp : UInt32

def Delivery.call (k : FlowKey) (d : Delivery) : Event :=
  .onData k d.direction d.data d.offset d.timestamp

def delivery? : Event → Option Delivery
  | .onData _ direction data offset timestamp => some ⟨direction, data, offset, timestamp⟩
  | _ => none

def deliveries (body : List Event) : List Delivery := body.filterMap delivery?

/-- The chunks that calls hand out in one direction. -/
def chunksIn (w : Direction) (ds : List Delivery) : List (Chunk UInt8) :=
  (ds.filter fun d => d.direction = w).map fun d => (d.offset, d.data)

def isPacket : Event → Bool
  | .packet _ _ _ _ _ => true
  | .packetDropped _ => true
  | _ => false

/-- The handler calls for one key, and the creations of its flows. -/
def handlerCalls (k : FlowKey) (events : List Event) : List Event :=
  (about k events).filter fun e => !isPacket e

@[simp] theorem deliveries_append (body new : List Event) :
    deliveries (body ++ new) = deliveries body ++ deliveries new := List.filterMap_append

@[simp] theorem deliveries_packet (p : FlowPacket) (body : List Event) :
    deliveries (p.event :: body) = deliveries body := rfl

@[simp] theorem chunksIn_append (w : Direction) (ds ds' : List Delivery) :
    chunksIn w (ds ++ ds') = chunksIn w ds ++ chunksIn w ds' := by
  simp [chunksIn]

theorem chunksIn_dataEvents (w : Direction) (k : FlowKey) (dir : Direction) (timestamp : UInt32)
    (chunks : List (Chunk UInt8)) :
    chunksIn w (deliveries (dataEvents k dir timestamp chunks)) =
      if w = dir then chunks else [] := by
  have hmap : deliveries (dataEvents k dir timestamp chunks) =
      chunks.map fun c => ⟨dir, c.2, c.1, timestamp⟩ := by
    rw [deliveries, dataEvents, List.filterMap_map, ← List.filterMap_eq_map]
    rfl
  rw [hmap, chunksIn, List.filter_map, List.map_map]
  by_cases hw : w = dir
  · simp [hw, Function.comp_def]
  · simp [hw, Function.comp_def, Ne.symm hw]

theorem chunksIn_drainEvents (w : Direction) (k : FlowKey) (f : TcpFlow)
    (client server : List (Chunk UInt8)) :
    chunksIn w (deliveries (drainEvents k f client server)) =
      match w with
      | .clientToServer => client
      | .serverToClient => server := by
  rw [drainEvents, deliveries_append, chunksIn_append, chunksIn_dataEvents, chunksIn_dataEvents]
  cases w <;> simp

/-- The body of a lifetime, less its packets, is its `on_data` calls. -/
theorem filter_body {k : FlowKey} {body : List Event} (h : ∀ e ∈ body, Inside k e) :
    body.filter (fun e => !isPacket e) = (deliveries body).map (Delivery.call k) := by
  induction body with
  | nil => rfl
  | cons e body ih =>
    obtain ⟨he, hbody⟩ := List.forall_mem_cons.mp h
    cases he with
    | packet p hp => exact ih hbody
    | data dir data offset timestamp =>
      have := ih hbody
      simpa [isPacket, deliveries, delivery?, Delivery.call] using this

/-! ## Streams -/

theorem inv_of_kept {d d' : FlowDirection} {chunks : List (Chunk UInt8)} (hk : Kept d d')
    (h : Runs.Inv ⟨d, chunks⟩) : Runs.Inv ⟨d', chunks⟩ := by
  refine ⟨hk.wf h.wf, fun hnone => ?_, fun hsome => ?_, h.nonempty, ?_⟩
  · rcases hk.isn with ⟨hisn, hbase⟩ | ⟨-, hsome, -⟩
    · obtain ⟨hnil, hzero, hdel⟩ := h.fresh (hisn.symm.trans hnone)
      exact ⟨by rw [hk.segments]; exact hnil, hbase.trans hzero, hdel⟩
    · exact absurd hnone hsome
  · rcases hk.isn with ⟨hisn, hbase⟩ | ⟨hnone, -, hbase⟩
    · rw [hbase]
      exact h.contiguous (by rw [← hisn]; exact hsome)
    · obtain ⟨-, -, hdel⟩ := h.fresh hnone
      simp only at hdel ⊢
      rw [hbase, hdel]
      rfl
  · rw [hk.reassembledBytes]
    exact h.counted

/-- Each direction of a flow, with the chunks it has handed out. -/
def Streams (f : TcpFlow) (body : List Event) : Prop :=
  ∀ w, Runs.Inv ⟨f.dir w, chunksIn w (deliveries body)⟩

theorem inv_flushed {d d' : FlowDirection} {delivered chunks : List (Chunk UInt8)}
    (h : Runs.Inv ⟨d, delivered⟩) (hfl : Flushed d d' chunks) :
    Runs.Inv ⟨d', delivered ++ chunks⟩ := h.moved (.flushed d' chunks hfl)

theorem Streams.accepts {lim : Limits} {f f' : TcpFlow} {p : FlowPacket} {dir : Direction}
    {chunks : List (Chunk UInt8)} (hacc : Accepts lim f p f' dir chunks) {body : List Event}
    (h : Streams f body) (k : FlowKey) (timestamp : UInt32) :
    Streams f' (body ++ p.event :: dataEvents k dir timestamp chunks) := by
  have hhand : ∀ w, Runs.Inv ⟨(handshake f p).dir w, chunksIn w (deliveries body)⟩ :=
    fun w => inv_of_kept (kept_handshake f p w) (h w)
  intro w
  rw [deliveries_append, deliveries_packet, chunksIn_append, chunksIn_dataEvents]
  cases hacc with
  | bare _ hnil => simpa [dataEvents] using hhand w
  | data f₂ _ joined d₁ d₂ d₃ _ hne hjoin hst hmark hfl =>
    have hf₂ : Runs.Inv ⟨f₂.dir w, chunksIn w (deliveries body)⟩ := by
      have hk := kept_joinFlow (handshake f p) p.src p.tcp.seq w
      rw [hjoin] at hk
      exact inv_of_kept hk (hhand w)
    by_cases hw : w = dir
    · subst hw
      rw [TcpFlow.dir_setDir_self, if_pos rfl]
      have hstored : Runs.Inv ⟨d₁, chunksIn w (deliveries body)⟩ :=
        hf₂.moved (.stored p.tcp.seq p.payload lim d₁ hst)
      exact inv_flushed (inv_of_kept (Kept.of_marked hmark) hstored) hfl
    · rw [TcpFlow.dir_setDir_of_ne f₂ hw, if_neg hw, List.append_nil]
      exact hf₂

/-! ## Whole captures -/

/-- The calls of one direction: none is empty, and each starts where the one before ended. -/
def Orderly (chunks : List (Chunk UInt8)) : Prop :=
  (∀ c ∈ chunks, c.2 ≠ []) ∧ ∃ stop, ContiguousFrom 1 chunks stop

theorem orderly_of_inv {s : Runs.State} (h : Runs.Inv s) : Orderly s.delivered := by
  refine ⟨h.nonempty, ?_⟩
  by_cases hisn : s.dir.isn = none
  · obtain ⟨-, -, hdel⟩ := h.fresh hisn
    rw [hdel]
    exact ⟨1, rfl⟩
  · exact ⟨_, h.contiguous hisn⟩

theorem Streams.drained {f : TcpFlow} {body : List Event} (h : Streams f body)
    {client server : List (Chunk UInt8)} (hdrain : Drains f client server) (k : FlowKey)
    (w : Direction) :
    Orderly (chunksIn w (deliveries (body ++ drainEvents k f client server))) := by
  rw [deliveries_append, chunksIn_append, chunksIn_drainEvents]
  cases w with
  | clientToServer =>
    obtain ⟨d, hfl⟩ := hdrain.client
    exact orderly_of_inv (inv_flushed (h .clientToServer) hfl)
  | serverToClient =>
    obtain ⟨d, hfl⟩ := hdrain.server
    exact orderly_of_inv (inv_flushed (h .serverToClient) hfl)

theorem streams_rules (k : FlowKey) :
    Rules k Streams (fun l => ∀ w, Orderly (chunksIn w (deliveries l.body))) where
  created := fun timestamp index w => by cases w <;> exact Runs.Inv.init
  touched := fun f body timestamp index h w => by
    have := h w
    cases w <;> exact this
  packet := fun lim f f' p dir chunks timestamp body _ _ _ hacc h => h.accepts hacc k timestamp
  reset := fun f p client server body _ _ _ hdrain h w => by
    have hreset : Streams (resetFlow f p) (body ++ [p.event]) := fun w => by
      rw [deliveries_append, deliveries_packet]
      simpa [deliveries] using inv_of_kept (kept_resetFlow f p w) (h w)
    simpa using hreset.drained hdrain k w
  retired := fun f reason client server body _ hdrain h => h.drained hdrain k

theorem filter_lifetimes {k : FlowKey} {past : List Lifetime}
    (h : ∀ l ∈ past, ∀ e ∈ l.body, Inside k e) :
    (past.flatMap (Lifetime.events k)).filter (fun e => !isPacket e) =
      (past.map fun l => (deliveries l.body, l.reason)).flatMap (fun l =>
        .flowCreated k :: (l.1.map (Delivery.call k) ++ [.onFlowClose k l.2])) := by
  induction past with
  | nil => rfl
  | cons l past ih =>
    obtain ⟨hl, hpast⟩ := List.forall_mem_cons.mp h
    rw [List.flatMap_cons, List.filter_append, ih hpast, List.map_cons, List.flatMap_cons]
    have hcreated : isPacket (.flowCreated k) = false := rfl
    have hclosed : isPacket (.onFlowClose k l.reason) = false := rfl
    simp [Lifetime.events, hcreated, hclosed, filter_body hl]

theorem run_handlerProtocol (ord : IterOrder) (config : ReassemblyConfig) (s₀ : TcpReassembler)
    (hnew : TcpReassembler.new config = .ok s₀) (calls : List Call) :
    ReturnsIf (Lasting config calls) (do finalize ord (← run (step ord) s₀ calls)) (fun s =>
      s.flows.entries = [] ∧ s.totalMemory = 0 ∧
      ∀ k, ∃ lifetimes : List (List Delivery × CloseReason),
        handlerCalls k s.events = lifetimes.flatMap (fun l =>
          .flowCreated k :: (l.1.map (Delivery.call k) ++ [.onFlowClose k l.2])) ∧
        ∀ l ∈ lifetimes, ∀ w, (∀ c ∈ chunksIn w l.1, c.2 ≠ []) ∧
          ∃ stop, ContiguousFrom 1 (chunksIn w l.1) stop) := by
  refine (run_told streams_rules ord hnew calls).bind fun s hs => ?_
  refine ((finalize_told streams_rules ord hs.1.wf hs.2.1 hs.2.2).returnsIf _).mono
    fun s' hs' => ⟨hs'.1, hs'.2.1, fun k => ?_⟩
  obtain ⟨past, hsplit, hdone⟩ := hs'.2.2 k
  refine ⟨past.map fun l => (deliveries l.body, l.reason), ?_, ?_⟩
  · rw [handlerCalls, hsplit.eq, openEvents, List.append_nil]
    exact filter_lifetimes hsplit.past
  · intro l hl
    obtain ⟨l', hl', rfl⟩ := List.mem_map.mp hl
    exact hdone l' hl'

/-- A payload out of order, its retransmission, and a flow that is still open at the end. -/
theorem run_handlerProtocol_open : ∃ s₀, TcpReassembler.new .default = .ok s₀ ∧
    Returns (do finalize keyOrder (← run (step keyOrder) s₀
      [.segment left right 7 true false false [],
        .segment left right 9 false true false [2],
        .segment left right 8 false true false [1, 2]])) (fun s =>
      s.flows.entries = [] ∧ s.totalMemory = 0 ∧
      ∀ k, ∃ lifetimes : List (List Delivery × CloseReason),
        handlerCalls k s.events = lifetimes.flatMap (fun l =>
          .flowCreated k :: (l.1.map (Delivery.call k) ++ [.onFlowClose k l.2])) ∧
        ∀ l ∈ lifetimes, ∀ w, (∀ c ∈ chunksIn w l.1, c.2 ≠ []) ∧
          ∃ stop, ContiguousFrom 1 (chunksIn w l.1) stop) :=
  ⟨_, rfl, (run_handlerProtocol keyOrder .default _ rfl _).returns (by decide)⟩

end Wirerust.Handler
