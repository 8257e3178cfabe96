import Wirerust.Reassembly.EngineSpec

/-!
How many bytes the engine hands out.

What a payload brings is buffered at most once, what is buffered is handed out at most once, and
nothing else is. `bytes_reassembled` counts what is handed out (`Hands`), so the bytes that a call
hands out and those that it then keeps are no more than those that were kept and those that came
with its packet (`Adds`).
-/

namespace Wirerust.Volume

open Lib Wirerust.Segment Wirerust.Buffer Wirerust.Direction Wirerust.Flow Wirerust.Engine
  Wirerust.Moves Wirerust.Retiring Wirerust.EngineSpec

/-- The bytes that an event hands to the handler. -/
def eventBytes : Event → Nat
  | .onData _ _ data _ _ => data.length
  | _ => 0

def delivered (events : List Event) : Nat := Lasts.spent eventBytes events

/-! ## What the events of a move carry -/

theorem delivered_append (l l' : List Event) : delivered (l ++ l') = delivered l + delivered l' :=
  Lasts.spent_append eventBytes l l'

theorem delivered_event (p : FlowPacket) (l : List Event) :
    delivered (p.event :: l) = delivered l :=
  (Lasts.spent_cons eventBytes p.event l).trans (Nat.zero_add _)

theorem delivered_dataEvents (key : FlowKey) (dir : Direction) (timestamp : UInt32)
    (chunks : List (Chunk UInt8)) :
    delivered (dataEvents key dir timestamp chunks) = (contents chunks).length := by
  rw [delivered, Lasts.spent, dataEvents, List.map_map, contents, List.length_flatMap]
  rfl

theorem delivered_closeEvents (key : FlowKey) (f : TcpFlow) (reason : CloseReason)
    (client server : List (Chunk UInt8)) :
    delivered (closeEvents key f reason client server) =
      (contents client).length + (contents server).length := by
  rw [closeEvents, drainEvents, delivered_append, delivered_append, delivered_dataEvents,
    delivered_dataEvents]
  rfl

/-! ## Moves -/

/-- What is handed out from `v` to `v'` is counted. -/
def Hands (v v' : View) : Prop :=
  ∃ new, v'.events = v.events ++ new ∧ v'.bytesReassembled = v.bytesReassembled + delivered new

theorem Hands.refl (v : View) : Hands v v := ⟨[], (List.append_nil _).symm, rfl⟩

theorem Hands.trans {v v' v'' : View} (h : Hands v v') (h' : Hands v' v'') : Hands v v'' := by
  obtain ⟨new, hevents, hcount⟩ := h
  obtain ⟨new', hevents', hcount'⟩ := h'
  refine ⟨new ++ new', by rw [hevents', hevents, List.append_assoc], ?_⟩
  rw [hcount', hcount, delivered_append, Nat.add_assoc]

theorem Hands.retire {counted : Bool} {v v' : View} {key : FlowKey}
    (h : Retire counted v key v') : Hands v v' := by
  obtain ⟨f, reason, client, server, hret⟩ := h.result
  refine ⟨_, hret.events, ?_⟩
  rw [hret.bytesReassembled, delivered_closeEvents, Nat.add_assoc]

theorem Hands.retires {counted : Bool} {v v' : View} (h : Retires counted v v') : Hands v v' := by
  induction h with
  | refl => exact .refl v
  | tail _ hstep ih =>
    obtain ⟨key, hret⟩ := hstep
    exact ih.trans (.retire hret)

theorem Hands.move {v v' : View} (h : Move v v') : Hands v v' := by
  cases h with
  | create key timestamp index hnone hroom => exact ⟨[.flowCreated key], rfl, rfl⟩
  | touch key f timestamp index hf => exact ⟨[], (List.append_nil _).symm, rfl⟩
  | packet f f' p dir chunks timestamp hf hopen hrst hacc =>
    refine ⟨_, rfl, ?_⟩
    rw [delivered_event, delivered_dataEvents]
  | reset f p client server hf hopen hrst hdrain =>
    refine ⟨p.event :: closeEvents p.key (resetFlow f p) .rst client server, ?_, ?_⟩
    · simp [closed]
    · rw [delivered_event, delivered_closeEvents, countClose_bytesReassembled, ← Nat.add_assoc]
      rfl
  | retire v' key hret => exact .retire hret

theorem Hands.path {v v' : View} (h : Path v v') : Hands v v' := by
  induction h with
  | refl => exact .refl v
  | tail _ hmove ih => exact ih.trans (.move hmove)

/-! ## Calls -/

/-- What a packet adds to the events, and to what is kept. -/
def Adds (bytes : Nat) (s s' : TcpReassembler) : Prop :=
  ∃ new, s'.events = s.events ++ new ∧ delivered new + s'.totalMemory ≤ s.totalMemory + bytes

theorem Hands.adds {s s' : TcpReassembler} {bytes : Nat} (h : Hands (view s) (view s'))
    (hspent : spent (view s') ≤ spent (view s) + bytes) : Adds bytes s s' := by
  obtain ⟨new, hevents, hcount⟩ := h
  refine ⟨new, hevents, ?_⟩
  rw [spent, hcount] at hspent
  simp only [spent, view] at hspent
  omega

theorem processPacket_adds (ord : IterOrder) {s : TcpReassembler} (hr : Ready (view s))
    (packet : ParsedPacket) (timestamp : UInt32) :
    ReturnsIf (Fits s.config ∧ Room s 1 packet.payload.length)
      (processPacket ord s packet timestamp) (Adds packet.payload.length s) :=
  (processPacket_spends ord hr packet timestamp).mono fun _ h => (Hands.path h.1.1).adds h.2

theorem finalize_adds (ord : IterOrder) {s : TcpReassembler} (hr : Ready (view s)) :
    Returns (finalize ord s) (Adds 0 s) := by
  cases hfin : s.finalized with
  | true =>
    rw [finalize, if_pos hfin]
    exact .pure ⟨[], (List.append_nil _).symm, Nat.le_of_eq (Nat.zero_add _)⟩
  | false =>
    refine (finalize_closes ord hr.wf hfin).mono fun s' hs' => ?_
    have hspent := Retires.spent_le hs'.1 ⟨hr.wf.wf, hr.wf.settled, hr.wf.memory⟩
    have hhands : Hands (view s) (view s') := by
      have hretires := Hands.retires hs'.1
      exact hretires
    exact hhands.adds hspent

/-! ## Runs -/

theorem Adds.delivered {n bytes : Nat} {s s' : TcpReassembler} (h : Adds bytes s s')
    (hs : delivered s.events + s.totalMemory ≤ n) :
    delivered s'.events + s'.totalMemory ≤ n + bytes := by
  obtain ⟨new, hevents, hle⟩ := h
  rw [hevents, delivered_append]
  omega

/-- Over every run, what has been handed out and what is still buffered is together no more than
the payloads that have come, and closing all flows in the end does not change this. -/
theorem run_volume (ord : IterOrder) (config : ReassemblyConfig) (s₀ : TcpReassembler)
    (hnew : TcpReassembler.new config = .ok s₀) (calls : List Call) :
    ReturnsIf (Lasting config calls) (run (step ord) s₀ calls) fun s =>
      delivered s.events + s.totalMemory ≤ Lasts.spent callBytes calls ∧
        Returns (finalize ord s) fun s' => delivered s'.events ≤ Lasts.spent callBytes calls := by
  refine (run_calls ord hnew (I := fun _ s => s.stats.bytesReassembled = delivered s.events) ?_ ?_
    calls).mono fun s ⟨hcounted, hevents⟩ => ?_
  · have hview := (new_eq_ok hnew).2
    rw [show s₀.events = [] from congrArg View.events hview]
    exact congrArg View.bytesReassembled hview
  · intro pre call s s' hr _ hI hs'
    obtain ⟨new, hevents, hcount⟩ := Hands.path (step_moves hr hs').1
    rw [show s'.events = s.events ++ new from hevents, delivered_append, ← hI]
    exact hcount
  · have hle : delivered s.events + s.totalMemory ≤ Lasts.spent callBytes calls := by
      rw [← hevents]
      exact hcounted.bytes
    refine ⟨hle, (finalize_adds ord hcounted.ready).mono fun s' hadds => ?_⟩
    exact Nat.le_trans (Nat.le_add_right _ _) (hadds.delivered hle)

theorem run_volume_overlap : ∃ s₀, TcpReassembler.new .default = .ok s₀ ∧
    Returns (run (step keyOrder) s₀
      [.segment left right 7 true false false [], .segment left right 8 false true false [1, 2],
        .segment left right 9 false true false [2, 3]]) fun s =>
      delivered s.events + s.totalMemory ≤ 4 ∧
        Returns (finalize keyOrder s) fun s' => delivered s'.events ≤ 4 :=
  ⟨_, rfl, (run_volume keyOrder .default _ rfl _).returns (by decide)⟩

end Wirerust.Volume
