import Wirerust.Reassembly.Accounting
import Wirerust.Reassembly.Handler

/-!
When a flow is closed as `Fin`.

`on_fin` counts the FINs of a flow, whichever endpoint they come from, and the second one
closes it. So `run_finCloses` says: a lifetime that ends with reason `Fin` has exactly two
FIN packets and the second is its last packet, and a flow in the table has had at most one.
The two may come from the same endpoint (`oneSided_close`).
-/

namespace Wirerust.Closing

open Lib Wirerust.Segment Wirerust.Flow Wirerust.Engine Wirerust.Moves Wirerust.Retiring
  Wirerust.EngineSpec Wirerust.Accounting Wirerust.Lifetimes Wirerust.Handler

/-- A packet that `on_fin` counts: with RST the flow is gone before. -/
def isFin : Event → Bool
  | .packet _ _ _ tcp _ => tcp.fin && !tcp.rst
  | _ => false

def finsIn (body : List Event) : Nat := body.countP isFin

/-! ## The FIN counter and the state -/

section Flags

variable (f : TcpFlow)

@[simp] theorem setInitiator_finCount (e : Endpoint) :
    (f.setInitiator e).finCount = f.finCount := by
  unfold TcpFlow.setInitiator
  split <;> rfl

@[simp] theorem setInitiator_state (e : Endpoint) : (f.setInitiator e).state = f.state := by
  unfold TcpFlow.setInitiator
  split <;> rfl

@[simp] theorem setDir_finCount (w : Direction) (d : FlowDirection) :
    (f.setDir w d).finCount = f.finCount := by
  cases w <;> rfl

@[simp] theorem setDir_state (w : Direction) (d : FlowDirection) :
    (f.setDir w d).state = f.state := by
  cases w <;> rfl

/-- No flag but FIN and RST closes a flow, and only FIN is counted. -/
def SameFins (f g : TcpFlow) : Prop :=
  g.finCount = f.finCount ∧ (g.state = .closed ↔ f.state = .closed)

theorem sameFins_onSyn : SameFins f f.onSyn := by
  unfold TcpFlow.onSyn
  split
  · rename_i h
    exact ⟨rfl, by simp [h]⟩
  · exact ⟨rfl, Iff.rfl⟩

theorem sameFins_onSynAck : SameFins f f.onSynAck := by
  unfold TcpFlow.onSynAck
  split
  · rename_i h
    refine ⟨rfl, ?_⟩
    rcases h with h | h <;> simp [h]
  · exact ⟨rfl, Iff.rfl⟩

theorem sameFins_onDataWithoutSyn : SameFins f f.onDataWithoutSyn := by
  unfold TcpFlow.onDataWithoutSyn
  split
  · rename_i h
    exact ⟨rfl, by simp [h]⟩
  · exact ⟨rfl, Iff.rfl⟩

theorem sameFins_applySynFlags (src dst : Endpoint) (tcp : TcpFields) :
    SameFins f (applySynFlags f src dst tcp) := by
  rcases applySynFlags_cases f src dst tcp with ⟨-, h⟩ | ⟨-, -, h⟩ | ⟨-, -, h⟩
  · rw [h]
    exact ⟨rfl, Iff.rfl⟩
  · rw [h]
    simpa [SameFins, learnIsn] using sameFins_onSyn (learnIsn (f.setInitiator src) src tcp.seq)
  · rw [h]
    simpa [SameFins, learnIsn] using sameFins_onSynAck (learnIsn (f.setInitiator dst) src tcp.seq)

theorem sameFins_joinFlow (src : Endpoint) (seq : UInt32) :
    SameFins f (joinFlow f src seq).1 := by
  rw [joinFlow_eq]
  unfold Moves.joined
  split
  · simpa [SameFins, learnIsn] using sameFins_onDataWithoutSyn f
  · simp [SameFins, learnIsn]

/-- The second FIN closes the flow. -/
theorem onFin_fins {f : TcpFlow} (hopen : f.state ≠ .closed) (hfew : f.finCount ≤ 1) :
    f.onFin.finCount = f.finCount + 1 ∧ (f.onFin.state = .closed ↔ f.onFin.finCount = 2) := by
  have hinc : saturatingInc 8 f.finCount = f.finCount + 1 := by
    unfold saturatingInc
    omega
  unfold TcpFlow.onFin
  simp only [hinc]
  split
  · exact ⟨rfl, by simp; omega⟩
  · split
    · exact ⟨rfl, by simp; omega⟩
    · exact ⟨rfl, by simp only [hopen, false_iff]; omega⟩

theorem handshake_fins {f : TcpFlow} (p : FlowPacket) (hopen : f.state ≠ .closed)
    (hfew : f.finCount ≤ 1) :
    (handshake f p).finCount = f.finCount + (if p.tcp.fin then 1 else 0) ∧
      ((handshake f p).state = .closed ↔ (handshake f p).finCount = 2) := by
  obtain ⟨hcount, hstate⟩ := sameFins_applySynFlags f p.src p.dst p.tcp
  unfold handshake applyFinFlag
  cases p.tcp.fin with
  | false =>
    simp only [Bool.false_eq_true, if_false, hcount, hstate, hopen, false_iff]
    omega
  | true =>
    simp only [if_true]
    have := onFin_fins (f := (applySynFlags f p.src p.dst p.tcp).setDir
      ((applySynFlags f p.src p.dst p.tcp).direction p.src)
      { (applySynFlags f p.src p.dst p.tcp).dir
        ((applySynFlags f p.src p.dst p.tcp).direction p.src) with finSeen := true })
      (by simpa [hstate] using hopen) (by simpa [hcount] using hfew)
    simpa [hcount] using this

end Flags

theorem Accepts.sameFins {lim : Limits} {f f' : TcpFlow} {p : FlowPacket} {dir : Direction}
    {chunks : List (Chunk UInt8)} (h : Accepts lim f p f' dir chunks) :
    SameFins (handshake f p) f' := by
  cases h with
  | bare => exact ⟨rfl, Iff.rfl⟩
  | data f₂ _ joined d₁ d₂ d₃ _ hne hjoin hst hmark hfl =>
    have := sameFins_joinFlow (handshake f p) p.src p.tcp.seq
    rw [hjoin] at this
    simpa [SameFins] using this

/-! ## Lifetimes -/

/-- The last packet of a body has FIN and no RST. -/
def EndsWithFin (body : List Event) : Prop :=
  ∃ pre p post, body = pre ++ FlowPacket.event p :: post ∧ p.tcp.fin = true ∧
    p.tcp.rst = false ∧ ∀ e ∈ post, isPacket e = false

structure Fins (f : TcpFlow) (body : List Event) : Prop where
  counted : f.finCount = finsIn body
  few : f.finCount ≤ 2
  closed : f.state = .closed ↔ f.finCount = 2
  last : f.state = .closed → EndsWithFin body

theorem Fins.few_of_open {f : TcpFlow} {body : List Event} (h : Fins f body)
    (hopen : f.state ≠ .closed) : f.finCount ≤ 1 := by
  have hle := h.few
  have hne : f.finCount ≠ 2 := fun htwo => hopen (h.closed.mpr htwo)
  omega

theorem isPacket_dataEvents (k : FlowKey) (dir : Direction) (timestamp : UInt32)
    (chunks : List (Chunk UInt8)) :
    ∀ e ∈ dataEvents k dir timestamp chunks, isPacket e = false :=
  forall_dataEvents (fun _ _ _ _ => rfl) dir timestamp chunks

theorem isPacket_drainEvents (k : FlowKey) (f : TcpFlow) (client server : List (Chunk UInt8)) :
    ∀ e ∈ drainEvents k f client server, isPacket e = false :=
  forall_drainEvents (fun _ _ _ _ => rfl) f client server

theorem finsIn_of_not_packet {body : List Event} (h : ∀ e ∈ body, isPacket e = false) :
    finsIn body = 0 := by
  refine List.countP_eq_zero.mpr fun e he => ?_
  have := h e he
  cases e <;> simp_all [isFin, isPacket]

theorem finsIn_append (body new : List Event) : finsIn (body ++ new) = finsIn body + finsIn new :=
  List.countP_append

theorem EndsWithFin.append {body new : List Event} (h : EndsWithFin body)
    (hnew : ∀ e ∈ new, isPacket e = false) : EndsWithFin (body ++ new) := by
  obtain ⟨pre, p, post, rfl, hfin, hrst, hpost⟩ := h
  refine ⟨pre, p, post ++ new, by simp, hfin, hrst, fun e he => ?_⟩
  rcases List.mem_append.mp he with he | he
  · exact hpost e he
  · exact hnew e he

theorem Fins.accepts {lim : Limits} {f f' : TcpFlow} {p : FlowPacket} {dir : Direction}
    {chunks : List (Chunk UInt8)} (hacc : Accepts lim f p f' dir chunks) {body : List Event}
    (h : Fins f body) (hopen : f.state ≠ .closed) (hrst : p.tcp.rst = false) (k : FlowKey)
    (timestamp : UInt32) : Fins f' (body ++ p.event :: dataEvents k dir timestamp chunks) := by
  have hdata := isPacket_dataEvents k dir timestamp chunks
  have hfew : f.finCount ≤ 1 := h.few_of_open hopen
  obtain ⟨hcount, hstate⟩ := handshake_fins p hopen hfew
  obtain ⟨hcount', hstate'⟩ := Accepts.sameFins hacc
  have hfins : finsIn (body ++ p.event :: dataEvents k dir timestamp chunks) =
      finsIn body + (if p.tcp.fin then 1 else 0) := by
    have hp : isFin p.event = p.tcp.fin := by simp [isFin, FlowPacket.event, hrst]
    rw [finsIn_append, finsIn, finsIn, List.countP_cons, hp,
      show List.countP isFin (dataEvents k dir timestamp chunks) = 0 from
        finsIn_of_not_packet hdata,
      Nat.zero_add]
  refine ⟨?_, ?_, ?_, fun hclosed => ?_⟩
  · rw [hfins, hcount', hcount, h.counted]
  · rw [hcount', hcount]
    split <;> omega
  · rw [hstate', hstate, hcount']
  · refine ⟨body, p, _, rfl, ?_, hrst, hdata⟩
    have htwo := hstate.mp (hstate'.mp hclosed)
    rw [hcount] at htwo
    split at htwo
    · assumption
    · omega

theorem fins_rules (k : FlowKey) : Rules k Fins (fun l => l.reason = .fin →
    finsIn l.body = 2 ∧ EndsWithFin l.body) where
  created := fun timestamp index =>
    ⟨rfl, Nat.zero_le _, by simp [TcpFlow.new], by simp [TcpFlow.new]⟩
  touched := fun f body timestamp index h => ⟨h.counted, h.few, h.closed, h.last⟩
  packet := fun lim f f' p dir chunks timestamp body _ hopen hrst hacc h =>
    h.accepts hacc hopen hrst k timestamp
  reset := fun f p client server body _ _ _ _ _ hfin => by cases hfin
  retired := fun f reason client server body hfin _ h hreason => by
    have hnew := isPacket_drainEvents k f client server
    have hclosed := hfin hreason
    refine ⟨?_, (h.last hclosed).append hnew⟩
    rw [finsIn_append, finsIn_of_not_packet hnew, ← h.counted, h.closed.mp hclosed]

/-! ## Runs -/

def isFinClose : Event → Bool
  | .onFlowClose _ .fin => true
  | _ => false

/-- `flows_fin` counts the closes with reason `Fin`. -/
def FinsCounted (v : View) : Prop :=
  v.flowsFin < 2 ^ 64 - 1 → v.flowsFin = v.events.countP isFinClose

theorem isFinClose_of_inside {k : FlowKey} {events : List Event} (h : ∀ e ∈ events, Inside k e) :
    events.countP isFinClose = 0 := by
  refine List.countP_eq_zero.mpr fun e he => ?_
  cases h e he <;> exact Bool.false_ne_true

theorem countP_closeEvents (k : FlowKey) (f : TcpFlow) (reason : CloseReason)
    (client server : List (Chunk UInt8)) :
    (closeEvents k f reason client server).countP isFinClose = if reason = .fin then 1 else 0 := by
  rw [closeEvents, List.countP_append, isFinClose_of_inside (inside_drainEvents _ _ _ _)]
  cases reason <;> rfl

theorem FinsCounted.move {v v' : View} (h : FinsCounted v) (hm : Move v v') : FinsCounted v' := by
  cases hm with
  | create key timestamp index hnone hroom => simpa [FinsCounted, isFinClose] using h
  | touch key f timestamp index hf => exact h
  | packet f f' p dir chunks timestamp hf hopen hrst hacc =>
    have hdata := isFinClose_of_inside (inside_dataEvents p.key dir timestamp chunks)
    simpa [FinsCounted, hdata, isFinClose, FlowPacket.event] using h
  | reset f p client server hf hopen hrst hdrain =>
    simpa [FinsCounted, closed, countClose, countP_closeEvents, isFinClose,
      FlowPacket.event] using h
  | retire _ key hret =>
    cases hret with
    | mk f reason client server hf hdrain hfin =>
      intro hlt
      cases reason with
      | fin =>
        have hlt' : v.flowsFin < 2 ^ 64 - 1 := bump_le _ hlt
        simp only [if_true, countClose, closed, List.countP_append, countP_closeEvents]
        rw [bump_of_lt hlt', h hlt']
      | _ => simpa [countClose, closed, countP_closeEvents] using h hlt

theorem run_finCloses (ord : IterOrder) (config : ReassemblyConfig) (s₀ : TcpReassembler)
    (hnew : TcpReassembler.new config = .ok s₀) (calls : List Call) :
    ReturnsIf (Lasting config calls) (run (step ord) s₀ calls) (fun s =>
      (s.stats.flowsFin < 2 ^ 64 - 1 → s.stats.flowsFin = s.events.countP isFinClose) ∧
      ∀ k, ∃ past current, Splits k s.events past current ∧
        (∀ l ∈ past, l.reason = .fin → finsIn l.body = 2 ∧ EndsWithFin l.body) ∧
        ∀ body, current = some body → finsIn body ≤ 1) := by
  have hcounted := run_moves ord hnew (I := FinsCounted) (fun _ => rfl)
    (fun _ _ _ h hm => h.move hm) calls
  refine (hcounted.and (run_told fins_rules ord hnew calls)).mono fun s hs =>
    ⟨hs.1.2.2, fun k => ?_⟩
  obtain ⟨past, current, hsplit, hdone, hrel⟩ := hs.2.2.2 k
  refine ⟨past, current, hsplit, hdone, ?_⟩
  rintro body rfl
  cases hflow : (view s).flows.get? k with
  | none =>
    rw [hflow] at hrel
    cases hrel
  | some f =>
    rw [hflow] at hrel
    cases hrel with
    | some hfins =>
      rw [← hfins.counted]
      exact hfins.few_of_open (hs.2.1.noClosed k f hflow)

/-- Four packets, the last two both FINs of the first endpoint. -/
theorem run_finCloses_twice : ∃ s₀, TcpReassembler.new .default = .ok s₀ ∧
    Returns (run (step keyOrder) s₀
      [.segment left right 7 true false false [],
        .segment right left 9 true true false [],
        .segment left right 8 false true true [],
        .segment left right 8 false true true []]) (fun s =>
      (s.stats.flowsFin < 2 ^ 64 - 1 → s.stats.flowsFin = s.events.countP isFinClose) ∧
      ∀ k, ∃ past current, Splits k s.events past current ∧
        (∀ l ∈ past, l.reason = .fin → finsIn l.body = 2 ∧ EndsWithFin l.body) ∧
        ∀ body, current = some body → finsIn body ≤ 1) :=
  ⟨_, rfl, (run_finCloses keyOrder .default _ rfl _).returns (by decide)⟩

/-- A FIN packet of the endpoint. -/
def finFrom (e : Endpoint) : Event → Bool
  | .packet _ src _ tcp _ => src == e && tcp.fin
  | _ => false

/-- A close with reason `Fin` only after a FIN from each endpoint of the key. -/
def MutualFin (k : FlowKey) (events : List Event) : Prop :=
  .onFlowClose k .fin ∈ events → ∀ e ∈ [k.lower, k.upper], ∃ ev ∈ events, finFrom e ev = true

theorem oneSided_close : Returns (do
    let s₀ ← TcpReassembler.new .default
    run (step keyOrder) s₀
      [.segment left right 7 true false false [],
        .segment right left 9 true true false [],
        .segment left right 8 false true true [],
        .segment left right 8 false true true []]) (fun s =>
      ¬ MutualFin sampleKey s.events) := by
  refine ⟨_, rfl, fun h => ?_⟩
  have hfin := h (by decide) right (by decide)
  revert hfin
  decide

end Wirerust.Closing
