import Wirerust.Reassembly.Closing

/-!
Which direction the bytes and the FINs of an endpoint are counted to.

The initiator of a lifetime is fixed by its packets (`initiatorOf`): the source of the first
SYN, the destination of the first SYN+ACK or the source of the first payload, whichever comes
first. `run_attributes`: each byte delivered was sent, at its place in the stream, by the
endpoint of the direction it is delivered for, and `fin_seen` is set for the endpoint that
sent the FIN.

Before an initiator is recorded `direction()` takes every source for the server. A FIN that
comes first is therefore always seen on `server_to_client`, and so is the payload of a FIN that
closes a flow without an initiator (`JoinedByClosingFin`), for which nothing is claimed.
-/

namespace Wirerust.Attribution

open Lib Wirerust.Segment Wirerust.Buffer Wirerust.Direction Wirerust.Flow Wirerust.Engine
  Wirerust.Moves Wirerust.Retiring Wirerust.EngineSpec Wirerust.Lifetimes Wirerust.Handler
  Wirerust.Closing

/-! ## The initiator of a lifetime -/

/-- Whom the SYN flag of a packet makes the initiator. -/
def synInitiator (src dst : Endpoint) (tcp : TcpFields) : Option Endpoint :=
  if tcp.syn then some (if tcp.ack then dst else src) else none

/-- Whom a packet makes the initiator if there is none. -/
def initiatorBy : Event → Option Endpoint
  | .packet _ src dst tcp payload =>
    (synInitiator src dst tcp).or (if payload ≠ [] ∧ tcp.rst = false then some src else none)
  | _ => none

def initiatorOf (body : List Event) : Option Endpoint := body.findSome? initiatorBy

/-- The direction of the packets of `src`. -/
def sideOf (initiator : Option Endpoint) (src : Endpoint) : Direction :=
  if initiator = some src then .clientToServer else .serverToClient

/-- The initiator would be the source of the payload of the FIN that closes the flow. -/
def JoinedByClosingFin (body : List Event) : Prop :=
  ∃ pre p post, body = pre ++ FlowPacket.event p :: post ∧ initiatorOf pre = none ∧
    finsIn pre = 1 ∧ p.tcp.fin = true ∧ p.tcp.rst = false ∧ p.tcp.syn = false ∧ p.payload ≠ []

theorem initiatorOf_append (body new : List Event) :
    initiatorOf (body ++ new) = (initiatorOf body).or (initiatorOf new) := List.findSome?_append ..

theorem initiatorOf_of_not_packet {body : List Event} (h : ∀ e ∈ body, isPacket e = false) :
    initiatorOf body = none := by
  refine List.findSome?_eq_none_iff.mpr fun e he => ?_
  have := h e he
  cases e <;> simp_all [initiatorBy, isPacket]

/-- What a packet and the deliveries it causes add. -/
theorem initiatorOf_packet (body : List Event) (p : FlowPacket) {new : List Event}
    (hnew : ∀ e ∈ new, isPacket e = false) :
    initiatorOf (body ++ p.event :: new) = (initiatorOf body).or (initiatorBy p.event) := by
  have hrest : initiatorOf (p.event :: new) = (initiatorBy p.event).or (initiatorOf new) := by
    cases h : initiatorBy p.event <;> simp [initiatorOf, h]
  rw [initiatorOf_append, hrest, initiatorOf_of_not_packet hnew, Option.or_none]

theorem JoinedByClosingFin.append {body : List Event} (h : JoinedByClosingFin body)
    (new : List Event) : JoinedByClosingFin (body ++ new) := by
  obtain ⟨pre, p, post, rfl, hrest⟩ := h
  exact ⟨pre, p, post ++ new, by simp, hrest⟩

theorem JoinedByClosingFin.fins {body : List Event} (h : JoinedByClosingFin body) :
    2 ≤ finsIn body := by
  obtain ⟨pre, p, post, rfl, -, hone, hfin, hrst, -⟩ := h
  have hp : isFin p.event = true := by simp [isFin, FlowPacket.event, hfin, hrst]
  rw [finsIn_append, hone, finsIn, List.countP_cons, if_pos hp]
  omega

/-! ## The recorded initiator -/

section Flags

variable (f : TcpFlow)

@[simp] theorem setDir_initiator (w : Direction) (d : FlowDirection) :
    (f.setDir w d).initiator = f.initiator := by
  cases w <;> rfl

@[simp] theorem learnIsn_initiator (src : Endpoint) (seq : UInt32) :
    (learnIsn f src seq).initiator = f.initiator := setDir_initiator _ _ _

@[simp] theorem onSyn_initiator : f.onSyn.initiator = f.initiator := by
  unfold TcpFlow.onSyn
  split <;> rfl

@[simp] theorem onSynAck_initiator : f.onSynAck.initiator = f.initiator := by
  unfold TcpFlow.onSynAck
  split <;> rfl

@[simp] theorem onDataWithoutSyn_initiator : f.onDataWithoutSyn.initiator = f.initiator := by
  unfold TcpFlow.onDataWithoutSyn
  split <;> rfl

@[simp] theorem onFin_initiator : f.onFin.initiator = f.initiator := by
  simp only [TcpFlow.onFin]
  split
  · rfl
  · split <;> rfl

@[simp] theorem setInitiator_initiator (e : Endpoint) :
    (f.setInitiator e).initiator = f.initiator.or (some e) := by
  unfold TcpFlow.setInitiator
  cases h : f.initiator with
  | none => rfl
  | some i => exact h

theorem direction_eq (src : Endpoint) : f.direction src = sideOf f.initiator src := rfl

theorem applySynFlags_initiator (src dst : Endpoint) (tcp : TcpFields) :
    (applySynFlags f src dst tcp).initiator = f.initiator.or (synInitiator src dst tcp) := by
  rcases applySynFlags_cases f src dst tcp with ⟨hsyn, h⟩ | ⟨hsyn, hack, h⟩ | ⟨hsyn, hack, h⟩
  · simp [h, synInitiator, hsyn]
  · simp [h, synInitiator, hsyn, hack]
  · simp [h, synInitiator, hsyn, hack]

theorem handshake_initiator (p : FlowPacket) :
    (handshake f p).initiator = f.initiator.or (synInitiator p.src p.dst p.tcp) := by
  rw [← applySynFlags_initiator]
  unfold handshake applyFinFlag
  split <;> simp

theorem joined_initiator_of_some {src e : Endpoint} (h : f.initiator = some e) :
    (Moves.joined f src).initiator = some e := by
  unfold Moves.joined
  split
  · simp [h]
  · exact h

theorem joined_initiator_of_new {src : Endpoint} (h : f.initiator = none) (hnew : f.state = .new) :
    (Moves.joined f src).initiator = some src := by
  rw [Moves.joined, if_pos hnew]
  simp [h]

end Flags

/-- Without an initiator a flow has seen nothing but FINs. -/
structure Fresh (f : TcpFlow) : Prop where
  state : f.state = .new ∨ f.state = .closed
  isn : ∀ w, (f.dir w).isn = none

theorem Fresh.handshake {f : TcpFlow} (h : Fresh f) (hopen : f.state ≠ .closed) {p : FlowPacket}
    (hsyn : p.tcp.syn = false) : Fresh (handshake f p) := by
  have hnew : f.state = .new := h.state.resolve_right hopen
  have hsame : applySynFlags f p.src p.dst p.tcp = f := by
    rcases applySynFlags_cases f p.src p.dst p.tcp with ⟨-, heq⟩ | ⟨hs, -⟩ | ⟨hs, -⟩
    · exact heq
    · rw [hsyn] at hs
      cases hs
    · rw [hsyn] at hs
      cases hs
  unfold Moves.handshake applyFinFlag
  rw [hsame]
  split
  · refine ⟨?_, fun w => ?_⟩
    · simp only [TcpFlow.onFin, setDir_state, hnew]
      split
      · exact .inr rfl
      · rw [if_neg (by simp)]
        exact .inl (by simp)
    · rw [dir_onFin]
      by_cases hw : w = f.direction p.src
      · rw [hw, TcpFlow.dir_setDir_self]
        exact h.isn _
      · rw [TcpFlow.dir_setDir_of_ne f hw]
        exact h.isn w
  · exact h

/-- The flow knows the initiator of its lifetime. -/
structure Recorded (f : TcpFlow) (body : List Event) : Prop where
  eq : f.initiator = initiatorOf body
  fresh : f.initiator = none → Fresh f

theorem initiatorBy_event (p : FlowPacket) : initiatorBy p.event =
    (synInitiator p.src p.dst p.tcp).or
      (if p.payload ≠ [] ∧ p.tcp.rst = false then some p.src else none) := rfl

theorem syn_of_initiator_none {f : TcpFlow} {p : FlowPacket}
    (h : (handshake f p).initiator = none) :
    f.initiator = none ∧ p.tcp.syn = false := by
  rw [handshake_initiator, Option.or_eq_none_iff] at h
  refine ⟨h.1, ?_⟩
  have := h.2
  unfold synInitiator at this
  cases hsyn : p.tcp.syn with
  | false => rfl
  | true => simp [hsyn] at this

theorem Recorded.accepts {lim : Limits} {f f' : TcpFlow} {p : FlowPacket} {dir : Direction}
    {chunks : List (Chunk UInt8)} (hacc : Accepts lim f p f' dir chunks) {body : List Event}
    (h : Recorded f body) (hfins : Fins f body) (hopen : f.state ≠ .closed)
    (hrst : p.tcp.rst = false) {new : List Event} (hnew : ∀ e ∈ new, isPacket e = false)
    (hlate : ¬ JoinedByClosingFin (body ++ p.event :: new)) :
    Recorded f' (body ++ p.event :: new) := by
  have hbody := initiatorOf_packet body p hnew
  rw [initiatorBy_event, ← h.eq, ← Option.or_assoc, ← handshake_initiator] at hbody
  have hfresh : (handshake f p).initiator = none → Fresh (handshake f p) := fun hnone =>
    (h.fresh (syn_of_initiator_none hnone).1).handshake hopen (syn_of_initiator_none hnone).2
  cases hacc with
  | bare _ hnil =>
    refine ⟨?_, hfresh⟩
    rw [hbody, if_neg (by simp [hnil]), Option.or_none]
  | data f₂ _ joined d₁ d₂ d₃ _ hne hjoin hst hmark hfl =>
    rw [joinFlow_eq] at hjoin
    obtain ⟨rfl, -⟩ := Prod.mk.inj hjoin
    rw [if_pos ⟨hne, hrst⟩] at hbody
    have heq : (Moves.joined (handshake f p) p.src).initiator =
        (handshake f p).initiator.or (some p.src) := by
      cases hinit : (handshake f p).initiator with
      | some e => exact joined_initiator_of_some _ hinit
      | none =>
        obtain ⟨hnone, hsyn⟩ := syn_of_initiator_none hinit
        refine joined_initiator_of_new _ hinit
          ((hfresh hinit).state.resolve_right fun hclosed => ?_)
        -- the flow has just been closed by its second FIN
        have hfew := hfins.few_of_open hopen
        obtain ⟨hcount, hstate⟩ := handshake_fins p hopen hfew
        have htwo := hstate.mp hclosed
        rw [hcount] at htwo
        split at htwo
        · rename_i hfin
          refine hlate ⟨body, p, new, rfl, h.eq ▸ hnone, ?_, hfin, hrst, hsyn, hne⟩
          rw [← hfins.counted]
          omega
        · omega
    refine ⟨by rw [setDir_initiator, learnIsn_initiator, heq, hbody], fun hnone => ?_⟩
    rw [setDir_initiator, learnIsn_initiator, heq, Option.or_eq_none_iff] at hnone
    cases hnone.2

/-! ## Where bytes come from -/

/-- Each byte of the chunk is one that the endpoint of direction `w` sent with that offset. -/
def Sent (initiator : Option Endpoint) (body : List Event) (isn : UInt32) (w : Direction)
    (c : Chunk UInt8) : Prop :=
  ∀ pos byte, c.at? pos = some byte → ∃ p : FlowPacket, p.event ∈ body ∧ p.tcp.rst = false ∧
    sideOf initiator p.src = w ∧
    ∃ j, p.payload[j]? = some byte ∧ seqOffset p.tcp.seq isn + j = pos

/-- All that a direction has buffered or handed out was sent. -/
def Traced (initiator : Option Endpoint) (body : List Event) (w : Direction) (d : FlowDirection)
    (delivered : List (Chunk UInt8)) : Prop :=
  ∀ isn, d.isn = some isn → (∀ c ∈ d.segments.entries, Sent initiator body isn w c) ∧
    ∀ c ∈ delivered, Sent initiator body isn w c

theorem Sent.append {initiator : Option Endpoint} {body : List Event} {isn : UInt32}
    {w : Direction} {c : Chunk UInt8} (h : Sent initiator body isn w c) (new : List Event) :
    Sent initiator (body ++ new) isn w c := by
  intro pos byte hc
  obtain ⟨p, hp, hrest⟩ := h pos byte hc
  exact ⟨p, List.mem_append_left _ hp, hrest⟩

theorem at?_insertedPieces {d : FlowDirection} {seq : UInt32} {data : List UInt8} {lim : Limits}
    {c : Chunk UInt8} (hc : c ∈ insertedPieces d seq data lim) {pos : Nat} {byte : UInt8}
    (h : c.at? pos = some byte) {isn : UInt32} (hisn : d.isn = some isn) :
    ∃ j, data[j]? = some byte ∧ seqOffset seq isn + j = pos := by
  unfold insertedPieces at hc
  split at hc
  · cases hc
  · rename_i new hadm
    obtain ⟨g, hg, rfl⟩ := mem_storedPieces.mp hc
    have hb := openGaps_bounds new g (List.mem_of_mem_take hg)
    rw [Chunk.piece_at? hb.1] at h
    split at h
    · rw [admittedSegment_of_isn hisn] at hadm
      split at hadm
      · cases hadm
        unfold Chunk.at? at h
        split at h
        · rename_i hle
          simp only [List.getElem?_take] at h hle
          split at h
          · exact ⟨_, h, by omega⟩
          · cases h
        · cases h
      · cases hadm
    · cases h

section Traced

variable {initiator : Option Endpoint} {body : List Event} {w : Direction} {d d' : FlowDirection}
  {delivered : List (Chunk UInt8)}

theorem Traced.append (h : Traced initiator body w d delivered) (new : List Event) :
    Traced initiator (body ++ new) w d delivered := fun isn hisn =>
  ⟨fun c hc => ((h isn hisn).1 c hc).append new, fun c hc => ((h isn hisn).2 c hc).append new⟩

/-- Learning an ISN is no concern: until then there is nothing to trace. -/
theorem traced_of_kept (hinv : Runs.Inv ⟨d, delivered⟩) (hk : Kept d d')
    (h : d.isn ≠ none → Traced initiator body w d delivered) :
    Traced initiator body w d' delivered := by
  intro isn hisn
  rcases hk.isn with ⟨heq, -⟩ | ⟨hnone, -⟩
  · rw [heq] at hisn
    rw [hk.segments]
    exact h (by rw [hisn]; exact Option.some_ne_none _) isn hisn
  · obtain ⟨hnil, -, hdel⟩ := hinv.fresh hnone
    simp only at hnil hdel
    rw [hk.segments, hnil, hdel]
    exact ⟨by simp, by simp⟩

theorem Traced.stored (h : Traced initiator body w d delivered) {p : FlowPacket} {lim : Limits}
    (hst : Stored d d' (insertedPieces d p.tcp.seq p.payload lim)) (hp : p.event ∈ body)
    (hrst : p.tcp.rst = false) (hside : sideOf initiator p.src = w) :
    Traced initiator body w d' delivered := by
  intro isn hisn
  rw [hst.isn] at hisn
  refine ⟨fun c hc => ?_, (h isn hisn).2⟩
  rcases hst.mem_iff.mp hc with hc | hc
  · intro pos byte hbyte
    exact ⟨p, hp, hrst, hside, at?_insertedPieces hc hbyte hisn⟩
  · exact (h isn hisn).1 c hc

theorem Traced.flushed (h : Traced initiator body w d delivered) {chunks : List (Chunk UInt8)}
    (hfl : Flushed d d' chunks) : Traced initiator body w d' (delivered ++ chunks) := by
  intro isn hisn
  rw [hfl.isn] at hisn
  refine ⟨fun c hc => (h isn hisn).1 c (hfl.mem hc), fun c hc => ?_⟩
  rcases List.mem_append.mp hc with hc | hc
  · exact (h isn hisn).2 c hc
  · exact (h isn hisn).1 c (hfl.entries.mem_iff.mpr (List.mem_append_left _ hc))

end Traced

def Owned (f : TcpFlow) (body : List Event) : Prop :=
  ∀ w, Traced (initiatorOf body) body w (f.dir w) (chunksIn w (deliveries body))

/-- Once there is something to trace, the initiator stays what it is. -/
theorem Owned.extend {f : TcpFlow} {body : List Event} (h : Owned f body) (hrec : Recorded f body)
    (new : List Event) (w : Direction) (hisn : (f.dir w).isn ≠ none) :
    Traced (initiatorOf (body ++ new)) (body ++ new) w (f.dir w)
      (chunksIn w (deliveries body)) := by
  have hinit : initiatorOf (body ++ new) = initiatorOf body := by
    rw [initiatorOf_append, ← hrec.eq]
    cases hnone : f.initiator with
    | none => exact absurd ((hrec.fresh hnone).isn w) hisn
    | some e => rfl
  rw [hinit]
  exact (h w).append new

theorem Owned.accepts {lim : Limits} {f f' : TcpFlow} {p : FlowPacket} {dir : Direction}
    {chunks : List (Chunk UInt8)} (hacc : Accepts lim f p f' dir chunks) {body : List Event}
    (h : Owned f body) (hrec : Recorded f body) (hstr : Streams f body) (hrst : p.tcp.rst = false)
    (k : FlowKey) (timestamp : UInt32)
    (hrec' : Recorded f' (body ++ p.event :: dataEvents k dir timestamp chunks)) :
    Owned f' (body ++ p.event :: dataEvents k dir timestamp chunks) := by
  intro w
  obtain ⟨body', hbody'⟩ : ∃ body', body ++ p.event :: dataEvents k dir timestamp chunks = body' :=
    ⟨_, rfl⟩
  have hold := h.extend hrec (p.event :: dataEvents k dir timestamp chunks) w
  have hp : p.event ∈ body' := by simp [← hbody']
  have hchunks : chunksIn w (deliveries body') =
      chunksIn w (deliveries body) ++ if w = dir then chunks else [] := by
    rw [← hbody', deliveries_append, deliveries_packet, chunksIn_append, chunksIn_dataEvents]
  rw [hbody'] at hrec' hold ⊢
  have hhand := traced_of_kept (hstr w) (kept_handshake f p w) hold
  have hinv := inv_of_kept (kept_handshake f p w) (hstr w)
  cases hacc with
  | bare _ hnil => simpa [hchunks] using hhand
  | data f₂ _ joined d₁ d₂ d₃ _ hne hjoin hst hmark hfl =>
    have hk := kept_joinFlow (handshake f p) p.src p.tcp.seq w
    rw [hjoin] at hk
    have hf₂ := traced_of_kept hinv hk fun _ => hhand
    by_cases hw : w = dir
    · subst hw
      have hside : sideOf (initiatorOf body') p.src = w := by
        rw [← hrec'.eq, setDir_initiator]
        rw [joinFlow_eq] at hjoin
        obtain ⟨rfl, hdir⟩ := Prod.mk.inj hjoin
        rw [learnIsn_initiator]
        exact (Prod.mk.inj hdir).1
      rw [hchunks, if_pos rfl, TcpFlow.dir_setDir_self]
      have hstored := hf₂.stored hst hp hrst hside
      have hinv₁ := (inv_of_kept hk hinv).moved (.stored p.tcp.seq p.payload lim d₁ hst)
      exact (traced_of_kept hinv₁ (Kept.of_marked hmark) fun _ => hstored).flushed hfl
    · rw [hchunks, if_neg hw, List.append_nil, TcpFlow.dir_setDir_of_ne f₂ hw]
      exact hf₂

/-- Whatever has been handed out in a lifetime was sent by the endpoint of its direction. -/
def Attributed (body : List Event) : Prop :=
  ∀ w, ∃ isn, ∀ c ∈ chunksIn w (deliveries body), Sent (initiatorOf body) body isn w c

theorem exists_sent {initiator : Option Endpoint} {body : List Event} {w : Direction}
    {d : FlowDirection} {delivered : List (Chunk UInt8)} (hinv : Runs.Inv ⟨d, delivered⟩)
    (h : Traced initiator body w d delivered) :
    ∃ isn, ∀ c ∈ delivered, Sent initiator body isn w c := by
  cases hisn : d.isn with
  | some isn => exact ⟨isn, (h isn hisn).2⟩
  | none =>
    obtain ⟨-, -, hdel⟩ := hinv.fresh hisn
    simp only at hdel
    rw [hdel]
    exact ⟨0, by simp⟩

/-- Draining a flow hands out what it has buffered. -/
theorem attributed_of_drained {f : TcpFlow} {body out : List Event} {k : FlowKey}
    {client server : List (Chunk UInt8)} (hdrain : Drains f client server)
    (hinv : ∀ w, Runs.Inv ⟨f.dir w, chunksIn w (deliveries body)⟩)
    (h : ∀ w, Traced (initiatorOf out) out w (f.dir w) (chunksIn w (deliveries body)))
    (hout : deliveries out = deliveries body ++ deliveries (drainEvents k f client server)) :
    Attributed out := by
  intro w
  rw [hout, chunksIn_append, chunksIn_drainEvents]
  cases w with
  | clientToServer =>
    obtain ⟨d, hfl⟩ := hdrain.client
    exact exists_sent (inv_flushed (hinv .clientToServer) hfl) ((h .clientToServer).flushed hfl)
  | serverToClient =>
    obtain ⟨d, hfl⟩ := hdrain.server
    exact exists_sent (inv_flushed (hinv .serverToClient) hfl) ((h .serverToClient).flushed hfl)

/-! ## Where FINs are seen -/

/-- The endpoint of direction `w` has sent a FIN, or it is the server's direction and some FIN
came before there was an initiator. -/
def FinSource (body : List Event) (w : Direction) : Prop :=
  (∃ p e, FlowPacket.event p ∈ body ∧ p.tcp.fin = true ∧ p.tcp.rst = false ∧
    initiatorOf body = some e ∧ sideOf (some e) p.src = w) ∨
  (w = .serverToClient ∧ ∃ pre p post, body = pre ++ FlowPacket.event p :: post ∧
    p.tcp.fin = true ∧ p.tcp.rst = false ∧ p.tcp.syn = false ∧ initiatorOf pre = none)

def FinAttributed (f : TcpFlow) (body : List Event) : Prop :=
  ∀ w, (f.dir w).finSeen = true → FinSource body w

section FinSeen

variable (f : TcpFlow)

theorem finSeen_learnIsn (src : Endpoint) (seq : UInt32) (w : Direction) :
    ((learnIsn f src seq).dir w).finSeen = (f.dir w).finSeen := by
  unfold learnIsn
  by_cases hw : w = f.direction src
  · rw [hw, TcpFlow.dir_setDir_self, setIsn]
    split <;> rfl
  · rw [TcpFlow.dir_setDir_of_ne f hw]

theorem finSeen_applySynFlags (src dst : Endpoint) (tcp : TcpFields) (w : Direction) :
    ((applySynFlags f src dst tcp).dir w).finSeen = (f.dir w).finSeen := by
  rcases applySynFlags_cases f src dst tcp with ⟨-, h⟩ | ⟨-, -, h⟩ | ⟨-, -, h⟩
  · rw [h]
  · rw [h, dir_onSyn, finSeen_learnIsn, dir_setInitiator]
  · rw [h, dir_onSynAck, finSeen_learnIsn, dir_setInitiator]

theorem finSeen_handshake {p : FlowPacket} {w : Direction}
    (h : ((handshake f p).dir w).finSeen = true) : (f.dir w).finSeen = true ∨
      (p.tcp.fin = true ∧ sideOf (handshake f p).initiator p.src = w) := by
  rw [handshake_initiator, ← applySynFlags_initiator, ← direction_eq]
  unfold handshake applyFinFlag at h
  split at h
  · rename_i hfin
    rw [dir_onFin] at h
    by_cases hw : w = (applySynFlags f p.src p.dst p.tcp).direction p.src
    · exact .inr ⟨hfin, hw.symm⟩
    · rw [TcpFlow.dir_setDir_of_ne _ hw, finSeen_applySynFlags] at h
      exact .inl h
  · rw [finSeen_applySynFlags] at h
    exact .inl h

end FinSeen

theorem Accepts.finSeen {lim : Limits} {f f' : TcpFlow} {p : FlowPacket} {dir : Direction}
    {chunks : List (Chunk UInt8)} (h : Accepts lim f p f' dir chunks) (w : Direction) :
    (f'.dir w).finSeen = ((handshake f p).dir w).finSeen := by
  cases h with
  | bare => rfl
  | data f₂ _ joined d₁ d₂ d₃ _ hne hjoin hst hmark hfl =>
    have hjoined : (f₂.dir w).finSeen = ((handshake f p).dir w).finSeen := by
      rw [joinFlow_eq] at hjoin
      obtain ⟨rfl, -⟩ := Prod.mk.inj hjoin
      rw [finSeen_learnIsn, dir_joined]
    by_cases hw : w = dir
    · subst hw
      have hmarked : d₂.finSeen = d₁.finSeen := by rw [hmark]
      rw [TcpFlow.dir_setDir_self, hfl.finSeen, hmarked, hst.finSeen, hjoined]
    · rw [TcpFlow.dir_setDir_of_ne f₂ hw, hjoined]

theorem FinSource.append {body : List Event} {w : Direction} (h : FinSource body w)
    (new : List Event) : FinSource (body ++ new) w := by
  rcases h with ⟨p, e, hp, hfin, hrst, hinit, hside⟩ | ⟨hserver, pre, p, post, rfl, hrest⟩
  · refine .inl ⟨p, e, List.mem_append_left _ hp, hfin, hrst, ?_, hside⟩
    rw [initiatorOf_append, hinit]
    rfl
  · exact .inr ⟨hserver, pre, p, post ++ new, by simp, hrest⟩

theorem FinAttributed.accepts {lim : Limits} {f f' : TcpFlow} {p : FlowPacket} {dir : Direction}
    {chunks : List (Chunk UInt8)} (hacc : Accepts lim f p f' dir chunks) {body : List Event}
    (h : FinAttributed f body) (hrec : Recorded f body) (hrst : p.tcp.rst = false)
    {new : List Event} (hnew : ∀ e ∈ new, isPacket e = false) :
    FinAttributed f' (body ++ p.event :: new) := by
  intro w hw
  rw [Accepts.finSeen hacc] at hw
  rcases finSeen_handshake f hw with hold | ⟨hfin, hside⟩
  · exact (h w hold).append _
  · cases hinit : (handshake f p).initiator with
    | some e =>
      refine .inl ⟨p, e, by simp, hfin, hrst, ?_, by rw [← hinit]; exact hside⟩
      rw [initiatorOf_packet body p hnew, initiatorBy_event, ← hrec.eq, ← Option.or_assoc,
        ← handshake_initiator, hinit]
      rfl
    | none =>
      obtain ⟨hnone, hsyn⟩ := syn_of_initiator_none hinit
      rw [hinit] at hside
      exact .inr ⟨hside.symm, body, p, new, rfl, hfin, hrst, hsyn, hrec.eq ▸ hnone⟩

/-! ## Runs -/

/-- What is known of an open flow. -/
structure Open (f : TcpFlow) (body : List Event) : Prop where
  streams : Streams f body
  fins : Fins f body
  recorded : ¬ JoinedByClosingFin body → Recorded f body
  owned : ¬ JoinedByClosingFin body → Owned f body
  finSeen : ¬ JoinedByClosingFin body → FinAttributed f body

theorem Open.not_joined {f : TcpFlow} {body : List Event} (h : Open f body)
    (hopen : f.state ≠ .closed) : ¬ JoinedByClosingFin body := by
  intro hlate
  have htwo := hlate.fins
  have hone := h.fins.few_of_open hopen
  rw [h.fins.counted] at hone
  omega

theorem open_created (k : FlowKey) (timestamp : UInt32) (index : Nat) :
    Open { TcpFlow.new k timestamp with lastActivityIndex := index } [] where
  streams := (streams_rules k).created timestamp index
  fins := (fins_rules k).created timestamp index
  recorded := fun _ => ⟨rfl, fun _ => ⟨.inl rfl, fun w => by cases w <;> rfl⟩⟩
  owned := fun _ w isn hisn => by cases w <;> cases hisn
  finSeen := fun _ w hw => by cases w <;> cases hw

theorem Open.touched {f : TcpFlow} {body : List Event} (h : Open f body) (timestamp : UInt32)
    (index : Nat) : Open { f with lastSeen := timestamp, lastActivityIndex := index } body := by
  have hdir : ∀ w, ({ f with lastSeen := timestamp, lastActivityIndex := index } : TcpFlow).dir w =
      f.dir w := fun w => by cases w <;> rfl
  refine ⟨fun w => ?_, ⟨h.fins.counted, h.fins.few, h.fins.closed, h.fins.last⟩, fun hlate => ?_,
    fun hlate w => ?_, fun hlate w hw => ?_⟩
  · rw [hdir]
    exact h.streams w
  · refine ⟨(h.recorded hlate).eq, fun hnone => ?_⟩
    have hfresh := (h.recorded hlate).fresh hnone
    exact ⟨hfresh.state, fun w => by rw [hdir]; exact hfresh.isn w⟩
  · rw [hdir]
    exact h.owned hlate w
  · rw [hdir] at hw
    exact h.finSeen hlate w hw

theorem Open.accepts {lim : Limits} {f f' : TcpFlow} {p : FlowPacket} {dir : Direction}
    {chunks : List (Chunk UInt8)} (hacc : Accepts lim f p f' dir chunks) {body : List Event}
    (h : Open f body) (hopen : f.state ≠ .closed) (hrst : p.tcp.rst = false) (k : FlowKey)
    (timestamp : UInt32) : Open f' (body ++ p.event :: dataEvents k dir timestamp chunks) := by
  have hearly := h.not_joined hopen
  have hdata := isPacket_dataEvents k dir timestamp chunks
  have hrec := h.recorded hearly
  have hrec' : ¬ JoinedByClosingFin (body ++ p.event :: dataEvents k dir timestamp chunks) →
      Recorded f' (body ++ p.event :: dataEvents k dir timestamp chunks) :=
    fun hlate => hrec.accepts hacc h.fins hopen hrst hdata hlate
  exact ⟨h.streams.accepts hacc k timestamp, h.fins.accepts hacc hopen hrst k timestamp, hrec',
    fun hlate => (h.owned hearly).accepts hacc hrec h.streams hrst k timestamp (hrec' hlate),
    fun _ => (h.finSeen hearly).accepts hacc hrec hrst hdata⟩

theorem open_rules (k : FlowKey) :
    Rules k Open (fun l => ¬ JoinedByClosingFin l.body → Attributed l.body) where
  created := open_created k
  touched := fun f body timestamp index h => h.touched timestamp index
  packet := fun lim f f' p dir chunks timestamp body _ hopen hrst hacc h =>
    h.accepts hacc hopen hrst k timestamp
  reset := fun f p client server body _ hopen hrst hdrain h _ => by
    have hearly := h.not_joined hopen
    have hkept := kept_resetFlow f p
    refine attributed_of_drained (k := k) hdrain (fun w => inv_of_kept (hkept w) (h.streams w))
      (fun w => traced_of_kept (h.streams w) (hkept w) ?_) (by simp)
    exact (h.owned hearly).extend (h.recorded hearly) _ w
  retired := fun f reason client server body _ hdrain h hlate => by
    have hearly : ¬ JoinedByClosingFin body := fun hj => hlate (hj.append _)
    refine attributed_of_drained (k := k) hdrain h.streams
      (fun w => traced_of_kept (h.streams w) (Kept.refl _) ?_) (by simp)
    exact (h.owned hearly).extend (h.recorded hearly) _ w

theorem run_attributes (ord : IterOrder) (config : ReassemblyConfig) (s₀ : TcpReassembler)
    (hnew : TcpReassembler.new config = .ok s₀) (calls : List Call) :
    ReturnsIf (Lasting config calls) (run (step ord) s₀ calls) (fun s => ∀ k, ∃ past current,
      Splits k s.events past current ∧
      (∀ l ∈ past, ¬ JoinedByClosingFin l.body → Attributed l.body) ∧
      Option.Rel (fun f body => Attributed body ∧ FinAttributed f body)
        (s.flows.get? k) current) := by
  refine (run_told open_rules ord hnew calls).mono fun s hs k => ?_
  obtain ⟨past, current, hsplit, hdone, hrel⟩ := hs.2.2 k
  refine ⟨past, current, hsplit, hdone, ?_⟩
  cases hflow : s.flows.get? k with
  | none =>
    rw [show (view s).flows.get? k = none from hflow] at hrel
    cases hrel
    exact .none
  | some f =>
    rw [show (view s).flows.get? k = some f from hflow] at hrel
    cases hrel with
    | some hopen =>
      have hearly := hopen.not_joined (hs.1.noClosed k f hflow)
      exact .some ⟨fun w => exists_sent (hopen.streams w) (hopen.owned hearly w),
        hopen.finSeen hearly⟩

/-- A mid-stream join by a payload with FIN, which is seen before there is an initiator. -/
theorem run_attributes_join : ∃ s₀, TcpReassembler.new .default = .ok s₀ ∧
    Returns (run (step keyOrder) s₀
      [.segment left right 7 false true true [1, 2],
        .segment right left 9 false true false [3]]) (fun s => ∀ k, ∃ past current,
      Splits k s.events past current ∧
      (∀ l ∈ past, ¬ JoinedByClosingFin l.body → Attributed l.body) ∧
      Option.Rel (fun f body => Attributed body ∧ FinAttributed f body)
        (s.flows.get? k) current) :=
  ⟨_, rfl, (run_attributes keyOrder .default _ rfl _).returns (by decide)⟩

/-- Every FIN is seen on the direction of its sender. -/
def FinFromSide (f : TcpFlow) (body : List Event) : Prop :=
  ∀ w, (f.dir w).finSeen = true →
    ∃ p, FlowPacket.event p ∈ body ∧ p.tcp.fin = true ∧ sideOf (initiatorOf body) p.src = w

section EarlyFin

/-- A packet with ACK from 10.0.0.1:80 to 10.0.0.2:90, or back. -/
def ackPacket (back fin : Bool) (payload : List UInt8) : FlowPacket :=
  if back then ⟨right, left, ⟨90, 80, 9, false, true, fin, false⟩, payload⟩
  else ⟨left, right, ⟨80, 90, 7, false, true, fin, false⟩, payload⟩

theorem event_injective {p q : FlowPacket} (h : p.event = q.event) : p = q := by
  obtain ⟨src, dst, tcp, payload⟩ := p
  obtain ⟨src', dst', tcp', payload'⟩ := q
  simp only [FlowPacket.event, Event.packet.injEq] at h
  simp only [h]

/-- The first endpoint sends a FIN and then, as the initiator, a byte: its FIN is seen on the
direction of the other one. And where the other one follows with a FIN and a byte, the byte of
the initiator is delivered as the server's. -/
theorem early_fin :
    Returns (do
      let s₀ ← TcpReassembler.new .default
      run (step keyOrder) s₀ [.segment left right 7 false true true [],
        .segment left right 7 false true false [1]]) (fun s => ∃ f body,
      s.flows.get? sampleKey = some f ∧ Splits sampleKey s.events [] (some body) ∧
      ¬ FinFromSide f body) ∧
    Returns (do
      let s₀ ← TcpReassembler.new .default
      run (step keyOrder) s₀ [.segment left right 7 false true true [],
        .segment right left 9 false true true [1]]) (fun s => ∃ body,
      Splits sampleKey s.events [⟨body, .fin⟩] none ∧ ¬ Attributed body) := by
  constructor
  · refine ⟨_, rfl, _, [(ackPacket false true []).event, (ackPacket false false [1]).event,
      .onData sampleKey .clientToServer [1] 1 1], rfl, ⟨rfl, by simp, ?_⟩, fun h => ?_⟩
    · rintro body ⟨⟩
      simp only [List.forall_mem_cons]
      exact ⟨.packet _ rfl, .packet _ rfl, .data _ _ _ _, by simp⟩
    · obtain ⟨p, hp, -, hside⟩ := h .serverToClient rfl
      have hleft : p.src = left := by
        simp only [List.mem_cons, List.not_mem_nil, or_false] at hp
        rcases hp with hp | hp | hp
        · rw [event_injective hp]
          rfl
        · rw [event_injective hp]
          rfl
        · cases hp
      rw [hleft] at hside
      revert hside
      decide
  · refine ⟨_, rfl, [(ackPacket false true []).event, (ackPacket true true [1]).event,
      .onData sampleKey .serverToClient [1] 1 1], ⟨rfl, ?_, by simp⟩, fun h => ?_⟩
    · rintro l hl
      obtain rfl := List.mem_singleton.mp hl
      simp only [List.forall_mem_cons]
      exact ⟨.packet _ rfl, .packet _ rfl, .data _ _ _ _, by simp⟩
    · obtain ⟨isn, hsent⟩ := h .serverToClient
      obtain ⟨p, hp, -, hside, j, hbyte, -⟩ := hsent (1, [1]) (by decide) 1 1 rfl
      have hright : p.src = right := by
        simp only [List.mem_cons, List.not_mem_nil, or_false] at hp
        rcases hp with hp | hp | hp
        · rw [event_injective hp] at hbyte
          cases hbyte
        · rw [event_injective hp]
          rfl
        · cases hp
      rw [hright] at hside
      revert hside
      decide

end EarlyFin

end Wirerust.Attribution
