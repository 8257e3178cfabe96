import Mathlib.Data.List.Forall2
import Wirerust.Reassembly.AnyOrder
import Wirerust.Reassembly.Alone
import Wirerust.Reassembly.Attribution

/-!
Connections between two endpoints, as the engine hands them out.

In a `Conversation` each side opens with a SYN (the server's with ACK) and then sends its stream
in segments, each once or several times and in any order. `run_conversation`: whatever else there
is in the capture, what a lifetime of its flow delivers in either direction are the first segments
of that side's stream, and all of it once every segment has arrived.

The invariant (`Heard`) says of each side that nothing is known of it, or that it stands as
`AnyOrder.Between` says.
-/

namespace Wirerust.Conversations

open Lib Wirerust.Segment Wirerust.Buffer Wirerust.Direction Wirerust.Flow Wirerust.Engine
  Wirerust.Moves Wirerust.Retiring Wirerust.EngineSpec Wirerust.Lifetimes Wirerust.Handler
  Wirerust.Closing Wirerust.Attribution Wirerust.AnyOrder Wirerust.Alone

/-! ## What is said -/

/-- What the two sides of a connection send. The client is the side of `clientToServer`. -/
structure Conversation where
  sender : Direction → Endpoint
  isn : Direction → UInt32
  segs : Direction → List (List UInt8)
  apart : sender .clientToServer ≠ sender .serverToClient
  nonempty : ∀ w, ∀ s ∈ segs w, s ≠ []
  short : ∀ w, (segs w).flatten.length < 2 ^ 31

/-- What a packet is for. -/
inductive Item
  | opening (w : Direction)
  | data (w : Direction) (i : Nat)
  | bare
  | reset
  deriving DecidableEq

namespace Conversation

variable (c : Conversation)

def client : Endpoint := c.sender .clientToServer

def server : Endpoint := c.sender .serverToClient

def key : FlowKey := FlowKey.new c.client.1 c.client.2 c.server.1 c.server.2

/-- The packet is one for this item. Any of them may have FIN. -/
inductive Carries : Item → FlowPacket → Prop
  | syn (p : FlowPacket) (hsrc : p.src = c.client) (hseq : p.tcp.seq = c.isn .clientToServer)
      (hsyn : p.tcp.syn = true) (hack : p.tcp.ack = false) (hrst : p.tcp.rst = false)
      (hnil : p.payload = []) : Carries (.opening .clientToServer) p
  | synAck (p : FlowPacket) (hsrc : p.src = c.server) (hdst : p.dst = c.client)
      (hseq : p.tcp.seq = c.isn .serverToClient) (hsyn : p.tcp.syn = true)
      (hack : p.tcp.ack = true) (hrst : p.tcp.rst = false) (hnil : p.payload = []) :
      Carries (.opening .serverToClient) p
  | data (w : Direction) (i : Fin (c.segs w).length) (p : FlowPacket) (hsrc : p.src = c.sender w)
      (hseq : p.tcp.seq = c.isn w + 1 + UInt32.ofNat (start (c.segs w) i))
      (hsyn : p.tcp.syn = false) (hrst : p.tcp.rst = false) (hload : p.payload = (c.segs w)[i]) :
      Carries (.data w i) p
  | bare (p : FlowPacket) (hsyn : p.tcp.syn = false) (hrst : p.tcp.rst = false)
      (hnil : p.payload = []) : Carries .bare p
  | reset (p : FlowPacket) (hrst : p.tcp.rst = true) : Carries .reset p

end Conversation

/-- No side sends data before it has opened. -/
def Proper (items : List Item) : Prop :=
  ∀ pre w i post, items = pre ++ .data w i :: post → .opening w ∈ pre

theorem Proper.init {items : List Item} {item : Item} (h : Proper (items ++ [item])) :
    Proper items := by
  intro pre w i post heq
  exact h pre w i (post ++ [item]) (by rw [heq]; simp)

theorem Proper.opened {items : List Item} (h : Proper items) {w : Direction} {i : Nat}
    (hmem : .data w i ∈ items) : .opening w ∈ items := by
  obtain ⟨pre, post, rfl⟩ := List.append_of_mem hmem
  exact List.mem_append_left _ (h pre w i post rfl)

/-- Both sides open before anything else. -/
theorem Proper.of_opened {pre : List Item} (post : List Item) (hopen : ∀ w, .opening w ∈ pre)
    (hnone : ∀ w i, .data w i ∉ pre) : Proper (pre ++ post) := by
  intro before w i after heq
  rcases List.append_eq_append_iff.mp heq with ⟨middle, rfl, -⟩ | ⟨middle, rfl, hrest⟩
  · exact List.mem_append_left _ (hopen w)
  · cases middle with
    | nil => simpa using hopen w
    | cons item middle =>
      obtain ⟨rfl, -⟩ := List.cons.inj hrest
      exact absurd (by simp) (hnone w i)

theorem Proper.last {items : List Item} {w : Direction} {i : Nat}
    (h : Proper (items ++ [.data w i])) : .opening w ∈ items := h items w i [] rfl

/-- The packets of a body, as their flow has seen them. -/
def packet? : Event → Option FlowPacket
  | .packet _ src dst tcp payload => some ⟨src, dst, tcp, payload⟩
  | _ => none

def packetsIn (body : List Event) : List FlowPacket := body.filterMap packet?

theorem packetsIn_append (body new : List Event) :
    packetsIn (body ++ new) = packetsIn body ++ packetsIn new := List.filterMap_append

theorem packetsIn_of_none_arrived {body : List Event} (h : ∀ e ∈ body, isArrival e = false) :
    packetsIn body = [] := by
  refine List.filterMap_eq_nil_iff.mpr fun e he => ?_
  have := h e he
  cases e <;> simp_all [packet?, isArrival]

theorem packetsIn_of_not_packet {body : List Event} (h : ∀ e ∈ body, isPacket e = false) :
    packetsIn body = [] := by
  refine packetsIn_of_none_arrived fun e he => ?_
  have := h e he
  cases e <;> simp_all [isArrival, isPacket]

theorem packetsIn_packet (body : List Event) (p : FlowPacket) {new : List Event}
    (hnew : ∀ e ∈ new, isPacket e = false) :
    packetsIn (body ++ p.event :: new) = packetsIn body ++ [p] := by
  have hrest : packetsIn (p.event :: new) = p :: packetsIn new := rfl
  rw [packetsIn_append, hrest, packetsIn_of_not_packet hnew]

theorem forall₂_snoc {α β : Type} {R : α → β → Prop} {as : List α} {bs : List β} {b : β}
    (h : List.Forall₂ R as (bs ++ [b])) :
    ∃ as' a, as = as' ++ [a] ∧ List.Forall₂ R as' bs ∧ R a b := by
  have htake := List.forall₂_take_append as bs [b] h
  have hdrop := List.forall₂_drop_append as bs [b] h
  obtain ⟨a, as'', hab, hnil, hcons⟩ := List.forall₂_cons_right_iff.mp hdrop
  cases hnil
  exact ⟨as.take bs.length, a, by rw [← hcons, List.take_append_drop], htake, hab⟩

/-- The packets of the body tell the conversation, in these items. -/
def Tells (c : Conversation) (items : List Item) (body : List Event) : Prop :=
  List.Forall₂ c.Carries items (packetsIn body) ∧ Proper items

theorem Tells.snoc {c : Conversation} {items : List Item} {body : List Event} {p : FlowPacket}
    {new : List Event} (hnew : ∀ e ∈ new, isPacket e = false)
    (h : Tells c items (body ++ p.event :: new)) :
    ∃ items' item, items = items' ++ [item] ∧ Tells c items' body ∧ c.Carries item p ∧
      Proper items := by
  obtain ⟨hcarries, hproper⟩ := h
  rw [packetsIn_packet body p hnew] at hcarries
  obtain ⟨items', item, rfl, hcarries', hitem⟩ := forall₂_snoc hcarries
  exact ⟨items', item, rfl, ⟨hcarries', hproper.init⟩, hitem, hproper⟩

theorem Tells.of_not_packet {c : Conversation} {items : List Item} {body new : List Event}
    (hnew : ∀ e ∈ new, isPacket e = false) (h : Tells c items (body ++ new)) :
    Tells c items body := by
  obtain ⟨hcarries, hproper⟩ := h
  rw [packetsIn_append, packetsIn_of_not_packet hnew, List.append_nil] at hcarries
  exact ⟨hcarries, hproper⟩

/-! ## One side -/

/-- The segments among the items. -/
def seen (c : Conversation) (w : Direction) (items : List Item) : List (Fin (c.segs w).length) :=
  (List.finRange _).filter fun i => .data w i.val ∈ items

theorem mem_seen {c : Conversation} {w : Direction} {items : List Item}
    {i : Fin (c.segs w).length} : i ∈ seen c w items ↔ .data w i.val ∈ items := by
  simp [seen]

section Side

variable {segs : List (List UInt8)} {isn : UInt32} {sn sn' : List (Fin segs.length)}
  {d d' : FlowDirection} {chunks : List (Chunk UInt8)}

/-- The buffer, the cursor and the ISN are all that `Placed` looks at. -/
theorem placed_of_kept {f : Nat} (hk : Kept d d') (h : Placed segs isn sn f ⟨d, chunks⟩) :
    Placed segs isn sn f ⟨d', chunks⟩ := by
  have hisn : d.isn = some isn := h.isn
  have hsame : d'.isn = d.isn ∧ d'.baseOffset = d.baseOffset := by
    rcases hk.isn with hsame | ⟨hnone, -⟩
    · exact hsame
    · rw [hisn] at hnone
      cases hnone
  refine ⟨h.le, hsame.1.trans hisn, hsame.2.trans h.cursor, h.delivered, fun e he => ?_,
    fun i hi hle => ?_⟩
  · exact h.whole e (hk.segments ▸ he)
  · exact hk.segments ▸ h.buffered i hi hle

theorem between_of_kept (hk : Kept d d') (h : Between segs isn sn ⟨d, chunks⟩) :
    Between segs isn sn ⟨d', chunks⟩ := by
  obtain ⟨hinv, f, hplaced, hmissing⟩ := h
  refine ⟨inv_of_kept hk hinv, f, placed_of_kept hk hplaced, fun i hi hmem => ?_⟩
  exact hmissing i hi (hk.segments ▸ hmem)

/-- The chunks of a direction are whole segments, and it stands between two deliveries. -/
structure Standing (segs : List (List UInt8)) (isn : UInt32) (sn : List (Fin segs.length))
    (d : FlowDirection) (chunks : List (Chunk UInt8)) : Prop where
  between : Between segs isn sn ⟨d, chunks⟩
  whole : ∀ e ∈ chunks, ∃ i, e = seg segs i

theorem Standing.of_kept (hk : Kept d d') (h : Standing segs isn sn d chunks) :
    Standing segs isn sn d' chunks := ⟨between_of_kept hk h.between, h.whole⟩

theorem Standing.isn_eq (h : Standing segs isn sn d chunks) : d.isn = some isn := by
  obtain ⟨-, _, hplaced, -⟩ := h.between
  exact hplaced.isn

theorem Standing.of_seen (hsub : ∀ i ∈ sn', i ∈ sn) (h : Standing segs isn sn d chunks) :
    Standing segs isn sn' d chunks := by
  obtain ⟨⟨hinv, f, hplaced, hmissing⟩, hwhole⟩ := h
  exact ⟨⟨hinv, f, ⟨hplaced.le, hplaced.isn, hplaced.cursor, hplaced.delivered, hplaced.whole,
    fun i hi => hplaced.buffered i (hsub i hi)⟩, hmissing⟩, hwhole⟩

/-- A side whose ISN has just been learned. -/
theorem standing_learned (hinv : Runs.Inv ⟨d, chunks⟩) (hnone : d.isn = none) (hk : Kept d d')
    (hisn : d'.isn = some isn) : Standing segs isn [] d' chunks := by
  obtain ⟨hnil, -, hdel⟩ := hinv.fresh hnone
  simp only at hnil hdel
  have hbase : d'.baseOffset = 1 := by
    rcases hk.isn with ⟨heq, -⟩ | ⟨-, -, hbase⟩
    · rw [heq, hnone] at hisn
      cases hisn
    · exact hbase
  have hempty : d'.segments.entries = [] := by rw [hk.segments, hnil]
  refine ⟨⟨inv_of_kept hk hinv, 0, ⟨Nat.zero_le _, hisn, hbase, ?_, fun e he => ?_, by simp⟩,
    fun i _ hmem => ?_⟩, by simp [hdel]⟩
  · simp [hdel, contents]
  · rw [hempty] at he
    cases he
  · rw [hempty] at hmem
    cases hmem

theorem Standing.flushed (hne : ∀ s ∈ segs, s ≠ []) {f : Nat} (hinv : Runs.Inv ⟨d, chunks⟩)
    (hplaced : Placed segs isn sn f ⟨d, chunks⟩) (hwhole : ∀ e ∈ chunks, ∃ i, e = seg segs i)
    {flushed : List (Chunk UInt8)} (hfl : Flushed d d' flushed) :
    Standing segs isn sn d' (chunks ++ flushed) := by
  have hflush : Runs.Moved ⟨d, chunks⟩ .flush ⟨d', chunks ++ flushed⟩ := .flushed d' flushed hfl
  refine ⟨⟨hinv.moved hflush, hplaced.flush hne hflush⟩,
    List.forall_mem_append.mpr ⟨hwhole, fun e he => ?_⟩⟩
  exact hplaced.whole e (hfl.entries.mem_iff.mpr (List.mem_append_left _ he))

/-- Closing the flow. -/
theorem Standing.drained (hne : ∀ s ∈ segs, s ≠ []) (h : Standing segs isn sn d chunks)
    {flushed : List (Chunk UInt8)} (hfl : Flushed d d' flushed) :
    Standing segs isn sn d' (chunks ++ flushed) := by
  obtain ⟨⟨hinv, f, hplaced, -⟩, hwhole⟩ := h
  exact Standing.flushed hne hinv hplaced hwhole hfl

/-- One data packet, from its insertion to the flush. -/
theorem Standing.data (hne : ∀ s ∈ segs, s ≠ []) (hlen : segs.flatten.length < 2 ^ 31)
    {lim : Limits} (hroom : Roomy segs lim) (h : Standing segs isn sn d chunks)
    (i : Fin segs.length) {d₁ d₂ d₃ : FlowDirection} {flushed : List (Chunk UInt8)}
    (hst : Stored d d₁
      (insertedPieces d (isn + 1 + UInt32.ofNat (start segs i)) (seg segs i).2 lim))
    (hmark : Marked d₁ d₂) (hfl : Flushed d₂ d₃ flushed) :
    Standing segs isn (sn ++ [i]) d₃ (chunks ++ flushed) := by
  obtain ⟨⟨hinv, f, hplaced, hmissing⟩, hwhole⟩ := h
  have hmoved : Runs.Moved ⟨d, chunks⟩ _ ⟨d₁, chunks⟩ := .stored _ _ lim d₁ hst
  have hplaced₁ := hplaced.insert hne hlen hroom hinv hmissing i hmoved
  have hkept := Kept.of_marked hmark
  exact Standing.flushed hne (inv_of_kept hkept (hinv.moved hmoved))
    (placed_of_kept hkept hplaced₁) hwhole hfl

/-- Whole segments one after the other are those of the stream. -/
theorem data_of_whole (hne : ∀ s ∈ segs, s ≠ []) {f e : Nat} (hf : f ≤ segs.length)
    (hc : ContiguousFrom (1 + start segs f) chunks e)
    (hwhole : ∀ c ∈ chunks, ∃ i, c = seg segs i) :
    chunks.map Prod.snd = (segs.drop f).take chunks.length := by
  induction chunks generalizing f with
  | nil => simp
  | cons c cs ih =>
    obtain ⟨hfirst, hrest⟩ := hc
    obtain ⟨i, rfl⟩ := hwhole c List.mem_cons_self
    obtain rfl : i.val = f := start_injective hne hf (Nat.add_left_cancel hfirst)
    rw [seg_stop] at hrest
    rw [List.drop_eq_getElem_cons i.isLt, List.length_cons, List.take_succ_cons, List.map_cons,
      ih i.isLt hrest fun c hc => hwhole c (List.mem_cons_of_mem _ hc)]
    rfl

theorem Standing.data_eq (hne : ∀ s ∈ segs, s ≠ []) (h : Standing segs isn sn d chunks) :
    chunks.map Prod.snd = segs.take chunks.length := by
  obtain ⟨hinv, -⟩ := h.between
  have hcont := hinv.contiguous (by rw [h.isn_eq]; simp)
  simpa using data_of_whole hne (Nat.zero_le _) hcont h.whole

theorem Standing.complete (hne : ∀ s ∈ segs, s ≠ []) (h : Standing segs isn sn d chunks)
    (hall : ∀ i, i ∈ sn) : chunks.map Prod.snd = segs := by
  have hdata := h.data_eq hne
  have hflat : (segs.take chunks.length).flatten = segs.flatten := by
    rw [← hdata, ← (h.between.complete hall).1, contents, List.flatMap_def]
  have hrest : (segs.drop chunks.length).flatten = [] := by
    have hsplit := congrArg List.flatten (List.take_append_drop chunks.length segs)
    rw [List.flatten_append, hflat] at hsplit
    exact List.append_right_eq_self.mp hsplit
  have hnil : segs.drop chunks.length = [] := by
    refine List.eq_nil_iff_forall_not_mem.mpr fun s hs => hne s (List.mem_of_mem_drop hs) ?_
    exact List.flatten_eq_nil_iff.mp hrest s hs
  rw [hdata, List.take_of_length_le (List.drop_eq_nil_iff.mp hnil)]

end Side

/-! ## The flags -/

section Flags

variable (f : TcpFlow) (p : FlowPacket)

@[simp] theorem isn_setFin (w v : Direction) :
    ((f.setDir v { f.dir v with finSeen := true }).dir w).isn = (f.dir w).isn := by
  by_cases hw : w = v
  · subst hw
    rw [TcpFlow.dir_setDir_self]
  · rw [TcpFlow.dir_setDir_of_ne f hw]

theorem isn_applyFinFlag (src : Endpoint) (tcp : TcpFields) (w : Direction) :
    ((applyFinFlag f src tcp).dir w).isn = (f.dir w).isn := by
  unfold applyFinFlag
  split
  · simp
  · rfl

theorem onFin_ne_new (h : f.state ≠ .new) : f.onFin.state ≠ .new := by
  simp only [TcpFlow.onFin]
  split
  · simp
  · split
    · simp
    · exact h

theorem applyFinFlag_ne_new (src : Endpoint) (tcp : TcpFields) (h : f.state ≠ .new) :
    (applyFinFlag f src tcp).state ≠ .new := by
  unfold applyFinFlag
  split
  · exact onFin_ne_new _ (by simpa using h)
  · exact h

theorem onSyn_ne_new : f.onSyn.state ≠ .new := by
  unfold TcpFlow.onSyn
  split
  · simp
  · assumption

theorem onSynAck_ne_new : f.onSynAck.state ≠ .new := by
  unfold TcpFlow.onSynAck
  split
  · simp
  · rename_i h
    exact fun hnew => h (.inr hnew)

variable {f p}

/-- Without SYN nothing is learned. -/
theorem handshake_of_not_syn (hsyn : p.tcp.syn = false) :
    (handshake f p).initiator = f.initiator ∧
      (∀ w, ((handshake f p).dir w).isn = (f.dir w).isn) ∧
      (f.state ≠ .new → (handshake f p).state ≠ .new) := by
  have hsame : applySynFlags f p.src p.dst p.tcp = f := by
    rcases applySynFlags_cases f p.src p.dst p.tcp with ⟨-, heq⟩ | ⟨hs, -⟩ | ⟨hs, -⟩
    · exact heq
    · rw [hsyn] at hs
      cases hs
    · rw [hsyn] at hs
      cases hs
  refine ⟨?_, fun w => ?_, fun h => ?_⟩
  · rw [handshake_initiator, synInitiator, hsyn]
    simp
  · rw [handshake, isn_applyFinFlag, hsame]
  · rw [handshake, hsame]
    exact applyFinFlag_ne_new f _ _ h

/-- A SYN, seen on side `w`. -/
theorem handshake_of_syn {w : Direction} (hsyn : p.tcp.syn = true)
    (hside : sideOf (handshake f p).initiator p.src = w) :
    (handshake f p).state ≠ .new ∧ ((handshake f p).dir w).isn = (setIsn (f.dir w) p.tcp.seq).isn ∧
      ∀ w', w' ≠ w → ((handshake f p).dir w').isn = (f.dir w').isn := by
  have hlearn : ∀ e, sideOf (f.initiator.or (some e)) p.src = w →
      (f.setInitiator e).direction p.src = w := by
    intro e he
    rw [direction_eq, setInitiator_initiator, he]
  have hdir : ∀ g : TcpFlow, g.direction p.src = w → (∀ v, g.dir v = f.dir v) →
      ((learnIsn g p.src p.tcp.seq).dir w).isn = (setIsn (f.dir w) p.tcp.seq).isn ∧
        ∀ w', w' ≠ w → ((learnIsn g p.src p.tcp.seq).dir w').isn = (f.dir w').isn := by
    intro g hg hsame
    refine ⟨?_, fun w' hw' => ?_⟩
    · rw [learnIsn, hg, TcpFlow.dir_setDir_self, hsame]
    · rw [learnIsn, hg, TcpFlow.dir_setDir_of_ne g hw', hsame]
  rw [handshake_initiator, synInitiator, if_pos hsyn] at hside
  unfold handshake
  simp only [isn_applyFinFlag]
  rcases applySynFlags_cases f p.src p.dst p.tcp with ⟨hs, -⟩ | ⟨-, hack, heq⟩ | ⟨-, hack, heq⟩
  · rw [hsyn] at hs
    cases hs
  · rw [heq]
    rw [hack] at hside
    refine ⟨applyFinFlag_ne_new _ _ _ (onSyn_ne_new _), ?_⟩
    simp only [dir_onSyn]
    exact hdir _ (hlearn _ hside) (dir_setInitiator f _)
  · rw [heq]
    rw [hack] at hside
    refine ⟨applyFinFlag_ne_new _ _ _ (onSynAck_ne_new _), ?_⟩
    simp only [dir_onSynAck]
    exact hdir _ (hlearn _ hside) (dir_setInitiator f _)

end Flags

/-! ## Both sides -/

/-- What a flow knows of a conversation after some of its items. -/
structure Heard (c : Conversation) (items : List Item) (f : TcpFlow)
    (chunks : Direction → List (Chunk UInt8)) : Prop where
  initiator : ∀ e, f.initiator = some e → e = c.client
  known : ∀ w, .opening w ∈ items → f.initiator = some c.client ∧ f.state ≠ .new
  silent : ∀ w, .opening w ∉ items → (f.dir w).isn = none
  side : ∀ w, .opening w ∈ items →
    Standing (c.segs w) (c.isn w) (seen c w items) (f.dir w) (chunks w)

theorem sideOf_sender (c : Conversation) (w : Direction) :
    sideOf (some c.client) (c.sender w) = w := by
  unfold sideOf
  cases w with
  | clientToServer => exact if_pos rfl
  | serverToClient => exact if_neg fun h => c.apart (Option.some.inj h)

section Heard

variable {c : Conversation} {items : List Item} {f f' : TcpFlow} {p : FlowPacket}
  {chunks : Direction → List (Chunk UInt8)}

theorem heard_nil (f : TcpFlow) (hinit : f.initiator = none) (hisn : ∀ w, (f.dir w).isn = none) :
    Heard c [] f chunks := by
  refine ⟨fun e he => ?_, fun w hw => ?_, fun w _ => hisn w, fun w hw => ?_⟩
  · rw [hinit] at he
    cases he
  · cases hw
  · cases hw

theorem mem_snoc_opening {w : Direction} {item : Item} (h : item ≠ .opening w) :
    .opening w ∈ items ++ [item] ↔ .opening w ∈ items := by
  simp [Ne.symm h]

theorem seen_snoc_of_not_data {w : Direction} {item : Item} (h : ∀ i, item ≠ .data w i) :
    ∀ i ∈ seen c w (items ++ [item]), i ∈ seen c w items := by
  intro i hi
  rw [mem_seen, List.mem_append, List.mem_singleton] at hi
  exact mem_seen.mpr (hi.resolve_right (Ne.symm (h i)))

theorem Heard.bare (h : Heard c items f chunks) (hsyn : p.tcp.syn = false) :
    Heard c (items ++ [.bare]) (handshake f p) chunks := by
  obtain ⟨hinit, hisn, hstate⟩ := handshake_of_not_syn (f := f) hsyn
  have hopening : ∀ w, .opening w ∈ items ++ [.bare] ↔ .opening w ∈ items :=
    fun w => mem_snoc_opening (by simp)
  refine ⟨fun e he => h.initiator e (hinit ▸ he), fun w hw => ?_, fun w hw => ?_, fun w hw => ?_⟩
  · obtain ⟨hknown, hnew⟩ := h.known w ((hopening w).mp hw)
    exact ⟨hinit.trans hknown, hstate hnew⟩
  · rw [hisn]
    exact h.silent w fun hmem => hw ((hopening w).mpr hmem)
  · exact ((h.side w ((hopening w).mp hw)).of_kept (kept_handshake f p w)).of_seen
      (seen_snoc_of_not_data (by simp))

/-- The SYN of side `w`. -/
theorem Heard.opening {w : Direction} (h : Heard c items f chunks) (hproper : Proper items)
    (hinv : ∀ w, Runs.Inv ⟨f.dir w, chunks w⟩) (hsrc : p.src = c.sender w)
    (hseq : p.tcp.seq = c.isn w) (hsyn : p.tcp.syn = true)
    (hwho : synInitiator p.src p.dst p.tcp = some c.client) :
    Heard c (items ++ [.opening w]) (handshake f p) chunks := by
  have hinit : (handshake f p).initiator = some c.client := by
    rw [handshake_initiator, hwho]
    cases hf : f.initiator with
    | none => rfl
    | some e => rw [h.initiator e hf]; rfl
  obtain ⟨hstate, hisn, hother⟩ := handshake_of_syn (f := f) (w := w) hsyn
    (by rw [hinit, hsrc, sideOf_sender])
  refine ⟨fun e he => by rw [hinit] at he; exact (Option.some.inj he).symm,
    fun _ _ => ⟨hinit, hstate⟩, fun v hv => ?_, fun v hv => ?_⟩
  · have hne : v ≠ w := fun heq => hv (by simp [heq])
    rw [hother v hne]
    exact h.silent v fun hmem => hv (List.mem_append_left _ hmem)
  · have hkept := kept_handshake f p v
    by_cases hmem : .opening v ∈ items
    · exact ((h.side v hmem).of_kept hkept).of_seen (seen_snoc_of_not_data (by simp))
    · -- the ISN of this side is learned from this packet
      obtain rfl : v = w := by simpa [hmem] using hv
      have hnone := h.silent v hmem
      have hlearned : ((handshake f p).dir v).isn = some (c.isn v) := by
        rw [hisn, Segment.setIsn, if_pos (Option.isNone_iff_eq_none.mpr hnone), hseq]
      refine (standing_learned (hinv v) hnone hkept hlearned).of_seen fun i hi => ?_
      have hdata := mem_seen.mp (seen_snoc_of_not_data (by simp) i hi)
      exact absurd (hproper.opened hdata) hmem

/-- A segment of side `w`. -/
theorem Heard.data {w dir : Direction} {lim : Limits} (hroom : Roomy (c.segs w) lim)
    (h : Heard c items f chunks) (hopen : .opening w ∈ items) (i : Fin (c.segs w).length)
    (hsrc : p.src = c.sender w) (hsyn : p.tcp.syn = false)
    (hseq : p.tcp.seq = c.isn w + 1 + UInt32.ofNat (start (c.segs w) i))
    (hload : p.payload = (c.segs w)[i]) {flushed : List (Chunk UInt8)}
    (hacc : Accepts lim f p f' dir flushed) :
    Heard c (items ++ [.data w i]) f' (fun v => chunks v ++ if v = dir then flushed else []) := by
  obtain ⟨hinit, hisn, hstate⟩ := handshake_of_not_syn (f := f) hsyn
  obtain ⟨hclient, hnew⟩ := h.known w hopen
  have hopening : ∀ v, .opening v ∈ items ++ [.data w i] ↔ .opening v ∈ items :=
    fun v => mem_snoc_opening (by simp)
  have hstanding := (h.side w hopen).of_kept (kept_handshake f p w)
  cases hacc with
  | bare _ hnil => exact absurd (hload.symm.trans hnil) (c.nonempty w _ (List.getElem_mem _))
  | data f₂ _ joined d₁ d₂ d₃ _ hne hjoin hst hmark hfl =>
    -- the flow has been joined before, and knows the ISN
    have hside : (handshake f p).direction p.src = w := by
      rw [direction_eq, hinit, hclient, hsrc, sideOf_sender]
    have hjoined : Moves.joined (handshake f p) p.src = handshake f p :=
      if_neg (hstate hnew)
    rw [joinFlow_eq, hjoined, learnIsn_of_known _ (by rw [hside, hstanding.isn_eq]; rfl), hside]
      at hjoin
    obtain ⟨rfl, hdir⟩ := Prod.mk.inj hjoin
    obtain ⟨rfl, -⟩ := Prod.mk.inj hdir
    have hkept : ∀ v, v ≠ w → ((handshake f p).setDir w d₃).dir v = (handshake f p).dir v :=
      fun v hv => TcpFlow.dir_setDir_of_ne _ hv d₃
    have hdata := hstanding.data (c.nonempty w) (c.short w) hroom i
      (by rw [← hseq, show (seg (c.segs w) i).2 = p.payload from hload.symm]; exact hst) hmark hfl
    refine ⟨fun e he => h.initiator e ?_, fun v hv => ⟨?_, ?_⟩, fun v hv => ?_, fun v hv => ?_⟩
    · rw [← hinit, ← he, setDir_initiator]
    · rw [setDir_initiator, hinit, hclient]
    · rw [setDir_state]
      exact hstate hnew
    · have hsilent : .opening v ∉ items := fun hmem => hv ((hopening v).mpr hmem)
      have hv : v ≠ w := fun heq => hsilent (heq ▸ hopen)
      rw [hkept v hv, hisn]
      exact h.silent v hsilent
    · by_cases hvw : v = w
      · subst hvw
        rw [TcpFlow.dir_setDir_self, if_pos rfl]
        refine hdata.of_seen fun j hj => ?_
        rw [mem_seen, List.mem_append, List.mem_singleton] at hj
        rw [List.mem_append, List.mem_singleton, mem_seen]
        refine hj.imp id fun heq => ?_
        exact Fin.ext (Item.data.inj heq).2
      · rw [hkept v hvw, if_neg hvw, List.append_nil]
        refine ((h.side v ((hopening v).mp hv)).of_kept (kept_handshake f p v)).of_seen
          (seen_snoc_of_not_data fun j heq => hvw ?_)
        exact (Item.data.inj heq).1.symm

/-- One packet that is no reset. -/
theorem Heard.accepts {dir : Direction} {item : Item} {lim : Limits}
    (hroom : ∀ w, Roomy (c.segs w) lim) (h : Heard c items f chunks)
    (hinv : ∀ w, Runs.Inv ⟨f.dir w, chunks w⟩) (hproper : Proper (items ++ [item]))
    (hitem : c.Carries item p) (hrst : p.tcp.rst = false) {flushed : List (Chunk UInt8)}
    (hacc : Accepts lim f p f' dir flushed) :
    Heard c (items ++ [item]) f' (fun v => chunks v ++ if v = dir then flushed else []) := by
  have hbare : p.payload = [] → f' = handshake f p ∧ flushed = [] := by
    intro hnil
    cases hacc with
    | bare => exact ⟨rfl, rfl⟩
    | data _ _ _ _ _ _ _ hne => exact absurd hnil hne
  have hnone : ∀ {g : TcpFlow}, Heard c (items ++ [item]) g chunks →
      Heard c (items ++ [item]) g fun v => chunks v ++ if v = dir then [] else [] := by
    intro g hg
    simpa using hg
  cases hitem with
  | syn _ hsrc hseq hsyn hack _ hnil =>
    obtain ⟨rfl, rfl⟩ := hbare hnil
    refine hnone (h.opening hproper.init hinv hsrc hseq hsyn ?_)
    rw [synInitiator, if_pos hsyn, hack, hsrc]
    rfl
  | synAck _ hsrc hdst hseq hsyn hack _ hnil =>
    obtain ⟨rfl, rfl⟩ := hbare hnil
    refine hnone (h.opening hproper.init hinv hsrc hseq hsyn ?_)
    rw [synInitiator, if_pos hsyn, hack, hdst]
    rfl
  | data w i _ hsrc hseq hsyn _ hload =>
    exact h.data (hroom w) hproper.last i hsrc hsyn hseq hload hacc
  | bare _ hsyn _ hnil =>
    obtain ⟨rfl, rfl⟩ := hbare hnil
    exact hnone (h.bare hsyn)
  | reset _ hset =>
    rw [hrst] at hset
    cases hset

end Heard

/-! ## Lifetimes -/

/-- In either direction a call for each of the first segments of the stream, and for all of them
if they are all there. -/
def Received (c : Conversation) (items : List Item) (body : List Event) : Prop :=
  ∀ w, (∃ n, (chunksIn w (deliveries body)).map Prod.snd = (c.segs w).take n) ∧
    ((∀ i < (c.segs w).length, .data w i ∈ items) →
      (chunksIn w (deliveries body)).map Prod.snd = c.segs w)

/-- What one side has received, once its ISN is known. -/
theorem received_side {c : Conversation} {w : Direction} {items : List Item} {d : FlowDirection}
    {chunks : List (Chunk UInt8)}
    (h : Standing (c.segs w) (c.isn w) (seen c w items) d chunks) :
    (∃ n, chunks.map Prod.snd = (c.segs w).take n) ∧
      ((∀ i < (c.segs w).length, .data w i ∈ items) → chunks.map Prod.snd = c.segs w) :=
  ⟨⟨_, h.data_eq (c.nonempty w)⟩, fun hall =>
    h.complete (c.nonempty w) fun i => mem_seen.mpr (hall i i.isLt)⟩

/-- Nothing has been received on a side that never opened. -/
theorem received_silent {c : Conversation} {w : Direction} {items : List Item}
    (hproper : Proper items) (hsilent : .opening w ∉ items) {chunks : List (Chunk UInt8)}
    (hnil : chunks = []) :
    (∃ n, chunks.map Prod.snd = (c.segs w).take n) ∧
      ((∀ i < (c.segs w).length, .data w i ∈ items) → chunks.map Prod.snd = c.segs w) := by
  subst hnil
  refine ⟨⟨0, rfl⟩, fun hall => ?_⟩
  have hempty : c.segs w = [] := by
    by_contra hne
    exact hsilent (hproper.opened (hall 0 (List.length_pos_iff.mpr hne)))
  rw [hempty]
  rfl

/-- An open flow in a conversation. -/
def Open (c : Conversation) (f : TcpFlow) (body : List Event) : Prop :=
  Streams f body ∧ ∀ items, Tells c items body →
    Heard c items f fun w => chunksIn w (deliveries body)

theorem Open.received {c : Conversation} {f : TcpFlow} {body : List Event} (h : Open c f body)
    {items : List Item} (htells : Tells c items body) : Received c items body := by
  intro w
  have hheard := h.2 items htells
  by_cases hopen : .opening w ∈ items
  · exact received_side (hheard.side w hopen)
  · exact received_silent htells.2 hopen ((h.1 w).fresh (hheard.silent w hopen)).2.2

theorem drained_side {g : TcpFlow} {client server : List (Chunk UInt8)}
    (hdrain : Drains g client server) (k : FlowKey) (w : Direction) :
    ∃ d', Flushed (g.dir w) d' (chunksIn w (deliveries (drainEvents k g client server))) := by
  rw [chunksIn_drainEvents]
  cases w with
  | clientToServer => exact hdrain.client
  | serverToClient => exact hdrain.server

/-- Closing the flow makes no difference to what has been received. -/
theorem Open.drained {c : Conversation} {f g : TcpFlow} {body : List Event} (h : Open c f body)
    (hkept : ∀ w, Kept (f.dir w) (g.dir w)) {client server : List (Chunk UInt8)}
    (hdrain : Drains g client server) {items : List Item} (htells : Tells c items body)
    (k : FlowKey) (items' : List Item) (hmore : ∀ w i, .data w i ∈ items' → .data w i ∈ items)
    {middle : List Event} (hmiddle : deliveries middle = []) :
    Received c items' (body ++ middle ++ drainEvents k g client server) := by
  intro w
  have hheard := h.2 items htells
  rw [deliveries_append, deliveries_append, hmiddle, List.append_nil, chunksIn_append]
  obtain ⟨d', hfl⟩ := drained_side hdrain k w
  have hall : (∀ i < (c.segs w).length, .data w i ∈ items') →
      ∀ i < (c.segs w).length, .data w i ∈ items := fun hall i hi => hmore w i (hall i hi)
  by_cases hopen : .opening w ∈ items
  · have hstanding := ((hheard.side w hopen).of_kept (hkept w)).drained (c.nonempty w) hfl
    exact (received_side hstanding).imp id fun hrec hall' => hrec (hall hall')
  · -- nothing has ever been buffered
    obtain ⟨hnil, -, hdel⟩ := (h.1 w).fresh (hheard.silent w hopen)
    simp only at hnil hdel
    have hperm := hfl.entries
    rw [(hkept w).segments, hnil] at hperm
    obtain ⟨hchunks', -⟩ := List.append_eq_nil_iff.mp hperm.symm.eq_nil
    refine (received_silent htells.2 hopen ?_).imp id fun hrec hall' => hrec (hall hall')
    rw [hdel, hchunks', List.append_nil]

theorem open_rules (c : Conversation) {lim : Limits} (hroom : ∀ w, Roomy (c.segs w) lim)
    (k : FlowKey) :
    RulesUnder k (Open c) (fun l => ∀ items, Tells c items l.body → Received c items l.body)
      lim where
  created := fun timestamp index => by
    refine ⟨(streams_rules k).created timestamp index, fun items htells => ?_⟩
    obtain ⟨hcarries, -⟩ := htells
    cases hcarries
    exact heard_nil _ rfl fun w => by cases w <;> rfl
  touched := fun f body timestamp index h =>
    ⟨(streams_rules k).touched f body timestamp index h.1, fun items htells => by
      have hheard := h.2 items htells
      have hdir : ∀ w, ({ f with lastSeen := timestamp, lastActivityIndex := index } : TcpFlow).dir
          w = f.dir w := fun w => by cases w <;> rfl
      exact ⟨hheard.initiator, hheard.known, fun w hw => by rw [hdir]; exact hheard.silent w hw,
        fun w hw => by rw [hdir]; exact hheard.side w hw⟩⟩
  packet := fun f f' p dir chunks timestamp body _ _ hrst hacc h => by
    have hdata := isPacket_dataEvents k dir timestamp chunks
    refine ⟨h.1.accepts hacc k timestamp, fun items htells => ?_⟩
    obtain ⟨items', item, rfl, htells', hitem, hproper⟩ := htells.snoc hdata
    have hheard := (h.2 items' htells').accepts hroom h.1 hproper hitem hrst hacc
    simpa only [deliveries_append, deliveries_packet, chunksIn_append, chunksIn_dataEvents]
      using hheard
  reset := fun f p client server body _ _ hrst hdrain h items htells => by
    obtain ⟨items', item, rfl, htells', hitem, -⟩ :=
      htells.snoc (isPacket_drainEvents k (resetFlow f p) client server)
    have hquiet : deliveries [p.event] = [] := rfl
    have hdrained := h.drained (kept_resetFlow f p) hdrain htells' k (items' ++ [item])
      (fun w i hmem => ?_) hquiet
    · simpa using hdrained
    · cases hitem with
      | reset => simpa using hmem
      | syn _ _ _ _ _ hrst' => rw [hrst] at hrst'; cases hrst'
      | synAck _ _ _ _ _ _ hrst' => rw [hrst] at hrst'; cases hrst'
      | data _ _ _ _ _ _ hrst' => rw [hrst] at hrst'; cases hrst'
      | bare _ _ hrst' => rw [hrst] at hrst'; cases hrst'
  retired := fun f reason client server body _ hdrain h items htells => by
    have htells' := htells.of_not_packet (isPacket_drainEvents k f client server)
    have hquiet : deliveries [] = [] := rfl
    have hdrained := h.drained (fun w => Kept.refl _) hdrain htells' k items (fun _ _ => id) hquiet
    simpa using hdrained

/-! ## Runs -/

/-- The packet of a call, as its flow sees it. -/
def packetOf : Call → Option FlowPacket
  | .packet packet _ => (tcpContext packet).map fun ctx => flowPacket packet ctx.2
  | .expire _ => none

/-- The packets of a key in a capture. -/
def packetsFor (k : FlowKey) (calls : List Call) : List FlowPacket :=
  (calls.filterMap packetOf).filter fun p => p.key = k

theorem packetsIn_about_event (k : FlowKey) (p : FlowPacket) :
    packetsIn (about k [p.event]) = [p].filter fun p => p.key = k := by
  by_cases h : p.key = k
  · rw [about_of_key (by simpa [FlowPacket.event, eventKey] using h)]
    simp [packetsIn, packet?, FlowPacket.event, h]
  · rw [about_other (by simpa [FlowPacket.event, eventKey] using h)]
    simp [packetsIn, h]

theorem packetsIn_about_quiet (k : FlowKey) {new : List Event}
    (h : ∀ e ∈ new, isArrival e = false) : packetsIn (about k new) = [] :=
  packetsIn_of_none_arrived fun e he => h e (List.mem_of_mem_filter he)

/-- A call adds its packet, and no other. -/
theorem step_packets {ord : IterOrder} {s s' : TcpReassembler} (hr : Ready (view s)) {call : Call}
    (h : step ord s call = .ok s') (k : FlowKey) :
    packetsIn (about k s'.events) =
      packetsIn (about k s.events) ++ packetsFor k [call] := by
  have hdismissed : ∀ {t t' : TcpReassembler} {new : List Event}, Dismissed t t' new →
      packetsIn (about k t'.events) = packetsIn (about k t.events) := by
    intro t t' new hdis
    rw [hdis.events, about_append, packetsIn_append, packetsIn_about_quiet k hdis.noneArrived,
      List.append_nil]
  cases call with
  | expire currentTime =>
    have hsweep : expireFlows ord s currentTime = .ok s' := h
    unfold expireFlows at hsweep
    obtain ⟨new, hdis⟩ := expireWhere_dismisses hsweep
    rw [hdismissed hdis]
    exact (List.append_nil _).symm
  | packet packet timestamp =>
    rcases processPacket_eq_ok hr h with ⟨hctx, -, new, hdis, -⟩ |
      ⟨key, tcp, s₁, s₂, s₃, f, out, swept, evicted, hctx, hh, -⟩
    · rw [hdismissed hdis]
      simp [packetsFor, packetOf, hctx]
    · have hgreets : packetsIn (about k s₂.events) = packetsIn (about k s₁.events) := by
        cases hh.greets with
        | created index hnone hflows hevents =>
          have hcreated : packetsIn (about k [.flowCreated key]) = [] :=
            packetsIn_about_quiet k (by simp [isArrival])
          rw [hevents, about_append, packetsIn_append, hcreated, List.append_nil]
        | known g index hg hflows hevents => rw [hevents]
      have hacts : s₃.events = s₂.events ++ ([(flowPacket packet tcp).event] ++ out.calls) :=
        hh.acts.events
      rw [hdismissed hh.after, hacts, about_append, about_append, packetsIn_append,
        packetsIn_append, packetsIn_about_event,
        packetsIn_about_quiet k (isArrival_packetAlone hh.alone), List.append_nil, hgreets,
        hdismissed hh.before]
      simp [packetsFor, packetOf, hctx]

theorem packetsFor_snoc (k : FlowKey) (calls : List Call) (call : Call) :
    packetsFor k (calls ++ [call]) = packetsFor k calls ++ packetsFor k [call] := by
  simp [packetsFor, List.filterMap_append]

/-- The flows of a key see the packets of the capture that have this key, in order. -/
theorem run_packets (ord : IterOrder) {config : ReassemblyConfig} {s₀ : TcpReassembler}
    (hnew : TcpReassembler.new config = .ok s₀) (calls : List Call) (k : FlowKey) :
    ReturnsIf (Lasting config calls) (run (step ord) s₀ calls) (fun s =>
      packetsIn (about k s.events) = packetsFor k calls) := by
  refine (run_calls ord hnew (I := fun pre s => packetsIn (about k s.events) = packetsFor k pre)
    ?_ ?_ calls).mono fun s hs => hs.2
  · obtain ⟨-, hview⟩ := new_eq_ok hnew
    rw [show s₀.events = [] from congrArg View.events hview]
    rfl
  · intro pre call s s' hr _ hpackets hs'
    rw [step_packets hr hs' k, hpackets, packetsFor_snoc]

theorem run_conversation (ord : IterOrder) (config : ReassemblyConfig) (s₀ : TcpReassembler)
    (hnew : TcpReassembler.new config = .ok s₀) (c : Conversation)
    (hroom : ∀ w, Roomy (c.segs w) config.limits) (calls : List Call) :
    ReturnsIf (Lasting config calls) (run (step ord) s₀ calls) (fun s => ∃ past current,
      Splits c.key s.events past current ∧
      (∀ l ∈ past, ∀ items, Tells c items l.body → Received c items l.body) ∧
      ∀ body, current = some body → ∀ items, Tells c items body → Received c items body) := by
  refine (run_told_under ord (open_rules c hroom) hnew calls).mono fun s hs => ?_
  obtain ⟨past, current, hsplit, hdone, hrel⟩ := hs.2.2 c.key
  refine ⟨past, current, hsplit, hdone, ?_⟩
  rintro body rfl items htells
  cases hflow : (view s).flows.get? c.key with
  | none =>
    rw [hflow] at hrel
    cases hrel
  | some f =>
    rw [hflow] at hrel
    cases hrel with
    | some hopen => exact hopen.received htells

/-- A key whose flow is never closed has one lifetime. -/
theorem received_of_open {c : Conversation} {k : FlowKey} {events : List Event}
    {past : List Lifetime} {current : Option (List Event)} {items : List Item}
    (hsplit : Splits k events past current)
    (hcurrent : ∀ body, current = some body → Tells c items body → Received c items body)
    (hopen : ∀ reason, .onFlowClose k reason ∉ events) (htells : Tells c items (about k events)) :
    Received c items (about k events) := by
  have hpast : past = [] := by
    refine List.eq_nil_iff_forall_not_mem.mpr fun l hl => hopen l.reason ?_
    have hmem : .onFlowClose k l.reason ∈ about k events := by
      rw [hsplit.eq]
      refine List.mem_append_left _ (List.mem_flatMap.mpr ⟨l, hl, ?_⟩)
      simp [Lifetime.events]
    exact List.mem_of_mem_filter hmem
  have habout : about k events = openEvents k current := by
    rw [hsplit.eq, hpast]
    rfl
  rw [habout] at htells ⊢
  cases current with
  | none =>
    intro w
    have hnil : items = [] := by
      obtain ⟨hcarries, -⟩ := htells
      cases hcarries
      rfl
    exact received_silent htells.2 (by simp [hnil]) rfl
  | some body => exact hcurrent body rfl htells

/-- The connection of `c` is all there is of its key, in a capture in which the flow is not
closed: both streams are handed out as they were sent. -/
theorem capture_conversation (ord : IterOrder) (config : ReassemblyConfig) (s₀ : TcpReassembler)
    (hnew : TcpReassembler.new config = .ok s₀) (c : Conversation)
    (hroom : ∀ w, Roomy (c.segs w) config.limits) (calls : List Call) (items : List Item)
    (hitems : List.Forall₂ c.Carries items (packetsFor c.key calls)) (hproper : Proper items)
    (hall : ∀ w, ∀ i < (c.segs w).length, .data w i ∈ items) :
    ReturnsIf (Lasting config calls) (run (step ord) s₀ calls) (fun s =>
      (∀ reason, .onFlowClose c.key reason ∉ s.events) →
      ∀ w, (chunksIn w (deliveries (about c.key s.events))).map Prod.snd = c.segs w) := by
  refine ((run_conversation ord config s₀ hnew c hroom calls).and
    (run_packets ord hnew calls c.key)).mono fun s hs hopen w => ?_
  obtain ⟨⟨past, current, hsplit, -, hcurrent⟩, hpackets⟩ := hs
  rw [← hpackets] at hitems
  have hreceived := received_of_open hsplit (fun body hbody => hcurrent body hbody items) hopen
    ⟨hitems, hproper⟩
  exact (hreceived w).2 (hall w)

/-! ## A short connection -/

/-- Three bytes from the client and one from the server. -/
def exchange : Conversation where
  sender := fun
    | .clientToServer => left
    | .serverToClient => right
  isn := fun
    | .clientToServer => 7
    | .serverToClient => 4294967295
  segs := fun
    | .clientToServer => [[1, 2], [3]]
    | .serverToClient => [[4]]
  apart := by decide
  nonempty := fun w => by cases w <;> decide
  short := fun w => by cases w <;> decide

/-- The client's second segment comes first, and its first one twice. -/
def exchangeCalls : List Call :=
  [.segment left right 7 true false false [], .segment right left 4294967295 true true false [],
    .segment left right 10 false true false [3], .segment right left 0 false true true [4],
    .segment left right 8 false true false [1, 2], .segment left right 8 false true false [1, 2]]

def exchangeItems : List Item :=
  [.opening .clientToServer, .opening .serverToClient, .data .clientToServer 1,
    .data .serverToClient 0, .data .clientToServer 0, .data .clientToServer 0]

theorem exchange_roomy (w : Direction) : Roomy (exchange.segs w) ReassemblyConfig.default.limits := by
  cases w with
  | clientToServer => exact ⟨by decide, by decide, by decide⟩
  | serverToClient => exact ⟨by decide, by decide, by decide⟩

theorem run_conversation_exchange : ∃ s₀, TcpReassembler.new .default = .ok s₀ ∧
    Returns (run (step keyOrder) s₀ exchangeCalls) (fun s => ∃ past current,
      Splits exchange.key s.events past current ∧
      (∀ l ∈ past, ∀ items, Tells exchange items l.body → Received exchange items l.body) ∧
      ∀ body, current = some body → ∀ items, Tells exchange items body →
        Received exchange items body) :=
  ⟨_, rfl, (run_conversation keyOrder .default _ rfl exchange exchange_roomy
    exchangeCalls).returns (by decide)⟩

theorem exchangeItems_proper : Proper exchangeItems := by
  have hopened : ∀ w, .opening w ∈ exchangeItems.take 2 := fun w => by cases w <;> decide
  have hnone : ∀ w i, .data w i ∉ exchangeItems.take 2 := by simp [exchangeItems]
  exact Proper.of_opened (exchangeItems.drop 2) hopened hnone

theorem exchange_carries :
    List.Forall₂ exchange.Carries exchangeItems (packetsFor exchange.key exchangeCalls) := by
  refine .cons (.syn _ rfl rfl rfl rfl rfl rfl) (.cons (.synAck _ rfl rfl rfl rfl rfl rfl rfl) ?_)
  refine .cons (.data .clientToServer ⟨1, by decide⟩ _ rfl rfl rfl rfl rfl) ?_
  refine .cons (.data .serverToClient ⟨0, by decide⟩ _ rfl rfl rfl rfl rfl) ?_
  refine .cons (.data .clientToServer ⟨0, by decide⟩ _ rfl rfl rfl rfl rfl) ?_
  exact .cons (.data .clientToServer ⟨0, by decide⟩ _ rfl rfl rfl rfl rfl) .nil

end Wirerust.Conversations
