import Wirerust.Lib.Lexing
import Wirerust.Lib.Transducer
import Wirerust.Analyzer.S7comm

/-!
S7comm streams and the calls they come in.

The walk of `on_data` and its inner resynchronization read pieces off the front of the buffer: a
byte at which no TPKT header stands, or a whole frame. More bytes never change a piece, so a call
is a function of the flow and its bytes (`onData_eq`) and a delivery cut in two does what the whole
one does (`effect_append`). From this every reachable state is indifferent to the cut
(`run_segments`).
-/

namespace Wirerust.S7comm

open Lib Wirerust.Flow Wirerust.Analyzer

/-! ## Pieces -/

inductive Piece
  | skip
  | frame (bytes : List UInt8)
  deriving DecidableEq, Repr

def pieceOf (buf : List UInt8) : Option (Piece × Nat) :=
  if buf.length < 4 then none
  else
    match parseTpktHeader buf with
    | none => some (.skip, 1)
    | some header =>
      if buf.length ≥ header.length.toNat then
        some (.frame (buf.take header.length.toNat), header.length.toNat)
      else none

theorem parseTpktHeader_length {buf : List UInt8} {header : TpktHeader}
    (h : parseTpktHeader buf = some header) : 7 ≤ header.length.toNat := by
  unfold parseTpktHeader at h
  split at h
  · cases h
  · split at h
    · cases h
    · simp only at h
      split at h
      · cases h
      · rename_i hmin
        cases h
        exact UInt16.le_iff_toNat_le.mp (UInt16.not_lt.mp hmin)

/-- A header is four bytes. -/
theorem parseTpktHeader_append {xs : List UInt8} (h : 4 ≤ xs.length) (ys : List UInt8) :
    parseTpktHeader (xs ++ ys) = parseTpktHeader xs := by
  have hbyte : ∀ i, i < 4 → byteAt (xs ++ ys) i = byteAt xs i := by
    intro i hi
    exact byteAt_append (Nat.lt_of_lt_of_le hi h) ys
  unfold parseTpktHeader
  rw [if_neg (by rw [List.length_append]; omega), if_neg (Nat.not_lt_of_le h), hbyte 0 (by decide),
    hbyte 2 (by decide), hbyte 3 (by decide)]

theorem pieceOf_bounds {buf : List UInt8} {piece : Piece} {n : Nat}
    (h : pieceOf buf = some (piece, n)) : 0 < n ∧ n ≤ buf.length := by
  unfold pieceOf at h
  split at h
  · cases h
  · rename_i hlen
    split at h
    · cases h
      exact ⟨by decide, by omega⟩
    · rename_i header hheader
      have hmin := parseTpktHeader_length hheader
      split at h
      · rename_i hfull
        cases h
        exact ⟨by omega, hfull⟩
      · cases h

def pieceLexer : Lexer UInt8 Piece := ⟨pieceOf, pieceOf_bounds⟩

theorem pieceLexer_stable : pieceLexer.Stable := by
  rintro xs ys ⟨piece, n⟩ h
  show pieceOf (xs ++ ys) = some (piece, n)
  replace h : pieceOf xs = some (piece, n) := h
  unfold pieceOf at h ⊢
  split at h
  · cases h
  · rename_i hlen
    rw [if_neg (by rw [List.length_append]; omega), parseTpktHeader_append (by omega)]
    cases hheader : parseTpktHeader xs with
    | none =>
      simp only [hheader] at h ⊢
      exact h
    | some header =>
      simp only [hheader] at h ⊢
      split at h
      · rename_i hfull
        rw [if_pos (by rw [List.length_append]; omega), List.take_append_of_le_length hfull]
        exact h
      · cases h

/-! ## What a piece does -/

/-- What no frame changes. -/
structure Keeps (flow flow' : S7commFlowState) : Prop where
  carry : flow'.carry = flow.carry
  overflow : flow'.carryOverflowReported = flow.carryOverflowReported

theorem Keeps.refl (flow : S7commFlowState) : Keeps flow flow := ⟨rfl, rfl⟩

theorem Keeps.trans {flow flow' flow'' : S7commFlowState} (h : Keeps flow flow')
    (h' : Keeps flow' flow'') : Keeps flow flow'' :=
  ⟨h'.carry.trans h.carry, h'.overflow.trans h.overflow⟩

theorem reportMalformedHeader_keeps (c : Delivery) (flow : S7commFlowState) (reason : String) :
    Keeps flow (reportMalformedHeader c flow reason).1 := by
  unfold reportMalformedHeader
  split
  · exact .refl _
  · cases c.direction with
    | clientToServer => exact ⟨rfl, rfl⟩
    | serverToClient => exact ⟨rfl, rfl⟩

theorem classifyFirstDtFrame_keeps (flow : S7commFlowState) (protocolId : Option UInt8) :
    Keeps flow (classifyFirstDtFrame flow protocolId) := by
  cases protocolId with
  | none => exact .refl _
  | some byte =>
    unfold classifyFirstDtFrame
    simp only
    split
    · exact .refl _
    · exact ⟨rfl, rfl⟩

theorem dispatchClassicS7comm_returns (c : Delivery) (flow : S7commFlowState)
    {payload : List UInt8} (h : payload.head? = some 0x32) :
    Returns (dispatchClassicS7comm c flow payload) (fun e => Keeps flow e.1) := by
  unfold dispatchClassicS7comm
  rw [assertThat_of h, ok_bind]
  split
  · exact .pure (reportMalformedHeader_keeps c flow _)
  · split
    · exact .pure (.refl _)
    · exact .pure (reportMalformedHeader_keeps c flow _)

/-- A protocol byte is the first byte of the payload. -/
theorem parseCotpHeader_protocolId {tpktPayload : List UInt8} {header : CotpHeader} {b : UInt8}
    (h : parseCotpHeader tpktPayload = some header) (hid : header.protocolId = some b) :
    header.payloadOffset ≤ tpktPayload.length ∧
      (tpktPayload.drop header.payloadOffset).head? = some b := by
  unfold parseCotpHeader at h
  split at h
  · cases h
  · simp only at h
    split at h
    · cases h
    · rename_i hli
      split at h
      · cases h
        cases hid
      · split at h
        · cases h
          cases hid
        · split at h
          · cases h
            simp only at hid ⊢
            split at hid
            · rename_i hmore
              cases hid
              refine ⟨Nat.le_of_not_lt hli, ?_⟩
              rw [List.head?_drop, getElem?_eq_byteAt hmore]
            · cases hid
          · cases h

theorem dispatchCotpFrame_returns (c : Delivery) (flow : S7commFlowState)
    (tpktPayload : List UInt8) :
    Returns (dispatchCotpFrame c flow (parseCotpHeader tpktPayload) tpktPayload)
      (fun e => Keeps flow e.1) := by
  unfold dispatchCotpFrame
  cases hheader : parseCotpHeader tpktPayload with
  | none => exact .pure (.refl _)
  | some header =>
    simp only
    cases hkind : header.tpduType with
    | connectRequest => exact .pure ⟨rfl, rfl⟩
    | connectConfirm =>
      simp only
      split
      · exact .pure (.refl _)
      · split
        · exact .pure ⟨rfl, rfl⟩
        · exact .pure (.refl _)
    | dataTransfer =>
      have hclass := classifyFirstDtFrame_keeps flow header.protocolId
      simp only
      split
      · rename_i hid
        obtain ⟨hoffset, hfirst⟩ := parseCotpHeader_protocolId hheader hid
        split
        · have hslice : slice tpktPayload header.payloadOffset tpktPayload.length =
              .ok (tpktPayload.drop header.payloadOffset) := by
            unfold slice
            rw [if_pos ⟨hoffset, Nat.le_refl _⟩, List.take_length]
          rw [hslice, ok_bind]
          exact (dispatchClassicS7comm_returns c _ hfirst).mono fun e h => hclass.trans h
        · exact .pure hclass
      · exact .pure hclass

def frameEffect (c : Delivery) (flow : S7commFlowState) (tpktPayload : List UInt8) :
    Effect S7commFlowState Finding :=
  valueOr (flow, []) (dispatchCotpFrame c flow (parseCotpHeader tpktPayload) tpktPayload)

theorem dispatchCotpFrame_eq (c : Delivery) (flow : S7commFlowState) (tpktPayload : List UInt8) :
    dispatchCotpFrame c flow (parseCotpHeader tpktPayload) tpktPayload =
        .ok (frameEffect c flow tpktPayload) ∧ Keeps flow (frameEffect c flow tpktPayload).1 :=
  (dispatchCotpFrame_returns c flow tpktPayload).eq_valueOr (flow, [])

def pieceEffect (c : Delivery) (flow : S7commFlowState) : Piece → Effect S7commFlowState Finding
  | .skip => (flow, [])
  | .frame bytes => frameEffect c flow (bytes.drop 4)

def raises (c : Delivery) (flow : S7commFlowState) (ps : List Piece) :
    Effect S7commFlowState Finding := emits (pieceEffect c) flow ps

theorem raises_skip (c : Delivery) (flow : S7commFlowState) (ps : List Piece) :
    raises c flow (.skip :: ps) = raises c flow ps := by
  rw [raises, emits_cons, pieceEffect, Effect.andThen, List.nil_append]
  rfl

theorem raises_keeps (c : Delivery) (flow : S7commFlowState) (ps : List Piece) :
    Keeps flow (raises c flow ps).1 := by
  refine emits_keeps (I := Keeps flow) (fun mid piece h => h.trans ?_) ps (.refl _)
  cases piece with
  | skip => exact .refl _
  | frame bytes => exact (dispatchCotpFrame_eq c mid (bytes.drop 4)).2

/-! ## The walk -/

/-- What the inner loop does with the bytes it passes: nothing. -/
theorem resyncOneByte_reads (c : Delivery) (flow : S7commFlowState) (buf : List UInt8) :
    raises c flow (pieceLexer.lex buf).1 =
        raises c flow (pieceLexer.lex (resyncOneByte buf)).1 ∧
      (pieceLexer.lex buf).2 = (pieceLexer.lex (resyncOneByte buf)).2 := by
  induction buf with
  | nil => exact ⟨rfl, rfl⟩
  | cons b rest ih =>
    unfold resyncOneByte
    split
    · rename_i hnone
      have hpiece : pieceLexer.head (b :: rest) = some (.skip, 1) := by
        show pieceOf (b :: rest) = _
        rw [pieceOf, if_neg (Nat.not_lt_of_le hnone.1), hnone.2]
      rw [pieceLexer.lex_of_some hpiece, raises_skip]
      exact ih
    · exact ⟨rfl, rfl⟩

theorem length_resyncOneByte (buf : List UInt8) : (resyncOneByte buf).length ≤ buf.length := by
  induction buf with
  | nil => exact Nat.le_refl _
  | cons b rest ih =>
    unfold resyncOneByte
    split
    · exact Nat.le_succ_of_le ih
    · exact Nat.le_refl _

/-- Where no header stands, the inner loop takes a byte. -/
theorem length_resyncOneByte_lt {buf : List UInt8} (hlen : 4 ≤ buf.length)
    (hnone : parseTpktHeader buf = none) : (resyncOneByte buf).length < buf.length := by
  cases buf with
  | nil => exact absurd hlen (by decide)
  | cons b rest =>
    rw [resyncOneByte, if_pos ⟨hlen, hnone⟩]
    exact Nat.lt_succ_of_le (length_resyncOneByte rest)

theorem walk_eq (c : Delivery) (turns : Nat) (flow : S7commFlowState) (findings : List Finding)
    (buf : List UInt8) (hturns : buf.length ≤ turns) :
    walk c turns flow findings buf = .ok ⟨(raises c flow (pieceLexer.lex buf).1).1,
      findings ++ (raises c flow (pieceLexer.lex buf).1).2, (pieceLexer.lex buf).2⟩ := by
  induction turns generalizing flow findings buf with
  | zero =>
    obtain rfl : buf = [] := List.length_eq_zero_iff.mp (Nat.le_zero.mp hturns)
    rw [pieceLexer.lex_of_none rfl, walk, raises, emits_nil, List.append_nil]
  | succ turns ih =>
    have hstop : pieceOf buf = none → Except.ok ⟨flow, findings, buf⟩ =
        (Except.ok ⟨(raises c flow (pieceLexer.lex buf).1).1,
          findings ++ (raises c flow (pieceLexer.lex buf).1).2,
          (pieceLexer.lex buf).2⟩ : Checked Walked) := by
      intro hnone
      rw [pieceLexer.lex_of_none hnone, raises, emits_nil, List.append_nil]
    rw [walk]
    by_cases hlen : buf.length < 4
    · rw [if_pos hlen]
      exact hstop (if_pos hlen)
    · rw [if_neg hlen]
      cases hheader : parseTpktHeader buf with
      | none =>
        have hless := length_resyncOneByte_lt (Nat.le_of_not_lt hlen) hheader
        obtain ⟨hraises, hrest⟩ := resyncOneByte_reads c flow buf
        simp only
        rw [ih flow findings _ (by omega), hraises, hrest]
      | some header =>
        have hmin := parseTpktHeader_length hheader
        simp only
        by_cases hfull : buf.length ≥ header.length.toNat
        · have hpiece : pieceLexer.head buf =
              some (.frame (buf.take header.length.toNat), header.length.toNat) := by
            show pieceOf buf = _
            rw [pieceOf, if_neg hlen, hheader]
            exact if_pos hfull
          rw [if_pos hfull, (dispatchCotpFrame_eq c flow _).1, ok_bind,
            ih _ _ _ (by rw [List.length_drop]; omega), pieceLexer.lex_of_some hpiece, raises,
            raises, emits_cons]
          simp only [Effect.andThen, pieceEffect, List.append_assoc]
        · rw [if_neg hfull]
          refine hstop ?_
          rw [pieceOf, if_neg hlen, hheader]
          exact if_neg hfull

/-! ## What a call does -/

section Carry

variable (flow : S7commFlowState) (dir : Direction)

theorem carry_setCarry (bytes : List UInt8) : (flow.setCarry dir bytes).carry dir = bytes := by
  cases dir with
  | clientToServer => rfl
  | serverToClient => rfl

theorem carry_setCarry_of_ne (bytes : List UInt8) {other : Direction} (h : other ≠ dir) :
    (flow.setCarry dir bytes).carry other = flow.carry other := by
  refine Direction.ne_cases ?_ ?_ h
  · rfl
  · rfl

theorem setCarry_setCarry (bytes bytes' : List UInt8) :
    (flow.setCarry dir bytes).setCarry dir bytes' = flow.setCarry dir bytes' := by
  cases dir with
  | clientToServer => rfl
  | serverToClient => rfl

theorem setCarry_of_carry {bytes : List UInt8} (h : flow.carry dir = bytes) :
    flow.setCarry dir bytes = flow := by
  subst h
  cases dir with
  | clientToServer => rfl
  | serverToClient => rfl

theorem overflow_setCarry (bytes : List UInt8) :
    (flow.setCarry dir bytes).carryOverflowReported = flow.carryOverflowReported := by
  cases dir with
  | clientToServer => rfl
  | serverToClient => rfl

end Carry

/-- What a call does to its flow. -/
def effect (c : Delivery) (flow : S7commFlowState) (data : List UInt8) :
    Effect S7commFlowState Finding :=
  let r := pieceLexer.lex (flow.carry c.direction ++ data)
  let e := raises c (flow.setCarry c.direction []) r.1
  (e.1.setCarry c.direction r.2, e.2)

theorem effect_append (c : Delivery) (flow : S7commFlowState) (a b : List UInt8) :
    effect c flow (a ++ b) = (effect c flow a).andThen fun flow => effect c flow b := by
  have hempty : ∀ ps, (raises c (flow.setCarry c.direction []) ps).1.setCarry c.direction [] =
      (raises c (flow.setCarry c.direction []) ps).1 := by
    intro ps
    exact setCarry_of_carry _ _ (by rw [(raises_keeps c _ ps).carry, carry_setCarry])
  simp only [raises] at hempty
  unfold effect
  rw [← List.append_assoc, pieceLexer.lex_append pieceLexer_stable]
  simp only [raises, emits_append, Effect.andThen, carry_setCarry, setCarry_setCarry, hempty]

/-- The other direction's carry is not touched. -/
theorem effect_other (c : Delivery) (flow : S7commFlowState) (data : List UInt8)
    {other : Direction} (h : other ≠ c.direction) :
    (effect c flow data).1.carry other = flow.carry other := by
  rw [effect, carry_setCarry_of_ne _ _ _ h, (raises_keeps c _ _).carry,
    carry_setCarry_of_ne _ _ _ h]

def flowOf (s : S7commAnalyzer) (flowKey : FlowKey) : S7commFlowState :=
  (s.flows.get? flowKey).getD {}

theorem onData_eq (s : S7commAnalyzer) (c : Delivery) (data : List UInt8)
    (hcarry : ((flowOf s c.flowKey).carry c.direction).length ≤ maxS7IsoOnTcpCarryBytes) :
    onData s c data = .ok {
      flows := s.flows.insert c.flowKey (effect c (flowOf s c.flowKey) data).1
      findings := s.findings ++ (effect c (flowOf s c.flowKey) data).2 } := by
  unfold onData
  rw [show (s.flows.get? c.flowKey).getD {} = flowOf s c.flowKey from rfl, dropLongCarry,
    if_neg (Nat.not_lt_of_le hcarry)]
  simp only
  rw [walk_eq c _ _ _ _ (Nat.le_refl _), ok_bind]
  simp only [List.nil_append, effect]

/-! ## What stays in a carry -/

/-- Too short for a header, or a frame whose end is missing. -/
def Residual (carry : List UInt8) : Prop :=
  carry.length < 4 ∨ ∃ header, parseTpktHeader carry = some header ∧
    carry.length < header.length.toNat

theorem Residual.length_le {carry : List UInt8} (h : Residual carry) : carry.length ≤ 65534 := by
  rcases h with hshort | ⟨header, -, hpart⟩
  · omega
  · have hword := header.length.toNat_lt
    omega

theorem residual_of_pieceOf {carry : List UInt8} (h : pieceOf carry = none) : Residual carry := by
  unfold pieceOf at h
  split at h
  · rename_i hshort
    exact .inl hshort
  · split at h
    · cases h
    · rename_i header hheader
      split at h
      · cases h
      · rename_i hpart
        exact .inr ⟨header, hheader, Nat.lt_of_not_le hpart⟩

/-- What holds of a flow after every call. -/
structure Shape (flow : S7commFlowState) : Prop where
  carries : ∀ dir, Residual (flow.carry dir)
  overflow : ∀ dir, flow.carryOverflowReported dir = false

theorem Shape.length_le {flow : S7commFlowState} (h : Shape flow) (dir : Direction) :
    (flow.carry dir).length ≤ maxS7IsoOnTcpCarryBytes :=
  Nat.le_succ_of_le (h.carries dir).length_le

theorem shape_new : Shape {} where
  carries := fun dir => by
    cases dir with
    | clientToServer => exact .inl (by decide)
    | serverToClient => exact .inl (by decide)
  overflow := fun dir => by
    cases dir with
    | clientToServer => rfl
    | serverToClient => rfl

theorem Shape.effect {flow : S7commFlowState} (h : Shape flow) (c : Delivery)
    (data : List UInt8) : Shape (effect c flow data).1 where
  carries := fun dir => by
    by_cases hdir : dir = c.direction
    · rw [hdir, S7comm.effect, carry_setCarry]
      exact residual_of_pieceOf (pieceLexer.head_rest _)
    · rw [effect_other c flow data hdir]
      exact h.carries dir
  overflow := fun dir => by
    rw [S7comm.effect, overflow_setCarry, (raises_keeps c _ _).overflow, overflow_setCarry]
    exact h.overflow dir

/-! ## Runs -/

inductive Event
  | data (c : Delivery) (bytes : List UInt8)
  | close (flowKey : FlowKey)

def onEvent (s : S7commAnalyzer) : Event → Checked S7commAnalyzer
  | .data c bytes => onData s c bytes
  | .close flowKey => .ok (onFlowClose s flowKey)

def Settled (s : S7commAnalyzer) : Prop := ∀ flowKey, Shape (flowOf s flowKey)

theorem settled_insert {s : S7commAnalyzer} (h : Settled s) {flow : S7commFlowState}
    (hflow : Shape flow) (flowKey : FlowKey) (findings : List Finding) :
    Settled ⟨s.flows.insert flowKey flow, findings⟩ := by
  intro other
  by_cases hk : other = flowKey
  · rw [hk, flowOf, SortedMap.get?_insert_self, Option.getD_some]
    exact hflow
  · rw [flowOf, SortedMap.get?_insert_of_ne _ _ hk]
    exact h other

theorem onFlowClose_settled {s : S7commAnalyzer} (h : Settled s) (flowKey : FlowKey) :
    Settled (onFlowClose s flowKey) := by
  intro other
  by_cases hk : other = flowKey
  · rw [hk, flowOf, onFlowClose, SortedMap.get?_erase_self]
    exact shape_new
  · rw [flowOf, onFlowClose, SortedMap.get?_erase_of_ne _ hk]
    exact h other

theorem onEvent_settled {s : S7commAnalyzer} (h : Settled s) (e : Event) :
    Returns (onEvent s e) Settled := by
  cases e with
  | data c bytes =>
    rw [onEvent, onData_eq s c bytes ((h c.flowKey).length_le c.direction)]
    exact .pure (settled_insert h ((h c.flowKey).effect c bytes) c.flowKey _)
  | close flowKey => exact .pure (onFlowClose_settled h flowKey)

theorem onData_append {s : S7commAnalyzer} (h : Settled s) (c : Delivery) (a b : List UInt8) :
    onData s c (a ++ b) = (onData s c a >>= fun s => onData s c b) := by
  have hsettled := settled_insert h ((h c.flowKey).effect c a) c.flowKey
    (s.findings ++ (effect c (flowOf s c.flowKey) a).2)
  have hlen : ∀ s, Settled s →
      ((flowOf s c.flowKey).carry c.direction).length ≤ maxS7IsoOnTcpCarryBytes :=
    fun s hs => (hs c.flowKey).length_le c.direction
  rw [onData_eq s c _ (hlen s h), onData_eq s c _ (hlen s h), ok_bind,
    onData_eq _ c _ (hlen _ hsettled), effect_append]
  simp only [flowOf, SortedMap.get?_insert_self, Option.getD_some, Effect.andThen,
    SortedMap.insert_insert, List.append_assoc]

/-- Whatever has come before, it makes no difference where a delivery is cut: the state is the
same, not one finding aside. Each carry is the unfinished start of a frame, so none is ever
dropped, and a call leaves the other direction's carry as it is. -/
theorem run_segments :
    (∀ c turns flow findings, (working : List UInt8) → working.length ≤ turns →
      ∃ w, walk c turns flow findings working = .ok w ∧
        walk c working.length flow findings working = .ok w ∧ Residual w.remainder) ∧
    ∀ events, Returns (run onEvent S7commAnalyzer.new events) fun s =>
      (∀ c a b, onData s c (a ++ b) = (onData s c a >>= fun s => onData s c b)) ∧
      (∀ flowKey dir, Residual ((flowOf s flowKey).carry dir) ∧
        ((flowOf s flowKey).carry dir).length ≤ 65534 ∧
        (flowOf s flowKey).carryOverflowReported dir = false) ∧
      (∀ c, dropLongCarry c (flowOf s c.flowKey) = (flowOf s c.flowKey, [])) ∧
      ∀ c data, Returns (onData s c data) fun s' => ∀ dir, dir ≠ c.direction →
        (flowOf s' c.flowKey).carry dir = (flowOf s c.flowKey).carry dir := by
  refine ⟨fun c turns flow findings working hturns => ?_, fun events => ?_⟩
  · exact ⟨_, walk_eq c turns flow findings working hturns,
      walk_eq c _ flow findings working (Nat.le_refl _),
      residual_of_pieceOf (pieceLexer.head_rest working)⟩
  · have hnew : Settled S7commAnalyzer.new := fun _ => shape_new
    have hrun : Returns (run onEvent S7commAnalyzer.new events) Settled :=
      run_returns (I := fun _ s => Settled s) events hnew
        fun _ e _ _ _ hs => onEvent_settled hs e
    refine hrun.mono fun s hs => ⟨fun c a b => onData_append hs c a b, fun flowKey dir => ?_,
      fun c => ?_, fun c data => ?_⟩
    · have hshape := hs flowKey
      exact ⟨hshape.carries dir, (hshape.carries dir).length_le, hshape.overflow dir⟩
    · exact if_neg (Nat.not_lt_of_le ((hs c.flowKey).length_le c.direction))
    · rw [onData_eq s c data ((hs c.flowKey).length_le c.direction)]
      refine .pure fun dir hdir => ?_
      rw [flowOf, SortedMap.get?_insert_self, Option.getD_some]
      exact effect_other c _ data hdir

def plcDelivery : Delivery := ⟨.new (.v4 1) 1024 (.v4 2) 102, 0, .clientToServer⟩

theorem run_segments_half_header :
    [3, 0].length ≤ 2 ∧
      (∃ w, walk plcDelivery 2 {} [] [3, 0] = .ok w ∧
        walk plcDelivery [3, 0].length {} [] [3, 0] = .ok w ∧ Residual w.remainder) ∧
      onData .new plcDelivery ([3, 0] ++ [0, 7, 2, 0xf0, 0x80]) =
        (onData .new plcDelivery [3, 0] >>= fun s =>
          onData s plcDelivery [0, 7, 2, 0xf0, 0x80]) := by
  refine ⟨by decide, run_segments.1 plcDelivery 2 {} [] [3, 0] (by decide), ?_⟩
  obtain ⟨s, hs, happend, -⟩ := run_segments.2 []
  cases hs
  exact happend plcDelivery [3, 0] [0, 7, 2, 0xf0, 0x80]

end Wirerust.S7comm
