import Mathlib.Data.List.Forall2
import Wirerust.Lib.Lexing
import Wirerust.Lib.Transducer
import Wirerust.Analyzer.Iec104

/-!
IEC-104 streams and the calls they come in.

The walk of `on_data` reads pieces off the front of its buffer: a byte that starts nothing, a start
byte with an impossible length, or a frame. What a piece does depends on the flow alone, except
that one finding prints the offset in the buffer; `Raised` is a finding up to that offset. So a
call is a function of the flow and its bytes (`onData_eq`), and a delivery cut in two does what
the whole one does (`effect_append`). From this every run depends only on its bytes and their
directions (`run_streams`).
-/

namespace Wirerust.Iec104

open Lib Wirerust.Flow Wirerust.Analyzer

/-! ## Pieces -/

inductive Piece
  | skip
  | stub (len : UInt8)
  | frame (bytes : List UInt8)
  deriving DecidableEq, Repr

def Piece.size : Piece → Nat
  | .skip => 1
  | .stub _ => 2
  | .frame bytes => bytes.length

def pieceOf : List UInt8 → Option (Piece × Nat)
  | [] => none
  | [start] => if start ≠ 0x68 then some (.skip, 1) else none
  | start :: len :: rest =>
    let buf := start :: len :: rest
    if start ≠ 0x68 then some (.skip, 1)
    else if ¬(4 ≤ len ∧ len ≤ 253) then some (.stub len, 2)
    else if buf.length < len.toNat + 2 then none
    else some (.frame (buf.take (len.toNat + 2)), len.toNat + 2)

theorem pieceOf_size {buf : List UInt8} {piece : Piece} {n : Nat}
    (h : pieceOf buf = some (piece, n)) : 0 < n ∧ n ≤ buf.length ∧ piece.size = n := by
  cases buf with
  | nil => cases h
  | cons start rest =>
    cases rest with
    | nil =>
      simp only [pieceOf] at h
      split at h
      · cases h
        exact ⟨by decide, by simp, rfl⟩
      · cases h
    | cons len rest =>
      simp only [pieceOf] at h
      split at h
      · cases h
        exact ⟨by decide, by simp, rfl⟩
      · split at h
        · cases h
          exact ⟨by decide, by simp, rfl⟩
        · split at h
          · cases h
          · rename_i hfull
            cases h
            refine ⟨by omega, by omega, ?_⟩
            rw [Piece.size, List.length_take]
            omega

def pieceLexer : Lexer UInt8 Piece :=
  ⟨pieceOf, fun h => ⟨(pieceOf_size h).1, (pieceOf_size h).2.1⟩⟩

theorem pieceLexer_stable : pieceLexer.Stable := by
  rintro xs ys ⟨piece, n⟩ h
  show pieceOf (xs ++ ys) = some (piece, n)
  replace h : pieceOf xs = some (piece, n) := h
  cases xs with
  | nil => cases h
  | cons start rest =>
    cases rest with
    | nil =>
      simp only [pieceOf] at h
      split at h
      · rename_i hstart
        cases ys with
        | nil =>
          simp only [List.append_nil, pieceOf, if_pos hstart]
          exact h
        | cons len ys =>
          simp only [List.cons_append, List.nil_append, pieceOf, if_pos hstart]
          exact h
      · cases h
    | cons len rest =>
      simp only [pieceOf] at h
      simp only [List.cons_append, pieceOf]
      by_cases hstart : start ≠ 0x68
      · rw [if_pos hstart] at h ⊢
        exact h
      · rw [if_neg hstart] at h ⊢
        by_cases hlen : ¬(4 ≤ len ∧ len ≤ 253)
        · rw [if_pos hlen] at h ⊢
          exact h
        · rw [if_neg hlen] at h ⊢
          split at h
          · cases h
          · rename_i hfull
            cases h
            rw [if_neg (by simp only [List.length_cons, List.length_append] at *; omega),
              ← List.cons_append, ← List.cons_append, List.take_append_of_le_length (by omega)]

/-! ## What a piece does -/

/-- A finding up to the offset it may print. -/
inductive Raised
  | plain (finding : Finding)
  | malformedLen (c : Delivery) (len : UInt8)

def Raised.at (position : Nat) : Raised → Finding
  | .plain finding => finding
  | .malformedLen c len => malformedLenFinding c len position

/-- What no piece changes. -/
structure Keeps (dir : Direction) (flow flow' : Iec104FlowState) : Prop where
  carry : flow'.carry = flow.carry
  overflow : flow'.carryOverflowReported = flow.carryOverflowReported
  otherNs : ∀ other, other ≠ dir → flow'.lastNs other = flow.lastNs other

theorem Keeps.refl (dir : Direction) (flow : Iec104FlowState) : Keeps dir flow flow :=
  ⟨rfl, rfl, fun _ _ => rfl⟩

theorem Keeps.trans {dir : Direction} {flow flow' flow'' : Iec104FlowState}
    (h : Keeps dir flow flow') (h' : Keeps dir flow' flow'') : Keeps dir flow flow'' :=
  ⟨h'.carry.trans h.carry, h'.overflow.trans h.overflow,
    fun other hne => (h'.otherNs other hne).trans (h.otherNs other hne)⟩

theorem uFrame_keeps (c : Delivery) (flow : Iec104FlowState) (cf1 : UInt8) :
    Keeps c.direction flow (uFrame c flow cf1).1 := by
  unfold uFrame
  split
  · exact ⟨rfl, rfl, fun _ _ => rfl⟩
  · split
    · exact ⟨rfl, rfl, fun _ _ => rfl⟩
    · split
      · exact ⟨rfl, rfl, fun _ _ => rfl⟩
      · split
        · exact .refl _ _
        · exact .refl _ _

theorem setLastNs_keeps (dir : Direction) (flow : Iec104FlowState) (ns : UInt16) :
    Keeps dir flow (flow.setLastNs dir ns) := by
  cases dir with
  | clientToServer =>
    refine ⟨rfl, rfl, fun other hne => ?_⟩
    cases other with
    | clientToServer => exact absurd rfl hne
    | serverToClient => rfl
  | serverToClient =>
    refine ⟨rfl, rfl, fun other hne => ?_⟩
    cases other with
    | clientToServer => rfl
    | serverToClient => exact absurd rfl hne

theorem reportMalformedLen_keeps (dir : Direction) (flow : Iec104FlowState) :
    Keeps dir flow (flow.reportMalformedLen dir) := by
  cases dir with
  | clientToServer => exact ⟨rfl, rfl, fun _ _ => rfl⟩
  | serverToClient => exact ⟨rfl, rfl, fun _ _ => rfl⟩

theorem processFrame_returns (c : Delivery) (flow : Iec104FlowState) (frame : List UInt8) :
    Returns (processFrame c flow frame) (fun e => Keeps c.direction flow e.1) := by
  have hcount : ∀ n, Keeps c.direction flow { flow with frameCount := n } :=
    fun n => ⟨rfl, rfl, fun _ _ => rfl⟩
  unfold processFrame
  cases parseApciHeader frame with
  | none => exact .pure (.refl _ _)
  | some header =>
    cases hformat : classifyFrameFormat header.cf1 with
    | uFormat =>
      simp only [hformat]
      rw [processUFrame, assertThat_of hformat]
      exact .pure ((hcount _).trans (uFrame_keeps c _ _))
    | iFormat =>
      simp only [hformat]
      exact .pure ((hcount _).trans (setLastNs_keeps c.direction _ _))
    | sFormat =>
      simp only [hformat]
      exact .pure (hcount _)

def frameEffect (c : Delivery) (flow : Iec104FlowState) (frame : List UInt8) :
    Effect Iec104FlowState Finding := valueOr (flow, []) (processFrame c flow frame)

theorem processFrame_eq (c : Delivery) (flow : Iec104FlowState) (frame : List UInt8) :
    processFrame c flow frame = .ok (frameEffect c flow frame) ∧
      Keeps c.direction flow (frameEffect c flow frame).1 :=
  (processFrame_returns c flow frame).eq_valueOr (flow, [])

def pieceRaises (c : Delivery) (flow : Iec104FlowState) : Piece → Effect Iec104FlowState Raised
  | .skip => (flow, [])
  | .stub len =>
    if !flow.malformedLenReported c.direction then
      (flow.reportMalformedLen c.direction, [.malformedLen c len])
    else (flow, [])
  | .frame bytes => ((frameEffect c flow bytes).1, (frameEffect c flow bytes).2.map .plain)

def raises (c : Delivery) (flow : Iec104FlowState) (ps : List Piece) :
    Effect Iec104FlowState Raised := emits (pieceRaises c) flow ps

/-- The findings of the pieces, the first of which is at `position`. -/
def findingsAt (c : Delivery) (flow : Iec104FlowState) (position : Nat) :
    List Piece → List Finding
  | [] => []
  | piece :: rest => (pieceRaises c flow piece).2.map (Raised.at position) ++
      findingsAt c (pieceRaises c flow piece).1 (position + piece.size) rest

theorem stash_nil (w : Walking) (dir : Direction) : w.stash dir [] = w := by
  cases dir with
  | clientToServer => simp [Walking.stash, Iec104FlowState.setCarry, Iec104FlowState.carry]
  | serverToClient => simp [Walking.stash, Iec104FlowState.setCarry, Iec104FlowState.carry]

theorem malformedLen_eq (c : Delivery) (w : Walking) (len : UInt8) (position : Nat) :
    malformedLen c w len position = ⟨(pieceRaises c w.flow (.stub len)).1,
      w.findings ++ (pieceRaises c w.flow (.stub len)).2.map (Raised.at position)⟩ := by
  unfold malformedLen pieceRaises
  simp only
  split
  · rfl
  · rw [List.map_nil, List.append_nil]

theorem map_plain (position : Nat) (findings : List Finding) :
    (findings.map Raised.plain).map (Raised.at position) = findings := by
  rw [List.map_map]
  exact List.map_id findings

/-- One turn of the walk. -/
theorem walk_succ (c : Delivery) (turns position : Nat) (w : Walking) (buf : List UInt8) :
    walk c (turns + 1) position w buf =
      match pieceOf buf with
      | none => .ok (w.stash c.direction buf)
      | some (piece, n) =>
        walk c turns (position + n) ⟨(pieceRaises c w.flow piece).1,
          w.findings ++ (pieceRaises c w.flow piece).2.map (Raised.at position)⟩
          (buf.drop n) := by
  cases buf with
  | nil => rw [walk, pieceOf, stash_nil]
  | cons start rest =>
    cases rest with
    | nil =>
      rw [walk, pieceOf]
      by_cases hstart : start ≠ 0x68
      · simp only [if_pos hstart, pieceRaises, List.map_nil, List.append_nil]
        rfl
      · simp only [if_neg hstart]
    | cons len rest =>
      rw [walk, pieceOf]
      by_cases hstart : start ≠ 0x68
      · simp only [if_pos hstart, pieceRaises, List.map_nil, List.append_nil]
      · by_cases hlen : ¬(4 ≤ len ∧ len ≤ 253)
        · simp only [if_neg hstart, if_pos hlen, malformedLen_eq]
        · simp only [if_neg hstart, if_neg hlen]
          by_cases hpart : (start :: len :: rest).length < len.toNat + 2
          · simp only [if_pos hpart]
          · simp only [if_neg hpart]
            rw [(processFrame_eq c w.flow _).1, ok_bind]
            simp only [pieceRaises, map_plain]

theorem walk_eq (c : Delivery) (turns position : Nat) (w : Walking) (buf : List UInt8)
    (hturns : buf.length ≤ turns) :
    walk c turns position w buf = .ok (Walking.stash
      ⟨(raises c w.flow (pieceLexer.lex buf).1).1,
        w.findings ++ findingsAt c w.flow position (pieceLexer.lex buf).1⟩ c.direction
      (pieceLexer.lex buf).2) := by
  induction turns generalizing position w buf with
  | zero =>
    obtain rfl : buf = [] := List.length_eq_zero_iff.mp (Nat.le_zero.mp hturns)
    rw [pieceLexer.lex_of_none rfl, walk, stash_nil, raises, emits_nil, findingsAt,
      List.append_nil]
  | succ turns ih =>
    rw [walk_succ]
    cases hpiece : pieceOf buf with
    | none => rw [pieceLexer.lex_of_none hpiece, raises, emits_nil, findingsAt, List.append_nil]
    | some next =>
      obtain ⟨piece, n⟩ := next
      obtain ⟨hpos, hle, hsize⟩ := pieceOf_size hpiece
      rw [pieceLexer.lex_of_some hpiece, raises, emits_cons, findingsAt, hsize]
      simp only [Effect.andThen]
      rw [ih _ _ _ (by rw [List.length_drop]; omega), ← List.append_assoc, raises]

/-! ## What a call does -/

theorem pieceRaises_keeps (c : Delivery) (flow : Iec104FlowState) (piece : Piece) :
    Keeps c.direction flow (pieceRaises c flow piece).1 := by
  cases piece with
  | skip => exact .refl _ _
  | stub len =>
    unfold pieceRaises
    simp only
    split
    · exact reportMalformedLen_keeps c.direction flow
    · exact .refl _ _
  | frame bytes => exact (processFrame_eq c flow bytes).2

theorem raises_keeps (c : Delivery) (flow : Iec104FlowState) (ps : List Piece) :
    Keeps c.direction flow (raises c flow ps).1 :=
  emits_keeps (fun _ piece h => h.trans (pieceRaises_keeps c _ piece)) ps (.refl _ _)

section Carry

variable (flow : Iec104FlowState) (dir : Direction)

theorem carry_setCarry (bytes : List UInt8) : (flow.setCarry dir bytes).carry dir = bytes := by
  cases dir with
  | clientToServer => rfl
  | serverToClient => rfl

theorem carry_setCarry_of_ne (bytes : List UInt8) {other : Direction} (h : other ≠ dir) :
    (flow.setCarry dir bytes).carry other = flow.carry other := by
  refine Direction.ne_cases ?_ ?_ h
  · rfl
  · rfl

theorem setCarry_setCarry (bytes bytes' : List UInt8) :
    (flow.setCarry dir bytes).setCarry dir bytes' = flow.setCarry dir bytes' := by
  cases dir with
  | clientToServer => rfl
  | serverToClient => rfl

theorem setCarry_carry : flow.setCarry dir (flow.carry dir) = flow := by
  cases dir with
  | clientToServer => rfl
  | serverToClient => rfl

theorem setCarry_of_carry {bytes : List UInt8} (h : flow.carry dir = bytes) :
    flow.setCarry dir bytes = flow := by rw [← h, setCarry_carry]

theorem overflow_setCarry (bytes : List UInt8) :
    (flow.setCarry dir bytes).carryOverflowReported = flow.carryOverflowReported := by
  cases dir with
  | clientToServer => rfl
  | serverToClient => rfl

theorem lastNs_setCarry (bytes : List UInt8) :
    (flow.setCarry dir bytes).lastNs = flow.lastNs := by
  cases dir with
  | clientToServer => rfl
  | serverToClient => rfl

end Carry

/-- What a call does to its flow. -/
def effect (c : Delivery) (flow : Iec104FlowState) (data : List UInt8) :
    Effect Iec104FlowState Raised :=
  let r := pieceLexer.lex (flow.carry c.direction ++ data)
  let e := raises c (flow.setCarry c.direction []) r.1
  (e.1.setCarry c.direction r.2, e.2)

theorem carry_raises (c : Delivery) (flow : Iec104FlowState) (ps : List Piece) :
    (raises c (flow.setCarry c.direction []) ps).1.setCarry c.direction [] =
      (raises c (flow.setCarry c.direction []) ps).1 :=
  setCarry_of_carry _ _ (by rw [(raises_keeps c _ ps).carry, carry_setCarry])

theorem effect_append (c : Delivery) (flow : Iec104FlowState) (a b : List UInt8) :
    effect c flow (a ++ b) = (effect c flow a).andThen fun flow => effect c flow b := by
  unfold effect
  rw [← List.append_assoc, pieceLexer.lex_append pieceLexer_stable]
  have hraises := carry_raises c flow (pieceLexer.lex (flow.carry c.direction ++ a)).1
  simp only [raises] at hraises
  simp only [raises, emits_append, Effect.andThen, carry_setCarry, setCarry_setCarry, hraises]

theorem effect_nil {c : Delivery} {flow : Iec104FlowState}
    (h : pieceOf (flow.carry c.direction) = none) : effect c flow [] = (flow, []) := by
  unfold effect
  rw [List.append_nil, pieceLexer.lex_of_none h]
  simp only [raises, emits_nil, setCarry_setCarry, setCarry_carry]

/-- `findings` are those of `raised`, at some offsets. -/
def Instances (raised : List Raised) (findings : List Finding) : Prop :=
  List.Forall₂ (fun r f => ∃ position, f = Raised.at position r) raised findings

theorem findingsAt_instances (c : Delivery) (flow : Iec104FlowState) (position : Nat)
    (ps : List Piece) : Instances (raises c flow ps).2 (findingsAt c flow position ps) := by
  induction ps generalizing flow position with
  | nil => exact .nil
  | cons piece ps ih =>
    refine List.rel_append ?_ (ih _ _)
    rw [List.forall₂_map_right_iff]
    exact List.forall₂_same.mpr fun r _ => ⟨position, rfl⟩

def flowOf (s : Iec104Analyzer) (flowKey : FlowKey) : Iec104FlowState :=
  (s.flows.get? flowKey).getD {}

theorem dropLongCarry_of_le {c : Delivery} {flow : Iec104FlowState}
    (h : (flow.carry c.direction).length ≤ maxIec104CarryBytes) :
    dropLongCarry c flow = ⟨flow, []⟩ := if_neg (Nat.not_lt_of_le h)

theorem onData_eq (s : Iec104Analyzer) (c : Delivery) (data : List UInt8)
    (hcarry : ((flowOf s c.flowKey).carry c.direction).length ≤ maxIec104CarryBytes) :
    ∃ s' findings, onData s c data = .ok s' ∧
      flowOf s' c.flowKey = (effect c (flowOf s c.flowKey) data).1 ∧
      Instances (effect c (flowOf s c.flowKey) data).2 findings ∧
      s'.findings = mergeFindings s.findings findings := by
  refine ⟨{ s with
    flows := s.flows.insert c.flowKey (effect c (flowOf s c.flowKey) data).1
    findings := mergeFindings s.findings _ }, _, ?_,
    by rw [flowOf, SortedMap.get?_insert_self, Option.getD_some],
    findingsAt_instances c _ 0 _, rfl⟩
  unfold onData
  rw [show (s.flows.get? c.flowKey).getD {} = flowOf s c.flowKey from rfl,
    dropLongCarry_of_le hcarry]
  simp only
  rw [walk_eq c _ _ _ _ (Nat.le_refl _), ok_bind]
  simp only [Walking.stash, List.nil_append, effect, (raises_keeps c _ _).carry, carry_setCarry]

/-! ## What stays in a carry -/

/-- A whole APDU. -/
def IsApdu (bytes : List UInt8) : Prop :=
  ∃ len rest, bytes = 0x68 :: len :: rest ∧ 4 ≤ len ∧ len ≤ 253 ∧ rest.length = len.toNat

/-- Nothing, or the start of an APDU whose end is missing. -/
def Residual (carry : List UInt8) : Prop :=
  carry = [] ∨ ∃ missing, missing ≠ [] ∧ IsApdu (carry ++ missing)

theorem IsApdu.length_le {bytes : List UInt8} (h : IsApdu bytes) : bytes.length ≤ 255 := by
  obtain ⟨len, rest, rfl, -, hmax, hlen⟩ := h
  have hmax' : len.toNat ≤ 253 := by simpa [UInt8.le_iff_toNat_le] using hmax
  simp only [List.length_cons]
  omega

theorem Residual.length_le {carry : List UInt8} (h : Residual carry) : carry.length ≤ 254 := by
  rcases h with rfl | ⟨missing, hne, hapdu⟩
  · decide
  · have hlen := hapdu.length_le
    have hpos := List.length_pos_iff.mpr hne
    rw [List.length_append] at hlen
    omega

theorem residual_of_pieceOf {carry : List UInt8} (h : pieceOf carry = none) : Residual carry := by
  cases carry with
  | nil => exact .inl rfl
  | cons start rest =>
    cases rest with
    | nil =>
      simp only [pieceOf] at h
      split at h
      · cases h
      · rename_i hstart
        rw [Decidable.not_not.mp hstart]
        exact .inr ⟨[4, 0, 0, 0, 0], by simp, 4, [0, 0, 0, 0], rfl, by decide, by decide, rfl⟩
    | cons len rest =>
      simp only [pieceOf] at h
      split at h
      · cases h
      · rename_i hstart
        split at h
        · cases h
        · rename_i hlen
          split at h
          · rename_i hpart
            obtain ⟨hmin, hmax⟩ := Decidable.not_not.mp hlen
            rw [Decidable.not_not.mp hstart]
            simp only [List.length_cons] at hpart
            refine .inr ⟨List.replicate (len.toNat - rest.length) 0, ?_, len, _, rfl, hmin, hmax,
              ?_⟩
            · intro hnil
              have := congrArg List.length hnil
              rw [List.length_replicate, List.length_nil] at this
              omega
            · show (rest ++ _).length = _
              rw [List.length_append, List.length_replicate]
              omega
          · cases h

/-- What holds of a flow after every call. -/
structure Shape (flow : Iec104FlowState) : Prop where
  carries : ∀ dir, pieceOf (flow.carry dir) = none
  overflow : ∀ dir, flow.carryOverflowReported dir = false

theorem Shape.length_le {flow : Iec104FlowState} (h : Shape flow) (dir : Direction) :
    (flow.carry dir).length ≤ maxIec104CarryBytes :=
  Nat.le_succ_of_le (residual_of_pieceOf (h.carries dir)).length_le

theorem shape_new : Shape {} where
  carries := fun dir => by
    cases dir with
    | clientToServer => rfl
    | serverToClient => rfl
  overflow := fun dir => by
    cases dir with
    | clientToServer => rfl
    | serverToClient => rfl

/-- What a call in one direction leaves alone. -/
theorem effect_other (c : Delivery) (flow : Iec104FlowState) (data : List UInt8)
    {other : Direction} (h : other ≠ c.direction) :
    (effect c flow data).1.carry other = flow.carry other ∧
      (effect c flow data).1.lastNs other = flow.lastNs other := by
  have hkeeps := raises_keeps c (flow.setCarry c.direction [])
    (pieceLexer.lex (flow.carry c.direction ++ data)).1
  constructor
  · rw [effect, carry_setCarry_of_ne _ _ _ h, hkeeps.carry, carry_setCarry_of_ne _ _ _ h]
  · rw [effect, lastNs_setCarry, hkeeps.otherNs other h, lastNs_setCarry]

theorem Shape.effect {flow : Iec104FlowState} (h : Shape flow) (c : Delivery)
    (data : List UInt8) : Shape (effect c flow data).1 where
  carries := fun dir => by
    by_cases hdir : dir = c.direction
    · rw [hdir, Iec104.effect, carry_setCarry]
      exact pieceLexer.head_rest _
    · rw [(effect_other c flow data hdir).1]
      exact h.carries dir
  overflow := fun dir => by
    have hkeeps := raises_keeps c (flow.setCarry c.direction [])
      (pieceLexer.lex (flow.carry c.direction ++ data)).1
    rw [Iec104.effect, overflow_setCarry, hkeeps.overflow, overflow_setCarry]
    exact h.overflow dir

/-! ## Findings of several calls -/

/-- Merging is the same whether the findings come at once or in two parts. -/
theorem mergeFindings_append (log : Capped Finding) (a b : List Finding) :
    mergeFindings log (a ++ b) = mergeFindings (mergeFindings log a) b := by
  unfold mergeFindings
  by_cases hfull : a.length > maxFindings - log.kept.length
  · -- The first part leaves no room.
    have htake : (a.take (maxFindings - log.kept.length)).length =
        maxFindings - log.kept.length := by
      rw [List.length_take]
      omega
    simp only [if_pos hfull, List.length_append, htake]
    rw [if_pos (by omega), List.take_append_of_le_length (by omega)]
    cases b with
    | nil => simp
    | cons f b =>
      rw [if_pos (by simp only [List.length_cons]; omega)]
      have hnone : maxFindings - (log.kept.length + (maxFindings - log.kept.length)) = 0 := by
        omega
      rw [hnone, List.take_zero, List.append_nil, Nat.sub_zero]
      congr 1
      omega
  · simp only [if_neg hfull, List.length_append]
    have hroom : maxFindings - (log.kept.length + a.length) =
        maxFindings - log.kept.length - a.length := by omega
    rw [hroom]
    by_cases hmore : b.length > maxFindings - log.kept.length - a.length
    · rw [if_pos (by omega), if_pos hmore, List.take_append, List.take_of_length_le (by omega),
        List.append_assoc]
      congr 2
      omega
    · rw [if_neg (by omega), if_neg hmore, List.append_assoc]

/-- Two findings that differ at most in the offset they print. -/
def SameButOffset (f f' : Finding) : Prop :=
  ∃ raised position position', f = Raised.at position raised ∧ f' = Raised.at position' raised

/-- Two logs whose findings differ at most in the offsets they print. -/
structure AlikeLogs (log log' : Capped Finding) : Prop where
  kept : List.Forall₂ SameButOffset log.kept log'.kept
  dropped : log.dropped = log'.dropped

theorem sameButOffset_of_instances {raised : List Raised} {findings findings' : List Finding}
    (h : Instances raised findings) (h' : Instances raised findings') :
    List.Forall₂ SameButOffset findings findings' := by
  induction h generalizing findings' with
  | nil =>
    cases h'
    exact .nil
  | cons hhead _ ih =>
    cases h' with
    | cons hhead' htail' =>
      obtain ⟨position, hf⟩ := hhead
      obtain ⟨position', hf'⟩ := hhead'
      exact .cons ⟨_, position, position', hf, hf'⟩ (ih htail')

theorem alikeLogs_merge {log : Capped Finding} {findings findings' : List Finding}
    (h : List.Forall₂ SameButOffset findings findings') :
    AlikeLogs (mergeFindings log findings) (mergeFindings log findings') := by
  have hlen := h.length_eq
  have hlog : List.Forall₂ SameButOffset log.kept log.kept :=
    List.forall₂_same.mpr fun f _ => ⟨.plain f, 0, 0, rfl, rfl⟩
  unfold mergeFindings
  simp only [hlen]
  split
  · exact ⟨List.rel_append hlog (List.forall₂_take _ h), rfl⟩
  · exact ⟨List.rel_append hlog h, rfl⟩

/-! ## Runs -/

structure Call where
  direction : Direction
  data : List UInt8

section Runs

variable (flowKey : FlowKey) (ts : UInt32)

def onCall (s : Iec104Analyzer) (call : Call) : Checked Iec104Analyzer :=
  onData s ⟨flowKey, ts, call.direction⟩ call.data

def effects (flow : Iec104FlowState) (calls : List Call) : Effect Iec104FlowState Raised :=
  emits (fun flow call => effect ⟨flowKey, ts, call.direction⟩ flow call.data) flow calls

theorem Shape.effects {flow : Iec104FlowState} (h : Shape flow) (calls : List Call) :
    Shape (effects flowKey ts flow calls).1 :=
  emits_keeps (fun _ _ h => h.effect _ _) calls h

theorem run_effects {s : Iec104Analyzer} {flow : Iec104FlowState} (calls : List Call)
    (hflow : flowOf s flowKey = flow) (hshape : Shape flow) :
    ∃ s' findings, run (onCall flowKey ts) s calls = .ok s' ∧
      flowOf s' flowKey = (effects flowKey ts flow calls).1 ∧
      Instances (effects flowKey ts flow calls).2 findings ∧
      s'.findings = mergeFindings s.findings findings := by
  induction calls generalizing s flow with
  | nil =>
    refine ⟨s, [], rfl, hflow, .nil, ?_⟩
    unfold mergeFindings
    rw [if_neg (by simp), List.append_nil]
  | cons call calls ih =>
    obtain ⟨s₁, first, hdata, hflow₁, hfirst, hlog₁⟩ := onData_eq s
      ⟨flowKey, ts, call.direction⟩ call.data (by rw [hflow]; exact hshape.length_le _)
    simp only [hflow] at hfirst hflow₁
    obtain ⟨s', findings, hrun, hflow', hinstances, hlog⟩ := ih hflow₁ (hshape.effect _ _)
    refine ⟨s', first ++ findings, ?_, hflow', List.rel_append hfirst hinstances, ?_⟩
    · rw [run_cons, onCall, hdata]
      exact hrun
    · rw [hlog, hlog₁, mergeFindings_append]

/-- The bytes of the calls, each with its direction. -/
def tagged (calls : List Call) : List (Direction × UInt8) :=
  calls.flatMap fun call => call.data.map fun b => (call.direction, b)

def single (tag : Direction × UInt8) : Call := ⟨tag.1, [tag.2]⟩

theorem effects_single (flow : Iec104FlowState) (hshape : Shape flow) (dir : Direction)
    (data : List UInt8) :
    effects flowKey ts flow ((data.map fun b => (dir, b)).map single) =
      effect ⟨flowKey, ts, dir⟩ flow data := by
  induction data generalizing flow with
  | nil => exact (effect_nil (hshape.carries dir)).symm
  | cons b data ih =>
    rw [← List.singleton_append, effect_append]
    rw [effects, List.singleton_append, List.map_cons, List.map_cons, emits_cons]
    simp only [Effect.andThen, single, ← ih _ (hshape.effect _ _)]
    rfl

/-- A run does what its bytes do one by one. -/
theorem effects_tagged (flow : Iec104FlowState) (hshape : Shape flow) (calls : List Call) :
    effects flowKey ts flow ((tagged calls).map single) = effects flowKey ts flow calls := by
  induction calls generalizing flow with
  | nil => rfl
  | cons call calls ih =>
    have hfirst := effects_single flowKey ts flow hshape call.direction call.data
    simp only [effects] at hfirst ih ⊢
    rw [tagged, List.flatMap_cons, List.map_append, emits_append, hfirst, ← tagged, emits_cons]
    simp only [Effect.andThen]
    rw [ih _ (hshape.effect _ _)]

end Runs

/-- Two analyzers that agree on one flow, up to the offsets printed in findings. -/
structure Alike (flowKey : FlowKey) (s s' : Iec104Analyzer) : Prop where
  flow : flowOf s flowKey = flowOf s' flowKey
  findings : AlikeLogs s.findings s'.findings

/-- Every run comes back, and what it leaves depends only on the bytes and their directions. Its
carries are starts of APDUs, and a delivery in one direction leaves the other one alone. -/
theorem run_streams (flowKey : FlowKey) (ts : UInt32) :
    (∀ calls calls', tagged calls = tagged calls' →
      ∃ s s', run (onCall flowKey ts) .new calls = .ok s ∧
        run (onCall flowKey ts) .new calls' = .ok s' ∧ Alike flowKey s s') ∧
    (∀ calls s, run (onCall flowKey ts) .new calls = .ok s →
      (∀ dir, Residual ((flowOf s flowKey).carry dir) ∧
        ((flowOf s flowKey).carry dir).length ≤ 254 ∧
        (flowOf s flowKey).carryOverflowReported dir = false) ∧
      (∀ dir a b, ∃ s₁ s₂ s₂', onData s ⟨flowKey, ts, dir⟩ (a ++ b) = .ok s₁ ∧
        onData s ⟨flowKey, ts, dir⟩ a = .ok s₂ ∧ onData s₂ ⟨flowKey, ts, dir⟩ b = .ok s₂' ∧
        Alike flowKey s₁ s₂') ∧
      (∀ dir data other, other ≠ dir → ∃ s', onData s ⟨flowKey, ts, dir⟩ data = .ok s' ∧
        (flowOf s' flowKey).carry other = (flowOf s flowKey).carry other ∧
        (flowOf s' flowKey).lastNs other = (flowOf s flowKey).lastNs other)) := by
  have hfresh : flowOf .new flowKey = {} := rfl
  have halike : ∀ calls calls', tagged calls = tagged calls' →
      ∃ s s', run (onCall flowKey ts) .new calls = .ok s ∧
        run (onCall flowKey ts) .new calls' = .ok s' ∧ Alike flowKey s s' := by
    intro calls calls' htagged
    have hsame : effects flowKey ts {} calls = effects flowKey ts {} calls' := by
      rw [← effects_tagged flowKey ts {} shape_new calls, htagged,
        effects_tagged flowKey ts {} shape_new calls']
    obtain ⟨s, findings, hrun, hflow, hinstances, hlog⟩ :=
      run_effects flowKey ts calls hfresh shape_new
    obtain ⟨s', findings', hrun', hflow', hinstances', hlog'⟩ :=
      run_effects flowKey ts calls' hfresh shape_new
    rw [hsame] at hflow hinstances
    refine ⟨s, s', hrun, hrun', hflow.trans hflow'.symm, ?_⟩
    rw [hlog, hlog']
    exact alikeLogs_merge (sameButOffset_of_instances hinstances hinstances')
  refine ⟨halike, fun calls s hs => ?_⟩
  obtain ⟨s₀, findings, hrun, hflow, hinstances, hlog⟩ :=
    run_effects flowKey ts calls hfresh shape_new
  obtain rfl : s₀ = s := by
    rw [hrun] at hs
    exact Except.ok.inj hs
  have hshape : Shape (flowOf s₀ flowKey) := by
    rw [hflow]
    exact shape_new.effects flowKey ts calls
  refine ⟨fun dir => ?_, fun dir a b => ?_, fun dir data other hne => ?_⟩
  · have hresidual := residual_of_pieceOf (hshape.carries dir)
    exact ⟨hresidual, hresidual.length_le, hshape.overflow dir⟩
  · -- Both continue the run, with the same bytes in the same direction.
    have htagged : tagged (calls ++ [⟨dir, a ++ b⟩]) = tagged (calls ++ [⟨dir, a⟩, ⟨dir, b⟩]) := by
      simp [tagged]
    obtain ⟨s₁, s₂', hwhole, hparts, hboth⟩ := halike _ _ htagged
    rw [run_append, hrun, ok_bind] at hwhole hparts
    obtain ⟨s₁', hs₁, hend⟩ := bind_eq_ok.mp hwhole
    cases hend
    obtain ⟨s₂, hs₂, hlast⟩ := bind_eq_ok.mp hparts
    obtain ⟨s₃, hs₃, hend⟩ := bind_eq_ok.mp hlast
    cases hend
    exact ⟨s₁, s₂, s₂', hs₁, hs₂, hs₃, hboth⟩
  · obtain ⟨s', -, hdata, hflow', -⟩ :=
      onData_eq s₀ ⟨flowKey, ts, dir⟩ data (hshape.length_le dir)
    obtain ⟨hcarry, hns⟩ := effect_other ⟨flowKey, ts, dir⟩ (flowOf s₀ flowKey) data hne
    exact ⟨s', hdata, by rw [hflow', hcarry], by rw [hflow', hns]⟩

def stationKey : FlowKey := .new (.v4 1) 1024 (.v4 2) 2404

theorem run_streams_split_start :
    tagged [⟨.clientToServer, [0x68, 4]⟩] =
        tagged [⟨.clientToServer, [0x68]⟩, ⟨.clientToServer, [4]⟩] ∧
    ∃ s s', run (onCall stationKey 0) .new [⟨.clientToServer, [0x68, 4]⟩] = .ok s ∧
      run (onCall stationKey 0) .new [⟨.clientToServer, [0x68]⟩, ⟨.clientToServer, [4]⟩] = .ok s' ∧
      Alike stationKey s s' :=
  ⟨rfl, (run_streams stationKey 0).1 _ _ rfl⟩

end Wirerust.Iec104
