import Wirerust.Packet
import Wirerust.Reassembly.Segment

/-!
Flows (`flow.rs`) and the vocabulary shared with stream handlers (`handler.rs`).

A `FlowKey` is the pair of endpoints of a connection, put in order so that both directions
have the same key (`FlowKey.new_comm`). A `TcpFlow` has one `FlowDirection` for each side
and a state machine driven by the flags of its packets.
-/

namespace Wirerust.Flow

open Lib Wirerust.Segment

/-- An address and a port. -/
abbrev Endpoint := IpAddr × UInt16

/-- `a <= b` on `(IpAddr, u16)` tuples. -/
def endpointLe (a b : Endpoint) : Bool := a.1 < b.1 || (a.1 == b.1 && a.2 ≤ b.2)

def endpointRank (e : Endpoint) : Nat := e.1.rank * 2 ^ 16 + e.2.toNat

theorem endpointRank_lt (e : Endpoint) : endpointRank e < 2 ^ 145 := by
  have h := e.1.rank_lt
  have h' := e.2.toNat_lt
  unfold endpointRank
  omega

theorem endpointRank_injective : Function.Injective endpointRank := by
  rintro ⟨ip, port⟩ ⟨ip', port'⟩ h
  have hp := port.toNat_lt
  have hp' := port'.toNat_lt
  simp only [endpointRank] at h
  have hip : ip.rank = ip'.rank := by omega
  have hport : port.toNat = port'.toNat := by omega
  rw [IpAddr.rank_injective hip, UInt16.toNat_inj.mp hport]

theorem endpointLe_iff (a b : Endpoint) :
    endpointLe a b = true ↔ endpointRank a ≤ endpointRank b := by
  obtain ⟨ip, port⟩ := a
  obtain ⟨ip', port'⟩ := b
  have hp := port.toNat_lt
  have hp' := port'.toNat_lt
  have hlt : ip < ip' ↔ ip.rank < ip'.rank := Iff.rfl
  have heq : ip = ip' ↔ ip.rank = ip'.rank := IpAddr.rank_injective.eq_iff.symm
  simp only [endpointLe, Bool.or_eq_true, Bool.and_eq_true, decide_eq_true_eq, beq_iff_eq, hlt,
    heq, UInt16.le_iff_toNat_le, endpointRank]
  omega

/-! ## Keys -/

structure FlowKey where
  lowerIp : IpAddr
  lowerPort : UInt16
  upperIp : IpAddr
  upperPort : UInt16
  ordered : endpointLe (lowerIp, lowerPort) (upperIp, upperPort) = true
  deriving DecidableEq

namespace FlowKey

def new (ipA : IpAddr) (portA : UInt16) (ipB : IpAddr) (portB : UInt16) : FlowKey :=
  if h : endpointLe (ipA, portA) (ipB, portB) = true then
    ⟨ipA, portA, ipB, portB, h⟩
  else
    ⟨ipB, portB, ipA, portA, by
      rw [endpointLe_iff] at h ⊢
      omega⟩

def lower (k : FlowKey) : Endpoint := (k.lowerIp, k.lowerPort)

def upper (k : FlowKey) : Endpoint := (k.upperIp, k.upperPort)

/-- The place of a key in the order of its four fields. -/
def rank (k : FlowKey) : Nat := endpointRank k.lower * 2 ^ 145 + endpointRank k.upper

theorem rank_injective : Function.Injective rank := by
  intro k k' h
  have hu := endpointRank_lt k.upper
  have hu' := endpointRank_lt k'.upper
  simp only [rank] at h
  have hl : k.lower = k'.lower := endpointRank_injective (by omega)
  have hup : k.upper = k'.upper := endpointRank_injective (by omega)
  cases k
  cases k'
  simp only [lower, upper, Prod.mk.injEq] at hl hup
  simp only [hl.1, hl.2, hup.1, hup.2]

instance : LinearOrder FlowKey := LinearOrder.lift' rank rank_injective

/-- The two endpoints of a key are those it was made from. -/
theorem new_endpoints (a b : Endpoint) :
    ((new a.1 a.2 b.1 b.2).lower = a ∧ (new a.1 a.2 b.1 b.2).upper = b) ∨
      ((new a.1 a.2 b.1 b.2).lower = b ∧ (new a.1 a.2 b.1 b.2).upper = a) := by
  unfold new
  split
  · exact .inl ⟨rfl, rfl⟩
  · exact .inr ⟨rfl, rfl⟩

/-- Packets of either direction have the same key. -/
theorem new_comm (a b : Endpoint) : new a.1 a.2 b.1 b.2 = new b.1 b.2 a.1 a.2 := by
  have hle := (endpointLe_iff a b)
  have hge := (endpointLe_iff b a)
  unfold new
  by_cases h : endpointLe (a.1, a.2) (b.1, b.2) = true
  · by_cases h' : endpointLe (b.1, b.2) (a.1, a.2) = true
    · have heq : a = b := endpointRank_injective (Nat.le_antisymm (hle.mp h) (hge.mp h'))
      subst heq
      rfl
    · rw [dif_pos h, dif_neg h']
  · have h' : endpointLe (b.1, b.2) (a.1, a.2) = true := by
      rw [hge]
      rw [hle] at h
      omega
    rw [dif_neg h, dif_pos h']

def display (k : FlowKey) : String :=
  k.lowerIp.display ++ ":" ++ toString k.lowerPort ++ " → " ++
    k.upperIp.display ++ ":" ++ toString k.upperPort

end FlowKey

/-! ## Flows -/

inductive Direction
  | clientToServer
  | serverToClient
  deriving DecidableEq, Repr

/-- Two different directions are the two there are. -/
@[elab_as_elim]
theorem Direction.ne_cases {motive : Direction → Direction → Prop}
    (client : motive .clientToServer .serverToClient)
    (server : motive .serverToClient .clientToServer) {dir other : Direction}
    (h : other ≠ dir) : motive dir other := by
  cases dir with
  | clientToServer =>
    cases other with
    | clientToServer => exact absurd rfl h
    | serverToClient => exact client
  | serverToClient =>
    cases other with
    | clientToServer => exact server
    | serverToClient => exact absurd rfl h

inductive CloseReason
  | fin
  | rst
  | timeout
  | memoryPressure
  deriving DecidableEq, Repr

inductive FlowState
  | new
  | synSent
  | established
  | closing
  | closed
  deriving DecidableEq, Repr

structure TcpFlow where
  key : FlowKey
  clientToServer : FlowDirection
  serverToClient : FlowDirection
  state : FlowState
  partialFlow : Bool
  firstSeen : UInt32
  lastSeen : UInt32
  lastActivityIndex : Nat
  initiator : Option Endpoint
  finCount : Nat

namespace TcpFlow

def new (key : FlowKey) (timestamp : UInt32) : TcpFlow where
  key := key
  clientToServer := .new
  serverToClient := .new
  state := .new
  partialFlow := false
  firstSeen := timestamp
  lastSeen := timestamp
  lastActivityIndex := 0
  initiator := none
  finCount := 0

def setInitiator (f : TcpFlow) (e : Endpoint) : TcpFlow :=
  if f.initiator.isNone then { f with initiator := some e } else f

/-- Without a recorded initiator every source counts as the server. -/
def direction (f : TcpFlow) (src : Endpoint) : Direction :=
  if f.initiator = some src then .clientToServer else .serverToClient

/-- `get_direction_mut`, as a read. -/
def dir (f : TcpFlow) : Direction → FlowDirection
  | .clientToServer => f.clientToServer
  | .serverToClient => f.serverToClient

/-- `get_direction_mut`, as a write. -/
def setDir (f : TcpFlow) (which : Direction) (d : FlowDirection) : TcpFlow :=
  match which with
  | .clientToServer => { f with clientToServer := d }
  | .serverToClient => { f with serverToClient := d }

def onSyn (f : TcpFlow) : TcpFlow :=
  if f.state = .new then { f with state := .synSent } else f

def onSynAck (f : TcpFlow) : TcpFlow :=
  if f.state = .synSent ∨ f.state = .new then { f with state := .established } else f

def onDataWithoutSyn (f : TcpFlow) : TcpFlow :=
  if f.state = .new then { f with state := .established, partialFlow := true } else f

def onFin (f : TcpFlow) : TcpFlow :=
  let f := { f with finCount := saturatingInc 8 f.finCount }
  if f.finCount ≥ 2 then { f with state := .closed }
  else if f.state = .established ∨ f.state = .synSent then { f with state := .closing }
  else f

def onRst (f : TcpFlow) : TcpFlow := { f with state := .closed }

def memoryUsed (f : TcpFlow) : Checked Nat := do
  .ok ((← Segment.memoryUsed f.clientToServer) + (← Segment.memoryUsed f.serverToClient))

@[simp] theorem dir_setDir_self (f : TcpFlow) (w : Direction) (d : FlowDirection) :
    (f.setDir w d).dir w = d := by
  cases w <;> rfl

theorem dir_setDir_of_ne (f : TcpFlow) {w w' : Direction} (h : w' ≠ w) (d : FlowDirection) :
    (f.setDir w d).dir w' = f.dir w' := by
  cases w <;> cases w' <;> first | rfl | exact absurd rfl h

@[simp] theorem setDir_dir (f : TcpFlow) (w : Direction) : f.setDir w (f.dir w) = f := by
  cases w <;> rfl

@[simp] theorem direction_setDir (f : TcpFlow) (w : Direction) (d : FlowDirection)
    (src : Endpoint) : (f.setDir w d).direction src = f.direction src := by
  cases w <;> rfl

@[simp] theorem setDir_setDir (f : TcpFlow) (w : Direction) (d d' : FlowDirection) :
    (f.setDir w d).setDir w d' = f.setDir w d' := by
  cases w <;> rfl

end TcpFlow

end Wirerust.Flow
