import Mathlib.Algebra.GroupWithZero.Nat
import Wirerust.Lib.Checked

/-!
Where the engine's Rust code can stop. Both build profiles check integer arithmetic
(`overflow-checks = true` in the release profile), so a subtraction below zero is a
panic, as are an addition that leaves its type, a slice out of range, an `unwrap` of `None`
and a failed assertion.
The offsets and byte counts of a stream are `Nat`: payloads are at most `isize::MAX` bytes
long and stream offsets start below `2^32`, so no addition on them leaves 64 bits. The
counters of a whole run are checked (`packet_index`, `bytes_reassembled`, `total_memory`), and
those that saturate do so explicitly. Debug assertions are kept; every run is shown to pass
them, so the release build, which leaves them out, computes the same.
-/

namespace Wirerust

inductive Panic
  | addOverflow
  | subtractOverflow
  | multiplyOverflow
  | shiftOverflow
  | divideByZero
  | sliceIndex
  | unwrapNone
  | assertion
  deriving DecidableEq, Repr

abbrev Checked := Except Panic

def checkedSub (a b : Nat) : Checked Nat :=
  if b ≤ a then .ok (a - b) else .error .subtractOverflow

/-- `n + 1` on a counter of `w` bits. -/
def checkedInc (w n : Nat) : Checked Nat :=
  if n + 1 < 2 ^ w then .ok (n + 1) else .error .addOverflow

/-- `a + b` on counters of `w` bits. -/
def checkedAdd (w a b : Nat) : Checked Nat :=
  if a + b < 2 ^ w then .ok (a + b) else .error .addOverflow

/-- `a * b` on integers of `w` bits. -/
def checkedProduct (w a b : Nat) : Checked Nat :=
  if a * b < 2 ^ w then .ok (a * b) else .error .multiplyOverflow

def checkedDiv (a b : Nat) : Checked Nat :=
  if b = 0 then .error .divideByZero else .ok (a / b)

def checkedRem (a b : Nat) : Checked Nat :=
  if b = 0 then .error .divideByZero else .ok (a % b)

/-- `a << s` on integers of `w` bits: the bits that leave the integer are lost. -/
def checkedShl (w a s : Nat) : Checked Nat :=
  if s < w then .ok (a * 2 ^ s % 2 ^ w) else .error .shiftOverflow

/-- `xs[i]`. -/
def indexAt {α : Type} (xs : List α) (i : Nat) : Checked α :=
  match xs[i]? with
  | some a => .ok a
  | none => .error .sliceIndex

/-- `xs[start..stop]`. -/
def slice {α : Type} (xs : List α) (start stop : Nat) : Checked (List α) :=
  if start ≤ stop ∧ stop ≤ xs.length then .ok ((xs.take stop).drop start)
  else .error .sliceIndex

def unwrap {α : Type} : Option α → Checked α
  | some a => .ok a
  | none => .error .unwrapNone

/-- `assert!` and `debug_assert!`. -/
def assertThat (p : Prop) [Decidable p] : Checked Unit :=
  if p then .ok () else .error .assertion

/-- `saturating_add(1)` on a counter of `w` bits. -/
def saturatingInc (w n : Nat) : Nat := min (n + 1) (2 ^ w - 1)

/-- A counter that has counted `n` steps counts one more. -/
theorem saturatingInc_min (w n : Nat) :
    saturatingInc w (min n (2 ^ w - 1)) = min (n + 1) (2 ^ w - 1) := by
  unfold saturatingInc
  omega

theorem checkedSub_of_le {a b : Nat} (h : b ≤ a) : checkedSub a b = .ok (a - b) := if_pos h

theorem checkedAdd_of_lt {w a b : Nat} (h : a + b < 2 ^ w) : checkedAdd w a b = .ok (a + b) :=
  if_pos h

theorem checkedProduct_of_lt {w a b : Nat} (h : a * b < 2 ^ w) :
    checkedProduct w a b = .ok (a * b) := if_pos h

theorem checkedDiv_of_pos {b : Nat} (h : 0 < b) (a : Nat) : checkedDiv a b = .ok (a / b) :=
  if_neg (Nat.ne_of_gt h)

theorem checkedRem_of_pos {b : Nat} (h : 0 < b) (a : Nat) : checkedRem a b = .ok (a % b) :=
  if_neg (Nat.ne_of_gt h)

theorem checkedShl_of_lt {w a s : Nat} (h : s < w) (h' : a * 2 ^ s < 2 ^ w) :
    checkedShl w a s = .ok (a * 2 ^ s) := by
  rw [checkedShl, if_pos h, Nat.mod_eq_of_lt h']

theorem indexAt_of_some {α : Type} {xs : List α} {i : Nat} {a : α} (h : xs[i]? = some a) :
    indexAt xs i = .ok a := by
  rw [indexAt, h]

theorem checkedInc_eq_ok {w n m : Nat} (h : checkedInc w n = .ok m) : m = n + 1 := by
  unfold checkedInc at h
  split at h
  · cases h
    rfl
  · cases h

theorem checkedInc_returnsIf (w n : Nat) :
    Lib.ReturnsIf (n + 1 < 2 ^ w) (checkedInc w n) (fun m => m = n + 1) :=
  ⟨fun h => ⟨n + 1, if_pos h⟩, fun _ h => checkedInc_eq_ok h⟩

theorem checkedAdd_returnsIf (w a b : Nat) :
    Lib.ReturnsIf (a + b < 2 ^ w) (checkedAdd w a b) (fun c => c = a + b) := by
  unfold checkedAdd
  constructor
  · intro h
    exact ⟨a + b, if_pos h⟩
  · intro c hc
    split at hc
    · cases hc
      rfl
    · cases hc

theorem unwrap_eq_ok {α : Type} {o : Option α} {a : α} (h : unwrap o = .ok a) : o = some a := by
  cases o with
  | none => cases h
  | some b =>
    cases h
    rfl

theorem unwrap_returns {α : Type} {o : Option α} {a : α} (h : o = some a) :
    Lib.Returns (unwrap o) (fun b => b = a) := by
  rw [h]
  exact Lib.Returns.pure rfl

theorem slice_of_le {α : Type} {xs : List α} {start stop : Nat} (h : start ≤ stop)
    (h' : stop ≤ xs.length) : slice xs start stop = .ok ((xs.take stop).drop start) :=
  if_pos ⟨h, h'⟩

theorem assertThat_of {p : Prop} [Decidable p] (h : p) : assertThat p = .ok () := if_pos h

theorem of_assertThat {p : Prop} [Decidable p] {u : Unit} (h : assertThat p = .ok u) : p := by
  unfold assertThat at h
  by_cases hp : p
  · exact hp
  · rw [if_neg hp] at h
    cases h

end Wirerust
