import Wirerust.Analyzer.Common
import Wirerust.Lib.Closing
import Wirerust.Lib.Sorting
import Wirerust.Reporter.Terminal

/-!
Summaries of the analyzers (`summarize`).

What an analyzer counts for a flow is in its table as long as the flow is open, and goes to the sums
of the closed flows when the flow is closed. A summary puts the two together again, so moving one
entry from the table to the sums does not change it: the sums saturate, and adding what is in the
table does not depend on its order (`SortedMap.foldl_erase`).
-/

namespace Lib.SortedMap

variable {κ ν β : Type} [LinearOrder κ]

/-- An entry may as well come first if the order of the entries makes no difference. -/
theorem foldl_erase {m : SortedMap κ ν} {k : κ} {v : ν} (h : m.get? k = some v)
    {f : β → κ × ν → β} (hcomm : ∀ b e e', f (f b e) e' = f (f b e') e) (b : β) :
    m.entries.foldl f b = (m.erase k).entries.foldl f (f b (k, v)) :=
  (m.erase_perm h).foldl_eq' (fun e _ e' _ b => hcomm b e e') b

theorem erase_insert_of_ne (m : SortedMap κ ν) {k k' : κ} (v : ν) (h : k ≠ k') :
    (m.erase k').insert k v = (m.insert k v).erase k' := by
  apply ext_get?
  intro j
  by_cases hk : j = k
  · rw [hk, get?_insert_self, get?_erase_of_ne _ h, get?_insert_self]
  · by_cases hk' : j = k'
    · rw [hk', get?_insert_of_ne _ _ (Ne.symm h), get?_erase_self, get?_erase_self]
    · rw [get?_insert_of_ne _ _ hk, get?_erase_of_ne _ hk', get?_erase_of_ne _ hk',
        get?_insert_of_ne _ _ hk]

theorem insert_erase (m : SortedMap κ ν) (k : κ) (v : ν) :
    (m.erase k).insert k v = m.insert k v := by
  apply ext_get?
  intro j
  by_cases hk : j = k
  · rw [hk, get?_insert_self, get?_insert_self]
  · rw [get?_insert_of_ne _ _ hk, get?_insert_of_ne _ _ hk, get?_erase_of_ne _ hk]

end Lib.SortedMap

namespace Wirerust.Analyzer

open Lib Wirerust.Terminal

/-- The JSON values of the details. The members of an object are in the order of their names. -/
inductive Value
  | number (n : Nat)
  | object (members : List (String × Value))

/-- `collect` into a map: of two entries with one key, the later one stays. -/
def collect {ν : Type} (entries : List (String × ν)) : SortedMap String ν :=
  entries.foldl (fun m e => m.insert e.1 e.2) .empty

/-- `saturating_add` on 64 bits. -/
def saturatingAdd (m n : Nat) : Nat := min (m + n) (2 ^ 64 - 1)

theorem saturatingAdd_assoc (l m n : Nat) :
    saturatingAdd (saturatingAdd l m) n = saturatingAdd l (m + n) := by
  unfold saturatingAdd
  omega

theorem saturatingAdd_right_comm (l m n : Nat) :
    saturatingAdd (saturatingAdd l m) n = saturatingAdd (saturatingAdd l n) m := by
  rw [saturatingAdd_assoc, saturatingAdd_assoc, Nat.add_comm m n]

section Sums

variable {κ ν : Type} [LinearOrder κ]

/-- `values().map(field).sum()` -/
def sumValues (field : ν → Nat) (m : SortedMap κ ν) : Checked Nat :=
  m.entries.foldlM (fun acc e => checkedAdd 64 acc (field e.2)) 0

def total (field : ν → Nat) (m : SortedMap κ ν) : Nat := m.sumBy fun e => field e.2

theorem sumValues_eq_ok {field : ν → Nat} {m : SortedMap κ ν} (h : total field m < 2 ^ 64) :
    sumValues field m = .ok (total field m) := by
  suffices hfold : ∀ (es : List (κ × ν)) (acc : Nat),
      acc + (es.map fun e => field e.2).sum < 2 ^ 64 →
      es.foldlM (fun acc e => checkedAdd 64 acc (field e.2)) acc =
        .ok (acc + (es.map fun e => field e.2).sum) by
    have hall := hfold m.entries 0 (by rw [Nat.zero_add]; exact h)
    rw [Nat.zero_add] at hall
    exact hall
  intro es
  induction es with
  | nil => exact fun acc _ => rfl
  | cons e es ih =>
    intro acc hacc
    simp only [List.map_cons, List.sum_cons] at hacc ⊢
    have hadd : checkedAdd 64 acc (field e.2) = .ok (acc + field e.2) := if_pos (by omega)
    rw [List.foldlM_cons, hadd, ok_bind, ih (acc + field e.2) (by omega), Nat.add_assoc]

theorem total_erase (field : ν → Nat) {m : SortedMap κ ν} {k : κ} {v : ν}
    (h : m.get? k = some v) : total field m = field v + total field (m.erase k) :=
  m.sumBy_erase _ h

/-- The sum of the closed flows and of the open ones. -/
def combined (field : ν → Nat) (closed : Nat) (m : SortedMap κ ν) : Checked Nat := do
  let opened ← sumValues field m
  .ok (saturatingAdd closed opened)

theorem combined_eq_ok {field : ν → Nat} {m : SortedMap κ ν} (h : total field m < 2 ^ 64)
    (closed : Nat) : combined field closed m = .ok (saturatingAdd closed (total field m)) := by
  rw [combined, sumValues_eq_ok h, ok_bind]

/-- It does not matter which of the two an entry is in. -/
theorem combined_erase {field : ν → Nat} {m : SortedMap κ ν} {k : κ} {v : ν}
    (h : m.get? k = some v) (hsum : total field m < 2 ^ 64) (closed : Nat) :
    combined field (saturatingAdd closed (field v)) (m.erase k) = combined field closed m := by
  have hall := total_erase field h
  rw [combined_eq_ok hsum, combined_eq_ok (by omega), hall, saturatingAdd_assoc]

/-- How many flows there have been. -/
theorem size_erase {m : SortedMap κ ν} {k : κ} {v : ν} (h : m.get? k = some v) (closed : Nat) :
    saturatingAdd (bump64 closed) (m.erase k).size = saturatingAdd closed m.size := by
  have hsize := m.size_erase_of_some h
  unfold saturatingAdd bump64 saturatingInc
  omega

end Sums

end Wirerust.Analyzer
