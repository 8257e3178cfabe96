import Mathlib.Algebra.GroupWithZero.Nat
import Wirerust.Lib.Checked
import Wirerust.Lib.SortedMap

/-!
Machines that last as long as their inputs do not cost too much.

`Lasts limit step cost I` says that the invariant after inputs that have cost `n` is `I n`, and that
no step stops while the costs stay below `limit`. `Lasts.run` carries both to every run.

A machine with a table of entries often has counters of its own and others in the entries, and the
entries keep inputs back that no counter has seen. `Backlog.Within` is the invariant of such a
machine: what the counters have seen and what is kept back is together no more than what came in.
-/

namespace Lib

variable {ε σ ι : Type}

structure Lasts (limit : Nat) (step : σ → ι → Except ε σ) (cost : ι → Nat)
    (I : Nat → σ → Prop) : Prop where
  step : ∀ n s i, I n s → ReturnsIf (n + cost i < limit) (step s i) (I (n + cost i))
  mono : ∀ n m s, n ≤ m → I n s → I m s

namespace Lasts

variable {limit : Nat} {step : σ → ι → Except ε σ} {cost : ι → Nat} {I : Nat → σ → Prop}

/-- What a run costs. -/
def spent (cost : ι → Nat) (l : List ι) : Nat := (l.map cost).sum

theorem spent_append (cost : ι → Nat) (l l' : List ι) :
    spent cost (l ++ l') = spent cost l + spent cost l' := by
  simp [spent]

theorem spent_cons (cost : ι → Nat) (i : ι) (l : List ι) :
    spent cost (i :: l) = cost i + spent cost l := by
  simp [spent]

theorem spent_le_of_prefix (cost : ι → Nat) {l l' : List ι} (h : l <+: l') :
    spent cost l ≤ spent cost l' := by
  obtain ⟨rest, rfl⟩ := h
  rw [spent_append]
  exact Nat.le_add_right _ _

theorem of_le (h : Lasts limit step cost I) {limit' : Nat} (hle : limit' ≤ limit) :
    Lasts limit' step cost I where
  step := fun n s i hs => (h.step n s i hs).imp fun hlt => Nat.lt_of_lt_of_le hlt hle
  mono := h.mono

theorem run (h : Lasts limit step cost I) {n : Nat} {s : σ} (hs : I n s) (l : List ι) :
    ReturnsIf (n + spent cost l < limit) (run step s l) (I (n + spent cost l)) := by
  induction l generalizing n s with
  | nil => exact .pure hs
  | cons i l ih =>
    rw [run_cons, spent_cons, ← Nat.add_assoc]
    exact ((h.step n s i hs).imp fun hlt => Nat.lt_of_le_of_lt (Nat.le_add_right _ _) hlt).bind
      fun s' hs' => ih hs'

end Lasts

/-! ## Tables whose entries keep inputs back -/

namespace SortedMap

variable {κ ν : Type} [LinearOrder κ]

theorem sumBy_entry_le (f : ν → Nat) (m : SortedMap κ ν) {fresh : ν} (hfresh : f fresh = 0)
    (k : κ) : f ((m.get? k).getD fresh) ≤ m.sumBy fun e => f e.2 := by
  cases hget : m.get? k with
  | none => exact (Nat.le_of_eq hfresh).trans (Nat.zero_le _)
  | some v =>
    rw [sumBy_erase _ m hget]
    exact Nat.le_add_right _ _

/-- What an entry counts is replaced. -/
theorem sumBy_put (f : ν → Nat) (m : SortedMap κ ν) {fresh : ν} (hfresh : f fresh = 0) (k : κ)
    (v : ν) : (m.insert k v).sumBy (fun e => f e.2) + f ((m.get? k).getD fresh) =
      m.sumBy (fun e => f e.2) + f v := by
  rw [sumBy_insert]
  cases hget : m.get? k with
  | none =>
    rw [Option.getD_none, hfresh, m.erase_of_none hget]
    exact Nat.add_comm (f v) _
  | some v' =>
    rw [Option.getD_some, sumBy_erase _ m hget]
    simp only
    omega

theorem sumBy_erase_le (f : κ × ν → Nat) (m : SortedMap κ ν) (k : κ) :
    (m.erase k).sumBy f ≤ m.sumBy f := by
  cases hget : m.get? k with
  | none => rw [m.erase_of_none hget]
  | some v =>
    rw [sumBy_erase f m hget]
    exact Nat.le_add_left _ _

end SortedMap

/-- Nothing has been counted more than `m` times in the machine (`shared m`), nor in an entry
(`own m`). -/
structure Backlog (σ κ ν : Type) [LinearOrder κ] where
  table : σ → SortedMap κ ν
  fresh : ν
  kept : ν → Nat
  shared : Nat → σ → Prop
  own : Nat → ν → Prop

namespace Backlog

variable {κ ν : Type} [LinearOrder κ] (T : Backlog σ κ ν)

def entry (s : σ) (k : κ) : ν := ((T.table s).get? k).getD T.fresh

def held (s : σ) : Nat := (T.table s).sumBy fun e => T.kept e.2

def Within (n : Nat) (s : σ) : Prop :=
  ∃ m, T.shared m s ∧ (∀ k, T.own m (T.entry s k)) ∧ m + T.held s ≤ n

structure Lawful : Prop where
  fresh_kept : T.kept T.fresh = 0
  fresh_own : ∀ m, T.own m T.fresh
  shared_mono : ∀ m m' s, m ≤ m' → T.shared m s → T.shared m' s
  own_mono : ∀ m m' v, m ≤ m' → T.own m v → T.own m' v

variable {T} {s s' : σ} {n : Nat}

theorem Within.mono (h : T.Within n s) {n' : Nat} (hle : n ≤ n') : T.Within n' s := by
  obtain ⟨m, hshared, hown, hn⟩ := h
  exact ⟨m, hshared, hown, Nat.le_trans hn hle⟩

/-- A call for one key counts some of what came in or had been kept back. -/
def Counts (T : Backlog σ κ ν) (k : κ) (cost m : Nat) (s s' : σ) : Prop :=
  ∃ v c, T.table s' = (T.table s).insert k v ∧ T.shared (m + c) s' ∧ T.own (m + c) v ∧
    c + T.kept v ≤ T.kept (T.entry s k) + cost

theorem Within.call (hT : T.Lawful) {x : Except ε σ} (k : κ) {cost limit : Nat}
    (h : T.Within n s)
    (hcall : ∀ m, T.shared m s → T.own m (T.entry s k) →
      ReturnsIf (m + T.kept (T.entry s k) + cost < limit) x (T.Counts k cost m s)) :
    ReturnsIf (n + cost < limit) x (T.Within (n + cost)) := by
  obtain ⟨m, hshared, hown, hn⟩ := h
  have hkept : T.kept (T.entry s k) ≤ T.held s :=
    SortedMap.sumBy_entry_le T.kept (T.table s) hT.fresh_kept k
  refine ((hcall m hshared (hown k)).imp fun hlt => by omega).mono fun s' hs' => ?_
  obtain ⟨v, c, htable, hshared', hown', hc⟩ := hs'
  have hput : T.held s' + T.kept (T.entry s k) = T.held s + T.kept v := by
    rw [held, htable]
    exact SortedMap.sumBy_put T.kept (T.table s) hT.fresh_kept k v
  refine ⟨m + c, hshared', fun k' => ?_, by omega⟩
  by_cases hk : k' = k
  · rw [entry, htable, hk, SortedMap.get?_insert_self]
    exact hown'
  · rw [entry, htable, SortedMap.get?_insert_of_ne _ _ hk]
    exact hT.own_mono m _ _ (Nat.le_add_right m c) (hown k')

/-- Taking an entry out. -/
theorem Within.close (hT : T.Lawful) (h : T.Within n s) (k : κ)
    (hshared : ∀ m, T.shared m s → T.shared m s') (htable : T.table s' = (T.table s).erase k) :
    T.Within n s' := by
  obtain ⟨m, hs, hown, hn⟩ := h
  refine ⟨m, hshared m hs, fun k' => ?_, Nat.le_trans (Nat.add_le_add_left ?_ m) hn⟩
  · by_cases hk : k' = k
    · have hnew : T.entry s' k' = T.fresh := by
        rw [entry, htable, hk, SortedMap.get?_erase_self, Option.getD_none]
      rw [hnew]
      exact hT.fresh_own m
    · have hsame : T.entry s' k' = T.entry s k' := by
        rw [entry, entry, htable, SortedMap.get?_erase_of_ne _ hk]
      rw [hsame]
      exact hown k'
  · rw [held, htable]
    exact SortedMap.sumBy_erase_le _ _ k

end Backlog

end Lib
