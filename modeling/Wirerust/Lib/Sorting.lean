import Mathlib.Data.List.Sort
import Wirerust.Lib.SortedMap

/-!
Sorting by a key.

The sort is stable: it keeps the order of the entries that have the same key
(`entriesOf_sortByKey`). So lists that agree on the entries of every key have the same sort
(`sortByKey_congr`).
-/

namespace Lib

variable {κ ν ν' : Type} [LinearOrder κ]

/-! ## The entries of a key -/

def entriesOf (k : κ) (l : List (κ × ν)) : List (κ × ν) := l.filter fun e => e.1 = k

theorem entriesOf_append (k : κ) (l l' : List (κ × ν)) :
    entriesOf k (l ++ l') = entriesOf k l ++ entriesOf k l' := List.filter_append l l'

theorem entriesOf_cons_self (e : κ × ν) (l : List (κ × ν)) :
    entriesOf e.1 (e :: l) = e :: entriesOf e.1 l := List.filter_cons_of_pos (by simp)

theorem entriesOf_cons_of_ne {k : κ} {e : κ × ν} (h : e.1 ≠ k) (l : List (κ × ν)) :
    entriesOf k (e :: l) = entriesOf k l := List.filter_cons_of_neg (by simpa using h)

theorem entriesOf_map (f : ν → ν') (k : κ) (l : List (κ × ν)) :
    entriesOf k (l.map fun e => (e.1, f e.2)) = (entriesOf k l).map fun e => (e.1, f e.2) :=
  List.filter_map

/-- There is at most one entry for a key of a map. -/
theorem entriesOf_entries (m : SortedMap κ ν) (k : κ) :
    entriesOf k m.entries = (m.get? k).toList.map fun v => (k, v) := by
  cases hget : m.get? k with
  | none =>
    rw [Option.toList_none, List.map_nil, entriesOf, List.filter_eq_nil_iff]
    intro e he hk
    rw [decide_eq_true_eq] at hk
    exact (m.get?_eq_none_iff k).mp hget e.2 (by rw [← hk]; exact he)
  | some v =>
    have hperm := (m.erase_perm hget).filter fun e => e.1 = k
    have hnone : (m.erase k).entries.filter (fun e => e.1 = k) = [] := by
      rw [List.filter_eq_nil_iff]
      intro e he hk
      exact ((m.mem_erase k e).mp he).2 (by simpa using hk)
    rw [List.filter_cons_of_pos (by simp), hnone] at hperm
    rw [entriesOf, List.perm_singleton.mp hperm]
    rfl

/-! ## The sort -/

def keyLe (a b : κ × ν) : Prop := a.1 ≤ b.1

instance : DecidableRel (keyLe : κ × ν → κ × ν → Prop) := fun a b =>
  inferInstanceAs (Decidable (a.1 ≤ b.1))

instance : Std.Total (keyLe : κ × ν → κ × ν → Prop) := ⟨fun a b => le_total a.1 b.1⟩

instance : IsTrans (κ × ν) keyLe := ⟨fun _ _ _ => le_trans (α := κ)⟩

/-- `sort_by_key` -/
def sortByKey (l : List (κ × ν)) : List (κ × ν) := l.insertionSort keyLe

theorem pairwise_sortByKey (l : List (κ × ν)) : (sortByKey l).Pairwise keyLe :=
  List.pairwise_insertionSort keyLe l

theorem entriesOf_sortByKey (k : κ) (l : List (κ × ν)) :
    entriesOf k (sortByKey l) = entriesOf k l := by
  have hsame : (entriesOf k l).Pairwise keyLe := by
    refine List.pairwise_of_forall_mem_list fun a ha b hb => ?_
    simp only [entriesOf, List.mem_filter, decide_eq_true_eq] at ha hb
    rw [keyLe, ha.2, hb.2]
  have hsub : (entriesOf k l).Sublist (sortByKey l) :=
    List.sublist_insertionSort hsame List.filter_sublist
  have hfilter := hsub.filter (fun e => decide (e.1 = k))
  rw [entriesOf, List.filter_filter] at hfilter
  simp only [Bool.and_self] at hfilter
  have hperm : (entriesOf k (sortByKey l)).Perm (entriesOf k l) :=
    (List.perm_insertionSort keyLe l).filter _
  exact (hfilter.eq_of_length hperm.length_eq.symm).symm

/-- Sorted lists that agree on the entries of every key are the same. -/
theorem eq_of_entriesOf {l l' : List (κ × ν)} (hl : l.Pairwise keyLe) (hl' : l'.Pairwise keyLe)
    (h : ∀ k, entriesOf k l = entriesOf k l') : l = l' := by
  induction l generalizing l' with
  | nil =>
    cases l' with
    | nil => rfl
    | cons b l' =>
      have hb := h b.1
      rw [entriesOf_cons_self] at hb
      cases hb
  | cons a l ih =>
    cases l' with
    | nil =>
      have ha := h a.1
      rw [entriesOf_cons_self] at ha
      cases ha
    | cons b l' =>
      obtain ⟨hal, htail⟩ := List.pairwise_cons.mp hl
      obtain ⟨hbl', htail'⟩ := List.pairwise_cons.mp hl'
      have hab : a.1 ≤ b.1 := by
        have hb : b ∈ entriesOf b.1 (a :: l) := by
          rw [h b.1, entriesOf_cons_self]
          exact List.mem_cons_self
        rcases List.mem_cons.mp (List.mem_filter.mp hb).1 with heq | hmem
        · rw [heq]
        · exact hal b hmem
      have hba : b.1 ≤ a.1 := by
        have ha : a ∈ entriesOf a.1 (b :: l') := by
          rw [← h a.1, entriesOf_cons_self]
          exact List.mem_cons_self
        rcases List.mem_cons.mp (List.mem_filter.mp ha).1 with heq | hmem
        · rw [heq]
        · exact hbl' a hmem
      have hkey : a.1 = b.1 := le_antisymm hab hba
      have hhead := h a.1
      rw [entriesOf_cons_self, hkey, entriesOf_cons_self] at hhead
      obtain ⟨rfl, -⟩ := List.cons.inj hhead
      congr 1
      refine ih htail htail' fun k => ?_
      have hk := h k
      by_cases hak : a.1 = k
      · subst hak
        rw [entriesOf_cons_self, entriesOf_cons_self] at hk
        exact (List.cons.inj hk).2
      · rw [entriesOf_cons_of_ne hak, entriesOf_cons_of_ne hak] at hk
        exact hk

theorem sortByKey_congr {l l' : List (κ × ν)} (h : ∀ k, entriesOf k l = entriesOf k l') :
    sortByKey l = sortByKey l' := by
  refine eq_of_entriesOf (pairwise_sortByKey l) (pairwise_sortByKey l') fun k => ?_
  rw [entriesOf_sortByKey, entriesOf_sortByKey, h k]

end Lib
