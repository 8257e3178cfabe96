import Mathlib.Data.List.Dedup
import Mathlib.Data.List.Count
import Wirerust.Lib.SortedMap

/-!
Maps that count what has been seen.

`Tallies m seen` says that the map `m` holds, for each key of the list `seen`, how often it occurs
there, and no other key. Counting one more key keeps this (`Tallies.snoc`), and the map is as large
as there are different keys (`Tallies.size_eq`).
-/

namespace Lib

variable {κ : Type} [LinearOrder κ]

def Tallies (m : SortedMap κ Nat) (seen : List κ) : Prop :=
  ∀ k, m.get? k = if k ∈ seen then some (seen.count k) else none

namespace Tallies

theorem empty : Tallies (.empty : SortedMap κ Nat) [] := by
  intro k
  simp

variable {m : SortedMap κ Nat} {seen : List κ}

theorem getD_eq (h : Tallies m seen) (k : κ) : (m.get? k).getD 0 = seen.count k := by
  rw [h k]
  by_cases hmem : k ∈ seen
  · rw [if_pos hmem]
    rfl
  · rw [if_neg hmem, List.count_eq_zero_of_not_mem hmem]
    rfl

theorem isSome_iff (h : Tallies m seen) (k : κ) : (m.get? k).isSome = true ↔ k ∈ seen := by
  rw [h k]
  by_cases hmem : k ∈ seen
  · simp [hmem]
  · simp [hmem]

theorem snoc (h : Tallies m seen) (k : κ) :
    Tallies (m.insert k ((m.get? k).getD 0 + 1)) (seen ++ [k]) := by
  intro other
  by_cases hk : other = k
  · subst hk
    rw [SortedMap.get?_insert_self, h.getD_eq, if_pos (by simp)]
    simp
  · have hmem : other ∈ seen ++ [k] ↔ other ∈ seen := by simp [hk]
    have hcount : (seen ++ [k]).count other = seen.count other := by
      rw [List.count_append, List.count_singleton, if_neg (by simpa using Ne.symm hk)]
      rfl
    rw [SortedMap.get?_insert_of_ne _ _ hk, h other]
    simp only [hmem, hcount]

/-- The keys of the map, in any order, are the different keys seen. -/
theorem keys_perm (h : Tallies m seen) : (m.entries.map Prod.fst).Perm seen.dedup := by
  have hnodup : (m.entries.map Prod.fst).Nodup := by
    have hsorted : (m.entries.map Prod.fst).Pairwise (· < ·) := List.pairwise_map.mpr m.sorted
    exact hsorted.imp ne_of_lt
  refine (List.perm_ext_iff_of_nodup hnodup seen.nodup_dedup).mpr fun k => ?_
  rw [List.mem_dedup, ← h.isSome_iff, Option.isSome_iff_exists]
  constructor
  · intro hmem
    obtain ⟨⟨k', n⟩, hentry, rfl⟩ := List.mem_map.mp hmem
    exact ⟨n, (m.get?_eq_some_iff _ _).mpr hentry⟩
  · rintro ⟨n, hget⟩
    exact List.mem_map.mpr ⟨(k, n), (m.get?_eq_some_iff _ _).mp hget, rfl⟩

theorem size_eq (h : Tallies m seen) : m.size = seen.dedup.length := by
  rw [← h.keys_perm.length_eq, List.length_map]
  rfl

end Tallies

theorem dedup_length_snoc {seen : List κ} {k : κ} (h : k ∉ seen) :
    (seen ++ [k]).dedup.length = seen.dedup.length + 1 := by
  have hperm : (seen ++ [k]).Perm (k :: seen) := List.perm_append_singleton k seen
  rw [hperm.dedup.length_eq, List.dedup_cons_of_notMem h, List.length_cons]

theorem dedup_length_mono {seen more : List κ} (h : seen <+: more) :
    seen.dedup.length ≤ more.dedup.length := by
  refine (List.subperm_of_subset seen.nodup_dedup fun k hk => ?_).length_le
  rw [List.mem_dedup] at hk ⊢
  exact h.subset hk

/-- A map that takes a new key only below a limit takes this one. -/
theorem Tallies.accepts {m : SortedMap κ Nat} {seen : List κ} (h : Tallies m seen) {k : κ}
    {limit : Nat} (hlimit : (seen ++ [k]).dedup.length ≤ limit) :
    (m.size < limit || (m.get? k).isSome) = true := by
  rw [Bool.or_eq_true, decide_eq_true_eq, h.isSome_iff]
  by_cases hmem : k ∈ seen
  · exact .inr hmem
  · rw [dedup_length_snoc hmem, ← h.size_eq] at hlimit
    exact .inl hlimit

end Lib
