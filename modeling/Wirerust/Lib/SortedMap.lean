import Mathlib.Algebra.GroupWithZero.Nat
import Mathlib.Order.Lattice

/-!
Finite maps as key-sorted association lists, with the order carried as a field.
Lookup determines the map. Insertion and erasure are described twice: by what
`get?` returns afterwards, and by a permutation of the entries, from which sums
over the entries and the size follow.
-/

namespace Lib

universe u v

structure SortedMap (κ : Type u) (ν : Type v) [LinearOrder κ] where
  entries : List (κ × ν)
  sorted : entries.Pairwise (fun a b => a.1 < b.1)
  deriving DecidableEq

namespace SortedMap

variable {κ : Type u} {ν : Type v} [LinearOrder κ]

def empty : SortedMap κ ν := ⟨[], List.Pairwise.nil⟩

def size (m : SortedMap κ ν) : Nat := m.entries.length

def get? (m : SortedMap κ ν) (k : κ) : Option ν :=
  (m.entries.find? (fun e => e.1 = k)).map Prod.snd

def insertList (k : κ) (v : ν) : List (κ × ν) → List (κ × ν)
  | [] => [(k, v)]
  | e :: es =>
    if k < e.1 then (k, v) :: e :: es
    else if k = e.1 then (k, v) :: es
    else e :: insertList k v es

theorem mem_insertList (k : κ) (v : ν) (es : List (κ × ν)) (e : κ × ν)
    (he : e ∈ insertList k v es) : e = (k, v) ∨ e ∈ es := by
  induction es with
  | nil => simpa [insertList] using he
  | cons a es ih =>
    simp only [insertList] at he
    split at he
    · simpa using he
    · split at he
      · rcases List.mem_cons.mp he with h | h
        · exact Or.inl h
        · exact Or.inr (List.mem_cons_of_mem _ h)
      · rcases List.mem_cons.mp he with h | h
        · exact Or.inr (by simp [h])
        · rcases ih h with h | h
          · exact Or.inl h
          · exact Or.inr (List.mem_cons_of_mem _ h)

theorem sorted_insertList (k : κ) (v : ν) (es : List (κ × ν))
    (h : es.Pairwise (fun a b => a.1 < b.1)) :
    (insertList k v es).Pairwise (fun a b => a.1 < b.1) := by
  induction es with
  | nil => simp [insertList]
  | cons a es ih =>
    obtain ⟨ha, hes⟩ := List.pairwise_cons.mp h
    simp only [insertList]
    split
    · rename_i hlt
      refine List.pairwise_cons.mpr ⟨fun e he => ?_, h⟩
      rcases List.mem_cons.mp he with he | he
      · rw [he]; exact hlt
      · exact lt_trans hlt (ha e he)
    · rename_i hge
      split
      · rename_i heq
        refine List.pairwise_cons.mpr ⟨fun e he => ?_, hes⟩
        rw [heq]; exact ha e he
      · rename_i hne
        refine List.pairwise_cons.mpr ⟨fun e he => ?_, ih hes⟩
        rcases mem_insertList k v es e he with he | he
        · rw [he]; exact lt_of_le_of_ne (not_lt.mp hge) (Ne.symm hne)
        · exact ha e he

def insert (m : SortedMap κ ν) (k : κ) (v : ν) : SortedMap κ ν :=
  ⟨insertList k v m.entries, sorted_insertList k v m.entries m.sorted⟩

def erase (m : SortedMap κ ν) (k : κ) : SortedMap κ ν :=
  ⟨m.entries.filter (fun e => e.1 ≠ k), m.sorted.filter _⟩

@[simp] theorem get?_empty (k : κ) : (empty : SortedMap κ ν).get? k = none := rfl

/-- Two entries with one key are the same entry. -/
theorem eq_of_mem_of_key_eq (m : SortedMap κ ν) {a b : κ × ν}
    (ha : a ∈ m.entries) (hb : b ∈ m.entries) (h : a.1 = b.1) : a = b := by
  obtain ⟨es, hs⟩ := m
  simp only at ha hb
  induction es with
  | nil => simp at ha
  | cons e es ih =>
    obtain ⟨he, hes⟩ := List.pairwise_cons.mp hs
    rcases List.mem_cons.mp ha with ha | ha <;> rcases List.mem_cons.mp hb with hb | hb
    · rw [ha, hb]
    · have := he b hb
      rw [← ha, h] at this
      exact absurd this (lt_irrefl _)
    · have := he a ha
      rw [← hb, h] at this
      exact absurd this (lt_irrefl _)
    · exact ih hes ha hb

theorem get?_eq_some_iff (m : SortedMap κ ν) (k : κ) (v : ν) :
    m.get? k = some v ↔ (k, v) ∈ m.entries := by
  constructor
  · intro h
    obtain ⟨e, he, rfl⟩ := Option.map_eq_some_iff.mp h
    have hk : e.1 = k := by simpa using List.find?_some he
    rw [← hk]
    exact List.mem_of_find?_eq_some he
  · intro h
    cases hf : m.entries.find? (fun e => e.1 = k) with
    | none => exact absurd (List.find?_eq_none.mp hf _ h) (by simp)
    | some e =>
      have hk : e.1 = k := by simpa using List.find?_some hf
      have := m.eq_of_mem_of_key_eq (List.mem_of_find?_eq_some hf) h hk
      simp [get?, hf, this]

theorem get?_eq_none_iff (m : SortedMap κ ν) (k : κ) :
    m.get? k = none ↔ ∀ v, (k, v) ∉ m.entries := by
  constructor
  · intro h v hv
    rw [(m.get?_eq_some_iff k v).mpr hv] at h
    cases h
  · intro h
    cases hg : m.get? k with
    | none => rfl
    | some v => exact absurd ((m.get?_eq_some_iff k v).mp hg) (h v)

theorem mem_erase (m : SortedMap κ ν) (k : κ) (e : κ × ν) :
    e ∈ (m.erase k).entries ↔ e ∈ m.entries ∧ e.1 ≠ k := by
  simp [erase]

/-- The entries after an insertion: the new one, and the old ones without its key. -/
theorem insert_perm (m : SortedMap κ ν) (k : κ) (v : ν) :
    (m.insert k v).entries.Perm ((k, v) :: (m.erase k).entries) := by
  obtain ⟨es, hs⟩ := m
  simp only [insert, erase]
  induction es with
  | nil => simp [insertList]
  | cons e es ih =>
    obtain ⟨he, hes⟩ := List.pairwise_cons.mp hs
    simp only [insertList]
    split
    · rename_i hlt
      have hne : e.1 ≠ k := ne_of_gt hlt
      have hall : es.filter (fun e => e.1 ≠ k) = es := by
        rw [List.filter_eq_self]
        intro a ha
        simpa using ne_of_gt (lt_trans hlt (he a ha))
      rw [List.filter_cons_of_pos (by simpa using hne), hall]
    · split
      · rename_i heq
        have hall : es.filter (fun e => e.1 ≠ k) = es := by
          rw [List.filter_eq_self]
          intro a ha
          rw [heq]
          simpa using ne_of_gt (he a ha)
        rw [List.filter_cons_of_neg (by simp [heq]), hall]
      · rename_i hne
        rw [List.filter_cons_of_pos (by simpa using Ne.symm hne)]
        exact ((ih hes).cons e).trans (List.Perm.swap _ _ _)

/-- The entries of a map that has the key: that entry, and the map without it. -/
theorem erase_perm (m : SortedMap κ ν) {k : κ} {v : ν} (h : m.get? k = some v) :
    m.entries.Perm ((k, v) :: (m.erase k).entries) := by
  have hmem := (m.get?_eq_some_iff k v).mp h
  obtain ⟨pre, post, hsplit⟩ := List.append_of_mem hmem
  have hs := m.sorted
  rw [hsplit, List.pairwise_append, List.pairwise_cons] at hs
  obtain ⟨_, ⟨hpost, _⟩, hcross⟩ := hs
  have hpre : pre.filter (fun e => e.1 ≠ k) = pre := by
    rw [List.filter_eq_self]
    intro a ha
    simpa using ne_of_lt (hcross a ha (k, v) (by simp))
  have hpos : post.filter (fun e => e.1 ≠ k) = post := by
    rw [List.filter_eq_self]
    intro a ha
    simpa using ne_of_gt (hpost a ha)
  have he : (m.erase k).entries = pre ++ post := by
    simp only [erase, hsplit, List.filter_append]
    rw [hpre, List.filter_cons_of_neg (by simp), hpos]
  rw [he, hsplit]
  exact List.perm_middle

theorem erase_of_none (m : SortedMap κ ν) {k : κ} (h : m.get? k = none) : m.erase k = m := by
  have : m.entries.filter (fun e => e.1 ≠ k) = m.entries := by
    rw [List.filter_eq_self]
    intro a ha
    simp only [decide_eq_true_eq]
    intro hk
    exact (m.get?_eq_none_iff k).mp h a.2 (by rw [← hk]; exact ha)
  cases m
  simp only [erase, SortedMap.mk.injEq]
  exact this

theorem mem_insert (m : SortedMap κ ν) (k : κ) (v : ν) (e : κ × ν) :
    e ∈ (m.insert k v).entries ↔ e = (k, v) ∨ (e ∈ m.entries ∧ e.1 ≠ k) := by
  rw [(m.insert_perm k v).mem_iff, List.mem_cons, mem_erase]

@[simp] theorem get?_insert_self (m : SortedMap κ ν) (k : κ) (v : ν) :
    (m.insert k v).get? k = some v := by
  rw [get?_eq_some_iff, mem_insert]
  exact Or.inl rfl

theorem get?_insert_of_ne (m : SortedMap κ ν) {k k' : κ} (v : ν) (h : k' ≠ k) :
    (m.insert k v).get? k' = m.get? k' := by
  apply Option.ext
  intro w
  rw [get?_eq_some_iff, get?_eq_some_iff, mem_insert]
  constructor
  · rintro (he | ⟨he, _⟩)
    · exact absurd (Prod.mk.inj he).1 h
    · exact he
  · exact fun he => Or.inr ⟨he, h⟩

@[simp] theorem get?_erase_self (m : SortedMap κ ν) (k : κ) : (m.erase k).get? k = none := by
  rw [get?_eq_none_iff]
  intro v hv
  exact ((m.mem_erase k _).mp hv).2 rfl

theorem get?_erase_of_ne (m : SortedMap κ ν) {k k' : κ} (h : k' ≠ k) :
    (m.erase k).get? k' = m.get? k' := by
  apply Option.ext
  intro w
  rw [get?_eq_some_iff, get?_eq_some_iff, mem_erase]
  exact ⟨fun he => he.1, fun he => ⟨he, h⟩⟩

theorem insertList_insertList (k : κ) (v w : ν) (es : List (κ × ν)) :
    insertList k w (insertList k v es) = insertList k w es := by
  induction es with
  | nil => simp [insertList]
  | cons e es ih =>
    simp only [insertList]
    split
    · simp [insertList]
    · rename_i hge
      split
      · simp [insertList]
      · rename_i hne
        rw [insertList, if_neg hge, if_neg hne, ih]

@[simp] theorem insert_insert (m : SortedMap κ ν) (k : κ) (v w : ν) :
    (m.insert k v).insert k w = m.insert k w := by
  simp only [insert, insertList_insertList]

theorem filter_insertList (k : κ) (v : ν) (es : List (κ × ν)) :
    (insertList k v es).filter (fun e => e.1 ≠ k) = es.filter (fun e => e.1 ≠ k) := by
  induction es with
  | nil => simp [insertList]
  | cons e es ih =>
    simp only [insertList]
    split
    · rw [List.filter_cons_of_neg (by simp)]
    · split
      · rename_i heq
        rw [List.filter_cons_of_neg (by simp), List.filter_cons_of_neg (by simp [heq])]
      · rw [List.filter_cons, List.filter_cons, ih]

@[simp] theorem erase_insert (m : SortedMap κ ν) (k : κ) (v : ν) :
    (m.insert k v).erase k = m.erase k := by
  simp only [erase, insert, filter_insertList]

/-- Lookup determines the map. -/
theorem ext_get? {m n : SortedMap κ ν} (h : ∀ k, m.get? k = n.get? k) : m = n := by
  have hmem : ∀ e, e ∈ m.entries ↔ e ∈ n.entries := by
    intro e
    rw [← m.get?_eq_some_iff e.1 e.2, ← n.get?_eq_some_iff e.1 e.2, h]
  have hnodup : ∀ l : SortedMap κ ν, l.entries.Nodup := by
    intro l
    refine l.sorted.imp fun {a b} hlt heq => ?_
    rw [heq] at hlt
    exact lt_irrefl _ hlt
  have hentries : m.entries = n.entries := by
    refine List.Perm.eq_of_pairwise ?_ m.sorted n.sorted
      ((List.perm_ext_iff_of_nodup (hnodup m) (hnodup n)).mpr hmem)
    intro a b _ _ hab hba
    exact absurd (lt_trans hab hba) (lt_irrefl _)
  obtain ⟨es, hs⟩ := m
  simp only at hentries
  subst hentries
  rfl

theorem insert_of_get? (m : SortedMap κ ν) {k : κ} {v : ν} (h : m.get? k = some v) :
    m.insert k v = m := by
  apply ext_get?
  intro k'
  by_cases hk : k' = k
  · rw [hk, get?_insert_self, h]
  · exact get?_insert_of_ne m v hk

theorem size_insert_of_none (m : SortedMap κ ν) {k : κ} (v : ν) (h : m.get? k = none) :
    (m.insert k v).size = m.size + 1 := by
  have := (m.insert_perm k v).length_eq
  rw [m.erase_of_none h] at this
  simpa [size] using this

theorem size_erase_of_some (m : SortedMap κ ν) {k : κ} {v : ν} (h : m.get? k = some v) :
    m.size = (m.erase k).size + 1 := by
  simpa [size] using (m.erase_perm h).length_eq

theorem size_insert_of_some (m : SortedMap κ ν) {k : κ} {v : ν} (w : ν) (h : m.get? k = some v) :
    (m.insert k w).size = m.size := by
  rw [m.size_erase_of_some h]
  simpa [size] using (m.insert_perm k w).length_eq

theorem size_erase_le (m : SortedMap κ ν) (k : κ) : (m.erase k).size ≤ m.size :=
  List.length_filter_le _ _

/-! ## Sums over the entries -/

def sumBy (f : κ × ν → Nat) (m : SortedMap κ ν) : Nat := (m.entries.map f).sum

theorem sumBy_insert (f : κ × ν → Nat) (m : SortedMap κ ν) (k : κ) (v : ν) :
    (m.insert k v).sumBy f = f (k, v) + (m.erase k).sumBy f := by
  simpa [sumBy] using ((m.insert_perm k v).map f).sum_nat

theorem sumBy_erase (f : κ × ν → Nat) (m : SortedMap κ ν) {k : κ} {v : ν}
    (h : m.get? k = some v) : m.sumBy f = f (k, v) + (m.erase k).sumBy f := by
  simpa [sumBy] using ((m.erase_perm h).map f).sum_nat

end SortedMap

end Lib
