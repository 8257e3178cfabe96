import Wirerust.Lib.SortedMap

/-!
Tables of bounded size. A new key that comes to a full table takes the place of an entry with the
least stamp; which one, if there are several, depends on the order in which the entries are looked
at.
-/

namespace Lib

variable {α κ ν τ : Type} [LinearOrder κ] [LinearOrder τ]

/-- The first of the least elements. -/
def minByKey (stamp : α → τ) : List α → Option α
  | [] => none
  | a :: l =>
    match minByKey stamp l with
    | none => some a
    | some b => if stamp b < stamp a then some b else some a

theorem minByKey_cons_isSome (stamp : α → τ) (a : α) (l : List α) :
    ∃ b, minByKey stamp (a :: l) = some b := by
  rw [minByKey]
  cases minByKey stamp l with
  | none => exact ⟨a, rfl⟩
  | some b =>
    simp only
    split
    · exact ⟨b, rfl⟩
    · exact ⟨a, rfl⟩

theorem minByKey_spec (stamp : α → τ) {l : List α} {b : α} (h : minByKey stamp l = some b) :
    b ∈ l ∧ ∀ a ∈ l, stamp b ≤ stamp a := by
  induction l generalizing b with
  | nil => cases h
  | cons a l ih =>
    rw [minByKey] at h
    cases hl : minByKey stamp l with
    | none =>
      have hnil : l = [] := by
        cases l with
        | nil => rfl
        | cons c l =>
          obtain ⟨b', hb'⟩ := minByKey_cons_isSome stamp c l
          rw [hb'] at hl
          cases hl
      simp only [hl] at h
      cases h
      subst hnil
      exact ⟨List.mem_singleton_self a, fun c hc => by rw [List.mem_singleton.mp hc]⟩
    | some m =>
      obtain ⟨hmem, hleast⟩ := ih hl
      simp only [hl] at h
      split at h
      · rename_i hlt
        cases h
        refine ⟨List.mem_cons_of_mem a hmem, fun c hc => ?_⟩
        rcases List.mem_cons.mp hc with rfl | hc
        · exact le_of_lt hlt
        · exact hleast c hc
      · rename_i hge
        cases h
        refine ⟨List.mem_cons_self, fun c hc => ?_⟩
        rcases List.mem_cons.mp hc with rfl | hc
        · exact le_refl _
        · exact le_trans (not_lt.mp hge) (hleast c hc)

namespace Lru

/-- Without an entry that has the least stamp, as the entries are looked at. -/
def evict (stamp : ν → τ) (visited : List (κ × ν)) (m : SortedMap κ ν) : SortedMap κ ν :=
  match minByKey (fun e => stamp e.2) visited with
  | some e => m.erase e.1
  | none => m

/-- `victim` has the least stamp. -/
def Oldest (stamp : ν → τ) (m : SortedMap κ ν) (victim : κ) : Prop :=
  ∃ old, m.get? victim = some old ∧ ∀ k v, m.get? k = some v → stamp old ≤ stamp v

theorem evict_oldest (stamp : ν → τ) {visited : List (κ × ν)} {m : SortedMap κ ν}
    (hperm : visited.Perm m.entries) (hpos : 0 < m.size) :
    ∃ victim, Oldest stamp m victim ∧ evict stamp visited m = m.erase victim := by
  unfold evict
  cases hmin : minByKey (fun e => stamp e.2) visited with
  | none =>
    have hlen : visited.length = m.size := hperm.length_eq
    cases visited with
    | nil =>
      rw [List.length_nil] at hlen
      omega
    | cons e visited =>
      obtain ⟨b, hb⟩ := minByKey_cons_isSome (fun e : κ × ν => stamp e.2) e visited
      rw [hb] at hmin
      cases hmin
  | some e =>
    obtain ⟨hmem, hleast⟩ := minByKey_spec _ hmin
    refine ⟨e.1, ⟨e.2, (m.get?_eq_some_iff e.1 e.2).mpr (hperm.mem_iff.mp hmem), ?_⟩, rfl⟩
    intro k v hget
    exact hleast (k, v) (hperm.mem_iff.mpr ((m.get?_eq_some_iff k v).mp hget))

/-- A new key goes into a table of at most `cap` entries; the flag says whether another key had to
leave. -/
inductive Put (cap : Nat) (stamp : ν → τ) (m : SortedMap κ ν) (k : κ) (v : ν) :
    SortedMap κ ν → Bool → Prop
  | free : m.size < cap → Put cap stamp m k v (m.insert k v) false
  | full (victim : κ) : m.size = cap → Oldest stamp m victim →
      Put cap stamp m k v ((m.erase victim).insert k v) true

variable {cap : Nat} {stamp : ν → τ} {m m' : SortedMap κ ν} {k : κ} {v : ν} {evicted : Bool}

/-- One in, at most one out. -/
theorem Put.size (h : Put cap stamp m k v m' evicted) (hnew : m.get? k = none) :
    m'.size ≤ cap ∧ m'.size + evicted.toNat = m.size + 1 := by
  cases h with
  | free hfree =>
    rw [m.size_insert_of_none v hnew]
    exact ⟨hfree, rfl⟩
  | full victim hfull holdest =>
    obtain ⟨old, hget, -⟩ := holdest
    have hsize := m.size_erase_of_some hget
    have hnew' : (m.erase victim).get? k = none := by
      by_cases hk : k = victim
      · rw [hk, SortedMap.get?_erase_self]
      · rw [SortedMap.get?_erase_of_ne _ hk, hnew]
    rw [SortedMap.size_insert_of_none _ v hnew']
    simp only [Bool.toNat_true]
    omega

theorem Put.get?_self (h : Put cap stamp m k v m' evicted) : m'.get? k = some v := by
  cases h with
  | free hfree => exact m.get?_insert_self k v
  | full victim hfull holdest => exact SortedMap.get?_insert_self _ k v

/-- A value can still be changed after the key has gone in. -/
theorem Put.update (h : Put cap stamp m k v m' evicted) (w : ν) :
    Put cap stamp m k w (m'.insert k w) evicted := by
  cases h with
  | free hfree =>
    rw [SortedMap.insert_insert]
    exact .free hfree
  | full victim hfull holdest =>
    rw [SortedMap.insert_insert]
    exact .full victim hfull holdest

/-- The entry of `k` becomes `v`, whether `k` was there or not. -/
inductive Touch (cap : Nat) (stamp : ν → τ) (m : SortedMap κ ν) (k : κ) (v : ν) :
    SortedMap κ ν → Bool → Prop
  | known (old : ν) : m.get? k = some old → Touch cap stamp m k v (m.insert k v) false
  | new {m' : SortedMap κ ν} {evicted : Bool} : m.get? k = none →
      Put cap stamp m k v m' evicted → Touch cap stamp m k v m' evicted

namespace Touch

theorem get?_self (h : Touch cap stamp m k v m' evicted) : m'.get? k = some v := by
  cases h with
  | known old hold => exact m.get?_insert_self k v
  | new hnew hput => exact hput.get?_self

theorem update (h : Touch cap stamp m k v m' evicted) (w : ν) :
    Touch cap stamp m k w (m'.insert k w) evicted := by
  cases h with
  | known old hold =>
    rw [SortedMap.insert_insert]
    exact .known old hold
  | new hnew hput => exact .new hnew (hput.update w)

/-- The other entries are left alone, or one of them is pushed out. -/
theorem get?_other (h : Touch cap stamp m k v m' evicted) {k' : κ} (hne : k' ≠ k) :
    m'.get? k' = m.get? k' ∨ (evicted = true ∧ m'.get? k' = none) := by
  cases h with
  | known old hold => exact .inl (SortedMap.get?_insert_of_ne _ _ hne)
  | new hnew hput =>
    cases hput with
    | free hfree => exact .inl (SortedMap.get?_insert_of_ne _ _ hne)
    | full victim hfull holdest =>
      rw [SortedMap.get?_insert_of_ne _ _ hne]
      by_cases hk : k' = victim
      · rw [hk, SortedMap.get?_erase_self]
        exact .inr ⟨rfl, rfl⟩
      · exact .inl (SortedMap.get?_erase_of_ne _ hk)

theorem size_le (h : Touch cap stamp m k v m' evicted) (hcap : m.size ≤ cap) : m'.size ≤ cap := by
  cases h with
  | known old hold =>
    rw [m.size_insert_of_some v hold]
    exact hcap
  | new hnew hput => exact (hput.size hnew).1

/-- New keys are in the table or have been paid for by an eviction. -/
theorem size_eq (h : Touch cap stamp m k v m' evicted) :
    m'.size + evicted.toNat = m.size + (m.get? k).isNone.toNat := by
  cases h with
  | known old hold =>
    rw [m.size_insert_of_some v hold, hold]
    rfl
  | new hnew hput =>
    rw [(hput.size hnew).2, hnew]
    rfl

/-- With room for the key, nothing leaves. -/
theorem of_room (h : Touch cap stamp m k v m' evicted) (hroom : m.get? k = none → m.size < cap) :
    m' = m.insert k v ∧ evicted = false := by
  cases h with
  | known old hold => exact ⟨rfl, rfl⟩
  | new hnew hput =>
    cases hput with
    | free hfree => exact ⟨rfl, rfl⟩
    | full victim hfull holdest => exact absurd (hroom hnew) (by omega)

end Touch

end Lru

end Lib
