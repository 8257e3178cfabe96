/-!
A list that stops growing: up to `cap` elements are kept, the others are counted by a counter
that stops at `limit`.
-/

namespace Lib

variable {α : Type}

structure Capped (α : Type) where
  kept : List α
  dropped : Nat
  deriving DecidableEq

namespace Capped

def push (cap limit : Nat) (t : Capped α) (a : α) : Capped α :=
  if t.kept.length < cap then { t with kept := t.kept ++ [a] }
  else { t with dropped := min (t.dropped + 1) limit }

def pushAll (cap limit : Nat) (t : Capped α) (as : List α) : Capped α :=
  as.foldl (push cap limit) t

theorem pushAll_append (cap limit : Nat) (t : Capped α) (as bs : List α) :
    t.pushAll cap limit (as ++ bs) = (t.pushAll cap limit as).pushAll cap limit bs :=
  List.foldl_append

/-- `t'` is `t` after some more pushes. -/
def Extends (cap limit : Nat) (t t' : Capped α) : Prop := ∃ as, t' = t.pushAll cap limit as

namespace Extends

variable {cap limit : Nat} {t t' t'' : Capped α}

theorem refl (t : Capped α) : Extends cap limit t t := ⟨[], rfl⟩

theorem push (t : Capped α) (a : α) : Extends cap limit t (t.push cap limit a) := ⟨[a], rfl⟩

theorem trans (h : Extends cap limit t t') (h' : Extends cap limit t' t'') :
    Extends cap limit t t'' := by
  obtain ⟨as, rfl⟩ := h
  obtain ⟨bs, rfl⟩ := h'
  exact ⟨as ++ bs, (pushAll_append cap limit t as bs).symm⟩

theorem length_mono (h : Extends cap limit t t') : t.kept.length ≤ t'.kept.length := by
  obtain ⟨as, rfl⟩ := h
  induction as generalizing t with
  | nil => exact Nat.le_refl _
  | cons a as ih =>
    refine Nat.le_trans ?_ ih
    unfold Capped.push
    split
    · simp
    · exact Nat.le_refl _

theorem length_le (h : Extends cap limit t t') (hle : t.kept.length ≤ cap) :
    t'.kept.length ≤ cap := by
  obtain ⟨as, rfl⟩ := h
  induction as generalizing t with
  | nil => exact hle
  | cons a as ih =>
    refine ih ?_
    unfold Capped.push
    split
    · simp only [List.length_append, List.length_singleton]
      omega
    · exact hle

end Extends

theorem mem_kept_push {cap limit : Nat} {t : Capped α} {a b : α}
    (h : b ∈ (t.push cap limit a).kept) : b ∈ t.kept ∨ b = a := by
  unfold push at h
  split at h
  · simpa using h
  · exact .inl h

theorem mem_kept_pushAll {cap limit : Nat} {t : Capped α} {as : List α} {b : α}
    (h : b ∈ (t.pushAll cap limit as).kept) : b ∈ t.kept ∨ b ∈ as := by
  induction as generalizing t with
  | nil => exact .inl h
  | cons a as ih =>
    rcases ih h with hkept | has
    · rcases mem_kept_push hkept with hkept | rfl
      · exact .inl hkept
      · exact .inr List.mem_cons_self
    · exact .inr (List.mem_cons_of_mem a has)

/-- While there is room, everything is kept. -/
theorem kept_pushAll {cap limit : Nat} {t : Capped α} {as : List α}
    (h : (t.pushAll cap limit as).kept.length < cap) :
    (t.pushAll cap limit as).kept = t.kept ++ as := by
  induction as generalizing t with
  | nil => exact (List.append_nil _).symm
  | cons a as ih =>
    have hpushed : t.pushAll cap limit (a :: as) = (t.push cap limit a).pushAll cap limit as := rfl
    rw [hpushed] at h ⊢
    have hextends : Extends cap limit (t.push cap limit a)
        ((t.push cap limit a).pushAll cap limit as) := ⟨as, rfl⟩
    have hlt : (t.push cap limit a).kept.length < cap :=
      Nat.lt_of_le_of_lt hextends.length_mono h
    rw [ih h]
    unfold push at hlt ⊢
    by_cases hroom : t.kept.length < cap
    · rw [if_pos hroom, List.append_assoc, List.singleton_append]
    · rw [if_neg hroom] at hlt
      exact absurd hlt hroom

/-- The first `cap` elements of `raised` have been kept, the others counted. -/
structure Holds (cap limit : Nat) (raised : List α) (t : Capped α) : Prop where
  kept : t.kept = raised.take cap
  dropped : t.dropped = min (raised.length - cap) limit

namespace Holds

variable {cap limit : Nat} {raised : List α} {t : Capped α}

theorem nil (cap limit : Nat) : Holds cap limit [] (⟨[], 0⟩ : Capped α) :=
  ⟨by simp, by simp⟩

theorem length_kept (h : Holds cap limit raised t) : t.kept.length = min cap raised.length := by
  rw [h.kept, List.length_take]

theorem length_le (h : Holds cap limit raised t) : t.kept.length ≤ cap := by
  rw [h.length_kept]
  exact Nat.min_le_left _ _

/-- Nothing is lost as long as the counter has not stopped. -/
theorem total (h : Holds cap limit raised t) (hle : raised.length ≤ cap + limit) :
    t.kept.length + t.dropped = raised.length := by
  rw [h.length_kept, h.dropped]
  omega

theorem push (h : Holds cap limit raised t) (a : α) :
    Holds cap limit (raised ++ [a]) (t.push cap limit a) := by
  have hlen := h.length_kept
  have hdropped := h.dropped
  unfold Capped.push
  by_cases hroom : t.kept.length < cap
  · rw [if_pos hroom]
    refine ⟨?_, ?_⟩
    · simp only
      rw [h.kept, List.take_of_length_le (by omega), List.take_of_length_le]
      simp only [List.length_append, List.length_singleton]
      omega
    · simp only [List.length_append, List.length_singleton]
      omega
  · rw [if_neg hroom]
    refine ⟨?_, ?_⟩
    · simp only
      rw [h.kept, List.take_append_of_le_length (by omega)]
    · simp only [List.length_append, List.length_singleton]
      omega

theorem pushAll (h : Holds cap limit raised t) (as : List α) :
    Holds cap limit (raised ++ as) (t.pushAll cap limit as) := by
  induction as generalizing raised t with
  | nil =>
    rw [List.append_nil]
    exact h
  | cons a as ih =>
    rw [← List.singleton_append, ← List.append_assoc]
    exact ih (h.push a)

end Holds

end Capped

end Lib
