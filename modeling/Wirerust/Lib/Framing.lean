/-!
Cutting a stream into frames while it arrives.

A `Framer` looks at the front of what has arrived: it asks for more, it rejects it, or it finds
a frame. More bytes never change a rejection or a frame. `split` takes frames off the front
for as long as there are any, and `split_append` says that it makes no difference whether the
bytes come at once or in two parts, the rest of the first part being kept.
-/

namespace Lib

variable {β : Type}

inductive Verdict
  | more
  | reject
  | frame (length : Nat)
  deriving DecidableEq, Repr

structure Framer (β : Type) where
  head : List β → Verdict
  nil : head [] = .more
  bounds : ∀ xs n, head xs = .frame n → 0 < n ∧ n ≤ xs.length
  stable : ∀ xs ys, head xs ≠ .more → head (xs ++ ys) = head xs

structure Split (β : Type) where
  frames : List (List β)
  rest : List β
  rejected : Bool
  deriving DecidableEq, Repr

namespace Framer

def splitAux (fr : Framer β) : Nat → List β → Split β
  | 0, xs => ⟨[], xs, false⟩
  | turns + 1, xs =>
    match fr.head xs with
    | .more => ⟨[], xs, false⟩
    | .reject => ⟨[], xs, true⟩
    | .frame n =>
      let s := splitAux fr turns (xs.drop n)
      { s with frames := xs.take n :: s.frames }

def split (fr : Framer β) (xs : List β) : Split β := fr.splitAux xs.length xs

variable (fr : Framer β)

/-- There are never more turns than bytes. -/
theorem splitAux_eq (turns turns' : Nat) (xs : List β) (h : xs.length ≤ turns)
    (h' : xs.length ≤ turns') : fr.splitAux turns xs = fr.splitAux turns' xs := by
  induction turns generalizing turns' xs with
  | zero =>
    obtain rfl : xs = [] := List.length_eq_zero_iff.mp (Nat.le_zero.mp h)
    cases turns' with
    | zero => rfl
    | succ turns' => rw [splitAux, splitAux, fr.nil]
  | succ turns ih =>
    cases turns' with
    | zero =>
      obtain rfl : xs = [] := List.length_eq_zero_iff.mp (Nat.le_zero.mp h')
      rw [splitAux, splitAux, fr.nil]
    | succ turns' =>
      rw [splitAux, splitAux]
      cases hv : fr.head xs with
      | more => rfl
      | reject => rfl
      | frame n =>
        have hn := fr.bounds xs n hv
        have hlen : (xs.drop n).length = xs.length - n := List.length_drop
        simp only [ih turns' (xs.drop n) (by omega) (by omega)]

theorem split_of_more {xs : List β} (h : fr.head xs = .more) : fr.split xs = ⟨[], xs, false⟩ := by
  unfold split
  cases hlen : xs.length with
  | zero => rfl
  | succ n => rw [splitAux, h]

theorem split_of_reject {xs : List β} (h : fr.head xs = .reject) :
    fr.split xs = ⟨[], xs, true⟩ := by
  unfold split
  cases hlen : xs.length with
  | zero =>
    rw [List.length_eq_zero_iff.mp hlen, fr.nil] at h
    cases h
  | succ n => rw [splitAux, h]

theorem split_of_frame {xs : List β} {n : Nat} (h : fr.head xs = .frame n) :
    fr.split xs = { fr.split (xs.drop n) with
      frames := xs.take n :: (fr.split (xs.drop n)).frames } := by
  have hn := fr.bounds xs n h
  unfold split
  cases hlen : xs.length with
  | zero => omega
  | succ m =>
    have hdrop : (xs.drop n).length = xs.length - n := List.length_drop
    rw [splitAux, h]
    simp only [splitAux_eq fr m (xs.drop n).length (xs.drop n) (by omega) (Nat.le_refl _)]

/-- The induction over the frames of a stream. -/
theorem split_induction {P : List β → Prop}
    (more : ∀ xs, fr.head xs = .more → P xs) (reject : ∀ xs, fr.head xs = .reject → P xs)
    (frame : ∀ xs n, fr.head xs = .frame n → P (xs.drop n) → P xs) (xs : List β) : P xs := by
  induction hlen : xs.length using Nat.strongRecOn generalizing xs with
  | _ m ih =>
    cases hv : fr.head xs with
    | more => exact more xs hv
    | reject => exact reject xs hv
    | frame n =>
      have hn := fr.bounds xs n hv
      have hdrop : (xs.drop n).length = xs.length - n := List.length_drop
      exact frame xs n hv (ih _ (by omega) _ rfl)

theorem length_split (xs : List β) :
    (fr.split xs).frames.length + (fr.split xs).rest.length ≤ xs.length := by
  induction xs using fr.split_induction with
  | more xs hv =>
    rw [fr.split_of_more hv]
    exact Nat.le_of_eq (Nat.zero_add _)
  | reject xs hv =>
    rw [fr.split_of_reject hv]
    exact Nat.le_of_eq (Nat.zero_add _)
  | frame xs n hv ih =>
    have hn := fr.bounds xs n hv
    have hdrop : (xs.drop n).length = xs.length - n := List.length_drop
    rw [fr.split_of_frame hv]
    simp only [List.length_cons]
    omega

/-- Bytes that come after a rejection are not looked at. -/
theorem split_append_of_rejected {xs : List β} (ys : List β)
    (h : (fr.split xs).rejected = true) :
    fr.split (xs ++ ys) = { fr.split xs with rest := (fr.split xs).rest ++ ys } := by
  induction xs using fr.split_induction with
  | more xs hv =>
    rw [fr.split_of_more hv] at h
    cases h
  | reject xs hv =>
    have hv' : fr.head (xs ++ ys) = .reject := by rw [fr.stable xs ys (by simp [hv]), hv]
    rw [fr.split_of_reject hv, fr.split_of_reject hv']
  | frame xs n hv ih =>
    have hn := fr.bounds xs n hv
    have hv' : fr.head (xs ++ ys) = .frame n := by rw [fr.stable xs ys (by simp [hv]), hv]
    rw [fr.split_of_frame hv] at h
    rw [fr.split_of_frame hv, fr.split_of_frame hv', List.drop_append_of_le_length hn.2,
      List.take_append_of_le_length hn.2, ih h]

/-- Bytes that come in two parts: what the first part leaves over goes before the second. -/
theorem split_append {xs : List β} (ys : List β) (h : (fr.split xs).rejected = false) :
    fr.split (xs ++ ys) = { fr.split ((fr.split xs).rest ++ ys) with
      frames := (fr.split xs).frames ++ (fr.split ((fr.split xs).rest ++ ys)).frames } := by
  induction xs using fr.split_induction with
  | more xs hv => rw [fr.split_of_more hv, List.nil_append]
  | reject xs hv =>
    rw [fr.split_of_reject hv] at h
    cases h
  | frame xs n hv ih =>
    have hn := fr.bounds xs n hv
    have hv' : fr.head (xs ++ ys) = .frame n := by rw [fr.stable xs ys (by simp [hv]), hv]
    rw [fr.split_of_frame hv] at h
    rw [fr.split_of_frame hv, fr.split_of_frame hv', List.drop_append_of_le_length hn.2,
      List.take_append_of_le_length hn.2, ih h]
    rfl

end Framer

end Lib
