import Mathlib.Logic.Function.Basic
import Wirerust.Lib.Closing

/-!
Demultiplexing.

A demultiplexer picks a machine for every input, and its choice may depend on the inputs before.
`tag` writes the choices down, and `family` is all machines side by side. A run of the family is,
for every machine, its own run over its share of the inputs (`run_family`), and it comes back if
all of these do (`family_returns_iff`).

`settle` is a choice that is made once: by the first of so many questions that has an answer.
-/

namespace Lib

variable {ε α β ι τ : Type}

/-! ## Choices -/

/-- The inputs with the machines picked for them; `pre` are the inputs before. -/
def tag (pick : List ι → ι → τ) (pre : List ι) : List ι → List (τ × ι)
  | [] => []
  | i :: l => (pick pre i, i) :: tag pick (pre ++ [i]) l

section Share

variable [DecidableEq τ]

/-- The inputs of one machine. -/
def share (t : τ) : List (τ × ι) → List ι
  | [] => []
  | e :: l => if e.1 = t then e.2 :: share t l else share t l

end Share

/-! ## Machines side by side -/

section Family

variable {σ : τ → Type} [DecidableEq τ] (own : ∀ t, σ t → ι → Except ε (σ t))

def family (s : ∀ t, σ t) (e : τ × ι) : Except ε (∀ t, σ t) :=
  (own e.1 (s e.1) e.2).map (Function.update s e.1)

variable {own}

theorem family_eq_ok {s s' : ∀ t, σ t} {e : τ × ι} :
    family own s e = .ok s' ↔
      ∃ x, own e.1 (s e.1) e.2 = .ok x ∧ s' = Function.update s e.1 x := by
  unfold family
  cases own e.1 (s e.1) e.2 with
  | error e' =>
    constructor
    · intro h
      cases h
    · rintro ⟨x, hx, -⟩
      cases hx
  | ok x =>
    constructor
    · intro h
      cases h
      exact ⟨x, rfl, rfl⟩
    · rintro ⟨y, hy, rfl⟩
      cases hy
      rfl

theorem run_family (l : List (τ × ι)) (s s' : ∀ t, σ t) :
    run (family own) s l = .ok s' ↔ ∀ t, run (own t) (s t) (share t l) = .ok (s' t) := by
  induction l generalizing s with
  | nil =>
    constructor
    · intro h t
      cases h
      rfl
    · intro h
      obtain rfl : s = s' := funext fun t => Except.ok.inj (h t)
      rfl
  | cons e l ih =>
    rw [run_cons, bind_eq_ok]
    constructor
    · rintro ⟨s₁, hstep, hrun⟩ t
      obtain ⟨x, hx, rfl⟩ := family_eq_ok.mp hstep
      have hrest := (ih _).mp hrun t
      unfold share
      split
      · rename_i ht
        subst ht
        rw [Function.update_self] at hrest
        rw [run_cons, hx]
        exact hrest
      · rename_i ht
        rw [Function.update_of_ne (Ne.symm ht)] at hrest
        exact hrest
    · intro h
      have hown := h e.1
      rw [share, if_pos rfl, run_cons, bind_eq_ok] at hown
      obtain ⟨x, hx, hown⟩ := hown
      refine ⟨_, family_eq_ok.mpr ⟨x, hx, rfl⟩, (ih _).mpr fun t => ?_⟩
      by_cases ht : e.1 = t
      · subst ht
        rw [Function.update_self]
        exact hown
      · have hother := h t
        rw [share, if_neg ht] at hother
        rw [Function.update_of_ne (Ne.symm ht)]
        exact hother

/-- No machine keeps another one from coming back. -/
theorem family_returns_iff (l : List (τ × ι)) (s : ∀ t, σ t) :
    (∃ s', run (family own) s l = .ok s') ↔
      ∀ t, ∃ x, run (own t) (s t) (share t l) = .ok x := by
  rw [Classical.skolem]
  exact exists_congr fun s' => run_family l s s'

end Family

/-- A machine whose every step is one of the family is the family. -/
theorem run_tagged {σ μ : Type} {step : σ → ι → Except ε σ} {low : μ → τ × ι → Except ε μ}
    {view : σ → μ} {pick : List ι → ι → τ} {I : List ι → σ → Prop}
    (hstep : ∀ pre s i, I pre s → (step s i).map view = low (view s) (pick pre i, i))
    (hkeeps : ∀ pre s i s', I pre s → step s i = .ok s' → I (pre ++ [i]) s')
    (l : List ι) {pre : List ι} {s : σ} (h : I pre s) :
    (run step s l).map view = run low (view s) (tag pick pre l) := by
  induction l generalizing pre s with
  | nil => rfl
  | cons i l ih =>
    rw [tag, run_cons, run_cons, ← hstep pre s i h, map_bind, bind_map]
    exact bind_congr_ok fun s' hs' => ih (hkeeps pre s i s' h hs')

/-! ## Settling -/

/-- The first answer to the first `budget` questions, or that there is none when all of these have
been asked. -/
def settle (answer : α → Option β) (budget : Nat) (l : List α) : Option (Option β) :=
  match (l.take budget).findSome? answer with
  | some b => some (some b)
  | none => if l.length < budget then none else some none

section Settle

variable {answer : α → Option β} {budget : Nat} {l : List α}

theorem settle_eq_none (h : settle answer budget l = none) :
    l.length < budget ∧ l.findSome? answer = none := by
  unfold settle at h
  split at h
  · cases h
  · rename_i hnone
    split at h
    · rename_i hlt
      rw [List.take_of_length_le (Nat.le_of_lt hlt)] at hnone
      exact ⟨hlt, hnone⟩
    · cases h

theorem settle_nil (h : 0 < budget) : settle answer budget [] = none := by
  rw [settle, List.take_nil]
  exact if_pos h

/-- What is settled stays so. -/
theorem settle_snoc_of_some {r : Option β} (h : settle answer budget l = some r) (a : α) :
    settle answer budget (l ++ [a]) = some r := by
  by_cases hlt : l.length < budget
  · have htake : l.take budget = l := List.take_of_length_le (Nat.le_of_lt hlt)
    have htake' : (l ++ [a]).take budget = l ++ [a] :=
      List.take_of_length_le (by rw [List.length_append]; exact hlt)
    unfold settle at h ⊢
    rw [htake, if_pos hlt] at h
    rw [htake', List.findSome?_append]
    cases hfind : l.findSome? answer with
    | none =>
      rw [hfind] at h
      cases h
    | some b =>
      rw [hfind] at h
      exact h
  · have htake : (l ++ [a]).take budget = l.take budget :=
      List.take_append_of_le_length (Nat.le_of_not_lt hlt)
    have hlt' : ¬ (l ++ [a]).length < budget := fun h' => hlt (Nat.lt_of_le_of_lt (by simp) h')
    unfold settle at h ⊢
    rw [if_neg hlt] at h
    rw [htake, if_neg hlt']
    exact h

/-- The next question settles it with an answer, or if it was the last. -/
theorem settle_snoc_of_none (h : settle answer budget l = none) (a : α) :
    settle answer budget (l ++ [a]) =
      if (answer a).isSome ∨ budget ≤ l.length + 1 then some (answer a) else none := by
  obtain ⟨hlt, hnone⟩ := settle_eq_none h
  have hlength : (l ++ [a]).length = l.length + 1 := by simp
  have hfind : ((l ++ [a]).take budget).findSome? answer = answer a := by
    rw [List.take_of_length_le (by omega), List.findSome?_append, hnone, List.findSome?_singleton]
    rfl
  rw [settle, hfind, hlength]
  cases answer a with
  | some b => rfl
  | none =>
    by_cases hlast : budget ≤ l.length + 1
    · rw [if_pos (Or.inr hlast)]
      exact if_neg (Nat.not_lt.mpr hlast)
    · rw [if_pos (Nat.lt_of_not_le hlast)]
      exact (if_neg fun h => h.elim Bool.false_ne_true hlast).symm

end Settle

end Lib
