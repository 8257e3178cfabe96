/-!
Machines that answer every input with some outputs.

`emits step s l` is the state after the inputs `l` and all that has been put out on the way.
-/

namespace Lib

variable {σ ι α : Type}

/-- A state, and what has been put out on the way to it. -/
abbrev Effect (σ α : Type) := σ × List α

/-- One effect after another. -/
def Effect.andThen (e : Effect σ α) (f : σ → Effect σ α) : Effect σ α :=
  ((f e.1).1, e.2 ++ (f e.1).2)

def emits (step : σ → ι → Effect σ α) (s : σ) : List ι → Effect σ α
  | [] => (s, [])
  | i :: l => (step s i).andThen fun t => emits step t l

theorem emits_nil (step : σ → ι → Effect σ α) (s : σ) : emits step s [] = (s, []) := rfl

theorem emits_cons (step : σ → ι → Effect σ α) (s : σ) (i : ι) (l : List ι) :
    emits step s (i :: l) = (step s i).andThen fun t => emits step t l := rfl

theorem emits_append (step : σ → ι → Effect σ α) (s : σ) (l l' : List ι) :
    emits step s (l ++ l') = (emits step s l).andThen fun t => emits step t l' := by
  induction l generalizing s with
  | nil => rfl
  | cons i l ih => simp only [List.cons_append, emits, ih, Effect.andThen, List.append_assoc]

/-- What every step keeps, a run keeps. -/
theorem emits_keeps {step : σ → ι → Effect σ α} {I : σ → Prop}
    (hstep : ∀ s i, I s → I (step s i).1) {s : σ} (l : List ι) (h : I s) :
    I (emits step s l).1 := by
  induction l generalizing s with
  | nil => exact h
  | cons i l ih => exact ih (hstep s i h)

end Lib
