import Wirerust.Lib.Checked

/-!
Tables whose keys can be closed.

Inputs come for a key each, and a key can be closed at any time, which commutes with the inputs for
the other keys. A run in which no input comes after the close of its key is the run of its inputs
alone, with all the closes at its end (`Closing.run_final`), so what no close changes does not
depend on them (`Closing.view_final`).
-/

namespace Lib

variable {ε σ ι κ α β γ : Type}

/-! ## Mapping what comes back -/

theorem map_bind (x : Except ε α) (f : α → Except ε β) (g : β → γ) :
    (x >>= f).map g = x >>= fun a => (f a).map g := by
  cases x with
  | error e => rfl
  | ok a => rfl

theorem bind_map (x : Except ε α) (g : α → β) (f : β → Except ε γ) :
    x.map g >>= f = x >>= fun a => f (g a) := by
  cases x with
  | error e => rfl
  | ok a => rfl

/-- A map that every step respects, a run respects. -/
theorem run_map {step : σ → ι → Except ε σ} {g : σ → σ} {l : List ι}
    (h : ∀ s, ∀ i ∈ l, step (g s) i = (step s i).map g) (s : σ) :
    run step (g s) l = (run step s l).map g := by
  induction l generalizing s with
  | nil => rfl
  | cons i l ih =>
    rw [run_cons, run_cons, h s i List.mem_cons_self, bind_map, map_bind]
    exact bind_congr_ok fun s' _ => ih (fun s j hj => h s j (List.mem_cons_of_mem i hj)) s'

/-! ## Inputs and closes -/

inductive Op (ι κ : Type)
  | data (i : ι)
  | close (k : κ)
  deriving DecidableEq, Repr

def inputs : List (Op ι κ) → List ι
  | [] => []
  | .data i :: ops => i :: inputs ops
  | .close _ :: ops => inputs ops

def closes : List (Op ι κ) → List κ
  | [] => []
  | .data _ :: ops => closes ops
  | .close k :: ops => k :: closes ops

structure Closing (ε σ ι κ : Type) where
  key : ι → κ
  take : σ → ι → Except ε σ
  close : σ → κ → σ
  take_close : ∀ s i k, key i ≠ k → take (close s k) i = (take s i).map (close · k)

namespace Closing

variable (K : Closing ε σ ι κ)

def step (s : σ) : Op ι κ → Except ε σ
  | .data i => K.take s i
  | .close k => .ok (K.close s k)

/-- No input comes after the close of its key. -/
def Final : List (Op ι κ) → Prop
  | [] => True
  | .data _ :: ops => Final ops
  | .close k :: ops => (∀ i ∈ inputs ops, K.key i ≠ k) ∧ Final ops

variable {K} {ops : List (Op ι κ)}

theorem run_close {k : κ} {l : List ι} (hl : ∀ i ∈ l, K.key i ≠ k) (s : σ) :
    run K.take (K.close s k) l = (run K.take s l).map (K.close · k) :=
  run_map (fun s i hi => K.take_close s i k (hl i hi)) s

theorem run_final (h : K.Final ops) (s : σ) :
    run K.step s ops = (run K.take s (inputs ops)).map fun t => (closes ops).foldl K.close t := by
  induction ops generalizing s with
  | nil => rfl
  | cons op ops ih =>
    rw [run_cons]
    cases op with
    | data i =>
      rw [inputs, run_cons]
      show K.take s i >>= _ = _
      cases K.take s i with
      | error e => rfl
      | ok s' => exact ih h s'
    | close k =>
      have hfirst : K.step s (.close k) = .ok (K.close s k) := rfl
      rw [hfirst, ok_bind, ih h.2, run_close h.1, inputs]
      cases run K.take s (inputs ops) with
      | error e => rfl
      | ok t => rfl

variable {view : σ → α} {good : σ → Prop}

/-- Closing any keys does not change the view. -/
theorem view_closes (hview : ∀ s k, good s → view (K.close s k) = view s)
    (hgood : ∀ s k, good s → good (K.close s k)) (ks : List κ) {s : σ} (hs : good s) :
    view (ks.foldl K.close s) = view s := by
  induction ks generalizing s with
  | nil => rfl
  | cons k ks ih =>
    rw [List.foldl_cons, ih (hgood s k hs), hview s k hs]

theorem view_final (hview : ∀ s k, good s → view (K.close s k) = view s)
    (hgood : ∀ s k, good s → good (K.close s k)) (hfinal : K.Final ops) {s : σ}
    (hs : ∀ t, run K.take s (inputs ops) = .ok t → good t) :
    (run K.step s ops).map view = (run K.take s (inputs ops)).map view := by
  rw [run_final hfinal]
  cases hrun : run K.take s (inputs ops) with
  | error e => rfl
  | ok t => exact congrArg Except.ok (view_closes hview hgood (closes ops) (hs t hrun))

/-- Nothing that is seen of a state tells which keys have been closed, nor when. -/
structure Unnoticed (K : Closing ε σ ι κ) (isOpen : σ → κ → Bool) (good : σ → Prop)
    (view : σ → α) : Prop where
  unseen : ∀ s k, isOpen s k = false → K.close s k = s
  closed : ∀ s k, isOpen (K.close s k) k = false
  here : ∀ s k, good s → view (K.close s k) = view s
  runs : ∀ s ops ops', K.Final ops → K.Final ops' → inputs ops = inputs ops' →
    (∀ t, run K.take s (inputs ops) = .ok t → good t) →
    (run K.step s ops).map view = (run K.step s ops').map view

/-- What no single close changes, runs do not tell apart. -/
theorem unnoticed_of {isOpen : σ → κ → Bool}
    (hunseen : ∀ s k, isOpen s k = false → K.close s k = s)
    (hclosed : ∀ s k, isOpen (K.close s k) k = false)
    (hview : ∀ s k, good s → view (K.close s k) = view s)
    (hgood : ∀ s k, good s → good (K.close s k)) : K.Unnoticed isOpen good view where
  unseen := hunseen
  closed := hclosed
  here := hview
  runs := by
    intro s ops ops' hfinal hfinal' hsame hs
    rw [view_final hview hgood hfinal hs, hsame, view_final hview hgood hfinal' (hsame ▸ hs)]

end Closing

end Lib
