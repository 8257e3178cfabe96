import Wirerust.Lib.Checked
import Wirerust.Lib.Trail

/-!
What a run leaves behind.

Every step may leave notes about its input and the states around it; `notes` collects those of a
run. If the notes of each step lead from one state of a smaller machine to another, so do those of
the run (`notes_trail`), and they come in the order of the inputs (`notes_pairwise`).
-/

namespace Lib

variable {ε σ ι ν τ : Type} {step : σ → ι → Except ε σ} {note : σ → ι → σ → List ν}

def notes (step : σ → ι → Except ε σ) (note : σ → ι → σ → List ν) : σ → List ι → List ν
  | _, [] => []
  | s, i :: l =>
    match step s i with
    | .ok s' => note s i s' ++ notes step note s' l
    | .error _ => []

theorem notes_cons {s s' : σ} {i : ι} (h : step s i = .ok s') (l : List ι) :
    notes step note s (i :: l) = note s i s' ++ notes step note s' l := by
  rw [notes, h]

/-- A state that leads to a good one is good. -/
theorem run_good {good : σ → Prop} (hgood : ∀ s i s', step s i = .ok s' → good s' → good s)
    {s s' : σ} {l : List ι} (hrun : run step s l = .ok s') (hs' : good s') : good s := by
  induction l generalizing s with
  | nil =>
    cases hrun
    exact hs'
  | cons i l ih =>
    obtain ⟨s₁, hfirst, hrest⟩ := bind_eq_ok.mp hrun
    exact hgood s i s₁ hfirst (ih hrest)

/-- The notes of a run are a trail of the smaller machine if those of every step to a good state
are. -/
theorem notes_trail (R : σ → τ → Prop) (good : σ → Prop) {next : τ → ν → τ → Prop}
    (hgood : ∀ s i s', step s i = .ok s' → good s' → good s)
    (hstep : ∀ s i s' t, good s' → R s t → step s i = .ok s' →
      ∃ t', Trail next t (note s i s') t' ∧ R s' t')
    {s s' : σ} {l : List ι} {t : τ} (hR : R s t) (hrun : run step s l = .ok s') (hs' : good s') :
    ∃ t', Trail next t (notes step note s l) t' ∧ R s' t' := by
  induction l generalizing s t with
  | nil =>
    cases hrun
    exact ⟨t, .nil t, hR⟩
  | cons i l ih =>
    obtain ⟨s₁, hfirst, hrest⟩ := bind_eq_ok.mp hrun
    obtain ⟨t₁, htrail, hR₁⟩ := hstep s i s₁ t (run_good hgood hrest hs') hR hfirst
    obtain ⟨t', htrail', hR'⟩ := ih hR₁ hrest
    rw [notes_cons hfirst]
    exact ⟨t', htrail.append htrail', hR'⟩

theorem exists_of_mem_notes {s : σ} {l : List ι} {m : ν} (h : m ∈ notes step note s l) :
    ∃ i ∈ l, ∃ t t', step t i = .ok t' ∧ m ∈ note t i t' := by
  induction l generalizing s with
  | nil => cases h
  | cons i l ih =>
    cases hfirst : step s i with
    | error e =>
      rw [notes, hfirst] at h
      cases h
    | ok s' =>
      rw [notes_cons hfirst] at h
      rcases List.mem_append.mp h with hhere | hlater
      · exact ⟨i, List.mem_cons_self, s, s', hfirst, hhere⟩
      · obtain ⟨j, hj, hj'⟩ := ih hlater
        exact ⟨j, List.mem_cons_of_mem i hj, hj'⟩

theorem notes_pairwise {r : ν → ν → Prop} (hself : ∀ s i s', (note s i s').Pairwise r)
    {s : σ} {l : List ι} (hl : l.Pairwise fun i j => ∀ s s' t t', ∀ m ∈ note s i s',
      ∀ m' ∈ note t j t', r m m') : (notes step note s l).Pairwise r := by
  induction l generalizing s with
  | nil => exact .nil
  | cons i l ih =>
    obtain ⟨hhere, hrest⟩ := List.pairwise_cons.mp hl
    cases hfirst : step s i with
    | error e =>
      rw [notes, hfirst]
      exact .nil
    | ok s' =>
      rw [notes_cons hfirst]
      refine List.pairwise_append.mpr ⟨hself s i s', ih hrest, fun m hm m' hm' => ?_⟩
      obtain ⟨j, hj, t, t', -, hm'⟩ := exists_of_mem_notes hm'
      exact hhere j hj s s' t t' m hm m' hm'

end Lib
