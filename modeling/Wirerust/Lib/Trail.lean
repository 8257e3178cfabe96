/-!
Runs of a transition relation with the labels of their steps.

`Trail step s l s'` says that the labels `l` lead from `s` to `s'`. Trails can be put together and
cut, and what every step keeps holds all along (`holds_before`). A label that is only allowed while
a latch is off, and turns it on, comes at most once before the latch is reset (`fires_once`).
-/

namespace Lib

variable {σ ε ε' : Type}

inductive Trail (step : σ → ε → σ → Prop) : σ → List ε → σ → Prop
  | nil (s : σ) : Trail step s [] s
  | cons {s s' s'' : σ} {e : ε} {l : List ε} (first : step s e s') (rest : Trail step s' l s'') :
      Trail step s (e :: l) s''

namespace Trail

variable {step : σ → ε → σ → Prop} {s s' s'' : σ} {l l' : List ε}

theorem one {e : ε} (h : step s e s') : Trail step s [e] s' := .cons h (.nil s')

theorem append (h : Trail step s l s') (h' : Trail step s' l' s'') :
    Trail step s (l ++ l') s'' := by
  induction h with
  | nil s => exact h'
  | cons first _ ih => exact .cons first (ih h')

theorem split (h : Trail step s (l ++ l') s'') :
    ∃ s', Trail step s l s' ∧ Trail step s' l' s'' := by
  induction l generalizing s with
  | nil => exact ⟨s, .nil s, h⟩
  | cons e l ih =>
    cases h with
    | cons first rest =>
      obtain ⟨s', hl, hl'⟩ := ih rest
      exact ⟨s', .cons first hl, hl'⟩

theorem relabel {step' : σ → ε' → σ → Prop} {f : ε → ε'}
    (hstep : ∀ s e s', step s e s' → step' s (f e) s') (h : Trail step s l s') :
    Trail step' s (l.map f) s' := by
  induction h with
  | nil s => exact .nil s
  | cons first _ ih => exact .cons (hstep _ _ _ first) ih

/-- What every step with one of these labels keeps holds before each of them. -/
theorem holds_before {I : σ → Prop} {p : ε → Prop}
    (hstep : ∀ s e s', step s e s' → p e → I s → I s') (h : Trail step s l s')
    (hl : ∀ e ∈ l, p e) (hs : I s) : ∀ e ∈ l, ∃ t t', I t ∧ step t e t' := by
  induction h with
  | nil s => exact nofun
  | cons first _ ih =>
    have hnext := hstep _ _ _ first (hl _ (List.mem_cons_self ..)) hs
    intro e he
    rcases List.mem_cons.mp he with rfl | hmem
    · exact ⟨_, _, hs, first⟩
    · exact ih (fun e he => hl e (List.mem_cons_of_mem _ he)) hnext e hmem

theorem step_of_mem {e : ε} (h : Trail step s l s') (he : e ∈ l) : ∃ t t', step t e t' := by
  obtain ⟨t, t', -, hstep⟩ := h.holds_before (I := fun _ => True) (p := fun _ => True)
    (fun _ _ _ _ _ _ => trivial) (fun _ _ => trivial) trivial e he
  exact ⟨t, t', hstep⟩

/-- Without a reset, nothing fires while the latch is on, and then at most once. -/
theorem fires_once (latch : σ → Bool) {fires : ε → Bool} (resets : ε → Prop)
    (hfires : ∀ s e s', step s e s' → fires e = true → latch s = false ∧ latch s' = true)
    (hholds : ∀ s e s', step s e s' → ¬resets e → latch s = true → latch s' = true)
    (h : Trail step s l s') (hl : ∀ e ∈ l, ¬resets e) :
    (latch s = true → l.countP fires = 0) ∧ l.countP fires ≤ 1 := by
  induction h with
  | nil s => exact ⟨fun _ => rfl, Nat.zero_le _⟩
  | @cons s s' s'' e l first rest ih =>
    obtain ⟨hon, hone⟩ := ih fun e he => hl e (List.mem_cons_of_mem _ he)
    cases hfire : fires e with
    | true =>
      obtain ⟨hoff, hset⟩ := hfires s e s' first hfire
      rw [List.countP_cons_of_pos hfire, hon hset]
      refine ⟨fun htrue => ?_, Nat.le_refl _⟩
      rw [hoff] at htrue
      cases htrue
    | false =>
      have hnot : ¬fires e = true := by
        rw [hfire]
        exact Bool.noConfusion
      rw [List.countP_cons_of_neg hnot]
      exact ⟨fun htrue => hon (hholds s e s' first (hl e (List.mem_cons_self ..)) htrue), hone⟩

end Trail

end Lib
