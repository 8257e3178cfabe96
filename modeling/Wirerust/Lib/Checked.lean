import Mathlib.Data.List.Induction

/-!
Total correctness for computations that may stop with an error.

`Returns x P` says that `x` comes back with a value, and that the value has the
property `P`. The rules below follow the shape of a program: one for a returned
value, one for sequencing, and one for running a step
function over a list of inputs, where the invariant may look at the inputs consumed.
-/

namespace Lib

variable {ε α β γ σ ι : Type}

def Returns (x : Except ε α) (P : α → Prop) : Prop := ∃ a, x = .ok a ∧ P a

namespace Returns

theorem pure {P : α → Prop} {a : α} (h : P a) : Returns (.ok a : Except ε α) P := ⟨a, rfl, h⟩

theorem mono {x : Except ε α} {P Q : α → Prop} (h : Returns x P) (hpq : ∀ a, P a → Q a) :
    Returns x Q := by
  obtain ⟨a, ha, hp⟩ := h
  exact ⟨a, ha, hpq a hp⟩

theorem bind {x : Except ε α} {f : α → Except ε β} {P : α → Prop} {Q : β → Prop}
    (hx : Returns x P) (hf : ∀ a, P a → Returns (f a) Q) : Returns (x >>= f) Q := by
  obtain ⟨a, rfl, hp⟩ := hx
  exact hf a hp

/-- The property holds of the value, whichever way the value was obtained. -/
theorem apply {x : Except ε α} {P : α → Prop} (h : Returns x P) {a : α} (ha : x = .ok a) :
    P a := by
  obtain ⟨b, hb, hp⟩ := h
  rw [hb] at ha
  cases ha
  exact hp

instance decidable {P : α → Prop} [DecidablePred P] :
    (x : Except ε α) → Decidable (Returns x P)
  | .ok a => decidable_of_iff (P a) ⟨fun h => ⟨a, rfl, h⟩, fun h => h.apply rfl⟩
  | .error _ => .isFalse fun ⟨_, h, _⟩ => nomatch h

end Returns

/-- The value that comes back, `d` if none does. -/
def valueOr (d : α) : Except ε α → α
  | .ok a => a
  | .error _ => d

theorem Returns.eq_valueOr {x : Except ε α} {P : α → Prop} (h : Returns x P) (d : α) :
    x = .ok (valueOr d x) ∧ P (valueOr d x) := by
  obtain ⟨a, rfl, hp⟩ := h
  exact ⟨rfl, hp⟩

/-- `x` comes back if `φ` holds, and whenever it comes back its value has the property `P`. -/
def ReturnsIf (φ : Prop) (x : Except ε α) (P : α → Prop) : Prop :=
  (φ → ∃ a, x = .ok a) ∧ ∀ a, x = .ok a → P a

theorem Returns.returnsIf {x : Except ε α} {P : α → Prop} (h : Returns x P) (φ : Prop) :
    ReturnsIf φ x P := by
  refine ⟨fun _ => ?_, fun a ha => h.apply ha⟩
  obtain ⟨a, ha, -⟩ := h
  exact ⟨a, ha⟩

namespace ReturnsIf

variable {φ : Prop}

theorem pure {P : α → Prop} {a : α} (h : P a) : ReturnsIf φ (.ok a : Except ε α) P :=
  (Returns.pure h).returnsIf φ

theorem returns {x : Except ε α} {P : α → Prop} (h : ReturnsIf φ x P) (hφ : φ) : Returns x P := by
  obtain ⟨a, ha⟩ := h.1 hφ
  exact ⟨a, ha, h.2 a ha⟩

theorem mono {x : Except ε α} {P Q : α → Prop} (h : ReturnsIf φ x P) (hpq : ∀ a, P a → Q a) :
    ReturnsIf φ x Q := ⟨h.1, fun a ha => hpq a (h.2 a ha)⟩

theorem imp {ψ : Prop} {x : Except ε α} {P : α → Prop} (h : ReturnsIf φ x P) (hφ : ψ → φ) :
    ReturnsIf ψ x P := ⟨fun hψ => h.1 (hφ hψ), h.2⟩

theorem and {x : Except ε α} {P Q : α → Prop} (hp : ReturnsIf φ x P) (hq : ReturnsIf φ x Q) :
    ReturnsIf φ x (fun a => P a ∧ Q a) := ⟨hp.1, fun a ha => ⟨hp.2 a ha, hq.2 a ha⟩⟩

theorem bind {x : Except ε α} {f : α → Except ε β} {P : α → Prop} {Q : β → Prop}
    (hx : ReturnsIf φ x P) (hf : ∀ a, P a → ReturnsIf φ (f a) Q) : ReturnsIf φ (x >>= f) Q := by
  constructor
  · intro hφ
    obtain ⟨a, rfl⟩ := hx.1 hφ
    exact (hf a (hx.2 a rfl)).1 hφ
  · intro b hb
    cases x with
    | error e => cases hb
    | ok a => exact (hf a (hx.2 a rfl)).2 b hb

end ReturnsIf

theorem bind_eq_ok {x : Except ε α} {f : α → Except ε β} {b : β} :
    (x >>= f) = .ok b ↔ ∃ a, x = .ok a ∧ f a = .ok b := by
  cases x with
  | error e => simp [Bind.bind, Except.bind]
  | ok a => simp [Bind.bind, Except.bind]

theorem ok_bind (a : α) (f : α → Except ε β) : (Except.ok a >>= f) = f a := rfl

theorem bind_bind (x : Except ε α) (f : α → Except ε β) (g : β → Except ε γ) :
    (x >>= f) >>= g = x >>= fun a => f a >>= g := by
  cases x with
  | error e => rfl
  | ok a => rfl

/-- What follows only has to agree on the value that comes back. -/
theorem bind_congr_ok {x : Except ε α} {f g : α → Except ε β} (h : ∀ a, x = .ok a → f a = g a) :
    x >>= f = x >>= g := by
  cases x with
  | error e => rfl
  | ok a => exact h a rfl

/-! ## Runs of a step function -/

/-- The state after each input of `l`, starting in `s`. -/
def run (step : σ → ι → Except ε σ) (s : σ) (l : List ι) : Except ε σ := l.foldlM step s

theorem run_nil (step : σ → ι → Except ε σ) (s : σ) : run step s [] = .ok s := rfl

theorem run_cons (step : σ → ι → Except ε σ) (s : σ) (i : ι) (l : List ι) :
    run step s (i :: l) = step s i >>= fun t => run step t l := rfl

theorem run_append (step : σ → ι → Except ε σ) (s : σ) (l l' : List ι) :
    run step s (l ++ l') = run step s l >>= fun t => run step t l' := by
  simp [run, List.foldlM_append]

theorem run_snoc (step : σ → ι → Except ε σ) (s : σ) (l : List ι) (i : ι) :
    run step s (l ++ [i]) = run step s l >>= fun t => step t i := by
  rw [run_append]
  congr 1
  funext t
  simp [run]

/-- A run over blocks of inputs, taken block by block. -/
theorem run_flatMap {κ : Type} (step : σ → ι → Except ε σ) (f : κ → List ι) (s : σ) (l : List κ) :
    run step s (l.flatMap f) = run (fun t k => run step t (f k)) s l := by
  induction l generalizing s with
  | nil => rfl
  | cons k l ih =>
    rw [List.flatMap_cons, run_append, run, run, List.foldlM_cons]
    congr 1
    funext t
    exact ih t

/-- The run rule: a property of the inputs consumed so far and the state reached, true at the
start and kept by every step, holds after every run, and no run stops with an error. -/
theorem run_returns {step : σ → ι → Except ε σ} {I : List ι → σ → Prop} {s₀ : σ} (l : List ι)
    (h₀ : I [] s₀)
    (hstep : ∀ pre i s, (pre ++ [i]) <+: l → run step s₀ pre = .ok s → I pre s →
      Returns (step s i) (I (pre ++ [i]))) :
    Returns (run step s₀ l) (I l) := by
  suffices h : ∀ post pre s, pre ++ post = l → run step s₀ pre = .ok s → I pre s →
      Returns (run step s post) (I l) from h l [] s₀ rfl rfl h₀
  intro post
  induction post with
  | nil =>
    intro pre s hl _ hs
    rw [← hl, List.append_nil]
    exact Returns.pure hs
  | cons i post ih =>
    intro pre s hl hrun hs
    rw [run, List.foldlM_cons]
    obtain ⟨s', hs', hI⟩ := hstep pre i s ⟨post, by simpa using hl⟩ hrun hs
    rw [hs']
    refine ih (pre ++ [i]) s' (by simpa using hl) ?_ hI
    rw [run_snoc, hrun]
    exact hs'

/-- The run rule for steps that may stop. -/
theorem run_returnsIf_seen {φ : Prop} {step : σ → ι → Except ε σ} {I : List ι → σ → Prop} {s₀ : σ}
    (l : List ι) (h₀ : I [] s₀) (hstep : ∀ pre i s, (pre ++ [i]) <+: l → I pre s →
      ReturnsIf φ (step s i) (I (pre ++ [i]))) :
    ReturnsIf φ (run step s₀ l) (I l) := by
  suffices h : ∀ post pre s, pre ++ post = l → I pre s → ReturnsIf φ (run step s post) (I l) from
    h l [] s₀ rfl h₀
  intro post
  induction post with
  | nil =>
    intro pre s hl hs
    rw [← hl, List.append_nil]
    exact ReturnsIf.pure hs
  | cons i post ih =>
    intro pre s hl hs
    rw [run, List.foldlM_cons]
    exact (hstep pre i s ⟨post, by simpa using hl⟩ hs).bind fun s' hs' =>
      ih (pre ++ [i]) s' (by simpa using hl) hs'

theorem run_returnsIf {φ : Prop} {step : σ → ι → Except ε σ} {I : σ → Prop} {s₀ : σ} (l : List ι)
    (h₀ : I s₀) (hstep : ∀ s i, I s → ReturnsIf φ (step s i) I) :
    ReturnsIf φ (run step s₀ l) I :=
  run_returnsIf_seen (I := fun _ => I) l h₀ fun _ i s _ => hstep s i

/-- What every step keeps, a run keeps. -/
theorem run_keeps {step : σ → ι → Except ε σ} {I : σ → Prop}
    (hstep : ∀ s i s', I s → step s i = .ok s' → I s') {s s' : σ} {l : List ι} (hs : I s)
    (hrun : run step s l = .ok s') : I s' :=
  (run_returnsIf (φ := False) l hs fun s i hI => ⟨False.elim, fun s' h => hstep s i s' hI h⟩).2
    s' hrun

/-- The same of a property that knows the inputs so far. -/
theorem run_keeps_seen {step : σ → ι → Except ε σ} {I : List ι → σ → Prop}
    (hstep : ∀ pre s i s', I pre s → step s i = .ok s' → I (pre ++ [i]) s') {s s' : σ}
    {l : List ι} (hs : I [] s) (hrun : run step s l = .ok s') : I l s' :=
  (run_returnsIf_seen (φ := False) l hs fun pre i s _ hI =>
    ⟨False.elim, fun s' h => hstep pre s i s' hI h⟩).2 s' hrun

/-- The simulation rule: a machine that can follow every step of another one, on the same input,
can follow its runs. The relation may depend on the inputs consumed so far. -/
theorem run_simulates {τ : Type} {step : σ → ι → Except ε σ} {low : τ → ι → Except ε τ}
    {R : List ι → σ → τ → Prop}
    (hstep : ∀ pre s t i s', R pre s t → step s i = .ok s' →
      ∃ t', low t i = .ok t' ∧ R (pre ++ [i]) s' t')
    (l : List ι) {s s' : σ} {t : τ} (hR : R [] s t) (hrun : run step s l = .ok s') :
    ∃ t', run low t l = .ok t' ∧ R l s' t' := by
  induction l using List.reverseRecOn generalizing s' with
  | nil =>
    cases hrun
    exact ⟨t, rfl, hR⟩
  | append_singleton l i ih =>
    rw [run_snoc, bind_eq_ok] at hrun
    obtain ⟨s₁, hs₁, hlast⟩ := hrun
    obtain ⟨t₁, ht₁, hR₁⟩ := ih hs₁
    obtain ⟨t', ht', hR'⟩ := hstep l s₁ t₁ i s' hR₁ hlast
    refine ⟨t', ?_, hR'⟩
    rw [run_snoc, ht₁]
    exact ht'

/-- The projection rule: if every selected input takes `R` along a step of a smaller machine, and
every other input leaves `R` alone, a run is related to the run of the smaller machine over the
selected inputs. Both only have to be shown of steps to a `good` state, where a state that is
not good is never left for a good one. -/
theorem run_projects {τ : Type} {step : σ → ι → Except ε σ} {low : τ → ι → Except ε τ}
    {I good : σ → Prop} {R : σ → τ → Prop} {sel : ι → Bool}
    (hstep : ∀ s i s', I s → step s i = .ok s' → I s' ∧ (good s' → good s ∧ ∀ t, R s t →
      (sel i = true → ∃ t', low t i = .ok t' ∧ R s' t') ∧ (sel i = false → R s' t)))
    (l : List ι) {s s' : σ} {t : τ} (hI : I s) (hR : R s t) (hrun : run step s l = .ok s') :
    I s' ∧ (good s' → good s ∧ ∃ t', run low t (l.filter sel) = .ok t' ∧ R s' t') := by
  induction l using List.reverseRecOn generalizing s' with
  | nil =>
    cases hrun
    exact ⟨hI, fun hs => ⟨hs, t, rfl, hR⟩⟩
  | append_singleton l i ih =>
    rw [run_snoc, bind_eq_ok] at hrun
    obtain ⟨s₁, hs₁, hlast⟩ := hrun
    obtain ⟨hI₁, hgood₁⟩ := ih hs₁
    obtain ⟨hI', hgood'⟩ := hstep s₁ i s' hI₁ hlast
    refine ⟨hI', fun hs' => ?_⟩
    obtain ⟨hg, hnext⟩ := hgood' hs'
    obtain ⟨hgs, t₁, hlow, hR₁⟩ := hgood₁ hg
    obtain ⟨hsel, hother⟩ := hnext t₁ hR₁
    refine ⟨hgs, ?_⟩
    cases hi : sel i with
    | true =>
      obtain ⟨t', ht', hR'⟩ := hsel hi
      refine ⟨t', ?_, hR'⟩
      rw [List.filter_append, List.filter_cons_of_pos hi, List.filter_nil, run_snoc, hlow]
      exact ht'
    | false =>
      refine ⟨t₁, ?_, hother hi⟩
      rw [List.filter_append, List.filter_cons_of_neg (by simp [hi]), List.filter_nil,
        List.append_nil]
      exact hlow

end Lib
