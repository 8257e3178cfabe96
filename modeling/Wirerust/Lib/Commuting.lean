import Mathlib.Data.List.Perm.Basic
import Wirerust.Lib.Checked

/-!
Steps that can be taken in any order.

`Follows R x y`: if `x` comes back with a value then `y` does, with a related one. A step
function whose steps keep `R`, and any two of which can be swapped up to `R`, leads to related
states whichever way its inputs are ordered (`foldlM_perm`).
-/

namespace Lib

variable {ε α β γ δ σ ι : Type}

def Follows (R : α → β → Prop) (x : Except ε α) (y : Except ε β) : Prop :=
  ∀ a, x = .ok a → ∃ b, y = .ok b ∧ R a b

namespace Follows

theorem of_eq {R : α → α → Prop} (hrefl : ∀ a, R a a) {x y : Except ε α} (h : x = y) :
    Follows R x y := fun a ha => ⟨a, h ▸ ha, hrefl a⟩

theorem trans {R : α → β → Prop} {S : β → γ → Prop} {T : α → γ → Prop}
    (hcomp : ∀ a b c, R a b → S b c → T a c) {x : Except ε α} {y : Except ε β} {z : Except ε γ}
    (hxy : Follows R x y) (hyz : Follows S y z) : Follows T x z := by
  intro a ha
  obtain ⟨b, hb, hR⟩ := hxy a ha
  obtain ⟨c, hc, hS⟩ := hyz b hb
  exact ⟨c, hc, hcomp a b c hR hS⟩

theorem bind {R : α → β → Prop} {S : γ → δ → Prop} {x : Except ε α} {y : Except ε β}
    {f : α → Except ε γ} {g : β → Except ε δ} (hxy : Follows R x y)
    (hfg : ∀ a b, R a b → Follows S (f a) (g b)) : Follows S (x >>= f) (y >>= g) := by
  intro c hc
  rw [bind_eq_ok] at hc
  obtain ⟨a, ha, hfa⟩ := hc
  obtain ⟨b, hb, hR⟩ := hxy a ha
  obtain ⟨d, hd, hS⟩ := hfg a b hR c hfa
  exact ⟨d, bind_eq_ok.mpr ⟨b, hb, hd⟩, hS⟩

end Follows

/-- The order of the inputs does not matter to steps that keep `R` and can be swapped. -/
theorem foldlM_perm {R : σ → σ → Prop} (hrefl : ∀ s, R s s)
    (htrans : ∀ s t u, R s t → R t u → R s u) {step : σ → ι → Except ε σ}
    (hstep : ∀ s t i, R s t → Follows R (step s i) (step t i))
    (hswap : ∀ s i j, Follows R (step s i >>= fun t => step t j) (step s j >>= fun t => step t i))
    {l l' : List ι} (hperm : l.Perm l') {s t : σ} (hR : R s t) :
    Follows R (l.foldlM step s) (l'.foldlM step t) := by
  have hsame : ∀ (l : List ι) {s t : σ}, R s t → Follows R (l.foldlM step s) (l.foldlM step t) :=
    fun l _ _ h a ha => run_simulates (R := fun _ => R)
      (fun _ s t i s' hst hs' => hstep s t i hst s' hs') l h ha
  induction hperm generalizing s t with
  | nil => exact hsame [] hR
  | cons i _ ih =>
    rw [List.foldlM_cons, List.foldlM_cons]
    exact (hstep s t i hR).bind fun a b hab => ih hab
  | swap i j l =>
    -- swap in `s`, then go over to `t`
    have hswapped : Follows R ((j :: i :: l).foldlM step s) ((i :: j :: l).foldlM step s) := by
      simp only [List.foldlM_cons, ← bind_bind]
      exact (hswap s j i).bind fun a b hab => hsame l hab
    exact hswapped.trans htrans (hsame (i :: j :: l) hR)
  | trans _ _ ih ih' => exact (ih hR).trans htrans (ih' (hrefl t))

end Lib
