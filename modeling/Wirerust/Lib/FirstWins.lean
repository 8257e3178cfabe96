/-!
A store in which the first value written to a cell is the one that counts.

Cells hold a value while it waits in the buffer `buf`, and `out` records the values that
have left it. A step either offers values, which only free cells of the buffer take, or
hands out a part of the buffer, each cell for the first time. Then `held`, the value a cell
has been given first, never changes again (`Step.held`), and as long as no offer disagrees
with a value already handed out (`Clash`), the buffer never disagrees with it either
(`Step.agrees`).
-/

namespace Lib.FirstWins

variable {ι α : Type}

structure Store (ι α : Type) where
  buf : ι → Option α
  out : ι → Option α

namespace Store

/-- The value the cell was given first. -/
def held (s : Store ι α) (p : ι) : Option α := (s.out p).or (s.buf p)

/-- Buffered values repeat what has been handed out. -/
def Agrees (s : Store ι α) : Prop := ∀ p v w, s.out p = some v → s.buf p = some w → w = v

theorem held_eq_none {s : Store ι α} {p : ι} :
    s.held p = none ↔ s.out p = none ∧ s.buf p = none := Option.or_eq_none_iff

theorem held_of_out {s : Store ι α} {p : ι} {v : α} (h : s.out p = some v) :
    s.held p = some v := by
  rw [held, h, Option.some_or]

theorem Agrees.held_of_buf {s : Store ι α} (h : s.Agrees) {p : ι} {v : α}
    (hv : s.buf p = some v) : s.held p = some v := by
  unfold held
  cases hout : s.out p with
  | none => exact hv
  | some w => rw [h p w v hout hv, Option.some_or]

end Store

/-- A free cell is offered another value than the one it has handed out. -/
def Clash (s : Store ι α) (new : ι → Option α) : Prop :=
  ∃ p x v, s.buf p = none ∧ new p = some x ∧ s.out p = some v ∧ x ≠ v

/-- One step; the middle argument is what it offers. -/
inductive Step (s : Store ι α) : (ι → Option α) → Store ι α → Prop
  | offer (new : ι → Option α) : Step s new ⟨fun p => (s.buf p).or (new p), s.out⟩
  | deliver (sent left : ι → Option α) (hsplit : ∀ p, s.buf p = (sent p).or (left p))
      (hapart : ∀ p, sent p = none ∨ left p = none)
      (honce : ∀ p v, sent p = some v → s.out p = none) :
      Step s (fun _ => none) ⟨left, fun p => (s.out p).or (sent p)⟩

variable {s s' : Store ι α} {new : ι → Option α}

theorem Step.held (h : Step s new s') {p : ι} {v : α} (hv : s.held p = some v) :
    s'.held p = some v := by
  unfold Store.held at *
  cases h with
  | offer => rw [← Option.or_assoc, hv, Option.some_or]
  | deliver sent left hsplit =>
    rw [Option.or_assoc, ← hsplit]
    exact hv

/-- A cell gets its first value from an offer, into the buffer. -/
theorem Step.held_of_none (h : Step s new s') {p : ι} (hp : s.held p = none) :
    s'.held p = s'.buf p := by
  obtain ⟨hout, hbuf⟩ := Store.held_eq_none.mp hp
  unfold Store.held
  cases h with
  | offer => rw [hout, Option.none_or]
  | deliver sent left hsplit =>
    rw [hsplit, Option.or_eq_none_iff] at hbuf
    simp only [hout, hbuf.1, Option.none_or]

theorem Step.agrees (h : Step s new s') (ha : s.Agrees) (hnew : ¬ Clash s new) : s'.Agrees := by
  intro p v w hv hw
  cases h with
  | offer =>
    cases hbuf : s.buf p with
    | some u =>
      simp only [hbuf, Option.some_or] at hw
      exact ha p v w hv (hbuf.trans hw)
    | none =>
      simp only [hbuf, Option.none_or] at hw
      apply Classical.byContradiction
      intro hne
      exact hnew ⟨p, w, v, hbuf, hw, hv, hne⟩
  | deliver sent left hsplit hapart honce =>
    simp only at hv hw
    have hsent : sent p = none := by
      rcases hapart p with h | h
      · exact h
      · rw [h] at hw
        cases hw
    rw [hsent, Option.or_none] at hv
    exact ha p v w hv (by rw [hsplit, hsent, Option.none_or]; exact hw)

end Lib.FirstWins
