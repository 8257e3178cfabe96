import Mathlib.Data.List.Pairwise

/-!
Blocks of values placed on the number line: a chunk `(o, xs)` puts `xs[i]` at `o + i`.

* `valueAt`: what a list of chunks puts at a position; for chunks that are apart it
  does not depend on their order (`valueAt_eq_some_iff`).
* `ContiguousFrom b cs e`: the chunks follow one another from `b` to `e` without a gap,
  so they spell out one block (`valueAt_of_contiguousFrom`).
* `holesBefore`: how many runs of free positions end at a taken one before a position,
  which is the rank of the run the position lies in.
-/

namespace Lib

variable {α : Type}

abbrev Chunk (α : Type) := Nat × List α

namespace Chunk

def stop (c : Chunk α) : Nat := c.1 + c.2.length

def Covers (c : Chunk α) (p : Nat) : Prop := c.1 ≤ p ∧ p < c.stop

instance (c : Chunk α) (p : Nat) : Decidable (c.Covers p) := inferInstanceAs (Decidable (_ ∧ _))

/-- The value a chunk puts at a position. -/
def at? (c : Chunk α) (p : Nat) : Option α := if c.1 ≤ p then c.2[p - c.1]? else none

/-- The two chunks share no position. -/
def Apart (a b : Chunk α) : Prop := a.stop ≤ b.1 ∨ b.stop ≤ a.1

theorem Apart.symm {a b : Chunk α} (h : a.Apart b) : b.Apart a := Or.symm h

instance : Std.Symm (@Chunk.Apart α) := ⟨fun _ _ h => h.symm⟩

theorem at?_eq_none_iff (c : Chunk α) (p : Nat) : c.at? p = none ↔ ¬ c.Covers p := by
  unfold at? Covers stop
  split
  · rw [List.getElem?_eq_none_iff]
    omega
  · simp only [true_iff]
    omega

theorem at?_isSome_iff (c : Chunk α) (p : Nat) : (c.at? p).isSome ↔ c.Covers p := by
  rw [Option.isSome_iff_ne_none, Ne, at?_eq_none_iff, Decidable.not_not]

theorem covers_of_at? {c : Chunk α} {p : Nat} {x : α} (h : c.at? p = some x) : c.Covers p := by
  rw [← at?_isSome_iff, h]
  rfl

theorem Apart.not_covers {a b : Chunk α} (h : a.Apart b) {p : Nat} (ha : a.Covers p) :
    ¬ b.Covers p := by
  rintro ⟨hb, hb'⟩
  obtain ⟨ha, ha'⟩ := ha
  rcases h with h | h <;> omega

theorem apart_of_not_covers {a b : Chunk α} (ha : a.2 ≠ []) (hb : b.2 ≠ [])
    (h : ∀ p, a.Covers p → ¬ b.Covers p) : a.Apart b := by
  have ha' := List.length_pos_iff.mpr ha
  have hb' := List.length_pos_iff.mpr hb
  have h₁ := h a.1
  have h₂ := h b.1
  unfold Covers Apart stop at *
  omega

/-- The piece of a chunk between two positions inside it. -/
def piece (c : Chunk α) (g : Nat × Nat) : Chunk α :=
  (g.1, (c.2.take (g.2 - c.1)).drop (g.1 - c.1))

theorem piece_stop {c : Chunk α} {g : Nat × Nat} (h : c.1 ≤ g.1) (h' : g.1 ≤ g.2)
    (h'' : g.2 ≤ c.stop) : (c.piece g).stop = g.2 := by
  simp only [piece, stop, List.length_drop, List.length_take] at *
  omega

theorem piece_at? {c : Chunk α} {g : Nat × Nat} (h : c.1 ≤ g.1) (p : Nat) :
    (c.piece g).at? p = if g.1 ≤ p ∧ p < g.2 then c.at? p else none := by
  by_cases hp : g.1 ≤ p
  · simp only [piece, at?, hp, ↓reduceIte, true_and, List.getElem?_drop, List.getElem?_take,
      show c.1 ≤ p by omega]
    have e : g.1 - c.1 + (p - g.1) = p - c.1 := by omega
    rw [e]
    by_cases hp' : p < g.2
    · rw [if_pos (by omega), if_pos hp']
    · rw [if_neg (by omega), if_neg hp']
  · simp [piece, at?, hp]

end Chunk

/-! ## Lists of chunks -/

def valueAt (cs : List (Chunk α)) (p : Nat) : Option α := cs.findSome? (fun c => c.at? p)

theorem mem_of_valueAt {cs : List (Chunk α)} {p : Nat} {x : α} (h : valueAt cs p = some x) :
    ∃ c ∈ cs, c.at? p = some x := List.exists_of_findSome?_eq_some h

theorem valueAt_eq_none_iff (cs : List (Chunk α)) (p : Nat) :
    valueAt cs p = none ↔ ∀ c ∈ cs, ¬ c.Covers p := by
  simp [valueAt, List.findSome?_eq_none_iff, Chunk.at?_eq_none_iff]

theorem valueAt_isSome_iff (cs : List (Chunk α)) (p : Nat) :
    (valueAt cs p).isSome ↔ ∃ c ∈ cs, c.Covers p := by
  rw [Option.isSome_iff_ne_none, Ne, valueAt_eq_none_iff]
  constructor
  · intro h
    apply Decidable.byContradiction
    intro hn
    exact h fun c hc hp => hn ⟨c, hc, hp⟩
  · rintro ⟨c, hc, hp⟩ h
    exact h c hc hp

/-- Among chunks that are apart, the one that covers a position decides its value. -/
theorem valueAt_eq_some_iff {cs : List (Chunk α)} (h : cs.Pairwise Chunk.Apart) (p : Nat) (x : α) :
    valueAt cs p = some x ↔ ∃ c ∈ cs, c.at? p = some x := by
  refine ⟨mem_of_valueAt, fun ⟨c, hc, hx⟩ => ?_⟩
  cases hv : valueAt cs p with
  | none => exact absurd (Chunk.covers_of_at? hx) ((valueAt_eq_none_iff cs p).mp hv c hc)
  | some y =>
    obtain ⟨c', hc', hy⟩ := mem_of_valueAt hv
    by_cases he : c = c'
    · rw [← he, hx] at hy
      exact hy.symm
    · have hap : c.Apart c' := h.forall hc hc' he
      exact absurd (Chunk.covers_of_at? hy) (hap.not_covers (Chunk.covers_of_at? hx))

theorem valueAt_append (cs ds : List (Chunk α)) (p : Nat) :
    valueAt (cs ++ ds) p = (valueAt cs p).or (valueAt ds p) := by
  simp [valueAt, List.findSome?_append]

theorem valueAt_perm {cs ds : List (Chunk α)} (hp : cs.Perm ds) (h : ds.Pairwise Chunk.Apart)
    (p : Nat) : valueAt cs p = valueAt ds p := by
  have h' : cs.Pairwise Chunk.Apart := (hp.pairwise_iff fun h => h.symm).mpr h
  apply Option.ext
  intro x
  rw [valueAt_eq_some_iff h, valueAt_eq_some_iff h']
  simp only [hp.mem_iff]

/-! ## Contiguous chunks -/

def ContiguousFrom : Nat → List (Chunk α) → Nat → Prop
  | b, [], e => b = e
  | b, c :: cs, e => c.1 = b ∧ ContiguousFrom c.stop cs e

/-- The values of the chunks, one after the other. -/
def contents (cs : List (Chunk α)) : List α := cs.flatMap Prod.snd

theorem contents_append (cs ds : List (Chunk α)) :
    contents (cs ++ ds) = contents cs ++ contents ds := by
  simp [contents]

theorem contiguousFrom_append {cs ds : List (Chunk α)} {b m e : Nat}
    (h : ContiguousFrom b cs m) (h' : ContiguousFrom m ds e) : ContiguousFrom b (cs ++ ds) e := by
  induction cs generalizing b with
  | nil => cases h; exact h'
  | cons c cs ih => exact ⟨h.1, ih h.2⟩

theorem contiguousFrom_le {cs : List (Chunk α)} {b e : Nat} (h : ContiguousFrom b cs e) :
    e = b + (contents cs).length := by
  induction cs generalizing b with
  | nil => cases h; rfl
  | cons c cs ih =>
    obtain ⟨hb, ht⟩ := h
    have := ih ht
    simp only [contents, List.flatMap_cons, List.length_append, Chunk.stop] at *
    omega

theorem contiguousFrom_bounds {cs : List (Chunk α)} {b e : Nat} (h : ContiguousFrom b cs e) :
    ∀ c ∈ cs, b ≤ c.1 ∧ c.stop ≤ e := by
  induction cs generalizing b with
  | nil => simp
  | cons c cs ih =>
    obtain ⟨hb, ht⟩ := h
    have he := contiguousFrom_le ht
    have hs : c.1 ≤ c.stop := Nat.le_add_right _ _
    intro c' hc'
    rcases List.mem_cons.mp hc' with rfl | hc'
    · omega
    · have := ih ht c' hc'
      omega

theorem contiguousFrom_apart {cs : List (Chunk α)} {b e : Nat} (h : ContiguousFrom b cs e) :
    cs.Pairwise Chunk.Apart := by
  induction cs generalizing b with
  | nil => exact List.Pairwise.nil
  | cons c cs ih =>
    obtain ⟨-, ht⟩ := h
    exact List.pairwise_cons.mpr
      ⟨fun c' hc' => .inl (contiguousFrom_bounds ht c' hc').1, ih ht⟩

/-- Contiguous chunks cover no position twice. -/
theorem countP_covers_le_one {cs : List (Chunk α)} {b e : Nat} (h : ContiguousFrom b cs e)
    (p : Nat) : cs.countP (fun c => c.Covers p) ≤ 1 := by
  induction cs generalizing b with
  | nil => simp
  | cons c cs ih =>
    obtain ⟨-, ht⟩ := h
    by_cases hc : c.Covers p
    · have hrest : cs.countP (fun c => c.Covers p) = 0 := by
        rw [List.countP_eq_zero]
        intro c' hc'
        have := contiguousFrom_bounds ht c' hc'
        rw [decide_eq_true_eq]
        unfold Chunk.Covers at hc ⊢
        omega
      have hone : (c :: cs).countP (fun c => c.Covers p) = 1 := by
        rw [List.countP_cons, hrest, if_pos (by simpa using hc)]
      exact Nat.le_of_eq hone
    · rw [List.countP_cons, if_neg (by simpa using hc)]
      exact ih ht

/-- Chunks that follow one another inside `[lo, hi)` fit into it. -/
theorem contents_length_le {cs : List (Chunk α)} {lo hi : Nat} (hle : lo ≤ hi)
    (hasc : cs.Pairwise (fun a b => a.stop ≤ b.1)) (hin : ∀ c ∈ cs, lo ≤ c.1 ∧ c.stop ≤ hi) :
    (contents cs).length ≤ hi - lo := by
  induction cs generalizing lo with
  | nil => exact Nat.zero_le _
  | cons c cs ih =>
    obtain ⟨hc, hasc'⟩ := List.pairwise_cons.mp hasc
    obtain ⟨hlo, hhi⟩ := hin c List.mem_cons_self
    have hin' : ∀ c' ∈ cs, c.stop ≤ c'.1 ∧ c'.stop ≤ hi := fun c' hc' =>
      ⟨hc c' hc', (hin c' (List.mem_cons_of_mem _ hc')).2⟩
    have hrest := ih hhi hasc' hin'
    have hlen : (contents (c :: cs)).length = c.2.length + (contents cs).length := by
      simp [contents]
    unfold Chunk.stop at *
    omega

/-- Contiguous chunks put their contents, in order, at the positions from `b` on. -/
theorem valueAt_of_contiguousFrom {cs : List (Chunk α)} {b e : Nat} (h : ContiguousFrom b cs e)
    (p : Nat) : valueAt cs p = Chunk.at? (b, contents cs) p := by
  induction cs generalizing b with
  | nil => simp [valueAt, contents, Chunk.at?]
  | cons c cs ih =>
    obtain ⟨hb, ht⟩ := h
    have htail := ih ht
    rw [show c :: cs = [c] ++ cs from rfl, valueAt_append, htail, contents_append]
    simp only [valueAt, contents, List.findSome?_cons, List.findSome?_nil, List.flatMap_cons,
      List.flatMap_nil, List.append_nil, Chunk.at?, Chunk.stop, hb]
    by_cases hp : b ≤ p
    · simp only [hp, ↓reduceIte]
      by_cases hc : p - b < c.2.length
      · rw [List.getElem?_append_left hc, List.getElem?_eq_getElem hc]
        rfl
      · rw [List.getElem?_append_right (by omega), List.getElem?_eq_none (by omega)]
        simp only [Option.or, show b + c.2.length ≤ p by omega, ↓reduceIte, Nat.sub_sub]
    · simp [hp, show ¬ b + c.2.length ≤ p by omega]

/-! ## Runs of free positions -/

/-- The free positions of `[start, p)` that are followed by a taken one. -/
def holesBefore (taken : Nat → Bool) (start p : Nat) : Nat :=
  (List.range' start (p - start)).countP (fun q => !taken q && taken (q + 1))

theorem holesBefore_split (taken : Nat → Bool) {start m p : Nat} (h : start ≤ m) (h' : m ≤ p) :
    holesBefore taken start p = holesBefore taken start m + holesBefore taken m p := by
  unfold holesBefore
  rw [← List.countP_append]
  congr 1
  have hm : start + 1 * (m - start) = m := by omega
  have hr := @List.range'_append start (m - start) (p - m) 1
  rw [hm] at hr
  rw [hr]
  congr 1
  omega

theorem holesBefore_eq_zero {taken : Nat → Bool} {start p : Nat}
    (h : ∀ q, start ≤ q → q < p → taken q = true ∨ taken (q + 1) = false) :
    holesBefore taken start p = 0 := by
  unfold holesBefore
  rw [List.countP_eq_zero]
  intro q hq
  rw [List.mem_range'_1] at hq
  rcases h q (by omega) (by omega) with h | h <;> simp [h]

theorem holesBefore_succ (taken : Nat → Bool) (start : Nat) :
    holesBefore taken start (start + 1) = if !taken start && taken (start + 1) then 1 else 0 := by
  simp [holesBefore, List.countP_cons]

theorem holesBefore_of_free {taken : Nat → Bool} {start p : Nat}
    (h : ∀ q, start ≤ q → q ≤ p → taken q = false) : holesBefore taken start p = 0 :=
  holesBefore_eq_zero fun q hq hq' => .inr (h (q + 1) (Nat.le_succ_of_le hq) hq')

theorem holesBefore_of_taken {taken : Nat → Bool} {start p : Nat}
    (h : ∀ q, start ≤ q → q < p → taken q = true) : holesBefore taken start p = 0 :=
  holesBefore_eq_zero fun q hq hq' => .inl (h q hq hq')

/-- One run of free positions with taken ones behind it. -/
theorem holesBefore_one {taken : Nat → Bool} {start edge p : Nat} (h : start < edge)
    (h' : edge < p) (hfree : ∀ q, start ≤ q → q < edge → taken q = false)
    (htaken : ∀ q, edge ≤ q → q < p → taken q = true) : holesBefore taken start p = 1 := by
  obtain ⟨last, rfl⟩ : ∃ last, edge = last + 1 := ⟨edge - 1, by omega⟩
  have hstart : holesBefore taken start last = 0 :=
    holesBefore_of_free fun q hq hq' => hfree q hq (Nat.lt_succ_of_le hq')
  have hedge : holesBefore taken last (last + 1) = 1 := by
    rw [holesBefore_succ, hfree last (by omega) (by omega), htaken (last + 1) (by omega) h']
    rfl
  calc holesBefore taken start p
      = holesBefore taken start last + holesBefore taken last p :=
        holesBefore_split taken (by omega) (by omega)
    _ = 0 + (1 + holesBefore taken (last + 1) p) := by
        rw [hstart, holesBefore_split taken (Nat.le_succ last) (by omega), hedge]
    _ = 1 := by rw [holesBefore_of_taken htaken]

end Lib
