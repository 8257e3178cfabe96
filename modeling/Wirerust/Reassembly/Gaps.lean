import Wirerust.Lib.Chunks
import Wirerust.Reassembly.Segment

/-!
What the cursor sweep of `select_gaps` returns, for every list of ranges sorted by start:
non-empty ascending gaps inside the new segment (`sweepGaps_bounds`, `sweepGaps_ascending`)
that hold exactly the positions no overlapping range covers (`sweepGaps_mem_iff`). Together they
are a partition of what is free (`selectGaps_partitions`).

When the ranges are apart, as the buffered segments are, the place of a gap in the list is
the number of free runs the sweep has closed before it (`sweepGaps_rank`).
-/

namespace Wirerust.Gaps

open Lib Wirerust.Segment

def Within (g : Nat × Nat) (p : Nat) : Prop := g.1 ≤ p ∧ p < g.2

instance (g : Nat × Nat) (p : Nat) : Decidable (Within g p) := inferInstanceAs (Decidable (_ ∧ _))

theorem rangesOverlap_iff (newStart newEnd es ee : Nat) :
    rangesOverlap newStart newEnd es ee = true ↔ newStart < ee ∧ es < newEnd := by
  simp [rangesOverlap]

variable {newStart newEnd : Nat}

/-! ## One range -/

/-- What the cursor passes over before it comes to `start`. -/
def gapBefore (newEnd cursor start : Nat) : List (Nat × Nat) :=
  if cursor < start then [(cursor, min start newEnd)] else []

theorem mem_gapBefore {cursor start : Nat} {g : Nat × Nat} :
    g ∈ gapBefore newEnd cursor start ↔ cursor < start ∧ g = (cursor, min start newEnd) := by
  unfold gapBefore
  split
  · rename_i hlt
    rw [List.mem_singleton]
    exact ⟨fun h => ⟨hlt, h⟩, fun h => h.2⟩
  · rename_i hge
    exact ⟨fun h => absurd h List.not_mem_nil, fun h => absurd h.1 hge⟩

theorem gapBefore_covers {cursor start p : Nat} (hp : cursor ≤ p) (hp' : p < newEnd) :
    (∃ g ∈ gapBefore newEnd cursor start, Within g p) ↔ p < start := by
  constructor
  · rintro ⟨g, hg, hw⟩
    obtain ⟨-, rfl⟩ := mem_gapBefore.mp hg
    exact Nat.lt_of_lt_of_le hw.2 (Nat.min_le_left _ _)
  · intro hlt
    refine ⟨_, mem_gapBefore.mpr ⟨by omega, rfl⟩, hp, ?_⟩
    simp only
    omega

theorem gapBefore_ascending (cursor start : Nat) :
    (gapBefore newEnd cursor start).Pairwise (fun a b => a.2 ≤ b.1) := by
  unfold gapBefore
  split
  · exact List.pairwise_singleton _ _
  · exact .nil

theorem gaps_nil (cursor : Nat) :
    (sweepGaps newStart newEnd cursor []).gaps = gapBefore newEnd cursor newEnd := by
  rw [sweepGaps, gapBefore, Nat.min_self]

theorem gaps_cons {r : Nat × Nat} (hov : rangesOverlap newStart newEnd r.1 r.2 = true)
    (cursor : Nat) (rs : List (Nat × Nat)) :
    (sweepGaps newStart newEnd cursor (r :: rs)).gaps =
      gapBefore newEnd cursor r.1 ++ (sweepGaps newStart newEnd (max cursor r.2) rs).gaps := by
  rw [sweepGaps, if_pos hov, gapBefore]
  simp only
  split
  · rfl
  · rfl

theorem sweepGaps_cons_of_not {r : Nat × Nat}
    (hov : ¬ rangesOverlap newStart newEnd r.1 r.2 = true) (cursor : Nat)
    (rs : List (Nat × Nat)) :
    sweepGaps newStart newEnd cursor (r :: rs) = sweepGaps newStart newEnd cursor rs := by
  rw [sweepGaps, if_neg hov]

/-! ## All ranges -/

theorem sweepGaps_bounds (rs : List (Nat × Nat)) (cursor : Nat) :
    ∀ g ∈ (sweepGaps newStart newEnd cursor rs).gaps, cursor ≤ g.1 ∧ g.1 < g.2 ∧ g.2 ≤ newEnd := by
  induction rs generalizing cursor with
  | nil =>
    intro g hg
    rw [gaps_nil] at hg
    obtain ⟨hlt, rfl⟩ := mem_gapBefore.mp hg
    simp only
    omega
  | cons r rs ih =>
    intro g hg
    by_cases hov : rangesOverlap newStart newEnd r.1 r.2 = true
    · rw [gaps_cons hov] at hg
      rcases List.mem_append.mp hg with hg | hg
      · rw [rangesOverlap_iff] at hov
        obtain ⟨hlt, rfl⟩ := mem_gapBefore.mp hg
        simp only
        omega
      · have := ih _ g hg
        omega
    · rw [sweepGaps_cons_of_not hov] at hg
      exact ih _ g hg

theorem sweepGaps_ascending (rs : List (Nat × Nat)) (hle : ∀ r ∈ rs, r.1 ≤ r.2) (cursor : Nat) :
    (sweepGaps newStart newEnd cursor rs).gaps.Pairwise (fun a b => a.2 ≤ b.1) := by
  induction rs generalizing cursor with
  | nil =>
    rw [gaps_nil]
    exact gapBefore_ascending _ _
  | cons r rs ih =>
    have hr := hle r List.mem_cons_self
    have ih := ih fun r h => hle r (List.mem_cons_of_mem _ h)
    by_cases hov : rangesOverlap newStart newEnd r.1 r.2 = true
    · rw [gaps_cons hov]
      refine List.pairwise_append.mpr ⟨gapBefore_ascending _ _, ih _, fun a ha b hb => ?_⟩
      obtain ⟨hlt, rfl⟩ := mem_gapBefore.mp ha
      have := (sweepGaps_bounds rs _ b hb).1
      simp only
      omega
    · rw [sweepGaps_cons_of_not hov]
      exact ih _

/-- A position of the new segment lies in a gap exactly when no overlapping range holds it. -/
theorem sweepGaps_mem_iff (rs : List (Nat × Nat)) (hs : rs.Pairwise (fun a b => a.1 ≤ b.1))
    (cursor p : Nat) (hp : cursor ≤ p) (hp' : p < newEnd) :
    (∃ g ∈ (sweepGaps newStart newEnd cursor rs).gaps, Within g p) ↔
      ∀ r ∈ rs, rangesOverlap newStart newEnd r.1 r.2 = true → ¬ Within r p := by
  induction rs generalizing cursor with
  | nil =>
    rw [gaps_nil, gapBefore_covers hp hp']
    exact iff_of_true hp' fun r hr => absurd hr List.not_mem_nil
  | cons r rs ih =>
    obtain ⟨hr, hs'⟩ := List.pairwise_cons.mp hs
    rw [List.forall_mem_cons]
    by_cases hov : rangesOverlap newStart newEnd r.1 r.2 = true
    · simp only [gaps_cons hov, List.mem_append, or_and_right, exists_or]
      rw [gapBefore_covers hp hp', forall_prop_of_true hov]
      -- the positions below the range are free, those in it taken, the rest is left to the tail
      by_cases hlow : p < r.1
      · refine iff_of_true (.inl hlow) ⟨fun h => absurd h.1 (by omega), fun r' hr' _ h => ?_⟩
        have := hr r' hr'
        exact absurd h.1 (by omega)
      · rw [or_iff_right hlow]
        by_cases hmid : p < r.2
        · refine iff_of_false ?_ fun h => h.1 ⟨by omega, hmid⟩
          rintro ⟨g, hg, hw⟩
          have := (sweepGaps_bounds rs _ g hg).1
          have := hw.1
          omega
        · rw [and_iff_right fun h => hmid h.2]
          exact ih hs' (max cursor r.2) (by omega)
    · rw [sweepGaps_cons_of_not hov, and_iff_right fun h => absurd h hov]
      exact ih hs' cursor hp

theorem sweepGaps_fullyCovered_iff (rs : List (Nat × Nat)) (cursor : Nat) :
    (sweepGaps newStart newEnd cursor rs).fullyCovered = true ↔
      ∃ r ∈ rs, rangesOverlap newStart newEnd r.1 r.2 = true ∧ r.1 ≤ newStart ∧ newEnd ≤ r.2 := by
  induction rs generalizing cursor with
  | nil => simp [sweepGaps]
  | cons r rs ih =>
    obtain ⟨es, ee⟩ := r
    simp only [sweepGaps, List.mem_cons, exists_eq_or_imp]
    split
    · rename_i hov
      simp only [Bool.or_eq_true, Bool.and_eq_true, decide_eq_true_eq, ge_iff_le, ih, hov, true_and]
    · rename_i hov
      simp only [hov, ih, Bool.false_eq_true, false_and, false_or]

theorem sortedByStart_of_pairwise {rs : List (Nat × Nat)} (h : rs.Pairwise (fun a b => a.1 ≤ b.1)) :
    sortedByStart rs = true := by
  induction rs with
  | nil => rfl
  | cons a rs ih =>
    obtain ⟨ha, hrs⟩ := List.pairwise_cons.mp h
    cases rs with
    | nil => rfl
    | cons b rs =>
      simp only [sortedByStart, Bool.and_eq_true, decide_eq_true_eq]
      exact ⟨ha b List.mem_cons_self, ih hrs⟩

/-- The gaps are what the overlapping ranges leave of `[newStart, newEnd)`. -/
structure Partitions (newStart newEnd : Nat) (existing : List (Nat × Nat)) (sel : SelectGaps) :
    Prop where
  inside : ∀ g ∈ sel.gaps, newStart ≤ g.1 ∧ g.1 < g.2 ∧ g.2 ≤ newEnd
  /-- If no range ends before it starts. -/
  apart : (∀ r ∈ existing, r.1 ≤ r.2) → sel.gaps.Pairwise fun a b => a.2 ≤ b.1
  free : ∀ p, newStart ≤ p → p < newEnd → ((∃ g ∈ sel.gaps, Within g p) ↔
    ∀ r ∈ existing, rangesOverlap newStart newEnd r.1 r.2 = true → ¬ Within r p)
  covered : sel.fullyCovered = true ↔ ∃ r ∈ existing,
    rangesOverlap newStart newEnd r.1 r.2 = true ∧ r.1 ≤ newStart ∧ newEnd ≤ r.2

theorem sweepGaps_partitions (newStart newEnd : Nat) {existing : List (Nat × Nat)}
    (hsorted : existing.Pairwise fun a b => a.1 ≤ b.1) :
    Partitions newStart newEnd existing (sweepGaps newStart newEnd newStart existing) where
  inside := sweepGaps_bounds existing newStart
  apart := fun hranges => sweepGaps_ascending existing hranges newStart
  free := sweepGaps_mem_iff existing hsorted newStart
  covered := sweepGaps_fullyCovered_iff existing newStart

/-- Ranges may overlap, nest, be empty or lie outside. -/
theorem selectGaps_partitions (newStart newEnd : Nat) (hne : newStart < newEnd)
    (existing : List (Nat × Nat)) (hsorted : existing.Pairwise fun a b => a.1 ≤ b.1) :
    ∃ sel, selectGaps newStart newEnd existing = .ok sel ∧
      Partitions newStart newEnd existing sel ∧
      (sel.fullyCovered = true ↔ ∃ r ∈ existing, r.1 ≤ newStart ∧ newEnd ≤ r.2) := by
  have hparts := sweepGaps_partitions newStart newEnd hsorted
  refine ⟨_, ?_, hparts, ?_⟩
  · rw [selectGaps, assertThat_of (sortedByStart_of_pairwise hsorted), ok_bind]
  · rw [hparts.covered]
    constructor
    · rintro ⟨r, hr, -, hcovers⟩
      exact ⟨r, hr, hcovers⟩
    · -- whatever holds a segment that is not empty overlaps with it
      rintro ⟨r, hr, hstart, hend⟩
      have hov : rangesOverlap newStart newEnd r.1 r.2 = true := by
        rw [rangesOverlap_iff]
        omega
      exact ⟨r, hr, hov, hstart, hend⟩

/-- A nested range, an empty one and one that is further on. -/
theorem selectGaps_partitions_nested :
    ∃ sel, selectGaps 0 10 [(2, 6), (3, 4), (8, 8), (20, 30)] = .ok sel ∧
      sel.gaps = [(0, 2), (6, 8), (8, 10)] ∧
      Partitions 0 10 [(2, 6), (3, 4), (8, 8), (20, 30)] sel := by
  obtain ⟨sel, hsel, hparts, -⟩ := selectGaps_partitions 0 10 (by decide)
    [(2, 6), (3, 4), (8, 8), (20, 30)] (by decide)
  refine ⟨sel, hsel, ?_, hparts⟩
  have heval : selectGaps 0 10 [(2, 6), (3, 4), (8, 8), (20, 30)] =
      .ok ⟨false, [(0, 2), (6, 8), (8, 10)]⟩ := by decide
  rw [heval] at hsel
  cases hsel
  rfl

/-! ## Ranges that are apart -/

/-- From the cursor on, what is taken is what the ranges hold. -/
def TakenBy (taken : Nat → Bool) (newEnd cursor : Nat) (rs : List (Nat × Nat)) : Prop :=
  ∀ q, cursor ≤ q → q < newEnd → (taken q = true ↔ ∃ r ∈ rs, Within r q)

namespace TakenBy

variable {taken : Nat → Bool} {cursor : Nat} {r : Nat × Nat} {rs : List (Nat × Nat)}

theorem tail (h : TakenBy taken newEnd cursor (r :: rs)) :
    TakenBy taken newEnd (max cursor r.2) rs := by
  intro q hq hq'
  rw [h q (by omega) hq']
  simp only [List.mem_cons, exists_eq_or_imp]
  exact or_iff_right fun hw => absurd hw.2 (by omega)

theorem free_of_nil (h : TakenBy taken newEnd cursor []) {q : Nat} (hq : cursor ≤ q)
    (hq' : q < newEnd) : taken q = false := by
  rw [Bool.eq_false_iff, Ne, h q hq hq']
  rintro ⟨r, hr, -⟩
  exact absurd hr List.not_mem_nil

theorem free_before (h : TakenBy taken newEnd cursor (r :: rs)) (hstart : r.1 < newEnd)
    (hafter : ∀ r' ∈ rs, r.1 ≤ r'.1) {q : Nat} (hq : cursor ≤ q) (hq' : q < r.1) :
    taken q = false := by
  rw [Bool.eq_false_iff, Ne, h q hq (by omega)]
  rintro ⟨r', hr', hw⟩
  have hw' := hw.1
  rcases List.mem_cons.mp hr' with rfl | hr'
  · omega
  · have := hafter r' hr'
    omega

theorem taken_inside (h : TakenBy taken newEnd cursor (r :: rs)) {q : Nat} (hq : cursor ≤ q)
    (hq' : q < newEnd) (hw : Within r q) : taken q = true :=
  (h q hq hq').mpr ⟨r, List.mem_cons_self, hw⟩

end TakenBy

/-- The `i`-th gap is the one before which `i` free runs end. -/
theorem sweepGaps_rank (taken : Nat → Bool) (rs : List (Nat × Nat))
    (hapart : rs.Pairwise (fun a b => a.2 ≤ b.1)) (hne : ∀ r ∈ rs, r.1 < r.2)
    (hov : ∀ r ∈ rs, rangesOverlap newStart newEnd r.1 r.2 = true) (cursor : Nat)
    (htaken : TakenBy taken newEnd cursor rs)
    (i : Nat) (g : Nat × Nat) (hg : (sweepGaps newStart newEnd cursor rs).gaps[i]? = some g)
    (p : Nat) (hp : Within g p) : holesBefore taken cursor p = i := by
  induction rs generalizing cursor i with
  | nil =>
    rw [gaps_nil] at hg
    obtain ⟨hlt, rfl⟩ := mem_gapBefore.mp (List.mem_of_getElem? hg)
    rw [gapBefore, if_pos hlt] at hg
    obtain ⟨hi, -⟩ := List.getElem?_eq_some_iff.mp hg
    obtain rfl : i = 0 := Nat.lt_one_iff.mp hi
    have hend := hp.2
    rw [Nat.min_self] at hend
    exact holesBefore_of_free fun q hq hq' => htaken.free_of_nil hq (by omega)
  | cons r rs ih =>
    obtain ⟨hafter, hapart'⟩ := List.pairwise_cons.mp hapart
    have hlen := hne r List.mem_cons_self
    have hoverlap := hov r List.mem_cons_self
    obtain ⟨hstart, hend⟩ := (rangesOverlap_iff _ _ _ _).mp hoverlap
    have hbelow : ∀ q, cursor ≤ q → q < r.1 → taken q = false := fun q hq hq' =>
      htaken.free_before hend (fun r' hr' => Nat.le_trans (Nat.le_of_lt hlen) (hafter r' hr')) hq hq'
    have htail : ∀ j : Nat, (sweepGaps newStart newEnd (max cursor r.2) rs).gaps[j]? = some g →
        holesBefore taken (max cursor r.2) p = j := fun j hj =>
      ih hapart' (fun r' h => hne r' (List.mem_cons_of_mem _ h))
        (fun r' h => hov r' (List.mem_cons_of_mem _ h)) _ htaken.tail j hj
    have htailp : ∀ j : Nat, (sweepGaps newStart newEnd (max cursor r.2) rs).gaps[j]? = some g →
        max cursor r.2 ≤ p ∧ p < newEnd := by
      intro j hj
      have hb := sweepGaps_bounds rs _ g (List.mem_of_getElem? hj)
      exact ⟨Nat.le_trans hb.1 hp.1, Nat.lt_of_lt_of_le hp.2 hb.2.2⟩
    rw [gaps_cons hoverlap] at hg
    by_cases hlt : cursor < r.1
    · rw [gapBefore, if_pos hlt, List.singleton_append] at hg
      cases i with
      | zero =>
        rw [List.getElem?_cons_zero, Option.some.injEq] at hg
        subst hg
        obtain ⟨hp, hp'⟩ := hp
        exact holesBefore_of_free fun q hq hq' => hbelow q hq (by simp only at hp'; omega)
      | succ i =>
        rw [List.getElem?_cons_succ] at hg
        obtain ⟨hle, hltp⟩ := htailp i hg
        have hrun : holesBefore taken cursor (max cursor r.2) = 1 :=
          holesBefore_one hlt (by omega) hbelow
            fun q hq hq' => htaken.taken_inside (by omega) (by omega) ⟨hq, by omega⟩
        rw [holesBefore_split taken (Nat.le_max_left cursor r.2) hle, hrun, htail i hg,
          Nat.add_comm]
    · rw [gapBefore, if_neg hlt, List.nil_append] at hg
      obtain ⟨hle, hltp⟩ := htailp i hg
      have hbody : holesBefore taken cursor (max cursor r.2) = 0 :=
        holesBefore_of_taken fun q hq hq' =>
          htaken.taken_inside hq (by omega) ⟨by omega, by omega⟩
      rw [holesBefore_split taken (by omega) hle, hbody, htail i hg, Nat.zero_add]

end Wirerust.Gaps
