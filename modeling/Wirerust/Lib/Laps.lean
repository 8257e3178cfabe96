import Mathlib.Data.List.Basic

/-!
Detectors of an average rate.

A lap starts with an event and counts the events since then, itself included. The first event at
least the width away ends it, is compared with the rate, and starts the next lap (`Lap.next`). So
an event that ends a lap is counted in two of them.

`Meter.Follows` says that the entries of a log behave like such a detector. What it reports is a
rate that was really exceeded (`Follows.sound`), and as long as it is silent the events since the
first one are no more than the rate allows (`Follows.complete`): the laps add up, since each one
starts where the last one ended.
-/

namespace Lib

structure Lap where
  start : Nat
  count : Nat

namespace Lap

def Ends (width : Nat) (l : Option Lap) (t : Nat) : Prop := ∃ v ∈ l, v.start + width ≤ t

/-- The lap ends with more events than the rate allows for the time since its start. -/
def Fires (width rate : Nat) (l : Option Lap) (t : Nat) : Prop :=
  ∃ v ∈ l, v.start + width ≤ t ∧ rate * (t - v.start) < v.count + 1

def next (width : Nat) : Option Lap → Nat → Lap
  | none, t => ⟨t, 1⟩
  | some l, t => if l.start + width ≤ t then ⟨t, 1⟩ else { l with count := l.count + 1 }

variable {width rate t : Nat} {l : Lap}

theorem next_of_le (h : l.start + width ≤ t) : next width (some l) t = ⟨t, 1⟩ := if_pos h

theorem next_of_lt (h : t < l.start + width) :
    next width (some l) t = { l with count := l.count + 1 } := if_neg (Nat.not_le_of_lt h)

@[simp] theorem ends_some : Ends width (some l) t ↔ l.start + width ≤ t := by simp [Ends]

@[simp] theorem fires_some : Fires width rate (some l) t ↔
    l.start + width ≤ t ∧ rate * (t - l.start) < l.count + 1 := by simp [Fires]

theorem Fires.ends {l : Option Lap} (h : Fires width rate l t) : Ends width l t := by
  obtain ⟨v, hv, hends, -⟩ := h
  exact ⟨v, hv, hends⟩

end Lap

/-- What is seen of a detector in the entries of a log. -/
structure Meter (ε : Type) where
  width : Nat
  rate : Nat
  event : ε → Bool
  time : ε → Nat
  fires : ε → Bool
  restarts : ε → Bool

namespace Meter

variable {ε : Type} (M : Meter ε)

/-- The entry shows what the event does to the lap. -/
structure Explains (l : Option Lap) (e : ε) : Prop where
  fires : M.fires e = true ↔ Lap.Fires M.width M.rate l (M.time e)
  restarts : M.restarts e = true ↔ Lap.Ends M.width l (M.time e)

def Follows : Option Lap → List ε → Prop
  | _, [] => True
  | l, e :: log =>
    if M.event e then M.Explains l e ∧ Follows (some (Lap.next M.width l (M.time e))) log
    else (M.fires e = false ∧ M.restarts e = false) ∧ Follows l log

/-- Times do not decrease. -/
def Ordered (log : List ε) : Prop := log.Pairwise fun x y => M.time x ≤ M.time y

/-- Whatever fires has an event at least the width before it, and from that one on more events
than the rate allows for the time between them. -/
def Sound (log : List ε) : Prop :=
  ∀ before e after, log = before ++ e :: after → M.fires e = true → M.event e = true ∧
    ∃ first x mid, before = first ++ x :: mid ∧ M.event x = true ∧
      M.time x + M.width ≤ M.time e ∧
      M.rate * (M.time e - M.time x) < (x :: (mid ++ [e])).countP fun y =>
        M.event y && decide (M.time x ≤ M.time y ∧ M.time y ≤ M.time e)

/-- At a restart without an alarm so far, the events after the first one are no more than the rate
allows for the time since then. -/
def Complete (log : List ε) : Prop :=
  ∀ first x mid e after, log = first ++ x :: (mid ++ e :: after) →
    (∀ y ∈ first, M.event y = false) → M.event x = true → M.restarts e = true →
    (∀ y ∈ first ++ x :: (mid ++ [e]), M.fires y = false) →
    (mid ++ [e]).countP M.event ≤ M.rate * (M.time e - M.time x)

variable {M} {before : List ε} {e : ε}

theorem follows_cons {l : Option Lap} {log : List ε} (h : M.event e = true) :
    M.Follows l (e :: log) ↔
      M.Explains l e ∧ M.Follows (some (Lap.next M.width l (M.time e))) log := by
  rw [Follows, if_pos h]

theorem follows_cons_of_not {l : Option Lap} {log : List ε} (h : M.event e = false) :
    M.Follows l (e :: log) ↔
      (M.fires e = false ∧ M.restarts e = false) ∧ M.Follows l log := by
  rw [Follows, if_neg (by simp [h])]

/-! ## What the lap knows -/

/-- The events that a lap has counted, from the one it started with. -/
def Knows (before : List ε) : Option Lap → Prop
  | none => ∀ x ∈ before, M.event x = false
  | some l => ∃ first x mid, before = first ++ x :: mid ∧ M.event x = true ∧
    M.time x = l.start ∧ (x :: mid).countP M.event = l.count

theorem Knows.skip {l : Option Lap} (h : M.Knows before l) (he : M.event e = false) :
    M.Knows (before ++ [e]) l := by
  cases l with
  | none =>
    intro x hx
    rcases List.mem_append.mp hx with hx | hx
    · exact h x hx
    · rw [List.mem_singleton.mp hx]
      exact he
  | some l =>
    obtain ⟨first, x, mid, rfl, hx, hstart, hcount⟩ := h
    refine ⟨first, x, mid ++ [e], by simp, hx, hstart, ?_⟩
    rw [← List.cons_append, List.countP_append, hcount]
    simp [he]

theorem Knows.next {l : Option Lap} (h : M.Knows before l) (he : M.event e = true) :
    M.Knows (before ++ [e]) (some (Lap.next M.width l (M.time e))) := by
  have hnew : M.Knows (before ++ [e]) (some ⟨M.time e, 1⟩) :=
    ⟨before, e, [], rfl, he, rfl, by simp [he]⟩
  cases l with
  | none => exact hnew
  | some l =>
    by_cases hends : l.start + M.width ≤ M.time e
    · rw [Lap.next_of_le hends]
      exact hnew
    · rw [Lap.next_of_lt (Nat.lt_of_not_le hends)]
      obtain ⟨first, x, mid, rfl, hx, hstart, hcount⟩ := h
      refine ⟨first, x, mid ++ [e], by simp, hx, hstart, ?_⟩
      rw [← List.cons_append, List.countP_append, hcount]
      simp [he]

/-- The lap before an entry. -/
theorem Follows.split {l : Option Lap} {log after : List ε} (hfollows : M.Follows l (log ++ after))
    (hknows : M.Knows before l) : ∃ l', M.Knows (before ++ log) l' ∧ M.Follows l' after := by
  induction log generalizing before l with
  | nil =>
    rw [List.append_nil]
    exact ⟨l, hknows, hfollows⟩
  | cons e log ih =>
    rw [List.append_cons]
    rw [List.cons_append] at hfollows
    cases he : M.event e with
    | true =>
      rw [follows_cons he] at hfollows
      exact ih hfollows.2 (hknows.next he)
    | false =>
      rw [follows_cons_of_not he] at hfollows
      exact ih hfollows.2 (hknows.skip he)

/-! ## Along a log -/

variable {log : List ε}

theorem Ordered.between {first mid after : List ε} {x : ε}
    (h : M.Ordered ((first ++ x :: mid) ++ e :: after)) :
    ∀ y ∈ x :: (mid ++ [e]), M.time x ≤ M.time y ∧ M.time y ≤ M.time e := by
  obtain ⟨hbefore, -, hlast⟩ := List.pairwise_append.mp h
  have hfirst := (List.pairwise_cons.mp (List.pairwise_append.mp hbefore).2.1).1
  have hmem : ∀ y ∈ x :: mid, M.time y ≤ M.time e := fun y hy =>
    hlast y (List.mem_append_right first hy) e List.mem_cons_self
  intro y hy
  rw [← List.cons_append] at hy
  rcases List.mem_append.mp hy with hy | hy
  · refine ⟨?_, hmem y hy⟩
    rcases List.mem_cons.mp hy with rfl | hy
    · exact Nat.le_refl _
    · exact hfirst y hy
  · rw [List.mem_singleton.mp hy]
    exact ⟨hmem x List.mem_cons_self, Nat.le_refl _⟩

/-- A lap that ends in silence has kept to the rate. -/
theorem Explains.few {l : Lap} (h : M.Explains (some l) e) (hquiet : M.fires e = false)
    (hends : l.start + M.width ≤ M.time e) :
    l.count + 1 ≤ M.rate * (M.time e - l.start) := by
  refine Nat.le_of_not_lt fun hlt => ?_
  have hfires := h.fires.mpr (Lap.fires_some.mpr ⟨hends, hlt⟩)
  exact Bool.noConfusion (hquiet.symm.trans hfires)

theorem Follows.sound (hfollows : M.Follows none log) (hordered : M.Ordered log) :
    M.Sound log := by
  intro before e after hlog hfires
  subst hlog
  have hnone : M.Knows [] none := fun x hx => absurd hx List.not_mem_nil
  obtain ⟨l, hknows, hrest⟩ := hfollows.split hnone
  rw [List.nil_append] at hknows
  cases he : M.event e with
  | false =>
    rw [follows_cons_of_not he] at hrest
    rw [hfires] at hrest
    exact Bool.noConfusion hrest.1.1
  | true =>
    rw [follows_cons he] at hrest
    obtain ⟨v, hv, hends, hmany⟩ := hrest.1.fires.mp hfires
    obtain rfl := Option.mem_def.mp hv
    obtain ⟨first, x, mid, rfl, hx, hstart, hcount⟩ := hknows
    rw [← hstart] at hends hmany
    refine ⟨rfl, first, x, mid, rfl, hx, hends, Nat.lt_of_lt_of_le hmany ?_⟩
    -- all that it has counted lies between the two, since the times do not decrease
    have hall : (x :: (mid ++ [e])).countP M.event = v.count + 1 := by
      rw [← List.cons_append, List.countP_append, hcount]
      simp [he]
    rw [← hall]
    refine List.countP_mono_left fun y hy hy' => ?_
    rw [Bool.and_eq_true, decide_eq_true_eq]
    exact ⟨hy', hordered.between y hy⟩

/-- The laps since an event add up. -/
theorem Follows.adds_up {l : Lap} {mid after : List ε}
    (hfollows : M.Follows (some l) (mid ++ e :: after)) (hrestarts : M.restarts e = true)
    (hquiet : ∀ y ∈ mid ++ [e], M.fires y = false) (hlast : ∀ y ∈ mid, M.time y ≤ M.time e) :
    l.count + (mid ++ [e]).countP M.event ≤ M.rate * (M.time e - l.start) := by
  induction mid generalizing l with
  | nil =>
    rw [List.nil_append] at hfollows hquiet ⊢
    cases he : M.event e with
    | false =>
      rw [follows_cons_of_not he, hrestarts] at hfollows
      exact Bool.noConfusion hfollows.1.2
    | true =>
      rw [follows_cons he] at hfollows
      have hends := Lap.ends_some.mp (hfollows.1.restarts.mp hrestarts)
      have hone : [e].countP M.event = 1 := by simp [he]
      rw [hone]
      exact hfollows.1.few (hquiet e (List.mem_singleton.mpr rfl)) hends
  | cons x mid ih =>
    rw [List.cons_append] at hfollows hquiet ⊢
    rw [List.forall_mem_cons] at hquiet hlast
    cases hx : M.event x with
    | false =>
      rw [follows_cons_of_not hx] at hfollows
      have hrest := ih hfollows.2 hquiet.2 hlast.2
      rw [List.countP_cons_of_neg (by simp [hx])]
      exact hrest
    | true =>
      rw [follows_cons hx] at hfollows
      obtain ⟨hexplains, hfollows⟩ := hfollows
      have hrest := ih hfollows hquiet.2 hlast.2
      rw [List.countP_cons_of_pos hx]
      by_cases hends : l.start + M.width ≤ M.time x
      · have hfew := hexplains.few hquiet.1 hends
        rw [Lap.next_of_le hends] at hrest
        -- `x` ends the one lap and starts the other
        have hsplit : M.rate * (M.time e - l.start) =
            M.rate * (M.time x - l.start) + M.rate * (M.time e - M.time x) := by
          have htime := hlast.1
          rw [← Nat.mul_add]
          congr 1
          omega
        simp only at hrest
        omega
      · rw [Lap.next_of_lt (Nat.lt_of_not_le hends)] at hrest
        simp only at hrest
        omega

theorem Follows.skip {l : Option Lap} {first after : List ε}
    (hfollows : M.Follows l (first ++ after)) (hnone : ∀ y ∈ first, M.event y = false) :
    M.Follows l after := by
  induction first with
  | nil => exact hfollows
  | cons y first ih =>
    rw [List.forall_mem_cons] at hnone
    rw [List.cons_append, follows_cons_of_not hnone.1] at hfollows
    exact ih hfollows.2 hnone.2

theorem Follows.complete (hfollows : M.Follows none log) (hordered : M.Ordered log) :
    M.Complete log := by
  intro first x mid e after hlog hnone hx hrestarts hquiet
  subst hlog
  have hrest := hfollows.skip hnone
  rw [follows_cons hx] at hrest
  have hlast : ∀ y ∈ mid, M.time y ≤ M.time e := by
    have htail := (List.pairwise_cons.mp (List.pairwise_append.mp hordered).2.1).2
    exact fun y hy => (List.pairwise_append.mp htail).2.2 y hy e List.mem_cons_self
  have hsum := hrest.2.adds_up hrestarts
    (fun y hy => hquiet y (List.mem_append_right _ (List.mem_cons_of_mem _ hy))) hlast
  simp only [Lap.next] at hsum
  omega

/-- Alarms are raised at restarts only. -/
theorem Follows.restarts_of_fires {l : Option Lap} (hfollows : M.Follows l log) (he : e ∈ log)
    (hfires : M.fires e = true) : M.restarts e = true := by
  induction log generalizing l with
  | nil => cases he
  | cons x log ih =>
    cases hx : M.event x with
    | true =>
      rw [follows_cons hx] at hfollows
      rcases List.mem_cons.mp he with rfl | he
      · exact hfollows.1.restarts.mpr (hfollows.1.fires.mp hfires).ends
      · exact ih hfollows.2 he
    | false =>
      rw [follows_cons_of_not hx] at hfollows
      rcases List.mem_cons.mp he with rfl | he
      · rw [hfires] at hfollows
        exact Bool.noConfusion hfollows.1.1
      · exact ih hfollows.2 he

end Meter

end Lib
