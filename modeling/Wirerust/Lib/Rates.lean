import Wirerust.Lib.Windows

/-!
Detectors of a rate within a window.

The window is that of `Lib.Window`, but the alarm is due when the events counted are at least so
many for each unit of time since the anchor (`Window.storms`). Such a detector is sound for the
window that an alarm comes from; a burst at one time goes by without an alarm only if the window
that is open then was opened earlier, and had too few events for the time since then
(`Latches.rates`). Which window is open is read off the events alone (`Watch.opening`).
-/

namespace Lib

/-- At least `rate` events for each unit of time since the anchor; the first one counts in full. -/
def Window.storms (rate : Nat) (w : Window) (t : Nat) : Bool :=
  decide (rate * max 1 (t - w.anchor) ≤ w.count)

/-- The start of the window that an event at time `t` is in, after a window that started at `s`. -/
def Window.opens (width : Nat) (s : Option Nat) (t : Nat) : Nat :=
  match s with
  | none => t
  | some s => if s + width < t then t else s

theorem Window.enter_anchor (width : Nat) (w : Option Window) (t : Nat) :
    (Window.enter width w t).anchor = Window.opens width (w.map Window.anchor) t := by
  cases w with
  | none => rfl
  | some w =>
    rw [Window.enter, Option.map_some, Window.opens]
    split
    · rfl
    · rfl

namespace Watch

variable {ε : Type} (W : Watch ε)

/-- When the window was opened that is open after a log: the first event opens one, and so does
every event past the one that is open. -/
def opening (log : List ε) : Option Nat :=
  log.foldl (fun s e => if W.event e then some (Window.opens W.width s (W.time e)) else s) none

/-- The events of a log from `s` to `t`. -/
def between (s t : Nat) (x : ε) : Bool := W.event x && decide (s ≤ W.time x ∧ W.time x ≤ t)

/-- The window that an entry leaves was opened by an event, and the entry is within its width. -/
structure InWindow (before : List ε) (e : ε) : Prop where
  opened : ∃ x ∈ before ++ [e], W.event x = true ∧ W.time x = W.anchor e
  since : W.opening (before ++ [e]) = some (W.anchor e)
  start : W.anchor e ≤ W.time e
  width : W.time e ≤ W.anchor e + W.width

/-- The alarm is right about the window it comes from. -/
def RateSound (log : List ε) : Prop :=
  ∀ before e after, log = before ++ e :: after → W.fires e = true →
    W.event e = true ∧ W.InWindow before e ∧
      W.needed * max 1 (W.time e - W.anchor e) ≤
        (before ++ [e]).countP (W.between (W.anchor e) (W.time e))

/-- The window that is open at `t` was opened at `s`. -/
def OpenSince (log : List ε) (s t : Nat) : Prop :=
  ∃ before e after, log = before ++ e :: after ∧ W.event e = true ∧ W.time e = t ∧
    W.opening (before ++ [e]) = some s

/-- As many events at one time as are needed for each unit of time raise an alarm, or have raised
one before, unless they come late in the window that is open, and it has too few for the time since
it was opened. -/
def RateComplete (log : List ε) : Prop :=
  ∀ t, W.needed ≤ log.countP (W.between t t) →
    (∃ e ∈ log, W.fires e = true ∧ t ≤ W.time e + W.width ∧ W.time e ≤ t) ∨
    ∃ s, W.OpenSince log s t ∧ s + 2 ≤ t ∧ t ≤ s + W.width ∧
      log.countP (W.between s t) < W.needed * (t - s)

/-- Two alarms come from windows that are anchored further apart than the width. -/
def RateSingle (log : List ε) : Prop :=
  ∀ before e mid e' after, log = before ++ e :: (mid ++ e' :: after) → W.fires e = true →
    W.fires e' = true → W.anchor e + W.width < W.anchor e'

structure Rates (log : List ε) : Prop where
  sound : W.RateSound log
  complete : W.RateComplete log
  single : W.RateSingle log

variable {W} {before log after : List ε} {e : ε} {due : Window → Nat → Bool} {w : Option Window}

/-! ## What the window knows -/

theorem opening_snoc (log : List ε) (e : ε) : W.opening (log ++ [e]) =
    if W.event e then some (Window.opens W.width (W.opening log) (W.time e))
    else W.opening log := by
  rw [opening, List.foldl_append]
  rfl

/-- A window is opened by an event. -/
theorem mem_of_opening {s : Nat} (h : W.opening log = some s) :
    ∃ x ∈ log, W.event x = true ∧ W.time x = s := by
  induction log using List.reverseRecOn generalizing s with
  | nil => cases h
  | append_singleton log e ih =>
    have hlast : e ∈ log ++ [e] := List.mem_append_right _ (List.mem_singleton.mpr rfl)
    have hbefore : ∀ {r}, W.opening log = some r →
        ∃ x ∈ log ++ [e], W.event x = true ∧ W.time x = r := by
      intro r hr
      obtain ⟨x, hx, hx'⟩ := ih hr
      exact ⟨x, List.mem_append_left _ hx, hx'⟩
    rw [opening_snoc] at h
    split at h
    · rename_i hevent
      cases hr : W.opening log with
      | none =>
        rw [hr] at h
        exact ⟨e, hlast, hevent, Option.some.inj h⟩
      | some r =>
        rw [hr, Window.opens] at h
        split at h
        · exact ⟨e, hlast, hevent, Option.some.inj h⟩
        · exact Option.some.inj h ▸ hbefore hr
    · exact hbefore h

/-- The window is the one that is open. -/
def Opened (W : Watch ε) (before : List ε) (w : Option Window) : Prop :=
  W.opening before = w.map Window.anchor

theorem Opened.skip (h : W.Opened before w) (hevent : W.event e = false) :
    W.Opened (before ++ [e]) w := by
  rw [Opened, opening_snoc, if_neg (by simp [hevent])]
  exact h

theorem Opened.enter (h : W.Opened before w) (hevent : W.event e = true) :
    W.opening (before ++ [e]) = some (Window.enter W.width w (W.time e)).anchor := by
  rw [opening_snoc, if_pos hevent, Window.enter_anchor, h]

theorem latch_tracks (h : W.Tracks before w) (hevent : W.event e = true)
    (hlast : ∀ x ∈ before, W.time x ≤ W.time e) (hshows : W.Shows due w e) :
    W.Tracks (before ++ [e]) (some (Window.latch W.width due w (W.time e))) := by
  have hcounts := h.enter hevent hlast
  refine ⟨hcounts.counted, hcounts.inside, hcounts.begun, fun hfired => ?_⟩
  cases hbefore : (Window.enter W.width w (W.time e)).fired with
  | true => exact hcounts.fired hbefore
  | false =>
    simp only [Window.latch, hbefore, Bool.false_or] at hfired
    exact ⟨e, List.mem_append_right _ (List.mem_singleton.mpr rfl), hevent,
      hshows.fires.mpr ⟨hfired, hbefore⟩, hcounts.anchor_le hlast⟩

/-- The window before an entry. -/
theorem Latches.tracks (h : W.Latches due w (log ++ after)) (htracks : W.Tracks before w)
    (hopened : W.Opened before w) (hordered : W.Ordered (before ++ log)) :
    ∃ w', W.Tracks (before ++ log) w' ∧ W.Opened (before ++ log) w' ∧ W.Latches due w' after := by
  induction log generalizing before w with
  | nil =>
    rw [List.append_nil]
    exact ⟨w, htracks, hopened, h⟩
  | cons e log ih =>
    rw [List.append_cons] at hordered ⊢
    rw [List.cons_append, Latches] at h
    cases hevent : W.event e with
    | true =>
      rw [if_pos hevent] at h
      have hlast : ∀ x ∈ before, W.time x ≤ W.time e := by
        intro x hx
        exact (List.pairwise_append.mp (List.pairwise_append.mp hordered).1).2.2 x hx e
          (List.mem_singleton.mpr rfl)
      have hnext : W.Opened (before ++ [e]) (some (Window.latch W.width due w (W.time e))) :=
        hopened.enter hevent
      exact ih h.2 (latch_tracks htracks hevent hlast h.1) hnext hordered
    | false =>
      rw [if_neg (by simp [hevent])] at h
      exact ih h.2 (htracks.skip hevent) (hopened.skip hevent) hordered

/-- An event, and the window it is counted in. -/
theorem Latches.at_event (h : W.Latches due none log) (hordered : W.Ordered log)
    (hlog : log = before ++ e :: after) (hevent : W.event e = true) :
    W.InWindow before e ∧ ∃ v : Window, W.anchor e = v.anchor ∧
      v.count = (before ++ [e]).countP (W.between (W.anchor e) (W.time e)) ∧
      (W.fires e = true ↔ due v (W.time e) = true ∧ v.fired = false) ∧
      (v.fired = true → ∃ x ∈ before ++ [e], W.fires x = true ∧ v.anchor ≤ W.time x) := by
  subst hlog
  have hlast := hordered.le_of_split
  have hnone : W.Tracks [] none := fun x hx => absurd hx List.not_mem_nil
  have hshut : W.Opened [] none := rfl
  obtain ⟨w', htracks, hopened, hrest⟩ :=
    h.tracks hnone hshut (List.pairwise_append.mp hordered).1
  rw [List.nil_append] at htracks hopened
  rw [latches_cons hevent] at hrest
  have hshows := hrest.1
  have hcounts := htracks.enter hevent hlast
  have hmem : e ∈ before ++ [e] := List.mem_append_right _ (List.mem_singleton.mpr rfl)
  have hopening : W.opening (before ++ [e]) = some (W.anchor e) := by
    rw [hshows.anchor]
    exact hopened.enter hevent
  refine ⟨⟨mem_of_opening hopening, hopening, ?_, ?_⟩, _, hshows.anchor, ?_, hshows.fires,
    fun hfired => ?_⟩
  · rw [hshows.anchor]
    exact hcounts.anchor_le hlast
  · rw [hshows.anchor]
    exact hcounts.inside e hmem hevent
  · rw [hcounts.counted, hshows.anchor]
    refine List.countP_congr fun x hx => ?_
    have hle : W.time x ≤ W.time e := by
      rcases List.mem_append.mp hx with hx | hx
      · exact hlast x hx
      · exact Nat.le_of_eq (congrArg W.time (List.mem_singleton.mp hx))
    simp [between, hle]
  · obtain ⟨x, hx, -, hfires, hanchor⟩ := hcounts.fired hfired
    exact ⟨x, hx, hfires, hanchor⟩

/-! ## Along a log -/

theorem Latches.fires_event (h : W.Latches due w log) (hlog : log = before ++ e :: after)
    (hfires : W.fires e = true) : W.event e = true := by
  subst hlog
  obtain ⟨w', hrest⟩ := h.split
  exact hrest.event_of_fires hfires

theorem Latches.rateSound (h : W.Latches (Window.storms W.needed) none log)
    (hordered : W.Ordered log) : W.RateSound log := by
  intro before e after hlog hfires
  have hevent := h.fires_event hlog hfires
  obtain ⟨hin, v, hanchor, hcount, hiff, -⟩ := h.at_event hordered hlog hevent
  have hdue := (hiff.mp hfires).1
  rw [Window.storms, decide_eq_true_eq, hcount, ← hanchor] at hdue
  exact ⟨hevent, hin, hdue⟩

/-- No event at the time of `e` comes after it, so that what lies between is before. -/
theorem countP_between {s : Nat} (hordered : W.Ordered (before ++ e :: after))
    (hafter : after.countP (W.between (W.time e) (W.time e)) = 0) :
    (before ++ e :: after).countP (W.between s (W.time e)) =
      (before ++ [e]).countP (W.between s (W.time e)) := by
  have hnone : after.countP (W.between s (W.time e)) = 0 := by
    rw [List.countP_eq_zero] at hafter ⊢
    intro x hx hbetween
    have hle := (List.pairwise_cons.mp (List.pairwise_append.mp hordered).2.1).1 x hx
    refine hafter x hx ?_
    simp only [between, Bool.and_eq_true, decide_eq_true_eq] at hbetween ⊢
    exact ⟨hbetween.1, hle, hbetween.2.2⟩
  rw [List.append_cons, List.countP_append, hnone, Nat.add_zero]

theorem Latches.rateComplete (h : W.Latches (Window.storms W.needed) none log)
    (hneeded : 0 < W.needed) (hordered : W.Ordered log) : W.RateComplete log := by
  intro t hmany
  obtain ⟨before, e, after, hlog, he, hcount⟩ := exists_last (Nat.lt_of_lt_of_le hneeded hmany)
  have htime : W.time e = t := by
    simp only [between, Bool.and_eq_true, decide_eq_true_eq] at he
    omega
  subst htime
  have hevent : W.event e = true := (Bool.and_eq_true _ _ ▸ he).1
  obtain ⟨hin, v, hanchor, hheld, hiff, hfired⟩ := h.at_event hordered hlog hevent
  have hafter : after.countP (W.between (W.time e) (W.time e)) = 0 := by
    have hsplit := congrArg (List.countP (W.between (W.time e) (W.time e))) hlog
    rw [List.append_cons, List.countP_append] at hsplit
    omega
  have hstart := hin.start
  have hwidth := hin.width
  have hmem : ∀ x ∈ before ++ [e], x ∈ log := by
    intro x hx
    rw [hlog, List.append_cons]
    exact List.mem_append_left _ hx
  have hlast : ∀ x ∈ before ++ [e], W.time x ≤ W.time e := by
    intro x hx
    rcases List.mem_append.mp hx with hx | hx
    · exact (hlog ▸ hordered).le_of_split x hx
    · exact Nat.le_of_eq (congrArg W.time (List.mem_singleton.mp hx))
  cases hlatch : v.fired with
  | true =>
    obtain ⟨x, hx, hfires, hle⟩ := hfired hlatch
    exact .inl ⟨x, hmem x hx, hfires, by omega, hlast x hx⟩
  | false =>
    by_cases hdue : Window.storms W.needed v (W.time e) = true
    · refine .inl ⟨e, hmem e (by simp), hiff.mpr ⟨hdue, hlatch⟩, by omega, Nat.le_refl _⟩
    · rw [Window.storms, decide_eq_true_eq, hheld, ← hanchor] at hdue
      -- the burst is among the events counted, so that the window is not a new one
      have hburst : W.needed ≤
          (before ++ [e]).countP (W.between (W.anchor e) (W.time e)) := by
        rw [← hcount] at hmany
        refine Nat.le_trans hmany (List.countP_mono_left fun x _ hx => ?_)
        simp only [between, Bool.and_eq_true, decide_eq_true_eq] at hx ⊢
        exact ⟨hx.1, by omega, hx.2.2⟩
      have hlate : W.anchor e + 2 ≤ W.time e := by
        by_contra hearly
        refine hdue ?_
        have hone : max 1 (W.time e - W.anchor e) = 1 := by omega
        rw [hone, Nat.mul_one]
        exact hburst
      refine .inr ⟨W.anchor e, ⟨before, e, after, hlog, hevent, rfl, hin.since⟩, hlate, hwidth, ?_⟩
      have hmax : max 1 (W.time e - W.anchor e) = W.time e - W.anchor e := by omega
      rw [hmax] at hdue
      rw [hlog, countP_between (hlog ▸ hordered) hafter]
      exact Nat.lt_of_not_le hdue

theorem Latches.rates (h : W.Latches (Window.storms W.needed) none log) (hneeded : 0 < W.needed)
    (hordered : W.Ordered log) : W.Rates log where
  sound := h.rateSound hordered
  complete := h.rateComplete hneeded hordered
  single := fun _ _ _ _ _ hlog hfires hfires' => (h.apart hlog hfires hfires').2.2

end Watch

end Lib
