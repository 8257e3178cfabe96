import Mathlib.Data.List.Induction
import Wirerust.Lib.Trail

/-!
Detectors that count events within a window of time.

A window counts the events that are within its width of its anchor. The first event past it opens
the next window, which is anchored there (`Window.enter`). The detector fires when the count
reaches what is needed, once in a window (`Window.Fires`, `Window.next`).

`Follows` says that the entries of a log behave like such a detector. If their times do not
decrease, the detector is sound, complete for events at one time, and fires once between two resets
(`Follows.watches`). That it fires once does not depend on when it is due: `Latches` is about
detectors that are due for any other reason.
-/

namespace Lib

structure Window where
  anchor : Nat
  count : Nat
  fired : Bool

namespace Window

/-- The window in which an event at time `t` is counted. -/
def enter (width : Nat) : Option Window → Nat → Window
  | none, t => ⟨t, 1, false⟩
  | some w, t => if w.anchor + width < t then ⟨t, 1, false⟩ else { w with count := w.count + 1 }

/-- The event is past the window. -/
def Expired (width : Nat) (w : Option Window) (t : Nat) : Prop := ∃ v ∈ w, v.anchor + width < t

def Fires (width needed : Nat) (w : Option Window) (t : Nat) : Prop :=
  needed ≤ (enter width w t).count ∧ (enter width w t).fired = false

def next (width needed : Nat) (w : Option Window) (t : Nat) : Window :=
  { enter width w t with
    fired := (enter width w t).fired || decide (needed ≤ (enter width w t).count) }

/-- The alarm is due, and has not been raised in this window. -/
def Alarms (width : Nat) (due : Window → Nat → Bool) (w : Option Window) (t : Nat) : Prop :=
  due (enter width w t) t = true ∧ (enter width w t).fired = false

def latch (width : Nat) (due : Window → Nat → Bool) (w : Option Window) (t : Nat) : Window :=
  { enter width w t with fired := (enter width w t).fired || due (enter width w t) t }

/-- As many events as are needed have been counted. -/
def full (needed : Nat) (w : Window) (_ : Nat) : Bool := decide (needed ≤ w.count)

/-- Nothing has been counted yet. -/
def Idle (w : Option Window) : Prop := ∀ v ∈ w, v = ⟨0, 0, false⟩

variable {width needed t : Nat} {w : Window}

theorem enter_of_lt (h : w.anchor + width < t) : enter width (some w) t = ⟨t, 1, false⟩ := if_pos h

theorem enter_of_le (h : t ≤ w.anchor + width) :
    enter width (some w) t = { w with count := w.count + 1 } := if_neg (Nat.not_lt_of_le h)

theorem fires_iff_alarms {w : Option Window} :
    Fires width needed w t ↔ Alarms width (full needed) w t := by
  rw [Fires, Alarms, full, decide_eq_true_eq]

theorem enter_count_pos (width : Nat) (w : Option Window) (t : Nat) :
    0 < (enter width w t).count := by
  cases w with
  | none => exact Nat.one_pos
  | some w =>
    rw [enter]
    split
    · exact Nat.one_pos
    · exact Nat.succ_pos _

theorem anchor_le_enter : w.anchor ≤ (enter width (some w) t).anchor := by
  by_cases h : w.anchor + width < t
  · rw [enter_of_lt h]
    simp only
    omega
  · have henter := enter_of_le (Nat.le_of_not_lt h)
    exact Nat.le_of_eq (congrArg anchor henter).symm

end Window

/-! ## Logs -/

/-- What is seen of a detector in the entries of a log. -/
structure Watch (ε : Type) where
  width : Nat
  needed : Nat
  event : ε → Bool
  time : ε → Nat
  fires : ε → Bool
  resets : ε → Bool
  /-- The anchor of the window that the entry leaves. -/
  anchor : ε → Nat

namespace Watch

variable {ε : Type} (W : Watch ε)

/-- The entry shows what the event does to the window. -/
structure Explains (w : Option Window) (e : ε) : Prop where
  fires : W.fires e = true ↔ Window.Fires W.width W.needed w (W.time e)
  resets : W.resets e = true ↔ Window.Expired W.width w (W.time e)
  anchor : W.anchor e = (Window.enter W.width w (W.time e)).anchor

def Follows : Option Window → List ε → Prop
  | _, [] => True
  | w, e :: log =>
    if W.event e then
      W.Explains w e ∧ Follows (some (Window.next W.width W.needed w (W.time e))) log
    else W.fires e = false ∧ Follows w log

/-- The same if the alarm is due for another reason. -/
structure Shows (due : Window → Nat → Bool) (w : Option Window) (e : ε) : Prop where
  fires : W.fires e = true ↔ Window.Alarms W.width due w (W.time e)
  resets : W.resets e = true ↔ Window.Expired W.width w (W.time e)
  anchor : W.anchor e = (Window.enter W.width w (W.time e)).anchor

def Latches (due : Window → Nat → Bool) : Option Window → List ε → Prop
  | _, [] => True
  | w, e :: log =>
    if W.event e then
      W.Shows due w e ∧ Latches due (some (Window.latch W.width due w (W.time e))) log
    else W.fires e = false ∧ Latches due w log

/-- What an entry does to the window. -/
def Passes (w : Option Window) (e : ε) (w' : Option Window) : Prop :=
  if W.event e then W.Explains w e ∧ w' = some (Window.next W.width W.needed w (W.time e))
  else W.fires e = false ∧ w' = w

/-- Whatever fires has as many events as are needed within the width before it, itself
included. -/
def Sound (log : List ε) : Prop :=
  ∀ before e after, log = before ++ e :: after → W.fires e = true → W.event e = true ∧
    W.needed ≤ (before ++ [e]).countP fun x =>
      W.event x && decide (W.time e ≤ W.time x + W.width ∧ W.time x ≤ W.time e)

/-- As many events as are needed at one time do not go by without an alarm around them. -/
def Complete (log : List ε) : Prop :=
  ∀ t, W.needed ≤ log.countP (fun x => W.event x && decide (W.time x = t)) →
    ∃ e ∈ log, W.fires e = true ∧ t ≤ W.time e + W.width ∧ W.time e ≤ t + W.width

/-- They do not even go by before the alarm. -/
def Prompt (log : List ε) : Prop :=
  ∀ t, W.needed ≤ log.countP (fun x => W.event x && decide (W.time x = t)) →
    ∃ e ∈ log, W.fires e = true ∧ t ≤ W.time e + W.width ∧ W.time e ≤ t

/-- Between two alarms there is a reset, and their windows are anchored further apart than the
width. -/
def Single (log : List ε) : Prop :=
  ∀ before e mid e' after, log = before ++ e :: (mid ++ e' :: after) → W.fires e = true →
    W.fires e' = true → (∃ r ∈ mid ++ [e'], W.event r = true ∧ W.resets r = true) ∧
      (2 ≤ W.needed → ∃ r ∈ mid, W.event r = true ∧ W.resets r = true) ∧
      W.anchor e + W.width < W.anchor e'

structure Watches (log : List ε) : Prop where
  sound : W.Sound log
  complete : W.Complete log
  single : W.Single log

/-! ## What the window knows -/

/-- The events of a log that a window has counted. -/
structure Counts (before : List ε) (w : Window) : Prop where
  counted : w.count = before.countP fun x => W.event x && decide (w.anchor ≤ W.time x)
  inside : ∀ x ∈ before, W.event x = true → W.time x ≤ w.anchor + W.width
  begun : w.anchor = 0 ∨ ∃ x ∈ before, w.anchor ≤ W.time x
  fired : w.fired = true → ∃ x ∈ before, W.event x = true ∧ W.fires x = true ∧ w.anchor ≤ W.time x

/-- What the window has counted; there is none before the first event. -/
def Tracks (before : List ε) : Option Window → Prop
  | none => ∀ x ∈ before, W.event x = false
  | some w => W.Counts before w

def Knows (before : List ε) : Option Window → Prop
  | none => ∀ x ∈ before, W.event x = false
  | some w => W.Counts before w ∧ (w.fired = false → w.count < W.needed)

variable {W} {before : List ε} {e : ε}

theorem follows_cons {w : Option Window} {log : List ε} (h : W.event e = true) :
    W.Follows w (e :: log) ↔
      W.Explains w e ∧ W.Follows (some (Window.next W.width W.needed w (W.time e))) log := by
  rw [Follows, if_pos h]

theorem follows_cons_of_not {w : Option Window} {log : List ε} (h : W.event e = false) :
    W.Follows w (e :: log) ↔ W.fires e = false ∧ W.Follows w log := by
  rw [Follows, if_neg (by simp [h])]

theorem latches_cons {due : Window → Nat → Bool} {w : Option Window} {log : List ε}
    (h : W.event e = true) :
    W.Latches due w (e :: log) ↔
      W.Shows due w e ∧ W.Latches due (some (Window.latch W.width due w (W.time e))) log := by
  rw [Latches, if_pos h]

theorem latches_cons_of_not {due : Window → Nat → Bool} {w : Option Window} {log : List ε}
    (h : W.event e = false) :
    W.Latches due w (e :: log) ↔ W.fires e = false ∧ W.Latches due w log := by
  rw [Latches, if_neg (by simp [h])]

theorem countP_one (p : ε → Bool) (h : p e = true) (hbefore : ∀ x ∈ before, p x = false) :
    (before ++ [e]).countP p = 1 := by
  rw [List.countP_append, List.countP_singleton, h]
  have hnone : before.countP p = 0 := by
    rw [List.countP_eq_zero]
    intro x hx
    rw [hbefore x hx]
    simp
  rw [hnone]
  rfl

/-- The window that an event opens. -/
theorem counts_new (hevent : W.event e = true)
    (hbefore : ∀ x ∈ before, W.event x = true → W.time x < W.time e) :
    W.Counts (before ++ [e]) ⟨W.time e, 1, false⟩ where
  counted := by
    refine (countP_one _ (by simp [hevent]) fun x hx => ?_).symm
    rw [Bool.and_eq_false_iff, decide_eq_false_iff_not]
    cases hx' : W.event x with
    | false => exact .inl rfl
    | true => exact .inr (Nat.not_le_of_lt (hbefore x hx hx'))
  inside := by
    intro x hx hx'
    rcases List.mem_append.mp hx with hx | hx
    · exact Nat.le_trans (Nat.le_of_lt (hbefore x hx hx')) (Nat.le_add_right _ _)
    · rw [List.mem_singleton.mp hx]
      exact Nat.le_add_right _ _
  begun := .inr ⟨e, List.mem_append_right _ (List.mem_singleton.mpr rfl), Nat.le_refl _⟩
  fired := fun h => by cases h

theorem Knows.tracks {w : Option Window} (h : W.Knows before w) : W.Tracks before w := by
  cases w with
  | none => exact h
  | some w => exact h.1

theorem Tracks.enter {w : Option Window} (h : W.Tracks before w) (hevent : W.event e = true)
    (hlast : ∀ x ∈ before, W.time x ≤ W.time e) :
    W.Counts (before ++ [e]) (Window.enter W.width w (W.time e)) := by
  cases w with
  | none =>
    refine counts_new hevent fun x hx hx' => ?_
    rw [h x hx] at hx'
    cases hx'
  | some w =>
    have hcounts : W.Counts before w := h
    by_cases hexpired : w.anchor + W.width < W.time e
    · rw [Window.enter_of_lt hexpired]
      exact counts_new hevent fun x hx hx' =>
        Nat.lt_of_le_of_lt (hcounts.inside x hx hx') hexpired
    · have hle := Nat.le_of_not_lt hexpired
      have hanchor : w.anchor ≤ W.time e := by
        rcases hcounts.begun with hzero | ⟨x, hx, hle⟩
        · rw [hzero]
          exact Nat.zero_le _
        · exact Nat.le_trans hle (hlast x hx)
      rw [Window.enter_of_le hle]
      constructor
      · rw [List.countP_append, List.countP_singleton, ← hcounts.counted]
        simp [hevent, hanchor]
      · intro x hx hx'
        rcases List.mem_append.mp hx with hx | hx
        · exact hcounts.inside x hx hx'
        · rw [List.mem_singleton.mp hx]
          exact hle
      · exact .inr ⟨e, List.mem_append_right _ (List.mem_singleton.mpr rfl), hanchor⟩
      · intro hfired
        obtain ⟨x, hx, hx'⟩ := hcounts.fired hfired
        exact ⟨x, List.mem_append_left _ hx, hx'⟩

theorem enter_counts {w : Option Window} (h : W.Knows before w) (hevent : W.event e = true)
    (hlast : ∀ x ∈ before, W.time x ≤ W.time e) :
    W.Counts (before ++ [e]) (Window.enter W.width w (W.time e)) :=
  h.tracks.enter hevent hlast

theorem Counts.anchor_le {w : Window} (h : W.Counts (before ++ [e]) w)
    (hlast : ∀ x ∈ before, W.time x ≤ W.time e) : w.anchor ≤ W.time e := by
  rcases h.begun with hzero | ⟨x, hx, hle⟩
  · rw [hzero]
    exact Nat.zero_le _
  · rcases List.mem_append.mp hx with hx | hx
    · exact Nat.le_trans hle (hlast x hx)
    · rw [List.mem_singleton.mp hx] at hle
      exact hle

theorem next_knows {w : Option Window} (h : W.Knows before w) (hevent : W.event e = true)
    (hlast : ∀ x ∈ before, W.time x ≤ W.time e) (hexplains : W.Explains w e) :
    W.Knows (before ++ [e]) (some (Window.next W.width W.needed w (W.time e))) := by
  have hcounts := enter_counts h hevent hlast
  refine ⟨⟨hcounts.counted, hcounts.inside, hcounts.begun, fun hfired => ?_⟩, fun hfired => ?_⟩
  · simp only [Window.next, Bool.or_eq_true, decide_eq_true_eq] at hfired
    cases hbefore : (Window.enter W.width w (W.time e)).fired with
    | true => exact hcounts.fired hbefore
    | false =>
      have hneeded := hfired.resolve_left (by simp [hbefore])
      exact ⟨e, List.mem_append_right _ (List.mem_singleton.mpr rfl), hevent,
        hexplains.fires.mpr ⟨hneeded, hbefore⟩, hcounts.anchor_le hlast⟩
  · simp only [Window.next, Bool.or_eq_false_iff, decide_eq_false_iff_not] at hfired
    exact Nat.lt_of_not_le hfired.2

theorem Tracks.skip {w : Option Window} (h : W.Tracks before w) (hevent : W.event e = false) :
    W.Tracks (before ++ [e]) w := by
  cases w with
  | none =>
    intro x hx
    rcases List.mem_append.mp hx with hx | hx
    · exact h x hx
    · rw [List.mem_singleton.mp hx]
      exact hevent
  | some w =>
    have hcounts : W.Counts before w := h
    refine Counts.mk ?_ ?_ ?_ ?_
    · rw [List.countP_append, List.countP_singleton, ← hcounts.counted]
      simp [hevent]
    · intro x hx hx'
      rcases List.mem_append.mp hx with hx | hx
      · exact hcounts.inside x hx hx'
      · rw [List.mem_singleton.mp hx, hevent] at hx'
        cases hx'
    · refine hcounts.begun.imp_right ?_
      rintro ⟨x, hx, hle⟩
      exact ⟨x, List.mem_append_left _ hx, hle⟩
    · intro hfired
      obtain ⟨x, hx, hx'⟩ := hcounts.fired hfired
      exact ⟨x, List.mem_append_left _ hx, hx'⟩

theorem Knows.skip {w : Option Window} (h : W.Knows before w) (hevent : W.event e = false) :
    W.Knows (before ++ [e]) w := by
  cases w with
  | none => exact h.tracks.skip hevent
  | some w => exact ⟨h.tracks.skip hevent, h.2⟩

/-! ## Along a log -/

/-- Times do not decrease. -/
def Ordered (W : Watch ε) (log : List ε) : Prop := log.Pairwise fun x y => W.time x ≤ W.time y

/-- The window before an entry. -/
theorem Follows.split {w : Option Window} {log after : List ε}
    (hfollows : W.Follows w (log ++ after)) (hknows : W.Knows before w)
    (hordered : W.Ordered (before ++ log)) :
    ∃ w', W.Knows (before ++ log) w' ∧ W.Follows w' after := by
  induction log generalizing before w with
  | nil =>
    rw [List.append_nil]
    exact ⟨w, hknows, hfollows⟩
  | cons e log ih =>
    rw [List.append_cons] at hordered ⊢
    have hlast : ∀ x ∈ before, W.time x ≤ W.time e := by
      intro x hx
      exact (List.pairwise_append.mp (List.pairwise_append.mp hordered).1).2.2 x hx e
        (List.mem_singleton.mpr rfl)
    rw [List.cons_append, Follows] at hfollows
    cases hevent : W.event e with
    | true =>
      rw [if_pos hevent] at hfollows
      exact ih hfollows.2 (next_knows hknows hevent hlast hfollows.1) hordered
    | false =>
      rw [if_neg (by simp [hevent])] at hfollows
      exact ih hfollows.2 (hknows.skip hevent) hordered

theorem knows_idle {w : Option Window} (hneeded : 0 < W.needed) (h : Window.Idle w) :
    W.Knows [] w := by
  cases w with
  | none => exact fun x hx => absurd hx List.not_mem_nil
  | some w =>
    rw [h w rfl]
    exact ⟨⟨rfl, fun x hx => absurd hx List.not_mem_nil, .inl rfl, fun h => by cases h⟩,
      fun _ => hneeded⟩

theorem Ordered.le_of_split {log after : List ε} {e : ε} (h : W.Ordered (log ++ e :: after)) :
    ∀ x ∈ log, W.time x ≤ W.time e :=
  fun x hx => (List.pairwise_append.mp h).2.2 x hx e List.mem_cons_self

section Results

variable {w : Option Window} {log : List ε}

/-- The window at an event, with what it has counted. -/
theorem Follows.at_event (hfollows : W.Follows w log) (hidle : Window.Idle w)
    (hneeded : 0 < W.needed) (hordered : W.Ordered log) {after : List ε}
    (hlog : log = before ++ e :: after) (hevent : W.event e = true) :
    ∃ w', W.Counts (before ++ [e]) (Window.enter W.width w' (W.time e)) ∧
      W.Explains w' e ∧ W.Follows (some (Window.next W.width W.needed w' (W.time e))) after ∧
      W.Knows (before ++ [e]) (some (Window.next W.width W.needed w' (W.time e))) := by
  subst hlog
  have hlast := hordered.le_of_split
  obtain ⟨w', hknows, hrest⟩ := hfollows.split (knows_idle hneeded hidle)
    (List.pairwise_append.mp hordered).1
  rw [follows_cons hevent] at hrest
  exact ⟨w', enter_counts hknows hevent hlast, hrest.1, hrest.2,
    next_knows hknows hevent hlast hrest.1⟩

theorem follows_of_trail {w' : Option Window} (h : Trail W.Passes w log w') :
    W.Follows w log := by
  induction h with
  | nil => trivial
  | @cons w w₁ w' e log first _ ih =>
    unfold Passes at first
    rw [Follows]
    split at first
    · rename_i hevent
      rw [if_pos hevent]
      obtain ⟨hexplains, rfl⟩ := first
      exact ⟨hexplains, ih⟩
    · rename_i hevent
      rw [if_neg hevent]
      obtain ⟨hfires, rfl⟩ := first
      exact ⟨hfires, ih⟩

theorem Follows.event_of_fires (hfollows : W.Follows w log) {after : List ε}
    (hlog : log = before ++ e :: after) (hfires : W.fires e = true) : W.event e = true := by
  subst hlog
  induction before generalizing w with
  | nil =>
    rw [List.nil_append, Follows] at hfollows
    cases hevent : W.event e with
    | true => rfl
    | false =>
      rw [if_neg (by simp [hevent]), hfires] at hfollows
      cases hfollows.1
  | cons x before ih =>
    rw [List.cons_append, Follows] at hfollows
    split at hfollows
    · exact ih hfollows.2
    · exact ih hfollows.2

theorem Follows.sound (hfollows : W.Follows w log) (hidle : Window.Idle w)
    (hneeded : 0 < W.needed) (hordered : W.Ordered log) : W.Sound log := by
  intro before e after hlog hfires
  have hevent := hfollows.event_of_fires hlog hfires
  obtain ⟨w', hcounts, hexplains, -, -⟩ := hfollows.at_event hidle hneeded hordered hlog hevent
  have hlast : ∀ x ∈ before ++ [e], W.time x ≤ W.time e := by
    intro x hx
    rcases List.mem_append.mp hx with hx | hx
    · exact (hlog ▸ hordered).le_of_split x hx
    · exact Nat.le_of_eq (congrArg W.time (List.mem_singleton.mp hx))
  have hinside := hcounts.inside e (List.mem_append_right _ (List.mem_singleton.mpr rfl)) hevent
  have hreached := (hexplains.fires.mp hfires).1
  rw [hcounts.counted] at hreached
  refine ⟨hevent, Nat.le_trans hreached (List.countP_mono_left fun x hx hx' => ?_)⟩
  rw [Bool.and_eq_true, decide_eq_true_eq] at hx' ⊢
  exact ⟨hx'.1, by omega, hlast x hx⟩

/-- The last entry of a kind. -/
theorem exists_last {p : ε → Bool} (h : 0 < log.countP p) :
    ∃ before e after, log = before ++ e :: after ∧ p e = true ∧
      (before ++ [e]).countP p = log.countP p := by
  induction log using List.reverseRecOn with
  | nil => cases h
  | append_singleton log x ih =>
    cases hx : p x with
    | true => exact ⟨log, x, [], rfl, hx, rfl⟩
    | false =>
      have hsame : (log ++ [x]).countP p = log.countP p := by
        rw [List.countP_append, List.countP_singleton, hx]
        rfl
      rw [hsame] at h ⊢
      obtain ⟨before, e, after, rfl, he, hcount⟩ := ih h
      exact ⟨before, e, after ++ [x], by rw [List.append_assoc, List.cons_append], he, hcount⟩

theorem Follows.prompt (hfollows : W.Follows w log) (hidle : Window.Idle w)
    (hneeded : 0 < W.needed) (hordered : W.Ordered log) : W.Prompt log := by
  intro t hmany
  obtain ⟨before, e, after, hlog, he, hcount⟩ := exists_last (Nat.lt_of_lt_of_le hneeded hmany)
  rw [Bool.and_eq_true, decide_eq_true_eq] at he
  obtain ⟨hevent, rfl⟩ := he
  obtain ⟨w', hcounts, -, -, hknows⟩ := hfollows.at_event hidle hneeded hordered hlog hevent
  have hanchor := hcounts.anchor_le (hlog ▸ hordered).le_of_split
  have hinside := hcounts.inside e (List.mem_append_right _ (List.mem_singleton.mpr rfl)) hevent
  -- the window has counted all of them, so that it has fired
  have hreached : W.needed ≤ (Window.enter W.width w' (W.time e)).count := by
    rw [hcounts.counted]
    rw [← hcount] at hmany
    refine Nat.le_trans hmany (List.countP_mono_left fun x hx hx' => ?_)
    rw [Bool.and_eq_true, decide_eq_true_eq] at hx' ⊢
    exact ⟨hx'.1, hx'.2 ▸ hanchor⟩
  have hfired : (Window.next W.width W.needed w' (W.time e)).fired = true := by
    simp [Window.next, hreached]
  obtain ⟨x, hx, hxevent, hxfires, hxanchor⟩ := hknows.1.fired hfired
  have hxanchor' : (Window.enter W.width w' (W.time e)).anchor ≤ W.time x := hxanchor
  have hxlast : W.time x ≤ W.time e := by
    rcases List.mem_append.mp hx with hx | hx
    · exact (hlog ▸ hordered).le_of_split x hx
    · exact Nat.le_of_eq (congrArg W.time (List.mem_singleton.mp hx))
  refine ⟨x, ?_, hxfires, by omega, hxlast⟩
  rw [hlog, List.append_cons]
  exact List.mem_append_left _ hx

theorem Follows.complete (hfollows : W.Follows w log) (hidle : Window.Idle w)
    (hneeded : 0 < W.needed) (hordered : W.Ordered log) : W.Complete log := by
  intro t hmany
  obtain ⟨e, he, hfires, hle, hlast⟩ := hfollows.prompt hidle hneeded hordered t hmany
  exact ⟨e, he, hfires, hle, Nat.le_trans hlast (Nat.le_add_right _ _)⟩

/-! ## The latch -/

section Latch

variable {due : Window → Nat → Bool}

theorem Latches.split {log after : List ε} (h : W.Latches due w (log ++ after)) :
    ∃ w', W.Latches due w' after := by
  induction log generalizing w with
  | nil => exact ⟨w, h⟩
  | cons e log ih =>
    rw [List.cons_append, Latches] at h
    split at h
    · exact ih h.2
    · exact ih h.2

theorem Latches.event_of_fires {after : List ε} (h : W.Latches due w (e :: after))
    (hfires : W.fires e = true) : W.event e = true := by
  rw [Latches] at h
  split at h
  · assumption
  · rw [hfires] at h
    exact Bool.noConfusion h.1

/-- Anchors only move on. -/
theorem Latches.anchor_le {v : Window} {mid after : List ε}
    (h : W.Latches due (some v) (mid ++ e :: after)) (hevent : W.event e = true) :
    v.anchor ≤ W.anchor e := by
  induction mid generalizing v with
  | nil =>
    rw [List.nil_append, latches_cons hevent] at h
    rw [h.1.anchor]
    exact Window.anchor_le_enter
  | cons x mid ih =>
    rw [List.cons_append, Latches] at h
    split at h
    · have hrest := ih h.2
      exact Nat.le_trans (Window.anchor_le_enter (t := W.time x)) hrest
    · exact ih h.2

/-- A window that has fired is left before the next alarm, with another event than the one that
raises it unless the alarm is due at once. -/
theorem Latches.left {v : Window} {mid after : List ε}
    (h : W.Latches due (some v) (mid ++ e :: after)) (hfired : v.fired = true)
    (hevent : W.event e = true) (hfires : W.fires e = true) :
    (∃ r ∈ mid ++ [e], W.event r = true ∧ W.resets r = true) ∧
      (due ⟨W.time e, 1, false⟩ (W.time e) = false →
        ∃ r ∈ mid, W.event r = true ∧ W.resets r = true) ∧
      v.anchor + W.width < W.anchor e := by
  induction mid generalizing v with
  | nil =>
    rw [List.nil_append, latches_cons hevent] at h
    obtain ⟨hshows, -⟩ := h
    obtain ⟨hdue, hunfired⟩ := hshows.fires.mp hfires
    by_cases hexpired : v.anchor + W.width < W.time e
    · rw [Window.enter_of_lt hexpired] at hdue
      refine ⟨⟨e, List.mem_singleton.mpr rfl, hevent, hshows.resets.mpr ⟨v, rfl, hexpired⟩⟩,
        fun hnot => ?_, ?_⟩
      · rw [hnot] at hdue
        cases hdue
      · rw [hshows.anchor, Window.enter_of_lt hexpired]
        exact hexpired
    · rw [Window.enter_of_le (Nat.le_of_not_lt hexpired)] at hunfired
      rw [hfired] at hunfired
      cases hunfired
  | cons x mid ih =>
    have hmem : ∀ {mid : List ε}, (∃ r ∈ mid, W.event r = true ∧ W.resets r = true) →
        ∃ r ∈ x :: mid, W.event r = true ∧ W.resets r = true :=
      fun ⟨r, hr, hr'⟩ => ⟨r, List.mem_cons_of_mem x hr, hr'⟩
    rw [List.cons_append, Latches] at h
    cases hx : W.event x with
    | false =>
      rw [if_neg (by simp [hx])] at h
      obtain ⟨hreset, htwo, hfar⟩ := ih h.2 hfired
      exact ⟨hmem hreset, fun h => hmem (htwo h), hfar⟩
    | true =>
      rw [if_pos hx] at h
      obtain ⟨hshows, hrest⟩ := h
      by_cases hexpired : v.anchor + W.width < W.time x
      · have hreset : ∃ r ∈ x :: mid, W.event r = true ∧ W.resets r = true :=
          ⟨x, List.mem_cons_self, hx, hshows.resets.mpr ⟨v, rfl, hexpired⟩⟩
        refine ⟨?_, fun _ => hreset, ?_⟩
        · obtain ⟨r, hr, hr'⟩ := hreset
          exact ⟨r, List.mem_append_left [e] hr, hr'⟩
        · have hanchor := hrest.anchor_le hevent
          simp only [Window.latch, Window.enter_of_lt hexpired] at hanchor
          omega
      · have hlatch : Window.latch W.width due (some v) (W.time x) =
            { v with count := v.count + 1 } := by
          simp [Window.latch, Window.enter_of_le (Nat.le_of_not_lt hexpired), hfired]
        rw [hlatch] at hrest
        obtain ⟨hreset, htwo, hfar⟩ := ih hrest hfired
        exact ⟨hmem hreset, fun h => hmem (htwo h), hfar⟩

/-- Two alarms. -/
theorem Latches.apart {log before mid after : List ε} {e e' : ε} (h : W.Latches due w log)
    (hlog : log = before ++ e :: (mid ++ e' :: after)) (hfires : W.fires e = true)
    (hfires' : W.fires e' = true) :
    (∃ r ∈ mid ++ [e'], W.event r = true ∧ W.resets r = true) ∧
      (due ⟨W.time e', 1, false⟩ (W.time e') = false →
        ∃ r ∈ mid, W.event r = true ∧ W.resets r = true) ∧
      W.anchor e + W.width < W.anchor e' := by
  subst hlog
  obtain ⟨w', hrest⟩ := h.split
  have hboth : W.Latches due w' ((e :: mid) ++ e' :: after) := hrest
  obtain ⟨w'', hrest'⟩ := hboth.split
  have hevent := hrest.event_of_fires hfires
  have hevent' := hrest'.event_of_fires hfires'
  rw [latches_cons hevent] at hrest
  obtain ⟨hshows, hrest⟩ := hrest
  have hfired : (Window.latch W.width due w' (W.time e)).fired = true := by
    simp [Window.latch, (hshows.fires.mp hfires).1]
  rw [hshows.anchor]
  exact hrest.left hfired hevent' hfires'

theorem Follows.latches (h : W.Follows w log) : W.Latches (Window.full W.needed) w log := by
  induction log generalizing w with
  | nil => trivial
  | cons e log ih =>
    rw [Follows] at h
    rw [Latches]
    split at h
    · rename_i hevent
      rw [if_pos hevent]
      exact ⟨⟨h.1.fires.trans Window.fires_iff_alarms, h.1.resets, h.1.anchor⟩, ih h.2⟩
    · rename_i hevent
      rw [if_neg hevent]
      exact ⟨h.1, ih h.2⟩

end Latch

theorem Follows.single (hfollows : W.Follows w log) : W.Single log := by
  intro before e mid e' after hlog hfires hfires'
  obtain ⟨hreset, htwo, hfar⟩ := hfollows.latches.apart hlog hfires hfires'
  refine ⟨hreset, fun hneeded => htwo ?_, hfar⟩
  exact decide_eq_false (Nat.not_le_of_lt hneeded)

theorem Follows.watches (hfollows : W.Follows w log) (hidle : Window.Idle w)
    (hneeded : 0 < W.needed) (hordered : W.Ordered log) : W.Watches log :=
  ⟨hfollows.sound hidle hneeded hordered, hfollows.complete hidle hneeded hordered,
    hfollows.single⟩

end Results

end Watch

end Lib
