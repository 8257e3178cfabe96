import Wirerust.Analyzer.Common
import Wirerust.Lib.Notes
import Wirerust.Lib.Windows

/-!
Windows in the fields of a flow.

The detectors keep the start of a window in seconds, a counter that saturates, and a latch. What
the three hold is a window (`Held`) as long as the counter can reach what is needed.
-/

namespace Wirerust.Analyzer

open Lib

theorem past_iff (ts start width : UInt32) :
    saturatingSub ts start > width ↔ start.toNat + width.toNat < ts.toNat := by
  rw [gt_iff_lt, UInt32.lt_iff_toNat_lt, toNat_saturatingSub]
  omega

theorem past_iff_expired {ts start width : UInt32} {w : Window} (h : start.toNat = w.anchor) :
    decide (saturatingSub ts start > width) = true ↔
      Window.Expired width.toNat (some w) ts.toNat := by
  rw [decide_eq_true_eq, past_iff, h]
  exact ⟨fun hpast => ⟨w, rfl, hpast⟩, fun ⟨v, hv, hpast⟩ => Option.some.inj hv ▸ hpast⟩

/-- The fields of a window with a counter of `bits` bits. -/
structure Held (bits : Nat) (start : UInt32) (count : Nat) (emitted : Bool) (w : Window) :
    Prop where
  anchor : start.toNat = w.anchor
  count : count = min w.count (2 ^ bits - 1)
  fired : emitted = w.fired

namespace Held

variable {bits width count : Nat} {start : UInt32} {emitted : Bool}

theorem of_new (bits : Nat) (hbits : 0 < bits) (ts : UInt32) :
    Held bits ts 1 false ⟨ts.toNat, 1, false⟩ where
  anchor := rfl
  count := by
    have htwo : 2 ≤ 2 ^ bits := Nat.le_self_pow (by omega) 2
    show 1 = min 1 (2 ^ bits - 1)
    omega
  fired := rfl

theorem enter_past (bits : Nat) (hbits : 0 < bits) {w : Window} {ts : UInt32}
    (hpast : w.anchor + width < ts.toNat) :
    Held bits ts 1 false (Window.enter width (some w) ts.toNat) := by
  rw [Window.enter_of_lt hpast]
  exact of_new bits hbits ts

theorem enter_within {w : Window} {ts : UInt32} (h : Held bits start count emitted w)
    (hwithin : ¬ w.anchor + width < ts.toNat) :
    Held bits start (saturatingInc bits count) emitted
      (Window.enter width (some w) ts.toNat) := by
  rw [Window.enter_of_le (Nat.le_of_not_lt hwithin)]
  refine ⟨h.anchor, ?_, h.fired⟩
  rw [saturatingInc, h.count]
  simp only
  omega

variable {w : Option Window} {t : Nat}

theorem fires_iff (h : Held bits start count emitted (Window.enter width w t)) {needed : Nat}
    (hneeded : needed ≤ 2 ^ bits - 1) :
    (needed ≤ count ∧ emitted = false) ↔ Window.Fires width needed w t := by
  rw [Window.Fires, h.count, h.fired, Nat.le_min]
  simp [hneeded]

/-- The latch is set with the alarm. -/
theorem alarm (h : Held bits start count emitted (Window.enter width w t)) {needed : Nat}
    (hneeded : needed ≤ 2 ^ bits - 1) (hfires : needed ≤ count ∧ emitted = false) :
    Held bits start count true (Window.next width needed w t) ∧
      Window.Fires width needed w t := by
  have hreached := ((h.fires_iff hneeded).mp hfires).1
  refine ⟨⟨h.anchor, h.count, ?_⟩, (h.fires_iff hneeded).mp hfires⟩
  simp [Window.next, hreached]

/-- Without an alarm it stays as it is. -/
theorem quiet (h : Held bits start count emitted (Window.enter width w t)) {needed : Nat}
    (hneeded : needed ≤ 2 ^ bits - 1) (hquiet : ¬ (needed ≤ count ∧ emitted = false)) :
    Held bits start count emitted (Window.next width needed w t) ∧
      ¬ Window.Fires width needed w t := by
  have hnone := fun hfires => hquiet ((h.fires_iff hneeded).mpr hfires)
  refine ⟨⟨h.anchor, h.count, ?_⟩, hnone⟩
  rw [h.fired, Window.next]
  cases hfired : (Window.enter width w t).fired with
  | true => rfl
  | false =>
    have hfew : ¬ needed ≤ (Window.enter width w t).count :=
      fun hreached => hnone ⟨hreached, hfired⟩
    simp [hfew]

end Held

/-- The fields of a window that its first event seeds. -/
def Seeded (bits : Nat) (start : UInt32) (count : Nat) (emitted : Bool) : Option Window → Prop
  | none => count = 0 ∧ emitted = false
  | some w => 0 < w.count ∧ Held bits start count emitted w

theorem Seeded.expired_iff {bits count : Nat} (hbits : 0 < bits) {start : UInt32} {emitted : Bool}
    {w : Option Window} (h : Seeded bits start count emitted w) (ts width : UInt32) :
    (count > 0 && saturatingSub ts start > width) = true ↔
      Window.Expired width.toNat w ts.toNat := by
  cases w with
  | none =>
    rw [h.1]
    exact ⟨fun h => absurd h (by simp), fun ⟨v, hv, _⟩ => absurd hv (by simp)⟩
  | some v =>
    obtain ⟨hpos, hheld⟩ := h
    have htwo : 2 ≤ 2 ^ bits := Nat.le_self_pow (by omega) 2
    have hcount : count > 0 := by
      rw [hheld.count]
      omega
    rw [decide_eq_true hcount, Bool.true_and]
    exact past_iff_expired hheld.anchor

/-! ## Findings -/

/-- A step of an analyzer on an input, with the states before and after it. -/
structure Moment (ι σ : Type) where
  input : ι
  before : σ
  after : σ

/-- Some findings have been raised. -/
abbrev Raises (found : List Finding) (log log' : Capped Finding) : Prop :=
  log' = log.pushAll maxFindings (2 ^ 64 - 1) found

theorem Raises.trans {found found' : List Finding} {log log' log'' : Capped Finding}
    (h : Raises found log log') (h' : Raises found' log' log'') :
    Raises (found ++ found') log log'' := by
  rw [h', h, Raises, Capped.pushAll_append]

theorem Raises.logged {found : List Finding} {log log' : Capped Finding}
    (h : Raises found log log') : Logged log log' := ⟨found, h⟩

/-- The findings that have been kept meanwhile. -/
def keptSince (log log' : Capped Finding) : List Finding := log'.kept.drop log.kept.length

/-- Below the cap these are all that have been raised. -/
theorem Raises.keptSince {found : List Finding} {log log' : Capped Finding}
    (h : Raises found log log') (hroom : hasRoom log' = true) : keptSince log log' = found := by
  rw [hasRoom, decide_eq_true_eq, h] at hroom
  rw [Analyzer.keptSince, h, Capped.kept_pushAll hroom, List.drop_left]

theorem hasRoom_of_logged {log log' : Capped Finding} (h : Logged log log')
    (hroom : hasRoom log' = true) : hasRoom log = true := by
  rw [hasRoom, decide_eq_true_eq] at *
  exact Nat.lt_of_le_of_lt h.length_mono hroom

/-! ## Detectors -/

/-- A detector in the states of an analyzer: its events among the inputs, its alarms among the
findings, and the window that the fields hold. -/
structure Detector (ι σ : Type) where
  width : Nat
  needed : Nat
  event : ι → σ → Bool
  time : ι → UInt32
  findings : σ → Capped Finding
  alarm : Finding → Bool
  resets : ι → σ → Bool
  anchor : σ → UInt32
  Holds : σ → Option Window → Prop
  resets_iff : ∀ i s w, Holds s w →
    (resets i s = true ↔ Window.Expired width w (time i).toNat)
  anchor_eq : ∀ s w, Holds s (some w) → (anchor s).toNat = w.anchor

namespace Detector

variable {ι σ : Type} (D : Detector ι σ)

/-- What the steps show of the detector, as long as there is room for its findings. -/
def watch : Watch (Moment ι σ) where
  width := D.width
  needed := D.needed
  event := fun m => D.event m.input m.before
  time := fun m => (D.time m.input).toNat
  fires := fun m => (keptSince (D.findings m.before) (D.findings m.after)).any D.alarm
  resets := fun m => D.resets m.input m.before
  anchor := fun m => (D.anchor m.after).toNat

/-- A step that the detector has no part in. -/
structure Idles (s s' : σ) : Prop where
  window : ∀ w, D.Holds s w → D.Holds s' w
  raises : ∃ found, Raises found (D.findings s) (D.findings s') ∧ found.any D.alarm = false

/-- A step that may count an event, which comes at `ts`. -/
structure Takes (event : Bool) (ts : UInt32) (w : Option Window) (s s' : σ) : Prop where
  window : D.Holds s' (bif event then some (Window.next D.width D.needed w ts.toNat) else w)
  raises : ∃ found, Raises found (D.findings s) (D.findings s') ∧
    (found.any D.alarm = true ↔ event = true ∧ Window.Fires D.width D.needed w ts.toNat)

variable {D} {event : Bool} {ts : UInt32} {w : Option Window} {s s₁ s₂ : σ}

theorem Idles.refl (s : σ) : D.Idles s s := ⟨fun _ h => h, [], rfl, rfl⟩

theorem Idles.trans (h : D.Idles s s₁) (h' : D.Idles s₁ s₂) : D.Idles s s₂ := by
  obtain ⟨found, hfound, hnone⟩ := h.raises
  obtain ⟨found', hfound', hnone'⟩ := h'.raises
  refine ⟨fun w hw => h'.window w (h.window w hw), found ++ found', hfound.trans hfound', ?_⟩
  rw [List.any_append, hnone, hnone']
  rfl

theorem Idles.logged (h : D.Idles s s₁) : Logged (D.findings s) (D.findings s₁) := by
  obtain ⟨found, hfound, -⟩ := h.raises
  exact hfound.logged

theorem Idles.takes (h : D.Idles s s₁) (hw : D.Holds s w) : D.Takes false ts w s s₁ := by
  obtain ⟨found, hfound, hnone⟩ := h.raises
  refine ⟨h.window w hw, found, hfound, ?_⟩
  simp [hnone]

theorem Takes.after (ht : D.Takes event ts w s₁ s₂) (h : D.Idles s s₁) :
    D.Takes event ts w s s₂ := by
  obtain ⟨found, hfound, hnone⟩ := h.raises
  obtain ⟨found', hfound', halarm⟩ := ht.raises
  refine ⟨ht.window, found ++ found', hfound.trans hfound', ?_⟩
  rw [List.any_append, hnone, Bool.false_or]
  exact halarm

theorem Takes.before (ht : D.Takes event ts w s s₁) (h : D.Idles s₁ s₂) :
    D.Takes event ts w s s₂ := by
  obtain ⟨found, hfound, halarm⟩ := ht.raises
  obtain ⟨found', hfound', hnone⟩ := h.raises
  refine ⟨h.window _ ht.window, found ++ found', hfound.trans hfound', ?_⟩
  rw [List.any_append, hnone, Bool.or_false]
  exact halarm

/-- The step is seen as it is. -/
theorem Takes.passes {i : ι} (ht : D.Takes (D.event i s) (D.time i) w s s₁) (hw : D.Holds s w)
    (hroom : hasRoom (D.findings s₁) = true) : ∃ w', D.watch.Passes w ⟨i, s, s₁⟩ w' ∧
      D.Holds s₁ w' := by
  refine ⟨_, ?_, ht.window⟩
  obtain ⟨found, hfound, halarm⟩ := ht.raises
  have hwindow := ht.window
  have hevent : D.watch.event ⟨i, s, s₁⟩ = D.event i s := rfl
  have hfires : D.watch.fires ⟨i, s, s₁⟩ = found.any D.alarm :=
    congrArg (fun l => List.any l D.alarm) (hfound.keptSince hroom)
  rw [Watch.Passes, hevent]
  cases hcounted : D.event i s with
  | true =>
    rw [hcounted] at halarm hwindow
    have hanchor : (D.anchor s₁).toNat =
        (Window.next D.width D.needed w (D.time i).toNat).anchor := D.anchor_eq s₁ _ hwindow
    rw [if_pos rfl]
    refine ⟨⟨?_, D.resets_iff i s w hw, hanchor⟩, rfl⟩
    rw [hfires, halarm]
    exact and_iff_right rfl
  | false =>
    rw [hcounted] at halarm
    rw [if_neg Bool.false_ne_true]
    refine ⟨?_, rfl⟩
    rw [hfires, ← Bool.not_eq_true, halarm]
    exact fun h => Bool.false_ne_true h.1

/-- The rule for runs that note down what the detector sees. -/
theorem watches_notes {ε τ κ : Type} {step : τ → κ → Except ε τ}
    {note : τ → κ → τ → List (Moment ι σ)} (R : τ → Option Window → Prop) (good : τ → Prop)
    (hgood : ∀ t k t', step t k = .ok t' → good t' → good t)
    (hstep : ∀ t k t' w, good t' → R t w → step t k = .ok t' →
      ∃ w', Trail D.watch.Passes w (note t k t') w' ∧ R t' w')
    {t t' : τ} {l : List κ} (hR : R t none) (hrun : run step t l = .ok t') (ht' : good t')
    (hneeded : 0 < D.needed) (hordered : D.watch.Ordered (notes step note t l)) :
    D.watch.Watches (notes step note t l) := by
  obtain ⟨w', htrail, -⟩ := notes_trail R good hgood hstep hR hrun ht'
  exact (Watch.follows_of_trail htrail).watches (fun v hv => by cases hv) hneeded hordered

end Detector

end Wirerust.Analyzer
