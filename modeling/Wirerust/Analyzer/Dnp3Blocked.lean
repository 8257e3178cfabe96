import Wirerust.Analyzer.Dnp3Correlation

/-!
Blocked commands and loss of control.

Over a whole run the happenings on the board of a flow are collected in a trace, with the times of
the calls they come from. Every request on it is answered, overwritten, evicted, timed out or still
pending (`trail_conserves`), an alarm is raised at most once between two resets (`trail_once`), and
a request that is answered within ten seconds does not time out (`trail_inTime`).
`run_correlates` says this of every run of calls on one flow.
-/

namespace Wirerust.Dnp3

open Lib Wirerust.Flow Wirerust.Analyzer

structure Entry where
  ts : UInt32
  what : Happening

def EntryStep (b : Board) (e : Entry) (b' : Board) : Prop := Step e.ts b e.what b'

/-! ## Alarms -/

def Board.raised (b : Board) : Alarm → Bool
  | .blockedCommand => b.blockRaised
  | .lossOfControl => b.lossRaised

theorem Step.fires {ts : UInt32} {b b' : Board} {what : Happening} {alarm : Alarm}
    (h : Step ts b what b') (hraises : what.raises alarm = true) :
    b.raised alarm = false ∧ b'.raised alarm = true := by
  cases h with
  | blockedCommand hdue hoff =>
    obtain rfl : Alarm.blockedCommand = alarm := of_decide_eq_true hraises
    exact ⟨hoff, rfl⟩
  | lossOfControl hdue hoff =>
    obtain rfl : Alarm.lossOfControl = alarm := of_decide_eq_true hraises
    exact ⟨hoff, rfl⟩
  | _ => cases hraises

theorem Step.holds {ts : UInt32} {b b' : Board} {what : Happening} {alarm : Alarm}
    (h : Step ts b what b') (hreset : what ≠ .reset) (hon : b.raised alarm = true) :
    b'.raised alarm = true := by
  cases h with
  | reset => exact absurd rfl hreset
  | blockedCommand hdue hoff =>
    cases alarm with
    | blockedCommand => rfl
    | lossOfControl => exact hon
  | lossOfControl hdue hoff =>
    cases alarm with
    | blockedCommand => exact hon
    | lossOfControl => rfl
  | _ =>
    cases alarm with
    | blockedCommand => exact hon
    | lossOfControl => exact hon

section Trails

variable {b b' : Board} {l : List Entry}

theorem trail_once (h : Trail EntryStep b l b') (hreset : ∀ e ∈ l, e.what ≠ .reset)
    (alarm : Alarm) : l.countP (fun e => e.what.raises alarm) ≤ 1 := by
  refine (Trail.fires_once (fun b => b.raised alarm) (fun e => e.what = .reset) ?_ ?_ h hreset).2
  · exact fun b e b' hstep hraises => Step.fires hstep hraises
  · exact fun b e b' hstep hkeep hon => Step.holds hstep hkeep hon

/-! ## Requests -/

theorem Step.conserves {ts : UInt32} {what : Happening} (h : Step ts b what b') :
    b.pending.size + what.isRequest.toNat = b'.pending.size + what.isRemoval.toNat +
      what.isOverwrite.toNat + what.isEviction.toNat + what.isTimeout.toNat := by
  cases h with
  | requested appFc key hfc hnew =>
    show b.pending.size + 1 = (b.pending.insert key ts).size + 0 + 0 + 0 + 0
    rw [b.pending.size_insert_of_none ts hnew]
  | overwrote appFc key old hfc hold =>
    show b.pending.size + 1 = (b.pending.insert key ts).size + 0 + 1 + 0 + 0
    rw [b.pending.size_insert_of_some ts hold]
  | evicted appFc key victim old hfc hnew hold =>
    show b.pending.size + 1 = ((b.pending.erase victim).insert key ts).size + 0 + 0 + 1 + 0
    have hne : key ≠ victim := by
      intro heq
      rw [heq, hold] at hnew
      cases hnew
    have herase := b.pending.size_erase_of_some hold
    have hinsert := (b.pending.erase victim).size_insert_of_none ts
      ((b.pending.get?_erase_of_ne hne).trans hnew)
    omega
  | answered key =>
    show b.pending.size + 0 =
      (b.pending.erase key).size + (b.pending.get? key).isSome.toNat + 0 + 0 + 0
    cases hget : b.pending.get? key with
    | none =>
      rw [b.pending.erase_of_none hget]
      rfl
    | some since => exact b.pending.size_erase_of_some hget
  | timedOut key since hsince hlate =>
    show b.pending.size + 0 = (b.pending.erase key).size + 0 + 0 + 0 + 1
    exact b.pending.size_erase_of_some hsince
  | _ => rfl

theorem countP_entry (p : Happening → Bool) (e : Entry) (l : List Entry) :
    (e :: l).countP (fun e => p e.what) = l.countP (fun e => p e.what) + (p e.what).toNat := by
  rw [List.countP_cons]
  cases p e.what with
  | true => rfl
  | false => rfl

/-- Every request is still pending or has left the board in one of four ways. -/
theorem trail_conserves (h : Trail EntryStep b l b') :
    b.pending.size + l.countP (fun e => e.what.isRequest) =
      b'.pending.size + l.countP (fun e => e.what.isRemoval) +
        l.countP (fun e => e.what.isOverwrite) + l.countP (fun e => e.what.isEviction) +
        l.countP (fun e => e.what.isTimeout) := by
  induction h with
  | nil b => rfl
  | cons first _ ih =>
    have hstep := Step.conserves first
    simp only [countP_entry]
    omega

/-- The block events are counted from the last reset on. -/
theorem trail_blocks (h : Trail EntryStep b l b') (hreset : ∀ e ∈ l, e.what ≠ .reset) :
    b'.blocks = bump64^[l.countP (fun e => e.what.isTimeout)] b.blocks := by
  induction h with
  | nil b => rfl
  | @cons b₁ b₂ b₃ e l first _ ih =>
    have hfirst : b₂.blocks = bump64^[e.what.isTimeout.toNat] b₁.blocks := by
      have hkeep := hreset e (List.mem_cons_self ..)
      obtain ⟨ts, what⟩ := e
      replace first : Step ts b₁ what b₂ := first
      cases first with
      | reset => exact absurd rfl hkeep
      | _ => rfl
    rw [countP_entry, Function.iterate_add_apply, ← hfirst]
    exact ih fun e he => hreset e (List.mem_cons_of_mem _ he)

/-! ## Requests answered in time -/

/-- The request of this time, or none, is pending under the key. -/
def Board.Waits (b : Board) (key : ReqKey) (since : UInt32) : Prop :=
  b.pending.get? key = none ∨ b.pending.get? key = some since

theorem waits_erase {key : ReqKey} {since : UInt32} (h : b.Waits key since) (other : ReqKey) :
    (b.pending.erase other).get? key = none ∨ (b.pending.erase other).get? key = some since := by
  by_cases heq : key = other
  · rw [heq]
    exact .inl (b.pending.get?_erase_self other)
  · rw [b.pending.get?_erase_of_ne heq]
    exact h

theorem Step.waits {ts since : UInt32} {what : Happening} {key : ReqKey} (h : Step ts b what b')
    (hother : what.requests key = false) (hwaits : b.Waits key since) : b'.Waits key since := by
  cases h with
  | requested appFc other hfc hnew =>
    have hne : key ≠ other := fun heq => of_decide_eq_false hother heq.symm
    rw [Board.Waits, SortedMap.get?_insert_of_ne _ _ hne]
    exact hwaits
  | overwrote appFc other old hfc hold =>
    have hne : key ≠ other := fun heq => of_decide_eq_false hother heq.symm
    rw [Board.Waits, SortedMap.get?_insert_of_ne _ _ hne]
    exact hwaits
  | evicted appFc other victim old hfc hnew hold =>
    have hne : key ≠ other := fun heq => of_decide_eq_false hother heq.symm
    rw [Board.Waits, SortedMap.get?_insert_of_ne _ _ hne]
    exact waits_erase hwaits victim
  | answered other => exact waits_erase hwaits other
  | timedOut other old hsince hlate => exact waits_erase hwaits other
  | _ => exact hwaits

theorem Step.late {ts since : UInt32} {key : ReqKey} (h : Step ts b (.timedOut key) b')
    (hwaits : b.Waits key since) : saturatingSub ts since > blockCmdTimeoutSecs := by
  cases h with
  | timedOut _ old hold hpast =>
    rcases hwaits with hnone | hsome
    · rw [hnone] at hold
      cases hold
    · rw [hsome] at hold
      cases hold
      exact hpast

theorem trail_waits {key : ReqKey} {since : UInt32} (h : Trail EntryStep b l b')
    (hother : ∀ e ∈ l, e.what.requests key = false) (hwaits : b.Waits key since) :
    ∀ e ∈ l, e.what = .timedOut key → saturatingSub e.ts since > blockCmdTimeoutSecs := by
  intro e he htimeout
  obtain ⟨b₁, b₂, hwaits₁, hstep⟩ := Trail.holds_before (I := fun b : Board => b.Waits key since)
    (p := fun e => e.what.requests key = false)
    (fun b e b' hstep hother hwaits => Step.waits hstep hother hwaits) h hother hwaits e he
  replace hstep : Step e.ts b₁ e.what b₂ := hstep
  rw [htimeout] at hstep
  exact hstep.late hwaits₁

/-- Nothing times out that has not been requested. -/
theorem trail_quiet {key : ReqKey} (h : Trail EntryStep b l b')
    (hother : ∀ e ∈ l, e.what.requests key = false) (hnone : b.pending.get? key = none) :
    ∀ e ∈ l, e.what ≠ .timedOut key := by
  intro e he htimeout
  have hlate : saturatingSub e.ts e.ts > blockCmdTimeoutSecs :=
    trail_waits h hother (.inl hnone) e he htimeout
  rw [saturatingSub_self] at hlate
  exact absurd hlate (by decide)

theorem Step.requests {ts : UInt32} {what : Happening} {key : ReqKey} (h : Step ts b what b')
    (hrequests : what.requests key = true) : b'.pending.get? key = some ts := by
  cases h with
  | requested appFc other hfc hnew =>
    obtain rfl : other = key := of_decide_eq_true hrequests
    exact SortedMap.get?_insert_self _ _ _
  | overwrote appFc other old hfc hold =>
    obtain rfl : other = key := of_decide_eq_true hrequests
    exact SortedMap.get?_insert_self _ _ _
  | evicted appFc other victim old hfc hnew hold =>
    obtain rfl : other = key := of_decide_eq_true hrequests
    exact SortedMap.get?_insert_self _ _ _
  | _ => cases hrequests

/-- A request that is answered within ten seconds, and not overwritten before, does not time out:
neither until the response, nor after it unless the key is requested again. -/
def InTime (trace : List Entry) : Prop :=
  ∀ pre request mid answer post key removed,
    trace = pre ++ request :: (mid ++ answer :: post) → request.what.requests key = true →
    (∀ e ∈ mid, e.what.requests key = false) → answer.what = .answered key removed →
    answer.ts.toNat ≤ request.ts.toNat + 10 →
    (∀ e ∈ mid, e.what ≠ .timedOut key) ∧
    ∀ before late after, post = before ++ late :: after → late.what = .timedOut key →
      ∃ e ∈ before, e.what.requests key = true

theorem trail_inTime (h : Trail EntryStep b l b') (hsorted : l.Pairwise fun e e' => e.ts ≤ e'.ts) :
    InTime l := by
  rintro pre request mid answer post key removed rfl hrequests hmid hanswer hsoon
  obtain ⟨b₁, -, h₁⟩ := h.split
  cases h₁ with
  | @cons _ b₂ _ _ _ hrequest h₂ =>
    obtain ⟨b₃, htrail, h₃⟩ := h₂.split
    have hwaits : b₂.Waits key request.ts := .inr (Step.requests hrequest hrequests)
    constructor
    · intro e he htimeout
      have hlate := trail_waits htrail hmid hwaits e he htimeout
      have hle : e.ts ≤ answer.ts := by
        have hrest := (List.pairwise_cons.mp (List.pairwise_append.mp hsorted).2.1).2
        exact (List.pairwise_append.mp hrest).2.2 e he answer (List.mem_cons_self ..)
      rw [gt_iff_lt, UInt32.lt_iff_toNat_lt, toNat_saturatingSub] at hlate
      rw [UInt32.le_iff_toNat_le] at hle
      have hten : blockCmdTimeoutSecs.toNat = 10 := rfl
      omega
    · rintro before late after rfl htimeout
      by_contra hnever
      cases h₃ with
      | @cons _ b₄ _ _ _ hstep h₄ =>
        have hgone : b₄.pending.get? key = none := by
          obtain ⟨ts, what⟩ := answer
          cases hanswer
          cases hstep with
          | answered => exact SortedMap.get?_erase_self _ _
        have hnone : ∀ e ∈ before ++ [late], e.what.requests key = false := by
          intro e he
          rcases List.mem_append.mp he with hbefore | hlast
          · cases hrequest : e.what.requests key with
            | false => rfl
            | true => exact absurd ⟨e, hbefore, hrequest⟩ hnever
          · rw [List.mem_singleton.mp hlast, htimeout]
            rfl
        rw [List.append_cons] at h₄
        obtain ⟨b₅, hlast, -⟩ := h₄.split
        exact trail_quiet hlast hnone hgone late (by simp) htimeout

end Trails

/-! ## Runs -/

/-- The analyzer, and what has happened so far. -/
structure Watched where
  analyzer : Dnp3Analyzer
  trace : List Entry := []

/-- `onCall`, with the trace beside it. -/
def onCallWatched (ord : PendingOrder) (flowKey : FlowKey) (w : Watched) (call : Call) :
    Checked Watched := do
  let s ← onCall ord flowKey w.analyzer call
  let happenings := callTrace ord ⟨flowKey, call.direction, call.ts⟩ call.data w.analyzer
    (flowOf w.analyzer flowKey)
  .ok ⟨s, w.trace ++ happenings.map fun what => ⟨call.ts, what⟩⟩

/-- The trace has no part in what the analyzer does. -/
theorem run_watched (ord : PendingOrder) (flowKey : FlowKey) (w : Watched) (calls : List Call) :
    run (onCall ord flowKey) w.analyzer calls =
      run (onCallWatched ord flowKey) w calls >>= fun w' => .ok w'.analyzer := by
  induction calls generalizing w with
  | nil => rfl
  | cons call calls ih =>
    rw [run_cons, run_cons, bind_bind, onCallWatched, bind_bind]
    exact bind_congr_ok fun s _ => ih ⟨s, _⟩

/-- The flow before its first call. -/
def emptyBoard : Board := ⟨.empty, 0, 0, false, false⟩

/-- What holds after every call. -/
structure Sound (flowKey : FlowKey) (w : Watched) : Prop where
  trail : Trail EntryStep emptyBoard w.trace (boardOf (flowOf w.analyzer flowKey))
  due : Due (boardOf (flowOf w.analyzer flowKey))
  raised : ∃ findings,
    w.analyzer.findings = Capped.pushAll maxFindings (2 ^ 64 - 1) ⟨[], 0⟩ findings ∧
    findings.filterMap alarmOf = w.trace.filterMap fun e => e.what.alarm?
  evicted : w.analyzer.pendingRequestsEvicted =
    bump64^[w.trace.countP fun e => e.what.isEviction] 0

theorem sound_new (flowKey : FlowKey) (threshold : UInt32) :
    Sound flowKey { analyzer := .new threshold } where
  trail := .nil _
  due := ⟨fun h => absurd h (by decide : ¬blockCmdThreshold ≤ 0),
    fun h => absurd h (by decide : ¬t0827Threshold ≤ 0 + 0)⟩
  raised := ⟨[], rfl, rfl⟩
  evicted := rfl

theorem onCallWatched_sound {ord : PendingOrder} {flowKey : FlowKey} {w w' : Watched} {call : Call}
    (h : Sound flowKey w) (hok : onCallWatched ord flowKey w call = .ok w') :
    Sound flowKey w' := by
  obtain ⟨s, hcall, hw'⟩ := bind_eq_ok.mp hok
  cases hw'
  obtain ⟨s₁, flow', hdata, rfl, hflow⟩ := onCall_eq_ok hcall
  obtain ⟨htraced, hdue⟩ := onFlowData_traced hdata
  generalize callTrace ord ⟨flowKey, call.direction, call.ts⟩ call.data w.analyzer
    (flowOf w.analyzer flowKey) = happenings at htraced ⊢
  have htrail : Trail EntryStep (boardOf (flowOf w.analyzer flowKey))
      (happenings.map fun what => ⟨call.ts, what⟩) (boardOf flow') :=
    htraced.trail.relabel fun b what b' hstep => hstep
  refine ⟨?_, ?_, ?_, ?_⟩
  · rw [hflow]
    exact h.trail.append htrail
  · rw [hflow]
    exact hdue h.due
  · obtain ⟨as, has, halarms⟩ := h.raised
    obtain ⟨bs, hbs, halarms'⟩ := htraced.raised
    refine ⟨as ++ bs, ?_, ?_⟩
    · rw [Capped.pushAll_append, ← has]
      exact hbs
    · rw [List.filterMap_append, List.filterMap_append, halarms, halarms', List.filterMap_map]
      rfl
  · have hcount : (happenings.map fun what => (⟨call.ts, what⟩ : Entry)).countP
        (fun e => e.what.isEviction) = happenings.countP Happening.isEviction := by
      rw [List.countP_map]
      rfl
    rw [List.countP_append, hcount, Nat.add_comm, Function.iterate_add_apply, ← h.evicted]
    exact htraced.evicted

/-- The trace is in the order of the calls. -/
theorem run_times {ord : PendingOrder} {flowKey : FlowKey} {s : Dnp3Analyzer} {calls : List Call}
    {w : Watched} (hrun : run (onCallWatched ord flowKey) { analyzer := s } calls = .ok w) :
    (∀ e ∈ w.trace, ∃ call ∈ calls, call.ts = e.ts) ∧
      ((calls.Pairwise fun call call' => call.ts ≤ call'.ts) →
        w.trace.Pairwise fun e e' => e.ts ≤ e'.ts) := by
  induction calls using List.reverseRecOn generalizing w with
  | nil =>
    cases hrun
    exact ⟨nofun, fun _ => List.Pairwise.nil⟩
  | append_singleton calls call ih =>
    rw [run_snoc] at hrun
    obtain ⟨w₁, hrun₁, hlast⟩ := bind_eq_ok.mp hrun
    obtain ⟨s', -, hw⟩ := bind_eq_ok.mp hlast
    cases hw
    obtain ⟨hmem, hsorted⟩ := ih hrun₁
    constructor
    · intro e he
      rcases List.mem_append.mp he with hold | hnew
      · obtain ⟨call', hcall', hts⟩ := hmem e hold
        exact ⟨call', List.mem_append_left _ hcall', hts⟩
      · obtain ⟨what, -, rfl⟩ := List.mem_map.mp hnew
        exact ⟨call, List.mem_append_right _ (List.mem_singleton_self _), rfl⟩
    · intro hcalls
      obtain ⟨hbefore, -, hle⟩ := List.pairwise_append.mp hcalls
      refine List.pairwise_append.mpr ⟨hsorted hbefore, ?_, ?_⟩
      · exact List.pairwise_map.mpr (List.pairwise_of_forall fun _ _ => UInt32.le_refl _)
      · intro e he e' he'
        obtain ⟨call', hcall', hts⟩ := hmem e he
        obtain ⟨what, -, rfl⟩ := List.mem_map.mp he'
        rw [← hts]
        exact hle call' hcall' call (List.mem_singleton_self _)

/-- What the correlation has done after a run. -/
structure Correlated (flow : Dnp3FlowState) (w : Watched) : Prop where
  /-- The trace leads from the empty board to that of the flow, one step a happening. -/
  trail : Trail EntryStep emptyBoard w.trace (boardOf flow)
  blocked : 3 ≤ flow.blockEventCount → flow.blockFindingEmittedThisWindow = true
  lost : 3 ≤ flow.restartEventCount + flow.blockEventCount → flow.lossOfControlEmitted = true
  /-- The alarms of the trace are the findings that have been pushed or counted as dropped. -/
  raised : ∃ findings,
    w.analyzer.findings = Capped.pushAll maxFindings (2 ^ 64 - 1) ⟨[], 0⟩ findings ∧
    findings.filterMap alarmOf = w.trace.filterMap fun e => e.what.alarm?
  once : ∀ pre window post, w.trace = pre ++ window ++ post →
    (∀ e ∈ window, e.what ≠ .reset) →
    ∀ alarm, window.countP (fun e => e.what.raises alarm) ≤ 1
  codes : ∀ e ∈ w.trace, ∀ appFc key overwrote evicted,
    e.what = .requested appFc key overwrote evicted → appFc = 3 ∨ appFc = 4 ∨ appFc = 5
  evicted : w.analyzer.pendingRequestsEvicted =
    min (w.trace.countP fun e => e.what.isEviction) (2 ^ 64 - 1)
  conserved : w.analyzer.pendingRequestsEvicted < 2 ^ 64 - 1 →
    w.trace.countP (fun e => e.what.isRequest) =
      flow.pendingRequests.size + w.trace.countP (fun e => e.what.isRemoval) +
        w.trace.countP (fun e => e.what.isOverwrite) + w.analyzer.pendingRequestsEvicted +
        w.trace.countP (fun e => e.what.isTimeout)
  /-- Since the last reset, or the beginning. -/
  counted : ∀ pre window, w.trace = pre ++ window → (∀ e ∈ window, e.what ≠ .reset) →
    (pre = [] ∨ ∃ before ts, pre = before ++ [⟨ts, .reset⟩]) →
    flow.blockEventCount = min (window.countP fun e => e.what.isTimeout) (2 ^ 64 - 1)

theorem Sound.evictions {flowKey : FlowKey} {w : Watched} (h : Sound flowKey w) :
    w.analyzer.pendingRequestsEvicted =
      min (w.trace.countP fun e => e.what.isEviction) (2 ^ 64 - 1) := by
  have hcount := bump64_iterate 0 (w.trace.countP fun e => e.what.isEviction)
  rw [Nat.zero_add] at hcount
  rw [h.evicted]
  exact hcount

theorem Sound.correlated {flowKey : FlowKey} {w : Watched} (h : Sound flowKey w) :
    Correlated (flowOf w.analyzer flowKey) w where
  trail := h.trail
  blocked := h.due.blocks
  lost := h.due.loss
  raised := h.raised
  once := by
    intro pre window post heq hreset alarm
    have htrail := h.trail
    rw [heq] at htrail
    obtain ⟨b₁, h₁, -⟩ := htrail.split
    obtain ⟨b₂, -, hwindow⟩ := h₁.split
    exact trail_once hwindow hreset alarm
  codes := by
    intro e he appFc key overwrote evicted heq
    obtain ⟨b, b', hstep⟩ := h.trail.step_of_mem he
    replace hstep : Step e.ts b e.what b' := hstep
    rw [heq] at hstep
    cases hstep with
    | requested _ _ hfc hnew => exact hfc
    | overwrote _ _ old hfc hold => exact hfc
    | evicted _ _ victim old hfc hnew hold => exact hfc
  evicted := h.evictions
  conserved := by
    intro hbelow
    have hall := trail_conserves h.trail
    have hcount := h.evictions
    have hempty : emptyBoard.pending.size = 0 := rfl
    have hsize : (boardOf (flowOf w.analyzer flowKey)).pending.size =
        (flowOf w.analyzer flowKey).pendingRequests.size := rfl
    omega
  counted := by
    intro pre window heq hreset hstart
    have htrail := h.trail
    rw [heq] at htrail
    obtain ⟨b, hpre, hwindow⟩ := htrail.split
    have hzero : b.blocks = 0 := by
      rcases hstart with rfl | ⟨before, ts, rfl⟩
      · cases hpre
        rfl
      · obtain ⟨b₁, -, hlast⟩ := hpre.split
        cases hlast with
        | cons first rest =>
          cases rest
          replace first : Step ts b₁ .reset b := first
          cases first
          rfl
    have hblocks := trail_blocks hwindow hreset
    have hcount := bump64_iterate 0 (window.countP fun e => e.what.isTimeout)
    rw [Nat.zero_add] at hcount
    rw [hzero] at hblocks
    exact hblocks.trans hcount

/-- Every run of calls on one flow comes back as long as fewer than `2^64` bytes are given to it.
After it the alarms that are due have been raised, each at most once in a window, every request has
gone one of its ways, and those answered in time have not been counted as blocked. -/
theorem run_correlates (ord : PendingOrder) (flowKey : FlowKey) (threshold : UInt32)
    (calls : List Call) :
    (totalBytes calls < 2 ^ 64 →
      ∃ w, run (onCallWatched ord flowKey) { analyzer := .new threshold } calls = .ok w) ∧
    run (onCall ord flowKey) (.new threshold) calls =
      (run (onCallWatched ord flowKey) { analyzer := .new threshold } calls >>=
        fun w => .ok w.analyzer) ∧
    ∀ w, run (onCallWatched ord flowKey) { analyzer := .new threshold } calls = .ok w →
      Correlated (flowOf w.analyzer flowKey) w ∧
      ((calls.Pairwise fun call call' => call.ts ≤ call'.ts) → InTime w.trace) := by
  have hwatched := run_watched ord flowKey { analyzer := .new threshold } calls
  refine ⟨fun hbytes => ?_, hwatched, fun w hw => ?_⟩
  · have hfits := run_fits ord calls (shape_new threshold flowKey) (fits_new threshold flowKey)
    rw [Nat.zero_add] at hfits
    obtain ⟨s, hs⟩ := hfits.1 hbytes
    rw [hs] at hwatched
    obtain ⟨w, hw, -⟩ := bind_eq_ok.mp hwatched.symm
    exact ⟨w, hw⟩
  · have hsound : Sound flowKey w :=
      run_keeps (fun w call w' h hok => onCallWatched_sound h hok) (sound_new flowKey threshold) hw
    exact ⟨hsound.correlated, fun hcalls => trail_inTime hsound.trail ((run_times hw).2 hcalls)⟩

/-- A SELECT with this application sequence. -/
def selectFrame (appSeq : UInt8) : List UInt8 :=
  [0x05, 0x64, 8, 0xc4, 1, 0, 2, 0, 0, 0, 0xc0, 0xc0 + appSeq, 3, 0, 0]

/-- Three commands without a response, and a byte eleven seconds later. -/
def unanswered : List Call :=
  [⟨selectFrame 1 ++ selectFrame 2 ++ selectFrame 3, 0, .clientToServer⟩,
    ⟨[0x05], 11, .clientToServer⟩]

example :
    (run (onCallWatched keyOrder outstationKey) { analyzer := .new 10 } unanswered).toOption.map
    (fun w => w.trace.map Entry.what) =
    some [.requested 3 (toLex (1, 1)) false none, .requested 3 (toLex (1, 2)) false none,
      .requested 3 (toLex (1, 3)) false none, .timedOut (toLex (1, 1)), .timedOut (toLex (1, 2)),
      .timedOut (toLex (1, 3)), .raised .blockedCommand, .raised .lossOfControl] := rfl

end Wirerust.Dnp3
