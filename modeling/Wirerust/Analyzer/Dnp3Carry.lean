import Wirerust.Analyzer.Dnp3Turns

/-!
The carries of a DNP3 flow over whole runs.

`Shape` is what holds of a flow between two calls. `run_carries` says that every run of `on_data`
calls on a flow keeps it, that every call ends, and what a call leaves alone; the calls come
back as long as the counters do not run over.
-/

namespace Wirerust.Dnp3

open Lib Wirerust.Flow Wirerust.Analyzer

/-! ## Counters that do not run over -/

/-- The bytes in both carries. -/
def carried (flow : Dnp3FlowState) : Nat := flow.carryC2s.length + flow.carryS2c.length

/-- Every byte that has been taken in a frame has counted at most once; those in the carries are
still to come. -/
def Fits (bytes : Nat) (s : Dnp3Analyzer) (flow : Dnp3FlowState) : Prop :=
  ∃ n, CountsLe n flow.fcCounts ∧ CountsLe n s.fnCodeCounts ∧ events flow ≤ n ∧
    n + carried flow ≤ bytes

theorem carried_setCarry (flow : Dnp3FlowState) (dir : Direction) (bytes : List UInt8) :
    carried (flow.setCarry dir bytes) + (flow.carry dir).length = carried flow + bytes.length := by
  cases dir with
  | clientToServer =>
    simp only [carried, Dnp3FlowState.setCarry, Dnp3FlowState.carry]
    omega
  | serverToClient =>
    simp only [carried, Dnp3FlowState.setCarry, Dnp3FlowState.carry]
    omega

theorem Tallied.countsLe {appFc : Option UInt8} {counts counts' : SortedMap UInt8 Nat} {n : Nat}
    (h : Tallied appFc counts counts') (hle : CountsLe n counts) : CountsLe (n + 1) counts' := by
  cases appFc with
  | none =>
    rw [show counts' = counts from h]
    exact fun key => Nat.le_succ_of_le (hle key)
  | some fc =>
    obtain ⟨m, hm⟩ := h
    exact hle.countEntry hm

theorem Aside.carried {flow flow' : Dnp3FlowState} (h : Aside flow flow') :
    carried flow' = carried flow := by
  rw [Dnp3.carried, Dnp3.carried, h.carryC2s, h.carryS2c]

theorem dropMalformed_fits {bytes extra : Nat} {c : Delivery} {rest : List UInt8} {s : Dnp3Analyzer}
    {flow : Dnp3FlowState} (h : Fits bytes s flow)
    (hrest : rest.length ≤ (flow.carry c.direction).length + extra) :
    Fits (bytes + extra) (dropMalformed c rest s flow).1 (dropMalformed c rest s flow).2 := by
  obtain ⟨n, hfc, hfn, hevents, hle⟩ := h
  obtain ⟨found, emitted, heq⟩ := dropMalformed_eq c rest s flow
  have hdrops := dropMalformed_drops c rest s flow
  refine ⟨n, ?_, ?_, ?_, ?_⟩
  · rw [hdrops.counts.fcCounts]
    exact hfc
  · rw [hdrops.fnCodeCounts]
    exact hfn
  · rw [hdrops.events]
    exact hevents
  · have hcarried := carried_setCarry (countMalformed flow) c.direction rest
    have hsame : (countMalformed flow).carry c.direction = flow.carry c.direction := by
      cases c.direction <;> rfl
    have hcount : carried (countMalformed flow) = carried flow := rfl
    have hout : carried (dropMalformed c rest s flow).2 =
        carried ((countMalformed flow).setCarry c.direction rest) := by
      rw [heq]
      rfl
    rw [hsame] at hcarried
    omega

theorem Turned.fits {bytes : Nat} {ord : PendingOrder} {c : Delivery} {s : Dnp3Analyzer}
    {flow : Dnp3FlowState} {again : Bool} {w : Dnp3Analyzer × Dnp3FlowState}
    (h : Turned ord c s flow again w) (hfits : Fits bytes s flow) : Fits bytes w.1 w.2 := by
  cases h with
  | stop hok => exact hfits
  | settle hlen hlong =>
    have hresync := (resync_spec 1 (flow.carry c.direction)).2
    have hle : (resync 1 (flow.carry c.direction)).length ≤
      (flow.carry c.direction).length + 0 := by omega
    exact dropMalformed_fits hfits hle
  | drop rest hlen hrest =>
    have hle : rest.length ≤ (flow.carry c.direction).length + 0 := Nat.le_of_lt hrest
    exact dropMalformed_fits hfits hle
  | frame n header s' flow' hsync hn hle hparse hframe =>
    obtain ⟨m, hfc, hfn, hevents, hbytes⟩ := hfits
    have hstep := processFrame_step hframe
    have hbounds := frameLen_bounds hn
    have hset := carried_setCarry flow' c.direction ((flow.carry c.direction).drop n)
    have hcarried := hstep.aside.carried
    have hsame := hstep.aside.carry c.direction
    have hevents' := hstep.events
    have hkept : ∀ bytes, events (flow'.setCarry c.direction bytes) = events flow' ∧
        (flow'.setCarry c.direction bytes).fcCounts = flow'.fcCounts := by
      intro bytes
      cases c.direction <;> exact ⟨rfl, rfl⟩
    rw [hsame, List.length_drop] at hset
    refine ⟨m + 1, ?_, hstep.fnCodeCounts.countsLe hfn, ?_, ?_⟩
    · rw [(hkept _).2]
      exact hstep.fcCounts.countsLe hfc
    · rw [(hkept _).1]
      omega
    · simp only
      omega

/-- A turn whose carry may still hold a frame comes back. -/
theorem turn_returns {bytes : Nat} {s : Dnp3Analyzer} {flow : Dnp3FlowState}
    (hbytes : bytes < 2 ^ 64) (hfits : Fits bytes s flow) (ord : PendingOrder) (c : Delivery)
    (did : Bool) : ∃ r, turn ord c did s flow = .ok r := by
  unfold turn
  simp only
  split
  · exact ⟨_, rfl⟩
  · rename_i hlong
    split
    · exact ⟨_, rfl⟩
    · split
      · exact ⟨_, rfl⟩
      · split
        · exact ⟨_, rfl⟩
        · split
          · exact ⟨_, rfl⟩
          · rename_i header hheader
            obtain ⟨n, hfc, hfn, hevents, hle⟩ := hfits
            have hcarry : (flow.carry c.direction).length ≤ carried flow := by
              unfold carried
              cases c.direction with
              | clientToServer => exact Nat.le_add_right _ _
              | serverToClient => exact Nat.le_add_left _ _
            obtain ⟨w, hw⟩ := processFrame_returns hfc hfn (by omega) (by omega) ord c header _
            rw [hw]
            exact ⟨_, rfl⟩

theorem walk_returns {bytes : Nat} {s : Dnp3Analyzer} {flow : Dnp3FlowState}
    (hbytes : bytes < 2 ^ 64) (hfits : Fits bytes s flow) (ord : PendingOrder) (c : Delivery)
    (turns : Nat) (did : Bool) : ∃ w, walk ord c turns did s flow = .ok w := by
  induction turns generalizing s flow did with
  | zero => exact ⟨_, rfl⟩
  | succ turns ih =>
    obtain ⟨⟨again, s', flow'⟩, hturn⟩ := turn_returns hbytes hfits ord c did
    have hfits' := (turn_cases hturn).fits hfits
    rw [walk, hturn, ok_bind]
    cases again with
    | false => exact ⟨_, rfl⟩
    | true => exact ih hfits' true

/-! ## The parts of a call -/

/-- The expiry of the window has to do with the events only. -/
theorem expire_spec (flow : Dnp3FlowState) (ts : UInt32) :
    (∀ dir, (maybeExpireCorrelationWindow flow ts).carry dir = flow.carry dir) ∧
      (maybeExpireCorrelationWindow flow ts).isNonDnp3 = flow.isNonDnp3 ∧
      (maybeExpireCorrelationWindow flow ts).parseErrors = flow.parseErrors ∧
      SameCounts flow (maybeExpireCorrelationWindow flow ts) ∧
      (maybeExpireCorrelationWindow flow ts).pendingRequests = flow.pendingRequests ∧
      events (maybeExpireCorrelationWindow flow ts) ≤ events flow := by
  unfold maybeExpireCorrelationWindow
  split
  · exact ⟨fun dir => by cases dir <;> rfl, rfl, rfl, ⟨rfl, rfl, rfl⟩, rfl, Nat.le_refl _⟩
  · split
    · refine ⟨fun dir => by cases dir <;> rfl, rfl, rfl, ⟨rfl, rfl, rfl⟩, rfl, ?_⟩
      simp only [events]
      omega
    · exact ⟨fun _ => rfl, rfl, rfl, ⟨rfl, rfl, rfl⟩, rfl, Nat.le_refl _⟩

theorem carried_eq {flow flow' : Dnp3FlowState} (h : ∀ dir, flow'.carry dir = flow.carry dir) :
    carried flow' = carried flow := by
  have hc2s : flow'.carryC2s = flow.carryC2s := h .clientToServer
  have hs2c : flow'.carryS2c = flow.carryS2c := h .serverToClient
  rw [carried, carried, hc2s, hs2c]

theorem expire_fits {bytes : Nat} {s : Dnp3Analyzer} {flow : Dnp3FlowState}
    (h : Fits bytes s flow) (ts : UInt32) :
    Fits bytes s (maybeExpireCorrelationWindow flow ts) := by
  obtain ⟨n, hfc, hfn, hevents, hle⟩ := h
  obtain ⟨hcarry, -, -, hcounts, -, hless⟩ := expire_spec flow ts
  refine ⟨n, ?_, hfn, Nat.le_trans hless hevents, ?_⟩
  · rw [hcounts.fcCounts]
    exact hfc
  · rw [carried_eq hcarry]
    exact hle

theorem scan_fits {bytes : Nat} {c : Delivery} {s s' : Dnp3Analyzer} {flow flow' : Dnp3FlowState}
    (h : Fits bytes s flow) (hscan : scanBlockTimeouts c s flow = .ok (s', flow')) :
    Fits bytes s' flow' := by
  obtain ⟨n, hfc, hfn, hevents, hle⟩ := h
  have hdet := scanBlockTimeouts_detects hscan
  refine ⟨n, ?_, ?_, Nat.le_trans hdet.events hevents, ?_⟩
  · rw [hdet.counts.fcCounts]
    exact hfc
  · rw [hdet.fnCodeCounts]
    exact hfn
  · rw [hdet.aside.carried]
    exact hle

theorem setCarry_fits {bytes : Nat} {s : Dnp3Analyzer} {flow : Dnp3FlowState}
    (h : Fits bytes s flow) (dir : Direction) (data : List UInt8) :
    Fits (bytes + data.length) s (flow.setCarry dir (flow.carry dir ++ data)) := by
  obtain ⟨n, hfc, hfn, hevents, hle⟩ := h
  have hset := carried_setCarry flow dir (flow.carry dir ++ data)
  rw [List.length_append] at hset
  refine ⟨n, ?_, hfn, ?_, by omega⟩
  · cases dir <;> exact hfc
  · cases dir <;> exact hevents

theorem Fits.mono {bytes bytes' : Nat} {s : Dnp3Analyzer} {flow : Dnp3FlowState}
    (h : Fits bytes s flow) (hle : bytes ≤ bytes') : Fits bytes' s flow := by
  obtain ⟨n, hfc, hfn, hevents, hn⟩ := h
  exact ⟨n, hfc, hfn, hevents, Nat.le_trans hn hle⟩

/-- Data that does not fit is the data that does, and bytes dropped. -/
theorem accumulate_fits {bytes : Nat} {c : Delivery} {data : List UInt8} {s s' : Dnp3Analyzer}
    {flow flow' : Dnp3FlowState} (h : Fits bytes s flow)
    (hacc : accumulate c data s flow = .ok (s', flow')) :
    Fits (bytes + data.length) s' flow' := by
  rcases accumulate_cases hacc with ⟨-, hw⟩ | ⟨hover, hle, hw⟩
  · cases hw
    exact setCarry_fits h c.direction data
  · rw [Prod.mk.injEq] at hw
    rw [hw.1, hw.2]
    refine dropMalformed_fits h (Nat.le_trans (resync_spec 0 _).2 ?_)
    rw [List.length_append, List.length_take]
    omega

/-- The whole call, as far as the counters go. -/
theorem onFlowData_fits {bytes : Nat} {s : Dnp3Analyzer} {flow : Dnp3FlowState}
    (h : Fits bytes s flow) (ord : PendingOrder) (c : Delivery) (data : List UInt8)
    (hcarry : (flow.carry c.direction).length ≤ maxDnp3FrameLen) :
    ReturnsIf (bytes + data.length < 2 ^ 64) (onFlowData ord c data s flow)
      (fun w => Fits (bytes + data.length) w.1 w.2) := by
  constructor
  · intro hbytes
    have hexpire := expire_fits h c.ts
    obtain ⟨n, -, -, hevents, hn⟩ := hexpire
    have hlt : events (maybeExpireCorrelationWindow flow c.ts) < 2 ^ 64 := by omega
    obtain ⟨⟨s₁, flow₁⟩, hscan⟩ := scanBlockTimeouts_returns hlt c s
    have hfits₁ := scan_fits (expire_fits h c.ts) hscan
    have hsame : flow₁.carry c.direction = flow.carry c.direction := by
      rw [(scanBlockTimeouts_detects hscan).aside.carry]
      exact (expire_spec flow c.ts).1 c.direction
    obtain ⟨⟨s₂, flow₂⟩, hacc⟩ : ∃ w, accumulate c data s₁ flow₁ = .ok w := by
      unfold accumulate
      simp only [hsame, checkedSub_of_le hcarry, ok_bind]
      split
      · exact ⟨_, rfl⟩
      · exact ⟨_, rfl⟩
    have hfits₂ := accumulate_fits hfits₁ hacc
    unfold onFlowData
    split
    · exact ⟨_, rfl⟩
    · split
      · exact ⟨_, rfl⟩
      · simp only [hscan, hacc, ok_bind]
        exact walk_returns hbytes hfits₂ ord c _ false
  · intro w hw
    rcases onFlowData_cases hw with ⟨-, rfl⟩ | ⟨-, -, rfl⟩ |
      ⟨-, -, s₁, flow₁, s₂, flow₂, hscan, hacc, hloop⟩
    · exact h.mono (Nat.le_add_right _ _)
    · obtain ⟨n, hfc, hfn, hevents, hn⟩ := h.mono (Nat.le_add_right bytes data.length)
      exact ⟨n, hfc, hfn, hevents, hn⟩
    · have hfits₂ := accumulate_fits (scan_fits (expire_fits h c.ts) hscan) hacc
      exact hloop.keeps (I := Fits (bytes + data.length))
        (fun s flow again w hI hturned => hturned.fits hI) hfits₂

/-! ## The shape of a flow -/

/-- What a flow is between two calls. -/
structure Shape (flow : Dnp3FlowState) : Prop where
  carries : ∀ dir, CarryOk (flow.carry dir)
  latched : flow.isNonDnp3 = true → flow.frameCount = 0
  pending : flow.pendingRequests.size ≤ maxPendingRequests
  masters : MastersOk flow.masterAddrsSeen

/-- What a call leaves alone, and that its loop has ended. -/
structure CallOk (ord : PendingOrder) (c : Delivery) (data : List UInt8) (s s' : Dnp3Analyzer)
    (flow flow' : Dnp3FlowState) : Prop where
  other : ∀ dir, dir ≠ c.direction → flow'.carry dir = flow.carry dir
  stays : flow.isNonDnp3 = true → s' = s ∧ flow' = flow
  latches : flow'.isNonDnp3 = true → flow.frameCount = 0 ∧ flow'.frameCount = 0
  ends : flow'.isNonDnp3 = true ∨ ∃ s₁ flow₁ s₂ flow₂,
    scanBlockTimeouts c s (maybeExpireCorrelationWindow flow c.ts) = .ok (s₁, flow₁) ∧
    accumulate c data s₁ flow₁ = .ok (s₂, flow₂) ∧ Loops ord c false s₂ flow₂ (s', flow')

/-- What the loop keeps while the flow is not latched. -/
structure InLoop (c : Delivery) (kept : Direction → List UInt8) (flow : Dnp3FlowState) : Prop where
  other : ∀ dir, dir ≠ c.direction → flow.carry dir = kept dir
  isNonDnp3 : flow.isNonDnp3 = false
  pending : flow.pendingRequests.size ≤ maxPendingRequests
  masters : MastersOk flow.masterAddrsSeen

theorem InLoop.drop {c : Delivery} {kept : Direction → List UInt8} {flow : Dnp3FlowState}
    (h : InLoop c kept flow) (rest : List UInt8) (s : Dnp3Analyzer) :
    InLoop c kept (dropMalformed c rest s flow).2 := by
  have hdrops := dropMalformed_drops c rest s flow
  refine ⟨fun dir hdir => (hdrops.other dir hdir).trans (h.other dir hdir),
    hdrops.isNonDnp3.trans h.isNonDnp3, ?_, ?_⟩
  · rw [hdrops.pending]
    exact h.pending
  · rw [hdrops.counts.masters]
    exact h.masters

theorem InLoop.setCarry {c : Delivery} {kept : Direction → List UInt8} {flow : Dnp3FlowState}
    (h : InLoop c kept flow) (bytes : List UInt8) :
    InLoop c kept (flow.setCarry c.direction bytes) := by
  refine ⟨fun dir hdir => ?_, ?_, ?_, ?_⟩
  · rw [carry_setCarry_of_ne flow bytes hdir]
    exact h.other dir hdir
  · cases c.direction <;> exact h.isNonDnp3
  · cases c.direction <;> exact h.pending
  · cases c.direction <;> exact h.masters

theorem InLoop.turned {ord : PendingOrder} {c : Delivery} {kept : Direction → List UInt8}
    {s : Dnp3Analyzer} {flow : Dnp3FlowState} {again : Bool} {w : Dnp3Analyzer × Dnp3FlowState}
    (h : InLoop c kept flow) (hturned : Turned ord c s flow again w) : InLoop c kept w.2 := by
  cases hturned with
  | stop hok => exact h
  | settle hlen hlong => exact h.drop _ s
  | drop rest hlen hrest => exact h.drop rest s
  | frame n header s' flow' hsync hn hle hparse hframe =>
    have hstep := processFrame_step hframe
    have hframe' : InLoop c kept flow' :=
      ⟨fun dir hdir => (hstep.aside.carry dir).trans (h.other dir hdir),
        hstep.aside.isNonDnp3.trans h.isNonDnp3, hstep.pending h.pending, hstep.masters h.masters⟩
    exact hframe'.setCarry _

theorem onFlowData_callOk {ord : PendingOrder} {c : Delivery} {data : List UInt8}
    {s : Dnp3Analyzer} {flow : Dnp3FlowState} {w : Dnp3Analyzer × Dnp3FlowState}
    (hshape : Shape flow) (h : onFlowData ord c data s flow = .ok w) :
    Shape w.2 ∧ CallOk ord c data s w.1 flow w.2 := by
  rcases onFlowData_cases h with ⟨hlatch, rfl⟩ | ⟨hlatch, hdesync, rfl⟩ |
    ⟨hlatch, -, s₁, flow₁, s₂, flow₂, hscan, hacc, hloop⟩
  · exact ⟨hshape, fun _ _ => rfl, fun _ => ⟨rfl, rfl⟩,
      fun _ => ⟨hshape.latched hlatch, hshape.latched hlatch⟩, .inl hlatch⟩
  · have hzero : flow.frameCount = 0 := by
      simp only [desynced, Bool.and_eq_true, decide_eq_true_eq] at hdesync
      exact hdesync.1.1.1.1
    refine ⟨⟨fun dir => ?_, fun _ => hzero, hshape.pending, hshape.masters⟩,
      fun dir _ => ?_, fun htrue => ?_, fun _ => ⟨hzero, hzero⟩, .inl rfl⟩
    · cases dir
      · exact hshape.carries .clientToServer
      · exact hshape.carries .serverToClient
    · cases dir <;> rfl
    · rw [hlatch] at htrue
      cases htrue
  · obtain ⟨hcarry, hnon, -, hcounts, hpending, -⟩ := expire_spec flow c.ts
    have hdet := scanBlockTimeouts_detects hscan
    have hstart : InLoop c flow.carry flow₁ :=
      ⟨fun dir _ => (hdet.aside.carry dir).trans (hcarry dir),
        hdet.aside.isNonDnp3.trans (hnon.trans hlatch),
        hdet.pending (by rw [hpending]; exact hshape.pending),
        by rw [hdet.counts.masters, hcounts.masters]; exact hshape.masters⟩
    have hin : InLoop c flow.carry flow₂ := by
      rcases accumulate_cases hacc with ⟨-, hw⟩ | ⟨-, -, hw⟩
      · cases hw
        exact hstart.setCarry _
      · rw [Prod.mk.injEq] at hw
        rw [hw.2]
        exact hstart.drop _ s₁
    have hend : InLoop c flow.carry w.2 :=
      hloop.keeps (I := fun _ flow' => InLoop c flow.carry flow')
        (fun _ _ _ _ hI hturned => hI.turned hturned) hin
    have hfalse : ¬ w.2.isNonDnp3 = true := by
      rw [hend.isNonDnp3]
      exact Bool.false_ne_true
    refine ⟨⟨fun dir => ?_, fun htrue => absurd htrue hfalse, hend.pending, hend.masters⟩,
      hend.other, fun htrue => ?_, fun htrue => absurd htrue hfalse,
      .inr ⟨s₁, flow₁, s₂, flow₂, hscan, hacc, hloop⟩⟩
    · by_cases hdir : dir = c.direction
      · rw [hdir]
        exact hloop.carryOk
      · rw [hend.other dir hdir]
        exact hshape.carries dir
    · rw [hlatch] at htrue
      cases htrue

/-! ## Runs -/

structure Call where
  data : List UInt8
  ts : UInt32
  direction : Direction

def onCall (ord : PendingOrder) (flowKey : FlowKey) (s : Dnp3Analyzer) (call : Call) :
    Checked Dnp3Analyzer :=
  onData ord s flowKey call.data call.ts call.direction

def flowOf (s : Dnp3Analyzer) (flowKey : FlowKey) : Dnp3FlowState := (s.flows.get? flowKey).getD {}

def totalBytes (calls : List Call) : Nat := (calls.map fun call => call.data.length).sum

theorem onCall_eq_ok {ord : PendingOrder} {flowKey : FlowKey} {s s' : Dnp3Analyzer} {call : Call}
    (h : onCall ord flowKey s call = .ok s') : ∃ s₁ flow',
      onFlowData ord ⟨flowKey, call.direction, call.ts⟩ call.data s (flowOf s flowKey) =
        .ok (s₁, flow') ∧
      s' = { s₁ with flows := s₁.flows.insert flowKey flow' } ∧ flowOf s' flowKey = flow' := by
  obtain ⟨⟨s₁, flow'⟩, hdata, hout⟩ := bind_eq_ok.mp h
  cases hout
  exact ⟨s₁, flow', hdata, rfl, by simp only [flowOf, SortedMap.get?_insert_self, Option.getD_some]⟩

/-- A property of the flow that every call keeps holds after every run. -/
theorem run_flow {ord : PendingOrder} {flowKey : FlowKey} {I : Dnp3FlowState → Prop}
    (hcall : ∀ s flow (call : Call) w, I flow →
      onFlowData ord ⟨flowKey, call.direction, call.ts⟩ call.data s flow = .ok w → I w.2)
    {s s' : Dnp3Analyzer} {calls : List Call} (hI : I (flowOf s flowKey))
    (hrun : run (onCall ord flowKey) s calls = .ok s') : I (flowOf s' flowKey) := by
  refine run_keeps (I := fun s => I (flowOf s flowKey)) (fun s call s' hI hstep => ?_) hI hrun
  obtain ⟨s₁, flow', hdata, -, hflow⟩ := onCall_eq_ok hstep
  rw [hflow]
  exact hcall s _ call (s₁, flow') hI hdata

theorem shape_new (threshold : UInt32) (flowKey : FlowKey) :
    Shape (flowOf (.new threshold) flowKey) where
  carries := fun dir => by cases dir <;> exact carryOk_nil
  latched := fun h => absurd h Bool.false_ne_true
  pending := Nat.zero_le _
  masters := ⟨Nat.zero_le _, List.nodup_nil⟩

theorem fits_new (threshold : UInt32) (flowKey : FlowKey) :
    Fits 0 (.new threshold) (flowOf (.new threshold) flowKey) :=
  ⟨0, fun _ => Nat.le_refl 0, fun _ => Nat.le_refl 0, Nat.le_refl 0, Nat.le_refl 0⟩

theorem run_fits (ord : PendingOrder) {flowKey : FlowKey} {bytes : Nat} {s : Dnp3Analyzer}
    (calls : List Call) (hshape : Shape (flowOf s flowKey))
    (hfits : Fits bytes s (flowOf s flowKey)) :
    ReturnsIf (bytes + totalBytes calls < 2 ^ 64) (run (onCall ord flowKey) s calls)
      (fun s' => Fits (bytes + totalBytes calls) s' (flowOf s' flowKey)) := by
  induction calls generalizing bytes s with
  | nil => exact ReturnsIf.pure hfits
  | cons call calls ih =>
    have hsum : bytes + totalBytes (call :: calls) =
        bytes + call.data.length + totalBytes calls := by
      simp only [totalBytes, List.map_cons, List.sum_cons]
      omega
    have hcall : ReturnsIf (bytes + call.data.length < 2 ^ 64) (onCall ord flowKey s call)
        (fun s' => Shape (flowOf s' flowKey) ∧
          Fits (bytes + call.data.length) s' (flowOf s' flowKey)) := by
      obtain ⟨hreturns, hkept⟩ := onFlowData_fits hfits ord
        ⟨flowKey, call.direction, call.ts⟩ call.data (Nat.le_of_lt (hshape.carries _).length)
      constructor
      · intro hbytes
        obtain ⟨w, hw⟩ := hreturns hbytes
        exact ⟨_, bind_eq_ok.mpr ⟨w, hw, rfl⟩⟩
      · intro s' hs'
        obtain ⟨s₁, flow', hdata, hs'eq, hflow⟩ := onCall_eq_ok hs'
        obtain ⟨n, hfc, hfn, hevents, hn⟩ := hkept _ hdata
        rw [hflow]
        refine ⟨(onFlowData_callOk hshape hdata).1, n, hfc, ?_, hevents, hn⟩
        rw [hs'eq]
        exact hfn
    rw [hsum, run_cons]
    exact (hcall.imp (by omega)).bind fun s' hs' => ih hs'.1 hs'.2

/-- Every run of calls on one flow comes back as long as fewer than `2^64` bytes are given to it,
every state it reaches is in shape, and every call in such a state ends and leaves the rest
alone. -/
theorem run_carries (ord : PendingOrder) (flowKey : FlowKey) (threshold : UInt32)
    (calls : List Call) :
    (totalBytes calls < 2 ^ 64 → ∃ s, run (onCall ord flowKey) (.new threshold) calls = .ok s) ∧
    (∀ s, run (onCall ord flowKey) (.new threshold) calls = .ok s →
      Shape (flowOf s flowKey) ∧
      (∀ dir, ∃ room, checkedSub maxDnp3FrameLen ((flowOf s flowKey).carry dir).length =
        .ok room) ∧
      ∀ call s', onCall ord flowKey s call = .ok s' → ∃ s₁,
        CallOk ord ⟨flowKey, call.direction, call.ts⟩ call.data s s₁ (flowOf s flowKey)
          (flowOf s' flowKey) ∧
        s' = { s₁ with flows := s₁.flows.insert flowKey (flowOf s' flowKey) }) := by
  constructor
  · intro hbytes
    have hfits := run_fits ord calls (shape_new threshold flowKey) (fits_new threshold flowKey)
    rw [Nat.zero_add] at hfits
    exact hfits.1 hbytes
  · intro s hs
    have hshape : Shape (flowOf s flowKey) :=
      run_flow (fun s flow call w hI hdata => (onFlowData_callOk hI hdata).1)
        (shape_new threshold flowKey) hs
    refine ⟨hshape, fun dir => ⟨_, checkedSub_of_le (Nat.le_of_lt (hshape.carries dir).length)⟩, ?_⟩
    intro call s' hcall
    obtain ⟨s₁, flow', hdata, hs'eq, hflow⟩ := onCall_eq_ok hcall
    rw [hflow]
    exact ⟨s₁, (onFlowData_callOk hshape hdata).2, hs'eq⟩

/-- The order of the keys, as a sample of an order. -/
def keyOrder : PendingOrder := ⟨fun _ l => l, fun _ l => List.Perm.refl l⟩

def outstationKey : FlowKey := .new (.v4 1) 1024 (.v4 2) 20000

theorem run_carries_half_header :
    totalBytes [⟨[0x05, 0x64, 0x05], 0, .clientToServer⟩] < 2 ^ 64 ∧
    ∃ s, run (onCall keyOrder outstationKey) (.new 10)
        [⟨[0x05, 0x64, 0x05], 0, .clientToServer⟩] = .ok s ∧ Shape (flowOf s outstationKey) := by
  obtain ⟨hreturns, hkept⟩ :=
    run_carries keyOrder outstationKey 10 [⟨[0x05, 0x64, 0x05], 0, .clientToServer⟩]
  obtain ⟨s, hs⟩ := hreturns (by decide)
  exact ⟨by decide, s, hs, (hkept s hs).1⟩

end Wirerust.Dnp3
