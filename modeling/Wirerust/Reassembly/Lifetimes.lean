import Wirerust.Reassembly.EngineSpec

/-!
The life of a flow, as the events of its key tell it.

The events of one key are a sequence of lifetimes, each from a creation to a close, and an
open one if the key is in the table (`Splits`), and the events leave no choice as to where one
ends and the next begins (`Splits.unique`). `Told` says so and puts an invariant on the
flow and its open lifetime, and a property on every finished one. `Rules` lists what has to
be shown of both, one rule for each move. `run_told` carries them to every run, and
`finalize_told` to the end of a capture, when every lifetime is finished.
-/

namespace Wirerust.Lifetimes

open Lib Wirerust.Segment Wirerust.Direction Wirerust.Flow Wirerust.Engine Wirerust.Moves
  Wirerust.Retiring Wirerust.EngineSpec

/-! ## The events of one key -/

def eventKey : Event → FlowKey
  | .flowCreated key => key
  | .packet key _ _ _ _ => key
  | .packetDropped key => key
  | .onData key _ _ _ _ => key
  | .onFlowClose key _ => key

def about (k : FlowKey) (events : List Event) : List Event :=
  events.filter fun e => eventKey e = k

/-- What happens to a flow between its creation and its close. -/
inductive Inside (k : FlowKey) : Event → Prop
  | packet (p : FlowPacket) (h : p.key = k) : Inside k p.event
  | data (dir : Direction) (data : List UInt8) (offset : Nat) (timestamp : UInt32) :
      Inside k (.onData k dir data offset timestamp)

structure Lifetime where
  body : List Event
  reason : CloseReason

def Lifetime.events (k : FlowKey) (l : Lifetime) : List Event :=
  .flowCreated k :: (l.body ++ [.onFlowClose k l.reason])

def openEvents (k : FlowKey) : Option (List Event) → List Event
  | none => []
  | some body => .flowCreated k :: body

/-- The lifetimes of `k`, and the body of the open one. -/
structure Splits (k : FlowKey) (events : List Event) (past : List Lifetime)
    (current : Option (List Event)) : Prop where
  eq : about k events = past.flatMap (Lifetime.events k) ++ openEvents k current
  past : ∀ l ∈ past, ∀ e ∈ l.body, Inside k e
  current : ∀ body, current = some body → ∀ e ∈ body, Inside k e

theorem Inside.eventKey {k : FlowKey} {e : Event} (h : Inside k e) : eventKey e = k := by
  cases h with
  | packet p h => exact h
  | data => rfl

theorem about_of_key {k : FlowKey} {events : List Event} (h : ∀ e ∈ events, eventKey e = k) :
    about k events = events :=
  List.filter_eq_self.mpr fun e he => decide_eq_true (h e he)

theorem about_of_inside {k : FlowKey} {events : List Event} (h : ∀ e ∈ events, Inside k e) :
    about k events = events := about_of_key fun e he => (h e he).eventKey

theorem about_other {k : FlowKey} {events : List Event} (h : ∀ e ∈ events, eventKey e ≠ k) :
    about k events = [] :=
  List.filter_eq_nil_iff.mpr fun e he => by simpa using h e he

theorem about_append (k : FlowKey) (events new : List Event) :
    about k (events ++ new) = about k events ++ about k new := List.filter_append ..

namespace Splits

variable {k : FlowKey} {events new : List Event} {past : List Lifetime}

theorem nil (k : FlowKey) : Splits k [] [] none :=
  ⟨rfl, by simp, fun _ h => by cases h⟩

theorem other {current : Option (List Event)} (h : Splits k events past current)
    (hnew : ∀ e ∈ new, eventKey e ≠ k) : Splits k (events ++ new) past current := by
  refine ⟨?_, h.past, h.current⟩
  rw [about_append, about_other hnew, List.append_nil]
  exact h.eq

theorem create (h : Splits k events past none) :
    Splits k (events ++ [.flowCreated k]) past (some []) := by
  refine ⟨?_, h.past, fun body hbody => ?_⟩
  · rw [about_append, h.eq, about_of_key (by simp [eventKey])]
    simp [openEvents]
  · cases hbody
    simp

theorem extend {body : List Event} (h : Splits k events past (some body))
    (hnew : ∀ e ∈ new, Inside k e) : Splits k (events ++ new) past (some (body ++ new)) := by
  refine ⟨?_, h.past, fun body' hbody e he => ?_⟩
  · rw [about_append, h.eq, about_of_inside hnew]
    simp [openEvents]
  · cases hbody
    rcases List.mem_append.mp he with he | he
    · exact h.current body rfl e he
    · exact hnew e he

theorem close {body : List Event} (h : Splits k events past (some body)) (reason : CloseReason) :
    Splits k (events ++ [.onFlowClose k reason]) (past ++ [⟨body, reason⟩]) none := by
  refine ⟨?_, fun l hl => ?_, fun _ hbody => by cases hbody⟩
  · rw [about_append, h.eq, about_of_key (by simp [eventKey])]
    simp [openEvents, Lifetime.events]
  · rcases List.mem_append.mp hl with hl | hl
    · exact h.past l hl
    · rw [List.mem_singleton.mp hl]
      exact h.current body rfl

end Splits

theorem not_inside_close {k : FlowKey} {reason : CloseReason} :
    ¬ Inside k (.onFlowClose k reason) := by
  intro h
  cases h

/-- The first close in a list ends the body before it. -/
theorem body_unique {k : FlowKey} {body body' rest rest' : List Event}
    {reason reason' : CloseReason} (hbody : ∀ e ∈ body, Inside k e)
    (hbody' : ∀ e ∈ body', Inside k e)
    (h : body ++ .onFlowClose k reason :: rest = body' ++ .onFlowClose k reason' :: rest') :
    body = body' ∧ reason = reason' ∧ rest = rest' := by
  induction body generalizing body' with
  | nil =>
    cases body' with
    | nil => simpa using h
    | cons e body' =>
      have he : Event.onFlowClose k reason = e := (List.cons.inj h).1
      exact absurd (he ▸ hbody' e List.mem_cons_self) not_inside_close
  | cons e body ih =>
    cases body' with
    | nil =>
      have he : e = Event.onFlowClose k reason' := (List.cons.inj h).1
      exact absurd (he ▸ hbody e List.mem_cons_self) not_inside_close
    | cons e' body' =>
      obtain ⟨rfl, htail⟩ := List.cons.inj h
      obtain ⟨rfl, hrest⟩ := ih (fun a ha => hbody a (List.mem_cons_of_mem _ ha))
        (fun a ha => hbody' a (List.mem_cons_of_mem _ ha)) htail
      exact ⟨rfl, hrest⟩

theorem openEvents_ne {k : FlowKey} {current : Option (List Event)} {l : Lifetime}
    {rest : List Event} (hcur : ∀ body, current = some body → ∀ e ∈ body, Inside k e) :
    openEvents k current ≠ l.events k ++ rest := by
  intro h
  cases current with
  | none => cases h
  | some body =>
    have hbody : body = l.body ++ .onFlowClose k l.reason :: rest := by
      simpa [openEvents, Lifetime.events] using h
    exact not_inside_close (hcur body rfl (.onFlowClose k l.reason) (by rw [hbody]; simp))

/-- The lifetimes of a key are determined by its events. -/
theorem Splits.unique {k : FlowKey} {events : List Event} {past past' : List Lifetime}
    {current current' : Option (List Event)} (h : Splits k events past current)
    (h' : Splits k events past' current') : past = past' ∧ current = current' := by
  have heq := h.eq.symm.trans h'.eq
  obtain ⟨-, hpast, hcur⟩ := h
  obtain ⟨-, hpast', hcur'⟩ := h'
  induction past generalizing past' with
  | nil =>
    cases past' with
    | nil =>
      cases current <;> cases current' <;> simp_all [openEvents]
    | cons l past' =>
      rw [List.flatMap_cons, List.append_assoc] at heq
      exact absurd heq (openEvents_ne hcur)
  | cons l past ih =>
    cases past' with
    | nil =>
      rw [List.flatMap_cons, List.append_assoc] at heq
      exact absurd heq.symm (openEvents_ne hcur')
    | cons l' past' =>
      obtain ⟨hl, hpast⟩ := List.forall_mem_cons.mp hpast
      obtain ⟨hl', hpast'⟩ := List.forall_mem_cons.mp hpast'
      simp only [List.flatMap_cons, Lifetime.events, List.cons_append, List.append_assoc,
        List.cons.injEq, true_and, List.nil_append] at heq
      obtain ⟨hbody, hreason, hrest⟩ := body_unique hl hl' heq
      obtain ⟨rfl, hcurrent⟩ := ih hrest hpast hpast'
      cases l
      cases l'
      simp only at hbody hreason
      exact ⟨by rw [hbody, hreason], hcurrent⟩

theorem inside_dataEvents (k : FlowKey) (dir : Direction) (timestamp : UInt32)
    (chunks : List (Chunk UInt8)) : ∀ e ∈ dataEvents k dir timestamp chunks, Inside k e :=
  forall_dataEvents .data dir timestamp chunks

theorem inside_drainEvents (k : FlowKey) (f : TcpFlow) (client server : List (Chunk UInt8)) :
    ∀ e ∈ drainEvents k f client server, Inside k e :=
  forall_drainEvents .data f client server

theorem eventKey_closeEvents (k : FlowKey) (f : TcpFlow) (reason : CloseReason)
    (client server : List (Chunk UInt8)) :
    ∀ e ∈ closeEvents k f reason client server, eventKey e = k := by
  intro e he
  rcases List.mem_append.mp he with he | he
  · exact (inside_drainEvents _ _ _ _ e he).eventKey
  · rw [List.mem_singleton.mp he]
    rfl

/-! ## Invariants of lifetimes -/

section Told

variable (k : FlowKey) (Open : TcpFlow → List Event → Prop) (Done : Lifetime → Prop)

/-- What each kind of move has to keep. -/
structure Rules : Prop where
  created : ∀ timestamp index,
    Open { TcpFlow.new k timestamp with lastActivityIndex := index } []
  touched : ∀ f body timestamp index, Open f body →
    Open { f with lastSeen := timestamp, lastActivityIndex := index } body
  packet : ∀ lim f f' p dir chunks timestamp body, p.key = k → f.state ≠ .closed →
    p.tcp.rst = false → Accepts lim f p f' dir chunks → Open f body →
    Open f' (body ++ p.event :: dataEvents k dir timestamp chunks)
  reset : ∀ f p client server body, p.key = k → f.state ≠ .closed → p.tcp.rst = true →
    Drains (resetFlow f p) client server → Open f body →
    Done ⟨body ++ p.event :: drainEvents k (resetFlow f p) client server, .rst⟩
  retired : ∀ f reason client server body, (reason = .fin → f.state = .closed) →
    Drains f client server → Open f body → Done ⟨body ++ drainEvents k f client server, reason⟩

/-- The same rules, where the limits of the engine are known. -/
structure RulesUnder (lim : Limits) : Prop where
  created : ∀ timestamp index,
    Open { TcpFlow.new k timestamp with lastActivityIndex := index } []
  touched : ∀ f body timestamp index, Open f body →
    Open { f with lastSeen := timestamp, lastActivityIndex := index } body
  packet : ∀ f f' p dir chunks timestamp body, p.key = k → f.state ≠ .closed →
    p.tcp.rst = false → Accepts lim f p f' dir chunks → Open f body →
    Open f' (body ++ p.event :: dataEvents k dir timestamp chunks)
  reset : ∀ f p client server body, p.key = k → f.state ≠ .closed → p.tcp.rst = true →
    Drains (resetFlow f p) client server → Open f body →
    Done ⟨body ++ p.event :: drainEvents k (resetFlow f p) client server, .rst⟩
  retired : ∀ f reason client server body, (reason = .fin → f.state = .closed) →
    Drains f client server → Open f body → Done ⟨body ++ drainEvents k f client server, reason⟩

def Told (v : View) : Prop :=
  ∃ past current, Splits k v.events past current ∧ (∀ l ∈ past, Done l) ∧
    Option.Rel Open (v.flows.get? k) current

variable {k Open Done}

theorem Rules.under (h : Rules k Open Done) (lim : Limits) : RulesUnder k Open Done lim :=
  ⟨h.created, h.touched, h.packet lim, h.reset, h.retired⟩

theorem told_init (config : ReassemblyConfig) : Told k Open Done (View.init config) :=
  ⟨[], none, Splits.nil k, by simp, .none⟩

/-- A move of another flow. -/
theorem Told.other {v v' : View} (h : Told k Open Done v) (new : List Event)
    (hflows : v'.flows.get? k = v.flows.get? k) (hevents : v'.events = v.events ++ new)
    (hnew : ∀ e ∈ new, eventKey e ≠ k) : Told k Open Done v' := by
  obtain ⟨past, current, hsplit, hdone, hrel⟩ := h
  refine ⟨past, current, ?_, hdone, ?_⟩
  · rw [hevents]
    exact hsplit.other hnew
  · rw [hflows]
    exact hrel

theorem Told.absent {v : View} (h : Told k Open Done v) (hnone : v.flows.get? k = none) :
    ∃ past, Splits k v.events past none ∧ ∀ l ∈ past, Done l := by
  obtain ⟨past, current, hsplit, hdone, hrel⟩ := h
  rw [hnone] at hrel
  cases hrel
  exact ⟨past, hsplit, hdone⟩

theorem Told.present {v : View} (h : Told k Open Done v) {f : TcpFlow}
    (hf : v.flows.get? k = some f) :
    ∃ past body, Splits k v.events past (some body) ∧ (∀ l ∈ past, Done l) ∧ Open f body := by
  obtain ⟨past, current, hsplit, hdone, hrel⟩ := h
  rw [hf] at hrel
  cases hrel with
  | some hopen => exact ⟨past, _, hsplit, hdone, hopen⟩

theorem Told.extended {v v' : View} {past : List Lifetime} {body : List Event} (new : List Event)
    {f : TcpFlow} (hsplit : Splits k v.events past (some body)) (hdone : ∀ l ∈ past, Done l)
    (hflows : v'.flows = v.flows.insert k f) (hevents : v'.events = v.events ++ new)
    (hnew : ∀ e ∈ new, Inside k e) (hopen : Open f (body ++ new)) : Told k Open Done v' := by
  refine ⟨past, some (body ++ new), ?_, hdone, ?_⟩
  · rw [hevents]
    exact hsplit.extend hnew
  · rw [hflows, SortedMap.get?_insert_self]
    exact .some hopen

theorem Told.closed {v v' : View} {past : List Lifetime} {body new : List Event}
    {reason : CloseReason} (hsplit : Splits k v.events past (some body))
    (hdone : ∀ l ∈ past, Done l) (hflows : v'.flows = v.flows.erase k)
    (hevents : v'.events = v.events ++ (new ++ [.onFlowClose k reason]))
    (hnew : ∀ e ∈ new, Inside k e) (hlast : Done ⟨body ++ new, reason⟩) : Told k Open Done v' := by
  refine ⟨past ++ [⟨body ++ new, reason⟩], none, ?_, fun l hl => ?_, ?_⟩
  · rw [hevents, ← List.append_assoc]
    exact (hsplit.extend hnew).close reason
  · rcases List.mem_append.mp hl with hl | hl
    · exact hdone l hl
    · rw [List.mem_singleton.mp hl]
      exact hlast
  · rw [hflows, SortedMap.get?_erase_self]
    exact .none

variable {lim : Limits} (hrules : RulesUnder k Open Done lim)

include hrules

theorem Told.retire {counted : Bool} {v v' : View} {key : FlowKey} (h : Told k Open Done v)
    (hret : Retire counted v key v') : Told k Open Done v' := by
  obtain ⟨f, reason, client, server, hret⟩ := hret.result
  by_cases hk : key = k
  · subst hk
    obtain ⟨past, body, hsplit, hdone, hopen⟩ := h.present hret.flow
    exact Told.closed hsplit hdone hret.flows hret.events (inside_drainEvents _ _ _ _)
      (hrules.retired f reason client server body hret.fin hret.drains hopen)
  · refine h.other _ ?_ hret.events fun e he => ?_
    · rw [hret.flows, SortedMap.get?_erase_of_ne _ (Ne.symm hk)]
    · rw [eventKey_closeEvents _ _ _ _ _ e he]
      exact hk

theorem Told.retires {counted : Bool} {v v' : View} (h : Told k Open Done v)
    (hret : Retires counted v v') : Told k Open Done v' := by
  induction hret with
  | refl => exact h
  | tail _ hstep ih =>
    obtain ⟨key, hret⟩ := hstep
    exact Told.retire hrules ih hret

theorem Told.move {v v' : View} (h : Told k Open Done v) (hlim : v.config.limits = lim)
    (hm : Move v v') : Told k Open Done v' := by
  cases hm with
  | create key timestamp index hnone hroom =>
    by_cases hk : key = k
    · subst hk
      obtain ⟨past, hsplit, hdone⟩ := h.absent hnone
      refine ⟨past, some [], hsplit.create, hdone, ?_⟩
      rw [SortedMap.get?_insert_self]
      exact .some (hrules.created timestamp index)
    · refine h.other _ ?_ rfl (by simpa [eventKey] using hk)
      rw [SortedMap.get?_insert_of_ne _ _ (Ne.symm hk)]
  | touch key f timestamp index hf =>
    by_cases hk : key = k
    · subst hk
      obtain ⟨past, body, hsplit, hdone, hopen⟩ := h.present hf
      refine Told.extended [] hsplit hdone rfl (by simp) (by simp) ?_
      rw [List.append_nil]
      exact hrules.touched f body timestamp index hopen
    · refine h.other [] ?_ (by simp) (by simp)
      rw [SortedMap.get?_insert_of_ne _ _ (Ne.symm hk)]
  | packet f f' p dir chunks timestamp hf hstate hrst hacc =>
    by_cases hk : p.key = k
    · rw [hk] at hf
      obtain ⟨past, body, hsplit, hdone, hopen⟩ := h.present hf
      refine Told.extended _ (f := f') hsplit hdone (by simp only [hk]) rfl ?_ ?_
      · rw [hk]
        exact List.forall_mem_cons.mpr ⟨.packet p hk, inside_dataEvents _ _ _ _⟩
      · rw [hk]
        exact hrules.packet f f' p dir chunks timestamp body hk hstate hrst (hlim ▸ hacc) hopen
    · refine h.other _ ?_ rfl fun e he => ?_
      · rw [SortedMap.get?_insert_of_ne _ _ (Ne.symm hk)]
      · rcases List.mem_cons.mp he with rfl | he
        · exact hk
        · rw [(inside_dataEvents _ _ _ _ e he).eventKey]
          exact hk
  | reset f p client server hf hstate hrst hdrain =>
    by_cases hk : p.key = k
    · rw [hk] at hf
      obtain ⟨past, body, hsplit, hdone, hopen⟩ := h.present hf
      refine Told.closed hsplit hdone ?_ ?_ ?_
        (hrules.reset f p client server body hk hstate hrst hdrain hopen)
      · simp [Moves.closed, hk]
      · simp [Moves.closed, closeEvents, hk]
      · exact List.forall_mem_cons.mpr ⟨.packet p hk, inside_drainEvents _ _ _ _⟩
    · refine h.other (p.event :: closeEvents p.key (resetFlow f p) .rst client server) ?_ ?_
        (List.forall_mem_cons.mpr ⟨hk, fun e he => ?_⟩)
      · simp [Moves.closed, SortedMap.get?_erase_of_ne _ (Ne.symm hk)]
      · simp [Moves.closed]
      · rw [eventKey_closeEvents _ _ _ _ _ e he]
        exact hk
  | retire _ key hret => exact Told.retire hrules h hret

end Told

section Runs

variable {Open : FlowKey → TcpFlow → List Event → Prop} {Done : FlowKey → Lifetime → Prop}

theorem run_told_under (ord : IterOrder) {config : ReassemblyConfig}
    (hrules : ∀ k, RulesUnder k (Open k) (Done k) config.limits) {s₀ : TcpReassembler}
    (hnew : TcpReassembler.new config = .ok s₀) (calls : List Call) :
    ReturnsIf (Lasting config calls) (run (step ord) s₀ calls) (fun s => Ready (view s) ∧
      s.finalized = false ∧ ∀ k, Told k (Open k) (Done k) (view s)) := by
  refine (run_moves ord hnew (I := fun v => v.config = config ∧ v.finalized = false ∧
    ∀ k, Told k (Open k) (Done k) v) ⟨rfl, rfl, fun k => told_init config⟩ ?_ calls).mono
    fun s hs => ⟨hs.2.1, hs.2.2.2⟩
  intro v v' _ hv hm
  exact ⟨hm.config.trans hv.1, hm.finalized.trans hv.2.1, fun k =>
    (hv.2.2 k).move (hrules k) (congrArg ReassemblyConfig.limits hv.1) hm⟩

theorem finalize_told_under (ord : IterOrder) {lim : Limits}
    (hrules : ∀ k, RulesUnder k (Open k) (Done k) lim) {s : TcpReassembler}
    (hwf : EngineWf (view s)) (hfin : s.finalized = false)
    (htold : ∀ k, Told k (Open k) (Done k) (view s)) :
    Returns (finalize ord s) (fun s' => s'.flows.entries = [] ∧ s'.totalMemory = 0 ∧
      ∀ k, ∃ past, Splits k s'.events past none ∧ ∀ l ∈ past, Done k l) := by
  refine (finalize_closes ord hwf hfin).mono fun s' hs' => ⟨hs'.2.1, hs'.2.2, fun k => ?_⟩
  have hmarked : Told k (Open k) (Done k) { view s with finalized := true } := htold k
  have htold' : Told k (Open k) (Done k) (view s') := Told.retires (hrules k) hmarked hs'.1
  refine htold'.absent ?_
  simp [view, SortedMap.get?, hs'.2.1]

variable (hrules : ∀ k, Rules k (Open k) (Done k))

include hrules

theorem run_told (ord : IterOrder) {config : ReassemblyConfig} {s₀ : TcpReassembler}
    (hnew : TcpReassembler.new config = .ok s₀) (calls : List Call) :
    ReturnsIf (Lasting config calls) (run (step ord) s₀ calls) (fun s => Ready (view s) ∧
      s.finalized = false ∧ ∀ k, Told k (Open k) (Done k) (view s)) :=
  run_told_under ord (fun k => (hrules k).under config.limits) hnew calls

theorem finalize_told (ord : IterOrder) {s : TcpReassembler} (hwf : EngineWf (view s))
    (hfin : s.finalized = false) (htold : ∀ k, Told k (Open k) (Done k) (view s)) :
    Returns (finalize ord s) (fun s' => s'.flows.entries = [] ∧ s'.totalMemory = 0 ∧
      ∀ k, ∃ past, Splits k s'.events past none ∧ ∀ l ∈ past, Done k l) :=
  finalize_told_under ord (fun k => (hrules k).under s.config.limits) hwf hfin htold

end Runs

end Wirerust.Lifetimes
