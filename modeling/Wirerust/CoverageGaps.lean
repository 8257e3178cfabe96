import Wirerust.Reassembly.Delivered
import Wirerust.Reassembly.Isolation
import Wirerust.DispatcherRouting
import Wirerust.Protocols

/-!
The ports that a whole capture leaves as coverage gaps.

The dispatcher is the handler of the reassembly engine, and `handle` is what an event of the engine
means for it. A flow is routed when its first data is delivered, but it is counted when it is
closed. `gaps_iff` says what follows: a port that is dissected is counted if, and only if, a flow of
that port is closed before any of its data has been delivered. `gaps_iff_delivered` reads the same
off the flow table: no flow of such a port leaves it before one of its directions has counted
bytes.
-/

namespace Wirerust.CoverageGaps

open Lib Wirerust.Flow Wirerust.Engine Wirerust.Moves Wirerust.Retiring Wirerust.EngineSpec
  Wirerust.Alone Wirerust.Dispatcher Wirerust.Protocols Wirerust.Lifetimes Wirerust.Handler
  Wirerust.Delivered

variable {a : Analyzers}

/-! ## The dispatcher behind the engine -/

/-- The calls of the engine to its handler. -/
def handle (d : StreamDispatcher a) : Event → Checked (StreamDispatcher a)
  | .onData key direction data offset timestamp =>
    onData d ⟨key, direction, data, offset, timestamp⟩
  | .onFlowClose key reason => .ok (onFlowClose d key reason)
  | _ => .ok d

/-- The port at which a flow is counted. -/
def servicePort (key : FlowKey) : UInt16 := min key.lowerPort key.upperPort

/-- One more event of a flow: its data is heard, and a close is a new start. -/
def hear (key : FlowKey) (heard : Bool) : Event → Bool
  | .onData k _ _ _ _ => heard || k == key
  | .onFlowClose k _ => heard && !(k == key)
  | _ => heard

/-- Data of the flow has been delivered since it was last closed. -/
def heard (key : FlowKey) (events : List Event) : Bool := events.foldl (hear key) false

theorem heard_snoc (key : FlowKey) (events : List Event) (e : Event) :
    heard key (events ++ [e]) = hear key (heard key events) e := by
  rw [heard, List.foldl_append]
  rfl

/-- A flow of the port was closed unheard. -/
def ClosedUnheard (port : UInt16) (events : List Event) : Prop :=
  ∃ pre key reason, (pre ++ [.onFlowClose key reason]) <+: events ∧ servicePort key = port ∧
    heard key pre = false

theorem closedUnheard_snoc (port : UInt16) (events : List Event) (e : Event) :
    ClosedUnheard port (events ++ [e]) ↔ ClosedUnheard port events ∨
      ∃ key reason, e = .onFlowClose key reason ∧ servicePort key = port ∧
        heard key events = false := by
  constructor
  · rintro ⟨pre, key, reason, hpre, hport, hheard⟩
    rcases List.prefix_concat_iff.mp hpre with heq | hpre
    · obtain ⟨rfl, rfl⟩ := List.append_singleton_inj.mp heq
      exact .inr ⟨key, reason, rfl, hport, hheard⟩
    · exact .inl ⟨pre, key, reason, hpre, hport, hheard⟩
  · rintro (⟨pre, key, reason, hpre, hport, hheard⟩ | ⟨key, reason, rfl, hport, hheard⟩)
    · exact ⟨pre, key, reason, hpre.trans (List.prefix_append _ _), hport, hheard⟩
    · exact ⟨events, key, reason, List.prefix_refl _, hport, hheard⟩

/-! ## One event -/

/-- The flow has a port that `classify` knows. -/
def Dissected (key : FlowKey) : Prop :=
  key.lowerPort ∈ dissectedPorts ∨ key.upperPort ∈ dissectedPorts

theorem dissected_of_servicePort {key : FlowKey} (h : servicePort key ∈ dissectedPorts) :
    Dissected key := by
  unfold servicePort at h
  rcases Std.min_eq_or (a := key.lowerPort) (b := key.upperPort) with heq | heq
  · rw [heq] at h
    exact .inl h
  · rw [heq] at h
    exact .inr h

theorem classify_dissected {key : FlowKey} (h : Dissected key) (data : List UInt8) :
    classify data key ≠ .none := by
  intro hnone
  simp only [Dissected, dissectedPorts, List.mem_cons, List.not_mem_nil, or_false] at h
  simp only [classify, List.mem_cons, List.not_mem_nil, or_false] at hnone
  grind

theorem anyConfigured_congr {d d' : StreamDispatcher a}
    (h : ∀ target, d'.configured target = d.configured target) :
    d'.anyConfigured = d.anyConfigured := by
  have hhttp : d'.http.isSome = d.http.isSome := h .http
  have htls : d'.tls.isSome = d.tls.isSome := h .tls
  have hmodbus : d'.modbus.isSome = d.modbus.isSome := h .modbus
  have hdnp3 : d'.dnp3.isSome = d.dnp3.isSome := h .dnp3
  have henip : d'.enip.isSome = d.enip.isSome := h .enip
  have hiec104 : d'.iec104.isSome = d.iec104.isSome := h .iec104
  simp only [StreamDispatcher.anyConfigured, hhttp, htls, hmodbus, hdnp3, henip, hiec104]

theorem onData_ports {d d' : StreamDispatcher a} {c : Dispatcher.Chunk} (h : onData d c = .ok d') :
    d'.unclassifiedPortCounts = d.unclassifiedPortCounts := by
  rcases onData_cases h with ⟨-, rfl⟩ | ⟨hkept, -⟩
  · rfl
  · rw [hkept.ports]
    rcases route_cases d c with ⟨target, -, hroute⟩ | ⟨-, target, hroute⟩ | ⟨-, count, -, hroute⟩
    all_goals
      rw [hroute, Dispatcher.record]
      split <;> rfl

/-- The first data of a flow with a dissected port routes it. -/
theorem onData_routes {d d' : StreamDispatcher a} {c : Dispatcher.Chunk}
    (hany : d.anyConfigured = true) (hkey : Dissected c.flowKey) (h : onData d c = .ok d') :
    ∃ target, d'.routes.get? c.flowKey = some target ∧
      (d.routes.get? c.flowKey = none → target ≠ .none) ∧
      (∀ t, d.routes.get? c.flowKey = some t → target = t) := by
  rcases onData_cases h with ⟨hnone, -⟩ | ⟨hkept, -⟩
  · rw [hany] at hnone
    cases hnone
  · rw [hkept.routes, record_routes]
    unfold route
    cases hroute : d.routes.get? c.flowKey with
    | some t =>
      refine ⟨t, hroute, fun hnone => (by cases hnone), fun t' ht' => ?_⟩
      cases ht'
      rfl
    | none =>
      have hclass := classify_dissected hkey c.data
      simp only [if_neg hclass]
      exact ⟨_, SortedMap.get?_insert_self _ _ _, fun _ => hclass, fun t ht => (by cases ht)⟩

/-- The count of a TCP port. -/
def gapCount (d : StreamDispatcher a) (port : UInt16) : Option Nat :=
  d.unclassifiedPortCounts.get? (toLex (.tcp, port))

/-- A close counts at most the port of its flow. -/
theorem gapCount_other (d : StreamDispatcher a) (key : FlowKey) (reason : CloseReason)
    {port : UInt16} (hport : port ≠ servicePort key) :
    gapCount (onFlowClose d key reason) port = gapCount d port := by
  have hkey : (toLex (TransportProto.tcp, port) : TransportProto ×ₗ UInt16) ≠
      toLex (.tcp, servicePort key) := by
    simpa using hport
  unfold gapCount
  rcases onFlowClose_cases d key reason with ⟨-, heq⟩ | ⟨target, -, heq⟩
  · rw [heq, countUnclassified]
    split
    · dsimp only
      split
      · exact SortedMap.get?_insert_of_ne _ _ hkey
      · rfl
    · rfl
  · rw [heq, (retireFlow_spec (forget d key) target key).kept.ports]
    rfl

theorem gapCount_unrouted {d : StreamDispatcher a} (hany : d.anyConfigured = true)
    (hgaps : d.coverageGapsEnabled = true) {key : FlowKey} (hnone : d.routes.get? key = none)
    (reason : CloseReason) :
    (gapCount (onFlowClose d key reason) (servicePort key)).isSome = true := by
  have hany' : (forget d key).anyConfigured = true := hany
  have hgaps' : (forget d key).coverageGapsEnabled = true := hgaps
  have hclose : onFlowClose d key reason = countUnclassified (forget d key) key := by
    unfold onFlowClose
    rw [hnone]
    rfl
  rw [gapCount, hclose, countUnclassified, if_pos hany']
  simp only [hgaps', if_true]
  rw [servicePort, SortedMap.get?_insert_self]
  rfl

theorem gapCount_routed {d : StreamDispatcher a} {key : FlowKey} {target : DispatchTarget}
    (hroute : d.routes.get? key = some target) (hne : target ≠ .none) (reason : CloseReason)
    (port : UInt16) : gapCount (onFlowClose d key reason) port = gapCount d port := by
  have hclose : onFlowClose d key reason = retireFlow (forget d key) target key := by
    unfold onFlowClose
    rw [hroute]
    cases target with
    | none => exact absurd rfl hne
    | _ => rfl
  rw [gapCount, hclose, (retireFlow_spec (forget d key) target key).kept.ports]
  rfl

/-! ## Every run of events -/

/-- What the events tell of the dispatcher: a flow with a dissected port is routed once it has
been heard, and a dissected port is counted once a flow of it was closed unheard. -/
structure Follows (events : List Event) (d : StreamDispatcher a) : Prop where
  any : d.anyConfigured = true
  gaps : d.coverageGapsEnabled = true
  routed : ∀ key, Dissected key → heard key events = true →
    ∃ target, d.routes.get? key = some target ∧ target ≠ .none
  unrouted : ∀ key, heard key events = false → d.routes.get? key = none
  counted : ∀ port ∈ dissectedPorts,
    (gapCount d port).isSome = true ↔ ClosedUnheard port events

theorem Follows.onData {events : List Event} {d d' : StreamDispatcher a} (hf : Follows events d)
    {key : FlowKey} {direction : Direction} {data : List UInt8} {offset : Nat}
    {timestamp : UInt32} (h : onData d ⟨key, direction, data, offset, timestamp⟩ = .ok d') :
    Follows (events ++ [.onData key direction data offset timestamp]) d' := by
  obtain ⟨hconf, hother, -⟩ := onData_calls h
  refine ⟨(anyConfigured_congr hconf).trans hf.any, ?_, fun k hk hheard => ?_, fun k hheard => ?_,
    fun port hport => ?_⟩
  · exact (onInput_config (i := .data _) h).2.trans hf.gaps
  · by_cases hkey : k = key
    · subst hkey
      obtain ⟨target, hroute, hnew, hold⟩ := onData_routes hf.any hk h
      refine ⟨target, hroute, ?_⟩
      cases hbefore : heard k events with
      | false => exact hnew (hf.unrouted k hbefore)
      | true =>
        obtain ⟨t, ht, hne⟩ := hf.routed k hk hbefore
        rw [hold t ht]
        exact hne
    · rw [heard_snoc, hear, beq_eq_false_iff_ne.mpr (Ne.symm hkey), Bool.or_false] at hheard
      rw [hother k hkey]
      exact hf.routed k hk hheard
  · rw [heard_snoc, hear, Bool.or_eq_false_iff] at hheard
    rw [hother k (Ne.symm (beq_eq_false_iff_ne.mp hheard.2))]
    exact hf.unrouted k hheard.1
  · rw [gapCount, onData_ports h, ← gapCount, hf.counted port hport, closedUnheard_snoc]
    simp

theorem Follows.onFlowClose {events : List Event} {d : StreamDispatcher a}
    (hf : Follows events d) (key : FlowKey) (reason : CloseReason) :
    Follows (events ++ [.onFlowClose key reason]) (onFlowClose d key reason) := by
  have hclosed := onFlowClose_closed d key reason
  refine ⟨(anyConfigured_congr hclosed.configured).trans hf.any, hclosed.gaps.trans hf.gaps,
    fun k hk hheard => ?_, fun k hheard => ?_, fun port hport => ?_⟩
  · rw [heard_snoc, hear, Bool.and_eq_true, Bool.not_eq_true', beq_eq_false_iff_ne] at hheard
    rw [hclosed.routes, SortedMap.get?_erase_of_ne _ (Ne.symm hheard.2)]
    exact hf.routed k hk hheard.1
  · rw [hclosed.routes]
    by_cases hkey : k = key
    · rw [hkey]
      exact SortedMap.get?_erase_self _ _
    · rw [heard_snoc, hear, beq_eq_false_iff_ne.mpr (Ne.symm hkey), Bool.not_false,
        Bool.and_true] at hheard
      rw [SortedMap.get?_erase_of_ne _ hkey]
      exact hf.unrouted k hheard
  · rw [closedUnheard_snoc, ← hf.counted port hport]
    by_cases hsame : servicePort key = port
    · subst hsame
      cases hheard : heard key events with
      | false =>
        have hcount := gapCount_unrouted hf.any hf.gaps (hf.unrouted key hheard) reason
        exact ⟨fun _ => .inr ⟨key, reason, rfl, rfl, hheard⟩, fun _ => hcount⟩
      | true =>
        obtain ⟨target, hroute, hne⟩ := hf.routed key (dissected_of_servicePort hport) hheard
        rw [gapCount_routed hroute hne]
        refine ⟨.inl, ?_⟩
        rintro (h | ⟨key', reason', heq, -, hunheard⟩)
        · exact h
        · cases heq
          rw [hheard] at hunheard
          cases hunheard
    · rw [gapCount_other d key reason (Ne.symm hsame)]
      refine ⟨.inl, ?_⟩
      rintro (h | ⟨key', reason', heq, hport', -⟩)
      · exact h
      · cases heq
        exact absurd hport' hsame

theorem Follows.handle {events : List Event} {d d' : StreamDispatcher a} (hf : Follows events d)
    {e : Event} (h : handle d e = .ok d') : Follows (events ++ [e]) d' := by
  cases e with
  | onData key direction data offset timestamp => exact hf.onData h
  | onFlowClose key reason =>
    cases h
    exact hf.onFlowClose key reason
  | _ =>
    cases h
    refine ⟨hf.any, hf.gaps, fun k hk hheard => ?_, fun k hheard => ?_, fun port hport => ?_⟩
    · rw [heard_snoc] at hheard
      exact hf.routed k hk hheard
    · rw [heard_snoc] at hheard
      exact hf.unrouted k hheard
    · rw [hf.counted port hport, closedUnheard_snoc]
      simp

theorem run_follows (events : List Event) {d d' : StreamDispatcher a} (hf : Follows [] d)
    (hrun : run CoverageGaps.handle d events = .ok d') : Follows events d' := by
  induction events using List.reverseRecOn generalizing d' with
  | nil =>
    cases hrun
    exact hf
  | append_singleton events e ih =>
    rw [run_snoc, bind_eq_ok] at hrun
    obtain ⟨d₁, hd₁, hlast⟩ := hrun
    exact (ih hd₁).handle hlast

/-! ## What the flow table tells -/

theorem hear_other {k : FlowKey} {e : Event} (h : eventKey e ≠ k) (b : Bool) :
    hear k b e = b := by
  cases e with
  | onData key direction data offset timestamp =>
    rw [hear, show (key == k) = false from beq_eq_false_iff_ne.mpr h, Bool.or_false]
  | onFlowClose key reason =>
    rw [hear, show (key == k) = false from beq_eq_false_iff_ne.mpr h, Bool.not_false,
      Bool.and_true]
  | _ => rfl

/-- Only the events of its own key are heard of a flow. -/
theorem heard_about (k : FlowKey) (events : List Event) :
    heard k (about k events) = heard k events := by
  induction events using List.reverseRecOn with
  | nil => rfl
  | append_singleton events e ih =>
    rw [about_append, heard_snoc]
    by_cases he : eventKey e = k
    · have hlast : about k [e] = [e] := about_of_key (List.forall_mem_singleton.mpr he)
      rw [hlast, heard_snoc, ih]
    · have hlast : about k [e] = [] := about_other (List.forall_mem_singleton.mpr he)
      rw [hlast, List.append_nil, ih, hear_other he]

theorem foldl_hear_body {k : FlowKey} {body : List Event} (h : ∀ e ∈ body, Inside k e)
    (b : Bool) : body.foldl (hear k) b = (b || !(deliveries body).isEmpty) := by
  induction body generalizing b with
  | nil => simp [deliveries]
  | cons e body ih =>
    obtain ⟨he, hbody⟩ := List.forall_mem_cons.mp h
    rw [List.foldl_cons, ih hbody]
    cases he with
    | packet p hp => rfl
    | data dir data offset timestamp =>
      rw [hear, beq_self_eq_true, Bool.or_true, Bool.true_or]
      simp [deliveries, delivery?]

theorem foldl_hear_past {k : FlowKey} {past : List Lifetime} :
    (past.flatMap (Lifetime.events k)).foldl (hear k) false = false := by
  induction past with
  | nil => rfl
  | cons l past ih =>
    have hlast : (l.events k).foldl (hear k) false = false := by
      rw [Lifetime.events, ← List.cons_append, List.foldl_append]
      simp [hear]
    rw [List.flatMap_cons, List.foldl_append, hlast]
    exact ih

/-- An open flow has been heard if it has delivered bytes. -/
theorem heard_iff {v : View} (hv : AllOpened v) {k : FlowKey} {f : TcpFlow}
    (hf : v.flows.get? k = some f) : heard k v.events = true ↔ HasDelivered f := by
  obtain ⟨past, body, hsplit, -, hopen⟩ := (hv.told k).present hf
  have hbody : heard k v.events = !(deliveries body).isEmpty := by
    rw [← heard_about, hsplit.eq, heard, List.foldl_append, foldl_hear_past, openEvents,
      List.foldl_cons, foldl_hear_body (hsplit.current body rfl)]
    rfl
  rw [hbody, Streams.delivered_iff hopen]
  simp

/-- A flow that would be counted at a dissected port is closed only after some of its data has
been delivered. -/
def HeardFirst (events : List Event) : Prop :=
  ∀ pre key reason, (pre ++ [.onFlowClose key reason]) <+: events →
    servicePort key ∈ dissectedPorts → heard key pre = true

theorem heardFirst_snoc (events : List Event) (e : Event) :
    HeardFirst (events ++ [e]) ↔ HeardFirst events ∧ ∀ key reason, e = .onFlowClose key reason →
      servicePort key ∈ dissectedPorts → heard key events = true := by
  constructor
  · intro h
    refine ⟨fun pre key reason hpre => h pre key reason (hpre.trans (List.prefix_append _ _)), ?_⟩
    rintro key reason rfl
    exact h events key reason (List.prefix_refl _)
  · rintro ⟨hevents, hlast⟩ pre key reason hpre
    rcases List.prefix_concat_iff.mp hpre with heq | hpre
    · obtain ⟨rfl, rfl⟩ := List.append_singleton_inj.mp heq
      exact hlast key reason rfl
    · exact hevents pre key reason hpre

theorem heardFirst_quiet (events : List Event) {new : List Event}
    (h : ∀ e ∈ new, ∀ key reason, e ≠ .onFlowClose key reason) :
    HeardFirst (events ++ new) ↔ HeardFirst events := by
  induction new using List.reverseRecOn with
  | nil => rw [List.append_nil]
  | append_singleton new e ih =>
    obtain ⟨hnew, he⟩ := List.forall_mem_append.mp h
    rw [← List.append_assoc, heardFirst_snoc, ih hnew, and_iff_left]
    exact fun key reason heq => absurd heq (he e List.mem_cons_self key reason)

theorem data_not_close {key : FlowKey} (dir : Direction) (timestamp : UInt32)
    (chunks : List (Chunk UInt8)) :
    ∀ e ∈ dataEvents key dir timestamp chunks, ∀ k reason, e ≠ .onFlowClose k reason :=
  forall_dataEvents (fun _ _ _ _ _ _ h => by cases h) dir timestamp chunks

/-- The flow is in the table before the move, and its key is not in it afterwards. -/
def Leaves (v v' : View) (key : FlowKey) (f : TcpFlow) : Prop :=
  v.flows.get? key = some f ∧ v'.flows.get? key = none

theorem not_leaves_insert {v v' : View} {key k : FlowKey} {f g : TcpFlow}
    (hflows : v'.flows = v.flows.insert key f) : ¬ Leaves v v' k g := by
  rintro ⟨hsome, hnone⟩
  rw [hflows] at hnone
  by_cases hk : k = key
  · rw [hk, SortedMap.get?_insert_self] at hnone
    cases hnone
  · rw [SortedMap.get?_insert_of_ne _ _ hk, hsome] at hnone
    cases hnone

theorem leaves_erase_iff {v v' : View} {key k : FlowKey} {f g : TcpFlow}
    (hf : v.flows.get? key = some f) (hflows : v'.flows = v.flows.erase key) :
    Leaves v v' k g ↔ k = key ∧ g = f := by
  constructor
  · rintro ⟨hsome, hnone⟩
    by_cases hk : k = key
    · rw [hk, hf] at hsome
      exact ⟨hk, (Option.some.inj hsome).symm⟩
    · rw [hflows, SortedMap.get?_erase_of_ne _ hk, hsome] at hnone
      cases hnone
  · rintro ⟨rfl, rfl⟩
    exact ⟨hf, by rw [hflows, SortedMap.get?_erase_self]⟩

/-- What a move adds to the condition: the flow that leaves has delivered bytes. -/
def LeaveHeard (v v' : View) : Prop :=
  ∀ key f, Leaves v v' key f → servicePort key ∈ dissectedPorts → HasDelivered f

theorem heardFirst_close {v v' : View} (hv : AllOpened v) {key : FlowKey} {f : TcpFlow}
    (hf : v.flows.get? key = some f) (hflows : v'.flows = v.flows.erase key) {mid : List Event}
    (hmid : mid = [] ∨ ∃ p : FlowPacket, mid = [p.event]) {r : CloseReason}
    (hevents : v'.events = v.events ++ (mid ++ [.onFlowClose key r])) :
    HeardFirst v'.events ↔ HeardFirst v.events ∧ LeaveHeard v v' := by
  have hquiet : ∀ e ∈ mid, ∀ k reason, e ≠ .onFlowClose k reason := by
    rcases hmid with rfl | ⟨p, rfl⟩
    · exact fun e he => absurd he List.not_mem_nil
    · intro e he k reason heq
      rw [List.mem_singleton.mp he] at heq
      cases heq
  have hheard : heard key (v.events ++ mid) = heard key v.events := by
    rcases hmid with rfl | ⟨p, rfl⟩
    · rw [List.append_nil]
    · exact heard_snoc _ _ _
  rw [hevents, ← List.append_assoc, heardFirst_snoc, heardFirst_quiet _ hquiet]
  refine and_congr_right fun _ => ⟨fun h k g hleaves hport => ?_, fun h k r heq hport => ?_⟩
  · obtain ⟨rfl, rfl⟩ := (leaves_erase_iff hf hflows).mp hleaves
    rw [← heard_iff hv hf, ← hheard]
    exact h k r rfl hport
  · cases heq
    rw [hheard, heard_iff hv hf]
    exact h key f ((leaves_erase_iff hf hflows).mpr ⟨rfl, rfl⟩) hport

theorem Retire.heardFirst {counted : Bool} {v v' : View} {key : FlowKey} (hv : AllOpened v)
    (h : Retire counted v key v') :
    HeardFirst v'.events ↔ HeardFirst v.events ∧ LeaveHeard v v' := by
  obtain ⟨f, reason, client, server, hret⟩ := h.result
  obtain ⟨rfl, rfl⟩ := hv.drains hret.flow hret.drains
  exact heardFirst_close hv hret.flow hret.flows (.inl rfl) hret.events

theorem Move.heardFirst {v v' : View} (hv : AllOpened v) (h : Move v v') :
    HeardFirst v'.events ↔ HeardFirst v.events ∧ LeaveHeard v v' := by
  have hstays : ∀ {key : FlowKey} {f : TcpFlow}, v'.flows = v.flows.insert key f →
      ∀ {new : List Event}, v'.events = v.events ++ new →
      (∀ e ∈ new, ∀ k reason, e ≠ .onFlowClose k reason) →
      (HeardFirst v'.events ↔ HeardFirst v.events ∧ LeaveHeard v v') := by
    intro key f hflows new hevents hquiet
    rw [hevents, heardFirst_quiet _ hquiet, and_iff_left]
    exact fun k g hleaves => absurd hleaves (not_leaves_insert hflows)
  cases h with
  | create key timestamp index hnone hroom => exact hstays rfl rfl (by simp)
  | touch key f timestamp index hf => exact hstays rfl (List.append_nil _).symm (by simp)
  | packet f f' p dir chunks timestamp hf hopen hrst hacc =>
    refine hstays rfl rfl (List.forall_mem_cons.mpr ⟨?_, data_not_close dir timestamp chunks⟩)
    intro k reason heq
    cases heq
  | reset f p client server hf hopen hrst hdrain =>
    obtain ⟨rfl, rfl⟩ := hv.resets hf hdrain
    have hone : [p.event] = [] ∨ ∃ q : FlowPacket, [p.event] = [q.event] := .inr ⟨p, rfl⟩
    refine heardFirst_close hv hf ?_ hone (r := .rst) ?_
    · simp [Moves.closed]
    · simp [Moves.closed, closeEvents, drainEvents, dataEvents]
  | retire _ key hret => exact Retire.heardFirst hv hret

/-- On the way to `v`, no flow of a dissected port leaves the table before it has delivered
bytes. -/
def AllLeaveHeard (config : ReassemblyConfig) (v : View) : Prop :=
  ∀ u u', Path (View.init config) u → Move u u' → Path u' v → LeaveHeard u u'

theorem Move.events_prefix {v v' : View} (h : Move v v') : v.events <+: v'.events := by
  cases h with
  | create => exact List.prefix_append _ _
  | touch => exact List.prefix_refl _
  | packet => exact List.prefix_append _ _
  | reset => simp [Moves.closed]
  | retire _ key hret =>
    obtain ⟨f, reason, client, server, hret⟩ := hret.result
    rw [hret.events]
    exact List.prefix_append _ _

theorem path_events_prefix {v v' : View} (h : Path v v') : v.events <+: v'.events := by
  induction h with
  | refl => exact List.prefix_refl _
  | tail _ hmove ih => exact ih.trans (Move.events_prefix hmove)

theorem heardFirst_path {config : ReassemblyConfig} {v : View}
    (h : Path (View.init config) v) : HeardFirst v.events ↔ AllLeaveHeard config v := by
  constructor
  · intro hheard u u' hu hmove hrest
    have hpre := path_events_prefix hrest
    have hheard' : HeardFirst u'.events :=
      fun pre key reason hclose => hheard pre key reason (hclose.trans hpre)
    exact ((Move.heardFirst (path_opened hu) hmove).mp hheard').2
  · intro hall
    induction h with
    | refl => exact fun pre key reason hpre => by simp [View.init] at hpre
    | tail hpath hmove ih =>
      refine (Move.heardFirst (path_opened hpath) hmove).mpr ⟨ih ?_, ?_⟩
      · exact fun u u' hu hstep hrest => hall u u' hu hstep (hrest.tail hmove)
      · exact hall _ _ hpath hmove .refl

/-- The flows that are left at the end are all closed. -/
theorem Retires.heardFirst {v v' : View} (h : Retires false v v') (hv : AllOpened v)
    (hempty : v'.flows.entries = []) :
    HeardFirst v'.events ↔ HeardFirst v.events ∧ ∀ key f, v.flows.get? key = some f →
      servicePort key ∈ dissectedPorts → HasDelivered f := by
  induction h using Relation.ReflTransGen.head_induction_on with
  | refl =>
    refine (and_iff_left fun key f hf => ?_).symm
    rw [get?_of_entries_nil hempty] at hf
    cases hf
  | head hstep hrest ih =>
    rename_i v v₁
    obtain ⟨key, hret⟩ := hstep
    obtain ⟨f, reason, client, server, hresult⟩ := hret.result
    rw [ih (retires_opened (.single ⟨key, hret⟩) hv), Retire.heardFirst hv hret, and_assoc]
    refine and_congr_right fun _ => ⟨?_, fun h => ⟨fun k g hleaves => ?_, fun k g hg => ?_⟩⟩
    · rintro ⟨hleave, hstay⟩ k g hg
      by_cases hk : k = key
      · subst hk
        exact hleave k g ⟨hg, by rw [hresult.flows, SortedMap.get?_erase_self]⟩
      · exact hstay k g (by rw [hresult.flows, SortedMap.get?_erase_of_ne _ hk]; exact hg)
    · exact h k g hleaves.1
    · rw [hresult.flows] at hg
      exact h k g (get?_of_erase hg).2

/-! ## Captures -/

/-- All six analyzers, with coverage gaps enabled. -/
def allSix (http : a.http.Shared) (tls : a.tls.Shared) (modbus : UInt32 × UInt32) (dnp3 : UInt32)
    (enip : a.enip.Shared) (iec104 : a.iec104.Shared) (maxClassificationAttempts : UInt32) :
    Setup a where
  http := some http
  tls := some tls
  modbus := some modbus
  dnp3 := some dnp3
  enip := some enip
  iec104 := some iec104
  maxClassificationAttempts := maxClassificationAttempts
  coverageGaps := true

theorem follows_start (setup : Setup a) (hany : setup.dispatcher.anyConfigured = true)
    (hgaps : setup.coverageGaps = true) : Follows [] setup.dispatcher := by
  refine ⟨hany, hgaps, fun k hk hheard => (by cases hheard), fun k hheard => rfl,
    fun port hport => ⟨fun h => (by cases h), ?_⟩⟩
  rintro ⟨pre, key, reason, hpre, -, -⟩
  have := List.prefix_nil.mp hpre
  simp at this

/-- No dissected port is a coverage gap, and none of the gaps is looked up as supported. -/
def NoFalseGaps (d : StreamDispatcher a) : Prop :=
  (∀ port ∈ dissectedPorts, gapCount d port = none) ∧
    ∀ port n, gapCount d port = some n → lookupProtocolState .tcp port ≠ .knownSupported

theorem Follows.noFalseGaps_iff {events : List Event} {d : StreamDispatcher a}
    (hf : Follows events d) : NoFalseGaps d ↔ HeardFirst events := by
  constructor
  · intro h pre key reason hpre hport
    cases hheard : heard key pre with
    | true => rfl
    | false =>
      have hcount := (hf.counted _ hport).mpr ⟨pre, key, reason, hpre, rfl, hheard⟩
      rw [h.1 _ hport] at hcount
      cases hcount
  · intro h
    have hnone : ∀ port ∈ dissectedPorts, gapCount d port = none := by
      intro port hport
      rw [← Option.not_isSome_iff_eq_none, hf.counted port hport]
      rintro ⟨pre, key, reason, hpre, rfl, hunheard⟩
      rw [h pre key reason hpre hport] at hunheard
      cases hunheard
    refine ⟨hnone, fun port n hn hsup => ?_⟩
    rw [hnone port ((lookupProtocolState_tcp port).mp hsup)] at hn
    cases hn

/-- The moves of a capture. -/
theorem receive_run_path (ord : IterOrder) {config : ReassemblyConfig} {s₀ : TcpReassembler}
    (hnew : TcpReassembler.new config = .ok s₀) (inputs : List Alone.Input) :
    ReturnsIf (Lasting config (inputs.map arrival)) (run (receive ord) s₀ inputs) (fun s =>
      Path (View.init config) (view s) ∧ Ready (view s) ∧ s.finalized = false) := by
  rw [run_receive]
  refine (run_calls ord hnew (I := fun _ s => Path (View.init config) (view s)) ?_ ?_ _).mono
    fun s hs => ⟨hs.2, hs.1.ready, path_finalized hs.2⟩
  · rw [(new_eq_ok hnew).2]
  · exact fun _ _ s s' hr _ hpath hs' => hpath.trans (step_moves hr hs').1

/-- Over every capture, the ports that are dissected stay out of the coverage gaps if, and only
if, every flow that would be counted at such a port has delivered data before it is closed. -/
theorem gaps_iff (ord : IterOrder) (config : ReassemblyConfig) (s₀ : TcpReassembler)
    (hnew : TcpReassembler.new config = .ok s₀) (inputs : List Alone.Input) (http : a.http.Shared)
    (tls : a.tls.Shared) (modbus : UInt32 × UInt32) (dnp3 : UInt32) (enip : a.enip.Shared)
    (iec104 : a.iec104.Shared) (maxClassificationAttempts : UInt32) :
    ReturnsIf (Lasting config (inputs.map arrival))
      (do finalize ord (← run (receive ord) s₀ inputs)) (fun s =>
      ∀ d, run handle (allSix http tls modbus dnp3 enip iec104
          maxClassificationAttempts).dispatcher s.events = .ok d →
        (NoFalseGaps d ↔ HeardFirst s.events)) := by
  refine ⟨fun hlast => ?_, fun s _ d hd => ?_⟩
  · obtain ⟨s, hs, hcounted⟩ := (receive_run_counted ord hnew inputs).returns hlast
    obtain ⟨s', hs', -⟩ := finalize_ready ord hcounted.ready
    exact ⟨s', bind_eq_ok.mpr ⟨s, hs, hs'⟩⟩
  · exact (run_follows s.events (follows_start _ rfl rfl) hd).noFalseGaps_iff

/-- The same, read off the flow table: every flow of a dissected port that leaves it on the way,
or is still in it at the end, has delivered bytes. -/
theorem gaps_iff_delivered (ord : IterOrder) (config : ReassemblyConfig) (s₀ : TcpReassembler)
    (hnew : TcpReassembler.new config = .ok s₀) (inputs : List Alone.Input) (http : a.http.Shared)
    (tls : a.tls.Shared) (modbus : UInt32 × UInt32) (dnp3 : UInt32) (enip : a.enip.Shared)
    (iec104 : a.iec104.Shared) (maxClassificationAttempts : UInt32) :
    ReturnsIf (Lasting config (inputs.map arrival)) (run (receive ord) s₀ inputs) (fun s => ∀ s' d,
      finalize ord s = .ok s' →
      run handle (allSix http tls modbus dnp3 enip iec104
        maxClassificationAttempts).dispatcher s'.events = .ok d →
      (NoFalseGaps d ↔ AllLeaveHeard config (view s) ∧ ∀ key f, s.flows.get? key = some f →
        servicePort key ∈ dissectedPorts → HasDelivered f)) := by
  refine (receive_run_path ord hnew inputs).mono fun s hs s' d hs' hd => ?_
  obtain ⟨hpath, hr, hfin⟩ := hs
  have hclosed := (finalize_closes ord hr.wf hfin).apply hs'
  have hopened : AllOpened { view s with finalized := true } :=
    ⟨⟨hr.wf.wf, hr.wf.settled, hr.wf.memory⟩, (path_opened hpath).told⟩
  rw [(run_follows s'.events (follows_start _ rfl rfl) hd).noFalseGaps_iff,
    ← heardFirst_path hpath]
  exact Retires.heardFirst hclosed.1 hopened hclosed.2.1

/-- Analyzers that take everything. -/
abbrev takers : Analyzers := ⟨idle, idle, idle, idle, Dnp3.keyOrder⟩

/-- A connection to port 80 that is never answered. -/
theorem unanswered_gap : ∃ s₀ s d, TcpReassembler.new .default = .ok s₀ ∧
    (do finalize keyOrder (← run (receive keyOrder) s₀ [segmentOf right left 7 true []])) = .ok s ∧
    run handle (allSix (a := takers) () () (20, 10) 10 () () 8).dispatcher s.events = .ok d ∧
    gapCount d 80 = some 1 ∧ lookupProtocolState .tcp 80 = .knownSupported ∧ ¬ NoFalseGaps d := by
  obtain ⟨s₀, hnew⟩ : ∃ s₀, TcpReassembler.new .default = .ok s₀ := ⟨_, rfl⟩
  cases hnew
  refine ⟨_, _, _, rfl, rfl, rfl, by decide, by decide, ?_⟩
  intro h
  have := h.1 80 (by decide)
  revert this
  decide

/-- A connection to port 80 with a request. -/
theorem gaps_iff_request : ∃ s₀ s d, TcpReassembler.new .default = .ok s₀ ∧
    (do finalize keyOrder (← run (receive keyOrder) s₀
      [segmentOf right left 7 true [], segmentOf right left 8 false [71, 69]])) = .ok s ∧
    run handle (allSix (a := takers) () () (20, 10) 10 () () 8).dispatcher s.events = .ok d ∧
    (NoFalseGaps d ↔ HeardFirst s.events) ∧ NoFalseGaps d := by
  obtain ⟨s₀, hnew⟩ : ∃ s₀, TcpReassembler.new .default = .ok s₀ := ⟨_, rfl⟩
  have hiff := gaps_iff keyOrder .default s₀ hnew
    [segmentOf right left 7 true [], segmentOf right left 8 false [71, 69]]
    (a := takers) () () (20, 10) 10 () () 8
  cases hnew
  have hlast := hiff.2 _ rfl _ rfl
  refine ⟨_, _, _, rfl, rfl, rfl, hlast, fun port _ => rfl, fun port n hn => ?_⟩
  cases hn

end Wirerust.CoverageGaps
