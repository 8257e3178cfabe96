import Wirerust.Reassembly.Handler

/-!
What a flow has delivered when it leaves the table.

A payload is inserted and flushed in one call, so that a close delivers nothing more (`Settled`).
What has been delivered of a flow is therefore to be seen in its state before it leaves:
`Streams.delivered_iff` says that its calls are there if one of its directions has counted bytes,
and `path_opened` that this is so on the way of every run.
-/

namespace Wirerust.Delivered

open Lib Wirerust.Segment Wirerust.Direction Wirerust.Flow Wirerust.Engine Wirerust.Moves
  Wirerust.Retiring Wirerust.EngineSpec Wirerust.Lifetimes Wirerust.Handler

/-- One of the directions has delivered bytes. -/
def HasDelivered (f : TcpFlow) : Prop := ∃ w, (f.dir w).reassembledBytes ≠ 0

/-! ## The calls of a lifetime -/

theorem mem_chunksIn {d : Delivery} {ds : List Delivery} (h : d ∈ ds) :
    (d.offset, d.data) ∈ chunksIn d.direction ds :=
  List.mem_map.mpr ⟨d, List.mem_filter.mpr ⟨h, decide_eq_true rfl⟩, rfl⟩

theorem contents_eq_nil {chunks : List (Chunk UInt8)} (hne : ∀ c ∈ chunks, c.2 ≠ [])
    (h : contents chunks = []) : chunks = [] := by
  cases chunks with
  | nil => rfl
  | cons c chunks =>
    rw [contents, List.flatMap_cons, List.append_eq_nil_iff] at h
    exact absurd h.1 (hne c List.mem_cons_self)

theorem Streams.delivered_iff {f : TcpFlow} {body : List Event} (h : Streams f body) :
    HasDelivered f ↔ deliveries body ≠ [] := by
  constructor
  · rintro ⟨w, hw⟩ hnil
    refine hw ?_
    rw [(h w).counted, hnil]
    rfl
  · intro hne
    obtain ⟨d, hd⟩ := List.exists_mem_of_ne_nil _ hne
    refine ⟨d.direction, fun hzero => ?_⟩
    have hcounted := (h d.direction).counted
    simp only at hcounted
    rw [hzero] at hcounted
    have hnil := contents_eq_nil (h d.direction).nonempty
      (List.length_eq_zero_iff.mp hcounted.symm)
    have hmem := mem_chunksIn hd
    simp only at hnil
    rw [hnil] at hmem
    cases hmem

theorem get?_of_entries_nil {α β : Type} [LinearOrder α] {m : SortedMap α β}
    (h : m.entries = []) (k : α) : m.get? k = none := by
  simp [SortedMap.get?, h]

/-! ## On the way of a run -/

/-- What is known of the flows of the table and the events of their lifetimes. -/
structure AllOpened (v : View) : Prop where
  wf : EngineWf v
  told : ∀ k, Told k Streams (fun l => ∀ w, Orderly (chunksIn w (deliveries l.body))) v

theorem AllOpened.drains {v : View} (hv : AllOpened v) {key : FlowKey} {f : TcpFlow}
    (hf : v.flows.get? key = some f) {client server : List (Chunk UInt8)}
    (hdrain : Drains f client server) : client = [] ∧ server = [] :=
  (hv.wf.settled key f hf).drains hdrain

/-- A reset does not deliver anything either. -/
theorem AllOpened.resets {v : View} (hv : AllOpened v) {p : FlowPacket} {f : TcpFlow}
    (hf : v.flows.get? p.key = some f) {client server : List (Chunk UInt8)}
    (hdrain : Drains (resetFlow f p) client server) : client = [] ∧ server = [] :=
  ((hv.wf.settled p.key f hf).kept (kept_resetFlow f p)).drains hdrain

theorem path_opened {config : ReassemblyConfig} {v : View} (h : Path (View.init config) v) :
    AllOpened v := by
  induction h with
  | refl => exact ⟨wf_init config, fun k => told_init config⟩
  | tail _ hmove ih =>
    exact ⟨hmove.wf ih.wf, fun k => (ih.told k).move ((streams_rules k).under _) rfl hmove⟩

theorem retires_opened {v v' : View} (h : Retires false v v') (hv : AllOpened v) :
    AllOpened v' :=
  ⟨Retires.wf h hv.wf, fun k => (hv.told k).retires ((streams_rules k).under v.config.limits) h⟩

end Wirerust.Delivered
