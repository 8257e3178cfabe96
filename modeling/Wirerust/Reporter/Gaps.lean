import Wirerust.Protocols
import Wirerust.Reporter.Safety

/-!
The section on coverage gaps (`main.rs`).

`collectAllGaps` puts the counts of TCP and of UDP together, and `gapLines` are the lines of the
section. The catalog gives a gap its name, but the port shared by four protocols has a note
instead. No line has a control character (`gapLines_safe`).
-/

namespace Wirerust.Gaps

open Lib Wirerust.Analyzer Wirerust.Dispatcher Wirerust.Protocols Wirerust.Terminal

abbrev GapKey := TransportProto ×ₗ UInt16

abbrev GapCounts := SortedMap GapKey Nat

def l2CaveatText : String :=
  "Dynamic gap detection covers TCP and UDP flows. " ++
  "Layer-2 protocols (e.g., GOOSE, Sampled Values, PROFINET-RT/DCP, EtherCAT, Ethernet POWERLINK) " ++
  "have no TCP/UDP port and are not represented in the gap report. " ++
  "Consult `wirerust protocols --unsupported` for L2 protocol coverage."

def port102Note : String :=
  "TCP/102 gap: S7comm, S7comm-plus, IEC 61850 MMS, and ICCP/TASE.2 " ++
  "all share this port (ISO-on-TCP/TPKT). This gap cannot be attributed to a single protocol."

/-! ## Collecting -/

/-- `*all.entry(k).or_insert(0) += v` -/
def addGap (all : GapCounts) (e : GapKey × Nat) : Checked GapCounts := do
  let n ← checkedAdd 64 ((all.get? e.1).getD 0) e.2
  .ok (all.insert e.1 n)

def collectAllGaps (tcp udp : GapCounts) : Checked GapCounts := do
  let all ← run addGap .empty tcp.entries
  run addGap all udp.entries

/-- Counts of ports of one transport, in 64 bits. -/
def PortsOf (transport : TransportProto) (counts : GapCounts) : Prop :=
  ∀ k n, counts.get? k = some n → (ofLex k).1 = transport ∧ n < 2 ^ 64

theorem PortsOf.empty (transport : TransportProto) : PortsOf transport .empty := by
  intro k n h
  cases h

theorem PortsOf.count {transport : TransportProto} {counts : GapCounts}
    (h : PortsOf transport counts) (port : UInt16) :
    PortsOf transport (counts.insert (toLex (transport, port))
      (bump64 ((counts.get? (toLex (transport, port))).getD 0))) := by
  intro k n hk
  by_cases heq : k = toLex (transport, port)
  · subst heq
    rw [SortedMap.get?_insert_self] at hk
    cases hk
    refine ⟨rfl, ?_⟩
    unfold bump64 saturatingInc
    omega
  · rw [SortedMap.get?_insert_of_ne _ _ heq] at hk
    exact h k n hk

/-- New keys are only put in, nothing is added up. -/
theorem addGaps_returns {es : List (GapKey × Nat)} (hsorted : es.Pairwise fun a b => a.1 < b.1)
    (all : GapCounts) (hnew : ∀ e ∈ es, all.get? e.1 = none) (hlt : ∀ e ∈ es, e.2 < 2 ^ 64) :
    Returns (run addGap all es) fun all' =>
      ∀ k n, all'.get? k = some n ↔ all.get? k = some n ∨ (k, n) ∈ es := by
  induction es generalizing all with
  | nil => exact .pure fun k n => by simp
  | cons e es ih =>
    obtain ⟨hfirst, hsorted⟩ := List.pairwise_cons.mp hsorted
    have hnone : all.get? e.1 = none := hnew e List.mem_cons_self
    have hadd : addGap all e = .ok (all.insert e.1 e.2) := by
      have hsum : 0 + e.2 < 2 ^ 64 := by
        rw [Nat.zero_add]
        exact hlt e List.mem_cons_self
      rw [addGap, hnone, Option.getD_none, checkedAdd_of_lt hsum, Nat.zero_add]
      rfl
    rw [run_cons, hadd, ok_bind]
    refine (ih hsorted _ (fun e' he' => ?_) fun e' he' => hlt e' (List.mem_cons_of_mem _ he')).mono
      fun all' hall k n => ?_
    · rw [SortedMap.get?_insert_of_ne _ _ (ne_of_gt (hfirst e' he'))]
      exact hnew e' (List.mem_cons_of_mem _ he')
    · rw [hall, List.mem_cons]
      by_cases hk : k = e.1
      · subst hk
        rw [SortedMap.get?_insert_self, hnone]
        simp only [Option.some.injEq, reduceCtorEq, false_or, Prod.ext_iff, true_and, eq_comm]
      · have hne : (k, n) ≠ e := fun heq => hk (congrArg Prod.fst heq)
        rw [SortedMap.get?_insert_of_ne _ _ hk, or_iff_right hne]

/-- No key is of both transports, so every count stays what it is. -/
theorem collectAllGaps_returns {tcp udp : GapCounts} (htcp : PortsOf .tcp tcp)
    (hudp : PortsOf .udp udp) :
    Returns (collectAllGaps tcp udp) fun all =>
      ∀ k n, all.get? k = some n ↔ tcp.get? k = some n ∨ udp.get? k = some n := by
  have hof : ∀ {transport counts}, PortsOf transport counts →
      ∀ e ∈ counts.entries, (ofLex e.1).1 = transport ∧ e.2 < 2 ^ 64 :=
    fun h e he => h e.1 e.2 ((SortedMap.get?_eq_some_iff _ _ _).mpr he)
  refine (addGaps_returns tcp.sorted .empty (fun e _ => SortedMap.get?_empty e.1)
    fun e he => (hof htcp e he).2).bind fun all hall => ?_
  have hnew : ∀ e ∈ udp.entries, all.get? e.1 = none := by
    intro e he
    refine Option.eq_none_iff_forall_ne_some.mpr fun n hn => ?_
    rcases (hall e.1 n).mp hn with hempty | hmem
    · cases hempty
    · have hboth := (hof htcp _ hmem).1.symm.trans (hof hudp e he).1
      cases hboth
  refine (addGaps_returns udp.sorted all hnew fun e he => (hof hudp e he).2).mono
    fun all' hall' k n => ?_
  rw [hall', hall, SortedMap.get?_eq_some_iff tcp, SortedMap.get?_eq_some_iff udp]
  simp

/-! ## Lines -/

/-- By port, and TCP before UDP. -/
def gapLe (a b : GapKey × Nat) : Prop :=
  (ofLex a.1).2 < (ofLex b.1).2 ∨
    ((ofLex a.1).2 = (ofLex b.1).2 ∧ (ofLex a.1).1 ≤ (ofLex b.1).1)

instance : DecidableRel gapLe := fun _ _ => inferInstanceAs (Decidable (_ ∨ _))

def transportText : TransportProto → String
  | .tcp => "TCP"
  | .udp => "UDP"

def stateText : ProtocolGapState → String
  | .knownUnsupported => "known-unsupported"
  | .unknown => "unknown"
  | .knownSupported => "known-supported"

def isTcp102 (transport : TransportProto) (port : UInt16) : Bool :=
  transport = .tcp && port = 102

def gapName (transport : TransportProto) (port : UInt16) : Option String :=
  if isTcp102 transport port then none
  else
    match lookupProtocolState transport port with
    | .unknown => none
    | _ => (knownProtocols.find? fun p =>
        p.transport == catalogTransport transport && p.canonicalPorts.contains port).map
        KnownProtocol.name

def nameSuffix : Option String → String
  | some n => "  " ++ n
  | none => ""

def gapLine (transport : TransportProto) (port : UInt16) (n : Nat) : String :=
  "  " ++ transportText transport ++ "/" ++ toString port.toNat ++ "  count=" ++ toString n ++
    "  " ++ stateText (lookupProtocolState transport port) ++ nameSuffix (gapName transport port)

/-- The line of a gap, and the note behind the shared port. -/
def entryLines (e : GapKey × Nat) : List String :=
  gapLine (ofLex e.1).1 (ofLex e.1).2 e.2 ::
    if isTcp102 (ofLex e.1).1 (ofLex e.1).2 then ["    " ++ port102Note] else []

def gapLines (all : GapCounts) : List String :=
  ["", "--- CoverageGapsSummary ---", "", l2CaveatText, ""] ++
    if all.entries.isEmpty then ["No unclassified port gaps detected."]
    else (all.entries.insertionSort gapLe).flatMap entryLines

def renderCoverageGapsTerminal (all : GapCounts) : String := unlines (gapLines all)

/-! ## No control characters -/

theorem gapName_safe {transport : TransportProto} {port : UInt16} {name : String}
    (h : gapName transport port = some name) : ControlFree name := by
  have hall : ∀ p ∈ knownProtocols, ControlFree p.name := by decide
  unfold gapName at h
  split at h
  · cases h
  · split at h
    · cases h
    · obtain ⟨p, hp, rfl⟩ := Option.map_eq_some_iff.mp h
      exact hall p (List.mem_of_find?_eq_some hp)

theorem gapLine_safe (transport : TransportProto) (port : UInt16) (n : Nat) :
    ControlFree (gapLine transport port n) := by
  have htransport : ControlFree (transportText transport) := by
    cases transport <;> decide
  have hstate : ControlFree (stateText (lookupProtocolState transport port)) := by
    cases lookupProtocolState transport port <;> decide
  have hname : ControlFree (nameSuffix (gapName transport port)) := by
    cases hgap : gapName transport port with
    | none => exact (by decide : ControlFree "")
    | some name => exact (controlFree_append _ _).mpr ⟨by decide, gapName_safe hgap⟩
  simp only [gapLine, controlFree_append]
  exact ⟨⟨⟨⟨⟨⟨⟨⟨by decide, htransport⟩, by decide⟩, controlFree_toString _⟩, by decide⟩,
    controlFree_toString _⟩, by decide⟩, hstate⟩, hname⟩

theorem controlFree_of_all {cs : List Char} (h : (cs.all fun c => !isControl c) = true) :
    ControlFree (String.ofList cs) := (avoids_ofList cs).mpr (not_control_of_all h)

-- a text is slow to take apart, so its characters are looked at as a list
theorem port102Note_safe : ControlFree port102Note := by
  refine (controlFree_append _ _).mpr ⟨controlFree_of_all ?_, controlFree_of_all ?_⟩
  · decide +kernel
  · decide +kernel

theorem l2CaveatText_safe : ControlFree l2CaveatText := by
  unfold l2CaveatText
  rw [controlFree_append, controlFree_append, controlFree_append]
  refine ⟨⟨⟨controlFree_of_all ?_, controlFree_of_all ?_⟩, controlFree_of_all ?_⟩,
    controlFree_of_all ?_⟩
  · decide +kernel
  · decide +kernel
  · decide +kernel
  · decide +kernel

theorem entryLines_safe (e : GapKey × Nat) : ∀ line ∈ entryLines e, ControlFree line := by
  intro line hline
  rcases List.mem_cons.mp hline with rfl | hline
  · exact gapLine_safe _ _ _
  · split at hline
    · rw [List.mem_singleton.mp hline]
      exact (controlFree_append _ _).mpr ⟨by decide, port102Note_safe⟩
    · cases hline

theorem gapLines_safe (all : GapCounts) : ∀ line ∈ gapLines all, ControlFree line := by
  intro line hline
  rcases List.mem_append.mp hline with hhead | hrest
  · have hfixed : ∀ l ∈ ["", "--- CoverageGapsSummary ---", "", l2CaveatText, ""],
        ControlFree l := by
      refine List.forall_mem_cons.mpr ⟨by decide, List.forall_mem_cons.mpr ⟨by decide,
        List.forall_mem_cons.mpr ⟨by decide, List.forall_mem_cons.mpr ⟨l2CaveatText_safe, ?_⟩⟩⟩⟩
      decide
    exact hfixed line hhead
  · split at hrest
    · rw [List.mem_singleton.mp hrest]
      decide
    · obtain ⟨e, -, hline⟩ := List.mem_flatMap.mp hrest
      exact entryLines_safe e line hline

end Wirerust.Gaps
