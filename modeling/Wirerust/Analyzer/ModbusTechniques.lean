import Wirerust.Analyzer.ModbusFindings
import Wirerust.Analyzer.ModbusLedger
import Wirerust.Lib.Joined
import Wirerust.Reporter.MitreLines

/-!
Which techniques of Modbus findings a report names.

Findings of one collapse key have the same techniques, but for T0831: whether a register write
is coordinated depends on the writes before it and is not in the summary
(`Attributed.steady_eq`). The MITRE line of a block names the techniques of its first finding, so
a T0831 of a later one is not in it.
-/

namespace Wirerust.Modbus

open Lib Wirerust.Flow Wirerust.Analyzer Wirerust.Terminal

/-! ## Attribution -/

/-- The tag of a coordinated write. -/
def coordinatedTag : String := "T0831"

/-- The techniques that do not depend on other writes. -/
def steady (f : Finding) : List String := f.mitreTechniques.filter (· ≠ coordinatedTag)

/-- The techniques of an anomaly, by what its key shows: only the summaries of scans go on
with `recon: `. -/
def anomalyTechniques (verdict : Wirerust.Verdict) (summary : String) : List String :=
  if verdict = .likely then ["T0814"]
  else if summary.toList[7]? = some 'r' then ["T0888"]
  else []

/-- What is found, by what its key shows. -/
inductive Attributed (f : Finding) : Prop
  | anomaly (hcategory : f.category = .anomaly)
      (h : f.mitreTechniques = anomalyTechniques f.verdict f.summary)
  | burst (hcategory : f.category = .execution) (hconfidence : f.confidence = .high)
      (h : f.mitreTechniques = ["T0806", "T1692.001"])
  | write (p : Pdu) (coordinated : Bool) (h : f = writeFinding p coordinated)

theorem reconFinding_attributed {p : Pdu} {confidence : Confidence} {summary evidence : String}
    {mitreTechniques : List String}
    (h : mitreTechniques = if summary.toList[7]? = some 'r' then ["T0888"] else [])
    (hlong : 7 < summary.toList.length) :
    Attributed (reconFinding p confidence summary evidence mitreTechniques) := by
  refine .anomaly rfl ?_
  simp only [reconFinding, anomalyTechniques, String.toList_append,
    List.getElem?_append_left hlong]
  exact h

theorem reconFindings_attributed (p : Pdu) : ∀ f ∈ reconFindings p, Attributed f := by
  intro f hf
  unfold reconFindings at hf
  split at hf
  · rw [List.mem_singleton.mp hf]
    exact reconFinding_attributed rfl (by decide)
  · split at hf
    · split at hf
      · rw [List.mem_singleton.mp hf]
        exact reconFinding_attributed rfl (by decide)
      · cases hf
    · split at hf
      · rw [List.mem_singleton.mp hf]
        refine reconFinding_attributed ?_ ?_
        · simp only [String.toList_append]
          rfl
        · simp only [String.toList_append, List.length_append]
          exact Nat.lt_of_lt_of_le (by decide : 7 < "Modbus unknown function code: ".toList.length)
            (by omega)
      · cases hf

theorem exceptionSummary_scan {excCode : UInt8} (h : excCode = 0x01 ∨ excCode = 0x02) (p : Pdu)
    (count : Nat) : (exceptionSummary p excCode count).toList[7]? = some 'r' := by
  rcases h with rfl | rfl
  · simp only [exceptionSummary, if_true, String.toList_append, List.append_assoc]
    rfl
  · simp only [exceptionSummary, (by decide : ¬ (2 : UInt8) = 1), if_false, if_true,
      String.toList_append, List.append_assoc]
    rfl

theorem exceptionSummary_other {excCode : UInt8} (h : ¬ (excCode = 0x01 ∨ excCode = 0x02))
    (p : Pdu) (count : Nat) : (exceptionSummary p excCode count).toList[7]? = some 'e' := by
  obtain ⟨hfunction, haddress⟩ := not_or.mp h
  simp only [exceptionSummary, hfunction, haddress, if_false, String.toList_append,
    List.append_assoc]
  rfl

theorem exceptionFinding_attributed (p : Pdu) (excCode : UInt8) (count : Nat) :
    Attributed (exceptionFinding p excCode count) := by
  refine .anomaly rfl ?_
  change _ = anomalyTechniques .inconclusive (exceptionSummary p excCode count)
  have hverdict : ¬ Wirerust.Verdict.inconclusive = .likely := by decide
  rw [exceptionFinding, anomalyTechniques, if_neg hverdict]
  by_cases hscan : excCode = 0x01 ∨ excCode = 0x02
  · rw [if_pos hscan, if_pos (exceptionSummary_scan hscan p count)]
  · rw [if_neg hscan, if_neg]
    rw [exceptionSummary_other hscan]
    decide

theorem diagnosticFindings_attributed (p : Pdu) : ∀ f ∈ diagnosticFindings p, Attributed f := by
  intro f hf
  unfold diagnosticFindings at hf
  split at hf
  · split at hf
    · simp only at hf
      split at hf
      · rw [List.mem_singleton.mp hf]
        exact .anomaly rfl rfl
      · split at hf
        · rw [List.mem_singleton.mp hf]
          refine .anomaly rfl ?_
          simp only [anomalyTechniques, String.toList_append]
          rfl
        · cases hf
    · cases hf
  · cases hf

theorem RaisedBy.attributed {p : Pdu} {f : Finding} (h : RaisedBy p f) : Attributed f := by
  cases h with
  | recon h => exact reconFindings_attributed p f h
  | write coordinated _ h => exact .write p coordinated h
  | burst _ h =>
    obtain ⟨summary, evidence, rfl⟩ := h.eq
    exact .burst rfl rfl rfl
  | sustained _ h =>
    obtain ⟨summary, evidence, rfl⟩ := h.eq
    exact .burst rfl rfl rfl
  | exception excCode count h =>
    rw [h]
    exact exceptionFinding_attributed p excCode count
  | diagnostic h => exact diagnosticFindings_attributed p f h

/-! ## Findings of one key -/

theorem toList_hexByte (b : UInt8) :
    (hexByte b).toList = '0' :: 'x' :: (byteDigits b.toNat).map Char.toUpper := by
  rw [hexByte, hexUpper, leftpad_map_toDigits rfl b.toNat_lt, String.toList_append]
  simp only [String.toList_ofList]
  rfl

theorem hexByte_injective : Function.Injective hexByte := by
  intro b c h
  have hdigits := congrArg String.toList h
  rw [toList_hexByte, toList_hexByte, List.cons.injEq, List.cons.injEq] at hdigits
  exact UInt8.toNat_inj.mp (upperDigits_inj b.toNat_lt c.toNat_lt hdigits.2.2)

/-- The summary of a write shows its function code. -/
theorem fc_of_writeSummary {p p' : Pdu} {c c' : Bool}
    (h : (writeFinding p c).summary = (writeFinding p' c').summary) : p.fc = p'.fc := by
  have hchars := congrArg String.toList h
  simp only [writeFinding, String.toList_append, List.append_assoc] at hchars
  have hlength : (hexByte p.fc).toList.length = (hexByte p'.fc).toList.length := by
    rw [toList_hexByte, toList_hexByte]
    rfl
  obtain ⟨hfc, -⟩ := List.append_inj (List.append_cancel_left hchars) hlength
  exact hexByte_injective (String.toList_inj.mp hfc)

theorem steady_writeFinding (p : Pdu) (coordinated : Bool) :
    steady (writeFinding p coordinated) = writeTechniques p.fc false := by
  simp only [steady, writeFinding, writeTechniques, coordinatedTag]
  cases isRegisterWrite p.fc <;> cases isCoilWrite p.fc <;> cases coordinated <;> decide

/-- What the key does not show is T0831 only. -/
theorem Attributed.steady_eq {f f' : Finding} (h : Attributed f) (h' : Attributed f')
    (hkey : collapseKey f = collapseKey f') : steady f = steady f' := by
  have hcategory : f.category = f'.category := congrArg CollapseKey.category hkey
  have hverdict : f.verdict = f'.verdict := congrArg CollapseKey.verdict hkey
  have hconfidence : f.confidence = f'.confidence := congrArg CollapseKey.confidence hkey
  have hsummary : f.summary = f'.summary := congrArg CollapseKey.summary hkey
  cases h with
  | anomaly ha ht =>
    cases h' with
    | anomaly _ ht' => rw [steady, steady, ht, ht', hverdict, hsummary]
    | burst ha' => rw [ha, ha'] at hcategory; cases hcategory
    | write p' c' hw' => rw [ha, hw'] at hcategory; cases hcategory
  | burst ha hc ht =>
    cases h' with
    | anomaly ha' => rw [ha, ha'] at hcategory; cases hcategory
    | burst _ _ ht' => rw [steady, steady, ht, ht']
    | write p' c' hw' => rw [hc, hw'] at hconfidence; cases hconfidence
  | write p c hw =>
    cases h' with
    | anomaly ha' => rw [hw, ha'] at hcategory; cases hcategory
    | burst _ hc' => rw [hw, hc'] at hconfidence; cases hconfidence
    | write p' c' hw' =>
      rw [hw, hw'] at hsummary
      rw [hw, hw', steady_writeFinding, steady_writeFinding, fc_of_writeSummary hsummary]

theorem Attributed.untagged {f : Finding} (h : Attributed f)
    (hfree : coordinatedTag ∉ f.mitreTechniques) :
    f.mitreTechniques ∈ [["T0814"], ["T0888"], [], ["T0806", "T1692.001"],
      ["T1692.001", "T0836"], ["T1692.001", "T0835"], ["T1692.001"]] := by
  cases h with
  | anomaly _ h =>
    rw [h, anomalyTechniques]
    split
    · simp
    · split
      · simp
      · simp
  | burst _ _ h =>
    rw [h]
    simp
  | write p coordinated h =>
    rw [h] at hfree ⊢
    cases coordinated with
    | true => exact absurd (List.mem_append_right _ (List.mem_singleton_self _)) hfree
    | false =>
      simp only [writeFinding, writeTechniques]
      cases isRegisterWrite p.fc <;> cases isCoilWrite p.fc <;> simp

/-- Nothing else in a MITRE line looks like T0831. -/
theorem Attributed.tag_hidden {f : Finding} (h : Attributed f)
    (hfree : coordinatedTag ∉ f.mitreTechniques) (grouping : Grouping) :
    ∀ l ∈ mitreLine grouping f, Text.contains l.text coordinatedTag = false := by
  have hknown := h.untagged hfree
  simp only [List.mem_cons, List.not_mem_nil, or_false] at hknown
  rcases hknown with ht | ht | ht | ht | ht | ht | ht <;> cases grouping <;>
    simp only [mitreLine, flatMitreLine, groupedMitreLine, joinTechniques, ht] <;>
    decide +kernel

/-! ## Runs -/

/-- Every finding that is kept comes from a rule. -/
def Sourced (s : ModbusAnalyzer) : Prop := ∀ f ∈ s.findings.kept, Attributed f

theorem processAdu_sourced {flowKey : FlowKey} {dir : Direction} {timestamp : UInt32}
    {w w' : ModbusAnalyzer × ModbusFlowState} {adu : List UInt8} (hw : Sourced w.1)
    (h : processAdu flowKey dir timestamp w adu = .ok w') : Sourced w'.1 := by
  unfold processAdu at h
  split at h
  · cases h
    exact hw
  · obtain ⟨⟨s, flow, found⟩, hpdu, hout⟩ := bind_eq_ok.mp h
    cases hout
    intro f hf
    have hlog := (processPdu_step hpdu).findings
    rw [hlog] at hf
    rcases Capped.mem_kept_pushAll hf with hkept | hfound
    · exact hw f hkept
    · exact (processPdu_raises hpdu f hfound).attributed

theorem onCall_sourced {flowKey : FlowKey} {s s' : ModbusAnalyzer} {c : Call} (hs : Sourced s)
    (h : onCall flowKey s c = .ok s') : Sourced s' := by
  unfold onCall onData at h
  simp only at h
  split at h
  · cases h
    exact hs
  · rw [walk_eq _ _ _ _ (Nat.le_refl _) (carry_setCarry _ [])] at h
    obtain ⟨⟨s₁, flow₁⟩, hwalk, hout⟩ := bind_eq_ok.mp h
    obtain ⟨w, hrun, hfinish⟩ := bind_eq_ok.mp hwalk
    cases hout
    have hkept : Sourced w.1 :=
      run_keeps (I := fun w => Sourced w.1) (fun _ _ _ hI hstep => processAdu_sourced hI hstep)
        hs hrun
    have hfirst := congrArg Prod.fst (Except.ok.inj hfinish)
    intro f hf
    refine hkept f ?_
    rw [← show _ = s₁ from hfirst, finish] at hf
    split at hf
    · exact hf
    · exact hf

/-- What a block says of the techniques of its findings. -/
structure NamesTechniques (mode : FindingsRender) (b : Block) : Prop where
  steady : ∀ e ∈ b, ∀ technique ∈ e.1.mitreTechniques, technique ≠ "T0831" →
    Names (blockLines mode.grouping b) technique
  coordinated : Names (blockLines mode.grouping b) "T0831" ↔
    ∃ e ∈ b.head?, "T0831" ∈ e.1.mitreTechniques
  expanded : mode.collapse = .expanded →
    ∀ e ∈ b, ∀ technique ∈ e.1.mitreTechniques, Names (blockLines mode.grouping b) technique

theorem block_names {mode : FindingsRender} {findings : List Finding}
    (hsource : ∀ f ∈ findings, Attributed f) {sect : Section}
    (hsect : sect ∈ sections mode findings) {b : Block} (hb : b ∈ sect.blocks) :
    NamesTechniques mode b := by
  have hkey := block_key hsect hb
  have hattributed : ∀ e ∈ b, Attributed e.1 :=
    fun e he => hsource e.1 (mem_of_block hsect hb he)
  obtain ⟨items, hitems⟩ := mem_sections hsect
  cases b with
  | nil => exact absurd rfl (blocksOf_nonempty (hitems ▸ hb))
  | cons first rest =>
    have hfirst := hattributed first List.mem_cons_self
    refine ⟨?_, ?_, ?_⟩
    · intro e he technique ht hne
      have hsteady := (hattributed e he).steady_eq hfirst (hkey e he first List.mem_cons_self)
      have hmem : technique ∈ Modbus.steady first.1 := by
        rw [← hsteady, Modbus.steady, List.mem_filter]
        exact ⟨ht, decide_eq_true hne⟩
      exact (names_block _ first rest technique).mpr
        (mitreLine_names _ (List.mem_filter.mp hmem).1)
    · rw [names_block]
      constructor
      · rintro ⟨l, hl, hnamed⟩
        refine ⟨first, rfl, ?_⟩
        by_contra hfree
        rw [← coordinatedTag, hfirst.tag_hidden hfree _ l hl] at hnamed
        cases hnamed
      · rintro ⟨e, he, ht⟩
        cases he
        exact mitreLine_names _ ht
    · intro hexpanded e he technique ht
      rw [hexpanded] at hitems
      rw [hitems] at hb
      obtain ⟨single, -, hsingle⟩ := List.mem_map.mp hb
      cases hsingle
      rw [List.mem_singleton.mp he] at ht
      exact (names_block _ first [] technique).mpr (mitreLine_names _ ht)

/-- A call, with the flow it is on. -/
def deliver (s : ModbusAnalyzer) (c : FlowKey × Call) : Checked ModbusAnalyzer := onCall c.1 s c.2

/-- The blocks of a report on Modbus name every technique of their findings but T0831, and that
one if their first finding has it. -/
theorem run_techniques (burst sustained : UInt32) (calls : List (FlowKey × Call))
    {s : ModbusAnalyzer} (h : run deliver (.new burst sustained) calls = .ok s)
    (mode : FindingsRender) :
    Accounts mode s.findings.kept (sections mode s.findings.kept) ∧
    ∀ sect ∈ sections mode s.findings.kept, ∀ b ∈ sect.blocks, NamesTechniques mode b := by
  refine ⟨sections_account mode _, fun sect hsect b hb => block_names ?_ hsect hb⟩
  exact run_keeps (I := Sourced) (fun _ _ _ hI hstep => onCall_sourced hI hstep)
    (fun _ hf => absurd hf List.not_mem_nil) h

/-! ## Two writes -/

def setPoint (txn : UInt8) (timestamp : UInt32) : FlowKey × Call :=
  (plcKey, ⟨.clientToServer, [0, txn, 0, 0, 0, 6, 1, 6, 0, 0, 0, 0], timestamp⟩)

theorem run_techniques_writes :
    ∃ s, run deliver (.new 20 10) [setPoint 1 100, setPoint 2 101] = .ok s ∧
      ∀ sect ∈ sections ⟨.grouped, .collapsed⟩ s.findings.kept, ∀ b ∈ sect.blocks,
        NamesTechniques ⟨.grouped, .collapsed⟩ b :=
  ⟨_, rfl, (run_techniques 20 10 [setPoint 1 100, setPoint 2 101] rfl
    ⟨.grouped, .collapsed⟩).2⟩

/-- The second of two register writes is coordinated, and its block does not say so. -/
theorem coordinated_hidden :
    ∃ s, run deliver (.new 20 10) [setPoint 1 100, setPoint 2 101] = .ok s ∧
      ∃ sect ∈ sections ⟨.grouped, .collapsed⟩ s.findings.kept, ∃ b ∈ sect.blocks, ∃ e ∈ b,
        ∃ technique ∈ e.1.mitreTechniques, ¬ Names (blockLines .grouped b) technique := by
  refine ⟨_, rfl, ?_⟩
  decide +kernel

end Wirerust.Modbus
