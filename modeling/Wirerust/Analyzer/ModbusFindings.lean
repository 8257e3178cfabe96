import Wirerust.Analyzer.ModbusWindows

/-!
Where the findings of the Modbus analyzer come from (`process_pdu` of `analyzer/modbus.rs`).

`processPdu_raises` names the finding of each rule, so that a fact about all findings of a run is
one case for each of them.
-/

namespace Wirerust.Modbus

open Lib Wirerust.Flow Wirerust.Analyzer

/-- The rules of `process_pdu`, and what each of them finds. -/
inductive RaisedBy (p : Pdu) (f : Finding) : Prop
  | recon (h : f ∈ reconFindings p)
  | write (coordinated : Bool) (hwrite : p.isWrite = true) (h : f = writeFinding p coordinated)
  | burst (hwrite : p.isWrite = true) (h : IsBurst p "Burst threshold exceeded" f)
  | sustained (hwrite : p.isWrite = true) (h : IsBurst p "Sustained write rate exceeded" f)
  | exception (excCode : UInt8) (count : Nat) (h : f = exceptionFinding p excCode count)
  | diagnostic (h : f ∈ diagnosticFindings p)

variable {p : Pdu} {f : Finding}

theorem processRequest_raises (s : ModbusAnalyzer) (flow : ModbusFlowState)
    (hdir : p.direction = .clientToServer) :
    ∀ f ∈ (processRequest s flow p).2.2, RaisedBy p f := by
  intro f hf
  unfold processRequest at hf
  generalize registerRequest s flow p = r at hf
  obtain ⟨s₁, flow₁⟩ := r
  simp only at hf
  cases hclass : classifyFc p.fc with
  | write =>
    have hwrite : p.isWrite = true := by simp [Pdu.isWrite, hdir, hclass]
    rw [hclass] at hf
    simp only [processWrite, List.mem_cons, List.mem_append] at hf
    rcases hf with rfl | hf | hf
    · exact .write _ hwrite rfl
    · exact .burst hwrite (writeBurst_found _ _ p f hf)
    · exact .sustained hwrite (sustainedBurst_found _ _ p f hf)
  | diagnostic =>
    rw [hclass] at hf
    exact .diagnostic hf
  | read =>
    rw [hclass] at hf
    cases hf
  | exception =>
    rw [hclass] at hf
    cases hf
  | unknown =>
    rw [hclass] at hf
    cases hf

theorem processResponse_raises {s s' : ModbusAnalyzer} {flow flow' : ModbusFlowState}
    {found : List Finding} (h : processResponse s flow p = .ok (s', flow', found)) :
    ∀ f ∈ found, RaisedBy p f := by
  intro f hf
  by_cases hfc : classifyFc p.fc = .exception
  · rw [processResponse_of_exception s flow hfc] at h
    obtain ⟨⟨flow₂, found₂⟩, hburst, hout⟩ := bind_eq_ok.mp h
    cases hout
    obtain ⟨excCode, count, hf⟩ := exceptionBurst_found hburst f hf
    exact .exception excCode count hf
  · rw [processResponse, if_neg hfc] at h
    cases h
    cases hf

theorem processPdu_raises {s s' : ModbusAnalyzer} {flow flow' : ModbusFlowState}
    {raised : List Finding} (h : processPdu s flow p = .ok (s', flow', raised)) :
    ∀ f ∈ raised, RaisedBy p f := by
  intro f hf
  unfold processPdu at h
  obtain ⟨⟨s₁, flow₁⟩, -, h⟩ := bind_eq_ok.mp h
  obtain ⟨⟨s₂, flow₂, found⟩, hbody, hout⟩ := bind_eq_ok.mp h
  cases hout
  rcases List.mem_append.mp hf with hf | hf
  · exact .recon hf
  · simp only [processDirected] at hbody
    cases hdir : p.direction with
    | clientToServer =>
      rw [hdir] at hbody
      have hfound := processRequest_raises s₁ flow₁ hdir f
      rw [Except.ok.inj hbody] at hfound
      exact hfound hf
    | serverToClient =>
      rw [hdir] at hbody
      exact processResponse_raises hbody f hf

end Wirerust.Modbus
