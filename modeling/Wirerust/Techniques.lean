import Wirerust.Analyzer.ArpBindings
import Wirerust.Analyzer.ModbusTechniques
import Wirerust.Endurance
import Wirerust.Mitre
import Wirerust.Reassembly.Anomalies

/-!
The techniques of all findings are in the catalog.

Each analyzer is followed through the functions that raise findings. What they have kept is `Clean`
afterwards if it was before. `techniques_last` is the invariant of the six analyzers behind the
dispatcher; the ARP analyzer and the reassembler have their own lemmas.
-/

namespace Wirerust.Techniques

open Lib Wirerust.Analyzer Wirerust.Flow Wirerust.Mitre Wirerust.Wiring

/-- Every one of them has a name and a tactic. -/
def known (ids : List String) : Bool := ids.all fun id => (techniqueInfo id).isSome

def Catalogued (f : Finding) : Prop := known f.mitreTechniques = true

def Clean (findings : List Finding) : Prop := ∀ f ∈ findings, Catalogued f

theorem clean_nil : Clean [] := fun f hf => by cases hf

theorem clean_one {f : Finding} (h : Catalogued f) : Clean [f] := fun g hg => by
  rw [List.mem_singleton.mp hg]
  exact h

theorem clean_two {f g : Finding} (hf : Catalogued f) (hg : Catalogued g) : Clean [f, g] := by
  intro x hx
  rcases List.mem_pair.mp hx with rfl | rfl
  · exact hf
  · exact hg

theorem clean_if {p : Prop} [Decidable p] {f : Finding} (h : Catalogued f) :
    Clean (if p then [f] else []) := by
  split
  · exact clean_one h
  · exact clean_nil

theorem clean_toList {f : Option Finding} (h : ∀ g ∈ f, Catalogued g) : Clean f.toList := by
  cases f with
  | none => exact clean_nil
  | some g => exact clean_one (h g rfl)

namespace Clean

variable {l l' : List Finding} {log : Capped Finding}

theorem append (h : Clean l) (h' : Clean l') : Clean (l ++ l') := by
  intro f hf
  rcases List.mem_append.mp hf with hf | hf
  · exact h f hf
  · exact h' f hf

theorem snoc (h : Clean l) {f : Finding} (hf : Catalogued f) : Clean (l ++ [f]) :=
  h.append (clean_one hf)

theorem push (h : Clean log.kept) {f : Finding} (hf : Catalogued f) :
    Clean (pushFinding log f).kept := by
  intro g hg
  rcases Capped.mem_kept_push hg with hg | rfl
  · exact h g hg
  · exact hf

theorem pushAll (h : Clean log.kept) {cap limit : Nat} (hl : Clean l) :
    Clean (log.pushAll cap limit l).kept := by
  intro g hg
  rcases Capped.mem_kept_pushAll hg with hg | hg
  · exact h g hg
  · exact hl g hg

theorem take (h : Clean l) (n : Nat) : Clean (l.take n) := fun f hf => h f (List.mem_of_mem_take hf)

end Clean

theorem returnsIf_ite {α : Type} {p q : Prop} [Decidable q] {x y : Checked α} {P : α → Prop}
    (hx : ReturnsIf p x P) (hy : ReturnsIf p y P) : ReturnsIf p (if q then x else y) P := by
  split
  · exact hx
  · exact hy

/-- Whatever comes back. -/
theorem returnsIf_true {α : Type} (x : Checked α) : ReturnsIf False x fun _ => True :=
  ⟨False.elim, fun _ _ => trivial⟩

/-! ## HTTP -/

theorem requestDetections_clean (parsed : Http.ParsedRequest) (lastTs : UInt32) :
    Clean (Http.requestDetections parsed lastTs) := by
  unfold Http.requestDetections
  simp only
  refine .append (.append (.append (.append (.append (.append ?_ ?_) ?_) ?_) ?_) ?_) ?_
  · exact clean_if rfl
  · exact clean_if rfl
  · exact clean_if rfl
  · exact clean_if rfl
  · split
    · exact clean_one rfl
    · exact clean_nil
  · exact clean_if rfl
  · exact clean_if rfl

theorem recordRequest_clean {s : Http.HttpAnalyzer} (h : Clean s.findings)
    (lastTs : UInt32) (parsed : Http.ParsedRequest) :
    ReturnsIf False (Http.recordRequest s lastTs parsed) fun s' => Clean s'.findings :=
  (returnsIf_true _).bind fun _ _ => (returnsIf_true _).bind fun _ _ =>
    (returnsIf_true _).bind fun _ _ => .pure (h.append (requestDetections_clean parsed lastTs))

theorem recordResponse_clean {s : Http.HttpAnalyzer} (h : Clean s.findings) (lastTs : UInt32)
    (statusCode : UInt16) :
    ReturnsIf False (Http.recordResponse s lastTs statusCode) fun s' => Clean s'.findings :=
  (returnsIf_true _).bind fun _ _ => .pure h

theorem findings_noteError {α : Type} (r : Http.Reader α) (s : Http.HttpAnalyzer)
    (flow : Http.HttpFlowState) : (Http.noteError r s flow).1.findings = s.findings := by
  unfold Http.noteError
  simp only
  split
  · split <;> rfl
  · rfl

theorem raiseTooManyHeaders_clean {α : Type} (r : Http.Reader α) (e : Http.HttparseError)
    (lastTs : UInt32) {s : Http.HttpAnalyzer} (h : Clean s.findings) :
    Clean (Http.raiseTooManyHeaders r e lastTs s).findings := by
  unfold Http.raiseTooManyHeaders
  split
  · exact h.snoc rfl
  · exact h

theorem tryParse_clean {α : Type} (r : Http.Reader α)
    (hrecord : ∀ s lastTs a, Clean s.findings →
      ReturnsIf False (r.record s lastTs a) fun s' => Clean s'.findings)
    (turns : Nat) (hadSuccess : Bool) {s : Http.HttpAnalyzer} (h : Clean s.findings)
    (flow : Http.HttpFlowState) :
    ReturnsIf False (Http.tryParse r turns hadSuccess s flow) fun w => Clean w.1.findings := by
  induction turns generalizing hadSuccess s flow with
  | zero => exact .pure h
  | succ turns ih =>
    unfold Http.tryParse
    simp only
    split
    · exact .pure h
    · split
      · exact (hrecord _ _ _ h).bind fun s' hs' => (returnsIf_true _).bind fun _ _ => ih _ hs' _
      · exact .pure h
      · rename_i e _
        refine .pure ?_
        split
        · exact raiseTooManyHeaders_clean r e _ ((findings_noteError r s flow).symm ▸ h)
        · exact h

theorem tryParseSide_clean (lib : Http.Httparse) (dir : Direction) {s : Http.HttpAnalyzer}
    (h : Clean s.findings) (flow : Http.HttpFlowState) :
    ReturnsIf False (Http.tryParseSide lib dir s flow) fun w => Clean w.1.findings := by
  cases dir with
  | clientToServer =>
    exact tryParse_clean _ (fun _ lastTs parsed h => recordRequest_clean h lastTs parsed) _ _ h
      flow
  | serverToClient =>
    exact tryParse_clean _ (fun _ lastTs code h => recordResponse_clean h lastTs code) _ _ h flow

theorem http_clean (lib : Http.Httparse) {s : Http.HttpAnalyzer} (h : Clean s.findings)
    (c : Dispatcher.Chunk) :
    ReturnsIf False ((http lib).onData s c) fun s' => Clean s'.findings := by
  change ReturnsIf False (Http.onData lib s c.flowKey c.direction c.data c.timestamp) _
  unfold Http.onData
  simp only
  split
  · exact (returnsIf_true _).bind fun _ _ => .pure h
  · exact (tryParseSide_clean lib c.direction h _).bind fun w hw => .pure hw

/-! ## TLS -/

section Tls

open Wirerust.Tls

variable {s : TlsAnalyzer}

/-- A step that only counts. -/
def SameFindings (s : TlsAnalyzer) (x : Checked TlsAnalyzer) : Prop :=
  ReturnsIf False x fun s' => s'.findings = s.findings

theorem countVersion_same (s : TlsAnalyzer) (version : UInt16) :
    SameFindings s (countVersion s version) := (returnsIf_true _).bind fun _ _ => .pure rfl

theorem countSni_same (s : TlsAnalyzer) (key : String) : SameFindings s (countSni s key) :=
  (returnsIf_true _).bind fun _ _ => .pure rfl

theorem countJa3_same (s : TlsAnalyzer) (hash : String) : SameFindings s (countJa3 s hash) :=
  (returnsIf_true _).bind fun _ _ => .pure rfl

theorem countJa3s_same (s : TlsAnalyzer) (hash : String) : SameFindings s (countJa3s s hash) :=
  (returnsIf_true _).bind fun _ _ => .pure rfl

theorem countCipher_same (s : TlsAnalyzer) (name : String) :
    SameFindings s (countCipher s name) := (returnsIf_true _).bind fun _ _ => .pure rfl

theorem sniFindings_clean (sni : SniValue) (lastTs : UInt32) : Clean (sniFindings sni lastTs) := by
  cases sni with
  | ascii hostname => exact clean_nil
  | asciiWithControl hostname hex => exact clean_one rfl
  | nonAsciiUtf8 hostname hex => exact clean_one rfl
  | nonUtf8 lossy hex => exact clean_one rfl

theorem weakCipherFindings_clean (lib : TlsParser) (ciphers : List UInt16) (lastTs : UInt32) :
    Clean (weakCipherFindings lib ciphers lastTs) := by
  unfold weakCipherFindings
  simp only
  split
  · exact clean_nil
  · exact clean_one rfl

theorem deprecatedFindings_clean (version : UInt16) (subject : String) (lastTs : UInt32)
    (direction : Direction) : Clean (deprecatedFindings version subject lastTs direction) :=
  clean_if rfl

theorem recordSni_clean (h : Clean s.findings) (sni : Option SniValue) (lastTs : UInt32) :
    ReturnsIf False (recordSni s sni lastTs) fun s' => Clean s'.findings := by
  unfold recordSni
  cases sni with
  | none => exact .pure h
  | some sni =>
    refine (countSni_same s sni.key).bind fun s' hs' => .pure ?_
    exact (hs' ▸ h).append (sniFindings_clean sni lastTs)

theorem handleClientHello_clean (lib : TlsParser) (h : Clean s.findings)
    (ch : ClientHelloContents) (lastTs : UInt32) :
    ReturnsIf False (handleClientHello lib s ch lastTs) fun s' => Clean s'.findings := by
  unfold handleClientHello
  refine (countVersion_same _ ch.version).bind fun s₁ h₁ => ?_
  refine (returnsIf_true _).bind fun sni _ => ?_
  refine (recordSni_clean (h₁.symm ▸ h) sni lastTs).bind fun s₂ h₂ => ?_
  refine (countJa3_same s₂ _).bind fun s₃ h₃ => .pure ?_
  exact ((h₃ ▸ h₂).append (weakCipherFindings_clean lib ch.ciphers lastTs)).append
    (deprecatedFindings_clean _ _ _ _)

theorem handleServerHello_clean (lib : TlsParser) (h : Clean s.findings)
    (sh : ServerHelloContents) (lastTs : UInt32) :
    ReturnsIf False (handleServerHello lib s sh lastTs) fun s' => Clean s'.findings := by
  unfold handleServerHello
  refine (countVersion_same _ sh.version).bind fun s₁ h₁ => ?_
  refine (countJa3s_same _ _).bind fun s₂ h₂ => ?_
  refine (countCipher_same s₂ _).bind fun s₃ h₃ => .pure ?_
  have hclean : Clean s₃.findings := by
    rw [h₃, h₂]
    exact h₁.symm ▸ h
  refine (hclean.append ?_).append (deprecatedFindings_clean _ _ _ _)
  split
  · exact clean_one rfl
  · exact clean_nil

theorem dispatchMessage_clean (lib : TlsParser) (dir : Direction) (lastTs : UInt32)
    (h : Clean s.findings) (flow : TlsFlowState) (msgBytes : List UInt8) :
    ReturnsIf False (dispatchMessage lib dir lastTs s flow msgBytes)
      fun w => Clean w.1.findings := by
  have hhanded : Clean ({ s with handed := s.handed ++ [msgBytes] } : TlsAnalyzer).findings := h
  unfold dispatchMessage
  simp only
  split
  · split
    · exact (handleClientHello_clean lib hhanded _ lastTs).bind fun _ hs' => .pure hs'
    · exact (handleServerHello_clean lib hhanded _ lastTs).bind fun _ hs' => .pure hs'
    · exact .pure h
  · exact .pure h

theorem drainCarry_clean (lib : TlsParser) (dir : Direction) (lastTs : UInt32) (turns : Nat)
    (h : Clean s.findings) (flow : TlsFlowState) (carry : List UInt8) :
    ReturnsIf False (drainCarry lib dir lastTs turns s flow carry)
      fun w => Clean w.1.findings := by
  induction turns generalizing s flow carry with
  | zero => exact .pure h
  | succ turns ih =>
    unfold drainCarry
    split
    · exact .pure h
    · split
      · exact .pure h
      · split
        · exact .pure h
        · exact (dispatchMessage_clean lib dir lastTs h flow _).bind fun w hw => ih hw w.2 _

theorem processHandshakeCarry_clean (lib : TlsParser) (h : Clean s.findings) (flow : TlsFlowState)
    (dir : Direction) (carry : List UInt8) (lastTs : UInt32) :
    ReturnsIf False (processHandshakeCarry lib s flow dir carry lastTs)
      fun w => Clean w.1.findings :=
  (drainCarry_clean lib dir lastTs carry.length h flow carry).bind fun _ hw => .pure hw

theorem tryParseRecords_clean (lib : TlsParser) (dir : Direction) (turns : Nat)
    (h : Clean s.findings) (flow : TlsFlowState) :
    ReturnsIf False (tryParseRecords lib dir turns s flow) fun w => Clean w.1.findings := by
  induction turns generalizing s flow with
  | zero => exact .pure h
  | succ turns ih =>
    unfold tryParseRecords
    split
    · exact .pure h
    · exact ih h _
    · exact .pure h
    · refine ih ?_ _
      exact h
    · exact (processHandshakeCarry_clean lib h _ dir _ _).bind fun w hw => ih hw w.2

theorem tls_clean (lib : TlsParser) (h : Clean s.findings) (c : Dispatcher.Chunk) :
    ReturnsIf False ((tls lib).onData s c) fun s' => Clean s'.findings := by
  change ReturnsIf False (Tls.onData lib s c.flowKey c.direction c.data c.timestamp) _
  unfold Tls.onData
  split
  · exact .pure h
  · simp only
    refine (tryParseRecords_clean lib c.direction _ ?_ _).bind fun w hw => .pure hw
    split
    · exact h
    · exact h

end Tls

/-! ## Modbus -/

theorem attributed_catalogued {f : Finding} (h : Modbus.Attributed f) : Catalogued f := by
  unfold Catalogued
  cases h with
  | anomaly _ h =>
    rw [h, Modbus.anomalyTechniques]
    split
    · rfl
    · split <;> rfl
  | burst _ _ h =>
    rw [h]
    rfl
  | write p coordinated h =>
    rw [h, Modbus.writeFinding, Modbus.writeTechniques]
    cases Modbus.isRegisterWrite p.fc <;> cases Modbus.isCoilWrite p.fc <;>
      cases coordinated <;> rfl

theorem modbus_sourced {s : Modbus.ModbusAnalyzer} (h : Modbus.Sourced s) (c : Dispatcher.Chunk) :
    ReturnsIf False (modbus.onData s c) Modbus.Sourced :=
  ⟨False.elim, fun _ hs' =>
    Modbus.onCall_sourced (c := ⟨c.direction, c.data, c.timestamp⟩) h hs'⟩

/-! ## DNP3 -/

section Dnp3

open Wirerust.Dnp3

variable {s : Dnp3Analyzer} (h : Clean s.findings.kept) (flow : Dnp3FlowState)

include h

theorem dnp3_emit_clean {f : Finding} (hf : Catalogued f) :
    Clean (Dnp3.emit s f).findings.kept := h.push hf

omit h in
theorem dnp3_ite_clean {p : Prop} [Decidable p] {x y : Dnp3Analyzer × Dnp3FlowState}
    (hx : Clean x.1.findings.kept) (hy : Clean y.1.findings.kept) :
    Clean (if p then x else y).1.findings.kept := by
  split
  · exact hx
  · exact hy

theorem maybeEmitT0827_clean (c : Delivery) (dest : UInt16) :
    ReturnsIf False (maybeEmitT0827 c dest s flow) fun w => Clean w.1.findings.kept := by
  unfold maybeEmitT0827
  refine (returnsIf_true _).bind fun combined _ => ?_
  split
  · exact .pure (dnp3_emit_clean h rfl)
  · exact .pure h

theorem scanBlockTimeouts_clean (c : Delivery) :
    ReturnsIf False (scanBlockTimeouts c s flow) fun w => Clean w.1.findings.kept := by
  unfold scanBlockTimeouts
  simp only
  split
  · split
    · refine maybeEmitT0827_clean ?_ _ c _
      exact dnp3_emit_clean h rfl
    · exact maybeEmitT0827_clean h _ c _
  · split
    · exact .pure (dnp3_emit_clean h rfl)
    · exact .pure h

theorem checkMalformedAnomaly_clean (c : Delivery) :
    Clean (checkMalformedAnomaly c s flow).1.findings.kept := by
  unfold checkMalformedAnomaly
  simp only
  split
  · exact dnp3_emit_clean h rfl
  · exact h

theorem detectControlClassBurstSplit_clean (c : Delivery) (r : Request) :
    Clean (detectControlClassBurstSplit c r s flow).1.findings.kept := by
  unfold detectControlClassBurstSplit
  refine dnp3_ite_clean h (dnp3_ite_clean ?_ h)
  exact dnp3_emit_clean h rfl

theorem detectUnexpectedSourceSplit_clean (c : Delivery) (r : Request) :
    Clean (detectUnexpectedSourceSplit c r s flow).1.findings.kept := by
  unfold detectUnexpectedSourceSplit
  split
  · exact h
  · exact dnp3_emit_clean h rfl

theorem detectUnsolicitedAnomaly_clean (c : Delivery) (r : Request) (appCtrl : UInt8) :
    Clean (detectUnsolicitedAnomaly c r appCtrl s flow).1.findings.kept := by
  unfold detectUnsolicitedAnomaly
  split
  · exact h
  · split
    · exact dnp3_emit_clean h rfl
    · exact h

theorem detectUnsolicitedControl_clean (c : Delivery) (r : Request) :
    Clean (detectUnsolicitedControl c r s flow).1.findings.kept := by
  unfold detectUnsolicitedControl
  split
  · exact dnp3_emit_clean h rfl
  · split
    · exact dnp3_emit_clean h rfl
    · exact h

theorem trackMaster_clean (header : Dnp3DlHeader) :
    Clean (trackMaster header s flow).1.findings.kept := by
  unfold trackMaster
  split
  · split <;> exact h
  · exact h

theorem registerRequest_clean (ord : PendingOrder) (c : Delivery) (r : Request)
    (appCtrl : UInt8) : Clean (registerRequest ord c r appCtrl s flow).1.findings.kept := by
  unfold registerRequest countEviction
  split
  · simp only
    split <;> exact h
  · exact h

theorem processControl_clean (ord : PendingOrder) (c : Delivery) (r : Request) (appCtrl : UInt8)
    (unexpected : Bool) :
    Clean (processControl ord c r appCtrl unexpected s flow).1.findings.kept := by
  unfold processControl
  simp only
  refine detectControlClassBurstSplit_clean (registerRequest_clean ?_ _ ord c r appCtrl) _ c r
  have hbroadcast : Clean (if isBroadcastDestination r.dest then detectBroadcastAnomaly c r s
      else s).findings.kept := by
    split
    · exact dnp3_emit_clean h rfl
    · exact h
  split
  · exact detectUnexpectedSourceSplit_clean hbroadcast flow c r
  · exact hbroadcast

theorem processClass_clean (ord : PendingOrder) (c : Delivery) (r : Request) (appCtrl : UInt8)
    (unexpected : Bool) :
    ReturnsIf False (processClass ord c r appCtrl unexpected s flow)
      fun w => Clean w.1.findings.kept := by
  unfold processClass
  split
  · exact .pure (processControl_clean h flow ord c r appCtrl unexpected)
  · refine maybeEmitT0827_clean ?_ _ c r.dest
    exact dnp3_emit_clean h rfl
  · exact .pure (dnp3_emit_clean h rfl)
  · simp only
    have hanomaly := detectUnsolicitedAnomaly_clean h flow c r appCtrl
    split
    · exact .pure hanomaly
    · exact .pure hanomaly
  · exact .pure h

theorem processApplication_clean (ord : PendingOrder) (c : Delivery) (r : Request)
    (appCtrl : UInt8) (unexpected : Bool) :
    ReturnsIf False (processApplication ord c r appCtrl unexpected s flow)
      fun w => Clean w.1.findings.kept := by
  unfold processApplication
  refine (returnsIf_true _).bind fun fc _ => (returnsIf_true _).bind fun fn _ => ?_
  simp only
  have hcounted : Clean ({ s with fnCodeCounts := fn.1 } : Dnp3Analyzer).findings.kept := h
  split
  · exact processClass_clean (detectUnsolicitedControl_clean hcounted _ c r) _ ord c r appCtrl _
  · exact processClass_clean hcounted _ ord c r appCtrl unexpected

theorem processFrame_clean (ord : PendingOrder) (c : Delivery) (header : Dnp3DlHeader)
    (frame : List UInt8) :
    ReturnsIf False (processFrame ord c header frame s flow) fun w => Clean w.1.findings.kept := by
  unfold processFrame
  simp only
  split
  · exact processApplication_clean (trackMaster_clean h _ header) _ ord c _ _ _
  · exact .pure (trackMaster_clean h _ header)

theorem settleShort_clean (c : Delivery) (didProcess : Bool) :
    Clean (settleShort c didProcess s flow).1.findings.kept := by
  unfold settleShort
  simp only
  split
  · split
    · exact checkMalformedAnomaly_clean h _ c
    · split
      · exact checkMalformedAnomaly_clean h _ c
      · exact h
  · exact h

theorem turn_clean (ord : PendingOrder) (c : Delivery) (didProcess : Bool) :
    ReturnsIf False (turn ord c didProcess s flow) fun w => Clean w.2.1.findings.kept := by
  unfold turn
  simp only
  split
  · exact .pure (settleShort_clean h flow c didProcess)
  · split
    · exact .pure (checkMalformedAnomaly_clean h _ c)
    · split
      · exact .pure (checkMalformedAnomaly_clean h _ c)
      · split
        · exact .pure h
        · split
          · exact .pure (checkMalformedAnomaly_clean h _ c)
          · exact (processFrame_clean h flow ord c _ _).bind fun w hw => .pure hw

omit h in
theorem walk_clean (ord : PendingOrder) (c : Delivery) (turns : Nat) (didProcess : Bool)
    {s : Dnp3Analyzer} (h : Clean s.findings.kept) (flow : Dnp3FlowState) :
    ReturnsIf False (walk ord c turns didProcess s flow) fun w => Clean w.1.findings.kept := by
  induction turns generalizing didProcess s flow with
  | zero => exact .pure h
  | succ turns ih =>
    refine (turn_clean h flow ord c didProcess).bind fun ⟨again, s', flow'⟩ hw => ?_
    cases again with
    | true => exact ih true hw flow'
    | false => exact .pure hw

theorem accumulate_clean (c : Delivery) (data : List UInt8) :
    ReturnsIf False (accumulate c data s flow) fun w => Clean w.1.findings.kept := by
  unfold accumulate
  refine (returnsIf_true _).bind fun remaining _ => ?_
  split
  · exact .pure (checkMalformedAnomaly_clean h _ c)
  · exact .pure h

theorem onFlowData_clean (ord : PendingOrder) (c : Delivery) (data : List UInt8) :
    ReturnsIf False (onFlowData ord c data s flow) fun w => Clean w.1.findings.kept := by
  unfold onFlowData
  split
  · exact .pure h
  · split
    · exact .pure h
    · refine (scanBlockTimeouts_clean h _ c).bind fun w hw => ?_
      refine (accumulate_clean hw _ c data).bind fun w' hw' => ?_
      exact walk_clean ord c _ false hw' _

theorem dnp3_clean (ord : PendingOrder) (c : Dispatcher.Chunk) :
    ReturnsIf False ((dnp3 ord).onData s c) fun s' => Clean s'.findings.kept := by
  change ReturnsIf False (Dnp3.onData ord s c.flowKey c.data c.timestamp c.direction) _
  unfold Dnp3.onData
  exact (onFlowData_clean h _ ord _ c.data).bind fun w hw => .pure hw

theorem dnp3_close_clean (flowKey : FlowKey) :
    Clean (Dnp3.onFlowClose s flowKey).findings.kept := by
  unfold Dnp3.onFlowClose
  split <;> exact h

end Dnp3

/-! ## EtherNet/IP -/

section Enip

open Wirerust.Enip

variable {s : EnipAnalyzer} (h : Clean s.findings.kept) (flow : EnipFlowState) (c : Delivery)

theorem enip_ite_clean {p : Prop} [Decidable p] {x y : EnipAnalyzer × EnipFlowState}
    (hx : Clean x.1.findings.kept) (hy : Clean y.1.findings.kept) :
    Clean (if p then x else y).1.findings.kept := by
  split
  · exact hx
  · exact hy

include h

theorem enip_emit_clean {f : Finding} (hf : Catalogued f) :
    Clean (Enip.emit s f).findings.kept := h.push hf

theorem checkT0814_clean : Clean (checkT0814 c s flow).1.findings.kept := by
  unfold checkT0814
  refine enip_ite_clean ?_ h
  exact enip_emit_clean h rfl

theorem detectListIdentity_clean (header : EnipHeader) :
    Clean (detectListIdentity c header s flow).1.findings.kept := by
  unfold detectListIdentity
  refine enip_ite_clean ?_ h
  exact enip_emit_clean h rfl

theorem detectErrorBurst_clean (total : Nat) :
    Clean (detectErrorBurst c s flow total).1.findings.kept := by
  unfold detectErrorBurst
  refine enip_ite_clean ?_ h
  exact enip_emit_clean h rfl

theorem processResponse_clean (itemData : List UInt8) :
    ReturnsIf False (processResponse c s flow itemData) fun w => Clean w.1.findings.kept := by
  unfold processResponse
  simp only
  split
  · exact .pure h
  · split
    · refine (returnsIf_true _).bind fun counts _ => (returnsIf_true _).bind fun total _ => ?_
      refine .pure (detectErrorBurst_clean ?_ _ c total)
      exact h
    · exact .pure h

theorem detectIdentityRead_clean (cip : CipHeader) (serviceClass : CipServiceClass) :
    Clean (detectIdentityRead c cip serviceClass s).findings.kept := by
  unfold detectIdentityRead
  split
  · split
    · exact enip_emit_clean h rfl
    · exact h
  · exact h

theorem detectCommand_clean (header : EnipHeader) (cip : CipHeader)
    (serviceClass wanted : CipServiceClass) (summary name : String) {technique : String}
    (ht : known [technique] = true) :
    Clean (detectCommand c header cip serviceClass s wanted summary name
      technique).findings.kept := by
  unfold detectCommand
  split
  · exact enip_emit_clean h ht
  · exact h

theorem detectWriteBurst_clean (header : EnipHeader) (cip : CipHeader)
    (serviceClass : CipServiceClass) :
    Clean (detectWriteBurst c header cip serviceClass s flow).1.findings.kept := by
  have hcounted :
      Clean ({ s with writeCount := bump64 s.writeCount } : EnipAnalyzer).findings.kept := h
  unfold detectWriteBurst
  refine enip_ite_clean (enip_ite_clean ?_ h) h
  exact enip_emit_clean hcounted rfl

theorem detectConnection_clean (header : EnipHeader) (cip : CipHeader)
    (serviceClass : CipServiceClass) :
    Clean (detectConnection c header cip serviceClass s flow).1.findings.kept := by
  unfold detectConnection
  refine enip_ite_clean ?_ (enip_ite_clean ?_ h)
  · exact enip_emit_clean h rfl
  · exact enip_emit_clean h rfl

theorem processRequest_clean (header : EnipHeader) (cip : CipHeader)
    (serviceClass : CipServiceClass) :
    Clean (processRequest c header cip serviceClass s flow).1.findings.kept := by
  have hread := detectIdentityRead_clean h c cip serviceClass
  have hstop : Clean (detectStop c header cip serviceClass _).findings.kept :=
    detectCommand_clean hread c header cip serviceClass _ _ _ rfl
  have hreset : Clean (detectReset c header cip serviceClass _).findings.kept :=
    detectCommand_clean hstop c header cip serviceClass _ _ _ rfl
  have hburst := detectWriteBurst_clean hreset flow c header cip serviceClass
  exact detectConnection_clean hburst _ c header cip serviceClass

omit h in
theorem processItem_clean (header : EnipHeader) {w : EnipAnalyzer × EnipFlowState}
    (hw : Clean w.1.findings.kept) (item : CpfItem) :
    ReturnsIf False (processItem c header w item) fun w' => Clean w'.1.findings.kept := by
  unfold processItem
  split
  · exact .pure hw
  · split
    · exact .pure hw
    · simp only
      split
      · exact processResponse_clean hw _ c _
      · exact .pure (processRequest_clean hw _ c header _ _)

omit h in
theorem processPdu_clean {w : EnipAnalyzer × EnipFlowState} (hw : Clean w.1.findings.kept)
    (pdu : List UInt8) :
    ReturnsIf False (processPdu c w pdu) fun w' => Clean w'.1.findings.kept := by
  unfold processPdu
  split
  · exact .pure hw
  · simp only
    split
    · exact ⟨False.elim, fun _ heq => by cases heq⟩
    · split
      · exact .pure (detectListIdentity_clean hw _ c _)
      · split
        · exact .pure hw
        · exact run_returnsIf _ hw fun _ item hI => processItem_clean c _ hI item
      · split
        · exact .pure hw
        · exact run_returnsIf _ hw fun _ item hI => processItem_clean c _ hI item
      · exact .pure hw

omit h in
theorem queue_clean {w : EnipAnalyzer × EnipFlowState} (hw : Clean w.1.findings.kept)
    (queue : List (List UInt8)) :
    ReturnsIf False (run (processPdu c) w queue) fun w' => Clean w'.1.findings.kept :=
  run_returnsIf queue hw fun _ pdu hI => processPdu_clean c hI pdu

theorem rejectFrame_clean (command : UInt16) :
    ReturnsIf False (rejectFrame c command s flow) fun w => Clean w.1.findings.kept := by
  refine (returnsIf_true _).bind fun counted _ => .pure ?_
  exact checkT0814_clean h _ c

omit h in
theorem enip_walk_clean (turns : Nat) {s : EnipAnalyzer} (h : Clean s.findings.kept)
    (flow : EnipFlowState) (buf : List UInt8) :
    ReturnsIf False (Enip.walk c turns s flow buf) fun w => Clean w.analyzer.findings.kept := by
  induction turns generalizing s flow buf with
  | zero => exact .pure h
  | succ turns ih =>
    unfold Enip.walk
    split
    · exact .pure h
    · split
      · exact ⟨False.elim, fun _ heq => by cases heq⟩
      · split
        · exact (rejectFrame_clean h flow c _).bind fun w hw => ih hw _ _
        · simp only
          split
          · exact (rejectFrame_clean h flow c _).bind fun w hw => ih hw _ _
          · split
            · exact .pure h
            · exact (returnsIf_true _).bind fun flow' _ => (ih h _ _).bind fun w hw => .pure hw

omit h in
theorem stash_clean {w : Walked} (hw : Clean w.analyzer.findings.kept) :
    Clean (Enip.stash c w).1.findings.kept := by
  unfold Enip.stash
  simp only
  refine enip_ite_clean ?_ hw
  exact checkT0814_clean hw _ c

theorem enip_clean (chunk : Dispatcher.Chunk) :
    ReturnsIf False (enip.onData s chunk) fun s' => Clean s'.findings.kept := by
  change ReturnsIf False
    (Enip.onData s ⟨chunk.flowKey, chunk.timestamp, chunk.direction⟩ chunk.data) _
  unfold Enip.onData
  simp only
  split
  · exact .pure h
  · refine (enip_walk_clean _ _ ?_ _ _).bind fun w hw => ?_
    · exact h
    · exact (queue_clean _ (stash_clean _ hw) _).bind fun w' hw' => .pure hw'

theorem enip_close_clean (flowKey : FlowKey) :
    Clean (Enip.onFlowClose s flowKey).findings.kept := by
  unfold Enip.onFlowClose
  split <;> exact h

end Enip

/-! ## IEC 104 -/

section Iec104

open Wirerust.Iec104

variable (c : Delivery)

theorem uFrame_clean (flow : Iec104FlowState) (cf1 : UInt8) :
    ∀ f ∈ (uFrame c flow cf1).2, Catalogued f := by
  intro f hf
  unfold uFrame at hf
  split at hf
  · cases hf
  · split at hf
    · cases hf
      rfl
    · split at hf
      · cases hf
      · split at hf
        · cases hf
        · cases hf
          rfl

theorem processUFrame_clean (flow : Iec104FlowState) (cf1 : UInt8) :
    ReturnsIf False (processUFrame c flow cf1) fun r => Clean r.2.toList :=
  (returnsIf_true (assertThat (classifyFrameFormat cf1 = .uFormat))).bind fun _ _ =>
    .pure (clean_toList (uFrame_clean c flow cf1))

theorem detectIec104Threats_clean (asdu : Asdu) : Clean (detectIec104Threats c asdu) := by
  unfold detectIec104Threats
  simp only
  split
  · exact clean_one rfl
  · split
    · exact clean_two rfl rfl
    · split
      · exact clean_one rfl
      · split
        · exact clean_two rfl rfl
        · split
          · exact clean_one rfl
          · split
            · exact clean_one rfl
            · exact clean_nil

theorem asduThreats_clean (body : List UInt8) : Clean (asduThreats c body) := by
  unfold asduThreats
  split
  · exact detectIec104Threats_clean c _
  · exact clean_nil

theorem trackNsDesync_clean (flow : Iec104FlowState) (currentNs : UInt16) :
    Clean (trackNsDesync c flow currentNs).2 := by
  unfold trackNsDesync
  simp only
  split
  · exact clean_nil
  · exact clean_if rfl

theorem iec104_processFrame_clean (flow : Iec104FlowState) (frame : List UInt8) :
    ReturnsIf False (Iec104.processFrame c flow frame) fun w => Clean w.2 := by
  unfold Iec104.processFrame
  split
  · exact .pure clean_nil
  · simp only
    split
    · exact (processUFrame_clean c _ _).bind fun r hr => .pure hr
    · exact .pure ((asduThreats_clean c _).append (trackNsDesync_clean c _ _))
    · exact .pure clean_nil

theorem malformedLen_clean {w : Walking} (h : Clean w.findings) (len : UInt8) (position : Nat) :
    Clean (malformedLen c w len position).findings := by
  unfold malformedLen
  split
  · exact h.snoc rfl
  · exact h

theorem iec104_walk_clean (turns position : Nat) {w : Walking} (h : Clean w.findings)
    (buf : List UInt8) :
    ReturnsIf False (Iec104.walk c turns position w buf) fun w' => Clean w'.findings := by
  induction turns generalizing position w buf with
  | zero => exact .pure h
  | succ turns ih =>
    unfold Iec104.walk
    split
    · exact .pure h
    · split
      · exact ih _ h _
      · exact .pure h
    · split
      · exact ih _ h _
      · split
        · exact ih _ (malformedLen_clean c h _ position) _
        · simp only
          split
          · exact .pure h
          · exact (iec104_processFrame_clean c w.flow _).bind fun r hr => ih _ (h.append hr) _

theorem dropLongCarry_clean (flow : Iec104FlowState) : Clean (dropLongCarry c flow).findings := by
  unfold dropLongCarry
  simp only
  split
  · split
    · exact clean_one rfl
    · exact clean_nil
  · exact clean_nil

theorem mergeFindings_clean {log : Capped Finding} (h : Clean log.kept) {found : List Finding}
    (hfound : Clean found) : Clean (mergeFindings log found).kept := by
  unfold mergeFindings
  simp only
  split
  · exact h.append (hfound.take _)
  · exact h.append hfound

theorem iec104_clean {s : Iec104Analyzer} (h : Clean s.findings.kept) (chunk : Dispatcher.Chunk) :
    ReturnsIf False (iec104.onData s chunk) fun s' => Clean s'.findings.kept := by
  change ReturnsIf False
    (Iec104.onData s ⟨chunk.flowKey, chunk.timestamp, chunk.direction⟩ chunk.data) _
  unfold Iec104.onData
  simp only
  refine (iec104_walk_clean _ _ 0 ?_ _).bind fun w hw => .pure (mergeFindings_clean h hw)
  exact dropLongCarry_clean _ _

theorem iec104_close_clean {s : Iec104Analyzer} (h : Clean s.findings.kept) (flowKey : FlowKey) :
    Clean (Iec104.onFlowClose s flowKey).findings.kept := by
  unfold Iec104.onFlowClose
  split <;> exact h

end Iec104

/-! ## ARP -/

section Arp

open Wirerust.Arp

variable (ord : TableOrder) (s : ArpAnalyzer) (frame : ArpFrame) (timestampSecs : UInt32)

theorem checkMismatch_clean : Clean (checkMismatch s frame).2 := by
  unfold checkMismatch
  split
  · exact clean_one rfl
  · exact clean_nil

theorem detectStorm_clean (sourceMac : Mac) :
    ∀ f ∈ (detectStorm ord s sourceMac timestampSecs).2, Catalogued f := by
  intro f hf
  unfold detectStorm at hf
  simp only at hf
  split at hf
  · cases hf
  · split at hf
    · cases hf
      rfl
    · cases hf

theorem checkStorm_clean : Clean (checkStorm ord s frame timestampSecs).2 := by
  have hstorm := detectStorm_clean ord s timestampSecs frame.senderMac
  unfold checkStorm
  cases hdetect : detectStorm ord s frame.senderMac timestampSecs with
  | mk s' found =>
    rw [hdetect] at hstorm
    cases found with
    | none => exact clean_nil
    | some f => exact clean_one (hstorm f rfl)

theorem emitD1SpoofFinding_clean (entry : BindingEntry) (senderIp : Ipv4) (oldMac newMac : Mac)
    (spoofThreshold : UInt32) :
    ReturnsIf False
      (emitD1SpoofFinding entry senderIp oldMac newMac timestampSecs spoofThreshold)
      fun r => Catalogued r.2 := by
  unfold emitD1SpoofFinding
  refine (returnsIf_true _).bind fun firstTs _ => ?_
  refine returnsIf_ite ?_ ?_
  · exact .pure rfl
  · exact .pure rfl

theorem conflictingGarp_clean :
    ReturnsIf False (conflictingGarp s frame timestampSecs) fun r => Clean r.2 := by
  unfold conflictingGarp applyGarpConflictEscalation
  refine (returnsIf_true _).bind fun entry _ => ?_
  simp only [bind_assoc]
  refine (emitD1SpoofFinding_clean _ _ _ _ _ _).bind fun r hr => ?_
  simp only [ok_bind]
  refine (returnsIf_true _).bind fun entry' _ => .pure ?_
  exact clean_two rfl hr

theorem bindSender_clean :
    ReturnsIf False (bindSender ord s frame timestampSecs) fun r => Clean r.2 := by
  unfold bindSender
  split
  · simp only
    split
    · refine (emitD1SpoofFinding_clean _ _ _ _ _ _).bind fun r hr => ?_
      exact (returnsIf_true _).bind fun entry' _ => .pure (clean_one hr)
    · exact .pure clean_nil
  · exact .pure clean_nil

theorem checkBinding_clean :
    ReturnsIf False (checkBinding ord s frame timestampSecs) fun r => Clean r.2 := by
  unfold checkBinding
  split
  · split
    · exact conflictingGarp_clean s frame timestampSecs
    · exact .pure (clean_one rfl)
  · exact bindSender_clean ord s frame timestampSecs

theorem processArp_clean :
    ReturnsIf False (processArp ord s frame timestampSecs) fun r => Clean r.2 := by
  unfold processArp
  simp only
  split
  · exact .pure clean_nil
  · refine (checkBinding_clean ord _ frame timestampSecs).bind fun r hr => .pure ?_
    exact ((checkMismatch_clean _ frame).append (checkStorm_clean ord _ frame _)).append hr

theorem recordMalformed_clean (packetLen : Nat) : Clean (recordMalformed s packetLen).2 :=
  clean_one rfl

end Arp

/-! ## The reassembler -/

section Reassembler

open Wirerust.Alone Wirerust.Engine Wirerust.EngineSpec Wirerust.Moves

theorem insertionFindings_clean (config : ReassemblyConfig) (key : FlowKey) (srcIp : IpAddr)
    (timestamp : UInt32) (result : Segment.InsertResult) :
    Clean (insertionFindings config key srcIp timestamp result) := by
  unfold insertionFindings
  split
  · exact clean_one rfl
  · exact clean_one rfl
  · exact clean_nil

theorem payloadAlone_clean (config : ReassemblyConfig) (key : FlowKey) (f : TcpFlow)
    (p : FlowPacket) (timestamp : UInt32) :
    ReturnsIf False (payloadAlone config key f p timestamp) fun r => Clean r.2.findings := by
  unfold payloadAlone
  split
  · exact .pure clean_nil
  · refine (returnsIf_true _).bind fun inserted _ => (returnsIf_true _).bind fun flushed _ => ?_
    refine .pure ((insertionFindings_clean _ _ _ _ _).append fun f hf => ?_)
    obtain ⟨anomaly, -, rfl⟩ := List.mem_map.mp hf
    cases anomaly <;> rfl

theorem packetAlone_clean (config : ReassemblyConfig) (key : FlowKey) (f : TcpFlow)
    (p : FlowPacket) (timestamp : UInt32) :
    ReturnsIf False (packetAlone config key f p timestamp) fun out => Clean out.findings := by
  unfold packetAlone
  split
  · exact (returnsIf_true _).bind fun _ _ => .pure clean_nil
  · refine (payloadAlone_clean config key _ p timestamp).bind fun r hr => ?_
    simp only
    split
    · exact (returnsIf_true _).bind fun _ _ => .pure hr
    · exact .pure hr

theorem clean_of_tally {s s' : TcpReassembler} (h : Clean s.findings)
    (htally : tally s' = tally s) : Clean s'.findings := by
  have hfindings : s'.findings = s.findings := congrArg Capped.kept htally
  exact hfindings ▸ h

theorem processPacket_clean {ord : IterOrder} {s s' : TcpReassembler} (hr : Ready (view s))
    (h : Clean s.findings) {packet : ParsedPacket} {timestamp : UInt32}
    (hs' : processPacket ord s packet timestamp = .ok s') : Clean s'.findings := by
  rcases processPacket_eq_ok hr hs' with ⟨-, -, new, hdis, -⟩ |
    ⟨key, tcp, s₁, s₂, s₃, f, out, swept, evicted, -, hh, -⟩
  · exact clean_of_tally h hdis.tally
  · have hfound := (packetAlone_clean _ key f _ timestamp).2 out hh.alone
    have hbefore : Clean (tally s₂).kept := clean_of_tally h hh.tally
    refine clean_of_tally ?_ hh.after.tally
    change Clean (tally s₃).kept
    rw [hh.acts.tally]
    exact hbefore.pushAll hfound

theorem finalize_clean {ord : IterOrder} {s s' : TcpReassembler} (h : Clean s.findings)
    (hs' : finalize ord s = .ok s') : Clean s'.findings := by
  unfold finalize at hs'
  split at hs'
  · cases hs'
    exact h
  · obtain ⟨s₁, hloop, hlast⟩ := bind_eq_ok.mp hs'
    obtain ⟨new, hdis⟩ := foldlM_dismisses (fun t key t' ht => by
      obtain ⟨f, calls, hclosed⟩ := closeFlow_eq_ok ht
      exact ⟨calls, hclosed.dismissed rfl⟩) _ hloop
    have hclean : Clean s₁.findings := by
      have hsame : s₁.findings = s.findings := congrArg Capped.kept hdis.tally
      exact hsame ▸ h
    split at hlast
    · cases hlast
      exact hclean.snoc rfl
    · cases hlast
      exact hclean

end Reassembler

/-! ## The analyzers together -/

def techniques : Invariants where
  http := fun _ s => Clean s.findings
  tls := fun _ s => Clean s.findings
  modbus := fun _ s => Modbus.Sourced s
  dnp3 := fun _ s => Clean s.findings.kept
  enip := fun _ s => Clean s.findings.kept
  iec104 := fun _ s => Clean s.findings.kept

/-- An invariant that no number of bytes plays a part in. -/
theorem lasts_of_keeps {σ : Type} {m : Wiring.Streaming σ} {I : σ → Prop}
    (hdata : ∀ s c, I s → ReturnsIf False (m.onData s c) I)
    (hclose : ∀ s flowKey, I s → I (m.onFlowClose s flowKey)) :
    Lasts 0 m.step inputBytes fun _ => I where
  mono := fun _ _ _ _ h => h
  step := fun n s i h => by
    cases i with
    | data c => exact (hdata s c h).imp fun hlt => absurd hlt (Nat.not_lt_zero _)
    | close flowKey reason => exact .pure (hclose s flowKey h)

theorem techniques_last (libs : Libraries) : techniques.Last libs 0 where
  http := lasts_of_keeps (fun _ c h => http_clean libs.httparse h c) fun _ _ h => h
  tls := lasts_of_keeps (fun _ c h => tls_clean libs.tlsParser h c) fun _ _ h => h
  modbus := lasts_of_keeps (fun _ c h => modbus_sourced h c) fun _ _ h => h
  dnp3 := lasts_of_keeps (fun _ c h => dnp3_clean h libs.pendingOrder c) fun _ flowKey h =>
    dnp3_close_clean h flowKey
  enip := lasts_of_keeps (fun _ c h => enip_clean h c) fun _ flowKey h => enip_close_clean h flowKey
  iec104 := lasts_of_keeps (fun _ c h => iec104_clean h c) fun _ flowKey h =>
    iec104_close_clean h flowKey

end Wirerust.Techniques
