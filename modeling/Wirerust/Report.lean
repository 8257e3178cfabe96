import Wirerust.RunCounts

/-!
What `run_analyze` writes to the terminal.

The report of a run is the report of its findings and summaries, with the section on coverage gaps
behind it if it was asked for. `runAnalyze_catalogued` says that the techniques of the findings are
in the catalog, so the report knows names and tactics for all of them, and `runAnalyze_output` that
the report is written and no packet puts a control character into it.
`analyzeToTerminal_returns_iff` says when a run with its report panics.
-/

namespace Wirerust.Report

open Lib Wirerust.AnalyzeLoop Wirerust.Analyzer Wirerust.Engine Wirerust.Gaps Wirerust.Mitre
  Wirerust.RunAnalyze Wirerust.RunCounts Wirerust.RunLoop Wirerust.RunSummaries
  Wirerust.RunTechniques Wirerust.Techniques Wirerust.Terminal Wirerust.Wiring
open Wirerust.Pipelines hiding runAnalyze

/-! ## The text -/

section Output

variable {libs : Libraries} (compact : Detail → String) (palette : Palette)

/-- `analyze` never shows the hosts. -/
def reporter (useColor : Bool) (mode : FindingsRender) : TerminalReporter where
  useColor := useColor
  showHostsBreakdown := false
  render := mode

def gapsSection (o : Options) (s : Analysis (analyzers libs)) : Checked String :=
  if o.coverageGaps then do
    let all ← collectAllGaps s.dispatcher.unclassifiedPortCounts s.udpUnclassifiedCounts
    .ok (renderCoverageGapsTerminal all)
  else .ok ""

def terminalOutput (useColor : Bool) (mode : FindingsRender) (o : Options)
    (s : Analysis (analyzers libs)) : Checked String := do
  let summaries ← analyzerSummaries o s
  let gaps ← gapsSection o s
  .ok (render compact (reporter useColor mode) palette s.summary s.allFindings summaries ++ gaps)

/-- A run and the text that it writes. -/
def analyzeToTerminal (lib : Decoder.Etherparse) (libs : Libraries) (ord : Pipelines.Orders)
    (useColor : Bool) (mode : FindingsRender) (o : Options) (targets : List Target) :
    Checked (Except String String) := do
  match ← runAnalyze lib libs ord o targets with
  | .error message => .ok (.error message)
  | .ok s => do
    let text ← terminalOutput compact palette useColor mode o s
    .ok (.ok text)

end Output

/-! ## Techniques -/

/-- Every finding of a report can be named and be put under a tactic. -/
theorem runAnalyze_catalogued (lib : Decoder.Etherparse) (libs : Libraries)
    (ord : Pipelines.Orders) (o : Options) (targets : List Target)
    {s : Analysis (analyzers libs)} (h : runAnalyze lib libs ord o targets = .ok (.ok s)) :
    ∀ f ∈ s.allFindings,
      (∀ id ∈ f.mitreTechniques, ∃ name tactic, techniqueInfo id = some (name, tactic)) ∧
        (findingTactic f = none ↔ f.mitreTechniques = []) := by
  intro f hf
  have hknown : ∀ id ∈ f.mitreTechniques,
      ∃ name tactic, techniqueInfo id = some (name, tactic) := by
    intro id hid
    have hsome := List.all_eq_true.mp (runAnalyze_clean h f hf) id hid
    obtain ⟨⟨name, tactic⟩, hinfo⟩ := Option.isSome_iff_exists.mp hsome
    exact ⟨name, tactic, hinfo⟩
  refine ⟨hknown, fun hnone => ?_, fun hnil => ?_⟩
  · cases htechniques : f.mitreTechniques with
    | nil => rfl
    | cons id ids =>
      obtain ⟨name, tactic, hinfo⟩ := hknown id (htechniques ▸ List.mem_cons_self)
      have htactic : findingTactic f = some tactic := by
        rw [findingTactic, htechniques, List.head?_cons, Option.bind_some, techniqueTactic, hinfo]
        rfl
      rw [hnone] at htactic
      cases htactic
  · rw [findingTactic, hnil]
    rfl

/-- Two segments that do not agree on a byte. -/
def conflictFile : CaptureFile :=
  .ok ⟨[tcpFrame false [0, 0, 0, 7] 0x02 [],
    tcpFrame false [0, 0, 0, 10] 0x10 [3],
    tcpFrame false [0, 0, 0, 10] 0x10 [4]], .raw, 0, 0, false⟩

theorem runAnalyze_catalogued_conflict : ∃ s,
    runAnalyze Survival.plainIp Survival.plainLibraries plainOrders
      (Survival.allAnalyzers 10 (by decide)) [.ok [conflictFile]] = .ok (.ok s) ∧
    s.allFindings.map Finding.mitreTechniques = [["T1036"]] ∧
    ∀ f ∈ s.allFindings,
      (∀ id ∈ f.mitreTechniques, ∃ name tactic, techniqueInfo id = some (name, tactic)) ∧
        (findingTactic f = none ↔ f.mitreTechniques = []) := by
  have hreturns : Returns (runAnalyze Survival.plainIp Survival.plainLibraries plainOrders
      (Survival.allAnalyzers 10 (by decide)) [.ok [conflictFile]])
      fun r => Returns r fun s => s.allFindings.map Finding.mitreTechniques = [["T1036"]] := by
    decide +kernel
  obtain ⟨_, hs, s, rfl, hfound⟩ := hreturns
  exact ⟨s, hs, hfound, runAnalyze_catalogued Survival.plainIp Survival.plainLibraries plainOrders
    (Survival.allAnalyzers 10 (by decide)) [.ok [conflictFile]] hs⟩

/-! ## Control characters -/

theorem controlFree_of_known {id : String} (h : (techniqueInfo id).isSome) : ControlFree id := by
  have hall : ∀ t ∈ Mitre.techniques, ControlFree t.1 := by decide +kernel
  obtain ⟨info, hinfo⟩ := Option.isSome_iff_exists.mp h
  obtain ⟨pre, post, hsplit, -⟩ := List.lookup_eq_some_iff.mp hinfo
  exact hall (id, info) (by rw [hsplit]; simp)

theorem trusted_of_clean {findings : List Finding} (hclean : Clean findings)
    {reports : List RunSummaries.Report} (hnamed : ∀ r ∈ reports, Named r) :
    Trusted findings reports where
  techniques := fun f hf id hid =>
    controlFree_of_known (List.all_eq_true.mp (hclean f hf) id hid)
  names := fun r hr => (hnamed r hr).name
  keys := fun r hr => (hnamed r hr).keys

theorem unlines_append (lines lines' : List String) :
    unlines (lines ++ lines') = unlines lines ++ unlines lines' := by
  rw [unlines, List.map_append, String.join_append]
  rfl

theorem gapsSection_returns {lib : Decoder.Etherparse} {libs : Libraries} {ord : Pipelines.Orders}
    {o : Options} {targets : List Target} {s : Analysis (analyzers libs)}
    (h : runAnalyze lib libs ord o targets = .ok (.ok s)) :
    Returns (gapsSection o s) fun text =>
      ∃ lines, text = unlines lines ∧ ∀ line ∈ lines, ControlFree line := by
  unfold gapsSection
  split
  · exact (runAnalyze_gaps h).bind fun all _ => .pure ⟨gapLines all, rfl, gapLines_safe all⟩
  · exact .pure ⟨[], rfl, fun line hline => by cases hline⟩

/-- The control characters of a text of lines are the ends of its lines. -/
theorem control_unlines {lines : List String} (h : ∀ line ∈ lines, ControlFree line) :
    ∀ c ∈ (unlines lines).toList, isControl c → c = '\n' := by
  intro c hc hcontrol
  rw [unlines, String.toList_join] at hc
  obtain ⟨text, htext, hmem⟩ := List.mem_flatMap.mp hc
  obtain ⟨line, hline, rfl⟩ := List.mem_map.mp htext
  rw [String.toList_append] at hmem
  rcases List.mem_append.mp hmem with hin | hend
  · rw [h line hline c hin] at hcontrol
    cases hcontrol
  · exact List.mem_singleton.mp hend

/-- The report of a capture with less than 2^64 IP packets is written. -/
theorem terminalOutput_returns {lib : Decoder.Etherparse} {libs : Libraries}
    {ord : Pipelines.Orders} {o : Options} {targets : List Target} {s : Analysis (analyzers libs)}
    (h : runAnalyze lib libs ord o targets = .ok (.ok s))
    (hcount : (ipPackets (decodeOf lib) (filesOf targets)).length < 2 ^ 64)
    (compact : Detail → String) (palette : Palette) (useColor : Bool) (mode : FindingsRender) :
    ∃ text, terminalOutput compact palette useColor mode o s = .ok text := by
  obtain ⟨reports, hreports⟩ := runAnalyze_summaries h hcount
  obtain ⟨gaps, hgaps, -⟩ := gapsSection_returns h
  exact ⟨_, bind_eq_ok.mpr ⟨reports, hreports, bind_eq_ok.mpr ⟨gaps, hgaps, rfl⟩⟩⟩

/-- The report of every run is written, and its lines hold no control characters. -/
theorem runAnalyze_output (lib : Decoder.Etherparse) (libs : Libraries) (ord : Pipelines.Orders)
    (o : Options) (targets : List Target) {s : Analysis (analyzers libs)}
    (h : runAnalyze lib libs ord o targets = .ok (.ok s)) (compact : Detail → String)
    (palette : Palette) (mode : FindingsRender) :
    ((ipPackets (decodeOf lib) (filesOf targets)).length < 2 ^ 64 →
      ∃ text, terminalOutput compact palette false mode o s = .ok text) ∧
    ∀ text, terminalOutput compact palette false mode o s = .ok text →
      (∃ lines, text = unlines lines ∧ ∀ line ∈ lines, ControlFree line) ∧
        ∀ c ∈ text.toList, isControl c → c = '\n' := by
  refine ⟨fun hcount => terminalOutput_returns h hcount compact palette false mode,
    fun text htext => ?_⟩
  obtain ⟨reports, hreports, htext⟩ := bind_eq_ok.mp htext
  obtain ⟨gaps, hgap, htext⟩ := bind_eq_ok.mp htext
  cases htext
  have htrusted := trusted_of_clean (runAnalyze_clean h)
    (analyzerSummaries_named o s reports hreports)
  have hsafe := reportLines_safe compact (reporter false mode) s.summary htrusted
  obtain ⟨gapsLines, rfl, hgapsLines⟩ := (gapsSection_returns h).apply hgap
  have hlines : ∃ lines, render compact (reporter false mode) palette s.summary s.allFindings
      reports ++ unlines gapsLines = unlines lines ∧ ∀ line ∈ lines, ControlFree line := by
    rw [render_plain compact rfl, ← unlines_append]
    refine ⟨_, rfl, fun line hline => ?_⟩
    rcases List.mem_append.mp hline with hreport | hgap
    · obtain ⟨l, hl, rfl⟩ := List.mem_map.mp hreport
      exact hsafe l hl
    · exact hgapsLines line hgap
  refine ⟨hlines, ?_⟩
  obtain ⟨lines, heq, hlines⟩ := hlines
  rw [heq]
  exact control_unlines hlines

theorem runAnalyze_output_conflict : ∃ s text,
    runAnalyze Survival.plainIp Survival.plainLibraries plainOrders
      (Survival.allAnalyzers 10 (by decide)) [.ok [conflictFile]] = .ok (.ok s) ∧
    terminalOutput (fun _ => "") (fun _ t => t) false ⟨.grouped, .collapsed⟩
      (Survival.allAnalyzers 10 (by decide)) s = .ok text ∧
    (∃ lines, text = unlines lines ∧ ∀ line ∈ lines, ControlFree line) ∧
      ∀ c ∈ text.toList, isControl c → c = '\n' := by
  have hreturns : Returns (runAnalyze Survival.plainIp Survival.plainLibraries plainOrders
      (Survival.allAnalyzers 10 (by decide)) [.ok [conflictFile]])
      fun r => Returns r fun _ => True := by
    decide +kernel
  obtain ⟨_, hs, s, rfl, -⟩ := hreturns
  obtain ⟨hwritten, hsafe⟩ := runAnalyze_output Survival.plainIp Survival.plainLibraries
    plainOrders (Survival.allAnalyzers 10 (by decide)) [.ok [conflictFile]] hs (fun _ => "")
    (fun _ t => t) ⟨.grouped, .collapsed⟩
  have hcount : (ipPackets (decodeOf Survival.plainIp) (filesOf [.ok [conflictFile]])).length <
      2 ^ 64 := by
    decide +kernel
  obtain ⟨text, htext⟩ := hwritten hcount
  exact ⟨s, text, hs, htext, hsafe text htext⟩

/-! ## From the files to the text -/

theorem length_le_spent (packets : List Capture.RawPacket) :
    packets.length ≤ Lasts.spent Survival.packetCost packets := by
  induction packets with
  | nil => exact Nat.zero_le _
  | cons raw packets ih =>
    rw [Lasts.spent_cons, Survival.packetCost, List.length_cons]
    omega

theorem ipPackets_le_spent (decode : Pipelines.Decode) (files : List CaptureFile) :
    (ipPackets decode files).length ≤ Lasts.spent Survival.fileCost files := by
  induction files with
  | nil => exact Nat.zero_le _
  | cons file files ih =>
    have hfile : (ipPacketsOf decode file).length ≤ Survival.fileCost file := by
      cases file with
      | error e => exact Nat.le_refl 0
      | ok source => exact (List.length_filterMap_le _ _).trans (length_le_spent source.packets)
    rw [ipPackets, List.flatMap_cons, List.length_append, Lasts.spent_cons]
    exact Nat.add_le_add hfile ih

theorem filesOf_le_spent (decode : Pipelines.Decode) (targets : List Target) :
    (ipPackets decode (filesOf targets)).length ≤ Lasts.spent Survival.targetCost targets := by
  induction targets with
  | nil => exact Nat.zero_le _
  | cons target targets ih =>
    have htarget : (ipPackets decode (valueOr [] target)).length ≤ Survival.targetCost target := by
      cases target with
      | error message => exact Nat.le_refl 0
      | ok files => exact ipPackets_le_spent decode files
    rw [filesOf, List.flatMap_cons, ipPackets, List.flatMap_append, List.length_append,
      Lasts.spent_cons]
    exact Nat.add_le_add htarget ih

/-- A run panics, its report included, if and only if the limits of its reassembler do not fit
into a machine word. -/
theorem analyzeToTerminal_returns_iff {lib : Decoder.Etherparse} (hlib : Survival.Cuts lib)
    (libs : Libraries) (ord : Pipelines.Orders) (o : Options) {targets : List Target}
    (hsize : Lasts.spent Survival.targetCost targets < Endurance.capacity (Survival.hasModbus o))
    (compact : Detail → String) (palette : Palette) (useColor : Bool) (mode : FindingsRender) :
    (∃ r, analyzeToTerminal compact palette lib libs ord useColor mode o targets = .ok r) ↔
      (o.refusal = none → o.streams = true → Survival.Affordable o) := by
  rw [← Survival.runAnalyze_returns_iff hlib libs ord o hsize]
  constructor
  · rintro ⟨r, hr⟩
    obtain ⟨out, hout, -⟩ := bind_eq_ok.mp hr
    exact ⟨out, hout⟩
  · rintro ⟨out, hout⟩
    unfold analyzeToTerminal
    rw [hout]
    cases out with
    | error message => exact ⟨_, rfl⟩
    | ok s =>
      have hcount := (filesOf_le_spent (decodeOf lib) targets).trans_lt
        (hsize.trans_le (Endurance.capacity_le _))
      obtain ⟨text, htext⟩ := terminalOutput_returns hout hcount compact palette useColor mode
      exact ⟨_, bind_eq_ok.mpr ⟨_, rfl, bind_eq_ok.mpr ⟨text, htext, rfl⟩⟩⟩

end Wirerust.Report
