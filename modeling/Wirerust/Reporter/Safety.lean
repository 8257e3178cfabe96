import Wirerust.Lib.Avoid
import Wirerust.Reporter.Terminal

/-!
No text of a finding or of an analyzer can write a control character to the terminal, or start,
forge or remove a line of the report.

Without colours the report is its lines with a line feed after each (`render_plain`), and no line
has a control character (`reportLines_safe`). When every finding is written out, the number of
lines depends on the numbers of evidence lines, the techniques and the numbers of details only
(`length_reportLines`).
-/

namespace Wirerust.Terminal

open Lib Wirerust.Mitre

def ControlFree (s : String) : Prop := Avoids isControl s

instance (s : String) : Decidable (ControlFree s) := decidableAvoids isControl s

@[simp]
theorem controlFree_append (s t : String) :
    ControlFree (s ++ t) ↔ ControlFree s ∧ ControlFree t :=
  avoids_append s t

theorem isControl_digitChar (d : Nat) : isControl (Nat.digitChar d) = false := by
  have hsmall : ∀ d < 16, isControl (Nat.digitChar d) = false := by decide
  by_cases hd : d < 16
  · exact hsmall d hd
  · rw [Nat.digitChar_eq_star.mpr (Nat.not_lt.mp hd)]
    decide

theorem controlFree_toString (n : Nat) : ControlFree (toString n) :=
  avoids_toString isControl_digitChar n

/-! ## Escaped text -/

theorem not_control_of_all {cs : List Char} (h : (cs.all fun c => !isControl c) = true) :
    ∀ c ∈ cs, isControl c = false := by
  intro c hc
  simpa using List.all_eq_true.mp h c hc

theorem escapeDefault_safe (c : Char) : ∀ e ∈ escapeDefault c, isControl e = false := by
  unfold escapeDefault
  split_ifs with ht hr hn hq hd hb hprint
  iterate 6 exact not_control_of_all (by decide)
  · intro e he
    rw [List.mem_singleton.mp he, isControl]
    have hlow : ¬ c.toNat ≤ 0x1f := by omega
    have hhigh : ¬ 0x7f ≤ c.toNat := by omega
    simp [hlow, hhigh]
  · intro e he
    rcases List.mem_append.mp he with hmem | hmem
    · rcases List.mem_append.mp hmem with hopen | hdigits
      · exact not_control_of_all (by decide) e hopen
      · exact (avoids_ofList _).mp (avoids_toDigits isControl_digitChar (by decide) _) e hdigits
    · rw [List.mem_singleton.mp hmem]
      decide

theorem controlFree_escape (s : String) : ControlFree (escapeForTerminal s) := by
  refine (avoids_ofList _).mpr fun e he => ?_
  obtain ⟨c, -, hc⟩ := List.mem_flatMap.mp he
  rw [escapeChar] at hc
  split at hc
  · exact escapeDefault_safe c e hc
  · rename_i hkeep
    rw [List.mem_singleton.mp hc]
    have hboth : isControl c = false ∧ ¬ c = '\\' := by simpa using hkeep
    exact hboth.1

/-! ## The names the reporter knows -/

theorem controlFree_hexDigits (n : Nat) : ControlFree (IpAddr.hexDigits n) :=
  avoids_toDigits isControl_digitChar (by decide) n

theorem controlFree_showGroups (gs : List Nat) : ControlFree (IpAddr.showGroups gs) := by
  refine avoids_intercalate (by decide) fun s hs => ?_
  obtain ⟨g, -, rfl⟩ := List.mem_map.mp hs
  exact controlFree_hexDigits g

theorem controlFree_showV4 (addr : Nat) : ControlFree (IpAddr.showV4 addr) := by
  refine avoids_intercalate (by decide) fun s hs => ?_
  obtain ⟨i, -, rfl⟩ := List.mem_map.mp hs
  exact controlFree_toString _

theorem controlFree_showV6 (addr : Nat) : ControlFree (IpAddr.showV6 addr) := by
  unfold IpAddr.showV6
  simp only
  generalize IpAddr.zeroRun _ _ _ _ = run
  generalize IpAddr.groups addr = gs
  split
  · exact (controlFree_append _ _).mpr ⟨by decide, controlFree_showV4 _⟩
  · split
    · simp only [controlFree_append]
      exact ⟨⟨controlFree_showGroups _, by decide⟩, controlFree_showGroups _⟩
    · exact controlFree_showGroups _

theorem controlFree_display (ip : IpAddr) : ControlFree ip.display := by
  cases ip with
  | v4 a => exact controlFree_showV4 a.toNat
  | v6 a => exact controlFree_showV6 a.toNat

theorem controlFree_debug (p : Protocol) : ControlFree p.debug := by
  cases p with
  | other n =>
    rw [Protocol.debug, controlFree_append, controlFree_append]
    exact ⟨⟨by decide, controlFree_toString _⟩, by decide⟩
  | _ => decide

theorem controlFree_service (s : Service) : ControlFree s.name := by
  cases s <;> decide

theorem controlFree_tactic (t : MitreTactic) : ControlFree t.display := by
  cases t <;> decide

theorem controlFree_techniqueName {id name : String} (h : techniqueName id = some name) :
    ControlFree name := by
  have hall : ∀ t ∈ techniques, ControlFree t.2.1 := by decide +kernel
  obtain ⟨t, ht, rfl⟩ := techniqueName_mem h
  exact hall t ht

theorem controlFree_headerText (f : Finding) : ControlFree (headerText f) := by
  have hcategory : ControlFree (displayCategory f.category) := by
    cases f.category <;> decide
  have hverdict : ControlFree (displayVerdict f.verdict) := by
    cases f.verdict <;> decide
  have hconfidence : ControlFree (displayConfidence f.confidence) := by
    cases f.confidence <;> decide
  simp only [headerText, controlFree_append]
  refine ⟨⟨⟨⟨⟨⟨⟨?_, hcategory⟩, ?_⟩, hverdict⟩, ?_⟩, hconfidence⟩, ?_⟩, controlFree_escape _⟩
  all_goals decide

/-! ## Lines -/

/-- No line of the list has a control character. -/
def Safe (lines : List Line) : Prop := ∀ l ∈ lines, ControlFree l.text

@[simp]
theorem safe_nil : Safe [] := fun _ h => nomatch h

@[simp]
theorem safe_cons (l : Line) (lines : List Line) :
    Safe (l :: lines) ↔ ControlFree l.text ∧ Safe lines :=
  List.forall_mem_cons

@[simp]
theorem safe_append (ls ms : List Line) : Safe (ls ++ ms) ↔ Safe ls ∧ Safe ms :=
  List.forall_mem_append

theorem safe_map {α : Type} {xs : List α} {f : α → Line}
    (h : ∀ x ∈ xs, ControlFree (f x).text) : Safe (xs.map f) := by
  intro l hl
  obtain ⟨x, hx, rfl⟩ := List.mem_map.mp hl
  exact h x hx

theorem safe_flatMap {α : Type} {xs : List α} {f : α → List Line} (h : ∀ x ∈ xs, Safe (f x)) :
    Safe (xs.flatMap f) := by
  intro l hl
  obtain ⟨x, hx, hmem⟩ := List.mem_flatMap.mp hl
  exact h x hx l hmem

@[simp]
theorem controlFree_blank : ControlFree blank.text := by
  decide

theorem safe_section {title : String} (h : ControlFree title) : Safe (sectionLines title) := by
  have hrule : ControlFree (String.ofList (List.replicate 40 '─')) := by
    refine (avoids_ofList _).mpr fun c hc => ?_
    rw [List.eq_of_mem_replicate hc]
    decide
  simp only [sectionLines, safe_cons, Line.text, controlFree_append]
  exact ⟨⟨by decide, h⟩, hrule, safe_nil⟩

theorem safe_countLines {counts : List (String × Nat)} (h : ∀ e ∈ counts, ControlFree e.1) :
    Safe (countLines counts) := by
  refine safe_map fun e he => ?_
  simp only [Line.text, controlFree_append]
  exact ⟨⟨⟨by decide, h e ((List.mem_insertionSort _).mp he)⟩, by decide⟩, controlFree_toString _⟩

/-! ## Findings -/

theorem controlFree_evidence (ev : String) : ControlFree (evidenceLine ev).text := by
  simp only [evidenceLine, Line.text, controlFree_append]
  exact ⟨by decide, controlFree_escape ev⟩

theorem safe_prefixLines (f : Finding) : Safe (renderFindingPrefix f) := by
  simp only [renderFindingPrefix, safe_cons, Line.text, controlFree_append]
  exact ⟨⟨by decide, controlFree_headerText f⟩, safe_map fun ev _ => controlFree_evidence ev⟩

section Techniques

variable {f : Finding} (h : ∀ id ∈ f.mitreTechniques, ControlFree id)

include h

theorem controlFree_joinTechniques : ControlFree (joinTechniques f) :=
  avoids_intercalate (by decide) h

theorem safe_flatMitreLine : Safe (flatMitreLine f) := by
  rw [flatMitreLine]
  split
  · exact safe_nil
  · simp only [safe_cons, Line.text, controlFree_append]
    exact ⟨⟨by decide, controlFree_joinTechniques h⟩, safe_nil⟩

theorem safe_groupedMitreLine : Safe (groupedMitreLine f) := by
  rw [groupedMitreLine]
  split
  · exact safe_nil
  · split
    · rename_i name hname
      obtain ⟨id, -, hid⟩ := Option.bind_eq_some_iff.mp hname
      simp only [safe_cons, Line.text, controlFree_append]
      exact ⟨⟨⟨⟨by decide, controlFree_joinTechniques h⟩, by decide⟩,
        controlFree_techniqueName hid⟩, safe_nil⟩
    · simp only [safe_cons, Line.text, controlFree_append]
      exact ⟨⟨⟨by decide, controlFree_joinTechniques h⟩, by decide⟩, safe_nil⟩

theorem safe_flat : Safe (renderFindingFlat f) :=
  (safe_append _ _).mpr ⟨safe_prefixLines f, safe_flatMitreLine h⟩

theorem safe_grouped : Safe (renderFindingGrouped f) :=
  (safe_append _ _).mpr ⟨safe_prefixLines f, safe_groupedMitreLine h⟩

end Techniques

theorem safe_renderGroup {renderOne mitreLine : Finding → List Line} {members : List Finding}
    (hone : ∀ f ∈ members, Safe (renderOne f)) (hmitre : ∀ f ∈ members, Safe (mitreLine f)) :
    Safe (renderGroup renderOne mitreLine members) := by
  match members with
  | [] => exact safe_nil
  | [f] => exact hone f List.mem_cons_self
  | rep :: m :: rest =>
    simp only [renderGroup, renderCollapsed, List.cons_append, safe_cons, safe_append, Line.text,
      controlFree_append]
    refine ⟨⟨by decide, ⟨⟨controlFree_headerText rep, by decide⟩, controlFree_toString _⟩,
      by decide⟩, ?_, hmitre rep List.mem_cons_self⟩
    intro l hl
    obtain ⟨m', -, hm'⟩ := List.mem_filterMap.mp hl
    obtain ⟨ev, -, rfl⟩ := Option.map_eq_some_iff.mp hm'
    exact controlFree_evidence ev

/-- A collapsed list is safe if every finding of it is. -/
theorem safe_collapsed {renderOne mitreLine : Finding → List Line} {findings : List Finding}
    (hone : ∀ f ∈ findings, Safe (renderOne f)) (hmitre : ∀ f ∈ findings, Safe (mitreLine f)) :
    Safe ((collapseFindingsPassRefs findings).flatMap fun g =>
      renderGroup renderOne mitreLine g.2) := by
  refine safe_flatMap fun g hg => ?_
  have hmem : ∀ f ∈ g.2, f ∈ findings := fun f hf =>
    (groupBy_perm collapseKey findings).mem_iff.mp (List.mem_flatMap.mpr ⟨g, hg, hf⟩)
  exact safe_renderGroup (fun f hf => hone f (hmem f hf)) fun f hf => hmitre f (hmem f hf)

theorem safe_renderBuckets {renderItems : List (Finding × Nat) → List Line}
    {findings : List Finding}
    (h : ∀ items : List (Finding × Nat), (∀ e ∈ items, e.1 ∈ findings) → Safe (renderItems items)) :
    Safe (renderBuckets renderItems findings) := by
  have hbucket : ∀ (header : String) (tactic : Option MitreTactic), ControlFree header →
      Safe (renderBucket renderItems findings header tactic) := by
    intro header tactic hheader
    rw [renderBucket_eq]
    split
    · exact safe_nil
    · simp only [safe_cons, Line.text, controlFree_append]
      refine ⟨⟨by decide, hheader⟩, h _ fun e he => ?_⟩
      exact List.fst_mem_of_mem_zipIdx (mem_bucketItems.mp he).1
  rw [renderBuckets, safe_append]
  exact ⟨safe_flatMap fun t _ => hbucket _ _ (controlFree_tactic t), hbucket _ _ (by decide)⟩

theorem safe_renderFindings (mode : FindingsRender) {findings : List Finding}
    (h : ∀ f ∈ findings, ∀ id ∈ f.mitreTechniques, ControlFree id) :
    Safe (renderFindings mode findings) := by
  obtain ⟨grouping, collapse⟩ := mode
  cases grouping with
  | grouped =>
    cases collapse with
    | collapsed =>
      refine safe_renderBuckets fun items hitems => safe_collapsed ?_ ?_
      all_goals
        intro f hf
        obtain ⟨e, he, rfl⟩ := List.mem_map.mp hf
      · exact safe_grouped (h _ (hitems e he))
      · exact safe_groupedMitreLine (h _ (hitems e he))
    | expanded =>
      exact safe_renderBuckets fun items hitems =>
        safe_flatMap fun e he => safe_grouped (h _ (hitems e he))
  | flat =>
    cases collapse with
    | collapsed =>
      exact safe_collapsed (fun f hf => safe_flat (h f hf)) fun f hf => safe_flatMitreLine (h f hf)
    | expanded => exact safe_flatMap fun f hf => safe_flat (h f hf)

/-! ## The report -/

/-- What the reporter writes as it is has no control character. -/
structure Trusted {Json : Type} (findings : List Finding)
    (analyzers : List (AnalysisSummary Json)) : Prop where
  techniques : ∀ f ∈ findings, ∀ id ∈ f.mitreTechniques, ControlFree id
  names : ∀ a ∈ analyzers, ControlFree a.analyzerName
  keys : ∀ a ∈ analyzers, ∀ e ∈ a.detail.entries, ControlFree e.1

section Report

variable {Json : Type} (compact : Json → String) (r : TerminalReporter)

theorem safe_headerLines (summary : Summary) : Safe (headerLines summary) := by
  simp only [headerLines, safe_append, safe_cons, Line.text, controlFree_append]
  refine ⟨⟨⟨safe_section (by decide), ⟨⟨⟨⟨⟨by decide, controlFree_toString _⟩, by decide⟩,
    controlFree_toString _⟩, by decide⟩, controlFree_toString _⟩, safe_nil⟩, ?_⟩,
    controlFree_blank, safe_nil⟩
  split
  · simp only [safe_cons, Line.text, controlFree_append]
    exact ⟨⟨⟨by decide, controlFree_toString _⟩, by decide⟩, safe_nil⟩
  · exact safe_nil

theorem safe_hostLines (summary : Summary) : Safe (hostLines r summary) := by
  rw [hostLines]
  split
  · simp only [safe_append, safe_cons]
    refine ⟨⟨safe_section (by decide), safe_map fun host _ => ?_⟩, controlFree_blank, safe_nil⟩
    simp only [Line.text, controlFree_append]
    exact ⟨by decide, controlFree_display host⟩
  · exact safe_nil

theorem safe_protocolLines (summary : Summary) : Safe (protocolLines summary) := by
  simp only [protocolLines, safe_append, safe_cons]
  refine ⟨⟨safe_section (by decide), safe_countLines fun e he => ?_⟩, controlFree_blank, safe_nil⟩
  obtain ⟨e', -, rfl⟩ := List.mem_map.mp he
  exact controlFree_debug e'.1

theorem safe_serviceLines (summary : Summary) : Safe (serviceLines summary) := by
  rw [serviceLines]
  split
  · exact safe_nil
  · simp only [safe_append, safe_cons]
    refine ⟨⟨safe_section (by decide), safe_countLines fun e he => ?_⟩, controlFree_blank,
      safe_nil⟩
    obtain ⟨e', -, rfl⟩ := List.mem_map.mp he
    exact controlFree_service e'.1

theorem safe_findingLines {findings : List Finding}
    (h : ∀ f ∈ findings, ∀ id ∈ f.mitreTechniques, ControlFree id) :
    Safe (findingLines r findings) := by
  rw [findingLines]
  split
  · exact safe_nil
  · simp only [safe_append, safe_cons]
    exact ⟨⟨safe_section (by decide), safe_renderFindings r.render h⟩, controlFree_blank, safe_nil⟩

theorem safe_analyzerLines {a : AnalysisSummary Json} (hname : ControlFree a.analyzerName)
    (hkeys : ∀ e ∈ a.detail.entries, ControlFree e.1) : Safe (analyzerLines compact a) := by
  simp only [analyzerLines, safe_append, safe_cons, Line.text, controlFree_append]
  refine ⟨⟨⟨safe_section ((controlFree_append _ _).mpr ⟨by decide, hname⟩),
    ⟨by decide, controlFree_toString _⟩, safe_nil⟩, safe_map fun e he => ?_⟩, controlFree_blank,
    safe_nil⟩
  simp only [Line.text, controlFree_append]
  exact ⟨⟨⟨by decide, hkeys e he⟩, by decide⟩, controlFree_escape _⟩

theorem reportLines_safe (summary : Summary) {findings : List Finding}
    {analyzers : List (AnalysisSummary Json)} (h : Trusted findings analyzers) :
    Safe (reportLines compact r summary findings analyzers) := by
  simp only [reportLines, safe_append]
  exact ⟨⟨⟨⟨⟨safe_headerLines summary, safe_hostLines r summary⟩, safe_protocolLines summary⟩,
    safe_serviceLines summary⟩, safe_findingLines r h.techniques⟩,
    safe_flatMap fun a ha => safe_analyzerLines compact (h.names a ha) (h.keys a ha)⟩

theorem render_plain {r : TerminalReporter} (hcolor : r.useColor = false) (palette : Palette)
    (summary : Summary) (findings : List Finding) (analyzers : List (AnalysisSummary Json)) :
    render compact r palette summary findings analyzers =
      unlines ((reportLines compact r summary findings analyzers).map Line.text) := by
  rw [render, unlines, List.map_map, hcolor]
  congr 1
  refine List.map_congr_left fun l _ => ?_
  cases l <;> rfl

end Report

/-! ## The number of lines -/

/-- What the number of lines of a finding depends on. -/
def shape (f : Finding) : Nat × List String := (f.evidence.length, f.mitreTechniques)

def shapeLines (s : Nat × List String) : Nat := 1 + s.1 + if s.2.isEmpty then 0 else 1

theorem length_prefixLines (f : Finding) :
    (renderFindingPrefix f).length = 1 + f.evidence.length := by
  rw [renderFindingPrefix, List.length_cons, List.length_map, Nat.add_comm]

theorem length_flat (f : Finding) : (renderFindingFlat f).length = shapeLines (shape f) := by
  rw [renderFindingFlat, List.length_append, length_prefixLines, flatMitreLine]
  unfold shapeLines shape
  split <;> rfl

theorem length_grouped (f : Finding) : (renderFindingGrouped f).length = shapeLines (shape f) := by
  rw [renderFindingGrouped, List.length_append, length_prefixLines, groupedMitreLine]
  unfold shapeLines shape
  split
  · rfl
  · split <;> rfl

/-- The number of lines of a bucket, its header included. -/
def bucketLines (shapes : List (Nat × List String)) (tactic : Option MitreTactic) : Nat :=
  let members := shapes.filter fun s => s.2.head?.bind techniqueTactic = tactic
  if members = [] then 0 else 1 + (members.map shapeLines).sum

theorem length_bucket (findings : List Finding) (header : String) (tactic : Option MitreTactic) :
    (renderBucket (fun items => items.flatMap fun e => renderFindingGrouped e.1) findings header
      tactic).length = bucketLines (findings.map shape) tactic := by
  have hperm : ((bucketItems findings tactic).map fun e => shape e.1).Perm
      ((findings.map shape).filter fun s => s.2.head?.bind techniqueTactic = tactic) := by
    rw [List.filter_map]
    exact bucketItems_map_perm findings tactic shape
  rw [renderBucket_eq, bucketLines]
  by_cases hnil : bucketItems findings tactic = []
  · rw [hnil, List.map_nil, List.nil_perm] at hperm
    rw [if_pos hnil, if_pos hperm, List.length_nil]
  · have hne : ((findings.map shape).filter fun s =>
        s.2.head?.bind techniqueTactic = tactic) ≠ [] := by
      intro h
      rw [h, List.perm_nil, List.map_eq_nil_iff] at hperm
      exact hnil hperm
    rw [if_neg hnil, if_neg hne, List.length_cons, List.length_flatMap, Nat.add_comm,
      ← (hperm.map shapeLines).sum_nat, List.map_map]
    simp only [length_grouped]
    rfl

/-- The number of lines of the findings when each of them is written out. -/
def expandedLines (grouping : Grouping) (shapes : List (Nat × List String)) : Nat :=
  match grouping with
  | .flat => (shapes.map shapeLines).sum
  | .grouped =>
    (allTacticsInReportOrder.map fun t => bucketLines shapes (some t)).sum + bucketLines shapes none

theorem length_renderFindings (grouping : Grouping) (findings : List Finding) :
    (renderFindings ⟨grouping, .expanded⟩ findings).length =
      expandedLines grouping (findings.map shape) := by
  cases grouping with
  | grouped =>
    rw [renderFindings, renderFindingsGrouped, renderBuckets, List.length_append,
      List.length_flatMap, expandedLines]
    simp only [length_bucket]
  | flat =>
    rw [renderFindings, List.length_flatMap, expandedLines, List.map_map]
    simp only [length_flat]
    rfl

section Report

variable {Json : Type} (compact : Json → String)

/-- The number of details of all analyzers together. -/
def detailCount (analyzers : List (AnalysisSummary Json)) : Nat :=
  (analyzers.map fun a => a.detail.size).sum

theorem length_findingLines {r : TerminalReporter} (hmode : r.render.collapse = .expanded)
    {findings findings' : List Finding} (h : findings.map shape = findings'.map shape) :
    (findingLines r findings).length = (findingLines r findings').length := by
  have hrender : r.render = ⟨r.render.grouping, .expanded⟩ := by rw [← hmode]
  have hlen : findings.length = findings'.length := by
    simpa using congrArg List.length h
  rw [findingLines, findingLines]
  by_cases hnil : findings = []
  · have hnil' : findings' = [] := List.length_eq_zero_iff.mp (by rw [← hlen, hnil]; rfl)
    rw [hnil, hnil']
  · have hnil' : findings' ≠ [] := by
      intro hnil'
      exact hnil (List.length_eq_zero_iff.mp (by rw [hlen, hnil']; rfl))
    rw [if_neg (by simpa using hnil), if_neg (by simpa using hnil'), hrender]
    simp only [List.length_append, length_renderFindings, h]

theorem length_analyzerLines (analyzers : List (AnalysisSummary Json)) :
    (analyzers.flatMap (analyzerLines compact)).length =
      4 * analyzers.length + detailCount analyzers := by
  induction analyzers with
  | nil => rfl
  | cons a analyzers ih =>
    have hone : (analyzerLines compact a).length = 4 + a.detail.size := by
      simp only [analyzerLines, sectionLines, List.length_append, List.length_map,
        List.length_cons, List.length_nil, SortedMap.size]
      omega
    rw [List.flatMap_cons, List.length_append, hone, ih, detailCount, detailCount, List.map_cons,
      List.sum_cons, List.length_cons]
    omega

theorem length_reportLines {r : TerminalReporter} (hmode : r.render.collapse = .expanded)
    (summary : Summary) {findings findings' : List Finding}
    {analyzers analyzers' : List (AnalysisSummary Json)}
    (hshape : findings.map shape = findings'.map shape)
    (hanalyzers : analyzers.length = analyzers'.length)
    (hdetails : detailCount analyzers = detailCount analyzers') :
    (reportLines compact r summary findings analyzers).length =
      (reportLines compact r summary findings' analyzers').length := by
  simp only [reportLines, List.length_append, length_findingLines hmode hshape,
    length_analyzerLines, hanalyzers, hdetails]

/-- The line feeds of the report are those the reporter writes, one for each of its lines. -/
theorem count_render {r : TerminalReporter} (hcolor : r.useColor = false) (palette : Palette)
    (summary : Summary) {findings : List Finding} {analyzers : List (AnalysisSummary Json)}
    (h : Trusted findings analyzers) :
    (render compact r palette summary findings analyzers).toList.count '\n' =
      (reportLines compact r summary findings analyzers).length := by
  rw [render_plain compact hcolor, count_unlines, List.length_map]
  intro l hl hnewline
  obtain ⟨line, hline, rfl⟩ := List.mem_map.mp hl
  exact absurd (reportLines_safe compact r summary h line hline '\n' hnewline) (by decide)

/-- No text of a finding and no value of an analyzer can put a control character on the terminal,
and in the expanded modes none can change the number of lines. -/
theorem render_no_injection (r : TerminalReporter) (hcolor : r.useColor = false)
    (palette : Palette) (summary : Summary) (findings : List Finding)
    (analyzers : List (AnalysisSummary Json)) (htrusted : Trusted findings analyzers) :
    (render compact r palette summary findings analyzers =
        unlines ((reportLines compact r summary findings analyzers).map Line.text) ∧
      (∀ l ∈ reportLines compact r summary findings analyzers, ControlFree l.text) ∧
      ∀ c ∈ (render compact r palette summary findings analyzers).toList,
        isControl c → c = '\n') ∧
    (r.render.collapse = .expanded →
      ∀ (findings' : List Finding) (analyzers' : List (AnalysisSummary Json)),
        Trusted findings' analyzers' →
        findings.map shape = findings'.map shape →
        analyzers.length = analyzers'.length →
        detailCount analyzers = detailCount analyzers' →
        (render compact r palette summary findings analyzers).toList.count '\n' =
          (render compact r palette summary findings' analyzers').toList.count '\n') := by
  have hplain := render_plain compact hcolor palette summary findings analyzers
  have hsafe := reportLines_safe compact r summary htrusted
  refine ⟨⟨hplain, hsafe, ?_⟩, ?_⟩
  · intro c hc hcontrol
    rw [hplain, unlines, String.toList_join, List.map_map] at hc
    obtain ⟨text, htext, hmem⟩ := List.mem_flatMap.mp hc
    obtain ⟨line, hline, rfl⟩ := List.mem_map.mp htext
    rw [Function.comp_apply, String.toList_append] at hmem
    rcases List.mem_append.mp hmem with hin | hend
    · rw [hsafe line hline c hin] at hcontrol
      cases hcontrol
    · exact List.mem_singleton.mp hend
  · intro hmode findings' analyzers' htrusted' hshape hanalyzers hdetails
    rw [count_render compact hcolor palette summary htrusted,
      count_render compact hcolor palette summary htrusted']
    exact length_reportLines compact hmode summary hshape hanalyzers hdetails

end Report

/-- A finding with two lines of evidence. -/
def scanFinding (summary first second : String) : Finding where
  category := .reconnaissance
  verdict := .likely
  confidence := .high
  summary := summary
  evidence := [first, second]
  mitreTechniques := ["T1046"]
  sourceIp := none
  timestamp := none
  direction := none

def hostsAnalyzer (host : String) : AnalysisSummary String where
  analyzerName := "HTTP"
  packetsAnalyzed := 1
  detail := SortedMap.empty.insert "top_hosts" host

theorem trusted_scan (summary first second host : String) :
    Trusted [scanFinding summary first second] [hostsAnalyzer host] where
  techniques f hf id hid := by
    rw [List.mem_singleton.mp hf] at hid
    rw [List.mem_singleton.mp hid]
    decide
  names a ha := by
    rw [List.mem_singleton.mp ha]
    exact (by decide : ControlFree "HTTP")
  keys a ha e he := by
    rw [List.mem_singleton.mp ha] at he
    rw [List.mem_singleton.mp he]
    exact (by decide : ControlFree "top_hosts")

def scanReport (summary first second host : String) : String :=
  render (fun s => s) ⟨false, true, ⟨.grouped, .expanded⟩⟩ (fun _ s => s) .new
    [scanFinding summary first second] [hostsAnalyzer host]

/-- An escape sequence and a forged line against plain texts. -/
theorem render_no_injection_forged :
    (∀ c ∈ (scanReport "\x1b[2J" "a\n  [Anomaly] LIKELY" "b" "h\n").toList,
      isControl c → c = '\n') ∧
    (scanReport "\x1b[2J" "a\n  [Anomaly] LIKELY" "b" "h\n").toList.count '\n' =
      (scanReport "scan" "a" "b" "h").toList.count '\n' := by
  obtain ⟨⟨-, -, hcontrol⟩, hcount⟩ := render_no_injection (fun s : String => s)
    ⟨false, true, ⟨.grouped, .expanded⟩⟩ rfl (fun _ s => s) .new _ _
    (trusted_scan "\x1b[2J" "a\n  [Anomaly] LIKELY" "b" "h\n")
  exact ⟨hcontrol, hcount rfl _ _ (trusted_scan "scan" "a" "b" "h") rfl rfl rfl⟩

end Wirerust.Terminal
