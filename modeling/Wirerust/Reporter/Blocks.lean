import Wirerust.Reporter.Terminal

/-!
No finding is lost or written twice when findings are grouped and collapsed.

The findings' part of the report is a list of sections, and a section is a header and a list of
blocks (`renderFindings_eq`). A block is one finding, or the findings of one collapse key. The
findings of all blocks are the findings of the capture, each with its place in the list, in
another order.
-/

namespace Wirerust.Terminal

open Lib Wirerust.Mitre

/-! ## Blocks and sections -/

/-- Findings with their place in the list, written as one entry of the report. -/
abbrev Block := List (Finding × Nat)

def blocksOf (collapse : Collapse) (items : List (Finding × Nat)) : List Block :=
  match collapse with
  | .expanded => items.map fun e => [e]
  | .collapsed => (groupBy (fun e => collapseKey e.1) items).map Prod.snd

def blockLines (grouping : Grouping) (block : Block) : List Line :=
  match grouping with
  | .grouped => renderGroup renderFindingGrouped groupedMitreLine (block.map Prod.fst)
  | .flat => renderGroup renderFindingFlat flatMitreLine (block.map Prod.fst)

/-- The header of a section, if it has one, is that of a tactic or of none. -/
structure Section where
  header : Option (Option MitreTactic)
  blocks : List Block

def headerName : Option MitreTactic → String
  | some tactic => tactic.display
  | none => "Uncategorized"

def Section.lines (grouping : Grouping) (s : Section) : List Line :=
  (match s.header with
    | some tactic => [.plain ("  ## " ++ headerName tactic)]
    | none => []) ++ s.blocks.flatMap (blockLines grouping)

def reportOrder : List (Option MitreTactic) := allTacticsInReportOrder.map some ++ [none]

def sections (mode : FindingsRender) (findings : List Finding) : List Section :=
  match mode.grouping with
  | .flat => [⟨none, blocksOf mode.collapse findings.zipIdx⟩]
  | .grouped =>
    (reportOrder.filter fun tactic => bucketItems findings tactic ≠ []).map fun tactic =>
      ⟨some tactic, blocksOf mode.collapse (bucketItems findings tactic)⟩

theorem nodup_reportOrder : reportOrder.Nodup := by
  decide

theorem mem_reportOrder (tactic : Option MitreTactic) : tactic ∈ reportOrder := by
  cases tactic with
  | none => exact List.mem_append_right _ (List.mem_singleton_self none)
  | some t => exact List.mem_append_left _ (List.mem_map_of_mem (mem_allTactics t))

/-! ## The sections are what is written -/

theorem blocksOf_expanded_lines (grouping : Grouping) (items : List (Finding × Nat)) :
    (blocksOf .expanded items).flatMap (blockLines grouping) = items.flatMap fun e =>
      match grouping with
      | .grouped => renderFindingGrouped e.1
      | .flat => renderFindingFlat e.1 := by
  rw [blocksOf, List.flatMap_map]
  cases grouping <;> rfl

theorem blocksOf_collapsed_lines (grouping : Grouping) (items : List (Finding × Nat)) :
    (blocksOf .collapsed items).flatMap (blockLines grouping) =
      (collapseFindingsPassRefs (items.map Prod.fst)).flatMap fun g =>
        match grouping with
        | .grouped => renderGroup renderFindingGrouped groupedMitreLine g.2
        | .flat => renderGroup renderFindingFlat flatMitreLine g.2 := by
  rw [blocksOf, collapseFindingsPassRefs, groupBy_map, List.flatMap_map, List.flatMap_map]
  cases grouping <;> rfl

theorem renderBuckets_eq (renderItems : List (Finding × Nat) → List Line)
    (findings : List Finding) : renderBuckets renderItems findings =
      (reportOrder.filter fun tactic => bucketItems findings tactic ≠ []).flatMap fun tactic =>
        .plain ("  ## " ++ headerName tactic) :: renderItems (bucketItems findings tactic) := by
  have hall : renderBuckets renderItems findings = reportOrder.flatMap fun tactic =>
      renderBucket renderItems findings (headerName tactic) tactic := by
    rw [renderBuckets, reportOrder, List.flatMap_append, List.flatMap_map, List.flatMap_singleton]
    rfl
  have hnone : ∀ tactic ∈ reportOrder, decide (bucketItems findings tactic ≠ []) = false →
      renderBucket renderItems findings (headerName tactic) tactic = [] := by
    intro tactic _ hnil
    rw [renderBucket_eq, if_pos (by simpa using hnil)]
  rw [hall, ← flatMap_filter_of_nil hnone]
  refine List.flatMap_congr fun tactic htactic => ?_
  have hitems : bucketItems findings tactic ≠ [] := by simpa using (List.mem_filter.mp htactic).2
  rw [renderBucket_eq, if_neg hitems]

theorem renderFindings_eq (mode : FindingsRender) (findings : List Finding) :
    renderFindings mode findings =
      (sections mode findings).flatMap (Section.lines mode.grouping) := by
  obtain ⟨grouping, collapse⟩ := mode
  cases grouping with
  | grouped =>
    rw [sections, List.flatMap_map]
    cases collapse with
    | collapsed =>
      rw [renderFindings, renderFindingsGroupedCollapsed, renderBuckets_eq]
      simp only [Section.lines, blocksOf_collapsed_lines, List.singleton_append]
    | expanded =>
      rw [renderFindings, renderFindingsGrouped, renderBuckets_eq]
      simp only [Section.lines, blocksOf_expanded_lines, List.singleton_append]
  | flat =>
    rw [sections, List.flatMap_singleton]
    simp only [Section.lines, List.nil_append]
    cases collapse with
    | collapsed => rw [blocksOf_collapsed_lines, List.zipIdx_map_fst]; rfl
    | expanded =>
      rw [blocksOf_expanded_lines, renderFindings]
      conv_lhs => rw [← List.zipIdx_map_fst 0 findings, List.flatMap_map]

/-! ## Every finding is in one block -/

theorem blocksOf_nonempty {collapse : Collapse} {items : List (Finding × Nat)} {b : Block}
    (h : b ∈ blocksOf collapse items) : b ≠ [] := by
  cases collapse with
  | collapsed =>
    obtain ⟨g, hg, rfl⟩ := List.mem_map.mp h
    exact groupBy_nonempty hg
  | expanded =>
    obtain ⟨e, -, rfl⟩ := List.mem_map.mp h
    exact List.cons_ne_nil e []

theorem blocksOf_sublist {collapse : Collapse} {items : List (Finding × Nat)} {b : Block}
    (h : b ∈ blocksOf collapse items) : b.Sublist items := by
  cases collapse with
  | collapsed =>
    obtain ⟨g, hg, rfl⟩ := List.mem_map.mp h
    rw [groupBy_eq] at hg
    obtain ⟨k, -, rfl⟩ := List.mem_map.mp hg
    exact List.filter_sublist
  | expanded =>
    obtain ⟨e, he, rfl⟩ := List.mem_map.mp h
    exact List.singleton_sublist.mpr he

theorem blocksOf_perm (collapse : Collapse) (items : List (Finding × Nat)) :
    (blocksOf collapse items).flatten.Perm items := by
  cases collapse with
  | collapsed =>
    rw [blocksOf, ← List.flatMap_def]
    exact groupBy_perm _ items
  | expanded =>
    rw [blocksOf, ← List.flatMap_def, List.flatMap_singleton']

/-- Put together from its buckets, a list is itself in another order. -/
theorem bucketItems_flatMap_perm (findings : List Finding) :
    ((reportOrder.filter fun tactic => bucketItems findings tactic ≠ []).flatMap
      (bucketItems findings)).Perm findings.zipIdx := by
  rw [flatMap_filter_of_nil fun tactic _ hnil => by simpa using hnil]
  have hfilter : (reportOrder.flatMap (bucketItems findings)).Perm
      (reportOrder.flatMap fun tactic =>
        findings.zipIdx.filter fun e => findingTactic e.1 = tactic) :=
    List.Perm.flatMap_left _ fun tactic _ => bucketItems_perm findings tactic
  exact hfilter.trans (flatMap_filter_perm (fun e : Finding × Nat => findingTactic e.1)
    nodup_reportOrder _ fun e _ => mem_reportOrder _)

theorem sections_perm (mode : FindingsRender) (findings : List Finding) :
    ((sections mode findings).flatMap Section.blocks).flatten.Perm findings.zipIdx := by
  rw [List.flatten_eq_flatMap, List.flatMap_assoc]
  simp only [← List.flatten_eq_flatMap]
  obtain ⟨grouping, collapse⟩ := mode
  cases grouping with
  | grouped =>
    rw [sections, List.flatMap_map]
    refine List.Perm.trans ?_ (bucketItems_flatMap_perm findings)
    exact List.Perm.flatMap_left _ fun tactic _ => blocksOf_perm collapse _
  | flat =>
    rw [sections, List.flatMap_singleton]
    exact blocksOf_perm collapse _

/-- The blocks of a section are those of a part of the findings. -/
theorem mem_sections {mode : FindingsRender} {findings : List Finding} {s : Section}
    (h : s ∈ sections mode findings) : ∃ items, s.blocks = blocksOf mode.collapse items := by
  obtain ⟨grouping, collapse⟩ := mode
  cases grouping with
  | grouped =>
    obtain ⟨tactic, -, rfl⟩ := List.mem_map.mp h
    exact ⟨bucketItems findings tactic, rfl⟩
  | flat =>
    rw [sections] at h
    rw [List.mem_singleton.mp h]
    exact ⟨findings.zipIdx, rfl⟩

/-! ## What a block prints -/

/-- The multiplicity as it is printed. -/
def suffix (n : Nat) : String := if n = 1 then "" else " (x" ++ toString n ++ ")"

theorem blockLines_head (grouping : Grouping) (e : Finding × Nat) (rest : Block) :
    (blockLines grouping (e :: rest)).head? =
      some (.colored "  " (findingStyle e.1) (headerText e.1 ++ suffix (rest.length + 1))) := by
  cases rest with
  | nil => cases grouping <;> simp [blockLines, renderGroup, renderFindingGrouped,
      renderFindingFlat, renderFindingPrefix, suffix]
  | cons e' rest =>
    cases grouping <;> simp [blockLines, renderGroup, renderCollapsed, suffix, String.append_assoc]

/-! ## The order of the blocks -/

theorem rankLe_total (a b : Finding × Nat) : rankLe a b ∨ rankLe b a := by
  unfold rankLe
  omega

theorem rankLe_trans {a b c : Finding × Nat} (hab : rankLe a b) (hbc : rankLe b c) :
    rankLe a c := by
  unfold rankLe at *
  omega

theorem bucketItems_sorted (findings : List Finding) (tactic : Option MitreTactic) :
    (bucketItems findings tactic).Pairwise rankLe := by
  have : Std.Total rankLe := ⟨rankLe_total⟩
  have : IsTrans (Finding × Nat) rankLe := ⟨fun _ _ _ => rankLe_trans⟩
  exact List.pairwise_insertionSort rankLe _

/-- The first findings of the blocks stand in the order of the list. -/
theorem blocksOf_heads (collapse : Collapse) (items : List (Finding × Nat)) :
    ((blocksOf collapse items).filterMap List.head?).Sublist items := by
  cases collapse with
  | collapsed =>
    rw [blocksOf, List.filterMap_map]
    exact heads_groupBy_sublist (fun e : Finding × Nat => collapseKey e.1) items
  | expanded =>
    have hsame : (blocksOf .expanded items).filterMap List.head? = items := by
      rw [blocksOf, List.filterMap_map]
      exact List.filterMap_some
    simp [hsame]

theorem zipIdx_ordered (findings : List Finding) :
    findings.zipIdx.Pairwise fun a b => a.2 < b.2 := by
  rw [← List.pairwise_map, List.zipIdx_map_snd]
  exact List.pairwise_lt_range'

/-- Findings of one rank stand in the order in which they were found. -/
theorem index_lt_of_rankLe {a b : Finding × Nat} (hkey : collapseKey a.1 = collapseKey b.1)
    (hrank : rankLe a b) (hne : a.2 ≠ b.2) : a.2 < b.2 := by
  have hverdict : a.1.verdict = b.1.verdict := congrArg CollapseKey.verdict hkey
  have hconfidence : a.1.confidence = b.1.confidence := congrArg CollapseKey.confidence hkey
  unfold rankLe at hrank
  rw [hverdict, hconfidence] at hrank
  omega

theorem blocksOf_key {items : List (Finding × Nat)} {b : Block}
    (h : b ∈ blocksOf .collapsed items) {e e' : Finding × Nat} (he : e ∈ b) (he' : e' ∈ b) :
    collapseKey e.1 = collapseKey e'.1 := by
  obtain ⟨g, hg, rfl⟩ := List.mem_map.mp h
  rw [groupBy_eq] at hg
  obtain ⟨k, -, rfl⟩ := List.mem_map.mp hg
  have hk := of_decide_eq_true (List.mem_filter.mp he).2
  have hk' := of_decide_eq_true (List.mem_filter.mp he').2
  exact hk.trans hk'.symm

/-- The findings of a block have one key. -/
theorem block_key {mode : FindingsRender} {findings : List Finding} {s : Section}
    (hs : s ∈ sections mode findings) {b : Block} (hb : b ∈ s.blocks) :
    ∀ e ∈ b, ∀ e' ∈ b, collapseKey e.1 = collapseKey e'.1 := by
  obtain ⟨items, hitems⟩ := mem_sections hs
  rw [hitems] at hb
  obtain ⟨grouping, collapse⟩ := mode
  cases collapse with
  | collapsed => exact fun e he e' he' => blocksOf_key hb he he'
  | expanded =>
    obtain ⟨single, -, rfl⟩ := List.mem_map.mp hb
    intro e he e' he'
    rw [List.mem_singleton.mp he, List.mem_singleton.mp he']

theorem mem_of_block {mode : FindingsRender} {findings : List Finding} {s : Section}
    (hs : s ∈ sections mode findings) {b : Block} (hb : b ∈ s.blocks) {e : Finding × Nat}
    (he : e ∈ b) : e.1 ∈ findings := by
  have hmem : e ∈ ((sections mode findings).flatMap Section.blocks).flatten :=
    List.mem_flatten.mpr ⟨b, List.mem_flatMap.mpr ⟨s, hs, hb⟩, he⟩
  have hzip := List.mem_map_of_mem (f := Prod.fst) ((sections_perm mode findings).mem_iff.mp hmem)
  rwa [List.zipIdx_map_fst] at hzip

theorem bucketItems_indices (findings : List Finding) (tactic : Option MitreTactic) :
    (bucketItems findings tactic).Pairwise fun a b => a.2 ≠ b.2 := by
  have hzip : findings.zipIdx.Pairwise fun a b => a.2 ≠ b.2 :=
    (zipIdx_ordered findings).imp fun h => Nat.ne_of_lt h
  exact ((bucketItems_perm findings tactic).pairwise_iff fun h => h.symm).mpr
    (hzip.sublist List.filter_sublist)

/-- The findings of a block keep the order in which they were found. -/
theorem block_ordered {mode : FindingsRender} {findings : List Finding} {s : Section}
    (hs : s ∈ sections mode findings) {b : Block} (hb : b ∈ s.blocks) :
    b.Pairwise fun x y => x.2 < y.2 := by
  obtain ⟨grouping, collapse⟩ := mode
  cases grouping with
  | grouped =>
    obtain ⟨tactic, -, rfl⟩ := List.mem_map.mp hs
    cases collapse with
    | collapsed =>
      change b ∈ blocksOf .collapsed (bucketItems findings tactic) at hb
      have hsub := blocksOf_sublist hb
      have hrank := (bucketItems_sorted findings tactic).sublist hsub
      have hne := (bucketItems_indices findings tactic).sublist hsub
      refine (hrank.and hne).imp_of_mem fun hx hy hboth => ?_
      exact index_lt_of_rankLe (blocksOf_key hb hx hy) hboth.1 hboth.2
    | expanded =>
      obtain ⟨e, -, rfl⟩ := List.mem_map.mp hb
      exact List.pairwise_singleton _ e
  | flat =>
    rw [sections] at hs
    rw [List.mem_singleton.mp hs] at hb
    exact (zipIdx_ordered findings).sublist (blocksOf_sublist hb)

/-! ## Nothing to collapse -/

/-- No two findings, in the grouped modes of one tactic, have the same key. -/
def DistinctKeys (grouping : Grouping) (findings : List Finding) : Prop :=
  match grouping with
  | .flat => (findings.map collapseKey).Nodup
  | .grouped =>
    ∀ tactic, ((findings.filter fun f => findingTactic f = tactic).map collapseKey).Nodup

theorem blocksOf_distinct {items : List (Finding × Nat)}
    (h : (items.map fun e => collapseKey e.1).Nodup) :
    blocksOf .collapsed items = blocksOf .expanded items := by
  rw [blocksOf, blocksOf, groupBy_of_nodup h, List.map_map]
  rfl

theorem bucketItems_keys {findings : List Finding} {tactic : Option MitreTactic}
    (h : ((findings.filter fun f => findingTactic f = tactic).map collapseKey).Nodup) :
    ((bucketItems findings tactic).map fun e => collapseKey e.1).Nodup := by
  exact (bucketItems_map_perm findings tactic collapseKey).nodup_iff.mpr h

theorem sections_distinct {grouping : Grouping} {findings : List Finding}
    (h : DistinctKeys grouping findings) :
    sections ⟨grouping, .collapsed⟩ findings = sections ⟨grouping, .expanded⟩ findings := by
  cases grouping with
  | grouped =>
    rw [sections, sections]
    refine List.map_congr_left fun tactic _ => ?_
    exact congrArg (Section.mk _) (blocksOf_distinct (bucketItems_keys (h tactic)))
  | flat =>
    have hkeys : (findings.zipIdx.map fun e => collapseKey e.1).Nodup := by
      rw [map_zipIdx]
      exact h
    rw [sections, sections, blocksOf_distinct hkeys]

/-! ## The account -/

/-- What the collapse pass makes of a list of findings. -/
structure Collapses (findings : List Finding)
    (groups : List (CollapseKey × List Finding)) : Prop where
  firstOccurrence : groups.map Prod.fst = (findings.map collapseKey).eraseDups
  nonempty : ∀ g ∈ groups, g.2 ≠ []
  inOrder : ∀ g ∈ groups, g.2.Sublist findings
  partition : (groups.flatMap Prod.snd).Perm findings
  shared : ∀ f ∈ findings, ∀ f' ∈ findings,
    (∃ g ∈ groups, f ∈ g.2 ∧ f' ∈ g.2) ↔ collapseKey f = collapseKey f'

theorem collapse_collapses (findings : List Finding) :
    Collapses findings (collapseFindingsPassRefs findings) where
  firstOccurrence := by
    rw [collapseFindingsPassRefs, groupBy_eq, List.map_map]
    exact List.map_id _
  nonempty _ hg := groupBy_nonempty hg
  inOrder g hg := by
    rw [collapseFindingsPassRefs, groupBy_eq] at hg
    obtain ⟨k, -, rfl⟩ := List.mem_map.mp hg
    exact List.filter_sublist
  partition := groupBy_perm collapseKey findings
  shared f hf f' hf' := by
    rw [collapseFindingsPassRefs, groupBy_eq]
    constructor
    · rintro ⟨g, hg, hfg, hfg'⟩
      obtain ⟨k, -, rfl⟩ := List.mem_map.mp hg
      have hk := of_decide_eq_true (List.mem_filter.mp hfg).2
      exact hk.trans (of_decide_eq_true (List.mem_filter.mp hfg').2).symm
    · intro hkey
      refine ⟨_, List.mem_map_of_mem (List.mem_eraseDups.mpr (List.mem_map_of_mem hf)), ?_, ?_⟩
      · exact List.mem_filter.mpr ⟨hf, decide_eq_true rfl⟩
      · exact List.mem_filter.mpr ⟨hf', decide_eq_true hkey.symm⟩

/-- Sections in which every finding has one block, and every block tells how many it has. -/
structure Accounts (mode : FindingsRender) (findings : List Finding) (ss : List Section) :
    Prop where
  written : renderFindings mode findings = ss.flatMap (Section.lines mode.grouping)
  members : (ss.flatMap Section.blocks).flatten.Perm findings.zipIdx
  inOrder : ∀ s ∈ ss, ∀ b ∈ s.blocks, b.Pairwise fun x y => x.2 < y.2
  printed : ∀ s ∈ ss, ∀ b ∈ s.blocks, ∃ e ∈ b.head?, (blockLines mode.grouping b).head? =
    some (.colored "  " (findingStyle e.1) (headerText e.1 ++ suffix b.length))
  total : ((ss.flatMap Section.blocks).map List.length).sum = findings.length

theorem sections_account (mode : FindingsRender) (findings : List Finding) :
    Accounts mode findings (sections mode findings) where
  written := renderFindings_eq mode findings
  members := sections_perm mode findings
  inOrder _ hs _ hb := block_ordered hs hb
  printed s hs b hb := by
    obtain ⟨items, hitems⟩ := mem_sections hs
    rw [hitems] at hb
    cases b with
    | nil => exact absurd rfl (blocksOf_nonempty hb)
    | cons e rest => exact ⟨e, rfl, blockLines_head mode.grouping e rest⟩
  total := by
    rw [← List.length_flatten, (sections_perm mode findings).length_eq, List.length_zipIdx]

/-- Sections under the headers of the tactics, in the order of the report. -/
structure Arranged (ss : List Section) : Prop where
  order : (ss.map Section.header).Sublist (reportOrder.map some)
  distinct : ((ss.filterMap Section.header).map headerName).Nodup
  tactic : ∀ s ∈ ss, ∃ tactic, s.header = some tactic ∧
    ∀ b ∈ s.blocks, ∀ e ∈ b, findingTactic e.1 = tactic
  sorted : ∀ s ∈ ss, (s.blocks.filterMap List.head?).Pairwise rankLe

theorem nodup_headerNames : (reportOrder.map headerName).Nodup := by
  decide

theorem sections_arranged (collapse : Collapse) (findings : List Finding) :
    Arranged (sections ⟨.grouped, collapse⟩ findings) where
  order := by
    rw [sections, List.map_map]
    exact List.filter_sublist.map some
  distinct := by
    rw [sections, List.filterMap_map]
    have hsame : (reportOrder.filter fun tactic => bucketItems findings tactic ≠ []).filterMap
        (Section.header ∘ fun tactic => ⟨some tactic, blocksOf collapse
          (bucketItems findings tactic)⟩) =
        reportOrder.filter fun tactic => bucketItems findings tactic ≠ [] :=
      List.filterMap_some
    rw [hsame]
    exact nodup_headerNames.sublist (List.filter_sublist.map headerName)
  tactic s hs := by
    obtain ⟨tactic, -, rfl⟩ := List.mem_map.mp hs
    refine ⟨tactic, rfl, fun b hb e he => ?_⟩
    exact (mem_bucketItems.mp ((blocksOf_sublist hb).subset he)).2
  sorted s hs := by
    obtain ⟨tactic, -, rfl⟩ := List.mem_map.mp hs
    exact (bucketItems_sorted findings tactic).sublist (blocksOf_heads collapse _)

/-- No finding is lost or written twice, in any mode. -/
theorem findings_accounted (findings : List Finding) :
    Collapses findings (collapseFindingsPassRefs findings) ∧
    (∀ mode, Accounts mode findings (sections mode findings)) ∧
    (∀ collapse, Arranged (sections ⟨.grouped, collapse⟩ findings)) ∧
    ∀ grouping, DistinctKeys grouping findings →
      ∀ {Json : Type} (compact : Json → String) (palette : Palette) (useColor hosts : Bool)
        (summary : Summary) (analyzers : List (AnalysisSummary Json)),
        render compact ⟨useColor, hosts, ⟨grouping, .collapsed⟩⟩ palette summary findings
            analyzers =
          render compact ⟨useColor, hosts, ⟨grouping, .expanded⟩⟩ palette summary findings
            analyzers := by
  refine ⟨collapse_collapses findings, fun mode => sections_account mode findings,
    fun collapse => sections_arranged collapse findings, ?_⟩
  intro grouping hdistinct Json compact palette useColor hosts summary analyzers
  have hlines : renderFindings ⟨grouping, .collapsed⟩ findings =
      renderFindings ⟨grouping, .expanded⟩ findings := by
    rw [renderFindings_eq, renderFindings_eq, sections_distinct hdistinct]
  simp only [render, reportLines, findingLines, hlines]
  rfl

def probe (confidence : Confidence) : Finding where
  category := .reconnaissance
  verdict := .likely
  confidence := confidence
  summary := "port scan"
  evidence := ["22", "80"]
  mitreTechniques := ["T1046"]
  sourceIp := none
  timestamp := none
  direction := none

/-- The two probes of one tactic have different keys, so there is nothing to collapse. -/
theorem findings_accounted_probes :
    render (fun s : String => s) ⟨true, false, ⟨.grouped, .collapsed⟩⟩ (fun _ s => "*" ++ s ++ "*")
        .new [probe .low, probe .high] [] =
      render (fun s : String => s) ⟨true, false, ⟨.grouped, .expanded⟩⟩
        (fun _ s => "*" ++ s ++ "*") .new [probe .low, probe .high] [] := by
  have hdistinct : DistinctKeys .grouped [probe .low, probe .high] := by
    intro tactic
    have hall : ([probe .low, probe .high].map collapseKey).Nodup := by decide
    exact hall.sublist (List.filter_sublist.map collapseKey)
  obtain ⟨-, -, -, hsame⟩ := findings_accounted [probe .low, probe .high]
  exact hsame .grouped hdistinct _ _ true false .new []

end Wirerust.Terminal
