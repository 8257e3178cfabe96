import Mathlib.Data.String.Basic
import Mathlib.Data.List.Sort
import Wirerust.Lib.Grouping
import Wirerust.Findings
import Wirerust.Mitre
import Wirerust.Summary

/-!
The terminal report (`reporter/terminal.rs`).

Everything the reporter writes is a line, so what a function pushes to the output is a list of
`Line`s here, and `render` puts them together. How a colour looks is up to a third-party package:
the colours are a `Palette`, and every theorem is about an arbitrary one. So is the compact
rendering of a JSON value, `compact`.
-/

namespace Wirerust.Terminal

open Lib Wirerust.Mitre

/-! ## Escaping -/

/-- `char::escape_default` -/
def escapeDefault (c : Char) : List Char :=
  if c = '\t' then ['\\', 't']
  else if c = '\r' then ['\\', 'r']
  else if c = '\n' then ['\\', 'n']
  else if c = '\'' then ['\\', '\'']
  else if c = '"' then ['\\', '"']
  else if c = '\\' then ['\\', '\\']
  else if 0x20 ≤ c.toNat ∧ c.toNat ≤ 0x7e then [c]
  else ['\\', 'u', '\x7b'] ++ Nat.toDigits 16 c.toNat ++ ['\x7d']

/-- A character of C0 or C1, or DEL. -/
def isControl (c : Char) : Bool :=
  c.toNat ≤ 0x1f || (0x7f ≤ c.toNat && c.toNat ≤ 0x9f)

def escapeChar (c : Char) : List Char :=
  if isControl c || c = '\\' then escapeDefault c else [c]

def escapeForTerminal (s : String) : String := String.ofList (s.toList.flatMap escapeChar)

/-! ## Lines -/

inductive Style
  | redBold
  | yellow
  | cyan
  | dimmed
  | boldUnderline
  deriving DecidableEq, Repr

/-- What the colours do to a text. -/
abbrev Palette := Style → String → String

/-- A line of the output: plain, with a coloured text, or coloured with its line feed. -/
inductive Line
  | plain (text : String)
  | colored (indent : String) (style : Style) (text : String)
  | spanned (style : Style) (text : String)
  deriving DecidableEq

def Line.render (palette : Palette) (useColor : Bool) : Line → String
  | .plain text => text ++ "\n"
  | .colored indent style text =>
    indent ++ (if useColor then palette style text else text) ++ "\n"
  | .spanned style text =>
    if useColor then palette style (text ++ "\n") else text ++ "\n"

/-- The line without colours and without its line feed. -/
def Line.text : Line → String
  | .plain text => text
  | .colored indent _ text => indent ++ text
  | .spanned _ text => text

def blank : Line := .plain ""

def sectionLines (title : String) : List Line :=
  [.colored "" .boldUnderline title, .plain (String.ofList (List.replicate 40 '─'))]

/-! ## Findings -/

def displayVerdict : Verdict → String
  | .likely => "LIKELY"
  | .unlikely => "UNLIKELY"
  | .inconclusive => "INCONCLUSIVE"
  | .possible => "POSSIBLE"

def displayConfidence : Confidence → String
  | .high => "HIGH"
  | .medium => "MEDIUM"
  | .low => "LOW"

def displayCategory : ThreatCategory → String
  | .reconnaissance => "Reconnaissance"
  | .lateralMovement => "LateralMovement"
  | .c2 => "C2"
  | .exfiltration => "Exfiltration"
  | .credentialAccess => "CredentialAccess"
  | .persistence => "Persistence"
  | .execution => "Execution"
  | .anomaly => "Anomaly"
  | .suspicious => "Suspicious"
  | .impact => "Impact"

def verdictRank : Verdict → Nat
  | .likely => 0
  | .possible => 1
  | .inconclusive => 2
  | .unlikely => 3

def confidenceRank : Confidence → Nat
  | .high => 0
  | .medium => 1
  | .low => 2

def collapseEvidenceSamples : Nat := 3

structure CollapseKey where
  category : ThreatCategory
  verdict : Verdict
  confidence : Confidence
  summary : String
  deriving DecidableEq

def collapseKey (f : Finding) : CollapseKey := ⟨f.category, f.verdict, f.confidence, f.summary⟩

def findingStyle (f : Finding) : Style :=
  match f.verdict with
  | .likely => if f.confidence = .high then .redBold else .yellow
  | .possible => .yellow
  | .inconclusive => .cyan
  | .unlikely => .dimmed

/-- `[category] verdict (confidence) - summary` -/
def headerText (f : Finding) : String :=
  "[" ++ displayCategory f.category ++ "] " ++ displayVerdict f.verdict ++ " (" ++
    displayConfidence f.confidence ++ ") - " ++ escapeForTerminal f.summary

def evidenceLine (ev : String) : Line := .plain ("    > " ++ escapeForTerminal ev)

def renderFindingPrefix (f : Finding) : List Line :=
  .colored "  " (findingStyle f) (headerText f) :: f.evidence.map evidenceLine

def joinTechniques (f : Finding) : String := ", ".intercalate f.mitreTechniques

/-- The MITRE line of the flat view. -/
def flatMitreLine (f : Finding) : List Line :=
  if f.mitreTechniques.isEmpty then [] else [.plain ("    MITRE: " ++ joinTechniques f)]

/-- The MITRE line of the grouped view. -/
def groupedMitreLine (f : Finding) : List Line :=
  if f.mitreTechniques.isEmpty then []
  else
    match f.mitreTechniques.head?.bind techniqueName with
    | some name => [.plain ("    MITRE: " ++ joinTechniques f ++ " — " ++ name)]
    | none => [.plain ("    MITRE: " ++ joinTechniques f ++ " (unknown)")]

def renderFindingFlat (f : Finding) : List Line := renderFindingPrefix f ++ flatMitreLine f

def renderFindingGrouped (f : Finding) : List Line := renderFindingPrefix f ++ groupedMitreLine f

/-- The linear scan for the group of a key is that of `groupBy`. -/
def collapseFindingsPassRefs (refs : List Finding) : List (CollapseKey × List Finding) :=
  groupBy collapseKey refs

/-- A group of two or more: the header with its count, one line of evidence for each of the
first members that have any, and the MITRE line of the first member. -/
def renderCollapsed (mitreLine : Finding → List Line) (rep : Finding) (members : List Finding) :
    List Line :=
  .colored "  " (findingStyle rep)
      (headerText rep ++ " (x" ++ toString members.length ++ ")") ::
    ((members.take collapseEvidenceSamples).filterMap fun m => m.evidence.head?.map evidenceLine) ++
    mitreLine rep

/-- One group; `renderOne` is for a group of one. -/
def renderGroup (renderOne mitreLine : Finding → List Line) (members : List Finding) :
    List Line :=
  match members with
  | [] => []
  | [f] => renderOne f
  | rep :: _ => renderCollapsed mitreLine rep members

def renderFindingsCollapsed (findings : List Finding) : List Line :=
  (collapseFindingsPassRefs findings).flatMap fun g =>
    renderGroup renderFindingFlat flatMitreLine g.2

/-! ## Findings by tactic -/

def findingTactic (f : Finding) : Option MitreTactic := f.mitreTechniques.head?.bind techniqueTactic

/-- The findings with their index, by tactic: `buckets.entry(tactic).or_default().push((i, f))`. -/
def buckets (findings : List Finding) : List (Option MitreTactic × List (Finding × Nat)) :=
  groupBy (fun e => findingTactic e.1) findings.zipIdx

/-- `(verdict_rank, confidence_rank, idx)` in the order of tuples. -/
def rankLe (a b : Finding × Nat) : Prop :=
  verdictRank a.1.verdict < verdictRank b.1.verdict ∨
    (verdictRank a.1.verdict = verdictRank b.1.verdict ∧
      (confidenceRank a.1.confidence < confidenceRank b.1.confidence ∨
        (confidenceRank a.1.confidence = confidenceRank b.1.confidence ∧ a.2 ≤ b.2)))

instance : DecidableRel rankLe := fun _ _ => inferInstanceAs (Decidable (_ ∨ _))

def sortBucket (items : List (Finding × Nat)) : List (Finding × Nat) := items.insertionSort rankLe

/-- The header of a bucket and its findings, if the bucket is there. -/
def renderBucket (renderItems : List (Finding × Nat) → List Line) (findings : List Finding)
    (header : String) (tactic : Option MitreTactic) : List Line :=
  match (buckets findings).lookup tactic with
  | some items => .plain ("  ## " ++ header) :: renderItems (sortBucket items)
  | none => []

/-- The findings of a tactic with their index, in the order of the report. -/
def bucketItems (findings : List Finding) (tactic : Option MitreTactic) : List (Finding × Nat) :=
  sortBucket (findings.zipIdx.filter fun e => findingTactic e.1 = tactic)

theorem bucketItems_perm (findings : List Finding) (tactic : Option MitreTactic) :
    (bucketItems findings tactic).Perm
      (findings.zipIdx.filter fun e => findingTactic e.1 = tactic) :=
  List.perm_insertionSort rankLe _

theorem map_zipIdx {β : Type} (findings : List Finding) (g : Finding → β) :
    (findings.zipIdx.map fun e => g e.1) = findings.map g := by
  conv_rhs => rw [← List.zipIdx_map_fst 0 findings, List.map_map]
  rfl

/-- What is made of the findings of a bucket, up to their order. -/
theorem bucketItems_map_perm {β : Type} (findings : List Finding) (tactic : Option MitreTactic)
    (g : Finding → β) : ((bucketItems findings tactic).map fun e => g e.1).Perm
      ((findings.filter fun f => findingTactic f = tactic).map g) := by
  have hsame : ((findings.filter fun f => findingTactic f = tactic).map g) =
      (findings.zipIdx.filter fun e => findingTactic e.1 = tactic).map fun e => g e.1 := by
    conv_lhs => rw [← List.zipIdx_map_fst 0 findings, List.filter_map, List.map_map]
    rfl
  rw [hsame]
  exact (bucketItems_perm findings tactic).map _

theorem mem_bucketItems {findings : List Finding} {tactic : Option MitreTactic}
    {e : Finding × Nat} :
    e ∈ bucketItems findings tactic ↔ e ∈ findings.zipIdx ∧ findingTactic e.1 = tactic := by
  rw [(bucketItems_perm findings tactic).mem_iff, List.mem_filter, decide_eq_true_eq]

/-- A tactic without findings has no bucket. -/
theorem renderBucket_eq (renderItems : List (Finding × Nat) → List Line)
    (findings : List Finding) (header : String) (tactic : Option MitreTactic) :
    renderBucket renderItems findings header tactic =
      if bucketItems findings tactic = [] then []
      else .plain ("  ## " ++ header) :: renderItems (bucketItems findings tactic) := by
  rw [renderBucket, buckets, lookup_groupBy]
  by_cases hnil : findings.zipIdx.filter (fun e => findingTactic e.1 = tactic) = []
  · have hitems : bucketItems findings tactic = [] := by rw [bucketItems, hnil]; rfl
    rw [if_pos hnil, if_pos hitems]
  · have hitems : bucketItems findings tactic ≠ [] := fun h =>
      hnil (List.nil_perm.mp (h ▸ bucketItems_perm findings tactic))
    rw [if_neg hnil, if_neg hitems]
    rfl

/-- All buckets, in the order of the report. -/
def renderBuckets (renderItems : List (Finding × Nat) → List Line) (findings : List Finding) :
    List Line :=
  (allTacticsInReportOrder.flatMap fun tactic =>
      renderBucket renderItems findings tactic.display (some tactic)) ++
    renderBucket renderItems findings "Uncategorized" none

def renderFindingsGrouped (findings : List Finding) : List Line :=
  renderBuckets (fun items => items.flatMap fun e => renderFindingGrouped e.1) findings

def renderFindingsGroupedCollapsed (findings : List Finding) : List Line :=
  renderBuckets (fun items =>
    (collapseFindingsPassRefs (items.map Prod.fst)).flatMap fun g =>
      renderGroup renderFindingGrouped groupedMitreLine g.2) findings

/-! ## The report -/

inductive Grouping
  | grouped
  | flat
  deriving DecidableEq, Repr

inductive Collapse
  | collapsed
  | expanded
  deriving DecidableEq, Repr

structure FindingsRender where
  grouping : Grouping
  collapse : Collapse
  deriving DecidableEq, Repr

structure TerminalReporter where
  useColor : Bool
  showHostsBreakdown : Bool
  render : FindingsRender

structure AnalysisSummary (Json : Type) where
  analyzerName : String
  packetsAnalyzed : Nat
  detail : SortedMap String Json

def renderFindings (mode : FindingsRender) (findings : List Finding) : List Line :=
  match mode.grouping, mode.collapse with
  | .grouped, .expanded => renderFindingsGrouped findings
  | .grouped, .collapsed => renderFindingsGroupedCollapsed findings
  | .flat, .collapsed => renderFindingsCollapsed findings
  | .flat, .expanded => findings.flatMap renderFindingFlat

/-- Larger counts first, then by name. -/
def countLe (a b : String × Nat) : Prop := b.2 < a.2 ∨ (b.2 = a.2 ∧ a.1 ≤ b.1)

instance : DecidableRel countLe := fun _ _ => inferInstanceAs (Decidable (_ ∨ _))

def countLines (counts : List (String × Nat)) : List Line :=
  (counts.insertionSort countLe).map fun e => .plain ("  " ++ e.1 ++ ": " ++ toString e.2)

section Report

variable {Json : Type} (compact : Json → String) (r : TerminalReporter)

def headerLines (summary : Summary) : List Line :=
  sectionLines "WIRERUST TRIAGE REPORT" ++
    [.plain ("  Packets: " ++ toString summary.totalPackets ++ "  Bytes: " ++
      toString summary.totalBytes ++ "  Hosts: " ++ toString summary.uniqueHosts.length)] ++
    (if summary.skippedPackets > 0 then
      [.spanned .yellow ("  Skipped: " ++ toString summary.skippedPackets ++
        " packets (decode errors)")]
    else []) ++ [blank]

def hostLines (summary : Summary) : List Line :=
  if r.showHostsBreakdown && !summary.uniqueHosts.isEmpty then
    sectionLines "HOSTS" ++ (summary.uniqueHosts.map fun host => .plain ("  " ++ host.display)) ++
      [blank]
  else []

def protocolLines (summary : Summary) : List Line :=
  sectionLines "PROTOCOLS" ++
    countLines (summary.protocols.entries.map fun e => (e.1.debug, e.2)) ++ [blank]

def serviceLines (summary : Summary) : List Line :=
  if summary.services.entries.isEmpty then []
  else
    sectionLines "SERVICES" ++
      countLines (summary.services.entries.map fun e => (e.1.name, e.2)) ++ [blank]

def findingLines (findings : List Finding) : List Line :=
  if findings.isEmpty then []
  else sectionLines "FINDINGS" ++ renderFindings r.render findings ++ [blank]

def analyzerLines (a : AnalysisSummary Json) : List Line :=
  sectionLines ("ANALYZER: " ++ a.analyzerName) ++
    [.plain ("  Packets analyzed: " ++ toString a.packetsAnalyzed)] ++
    (a.detail.entries.map fun e =>
      .plain ("  " ++ e.1 ++ ": " ++ escapeForTerminal (compact e.2))) ++ [blank]

def reportLines (summary : Summary) (findings : List Finding)
    (analyzerSummaries : List (AnalysisSummary Json)) : List Line :=
  headerLines summary ++ hostLines r summary ++ protocolLines summary ++ serviceLines summary ++
    findingLines r findings ++ analyzerSummaries.flatMap (analyzerLines compact)

def render (palette : Palette) (summary : Summary) (findings : List Finding)
    (analyzerSummaries : List (AnalysisSummary Json)) : String :=
  String.join ((reportLines compact r summary findings analyzerSummaries).map
    (Line.render palette r.useColor))

end Report

end Wirerust.Terminal
