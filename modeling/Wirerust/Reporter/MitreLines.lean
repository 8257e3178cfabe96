import Wirerust.Reporter.Blocks
import Wirerust.Text

/-!
The MITRE line of a block.

A block has at most one, and it is that of its first finding (`mitre_of_block`). The techniques
of the other findings are in it only if they are techniques of the first one too.
-/

namespace Wirerust.Terminal

open Lib Wirerust.Mitre

def Line.isMitre (l : Line) : Bool := "    MITRE: ".toList.isPrefixOf l.text.toList

def mitreLine (grouping : Grouping) (f : Finding) : List Line :=
  match grouping with
  | .grouped => groupedMitreLine f
  | .flat => flatMitreLine f

/-- `technique` occurs in the MITRE line. -/
def Names (lines : List Line) (technique : String) : Prop :=
  ∃ l ∈ lines, l.isMitre = true ∧ Text.contains l.text technique = true

instance : DecidableRel Names := fun lines _ =>
  inferInstanceAs (Decidable (∃ l ∈ lines, _))

/-! ## Which lines are MITRE lines -/

theorem isMitre_header (style : Style) (f : Finding) (more : String) :
    (Line.colored "  " style (headerText f ++ more)).isMitre = false := by
  simp only [Line.isMitre, Line.text, headerText, String.toList_append, List.append_assoc]
  rfl

theorem isMitre_evidence (ev : String) : (evidenceLine ev).isMitre = false := by
  simp only [Line.isMitre, evidenceLine, Line.text, String.toList_append]
  rfl

theorem isMitre_mitreLine {grouping : Grouping} {f : Finding} {l : Line}
    (h : l ∈ mitreLine grouping f) : l.isMitre = true := by
  have hlead : ∀ more, (Line.plain ("    MITRE: " ++ more)).isMitre = true := by
    intro more
    simp only [Line.isMitre, Line.text, String.toList_append, List.isPrefixOf_iff_prefix]
    exact List.prefix_append _ _
  cases grouping with
  | flat =>
    simp only [mitreLine, flatMitreLine] at h
    split at h
    · cases h
    · rw [List.mem_singleton.mp h]
      exact hlead _
  | grouped =>
    simp only [mitreLine, groupedMitreLine] at h
    split at h
    · cases h
    · split at h
      · rw [List.mem_singleton.mp h, String.append_assoc, String.append_assoc]
        exact hlead _
      · rw [List.mem_singleton.mp h, String.append_assoc]
        exact hlead _

theorem filter_evidence (lines : List Line) (h : ∀ l ∈ lines, ∃ ev, l = evidenceLine ev) :
    lines.filter Line.isMitre = [] := by
  rw [List.filter_eq_nil_iff]
  intro l hl
  obtain ⟨ev, rfl⟩ := h l hl
  rw [isMitre_evidence]
  exact Bool.false_ne_true

theorem mitre_of_block (grouping : Grouping) (e : Finding × Nat) (rest : Block) :
    (blockLines grouping (e :: rest)).filter Line.isMitre = mitreLine grouping e.1 := by
  have hmitre : (mitreLine grouping e.1).filter Line.isMitre = mitreLine grouping e.1 :=
    List.filter_eq_self.mpr fun l hl => isMitre_mitreLine hl
  have hheader : (Line.colored "  " (findingStyle e.1) (headerText e.1)).isMitre = false := by
    rw [← String.append_empty (s := headerText e.1)]
    exact isMitre_header _ _ _
  cases rest with
  | nil =>
    have hprefix : (renderFindingPrefix e.1).filter Line.isMitre = [] := by
      rw [renderFindingPrefix, List.filter_cons_of_neg (by rw [hheader]; exact Bool.false_ne_true)]
      refine filter_evidence _ fun l hl => ?_
      obtain ⟨ev, -, rfl⟩ := List.mem_map.mp hl
      exact ⟨ev, rfl⟩
    cases grouping with
    | grouped =>
      change (renderFindingPrefix e.1 ++ mitreLine .grouped e.1).filter Line.isMitre = _
      rw [List.filter_append, hprefix, hmitre, List.nil_append]
    | flat =>
      change (renderFindingPrefix e.1 ++ mitreLine .flat e.1).filter Line.isMitre = _
      rw [List.filter_append, hprefix, hmitre, List.nil_append]
  | cons e' rest =>
    have hblock : blockLines grouping (e :: e' :: rest) =
        renderCollapsed (mitreLine grouping) e.1 ((e :: e' :: rest).map Prod.fst) := by
      cases grouping <;> rfl
    rw [hblock, renderCollapsed, List.cons_append, List.filter_cons_of_neg, List.filter_append,
      hmitre, filter_evidence, List.nil_append]
    · intro l hl
      obtain ⟨m, -, hm⟩ := List.mem_filterMap.mp hl
      obtain ⟨ev, -, rfl⟩ := Option.map_eq_some_iff.mp hm
      exact ⟨ev, rfl⟩
    · rw [String.append_assoc, String.append_assoc, isMitre_header]
      exact Bool.false_ne_true

/-- The first finding of a block decides what its MITRE line names. -/
theorem names_block (grouping : Grouping) (e : Finding × Nat) (rest : Block) (technique : String) :
    Names (blockLines grouping (e :: rest)) technique ↔
      ∃ l ∈ mitreLine grouping e.1, Text.contains l.text technique = true := by
  rw [← mitre_of_block grouping e rest]
  simp only [Names, List.mem_filter, and_assoc]

/-! ## What the line names -/

theorem infix_intercalate {α : Type} {sep part : List α} {parts : List (List α)}
    (h : part ∈ parts) : part <:+: sep.intercalate parts := by
  induction parts with
  | nil => cases h
  | cons first parts ih =>
    cases parts with
    | nil =>
      rw [List.mem_singleton.mp h, List.intercalate_singleton]
    | cons second parts =>
      rw [List.intercalate_cons_cons]
      rcases List.mem_cons.mp h with rfl | hlater
      · exact ⟨[], _, by rw [List.nil_append, List.append_assoc]⟩
      · exact (ih hlater).trans ⟨_, [], List.append_nil _⟩

theorem infix_joinTechniques {f : Finding} {technique : String}
    (h : technique ∈ f.mitreTechniques) :
    technique.toList <:+: (joinTechniques f).toList := by
  rw [joinTechniques, String.toList_intercalate]
  exact infix_intercalate (List.mem_map_of_mem h)

theorem mitreLine_names {f : Finding} {technique : String} (grouping : Grouping)
    (h : technique ∈ f.mitreTechniques) :
    ∃ l ∈ mitreLine grouping f, Text.contains l.text technique = true := by
  have hne : f.mitreTechniques.isEmpty = false := by
    cases hnil : f.mitreTechniques with
    | nil => rw [hnil] at h; cases h
    | cons t ts => rfl
  have hjoin : ∀ more,
      Text.contains ("    MITRE: " ++ joinTechniques f ++ more) technique = true := by
    intro more
    rw [Text.contains_iff, String.toList_append, String.toList_append]
    exact (infix_joinTechniques h).trans ⟨_, _, rfl⟩
  cases grouping with
  | flat =>
    refine ⟨.plain ("    MITRE: " ++ joinTechniques f), ?_, ?_⟩
    · simp [mitreLine, flatMitreLine, hne]
    · have := hjoin ""
      rwa [String.append_empty] at this
  | grouped =>
    simp only [mitreLine, groupedMitreLine, hne, Bool.false_eq_true, if_false]
    cases f.mitreTechniques.head?.bind techniqueName with
    | none => exact ⟨_, List.mem_singleton_self _, hjoin _⟩
    | some name =>
      refine ⟨_, List.mem_singleton_self _, ?_⟩
      have := hjoin (" — " ++ name)
      rwa [← String.append_assoc] at this

end Wirerust.Terminal
