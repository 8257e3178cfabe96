import Mathlib.Data.List.Induction
import Mathlib.Data.List.Perm.Basic

/-!
Grouping a list by a key, one element after the other.

An element goes to the end of the group of its key, and to a new group at the end if there is
none. `groupBy_eq` is the rule: there is a group for each key, in the order in which the keys
first occur, and it has the elements with that key, in their order. That the groups are a
partition of the list, and that distinct keys give groups of one element each, follow from it.
-/

namespace Lib

variable {α β κ : Type} [DecidableEq κ]

/-- Add an element to the group of the key. -/
def insertGroup (k : κ) (a : α) : List (κ × List α) → List (κ × List α)
  | [] => [(k, [a])]
  | g :: gs => if g.1 = k then (g.1, g.2 ++ [a]) :: gs else g :: insertGroup k a gs

def groupBy (key : α → κ) (l : List α) : List (κ × List α) :=
  l.foldl (fun groups a => insertGroup (key a) a groups) []

theorem groupBy_snoc (key : α → κ) (l : List α) (a : α) :
    groupBy key (l ++ [a]) = insertGroup (key a) a (groupBy key l) := by
  rw [groupBy, List.foldl_append]
  rfl

/-! ## First occurrences -/

theorem eraseDups_snoc (ks : List κ) (k : κ) :
    (ks ++ [k]).eraseDups = if k ∈ ks then ks.eraseDups else ks.eraseDups ++ [k] := by
  rw [List.eraseDups_append, List.cons_removeAll]
  by_cases hk : k ∈ ks
  · simp [hk]
  · simp [hk, List.eraseDups_cons]

theorem nodup_eraseDups (ks : List κ) : ks.eraseDups.Nodup := by
  induction ks using List.reverseRecOn with
  | nil => exact List.nodup_nil
  | append_singleton ks k ih =>
    rw [eraseDups_snoc]
    split
    · exact ih
    · rename_i hk
      refine List.nodup_append.mpr ⟨ih, List.pairwise_singleton _ k, ?_⟩
      rintro k' hk' _ hsame rfl
      rw [List.mem_singleton.mp hsame, List.mem_eraseDups] at hk'
      exact hk hk'

/-! ## The rule -/

theorem insertGroup_map (k : κ) (a : α) (members : κ → List α) {ks : List κ} (h : ks.Nodup) :
    insertGroup k a (ks.map fun k' => (k', members k')) =
      if k ∈ ks then ks.map fun k' => (k', if k' = k then members k' ++ [a] else members k')
      else (ks.map fun k' => (k', members k')) ++ [(k, [a])] := by
  induction ks with
  | nil => rfl
  | cons k₀ ks ih =>
    obtain ⟨hk₀, hks⟩ := List.nodup_cons.mp h
    rw [List.map_cons, insertGroup]
    by_cases heq : k₀ = k
    · subst heq
      have hrest : ∀ k' ∈ ks, k' ≠ k₀ := fun k' hk' h => hk₀ (h ▸ hk')
      rw [if_pos rfl, if_pos List.mem_cons_self, List.map_cons, if_pos rfl]
      congr 1
      refine List.map_congr_left fun k' hk' => ?_
      rw [if_neg (hrest k' hk')]
    · have hmem : k ∈ k₀ :: ks ↔ k ∈ ks := by simp [Ne.symm heq]
      rw [if_neg heq, ih hks]
      by_cases hk : k ∈ ks
      · rw [if_pos hk, if_pos (hmem.mpr hk), List.map_cons, if_neg heq]
      · rw [if_neg hk, if_neg (fun h => hk (hmem.mp h)), List.cons_append]

theorem groupBy_eq (key : α → κ) (l : List α) :
    groupBy key l = (l.map key).eraseDups.map fun k => (k, l.filter fun a => key a = k) := by
  induction l using List.reverseRecOn with
  | nil => rfl
  | append_singleton l a ih =>
    rw [groupBy_snoc, ih, insertGroup_map _ _ _ (nodup_eraseDups _), List.map_append,
      List.map_singleton, eraseDups_snoc]
    simp only [List.mem_eraseDups]
    by_cases hk : key a ∈ l.map key
    · rw [if_pos hk, if_pos hk]
      refine List.map_congr_left fun k _ => ?_
      by_cases heq : k = key a
      · simp [heq]
      · simp [heq, Ne.symm heq]
    · rw [if_neg hk, if_neg hk, List.map_append]
      have hnone : l.filter (fun b => key b = key a) = [] := by
        rw [List.filter_eq_nil_iff]
        intro b hb heq
        exact hk (by simpa using ⟨b, hb, of_decide_eq_true heq⟩)
      congr 1
      · refine List.map_congr_left fun k hk' => ?_
        have hne : key a ≠ k := fun heq => hk (heq ▸ List.mem_eraseDups.mp hk')
        simp [hne]
      · simp [hnone]

/-! ## What follows from the rule -/

theorem groupBy_nonempty {key : α → κ} {l : List α} {g : κ × List α} (h : g ∈ groupBy key l) :
    g.2 ≠ [] := by
  rw [groupBy_eq] at h
  obtain ⟨k, hk, rfl⟩ := List.mem_map.mp h
  obtain ⟨a, ha, rfl⟩ := List.mem_map.mp (List.mem_eraseDups.mp hk)
  exact List.ne_nil_of_mem (List.mem_filter.mpr ⟨ha, decide_eq_true rfl⟩)

/-- Elements that give nothing can be left out. -/
theorem flatMap_filter_of_nil {f : α → List β} {p : α → Bool} {l : List α}
    (h : ∀ a ∈ l, p a = false → f a = []) : (l.filter p).flatMap f = l.flatMap f := by
  induction l with
  | nil => rfl
  | cons a l ih =>
    obtain ⟨ha, hl⟩ := List.forall_mem_cons.mp h
    rw [List.filter_cons, List.flatMap_cons, ← ih hl]
    cases hp : p a with
    | true => simp
    | false => simp [ha hp]

/-- The parts of a list by the keys of a list that has them all. -/
theorem flatMap_filter_perm (key : α → κ) {ks : List κ} (hnodup : ks.Nodup) (l : List α)
    (hall : ∀ a ∈ l, key a ∈ ks) : (ks.flatMap fun k => l.filter fun a => key a = k).Perm l := by
  induction ks generalizing l with
  | nil =>
    rw [List.eq_nil_iff_forall_not_mem.mpr fun a ha => List.not_mem_nil (hall a ha)]
    exact List.Perm.refl []
  | cons k ks ih =>
    obtain ⟨hk, hks⟩ := List.nodup_cons.mp hnodup
    have hrest : ∀ a ∈ l.filter (fun a => !decide (key a = k)), key a ∈ ks := by
      intro a ha
      obtain ⟨hal, hne⟩ := List.mem_filter.mp ha
      rcases List.mem_cons.mp (hall a hal) with h | h
      · simp [h] at hne
      · exact h
    have hsame : (ks.flatMap fun k' => l.filter fun a => key a = k') =
        ks.flatMap fun k' =>
          (l.filter fun a => !decide (key a = k)).filter fun a => key a = k' := by
      refine List.flatMap_congr fun k' hk' => ?_
      rw [List.filter_filter]
      refine List.filter_congr fun a _ => ?_
      by_cases h : key a = k'
      · have hne : k' ≠ k := fun heq => hk (heq ▸ hk')
        simp [h, hne]
      · simp [h]
    rw [List.flatMap_cons, hsame]
    exact ((ih hks _ hrest).append_left _).trans (List.filter_append_perm _ l)

theorem groupBy_perm (key : α → κ) (l : List α) : ((groupBy key l).flatMap Prod.snd).Perm l := by
  rw [groupBy_eq, List.flatMap_map]
  refine flatMap_filter_perm key (nodup_eraseDups _) l fun a ha => ?_
  exact List.mem_eraseDups.mpr (List.mem_map_of_mem ha)

theorem groupBy_map (key : β → κ) (f : α → β) (l : List α) :
    groupBy key (l.map f) = (groupBy (fun a => key (f a)) l).map fun g => (g.1, g.2.map f) := by
  rw [groupBy_eq, groupBy_eq, List.map_map, List.map_map]
  refine List.map_congr_left fun k _ => ?_
  simp [List.filter_map, Function.comp_def]

theorem insertGroup_new {k : κ} (a : α) {groups : List (κ × List α)}
    (h : ∀ g ∈ groups, g.1 ≠ k) : insertGroup k a groups = groups ++ [(k, [a])] := by
  induction groups with
  | nil => rfl
  | cons g groups ih =>
    obtain ⟨hg, hgroups⟩ := List.forall_mem_cons.mp h
    rw [insertGroup, if_neg hg, ih hgroups, List.cons_append]

/-- Distinct keys: every element is alone in its group. -/
theorem groupBy_of_nodup {key : α → κ} {l : List α} (h : (l.map key).Nodup) :
    groupBy key l = l.map fun a => (key a, [a]) := by
  induction l using List.reverseRecOn with
  | nil => rfl
  | append_singleton l a ih =>
    rw [List.map_append, List.nodup_append] at h
    obtain ⟨hl, -, hne⟩ := h
    rw [groupBy_snoc, ih hl, insertGroup_new, List.map_append, List.map_singleton]
    intro g hg
    obtain ⟨b, hb, rfl⟩ := List.mem_map.mp hg
    exact hne _ (List.mem_map_of_mem hb) _ (List.mem_singleton_self _)

/-- The first elements of the groups. -/
def heads (groups : List (κ × List α)) : List α := groups.filterMap fun g => g.2.head?

theorem heads_insertGroup (k : κ) (a : α) {groups : List (κ × List α)}
    (h : ∀ g ∈ groups, g.2 ≠ []) :
    heads (insertGroup k a groups) = heads groups ∨
      heads (insertGroup k a groups) = heads groups ++ [a] := by
  induction groups with
  | nil => exact .inr rfl
  | cons g groups ih =>
    obtain ⟨hg, hgroups⟩ := List.forall_mem_cons.mp h
    obtain ⟨k', members⟩ := g
    cases members with
    | nil => exact absurd rfl hg
    | cons b members =>
      rw [insertGroup]
      split
      · exact .inl rfl
      · rcases ih hgroups with heq | heq
        · exact .inl (congrArg (List.cons b) heq)
        · exact .inr (congrArg (List.cons b) heq)

/-- The first elements stand in the order of the list. -/
theorem heads_groupBy_sublist (key : α → κ) (l : List α) : (heads (groupBy key l)).Sublist l := by
  induction l using List.reverseRecOn with
  | nil => exact List.Sublist.refl []
  | append_singleton l a ih =>
    rw [groupBy_snoc]
    rcases heads_insertGroup (key a) a fun g hg => groupBy_nonempty hg with heq | heq
    · rw [heq]
      exact ih.trans (List.sublist_append_left l [a])
    · rw [heq]
      exact ih.append_right [a]

/-- The group of a key, if there is one. -/
theorem lookup_groupBy [BEq κ] [LawfulBEq κ] (key : α → κ) (l : List α) (k : κ) :
    (groupBy key l).lookup k =
      if l.filter (fun a => key a = k) = [] then none else some (l.filter fun a => key a = k) := by
  have hgen : ∀ ks : List κ, (ks.map fun k' => (k', l.filter fun a => key a = k')).lookup k =
      if k ∈ ks then some (l.filter fun a => key a = k) else none := by
    intro ks
    induction ks with
    | nil => rfl
    | cons k' ks ih =>
      rw [List.map_cons, List.lookup_cons, ih]
      by_cases heq : k = k'
      · simp [heq]
      · simp [heq, beq_eq_false_iff_ne.mpr heq]
  rw [groupBy_eq, hgen]
  simp only [List.mem_eraseDups]
  have hmem : k ∈ l.map key ↔ l.filter (fun a => key a = k) ≠ [] := by
    rw [List.mem_map, Ne, List.filter_eq_nil_iff]
    simp
  by_cases hnil : l.filter (fun a => key a = k) = []
  · rw [if_pos hnil, if_neg (fun h => hmem.mp h hnil)]
  · rw [if_neg hnil, if_pos (hmem.mpr hnil)]

end Lib
