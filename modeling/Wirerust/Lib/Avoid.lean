import Mathlib.Data.String.Basic

/-!
Texts without the characters of a class, and texts made of lines.

A text put together from parts that avoid the class avoids it. A text of lines has as many line
feeds as lines if the lines avoid the line feed.
-/

namespace Lib

def Avoids (bad : Char → Bool) (s : String) : Prop := ∀ c ∈ s.toList, bad c = false

instance decidableAvoids (bad : Char → Bool) (s : String) : Decidable (Avoids bad s) :=
  List.decidableBAll (fun c => bad c = false) s.toList

variable {bad : Char → Bool}

@[simp]
theorem avoids_append (s t : String) : Avoids bad (s ++ t) ↔ Avoids bad s ∧ Avoids bad t := by
  simp only [Avoids, String.toList_append, List.forall_mem_append]

theorem avoids_ofList (cs : List Char) :
    Avoids bad (String.ofList cs) ↔ ∀ c ∈ cs, bad c = false := by
  rw [Avoids, String.toList_ofList]

theorem avoids_intercalate {sep : String} (hsep : Avoids bad sep) {parts : List String}
    (h : ∀ s ∈ parts, Avoids bad s) : Avoids bad (sep.intercalate parts) := by
  induction parts with
  | nil =>
    intro c hc
    simp at hc
  | cons s rest ih =>
    obtain ⟨hs, hrest⟩ := List.forall_mem_cons.mp h
    cases rest with
    | nil => simpa using hs
    | cons t rest =>
      rw [String.intercalate_cons_cons, avoids_append, avoids_append]
      exact ⟨⟨hs, hsep⟩, ih hrest⟩

/-! ## Numbers -/

theorem mem_toDigits {b n : Nat} (hb : 1 < b) {c : Char} (h : c ∈ Nat.toDigits b n) :
    ∃ d, c = Nat.digitChar d := by
  induction n using Nat.strong_induction_on with
  | _ n ih =>
    rw [Nat.toDigits_eq_if hb] at h
    split at h
    · exact ⟨n, List.mem_singleton.mp h⟩
    · rename_i hge
      rcases List.mem_append.mp h with hmem | hmem
      · exact ih (n / b) (Nat.div_lt_self (by omega) hb) hmem
      · exact ⟨n % b, List.mem_singleton.mp hmem⟩

theorem avoids_toDigits (hdigit : ∀ d, bad (Nat.digitChar d) = false) {b : Nat} (hb : 1 < b)
    (n : Nat) : Avoids bad (String.ofList (Nat.toDigits b n)) := by
  rw [avoids_ofList]
  intro c hc
  obtain ⟨d, rfl⟩ := mem_toDigits hb hc
  exact hdigit d

theorem avoids_toString (hdigit : ∀ d, bad (Nat.digitChar d) = false) (n : Nat) :
    Avoids bad (toString n) := by
  rw [Nat.toString_eq_ofList_toDigits]
  exact avoids_toDigits hdigit (by decide) n

/-! ## Lines -/

/-- Every line with its line feed. -/
def unlines (lines : List String) : String := String.join (lines.map fun l => l ++ "\n")

theorem count_unlines {lines : List String} (h : ∀ l ∈ lines, '\n' ∉ l.toList) :
    (unlines lines).toList.count '\n' = lines.length := by
  rw [unlines, String.toList_join]
  induction lines with
  | nil => rfl
  | cons l lines ih =>
    obtain ⟨hl, hlines⟩ := List.forall_mem_cons.mp h
    rw [List.map_cons, List.flatMap_cons, List.count_append, ih hlines, String.toList_append,
      List.count_append, List.count_eq_zero.mpr hl, List.length_cons]
    exact Nat.add_comm 1 lines.length

end Lib
