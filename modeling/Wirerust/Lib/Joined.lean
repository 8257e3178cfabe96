import Mathlib.Data.String.Basic
import Wirerust.Lib.Avoid

/-!
Texts that are put together and can be taken apart again.

Parts without the separator that stands between them are determined by the text, as long as it is
known that there are some (`joined_inj`) or that none of them is empty (`joined_inj_of_ne_empty`).
Numbers in decimal are such parts for every separator that is not a digit (`decimals_inj`). Parts
of one length need no separator (`flatMap_injective`); the two digits of a byte are an example
(`byteDigits_inj`).
-/

namespace Lib

/-- The parts, with the character `sep` between them. -/
def joined (sep : Char) (parts : List String) : String :=
  (String.singleton sep).intercalate parts

/-- `sep` does not occur in `s`. -/
def Free (sep : Char) (s : String) : Prop := Avoids (fun c => c == sep) s

variable {sep : Char}

theorem free_iff {s : String} : Free sep s ↔ sep ∉ s.toList := by
  constructor
  · intro h hmem
    have hfalse := h sep hmem
    simp at hfalse
  · intro h c hc
    simp only [beq_eq_false_iff_ne, ne_eq]
    rintro rfl
    exact h hc

theorem toList_joined (parts : List String) :
    (joined sep parts).toList = [sep].intercalate (parts.map String.toList) := by
  rw [joined, String.toList_intercalate, String.toList_singleton]

theorem free_joined {other : Char} (hsep : other ≠ sep) {parts : List String}
    (h : ∀ s ∈ parts, Free other s) : Free other (joined sep parts) := by
  apply avoids_intercalate _ h
  intro c hc
  rw [String.toList_singleton, List.mem_singleton] at hc
  subst hc
  simpa using hsep.symm

/-- Cutting at the separator gives the parts back. -/
theorem splitOn_joined {parts : List String} (h : ∀ s ∈ parts, Free sep s) (hne : parts ≠ []) :
    (joined sep parts).toList.splitOn sep = parts.map String.toList := by
  rw [toList_joined]
  apply List.splitOn_intercalate
  · intro l hl
    obtain ⟨s, hs, rfl⟩ := List.mem_map.mp hl
    exact free_iff.mp (h s hs)
  · simpa using hne

theorem joined_inj {parts others : List String} (h : ∀ s ∈ parts, Free sep s)
    (h' : ∀ s ∈ others, Free sep s) (hne : parts ≠ []) (hne' : others ≠ []) :
    joined sep parts = joined sep others ↔ parts = others := by
  constructor
  · intro heq
    have hsplit := splitOn_joined h hne
    rw [heq, splitOn_joined h' hne'] at hsplit
    exact (List.map_injective_iff.mpr fun _ _ => String.toList_inj.mp) hsplit.symm
  · rintro rfl
    rfl

theorem joined_eq_empty {parts : List String} (hne : ∀ s ∈ parts, s ≠ "") :
    joined sep parts = "" ↔ parts = [] := by
  constructor
  · intro heq
    cases parts with
    | nil => rfl
    | cons s parts =>
      have hs := hne s List.mem_cons_self
      cases parts with
      | nil => exact absurd (by simpa [joined] using heq) hs
      | cons t parts =>
        rw [joined, String.intercalate_cons_cons, String.append_eq_empty_iff,
          String.append_eq_empty_iff] at heq
        exact absurd heq.1.1 hs
  · rintro rfl
    rfl

theorem joined_inj_of_ne_empty {parts others : List String} (h : ∀ s ∈ parts, Free sep s)
    (h' : ∀ s ∈ others, Free sep s) (hne : ∀ s ∈ parts, s ≠ "") (hne' : ∀ s ∈ others, s ≠ "") :
    joined sep parts = joined sep others ↔ parts = others := by
  by_cases hparts : parts = []
  · subst hparts
    rw [eq_comm, eq_comm (a := ([] : List String))]
    exact joined_eq_empty hne'
  · by_cases hothers : others = []
    · subst hothers
      exact joined_eq_empty hne
    · exact joined_inj h h' hparts hothers

/-! ## Numbers -/

theorem free_toString (hsep : sep.isDigit = false) (n : Nat) : Free sep (toString n) := by
  rw [free_iff, Nat.toString_eq_repr, Nat.toList_repr]
  intro hmem
  have hdigit := Nat.isDigit_of_mem_toDigits (by decide) (by decide) hmem
  rw [hsep] at hdigit
  cases hdigit

theorem toString_ne_empty (n : Nat) : toString n ≠ "" := by
  rw [Nat.toString_eq_repr]
  exact Nat.repr_ne_empty

theorem toString_injective : Function.Injective (toString : Nat → String) := by
  intro m n h
  have hdigits : Nat.toDigits 10 m = Nat.toDigits 10 n := by
    rw [← Nat.toList_repr, ← Nat.toList_repr]
    exact congrArg String.toList h
  rw [← Nat.ofDigitChars_ten_toDigits (n := m), hdigits, Nat.ofDigitChars_ten_toDigits]

/-- Numbers in decimal, with `sep` between them. -/
def decimals (sep : Char) (ns : List Nat) : String := joined sep (ns.map toString)

theorem free_decimals {other : Char} (hsep : other ≠ sep) (hother : other.isDigit = false)
    (ns : List Nat) : Free other (decimals sep ns) := by
  apply free_joined hsep
  intro s hs
  obtain ⟨n, -, rfl⟩ := List.mem_map.mp hs
  exact free_toString hother n

theorem decimals_inj (hsep : sep.isDigit = false) {ms ns : List Nat} :
    decimals sep ms = decimals sep ns ↔ ms = ns := by
  have hfree : ∀ ks : List Nat, ∀ s ∈ ks.map toString, Free sep s := by
    intro ks s hs
    obtain ⟨n, -, rfl⟩ := List.mem_map.mp hs
    exact free_toString hsep n
  have hne : ∀ ks : List Nat, ∀ s ∈ ks.map toString, s ≠ "" := by
    intro ks s hs
    obtain ⟨n, -, rfl⟩ := List.mem_map.mp hs
    exact toString_ne_empty n
  rw [decimals, decimals, joined_inj_of_ne_empty (hfree ms) (hfree ns) (hne ms) (hne ns)]
  exact (List.map_injective_iff.mpr toString_injective).eq_iff

/-! ## Parts of one length -/

theorem flatMap_injective {α β : Type} {f : α → List β} {n : Nat} (hn : 0 < n)
    (hlength : ∀ a, (f a).length = n) (hf : Function.Injective f) :
    Function.Injective (List.flatMap f) := by
  intro l l' h
  induction l generalizing l' with
  | nil =>
    cases l' with
    | nil => rfl
    | cons b l' =>
      have hempty := congrArg List.length h
      rw [List.flatMap_cons, List.length_append, hlength, List.flatMap_nil, List.length_nil]
        at hempty
      omega
  | cons a l ih =>
    cases l' with
    | nil =>
      have hempty := congrArg List.length h
      rw [List.flatMap_cons, List.length_append, hlength, List.flatMap_nil, List.length_nil]
        at hempty
      omega
    | cons b l' =>
      rw [List.flatMap_cons, List.flatMap_cons] at h
      obtain ⟨hhead, htail⟩ := List.append_inj h ((hlength a).trans (hlength b).symm)
      rw [hf hhead, ih htail]

/-! ## Bytes in hexadecimal -/

/-- The two digits of a byte. -/
def byteDigits (n : Nat) : List Char := [(n / 16).digitChar, (n % 16).digitChar]

theorem leftpad_map_toDigits {f : Char → Char} (hzero : f '0' = '0') {n : Nat} (h : n < 256) :
    ((Nat.toDigits 16 n).map f).leftpad 2 '0' = (byteDigits n).map f := by
  rw [byteDigits]
  by_cases hsmall : n < 16
  · rw [Nat.toDigits_of_lt_base hsmall, Nat.div_eq_of_lt hsmall, Nat.mod_eq_of_lt hsmall]
    simp [List.leftpad, Nat.digitChar, hzero]
  · rw [Nat.toDigits_of_base_le (by decide) (by omega), Nat.toDigits_of_lt_base (by omega)]
    rfl

theorem leftpad_toDigits {n : Nat} (h : n < 256) :
    (Nat.toDigits 16 n).leftpad 2 '0' = byteDigits n := by
  simpa using leftpad_map_toDigits (f := id) rfl h

theorem toUpper_digitChar_inj {m n : Nat} (hm : m < 16) (hn : n < 16)
    (h : m.digitChar.toUpper = n.digitChar.toUpper) : m = n := by
  have hall : ∀ m < 16, ∀ n < 16,
      (Nat.digitChar m).toUpper = (Nat.digitChar n).toUpper → m = n := by decide
  exact hall m hm n hn h

theorem upperDigits_inj {m n : Nat} (hm : m < 256) (hn : n < 256)
    (h : (byteDigits m).map Char.toUpper = (byteDigits n).map Char.toUpper) : m = n := by
  simp only [byteDigits, List.map_cons, List.map_nil, List.cons.injEq, and_true] at h
  have hhigh := toUpper_digitChar_inj (by omega) (by omega) h.1
  have hlow := toUpper_digitChar_inj (by omega) (by omega) h.2
  omega

theorem byteDigits_inj {m n : Nat} (hm : m < 256) (hn : n < 256)
    (h : byteDigits m = byteDigits n) : m = n :=
  upperDigits_inj hm hn (congrArg (List.map Char.toUpper) h)

end Lib
