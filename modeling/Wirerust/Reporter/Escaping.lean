import Wirerust.Lib.Encoding
import Wirerust.Reporter.Safety

/-!
What `escape_for_terminal` writes can be read back.

The escapes are a code of variable length: a short escape, a doubled backslash, a number in braces,
or the character itself. `unescape` reads the first one of a text (`unescape_escapeChar`), so the
code is one that a lexer decodes (`escapeLexer_decodes`), and the whole text comes back
(`unescapeFromTerminal_escape`).
-/

namespace Wirerust.Terminal

open Lib

/-! ## Hexadecimal -/

def hexValue (c : Char) : Nat := if c.toNat ≤ 0x39 then c.toNat - 0x30 else c.toNat - 0x57

def ofHex (digits : List Char) : Nat := digits.foldl (fun n c => 16 * n + hexValue c) 0

theorem hexValue_digitChar {d : Nat} (h : d < 16) : hexValue d.digitChar = d := by
  have hall : ∀ d < 16, hexValue (Nat.digitChar d) = d := by decide
  exact hall d h

theorem ofHex_snoc (digits : List Char) (c : Char) :
    ofHex (digits ++ [c]) = 16 * ofHex digits + hexValue c := by
  rw [ofHex, List.foldl_append]
  rfl

theorem ofHex_toDigits (n : Nat) : ofHex (Nat.toDigits 16 n) = n := by
  induction n using Nat.strong_induction_on with
  | _ n ih =>
    rw [Nat.toDigits_eq_if (by decide)]
    split
    · rename_i hlt
      rw [ofHex, List.foldl_cons, List.foldl_nil, hexValue_digitChar hlt]
      omega
    · rename_i hge
      rw [ofHex_snoc, ih (n / 16) (by omega), hexValue_digitChar (Nat.mod_lt n (by decide))]
      omega

theorem digitChar_ne_brace {b n : Nat} (hb : 1 < b) :
    ∀ c ∈ Nat.toDigits b n, (c ≠ '\x7d' : Bool) = true := by
  intro c hc
  obtain ⟨d, rfl⟩ := mem_toDigits hb hc
  by_cases hd : d < 16
  · have hall : ∀ d < 16, (Nat.digitChar d ≠ '\x7d' : Bool) = true := by decide
    exact hall d hd
  · rw [Nat.digitChar_eq_star.mpr (Nat.not_lt.mp hd)]
    decide

/-! ## One escape -/

/-- The character that the first escape of a text stands for. -/
def unescape : List Char → Char
  | '\\' :: 't' :: _ => '\t'
  | '\\' :: 'r' :: _ => '\r'
  | '\\' :: 'n' :: _ => '\n'
  | '\\' :: 'u' :: '\x7b' :: rest => Char.ofNat (ofHex (rest.takeWhile fun c => c ≠ '\x7d'))
  | c :: _ => c
  | [] => '\\'

/-- What is left as it is. -/
def Plain (c : Char) : Prop := isControl c = false ∧ c ≠ '\\'

instance (c : Char) : Decidable (Plain c) := inferInstanceAs (Decidable (_ ∧ _))

theorem escapeChar_of_plain {c : Char} (h : Plain c) : escapeChar c = [c] := by
  rw [escapeChar, if_neg]
  simpa [Plain] using h

/-- Whatever is escaped is escaped as one of these. -/
theorem escapeChar_cases {c : Char} (h : ¬ Plain c) :
    (c = '\t' ∧ escapeChar c = ['\\', 't']) ∨ (c = '\r' ∧ escapeChar c = ['\\', 'r']) ∨
      (c = '\n' ∧ escapeChar c = ['\\', 'n']) ∨ (c = '\\' ∧ escapeChar c = ['\\', '\\']) ∨
      escapeChar c = '\\' :: 'u' :: '\x7b' :: (Nat.toDigits 16 c.toNat ++ ['\x7d']) := by
  have hescaped : escapeChar c = escapeDefault c := by
    rw [escapeChar, if_pos]
    by_cases hback : c = '\\'
    · simp [hback]
    · simpa [Plain, hback] using h
  by_cases hback : c = '\\'
  · subst hback
    exact .inr (.inr (.inr (.inl ⟨rfl, by decide⟩)))
  · have hcontrol : c.toNat ≤ 0x1f ∨ 0x7f ≤ c.toNat ∧ c.toNat ≤ 0x9f := by
      have hspecial : isControl c = true := by simpa [Plain, hback] using h
      simpa [isControl] using hspecial
    rw [hescaped, escapeDefault]
    split_ifs with ht hr hn hquote hdouble hprint
    · exact .inl ⟨ht, rfl⟩
    · exact .inr (.inl ⟨hr, rfl⟩)
    · exact .inr (.inr (.inl ⟨hn, rfl⟩))
    · subst hquote
      exact absurd hcontrol (by decide)
    · subst hdouble
      exact absurd hcontrol (by decide)
    · omega
    · exact .inr (.inr (.inr (.inr rfl)))

theorem unescape_of_plain {c : Char} (h : Plain c) (rest : List Char) :
    unescape (c :: rest) = c := by
  unfold unescape
  split
  · rename_i heq
    exact absurd (List.cons.inj heq).1 h.2
  · rename_i heq
    exact absurd (List.cons.inj heq).1 h.2
  · rename_i heq
    exact absurd (List.cons.inj heq).1 h.2
  · rename_i heq
    exact absurd (List.cons.inj heq).1 h.2
  · rename_i heq
    exact (List.cons.inj heq).1.symm
  · rename_i heq
    cases heq

/-- The braces end the number. -/
theorem unescape_number (c : Char) (rest : List Char) :
    unescape ('\\' :: 'u' :: '\x7b' :: (Nat.toDigits 16 c.toNat ++ '\x7d' :: rest)) = c := by
  rw [unescape, List.takeWhile_append_of_pos (digitChar_ne_brace (by decide)),
    List.takeWhile_cons_of_neg (by decide), List.append_nil, ofHex_toDigits, Char.ofNat_toNat]

theorem unescape_escapeChar (c : Char) (rest : List Char) :
    unescape (escapeChar c ++ rest) = c := by
  by_cases hplain : Plain c
  · rw [escapeChar_of_plain hplain]
    exact unescape_of_plain hplain rest
  · rcases escapeChar_cases hplain with
      ⟨rfl, h⟩ | ⟨rfl, h⟩ | ⟨rfl, h⟩ | ⟨rfl, h⟩ | h
    · rw [h]
      rfl
    · rw [h]
      rfl
    · rw [h]
      rfl
    · rw [h]
      rfl
    · rw [h, List.cons_append, List.cons_append, List.cons_append, List.append_assoc]
      exact unescape_number c rest

theorem length_escapeChar {c : Char} (h : ¬ Plain c) : 2 ≤ (escapeChar c).length := by
  rcases escapeChar_cases h with ⟨-, h⟩ | ⟨-, h⟩ | ⟨-, h⟩ | ⟨-, h⟩ | h
  · rw [h]
    decide
  · rw [h]
    decide
  · rw [h]
    decide
  · rw [h]
    decide
  · rw [h, List.length_cons, List.length_cons]
    omega

theorem length_escapeChar_pos (c : Char) : 0 < (escapeChar c).length := by
  by_cases h : Plain c
  · rw [escapeChar_of_plain h]
    exact Nat.one_pos
  · exact Nat.lt_of_lt_of_le (by decide) (length_escapeChar h)

/-! ## The whole text -/

/-- An escape is read only where it stands as it would have been written. -/
def escapeLexer : Lexer Char Char where
  head xs :=
    if escapeChar (unescape xs) <+: xs then
      some (unescape xs, (escapeChar (unescape xs)).length)
    else none
  bounds := by
    intro xs c n h
    split at h
    · rename_i hpre
      cases h
      exact ⟨length_escapeChar_pos _, hpre.length_le⟩
    · cases h

theorem escapeLexer_decodes : escapeLexer.Decodes escapeChar fun _ => True where
  of_encode := by
    intro c _ rest
    simp only [escapeLexer, unescape_escapeChar, List.prefix_append, if_true]
  encode_of := by
    intro xs c n h
    simp only [escapeLexer] at h
    split at h
    · rename_i hpre
      cases h
      exact ⟨trivial, (List.prefix_iff_eq_take.mp hpre).symm⟩
    · cases h

def unescapeFromTerminal (s : String) : String := String.ofList (escapeLexer.lex s.toList).1

theorem toList_escape (s : String) :
    (escapeForTerminal s).toList = Lexer.encodeAll escapeChar s.toList := String.toList_ofList

theorem unescapeFromTerminal_escape (s : String) :
    unescapeFromTerminal (escapeForTerminal s) = s := by
  have hall : ∀ token ∈ s.toList, True := fun _ _ => trivial
  have hlex := Lexer.lex_encodeAll escapeLexer_decodes hall []
  rw [List.append_nil] at hlex
  rw [unescapeFromTerminal, toList_escape, hlex, escapeLexer.lex_of_none escapeLexer.head_nil,
    List.append_nil, String.ofList_toList]

theorem escape_append (s t : String) :
    escapeForTerminal (s ++ t) = escapeForTerminal s ++ escapeForTerminal t := by
  rw [escapeForTerminal, String.toList_append, List.flatMap_append, String.ofList_append]
  rfl

theorem length_le_encodeAll (cs : List Char) :
    cs.length ≤ (Lexer.encodeAll escapeChar cs).length := by
  induction cs with
  | nil => exact Nat.le_refl _
  | cons c cs ih =>
    have hpos := length_escapeChar_pos c
    rw [Lexer.encodeAll, List.flatMap_cons, ← Lexer.encodeAll, List.length_append, List.length_cons]
    omega

theorem encodeAll_eq_self_iff (cs : List Char) :
    Lexer.encodeAll escapeChar cs = cs ↔ ∀ c ∈ cs, Plain c := by
  induction cs with
  | nil => exact iff_of_true rfl fun c hc => absurd hc List.not_mem_nil
  | cons c cs ih =>
    rw [List.forall_mem_cons, Lexer.encodeAll, List.flatMap_cons, ← Lexer.encodeAll]
    by_cases hplain : Plain c
    · rw [escapeChar_of_plain hplain, List.singleton_append, List.cons.injEq, ih]
      exact and_congr_left fun _ => iff_of_true rfl hplain
    · -- an escape is longer than what it stands for, and nothing gets shorter
      have hlong := length_escapeChar hplain
      have hrest := length_le_encodeAll cs
      constructor
      · intro heq
        have hlen := congrArg List.length heq
        rw [List.length_append, List.length_cons] at hlen
        omega
      · exact fun hall => absurd hall.1 hplain

theorem escape_eq_self_iff (s : String) :
    escapeForTerminal s = s ↔ ∀ c ∈ s.toList, Plain c := by
  rw [← encodeAll_eq_self_iff, ← toList_escape, String.toList_inj]

/-- Escaped texts have no control characters, are escaped part by part, and can be told apart. -/
theorem escape_safe_lossless (s t : String) :
    (∀ c ∈ (escapeForTerminal s).toList,
      ¬ c.toNat ≤ 0x1f ∧ ¬ (0x7f ≤ c.toNat ∧ c.toNat ≤ 0x9f)) ∧
    escapeForTerminal (s ++ t) = escapeForTerminal s ++ escapeForTerminal t ∧
    unescapeFromTerminal (escapeForTerminal s) = s ∧
    (escapeForTerminal s = escapeForTerminal t → s = t) ∧
    (escapeForTerminal s = s ↔ ∀ c ∈ s.toList,
      ¬ (c.toNat ≤ 0x1f ∨ 0x7f ≤ c.toNat ∧ c.toNat ≤ 0x9f) ∧ c ≠ '\\') := by
  refine ⟨fun c hc => ?_, escape_append s t, unescapeFromTerminal_escape s, fun h => ?_, ?_⟩
  · have hfree := controlFree_escape s c hc
    simpa [isControl] using hfree
  · have hback := congrArg unescapeFromTerminal h
    rwa [unescapeFromTerminal_escape, unescapeFromTerminal_escape] at hback
  · rw [escape_eq_self_iff]
    simp [Plain, isControl]

example : escapeForTerminal "a\\\t\x1b" = "a\\\\\\t\\u\x7b1b\x7d" := by decide

end Wirerust.Terminal
