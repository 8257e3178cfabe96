import Wirerust.Lib.Lexing

/-!
Lexers that read back what an encoder has written.

`Decodes` says that a lexer and an encoder belong together: an encoded token is read back whatever
follows it, and only encoded tokens are read. Then a list of tokens survives being written and
read (`lex_encodeAll`), and the tokens read from a stream are the longest list that stands encoded
at its front (`encodedAt_lex`, `prefix_of_encodedAt`).
-/

namespace Lib.Lexer

variable {β τ : Type}

/-- The tokens one after the other. -/
def encodeAll (encode : τ → List β) (tokens : List τ) : List β := tokens.flatMap encode

structure Decodes (lx : Lexer β τ) (encode : τ → List β) (Valid : τ → Prop) : Prop where
  of_encode : ∀ {token}, Valid token → ∀ rest,
    lx.head (encode token ++ rest) = some (token, (encode token).length)
  encode_of : ∀ {xs token n}, lx.head xs = some (token, n) → Valid token ∧ xs.take n = encode token

/-- The encodings of `tokens` are the front of `xs`. -/
def EncodedAt (encode : τ → List β) (Valid : τ → Prop) (tokens : List τ) (xs : List β) : Prop :=
  (∀ token ∈ tokens, Valid token) ∧ encodeAll encode tokens <+: xs

variable {lx : Lexer β τ} {encode : τ → List β} {Valid : τ → Prop}

theorem Decodes.stable (h : lx.Decodes encode Valid) : lx.Stable := by
  rintro xs ys ⟨token, n⟩ hhead
  obtain ⟨hvalid, htake⟩ := h.encode_of hhead
  obtain ⟨-, hle⟩ := lx.bounds hhead
  have hlen : (encode token).length = n := by
    rw [← htake, List.length_take, Nat.min_eq_left hle]
  have hread := h.of_encode hvalid (xs.drop n ++ ys)
  rwa [← List.append_assoc, ← htake, List.take_append_drop, htake, hlen] at hread

theorem lex_encodeAll (h : lx.Decodes encode Valid) {tokens : List τ}
    (hvalid : ∀ token ∈ tokens, Valid token) (rest : List β) :
    lx.lex (encodeAll encode tokens ++ rest) =
      (tokens ++ (lx.lex rest).1, (lx.lex rest).2) := by
  induction tokens with
  | nil => rfl
  | cons token tokens ih =>
    have hrest := ih fun t ht => hvalid t (List.mem_cons_of_mem token ht)
    have hhead := h.of_encode (hvalid token List.mem_cons_self) (encodeAll encode tokens ++ rest)
    rw [encodeAll, List.flatMap_cons, List.append_assoc, ← encodeAll, lx.lex_of_some hhead,
      List.drop_left, hrest]
    rfl

/-- What is read stands encoded at the front, followed by what is left. -/
theorem encodeAll_lex (h : lx.Decodes encode Valid) (xs : List β) :
    (∀ token ∈ (lx.lex xs).1, Valid token) ∧
      encodeAll encode (lx.lex xs).1 ++ (lx.lex xs).2 = xs := by
  induction xs using lx.lex_induction with
  | none xs hhead =>
    rw [lx.lex_of_none hhead]
    exact ⟨fun _ ht => absurd ht List.not_mem_nil, rfl⟩
  | some xs token n hhead ih =>
    obtain ⟨hvalid, htake⟩ := h.encode_of hhead
    obtain ⟨ihvalid, ihall⟩ := ih
    rw [lx.lex_of_some hhead]
    refine ⟨List.forall_mem_cons.mpr ⟨hvalid, ihvalid⟩, ?_⟩
    rw [encodeAll, List.flatMap_cons, List.append_assoc, ← encodeAll, ihall, ← htake,
      List.take_append_drop]

theorem encodedAt_lex (h : lx.Decodes encode Valid) (xs : List β) :
    EncodedAt encode Valid (lx.lex xs).1 xs := by
  obtain ⟨hvalid, hall⟩ := encodeAll_lex h xs
  exact ⟨hvalid, ⟨_, hall⟩⟩

/-- There is no other way to read the front. -/
theorem prefix_of_encodedAt (h : lx.Decodes encode Valid) {tokens : List τ} {xs : List β}
    (hat : EncodedAt encode Valid tokens xs) : tokens <+: (lx.lex xs).1 := by
  obtain ⟨hvalid, rest, rfl⟩ := hat
  rw [lex_encodeAll h hvalid]
  exact List.prefix_append tokens _

theorem EncodedAt.take {tokens : List τ} {xs : List β} (hat : EncodedAt encode Valid tokens xs)
    (count : Nat) : EncodedAt encode Valid (tokens.take count) xs := by
  obtain ⟨hvalid, hpre⟩ := hat
  refine ⟨fun token ht => hvalid token (List.mem_of_mem_take ht), List.IsPrefix.trans ?_ hpre⟩
  refine ⟨encodeAll encode (tokens.drop count), ?_⟩
  rw [encodeAll, encodeAll, ← List.flatMap_append, List.take_append_drop, encodeAll]

end Lib.Lexer
