/-!
Reading tokens off the front of a stream.

A `Lexer` finds at most one token at the front of what is there and says how many elements it
takes. `lex` reads tokens for as long as there are any, and `feed` does so chunk by chunk, with
the rest of each chunk put before the next one. If more elements never change a token (`Stable`),
the chunks make no difference (`feed_eq_lex`).
-/

namespace Lib

variable {β τ : Type}

structure Lexer (β τ : Type) where
  head : List β → Option (τ × Nat)
  bounds : ∀ {xs token n}, head xs = some (token, n) → 0 < n ∧ n ≤ xs.length

namespace Lexer

def scan (lx : Lexer β τ) : Nat → List β → List τ × List β
  | 0, xs => ([], xs)
  | turns + 1, xs =>
    match lx.head xs with
    | none => ([], xs)
    | some (token, n) =>
      let (tokens, rest) := scan lx turns (xs.drop n)
      (token :: tokens, rest)

def lex (lx : Lexer β τ) (xs : List β) : List τ × List β := lx.scan xs.length xs

variable (lx : Lexer β τ)

theorem head_nil : lx.head [] = none := by
  cases h : lx.head [] with
  | none => rfl
  | some next =>
    obtain ⟨hpos, hle⟩ := lx.bounds h
    exact absurd hle (Nat.not_le_of_lt hpos)

/-- There are never more turns than elements. -/
theorem scan_eq (turns turns' : Nat) (xs : List β) (h : xs.length ≤ turns)
    (h' : xs.length ≤ turns') : lx.scan turns xs = lx.scan turns' xs := by
  induction turns generalizing turns' xs with
  | zero =>
    obtain rfl : xs = [] := List.length_eq_zero_iff.mp (Nat.le_zero.mp h)
    cases turns' with
    | zero => rfl
    | succ turns' => rw [scan, scan, lx.head_nil]
  | succ turns ih =>
    cases turns' with
    | zero =>
      obtain rfl : xs = [] := List.length_eq_zero_iff.mp (Nat.le_zero.mp h')
      rw [scan, scan, lx.head_nil]
    | succ turns' =>
      rw [scan, scan]
      cases hhead : lx.head xs with
      | none => rfl
      | some next =>
        obtain ⟨token, n⟩ := next
        obtain ⟨hpos, hle⟩ := lx.bounds hhead
        have hdrop : (xs.drop n).length = xs.length - n := List.length_drop
        simp only [ih turns' (xs.drop n) (by omega) (by omega)]

theorem scan_of_le {turns : Nat} {xs : List β} (h : xs.length ≤ turns) :
    lx.scan turns xs = lx.lex xs := lx.scan_eq turns xs.length xs h (Nat.le_refl _)

theorem lex_of_none {xs : List β} (h : lx.head xs = none) : lx.lex xs = ([], xs) := by
  unfold lex
  cases hlen : xs.length with
  | zero => rfl
  | succ n => rw [scan, h]

theorem lex_of_some {xs : List β} {token : τ} {n : Nat} (h : lx.head xs = some (token, n)) :
    lx.lex xs = (token :: (lx.lex (xs.drop n)).1, (lx.lex (xs.drop n)).2) := by
  obtain ⟨hpos, hle⟩ := lx.bounds h
  have hdrop : (xs.drop n).length = xs.length - n := List.length_drop
  have hall : lx.scan (xs.length - 1 + 1) xs = lx.lex xs := lx.scan_of_le (by omega)
  have hrest : lx.scan (xs.length - 1) (xs.drop n) = lx.lex (xs.drop n) :=
    lx.scan_of_le (by omega)
  rw [← hall, scan, h]
  simp only [hrest]

/-- The induction over the tokens of a stream. -/
theorem lex_induction {P : List β → Prop} (none : ∀ xs, lx.head xs = none → P xs)
    (some : ∀ xs token n, lx.head xs = some (token, n) → P (xs.drop n) → P xs) (xs : List β) :
    P xs := by
  induction hlen : xs.length using Nat.strongRecOn generalizing xs with
  | _ m ih =>
    cases hhead : lx.head xs with
    | none => exact none xs hhead
    | some next =>
      obtain ⟨token, n⟩ := next
      obtain ⟨hpos, hle⟩ := lx.bounds hhead
      have hdrop : (xs.drop n).length = xs.length - n := List.length_drop
      exact some xs token n hhead (ih _ (by omega) _ rfl)

/-- Reading stops where there is no token. -/
theorem head_rest (xs : List β) : lx.head (lx.lex xs).2 = none := by
  induction xs using lx.lex_induction with
  | none xs hhead => rw [lx.lex_of_none hhead, hhead]
  | some xs token n hhead ih => rw [lx.lex_of_some hhead, ih]

/-- Every token takes an element. -/
theorem length_lex (xs : List β) : (lx.lex xs).1.length + (lx.lex xs).2.length ≤ xs.length := by
  induction xs using lx.lex_induction with
  | none xs hhead =>
    simp only [lx.lex_of_none hhead, List.length_nil, Nat.zero_add, Nat.le_refl]
  | some xs token n hhead ih =>
    obtain ⟨hpos, hle⟩ := lx.bounds hhead
    rw [List.length_drop] at ih
    rw [lx.lex_of_some hhead]
    simp only [List.length_cons]
    omega

/-! ## Chunks -/

/-- More elements never change a token. -/
def Stable (lx : Lexer β τ) : Prop :=
  ∀ xs ys next, lx.head xs = some next → lx.head (xs ++ ys) = some next

/-- What has been read off the front stays read when more comes. -/
theorem lex_append (hstable : lx.Stable) (xs ys : List β) :
    lx.lex (xs ++ ys) = ((lx.lex xs).1 ++ (lx.lex ((lx.lex xs).2 ++ ys)).1,
      (lx.lex ((lx.lex xs).2 ++ ys)).2) := by
  induction xs using lx.lex_induction with
  | none xs hhead => rw [lx.lex_of_none hhead, List.nil_append]
  | some xs token n hhead ih =>
    obtain ⟨-, hle⟩ := lx.bounds hhead
    rw [lx.lex_of_some (hstable xs ys _ hhead), List.drop_append_of_le_length hle, ih,
      lx.lex_of_some hhead]
    rfl

/-- The chunks one after the other; `carry` is what the earlier ones have left. -/
def feed (lx : Lexer β τ) (carry : List β) : List (List β) → List τ × List β
  | [] => ([], carry)
  | chunk :: chunks =>
    let (tokens, rest) := lx.lex (carry ++ chunk)
    let (more, rest) := feed lx rest chunks
    (tokens ++ more, rest)

theorem length_feed (carry : List β) (chunks : List (List β)) :
    (lx.feed carry chunks).1.length + (lx.feed carry chunks).2.length ≤
      carry.length + chunks.flatten.length := by
  induction chunks generalizing carry with
  | nil => simp [feed]
  | cons chunk chunks ih =>
    have hfirst := lx.length_lex (carry ++ chunk)
    have hrest := ih (lx.lex (carry ++ chunk)).2
    simp only [feed, List.flatten_cons, List.length_append] at *
    omega

theorem feed_eq_lex (hstable : lx.Stable) {carry : List β} (chunks : List (List β))
    (hcarry : lx.head carry = none) : lx.feed carry chunks = lx.lex (carry ++ chunks.flatten) := by
  induction chunks generalizing carry with
  | nil => rw [feed, List.flatten_nil, List.append_nil, lx.lex_of_none hcarry]
  | cons chunk chunks ih =>
    rw [feed, List.flatten_cons, ← List.append_assoc, lx.lex_append hstable (carry ++ chunk)]
    simp only [ih (lx.head_rest (carry ++ chunk))]

end Lexer

end Lib
