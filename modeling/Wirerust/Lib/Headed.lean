import Wirerust.Lib.Lexing

/-!
Frames that begin with a header, which says how many elements follow it.

A header may announce at most `limit` elements. What is left when the frames have been read off the
front is either less than a frame (`Waiting`) or begins with a header that announces too much
(`Stuck`). A stream that can be read to its end is stuck nowhere (`not_stuck`).
-/

namespace Lib

structure Headed (β : Type) where
  header : Nat
  header_pos : 0 < header
  limit : Nat
  body : List β → Nat
  body_append : ∀ {xs : List β}, header ≤ xs.length → ∀ ys, body (xs ++ ys) = body xs

namespace Headed

variable {β : Type} (h : Headed β)

def size (xs : List β) : Nat := h.header + h.body xs

def head (xs : List β) : Option (List β × Nat) :=
  if h.header ≤ xs.length ∧ h.body xs ≤ h.limit ∧ h.size xs ≤ xs.length then
    some (xs.take (h.size xs), h.size xs)
  else none

def Stuck (xs : List β) : Prop := h.header ≤ xs.length ∧ h.limit < h.body xs

instance (xs : List β) : Decidable (h.Stuck xs) :=
  inferInstanceAs (Decidable (h.header ≤ xs.length ∧ h.limit < h.body xs))

def Waiting (xs : List β) : Prop :=
  xs.length < h.header ∨ h.body xs ≤ h.limit ∧ xs.length < h.size xs

/-- A frame, and nothing after it. -/
def Whole (xs : List β) : Prop :=
  h.header ≤ xs.length ∧ h.body xs ≤ h.limit ∧ xs.length = h.size xs

variable {h}

theorem head_eq_some {xs frame : List β} {n : Nat} (hhead : h.head xs = some (frame, n)) :
    h.header ≤ xs.length ∧ h.body xs ≤ h.limit ∧ n = h.size xs ∧ n ≤ xs.length ∧
      frame = xs.take n := by
  unfold head at hhead
  split at hhead
  · rename_i hframe
    cases hhead
    exact ⟨hframe.1, hframe.2.1, rfl, hframe.2.2, rfl⟩
  · cases hhead

theorem head_of_le {xs : List β} (hlen : h.header ≤ xs.length) (hbody : h.body xs ≤ h.limit)
    (hsize : h.size xs ≤ xs.length) : h.head xs = some (xs.take (h.size xs), h.size xs) :=
  if_pos ⟨hlen, hbody, hsize⟩

variable (h)

def lexer : Lexer β (List β) where
  head := h.head
  bounds := fun {xs frame n} hhead => by
    obtain ⟨-, -, hn, hle, -⟩ := head_eq_some hhead
    refine ⟨?_, hle⟩
    rw [hn]
    exact Nat.lt_of_lt_of_le h.header_pos (Nat.le_add_right _ _)

variable {h}

theorem lexer_head (xs : List β) : h.lexer.head xs = h.head xs := rfl

theorem lexer_stable : h.lexer.Stable := by
  rintro xs ys ⟨frame, n⟩ hhead
  obtain ⟨hlen, hbody, hn, hle, hframe⟩ := head_eq_some hhead
  have heq := h.body_append hlen ys
  have hsize : h.size (xs ++ ys) = n := by rw [hn, size, size, heq]
  have hall : (xs ++ ys).length = xs.length + ys.length := List.length_append
  rw [lexer_head, head_of_le (by omega) (by omega) (by omega), hsize, hframe,
    List.take_append_of_le_length hle]

theorem not_waiting_of_stuck {xs : List β} (hstuck : h.Stuck xs) : ¬h.Waiting xs := by
  obtain ⟨hlen, hbody⟩ := hstuck
  unfold Waiting
  omega

theorem head_of_stuck {xs : List β} (hstuck : h.Stuck xs) : h.lexer.head xs = none := by
  obtain ⟨-, hbody⟩ := hstuck
  exact if_neg (by omega)

theorem head_of_waiting {xs : List β} (hwait : h.Waiting xs) : h.lexer.head xs = none := by
  unfold Waiting at hwait
  exact if_neg (by omega)

theorem waiting_of_head {xs : List β} (hhead : h.lexer.head xs = none) (hstuck : ¬h.Stuck xs) :
    h.Waiting xs := by
  rw [lexer_head, head] at hhead
  split at hhead
  · cases hhead
  · unfold Stuck at hstuck
    unfold Waiting
    omega

theorem waiting_nil : h.Waiting [] := .inl h.header_pos

/-! ## Streams that can be read to their end -/

section Complete

variable {xs ys : List β} {frames : List (List β)} (hlex : h.lexer.lex (xs ++ ys) = (frames, []))

include hlex

/-- The first frame, if something is there. -/
theorem head_of_complete (hne : xs ++ ys ≠ []) :
    ∃ frame n rest, h.head (xs ++ ys) = some (frame, n) ∧ frames = frame :: rest := by
  cases hhead : h.lexer.head (xs ++ ys) with
  | none =>
    rw [h.lexer.lex_of_none hhead] at hlex
    exact absurd (Prod.mk.inj hlex).2 hne
  | some next =>
    rw [h.lexer.lex_of_some hhead] at hlex
    exact ⟨next.1, next.2, _, hhead, (Prod.mk.inj hlex).1.symm⟩

theorem not_stuck : ¬h.Stuck xs := by
  rintro ⟨hlen, hbody⟩
  have hpos := h.header_pos
  have hne : xs ++ ys ≠ [] := by
    intro hnil
    rw [(List.append_eq_nil_iff.mp hnil).1] at hlen
    exact absurd hlen (Nat.not_le_of_lt hpos)
  obtain ⟨frame, n, rest, hhead, -⟩ := head_of_complete hlex hne
  obtain ⟨-, hle, -⟩ := head_eq_some hhead
  rw [h.body_append hlen] at hle
  exact absurd hle (Nat.not_le_of_lt hbody)

/-- What waits is shorter than the frame it begins. -/
theorem length_waiting (hwait : h.Waiting xs) {n : Nat} (hpos : 0 < n)
    (hframes : ∀ frame ∈ frames, frame.length ≤ n) : xs.length < n := by
  cases xs with
  | nil => exact hpos
  | cons x xs =>
    obtain ⟨frame, m, rest, hhead, rfl⟩ := head_of_complete hlex (by simp)
    obtain ⟨hlen, -, hm, hle, hframe⟩ := head_eq_some hhead
    have hfirst := hframes frame (List.mem_cons_self ..)
    rw [hframe, List.length_take, Nat.min_eq_left hle] at hfirst
    rcases hwait with hshort | ⟨-, hincomplete⟩
    · rw [hm, size] at hfirst
      omega
    · by_cases hheader : h.header ≤ (x :: xs).length
      · rw [hm, size, h.body_append hheader ys] at hfirst
        rw [size] at hincomplete
        omega
      · rw [hm, size] at hfirst
        omega

end Complete

theorem complete_nil {xs : List β} {frames : List (List β)} (hhead : h.lexer.head xs = none)
    (hlex : h.lexer.lex xs = (frames, [])) : xs = [] ∧ frames = [] := by
  rw [h.lexer.lex_of_none hhead] at hlex
  cases hlex
  exact ⟨rfl, rfl⟩

/-- Reading the first part of a stream leaves the frames of the second. -/
theorem complete_append {xs ys : List β} {frames : List (List β)}
    (hlex : h.lexer.lex (xs ++ ys) = (frames, [])) :
    ∃ later, frames = (h.lexer.lex xs).1 ++ later ∧
      h.lexer.lex ((h.lexer.lex xs).2 ++ ys) = (later, []) := by
  rw [h.lexer.lex_append lexer_stable xs ys] at hlex
  obtain ⟨hframes, hrest⟩ := Prod.mk.inj hlex
  exact ⟨_, hframes.symm, Prod.ext rfl hrest⟩

theorem Whole.head {frame : List β} (hwhole : h.Whole frame) (ys : List β) :
    h.lexer.head (frame ++ ys) = some (frame, frame.length) := by
  obtain ⟨hlen, hbody, hsize⟩ := hwhole
  have hself : h.head frame = some (frame, frame.length) := by
    rw [head_of_le hlen hbody (Nat.le_of_eq hsize.symm), ← hsize, List.take_length]
  exact lexer_stable frame ys _ hself

theorem lex_flatten {frames : List (List β)} (hwhole : ∀ frame ∈ frames, h.Whole frame) :
    h.lexer.lex frames.flatten = (frames, []) := by
  induction frames with
  | nil => exact h.lexer.lex_of_none h.lexer.head_nil
  | cons frame frames ih =>
    have hfirst := (hwhole frame (List.mem_cons_self ..)).head frames.flatten
    rw [List.flatten_cons, h.lexer.lex_of_some hfirst, List.drop_left,
      ih fun frame hmem => hwhole frame (List.mem_cons_of_mem _ hmem)]

end Headed

end Lib
