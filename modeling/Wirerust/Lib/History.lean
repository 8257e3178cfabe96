import Mathlib.Data.List.Induction

/-!
What a list of events, the latest one last, says about the present.

`latest f` is the value at the last event that has one; `Occurs P` and `Always P` say that some or
every event has `P` together with what came before it. All three are known after one more event if
they were known before it (`latest_snoc`, `occurs_snoc`, `always_snoc`), so that a state machine
that keeps such facts can be compared with its history one event at a time.
-/

namespace Lib

variable {α β : Type}

/-- The value of `f` at the last event that has one. -/
def latest (f : α → Option β) (events : List α) : Option β := (events.filterMap f).getLast?

@[simp] theorem latest_nil (f : α → Option β) : latest f [] = none := rfl

theorem latest_snoc (f : α → Option β) (events : List α) (e : α) :
    latest f (events ++ [e]) = (f e).or (latest f events) := by
  rw [latest, latest, List.filterMap_append]
  cases he : f e with
  | none =>
    rw [List.filterMap_cons_none he, List.filterMap_nil, List.append_nil, Option.none_or]
  | some b =>
    rw [List.filterMap_cons_some he, List.filterMap_nil, List.getLast?_concat, Option.some_or]

/-- Some event has `P` together with the events before it. -/
def Occurs (P : List α → α → Prop) (events : List α) : Prop :=
  ∃ before e after, events = before ++ e :: after ∧ P before e

variable {P : List α → α → Prop}

theorem not_occurs_nil : ¬ Occurs P [] := by
  rintro ⟨before, e, after, heq, -⟩
  exact absurd heq.symm (List.append_ne_nil_of_right_ne_nil before (List.cons_ne_nil e after))

theorem occurs_snoc (events : List α) (e : α) :
    Occurs P (events ++ [e]) ↔ Occurs P events ∨ P events e := by
  constructor
  · rintro ⟨before, x, after, heq, hx⟩
    cases after using List.reverseRecOn with
    | nil =>
      obtain ⟨rfl, hlast⟩ := List.append_inj' heq rfl
      cases hlast
      exact .inr hx
    | append_singleton after y _ =>
      rw [← List.cons_append, ← List.append_assoc] at heq
      obtain ⟨rfl, -⟩ := List.append_inj' heq rfl
      exact .inl ⟨before, x, after, rfl, hx⟩
  · rintro (⟨before, x, after, rfl, hx⟩ | he)
    · exact ⟨before, x, after ++ [e], by rw [List.append_assoc, List.cons_append], hx⟩
    · exact ⟨events, e, [], rfl, he⟩

/-- Every event has `P` together with the events before it. -/
def Always (P : List α → α → Prop) (events : List α) : Prop :=
  ∀ before e after, events = before ++ e :: after → P before e

theorem always_iff_not_occurs (events : List α) :
    Always P events ↔ ¬ Occurs (fun before e => ¬ P before e) events := by
  constructor
  · rintro h ⟨before, e, after, heq, hnot⟩
    exact hnot (h before e after heq)
  · intro h before e after heq
    by_contra hnot
    exact h ⟨before, e, after, heq, hnot⟩

theorem always_nil : Always P [] := (always_iff_not_occurs []).mpr not_occurs_nil

theorem always_snoc (events : List α) (e : α) :
    Always P (events ++ [e]) ↔ Always P events ∧ P events e := by
  rw [always_iff_not_occurs, always_iff_not_occurs, occurs_snoc, not_or, not_not]

end Lib
