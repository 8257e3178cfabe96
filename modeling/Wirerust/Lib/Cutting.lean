import Mathlib.Data.List.GetD

/-!
Messages that come in pieces.

The bytes of a list of messages arrive in chunks that are cut without regard to where a message
ends. What has arrived is some messages and the front of the next one (`exists_cut`). Every byte
bears the stamp of the chunk that it came in, and a message that of its last byte (`stamped`).
-/

namespace Lib

variable {β μ θ : Type} (bytes : μ → List β)

/-- `held` is nothing, or part of the first message of `rest`. -/
def Pending (held : List β) : List μ → Prop
  | [] => held = []
  | m :: _ => held <+: bytes m ∧ held.length < (bytes m).length

/-- What is held is less than a message, so that it is all only if there are no messages. -/
theorem Pending.eq_nil {held : List β} {rest : List μ} (h : Pending bytes held rest)
    (hall : held = rest.flatMap bytes) : rest = [] := by
  cases rest with
  | nil => rfl
  | cons m rest =>
    have hlength := congrArg List.length hall
    rw [List.flatMap_cons, List.length_append] at hlength
    have hless := h.2
    omega

theorem pending_nil {rest : List μ} (hne : ∀ m ∈ rest, bytes m ≠ []) : Pending bytes [] rest := by
  cases rest with
  | nil => rfl
  | cons m rest =>
    exact ⟨List.nil_prefix, List.length_pos_iff.mpr (hne m List.mem_cons_self)⟩

/-- What has arrived of a stream of messages: those that are complete and part of the next. -/
theorem exists_cut {messages : List μ} (hne : ∀ m ∈ messages, bytes m ≠ []) {arrived : List β}
    (h : arrived <+: messages.flatMap bytes) :
    ∃ done rest held, messages = done ++ rest ∧ arrived = done.flatMap bytes ++ held ∧
      Pending bytes held rest := by
  induction messages generalizing arrived with
  | nil =>
    rw [List.flatMap_nil, List.prefix_nil] at h
    exact ⟨[], [], [], rfl, h, rfl⟩
  | cons m messages ih =>
    rw [List.flatMap_cons] at h
    by_cases hlength : arrived.length < (bytes m).length
    · exact ⟨[], m :: messages, arrived, rfl, rfl,
        List.prefix_of_prefix_length_le h (List.prefix_append _ _) (Nat.le_of_lt hlength), hlength⟩
    · obtain ⟨more, rfl⟩ : bytes m <+: arrived :=
        List.prefix_of_prefix_length_le (List.prefix_append _ _) h (Nat.le_of_not_lt hlength)
      obtain ⟨done, rest, held, hmessages, harrived, hpending⟩ :=
        ih (fun m' hm' => hne m' (List.mem_cons_of_mem m hm'))
          ((List.prefix_append_right_inj _).mp h)
      refine ⟨m :: done, rest, held, by rw [hmessages, List.cons_append], ?_, hpending⟩
      rw [List.flatMap_cons, List.append_assoc, harrived]

/-! ## Room -/

/-- How many of the first `n` elements belong to a message that is not complete. -/
def pendingLength : List μ → Nat → Nat
  | [], n => n
  | m :: messages, n =>
    if (bytes m).length ≤ n then pendingLength messages (n - (bytes m).length) else n

/-- Chunks of these lengths, after the first `n` elements, never go beyond the limit together with
what is pending before them. -/
def Fits (limit : Nat) (messages : List μ) : Nat → List Nat → Prop
  | _, [] => True
  | n, length :: lengths =>
    pendingLength bytes messages n + length ≤ limit ∧ Fits limit messages (n + length) lengths

theorem pendingLength_append (done rest : List μ) (n : Nat) :
    pendingLength bytes (done ++ rest) ((done.flatMap bytes).length + n) =
      pendingLength bytes rest n := by
  induction done with
  | nil => rw [List.nil_append, List.flatMap_nil, List.length_nil, Nat.zero_add]
  | cons m done ih =>
    rw [List.flatMap_cons, List.length_append, Nat.add_assoc, List.cons_append, pendingLength,
      if_pos (Nat.le_add_right _ _), Nat.add_sub_cancel_left, ih]

theorem pendingLength_of_pending {held : List β} {rest : List μ} (h : Pending bytes held rest) :
    pendingLength bytes rest held.length = held.length := by
  cases rest with
  | nil => rfl
  | cons m rest => rw [pendingLength, if_neg (Nat.not_le_of_lt h.2)]

theorem fits_append {limit : Nat} {done rest : List μ} {n : Nat} {lengths : List Nat}
    (h : Fits bytes limit (done ++ rest) ((done.flatMap bytes).length + n) lengths) :
    Fits bytes limit rest n lengths := by
  induction lengths generalizing n with
  | nil => trivial
  | cons length lengths ih =>
    obtain ⟨hroom, hrest⟩ := h
    rw [pendingLength_append] at hroom
    rw [Nat.add_assoc] at hrest
    exact ⟨hroom, ih hrest⟩

/-! ## Stamps -/

section Stamps

variable [Inhabited θ]

/-- Every message with the stamp of its last element. -/
def stamped : List θ → List μ → List (μ × θ)
  | _, [] => []
  | stamps, m :: messages =>
    (m, stamps.getD ((bytes m).length - 1) default) ::
      stamped (stamps.drop (bytes m).length) messages

theorem map_fst_stamped (stamps : List θ) (messages : List μ) :
    (stamped bytes stamps messages).map Prod.fst = messages := by
  induction messages generalizing stamps with
  | nil => rfl
  | cons m messages ih => rw [stamped, List.map_cons, ih]

/-- Messages that lie within one chunk. -/
theorem stamped_replicate (stamp : θ) (rest : List θ) {done : List μ} (more : List μ) {n : Nat}
    (hne : ∀ m ∈ done, bytes m ≠ []) (hn : (done.flatMap bytes).length ≤ n) :
    stamped bytes (List.replicate n stamp ++ rest) (done ++ more) =
      done.map (fun m => (m, stamp)) ++
        stamped bytes (List.replicate (n - (done.flatMap bytes).length) stamp ++ rest) more := by
  induction done generalizing n with
  | nil => rfl
  | cons m done ih =>
    have hm := List.length_pos_iff.mpr (hne m List.mem_cons_self)
    rw [List.flatMap_cons, List.length_append] at hn
    have hlast : (List.replicate n stamp ++ rest).getD ((bytes m).length - 1) default = stamp := by
      rw [List.getD_append _ _ _ _ (by rw [List.length_replicate]; omega),
        List.getD_replicate _ (by omega)]
    have hdrop : (List.replicate n stamp ++ rest).drop (bytes m).length =
        List.replicate (n - (bytes m).length) stamp ++ rest := by
      rw [List.drop_append_of_le_length (by rw [List.length_replicate]; omega),
        List.drop_replicate]
    rw [List.cons_append, stamped, hlast, hdrop,
      ih (fun m' hm' => hne m' (List.mem_cons_of_mem m hm')) (by omega), List.map_cons,
      List.cons_append, List.flatMap_cons, List.length_append, Nat.sub_add_eq]

/-- The messages that a chunk completes, of which the first may have begun before, get the stamp of
the chunk. -/
theorem stamped_chunk (stamp : θ) (rest : List θ) {before : List θ} {done : List μ}
    (more : List μ) (n held : Nat) (hne : ∀ m ∈ done, bytes m ≠ [])
    (hbefore : ∀ m ∈ done.head?, before.length < (bytes m).length)
    (hn : (done.flatMap bytes).length + held = before.length + n) :
    ∃ before' : List θ, before'.length = held ∧
      stamped bytes (before ++ (List.replicate n stamp ++ rest)) (done ++ more) =
        done.map (fun m => (m, stamp)) ++ stamped bytes (before' ++ rest) more := by
  cases done with
  | nil =>
    refine ⟨before ++ List.replicate n stamp, ?_, ?_⟩
    · rw [List.length_append, List.length_replicate]
      simpa using hn.symm
    · rw [List.append_assoc]
      rfl
  | cons m done =>
    have hm := hbefore m rfl
    rw [List.flatMap_cons, List.length_append] at hn
    have hlast : (before ++ (List.replicate n stamp ++ rest)).getD ((bytes m).length - 1) default =
        stamp := by
      rw [List.getD_append_right _ _ _ _ (by omega),
        List.getD_append _ _ _ _ (by rw [List.length_replicate]; omega),
        List.getD_replicate _ (by omega)]
    have hdrop : (before ++ (List.replicate n stamp ++ rest)).drop (bytes m).length =
        List.replicate (before.length + n - (bytes m).length) stamp ++ rest := by
      rw [List.drop_append, List.drop_eq_nil_of_le (Nat.le_of_lt hm), List.nil_append,
        List.drop_append_of_le_length (by rw [List.length_replicate]; omega), List.drop_replicate]
      congr 2
      omega
    refine ⟨List.replicate held stamp, List.length_replicate, ?_⟩
    rw [List.cons_append, stamped, hlast, hdrop, stamped_replicate bytes stamp rest more
      (fun m' hm' => hne m' (List.mem_cons_of_mem m hm')) (by omega), List.map_cons,
      List.cons_append]
    congr 5
    omega

end Stamps

end Lib
