import Wirerust.Text

/-!
What `str::from_utf8` accepts.

A character that is decoded has the bytes that encode it (`decodeChar_encodes`), so accepted bytes
are the encoding of the text they are read as, and no two byte strings are read as the same text
(`fromUtf8_injective`). ASCII bytes are read as themselves (`fromUtf8_asciiBytes`).
-/

namespace Wirerust.Text

/-- The bytes of a character. -/
def encodeChar (c : Char) : List UInt8 :=
  let n := c.toNat
  if n < 0x80 then [UInt8.ofNat n]
  else if n < 0x800 then [UInt8.ofNat (0xc0 + n / 64), UInt8.ofNat (0x80 + n % 64)]
  else if n < 0x10000 then
    [UInt8.ofNat (0xe0 + n / 4096), UInt8.ofNat (0x80 + n / 64 % 64), UInt8.ofNat (0x80 + n % 64)]
  else
    [UInt8.ofNat (0xf0 + n / 262144), UInt8.ofNat (0x80 + n / 4096 % 64),
      UInt8.ofNat (0x80 + n / 64 % 64), UInt8.ofNat (0x80 + n % 64)]

/-! ## One character -/

theorem toNat_ofNat_of_scalar {n : Nat} (h : n.isValidChar) : (Char.ofNat n).toNat = n := by
  rw [Char.ofNat, dif_pos h]
  rfl

theorem ofNat_eq_of_toNat (b : UInt8) {n : Nat} (h : b.toNat = n) : UInt8.ofNat n = b := by
  rw [← h, UInt8.ofNat_toNat]

theorem isContinuation_bounds {b : UInt8} (h : isContinuation b = true) :
    0x80 ≤ b.toNat ∧ b.toNat ≤ 0xbf := by
  simp only [isContinuation, Bool.and_eq_true, decide_eq_true_eq, UInt8.le_iff_toNat_le,
    UInt8.reduceToNat] at h
  exact h

theorem secondOk_bounds {first second : UInt8} (h : secondOk first second = true) :
    0x80 ≤ second.toNat ∧ second.toNat ≤ 0xbf ∧
      (first.toNat = 0xe0 → 0xa0 ≤ second.toNat) ∧ (first.toNat = 0xed → second.toNat ≤ 0x9f) ∧
      (first.toNat = 0xf0 → 0x90 ≤ second.toNat) ∧ (first.toNat = 0xf4 → second.toNat ≤ 0x8f) := by
  simp only [secondOk, isContinuation, ← UInt8.toNat_inj, UInt8.le_iff_toNat_le,
    UInt8.reduceToNat] at h
  split at h
  · simp only [Bool.and_eq_true, decide_eq_true_eq] at h
    omega
  · split at h
    · simp only [Bool.and_eq_true, decide_eq_true_eq] at h
      omega
    · split at h
      · simp only [Bool.and_eq_true, decide_eq_true_eq] at h
        omega
      · split at h
        · simp only [Bool.and_eq_true, decide_eq_true_eq] at h
          omega
        · simp only [Bool.and_eq_true, decide_eq_true_eq] at h
          omega

/-- The first bytes of the sequences of a width. -/
theorem utf8Width_cases (b : UInt8) :
    (utf8Width b = 0) ∨ (utf8Width b = 1 ∧ b.toNat ≤ 0x7f) ∨
      (utf8Width b = 2 ∧ 0xc2 ≤ b.toNat ∧ b.toNat ≤ 0xdf) ∨
      (utf8Width b = 3 ∧ 0xe0 ≤ b.toNat ∧ b.toNat ≤ 0xef) ∨
      (utf8Width b = 4 ∧ 0xf0 ≤ b.toNat ∧ b.toNat ≤ 0xf4) := by
  simp only [utf8Width, UInt8.le_iff_toNat_le, UInt8.reduceToNat, Bool.and_eq_true,
    decide_eq_true_eq]
  split
  · omega
  · split
    · omega
    · split
      · omega
      · split
        · omega
        · omega

theorem takeWhile_length_eq_one {rest : List UInt8}
    (h : ((rest.take 1).takeWhile isContinuation).length = 1) :
    ∃ third more, rest = third :: more ∧ isContinuation third = true := by
  cases rest with
  | nil => simp at h
  | cons third more =>
    refine ⟨third, more, rfl, ?_⟩
    by_contra hbad
    simp [hbad] at h

theorem takeWhile_length_eq_two {rest : List UInt8}
    (h : ((rest.take 2).takeWhile isContinuation).length = 2) :
    ∃ third fourth more, rest = third :: fourth :: more ∧ isContinuation third = true ∧
      isContinuation fourth = true := by
  cases rest with
  | nil => simp at h
  | cons third rest =>
    have hthird : isContinuation third = true := by
      by_contra hbad
      simp [hbad] at h
    have hrest : ((rest.take 1).takeWhile isContinuation).length = 1 := by
      simpa [hthird] using h
    obtain ⟨fourth, more, rfl, hfourth⟩ := takeWhile_length_eq_one hrest
    exact ⟨third, fourth, more, rfl, hthird, hfourth⟩

/-- A sequence of more than one byte goes on with its second byte. -/
theorem goodBytes_cases {first : UInt8} {width : Nat} {rest : List UInt8} (hwidth : 2 ≤ width)
    (h : goodBytes first width rest + 1 = width) :
    ∃ second more, rest = second :: more ∧ secondOk first second = true ∧
      ((more.take (width - 2)).takeWhile isContinuation).length = width - 2 := by
  cases rest with
  | nil =>
    simp only [goodBytes] at h
    omega
  | cons second more =>
    simp only [goodBytes] at h
    split at h
    · rename_i hok
      simp only [Bool.and_eq_true, decide_eq_true_eq] at hok
      exact ⟨second, more, rfl, hok.2, by omega⟩
    · omega

section Widths

variable {first second third fourth : UInt8}

theorem encodes_one (h : first.toNat ≤ 0x7f) :
    encodeChar (Char.ofNat (codePoint first 1 [])) = [first] := by
  have hpoint : codePoint first 1 [] = first.toNat := rfl
  rw [hpoint]
  unfold encodeChar
  rw [toNat_ofNat_of_scalar (.inl (by omega))]
  simp only
  rw [if_pos (by omega), UInt8.ofNat_toNat]

theorem encodes_two (hlo : 0xc2 ≤ first.toNat) (hhi : first.toNat ≤ 0xdf)
    (h : secondOk first second = true) :
    encodeChar (Char.ofNat (codePoint first 2 [second])) = [first, second] := by
  have hbounds := secondOk_bounds h
  have hpoint : codePoint first 2 [second] = 64 * (first.toNat - 0xc0) + (second.toNat - 0x80) :=
    rfl
  rw [hpoint]
  unfold encodeChar
  rw [toNat_ofNat_of_scalar (.inl (by omega))]
  simp only
  rw [if_neg (by omega), if_pos (by omega), ofNat_eq_of_toNat first (by omega),
    ofNat_eq_of_toNat second (by omega)]

theorem encodes_three (hlo : 0xe0 ≤ first.toNat) (hhi : first.toNat ≤ 0xef)
    (h : secondOk first second = true) (h' : isContinuation third = true) :
    encodeChar (Char.ofNat (codePoint first 3 [second, third])) = [first, second, third] := by
  have hbounds := secondOk_bounds h
  have hthird := isContinuation_bounds h'
  have hpoint : codePoint first 3 [second, third] =
      64 * (64 * (first.toNat - 0xe0) + (second.toNat - 0x80)) + (third.toNat - 0x80) := rfl
  rw [hpoint]
  unfold encodeChar
  -- the bounds on the second byte leave out the surrogates
  rw [toNat_ofNat_of_scalar (by unfold Nat.isValidChar; omega)]
  simp only
  rw [if_neg (by omega), if_neg (by omega), if_pos (by omega),
    ofNat_eq_of_toNat first (by omega), ofNat_eq_of_toNat second (by omega),
    ofNat_eq_of_toNat third (by omega)]

theorem encodes_four (hlo : 0xf0 ≤ first.toNat) (hhi : first.toNat ≤ 0xf4)
    (h : secondOk first second = true) (h' : isContinuation third = true)
    (h'' : isContinuation fourth = true) :
    encodeChar (Char.ofNat (codePoint first 4 [second, third, fourth])) =
      [first, second, third, fourth] := by
  have hbounds := secondOk_bounds h
  have hthird := isContinuation_bounds h'
  have hfourth := isContinuation_bounds h''
  have hpoint : codePoint first 4 [second, third, fourth] =
      64 * (64 * (64 * (first.toNat - 0xf0) + (second.toNat - 0x80)) + (third.toNat - 0x80)) +
        (fourth.toNat - 0x80) := rfl
  rw [hpoint]
  unfold encodeChar
  rw [toNat_ofNat_of_scalar (by unfold Nat.isValidChar; omega)]
  simp only
  rw [if_neg (by omega), if_neg (by omega), if_neg (by omega),
    ofNat_eq_of_toNat first (by omega), ofNat_eq_of_toNat second (by omega),
    ofNat_eq_of_toNat third (by omega), ofNat_eq_of_toNat fourth (by omega)]

end Widths

/-- A character is decoded from the bytes that encode it. -/
theorem decodeChar_encodes {bytes : List UInt8} {c : Char} {n : Nat}
    (h : decodeChar bytes = some (some c, n)) :
    1 ≤ n ∧ n ≤ bytes.length ∧ bytes.take n = encodeChar c := by
  cases bytes with
  | nil => simp [decodeChar] at h
  | cons first rest =>
    simp only [decodeChar] at h
    split at h
    · rename_i hgood
      simp only [Bool.and_eq_true, decide_eq_true_eq] at hgood
      obtain ⟨hpos, hgood⟩ := hgood
      simp only [Option.some.injEq, Prod.mk.injEq] at h
      obtain ⟨rfl, rfl⟩ := h
      have htake : goodBytes first (utf8Width first) rest = utf8Width first - 1 := by omega
      rw [htake]
      rcases utf8Width_cases first with
        hw | ⟨hw, hhi⟩ | ⟨hw, hlo, hhi⟩ | ⟨hw, hlo, hhi⟩ | ⟨hw, hlo, hhi⟩
      · omega
      · rw [hw]
        refine ⟨by omega, by simp, ?_⟩
        simpa using (encodes_one hhi).symm
      · rw [hw] at hgood ⊢
        obtain ⟨second, more, rfl, hsecond, -⟩ := goodBytes_cases (by omega) hgood
        refine ⟨by omega, by simp, ?_⟩
        simpa using (encodes_two hlo hhi hsecond).symm
      · rw [hw] at hgood ⊢
        obtain ⟨second, more, rfl, hsecond, hmore⟩ := goodBytes_cases (by omega) hgood
        obtain ⟨third, more, rfl, hthird⟩ := takeWhile_length_eq_one hmore
        refine ⟨by omega, by simp, ?_⟩
        simpa using (encodes_three hlo hhi hsecond hthird).symm
      · rw [hw] at hgood ⊢
        obtain ⟨second, more, rfl, hsecond, hmore⟩ := goodBytes_cases (by omega) hgood
        obtain ⟨third, fourth, more, rfl, hthird, hfourth⟩ := takeWhile_length_eq_two hmore
        refine ⟨by omega, by simp, ?_⟩
        simpa using (encodes_four hlo hhi hsecond hthird hfourth).symm
    · simp at h

/-! ## Texts -/

def encode (chars : List Char) : List UInt8 := chars.flatMap encodeChar

/-- Bytes that are read without a broken sequence are those of the characters read. -/
theorem decodeChars_encodes (turns : Nat) (bytes : List UInt8) (hturns : bytes.length ≤ turns)
    (h : (decodeChars turns bytes).all Option.isSome = true) :
    encode ((decodeChars turns bytes).filterMap id) = bytes := by
  induction turns generalizing bytes with
  | zero =>
    have hnil : bytes = [] := List.eq_nil_of_length_eq_zero (by omega)
    rw [hnil]
    rfl
  | succ turns ih =>
    simp only [decodeChars] at h ⊢
    cases hread : decodeChar bytes with
    | none =>
      cases bytes with
      | nil => rfl
      | cons first rest =>
        simp only [decodeChar] at hread
        split at hread
        · simp at hread
        · simp at hread
    | some r =>
      obtain ⟨c, n⟩ := r
      simp only [hread, List.all_cons, Bool.and_eq_true] at h
      obtain ⟨hc, hrest⟩ := h
      obtain ⟨c, rfl⟩ := Option.isSome_iff_exists.mp hc
      obtain ⟨hpos, hle, htake⟩ := decodeChar_encodes hread
      have hread' := ih (bytes.drop n) (by rw [List.length_drop]; omega) hrest
      have hcons : encode (c :: (decodeChars turns (bytes.drop n)).filterMap id) =
          encodeChar c ++ encode ((decodeChars turns (bytes.drop n)).filterMap id) :=
        List.flatMap_cons
      rw [List.filterMap_cons_some (f := id) rfl, hcons, hread', ← htake, List.take_append_drop]

theorem fromUtf8_encodes {bytes : List UInt8} {s : String} (h : fromUtf8 bytes = some s) :
    bytes = encode s.toList := by
  simp only [fromUtf8] at h
  split at h
  · rename_i hall
    rw [Option.some.injEq] at h
    rw [← h, String.toList_ofList]
    exact (decodeChars_encodes _ _ (Nat.le_refl _) hall).symm
  · simp at h

theorem fromUtf8_injective {a b : List UInt8} {s : String} (ha : fromUtf8 a = some s)
    (hb : fromUtf8 b = some s) : a = b :=
  (fromUtf8_encodes ha).trans (fromUtf8_encodes hb).symm

/-! ## ASCII -/

/-- The bytes of an ASCII text. -/
def asciiBytes (s : String) : List UInt8 := s.toList.map fun c => UInt8.ofNat c.toNat

theorem decodeChars_ascii (chars : List Char) (h : ∀ c ∈ chars, c.toNat < 0x80) (turns : Nat)
    (hturns : chars.length ≤ turns) :
    decodeChars turns (chars.map fun c => UInt8.ofNat c.toNat) = chars.map some := by
  induction chars generalizing turns with
  | nil =>
    cases turns with
    | zero => rfl
    | succ turns => rfl
  | cons c chars ih =>
    cases turns with
    | zero => simp at hturns
    | succ turns =>
      have hc : c.toNat < 0x80 := h c (List.mem_cons_self ..)
      have hbyte : (UInt8.ofNat c.toNat).toNat = c.toNat := by
        rw [UInt8.toNat_ofNat']
        omega
      have hwidth : utf8Width (UInt8.ofNat c.toNat) = 1 := by
        unfold utf8Width
        rw [if_pos]
        rw [UInt8.le_iff_toNat_le, hbyte]
        exact Nat.le_of_lt_succ hc
      have hread : ∀ rest, decodeChar (UInt8.ofNat c.toNat :: rest) = some (some c, 1) := by
        intro rest
        have hgood : goodBytes (UInt8.ofNat c.toNat) 1 rest = 0 := by
          cases rest with
          | nil => rfl
          | cons second rest => rfl
        simp only [decodeChar, hwidth, hgood, codePoint]
        simp [hbyte]
      rw [List.map_cons, List.map_cons, decodeChars, hread]
      simp only [List.drop_succ_cons, List.drop_zero, List.cons.injEq, true_and]
      exact ih (fun c hc => h c (List.mem_cons_of_mem _ hc)) turns (by simpa using hturns)

theorem fromUtf8_asciiBytes {s : String} (h : isAscii s = true) :
    fromUtf8 (asciiBytes s) = some s := by
  have hascii : ∀ c ∈ s.toList, c.toNat < 0x80 := by
    intro c hc
    simpa using List.all_eq_true.mp h c hc
  unfold fromUtf8 asciiBytes
  rw [decodeChars_ascii _ hascii _ (by simp)]
  have hall : (s.toList.map some).all Option.isSome = true := by simp
  rw [if_pos hall, List.filterMap_map]
  simp

end Wirerust.Text
