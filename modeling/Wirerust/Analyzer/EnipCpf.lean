import Wirerust.Analyzer.Enip
import Wirerust.Lib.Encoding

/-!
The item list of a common packet format payload (`parse_cpf_items` of `analyzer/enip.rs`).

`cpfCursor` is the loop of the source with its cursor, where every index and slice is checked;
it computes `parseCpfItems` on every input (`cpfCursor_eq`). Items are the tokens of `cpfLexer`,
which reads back what `encodeItem` writes, and the parser takes as many of them as the payload
declares (`parseCpfItems_eq`).
-/

namespace Wirerust.Enip

open Lib Wirerust.Analyzer

/-! ## The loop with its cursor -/

def cpfLoop (cpfData : List UInt8) : Nat → Nat → List CpfItem → Checked (List CpfItem)
  | 0, _, items => .ok items
  | count + 1, cursor, items =>
    if cursor + 4 > cpfData.length then .ok items
    else do
      let type0 ← indexAt cpfData cursor
      let type1 ← indexAt cpfData (cursor + 1)
      let len0 ← indexAt cpfData (cursor + 2)
      let len1 ← indexAt cpfData (cursor + 3)
      let length := (leU16 len0 len1).toNat
      let cursor := cursor + 4
      if cursor + length > cpfData.length then .ok items
      else do
        let data ← slice cpfData cursor (cursor + length)
        cpfLoop cpfData count (cursor + length) (items ++ [⟨leU16 type0 type1, data⟩])

def cpfCursor (cpfData : List UInt8) : Checked (List CpfItem) :=
  if cpfData.length < 2 then .ok []
  else do
    let lo ← indexAt cpfData 0
    let hi ← indexAt cpfData 1
    cpfLoop cpfData (leU16 lo hi).toNat 2 []

theorem indexAt_byteAt {data : List UInt8} {i : Nat} (h : i < data.length) :
    indexAt data i = .ok (byteAt data i) :=
  indexAt_of_some (getElem?_eq_byteAt h)

theorem byteAt_drop (data : List UInt8) (n i : Nat) :
    byteAt (data.drop n) i = byteAt data (n + i) := by
  simp only [byteAt, List.getD_eq_getElem?_getD, List.getElem?_drop]

theorem leU16At_drop (data : List UInt8) (n i : Nat) :
    leU16At (data.drop n) i = leU16 (byteAt data (n + i)) (byteAt data (n + i + 1)) := by
  rw [leU16At, byteAt_drop, byteAt_drop, Nat.add_assoc]

/-- The cursor stands where the items that are still to be read begin. -/
theorem cpfLoop_eq (cpfData : List UInt8) (count cursor : Nat) (items : List CpfItem) :
    cpfLoop cpfData count cursor items =
      .ok (items ++ cpfItems count (cpfData.drop cursor)) := by
  induction count generalizing cursor items with
  | zero => rw [cpfLoop, cpfItems, List.append_nil]
  | succ count ih =>
    have hleft : (cpfData.drop cursor).length = cpfData.length - cursor := List.length_drop
    rw [cpfLoop, cpfItems]
    by_cases hheader : cursor + 4 > cpfData.length
    · rw [if_pos hheader, if_pos (by omega), List.append_nil]
    · rw [if_neg hheader, if_neg (by omega), indexAt_byteAt (by omega), ok_bind,
        indexAt_byteAt (by omega), ok_bind, indexAt_byteAt (by omega), ok_bind,
        indexAt_byteAt (by omega), ok_bind]
      simp only [leU16At_drop, Nat.add_zero, List.drop_drop, List.length_drop]
      generalize hlength : (leU16 (byteAt cpfData (cursor + 2))
        (byteAt cpfData (cursor + 2 + 1))).toNat = length
      by_cases hdata : cursor + 4 + length > cpfData.length
      · rw [if_pos hdata, if_pos (by omega), List.append_nil]
      · rw [if_neg hdata, if_neg (by omega), slice_of_le (by omega) (by omega), ok_bind, ih,
          List.append_assoc, List.drop_take, Nat.add_sub_cancel_left]
        rfl

/-- No index is out of range, whatever the payload is. -/
theorem cpfCursor_eq (cpfData : List UInt8) : cpfCursor cpfData = .ok (parseCpfItems cpfData) := by
  rw [cpfCursor, parseCpfItems]
  by_cases hshort : cpfData.length < 2
  · rw [if_pos hshort, if_pos hshort]
  · rw [if_neg hshort, if_neg hshort, indexAt_byteAt (by omega), ok_bind,
      indexAt_byteAt (by omega), ok_bind, cpfLoop_eq, List.nil_append]
    rfl

/-! ## Items and their encoding -/

def encodeU16 (w : UInt16) : List UInt8 := [UInt8.ofNat w.toNat, UInt8.ofNat (w.toNat / 256)]

def encodeItem (item : CpfItem) : List UInt8 :=
  encodeU16 item.typeId ++ encodeU16 (UInt16.ofNat item.data.length) ++ item.data

/-- An item count and the items. -/
def encodeCpf (items : List CpfItem) : List UInt8 :=
  encodeU16 (UInt16.ofNat items.length) ++ Lexer.encodeAll encodeItem items

/-- The length field has sixteen bits. -/
def CpfItem.Encodable (item : CpfItem) : Prop := item.data.length < 2 ^ 16

@[simp] theorem length_encodeU16 (w : UInt16) : (encodeU16 w).length = 2 := rfl

@[simp] theorem length_encodeItem (item : CpfItem) :
    (encodeItem item).length = 4 + item.data.length := by
  simp only [encodeItem, List.length_append, length_encodeU16]

theorem leU16_encodeU16 (w : UInt16) :
    leU16 (UInt8.ofNat w.toNat) (UInt8.ofNat (w.toNat / 256)) = w := by
  have hlt := w.toNat_lt
  apply UInt16.toNat_inj.mp
  rw [toNat_leU16, UInt8.toNat_ofNat', UInt8.toNat_ofNat']
  omega

theorem encodeU16_leU16 (lo hi : UInt8) : encodeU16 (leU16 lo hi) = [lo, hi] := by
  have hlo := lo.toNat_lt
  have hhi := hi.toNat_lt
  have hword := toNat_leU16 lo hi
  rw [encodeU16, List.cons.injEq, List.cons.injEq, ← UInt8.toNat_inj, ← UInt8.toNat_inj,
    UInt8.toNat_ofNat', UInt8.toNat_ofNat']
  exact ⟨by omega, by omega, rfl⟩

theorem leU16At_encodeU16 (w : UInt16) (rest : List UInt8) : leU16At (encodeU16 w ++ rest) 0 = w :=
  leU16_encodeU16 w

/-- The item at the front, when it is all there. -/
def itemAt (data : List UInt8) : Option (CpfItem × Nat) :=
  let length := (leU16At data 2).toNat
  if 4 + length ≤ data.length then
    some (⟨leU16At data 0, (data.drop 4).take length⟩, 4 + length)
  else none

theorem itemAt_eq_some {data : List UInt8} {item : CpfItem} {n : Nat}
    (h : itemAt data = some (item, n)) :
    n = 4 + (leU16At data 2).toNat ∧ n ≤ data.length ∧
      item = ⟨leU16At data 0, (data.drop 4).take (leU16At data 2).toNat⟩ := by
  simp only [itemAt] at h
  split at h
  · rename_i hfits
    cases h
    exact ⟨rfl, hfits, rfl⟩
  · cases h

def cpfLexer : Lexer UInt8 CpfItem where
  head := itemAt
  bounds := fun {data item n} h => by
    obtain ⟨hn, hle, -⟩ := itemAt_eq_some h
    exact ⟨by omega, hle⟩

theorem take_four {data : List UInt8} (h : 4 ≤ data.length) :
    data.take 4 = encodeU16 (leU16At data 0) ++ encodeU16 (leU16At data 2) := by
  match data, h with
  | b0 :: b1 :: b2 :: b3 :: data, _ =>
    have h0 : leU16At (b0 :: b1 :: b2 :: b3 :: data) 0 = leU16 b0 b1 := rfl
    have h2 : leU16At (b0 :: b1 :: b2 :: b3 :: data) 2 = leU16 b2 b3 := rfl
    rw [h0, h2, encodeU16_leU16, encodeU16_leU16]
    rfl

theorem itemAt_encodeItem {item : CpfItem} (h : item.Encodable) (rest : List UInt8) :
    itemAt (encodeItem item ++ rest) = some (item, (encodeItem item).length) := by
  have hsize : (UInt16.ofNat item.data.length).toNat = item.data.length := by
    rw [UInt16.toNat_ofNat', Nat.mod_eq_of_lt h]
  have htype : leU16At (encodeItem item ++ rest) 0 = item.typeId := by
    rw [encodeItem, List.append_assoc, List.append_assoc, leU16At_encodeU16]
  have hlength : leU16At (encodeItem item ++ rest) 2 = UInt16.ofNat item.data.length :=
    leU16_encodeU16 _
  have hdata : ((encodeItem item ++ rest).drop 4).take item.data.length = item.data :=
    List.take_left
  rw [itemAt]
  simp only [htype, hlength, hsize, hdata, List.length_append, length_encodeItem]
  rw [if_pos (by omega)]

theorem cpfLexer_decodes : cpfLexer.Decodes encodeItem CpfItem.Encodable where
  of_encode := fun h rest => itemAt_encodeItem h rest
  encode_of := fun {data item n} h => by
    obtain ⟨rfl, hle, rfl⟩ := itemAt_eq_some h
    have hlt := (leU16At data 2).toNat_lt
    have hlen : ((data.drop 4).take (leU16At data 2).toNat).length = (leU16At data 2).toNat := by
      rw [List.length_take, List.length_drop]
      omega
    constructor
    · show ((data.drop 4).take (leU16At data 2).toNat).length < 2 ^ 16
      rw [hlen]
      exact hlt
    · rw [List.take_add, take_four (by omega), encodeItem, hlen, UInt16.ofNat_toNat]

/-- The parser takes as many items as are declared. -/
theorem cpfItems_eq (count : Nat) (data : List UInt8) :
    cpfItems count data = (cpfLexer.lex data).1.take count := by
  induction count generalizing data with
  | zero => rfl
  | succ count ih =>
    rw [cpfItems]
    by_cases hfits : 4 + (leU16At data 2).toNat ≤ data.length
    · have hhead : cpfLexer.head data =
          some (⟨leU16At data 0, (data.drop 4).take (leU16At data 2).toNat⟩,
            4 + (leU16At data 2).toNat) := if_pos hfits
      simp only [cpfLexer.lex_of_some hhead, List.take_succ_cons, List.length_drop,
        List.drop_drop, ih]
      rw [if_neg (by omega), if_neg (by omega)]
    · have hhead : cpfLexer.head data = none := if_neg hfits
      simp only [cpfLexer.lex_of_none hhead, List.take_nil, List.length_drop]
      split
      · rfl
      · rw [if_pos (by omega)]

/-- What the payload declares; one that is too short for a count declares nothing. -/
def declaredItems (cpfData : List UInt8) : Nat :=
  if cpfData.length < 2 then 0 else (leU16At cpfData 0).toNat

theorem parseCpfItems_eq (cpfData : List UInt8) :
    parseCpfItems cpfData = (cpfLexer.lex (cpfData.drop 2)).1.take (declaredItems cpfData) := by
  rw [parseCpfItems, declaredItems]
  split
  · rw [List.take_zero]
  · rw [cpfItems_eq]

/-! ## Decoding -/

/-- At most as many items as are declared, whose encodings stand one after the other from offset
two on. -/
def Declared (cpfData : List UInt8) (items : List CpfItem) : Prop :=
  items.length ≤ declaredItems cpfData ∧
    Lexer.EncodedAt encodeItem CpfItem.Encodable items (cpfData.drop 2)

theorem declared_parseCpfItems (cpfData : List UInt8) :
    Declared cpfData (parseCpfItems cpfData) := by
  rw [parseCpfItems_eq]
  exact ⟨List.length_take_le _ _, (Lexer.encodedAt_lex cpfLexer_decodes _).take _⟩

theorem prefix_parseCpfItems {cpfData : List UInt8} {items : List CpfItem}
    (h : Declared cpfData items) : items <+: parseCpfItems cpfData := by
  obtain ⟨hcount, hat⟩ := h
  rw [parseCpfItems_eq]
  exact List.prefix_take_iff.mpr ⟨Lexer.prefix_of_encodedAt cpfLexer_decodes hat, hcount⟩

theorem parseCpfItems_encodeCpf {items : List CpfItem} (hcount : items.length < 2 ^ 16)
    (hitems : ∀ item ∈ items, item.Encodable) (trailing : List UInt8) :
    parseCpfItems (encodeCpf items ++ trailing) = items := by
  have hsize : (UInt16.ofNat items.length).toNat = items.length := by
    rw [UInt16.toNat_ofNat', Nat.mod_eq_of_lt hcount]
  have hdeclared : declaredItems (encodeCpf items ++ trailing) = items.length := by
    rw [declaredItems, if_neg, encodeCpf, List.append_assoc, leU16At_encodeU16, hsize]
    simp only [encodeCpf, List.length_append, length_encodeU16]
    omega
  have hrest : (encodeCpf items ++ trailing).drop 2 =
      Lexer.encodeAll encodeItem items ++ trailing := rfl
  rw [parseCpfItems_eq, hdeclared, hrest, Lexer.lex_encodeAll cpfLexer_decodes hitems,
    List.take_left]

/-- A shorter payload gives fewer items. -/
theorem parseCpfItems_prefix {cpfData longer : List UInt8} (h : cpfData <+: longer) :
    parseCpfItems cpfData <+: parseCpfItems longer := by
  obtain ⟨rest, rfl⟩ := h
  obtain ⟨hcount, hvalid, hat⟩ := declared_parseCpfItems cpfData
  apply prefix_parseCpfItems
  by_cases hshort : cpfData.length < 2
  · rw [parseCpfItems, if_pos hshort]
    exact ⟨Nat.zero_le _, fun _ hitem => absurd hitem List.not_mem_nil, List.nil_prefix⟩
  · have hsame : declaredItems (cpfData ++ rest) = declaredItems cpfData := by
      rw [declaredItems, declaredItems, if_neg hshort, if_neg, leU16At, leU16At,
        byteAt_append (by omega), byteAt_append (by omega)]
      rw [List.length_append]
      omega
    rw [Declared, hsame, List.drop_append_of_le_length (by omega)]
    exact ⟨hcount, hvalid, hat.trans (List.prefix_append _ rest)⟩

/-- An encoded list is read back whatever follows it. On every payload the cursor stays in range,
and the result is the longest list of declared items that stands encoded there; so what a cut
encoding gives is a prefix of the list. -/
theorem cpfCursor_decodes :
    (∀ (items : List CpfItem) (trailing : List UInt8), items.length < 2 ^ 16 →
      (∀ item ∈ items, item.data.length < 2 ^ 16) →
      cpfCursor (encodeCpf items ++ trailing) = .ok items) ∧
    (∀ cpfData : List UInt8, ∃ items, cpfCursor cpfData = .ok items ∧ Declared cpfData items ∧
      ∀ others, Declared cpfData others → others <+: items) ∧
    (∀ (items : List CpfItem) (n : Nat), items.length < 2 ^ 16 →
      (∀ item ∈ items, item.data.length < 2 ^ 16) →
      ∃ first, cpfCursor ((encodeCpf items).take n) = .ok first ∧ first <+: items) := by
  refine ⟨?_, ?_, ?_⟩
  · intro items trailing hcount hitems
    rw [cpfCursor_eq, parseCpfItems_encodeCpf hcount hitems]
  · intro cpfData
    exact ⟨_, cpfCursor_eq cpfData, declared_parseCpfItems cpfData,
      fun others hothers => prefix_parseCpfItems hothers⟩
  · intro items n hcount hitems
    have hall := parseCpfItems_encodeCpf hcount hitems []
    have hcut := parseCpfItems_prefix (List.take_prefix n (encodeCpf items ++ []))
    rw [hall, List.append_nil] at hcut
    exact ⟨_, cpfCursor_eq _, hcut⟩

/-- Two items, four bytes more, and the encoding cut in the second item. -/
theorem cpfCursor_decodes_two :
    cpfCursor (encodeCpf [⟨0xb2, [1, 2]⟩, ⟨0, []⟩] ++ [9, 9, 9, 9]) =
      .ok [⟨0xb2, [1, 2]⟩, ⟨0, []⟩] ∧
    ∃ first, cpfCursor ((encodeCpf [⟨0xb2, [1, 2]⟩, ⟨0, []⟩]).take 10) = .ok first ∧
      first <+: [⟨0xb2, [1, 2]⟩, ⟨0, []⟩] :=
  ⟨cpfCursor_decodes.1 _ _ (by decide) (by decide),
    cpfCursor_decodes.2.2 _ 10 (by decide) (by decide)⟩

end Wirerust.Enip
