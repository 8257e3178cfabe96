import Mathlib.Data.Prod.Lex

/-!
Machine words: their order as a linear order, so that they can be the keys of a map.
-/

instance instLinearOrderUInt8 : LinearOrder UInt8 where
  le_refl := UInt8.le_refl
  le_trans := fun _ _ _ => UInt8.le_trans
  le_antisymm := fun _ _ => UInt8.le_antisymm
  le_total := UInt8.le_total
  lt_iff_le_not_ge a b := by
    simp only [UInt8.lt_iff_toNat_lt, UInt8.le_iff_toNat_le]
    omega
  toDecidableLE := inferInstance
  toDecidableLT := inferInstance
  toDecidableEq := inferInstance

instance instLinearOrderUInt16 : LinearOrder UInt16 where
  le_refl := UInt16.le_refl
  le_trans := fun _ _ _ => UInt16.le_trans
  le_antisymm := fun _ _ => UInt16.le_antisymm
  le_total := UInt16.le_total
  lt_iff_le_not_ge a b := by
    simp only [UInt16.lt_iff_toNat_lt, UInt16.le_iff_toNat_le]
    omega
  toDecidableLE := inferInstance
  toDecidableLT := inferInstance
  toDecidableEq := inferInstance

instance instLinearOrderUInt32 : LinearOrder UInt32 where
  le_refl := UInt32.le_refl
  le_trans := fun _ _ _ => UInt32.le_trans
  le_antisymm := fun _ _ => UInt32.le_antisymm
  le_total := UInt32.le_total
  lt_iff_le_not_ge a b := by
    simp only [UInt32.lt_iff_toNat_lt, UInt32.le_iff_toNat_le]
    omega
  toDecidableLE := inferInstance
  toDecidableLT := inferInstance
  toDecidableEq := inferInstance

instance instLinearOrderBitVec (w : Nat) : LinearOrder (BitVec w) where
  le_refl := BitVec.le_refl
  le_trans := fun _ _ _ => BitVec.le_trans
  le_antisymm := fun _ _ => BitVec.le_antisymm
  le_total := BitVec.le_total
  lt_iff_le_not_ge a b := by
    simp only [BitVec.lt_def, BitVec.le_def]
    omega
  toDecidableLE := inferInstance
  toDecidableLT := inferInstance
  toDecidableEq := inferInstance

/-! Membership in a list of words compares them for equality. -/

instance instLawfulBEqUInt8 : LawfulBEq UInt8 := instLawfulBEq

instance instLawfulBEqUInt16 : LawfulBEq UInt16 := instLawfulBEq
