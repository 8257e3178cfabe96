import Mathlib.Logic.Function.Iterate
import Wirerust.Lib.Capped
import Wirerust.Lib.SortedMap
import Wirerust.Lib.Words
import Wirerust.Findings

/-!
What the protocol analyzers share: reading words from bytes, printing them, and the list of
findings.
-/

namespace Wirerust.Analyzer

open Lib

/-- `data[i]`, where the code has made sure that there are enough bytes. -/
def byteAt (data : List UInt8) (i : Nat) : UInt8 := data.getD i 0

theorem getElem?_eq_byteAt {data : List UInt8} {i : Nat} (h : i < data.length) :
    data[i]? = some (byteAt data i) := by
  rw [byteAt, List.getD_eq_getElem?_getD, List.getElem?_eq_getElem h, Option.getD_some]

theorem byteAt_append {data : List UInt8} {i : Nat} (h : i < data.length) (more : List UInt8) :
    byteAt (data ++ more) i = byteAt data i := by
  rw [byteAt, byteAt, List.getD_eq_getElem?_getD, List.getD_eq_getElem?_getD,
    List.getElem?_append_left h]

/-- `u16::from_be_bytes`. -/
def beU16 (hi lo : UInt8) : UInt16 := UInt16.ofNat (256 * hi.toNat + lo.toNat)

/-- `u16::from_le_bytes`. -/
def leU16 (lo hi : UInt8) : UInt16 := beU16 hi lo

theorem toNat_leU16 (lo hi : UInt8) : (leU16 lo hi).toNat = lo.toNat + 256 * hi.toNat := by
  have hlo := lo.toNat_lt
  have hhi := hi.toNat_lt
  rw [leU16, beU16, UInt16.toNat_ofNat', Nat.mod_eq_of_lt (by omega)]
  omega

/-- `u32::from_le_bytes`. -/
def leU32 (b0 b1 b2 b3 : UInt8) : UInt32 :=
  UInt32.ofNat (b0.toNat + 256 * (b1.toNat + 256 * (b2.toNat + 256 * b3.toNat)))

/-- `saturating_sub` on `u32`. -/
def saturatingSub (a b : UInt32) : UInt32 := if b ≤ a then a - b else 0

theorem toNat_saturatingSub (a b : UInt32) :
    (saturatingSub a b).toNat = a.toNat - b.toNat := by
  unfold saturatingSub
  split
  · rename_i hle
    exact UInt32.toNat_sub_of_le a b hle
  · rename_i hlt
    have hnat := UInt32.lt_iff_toNat_lt.mp (UInt32.not_le.mp hlt)
    show 0 = a.toNat - b.toNat
    omega

theorem saturatingSub_self (ts : UInt32) : saturatingSub ts ts = 0 := by
  unfold saturatingSub
  rw [if_pos (UInt32.le_refl ts)]
  exact UInt32.sub_self ts

/-- `{:0width$X}`. -/
def hexUpper (width n : Nat) : String :=
  String.ofList (((Nat.toDigits 16 n).map Char.toUpper).leftpad width '0')

/-- `0x{:02X}` of a byte. -/
def hexByte (b : UInt8) : String := "0x" ++ hexUpper 2 b.toNat

/-- `{:#04x}` of a byte. -/
def hexByteLower (b : UInt8) : String :=
  "0x" ++ IpAddr.hexDigits (b.toNat / 16) ++ IpAddr.hexDigits (b.toNat % 16)

/-- `{:#06X}` of a `u16`. -/
def hexWord (w : UInt16) : String := "0x" ++ hexUpper 4 w.toNat

/-- `MAX_FINDINGS`, the same in every analyzer. -/
def maxFindings : Nat := 10000

/-- The guarded push of a finding. -/
def pushFinding (log : Capped Finding) (finding : Finding) : Capped Finding :=
  log.push maxFindings (2 ^ 64 - 1) finding

/-- `all_findings.len() < MAX_FINDINGS` -/
def hasRoom (log : Capped Finding) : Bool := log.kept.length < maxFindings

/-- Some findings have been pushed. -/
abbrev Logged (log log' : Capped Finding) : Prop := log.Extends maxFindings (2 ^ 64 - 1) log'

section Counts

variable {κ : Type} [LinearOrder κ]

/-- `*counts.entry(key).or_insert(0) += 1` on counters of `w` bits. -/
def countEntry (w : Nat) (counts : SortedMap κ Nat) (key : κ) :
    Checked (SortedMap κ Nat × Nat) := do
  let count ← checkedInc w ((counts.get? key).getD 0)
  .ok (counts.insert key count, count)

/-- No counter is above `n`. -/
def CountsLe (n : Nat) (counts : SortedMap κ Nat) : Prop :=
  ∀ key, (counts.get? key).getD 0 ≤ n

def countsTotal (counts : SortedMap κ Nat) : Nat := counts.sumBy Prod.snd

theorem countEntry_eq_ok {w : Nat} {counts : SortedMap κ Nat} {key : κ}
    {r : SortedMap κ Nat × Nat} (h : countEntry w counts key = .ok r) :
    r.2 = (counts.get? key).getD 0 + 1 ∧ r.1 = counts.insert key r.2 := by
  obtain ⟨count, hcount, hr⟩ := bind_eq_ok.mp h
  cases hr
  exact ⟨checkedInc_eq_ok hcount, rfl⟩

theorem countEntry_returns {w n : Nat} {counts : SortedMap κ Nat} (hle : CountsLe n counts)
    (hn : n + 1 < 2 ^ w) (key : κ) : ∃ r, countEntry w counts key = .ok r := by
  have hkey := hle key
  have hinc : checkedInc w ((counts.get? key).getD 0) = .ok ((counts.get? key).getD 0 + 1) :=
    if_pos (by omega)
  exact ⟨_, bind_eq_ok.mpr ⟨_, hinc, rfl⟩⟩

theorem CountsLe.insert {n m : Nat} {counts : SortedMap κ Nat} (h : CountsLe n counts)
    (key : κ) (hm : m ≤ n + 1) : CountsLe (n + 1) (counts.insert key m) := by
  intro other
  by_cases hk : other = key
  · rw [hk, counts.get?_insert_self]
    exact hm
  · rw [counts.get?_insert_of_ne m hk]
    exact Nat.le_succ_of_le (h other)

theorem CountsLe.countEntry {w n : Nat} {counts : SortedMap κ Nat} {key : κ}
    {r : SortedMap κ Nat × Nat} (h : CountsLe n counts)
    (hr : countEntry w counts key = .ok r) : CountsLe (n + 1) r.1 := by
  obtain ⟨hcount, hmap⟩ := countEntry_eq_ok hr
  rw [hmap]
  refine h.insert key ?_
  rw [hcount]
  exact Nat.succ_le_succ (h key)

theorem countsTotal_countEntry {w : Nat} {counts : SortedMap κ Nat} {key : κ}
    {r : SortedMap κ Nat × Nat} (h : countEntry w counts key = .ok r) :
    countsTotal r.1 = countsTotal counts + 1 := by
  obtain ⟨hcount, hmap⟩ := countEntry_eq_ok h
  rw [hmap, countsTotal, SortedMap.sumBy_insert, hcount]
  cases hget : counts.get? key with
  | none =>
    rw [counts.erase_of_none hget]
    exact Nat.add_comm _ _
  | some m =>
    have hsum := counts.sumBy_erase Prod.snd hget
    simp only [countsTotal, Option.getD_some] at *
    omega

theorem count_le_total (counts : SortedMap κ Nat) (key : κ) :
    (counts.get? key).getD 0 ≤ countsTotal counts := by
  cases hget : counts.get? key with
  | none => exact Nat.zero_le _
  | some m =>
    have hsum := counts.sumBy_erase Prod.snd hget
    simp only [countsTotal, Option.getD_some] at *
    omega

theorem countEntry_of_total {w : Nat} {counts : SortedMap κ Nat}
    (h : countsTotal counts + 1 < 2 ^ w) (key : κ) : ∃ r, countEntry w counts key = .ok r :=
  countEntry_returns (count_le_total counts) h key

theorem countEntry_total (w : Nat) (counts : SortedMap κ Nat) (key : κ) :
    ReturnsIf (countsTotal counts + 1 < 2 ^ w) (countEntry w counts key)
      (fun r => countsTotal r.1 = countsTotal counts + 1) :=
  ⟨fun hroom => countEntry_of_total hroom key, fun _ hr => countsTotal_countEntry hr⟩

end Counts

theorem countP_snoc {α : Type} (p : α → Bool) (l : List α) (a : α) :
    (l ++ [a]).countP p = l.countP p + (p a).toNat := by
  rw [List.countP_append, List.countP_singleton]
  cases p a with
  | false => rfl
  | true => rfl

/-- `saturating_add(1)` on `u64` and on `u32` counters. -/
abbrev bump64 (n : Nat) : Nat := saturatingInc 64 n

abbrev bump32 (n : Nat) : Nat := saturatingInc 32 n

theorem bump64_iterate (n k : Nat) :
    bump64^[k] (min n (2 ^ 64 - 1)) = min (n + k) (2 ^ 64 - 1) := by
  induction k with
  | zero => rfl
  | succ k ih =>
    rw [Function.iterate_succ_apply', ih]
    exact saturatingInc_min 64 (n + k)

end Wirerust.Analyzer
