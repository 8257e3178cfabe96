import Wirerust.Capture.Reader

/-!
The time of an Enhanced Packet Block.

A block holds a number of ticks, and its interface the number of ticks in a second as one byte.
`TicksPerSec` says which number a byte stands for. The conversion of the source has three ways to
compute the seconds and the microseconds: `secsUsecs_eq` gives one formula for all of them, and
`timestamp_converts` says that it is exact, that it keeps the order of the ticks, and that no
operation of the source overflows or divides by zero.
-/

namespace Wirerust.Capture

/-! ## The source with its checks -/

/-- `BASE10_POWERS`. -/
def base10Powers : List Nat :=
  [1, 10, 100, 1000, 10000, 100000, 1000000, 10000000, 100000000, 1000000000, 10000000000,
    100000000000, 1000000000000, 10000000000000, 100000000000000, 1000000000000000,
    10000000000000000, 100000000000000000, 1000000000000000000, 10000000000000000000]

/-- `1u64.checked_shl(e).unwrap_or(u64::MAX)`. -/
def shlOrMax (e : Nat) : Nat := if e < 64 then 2 ^ e % 2 ^ 64 else 2 ^ 64 - 1

def ticksPerSecChecked (ifTsresol : UInt8) : Checked Nat :=
  let e := (ifTsresol &&& 0x7f).toNat
  if ifTsresol &&& 0x80 = 0 then
    if e < base10Powers.length then indexAt base10Powers e else .ok (2 ^ 64 - 1)
  else .ok (shlOrMax (min e 63))

/-- `pcapng_timestamp_to_secs_usecs`, with every operation that could panic: the ticks and their
quotients are 64 bits wide, and the microseconds are computed in 128. -/
def pcapngTimestampChecked (tsHigh tsLow : UInt32) (ifTsresol : UInt8) :
    Checked (UInt32 × UInt32) := do
  let high ← checkedShl 64 tsHigh.toNat 32
  let ticks := high ||| tsLow.toNat
  if ifTsresol = 6 then
    let secs ← checkedDiv ticks 1000000
    let usecs ← checkedRem ticks 1000000
    .ok (UInt32.ofNat (min secs (2 ^ 32 - 1)), UInt32.ofNat usecs)
  else
    let perSec ← ticksPerSecChecked ifTsresol
    let secs ← checkedDiv ticks perSec
    let rest ← checkedRem ticks perSec
    let scaled ← checkedProduct 128 rest 1000000
    let usecs ← checkedDiv scaled perSec
    .ok (UInt32.ofNat (min secs (2 ^ 32 - 1)), UInt32.ofNat usecs)

/-! ## What the byte means -/

/-- The number of ticks in a second: the top bit tells the base, the others are the exponent. -/
inductive TicksPerSec : UInt8 → Nat → Prop
  | base10 {b : UInt8} (h : b.toNat ≤ 19) : TicksPerSec b (10 ^ b.toNat)
  | base2 {b : UInt8} (e : Nat) (he : e ≤ 63) (h : b.toNat = 128 + e) : TicksPerSec b (2 ^ e)

/-- The two halves of a number of ticks. -/
def ticksHigh (ticks : UInt64) : UInt32 := UInt32.ofNat (ticks.toNat / 2 ^ 32)

def ticksLow (ticks : UInt64) : UInt32 := UInt32.ofNat (ticks.toNat % 2 ^ 32)

/-- What the source makes of a number of ticks. -/
def timeOf (ifTsresol : UInt8) (ticks : UInt64) : UInt32 × UInt32 :=
  pcapngTimestampToSecsUsecs (ticksHigh ticks) (ticksLow ticks) ifTsresol

/-- One time is not after another. -/
def notAfter (t t' : UInt32 × UInt32) : Prop := t.1 < t'.1 ∨ t.1 = t'.1 ∧ t.2 ≤ t'.2

theorem topBit_iff (b : UInt8) : b &&& 0x80 = 0 ↔ b.toNat < 128 := by
  have hall : ∀ n : Fin 256, (UInt8.ofNat n.val &&& 0x80 = 0 ↔ n.val < 128) := by decide +kernel
  have hb := hall ⟨b.toNat, b.toNat_lt⟩
  simpa using hb

theorem lowBits_toNat (b : UInt8) : (b &&& 0x7f).toNat = b.toNat % 128 := by
  rw [UInt8.toNat_and]
  exact Nat.and_two_pow_sub_one_eq_mod b.toNat 7

theorem ticksPerSec_of {b : UInt8} {perSec : Nat} (h : TicksPerSec b perSec) :
    ticksPerSec b = perSec := by
  cases h with
  | base10 h =>
    have htop : b &&& 0x80 = 0 := (topBit_iff b).mpr (by omega)
    have hlow : (b &&& 0x7f).toNat = b.toNat := by
      rw [lowBits_toNat]
      omega
    simp only [ticksPerSec, htop, hlow, if_true]
    rw [if_pos (by omega)]
  | base2 e he h =>
    have htop : ¬ b &&& 0x80 = 0 := fun h0 => by
      have := (topBit_iff b).mp h0
      omega
    have hlow : (b &&& 0x7f).toNat = e := by
      rw [lowBits_toNat]
      omega
    simp only [ticksPerSec, hlow, if_neg htop, Nat.min_eq_left he]

theorem ticksPerSec_pos (b : UInt8) : 0 < ticksPerSec b := by
  simp only [ticksPerSec]
  split
  · split
    · exact Nat.pow_pos (by decide)
    · decide
  · exact Nat.pow_pos (by decide)

theorem ticksPerSec_lt (b : UInt8) : ticksPerSec b < 2 ^ 64 := by
  simp only [ticksPerSec]
  split
  · split
    · rename_i he
      exact Nat.lt_of_le_of_lt (Nat.pow_le_pow_right (by decide) (Nat.le_of_lt_succ he)) (by decide)
    · decide
  · exact Nat.pow_lt_pow_right (by decide) (by omega)

/-! ## One formula -/

theorem secsUsecs_eq (tsHigh tsLow : UInt32) (b : UInt8) :
    pcapngTimestampToSecsUsecs tsHigh tsLow b =
      (UInt32.ofNat (min ((2 ^ 32 * tsHigh.toNat + tsLow.toNat) / ticksPerSec b) (2 ^ 32 - 1)),
        UInt32.ofNat ((2 ^ 32 * tsHigh.toNat + tsLow.toNat) % ticksPerSec b * 1000000 /
          ticksPerSec b)) := by
  unfold pcapngTimestampToSecsUsecs
  by_cases h6 : b = 6
  · have hper : ticksPerSec 6 = 1000000 := by decide
    rw [if_pos h6, h6, hper, Nat.mul_div_cancel _ (by decide)]
  · rw [if_neg h6]

theorem usecs_lt {perSec : Nat} (h : 0 < perSec) (ticks : Nat) :
    ticks % perSec * 1000000 / perSec < 1000000 := by
  rw [Nat.div_lt_iff_lt_mul h, Nat.mul_comm 1000000]
  exact Nat.mul_lt_mul_of_pos_right (Nat.mod_lt _ h) (by decide)

/-- The whole microseconds, from the seconds and what is left. -/
theorem wholeUsecs {perSec : Nat} (h : 0 < perSec) (ticks : Nat) :
    ticks / perSec * 1000000 + ticks % perSec * 1000000 / perSec = ticks * 1000000 / perSec := by
  have hsplit : ticks * 1000000 =
      ticks % perSec * 1000000 + perSec * (ticks / perSec * 1000000) := by
    calc ticks * 1000000 = (ticks % perSec + perSec * (ticks / perSec)) * 1000000 := by
          rw [Nat.mod_add_div]
      _ = ticks % perSec * 1000000 + perSec * (ticks / perSec * 1000000) := by
          rw [Nat.add_mul, Nat.mul_assoc]
  rw [hsplit, Nat.add_mul_div_left _ _ h, Nat.add_comm]

section Halves

theorem ticks_of_halves (ticks : UInt64) :
    2 ^ 32 * (ticksHigh ticks).toNat + (ticksLow ticks).toNat = ticks.toNat := by
  have hlt := ticks.toNat_lt
  have hhigh : (ticksHigh ticks).toNat = ticks.toNat / 2 ^ 32 := by
    exact UInt32.toNat_ofNat_of_lt' (Nat.div_lt_of_lt_mul hlt)
  have hlow : (ticksLow ticks).toNat = ticks.toNat % 2 ^ 32 := by
    exact UInt32.toNat_ofNat_of_lt' (Nat.mod_lt _ (by decide))
  rw [hhigh, hlow, Nat.div_add_mod]

theorem timeOf_secs (b : UInt8) (ticks : UInt64) :
    (timeOf b ticks).1.toNat = min (ticks.toNat / ticksPerSec b) (2 ^ 32 - 1) := by
  rw [timeOf, secsUsecs_eq, ticks_of_halves]
  exact UInt32.toNat_ofNat_of_lt' (Nat.lt_of_le_of_lt (Nat.min_le_right _ _) (by decide))

theorem timeOf_usecs (b : UInt8) (ticks : UInt64) :
    (timeOf b ticks).2.toNat = ticks.toNat % ticksPerSec b * 1000000 / ticksPerSec b := by
  rw [timeOf, secsUsecs_eq, ticks_of_halves]
  exact UInt32.toNat_ofNat_of_lt' (Nat.lt_trans (usecs_lt (ticksPerSec_pos b) _) (by decide))

end Halves

/-- The microseconds since the start, as long as the seconds fit. -/
theorem timeOf_whole {b : UInt8} {ticks : UInt64} (h : ticks.toNat / ticksPerSec b < 2 ^ 32) :
    (timeOf b ticks).1.toNat * 1000000 + (timeOf b ticks).2.toNat =
      ticks.toNat * 1000000 / ticksPerSec b := by
  rw [timeOf_secs, timeOf_usecs, Nat.min_eq_left (by omega), wholeUsecs (ticksPerSec_pos b)]

theorem timeOf_usecs_lt (b : UInt8) (ticks : UInt64) : (timeOf b ticks).2.toNat < 1000000 := by
  rw [timeOf_usecs]
  exact usecs_lt (ticksPerSec_pos b) _

/-- Times are ordered as the microseconds they stand for. -/
theorem notAfter_of_whole {t t' : UInt32 × UInt32} (ht : t.2.toNat < 1000000)
    (ht' : t'.2.toNat < 1000000)
    (h : t.1.toNat * 1000000 + t.2.toNat ≤ t'.1.toNat * 1000000 + t'.2.toNat) :
    notAfter t t' := by
  rcases Nat.lt_trichotomy t.1.toNat t'.1.toNat with hlt | heq | hgt
  · exact .inl (UInt32.lt_iff_toNat_lt.mpr hlt)
  · refine .inr ⟨UInt32.toNat_inj.mp heq, UInt32.le_iff_toNat_le.mpr ?_⟩
    omega
  · omega

/-! ## No panic -/

theorem base10Powers_getElem? {e : Nat} (h : e < 20) : base10Powers[e]? = some (10 ^ e) := by
  have hall : ∀ e : Fin 20, base10Powers[e.val]? = some (10 ^ e.val) := by decide +kernel
  exact hall ⟨e, h⟩

theorem ticksPerSecChecked_eq (b : UInt8) : ticksPerSecChecked b = .ok (ticksPerSec b) := by
  unfold ticksPerSecChecked ticksPerSec
  have hlen : base10Powers.length = 20 := rfl
  simp only [hlen]
  by_cases htop : b &&& 0x80 = 0
  · rw [if_pos htop, if_pos htop]
    by_cases he : (b &&& 0x7f).toNat < 20
    · rw [if_pos he, if_pos he]
      exact indexAt_of_some (base10Powers_getElem? he)
    · rw [if_neg he, if_neg he]
  · rw [if_neg htop, if_neg htop, shlOrMax, if_pos (by omega),
      Nat.mod_eq_of_lt (Nat.pow_lt_pow_right (by decide) (by omega))]

/-- The two halves do not meet, so putting them together is an addition. -/
theorem halves_or (tsHigh tsLow : UInt32) :
    tsHigh.toNat * 2 ^ 32 ||| tsLow.toNat = 2 ^ 32 * tsHigh.toNat + tsLow.toNat := by
  rw [Nat.mul_comm, Nat.two_pow_add_eq_or_of_lt tsLow.toNat_lt]

theorem pcapngTimestampChecked_eq (tsHigh tsLow : UInt32) (b : UInt8) :
    pcapngTimestampChecked tsHigh tsLow b =
      .ok (pcapngTimestampToSecsUsecs tsHigh tsLow b) := by
  have hhigh := tsHigh.toNat_lt
  have hshl : checkedShl 64 tsHigh.toNat 32 = .ok (tsHigh.toNat * 2 ^ 32) :=
    checkedShl_of_lt (by decide) (by omega)
  have hpos := ticksPerSec_pos b
  rw [pcapngTimestampChecked, hshl, Lib.ok_bind, halves_or, pcapngTimestampToSecsUsecs]
  by_cases h6 : b = 6
  · rw [if_pos h6, if_pos h6, checkedDiv_of_pos (by decide), checkedRem_of_pos (by decide)]
    rfl
  · have hrest := Nat.mod_lt (2 ^ 32 * tsHigh.toNat + tsLow.toNat) hpos
    have hlt := ticksPerSec_lt b
    have hmul : (2 ^ 32 * tsHigh.toNat + tsLow.toNat) % ticksPerSec b * 1000000 < 2 ^ 128 := by
      omega
    rw [if_neg h6, if_neg h6, ticksPerSecChecked_eq, Lib.ok_bind, checkedDiv_of_pos hpos,
      Lib.ok_bind, checkedRem_of_pos hpos, Lib.ok_bind, checkedProduct_of_lt hmul, Lib.ok_bind,
      checkedDiv_of_pos hpos]
    rfl

/-! ## The conversion -/

/-- For every byte there are fewer than a million microseconds, and no operation stops. For the
bytes that have a meaning the conversion is exact until the seconds are full, and keeps the order
of the ticks. -/
theorem timestamp_converts (b : UInt8) (n : UInt64) :
    (timeOf b n).2.toNat < 1000000 ∧
    pcapngTimestampChecked (ticksHigh n) (ticksLow n) b = .ok (timeOf b n) ∧
    ∀ perSec, TicksPerSec b perSec →
      (timeOf b n).1.toNat = min (n.toNat / perSec) (2 ^ 32 - 1) ∧
      (n.toNat / perSec < 2 ^ 32 →
        (timeOf b n).1.toNat * 1000000 + (timeOf b n).2.toNat = n.toNat * 1000000 / perSec) ∧
      ∀ m : UInt64, n ≤ m → m.toNat / perSec < 2 ^ 32 → notAfter (timeOf b n) (timeOf b m) := by
  refine ⟨timeOf_usecs_lt b n, pcapngTimestampChecked_eq _ _ b, fun perSec hper => ?_⟩
  have hticks := ticksPerSec_of hper
  subst hticks
  refine ⟨timeOf_secs b n, timeOf_whole, fun m hle hm => ?_⟩
  have hnat : n.toNat ≤ m.toNat := UInt64.le_iff_toNat_le.mp hle
  have hn : n.toNat / ticksPerSec b < 2 ^ 32 :=
    Nat.lt_of_le_of_lt (Nat.div_le_div_right hnat) hm
  refine notAfter_of_whole (timeOf_usecs_lt b n) (timeOf_usecs_lt b m) ?_
  rw [timeOf_whole hn, timeOf_whole hm]
  exact Nat.div_le_div_right (Nat.mul_le_mul_right 1000000 hnat)

end Wirerust.Capture
