import MyServer.TextSinkHeader

/-!
`TextSink::format_timestamp_us`. The unsigned microseconds go through the signed 64-bit counts
of `<chrono>`, microseconds and then nanoseconds, back to seconds; the fraction is taken from
the unsigned value.
-/

namespace MyServer

def mulSigned (left right : Int) : Option Int :=
  if -2 ^ 63 ≤ left * right ∧ left * right < 2 ^ 63 then some (left * right) else none

def microsecondCount (us : UInt64) : Int := us.toInt64.toInt

/-- `time_t_tp`: `duration_cast` multiplies up to nanoseconds and `to_time_t` divides down to
seconds, toward zero. -/
def timeOfMicroseconds (us : UInt64) : Option Int := do
  let nanoseconds ← mulSigned (microsecondCount us) 1000
  return nanoseconds.tdiv 1000000000

def padded (width : Nat) (fill : Char) (text : Text) : Text :=
  List.replicate (width - text.length) fill ++ text

def formatTimestampUs (putTime : Int → Text) (us : UInt64) : Option Text := do
  let time ← timeOfMicroseconds us
  return putTime time ++ '.' :: padded 6 '0' (decimal (us % 1000000).toNat)

/-- No overflow, the whole seconds for `std::localtime`, six digits for the rest, and both
together the value. -/
def TimestampExact (us : UInt64) : Prop :=
  ∃ (time : Int) (digits : Text), timeOfMicroseconds us = some time ∧
    time = us.toNat / 1000000 ∧
    digits.length = 6 ∧ (∀ c ∈ digits, c.isDigit = true) ∧
    Nat.ofDigitChars 10 digits 0 = us.toNat % 1000000 ∧
    (∀ putTime, formatTimestampUs putTime us = some (putTime time ++ '.' :: digits)) ∧
    time * 1000000 + Nat.ofDigitChars 10 digits 0 = us.toNat

theorem mulSigned_some {left right product : Int} (fits : mulSigned left right = some product) :
    product = left * right ∧ -2 ^ 63 ≤ left * right ∧ left * right < 2 ^ 63 := by
  unfold mulSigned at fits
  split at fits
  · rename_i range
    exact ⟨(Option.some.inj fits).symm, range⟩
  · cases fits

theorem microsecondCount_eq (us : UInt64) : microsecondCount us =
    if us.toNat < 2 ^ 63 then (us.toNat : Int) else us.toNat - 2 ^ 64 := by
  have count : microsecondCount us = us.toBitVec.toInt := rfl
  have value : us.toBitVec.toNat = us.toNat := rfl
  rw [count, BitVec.toInt_eq_toNat_cond, value]
  split <;> split <;> omega

/-- A time that is not negative comes of a count that is not, whose nanoseconds fit. -/
theorem small_of_time {us : UInt64} {time : Int} (passed : timeOfMicroseconds us = some time)
    (whole : time = us.toNat / 1000000) : us.toNat ≤ 9223372036854775 := by
  obtain ⟨nanoseconds, fits, divided⟩ := Option.bind_eq_some_iff.mp passed
  obtain ⟨rfl, lower, upper⟩ := mulSigned_some fits
  have divided : (microsecondCount us * 1000).tdiv 1000000000 = time := Option.some.inj divided
  have count := microsecondCount_eq us
  have bound := us.toNat_lt
  by_cases small : us.toNat < 2 ^ 63
  · rw [if_pos small] at count
    omega
  · rw [if_neg small] at count
    have negated : (microsecondCount us * 1000).tdiv 1000000000 =
        -(-(microsecondCount us * 1000)).tdiv 1000000000 := by
      rw [Int.neg_tdiv, Int.neg_neg]
    have positive : 0 ≤ (-(microsecondCount us * 1000)).tdiv 1000000000 :=
      Int.tdiv_nonneg (by omega) (by decide)
    omega

theorem timeOfMicroseconds_small {us : UInt64} (small : us.toNat ≤ 9223372036854775) :
    timeOfMicroseconds us = some (us.toNat / 1000000 : Int) := by
  have count : microsecondCount us = us.toNat := by
    rw [microsecondCount_eq, if_pos (by omega)]
  have fits : mulSigned (microsecondCount us) 1000 = some (us.toNat * 1000 : Int) := by
    rw [mulSigned, count, if_pos (by omega)]
  rw [timeOfMicroseconds, fits, Option.bind_eq_bind, Option.bind_some,
    Int.tdiv_eq_ediv_of_nonneg (by omega)]
  change some _ = some _
  congr 1
  omega

theorem padded_zeros {value digits : Nat} (positive : 0 < digits) (bound : value < 10 ^ digits) :
    (padded digits '0' (decimal value)).length = digits ∧
      (∀ c ∈ padded digits '0' (decimal value), c.isDigit = true) ∧
      Nat.ofDigitChars 10 (padded digits '0' (decimal value)) 0 = value := by
  have short := length_decimal_le positive bound
  refine ⟨?_, ?_, ?_⟩
  · rw [padded, List.length_append, List.length_replicate]
    omega
  · intro c inside
    rcases List.mem_append.mp inside with zero | digit
    · rw [List.eq_of_mem_replicate zero]
      rfl
    · exact isDigit_of_mem_decimal digit
  · rw [padded, Nat.ofDigitChars_append, Nat.ofDigitChars_replicate_zero, Nat.mul_zero,
      ofDigitChars_decimal]

/-- A timestamp is converted exactly if and only if its nanoseconds fit in 63 bits. -/
theorem timestamp_exact_iff (us : UInt64) :
    TimestampExact us ↔ us.toNat ≤ 9223372036854775 := by
  constructor
  · rintro ⟨time, digits, passed, whole, _⟩
    exact small_of_time passed whole
  · intro small
    have rest : (us % 1000000).toNat = us.toNat % 1000000 := UInt64.toNat_mod us 1000000
    have below : (us % 1000000).toNat < 10 ^ 6 := by
      rw [rest]
      exact Nat.mod_lt _ (by decide)
    obtain ⟨length, all, value⟩ := padded_zeros (by decide) below
    have passed := timeOfMicroseconds_small small
    refine ⟨_, _, passed, rfl, length, all, value.trans rest, fun putTime => ?_, ?_⟩
    · rw [formatTimestampUs, passed]
      rfl
    · rw [value, rest]
      omega

/-- One microsecond beyond the range the product overflows; the largest value becomes a
count of minus one, and its time is the epoch. -/
theorem timestamp_inexact :
    timeOfMicroseconds 9223372036854776 = none ∧
      timeOfMicroseconds 18446744073709551615 = some 0 ∧
      ¬∀ us, TimestampExact us := by
  have overflows : timeOfMicroseconds 9223372036854776 = none := by decide
  refine ⟨overflows, by decide, fun always => ?_⟩
  obtain ⟨time, digits, passed, _⟩ := always 9223372036854776
  rw [overflows] at passed
  cases passed

/-- The timestamp branch of `format_impl` on the decimal of such a value. -/
theorem renderTimestamp_exact {formatTime : UInt64 → Text} {putTime : Int → Text}
    (prints : ∀ us text, formatTimestampUs putTime us = some text → formatTime us = text)
    {us : UInt64} (small : us.toNat ≤ 9223372036854775) :
    renderTimestamp formatTime (decimal us.toNat) =
      .ok (putTime (us.toNat / 1000000) ++ '.' :: padded 6 '0' (decimal (us % 1000000).toNat)) := by
  rw [renderTimestamp_decimal]
  congr 1
  apply prints
  rw [formatTimestampUs, timeOfMicroseconds_small small]
  rfl

end MyServer
