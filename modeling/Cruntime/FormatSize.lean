/-
Sizes as `format_size` prints them.

The loop divides by 1024 until the value is below 1024 or there is no larger unit, and what
is left is printed with two decimals.  The choice of the unit looks at the value as it is
and the printing rounds it, so that a value just below 1024 is printed as `1024.00` of the
unit it has stopped at.  The number is off by half a hundredth all the same, and two sizes
are never printed the wrong way round: at the end of a unit the number printed is 1024 at
most, which is the least of the next one.

What a text shows is read back with `strtod`.
-/
import Cruntime.Lib.Rounding
import Cruntime.Lib.Strtod

namespace Cruntime

/-- `units`. -/
def units : List CStr := ["B".toList, "KB".toList, "MB".toList, "GB".toList, "TB".toList]

/-- `(double)bytes`. -/
def doubleOf (bytes : Int64) : ℚ := bytes.toInt.sign * toDouble bytes.toInt.natAbs

/-- The loop of `format_size`; `left` counts the units that are left, `4 - unit_idx`. -/
def scaleDown (left : Nat) (value : ℚ) (unitIdx : Nat) : ℚ × Nat :=
  match left with
  | 0 => (value, unitIdx)
  | left + 1 =>
      if value ≥ 1024 then scaleDown left (value / 1024) (unitIdx + 1) else (value, unitIdx)

/-- What `format_size` gives to `snprintf`. -/
def printedSize (bytes : Int64) : CStr :=
  let (value, unitIdx) := scaleDown 4 (doubleOf bytes) 0
  if unitIdx = 0 then decimalInt bytes.toInt ++ ' ' :: units.getD unitIdx []
  else formatHundredths (hundredths value) ++ ' ' :: units.getD unitIdx []

/-- `format_size`, into a buffer of `size` bytes. -/
def formatSize (bytes : Int64) (size : Nat) : CStr := snprintf size (printedSize bytes)

example : formatSize 1048576 32 = "1.00 MB".toList := by decide +kernel

/-! ### What a text shows -/

/-- The number of a text and the index of its unit. -/
structure Reading where
  number : ℚ
  unitIdx : Nat
deriving DecidableEq

/-- A number, a space and a unit. -/
def readSize (text : CStr) : Option Reading :=
  match strtod text with
  | some (.finite number, ' ' :: unit) => (units.idxOf? unit).map fun k => ⟨number, k⟩
  | _ => none

/-- The number of bytes shown. -/
def Reading.bytes (r : Reading) : ℚ := r.number * 1024 ^ r.unitIdx

/-- Below 1024 unless there is no larger unit, and at least 1 unless there is no smaller one. -/
def Reading.Normal (r : Reading) : Prop :=
  (r.unitIdx ≠ 4 → r.number < 1024) ∧ (r.unitIdx ≠ 0 → 1 ≤ r.number)

/-- Half a hundredth of the unit away from `n` at most. -/
def Reading.Accurate (r : Reading) (n : Int) : Prop :=
  |r.bytes - n| ≤ 5 / 1000 * 1024 ^ r.unitIdx

theorem readSize_units {text : CStr} {number : ℚ} {k : Nat} (hk : k ≤ 4)
    (h : strtod text = some (.finite number, ' ' :: units.getD k [])) :
    readSize text = some ⟨number, k⟩ := by
  have hidx : units.idxOf? (units.getD k []) = some k := by interval_cases k <;> decide
  unfold readSize
  rw [h]
  simp only [hidx, Option.map_some]

theorem strtod_formatHundredths (h : Nat) (s : CStr) :
    strtod (formatHundredths h ++ ' ' :: s) = some (.finite ((h : ℚ) / 100), ' ' :: s) := by
  have hsum : h / 100 * 100 + h / 10 % 10 * 10 + h % 10 = h := by omega
  have hread := @strtod_decimals (h / 100) (h / 10 % 10) (h % 10) (by omega) (by omega) s
  rw [hsum] at hread
  unfold formatHundredths
  rw [List.append_assoc]
  exact hread

/-! ### The loop -/

/-- The unit the loop stops at, for a number of bytes. -/
structure StopsAt (n : ℚ) (k : Nat) : Prop where
  bound : k ≤ 4
  below : k ≠ 4 → n / 1024 ^ k < 1024
  least : k ≠ 0 → 1 ≤ n / 1024 ^ k

theorem StopsAt.lt {n : ℚ} {k : Nat} (h : StopsAt n k) (hk : k ≠ 4) : n < 1024 ^ (k + 1) := by
  have hlt := h.below hk
  rw [div_lt_iff₀ (by positivity)] at hlt
  rw [pow_succ]
  linarith

theorem StopsAt.ge {n : ℚ} {k : Nat} (h : StopsAt n k) (hk : k ≠ 0) : 1024 ^ k ≤ n := by
  have hle := h.least hk
  rwa [le_div_iff₀ (by positivity), one_mul] at hle

/-- A larger number of bytes stops at no smaller a unit. -/
theorem StopsAt.mono {m n : ℚ} {j k : Nat} (hm : StopsAt m j) (hn : StopsAt n k) (hle : m ≤ n) :
    j ≤ k := by
  by_contra hlt
  have hbound := hm.bound
  have hpow : (1024 : ℚ) ^ (k + 1) ≤ 1024 ^ j := pow_le_pow_right₀ (by norm_num) (by omega)
  linarith [hn.lt (by omega), hm.ge (by omega)]

/-- From any turn on: the value is the number of bytes over a power of 1024, and it was at
least 1024 before each division. -/
theorem scaleDown_spec (n : ℚ) : ∀ left i : Nat, left + i = 4 → (i ≠ 0 → 1 ≤ n / 1024 ^ i) →
    ∃ k, scaleDown left (n / 1024 ^ i) i = (n / 1024 ^ k, k) ∧ StopsAt n k := by
  intro left
  induction left with
  | zero =>
      intro i hsum hleast
      exact ⟨i, rfl, by omega, fun hne => absurd (by omega) hne, hleast⟩
  | succ left ih =>
      intro i hsum hleast
      unfold scaleDown
      by_cases hge : n / 1024 ^ i ≥ 1024
      · rw [if_pos hge, div_div, ← pow_succ]
        refine ih (i + 1) (by omega) fun _ => ?_
        rw [pow_succ, ← div_div, le_div_iff₀ (by norm_num)]
        linarith
      · rw [if_neg hge]
        exact ⟨i, rfl, by omega, fun _ => lt_of_not_ge hge, hleast⟩

section Exact

variable {bytes : Int64} {n : Nat}

/-- A size below 2^53 is converted as it is. -/
theorem doubleOf_eq (hn : bytes.toInt = n) (hlt : n < 2 ^ 53) : doubleOf bytes = n := by
  unfold doubleOf
  rw [hn, Int.natAbs_natCast, toDouble_of_lt hlt]
  rcases Nat.eq_zero_or_pos n with rfl | hpos
  · simp
  · rw [Int.sign_natCast_of_ne_zero (by omega), Int.cast_one, one_mul]

/-- A whole number has no decimals. -/
theorem hundredths_natCast (n : Nat) : hundredths (n : ℚ) = 100 * n := by
  have hn : (0 : ℚ) ≤ n := by positivity
  refine Nat.le_antisymm ?_ ((even_le_hundredths_iff hn (by omega)).mpr ?_)
  · have hnear := (abs_le.mp (abs_hundredths_sub_le hn)).2
    have hlt : (hundredths (n : ℚ) : ℚ) < (100 * n + 1 : Nat) := by
      push_cast
      linarith
    have : hundredths (n : ℚ) < 100 * n + 1 := by exact_mod_cast hlt
    omega
  · push_cast
    linarith

/-- **What is printed**: the number of bytes over the power of 1024 that the unit stands
for, rounded to two decimals. -/
theorem readSize_printedSize (hn : bytes.toInt = n) (hlt : n < 2 ^ 53) :
    ∃ k, StopsAt n k ∧
      readSize (printedSize bytes) = some ⟨(hundredths (n / 1024 ^ k) : ℚ) / 100, k⟩ := by
  obtain ⟨k, hrun, hstop⟩ := scaleDown_spec n 4 0 rfl (fun hne => absurd rfl hne)
  rw [pow_zero, div_one] at hrun
  refine ⟨k, hstop, readSize_units hstop.bound ?_⟩
  unfold printedSize
  rw [doubleOf_eq hn hlt, hrun]
  by_cases hk : k = 0
  · subst hk
    have hwhole : ((100 * n : Nat) : ℚ) / 100 = n := by
      push_cast
      ring
    simp only [if_true, pow_zero, div_one, hundredths_natCast, hwhole]
    rw [hn]
    exact strtod_decimal n _
  · simp only [if_neg hk]
    exact strtod_formatHundredths _ _

end Exact

/-! ### The number and its unit -/

section Shown

variable {n : ℚ} {k : Nat} (hn : 0 ≤ n)

include hn

theorem quotient_nonneg (k : Nat) : 0 ≤ n / 1024 ^ k := by positivity

/-- The number is never above 1024 where there is a larger unit. -/
theorem hundredths_le_of_stopsAt (hstop : StopsAt n k) (hk : k ≠ 4) :
    (hundredths (n / 1024 ^ k) : ℚ) / 100 ≤ 1024 := by
  have hle := hundredths_mono (quotient_nonneg hn k) (hstop.below hk).le
  rw [show (1024 : ℚ) = ((1024 : Nat) : ℚ) by norm_num, hundredths_natCast] at hle
  have : (hundredths (n / 1024 ^ k) : ℚ) ≤ (100 * 1024 : Nat) := by exact_mod_cast hle
  push_cast at this
  linarith

/-- It is at least 1 where there is a smaller one. -/
theorem le_hundredths_of_stopsAt (hstop : StopsAt n k) (hk : k ≠ 0) :
    1 ≤ (hundredths (n / 1024 ^ k) : ℚ) / 100 := by
  have hle : 100 ≤ hundredths (n / 1024 ^ k) := by
    rw [even_le_hundredths_iff (quotient_nonneg hn k) (by omega)]
    have := hstop.least hk
    push_cast
    linarith
  have : (100 : ℚ) ≤ hundredths (n / 1024 ^ k) := by exact_mod_cast hle
  linarith

/-- It reaches 1024 half a hundredth below. -/
theorem hundredths_lt_iff :
    (hundredths (n / 1024 ^ k) : ℚ) / 100 < 1024 ↔ 200 * n < 204799 * 1024 ^ k := by
  have heven := @even_le_hundredths_iff _ (quotient_nonneg hn k) 102400 (by omega)
  have hreach : (102400 : ℚ) - 1 / 2 ≤ 100 * (n / 1024 ^ k) ↔ 204799 * 1024 ^ k ≤ 200 * n := by
    rw [← mul_div_assoc, le_div_iff₀ (by positivity)]
    constructor <;> intro h <;> linarith
  have hnumber : (1024 : ℚ) ≤ (hundredths (n / 1024 ^ k) : ℚ) / 100 ↔
      102400 ≤ hundredths (n / 1024 ^ k) := by
    rw [le_div_iff₀ (by norm_num)]
    norm_num
  rw [← not_le, ← not_le, hnumber, heven, ← hreach]
  norm_num

/-- What is shown is half a hundredth of the unit away at most. -/
theorem accurate_reading :
    |(hundredths (n / 1024 ^ k) : ℚ) / 100 * 1024 ^ k - n| ≤ 5 / 1000 * 1024 ^ k := by
  have hpow : (0 : ℚ) < 1024 ^ k := by positivity
  have hnear := abs_hundredths_sub_le (quotient_nonneg hn k)
  have hsplit : (hundredths (n / 1024 ^ k) : ℚ) / 100 * 1024 ^ k - n =
      ((hundredths (n / 1024 ^ k) : ℚ) / 100 - n / 1024 ^ k) * 1024 ^ k := by
    rw [sub_mul, div_mul_cancel₀ _ hpow.ne']
  rw [hsplit, abs_mul, abs_of_pos hpow]
  exact mul_le_mul_of_nonneg_right hnear hpow.le

/-- Sizes are shown in their order: within a unit because rounding keeps it, and across
units because 1024 of one is the least that is shown in the next. -/
theorem ordered_readings {m : ℚ} {j : Nat} (hj : StopsAt n j) (hk : StopsAt m k) (hle : n ≤ m) :
    (hundredths (n / 1024 ^ j) : ℚ) / 100 * 1024 ^ j ≤
      (hundredths (m / 1024 ^ k) : ℚ) / 100 * 1024 ^ k := by
  have hpow : (0 : ℚ) < 1024 ^ k := by positivity
  rcases Nat.lt_or_ge j k with hlt | hge
  · have hbound := hk.bound
    have hsmall := hundredths_le_of_stopsAt hn hj (by omega)
    have hlarge := le_hundredths_of_stopsAt (hn.trans hle) hk (by omega)
    calc (hundredths (n / 1024 ^ j) : ℚ) / 100 * 1024 ^ j
        ≤ 1024 * 1024 ^ j := mul_le_mul_of_nonneg_right hsmall (by positivity)
      _ = 1024 ^ (j + 1) := (pow_succ' 1024 j).symm
      _ ≤ 1024 ^ k := pow_le_pow_right₀ (by norm_num) hlt
      _ = 1 * 1024 ^ k := (one_mul _).symm
      _ ≤ (hundredths (m / 1024 ^ k) : ℚ) / 100 * 1024 ^ k :=
          mul_le_mul_of_nonneg_right hlarge hpow.le
  · obtain rfl : j = k := Nat.le_antisymm (hj.mono hk hle) hge
    have hmono := hundredths_mono (quotient_nonneg hn j)
      (div_le_div_of_nonneg_right hle hpow.le)
    have hmono' : (hundredths (n / 1024 ^ j) : ℚ) ≤ hundredths (m / 1024 ^ j) := by
      exact_mod_cast hmono
    exact mul_le_mul_of_nonneg_right (by linarith) hpow.le

end Shown

/-! ### What is printed -/

/-- A size within half a hundredth of the next unit, from below. -/
def JustBelowUnit (n : Int) : Prop :=
  ∃ k : Nat, 1 ≤ k ∧ k ≤ 3 ∧ 204799 * 1024 ^ k ≤ 200 * n ∧ n < 1024 ^ (k + 1)

/-- Such a size stops at the unit it is just below the end of. -/
theorem stopsAt_of_justBelow {n k : Nat} (hk : k ≤ 3) (hlo : 204799 * 1024 ^ k ≤ 200 * n)
    (hhi : n < 1024 ^ (k + 1)) : StopsAt n k := by
  have hlo' : (204799 : ℚ) * 1024 ^ k ≤ 200 * n := by exact_mod_cast hlo
  have hhi' : (n : ℚ) < 1024 ^ (k + 1) := by exact_mod_cast hhi
  have hpow : (0 : ℚ) < 1024 ^ k := by positivity
  refine ⟨by omega, fun _ => ?_, fun _ => ?_⟩
  · rw [div_lt_iff₀ hpow, ← pow_succ']
    exact hhi'
  · rw [le_div_iff₀ hpow]
    linarith

/-- **When a size is printed normalised**: exactly when it is not within half a hundredth of
the next unit. -/
theorem normal_iff {bytes : Int64} (hlo : 0 ≤ bytes.toInt) (hhi : bytes.toInt < 2 ^ 53) :
    (∃ r, readSize (printedSize bytes) = some r ∧ r.Normal) ↔ ¬JustBelowUnit bytes.toInt := by
  obtain ⟨n, hn⟩ := Int.eq_ofNat_of_zero_le hlo
  obtain ⟨k, hstop, hread⟩ := readSize_printedSize hn (by omega)
  have hnonneg : (0 : ℚ) ≤ n := by positivity
  have hnormal : (∃ r, readSize (printedSize bytes) = some r ∧ r.Normal) ↔
      (k ≠ 4 → 200 * n < 204799 * 1024 ^ k) := by
    rw [hread, ← Nat.cast_lt (α := ℚ)]
    push_cast
    rw [← hundredths_lt_iff hnonneg]
    constructor
    · rintro ⟨r, hr, hnormal⟩
      obtain rfl := Option.some.inj hr
      exact hnormal.1
    · intro hbelow
      exact ⟨_, rfl, hbelow, fun hk => le_hundredths_of_stopsAt hnonneg hstop hk⟩
  rw [hnormal, hn]
  constructor
  · rintro hbelow ⟨j, -, hj, hreach, hend⟩
    have hreach' : 204799 * 1024 ^ j ≤ 200 * n := by exact_mod_cast hreach
    have hstop' := stopsAt_of_justBelow hj hreach' (by exact_mod_cast hend)
    obtain rfl : k = j := Nat.le_antisymm (hstop.mono hstop' le_rfl) (hstop'.mono hstop le_rfl)
    have := hbelow (by omega)
    omega
  · intro hnot hk
    by_contra hreach
    have hend : n < 1024 ^ (k + 1) := by exact_mod_cast hstop.lt hk
    have hbound := hstop.bound
    have hone : k ≠ 0 := by
      rintro rfl
      omega
    exact hnot ⟨k, by omega, by omega, by exact_mod_cast Nat.le_of_not_lt hreach,
      by exact_mod_cast hend⟩

/-- One and a half kilobytes are not near an end. -/
theorem normal_kilobytes :
    ∃ r, readSize (printedSize 1536) = some r ∧ r.Normal := by
  refine (normal_iff (by decide) (by decide)).mpr ?_
  rintro ⟨k, hone, hthree, hreach, hend⟩
  have hbytes : (1536 : Int64).toInt = 1536 := rfl
  rw [hbytes] at hreach hend
  interval_cases k <;> omega

/-- One byte less than a megabyte is printed as 1024.00 KB. -/
theorem kilobytes_not_normal :
    ¬∀ bytes : Int64, 0 ≤ bytes.toInt → bytes.toInt < 2 ^ 53 →
      ∃ r, readSize (printedSize bytes) = some r ∧ r.Normal := by
  intro hall
  obtain ⟨r, hr, hnormal⟩ := hall 1048575 (by decide) (by decide)
  have hread : readSize (printedSize 1048575) = some ⟨1024, 1⟩ := by decide +kernel
  rw [hread] at hr
  obtain rfl := Option.some.inj hr
  have hlt : (1024 : ℚ) < 1024 := hnormal.1 (by decide)
  exact lt_irrefl _ hlt

/-- **Sizes are printed in their order**, each of them half a hundredth of its unit away at
most. -/
theorem sizes_shown_in_order {a b : Int64} (hlo : 0 ≤ a.toInt) (hle : a.toInt ≤ b.toInt)
    (hhi : b.toInt < 2 ^ 53) :
    ∃ r s, readSize (printedSize a) = some r ∧ readSize (printedSize b) = some s ∧
      r.bytes ≤ s.bytes ∧ r.Accurate a.toInt ∧ s.Accurate b.toInt := by
  obtain ⟨m, hm⟩ := Int.eq_ofNat_of_zero_le hlo
  obtain ⟨n, hn⟩ := Int.eq_ofNat_of_zero_le (hlo.trans hle)
  obtain ⟨j, hj, hread⟩ := readSize_printedSize hm (by omega)
  obtain ⟨k, hk, hread'⟩ := readSize_printedSize hn (by omega)
  have hmn : (m : ℚ) ≤ n := by
    have : m ≤ n := by omega
    exact_mod_cast this
  have hnonneg : (0 : ℚ) ≤ m := by positivity
  refine ⟨_, _, hread, hread', ordered_readings hnonneg hj hk hmn, ?_, ?_⟩
  · rw [hm]
    exact accurate_reading hnonneg
  · rw [hn]
    exact accurate_reading (hnonneg.trans hmn)

/-- The two sizes on either side of a megabyte. -/
theorem sizes_shown_at_megabyte :
    ∃ r s, readSize (printedSize 1048575) = some r ∧ readSize (printedSize 1048576) = some s ∧
      r.bytes ≤ s.bytes ∧ r.Accurate 1048575 ∧ s.Accurate 1048576 :=
  sizes_shown_in_order (a := 1048575) (b := 1048576) (by decide) (by decide) (by decide)

/-! ### The buffer -/

theorem units_length {k : Nat} (hk : k ≤ 4) : (units.getD k []).length ≤ 2 := by
  interval_cases k <;> decide

/-- Below 2^53 no more than four digits stand in front of the point. -/
theorem hundredths_div_lt {n k : Nat} (hlt : n < 2 ^ 53) (hstop : StopsAt n k) :
    hundredths (n / 1024 ^ k) / 100 < 10 ^ 4 := by
  have hvalue : (n : ℚ) / 1024 ^ k ≤ (8192 : Nat) := by
    by_cases hk : k = 4
    · subst hk
      have : (n : ℚ) < 2 ^ 53 := by exact_mod_cast hlt
      rw [div_le_iff₀ (by positivity)]
      push_cast
      linarith
    · have := hstop.below hk
      push_cast
      linarith
  have hle := hundredths_mono (quotient_nonneg (Nat.cast_nonneg n) k) hvalue
  rw [hundredths_natCast] at hle
  omega

/-- A buffer of eleven bytes holds what is printed. -/
theorem formatSize_eq {bytes : Int64} {size : Nat} (hlo : 0 ≤ bytes.toInt)
    (hhi : bytes.toInt < 2 ^ 53) (hsize : 10 < size) :
    formatSize bytes size = printedSize bytes := by
  obtain ⟨n, hn⟩ := Int.eq_ofNat_of_zero_le hlo
  obtain ⟨k, hrun, hstop⟩ := scaleDown_spec n 4 0 rfl (fun hne => absurd rfl hne)
  rw [pow_zero, div_one] at hrun
  have hunit := units_length hstop.bound
  refine snprintf_eq_self ?_
  unfold printedSize
  rw [doubleOf_eq hn (by omega), hrun]
  by_cases hk : k = 0
  · have hlt : n < 10 ^ 4 := by
      have hstop' : n < 1024 ^ (k + 1) := by exact_mod_cast hstop.lt (by omega)
      subst hk
      omega
    have hdigits := decimal_length_le (by omega) hlt
    simp only [if_pos hk, hn, List.length_append, List.length_cons]
    show (decimal n).length + _ < size
    omega
  · have hdigits := decimal_length_le (by omega) (hundredths_div_lt (by omega) hstop)
    simp only [if_neg hk, formatHundredths, List.length_append, List.length_cons,
      List.length_nil]
    omega

end Cruntime
