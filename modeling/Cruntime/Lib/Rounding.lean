/-
Rounding to the nearest, the even one of two.

That is what the conversions of the machine do: an integer to a `double` of 53
significant bits, and a `double` to a number of decimals.  A quotient is given by its
two parts, and everything said of the result depends on the quotient alone: it is off
by half a unit at most, it never falls when the quotient grows, and it reaches an even
number exactly half a unit below it.
-/
import Cruntime.Lib.CText

namespace Cruntime

/-- The nearest integer to a quotient, the even one of two. -/
def roundHalfEven (num den : Nat) : Nat :=
  let whole := num / den
  let twice := 2 * (num % den)
  if twice < den then whole else if den < twice then whole + 1 else whole + whole % 2

/-- A `size_t` as a `double`: rounded to 53 significant bits. -/
def toDouble (n : Nat) : Nat :=
  if n < 2 ^ 53 then n
  else
    let ulp := 2 ^ (Nat.log2 n - 52)
    roundHalfEven n ulp * ulp

theorem toDouble_of_lt {n : Nat} (h : n < 2 ^ 53) : toDouble n = n := if_pos h

/-! ### The nearest integer -/

section Nearest

variable {num den : Nat}

/-- The three cases, on the integer part and the rest. -/
theorem roundHalfEven_cases (num den : Nat) :
    (2 * (num % den) < den ∧ roundHalfEven num den = num / den) ∨
      (den < 2 * (num % den) ∧ roundHalfEven num den = num / den + 1) ∨
      (2 * (num % den) = den ∧ roundHalfEven num den = num / den + num / den % 2) := by
  unfold roundHalfEven
  by_cases hlow : 2 * (num % den) < den
  · exact Or.inl ⟨hlow, if_pos hlow⟩
  · by_cases hhigh : den < 2 * (num % den)
    · exact Or.inr (Or.inl ⟨hhigh, by simp only [if_neg hlow, if_pos hhigh]⟩)
    · exact Or.inr (Or.inr ⟨by omega, by simp only [if_neg hlow, if_neg hhigh]⟩)

/-- It is off by half a unit at most. -/
theorem roundHalfEven_near (hden : 0 < den) :
    2 * num ≤ 2 * (roundHalfEven num den * den) + den ∧
      2 * (roundHalfEven num den * den) ≤ 2 * num + den := by
  have hsum := Nat.div_add_mod' num den
  have hlt := Nat.mod_lt num hden
  have hcases := roundHalfEven_cases num den
  generalize num / den = whole at hsum hcases
  generalize num % den = rest at hsum hlt hcases
  rcases hcases with ⟨hrest, h⟩ | ⟨hrest, h⟩ | ⟨hrest, h⟩
  · rw [h]
    omega
  · rw [h, Nat.add_mul]
    omega
  · rcases Nat.mod_two_eq_zero_or_one whole with heven | hodd
    · rw [h, heven, Nat.add_zero]
      omega
    · rw [h, hodd, Nat.add_mul]
      omega

/-- When it is off by half a unit, it is even. -/
theorem roundHalfEven_even (hden : 0 < den)
    (htie : 2 * num = 2 * (roundHalfEven num den * den) + den ∨
      2 * (roundHalfEven num den * den) = 2 * num + den) : roundHalfEven num den % 2 = 0 := by
  have hsum := Nat.div_add_mod' num den
  have hlt := Nat.mod_lt num hden
  have hcases := roundHalfEven_cases num den
  generalize num / den = whole at hsum hcases
  generalize num % den = rest at hsum hlt hcases
  rcases hcases with ⟨hrest, h⟩ | ⟨hrest, h⟩ | ⟨hrest, h⟩
  · rw [h] at htie
    omega
  · rw [h, Nat.add_mul] at htie
    omega
  · omega

end Nearest

/-! ### The same on rational numbers -/

section Quotient

variable {num den : Nat}

theorem quotient_sub_le (hden : 0 < den) :
    (num : ℚ) / den - 1 / 2 ≤ roundHalfEven num den ∧
      (roundHalfEven num den : ℚ) ≤ num / den + 1 / 2 := by
  obtain ⟨hlo, hhi⟩ := @roundHalfEven_near num den hden
  have hd : (0 : ℚ) < den := by exact_mod_cast hden
  have hlo' : 2 * (num : ℚ) ≤ 2 * (roundHalfEven num den * den) + den := by exact_mod_cast hlo
  have hhi' : 2 * ((roundHalfEven num den : ℚ) * den) ≤ 2 * num + den := by exact_mod_cast hhi
  constructor
  · rw [sub_le_iff_le_add, div_le_iff₀ hd]
    linarith
  · rw [← sub_le_iff_le_add, le_div_iff₀ hd]
    linarith

/-- Off by half a unit at most. -/
theorem abs_roundHalfEven_sub_le (hden : 0 < den) :
    |(roundHalfEven num den : ℚ) - num / den| ≤ 1 / 2 := by
  obtain ⟨hlo, hhi⟩ := @quotient_sub_le num den hden
  rw [abs_le]
  constructor <;> linarith

/-- Half a unit away only from an even number. -/
theorem roundHalfEven_even_of_eq (hden : 0 < den)
    (htie : (roundHalfEven num den : ℚ) = num / den - 1 / 2 ∨
      (roundHalfEven num den : ℚ) = num / den + 1 / 2) : roundHalfEven num den % 2 = 0 := by
  have hd : (0 : ℚ) < den := by exact_mod_cast hden
  have hquot : (num : ℚ) / den * den = num := div_mul_cancel₀ _ hd.ne'
  refine roundHalfEven_even hden ?_
  rcases htie with hlow | hhigh
  · have hmul : 2 * (num : ℚ) = 2 * (roundHalfEven num den * den) + den := by
      rw [hlow, sub_mul, hquot]
      ring
    exact Or.inl (by exact_mod_cast hmul)
  · have hmul : 2 * ((roundHalfEven num den : ℚ) * den) = 2 * num + den := by
      rw [hhigh, add_mul, hquot]
      ring
    exact Or.inr (by exact_mod_cast hmul)

/-- A larger quotient is rounded to no smaller an integer. -/
theorem roundHalfEven_mono {num' den' : Nat} (hden : 0 < den) (hden' : 0 < den')
    (hle : (num : ℚ) / den ≤ num' / den') :
    roundHalfEven num den ≤ roundHalfEven num' den' := by
  obtain ⟨-, hhi⟩ := @quotient_sub_le num den hden
  obtain ⟨hlo', -⟩ := @quotient_sub_le num' den' hden'
  by_contra hlt
  -- both would be half a unit off, on either side of the same quotient
  have hstep : (roundHalfEven num' den' : ℚ) + 1 ≤ roundHalfEven num den := by
    exact_mod_cast Nat.lt_of_not_le hlt
  have heven := @roundHalfEven_even_of_eq num den hden (Or.inr (by linarith))
  have heven' := @roundHalfEven_even_of_eq num' den' hden' (Or.inl (by linarith))
  have hnext : (roundHalfEven num den : ℚ) = roundHalfEven num' den' + 1 := by linarith
  have : roundHalfEven num den = roundHalfEven num' den' + 1 := by exact_mod_cast hnext
  omega

/-- An even number is reached half a unit below it. -/
theorem even_le_roundHalfEven_iff {m : Nat} (hden : 0 < den) (heven : m % 2 = 0) :
    m ≤ roundHalfEven num den ↔ (m : ℚ) - 1 / 2 ≤ num / den := by
  obtain ⟨hlo, hhi⟩ := @quotient_sub_le num den hden
  constructor
  · intro hle
    have : (m : ℚ) ≤ roundHalfEven num den := by exact_mod_cast hle
    linarith
  · intro hle
    by_contra hlt
    have hstep : (roundHalfEven num den : ℚ) + 1 ≤ m := by exact_mod_cast Nat.lt_of_not_le hlt
    have hrounded := @roundHalfEven_even_of_eq num den hden (Or.inl (by linarith))
    have hnext : (m : ℚ) = roundHalfEven num den + 1 := by linarith
    have : m = roundHalfEven num den + 1 := by exact_mod_cast hnext
    omega

end Quotient

/-! ### Two decimals -/

/-- The hundredths `%.2f` prints of a number that is not negative. -/
def hundredths (value : ℚ) : Nat := roundHalfEven (100 * value.num.toNat) value.den

/-- The text of a number of hundredths. -/
def formatHundredths (h : Nat) : CStr :=
  decimal (h / 100) ++ ['.', Nat.digitChar (h / 10 % 10), Nat.digitChar (h % 10)]

section Hundredths

variable {value : ℚ} (hvalue : 0 ≤ value)

include hvalue

/-- The quotient that is rounded. -/
theorem hundredths_quotient :
    ((100 * value.num.toNat : Nat) : ℚ) / value.den = 100 * value := by
  have hnum : ((value.num.toNat : Nat) : ℚ) = value.num := by
    exact_mod_cast Int.toNat_of_nonneg (Rat.num_nonneg.mpr hvalue)
  rw [Nat.cast_mul, hnum, mul_div_assoc, Rat.num_div_den]
  rfl

/-- What is printed is off by half a hundredth at most. -/
theorem abs_hundredths_sub_le : |(hundredths value : ℚ) / 100 - value| ≤ 5 / 1000 := by
  have hnear := @abs_roundHalfEven_sub_le (100 * value.num.toNat) value.den value.den_pos
  rw [hundredths_quotient hvalue, abs_le] at hnear
  unfold hundredths
  rw [abs_le]
  constructor <;> linarith

/-- A larger number is printed no smaller. -/
theorem hundredths_mono {value' : ℚ} (hle : value ≤ value') :
    hundredths value ≤ hundredths value' := by
  refine roundHalfEven_mono value.den_pos value'.den_pos ?_
  rw [hundredths_quotient hvalue, hundredths_quotient (hvalue.trans hle)]
  linarith

/-- An even number of hundredths is reached half a hundredth below it. -/
theorem even_le_hundredths_iff {m : Nat} (heven : m % 2 = 0) :
    m ≤ hundredths value ↔ (m : ℚ) - 1 / 2 ≤ 100 * value := by
  unfold hundredths
  rw [even_le_roundHalfEven_iff value.den_pos heven, hundredths_quotient hvalue]

end Hundredths

end Cruntime
