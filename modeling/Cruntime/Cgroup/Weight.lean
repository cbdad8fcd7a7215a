/-
The weight that stands for a number of CPU shares.

cgroup v1 counts a container's part of the processor in shares, 2 to 262144, and v2 in
a weight, 1 to 10000.  `cgroup_apply_limits` scales the one to the other in 64 bits and
brings what lies outside back to the nearest bound.  It multiplies before it divides, and
nothing has checked the field by then: a share beyond the largest number over ten thousand
makes the product wrap around, and the bounds hide what comes of it.
-/
import Cruntime.Cgroup.Limits

namespace Cruntime

/-- What the scaling is for: of two numbers of shares the larger gets no smaller a weight,
both weights are ones the kernel takes, and every share above the documented range gets the
largest one. -/
structure KeepsPriority (a b : Int64) : Prop where
  least : 1 ≤ (cpuWeightOf a).toInt
  ordered : (cpuWeightOf a).toInt ≤ (cpuWeightOf b).toInt
  most : (cpuWeightOf b).toInt ≤ 10000
  exact_small : (a * 10000).toInt = a.toInt * 10000
  exact_large : (b * 10000).toInt = b.toInt * 10000
  capped_small : 262144 ≤ a.toInt → (cpuWeightOf a).toInt = 10000
  capped_large : 262144 ≤ b.toInt → (cpuWeightOf b).toInt = 10000

/-- The largest number of shares whose product with 10000 has 64 bits. -/
def maxExactShares : Int := (2 ^ 63 - 1) / 10000

/-- The product is exact up to there and no further. -/
theorem scaled_exact_iff {shares : Int64} (hpos : 0 < shares.toInt) :
    (shares * 10000).toInt = shares.toInt * 10000 ↔ shares.toInt ≤ maxExactShares := by
  have hmul : (shares * 10000).toInt = (shares.toInt * 10000).bmod (2 ^ 64) :=
    Int64.toInt_mul shares 10000
  have hlo := (shares * 10000).le_toInt
  have hhi := (shares * 10000).toInt_lt
  rw [hmul] at *
  unfold maxExactShares
  constructor
  · intro hexact
    omega
  · intro hle
    exact Int.bmod_eq_of_le (by omega) (by omega)

/-- The weight before the bounds are applied. -/
theorem scaled_toInt {shares : Int64}
    (hexact : (shares * 10000).toInt = shares.toInt * 10000) (hpos : 0 < shares.toInt) :
    (shares * 10000 / 262144).toInt = shares.toInt * 10000 / 262144 := by
  have hlt := (shares * 10000).toInt_lt
  rw [Int64.toInt_div, hexact, show (262144 : Int64).toInt = 262144 from rfl,
    Int.tdiv_eq_ediv_of_nonneg (by omega)]
  exact Int.bmod_eq_of_le (by omega) (by omega)

/-- The bounds, on exact numbers. -/
theorem cpuWeightOf_toInt (shares : Int64) :
    (cpuWeightOf shares).toInt = min 10000 (max 1 (shares * 10000 / 262144).toInt) := by
  have hone : (1 : Int64).toInt = 1 := rfl
  have hmost : (10000 : Int64).toInt = 10000 := rfl
  unfold cpuWeightOf
  simp only [gt_iff_lt, Int64.lt_iff_toInt_lt]
  by_cases hlow : (shares * 10000 / 262144).toInt < (1 : Int64).toInt
  · simp only [if_pos hlow]
    rw [if_neg (by omega)]
    omega
  · simp only [if_neg hlow]
    by_cases hhigh : (10000 : Int64).toInt < (shares * 10000 / 262144).toInt
    · rw [if_pos hhigh]
      omega
    · rw [if_neg hhigh]
      omega

/-- The weights lie within the bounds whatever the shares are. -/
theorem cpuWeightOf_bounds (shares : Int64) :
    1 ≤ (cpuWeightOf shares).toInt ∧ (cpuWeightOf shares).toInt ≤ 10000 := by
  rw [cpuWeightOf_toInt]
  omega

/-- **When the scaling keeps priority**: exactly when the larger number of shares can be
multiplied by ten thousand in 64 bits. -/
theorem keepsPriority_iff {a b : Int64} (hpos : 0 < a.toInt) (hle : a.toInt ≤ b.toInt) :
    KeepsPriority a b ↔ b.toInt ≤ maxExactShares := by
  have hb : 0 < b.toInt := by omega
  constructor
  · intro h
    exact (scaled_exact_iff hb).mp h.exact_large
  · intro hbound
    have hexact_a := (scaled_exact_iff hpos).mpr (by omega)
    have hexact_b := (scaled_exact_iff hb).mpr hbound
    have hwa := cpuWeightOf_toInt a
    have hwb := cpuWeightOf_toInt b
    rw [scaled_toInt hexact_a hpos] at hwa
    rw [scaled_toInt hexact_b hb] at hwb
    exact {
      least := (cpuWeightOf_bounds a).1
      ordered := by omega
      most := (cpuWeightOf_bounds b).2
      exact_small := hexact_a
      exact_large := hexact_b
      capped_small := by omega
      capped_large := by omega }

/-- The shares of a container by default and twice as many. -/
theorem keepsPriority_default :
    (1024 : Int64).toInt ≤ (2048 : Int64).toInt ∧ KeepsPriority 1024 2048 :=
  ⟨by decide, (keepsPriority_iff (by decide) (by decide)).mpr (by decide)⟩

/-- The first number of shares whose product wraps around gets the least weight, below that
of a share at the end of the documented range. -/
theorem wrapped_shares_lose_priority :
    ¬∀ a b : Int64, 0 < a.toInt → a.toInt ≤ b.toInt → KeepsPriority a b := by
  intro hall
  have hordered := (hall 262144 922337203685478 (by decide) (by decide)).ordered
  exact absurd hordered (by decide)

end Cruntime
