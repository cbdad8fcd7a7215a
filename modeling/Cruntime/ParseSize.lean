/-
The texts `parse_size` is meant for, and the texts it takes.

A size is a number that is not negative, with nothing behind it or one of four letters.
What is a number is what `strtod` reads as one, white space in front included.  The code
looks at one character behind the number and at no other, does not look at the sign, and
leaves an amount that no `int64_t` can hold to the conversion.  So besides the sizes it
takes whatever starts with one, and some texts that are none come out as -1 by chance.
-/
import Cruntime.Utils

namespace Cruntime

/-! ### The grammar -/

/-- The power of 1024 that a letter stands for. -/
def unitPower : Char → Option Nat
  | 'K' | 'k' => some 1
  | 'M' | 'm' => some 2
  | 'G' | 'g' => some 3
  | 'T' | 't' => some 4
  | _ => none

/-- A text that is a size, and the amount it denotes. -/
inductive SizeText (s : CStr) : ℚ → Prop
  | plain {q : ℚ} (number : strtod s = some (.finite q, [])) (nonneg : 0 ≤ q) : SizeText s q
  | withUnit {q : ℚ} {c : Char} {p : Nat} (number : strtod s = some (.finite q, [c]))
      (nonneg : 0 ≤ q) (unit : unitPower c = some p) : SizeText s (q * 1024 ^ p)

/-- A size that an `int64_t` can hold comes out rounded down, and everything else as -1;
`undefined` is what a conversion out of range gives. -/
structure ParsedExactly (undefined : Int64) (s : CStr) : Prop where
  accepts : ∀ amount, SizeText s amount → amount < 2 ^ 63 →
    (parseSize undefined s).toInt = ⌊amount⌋
  rejects : (∀ amount, SizeText s amount → ¬amount < 2 ^ 63) → parseSize undefined s = -1

/-! ### The function in terms of what `strtod` reads -/

/-- The code's multipliers are the powers of 1024. -/
theorem sizeMultiplier_cons (c : Char) (rest : CStr) :
    sizeMultiplier (c :: rest) = (unitPower c).map fun p => 1024 ^ p := by
  unfold sizeMultiplier unitPower
  dsimp only
  split_ifs with hk hm hg ht
  · rcases hk with rfl | rfl
    · rfl
    · rfl
  · rcases hm with rfl | rfl
    · rfl
    · rfl
  · rcases hg with rfl | rfl
    · rfl
    · rfl
  · rcases ht with rfl | rfl
    · rfl
    · rfl
  · split
    all_goals simp_all

theorem parseSize_unread {undefined : Int64} {s : CStr} (h : strtod s = none) :
    parseSize undefined s = -1 := by
  unfold parseSize
  rw [h]

theorem parseSize_no_unit {undefined : Int64} {s rest : CStr} {value : Double}
    (h : strtod s = some (value, rest)) (hunit : sizeMultiplier rest = none) :
    parseSize undefined s = -1 := by
  unfold parseSize
  rw [h]
  simp only [hunit]

theorem parseSize_unit {undefined : Int64} {s rest : CStr} {value : Double} {multiplier : Nat}
    (h : strtod s = some (value, rest)) (hunit : sizeMultiplier rest = some multiplier) :
    parseSize undefined s = (value.scale multiplier).toInt64 undefined := by
  unfold parseSize
  rw [h]
  simp only [hunit]

/-- A size is read as a number with a unit behind it. -/
theorem SizeText.reads {s : CStr} {amount : ℚ} (h : SizeText s amount) :
    ∃ q rest multiplier, strtod s = some (.finite q, rest) ∧ rest.length ≤ 1 ∧ 0 ≤ q ∧
      sizeMultiplier rest = some multiplier ∧ amount = q * multiplier := by
  cases h with
  | plain number nonneg => exact ⟨_, [], 1, number, by simp, nonneg, rfl, by simp⟩
  | @withUnit q c p number nonneg unit =>
      refine ⟨q, [c], 1024 ^ p, number, by simp, nonneg, ?_, by norm_cast⟩
      rw [sizeMultiplier_cons, unit]
      rfl

/-- The sizes among the texts with a number and a unit at the start. -/
theorem sizeText_iff {s rest : CStr} {value : Double} {multiplier : Nat} {amount : ℚ}
    (h : strtod s = some (value, rest)) (hunit : sizeMultiplier rest = some multiplier) :
    SizeText s amount ↔
      ∃ q, value = .finite q ∧ rest.length ≤ 1 ∧ 0 ≤ q ∧ amount = q * multiplier := by
  constructor
  · intro hsize
    obtain ⟨q, rest', multiplier', hread, hshort, hq, hunit', hamount⟩ := hsize.reads
    obtain ⟨rfl, rfl⟩ : value = .finite q ∧ rest = rest' := by
      rw [h] at hread
      simpa using hread
    rw [hunit] at hunit'
    obtain rfl := Option.some.inj hunit'
    exact ⟨q, rfl, hshort, hq, hamount⟩
  · rintro ⟨q, rfl, hshort, hq, rfl⟩
    cases rest with
    | nil =>
        obtain rfl : 1 = multiplier := Option.some.inj hunit
        rw [Nat.cast_one, mul_one]
        exact .plain h hq
    | cons c more =>
        obtain rfl : more = [] := by simpa using hshort
        rw [sizeMultiplier_cons] at hunit
        obtain ⟨p, hp, rfl⟩ := Option.map_eq_some_iff.mp hunit
        rw [Nat.cast_pow, Nat.cast_ofNat]
        exact .withUnit h hq hp

/-! ### When it is exact -/

/-- The texts that are read right: no number at the start, or no unit behind it, or a size that an
`int64_t` can hold, or an amount that is cut to -1, whatever stands behind the unit. -/
def ReadRight (s : CStr) : Prop :=
  ∀ value rest multiplier, strtod s = some (value, rest) →
    sizeMultiplier rest = some multiplier →
      ∃ q, value = .finite q ∧
        (rest.length ≤ 1 ∧ 0 ≤ q ∧ q * multiplier < 2 ^ 63 ∨
          -2 < q * multiplier ∧ q * multiplier ≤ -1)

/-- A number with a unit behind it. -/
theorem parsedExactly_unit_iff {s rest : CStr} {value : Double} {multiplier : Nat}
    (h : strtod s = some (value, rest)) (hunit : sizeMultiplier rest = some multiplier) :
    (∀ undefined, ParsedExactly undefined s) ↔
      ∃ q, value = .finite q ∧
        (rest.length ≤ 1 ∧ 0 ≤ q ∧ q * multiplier < 2 ^ 63 ∨
          -2 < q * multiplier ∧ q * multiplier ≤ -1) := by
  have hsize := fun amount => @sizeText_iff s rest value multiplier amount h hunit
  have hrejected : (∀ undefined, parseSize undefined s = -1) ↔
      ∃ q, value.scale multiplier = .finite q ∧ -2 < q ∧ q ≤ -1 := by
    rw [← Double.toInt64_eq_neg_one_iff]
    exact forall_congr' fun undefined => by rw [parseSize_unit h hunit]
  by_cases hfits : ∃ q, value = .finite q ∧ rest.length ≤ 1 ∧ 0 ≤ q ∧ q * multiplier < 2 ^ 63
  · obtain ⟨q, rfl, hshort, hq, hlt⟩ := hfits
    refine ⟨fun _ => ⟨q, rfl, Or.inl ⟨hshort, hq, hlt⟩⟩, fun _ undefined => ⟨?_, ?_⟩⟩
    · intro amount hamount _
      obtain ⟨q', hq', -, -, rfl⟩ := (hsize amount).mp hamount
      obtain rfl := Double.finite.inj hq'
      rw [parseSize_unit h hunit]
      exact Double.toInt64_finite (mul_nonneg hq (Nat.cast_nonneg _)) hlt
    · intro hnone
      exact absurd hlt (hnone _ ((hsize _).mpr ⟨q, rfl, hshort, hq, rfl⟩))
  · have hnone : ∀ amount, SizeText s amount → ¬amount < 2 ^ 63 := by
      intro amount hamount hlt
      obtain ⟨q, hvalue, hshort, hq, rfl⟩ := (hsize amount).mp hamount
      exact hfits ⟨q, hvalue, hshort, hq, hlt⟩
    have hiff : (∀ undefined, ParsedExactly undefined s) ↔
        ∀ undefined, parseSize undefined s = -1 := by
      refine forall_congr' fun undefined => ⟨fun hexact => hexact.rejects hnone, fun hminus => ?_⟩
      exact ⟨fun amount hamount hlt => absurd hlt (hnone amount hamount), fun _ => hminus⟩
    rw [hiff, hrejected]
    constructor
    · rintro ⟨q, hq, hcut⟩
      cases value with
      | finite q' =>
          obtain rfl := Double.finite.inj hq
          exact ⟨q', rfl, Or.inr hcut⟩
      | infinite negative => simp [Double.scale] at hq
      | nan => simp [Double.scale] at hq
    · rintro ⟨q, rfl, ⟨hshort, hq, hlt⟩ | hcut⟩
      · exact absurd ⟨q, rfl, hshort, hq, hlt⟩ hfits
      · exact ⟨q * multiplier, rfl, hcut⟩

/-- **`parse_size` reads a text as the grammar has it, whatever a conversion out of range gives,
exactly when the text is one of those.** -/
theorem parseSize_exact_iff (s : CStr) :
    (∀ undefined, ParsedExactly undefined s) ↔ ReadRight s := by
  have hno : (∀ amount, ¬SizeText s amount) → (∀ undefined, parseSize undefined s = -1) →
      ∀ undefined, ParsedExactly undefined s := by
    intro hnone hminus undefined
    exact ⟨fun amount hamount _ => absurd hamount (hnone amount), fun _ => hminus undefined⟩
  cases hread : strtod s with
  | none =>
      have hnone : ∀ amount, ¬SizeText s amount := by
        intro amount hamount
        obtain ⟨q, rest, multiplier, hsome, -⟩ := hamount.reads
        simp [hread] at hsome
      refine iff_of_true (hno hnone fun _ => parseSize_unread hread) ?_
      intro value rest multiplier hsome
      simp [hread] at hsome
  | some x =>
      obtain ⟨value, rest⟩ := x
      cases hunit : sizeMultiplier rest with
      | none =>
          have hnone : ∀ amount, ¬SizeText s amount := by
            intro amount hamount
            obtain ⟨q, rest', multiplier, hsome, -, -, hunit', -⟩ := hamount.reads
            obtain ⟨-, rfl⟩ : value = .finite q ∧ rest = rest' := by
              rw [hread] at hsome
              simpa using hsome
            simp [hunit] at hunit'
          refine iff_of_true (hno hnone fun _ => parseSize_no_unit hread hunit) ?_
          intro value' rest' multiplier hsome hunit'
          obtain ⟨-, rfl⟩ : value = value' ∧ rest = rest' := by
            rw [hread] at hsome
            simpa using hsome
          simp [hunit] at hunit'
      | some multiplier =>
          rw [parsedExactly_unit_iff hread hunit]
          constructor
          · intro h value' rest' multiplier' hsome hunit'
            obtain ⟨rfl, rfl⟩ : value = value' ∧ rest = rest' := by
              rw [hread] at hsome
              simpa using hsome
            rw [hunit] at hunit'
            obtain rfl := Option.some.inj hunit'
            exact h
          · intro h
            exact h value rest multiplier hread hunit

/-- `10MB` is no size, and is taken for ten MiB. -/
theorem text_behind_unit_taken : ¬∀ s undefined, ParsedExactly undefined s := by
  intro hall
  have hread : strtod "10MB".toList = some (.finite 10, "MB".toList) := by decide +kernel
  have hunit : sizeMultiplier "MB".toList = some (1024 * 1024) := by decide
  have hminus := (hall "10MB".toList 0).rejects fun amount hamount => by
    obtain ⟨q, -, hshort, -⟩ := (sizeText_iff hread hunit).mp hamount
    exact absurd hshort (by decide)
  exact absurd hminus (by decide +kernel)

end Cruntime
