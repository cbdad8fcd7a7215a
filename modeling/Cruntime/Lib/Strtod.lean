/-
Numbers as `strtod` reads them.

The value is the exact one of the longest prefix that is a number: what rounding to a
`double` would make of it is left out.  Besides decimal numbers that can be hexadecimal
ones, infinities, and what is not a number at all; the last two have no rational value.
-/
import Cruntime.Lib.CText

namespace Cruntime

/-- The value `strtod` returns. -/
inductive Double where
  | finite (q : ℚ)
  | infinite (negative : Bool)
  | nan
deriving DecidableEq

namespace Double

def neg : Double → Double
  | finite q => finite (-q)
  | infinite negative => infinite !negative
  | nan => nan

/-- The product with a positive integer. -/
def scale (k : Nat) : Double → Double
  | finite q => finite (q * k)
  | infinite negative => infinite negative
  | nan => nan

/-- The integer part, the sign apart. -/
def trunc (q : ℚ) : Int := q.num.tdiv q.den

/-- The conversion to an `int64_t`; `undefined` where the language leaves it undefined. -/
def toInt64 (undefined : Int64) : Double → Int64
  | finite q => if -2 ^ 63 ≤ trunc q ∧ trunc q < 2 ^ 63 then Int64.ofInt (trunc q) else undefined
  | infinite _ => undefined
  | nan => undefined

theorem trunc_of_nonneg {q : ℚ} (hq : 0 ≤ q) : trunc q = ⌊q⌋ := by
  unfold trunc
  rw [Rat.floor_def', Int.tdiv_eq_ediv_of_nonneg (Rat.num_nonneg.mpr hq)]

theorem trunc_neg (q : ℚ) : trunc (-q) = -trunc q := by
  unfold trunc
  rw [Rat.num_neg_eq_neg_num, Rat.den_neg_eq_den, Int.neg_tdiv]

/-- The numbers whose integer part is -1. -/
theorem trunc_eq_neg_one_iff {q : ℚ} : trunc q = -1 ↔ -2 < q ∧ q ≤ -1 := by
  by_cases hq : 0 ≤ q
  · have hfloor : 0 ≤ ⌊q⌋ := Int.floor_nonneg.mpr hq
    rw [trunc_of_nonneg hq]
    constructor
    · intro h
      omega
    · intro h
      linarith [h.2]
  · have hneg : trunc q = -⌊-q⌋ := by
      rw [← trunc_of_nonneg (by linarith : 0 ≤ -q), trunc_neg, neg_neg]
    have hone : ⌊-q⌋ = 1 ↔ (1 : ℚ) ≤ -q ∧ -q < 2 := by
      rw [Int.floor_eq_iff]
      norm_num
    rw [hneg, show -⌊-q⌋ = -1 ↔ ⌊-q⌋ = 1 by omega, hone]
    constructor
    · intro h
      exact ⟨by linarith [h.2], by linarith [h.1]⟩
    · intro h
      exact ⟨by linarith [h.2], by linarith [h.1]⟩

theorem toInt64_eq_ite (undefined : Int64) (q : ℚ) :
    (finite q).toInt64 undefined =
      if -2 ^ 63 ≤ trunc q ∧ trunc q < 2 ^ 63 then Int64.ofInt (trunc q) else undefined := rfl

/-- A number in range that is not negative is rounded down. -/
theorem toInt64_finite {undefined : Int64} {q : ℚ} (hlo : 0 ≤ q) (hhi : q < 2 ^ 63) :
    ((finite q).toInt64 undefined).toInt = ⌊q⌋ := by
  have htrunc : trunc q = ⌊q⌋ := trunc_of_nonneg hlo
  have hpos : 0 ≤ ⌊q⌋ := Int.floor_nonneg.mpr hlo
  have hlt : ⌊q⌋ < 2 ^ 63 := Int.floor_lt.mpr (by exact_mod_cast hhi)
  rw [toInt64_eq_ite, htrunc, if_pos ⟨by omega, hlt⟩]
  exact Int64.toInt_ofInt_of_le (by omega) hlt

/-- Whatever stands for what is out of range: only the numbers cut to -1 come out as -1. -/
theorem toInt64_eq_neg_one_iff {x : Double} :
    (∀ undefined, x.toInt64 undefined = -1) ↔ ∃ q, x = finite q ∧ -2 < q ∧ q ≤ -1 := by
  have hzero : (0 : Int64) ≠ -1 := by decide
  cases x with
  | finite q =>
      constructor
      · intro h
        have hone := h 0
        rw [toInt64_eq_ite] at hone
        by_cases hrange : -2 ^ 63 ≤ trunc q ∧ trunc q < 2 ^ 63
        · rw [if_pos hrange] at hone
          have hcut := congrArg Int64.toInt hone
          rw [Int64.toInt_ofInt_of_le hrange.1 hrange.2] at hcut
          exact ⟨q, rfl, trunc_eq_neg_one_iff.mp (by simpa using hcut)⟩
        · rw [if_neg hrange] at hone
          exact absurd hone hzero
      · rintro ⟨q', hq', hcut⟩ undefined
        obtain rfl := finite.inj hq'
        rw [toInt64_eq_ite, trunc_eq_neg_one_iff.mpr hcut, if_pos (by omega)]
        rfl
  | infinite negative =>
      constructor
      · intro h
        exact absurd (h 0) hzero
      · rintro ⟨q, hq, -⟩
        simp at hq
  | nan =>
      constructor
      · intro h
        exact absurd (h 0) hzero
      · rintro ⟨q, hq, -⟩
        simp at hq

end Double

/-- The rest of a text behind a word, in whatever case the text has it. -/
def stripWord (word s : CStr) : Option CStr :=
  if (s.take word.length).map Char.toLower = word then some (s.drop word.length) else none

def isHexDigit (c : Char) : Bool := c.isDigit || 'a' ≤ c.toLower && c.toLower ≤ 'f'

def hexValue (c : Char) : Nat :=
  if c.isDigit then c.toNat - 48 else c.toLower.toNat - 87

/-- Digits with at most one point: the digits, how many stand behind the point, and the rest. -/
def readDigits (digit : Char → Bool) (s : CStr) : Option (CStr × Nat × CStr) :=
  let whole := s.takeWhile digit
  match s.dropWhile digit with
  | '.' :: more =>
      if whole ++ more.takeWhile digit = [] then none
      else some (whole ++ more.takeWhile digit, (more.takeWhile digit).length, more.dropWhile digit)
  | rest => if whole = [] then none else some (whole, 0, rest)

/-- An exponent behind one of two marks, if there is one. -/
def readExponent (mark mark' : Char) (s : CStr) : Int × CStr :=
  match s with
  | [] => (0, [])
  | c :: rest =>
      let (negative, digits) := match rest with
        | '-' :: digits => (true, digits)
        | '+' :: digits => (false, digits)
        | digits => (false, digits)
      if (c = mark ∨ c = mark') ∧ digits.takeWhile Char.isDigit ≠ [] then
        let value : Int := digitsValue (digits.takeWhile Char.isDigit)
        (if negative then -value else value, digits.dropWhile Char.isDigit)
      else (0, s)

def readHex (s : CStr) : Option (Double × CStr) :=
  (readDigits isHexDigit s).map fun (digits, behind, rest) =>
    let (e, rest) := readExponent 'p' 'P' rest
    let value : Nat := digits.foldl (fun v c => v * 16 + hexValue c) 0
    (.finite (value * (2 : ℚ) ^ (e - 4 * behind)), rest)

def readDecimal (s : CStr) : Option (Double × CStr) :=
  (readDigits Char.isDigit s).map fun (digits, behind, rest) =>
    let (e, rest) := readExponent 'e' 'E' rest
    (.finite (digitsValue digits * (10 : ℚ) ^ (e - behind)), rest)

/-- The `(...)` that may stand behind `nan`. -/
def skipNanChars (s : CStr) : CStr :=
  match s with
  | '(' :: rest =>
      match rest.dropWhile fun c => c.isAlphanum || c == '_' with
      | ')' :: after => after
      | _ => s
  | _ => s

/-- A number without a sign. -/
def readUnsigned (s : CStr) : Option (Double × CStr) :=
  match stripWord "infinity".toList s, stripWord "inf".toList s, stripWord "nan".toList s,
    (stripWord "0x".toList s).bind readHex with
  | some rest, _, _, _ => some (.infinite false, rest)
  | none, some rest, _, _ => some (.infinite false, rest)
  | none, none, some rest, _ => some (.nan, skipNanChars rest)
  | none, none, none, some x => some x
  | none, none, none, none => readDecimal s

/-- `strtod`: the value and the text behind it; `none` when there is no number. -/
def strtod (s : CStr) : Option (Double × CStr) :=
  match s.dropWhile isSpace with
  | '-' :: rest => (readUnsigned rest).map fun (x, after) => (x.neg, after)
  | '+' :: rest => readUnsigned rest
  | rest => readUnsigned rest

example : strtod " -1.5e1M".toList = some (.finite (-15), "M".toList) := by decide +kernel

/-- `atof`: 0 when there is no number. -/
def atof (s : CStr) : Double := ((strtod s).map (·.1)).getD (.finite 0)

/-! ### Numbers as `printf` writes them -/

/-- What a digit is not. -/
theorem isDigit_spec {c : Char} (h : c.isDigit = true) :
    c ≠ '-' ∧ c ≠ '+' ∧ c.toLower ≠ 'i' ∧ c.toLower ≠ 'n' ∧ c.toLower ≠ 'x' := by
  refine forall_isDigit (P := fun c => c ≠ '-' ∧ c ≠ '+' ∧ c.toLower ≠ 'i' ∧ c.toLower ≠ 'n' ∧
    c.toLower ≠ 'x') ?_ h
  decide

theorem stripWord_eq_none {c w : Char} (h : c.toLower ≠ w) (word s : CStr) :
    stripWord (w :: word) (c :: s) = none := by
  unfold stripWord
  rw [if_neg]
  intro hmap
  rw [List.length_cons, List.take_succ_cons, List.map_cons] at hmap
  exact h (List.cons.inj hmap).1

/-- A digit and something else than the `x` of a hexadecimal number begin a decimal one. -/
theorem readUnsigned_of_isDigit {c d : Char} (hc : c.isDigit = true) (hd : d.toLower ≠ 'x')
    (s : CStr) : readUnsigned (c :: d :: s) = readDecimal (c :: d :: s) := by
  obtain ⟨-, -, hi, hn, -⟩ := isDigit_spec hc
  have hhex : stripWord "0x".toList (c :: d :: s) = none := by
    unfold stripWord
    rw [if_neg]
    intro hmap
    have hlower : [c.toLower, d.toLower] = ['0', 'x'] := hmap
    exact hd (List.cons.inj (List.cons.inj hlower).2).1
  have hinfinity : stripWord "infinity".toList (c :: d :: s) = none := stripWord_eq_none hi _ _
  have hinf : stripWord "inf".toList (c :: d :: s) = none := stripWord_eq_none hi _ _
  have hnan : stripWord "nan".toList (c :: d :: s) = none := stripWord_eq_none hn _ _
  unfold readUnsigned
  rw [hinfinity, hinf, hnan, hhex]
  rfl

theorem strtod_of_isDigit {c d : Char} (hc : c.isDigit = true) (hd : d.toLower ≠ 'x')
    (s : CStr) : strtod (c :: d :: s) = readDecimal (c :: d :: s) := by
  obtain ⟨hminus, hplus, -⟩ := isDigit_spec hc
  unfold strtod
  rw [List.dropWhile_cons_of_neg (by simp [isSpace_of_isDigit hc])]
  split
  · simp_all
  · simp_all
  · exact readUnsigned_of_isDigit hc hd s

/-- What `%d` writes is read as a decimal number, whatever is behind it but an `x`. -/
theorem strtod_decimal_append (n : Nat) {c : Char} (hc : c.toLower ≠ 'x') (s : CStr) :
    strtod (decimal n ++ c :: s) = readDecimal (decimal n ++ c :: s) := by
  have hdigits : ∀ d ∈ decimal n, d.isDigit = true := fun _ => isDigit_of_mem_decimal
  cases hn : decimal n with
  | nil => exact absurd hn (decimal_ne_nil n)
  | cons d ds =>
      rw [hn] at hdigits
      have hd := hdigits d (by simp)
      cases ds with
      | nil => exact strtod_of_isDigit hd hc s
      | cons e es =>
          obtain ⟨-, -, -, -, he⟩ := isDigit_spec (hdigits e (by simp))
          exact strtod_of_isDigit hd he (es ++ c :: s)

theorem takeWhile_digits {digits : CStr} (hall : ∀ d ∈ digits, d.isDigit = true) {c : Char}
    (hc : c.isDigit = false) (s : CStr) :
    (digits ++ c :: s).takeWhile Char.isDigit = digits ∧
      (digits ++ c :: s).dropWhile Char.isDigit = c :: s := by
  rw [List.takeWhile_append_of_pos hall, List.dropWhile_append_of_pos hall]
  simp [hc]

/-- Digits in front of a space have no exponent. -/
theorem readDecimal_space {s digits rest : CStr} {behind : Nat}
    (h : readDigits Char.isDigit s = some (digits, behind, ' ' :: rest)) :
    readDecimal s =
      some (.finite (digitsValue digits * (10 : ℚ) ^ (-(behind : ℤ))), ' ' :: rest) := by
  have hexponent : readExponent 'e' 'E' (' ' :: rest) = (0, ' ' :: rest) := by
    simp [readExponent]
  unfold readDecimal
  rw [h, Option.map_some]
  simp only [hexponent, zero_sub]

/-- A whole number in front of a space. -/
theorem strtod_decimal (n : Nat) (s : CStr) :
    strtod (decimal n ++ ' ' :: s) = some (.finite n, ' ' :: s) := by
  have hread : readDigits Char.isDigit (decimal n ++ ' ' :: s) =
      some (decimal n, 0, ' ' :: s) := by
    obtain ⟨htake, hdrop⟩ :=
      @takeWhile_digits (decimal n) (fun _ => isDigit_of_mem_decimal) ' ' rfl s
    unfold readDigits
    rw [htake, hdrop]
    exact if_neg (decimal_ne_nil n)
  rw [strtod_decimal_append n (by decide) s, readDecimal_space hread, digitsValue_decimal]
  simp

/-- Two decimals behind a point, in front of a space. -/
theorem strtod_decimals {n d e : Nat} (hd : d < 10) (he : e < 10) (s : CStr) :
    strtod (decimal n ++ '.' :: Nat.digitChar d :: Nat.digitChar e :: ' ' :: s) =
      some (.finite ((n * 100 + d * 10 + e : Nat) / 100), ' ' :: s) := by
  have hdigit : ∀ k < 10, (Nat.digitChar k).isDigit = true := by decide
  have hread : readDigits Char.isDigit
      (decimal n ++ '.' :: Nat.digitChar d :: Nat.digitChar e :: ' ' :: s) =
        some (decimal n ++ [Nat.digitChar d, Nat.digitChar e], 2, ' ' :: s) := by
    obtain ⟨htake, hdrop⟩ := @takeWhile_digits (decimal n) (fun _ => isDigit_of_mem_decimal) '.' rfl
      (Nat.digitChar d :: Nat.digitChar e :: ' ' :: s)
    obtain ⟨htake', hdrop'⟩ := @takeWhile_digits [Nat.digitChar d, Nat.digitChar e]
      (by simp [hdigit, hd, he]) ' ' rfl s
    unfold readDigits
    rw [htake, hdrop]
    simp only [List.cons_append, List.nil_append] at htake' hdrop'
    simp only [htake', hdrop']
    exact if_neg (by simp)
  have hvalue : digitsValue (decimal n ++ [Nat.digitChar d, Nat.digitChar e]) =
      n * 100 + d * 10 + e := by
    have hn := digitsValue_decimal n
    unfold digitsValue at hn ⊢
    rw [List.foldl_append, hn]
    simp only [List.foldl_cons, List.foldl_nil, Nat.toNat_digitChar_sub_48_of_lt_ten hd,
      Nat.toNat_digitChar_sub_48_of_lt_ten he]
    omega
  rw [strtod_decimal_append n (by decide), readDecimal_space hread, hvalue]
  norm_num [zpow_neg, div_eq_mul_inv]

end Cruntime
