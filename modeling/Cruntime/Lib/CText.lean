/-
C strings, as the library functions the code calls treat them.

A C string is the list of its bytes up to the terminator, one `Char` for a byte.
A buffer of `n` bytes holds at most `n - 1` of them, so the copying functions are
`take`, and what a call with a too small buffer loses is visible in the model.

Cutting a string at a separator (`strchr`, then a NUL over it) comes up in every
parser of the program; `strchr` returns the two sides of the cut.
-/
import Mathlib

namespace Cruntime

/-- The bytes of a C string before its terminator. -/
abbrev CStr := List Char

instance : LawfulBEq CStr := inferInstance

/-- A buffer read as a C string. -/
def cString (buffer : CStr) : CStr := buffer.takeWhile (· != '\x00')

/-- `strchr(s, c)` and a NUL written over the hit: the text before and after it. -/
def strchr (s : CStr) (c : Char) : Option (CStr × CStr) :=
  if c ∈ s then some (s.takeWhile (· != c), (s.dropWhile (· != c)).tail) else none

/-- `strncpy(dst, src, n)` into a buffer whose rest is zero. -/
def strncpy (src : CStr) (n : Nat) : CStr := src.take n

/-- `snprintf(buf, n, ..)`: the formatted text, cut to leave room for the terminator. -/
def snprintf (n : Nat) (text : CStr) : CStr := text.take (n - 1)

/-- `strncat(dst, src, n)`: at most `n` bytes more. -/
def strncat (dst src : CStr) (n : Nat) : CStr := dst ++ src.take n

theorem strncpy_eq_self {src : CStr} {n : Nat} (h : src.length ≤ n) : strncpy src n = src :=
  List.take_of_length_le h

theorem strncpy_length_le (src : CStr) (n : Nat) : (strncpy src n).length ≤ n := by
  unfold strncpy
  rw [List.length_take]
  exact Nat.min_le_left n _

theorem snprintf_eq_self {text : CStr} {n : Nat} (h : text.length < n) :
    snprintf n text = text :=
  List.take_of_length_le (by omega)

theorem snprintf_eq_self_iff {n : Nat} (hn : 0 < n) {text : CStr} :
    snprintf n text = text ↔ text.length < n := by
  unfold snprintf
  rw [List.take_eq_self_iff]
  omega

/-- Appending what fits to a text that was cut is cutting the text with all of it appended. -/
theorem strncat_take (text src : CStr) (n : Nat) :
    strncat (text.take n) src (n - (text.take n).length) = (text ++ src).take n := by
  unfold strncat
  rw [List.take_append, List.length_take]
  congr 2
  omega

theorem strchr_eq_none {s : CStr} {c : Char} : strchr s c = none ↔ c ∉ s := by
  unfold strchr
  split <;> simp_all

/-- Cutting at the first separator of `a/b`. -/
theorem strchr_append {a b : CStr} {c : Char} (ha : c ∉ a) :
    strchr (a ++ c :: b) c = some (a, b) := by
  have hall : ∀ x ∈ a, (x != c) = true := by
    intro x hx
    simp only [bne_iff_ne, ne_eq]
    rintro rfl
    exact ha hx
  unfold strchr
  rw [if_pos (by simp), List.takeWhile_append_of_pos hall, List.dropWhile_append_of_pos hall]
  simp

/-- What `strchr` returns is a cut of the string at its first separator. -/
theorem strchr_eq_some {s a b : CStr} {c : Char} (h : strchr s c = some (a, b)) :
    s = a ++ c :: b ∧ c ∉ a := by
  unfold strchr at h
  split at h
  · rename_i hmem
    obtain ⟨rfl, rfl⟩ : s.takeWhile (· != c) = a ∧ (s.dropWhile (· != c)).tail = b := by
      simpa using h
    have hne : s.dropWhile (· != c) ≠ [] := by
      intro hnil
      have hall := List.dropWhile_eq_nil_iff.mp hnil c hmem
      simp at hall
    have hhead : (s.dropWhile (· != c)).head hne = c := by
      have := List.head_dropWhile_not (· != c) hne
      simpa using this
    have hcons : c :: (s.dropWhile (· != c)).tail = s.dropWhile (· != c) := by
      conv_rhs => rw [← List.cons_head_tail hne, hhead]
    refine ⟨?_, fun hc => by simpa using List.mem_takeWhile_imp hc⟩
    rw [hcons, List.takeWhile_append_dropWhile]
  · simp at h

/-! ### Decimal numbers -/

/-- `%d` of a number that is not negative. -/
def decimal (n : Nat) : CStr := Nat.toDigits 10 n

/-- `%d`. -/
def decimalInt : Int → CStr
  | .ofNat n => decimal n
  | .negSucc n => '-' :: decimal (n + 1)

theorem isDigit_of_mem_decimal {n : Nat} {c : Char} (h : c ∈ decimal n) : c.isDigit = true :=
  Nat.isDigit_of_mem_toDigits (by omega) (by omega) h

/-- What holds of the ten digits holds of every digit. -/
theorem forall_isDigit {P : Char → Prop} (hP : ∀ d < 10, P (Nat.digitChar d)) {c : Char}
    (h : c.isDigit = true) : P c := by
  obtain ⟨hlo, hhi⟩ : 48 ≤ c.toNat ∧ c.toNat ≤ 57 := Char.isDigit_iff_toNat.mp h
  obtain ⟨d, hd, hc⟩ : ∃ d < 10, Nat.digitChar d = Char.ofNat c.toNat := by
    refine ⟨c.toNat - 48, by omega, ?_⟩
    interval_cases c.toNat <;> rfl
  rw [Char.ofNat_toNat] at hc
  exact hc ▸ hP d hd

theorem decimal_ne_nil (n : Nat) : decimal n ≠ [] := Nat.toDigits_ne_nil

theorem decimal_length_le {n k : Nat} (hk : 0 < k) (h : n < 10 ^ k) : (decimal n).length ≤ k :=
  (Nat.length_toDigits_le_iff (by omega) hk).mpr h

/-- The white space `strtol` skips. -/
def isSpace (c : Char) : Bool :=
  c = ' ' || c = '\t' || c = '\n' || c = '\x0b' || c = '\x0c' || c = '\r'

theorem isSpace_of_isDigit {c : Char} (h : c.isDigit = true) : isSpace c = false :=
  forall_isDigit (P := fun c => isSpace c = false) (by decide) h

/-- The value of a run of decimal digits. -/
def digitsValue (s : CStr) : Nat := s.foldl (fun v c => v * 10 + (c.toNat - 48)) 0

theorem digitsValue_decimal (n : Nat) : digitsValue (decimal n) = n := by
  have hfold : ∀ cs : CStr, digitsValue cs = Nat.ofDigitChars 10 cs 0 := by
    intro cs
    unfold digitsValue Nat.ofDigitChars
    simp only [Nat.mul_comm]
    rfl
  rw [hfold]
  exact Nat.ofDigitChars_ten_toDigits

theorem decimal_injective : Function.Injective decimal :=
  Function.LeftInverse.injective digitsValue_decimal

theorem decimalInt_injective : Function.Injective decimalInt := by
  have hminus : ∀ a b : Nat, decimal a ≠ '-' :: decimal b := by
    intro a b h
    have hdigit : ('-').isDigit = true := isDigit_of_mem_decimal (n := a) (by rw [h]; simp)
    exact absurd hdigit (by decide)
  intro a b h
  cases a with
  | ofNat a =>
      cases b with
      | ofNat b => exact congrArg Int.ofNat (decimal_injective h)
      | negSucc b => exact absurd h (hminus a (b + 1))
  | negSucc a =>
      cases b with
      | ofNat b => exact absurd h.symm (hminus b (a + 1))
      | negSucc b =>
          have := decimal_injective (List.tail_eq_of_cons_eq h)
          rw [Nat.succ.inj this]

/-- `atoi`: `strtol` in base ten, which stops at the first byte that is no digit and
saturates at the bounds of a `long`, converted to a 32-bit `int`. -/
def atoi (s : CStr) : Int :=
  let signed := match s.dropWhile isSpace with
    | '-' :: rest => max (-(digitsValue (rest.takeWhile Char.isDigit) : Int)) (-2 ^ 63)
    | '+' :: rest => min (digitsValue (rest.takeWhile Char.isDigit) : Int) (2 ^ 63 - 1)
    | rest => min (digitsValue (rest.takeWhile Char.isDigit) : Int) (2 ^ 63 - 1)
  signed.bmod (2 ^ 32)

/-- The conversion of an `int` to a `uint16_t`. -/
def toUInt16 (n : Int) : Nat := (n % 65536).toNat

theorem toUInt16_lt (n : Int) : toUInt16 n < 65536 := by
  unfold toUInt16
  omega

end Cruntime
