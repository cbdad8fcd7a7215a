/-
The container ids and the sizes of `utils.c`.

`generate_id` draws a byte for each character, from `/dev/urandom` or, failing that,
from `rand()`, and writes one of sixteen digits for it.  The draws are an argument
here: at most 32 of them in the first case, one for each place of the buffer in the
second.

`parse_size` reads a number and the letter behind it.  What follows the letter is not
looked at, and -1 stands for what cannot be read.
-/
import Cruntime.Lib.Strtod

namespace Cruntime

/-- `charset` of `generate_id`. -/
def idCharset : CStr := "0123456789abcdef".toList

/-- `charset[r % 16]`. -/
def idDigit (r : Nat) : Char := idCharset.getD (r % 16) '0'

theorem idDigit_mem (r : Nat) : idDigit r ∈ idCharset := by
  have hlt : r % 16 < idCharset.length := Nat.mod_lt r (by decide)
  unfold idDigit
  rw [List.getD_eq_getElem?_getD, List.getElem?_eq_getElem hlt]
  exact List.getElem_mem hlt

/-- `generate_id` into a buffer of `size` bytes. -/
def generateId (size : Nat) (draws : List Nat) : CStr :=
  (draws.take (size - 1)).map fun r => idCharset.getD (r % 16) '0'

theorem mem_generateId {size : Nat} {draws : List Nat} {c : Char} (h : c ∈ generateId size draws) :
    c ∈ idCharset := by
  obtain ⟨r, -, rfl⟩ := List.mem_map.mp h
  exact idDigit_mem r

/-- The multiplier of the unit that a text starts with; `none` where it is no unit. -/
def sizeMultiplier : CStr → Option Nat
  | [] => some 1
  | c :: _ =>
      if c = 'K' ∨ c = 'k' then some 1024
      else if c = 'M' ∨ c = 'm' then some (1024 * 1024)
      else if c = 'G' ∨ c = 'g' then some (1024 * 1024 * 1024)
      else if c = 'T' ∨ c = 't' then some (1024 * 1024 * 1024 * 1024)
      else none

/-- `parse_size`; `undefined` is what a conversion out of range gives. -/
def parseSize (undefined : Int64) (str : CStr) : Int64 :=
  match strtod str with
  | none => -1
  | some (value, endptr) =>
      match sizeMultiplier endptr with
      | some multiplier => (value.scale multiplier).toInt64 undefined
      | none => -1

example : parseSize 0 "1.5K".toList = 1536 := by decide +kernel

end Cruntime
