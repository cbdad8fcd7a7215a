/-
C strings where they lie in memory.

What a function does to a string in place is said of memory: which string begins at an
address before and after, and which places have changed.  Places are read up to a last
one; a read behind it has no result, so that a run with a result has read nothing there.

A scan goes from place to place until a byte stops it.  Over a string it stops in the
string or at its terminator, where the list of the bytes says it does.
-/
import Cruntime.Lib.CText

namespace Cruntime

namespace Bytes

/-- Memory, byte by byte. -/
abbrev Memory := Nat → Char

/-- The byte at a place that may be read. -/
def read (last : Nat) (m : Memory) (p : Nat) : Option Char :=
  if p ≤ last then some (m p) else none

/-- A byte written over the one at `p`. -/
def store (m : Memory) (p : Nat) (c : Char) : Memory := fun q => if q = p then c else m q

/-- The first place from `p` on with a byte that stops the scan, among `left` places. -/
def scan (stop : Char → Bool) (m : Memory) : Nat → Nat → Option Nat
  | 0, _ => none
  | left + 1, p => if stop (m p) then some p else scan stop m left (p + 1)

/-- The scan up to the last place that may be read. -/
def find (last : Nat) (stop : Char → Bool) (m : Memory) (p : Nat) : Option Nat :=
  scan stop m (last + 1 - p) p

/-- `strlen(p)`. -/
def strlen (last : Nat) (m : Memory) (p : Nat) : Option Nat :=
  (find last (fun c => c = '\x00') m p).map fun q => q - p

/-- `strchr(p, c)`: the place of the byte, or the null pointer. -/
def strchr (last : Nat) (m : Memory) (p : Nat) (c : Char) : Option (Option Nat) :=
  (find last (fun d => d = c || d = '\x00') m p).map fun q => if m q = c then some q else none

/-- The string `s` begins at `p`. -/
structure CStringAt (m : Memory) (p : Nat) (s : CStr) : Prop where
  bytes : ∀ i, ∀ h : i < s.length, m (p + i) = s[i]
  terminated : m (p + s.length) = '\x00'
  noNul : '\x00' ∉ s

theorem read_of_le {last p : Nat} (m : Memory) (h : p ≤ last) : read last m p = some (m p) :=
  if_pos h

theorem store_self (m : Memory) (p : Nat) (c : Char) : store m p c p = c := if_pos rfl

theorem store_ne (m : Memory) {p q : Nat} (c : Char) (h : q ≠ p) : store m p c q = m q := if_neg h

/-! ### Strings and their parts -/

section Strings

variable {m m' : Memory} {p : Nat} {s a b : CStr} {c : Char}

theorem cstringAt_nil : CStringAt m p [] ↔ m p = '\x00' := by
  constructor
  · intro h
    exact h.terminated
  · intro h
    exact ⟨fun i hi => absurd hi (Nat.not_lt_zero i), h, by simp⟩

theorem cstringAt_cons :
    CStringAt m p (c :: s) ↔ m p = c ∧ c ≠ '\x00' ∧ CStringAt m (p + 1) s := by
  have hnext : ∀ i, p + (i + 1) = p + 1 + i := by
    intro i
    omega
  constructor
  · intro h
    have hnul := h.noNul
    rw [List.mem_cons, not_or] at hnul
    refine ⟨h.bytes 0 (by simp), Ne.symm hnul.1, fun i hi => ?_, ?_, hnul.2⟩
    · have := h.bytes (i + 1) (by simpa using hi)
      rwa [hnext] at this
    · have := h.terminated
      rwa [List.length_cons, hnext] at this
  · rintro ⟨hc, hne, h⟩
    refine ⟨fun i hi => ?_, ?_, ?_⟩
    · cases i with
      | zero => exact hc
      | succ i =>
          rw [hnext]
          exact h.bytes i (by simpa using hi)
    · rw [List.length_cons, hnext]
      exact h.terminated
    · rw [List.mem_cons, not_or]
      exact ⟨Ne.symm hne, h.noNul⟩

/-- What comes behind the first part of a string is a string. -/
theorem CStringAt.drop (h : CStringAt m p (a ++ b)) : CStringAt m (p + a.length) b := by
  induction a generalizing p with
  | nil => exact h
  | cons c a ih =>
      have := ih (cstringAt_cons.mp h).2.2
      rwa [List.length_cons, Nat.add_comm a.length, ← Nat.add_assoc]

/-- A string stays where its places do not change. -/
theorem CStringAt.congr (h : CStringAt m p s)
    (hsame : ∀ q, p ≤ q → q ≤ p + s.length → m' q = m q) : CStringAt m' p s := by
  refine ⟨fun i hi => ?_, ?_, h.noNul⟩
  · rw [hsame (p + i) (by omega) (by omega)]
    exact h.bytes i hi
  · rw [hsame _ (by omega) le_rfl]
    exact h.terminated

/-- A terminator written behind the first part of a string leaves that part. -/
theorem CStringAt.cut (h : CStringAt m p (a ++ b)) :
    CStringAt (store m (p + a.length) '\x00') p a := by
  refine ⟨fun i hi => ?_, store_self _ _ _, fun hmem => h.noNul (by simp [hmem])⟩
  rw [store_ne _ _ (by omega), h.bytes i (by simp; omega), List.getElem_append_left hi]

end Strings

/-! ### Scans -/

section Scans

variable {m : Memory} {stop : Char → Bool}

/-- A scan that the terminator stops goes over the bytes that do not stop it. -/
theorem scan_eq (hnul : stop '\x00' = true) : ∀ (s : CStr) (p left : Nat), CStringAt m p s →
    s.length < left → scan stop m left p = some (p + (s.takeWhile fun c => !stop c).length) := by
  intro s
  induction s with
  | nil =>
      intro p left hs hleft
      obtain ⟨left, rfl⟩ := Nat.exists_eq_add_one_of_ne_zero (Nat.ne_of_gt hleft)
      unfold scan
      rw [cstringAt_nil.mp hs, if_pos hnul]
      rfl
  | cons c s ih =>
      intro p left hs hleft
      obtain ⟨left, rfl⟩ :=
        Nat.exists_eq_add_one_of_ne_zero (Nat.ne_of_gt (Nat.zero_lt_of_lt hleft))
      obtain ⟨hc, -, hrest⟩ := cstringAt_cons.mp hs
      unfold scan
      rw [hc]
      by_cases hstop : stop c = true
      · rw [if_pos hstop, List.takeWhile_cons_of_neg (by simp [hstop])]
        rfl
      · rw [if_neg hstop, List.takeWhile_cons_of_pos (by simp [hstop]),
          ih (p + 1) left hrest (by simpa using hleft), List.length_cons]
        congr 1
        omega

theorem find_eq {last p : Nat} {s : CStr} (hnul : stop '\x00' = true) (hs : CStringAt m p s)
    (hlast : p + s.length ≤ last) :
    find last stop m p = some (p + (s.takeWhile fun c => !stop c).length) :=
  scan_eq hnul s p _ hs (by omega)

/-- The length of a string is found within it. -/
theorem strlen_eq {last p : Nat} {s : CStr} (hs : CStringAt m p s) (hlast : p + s.length ≤ last) :
    strlen last m p = some s.length := by
  have hall : (s.takeWhile fun c => !decide (c = '\x00')) = s := by
    rw [List.takeWhile_eq_self_iff]
    intro c hc
    simp only [Bool.not_eq_true', decide_eq_false_iff_not]
    rintro rfl
    exact hs.noNul hc
  unfold strlen
  rw [find_eq (by decide) hs hlast, hall, Option.map_some, Nat.add_sub_cancel_left]

section Strchr

variable {last p : Nat} {a b s : CStr} {c : Char}

/-- Bytes that do not end the search for `c`. -/
theorem passes_strchr (hnul : '\x00' ∉ s) (hs : c ∉ s) :
    ∀ d ∈ s, (!(decide (d = c) || decide (d = '\x00'))) = true := by
  intro d hd
  have hne : d ≠ c := fun h => hs (h ▸ hd)
  have hne' : d ≠ '\x00' := fun h => hnul (h ▸ hd)
  simp [hne, hne']

/-- The search ends at the first `c`. -/
theorem strchr_found (hs : CStringAt m p (a ++ c :: b)) (ha : c ∉ a)
    (hlast : p + (a ++ c :: b).length ≤ last) : strchr last m p c = some (some (p + a.length)) := by
  have hnul : '\x00' ∉ a := fun hmem => hs.noNul (by simp [hmem])
  obtain ⟨hbyte, -⟩ := cstringAt_cons.mp hs.drop
  unfold strchr
  rw [find_eq (by simp) hs hlast, List.takeWhile_append_of_pos (passes_strchr hnul ha),
    List.takeWhile_cons_of_neg (by simp), List.append_nil, Option.map_some, if_pos hbyte]

/-- It ends at the terminator when there is none. -/
theorem strchr_absent (hc : c ≠ '\x00') (hs : CStringAt m p s) (ha : c ∉ s)
    (hlast : p + s.length ≤ last) : strchr last m p c = some none := by
  unfold strchr
  rw [find_eq (by simp) hs hlast,
    List.takeWhile_eq_self_iff.mpr (passes_strchr hs.noNul ha), Option.map_some,
    if_neg (by rw [hs.terminated]; exact Ne.symm hc)]

end Strchr

end Scans

end Bytes

end Cruntime
