/-
The two paths of `generate_id`.

Both write digits from the start of the buffer and a terminator into its last byte.  With
`/dev/urandom` there are 32 random bytes, and the loop ends with them; without it there is
a draw for every place.  So in a buffer of more than 33 bytes the first path leaves a gap
between the digits and the terminator, and what stands in the gap is what stood there
before.  The loops share one invariant: the digits so far, and behind them the old buffer.
-/
import Cruntime.Utils

namespace Cruntime

/-! ### The function -/

/-- Where the digits come from: the 32 bytes of `random_bytes`, as `fread` leaves them, or,
when `/dev/urandom` cannot be opened, the values of `rand()`. -/
inductive IdSource where
  | urandom (randomBytes : Nat → UInt8)
  | fallback (rands : Nat → Nat)

/-- The loop over the first `n` places of the buffer. -/
def fillDigits (draws : Nat → Nat) (buffer : CStr) : Nat → CStr
  | 0 => buffer
  | n + 1 => (fillDigits draws buffer n).set n (idDigit (draws n))

/-- `generate_id`, with the buffer as it was before. -/
def generateIdInto (source : IdSource) (buffer : CStr) (size : Nat) : CStr :=
  let buffer :=
    match source with
    | .fallback rands => fillDigits rands buffer (size - 1)
    | .urandom randomBytes =>
        fillDigits (fun i => (randomBytes i).toNat) buffer (min (size - 1) 32)
  buffer.set (size - 1) '\x00'

/-- An id for a buffer of `size` bytes: as many digits as it has room for. -/
structure IsId (size : Nat) (s : CStr) : Prop where
  length : s.length = size - 1
  digits : ∀ c ∈ s, c ∈ idCharset

/-! ### What the loops leave -/

theorem nul_not_mem_idCharset : '\x00' ∉ idCharset := by decide

/-- The first `n` digits of a source. -/
def digitsOf (draws : Nat → Nat) (n : Nat) : CStr := (List.range n).map fun i => idDigit (draws i)

theorem digitsOf_length (draws : Nat → Nat) (n : Nat) : (digitsOf draws n).length = n := by
  simp [digitsOf]

theorem mem_digitsOf {draws : Nat → Nat} {n : Nat} {c : Char} (h : c ∈ digitsOf draws n) :
    c ∈ idCharset := by
  obtain ⟨i, -, rfl⟩ := List.mem_map.mp h
  exact idDigit_mem _

/-- **The invariant of the loops**: the digits so far, and behind them the old buffer. -/
theorem fillDigits_eq (draws : Nat → Nat) (buffer : CStr) (n : Nat) (h : n ≤ buffer.length) :
    fillDigits draws buffer n = digitsOf draws n ++ buffer.drop n := by
  induction n with
  | zero => simp [fillDigits, digitsOf]
  | succ n ih =>
      have hlt : n < buffer.length := by omega
      have hlen := digitsOf_length draws n
      unfold fillDigits
      rw [ih (by omega), List.set_append_right _ _ (by omega), hlen, Nat.sub_self,
        List.drop_eq_getElem_cons hlt, List.set_cons_zero]
      unfold digitsOf
      rw [List.range_succ, List.map_append]
      simp

/-- The digits, the old bytes between them and the last place, and the terminator. -/
theorem fill_terminate (draws : Nat → Nat) {buffer : CStr} {n size : Nat} (hn : n ≤ size - 1)
    (hsize : 1 ≤ size) (hroom : size ≤ buffer.length) :
    (fillDigits draws buffer n).set (size - 1) '\x00' =
      digitsOf draws n ++ (buffer.take (size - 1)).drop n ++ '\x00' :: buffer.drop size := by
  have hlen := digitsOf_length draws n
  have hlast : size - 1 < buffer.length := by omega
  have hmid : buffer.drop n =
      (buffer.take (size - 1)).drop n ++ buffer[size - 1] :: buffer.drop size := by
    have hsplit : buffer = buffer.take (size - 1) ++ buffer[size - 1] :: buffer.drop size := by
      have hdrop := List.drop_eq_getElem_cons hlast
      rw [Nat.sub_add_cancel hsize] at hdrop
      rw [← hdrop, List.take_append_drop]
    conv_lhs => rw [hsplit]
    rw [List.drop_append_of_le_length (by rw [List.length_take]; omega)]
  have hgap : ((buffer.take (size - 1)).drop n).length = size - 1 - n := by
    rw [List.length_drop, List.length_take]
    omega
  rw [fillDigits_eq draws buffer n (by omega), hmid, ← List.append_assoc,
    List.set_append_right _ _ (by rw [List.length_append, hlen, hgap]; omega),
    List.length_append, hlen, hgap, Nat.add_sub_cancel' hn, Nat.sub_self, List.set_cons_zero]

/-- A buffer that is terminated at its last place holds an id exactly when all before it are
digits. -/
theorem isId_cString_iff {s rest : CStr} {size : Nat} (hs : s.length = size - 1) :
    IsId size (cString (s ++ '\x00' :: rest)) ↔ ∀ c ∈ s, c ∈ idCharset := by
  unfold cString
  constructor
  · intro h
    have hpre := List.takeWhile_prefix (· != '\x00') (l := s ++ '\x00' :: rest)
    have heq := List.prefix_of_prefix_length_le hpre (List.prefix_append s ('\x00' :: rest))
      (by rw [h.length, hs])
    rw [heq.eq_of_length (by rw [h.length, hs])] at h
    exact h.digits
  · intro h
    have hall : ∀ c ∈ s, (c != '\x00') = true := by
      intro c hc
      refine bne_iff_ne.mpr fun hnul => nul_not_mem_idCharset ?_
      rw [← hnul]
      exact h c hc
    have hcut : (s ++ '\x00' :: rest).takeWhile (· != '\x00') = s := by
      rw [List.takeWhile_append_of_pos hall]
      simp
    rw [hcut]
    exact ⟨hs, h⟩

/-- One path: what it leaves is an id exactly when the bytes it leaves alone are digits. -/
theorem isId_fill_iff (draws : Nat → Nat) {buffer : CStr} {n size : Nat} (hn : n ≤ size - 1)
    (hsize : 1 ≤ size) (hroom : size ≤ buffer.length) :
    IsId size (cString ((fillDigits draws buffer n).set (size - 1) '\x00')) ↔
      ∀ c ∈ (buffer.take (size - 1)).drop n, c ∈ idCharset := by
  have hlen : (digitsOf draws n ++ (buffer.take (size - 1)).drop n).length = size - 1 := by
    rw [List.length_append, digitsOf_length, List.length_drop, List.length_take]
    omega
  rw [fill_terminate draws hn hsize hroom, isId_cString_iff hlen]
  simp only [List.mem_append]
  constructor
  · intro h c hc
    exact h c (Or.inr hc)
  · intro h c hc
    rcases hc with hc | hc
    · exact mem_digitsOf hc
    · exact h c hc

/-! ### The specification -/

/-- The path that draws a value for every place. -/
def IdSource.IsFallback : IdSource → Prop
  | .urandom _ => False
  | .fallback _ => True

/-- **`generate_id` leaves an id exactly when it draws for every place, or the random bytes are
enough for the buffer, or digits stand behind them already.** -/
theorem generateIdInto_isId_iff (source : IdSource) (buffer : CStr) (size : Nat)
    (hsize : 1 ≤ size) (hroom : size ≤ buffer.length) :
    IsId size (cString (generateIdInto source buffer size)) ↔
      source.IsFallback ∨ size ≤ 33 ∨ ∀ c ∈ (buffer.take (size - 1)).drop 32, c ∈ idCharset := by
  unfold generateIdInto
  cases source with
  | fallback rands =>
      rw [isId_fill_iff rands (Nat.le_refl _) hsize hroom]
      refine ⟨fun _ => Or.inl trivial, fun _ c hc => ?_⟩
      rw [List.drop_eq_nil_of_le (by rw [List.length_take]; omega)] at hc
      simp at hc
  | urandom randomBytes =>
      rw [isId_fill_iff _ (Nat.min_le_left _ _) hsize hroom]
      by_cases hshort : size ≤ 33
      · refine ⟨fun _ => Or.inr (Or.inl hshort), fun _ c hc => ?_⟩
        rw [List.drop_eq_nil_of_le (by rw [List.length_take]; omega)] at hc
        simp at hc
      · rw [Nat.min_eq_right (by omega)]
        simp [IdSource.IsFallback, hshort]

/-- A buffer of three bytes, and random bytes for it. -/
theorem generateIdInto_three :
    IsId 3 (cString (generateIdInto (.urandom fun _ => 171) ['x', 'y', 'z'] 3)) :=
  (generateIdInto_isId_iff _ _ 3 (by decide) (by decide)).mpr (Or.inr (Or.inl (by decide)))

/-- The id of `cmd_run`: its 65 bytes are zero before, and it gets 32 digits, not 64. -/
theorem id_stops_at_random_bytes :
    ¬∀ (source : IdSource) (buffer : CStr) (size : Nat), 1 ≤ size → size ≤ buffer.length →
      IsId size (cString (generateIdInto source buffer size)) := by
  intro hall
  have hid := hall (.urandom fun _ => 0) (List.replicate 65 '\x00') 65 (by decide) (by decide)
  exact absurd hid.length (by decide)

/-! ### The ids of `cmd_run` -/

/-- The draws that are used for a buffer of `size` bytes. -/
def IdSource.draws (size : Nat) : IdSource → List Nat
  | .urandom randomBytes => (List.range 32).map fun i => (randomBytes i).toNat
  | .fallback rands => (List.range (size - 1)).map rands

/-- **Into a buffer of zeros `generate_id` writes one digit for each draw**, as many as there is
room for. -/
theorem generateIdInto_zero (source : IdSource) {size : Nat} (hsize : 1 ≤ size) :
    cString (generateIdInto source (List.replicate size '\x00') size) =
      generateId size (source.draws size) := by
  have hcut : ∀ (draws : Nat → Nat) (n : Nat), n ≤ size - 1 →
      cString ((fillDigits draws (List.replicate size '\x00') n).set (size - 1) '\x00') =
        digitsOf draws n := by
    intro draws n hn
    have hall : ∀ c ∈ digitsOf draws n, (c != '\x00') = true := by
      intro c hc
      refine bne_iff_ne.mpr fun hnul => nul_not_mem_idCharset ?_
      rw [← hnul]
      exact mem_digitsOf hc
    rw [fill_terminate draws hn hsize (by simp), List.append_assoc]
    unfold cString
    rw [List.takeWhile_append_of_pos hall]
    cases hgap : (List.take (size - 1) (List.replicate size '\x00')).drop n with
    | nil => simp
    | cons c rest =>
        have hc : c ∈ (List.take (size - 1) (List.replicate size '\x00')).drop n := by
          rw [hgap]
          exact List.mem_cons_self
        obtain rfl := List.eq_of_mem_replicate (List.mem_of_mem_take (List.mem_of_mem_drop hc))
        simp
  have hdigits : ∀ (draws : Nat → Nat) (k : Nat),
      generateId size ((List.range k).map draws) = digitsOf draws (min (size - 1) k) := by
    intro draws k
    unfold generateId digitsOf
    rw [← List.map_take, List.take_range, List.map_map]
    rfl
  unfold generateIdInto IdSource.draws
  cases source with
  | fallback rands =>
      refine (hcut rands _ (Nat.le_refl _)).trans ?_
      rw [hdigits, Nat.min_self]
  | urandom randomBytes =>
      refine (hcut _ _ (Nat.min_le_left _ _)).trans ?_
      rw [hdigits]

end Cruntime
