/-
`split_string` cuts a string into its fields in place.

Every token points into the one buffer, and the buffer is written all the time: a NUL over
each delimiter, and a NUL behind the last byte of a field that is not blank.  What keeps the
tokens apart is where these writes fall.  A turn of the loop writes within its own field
and at its end, the fields before it lie wholly in front, and the rest of the string begins
behind the delimiter and is still the string it was.

So a turn is described by what it does to its field and by the places it leaves alone, and
the loop by the rest of the string.
-/
import Cruntime.Lib.Bytes

namespace Cruntime

open Bytes (Memory CStringAt read store find strlen)

/-- The white space `trim_whitespace` takes away. -/
def isBlank (c : Char) : Bool := c = ' ' || c = '\t' || c = '\n' || c = '\r'

/-- The second loop of `trim_whitespace`, with `end` at `str + k`: where it stops. -/
def trimBack (last : Nat) (m : Memory) (str : Nat) : Nat → Option Nat
  | 0 => some 0
  | k + 1 => do
      let c ← read last m (str + (k + 1))
      if isBlank c then trimBack last m str k else return k + 1

/-- `trim_whitespace`: the memory and the pointer it returns; `none` when it reads behind
`last`. -/
def trimWhitespace (last : Nat) (m : Memory) (str : Nat) : Option (Memory × Nat) := do
  -- Trim leading space
  let str ← find last (fun c => !isBlank c) m str
  let c ← read last m str
  if c = '\x00' then
    return (m, str)
  -- Trim trailing space
  let len ← strlen last m str
  let k ← trimBack last m str (len - 1)
  return (store m (str + k + 1) '\x00', str)

/-- The loop of `split_string`; `left` is `max_tokens - count`. -/
def splitLoop (last : Nat) (delimiter : Char) :
    (left : Nat) → Memory → (token : Option Nat) → (tokens : List Nat) → Option (Memory × List Nat)
  | 0, m, _, tokens => some (m, tokens)
  | _ + 1, m, none, tokens => some (m, tokens)
  | left + 1, m, some token, tokens => do
      let next ← Bytes.strchr last m token delimiter
      let (m, next) := match next with
        | some place => (store m place '\x00', some (place + 1))
        | none => (m, none)
      let (m, trimmed) ← trimWhitespace last m token
      splitLoop last delimiter left m next (tokens ++ [trimmed])

/-- `split_string`: the memory it leaves and the tokens, which it returns the number of. -/
def splitString (last : Nat) (m : Memory) (str : Nat) (delimiter : Char) (maxTokens : Int) :
    Option (Memory × List Nat) :=
  splitLoop last delimiter maxTokens.toNat m (some str) []

/-! ### A field and its trimmed text -/

/-- A text without the blanks in front and behind. -/
def trimmed (f : CStr) : CStr := (f.dropWhile isBlank).rdropWhile isBlank

section Trim

variable {last : Nat} {m : Memory}

/-- Back from the last byte of a text that begins with no blank: to the last byte that is
not one. -/
theorem trimBack_eq {p : Nat} {c : Char} (hc : isBlank c = false) : ∀ rest : CStr,
    (∀ i, ∀ h : i < (c :: rest).length, m (p + i) = (c :: rest)[i]) → p + rest.length ≤ last →
      trimBack last m p rest.length = some (((c :: rest).rdropWhile isBlank).length - 1) := by
  intro rest
  induction rest using List.reverseRecOn with
  | nil =>
      intro _ _
      rw [List.rdropWhile_singleton, hc]
      rfl
  | append_singleton rest d ih =>
      intro hbytes hlast
      rw [List.length_append, List.length_singleton] at hlast ⊢
      have hd : m (p + (rest.length + 1)) = d := by
        rw [hbytes (rest.length + 1) (by simp)]
        simp
      have hfront : ∀ i, ∀ h : i < (c :: rest).length, m (p + i) = (c :: rest)[i] := by
        intro i hi
        have hi' : i < rest.length + 1 := hi
        rw [hbytes i (by simp; omega)]
        exact @List.getElem_append_left _ i (c :: rest) [d] hi _
      unfold trimBack
      rw [Bytes.read_of_le m hlast, Option.bind_eq_bind, Option.bind_some, hd, ← List.cons_append]
      by_cases hblank : isBlank d = true
      · rw [if_pos hblank, List.rdropWhile_concat_pos _ _ _ hblank]
        exact ih hfront (by omega)
      · rw [if_neg hblank, List.rdropWhile_concat_neg _ _ _ hblank]
        simp

/-- What is left of a text that begins with no blank. -/
theorem rdropWhile_length_pos {c : Char} (hc : isBlank c = false) (rest : CStr) :
    0 < ((c :: rest).rdropWhile isBlank).length := by
  rw [List.length_pos_iff, ne_eq, List.rdropWhile_eq_nil_iff]
  intro hall
  rw [hall c (by simp)] at hc
  exact absurd hc (by decide)

/-- The end of a text that begins with no blank, cut in place: a terminator behind the last byte
that is not one, and nothing changed from the old terminator on. -/
theorem trimBack_store {p : Nat} {c : Char} {rest : CStr} (hc : isBlank c = false)
    (hs : CStringAt m p (c :: rest)) (hlast : p + (c :: rest).length ≤ last) :
    ∃ k, trimBack last m p rest.length = some k ∧
      CStringAt (store m (p + k + 1) '\x00') p ((c :: rest).rdropWhile isBlank) ∧
      ((c :: rest).rdropWhile isBlank).length = k + 1 ∧ k ≤ rest.length ∧
      ∀ q, p + (c :: rest).length ≤ q → store m (p + k + 1) '\x00' q = m q := by
  have hpos := rdropWhile_length_pos hc rest
  have hback := @trimBack_eq last _ _ _ hc rest hs.bytes (by
    rw [List.length_cons] at hlast
    omega)
  obtain ⟨tail, htail⟩ := List.rdropWhile_prefix isBlank (c :: rest)
  have hcut : CStringAt m p ((c :: rest).rdropWhile isBlank ++ tail) := by
    rwa [htail]
  have htotal : ((c :: rest).rdropWhile isBlank).length + tail.length = (c :: rest).length := by
    rw [← List.length_append, htail]
  have hplace : p + (((c :: rest).rdropWhile isBlank).length - 1) + 1 =
      p + ((c :: rest).rdropWhile isBlank).length := by omega
  rw [List.length_cons] at htotal
  refine ⟨_, hback, by rw [hplace]; exact hcut.cut, by omega, by omega, fun q hq => ?_⟩
  rw [hplace]
  by_cases hend : q = p + ((c :: rest).rdropWhile isBlank).length
  · -- behind the last byte of the text there is its terminator already
    have hq' : q = p + (c :: rest).length := by
      rw [List.length_cons] at hq ⊢
      omega
    rw [hend, Bytes.store_self, ← hend, hq', hs.terminated]
  · exact Bytes.store_ne m _ hend

/-- **A field trimmed in place**: the pointer that is returned has its trimmed text, and only
places within the field have changed. -/
theorem trimWhitespace_spec {p : Nat} {f : CStr} (hf : CStringAt m p f)
    (hlast : p + f.length ≤ last) :
    ∃ m' t, trimWhitespace last m p = some (m', t) ∧ CStringAt m' t (trimmed f) ∧ p ≤ t ∧
      t + (trimmed f).length ≤ p + f.length ∧ ∀ q, q < p ∨ p + f.length ≤ q → m' q = m q := by
  have hsplit : f = f.takeWhile isBlank ++ f.dropWhile isBlank :=
    List.takeWhile_append_dropWhile.symm
  have hfind : find last (fun c => !isBlank c) m p = some (p + (f.takeWhile isBlank).length) := by
    rw [Bytes.find_eq rfl hf hlast]
    simp only [Bool.not_not]
  have hlength : f.length = (f.takeWhile isBlank).length + (f.dropWhile isBlank).length := by
    rw [← List.length_append, ← hsplit]
  have hrest : CStringAt m (p + (f.takeWhile isBlank).length) (f.dropWhile isBlank) :=
    CStringAt.drop (hsplit ▸ hf)
  unfold trimWhitespace trimmed
  generalize (f.takeWhile isBlank).length = lead at *
  rw [hfind, Option.bind_eq_bind, Option.bind_some, Bytes.read_of_le m (by omega),
    Option.bind_eq_bind, Option.bind_some]
  cases hg : f.dropWhile isBlank with
  | nil =>
      rw [hg] at hrest hlength
      rw [if_pos (Bytes.cstringAt_nil.mp hrest)]
      exact ⟨m, p + lead, rfl, hrest, by omega, by simp; omega, fun _ _ => rfl⟩
  | cons c rest =>
      have hblank : isBlank c = false := by
        have := List.head_dropWhile_not isBlank (l := f) (by simp [hg])
        simpa [hg] using this
      rw [hg] at hrest hlength
      obtain ⟨hbyte, hne, -⟩ := Bytes.cstringAt_cons.mp hrest
      obtain ⟨k, hback, hcut, hcount, hk, hsame⟩ :=
        @trimBack_store last _ _ _ _ hblank hrest (by omega)
      rw [hbyte, if_neg hne, Bytes.strlen_eq hrest (by omega), Option.bind_some,
        List.length_cons, Nat.add_sub_cancel, hback, Option.bind_some]
      rw [List.length_cons] at hlength
      refine ⟨_, _, rfl, hcut, by omega, by omega, fun q hq => ?_⟩
      rcases hq with hq | hq
      · exact Bytes.store_ne m _ (by omega)
      · exact hsame q (by rw [List.length_cons]; omega)

end Trim

/-! ### The loop -/

section Split

variable {last : Nat} {delimiter : Char}

/-- From any turn on: the tokens to come are the fields of the rest of the string, and what
lies in front of it does not change. -/
theorem splitLoop_spec (hdelim : delimiter ≠ '\x00') :
    ∀ (left : Nat) (m : Memory) (p : Nat) (s : CStr) (tokens : List Nat),
      CStringAt m p s → p + s.length = last →
        ∃ m' new, splitLoop last delimiter left m (some p) tokens = some (m', tokens ++ new) ∧
          List.Forall₂ (CStringAt m') new (((s.splitOn delimiter).take left).map trimmed) ∧
          ∀ q, q < p ∨ last < q → m' q = m q := by
  intro left
  induction left with
  | zero =>
      intro m p s tokens hs hlast
      exact ⟨m, [], by simp [splitLoop], by simp, fun _ _ => rfl⟩
  | succ left ih =>
      intro m p s tokens hs hlast
      unfold splitLoop
      cases hcut : strchr s delimiter with
      | none =>
          -- the last field: the loop ends on the null pointer
          have hmem := strchr_eq_none.mp hcut
          obtain ⟨m', t, htrim, ht, -, -, hsame⟩ := trimWhitespace_spec hs hlast.le
          rw [Bytes.strchr_absent hdelim hs hmem hlast.le, List.splitOn_eq_singleton hmem]
          refine ⟨m', [t], ?_, ?_, ?_⟩
          · simp only [Option.bind_eq_bind, Option.bind_some, htrim]
            cases left <;> rfl
          · simp [ht]
          · intro q hq
            exact hsame q (by omega)
      | some parts =>
          obtain ⟨f, rest⟩ := parts
          obtain ⟨rfl, hmem⟩ := strchr_eq_some hcut
          rw [List.length_append, List.length_cons] at hlast
          have hnul : CStringAt (store m (p + f.length) '\x00') p f := hs.cut
          obtain ⟨m₂, t, htrim, ht, hp, hend, hsame⟩ :=
            @trimWhitespace_spec last _ _ _ hnul (by omega)
          have hrest : CStringAt m₂ (p + f.length + 1) rest := by
            refine (Bytes.cstringAt_cons.mp hs.drop).2.2.congr fun q hq _ => ?_
            rw [hsame q (by omega), Bytes.store_ne _ _ (by omega)]
          obtain ⟨m', new, hrun, hnew, hkept⟩ := ih m₂ (p + f.length + 1) rest (tokens ++ [t]) hrest
            (by omega)
          rw [Bytes.strchr_found hs hmem (by simp; omega), List.splitOn_append_cons_self,
            List.splitOn_eq_singleton hmem]
          refine ⟨m', t :: new, ?_, ?_, ?_⟩
          · simp only [Option.bind_eq_bind, Option.bind_some, htrim]
            rw [hrun, List.append_assoc]
            rfl
          · refine List.Forall₂.cons (ht.congr fun q _ hq => hkept q (by omega)) hnew
          · intro q hq
            rw [hkept q (by omega), hsame q (by omega), Bytes.store_ne _ _ (by omega)]

/-- **The splitter**: on any string in memory it returns, having read nothing behind the
terminator; it finds as many tokens as there are fields or as may be stored, each token is
its field without the blanks at its ends once the call is over, and nothing outside the
string and its terminator has changed. -/
theorem splitString_spec {m : Memory} {str : Nat} {s : CStr} (hs : CStringAt m str s)
    (hdelim : delimiter ≠ '\x00') (maxTokens : Int) :
    ∃ m' tokens, splitString (str + s.length) m str delimiter maxTokens = some (m', tokens) ∧
      tokens.length = min maxTokens.toNat (s.splitOn delimiter).length ∧
      List.Forall₂ (CStringAt m') tokens
        (((s.splitOn delimiter).take maxTokens.toNat).map trimmed) ∧
      ∀ q, q < str ∨ str + s.length < q → m' q = m q := by
  obtain ⟨m', tokens, hrun, htokens, hsame⟩ :=
    splitLoop_spec hdelim maxTokens.toNat m str s [] hs rfl
  rw [List.nil_append] at hrun
  refine ⟨m', tokens, hrun, ?_, htokens, hsame⟩
  rw [htokens.length_eq, List.length_map, List.length_take]

end Split

/-- A memory with one string in it. -/
def sampleMemory : Memory := fun p => " a,\t, b ".toList[p]?.getD '\x00'

theorem cstringAt_sample : CStringAt sampleMemory 0 " a,\t, b ".toList :=
  ⟨by decide, by decide, by decide⟩

/-- Three fields, one of them blank, with room for two tokens and for four. -/
theorem splitString_sample :
    (∃ m tokens, splitString 8 sampleMemory 0 ',' 2 = some (m, tokens) ∧ tokens.length = 2 ∧
      List.Forall₂ (CStringAt m) tokens ["a".toList, []]) ∧
    ∃ m tokens, splitString 8 sampleMemory 0 ',' 4 = some (m, tokens) ∧ tokens.length = 3 ∧
      List.Forall₂ (CStringAt m) tokens ["a".toList, [], "b".toList] := by
  obtain ⟨m, tokens, hrun, hlength, htokens, -⟩ :=
    @splitString_spec ',' _ _ _ cstringAt_sample (by decide) 2
  obtain ⟨m', tokens', hrun', hlength', htokens', -⟩ :=
    @splitString_spec ',' _ _ _ cstringAt_sample (by decide) 4
  exact ⟨⟨m, tokens, hrun, hlength, htokens⟩, m', tokens', hrun', hlength', htokens'⟩

end Cruntime
