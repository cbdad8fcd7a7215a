/-
A report put together in a buffer of fixed size, one `snprintf` after the other.

Each call is told where the report ends so far and how much room is left.  What `snprintf`
returns is the length of the text, not of what it wrote, and the room is a difference of
unsigned numbers.  So the offset is right as long as nothing was cut, and once the text of
the calls so far fills the buffer, the next call starts at its end or behind it, and behind
it the difference wraps round to nearly all of memory.

Memory is a function here, and its first `bufferSize` places are the buffer: what is written
behind them is written all the same.
-/
import Cruntime.Lib.CText

namespace Cruntime

namespace Report

/-- Memory from the start of the buffer on. -/
abbrev Memory := Nat → Char

/-- `snprintf(buf + start, size, ..)`: the text as far as it fits and a terminator, or nothing
when the size is zero. -/
def write (memory : Memory) (start size : Nat) (text : CStr) : Memory := fun place =>
  if size = 0 ∨ place < start then memory place
  else ((snprintf size text ++ ['\x00'])[place - start]?).getD (memory place)

/-- A call of `snprintf`: its offset, and the size it is told. -/
structure Call where
  start : Nat
  size : UInt64
deriving DecidableEq

/-- How far a report has got. -/
structure Progress where
  memory : Memory
  offset : Nat
  calls : List Call

/-- `offset += snprintf(buf + offset, buffer_size - offset, ..)`. -/
def Progress.append (bufferSize : UInt64) (st : Progress) (text : CStr) : Progress where
  memory := write st.memory st.offset (bufferSize - UInt64.ofNat st.offset).toNat text
  offset := st.offset + text.length
  calls := st.calls ++ [⟨st.offset, bufferSize - UInt64.ofNat st.offset⟩]

/-- A report that is still to be written. -/
def Progress.fresh (memory : Memory) : Progress := ⟨memory, 0, []⟩

/-- The pieces of a report, one call for each. -/
def appendAll (bufferSize : UInt64) (pieces : List CStr) (st : Progress) : Progress :=
  pieces.foldl (Progress.append bufferSize) st

/-! ### What is asked of a report -/

/-- A call that starts in the buffer and is told no more than is left of it. -/
def Call.InBounds (bufferSize : UInt64) (c : Call) : Prop :=
  c.start < bufferSize.toNat ∧ c.size.toNat ≤ bufferSize.toNat - c.start

/-- Memory starts with these bytes. -/
def Starts (memory : Memory) (s : CStr) : Prop := ∀ i, ∀ h : i < s.length, memory i = s[i]

/-- The calls stay in the buffer, and at the end it holds what fits of the text, terminated. -/
structure Bounded (bufferSize : UInt64) (text : CStr) (st : Progress) : Prop where
  calls : ∀ c ∈ st.calls, c.InBounds bufferSize
  holds : Starts st.memory (snprintf bufferSize.toNat text ++ ['\x00'])

/-! ### The calls -/

/-- A call that starts in the buffer is told what is left. -/
theorem size_toNat {bufferSize : UInt64} {start : Nat} (h : start < bufferSize.toNat) :
    (bufferSize - UInt64.ofNat start).toNat = bufferSize.toNat - start := by
  have hlt : start < 2 ^ 64 := h.trans bufferSize.toNat_lt
  have hstart : (UInt64.ofNat start).toNat = start := UInt64.toNat_ofNat_of_lt' hlt
  rw [UInt64.toNat_sub_of_le _ _ (UInt64.le_iff_toNat_le.mpr (by omega)), hstart]

theorem inBounds_iff {bufferSize : UInt64} {start : Nat} :
    (Call.mk start (bufferSize - UInt64.ofNat start)).InBounds bufferSize ↔
      start < bufferSize.toNat := by
  constructor
  · intro h
    exact h.1
  · intro h
    exact ⟨h, (size_toNat h).le⟩

/-- The calls stay in the buffer exactly when the last of them starts in it. -/
theorem calls_appendAll_iff (bufferSize : UInt64) (pieces : List CStr) :
    ∀ st : Progress, (∀ c ∈ (appendAll bufferSize pieces st).calls, c.InBounds bufferSize) ↔
      (∀ c ∈ st.calls, c.InBounds bufferSize) ∧
        (pieces = [] ∨ st.offset + pieces.dropLast.flatten.length < bufferSize.toNat) := by
  induction pieces with
  | nil => intro st; simp [appendAll]
  | cons p rest ih =>
      intro st
      have hone : (∀ c ∈ (st.append bufferSize p).calls, c.InBounds bufferSize) ↔
          (∀ c ∈ st.calls, c.InBounds bufferSize) ∧ st.offset < bufferSize.toNat := by
        unfold Progress.append
        simp only [List.mem_append, List.mem_singleton, or_imp, forall_and, forall_eq,
          inBounds_iff]
      have hoffset : (st.append bufferSize p).offset = st.offset + p.length := rfl
      show (∀ c ∈ (appendAll bufferSize rest (st.append bufferSize p)).calls, _) ↔ _
      rw [ih, hone, hoffset]
      cases rest with
      | nil => simp
      | cons q more =>
          rw [List.dropLast_cons_cons, List.flatten_cons, List.length_append]
          simp only [reduceCtorEq, false_or]
          constructor
          · intro h
            exact ⟨h.1.1, by omega⟩
          · intro h
            exact ⟨⟨h.1, by omega⟩, by omega⟩

/-! ### The bytes -/

/-- One call, behind what is there: the text so far and the new piece, as far as they fit. -/
theorem starts_append {bufferSize : UInt64} {st : Progress} {done : CStr}
    (hoffset : st.offset = done.length) (hin : done.length < bufferSize.toNat)
    (hdone : Starts st.memory done) (p : CStr) :
    Starts (st.append bufferSize p).memory
      (snprintf bufferSize.toNat (done ++ p) ++ ['\x00']) := by
  intro i hi
  have hsize : (bufferSize - UInt64.ofNat st.offset).toNat = bufferSize.toNat - done.length := by
    rw [hoffset]
    exact size_toNat hin
  have htext : snprintf bufferSize.toNat (done ++ p) =
      done ++ snprintf (bufferSize.toNat - done.length) p := by
    unfold snprintf
    rw [List.take_append, List.take_of_length_le (by omega)]
    congr 2
    omega
  simp only [htext, List.append_assoc] at hi ⊢
  show write st.memory st.offset (bufferSize - UInt64.ofNat st.offset).toNat p i = _
  unfold write
  rw [hsize, hoffset]
  by_cases hbefore : i < done.length
  · rw [if_pos (Or.inr hbefore), List.getElem_append_left hbefore]
    exact hdone i hbefore
  · rw [if_neg (by omega), List.getElem_append_right (by omega)]
    rw [List.length_append] at hi
    rw [List.getElem?_eq_getElem (by omega), Option.getD_some]

/-- **The buffer after the calls**, of which there is one and each but the last stays short of
the end. -/
theorem starts_appendAll (bufferSize : UInt64) (pieces : List CStr) :
    ∀ {st : Progress} {done : CStr}, pieces ≠ [] → st.offset = done.length →
      Starts st.memory done →
      done.length + pieces.dropLast.flatten.length < bufferSize.toNat →
      Starts (appendAll bufferSize pieces st).memory
        (snprintf bufferSize.toNat (done ++ pieces.flatten) ++ ['\x00']) := by
  induction pieces with
  | nil => intro st done hne; exact absurd rfl hne
  | cons p rest ih =>
      intro st done _ hoffset hdone hin
      have hstep := @starts_append bufferSize st done hoffset (by omega) hdone p
      cases rest with
      | nil => simpa [appendAll] using hstep
      | cons q more =>
          rw [List.dropLast_cons_cons, List.flatten_cons, List.length_append] at hin
          have hfit : snprintf bufferSize.toNat (done ++ p) = done ++ p :=
            snprintf_eq_self (by rw [List.length_append]; omega)
          rw [hfit] at hstep
          have hnext : Starts (st.append bufferSize p).memory (done ++ p) := by
            intro i hi
            rw [hstep i (by rw [List.length_append]; omega), List.getElem_append_left hi]
          have hrest := ih (by simp) (by
            show st.offset + p.length = (done ++ p).length
            rw [List.length_append, hoffset]) hnext (by rw [List.length_append]; omega)
          rw [List.flatten_cons, ← List.append_assoc]
          exact hrest

theorem starts_nil_iff {memory : Memory} : Starts memory ['\x00'] ↔ memory 0 = '\x00' := by
  constructor
  · intro h
    exact h 0 (by simp)
  · intro h i hi
    obtain rfl : i = 0 := by simpa using hi
    exact h

/-- **A report stays in its buffer exactly when all of it but the last piece is shorter than the
buffer**, and the buffer is terminated already when there is no piece. -/
theorem bounded_iff {bufferSize : UInt64} (hsize : 1 ≤ bufferSize.toNat) (pieces : List CStr)
    (memory : Memory) :
    Bounded bufferSize pieces.flatten (appendAll bufferSize pieces (.fresh memory)) ↔
      (pieces = [] → memory 0 = '\x00') ∧
        pieces.dropLast.flatten.length < bufferSize.toNat := by
  have hcalls := calls_appendAll_iff bufferSize pieces (.fresh memory)
  cases pieces with
  | nil =>
      constructor
      · intro h
        refine ⟨fun _ => ?_, hsize⟩
        have hnil := h.holds
        rw [List.flatten_nil, snprintf_eq_self (by exact hsize), List.nil_append,
          starts_nil_iff] at hnil
        exact hnil
      · intro h
        refine ⟨hcalls.mpr ⟨by simp [Progress.fresh], Or.inl rfl⟩, ?_⟩
        rw [List.flatten_nil, snprintf_eq_self (by exact hsize), List.nil_append, starts_nil_iff]
        exact h.1 rfl
  | cons p rest =>
      have hzero : (Progress.fresh memory).offset = 0 := rfl
      rw [hzero] at hcalls
      constructor
      · intro h
        have hlast := (hcalls.mp h.calls).2.resolve_left (by simp)
        exact ⟨fun hnil => by simp at hnil, by omega⟩
      · intro h
        refine ⟨hcalls.mpr ⟨by simp [Progress.fresh], Or.inr (by omega)⟩, ?_⟩
        have hstarts := @starts_appendAll bufferSize (p :: rest) (.fresh memory) [] (by simp) rfl
          (fun i hi => by simp at hi) (by simpa using h.2)
        simpa using hstarts

end Report

end Cruntime
