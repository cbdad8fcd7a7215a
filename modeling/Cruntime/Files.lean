/-
Writing a file and reading it back.

`write_file` opens the file for writing, which empties it, hands the content to a buffered
stream and closes that.  Two of the three calls can lose something, `fputs` when the stream
takes only a part and `fclose` when the last of it does not reach the file, and both results
are dropped.  So the code says only whether the file could be opened: an error means that
the file is as it was, and `CR_OK` that it holds some first part of the content.
-/
import Cruntime.Net.Network

namespace Cruntime

/-! ### The calls of the C library -/

/-- The regular files and their bytes. -/
abbrev Files := CStr → Option CStr

/-- What can go wrong while a file is written: it cannot be opened, `fputs` ends after `taken`
bytes, and `fclose` ends when `flushed` bytes in all have reached the file. -/
structure WriteFaults where
  openFails : Bool
  taken : Nat
  flushed : Nat

/-- `fopen(path, "w")`: the file is there and empty. -/
def fopenWrite (faults : WriteFaults) (path : CStr) (files : Files) : Option Files :=
  if faults.openFails then none else some (Function.update files path (some []))

/-- `fputs`: whether the stream takes the whole text, and what it takes. -/
def fputs (faults : WriteFaults) (content : CStr) : Bool × CStr :=
  (decide (content.length ≤ faults.taken), content.take faults.taken)

/-- `fclose`: whether all that the stream took reaches the file, and the files after it. -/
def fclose (faults : WriteFaults) (stream path : CStr) (files : Files) : Bool × Files :=
  (decide (stream.length ≤ faults.flushed),
    Function.update files path (some (stream.take faults.flushed)))

/-! ### The functions -/

/-- `write_file`. -/
def writeFile (faults : WriteFaults) (path content : CStr) (files : Files) : CrCode × Files :=
  match fopenWrite faults path files with
  | none => (.esyscall, files)
  | some files =>
      let (_, stream) := fputs faults content
      let (_, files) := fclose faults stream path files
      (.ok, files)

/-- `read_file`: the buffer it returns, the bytes of the file and a terminator. -/
def readFile (path : CStr) (files : Files) : Option CStr :=
  (files path).map fun bytes =>
    let size := bytes.length
    bytes.take size ++ ['\x00']

/-! ### What a write leaves -/

theorem readFile_eq (path : CStr) (files : Files) :
    readFile path files = (files path).map fun bytes => bytes ++ ['\x00'] := by
  unfold readFile
  simp only [List.take_length]

/-- The bytes that reach the file. -/
def WriteFaults.reach (faults : WriteFaults) : Nat := min faults.flushed faults.taken

theorem writeFile_refused {faults : WriteFaults} (h : faults.openFails = true)
    (path content : CStr) (files : Files) :
    writeFile faults path content files = (.esyscall, files) := by
  unfold writeFile fopenWrite
  rw [if_pos h]

/-- A file that was opened holds a first part of the content, and no other file changes. -/
theorem writeFile_opened {faults : WriteFaults} (h : faults.openFails = false)
    (path content : CStr) (files : Files) :
    writeFile faults path content files =
      (.ok, Function.update files path (some (content.take faults.reach))) := by
  unfold writeFile fopenWrite
  rw [if_neg (by simp [h])]
  simp only [fputs, fclose, Function.update_idem, List.take_take]
  rfl

/-- The other files are left alone. -/
theorem writeFile_of_ne (faults : WriteFaults) {path path' : CStr} (hne : path' ≠ path)
    (content : CStr) (files : Files) :
    readFile path' (writeFile faults path content files).2 = readFile path' files := by
  rw [readFile_eq, readFile_eq]
  cases h : faults.openFails with
  | true => rw [writeFile_refused h]
  | false =>
      rw [writeFile_opened h]
      dsimp only
      rw [Function.update_of_ne hne]

/-! ### All or nothing -/

/-- `CR_OK` means that the new content is read back, and an error that the old one is. -/
structure AllOrNone (path content : CStr) (before : Files) (result : CrCode × Files) : Prop where
  new : result.1 = .ok → readFile path result.2 = some (content ++ ['\x00'])
  old : result.1 ≠ .ok → readFile path result.2 = readFile path before

/-- **A write is all or nothing exactly when the file cannot be opened, or the whole content is
taken by `fputs` and reaches the file.** -/
theorem writeFile_allOrNone_iff (faults : WriteFaults) (path content : CStr) (files : Files) :
    AllOrNone path content files (writeFile faults path content files) ↔
      faults.openFails = true ∨
        content.length ≤ faults.taken ∧ content.length ≤ faults.flushed := by
  cases h : faults.openFails with
  | true =>
      rw [writeFile_refused h]
      exact iff_of_true ⟨fun hok => by simp at hok, fun _ => rfl⟩ (Or.inl rfl)
  | false =>
      rw [writeFile_opened h]
      have hread : readFile path (Function.update files path (some (content.take faults.reach))) =
          some (content.take faults.reach ++ ['\x00']) := by
        rw [readFile_eq, Function.update_self]
        rfl
      have hall : content.length ≤ faults.reach ↔
          content.length ≤ faults.taken ∧ content.length ≤ faults.flushed := by
        unfold WriteFaults.reach
        omega
      rw [← hall]
      constructor
      · intro hatomic
        have hnew := hatomic.new rfl
        rw [hread] at hnew
        have hsame := List.append_cancel_right (Option.some.inj hnew)
        exact Or.inr ((List.take_eq_self_iff content).mp hsame)
      · intro hreach
        refine ⟨fun _ => ?_, fun hne => absurd rfl hne⟩
        rw [hread, List.take_of_length_le (hreach.resolve_left (by simp))]

/-- On a full disk the old content is gone, the new one is not there, and the code is `CR_OK`. -/
theorem full_disk_reported_saved :
    ¬∀ (faults : WriteFaults) (path content : CStr) (files : Files),
      AllOrNone path content files (writeFile faults path content files) := by
  intro hall
  have hatomic := hall ⟨false, 7, 0⟩ "/state".toList "running".toList fun _ =>
    some "created".toList
  exact absurd (hatomic.new (by decide)) (by decide)

end Cruntime
