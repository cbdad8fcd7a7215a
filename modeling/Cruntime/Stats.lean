/-
The reports of `cgroup_get_stats` and `storage_get_stats`.

Both build their text in the caller's buffer and add what `snprintf` returns to an offset,
so that `Lib/Report.lean` says when they stay in it.  What is left to say is which pieces
they write: a line for each control file that can be read, and two lines about the layers.

`cgroup_read_file` reads at most 255 bytes into a buffer that is then printed as a C string.
The size of the layers is printed in MB with two decimals, from a `double`.
-/
import Cruntime.Files
import Cruntime.Lib.Report
import Cruntime.Lib.Rounding
import Cruntime.Storage.Mount

namespace Cruntime

open Report (Memory Progress Bounded appendAll)

/-! ### The control files -/

/-- `cgroup_read_file` into a buffer of 256 bytes; `none` is `CR_ESYSCALL`. -/
def cgroupReadFile (files : Files) (path : CStr) : Option CStr :=
  (files path).map fun bytes => cString (bytes.take (256 - 1) ++ ['\x00'])

/-- The line of one control file, when it can be read. -/
def statLine (files : Files) (cgroupPath name : CStr) (format : CStr → CStr) : Option CStr :=
  (cgroupReadFile files (snprintf maxPathLen (cgroupPath ++ '/' :: name))).map format

/-- A line that is appended when there is one. -/
def appendLine (bufferSize : UInt64) (line : Option CStr) (st : Progress) : Progress :=
  match line with
  | some text => st.append bufferSize text
  | none => st

/-- `cgroup_get_stats`: its code, and the buffer and the calls. -/
def cgroupGetStats (files : Files) (cgroupPath : CStr) (bufferSize : UInt64) (buffer : Memory) :
    CrCode × Progress :=
  let st := .fresh buffer
  -- Memory usage
  let st := appendLine bufferSize (statLine files cgroupPath "memory.current".toList fun value =>
    "Memory: ".toList ++ value ++ " bytes\n".toList) st
  -- Memory limit
  let st := appendLine bufferSize (statLine files cgroupPath "memory.max".toList fun value =>
    "Memory Limit: ".toList ++ value ++ "\n".toList) st
  -- CPU usage
  let st := appendLine bufferSize (statLine files cgroupPath "cpu.stat".toList fun value =>
    "CPU Stats: ".toList ++ value) st
  -- PID count
  let st := appendLine bufferSize (statLine files cgroupPath "pids.current".toList fun value =>
    "PIDs: ".toList ++ value ++ "\n".toList) st
  (.ok, st)

/-- The lines of the files that can be read. -/
def cgroupLines (files : Files) (cgroupPath : CStr) : List CStr :=
  [statLine files cgroupPath "memory.current".toList fun value =>
      "Memory: ".toList ++ value ++ " bytes\n".toList,
    statLine files cgroupPath "memory.max".toList fun value =>
      "Memory Limit: ".toList ++ value ++ "\n".toList,
    statLine files cgroupPath "cpu.stat".toList fun value => "CPU Stats: ".toList ++ value,
    statLine files cgroupPath "pids.current".toList fun value =>
      "PIDs: ".toList ++ value ++ "\n".toList].reduceOption

theorem appendLine_eq (bufferSize : UInt64) (line : Option CStr) (st : Progress) :
    appendLine bufferSize line st = appendAll bufferSize line.toList st := by
  cases line <;> rfl

theorem appendAll_append (bufferSize : UInt64) (pieces pieces' : List CStr) (st : Progress) :
    appendAll bufferSize (pieces ++ pieces') st =
      appendAll bufferSize pieces' (appendAll bufferSize pieces st) :=
  List.foldl_append

/-- The report is those lines, one call for each. -/
theorem cgroupGetStats_eq (files : Files) (cgroupPath : CStr) (bufferSize : UInt64)
    (buffer : Memory) : cgroupGetStats files cgroupPath bufferSize buffer =
      (.ok, appendAll bufferSize (cgroupLines files cgroupPath) (.fresh buffer)) := by
  have hcons : ∀ (line : Option CStr) (rest : List (Option CStr)) (st : Progress),
      appendAll bufferSize (line :: rest).reduceOption st =
        appendAll bufferSize rest.reduceOption (appendLine bufferSize line st) := by
    intro line rest st
    rw [appendLine_eq, ← appendAll_append]
    cases line <;> rfl
  unfold cgroupGetStats cgroupLines
  rw [hcons, hcons, hcons, hcons]
  rfl

/-! ### The layers -/

/-- `%.2f` of a number of bytes divided by `1024.0 * 1024.0`. -/
def formatMegabytes (total : UInt64) : CStr :=
  let hundredths := roundHalfEven (toDouble total.toNat * 100) (1024 * 1024)
  decimal (hundredths / 100) ++
    ['.', Nat.digitChar (hundredths / 10 % 10), Nat.digitChar (hundredths % 10)]

example : formatMegabytes 1572864 = "1.50".toList := by decide

/-- What `storage_get_stats` finds: the names in the directory of layers, if it can be opened, and
what `get_directory_size` says of a path. -/
structure LayerDir where
  names : Option (List CStr)
  directorySize : CStr → UInt64

/-- One turn of the loop over the directory: the number of layers and their size. -/
def countLayer (dir : LayerDir) (path : CStr) (count : Nat × UInt64) (name : CStr) : Nat × UInt64 :=
  if name.head? = some '.' then count
  else (count.1 + 1, count.2 + dir.directorySize (snprintf maxPathLen (path ++ '/' :: name)))

/-- The number of layers and their size. -/
def countLayers (dir : LayerDir) (imageDir : CStr) : Nat × UInt64 :=
  (dir.names.getD []).foldl (countLayer dir (snprintf maxPathLen (imageDir ++ "/layers".toList)))
    (0, 0)

/-- `Layers: %d`, of an `int`. -/
def layersLine (count : Nat) : CStr :=
  "Layers: ".toList ++ decimalInt ((count : Int).bmod (2 ^ 32)) ++ "\n".toList

def totalLine (total : UInt64) : CStr :=
  "Total Size: ".toList ++ formatMegabytes total ++ " MB\n".toList

/-- `storage_get_stats`. -/
def storageGetStats (dir : LayerDir) (imageDir : CStr) (bufferSize : UInt64) (buffer : Memory) :
    CrCode × Progress :=
  -- Count layers
  let (layerCount, totalSize) := countLayers dir imageDir
  let st := Progress.fresh buffer
  let st := st.append bufferSize (layersLine layerCount)
  let st := st.append bufferSize (totalLine totalSize)
  (.ok, st)

/-- The two lines. -/
def storageLines (dir : LayerDir) (imageDir : CStr) : List CStr :=
  [layersLine (countLayers dir imageDir).1, totalLine (countLayers dir imageDir).2]

/-! ### When they stay in their buffer -/

/-- **The reports stay in their buffers exactly when all lines but the last are shorter than the
buffer**; a report without a line needs a buffer that is terminated already. -/
theorem stats_bounded_iff (files : Files) (cgroupPath : CStr) (dir : LayerDir) (imageDir : CStr)
    (bufferSize : UInt64) (buffer : Memory) (hsize : 1 ≤ bufferSize.toNat) :
    (Bounded bufferSize (cgroupLines files cgroupPath).flatten
        (cgroupGetStats files cgroupPath bufferSize buffer).2 ↔
      (cgroupLines files cgroupPath = [] → buffer 0 = '\x00') ∧
        (cgroupLines files cgroupPath).dropLast.flatten.length < bufferSize.toNat) ∧
    (Bounded bufferSize (storageLines dir imageDir).flatten
        (storageGetStats dir imageDir bufferSize buffer).2 ↔
      (layersLine (countLayers dir imageDir).1).length < bufferSize.toNat) := by
  constructor
  · rw [cgroupGetStats_eq]
    exact Report.bounded_iff hsize _ _
  · have hlines : (storageLines dir imageDir).dropLast.flatten =
        layersLine (countLayers dir imageDir).1 := List.append_nil _
    have hiff := Report.bounded_iff hsize (storageLines dir imageDir) buffer
    rw [hlines] at hiff
    refine Iff.trans hiff ⟨fun h => h.2, fun h => ⟨fun hnil => ?_, h⟩⟩
    simp [storageLines] at hnil

/-- A buffer of 64 bytes, one control file and no layer. -/
def oneStat : Files := fun path =>
  if path = "/c/pids.current".toList then some "3\n".toList else none

theorem stats_bounded_sample :
    Bounded 64 (cgroupLines oneStat "/c".toList).flatten
        (cgroupGetStats oneStat "/c".toList 64 fun _ => 'x').2 ∧
      Bounded 64 (storageLines ⟨none, fun _ => 0⟩ "/i".toList).flatten
        (storageGetStats ⟨none, fun _ => 0⟩ "/i".toList 64 fun _ => 'x').2 := by
  obtain ⟨hcgroup, hstorage⟩ := stats_bounded_iff oneStat "/c".toList ⟨none, fun _ => 0⟩
    "/i".toList 64 (fun _ => 'x') (by decide)
  exact ⟨hcgroup.mpr (by decide), hstorage.mpr (by decide)⟩

/-- Two layers and a buffer of eight bytes: the second call starts behind the buffer and is told
that nearly all of memory is left. -/
theorem second_line_behind_buffer :
    ¬∀ (dir : LayerDir) (imageDir : CStr) (bufferSize : UInt64) (buffer : Memory),
      1 ≤ bufferSize.toNat → Bounded bufferSize (storageLines dir imageDir).flatten
        (storageGetStats dir imageDir bufferSize buffer).2 := by
  intro hall
  have hbounded := hall ⟨some ["a".toList, "b".toList], fun _ => 4096⟩ "/i".toList 8
    (fun _ => '\x00') (by decide)
  have hlast := hbounded.calls ⟨10, 8 - UInt64.ofNat 10⟩ (List.mem_of_mem_getLast? (by decide))
  exact absurd hlast.1 (by decide)

end Cruntime
