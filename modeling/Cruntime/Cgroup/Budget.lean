/-
How much a container may use, memory and swap together.

`resource_limits_t` keeps the combined limit in `memory_swap`, as cgroup v1 counted it.
The two files of cgroup v2 count apart: `memory.max` bounds memory alone, and
`memory.swap.max` bounds swap alone.  `cgroup_apply_limits` writes the combined limit
to the second as it is, so that what the two files allow together is the combined limit
and the memory limit on top of it, for every record that sets both.
-/
import Cruntime.Cgroup.Limits

namespace Cruntime

open Script (run)

section Run

variable {r : CgroupRoot} (fails : CgroupCmd → Bool)

/-- Every write the limits ask for goes through: its file is there, and nothing refuses it. -/
def AllWritten (t : Cgroups r) (id : DirName) (l : ResourceLimits) : Prop :=
  ∀ f v, l.value f = some v → t.content id f ≠ none ∧ fails (.write id f v) = false

/-- The two files allow what the record says, the limit on memory and the combined limit. -/
def WithinBudget (l : ResourceLimits) (t : Cgroups r) (id : DirName) : Prop :=
  ∃ memory swap : Int, t.content id .memoryMax = some (decimalInt memory) ∧
    t.content id .memorySwapMax = some (decimalInt swap) ∧
    memory = l.memoryLimit.toInt ∧ memory + swap = l.memorySwap.toInt

/-- A write that goes through leaves its value. -/
theorem content_of_allWritten {t : Cgroups r} {id : DirName} {l : ResourceLimits}
    (hall : AllWritten fails t id l) {f : ControlFile} {v : CStr} (hv : l.value f = some v) :
    (run (CgroupCmd.effect fails) (cgroupApplyLimits id l) (.calm t)).2.state.content id f
      = some v := by
  obtain ⟨hthere, hgoes⟩ := hall f v hv
  rw [content_applyLimits, hv]
  unfold settled
  simp [hthere, hgoes]

/-- What the two files hold: each its own field, as it is. -/
theorem memory_files {t : Cgroups r} {id : DirName} {l : ResourceLimits}
    (hlimit : 0 < l.memoryLimit.toInt) (hswap : 0 < l.memorySwap.toInt)
    (hall : AllWritten fails t id l) :
    let t' := (run (CgroupCmd.effect fails) (cgroupApplyLimits id l) (.calm t)).2.state
    t'.content id .memoryMax = some (decimalInt l.memoryLimit.toInt) ∧
      t'.content id .memorySwapMax = some (decimalInt l.memorySwap.toInt) := by
  have hmax : l.value .memoryMax = some (formatLong l.memoryLimit) :=
    if_pos (pos_iff.mpr hlimit)
  have hswapMax : l.value .memorySwapMax = some (formatLong l.memorySwap) :=
    if_pos (pos_iff.mpr hswap)
  exact ⟨content_of_allWritten fails hall hmax, content_of_allWritten fails hall hswapMax⟩

/-- Files that hold both fields as they are allow too much, by the limit on memory. -/
theorem not_withinBudget {l : ResourceLimits} {t : Cgroups r} {id : DirName}
    (hlimit : 0 < l.memoryLimit.toInt)
    (hmax : t.content id .memoryMax = some (decimalInt l.memoryLimit.toInt))
    (hswapMax : t.content id .memorySwapMax = some (decimalInt l.memorySwap.toInt)) :
    ¬WithinBudget l t id := by
  rintro ⟨memory, swap, hmemory, hswap, hfirst, hsum⟩
  have hm := decimalInt_injective (Option.some.inj (hmax.symm.trans hmemory))
  have hs := decimalInt_injective (Option.some.inj (hswapMax.symm.trans hswap))
  omega

/-- **The files never allow what the record says**: with both limits set and all writes done,
what they allow together is more than the combined limit. -/
theorem budget_exceeded (t : Cgroups r) (id : DirName) (l : ResourceLimits)
    (hlimit : 0 < l.memoryLimit.toInt) (hle : l.memoryLimit.toInt ≤ l.memorySwap.toInt)
    (hall : AllWritten fails t id l) :
    ¬WithinBudget l
      (run (CgroupCmd.effect fails) (cgroupApplyLimits id l) (.calm t)).2.state id := by
  obtain ⟨hmax, hswapMax⟩ := memory_files fails hlimit (by omega) hall
  exact not_withinBudget hlimit hmax hswapMax

end Run

/-- A root that passes on what is wanted, of a kernel that has every file. -/
def rootWithAll : CgroupRoot := ⟨wantedControllers, fun _ => true⟩

/-- A container's directory with every file in it, as the kernel makes it. -/
def sampleTree : Cgroups rootWithAll :=
  some {
    enabled := wantedControllers
    enabled_root := Finset.Subset.refl _
    groups := fun _ => some fun f => some f.default
    file_enabled := fun _ _ f _ _ => controller_mem_wanted f }

/-- 64 MiB of memory, 128 MiB of memory and swap. -/
def memoryAndSwap : ResourceLimits := ⟨67108864, 134217728, 0, 0, 0, 0, 0⟩

theorem allWritten_sample :
    AllWritten (fun _ => false) sampleTree sampleDir memoryAndSwap :=
  fun _ _ _ => ⟨by simp [sampleTree, Cgroups.content, Cgroups.group], rfl⟩

/-- A container meant to use 128 MiB in all may use 64 MiB of memory and 128 MiB of swap. -/
theorem budget_exceeded_sample :
    ¬WithinBudget memoryAndSwap (run (CgroupCmd.effect fun _ => false)
      (cgroupApplyLimits sampleDir memoryAndSwap) (.calm sampleTree)).2.state sampleDir :=
  budget_exceeded _ sampleTree sampleDir memoryAndSwap (by decide) (by decide) allWritten_sample

/-- So the files do not keep within the budget of every record. -/
theorem combined_limit_written_as_swap :
    ¬∀ (l : ResourceLimits), 0 < l.memoryLimit.toInt →
      l.memoryLimit.toInt ≤ l.memorySwap.toInt →
      AllWritten (fun _ => false) sampleTree sampleDir l →
      WithinBudget l (run (CgroupCmd.effect fun _ => false)
        (cgroupApplyLimits sampleDir l) (.calm sampleTree)).2.state sampleDir := by
  intro hall
  obtain ⟨hmax, hswapMax⟩ := @memory_files rootWithAll (fun _ => false) sampleTree sampleDir
    memoryAndSwap (by decide) (by decide) allWritten_sample
  exact not_withinBudget (by decide) hmax hswapMax
    (hall memoryAndSwap (by decide) (by decide) allWritten_sample)

end Cruntime
