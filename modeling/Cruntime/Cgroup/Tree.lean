/-
The cgroup v2 tree as far as the program touches it.

There is the root, whose `cgroup.subtree_control` nobody changes here, the directory
`cruntime` below it, and one directory in that for each container.  A control file
is in a container's directory only when its controller is enabled in `cruntime`, and
a controller can be enabled there only when the root passes it on: both are fields of
the structure, so a tree that breaks them cannot be written down.

Which files the kernel has at all is a parameter, because an enabled controller need
not come with all of them (no `memory.swap.max` without swap accounting).
-/
import Mathlib.Data.Finset.Insert
import Mathlib.Data.Finset.Lattice.Lemmas
import Cruntime.Lib.CText
import Cruntime.Lib.Script

namespace Cruntime

inductive Controller where
  | cpuset
  | cpu
  | io
  | memory
  | hugetlb
  | pids
  | rdma
  | misc
deriving DecidableEq

/-- The control files that `cgroup_apply_limits` writes. -/
inductive ControlFile where
  | memoryMax
  | memorySwapMax
  | cpuWeight
  | cpuMax
  | pidsMax
  | ioWeight
deriving DecidableEq

namespace ControlFile

def controller : ControlFile → Controller
  | memoryMax | memorySwapMax => .memory
  | cpuWeight | cpuMax => .cpu
  | pidsMax => .pids
  | ioWeight => .io

/-- What the kernel puts into a new file: no limit, and the weight everybody has. -/
def default : ControlFile → CStr
  | memoryMax | memorySwapMax | pidsMax => "max".toList
  | cpuWeight => "100".toList
  | cpuMax => "max 100000".toList
  | ioWeight => "default 100".toList

end ControlFile

/-- The name of one directory, which is what a container id is for `cruntime`. -/
structure DirName where
  text : CStr
  text_ne_nil : text ≠ []
  no_slash : '/' ∉ text
  no_dots : text ≠ ['.'] ∧ text ≠ ['.', '.']
deriving DecidableEq

/-- What does not change: the controllers in the root's `cgroup.subtree_control`, and
the control files this kernel has. -/
structure CgroupRoot where
  enabled : Finset Controller
  offers : ControlFile → Bool

/-- The files of one container's directory. -/
abbrev Group := ControlFile → Option CStr

/-- The directory `cruntime`: its `cgroup.subtree_control` and the containers in it. -/
structure CruntimeDir (r : CgroupRoot) where
  enabled : Finset Controller
  enabled_root : enabled ⊆ r.enabled
  groups : DirName → Option Group
  file_enabled : ∀ id g f, groups id = some g → g f ≠ none → f.controller ∈ enabled

/-- The tree below the root: `none` when there is no `cruntime` yet. -/
abbrev Cgroups (r : CgroupRoot) := Option (CruntimeDir r)

variable {r : CgroupRoot}

namespace CruntimeDir

/-- A new directory: no controller is enabled in it. -/
def empty : CruntimeDir r where
  enabled := ∅
  enabled_root := Finset.empty_subset _
  groups := fun _ => none
  file_enabled := by intro id g f hg; simp at hg

/-- The files of a new container's directory: those of the enabled controllers. -/
def freshGroup (d : CruntimeDir r) : Group := fun f =>
  if f.controller ∈ d.enabled ∧ r.offers f then some f.default else none

/-- `mkdir cruntime/<id>`; a directory that is there (`EEXIST`) stays as it is. -/
def mkdir (d : CruntimeDir r) (id : DirName) : CruntimeDir r where
  enabled := d.enabled
  enabled_root := d.enabled_root
  groups := Function.update d.groups id (some ((d.groups id).getD d.freshGroup))
  file_enabled := by
    intro id' g f hg hf
    by_cases hid : id' = id
    · subst hid
      rw [Function.update_self] at hg
      cases hold : d.groups id' with
      | some g' =>
          refine d.file_enabled id' g' f hold ?_
          rw [hold] at hg
          rwa [show g' = g by simpa using hg]
      | none =>
          rw [hold] at hg
          obtain rfl : d.freshGroup = g := by simpa using hg
          by_contra hnot
          exact hf (by simp [freshGroup, hnot])
    · rw [Function.update_of_ne hid] at hg
      exact d.file_enabled id' g f hg hf

/-- The files of a directory after more controllers are enabled above it: those of the
new ones appear. -/
def grown (d : CruntimeDir r) (cs : Finset Controller) (g : Group) : Group := fun f =>
  if f.controller ∈ d.enabled then g f
  else if f.controller ∈ cs ∧ r.offers f then some f.default else none

/-- A write of `+a +b ..` to `cgroup.subtree_control`, all or nothing. -/
def enable (d : CruntimeDir r) (cs : Finset Controller) : Option (CruntimeDir r) :=
  if h : cs ⊆ r.enabled then
    some
      { enabled := d.enabled ∪ cs
        enabled_root := Finset.union_subset d.enabled_root h
        groups := fun id => (d.groups id).map (d.grown cs)
        file_enabled := by
          intro id g f hg hf
          obtain ⟨g', -, rfl⟩ := Option.map_eq_some_iff.mp hg
          by_contra hnot
          rw [Finset.mem_union, not_or] at hnot
          exact hf (by simp [grown, hnot.1, hnot.2]) }
  else none

/-- A write to a control file, which fails when the file is not there. -/
def write (d : CruntimeDir r) (id : DirName) (f : ControlFile) (v : CStr) :
    Option (CruntimeDir r) :=
  match hg : d.groups id with
  | none => none
  | some g =>
      if hf : g f = none then none
      else
        some
          { enabled := d.enabled
            enabled_root := d.enabled_root
            groups := Function.update d.groups id (some (Function.update g f (some v)))
            file_enabled := by
              intro id' g' f' hg' hf'
              by_cases hid : id' = id
              · subst hid
                obtain rfl : Function.update g f (some v) = g' := by simpa using hg'
                by_cases hff : f' = f
                · exact hff ▸ d.file_enabled id' g f hg hf
                · rw [Function.update_of_ne hff] at hf'
                  exact d.file_enabled id' g f' hg hf'
              · rw [Function.update_of_ne hid] at hg'
                exact d.file_enabled id' g' f' hg' hf' }

end CruntimeDir

/-! ### The calls -/

/-- The system calls of `cgroup_create` and `cgroup_apply_limits`. -/
inductive CgroupCmd where
  | statControllers
  | mkdirCruntime
  | mkdirGroup (id : DirName)
  | enable (cs : Finset Controller)
  | write (id : DirName) (f : ControlFile) (v : CStr)
deriving DecidableEq

abbrev CgroupScript := Script CgroupCmd

/-- What a call does when nothing refuses it.  The `mkdir` of a container's directory
counts as done when it returns `EEXIST`, as the code has it. -/
def CgroupCmd.apply : CgroupCmd → Cgroups r → Option (Cgroups r)
  | .statControllers, t => some t
  | .mkdirCruntime, none => some (some .empty)
  | .mkdirCruntime, some _ => none
  | .mkdirGroup id, t => t.map fun d => some (d.mkdir id)
  | .enable cs, t => t.bind fun d => (d.enable cs).map some
  | .write id f v, t => t.bind fun d => (d.write id f v).map some

/-- The calls under a pattern of failures.  No call is made twice, so that a set of calls is
as good as a list of Booleans. -/
def CgroupCmd.effect (fails : CgroupCmd → Bool) (c : CgroupCmd) (t : Cgroups r) :
    Option (Cgroups r) :=
  if fails c then none else c.apply t

/-! ### What the files hold -/

namespace Cgroups

/-- The controllers enabled in `cruntime`. -/
def enabled (t : Cgroups r) : Finset Controller := (t.map CruntimeDir.enabled).getD ∅

/-- The directory of a container. -/
def group (t : Cgroups r) (id : DirName) : Option Group := t.bind fun d => d.groups id

/-- What a control file holds, if it is there. -/
def content (t : Cgroups r) (id : DirName) (f : ControlFile) : Option CStr :=
  (t.group id).bind fun g => g f

/-- A file that is there belongs to an enabled controller. -/
theorem controller_mem_of_content {t : Cgroups r} {id : DirName} {f : ControlFile}
    (h : t.content id f ≠ none) : f.controller ∈ t.enabled := by
  cases t with
  | none => exact absurd rfl h
  | some d =>
      cases hg : d.groups id with
      | none => exact absurd (by simp [content, group, hg]) h
      | some g => exact d.file_enabled id g f hg (by simpa [content, group, hg] using h)

/-- After the `mkdir` of a container's directory: an old directory is kept, a new one has
the files of the enabled controllers. -/
theorem content_mkdir (d : CruntimeDir r) (id : DirName) (f : ControlFile) :
    content (some (d.mkdir id)) id f =
      ((d.groups id).getD d.freshGroup) f := by
  simp [content, group, CruntimeDir.mkdir]

theorem content_enable {d d' : CruntimeDir r} {cs : Finset Controller}
    (h : d.enable cs = some d') (id : DirName) (f : ControlFile) :
    content (some d') id f = (d.groups id).bind fun g => d.grown cs g f := by
  unfold CruntimeDir.enable at h
  split at h
  · obtain rfl := Option.some.inj h
    cases hg : d.groups id <;> simp [content, group, hg]
  · simp at h

/-- A write changes the file it names and nothing else. -/
theorem write_eq_some {t t' : Cgroups r} {id : DirName} {f : ControlFile} {v : CStr}
    (h : (CgroupCmd.write id f v).apply t = some t') :
    t.content id f ≠ none ∧ t'.content id f = some v ∧
      ∀ f', f' ≠ f → t'.content id f' = t.content id f' := by
  obtain ⟨d, rfl, hd⟩ := Option.bind_eq_some_iff.mp h
  obtain ⟨d', hd', rfl⟩ := Option.map_eq_some_iff.mp hd
  unfold CruntimeDir.write at hd'
  split at hd'
  · simp at hd'
  · rename_i g hg
    split at hd'
    · simp at hd'
    · rename_i hf
      obtain rfl := Option.some.inj hd'
      refine ⟨by simpa [content, group, hg] using hf, by simp [content, group], ?_⟩
      intro f' hff
      simp [content, group, hg, hff]

/-- A write fails only when its file is not there. -/
theorem write_eq_none {t : Cgroups r} {id : DirName} {f : ControlFile} {v : CStr} :
    (CgroupCmd.write id f v).apply t = none ↔ t.content id f = none := by
  cases t with
  | none => simp [CgroupCmd.apply, content, group]
  | some d =>
      show ((d.write id f v).map some = none) ↔ _
      rw [Option.map_eq_none_iff]
      unfold CruntimeDir.write
      split
      · rename_i hg
        simp [content, group, hg]
      · rename_i g hg
        by_cases hf : g f = none
        · simp [content, group, hg, hf]
        · simp [content, group, hg, hf]

end Cgroups

end Cruntime
