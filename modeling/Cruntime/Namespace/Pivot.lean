/-
`namespace_pivot_root`, after `namespace_setup_mounts`: the container's own root.

A container sets up its mounts below the directory of its root file system, and then makes that
directory its root.  The old root hangs at `/.oldroot` for a moment and is unmounted with
everything on it.  What a path showed below the root file system it now shows from the root, and
of the host nothing is left but what had been mounted below the root file system before
(`container_isolated`).

The function can also stop halfway.  When the unmount fails, `CR_ESYSCALL` is returned to a
process that has the whole host below `/.oldroot` (`pivotRoot_outcomes`, `host_below_oldroot`).

The state has the directories besides the mounts, as far as the calls ask about them: whether
there is one at a path, and whether one can be made there.  A `mkdir` fails on a read-only mount,
and `pivot_root` fails without the directory for the old root.  Two mounts can show the same
directory, one of them read-only, so the entries belong to the tree that keeps them, whichever
mount shows it.  Links are left out, and so is where the process stands after the pivot: nothing
asks before `chdir("/")`.
-/
import Cruntime.Lib.Embed
import Cruntime.Lib.PivotRoot
import Cruntime.Namespace.Mounts

namespace Cruntime

open Paths (Path locate resolve)
open Script (issue run)

variable {Host : Type} [DecidableEq Host] {cwd : Path}

/-! ### Mounts and what is in them -/

inductive FileKind where
  | directory
  | other
deriving DecidableEq

/-- What is in the trees.  The root of a tree is a directory of the tree that keeps its entries: a
tree of its own, or one that it shows a part of, as a bind mount does. -/
structure Disk (Host : Type) where
  home : Shown Host → Shown Host × Path
  entries : Shown Host → List (Path × FileKind)

namespace Disk

/-- Where the entry for a path of a tree is kept. -/
def place (d : Disk Host) (found : Shown Host × Path) : Shown Host × Path :=
  ((d.home found.1).1, (d.home found.1).2 ++ found.2)

/-- There is a directory. -/
def isDir (d : Disk Host) (found : Shown Host × Path) : Bool :=
  ((d.place found).2, FileKind.directory) ∈ d.entries (d.place found).1

/-- There is something. -/
def isEntry (d : Disk Host) (found : Shown Host × Path) : Bool :=
  (d.entries (d.place found).1).any fun e => e.1 = (d.place found).2

/-- The entries of one tree replaced. -/
def withEntries (d : Disk Host) (tree : Shown Host) (es : List (Path × FileKind)) : Disk Host :=
  { d with entries := Function.update d.entries tree es }

end Disk

/-- The mounts, and what is in the trees. -/
structure NsState (Host : Type) where
  table : MountTable CStr (Shown Host)
  disk : Disk Host

namespace NsState

/-- There is a directory at a path. -/
def isDir (st : NsState Host) (p : Path) : Bool := (st.table.lookup p).any st.disk.isDir

/-- There is something at a path. -/
def isEntry (st : NsState Host) (p : Path) : Bool := (st.table.lookup p).any st.disk.isEntry

/-- Where a new entry at a path is kept, when the mount that it is made in is writable. -/
def writableParent (st : NsState Host) (p : Path) : Option (Shown Host × Path) :=
  (st.table.covering p.dropLast).bind fun c =>
    if c.mount.flags.readonly then none
    else some (st.disk.place (c.mount.tree, p.drop c.mount.point.length))

/-- The entries of one tree replaced. -/
def withEntries (st : NsState Host) (tree : Shown Host) (es : List (Path × FileKind)) :
    NsState Host :=
  { st with disk := st.disk.withEntries tree es }

/-- `mkdir`: its parent is a directory on a writable mount, and nothing is there. -/
def mkdir (st : NsState Host) (p : Path) : Option (NsState Host) :=
  if p = [] ∨ st.isEntry p ∨ ¬st.isDir p.dropLast then none
  else (st.writableParent p).map fun place =>
    st.withEntries place.1 ((place.2, .directory) :: st.disk.entries place.1)

/-- `rmdir`: an empty directory on a writable mount that nothing is mounted on. -/
def rmdir (st : NsState Host) (p : Path) : Option (NsState Host) :=
  if p = [] ∨ ¬st.isDir p ∨ st.table.any (fun m => decide (m.point = p)) then none
  else (st.writableParent p).bind fun place =>
    if (st.disk.entries place.1).any fun e => place.2 <+: e.1 && e.1 ≠ place.2 then none
    else
      some (st.withEntries place.1
        ((st.disk.entries place.1).filter fun e => e.1 ≠ place.2))

end NsState

/-! ### The calls and the functions -/

/-- The system calls of a process that is setting up its root. -/
inductive RootCmd where
  | setup (c : NamespaceCmd)
  | pivotRoot (newRoot putOld : CStr)
  | chdir (path : CStr)
  | umountDetach (target : CStr)
  | rmdir (path : CStr)
deriving DecidableEq

/-- The calls that mount something need a directory to mount it on. -/
def NamespaceCmd.target? : NamespaceCmd → Option CStr
  | .bindTree _ target => some target
  | .mount _ target _ _ => some target
  | .mountVolume _ target => some target
  | _ => none

/-- What a call does, for a process in a directory. -/
def RootCmd.effect (cwd : Path) : RootCmd → NsState Host → Option (NsState Host)
  | .setup (.mkdir path _), st => st.mkdir (locate cwd path)
  | .setup c, st =>
      if c.target?.all fun target => st.isDir (locate cwd target) then
        (c.effect cwd st.table).map fun table => { st with table }
      else none
  | .pivotRoot newRoot putOld, st =>
      if st.isDir (locate cwd newRoot) ∧ st.isDir (locate cwd putOld) then
        (st.table.pivot (locate cwd newRoot) (locate cwd putOld)).map fun table =>
          { st with table }
      else none
  | .chdir path, st => if st.isDir (locate cwd path) then some st else none
  | .umountDetach target, st =>
      (st.table.detach (locate cwd target)).map fun table => { st with table }
  | .rmdir path, st => st.rmdir (locate cwd path)

abbrev RootScript := Script RootCmd

/-- `namespace_pivot_root`. -/
def namespacePivotRoot (newRoot : CStr) : RootScript CrCode := do
  let oldRoot := snprintf maxPathLen (newRoot ++ "/.oldroot".toList)
  -- Create directory for old root
  let _ ← issue (.setup (.mkdir oldRoot 0o700))
  -- Pivot root
  unless ← issue (.pivotRoot newRoot oldRoot) do
    return .esyscall
  -- Change to new root
  unless ← issue (.chdir "/".toList) do
    return .esyscall
  -- Unmount old root
  unless ← issue (.umountDetach "/.oldroot".toList) do
    return .esyscall
  -- Remove old root directory
  let _ ← issue (.rmdir "/.oldroot".toList)
  return .ok

/-- The two functions in the order in which a container calls them, the second one if the first
succeeds. -/
def enterRootfs (config : MountConfig) : RootScript CrCode := do
  let code ← (namespaceSetupMounts config).lift .setup
  if code ≠ .ok then
    return code
  namespacePivotRoot config.rootfs

/-! ### The mounts, without the entries -/

theorem table_of_mkdir {st st' : NsState Host} {p : Path} (h : st.mkdir p = some st') :
    st'.table = st.table := by
  unfold NsState.mkdir at h
  split_ifs at h
  obtain ⟨place, -, rfl⟩ := Option.map_eq_some_iff.mp h
  rfl

theorem effect_setup {c : NamespaceCmd} {st st' : NsState Host}
    (h : RootCmd.effect cwd (.setup c) st = some st') :
    c.effect cwd st.table = some st'.table := by
  have hmount : (if c.target?.all (fun target => st.isDir (locate cwd target)) then
      (c.effect cwd st.table).map fun table => { st with table } else none) = some st' →
      c.effect cwd st.table = some st'.table := by
    intro h
    split_ifs at h
    obtain ⟨table, htable, rfl⟩ := Option.map_eq_some_iff.mp h
    exact htable
  cases c with
  | mkdir path mode =>
      show some st.table = some st'.table
      rw [table_of_mkdir (show st.mkdir (locate cwd path) = some st' from h)]
  | makePrivate => exact hmount h
  | bindTree source target => exact hmount h
  | remount target flags => exact hmount h
  | mount fstype target flags options => exact hmount h
  | mountVolume mp target => exact hmount h

/-- Only `mkdir` makes an entry. -/
theorem disk_of_setup {c : NamespaceCmd} (hc : ∀ path mode, c ≠ .mkdir path mode)
    {st st' : NsState Host} (h : RootCmd.effect cwd (.setup c) st = some st') :
    st'.disk = st.disk := by
  have hmount : (if c.target?.all (fun target => st.isDir (locate cwd target)) then
      (c.effect cwd st.table).map fun table => { st with table } else none) = some st' := by
    cases c with
    | mkdir path mode => exact absurd rfl (hc path mode)
    | makePrivate => exact h
    | bindTree source target => exact h
    | remount target flags => exact h
    | mount fstype target flags options => exact h
    | mountVolume mp target => exact h
  split_ifs at hmount
  obtain ⟨table, -, rfl⟩ := Option.map_eq_some_iff.mp hmount
  rfl

theorem effect_pivotRoot {newRoot putOld : CStr} {st st' : NsState Host}
    (h : RootCmd.effect cwd (.pivotRoot newRoot putOld) st = some st') :
    st.isDir (locate cwd putOld) = true ∧
      st.table.pivot (locate cwd newRoot) (locate cwd putOld) = some st'.table := by
  have hif : (if st.isDir (locate cwd newRoot) ∧ st.isDir (locate cwd putOld) then
      (st.table.pivot (locate cwd newRoot) (locate cwd putOld)).map fun table => { st with table }
    else none) = some st' := h
  split_ifs at hif with hdirs
  obtain ⟨t, ht, rfl⟩ := Option.map_eq_some_iff.mp hif
  exact ⟨hdirs.2, ht⟩

end Cruntime
