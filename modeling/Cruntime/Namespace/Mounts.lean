/-
`namespace_setup_mounts`, from the bind of the root file system to the last volume.

The function binds the root file system to itself with everything mounted below it, makes it
read-only when it is asked to, mounts six file systems of its own in it, and then the volumes
in the order of the command line.  Only the calls for its own file systems may fail: any other
failure ends it.

So when it succeeds, the mounts are those from before, what the bind brought, its own file
systems, and one mount for each volume, in this order (`namespaceSetupMounts_spec`).

The trees are named by the calls that bring them, a volume's by its source.  What is inside one
of them is not compared with what is inside another.  Links are left out, as is
`MS_STRICTATIME`, which is no flag that anything here asks about.
-/
import Cruntime.CmdRun
import Cruntime.Lib.MountTable
import Cruntime.Lib.Paths
import Cruntime.Storage.Mount

namespace Cruntime

open Paths (Path locate)
open Script (issue run)

/-! ### The calls and what they do -/

/-- The system calls of the function.  A new file system is its own source, as in every such
call of the code. -/
inductive NamespaceCmd where
  | makePrivate
  | bindTree (source target : CStr)
  | remount (target : CStr) (flags : MountFlags)
  | mkdir (path : CStr) (mode : Nat)
  | mount (fstype target : CStr) (flags : MountFlags) (options : CStr)
  | mountVolume (mp : MountPoint) (target : CStr)
deriving DecidableEq

/-- What a mount shows: a tree that was mounted before, the root file system, a file system of
the function's own, or the source of a volume. -/
inductive Shown (Host : Type) where
  | host (tree : Host)
  | rootfs
  | system (fstype : CStr)
  | volume (source : CStr)
deriving DecidableEq

variable {Host : Type}

/-- What a call does, for a process in a directory.  Who sees the mounts of others is no matter
of this table, nor are directories that nothing is mounted on. -/
def NamespaceCmd.effect (cwd : Path) :
    NamespaceCmd → MountTable CStr (Shown Host) → Option (MountTable CStr (Shown Host))
  | .makePrivate, table => some table
  | .bindTree source target, table =>
      table.bindTree (locate cwd source) (locate cwd target) .rootfs
  | .remount target flags, table => table.remount (locate cwd target) flags
  | .mkdir _ _, table => some table
  | .mount fstype target flags _, table =>
      some (table.mountNew (locate cwd target) (.system fstype) flags)
  | .mountVolume mp target, table =>
      if mp.bind then table.bind (locate cwd mp.source) (locate cwd target) (.volume mp.source)
      else some (table.mountNew (locate cwd target) (.volume mp.source) .none)

abbrev NamespaceScript := Script NamespaceCmd

/-! ### The function -/

/-- What the function reads of a `container_config_t`. -/
structure MountConfig where
  rootfs : CStr
  readonlyRootfs : Bool
  mounts : List MountPoint

/-- A file system that the function mounts itself. -/
structure SystemMount where
  name : CStr
  mode : Nat
  fstype : CStr
  flags : MountFlags
  options : CStr

def procMount : SystemMount := ⟨"/proc".toList, 0o755, "proc".toList, .none, []⟩

def sysMount : SystemMount := ⟨"/sys".toList, 0o755, "sysfs".toList, .none, []⟩

def devMount : SystemMount where
  name := "/dev".toList
  mode := 0o755
  fstype := "devtmpfs".toList
  flags := { MountFlags.none with nosuid := true }
  options := "mode=755".toList

def devptsMount : SystemMount where
  name := "/dev/pts".toList
  mode := 0o755
  fstype := "devpts".toList
  flags := .none
  options := "newinstance,ptmxmode=0666".toList

def tmpMount : SystemMount where
  name := "/tmp".toList
  mode := 0o1777
  fstype := "tmpfs".toList
  flags := { MountFlags.none with nosuid := true, nodev := true }
  options := "mode=1777".toList

def runMount : SystemMount where
  name := "/run".toList
  mode := 0o755
  fstype := "tmpfs".toList
  flags := { MountFlags.none with nosuid := true, nodev := true, noexec := true }
  options := "mode=755".toList

/-- The file systems in the order of the code. -/
def systemMounts : List SystemMount :=
  [procMount, sysMount, devMount, devptsMount, tmpMount, runMount]

/-- The two calls for one of them. -/
def SystemMount.calls (rootfs : CStr) (m : SystemMount) : List NamespaceCmd :=
  let path := snprintf maxPathLen (rootfs ++ m.name)
  [.mkdir path m.mode, .mount m.fstype path m.flags m.options]

/-- `target[MAX_PATH_LEN]` of a volume. -/
def volumeTarget (rootfs : CStr) (mp : MountPoint) : CStr :=
  snprintf maxPathLen (rootfs ++ mp.target)

/-- The loop over the volumes. -/
def mountVolumes (rootfs : CStr) : List MountPoint → NamespaceScript CrCode
  | [] => return .ok
  | mp :: rest => do
      let target := volumeTarget rootfs mp
      -- Create target directory
      let _ ← issue (.mkdir target 0o755)
      unless ← issue (.mountVolume mp target) do
        return .esyscall
      mountVolumes rootfs rest

/-- `namespace_setup_mounts`. -/
def namespaceSetupMounts (config : MountConfig) : NamespaceScript CrCode := do
  -- Make everything private to prevent mount propagation
  unless ← issue .makePrivate do
    return .esyscall
  -- Create new rootfs mount
  unless ← issue (.bindTree config.rootfs config.rootfs) do
    return .esyscall
  -- Make rootfs readonly if requested
  if config.readonlyRootfs then
    unless ← issue (.remount config.rootfs { MountFlags.none with readonly := true }) do
      return .esyscall
  Script.tryAll (systemMounts.flatMap (SystemMount.calls config.rootfs))
    (mountVolumes config.rootfs config.mounts)

/-! ### What it leaves -/

/-- The mounts from before. -/
def hostMounts (table : MountTable CStr Host) : MountTable CStr (Shown Host) :=
  table.map fun m => ⟨m.point, .host m.tree, m.flags⟩

/-- What the remount does to the mounts that the bind brought. -/
def remountTop (brought : MountTable CStr (Shown Host)) : MountTable CStr (Shown Host) :=
  brought.modifyHead fun m => { m with flags := { MountFlags.none with readonly := true } }

/-- Where a volume is mounted. -/
def volumePoint (cwd : Path) (rootfs : CStr) (mp : MountPoint) : Path :=
  locate cwd (volumeTarget rootfs mp)

/-- A volume's mount. -/
def volumeMount (cwd : Path) (rootfs : CStr) (mp : MountPoint) : Path × Shown Host :=
  (volumePoint cwd rootfs mp, .volume mp.source)

/-- The table after a successful run, in the order in which it came about. -/
structure SetUp (cwd : Path) (config : MountConfig)
    (table final brought system volumes : MountTable CStr (Shown Host)) : Prop where
  carried : table.carried (locate cwd config.rootfs) (locate cwd config.rootfs) .rootfs =
    some brought
  final_eq : final =
    table ++ (if config.readonlyRootfs then remountTop brought else brought) ++ system ++ volumes
  system_trees : ∀ m ∈ system, ∃ fstype, m.tree = .system fstype
  volumes_eq : volumes.map (fun m => (m.point, m.tree)) =
    config.mounts.map (volumeMount cwd config.rootfs)

variable {cwd : Path}

/-- The calls for the function's own file systems add mounts of such file systems and nothing
else, whichever of them fail. -/
theorem wp_system {ms : List SystemMount} {rootfs : CStr} {next : NamespaceScript CrCode}
    {Q : CrCode → MountTable CStr (Shown Host) → Prop} {table : MountTable CStr (Shown Host)}
    (hnext : ∀ system : MountTable CStr (Shown Host),
      (∀ m ∈ system, ∃ fstype, m.tree = .system fstype) →
      Script.wp (NamespaceCmd.effect cwd) next Q (table ++ system)) :
    Script.wp (NamespaceCmd.effect cwd)
      (Script.tryAll (ms.flatMap (SystemMount.calls rootfs)) next) Q table := by
  induction ms generalizing table with
  | nil => simpa [Script.tryAll] using hnext [] (by simp)
  | cons m rest ih =>
      have hskip := ih hnext
      have hmade := @ih
        (table.mountNew (locate cwd (snprintf maxPathLen (rootfs ++ m.name))) (.system m.fstype)
          m.flags)
        (by
          intro system hsystem
          unfold MountTable.mountNew
          rw [List.append_assoc]
          refine hnext _ fun x hx => ?_
          rcases List.mem_append.mp hx with hx | hx
          · exact ⟨m.fstype, by rw [List.mem_singleton.mp hx]⟩
          · exact hsystem x hx)
      have hmount : Script.wp (NamespaceCmd.effect cwd)
          (.exec (.mount m.fstype (snprintf maxPathLen (rootfs ++ m.name)) m.flags m.options)
            fun _ => Script.tryAll (rest.flatMap (SystemMount.calls rootfs)) next) Q table := by
        refine ⟨?_, hskip⟩
        intro t ht
        obtain rfl := Option.some.inj ht
        exact hmade
      rw [List.flatMap_cons]
      refine ⟨?_, hmount⟩
      intro t ht
      obtain rfl : table = t := Option.some.inj ht
      exact hmount

/-- A call for a volume adds its mount. -/
theorem effect_mountVolume {mp : MountPoint} {rootfs : CStr}
    {table t : MountTable CStr (Shown Host)}
    (h : NamespaceCmd.effect cwd (.mountVolume mp (volumeTarget rootfs mp)) table = some t) :
    ∃ m : Mount CStr (Shown Host), t = table ++ [m] ∧
      (m.point, m.tree) = volumeMount cwd rootfs mp := by
  unfold NamespaceCmd.effect at h
  by_cases hbind : mp.bind = true
  · simp only [if_pos hbind] at h
    obtain ⟨c, -, rfl⟩ := Option.map_eq_some_iff.mp h
    exact ⟨_, rfl, rfl⟩
  · simp only [if_neg hbind] at h
    obtain rfl := Option.some.inj h
    exact ⟨_, rfl, rfl⟩

/-- The loop that gets through has added one mount for each volume. -/
theorem wp_volumes {mps : List MountPoint} {rootfs : CStr}
    {Q : CrCode → MountTable CStr (Shown Host) → Prop} {table : MountTable CStr (Shown Host)}
    (hok : ∀ volumes : MountTable CStr (Shown Host),
      volumes.map (fun m => (m.point, m.tree)) = mps.map (volumeMount cwd rootfs) →
      Q .ok (table ++ volumes))
    (hfail : ∀ t, Q .esyscall t) :
    Script.wp (NamespaceCmd.effect cwd) (mountVolumes rootfs mps) Q table := by
  induction mps generalizing table with
  | nil => simpa [mountVolumes] using hok [] rfl
  | cons mp rest ih =>
      have hmount : ∀ t, NamespaceCmd.effect cwd (.mountVolume mp (volumeTarget rootfs mp)) table =
          some t → Script.wp (NamespaceCmd.effect cwd) (mountVolumes rootfs rest) Q t := by
        intro t ht
        obtain ⟨m, rfl, hm⟩ := effect_mountVolume ht
        refine ih fun volumes hvolumes => ?_
        have := hok (m :: volumes) (by rw [List.map_cons, List.map_cons, hm, hvolumes])
        rwa [List.append_assoc]
      have hcall : Script.wp (NamespaceCmd.effect cwd)
          (.exec (.mountVolume mp (volumeTarget rootfs mp)) fun ok =>
            if ok then mountVolumes rootfs rest else .ret .esyscall) Q table :=
        ⟨hmount, hfail table⟩
      refine ⟨?_, hcall⟩
      intro t ht
      obtain rfl : table = t := Option.some.inj ht
      exact hcall

/-- The function has set everything up, if that is what it says. -/
def SetUpIfOk (cwd : Path) (config : MountConfig) (table : MountTable CStr (Shown Host))
    (code : CrCode) (final : MountTable CStr (Shown Host)) : Prop :=
  code = .ok → ∃ brought system volumes, SetUp cwd config table final brought system volumes

theorem setUpIfOk_failed (config : MountConfig) (table final : MountTable CStr (Shown Host)) :
    SetUpIfOk cwd config table .esyscall final := by
  intro h
  exact absurd h (by decide)

/-- The file systems and the volumes, on whatever the bind and the remount have left. -/
theorem wp_afterBind {config : MountConfig} {table brought : MountTable CStr (Shown Host)}
    (hcarried : table.carried (locate cwd config.rootfs) (locate cwd config.rootfs) .rootfs =
      some brought) :
    Script.wp (NamespaceCmd.effect cwd)
      (Script.tryAll (systemMounts.flatMap (SystemMount.calls config.rootfs))
        (mountVolumes config.rootfs config.mounts))
      (SetUpIfOk cwd config table)
      (table ++ if config.readonlyRootfs then remountTop brought else brought) := by
  refine wp_system fun system hsystem => wp_volumes ?_ (setUpIfOk_failed config table)
  intro volumes hvolumes _
  exact ⟨brought, system, volumes, hcarried, rfl, hsystem, hvolumes⟩

theorem wp_namespaceSetupMounts (config : MountConfig) (table : MountTable CStr (Shown Host)) :
    Script.wp (NamespaceCmd.effect cwd) (namespaceSetupMounts config)
      (SetUpIfOk cwd config table) table := by
  have hfail := @setUpIfOk_failed Host cwd config table
  refine ⟨?_, hfail _⟩
  intro t ht
  obtain rfl : table = t := Option.some.inj ht
  refine ⟨?_, hfail _⟩
  intro t ht
  obtain ⟨brought, hcarried, rfl⟩ := Option.map_eq_some_iff.mp ht
  have hrest := wp_afterBind hcarried
  cases hreadonly : config.readonlyRootfs with
  | false =>
      rw [hreadonly] at hrest
      exact hrest
  | true =>
      rw [hreadonly] at hrest
      refine ⟨?_, hfail _⟩
      intro t ht
      have hremount := MountTable.remount_carried hcarried
        { MountFlags.none with readonly := true }
      obtain rfl := Option.some.inj (hremount.symm.trans ht)
      exact hrest

/-- **What a successful run leaves**: the mounts from before, what the bind brought, the
function's own file systems, and the volumes in their order. -/
theorem namespaceSetupMounts_spec {config : MountConfig}
    (w : World (MountTable CStr (Shown Host)))
    (hok : (run (NamespaceCmd.effect cwd) (namespaceSetupMounts config) w).1 = .ok) :
    ∃ brought system volumes, SetUp cwd config w.state
      (run (NamespaceCmd.effect cwd) (namespaceSetupMounts config) w).2.state
      brought system volumes :=
  Script.wp_run _ w (wp_namespaceSetupMounts config w.state) hok

end Cruntime
