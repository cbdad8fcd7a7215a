/-
What a read-only root file system is worth.

With `readonly_rootfs` the function remounts the bind of the root file system, and the remount
is of one mount.  The bind is recursive: what is mounted below the root file system comes
along, and stays as writable as it was.  A bind remount also sets the flags it is given and no
others, so that `nosuid`, `nodev` and `noexec` go from the one mount that it does reach.

The function therefore keeps its word exactly when there is nothing to do: every mount below
the root file system is read-only already, and the mount that the root file system lies on
has none of the three flags.
-/
import Cruntime.Namespace.Mounts

namespace Cruntime

open Paths (Path locate)
open MountTable (submounts)
open Script (run)

variable {Host : Type} {cwd : Path}

/-- A mount as it was carried into the container, and as it is in the end: read-only, and as
restricted as before. -/
structure KeptReadonly (before after : Mount CStr (Shown Host)) : Prop where
  point : after.point = before.point
  readonly : after.flags.readonly = true
  nosuid : before.flags.nosuid = true → after.flags.nosuid = true
  nodev : before.flags.nodev = true → after.flags.nodev = true
  noexec : before.flags.noexec = true → after.flags.noexec = true

/-- None of the flags that a remount has to repeat. -/
structure Unrestricted (flags : MountFlags) : Prop where
  nosuid : flags.nosuid = false
  nodev : flags.nodev = false
  noexec : flags.noexec = false

/-- Every mount of the root file system's tree that the bind carried is read-only in the end, and
no less restricted.  The carried mounts come behind those from before. -/
def CarriedReadonly (cwd : Path) (rootfs : CStr) (table final : MountTable CStr (Shown Host)) :
    Prop :=
  ∀ brought, table.carried (locate cwd rootfs) (locate cwd rootfs) .rootfs = some brought →
    List.Forall₂ KeptReadonly brought ((final.drop table.length).take brought.length)

/-- There is nothing to make read-only but the mount that the root file system lies on, and
nothing there to lose. -/
def NothingBelow (cwd : Path) (rootfs : CStr) (table : MountTable CStr (Shown Host)) : Prop :=
  ∀ c, table.covering (locate cwd rootfs) = some c →
    Unrestricted c.mount.flags ∧
      ∀ m ∈ submounts c (locate cwd rootfs), m.flags.readonly = true

/-- A mount that nothing happens to is kept when it is read-only. -/
theorem keptReadonly_self_iff {m : Mount CStr (Shown Host)} :
    KeptReadonly m m ↔ m.flags.readonly = true :=
  ⟨fun h => h.readonly, fun h => ⟨rfl, h, id, id, id⟩⟩

/-- The mount that is remounted is kept when it had none of the other flags. -/
theorem keptReadonly_remount_iff {m : Mount CStr (Shown Host)} :
    KeptReadonly m { m with flags := { MountFlags.none with readonly := true } } ↔
      Unrestricted m.flags := by
  constructor
  · intro h
    have hcleared : ∀ b : Bool, (b = true → false = true) → b = false := by decide
    exact ⟨hcleared _ h.nosuid, hcleared _ h.nodev, hcleared _ h.noexec⟩
  · intro h
    refine ⟨rfl, rfl, ?_, ?_, ?_⟩
    · intro hset
      simp [h.nosuid] at hset
    · intro hset
      simp [h.nodev] at hset
    · intro hset
      simp [h.noexec] at hset

/-- **A table that a successful read-only run leaves keeps what was carried exactly when there was
nothing to do.** -/
theorem carriedReadonly_iff {config : MountConfig}
    {table final brought system volumes : MountTable CStr (Shown Host)}
    (hreadonly : config.readonlyRootfs = true)
    (h : SetUp cwd config table final brought system volumes) :
    CarriedReadonly cwd config.rootfs table final ↔ NothingBelow cwd config.rootfs table := by
  obtain ⟨c, hc, hbrought⟩ := Option.map_eq_some_iff.mp h.carried
  -- the carried mounts stand where they were put, the first of them remounted
  have hplace : (final.drop table.length).take brought.length = remountTop brought := by
    have hlen : brought.length = (remountTop brought).length := by simp [remountTop]
    rw [h.final_eq, if_pos hreadonly, List.append_assoc, List.append_assoc, List.drop_left, hlen,
      List.take_left]
  have hone : CarriedReadonly cwd config.rootfs table final ↔
      List.Forall₂ KeptReadonly brought (remountTop brought) := by
    unfold CarriedReadonly
    simp only [h.carried, Option.some.injEq, forall_eq', hplace]
  have hbelow : NothingBelow cwd config.rootfs table ↔ Unrestricted c.mount.flags ∧
      ∀ m ∈ submounts c (locate cwd config.rootfs), m.flags.readonly = true := by
    unfold NothingBelow
    simp only [hc, Option.some.injEq, forall_eq']
  rw [hone, hbelow, ← hbrought]
  unfold remountTop
  rw [List.modifyHead_cons, List.forall₂_cons, keptReadonly_remount_iff, List.forall₂_same]
  simp only [keptReadonly_self_iff, List.forall_mem_map]
  exact Iff.rfl

/-- **Read-only means read-only exactly when every mount below the root file system is read-only
already and the mount it lies on is not restricted otherwise.** -/
theorem readonly_rootfs_iff (cwd : Path) (table : MountTable CStr (Shown Host))
    (config : MountConfig) (faults : Nat → Bool) (hreadonly : config.readonlyRootfs = true)
    (hok : (run (NamespaceCmd.effect cwd) (namespaceSetupMounts config) ⟨table, faults⟩).1 = .ok) :
    CarriedReadonly cwd config.rootfs table
        (run (NamespaceCmd.effect cwd) (namespaceSetupMounts config) ⟨table, faults⟩).2.state ↔
      NothingBelow cwd config.rootfs table := by
  obtain ⟨brought, system, volumes, hsetUp⟩ := namespaceSetupMounts_spec _ hok
  exact carriedReadonly_iff hreadonly hsetUp

/-- A root file system on the host's root, with one mount below it. -/
def sampleBelow (flags : MountFlags) : MountTable CStr (Shown Unit) :=
  [⟨[], .host (), .none⟩, ⟨["r".toList, "usr".toList], .host (), flags⟩]

theorem nothingBelow_sample_iff (flags : MountFlags) :
    NothingBelow [] "/r".toList (sampleBelow flags) ↔ flags.readonly = true := by
  have hcovering : (sampleBelow flags).covering (locate [] "/r".toList) =
      some ⟨[], ⟨[], .host (), .none⟩, [⟨["r".toList, "usr".toList], .host (), flags⟩]⟩ := rfl
  have hsubmounts : submounts ⟨[], ⟨[], Shown.host (), .none⟩,
      [⟨["r".toList, "usr".toList], Shown.host (), flags⟩]⟩ (locate [] "/r".toList) =
      [⟨["r".toList, "usr".toList], Shown.host (), flags⟩] := rfl
  unfold NothingBelow
  rw [hcovering]
  simp only [Option.some.injEq, forall_eq', hsubmounts, List.forall_mem_singleton]
  exact and_iff_right ⟨rfl, rfl, rfl⟩

/-- A mount below that is read-only already. -/
theorem readonly_below_stays :
    CarriedReadonly [] "/r".toList (sampleBelow { MountFlags.none with readonly := true })
      (run (NamespaceCmd.effect []) (namespaceSetupMounts ⟨"/r".toList, true, []⟩)
        ⟨sampleBelow { MountFlags.none with readonly := true }, fun _ => false⟩).2.state := by
  refine (readonly_rootfs_iff [] _ ⟨"/r".toList, true, []⟩ (fun _ => false) rfl (by decide)).mpr ?_
  exact (nothingBelow_sample_iff _).mpr rfl

/-- A writable mount below stays writable. -/
theorem writable_mount_below :
    ¬∀ (cwd : Path) (table : MountTable CStr (Shown Unit)) (config : MountConfig)
      (faults : Nat → Bool), config.readonlyRootfs = true →
      (run (NamespaceCmd.effect cwd) (namespaceSetupMounts config) ⟨table, faults⟩).1 = .ok →
      CarriedReadonly cwd config.rootfs table
        (run (NamespaceCmd.effect cwd) (namespaceSetupMounts config) ⟨table, faults⟩).2.state := by
  intro hall
  have hok : (run (NamespaceCmd.effect []) (namespaceSetupMounts ⟨"/r".toList, true, []⟩)
      ⟨sampleBelow .none, fun _ => false⟩).1 = .ok := by decide
  have hkept := hall [] (sampleBelow .none) ⟨"/r".toList, true, []⟩ (fun _ => false) rfl hok
  obtain ⟨brought, system, volumes, hsetUp⟩ := namespaceSetupMounts_spec _ hok
  have hnothing := (carriedReadonly_iff rfl hsetUp).mp hkept
  exact absurd ((nothingBelow_sample_iff .none).mp hnothing) (by decide)

end Cruntime
