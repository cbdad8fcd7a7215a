/-
A read-only root file system and the directory for the old root.

`namespace_setup_mounts` makes the root file system read-only before anything is made in it, and
`namespace_pivot_root` needs a directory `/.oldroot` in it, which it tries to make itself, with
no look at the result.  So a container with `readonly_rootfs` starts only from an image that
happens to have that directory, with a volume mounted over the root file system or over
`/.oldroot`, or with one that shows the same directory a second time, where it can be written;
otherwise `pivot_root` fails, whatever else goes well (`readonly_never_enters`).

The invariant says that no call can make the directory: every mount that shows its place is
read-only, and the place belongs to the mount of the root file system.
-/
import Cruntime.Namespace.Isolated

namespace Cruntime

open Paths (Path locate)
open Script (run Uses)

variable {Host : Type} {cwd : Path} {rootfs : CStr} {host : MountTable CStr Host}
  {mounts : List MountPoint}

/-- Where the directory for the old root would be. -/
def oldRootPlace (cwd : Path) (rootfs : CStr) : Path := locate cwd rootfs ++ [oldRootName]

/-- Nothing but the root file system shows the directory that the old root would be in: a mount of
the host only at its own path, and neither a volume nor a new file system. -/
structure Unshared (cwd : Path) (rootfs : CStr) (host : MountTable CStr Host)
    (mounts : List MountPoint) (disk : Disk Host) : Prop where
  host : ∀ m ∈ host, ∀ q, disk.place (.host m.tree, q) = disk.place (.rootfs, [oldRootName]) →
    m.point ++ q = oldRootPlace cwd rootfs
  system : ∀ fstype q, disk.place (.system fstype, q) ≠ disk.place (.rootfs, [oldRootName])
  volume : ∀ mp ∈ mounts, ∀ q,
    disk.place (.volume mp.source, q) ≠ disk.place (.rootfs, [oldRootName])

/-- The root file system is read-only wherever it is mounted, has no directory for the old root,
and is what there is in that place, which other mounts show at this path or not at all. -/
structure NoOldRoot (cwd : Path) (rootfs : CStr) (host : MountTable CStr Host)
    (mounts : List MountPoint) (st : NsState Host) : Prop where
  readonly : ∀ m ∈ st.table, m.tree = .rootfs → m.flags.readonly = true
  missing : st.disk.isDir (.rootfs, [oldRootName]) = false
  there : st.table.lookup (oldRootPlace cwd rootfs) = some (.rootfs, [oldRootName])
  elsewhere : ∀ m ∈ st.table, m.tree ≠ .rootfs → ∀ q,
    st.disk.place (m.tree, q) = st.disk.place (.rootfs, [oldRootName]) →
      m.point ++ q = oldRootPlace cwd rootfs
  unshared : Unshared cwd rootfs host mounts st.disk

/-- The call mounts nothing at or above the place of the old root. -/
def NamespaceCmd.Beside (cwd : Path) (rootfs : CStr) (mounts : List MountPoint) :
    NamespaceCmd → Prop
  | .mkdir _ _ => True
  | .mount _ target _ _ => ¬locate cwd target <+: oldRootPlace cwd rootfs
  | .mountVolume mp target =>
      mp ∈ mounts ∧ ¬locate cwd target <+: oldRootPlace cwd rootfs
  | _ => False

/-- After the remount the root file system is read-only, and nothing is in the place. -/
theorem noOldRoot_remounted {brought : MountTable CStr (Shown Host)}
    (hcarried : (hostMounts host).carried (locate cwd rootfs) (locate cwd rootfs) .rootfs =
      some brought)
    {disk : Disk Host} (hmissing : disk.isDir (.rootfs, [oldRootName]) = false)
    (hhost : ∀ m ∈ host, m.point ≠ oldRootPlace cwd rootfs)
    (hunshared : Unshared cwd rootfs host mounts disk) :
    NoOldRoot cwd rootfs host mounts ⟨hostMounts host ++ remountTop brought, disk⟩ := by
  obtain ⟨top, below, rfl, hpoint, htop, hbelow⟩ := tree_of_brought hcarried
  have hflags : remountTop (top :: below) =
      { top with flags := { MountFlags.none with readonly := true } } :: below := rfl
  refine ⟨?_, hmissing, ?_, ?_, hunshared⟩
  · intro m hm htree
    rw [hflags] at hm
    rcases List.mem_append.mp hm with hm | hm
    · obtain ⟨x, -, rfl⟩ := List.mem_map.mp hm
      simp at htree
    · rcases List.mem_cons.mp hm with rfl | hm
      · rfl
      · obtain ⟨x, -, hhosttree, -⟩ := hbelow m hm
        rw [hhosttree] at htree
        simp at htree
  · -- what was mounted below the root file system is mounted neither there nor above
    have hclear : ∀ m ∈ below, ¬m.point <+: oldRootPlace cwd rootfs := by
      intro m hm hover
      obtain ⟨x, hx, -, hsame, ⟨q, hq⟩, hne⟩ := hbelow m hm
      unfold oldRootPlace at hover
      rw [hsame, ← hq, List.prefix_append_right_inj] at hover
      cases q with
      | nil =>
          rw [List.append_nil] at hq
          exact hne hq.symm
      | cons name rest =>
          obtain ⟨rfl, hnil⟩ := List.cons_prefix_cons.mp hover
          obtain rfl := List.prefix_nil.mp hnil
          exact hhost x hx hq.symm
    have habove : top.point <+: oldRootPlace cwd rootfs := by
      rw [hpoint]
      exact List.prefix_append _ _
    have hcover : MountTable.covering (hostMounts host ++ remountTop (top :: below))
        (oldRootPlace cwd rootfs) = some
          ⟨hostMounts host, { top with flags := { MountFlags.none with readonly := true } },
            below⟩ :=
      MountTable.covering_append_cons habove hclear
    unfold MountTable.lookup
    rw [hcover]
    simp [htop, hpoint, oldRootPlace]
  · -- a mount that the bind brought along is at the path of its original
    intro m hm htree q hplace
    rw [hflags] at hm
    rcases List.mem_append.mp hm with hm | hm
    · obtain ⟨x, hx, rfl⟩ := List.mem_map.mp hm
      exact hunshared.host x hx q hplace
    · rcases List.mem_cons.mp hm with rfl | hm
      · exact absurd htop htree
      · obtain ⟨x, hx, hhosttree, hsame, -⟩ := hbelow m hm
        rw [hhosttree] at hplace
        rw [hsame]
        exact hunshared.host x hx q hplace

/-! ### The calls after the remount -/

/-- A mount of another tree beside the place leaves it as it is. -/
theorem noOldRoot_mount {st : NsState Host} {m : Mount CStr (Shown Host)}
    (h : NoOldRoot cwd rootfs host mounts st) (htree : m.tree ≠ .rootfs)
    (hother : ∀ q, st.disk.place (m.tree, q) ≠ st.disk.place (.rootfs, [oldRootName]))
    (hpoint : ¬m.point <+: oldRootPlace cwd rootfs) :
    NoOldRoot cwd rootfs host mounts { st with table := st.table ++ [m] } := by
  refine ⟨?_, h.missing, ?_, ?_, h.unshared⟩
  · intro x hx hrootfs
    rcases List.mem_append.mp hx with hx | hx
    · exact h.readonly x hx hrootfs
    · obtain rfl := List.mem_singleton.mp hx
      exact absurd hrootfs htree
  · have hclear : MountTable.lookup [m] (oldRootPlace cwd rootfs) = none := by
      refine Option.map_eq_none_iff.mpr (MountTable.covering_eq_none.mpr ?_)
      intro x hx
      obtain rfl := List.mem_singleton.mp hx
      exact hpoint
    show MountTable.lookup (st.table ++ [m]) (oldRootPlace cwd rootfs) = _
    rw [MountTable.lookup_append, hclear, Option.none_or]
    exact h.there
  · intro x hx hx' q hplace
    rcases List.mem_append.mp hx with hx | hx
    · exact h.elsewhere x hx hx' q hplace
    · obtain rfl := List.mem_singleton.mp hx
      exact absurd hplace (hother q)

/-- The parent of the place belongs to a mount of the root file system. -/
theorem covering_parent {st : NsState Host} (h : NoOldRoot cwd rootfs host mounts st) :
    ∃ c, st.table.covering (locate cwd rootfs) = some c ∧ c.mount.tree = .rootfs := by
  obtain ⟨c, hc, heq⟩ := Option.map_eq_some_iff.mp h.there
  obtain ⟨hsplit, hpoint, hsince⟩ := MountTable.covering_spec hc
  obtain ⟨htree, hdrop⟩ := Prod.mk.inj heq
  have habove : locate cwd rootfs <+: oldRootPlace cwd rootfs := List.prefix_append _ _
  have hlen : c.mount.point.length = (locate cwd rootfs).length := by
    have hdrop' := congrArg List.length hdrop
    rw [List.length_drop] at hdrop'
    unfold oldRootPlace at hdrop'
    rw [List.length_append] at hdrop'
    simp only [List.length_singleton] at hdrop'
    omega
  have hat : c.mount.point <+: locate cwd rootfs :=
    List.prefix_of_prefix_length_le hpoint habove hlen.le
  refine ⟨⟨c.before, c.mount, c.since⟩, ?_, htree⟩
  rw [hsplit]
  exact MountTable.covering_append_cons hat fun m hm hover => hsince m hm (hover.trans habove)

variable [DecidableEq Host]

/-- A directory in one place is none in another. -/
theorem isDir_withEntries {st : NsState Host} {place found : Shown Host × Path}
    (h : place ≠ st.disk.place found) :
    (st.withEntries place.1 ((place.2, .directory) :: st.disk.entries place.1)).disk.isDir found =
      st.disk.isDir found := by
  refine decide_eq_decide.mpr ?_
  show ((st.disk.place found).2, _) ∈
    Function.update st.disk.entries place.1 _ (st.disk.place found).1 ↔ _
  by_cases htree : (st.disk.place found).1 = place.1
  · have hpath : (st.disk.place found).2 ≠ place.2 :=
      fun hpath => h (Prod.ext htree hpath).symm
    rw [htree, Function.update_self, List.mem_cons]
    exact or_iff_right fun heq => hpath (Prod.mk.inj heq).1
  · rw [Function.update_of_ne htree]

/-- A directory is made on a writable mount, and so in another place. -/
theorem noOldRoot_mkdir {st st' : NsState Host} {p : Path} (h : NoOldRoot cwd rootfs host mounts st)
    (hmk : st.mkdir p = some st') : NoOldRoot cwd rootfs host mounts st' := by
  unfold NsState.mkdir at hmk
  split_ifs at hmk
  obtain ⟨place, hplace, rfl⟩ := Option.map_eq_some_iff.mp hmk
  unfold NsState.writableParent at hplace
  obtain ⟨c, hc, hwritable⟩ := Option.bind_eq_some_iff.mp hplace
  split_ifs at hwritable with hreadonly
  obtain rfl := Option.some.inj hwritable
  obtain ⟨hsplit, hpoint, -⟩ := MountTable.covering_spec hc
  have hmem : c.mount ∈ st.table := by
    rw [hsplit]
    simp
  have htree : c.mount.tree ≠ .rootfs := fun htree => hreadonly (h.readonly c.mount hmem htree)
  have hother : st.disk.place (c.mount.tree, p.drop c.mount.point.length) ≠
      st.disk.place (.rootfs, [oldRootName]) := by
    intro heq
    -- the new directory would be at the place itself, and its parent is read-only
    have hp : p = oldRootPlace cwd rootfs := by
      rw [← h.elsewhere c.mount hmem htree _ heq]
      obtain ⟨q, hq⟩ := hpoint.trans (List.dropLast_prefix p)
      rw [← hq, List.drop_left]
    obtain ⟨c', hc', hrootfs⟩ := covering_parent h
    have hparent : p.dropLast = locate cwd rootfs := by
      rw [hp]
      exact List.dropLast_concat
    rw [hparent, hc'] at hc
    obtain rfl := Option.some.inj hc
    exact htree hrootfs
  refine ⟨h.readonly, ?_, h.there, h.elsewhere, ⟨h.unshared.host, h.unshared.system,
    h.unshared.volume⟩⟩
  exact (isDir_withEntries hother).trans h.missing

theorem noOldRoot_step {c : NamespaceCmd} (hc : c.Beside cwd rootfs mounts)
    {st st' : NsState Host} (hstep : RootCmd.effect cwd (.setup c) st = some st')
    (h : NoOldRoot cwd rootfs host mounts st) : NoOldRoot cwd rootfs host mounts st' := by
  have heffect := effect_setup hstep
  have hmount : ∀ m : Mount CStr (Shown Host), st'.table = st.table ++ [m] →
      st'.disk = st.disk → m.tree ≠ .rootfs →
      (∀ q, st.disk.place (m.tree, q) ≠ st.disk.place (.rootfs, [oldRootName])) →
      ¬m.point <+: oldRootPlace cwd rootfs → NoOldRoot cwd rootfs host mounts st' := by
    intro m htable hdisk htree hother hpoint
    have hst : st' = { st with table := st.table ++ [m] } := by
      cases st'
      simp only at htable hdisk
      rw [htable, hdisk]
    rw [hst]
    exact noOldRoot_mount h htree hother hpoint
  cases c with
  | makePrivate => exact hc.elim
  | bindTree source target => exact hc.elim
  | remount target flags => exact hc.elim
  | mkdir path mode => exact noOldRoot_mkdir h hstep
  | mount fstype target flags options =>
      have hdisk := disk_of_setup (by simp) hstep
      exact hmount _ (Option.some.inj heffect).symm hdisk (by simp) (h.unshared.system fstype) hc
  | mountVolume mp target =>
      have hdisk := disk_of_setup (by simp) hstep
      obtain ⟨hmp, hpoint⟩ := hc
      have hother := h.unshared.volume mp hmp
      unfold NamespaceCmd.effect at heffect
      by_cases hbind : mp.bind = true
      · simp only [if_pos hbind] at heffect
        obtain ⟨cov, -, htable⟩ := Option.map_eq_some_iff.mp heffect
        exact hmount _ htable.symm hdisk (by simp) hother hpoint
      · simp only [if_neg hbind] at heffect
        exact hmount _ (Option.some.inj heffect).symm hdisk (by simp) hother hpoint

/-! ### The calls of the set-up -/

/-- The function's own file systems are mounted beside the place. -/
theorem beside_system (hfits : RootFits rootfs) :
    ∀ c ∈ systemMounts.flatMap (SystemMount.calls rootfs), c.Beside cwd rootfs mounts := by
  have hnames : systemMounts.all (fun m => decide (m.name.head? = some '/' ∧
      m.name.length ≤ "/.oldroot".length ∧ (Paths.relative m.name).ups = 0 ∧
      ¬(Paths.relative m.name).names <+: [oldRootName])) = true := by decide
  intro c hc
  obtain ⟨m, hm, hcalls⟩ := List.mem_flatMap.mp hc
  obtain ⟨habs, hlen, hups, hbeside⟩ := of_decide_eq_true (List.all_eq_true.mp hnames m hm)
  have hwhole : snprintf maxPathLen (rootfs ++ m.name) = rootfs ++ m.name := by
    refine snprintf_eq_self ?_
    rw [List.length_append]
    exact lt_of_le_of_lt (Nat.add_le_add_left hlen _) hfits.2
  have hpoint : locate cwd (snprintf maxPathLen (rootfs ++ m.name)) =
      locate cwd rootfs ++ (Paths.relative m.name).names := by
    rw [hwhole, Paths.locate_append hfits.1 habs, Paths.walk_down hups]
  rcases List.mem_cons.mp hcalls with rfl | hcalls
  · trivial
  · obtain rfl := List.mem_singleton.mp hcalls
    show ¬locate cwd (snprintf maxPathLen (rootfs ++ m.name)) <+: oldRootPlace cwd rootfs
    rw [hpoint]
    unfold oldRootPlace
    rw [List.prefix_append_right_inj]
    exact hbeside

theorem uses_mountVolumes {mps : List MountPoint}
    (hvolumes : ∀ mp ∈ mps, mp ∈ mounts ∧ ¬volumePoint cwd rootfs mp <+: oldRootPlace cwd rootfs) :
    (mountVolumes rootfs mps).Uses (NamespaceCmd.Beside cwd rootfs mounts) := by
  induction mps with
  | nil => trivial
  | cons mp rest ih =>
      refine ⟨trivial, fun _ => ⟨hvolumes mp List.mem_cons_self, fun ok => ?_⟩⟩
      cases ok with
      | false => trivial
      | true => exact ih fun mp hmp => hvolumes mp (List.mem_cons_of_mem _ hmp)

/-! ### The container that never starts -/

/-- A set-up that succeeds leaves no way to make the directory. -/
theorem wp_setup_noOldRoot {config : MountConfig} {disk : Disk Host}
    (hreadonly : config.readonlyRootfs = true) (hfits : RootFits config.rootfs)
    (hmissing : disk.isDir (.rootfs, [oldRootName]) = false)
    (hhost : ∀ m ∈ host, m.point ≠ oldRootPlace cwd config.rootfs)
    (hvolumes : ∀ mp ∈ config.mounts,
      ¬volumePoint cwd config.rootfs mp <+: oldRootPlace cwd config.rootfs)
    (hunshared : Unshared cwd config.rootfs host config.mounts disk) :
    Script.wp (RootCmd.effect cwd) ((namespaceSetupMounts config).lift .setup)
      (fun code st => code = .ok → NoOldRoot cwd config.rootfs host config.mounts st)
      ⟨hostMounts host, disk⟩ := by
  have hall : ∀ mp ∈ config.mounts, mp ∈ config.mounts ∧
      ¬volumePoint cwd config.rootfs mp <+: oldRootPlace cwd config.rootfs :=
    fun mp hmp => ⟨hmp, hvolumes mp hmp⟩
  have hrest : ∀ st : NsState Host, NoOldRoot cwd config.rootfs host config.mounts st →
      Script.wp (RootCmd.effect cwd)
        ((Script.tryAll (systemMounts.flatMap (SystemMount.calls config.rootfs))
          (mountVolumes config.rootfs config.mounts)).lift .setup)
        (fun code st => code = .ok → NoOldRoot cwd config.rootfs host config.mounts st) st := by
    intro st hst
    have huses : ((Script.tryAll (systemMounts.flatMap (SystemMount.calls config.rootfs))
        (mountVolumes config.rootfs config.mounts)).lift RootCmd.setup).Uses
          (fun c => ∃ c', c = .setup c' ∧ c'.Beside cwd config.rootfs config.mounts) := by
      rw [Script.uses_lift]
      refine Script.uses_mono (fun c hc => ⟨c, rfl, hc⟩) ?_
      exact Script.uses_tryAll (beside_system hfits) (uses_mountVolumes hall)
    have hkept : Script.wp (RootCmd.effect cwd) _
        (fun _ st => NoOldRoot cwd config.rootfs host config.mounts st) st :=
      Script.wp_of_uses (RootCmd.effect cwd)
        (by
          rintro c ⟨c', rfl, hbeside⟩ s s' hs h
          exact noOldRoot_step hbeside hs h)
        huses st hst
    refine Script.wp_mono (RootCmd.effect cwd) ?_ st hkept
    intro code st' h _
    exact h
  have hfail : ∀ st : NsState Host,
      CrCode.esyscall = .ok → NoOldRoot cwd config.rootfs host config.mounts st := by
    intro st h
    simp at h
  unfold namespaceSetupMounts
  rw [hreadonly]
  refine ⟨?_, hfail _⟩
  intro st₁ hprivate
  have htable₁ : hostMounts host = st₁.table := Option.some.inj (effect_setup hprivate)
  have hentries₁ : st₁.disk = disk := disk_of_setup (by simp) hprivate
  refine ⟨?_, hfail _⟩
  intro st₂ hbind
  have hentries₂ : st₂.disk = disk := (disk_of_setup (by simp) hbind).trans hentries₁
  have htree := effect_setup hbind
  rw [← htable₁] at htree
  obtain ⟨brought, hcarried, htable₂⟩ := Option.map_eq_some_iff.mp htree
  refine ⟨?_, hfail _⟩
  intro st₃ hremount
  have hentries₃ : st₃.disk = disk := (disk_of_setup (by simp) hremount).trans hentries₂
  have heffect := effect_setup hremount
  rw [← htable₂] at heffect
  have htable₃ : hostMounts host ++ remountTop brought = st₃.table :=
    Option.some.inj ((MountTable.remount_carried hcarried _).symm.trans heffect)
  refine hrest st₃ ?_
  have hst : st₃ = ⟨hostMounts host ++ remountTop brought, disk⟩ := by
    cases st₃
    simp only at htable₃ hentries₃
    rw [htable₃, hentries₃]
  rw [hst]
  exact noOldRoot_remounted hcarried hmissing hhost hunshared

/-- Without the directory there is no pivot. -/
theorem wp_pivot_noOldRoot (hfits : RootFits rootfs) {st : NsState Host}
    (h : NoOldRoot cwd rootfs host mounts st) :
    Script.wp (RootCmd.effect cwd) (namespacePivotRoot rootfs) (fun code _ => code ≠ .ok) st := by
  have hpivot : ∀ st : NsState Host, NoOldRoot cwd rootfs host mounts st →
      ∀ st', RootCmd.effect cwd
        (.pivotRoot rootfs (snprintf maxPathLen (rootfs ++ "/.oldroot".toList))) st ≠ some st' := by
    intro st h st' heffect
    have hdir := (effect_pivotRoot heffect).1
    unfold NsState.isDir at hdir
    rw [locate_oldRoot hfits] at hdir
    have hthere : st.table.lookup (locate cwd rootfs ++ [oldRootName]) =
        some (.rootfs, [oldRootName]) := h.there
    rw [hthere] at hdir
    rw [Option.any_some, h.missing] at hdir
    simp at hdir
  have hfail : CrCode.esyscall ≠ .ok := by simp
  refine ⟨?_, ?_⟩
  · intro st₁ hmkdir
    exact ⟨fun st' hst' => absurd hst' (hpivot st₁ (noOldRoot_mkdir h hmkdir) st'), hfail⟩
  · exact ⟨fun st' hst' => absurd hst' (hpivot st h st'), hfail⟩

/-- **A container with a read-only root file system starts only where the directory for the old
root is there before**: without it in the image, with nothing mounted over its place and nothing
else that shows the directory it would be in, no run of the two functions returns `CR_OK`. -/
theorem readonly_never_enters (cwd : Path) (host : MountTable CStr Host) (disk : Disk Host)
    (config : MountConfig) (faults : Nat → Bool) (hreadonly : config.readonlyRootfs = true)
    (hfits : RootFits config.rootfs) (hmissing : disk.isDir (.rootfs, [oldRootName]) = false)
    (hhost : ∀ m ∈ host, m.point ≠ oldRootPlace cwd config.rootfs)
    (hvolumes : ∀ mp ∈ config.mounts,
      ¬volumePoint cwd config.rootfs mp <+: oldRootPlace cwd config.rootfs)
    (hunshared : Unshared cwd config.rootfs host config.mounts disk) :
    (run (RootCmd.effect cwd) (enterRootfs config) ⟨⟨hostMounts host, disk⟩, faults⟩).1 ≠
      .ok := by
  have hsetup := Script.wp_run (RootCmd.effect cwd) (World.mk ⟨hostMounts host, disk⟩ faults)
    (wp_setup_noOldRoot hreadonly hfits hmissing hhost hvolumes hunshared)
  unfold enterRootfs
  rw [Script.run_bind]
  by_cases hok : (run (RootCmd.effect cwd) ((namespaceSetupMounts config).lift .setup)
      ⟨⟨hostMounts host, disk⟩, faults⟩).1 = .ok
  · rw [hok, if_neg (by simp)]
    exact Script.wp_run (RootCmd.effect cwd) _ (wp_pivot_noOldRoot hfits (hsetup hok))
  · rw [if_pos hok]
    exact hok

/-- A volume that shows the host's `/home`. -/
def homeVolume : MountPoint := ⟨"/home".toList, "/mnt".toList, [], true⟩

/-- Two volumes: the host's whole root, and one over the place of the old root seen through it. -/
def aliasVolumes : List MountPoint :=
  [⟨"/".toList, "/mnt".toList, [], true⟩, ⟨"/home".toList, "/mnt/r/.oldroot".toList, [], true⟩]

theorem small_unshared : Unshared [] "/r".toList smallNamespace [homeVolume] smallDisk := by
  have hplace : smallDisk.place (.rootfs, [oldRootName]) =
      (.host 0, ["r".toList, oldRootName]) := rfl
  refine ⟨?_, ?_, ?_⟩
  · intro m hm q hq
    rw [hplace] at hq
    obtain ⟨htree, hpath⟩ := Prod.mk.inj hq
    have hzero : m.tree = 0 := Shown.host.inj htree
    have hroot : ∀ m ∈ smallNamespace, m.tree = 0 → m.point = [] := by decide
    rw [hroot m hm hzero]
    exact hpath
  · intro fstype q hq
    exact absurd (Prod.mk.inj hq).1 (by simp [smallDisk, smallHome])
  · intro mp hmp q hq
    obtain rfl := List.mem_singleton.mp hmp
    have hother : (smallHome (.volume homeVolume.source)).1 ≠ (smallHome .rootfs).1 := by decide
    exact hother (Prod.mk.inj hq).1

/-- Nothing fails but what has to, and a read-only container does not start; a writable one
does, and so does a read-only one that has the directory made through a volume. -/
theorem small_readonly_never_enters :
    let w : World (NsState Nat) := ⟨⟨hostMounts smallNamespace, smallDisk⟩, fun _ => false⟩
    (run (RootCmd.effect []) (enterRootfs ⟨"/r".toList, false, [homeVolume]⟩) w).1 = .ok ∧
      (run (RootCmd.effect []) (enterRootfs ⟨"/r".toList, true, aliasVolumes⟩) w).1 = .ok ∧
      (run (RootCmd.effect []) (enterRootfs ⟨"/r".toList, true, [homeVolume]⟩) w).1 ≠ .ok :=
  ⟨by decide +kernel, by decide +kernel,
    readonly_never_enters [] smallNamespace smallDisk _ _ rfl ⟨by decide, by decide⟩ (by decide)
      (by decide) (by decide) small_unshared⟩

end Cruntime
