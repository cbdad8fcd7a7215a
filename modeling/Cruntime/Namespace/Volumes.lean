/-
Which volumes of a container can be seen.

The volumes are mounted in the order of the command line, and what is mounted later hides what
it is mounted over.  The function's own file systems go parents first, `/dev` before
`/dev/pts`; the volumes go as they come, so that a volume for `/data` hides an earlier one for
`/data/sub`, and the run succeeds.

A volume shows at its place exactly when the last of the volumes mounted at or above that place
is mounted right there, with the same source.  Where every target is mounted where it says and
no two are the same, this comes down to the order: no volume is followed by one whose target is
above its own.
-/
import Cruntime.Namespace.Mounts

namespace Cruntime

open Paths (Path locate resolve relative)
open Script (run)

variable {Host : Type} {cwd : Path}

/-- Where a volume should be: its target, resolved inside the root file system. -/
def volumePlace (cwd : Path) (rootfs : CStr) (mp : MountPoint) : Path :=
  locate cwd rootfs ++ resolve mp.target

/-- At its place is the root of a volume's source. -/
def Visible (cwd : Path) (rootfs : CStr) (final : MountTable CStr (Shown Host))
    (mp : MountPoint) : Prop :=
  final.lookup (volumePlace cwd rootfs mp) = some (.volume mp.source, [])

/-- Of the volumes mounted at or above the place of one, the last is mounted right there, with
the same source. -/
def LastThere (cwd : Path) (rootfs : CStr) (mounts : List MountPoint) (mp : MountPoint) : Prop :=
  ∃ before top after, mounts = before ++ top :: after ∧ top.source = mp.source ∧
    volumePoint cwd rootfs top = volumePlace cwd rootfs mp ∧
    ∀ later ∈ after, ¬volumePoint cwd rootfs later <+: volumePlace cwd rootfs mp

/-! ### What is found is one of the volumes -/

/-- Two lists with the same images come apart at the same place. -/
theorem split_of_map_eq {α β γ : Type} {f : α → γ} {g : β → γ} {l : List α} {l' : List β}
    (h : l.map f = l'.map g) {before : List α} {x : α} {after : List α}
    (hl : l = before ++ x :: after) :
    ∃ before' y after', l' = before' ++ y :: after' ∧ g y = f x ∧
      ∀ y' ∈ after', ∃ x' ∈ after, f x' = g y' := by
  rw [hl, List.map_append, List.map_cons] at h
  obtain ⟨before', rest, rfl, -, hrest⟩ := List.map_eq_append_iff.mp h.symm
  obtain ⟨y, after', rfl, hy, hafter⟩ := List.map_eq_cons_iff.mp hrest
  refine ⟨before', y, after', rfl, hy, ?_⟩
  intro y' hy'
  have hmem := List.mem_map_of_mem (f := g) hy'
  rw [hafter] at hmem
  exact List.mem_map.mp hmem

/-- A mount that is none of the volumes'. -/
def NotVolume (m : Mount CStr (Shown Host)) : Prop := ∀ source, m.tree ≠ .volume source

theorem lookup_ne_volume {table : MountTable CStr (Shown Host)} (h : ∀ m ∈ table, NotVolume m)
    {p rest : Path} {source : CStr} : table.lookup p ≠ some (.volume source, rest) := by
  intro hlookup
  obtain ⟨m, hm, htree⟩ := MountTable.mem_of_lookup hlookup
  exact h m hm source htree

theorem notVolume_hostMounts (table : MountTable CStr Host) :
    ∀ m ∈ hostMounts table, NotVolume m := by
  intro m hm source
  obtain ⟨m, -, rfl⟩ := List.mem_map.mp hm
  simp

theorem notVolume_brought {config : MountConfig} {table : MountTable CStr Host}
    {brought : MountTable CStr (Shown Host)}
    (h : (hostMounts table).carried (locate cwd config.rootfs) (locate cwd config.rootfs) .rootfs =
      some brought) :
    ∀ m ∈ (if config.readonlyRootfs then remountTop brought else brought), NotVolume m := by
  obtain ⟨c, hc, rfl⟩ := Option.map_eq_some_iff.mp h
  intro m hm
  have hcases : m.tree = .rootfs ∨ ∃ x ∈ c.since, x.tree = m.tree := by
    unfold remountTop at hm
    rw [List.modifyHead_cons] at hm
    split_ifs at hm
    all_goals
      rcases List.mem_cons.mp hm with rfl | hm
      · exact Or.inl rfl
      · obtain ⟨x, hsub, rfl⟩ := List.mem_map.mp hm
        exact Or.inr ⟨x, (List.mem_filter.mp hsub).1, rfl⟩
  intro source
  rcases hcases with htree | ⟨x, hx, htree⟩
  · rw [htree]
    simp
  · have hmem : x ∈ hostMounts table := by
      rw [(MountTable.covering_spec hc).1]
      simp [hx]
    rw [← htree]
    exact notVolume_hostMounts table x hmem source

/-! ### When a volume is seen -/

/-- **After a successful run a volume is seen exactly when the last of those at or above its place
is mounted right there with its source.** -/
theorem visible_iff {config : MountConfig} {table : MountTable CStr Host}
    {final brought system volumes : MountTable CStr (Shown Host)}
    (h : SetUp cwd config (hostMounts table) final brought system volumes) (mp : MountPoint) :
    Visible cwd config.rootfs final mp ↔ LastThere cwd config.rootfs config.mounts mp := by
  have hbase : ∀ m ∈ hostMounts table ++
      (if config.readonlyRootfs then remountTop brought else brought) ++ system, NotVolume m := by
    intro m hm
    rcases List.mem_append.mp hm with hm | hm
    · rcases List.mem_append.mp hm with hm | hm
      · exact notVolume_hostMounts table m hm
      · exact notVolume_brought h.carried m hm
    · intro source
      obtain ⟨fstype, htree⟩ := h.system_trees m hm
      rw [htree]
      simp
  have hvolumes : Visible cwd config.rootfs final mp ↔
      volumes.lookup (volumePlace cwd config.rootfs mp) = some (.volume mp.source, []) := by
    unfold Visible
    rw [h.final_eq, MountTable.lookup_append, Option.or_eq_some_iff]
    exact or_iff_left fun hearlier => lookup_ne_volume hbase hearlier.2
  rw [hvolumes, MountTable.lookup_eq_root_iff]
  unfold LastThere
  constructor
  · rintro ⟨before, m, since, hsplit, htree, hpoint, hsince⟩
    obtain ⟨before', top, after, hmounts, htop, hafter⟩ := split_of_map_eq h.volumes_eq hsplit
    obtain ⟨hpoint', htree'⟩ := Prod.mk.inj htop
    refine ⟨before', top, after, hmounts, ?_, hpoint'.trans hpoint, ?_⟩
    · exact Shown.volume.inj (htree'.trans htree)
    · intro later hlater
      obtain ⟨x, hx, heq⟩ := hafter later hlater
      have hxpoint : x.point = volumePoint cwd config.rootfs later := (Prod.mk.inj heq).1
      exact hxpoint ▸ hsince x hx
  · rintro ⟨before, top, after, hmounts, hsource, hpoint, hlast⟩
    obtain ⟨before', m, since, hsplit, hm, hsince⟩ := split_of_map_eq h.volumes_eq.symm hmounts
    obtain ⟨hpoint', htree'⟩ := Prod.mk.inj hm
    refine ⟨before', m, since, hsplit, ?_, hpoint'.trans hpoint, ?_⟩
    · rw [htree', hsource]
    · intro x hx
      obtain ⟨later, hlater, heq⟩ := hsince x hx
      have hxpoint : volumePoint cwd config.rootfs later = x.point := (Prod.mk.inj heq).1
      exact hxpoint ▸ hlast later hlater

/-! ### Plain targets -/

/-- A target that is absolute, fits behind the root file system and does not lead above itself is
mounted where it says. -/
theorem volumePoint_eq_place {rootfs : CStr} {mp : MountPoint} (hroot : rootfs ≠ [])
    (habs : mp.target.head? = some '/') (hfit : rootfs.length + mp.target.length < maxPathLen)
    (hdown : (relative mp.target).ups = 0) :
    volumePoint cwd rootfs mp = volumePlace cwd rootfs mp := by
  have hwhole : volumeTarget rootfs mp = rootfs ++ mp.target :=
    snprintf_eq_self (by rwa [List.length_append])
  unfold volumePoint volumePlace resolve
  rw [hwhole, Paths.locate_append hroot habs, Paths.walk_down hdown, Paths.walk_down hdown,
    List.nil_append]

theorem lastThere_cons {rootfs : CStr} {m mp : MountPoint} {rest : List MountPoint}
    (h : LastThere cwd rootfs rest mp) : LastThere cwd rootfs (m :: rest) mp := by
  obtain ⟨before, top, after, rfl, htop⟩ := h
  exact ⟨m :: before, top, after, rfl, htop⟩

/-- The first volume of a list does not stand for one that is mounted elsewhere. -/
theorem lastThere_of_cons {rootfs : CStr} {m mp : MountPoint} {rest : List MountPoint}
    (hne : volumePoint cwd rootfs m ≠ volumePlace cwd rootfs mp)
    (h : LastThere cwd rootfs (m :: rest) mp) : LastThere cwd rootfs rest mp := by
  obtain ⟨before, top, after, hsplit, hsource, hpoint, hlast⟩ := h
  rcases List.cons_eq_append_iff.mp hsplit with ⟨-, htop⟩ | ⟨before', -, hrest⟩
  · rw [(List.cons.inj htop).1] at hpoint
    exact absurd hpoint hne
  · exact ⟨before', top, after, hrest, hsource, hpoint, hlast⟩

/-- **Where the targets are mounted where they say and no two are the same, only the order
counts**: no volume may be followed by one whose target is above its own. -/
theorem lastThere_iff_ordered {rootfs : CStr} {mounts : List MountPoint}
    (hplain : ∀ mp ∈ mounts, volumePoint cwd rootfs mp = volumePlace cwd rootfs mp)
    (hdistinct : mounts.Pairwise fun mp mp' => resolve mp.target ≠ resolve mp'.target) :
    (∀ mp ∈ mounts, LastThere cwd rootfs mounts mp) ↔
      mounts.Pairwise fun earlier later => ¬resolve later.target <+: resolve earlier.target := by
  have habove : ∀ later ∈ mounts, ∀ mp, volumePoint cwd rootfs later <+: volumePlace cwd rootfs mp ↔
      resolve later.target <+: resolve mp.target := by
    intro later hlater mp
    rw [hplain later hlater]
    exact List.prefix_append_right_inj _
  induction mounts with
  | nil => simp
  | cons m rest ih =>
      obtain ⟨hne, hrest⟩ := List.pairwise_cons.mp hdistinct
      have hplace : ∀ mp ∈ rest, volumePlace cwd rootfs m ≠ volumePlace cwd rootfs mp := by
        intro mp hmp heq
        exact hne mp hmp (List.append_cancel_left heq)
      have hih : (∀ mp ∈ rest, LastThere cwd rootfs rest mp) ↔ _ :=
        ih (fun mp hmp => hplain mp (by simp [hmp])) hrest
          fun later hlater => habove later (by simp [hlater])
      rw [List.pairwise_cons, ← hih]
      constructor
      · intro h
        refine ⟨?_, ?_⟩
        · intro later hlater hcovers
          obtain ⟨before, top, after, hsplit, -, hpoint, hlast⟩ := h m (by simp)
          rcases List.cons_eq_append_iff.mp hsplit with ⟨-, htop⟩ | ⟨before', -, htop⟩
          · have hlater' : later ∈ after := by rwa [(List.cons.inj htop).2]
            exact hlast later hlater' ((habove later (by simp [hlater]) m).mpr hcovers)
          · have hmem : top ∈ rest := by
              rw [htop]
              simp
            rw [hplain top (by simp [hmem])] at hpoint
            exact hplace top hmem hpoint.symm
        · intro mp hmp
          refine lastThere_of_cons ?_ (h mp (by simp [hmp]))
          rw [hplain m (by simp)]
          exact hplace mp hmp
      · rintro ⟨hhead, htail⟩ mp hmp
        rcases List.mem_cons.mp hmp with rfl | hmp
        · refine ⟨[], mp, rest, rfl, rfl, hplain mp (by simp), ?_⟩
          intro later hlater hcovers
          exact hhead later hlater ((habove later (by simp [hlater]) mp).mp hcovers)
        · exact lastThere_cons (htail mp hmp)

/-- **Volumes whose targets are plain and different are all seen exactly when none is followed by
one whose target is above its own.** -/
theorem plain_volumes_visible_iff {config : MountConfig} {table : MountTable CStr Host}
    {final brought system volumes : MountTable CStr (Shown Host)}
    (h : SetUp cwd config (hostMounts table) final brought system volumes)
    (hroot : config.rootfs ≠ []) (habs : ∀ mp ∈ config.mounts, mp.target.head? = some '/')
    (hfit : ∀ mp ∈ config.mounts, config.rootfs.length + mp.target.length < maxPathLen)
    (hdown : ∀ mp ∈ config.mounts, (relative mp.target).ups = 0)
    (hdistinct : config.mounts.Pairwise fun mp mp' => resolve mp.target ≠ resolve mp'.target) :
    (∀ mp ∈ config.mounts, Visible cwd config.rootfs final mp) ↔
      config.mounts.Pairwise fun earlier later =>
        ¬resolve later.target <+: resolve earlier.target := by
  have hplain : ∀ mp ∈ config.mounts,
      volumePoint cwd config.rootfs mp = volumePlace cwd config.rootfs mp := by
    intro mp hmp
    exact volumePoint_eq_place hroot (habs mp hmp) (hfit mp hmp) (hdown mp hmp)
  rw [← lastThere_iff_ordered hplain hdistinct]
  exact forall₂_congr fun mp _ => visible_iff h mp

/-! ### Every volume -/

/-- **Every volume is seen exactly when for each of them the last volume mounted at or above its
place is mounted right there, with the same source.** -/
theorem volumes_visible_iff (cwd : Path) (table : MountTable CStr Host) (config : MountConfig)
    (faults : Nat → Bool)
    (hok : (run (NamespaceCmd.effect cwd) (namespaceSetupMounts config)
      ⟨hostMounts table, faults⟩).1 = .ok) :
    (∀ mp ∈ config.mounts, Visible cwd config.rootfs
      (run (NamespaceCmd.effect cwd) (namespaceSetupMounts config)
        ⟨hostMounts table, faults⟩).2.state mp) ↔
      ∀ mp ∈ config.mounts, LastThere cwd config.rootfs config.mounts mp := by
  obtain ⟨brought, system, volumes, hsetUp⟩ := namespaceSetupMounts_spec _ hok
  exact forall₂_congr fun mp _ => visible_iff hsetUp mp

/-- Two volumes, the one below the other's target last. -/
def sampleVolumes : List MountPoint :=
  [⟨"/b".toList, "/data".toList, "bind".toList, true⟩,
    ⟨"/a".toList, "/data/sub".toList, "bind".toList, true⟩]

/-- A host with nothing but its root mounted. -/
def sampleHost : MountTable CStr Unit := [⟨[], (), .none⟩]

theorem sampleVolumes_lastThere :
    ∀ mp ∈ sampleVolumes, LastThere [] "/r".toList sampleVolumes mp := by
  have hpoints : sampleVolumes.all (fun mp =>
      volumePoint [] "/r".toList mp == volumePlace [] "/r".toList mp) = true := by decide
  refine (lastThere_iff_ordered ?_ (by decide)).mpr (by decide)
  intro mp hmp
  exact eq_of_beq (List.all_eq_true.mp hpoints mp hmp)

/-- The outer volume first: the inner one is seen. -/
theorem volumes_visible_outer_first :
    Visible [] "/r".toList
      (run (NamespaceCmd.effect []) (namespaceSetupMounts ⟨"/r".toList, false, sampleVolumes⟩)
        ⟨hostMounts sampleHost, fun _ => false⟩).2.state
      ⟨"/a".toList, "/data/sub".toList, "bind".toList, true⟩ :=
  (volumes_visible_iff [] sampleHost ⟨"/r".toList, false, sampleVolumes⟩ (fun _ => false)
    (by decide)).mpr sampleVolumes_lastThere _ (by decide)

/-- The outer volume last: the inner one is hidden, and the run succeeds. -/
theorem outer_volume_hides_inner :
    ¬∀ (cwd : Path) (table : MountTable CStr Unit) (config : MountConfig) (faults : Nat → Bool),
      (∀ mp ∈ config.mounts, mp.target.head? = some '/') →
      config.mounts.Pairwise (fun mp mp' => resolve mp.target ≠ resolve mp'.target) →
      (run (NamespaceCmd.effect cwd) (namespaceSetupMounts config)
        ⟨hostMounts table, faults⟩).1 = .ok →
      ∀ mp ∈ config.mounts, Visible cwd config.rootfs
        (run (NamespaceCmd.effect cwd) (namespaceSetupMounts config)
          ⟨hostMounts table, faults⟩).2.state mp := by
  intro hall
  have hseen := hall [] sampleHost ⟨"/r".toList, false, sampleVolumes.reverse⟩ (fun _ => false)
    (by decide) (by decide) (by decide) ⟨"/a".toList, "/data/sub".toList, "bind".toList, true⟩
    (by decide)
  have hhidden : (run (NamespaceCmd.effect [])
      (namespaceSetupMounts ⟨"/r".toList, false, sampleVolumes.reverse⟩)
      ⟨hostMounts sampleHost, fun _ => false⟩).2.state.lookup
        ["r".toList, "data".toList, "sub".toList] =
      some (.volume "/b".toList, ["sub".toList]) := by decide
  have hplace : volumePlace [] "/r".toList ⟨"/a".toList, "/data/sub".toList, "bind".toList, true⟩ =
      ["r".toList, "data".toList, "sub".toList] := by decide
  unfold Visible at hseen
  rw [hplace, hhidden] at hseen
  exact absurd hseen (by decide)

end Cruntime
