/-
Where the root file system and the volumes of a container come to lie.

`cmd_run` formats the image into `<image_dir>/images/<image>/rootfs`, and
`namespace_setup_mounts` appends the target of a volume to that.  Neither looks at what it is
given.  An image may lead out of the directory of the images by `..`, and so may a target out
of the root file system; a target that starts with no slash is not even below it, since its
first name runs into the last one of the root file system.  The function's own file systems
have the slash in their format.

The image and the targets are read on their own first: how far each goes up, and what it names
after that.  It stays inside when it names again what it went up through.
-/
import Cruntime.Namespace.Mounts
import Cruntime.RunOptions

namespace Cruntime

open Getopt (Result)
open Paths (Path Returns locate walk relative)

/-- The path of an image's root file system, in full. -/
def rootfsText (imageDir image : CStr) : CStr :=
  imageDir ++ "/images/".toList ++ image ++ "/rootfs".toList

/-- The directory of the images. -/
def imagesText (imageDir : CStr) : CStr := imageDir ++ "/images".toList

/-- A volume as `-v` writes it, host and target in full; the others are not recorded. -/
def volumeArgs (rs : List Result) : List (CStr × CStr) :=
  ((argsOf 'v' rs).filterMap fun arg => strchr arg ':').take maxMounts

/-- The root file system is below the directory of the images, every volume is mounted on it or
below it, and none of these paths is cut. -/
structure Confined (cwd : Path) (imageDir image : CStr) (volumes : List (CStr × CStr))
    (config : ContainerConfig) : Prop where
  rootfs_whole : config.rootfs = rootfsText imageDir image
  rootfs_below : locate cwd (imagesText imageDir) <+: locate cwd config.rootfs
  rootfs_strict : locate cwd (imagesText imageDir) ≠ locate cwd config.rootfs
  volumes_whole : List.Forall₂ (fun arg mp =>
    volumeTarget config.rootfs mp = config.rootfs ++ arg.2) volumes config.mounts
  volumes_below : ∀ mp ∈ config.mounts,
    locate cwd config.rootfs <+: volumePoint cwd config.rootfs mp

/-- What the image and the targets have to be for that. -/
structure StaysInside (cwd : Path) (imageDir image : CStr) (volumes : List (CStr × CStr)) :
    Prop where
  rootfs_fits : (rootfsText imageDir image).length < maxPathLen
  image_returns : Returns (locate cwd (imagesText imageDir)) [] image
  volumes_fit : ∀ arg ∈ volumes, (rootfsText imageDir image ++ arg.2).length < maxPathLen
  volumes_return : ∀ arg ∈ volumes, Returns (walk (locate cwd (imagesText imageDir)) image)
    ["rootfs".toList] ("rootfs".toList ++ arg.2)

/-! ### Where the paths lead -/

/-- What is appended to the path of a root file system is walked behind the image. -/
theorem locate_rootfsText (cwd : Path) (imageDir image t : CStr) :
    locate cwd (rootfsText imageDir image ++ t) =
      walk (walk (locate cwd (imagesText imageDir)) image) ("rootfs".toList ++ t) := by
  have htext : rootfsText imageDir image ++ t =
      imagesText imageDir ++ ('/' :: (image ++ '/' :: ("rootfs".toList ++ t))) := by
    unfold rootfsText imagesText
    simp
  have hne : imagesText imageDir ≠ [] := by
    unfold imagesText
    simp
  rw [htext, Paths.locate_append hne rfl, Paths.walk_slash, Paths.walk_append]

theorem walk_rootfs (dir : Path) : walk dir "rootfs".toList = dir ++ ["rootfs".toList] :=
  Paths.walk_name (by decide) dir

theorem locate_rootfs (cwd : Path) (imageDir image : CStr) :
    locate cwd (rootfsText imageDir image) =
      walk (locate cwd (imagesText imageDir)) image ++ ["rootfs".toList] := by
  have hwalk := locate_rootfsText cwd imageDir image []
  rw [List.append_nil, List.append_nil, walk_rootfs] at hwalk
  exact hwalk

/-- The root file system is below the images exactly when the image leads to them or below. -/
theorem rootfs_below_iff {cwd : Path} {imageDir image : CStr} :
    (locate cwd (imagesText imageDir) <+: locate cwd (rootfsText imageDir image) ∧
      locate cwd (imagesText imageDir) ≠ locate cwd (rootfsText imageDir image)) ↔
      Returns (locate cwd (imagesText imageDir)) [] image := by
  rw [Paths.returns_iff, List.append_nil, locate_rootfs, List.prefix_concat_iff]
  constructor
  · rintro ⟨heq | hbelow, hne⟩
    · exact absurd heq hne
    · exact hbelow
  · intro hbelow
    refine ⟨Or.inr hbelow, ?_⟩
    intro heq
    have hlen := hbelow.length_le
    have hlonger := congrArg List.length heq
    rw [List.length_append, List.length_singleton] at hlonger
    omega

/-- A volume is mounted on the root file system or below it exactly when its target, behind the
name of the root file system, leads back there. -/
theorem volume_below_iff {cwd : Path} {imageDir image target : CStr} :
    locate cwd (rootfsText imageDir image) <+: locate cwd (rootfsText imageDir image ++ target) ↔
      Returns (walk (locate cwd (imagesText imageDir)) image) ["rootfs".toList]
        ("rootfs".toList ++ target) := by
  rw [Paths.returns_iff, locate_rootfs, locate_rootfsText]

/-! ### What is cut -/

/-- What `-v` records of a volume. -/
def mountOf (arg : CStr × CStr) : MountPoint :=
  ⟨strncpy arg.1 4095, strncpy arg.2 4095, "bind".toList, true⟩

/-- That the target was cut on its own makes no difference. -/
theorem volumeTarget_mountOf (rootfs : CStr) (arg : CStr × CStr) :
    volumeTarget rootfs (mountOf arg) = snprintf maxPathLen (rootfs ++ arg.2) := by
  unfold volumeTarget mountOf snprintf strncpy maxPathLen
  rw [List.take_append, List.take_append, List.take_take]
  congr 2
  omega

theorem mounts_of_fold {m : Machine} {rs : List Result} {st : RunState}
    (hfold : rs.foldlM (runBody m) (runStart m) = .ok st) :
    st.config.mounts = (volumeArgs rs).map mountOf := by
  have hmounts := (runBody_fold_computed hfold).mounts
  have hcollect := foldl_collect maxMounts parseVolume (argsOf 'v' rs) []
  have hparse : (argsOf 'v' rs).filterMap parseVolume =
      ((argsOf 'v' rs).filterMap fun arg => strchr arg ':').map mountOf := by
    rw [List.map_filterMap]
    rfl
  rw [hparse, List.nil_append, ← List.map_take] at hcollect
  exact hmounts.trans hcollect

/-! ### When everything stays inside -/

/-- The paths of the configuration that `cmd_run` hands over. -/
theorem paths_of_run {m : Machine} {ctx : RuntimeCtx} {g g' : Getopt.State}
    (hg : Getopt.Settled g) {rs : List Result} {image : CStr} {command : List CStr}
    (hx : runOptions g = some (rs, some g')) (htail : g'.argv.drop g'.optind = image :: command)
    {st : RunState} (hrun : cmdRun m ctx g = some (.creates st)) :
    st.config.rootfs = snprintf maxPathLen (rootfsText ctx.imageDir image) ∧
      st.config.mounts = (volumeArgs rs).map mountOf := by
  rcases cmdRun_cases m ctx hg hx with ⟨-, hout⟩ | ⟨-, -, hout⟩ |
    ⟨-, g'', image', command', st', hstop, htail', hfold, -, hout⟩
  · rw [hout] at hrun
    simp at hrun
  · rw [hout] at hrun
    simp at hrun
  · obtain rfl := Option.some.inj hstop
    obtain ⟨rfl, rfl⟩ := List.cons.inj (htail.symm.trans htail')
    rw [hout] at hrun
    obtain rfl := RunOutcome.creates.inj (Option.some.inj hrun)
    have hmounts := mounts_of_fold hfold
    cases command with
    | nil => exact ⟨rfl, hmounts⟩
    | cons cmd args => exact ⟨rfl, hmounts⟩

/-- The same of a configuration with such paths. -/
theorem confined_config_iff {cwd : Path} {imageDir image : CStr} {volumes : List (CStr × CStr)}
    {config : ContainerConfig}
    (hrootfs : config.rootfs = snprintf maxPathLen (rootfsText imageDir image))
    (hmounts : config.mounts = volumes.map mountOf) :
    Confined cwd imageDir image volumes config ↔ StaysInside cwd imageDir image volumes := by
  have hmax : 0 < maxPathLen := by decide
  have hfits : config.rootfs = rootfsText imageDir image ↔
      (rootfsText imageDir image).length < maxPathLen := by
    rw [hrootfs, snprintf_eq_self_iff hmax]
  have hbelow := @rootfs_below_iff cwd imageDir image
  -- a volume, where the path of the root file system is whole
  have htarget : config.rootfs = rootfsText imageDir image → ∀ arg,
      volumeTarget config.rootfs (mountOf arg) = config.rootfs ++ arg.2 ↔
        (rootfsText imageDir image ++ arg.2).length < maxPathLen := by
    intro hwhole arg
    rw [hwhole, volumeTarget_mountOf, snprintf_eq_self_iff hmax]
  have hpoint : config.rootfs = rootfsText imageDir image → ∀ arg,
      volumeTarget config.rootfs (mountOf arg) = config.rootfs ++ arg.2 →
        (locate cwd config.rootfs <+: volumePoint cwd config.rootfs (mountOf arg) ↔
          Returns (walk (locate cwd (imagesText imageDir)) image) ["rootfs".toList]
            ("rootfs".toList ++ arg.2)) := by
    intro hwhole arg htarget
    unfold volumePoint
    rw [htarget, hwhole, volume_below_iff]
  constructor
  · rintro ⟨hwhole, hunder, hstrict, htargets, hpoints⟩
    rw [hmounts, List.forall₂_map_right_iff, List.forall₂_same] at htargets
    rw [hmounts, List.forall_mem_map] at hpoints
    refine ⟨hfits.mp hwhole, ?_, ?_, ?_⟩
    · rw [hwhole] at hunder hstrict
      exact hbelow.mp ⟨hunder, hstrict⟩
    · intro arg harg
      exact (htarget hwhole arg).mp (htargets arg harg)
    · intro arg harg
      exact (hpoint hwhole arg (htargets arg harg)).mp (hpoints arg harg)
  · rintro ⟨hfit, hreturns, hvolumes, hback⟩
    have hwhole := hfits.mpr hfit
    obtain ⟨hunder, hstrict⟩ := hbelow.mpr hreturns
    rw [← hwhole] at hunder hstrict
    refine ⟨hwhole, hunder, hstrict, ?_, ?_⟩
    · rw [hmounts, List.forall₂_map_right_iff, List.forall₂_same]
      intro arg harg
      exact (htarget hwhole arg).mpr (hvolumes arg harg)
    · rw [hmounts, List.forall_mem_map]
      intro arg harg
      have htext := (htarget hwhole arg).mpr (hvolumes arg harg)
      exact (hpoint hwhole arg htext).mpr (hback arg harg)

/-- **The paths of a container are confined exactly when none is cut, the image leads back to the
images, and every target leads back to the root file system.** -/
theorem confined_iff (cwd : Path) (m : Machine) (ctx : RuntimeCtx) {g g' : Getopt.State}
    (hg : Getopt.Settled g) {rs : List Result} {image : CStr} {command : List CStr}
    (hx : runOptions g = some (rs, some g')) (htail : g'.argv.drop g'.optind = image :: command)
    {st : RunState} (hrun : cmdRun m ctx g = some (.creates st)) :
    Confined cwd ctx.imageDir image (volumeArgs rs) st.config ↔
      StaysInside cwd ctx.imageDir image (volumeArgs rs) := by
  obtain ⟨hrootfs, hmounts⟩ := paths_of_run hg hx htail hrun
  exact confined_config_iff hrootfs hmounts

/-- **What does not lead above itself stays inside**: an image without a step up, and targets that
start with a slash and have none either. -/
theorem staysInside_of_down {cwd : Path} {imageDir image : CStr} {volumes : List (CStr × CStr)}
    (hfit : (rootfsText imageDir image).length < maxPathLen)
    (himage : (relative image).ups = 0)
    (hfits : ∀ arg ∈ volumes, (rootfsText imageDir image ++ arg.2).length < maxPathLen)
    (habs : ∀ arg ∈ volumes, arg.2.head? = some '/')
    (hdown : ∀ arg ∈ volumes, (relative arg.2).ups = 0) :
    StaysInside cwd imageDir image volumes := by
  refine ⟨hfit, ?_, hfits, ?_⟩
  · rw [Paths.returns_iff, List.append_nil, Paths.walk_down himage]
    exact List.prefix_append _ _
  · intro arg harg
    rw [Paths.returns_iff, Paths.walk_append_slash (habs arg harg), walk_rootfs,
      Paths.walk_down (hdown arg harg)]
    exact List.prefix_append _ _

/-- `run -v /srv/data:<target> ubuntu`. -/
def volumeWords (target : CStr) : List CStr :=
  ["-v".toList, "/srv/data:".toList ++ target, "ubuntu".toList]

/-- A target below the root file system. -/
theorem confined_absolute_target :
    ∃ st, cmdRun ⟨[], 0, 0, 0, .ok, 0⟩ defaultCtx (parserAtRun (volumeWords "/data".toList)) =
        some (.creates st) ∧
      Confined [] defaultCtx.imageDir "ubuntu".toList
        (volumeArgs [.opt 'v' (some "/srv/data:/data".toList)]) st.config := by
  obtain ⟨g', hx, htail⟩ : ∃ g', runOptions (parserAtRun (volumeWords "/data".toList)) =
      some ([.opt 'v' (some "/srv/data:/data".toList)], some g') ∧
      g'.argv.drop g'.optind = ["ubuntu".toList] := ⟨_, rfl, rfl⟩
  obtain ⟨st, hrun⟩ : ∃ st, cmdRun ⟨[], 0, 0, 0, .ok, 0⟩ defaultCtx
      (parserAtRun (volumeWords "/data".toList)) = some (.creates st) := ⟨_, rfl⟩
  refine ⟨st, hrun, (confined_iff [] _ _ (settled_parserAtRun _) hx htail hrun).mpr ?_⟩
  exact ⟨by decide, by decide, by decide, by decide⟩

/-- A target without a slash is mounted beside the root file system. -/
theorem relative_target_beside_rootfs :
    ¬∀ (cwd : Path) (m : Machine) (ctx : RuntimeCtx) (g g' : Getopt.State) (rs : List Result)
      (image : CStr) (command : List CStr) (st : RunState), Getopt.Settled g →
      runOptions g = some (rs, some g') → g'.argv.drop g'.optind = image :: command →
      cmdRun m ctx g = some (.creates st) →
      Confined cwd ctx.imageDir image (volumeArgs rs) st.config := by
  intro hall
  obtain ⟨g', hx, htail⟩ : ∃ g', runOptions (parserAtRun (volumeWords "data".toList)) =
      some ([.opt 'v' (some "/srv/data:data".toList)], some g') ∧
      g'.argv.drop g'.optind = ["ubuntu".toList] := ⟨_, rfl, rfl⟩
  obtain ⟨st, hrun⟩ : ∃ st, cmdRun ⟨[], 0, 0, 0, .ok, 0⟩ defaultCtx
      (parserAtRun (volumeWords "data".toList)) = some (.creates st) := ⟨_, rfl⟩
  have hsettled := settled_parserAtRun (volumeWords "data".toList)
  have hconfined := hall [] _ defaultCtx _ g' _ _ _ st hsettled hx htail hrun
  obtain ⟨hrootfs, hmounts⟩ := paths_of_run hsettled hx htail hrun
  have hinside := (confined_config_iff hrootfs hmounts).mp hconfined
  exact absurd (hinside.volumes_return ("/srv/data".toList, "data".toList) (by decide)) (by decide)

end Cruntime
