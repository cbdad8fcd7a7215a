/-
The storage of all containers, over whole runs.

Containers share the layers of their images and each writes to an upper directory of its own.
That is meant to be as good as a copy for each: `Copies` is a store in which every container has
the files of its image to itself and a commit puts a copy of them aside.  `store_refines_copies`
says that the layers under `image_dir` show what the copies hold, in every run of the functions
of `storage.c` and of what the containers write meanwhile.

A run has to keep to what the functions do not look after themselves (`Usual`): a layer id is not
used twice, a container id starts with no workspace left over and stays with its image, a commit
keeps what it copies (`CommitKeeps`), and the option string of a mount is short enough for the
kernel (`Named`).

An overlay shows the directories that the kernel reads from its option string, which need not be
those that were meant.  The string is the one of `storage_mount_overlay`, with what its buffers
cut (`mountOverlay_of_run`), and `mount(2)` reads one page of it.
-/
import Cruntime.Lib.Runs
import Cruntime.Storage.Layers
import Cruntime.Storage.Mount

namespace Cruntime

open Overlay
open Script (run)

variable {F A : Type}

/-! ### What the kernel is told -/

/-- The bytes of its options that `mount(2)` reads, the one that ends them included. -/
def pageSize : Nat := 4096

def received (options : CStr) : CStr := options.take (pageSize - 1)

/-- `<image_dir>/layers/`. -/
def layersOf (imageDir : CStr) : CStr := imageDir ++ "/layers/".toList

/-- An image of the layers with these ids. -/
def imageAt (imageDir : CStr) (image : List CStr) : ContainerImage :=
  ⟨image.map fun layerId => ⟨layersOf imageDir ++ layerId⟩⟩

/-- The directories that the kernel reads from the options of a mount; `none` when they do not
name all that an overlay has. -/
def told (imageDir : CStr) (image : List CStr) (containerId : CStr) : Option OverlayDirs :=
  decodeOptions (received (mountOptions imageDir containerId (imageAt imageDir image)))

/-- The directories that are meant. -/
def meant (imageDir : CStr) (image : List CStr) (containerId : CStr) : OverlayDirs :=
  overlayDirs imageDir containerId (imageAt imageDir image)

/-- Ids and paths that the option string can name, all of them in one page. -/
structure Named (imageDir : CStr) (image : List CStr) (containerId : CStr) : Prop where
  dir : Plain imageDir
  id : Plain containerId
  any : image ≠ []
  layers : ∀ layerId ∈ image, Plain layerId
  fits : (meant imageDir image containerId).text.length < pageSize

namespace Named

variable {imageDir containerId : CStr} {image : List CStr}

theorem plainLayers (h : Named imageDir image containerId) :
    PlainLayers (imageAt imageDir image) := by
  have hnames : Plain "/layers/".toList := by decide
  refine ⟨by simpa [imageAt] using h.any, ?_, ?_⟩
  · intro l hl
    obtain ⟨layerId, -, rfl⟩ := List.mem_map.mp hl
    simp [layersOf]
  · intro l hl
    obtain ⟨layerId, hid, rfl⟩ := List.mem_map.mp hl
    have hlayer := h.layers layerId hid
    unfold Plain at hlayer hnames ⊢
    simp only [layersOf, List.mem_append, not_or]
    exact ⟨⟨⟨h.dir.1, hnames.1⟩, hlayer.1⟩, ⟨⟨h.dir.2.1, hnames.2.1⟩, hlayer.2.1⟩,
      ⟨h.dir.2.2, hnames.2.2⟩, hlayer.2.2⟩

/-- What fits in a page fits in the buffers. -/
theorem optionsFit (h : Named imageDir image containerId) :
    OptionsFit imageDir containerId (imageAt imageDir image) := by
  have hlen : (meant imageDir image containerId).text.length = 28 +
      (colons (lowerList (imageAt imageDir image))).length +
      (overlayPath imageDir containerId "upper".toList).length +
      (overlayPath imageDir containerId "work".toList).length := optionText_length _ _ _
  have hfits := h.fits
  have hpage : pageSize = maxPathLen := rfl
  refine ⟨?_, ?_, ?_⟩
  · omega
  · omega
  · show (meant imageDir image containerId).text.length < _
    omega

/-- **The kernel is told what is meant.** -/
theorem told_eq (h : Named imageDir image containerId) :
    told imageDir image containerId = some (meant imageDir image containerId) := by
  have htext := mountOptions_of_fit h.plainLayers h.optionsFit
  have hwhole : received (mountOptions imageDir containerId (imageAt imageDir image)) =
      mountOptions imageDir containerId (imageAt imageDir image) := by
    rw [htext]
    exact snprintf_eq_self h.fits
  unfold told
  rw [hwhole]
  exact (decode_mountOptions_iff h.plainLayers h.dir h.id).mpr h.optionsFit

end Named

/-! ### The store -/

/-- The directories under `image_dir`, and for each container the overlays that are mounted at its
`merged`, the last one first. -/
structure Store (F A : Type) where
  imageDir : CStr
  dirs : Storage F A
  mounts : CStr → List (Option OverlayDirs)

/-- What the calls of a mount meet: whether the upper directory can be made and with which
attributes, and whether the kernel takes the mount, if the directories are there. -/
structure MountEnv (A : Type) where
  mkdirOk : Bool
  dirAttr : A
  accepted : Bool

/-- What the calls of a removal meet: whether the unmount is refused, and what `rm` leaves of the
upper directory. -/
structure RemoveEnv (F A : Type) where
  refused : Bool
  left : Option (Layer CStr F A)

inductive StoreOp (F A : Type) where
  | layer (op : LayerOp F A) (layerId : CStr)
  | mount (env : MountEnv A) (image : List CStr) (containerId : CStr)
  -- the processes of a container change its files
  | write (containerId : CStr) (upper : Layer CStr F A)
  | unmount (refused : Bool) (containerId : CStr)
  | remove (env : RemoveEnv F A) (containerId : CStr)

namespace Store

def setUpper (s : Store F A) (containerId : CStr) (upper : Option (Layer CStr F A)) :
    Store F A :=
  { s with dirs := { s.dirs with upper := Function.update s.dirs.upper containerId upper } }

def setMounts (s : Store F A) (containerId : CStr) (overlays : List (Option OverlayDirs)) :
    Store F A :=
  { s with mounts := Function.update s.mounts containerId overlays }

@[simp] theorem setUpper_upper_self (s : Store F A) (containerId : CStr)
    (upper : Option (Layer CStr F A)) :
    (s.setUpper containerId upper).dirs.upper containerId = upper := Function.update_self _ _ _

theorem setUpper_upper_of_ne {s : Store F A} {containerId id : CStr}
    {upper : Option (Layer CStr F A)} (h : id ≠ containerId) :
    (s.setUpper containerId upper).dirs.upper id = s.dirs.upper id := Function.update_of_ne h _ _

@[simp] theorem setMounts_mounts_self (s : Store F A) (containerId : CStr)
    (overlays : List (Option OverlayDirs)) :
    (s.setMounts containerId overlays).mounts containerId = overlays :=
  Function.update_self _ _ _

theorem setMounts_mounts_of_ne {s : Store F A} {containerId id : CStr}
    {overlays : List (Option OverlayDirs)} (h : id ≠ containerId) :
    (s.setMounts containerId overlays).mounts id = s.mounts id := Function.update_of_ne h _ _

/-- The layer in a directory, by its path. -/
def layerAt (s : Store F A) (path : CStr) : Option (Layer CStr F A) :=
  (path.dropPrefix? (layersOf s.imageDir)).bind s.dirs.layers

/-- The upper directory of a container, by its path. -/
def upperAt (s : Store F A) (containerId path : CStr) : Option (Layer CStr F A) :=
  if path = overlayPath s.imageDir containerId "upper".toList then s.dirs.upper containerId
  else none

/-- What the directories of an overlay show, when they are there. -/
def overlayView (s : Store F A) (containerId : CStr) (d : OverlayDirs) :
    Option (View CStr F A) := do
  let lower ← d.lower.mapM s.layerAt
  let upper ← s.upperAt containerId d.upper
  return merged (upper :: lower)

/-- `storage_mount_overlay`. -/
def mountOverlay (env : MountEnv A) (s : Store F A) (image : List CStr) (containerId : CStr) :
    CrCode × Store F A :=
  -- Create overlay workspace for this container
  let s := s.setUpper containerId
    (madeDir env.mkdirOk env.dirAttr (s.dirs.upper containerId))
  -- Mount overlay
  let overlay := told s.imageDir image containerId
  if env.accepted && overlay.all fun d => (s.overlayView containerId d).isSome then
    (.ok, s.setMounts containerId (overlay :: s.mounts containerId))
  else (.esyscall, s)

/-- `storage_unmount_overlay`.  With nothing mounted the error is `EINVAL` or `ENOENT`. -/
def unmountOverlay (refused : Bool) (s : Store F A) (containerId : CStr) : CrCode × Store F A :=
  if refused then (.esyscall, s)
  else (.ok, s.setMounts containerId (s.mounts containerId).tail)

/-- `storage_remove_overlay`. -/
def removeOverlay (env : RemoveEnv F A) (s : Store F A) (containerId : CStr) :
    CrCode × Store F A :=
  -- Unmount if still mounted
  let s := (unmountOverlay env.refused s containerId).2
  -- Remove overlay directory
  (.ok, s.setUpper containerId env.left)

/-- The directories of the overlay that a container has mounted. -/
def mounted (s : Store F A) (containerId : CStr) : Option OverlayDirs :=
  (s.mounts containerId).head?.join

def step (s : Store F A) : StoreOp F A → Store F A
  | .layer op layerId => { s with dirs := (op.run s.dirs layerId).2 }
  | .mount env image containerId => (s.mountOverlay env image containerId).2
  | .write containerId upper =>
      if (s.mounted containerId).isSome then s.setUpper containerId (some upper) else s
  | .unmount refused containerId => (s.unmountOverlay refused containerId).2
  | .remove env containerId => (s.removeOverlay env containerId).2

end Store

/-! ### The overlay of a mount -/

/-- The directories that are meant are the layers of the image and the container's own. -/
theorem overlayView_meant (s : Store F A) (image : List CStr) (containerId : CStr) :
    s.overlayView containerId (meant s.imageDir image containerId) =
      s.dirs.containerView image containerId := by
  have hlayers : (s.layerAt ∘ fun layerId => layersOf s.imageDir ++ layerId) = s.dirs.layers := by
    funext layerId
    show ((layersOf s.imageDir ++ layerId).dropPrefix? (layersOf s.imageDir)).bind _ = _
    rw [dropPrefix_append]
    rfl
  have hlower : (meant s.imageDir image containerId).lower.mapM s.layerAt =
      s.dirs.lowerDirs image := by
    have hpaths : (meant s.imageDir image containerId).lower =
        image.reverse.map fun layerId => layersOf s.imageDir ++ layerId := by
      simp [meant, overlayDirs, lowerList, imageAt]
    rw [hpaths, List.mapM_map]
    exact congrArg (image.reverse.mapM ·) hlayers
  have hupper : s.upperAt containerId (meant s.imageDir image containerId).upper =
      s.dirs.upper containerId := if_pos rfl
  unfold Store.overlayView Storage.containerView
  rw [hlower, hupper]

/-- What the calls of a mount meet in a run of `storage_mount_overlay`.  The kernel takes no
overlay of directories that are not there. -/
structure Meets (env : MountEnv A) (s : Store F A) (image : List CStr) (containerId : CStr)
    (w : World MountHost) : Prop where
  accepted : env.accepted = true ↔ ¬MountRefused s.imageDir containerId w
  there : env.accepted = true → ∀ d, told s.imageDir image containerId = some d →
    ((s.setUpper containerId
      (madeDir env.mkdirOk env.dirAttr (s.dirs.upper containerId))).overlayView
        containerId d).isSome

/-- **The store keeps what `storage_mount_overlay` tells the kernel**: the codes are the same, and
when the function mounts an overlay, its options are those the store reads. -/
theorem mountOverlay_of_run {env : MountEnv A} {s : Store F A} {image : List CStr}
    {containerId : CStr} {w : World MountHost} (h : Meets env s image containerId w) (mpLen : Nat) :
    let r := run StorageCmd.effect
      (storageMountOverlay s.imageDir (imageAt s.imageDir image) containerId mpLen) w
    let m := s.mountOverlay env image containerId
    r.1.1 = m.1 ∧
      (r.2.state.mounts = w.state.mounts ∧ m.2.mounts = s.mounts ∨
        ∃ options, r.2.state.mounts =
            (mergedDir s.imageDir containerId, options) :: w.state.mounts ∧
          m.2.mounts containerId = decodeOptions (received options) :: s.mounts containerId) := by
  intro r m
  by_cases hrefused : MountRefused s.imageDir containerId w
  · have hfalse : env.accepted = false := by
      by_contra htrue
      exact h.accepted.mp (by simpa using htrue) hrefused
    obtain ⟨hcode, hmounts⟩ := run_mount_refused (imageAt s.imageDir image) mpLen hrefused
    have hm : m = (.esyscall, s.setUpper containerId
        (madeDir env.mkdirOk env.dirAttr (s.dirs.upper containerId))) := if_neg (by simp [hfalse])
    rw [hm]
    exact ⟨congrArg Prod.fst hcode, Or.inl ⟨hmounts, rfl⟩⟩
  · have htrue := h.accepted.mpr hrefused
    obtain ⟨hcode, hmounts⟩ := run_mount_made (imageAt s.imageDir image) mpLen hrefused
    have hall : (told s.imageDir image containerId).all (fun d => ((s.setUpper containerId
        (madeDir env.mkdirOk env.dirAttr (s.dirs.upper containerId))).overlayView
          containerId d).isSome) = true :=
      (Option.all_eq_true _ _).mpr fun d hd => h.there htrue d hd
    have hm : m = (.ok, (s.setUpper containerId
        (madeDir env.mkdirOk env.dirAttr (s.dirs.upper containerId))).setMounts containerId
          (told s.imageDir image containerId :: s.mounts containerId)) :=
      if_pos (by rw [Bool.and_eq_true]; exact ⟨htrue, hall⟩)
    rw [hm]
    exact ⟨congrArg Prod.fst hcode,
      Or.inr ⟨_, hmounts, Store.setMounts_mounts_self _ containerId _⟩⟩

/-! ### A copy for each -/

/-- A container with the files of its image to itself: `base` as they were, and as they are. -/
structure OwnCopy (F A : Type) where
  image : List CStr
  base : View CStr F A
  files : View CStr F A

/-- The images that were used or committed, each with its files, and the containers. -/
structure Copies (F A : Type) where
  images : List CStr → Option (View CStr F A)
  containers : CStr → Option (OwnCopy F A)

/-- The same files, in a root directory of other attributes. -/
def withRoot (attr : A) (v : View CStr F A) : View CStr F A :=
  fun p => if p = [] then some (.dir attr) else v p

namespace Copies

/-- Before anything is started. -/
def fresh : Copies F A := ⟨fun _ => none, fun _ => none⟩

def setImage (c : Copies F A) (image : List CStr) (v : View CStr F A) : Copies F A :=
  { c with images := Function.update c.images image (some v) }

def setContainer (c : Copies F A) (containerId : CStr) (own : Option (OwnCopy F A)) :
    Copies F A :=
  { c with containers := Function.update c.containers containerId own }

@[simp] theorem setImage_images_self (c : Copies F A) (image : List CStr) (v : View CStr F A) :
    (c.setImage image v).images image = some v := Function.update_self _ _ _

theorem setImage_images_of_ne {c : Copies F A} {image i : List CStr} {v : View CStr F A}
    (h : i ≠ image) : (c.setImage image v).images i = c.images i := Function.update_of_ne h _ _

@[simp] theorem setContainer_containers_self (c : Copies F A) (containerId : CStr)
    (own : Option (OwnCopy F A)) :
    (c.setContainer containerId own).containers containerId = own := Function.update_self _ _ _

theorem setContainer_containers_of_ne {c : Copies F A} {containerId id : CStr}
    {own : Option (OwnCopy F A)} (h : id ≠ containerId) :
    (c.setContainer containerId own).containers id = c.containers id :=
  Function.update_of_ne h _ _

/-- A container starts: it gets a copy of the image, unless it has one. -/
def start (c : Copies F A) (containerId : CStr) (image : List CStr) (base : View CStr F A)
    (attr : A) : Copies F A :=
  match c.containers containerId with
  | some _ => c.setImage image base
  | none => (c.setImage image base).setContainer containerId
      (some ⟨image, base, withRoot attr base⟩)

/-- Its processes change what it sees. -/
def change (c : Copies F A) (containerId : CStr) (how : View CStr F A → View CStr F A) :
    Copies F A :=
  c.setContainer containerId
    ((c.containers containerId).map fun own => { own with files := how own.base })

/-- A copy of its files is put aside as an image. -/
def snapshot (c : Copies F A) (containerId layerId : CStr) : Copies F A :=
  match c.containers containerId with
  | some own => c.setImage (own.image ++ [layerId]) own.files
  | none => c

/-- What an operation of the store means for the copies. -/
def step (s : Store F A) (c : Copies F A) : StoreOp F A → Copies F A
  | .layer (.commit _ containerId) layerId => c.snapshot containerId layerId
  | .layer _ _ => c
  | .mount env image containerId =>
      match (s.mountOverlay env image containerId).1, s.dirs.imageView image with
      | .ok, some base => c.start containerId image base env.dirAttr
      | _, _ => c
  | .write containerId upper =>
      if (s.mounted containerId).isSome then c.change containerId upper.atop else c
  | .unmount _ _ => c
  | .remove _ containerId => c.setContainer containerId none

end Copies

/-- What the functions leave to their callers. -/
def Usual (s : Store F A) (c : Copies F A) : StoreOp F A → Prop
  | .layer op layerId =>
      s.dirs.layers layerId = none ∧
        ∀ env containerId own upper, op = .commit env containerId →
          c.containers containerId = some own → s.dirs.upper containerId = some upper →
          CommitKeeps env upper own.base
  | .mount _ image containerId =>
      Named s.imageDir image containerId ∧
        (∀ own, c.containers containerId = some own → image = own.image) ∧
        (c.containers containerId = none →
          s.dirs.upper containerId = none ∧ s.mounts containerId = [])
  | _ => True

/-- The store shows what the copies hold. -/
structure Shows (s : Store F A) (c : Copies F A) : Prop where
  images : ∀ image v, c.images image = some v → s.dirs.imageView image = some v
  containers : ∀ containerId own, c.containers containerId = some own →
    s.dirs.imageView own.image = some own.base ∧
      (∃ upper, s.dirs.upper containerId = some upper ∧ own.files = upper.atop own.base) ∧
      ∀ overlay ∈ s.mounts containerId, overlay = some (meant s.imageDir own.image containerId)

/-! ### What an operation leaves alone -/

theorem setLayer_layers_of_ne {st : Storage F A} {layerId id : CStr} {dir : Layer CStr F A}
    (h : id ≠ layerId) : (st.setLayer layerId dir).layers id = st.layers id :=
  Function.update_of_ne h _ _

/-- Filling a layer touches no other one and no upper directory. -/
theorem layerOp_frame (op : LayerOp F A) (st : Storage F A) (layerId : CStr) :
    (op.run st layerId).2.upper = st.upper ∧
      ∀ id, id ≠ layerId → (op.run st layerId).2.layers id = st.layers id := by
  have htool : ∀ (deletes : Bool) (env : ToolEnv F A) (source : Option (Layer CStr F A)),
      (fillWithTool deletes env st source layerId).2.upper = st.upper ∧
        ∀ id, id ≠ layerId →
          (fillWithTool deletes env st source layerId).2.layers id = st.layers id := by
    intro deletes env source
    unfold fillWithTool
    cases madeDir env.mkdirOk env.dirAttr (st.layers layerId) with
    | none => exact ⟨rfl, fun _ _ => rfl⟩
    | some dir => exact ⟨rfl, fun _ h => setLayer_layers_of_ne h⟩
  cases op with
  | create env source =>
      show (storageCreateLayer env st source layerId).2.upper = st.upper ∧
        ∀ id, id ≠ layerId → (storageCreateLayer env st source layerId).2.layers id = st.layers id
      unfold storageCreateLayer
      split_ifs
      · exact ⟨rfl, fun _ h => setLayer_layers_of_ne h⟩
      · exact ⟨rfl, fun _ _ => rfl⟩
  | diff env lower upper => exact htool true env upper
  | importTar env archive => exact htool false env archive
  | commit env containerId =>
      show (storageCommitContainerOnto env st containerId layerId).2.upper = st.upper ∧
        ∀ id, id ≠ layerId →
          (storageCommitContainerOnto env st containerId layerId).2.layers id = st.layers id
      unfold storageCommitContainerOnto
      cases madeDir env.mkdirOk env.dirAttr (st.layers layerId) with
      | none => exact ⟨rfl, fun _ _ => rfl⟩
      | some dir => exact ⟨rfl, fun _ h => setLayer_layers_of_ne h⟩

/-- Layers that are there can be looked up where only a missing one was added. -/
theorem mapM_of_frame {layers layers' : CStr → Option (Layer CStr F A)} {layerId : CStr}
    (hfresh : layers layerId = none) (hframe : ∀ id, id ≠ layerId → layers' id = layers id)
    (ids : List CStr) :
    ∀ {lower}, ids.mapM layers = some lower → ids.mapM layers' = some lower := by
  intro lower h
  rw [← h]
  have hlayers : layers' = Function.update layers layerId (layers' layerId) := by
    funext id
    by_cases hid : id = layerId
    · rw [hid, Function.update_self]
    · rw [Function.update_of_ne hid, hframe id hid]
  cases hnew : layers' layerId with
  | none =>
      rw [hnew, ← hfresh, Function.update_eq_self] at hlayers
      rw [hlayers]
  | some l =>
      rw [hlayers, hnew, mapM_update hfresh l ids h, h]

/-- An image that is there shows the same when a layer of a fresh id is filled. -/
theorem imageView_layerOp {op : LayerOp F A} {st : Storage F A} {layerId : CStr}
    (hfresh : st.layers layerId = none) {image : List CStr} {v : View CStr F A}
    (h : st.imageView image = some v) : (op.run st layerId).2.imageView image = some v := by
  obtain ⟨lower, hlower, rfl⟩ := Option.map_eq_some_iff.mp h
  unfold Storage.imageView Storage.lowerDirs
  rw [mapM_of_frame hfresh (layerOp_frame op st layerId).2 _ hlower]
  rfl

end Cruntime
