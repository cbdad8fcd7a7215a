/-
Mounting a container's overlay.

`storage_mount_overlay` appends the paths of the layers to a fixed buffer, one
`strncat` after the other, and formats that buffer and two more paths into a second
one.  Every step cuts what does not fit and says nothing about it.  A list of
layers that is cut is as good an option string as the whole list: the mount
succeeds, and shows other files.

The buffer holds after every step a prefix of the list so far, cut at its size
(`lowerdirOf_eq`), so the string that `mount` receives is known in full.  It
decodes to the right directories exactly when nothing was cut, and one direction of
that is only lengths: a string that decodes to given directories is as long as the
string that names them.
-/
import Cruntime.Net.Network

namespace Cruntime

/-- `MAX_PATH_LEN`. -/
def maxPathLen : Nat := 4096

/-! ### The calls and what they do -/

/-- The system calls of the function. -/
inductive StorageCmd where
  | mkdir (path : CStr)
  | mount (target options : CStr)
deriving DecidableEq

/-- What the calls read and write: the directories, and the overlays that were mounted with
their options, the last one first. -/
structure MountHost where
  dirs : CStr → Bool
  mounts : List (CStr × CStr)

/-- What a call does.  The source takes `EEXIST` from `mkdir` for success. -/
def StorageCmd.effect : StorageCmd → MountHost → Option MountHost
  | .mkdir path, h => some { h with dirs := Function.update h.dirs path true }
  | .mount target options, h =>
      if h.dirs target then some { h with mounts := (target, options) :: h.mounts } else none

abbrev StorageScript := Script StorageCmd

open Script (issue run Uses)

/-- The loop of `mkdir_recursive`; `before` is the path before `p`. -/
def mkdirPrefixes (before : CStr) : CStr → StorageScript CrCode
  | [] => return .ok
  | c :: rest => do
      if c = '/' then
        unless ← issue (.mkdir before) do
          return .esyscall
      mkdirPrefixes (before ++ [c]) rest

/-- `mkdir_recursive`. -/
def mkdirRecursive (path : CStr) : StorageScript CrCode := do
  let tmp := snprintf maxPathLen path
  let tmp := if tmp.getLast? = some '/' then tmp.dropLast else tmp
  let code ← mkdirPrefixes (tmp.take 1) (tmp.drop 1)
  if code ≠ .ok then
    return code
  unless ← issue (.mkdir tmp) do
    return .esyscall
  return .ok

/-! ### The function -/

/-- An `image_layer_t`. -/
structure ImageLayer where
  diffPath : CStr

/-- The layers of a `container_image_t`, `num_layers` of them. -/
structure ContainerImage where
  layers : List ImageLayer

/-- `<image_dir>/overlay/<container_id>/<name>`, in full. -/
def overlayPath (imageDir containerId name : CStr) : CStr :=
  imageDir ++ "/overlay/".toList ++ containerId ++ '/' :: name

/-- One turn of the loop that builds `lowerdir[MAX_PATH_LEN * 4]`. -/
def appendLayer (lowerdir : CStr) (layer : ImageLayer) : CStr :=
  let lowerdir :=
    if lowerdir.length > 0 then strncat lowerdir [':'] (maxPathLen * 4 - lowerdir.length - 1)
    else lowerdir
  strncat lowerdir layer.diffPath (maxPathLen * 4 - lowerdir.length - 1)

/-- The buffer after the loop, which runs from the last layer to the first. -/
def lowerdirOf (image : ContainerImage) : CStr := image.layers.reverse.foldl appendLayer []

def lowerKey : CStr := "lowerdir=".toList

def upperKey : CStr := "upperdir=".toList

def workKey : CStr := "workdir=".toList

/-- The format of the mount options. -/
def optionText (lowerdir upperdir workdir : CStr) : CStr :=
  lowerKey ++ lowerdir ++ ',' :: (upperKey ++ upperdir ++ ',' :: (workKey ++ workdir))

/-- The three directories of a container, whatever becomes of them. -/
def makeWorkspace (upperdir workdir merged : CStr) : StorageScript Unit := do
  let _ ← mkdirRecursive upperdir
  let _ ← mkdirRecursive workdir
  let _ ← mkdirRecursive merged
  return ()

/-- `merged[MAX_PATH_LEN]`, the mount point. -/
def mergedDir (imageDir containerId : CStr) : CStr :=
  snprintf maxPathLen (overlayPath imageDir containerId "merged".toList)

/-- `upperdir[MAX_PATH_LEN]`. -/
def upperDir (imageDir containerId : CStr) : CStr :=
  snprintf maxPathLen (overlayPath imageDir containerId "upper".toList)

/-- `workdir[MAX_PATH_LEN]`. -/
def workDir (imageDir containerId : CStr) : CStr :=
  snprintf maxPathLen (overlayPath imageDir containerId "work".toList)

/-- `options[MAX_PATH_LEN * 5]`. -/
def mountOptions (imageDir containerId : CStr) (image : ContainerImage) : CStr :=
  snprintf (maxPathLen * 5)
    (optionText (lowerdirOf image) (upperDir imageDir containerId) (workDir imageDir containerId))

/-- `storage_mount_overlay`: its code, and the mount point when it writes one. -/
def storageMountOverlay (imageDir : CStr) (image : ContainerImage) (containerId : CStr)
    (mpLen : Nat) : StorageScript (CrCode × Option CStr) := do
  let merged := mergedDir imageDir containerId
  -- Create overlay workspace for this container
  makeWorkspace (upperDir imageDir containerId) (workDir imageDir containerId) merged
  -- Mount overlay
  unless ← issue (.mount merged (mountOptions imageDir containerId image)) do
    return (.esyscall, none)
  return (.ok, some (strncpy merged mpLen))

/-! ### What is in the buffers -/

/-- The list of the layers' paths, the last layer first, in full. -/
def lowerList (image : ContainerImage) : List CStr := image.layers.reverse.map ImageLayer.diffPath

/-- The paths with a colon between them. -/
def colons (paths : List CStr) : CStr := [':'].intercalate paths

theorem not_mem_colons {c : Char} (hc : c ≠ ':') {paths : List CStr} (h : ∀ p ∈ paths, c ∉ p) :
    c ∉ colons paths := by
  unfold colons
  induction paths with
  | nil => simp
  | cons p rest ih =>
      have hp : c ∉ p := h p (by simp)
      have hrest : c ∉ [':'].intercalate rest := ih fun q hq => h q (by simp [hq])
      by_cases hnil : rest = []
      · subst hnil
        simpa using hp
      · rw [List.intercalate_cons_of_ne_nil hnil]
        simp [hp, hc, hrest]

theorem colons_append_first (p q : CStr) (rest : List CStr) :
    colons ((p ++ ':' :: q) :: rest) = colons (p :: q :: rest) := by
  unfold colons
  cases rest with
  | nil => simp
  | cons r rest => simp

/-- One turn of the loop, on a buffer that holds what fits of a text. -/
theorem appendLayer_take {text : CStr} (htext : text ≠ []) (layer : ImageLayer) :
    appendLayer (text.take (maxPathLen * 4 - 1)) layer =
      (text ++ ':' :: layer.diffPath).take (maxPathLen * 4 - 1) := by
  have hsome : (text.take (maxPathLen * 4 - 1)).length > 0 := by
    rw [List.length_take, gt_iff_lt, Nat.lt_min]
    exact ⟨by decide, List.length_pos_iff.mpr htext⟩
  unfold appendLayer
  simp only [if_pos hsome, Nat.sub_right_comm _ _ 1]
  rw [strncat_take, strncat_take, List.append_assoc]
  rfl

/-- **The invariant of the loop**: the buffer holds what fits of the list so far. -/
theorem foldl_appendLayer (layers : List ImageLayer) :
    ∀ {text : CStr}, text ≠ [] →
      layers.foldl appendLayer (text.take (maxPathLen * 4 - 1)) =
        (colons (text :: layers.map ImageLayer.diffPath)).take (maxPathLen * 4 - 1) := by
  induction layers with
  | nil =>
      intro text _
      simp [colons]
  | cons layer rest ih =>
      intro text htext
      rw [List.foldl_cons, appendLayer_take htext, ih (by simp), colons_append_first]
      rfl

/-- The buffer after the loop is the list of the layers, cut at its size. -/
theorem lowerdirOf_eq {image : ContainerImage} (hne : ∀ l ∈ image.layers, l.diffPath ≠ []) :
    lowerdirOf image = (colons (lowerList image)).take (maxPathLen * 4 - 1) := by
  unfold lowerdirOf lowerList
  cases hlayers : image.layers.reverse with
  | nil => rfl
  | cons top rest =>
      have htop : top.diffPath ≠ [] := hne top (by
        rw [← List.mem_reverse, hlayers]
        exact List.mem_cons_self)
      have hfirst : appendLayer [] top = top.diffPath.take (maxPathLen * 4 - 1) := by
        unfold appendLayer strncat
        simp
      rw [List.foldl_cons, hfirst, foldl_appendLayer rest htop]
      rfl

/-! ### What an option string says -/

/-- The directories of an overlay mount, the topmost layer first. -/
structure OverlayDirs where
  lower : List CStr
  upper : CStr
  work : CStr
deriving DecidableEq

/-- The option string that names the directories. -/
def OverlayDirs.text (d : OverlayDirs) : CStr := optionText (colons d.lower) d.upper d.work

/-- An option string taken apart as overlayfs does it, at the commas, and the list of the layers
at its colons.  Of a string that is longer than a page `mount(2)` hands on the first page only;
what is taken apart here is the whole string. -/
def decodeOptions (options : CStr) : Option OverlayDirs :=
  match options.splitOn ',' with
  | [lower, upper, work] => do
      let lower ← lower.dropPrefix? lowerKey
      let upper ← upper.dropPrefix? upperKey
      let work ← work.dropPrefix? workKey
      return ⟨lower.splitOn ':', upper, work⟩
  | _ => none

theorem dropPrefix_some {s p rest : CStr} (h : s.dropPrefix? p = some rest) : s = p ++ rest := by
  obtain ⟨p', rfl, hp⟩ := List.dropPrefix?_eq_some_iff.mp h
  rw [beq_iff_eq.mp hp]

theorem dropPrefix_append (p rest : CStr) : (p ++ rest).dropPrefix? p = some rest :=
  List.dropPrefix?_append_of_beq rest (beq_self_eq_true p)

/-- Only the text that names the directories decodes to them. -/
theorem eq_text_of_decode {options : CStr} {d : OverlayDirs} (h : decodeOptions options = some d) :
    options = d.text := by
  have hjoin : [','].intercalate (options.splitOn ',') = options := List.intercalate_splitOn ','
  unfold decodeOptions at h
  split at h
  · rename_i lower upper work hsplit
    rw [hsplit] at hjoin
    obtain ⟨l, hl, h⟩ := Option.bind_eq_some_iff.mp h
    obtain ⟨u, hu, h⟩ := Option.bind_eq_some_iff.mp h
    obtain ⟨w, hw, h⟩ := Option.bind_eq_some_iff.mp h
    obtain rfl : _ = d := Option.some.inj h
    rw [← hjoin, dropPrefix_some hl, dropPrefix_some hu, dropPrefix_some hw]
    simp [OverlayDirs.text, optionText, colons]
  · simp at h

/-- Directories whose paths have neither a comma nor a colon are read back. -/
theorem decode_text {d : OverlayDirs} (hlower : d.lower ≠ [])
    (hpath : ∀ p ∈ d.lower, ',' ∉ p ∧ ':' ∉ p) (hupper : ',' ∉ d.upper) (hwork : ',' ∉ d.work) :
    decodeOptions d.text = some d := by
  have hcolons : ',' ∉ colons d.lower := not_mem_colons (by decide) fun p hp => (hpath p hp).1
  have hsplit : d.text.splitOn ',' =
      [lowerKey ++ colons d.lower, upperKey ++ d.upper, workKey ++ d.work] := by
    have htext : d.text = [','].intercalate
        [lowerKey ++ colons d.lower, upperKey ++ d.upper, workKey ++ d.work] := by
      simp [OverlayDirs.text, optionText]
    have hkeys : ',' ∉ lowerKey ∧ ',' ∉ upperKey ∧ ',' ∉ workKey := by decide
    rw [htext]
    refine List.splitOn_intercalate ',' ?_ (by simp)
    simp [hcolons, hupper, hwork, hkeys]
  unfold decodeOptions
  rw [hsplit]
  simp only [dropPrefix_append, Option.bind_eq_bind, Option.bind_some]
  rw [colons, List.splitOn_intercalate ':' (fun p hp => (hpath p hp).2) hlower]
  rfl

/-! ### The string that mount receives -/

/-- The directories of a container's overlay, all of them and in full. -/
def overlayDirs (imageDir containerId : CStr) (image : ContainerImage) : OverlayDirs where
  lower := lowerList image
  upper := overlayPath imageDir containerId "upper".toList
  work := overlayPath imageDir containerId "work".toList

/-- Neither a separator of the option string nor the character that quotes one. -/
def Plain (s : CStr) : Prop := ':' ∉ s ∧ ',' ∉ s ∧ '\\' ∉ s

instance (s : CStr) : Decidable (Plain s) := instDecidableAnd

/-- There are layers, and the path of each is a plain one. -/
structure PlainLayers (image : ContainerImage) : Prop where
  any : image.layers ≠ []
  nonempty : ∀ l ∈ image.layers, l.diffPath ≠ []
  plain : ∀ l ∈ image.layers, Plain l.diffPath

/-- Nothing is cut: the list of the layers fits its buffer, the path of the upper directory
fits its own (that of the work directory is shorter), and the options fit theirs. -/
structure OptionsFit (imageDir containerId : CStr) (image : ContainerImage) : Prop where
  lower : (colons (lowerList image)).length < maxPathLen * 4
  upper : (overlayPath imageDir containerId "upper".toList).length < maxPathLen
  whole : (overlayDirs imageDir containerId image).text.length < maxPathLen * 5

theorem optionText_length (lowerdir upperdir workdir : CStr) :
    (optionText lowerdir upperdir workdir).length =
      28 + lowerdir.length + upperdir.length + workdir.length := by
  have hkeys : lowerKey.length = 9 ∧ upperKey.length = 9 ∧ workKey.length = 8 := by decide
  obtain ⟨hlower, hupper, hwork⟩ := hkeys
  simp only [optionText, List.length_append, List.length_cons]
  omega

theorem work_length_lt (imageDir containerId : CStr) :
    (overlayPath imageDir containerId "work".toList).length <
      (overlayPath imageDir containerId "upper".toList).length := by
  have hnames : "work".toList.length < "upper".toList.length := by decide
  simp only [overlayPath, List.length_append, List.length_cons]
  omega

theorem snprintf_length (n : Nat) (text : CStr) :
    (snprintf n text).length = min (n - 1) text.length := by
  unfold snprintf
  rw [List.length_take]

/-- Where nothing is cut, the options are the ones meant. -/
theorem mountOptions_of_fit {imageDir containerId : CStr} {image : ContainerImage}
    (himage : PlainLayers image) (h : OptionsFit imageDir containerId image) :
    mountOptions imageDir containerId image = (overlayDirs imageDir containerId image).text := by
  have hlower : lowerdirOf image = colons (lowerList image) := by
    rw [lowerdirOf_eq himage.nonempty]
    exact snprintf_eq_self h.lower
  have hupper := snprintf_eq_self h.upper
  have hwork := snprintf_eq_self ((work_length_lt imageDir containerId).trans h.upper)
  unfold mountOptions upperDir workDir
  rw [hlower, hupper, hwork]
  exact snprintf_eq_self h.whole

/-- Options as long as the ones meant were not cut. -/
theorem fit_of_length {imageDir containerId : CStr} {image : ContainerImage}
    (himage : PlainLayers image)
    (h : (mountOptions imageDir containerId image).length =
      (overlayDirs imageDir containerId image).text.length) :
    OptionsFit imageDir containerId image := by
  have hwork := work_length_lt imageDir containerId
  have hlower : (lowerdirOf image).length =
      min (maxPathLen * 4 - 1) (colons (lowerList image)).length := by
    rw [lowerdirOf_eq himage.nonempty, List.length_take]
  have hmeant : (overlayDirs imageDir containerId image).text.length = 28 +
      (colons (lowerList image)).length +
      (overlayPath imageDir containerId "upper".toList).length +
      (overlayPath imageDir containerId "work".toList).length := optionText_length _ _ _
  have hmax : maxPathLen = 4096 := rfl
  unfold mountOptions upperDir workDir at h
  rw [snprintf_length, optionText_length, snprintf_length, snprintf_length, hlower, hmeant] at h
  refine ⟨?_, ?_, ?_⟩ <;> omega

/-- **What `mount` is told** names the layers and directories exactly when they all fit. -/
theorem decode_mountOptions_iff {imageDir containerId : CStr} {image : ContainerImage}
    (himage : PlainLayers image) (hdir : Plain imageDir) (hid : Plain containerId) :
    decodeOptions (mountOptions imageDir containerId image) =
        some (overlayDirs imageDir containerId image) ↔
      OptionsFit imageDir containerId image := by
  constructor
  · intro h
    refine fit_of_length himage ?_
    rw [eq_text_of_decode h]
  · intro h
    have hpath : ∀ name : CStr, ',' ∉ name → ',' ∉ overlayPath imageDir containerId name := by
      intro name hname
      have hoverlay : ',' ∉ "/overlay/".toList := by decide
      unfold overlayPath
      simp only [List.mem_append, List.mem_cons, not_or]
      exact ⟨⟨⟨hdir.2.1, hoverlay⟩, hid.2.1⟩, by decide, hname⟩
    rw [mountOptions_of_fit himage h]
    refine decode_text ?_ ?_ (hpath _ (by decide)) (hpath _ (by decide))
    · have hany := himage.any
      simpa [overlayDirs, lowerList] using hany
    · intro p hp
      obtain ⟨l, hl, rfl⟩ := List.mem_map.mp hp
      have hplain := himage.plain l (List.mem_reverse.mp hl)
      exact ⟨hplain.2.1, hplain.1⟩

/-! ### Runs of the function -/

/-- The calls that make directories. -/
def StorageCmd.IsMkdir : StorageCmd → Prop
  | .mkdir _ => True
  | .mount _ _ => False

theorem mkdirPrefixes_uses (rest : CStr) :
    ∀ before, (mkdirPrefixes before rest).Uses StorageCmd.IsMkdir := by
  induction rest with
  | nil => intro before; exact trivial
  | cons c rest ih =>
      intro before
      unfold mkdirPrefixes
      split
      · refine ⟨trivial, fun ok => ?_⟩
        cases ok with
        | true => exact ih _
        | false => exact trivial
      · exact ih _

theorem mkdirRecursive_uses (path : CStr) :
    (mkdirRecursive path).Uses StorageCmd.IsMkdir := by
  unfold mkdirRecursive
  refine Script.uses_bind (mkdirPrefixes_uses _ _) fun code => ?_
  split
  · exact trivial
  · refine ⟨trivial, fun ok => ?_⟩
    cases ok <;> exact trivial

theorem makeWorkspace_uses (upperdir workdir merged : CStr) :
    (makeWorkspace upperdir workdir merged).Uses StorageCmd.IsMkdir :=
  Script.uses_bind (mkdirRecursive_uses upperdir) fun _ =>
    Script.uses_bind (mkdirRecursive_uses workdir) fun _ =>
      Script.uses_bind (mkdirRecursive_uses merged) fun _ => trivial

/-- A call that makes a directory mounts nothing. -/
theorem mounts_of_isMkdir {c : StorageCmd} (hc : c.IsMkdir) {h h' : MountHost}
    (heff : c.effect h = some h') : h'.mounts = h.mounts := by
  cases c with
  | mkdir path =>
      obtain rfl : _ = h' := Option.some.inj heff
      rfl
  | mount target options => exact hc.elim

/-- The world in which `mount` is called. -/
def worldAtMount (imageDir containerId : CStr) (w : World MountHost) : World MountHost :=
  (run StorageCmd.effect (makeWorkspace (upperDir imageDir containerId)
    (workDir imageDir containerId) (mergedDir imageDir containerId)) w).2

theorem worldAtMount_mounts (imageDir containerId : CStr) (w : World MountHost) :
    (worldAtMount imageDir containerId w).state.mounts = w.state.mounts :=
  @Script.run_keeps _ _ _ StorageCmd.effect StorageCmd.IsMkdir (fun h => h.mounts = w.state.mounts)
    (fun _ hc _ _ heff hkeep => (mounts_of_isMkdir hc heff).trans hkeep) _
    (makeWorkspace_uses _ _ _) w rfl

/-- The kernel refuses the mount: there is no mount point, or for a reason of its own. -/
def MountRefused (imageDir containerId : CStr) (w : World MountHost) : Prop :=
  (worldAtMount imageDir containerId w).faults 0 = true ∨
    (worldAtMount imageDir containerId w).state.dirs (mergedDir imageDir containerId) = false

/-- The directories come first, and whatever becomes of them the mount comes next. -/
theorem run_storageMountOverlay (imageDir containerId : CStr) (image : ContainerImage)
    (mpLen : Nat) (w : World MountHost) :
    run StorageCmd.effect (storageMountOverlay imageDir image containerId mpLen) w =
      run StorageCmd.effect
        (.exec (.mount (mergedDir imageDir containerId) (mountOptions imageDir containerId image))
          fun ok => if ok then .ret (.ok, some (strncpy (mergedDir imageDir containerId) mpLen))
            else .ret (.esyscall, none))
        (worldAtMount imageDir containerId w) := by
  unfold storageMountOverlay
  rw [Script.run_bind]
  rfl

/-- The function refused: an error, and the mounts as they were. -/
theorem run_mount_refused {imageDir containerId : CStr} (image : ContainerImage) (mpLen : Nat)
    {w : World MountHost} (h : MountRefused imageDir containerId w) :
    let r := run StorageCmd.effect (storageMountOverlay imageDir image containerId mpLen) w
    r.1 = (.esyscall, none) ∧ r.2.state.mounts = w.state.mounts := by
  have hfail : (Script.attempt StorageCmd.effect ((worldAtMount imageDir containerId w).faults 0)
      (.mount (mergedDir imageDir containerId) (mountOptions imageDir containerId image))
      (worldAtMount imageDir containerId w).state) =
        (false, (worldAtMount imageDir containerId w).state) := by
    rcases h with hfault | hdir
    · rw [hfault, Script.attempt_fault]
    · exact Script.attempt_none _ (by simp [StorageCmd.effect, hdir]) _
  rw [run_storageMountOverlay, Script.run_exec, hfail]
  exact ⟨rfl, worldAtMount_mounts imageDir containerId w⟩

/-- The function not refused: the mount is made with the options at hand. -/
theorem run_mount_made {imageDir containerId : CStr} (image : ContainerImage) (mpLen : Nat)
    {w : World MountHost} (h : ¬MountRefused imageDir containerId w) :
    let r := run StorageCmd.effect (storageMountOverlay imageDir image containerId mpLen) w
    r.1 = (.ok, some (strncpy (mergedDir imageDir containerId) mpLen)) ∧
      r.2.state.mounts = (mergedDir imageDir containerId,
        mountOptions imageDir containerId image) :: w.state.mounts := by
  obtain ⟨hfault, hdir⟩ : (worldAtMount imageDir containerId w).faults 0 = false ∧
      (worldAtMount imageDir containerId w).state.dirs (mergedDir imageDir containerId) = true := by
    simpa [MountRefused] using h
  have hmount : StorageCmd.effect (.mount (mergedDir imageDir containerId)
      (mountOptions imageDir containerId image)) (worldAtMount imageDir containerId w).state =
        some { (worldAtMount imageDir containerId w).state with
          mounts := (mergedDir imageDir containerId, mountOptions imageDir containerId image) ::
            (worldAtMount imageDir containerId w).state.mounts } := by
    simp [StorageCmd.effect, hdir]
  rw [run_storageMountOverlay, Script.run_exec_of_some _ hfault hmount,
    ← worldAtMount_mounts imageDir containerId w]
  exact ⟨rfl, rfl⟩

/-- The function returns an error and mounts nothing, or mounts an overlay whose options name
every layer, the last one first, and the container's own two directories. -/
def MountsTheLayers (imageDir : CStr) (image : ContainerImage) (containerId : CStr) (mpLen : Nat)
    (w : World MountHost) : Prop :=
  let r := run StorageCmd.effect (storageMountOverlay imageDir image containerId mpLen) w
  (r.1.1 ≠ .ok ∧ r.2.state.mounts = w.state.mounts) ∨
    ∃ target options, r.2.state.mounts = (target, options) :: w.state.mounts ∧
      decodeOptions options = some (overlayDirs imageDir containerId image)

/-- Where the kernel does not refuse, what counts is the string it receives. -/
theorem mountsTheLayers_of_not_refused {imageDir containerId : CStr} {image : ContainerImage}
    {mpLen : Nat} {w : World MountHost} (h : ¬MountRefused imageDir containerId w) :
    MountsTheLayers imageDir image containerId mpLen w ↔
      decodeOptions (mountOptions imageDir containerId image) =
        some (overlayDirs imageDir containerId image) := by
  obtain ⟨hcode, hmounts⟩ := run_mount_made image mpLen h
  simp only [MountsTheLayers, hcode, hmounts]
  constructor
  · rintro (⟨hok, -⟩ | ⟨target, options, heq, hdecode⟩)
    · exact absurd rfl hok
    · obtain ⟨hpair, -⟩ := List.cons.inj heq
      obtain ⟨-, rfl⟩ := Prod.mk.inj hpair
      exact hdecode
  · intro hdecode
    exact Or.inr ⟨_, _, rfl, hdecode⟩

/-- **When the right overlay is mounted**: when the kernel refuses the mount, or nothing was cut
from the options. -/
theorem mountsTheLayers_iff {imageDir containerId : CStr} {image : ContainerImage}
    (himage : PlainLayers image) (hdir : Plain imageDir) (hid : Plain containerId) (mpLen : Nat)
    (w : World MountHost) :
    MountsTheLayers imageDir image containerId mpLen w ↔
      MountRefused imageDir containerId w ∨ OptionsFit imageDir containerId image := by
  by_cases hrefused : MountRefused imageDir containerId w
  · obtain ⟨hcode, hmounts⟩ := run_mount_refused image mpLen hrefused
    refine iff_of_true (Or.inl ⟨?_, hmounts⟩) (Or.inl hrefused)
    rw [hcode]
    simp
  · rw [or_iff_right hrefused, mountsTheLayers_of_not_refused hrefused,
      decode_mountOptions_iff himage hdir hid]

/-! ### Two images -/

/-- The directory under which layers are kept. -/
def layersDir : CStr := "/var/lib/cruntime/images/layers/".toList

/-- The directory of a layer whose id is the number in 34 digits. -/
def layerDir (n : Nat) : CStr :=
  layersDir ++ List.replicate (34 - (decimal n).length) '0' ++ decimal n

/-- An image of `n` layers. -/
def imageOf (n : Nat) : ContainerImage := ⟨(List.range n).map fun k => ⟨layerDir k⟩⟩

/-- A host on which nothing is mounted, and nothing fails. -/
def bareHost : World MountHost := .calm ⟨fun _ => false, []⟩

def imageRoot : CStr := "/var/lib/cruntime/images".toList

theorem plain_layerDir (n : Nat) : Plain (layerDir n) := by
  have hplain : ∀ c : Char, c.isDigit = false → c ∉ layersDir → c ∉ layerDir n := by
    intro c hdigit hroot
    have hdec : c ∉ decimal n := by
      intro hmem
      rw [isDigit_of_mem_decimal hmem] at hdigit
      simp at hdigit
    have hzero : c ∉ List.replicate (34 - (decimal n).length) '0' := by
      intro hmem
      rw [List.eq_of_mem_replicate hmem] at hdigit
      exact absurd hdigit (by decide)
    unfold layerDir
    simp only [List.mem_append, not_or]
    exact ⟨⟨hroot, hzero⟩, hdec⟩
  exact ⟨hplain _ (by decide) (by decide), hplain _ (by decide) (by decide),
    hplain _ (by decide) (by decide)⟩

theorem plainLayers_imageOf {n : Nat} (hn : n ≠ 0) : PlainLayers (imageOf n) := by
  refine ⟨by simpa [imageOf] using hn, fun l hl => ?_, fun l hl => ?_⟩
  · obtain ⟨k, -, rfl⟩ := List.mem_map.mp hl
    exact List.append_ne_nil_of_right_ne_nil _ (decimal_ne_nil k)
  · obtain ⟨k, -, rfl⟩ := List.mem_map.mp hl
    exact plain_layerDir k

def someContainer : CStr := "c0ffee".toList

theorem not_refused_bareHost :
    ¬MountRefused imageRoot someContainer bareHost := by
  unfold MountRefused
  refine not_or.mpr ⟨by decide, by decide⟩

/-- With two layers everything fits. -/
theorem mountsTheLayers_two :
    MountsTheLayers imageRoot (imageOf 2) someContainer 4096 bareHost := by
  have hfit : OptionsFit imageRoot someContainer (imageOf 2) :=
    ⟨by decide +kernel, by decide +kernel, by decide +kernel⟩
  have hlayers : PlainLayers (imageOf 2) := plainLayers_imageOf (by decide)
  have hroot : Plain imageRoot := by decide
  have hid : Plain someContainer := by decide
  exact (mountsTheLayers_iff hlayers hroot hid 4096 bareHost).mpr (Or.inr hfit)

theorem layerDir_length (n : Nat) : 66 ≤ (layerDir n).length := by
  have hroot : layersDir.length = 32 := by decide
  simp only [layerDir, List.length_append, List.length_replicate, hroot]
  omega

/-- Every path adds its length and that of a colon. -/
theorem colons_length {k : Nat} {paths : List CStr} (h : ∀ p ∈ paths, k ≤ p.length) :
    paths.length * (k + 1) ≤ (colons paths).length + 1 := by
  induction paths with
  | nil => simp
  | cons p rest ih =>
      have hp : k ≤ p.length := h p (by simp)
      have hrest := ih fun q hq => h q (by simp [hq])
      by_cases hnil : rest = []
      · subst hnil
        simpa [colons] using hp
      · unfold colons at hrest ⊢
        rw [List.intercalate_cons_of_ne_nil hnil]
        simp only [List.length_append, List.length_cons, List.length_nil, Nat.add_mul] at hrest ⊢
        omega

/-- **With 250 layers** the lowest of them are cut off, and the mount succeeds. -/
theorem lowest_layers_cut :
    PlainLayers (imageOf 250) ∧
      (run StorageCmd.effect (storageMountOverlay imageRoot (imageOf 250) someContainer 4096)
        bareHost).1.1 = .ok ∧
      ¬MountsTheLayers imageRoot (imageOf 250) someContainer 4096 bareHost := by
  obtain ⟨hcode, -⟩ := run_mount_made (imageOf 250) 4096 not_refused_bareHost
  have hplain : PlainLayers (imageOf 250) := plainLayers_imageOf (by decide)
  have hroot : Plain imageRoot := by decide
  have hid : Plain someContainer := by decide
  refine ⟨hplain, by rw [hcode], ?_⟩
  rw [mountsTheLayers_of_not_refused not_refused_bareHost, decode_mountOptions_iff hplain hroot hid]
  intro hfit
  have hpaths : ∀ p ∈ lowerList (imageOf 250), 66 ≤ p.length := by
    intro p hp
    simp only [lowerList, imageOf, List.mem_map, List.mem_reverse] at hp
    obtain ⟨_, ⟨k, -, rfl⟩, rfl⟩ := hp
    exact layerDir_length k
  have hlong := colons_length hpaths
  have hcount : (lowerList (imageOf 250)).length = 250 := by simp [lowerList, imageOf]
  have hshort := hfit.lower
  rw [hcount] at hlong
  unfold maxPathLen at hshort
  omega

end Cruntime
