/-
What `storage_remove_overlay` removes.

The path of the workspace is formatted into a buffer and pasted into `rm -rf`, and `system`
gives the line to a shell.  Two things can put another tree in the place of the workspace:
a path that does not fit is cut, at worst to the directory of all workspaces, and a path
with a character that means something to the shell comes apart there.

`storage_mount_overlay` formats the directories of the workspace with the same prefix and
cuts them on its own, so they are below the workspace only if something of their names is
left.
-/
import Cruntime.Lib.ShellFields
import Cruntime.Storage.Mount

namespace Cruntime

open Script (issue)
open Shell (fields unwords continues Literal IsWord)

/-! ### The function -/

/-- The calls of the function.  An `umount2` that finds nothing mounted (`EINVAL`, `ENOENT`)
counts as done, as the code has it. -/
inductive RemoveCmd where
  | umount (path : CStr)
  | system (cmd : CStr)
deriving DecidableEq

abbrev RemoveScript := Script RemoveCmd

/-- `<image_dir>/overlay/<container_id>`, in full. -/
def workspace (imageDir containerId : CStr) : CStr :=
  imageDir ++ "/overlay/".toList ++ containerId

def removeWord : CStr := "rm".toList

def forceWord : CStr := "-rf".toList

/-- `cmd[MAX_PATH_LEN * 2]`, with the path from a buffer of its own. -/
def removeCommand (imageDir containerId : CStr) : CStr :=
  snprintf (maxPathLen * 2) (removeWord ++ ' ' :: (forceWord ++ ' ' ::
    snprintf maxPathLen (workspace imageDir containerId)))

/-- `storage_unmount_overlay`. -/
def storageUnmountOverlay (mountPoint : CStr) : RemoveScript CrCode := do
  unless ← issue (.umount mountPoint) do
    return .esyscall
  return .ok

/-- `storage_remove_overlay`. -/
def storageRemoveOverlay (imageDir containerId : CStr) : RemoveScript CrCode := do
  -- Unmount if still mounted
  let _ ← storageUnmountOverlay (mergedDir imageDir containerId)
  -- Remove overlay directory
  let _ ← issue (.system (removeCommand imageDir containerId))
  return .ok

/-- The one command the function runs, whether or not something was mounted. -/
theorem issues_system_iff {imageDir containerId cmd : CStr} :
    (storageRemoveOverlay imageDir containerId).Issues (.system cmd) ↔
      cmd = removeCommand imageDir containerId := by
  constructor
  · rintro (h | h)
    · simp at h
    · rcases h true with h | h
      · exact (RemoveCmd.system.inj h).symm
      · exact (h true).elim
  · intro h
    refine Or.inr fun ok => ?_
    cases ok with
    | true => exact Or.inl (congrArg RemoveCmd.system h.symm)
    | false => exact Or.inl (congrArg RemoveCmd.system h.symm)

/-! ### What it should remove -/

/-- The hexadecimal digits. -/
def hexDigits : CStr := "0123456789abcdefABCDEF".toList

/-- A container id: one to 64 hexadecimal digits. -/
structure IsContainerId (containerId : CStr) : Prop where
  nonempty : containerId ≠ []
  length_le : containerId.length ≤ 64
  hex : ∀ c ∈ containerId, c ∈ hexDigits

/-- A path below a directory. -/
def Below (dir path : CStr) : Prop := ∃ name, name ≠ [] ∧ path = dir ++ '/' :: name

/-- The command names the workspace and nothing else, and the workspace is what the directories
of the container's overlay are below. -/
structure RemovesOwn (imageDir containerId cmd : CStr) : Prop where
  names : fields cmd = some [removeWord, forceWord, workspace imageDir containerId]
  upper : Below (workspace imageDir containerId) (upperDir imageDir containerId)
  work : Below (workspace imageDir containerId) (workDir imageDir containerId)
  merged : Below (workspace imageDir containerId) (mergedDir imageDir containerId)

/-! ### Where nothing is cut -/

theorem workspace_length (imageDir containerId : CStr) :
    (workspace imageDir containerId).length = imageDir.length + containerId.length + 9 := by
  have hname : "/overlay/".toList.length = 9 := by decide
  simp only [workspace, List.length_append]
  omega

/-- The line, before it is cut. -/
theorem removeCommand_eq (imageDir containerId : CStr) :
    removeCommand imageDir containerId =
      unwords [removeWord, forceWord, snprintf maxPathLen (workspace imageDir containerId)] := by
  have hpath : (snprintf maxPathLen (workspace imageDir containerId)).length ≤ maxPathLen - 1 := by
    rw [snprintf_length]
    exact Nat.min_le_left _ _
  have hwords : removeWord.length = 2 ∧ forceWord.length = 3 := by decide
  have hmax : maxPathLen = 4096 := rfl
  unfold removeCommand
  rw [snprintf_eq_self (by
    simp only [List.length_append, List.length_cons]
    omega)]
  simp [unwords]

/-- A directory of the overlay is below the workspace when something of its name is left. -/
theorem below_overlayPath_iff (imageDir containerId : CStr) {name : CStr} (hname : name ≠ []) :
    Below (workspace imageDir containerId)
        (snprintf maxPathLen (overlayPath imageDir containerId name)) ↔
      imageDir.length + containerId.length ≤ 4084 := by
  have hlen := workspace_length imageDir containerId
  have hmax : maxPathLen = 4096 := rfl
  have hpath : overlayPath imageDir containerId name =
      workspace imageDir containerId ++ '/' :: name := rfl
  rw [hpath]
  constructor
  · rintro ⟨rest, hrest, heq⟩
    have hcut := congrArg List.length heq
    have hpos := List.length_pos_iff.mpr hrest
    have hle := Nat.min_le_left (maxPathLen - 1)
      (workspace imageDir containerId ++ '/' :: name).length
    rw [← snprintf_length, hcut, List.length_append, List.length_cons] at hle
    omega
  · intro hfit
    refine ⟨name.take (maxPathLen - 1 - (workspace imageDir containerId).length - 1), ?_, ?_⟩
    · intro hnil
      have hcut := congrArg List.length hnil
      have hpos := List.length_pos_iff.mpr hname
      rw [List.length_take, List.length_nil] at hcut
      omega
    · unfold snprintf
      rw [List.take_append, List.take_of_length_le (by omega),
        List.take_cons (by omega)]

/-! ### When it does -/

/-- A path that starts with a plain text stands for itself when the text does. -/
theorem literal_append_iff {imageDir s : CStr} (habs : imageDir.head? = some '/')
    (hs : ∀ c ∈ s, continues c = true) :
    Literal (imageDir ++ s) ↔ ∀ c ∈ imageDir, continues c = true := by
  have hslash : IsWord ['/'] ∧ continues '/' = true := by decide
  obtain ⟨rest, rfl⟩ := List.head?_eq_some_iff.mp habs
  rw [List.cons_append, Shell.literal_cons_iff hslash.1 hslash.2]
  constructor
  · intro h c hc
    rcases List.mem_cons.mp hc with rfl | hc
    · exact hslash.2
    · exact h c (List.mem_append_left _ hc)
  · intro h c hc
    rcases List.mem_append.mp hc with hc | hc
    · exact h c (List.mem_cons_of_mem _ hc)
    · exact hs c hc

/-- The word for the workspace stands for itself when the path to it does. -/
theorem literal_workspace_iff {imageDir containerId : CStr} (habs : imageDir.head? = some '/')
    (hid : IsContainerId containerId) :
    Literal (workspace imageDir containerId) ↔ ∀ c ∈ imageDir, continues c = true := by
  have hname : "/overlay/".toList.all continues = true := by decide
  have hhex : hexDigits.all continues = true := by decide
  unfold workspace
  rw [List.append_assoc]
  refine literal_append_iff habs fun c hc => ?_
  rcases List.mem_append.mp hc with hc | hc
  · exact List.all_eq_true.mp hname c hc
  · exact List.all_eq_true.mp hhex c (hid.hex c hc)

theorem literal_rm : Literal removeWord ∧ Literal forceWord := by
  have hone : IsWord removeWord ∧ removeWord.all continues = true := by decide
  have htwo : IsWord forceWord ∧ forceWord.all continues = true := by decide
  exact ⟨⟨hone.1, List.all_eq_true.mp hone.2⟩, ⟨htwo.1, List.all_eq_true.mp htwo.2⟩⟩

/-- **The function removes its own workspace exactly when the path to the workspaces has no
character that means something to the shell and is short enough.** -/
theorem removesOwn_iff (imageDir containerId : CStr) (habs : imageDir.head? = some '/')
    (hid : IsContainerId containerId) :
    (∀ cmd, (storageRemoveOverlay imageDir containerId).Issues (.system cmd) →
      RemovesOwn imageDir containerId cmd) ↔
      (∀ c ∈ imageDir, continues c = true) ∧ imageDir.length + containerId.length ≤ 4084 := by
  simp only [issues_system_iff, forall_eq]
  have hupper := @below_overlayPath_iff imageDir containerId "upper".toList (by decide)
  have hwork := @below_overlayPath_iff imageDir containerId "work".toList (by decide)
  have hmerged := @below_overlayPath_iff imageDir containerId "merged".toList (by decide)
  have hlen := workspace_length imageDir containerId
  have hnames : imageDir.length + containerId.length ≤ 4084 →
      (fields (removeCommand imageDir containerId) =
          some [removeWord, forceWord, workspace imageDir containerId] ↔
        ∀ c ∈ imageDir, continues c = true) := by
    intro hfit
    have hmax : maxPathLen = 4096 := rfl
    have hwhole : snprintf maxPathLen (workspace imageDir containerId) =
        workspace imageDir containerId := snprintf_eq_self (by omega)
    rw [removeCommand_eq, hwhole, Shell.fields_unwords_iff (by simp),
      ← literal_workspace_iff habs hid]
    simp [literal_rm]
  constructor
  · intro h
    have hfit := hupper.mp h.upper
    exact ⟨(hnames hfit).mp h.names, hfit⟩
  · rintro ⟨hplain, hfit⟩
    exact ⟨(hnames hfit).mpr hplain, hupper.mpr hfit, hwork.mpr hfit, hmerged.mpr hfit⟩

theorem isContainerId_sample : IsContainerId "0a".toList := by
  have hhex : "0a".toList.all hexDigits.contains = true := by decide
  exact ⟨by decide, by decide, fun c hc => List.contains_iff_mem.mp (List.all_eq_true.mp hhex c hc)⟩

/-- An id that fits behind a plain path. -/
theorem removesOwn_plain_path :
    RemovesOwn "/var/lib/cruntime/images".toList "0a".toList
      (removeCommand "/var/lib/cruntime/images".toList "0a".toList) :=
  (removesOwn_iff _ _ (by decide) isContainerId_sample).mpr
    ⟨List.all_eq_true.mp (by decide), by decide⟩ _ (issues_system_iff.mpr rfl)

/-- A blank in the path: the command removes the directory in front of it. -/
theorem blank_names_ancestor :
    ¬∀ imageDir containerId, imageDir.head? = some '/' → imageDir.length < maxPathLen →
      IsContainerId containerId →
      ∀ cmd, (storageRemoveOverlay imageDir containerId).Issues (.system cmd) →
        RemovesOwn imageDir containerId cmd := by
  intro hall
  have hown := hall "/srv /images".toList "0a".toList (by decide) (by decide) isContainerId_sample _
    (issues_system_iff.mpr rfl)
  exact absurd hown.names (by decide)

/-! ### What is never named then, and what is named at worst -/

/-- The workspaces of two containers are different directories, neither below the other. -/
theorem workspace_apart {imageDir id id' : CStr} (hid' : IsContainerId id')
    (hne : id ≠ id') : workspace imageDir id ≠ workspace imageDir id' ∧
      ¬Below (workspace imageDir id) (workspace imageDir id') := by
  have hslash : '/' ∉ hexDigits := by decide
  unfold workspace
  refine ⟨fun h => hne (List.append_cancel_left h), ?_⟩
  rintro ⟨name, -, h⟩
  rw [List.append_assoc (imageDir ++ "/overlay/".toList)] at h
  have hrest := List.append_cancel_left h
  exact hslash (hid'.hex '/' (by rw [hrest]; simp))

/-- The directory of all workspaces. -/
def overlayDir (imageDir : CStr) : CStr := imageDir ++ "/overlay".toList

theorem workspace_eq (imageDir containerId : CStr) :
    workspace imageDir containerId = overlayDir imageDir ++ '/' :: containerId := by
  unfold workspace overlayDir
  rw [List.append_assoc, List.append_assoc]
  rfl

/-- The workspace is below the directory of all workspaces. -/
theorem workspace_below {imageDir containerId : CStr} (hid : IsContainerId containerId) :
    Below (overlayDir imageDir) (workspace imageDir containerId) :=
  ⟨containerId, hid.nonempty, workspace_eq imageDir containerId⟩

/-- **A path of 4087 bytes leaves room for the directory of all workspaces and for nothing else**,
so that this is what is removed. -/
theorem names_all_workspaces {imageDir containerId : CStr} (habs : imageDir.head? = some '/')
    (hplain : ∀ c ∈ imageDir, continues c = true) (hlen : imageDir.length = 4087) :
    fields (removeCommand imageDir containerId) =
      some [removeWord, forceWord, overlayDir imageDir] := by
  have hname : "/overlay".toList.all continues = true := by decide
  have hcut : snprintf maxPathLen (workspace imageDir containerId) = overlayDir imageDir := by
    have hroom : maxPathLen - 1 = (overlayDir imageDir).length := by
      unfold overlayDir
      rw [List.length_append, hlen]
      rfl
    unfold snprintf
    rw [workspace_eq, hroom, List.take_left]
  have hliteral : Literal (overlayDir imageDir) :=
    (literal_append_iff habs (List.all_eq_true.mp hname)).mpr hplain
  rw [removeCommand_eq, hcut, Shell.fields_unwords_iff (by simp)]
  simp [literal_rm, hliteral]

end Cruntime
