/-
Filling the directory of a layer.

Four functions of `storage.c` make a directory under `layers/` and have a tool fill it.
They differ in the tool (`cp -a dir/*`, `rsync --delete`, `tar -x`) and in what they do
when a step fails: `storage_create_layer` returns when `mkdir_recursive` does not
succeed, the others go on; the status of `cp` is thrown away behind `|| true`,
those of `rsync` and `tar` are returned.  None of them looks whether the
directory was there before, and none takes it away again.

`allOrNothing_iff` says when such a call is all or nothing, for any id, any state of
the store and any outcome of every step.

The ids and paths are words the shell reads as they are, and fit their buffers.  A tool
that finds no directory to fill leaves none behind: what keeps `mkdir` from making
it keeps the tool from it too.
-/
import Cruntime.Lib.TreeCopy
import Cruntime.Storage.Commit

namespace Cruntime

open Overlay

variable {F A : Type}

/-! ### The tools -/

namespace CopyOutcome

def landed : CopyOutcome F → Bool
  | .failed => false
  | _ => true

def cutTo : CopyOutcome F → Option F
  | .cut f => some f
  | _ => none

end CopyOutcome

/-- `cp -a dir/* layer/`, with the outcome at each path.  The root is not among what `*` stands
for.  A file over a directory, or a directory over a file, is one of the entries that fail. -/
def CommitEnv.cp (env : CommitEnv F A) : Transfer CStr F where
  xattrs := true
  lands p := !p.isEmpty && env.reached p
  cut p := (env.outcome p).cutTo
  keeps _ := true
  lands_parent p n hp h := by
    have hreach : env.reached (p ++ [n]) = true := by simpa using h
    simpa [hp] using env.reached_above (List.prefix_append p [n]) hreach
  keeps_root := rfl
  keeps_parent _ _ h := h

/-- What becomes of `rsync` or `tar`: everything is copied, or the tool stops with an error,
having copied some entries and taken some old ones away. -/
inductive ToolResult (F : Type) where
  | success
  | failure (outcome : Path CStr → CopyOutcome F) (removed : Path CStr → Bool)

namespace ToolResult

/-- The exit status is zero. -/
def ok : ToolResult F → Bool
  | .success => true
  | .failure _ _ => false

/-- The tool gets to this path. -/
def reaches : ToolResult F → Path CStr → Bool
  | .success, _ => true
  | .failure outcome _, p => p.inits.all fun q => (outcome q).landed

/-- Old entries at this path stay; `deletes` says that the tool is told to delete them. -/
def leaves (deletes : Bool) : ToolResult F → Path CStr → Bool
  | .success, p => p.isEmpty || !deletes
  | .failure _ removed, p => p.inits.all fun q => q.isEmpty || !removed q

def cutTo : ToolResult F → Path CStr → Option F
  | .success, _ => none
  | .failure outcome _, p => (outcome p).cutTo

theorem reaches_parent (r : ToolResult F) {p : Path CStr} {n : CStr}
    (h : r.reaches (p ++ [n]) = true) : r.reaches p = true := by
  cases r with
  | success => rfl
  | failure outcome removed =>
      simp only [reaches, List.all_eq_true, List.mem_inits] at h ⊢
      intro q hq
      exact h q (hq.trans (List.prefix_append p [n]))

theorem leaves_parent (deletes : Bool) (r : ToolResult F) {p : Path CStr} {n : CStr}
    (h : r.leaves deletes (p ++ [n]) = true) : r.leaves deletes p = true := by
  cases r with
  | success =>
      have hdeletes : deletes = false := by simpa [leaves] using h
      simp [leaves, hdeletes]
  | failure outcome removed =>
      simp only [leaves, List.all_eq_true, List.mem_inits] at h ⊢
      intro q hq
      exact h q (hq.trans (List.prefix_append p [n]))

/-- The pass of `rsync` (which deletes) or `tar`; neither is told to copy extended attributes. -/
def transfer (deletes : Bool) (r : ToolResult F) : Transfer CStr F where
  xattrs := false
  lands := r.reaches
  cut := r.cutTo
  keeps := r.leaves deletes
  lands_parent _ _ _ h := r.reaches_parent h
  keeps_root := by cases r <;> simp [leaves]
  keeps_parent _ _ h := r.leaves_parent deletes h

end ToolResult

/-- What the calls around `rsync` or `tar` meet. -/
structure ToolEnv (F A : Type) where
  mkdirOk : Bool
  dirAttr : A
  result : ToolResult F

/-! ### The functions -/

/-- The directory after `mkdir_recursive`, which accepts one that is there. -/
def madeDir (mkdirOk : Bool) (dirAttr : A) : Option (Layer CStr F A) → Option (Layer CStr F A)
  | some dir => some dir
  | none => if mkdirOk then some (.empty dirAttr) else none

/-- The directory after the tool, which does nothing without a source. -/
def fill (t : Transfer CStr F) (source : Option (Layer CStr F A)) (dir : Layer CStr F A) :
    Layer CStr F A :=
  match source with
  | some src => t.onto src dir
  | none => dir

def Storage.setLayer (st : Storage F A) (layerId : CStr) (dir : Layer CStr F A) : Storage F A :=
  { st with layers := Function.update st.layers layerId (some dir) }

/-- `storage_create_layer`; `source` is the tree at `source_dir`. -/
def storageCreateLayer (env : CommitEnv F A) (st : Storage F A) (source : Option (Layer CStr F A))
    (layerId : CStr) : CrCode × Storage F A :=
  -- Create layer directory
  if env.mkdirOk then
    -- Copy contents to layer
    let dir := (st.layers layerId).getD (.empty env.dirAttr)
    (.ok, st.setLayer layerId (fill env.cp source dir))
  else (.error, st)

/-- `storage_commit_container`, for a layer id that may be in use. -/
def storageCommitContainerOnto (env : CommitEnv F A) (st : Storage F A)
    (containerId layerId : CStr) : CrCode × Storage F A :=
  -- Create new layer from changes
  match madeDir env.mkdirOk env.dirAttr (st.layers layerId) with
  -- Copy changes to new layer
  | some dir => (.ok, st.setLayer layerId (fill env.cp (st.upper containerId) dir))
  | none => (.ok, st)

/-- A call that ends with `if (system(cmd) != 0) return CR_ERROR;`. -/
def fillWithTool (deletes : Bool) (env : ToolEnv F A) (st : Storage F A)
    (source : Option (Layer CStr F A)) (layerId : CStr) : CrCode × Storage F A :=
  match madeDir env.mkdirOk env.dirAttr (st.layers layerId) with
  | some dir =>
      (if source.isSome && env.result.ok then .ok else .error,
        st.setLayer layerId (fill (env.result.transfer deletes) source dir))
  | none => (.error, st)

/-- `storage_create_diff_layer`.  From the lower layer `rsync` takes hard links, for files
that are the same: it changes nothing in what the directory holds. -/
def storageCreateDiffLayer (env : ToolEnv F A) (st : Storage F A)
    (_lowerLayer upperLayer : Option (Layer CStr F A)) (layerId : CStr) : CrCode × Storage F A :=
  fillWithTool true env st upperLayer layerId

/-- `storage_import_layer`; `archive` is the tree in the tarball. -/
def storageImportLayer (env : ToolEnv F A) (st : Storage F A)
    (archive : Option (Layer CStr F A)) (layerId : CStr) : CrCode × Storage F A :=
  fillWithTool false env st archive layerId

/-! ### The commit of a fresh id -/

/-- What `cp` writes is the copy of `storage_commit_container`. -/
theorem CommitEnv.cp_write (env : CommitEnv F A) (p : Path CStr) (e : Entry F A) :
    env.cp.write p e none = env.copy p e := by
  cases e with
  | dir a o =>
      rw [env.copy_dir]
      simp [Transfer.write, CommitEnv.cp]
  | file f =>
      cases hcut : env.outcome p <;>
        simp [Transfer.write, cp, copy, hcut, CopyOutcome.cutTo]
  | whiteout => cases hcut : env.outcome p <;> simp [Transfer.write, copy, hcut]

/-- Into a directory that was just made, `cp` puts what it copies and nothing else. -/
theorem CommitEnv.cp_onto_empty (env : CommitEnv F A) (upper : Layer CStr F A) :
    env.cp.onto upper (.empty env.dirAttr) = env.copied upper := by
  refine Layer.ext_entry fun p => ?_
  show env.cp.ontoEntry upper (.empty env.dirAttr) p = env.copiedEntry upper p
  by_cases hp : p = []
  · subst hp
    rw [Transfer.ontoEntry_left (by simp [Transfer.placed, cp])]
    simp [Transfer.covered, cp, Layer.empty, copiedEntry]
  · have hold : (Layer.empty env.dirAttr : Layer CStr F A).entry p = none := Layer.empty_entry hp
    have hplaced : env.cp.placed upper (.empty env.dirAttr) p = env.copiedEntry upper p := by
      rw [copiedEntry_of_ne_nil env upper hp]
      simp only [Transfer.placed, hold, cp_write]
      simp [cp, hp]
    unfold Transfer.ontoEntry
    rw [hplaced, hold]
    simp

/-- For a fresh id the commit is the one of `Storage/Commit.lean`. -/
theorem storageCommitContainerOnto_fresh (env : CommitEnv F A) {st : Storage F A}
    {containerId layerId : CStr} (hfresh : st.layers layerId = none) :
    storageCommitContainerOnto env st containerId layerId =
      storageCommitContainer env st containerId layerId := by
  unfold storageCommitContainerOnto storageCommitContainer
  rw [hfresh]
  by_cases hmade : env.mkdirOk = true
  · simp only [madeDir, if_pos hmade]
    cases hupper : st.upper containerId with
    | none => rfl
    | some upper => simp [fill, env.cp_onto_empty, Storage.setLayer]
  · simp [madeDir, hmade]

/-! ### All or nothing -/

/-- The four calls, each with what it meets and copies. -/
inductive LayerOp (F A : Type) where
  | create (env : CommitEnv F A) (source : Option (Layer CStr F A))
  | diff (env : ToolEnv F A) (lowerLayer upperLayer : Option (Layer CStr F A))
  | importTar (env : ToolEnv F A) (archive : Option (Layer CStr F A))
  | commit (env : CommitEnv F A) (containerId : CStr)

namespace LayerOp

def run : LayerOp F A → Storage F A → CStr → CrCode × Storage F A
  | create env source, st, layerId => storageCreateLayer env st source layerId
  | diff env lower upper, st, layerId => storageCreateDiffLayer env st lower upper layerId
  | importTar env archive, st, layerId => storageImportLayer env st archive layerId
  | commit env containerId, st, layerId => storageCommitContainerOnto env st containerId layerId

/-- The tree the call is to copy. -/
def source : LayerOp F A → Storage F A → Option (Layer CStr F A)
  | create _ source, _ => source
  | diff _ _ upper, _ => upper
  | importTar _ archive, _ => archive
  | commit _ containerId, st => st.upper containerId

/-- The pass of the tool. -/
def transfer : LayerOp F A → Transfer CStr F
  | create env _ => env.cp
  | diff env _ _ => env.result.transfer true
  | importTar env _ => env.result.transfer false
  | commit env _ => env.cp

/-- With `CR_OK` everything was copied, and the directory of the layer holds exactly that; with
an error the layers are as they were. -/
def AllOrNothing (op : LayerOp F A) (st : Storage F A) (layerId : CStr) : Prop :=
  ((op.run st layerId).1 = .ok → ∃ src dir, op.source st = some src ∧ op.transfer.Complete src ∧
      (op.run st layerId).2.layers layerId = some dir ∧ op.transfer.Exact src dir) ∧
    ((op.run st layerId).1 ≠ .ok → (op.run st layerId).2.layers = st.layers)

end LayerOp

/-- There is a source, all of it is copied, and nothing of an old directory is left over. -/
def Filled (t : Transfer CStr F) (source old : Option (Layer CStr F A)) : Prop :=
  ∃ src, source = some src ∧ t.Complete src ∧ ∀ dir, old = some dir → t.NoRemnant src dir

/-- There was a directory, and nothing in it is touched. -/
def LeftAlone (t : Transfer CStr F) (source old : Option (Layer CStr F A)) : Prop :=
  ∃ dir, old = some dir ∧ ∀ src, source = some src → t.Unchanged src dir

/-- Where there is a directory to fill, the tool succeeds and nothing of an old one is left over,
or it fails without having touched anything. -/
def ToolSound (deletes : Bool) (env : ToolEnv F A) (source old : Option (Layer CStr F A)) : Prop :=
  env.mkdirOk = true ∨ old ≠ none →
    if source.isSome && env.result.ok then Filled (env.result.transfer deletes) source old
    else LeftAlone (env.result.transfer deletes) source old

/-- The condition, for each of the calls. -/
def LayerOp.Sound : LayerOp F A → Storage F A → CStr → Prop
  | create env source, st, layerId =>
      env.mkdirOk = true → Filled env.cp source (st.layers layerId)
  | diff env _ upper, st, layerId => ToolSound true env upper (st.layers layerId)
  | importTar env archive, st, layerId => ToolSound false env archive (st.layers layerId)
  | commit env containerId, st, layerId =>
      (env.mkdirOk = true ∨ st.layers layerId ≠ none) ∧
        Filled env.cp (st.upper containerId) (st.layers layerId)

theorem madeDir_ne_none {mkdirOk : Bool} {dirAttr : A} {old : Option (Layer CStr F A)} :
    madeDir mkdirOk dirAttr old ≠ none ↔ mkdirOk = true ∨ old ≠ none := by
  cases old with
  | some dir => simp [madeDir]
  | none => cases mkdirOk <;> simp [madeDir]

/-- In the directory that was made, nothing is left over exactly when nothing of an old one is. -/
theorem noRemnant_madeDir_iff {t : Transfer CStr F} {mkdirOk : Bool} {dirAttr : A}
    {src dir : Layer CStr F A} {old : Option (Layer CStr F A)}
    (hmade : madeDir mkdirOk dirAttr old = some dir) :
    t.NoRemnant src dir ↔ ∀ o, old = some o → t.NoRemnant src o := by
  cases old with
  | some o =>
      obtain rfl : o = dir := Option.some.inj hmade
      simp
  | none =>
      cases mkdirOk with
      | false => simp [madeDir] at hmade
      | true =>
          obtain rfl : Layer.empty dirAttr = dir := Option.some.inj hmade
          simp [t.noRemnant_empty]

/-- The filled directory holds exactly the source. -/
theorem filled_iff {t : Transfer CStr F} {mkdirOk : Bool} {dirAttr : A} {st : Storage F A}
    {source : Option (Layer CStr F A)} {layerId : CStr} {dir : Layer CStr F A}
    (hmade : madeDir mkdirOk dirAttr (st.layers layerId) = some dir) :
    (∃ src dst, source = some src ∧ t.Complete src ∧
        (st.setLayer layerId (fill t source dir)).layers layerId = some dst ∧ t.Exact src dst) ↔
      Filled t source (st.layers layerId) := by
  have hat : (st.setLayer layerId (fill t source dir)).layers layerId =
      some (fill t source dir) := by simp [Storage.setLayer]
  rw [hat]
  constructor
  · rintro ⟨src, dst, rfl, hall, hdst, hexact⟩
    obtain rfl : t.onto src dir = dst := Option.some.inj hdst
    exact ⟨src, rfl, hall, (noRemnant_madeDir_iff hmade).mp
      ((Transfer.onto_exact_iff hall).mp hexact)⟩
  · rintro ⟨src, rfl, hall, hclean⟩
    exact ⟨src, t.onto src dir, rfl, hall, rfl,
      (Transfer.onto_exact_iff hall).mpr ((noRemnant_madeDir_iff hmade).mpr hclean)⟩

/-- The layers are as they were although a directory was filled. -/
theorem leftAlone_iff {t : Transfer CStr F} {mkdirOk : Bool} {dirAttr : A} {st : Storage F A}
    {source : Option (Layer CStr F A)} {layerId : CStr} {dir : Layer CStr F A}
    (hmade : madeDir mkdirOk dirAttr (st.layers layerId) = some dir) :
    (st.setLayer layerId (fill t source dir)).layers = st.layers ↔
      LeftAlone t source (st.layers layerId) := by
  show Function.update st.layers layerId _ = st.layers ↔ _
  rw [Function.update_eq_self_iff]
  unfold LeftAlone
  cases hold : st.layers layerId with
  | none => simp
  | some o =>
      rw [hold] at hmade
      obtain rfl : o = dir := Option.some.inj hmade
      cases source with
      | none => simp [fill]
      | some src => simp [fill, Transfer.onto_eq_old_iff]

theorem toolSound_iff {deletes : Bool} {env : ToolEnv F A} {st : Storage F A}
    {source : Option (Layer CStr F A)} {layerId : CStr} :
    ((fillWithTool deletes env st source layerId).1 = .ok → ∃ src dir, source = some src ∧
          (env.result.transfer deletes).Complete src ∧
          (fillWithTool deletes env st source layerId).2.layers layerId = some dir ∧
          (env.result.transfer deletes).Exact src dir) ∧
        ((fillWithTool deletes env st source layerId).1 ≠ .ok →
          (fillWithTool deletes env st source layerId).2.layers = st.layers) ↔
      ToolSound deletes env source (st.layers layerId) := by
  unfold ToolSound
  rw [← @madeDir_ne_none F A env.mkdirOk env.dirAttr]
  unfold fillWithTool
  cases hmade : madeDir env.mkdirOk env.dirAttr (st.layers layerId) with
  | none => simp
  | some dir =>
      by_cases hok : (source.isSome && env.result.ok) = true
      · simp only [hok, if_true, ne_eq, reduceCtorEq, not_true, not_false_eq_true, forall_const,
          false_implies, and_true]
        exact filled_iff hmade
      · simp only [hok, if_false, ne_eq, reduceCtorEq, not_false_eq_true, forall_const,
          false_implies, true_and]
        exact leftAlone_iff hmade

theorem create_sound_iff {env : CommitEnv F A} {source : Option (Layer CStr F A)}
    {st : Storage F A} {layerId : CStr} :
    (LayerOp.create env source).AllOrNothing st layerId ↔
      (LayerOp.create env source).Sound st layerId := by
  unfold LayerOp.AllOrNothing LayerOp.Sound LayerOp.run LayerOp.source LayerOp.transfer
  simp only
  unfold storageCreateLayer
  by_cases hmkdir : env.mkdirOk = true
  · have hmade : madeDir env.mkdirOk env.dirAttr (st.layers layerId) =
        some ((st.layers layerId).getD (.empty env.dirAttr)) := by
      cases st.layers layerId <;> simp [madeDir, hmkdir]
    simp only [hmkdir, if_true, forall_const, ne_eq, not_true, false_implies, and_true]
    exact filled_iff hmade
  · simp [hmkdir]

theorem commit_sound_iff {env : CommitEnv F A} {containerId : CStr} {st : Storage F A}
    {layerId : CStr} :
    (LayerOp.commit env containerId).AllOrNothing st layerId ↔
      (LayerOp.commit env containerId).Sound st layerId := by
  unfold LayerOp.AllOrNothing LayerOp.Sound LayerOp.run LayerOp.source LayerOp.transfer
  simp only
  rw [← @madeDir_ne_none F A env.mkdirOk env.dirAttr]
  unfold storageCommitContainerOnto
  cases hmade : madeDir env.mkdirOk env.dirAttr (st.layers layerId) with
  | some dir =>
      simp only [forall_const, ne_eq, not_true, false_implies, and_true, reduceCtorEq,
        not_false_eq_true, true_and]
      exact filled_iff hmade
  | none =>
      have hnone : st.layers layerId = none := by
        cases hold : st.layers layerId with
        | none => rfl
        | some o => simp [hold, madeDir] at hmade
      simp [hnone]

/-- **When creating a layer is all or nothing**, for every call, every id and every outcome. -/
theorem allOrNothing_iff (op : LayerOp F A) (st : Storage F A) (layerId : CStr) :
    op.AllOrNothing st layerId ↔ op.Sound st layerId := by
  cases op with
  | create env source => exact create_sound_iff
  | diff env lower upper => exact toolSound_iff
  | importTar env archive => exact toolSound_iff
  | commit env containerId => exact commit_sound_iff

/-! ### Tools that stop at the start -/

/-- A store without layers and containers. -/
def bareStorage : Storage CStr Unit := ⟨fun _ => none, fun _ => none⟩

/-- The directory is made, and `cp` copies nothing. -/
def cpStops : CommitEnv CStr Unit := ⟨true, (), fun _ => .failed⟩

/-- The directory is made, and `tar` extracts nothing. -/
def tarStops : ToolEnv CStr Unit := ⟨true, (), .failure (fun _ => .failed) fun _ => false⟩

/-- `storage_create_layer` returns `CR_OK` for a layer that is empty, and `storage_import_layer`
leaves the empty directory of a layer behind when it fails. -/
theorem empty_layers :
    let tree := some (oneFile "notes".toList "hello".toList)
    ¬(LayerOp.create cpStops tree).AllOrNothing bareStorage "new".toList ∧
      ¬(LayerOp.importTar tarStops tree).AllOrNothing bareStorage "new".toList := by
  constructor
  · rintro ⟨hok, -⟩
    obtain ⟨src, dir, hsrc, hall, -⟩ := hok rfl
    obtain rfl := Option.some.inj hsrc
    have hlands := (hall ["notes".toList] (.file "hello".toList) (by simp) (by decide)).1
    exact absurd hlands (by decide)
  · rintro ⟨-, herror⟩
    have hsame := congrFun (herror (by decide)) "new".toList
    simp [LayerOp.run, storageImportLayer, fillWithTool, bareStorage, tarStops, madeDir,
      Storage.setLayer] at hsame

end Cruntime
