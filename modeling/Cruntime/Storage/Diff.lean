/-
What a diff layer shows on top of the layer it was made against.

`storage_create_diff_layer` has `rsync` fill a directory so that it holds the same tree as
the upper layer; from the lower one it only takes hard links.  A layer that holds
the whole upper tree hides nothing of the lower one, though: deletions would need
whiteouts, and `rsync` makes none.  What was deleted shows through again, unless a
file has come in the place of a directory above it.
-/
import Cruntime.Storage.Archive

namespace Cruntime

open Overlay

variable {F A : Type}

/-- A diff of a plain tree into a fresh directory is the tree. -/
theorem diff_layers {env : ToolEnv F A} {st : Storage F A} {lower : Option (Layer CStr F A)}
    {upper : Layer CStr F A} (hupper : upper.PlainTree) {layerId : CStr}
    (hfresh : st.layers layerId = none)
    (hok : (storageCreateDiffLayer env st lower (some upper) layerId).1 = .ok) :
    (storageCreateDiffLayer env st lower (some upper) layerId).2.layers layerId = some upper := by
  unfold storageCreateDiffLayer fillWithTool at hok ⊢
  rw [hfresh] at hok ⊢
  by_cases hmkdir : env.mkdirOk = true
  · cases hresult : env.result with
    | failure outcome removed => simp [madeDir, hmkdir, hresult, ToolResult.ok] at hok
    | success =>
        have hsame : ((ToolResult.success : ToolResult F).transfer true).onto upper
            (.empty env.dirAttr) = upper := by
          refine Layer.ext_entry fun p => ?_
          rw [ToolResult.success_onto_empty]
          cases he : upper.entry p with
          | none => rfl
          | some e => rcases hupper p e he with ⟨f, rfl⟩ | ⟨a, rfl⟩ <;> rfl
        simp [madeDir, hmkdir, Storage.setLayer, fill, hsame]
  · simp [madeDir, hmkdir] at hok

/-- The diff layer on top of the lower layer shows the upper tree. -/
def Reconstructs (lower upper : Layer CStr F A) (st' : Storage F A) (layerId : CStr) : Prop :=
  ∃ diff, st'.layers layerId = some diff ∧ merged [diff, lower] = merged [upper]

/-- **When a diff layer reconstructs its target**: when whatever the upper tree lacks of the lower
one lies below a file of the upper tree. -/
theorem reconstructs_iff {env : ToolEnv F A} {st : Storage F A} {lower upper : Layer CStr F A}
    (hlower : lower.PlainTree) (hupper : upper.PlainTree) {layerId : CStr}
    (hfresh : st.layers layerId = none)
    (hok : (storageCreateDiffLayer env st (some lower) (some upper) layerId).1 = .ok) :
    Reconstructs lower upper (storageCreateDiffLayer env st (some lower) (some upper) layerId).2
        layerId ↔
      ∀ p, lower.entry p ≠ none → upper.entry p = none →
        ∃ q f, q <+: p ∧ upper.entry q = some (.file f) := by
  rw [← atop_plain_iff hupper hlower]
  unfold Reconstructs
  rw [diff_layers hupper hfresh hok]
  simp

/-! ### A file that stays and a file that goes -/

theorem plainTree_empty (a : A) : (Layer.empty a : Layer CStr F A).PlainTree := by
  intro p e he
  by_cases hp : p = []
  · subst hp
    exact Or.inr ⟨a, (Option.some.inj he).symm⟩
  · rw [Layer.empty_entry hp] at he
    simp at he

/-- `rsync` copies everything. -/
def rsyncCopies : ToolEnv CStr Unit := ⟨true, (), .success⟩

/-- A file whose contents change is shown as it became. -/
theorem reconstructs_changed_file :
    Reconstructs (oneFile "notes".toList "old".toList) (oneFile "notes".toList "renewed".toList)
      (storageCreateDiffLayer rsyncCopies bareStorage (some (oneFile "notes".toList "old".toList))
        (some (oneFile "notes".toList "renewed".toList)) "diff".toList).2 "diff".toList := by
  refine (reconstructs_iff (plainTree_oneFile _ _) (plainTree_oneFile _ _) rfl rfl).mpr ?_
  intro p hold hnew
  exact absurd (oneFile_entry_eq_none.mpr (oneFile_entry_eq_none.mp hnew)) hold

/-- A file that was deleted is shown again. -/
theorem deleted_file_shows :
    let lower := oneFile "notes".toList "hello".toList
    let made := storageCreateDiffLayer rsyncCopies bareStorage (some lower)
      (some (.empty ())) "diff".toList
    made.1 = .ok ∧ ¬Reconstructs lower (.empty ()) made.2 "diff".toList := by
  refine ⟨rfl, ?_⟩
  rintro ⟨diff, hdiff, hsame⟩
  rw [diff_layers (plainTree_empty ()) rfl rfl] at hdiff
  obtain rfl := Option.some.inj hdiff
  exact absurd (congrFun hsame ["notes".toList]) (by decide)

end Cruntime
