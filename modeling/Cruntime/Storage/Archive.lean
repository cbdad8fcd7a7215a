/-
A layer through a tarball and back.

`storage_export_layer` and `storage_import_layer` run `tar` without `--xattrs`.  Files,
modes, owners and the device nodes that stand for whiteouts go through; the mark that
makes a directory opaque is an extended attribute and does not.  And what stood in
the target directory before stays, with its marks, unless the archive puts something
else in its place.

So the layer comes back exactly when no mark is lost or left over and nothing stale
remains (`roundTrip_iff`).
-/
import Cruntime.Storage.Layers

namespace Cruntime

open Overlay

variable {F A : Type}

/-- `storage_export_layer`: its code, and the tree in the archive when there is one.  A tar
that fails leaves an archive with part of the tree, with a root of any attributes. -/
def storageExportLayer (result : ToolResult F) (rootAttr : A) (layer : Option (Layer CStr F A)) :
    CrCode × Option (Layer CStr F A) :=
  match layer with
  | some l =>
      (if result.ok then .ok else .error,
        some ((result.transfer true).onto l (.empty rootAttr)))
  | none => (.error, none)

namespace ToolResult

/-- A tool that succeeds gets everywhere and cuts nothing. -/
theorem success_lands (deletes : Bool) (p : Path CStr) :
    ((success : ToolResult F).transfer deletes).lands p = true := rfl

theorem success_cut (deletes : Bool) (p : Path CStr) :
    ((success : ToolResult F).transfer deletes).cut p = none := rfl

/-- Onto an empty directory it writes the tree without its marks. -/
theorem success_onto_empty (deletes : Bool) (src : Layer CStr F A) (a : A) (p : Path CStr) :
    (((success : ToolResult F).transfer deletes).onto src (.empty a)).entry p =
      (src.entry p).map Entry.unmarked := by
  cases he : src.entry p with
  | none =>
      rw [Transfer.onto_entry_none he, Layer.empty_entry (Layer.ne_nil_of_none he)]
      exact ite_self none
  | some e =>
      rw [Transfer.onto_entry_some (success_lands deletes p) he, Option.map_some]
      congr 1
      cases e with
      | file f => rfl
      | whiteout => rfl
      | dir b o =>
          have hmark : ((Layer.empty a : Layer CStr F A).entry p).any Entry.mark = false := by
            by_cases hp : p = []
            · subst hp
              rfl
            · rw [Layer.empty_entry hp]
              rfl
          show Entry.dir b ((false && o) || _) = Entry.dir b false
          rw [hmark]
          rfl

end ToolResult

/-- What the archive of an export that succeeded holds. -/
theorem export_archive {result : ToolResult F} {rootAttr : A} {l archive : Layer CStr F A}
    (h : storageExportLayer result rootAttr (some l) = (.ok, some archive)) (p : Path CStr) :
    archive.entry p = (l.entry p).map Entry.unmarked := by
  cases result with
  | failure outcome removed => simp [storageExportLayer, ToolResult.ok] at h
  | success =>
      obtain ⟨-, harchive⟩ := Prod.mk.inj h
      rw [← Option.some.inj harchive]
      exact ToolResult.success_onto_empty true l rootAttr p

/-- What an import that succeeds leaves under the id. -/
theorem import_layers {env : ToolEnv F A} {st : Storage F A} {archive : Layer CStr F A}
    {layerId : CStr} (h : (storageImportLayer env st (some archive) layerId).1 = .ok) :
    (storageImportLayer env st (some archive) layerId).2.layers layerId =
      some (((ToolResult.success : ToolResult F).transfer false).onto archive
        ((st.layers layerId).getD (.empty env.dirAttr))) := by
  unfold storageImportLayer fillWithTool at h ⊢
  cases hmade : madeDir env.mkdirOk env.dirAttr (st.layers layerId) with
  | none => simp [hmade] at h
  | some dir =>
      have hdir : (st.layers layerId).getD (.empty env.dirAttr) = dir := by
        cases hold : st.layers layerId with
        | some o =>
            rw [hold] at hmade
            exact Option.some.inj hmade
        | none =>
            rw [hold] at hmade
            by_cases hmkdir : env.mkdirOk = true
            · simpa [madeDir, hmkdir] using hmade
            · simp [madeDir, hmkdir] at hmade
      cases hresult : env.result with
      | failure outcome removed => simp [hmade, hresult, ToolResult.ok] at h
      | success => simp [hdir, Storage.setLayer, fill]

/-! ### There and back -/

@[simp] theorem Entry.unmarked_isDir (e : Entry F A) : e.unmarked.isDir = e.isDir := by
  cases e <;> rfl

/-- The target directory is one the layer comes back in: it has the mark of each opaque
directory of the layer already, and of no other of its directories, and what else stands in
it lies below something of the layer that is no directory. -/
structure ComesBack (l target : Layer CStr F A) : Prop where
  marks : ∀ p a o, l.entry p = some (.dir a o) →
    (o = true ↔ ∃ b, target.entry p = some (.dir b true))
  clean : ∀ p, l.entry p = none → target.entry p ≠ none →
    ∃ q s e, p = q ++ s ∧ s ≠ [] ∧ l.entry q = some e ∧ e.isDir = false

/-- In a fresh directory a layer without opaque directories comes back, and no other. -/
theorem comesBack_empty_iff {l : Layer CStr F A} {a : A} :
    ComesBack l (.empty a) ↔ ∀ p b, l.entry p ≠ some (.dir b true) := by
  have hnomark : ∀ p b, (Layer.empty a : Layer CStr F A).entry p ≠ some (.dir b true) := by
    intro p b
    by_cases hp : p = []
    · simp [Layer.empty, hp]
    · rw [Layer.empty_entry hp]
      simp
  constructor
  · intro h p b hb
    obtain ⟨c, hc⟩ := (h.marks p b true hb).mp rfl
    exact hnomark p c hc
  · intro h
    refine ⟨fun p b o hb => ?_, fun p hl htarget => ?_⟩
    · cases o with
      | true => exact absurd hb (h p b)
      | false => simp [hnomark]
    · exact absurd (Layer.empty_entry (Layer.ne_nil_of_none hl)) htarget

section Onto

variable {l archive target : Layer CStr F A}
  (harchive : ∀ p, archive.entry p = (l.entry p).map Entry.unmarked)

include harchive

theorem covered_archive_iff {p : Path CStr} :
    ((ToolResult.success : ToolResult F).transfer false).covered archive p = true ↔
      ∃ q s e, p = q ++ s ∧ s ≠ [] ∧ l.entry q = some e ∧ e.isDir = false := by
  rw [Transfer.covered_iff]
  constructor
  · rintro ⟨q, s, hp, hs, -, e, he, hdir⟩
    rw [harchive q] at he
    obtain ⟨e', he', rfl⟩ := Option.map_eq_some_iff.mp he
    exact ⟨q, s, e', hp, hs, he', by simpa using hdir⟩
  · rintro ⟨q, s, e, hp, hs, he, hdir⟩
    exact ⟨q, s, hp, hs, rfl, e.unmarked, by rw [harchive q, he]; rfl, by simpa using hdir⟩

/-- Where the layer has an entry, it comes back if its mark was there. -/
theorem import_entry_some {p : Path CStr} {e : Entry F A} (he : l.entry p = some e) :
    (((ToolResult.success : ToolResult F).transfer false).onto archive target).entry p = some e ↔
      ∀ a o, e = .dir a o → (o = true ↔ ∃ b, target.entry p = some (.dir b true)) := by
  rw [Transfer.onto_entry_some (ToolResult.success_lands false p)
    (show archive.entry p = some e.unmarked by rw [harchive p, he]; rfl), Option.some.injEq]
  cases e with
  | file f => simp [Entry.unmarked, Transfer.write, ToolResult.success_cut]
  | whiteout => simp [Entry.unmarked, Transfer.write]
  | dir a o =>
      have hmark : (target.entry p).any Entry.mark = true ↔
          ∃ b, target.entry p = some (.dir b true) := by
        cases target.entry p with
        | none => simp
        | some e' => cases e' <;> simp [Entry.mark]
      have hwrite : ((ToolResult.success : ToolResult F).transfer false).write p
          (.dir a false) (target.entry p) = .dir a ((target.entry p).any Entry.mark) := by
        simp [Transfer.write]
      rw [Entry.unmarked, hwrite]
      simp only [Entry.dir.injEq, true_and, and_imp]
      rw [Bool.eq_iff_iff, hmark]
      constructor
      · rintro h _ _ rfl rfl
        exact h.symm
      · intro h
        exact (h a o rfl rfl).symm

theorem import_entry_none {p : Path CStr} (he : l.entry p = none) :
    (((ToolResult.success : ToolResult F).transfer false).onto archive target).entry p = none ↔
      (target.entry p ≠ none →
        ∃ q s e, p = q ++ s ∧ s ≠ [] ∧ l.entry q = some e ∧ e.isDir = false) := by
  rw [Transfer.onto_entry_none (by rw [harchive p, he]; rfl), ← covered_archive_iff harchive]
  have hkeeps : ((ToolResult.success : ToolResult F).transfer false).keeps p = true := by
    simp [ToolResult.transfer, ToolResult.leaves]
  simp only [hkeeps, true_and]
  split
  · rename_i hfree
    simp [hfree]
  · rename_i hcovered
    simpa using fun _ => hcovered

/-- The extracted tree is the layer exactly in a directory it comes back in. -/
theorem onto_archive_iff :
    (∀ p, (((ToolResult.success : ToolResult F).transfer false).onto archive target).entry p =
        l.entry p) ↔ ComesBack l target := by
  constructor
  · intro h
    refine ⟨fun p a o he => ?_, fun p he => ?_⟩
    · exact (import_entry_some harchive he).mp ((h p).trans he) a o rfl
    · exact (import_entry_none harchive he).mp ((h p).trans he)
  · intro h p
    cases he : l.entry p with
    | some e =>
        refine (import_entry_some harchive he).mpr fun a o hdir => ?_
        exact h.marks p a o (he.trans (congrArg some hdir))
    | none => exact (import_entry_none harchive he).mpr (h.clean p he)

end Onto

/-- The imported layer is the exported one, entry by entry, and shows the same over any layers. -/
def RoundTrip (l : Layer CStr F A) (st' : Storage F A) (layerId : CStr) : Prop :=
  ∃ l', st'.layers layerId = some l' ∧ (∀ p, l'.entry p = l.entry p) ∧
    ∀ lower, merged (l' :: lower) = merged (l :: lower)

/-- **When a layer survives export and import**: when the target directory is one it comes back
in. -/
theorem roundTrip_iff {result : ToolResult F} {rootAttr : A} {l archive : Layer CStr F A}
    (hexport : storageExportLayer result rootAttr (some l) = (.ok, some archive))
    {env : ToolEnv F A} {st : Storage F A} {layerId : CStr}
    (himport : (storageImportLayer env st (some archive) layerId).1 = .ok) :
    RoundTrip l (storageImportLayer env st (some archive) layerId).2 layerId ↔
      ComesBack l ((st.layers layerId).getD (.empty env.dirAttr)) := by
  unfold RoundTrip
  rw [import_layers himport, ← onto_archive_iff (export_archive hexport)]
  constructor
  · rintro ⟨l', hl', hsame, -⟩
    obtain rfl := Option.some.inj hl'
    exact hsame
  · intro hsame
    refine ⟨_, rfl, hsame, fun lower => ?_⟩
    rw [Layer.ext_entry hsame]

/-! ### A file and an opaque directory -/

/-- A layer with one opaque directory in it. -/
def opaqueDir (name : CStr) : Layer CStr CStr Unit where
  entry
    | [] => some (.dir () false)
    | [n] => if n = name then some (.dir () true) else none
    | _ => none
  root := ⟨(), rfl⟩
  parent := by
    intro p n h
    match p with
    | [] => exact ⟨(), false, rfl⟩
    | [_] => simp at h
    | _ :: _ :: _ => simp at h

/-- The directory is made, and everything is extracted. -/
def tarExtracts : ToolEnv CStr Unit := ⟨true, (), .success⟩

/-- The archive of a layer when everything is written. -/
def tarball (l : Layer CStr CStr Unit) : Layer CStr CStr Unit :=
  ((ToolResult.success : ToolResult CStr).transfer true).onto l (.empty ())

theorem export_tarball (l : Layer CStr CStr Unit) :
    storageExportLayer .success () (some l) = (.ok, some (tarball l)) := rfl

theorem import_tarball (l : Layer CStr CStr Unit) (layerId : CStr) :
    (storageImportLayer tarExtracts bareStorage (some (tarball l)) layerId).1 = .ok := rfl

/-- A layer with a file comes back. -/
theorem roundTrip_one_file :
    RoundTrip (oneFile "notes".toList "hello".toList)
      (storageImportLayer tarExtracts bareStorage
        (some (tarball (oneFile "notes".toList "hello".toList))) "new".toList).2 "new".toList := by
  refine (roundTrip_iff (export_tarball _) (import_tarball _ _)).mpr ?_
  refine comesBack_empty_iff.mpr fun p b hb => ?_
  rcases plainTree_oneFile _ _ p _ hb with ⟨f, hf⟩ | ⟨a, ha⟩
  · simp at hf
  · simp at ha

/-- An opaque directory does not: it comes back as a plain one. -/
theorem opaque_mark_lost :
    storageExportLayer .success () (some (opaqueDir "etc".toList)) =
        (.ok, some (tarball (opaqueDir "etc".toList))) ∧
      (storageImportLayer tarExtracts bareStorage (some (tarball (opaqueDir "etc".toList)))
        "new".toList).1 = .ok ∧
      ¬RoundTrip (opaqueDir "etc".toList)
        (storageImportLayer tarExtracts bareStorage (some (tarball (opaqueDir "etc".toList)))
          "new".toList).2 "new".toList := by
  refine ⟨rfl, rfl, ?_⟩
  rintro ⟨l', hl', hsame, -⟩
  rw [import_layers rfl] at hl'
  obtain rfl := Option.some.inj hl'
  have hmarks := (onto_archive_iff (export_archive (export_tarball (opaqueDir "etc".toList)))).mp
    hsame
  exact comesBack_empty_iff.mp hmarks ["etc".toList] () (by decide)

end Cruntime
