/-
`mkdir_recursive` on a tree of directories and files.

The function copies the path, drops one slash at its end, and calls `mkdir` on the text in
front of every slash but the first byte and then on the whole.  `EEXIST` counts as success,
whatever it is that exists.  In front of the last component that does no harm, as the next
call finds that the path leads through a file.  At the last component nothing comes after
it: the function returns `CR_OK` and the path is a file.  The other thing that goes wrong
is the path `/` alone, of which nothing is left when the slash is dropped.

The texts that are passed to `mkdir` grow by at most one component from one to the next, so
that the run is one of `Lib/FileTree.lean`.
-/
import Cruntime.Lib.FileTree
import Cruntime.Storage.Mount

namespace Cruntime

open FileTree (MkdirResult mkdirEach place Next)
open Paths (Path)
open Script (run checkAll)

/-! ### The call -/

/-- The components of a path. -/
def components (text : CStr) : List CStr := (text.splitOn '/').filter (· ≠ [])

/-- Where a path is looked up from. -/
def startOf (cwd : Path) (text : CStr) : Path := if text.head? = some '/' then [] else cwd

section Calls

variable {F A : Type} (refuses : Path → Bool) (attr : A) (cwd : Path)

/-- The system call on a text; the empty one names nothing. -/
def mkdirPath (t : FileTree F A) (text : CStr) : MkdirResult F A :=
  if text = [] then .failed else t.mkdir refuses attr (startOf cwd text) (components text)

/-- What the calls of `mkdir_recursive` do to a tree: `EEXIST` passes for success. -/
def StorageCmd.onTree : StorageCmd → FileTree F A → Option (FileTree F A)
  | .mkdir text, t =>
      match mkdirPath refuses attr cwd t text with
      | .made t' => some t'
      | .eexist => some t
      | .failed => none
  | .mount _ _, _ => none

/-- `mkdir_recursive` on a tree: its code, and the tree it leaves. -/
def mkdirOn (path : CStr) (t : FileTree F A) : CrCode × FileTree F A :=
  let r := run (StorageCmd.onTree refuses attr cwd) (mkdirRecursive path) (.calm t)
  (r.1, r.2.state)

/-- A path resolves to a directory. -/
def ResolvesToDir (t : FileTree F A) (path : CStr) : Prop :=
  path ≠ [] ∧ (t.lookup (startOf cwd path) (components path)).isSome = true

end Calls

/-! ### The texts that are passed to it -/

/-- The texts in front of the slashes of `rest`, behind a text that comes before it. -/
def cutsFrom (before : CStr) : CStr → List CStr
  | [] => []
  | c :: rest =>
      if c = '/' then before :: cutsFrom (before ++ [c]) rest else cutsFrom (before ++ [c]) rest

/-- A path without one slash at its end, `tmp`. -/
def withoutSlash (path : CStr) : CStr := if path.getLast? = some '/' then path.dropLast else path

/-- All the texts. -/
def cuts (path : CStr) : List CStr :=
  let tmp := withoutSlash path
  cutsFrom (tmp.take 1) (tmp.drop 1) ++ [tmp]

theorem mkdirPrefixes_eq (rest : CStr) : ∀ before, mkdirPrefixes before rest =
    checkAll ((cutsFrom before rest).map .mkdir) .esyscall (.ret .ok) := by
  induction rest with
  | nil => intro before; rfl
  | cons c rest ih =>
      intro before
      unfold mkdirPrefixes cutsFrom
      by_cases hc : c = '/'
      · simp only [if_pos hc, ih, Script.issue_bind, List.map_cons]
        rfl
      · simp only [if_neg hc, ih]

/-- The function makes one call for each of them, up to the first that fails. -/
theorem mkdirRecursive_eq {path : CStr} (hlen : path.length < maxPathLen) :
    mkdirRecursive path = checkAll ((cuts path).map .mkdir) .esyscall (.ret .ok) := by
  unfold mkdirRecursive cuts
  rw [snprintf_eq_self hlen]
  simp only [mkdirPrefixes_eq]
  rw [@Script.checkAll_bind _ CrCode CrCode _ .esyscall .esyscall, List.map_append,
    Script.checkAll_append]
  · rfl
  · rfl

/-- What `mkdirEach` says of the components, the function does with the texts. -/
theorem run_checkAll_mkdir {F A : Type} (refuses : Path → Bool) (attr : A) (cwd start : Path) :
    ∀ (texts : List CStr) (t : FileTree F A),
      (∀ text ∈ texts, text ≠ [] ∧ startOf cwd text = start) →
        run (StorageCmd.onTree refuses attr cwd)
            (checkAll (texts.map .mkdir) .esyscall (.ret CrCode.ok)) (.calm t) =
          (if (mkdirEach refuses attr start (texts.map components) t).1 then .ok else .esyscall,
            .calm (mkdirEach refuses attr start (texts.map components) t).2) := by
  intro texts
  induction texts with
  | nil => intro t _; rfl
  | cons text texts ih =>
      intro t hall
      obtain ⟨hne, rfl⟩ := hall text (by simp)
      have hrest := fun t' => ih t' fun text' h => hall text' (List.mem_cons_of_mem _ h)
      have hpath : mkdirPath refuses attr cwd t text =
          t.mkdir refuses attr (startOf cwd text) (components text) := if_neg hne
      rw [List.map_cons, List.map_cons, checkAll, Script.run_exec_calm]
      unfold mkdirEach
      cases hmk : t.mkdir refuses attr (startOf cwd text) (components text) with
      | made t' =>
          rw [Script.attempt_some _ (t := t') (by simp [StorageCmd.onTree, hpath, hmk])]
          exact hrest t'
      | eexist =>
          rw [Script.attempt_some _ (t := t) (by simp [StorageCmd.onTree, hpath, hmk])]
          exact hrest t
      | failed =>
          rw [Script.attempt_none _ (by simp [StorageCmd.onTree, hpath, hmk])]
          rfl

/-! ### Their components -/

theorem components_append (s t : CStr) :
    components (s ++ '/' :: t) = components s ++ components t := by
  unfold components
  rw [List.splitOn_append_cons_self, List.filter_append]

/-- A text without a slash is one component, or none. -/
theorem components_of_notMem {s : CStr} (h : '/' ∉ s) :
    components s = if s = [] then [] else [s] := by
  unfold components
  rw [List.splitOn_eq_singleton h]
  by_cases hs : s = []
  · simp [hs]
  · simp [hs]

/-- A slash at the end is not part of a component. -/
theorem components_withoutSlash (path : CStr) :
    components (withoutSlash path) = components path := by
  unfold withoutSlash
  by_cases hlast : path.getLast? = some '/'
  · have hsplit : path = path.dropLast ++ ['/'] := (List.dropLast_append_getLast? _ hlast).symm
    have hnil : components [] = [] := rfl
    rw [if_pos hlast]
    conv_rhs => rw [hsplit, components_append, hnil, List.append_nil]
  · rw [if_neg hlast]

/-- In front of a text, at a cut or between two: whatever is still to come before the next
slash, there is at most one component more than at the cut. -/
def Pending (names : List CStr) (before : CStr) : Prop :=
  ∀ s, '/' ∉ s → Next names (components (before ++ s))

theorem Pending.char {names : List CStr} {before : CStr} (h : Pending names before) {c : Char}
    (hc : c ≠ '/') : Pending names (before ++ [c]) := by
  intro s hs
  rw [List.append_assoc]
  exact h (c :: s) (by simp [Ne.symm hc, hs])

theorem pending_slash (before : CStr) : Pending (components before) (before ++ ['/']) := by
  intro s hs
  rw [List.append_assoc, List.singleton_append, components_append, components_of_notMem hs]
  by_cases hnil : s = []
  · exact Or.inl (by simp [hnil])
  · exact Or.inr ⟨s, by simp [hnil]⟩

/-- The first byte is never a cut. -/
theorem pending_first (c : Char) : Pending [] [c] := by
  by_cases hc : c = '/'
  · subst hc
    exact pending_slash []
  · intro s hs
    rw [List.singleton_append, components_of_notMem (by simp [Ne.symm hc, hs])]
    exact Or.inr ⟨c :: s, by simp⟩

/-- From one text to the next there is one component more, or none. -/
theorem isChain_cutsFrom : ∀ (rest before : CStr) (names : List CStr), Pending names before →
    (names :: (cutsFrom before rest ++ [before ++ rest]).map components).IsChain Next := by
  intro rest
  induction rest with
  | nil =>
      intro before names h
      simpa [cutsFrom] using h [] (by simp)
  | cons c rest ih =>
      intro before names h
      have hsplit : before ++ c :: rest = before ++ [c] ++ rest := by simp
      unfold cutsFrom
      rw [hsplit]
      by_cases hc : c = '/'
      · subst hc
        rw [if_pos rfl, List.cons_append, List.map_cons, List.isChain_cons_cons]
        have hnext := h [] (by simp)
        rw [List.append_nil] at hnext
        exact ⟨hnext, ih _ _ (pending_slash before)⟩
      · rw [if_neg hc]
        exact ih _ _ (h.char hc)

theorem isPrefix_of_mem_cutsFrom : ∀ (rest before : CStr),
    ∀ text ∈ cutsFrom before rest ++ [before ++ rest], before <+: text := by
  intro rest
  induction rest with
  | nil => intro before text htext; simp [cutsFrom] at htext; simp [htext]
  | cons c rest ih =>
      intro before text htext
      have hsplit : before ++ c :: rest = before ++ [c] ++ rest := by simp
      unfold cutsFrom at htext
      rw [hsplit] at htext
      by_cases hc : c = '/'
      · rw [if_pos hc, List.cons_append] at htext
        rcases List.mem_cons.mp htext with rfl | htext
        · exact List.prefix_refl _
        · exact (List.prefix_append _ _).trans (ih _ text htext)
      · rw [if_neg hc] at htext
        exact (List.prefix_append _ _).trans (ih _ text htext)

/-- What is left of a path that is not a slash alone. -/
theorem withoutSlash_eq_cons {path : CStr} (hne : path ≠ []) (hslash : path ≠ ['/']) :
    ∃ c rest, withoutSlash path = c :: rest ∧ path.head? = some c := by
  unfold withoutSlash
  obtain ⟨c, rest, rfl⟩ := List.exists_cons_of_ne_nil hne
  by_cases hlast : (c :: rest).getLast? = some '/'
  · cases rest with
    | nil =>
        simp only [List.getLast?_singleton, Option.some.injEq] at hlast
        exact absurd (by rw [hlast]) hslash
    | cons d rest => exact ⟨c, _, by rw [if_pos hlast, List.dropLast_cons_cons], rfl⟩
  · exact ⟨c, rest, by rw [if_neg hlast], rfl⟩

/-- The texts of a path that is not a slash alone: none is empty, all are looked up from where the
path is, and their components go up to those of the path one at a time. -/
theorem cuts_spec (cwd : Path) {path : CStr} (hne : path ≠ []) (hslash : path ≠ ['/']) :
    (∀ text ∈ cuts path, text ≠ [] ∧ startOf cwd text = startOf cwd path) ∧
      ([] :: (cuts path).map components).IsChain Next ∧
      ((cuts path).map components).getLastD [] = components path := by
  obtain ⟨c, rest, htmp, hhead⟩ := withoutSlash_eq_cons hne hslash
  have hcuts : cuts path = cutsFrom [c] rest ++ [[c] ++ rest] := by
    unfold cuts
    rw [htmp]
    rfl
  rw [hcuts]
  refine ⟨fun text htext => ?_, isChain_cutsFrom rest [c] [] (pending_first c), ?_⟩
  · obtain ⟨more, rfl⟩ := isPrefix_of_mem_cutsFrom rest [c] text htext
    refine ⟨by simp, ?_⟩
    unfold startOf
    rw [hhead]
    rfl
  · rw [List.map_append, List.map_singleton, List.getLastD_concat, List.singleton_append, ← htmp,
      components_withoutSlash]

/-! ### What is asked of the function -/

section Correct

variable {F A : Type} (refuses : Path → Bool) (attr : A) (cwd : Path)

/-- `CR_OK` means that the path is a directory afterwards, and then everything above it is one,
nothing else has changed, and a second call has nothing to do. -/
structure MkdirCorrect (t : FileTree F A) (path : CStr) : Prop where
  ok_iff : (mkdirOn refuses attr cwd path t).1 = .ok ↔
    ResolvesToDir cwd (mkdirOn refuses attr cwd path t).2 path
  above : (mkdirOn refuses attr cwd path t).1 = .ok → ∀ names, names <+: components path →
    ((mkdirOn refuses attr cwd path t).2.lookup (startOf cwd path) names).isSome = true
  kept : (mkdirOn refuses attr cwd path t).1 = .ok → ∀ p, t.entry p ≠ none →
    (mkdirOn refuses attr cwd path t).2.entry p = t.entry p
  added : (mkdirOn refuses attr cwd path t).1 = .ok → ∀ p, t.entry p = none →
    (mkdirOn refuses attr cwd path t).2.entry p ≠ none →
      (mkdirOn refuses attr cwd path t).2.entry p = some (.dir attr) ∧
        ∃ names, names <+: components path ∧ p = place (startOf cwd path) names
  again : (mkdirOn refuses attr cwd path t).1 = .ok →
    mkdirOn refuses attr cwd path (mkdirOn refuses attr cwd path t).2 =
      (.ok, (mkdirOn refuses attr cwd path t).2)

/-- The path is a regular file, and on the way to it directories are there or can be made. -/
structure EndsAtFile (t : FileTree F A) (path : CStr) : Prop where
  file : ∃ f, t.entry (place (startOf cwd path) (components path)) = some (.file f)
  passable : ∀ names, names <+: components path → names ≠ components path →
    FileTree.Passable refuses t (place (startOf cwd path) names)

variable {refuses} {attr} {cwd} {t : FileTree F A} {path : CStr}

theorem isDir_startOf (hcwd : t.isDir cwd = true) (path : CStr) :
    t.isDir (startOf cwd path) = true := by
  unfold startOf
  split_ifs
  · exact FileTree.isDir_iff.mpr t.root
  · exact hcwd

theorem resolvesToDir_iff (hcwd : t.isDir cwd = true) (hne : path ≠ []) :
    ResolvesToDir cwd t path ↔ t.Leads (startOf cwd path) (components path) := by
  have hnone := @FileTree.lookup_eq_none_iff _ _ t _ (isDir_startOf hcwd path) (components path)
  unfold ResolvesToDir
  rw [Option.isSome_iff_ne_none, Ne, Ne, hnone, not_not]
  exact and_iff_right hne

/-- Of a slash alone nothing is left for `mkdir`. -/
theorem mkdirOn_slash : mkdirOn refuses attr cwd ['/'] t = (.esyscall, t) := by
  unfold mkdirOn
  rw [mkdirRecursive_eq (by decide)]
  rfl

/-- Any other path makes the directories of its components. -/
theorem mkdirOn_eq (hne : path ≠ []) (hslash : path ≠ ['/']) (hlen : path.length < maxPathLen)
    (t : FileTree F A) : mkdirOn refuses attr cwd path t =
      (if (mkdirEach refuses attr (startOf cwd path) ((cuts path).map components) t).1 then .ok
        else .esyscall,
        (mkdirEach refuses attr (startOf cwd path) ((cuts path).map components) t).2) := by
  obtain ⟨htexts, -⟩ := cuts_spec cwd hne hslash
  unfold mkdirOn
  rw [mkdirRecursive_eq hlen, run_checkAll_mkdir refuses attr cwd _ (cuts path) t htexts]
  rfl

/-- **What a call leaves**: it gets through to the end of the path, or it has only made directories
on it and the path is none. -/
theorem mkdirOn_spec (hcwd : t.isDir cwd = true) (hne : path ≠ []) (hslash : path ≠ ['/'])
    (hlen : path.length < maxPathLen) :
    ((mkdirOn refuses attr cwd path t).1 = .ok ∧ FileTree.Through refuses attr t
        (mkdirOn refuses attr cwd path t).2 (startOf cwd path) (components path)) ∨
      ((mkdirOn refuses attr cwd path t).1 = .esyscall ∧ FileTree.Grown refuses attr t
          (mkdirOn refuses attr cwd path t).2 (startOf cwd path) (components path) ∧
        ¬(mkdirOn refuses attr cwd path t).2.Leads (startOf cwd path) (components path)) := by
  obtain ⟨-, hchain, hlast⟩ := cuts_spec cwd hne hslash
  have hstart := isDir_startOf hcwd path
  rw [mkdirOn_eq hne hslash hlen]
  rcases FileTree.mkdirEach_spec hstart ((cuts path).map components) t []
    (@FileTree.through_nil _ _ refuses attr t _ hstart) hchain with ⟨hok, h⟩ | ⟨hfail, h⟩
  · rw [hlast] at h
    exact Or.inl ⟨by simp [hok], h⟩
  · rw [hlast] at h
    exact Or.inr ⟨by simp [hfail], h⟩

/-- A call gets through to a file at the end of a path. -/
theorem EndsAtFile.mkdirOn_ok (h : EndsAtFile refuses cwd t path) (hcwd : t.isDir cwd = true)
    (hne : path ≠ []) (hslash : path ≠ ['/']) (hlen : path.length < maxPathLen) :
    (mkdirOn refuses attr cwd path t).1 = .ok := by
  obtain ⟨-, hchain, hlast⟩ := cuts_spec cwd hne hslash
  obtain ⟨f, hf⟩ := h.file
  have hstart := isDir_startOf hcwd path
  have hpass := @FileTree.mkdirEach_passes F A refuses attr t _ hstart _ h.passable (by simp [hf])
    ((cuts path).map components) t [] (FileTree.through_nil hstart) hchain hlast
  rw [mkdirOn_eq hne hslash hlen, hpass]
  rfl

/-- A call that gets through has made a directory unless the path ends at a file. -/
theorem leads_iff_not_endsAtFile {t' : FileTree F A}
    (h : FileTree.Through refuses attr t t' (startOf cwd path) (components path)) :
    t'.Leads (startOf cwd path) (components path) ↔ ¬EndsAtFile refuses cwd t path := by
  constructor
  · rintro ⟨-, hdir⟩ hends
    obtain ⟨f, hf⟩ := hends.file
    obtain ⟨a, ha⟩ := FileTree.isDir_iff.mp hdir
    rw [h.grown.kept _ (by simp [hf]), hf] at ha
    simp at ha
  · intro hnot
    refine ⟨h.ancestors, ?_⟩
    rcases h.grown.entry_cases h.there with hsame | ⟨-, -, hdir⟩
    · cases hentry : t.entry (place (startOf cwd path) (components path)) with
      | none => exact absurd (hsame.trans hentry) h.there
      | some node =>
          cases node with
          | file f =>
              have hpass := fun q hq hne => h.grown.passable (h.ancestors q hq hne)
              exact absurd ⟨⟨f, hentry⟩, hpass⟩ hnot
          | dir a => exact FileTree.isDir_iff.mpr ⟨a, hsame.trans hentry⟩
    · exact hdir

/-- A call that gets through to a directory is all that is asked. -/
theorem mkdirCorrect_of_leads (hcwd : t.isDir cwd = true) (hne : path ≠ []) (hslash : path ≠ ['/'])
    (hlen : path.length < maxPathLen) (hok : (mkdirOn refuses attr cwd path t).1 = .ok)
    (h : FileTree.Through refuses attr t (mkdirOn refuses attr cwd path t).2 (startOf cwd path)
      (components path))
    (hleads : (mkdirOn refuses attr cwd path t).2.Leads (startOf cwd path) (components path)) :
    MkdirCorrect refuses attr cwd t path := by
  obtain ⟨-, hchain, hlast⟩ := cuts_spec cwd hne hslash
  have hcwd' := h.grown.isDir hcwd
  have hstart' := isDir_startOf hcwd' path
  have hdir := (resolvesToDir_iff hcwd' hne).mpr hleads
  refine ⟨⟨fun _ => hdir, fun _ => hok⟩, fun _ names hnames => ?_, fun _ => h.grown.kept,
    fun _ p hold hnew => ?_, fun _ => ?_⟩
  · have hfound := (FileTree.lookup_eq_some_iff hstart').mpr ⟨hleads.of_isPrefix hnames, rfl⟩
    rw [hfound]
    rfl
  · obtain ⟨hentry, -, hplace⟩ := h.grown.added p hold hnew
    exact ⟨hentry, hplace⟩
  · have hagain := @FileTree.mkdirEach_again F A refuses attr _ _ hstart' _ h.ancestors h.there
      ((cuts path).map components) (hlast ▸ (FileTree.prefix_of_isChain hchain).2)
    rw [mkdirOn_eq hne hslash hlen, hagain]
    rfl

/-- **When `mkdir_recursive` is correct**: exactly when the path is not a slash alone and does not
end at a file that the call gets through to. -/
theorem mkdirCorrect_iff (hcwd : t.isDir cwd = true) (hne : path ≠ [])
    (hlen : path.length < maxPathLen) :
    MkdirCorrect refuses attr cwd t path ↔ path ≠ ['/'] ∧ ¬EndsAtFile refuses cwd t path := by
  by_cases hslash : path = ['/']
  · subst hslash
    have hroot : ResolvesToDir cwd t ['/'] := ⟨by simp, rfl⟩
    constructor
    · intro h
      have hok := h.ok_iff
      rw [mkdirOn_slash] at hok
      exact absurd (hok.mpr hroot) (by simp)
    · intro h
      exact absurd rfl h.1
  rcases @mkdirOn_spec F A refuses attr cwd t path hcwd hne hslash hlen with
    ⟨hok, h⟩ | ⟨hfail, hgrown, hno⟩
  · -- the call gets through: all that is left to ask is what is there
    rw [← leads_iff_not_endsAtFile h]
    constructor
    · intro hcorrect
      exact ⟨hslash, (resolvesToDir_iff (h.grown.isDir hcwd) hne).mp (hcorrect.ok_iff.mp hok)⟩
    · rintro ⟨-, hleads⟩
      exact mkdirCorrect_of_leads hcwd hne hslash hlen hok h hleads
  · -- the call fails: the path is no directory, and nothing else is asked
    have hnot : ¬(mkdirOn refuses attr cwd path t).1 = .ok := by simp [hfail]
    constructor
    · intro _
      exact ⟨hslash, fun hends => hnot (hends.mkdirOn_ok hcwd hne hslash hlen)⟩
    · intro _
      have hnowhere := (resolvesToDir_iff (hgrown.isDir hcwd) hne).not.mpr hno
      exact {
        ok_iff := iff_of_false hnot hnowhere
        above := fun hok => absurd hok hnot
        kept := fun hok => absurd hok hnot
        added := fun hok => absurd hok hnot
        again := fun hok => absurd hok hnot }

end Correct

/-- A tree with one file in its root. -/
def oneFileTree : FileTree CStr Unit where
  entry p := if p = [] then some (.dir ()) else if p = ["a".toList] then some (.file []) else none
  root := ⟨(), rfl⟩
  isTree := by
    intro p n hne
    by_cases hp : p = []
    · exact ⟨(), if_pos hp⟩
    · have hlong : p ++ [n] ≠ ["a".toList] := by
        intro heq
        have hlen := congrArg List.length heq
        have hpos := List.length_pos_iff.mpr hp
        rw [List.length_append, List.length_singleton, List.length_singleton] at hlen
        omega
      exact absurd ((if_neg (List.append_ne_nil_of_right_ne_nil p (by simp))).trans
        (if_neg hlong)) hne

/-- Two directories below the root, with a slash too many between them and at the end. -/
theorem mkdirCorrect_two :
    MkdirCorrect (fun _ => false) () [] oneFileTree "/b//c/".toList := by
  refine (mkdirCorrect_iff (by decide) (by decide) (by decide)).mpr ⟨by decide, fun hends => ?_⟩
  obtain ⟨f, hf⟩ := hends.file
  have hnone : oneFileTree.entry (place (startOf [] "/b//c/".toList)
      (components "/b//c/".toList)) = none := by decide
  rw [hnone] at hf
  simp at hf

/-- A file at the end of the path passes for the directory. -/
theorem file_passes_for_directory :
    ¬∀ (t : FileTree CStr Unit) (path : CStr), path ≠ [] → path.length < maxPathLen →
      MkdirCorrect (fun _ => false) () [] t path := by
  intro hall
  have hcorrect := hall oneFileTree "/a".toList (by decide) (by decide)
  have hdir := hcorrect.ok_iff.mp rfl
  exact absurd hdir.2 (by decide)

end Cruntime
