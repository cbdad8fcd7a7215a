/-
Directories made by many processes at once.

`mkdir_recursive` takes `EEXIST` for success, so that it does not matter who makes a directory.
Another process can only have made a directory that the call was about to make, and a call stops
at what nobody can change: a file in its way, or a place where no entry can be made.  Each call
therefore returns what it returns alone on the tree of the beginning, and when all are done
the tree is that one with the directories of every call alone.

`storage_init` makes three such calls and looks at none of their codes.  Which of its directories
are there afterwards is said by the tree of the beginning.
-/
import Cruntime.Lib.Alone
import Cruntime.Lib.TreeGrowth
import Cruntime.Storage.Mkdir

namespace Cruntime

open FileTree (Next Extends Passable place)
open Paths (Path)
open Script (run attempt checkAll)

/-! ### The calls -/

/-- `storage_init`. -/
def storageInit (imageDir : CStr) : StorageScript CrCode := do
  -- Create base directories
  let _ ← mkdirRecursive (snprintf maxPathLen (imageDir ++ "/overlay".toList))
  let _ ← mkdirRecursive (snprintf maxPathLen (imageDir ++ "/layers".toList))
  let _ ← mkdirRecursive (snprintf maxPathLen (imageDir ++ "/images".toList))
  return .ok

/-- A call that makes directories. -/
inductive DirCall where
  | mkdir (path : CStr)
  | init (imageDir : CStr)
deriving DecidableEq

def DirCall.script : DirCall → StorageScript CrCode
  | .mkdir path => mkdirRecursive path
  | .init imageDir => storageInit imageDir

/-- The calls of a process, one after the other, and their codes. -/
def dirSession : List DirCall → StorageScript (List CrCode)
  | [] => return []
  | call :: rest => do
      let code ← call.script
      let codes ← dirSession rest
      return code :: codes

/-- The directories a call is to make. -/
def DirCall.paths : DirCall → List CStr
  | .mkdir path => [path]
  | .init imageDir => ["/overlay".toList, "/layers".toList, "/images".toList].map
      fun name => snprintf maxPathLen (imageDir ++ name)

theorem DirCall.paths_init_ne_nil {imageDir path : CStr}
    (h : path ∈ (DirCall.init imageDir).paths) : path ≠ [] := by
  have hnames : ∀ name ∈ ["/overlay".toList, "/layers".toList, "/images".toList],
      0 < name.length := by decide
  obtain ⟨name, hname, rfl⟩ := List.mem_map.mp h
  have hlong := hnames name hname
  intro hnil
  have hlen := congrArg List.length hnil
  unfold snprintf maxPathLen at hlen
  rw [List.length_take, List.length_append, List.length_nil] at hlen
  omega

/-! ### One step at a time -/

instance (names next : List CStr) : Decidable (Next names next) :=
  decidable_of_iff (next = names ∨ next ≠ [] ∧ next.dropLast = names) <| by
    unfold Next
    refine or_congr_right ⟨?_, ?_⟩
    · rintro ⟨hne, rfl⟩
      exact ⟨_, (List.dropLast_append_getLast hne).symm⟩
    · rintro ⟨name, rfl⟩
      exact ⟨by simp, List.dropLast_concat⟩

/-- A `mkdir` behind another one: it starts at a first component, or goes on from the path that
was made last. -/
def Continues (cwd : Path) (last text : CStr) : Prop :=
  Next [] (components text) ∨
    startOf cwd last = startOf cwd text ∧ Next (components last) (components text)

instance (cwd : Path) (last text : CStr) : Decidable (Continues cwd last text) :=
  inferInstanceAs (Decidable (_ ∨ _ ∧ _))

/-- Directories are made one component at a time.  The protocol remembers the last one. -/
def stepwise (cwd : Path) (last : CStr) : StorageCmd → Bool → Option CStr
  | .mkdir text, ok => if Continues cwd last text then some (if ok then text else []) else none
  | .mount _ _, _ => none

section Stepwise

variable {cwd : Path}

theorem mkdirAll_stepwise {texts : List CStr} (hstart : ∀ s ∈ texts, ∀ t ∈ texts,
      startOf cwd s = startOf cwd t) :
    ∀ last, (∀ text ∈ texts.head?, Continues cwd last text) →
      (texts.map components).IsChain Next →
        (checkAll (texts.map .mkdir) .esyscall (.ret CrCode.ok)).Obeys (stepwise cwd)
          (fun _ _ => True) last := by
  induction texts with
  | nil => intro _ _ _; trivial
  | cons text texts ih =>
      intro last hfirst hchain ok
      refine ⟨_, if_pos (hfirst text rfl), ?_⟩
      cases ok with
      | false => trivial
      | true =>
          refine ih (fun s hs t ht => hstart s (by simp [hs]) t (by simp [ht])) _ ?_ ?_
          · intro next hnext
            have hmem := List.mem_of_mem_head? hnext
            refine Or.inr ⟨hstart text (by simp) next (by simp [hmem]), ?_⟩
            cases texts with
            | nil => cases hnext
            | cons s texts =>
                obtain rfl := Option.some.inj hnext
                exact (List.isChain_cons_cons.mp hchain).1
          · exact hchain.tail

/-- `mkdir_recursive` goes up its path one component at a time, whatever was made before. -/
theorem mkdirRecursive_stepwise {path : CStr} (hne : path ≠ []) (last : CStr) :
    (mkdirRecursive path).Obeys (stepwise cwd) (fun _ _ => True) last := by
  have hlen : (snprintf maxPathLen path).length < maxPathLen := by
    unfold snprintf maxPathLen
    rw [List.length_take]
    omega
  have hcut : mkdirRecursive path = mkdirRecursive (snprintf maxPathLen path) := by
    unfold mkdirRecursive
    rw [snprintf_eq_self hlen]
  have hne' : snprintf maxPathLen path ≠ [] := by
    obtain ⟨c, rest, rfl⟩ := List.exists_cons_of_ne_nil hne
    exact List.cons_ne_nil _ _
  rw [hcut, mkdirRecursive_eq hlen]
  by_cases hslash : snprintf maxPathLen path = ['/']
  · -- nothing is left of a slash, and the call that is made fails
    have hcuts : cuts ['/'] = [[]] := by decide
    rw [hslash, hcuts]
    refine mkdirAll_stepwise ?_ last ?_ (.singleton _)
    · intro s hs t ht
      rw [List.mem_singleton.mp hs, List.mem_singleton.mp ht]
    · intro text htext
      obtain rfl := Option.some.inj htext
      exact Or.inl (Or.inl rfl)
  · obtain ⟨hall, hchain, -⟩ := cuts_spec cwd hne' hslash
    refine mkdirAll_stepwise ?_ last ?_ hchain.tail
    · intro s hs t ht
      rw [(hall s hs).2, (hall t ht).2]
    · intro text htext
      obtain ⟨texts, htexts⟩ : ∃ texts, cuts (snprintf maxPathLen path) = text :: texts :=
        ⟨_, (List.cons_head?_tail htext).symm⟩
      rw [htexts] at hchain
      exact Or.inl (List.isChain_cons_cons.mp hchain).1

theorem storageInit_stepwise (imageDir last : CStr) :
    (storageInit imageDir).Obeys (stepwise cwd) (fun _ _ => True) last := by
  have hpaths : ∀ path ∈ (DirCall.init imageDir).paths, ∀ last,
      (mkdirRecursive path).Obeys (stepwise cwd) (fun _ _ => True) last :=
    fun path hpath last => mkdirRecursive_stepwise (DirCall.paths_init_ne_nil hpath) last
  unfold DirCall.paths at hpaths
  simp only [List.map_cons, List.map_nil, List.forall_mem_cons] at hpaths
  obtain ⟨hoverlay, hlayers, himages, -⟩ := hpaths
  refine Script.obeys_bind (Script.obeys_mono (fun _ last _ => ?_) (hoverlay last))
  refine Script.obeys_bind (Script.obeys_mono (fun _ last _ => ?_) (hlayers last))
  exact Script.obeys_bind (Script.obeys_mono (fun _ last _ => trivial) (himages last))

theorem dirSession_stepwise {calls : List DirCall}
    (hcalls : ∀ call ∈ calls, ∀ path ∈ call.paths, path ≠ []) :
    ∀ last, (dirSession calls).Obeys (stepwise cwd) (fun _ _ => True) last := by
  induction calls with
  | nil => intro _; trivial
  | cons call rest ih =>
      intro last
      have hcall : ∀ last, call.script.Obeys (stepwise cwd) (fun _ _ => True) last := by
        intro last
        cases call with
        | mkdir path =>
            have hne := hcalls (.mkdir path) List.mem_cons_self path (List.mem_singleton_self path)
            exact mkdirRecursive_stepwise hne last
        | init imageDir => exact storageInit_stepwise imageDir last
      refine Script.obeys_bind (Script.obeys_mono (fun _ last _ => ?_) (hcall last))
      refine Script.obeys_bind (Script.obeys_mono (fun _ last _ => trivial) (ih ?_ last))
      exact fun call hmem => hcalls call (List.mem_cons_of_mem _ hmem)

end Stepwise

/-! ### The tree and the trees of every process alone -/

section Alongside

variable {ι F A : Type} {refuses : Path → Bool} {attr : A} {cwd : Path}

/-- The last path made leads to an entry. -/
structure Reached (cwd : Path) (last : CStr) (t : FileTree F A) : Prop where
  ancestors : t.Ancestors (startOf cwd last) (components last)
  there : t.entry (place (startOf cwd last) (components last)) ≠ none

/-- Before anything is made there is the directory that paths start from. -/
theorem reached_nil {t : FileTree F A} (hcwd : t.isDir cwd = true) : Reached cwd [] t :=
  ⟨FileTree.ancestors_nil, FileTree.entry_ne_none hcwd⟩

/-- The path that comes next goes on from an entry that is there. -/
theorem Reached.continues {t : FileTree F A} {last text : CStr} (h : Reached cwd last t)
    (hstart : t.isDir (startOf cwd text) = true) (hnext : Continues cwd last text) :
    ∃ names, t.Ancestors (startOf cwd text) names ∧
      t.entry (place (startOf cwd text) names) ≠ none ∧ Next names (components text) := by
  rcases hnext with hfirst | ⟨hsame, hnext⟩
  · exact ⟨[], FileTree.ancestors_nil, FileTree.entry_ne_none hstart, hfirst⟩
  · exact ⟨components last, hsame ▸ h.ancestors, hsame ▸ h.there, hnext⟩

/-- The tree has grown, and all that has come to be in it is in the tree of some process. -/
structure Alongside (refuses : Path → Bool) (attr : A) (cwd : Path) (t₀ : FileTree F A)
    (shadows : ι → CStr × FileTree F A) (t : FileTree F A) : Prop where
  grown : Extends refuses attr t₀ t
  own : ∀ i, Extends refuses attr t₀ (shadows i).2
  within : ∀ i, Extends refuses attr (shadows i).2 t
  reached : ∀ i, Reached cwd (shadows i).1 (shadows i).2
  covered : ∀ p, t₀.entry p = none → t.entry p ≠ none → ∃ i, (shadows i).2.entry p ≠ none

theorem alongside_start {t₀ : FileTree F A} (hcwd : t₀.isDir cwd = true) :
    Alongside refuses attr cwd t₀ (fun _ : ι => ([], t₀)) t₀ where
  grown := FileTree.extends_refl t₀
  own _ := FileTree.extends_refl t₀
  within _ := FileTree.extends_refl t₀
  reached _ := reached_nil hcwd
  covered _ hold hnew := absurd hold hnew

variable {t₀ t t' shadow : FileTree F A} {shadows : ι → CStr × FileTree F A}

section Step

variable [DecidableEq ι]

/-- The tree grows by what one process makes. -/
theorem Alongside.update (h : Alongside refuses attr cwd t₀ shadows t) {i : ι} {last : CStr}
    (ht : Extends refuses attr t t') (hshadow : Extends refuses attr (shadows i).2 shadow)
    (hwithin : Extends refuses attr shadow t') (hreached : Reached cwd last shadow)
    (hnew : ∀ p, t.entry p = none → t'.entry p ≠ none → shadow.entry p ≠ none) :
    Alongside refuses attr cwd t₀ (Function.update shadows i (last, shadow)) t' := by
  have heach : ∀ (P : CStr × FileTree F A → Prop), P (last, shadow) → (∀ j, P (shadows j)) →
      ∀ j, P (Function.update shadows i (last, shadow) j) := by
    intro P hself hothers j
    by_cases hj : j = i
    · subst hj
      rwa [Function.update_self]
    · rw [Function.update_of_ne hj]
      exact hothers j
  refine ⟨h.grown.trans ht, heach (fun x => Extends refuses attr t₀ x.2) ((h.own i).trans hshadow)
    h.own, heach (fun x => Extends refuses attr x.2 t') hwithin fun j => (h.within j).trans ht,
    heach (fun x => Reached cwd x.1 x.2) hreached h.reached, ?_⟩
  intro p hold hthere
  by_cases hbefore : t.entry p = none
  · refine ⟨i, ?_⟩
    rw [Function.update_self]
    exact hnew p hbefore hthere
  · obtain ⟨j, hj⟩ := h.covered p hold hbefore
    refine ⟨j, ?_⟩
    by_cases hji : j = i
    · subst hji
      rw [Function.update_self]
      exact hshadow.there hj
    · rwa [Function.update_of_ne hji]

end Step

/-! ### One `mkdir` -/

theorem attempt_mkdir_made {text : CStr} (hne : text ≠ [])
    (h : t.mkdir refuses attr (startOf cwd text) (components text) = .made t') :
    attempt (StorageCmd.onTree refuses attr cwd) false (.mkdir text) t = (true, t') :=
  Script.attempt_some _ (by simp [StorageCmd.onTree, mkdirPath, hne, h])

theorem attempt_mkdir_eexist {text : CStr} (hne : text ≠ [])
    (h : t.mkdir refuses attr (startOf cwd text) (components text) = .eexist) :
    attempt (StorageCmd.onTree refuses attr cwd) false (.mkdir text) t = (true, t) :=
  Script.attempt_some _ (by simp [StorageCmd.onTree, mkdirPath, hne, h])

theorem attempt_mkdir_failed {text : CStr}
    (h : text = [] ∨ t.mkdir refuses attr (startOf cwd text) (components text) = .failed) :
    attempt (StorageCmd.onTree refuses attr cwd) false (.mkdir text) t = (false, t) := by
  refine Script.attempt_none _ ?_ _
  rcases h with rfl | h
  · rfl
  · by_cases hne : text = []
    · subst hne
      rfl
    · simp [StorageCmd.onTree, mkdirPath, hne, h]

variable [DecidableEq ι]

/-- **A `mkdir` is answered as it is answered alone**, and the trees stay alongside. -/
theorem Alongside.mkdir (h : Alongside refuses attr cwd t₀ shadows t) (hcwd : t₀.isDir cwd = true)
    {i : ι} {text : CStr} (hnext : Continues cwd (shadows i).1 text) :
    let mine := attempt (StorageCmd.onTree refuses attr cwd) false (.mkdir text) (shadows i).2
    let shared := attempt (StorageCmd.onTree refuses attr cwd) false (.mkdir text) t
    shared.1 = mine.1 ∧ Alongside refuses attr cwd t₀
      (Function.update shadows i (if mine.1 then text else [], mine.2)) shared.2 := by
  intro mine shared
  have hcwd' : (shadows i).2.isDir cwd = true := (h.own i).isDir hcwd
  have hstart : (shadows i).2.isDir (startOf cwd text) = true := isDir_startOf hcwd' text
  have hrefl := @FileTree.extends_refl F A refuses attr
  -- a call that fails in both trees changes neither
  have hfailed : mine = (false, (shadows i).2) → shared = (false, t) → shared.1 = mine.1 ∧
      Alongside refuses attr cwd t₀ (Function.update shadows i (if mine.1 then text else [],
        mine.2)) shared.2 := by
    intro hmine hshared
    rw [hmine, hshared]
    exact ⟨rfl, h.update (hrefl t) (hrefl _) (h.within i) (reached_nil hcwd')
      fun _ hold hnew => absurd hold hnew⟩
  by_cases hne : text = []
  · exact hfailed (attempt_mkdir_failed (Or.inl hne)) (attempt_mkdir_failed (Or.inl hne))
  obtain ⟨names, habove, hthere, hcomponents⟩ := (h.reached i).continues hstart hnext
  rcases (h.within i).mkdir_cases hstart habove hthere hcomponents with ⟨hmk, hmk'⟩ |
    ⟨hall, hentry, hmk, hmk'⟩ | ⟨hall, hnone, hrefuses, hroom, hmk, hshared⟩
  · exact hfailed (attempt_mkdir_failed (Or.inr hmk)) (attempt_mkdir_failed (Or.inr hmk'))
  · have hmine : mine = (true, (shadows i).2) := attempt_mkdir_eexist hne hmk
    have hshared : shared = (true, t) := attempt_mkdir_eexist hne hmk'
    rw [hmine, hshared]
    exact ⟨rfl, h.update (hrefl t) (hrefl _) (h.within i) ⟨hall, hentry⟩
      fun _ hold hnew => absurd hold hnew⟩
  · have hmine : mine = (true, (shadows i).2.addDir
        (place (startOf cwd text) (components text)) attr) := attempt_mkdir_made hne hmk
    have hgrown := @FileTree.extends_addDir F A refuses attr _ _ hnone hrefuses hroom
    have hself := FileTree.addDir_entry_self attr hnone hroom
    have hreached : Reached cwd text ((shadows i).2.addDir
        (place (startOf cwd text) (components text)) attr) :=
      ⟨hgrown.ancestors hall, by rw [hself]; exact Option.some_ne_none _⟩
    rcases hshared with ⟨hdir, hmk'⟩ | ⟨hnone', hmk'⟩
    · -- another process has made the directory before
      have hshared : shared = (true, t) := attempt_mkdir_eexist hne hmk'
      rw [hmine, hshared]
      exact ⟨rfl, h.update (hrefl t) hgrown ((h.within i).addDir_left hnone hroom hdir) hreached
        fun _ hold hnew => absurd hold hnew⟩
    · have hshared : shared = (true, t.addDir
          (place (startOf cwd text) (components text)) attr) := attempt_mkdir_made hne hmk'
      have hroom' := (h.within i).isDir hroom
      have hgrown' := @FileTree.extends_addDir F A refuses attr _ _ hnone' hrefuses hroom'
      have hself' := FileTree.addDir_entry_self attr hnone' hroom'
      have hwithin := ((h.within i).trans hgrown').addDir_left hnone hroom hself'
      rw [hmine, hshared]
      refine ⟨rfl, h.update hgrown' hgrown hwithin hreached ?_⟩
      intro p hold hnew
      by_cases hp : p = place (startOf cwd text) (components text)
      · subst hp
        rw [hself]
        exact Option.some_ne_none _
      · rw [FileTree.addDir_entry_of_ne attr hnone' hroom' hp] at hnew
        exact absurd hold hnew

/-- Processes that make directories do not disturb each other. -/
theorem undisturbed_mkdir (hcwd : t₀.isDir cwd = true) :
    Pool.Undisturbed (StorageCmd.onTree refuses attr cwd) (stepwise cwd)
      (@Alongside ι F A refuses attr cwd t₀) := by
  have hstep : ∀ {shadows : ι → CStr × FileTree F A} {i c t next},
      Alongside refuses attr cwd t₀ shadows t →
      stepwise cwd (shadows i).1 c
        (attempt (StorageCmd.onTree refuses attr cwd) false c (shadows i).2).1 = some next →
      (attempt (StorageCmd.onTree refuses attr cwd) false c t).1 =
          (attempt (StorageCmd.onTree refuses attr cwd) false c (shadows i).2).1 ∧
        Alongside refuses attr cwd t₀ (Function.update shadows i (next,
            (attempt (StorageCmd.onTree refuses attr cwd) false c (shadows i).2).2))
          (attempt (StorageCmd.onTree refuses attr cwd) false c t).2 := by
    intro shadows i c t next h hnext
    cases c with
    | mount target options => cases hnext
    | mkdir text =>
        have hif : (if Continues cwd (shadows i).1 text then some
            (if (attempt (StorageCmd.onTree refuses attr cwd) false (.mkdir text)
              (shadows i).2).1 then text else []) else none) = some next := hnext
        by_cases hcontinues : Continues cwd (shadows i).1 text
        · rw [if_pos hcontinues] at hif
          obtain rfl := Option.some.inj hif
          exact h.mkdir hcwd hcontinues
        · rw [if_neg hcontinues] at hif
          cases hif
  exact ⟨fun h hnext => (hstep h hnext).1, fun h hnext => (hstep h hnext).2⟩

end Alongside

/-! ### Any number of processes -/

section AtOnce

variable {ι F A : Type} [DecidableEq ι] {refuses : Path → Bool} {attr : A} {cwd : Path}
  {t₀ : FileTree F A} {calls : ι → List DirCall}

/-- A tree, and processes that make directories in it. -/
def dirPool (calls : ι → List DirCall) (t₀ : FileTree F A) :
    Pool ι StorageCmd (List CrCode) (FileTree F A) :=
  ⟨t₀, fun i => dirSession (calls i)⟩

/-- **Directories can be made by any number of processes at once**: in every order of their calls
a process that is done has the codes it has alone, nothing that was there is changed, and when
all are done the tree is the one from the beginning with what each of them makes alone. -/
theorem directories_at_once (hcwd : t₀.isDir cwd = true)
    (hcalls : ∀ i, ∀ call ∈ calls i, ∀ path ∈ call.paths, path ≠ []) (sched : List ι) :
    let final := Runs.after (Pool.turn (StorageCmd.onTree refuses attr cwd)) (dirPool calls t₀)
      sched
    let alone := fun i => run (StorageCmd.onTree refuses attr cwd) (dirSession (calls i)) (.calm t₀)
    (∀ i codes, final.threads i = .ret codes → (alone i).1 = codes) ∧
      Extends refuses attr t₀ final.state ∧
      ((∀ i, ∃ codes, final.threads i = .ret codes) → ∀ p, final.state.entry p ≠ none ↔
        t₀.entry p ≠ none ∨ ∃ i, (alone i).2.state.entry p ≠ none) := by
  intro final alone
  have hobeys : ∀ i, ((dirPool calls t₀).threads i).Obeys (stepwise cwd) (fun _ _ => True) [] :=
    fun i => dirSession_stepwise (hcalls i) []
  have hfits : Alongside refuses attr cwd t₀ (fun _ : ι => ([], t₀)) (dirPool calls t₀).state :=
    alongside_start hcwd
  obtain ⟨shadows, hfits, hreturned⟩ :=
    Pool.alone_after (undisturbed_mkdir hcwd) hobeys hfits sched
  refine ⟨?_, hfits.grown, ?_⟩
  · intro i codes hret
    exact congrArg Prod.fst (hreturned i codes hret)
  · intro hall p
    have htree : ∀ i, (alone i).2.state = (shadows i).2 := by
      intro i
      obtain ⟨codes, hret⟩ := hall i
      exact congrArg (fun r => r.2.state) (hreturned i codes hret)
    constructor
    · intro hp
      by_cases hold : t₀.entry p = none
      · obtain ⟨i, hi⟩ := hfits.covered p hold hp
        exact Or.inr ⟨i, by rwa [htree i]⟩
      · exact Or.inl hold
    · rintro (hold | ⟨i, hi⟩)
      · exact hfits.grown.there hold
      · rw [htree i] at hi
        exact (hfits.within i).there hi

end AtOnce

/-- A storage directory that is set up, and a process that makes a layer in it and then a directory
below a file. -/
def initAndLayer : Bool → List DirCall
  | true => [.init "/img".toList]
  | false => [.mkdir "/img/layers/x".toList, .mkdir "/a/b".toList]

/-- Taking turns, both make directories that the other one needs as well. -/
theorem init_beside_layer :
    let final := Runs.after (Pool.turn (StorageCmd.onTree (fun _ => false) () []))
      (dirPool initAndLayer oneFileTree)
      [true, false, false, true, false, true, true, true, true, false, false]
    final.threads false = .ret [.ok, .esyscall] ∧
      final.state.entry ["img".toList, "layers".toList, "x".toList] ≠ none ∧
      final.state.entry ["img".toList, "images".toList] ≠ none ∧
      final.state.entry ["img".toList, "x".toList] = none ∧
      final.state.entry ["a".toList] = some (.file []) := by
  intro final
  obtain ⟨-, hgrown, htree⟩ := @directories_at_once Bool CStr Unit _ (fun _ => false) () []
    oneFileTree initAndLayer (by decide) (by decide)
    [true, false, false, true, false, true, true, true, true, false, false]
  have hinit : final.threads true = .ret [.ok] := rfl
  have hlayer : final.threads false = .ret [.ok, .esyscall] := rfl
  have hdone : ∀ i, ∃ codes, final.threads i = .ret codes := by
    rintro (_ | _)
    · exact ⟨_, hlayer⟩
    · exact ⟨_, hinit⟩
  refine ⟨hlayer, (htree hdone _).mpr (Or.inr ⟨false, by decide⟩),
    (htree hdone _).mpr (Or.inr ⟨true, by decide⟩), ?_, ?_⟩
  · by_contra hthere
    rcases (htree hdone _).mp hthere with hold | ⟨i, halone⟩
    · exact hold (by decide)
    · revert halone
      cases i <;> decide
  · exact (hgrown.kept _ (by decide)).trans (by decide)

end Cruntime
