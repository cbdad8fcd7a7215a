/-
A tree of directories and files, and directories made in it one after the other.

A path is looked up component by component and every one of them has to lead to a
directory; `.` and `..` lead from a directory to a directory, so that nothing else has to
be said of them.  `mkdir` looks up all but the last component and answers in one of three
ways: the directory is made, there is an entry already, or it is neither.  The entry that
is there can be a file, and the answer is the same.

Making the directories of a path from its first component on is a run of `mkdir`s whose
paths grow by one component at a time, or not at all.  What such a run leaves follows from
three things that one `mkdir` keeps: nothing of the tree before has changed, what is new
are directories on the path, and the path so far leads to an entry.
-/
import Cruntime.Lib.Overlay
import Cruntime.Lib.Paths

namespace Cruntime

open Overlay (View IsTree)
open Paths (Path push)

/-- A root directory, and every entry in a directory. -/
structure FileTree (F A : Type) where
  entry : View CStr F A
  root : ∃ a, entry [] = some (.dir a)
  isTree : IsTree entry

namespace FileTree

variable {F A : Type}

/-- A directory is there. -/
def isDir (t : FileTree F A) (p : Path) : Bool :=
  match t.entry p with
  | some (.dir _) => true
  | _ => false

/-! ### Directories -/

theorem isDir_iff {t : FileTree F A} {p : Path} :
    t.isDir p = true ↔ ∃ a, t.entry p = some (.dir a) := by
  unfold isDir
  cases t.entry p with
  | none => simp
  | some node => cases node <;> simp

theorem isDir_congr {t t' : FileTree F A} {p : Path} (h : t'.entry p = t.entry p) :
    t'.isDir p = t.isDir p := by
  unfold isDir
  rw [h]

theorem entry_ne_none {t : FileTree F A} {p : Path} (h : t.isDir p = true) : t.entry p ≠ none := by
  obtain ⟨a, ha⟩ := isDir_iff.mp h
  rw [ha]
  exact Option.some_ne_none _

/-- Above a directory there is a directory. -/
theorem isDir_dropLast {t : FileTree F A} {p : Path} (h : t.entry p ≠ none) :
    t.isDir p.dropLast = true := by
  rcases List.eq_nil_or_concat p with rfl | ⟨q, n, rfl⟩
  · exact isDir_iff.mpr t.root
  · rw [List.concat_eq_append] at h ⊢
    rw [List.dropLast_concat]
    exact isDir_iff.mpr (t.isTree q n h)

/-- Where one component leads from a directory and nothing is, there is room for an entry. -/
theorem isDir_dropLast_push {t : FileTree F A} {dir : Path} {name : CStr}
    (hdir : t.isDir dir = true) : t.isDir (push dir name).dropLast = true := by
  unfold push
  split_ifs
  · exact isDir_dropLast (entry_ne_none hdir)
  · exact isDir_dropLast (entry_ne_none (isDir_dropLast (entry_ne_none hdir)))
  · rwa [List.dropLast_concat]

/-- A new directory, in one that is there. -/
def addDir (t : FileTree F A) (p : Path) (a : A) : FileTree F A :=
  if h : (t.entry p).isNone = true ∧ t.isDir p.dropLast = true then
    { entry := Function.update t.entry p (some (.dir a))
      root := by
        by_cases hp : [] = p
        · exact ⟨a, hp ▸ Function.update_self _ _ _⟩
        · rw [Function.update_of_ne hp]
          exact t.root
      isTree := by
        intro q n hne
        by_cases hq : q = p
        · exact ⟨a, hq ▸ Function.update_self _ _ _⟩
        · rw [Function.update_of_ne hq]
          by_cases hqn : q ++ [n] = p
          · rw [← hqn, List.dropLast_concat] at h
            exact isDir_iff.mp h.2
          · rw [Function.update_of_ne hqn] at hne
            exact t.isTree q n hne }
  else t

section AddDir

variable {t : FileTree F A} {p q : Path} (a : A) (hnone : t.entry p = none)
  (hdir : t.isDir p.dropLast = true)

include hnone hdir

theorem addDir_entry : (t.addDir p a).entry = Function.update t.entry p (some (.dir a)) := by
  unfold addDir
  rw [dif_pos ⟨by rw [hnone]; rfl, hdir⟩]

theorem addDir_entry_self : (t.addDir p a).entry p = some (.dir a) := by
  rw [addDir_entry a hnone hdir, Function.update_self]

theorem addDir_entry_of_ne (hq : q ≠ p) : (t.addDir p a).entry q = t.entry q := by
  rw [addDir_entry a hnone hdir, Function.update_of_ne hq]

end AddDir

/-! ### Paths looked up -/

/-- One component, looked up in a directory. -/
def enter (t : FileTree F A) (dir : Path) (name : CStr) : Option Path :=
  if t.isDir (push dir name) then some (push dir name) else none

/-- The components of a path, looked up from a directory. -/
def lookup (t : FileTree F A) (start : Path) (names : List CStr) : Option Path :=
  names.foldlM t.enter start

/-- What becomes of a `mkdir`. -/
inductive MkdirResult (F A : Type) where
  | made (t : FileTree F A)
  | eexist
  | failed

/-- `mkdir` from a directory.  `refuses` says where an entry cannot be made, for whatever reason;
a new directory has the attributes `attr`. -/
def mkdir (refuses : Path → Bool) (attr : A) (t : FileTree F A) (start : Path)
    (names : List CStr) : MkdirResult F A :=
  match names.getLast? with
  | none => .eexist
  | some name =>
      match t.lookup start names.dropLast with
      | none => .failed
      | some dir =>
          if (t.entry (push dir name)).isSome then .eexist
          else if refuses (push dir name) then .failed
          else .made (t.addDir (push dir name) attr)

/-- Several of them in order, up to the first that fails: whether none did, and the tree. -/
def mkdirEach (refuses : Path → Bool) (attr : A) (start : Path) :
    List (List CStr) → FileTree F A → Bool × FileTree F A
  | [], t => (true, t)
  | names :: rest, t =>
      match t.mkdir refuses attr start names with
      | .made t' => mkdirEach refuses attr start rest t'
      | .eexist => mkdirEach refuses attr start rest t
      | .failed => (false, t)

/-! ### Where a path leads -/

/-- Where the components of a path lead from a directory. -/
abbrev place (start : Path) (names : List CStr) : Path := names.foldl push start

theorem place_concat (start : Path) (names : List CStr) (name : CStr) :
    place start (names ++ [name]) = push (place start names) name := List.foldl_concat ..

/-- Every part of a path but the whole leads to a directory. -/
def Ancestors (t : FileTree F A) (start : Path) (names : List CStr) : Prop :=
  ∀ q, q <+: names → q ≠ names → t.isDir (place start q) = true

/-- The path leads to a directory. -/
def Leads (t : FileTree F A) (start : Path) (names : List CStr) : Prop :=
  t.Ancestors start names ∧ t.isDir (place start names) = true

section Lookup

variable {t : FileTree F A} {start : Path}

theorem ancestors_nil : t.Ancestors start [] :=
  fun _ hq hne => absurd (List.prefix_nil.mp hq) hne

/-- The parts of a path but the whole are the parts of the path without its last component. -/
theorem ancestors_concat {names : List CStr} {name : CStr} :
    t.Ancestors start (names ++ [name]) ↔ t.Leads start names := by
  constructor
  · intro h
    refine ⟨fun q hq hne => h q (hq.trans (List.prefix_append _ _)) ?_,
      h names (List.prefix_append _ _) (by simp)⟩
    rintro rfl
    have hlong := hq.length_le
    rw [List.length_append, List.length_singleton] at hlong
    omega
  · rintro ⟨habove, hdir⟩ q hq hne
    rcases List.prefix_concat_iff.mp hq with rfl | hq
    · exact absurd rfl hne
    · by_cases hwhole : q = names
      · rw [hwhole]
        exact hdir
      · exact habove q hq hwhole

/-- **What a lookup finds**: the place of the path, if every part of it leads to a directory. -/
theorem lookup_eq_some_iff (hstart : t.isDir start = true) {names : List CStr} {dir : Path} :
    t.lookup start names = some dir ↔ t.Leads start names ∧ dir = place start names := by
  induction names using List.reverseRecOn generalizing dir with
  | nil =>
      constructor
      · intro h
        exact ⟨⟨ancestors_nil, hstart⟩, (Option.some.inj h).symm⟩
      · rintro ⟨-, rfl⟩
        rfl
  | append_singleton names name ih =>
      have hconcat : t.lookup start (names ++ [name]) =
          (t.lookup start names).bind fun d => t.enter d name := by
        unfold lookup
        rw [List.foldlM_append]
        congr 1
        funext d
        simp
      rw [hconcat, Option.bind_eq_some_iff]
      unfold Leads
      rw [ancestors_concat, place_concat]
      constructor
      · rintro ⟨d, hd, henter⟩
        obtain ⟨hleads, rfl⟩ := ih.mp hd
        unfold enter at henter
        split_ifs at henter with hdir
        exact ⟨⟨hleads, hdir⟩, (Option.some.inj henter).symm⟩
      · rintro ⟨⟨hleads, hdir⟩, rfl⟩
        refine ⟨_, ih.mpr ⟨hleads, rfl⟩, ?_⟩
        unfold enter
        rw [if_pos hdir]

theorem lookup_eq_none_iff (hstart : t.isDir start = true) {names : List CStr} :
    t.lookup start names = none ↔ ¬t.Leads start names := by
  rw [Option.eq_none_iff_forall_ne_some]
  constructor
  · intro h hleads
    exact h _ ((lookup_eq_some_iff hstart).mpr ⟨hleads, rfl⟩)
  · intro h dir hdir
    exact h ((lookup_eq_some_iff hstart).mp hdir).1

end Lookup

/-! ### One directory made -/

section Mkdir

variable (refuses : Path → Bool) (attr : A) {t : FileTree F A} {start : Path}

/-- Everything a `mkdir` can do. -/
theorem mkdir_cases (hstart : t.isDir start = true) (names : List CStr) :
    (¬t.Ancestors start names ∧ t.mkdir refuses attr start names = .failed) ∨
      (t.Ancestors start names ∧ t.entry (place start names) ≠ none ∧
        t.mkdir refuses attr start names = .eexist) ∨
      (t.Ancestors start names ∧ t.entry (place start names) = none ∧
        refuses (place start names) = true ∧ t.mkdir refuses attr start names = .failed) ∨
      (t.Ancestors start names ∧ t.entry (place start names) = none ∧
        refuses (place start names) = false ∧
        t.isDir (place start names).dropLast = true ∧
        t.mkdir refuses attr start names = .made (t.addDir (place start names) attr)) := by
  rcases List.eq_nil_or_concat names with rfl | ⟨names, name, rfl⟩
  · exact Or.inr (Or.inl ⟨ancestors_nil, entry_ne_none hstart, rfl⟩)
  rw [List.concat_eq_append, ancestors_concat, place_concat]
  unfold mkdir
  rw [List.getLast?_concat, List.dropLast_concat]
  cases hlook : t.lookup start names with
  | none => exact Or.inl ⟨(lookup_eq_none_iff hstart).mp hlook, rfl⟩
  | some dir =>
      obtain ⟨hleads, rfl⟩ := (lookup_eq_some_iff hstart).mp hlook
      refine Or.inr ?_
      cases hentry : t.entry (push (place start names) name) with
      | some node => exact Or.inl ⟨hleads, Option.some_ne_none _, by simp [hentry]⟩
      | none =>
          refine Or.inr ?_
          cases hrefuses : refuses (push (place start names) name) with
          | true => exact Or.inl ⟨hleads, rfl, rfl, by simp [hentry, hrefuses]⟩
          | false =>
              exact Or.inr ⟨hleads, rfl, rfl, isDir_dropLast_push hleads.2,
                by simp [hentry, hrefuses]⟩

end Mkdir

/-! ### The directories of a path, made one after the other -/

section Each

variable (refuses : Path → Bool) (attr : A)

/-- What making directories on a path leaves of a tree: all of it, and besides that new
directories where the path or a part of it leads. -/
structure Grown (t t' : FileTree F A) (start : Path) (names : List CStr) : Prop where
  kept : ∀ p, t.entry p ≠ none → t'.entry p = t.entry p
  added : ∀ p, t.entry p = none → t'.entry p ≠ none →
    t'.entry p = some (.dir attr) ∧ refuses p = false ∧ ∃ q, q <+: names ∧ p = place start q

/-- A run that has come as far as a path: the tree has grown along it, and the path leads to an
entry. -/
structure Through (t t' : FileTree F A) (start : Path) (names : List CStr) : Prop where
  grown : Grown refuses attr t t' start names
  ancestors : t'.Ancestors start names
  there : t'.entry (place start names) ≠ none

/-- A path and the next one: the same components, or one more. -/
def Next (names next : List CStr) : Prop := next = names ∨ ∃ name, next = names ++ [name]

variable {refuses} {attr} {t t' : FileTree F A} {start : Path} {names next : List CStr}

theorem Next.isPrefix (h : Next names next) : names <+: next := by
  rcases h with rfl | ⟨name, rfl⟩
  · exact List.prefix_refl _
  · exact List.prefix_append _ _

theorem Grown.isDir (h : Grown refuses attr t t' start names) {p : Path} (hp : t.isDir p = true) :
    t'.isDir p = true := by
  rw [isDir_congr (h.kept p (entry_ne_none hp))]
  exact hp

theorem Grown.mono (h : Grown refuses attr t t' start names) (hnext : names <+: next) :
    Grown refuses attr t t' start next where
  kept := h.kept
  added p hold hnew := by
    obtain ⟨hentry, hrefuses, q, hq, hplace⟩ := h.added p hold hnew
    exact ⟨hentry, hrefuses, q, hq.trans hnext, hplace⟩

/-- An entry that is there is an old one or a directory. -/
theorem Grown.entry_cases (h : Grown refuses attr t t' start names) {p : Path}
    (hp : t'.entry p ≠ none) :
    t'.entry p = t.entry p ∨ t.entry p = none ∧ refuses p = false ∧ t'.isDir p = true := by
  by_cases hold : t.entry p = none
  · obtain ⟨hentry, hrefuses, -⟩ := h.added p hold hp
    exact Or.inr ⟨hold, hrefuses, isDir_iff.mpr ⟨attr, hentry⟩⟩
  · exact Or.inl (h.kept p hold)

/-- Before the first directory is made. -/
theorem through_nil (hstart : t.isDir start = true) : Through refuses attr t t start [] where
  grown := ⟨fun _ _ => rfl, fun _ hold hnew => absurd hold hnew⟩
  ancestors := ancestors_nil
  there := entry_ne_none hstart

/-- A new directory where the path leads takes the run there. -/
theorem Grown.through_addDir (h : Grown refuses attr t t' start names)
    (habove : t'.Ancestors start names) (hnone : t'.entry (place start names) = none)
    (hrefuses : refuses (place start names) = false)
    (hroom : t'.isDir (place start names).dropLast = true) :
    Through refuses attr t (t'.addDir (place start names) attr) start names := by
  have hself := addDir_entry_self attr hnone hroom
  refine ⟨⟨fun p hold => ?_, fun p hold hnew => ?_⟩, fun q hq hne => ?_, by simp [hself]⟩
  · have hp : p ≠ place start names := by
      rintro rfl
      exact hold (by rw [← h.kept _ hold, hnone])
    rw [addDir_entry_of_ne attr hnone hroom hp]
    exact h.kept p hold
  · by_cases hp : p = place start names
    · subst hp
      exact ⟨hself, hrefuses, names, List.prefix_refl _, rfl⟩
    · rw [addDir_entry_of_ne attr hnone hroom hp] at hnew ⊢
      exact h.added p hold hnew
  · have hdir := habove q hq hne
    have hq' : place start q ≠ place start names := by
      intro heq
      exact entry_ne_none hdir (heq ▸ hnone)
    rw [isDir_congr (addDir_entry_of_ne attr hnone hroom hq')]
    exact hdir

/-- **One more directory**: the run gets through to the next path, with a new directory there or
with what is there already, or it stops because the path leads through something else than
directories or because no directory can be made there. -/
theorem Through.step (h : Through refuses attr t t' start names) (hstart : t.isDir start = true)
    (hnext : Next names next) :
    (t'.mkdir refuses attr start next = .failed ∧ (¬t'.Ancestors start next ∨
        t'.entry (place start next) = none ∧ refuses (place start next) = true)) ∨
      (t'.mkdir refuses attr start next = .eexist ∧ Through refuses attr t t' start next) ∨
      ∃ t'', t'.mkdir refuses attr start next = .made t'' ∧
        Through refuses attr t t'' start next := by
  have hgrown := h.grown.mono hnext.isPrefix
  rcases mkdir_cases refuses attr (h.grown.isDir hstart) next with ⟨habove, hmk⟩ |
    ⟨habove, hthere, hmk⟩ | ⟨-, hnone, hrefuses, hmk⟩ | ⟨habove, hnone, hrefuses, hroom, hmk⟩
  · exact Or.inl ⟨hmk, Or.inl habove⟩
  · exact Or.inr (Or.inl ⟨hmk, hgrown, habove, hthere⟩)
  · exact Or.inl ⟨hmk, Or.inr ⟨hnone, hrefuses⟩⟩
  · exact Or.inr (Or.inr ⟨_, hmk, hgrown.through_addDir habove hnone hrefuses hroom⟩)

/-- A run that goes on along a path: what it makes are the parts of the last one. -/
theorem prefix_of_isChain {rest : List (List CStr)} : ∀ {names : List CStr},
    (names :: rest).IsChain Next →
      names <+: rest.getLastD names ∧ ∀ next ∈ rest, next <+: rest.getLastD names := by
  induction rest with
  | nil => intro names _; exact ⟨List.prefix_refl _, by simp⟩
  | cons next rest ih =>
      intro names hchain
      obtain ⟨hnext, hrest⟩ := List.isChain_cons_cons.mp hchain
      obtain ⟨hfirst, hall⟩ := ih hrest
      rw [List.getLastD_cons]
      refine ⟨hnext.isPrefix.trans hfirst, fun m hm => ?_⟩
      rcases List.mem_cons.mp hm with rfl | hm
      · exact hfirst
      · exact hall m hm

/-- A part of a path that leads to a directory leads to one. -/
theorem Leads.of_isPrefix {whole : List CStr} (h : t.Leads start whole) (hq : names <+: whole) :
    t.Leads start names := by
  by_cases hwhole : names = whole
  · rw [hwhole]
    exact h
  · refine ⟨fun q hq' hne => h.1 q (hq'.trans hq) ?_, h.1 names hq hwhole⟩
    rintro rfl
    exact hne (hq'.eq_of_length_le hq.length_le)

/-- **A run along a path**: it gets through to the end, or it has only grown the tree along the
path and the path leads to no directory. -/
theorem mkdirEach_spec (hstart : t.isDir start = true) : ∀ (rest : List (List CStr))
    (t' : FileTree F A) (names : List CStr), Through refuses attr t t' start names →
      (names :: rest).IsChain Next →
        ((mkdirEach refuses attr start rest t').1 = true ∧ Through refuses attr t
            (mkdirEach refuses attr start rest t').2 start (rest.getLastD names)) ∨
          ((mkdirEach refuses attr start rest t').1 = false ∧ Grown refuses attr t
              (mkdirEach refuses attr start rest t').2 start (rest.getLastD names) ∧
            ¬(mkdirEach refuses attr start rest t').2.Leads start (rest.getLastD names)) := by
  intro rest
  induction rest with
  | nil => intro t' names h _; exact Or.inl ⟨rfl, h⟩
  | cons next rest ih =>
      intro t' names h hchain
      obtain ⟨hnext, hrest⟩ := List.isChain_cons_cons.mp hchain
      unfold mkdirEach
      rw [List.getLastD_cons]
      rcases h.step hstart hnext with ⟨hmk, hstop⟩ | ⟨hmk, h'⟩ | ⟨t'', hmk, h'⟩
      · rw [hmk]
        have hall := (prefix_of_isChain hrest).1
        refine Or.inr ⟨rfl, h.grown.mono (hnext.isPrefix.trans hall), fun hwhole => ?_⟩
        have hleads := hwhole.of_isPrefix hall
        rcases hstop with hnot | ⟨hnone, -⟩
        · exact hnot hleads.1
        · exact entry_ne_none hleads.2 hnone
      · rw [hmk]
        exact ih t' next h' hrest
      · rw [hmk]
        exact ih t'' next h' hrest

/-! ### Runs that get through -/

/-- A place where a directory is, or where one can be made. -/
def Passable (refuses : Path → Bool) (t : FileTree F A) (p : Path) : Prop :=
  t.isDir p = true ∨ t.entry p = none ∧ refuses p = false

/-- Where a directory can be had, what is there later is one. -/
theorem Grown.isDir_of_passable (h : Grown refuses attr t t' start names) {p : Path}
    (hpass : Passable refuses t p) (hp : t'.entry p ≠ none) : t'.isDir p = true := by
  rcases hpass with hdir | ⟨hnone, -⟩
  · exact h.isDir hdir
  · rcases h.entry_cases hp with hsame | ⟨-, -, hdir⟩
    · exact absurd (hsame.trans hnone) hp
    · exact hdir

/-- What leads to a directory now was passable before. -/
theorem Grown.passable (h : Grown refuses attr t t' start names) {p : Path}
    (hp : t'.isDir p = true) : Passable refuses t p := by
  rcases h.entry_cases (entry_ne_none hp) with hsame | ⟨hnone, hrefuses, -⟩
  · rw [isDir_congr hsame] at hp
    exact Or.inl hp
  · exact Or.inr ⟨hnone, hrefuses⟩

/-- A run gets through to a place where an entry is from the start or one can be made, if
directories can be had on the way. -/
theorem mkdirEach_passes (hstart : t.isDir start = true) {whole : List CStr}
    (hpass : ∀ q, q <+: whole → q ≠ whole → Passable refuses t (place start q))
    (hend : t.entry (place start whole) = none → refuses (place start whole) = false) :
    ∀ (rest : List (List CStr)) (t' : FileTree F A) (names : List CStr),
      Through refuses attr t t' start names → (names :: rest).IsChain Next →
        rest.getLastD names = whole →
        (mkdirEach refuses attr start rest t').1 = true := by
  intro rest
  induction rest with
  | nil => intro t' names _ _ _; rfl
  | cons next rest ih =>
      intro t' names h hchain hlast
      obtain ⟨hnext, hrest⟩ := List.isChain_cons_cons.mp hchain
      rw [List.getLastD_cons] at hlast
      have hnext' : next <+: whole := hlast ▸ (prefix_of_isChain hrest).1
      have habove : t'.Ancestors start next := by
        rcases hnext with rfl | ⟨name, rfl⟩
        · exact h.ancestors
        · refine ancestors_concat.mpr ⟨h.ancestors, h.grown.isDir_of_passable ?_ h.there⟩
          refine hpass names ((List.prefix_append _ _).trans hnext') ?_
          rintro rfl
          have hlong := hnext'.length_le
          rw [List.length_append, List.length_singleton] at hlong
          omega
      have hfree : t'.entry (place start next) = none → refuses (place start next) = false := by
        intro hnone
        have hold : t.entry (place start next) = none := by
          by_contra hold
          exact hold ((h.grown.kept _ hold).symm.trans hnone)
        by_cases hwhole : next = whole
        · rw [hwhole] at hold ⊢
          exact hend hold
        · rcases hpass next hnext' hwhole with hdir | ⟨-, hrefuses⟩
          · exact absurd hold (entry_ne_none hdir)
          · exact hrefuses
      unfold mkdirEach
      rcases h.step hstart hnext with ⟨-, hnot | ⟨hnone, hrefuses⟩⟩ | ⟨hmk, h'⟩ | ⟨t'', hmk, h'⟩
      · exact absurd habove hnot
      · rw [hfree hnone] at hrefuses
        exact absurd hrefuses (by decide)
      · rw [hmk]
        exact ih t' next h' hrest hlast
      · rw [hmk]
        exact ih t'' next h' hrest hlast

/-- A run along a path that leads to an entry finds everything there. -/
theorem mkdirEach_again (hstart : t.isDir start = true) {whole : List CStr}
    (habove : t.Ancestors start whole) (hthere : t.entry (place start whole) ≠ none) :
    ∀ rest : List (List CStr), (∀ names ∈ rest, names <+: whole) →
      mkdirEach refuses attr start rest t = (true, t) := by
  intro rest
  induction rest with
  | nil => intro _; rfl
  | cons names rest ih =>
      intro hall
      have hnames := hall names (by simp)
      have habove' : t.Ancestors start names := by
        intro q hq hne
        refine habove q (hq.trans hnames) ?_
        rintro rfl
        exact hne (hq.eq_of_length_le hnames.length_le)
      have hthere' : t.entry (place start names) ≠ none := by
        by_cases hwhole : names = whole
        · rw [hwhole]
          exact hthere
        · exact entry_ne_none (habove names hnames hwhole)
      unfold mkdirEach
      rcases mkdir_cases refuses attr hstart names with ⟨hnot, -⟩ | ⟨-, -, hmk⟩ |
        ⟨-, hnone, -⟩ | ⟨-, hnone, -⟩
      · exact absurd habove' hnot
      · rw [hmk]
        exact ih fun m hm => hall m (List.mem_cons_of_mem _ hm)
      · exact absurd hnone hthere'
      · exact absurd hnone hthere'

end Each

end FileTree

end Cruntime
