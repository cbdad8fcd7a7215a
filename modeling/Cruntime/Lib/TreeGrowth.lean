/-
Trees that grow by directories, and `mkdir` in a tree and in a larger one.

A tree extends another one if all of that is in it and what is new are directories, none of them
where an entry cannot be made.  Making a directory that a run along a path comes to next is
answered in the larger tree as in the smaller: what stops it is a file, and the file is there, or
a place where no entry can be made, and nothing has come to be there.  That somebody else has
made the directory before is no difference, as an entry that is there already will do.
-/
import Cruntime.Lib.FileTree

namespace Cruntime

namespace FileTree

open Paths (Path)

variable {F A : Type}

/-- The same tree, with more directories. -/
structure Extends (refuses : Path → Bool) (attr : A) (t t' : FileTree F A) : Prop where
  kept : ∀ p, t.entry p ≠ none → t'.entry p = t.entry p
  added : ∀ p, t.entry p = none → t'.entry p ≠ none →
    t'.entry p = some (.dir attr) ∧ refuses p = false

section Extends

variable {refuses : Path → Bool} {attr : A} {t t' t'' : FileTree F A} {start p : Path}
  {names next : List CStr}

theorem extends_refl (t : FileTree F A) : Extends refuses attr t t :=
  ⟨fun _ _ => rfl, fun _ hold hnew => absurd hold hnew⟩

theorem Extends.trans (h : Extends refuses attr t t') (h' : Extends refuses attr t' t'') :
    Extends refuses attr t t'' where
  kept p hp := by
    have hsame := h.kept p hp
    rw [h'.kept p (by rwa [hsame]), hsame]
  added p hold hnew := by
    by_cases hmid : t'.entry p = none
    · exact h'.added p hmid hnew
    · rw [h'.kept p hmid]
      exact h.added p hold hmid

theorem Extends.isDir (h : Extends refuses attr t t') (hp : t.isDir p = true) :
    t'.isDir p = true := by
  rw [isDir_congr (h.kept p (entry_ne_none hp))]
  exact hp

theorem Extends.there (h : Extends refuses attr t t') (hp : t.entry p ≠ none) :
    t'.entry p ≠ none := by
  rwa [h.kept p hp]

theorem Extends.ancestors (h : Extends refuses attr t t') (hall : t.Ancestors start names) :
    t'.Ancestors start names :=
  fun q hq hne => h.isDir (hall q hq hne)

theorem Grown.extends (h : Grown refuses attr t t' start names) : Extends refuses attr t t' where
  kept := h.kept
  added p hold hnew := by
    obtain ⟨hentry, hrefuses, -⟩ := h.added p hold hnew
    exact ⟨hentry, hrefuses⟩

theorem extends_addDir (hnone : t.entry p = none) (hrefuses : refuses p = false)
    (hroom : t.isDir p.dropLast = true) : Extends refuses attr t (t.addDir p attr) where
  kept q hq := by
    refine addDir_entry_of_ne attr hnone hroom ?_
    rintro rfl
    exact hq hnone
  added q hold hnew := by
    by_cases hq : q = p
    · subst hq
      exact ⟨addDir_entry_self attr hnone hroom, hrefuses⟩
    · rw [addDir_entry_of_ne attr hnone hroom hq] at hnew
      exact absurd hold hnew

/-- A directory that is made in the smaller tree and is there in the larger, or is made in both. -/
theorem Extends.addDir_left (h : Extends refuses attr t t') (hnone : t.entry p = none)
    (hroom : t.isDir p.dropLast = true) (hp : t'.entry p = some (.dir attr)) :
    Extends refuses attr (t.addDir p attr) t' where
  kept q hq := by
    by_cases hqp : q = p
    · rw [hqp, hp, addDir_entry_self attr hnone hroom]
    · rw [addDir_entry_of_ne attr hnone hroom hqp] at hq ⊢
      exact h.kept q hq
  added q hold hnew := by
    have hqp : q ≠ p := by
      rintro rfl
      rw [addDir_entry_self attr hnone hroom] at hold
      cases hold
    rw [addDir_entry_of_ne attr hnone hroom hqp] at hold
    exact h.added q hold hnew

/-- **`mkdir` in a tree and in a larger one**, on the next path of a run that has come as far as
`names` in the smaller: it fails in both, or there is an entry in both afterwards. -/
theorem Extends.mkdir_cases (h : Extends refuses attr t t') (hstart : t.isDir start = true)
    (habove : t.Ancestors start names) (hthere : t.entry (place start names) ≠ none)
    (hnext : Next names next) :
    (t.mkdir refuses attr start next = .failed ∧ t'.mkdir refuses attr start next = .failed) ∨
      (t.Ancestors start next ∧ t.entry (place start next) ≠ none ∧
        t.mkdir refuses attr start next = .eexist ∧
          t'.mkdir refuses attr start next = .eexist) ∨
      (t.Ancestors start next ∧ t.entry (place start next) = none ∧
        refuses (place start next) = false ∧
        t.isDir (place start next).dropLast = true ∧
        t.mkdir refuses attr start next = .made (t.addDir (place start next) attr) ∧
          ((t'.entry (place start next) = some (.dir attr) ∧
              t'.mkdir refuses attr start next = .eexist) ∨
            (t'.entry (place start next) = none ∧
              t'.mkdir refuses attr start next = .made (t'.addDir (place start next) attr)))) := by
  have hlarger := FileTree.mkdir_cases refuses attr (h.isDir hstart) next
  rcases FileTree.mkdir_cases refuses attr hstart next with ⟨hnot, hmk⟩ | ⟨hall, hentry, hmk⟩ |
    ⟨hall, hnone, hrefuses, hmk⟩ | ⟨hall, hnone, hrefuses, hroom, hmk⟩
  · -- the path leads through the last entry, and that is a file
    refine Or.inl ⟨hmk, ?_⟩
    have hfile : ¬t'.Ancestors start next := by
      obtain rfl | ⟨name, rfl⟩ := hnext
      · exact absurd habove hnot
      · rw [ancestors_concat] at hnot ⊢
        intro hleads
        have hdir := hleads.2
        rw [isDir_congr (h.kept _ hthere)] at hdir
        exact hnot ⟨habove, hdir⟩
    obtain ⟨-, hmk'⟩ | ⟨hall', -⟩ | ⟨hall', -⟩ | ⟨hall', -⟩ := hlarger
    · exact hmk'
    · exact absurd hall' hfile
    · exact absurd hall' hfile
    · exact absurd hall' hfile
  · obtain ⟨hnot', -⟩ | ⟨-, -, hmk'⟩ | ⟨-, hnone', -⟩ | ⟨-, hnone', -⟩ := hlarger
    · exact absurd (h.ancestors hall) hnot'
    · exact Or.inr (Or.inl ⟨hall, hentry, hmk, hmk'⟩)
    · exact absurd hnone' (h.there hentry)
    · exact absurd hnone' (h.there hentry)
  · refine Or.inl ⟨hmk, ?_⟩
    obtain ⟨-, hmk'⟩ | ⟨-, hentry', -⟩ | ⟨-, -, -, hmk'⟩ | ⟨-, -, hrefuses', -⟩ := hlarger
    · exact hmk'
    · rw [(h.added _ hnone hentry').2] at hrefuses
      cases hrefuses
    · exact hmk'
    · rw [hrefuses'] at hrefuses
      cases hrefuses
  · refine Or.inr (Or.inr ⟨hall, hnone, hrefuses, hroom, hmk, ?_⟩)
    obtain ⟨hnot', -⟩ | ⟨-, hentry', hmk'⟩ | ⟨-, -, hrefuses', -⟩ | ⟨-, hnone', -, -, hmk'⟩ :=
      hlarger
    · exact absurd (h.ancestors hall) hnot'
    · exact Or.inl ⟨(h.added _ hnone hentry').1, hmk'⟩
    · rw [hrefuses'] at hrefuses
      cases hrefuses
    · exact Or.inr ⟨hnone', hmk'⟩

end Extends

end FileTree

end Cruntime
