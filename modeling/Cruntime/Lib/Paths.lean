/-
Paths as text and as directories to walk through.

A path is resolved component by component: a name goes down, `..` goes up and stays at the
root when it is there, and `.` and what is between two slashes do nothing.  Links are left
out, so that resolving a path is a fold over its components.

Resolved from nowhere in particular, a text is a number of steps up and then a list of
names.  That much of it decides where it leads from any directory, and with it whether it
leads back below a given one: it has to name again what it went up through.
-/
import Cruntime.Lib.CText

namespace Cruntime

namespace Paths

/-- A directory or a file: the names on the way from the root. -/
abbrev Path := List CStr

/-- One component. -/
def push (dir : Path) (name : CStr) : Path :=
  if name = [] ∨ name = ['.'] then dir
  else if name = ['.', '.'] then dir.dropLast
  else dir ++ [name]

/-- Where a text leads from a directory. -/
def walk (dir : Path) (text : CStr) : Path := (text.splitOn '/').foldl push dir

/-- Where a text leads from the root. -/
def resolve (text : CStr) : Path := walk [] text

example : resolve "/a//b/./../c".toList = ["a".toList, "c".toList] := by decide

/-- Where a text leads for a process in a directory. -/
def locate (cwd : Path) (text : CStr) : Path :=
  if text.head? = some '/' then resolve text else walk cwd text

/-- At a slash a text can be cut and walked in two parts. -/
theorem walk_append (dir : Path) (s t : CStr) :
    walk dir (s ++ '/' :: t) = walk (walk dir s) t := by
  unfold walk
  rw [List.splitOn_append_cons_self, List.foldl_append]

theorem walk_name {name : CStr} (h : '/' ∉ name) (dir : Path) :
    walk dir name = push dir name := by
  unfold walk
  rw [List.splitOn_eq_singleton h]
  rfl

theorem walk_slash (dir : Path) (t : CStr) : walk dir ('/' :: t) = walk dir t := by
  have hempty : walk dir [] = dir := walk_name (by simp) dir
  have hcut := walk_append dir [] t
  rw [hempty] at hcut
  exact hcut

/-- Behind a text, a text that starts with a slash leads on from where the first one leads. -/
theorem walk_append_slash {t : CStr} (ht : t.head? = some '/') (dir : Path) (s : CStr) :
    walk dir (s ++ t) = walk (walk dir s) t := by
  obtain ⟨t, rfl⟩ := List.head?_eq_some_iff.mp ht
  rw [walk_append, walk_slash]

theorem locate_append {cwd : Path} {s t : CStr} (hs : s ≠ []) (ht : t.head? = some '/') :
    locate cwd (s ++ t) = walk (locate cwd s) t := by
  unfold locate
  rw [List.head?_append_of_ne_nil _ hs]
  split_ifs
  · exact walk_append_slash ht [] s
  · exact walk_append_slash ht cwd s

/-! ### Texts on their own -/

/-- A text resolved on its own: some steps up, and names down from there. -/
structure Relative where
  ups : Nat
  names : Path
deriving DecidableEq

namespace Relative

/-- One component. -/
def push (r : Relative) (name : CStr) : Relative :=
  if name = [] ∨ name = ['.'] then r
  else if name = ['.', '.'] then
    if r.names = [] then ⟨r.ups + 1, []⟩ else ⟨r.ups, r.names.dropLast⟩
  else ⟨r.ups, r.names ++ [name]⟩

/-- Where it leads from a directory. -/
def follow (r : Relative) (dir : Path) : Path := dir.take (dir.length - r.ups) ++ r.names

/-- What it goes up through in a directory. -/
def left (r : Relative) (dir : Path) : Path := dir.drop (dir.length - r.ups)

theorem follow_push (r : Relative) (dir : Path) (name : CStr) :
    (r.push name).follow dir = Paths.push (r.follow dir) name := by
  unfold Relative.push Paths.push follow
  split_ifs with hskip hup hnames
  · rfl
  · rw [hnames, List.append_nil, List.append_nil, List.dropLast_eq_take, List.take_take,
      List.length_take]
    have hlen : min (min (dir.length - r.ups) dir.length - 1) (dir.length - r.ups)
        = dir.length - (r.ups + 1) := by omega
    rw [hlen]
  · rw [List.dropLast_append_of_ne_nil hnames]
  · rw [List.append_assoc]

end Relative

/-- A text as what it is on its own. -/
def relative (text : CStr) : Relative := (text.splitOn '/').foldl Relative.push ⟨0, []⟩

/-- **A text leads from every directory where it leads on its own.** -/
theorem walk_eq (dir : Path) (text : CStr) : walk dir text = (relative text).follow dir := by
  have hfold : ∀ (cs : List CStr) (r : Relative),
      (cs.foldl Relative.push r).follow dir = cs.foldl push (r.follow dir) := by
    intro cs
    induction cs with
    | nil => intro r; rfl
    | cons c rest ih =>
        intro r
        rw [List.foldl_cons, List.foldl_cons, ih, Relative.follow_push]
  have hstart : (Relative.mk 0 []).follow dir = dir := by
    unfold Relative.follow
    simp
  unfold walk relative
  rw [hfold, hstart]

/-- A text without a step up leads to the names in it. -/
theorem walk_down {text : CStr} (h : (relative text).ups = 0) (dir : Path) :
    walk dir text = dir ++ (relative text).names := by
  rw [walk_eq]
  unfold Relative.follow
  rw [h, Nat.sub_zero, List.take_length]

/-- A text that, from a directory, leads to what is named below it or further down: what it goes up
through it names again, and behind that what is asked for. -/
def Returns (dir below : Path) (text : CStr) : Prop :=
  (relative text).left dir ++ below <+: (relative text).names

instance (dir below : Path) (text : CStr) : Decidable (Returns dir below text) :=
  inferInstanceAs (Decidable (_ <+: _))

theorem returns_iff {dir below : Path} {text : CStr} :
    Returns dir below text ↔ dir ++ below <+: walk dir text := by
  have hsplit : dir ++ below = dir.take (dir.length - (relative text).ups) ++
      ((relative text).left dir ++ below) := by
    unfold Relative.left
    rw [← List.append_assoc, List.take_append_drop]
  rw [walk_eq, hsplit]
  unfold Returns Relative.follow
  rw [List.prefix_append_right_inj]

end Paths

end Cruntime
