/-
A mount namespace, as the list of its mounts.

The latest mount is the last one, and a path belongs to the latest mount at or above it: what
is mounted later hides whatever it is mounted over, and everything below that.  A mount shows
a tree, and the rest of the path is looked up there.

Of a recursive bind the copies are what matters.  It brings along every mount below its source
that is made on what the source shows now, so those made since the mount the source belongs to,
and each copy keeps the flags of its original.
-/
import Mathlib.Data.List.Infix

namespace Cruntime

/-- The flags that stay with a mount. -/
structure MountFlags where
  readonly : Bool
  nosuid : Bool
  nodev : Bool
  noexec : Bool
deriving DecidableEq

namespace MountFlags

def none : MountFlags := ⟨false, false, false, false⟩

end MountFlags

/-- A mount: where it is made, what it shows, and how. -/
structure Mount (Name Tree : Type) where
  point : List Name
  tree : Tree
  flags : MountFlags
deriving DecidableEq

/-- A mount namespace, the latest mount last. -/
abbrev MountTable (Name Tree : Type) := List (Mount Name Tree)

namespace MountTable

variable {Name Tree : Type} [DecidableEq Name]

/-- The mount a path belongs to, with the mounts made before it and those made since. -/
structure Covering (Name Tree : Type) where
  before : MountTable Name Tree
  mount : Mount Name Tree
  since : MountTable Name Tree

/-- The latest mount at or above a path. -/
def covering : MountTable Name Tree → List Name → Option (Covering Name Tree)
  | [], _ => none
  | m :: rest, p =>
      match covering rest p with
      | some c => some { c with before := m :: c.before }
      | none => if m.point <+: p then some ⟨[], m, rest⟩ else none

/-- What is found at a path: a tree, and the path inside it. -/
def lookup (table : MountTable Name Tree) (p : List Name) : Option (Tree × List Name) :=
  (table.covering p).map fun c => (c.mount.tree, p.drop c.mount.point.length)

theorem covering_eq_none {table : MountTable Name Tree} {p : List Name} :
    table.covering p = none ↔ ∀ m ∈ table, ¬m.point <+: p := by
  induction table with
  | nil => simp [covering]
  | cons m rest ih =>
      unfold covering
      rw [List.forall_mem_cons]
      cases hrest : covering rest p with
      | none =>
          have hclear := ih.mp hrest
          by_cases hm : m.point <+: p
          · simp [hm]
          · simp only [if_neg hm, true_iff]
            exact ⟨hm, hclear⟩
      | some c =>
          simp only [reduceCtorEq, false_iff]
          intro h
          rw [ih.mpr h.2] at hrest
          simp at hrest

/-- The mount a path belongs to is at or above it, and none that came later is. -/
theorem covering_spec {table : MountTable Name Tree} {p : List Name} {c : Covering Name Tree}
    (h : table.covering p = some c) :
    table = c.before ++ c.mount :: c.since ∧ c.mount.point <+: p ∧
      ∀ m ∈ c.since, ¬m.point <+: p := by
  induction table generalizing c with
  | nil => simp [covering] at h
  | cons m rest ih =>
      unfold covering at h
      cases hrest : covering rest p with
      | none =>
          rw [hrest] at h
          by_cases hm : m.point <+: p
          · simp only [if_pos hm, Option.some.injEq] at h
            subst h
            exact ⟨rfl, hm, covering_eq_none.mp hrest⟩
          · simp [if_neg hm] at h
      | some d =>
          obtain ⟨hsplit, hpoint, hsince⟩ := ih hrest
          rw [hrest] at h
          simp only [Option.some.injEq] at h
          subst h
          exact ⟨congrArg (m :: ·) hsplit, hpoint, hsince⟩

theorem covering_append_cons {before since : MountTable Name Tree} {m : Mount Name Tree}
    {p : List Name} (hm : m.point <+: p) (hsince : ∀ x ∈ since, ¬x.point <+: p) :
    (before ++ m :: since).covering p = some ⟨before, m, since⟩ := by
  induction before with
  | nil =>
      unfold covering
      simp [covering_eq_none.mpr hsince, hm]
  | cons x rest ih =>
      rw [List.cons_append, covering, ih]

/-- What is mounted later is found first. -/
theorem lookup_append (table later : MountTable Name Tree) (p : List Name) :
    (table ++ later).lookup p = (later.lookup p).or (table.lookup p) := by
  cases hlater : covering later p with
  | some c =>
      obtain ⟨hsplit, hpoint, hsince⟩ := covering_spec hlater
      have hall : (table ++ later).covering p = some ⟨table ++ c.before, c.mount, c.since⟩ := by
        rw [hsplit, ← List.append_assoc]
        exact covering_append_cons hpoint hsince
      unfold lookup
      rw [hall, hlater]
      rfl
  | none =>
      have hclear := covering_eq_none.mp hlater
      have hnone : later.lookup p = none := by
        unfold lookup
        rw [hlater]
        rfl
      rw [hnone, Option.none_or]
      cases htable : covering table p with
      | none =>
          have hall : (table ++ later).covering p = none := by
            rw [covering_eq_none]
            intro m hm
            rcases List.mem_append.mp hm with hm | hm
            · exact covering_eq_none.mp htable m hm
            · exact hclear m hm
          unfold lookup
          rw [hall, htable]
      | some c =>
          obtain ⟨hsplit, hpoint, hsince⟩ := covering_spec htable
          have hall : (table ++ later).covering p = some ⟨c.before, c.mount, c.since ++ later⟩ := by
            rw [hsplit, List.append_assoc]
            refine covering_append_cons hpoint fun m hm => ?_
            rcases List.mem_append.mp hm with hm | hm
            · exact hsince m hm
            · exact hclear m hm
          unfold lookup
          rw [hall, htable]
          rfl

/-- **A path shows the root of a tree exactly when the latest mount at or above it is made there
and shows that tree.** -/
theorem lookup_eq_root_iff {table : MountTable Name Tree} {p : List Name} {tree : Tree} :
    table.lookup p = some (tree, []) ↔
      ∃ before m since, table = before ++ m :: since ∧ m.tree = tree ∧ m.point = p ∧
        ∀ x ∈ since, ¬x.point <+: p := by
  constructor
  · intro h
    obtain ⟨c, hc, heq⟩ := Option.map_eq_some_iff.mp h
    obtain ⟨hsplit, hpoint, hsince⟩ := covering_spec hc
    obtain ⟨htree, hdrop⟩ := Prod.mk.inj heq
    refine ⟨c.before, c.mount, c.since, hsplit, htree, ?_, hsince⟩
    exact hpoint.eq_of_length_le (List.drop_eq_nil_iff.mp hdrop)
  · rintro ⟨before, m, since, rfl, rfl, rfl, hsince⟩
    unfold lookup
    rw [covering_append_cons (List.prefix_refl _) hsince]
    simp

/-- What is found is what some mount shows. -/
theorem mem_of_lookup {table : MountTable Name Tree} {p rest : List Name} {tree : Tree}
    (h : table.lookup p = some (tree, rest)) : ∃ m ∈ table, m.tree = tree := by
  obtain ⟨c, hc, heq⟩ := Option.map_eq_some_iff.mp h
  obtain ⟨hsplit, -, -⟩ := covering_spec hc
  refine ⟨c.mount, ?_, (Prod.mk.inj heq).1⟩
  rw [hsplit]
  simp

/-! ### The calls -/

/-- A new file system. -/
def mountNew (table : MountTable Name Tree) (target : List Name) (tree : Tree)
    (flags : MountFlags) : MountTable Name Tree :=
  table ++ [⟨target, tree, flags⟩]

/-- A bind mount, which keeps the flags of the mount its source belongs to. -/
def bind (table : MountTable Name Tree) (source target : List Name) (tree : Tree) :
    Option (MountTable Name Tree) :=
  (table.covering source).map fun c => table ++ [⟨target, tree, c.mount.flags⟩]

/-- A mount below one directory, moved to the same place below another. -/
def Mount.moved (source target : List Name) (m : Mount Name Tree) : Mount Name Tree :=
  { m with point := target ++ m.point.drop source.length }

/-- The mounts below a directory that are made on what it shows. -/
def submounts (c : Covering Name Tree) (source : List Name) : MountTable Name Tree :=
  c.since.filter fun m => source <+: m.point

/-- What a recursive bind brings to its target: the source itself, and every mount below it. -/
def carried (table : MountTable Name Tree) (source target : List Name) (tree : Tree) :
    Option (MountTable Name Tree) :=
  (table.covering source).map fun c =>
    ⟨target, tree, c.mount.flags⟩ :: (submounts c source).map (Mount.moved source target)

/-- A recursive bind mount. -/
def bindTree (table : MountTable Name Tree) (source target : List Name) (tree : Tree) :
    Option (MountTable Name Tree) :=
  (table.carried source target tree).map (table ++ ·)

/-- A remount of the mount made at a path, which gives it exactly these flags. -/
def remount (table : MountTable Name Tree) (target : List Name) (flags : MountFlags) :
    Option (MountTable Name Tree) :=
  (table.covering target).bind fun c =>
    if c.mount.point = target then
      some (c.before ++ { c.mount with flags := flags } :: c.since)
    else none

/-- A mount below the source is a mount below the target. -/
theorem moved_below {table : MountTable Name Tree} {source target : List Name}
    {c : Covering Name Tree} (hc : table.covering source = some c) {m : Mount Name Tree}
    (hm : m ∈ submounts c source) : ¬(Mount.moved source target m).point <+: target := by
  obtain ⟨hmem, hbelow⟩ := List.mem_filter.mp hm
  have hnot : ¬m.point <+: source := (covering_spec hc).2.2 m hmem
  obtain ⟨rest, hrest⟩ := of_decide_eq_true hbelow
  intro h
  have hlen := h.length_le
  unfold Mount.moved at hlen
  rw [← hrest, List.drop_left, List.length_append] at hlen
  have hnil : rest = [] := List.length_eq_zero_iff.mp (by omega)
  rw [hnil, List.append_nil] at hrest
  exact hnot (hrest ▸ List.prefix_refl _)

/-- **After a recursive bind, a remount at its target meets the source's copy and no other.** -/
theorem remount_carried {table brought : MountTable Name Tree} {source target : List Name}
    {tree : Tree} (h : table.carried source target tree = some brought) (flags : MountFlags) :
    (table ++ brought).remount target flags =
      some (table ++ brought.modifyHead fun m => { m with flags := flags }) := by
  obtain ⟨c, hc, rfl⟩ := Option.map_eq_some_iff.mp h
  unfold remount
  rw [covering_append_cons (List.prefix_refl _)]
  · simp
  · intro m hm
    obtain ⟨m, hsub, rfl⟩ := List.mem_map.mp hm
    exact moved_below hc hsub

end MountTable

end Cruntime
