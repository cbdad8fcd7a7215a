/-
Layers of a union file system, and what they show together.

A layer is a tree of entries.  Besides files and directories it can hold whiteouts,
which delete what lies below them, and opaque directories, which are shown without
anything that lies below them.  A stack of layers shows at each path the entry of
the topmost layer that has one, unless a layer above it hides the path.

`atop_eq_iff` says when a layer can be replaced by a partial copy of itself: what
is left out has to be redundant, entry by entry, and an opaque directory that is
left out must not have hidden anything.  `atop_plain_iff` says when a tree without
whiteouts hides another one altogether, which it hardly ever does.
-/
import Mathlib.Data.List.Infix
import Mathlib.Data.List.Basic

namespace Cruntime

namespace Overlay

variable {N F A : Type}

/-- What a path shows: a file with its contents, or a directory with its attributes. -/
inductive Node (F A : Type) where
  | file (f : F)
  | dir (a : A)
deriving DecidableEq

/-- What a layer holds at a path. -/
inductive Entry (F A : Type) where
  | file (f : F)
  | dir (a : A) (isOpaque : Bool)
  | whiteout
deriving DecidableEq

namespace Entry

/-- What an entry shows. -/
def shown : Entry F A → Option (Node F A)
  | .file f => some (.file f)
  | .dir a _ => some (.dir a)
  | .whiteout => none

/-- An entry that hides what lies below it, other than itself. -/
def hides : Entry F A → Bool
  | .dir _ isOpaque => isOpaque
  | _ => true

/-- Entries that differ in contents and attributes only. -/
def SameKind : Entry F A → Entry F A → Prop
  | .file _, .file _ => True
  | .dir _ o, .dir _ o' => o = o'
  | .whiteout, .whiteout => True
  | _, _ => False

theorem SameKind.hides_eq {e e' : Entry F A} (h : e.SameKind e') : e.hides = e'.hides := by
  cases e <;> cases e' <;> first | exact h.elim | exact h | rfl

theorem SameKind.rfl' (e : Entry F A) : e.SameKind e := by
  cases e <;> trivial

end Entry

abbrev Path (N : Type) := List N

/-- A layer: a tree of entries under a root directory that is not opaque. -/
structure Layer (N F A : Type) where
  entry : Path N → Option (Entry F A)
  root : ∃ a, entry [] = some (.dir a false)
  parent : ∀ p n, entry (p ++ [n]) ≠ none → ∃ a o, entry p = some (.dir a o)

/-- What can be seen at each path. -/
abbrev View (N F A : Type) := Path N → Option (Node F A)

/-- A view in which everything lies in a directory. -/
def IsTree (v : View N F A) : Prop := ∀ p n, v (p ++ [n]) ≠ none → ∃ a, v p = some (.dir a)

/-- Below a path that shows no directory there is nothing. -/
theorem IsTree.eq_none_below {v : View N F A} (hv : IsTree v) {p : Path N}
    (hp : ∀ a, v p ≠ some (.dir a)) (q : Path N) (hq : q ≠ []) : v (p ++ q) = none := by
  induction q using List.reverseRecOn with
  | nil => exact absurd rfl hq
  | append_singleton q n ih =>
      by_contra hne
      rw [← List.append_assoc] at hne
      obtain ⟨a, ha⟩ := hv _ _ hne
      by_cases hq' : q = []
      · subst hq'
        rw [List.append_nil] at ha
        exact hp a ha
      · rw [ih hq'] at ha
        simp at ha

namespace Layer

/-- A layer with nothing in it. -/
def empty (a : A) : Layer N F A where
  entry p := if p.isEmpty then some (.dir a false) else none
  root := ⟨a, rfl⟩
  parent := by intro p n h; simp at h

theorem empty_entry {a : A} {p : Path N} (hp : p ≠ []) :
    (empty a : Layer N F A).entry p = none := by
  simp [empty, hp]

/-- Every layer has its root. -/
theorem ne_nil_of_none {u : Layer N F A} {p : Path N} (h : u.entry p = none) : p ≠ [] := by
  rintro rfl
  obtain ⟨a, ha⟩ := u.root
  rw [h] at ha
  simp at ha

/-- No entry at the path or above it hides what lies below the layer there. -/
def exposed (u : Layer N F A) (p : Path N) : Bool :=
  p.inits.all fun q => !(u.entry q).any Entry.hides

theorem exposed_iff {u : Layer N F A} {p : Path N} :
    u.exposed p = true ↔ ∀ q, q <+: p → ∀ e, u.entry q = some e → e.hides = false := by
  unfold exposed
  rw [List.all_eq_true]
  constructor
  · intro h q hq e he
    have := h q (List.mem_inits _ _ |>.mpr hq)
    simpa [he] using this
  · intro h q hq
    cases he : u.entry q with
    | none => rfl
    | some e => simpa [he] using h q (List.mem_inits _ _ |>.mp hq) e he

theorem exposed_above {u : Layer N F A} {p q : Path N} (hq : q <+: p)
    (h : u.exposed p = true) : u.exposed q = true := by
  rw [exposed_iff] at h ⊢
  intro s hs
  exact h s (hs.trans hq)

/-- A layer with no entry at a path has none below it. -/
theorem entry_none_below {u : Layer N F A} {p : Path N} (hp : u.entry p = none) :
    ∀ q, u.entry (p ++ q) = none := by
  intro q
  induction q using List.reverseRecOn with
  | nil => rwa [List.append_nil]
  | append_singleton q n ih =>
      by_contra hne
      rw [← List.append_assoc] at hne
      obtain ⟨a, o, ha⟩ := u.parent _ _ hne
      rw [ih] at ha
      simp at ha

/-- Above an entry there are directories only. -/
theorem dir_above {u : Layer N F A} {p : Path N} (q : Path N) (hq : q ≠ [])
    (h : u.entry (p ++ q) ≠ none) : ∃ a o, u.entry p = some (.dir a o) := by
  obtain ⟨n, rest, rfl⟩ := List.exists_cons_of_ne_nil hq
  refine u.parent p n fun hnone => h ?_
  have := entry_none_below hnone rest
  rwa [List.append_assoc] at this

/-- The layer over a view. -/
def atop (u : Layer N F A) (v : View N F A) : View N F A := fun p =>
  match u.entry p with
  | some e => e.shown
  | none => if u.exposed p then v p else none

theorem atop_of_some {u : Layer N F A} {v : View N F A} {p : Path N} {e : Entry F A}
    (h : u.entry p = some e) : u.atop v p = e.shown := by
  simp [atop, h]

theorem atop_of_none {u : Layer N F A} {v : View N F A} {p : Path N} (h : u.entry p = none) :
    u.atop v p = if u.exposed p then v p else none := by
  simp [atop, h]

/-- A layer over a tree shows a tree. -/
theorem atop_isTree (u : Layer N F A) {v : View N F A} (hv : IsTree v) : IsTree (u.atop v) := by
  intro p n hne
  cases hn : u.entry (p ++ [n]) with
  | some e =>
      obtain ⟨a, o, hp⟩ := u.parent p n (by simp [hn])
      exact ⟨a, atop_of_some hp⟩
  | none =>
      rw [atop_of_none hn] at hne
      have hex : u.exposed (p ++ [n]) = true := by
        by_contra hnot
        simp [hnot] at hne
      rw [if_pos hex] at hne
      cases hp : u.entry p with
      | none =>
          rw [atop_of_none hp, if_pos (exposed_above (List.prefix_append p [n]) hex)]
          exact hv p n hne
      | some e =>
          have hhides := exposed_iff.mp hex p (List.prefix_append p [n]) e hp
          cases e with
          | dir a o => exact ⟨a, atop_of_some hp⟩
          | file f => simp [Entry.hides] at hhides
          | whiteout => simp [Entry.hides] at hhides

end Layer

/-- What a stack of layers shows, topmost layer first. -/
def merged (layers : List (Layer N F A)) : View N F A :=
  layers.foldr Layer.atop fun _ => none

theorem merged_cons (u : Layer N F A) (layers : List (Layer N F A)) :
    merged (u :: layers) = u.atop (merged layers) := rfl

theorem merged_isTree (layers : List (Layer N F A)) : IsTree (merged layers) := by
  induction layers with
  | nil => intro p n h; exact absurd rfl h
  | cons u rest ih => exact Layer.atop_isTree u ih

/-! ### Partial copies -/

/-- Every entry of `c` stands where `u` has one of its kind. -/
def PartialCopy (c u : Layer N F A) : Prop :=
  ∀ p e, c.entry p = some e → ∃ e', u.entry p = some e' ∧ e.SameKind e'

theorem PartialCopy.entry_none {c u : Layer N F A} (h : PartialCopy c u) {p : Path N}
    (hp : u.entry p = none) : c.entry p = none := by
  cases hc : c.entry p with
  | none => rfl
  | some e =>
      obtain ⟨e', he', -⟩ := h p e hc
      rw [hp] at he'
      simp at he'

/-- What the copy hides, the original hides. -/
theorem PartialCopy.exposed {c u : Layer N F A} (h : PartialCopy c u) {p : Path N}
    (hp : u.exposed p = true) : c.exposed p = true := by
  rw [Layer.exposed_iff] at hp ⊢
  intro q hq e he
  obtain ⟨e', he', hkind⟩ := h q e he
  rw [hkind.hides_eq]
  exact hp q hq e' he'

/-- Below a path without an entry nothing more is hidden. -/
theorem Layer.exposed_below {u : Layer N F A} {p : Path N} (hp : u.entry p = none)
    (h : u.exposed p = true) (q : Path N) : u.exposed (p ++ q) = true := by
  rw [exposed_iff] at h ⊢
  intro s hs e he
  rcases List.prefix_or_prefix_of_prefix hs (List.prefix_append p q) with hle | ⟨t, rfl⟩
  · exact h s hle e he
  · rw [entry_none_below hp t] at he
    simp at he

/-- Under an entry that hides, only the layer itself shows anything. -/
theorem Layer.atop_below_hiding {u : Layer N F A} {v : View N F A} {p : Path N} {e : Entry F A}
    (he : u.entry p = some e) (hhides : e.hides = true) {q : Path N}
    (hq : u.entry (p ++ q) = none) : u.atop v (p ++ q) = none := by
  have hnot : ¬ u.exposed (p ++ q) = true := by
    intro hex
    have := exposed_iff.mp hex p (List.prefix_append p q) e he
    rw [hhides] at this
    simp at this
  rw [atop_of_none hq, if_neg hnot]

/-- An entry that hides, stands above a path and shows no directory leaves nothing to see
there in a view that shows the same in its place. -/
theorem IsTree.none_of_shown {v : View N F A} (hv : IsTree v) {p q : Path N} {e : Entry F A}
    (hv' : v p = e.shown) (hdir : ∀ a o, e ≠ .dir a o) (hq : q ≠ []) : v (p ++ q) = none := by
  refine hv.eq_none_below (fun a ha => ?_) q hq
  rw [hv'] at ha
  cases e with
  | dir b o => exact hdir b o rfl
  | file f => simp [Entry.shown] at ha
  | whiteout => simp [Entry.shown] at ha

/-- What `c` leaves out of `u` is redundant over `v`: the layers below show the same entry,
and an opaque directory hides nothing of theirs. -/
structure Redundant (c u : Layer N F A) (v : View N F A) : Prop where
  shown : ∀ p e, u.entry p = some e → c.entry p = none →
    e.shown = if c.exposed p then v p else none
  unhidden : ∀ p a, u.entry p = some (.dir a true) → c.entry p = none →
    ∀ q, u.entry (p ++ q) = none → v (p ++ q) = none

/-- A copy that shows the same leaves out redundant entries only. -/
theorem redundant_of_atop_eq {c u : Layer N F A} (hcopy : PartialCopy c u) {v : View N F A}
    (h : c.atop v = u.atop v) : Redundant c u v := by
  have hshown : ∀ p e, u.entry p = some e → c.entry p = none →
      e.shown = if c.exposed p then v p else none := by
    intro p e he hc
    rw [← Layer.atop_of_none hc, h, Layer.atop_of_some he]
  refine ⟨hshown, fun p a he hc q hq => ?_⟩
  have hex : c.exposed p = true := by
    by_contra hnot
    have := hshown p _ he hc
    simp [hnot, Entry.shown] at this
  have hatop := Layer.atop_below_hiding (v := v) he rfl hq
  rwa [← h, Layer.atop_of_none (hcopy.entry_none hq), if_pos (Layer.exposed_below hc hex q)] at hatop

/-- Where the original has no entry, a copy that leaves out redundant entries shows the same. -/
theorem Redundant.atop_none {c u : Layer N F A} (hcopy : PartialCopy c u) {v : View N F A}
    (hv : IsTree v) (h : Redundant c u v) {p : Path N} (hp : u.entry p = none) :
    c.atop v p = u.atop v p := by
  rw [Layer.atop_of_none hp, Layer.atop_of_none (hcopy.entry_none hp)]
  by_cases hu : u.exposed p = true
  · rw [if_pos hu, if_pos (hcopy.exposed hu)]
  · rw [if_neg hu]
    by_cases hc : c.exposed p = true
    · rw [if_pos hc]
      -- an entry of the original above `p` hides the path, and the copy lacks that entry
      obtain ⟨s, ⟨q, rfl⟩, e, he, hhides⟩ : ∃ s, s <+: p ∧ ∃ e, u.entry s = some e ∧
          e.hides = true := by
        by_contra hno
        refine hu (Layer.exposed_iff.mpr fun s hs e he => ?_)
        by_contra hne
        exact hno ⟨s, hs, e, he, by simpa using hne⟩
      have hcs : c.entry s = none := by
        cases hce : c.entry s with
        | none => rfl
        | some e' =>
            obtain ⟨e'', he'', hkind⟩ := hcopy s e' hce
            obtain rfl : e = e'' := Option.some.inj (he.symm.trans he'')
            have := Layer.exposed_iff.mp hc s (List.prefix_append s q) e' hce
            rw [hkind.hides_eq, hhides] at this
            simp at this
      have hq : q ≠ [] := by
        rintro rfl
        rw [List.append_nil, he] at hp
        simp at hp
      have hvs := h.shown s e he hcs
      rw [if_pos (Layer.exposed_above (List.prefix_append s q) hc)] at hvs
      cases e with
      | dir a o => exact h.unhidden s a (by simpa [Entry.hides] using hhides ▸ he) hcs q hp
      | file f => exact hv.none_of_shown hvs.symm (by simp) hq
      | whiteout => exact hv.none_of_shown hvs.symm (by simp) hq
    · rw [if_neg hc]

/-- **Replacing a layer by a partial copy** shows the same over a tree exactly when every
entry that was copied shows the same and what was left out is redundant. -/
theorem atop_eq_iff {c u : Layer N F A} (hcopy : PartialCopy c u) {v : View N F A}
    (hv : IsTree v) :
    c.atop v = u.atop v ↔
      (∀ p e e', c.entry p = some e → u.entry p = some e' → e.shown = e'.shown) ∧
        Redundant c u v := by
  constructor
  · intro h
    refine ⟨fun p e e' hc hu => ?_, redundant_of_atop_eq hcopy h⟩
    rw [← Layer.atop_of_some hc, h, Layer.atop_of_some hu]
  · rintro ⟨hsame, hred⟩
    funext p
    cases hu : u.entry p with
    | none => exact hred.atop_none hcopy hv hu
    | some e' =>
        rw [Layer.atop_of_some hu]
        cases hc : c.entry p with
        | some e => rw [Layer.atop_of_some hc, hsame p e e' hc hu]
        | none => rw [Layer.atop_of_none hc, ← hred.shown p e' hu hc]

/-! ### Plain trees -/

/-- A tree of files and directories, without whiteouts and opaque marks. -/
def Layer.PlainTree (u : Layer N F A) : Prop :=
  ∀ p e, u.entry p = some e → (∃ f, e = .file f) ∨ ∃ a, e = .dir a false

theorem Layer.PlainTree.shown {u : Layer N F A} (hu : u.PlainTree) {p : Path N} {e : Entry F A}
    (he : u.entry p = some e) : e.shown ≠ none := by
  rcases hu p e he with ⟨f, rfl⟩ | ⟨a, rfl⟩ <;> simp [Entry.shown]

/-- Alone a layer shows its own entries. -/
theorem merged_singleton (u : Layer N F A) (p : Path N) :
    merged [u] p = (u.entry p).bind Entry.shown := by
  rw [merged_cons]
  cases he : u.entry p with
  | some e => exact Layer.atop_of_some he
  | none =>
      rw [Layer.atop_of_none he]
      exact ite_self none

/-- A plain tree alone shows something where it has an entry. -/
theorem Layer.PlainTree.merged_eq_none_iff {u : Layer N F A} (hu : u.PlainTree) {p : Path N} :
    merged [u] p = none ↔ u.entry p = none := by
  rw [merged_singleton]
  cases he : u.entry p with
  | none => simp
  | some e => simpa using hu.shown he

/-- In a plain tree only files hide what lies below them. -/
theorem Layer.PlainTree.not_exposed_iff {u : Layer N F A} (hu : u.PlainTree) {p : Path N} :
    u.exposed p = false ↔ ∃ q f, q <+: p ∧ u.entry q = some (.file f) := by
  rw [← Bool.not_eq_true, Layer.exposed_iff]
  constructor
  · intro h
    by_contra hno
    refine h fun q hq e he => ?_
    rcases hu q e he with ⟨f, rfl⟩ | ⟨a, rfl⟩
    · exact absurd ⟨q, f, hq, he⟩ hno
    · rfl
  · rintro ⟨q, f, hq, hf⟩ h
    have := h q hq _ hf
    simp [Entry.hides] at this

/-- **A plain tree over another** shows only itself exactly when each entry of the other is one
it has too, or lies below a file of it. -/
theorem atop_plain_iff {u l : Layer N F A} (hu : u.PlainTree) (hl : l.PlainTree) :
    merged [u, l] = merged [u] ↔
      ∀ p, l.entry p ≠ none → u.entry p = none → ∃ q f, q <+: p ∧ u.entry q = some (.file f) := by
  have hnone : ∀ p, u.entry p = none →
      (merged [u, l] p = merged [u] p ↔ (u.exposed p = true → l.entry p = none)) := by
    intro p hp
    rw [hu.merged_eq_none_iff.mpr hp, merged_cons, Layer.atop_of_none hp]
    by_cases hex : u.exposed p = true
    · rw [if_pos hex, hl.merged_eq_none_iff]
      simp [hex]
    · simp [hex]
  constructor
  · intro h p hlp hup
    refine hu.not_exposed_iff.mp ?_
    by_contra hex
    exact hlp ((hnone p hup).mp (congrFun h p) (by simpa using hex))
  · intro h
    funext p
    cases hup : u.entry p with
    | some e =>
        rw [merged_cons, Layer.atop_of_some hup, merged_singleton, hup]
        rfl
    | none =>
        refine (hnone p hup).mpr fun hex => ?_
        by_contra hlp
        rw [hu.not_exposed_iff.mpr (h p hlp hup)] at hex
        simp at hex

end Overlay

end Cruntime
