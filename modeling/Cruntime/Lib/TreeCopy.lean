/-
Copying one tree of entries onto another.

The tools that fill a layer all do the same with small differences.  They go through the entries
of a source and put each that they get to in its place, over what stands there: a
file over a directory takes the whole directory away, a directory over a directory
leaves what the old one holds.  What stands where the source has nothing they keep,
or remove.  A copy can stop anywhere, and a file can be cut short.

`Transfer` is one such pass with its outcome, and `onto` what it leaves.  Two
questions decide whether a pass was all or nothing: whether the result is the source
(`onto_exact_iff`), and whether it is what was there before (`onto_eq_old_iff`).
-/
import Cruntime.Lib.Overlay

namespace Cruntime

namespace Overlay

variable {N F A : Type}

namespace Entry

/-- A directory, and not something that takes the place of one. -/
def isDir : Entry F A → Bool
  | .dir _ _ => true
  | _ => false

/-- The opaque mark. -/
def mark : Entry F A → Bool
  | .dir _ isOpaque => isOpaque
  | _ => false

/-- The entry without its opaque mark, which is an extended attribute. -/
def unmarked : Entry F A → Entry F A
  | .dir a _ => .dir a false
  | e => e

theorem isDir_iff {e : Entry F A} : e.isDir = true ↔ ∃ a o, e = .dir a o := by
  cases e with
  | dir a o => simp [isDir]
  | file f => simp [isDir]
  | whiteout => simp [isDir]

end Entry

/-- Layers with the same entries are the same. -/
theorem Layer.ext_entry {l l' : Layer N F A} (h : ∀ p, l.entry p = l'.entry p) : l = l' := by
  obtain ⟨entry, root, parent⟩ := l
  obtain ⟨entry', root', parent'⟩ := l'
  obtain rfl : entry = entry' := funext h
  rfl

/-- One pass of a copying tool and what becomes of it. -/
structure Transfer (N F : Type) where
  /-- It writes extended attributes. -/
  xattrs : Bool
  /-- It gets to the entry of the source at this path, and puts it in its place. -/
  lands : Path N → Bool
  /-- What a file at this path is cut to. -/
  cut : Path N → Option F
  /-- It leaves what stands at this path where the source has nothing. -/
  keeps : Path N → Bool
  /-- It gets to an entry through the directories above it. -/
  lands_parent : ∀ p n, p ≠ [] → lands (p ++ [n]) = true → lands p = true
  keeps_root : keeps [] = true
  /-- What it removes, it removes with all that lies below. -/
  keeps_parent : ∀ p n, keeps (p ++ [n]) = true → keeps p = true

namespace Transfer

variable (t : Transfer N F)

/-- What the tool carries of an entry. -/
def carry (e : Entry F A) : Entry F A := if t.xattrs then e else e.unmarked

/-- The entry it writes, over an old one.  The mark of an old directory stays: no tool takes
an extended attribute away. -/
def write (p : Path N) (e : Entry F A) (old : Option (Entry F A)) : Entry F A :=
  match e with
  | .file f => .file ((t.cut p).getD f)
  | .dir a o => .dir a ((t.xattrs && o) || old.any Entry.mark)
  | .whiteout => .whiteout

@[simp] theorem write_isDir (p : Path N) (e : Entry F A) (old : Option (Entry F A)) :
    (t.write p e old).isDir = e.isDir := by
  cases e <;> rfl

/-- What it puts at a path. -/
def placed (src old : Layer N F A) (p : Path N) : Option (Entry F A) :=
  if t.lands p then (src.entry p).map fun e => t.write p e (old.entry p) else none

/-- It puts something above the path that is no directory. -/
def covered (src : Layer N F A) (p : Path N) : Bool :=
  p.inits.any fun q =>
    q.length < p.length && t.lands q && (src.entry q).any fun e => !e.isDir

/-- What stands at a path afterwards. -/
def ontoEntry (src old : Layer N F A) (p : Path N) : Option (Entry F A) :=
  (t.placed src old p).or
    (if t.keeps p && !t.covered src p then old.entry p else none)

variable {t}

theorem covered_iff {src : Layer N F A} {p : Path N} :
    t.covered src p = true ↔
      ∃ q s, p = q ++ s ∧ s ≠ [] ∧ t.lands q = true ∧
        ∃ e, src.entry q = some e ∧ e.isDir = false := by
  unfold covered
  simp only [List.any_eq_true, List.mem_inits, Bool.and_eq_true, decide_eq_true_eq,
    Option.any_eq_true, Bool.not_eq_true']
  constructor
  · rintro ⟨q, ⟨s, rfl⟩, ⟨hlen, hlands⟩, e, he, hdir⟩
    refine ⟨q, s, rfl, ?_, hlands, e, he, hdir⟩
    rintro rfl
    simp at hlen
  · rintro ⟨q, s, rfl, hs, hlands, e, he, hdir⟩
    refine ⟨q, List.prefix_append q s, ⟨?_, hlands⟩, e, he, hdir⟩
    rw [List.length_append]
    have := List.length_pos_iff.mpr hs
    omega

/-- What is covered is covered further down. -/
theorem covered_append {src : Layer N F A} {p : Path N} (h : t.covered src p = true)
    (s : Path N) : t.covered src (p ++ s) = true := by
  obtain ⟨q, r, rfl, hr, hlands, hsrc⟩ := covered_iff.mp h
  exact covered_iff.mpr ⟨q, r ++ s, List.append_assoc q r s, by simp [hr], hlands, hsrc⟩

theorem placed_eq_some {src old : Layer N F A} {p : Path N} {e : Entry F A} :
    t.placed src old p = some e ↔
      t.lands p = true ∧ ∃ e', src.entry p = some e' ∧ t.write p e' (old.entry p) = e := by
  unfold placed
  by_cases hlands : t.lands p = true <;> simp [hlands]

theorem placed_eq_none {src old : Layer N F A} {p : Path N} :
    t.placed src old p = none ↔ (t.lands p = true → src.entry p = none) := by
  unfold placed
  by_cases hlands : t.lands p = true <;> simp [hlands]

/-- Where the source has no entry nothing is put. -/
theorem placed_of_none {src old : Layer N F A} {p : Path N} (h : src.entry p = none) :
    t.placed src old p = none :=
  placed_eq_none.mpr fun _ => h

theorem ontoEntry_placed {src old : Layer N F A} {p : Path N} {e : Entry F A}
    (h : t.placed src old p = some e) : t.ontoEntry src old p = some e := by
  simp [ontoEntry, h]

theorem ontoEntry_left {src old : Layer N F A} {p : Path N} (h : t.placed src old p = none) :
    t.ontoEntry src old p =
      if t.keeps p = true ∧ t.covered src p = false then old.entry p else none := by
  unfold ontoEntry
  rw [h, Option.none_or]
  simp

/-- Above what is put there stand directories that were put there. -/
theorem ontoEntry_above_placed {src old : Layer N F A} {p : Path N} {n : N} (hp : p ≠ [])
    {e : Entry F A} (h : t.placed src old (p ++ [n]) = some e) :
    ∃ a o, t.ontoEntry src old p = some (.dir a o) := by
  obtain ⟨hlands, e', he', -⟩ := placed_eq_some.mp h
  obtain ⟨a, o, ha⟩ := src.parent p n (by simp [he'])
  exact ⟨a, _, ontoEntry_placed (placed_eq_some.mpr ⟨t.lands_parent p n hp hlands, _, ha, rfl⟩)⟩

/-- Above what is left there stand directories. -/
theorem ontoEntry_above_left {src old : Layer N F A} {p : Path N} {n : N}
    (hnone : t.placed src old (p ++ [n]) = none)
    (h : t.ontoEntry src old (p ++ [n]) ≠ none) :
    ∃ a o, t.ontoEntry src old p = some (.dir a o) := by
  rw [ontoEntry_left hnone] at h
  by_cases hstays : t.keeps (p ++ [n]) = true ∧ t.covered src (p ++ [n]) = false
  swap
  · rw [if_neg hstays] at h
    exact absurd rfl h
  rw [if_pos hstays] at h
  obtain ⟨hkeeps, hcovered⟩ := hstays
  cases hplaced : t.placed src old p with
  | some e =>
      -- a file put at `p` would have covered what is below
      obtain ⟨hlands, e', he', rfl⟩ := placed_eq_some.mp hplaced
      have hdir : e'.isDir = true := by
        by_contra hfile
        have := covered_iff.mpr ⟨p, [n], rfl, by simp, hlands, e', he', by simpa using hfile⟩
        rw [hcovered] at this
        simp at this
      obtain ⟨a, o, ha⟩ := Entry.isDir_iff.mp ((t.write_isDir p e' (old.entry p)).trans hdir)
      exact ⟨a, o, ha ▸ ontoEntry_placed hplaced⟩
  | none =>
      have hfree : t.covered src p = false := by
        by_contra hc
        rw [covered_append (by simpa using hc) [n]] at hcovered
        simp at hcovered
      obtain ⟨a, o, ha⟩ := old.parent p n h
      refine ⟨a, o, ?_⟩
      rw [ontoEntry_left hplaced, if_pos ⟨t.keeps_parent p n hkeeps, hfree⟩, ha]

/-- The root is a directory without a mark before and after. -/
theorem ontoEntry_root (src old : Layer N F A) :
    ∃ a, t.ontoEntry src old [] = some (.dir a false) := by
  obtain ⟨a, ha⟩ := src.root
  obtain ⟨b, hb⟩ := old.root
  have hcovered : t.covered src [] = false := by simp [covered]
  cases hplaced : t.placed src old [] with
  | some e =>
      obtain ⟨-, e', he', rfl⟩ := placed_eq_some.mp hplaced
      obtain rfl : Entry.dir a false = e' := Option.some.inj (ha.symm.trans he')
      exact ⟨a, by rw [ontoEntry_placed hplaced, hb]; simp [write, Entry.mark]⟩
  | none => exact ⟨b, by rw [ontoEntry_left hplaced, if_pos ⟨t.keeps_root, hcovered⟩, hb]⟩

/-- The tree that a pass leaves. -/
def onto (t : Transfer N F) (src old : Layer N F A) : Layer N F A where
  entry := t.ontoEntry src old
  root := ontoEntry_root src old
  parent := by
    intro p n hne
    by_cases hp : p = []
    · subst hp
      obtain ⟨a, ha⟩ := ontoEntry_root (t := t) src old
      exact ⟨a, false, ha⟩
    · cases hplaced : t.placed src old (p ++ [n]) with
      | some e => exact ontoEntry_above_placed hp hplaced
      | none => exact ontoEntry_above_left hplaced hne

/-- Where the pass gets to an entry of the source. -/
theorem onto_entry_some {src old : Layer N F A} {p : Path N} {e : Entry F A}
    (hlands : t.lands p = true) (he : src.entry p = some e) :
    (t.onto src old).entry p = some (t.write p e (old.entry p)) :=
  ontoEntry_placed (placed_eq_some.mpr ⟨hlands, e, he, rfl⟩)

/-- Where the source has nothing. -/
theorem onto_entry_none {src old : Layer N F A} {p : Path N} (he : src.entry p = none) :
    (t.onto src old).entry p =
      if t.keeps p = true ∧ t.covered src p = false then old.entry p else none :=
  ontoEntry_left (placed_of_none he)

/-! ### All of the source -/

/-- Every entry below the root is copied, and no file is cut to other contents. -/
def Complete (t : Transfer N F) (src : Layer N F A) : Prop :=
  ∀ p e, p ≠ [] → src.entry p = some e →
    t.lands p = true ∧ ∀ f f', e = .file f → t.cut p = some f' → f' = f

/-- The result is the source, as far as the tool carries it. -/
def Exact (t : Transfer N F) (src dst : Layer N F A) : Prop :=
  ∀ p, p ≠ [] → dst.entry p = (src.entry p).map t.carry

/-- Nothing of the old tree is left over: not an entry where the source has none, and not the
mark of a directory that was written over. -/
structure NoRemnant (t : Transfer N F) (src old : Layer N F A) : Prop where
  entry : ∀ p, src.entry p = none → old.entry p ≠ none → t.keeps p = true →
    t.covered src p = true
  mark : ∀ p a o b, p ≠ [] → src.entry p = some (.dir a o) → old.entry p = some (.dir b true) →
    t.xattrs = true ∧ o = true

theorem carry_dir (t : Transfer N F) (a : A) (o : Bool) :
    t.carry (Entry.dir a o : Entry F A) = .dir a (t.xattrs && o) := by
  unfold carry
  cases t.xattrs <;> rfl

theorem carry_of_not_dir (t : Transfer N F) {e : Entry F A} (h : e.isDir = false) :
    t.carry e = e := by
  unfold carry
  cases e with
  | dir a o => simp [Entry.isDir] at h
  | file f => simp [Entry.unmarked]
  | whiteout => simp [Entry.unmarked]

/-- A file that is not cut and anything but a directory is written as it is. -/
theorem write_of_not_dir {t : Transfer N F} {p : Path N} {e : Entry F A}
    (hdir : e.isDir = false) (hcut : ∀ f f', e = .file f → t.cut p = some f' → f' = f)
    (old : Option (Entry F A)) : t.write p e old = t.carry e := by
  rw [carry_of_not_dir t hdir]
  cases e with
  | dir a o => simp [Entry.isDir] at hdir
  | whiteout => rfl
  | file f =>
      cases hc : t.cut p with
      | none => simp [write, hc]
      | some f' =>
          obtain rfl := hcut f f' rfl hc
          simp [write, hc]

/-- A directory is written as the tool carries it unless the mark of the old one stays. -/
theorem write_dir_eq_carry_iff {t : Transfer N F} {p : Path N} {a : A} {o : Bool}
    {old : Option (Entry F A)} :
    t.write p (.dir a o) old = t.carry (.dir a o) ↔
      ∀ b, old = some (.dir b true) → t.xattrs = true ∧ o = true := by
  rw [carry_dir]
  simp only [write, Entry.dir.injEq, true_and]
  cases old with
  | none => simp
  | some e =>
      cases e with
      | dir b m => cases m <;> cases t.xattrs <;> cases o <;> simp [Entry.mark]
      | file f => simp [Entry.mark]
      | whiteout => simp [Entry.mark]

/-- **A complete pass leaves exactly the source** if and only if nothing of the old tree is
left over. -/
theorem onto_exact_iff {t : Transfer N F} {src old : Layer N F A} (hall : t.Complete src) :
    t.Exact src (t.onto src old) ↔ t.NoRemnant src old := by
  have hplaced : ∀ p e, p ≠ [] → src.entry p = some e →
      (t.onto src old).entry p = some (t.write p e (old.entry p)) :=
    fun p e hp he => onto_entry_some (hall p e hp he).1 he
  constructor
  · intro h
    refine ⟨fun p hsrc hold hkeeps => ?_, fun p a o b hp hsrc hold => ?_⟩
    · by_contra hfree
      have hat := h p (Layer.ne_nil_of_none hsrc)
      rw [hsrc, onto_entry_none hsrc, if_pos ⟨hkeeps, by simpa using hfree⟩] at hat
      exact hold hat
    · have hat := h p hp
      rw [hplaced p _ hp hsrc, hsrc, Option.map_some] at hat
      exact write_dir_eq_carry_iff.mp (Option.some.inj hat) b hold
  · intro h p hp
    cases hsrc : src.entry p with
    | some e =>
        rw [hplaced p e hp hsrc, Option.map_some]
        congr 1
        by_cases hdir : e.isDir = true
        · obtain ⟨a, o, rfl⟩ := Entry.isDir_iff.mp hdir
          exact write_dir_eq_carry_iff.mpr fun b hold => h.mark p a o b hp hsrc hold
        · exact write_of_not_dir (by simpa using hdir) (hall p e hp hsrc).2 _
    | none =>
        rw [onto_entry_none hsrc]
        split
        · rename_i hstays
          by_contra hold
          have hcovered := h.entry p hsrc hold hstays.1
          rw [hstays.2] at hcovered
          simp at hcovered
        · rfl

/-- Onto a directory that was just made a complete pass leaves exactly the source. -/
theorem noRemnant_empty (t : Transfer N F) (src : Layer N F A) (a : A) :
    t.NoRemnant src (.empty a) := by
  refine ⟨fun p hsrc hold => ?_, fun p b o c hp _ hold => ?_⟩
  · exact absurd (Layer.empty_entry (Layer.ne_nil_of_none hsrc)) hold
  · rw [Layer.empty_entry hp] at hold
    simp at hold

/-! ### Nothing at all -/

/-- What is put there stood there already, and nothing is removed. -/
structure Unchanged (t : Transfer N F) (src old : Layer N F A) : Prop where
  placed : ∀ p e, t.placed src old p = some e → old.entry p = some e
  kept : ∀ p, old.entry p ≠ none → t.placed src old p = none → t.keeps p = true

/-- **A pass leaves the old tree** if and only if it puts nothing new there and removes
nothing. -/
theorem onto_eq_old_iff {t : Transfer N F} {src old : Layer N F A} :
    t.onto src old = old ↔ t.Unchanged src old := by
  constructor
  · intro h
    have hat : ∀ p, t.ontoEntry src old p = old.entry p := fun p =>
      congrArg (fun l : Layer N F A => l.entry p) h
    refine ⟨fun p e he => ?_, fun p hold hnone => ?_⟩
    · rw [← hat p, ontoEntry_placed he]
    · by_contra hgone
      have := hat p
      rw [ontoEntry_left hnone, if_neg (by simp [hgone])] at this
      exact hold this.symm
  · intro h
    refine Layer.ext_entry fun p => ?_
    show t.ontoEntry src old p = old.entry p
    cases hplaced : t.placed src old p with
    | some e => rw [ontoEntry_placed hplaced, h.placed p e hplaced]
    | none =>
        rw [ontoEntry_left hplaced]
        split
        · rfl
        · rename_i hgone
          by_contra hold
          have hsome : old.entry p ≠ none := fun hnone => hold hnone.symm
          have hkeeps := h.kept p hsome hplaced
          have hcovered : t.covered src p = true := by
            by_contra hc
            exact hgone ⟨hkeeps, by simpa using hc⟩
          -- the file put above `p` stood there before, so nothing can have been below it
          obtain ⟨q, s, rfl, hs, hlands, e, he, hfile⟩ := covered_iff.mp hcovered
          have hq := h.placed q _ (placed_eq_some.mpr ⟨hlands, e, he, rfl⟩)
          obtain ⟨a, o, ha⟩ := Layer.dir_above s hs hsome
          rw [hq] at ha
          have hwrite := t.write_isDir q e (old.entry q)
          rw [Option.some.inj ha, hfile] at hwrite
          simp [Entry.isDir] at hwrite

end Transfer

end Overlay

end Cruntime
