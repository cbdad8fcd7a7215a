/-
Committing a container's changes to a new layer.

`storage_commit_container` copies `upper/*` into a fresh directory and drops every
status on the way: that of `mkdir_recursive`, that of `cp` behind `|| true`, and that
of `system`.  The shell's `*` passes over names that start with a dot.  So the new
layer is a partial copy of the upper one, and `Lib/Overlay.lean` says when that shows
the same over the image: when what was left out is redundant.

Layer and container ids are names without blanks or other characters the shell reads,
as the paths stand in the command unquoted.
-/
import Cruntime.Lib.Overlay
import Cruntime.Net.Network

namespace Cruntime

open Overlay

variable {F A : Type}

/-- The directories below `image_dir`: `layers/<id>` and `overlay/<id>/upper`. -/
structure Storage (F A : Type) where
  layers : CStr → Option (Layer CStr F A)
  upper : CStr → Option (Layer CStr F A)

/-- The layers of an image that `storage_mount_overlay` passes as `lowerdir`, from the last
to the first, the topmost first; `none` when one of them is missing. -/
def Storage.lowerDirs (st : Storage F A) (image : List CStr) : Option (List (Layer CStr F A)) :=
  image.reverse.mapM st.layers

/-- What the layers of an image show. -/
def Storage.imageView (st : Storage F A) (image : List CStr) : Option (View CStr F A) :=
  (st.lowerDirs image).map merged

/-- What a container sees that `storage_mount_overlay` has mounted on an image. -/
def Storage.containerView (st : Storage F A) (image : List CStr) (containerId : CStr) :
    Option (View CStr F A) := do
  let lower ← st.lowerDirs image
  let upper ← st.upper containerId
  return merged (upper :: lower)

/-- What becomes of the copy of one entry.  A file can be cut short, when the disk is full. -/
inductive CopyOutcome (F : Type) where
  | copied
  | cut (f : F)
  | failed
deriving DecidableEq

/-- What the calls of a commit meet: whether the directory of the layer can be made, the
attributes it then has, and the outcome of the copy at each path. -/
structure CommitEnv (F A : Type) where
  mkdirOk : Bool
  dirAttr : A
  outcome : Path CStr → CopyOutcome F

namespace CommitEnv

variable (env : CommitEnv F A)

def fails (p : Path CStr) : Bool :=
  match env.outcome p with
  | .failed => true
  | _ => false

/-- The paths `cp -a upper/* layer/` gets to: the first name is one that `*` stands for, and
the copy fails neither there nor at a directory above. -/
def reached : Path CStr → Bool
  | [] => true
  | n :: rest => n.head? != some '.' && (n :: rest).inits.all fun q => q.isEmpty || !env.fails q

/-- The copy of an entry that is reached. -/
def copy (p : Path CStr) (e : Entry F A) : Entry F A :=
  match env.outcome p, e with
  | .cut f, .file _ => .file f
  | _, e => e

/-- What the new layer holds after the copy. -/
def copiedEntry (upper : Layer CStr F A) : Path CStr → Option (Entry F A)
  | [] => some (.dir env.dirAttr false)
  | n :: rest =>
      if env.reached (n :: rest) then (upper.entry (n :: rest)).map (env.copy (n :: rest))
      else none

theorem copy_dir (p : Path CStr) (a : A) (o : Bool) : env.copy p (.dir a o) = .dir a o := by
  unfold copy
  split <;> simp_all

theorem copy_sameKind (p : Path CStr) (e : Entry F A) : (env.copy p e).SameKind e := by
  unfold copy
  split
  · trivial
  · exact Entry.SameKind.rfl' _

theorem reached_iff {p : Path CStr} (hp : p ≠ []) :
    env.reached p = true ↔
      (∀ n, p.head? = some n → n.head? ≠ some '.') ∧
        ∀ q, q <+: p → q ≠ [] → env.fails q = false := by
  obtain ⟨n, rest, rfl⟩ := List.exists_cons_of_ne_nil hp
  simp only [reached, Bool.and_eq_true, bne_iff_ne, ne_eq, List.all_eq_true, List.mem_inits,
    List.head?_cons, Option.some.injEq, forall_eq', Bool.or_eq_true, List.isEmpty_iff,
    Bool.not_eq_true']
  refine and_congr_right fun _ => forall₂_congr fun q _ => ?_
  by_cases hq : q = [] <;> simp [hq]

/-- Above a path that is reached every path is. -/
theorem reached_above {p q : Path CStr} (hq : q <+: p) (h : env.reached p = true) :
    env.reached q = true := by
  by_cases hnil : q = []
  · subst hnil
    rfl
  · have hp : p ≠ [] := by
      rintro rfl
      exact hnil (List.prefix_nil.mp hq)
    obtain ⟨hhead, hfails⟩ := (reached_iff env hp).mp h
    refine (reached_iff env hnil).mpr ⟨fun n hn => hhead n ?_, fun s hs => hfails s (hs.trans hq)⟩
    obtain ⟨t, rfl⟩ := hq
    obtain ⟨m, rest, rfl⟩ := List.exists_cons_of_ne_nil hnil
    simpa using hn

theorem copiedEntry_of_ne_nil (upper : Layer CStr F A) {p : Path CStr} (hp : p ≠ []) :
    env.copiedEntry upper p =
      if env.reached p then (upper.entry p).map (env.copy p) else none := by
  obtain ⟨n, rest, rfl⟩ := List.exists_cons_of_ne_nil hp
  rfl

/-- The new layer. -/
def copied (upper : Layer CStr F A) : Layer CStr F A where
  entry := env.copiedEntry upper
  root := ⟨env.dirAttr, rfl⟩
  parent := by
    intro p n hne
    by_cases hp : p = []
    · subst hp
      exact ⟨env.dirAttr, false, rfl⟩
    · rw [copiedEntry_of_ne_nil env upper (by simp)] at hne
      rw [copiedEntry_of_ne_nil env upper hp]
      have hreach : env.reached (p ++ [n]) = true := by
        by_contra hnot
        simp [hnot] at hne
      have hthere : upper.entry (p ++ [n]) ≠ none := by
        intro hnone
        simp [hnone] at hne
      obtain ⟨a, o, ha⟩ := upper.parent p n hthere
      refine ⟨a, o, ?_⟩
      rw [if_pos (reached_above env (List.prefix_append p [n]) hreach), ha, Option.map_some,
        copy_dir]

end CommitEnv

/-- `storage_commit_container` for a layer id that is not in use: its code, and the
directories it leaves. -/
def storageCommitContainer (env : CommitEnv F A) (st : Storage F A) (containerId layerId : CStr) :
    CrCode × Storage F A :=
  -- Create new layer from changes
  if env.mkdirOk then
    -- Copy changes to new layer; without an upper directory there is nothing to copy
    let layer := ((st.upper containerId).map env.copied).getD (.empty env.dirAttr)
    (.ok, { st with layers := Function.update st.layers layerId (some layer) })
  else (.ok, st)

/-! ### The new layer on top of the image -/

theorem mapM_update {layers : CStr → Option (Layer CStr F A)} {layerId : CStr}
    (hfresh : layers layerId = none) (l : Layer CStr F A) (ids : List CStr) :
    ∀ {lower}, ids.mapM layers = some lower →
      ids.mapM (Function.update layers layerId (some l)) = some lower := by
  induction ids with
  | nil => intro lower h; exact h
  | cons id rest ih =>
      intro lower h
      rw [List.mapM_cons] at h ⊢
      obtain ⟨first, hfirst, h⟩ := Option.bind_eq_some_iff.mp h
      obtain ⟨others, hothers, h⟩ := Option.bind_eq_some_iff.mp h
      have hid : id ≠ layerId := by
        rintro rfl
        rw [hfresh] at hfirst
        simp at hfirst
      rw [Function.update_of_ne hid, hfirst, ih hothers]
      exact h

/-- The image with the new layer, when its directory could be made. -/
theorem imageView_commit {env : CommitEnv F A} (hmade : env.mkdirOk = true) {st : Storage F A}
    {image : List CStr} {containerId layerId : CStr} {upper : Layer CStr F A}
    {lower : List (Layer CStr F A)} (hupper : st.upper containerId = some upper)
    (hlower : st.lowerDirs image = some lower) (hfresh : st.layers layerId = none) :
    (storageCommitContainer env st containerId layerId).2.imageView (image ++ [layerId]) =
      some ((env.copied upper).atop (merged lower)) := by
  unfold storageCommitContainer Storage.imageView Storage.lowerDirs
  rw [if_pos hmade, hupper, List.reverse_append]
  show (Option.map merged ((layerId :: image.reverse).mapM _)) = _
  rw [List.mapM_cons, mapM_update hfresh _ _ hlower]
  simp [merged_cons]

/-- Without its directory the new layer cannot be mounted. -/
theorem imageView_not_made {env : CommitEnv F A} (hmade : env.mkdirOk = false) {st : Storage F A}
    {image : List CStr} {containerId layerId : CStr} (hfresh : st.layers layerId = none) :
    (storageCommitContainer env st containerId layerId).2.imageView (image ++ [layerId]) = none := by
  unfold storageCommitContainer Storage.imageView Storage.lowerDirs
  rw [hmade, List.reverse_append]
  show (Option.map merged ((layerId :: image.reverse).mapM st.layers)) = _
  rw [List.mapM_cons, hfresh]
  rfl

namespace CommitEnv

variable {env : CommitEnv F A}

/-- The new layer is a partial copy of the upper one. -/
theorem copied_partialCopy (upper : Layer CStr F A) : PartialCopy (env.copied upper) upper := by
  intro p e he
  by_cases hp : p = []
  · subst hp
    obtain ⟨a, ha⟩ := upper.root
    obtain rfl : Entry.dir env.dirAttr false = e := Option.some.inj he
    exact ⟨_, ha, rfl⟩
  · rw [show (env.copied upper).entry p = env.copiedEntry upper p from rfl,
      copiedEntry_of_ne_nil env upper hp] at he
    by_cases hreach : env.reached p = true
    · rw [if_pos hreach] at he
      obtain ⟨e', he', rfl⟩ := Option.map_eq_some_iff.mp he
      exact ⟨e', he', copy_sameKind env p e'⟩
    · simp [hreach] at he

/-- An entry of the upper layer is left out exactly when the copy does not get to it. -/
theorem copied_entry {upper : Layer CStr F A} {p : Path CStr} {e : Entry F A}
    (he : upper.entry p = some e) (hp : p ≠ []) :
    (env.copied upper).entry p = if env.reached p then some (env.copy p e) else none := by
  show env.copiedEntry upper p = _
  rw [copiedEntry_of_ne_nil env upper hp, he]
  rfl

theorem copied_entry_eq_none {upper : Layer CStr F A} {p : Path CStr} {e : Entry F A}
    (he : upper.entry p = some e) :
    (env.copied upper).entry p = none ↔ env.reached p = false := by
  by_cases hp : p = []
  · subst hp
    simp [copied, copiedEntry, reached]
  · rw [copied_entry he hp]
    by_cases hreach : env.reached p = true <;> simp [hreach]

/-- No opaque directory at the path or above it is copied. -/
def openAbove (env : CommitEnv F A) (upper : Layer CStr F A) (p : Path CStr) : Bool :=
  p.inits.all fun q =>
    !(env.reached q && match upper.entry q with
      | some (.dir _ true) => true
      | _ => false)

theorem openAbove_iff {upper : Layer CStr F A} {p : Path CStr} :
    env.openAbove upper p = true ↔
      ∀ q, q <+: p → env.reached q = true → ∀ a, upper.entry q ≠ some (.dir a true) := by
  unfold openAbove
  simp only [List.all_eq_true, List.mem_inits]
  refine forall₂_congr fun q _ => ?_
  by_cases hreach : env.reached q = true
  · cases upper.entry q with
    | none => simp [hreach]
    | some e =>
        cases e with
        | dir a o => cases o <;> simp [hreach]
        | file f => simp [hreach]
        | whiteout => simp [hreach]
  · simp [hreach]

/-- At an entry that is left out, the new layer lets the layers below show through exactly when
no opaque directory above was copied. -/
theorem exposed_copied {upper : Layer CStr F A} {p : Path CStr} {e : Entry F A}
    (he : upper.entry p = some e) (hleft : env.reached p = false) :
    (env.copied upper).exposed p = env.openAbove upper p := by
  rw [Bool.eq_iff_iff, Layer.exposed_iff, openAbove_iff]
  constructor
  · intro h q hq hreach a ha
    have hne : q ≠ [] := by
      rintro rfl
      obtain ⟨b, hb⟩ := upper.root
      rw [ha] at hb
      simp at hb
    have := h q hq (.dir a true) (by rw [copied_entry ha hne, if_pos hreach, copy_dir])
    simp [Entry.hides] at this
  · intro h q hq e' he'
    by_cases hnil : q = []
    · subst hnil
      obtain rfl : Entry.dir env.dirAttr false = e' := Option.some.inj he'
      rfl
    have hreach : env.reached q = true := by
      by_contra hnot
      rw [show (env.copied upper).entry q = env.copiedEntry upper q from rfl,
        copiedEntry_of_ne_nil env upper hnil, if_neg hnot] at he'
      simp at he'
    -- `q` is copied and `p` is not, so the entry at `q` is a directory above `p`
    obtain ⟨t, rfl⟩ := hq
    have ht : t ≠ [] := by
      rintro rfl
      rw [List.append_nil, hreach] at hleft
      simp at hleft
    obtain ⟨a, o, ha⟩ := Layer.dir_above t ht (by rw [he]; simp)
    rw [copied_entry ha hnil, if_pos hreach, copy_dir] at he'
    obtain rfl := Option.some.inj he'
    cases o with
    | false => rfl
    | true => exact absurd ha (h q (List.prefix_append q t) hreach a)

end CommitEnv

/-- The condition: the directory of the layer can be made and has the attributes of the upper
directory, no file that is copied is cut to other contents, and every entry that is left out
(a top-level name with a dot in front, or a copy that fails) is redundant: the image shows the
same there, under no opaque directory that was copied, and an opaque directory that is left out
hides nothing of the image. -/
structure CommitKeeps (env : CommitEnv F A) (upper : Layer CStr F A) (v : View CStr F A) :
    Prop where
  made : env.mkdirOk = true
  rootAttr : upper.entry [] = some (.dir env.dirAttr false)
  whole : ∀ p f f', p ≠ [] → env.reached p = true → upper.entry p = some (.file f) →
    env.outcome p = .cut f' → f' = f
  left : ∀ p e, upper.entry p = some e → env.reached p = false →
    e.shown = if env.openAbove upper p then v p else none
  unhidden : ∀ p a, upper.entry p = some (.dir a true) → env.reached p = false →
    ∀ q, upper.entry (p ++ q) = none → v (p ++ q) = none

/-- What was copied shows the same: the root has its attributes, and no file is cut. -/
theorem copied_shown_iff {env : CommitEnv F A} {upper : Layer CStr F A} :
    (∀ p e e', (env.copied upper).entry p = some e → upper.entry p = some e' →
        e.shown = e'.shown) ↔
      upper.entry [] = some (.dir env.dirAttr false) ∧
        ∀ p f f', p ≠ [] → env.reached p = true → upper.entry p = some (.file f) →
          env.outcome p = .cut f' → f' = f := by
  obtain ⟨a, ha⟩ := upper.root
  constructor
  · intro h
    refine ⟨?_, fun p f f' hp hreach hf hcut => ?_⟩
    · have := h [] _ _ rfl ha
      obtain rfl : env.dirAttr = a := by simpa [Entry.shown] using this
      exact ha
    · have hcopy : env.copy p (.file f) = .file f' := by simp [CommitEnv.copy, hcut]
      have := h p _ _ (by rw [CommitEnv.copied_entry hf hp, if_pos hreach, hcopy]) hf
      simpa [Entry.shown] using this
  · rintro ⟨hroot, hwhole⟩ p e e' he he'
    by_cases hp : p = []
    · subst hp
      obtain rfl : Entry.dir env.dirAttr false = e := Option.some.inj he
      rw [hroot] at he'
      rw [Option.some.inj he']
    · rw [CommitEnv.copied_entry he' hp] at he
      by_cases hreach : env.reached p = true
      · rw [if_pos hreach] at he
        obtain rfl := Option.some.inj he
        cases e' with
        | file f =>
            cases hcut : env.outcome p with
            | cut f' =>
                obtain rfl := hwhole p f f' hp hreach he' hcut
                simp [CommitEnv.copy, hcut]
            | copied => simp [CommitEnv.copy, hcut]
            | failed => simp [CommitEnv.copy, hcut]
        | dir a o => rw [CommitEnv.copy_dir]
        | whiteout => simp [CommitEnv.copy]
      · simp [hreach] at he

/-- **When a commit preserves the container's file system**: the image with the new layer shows
what the container sees exactly under `CommitKeeps`. -/
theorem commit_preserves_iff (env : CommitEnv F A) {st : Storage F A} {image : List CStr}
    {containerId layerId : CStr} {upper : Layer CStr F A} {lower : List (Layer CStr F A)}
    (hupper : st.upper containerId = some upper) (hlower : st.lowerDirs image = some lower)
    (hfresh : st.layers layerId = none) :
    ((storageCommitContainer env st containerId layerId).1 = .ok →
      (storageCommitContainer env st containerId layerId).2.imageView (image ++ [layerId]) =
        st.containerView image containerId) ↔
      CommitKeeps env upper (merged lower) := by
  have hok : (storageCommitContainer env st containerId layerId).1 = .ok := by
    unfold storageCommitContainer
    split <;> rfl
  have hview : st.containerView image containerId = some (upper.atop (merged lower)) := by
    simp [Storage.containerView, hupper, hlower, merged_cons]
  rw [hview]
  simp only [hok, forall_const]
  by_cases hmade : env.mkdirOk = true
  · rw [imageView_commit hmade hupper hlower hfresh, Option.some.injEq,
      atop_eq_iff (CommitEnv.copied_partialCopy upper) (merged_isTree lower), copied_shown_iff]
    constructor
    · rintro ⟨⟨hroot, hwhole⟩, hred⟩
      refine ⟨hmade, hroot, hwhole, fun p e he hleft => ?_, fun p a ha hleft q hq => ?_⟩
      · rw [← CommitEnv.exposed_copied he hleft]
        exact hred.shown p e he ((CommitEnv.copied_entry_eq_none he).mpr hleft)
      · exact hred.unhidden p a ha ((CommitEnv.copied_entry_eq_none ha).mpr hleft) q hq
    · intro h
      refine ⟨⟨h.rootAttr, h.whole⟩, ⟨fun p e he hc => ?_, fun p a ha hc q hq => ?_⟩⟩
      · have hleft := (CommitEnv.copied_entry_eq_none he).mp hc
        rw [CommitEnv.exposed_copied he hleft]
        exact h.left p e he hleft
      · exact h.unhidden p a ha ((CommitEnv.copied_entry_eq_none ha).mp hc) q hq
  · rw [imageView_not_made (by simpa using hmade) hfresh]
    constructor
    · intro h
      simp at h
    · intro h
      exact absurd h.made hmade

/-! ### One file at the top -/

/-- A layer with one file below the root. -/
def oneFile (name contents : CStr) : Layer CStr CStr Unit where
  entry
    | [] => some (.dir () false)
    | [n] => if n = name then some (.file contents) else none
    | _ => none
  root := ⟨(), rfl⟩
  parent := by
    intro p n h
    match p with
    | [] => exact ⟨(), false, rfl⟩
    | [_] => simp at h
    | _ :: _ :: _ => simp at h

theorem oneFile_entry_eq_none {name contents : CStr} {p : Path CStr} :
    (oneFile name contents).entry p = none ↔ p ≠ [] ∧ p ≠ [name] := by
  match p with
  | [] => simp [oneFile]
  | [n] => simp [oneFile]
  | _ :: _ :: _ => simp [oneFile]

theorem plainTree_oneFile (name contents : CStr) : (oneFile name contents).PlainTree := by
  intro p e he
  match p with
  | [] => exact Or.inr ⟨(), (Option.some.inj he).symm⟩
  | [n] =>
      by_cases hn : n = name
      · simp only [oneFile, if_pos hn] at he
        exact Or.inl ⟨contents, (Option.some.inj he).symm⟩
      · simp [oneFile, hn] at he
  | _ :: _ :: _ => simp [oneFile] at he

/-- An image of one empty layer, and a container that has written one file. -/
def storageWith (name contents : CStr) : Storage CStr Unit where
  layers id := if id = "base".toList then some (.empty ()) else none
  upper id := if id = "c".toList then some (oneFile name contents) else none

/-- Everything is made and copied. -/
def calmCommit : CommitEnv CStr Unit := ⟨true, (), fun _ => .copied⟩

/-- A file with a plain name is in the new layer. -/
theorem commit_preserves_plain_file :
    let st := storageWith "notes".toList "hello".toList
    let done := storageCommitContainer calmCommit st "c".toList "new".toList
    done.1 = .ok → done.2.imageView (["base".toList] ++ ["new".toList]) =
      st.containerView ["base".toList] "c".toList := by
  have hlower : (storageWith "notes".toList "hello".toList).lowerDirs ["base".toList] =
      some [Layer.empty ()] := rfl
  refine (commit_preserves_iff calmCommit rfl hlower rfl).mpr ?_
  have hreach : ∀ p e, (oneFile "notes".toList "hello".toList).entry p = some e →
      calmCommit.reached p = true := by
    intro p e he
    obtain rfl | rfl : p = [] ∨ p = ["notes".toList] := by
      by_contra hno
      rw [oneFile_entry_eq_none.mpr (not_or.mp hno)] at he
      exact absurd he (by simp)
    · rfl
    · rfl
  refine ⟨rfl, rfl, fun p f f' _ _ _ hcut => by simp [calmCommit] at hcut,
    fun p e he hleft => ?_, fun p a ha hleft => ?_⟩
  · rw [hreach p e he] at hleft
    simp at hleft
  · rw [hreach p _ ha] at hleft
    simp at hleft

/-- A file whose name starts with a dot is not, though the commit returns `CR_OK`. -/
theorem commit_loses_dot_file :
    let st := storageWith ".profile".toList "hello".toList
    let done := storageCommitContainer calmCommit st "c".toList "new".toList
    st.layers "new".toList = none ∧ done.1 = .ok ∧
      done.2.imageView (["base".toList] ++ ["new".toList]) ≠
        st.containerView ["base".toList] "c".toList := by
  refine ⟨rfl, rfl, fun h => ?_⟩
  have hat := congrArg (fun v : Option (View CStr CStr Unit) => v.bind (· [".profile".toList])) h
  exact absurd hat (by decide)

end Cruntime
