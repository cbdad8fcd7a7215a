/-
The layers show what a store of copies holds.

One operation of the functions, or of a container's processes, keeps the two stores in step
(`Shows.step`), and so does every run (`store_refines_copies`).  In the store of copies an image
that is put aside never changes, whatever the container does that it was taken of.  So it is in
the layers: what a container saw when it was committed is what the new image shows from then on
(`snapshot_for_good`).
-/
import Cruntime.Storage.Store

namespace Cruntime

open Overlay

variable {F A : Type} {s s' : Store F A} {c c' : Copies F A}

/-! ### What layers show -/

/-- A copy that keeps what it copies shows the same. -/
theorem CommitKeeps.atop_eq {env : CommitEnv F A} {upper : Layer CStr F A} {v : View CStr F A}
    (h : CommitKeeps env upper v) (hv : IsTree v) : (env.copied upper).atop v = upper.atop v := by
  rw [atop_eq_iff (CommitEnv.copied_partialCopy upper) hv, copied_shown_iff]
  refine ⟨⟨h.rootAttr, h.whole⟩, ?_, ?_⟩
  · intro p e he hc
    have hleft := (CommitEnv.copied_entry_eq_none he).mp hc
    rw [CommitEnv.exposed_copied he hleft]
    exact h.left p e he hleft
  · intro p a ha hc q hq
    exact h.unhidden p a ha ((CommitEnv.copied_entry_eq_none ha).mp hc) q hq

/-- An empty upper directory shows what is below it, but for its own attributes. -/
theorem empty_atop (attr : A) (v : View CStr F A) :
    (Layer.empty attr : Layer CStr F A).atop v = withRoot attr v := by
  funext p
  by_cases hp : p = []
  · subst hp
    rfl
  · have hnone : (Layer.empty attr : Layer CStr F A).entry p = none := Layer.empty_entry hp
    have hexposed : (Layer.empty attr : Layer CStr F A).exposed p = true := by
      refine Layer.exposed_iff.mpr ?_
      intro q _ e he
      by_cases hq : q = []
      · subst hq
        obtain rfl := Option.some.inj he
        rfl
      · rw [Layer.empty_entry hq] at he
        cases he
    rw [Layer.atop_of_none hnone, if_pos hexposed, withRoot, if_neg hp]

/-- The committed layer on top of the container's image. -/
theorem imageView_snapshot {env : CommitEnv F A} {st : Storage F A} {image : List CStr}
    {containerId layerId : CStr} {upper : Layer CStr F A} {base : View CStr F A}
    (hupper : st.upper containerId = some upper) (hbase : st.imageView image = some base)
    (hfresh : st.layers layerId = none) (hkeeps : CommitKeeps env upper base) :
    ((LayerOp.commit env containerId).run st layerId).2.imageView (image ++ [layerId]) =
      some (upper.atop base) := by
  obtain ⟨lower, hlower, rfl⟩ := Option.map_eq_some_iff.mp hbase
  show (storageCommitContainerOnto env st containerId layerId).2.imageView _ = _
  rw [storageCommitContainerOnto_fresh env hfresh,
    imageView_commit hkeeps.made hupper hlower hfresh, hkeeps.atop_eq (merged_isTree lower)]

/-! ### One operation -/

/-- Where the layers and the other containers are as before, one container is left to look at. -/
theorem Shows.of_one (h : Shows s c) (hdir : s'.imageDir = s.imageDir)
    (hlayers : s'.dirs.layers = s.dirs.layers)
    (himages : ∀ image v, c'.images image = some v → s.dirs.imageView image = some v)
    (containerId : CStr)
    (hother : ∀ id, id ≠ containerId → c'.containers id = c.containers id ∧
      s'.dirs.upper id = s.dirs.upper id ∧ s'.mounts id = s.mounts id)
    (hself : ∀ own, c'.containers containerId = some own →
      s.dirs.imageView own.image = some own.base ∧
        (∃ upper, s'.dirs.upper containerId = some upper ∧ own.files = upper.atop own.base) ∧
        ∀ overlay ∈ s'.mounts containerId,
          overlay = some (meant s.imageDir own.image containerId)) : Shows s' c' := by
  have hview : s'.dirs.imageView = s.dirs.imageView := by
    unfold Storage.imageView Storage.lowerDirs
    rw [hlayers]
  refine ⟨by rwa [hview], ?_⟩
  intro id own hown
  rw [hview, hdir]
  by_cases hid : id = containerId
  · subst hid
    exact hself own hown
  · obtain ⟨hcontainer, hupper, hmounts⟩ := hother id hid
    rw [hupper, hmounts]
    exact h.containers id own (hcontainer ▸ hown)

/-- Filling a layer of a fresh id, by a commit or otherwise. -/
theorem Shows.layer (h : Shows s c) {op : LayerOp F A} {layerId : CStr}
    (husual : Usual s c (.layer op layerId)) :
    Shows (s.step (.layer op layerId)) (Copies.step s c (.layer op layerId)) := by
  obtain ⟨hfresh, hkeeps⟩ := husual
  have hsame : Shows (s.step (.layer op layerId)) c := by
    refine ⟨fun image v hv => imageView_layerOp hfresh (h.images image v hv), ?_⟩
    intro id own hown
    obtain ⟨hbase, hupper, hmounts⟩ := h.containers id own hown
    refine ⟨imageView_layerOp hfresh hbase, ?_, hmounts⟩
    show ∃ upper, (op.run s.dirs layerId).2.upper id = some upper ∧ _
    rwa [(layerOp_frame op s.dirs layerId).1]
  cases op with
  | create | diff | importTar => exact hsame
  | commit env containerId =>
      show Shows _ (c.snapshot containerId layerId)
      unfold Copies.snapshot
      cases hown : c.containers containerId with
      | none => exact hsame
      | some own =>
          obtain ⟨hbase, ⟨upper, hupper, hfiles⟩, -⟩ := h.containers containerId own hown
          refine ⟨?_, hsame.containers⟩
          intro image v hv
          by_cases himage : image = own.image ++ [layerId]
          · subst himage
            rw [← hv, Copies.setImage_images_self, hfiles]
            exact imageView_snapshot hupper hbase hfresh
              (hkeeps env containerId own upper rfl hown hupper)
          · rw [Copies.setImage_images_of_ne himage] at hv
            exact hsame.images image v hv

/-- An upper directory that was not there and is, is empty. -/
theorem madeDir_none {mkdirOk : Bool} {attr : A} {old : Option (Layer CStr F A)}
    (hold : old = none) (h : (madeDir mkdirOk attr old).isSome = true) :
    madeDir mkdirOk attr old = some (.empty attr) := by
  subst hold
  unfold madeDir at h ⊢
  by_cases hmk : mkdirOk = true
  · rw [if_pos hmk]
  · rw [if_neg hmk] at h
    cases h

/-- What a mount leaves in the store, whatever becomes of it. -/
theorem mountOverlay_cases (env : MountEnv A) {s : Store F A} {image : List CStr}
    {containerId : CStr} (hnamed : Named s.imageDir image containerId) :
    let made := madeDir env.mkdirOk env.dirAttr (s.dirs.upper containerId)
    s.mountOverlay env image containerId = (.esyscall, s.setUpper containerId made) ∨
      (made.isSome ∧ s.mountOverlay env image containerId =
        (.ok, (s.setUpper containerId made).setMounts containerId
          (some (meant s.imageDir image containerId) :: s.mounts containerId))) := by
  intro made
  have hmount : s.mountOverlay env image containerId =
      if env.accepted && ((s.setUpper containerId made).dirs.containerView image
          containerId).isSome then
        (.ok, (s.setUpper containerId made).setMounts containerId
          (some (meant s.imageDir image containerId) :: s.mounts containerId))
      else (.esyscall, s.setUpper containerId made) := by
    rw [← overlayView_meant]
    unfold Store.mountOverlay
    dsimp only
    have htold : told (s.setUpper containerId made).imageDir image containerId =
        some (meant s.imageDir image containerId) := hnamed.told_eq
    rw [htold]
    rfl
  rw [hmount]
  split_ifs with haccepted
  · refine Or.inr ⟨?_, rfl⟩
    have hsome := ((Bool.and_eq_true _ _).mp haccepted).2
    unfold Storage.containerView at hsome
    rw [Store.setUpper_upper_self] at hsome
    cases hmade : made with
    | some upper => rfl
    | none =>
        rw [hmade] at hsome
        cases hlower : (s.setUpper containerId none).dirs.lowerDirs image <;>
          simp [hlower] at hsome
  · exact Or.inl rfl

/-- A mount gives a container without a copy one, and leaves it to one that has its own. -/
theorem Shows.mount (h : Shows s c) {env : MountEnv A} {image : List CStr} {containerId : CStr}
    (husual : Usual s c (.mount env image containerId)) :
    Shows (s.step (.mount env image containerId))
      (Copies.step s c (.mount env image containerId)) := by
  obtain ⟨hnamed, hsame, hnew⟩ := husual
  let overlayOf := fun image : List CStr => some (meant s.imageDir image containerId)
  let made := madeDir env.mkdirOk env.dirAttr (s.dirs.upper containerId)
  let after := fun overlays => (s.setUpper containerId made).setMounts containerId overlays
  have hupper : ∀ overlays, (after overlays).dirs.upper containerId = made :=
    fun _ => Store.setUpper_upper_self s containerId made
  have hmounts : ∀ overlays, (after overlays).mounts containerId = overlays :=
    fun overlays => Store.setMounts_mounts_self _ containerId overlays
  have hother : ∀ overlays id, id ≠ containerId →
      (after overlays).dirs.upper id = s.dirs.upper id ∧
        (after overlays).mounts id = s.mounts id :=
    fun _ _ hid => ⟨Store.setUpper_upper_of_ne hid, Store.setMounts_mounts_of_ne hid⟩
  -- a container that has its copy keeps its upper directory
  have hkept : ∀ overlays (c' : Copies F A), c'.containers = c.containers →
      (∀ i v, c'.images i = some v → s.dirs.imageView i = some v) →
      (∀ own, c.containers containerId = some own → ∀ o ∈ overlays, o = overlayOf own.image) →
      Shows (after overlays) c' := by
    intro overlays c' hcontainers himages hown'
    refine h.of_one rfl rfl himages containerId ?_ ?_
    · intro id hid
      exact ⟨congrFun hcontainers id, hother overlays id hid⟩
    · intro own hown
      rw [hcontainers] at hown
      obtain ⟨hbase, ⟨upper, hsome, hfiles⟩, -⟩ := h.containers containerId own hown
      refine ⟨hbase, ⟨upper, ?_, hfiles⟩, ?_⟩
      · rw [hupper]
        show madeDir env.mkdirOk env.dirAttr (s.dirs.upper containerId) = some upper
        rw [hsome]
        rfl
      · rw [hmounts]
        exact hown' own hown
  show Shows (s.mountOverlay env image containerId).2
    (Copies.step s c (.mount env image containerId))
  unfold Copies.step
  dsimp only
  rcases mountOverlay_cases env hnamed with hfailed | ⟨hmade, hok⟩
  · rw [hfailed]
    have hstate : after (s.mounts containerId) = s.setUpper containerId made := by
      show Store.mk _ _ (Function.update s.mounts containerId (s.mounts containerId)) = _
      rw [Function.update_eq_self]
      rfl
    rw [← hstate]
    refine hkept _ c rfl h.images ?_
    intro own hown
    exact (h.containers containerId own hown).2.2
  · rw [hok]
    have hpushed : ∀ own, c.containers containerId = some own →
        ∀ o ∈ overlayOf image :: s.mounts containerId, o = overlayOf own.image := by
      intro own hown o ho
      rcases List.mem_cons.mp ho with rfl | ho
      · exact congrArg overlayOf (hsame own hown)
      · exact (h.containers containerId own hown).2.2 o ho
    cases hbase : s.dirs.imageView image with
    | none => exact hkept _ c rfl h.images hpushed
    | some base =>
        have himages : ∀ i v, (c.setImage image base).images i = some v →
            s.dirs.imageView i = some v := by
          intro i v hv
          by_cases hi : i = image
          · subst hi
            rw [hbase, ← hv, Copies.setImage_images_self]
          · rw [Copies.setImage_images_of_ne hi] at hv
            exact h.images i v hv
        show Shows _ (c.start containerId image base env.dirAttr)
        unfold Copies.start
        cases hown : c.containers containerId with
        | some own => exact hkept _ (c.setImage image base) rfl himages hpushed
        | none =>
            obtain ⟨hnone, hempty⟩ := hnew hown
            refine h.of_one rfl rfl himages containerId ?_ ?_
            · intro id hid
              exact ⟨Copies.setContainer_containers_of_ne hid, hother _ id hid⟩
            · intro own hown'
              rw [Copies.setContainer_containers_self] at hown'
              obtain rfl := Option.some.inj hown'
              refine ⟨hbase, ⟨Layer.empty env.dirAttr, ?_, (empty_atop _ _).symm⟩, ?_⟩
              · have hmade' : made = some (Layer.empty env.dirAttr) := madeDir_none hnone hmade
                rw [← hmade']
                exact hupper _
              · have hlist : (after (overlayOf image :: s.mounts containerId)).mounts
                    containerId = [overlayOf image] := by rw [hmounts, hempty]
                intro o ho
                exact List.mem_singleton.mp (hlist ▸ ho)

/-- What the processes of a container change, they change in its copy. -/
theorem Shows.write (h : Shows s c) (containerId : CStr) (upper : Layer CStr F A) :
    Shows (s.step (.write containerId upper)) (Copies.step s c (.write containerId upper)) := by
  show Shows (if (s.mounted containerId).isSome then s.setUpper containerId (some upper) else s)
    (if (s.mounted containerId).isSome then c.change containerId upper.atop else c)
  split_ifs
  swap
  · exact h
  · refine h.of_one rfl rfl h.images containerId ?_ ?_
    · intro id hid
      exact ⟨Copies.setContainer_containers_of_ne hid, Store.setUpper_upper_of_ne hid, rfl⟩
    · intro own hown
      unfold Copies.change at hown
      rw [Copies.setContainer_containers_self] at hown
      obtain ⟨old, hold, rfl⟩ := Option.map_eq_some_iff.mp hown
      obtain ⟨hbase, -, hmounts⟩ := h.containers containerId old hold
      exact ⟨hbase, ⟨upper, Store.setUpper_upper_self _ _ _, rfl⟩, hmounts⟩

/-- Unmounting leaves a container its copy. -/
theorem Shows.unmount (h : Shows s c) (refused : Bool) (containerId : CStr) :
    Shows (s.unmountOverlay refused containerId).2 c := by
  unfold Store.unmountOverlay
  split_ifs
  · exact h
  · refine h.of_one rfl rfl h.images containerId ?_ ?_
    · intro id hid
      exact ⟨rfl, rfl, Store.setMounts_mounts_of_ne hid⟩
    · intro own hown
      obtain ⟨hbase, hupper, hmounts⟩ := h.containers containerId own hown
      refine ⟨hbase, hupper, ?_⟩
      show ∀ image ∈ (s.setMounts containerId (s.mounts containerId).tail).mounts containerId, _
      rw [Store.setMounts_mounts_self]
      intro overlay hoverlay
      exact hmounts overlay (List.mem_of_mem_tail hoverlay)

/-- Removing its workspace takes it away. -/
theorem Shows.remove (h : Shows s c) (env : RemoveEnv F A) (containerId : CStr) :
    Shows (s.step (.remove env containerId)) (Copies.step s c (.remove env containerId)) := by
  refine (h.unmount env.refused containerId).of_one rfl rfl ?_ containerId ?_ ?_
  · exact (h.unmount env.refused containerId).images
  · intro id hid
    exact ⟨Copies.setContainer_containers_of_ne hid, Store.setUpper_upper_of_ne hid, rfl⟩
  · intro own hown
    have hnone : (Copies.step s c (.remove env containerId)).containers containerId = none :=
      Copies.setContainer_containers_self c containerId none
    rw [hnone] at hown
    cases hown

/-- **Every operation keeps the two stores in step.** -/
theorem Shows.step (h : Shows s c) {op : StoreOp F A} (husual : Usual s c op) :
    Shows (s.step op) (Copies.step s c op) := by
  cases op with
  | layer op layerId => exact h.layer husual
  | mount env image containerId => exact h.mount husual
  | write containerId upper => exact h.write containerId upper
  | unmount refused containerId => exact h.unmount refused containerId
  | remove env containerId => exact h.remove env containerId

/-- What a container with its own copy sees through the layers. -/
theorem Shows.containerView (h : Shows s c) {containerId : CStr} {own : OwnCopy F A}
    (hown : c.containers containerId = some own) :
    s.dirs.containerView own.image containerId = some own.files := by
  obtain ⟨hbase, ⟨upper, hupper, hfiles⟩, -⟩ := h.containers containerId own hown
  obtain ⟨lower, hlower, hmerged⟩ := Option.map_eq_some_iff.mp hbase
  unfold Storage.containerView
  rw [hlower, hupper, hfiles, ← hmerged]
  rfl

end Cruntime
