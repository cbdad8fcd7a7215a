/-
The processes in the cgroup tree, and the calls that move, stop and kill them.

A live process is in the directory of one container or elsewhere on the host.  It also *belongs*
to a container: to the first one that it, or the process it descends from, was put into.  The
code keeps no record of that; it is what the directories are there to say.  A directory that has
a process in it exists, which is a field of the structure.

`cgroup.kill` signals every process of the directory, and each of them is gone some time later:
it is marked here, and its exit is a step of its own, as is every fork.  So a call and the
processes it is about are threads side by side, and what holds for every schedule holds whatever
the processes do while `cgroup_destroy` sleeps.

Directories below a container's are left out, and so are other programs that move processes.
-/
import Cruntime.Cgroup.Limits
import Cruntime.Lib.Embed
import Cruntime.Lib.Pool

namespace Cruntime

open Script (issue checkAll)

variable {r : CgroupRoot}

/-- `rmdir cruntime/<id>`, when there is no process in it; a directory that is not there stays
away. -/
def CruntimeDir.rmdir (d : CruntimeDir r) (id : DirName) : CruntimeDir r where
  enabled := d.enabled
  enabled_root := d.enabled_root
  groups := Function.update d.groups id none
  file_enabled := by
    intro id' g f hg hf
    by_cases hid : id' = id
    · subst hid
      simp at hg
    · rw [Function.update_of_ne hid] at hg
      exact d.file_enabled id' g f hg hf

/-- A live process: the container's directory it is in, if it is in one, the container it belongs
to, and whether `SIGKILL` is on its way. -/
structure Process where
  pid : Nat
  group : Option DirName
  owner : Option DirName
  dying : Bool
deriving DecidableEq

namespace Process

/-- The process in a container's directory.  It belongs there if it did not belong anywhere. -/
def movedTo (id : DirName) (p : Process) : Process :=
  { p with group := some id, owner := p.owner.or (some id) }

end Process

/-- The tree and the processes.  The freezer of a container is the state of its
`cgroup.freeze`. -/
structure CgroupHost (r : CgroupRoot) where
  tree : Cgroups r
  frozen : DirName → Bool
  processes : List Process
  pids_nodup : (processes.map Process.pid).Nodup
  group_there : ∀ p ∈ processes, ∀ id, p.group = some id → tree.group id ≠ none

/-! ### The tree under the processes -/

namespace Cgroups

/-- What a call does to the directory of a container: it stays, with the files it had. -/
theorem group_kept {c : CgroupCmd} {t t' : Cgroups r} (h : c.apply t = some t') {id : DirName}
    (hid : t.group id ≠ none) : t'.group id ≠ none := by
  cases t with
  | none => exact absurd rfl hid
  | some d =>
      obtain ⟨g, hg⟩ := Option.ne_none_iff_exists'.mp hid
      have hd : d.groups id = some g := hg
      cases c with
      | statControllers =>
          obtain rfl := Option.some.inj h
          exact hid
      | mkdirCruntime => simp [CgroupCmd.apply] at h
      | mkdirGroup id' =>
          obtain rfl := Option.some.inj h
          show (d.mkdir id').groups id ≠ none
          by_cases hii : id = id'
          · subst hii
            simp [CruntimeDir.mkdir]
          · simp [CruntimeDir.mkdir, Function.update_of_ne hii, hd]
      | enable cs =>
          obtain ⟨d', hd', rfl⟩ := Option.map_eq_some_iff.mp h
          unfold CruntimeDir.enable at hd'
          split at hd'
          · obtain rfl := Option.some.inj hd'
            simp [group, hd]
          · simp at hd'
      | write id' f v =>
          obtain ⟨d', hd', rfl⟩ := Option.map_eq_some_iff.mp h
          unfold CruntimeDir.write at hd'
          split at hd'
          · simp at hd'
          · split at hd'
            · simp at hd'
            · obtain rfl := Option.some.inj hd'
              by_cases hii : id = id'
              · subst hii
                simp [group]
              · simp [group, Function.update_of_ne hii, hd]

/-- The tree without the directory of a container. -/
def rmdir (t : Cgroups r) (id : DirName) : Cgroups r := t.map fun d => d.rmdir id

@[simp] theorem group_rmdir_self (t : Cgroups r) (id : DirName) : (t.rmdir id).group id = none := by
  cases t <;> simp [rmdir, group, CruntimeDir.rmdir]

theorem group_rmdir_of_ne (t : Cgroups r) {id id' : DirName} (h : id' ≠ id) :
    (t.rmdir id).group id' = t.group id' := by
  cases t <;> simp [rmdir, group, CruntimeDir.rmdir, Function.update_of_ne h]

theorem content_rmdir_of_ne (t : Cgroups r) {id id' : DirName} (h : id' ≠ id) (f : ControlFile) :
    (t.rmdir id).content id' f = t.content id' f := by
  unfold content
  rw [group_rmdir_of_ne t h]

end Cgroups

/-! ### The calls -/

/-- The calls of `cgroup.c`, and what processes do on their own. -/
inductive HostCmd where
  | files (c : CgroupCmd)
  | procs (id : DirName) (pid : Int32)
  | freeze (id : DirName) (on : Bool)
  | kill (id : DirName)
  | usleep (microseconds : Nat)
  | rmdir (id : DirName)
  | fork (parent child : Nat)
  | exit (pid : Nat)
deriving DecidableEq

/-- The process that a number written to `cgroup.procs` stands for: nobody when it is negative,
the writer when it is 0. -/
def procsTarget (self : Nat) (pid : Int32) : Option Nat :=
  if pid.toInt < 0 then none else if pid.toInt = 0 then some self else some pid.toInt.toNat

namespace CgroupHost

/-- The host with another tree, which keeps the directories. -/
def withTree (h : CgroupHost r) (t : Cgroups r)
    (ht : ∀ id, h.tree.group id ≠ none → t.group id ≠ none) : CgroupHost r where
  tree := t
  frozen := h.frozen
  processes := h.processes
  pids_nodup := h.pids_nodup
  group_there := fun p hp id hid => ht id (h.group_there p hp id hid)

/-- A call on the files. -/
def onFiles (h : CgroupHost r) (c : CgroupCmd) : Option (CgroupHost r) :=
  match ht : c.apply h.tree with
  | some t => some (h.withTree t fun _ => Cgroups.group_kept ht)
  | none => none

/-- Every process changed in some way that keeps its pid, and its directory one that exists. -/
def mapProcesses (h : CgroupHost r) (f : Process → Process) (hpid : ∀ p, (f p).pid = p.pid)
    (hgroup : ∀ p id, (f p).group = some id → p.group = some id ∨ h.tree.group id ≠ none) :
    CgroupHost r where
  tree := h.tree
  frozen := h.frozen
  processes := h.processes.map f
  pids_nodup := by
    rw [List.map_map, show Process.pid ∘ f = Process.pid from funext hpid]
    exact h.pids_nodup
  group_there := by
    intro p hp id hid
    obtain ⟨q, hq, rfl⟩ := List.mem_map.mp hp
    rcases hgroup q id hid with hq' | hthere
    · exact h.group_there q hq id hq'
    · exact hthere

/-- A process is moved into the directory of a container; both have to be there. -/
def attach (h : CgroupHost r) (id : DirName) (pid : Nat) : Option (CgroupHost r) :=
  if hid : h.tree.group id = none then none
  else if pid ∈ h.processes.map Process.pid then
    some (h.mapProcesses (fun p => if p.pid = pid then p.movedTo id else p)
      (by intro p; split_ifs <;> rfl)
      (by
        intro p id' hp
        split_ifs at hp with hpid
        · obtain rfl : id = id' := Option.some.inj hp
          exact Or.inr hid
        · exact Or.inl hp))
  else none

/-- `cgroup.freeze` is written. -/
def setFrozen (h : CgroupHost r) (id : DirName) (on : Bool) : Option (CgroupHost r) :=
  if h.tree.group id = none then none
  else some { h with frozen := Function.update h.frozen id on }

/-- `cgroup.kill` is written: every process of the directory is signalled. -/
def kill (h : CgroupHost r) (id : DirName) : Option (CgroupHost r) :=
  if h.tree.group id = none then none
  else
    some (h.mapProcesses (fun p => if p.group = some id then { p with dying := true } else p)
      (by intro p; split_ifs <;> rfl)
      (by intro p id' hp; split_ifs at hp <;> exact Or.inl hp))

/-- The directory is removed, unless a process is in it.  One that is not there counts as
removed, as the code has it. -/
def rmdir (h : CgroupHost r) (id : DirName) : Option (CgroupHost r) :=
  if hin : ∃ p ∈ h.processes, p.group = some id then none
  else
    some
      { tree := h.tree.rmdir id
        frozen := Function.update h.frozen id false
        processes := h.processes
        pids_nodup := h.pids_nodup
        group_there := by
          intro p hp id' hid'
          have hne : id' ≠ id := by
            rintro rfl
            exact hin ⟨p, hp, hid'⟩
          rw [Cgroups.group_rmdir_of_ne h.tree hne]
          exact h.group_there p hp id' hid' }

/-- A process that is running: it is neither being killed nor in a frozen directory. -/
def running (h : CgroupHost r) (p : Process) : Bool := !p.dying && !p.group.any h.frozen

/-- A process forks: the child is where the parent is, and belongs where it belongs. -/
def fork (h : CgroupHost r) (parent child : Nat) : Option (CgroupHost r) :=
  match hp : h.processes.find? fun p => p.pid = parent && h.running p with
  | none => none
  | some p =>
      if hchild : child ∈ h.processes.map Process.pid then none
      else
        some
          { tree := h.tree
            frozen := h.frozen
            processes := h.processes ++ [{ p with pid := child }]
            pids_nodup := by
              rw [List.map_append, List.nodup_append]
              refine ⟨h.pids_nodup, List.nodup_singleton _, ?_⟩
              intro a ha b hb
              obtain rfl : b = child := by simpa using hb
              rintro rfl
              exact hchild ha
            group_there := by
              intro q hq id hid
              rcases List.mem_append.mp hq with hq | hq
              · exact h.group_there q hq id hid
              · obtain rfl := List.mem_singleton.mp hq
                exact h.group_there p (List.mem_of_find?_eq_some hp) id hid }

/-- A process is gone. -/
def exit (h : CgroupHost r) (pid : Nat) : Option (CgroupHost r) :=
  if pid ∈ h.processes.map Process.pid then
    some
      { tree := h.tree
        frozen := h.frozen
        processes := h.processes.filter fun p => p.pid ≠ pid
        pids_nodup := h.pids_nodup.sublist (List.filter_sublist.map _)
        group_there := fun p hp => h.group_there p (List.mem_filter.mp hp).1 }
  else none

end CgroupHost

/-- What a call does, made by the process `self`. -/
def HostCmd.effect (self : Nat) : HostCmd → CgroupHost r → Option (CgroupHost r)
  | .files c, h => h.onFiles c
  | .procs id pid, h => (procsTarget self pid).bind (h.attach id)
  | .freeze id on, h => h.setFrozen id on
  | .kill id, h => h.kill id
  | .usleep _, h => some h
  | .rmdir id, h => h.rmdir id
  | .fork parent child, h => h.fork parent child
  | .exit pid, h => h.exit pid

abbrev HostScript := Script HostCmd

/-! ### The functions -/

/-- A call whose failure is returned. -/
def orEsyscall (c : HostCmd) : HostScript CrCode := checkAll [c] .esyscall (.ret .ok)

/-- `cgroup_add_process`. -/
def cgroupAddProcess (path : DirName) (pid : Int32) : HostScript CrCode :=
  orEsyscall (.procs path pid)

/-- `cgroup_freeze`. -/
def cgroupFreeze (path : DirName) : HostScript CrCode := orEsyscall (.freeze path true)

/-- `cgroup_unfreeze`. -/
def cgroupUnfreeze (path : DirName) : HostScript CrCode := orEsyscall (.freeze path false)

/-- `cgroup_kill_all`. -/
def cgroupKillAll (path : DirName) : HostScript CrCode := orEsyscall (.kill path)

/-- `cgroup_destroy`. -/
def cgroupDestroy (path : DirName) : HostScript CrCode := do
  -- Kill all processes first
  let _ ← cgroupKillAll path
  -- Wait a bit for processes to terminate
  let _ ← issue (.usleep 100000)
  -- Remove directory
  unless ← issue (.rmdir path) do
    return .esyscall
  return .ok

/-- The functions on the files, among all the others. -/
def onHost (s : CgroupScript CrCode) : HostScript CrCode := s.lift .files

/-! ### What a call does -/

namespace CgroupHost

variable {h h' : CgroupHost r}

theorem onFiles_eq_some {c : CgroupCmd} (hc : h.onFiles c = some h') :
    c.apply h.tree = some h'.tree ∧ h'.frozen = h.frozen ∧ h'.processes = h.processes := by
  unfold onFiles at hc
  split at hc
  · rename_i t ht
    obtain rfl := Option.some.inj hc
    exact ⟨ht, rfl, rfl⟩
  · simp at hc

theorem attach_eq_some {id : DirName} {pid : Nat} (hc : h.attach id pid = some h') :
    h'.tree = h.tree ∧ h'.frozen = h.frozen ∧ h.tree.group id ≠ none ∧
      h'.processes = h.processes.map fun p => if p.pid = pid then p.movedTo id else p := by
  unfold attach at hc
  split_ifs at hc with hid
  obtain rfl := Option.some.inj hc
  exact ⟨rfl, rfl, hid, rfl⟩

theorem setFrozen_eq_some {id : DirName} {on : Bool} (hc : h.setFrozen id on = some h') :
    h'.tree = h.tree ∧ h'.frozen = Function.update h.frozen id on ∧
      h'.processes = h.processes := by
  unfold setFrozen at hc
  split_ifs at hc
  obtain rfl := Option.some.inj hc
  exact ⟨rfl, rfl, rfl⟩

theorem kill_eq_some {id : DirName} (hc : h.kill id = some h') :
    h'.tree = h.tree ∧ h'.frozen = h.frozen ∧
      h'.processes =
        h.processes.map fun p => if p.group = some id then { p with dying := true } else p := by
  unfold kill at hc
  split_ifs at hc
  obtain rfl := Option.some.inj hc
  exact ⟨rfl, rfl, rfl⟩

theorem rmdir_eq_some {id : DirName} (hc : h.rmdir id = some h') :
    (∀ p ∈ h.processes, p.group ≠ some id) ∧ h'.tree = h.tree.rmdir id ∧
      h'.frozen = Function.update h.frozen id false ∧ h'.processes = h.processes := by
  unfold rmdir at hc
  split_ifs at hc with hin
  obtain rfl := Option.some.inj hc
  exact ⟨fun p hp hid => hin ⟨p, hp, hid⟩, rfl, rfl, rfl⟩

theorem fork_eq_some {parent child : Nat} (hc : h.fork parent child = some h') :
    h'.tree = h.tree ∧ h'.frozen = h.frozen ∧
      ∃ p ∈ h.processes, p.pid = parent ∧ h.running p = true ∧
        h'.processes = h.processes ++ [{ p with pid := child }] := by
  unfold fork at hc
  split at hc
  · simp at hc
  · rename_i p hp
    split_ifs at hc
    obtain rfl := Option.some.inj hc
    have hfound := List.find?_some hp
    rw [Bool.and_eq_true, decide_eq_true_eq] at hfound
    exact ⟨rfl, rfl, p, List.mem_of_find?_eq_some hp, hfound.1, hfound.2, rfl⟩

theorem exit_eq_some {pid : Nat} (hc : h.exit pid = some h') :
    h'.tree = h.tree ∧ h'.frozen = h.frozen ∧
      h'.processes = h.processes.filter fun p => p.pid ≠ pid := by
  unfold exit at hc
  split_ifs at hc
  obtain rfl := Option.some.inj hc
  exact ⟨rfl, rfl, rfl⟩

end CgroupHost

/-! ### Sessions -/

/-- A call of a function by its container's id, or what a process does on its own. -/
inductive CgroupCall where
  | create (id : DirName)
  | applyLimits (id : DirName) (limits : ResourceLimits)
  | addProcess (id : DirName) (pid : Int32)
  | freeze (id : DirName)
  | unfreeze (id : DirName)
  | killAll (id : DirName)
  | destroy (id : DirName)
  | fork (parent child : Nat)
  | exit (pid : Nat)

/-- What the call runs. -/
def CgroupCall.script : CgroupCall → HostScript CrCode
  | .create id => onHost (cgroupCreate id)
  | .applyLimits id limits => onHost (cgroupApplyLimits id limits)
  | .addProcess id pid => cgroupAddProcess id pid
  | .freeze id => cgroupFreeze id
  | .unfreeze id => cgroupUnfreeze id
  | .killAll id => cgroupKillAll id
  | .destroy id => cgroupDestroy id
  | .fork parent child => orEsyscall (.fork parent child)
  | .exit pid => orEsyscall (.exit pid)

/-- Calls made one after the other, whatever they return. -/
def cgroupSession : List CgroupCall → HostScript CrCode
  | [] => return .ok
  | c :: rest => do
    let _ ← c.script
    cgroupSession rest

/-- A host with a session in each thread. -/
def cgroupPool {ι : Type} (calls : ι → List CgroupCall) (h : CgroupHost r) :
    Pool ι HostCmd CrCode (CgroupHost r) :=
  ⟨h, fun i => cgroupSession (calls i)⟩

section Uses

variable {P : HostCmd → Prop} {id : DirName}

/-- `cgroup_create` makes no directory but the parent and the container's. -/
theorem uses_create (hstat : P (.files .statControllers)) (hparent : P (.files .mkdirCruntime))
    (hmkdir : P (.files (.mkdirGroup id))) (henable : P (.files (.enable wantedControllers))) :
    (onHost (cgroupCreate id)).Uses P := by
  refine ⟨hstat, fun ok => ?_⟩
  cases ok with
  | false => exact trivial
  | true =>
      refine ⟨hparent, fun _ => ⟨hmkdir, fun ok => ?_⟩⟩
      cases ok with
      | false => exact trivial
      | true => exact ⟨henable, fun _ => trivial⟩

/-- `cgroup_apply_limits` writes to the files of its container and does nothing else. -/
theorem uses_applyLimits (l : ResourceLimits) (hwrite : ∀ f v, P (.files (.write id f v))) :
    (onHost (cgroupApplyLimits id l)).Uses P := by
  unfold onHost
  rw [Script.uses_lift, cgroupApplyLimits_eq]
  refine Script.uses_tryAll ?_ trivial
  intro c hc
  obtain ⟨f, -, hf⟩ := List.mem_flatMap.mp hc
  unfold limitWrite at hf
  obtain ⟨v, -, rfl⟩ : ∃ v, l.value f = some v ∧ CgroupCmd.write id f v = c := by
    simpa using hf
  exact hwrite f v

theorem uses_orEsyscall {c : HostCmd} (hc : P c) : (orEsyscall c).Uses P :=
  Script.uses_checkAll (fun d hd => by rwa [List.mem_singleton.mp hd]) trivial

/-- `cgroup_destroy` kills, sleeps and removes the directory. -/
theorem uses_destroy (hkill : P (.kill id)) (hsleep : P (.usleep 100000))
    (hrmdir : P (.rmdir id)) : (cgroupDestroy id).Uses P := by
  refine Script.uses_bind (uses_orEsyscall hkill) fun _ => ⟨hsleep, fun _ => ⟨hrmdir, fun ok => ?_⟩⟩
  cases ok <;> exact trivial

/-- A session uses what its calls use. -/
theorem uses_session {calls : List CgroupCall} (h : ∀ c ∈ calls, c.script.Uses P) :
    (cgroupSession calls).Uses P := by
  induction calls with
  | nil => exact trivial
  | cons c rest ih =>
      exact Script.uses_bind (h c List.mem_cons_self)
        fun _ => ih fun d hd => h d (List.mem_cons_of_mem c hd)

end Uses

end Cruntime
