/-
What a `cgroup_destroy` that returns `CR_OK` has done.

The function throws away what became of the kill, sleeps, and removes the directory; it never
looks whether a process is left.  The kernel does: it does not remove a directory that a process
is in.  So when every process has stayed with its container, the directory that is removed is
the last place where one of them could be, and `CR_OK` means that there is none, however the
processes, other calls and other destroys came in between.
-/
import Cruntime.Cgroup.Members

namespace Cruntime

open Script (wpAmid)

variable {r : CgroupRoot} {self : Nat}

/-- Nothing is left of a container: neither its directory nor a process. -/
structure Gone (id : DirName) (h : CgroupHost r) : Prop where
  group : h.tree.group id = none
  members : ∀ p ∈ h.processes, p.owner ≠ some id

/-- Once a directory is removed with every process in its place, nothing is left. -/
theorem gone_of_rmdir {id : DirName} {h h' : CgroupHost r} (hsettled : Settled h)
    (hc : h.rmdir id = some h') : Gone id h' := by
  obtain ⟨hempty, htree, -, hproc⟩ := CgroupHost.rmdir_eq_some hc
  refine ⟨?_, ?_⟩
  · rw [htree]
    exact Cgroups.group_rmdir_self h.tree id
  · rw [hproc]
    intro p hp hown
    exact hempty p hp (hsettled p hp id hown)

/-- A container that is gone comes back only when its directory is made. -/
theorem gone_step {c : HostCmd} {h h' : CgroupHost r} {id : DirName}
    (hc : c.effect self h = some h') (hmk : c ≠ .files (.mkdirGroup id)) (hgone : Gone id h) :
    Gone id h' := by
  have htree : h'.tree.group id = none := by
    have hsame : h'.tree = h.tree → h'.tree.group id = none := by
      intro ht
      rw [ht]
      exact hgone.group
    cases c with
    | files c =>
        by_contra hne
        exact group_of_group_after (CgroupHost.onFiles_eq_some hc).1
          (fun h => hmk (h ▸ rfl)) hne hgone.group
    | procs id' pid =>
        obtain ⟨n, -, ha⟩ := Option.bind_eq_some_iff.mp hc
        exact hsame (CgroupHost.attach_eq_some ha).1
    | freeze id' on => exact hsame (CgroupHost.setFrozen_eq_some hc).1
    | kill id' => exact hsame (CgroupHost.kill_eq_some hc).1
    | usleep n =>
        obtain rfl := Option.some.inj hc
        exact hgone.group
    | rmdir id' =>
        rw [(CgroupHost.rmdir_eq_some hc).2.1]
        by_cases hii : id = id'
        · subst hii
          exact Cgroups.group_rmdir_self h.tree id
        · rw [Cgroups.group_rmdir_of_ne h.tree hii]
          exact hgone.group
    | fork parent child => exact hsame (CgroupHost.fork_eq_some hc).1
    | exit pid => exact hsame (CgroupHost.exit_eq_some hc).1
  refine ⟨htree, ?_⟩
  intro q hq hown
  rcases processes_cases hc with hp | ⟨id', pid, n, -, -, hthere, hp⟩ | ⟨id', -, hp⟩ |
    ⟨p, hmem, child, -, -, hp⟩ | ⟨pid, -, hp⟩
  · exact hgone.members q (hp ▸ hq) hown
  · rw [hp] at hq
    obtain ⟨p, hmem, rfl⟩ := List.mem_map.mp hq
    split_ifs at hown with hpid
    · cases ho : p.owner with
      | none =>
          -- it was taken in just now, and so into a directory that is there
          obtain rfl : id' = id := by simpa [Process.movedTo, ho] using hown
          exact hthere hgone.group
      | some own =>
          obtain rfl : own = id := by simpa [Process.movedTo, ho] using hown
          exact hgone.members p hmem ho
    · exact hgone.members p hmem hown
  · rw [hp] at hq
    obtain ⟨p, hmem, rfl⟩ := List.mem_map.mp hq
    split_ifs at hown <;> exact hgone.members p hmem hown
  · rw [hp] at hq
    rcases List.mem_append.mp hq with hq | hq
    · exact hgone.members q hq hown
    · obtain rfl := List.mem_singleton.mp hq
      exact hgone.members p hmem hown
  · rw [hp] at hq
    exact hgone.members q (List.mem_filter.mp hq).1 hown

/-- What others may do to a container that is being destroyed: they keep every process in its
place, and leave the container gone once it is. -/
def StaysGone (id : DirName) (h h' : CgroupHost r) : Prop :=
  Settled h → Settled h' ∧ (Gone id h → Gone id h')

theorem staysGone_refl (id : DirName) (h : CgroupHost r) : StaysGone id h h :=
  fun hsettled => ⟨hsettled, fun hgone => hgone⟩

theorem staysGone_trans (id : DirName) (h h' h'' : CgroupHost r) (hs : StaysGone id h h')
    (hs' : StaysGone id h' h'') : StaysGone id h h'' := by
  intro hsettled
  obtain ⟨hsettled', hgone'⟩ := hs hsettled
  obtain ⟨hsettled'', hgone''⟩ := hs' hsettled'
  exact ⟨hsettled'', fun hgone => hgone'' (hgone' hgone)⟩

/-- The function on its own, among calls that leave every process in its place. -/
theorem wpAmid_cgroupDestroy (id : DirName) {h : CgroupHost r} (hsettled : Settled h) :
    wpAmid (HostCmd.effect self) (StaysGone id) (cgroupDestroy id)
      (fun code h' => code = .ok → Gone id h') h := by
  have hrmdir : ∀ h : CgroupHost r, Settled h →
      wpAmid (HostCmd.effect self) (StaysGone id)
        (.exec (.rmdir id) fun ok => if ok then .ret CrCode.ok else .ret .esyscall)
        (fun code h' => code = .ok → Gone id h') h := by
    intro h hsettled t ht
    refine ⟨?_, ?_⟩
    · intro t' ht' u hu _
      have hcall : (HostCmd.rmdir id).effect self t = some t' := ht'
      have hgone := gone_of_rmdir (ht hsettled).1 ht'
      have hsettled' : Settled t' := settled_step hcall rfl (ht hsettled).1
      exact (hu hsettled').2 hgone
    · intro u _ hfalse
      simp at hfalse
  have hsleep : ∀ h : CgroupHost r, Settled h →
      wpAmid (HostCmd.effect self) (StaysGone id)
        (.exec (.usleep 100000) fun _ =>
          .exec (.rmdir id) fun ok => if ok then .ret CrCode.ok else .ret .esyscall)
        (fun code h' => code = .ok → Gone id h') h := by
    intro h hsettled t ht
    refine ⟨?_, hrmdir t (ht hsettled).1⟩
    intro t' ht'
    obtain rfl := Option.some.inj ht'
    exact hrmdir t (ht hsettled).1
  intro t ht
  refine ⟨?_, hsleep t (ht hsettled).1⟩
  intro t' ht'
  have hcall : (HostCmd.kill id).effect self t = some t' := ht'
  exact hsleep t' (settled_step hcall rfl (ht hsettled).1)

/-- The step of another thread is one that a container being destroyed allows for. -/
theorem staysGone_pick {ι : Type} [DecidableEq ι] {id : DirName}
    {p : Pool ι HostCmd CrCode (CgroupHost r)} {x : ι × Bool}
    (hmk : ∀ i, (p.threads i).Uses (· ≠ .files (.mkdirGroup id))) (hx : Orderly self p x) :
    StaysGone id p.state (Pool.pick (HostCmd.effect self) p x).state := by
  intro hsettled
  refine ⟨settled_pick hx hsettled, fun hgone => ?_⟩
  rcases pick_cases self p x with ⟨c, hhead, hc⟩ | hsame
  · exact gone_step hc (uses_head (hmk x.1) hhead) hgone
  · rwa [hsame]

/-- **A destroyed container has no process left.**  In every orderly schedule in which the
directory is not made again, once `cgroup_destroy` has returned `CR_OK` the directory is gone and
no process belongs to the container, whatever other calls and the processes did meanwhile. -/
theorem none_left_of_destroy {ι : Type} [DecidableEq ι] {id : DirName} {i : ι}
    {p : Pool ι HostCmd CrCode (CgroupHost r)} {sched : List (ι × Bool)}
    (hi : p.threads i = cgroupDestroy id)
    (hmk : ∀ j, (p.threads j).Uses (· ≠ .files (.mkdirGroup id)))
    (horderly : Runs.Along (Pool.pick (HostCmd.effect self)) (Orderly self) p sched)
    (hsettled : Settled p.state)
    (hok : (Runs.after (Pool.pick (HostCmd.effect self)) p sched).threads i = .ret .ok) :
    Gone id (Runs.after (Pool.pick (HostCmd.effect self)) p sched).state := by
  have hothers : Runs.Along (Pool.pick (HostCmd.effect self))
      (Pool.OthersWithin (HostCmd.effect self) (StaysGone id) i) p sched := by
    clear hok hi hsettled
    induction sched generalizing p with
    | nil => exact trivial
    | cons x rest ih =>
        exact ⟨fun _ => staysGone_pick hmk horderly.1,
          ih (Pool.step_uses _ hmk x.1 x.2) horderly.2⟩
  have hmine : wpAmid (HostCmd.effect self) (StaysGone id) (p.threads i)
      (fun code h' => code = .ok → Gone id h') p.state := by
    rw [hi]
    exact wpAmid_cgroupDestroy id hsettled
  exact Pool.returned_of_wpAmid (staysGone_refl id) (staysGone_trans id) hothers hmine hok rfl

/-- Process 7 exits while `cgroup_destroy` sleeps. -/
theorem none_left_after_exit :
    let p : Pool Bool HostCmd CrCode (CgroupHost fullRoot) :=
      ⟨smallHost, fun i => bif i then cgroupDestroy sampleDir else orEsyscall (.exit 7)⟩
    Gone sampleDir (Runs.after (Pool.pick (HostCmd.effect 1)) p
      [(true, false), (true, false), (false, false), (true, false)]).state := by
  refine none_left_of_destroy (i := true) rfl ?_ ?_ smallHost_settled rfl
  · intro i
    cases i with
    | true =>
        refine ⟨by simp, fun ok => ?_⟩
        cases ok <;> exact ⟨by simp, fun _ => ⟨by simp, fun ok => by cases ok <;> trivial⟩⟩
    | false => exact ⟨by simp, fun ok => by cases ok <;> trivial⟩
  · refine ⟨?_, ?_, ?_, ?_, trivial⟩ <;>
      · intro c hc
        obtain rfl := Option.some.inj hc
        rfl

end Cruntime
