/-
What becomes of the processes of a container, whatever calls are made side by side.

A limit holds for a process only while the process is in the directory that has the limit.  So
what the directories are for is that every process of a container stays in the container's own,
forks included.  Only one call moves a process, and it does not look where it takes the process
from: a schedule is *orderly* when no process is put into a second container.

In an orderly schedule every process stays with its container (`Settled`), and then

  * the limits of a container hold for everything it ever starts, until they are written again or
    the directory is made again (`limits_hold_for_members`), and
  * calls for other containers leave its processes, its freezer and its limits alone
    (`members_spared`),

in every interleaving, with any calls failing, and whatever the processes do in between.
-/
import Cruntime.Cgroup.Processes
import Cruntime.Lib.Rely

namespace Cruntime

open Script (wpAmid)

variable {r : CgroupRoot} {self : Nat}

/-- Every process is in the directory of the container it belongs to. -/
def Settled (h : CgroupHost r) : Prop :=
  ∀ p ∈ h.processes, ∀ id, p.owner = some id → p.group = some id

/-- The call puts a process into a container that belongs to another. -/
def HostCmd.steals (self : Nat) (h : CgroupHost r) : HostCmd → Bool
  | .procs id pid => h.processes.any fun p =>
      procsTarget self pid = some p.pid && p.owner.any (· ≠ id)
  | _ => false

/-- A step of a schedule that steals no process. -/
def Orderly (self : Nat) {ι : Type} (p : Pool ι HostCmd CrCode (CgroupHost r)) (x : ι × Bool) :
    Prop :=
  ∀ c, (p.threads x.1).head? = some c → c.steals self p.state = false

/-! ### One call and the processes -/

/-- Everything a call can do to the processes. -/
theorem processes_cases {c : HostCmd} {h h' : CgroupHost r} (hc : c.effect self h = some h') :
    h'.processes = h.processes ∨
    (∃ id pid n, c = .procs id pid ∧ procsTarget self pid = some n ∧ h.tree.group id ≠ none ∧
      h'.processes = h.processes.map fun p => if p.pid = n then p.movedTo id else p) ∨
    (∃ id, c = .kill id ∧ h'.processes =
      h.processes.map fun p => if p.group = some id then { p with dying := true } else p) ∨
    (∃ p ∈ h.processes, ∃ child, c = .fork p.pid child ∧ h.running p = true ∧
      h'.processes = h.processes ++ [{ p with pid := child }]) ∨
    ∃ pid, c = .exit pid ∧ h'.processes = h.processes.filter fun p => p.pid ≠ pid := by
  cases c with
  | files c => exact Or.inl (CgroupHost.onFiles_eq_some hc).2.2
  | procs id pid =>
      obtain ⟨n, hn, ha⟩ := Option.bind_eq_some_iff.mp hc
      obtain ⟨-, -, hid, hp⟩ := CgroupHost.attach_eq_some ha
      exact Or.inr (Or.inl ⟨id, pid, n, rfl, hn, hid, hp⟩)
  | freeze id on => exact Or.inl (CgroupHost.setFrozen_eq_some hc).2.2
  | kill id => exact Or.inr (Or.inr (Or.inl ⟨id, rfl, (CgroupHost.kill_eq_some hc).2.2⟩))
  | usleep n =>
      obtain rfl := Option.some.inj hc
      exact Or.inl rfl
  | rmdir id => exact Or.inl (CgroupHost.rmdir_eq_some hc).2.2.2
  | fork parent child =>
      obtain ⟨-, -, p, hp, rfl, hrun, hproc⟩ := CgroupHost.fork_eq_some hc
      exact Or.inr (Or.inr (Or.inr (Or.inl ⟨p, hp, child, rfl, hrun, hproc⟩)))
  | exit pid =>
      exact Or.inr (Or.inr (Or.inr (Or.inr ⟨pid, rfl, (CgroupHost.exit_eq_some hc).2.2⟩)))

/-- The process that a call takes into a container did not belong to another. -/
theorem owner_of_not_steals {h : CgroupHost r} {id own : DirName} {pid : Int32} {p : Process}
    (hsteals : (HostCmd.procs id pid).steals self h = false) (hp : p ∈ h.processes)
    (htarget : procsTarget self pid = some p.pid) (hown : p.owner = some own) : own = id := by
  by_contra hne
  have hany : (HostCmd.procs id pid).steals self h = true := by
    refine List.any_eq_true.mpr ⟨p, hp, ?_⟩
    simp [htarget, hown, hne]
  rw [hany] at hsteals
  simp at hsteals

/-- **A call that steals no process keeps every process with its container.** -/
theorem settled_step {c : HostCmd} {h h' : CgroupHost r} (hc : c.effect self h = some h')
    (hsteals : c.steals self h = false) (hsettled : Settled h) : Settled h' := by
  intro q hq own hown
  rcases processes_cases hc with hp | ⟨id, pid, n, rfl, hn, -, hp⟩ | ⟨id, -, hp⟩ |
    ⟨p, hmem, child, -, -, hp⟩ | ⟨pid, -, hp⟩
  · exact hsettled q (hp ▸ hq) own hown
  · rw [hp] at hq
    obtain ⟨p, hmem, rfl⟩ := List.mem_map.mp hq
    by_cases hpid : p.pid = n
    · rw [if_pos hpid] at hown ⊢
      cases ho : p.owner with
      | none =>
          obtain rfl : id = own := by simpa [Process.movedTo, ho] using hown
          rfl
      | some o =>
          obtain rfl : o = own := by simpa [Process.movedTo, ho] using hown
          rw [owner_of_not_steals hsteals hmem (hpid ▸ hn) ho]
          rfl
    · rw [if_neg hpid] at hown ⊢
      exact hsettled p hmem own hown
  · rw [hp] at hq
    obtain ⟨p, hmem, rfl⟩ := List.mem_map.mp hq
    split_ifs at hown ⊢ with hgroup
    · exact hsettled p hmem own hown
    · exact hsettled p hmem own hown
  · rw [hp] at hq
    rcases List.mem_append.mp hq with hq | hq
    · exact hsettled q hq own hown
    · obtain rfl := List.mem_singleton.mp hq
      exact hsettled p hmem own hown
  · rw [hp] at hq
    exact hsettled q (List.mem_filter.mp hq).1 own hown

/-! ### Schedules -/

section Schedule

variable {ι : Type} [DecidableEq ι] {p : Pool ι HostCmd CrCode (CgroupHost r)} {x : ι × Bool}

/-- Everything a step of a schedule does to the host: the effect of the thread's next call, or
nothing. -/
theorem pick_cases (self : Nat) (p : Pool ι HostCmd CrCode (CgroupHost r)) (x : ι × Bool) :
    (∃ c, (p.threads x.1).head? = some c ∧
      c.effect self p.state = some (Pool.pick (HostCmd.effect self) p x).state) ∨
      (Pool.pick (HostCmd.effect self) p x).state = p.state := by
  obtain ⟨i, fault⟩ := x
  rw [Pool.pick_mk]
  cases hp : p.threads i with
  | ret a => exact Or.inr (by rw [Pool.step_ret _ hp])
  | exec c k =>
      rcases Pool.step_exec_cases (HostCmd.effect self) hp fault with ⟨-, s', hs', hstep⟩ | hstep
      · exact Or.inl ⟨c, rfl, by rw [hstep]; exact hs'⟩
      · exact Or.inr (by rw [hstep])

theorem settled_pick (hx : Orderly self p x) (hsettled : Settled p.state) :
    Settled (Pool.pick (HostCmd.effect self) p x).state := by
  rcases pick_cases self p x with ⟨c, hhead, hc⟩ | hsame
  · exact settled_step hc (hx c hhead) hsettled
  · rwa [hsame]

end Schedule

/-! ### The limits of a container -/

/-- The call neither makes the directory of a container nor writes to its files. -/
def HostCmd.Leaves (id : DirName) : HostCmd → Prop
  | .files (.mkdirGroup id') => id' ≠ id
  | .files (.write id' _ _) => id' ≠ id
  | _ => True

/-- The call of a function neither makes the directory of a container nor applies limits to it. -/
def CgroupCall.Leaves (id : DirName) : CgroupCall → Prop
  | .create id' => id' ≠ id
  | .applyLimits id' _ => id' ≠ id
  | _ => True

/-- The functions write where they are told to. -/
theorem uses_leaves {id : DirName} {c : CgroupCall} (h : c.Leaves id) :
    c.script.Uses (HostCmd.Leaves id) := by
  cases c with
  | create id' => exact uses_create trivial trivial h trivial
  | applyLimits id' limits => exact uses_applyLimits limits fun _ _ => h
  | addProcess id' pid => exact uses_orEsyscall trivial
  | freeze id' => exact uses_orEsyscall trivial
  | unfreeze id' => exact uses_orEsyscall trivial
  | killAll id' => exact uses_orEsyscall trivial
  | destroy id' => exact uses_destroy trivial trivial trivial
  | fork parent child => exact uses_orEsyscall trivial
  | exit pid => exact uses_orEsyscall trivial

/-- A file keeps what it holds, and one that is new holds the kernel's default. -/
def Cgroups.Kept (id : DirName) (t t' : Cgroups r) : Prop :=
  ∀ f, (∀ v, t.content id f = some v → t'.content id f = some v) ∧
    ∀ v, t'.content id f = some v → t.content id f = some v ∨ v = f.default

theorem kept_refl (id : DirName) (t : Cgroups r) : t.Kept id t :=
  fun _ => ⟨fun _ h => h, fun _ h => Or.inl h⟩

theorem kept_trans {id : DirName} {t t' t'' : Cgroups r} (h : t.Kept id t') (h' : t'.Kept id t'') :
    t.Kept id t'' := by
  refine fun f => ⟨fun v hv => (h' f).1 v ((h f).1 v hv), ?_⟩
  intro v hv
  rcases (h' f).2 v hv with hbefore | hdefault
  · exact (h f).2 v hbefore
  · exact Or.inr hdefault

theorem kept_of_content_eq {id : DirName} {t t' : Cgroups r}
    (h : ∀ f, t'.content id f = t.content id f) : t.Kept id t' := by
  intro f
  rw [h f]
  exact kept_refl id t f

/-- Enabling controllers brings new files and keeps the old ones. -/
theorem kept_enable {d d' : CruntimeDir r} {cs : Finset Controller} (h : d.enable cs = some d')
    (id : DirName) : Cgroups.Kept id (some d) (some d') := by
  intro f
  rw [Cgroups.content_enable h]
  show (∀ v, (d.groups id).bind (fun g => g f) = some v → _) ∧
    ∀ v, _ → (d.groups id).bind (fun g => g f) = some v ∨ _
  cases hg : d.groups id with
  | none => simp
  | some g =>
      by_cases hmem : f.controller ∈ d.enabled
      · simp only [Option.bind_some, CruntimeDir.grown, if_pos hmem]
        exact ⟨fun v hv => hv, fun v hv => Or.inl hv⟩
      · have hnone : g f = none := by
          by_contra hne
          exact hmem (d.file_enabled id g f hg hne)
        simp only [Option.bind_some, CruntimeDir.grown, if_neg hmem, hnone]
        refine ⟨fun v hv => by simp at hv, fun v hv => Or.inr ?_⟩
        split_ifs at hv
        exact (Option.some.inj hv).symm

/-- Only its own `mkdir` makes the directory of a container. -/
theorem group_of_group_after {c : CgroupCmd} {t t' : Cgroups r} (hc : c.apply t = some t')
    {id : DirName} (hmk : c ≠ .mkdirGroup id) (hid : t'.group id ≠ none) : t.group id ≠ none := by
  cases c with
  | statControllers =>
      obtain rfl := Option.some.inj hc
      exact hid
  | mkdirCruntime =>
      cases t with
      | none =>
          obtain rfl := Option.some.inj hc
          exact hid
      | some d => simp [CgroupCmd.apply] at hc
  | mkdirGroup id' =>
      have hne : id ≠ id' := by
        rintro rfl
        exact hmk rfl
      obtain ⟨d, rfl, hd⟩ := Option.map_eq_some_iff.mp hc
      subst hd
      simpa [Cgroups.group, CruntimeDir.mkdir, Function.update_of_ne hne] using hid
  | enable cs =>
      obtain ⟨d, rfl, hd⟩ := Option.bind_eq_some_iff.mp hc
      obtain ⟨d', hd', rfl⟩ := Option.map_eq_some_iff.mp hd
      unfold CruntimeDir.enable at hd'
      split at hd'
      · obtain rfl := Option.some.inj hd'
        simpa [Cgroups.group] using hid
      · simp at hd'
  | write id' f v =>
      obtain ⟨d, rfl, hd⟩ := Option.bind_eq_some_iff.mp hc
      obtain ⟨d', hd', rfl⟩ := Option.map_eq_some_iff.mp hd
      unfold CruntimeDir.write at hd'
      split at hd'
      · simp at hd'
      · rename_i g hg
        split at hd'
        · simp at hd'
        · obtain rfl := Option.some.inj hd'
          by_cases hii : id = id'
          · subst hii
            simp [Cgroups.group, hg]
          · simpa [Cgroups.group, Function.update_of_ne hii] using hid

/-- A call on the files that leaves a container alone keeps what its files hold. -/
theorem kept_of_leaves {c : CgroupCmd} {t t' : Cgroups r} (hc : c.apply t = some t')
    {id : DirName} (hleaves : (HostCmd.files c).Leaves id) : t.Kept id t' := by
  cases c with
  | statControllers =>
      obtain rfl := Option.some.inj hc
      exact kept_refl id t
  | mkdirCruntime =>
      cases t with
      | none =>
          obtain rfl := Option.some.inj hc
          exact kept_of_content_eq fun f => rfl
      | some d => simp [CgroupCmd.apply] at hc
  | mkdirGroup id' =>
      have hne : id ≠ id' := fun h => hleaves h.symm
      obtain ⟨d, rfl, hd⟩ := Option.map_eq_some_iff.mp hc
      subst hd
      refine kept_of_content_eq fun f => ?_
      simp [Cgroups.content, Cgroups.group, CruntimeDir.mkdir, Function.update_of_ne hne]
  | enable cs =>
      obtain ⟨d, rfl, hd⟩ := Option.bind_eq_some_iff.mp hc
      obtain ⟨d', hd', rfl⟩ := Option.map_eq_some_iff.mp hd
      exact kept_enable hd' id
  | write id' f v =>
      have hne : id ≠ id' := fun h => hleaves h.symm
      obtain ⟨d, rfl, hd⟩ := Option.bind_eq_some_iff.mp hc
      obtain ⟨d', hd', rfl⟩ := Option.map_eq_some_iff.mp hd
      refine kept_of_content_eq fun f => ?_
      unfold CruntimeDir.write at hd'
      split at hd'
      · simp at hd'
      · split at hd'
        · simp at hd'
        · obtain rfl := Option.some.inj hd'
          simp [Cgroups.content, Cgroups.group, Function.update_of_ne hne]

/-- Limits in force stay in force in files that are kept. -/
theorem inForce_kept {l : ResourceLimits} {id : DirName} {t t' : Cgroups r} (h : t.Kept id t')
    (hforce : InForce l t id) : InForce l t' id := by
  intro f hf
  have hold := hforce f hf
  cases hv : l.value f with
  | some v =>
      rw [hv] at hold
      exact (h f).1 v hold
  | none =>
      rw [hv] at hold
      intro old hnow
      rcases (h f).2 old hnow with hbefore | hdefault
      · exact hold old hbefore
      · exact hdefault

/-- Every process with its container, and the limits of this one in force while its directory is
there. -/
structure Limited (l : ResourceLimits) (id : DirName) (h : CgroupHost r) : Prop where
  settled : Settled h
  inForce : h.tree.group id ≠ none → InForce l h.tree id

theorem limited_step {c : HostCmd} {h h' : CgroupHost r} {l : ResourceLimits} {id : DirName}
    (hc : c.effect self h = some h') (hsteals : c.steals self h = false) (hleaves : c.Leaves id)
    (hl : Limited l id h) : Limited l id h' := by
  refine ⟨settled_step hc hsteals hl.settled, ?_⟩
  have hsame : h'.tree = h.tree → h'.tree.group id ≠ none → InForce l h'.tree id := by
    intro ht
    rw [ht]
    exact hl.inForce
  cases c with
  | files c =>
      have happly := (CgroupHost.onFiles_eq_some hc).1
      have hmk : c ≠ .mkdirGroup id := by
        rintro rfl
        exact hleaves rfl
      intro hid
      exact inForce_kept (kept_of_leaves happly hleaves)
        (hl.inForce (group_of_group_after happly hmk hid))
  | procs id' pid =>
      obtain ⟨n, -, ha⟩ := Option.bind_eq_some_iff.mp hc
      exact hsame (CgroupHost.attach_eq_some ha).1
  | freeze id' on => exact hsame (CgroupHost.setFrozen_eq_some hc).1
  | kill id' => exact hsame (CgroupHost.kill_eq_some hc).1
  | usleep n =>
      obtain rfl := Option.some.inj hc
      exact hsame rfl
  | rmdir id' =>
      obtain ⟨-, htree, -, -⟩ := CgroupHost.rmdir_eq_some hc
      rw [htree]
      intro hid
      have hne : id ≠ id' := by
        rintro rfl
        exact hid (Cgroups.group_rmdir_self h.tree id)
      rw [Cgroups.group_rmdir_of_ne h.tree hne] at hid
      exact inForce_kept
        (kept_of_content_eq fun f => Cgroups.content_rmdir_of_ne h.tree hne f) (hl.inForce hid)
  | fork parent child => exact hsame (CgroupHost.fork_eq_some hc).1
  | exit pid => exact hsame (CgroupHost.exit_eq_some hc).1

section Runs

variable {ι : Type} [DecidableEq ι]

/-- The call a thread is about to make is one that its program uses. -/
theorem uses_head {P : HostCmd → Prop} {s : HostScript CrCode} (h : s.Uses P) {c : HostCmd}
    (hhead : s.head? = some c) : P c := by
  cases s with
  | ret a => simp at hhead
  | exec d k =>
      obtain rfl := Option.some.inj hhead
      exact h.1

/-- **The rule for orderly schedules**: what every call of a kind keeps, as long as it steals no
process, every orderly schedule of such calls keeps. -/
theorem orderly_keeps {P : HostCmd → Prop} {I : CgroupHost r → Prop}
    (hstep : ∀ c h h', P c → c.effect self h = some h' → c.steals self h = false → I h → I h')
    {p : Pool ι HostCmd CrCode (CgroupHost r)} {sched : List (ι × Bool)}
    (huses : ∀ i, (p.threads i).Uses P)
    (horderly : Runs.Along (Pool.pick (HostCmd.effect self)) (Orderly self) p sched)
    (hI : I p.state) : I (Runs.after (Pool.pick (HostCmd.effect self)) p sched).state := by
  have hend := Runs.keeps (Pool.pick (HostCmd.effect self))
    (I := fun p => (∀ i, (p.threads i).Uses P) ∧ I p.state)
    (by
      intro p x hx ⟨huses, hI⟩
      refine ⟨Pool.step_uses _ huses x.1 x.2, ?_⟩
      rcases pick_cases self p x with ⟨c, hhead, hc⟩ | hsame
      · exact hstep c _ _ (uses_head (huses x.1) hhead) hc (hx c hhead) hI
      · rwa [hsame])
    sched p horderly ⟨huses, hI⟩
  exact hend.2

/-- **The limits of a container hold for everything it starts.**  Any number of programs call the
functions, and processes fork and exit: in every schedule in which nobody steals a process, makes
the directory again or applies other limits to it, every process that belongs to the container is
in its directory, and the limits are in force there. -/
theorem limits_hold_for_members {id : DirName} {l : ResourceLimits} {calls : ι → List CgroupCall}
    {h : CgroupHost r} {sched : List (ι × Bool)}
    (hleaves : ∀ i, ∀ c ∈ calls i, c.Leaves id)
    (horderly : Runs.Along (Pool.pick (HostCmd.effect self)) (Orderly self) (cgroupPool calls h)
      sched)
    (hsettled : Settled h) (hforce : InForce l h.tree id) :
    let final := (Runs.after (Pool.pick (HostCmd.effect self)) (cgroupPool calls h) sched).state
    ∀ q ∈ final.processes, q.owner = some id → q.group = some id ∧ InForce l final.tree id := by
  have huses : ∀ i, ((cgroupPool calls h).threads i).Uses (HostCmd.Leaves id) :=
    fun i => uses_session fun c hc => uses_leaves (hleaves i c hc)
  have hend := orderly_keeps (I := Limited l id)
    (fun c h h' hleaves hc hsteals hl => limited_step hc hsteals hleaves hl)
    huses horderly ⟨hsettled, fun _ => hforce⟩
  intro final q hq hown
  have hgroup := hend.settled q hq id hown
  exact ⟨hgroup, hend.inForce (CgroupHost.group_there _ q hq id hgroup)⟩

end Runs

/-- A root that passes on all the controllers the program wants, and a kernel with their files. -/
def fullRoot : CgroupRoot := ⟨wantedControllers, fun _ => true⟩

/-- A container with 64 MiB. -/
def smallGroup : Group := fun f => some (if f = .memoryMax then "67108864".toList else f.default)

def smallTree : Cgroups fullRoot :=
  some
    { enabled := wantedControllers
      enabled_root := Finset.Subset.refl _
      groups := Function.update (fun _ => none) sampleDir (some smallGroup)
      file_enabled := fun _ _ f _ _ => controller_mem_wanted f }

/-- The host with process 7 in the container. -/
def smallHost : CgroupHost fullRoot where
  tree := smallTree
  frozen := fun _ => false
  processes := [⟨7, some sampleDir, some sampleDir, false⟩]
  pids_nodup := by decide
  group_there := by
    intro p hp id hid
    obtain rfl := List.mem_singleton.mp hp
    obtain rfl : sampleDir = id := Option.some.inj hid
    simp [Cgroups.group, smallTree]

theorem smallHost_settled : Settled smallHost := by
  intro p hp id hid
  obtain rfl := List.mem_singleton.mp hp
  exact hid

theorem smallHost_inForce : InForce memoryOnly smallHost.tree sampleDir := by
  intro f hf
  have hcontent : smallHost.tree.content sampleDir f = smallGroup f := by
    simp [smallHost, smallTree, Cgroups.content, Cgroups.group]
  rw [hcontent]
  cases f with
  | memoryMax =>
      show smallGroup .memoryMax = some (formatLong 67108864)
      decide
  | memorySwapMax => exact absurd rfl hf
  | cpuWeight => exact fun old h => (Option.some.inj h).symm
  | cpuMax => exact fun old h => (Option.some.inj h).symm
  | pidsMax => exact fun old h => (Option.some.inj h).symm
  | ioWeight => exact fun old h => (Option.some.inj h).symm

def otherDir : DirName := ⟨"fedcba9876543210".toList, by decide, by decide, by decide⟩

/-- Another container is made and given limits, and this one is frozen and thawed. -/
def twoPrograms (i : Bool) : List CgroupCall :=
  bif i then [.create otherDir, .applyLimits otherDir memoryOnly, .freeze sampleDir,
    .unfreeze sampleDir]
  else [.fork 7 8, .exit 7]

/-- Process 7 forks and exits meanwhile: the child meets the limit too. -/
theorem limits_hold_for_child :
    let final := (Runs.after (Pool.pick (HostCmd.effect 1)) (cgroupPool twoPrograms smallHost)
      [(true, false), (true, false), (true, false), (false, false), (true, false), (true, false),
        (true, false), (true, false), (false, false)]).state
    final.processes.map Process.pid = [8] ∧
      ∀ q ∈ final.processes, q.owner = some sampleDir → q.group = some sampleDir ∧
        InForce memoryOnly final.tree sampleDir := by
  have hne : otherDir ≠ sampleDir := by decide
  have hleaves : ∀ i, ∀ c ∈ twoPrograms i, c.Leaves sampleDir := by
    intro i c hc
    cases i with
    | true =>
        simp only [twoPrograms, cond_true, List.mem_cons, List.not_mem_nil, or_false] at hc
        rcases hc with rfl | rfl | rfl | rfl
        · exact hne
        · exact hne
        · exact trivial
        · exact trivial
    | false =>
        simp only [twoPrograms, cond_false, List.mem_cons, List.not_mem_nil, or_false] at hc
        rcases hc with rfl | rfl <;> exact trivial
  refine ⟨by decide +kernel,
    limits_hold_for_members hleaves ?_ smallHost_settled smallHost_inForce⟩
  refine ⟨?_, ?_, ?_, ?_, ?_, ?_, ?_, ?_, ?_, trivial⟩ <;>
    · intro c hc
      obtain rfl := Option.some.inj hc
      rfl

/-! ### The processes of a container while others are at work -/

/-- The call is for another container, and no end of this process. -/
def HostCmd.Spares (id : DirName) (pid : Nat) : HostCmd → Prop
  | .files c => (HostCmd.files c).Leaves id
  | .procs id' _ => id' ≠ id
  | .freeze id' _ => id' ≠ id
  | .kill id' => id' ≠ id
  | .usleep _ => True
  | .rmdir id' => id' ≠ id
  | .fork _ _ => True
  | .exit pid' => pid' ≠ pid

/-- The call of a function for another container, and no end of this process. -/
def CgroupCall.Spares (id : DirName) (pid : Nat) : CgroupCall → Prop
  | .create id' => id' ≠ id
  | .applyLimits id' _ => id' ≠ id
  | .addProcess id' _ => id' ≠ id
  | .freeze id' => id' ≠ id
  | .unfreeze id' => id' ≠ id
  | .killAll id' => id' ≠ id
  | .destroy id' => id' ≠ id
  | .fork _ _ => True
  | .exit pid' => pid' ≠ pid

/-- Each function issues calls for its own container only. -/
theorem uses_spares {id : DirName} {pid : Nat} {c : CgroupCall} (h : c.Spares id pid) :
    c.script.Uses (HostCmd.Spares id pid) := by
  cases c with
  | create id' => exact uses_create trivial trivial h trivial
  | applyLimits id' limits => exact uses_applyLimits limits fun _ _ => h
  | addProcess id' pid' => exact uses_orEsyscall h
  | freeze id' => exact uses_orEsyscall h
  | unfreeze id' => exact uses_orEsyscall h
  | killAll id' => exact uses_orEsyscall h
  | destroy id' => exact uses_destroy h trivial h
  | fork parent child => exact uses_orEsyscall trivial
  | exit pid' => exact uses_orEsyscall h

/-- A process is as it was, with its container frozen or not as before, and the files of its
container are kept. -/
structure Spared (id : DirName) (m : Process) (h h' : CgroupHost r) : Prop where
  settled : Settled h'
  member : m ∈ h'.processes
  frozen : h'.frozen id = h.frozen id
  files : h.tree.Kept id h'.tree

/-- Calls for other containers leave the process list alone where this process stands. -/
theorem member_step {c : HostCmd} {h h' : CgroupHost r} {id : DirName} {m : Process}
    (hc : c.effect self h = some h') (hsteals : c.steals self h = false)
    (hspares : c.Spares id m.pid) (hown : m.owner = some id) (hsettled : Settled h)
    (hm : m ∈ h.processes) : m ∈ h'.processes := by
  rcases processes_cases hc with hp | ⟨id', pid, n, rfl, hn, -, hp⟩ | ⟨id', rfl, hp⟩ |
    ⟨p, -, child, -, -, hp⟩ | ⟨pid, rfl, hp⟩
  · rwa [hp]
  · have hpid : m.pid ≠ n := by
      rintro rfl
      exact hspares (owner_of_not_steals hsteals hm hn hown).symm
    rw [hp]
    exact List.mem_map.mpr ⟨m, hm, if_neg hpid⟩
  · have hgroup : m.group ≠ some id' := by
      rw [hsettled m hm id hown]
      exact fun h => hspares (Option.some.inj h).symm
    rw [hp]
    exact List.mem_map.mpr ⟨m, hm, if_neg hgroup⟩
  · rw [hp]
    exact List.mem_append_left _ hm
  · have hpid : m.pid ≠ pid := fun h => hspares h.symm
    rw [hp]
    exact List.mem_filter.mpr ⟨hm, by simpa using hpid⟩

theorem spared_step {c : HostCmd} {h₀ h h' : CgroupHost r} {id : DirName} {m : Process}
    (hown : m.owner = some id) (hc : c.effect self h = some h')
    (hsteals : c.steals self h = false) (hspares : c.Spares id m.pid) (hs : Spared id m h₀ h) :
    Spared id m h₀ h' := by
  have hsettled := settled_step hc hsteals hs.settled
  have hmember := member_step hc hsteals hspares hown hs.settled hs.member
  have hsame : h'.tree = h.tree → h'.frozen id = h.frozen id → Spared id m h₀ h' := by
    intro ht hf
    exact ⟨hsettled, hmember, hf.trans hs.frozen, ht ▸ hs.files⟩
  cases c with
  | files c =>
      obtain ⟨happly, hfrozen, -⟩ := CgroupHost.onFiles_eq_some hc
      refine ⟨hsettled, hmember, ?_, kept_trans hs.files (kept_of_leaves happly hspares)⟩
      rw [hfrozen]
      exact hs.frozen
  | procs id' pid =>
      obtain ⟨n, -, ha⟩ := Option.bind_eq_some_iff.mp hc
      obtain ⟨ht, hf, -⟩ := CgroupHost.attach_eq_some ha
      exact hsame ht (congrFun hf id)
  | freeze id' on =>
      obtain ⟨ht, hf, -⟩ := CgroupHost.setFrozen_eq_some hc
      refine hsame ht ?_
      rw [hf, Function.update_of_ne (Ne.symm hspares)]
  | kill id' =>
      obtain ⟨ht, hf, -⟩ := CgroupHost.kill_eq_some hc
      exact hsame ht (congrFun hf id)
  | usleep n =>
      obtain rfl := Option.some.inj hc
      exact hs
  | rmdir id' =>
      obtain ⟨-, ht, hf, -⟩ := CgroupHost.rmdir_eq_some hc
      have hne : id ≠ id' := fun h => hspares h.symm
      refine ⟨hsettled, hmember, ?_, ?_⟩
      · rw [hf, Function.update_of_ne hne]
        exact hs.frozen
      · rw [ht]
        exact kept_trans hs.files
          (kept_of_content_eq fun f => Cgroups.content_rmdir_of_ne h.tree hne f)
  | fork parent child =>
      obtain ⟨ht, hf, -⟩ := CgroupHost.fork_eq_some hc
      exact hsame ht (congrFun hf id)
  | exit pid =>
      obtain ⟨ht, hf, -⟩ := CgroupHost.exit_eq_some hc
      exact hsame ht (congrFun hf id)

/-- **Other containers are left alone.**  In every orderly schedule of calls of the functions for
other containers, a process of this one that does not exit stays where it is, and alive; its
container is frozen exactly if it was, and its files hold what they held. -/
theorem members_spared {ι : Type} [DecidableEq ι] {id : DirName} {m : Process}
    {calls : ι → List CgroupCall} {h : CgroupHost r} {sched : List (ι × Bool)}
    (hspares : ∀ i, ∀ c ∈ calls i, c.Spares id m.pid)
    (horderly : Runs.Along (Pool.pick (HostCmd.effect self)) (Orderly self) (cgroupPool calls h)
      sched)
    (hsettled : Settled h) (hm : m ∈ h.processes) (hown : m.owner = some id) :
    Spared id m h
      (Runs.after (Pool.pick (HostCmd.effect self)) (cgroupPool calls h) sched).state := by
  have huses : ∀ i, ((cgroupPool calls h).threads i).Uses (HostCmd.Spares id m.pid) :=
    fun i => uses_session fun c hc => uses_spares (hspares i c hc)
  exact orderly_keeps (I := Spared id m h)
    (fun _ _ _ hspares hc hsteals hs => spared_step hown hc hsteals hspares hs)
    huses horderly ⟨hsettled, hm, rfl, kept_refl id h.tree⟩

/-- Another container is made, frozen, thawed and destroyed. -/
def otherProgram (i : Bool) : List CgroupCall :=
  bif i then [.create otherDir, .addProcess otherDir 9, .freeze otherDir]
  else [.fork 7 8, .unfreeze otherDir, .destroy otherDir]

/-- Process 7 does not notice. -/
theorem member_spared_by_destroy :
    Spared sampleDir ⟨7, some sampleDir, some sampleDir, false⟩ smallHost
      (Runs.after (Pool.pick (HostCmd.effect 1)) (cgroupPool otherProgram smallHost)
        [(true, false), (true, false), (true, false), (false, false), (true, false), (true, false),
          (true, false), (false, false), (false, false), (false, false), (false, false)]).state := by
  have hne : otherDir ≠ sampleDir := by decide
  have hspares : ∀ i, ∀ c ∈ otherProgram i, c.Spares sampleDir 7 := by
    intro i c hc
    cases i with
    | true =>
        simp only [otherProgram, cond_true, List.mem_cons, List.not_mem_nil, or_false] at hc
        rcases hc with rfl | rfl | rfl <;> exact hne
    | false =>
        simp only [otherProgram, cond_false, List.mem_cons, List.not_mem_nil, or_false] at hc
        rcases hc with rfl | rfl | rfl
        · exact trivial
        · exact hne
        · exact hne
  refine members_spared hspares ?_ smallHost_settled List.mem_cons_self rfl
  refine ⟨?_, ?_, ?_, ?_, ?_, ?_, ?_, ?_, ?_, ?_, ?_, trivial⟩ <;>
    · intro c hc
      obtain rfl := Option.some.inj hc
      rfl

end Cruntime
