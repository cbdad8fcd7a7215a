/-
What `cgroup_create` and `cgroup_apply_limits` leave in force.

Both return `CR_OK` whatever becomes of the write that enables the controllers and
of the writes of the limits.  Each file is written at most once and on its own, so
what a file holds in the end depends on three things only: whether it is there when
the limits are written, what it holds then, and whether its own write is refused.
The first two are fixed by the tree before the call and by the enabling write.
-/
import Cruntime.Cgroup.Tree
import Cruntime.Net.Network

namespace Cruntime

open Script (issue run tryAll)

/-- `resource_limits_t`. -/
structure ResourceLimits where
  memoryLimit : Int64
  memorySwap : Int64
  cpuShares : Int64
  cpuQuota : Int64
  cpuPeriod : Int64
  pidsLimit : Int64
  blkioWeight : Int64
deriving DecidableEq

/-- The controllers of `"+cpu +memory +io +pids"`. -/
def wantedControllers : Finset Controller := {.cpu, .memory, .io, .pids}

/-- `cgroup_create`: the directory of the container is named after its id. -/
def cgroupCreate (containerId : DirName) : CgroupScript CrCode := do
  unless ← issue .statControllers do
    return .error
  let _ ← issue .mkdirCruntime
  unless ← issue (.mkdirGroup containerId) do
    return .esyscall
  -- Enable controllers in parent cgroup
  let _ ← issue (.enable wantedControllers)
  return .ok

/-- `%ld`. -/
def formatLong (n : Int64) : CStr := decimalInt n.toInt

theorem pos_iff {limit : Int64} : limit > 0 ↔ 0 < limit.toInt := Int64.lt_iff_toInt_lt

/-- The weight for a number of shares. -/
def cpuWeightOf (shares : Int64) : Int64 :=
  let weight := shares * 10000 / 262144
  let weight := if weight < 1 then 1 else weight
  if weight > 10000 then 10000 else weight

/-- `cgroup_apply_limits`: a write that fails is logged and passed over. -/
def cgroupApplyLimits (path : DirName) (limits : ResourceLimits) : CgroupScript CrCode := do
  -- Memory limit
  if limits.memoryLimit > 0 then
    let _ ← issue (.write path .memoryMax (formatLong limits.memoryLimit))
  -- Memory + swap limit
  if limits.memorySwap > 0 then
    let _ ← issue (.write path .memorySwapMax (formatLong limits.memorySwap))
  -- CPU weight (shares) - cgroups v2 uses weight instead of shares
  if limits.cpuShares > 0 then
    let _ ← issue (.write path .cpuWeight (formatLong (cpuWeightOf limits.cpuShares)))
  -- CPU quota
  if limits.cpuQuota > 0 ∧ limits.cpuPeriod > 0 then
    let _ ← issue (.write path .cpuMax
      (formatLong limits.cpuQuota ++ ' ' :: formatLong limits.cpuPeriod))
  -- PIDs limit
  if limits.pidsLimit > 0 then
    let _ ← issue (.write path .pidsMax (formatLong limits.pidsLimit))
  -- Block I/O weight
  if limits.blkioWeight > 0 then
    let _ ← issue (.write path .ioWeight ("default ".toList ++ formatLong limits.blkioWeight))
  return .ok

/-! ### The limits as a table -/

/-- The value a record of limits asks for in a control file; `none` when the field is
not set. -/
def ResourceLimits.value (l : ResourceLimits) : ControlFile → Option CStr
  | .memoryMax => if l.memoryLimit > 0 then some (formatLong l.memoryLimit) else none
  | .memorySwapMax => if l.memorySwap > 0 then some (formatLong l.memorySwap) else none
  | .cpuWeight => if l.cpuShares > 0 then some (formatLong (cpuWeightOf l.cpuShares)) else none
  | .cpuMax =>
      if l.cpuQuota > 0 ∧ l.cpuPeriod > 0 then
        some (formatLong l.cpuQuota ++ ' ' :: formatLong l.cpuPeriod)
      else none
  | .pidsMax => if l.pidsLimit > 0 then some (formatLong l.pidsLimit) else none
  | .ioWeight =>
      if l.blkioWeight > 0 then some ("default ".toList ++ formatLong l.blkioWeight) else none

/-- The write of one file, when its field is set. -/
def limitWrite (id : DirName) (l : ResourceLimits) (f : ControlFile) : List CgroupCmd :=
  (l.value f).toList.map (.write id f)

/-- The order of the writes. -/
def writeOrder : List ControlFile :=
  [.memoryMax, .memorySwapMax, .cpuWeight, .cpuMax, .pidsMax, .ioWeight]

theorem mem_writeOrder (f : ControlFile) : f ∈ writeOrder := by
  cases f <;> decide

theorem tryAll_limitWrite {id : DirName} {l : ResourceLimits} {f : ControlFile} {b : Prop}
    [Decidable b] {v : CStr} (h : l.value f = if b then some v else none)
    (rest : CgroupScript CrCode) :
    tryAll (limitWrite id l f) rest = if b then .exec (.write id f v) fun _ => rest else rest := by
  unfold limitWrite
  rw [h]
  by_cases hb : b
  · rw [if_pos hb, if_pos hb]
    rfl
  · rw [if_neg hb, if_neg hb]
    rfl

/-- The code writes the table, file by file. -/
theorem cgroupApplyLimits_eq (id : DirName) (l : ResourceLimits) :
    cgroupApplyLimits id l = tryAll (writeOrder.flatMap (limitWrite id l)) (.ret .ok) := by
  simp only [writeOrder, List.flatMap_cons, List.flatMap_nil, List.append_nil,
    Script.tryAll_append]
  rw [tryAll_limitWrite (f := .memoryMax) rfl, tryAll_limitWrite (f := .memorySwapMax) rfl,
    tryAll_limitWrite (f := .cpuWeight) rfl, tryAll_limitWrite (f := .cpuMax) rfl,
    tryAll_limitWrite (f := .pidsMax) rfl, tryAll_limitWrite (f := .ioWeight) rfl]
  rfl

/-! ### What the writes leave in a file -/

section Run

variable {r : CgroupRoot} (fails : CgroupCmd → Bool)

/-- A file that held `old` after the write its field asks for. -/
def settled (id : DirName) (f : ControlFile) (wanted old : Option CStr) : Option CStr :=
  match wanted with
  | none => old
  | some v => if old = none ∨ fails (.write id f v) then old else some v

/-- One write: the file is settled, and no other file changes. -/
theorem content_attempt_write (id : DirName) (f f' : ControlFile) (v : CStr) (t : Cgroups r) :
    (Script.attempt (CgroupCmd.effect fails) false (.write id f v) t).2.content id f' =
      if f' = f then settled fails id f (some v) (t.content id f) else t.content id f' := by
  unfold settled
  by_cases hfail : fails (.write id f v) = true
  · rw [Script.attempt_none _ (by simp [CgroupCmd.effect, hfail])]
    by_cases hff : f' = f
    · simp [hfail, hff]
    · simp [hff]
  · cases happ : (CgroupCmd.write id f v).apply t with
    | none =>
        have hnone := Cgroups.write_eq_none.mp happ
        rw [Script.attempt_none _ (by simp [CgroupCmd.effect, happ])]
        by_cases hff : f' = f
        · simp [hff, hnone]
        · simp [hff]
    | some t' =>
        obtain ⟨hthere, hnew, hother⟩ := Cgroups.write_eq_some happ
        rw [Script.attempt_some _ (t := t') (by simp [CgroupCmd.effect, hfail, happ])]
        by_cases hff : f' = f
        · simp [hff, hthere, hfail, hnew]
        · simp [hff, hother f' hff]

/-- The write of one field, set or not. -/
theorem run_limitWrite (id : DirName) (l : ResourceLimits) (f : ControlFile) (cs : List CgroupCmd)
    (t : Cgroups r) : ∃ t' : Cgroups r,
      run (CgroupCmd.effect fails) (tryAll (limitWrite id l f ++ cs) (.ret CrCode.ok)) (.calm t) =
        run (CgroupCmd.effect fails) (tryAll cs (.ret .ok)) (.calm t') ∧
      ∀ f', t'.content id f' =
        if f' = f then settled fails id f (l.value f) (t.content id f) else t.content id f' := by
  unfold limitWrite
  cases hv : l.value f with
  | none =>
      refine ⟨t, rfl, fun f' => ?_⟩
      by_cases hff : f' = f
      · simp [hff, settled]
      · simp [hff]
  | some v => exact ⟨_, rfl, fun f' => content_attempt_write fails id f f' v t⟩

/-- **The writes settle every file on its own.** -/
theorem content_tryAll_limitWrite (id : DirName) (l : ResourceLimits) (fs : List ControlFile) :
    fs.Nodup → ∀ (t : Cgroups r) (f : ControlFile),
      (run (CgroupCmd.effect fails) (tryAll (fs.flatMap (limitWrite id l)) (.ret CrCode.ok))
        (.calm t)).2.state.content id f =
          if f ∈ fs then settled fails id f (l.value f) (t.content id f) else t.content id f := by
  induction fs with
  | nil => intro _ t f; rfl
  | cons f₀ rest ih =>
      intro hnodup t f
      obtain ⟨hnot, hrest⟩ := List.nodup_cons.mp hnodup
      obtain ⟨t', hrun, ht'⟩ := run_limitWrite fails id l f₀ (rest.flatMap (limitWrite id l)) t
      rw [List.flatMap_cons, hrun, ih hrest t' f, ht' f]
      by_cases hf : f = f₀
      · subst hf
        simp [hnot]
      · simp [hf]

/-- What `cgroup_apply_limits` leaves in a control file. -/
theorem content_applyLimits (id : DirName) (l : ResourceLimits) (t : Cgroups r)
    (f : ControlFile) :
    (run (CgroupCmd.effect fails) (cgroupApplyLimits id l) (.calm t)).2.state.content id f =
      settled fails id f (l.value f) (t.content id f) := by
  rw [cgroupApplyLimits_eq,
    content_tryAll_limitWrite fails id l writeOrder (by decide) t f, if_pos (mem_writeOrder f)]

/-- It always returns `CR_OK`. -/
theorem applyLimits_result (id : DirName) (l : ResourceLimits) (w : World (Cgroups r)) :
    (run (CgroupCmd.effect fails) (cgroupApplyLimits id l) w).1 = .ok := by
  rw [cgroupApplyLimits_eq]
  exact Script.run_tryAll_ret _ _ _ w

/-! ### What the creation leaves for the writes -/

/-- The creation gets its directory: nothing refuses it, and `cruntime` is there or can
be made. -/
def GetsDirectory (t : Cgroups r) (id : DirName) : Prop :=
  fails .statControllers = false ∧ fails (.mkdirGroup id) = false ∧
    (t ≠ none ∨ fails .mkdirCruntime = false)

/-- The write that enables the controllers goes through: the root passes on all four of
them, and nothing refuses it. -/
def EnablesControllers (r : CgroupRoot) : Prop :=
  wantedControllers ⊆ r.enabled ∧ fails (.enable wantedControllers) = false

/-- A control file is there once the directory is: it is in the old directory, or the
kernel has it and the directory or its controller is new, and the controller is enabled
in `cruntime` already or by the call. -/
def Provided (t : Cgroups r) (id : DirName) (f : ControlFile) : Prop :=
  t.content id f ≠ none ∨
    r.offers f = true ∧
      if f.controller ∈ t.enabled then t.group id = none else EnablesControllers fails r

/-- What a file that is provided holds when the limits are written: what it held before, or
the kernel's default. -/
def Cgroups.initial (t : Cgroups r) (id : DirName) (f : ControlFile) : CStr :=
  (t.content id f).getD f.default

theorem controller_mem_wanted (f : ControlFile) : f.controller ∈ wantedControllers := by
  cases f <;> decide

/-- A file that is provided: there from the start or new, with the default in it. -/
def Ready (t : Cgroups r) (id : DirName) (f : ControlFile) (now : Option CStr) : Prop :=
  (Provided fails t id f → now = some (t.initial id f)) ∧ (¬ Provided fails t id f → now = none)

/-- A file of a controller that was enabled comes from the directory, old or new. -/
theorem ready_of_enabled {d : CruntimeDir r} {id : DirName} {f : ControlFile}
    (hmem : f.controller ∈ d.enabled) :
    Ready fails (some d) id f ((d.groups id).getD d.freshGroup f) := by
  cases hg : d.groups id with
  | none =>
      simp [Ready, Provided, Cgroups.content, Cgroups.group, Cgroups.enabled, Cgroups.initial,
        CruntimeDir.freshGroup, hg, hmem]
  | some g =>
      cases hf : g f <;>
        simp [Ready, Provided, Cgroups.content, Cgroups.group, Cgroups.enabled, Cgroups.initial, hg,
          hmem, hf]

/-- The file of a controller that was not enabled is there when the enabling write goes
through and the kernel has it. -/
theorem ready_of_not_enabled {d : CruntimeDir r} {id : DirName} {f : ControlFile}
    {now : Option CStr} (hmem : f.controller ∉ d.enabled)
    (hnew : EnablesControllers fails r → now = if r.offers f then some f.default else none)
    (hold : ¬ EnablesControllers fails r → now = none) : Ready fails (some d) id f now := by
  have hnone : Cgroups.content (some d) id f = none := by
    by_contra hne
    exact hmem (Cgroups.controller_mem_of_content hne)
  have hprov : Provided fails (some d) id f ↔ r.offers f = true ∧ EnablesControllers fails r := by
    unfold Provided
    rw [if_neg (show f.controller ∉ Cgroups.enabled (some d) from hmem)]
    simp [hnone]
  rw [Ready, hprov, Cgroups.initial, hnone]
  by_cases hen : EnablesControllers fails r
  · rw [hnew hen]
    simp [hen]
  · simp [hen, hold hen]

/-- The files of a container's directory that `mkdir` left with no file of its own for a
controller that is not enabled. -/
theorem mkdir_not_enabled {d : CruntimeDir r} {id : DirName} {f : ControlFile}
    (hmem : f.controller ∉ d.enabled) : (d.groups id).getD d.freshGroup f = none := by
  cases hg : d.groups id with
  | none => simp [CruntimeDir.freshGroup, hmem]
  | some g =>
      by_contra hne
      exact hmem (d.file_enabled id g f hg hne)

/-- The enabling write, refused or not, leaves every file ready. -/
theorem enable_ready (d : CruntimeDir r) (id : DirName) (f : ControlFile) :
    Ready fails (some d) id f
      ((Script.attempt (CgroupCmd.effect fails) false (.enable wantedControllers)
        (some (d.mkdir id))).2.content id f) := by
  by_cases hen : EnablesControllers fails r
  · obtain ⟨d', hd'⟩ : ∃ d', (d.mkdir id).enable wantedControllers = some d' := by
      simp [CruntimeDir.enable, hen.1]
    have heff : CgroupCmd.effect fails (.enable wantedControllers) (some (d.mkdir id))
        = some (some d') := by
      simp [CgroupCmd.effect, CgroupCmd.apply, hen.2, hd']
    rw [Script.attempt_some _ heff, Cgroups.content_enable hd']
    have hgrown : ((d.mkdir id).groups id).bind
        (fun g => (d.mkdir id).grown wantedControllers g f) =
          if f.controller ∈ d.enabled then (d.groups id).getD d.freshGroup f
          else if r.offers f then some f.default else none := by
      simp [CruntimeDir.mkdir, CruntimeDir.grown, controller_mem_wanted]
    rw [hgrown]
    by_cases hmem : f.controller ∈ d.enabled
    · rw [if_pos hmem]
      exact ready_of_enabled fails hmem
    · rw [if_neg hmem]
      exact ready_of_not_enabled fails hmem (fun _ => rfl) (fun hnot => absurd hen hnot)
  · have heff : CgroupCmd.effect fails (.enable wantedControllers) (some (d.mkdir id)) = none := by
      unfold CgroupCmd.effect
      by_cases hfail : fails (.enable wantedControllers) = true
      · simp [hfail]
      · have hsub : ¬ wantedControllers ⊆ r.enabled := fun hsub => hen ⟨hsub, by simpa using hfail⟩
        simp [hfail, CgroupCmd.apply, CruntimeDir.enable, hsub]
    rw [Script.attempt_none _ heff, Cgroups.content_mkdir]
    by_cases hmem : f.controller ∈ d.enabled
    · exact ready_of_enabled fails hmem
    · exact ready_of_not_enabled fails hmem (fun h => absurd h hen)
        (fun _ => mkdir_not_enabled hmem)

/-- The `cruntime` directory after the first `mkdir`. -/
theorem mkdirCruntime_cases (t : Cgroups r) :
    (t = none ∧ fails .mkdirCruntime = true ∧
        (Script.attempt (CgroupCmd.effect fails) false .mkdirCruntime t).2 = none) ∨
      ∃ d, (Script.attempt (CgroupCmd.effect fails) false .mkdirCruntime t).2 = some d ∧
        (t ≠ none ∨ fails .mkdirCruntime = false) ∧
        ∀ id f now, Ready fails (some d) id f now → Ready fails t id f now := by
  cases t with
  | none =>
      cases hfail : fails .mkdirCruntime with
      | true => exact Or.inl ⟨rfl, rfl, by simp [Script.attempt, CgroupCmd.effect, hfail]⟩
      | false =>
          refine Or.inr ⟨.empty, ?_, Or.inr rfl, fun _ _ _ h => h⟩
          simp [Script.attempt, CgroupCmd.effect, CgroupCmd.apply, hfail]
  | some d =>
      refine Or.inr ⟨d, ?_, Or.inl (by simp), fun _ _ _ h => h⟩
      simp [Script.attempt, CgroupCmd.effect, CgroupCmd.apply]

/-- **The creation**: it returns `CR_OK` exactly when it gets its directory, and then every
control file is there if it is provided. -/
theorem cgroupCreate_spec (t : Cgroups r) (id : DirName) :
    ∃ t' : Cgroups r, (run (CgroupCmd.effect fails) (cgroupCreate id) (.calm t)).2 = .calm t' ∧
      ((run (CgroupCmd.effect fails) (cgroupCreate id) (.calm t)).1 = .ok ↔
        GetsDirectory fails t id) ∧
      (GetsDirectory fails t id → ∀ f, Ready fails t id f (t'.content id f)) := by
  unfold cgroupCreate
  rw [Script.issue_bind, Script.run_exec_calm]
  by_cases hstat : fails .statControllers = true
  · rw [Script.attempt_none _ (by simp [CgroupCmd.effect, hstat])]
    exact ⟨t, rfl, by simp [GetsDirectory, hstat], fun h => absurd h.1 (by simp [hstat])⟩
  rw [Script.attempt_some _ (t := t) (by simp [CgroupCmd.effect, hstat, CgroupCmd.apply])]
  simp only [if_true, Script.issue_bind]
  rw [Script.run_exec_calm]
  rcases mkdirCruntime_cases fails t with ⟨rfl, hmk, hnone⟩ | ⟨d, hd, hmk, hready⟩
  · -- no `cruntime`, and none can be made: the container's directory has nowhere to go
    rw [hnone, Script.run_exec_calm, Script.attempt_none _ (by
      simp [CgroupCmd.effect, CgroupCmd.apply])]
    exact ⟨none, rfl, by simp [GetsDirectory, hmk], fun h => by simp [GetsDirectory, hmk] at h⟩
  rw [hd, Script.run_exec_calm]
  by_cases hdir : fails (.mkdirGroup id) = true
  · rw [Script.attempt_none _ (by simp [CgroupCmd.effect, hdir])]
    exact ⟨some d, rfl, by simp [GetsDirectory, hdir], fun h => absurd h.2.1 (by simp [hdir])⟩
  rw [Script.attempt_some _ (t := some (d.mkdir id)) (by
    simp [CgroupCmd.effect, hdir, CgroupCmd.apply])]
  have hget : GetsDirectory fails t id := ⟨by simpa using hstat, by simpa using hdir, hmk⟩
  exact ⟨_, rfl, ⟨fun _ => hget, fun _ => rfl⟩, fun _ f => hready id f _ (enable_ready fails d id f)⟩

/-! ### When the limits are in force -/

/-- Every limit of the record is in force: a file whose field is set holds its value, and
one whose field is not set holds the kernel's default if it is there. -/
def InForce (l : ResourceLimits) (t : Cgroups r) (id : DirName) : Prop :=
  ∀ f, f ≠ .memorySwapMax →
    match l.value f with
    | some v => t.content id f = some v
    | none => ∀ old, t.content id f = some old → old = f.default

/-- The condition on one file: a field that is set has its file provided, and its write is
not refused unless the file holds the value anyway; the file of a field that is not set does
not hold an old limit. -/
def Settles (t : Cgroups r) (id : DirName) (f : ControlFile) : Option CStr → Prop
  | some v =>
      Provided fails t id f ∧ (fails (.write id f v) = false ∨ t.initial id f = v)
  | none => ∀ old, t.content id f = some old → old = f.default

/-- Settling a ready file gives what its field asks for exactly under that condition. -/
theorem settled_iff {t : Cgroups r} {id : DirName} {f : ControlFile} {now : Option CStr}
    (hready : Ready fails t id f now) (wanted : Option CStr) :
    (match wanted with
      | some v => settled fails id f wanted now = some v
      | none => ∀ old, settled fails id f wanted now = some old → old = f.default) ↔
      Settles fails t id f wanted := by
  by_cases hprov : Provided fails t id f
  · rw [hready.1 hprov]
    cases wanted with
    | some v =>
        show settled fails id f (some v) (some (t.initial id f)) = some v ↔ _
        unfold settled Settles
        by_cases hfail : fails (.write id f v) = true
        · simp [hfail, hprov]
        · simp [hfail, hprov]
    | none =>
        show (∀ old, some (t.initial id f) = some old → old = f.default) ↔ _
        unfold Settles Cgroups.initial
        cases hc : t.content id f <;> simp
  · rw [hready.2 hprov]
    have hnone : t.content id f = none := by
      by_contra hne
      exact hprov (Or.inl hne)
    cases wanted with
    | some v => simp [settled, Settles, hprov]
    | none => simp [settled, Settles, hnone]

/-- **When the limits are in force**: after a creation and an application that return
`CR_OK`, every limit is in force exactly when each file meets its condition. -/
theorem limits_in_force_iff (t : Cgroups r) (id : DirName) (l : ResourceLimits) :
    ((run (CgroupCmd.effect fails) (cgroupCreate id) (.calm t)).1 = .ok →
      let w := (run (CgroupCmd.effect fails) (cgroupCreate id) (.calm t)).2
      (run (CgroupCmd.effect fails) (cgroupApplyLimits id l) w).1 = .ok →
        InForce l (run (CgroupCmd.effect fails) (cgroupApplyLimits id l) w).2.state id) ↔
      (GetsDirectory fails t id →
        ∀ f, f ≠ .memorySwapMax → Settles fails t id f (l.value f)) := by
  obtain ⟨t', hrun, hok, hready⟩ := cgroupCreate_spec fails t id
  rw [hok]
  refine forall_congr' fun hget => ?_
  simp only [hrun, applyLimits_result, forall_const]
  unfold InForce
  refine forall₂_congr fun f _ => ?_
  rw [content_applyLimits]
  exact settled_iff fails (hready hget f) (l.value f)

end Run

/-- A root that passes on everything but `io`, as an administrator or the boot may leave it. -/
def rootWithoutIo : CgroupRoot := ⟨{.cpu, .memory, .pids}, fun _ => true⟩

/-- A memory limit of 64 MiB and no other. -/
def memoryOnly : ResourceLimits := ⟨67108864, 0, 0, 0, 0, 0, 0⟩

def sampleDir : DirName := ⟨"0123456789abcdef".toList, by decide, by decide, by decide⟩

/-- Without `io` in the root none of the four controllers is enabled, and the memory limit is
nowhere, though both calls return `CR_OK` and nothing refuses a write. -/
theorem memory_limit_lost_without_io :
    let sem := CgroupCmd.effect (r := rootWithoutIo) fun _ => false
    let created := run sem (cgroupCreate sampleDir) (.calm none)
    let applied := run sem (cgroupApplyLimits sampleDir memoryOnly) created.2
    created.1 = .ok ∧ applied.1 = .ok ∧ applied.2.state.content sampleDir .memoryMax = none ∧
      ¬ InForce memoryOnly applied.2.state sampleDir := by
  have hlost : (run (CgroupCmd.effect (r := rootWithoutIo) fun _ => false)
      (cgroupApplyLimits sampleDir memoryOnly)
      (run (CgroupCmd.effect fun _ => false) (cgroupCreate sampleDir) (.calm none)).2).2.state.content
        sampleDir .memoryMax = none := by decide
  refine ⟨by decide, by decide, hlost, fun hforce => ?_⟩
  have hset := hforce .memoryMax (by decide)
  rw [hlost, show memoryOnly.value .memoryMax = some (formatLong 67108864) by decide] at hset
  simp at hset

end Cruntime
