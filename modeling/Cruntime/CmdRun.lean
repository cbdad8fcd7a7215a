/-
`cmd_run`, from its arguments to the configuration it hands to `container_create`.

The loop over the options fills one configuration: text fields are copied into buffers
of fixed size, limits are converted, and three kinds of options collect in arrays.  Two
of the arrays are part of the configuration.  The third is a pointer that nothing ever
sets, so the first `-e` writes through a null pointer.

The handlers of `-p` and `-v` cut their argument in place; no element of the vector is
read again after it was an argument.  Fields of `container_config_t` that stay zero
(`privileged`, `readonly_rootfs`, `enable_nat`, the options of a mount) are left out,
as is everything that follows `container_create`.
-/
import Cruntime.Cgroup.Limits
import Cruntime.Cli
import Cruntime.Lib.OptionScan
import Cruntime.Utils

namespace Cruntime

open Getopt (LongOption Result)

/-! ### The configuration -/

/-- `namespace_config_t`. -/
structure NamespaceConfig where
  pid : Bool
  net : Bool
  mnt : Bool
  uts : Bool
  ipc : Bool
  user : Bool
  cgroup : Bool
deriving DecidableEq

/-- `mount_point_t`; the only flag that is ever set is `MS_BIND`. -/
structure MountPoint where
  source : CStr
  target : CStr
  fstype : CStr
  bind : Bool
deriving DecidableEq

/-- `container_config_t`.  The arrays are lists, and so are their counts, but for the one
behind a pointer. -/
structure ContainerConfig where
  id : CStr
  name : CStr
  hostname : CStr
  command : CStr
  args : List CStr
  numArgs : Nat
  /-- `char **env`: no list is the null pointer. -/
  env : Option (List CStr)
  numEnv : Nat
  rootfs : CStr
  workingDir : CStr
  namespaces : NamespaceConfig
  limits : ResourceLimits
  network : NetworkConfig
  mounts : List MountPoint
  uid : Nat
  gid : Nat
deriving DecidableEq

/-- `runtime_ctx_t`. -/
structure RuntimeCtx where
  runtimeDir : CStr
  stateDir : CStr
  imageDir : CStr
  networkDir : CStr
deriving DecidableEq

/-- The runtime context before any global option. -/
def defaultCtx : RuntimeCtx where
  runtimeDir := "/var/run/cruntime".toList
  stateDir := "/var/lib/cruntime/state".toList
  imageDir := "/var/lib/cruntime/images".toList
  networkDir := "/var/run/cruntime/netns".toList

/-- What the program takes from its surroundings: the draws for an id, who runs it, whether
the runtime can be initialized, and what a conversion out of range gives. -/
structure Machine where
  draws : List Nat
  uid : Nat
  gid : Nat
  euid : Nat
  runtimeInit : CrCode
  undefined : Int64

/-- The configuration before any option. -/
def defaultConfig (m : Machine) : ContainerConfig where
  id := generateId 65 m.draws
  name := []
  hostname := "container".toList
  command := []
  args := []
  numArgs := 0
  env := none
  numEnv := 0
  rootfs := []
  workingDir := []
  namespaces := ⟨true, true, true, true, true, false, true⟩
  limits := ⟨-1, 0, 1024, -1, 100000, -1, 0⟩
  network := defaultNetwork
  mounts := []
  uid := m.uid
  gid := m.gid

/-- The configuration and the two flags of the loop. -/
structure RunState where
  config : ContainerConfig
  detach : Bool
  autoRemove : Bool
deriving DecidableEq

/-- What `cmd_run` comes to: it calls `container_create`, or it returns before that, or it
writes through the null pointer. -/
inductive RunOutcome where
  | creates (st : RunState)
  | returns (code : Int)
  | crashes
deriving DecidableEq

/-! ### The options -/

/-- The short options of `cmd_run`. -/
def runOptstring : CStr := "n:h:m:c:p:v:e:w:d".toList

/-- `long_options` of `cmd_run`. -/
def runLongOptions : List LongOption :=
  [⟨"name".toList, true, some 'n'⟩,
    ⟨"hostname".toList, true, some 'h'⟩,
    ⟨"memory".toList, true, some 'm'⟩,
    ⟨"cpus".toList, true, some 'c'⟩,
    ⟨"network".toList, true, none⟩,
    ⟨"ip".toList, true, none⟩,
    ⟨"publish".toList, true, some 'p'⟩,
    ⟨"volume".toList, true, some 'v'⟩,
    ⟨"env".toList, true, some 'e'⟩,
    ⟨"workdir".toList, true, some 'w'⟩,
    ⟨"detach".toList, false, some 'd'⟩,
    ⟨"rm".toList, false, none⟩]

/-- `MAX_MOUNTS`. -/
def maxMounts : Nat := 64

/-- `MAX_ENV_VARS`. -/
def maxEnvVars : Nat := 256

/-- A volume as `-v` writes it: `host:container`. -/
def parseVolume (arg : CStr) : Option MountPoint :=
  (strchr arg ':').map fun (source, target) =>
    ⟨strncpy source 4095, strncpy target 4095, "bind".toList, true⟩

/-- `case 'v'`. -/
def addMount (mounts : List MountPoint) (arg : CStr) : List MountPoint :=
  if mounts.length < maxMounts then
    match parseVolume arg with
    | some mp => mounts ++ [mp]
    | none => mounts
  else mounts

/-- `case 'e'`: a copy of the argument goes where `config.env` points; `none` is a write
through the null pointer. -/
def addEnv (config : ContainerConfig) (arg : CStr) : Option ContainerConfig :=
  if config.numEnv < maxEnvVars then
    config.env.map fun env => { config with env := some (env ++ [arg]), numEnv := config.numEnv + 1 }
  else some config

/-- `case 0`: the long options without a letter, told apart by name. -/
def longBody (st : RunState) (name : CStr) (arg : CStr) : RunState :=
  if name = "rm".toList then { st with autoRemove := true }
  else if name = "network".toList then
    { st with config := { st.config with
      network := applyOption st.config.network (.network arg) } }
  else if name = "ip".toList then
    { st with config := { st.config with
      network := applyOption st.config.network (.ip arg) } }
  else st

/-- The body of the loop. -/
def runBody (m : Machine) (st : RunState) : Result → Except RunOutcome RunState
  | .opt 'n' (some arg) => .ok { st with config := { st.config with name := strncpy arg 255 } }
  | .opt 'h' (some arg) => .ok { st with config := { st.config with hostname := strncpy arg 255 } }
  | .opt 'm' (some arg) =>
      .ok { st with config := { st.config with
        limits := { st.config.limits with memoryLimit := parseSize m.undefined arg } } }
  | .opt 'c' (some arg) =>
      .ok { st with config := { st.config with
        limits := { st.config.limits with
          cpuQuota := ((atof arg).scale 100000).toInt64 m.undefined } } }
  | .opt 'p' (some arg) =>
      .ok { st with config := { st.config with
        network := applyOption st.config.network (.publish arg) } }
  | .opt 'v' (some arg) =>
      .ok { st with config := { st.config with mounts := addMount st.config.mounts arg } }
  | .opt 'e' (some arg) =>
      match addEnv st.config arg with
      | some config => .ok { st with config := config }
      | none => .error .crashes
  | .opt 'w' (some arg) => .ok { st with config := { st.config with workingDir := strncpy arg 4095 } }
  | .opt 'd' none => .ok { st with detach := true }
  | .long name arg => .ok (longBody st name (arg.getD []))
  | _ => .error (.returns 1)

/-- The configuration once the image and the command are known. -/
def finishConfig (ctx : RuntimeCtx) (config : ContainerConfig) (image : CStr)
    (command : List CStr) : ContainerConfig :=
  let config := { config with
    rootfs := snprintf 4096 (ctx.imageDir ++ "/images/".toList ++ image ++ "/rootfs".toList) }
  match command with
  | [] => { config with command := "/bin/sh".toList }
  | cmd :: args =>
      { config with command := cmd, args := cmd :: args, numArgs := args.length + 1 }

/-- `cmd_run`, up to its call of `container_create`; `none` when the fuel runs out. -/
def cmdRun (m : Machine) (ctx : RuntimeCtx) (g : Getopt.State) : Option RunOutcome :=
  (Getopt.loop runOptstring runLongOptions (runBody m) (g.remaining + 1) g
      ⟨defaultConfig m, false, false⟩).map fun
    | .error out => out
    | .ok (st, g) =>
        match g.argv.drop g.optind with
        | [] => .returns 1
        | image :: command =>
            .creates { st with config := finishConfig ctx st.config image command }

/-! ### The run as its options -/

/-- The options of a call of `cmd_run`, and the state at what follows them, or an error. -/
def runOptions (g : Getopt.State) : Option (List Result × Option Getopt.State) :=
  Getopt.scan runOptstring runLongOptions (g.remaining + 1) g

/-- The start of the loop. -/
def runStart (m : Machine) : RunState := ⟨defaultConfig m, false, false⟩

/-- What follows the loop. -/
def afterLoop (ctx : RuntimeCtx) : Except RunOutcome (RunState × Getopt.State) → RunOutcome
  | .error out => out
  | .ok (st, g) =>
      match g.argv.drop g.optind with
      | [] => .returns 1
      | image :: command => .creates { st with config := finishConfig ctx st.config image command }

theorem remaining_clamp {g : Getopt.State} : g.clamp.remaining = g.remaining := rfl

theorem runOptions_isSome {g : Getopt.State} (hg : Getopt.Settled g) :
    ∃ x, runOptions g = some x := by
  have hfuel : (g.clamp).remaining < g.remaining + 1 := by
    rw [remaining_clamp]
    omega
  obtain ⟨x, hx⟩ := @Getopt.scan_isSome runOptstring runLongOptions (g.remaining + 1) _
    hg.ordered_clamp hfuel
  exact ⟨x, (Getopt.scan_clamp hg _).symm.trans hx⟩

/-- **`cmd_run` always comes to an end**, and runs its body over its options. -/
theorem cmdRun_eq (m : Machine) (ctx : RuntimeCtx) {g : Getopt.State}
    {x : List Result × Option Getopt.State} (hx : runOptions g = some x) :
    cmdRun m ctx g =
      some (afterLoop ctx (Getopt.outcome (runBody m) (.returns 1) (runStart m) x)) := by
  unfold cmdRun
  have hbad : ∀ st, runBody m st .unknown = .error (.returns 1) := fun _ => rfl
  rw [Getopt.loop_eq hbad _ _ hx]
  rfl

theorem runOptions_known {g : Getopt.State} (hg : Getopt.Settled g)
    {x : List Result × Option Getopt.State} (hx : runOptions g = some x) :
    ∀ r ∈ x.1, Getopt.Known runOptstring runLongOptions r :=
  @Getopt.scan_known runOptstring _ _ _ _ hg.ordered_clamp
    ((Getopt.scan_clamp hg _).trans hx)

/-- The parser at the call of `cmd_run`, for `cruntime run` and the words behind it. -/
def parserAtRun (words : List CStr) : Getopt.State :=
  ⟨"cruntime".toList :: "run".toList :: words, 2, true, [], 1, 1, .requireOrder⟩

theorem settled_parserAtRun (words : List CStr) : Getopt.Settled (parserAtRun words) :=
  ⟨rfl, rfl, Nat.two_pos, rfl⟩

/-! ### The body on the options of the tables -/

/-- The options of `cmd_run`, and whether they take an argument. -/
def runTable : List (Char × Bool) :=
  [('n', true), ('h', true), ('m', true), ('c', true), ('p', true), ('v', true), ('e', true),
    ('w', true), ('d', false)]

theorem known_runTable {c : Char} {arg : Option CStr}
    (h : Getopt.Known runOptstring runLongOptions (.opt c arg)) : (c, arg.isSome) ∈ runTable := by
  have hshort : runOptstring.all (fun c =>
      (Getopt.shortArg runOptstring c).all fun b => runTable.contains (c, b)) = true := by decide
  have hlong : ∀ o ∈ runLongOptions, ∀ c, o.val = some c → (c, o.hasArg) ∈ runTable := by
    intro o ho c hc
    have hall : ∀ o ∈ runLongOptions,
        (o.val.all fun c => runTable.contains (c, o.hasArg)) = true := by
      decide
    have := hall o ho
    rw [hc] at this
    simpa using this
  rcases h with h | ⟨o, ho, hval, harg⟩
  · have hat := List.all_eq_true.mp hshort c (Getopt.mem_of_shortArg h)
    have harg : Getopt.shortArg runOptstring c = some arg.isSome := h
    rw [harg] at hat
    simpa using hat
  · exact harg ▸ hlong o ho c hval

/-- The argument of an option `-c`. -/
def argOf (c : Char) : Result → Option CStr
  | .opt d arg => if d = c then arg else none
  | _ => none

/-- The arguments of all options `-c`, in order. -/
def argsOf (c : Char) (rs : List Result) : List CStr := rs.filterMap (argOf c)

theorem argsOf_cons (c : Char) (r : Result) (rs : List Result) :
    argsOf c (r :: rs) = (argOf c r).toList ++ argsOf c rs := by
  unfold argsOf
  rw [List.filterMap_cons]
  cases argOf c r <;> rfl

/-- No variable was stored, nor could it be. -/
def NoEnv (st : RunState) : Prop := st.config.env = none ∧ st.config.numEnv = 0

theorem noEnv_runStart (m : Machine) : NoEnv (runStart m) := ⟨rfl, rfl⟩

/-- What the body does at an option of the tables: it goes on, or writes through the null
pointer at a variable. -/
theorem runBody_cases (m : Machine) {st : RunState} (hst : NoEnv st) {r : Result}
    (hr : Getopt.Known runOptstring runLongOptions r) :
    (argOf 'e' r ≠ none ∧ runBody m st r = .error .crashes) ∨
      (argOf 'e' r = none ∧ ∃ st', runBody m st r = .ok st' ∧ NoEnv st') := by
  obtain ⟨henv, hnum⟩ := hst
  cases r with
  | done => exact hr.elim
  | unknown => exact hr.elim
  | operand arg => exact hr.elim
  | long name arg =>
      refine Or.inr ⟨rfl, _, rfl, ?_⟩
      unfold longBody
      split_ifs
      all_goals exact ⟨henv, hnum⟩
  | opt c arg =>
      have hmem := known_runTable hr
      simp only [runTable, List.mem_cons, List.not_mem_nil, or_false, Prod.mk.injEq] at hmem
      rcases hmem with ⟨rfl, harg⟩ | ⟨rfl, harg⟩ | ⟨rfl, harg⟩ | ⟨rfl, harg⟩ | ⟨rfl, harg⟩ |
        ⟨rfl, harg⟩ | ⟨rfl, harg⟩ | ⟨rfl, harg⟩ | ⟨rfl, harg⟩
      case inr.inr.inr.inr.inr.inr.inl =>
        obtain ⟨a, rfl⟩ := Option.isSome_iff_exists.mp harg
        refine Or.inl ⟨by simp [argOf], ?_⟩
        simp [runBody, addEnv, henv, hnum, maxEnvVars]
      case inr.inr.inr.inr.inr.inr.inr.inr =>
        obtain rfl : arg = none := by simpa using harg
        exact Or.inr ⟨rfl, _, rfl, henv, hnum⟩
      all_goals
        obtain ⟨a, rfl⟩ := Option.isSome_iff_exists.mp harg
        exact Or.inr ⟨rfl, _, rfl, henv, hnum⟩

/-- **The body over the options**: it gets through exactly when no variable is among them, and
crashes otherwise. -/
theorem runBody_fold (m : Machine) {rs : List Result}
    (hrs : ∀ r ∈ rs, Getopt.Known runOptstring runLongOptions r) :
    ∀ {st : RunState}, NoEnv st →
      (argsOf 'e' rs ≠ [] ∧ rs.foldlM (runBody m) st = .error .crashes) ∨
        (argsOf 'e' rs = [] ∧ ∃ st', rs.foldlM (runBody m) st = .ok st' ∧ NoEnv st') := by
  induction rs with
  | nil => intro st hst; exact Or.inr ⟨rfl, st, rfl, hst⟩
  | cons r rest ih =>
      intro st hst
      rw [argsOf_cons, List.foldlM_cons]
      rcases runBody_cases m hst (hrs r (by simp)) with ⟨hsome, hbody⟩ | ⟨hnone, st', hbody, hst'⟩
      · refine Or.inl ⟨?_, by rw [hbody]; rfl⟩
        obtain ⟨a, ha⟩ := Option.ne_none_iff_exists'.mp hsome
        simp [ha]
      · rw [hnone, hbody]
        exact ih (fun r' hr' => hrs r' (by simp [hr'])) hst'

/-! ### The outcomes -/

/-- The parser met an error, or nothing is left that could be the image. -/
def NoImage (stop : Option Getopt.State) : Prop :=
  ∀ g, stop = some g → g.argv.drop g.optind = []

theorem not_noImage {g : Getopt.State} {image : CStr} {command : List CStr}
    (h : g.argv.drop g.optind = image :: command) : ¬NoImage (some g) := by
  intro hno
  rw [hno g rfl] at h
  simp at h

/-- **What a call of `cmd_run` comes to**: it crashes at a variable, or it has no image and
returns, or it creates a container from what the options and the operands say. -/
theorem cmdRun_cases (m : Machine) (ctx : RuntimeCtx) {g : Getopt.State} (hg : Getopt.Settled g)
    {rs : List Result} {stop : Option Getopt.State} (hx : runOptions g = some (rs, stop)) :
    (argsOf 'e' rs ≠ [] ∧ cmdRun m ctx g = some .crashes) ∨
      (argsOf 'e' rs = [] ∧ NoImage stop ∧ cmdRun m ctx g = some (.returns 1)) ∨
      (argsOf 'e' rs = [] ∧ ∃ g' image command st, stop = some g' ∧
        g'.argv.drop g'.optind = image :: command ∧
        rs.foldlM (runBody m) (runStart m) = .ok st ∧ NoEnv st ∧
        cmdRun m ctx g =
          some (.creates { st with config := finishConfig ctx st.config image command })) := by
  rw [cmdRun_eq m ctx hx]
  rcases runBody_fold m (runOptions_known hg hx) (noEnv_runStart m) with
    ⟨he, hfold⟩ | ⟨he, st, hfold, hst⟩
  · refine Or.inl ⟨he, ?_⟩
    rw [Getopt.outcome_error hfold]
    rfl
  · cases stop with
    | none =>
        refine Or.inr (Or.inl ⟨he, fun g' hg' => by simp at hg', ?_⟩)
        rw [Getopt.outcome_bad hfold]
        rfl
    | some g' =>
        rw [Getopt.outcome_ok hfold]
        cases htail : g'.argv.drop g'.optind with
        | nil =>
            refine Or.inr (Or.inl ⟨he, fun g'' hg'' => ?_, ?_⟩)
            · obtain rfl := Option.some.inj hg''
              exact htail
            · simp only [afterLoop, htail]
        | cons image command =>
            refine Or.inr (Or.inr ⟨he, g', image, command, st, rfl, htail, hfold, hst, ?_⟩)
            simp only [afterLoop, htail]

end Cruntime
