/-
What the program asks of the runtime, from `main` to its exit.

The functions that manage a container are declared in `cruntime.h`, and none of them is defined
in the repository.  What can be said is how the program uses them, whatever they answer.  The
automaton `advance` allows a container to be created only between a `runtime_init` that returned
`CR_OK` and the one `runtime_cleanup`, to be started once, and only when it is created, waited for
once, and only when it runs, and deleted once, and only when the start has failed or it has been
waited for.  `main_keeps_protocol` says that no vector of arguments and no answer leads out of it,
and what is left at the end: nothing created that was not started.

There is one way round the cleanup.  A `--env` writes through a null pointer, and the program
ends there with the runtime initialized.  Nothing else does that.
-/
import Cruntime.Lib.Protocol
import Cruntime.Main

namespace Cruntime

open Getopt (Result)
open Script (issue)

/-! ### The program with its calls -/

/-- What the program does that can be seen from outside. -/
inductive CliAct where
  | print (text : CStr)
  | eprint (text : CStr)
  | runtimeInit (ctx : RuntimeCtx)
  | containerCreate (config : ContainerConfig)
  | containerStart
  | waitpid
  | containerDelete
  | runtimeCleanup
deriving DecidableEq

/-- It exits, or it writes through the null pointer. -/
inductive Ending where
  | exits (code : Int)
  | crashes
deriving DecidableEq

abbrev CliScript := Script CliAct

/-- `CRUNTIME_VERSION`. -/
def version : CStr := "1.0.0".toList

def usageText (prog : CStr) : CStr :=
  "CRuntime v".toList ++ version ++ " - Production Container Runtime\n\nUsage: ".toList ++ prog ++
    (" [OPTIONS] COMMAND [ARGS...]\n\n" ++
      "Commands:\n" ++
      "  run        Create and start a container\n" ++
      "  create     Create a container\n" ++
      "  start      Start a container\n" ++
      "  stop       Stop a container\n" ++
      "  kill       Kill a container\n" ++
      "  rm         Remove a container\n" ++
      "  ps         List containers\n" ++
      "  exec       Execute command in running container\n" ++
      "  pause      Pause a container\n" ++
      "  unpause    Resume a paused container\n" ++
      "  logs       View container logs\n" ++
      "  stats      Display container statistics\n" ++
      "\n" ++
      "Options:\n" ++
      "  -h, --help              Show this help message\n" ++
      "  -v, --version           Show version\n" ++
      "  -d, --runtime-dir DIR   Runtime directory (default: /var/run/cruntime)\n" ++
      "  --debug                 Enable debug logging\n").toList

/-- `print_usage`. -/
def printUsage (prog : CStr) : CliScript Unit := do
  let _ ← issue (.print (usageText prog))

/-- `print_version`. -/
def printVersion : CliScript Unit := do
  let _ ← issue (.print ("cruntime version ".toList ++ version ++ "\n".toList))

def complain (text : CStr) : CliScript Unit := do
  let _ ← issue (.eprint text)

/-- The end of `cmd_run`, once it knows what to create. -/
def createAndStart (st : RunState) : CliScript Ending := do
  -- Create and start container
  unless ← issue (.containerCreate st.config) do
    complain "Failed to create container\n".toList
    return .exits 1
  let _ ← issue (.print (st.config.id ++ "\n".toList))
  unless ← issue .containerStart do
    complain "Failed to start container\n".toList
    let _ ← issue .containerDelete
    return .exits 1
  unless st.detach do
    -- Wait for container to exit
    let _ ← issue .waitpid
    if st.autoRemove then
      let _ ← issue .containerDelete
  return .exits 0

/-- What `cmd_run` does after its loop. -/
def afterOptions (ctx : RuntimeCtx) :
    Except RunOutcome (RunState × Getopt.State) → CliScript Ending
  | .error (.returns code) => return .exits code
  | .error .crashes => return .crashes
  | .error (.creates st) => createAndStart st
  | .ok (st, g) =>
      match g.argv.drop g.optind with
      | [] => do
          complain "Error: missing image name\n".toList
          return .exits 1
      | image :: command =>
          createAndStart { st with config := finishConfig ctx st.config image command }

/-- `cmd_run`; `none` when the fuel runs out. -/
def cmdRunScript (m : Machine) (ctx : RuntimeCtx) (g : Getopt.State) :
    Option (CliScript Ending) :=
  (Getopt.loop runOptstring runLongOptions (runBody m) (g.remaining + 1) g (runStart m)).map
    (afterOptions ctx)

/-- `cmd_ps`. -/
def cmdPs : CliScript Ending := do
  let _ ← issue (.print "CONTAINER ID    NAME              STATUS     PID\n".toList)
  let _ ← issue (.print "(container listing not yet implemented)\n".toList)
  return .exits 0

/-- How the loop of `main` can leave the function. -/
inductive MainStop where
  | help
  | version
  | badOption

/-- The body of the loop. -/
def mainStops (ctx : RuntimeCtx) : Result → Except MainStop RuntimeCtx
  | .opt 'h' none => .error .help
  | .opt 'v' none => .error .version
  | .opt 'd' (some arg) => .ok { ctx with runtimeDir := strncpy arg 4095 }
  | .long _ _ => .ok ctx
  | _ => .error .badOption

/-- The commands. -/
def commandScript (prog : CStr) (m : Machine) (ctx : RuntimeCtx) (cmd : CStr)
    (g : Getopt.State) : Option (CliScript Ending) :=
  if cmd = "run".toList then cmdRunScript m ctx g
  else if cmd = "ps".toList then some cmdPs
  else some do
    complain ("Unknown command: ".toList ++ cmd ++ "\n".toList)
    printUsage prog
    return .exits 1

/-- `main` from the command on. -/
def dispatchScript (prog : CStr) (m : Machine) (ctx : RuntimeCtx) (g : Getopt.State) :
    Option (CliScript Ending) :=
  match g.argv[g.optind]? with
  | none => some do
      printUsage prog
      return .exits 1
  | some cmd =>
      -- Check for root privileges
      if m.euid ≠ 0 then some do
        complain "Error: cruntime requires root privileges\n".toList
        return .exits 1
      else (commandScript prog m ctx cmd { g with optind := g.optind + 1 }).map fun command => do
        -- Initialize runtime
        unless ← issue (.runtimeInit ctx) do
          complain "Failed to initialize runtime\n".toList
          return .exits 1
        match ← command with
        | .exits ret =>
            let _ ← issue .runtimeCleanup
            return .exits ret
        | .crashes => return .crashes

/-- `main`; `none` when the fuel runs out. -/
def mainScript (m : Machine) (argv : List CStr) : Option (CliScript Ending) :=
  let prog := argv.headD []
  let g := Getopt.State.fresh argv
  (Getopt.loop mainOptstring mainLongOptions mainStops (g.remaining + 1) g defaultCtx).bind fun
    | .error .help => some do
        printUsage prog
        return .exits 0
    | .error .version => some do
        printVersion
        return .exits 0
    | .error .badOption => some do
        printUsage prog
        return .exits 1
    | .ok (ctx, g) => dispatchScript prog m ctx g

/-! ### The protocol -/

/-- What has become of the one container. -/
inductive Stage where
  | none
  | refused
  | created
  -- `container_start` has failed
  | failed (deleted : Bool)
  | running
  -- `waitpid` has returned; it failed unless the container has exited
  | waited (exited deleted : Bool)
deriving DecidableEq

namespace Stage

/-- `container_start` has returned `CR_OK`. -/
def started : Stage → Bool
  | .running => true
  | .waited _ _ => true
  | _ => false

def startFailed : Stage → Bool
  | .failed _ => true
  | _ => false

/-- `waitpid` has been called. -/
def waitedFor : Stage → Bool
  | .waited _ _ => true
  | _ => false

/-- `container_delete` has been called. -/
def deleted : Stage → Bool
  | .failed deleted => deleted
  | .waited _ deleted => deleted
  | _ => false

/-- The calls for the container that are allowed. -/
def next : Stage → CliAct → Bool → Option Stage
  | .none, .containerCreate _, ok => some (if ok then .created else .refused)
  | .created, .containerStart, ok => some (if ok then .running else .failed false)
  | .failed false, .containerDelete, _ => some (.failed true)
  | .running, .waitpid, ok => some (.waited ok false)
  | .waited exited false, .containerDelete, _ => some (.waited exited true)
  | _, _, _ => none

end Stage

inductive RuntimeStage where
  | outside
  -- `runtime_init` has failed
  | unavailable
  | inside (container : Stage)
  | closed (container : Stage)
deriving DecidableEq

/-- The calls that are allowed. -/
def advance : RuntimeStage → CliAct → Bool → Option RuntimeStage
  | s, .print _, _ => some s
  | s, .eprint _, _ => some s
  | .outside, .runtimeInit _, ok => some (if ok then .inside .none else .unavailable)
  | .inside c, .runtimeCleanup, _ => some (.closed c)
  | .inside c, act, ok => (c.next act ok).map .inside
  | _, _, _ => none

/-- The words of the command `run` have a `-e` or a `--env` among the options. -/
def GivesEnv (argv : List CStr) : Prop :=
  ∃ rs g rs' stop, Getopt.scan mainOptstring mainLongOptions
      ((Getopt.State.fresh argv).remaining + 1) (Getopt.State.fresh argv) = some (rs, some g) ∧
    g.argv[g.optind]? = some "run".toList ∧
    runOptions { g with optind := g.optind + 1 } = some (rs', stop) ∧ argsOf 'e' rs' ≠ []

/-- What may be left when the program has ended; it crashes only at a variable. -/
def MayLeave (env : Prop) : Ending → RuntimeStage → Prop
  | .crashes, s => s = .inside .none ∧ env
  | .exits code, .closed c =>
      c = .none ∨ c = .refused ∨ c = .failed true ∨ c.started = true ∧ code = 0
  | .exits _, .inside _ => False
  | .exits _, _ => True

/-- What `cmd_run` leaves behind, and its code, when it has got as far as `container_create`.  The
exit status is 0 exactly when the container was started.  It was waited for exactly when it was
started and not detached, and deleted exactly when the start failed, or when it was waited for
and was to be removed.  What `waitpid` returned is not looked at. -/
structure Accounted (st : RunState) (e : Ending) (c : Stage) : Prop where
  tried : c ≠ .none ∧ c ≠ .created
  exits : e = .exits 0 ∨ e = .exits 1
  zero : e = .exits 0 ↔ c.started = true
  waited : c.waitedFor = true ↔ c.started = true ∧ st.detach = false
  deleted : c.deleted = true ↔
    c.startFailed = true ∨ c.waitedFor = true ∧ st.autoRemove = true

theorem Accounted.mayLeave {st : RunState} {e : Ending} {c : Stage} (h : Accounted st e c)
    (env : Prop) : MayLeave env e (.closed c) := by
  obtain ⟨code, rfl⟩ : ∃ code, e = .exits code := by
    rcases h.exits with rfl | rfl <;> exact ⟨_, rfl⟩
  cases c with
  | none => exact absurd rfl h.tried.1
  | refused => exact Or.inr (Or.inl rfl)
  | created => exact absurd rfl h.tried.2
  | failed deleted =>
      obtain rfl : deleted = true := h.deleted.mpr (Or.inl rfl)
      exact Or.inr (Or.inr (Or.inl rfl))
  | running => exact Or.inr (Or.inr (Or.inr ⟨rfl, Ending.exits.inj (h.zero.mpr rfl)⟩))
  | waited exited deleted =>
      exact Or.inr (Or.inr (Or.inr ⟨rfl, Ending.exits.inj (h.zero.mpr rfl)⟩))

theorem complain_obeys {text : CStr} {f : Unit → CliScript Ending} {s : RuntimeStage}
    {Q : Ending → RuntimeStage → Prop} (h : (f ()).Obeys advance Q s) :
    (complain text >>= f).Obeys advance Q s := by
  intro ok
  refine ⟨s, ?_, h⟩
  cases s <;> rfl

theorem printUsage_obeys {prog : CStr} {f : Unit → CliScript Ending} {s : RuntimeStage}
    {Q : Ending → RuntimeStage → Prop} (h : (f ()).Obeys advance Q s) :
    (printUsage prog >>= f).Obeys advance Q s := by
  intro ok
  refine ⟨s, ?_, h⟩
  cases s <;> rfl

/-- The container is accounted for, whatever the calls answer. -/
theorem createAndStart_obeys (st : RunState) :
    (createAndStart st).Obeys advance (fun e s => ∃ c, s = .inside c ∧ Accounted st e c)
      (.inside .none) := by
  intro created
  cases created with
  | false =>
      exact ⟨_, rfl, complain_obeys ⟨.refused, rfl, by constructor <;> simp [Stage.started,
        Stage.waitedFor, Stage.deleted, Stage.startFailed]⟩⟩
  | true =>
      refine ⟨_, rfl, ?_⟩
      intro _
      refine ⟨_, rfl, ?_⟩
      intro started
      cases started with
      | false =>
          refine ⟨_, rfl, complain_obeys ?_⟩
          intro _
          exact ⟨_, rfl, .failed true, rfl, by constructor <;> simp [Stage.started,
            Stage.waitedFor, Stage.deleted, Stage.startFailed]⟩
      | true =>
          refine ⟨_, rfl, ?_⟩
          cases hdetach : st.detach with
          | true =>
              exact ⟨.running, rfl, by constructor <;> simp [Stage.started, Stage.waitedFor,
                Stage.deleted, Stage.startFailed, hdetach]⟩
          | false =>
              intro exited
              refine ⟨_, rfl, ?_⟩
              cases hrm : st.autoRemove with
              | true =>
                  intro _
                  exact ⟨_, rfl, .waited exited true, rfl, by constructor <;> simp [Stage.started,
                    Stage.waitedFor, Stage.deleted, Stage.startFailed, hdetach, hrm]⟩
              | false =>
                  exact ⟨.waited exited false, rfl, by constructor <;> simp [Stage.started,
                    Stage.waitedFor, Stage.deleted, Stage.startFailed, hdetach, hrm]⟩

/-! ### From the arguments on -/

/-- **What `cmd_run` does**: it crashes at a variable, or it ends before there is a container, or
it creates and starts what the parser has found. -/
theorem cmdRunScript_cases (m : Machine) (ctx : RuntimeCtx) {g : Getopt.State}
    (hg : Getopt.Settled g) :
    ∃ rs stop, runOptions g = some (rs, stop) ∧
      (argsOf 'e' rs ≠ [] ∧ cmdRun m ctx g = some .crashes ∧
          cmdRunScript m ctx g = some (.ret .crashes) ∨
        cmdRun m ctx g = some (.returns 1) ∧
          (cmdRunScript m ctx g = some (.ret (.exits 1)) ∨
            cmdRunScript m ctx g = some (complain "Error: missing image name\n".toList >>=
              fun _ => .ret (.exits 1))) ∨
        ∃ st, cmdRun m ctx g = some (.creates st) ∧
          cmdRunScript m ctx g = some (createAndStart st)) := by
  obtain ⟨⟨rs, stop⟩, hx⟩ := runOptions_isSome hg
  have hbad : ∀ st, runBody m st .unknown = .error (.returns 1) := fun _ => rfl
  have hscript : cmdRunScript m ctx g = some (afterOptions ctx
      (Getopt.outcome (runBody m) (.returns 1) (runStart m) (rs, stop))) := by
    unfold cmdRunScript
    rw [Getopt.loop_eq hbad _ _ hx]
    rfl
  refine ⟨rs, stop, hx, ?_⟩
  rw [cmdRun_eq m ctx hx, hscript]
  rcases runBody_fold m (runOptions_known hg hx) (noEnv_runStart m) with
    ⟨henv, hfold⟩ | ⟨-, st, hfold, -⟩
  · rw [Getopt.outcome_error hfold]
    exact Or.inl ⟨henv, rfl, rfl⟩
  · cases stop with
    | none =>
        rw [Getopt.outcome_bad hfold]
        exact Or.inr (Or.inl ⟨rfl, Or.inl rfl⟩)
    | some g' =>
        rw [Getopt.outcome_ok hfold]
        unfold afterLoop afterOptions
        dsimp only
        cases g'.argv.drop g'.optind with
        | nil => exact Or.inr (Or.inl ⟨rfl, Or.inr rfl⟩)
        | cons image command => exact Or.inr (Or.inr ⟨_, rfl, rfl⟩)

/-- What `main` sees of a command: the container is accounted for, or there is none. -/
def CommandDone (env : Prop) (e : Ending) (s : RuntimeStage) : Prop :=
  ∃ c, s = .inside c ∧ (e = .crashes → c = .none ∧ env) ∧ (∀ code, e = .exits code →
    MayLeave env (.exits code) (.closed c))

theorem Accounted.commandDone {st : RunState} {e : Ending} {s : RuntimeStage} (env : Prop)
    (h : ∃ c, s = .inside c ∧ Accounted st e c) : CommandDone env e s := by
  obtain ⟨c, rfl, hc⟩ := h
  refine ⟨c, rfl, ?_, ?_⟩
  · rintro rfl
    rcases hc.exits with h | h <;> cases h
  · rintro code rfl
    exact hc.mayLeave env

theorem commandDone_none (env : Prop) (code : Int) :
    CommandDone env (.exits code) (.inside .none) :=
  ⟨.none, rfl, (fun h => by cases h), fun _ _ => Or.inl rfl⟩

/-- Every command keeps to the protocol. -/
theorem commandScript_obeys (prog : CStr) (m : Machine) (ctx : RuntimeCtx) (cmd : CStr)
    {g : Getopt.State} (hg : Getopt.Settled g) {env : Prop}
    (henv : cmd = "run".toList → ∀ rs stop, runOptions g = some (rs, stop) →
      argsOf 'e' rs ≠ [] → env) :
    ∃ p, commandScript prog m ctx cmd g = some p ∧
      p.Obeys advance (CommandDone env) (.inside .none) := by
  unfold commandScript
  split_ifs with hrun hps
  · obtain ⟨rs, stop, hoptions, ⟨hgiven, -, hscript⟩ | ⟨-, hscript | hscript⟩ | ⟨st, -, hscript⟩⟩ :=
      cmdRunScript_cases m ctx hg
    · exact ⟨_, hscript, .none, rfl, (fun _ => ⟨rfl, henv hrun rs stop hoptions hgiven⟩),
        fun _ h => by cases h⟩
    · exact ⟨_, hscript, commandDone_none env 1⟩
    · exact ⟨_, hscript, complain_obeys (commandDone_none env 1)⟩
    · exact ⟨_, hscript, Script.obeys_mono (fun _ _ => Accounted.commandDone env)
        (createAndStart_obeys st)⟩
  · refine ⟨_, rfl, ?_⟩
    intro _
    refine ⟨_, rfl, ?_⟩
    intro _
    exact ⟨_, rfl, commandDone_none env 0⟩
  · exact ⟨_, rfl, complain_obeys (printUsage_obeys (commandDone_none env 1))⟩

/-- From the command on. -/
theorem dispatchScript_obeys (prog : CStr) (m : Machine) (ctx : RuntimeCtx) {g : Getopt.State}
    (hg : Getopt.Settled g) {env : Prop}
    (henv : g.argv[g.optind]? = some "run".toList → ∀ rs stop,
      runOptions { g with optind := g.optind + 1 } = some (rs, stop) → argsOf 'e' rs ≠ [] → env) :
    ∃ p, dispatchScript prog m ctx g = some p ∧ p.Obeys advance (MayLeave env) .outside := by
  unfold dispatchScript
  cases hcmd : g.argv[g.optind]? with
  | none => exact ⟨_, rfl, printUsage_obeys trivial⟩
  | some cmd =>
      dsimp only
      split_ifs
      · exact ⟨_, rfl, complain_obeys trivial⟩
      · obtain ⟨p, hp, hobeys⟩ := commandScript_obeys prog m ctx cmd (settled_next hg)
          (fun hrun => henv (hcmd.trans (congrArg some hrun)))
        rw [hp]
        refine ⟨_, rfl, ?_⟩
        intro ok
        cases ok with
        | false => exact ⟨_, rfl, complain_obeys trivial⟩
        | true =>
            refine ⟨.inside .none, rfl, ?_⟩
            show Script.Obeys advance (p >>= _) (MayLeave env) (.inside .none)
            refine Script.obeys_bind (Script.obeys_mono ?_ hobeys)
            rintro e s ⟨c, rfl, hcrash, hexits⟩
            cases e with
            | crashes =>
                obtain ⟨hnone, hgiven⟩ := hcrash rfl
                exact ⟨congrArg RuntimeStage.inside hnone, hgiven⟩
            | exits code =>
                intro _
                exact ⟨.closed c, rfl, hexits code rfl⟩

/-- The parser as the loop of `main` leaves it. -/
theorem mainScript_eq (argv : List CStr) :
    ∃ x, Getopt.scan mainOptstring mainLongOptions
        ((Getopt.State.fresh argv).remaining + 1) (Getopt.State.fresh argv) = some x ∧
      (∀ g, x.2 = some g → Getopt.Settled g) ∧
      Getopt.loop mainOptstring mainLongOptions mainStops
          ((Getopt.State.fresh argv).remaining + 1) (Getopt.State.fresh argv) defaultCtx =
        some (Getopt.outcome mainStops .badOption defaultCtx x) := by
  have hfresh : Getopt.Ordered ((Getopt.State.fresh argv).init mainOptstring) :=
    Getopt.ordered_fresh argv _
  obtain ⟨x, hx⟩ := @Getopt.scan_isSome mainOptstring mainLongOptions
    ((Getopt.State.fresh argv).remaining + 1) _ hfresh (Nat.lt_succ_self _)
  have hbad : ∀ ctx, mainStops ctx .unknown = .error .badOption := fun _ => rfl
  have hx' := hx
  rw [Getopt.scan_init] at hx'
  refine ⟨x, hx', ?_, Getopt.loop_eq hbad _ _ hx'⟩
  intro g hg
  obtain ⟨rs, stop⟩ := x
  obtain rfl : stop = some g := hg
  exact Getopt.scan_settled _ hfresh Nat.one_pos hx

/-- **The program keeps to the protocol**, for every vector of arguments and whatever the runtime
answers.  When it exits it has cleaned up the runtime that it initialized, and a container that
was created is deleted, or it was started and the exit status is 0.  It crashes only when the
words of `run` have a variable among the options. -/
theorem main_keeps_protocol (m : Machine) (argv : List CStr) (answers : Nat → Bool) :
    ∃ p s, mainScript m argv = some p ∧
      Script.accepts advance .outside (p.trace answers).2 = some s ∧
      MayLeave (GivesEnv argv) (p.trace answers).1 s := by
  obtain ⟨x, hx, hsettled, hloop⟩ := mainScript_eq argv
  obtain ⟨p, hp, hobeys⟩ : ∃ p, mainScript m argv = some p ∧
      p.Obeys advance (MayLeave (GivesEnv argv)) .outside := by
    unfold mainScript
    dsimp only
    rw [hloop, Option.bind_some]
    obtain ⟨rs, stop⟩ := x
    cases hfold : rs.foldlM mainStops defaultCtx with
    | error stopped =>
        rw [Getopt.outcome_error hfold]
        cases stopped with
        | help => exact ⟨_, rfl, printUsage_obeys trivial⟩
        | version => exact ⟨_, rfl, fun _ => ⟨_, rfl, trivial⟩⟩
        | badOption => exact ⟨_, rfl, printUsage_obeys trivial⟩
    | ok ctx =>
        cases stop with
        | none =>
            rw [Getopt.outcome_bad hfold]
            exact ⟨_, rfl, printUsage_obeys trivial⟩
        | some g =>
            rw [Getopt.outcome_ok hfold]
            exact dispatchScript_obeys _ m ctx (hsettled g rfl)
              fun hrun rs' stop' hoptions hgiven =>
                ⟨rs, g, rs', stop', hx, hrun, hoptions, hgiven⟩
  obtain ⟨s, haccepts, hleft⟩ := Script.accepts_trace answers hobeys
  exact ⟨p, s, hp, haccepts, hleft⟩

/-! ### A run that creates a container -/

theorem mainStops_of_ok {rs : List Result} : ∀ {ctx ctx' : RuntimeCtx},
    rs.foldlM mainBody ctx = .ok ctx' → rs.foldlM mainStops ctx = .ok ctx' := by
  induction rs with
  | nil => intro ctx ctx' h; exact congrArg Except.ok (Except.ok.inj h)
  | cons r rest ih =>
      intro ctx ctx' h
      rw [List.foldlM_cons] at h ⊢
      cases hbody : mainBody ctx r with
      | error code => rw [hbody] at h; cases h
      | ok next =>
          rw [hbody] at h
          have hstops : mainStops ctx r = .ok next := by
            unfold mainBody at hbody
            unfold mainStops
            split at hbody
            · cases hbody
            · cases hbody
            · exact congrArg Except.ok (Except.ok.inj hbody)
            · exact congrArg Except.ok (Except.ok.inj hbody)
            · cases hbody
          rw [hstops]
          exact ih h

/-- `main` once it has a container to create. -/
theorem mainScript_of_runs {m : Machine} {argv : List CStr} {st : RunState}
    (hruns : main m argv = some (.runs (.creates st))) :
    ∃ ctx p, mainScript m argv = some p ∧ p = .exec (.runtimeInit ctx) fun ok =>
      if ok then createAndStart st >>= fun e =>
        match e with
        | .exits ret => .exec .runtimeCleanup fun _ => .ret (.exits ret)
        | .crashes => .ret .crashes
      else complain "Failed to initialize runtime\n".toList >>= fun _ => .ret (.exits 1) := by
  obtain ⟨x, hx, hsettled, hloop⟩ := mainScript_eq argv
  rw [main_eq m hx] at hruns
  unfold mainScript
  dsimp only
  rw [hloop, Option.bind_some]
  obtain ⟨rs, stop⟩ := x
  cases hfold : rs.foldlM mainBody defaultCtx with
  | error code =>
      rw [Getopt.outcome_error hfold] at hruns
      cases hruns
  | ok ctx =>
      cases stop with
      | none =>
          rw [Getopt.outcome_bad hfold] at hruns
          cases hruns
      | some g =>
          rw [Getopt.outcome_ok hfold] at hruns
          rw [Getopt.outcome_ok (mainStops_of_ok hfold)]
          dsimp only at hruns ⊢
          unfold dispatch at hruns
          unfold dispatchScript
          cases hcmd : g.argv[g.optind]? with
          | none =>
              rw [hcmd] at hruns
              cases hruns
          | some cmd =>
              rw [hcmd] at hruns
              dsimp only at hruns ⊢
              split_ifs at hruns with heuid hinit hrun
              · cases hruns
              · cases hruns
              · obtain ⟨out, hcmdRun, hout⟩ := Option.map_eq_some_iff.mp hruns
                obtain rfl : out = .creates st := MainOutcome.runs.inj hout
                unfold commandScript
                rw [if_neg heuid, if_pos hrun]
                obtain ⟨rs', stop, -, ⟨-, hcrash, -⟩ | ⟨hreturns, -⟩ | ⟨st', hcreates, hscript⟩⟩ :=
                  cmdRunScript_cases m ctx (settled_next (hsettled g rfl))
                · rw [hcrash] at hcmdRun
                  cases hcmdRun
                · rw [hreturns] at hcmdRun
                  cases hcmdRun
                · rw [hcreates] at hcmdRun
                  obtain rfl := RunOutcome.creates.inj (Option.some.inj hcmdRun)
                  rw [hscript]
                  exact ⟨ctx, _, rfl, rfl⟩
              · cases hruns
              · cases hruns

/-- What a run of the program comes to create. -/
def toCreate : Option MainOutcome → Option RunState
  | some (.runs (.creates st)) => some st
  | _ => none

theorem toCreate_eq_some {out : Option MainOutcome} {st : RunState} (h : toCreate out = some st) :
    out = some (.runs (.creates st)) := by
  unfold toCreate at h
  split at h
  · rw [Option.some.inj h]
  · cases h

/-- **The account of a container**: unless the runtime cannot be initialized, the program exits
with 0 exactly when the container was started; it has waited for it exactly when it was started
and not detached, and deleted it exactly when the start failed, or when it was to remove it and
has waited. -/
theorem run_accounted {m : Machine} {argv : List CStr} {st : RunState}
    (hruns : main m argv = some (.runs (.creates st))) (answers : Nat → Bool) :
    ∃ p s, mainScript m argv = some p ∧
      Script.accepts advance .outside (p.trace answers).2 = some s ∧
      (s = .unavailable ∧ (p.trace answers).1 = .exits 1 ∨
        ∃ c, s = .closed c ∧ Accounted st (p.trace answers).1 c) := by
  obtain ⟨ctx, p, hp, rfl⟩ := mainScript_of_runs hruns
  have hobeys : Script.Obeys advance (.exec (.runtimeInit ctx) fun ok =>
      if ok then createAndStart st >>= fun e =>
        match e with
        | .exits ret => .exec .runtimeCleanup fun _ => .ret (.exits ret)
        | .crashes => .ret .crashes
      else complain "Failed to initialize runtime\n".toList >>= fun _ => .ret (.exits 1))
      (fun e s => s = .unavailable ∧ e = .exits 1 ∨ ∃ c, s = .closed c ∧ Accounted st e c)
      .outside := by
    intro ok
    cases ok with
    | false => exact ⟨_, rfl, complain_obeys (Or.inl ⟨rfl, rfl⟩)⟩
    | true =>
        refine ⟨.inside .none, rfl, ?_⟩
        refine Script.obeys_bind (Script.obeys_mono ?_ (createAndStart_obeys st))
        rintro e s ⟨c, rfl, hc⟩
        cases e with
        | crashes => rcases hc.exits with h | h <;> cases h
        | exits code =>
            intro _
            exact ⟨.closed c, rfl, Or.inr ⟨c, rfl, hc⟩⟩
  obtain ⟨s, haccepts, hs⟩ := Script.accepts_trace answers hobeys
  exact ⟨_, s, hp, haccepts, hs⟩

/-- `cruntime run --rm ubuntu`, with every call answered by `CR_OK`: the container is deleted. -/
theorem removed_after_wait :
    let m : Machine := ⟨[], 0, 0, 0, .ok, 0⟩
    let argv := ["cruntime".toList, "run".toList, "--rm".toList, "ubuntu".toList]
    ∃ p s, mainScript m argv = some p ∧
      Script.accepts advance .outside (p.trace fun _ => true).2 = some s ∧
      (s = .unavailable ∧ (p.trace fun _ => true).1 = .exits 1 ∨
        ∃ c, s = .closed c ∧ ∃ st, st.autoRemove = true ∧
          Accounted st (p.trace fun _ => true).1 c) := by
  intro m argv
  obtain ⟨st, hruns, hrm⟩ : ∃ st, main m argv = some (.runs (.creates st)) ∧
      st.autoRemove = true := by
    have hcheck : (toCreate (main m argv)).map (·.autoRemove) = some true := by decide +kernel
    obtain ⟨st, hst, hrm⟩ := Option.map_eq_some_iff.mp hcheck
    exact ⟨st, toCreate_eq_some hst, hrm⟩
  obtain ⟨p, s, hp, haccepts, hs⟩ := run_accounted hruns fun _ => true
  refine ⟨p, s, hp, haccepts, hs.imp_right ?_⟩
  rintro ⟨c, hc, haccounted⟩
  exact ⟨c, hc, st, hrm, haccounted⟩

end Cruntime
