/-
`main`, and the two loops over one vector of arguments.

The first loop asks to stop at the first operand, which is the command; the second one
finds the parser as the first left it.  So it stops at the first operand too, which is the
image, and no argument of the command is taken for an option.

The parser also remembers that the first loop has met a `--`: everything behind it counts
as operands that were skipped.  `main` then takes the command by hand.  When the second
list of options is closed by a `--` as well, the parser moves its options in front of the
operand it believes to have skipped, and `run` itself ends up where the image is looked
for.
-/
import Cruntime.CmdRun
import Cruntime.Lib.OptionWords

namespace Cruntime

open Getopt (LongOption Result Reads)

/-! ### The function -/

/-- The short options of `main`. -/
def mainOptstring : CStr := "+hvd:".toList

/-- `long_options` of `main`. -/
def mainLongOptions : List LongOption :=
  [⟨"help".toList, false, some 'h'⟩,
    ⟨"version".toList, false, some 'v'⟩,
    ⟨"runtime-dir".toList, true, some 'd'⟩,
    ⟨"debug".toList, false, none⟩]

/-- The body of the loop.  All that `--debug` changes is what is logged. -/
def mainBody (ctx : RuntimeCtx) : Result → Except Int RuntimeCtx
  | .opt 'h' none => .error 0
  | .opt 'v' none => .error 0
  | .opt 'd' (some arg) => .ok { ctx with runtimeDir := strncpy arg 4095 }
  | .long _ _ => .ok ctx
  | _ => .error 1

/-- What `main` comes to: it calls `cmd_run`, or it returns without. -/
inductive MainOutcome where
  | runs (out : RunOutcome)
  | returns (code : Int)
deriving DecidableEq

/-- What follows the loop. -/
def dispatch (m : Machine) (ctx : RuntimeCtx) (g : Getopt.State) : Option MainOutcome :=
  match g.argv[g.optind]? with
  | none => some (.returns 1)
  | some cmd =>
      if m.euid ≠ 0 then some (.returns 1)
      else if m.runtimeInit ≠ .ok then some (.returns 1)
      else if cmd = "run".toList then
        (cmdRun m ctx { g with optind := g.optind + 1 }).map .runs
      else if cmd = "ps".toList then some (.returns 0)
      else some (.returns 1)

/-- `main`; `none` when the fuel runs out. -/
def main (m : Machine) (argv : List CStr) : Option MainOutcome :=
  let g := Getopt.State.fresh argv
  match Getopt.loop mainOptstring mainLongOptions mainBody (g.remaining + 1) g defaultCtx with
  | none => none
  | some (.error code) => some (.returns code)
  | some (.ok (ctx, g)) => dispatch m ctx g

/-! ### The vector -/

/-- A list of options may be closed. -/
def dashes (closed : Bool) : List CStr := if closed then ["--".toList] else []

/-- `PROG GLOBAL-OPTIONS run RUN-OPTIONS IMAGE CMD ARGS...` -/
def commandLine (prog : CStr) (globals : List CStr) (closed : Bool) (options : List CStr)
    (closed' : Bool) (image cmd : CStr) (args : List CStr) : List CStr :=
  prog :: (globals ++ (dashes closed ++
    "run".toList :: (options ++ (dashes closed' ++ image :: cmd :: args))))

/-! ### The loop of `main` -/

/-- Where the loop of `main` leaves the parser: at the command, with the range of operands it
sets up at a `--`. -/
structure AtCommand (argv : List CStr) (closed : Bool) (tail : List CStr) (g : Getopt.State) :
    Prop where
  settled : Getopt.Settled g
  argv_eq : g.argv = argv
  ahead : g.argv.drop g.optind = tail
  range : if closed then g.firstNonopt = g.optind ∧ g.lastNonopt = g.argv.length
    else g.firstNonopt = g.lastNonopt ∧ g.lastNonopt ≤ g.optind

theorem main_scan {prog : CStr} {globals : List CStr} {rs : List Result} {closed : Bool}
    {cmd : CStr} {tail : List CStr}
    (hglobals : Reads (Getopt.optionsOf mainOptstring) mainLongOptions [] globals rs)
    (hcmd : Getopt.isOperand cmd = true) :
    ∃ n g, Getopt.scan mainOptstring mainLongOptions n
        (Getopt.State.fresh (prog :: (globals ++ (dashes closed ++ cmd :: tail)))) =
          some (rs, some g) ∧
      AtCommand (prog :: (globals ++ (dashes closed ++ cmd :: tail))) closed (cmd :: tail) g := by
  have hfresh : Getopt.Ordered ((Getopt.State.fresh
      (prog :: (globals ++ (dashes closed ++ cmd :: tail)))).init mainOptstring) :=
    Getopt.ordered_fresh _ _
  obtain ⟨g, hmoved, hnext, hahead, hscan⟩ :=
    Getopt.scan_reads hglobals (dashes closed ++ cmd :: tail) _ hfresh rfl rfl
  have hg := hmoved.ordered hfresh
  have hrange : g.firstNonopt = g.lastNonopt := hmoved.first.trans hmoved.last.symm
  refine ⟨rs.length + 1, ?_⟩
  rw [← Getopt.scan_init]
  cases closed with
  | false =>
      have hstop := @Getopt.scan_operand mainOptstring mainLongOptions g hg hnext cmd tail hahead
        hcmd 0
      refine ⟨g, Getopt.scan_stop hscan hstop, ⟨hg.initialized, hg.order, hg.pos, hnext⟩,
        hmoved.argv, ?_, hrange, hg.last⟩
      rw [← Getopt.ahead_of_nil hnext]
      exact hahead
  | true =>
      have hstop := @Getopt.scan_dashes mainOptstring mainLongOptions g hg hnext (cmd :: tail) hahead
        hrange 0
      refine ⟨_, Getopt.scan_stop hscan hstop, ⟨hg.initialized, hg.order, Nat.succ_pos _, hnext⟩,
        hmoved.argv, ?_, rfl, rfl⟩
      rw [Getopt.ahead_of_nil hnext] at hahead
      exact (Getopt.drop_succ_of_drop hahead).2

/-! ### The loop of `cmd_run` -/

section

variable {g : Getopt.State} {options : List CStr} {rs : List Result}

/-- The options of a settled parser, whatever the fuel they were read with. -/
theorem runOptions_of_scan (hg : Getopt.Settled g) {n : Nat}
    {x : List Result × Option Getopt.State}
    (h : Getopt.scan runOptstring runLongOptions n g.clamp = some x) : runOptions g = some x := by
  obtain ⟨y, hy⟩ := runOptions_isSome hg
  rw [Getopt.scan_clamp hg] at h
  rw [hy, Getopt.scan_unique hy h]

/-- Behind the words of the options, what the parser does next ends the reading. -/
theorem runOptions_reads (hg : Getopt.Settled g)
    (hoptions : Reads runOptstring runLongOptions [] options rs) {rest : List CStr}
    (hahead : g.argv.drop g.optind = options ++ rest) :
    ∃ g', Getopt.MovedOn g.clamp g' ∧ Getopt.Ordered g' ∧ g'.nextchar = [] ∧ g'.ahead = rest ∧
      ∀ stop, Getopt.scan runOptstring runLongOptions (0 + 1) g' = some ([], stop) →
        runOptions g = some (rs, stop) := by
  have hclamp := hg.ordered_clamp
  obtain ⟨g', hmoved, hnext, hahead', hscan⟩ :=
    @Getopt.scan_reads runOptstring _ _ _ _ hoptions rest _ hclamp hg.nextchar
      ((Getopt.ahead_of_nil hg.nextchar).trans hahead)
  exact ⟨g', hmoved, hmoved.ordered hclamp, hnext, hahead', fun stop hstop =>
    runOptions_of_scan hg (Getopt.scan_stop hscan hstop)⟩

/-- The run options end at the image. -/
theorem runOptions_operand (hg : Getopt.Settled g)
    (hoptions : Reads runOptstring runLongOptions [] options rs) {image : CStr} {tail : List CStr}
    (hahead : g.argv.drop g.optind = options ++ image :: tail)
    (himage : Getopt.isOperand image = true) :
    ∃ g', runOptions g = some (rs, some g') ∧ g'.argv.drop g'.optind = image :: tail := by
  obtain ⟨g', -, hordered, hnext, hahead', hreads⟩ := runOptions_reads hg hoptions hahead
  have hstop := @Getopt.scan_operand runOptstring runLongOptions g' hordered hnext image tail
    hahead' himage 0
  refine ⟨g', hreads _ hstop, ?_⟩
  rw [← Getopt.ahead_of_nil hnext]
  exact hahead'

/-- They end behind a `--` if it is the first one. -/
theorem runOptions_dashes (hg : Getopt.Settled g)
    (hoptions : Reads runOptstring runLongOptions [] options rs) {tail : List CStr}
    (hahead : g.argv.drop g.optind = options ++ "--".toList :: tail)
    (hrange : g.firstNonopt = g.lastNonopt) :
    ∃ g', runOptions g = some (rs, some g') ∧ g'.argv.drop g'.optind = tail := by
  obtain ⟨g', hmoved, hordered, hnext, hahead', hreads⟩ := runOptions_reads hg hoptions hahead
  have hrange' : g'.firstNonopt = g'.lastNonopt := by
    rw [hmoved.first, hmoved.last]
    show min _ _ = min _ _
    rw [hrange]
  have hstop := @Getopt.scan_dashes runOptstring runLongOptions g' hordered hnext tail hahead'
    hrange' 0
  refine ⟨_, hreads _ hstop, ?_⟩
  rw [Getopt.ahead_of_nil hnext] at hahead'
  exact (Getopt.drop_succ_of_drop hahead').2

/-- Behind a second `--` the element that was taken by hand comes first. -/
theorem runOptions_dashes_again (hg : Getopt.Settled g)
    (hoptions : Reads runOptstring runLongOptions [] options rs) {cmd : CStr} {tail : List CStr}
    (hcmd : g.argv.drop g.firstNonopt = cmd :: (options ++ "--".toList :: tail))
    (hfirst : g.optind = g.firstNonopt + 1) (hlast : g.optind ≤ g.lastNonopt) :
    ∃ g', runOptions g = some (rs, some g') ∧ g'.argv.drop g'.optind = cmd :: tail := by
  obtain ⟨hhead, hahead⟩ := Getopt.drop_succ_of_drop hcmd
  rw [← hfirst] at hahead
  obtain ⟨g', hmoved, hordered, hnext, hahead', hreads⟩ := runOptions_reads hg hoptions hahead
  have hargv : g'.argv = g.argv := hmoved.argv
  have hfirst' : g'.firstNonopt = g.firstNonopt := by
    rw [hmoved.first]
    show min g.firstNonopt g.optind = _
    omega
  have hlast' : g'.lastNonopt = g.firstNonopt + 1 := by
    rw [hmoved.last]
    show min g.lastNonopt g.optind = _
    omega
  have hplace : g.optind ≤ g'.optind := hmoved.optind
  have hstop := @Getopt.scan_dashes_again runOptstring runLongOptions g' hordered hnext tail hahead'
    (by omega) 0
  refine ⟨_, hreads _ hstop, ?_⟩
  rw [Getopt.ahead_of_nil hnext] at hahead'
  have hlen : g'.optind < g'.argv.length := by
    by_contra hnot
    rw [List.drop_eq_nil_iff.mpr (by omega)] at hahead'
    simp at hahead'
  -- what was read is moved in front, and the command is what comes next
  have hread : (g'.argv.take g'.firstNonopt ++
      (g'.argv.drop g'.lastNonopt).take (g'.optind + 1 - g'.lastNonopt)).length
      = g'.firstNonopt + (g'.optind + 1 - g'.lastNonopt) := by
    rw [List.length_append, List.length_take, List.length_take, List.length_drop]
    omega
  have hskipped : (g'.argv.drop g'.firstNonopt).take (g'.lastNonopt - g'.firstNonopt) = [cmd] := by
    rw [hargv, hfirst', hlast', hcmd, Nat.add_sub_cancel_left]
    rfl
  show (g'.argv.take g'.firstNonopt ++ (_ ++ (_ ++ tail))).drop _ = _
  rw [hskipped, ← List.append_assoc, ← hread, List.drop_left]
  rfl

end

/-! ### The command as it was given -/

/-- A container is created from this image with this command, and the rest of the configuration
and the flags are as the options leave them. -/
def RunsAsGiven (m : Machine) (options : List Result) (image cmd : CStr) (args : List CStr)
    (out : Option MainOutcome) : Prop :=
  ∃ st₀ st, options.foldlM (runBody m) (runStart m) = .ok st₀ ∧ out = some (.runs (.creates st)) ∧
    st.config.rootfs = snprintf 4096
      (defaultCtx.imageDir ++ "/images/".toList ++ image ++ "/rootfs".toList) ∧
    st.config.command = cmd ∧ st.config.args = cmd :: args ∧
    st.config.numArgs = (cmd :: args).length ∧
    st = { st₀ with config := { st₀.config with
      rootfs := st.config.rootfs
      command := st.config.command
      args := st.config.args
      numArgs := st.config.numArgs } }

theorem mainBody_imageDir {ctx ctx' : RuntimeCtx} {r : Result} (h : mainBody ctx r = .ok ctx') :
    ctx'.imageDir = ctx.imageDir := by
  unfold mainBody at h
  split at h
  · simp at h
  · simp at h
  · obtain rfl := Except.ok.inj h
    rfl
  · obtain rfl := Except.ok.inj h
    rfl
  · simp at h

theorem mainBody_fold_imageDir {rs : List Result} :
    ∀ {ctx ctx' : RuntimeCtx}, rs.foldlM mainBody ctx = .ok ctx' → ctx'.imageDir = ctx.imageDir := by
  induction rs with
  | nil =>
      intro ctx ctx' h
      obtain rfl := Except.ok.inj h
      rfl
  | cons r rest ih =>
      intro ctx ctx' h
      rw [List.foldlM_cons] at h
      cases hbody : mainBody ctx r with
      | error code => rw [hbody] at h; simp [bind, Except.bind] at h
      | ok next =>
          rw [hbody] at h
          exact (ih h).trans (mainBody_imageDir hbody)

/-- **`main` comes to an end**, and runs its body over its options. -/
theorem main_eq (m : Machine) {argv : List CStr} {n : Nat} {x : List Result × Option Getopt.State}
    (hx : Getopt.scan mainOptstring mainLongOptions n (Getopt.State.fresh argv) = some x) :
    main m argv = match Getopt.outcome mainBody 1 defaultCtx x with
      | .error code => some (.returns code)
      | .ok (ctx, g) => dispatch m ctx g := by
  have hfresh : Getopt.Ordered ((Getopt.State.fresh argv).init mainOptstring) :=
    Getopt.ordered_fresh argv _
  obtain ⟨y, hy⟩ := @Getopt.scan_isSome mainOptstring mainLongOptions
    ((Getopt.State.fresh argv).remaining + 1) _ hfresh (Nat.lt_succ_self _)
  rw [Getopt.scan_init] at hy
  obtain rfl := Getopt.scan_unique hx hy
  have hbad : ∀ ctx, mainBody ctx .unknown = .error 1 := fun _ => rfl
  unfold main
  dsimp only
  rw [Getopt.loop_eq hbad _ _ hy]
  cases Getopt.outcome mainBody 1 defaultCtx x <;> rfl

/-- A vector that gets as far as `cmd_run`: its global options are read, and `run` is what comes
behind them. -/
theorem main_runs {m : Machine} {argv : List CStr} {n : Nat} {x : List Result × Option Getopt.State}
    (hx : Getopt.scan mainOptstring mainLongOptions n (Getopt.State.fresh argv) = some x)
    {out : RunOutcome} (hruns : main m argv = some (.runs out)) :
    ∃ ctx g, x.2 = some g ∧ ctx.imageDir = defaultCtx.imageDir ∧
      cmdRun m ctx { g with optind := g.optind + 1 } = some out := by
  obtain ⟨gs, stop⟩ := x
  rw [main_eq m hx] at hruns
  cases hfold : gs.foldlM mainBody defaultCtx with
  | error code =>
      rw [Getopt.outcome_error hfold] at hruns
      simp at hruns
  | ok ctx =>
      cases stop with
      | none =>
          rw [Getopt.outcome_bad hfold] at hruns
          simp at hruns
      | some g =>
          rw [Getopt.outcome_ok hfold] at hruns
          refine ⟨ctx, g, rfl, mainBody_fold_imageDir hfold, ?_⟩
          unfold dispatch at hruns
          dsimp only at hruns
          split at hruns
          · simp at hruns
          · split_ifs at hruns
            · simp at hruns
            · simp at hruns
            · obtain ⟨out', hout, heq⟩ := Option.map_eq_some_iff.mp hruns
              obtain rfl := MainOutcome.runs.inj heq
              exact hout
            · simp at hruns
            · simp at hruns

theorem settled_next {g : Getopt.State} (hg : Getopt.Settled g) :
    Getopt.Settled { g with optind := g.optind + 1 } :=
  ⟨hg.initialized, hg.order, Nat.succ_pos _, hg.nextchar⟩

/-- **Whatever the vector, `main` calls `cmd_run` with a settled parser.** -/
theorem main_settled {m : Machine} {argv : List CStr} {out : RunOutcome}
    (hruns : main m argv = some (.runs out)) :
    ∃ ctx g, Getopt.Settled g ∧ cmdRun m ctx g = some out := by
  have hfresh : Getopt.Ordered ((Getopt.State.fresh argv).init mainOptstring) :=
    Getopt.ordered_fresh argv _
  obtain ⟨x, hx⟩ := @Getopt.scan_isSome mainOptstring mainLongOptions _ _ hfresh (Nat.lt_succ_self _)
  have hx' := hx
  rw [Getopt.scan_init] at hx'
  obtain ⟨ctx, g, hstop, -, hcmd⟩ := main_runs hx' hruns
  obtain ⟨gs, stop⟩ := x
  obtain rfl : stop = some g := hstop
  exact ⟨ctx, _, settled_next (Getopt.scan_settled _ hfresh Nat.one_pos hx), hcmd⟩

/-- The call of `cmd_run` with its options read, and the image and the command behind them. -/
theorem cmdRun_of_options (m : Machine) (ctx : RuntimeCtx) {g g' : Getopt.State}
    (hg : Getopt.Settled g) {rs : List Result} (hrun : runOptions g = some (rs, some g'))
    {image : CStr} {command : List CStr} (htail : g'.argv.drop g'.optind = image :: command) :
    (argsOf 'e' rs ≠ [] ∧ cmdRun m ctx g = some .crashes) ∨
      (argsOf 'e' rs = [] ∧ ∃ st, rs.foldlM (runBody m) (runStart m) = .ok st ∧
        cmdRun m ctx g =
          some (.creates { st with config := finishConfig ctx st.config image command })) := by
  rcases cmdRun_cases m ctx hg hrun with ⟨he, hcmd⟩ | ⟨he, hno, -⟩ |
    ⟨he, g₀, image₀, command₀, st, hstop, htail₀, hfold, -, hcmd⟩
  · exact Or.inl ⟨he, hcmd⟩
  · exact absurd hno (not_noImage htail)
  · obtain rfl := Option.some.inj hstop
    obtain ⟨rfl, rfl⟩ := List.cons.inj (htail.symm.trans htail₀)
    exact Or.inr ⟨he, st, hfold, hcmd⟩

/-- Where the run options end, in terms of what `main` and the loop before met: at the image, or
at `run` again behind a second `--`. -/
theorem runOptions_commandLine {argv : List CStr} {g : Getopt.State} {closed closed' : Bool}
    {options : List CStr} {rs : List Result} {image : CStr} {command : List CStr}
    (hg : AtCommand argv closed
      ("run".toList :: (options ++ (dashes closed' ++ image :: command))) g)
    (hoptions : Reads runOptstring runLongOptions [] options rs)
    (himage : closed' = true ∨ Getopt.isOperand image = true) :
    ∃ g', runOptions { g with optind := g.optind + 1 } = some (rs, some g') ∧
      g'.argv.drop g'.optind =
        if closed ∧ closed' then "run".toList :: image :: command else image :: command := by
  have hsettled := settled_next hg.settled
  have hahead := (Getopt.drop_succ_of_drop hg.ahead).2
  have hrange := hg.range
  cases closed' with
  | false =>
      have hoperand := himage.resolve_left (by simp)
      obtain ⟨g', hrun, htail⟩ := runOptions_operand hsettled hoptions hahead hoperand
      exact ⟨g', hrun, by simpa using htail⟩
  | true =>
      cases closed with
      | false =>
          obtain ⟨g', hrun, htail⟩ := runOptions_dashes hsettled hoptions hahead hrange.1
          exact ⟨g', hrun, by simpa using htail⟩
      | true =>
          obtain ⟨hfirst, hlast⟩ := hrange
          have hlen : g.optind < g.argv.length := by
            by_contra hnot
            have hnil := hg.ahead
            rw [List.drop_eq_nil_iff.mpr (by omega)] at hnil
            simp at hnil
          obtain ⟨g', hrun, htail⟩ := runOptions_dashes_again hsettled hoptions
            (hfirst ▸ hg.ahead) (show g.optind + 1 = g.firstNonopt + 1 by omega)
            (show g.optind + 1 ≤ g.lastNonopt by omega)
          exact ⟨g', hrun, by simpa using htail⟩

/-- **The command runs as it was given, if and only if at most one of the lists of options is
closed by a `--` and no variable is among the run options.** -/
theorem runsAsGiven_iff (m : Machine) {prog : CStr} {globals options : List CStr}
    {gs rs : List Result} {closed closed' : Bool} {image cmd : CStr} {args : List CStr}
    (hglobals : Reads (Getopt.optionsOf mainOptstring) mainLongOptions [] globals gs)
    (hoptions : Reads (Getopt.optionsOf runOptstring) runLongOptions [] options rs)
    (himage : closed' = true ∨ Getopt.isOperand image = true)
    (hruns : ∃ out, main m (commandLine prog globals closed options closed' image cmd args) =
      some (.runs out)) :
    RunsAsGiven m rs image cmd args
        (main m (commandLine prog globals closed options closed' image cmd args)) ↔
      ¬(closed = true ∧ closed' = true) ∧ argsOf 'e' rs = [] := by
  obtain ⟨out, hout⟩ := hruns
  obtain ⟨n, g, hscan, hg⟩ := @main_scan prog globals gs closed "run".toList
    (options ++ (dashes closed' ++ image :: cmd :: args)) hglobals (by decide)
  obtain ⟨ctx, g₀, hstop, hctx, hrun⟩ := main_runs hscan hout
  obtain rfl := Option.some.inj hstop
  obtain ⟨g', hoptions', htail⟩ := runOptions_commandLine hg hoptions himage
  have hsettled := settled_next hg.settled
  rw [hout]
  by_cases hclosed : closed = true ∧ closed' = true
  · rw [if_pos hclosed] at htail
    refine ⟨fun ⟨st₀, st, _, heq, _, _, hargs, _⟩ => ?_, fun h => absurd hclosed h.1⟩
    exfalso
    rcases cmdRun_of_options m ctx hsettled hoptions' htail with ⟨_, hcmd⟩ | ⟨_, st', _, hcmd⟩
    · rw [hrun] at hcmd
      obtain rfl := Option.some.inj hcmd
      simp at heq
    · rw [hrun] at hcmd
      obtain rfl := Option.some.inj hcmd
      obtain rfl := RunOutcome.creates.inj (MainOutcome.runs.inj (Option.some.inj heq))
      -- the image has become the command, and there is one more argument
      have hlen := congrArg List.length hargs
      simp [finishConfig] at hlen
  · rw [if_neg hclosed] at htail
    rcases cmdRun_of_options m ctx hsettled hoptions' htail with ⟨he, hcmd⟩ | ⟨he, st', hfold, hcmd⟩
    · rw [hrun] at hcmd
      obtain rfl := Option.some.inj hcmd
      exact ⟨fun ⟨_, _, _, heq, _⟩ => by simp at heq, fun h => absurd h.2 he⟩
    · rw [hrun] at hcmd
      obtain rfl := Option.some.inj hcmd
      refine ⟨fun _ => ⟨hclosed, he⟩, fun _ => ⟨st', _, hfold, rfl, ?_, rfl, rfl, rfl, rfl⟩⟩
      show snprintf 4096 _ = _
      rw [hctx]

/-- `cruntime -- run -d img sh -c`, run by root. -/
theorem runsAsGiven_closed :
    RunsAsGiven ⟨[], 0, 0, 0, .ok, 0⟩ [.opt 'd' none] "img".toList "sh".toList ["-c".toList]
      (main ⟨[], 0, 0, 0, .ok, 0⟩ (commandLine "cruntime".toList [] true ["-d".toList] false
        "img".toList "sh".toList ["-c".toList])) := by
  refine (runsAsGiven_iff _ .nil (.element (by decide) (.flag (by decide) .nil)) (by decide)
    ⟨_, rfl⟩).mpr (by decide)

/-- `cruntime -- run -- img sh` runs `img` on the image `run`. -/
theorem closed_twice_not_as_given :
    (∃ out, main ⟨[], 0, 0, 0, .ok, 0⟩ (commandLine "cruntime".toList [] true [] true
        "img".toList "sh".toList []) = some (.runs out)) ∧
      ¬RunsAsGiven ⟨[], 0, 0, 0, .ok, 0⟩ [] "img".toList "sh".toList []
        (main ⟨[], 0, 0, 0, .ok, 0⟩ (commandLine "cruntime".toList [] true [] true
          "img".toList "sh".toList [])) := by
  refine ⟨⟨_, rfl⟩, ?_⟩
  rintro ⟨_, st, _, heq, _, hcommand, _⟩
  obtain rfl := RunOutcome.creates.inj (MainOutcome.runs.inj (Option.some.inj heq))
  exact absurd hcommand (by decide)

end Cruntime
