/-
What becomes of `--memory` and `--cpus`.

A request goes through three conversions, each with its own sign for what it cannot
express: `parse_size` returns -1, `atof` returns 0, and -1 in the configuration stands for
no limit.  The last of them skips whatever is not positive.  So a text that is no number,
a negative one and one below a byte all come out as no limit at all, and no step on the
way tells them from an option that was never given.
-/
import Cruntime.Cgroup.Limits
import Cruntime.RunOptions

namespace Cruntime

open Getopt (Result)

/-! ### What a text asks for -/

/-- The bytes `--memory` asks for: the number the text starts with, times the unit behind it. -/
def memoryAmount (str : CStr) : Option ℚ :=
  match strtod str with
  | some (.finite q, rest) => (sizeMultiplier rest).map fun multiplier => q * multiplier
  | _ => none

/-- The microseconds `--cpus` asks for in each period. -/
def cpuAmount (str : CStr) : Option ℚ :=
  match strtod str with
  | some (.finite q, _) => some (q * 100000)
  | _ => none

example : memoryAmount "1.5K".toList = some 1536 := by decide +kernel

/-- An amount that an `int64_t` can hold and that the kernel takes for a limit. -/
def Expressible (amount : Option ℚ) : Prop := ∃ q, amount = some q ∧ 1 ≤ q ∧ q < 2 ^ 63

/-- A limit that is set to the amount, rounded down. -/
def SetTo (amount : Option ℚ) (limit : Int64) : Prop :=
  ∃ q, amount = some q ∧ 0 < ⌊q⌋ ∧ limit.toInt = ⌊q⌋

/-! ### The conversions -/

/-- **A conversion sets the amount exactly when the amount is expressible.** -/
theorem setTo_toInt64_iff {undefined : Int64} {q : ℚ} :
    SetTo (some q) ((Double.finite q).toInt64 undefined) ↔ Expressible (some q) := by
  constructor
  · rintro ⟨q', hq, hpos, hset⟩
    obtain rfl := Option.some.inj hq
    refine ⟨q, rfl, ?_, ?_⟩
    · have : (1 : ℤ) ≤ ⌊q⌋ := hpos
      exact_mod_cast Int.le_floor.mp this
    · have hlt := ((Double.finite q).toInt64 undefined).toInt_lt
      rw [hset] at hlt
      exact_mod_cast Int.floor_lt.mp hlt
  · rintro ⟨q', hq, hlo, hhi⟩
    obtain rfl := Option.some.inj hq
    exact ⟨q, rfl, Int.floor_pos.mpr hlo, Double.toInt64_finite (by linarith) hhi⟩

theorem not_setTo_none {limit : Int64} : ¬SetTo none limit := by
  rintro ⟨q, hq, -⟩
  simp at hq

theorem not_expressible_none : ¬Expressible none := by
  rintro ⟨q, hq, -⟩
  simp at hq

theorem setTo_parseSize_iff {undefined : Int64} {str : CStr} :
    SetTo (memoryAmount str) (parseSize undefined str) ↔ Expressible (memoryAmount str) := by
  unfold memoryAmount parseSize
  cases hread : strtod str with
  | none => exact ⟨fun h => absurd h not_setTo_none, fun h => absurd h not_expressible_none⟩
  | some x =>
      obtain ⟨value, rest⟩ := x
      cases value with
      | finite q =>
          cases hunit : sizeMultiplier rest with
          | none =>
              simp only [hunit]
              exact ⟨fun h => absurd h not_setTo_none, fun h => absurd h not_expressible_none⟩
          | some multiplier =>
              simp only [hunit]
              exact setTo_toInt64_iff
      | infinite negative =>
          exact ⟨fun h => absurd h not_setTo_none, fun h => absurd h not_expressible_none⟩
      | nan => exact ⟨fun h => absurd h not_setTo_none, fun h => absurd h not_expressible_none⟩

theorem setTo_cpuQuota_iff {undefined : Int64} {str : CStr} :
    SetTo (cpuAmount str) (((atof str).scale 100000).toInt64 undefined) ↔
      Expressible (cpuAmount str) := by
  unfold cpuAmount atof
  cases hread : strtod str with
  | none => exact ⟨fun h => absurd h not_setTo_none, fun h => absurd h not_expressible_none⟩
  | some x =>
      obtain ⟨value, rest⟩ := x
      cases value with
      | finite q => exact setTo_toInt64_iff
      | infinite negative =>
          exact ⟨fun h => absurd h not_setTo_none, fun h => absurd h not_expressible_none⟩
      | nan => exact ⟨fun h => absurd h not_setTo_none, fun h => absurd h not_expressible_none⟩

/-! ### The writes -/

/-- What `cgroup_apply_limits` writes to a control file. -/
theorem issues_write {path : DirName} {l : ResourceLimits} {f : ControlFile} {v : CStr} :
    (cgroupApplyLimits path l).Issues (.write path f v) ↔ l.value f = some v := by
  rw [cgroupApplyLimits_eq, Script.issues_tryAll, List.mem_flatMap]
  unfold limitWrite
  constructor
  · rintro ⟨f', -, hmem⟩
    obtain ⟨v', hv', heq⟩ := List.mem_map.mp hmem
    obtain ⟨-, rfl, rfl⟩ := CgroupCmd.write.inj heq
    exact Option.mem_toList.mp hv'
  · intro h
    exact ⟨f, mem_writeOrder f, List.mem_map.mpr ⟨v, Option.mem_toList.mpr h, rfl⟩⟩

theorem formatLong_eq_iff {limit : Int64} {n : Int} :
    formatLong limit = decimalInt n ↔ limit.toInt = n :=
  decimalInt_injective.eq_iff

/-- The limits write this amount of memory, rounded down and positive. -/
def WritesMemory (path : DirName) (l : ResourceLimits) (amount : Option ℚ) : Prop :=
  ∃ q, amount = some q ∧ 0 < ⌊q⌋ ∧
    (cgroupApplyLimits path l).Issues (.write path .memoryMax (decimalInt ⌊q⌋))

/-- They write this quota, rounded down and positive, for the default period. -/
def WritesCpu (path : DirName) (l : ResourceLimits) (amount : Option ℚ) : Prop :=
  ∃ q, amount = some q ∧ 0 < ⌊q⌋ ∧
    (cgroupApplyLimits path l).Issues
      (.write path .cpuMax (decimalInt ⌊q⌋ ++ ' ' :: decimalInt 100000))

theorem writesMemory_iff {path : DirName} {l : ResourceLimits} {amount : Option ℚ} :
    WritesMemory path l amount ↔ SetTo amount l.memoryLimit := by
  refine exists_congr fun q => and_congr_right fun _ => and_congr_right fun hpos => ?_
  rw [issues_write]
  show (if l.memoryLimit > 0 then some (formatLong l.memoryLimit) else none) = _ ↔ _
  constructor
  · intro h
    split_ifs at h
    exact formatLong_eq_iff.mp (Option.some.inj h)
  · intro h
    rw [if_pos (pos_iff.mpr (by omega)), formatLong_eq_iff.mpr h]

theorem writesCpu_iff {path : DirName} {l : ResourceLimits} {amount : Option ℚ}
    (hperiod : l.cpuPeriod = 100000) : WritesCpu path l amount ↔ SetTo amount l.cpuQuota := by
  have hformat : formatLong l.cpuPeriod = decimalInt 100000 := by
    rw [hperiod]
    exact formatLong_eq_iff.mpr rfl
  refine exists_congr fun q => and_congr_right fun _ => and_congr_right fun hpos => ?_
  rw [issues_write]
  show (if l.cpuQuota > 0 ∧ l.cpuPeriod > 0 then
    some (formatLong l.cpuQuota ++ ' ' :: formatLong l.cpuPeriod) else none) = _ ↔ _
  rw [hformat]
  constructor
  · intro h
    split_ifs at h
    exact formatLong_eq_iff.mp (List.append_cancel_right (Option.some.inj h))
  · intro h
    rw [if_pos ⟨pos_iff.mpr (by omega), by rw [hperiod]; decide⟩, formatLong_eq_iff.mpr h]

/-! ### No request is dropped -/

/-- The argument of the last option `-c`: it takes the place of those before. -/
def lastArg (c : Char) (rs : List Result) : Option CStr := (argsOf c rs).getLast?

theorem foldl_last {α β : Type} (f : α → β) (l : List α) (b : β) :
    l.foldl (fun _ a => f a) b = (l.getLast?.map f).getD b := by
  induction l generalizing b with
  | nil => rfl
  | cons a rest ih =>
      rw [List.foldl_cons, ih, List.getLast?_cons]
      cases rest.getLast? <;> rfl

/-- Either `cmd_run` fails, or it creates a container whose limits write what was asked for. -/
def LimitsKept (path : DirName) (rs : List Result) (out : Option RunOutcome) : Prop :=
  (∃ code, code ≠ 0 ∧ out = some (.returns code)) ∨
    ∃ st, out = some (.creates st) ∧
      (∀ arg, lastArg 'm' rs = some arg →
        WritesMemory path st.config.limits (memoryAmount arg)) ∧
      (∀ arg, lastArg 'c' rs = some arg → WritesCpu path st.config.limits (cpuAmount arg))

/-- The limits `cmd_run` hands on. -/
theorem limits_of_fold {m : Machine} {ctx : RuntimeCtx} {rs : List Result} {st : RunState}
    (hfold : rs.foldlM (runBody m) (runStart m) = .ok st) (image : CStr) (command : List CStr) :
    (finishConfig ctx st.config image command).limits =
      { (defaultConfig m).limits with
        memoryLimit := ((lastArg 'm' rs).map (parseSize m.undefined)).getD (-1)
        cpuQuota := ((lastArg 'c' rs).map fun arg =>
          ((atof arg).scale 100000).toInt64 m.undefined).getD (-1) } := by
  have hlimits := (runBody_fold_computed hfold).limits
  rw [foldl_last, foldl_last] at hlimits
  cases command <;> exact hlimits

/-- **No request for a limit is dropped, if and only if no variable is among the options and
`cmd_run` has no image or what was asked for last is an amount from 1 to below 2⁶³.** -/
theorem limitsKept_iff (m : Machine) (ctx : RuntimeCtx) (path : DirName) {g : Getopt.State}
    (hg : Getopt.Settled g) {rs : List Result} {stop : Option Getopt.State}
    (hx : runOptions g = some (rs, stop)) :
    LimitsKept path rs (cmdRun m ctx g) ↔
      argsOf 'e' rs = [] ∧ (NoImage stop ∨
        (∀ arg, lastArg 'm' rs = some arg → Expressible (memoryAmount arg)) ∧
          ∀ arg, lastArg 'c' rs = some arg → Expressible (cpuAmount arg)) := by
  unfold LimitsKept
  rcases cmdRun_cases m ctx hg hx with ⟨he, hrun⟩ | ⟨he, hno, hrun⟩ |
    ⟨he, g', image, command, st, rfl, htail, hfold, -, hrun⟩
  · rw [hrun]
    simp [he]
  · rw [hrun]
    exact ⟨fun _ => ⟨he, Or.inl hno⟩, fun _ => Or.inl ⟨1, by omega, rfl⟩⟩
  · have hlimits := @limits_of_fold m ctx rs st hfold image command
    have hmemory : ∀ arg, lastArg 'm' rs = some arg →
        (WritesMemory path (finishConfig ctx st.config image command).limits (memoryAmount arg) ↔
          Expressible (memoryAmount arg)) := by
      intro arg harg
      rw [writesMemory_iff, hlimits, harg]
      exact setTo_parseSize_iff
    have hcpu : ∀ arg, lastArg 'c' rs = some arg →
        (WritesCpu path (finishConfig ctx st.config image command).limits (cpuAmount arg) ↔
          Expressible (cpuAmount arg)) := by
      intro arg harg
      rw [writesCpu_iff (by rw [hlimits]; rfl), hlimits, harg]
      exact setTo_cpuQuota_iff
    rw [hrun]
    constructor
    · rintro (⟨code, -, hcode⟩ | ⟨st', hst', hm, hc⟩)
      · simp at hcode
      · obtain rfl := RunOutcome.creates.inj (Option.some.inj hst')
        exact ⟨he, Or.inr ⟨fun arg harg => (hmemory arg harg).mp (hm arg harg),
          fun arg harg => (hcpu arg harg).mp (hc arg harg)⟩⟩
    · rintro ⟨-, hno | ⟨hm, hc⟩⟩
      · exact absurd hno (not_noImage htail)
      · exact Or.inr ⟨_, rfl, fun arg harg => (hmemory arg harg).mpr (hm arg harg),
          fun arg harg => (hcpu arg harg).mpr (hc arg harg)⟩

/-- `run -m 64M --cpus 1.5 img`. -/
theorem limitsKept_memory_and_cpus :
    LimitsKept sampleDir [.opt 'm' (some "64M".toList), .opt 'c' (some "1.5".toList)]
      (cmdRun ⟨[], 0, 0, 0, .ok, 0⟩ defaultCtx (parserAtRun
        ["-m".toList, "64M".toList, "--cpus".toList, "1.5".toList, "img".toList])) := by
  refine (limitsKept_iff _ _ sampleDir (settled_parserAtRun _) rfl).mpr ⟨by decide, Or.inr ⟨?_, ?_⟩⟩
  · intro arg harg
    obtain rfl : "64M".toList = arg := Option.some.inj harg
    exact ⟨67108864, by decide +kernel, by norm_num, by norm_num⟩
  · intro arg harg
    obtain rfl : "1.5".toList = arg := Option.some.inj harg
    exact ⟨150000, by decide +kernel, by norm_num, by norm_num⟩

/-- `run -m garbage img` creates a container without a limit. -/
theorem garbage_memory_dropped :
    (∃ stop, runOptions (parserAtRun ["-m".toList, "garbage".toList, "img".toList]) =
        some ([.opt 'm' (some "garbage".toList)], stop)) ∧
      ¬LimitsKept sampleDir [.opt 'm' (some "garbage".toList)]
        (cmdRun ⟨[], 0, 0, 0, .ok, 0⟩ defaultCtx
          (parserAtRun ["-m".toList, "garbage".toList, "img".toList])) := by
  refine ⟨⟨_, rfl⟩, ?_⟩
  have hcreates : ∃ st, cmdRun ⟨[], 0, 0, 0, .ok, 0⟩ defaultCtx
      (parserAtRun ["-m".toList, "garbage".toList, "img".toList]) = some (.creates st) := ⟨_, rfl⟩
  obtain ⟨st, hst⟩ := hcreates
  rw [hst]
  rintro (⟨code, -, hcode⟩ | ⟨st', -, hm, -⟩)
  · simp at hcode
  · obtain ⟨q, hq, -⟩ := hm _ rfl
    exact absurd (hq.symm.trans (show memoryAmount "garbage".toList = none by decide +kernel))
      (by simp)

end Cruntime
