/-
What becomes of the options of `cmd_run` that may be repeated.

Three arrays are filled by one loop.  Each option has a guard of its own, and none of the
guards has an `else`: a mapping that has no colon is not recorded, nor is one that comes
when the array is full, and `cmd_run` goes on.  The third array has no storage at all.
-/
import Cruntime.CmdRun
import Mathlib.Data.List.Basic

namespace Cruntime

open Getopt (Result)

/-! ### Collecting into an array with a limit -/

section

variable {α β : Type}

/-- Record what an argument stands for, while there is room. -/
def collect (max : Nat) (parse : α → Option β) (l : List β) (arg : α) : List β :=
  if l.length < max then l ++ (parse arg).toList else l

theorem collect_take (max : Nat) (parse : α → Option β) (l : List β) (arg : α) :
    collect max parse (l.take max) arg = (l ++ (parse arg).toList).take max := by
  unfold collect
  by_cases hroom : l.length < max
  · have hlen : (l ++ (parse arg).toList).length ≤ max := by
      rw [List.length_append]
      have := Option.length_toList_le (o := parse arg)
      omega
    rw [List.take_of_length_le (by omega), if_pos hroom, List.take_of_length_le hlen]
  · rw [if_neg (by rw [List.length_take]; omega), List.take_append_of_le_length (by omega)]

/-- **What has been collected are the first of the arguments that stand for something.** -/
theorem foldl_collect (max : Nat) (parse : α → Option β) (args : List α) :
    ∀ l : List β, args.foldl (collect max parse) (l.take max)
      = (l ++ args.filterMap parse).take max := by
  induction args with
  | nil => intro l; simp
  | cons arg rest ih =>
      intro l
      rw [List.foldl_cons, collect_take, ih, List.append_assoc, List.filterMap_cons]
      cases parse arg <;> rfl

/-- Every argument is recorded, once and in order, exactly when each stands for something and
there is room for all. -/
theorem collected_iff {max : Nat} {parse : α → Option β} {args : List α} :
    ((args.filterMap parse).take max).map some = args.map parse ↔
      (∀ arg ∈ args, parse arg ≠ none) ∧ args.length ≤ max := by
  constructor
  · intro h
    refine ⟨fun arg harg hnone => ?_, ?_⟩
    · have hmem : none ∈ args.map parse := List.mem_map.mpr ⟨arg, harg, hnone⟩
      rw [← h] at hmem
      obtain ⟨b, -, hb⟩ := List.mem_map.mp hmem
      simp at hb
    · have hlen := congrArg List.length h
      simp only [List.length_map, List.length_take] at hlen
      omega
  · rintro ⟨hsome, hlen⟩
    have hall : (args.filterMap parse).map some = args.map parse := by
      clear hlen
      induction args with
      | nil => rfl
      | cons arg rest ih =>
          obtain ⟨b, hb⟩ := Option.ne_none_iff_exists'.mp (hsome arg (by simp))
          rw [List.filterMap_cons_some hb, List.map_cons, List.map_cons, hb,
            ih fun a ha => hsome a (by simp [ha])]
    rw [List.take_of_length_le, hall]
    exact (List.length_filterMap_le parse args).trans hlen

end

/-! ### The fields the options compute -/

/-- What some options make of the fields that are computed from their arguments. -/
structure Computed (m : Machine) (rs : List Result) (st st' : RunState) : Prop where
  ports : st'.config.network.ports =
    (argsOf 'p' rs).foldl (collect maxPorts parsePublish) st.config.network.ports
  mounts : st'.config.mounts =
    (argsOf 'v' rs).foldl (collect maxMounts parseVolume) st.config.mounts
  limits : st'.config.limits = { st.config.limits with
    memoryLimit := (argsOf 'm' rs).foldl (fun _ arg => parseSize m.undefined arg)
      st.config.limits.memoryLimit
    cpuQuota := (argsOf 'c' rs).foldl (fun _ arg => ((atof arg).scale 100000).toInt64 m.undefined)
      st.config.limits.cpuQuota }

theorem applyOption_publish (net : NetworkConfig) (arg : CStr) :
    applyOption net (.publish arg) =
      { net with ports := collect maxPorts parsePublish net.ports arg } := by
  cases hpm : parsePublish arg with
  | none => simp [applyOption, collect, hpm]
  | some pm =>
      by_cases hroom : net.ports.length < maxPorts
      · simp [applyOption, collect, hpm, hroom]
      · simp [applyOption, collect, hpm, hroom]

theorem addMount_eq_collect (mounts : List MountPoint) (arg : CStr) :
    addMount mounts arg = collect maxMounts parseVolume mounts arg := by
  unfold addMount collect
  cases parseVolume arg <;> simp

theorem longBody_computed (m : Machine) (st : RunState) (name arg : CStr) (arg' : Option CStr) :
    Computed m [.long name arg'] st (longBody st name arg) := by
  unfold longBody
  split_ifs
  all_goals exact ⟨rfl, rfl, rfl⟩

/-- One option. -/
theorem runBody_computed {m : Machine} {st st' : RunState} {r : Result}
    (h : runBody m st r = .ok st') : Computed m [r] st st' := by
  unfold runBody at h
  split at h
  case h_5 arg =>
      obtain rfl := Except.ok.inj h
      exact ⟨congrArg NetworkConfig.ports (applyOption_publish _ arg), rfl, rfl⟩
  case h_6 arg =>
      obtain rfl := Except.ok.inj h
      exact ⟨rfl, addMount_eq_collect _ arg, rfl⟩
  case h_7 arg =>
      split at h
      · rename_i config hconfig
        obtain rfl := Except.ok.inj h
        unfold addEnv at hconfig
        split at hconfig
        · obtain ⟨env, -, rfl⟩ := Option.map_eq_some_iff.mp hconfig
          exact ⟨rfl, rfl, rfl⟩
        · obtain rfl := Option.some.inj hconfig
          exact ⟨rfl, rfl, rfl⟩
      · simp at h
  case h_10 name arg =>
      obtain rfl := Except.ok.inj h
      exact longBody_computed m st name _ arg
  case h_11 => simp at h
  all_goals
    obtain rfl := Except.ok.inj h
    exact ⟨rfl, rfl, rfl⟩

theorem Computed.nil (m : Machine) (st : RunState) : Computed m [] st st := ⟨rfl, rfl, rfl⟩

theorem argsOf_append (c : Char) (rs rs' : List Result) :
    argsOf c (rs ++ rs') = argsOf c rs ++ argsOf c rs' := List.filterMap_append

theorem Computed.append {m : Machine} {rs rs' : List Result} {st st' st'' : RunState}
    (h : Computed m rs st st') (h' : Computed m rs' st' st'') : Computed m (rs ++ rs') st st'' := by
  refine ⟨?_, ?_, ?_⟩
  · rw [argsOf_append, List.foldl_append, ← h.ports]
    exact h'.ports
  · rw [argsOf_append, List.foldl_append, ← h.mounts]
    exact h'.mounts
  · rw [argsOf_append, List.foldl_append, argsOf_append, List.foldl_append, h'.limits, h.limits]

/-- **The whole loop.** -/
theorem runBody_fold_computed {m : Machine} {rs : List Result} :
    ∀ {st st' : RunState}, rs.foldlM (runBody m) st = .ok st' → Computed m rs st st' := by
  induction rs with
  | nil =>
      intro st st' h
      obtain rfl := Except.ok.inj h
      exact Computed.nil m st
  | cons r rest ih =>
      intro st st' h
      rw [List.foldlM_cons] at h
      cases hbody : runBody m st r with
      | error out => rw [hbody] at h; simp [bind, Except.bind] at h
      | ok next =>
          rw [hbody] at h
          exact (runBody_computed hbody).append (ih h)

/-! ### No option is lost -/

/-- The entries of `env` that are counted. -/
def envEntries (config : ContainerConfig) : List CStr := (config.env.getD []).take config.numEnv

/-- The configuration has one entry for each repeated option, in order. -/
structure AllRecorded (rs : List Result) (config : ContainerConfig) : Prop where
  ports : config.network.ports.map some = (argsOf 'p' rs).map parsePublish
  mounts : config.mounts.map some = (argsOf 'v' rs).map parseVolume
  env : envEntries config = argsOf 'e' rs
  numEnv : config.numEnv = (argsOf 'e' rs).length

/-- Every repeated option can be recorded: mappings and volumes have their colon, and there is
room for all of them. -/
structure Recordable (rs : List Result) : Prop where
  publish : ∀ arg ∈ argsOf 'p' rs, ':' ∈ arg
  volume : ∀ arg ∈ argsOf 'v' rs, ':' ∈ arg
  ports : (argsOf 'p' rs).length ≤ maxPorts
  mounts : (argsOf 'v' rs).length ≤ maxMounts
  env : (argsOf 'e' rs).length ≤ maxEnvVars

/-- Either all repeated options are in the configuration that `container_create` gets, variables
in storage of their own, or `cmd_run` fails before it. -/
structure NothingLost (rs : List Result) (out : Option RunOutcome) : Prop where
  recorded : ∀ st, out = some (.creates st) → AllRecorded rs st.config
  refused : ¬Recordable rs → ∃ code, code ≠ 0 ∧ out = some (.returns code)
  stored : out ≠ some .crashes

theorem parsePublish_ne_none {arg : CStr} : parsePublish arg ≠ none ↔ ':' ∈ arg := by
  unfold parsePublish
  cases hcut : strchr arg ':' with
  | none => simpa using strchr_eq_none.mp hcut
  | some cut =>
      have hmem : ':' ∈ arg := by
        rw [(strchr_eq_some hcut).1]
        simp
      cases hproto : strchr cut.2 '/' <;> simp [hproto, hmem]

theorem parseVolume_ne_none {arg : CStr} : parseVolume arg ≠ none ↔ ':' ∈ arg := by
  unfold parseVolume
  rw [ne_eq, Option.map_eq_none_iff, strchr_eq_none, not_not]

/-- Where no variable is among the options, the arrays of the configuration are complete exactly
when every option could be recorded. -/
theorem allRecorded_iff {m : Machine} {ctx : RuntimeCtx} {rs : List Result} {st : RunState}
    (hfold : rs.foldlM (runBody m) (runStart m) = .ok st) (hst : NoEnv st)
    (he : argsOf 'e' rs = []) (image : CStr) (command : List CStr) :
    AllRecorded rs (finishConfig ctx st.config image command) ↔ Recordable rs := by
  have hcomputed := runBody_fold_computed hfold
  obtain ⟨henv, hnum⟩ := hst
  have hports : (finishConfig ctx st.config image command).network.ports
      = ((argsOf 'p' rs).filterMap parsePublish).take maxPorts := by
    have := foldl_collect maxPorts parsePublish (argsOf 'p' rs) []
    cases command <;> exact hcomputed.ports.trans this
  have hmounts : (finishConfig ctx st.config image command).mounts
      = ((argsOf 'v' rs).filterMap parseVolume).take maxMounts := by
    have := foldl_collect maxMounts parseVolume (argsOf 'v' rs) []
    cases command <;> exact hcomputed.mounts.trans this
  have hentries : envEntries (finishConfig ctx st.config image command) = [] := by
    unfold envEntries
    cases command <;> simp [finishConfig, henv]
  have hcount : (finishConfig ctx st.config image command).numEnv = 0 := by
    cases command <;> exact hnum
  constructor
  · rintro ⟨hp, hv, -, -⟩
    rw [hports, collected_iff] at hp
    rw [hmounts, collected_iff] at hv
    exact ⟨fun arg harg => parsePublish_ne_none.mp (hp.1 arg harg),
      fun arg harg => parseVolume_ne_none.mp (hv.1 arg harg), hp.2, hv.2, by simp [he]⟩
  · rintro ⟨hpublish, hvolume, hp, hv, -⟩
    refine ⟨?_, ?_, by rw [hentries, he], by rw [hcount, he]; rfl⟩
    · rw [hports, collected_iff]
      exact ⟨fun arg harg => parsePublish_ne_none.mpr (hpublish arg harg), hp⟩
    · rw [hmounts, collected_iff]
      exact ⟨fun arg harg => parseVolume_ne_none.mpr (hvolume arg harg), hv⟩

/-- **No repeated option is lost, if and only if none is a variable and `cmd_run` has another
reason to fail or could record every one of them.** -/
theorem nothingLost_iff (m : Machine) (ctx : RuntimeCtx) {g : Getopt.State} (hg : Getopt.Settled g)
    {rs : List Result} {stop : Option Getopt.State} (hx : runOptions g = some (rs, stop)) :
    NothingLost rs (cmdRun m ctx g) ↔ argsOf 'e' rs = [] ∧ (NoImage stop ∨ Recordable rs) := by
  rcases cmdRun_cases m ctx hg hx with ⟨he, hrun⟩ | ⟨he, hno, hrun⟩ |
    ⟨he, g', image, command, st, rfl, htail, hfold, hst, hrun⟩
  · rw [hrun]
    exact ⟨fun h => absurd rfl h.stored, fun h => absurd h.1 he⟩
  · rw [hrun]
    exact ⟨fun _ => ⟨he, Or.inl hno⟩, fun _ => ⟨by simp, fun _ => ⟨1, by omega, rfl⟩, by simp⟩⟩
  · rw [hrun]
    constructor
    · intro h
      exact ⟨he, Or.inr ((allRecorded_iff hfold hst he image command).mp (h.recorded _ rfl))⟩
    · rintro ⟨-, hno | hrec⟩
      · exact absurd hno (not_noImage htail)
      · refine ⟨fun st' hst' => ?_, fun hnot => absurd hrec hnot, by simp⟩
        obtain rfl := RunOutcome.creates.inj (Option.some.inj hst')
        exact (allRecorded_iff hfold hst he image command).mpr hrec

/-- `run -p 8080:80 -v /a:/b img`. -/
theorem nothingLost_ports_and_volumes :
    NothingLost [.opt 'p' (some "8080:80".toList), .opt 'v' (some "/a:/b".toList)]
      (cmdRun ⟨[], 0, 0, 0, .ok, 0⟩ defaultCtx (parserAtRun
        ["-p".toList, "8080:80".toList, "-v".toList, "/a:/b".toList, "img".toList])) :=
  (nothingLost_iff _ _ (settled_parserAtRun _) rfl).mpr
    ⟨by decide, Or.inr ⟨by decide, by decide, by decide, by decide, by decide⟩⟩

/-- `run -p 80 img` creates a container without a port. -/
theorem publish_without_colon_lost :
    (∃ stop, runOptions (parserAtRun ["-p".toList, "80".toList, "img".toList]) =
        some ([.opt 'p' (some "80".toList)], stop)) ∧
      ¬NothingLost [.opt 'p' (some "80".toList)] (cmdRun ⟨[], 0, 0, 0, .ok, 0⟩ defaultCtx
        (parserAtRun ["-p".toList, "80".toList, "img".toList])) := by
  refine ⟨⟨_, rfl⟩, fun h => ?_⟩
  have hcreates : ∃ st, cmdRun ⟨[], 0, 0, 0, .ok, 0⟩ defaultCtx
      (parserAtRun ["-p".toList, "80".toList, "img".toList]) = some (.creates st) := ⟨_, rfl⟩
  obtain ⟨st, hst⟩ := hcreates
  obtain ⟨code, -, hcode⟩ := h.refused fun hrec =>
    absurd (hrec.publish "80".toList (by decide)) (by decide)
  rw [hst] at hcode
  simp at hcode

end Cruntime
