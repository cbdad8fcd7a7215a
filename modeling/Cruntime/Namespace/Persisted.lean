/-
Paths that stand for a namespace, in every run.

However many calls of `namespace_persist` and `namespace_join` run at once, whatever is refused
and whatever processes come and go: a path at which one `persist` has returned `CR_OK` shows the
namespace of that call for good, no other `persist` of the path returns `CR_OK`, and a `join` that
is made from then on enters that namespace or fails (`persisted_for_good`).

Where something is at a path before, or a file was left that could not be unlinked, no call ever
succeeds (`blocked_for_good`).
-/
import Cruntime.Namespace.Persist

namespace Cruntime

open Paths (Path locate)
open Pool (pick)
open Script (issue)

variable {ι : Type} [DecidableEq ι] {cwd : Path} {calls : ι → NsCall}
  {p : Pool ι (PersistCmd ι) CrCode (PersistHost ι)} {holds : ι → Option NsEntry}

/-! ### What a run keeps -/

/-- The source led to `shown` at a moment when the call `i` was about to mount it. -/
def WasShown (cwd : Path) (p : Pool ι (PersistCmd ι) CrCode (PersistHost ι))
    (sched : List (ι × Bool)) (i : ι) (source path : CStr) (shown : Content) : Prop :=
  ∃ before, before <+: sched ∧
    ((Runs.after (pick (PersistCmd.effect cwd)) p before).threads i).head? =
      some (.bind source path) ∧
    (Runs.after (pick (PersistCmd.effect cwd)) p before).state.proc source = some shown

/-- Every run keeps its calls on their way, and what was mounted was there to be mounted. -/
theorem onTheWay_after (cwd : Path) (hstart : ∀ i, p.threads i = (calls i).script i)
    (sched : List (ι × Bool)) :
    ∃ holds, OnTheWay cwd calls (Runs.after (pick (PersistCmd.effect cwd)) p sched) holds ∧
      ∀ i pid nsName persistPath shown, calls i = .persist pid nsName persistPath →
        holds i = some (.file [shown]) →
          WasShown cwd p sched i (nsSource pid nsName) persistPath shown := by
  induction sched using List.reverseRecOn with
  | nil =>
      refine ⟨fun _ => none, onTheWay_start hstart, ?_⟩
      intro i pid nsName persistPath shown _ hheld
      cases hheld
  | append_singleton sched x ih =>
      obtain ⟨holds, hway, hshown⟩ := ih
      obtain ⟨held, hstep⟩ := stepped hway x.1 x.2
      rw [Runs.after_append]
      refine ⟨_, hway.step hstep, ?_⟩
      intro i pid nsName persistPath shown hcall hheld
      have hearlier : holds i = some (.file [shown]) →
          WasShown cwd p (sched ++ [x]) i (nsSource pid nsName) persistPath shown := by
        intro h
        obtain ⟨before, hbefore, hproc⟩ := hshown i pid nsName persistPath shown hcall h
        exact ⟨before, hbefore.trans (List.prefix_append _ _), hproc⟩
      by_cases hi : i = x.1
      · subst hi
        rw [Function.update_self] at hheld
        rcases hstep.shown pid nsName persistPath hcall shown hheld with hsame | hproc
        · exact hearlier (hsame.trans hheld)
        · exact ⟨sched, List.prefix_append _ _, hproc⟩
      · rw [Function.update_of_ne hi] at hheld
        exact hearlier hheld

/-- A call that has returned holds `held`. -/
def Returned (cwd : Path) (calls : ι → NsCall) (i : ι) (code : CrCode) (held : Option NsEntry)
    (p : Pool ι (PersistCmd ι) CrCode (PersistHost ι)) : Prop :=
  p.threads i = .ret code ∧ ∃ holds, OnTheWay cwd calls p holds ∧ holds i = held

/-- What a call holds when it returns, it holds for good. -/
theorem Returned.pick {i : ι} {code : CrCode} {held : Option NsEntry}
    (h : Returned cwd calls i code held p) (x : ι × Bool) :
    Returned cwd calls i code held (pick (PersistCmd.effect cwd) p x) := by
  obtain ⟨hret, holds, hway, hholds⟩ := h
  by_cases hi : i = x.1
  · have hsame : Pool.pick (PersistCmd.effect cwd) p x = p := by
      obtain ⟨j, fault⟩ := x
      obtain rfl : i = j := hi
      exact Pool.step_ret _ hret fault
    rw [hsame]
    exact ⟨hret, holds, hway, hholds⟩
  · obtain ⟨held', hstep⟩ := stepped hway x.1 x.2
    refine ⟨?_, _, hway.step hstep, ?_⟩
    · rw [← hret]
      exact Pool.step_threads_ne _ hi x.2
    · rw [Function.update_of_ne hi]
      exact hholds

omit [DecidableEq ι] in
theorem Returned.entry {i : ι} {code : CrCode} {e : NsEntry} {point : Path}
    (h : Returned cwd calls i code (some e) p) (hplace : (calls i).place cwd = some point) :
    p.state.entries point = some e := by
  obtain ⟨-, holds, hway, hholds⟩ := h
  exact hway.exclusive.shown i point e hplace hholds

omit [DecidableEq ι] in
/-- No other call of the path returns `CR_OK`. -/
theorem Returned.alone {i j : ι} {code : CrCode} {e : NsEntry} {point : Path}
    (h : Returned cwd calls i code (some e) p) (hi : (calls i).place cwd = some point)
    (hj : (calls j).place cwd = some point) (hne : j ≠ i) : p.threads j ≠ .ret .ok := by
  intro hret
  obtain ⟨-, holds, hway, hholds⟩ := h
  cases hcall : calls j with
  | persist pid nsName persistPath =>
      have hat := hway.at_each j
      rw [hcall, hret] at hat
      obtain ⟨shown, hheld⟩ := PersistAt.of_ok hat
      have hsome : holds j ≠ none ∧ holds i ≠ none := by simp [hheld, hholds]
      exact hne (hway.exclusive.alone j i point hj hi hsome.1 hsome.2)
  | join | churn => simp [hcall, NsCall.place] at hj

/-! ### Joining -/

/-- A command that opens and joins for no other process. -/
def PersistCmd.By (who : ι) : PersistCmd ι → Prop
  | .open who' _ => who' = who
  | .setns who' _ => who' = who
  | _ => True

omit [DecidableEq ι] in
theorem uses_by (who : ι) (call : NsCall) : (call.script who).Uses (PersistCmd.By who) := by
  cases call with
  | persist pid nsName persistPath =>
      have hcreate : (createAt (nsSource pid nsName) persistPath).Uses (PersistCmd.By who) := by
        refine ⟨trivial, ?_⟩
        rintro (_ | _)
        · trivial
        · refine ⟨trivial, ?_⟩
          rintro (_ | _)
          · exact ⟨trivial, fun _ => trivial⟩
          · trivial
      show (namespacePersist pid nsName persistPath).Uses _
      unfold namespacePersist
      cases beforeLastSlash persistPath with
      | none => exact hcreate
      | some dir => exact ⟨trivial, fun _ => hcreate⟩
  | join nsPath nsType =>
      refine ⟨rfl, ?_⟩
      rintro (_ | _)
      · trivial
      · refine ⟨rfl, ?_⟩
        rintro (_ | _) <;> trivial
  | churn procs =>
      show Script.Uses _ (procs.foldr _ _)
      induction procs with
      | nil => trivial
      | cons proc rest ih => exact ⟨trivial, fun _ => ih⟩

theorem effect_by {who j : ι} {c : PersistCmd ι} {h h' : PersistHost ι} (hc : c.By who)
    (hj : j ≠ who) (heff : c.effect cwd h = some h') :
    h'.fd j = h.fd j ∧ h'.joined j = h.joined j := by
  cases c with
  | mkdir path | create path | unlink path =>
      simp only [PersistCmd.effect] at heff
      split_ifs at heff
      obtain rfl := Option.some.inj heff
      exact ⟨rfl, rfl⟩
  | bind source target =>
      simp only [PersistCmd.effect] at heff
      split at heff
      · obtain rfl := Option.some.inj heff
        exact ⟨rfl, rfl⟩
      · cases heff
  | «open» who' path =>
      obtain rfl : who' = who := hc
      obtain ⟨e, -, rfl⟩ := Option.map_eq_some_iff.mp heff
      exact ⟨Function.update_of_ne hj _ _, rfl⟩
  | setns who' nsType =>
      obtain rfl : who' = who := hc
      simp only [PersistCmd.effect] at heff
      split_ifs at heff
      obtain rfl := Option.some.inj heff
      exact ⟨rfl, Function.update_of_ne hj _ _⟩
  | processes proc =>
      obtain rfl := Option.some.inj heff
      exact ⟨rfl, rfl⟩

/-- `namespace_join` when the file is open. -/
def setnsAt (who : ι) (nsType : Int) : Script (PersistCmd ι) CrCode := do
  unless ← issue (.setns who nsType) do
    return .esyscall
  return .ok

/-- How far a `join` has come through a path that shows `shown`. -/
inductive JoinAt (who : ι) (nsPath : CStr) (nsType : Int) (shown : Content) :
    Script (PersistCmd ι) CrCode → PersistHost ι → Prop
  | start (h : PersistHost ι) : JoinAt who nsPath nsType shown (namespaceJoin who nsPath nsType) h
  | opened {h : PersistHost ι} (hfd : h.fd who = shown) :
      JoinAt who nsPath nsType shown (setnsAt who nsType) h
  | joined {h : PersistHost ι} (hjoined : (h.joined who).head? = some shown) :
      JoinAt who nsPath nsType shown (.ret .ok) h
  | failed (h : PersistHost ι) : JoinAt who nsPath nsType shown (.ret .esyscall) h

/-- Its own step takes a `join` further. -/
theorem JoinAt.next {who : ι} {nsPath : CStr} {nsType : Int} {shown : Content}
    {c : PersistCmd ι} {k : Bool → Script (PersistCmd ι) CrCode} {h : PersistHost ι}
    (hat : JoinAt who nsPath nsType shown (.exec c k) h)
    (hentry : h.entries (locate cwd nsPath) = some (.file [shown])) :
    (∀ h', c.effect cwd h = some h' → JoinAt who nsPath nsType shown (k true) h') ∧
      JoinAt who nsPath nsType shown (k false) h := by
  generalize hprog : Script.exec c k = prog at hat
  cases hat with
  | start =>
      injection hprog with hc hk
      subst hc hk
      refine ⟨?_, .failed h⟩
      intro h' heff
      simp only [PersistCmd.effect, hentry, Option.map_some] at heff
      obtain rfl := Option.some.inj heff
      exact .opened (Function.update_self _ _ _)
  | opened hfd =>
      injection hprog with hc hk
      subst hc hk
      refine ⟨?_, .failed h⟩
      intro h' heff
      simp only [PersistCmd.effect] at heff
      split_ifs at heff
      obtain rfl := Option.some.inj heff
      exact .joined (by simp [hfd])
  | joined => cases hprog
  | failed => cases hprog

omit [DecidableEq ι] in
/-- A step of another process leaves it where it is. -/
theorem JoinAt.frame {who : ι} {nsPath : CStr} {nsType : Int} {shown : Content}
    {prog : Script (PersistCmd ι) CrCode} {h h' : PersistHost ι}
    (hat : JoinAt who nsPath nsType shown prog h)
    (hframe : h'.fd who = h.fd who ∧ h'.joined who = h.joined who) :
    JoinAt who nsPath nsType shown prog h' := by
  cases hat with
  | start => exact .start h'
  | opened hfd => exact .opened (hframe.1.trans hfd)
  | joined hjoined => exact .joined (hframe.2 ▸ hjoined)
  | failed => exact .failed h'

omit [DecidableEq ι] in
theorem JoinAt.of_ok {who : ι} {nsPath : CStr} {nsType : Int} {shown : Content}
    {h : PersistHost ι} (hat : JoinAt who nsPath nsType shown (.ret .ok) h) :
    (h.joined who).head? = some shown := by
  generalize hprog : Script.ret CrCode.ok = prog at hat
  cases hat with
  | start => cases hprog
  | opened => cases hprog
  | joined hjoined => exact hjoined
  | failed => simp at hprog

/-- The path shows `shown` for good, and one `join` through it is on its way. -/
structure Joining (cwd : Path) (calls : ι → NsCall) (i j : ι) (nsPath : CStr) (nsType : Int)
    (shown : Content) (p : Pool ι (PersistCmd ι) CrCode (PersistHost ι)) : Prop where
  returned : Returned cwd calls i .ok (some (.file [shown])) p
  own : ∀ k, (p.threads k).Uses (PersistCmd.By k)
  at_join : JoinAt j nsPath nsType shown (p.threads j) p.state

theorem Joining.pick {i j : ι} {nsPath : CStr} {nsType : Int} {shown : Content}
    (h : Joining cwd calls i j nsPath nsType shown p)
    (hplace : (calls i).place cwd = some (locate cwd nsPath)) (x : ι × Bool) :
    Joining cwd calls i j nsPath nsType shown (pick (PersistCmd.effect cwd) p x) where
  returned := h.returned.pick x
  own := Pool.step_uses_each _ h.own x.1 x.2
  at_join := by
    obtain ⟨k, fault⟩ := x
    rw [Pool.pick_mk]
    have hat := h.at_join
    cases hprog : p.threads k with
    | ret a => rwa [Pool.step_ret _ hprog]
    | exec c next =>
        by_cases hj : j = k
        · subst hj
          rw [hprog] at hat
          have hnext := hat.next (h.returned.entry hplace)
          rcases Pool.step_exec_cases (PersistCmd.effect cwd) hprog fault with
            ⟨-, h', heff, hstep⟩ | hstep
          · rw [hstep]
            simpa using hnext.1 h' heff
          · rw [hstep]
            simpa using hnext.2
        · rw [Pool.step_threads_ne _ hj]
          have hby := h.own k
          rw [hprog] at hby
          rcases Pool.step_exec_cases (PersistCmd.effect cwd) hprog fault with
            ⟨-, h', heff, hstep⟩ | hstep
          · rw [hstep]
            exact hat.frame (effect_by hby.1 hj heff)
          · rw [hstep]
            exact hat

/-! ### Written once -/

/-- **A path at which a `persist` has returned `CR_OK` stands for its namespace for good**: it
goes on showing what its source led to when it was mounted, no other `persist` of it returns
`CR_OK`, and a `join` through it that has not begun yet enters that namespace or fails. -/
theorem persisted_for_good (hstart : ∀ i, p.threads i = (calls i).script i)
    (sched later : List (ι × Bool)) {i : ι} {pid : Int} {nsName persistPath : CStr}
    (hcall : calls i = .persist pid nsName persistPath)
    (hok : (Runs.after (pick (PersistCmd.effect cwd)) p sched).threads i = .ret .ok) :
    let amid := Runs.after (pick (PersistCmd.effect cwd)) p sched
    let final := Runs.after (pick (PersistCmd.effect cwd)) p (sched ++ later)
    ∃ shown, WasShown cwd p sched i (nsSource pid nsName) persistPath shown ∧
      final.state.entries (locate cwd persistPath) = some (.file [shown]) ∧
      (∀ j pid' nsName' path', j ≠ i → calls j = .persist pid' nsName' path' →
        locate cwd path' = locate cwd persistPath → final.threads j ≠ .ret .ok) ∧
      ∀ j nsPath nsType, amid.threads j = namespaceJoin j nsPath nsType →
        locate cwd nsPath = locate cwd persistPath → final.threads j = .ret .ok →
        (final.state.joined j).head? = some shown := by
  intro amid final
  have hplace : (calls i).place cwd = some (locate cwd persistPath) := by
    rw [hcall]
    rfl
  obtain ⟨holds, hway, hshown⟩ := onTheWay_after cwd hstart sched
  have hat := hway.at_each i
  rw [hcall, hok] at hat
  obtain ⟨shown, hheld⟩ := PersistAt.of_ok hat
  have hamid : Returned cwd calls i .ok (some (.file [shown])) amid :=
    ⟨hok, holds, hway, hheld⟩
  have hfinal : Returned cwd calls i .ok (some (.file [shown])) final := by
    show Returned _ _ _ _ _ (Runs.after _ p (sched ++ later))
    rw [Runs.after_append]
    exact Runs.keeps' _ (I := Returned cwd calls i .ok (some (.file [shown])))
      (fun _ x hq => hq.pick x) later amid hamid
  refine ⟨shown, hshown i pid nsName persistPath shown hcall hheld, hfinal.entry hplace, ?_, ?_⟩
  · intro j pid' nsName' path' hne hcall' hpath
    refine hfinal.alone hplace ?_ hne
    rw [hcall']
    exact congrArg some hpath
  · intro j nsPath nsType hjoin hpath hret
    rw [← hpath] at hplace
    have hown : ∀ k, (amid.threads k).Uses (PersistCmd.By k) :=
      Runs.keeps' _ (I := fun q => ∀ k, (q.threads k).Uses (PersistCmd.By k))
        (fun _ x hq => Pool.step_uses_each _ hq x.1 x.2) sched p fun k => by
          rw [hstart k]
          exact uses_by k (calls k)
    have hbegun : Joining cwd calls i j nsPath nsType shown amid :=
      ⟨hamid, hown, hjoin ▸ .start _⟩
    have hended : Joining cwd calls i j nsPath nsType shown final := by
      show Joining _ _ _ _ _ _ _ (Runs.after _ p (sched ++ later))
      rw [Runs.after_append]
      exact Runs.keeps' _ (I := Joining cwd calls i j nsPath nsType shown)
        (fun _ x hq => hq.pick hplace x) later amid hbegun
    have hdone := hended.at_join
    rw [hret] at hdone
    exact hdone.of_ok

/-- Two processes persist their network namespace at one path, and a third joins it. -/
def threeCalls : Fin 3 → NsCall
  | 0 => .persist 1 "net".toList "/run/a".toList
  | 1 => .persist 2 "net".toList "/run/a".toList
  | 2 => .join "/run/a".toList 0x40000000

def threeStart : Pool (Fin 3) (PersistCmd (Fin 3)) CrCode (PersistHost (Fin 3)) where
  state :=
    { entries := fun p => if p = [] ∨ p = ["run".toList] then some .directory else none
      proc := fun source =>
        if source = "/proc/1/ns/net".toList then some (.ofNamespace 0x40000000 7)
        else if source = "/proc/2/ns/net".toList then some (.ofNamespace 0x40000000 8)
        else none
      fd := fun _ => .other
      joined := fun _ => [] }
  threads := fun i => (threeCalls i).script i

/-- The second process makes the file first, and so it is its namespace that is joined. -/
theorem joined_second :
    let final := Runs.after (pick (PersistCmd.effect [])) threeStart
      ([(0, false), (1, false), (1, false), (0, false), (1, false)] ++ [(2, false), (2, false)])
    final.threads 0 ≠ .ret .ok ∧
      ∃ shown, final.state.entries ["run".toList, "a".toList] = some (.file [shown]) ∧
        (final.state.joined 2).head? = some shown := by
  intro final
  obtain ⟨shown, -, hentry, halone, hjoin⟩ :=
    @persisted_for_good _ _ [] threeCalls threeStart (fun _ => rfl)
      [(0, false), (1, false), (1, false), (0, false), (1, false)] [(2, false), (2, false)]
      1 _ _ _ rfl rfl
  have hpath : locate [] "/run/a".toList = ["run".toList, "a".toList] := by decide
  rw [hpath] at hentry
  exact ⟨halone 0 1 "net".toList _ (by decide) rfl rfl, shown, hentry,
    hjoin 2 _ _ rfl rfl rfl⟩

/-! ### Blocked -/

omit [DecidableEq ι] in
/-- A `persist` that has not made its file, or has given it up, holds none. -/
theorem PersistAt.unheld {source path : CStr} {prog : Script (PersistCmd ι) CrCode}
    {held : Option NsEntry} (hat : PersistAt source path prog held)
    (h : (∃ dir, prog.head? = some (.mkdir dir)) ∨ prog.head? = some (.create path) ∨
      prog = .ret .esyscall) : held = none := by
  cases hat with
  | mkdir | create | failed => rfl
  | bind =>
      obtain ⟨dir, hhead⟩ | hhead | hret := h
      · cases hhead
      · cases hhead
      · cases hret
  | unlink => simp at h
  | done shown => simp at h

omit [DecidableEq ι] in
theorem head?_namespacePersist (pid : Int) (nsName path : CStr) :
    (∃ dir, (namespacePersist pid nsName path : Script (PersistCmd ι) CrCode).head? =
      some (.mkdir dir)) ∨
      (namespacePersist pid nsName path : Script (PersistCmd ι) CrCode).head? =
        some (.create path) := by
  unfold namespacePersist
  cases beforeLastSlash path with
  | none => exact Or.inr rfl
  | some dir => exact Or.inl ⟨dir, rfl⟩

/-- **Where something is at a path while its calls have not begun or have failed, no `persist` of
it ever succeeds**, and what is there stays: an empty file, say, that could not be unlinked. -/
theorem blocked_for_good (hstart : ∀ i, p.threads i = (calls i).script i)
    (sched later : List (ι × Bool)) {point : Path} {e : NsEntry}
    (hentry : (Runs.after (pick (PersistCmd.effect cwd)) p sched).state.entries point = some e)
    (hidle : ∀ i pid nsName persistPath, calls i = .persist pid nsName persistPath →
      locate cwd persistPath = point →
      (Runs.after (pick (PersistCmd.effect cwd)) p sched).threads i =
          namespacePersist pid nsName persistPath ∨
        (Runs.after (pick (PersistCmd.effect cwd)) p sched).threads i = .ret .esyscall) :
    let final := Runs.after (pick (PersistCmd.effect cwd)) p (sched ++ later)
    final.state.entries point = some e ∧
      ∀ i pid nsName persistPath, calls i = .persist pid nsName persistPath →
        locate cwd persistPath = point → final.threads i ≠ .ret .ok := by
  intro final
  obtain ⟨holds, hway, -⟩ := onTheWay_after cwd hstart sched
  have hlost : Places.Lost (fun i => (calls i).place cwd) point e
      (places (Runs.after (pick (PersistCmd.effect cwd)) p sched).state holds) := by
    refine ⟨hentry, ?_⟩
    intro j hj
    have hat := hway.at_each j
    cases hcall : calls j with
    | persist pid nsName persistPath =>
        rw [hcall] at hat hj
        refine PersistAt.unheld hat ?_
        rcases hidle j pid nsName persistPath hcall (Option.some.inj hj) with hfresh | hfailed
        · rw [hfresh]
          exact (head?_namespacePersist pid nsName persistPath).imp_right Or.inl
        · exact Or.inr (Or.inr hfailed)
    | join | churn => simp [hcall, NsCall.place] at hj
  have hkeeps := Runs.keeps' (pick (PersistCmd.effect cwd))
    (I := fun q => ∃ holds, OnTheWay cwd calls q holds ∧
      Places.Lost (fun i => (calls i).place cwd) point e (places q.state holds))
    (by
      intro q x hq
      obtain ⟨holds, hway, hlost⟩ := hq
      obtain ⟨held, hstep⟩ := stepped hway x.1 x.2
      exact ⟨_, hway.step hstep, hlost.move hstep.move⟩)
    later _ ⟨holds, hway, hlost⟩
  rw [← Runs.after_append] at hkeeps
  obtain ⟨holds', hway', hlost'⟩ := hkeeps
  refine ⟨hlost'.cell, ?_⟩
  intro i pid nsName persistPath hcall hpath hret
  have hat := hway'.at_each i
  rw [hcall, hret] at hat
  obtain ⟨shown, hheld⟩ := PersistAt.of_ok hat
  have hunheld : holds' i = none := hlost'.unheld i (by rw [hcall]; exact congrArg some hpath)
  rw [hheld] at hunheld
  exact Option.some_ne_none _ hunheld

/-- The mount of the second process is refused, and so is the `unlink`.  The first one comes too
late for ever. -/
theorem blocked_by_leftover :
    let final := Runs.after (pick (PersistCmd.effect [])) threeStart
      ([(1, false), (1, false), (1, true), (1, true)] ++ [(0, false), (0, false)])
    final.state.entries ["run".toList, "a".toList] = some (.file []) ∧
      final.threads 0 ≠ .ret .ok := by
  intro final
  have hpath : locate [] "/run/a".toList = ["run".toList, "a".toList] := by decide
  have hidle : ∀ i pid nsName persistPath,
      threeCalls i = .persist pid nsName persistPath →
      locate [] persistPath = ["run".toList, "a".toList] →
      (Runs.after (pick (PersistCmd.effect [])) threeStart
          [(1, false), (1, false), (1, true), (1, true)]).threads i =
          namespacePersist pid nsName persistPath ∨
        (Runs.after (pick (PersistCmd.effect [])) threeStart
          [(1, false), (1, false), (1, true), (1, true)]).threads i = .ret .esyscall := by
    intro i pid nsName persistPath hcall _
    fin_cases i
    · obtain ⟨rfl, rfl, rfl⟩ := NsCall.persist.inj hcall
      exact Or.inl rfl
    · obtain ⟨rfl, rfl, rfl⟩ := NsCall.persist.inj hcall
      exact Or.inr rfl
    · cases hcall
  have hleft : (Runs.after (pick (PersistCmd.effect [])) threeStart
      [(1, false), (1, false), (1, true), (1, true)]).state.entries ["run".toList, "a".toList] =
        some (.file []) := by decide
  obtain ⟨hentry, hfails⟩ := blocked_for_good (p := threeStart) (fun _ => rfl)
    [(1, false), (1, false), (1, true), (1, true)] [(0, false), (0, false)] hleft hidle
  exact ⟨hentry, hfails 0 1 "net".toList _ rfl (by decide)⟩

end Cruntime
