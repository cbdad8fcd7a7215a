/-
`namespace_persist` and `namespace_join`: a path that stands for a namespace.

A namespace goes with its last process, unless its file under `/proc` is bind mounted somewhere.
`namespace_persist` makes an empty file and mounts the namespace on it; `namespace_join` opens
that file and enters what it shows.

Nothing is locked, but `O_CREAT | O_EXCL` makes the file itself a lock: of all the calls on one
path only the one that made the file goes on to mount on it, or to unlink it when the mount fails.
So the path is written once (`persisted_for_good`).  Whatever else is called, in any order, and
whatever processes end, the path keeps showing the namespace that was mounted, no other call on it
succeeds, and everyone who joins through it enters that namespace.

A call that could not mount has to take its file away again.  Where that is refused as well the
path is blocked, as is every path that something was at before (`blocked_for_good`).

Paths are taken as text, without links.  That an administrator unmounts a file is left out; the
runtime has no function for it.
-/
import Cruntime.Cgroup.Limits
import Cruntime.Lib.Paths
import Cruntime.Lib.Pool
import Cruntime.Lib.WriteOnce

namespace Cruntime

open Paths (Path locate)
open Script (issue)

/-! ### Files and descriptors -/

/-- What a file shows: a namespace, by its kind's clone flag and its number, or something else. -/
inductive Content where
  | ofNamespace (flag : Int) (inode : Nat)
  | other
deriving DecidableEq

/-- A file has the mounts on it, the last one on top. -/
inductive NsEntry where
  | directory
  | file (mounts : List Content)
deriving DecidableEq

/-- The file system, what the paths under `/proc` lead to, and for every process what it has open
and the namespaces it has entered, the last one first. -/
structure PersistHost (ι : Type) where
  entries : Path → Option NsEntry
  proc : CStr → Option Content
  fd : ι → Content
  joined : ι → List Content

inductive PersistCmd (ι : Type) where
  | mkdir (path : CStr)
  | create (path : CStr)
  | bind (source target : CStr)
  | unlink (path : CStr)
  | open (who : ι) (path : CStr)
  | setns (who : ι) (nsType : Int)
  -- processes start and end
  | processes (proc : CStr → Option Content)

section Effect

variable {ι : Type} [DecidableEq ι]

def PersistHost.put (h : PersistHost ι) (p : Path) (e : Option NsEntry) : PersistHost ι :=
  { h with entries := Function.update h.entries p e }

/-- An entry can be made: nothing is there, and its parent is a directory. -/
def PersistHost.HasRoom (h : PersistHost ι) (p : Path) : Prop :=
  h.entries p = none ∧ h.entries p.dropLast = some .directory

instance (h : PersistHost ι) (p : Path) : Decidable (h.HasRoom p) :=
  inferInstanceAs (Decidable (_ ∧ _))

/-- What `open` of an entry gives. -/
def NsEntry.top : NsEntry → Content
  | .file (c :: _) => c
  | _ => .other

/-- `setns` takes the kind it is told to expect, or with 0 any. -/
def Content.hasType : Content → Int → Bool
  | .ofNamespace flag _, nsType => nsType == 0 || nsType == flag
  | .other, _ => false

/-- What a call does, for processes in a directory. -/
def PersistCmd.effect (cwd : Path) : PersistCmd ι → PersistHost ι → Option (PersistHost ι)
  | .mkdir path, h =>
      if h.HasRoom (locate cwd path) then some (h.put (locate cwd path) (some .directory)) else none
  | .create path, h =>
      if path.getLast? ≠ some '/' ∧ h.HasRoom (locate cwd path) then
        some (h.put (locate cwd path) (some (.file [])))
      else none
  | .bind source target, h =>
      match h.entries (locate cwd target), h.proc source with
      | some (.file mounts), some c => some (h.put (locate cwd target) (some (.file (c :: mounts))))
      | _, _ => none
  | .unlink path, h =>
      if h.entries (locate cwd path) = some (.file []) then some (h.put (locate cwd path) none)
      else none
  | .open who path, h =>
      (h.entries (locate cwd path)).map fun e => { h with fd := Function.update h.fd who e.top }
  | .setns who nsType, h =>
      if (h.fd who).hasType nsType then
        some { h with joined := Function.update h.joined who (h.fd who :: h.joined who) }
      else none
  | .processes proc, h => some { h with proc := proc }

end Effect

/-! ### The functions -/

/-- The text in front of the last slash, as `strrchr` finds it. -/
def beforeLastSlash (path : CStr) : Option CStr :=
  match path.reverse.dropWhile (· ≠ '/') with
  | [] => none
  | _ :: rest => some rest.reverse

example : beforeLastSlash "/run/cruntime/netns/a".toList = some "/run/cruntime/netns".toList := by
  decide

section Functions

variable {ι : Type}

/-- `namespace_persist` when the file is made. -/
def bindAt (source persistPath : CStr) : Script (PersistCmd ι) CrCode := do
  unless ← issue (.bind source persistPath) do
    let _ ← issue (.unlink persistPath)
    return .esyscall
  return .ok

/-- `namespace_persist` when the parent directory has been tried. -/
def createAt (source persistPath : CStr) : Script (PersistCmd ι) CrCode := do
  -- Create bind mount to persist namespace
  unless ← issue (.create persistPath) do
    return .esyscall
  bindAt source persistPath

/-- `src`, in its 256 bytes. -/
def nsSource (pid : Int) (nsName : CStr) : CStr :=
  snprintf 256 ("/proc/".toList ++ decimalInt pid ++ "/ns/".toList ++ nsName)

/-- `namespace_persist`. -/
def namespacePersist (pid : Int) (nsName persistPath : CStr) : Script (PersistCmd ι) CrCode := do
  -- Create parent directory if needed
  if let some dir := beforeLastSlash persistPath then
    let _ ← issue (.mkdir dir)
  createAt (nsSource pid nsName) persistPath

/-- `namespace_join`, by the process `who`. -/
def namespaceJoin (who : ι) (nsPath : CStr) (nsType : Int) : Script (PersistCmd ι) CrCode := do
  unless ← issue (.open who nsPath) do
    return .esyscall
  unless ← issue (.setns who nsType) do
    return .esyscall
  return .ok

end Functions

/-- What one of the processes does. -/
inductive NsCall where
  | persist (pid : Int) (nsName persistPath : CStr)
  | join (nsPath : CStr) (nsType : Int)
  | churn (procs : List (CStr → Option Content))

def NsCall.script {ι : Type} (who : ι) : NsCall → Script (PersistCmd ι) CrCode
  | .persist pid nsName persistPath => namespacePersist pid nsName persistPath
  | .join nsPath nsType => namespaceJoin who nsPath nsType
  | .churn procs => procs.foldr (fun proc next => .exec (.processes proc) fun _ => next) (.ret .ok)

/-! ### How far a call has come -/

section Calls

variable {ι : Type} {source path : CStr}

/-- What a `persist` has still to do, with the entry it holds: its file, from the moment it is
made until it is taken away. -/
inductive PersistAt (source path : CStr) : Script (PersistCmd ι) CrCode → Option NsEntry → Prop
  | mkdir (dir : CStr) :
      PersistAt source path (.exec (.mkdir dir) fun _ => createAt source path) none
  | create : PersistAt source path (createAt source path) none
  | bind : PersistAt source path (bindAt source path) (some (.file []))
  | unlink : PersistAt source path (.exec (.unlink path) fun _ => .ret .esyscall) (some (.file []))
  | done (shown : Content) : PersistAt source path (.ret .ok) (some (.file [shown]))
  | failed : PersistAt source path (.ret .esyscall) none

/-- A command that changes no entry. -/
def PersistCmd.Quiet : PersistCmd ι → Prop
  | .open _ _ => True
  | .setns _ _ => True
  | .processes _ => True
  | _ => False

/-- What a call has still to do, with the entry it holds. -/
def NsCall.At : NsCall → Script (PersistCmd ι) CrCode → Option NsEntry → Prop
  | .persist pid nsName persistPath, prog, held =>
      PersistAt (nsSource pid nsName) persistPath prog held
  | _, prog, held => prog.Uses PersistCmd.Quiet ∧ held = none

/-- Where a call makes its file. -/
def NsCall.place (cwd : Path) : NsCall → Option Path
  | .persist _ _ persistPath => some (locate cwd persistPath)
  | _ => none

theorem at_start (who : ι) (call : NsCall) : call.At (call.script who) none := by
  cases call with
  | persist pid nsName persistPath =>
      cases hdir : beforeLastSlash persistPath with
      | none =>
          have hprog : (namespacePersist pid nsName persistPath : Script (PersistCmd ι) CrCode) =
              createAt (nsSource pid nsName) persistPath := by
            unfold namespacePersist
            rw [hdir]
          show PersistAt _ _ (namespacePersist pid nsName persistPath) none
          rw [hprog]
          exact .create
      | some dir =>
          have hprog : (namespacePersist pid nsName persistPath : Script (PersistCmd ι) CrCode) =
              .exec (.mkdir dir) fun _ => createAt (nsSource pid nsName) persistPath := by
            unfold namespacePersist
            rw [hdir]
            rfl
          show PersistAt _ _ (namespacePersist pid nsName persistPath) none
          rw [hprog]
          exact .mkdir dir
  | join nsPath nsType =>
      refine ⟨⟨trivial, ?_⟩, rfl⟩
      intro ok
      cases ok with
      | false => trivial
      | true =>
          refine ⟨trivial, ?_⟩
          intro ok
          cases ok <;> trivial
  | churn procs =>
      refine ⟨?_, rfl⟩
      induction procs with
      | nil => trivial
      | cons proc rest ih => exact ⟨trivial, fun _ => ih⟩

/-- A call that has returned `CR_OK` holds a file with one mount on it. -/
theorem PersistAt.of_ok {held : Option NsEntry}
    (h : PersistAt source path (.ret .ok : Script (PersistCmd ι) CrCode) held) :
    ∃ shown, held = some (.file [shown]) := by
  generalize hprog : Script.ret CrCode.ok = prog at h
  cases h with
  | done shown => exact ⟨shown, rfl⟩
  | mkdir dir => simp at hprog
  | create => cases hprog
  | bind => cases hprog
  | unlink => simp at hprog
  | failed => simp at hprog

/-- The entries a host has, with what the calls hold of them. -/
def places (h : PersistHost ι) (holds : ι → Option NsEntry) : Places ι Path NsEntry :=
  ⟨h.entries, holds⟩

variable {cwd : Path} {who : ι} {calls : ι → NsCall}
  {p : Pool ι (PersistCmd ι) CrCode (PersistHost ι)}

/-- Every call is somewhere on its way, and the files that the calls hold are theirs alone. -/
structure OnTheWay (cwd : Path) (calls : ι → NsCall)
    (p : Pool ι (PersistCmd ι) CrCode (PersistHost ι)) (holds : ι → Option NsEntry) : Prop where
  at_each : ∀ i, (calls i).At (p.threads i) (holds i)
  exclusive : Places.Exclusive (fun i => (calls i).place cwd) (places p.state holds)

theorem onTheWay_start (hstart : ∀ i, p.threads i = (calls i).script i) :
    OnTheWay cwd calls p fun _ => none where
  at_each := by
    intro i
    rw [hstart i]
    exact at_start i (calls i)
  exclusive := ⟨fun _ _ _ _ h => (by cases h), fun _ _ _ _ _ h => absurd rfl h⟩

/-! ### One step -/

variable [DecidableEq ι] {h h' : PersistHost ι} {c : PersistCmd ι}
  {k : Bool → Script (PersistCmd ι) CrCode} {holds : ι → Option NsEntry}

/-- Where a command of a `persist` succeeds, the call takes its file, mounts on it, or lets it
go. -/
theorem PersistAt.success (place : ι → Option Path)
    (hat : PersistAt source path (.exec c k) (holds who))
    (hplace : place who = some (locate cwd path))
    (hshown : ∀ e, holds who = some e → h.entries (locate cwd path) = some e)
    (heff : c.effect cwd h = some h') :
    ∃ held, PersistAt source path (k true) held ∧
      Places.Move place who (places h holds) (places h' (Function.update holds who held)) ∧
      ∀ shown, held = some (.file [shown]) → c = .bind source path ∧ h.proc source = some shown := by
  generalize hprog : Script.exec c k = prog at hat
  generalize hheld : holds who = held at hat
  have hsame : ∀ held, holds who = held → Function.update holds who held = holds := by
    rintro held rfl
    exact Function.update_eq_self _ _
  cases hat with
  | mkdir dir =>
      injection hprog with hc hk
      subst hc hk
      simp only [PersistCmd.effect] at heff
      split_ifs at heff with hroom
      obtain rfl := Option.some.inj heff
      refine ⟨none, .create, ?_, by simp⟩
      rw [hsame none hheld]
      exact .fill NsEntry.directory hroom.1
  | create =>
      injection hprog with hc hk
      subst hc hk
      simp only [PersistCmd.effect] at heff
      split_ifs at heff with hroom
      obtain rfl := Option.some.inj heff
      exact ⟨some (.file []), .bind, .take (NsEntry.file []) hplace hroom.2.1, by simp⟩
  | bind =>
      injection hprog with hc hk
      subst hc hk
      simp only [PersistCmd.effect, hshown _ hheld] at heff
      cases hproc : h.proc source with
      | none => simp [hproc] at heff
      | some shown =>
          rw [hproc] at heff
          obtain rfl := Option.some.inj heff
          refine ⟨some (.file [shown]), .done shown, .write (NsEntry.file [shown]) hplace hheld, ?_⟩
          intro shown' heq
          exact ⟨rfl, by simpa using heq⟩
  | unlink =>
      injection hprog with hc hk
      subst hc hk
      simp only [PersistCmd.effect] at heff
      split_ifs at heff
      obtain rfl := Option.some.inj heff
      exact ⟨none, .failed, .release hplace hheld, by simp⟩
  | done shown => cases hprog
  | failed => cases hprog

/-- Where one fails, the call keeps its file or forgets it. -/
theorem PersistAt.failure (place : ι → Option Path)
    (hat : PersistAt source path (.exec c k) (holds who)) (h : PersistHost ι) :
    ∃ held, PersistAt source path (k false) held ∧
      Places.Move place who (places h holds) (places h (Function.update holds who held)) ∧
      ∀ shown, held ≠ some (.file [shown]) := by
  generalize hprog : Script.exec c k = prog at hat
  generalize hheld : holds who = held at hat
  have hidle : Places.Move place who (places h holds)
      (places h (Function.update holds who held)) := by
    rw [← hheld, Function.update_eq_self]
    exact .idle _
  cases hat with
  | mkdir dir =>
      injection hprog with hc hk
      subst hc hk
      exact ⟨none, .create, hidle, by simp⟩
  | create =>
      injection hprog with hc hk
      subst hc hk
      exact ⟨none, .failed, hidle, by simp⟩
  | bind =>
      injection hprog with hc hk
      subst hc hk
      exact ⟨some (.file []), .unlink, hidle, by simp⟩
  | unlink =>
      injection hprog with hc hk
      subst hc hk
      exact ⟨none, .failed, .abandon _, by simp⟩
  | done shown => cases hprog
  | failed => cases hprog

theorem entries_of_quiet (hc : c.Quiet) (heff : c.effect cwd h = some h') :
    h'.entries = h.entries := by
  cases c with
  | «open» who path =>
      obtain ⟨e, -, rfl⟩ := Option.map_eq_some_iff.mp heff
      rfl
  | setns who nsType =>
      simp only [PersistCmd.effect] at heff
      split_ifs at heff
      obtain rfl := Option.some.inj heff
      rfl
  | processes proc =>
      obtain rfl := Option.some.inj heff
      rfl
  | mkdir path => exact hc.elim
  | create path => exact hc.elim
  | bind source target => exact hc.elim
  | unlink path => exact hc.elim

/-- What a step can do to what is held. -/
structure Stepped (cwd : Path) (calls : ι → NsCall)
    (p : Pool ι (PersistCmd ι) CrCode (PersistHost ι)) (who : ι) (holds : ι → Option NsEntry)
    (q : Pool ι (PersistCmd ι) CrCode (PersistHost ι)) (held : Option NsEntry) : Prop where
  at_self : (calls who).At (q.threads who) held
  move : Places.Move (fun i => (calls i).place cwd) who (places p.state holds)
    (places q.state (Function.update holds who held))
  shown : ∀ pid nsName persistPath, calls who = .persist pid nsName persistPath →
    ∀ shown, held = some (.file [shown]) →
      holds who = held ∨ (p.threads who).head? = some (.bind (nsSource pid nsName) persistPath) ∧
        p.state.proc (nsSource pid nsName) = some shown

theorem stepped_persist {pid : Int} {nsName persistPath : CStr} (hway : OnTheWay cwd calls p holds)
    (hcall : calls who = .persist pid nsName persistPath) (hprog : p.threads who = .exec c k)
    (fault : Bool) :
    ∃ held, Stepped cwd calls p who holds (p.step (PersistCmd.effect cwd) who fault) held := by
  have hplace : (calls who).place cwd = some (locate cwd persistPath) := by
    rw [hcall]
    rfl
  have hat := hway.at_each who
  rw [hcall, hprog] at hat
  rcases Pool.step_exec_cases (PersistCmd.effect cwd) hprog fault with ⟨-, h', heff, hstep⟩ | hstep
  · obtain ⟨held, hself, hmove, hshown⟩ := PersistAt.success (fun i => (calls i).place cwd) hat
      hplace (fun e => hway.exclusive.shown who _ e hplace) heff
    rw [hstep]
    refine ⟨held, ?_, hmove, ?_⟩
    · show (calls who).At (Function.update p.threads who (k true) who) held
      rw [hcall, Function.update_self]
      exact hself
    · intro pid' nsName' path' hcall' shown hheld
      rw [hcall] at hcall'
      obtain ⟨rfl, rfl, rfl⟩ := NsCall.persist.inj hcall'
      obtain ⟨rfl, hproc⟩ := hshown shown hheld
      exact Or.inr ⟨by rw [hprog]; rfl, hproc⟩
  · obtain ⟨held, hself, hmove, hnot⟩ := PersistAt.failure (fun i => (calls i).place cwd) hat
      p.state
    rw [hstep]
    refine ⟨held, ?_, hmove, fun _ _ _ _ shown hheld => absurd hheld (hnot shown)⟩
    show (calls who).At (Function.update p.threads who (k false) who) held
    rw [hcall, Function.update_self]
    exact hself

theorem stepped_quiet (hplace : (calls who).place cwd = none) (hway : OnTheWay cwd calls p holds)
    (fault : Bool) :
    ∃ held, Stepped cwd calls p who holds (p.step (PersistCmd.effect cwd) who fault) held := by
  have hat : ∀ (prog : Script (PersistCmd ι) CrCode) (held : Option NsEntry),
      (calls who).At prog held ↔ prog.Uses PersistCmd.Quiet ∧ held = none := by
    intro prog held
    cases hcall : calls who with
    | persist => simp [hcall, NsCall.place] at hplace
    | join | churn => exact Iff.rfl
  obtain ⟨huses, hnone⟩ := (hat _ _).mp (hway.at_each who)
  have huses' : ((p.step (PersistCmd.effect cwd) who fault).threads who).Uses
        PersistCmd.Quiet ∧
      (p.step (PersistCmd.effect cwd) who fault).state.entries = p.state.entries := by
    cases hprog : p.threads who with
    | ret a =>
        rw [Pool.step_ret _ hprog]
        exact ⟨huses, rfl⟩
    | exec c k =>
        rw [hprog] at huses
        rcases Pool.step_exec_cases (PersistCmd.effect cwd) hprog fault with
          ⟨-, h', heff, hstep⟩ | hstep
        · rw [hstep]
          exact ⟨by simpa using huses.2 true, entries_of_quiet huses.1 heff⟩
        · rw [hstep]
          exact ⟨by simpa using huses.2 false, rfl⟩
  refine ⟨none, (hat _ _).mpr ⟨huses'.1, rfl⟩, ?_, by simp⟩
  rw [← hnone, Function.update_eq_self]
  unfold places
  rw [huses'.2]
  exact .idle _

/-- Whoever steps, it is one of the moves. -/
theorem stepped (hway : OnTheWay cwd calls p holds) (who : ι) (fault : Bool) :
    ∃ held, Stepped cwd calls p who holds (p.step (PersistCmd.effect cwd) who fault) held := by
  cases hcall : calls who with
  | persist pid nsName persistPath =>
      cases hprog : p.threads who with
      | ret a =>
          rw [Pool.step_ret _ hprog]
          refine ⟨holds who, hway.at_each who, ?_, fun _ _ _ _ _ _ => Or.inl rfl⟩
          rw [Function.update_eq_self]
          exact .idle _
      | exec c k => exact stepped_persist hway hcall hprog fault
  | join | churn => exact stepped_quiet (by rw [hcall]; rfl) hway fault

/-- A step of the pool keeps everything on its way. -/
theorem OnTheWay.step {held : Option NsEntry} {fault : Bool} (hway : OnTheWay cwd calls p holds)
    (hstep : Stepped cwd calls p who holds (p.step (PersistCmd.effect cwd) who fault) held) :
    OnTheWay cwd calls (p.step (PersistCmd.effect cwd) who fault)
      (Function.update holds who held) where
  at_each := by
    intro i
    by_cases hi : i = who
    · subst hi
      rw [Function.update_self]
      exact hstep.at_self
    · rw [Function.update_of_ne hi, Pool.step_threads_ne _ hi]
      exact hway.at_each i
  exclusive := hway.exclusive.move hstep.move

end Calls

end Cruntime
