/-
Programs that issue commands and branch on whether each one succeeded.

A command is a partial function on the state: `none` means that it exits with a
non-zero status and changes nothing.  On top of that a command may be *made* to
fail, which is how an environment that can refuse anything is modelled: a run
carries a stream of Booleans, one for each command issued, and `true` means that
this one fails whatever the state is.

`run` executes a program against such a stream.  `wp` is the precondition that
works for every stream at once, and `Uses` bounds the commands a program can
issue; between them they carry most invariants, because an invariant of the
commands is an invariant of every program over them.
-/
import Mathlib.Logic.Function.Basic
import Mathlib.Data.List.Basic
import Mathlib.Data.Nat.Basic

namespace Cruntime

/-- A program over commands `Cmd`: finished, or issuing one command and going on
with the status it returned. -/
inductive Script (Cmd α : Type) : Type where
  | ret (a : α)
  | exec (c : Cmd) (k : Bool → Script Cmd α)

/-- A state together with the failures still to come. -/
structure World (σ : Type) where
  state : σ
  faults : Nat → Bool

namespace World

variable {σ : Type}

/-- The world without its first scheduled failure, in a new state. -/
def next (w : World σ) (s : σ) : World σ := ⟨s, fun n => w.faults (n + 1)⟩

@[simp] theorem next_state (w : World σ) (s : σ) : (w.next s).state = s := rfl

@[simp] theorem next_faults (w : World σ) (s : σ) (n : Nat) :
    (w.next s).faults n = w.faults (n + 1) := rfl

/-- A world in which nothing is made to fail. -/
def calm (s : σ) : World σ := ⟨s, fun _ => false⟩

@[simp] theorem calm_state (s : σ) : (calm s).state = s := rfl

@[simp] theorem calm_faults (s : σ) (n : Nat) : (calm s).faults n = false := rfl

@[simp] theorem calm_next (s s' : σ) : (calm s).next s' = calm s' := rfl

end World

namespace Script

variable {Cmd α β σ : Type}

protected def bind : Script Cmd α → (α → Script Cmd β) → Script Cmd β
  | .ret a, f => f a
  | .exec c k, f => .exec c fun ok => (k ok).bind f

instance : Monad (Script Cmd) where
  pure := .ret
  bind := Script.bind

/-- Issue one command and return its status. -/
def issue (c : Cmd) : Script Cmd Bool := .exec c .ret

@[simp] theorem pure_eq_ret (a : α) : (pure a : Script Cmd α) = .ret a := rfl

@[simp] theorem ret_bind (a : α) (f : α → Script Cmd β) : (Script.ret a >>= f) = f a := rfl

@[simp] theorem exec_bind (c : Cmd) (k : Bool → Script Cmd α) (f : α → Script Cmd β) :
    (Script.exec c k >>= f) = .exec c fun ok => k ok >>= f := rfl

@[simp] theorem issue_bind (c : Cmd) (f : Bool → Script Cmd β) :
    (issue c >>= f) = .exec c f := rfl

/-- The command a program is about to issue. -/
def head? : Script Cmd α → Option Cmd
  | .ret _ => none
  | .exec c _ => some c

@[simp] theorem head?_ret (a : α) : (Script.ret a : Script Cmd α).head? = none := rfl

@[simp] theorem head?_exec (c : Cmd) (k : Bool → Script Cmd α) :
    (Script.exec c k).head? = some c := rfl

/-- The most commands the program can come to issue. -/
def depth : Script Cmd α → Nat
  | .ret _ => 0
  | .exec _ k => max (k true).depth (k false).depth + 1

theorem depth_le (c : Cmd) (k : Bool → Script Cmd α) (ok : Bool) :
    (k ok).depth + 1 ≤ (Script.exec c k).depth := by
  cases ok with
  | true => exact Nat.succ_le_succ (le_max_left _ _)
  | false => exact Nat.succ_le_succ (le_max_right _ _)

/-! ### Running a program -/

variable (sem : Cmd → σ → Option σ)

/-- One command: its status, and the state it leaves. -/
def attempt (fault : Bool) (c : Cmd) (s : σ) : Bool × σ :=
  if fault then (false, s)
  else match sem c s with
    | some s' => (true, s')
    | none => (false, s)

@[simp] theorem attempt_fault (c : Cmd) (s : σ) : attempt sem true c s = (false, s) := rfl

theorem attempt_some {c : Cmd} {s t : σ} (h : sem c s = some t) :
    attempt sem false c s = (true, t) := by
  simp [attempt, h]

theorem attempt_none {c : Cmd} {s : σ} (h : sem c s = none) (fault : Bool) :
    attempt sem fault c s = (false, s) := by
  cases fault <;> simp [attempt, h]

/-- Everything a command can do: succeed with its effect, or fail and change nothing. -/
theorem attempt_cases (fault : Bool) (c : Cmd) (s : σ) :
    (fault = false ∧ ∃ s', sem c s = some s' ∧ attempt sem fault c s = (true, s')) ∨
      attempt sem fault c s = (false, s) := by
  cases fault with
  | true => exact Or.inr rfl
  | false =>
      cases h : sem c s with
      | none => exact Or.inr (attempt_none sem h false)
      | some s' => exact Or.inl ⟨rfl, s', rfl, attempt_some sem h⟩

/-- Run a program, each command meeting the next Boolean of the failure stream. -/
def run : Script Cmd α → World σ → α × World σ
  | .ret a, w => (a, w)
  | .exec c k, w =>
      run (k (attempt sem (w.faults 0) c w.state).1)
        (w.next (attempt sem (w.faults 0) c w.state).2)

@[simp] theorem run_ret (a : α) (w : World σ) : run sem (.ret a : Script Cmd α) w = (a, w) := rfl

theorem run_exec (c : Cmd) (k : Bool → Script Cmd α) (w : World σ) :
    run sem (.exec c k) w = run sem (k (attempt sem (w.faults 0) c w.state).1)
      (w.next (attempt sem (w.faults 0) c w.state).2) := rfl

/-- A command that nothing is made to fail. -/
theorem run_exec_calm (c : Cmd) (k : Bool → Script Cmd α) (s : σ) :
    run sem (.exec c k) (World.calm s) =
      run sem (k (attempt sem false c s).1) (World.calm (attempt sem false c s).2) := rfl

/-- Running a sequence runs the first part and then the second where it stopped. -/
theorem run_bind (s : Script Cmd α) (f : α → Script Cmd β) :
    ∀ w : World σ, run sem (s >>= f) w = run sem (f (run sem s w).1) (run sem s w).2 := by
  induction s with
  | ret a => intro w; rfl
  | exec c k ih =>
      intro w
      rw [exec_bind, run_exec, run_exec, ih]

theorem run_exec_of_some {c : Cmd} {k : Bool → Script Cmd α} {w : World σ} {s' : σ}
    (hf : w.faults 0 = false) (h : sem c w.state = some s') :
    run sem (.exec c k) w = run sem (k true) (w.next s') := by
  rw [run_exec, hf, attempt_some sem h]

theorem run_exec_of_none {c : Cmd} {k : Bool → Script Cmd α} {w : World σ}
    (h : sem c w.state = none) : run sem (.exec c k) w = run sem (k false) (w.next w.state) := by
  rw [run_exec, attempt_none sem h]

theorem run_exec_of_fault {c : Cmd} {k : Bool → Script Cmd α} {w : World σ}
    (hf : w.faults 0 = true) : run sem (.exec c k) w = run sem (k false) (w.next w.state) := by
  rw [run_exec, hf, attempt_fault]

/-- A run meets no failure beyond its depth. -/
theorem run_congr_faults {p : Script Cmd α} :
    ∀ {w w' : World σ}, w.state = w'.state → (∀ n < p.depth, w.faults n = w'.faults n) →
      (run sem p w).1 = (run sem p w').1 ∧ (run sem p w).2.state = (run sem p w').2.state := by
  induction p with
  | ret a => intro w w' hstate _; exact ⟨rfl, hstate⟩
  | exec c k ih =>
      intro w w' hstate hfaults
      have hfirst : w.faults 0 = w'.faults 0 := hfaults 0 (Nat.succ_pos _)
      rw [run_exec, run_exec, hfirst, hstate]
      refine ih _ rfl fun n hn => hfaults (n + 1) ?_
      exact Nat.lt_of_lt_of_le (Nat.succ_lt_succ hn) (depth_le c k _)

/-- Where nothing is made to fail, nothing will be. -/
theorem run_calm (p : Script Cmd α) :
    ∀ s : σ, (run sem p (.calm s)).2 = .calm (run sem p (.calm s)).2.state := by
  induction p with
  | ret a => intro s; rfl
  | exec c k ih =>
      intro s
      rw [run_exec_calm]
      exact ih _ _

/-! ### Preconditions for every failure stream -/

/-- `Q` holds of the result and the final state, whichever commands are made to fail. -/
def wp : Script Cmd α → (α → σ → Prop) → σ → Prop
  | .ret a, Q, s => Q a s
  | .exec c k, Q, s => (∀ s', sem c s = some s' → wp (k true) Q s') ∧ wp (k false) Q s

@[simp] theorem wp_ret (a : α) (Q : α → σ → Prop) (s : σ) :
    wp sem (.ret a : Script Cmd α) Q s ↔ Q a s := Iff.rfl

@[simp] theorem wp_exec (c : Cmd) (k : Bool → Script Cmd α) (Q : α → σ → Prop) (s : σ) :
    wp sem (.exec c k) Q s ↔
      (∀ s', sem c s = some s' → wp sem (k true) Q s') ∧ wp sem (k false) Q s := Iff.rfl

theorem wp_mono {s : Script Cmd α} {Q Q' : α → σ → Prop} (hQ : ∀ a st, Q a st → Q' a st) :
    ∀ st, wp sem s Q st → wp sem s Q' st := by
  induction s with
  | ret a => intro st h; exact hQ a st h
  | exec c k ih =>
      intro st h
      exact ⟨fun s' hs' => ih true s' (h.1 s' hs'), ih false st h.2⟩

/-- **The rule for runs**: a precondition that works for every failure stream works
for the one at hand. -/
theorem wp_run {s : Script Cmd α} {Q : α → σ → Prop} :
    ∀ w : World σ, wp sem s Q w.state → Q (run sem s w).1 (run sem s w).2.state := by
  induction s with
  | ret a => intro w h; exact h
  | exec c k ih =>
      intro w h
      rw [run_exec]
      rcases attempt_cases sem (w.faults 0) c w.state with ⟨-, s', hs', ha⟩ | ha
      · rw [ha]; exact ih true (w.next s') (h.1 s' hs')
      · rw [ha]; exact ih false (w.next w.state) h.2

/-! ### The commands a program can issue -/

/-- Every command the program can come to issue satisfies `p`. -/
def Uses (p : Cmd → Prop) : Script Cmd α → Prop
  | .ret _ => True
  | .exec c k => p c ∧ ∀ ok, (k ok).Uses p

@[simp] theorem uses_ret (p : Cmd → Prop) (a : α) : (Script.ret a).Uses p ↔ True := Iff.rfl

@[simp] theorem uses_exec (p : Cmd → Prop) (c : Cmd) (k : Bool → Script Cmd α) :
    (Script.exec c k).Uses p ↔ p c ∧ ∀ ok, (k ok).Uses p := Iff.rfl

theorem uses_bind {p : Cmd → Prop} {s : Script Cmd α} {f : α → Script Cmd β}
    (hs : s.Uses p) (hf : ∀ a, (f a).Uses p) : (s >>= f).Uses p := by
  induction s with
  | ret a => exact hf a
  | exec c k ih => exact ⟨hs.1, fun ok => ih ok (hs.2 ok)⟩

/-- What a sequence uses, its first part uses. -/
theorem uses_of_bind {p : Cmd → Prop} {s : Script Cmd α} {f : α → Script Cmd β}
    (h : (s >>= f).Uses p) : s.Uses p := by
  induction s with
  | ret a => exact trivial
  | exec c k ih => exact ⟨h.1, fun ok => ih ok (h.2 ok)⟩

theorem uses_mono {p q : Cmd → Prop} (hpq : ∀ c, p c → q c) {s : Script Cmd α}
    (h : s.Uses p) : s.Uses q := by
  induction s with
  | ret a => exact h
  | exec c k ih => exact ⟨hpq c h.1, fun ok => ih ok (h.2 ok)⟩

/-- **The invariant rule**: what every command of a program keeps, the program keeps. -/
theorem wp_of_uses {p : Cmd → Prop} {I : σ → Prop}
    (hI : ∀ c, p c → ∀ s s', sem c s = some s' → I s → I s') {s : Script Cmd α}
    (h : s.Uses p) : ∀ st, I st → wp sem s (fun _ st' => I st') st := by
  induction s with
  | ret a => intro st hst; exact hst
  | exec c k ih =>
      intro st hst
      exact ⟨fun s' hs' => ih true (h.2 true) s' (hI c h.1 st s' hs' hst), ih false (h.2 false) st hst⟩

/-- The invariant rule, read off a run. -/
theorem run_keeps {p : Cmd → Prop} {I : σ → Prop}
    (hI : ∀ c, p c → ∀ s s', sem c s = some s' → I s → I s') {s : Script Cmd α}
    (h : s.Uses p) (w : World σ) (hw : I w.state) : I (run sem s w).2.state :=
  wp_run sem w (wp_of_uses sem hI h w.state hw)

/-! ### Sequences that stop at the first failure -/

/-- Issue the commands in order and return `e` at the first one that fails. -/
def checkAll (cs : List Cmd) (e : α) (next : Script Cmd α) : Script Cmd α :=
  match cs with
  | [] => next
  | c :: rest => .exec c fun ok => if ok then checkAll rest e next else .ret e

theorem checkAll_append (cs cs' : List Cmd) (e : α) (next : Script Cmd α) :
    checkAll (cs ++ cs') e next = checkAll cs e (checkAll cs' e next) := by
  induction cs with
  | nil => rfl
  | cons c rest ih =>
      show Script.exec c (fun ok => if ok then checkAll (rest ++ cs') e next else .ret e) = _
      rw [ih]
      rfl

/-- What follows a sequence and passes its error on follows what the sequence leads to. -/
theorem checkAll_bind (cs : List Cmd) {e : α} {e' : β} {k : α → Script Cmd β}
    (hk : k e = .ret e') (next : Script Cmd α) :
    (checkAll cs e next >>= k) = checkAll cs e' (next >>= k) := by
  induction cs with
  | nil => rfl
  | cons c rest ih =>
      show Script.exec c (fun ok => (if ok then checkAll rest e next else .ret e) >>= k) =
        Script.exec c fun ok => if ok then checkAll rest e' (next >>= k) else .ret e'
      congr 1
      funext ok
      cases ok with
      | true => exact ih
      | false => exact hk

/-- The position of the first command that fails when they are issued in order. -/
def firstFailure : List Cmd → World σ → Option Nat
  | [], _ => none
  | c :: rest, w =>
      if (attempt sem (w.faults 0) c w.state).1 then
        (firstFailure rest (w.next (attempt sem (w.faults 0) c w.state).2)).map (· + 1)
      else some 0

theorem uses_checkAll {p : Cmd → Prop} {cs : List Cmd} {e : α} {next : Script Cmd α}
    (hcs : ∀ c ∈ cs, p c) (hnext : next.Uses p) : (checkAll cs e next).Uses p := by
  induction cs with
  | nil => exact hnext
  | cons c rest ih =>
      refine ⟨hcs c (by simp), fun ok => ?_⟩
      cases ok with
      | true => exact ih fun d hd => hcs d (by simp [hd])
      | false => exact trivial

/-- Every command of a sequence can come to be issued. -/
theorem mem_of_uses_checkAll {p : Cmd → Prop} {cs : List Cmd} {e : α} {next : Script Cmd α}
    (h : (checkAll cs e next).Uses p) : ∀ c ∈ cs, p c := by
  induction cs with
  | nil => intro c hc; simp at hc
  | cons c rest ih =>
      intro d hd
      rcases List.mem_cons.mp hd with rfl | hd
      · exact h.1
      · exact ih (h.2 true) d hd

/-- A sequence whose first command fails changes nothing. -/
theorem run_checkAll_zero {cs : List Cmd} {w : World σ} (e : α) (next : Script Cmd α)
    (h : firstFailure sem cs w = some 0) :
    run sem (checkAll cs e next) w = (e, w.next w.state) := by
  cases cs with
  | nil => simp [firstFailure] at h
  | cons c rest =>
      rcases attempt_cases sem (w.faults 0) c w.state with ⟨-, s', -, ha⟩ | ha
      · simp [firstFailure, ha] at h
      · rw [checkAll, run_exec, ha]
        rfl

/-- A sequence that fails later has run its first command. -/
theorem run_checkAll_succ {c : Cmd} {cs : List Cmd} {w : World σ} {i : Nat} (e : α)
    (next : Script Cmd α) (h : firstFailure sem (c :: cs) w = some (i + 1)) :
    ∃ s', sem c w.state = some s' ∧
      run sem (checkAll (c :: cs) e next) w = run sem (checkAll cs e next) (w.next s') := by
  rcases attempt_cases sem (w.faults 0) c w.state with ⟨-, s', hs', ha⟩ | ha
  · exact ⟨s', hs', by rw [checkAll, run_exec, ha]; rfl⟩
  · simp [firstFailure, ha] at h

/-- The result of a sequence is `e` exactly when one of its commands fails, provided
what follows returns something else. -/
theorem run_checkAll_result (cs : List Cmd) (e : α) (next : Script Cmd α) :
    ∀ w : World σ, (∀ w', (run sem next w').1 ≠ e) →
      ((run sem (checkAll cs e next) w).1 = e ↔ firstFailure sem cs w ≠ none) := by
  induction cs with
  | nil => intro w hnext; simpa [checkAll, firstFailure] using hnext w
  | cons c rest ih =>
      intro w hnext
      rcases attempt_cases sem (w.faults 0) c w.state with ⟨-, s', -, ha⟩ | ha
      · rw [checkAll, run_exec, ha]
        simpa [firstFailure, ha] using ih (w.next s') hnext
      · rw [checkAll, run_exec, ha]
        simp [firstFailure, ha]

/-! ### Sequences that go on whatever happens -/

/-- Issue the commands in order, whatever becomes of each. -/
def tryAll (cs : List Cmd) (next : Script Cmd α) : Script Cmd α :=
  match cs with
  | [] => next
  | c :: rest => .exec c fun _ => tryAll rest next

theorem tryAll_append (cs cs' : List Cmd) (next : Script Cmd α) :
    tryAll (cs ++ cs') next = tryAll cs (tryAll cs' next) := by
  induction cs with
  | nil => rfl
  | cons c rest ih =>
      show Script.exec c (fun _ => tryAll (rest ++ cs') next) = _
      rw [ih]
      rfl

/-- The program issues the command, whatever becomes of it and of the others. -/
def Issues (c : Cmd) : Script Cmd α → Prop
  | .ret _ => False
  | .exec d k => d = c ∨ ∀ ok, (k ok).Issues c

theorem issues_tryAll {c : Cmd} {cs : List Cmd} {a : α} :
    (tryAll cs (.ret a)).Issues c ↔ c ∈ cs := by
  induction cs with
  | nil => exact ⟨fun h => h.elim, fun h => by simp at h⟩
  | cons d rest ih =>
      show (d = c ∨ ∀ _ : Bool, (tryAll rest (.ret a)).Issues c) ↔ _
      rw [List.mem_cons, ih, forall_const, eq_comm]

/-- The result of such a sequence is what follows it returns. -/
theorem run_tryAll_ret (cs : List Cmd) (a : α) :
    ∀ w : World σ, (run sem (tryAll cs (.ret a)) w).1 = a := by
  induction cs with
  | nil => intro w; rfl
  | cons c rest ih =>
      intro w
      show (run sem (.exec c fun _ => tryAll rest (.ret a)) w).1 = a
      rw [run_exec]
      exact ih _

end Script

end Cruntime
