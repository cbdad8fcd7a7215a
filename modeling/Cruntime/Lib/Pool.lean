/-
Several programs over one state, interleaved command by command.

A pool is the shared state and what each thread still has to do.  One step picks
a thread and lets it issue its next command; a schedule is a list of picks, each
with the Boolean that says whether that command is made to fail.  Nothing is said
about fairness: a safety property of all schedules covers every interleaving.

A program issues a bounded number of commands (`Script.depth`), so a thread that gets
that many turns has returned, however the others are scheduled.
-/
import Cruntime.Lib.Runs
import Cruntime.Lib.Script

namespace Cruntime

/-- The shared state and the programs still running on it. -/
structure Pool (ι Cmd α σ : Type) where
  state : σ
  threads : ι → Script Cmd α

namespace Pool

variable {ι Cmd α σ : Type} [DecidableEq ι] (sem : Cmd → σ → Option σ)

/-- Thread `i` issues its next command; a finished thread does nothing. -/
def step (p : Pool ι Cmd α σ) (i : ι) (fault : Bool) : Pool ι Cmd α σ :=
  match p.threads i with
  | .ret _ => p
  | .exec c k =>
      ⟨(Script.attempt sem fault c p.state).2,
        Function.update p.threads i (k (Script.attempt sem fault c p.state).1)⟩

theorem step_ret {p : Pool ι Cmd α σ} {i : ι} {a : α} (h : p.threads i = .ret a) (fault : Bool) :
    step sem p i fault = p := by
  simp [step, h]

theorem step_exec {p : Pool ι Cmd α σ} {i : ι} {c : Cmd} {k : Bool → Script Cmd α}
    (h : p.threads i = .exec c k) (fault : Bool) :
    step sem p i fault = ⟨(Script.attempt sem fault c p.state).2,
      Function.update p.threads i (k (Script.attempt sem fault c p.state).1)⟩ := by
  simp [step, h]

/-- A step leaves the other threads where they are. -/
theorem step_threads_ne {p : Pool ι Cmd α σ} {i j : ι} (hij : j ≠ i) (fault : Bool) :
    (step sem p i fault).threads j = p.threads j := by
  cases h : p.threads i with
  | ret a => rw [step_ret sem h]
  | exec c k => rw [step_exec sem h]; simp [hij]

/-- Everything the step of an unfinished thread can do: its command's effect, or
nothing but the failure status. -/
theorem step_exec_cases {p : Pool ι Cmd α σ} {i : ι} {c : Cmd} {k : Bool → Script Cmd α}
    (h : p.threads i = .exec c k) (fault : Bool) :
    (fault = false ∧ ∃ s', sem c p.state = some s' ∧
        step sem p i fault = ⟨s', Function.update p.threads i (k true)⟩) ∨
      step sem p i fault = ⟨p.state, Function.update p.threads i (k false)⟩ := by
  rw [step_exec sem h]
  rcases Script.attempt_cases sem fault c p.state with ⟨hf, s', hs', ha⟩ | ha
  · exact Or.inl ⟨hf, s', hs', by rw [ha]⟩
  · exact Or.inr (by rw [ha])

/-- A step of a schedule: the thread picked, and whether its command is made to fail. -/
def pick (p : Pool ι Cmd α σ) (x : ι × Bool) : Pool ι Cmd α σ := step sem p x.1 x.2

@[simp] theorem pick_mk (p : Pool ι Cmd α σ) (i : ι) (fault : Bool) :
    pick sem p (i, fault) = step sem p i fault := rfl

/-- What each program of a pool uses, it uses after any step. -/
theorem step_uses_each {P : ι → Cmd → Prop} {p : Pool ι Cmd α σ}
    (h : ∀ i, (p.threads i).Uses (P i)) (j : ι) (fault : Bool) (i : ι) :
    ((step sem p j fault).threads i).Uses (P i) := by
  by_cases hij : i = j
  · subst hij
    cases hp : p.threads i with
    | ret a => rw [step_ret sem hp]; exact h i
    | exec c k =>
        have huses := h i
        rw [hp] at huses
        rw [step_exec sem hp]
        simpa using huses.2 _
  · rw [step_threads_ne sem hij]
    exact h i

/-- What the programs of a pool use, they use after any step. -/
theorem step_uses {P : Cmd → Prop} {p : Pool ι Cmd α σ} (h : ∀ i, (p.threads i).Uses P) (j : ι)
    (fault : Bool) (i : ι) : ((step sem p j fault).threads i).Uses P :=
  step_uses_each sem h j fault i

/-! ### Turns -/

/-- Thread `i` issues its next command, and nothing is made to fail. -/
def turn (p : Pool ι Cmd α σ) (i : ι) : Pool ι Cmd α σ := step sem p i false

/-- A thread that has returned stays so. -/
theorem after_turns_ret {i : ι} {a : α} (sched : List ι) :
    ∀ p : Pool ι Cmd α σ, p.threads i = .ret a →
      (Runs.after (turn sem) p sched).threads i = .ret a :=
  Runs.keeps' (turn sem) (I := fun p => p.threads i = .ret a)
    (fun p j h => by
      by_cases hij : i = j
      · subst hij
        rw [turn, step_ret sem h]
        exact h
      · rw [turn, step_threads_ne sem hij]
        exact h)
    sched

/-- **Enough turns finish a thread**, however the others are scheduled. -/
theorem returned_of_turns {i : ι} (sched : List ι) :
    ∀ p : Pool ι Cmd α σ, (p.threads i).depth ≤ sched.count i →
      ∃ a, (Runs.after (turn sem) p sched).threads i = .ret a := by
  induction sched with
  | nil =>
      intro p h
      cases hp : p.threads i with
      | ret a => exact ⟨a, hp⟩
      | exec c k =>
          rw [hp] at h
          simp [Script.depth] at h
  | cons j rest ih =>
      intro p h
      cases hp : p.threads i with
      | ret a => exact ⟨a, after_turns_ret sem _ p hp⟩
      | exec c k =>
          refine ih _ ?_
          by_cases hij : i = j
          · subst hij
            have hless := Script.depth_le c k (Script.attempt sem false c p.state).1
            rw [hp, List.count_cons_self] at h
            rw [turn, step_exec sem hp]
            simp only [Function.update_self]
            omega
          · rw [turn, step_threads_ne sem hij]
            rwa [List.count_cons_of_ne (Ne.symm hij)] at h

end Pool

end Cruntime
