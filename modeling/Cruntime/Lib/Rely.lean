/-
One program among others that interfere with it.

A program of a pool is reasoned about on its own when it is known what the others may do
between two of its commands.  That is a relation on states, the *rely*, which has to be
reflexive and transitive.  `wpAmid` is the precondition of a program that meets it: before each
command, and before the result is looked at, the others may have moved the state along the
rely.  The rule for pools says that the result of a thread is then what its precondition
promised, in every schedule in which the steps of the others stay inside the rely.
-/
import Cruntime.Lib.Pool

namespace Cruntime

namespace Script

variable {Cmd α β σ : Type} (sem : Cmd → σ → Option σ) (rely : σ → σ → Prop)

/-- `Q` holds of the result and of every state from then on, whichever commands are made to fail
and whatever the others do inside the rely. -/
def wpAmid : Script Cmd α → (α → σ → Prop) → σ → Prop
  | .ret a, Q, s => ∀ t, rely s t → Q a t
  | .exec c k, Q, s =>
      ∀ t, rely s t → (∀ t', sem c t = some t' → wpAmid (k true) Q t') ∧ wpAmid (k false) Q t

variable {sem rely}

/-- What the others do first makes no difference. -/
theorem wpAmid_rely (htrans : ∀ s t u, rely s t → rely t u → rely s u) {p : Script Cmd α}
    {Q : α → σ → Prop} {s t : σ} (hst : rely s t) (h : wpAmid sem rely p Q s) :
    wpAmid sem rely p Q t := by
  cases p with
  | ret a => intro u hu; exact h u (htrans s t u hst hu)
  | exec c k => intro u hu; exact h u (htrans s t u hst hu)

end Script

namespace Pool

variable {ι Cmd α σ : Type} [DecidableEq ι] {sem : Cmd → σ → Option σ} {rely : σ → σ → Prop}

/-- A step of another thread stays inside the rely of thread `i`. -/
def OthersWithin (sem : Cmd → σ → Option σ) (rely : σ → σ → Prop) (i : ι)
    (p : Pool ι Cmd α σ) (x : ι × Bool) : Prop :=
  x.1 ≠ i → rely p.state (pick sem p x).state

/-- One step, of the thread itself or of another, keeps what the thread's program promises. -/
theorem wpAmid_pick (hrefl : ∀ s, rely s s) (htrans : ∀ s t u, rely s t → rely t u → rely s u)
    {i : ι} {Q : α → σ → Prop} {p : Pool ι Cmd α σ} {x : ι × Bool}
    (hothers : OthersWithin sem rely i p x)
    (h : Script.wpAmid sem rely (p.threads i) Q p.state) :
    Script.wpAmid sem rely ((pick sem p x).threads i) Q (pick sem p x).state := by
  obtain ⟨j, fault⟩ := x
  by_cases hij : j = i
  · subst hij
    rw [pick_mk]
    cases hp : p.threads j with
    | ret a => rwa [step_ret sem hp]
    | exec c k =>
        rw [hp] at h
        have hnow := h p.state (hrefl _)
        rcases step_exec_cases sem hp fault with ⟨-, s', hs', hstep⟩ | hstep
        · rw [hstep]
          simpa using hnow.1 s' hs'
        · rw [hstep]
          simpa using hnow.2
  · rw [pick_mk, step_threads_ne sem (Ne.symm hij)]
    exact Script.wpAmid_rely htrans (hothers hij) h

/-- **The rule for a thread among others**: in a schedule whose other steps stay inside the rely,
a thread that has returned has the result and the state that its program promises. -/
theorem returned_of_wpAmid (hrefl : ∀ s, rely s s)
    (htrans : ∀ s t u, rely s t → rely t u → rely s u) {i : ι} {Q : α → σ → Prop}
    {p : Pool ι Cmd α σ} {sched : List (ι × Bool)}
    (hothers : Runs.Along (pick sem) (OthersWithin sem rely i) p sched)
    (h : Script.wpAmid sem rely (p.threads i) Q p.state) {a : α}
    (hret : (Runs.after (pick sem) p sched).threads i = .ret a) :
    Q a (Runs.after (pick sem) p sched).state := by
  have hend := Runs.keeps (pick sem)
    (I := fun q => Script.wpAmid sem rely (q.threads i) Q q.state)
    (fun q x hx hq => wpAmid_pick hrefl htrans hx hq) sched p hothers h
  rw [hret] at hend
  exact hend _ (hrefl _)

end Pool

end Cruntime
