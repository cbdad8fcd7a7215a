/-
Runs of a deterministic step function.

A run is a list of actions, each applied to the state the ones before it left.
`Along` is a condition on every step of a run, taken in the state the step is made
in, which is what a result about runs that avoid something has to speak of.  The
invariant rule is stated once here: what every admissible step keeps, every
admissible run keeps.
-/
import Mathlib.Data.List.Basic

namespace Cruntime

namespace Runs

variable {σ Act : Type} (step : σ → Act → σ)

/-- The state after a run. -/
def after (s : σ) (acts : List Act) : σ := acts.foldl step s

@[simp] theorem after_nil (s : σ) : after step s [] = s := rfl

@[simp] theorem after_cons (s : σ) (a : Act) (rest : List Act) :
    after step s (a :: rest) = after step (step s a) rest := rfl

theorem after_append (acts acts' : List Act) (s : σ) :
    after step s (acts ++ acts') = after step (after step s acts) acts' :=
  List.foldl_append

/-- `P` holds of every step of the run, in the state it is made in. -/
def Along (P : σ → Act → Prop) : σ → List Act → Prop
  | _, [] => True
  | s, a :: rest => P s a ∧ Along P (step s a) rest

@[simp] theorem along_nil (P : σ → Act → Prop) (s : σ) : Along step P s [] ↔ True := Iff.rfl

@[simp] theorem along_cons (P : σ → Act → Prop) (s : σ) (a : Act) (rest : List Act) :
    Along step P s (a :: rest) ↔ P s a ∧ Along step P (step s a) rest := Iff.rfl

instance (P : σ → Act → Prop) [∀ s a, Decidable (P s a)] :
    (s : σ) → (acts : List Act) → Decidable (Along step P s acts)
  | _, [] => isTrue trivial
  | s, a :: rest =>
      have : Decidable (Along step P (step s a) rest) := instDecidableAlong P (step s a) rest
      inferInstanceAs (Decidable (P s a ∧ _))

theorem along_append {P : σ → Act → Prop} (acts acts' : List Act) :
    ∀ s, Along step P s (acts ++ acts') ↔
      Along step P s acts ∧ Along step P (after step s acts) acts' := by
  induction acts with
  | nil => intro s; simp
  | cons a rest ih =>
      intro s
      simp only [List.cons_append, along_cons, after_cons, ih, and_assoc]

/-- **The invariant rule**: what every admissible step keeps, every admissible run keeps. -/
theorem keeps {P : σ → Act → Prop} {I : σ → Prop} (hstep : ∀ s a, P s a → I s → I (step s a))
    (acts : List Act) : ∀ s, Along step P s acts → I s → I (after step s acts) := by
  induction acts with
  | nil => intro s _ h; exact h
  | cons a rest ih => intro s hall h; exact ih _ hall.2 (hstep s a hall.1 h)

/-- The invariant rule when every step is admissible. -/
theorem keeps' {I : σ → Prop} (hstep : ∀ s a, I s → I (step s a)) (acts : List Act) :
    ∀ s, I s → I (after step s acts) := by
  induction acts with
  | nil => intro s h; exact h
  | cons a rest ih => intro s h; exact ih _ (hstep s a h)

/-- The invariant before the last step of a run, with that step's own condition. -/
theorem keeps_last {P : σ → Act → Prop} {I : σ → Prop}
    (hstep : ∀ s a, P s a → I s → I (step s a)) {acts : List Act} {a : Act} {s : σ}
    (hall : Along step P s (acts ++ [a])) (h : I s) :
    I (after step s acts) ∧ P (after step s acts) a := by
  obtain ⟨hbefore, hlast⟩ := (along_append step acts [a] s).mp hall
  exact ⟨keeps step hstep acts s hbefore h, hlast.1⟩

end Runs

end Cruntime
