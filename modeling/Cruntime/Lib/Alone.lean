/-
Programs that run as if they were alone.

Every program of a pool has a shadow: where its protocol is, and the state it would have brought
about by now if nobody else had run.  If a command is answered in the shared state as it is in the
shadow of the program that issues it, the program never notices the others, and what is true of
it alone is true of it in every schedule.  The relation between the shared state and the shadows
says how much of the one is to be found in the other.
-/
import Cruntime.Lib.Protocol

namespace Cruntime

namespace Pool

open Script (run attempt)

variable {ι Cmd α σ τ : Type} [DecidableEq ι] {sem : Cmd → σ → Option σ}
  {advance : τ → Cmd → Bool → Option τ} {fits : (ι → τ × σ) → σ → Prop}

/-- A command is answered as it is answered alone, and keeps the state and the shadows together. -/
structure Undisturbed (sem : Cmd → σ → Option σ) (advance : τ → Cmd → Bool → Option τ)
    (fits : (ι → τ × σ) → σ → Prop) : Prop where
  answer : ∀ {shadows i c s next}, fits shadows s →
    advance (shadows i).1 c (attempt sem false c (shadows i).2).1 = some next →
      (attempt sem false c s).1 = (attempt sem false c (shadows i).2).1
  keeps : ∀ {shadows i c s next}, fits shadows s →
    advance (shadows i).1 c (attempt sem false c (shadows i).2).1 = some next →
      fits (Function.update shadows i (next, (attempt sem false c (shadows i).2).2))
        (attempt sem false c s).2

/-- Every program keeps to its protocol, what is left of it does to its shadow what the whole of it
does to the state at the start, and the shared state fits the shadows. -/
structure Shadowed (sem : Cmd → σ → Option σ) (advance : τ → Cmd → Bool → Option τ)
    (fits : (ι → τ × σ) → σ → Prop) (start p : Pool ι Cmd α σ) (shadows : ι → τ × σ) : Prop where
  obeys : ∀ i, (p.threads i).Obeys advance (fun _ _ => True) (shadows i).1
  same : ∀ i, run sem (p.threads i) (.calm (shadows i).2) =
    run sem (start.threads i) (.calm start.state)
  fits : fits shadows p.state

theorem shadowed_turn (hsem : Undisturbed sem advance fits) {start p : Pool ι Cmd α σ} (i : ι)
    (h : ∃ shadows, Shadowed sem advance fits start p shadows) :
    ∃ shadows, Shadowed sem advance fits start (turn sem p i) shadows := by
  obtain ⟨shadows, h⟩ := h
  have hthread := h.obeys i
  have hsame := h.same i
  cases hp : p.threads i with
  | ret a => exact ⟨shadows, by rw [turn, step_ret sem hp]; exact h⟩
  | exec c k =>
      rw [hp] at hthread hsame
      rw [Script.run_exec_calm] at hsame
      obtain ⟨next, hnext, hrest⟩ := hthread (attempt sem false c (shadows i).2).1
      have hanswer := hsem.answer h.fits hnext
      rw [turn, step_exec sem hp, hanswer]
      have hobeys : ∀ j, (Function.update p.threads i
          (k (attempt sem false c (shadows i).2).1) j).Obeys advance (fun _ _ => True)
            (Function.update shadows i (next, (attempt sem false c (shadows i).2).2) j).1 := by
        intro j
        by_cases hj : j = i
        · subst hj
          rw [Function.update_self, Function.update_self]
          exact hrest
        · rw [Function.update_of_ne hj, Function.update_of_ne hj]
          exact h.obeys j
      refine ⟨_, hobeys, fun j => ?_, hsem.keeps h.fits hnext⟩
      show run sem (Function.update p.threads i _ j) _ = _
      by_cases hj : j = i
      · subst hj
        rw [Function.update_self, Function.update_self]
        exact hsame
      · rw [Function.update_of_ne hj, Function.update_of_ne hj]
        exact h.same j

/-- **The rule for programs that do not disturb each other**: in every schedule, a program that has
returned has the result it has alone, and its shadow is the state it leaves alone. -/
theorem alone_after (hsem : Undisturbed sem advance fits) {start : Pool ι Cmd α σ} {stage : τ}
    (hobeys : ∀ i, (start.threads i).Obeys advance (fun _ _ => True) stage)
    (hfits : fits (fun _ => (stage, start.state)) start.state) (sched : List ι) :
    ∃ shadows, fits shadows (Runs.after (turn sem) start sched).state ∧
      ∀ i a, (Runs.after (turn sem) start sched).threads i = .ret a →
        run sem (start.threads i) (.calm start.state) = (a, .calm (shadows i).2) := by
  obtain ⟨shadows, hafter⟩ := Runs.keeps' (turn sem)
    (I := fun p => ∃ shadows, Shadowed sem advance fits start p shadows)
    (fun _ i hp => shadowed_turn hsem i hp) sched start ⟨_, hobeys, fun _ => rfl, hfits⟩
  refine ⟨shadows, hafter.fits, fun i a hret => ?_⟩
  rw [← hafter.same i, hret]
  rfl

end Pool

end Cruntime
