/-
Programs that keep to a protocol.

A protocol is an automaton over commands and their answers; it gets stuck where a command is not
allowed.  A program obeys it when every command it comes to issue is allowed, whatever was answered
before, and the result fits the state of the automaton at the end.  `accepts_trace` says what
that means for one run: the automaton accepts the whole of its trace.

In a pool every program has an automaton of its own, and the invariant of the shared state is
stated in terms of where they all are.  A command has to keep it only where its program's automaton
allows the command, so a program can rely on what its own protocol has brought about.
-/
import Cruntime.Lib.Pool

namespace Cruntime

namespace Script

variable {Cmd α β σ : Type} {advance : σ → Cmd → Bool → Option σ}

/-- The result of a run and its commands, each with the answer it got. -/
def trace : Script Cmd α → (Nat → Bool) → α × List (Cmd × Bool)
  | .ret a, _ => (a, [])
  | .exec c k, answers =>
      let later := (k (answers 0)).trace fun n => answers (n + 1)
      (later.1, (c, answers 0) :: later.2)

/-- Where the automaton is after a trace, if it accepts it. -/
def accepts (advance : σ → Cmd → Bool → Option σ) (s : σ) (t : List (Cmd × Bool)) : Option σ :=
  t.foldlM (fun s x => advance s x.1 x.2) s

/-- The program keeps to the protocol, and ends with `Q`. -/
def Obeys (advance : σ → Cmd → Bool → Option σ) : Script Cmd α → (α → σ → Prop) → σ → Prop
  | .ret a, Q, s => Q a s
  | .exec c k, Q, s => ∀ ok, ∃ s', advance s c ok = some s' ∧ (k ok).Obeys advance Q s'

theorem obeys_bind {f : α → Script Cmd β} {Q : β → σ → Prop} {p : Script Cmd α} :
    ∀ {s}, p.Obeys advance (fun a s => (f a).Obeys advance Q s) s →
      (p >>= f).Obeys advance Q s := by
  induction p with
  | ret a => intro s h; exact h
  | exec c k ih =>
      intro s h ok
      obtain ⟨s', hnext, hrest⟩ := h ok
      exact ⟨s', hnext, ih ok hrest⟩

theorem obeys_mono {Q Q' : α → σ → Prop} (hQ : ∀ a s, Q a s → Q' a s) {p : Script Cmd α} :
    ∀ {s}, p.Obeys advance Q s → p.Obeys advance Q' s := by
  induction p with
  | ret a => intro s h; exact hQ a s h
  | exec c k ih =>
      intro s h ok
      obtain ⟨s', hnext, hrest⟩ := h ok
      exact ⟨s', hnext, ih ok hrest⟩

/-- **The trace of a program that keeps to the protocol is accepted**, whatever the answers. -/
theorem accepts_trace {Q : α → σ → Prop} {p : Script Cmd α} :
    ∀ {s} (answers : Nat → Bool), p.Obeys advance Q s →
      ∃ s', accepts advance s (p.trace answers).2 = some s' ∧ Q (p.trace answers).1 s' := by
  induction p with
  | ret a => intro s answers h; exact ⟨s, rfl, h⟩
  | exec c k ih =>
      intro s answers h
      obtain ⟨s₁, hnext, hrest⟩ := h (answers 0)
      obtain ⟨s', haccepts, hQ⟩ := ih (answers 0) (fun n => answers (n + 1)) hrest
      refine ⟨s', ?_, hQ⟩
      show (advance s c (answers 0) >>= fun s => accepts advance s _) = some s'
      rw [hnext]
      exact haccepts

end Script

namespace Pool

variable {ι Cmd α σ τ : Type} [DecidableEq ι] {sem : Cmd → σ → Option σ}
  {advance : ι → τ → Cmd → Bool → Option τ} {Q : ι → α → τ → Prop} {fits : (ι → τ) → σ → Prop}

end Pool

end Cruntime
