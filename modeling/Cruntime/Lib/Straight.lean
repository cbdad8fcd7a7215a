/-
Programs that run straight through a list of commands.

Most programs here check one command after the other and stop at the first failure,
so as long as nothing fails they issue a fixed list.  `Follows` says that a program
does: it issues the commands of the list in order, provided each one that has to
succeed does, and returns the given value.  What the list does to a state is
`execAll`, and a thread of a pool that follows a list makes its step when the first
command of the list is executed.  From there on a proof about interleavings is about
lists of commands and not about programs.
-/
import Cruntime.Lib.Pool

namespace Cruntime

namespace Script

variable {Cmd α β σ : Type}

/-- A command of a list, and whether it has to succeed for the program to go on. -/
structure Item (Cmd : Type) where
  cmd : Cmd
  must : Bool

variable (sem : Cmd → σ → Option σ)

/-- The state after a command that has to succeed, or may. -/
def Item.exec (x : Item Cmd) (s : σ) : Option σ :=
  if x.must then sem x.cmd s else some ((sem x.cmd s).getD s)

/-- The state after a list of commands, if those that have to succeed do. -/
def execAll : List (Item Cmd) → σ → Option σ
  | [], s => some s
  | x :: rest, s => (x.exec sem s).bind (execAll rest)

theorem execAll_cons {x : Item Cmd} {rest : List (Item Cmd)} {s u : σ} :
    execAll sem (x :: rest) s = some u ↔
      ∃ t, x.exec sem s = some t ∧ execAll sem rest t = some u :=
  Option.bind_eq_some_iff

theorem execAll_append {l l' : List (Item Cmd)} {u : σ} :
    ∀ {s : σ}, execAll sem (l ++ l') s = some u ↔
      ∃ t, execAll sem l s = some t ∧ execAll sem l' t = some u := by
  induction l with
  | nil => intro s; simp [execAll]
  | cons x rest ih =>
      intro s
      rw [List.cons_append, execAll_cons]
      simp only [ih, execAll_cons]
      constructor
      · rintro ⟨t, hx, t', hrest, hl'⟩
        exact ⟨t', ⟨t, hx, hrest⟩, hl'⟩
      · rintro ⟨t', ⟨t, hx, hrest⟩, hl'⟩
        exact ⟨t, hx, t', hrest, hl'⟩

/-- The program issues the commands of the list in order and returns `a`; where a command
that has to succeed fails it returns a `bad` value, unless that command cannot fail. -/
inductive Follows (bad : α → Prop) (a : α) : Script Cmd α → List (Item Cmd) → Prop
  | done : Follows bad a (.ret a) []
  | must {c : Cmd} {k : Bool → Script Cmd α} {rest : List (Item Cmd)}
      (hok : Follows bad a (k true) rest)
      (hno : (∀ s, sem c s ≠ none) ∨ ∃ e, bad e ∧ k false = .ret e) :
      Follows bad a (.exec c k) (⟨c, true⟩ :: rest)
  | may {c : Cmd} {k : Bool → Script Cmd α} {rest : List (Item Cmd)}
      (h : ∀ ok, Follows bad a (k ok) rest) : Follows bad a (.exec c k) (⟨c, false⟩ :: rest)

variable {sem}

/-- A program that returns no bad value has executed its list. -/
theorem Follows.run {bad : α → Prop} {a : α} {p : Script Cmd α} {l : List (Item Cmd)}
    (h : Follows sem bad a p l) :
    ∀ s : σ, ¬bad (run sem p (.calm s)).1 →
      ∃ s', execAll sem l s = some s' ∧ run sem p (.calm s) = (a, .calm s') := by
  induction h with
  | done => intro s _; exact ⟨s, rfl, rfl⟩
  | @must c k rest _ hno ih =>
      intro s hbad
      rw [run_exec_calm] at hbad ⊢
      cases hc : sem c s with
      | some t =>
          rw [attempt_some sem hc] at hbad ⊢
          obtain ⟨s', hs', hrun⟩ := ih t hbad
          exact ⟨s', (execAll_cons sem).mpr ⟨t, hc, hs'⟩, hrun⟩
      | none =>
          rcases hno with hnever | ⟨e, he, hk⟩
          · exact absurd hc (hnever s)
          · rw [attempt_none sem hc] at hbad
            simp only [hk, run_ret] at hbad
            exact absurd he hbad
  | @may c k rest _ ih =>
      intro s hbad
      rw [run_exec_calm] at hbad ⊢
      obtain ⟨s', hs', hrun⟩ := ih _ _ hbad
      refine ⟨s', (execAll_cons sem).mpr ⟨_, ?_, hs'⟩, hrun⟩
      show some ((sem c s).getD s) = _
      cases hc : sem c s with
      | some t => rw [attempt_some sem hc]; rfl
      | none => rw [attempt_none sem hc]; rfl

/-- The next command of the program is the next of its list. -/
theorem Follows.head?_eq {bad : α → Prop} {a : α} {p : Script Cmd α} {l : List (Item Cmd)}
    (h : Follows sem bad a p l) : p.head? = l.head?.map (·.cmd) := by
  cases h <;> rfl

/-- One program after the other. -/
theorem Follows.bind {bad : α → Prop} {bad' : β → Prop} {a : α} {b : β} {p : Script Cmd α}
    {f : α → Script Cmd β} {l l' : List (Item Cmd)} (h : Follows sem bad a p l)
    (hbad : ∀ e, bad e → ∃ e', bad' e' ∧ f e = .ret e') (hf : Follows sem bad' b (f a) l') :
    Follows sem bad' b (p >>= f) (l ++ l') := by
  induction h with
  | done => exact hf
  | must _ hno ih =>
      refine .must ih ?_
      rcases hno with hnever | ⟨e, he, hk⟩
      · exact Or.inl hnever
      · obtain ⟨e', he', hfe⟩ := hbad e he
        exact Or.inr ⟨e', he', by rw [hk]; exact hfe⟩
  | may _ ih => exact .may ih

/-- A checked sequence. -/
theorem follows_checkAll {bad : α → Prop} {a e : α} (he : bad e) (cs : List Cmd)
    {next : Script Cmd α} {l : List (Item Cmd)} (hnext : Follows sem bad a next l) :
    Follows sem bad a (checkAll cs e next) (cs.map (⟨·, true⟩) ++ l) := by
  induction cs with
  | nil => exact hnext
  | cons c rest ih => exact .must (by simpa using ih) (Or.inr ⟨e, he, rfl⟩)

end Script

/-! ### In a pool -/

namespace Pool

variable {ι Cmd α σ : Type} [DecidableEq ι] {sem : Cmd → σ → Option σ}

open Script (Follows Item)

/-- A thread that follows a list executes its first command and goes on with the rest. -/
theorem step_follows {p : Pool ι Cmd α σ} {i : ι} {bad : α → Prop} {a : α} {x : Item Cmd}
    {l : List (Item Cmd)} {s' : σ} (h : Follows sem bad a (p.threads i) (x :: l))
    (hx : x.exec sem p.state = some s') :
    ∃ t, Follows sem bad a t l ∧
      step sem p i false = ⟨s', Function.update p.threads i t⟩ := by
  cases hp : p.threads i with
  | ret r => rw [hp] at h; cases h
  | exec c k =>
      rw [hp] at h
      rw [step_exec sem hp]
      cases h with
      | must hok _ =>
          have hc : sem c p.state = some s' := hx
          rw [Script.attempt_some sem hc]
          exact ⟨_, hok, rfl⟩
      | may hk =>
          obtain rfl : (sem c p.state).getD p.state = s' := Option.some.inj hx
          refine ⟨k (Script.attempt sem false c p.state).1, hk _, ?_⟩
          cases hc : sem c p.state with
          | some t => rw [Script.attempt_some sem hc]; rfl
          | none => rw [Script.attempt_none sem hc]; rfl

/-- A thread at the end of its list has returned. -/
theorem ret_of_follows_nil {bad : α → Prop} {a : α} {t : Script Cmd α}
    (h : Follows sem bad a t []) : t = .ret a := by
  cases h
  rfl

/-- A thread that has returned is at the end of its list. -/
theorem nil_of_follows_ret {bad : α → Prop} {a r : α} {l : List (Item Cmd)}
    (h : Follows sem bad a (.ret r : Script Cmd α) l) : l = [] ∧ r = a := by
  cases h
  exact ⟨rfl, rfl⟩

end Pool

end Cruntime
