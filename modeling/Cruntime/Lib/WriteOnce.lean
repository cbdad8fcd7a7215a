/-
Places that agents take by being the first to put something there.

Nobody hands out a place: an agent takes it with a creation that fails when anything is there
already, and from then on may replace what it put there, take it away again, or leave it and
forget it.  Nobody else may.  That is enough for a place to have at most one holder and to show
what its holder put there last, in any order of moves.

A place where something is that nobody holds is lost: nobody can take it, and what is there stays.
-/
import Mathlib.Logic.Function.Basic

namespace Cruntime

/-- What is at each place, and what each agent has put at its own, if it holds it. -/
structure Places (ι L E : Type) where
  cells : L → Option E
  holds : ι → Option E

namespace Places

variable {ι L E : Type} {place : ι → Option L}

/-- What an agent can do. -/
inductive Move [DecidableEq ι] [DecidableEq L] (place : ι → Option L) (i : ι) :
    Places ι L E → Places ι L E → Prop
  | idle (s) : Move place i s s
  -- something is put where nothing is, and nobody holds it
  | fill {s p} (e : E) (hnone : s.cells p = none) :
      Move place i s ⟨Function.update s.cells p (some e), s.holds⟩
  | take {s p} (e : E) (hplace : place i = some p) (hnone : s.cells p = none) :
      Move place i s ⟨Function.update s.cells p (some e), Function.update s.holds i (some e)⟩
  | write {s p e} (e' : E) (hplace : place i = some p) (hholds : s.holds i = some e) :
      Move place i s ⟨Function.update s.cells p (some e'), Function.update s.holds i (some e')⟩
  | release {s p e} (hplace : place i = some p) (hholds : s.holds i = some e) :
      Move place i s ⟨Function.update s.cells p none, Function.update s.holds i none⟩
  | abandon (s) : Move place i s ⟨s.cells, Function.update s.holds i none⟩

/-- A place has at most one holder, and shows what its holder put there. -/
structure Exclusive (place : ι → Option L) (s : Places ι L E) : Prop where
  shown : ∀ i p e, place i = some p → s.holds i = some e → s.cells p = some e
  alone : ∀ i j p, place i = some p → place j = some p → s.holds i ≠ none → s.holds j ≠ none →
    i = j

variable {s s' : Places ι L E} {i : ι}

/-- With a holder of its own, a cell is not one where nothing is. -/
theorem Exclusive.cells_ne_none (hs : Exclusive place s) {j : ι} {p : L} (hp : place j = some p)
    (hj : s.holds j ≠ none) : s.cells p ≠ none := by
  obtain ⟨e, he⟩ := Option.ne_none_iff_exists'.mp hj
  rw [hs.shown j p e hp he]
  exact Option.some_ne_none e

variable [DecidableEq ι] [DecidableEq L]

/-- A move leaves what the others hold. -/
theorem Move.holds_ne (h : Move place i s s') {j : ι} (hj : j ≠ i) : s'.holds j = s.holds j := by
  cases h with
  | idle => rfl
  | fill => rfl
  | take | write | release | abandon => exact Function.update_of_ne hj _ _

/-- A move at a cell that another agent holds leaves that cell. -/
theorem Move.cells_of_held (h : Move place i s s') (hs : Exclusive place s) {j : ι} {p : L}
    (hj : j ≠ i) (hp : place j = some p) (hholds : s.holds j ≠ none) :
    s'.cells p = s.cells p := by
  have hmine : ∀ q, place i = some q → s.holds i ≠ none → p ≠ q := by
    rintro q hq hi rfl
    exact hj (hs.alone j i p hp hq hholds hi)
  cases h with
  | idle => rfl
  | abandon => rfl
  | @fill q e hnone =>
      refine Function.update_of_ne ?_ _ _
      rintro rfl
      exact hs.cells_ne_none hp hholds hnone
  | @take q e hplace hnone =>
      refine Function.update_of_ne ?_ _ _
      rintro rfl
      exact hs.cells_ne_none hp hholds hnone
  | @write q e e' hplace hi =>
      exact Function.update_of_ne (hmine q hplace (by simp [hi])) _ _
  | @release q e hplace hi =>
      exact Function.update_of_ne (hmine q hplace (by simp [hi])) _ _

/-- What the agent that moves holds afterwards is what its place shows. -/
theorem Move.shown_self (h : Move place i s s') (hs : Exclusive place s) {p : L} {e : E}
    (hp : place i = some p) (he : s'.holds i = some e) : s'.cells p = some e := by
  cases h with
  | idle => exact hs.shown i p e hp he
  | @fill q e' hnone =>
      have hcell := hs.shown i p e hp he
      have hne : p ≠ q := by
        rintro rfl
        simp [hnone] at hcell
      simpa [hne] using hcell
  | @take q e' hplace hnone =>
      obtain rfl : p = q := Option.some.inj (hp.symm.trans hplace)
      simpa using he
  | @write q e₀ e' hplace hi =>
      obtain rfl : p = q := Option.some.inj (hp.symm.trans hplace)
      simpa using he
  | release => simp at he
  | abandon => simp at he

/-- The agent that moves has no place that another one holds. -/
theorem Move.alone_self (h : Move place i s s') (hs : Exclusive place s) {j : ι} {p : L}
    (hj : j ≠ i) (hpi : place i = some p) (hpj : place j = some p) (hi : s'.holds i ≠ none) :
    s.holds j = none := by
  by_contra hholds
  have hnot : s.holds i = none := by
    by_contra hi'
    exact hj (hs.alone j i p hpj hpi hholds hi')
  have hcell := hs.cells_ne_none hpj hholds
  cases h with
  | idle => exact hi hnot
  | fill => exact hi hnot
  | @take q e hplace hnone =>
      obtain rfl : p = q := Option.some.inj (hpi.symm.trans hplace)
      exact hcell hnone
  | write e' hplace hsome => simp [hnot] at hsome
  | release hplace hsome => simp [hnot] at hsome
  | abandon => simp at hi

/-- **Every move keeps places exclusive.** -/
theorem Exclusive.move (hs : Exclusive place s) (h : Move place i s s') : Exclusive place s' where
  shown := by
    intro j p e hp he
    by_cases hj : j = i
    · subst hj
      exact h.shown_self hs hp he
    · rw [h.holds_ne hj] at he
      rw [h.cells_of_held hs hj hp (by simp [he])]
      exact hs.shown j p e hp he
  alone := by
    intro j k p hpj hpk hj hk
    by_cases hji : j = i
    · by_cases hki : k = i
      · rw [hji, hki]
      · subst hji
        rw [h.holds_ne hki] at hk
        exact absurd (h.alone_self hs hki hpj hpk hj) hk
    · by_cases hki : k = i
      · subst hki
        rw [h.holds_ne hji] at hj
        exact absurd (h.alone_self hs hji hpk hpj hk) hj
      · rw [h.holds_ne hji] at hj
        rw [h.holds_ne hki] at hk
        exact hs.alone j k p hpj hpk hj hk

/-- Something is at a place, and nobody holds it. -/
structure Lost (place : ι → Option L) (p : L) (e : E) (s : Places ι L E) : Prop where
  cell : s.cells p = some e
  unheld : ∀ j, place j = some p → s.holds j = none

/-- **A lost place stays lost.** -/
theorem Lost.move {p : L} {e : E} (hl : Lost place p e s) (h : Move place i s s') :
    Lost place p e s' := by
  have htaken : ∀ q, s.cells q = none → p ≠ q := by
    rintro q hnone rfl
    rw [hl.cell] at hnone
    exact Option.some_ne_none e hnone
  have hmine : ∀ q e', place i = some q → s.holds i = some e' → p ≠ q := by
    rintro q e' hq hi rfl
    rw [hl.unheld i hq] at hi
    exact Option.some_ne_none e' hi.symm
  refine ⟨?_, ?_⟩
  · rw [← hl.cell]
    cases h with
    | idle => rfl
    | abandon => rfl
    | fill e' hnone => exact Function.update_of_ne (htaken _ hnone) _ _
    | take e' hplace hnone => exact Function.update_of_ne (htaken _ hnone) _ _
    | write e' hplace hi => exact Function.update_of_ne (hmine _ _ hplace hi) _ _
    | release hplace hi => exact Function.update_of_ne (hmine _ _ hplace hi) _ _
  · intro j hj
    by_cases hji : j = i
    · subst hji
      cases h with
      | idle => exact hl.unheld j hj
      | fill => exact hl.unheld j hj
      | @take q e' hplace hnone =>
          exact absurd (Option.some.inj (hj.symm.trans hplace)) (htaken q hnone)
      | @write q e' e'' hplace hi =>
          exact absurd (Option.some.inj (hj.symm.trans hplace)) (hmine q e' hplace hi)
      | release => exact Function.update_self _ _ _
      | abandon => exact Function.update_self _ _ _
    · rw [h.holds_ne hji]
      exact hl.unheld j hj

end Places

end Cruntime
