/-
Lists that grow at the end and shrink at the first match.

An ordered rule list is written by two commands: one appends a rule, one deletes the
first rule equal to its argument.  Appending `A` and then deleting every rule of `R`
turns `P` into `(P ++ A).diff R`, and the question of this module is when that is `P`
again.  Counting is not enough, because the deletion takes old copies first and
leaves new ones, which stand further back.

The answer splits `P` in two.  In front stand the rules that `R` does not mention;
then only rules that it does, each appended as often as it is deleted; and those, with
their new copies behind them, have to come out as they were.
-/
import Mathlib.Data.List.Basic
import Mathlib.Data.List.Count
import Mathlib.Data.List.DropRight
import Mathlib.Data.List.TakeDrop

namespace Cruntime

namespace RuleChain

variable {α : Type} [DecidableEq α]

/-- Deleting rules that the front of a list does not hold acts behind it. -/
theorem append_diff_of_disjoint (R : List α) :
    ∀ U L : List α, (∀ r ∈ R, r ∉ U) → (U ++ L).diff R = U ++ L.diff R := by
  induction R with
  | nil => intro U L _; rfl
  | cons r R ih =>
      intro U L h
      rw [List.diff_cons, List.diff_cons, List.erase_append_right _ (h r (by simp))]
      exact ih U (L.erase r) fun s hs => h s (by simp [hs])

/-- Deleting from two lists in a row: what the first one does not use up goes to the
second. -/
theorem append_diff (R : List α) :
    ∀ L M : List α, (L ++ M).diff R = L.diff R ++ M.diff (R.diff L) := by
  induction R with
  | nil => intro L M; simp
  | cons r R ih =>
      intro L M
      rw [List.diff_cons, List.diff_cons]
      by_cases hr : r ∈ L
      · rw [List.erase_append_left _ hr, ih, List.cons_diff_of_mem hr]
      · rw [List.erase_append_right _ hr, ih, List.cons_diff_of_not_mem hr, List.diff_cons,
          List.erase_of_not_mem hr]

/-- Deleting the rules of a kind is deleting among the rules of that kind. -/
theorem filter_diff (p : α → Bool) (R : List α) :
    ∀ L : List α, (L.diff R).filter p = (L.filter p).diff (R.filter p) := by
  induction R with
  | nil => intro L; simp
  | cons r R ih =>
      intro L
      rw [List.diff_cons, ih]
      by_cases hr : p r = true
      · rw [List.filter_cons_of_pos hr, List.diff_cons, ← List.erase_filter]
      · rw [List.filter_cons_of_neg hr, ← List.erase_filter, List.erase_of_not_mem]
        intro hmem
        exact hr (List.of_mem_filter hmem)

/-- A sublist that has as many of each rule of a kind has the same rules of that kind. -/
theorem filter_eq_of_count {A R : List α} (hA : A.Sublist R) {p : α → Bool}
    (hcount : ∀ r, p r = true → A.count r = R.count r) : A.filter p = R.filter p := by
  refine (hA.filter p).eq_of_length_le ?_
  refine (List.perm_iff_count.mpr fun r => ?_).length_eq.le
  by_cases hr : p r = true
  · rw [List.count_filter hr, List.count_filter hr, hcount r hr]
  · rw [List.count_eq_zero.mpr fun hmem => hr (List.of_mem_filter hmem),
      List.count_eq_zero.mpr fun hmem => hr (List.of_mem_filter hmem)]

/-- The rules of `R` that are in `V`, in the order of `R`. -/
def restrict (R V : List α) : List α := R.filter fun r => decide (r ∈ V)

/-- A list that comes out of appending and deleting as it was begins with rules of
`R` only, if it begins with one. -/
theorem forall_mem_of_diff_eq {V A R : List α} (h : (V ++ A).diff R = V)
    (hhead : ∀ r ∈ V.head?, r ∈ R) : ∀ r ∈ V, r ∈ R := by
  set own := V.takeWhile fun r => decide (r ∈ R) with hown
  cases hrest : V.dropWhile fun r => decide (r ∈ R) with
  | nil =>
      intro r hr
      simpa using List.dropWhile_eq_nil_iff.mp hrest r hr
  | cons x rest =>
      exfalso
      have hV : V = own ++ x :: rest := by
        rw [hown, ← hrest, List.takeWhile_append_dropWhile]
      have hx : x ∉ R := by
        have hne : V.dropWhile (fun r => decide (r ∈ R)) ≠ [] := by rw [hrest]; simp
        have hfirst := List.head_dropWhile_not (fun r => decide (r ∈ R)) hne
        simpa [hrest] using hfirst
      have hmem : ∀ r ∈ own, r ∈ R := fun r hr => by simpa using List.mem_takeWhile_imp hr
      -- the rules before `x` are the same before and after, so none of them was deleted
      have hsame : own.diff R = own := by
        have hdiff : own ++ x :: rest = own.diff R ++ x :: (rest ++ A).diff (R.diff own) :=
          calc own ++ x :: rest = (V ++ A).diff R := by rw [h, ← hV]
            _ = (own ++ ([x] ++ (rest ++ A))).diff R := by rw [hV]; simp
            _ = own.diff R ++ ([x] ++ (rest ++ A)).diff (R.diff own) := append_diff R own _
            _ = own.diff R ++ ([x] ++ (rest ++ A).diff (R.diff own)) := by
                rw [append_diff_of_disjoint]
                intro r hr hrx
                obtain rfl : r = x := by simpa using hrx
                exact hx (List.diff_subset R own hr)
        have htake : ∀ l m : List α, (∀ r ∈ l, r ∈ R) →
            (l ++ x :: m).takeWhile (fun r => decide (r ∈ R)) = l := by
          intro l m hl
          rw [List.takeWhile_append_of_pos fun r hr => by simpa using hl r hr]
          simp [hx]
        have hleft := htake (own.diff R) ((rest ++ A).diff (R.diff own)) fun r hr =>
          hmem r (List.diff_subset own R hr)
        rw [← hdiff, htake own rest hmem] at hleft
        exact hleft.symm
      cases hnil : own with
      | nil =>
          have hxR := hhead x (by rw [hV, hnil]; rfl)
          exact hx hxR
      | cons r own' =>
          have hr : r ∈ R := hmem r (by rw [hnil]; simp)
          have hcount := congrArg (List.count r) hsame
          rw [List.count_diff] at hcount
          have hpos : 0 < own.count r := List.count_pos_iff.mpr (by rw [hnil]; simp)
          have hposR : 0 < R.count r := List.count_pos_iff.mpr hr
          omega

/--
**Appending and deleting restores a list exactly when** it is a front without rules of
`R` followed by rules of `R` only, each appended as often as it is deleted, that come
out of appending and deleting their own kind as they were.
-/
theorem append_diff_eq_self_iff {P A R : List α} (hA : A.Sublist R) :
    (P ++ A).diff R = P ↔
      ∃ U V, P = U ++ V ∧ (∀ r ∈ U, r ∉ R) ∧ (∀ r ∈ V, r ∈ R ∧ A.count r = R.count r) ∧
        (V ++ restrict R V).diff (restrict R V) = V := by
  constructor
  · intro h
    set U := P.takeWhile fun r => decide (r ∉ R) with hU
    set V := P.dropWhile fun r => decide (r ∉ R) with hV
    have hP : P = U ++ V := by rw [hU, hV, List.takeWhile_append_dropWhile]
    have hUR : ∀ r ∈ U, r ∉ R := fun r hr => by simpa using List.mem_takeWhile_imp hr
    have hself : (V ++ A).diff R = V := by
      have hsplit := append_diff_of_disjoint R U (V ++ A) fun r hr hrU => hUR r hrU hr
      rw [← List.append_assoc, ← hP, h] at hsplit
      exact (List.append_cancel_left (hP.symm.trans hsplit)).symm
    have hVR : ∀ r ∈ V, r ∈ R := by
      refine forall_mem_of_diff_eq hself fun r hr => ?_
      have hne : V ≠ [] := by
        rintro hnil
        simp [hnil] at hr
      have hfirst : decide (V.head hne ∉ R) = false :=
        List.head_dropWhile_not (fun r => decide (r ∉ R)) hne
      rw [List.head?_eq_some_head hne, Option.mem_some_iff] at hr
      rw [hr] at hfirst
      simpa using hfirst
    have hcount : ∀ r ∈ V, A.count r = R.count r := by
      intro r hr
      have hnumber := congrArg (List.count r) hself
      rw [List.count_diff, List.count_append] at hnumber
      have hpos : 0 < V.count r := List.count_pos_iff.mpr hr
      have hle : A.count r ≤ R.count r := hA.count_le r
      omega
    refine ⟨U, V, hP, hUR, fun r hr => ⟨hVR r hr, hcount r hr⟩, ?_⟩
    have hfilter := congrArg (List.filter fun r => decide (r ∈ V)) hself
    have hall : V.filter (fun r => decide (r ∈ V)) = V := by simp
    rw [filter_diff, List.filter_append, hall,
      filter_eq_of_count hA fun r hr => hcount r (by simpa using hr)] at hfilter
    exact hfilter
  · rintro ⟨U, V, rfl, hUR, hVR, hrefill⟩
    rw [List.append_assoc, append_diff_of_disjoint R U (V ++ A) fun r hr hrU => hUR r hrU hr]
    congr 1
    have hfilter : ((V ++ A).diff R).filter (fun r => decide (r ∈ V)) = V := by
      have hall : V.filter (fun r => decide (r ∈ V)) = V := by simp
      rw [filter_diff, List.filter_append, hall,
        filter_eq_of_count hA fun r hr => (hVR r (by simpa using hr)).2]
      exact hrefill
    refine (List.filter_eq_self.mpr fun r hr => ?_).symm.trans hfilter
    -- a rule that is not in `V` is deleted at least as often as it was appended
    rw [decide_eq_true_eq]
    by_contra hno
    have hpos : 0 < ((V ++ A).diff R).count r := List.count_pos_iff.mpr hr
    rw [List.count_diff, List.count_append, List.count_eq_zero.mpr hno] at hpos
    have hle : A.count r ≤ R.count r := hA.count_le r
    omega

end RuleChain

end Cruntime
