/-
What port forwarding leaves in the rule lists.

Setup appends two rules for a mapping, the second only when the first was accepted;
removal deletes both by value, whoever added them and whether or not they were.  On
one list the two together are an append and a run of deletions, and
`Lib/RuleChain.lean` says when those cancel out.  What is left to say here is which
rules are appended, as a function of the mappings and of the commands that fail, and
that the two lists of a mapping do not mix.
-/
import Cruntime.Lib.RuleChain
import Cruntime.Net.Network

namespace Cruntime

open Script (run attempt)

/-- The rules of a list of mappings, in the order in which they are removed. -/
def forwardingRules (containerIp : CStr) (ports : List PortMapping) : List Rule :=
  ports.flatMap fun pm => [pm.dnatRule containerIp, pm.acceptRule containerIp]

/-- The rules the setup appends, when its commands fail as `faults` says. -/
def addedRules (containerIp : CStr) : List PortMapping → (Nat → Bool) → List Rule
  | [], _ => []
  | pm :: rest, faults =>
      if faults 0 then addedRules containerIp rest fun n => faults (n + 1)
      else
        (pm.dnatRule containerIp :: if faults 1 then [] else [pm.acceptRule containerIp]) ++
          addedRules containerIp rest fun n => faults (n + 2)

/-- The rules of one list. -/
def onChain (c : Chain) (rules : List Rule) : List Rule := rules.filter fun r => decide (r.chain = c)

theorem onChain_append (c : Chain) (rules rules' : List Rule) :
    onChain c (rules ++ rules') = onChain c rules ++ onChain c rules' :=
  List.filter_append rules rules'

theorem onChain_cons (c : Chain) (r : Rule) (rules : List Rule) :
    onChain c (r :: rules) = if r.chain = c then r :: onChain c rules else onChain c rules := by
  unfold onChain
  rw [List.filter_cons]
  simp only [decide_eq_true_eq]

/-- What is added is among what is removed, in the same order. -/
theorem addedRules_sublist (containerIp : CStr) (ports : List PortMapping) :
    ∀ faults, (addedRules containerIp ports faults).Sublist (forwardingRules containerIp ports) := by
  induction ports with
  | nil => intro faults; exact .slnil
  | cons pm rest ih =>
      intro faults
      unfold addedRules
      show List.Sublist _ ([pm.dnatRule containerIp, pm.acceptRule containerIp] ++
        forwardingRules containerIp rest)
      split
      · exact (ih _).trans (List.sublist_append_right _ _)
      · refine List.Sublist.append (List.Sublist.cons_cons _ ?_) (ih _)
        split
        · exact List.nil_sublist _
        · exact List.Sublist.refl _

/-! ### The two commands -/

/-- Appending a rule to its list. -/
theorem attempt_appendRule (fault : Bool) (r : Rule) (h : Host) :
    attempt NetCmd.effect fault (.appendRule r) h
      = (!fault, if fault then h else h.setRules r.chain (h.rules r.chain ++ [r])) := by
  cases fault <;> rfl

/-- Deleting a rule that is not there changes nothing, so deleting is erasing. -/
theorem attempt_deleteRule (r : Rule) (h : Host) (c : Chain) :
    (attempt NetCmd.effect false (.deleteRule r) h).2.rules c = (h.rules c).diff (onChain c [r]) := by
  rw [onChain_cons]
  by_cases hmem : r ∈ h.rules r.chain
  · rw [Script.attempt_some (t := h.setRules r.chain ((h.rules r.chain).erase r))
      NetCmd.effect (by simp [NetCmd.effect, hmem])]
    by_cases hc : r.chain = c
    · subst hc
      simp [onChain]
    · simp [hc, Ne.symm hc, onChain]
  · rw [Script.attempt_none NetCmd.effect (by simp [NetCmd.effect, hmem])]
    by_cases hc : r.chain = c
    · subst hc
      simp [onChain, List.erase_of_not_mem hmem]
    · simp [hc, onChain]

/-! ### The two functions -/

/-- The setup appends the rules whose commands do not fail. -/
theorem setupPortForwarding_rules (containerIp : CStr) (ports : List PortMapping) (c : Chain) :
    ∀ w : World Host,
      (run NetCmd.effect (networkSetupPortForwarding containerIp ports) w).2.state.rules c
        = w.state.rules c ++ onChain c (addedRules containerIp ports w.faults) := by
  induction ports with
  | nil => intro w; simp [networkSetupPortForwarding, addedRules, onChain]
  | cons pm rest ih =>
      intro w
      have hone : ∀ (r : Rule) (h : Host) (l : List Rule),
          (h.setRules r.chain (h.rules r.chain ++ [r])).rules c ++ onChain c l
            = h.rules c ++ onChain c (r :: l) := by
        intro r h l
        rw [onChain_cons]
        by_cases hc : r.chain = c
        · subst hc
          simp
        · simp [hc, Ne.symm hc]
      unfold networkSetupPortForwarding
      rw [Script.issue_bind, Script.run_exec, attempt_appendRule]
      unfold addedRules
      cases h0 : w.faults 0 with
      | true => exact ih (w.next w.state)
      | false =>
          simp only [Bool.not_false, if_true, Bool.false_eq_true, if_false, Script.issue_bind]
          rw [Script.run_exec, attempt_appendRule, ih]
          have h1 : (w.next (w.state.setRules (pm.dnatRule containerIp).chain
              (w.state.rules (pm.dnatRule containerIp).chain ++ [pm.dnatRule containerIp]))).faults 0
              = w.faults 1 := rfl
          rw [h1]
          cases w.faults 1 with
          | true => exact hone _ _ _
          | false => exact (hone _ _ _).trans (hone _ _ _)

/-- The removal deletes every rule of the mappings, if nothing makes it fail. -/
theorem removePortForwarding_rules (containerIp : CStr) (ports : List PortMapping) (c : Chain) :
    ∀ h : Host,
      (run NetCmd.effect (networkRemovePortForwarding containerIp ports) (.calm h)).2.state.rules c
        = (h.rules c).diff (onChain c (forwardingRules containerIp ports)) := by
  induction ports with
  | nil => intro h; simp [networkRemovePortForwarding, forwardingRules, onChain]
  | cons pm rest ih =>
      intro h
      have hsplit : onChain c (forwardingRules containerIp (pm :: rest))
          = onChain c [pm.dnatRule containerIp] ++ (onChain c [pm.acceptRule containerIp] ++
            onChain c (forwardingRules containerIp rest)) := by
        rw [← onChain_append, ← onChain_append]
        rfl
      unfold networkRemovePortForwarding
      rw [Script.issue_bind, Script.run_exec, Script.issue_bind, Script.run_exec, hsplit,
        List.diff_append, List.diff_append]
      simp only [World.calm_faults, World.calm_state, World.calm_next]
      rw [ih, attempt_deleteRule, attempt_deleteRule]

/--
**Removal undoes setup exactly when every list consists of rules that are not the
mappings' and behind them of rules that are**, each of these added as often as it is
removed, and adding and removing those again gives them back in order.
-/
theorem portForwarding_restores_iff (containerIp : CStr) (ports : List PortMapping)
    (w : World Host) :
    (∀ c, (run NetCmd.effect (networkRemovePortForwarding containerIp ports)
        (.calm (run NetCmd.effect (networkSetupPortForwarding containerIp ports)
          w).2.state)).2.state.rules c = w.state.rules c) ↔
      ∀ c, ∃ U V, w.state.rules c = U ++ V ∧
        (∀ r ∈ U, r ∉ onChain c (forwardingRules containerIp ports)) ∧
        (∀ r ∈ V, r ∈ onChain c (forwardingRules containerIp ports) ∧
          (onChain c (addedRules containerIp ports w.faults)).count r
            = (onChain c (forwardingRules containerIp ports)).count r) ∧
        (V ++ RuleChain.restrict (onChain c (forwardingRules containerIp ports)) V).diff
          (RuleChain.restrict (onChain c (forwardingRules containerIp ports)) V) = V := by
  refine forall_congr' fun c => ?_
  rw [removePortForwarding_rules, setupPortForwarding_rules]
  exact RuleChain.append_diff_eq_self_iff ((addedRules_sublist containerIp ports w.faults).filter _)

/-- A list without rules of the mappings is restored, whatever fails. -/
theorem portForwarding_restores_of_fresh {containerIp : CStr} {ports : List PortMapping}
    {w : World Host} {c : Chain}
    (hfresh : ∀ r ∈ w.state.rules c, r ∉ forwardingRules containerIp ports) :
    (run NetCmd.effect (networkRemovePortForwarding containerIp ports)
        (.calm (run NetCmd.effect (networkSetupPortForwarding containerIp ports)
          w).2.state)).2.state.rules c = w.state.rules c := by
  rw [removePortForwarding_rules, setupPortForwarding_rules]
  refine (RuleChain.append_diff_eq_self_iff
    ((addedRules_sublist containerIp ports w.faults).filter _)).mpr
      ⟨_, [], (List.append_nil _).symm, ?_, by simp, by simp [RuleChain.restrict]⟩
  intro r hr hmem
  exact hfresh r hr (List.mem_of_mem_filter hmem)

/-- A rule somebody else added goes away with a mapping whose own rule was refused. -/
theorem removal_deletes_rule_of_other :
    ¬ ∀ (containerIp : CStr) (ports : List PortMapping) (w : World Host) (c : Chain),
      (run NetCmd.effect (networkRemovePortForwarding containerIp ports)
        (.calm (run NetCmd.effect (networkSetupPortForwarding containerIp ports)
          w).2.state)).2.state.rules c = w.state.rules c := by
  intro hall
  have hsame := hall "172.17.0.2".toList [⟨8080, 80, "tcp".toList⟩]
    ⟨Host.bare.setRules .prerouting [.dnat "tcp".toList 8080 "172.17.0.2".toList 80],
      fun n => n == 0⟩ .prerouting
  exact absurd hsame (by decide)

end Cruntime
