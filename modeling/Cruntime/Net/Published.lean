/-
Whether a published port reaches its container.

`iptables` takes the first rule that matches, and the set-up appends.  So a mapping is
in effect only when nothing before its rule takes the port: no rule that was there, and
no rule of a mapping further up the list.  A mapping whose first command is refused is
passed over, and the second command's status is dropped; the function returns `CR_OK`
all the same.

What a rule that this program did not write does with a packet is a parameter.
-/
import Cruntime.Net.Ports

namespace Cruntime

open Script (run attempt)

/-! ### The first rule that matches -/

/-- Where a rule of the nat table sends what it matches. -/
inductive Destination where
  | container (ip : CStr) (port : Nat)
  | elsewhere (target : CStr)
deriving DecidableEq

/-- What the rules of others do with a protocol and a port. -/
abbrev Foreign := CStr → CStr → Nat → Option Destination

/-- Where a rule sends a protocol and a port, if it matches. -/
def Rule.sends (others : Foreign) (protocol : CStr) (port : Nat) : Rule → Option Destination
  | .dnat protocol' hostPort ip containerPort =>
      if protocol' = protocol ∧ hostPort = port then some (.container ip containerPort) else none
  | .other _ spec => others spec protocol port
  | _ => none

/-- Where the first rule that matches sends a protocol and a port. -/
def firstMatch (others : Foreign) (rules : List Rule) (protocol : CStr) (port : Nat) :
    Option Destination :=
  rules.findSome? (Rule.sends others protocol port)

/-- The published port leads to the container, and the container's port is let through. -/
structure Reaches (others : Foreign) (h : Host) (containerIp : CStr) (pm : PortMapping) : Prop where
  leads : firstMatch others (h.rules .prerouting) pm.protocol pm.hostPort =
    some (.container containerIp pm.containerPort)
  passes : pm.acceptRule containerIp ∈ h.rules .forward

/-! ### The mappings that are accepted -/

/-- The mappings whose first command is not refused, each with whether its second one goes
through. -/
def accepted : List PortMapping → (Nat → Bool) → List (PortMapping × Bool)
  | [], _ => []
  | pm :: rest, faults =>
      if faults 0 then accepted rest fun n => faults (n + 1)
      else (pm, !faults 1) :: accepted rest fun n => faults (n + 2)

/-- The rules of an accepted mapping. -/
def acceptedRules (containerIp : CStr) (o : PortMapping × Bool) : List Rule :=
  o.1.dnatRule containerIp :: if o.2 then [o.1.acceptRule containerIp] else []

/-- What is added are the rules of the accepted mappings. -/
theorem addedRules_eq (containerIp : CStr) (ports : List PortMapping) :
    ∀ faults, addedRules containerIp ports faults =
      (accepted ports faults).flatMap (acceptedRules containerIp) := by
  induction ports with
  | nil => intro faults; rfl
  | cons pm rest ih =>
      intro faults
      unfold addedRules accepted
      by_cases h0 : faults 0 = true
      · rw [if_pos h0, if_pos h0]
        exact ih _
      · rw [if_neg h0, if_neg h0, List.flatMap_cons, ih]
        unfold acceptedRules
        cases faults 1 <;> rfl

/-- Only the first rule of a mapping can match. -/
theorem firstMatch_acceptedRules (others : Foreign) (containerIp protocol : CStr) (port : Nat)
    (o : PortMapping × Bool) :
    firstMatch others (onChain .prerouting (acceptedRules containerIp o)) protocol port =
      if o.1.protocol = protocol ∧ o.1.hostPort = port then
        some (.container containerIp o.1.containerPort)
      else none := by
  have hchain : onChain .prerouting (acceptedRules containerIp o) = [o.1.dnatRule containerIp] := by
    unfold acceptedRules
    cases o.2 <;> rfl
  rw [hchain]
  unfold firstMatch
  rw [List.findSome?_singleton]
  rfl

theorem firstMatch_append (others : Foreign) (rules rules' : List Rule) (protocol : CStr)
    (port : Nat) : firstMatch others (rules ++ rules') protocol port =
      (firstMatch others rules protocol port).or (firstMatch others rules' protocol port) :=
  List.findSome?_append

/-- The first accepted mapping of a protocol and a port. -/
def takes (protocol : CStr) (port : Nat) (outcomes : List (PortMapping × Bool)) :
    Option PortMapping :=
  (outcomes.map Prod.fst).find? fun pm => decide (pm.protocol = protocol ∧ pm.hostPort = port)

/-- Of the rules that are added, the first one to match is that of the mapping that takes
the port. -/
theorem firstMatch_added (others : Foreign) (containerIp protocol : CStr) (port : Nat)
    (outcomes : List (PortMapping × Bool)) :
    firstMatch others (onChain .prerouting (outcomes.flatMap (acceptedRules containerIp)))
      protocol port =
        (takes protocol port outcomes).map fun pm => .container containerIp pm.containerPort := by
  induction outcomes with
  | nil => rfl
  | cons o rest ih =>
      rw [List.flatMap_cons, onChain_append, firstMatch_append, firstMatch_acceptedRules, ih]
      unfold takes
      rw [List.map_cons, List.find?_cons]
      by_cases hm : o.1.protocol = protocol ∧ o.1.hostPort = port
      · simp [hm]
      · simp [hm]

/-- The rules that let a port through are those of the mappings whose second command went
through. -/
theorem mem_forward_added {containerIp : CStr} {pm : PortMapping}
    {outcomes : List (PortMapping × Bool)} :
    pm.acceptRule containerIp ∈
        onChain .forward (outcomes.flatMap (acceptedRules containerIp)) ↔
      ∃ o ∈ outcomes, o.2 = true ∧ o.1.protocol = pm.protocol ∧
        o.1.containerPort = pm.containerPort := by
  have hchain : (pm.acceptRule containerIp).chain = .forward := rfl
  have hrule : ∀ o : PortMapping × Bool, pm.acceptRule containerIp ∈ acceptedRules containerIp o ↔
      o.2 = true ∧ o.1.protocol = pm.protocol ∧ o.1.containerPort = pm.containerPort := by
    intro o
    unfold acceptedRules
    cases o.2 with
    | false => simp [PortMapping.acceptRule, PortMapping.dnatRule]
    | true =>
        simp only [if_true, List.mem_cons, List.not_mem_nil, or_false, true_and]
        constructor
        · rintro (h | h)
          · simp [PortMapping.acceptRule, PortMapping.dnatRule] at h
          · obtain ⟨hprotocol, -, hport⟩ := Rule.acceptPort.inj h
            exact ⟨hprotocol.symm, hport.symm⟩
        · rintro ⟨hprotocol, hport⟩
          exact Or.inr (by simp [PortMapping.acceptRule, hprotocol, hport])
  unfold onChain
  rw [List.mem_filter, List.mem_flatMap]
  simp only [hrule, hchain, decide_true, and_true]

/-! ### What the set-up leaves -/

/-- The function always returns `CR_OK`. -/
theorem setupPortForwarding_result (containerIp : CStr) (ports : List PortMapping) :
    ∀ w : World Host,
      (run NetCmd.effect (networkSetupPortForwarding containerIp ports) w).1 = .ok := by
  induction ports with
  | nil => intro w; rfl
  | cons pm rest ih =>
      intro w
      unfold networkSetupPortForwarding
      rw [Script.issue_bind, Script.run_exec, attempt_appendRule]
      cases w.faults 0 with
      | true => exact ih _
      | false =>
          simp only [Bool.not_false, if_true, Script.issue_bind]
          rw [Script.run_exec]
          exact ih _

/-- Nothing is in the way of a mapping: what was there before leaves its port alone or sends it
to the same place, the first mapping to take the port, where it is left to the mappings, leads
to the same port of the container, and the container's port is let through already or by a
mapping whose second command is not refused. -/
structure Unhindered (others : Foreign) (h : Host) (containerIp : CStr)
    (outcomes : List (PortMapping × Bool)) (pm : PortMapping) : Prop where
  before : ∀ d, firstMatch others (h.rules .prerouting) pm.protocol pm.hostPort = some d →
    d = .container containerIp pm.containerPort
  taken : firstMatch others (h.rules .prerouting) pm.protocol pm.hostPort = none →
    ∃ pm', takes pm.protocol pm.hostPort outcomes = some pm' ∧
      pm'.containerPort = pm.containerPort
  passes : pm.acceptRule containerIp ∈ h.rules .forward ∨
    ∃ o ∈ outcomes, o.2 = true ∧ o.1.protocol = pm.protocol ∧
      o.1.containerPort = pm.containerPort

/-- One mapping after the set-up. -/
theorem reaches_iff (others : Foreign) (containerIp : CStr) (ports : List PortMapping)
    (w : World Host) (pm : PortMapping) :
    Reaches others (run NetCmd.effect (networkSetupPortForwarding containerIp ports) w).2.state
        containerIp pm ↔
      Unhindered others w.state containerIp (accepted ports w.faults) pm := by
  have hleads : firstMatch others
      ((run NetCmd.effect (networkSetupPortForwarding containerIp ports) w).2.state.rules
        .prerouting) pm.protocol pm.hostPort =
      (firstMatch others (w.state.rules .prerouting) pm.protocol pm.hostPort).or
        ((takes pm.protocol pm.hostPort (accepted ports w.faults)).map fun pm' =>
          .container containerIp pm'.containerPort) := by
    rw [setupPortForwarding_rules, addedRules_eq, firstMatch_append, firstMatch_added]
  have hpasses : pm.acceptRule containerIp ∈
      (run NetCmd.effect (networkSetupPortForwarding containerIp ports) w).2.state.rules .forward ↔
      pm.acceptRule containerIp ∈ w.state.rules .forward ∨
        ∃ o ∈ accepted ports w.faults, o.2 = true ∧ o.1.protocol = pm.protocol ∧
          o.1.containerPort = pm.containerPort := by
    rw [setupPortForwarding_rules, addedRules_eq, List.mem_append, mem_forward_added]
  constructor
  · intro h
    have hl := h.leads
    rw [hleads] at hl
    refine ⟨fun d hd => ?_, fun hnone => ?_, hpasses.mp h.passes⟩
    · rw [hd] at hl
      exact Option.some.inj hl
    · rw [hnone, Option.none_or] at hl
      obtain ⟨pm', htakes, hpm'⟩ := Option.map_eq_some_iff.mp hl
      exact ⟨pm', htakes, (Destination.container.inj hpm').2⟩
  · intro h
    refine ⟨?_, hpasses.mpr h.passes⟩
    rw [hleads]
    cases hfirst : firstMatch others (w.state.rules .prerouting) pm.protocol pm.hostPort with
    | some d => rw [h.before d hfirst]; rfl
    | none =>
        obtain ⟨pm', htakes, hport⟩ := h.taken hfirst
        rw [htakes, Option.none_or, Option.map_some, hport]

/-- **Every published port reaches the container exactly when nothing is in the way of any
mapping.** -/
theorem published_reach_iff (others : Foreign) (containerIp : CStr) (ports : List PortMapping)
    (w : World Host) :
    ((run NetCmd.effect (networkSetupPortForwarding containerIp ports) w).1 = .ok →
      ∀ pm ∈ ports, Reaches others
        (run NetCmd.effect (networkSetupPortForwarding containerIp ports) w).2.state
        containerIp pm) ↔
      ∀ pm ∈ ports, Unhindered others w.state containerIp (accepted ports w.faults) pm := by
  rw [imp_iff_right (setupPortForwarding_result containerIp ports w)]
  exact forall₂_congr fun pm _ => reaches_iff others containerIp ports w pm

/-- The second container to publish a port gets nothing: the rule of the first stands before
its own. -/
theorem port_of_other_container :
    ¬∀ (others : Foreign) (containerIp : CStr) (ports : List PortMapping) (w : World Host),
      (run NetCmd.effect (networkSetupPortForwarding containerIp ports) w).1 = .ok →
        ∀ pm ∈ ports, Reaches others
          (run NetCmd.effect (networkSetupPortForwarding containerIp ports) w).2.state
          containerIp pm := by
  intro hall
  have hreach := hall (fun _ _ _ => none) "172.17.0.3".toList [⟨8080, 80, "tcp".toList⟩]
    (.calm (Host.bare.setRules .prerouting [.dnat "tcp".toList 8080 "172.17.0.2".toList 80]))
    (by decide) ⟨8080, 80, "tcp".toList⟩ (by decide)
  exact absurd hreach.leads (by decide)

end Cruntime
