/-
Whose veth link a cleanup deletes.

The host end of a pair is named after the first eight characters of the container's
id, and `network_cleanup_container` deletes the link of that name without asking who
made it.  Two containers whose ids begin alike share the name, so the cleanup of the
one deletes the link of the other; and a bridge that happens to have the name goes
away under the links on it.

`Fleet.Meets` rules those cleanups out, as long as their `ip link delete` is not made
to fail anyway.  `Fleet.Held` is what every other call keeps: each live container has
the link its setup made, up and on its bridge.
-/
import Cruntime.Net.Fleet
import Cruntime.Utils

namespace Cruntime

open Script (run)

/-! ### One cleanup -/

/-- Removing port forwarding deletes rules and nothing else. -/
theorem removePortForwarding_uses (ip : CStr) (ports : List PortMapping) :
    (networkRemovePortForwarding ip ports).Uses (fun c => ∃ r, c = .deleteRule r) := by
  induction ports with
  | nil => exact trivial
  | cons pm rest ih => exact ⟨⟨_, rfl⟩, fun _ => ⟨⟨_, rfl⟩, fun _ => ih⟩⟩

/-- Removing port forwarding issues two commands for each mapping. -/
theorem removePortForwarding_faults (ip : CStr) (ports : List PortMapping) :
    ∀ (w : World Host) (n : Nat),
      (run NetCmd.effect (networkRemovePortForwarding ip ports) w).2.faults n
        = w.faults (2 * ports.length + n) := by
  induction ports with
  | nil => intro w n; simp [networkRemovePortForwarding]
  | cons pm rest ih =>
      intro w n
      rw [networkRemovePortForwarding]
      simp only [Script.issue_bind]
      rw [Script.run_exec, Script.run_exec, ih, World.next_faults, World.next_faults,
        List.length_cons]
      congr 1
      omega

/-- The cleanup of a container is the removal of its rules and one deletion. -/
theorem cleanupContainer_run (c : Container) (w : World Host) :
    ∃ v : World Host, v.faults 0 = w.faults (2 * c.network.ports.length) ∧
      (∀ name l, w.state.link name = some l → v.state.link name = some l) ∧
      (run NetCmd.effect (networkCleanupContainer c) w).2.state
        = (Script.attempt NetCmd.effect (v.faults 0) (.linkDelete (vethHost c.id)) v.state).2 := by
  by_cases hports : c.network.ports = []
  · refine ⟨w, by simp [hports], fun _ _ hl => hl, ?_⟩
    unfold networkCleanupContainer
    simp only [hports, ne_eq, not_true_eq_false, if_false]
    rfl
  · refine ⟨(run NetCmd.effect (networkRemovePortForwarding (containerIpOf c.network.ipAddress)
      c.network.ports) w).2, ?_, ?_, ?_⟩
    · rw [removePortForwarding_faults, Nat.add_zero]
    · intro name l hl
      refine Script.run_keeps NetCmd.effect (I := fun h => h.link name = some l) ?_
        (removePortForwarding_uses _ _) w hl
      intro cmd hc h h' hstep hlink
      obtain ⟨r, rfl⟩ := hc
      exact effect_avoids hstep trivial hlink
    · unfold networkCleanupContainer
      simp only [ne_eq, hports, not_false_eq_true, if_true, Script.run_bind]
      rfl

/-- A cleanup leaves alone a link it does not name, unless that is the peer of the
link it deletes, or a port of it. -/
theorem cleanupContainer_keeps {name bridgeName : CStr} {l : Link} {c : Container} {w : World Host}
    (hl : w.state.link name = some l) (hatt : Attached bridgeName l)
    (hne : w.faults (2 * c.network.ports.length) = false →
      name ≠ vethHost c.id ∧ bridgeName ≠ vethHost c.id) :
    (run NetCmd.effect (networkCleanupContainer c) w).2.state.link name = some l := by
  obtain ⟨v, hfault, hkeep, hrun⟩ := cleanupContainer_run c w
  rw [hrun]
  have hlv := hkeep name l hl
  rcases Script.attempt_cases NetCmd.effect (v.faults 0) (.linkDelete (vethHost c.id)) v.state with
    ⟨hf, h', hs, ha⟩ | ha
  · obtain ⟨hname, hbridge⟩ := hne (hfault ▸ hf)
    obtain ⟨ns, hkind⟩ := hatt.pair
    rw [ha]
    refine effect_avoids hs ⟨hname.symm, ?_, ?_⟩ hlv
    · rw [hkind]
      intro hc
      have hpeer : vethContainer = vethHost c.id := by
        injection hc with hc
        injection hc
      exact vethHost_ne_vethContainer c.id hpeer.symm
    · rw [hatt.port]
      simpa using hbridge
  · rw [ha]
    exact hlv

/-! ### Runs -/

theorem setupContainer_container (env : Entropy) (c : Container) (w : World Host) :
    (run NetCmd.effect (networkSetupContainer env c) w).1.2.id = c.id ∧
      (run NetCmd.effect (networkSetupContainer env c) w).1.2.network.bridgeName
        = c.network.bridgeName := by
  by_cases hb : (run NetCmd.effect
      (networkCreateBridge c.network.bridgeName c.network.subnet env.bridgeStack) w).1 = .ok
  · cases hc' : withAddress env c with
    | none => rw [setupContainer_stop (Or.inr hc')]; exact ⟨rfl, rfl⟩
    | some c' =>
        obtain ⟨hid, hbridge, -, -⟩ := withAddress_eq hc'
        rw [setupContainer_attach hb hc']
        exact ⟨hid, hbridge⟩
  · rw [setupContainer_stop (Or.inl hb)]
    exact ⟨rfl, rfl⟩

namespace Fleet

variable {ι : Type} [DecidableEq ι]

/-- What a call must not run into: a deletion of the link, or the bridge, of another
live container. -/
def Meets (s : Fleet ι) : FleetCall ι → Prop
  | .setup _ _ => True
  | .cleanup i =>
      s.world.faults (2 * (s.containers i).network.ports.length) = false →
        ∀ j, j ≠ i → s.live j = true →
          s.veth j ≠ s.veth i ∧ (s.containers j).network.bridgeName ≠ s.veth i

/-- The invariant: every live container has its link, up and on its bridge. -/
def Held (s : Fleet ι) : Prop :=
  ∀ j, s.live j = true → ∃ l, s.world.state.link (s.veth j) = some l ∧
    Attached (s.containers j).network.bridgeName l

theorem step_veth (s : Fleet ι) (call : FleetCall ι) (j : ι) : (s.step call).veth j = s.veth j := by
  cases call with
  | setup i env =>
      unfold Fleet.veth
      rw [Fleet.step_setup_containers]
      by_cases hj : j = i
      · rw [if_pos hj, Fleet.attempt, (setupContainer_container env _ _).1, hj]
      · rw [if_neg hj]
  | cleanup i => rfl

theorem step_bridgeName (s : Fleet ι) (call : FleetCall ι) (j : ι) :
    ((s.step call).containers j).network.bridgeName = (s.containers j).network.bridgeName := by
  cases call with
  | setup i env =>
      rw [Fleet.step_setup_containers]
      by_cases hj : j = i
      · rw [if_pos hj, Fleet.attempt, (setupContainer_container env _ _).2, hj]
      · rw [if_neg hj]
  | cleanup i => rfl

/-- **A call leaves the links of the other live containers as they are.** -/
theorem step_keeps_veth {s : Fleet ι} {call : FleetCall ι} (hm : s.Meets call) {j : ι} {l : Link}
    (hl : s.world.state.link (s.veth j) = some l)
    (hatt : Attached (s.containers j).network.bridgeName l) (hlive : s.live j = true)
    (hj : ∀ i, call = .cleanup i → j ≠ i) : (s.step call).world.state.link (s.veth j) = some l := by
  cases call with
  | setup i env => exact setupContainer_keeps (unwritten_vethHost _) env (s.containers i) hl
  | cleanup i => exact cleanupContainer_keeps hl hatt fun hf => hm hf j (hj i rfl) hlive

/-- **One call keeps the invariant.** -/
theorem held_step {s : Fleet ι} {call : FleetCall ι} (hm : s.Meets call) (hI : s.Held) :
    (s.step call).Held := by
  intro j hlive
  rw [step_veth, step_bridgeName]
  have hold : s.live j = true → (∀ i, call = .cleanup i → j ≠ i) →
      ∃ l, (s.step call).world.state.link (s.veth j) = some l ∧
        Attached (s.containers j).network.bridgeName l := by
    intro hbefore hj
    obtain ⟨l, hl, hatt⟩ := hI j hbefore
    exact ⟨l, step_keeps_veth hm hl hatt hbefore hj, hatt⟩
  cases call with
  | setup i env =>
      rw [Fleet.step_setup_live] at hlive
      by_cases hnew : j = i ∧ (s.attempt i env).1.1 = .ok
      · obtain ⟨rfl, hok⟩ := hnew
        exact setupContainer_attached hok
      · rw [if_neg hnew] at hlive
        exact hold hlive (by simp)
  | cleanup i =>
      rw [Fleet.step_cleanup_live] at hlive
      by_cases hj : j = i
      · simp [hj] at hlive
      · rw [if_neg hj] at hlive
        refine hold hlive fun k hk => ?_
        injection hk with hk
        exact hk ▸ hj

end Fleet

/--
**No call touches the veth link of another live container**, in every run whose
cleanups meet their condition: the link is there, up and on its container's bridge
before the call, and it is the same link after it.
-/
theorem veth_of_others_kept {ι : Type} [DecidableEq ι] {s : Fleet ι} {calls : List (FleetCall ι)}
    {call : FleetCall ι} (hnew : ∀ i, s.live i = false)
    (hrun : Runs.Along Fleet.step Fleet.Meets s (calls ++ [call])) :
    ∀ j, j ≠ call.who → (Runs.after Fleet.step s calls).live j = true →
      ∃ l, (Runs.after Fleet.step s calls).world.state.link (vethHost (s.containers j).id) = some l ∧
        Attached (s.containers j).network.bridgeName l ∧
        (Runs.after Fleet.step s (calls ++ [call])).world.state.link (vethHost (s.containers j).id)
          = some l := by
  intro j hj hlive
  obtain ⟨hheld, hm⟩ := Runs.keeps_last Fleet.step (I := Fleet.Held)
    (fun _ _ hm hI => Fleet.held_step hm hI) hrun (fun i hi => by simp [hnew i] at hi)
  have hnames := Runs.keeps' Fleet.step
    (I := fun t => t.veth j = s.veth j ∧
      (t.containers j).network.bridgeName = (s.containers j).network.bridgeName)
    (fun t a hI => ⟨(t.step_veth a j).trans hI.1, (t.step_bridgeName a j).trans hI.2⟩)
    calls s ⟨rfl, rfl⟩
  obtain ⟨l, hl, hatt⟩ := hheld j hlive
  have hkept := Fleet.step_keeps_veth hm hl hatt hlive (by rintro i rfl; exact hj)
  rw [hnames.1] at hl hkept
  rw [hnames.2] at hatt
  refine ⟨l, hl, hatt, ?_⟩
  rw [Runs.after_append]
  exact hkept

/-- The cleanup of a container leaves the link of the other one. -/
theorem veth_kept_by_cleanup :
    ∃ l, (Runs.after Fleet.step (.pair "0123456789abcdef".toList "1123456789abcdef".toList [])
        [.setup true ⟨0, 0, 0, 0⟩, .setup false ⟨0, 0, 0, 0⟩]).world.state.link
          "veth01234567".toList = some l ∧
      Attached "cr0".toList l ∧
      (Runs.after Fleet.step (.pair "0123456789abcdef".toList "1123456789abcdef".toList [])
        ([.setup true ⟨0, 0, 0, 0⟩, .setup false ⟨0, 0, 0, 0⟩] ++ [.cleanup false])).world.state.link
          "veth01234567".toList = some l := by
  refine veth_of_others_kept (fun _ => rfl) ?_ true (by decide) (by decide)
  refine ⟨trivial, trivial, ?_, trivial⟩
  intro _ j hj _
  cases j with
  | true => exact ⟨by decide, by decide⟩
  | false => exact absurd rfl hj

/--
Two ids that begin alike: the cleanup of the container whose setup failed deletes the
link of the one that is running.
-/
theorem cleanup_deletes_link_of_other :
    ¬ ∀ (s : Fleet Bool) (calls : List (FleetCall Bool)) (call : FleetCall Bool),
      (∀ i, s.live i = false) →
      (∀ i, ∃ draws, draws.length = 32 ∧ (s.containers i).id = generateId 65 draws) →
      (∀ i j, i ≠ j → (s.containers i).id ≠ (s.containers j).id) →
      ∀ j, j ≠ call.who → (Runs.after Fleet.step s calls).live j = true →
        (Runs.after Fleet.step s (calls ++ [call])).world.state.link
            (vethHost (s.containers j).id)
          = (Runs.after Fleet.step s calls).world.state.link (vethHost (s.containers j).id) := by
  intro hall
  have hkept := hall (.pair (generateId 65 (List.range 32))
      (generateId 65 (List.range 8 ++ List.replicate 24 0)) [])
    [.setup true ⟨0, 0, 0, 0⟩, .setup false ⟨0, 0, 0, 0⟩] (.cleanup false) (fun _ => rfl)
    (fun i => by cases i <;> exact ⟨_, rfl, rfl⟩) (by decide) true (by decide) (by decide)
  exact absurd hkept (by decide)

end Cruntime
