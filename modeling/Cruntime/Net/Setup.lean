/-
What a failed `network_setup_container` leaves behind.

Up to the bridge and its rules a failure before the veth pair exists leaves the
host as it was, and so does a refused `ip link add` of the pair.  From there on
there is no way back in the code: every later check returns at once, the pair stays
and its host end keeps the name.  `StopsAfterPair` says that the failure is one of
those, in terms of the first of the seven checked commands that fails, and
`setup_error_restores_iff` says that this is the only thing that goes wrong.
-/
import Cruntime.Net.Frame

namespace Cruntime

open Script (run firstFailure)

/-- The checked commands of `network_setup_veth`, in order. -/
def vethCommands (containerId bridgeName ipAddress gateway : CStr) (pid : Int) : List NetCmd :=
  [.linkAddVeth (vethHost containerId) vethContainer,
    .linkSetMaster (vethHost containerId) bridgeName,
    .linkUp (vethHost containerId),
    .linkSetNetns vethContainer pid,
    .nsAddrAdd pid ipAddress vethContainer,
    .nsLinkUp pid vethContainer,
    .nsRouteAdd pid gateway]

/-- The end of `network_setup_veth`: the loopback link, whose status is dropped. -/
def vethTail (pid : Int) : NetScript CrCode := .exec (.nsLinkUp pid "lo".toList) fun _ => .ret .ok

theorem networkSetupVeth_eq (containerId bridgeName ipAddress gateway : CStr) (pid : Int) :
    networkSetupVeth containerId bridgeName ipAddress gateway pid =
      Script.checkAll (vethCommands containerId bridgeName ipAddress gateway pid) .error
        (vethTail pid) := rfl

theorem vethHost_ne_vethContainer (containerId : CStr) : vethHost containerId ≠ vethContainer := by
  simp [vethHost, vethContainer]

/-- No command of `network_setup_veth` removes its host end. -/
theorem vethCommands_spare (containerId bridgeName ipAddress gateway : CStr) (pid : Int) :
    ∀ c ∈ vethCommands containerId bridgeName ipAddress gateway pid,
      c.Spares (vethHost containerId) := by
  intro c hc
  simp only [vethCommands, List.mem_cons, List.not_mem_nil, or_false] at hc
  rcases hc with rfl | rfl | rfl | rfl | rfl | rfl | rfl
  all_goals first
    | exact trivial
    | exact (vethHost_ne_vethContainer containerId).symm

/-- The veth setup fails exactly when one of its checked commands does. -/
theorem setupVeth_ok_iff (containerId bridgeName ipAddress gateway : CStr) (pid : Int)
    (w : World Host) :
    (run NetCmd.effect (networkSetupVeth containerId bridgeName ipAddress gateway pid) w).1 = .ok ↔
      firstFailure NetCmd.effect (vethCommands containerId bridgeName ipAddress gateway pid) w
        = none := by
  have hres := Script.run_checkAll_result NetCmd.effect
    (vethCommands containerId bridgeName ipAddress gateway pid) .error (vethTail pid) w
    fun w' => by simp [vethTail, Script.run_exec]
  have hcases : Script.wp NetCmd.effect
      (networkSetupVeth containerId bridgeName ipAddress gateway pid)
      (fun code _ => code = .ok ∨ code = .error) w.state := by
    simp [networkSetupVeth]
  have hcode := Script.wp_run NetCmd.effect w hcases
  rw [networkSetupVeth_eq] at hcode ⊢
  rcases hcode with hcode | hcode
  · have hne := mt hres.mpr (by rw [hcode]; simp)
    simpa [hcode] using hne
  · have hne := hres.mp hcode
    simpa [hcode] using hne

/-- A veth setup that fails at its first command leaves the host as it was. -/
theorem setupVeth_zero {containerId bridgeName ipAddress gateway : CStr} {pid : Int}
    {w : World Host}
    (h : firstFailure NetCmd.effect (vethCommands containerId bridgeName ipAddress gateway pid) w
      = some 0) :
    (run NetCmd.effect (networkSetupVeth containerId bridgeName ipAddress gateway pid) w).2.state
      = w.state := by
  rw [networkSetupVeth_eq, Script.run_checkAll_zero NetCmd.effect _ _ h]
  rfl

/-- A veth setup that fails later leaves a host end that was not there before. -/
theorem setupVeth_succ {containerId bridgeName ipAddress gateway : CStr} {pid : Int}
    {w : World Host} {i : Nat}
    (h : firstFailure NetCmd.effect (vethCommands containerId bridgeName ipAddress gateway pid) w
      = some (i + 1)) :
    w.state.link (vethHost containerId) = none ∧
      (run NetCmd.effect (networkSetupVeth containerId bridgeName ipAddress gateway pid)
        w).2.state.link (vethHost containerId) ≠ none := by
  obtain ⟨s, hs, hrun⟩ := Script.run_checkAll_succ NetCmd.effect CrCode.error (vethTail pid) h
  obtain ⟨t, ht, rfl⟩ := Option.map_eq_some_iff.mp hs
  obtain ⟨-, hfree, -, hall⟩ := LinkTable.addPair_eq_some ht
  refine ⟨hfree, ?_⟩
  have hspare := vethCommands_spare containerId bridgeName ipAddress gateway pid
  rw [networkSetupVeth_eq]
  refine (congrArg (fun r => r.2.state.link (vethHost containerId) ≠ none) hrun).mpr ?_
  refine Script.run_keeps NetCmd.effect (p := fun c => c.Spares (vethHost containerId))
    (I := fun h => h.link (vethHost containerId) ≠ none)
    (fun c hc h h' hstep hl => effect_spares hstep hc hl) ?_ _ ?_
  · refine Script.uses_checkAll (fun c hc => hspare c (List.mem_cons_of_mem _ hc)) ?_
    exact ⟨trivial, fun _ => trivial⟩
  · rw [World.next_state, Host.link, Host.setLinks_links, hall, if_pos rfl]
    simp

/-! ### The whole setup -/

/-- Port forwarding has no say in the result of the setup. -/
theorem networkAttach_ok_iff (c : Container) (w : World Host) :
    (run NetCmd.effect (networkAttach c) w).1 = .ok ↔
      (run NetCmd.effect (networkSetupVeth c.id c.network.bridgeName c.network.ipAddress
        c.network.gateway c.initPid) w).1 = .ok := by
  unfold networkAttach
  rw [Script.run_bind]
  split
  · rename_i hne
    simp [hne]
  · rename_i heq
    rw [ne_eq, not_not] at heq
    split
    · rw [Script.run_bind]
      simp [heq]
    · simp [heq]

/-- When the veth setup fails the container setup stops there. -/
theorem networkAttach_error {c : Container} {w : World Host}
    (h : (run NetCmd.effect (networkSetupVeth c.id c.network.bridgeName c.network.ipAddress
      c.network.gateway c.initPid) w).1 ≠ .ok) :
    run NetCmd.effect (networkAttach c) w = (.error, (run NetCmd.effect
      (networkSetupVeth c.id c.network.bridgeName c.network.ipAddress c.network.gateway
        c.initPid) w).2) := by
  unfold networkAttach
  rw [Script.run_bind, if_pos h]
  rfl

/-- The setup, once the bridge is there and the container has an address. -/
theorem setupContainer_attach {env : Entropy} {c c' : Container} {w : World Host}
    (hb : (run NetCmd.effect
      (networkCreateBridge c.network.bridgeName c.network.subnet env.bridgeStack) w).1 = .ok)
    (hc' : withAddress env c = some c') :
    run NetCmd.effect (networkSetupContainer env c) w =
      (((run NetCmd.effect (networkAttach c') (run NetCmd.effect
          (networkCreateBridge c.network.bridgeName c.network.subnet env.bridgeStack) w).2).1, c'),
        (run NetCmd.effect (networkAttach c') (run NetCmd.effect
          (networkCreateBridge c.network.bridgeName c.network.subnet env.bridgeStack) w).2).2) := by
  unfold networkSetupContainer
  rw [Script.run_bind, hb, if_neg (by simp), hc']
  simp only [Script.run_bind]
  rfl

/-- Without a bridge or an address the setup stops, and returns an error. -/
theorem setupContainer_stop {env : Entropy} {c : Container} {w : World Host}
    (h : (run NetCmd.effect
      (networkCreateBridge c.network.bridgeName c.network.subnet env.bridgeStack) w).1 ≠ .ok ∨
        withAddress env c = none) :
    run NetCmd.effect (networkSetupContainer env c) w =
      ((.error, c), (run NetCmd.effect
        (networkCreateBridge c.network.bridgeName c.network.subnet env.bridgeStack) w).2) := by
  unfold networkSetupContainer
  rw [Script.run_bind]
  split
  · rfl
  · rename_i heq
    rw [h.resolve_left (by simpa using heq)]
    rfl

/-- The setup gets as far as its veth pair, and a command after `ip link add` fails. -/
def StopsAfterPair (env : Entropy) (c : Container) (w : World Host) : Prop :=
  (run NetCmd.effect
      (networkCreateBridge c.network.bridgeName c.network.subnet env.bridgeStack) w).1 = .ok ∧
    ∃ c', withAddress env c = some c' ∧
      ∃ i, firstFailure NetCmd.effect
        (vethCommands c'.id c'.network.bridgeName c'.network.ipAddress c'.network.gateway
          c'.initPid)
        (run NetCmd.effect
          (networkCreateBridge c.network.bridgeName c.network.subnet env.bridgeStack) w).2
        = some (i + 1)

/-- The links of every namespace and the iptables lists are what they were, apart from
the bridge and the bridge's rules. -/
structure Restored (b subnet : CStr) (h h' : Host) : Prop where
  links : ∀ x : Loc, x ≠ ⟨.host, b⟩ → h'.links.lookup x = h.links.lookup x
  rules : ∀ c, ∃ own, (∀ r ∈ own, IsBridgeRule b subnet r ∧ r.chain = c) ∧
    h'.rules c = h.rules c ++ own

theorem SameApartFromBridge.restored {b subnet : CStr} {h h' : Host}
    (hs : SameApartFromBridge b subnet h h') : Restored b subnet h h' :=
  ⟨hs.links, hs.rules⟩

theorem withAddress_eq {env : Entropy} {c c' : Container} (h : withAddress env c = some c') :
    c'.id = c.id ∧ c'.network.bridgeName = c.network.bridgeName ∧ c'.initPid = c.initPid ∧
      c'.network.ports = c.network.ports := by
  obtain ⟨ip, -, rfl⟩ := Option.map_eq_some_iff.mp h
  exact ⟨rfl, rfl, rfl, rfl⟩

/--
**A failed setup restores the host exactly when it does not stop after its veth
pair was created.**
-/
theorem setup_error_restores_iff (env : Entropy) (c : Container) (w : World Host) :
    ((run NetCmd.effect (networkSetupContainer env c) w).1.1 ≠ .ok →
      Restored c.network.bridgeName c.network.subnet w.state
        (run NetCmd.effect (networkSetupContainer env c) w).2.state) ↔
    ¬StopsAfterPair env c w := by
  have hbridge := createBridge_same c.network.bridgeName c.network.subnet env.bridgeStack w
  have hlink := createBridge_ok_link c.network.bridgeName c.network.subnet env.bridgeStack w
  by_cases hb : (run NetCmd.effect
      (networkCreateBridge c.network.bridgeName c.network.subnet env.bridgeStack) w).1 = .ok
  swap
  · rw [setupContainer_stop (Or.inl hb)]
    exact ⟨fun _ hstop => hb hstop.1, fun _ _ => hbridge.restored⟩
  cases hc' : withAddress env c with
  | none =>
      rw [setupContainer_stop (Or.inr hc')]
      refine ⟨fun _ hstop => ?_, fun _ _ => hbridge.restored⟩
      obtain ⟨-, c', hsome, -⟩ := hstop
      rw [hc'] at hsome
      simp at hsome
  | some c' =>
      rw [setupContainer_attach hb hc']
      set v := (run NetCmd.effect
        (networkCreateBridge c.network.bridgeName c.network.subnet env.bridgeStack) w).2 with hv
      have hstop : StopsAfterPair env c w ↔ ∃ i, firstFailure NetCmd.effect
          (vethCommands c'.id c'.network.bridgeName c'.network.ipAddress c'.network.gateway
            c'.initPid) v = some (i + 1) := by
        unfold StopsAfterPair
        rw [hv, hc']
        simp [hb]
      rw [hstop]
      show ((run NetCmd.effect (networkAttach c') v).1 ≠ .ok → _) ↔ _
      rw [ne_eq, networkAttach_ok_iff, setupVeth_ok_iff]
      cases hfirst : firstFailure NetCmd.effect
          (vethCommands c'.id c'.network.bridgeName c'.network.ipAddress c'.network.gateway
            c'.initPid) v with
      | none => simp
      | some k =>
          have herr := (setupVeth_ok_iff c'.id c'.network.bridgeName c'.network.ipAddress
            c'.network.gateway c'.initPid v).not.mpr (by simp [hfirst])
          rw [networkAttach_error herr]
          cases k with
          | zero =>
              rw [setupVeth_zero hfirst]
              exact ⟨fun _ hc => by simp at hc, fun _ _ => hbridge.restored⟩
          | succ i =>
              -- the host end is there now and was not there before the call
              obtain ⟨hfree, hthere⟩ := setupVeth_succ hfirst
              refine ⟨fun hrest => ?_, fun hno => absurd ⟨i, rfl⟩ hno⟩
              have hne : vethHost c'.id ≠ c.network.bridgeName := by
                intro hc
                rw [hc] at hfree
                exact hlink hb hfree
              have hbefore : w.state.link (vethHost c'.id) = none := by
                rw [← hfree]
                exact (hbridge.links _ (by simpa using hne)).symm
              have hafter := (hrest (by simp)).links ⟨.host, vethHost c'.id⟩ (by simpa using hne)
              rw [← Host.link, ← Host.link, hbefore] at hafter
              exact absurd hafter hthere

/-- A container on the default bridge and subnet. -/
def Container.sample (id ipAddress : CStr) (pid : Int) : Container where
  id := id
  network :=
    { bridgeName := "cr0".toList
      ipAddress := ipAddress
      gateway := []
      subnet := "172.17.0.0/16".toList
      ports := [] }
  initPid := pid

/-- A refused `ip link set eth0 netns` leaves `eth0` on the host. -/
theorem setup_error_leaves_eth0 :
    ¬∀ (env : Entropy) (c : Container) (w : World Host),
      (run NetCmd.effect (networkSetupContainer env c) w).1.1 ≠ .ok →
      Restored c.network.bridgeName c.network.subnet w.state
        (run NetCmd.effect (networkSetupContainer env c) w).2.state := by
  intro hall
  have hrest := (hall ⟨0, 0, 0, 0⟩ (.sample "0123456789".toList [] 7) ⟨.bare, fun n => n == 11⟩
    (by decide)).links ⟨.host, "eth0".toList⟩ (by decide)
  exact absurd hrest (by decide)

end Cruntime
