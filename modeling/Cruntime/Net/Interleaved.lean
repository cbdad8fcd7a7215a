/-
Whose peer a container's `eth0` is, when setups run at the same time.

Every `network_setup_veth` makes its pair with the peer called `eth0` in the host's
own namespace and moves it into the container three commands later.  In between, the
host's `eth0` is that call's; nothing in the code says so, but `ip link add` refuses
a pair whose peer's name is taken, and that makes the name a lock.  A call that stops
in between never gives the lock back, which blocks later calls and harms nothing else.

`VethPhase` is how far a call has come and `VethPhase.Holds` what it owns there;
`Owned` adds that at most one call stands between its two commands.  One step of any
call keeps this, and a call that returned `CR_OK` owns its container's `eth0`.
-/
import Cruntime.Lib.Pool
import Cruntime.Net.Setup

namespace Cruntime

/-! ### Commands that leave the kinds of links alone -/

/-- The command creates, moves and deletes no link. -/
def NetCmd.KeepsKinds : NetCmd → Prop
  | .linkAddBridge _ => False
  | .linkAddVeth _ _ => False
  | .linkSetNetns _ _ => False
  | .linkDeleteBridge _ => False
  | .linkDelete _ => False
  | _ => True

theorem effect_keepsKinds {c : NetCmd} {h h' : Host} (hs : c.effect h = some h')
    (hc : c.KeepsKinds) (x : Loc) : h'.links.kindAt x = h.links.kindAt x := by
  cases effect_step hs with
  | idle => rfl
  | setDev _ ht => exact LinkTable.setDev_kindAt ht x
  | addBridge => exact absurd hc id
  | addPair => exact absurd hc id
  | move => exact absurd hc id
  | delete => exact absurd hc id
  | deleteBridge => exact absurd hc id
  | rules => rfl
  | route => rfl
  | forward => rfl

/-- The kinds after `ip link add .. type veth`. -/
theorem addPair_kindAt {t t' : LinkTable} {a b : Loc} (ht : t.addPair a b = some t') (x : Loc) :
    t'.kindAt x = if x = a then some (.veth b) else if x = b then some (.veth a)
      else t.kindAt x := by
  obtain ⟨-, -, -, hall⟩ := LinkTable.addPair_eq_some ht
  unfold LinkTable.kindAt
  rw [hall]
  split_ifs <;> rfl

/-- The kinds after a veth end was moved: it is where it went, and its peer knows. -/
theorem move_kindAt {t t' : LinkTable} {a b c : Loc} (ht : t.move a b = some t')
    (ha : t.kindAt a = some (.veth c)) (x : Loc) :
    t'.kindAt x = if x = b then some (.veth c) else if x = a then none
      else if x = c then some (.veth b) else t.kindAt x := by
  obtain ⟨l, hl, -, hall⟩ := LinkTable.move_eq_some ht
  obtain ⟨l', hl', hk⟩ := LinkTable.kindAt_eq_some.mp ha
  obtain rfl : l = l' := by
    rw [hl] at hl'
    exact Option.some.inj hl'
  obtain ⟨-, hpeer⟩ := LinkTable.kindAt_peer ha
  obtain ⟨lc, hlc, -⟩ := LinkTable.kindAt_eq_some.mp hpeer
  unfold LinkTable.kindAt
  rw [hall, hk]
  by_cases hxb : x = b
  · simp [hxb]
  · by_cases hxa : x = a
    · simp [hxa]
    · by_cases hxc : x = c
      · subst hxc
        simp [hxb, hxa, hlc]
      · have hne : LinkKind.veth c ≠ .veth x := by
          intro heq
          injection heq with heq
          exact hxc heq.symm
        simp [hxb, hxa, hxc, hne]

/-! ### How far a call has come -/

/-- The arguments of `network_setup_veth`. -/
structure VethCall where
  containerId : CStr
  bridgeName : CStr
  ipAddress : CStr
  gateway : CStr
  containerPid : Int

namespace VethCall

def script (v : VethCall) : NetScript CrCode :=
  networkSetupVeth v.containerId v.bridgeName v.ipAddress v.gateway v.containerPid

/-- The host end of the call's pair. -/
def hostEnd (v : VethCall) : Loc := ⟨.host, vethHost v.containerId⟩

/-- The commands between the creation of the pair and the move of its peer. -/
def onHost (v : VethCall) : List NetCmd :=
  [.linkSetMaster (vethHost v.containerId) v.bridgeName, .linkUp (vethHost v.containerId)]

/-- The checked commands in the container's namespace. -/
def inside (v : VethCall) : List NetCmd :=
  [.nsAddrAdd v.containerPid v.ipAddress vethContainer, .nsLinkUp v.containerPid vethContainer,
    .nsRouteAdd v.containerPid v.gateway]

end VethCall

/-- The host's `eth0`, which every call passes through. -/
def hostEth0 : Loc := ⟨.host, vethContainer⟩

theorem VethCall.hostEnd_ne_hostEth0 (v : VethCall) : v.hostEnd ≠ hostEth0 := by
  intro h
  injection h with _ h
  exact vethHost_ne_vethContainer v.containerId h

/-- How far a call has come: before its pair, with the pair on the host and `before`
still to do there, with its peer moved and `after` still to do, or returned. -/
inductive VethPhase where
  | fresh
  | window (before : List NetCmd)
  | moved (after : List NetCmd)
  | done
  | failed

namespace VethPhase

/-- The rest of a call in a phase. -/
def script (v : VethCall) : VethPhase → NetScript CrCode
  | .fresh => v.script
  | .window before => Script.checkAll
      (before ++ .linkSetNetns vethContainer v.containerPid :: v.inside) .error
        (vethTail v.containerPid)
  | .moved after => Script.checkAll after .error (vethTail v.containerPid)
  | .done => .ret .ok
  | .failed => .ret .error

/-- What a call whose container lives in `ns` owns in a phase. -/
def Holds (v : VethCall) (ns : NetNs) (t : LinkTable) : VethPhase → Prop
  | .fresh => True
  | .window before => t.kindAt hostEth0 = some (.veth v.hostEnd) ∧ ∀ c ∈ before, c.KeepsKinds
  | .moved after =>
      t.kindAt ⟨ns, vethContainer⟩ = some (.veth v.hostEnd) ∧ ∀ c ∈ after, c.KeepsKinds
  | .done => t.kindAt ⟨ns, vethContainer⟩ = some (.veth v.hostEnd)
  | .failed => True

/-- The call stands between the creation of its pair and the move. -/
def InWindow : VethPhase → Prop
  | .window _ => True
  | _ => False

theorem holds_congr {v : VethCall} {ns : NetNs} {t t' : LinkTable}
    (hk : ∀ x, t'.kindAt x = t.kindAt x) {ph : VethPhase} (h : ph.Holds v ns t) :
    ph.Holds v ns t' := by
  cases ph with
  | fresh => exact trivial
  | window before => exact ⟨(hk _).trans h.1, h.2⟩
  | moved after => exact ⟨(hk _).trans h.1, h.2⟩
  | done => exact (hk _).trans h
  | failed => exact trivial

/-- What a call outside the window owns is a link in its container's namespace. -/
theorem holds_outside {v : VethCall} {ns : NetNs} {t t' : LinkTable}
    (hk : t.kindAt ⟨ns, vethContainer⟩ = some (.veth v.hostEnd) →
      t'.kindAt ⟨ns, vethContainer⟩ = some (.veth v.hostEnd)) {ph : VethPhase}
    (hout : ¬ph.InWindow) (h : ph.Holds v ns t) : ph.Holds v ns t' := by
  cases ph with
  | fresh => exact trivial
  | window before => exact absurd trivial hout
  | moved after => exact ⟨hk h.1, h.2⟩
  | done => exact hk h
  | failed => exact trivial

end VethPhase

/-! ### The invariant -/

section

variable {ι : Type} [DecidableEq ι] {calls : ι → VethCall} {ns : ι → NetNs}

/-- Every call owns what its phase says, and at most one is in the window. -/
structure Owned (calls : ι → VethCall) (ns : ι → NetNs) (p : Pool ι NetCmd CrCode Host)
    (phase : ι → VethPhase) : Prop where
  nsOf : ∀ i, p.state.nsOf (calls i).containerPid = some (ns i)
  threads : ∀ i, p.threads i = (phase i).script (calls i)
  holds : ∀ i, (phase i).Holds (calls i) (ns i) p.state.links
  alone : ∀ i j, (phase i).InWindow → (phase j).InWindow → i = j

/-- A call that stops keeps the invariant: what it leaves behind it no longer claims. -/
theorem Owned.fail {p : Pool ι NetCmd CrCode Host} {phase : ι → VethPhase}
    (hI : Owned calls ns p phase) (i : ι) :
    Owned calls ns ⟨p.state, Function.update p.threads i (.ret .error)⟩
      (Function.update phase i .failed) := by
  have hother : ∀ j, (Function.update phase i .failed j).InWindow → (phase j).InWindow := by
    intro j hj
    by_cases hji : j = i
    · subst hji
      rw [Function.update_self] at hj
      exact absurd hj id
    · rwa [Function.update_of_ne hji] at hj
  refine ⟨hI.nsOf, fun j => ?_, fun j => ?_, fun j k hj hk => hI.alone j k (hother j hj) (hother k hk)⟩
  · by_cases hji : j = i
    · subst hji
      simp [VethPhase.script]
    · simpa [hji] using hI.threads j
  · by_cases hji : j = i
    · subst hji
      simp [VethPhase.Holds]
    · simpa [hji] using hI.holds j

/-- A call that goes on to `next` keeps the invariant, if it owns what that asks for,
the others still own what they did and it enters the window only when that is empty. -/
theorem Owned.advance {p : Pool ι NetCmd CrCode Host} {phase : ι → VethPhase}
    (hI : Owned calls ns p phase) {i : ι} {h' : Host} (next : VethPhase)
    (hns : h'.nsOf = p.state.nsOf) (hmine : next.Holds (calls i) (ns i) h'.links)
    (hothers : ∀ j, j ≠ i → (phase j).Holds (calls j) (ns j) h'.links)
    (hwin : next.InWindow → ∀ j, j ≠ i → ¬(phase j).InWindow) :
    Owned calls ns ⟨h', Function.update p.threads i (next.script (calls i))⟩
      (Function.update phase i next) := by
  refine ⟨fun j => ?_, fun j => ?_, fun j => ?_, fun j k hj hk => ?_⟩
  · show h'.nsOf _ = _
    rw [hns]
    exact hI.nsOf j
  · by_cases hji : j = i
    · subst hji
      simp
    · simpa [hji] using hI.threads j
  · by_cases hji : j = i
    · subst hji
      simpa using hmine
    · simpa [hji] using hothers j hji
  · by_cases hji : j = i
    · subst hji
      by_cases hki : k = j
      · exact hki.symm
      · rw [Function.update_self] at hj
        rw [Function.update_of_ne hki] at hk
        exact absurd hk (hwin hj k hki)
    · rw [Function.update_of_ne hji] at hj
      by_cases hki : k = i
      · subst hki
        rw [Function.update_self] at hk
        exact absurd hj (hwin hk j hji)
      · rw [Function.update_of_ne hki] at hk
        exact hI.alone j k hj hk

/-! ### One step -/

/-- A command that keeps the kinds lets its call go on in a phase that asks for the
same links. -/
theorem Owned.quiet {p : Pool ι NetCmd CrCode Host} {phase : ι → VethPhase}
    (hI : Owned calls ns p phase) {i : ι} {c : NetCmd} {h' : Host} (next : VethPhase)
    (hs : c.effect p.state = some h') (hc : c.KeepsKinds)
    (hmine : next.Holds (calls i) (ns i) p.state.links)
    (hwin : next.InWindow → (phase i).InWindow) :
    Owned calls ns ⟨h', Function.update p.threads i (next.script (calls i))⟩
      (Function.update phase i next) := by
  have hkinds := effect_keepsKinds hs hc
  refine hI.advance next (effect_nsOf hs) (VethPhase.holds_congr hkinds hmine)
    (fun j _ => VethPhase.holds_congr hkinds (hI.holds j)) ?_
  intro hnext j hji hj
  exact hji (hI.alone j i hj (hwin hnext))

/-- **The creation of a pair**: the name was free, so no call was in the window. -/
theorem Owned.create {p : Pool ι NetCmd CrCode Host} {phase : ι → VethPhase}
    (hI : Owned calls ns p phase) (hhost : ∀ j, ns j ≠ .host) {i : ι} {h' : Host}
    (hs : NetCmd.effect (.linkAddVeth (vethHost (calls i).containerId) vethContainer) p.state
      = some h') :
    Owned calls ns
      ⟨h', Function.update p.threads i
        ((VethPhase.window (calls i).onHost).script (calls i))⟩
      (Function.update phase i (.window (calls i).onHost)) := by
  obtain ⟨t, ht, rfl⟩ := Option.map_eq_some_iff.mp hs
  obtain ⟨-, -, hfree, -⟩ := LinkTable.addPair_eq_some ht
  have hempty : ∀ j, ¬(phase j).InWindow := by
    intro j hj
    have hown := hI.holds j
    cases hph : phase j <;> rw [hph] at hj hown
    case window before =>
        exact absurd hfree (LinkTable.lookup_ne_none hown.1)
    all_goals exact hj
  refine hI.advance (.window (calls i).onHost) rfl ⟨?_, ?_⟩ (fun j _ => ?_) (fun _ j _ => hempty j)
  · rw [Host.setLinks_links, addPair_kindAt ht]
    show (if hostEth0 = (calls i).hostEnd then _ else if hostEth0 = hostEth0 then _ else _) = _
    rw [if_neg (calls i).hostEnd_ne_hostEth0.symm, if_pos rfl]
    rfl
  · intro c hc
    simp only [VethCall.onHost, List.mem_cons, List.not_mem_nil, or_false] at hc
    rcases hc with rfl | rfl <;> exact trivial
  · refine VethPhase.holds_outside (fun hk => ?_) (hempty j) (hI.holds j)
    have hne : ∀ name, (⟨ns j, vethContainer⟩ : Loc) ≠ ⟨.host, name⟩ := by
      intro name heq
      injection heq with heq
      exact hhost j heq
    rw [Host.setLinks_links, addPair_kindAt ht, if_neg (hne _), if_neg (hne _)]
    exact hk

/-- **The move of the peer**: the host's `eth0` is the call's own, so it is its own
peer that arrives in the container. -/
theorem Owned.moveIn {p : Pool ι NetCmd CrCode Host} {phase : ι → VethPhase}
    (hI : Owned calls ns p phase) (hhost : ∀ j, ns j ≠ .host) (hdist : Function.Injective ns)
    {i : ι} {h' : Host} (hph : phase i = .window [])
    (hs : NetCmd.effect (.linkSetNetns vethContainer (calls i).containerPid) p.state = some h') :
    Owned calls ns
      ⟨h', Function.update p.threads i ((VethPhase.moved (calls i).inside).script (calls i))⟩
      (Function.update phase i (.moved (calls i).inside)) := by
  have hmine : p.state.links.kindAt hostEth0 = some (.veth (calls i).hostEnd) := by
    have hown := hI.holds i
    rw [hph] at hown
    exact hown.1
  simp only [NetCmd.effect, Host.enter, hI.nsOf i, Option.bind_some, if_neg (hhost i)] at hs
  obtain ⟨t, ht, rfl⟩ := Option.map_eq_some_iff.mp hs
  have hkinds := move_kindAt ht hmine
  refine hI.advance (.moved (calls i).inside) rfl ⟨?_, ?_⟩ (fun j hji => ?_)
    (fun hnext => absurd hnext id)
  · rw [Host.setLinks_links, hkinds, if_pos rfl]
  · intro c hc
    simp only [VethCall.inside, List.mem_cons, List.not_mem_nil, or_false] at hc
    rcases hc with rfl | rfl | rfl <;> exact trivial
  · have hout : ¬(phase j).InWindow := fun hj => hji (hI.alone j i hj (by rw [hph]; exact trivial))
    refine VethPhase.holds_outside (fun hk => ?_) hout (hI.holds j)
    have hne : ∀ name, (⟨ns j, vethContainer⟩ : Loc) ≠ ⟨.host, name⟩ := by
      intro name heq
      injection heq with heq
      exact hhost j heq
    have hnei : (⟨ns j, vethContainer⟩ : Loc) ≠ ⟨ns i, vethContainer⟩ := by
      intro heq
      injection heq with heq
      exact hji (hdist heq)
    rw [Host.setLinks_links, hkinds, if_neg hnei, if_neg (hne _)]
    show (if (⟨ns j, vethContainer⟩ : Loc) = ⟨.host, _⟩ then _ else _) = _
    rw [if_neg (hne _)]
    exact hk

/-- **One step of any call keeps the invariant.** -/
theorem owned_step {p : Pool ι NetCmd CrCode Host} (hhost : ∀ j, ns j ≠ .host)
    (hdist : Function.Injective ns) (i : ι) (fault : Bool)
    (hI : ∃ phase, Owned calls ns p phase) :
    ∃ phase, Owned calls ns (Pool.step NetCmd.effect p i fault) phase := by
  obtain ⟨phase, hI⟩ := hI
  have hthread := hI.threads i
  have hown := hI.holds i
  cases hph : phase i with
  | fresh =>
      rw [hph] at hthread
      rcases Pool.step_exec_cases NetCmd.effect hthread fault with ⟨-, h', hs, hstep⟩ | hstep
      · exact ⟨_, hstep ▸ hI.create hhost hs⟩
      · exact ⟨_, hstep ▸ hI.fail i⟩
  | window before =>
      rw [hph] at hthread hown
      cases before with
      | nil =>
          rcases Pool.step_exec_cases NetCmd.effect hthread fault with ⟨-, h', hs, hstep⟩ | hstep
          · exact ⟨_, hstep ▸ hI.moveIn hhost hdist hph hs⟩
          · exact ⟨_, hstep ▸ hI.fail i⟩
      | cons c before =>
          rcases Pool.step_exec_cases NetCmd.effect hthread fault with ⟨-, h', hs, hstep⟩ | hstep
          · refine ⟨_, hstep ▸ hI.quiet (.window before) hs (hown.2 c (by simp))
              ⟨hown.1, fun d hd => hown.2 d (by simp [hd])⟩ fun _ => ?_⟩
            rw [hph]
            exact trivial
          · exact ⟨_, hstep ▸ hI.fail i⟩
  | moved after =>
      rw [hph] at hthread hown
      cases after with
      | nil =>
          -- the loopback link: its status is dropped
          rcases Pool.step_exec_cases NetCmd.effect hthread fault with ⟨-, h', hs, hstep⟩ | hstep
          · exact ⟨_, hstep ▸ hI.quiet .done hs trivial hown.1 fun hnext => absurd hnext id⟩
          · exact ⟨_, hstep ▸ hI.advance .done rfl hown.1 (fun j _ => hI.holds j)
              fun hnext => absurd hnext id⟩
      | cons c after =>
          rcases Pool.step_exec_cases NetCmd.effect hthread fault with ⟨-, h', hs, hstep⟩ | hstep
          · exact ⟨_, hstep ▸ hI.quiet (.moved after) hs (hown.2 c (by simp))
              ⟨hown.1, fun d hd => hown.2 d (by simp [hd])⟩ fun hnext => absurd hnext id⟩
          · exact ⟨_, hstep ▸ hI.fail i⟩
  | done =>
      rw [hph] at hthread
      exact ⟨phase, (Pool.step_ret NetCmd.effect hthread fault).symm ▸ hI⟩
  | failed =>
      rw [hph] at hthread
      exact ⟨phase, (Pool.step_ret NetCmd.effect hthread fault).symm ▸ hI⟩

/-! ### Every interleaving -/

/-- The calls before their first commands. -/
def vethPool (calls : ι → VethCall) (h : Host) : Pool ι NetCmd CrCode Host :=
  ⟨h, fun i => (calls i).script⟩

/--
**A call that returned `CR_OK` has given its container its own peer**: in every
interleaving of any number of calls, whichever commands fail, the container's `eth0`
and the call's host end are each other's peers, and no other call that returned
`CR_OK` has the same host end.
-/
theorem eth0_is_own_peer {h : Host}
    (hns : ∀ i, h.nsOf (calls i).containerPid = some (ns i)) (hhost : ∀ i, ns i ≠ .host)
    (hdist : Function.Injective ns) (sched : List (ι × Bool)) {i : ι}
    (hok : (Runs.after (Pool.pick NetCmd.effect) (vethPool calls h) sched).threads i = .ret .ok) :
    let links := (Runs.after (Pool.pick NetCmd.effect) (vethPool calls h) sched).state.links
    links.kindAt ⟨ns i, vethContainer⟩ = some (.veth (calls i).hostEnd) ∧
      links.kindAt (calls i).hostEnd = some (.veth ⟨ns i, vethContainer⟩) ∧
      ∀ j, j ≠ i →
        (Runs.after (Pool.pick NetCmd.effect) (vethPool calls h) sched).threads j = .ret .ok →
        links.kindAt ⟨ns i, vethContainer⟩ ≠ some (.veth (calls j).hostEnd) := by
  intro links
  obtain ⟨phase, hI⟩ := Runs.keeps' (Pool.pick NetCmd.effect)
    (I := fun p => ∃ phase, Owned calls ns p phase)
    (fun p x hI => owned_step hhost hdist x.1 x.2 hI) sched (vethPool calls h)
    ⟨fun _ => .fresh, hns, fun _ => rfl, fun _ => trivial, fun _ _ hi => absurd hi id⟩
  have hdone : ∀ j, (Runs.after (Pool.pick NetCmd.effect) (vethPool calls h) sched).threads j
      = .ret .ok → links.kindAt ⟨ns j, vethContainer⟩ = some (.veth (calls j).hostEnd) := by
    intro j hj
    have hown := hI.holds j
    have hthread := hI.threads j
    rw [hj] at hthread
    cases hph : phase j <;> rw [hph] at hthread hown
    case done => exact hown
    case window before => cases before <;> simp [VethPhase.script, Script.checkAll] at hthread
    case moved after =>
        cases after <;> simp [VethPhase.script, Script.checkAll, vethTail] at hthread
    case fresh =>
        simp [VethPhase.script, VethCall.script, networkSetupVeth] at hthread
    case failed => simp [VethPhase.script] at hthread
  have hmine := hdone i hok
  have hback := (LinkTable.kindAt_peer hmine).2
  refine ⟨hmine, hback, fun j hji hj hsame => ?_⟩
  have hbackj := (LinkTable.kindAt_peer (hdone j hj)).2
  rw [hmine] at hsame
  have hends : (calls i).hostEnd = (calls j).hostEnd := by simpa using hsame
  rw [hends, hbackj] at hback
  have hloc : ns j = ns i := by simpa using hback
  exact hji (hdist hloc)

end

/-- The call of a container on the default bridge, in process 7 or 8. -/
def VethCall.sample (i : Bool) : VethCall where
  containerId := if i then "0123456789abcdef".toList else "1123456789abcdef".toList
  bridgeName := "cr0".toList
  ipAddress := if i then "172.17.0.2/16".toList else "172.17.0.3/16".toList
  gateway := "172.17.0.1".toList
  containerPid := if i then 7 else 8

/-- A host with the default bridge and nothing else. -/
def Host.bridged : Host :=
  (Script.run NetCmd.effect
    (networkCreateBridge "cr0".toList "172.17.0.0/16".toList 0) (.calm .bare)).2.state

/-- One call gets through while the other finds `eth0` taken. -/
theorem eth0_is_own_peer_of_two :
    (Runs.after (Pool.pick NetCmd.effect) (vethPool VethCall.sample .bridged)
        ((true, false) :: (false, false) :: List.replicate 7 (true, false))).state.links.kindAt
          ⟨.proc 7, vethContainer⟩ = some (.veth ⟨.host, "veth01234567".toList⟩) := by
  have hns : ∀ i, Host.bridged.nsOf (VethCall.sample i).containerPid
      = some (.proc (if i then 7 else 8)) := by decide
  have hdist : Function.Injective fun i : Bool => NetNs.proc (if i then 7 else 8) := by
    intro i j h
    cases i <;> cases j <;> simp at h ⊢
  exact (eth0_is_own_peer hns (by decide) hdist _ (i := true) rfl).1

end Cruntime
