/-
Several containers on one host, set up and cleaned up one call after the other.

`Fleet` is the host, the containers' records as the calls leave them, and which
containers are live: set up with success and not cleaned up since.  A setup that
fails leaves a live container live, because the setup it had is still there.

What a call does to the links of other containers is said here once.  A setup
touches no link that was there when it started, whatever it is and whichever command
fails; a cleanup deletes one link by name, and that link alone unless it is the
peer or the bridge of another.
-/
import Cruntime.Lib.Runs
import Cruntime.Net.Bridge
import Cruntime.Net.Setup

namespace Cruntime

open Script (run)

/-! ### The state and the calls -/

structure Fleet (ι : Type) where
  world : World Host
  containers : ι → Container
  live : ι → Bool
  /-- The value of `rand()` a container's address was computed from, if it was. -/
  drawn : ι → Option Nat

inductive FleetCall (ι : Type) where
  | setup (i : ι) (env : Entropy)
  | cleanup (i : ι)

/-- The container a call is about. -/
def FleetCall.who {ι : Type} : FleetCall ι → ι
  | .setup i _ => i
  | .cleanup i => i

namespace Fleet

variable {ι : Type} [DecidableEq ι]

/-- What `network_setup_container` returns and leaves for container `i`. -/
def attempt (s : Fleet ι) (i : ι) (env : Entropy) : (CrCode × Container) × World Host :=
  run NetCmd.effect (networkSetupContainer env (s.containers i)) s.world

def step (s : Fleet ι) : FleetCall ι → Fleet ι
  | .setup i env =>
      { world := (s.attempt i env).2
        containers := Function.update s.containers i (s.attempt i env).1.2
        live := if (s.attempt i env).1.1 = .ok then Function.update s.live i true else s.live
        drawn := if (s.containers i).network.ipAddress = [] ∧
            (s.attempt i env).1.2.network.ipAddress ≠ [] then
            Function.update s.drawn i (some env.rand) else s.drawn }
  | .cleanup i =>
      { s with
        world := (run NetCmd.effect (networkCleanupContainer (s.containers i)) s.world).2
        live := Function.update s.live i false }

/-- The host end of the veth pair of container `i`. -/
def veth (s : Fleet ι) (i : ι) : CStr := vethHost (s.containers i).id

theorem step_setup_containers (s : Fleet ι) (i : ι) (env : Entropy) (j : ι) :
    (s.step (.setup i env)).containers j
      = if j = i then (s.attempt i env).1.2 else s.containers j := by
  show Function.update s.containers i _ j = _
  rw [Function.update_apply]

theorem step_setup_live (s : Fleet ι) (i : ι) (env : Entropy) (j : ι) :
    (s.step (.setup i env)).live j
      = if j = i ∧ (s.attempt i env).1.1 = .ok then true else s.live j := by
  show (if (s.attempt i env).1.1 = .ok then Function.update s.live i true else s.live) j = _
  by_cases hok : (s.attempt i env).1.1 = .ok
  · simp [hok, Function.update_apply]
  · simp [hok]

theorem step_setup_drawn (s : Fleet ι) (i : ι) (env : Entropy) (j : ι) :
    (s.step (.setup i env)).drawn j
      = if j = i ∧ (s.containers i).network.ipAddress = [] ∧
            (s.attempt i env).1.2.network.ipAddress ≠ []
          then some env.rand else s.drawn j := by
  show (if (s.containers i).network.ipAddress = [] ∧
      (s.attempt i env).1.2.network.ipAddress ≠ [] then Function.update s.drawn i (some env.rand)
      else s.drawn) j = _
  by_cases hdraw : (s.containers i).network.ipAddress = [] ∧
      (s.attempt i env).1.2.network.ipAddress ≠ []
  · simp [hdraw, Function.update_apply]
  · rw [if_neg hdraw, if_neg fun hc => hdraw hc.2]

theorem step_cleanup_live (s : Fleet ι) (i j : ι) :
    (s.step (.cleanup i)).live j = if j = i then false else s.live j := by
  show Function.update s.live i false j = _
  rw [Function.update_apply]

/-- Two containers of the same explicit address, if any, on a bare host. -/
def pair (id id' ipAddress : CStr) : Fleet Bool where
  world := .calm .bare
  containers i := if i then .sample id ipAddress 7 else .sample id' ipAddress 8
  live _ := false
  drawn _ := none

end Fleet

/-! ### What a setup leaves alone -/

/-- A bridge creation touches no link that was there, not even one of its own name. -/
theorem createBridge_keeps {name : CStr} {l : Link} (b subnet : CStr) (stack : Addr)
    {w : World Host} (hl : w.state.link name = some l) :
    (run NetCmd.effect (networkCreateBridge b subnet stack) w).2.state.link name = some l := by
  by_cases hname : name = b
  · subst hname
    have hthere : w.state.link name ≠ none := by simp [hl]
    rcases createBridge_present subnet stack hthere with ⟨-, hrun⟩ | ⟨-, hst⟩
    · rw [hrun]; exact hl
    · rw [hst]; exact hl
  · exact ((createBridge_same b subnet stack w).links ⟨.host, name⟩ (by simpa using hname)).trans hl

/-- A name that no command of the veth setup writes to by itself. -/
def Unwritten (name : CStr) : Prop := name ≠ vethContainer ∧ name ≠ "lo".toList

theorem unwritten_vethHost (id : CStr) : Unwritten (vethHost id) := by
  refine ⟨vethHost_ne_vethContainer id, ?_⟩
  simp [vethHost]

/-- The commands after the pair was created avoid every other link of the host. -/
theorem vethCommands_avoid {id b ip gateway : CStr} {pid : Int} {name : CStr} {l : Link}
    (hname : Unwritten name) (hne : vethHost id ≠ name)
    (hkind : l.kind ≠ .veth ⟨.host, vethContainer⟩) :
    ∀ c ∈ (vethCommands id b ip gateway pid).tail, c.Avoids name l := by
  intro c hc
  simp only [vethCommands, List.tail_cons, List.mem_cons, List.not_mem_nil, or_false] at hc
  rcases hc with rfl | rfl | rfl | rfl | rfl | rfl
  · exact hne
  · exact hne
  · exact ⟨hname.1.symm, hkind⟩
  · exact hname.1.symm
  · exact hname.1.symm
  · exact trivial

theorem vethTail_avoid {pid : Int} {name : CStr} {l : Link} (hname : Unwritten name) :
    (vethTail pid).Uses (NetCmd.Avoids name l) :=
  ⟨hname.2.symm, fun _ => trivial⟩

/-- The veth setup touches no link that was there. -/
theorem setupVeth_keeps {name : CStr} {l : Link} (hname : Unwritten name) (id b ip gateway : CStr)
    (pid : Int) {w : World Host} (hl : w.state.link name = some l) :
    (run NetCmd.effect (networkSetupVeth id b ip gateway pid) w).2.state.link name = some l := by
  refine Script.wp_run NetCmd.effect (Q := fun _ h' => h'.link name = some l) w ?_
  rw [networkSetupVeth_eq]
  refine ⟨fun s hs => ?_, hl⟩
  obtain ⟨t, ht, rfl⟩ := Option.map_eq_some_iff.mp hs
  obtain ⟨-, hfree, hpeer, -⟩ := LinkTable.addPair_eq_some ht
  have hne : vethHost id ≠ name := by
    rintro rfl
    rw [← Host.link, hl] at hfree
    simp at hfree
  have hkind : l.kind ≠ .veth ⟨.host, vethContainer⟩ := by
    intro hk
    obtain ⟨-, l', hl', -⟩ := w.state.links.peered hl hk
    rw [hpeer] at hl'
    simp at hl'
  refine Script.wp_of_uses NetCmd.effect (fun c hc h h' hstep => effect_avoids hstep hc)
    (Script.uses_checkAll (vethCommands_avoid hname hne hkind) (vethTail_avoid hname)) _ ?_
  exact effect_avoids (c := .linkAddVeth (vethHost id) vethContainer) hs trivial hl

/-- Port forwarding writes rules and nothing else. -/
theorem setupPortForwarding_uses (ip : CStr) (ports : List PortMapping) :
    (networkSetupPortForwarding ip ports).Uses (fun c => ∃ r, c = .appendRule r) := by
  induction ports with
  | nil => exact trivial
  | cons pm rest ih =>
      refine ⟨⟨_, rfl⟩, fun ok => ?_⟩
      cases ok with
      | true => exact ⟨⟨_, rfl⟩, fun _ => ih⟩
      | false => exact ih

theorem setupPortForwarding_keeps {name : CStr} {l : Link} (ip : CStr) (ports : List PortMapping)
    {w : World Host} (hl : w.state.link name = some l) :
    (run NetCmd.effect (networkSetupPortForwarding ip ports) w).2.state.link name = some l := by
  refine Script.run_keeps NetCmd.effect (I := fun h => h.link name = some l) ?_
    (setupPortForwarding_uses ip ports) w hl
  intro c hc h h' hstep hlink
  obtain ⟨r, rfl⟩ := hc
  exact effect_avoids hstep trivial hlink

/-- After the bridge and the address the setup touches no link that was there. -/
theorem networkAttach_keeps {name : CStr} {l : Link} (hname : Unwritten name) (c : Container)
    {w : World Host} (hl : w.state.link name = some l) :
    (run NetCmd.effect (networkAttach c) w).2.state.link name = some l := by
  have hveth := setupVeth_keeps hname c.id c.network.bridgeName c.network.ipAddress
    c.network.gateway c.initPid hl
  unfold networkAttach
  rw [Script.run_bind]
  split
  · exact hveth
  · split
    · rw [Script.run_bind]
      exact setupPortForwarding_keeps _ _ hveth
    · exact hveth

/-- **A setup touches no link that was there.** -/
theorem setupContainer_keeps {name : CStr} {l : Link} (hname : Unwritten name) (env : Entropy)
    (c : Container) {w : World Host} (hl : w.state.link name = some l) :
    (run NetCmd.effect (networkSetupContainer env c) w).2.state.link name = some l := by
  have hbridge := createBridge_keeps c.network.bridgeName c.network.subnet env.bridgeStack hl
  by_cases hb : (run NetCmd.effect
      (networkCreateBridge c.network.bridgeName c.network.subnet env.bridgeStack) w).1 = .ok
  · cases hc' : withAddress env c with
    | none => rw [setupContainer_stop (Or.inr hc')]; exact hbridge
    | some c' => rw [setupContainer_attach hb hc']; exact networkAttach_keeps hname c' hbridge
  · rw [setupContainer_stop (Or.inl hb)]
    exact hbridge

/-! ### What a successful setup leaves -/

/-- The host end of a pair: up, on the bridge, its peer called `eth0`. -/
structure Attached (bridgeName : CStr) (l : Link) : Prop where
  pair : ∃ ns, l.kind = .veth ⟨ns, vethContainer⟩
  port : l.dev.master = some bridgeName
  up : l.dev.up = true

/-- The host end after the first four commands of the veth setup, one by one. -/
theorem veth_up {vh b : CStr} {pid : Int} {h h₁ h₂ h₃ h₄ : Host} (hne : vh ≠ vethContainer)
    (hs₁ : NetCmd.effect (.linkAddVeth vh vethContainer) h = some h₁)
    (hs₂ : NetCmd.effect (.linkSetMaster vh b) h₁ = some h₂)
    (hs₃ : NetCmd.effect (.linkUp vh) h₂ = some h₃)
    (hs₄ : NetCmd.effect (.linkSetNetns vethContainer pid) h₃ = some h₄) :
    ∃ ns, h₄.link vh = some ⟨.veth ⟨ns, vethContainer⟩, ⟨some b, true, []⟩⟩ := by
  have hset : ∀ {g g' : Host} {f : Dev → Dev} {k : LinkKind} {d : Dev},
      (g.links.setDev ⟨.host, vh⟩ f).map g.setLinks = some g' → g.link vh = some ⟨k, d⟩ →
      g'.link vh = some ⟨k, f d⟩ := by
    intro g g' f k d hmap hl
    obtain ⟨t, ht, rfl⟩ := Option.map_eq_some_iff.mp hmap
    obtain ⟨l, hl', hall⟩ := LinkTable.setDev_eq_some ht
    rw [Host.link, hl', Option.some.injEq] at hl
    show t.lookup ⟨.host, vh⟩ = _
    rw [hall, if_pos rfl, hl]
  have hl₁ : h₁.link vh = some ⟨.veth ⟨.host, vethContainer⟩, .fresh⟩ := by
    obtain ⟨t, ht, rfl⟩ := Option.map_eq_some_iff.mp hs₁
    obtain ⟨-, -, -, hall⟩ := LinkTable.addPair_eq_some ht
    show t.lookup ⟨.host, vh⟩ = _
    rw [hall, if_pos rfl]
  have hl₂ := hset (Option.ite_none_right_eq_some.mp hs₂).2 hl₁
  have hl₃ := hset hs₃ hl₂
  cases effect_step hs₄ with
  | idle => exact ⟨.host, hl₃⟩
  | @move dev pid ns t hns hhost ht =>
      -- the peer moved, and the host end points at where it went
      obtain ⟨la, hla, -, hall⟩ := LinkTable.move_eq_some ht
      have hpeer := (LinkTable.kindAt_peer (LinkTable.kindAt_eq_some.mpr ⟨_, hl₃, rfl⟩)).2
      obtain ⟨la', hla', hk⟩ := LinkTable.kindAt_eq_some.mp hpeer
      rw [hla, Option.some.injEq] at hla'
      refine ⟨ns, ?_⟩
      show t.lookup ⟨.host, vh⟩ = _
      rw [hall, if_neg (by simpa using fun heq => absurd heq.symm hhost),
        if_neg (by simpa using hne), if_pos (hla' ▸ hk), ← Host.link, hl₃]
      rfl
  | setDev ha => simp [NetCmd.target] at ha
  | rules hc => simp at hc

/-- **A veth setup that succeeds leaves its host end attached.** -/
theorem setupVeth_attached {id b ip gateway : CStr} {pid : Int} {w : World Host}
    (hok : (run NetCmd.effect (networkSetupVeth id b ip gateway pid) w).1 = .ok) :
    ∃ l, (run NetCmd.effect (networkSetupVeth id b ip gateway pid) w).2.state.link (vethHost id)
      = some l ∧ Attached b l := by
  refine Script.wp_run NetCmd.effect (Q := fun code h' => code = .ok →
    ∃ l, h'.link (vethHost id) = some l ∧ Attached b l) w ?_ hok
  have herr : CrCode.error ≠ .ok := by simp
  have hname := unwritten_vethHost id
  rw [networkSetupVeth_eq]
  refine ⟨fun h₁ hs₁ => ⟨fun h₂ hs₂ => ⟨fun h₃ hs₃ => ⟨fun h₄ hs₄ => ?_, ?_⟩, ?_⟩, ?_⟩, ?_⟩
  · obtain ⟨ns, hl⟩ := veth_up hname.1 hs₁ hs₂ hs₃ hs₄
    refine Script.wp_mono NetCmd.effect (Q := fun _ h' => h'.link (vethHost id) = some _) ?_ _
      (Script.wp_of_uses NetCmd.effect (fun c hc h h' hstep => effect_avoids hstep hc) ?_ h₄ hl)
    · intro code h' hl' _
      exact ⟨_, hl', ⟨ns, rfl⟩, rfl, rfl⟩
    · show (Script.checkAll [.nsAddrAdd pid ip vethContainer, .nsLinkUp pid vethContainer,
        .nsRouteAdd pid gateway] .error (vethTail pid)).Uses _
      refine Script.uses_checkAll ?_ (vethTail_avoid hname)
      intro c hc
      simp only [List.mem_cons, List.not_mem_nil, or_false] at hc
      rcases hc with rfl | rfl | rfl
      · exact hname.1.symm
      · exact hname.1.symm
      · exact trivial
  all_goals exact fun hc => absurd hc herr

/-- Port forwarding leaves the host end as it is. -/
theorem networkAttach_attached {c : Container} {w : World Host}
    (hok : (run NetCmd.effect (networkAttach c) w).1 = .ok) :
    ∃ l, (run NetCmd.effect (networkAttach c) w).2.state.link (vethHost c.id) = some l ∧
      Attached c.network.bridgeName l := by
  have hveth := (networkAttach_ok_iff c w).mp hok
  obtain ⟨l, hl, hatt⟩ := setupVeth_attached hveth
  refine ⟨l, ?_, hatt⟩
  unfold networkAttach
  rw [Script.run_bind, hveth, if_neg (by simp)]
  split
  · rw [Script.run_bind]
    exact setupPortForwarding_keeps _ _ hl
  · exact hl

/-- A container setup that succeeds leaves the host end of its pair attached. -/
theorem setupContainer_attached {env : Entropy} {c : Container} {w : World Host}
    (hok : (run NetCmd.effect (networkSetupContainer env c) w).1.1 = .ok) :
    ∃ l, (run NetCmd.effect (networkSetupContainer env c) w).2.state.link (vethHost c.id) = some l ∧
      Attached c.network.bridgeName l := by
  have herr : CrCode.error ≠ .ok := by simp
  by_cases hb : (run NetCmd.effect
      (networkCreateBridge c.network.bridgeName c.network.subnet env.bridgeStack) w).1 = .ok
  · cases hc' : withAddress env c with
    | none =>
        rw [setupContainer_stop (Or.inr hc')] at hok
        exact absurd hok herr
    | some c' =>
        obtain ⟨hid, hbridge, -, -⟩ := withAddress_eq hc'
        rw [setupContainer_attach hb hc'] at hok ⊢
        have hatt := networkAttach_attached (c := c') hok
        rwa [hid, hbridge] at hatt
  · rw [setupContainer_stop (Or.inl hb)] at hok
    exact absurd hok herr

end Cruntime
