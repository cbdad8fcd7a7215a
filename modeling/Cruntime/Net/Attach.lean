/-
One setup as a list of commands.

As long as nothing fails, `network_setup_container` looks for the bridge, makes it if
it is not there, and then runs through a fixed list: the veth pair, two commands on
its host end, the move of its peer, and the rest inside the container and on the
rule lists.  Outside of the moment in which its peer is the host's `eth0`, a call
writes to its own part of the host only: its host end, and its container's namespace.
-/
import Cruntime.Net.Interleaved
import Cruntime.Net.Local

namespace Cruntime

open Script (Item Follows execAll run)

/-! ### The commands of a setup -/

def addItem (c : Container) : Item NetCmd := ⟨.linkAddVeth (vethHost c.id) vethContainer, true⟩

/-- The commands on the host end. -/
def hostItems (c : Container) : List (Item NetCmd) :=
  [⟨.linkSetMaster (vethHost c.id) c.network.bridgeName, true⟩, ⟨.linkUp (vethHost c.id), true⟩]

def moveItem (c : Container) : Item NetCmd := ⟨.linkSetNetns vethContainer c.initPid, true⟩

/-- The commands after the move. -/
def insideItems (c : Container) : List (Item NetCmd) :=
  ⟨.nsAddrAdd c.initPid c.network.ipAddress vethContainer, true⟩ ::
    ⟨.nsLinkUp c.initPid vethContainer, true⟩ ::
    ⟨.nsRouteAdd c.initPid c.network.gateway, true⟩ ::
    ⟨.nsLinkUp c.initPid "lo".toList, false⟩ ::
    (forwardingRules (containerIpOf c.network.ipAddress) c.network.ports).map
      fun r => ⟨.appendRule r, true⟩

/-- The commands of a setup once the bridge is there. -/
def attachItems (c : Container) : List (Item NetCmd) :=
  addItem c :: (hostItems c ++ moveItem c :: insideItems c)

/-- The commands that make the bridge. -/
def createItems (b subnet gateway pfx : CStr) : List (Item NetCmd) :=
  [⟨.linkAddBridge b, true⟩, ⟨.addrAdd gateway pfx b, true⟩, ⟨.linkUp b, true⟩,
    ⟨.sysctlForward, true⟩, ⟨.appendRule (.masquerade subnet b), true⟩,
    ⟨.appendRule (.acceptBridge b), true⟩, ⟨.appendRule (.acceptReplies b), true⟩]

theorem appendRule_ne_none (r : Rule) (h : Host) : NetCmd.effect (.appendRule r) h ≠ none := by
  simp [NetCmd.effect]

/-- A result other than `CR_OK`. -/
def Failed (code : CrCode) : Prop := code ≠ .ok

/-- Appending a rule never fails, so neither does this. -/
theorem setupPortForwarding_follows (ip : CStr) (ports : List PortMapping) :
    Follows NetCmd.effect (fun _ => False) .ok (networkSetupPortForwarding ip ports)
      ((forwardingRules ip ports).map fun r => ⟨.appendRule r, true⟩) := by
  induction ports with
  | nil => exact .done
  | cons pm rest ih =>
      exact .must (.must ih (Or.inl (appendRule_ne_none _))) (Or.inl (appendRule_ne_none _))

theorem setupVeth_follows (c : Container) :
    Follows NetCmd.effect Failed .ok
      (networkSetupVeth c.id c.network.bridgeName c.network.ipAddress c.network.gateway c.initPid)
      ((vethCommands c.id c.network.bridgeName c.network.ipAddress c.network.gateway
        c.initPid).map (⟨·, true⟩) ++ [⟨.nsLinkUp c.initPid "lo".toList, false⟩]) := by
  rw [networkSetupVeth_eq]
  exact Script.follows_checkAll (by simp [Failed]) _ (.may fun _ => .done)

theorem networkAttach_follows (c : Container) :
    Follows NetCmd.effect Failed .ok (networkAttach c) (attachItems c) := by
  unfold networkAttach
  refine (setupVeth_follows c).bind (fun e he => ⟨.error, by simp [Failed], if_pos he⟩) ?_
  rw [if_neg (by simp)]
  by_cases hp : c.network.ports = []
  · rw [if_neg (by simpa using hp), hp]
    exact .done
  · rw [if_pos hp]
    have hrules : Follows NetCmd.effect Failed .ok
        (networkSetupPortForwarding (containerIpOf c.network.ipAddress) c.network.ports >>=
          fun _ => .ret CrCode.ok) (_ ++ []) :=
      (setupPortForwarding_follows (containerIpOf c.network.ipAddress) c.network.ports).bind
        (fun _ hfalse => absurd hfalse id) .done
    rwa [List.append_nil] at hrules

/-- The commands that make a container's bridge, if its subnet can be cut at a slash. -/
def creationItems (env : Entropy) (c : Container) : Option (List (Item NetCmd)) :=
  (strchr (strncpy c.network.subnet 64) '/').map fun cut =>
    createItems c.network.bridgeName c.network.subnet
      (inetNtop ((inetPton cut.1).getD env.bridgeStack + 1)) cut.2

/-- What `network_create_bridge` does when the bridge is missing. -/
theorem createBridge_follows (env : Entropy) (c : Container) :
    ∃ k, networkCreateBridge c.network.bridgeName c.network.subnet env.bridgeStack
        = .exec (.linkShow c.network.bridgeName) k ∧ k true = .ret .ok ∧
      match creationItems env c with
      | some l => Follows NetCmd.effect Failed .ok (k false) l
      | none => ∀ w : World Host, Failed (run NetCmd.effect (k false) w).1 := by
  have herror : ∃ e, Failed e ∧ (.ret CrCode.error : NetScript CrCode) = .ret e :=
    ⟨.error, by simp [Failed], rfl⟩
  unfold networkCreateBridge creationItems
  refine ⟨_, rfl, rfl, ?_⟩
  cases hcut : strchr (strncpy c.network.subnet 64) '/' with
  | none =>
      intro w
      show Failed (run NetCmd.effect (.exec _ fun ok => if ok then _ else _) w).1
      rw [Script.run_exec]
      split <;> simp [Failed]
  | some cut =>
      refine .must (.must (.must (.must ?_ (Or.inl ?_)) (Or.inr herror)) (Or.inr herror))
        (Or.inr herror)
      · exact .must (.must (.must .done (Or.inl (appendRule_ne_none _)))
          (Or.inl (appendRule_ne_none _))) (Or.inl (appendRule_ne_none _))
      · intro h
        simp [NetCmd.effect]

/-- The setup looks for the bridge first, makes it if it is missing, and goes on. -/
theorem setupContainer_start {env : Entropy} {c c' : Container}
    (hc' : withAddress env c = some c') :
    ∃ k, networkSetupContainer env c = .exec (.linkShow c.network.bridgeName) k ∧
      Follows NetCmd.effect (fun r => Failed r.1) (.ok, c') (k true) (attachItems c') ∧
      match creationItems env c with
      | some l => Follows NetCmd.effect (fun r => Failed r.1) (.ok, c') (k false)
          (l ++ attachItems c')
      | none => ∀ w : World Host, Failed (run NetCmd.effect (k false) w).1.1 := by
  have hattach : Follows NetCmd.effect (fun r : CrCode × Container => Failed r.1) (.ok, c')
      (networkAttach c' >>= fun code => .ret (code, c')) (attachItems c' ++ []) :=
    (networkAttach_follows c').bind (fun e he => ⟨(e, c'), he, rfl⟩) .done
  rw [List.append_nil] at hattach
  obtain ⟨k, hk, htrue, hfalse⟩ := createBridge_follows env c
  have hscript : networkSetupContainer env c =
      networkCreateBridge c.network.bridgeName c.network.subnet env.bridgeStack >>= fun code =>
        if code ≠ .ok then .ret (.error, c)
        else networkAttach c' >>= fun code => .ret (code, c') := by
    unfold networkSetupContainer
    rw [hc']
    rfl
  rw [hscript, hk]
  refine ⟨_, rfl, ?_, ?_⟩
  · show Follows _ _ _ ((k true) >>= _) _
    rw [htrue]
    exact hattach
  · cases hitems : creationItems env c with
    | none =>
        rw [hitems] at hfalse
        intro w
        show Failed (run NetCmd.effect (k false >>= fun code =>
          if code ≠ .ok then .ret (CrCode.error, c) else _) w).1.1
        have hne : (run NetCmd.effect (k false) w).1 ≠ .ok := hfalse w
        rw [Script.run_bind, if_pos hne]
        simp [Failed]
    | some l =>
        rw [hitems] at hfalse
        exact hfalse.bind (fun e he => ⟨(.error, c), by simp [Failed], if_pos he⟩) hattach

/-! ### The part of the host a call writes to -/

/-- A call's part of the host: its host end, and its container's namespace. -/
def InRegion (c : Container) (ns : NetNs) (x : Loc) : Prop := x = ⟨.host, vethHost c.id⟩ ∨ x.ns = ns

/-- The commands of a call that stay in its part, and on the rule lists. -/
inductive Own (c : Container) : NetCmd → Prop
  | master : Own c (.linkSetMaster (vethHost c.id) c.network.bridgeName)
  | up : Own c (.linkUp (vethHost c.id))
  | nsAddr (addr dev : CStr) : Own c (.nsAddrAdd c.initPid addr dev)
  | nsUp (dev : CStr) : Own c (.nsLinkUp c.initPid dev)
  | nsRoute (gateway : CStr) : Own c (.nsRouteAdd c.initPid gateway)
  | rule (r : Rule) : Own c (.appendRule r)

theorem hostItems_own (c : Container) : ∀ x ∈ hostItems c, Own c x.cmd := by
  intro x hx
  simp only [hostItems, List.mem_cons, List.not_mem_nil, or_false] at hx
  rcases hx with rfl | rfl
  · exact .master
  · exact .up

theorem insideItems_own (c : Container) : ∀ x ∈ insideItems c, Own c x.cmd := by
  intro x hx
  simp only [insideItems, List.mem_cons, List.mem_map] at hx
  rcases hx with rfl | rfl | rfl | rfl | ⟨r, -, rfl⟩
  · exact .nsAddr _ _
  · exact .nsUp _
  · exact .nsRoute _
  · exact .nsUp _
  · exact .rule r

section

variable {c : Container} {ns : NetNs} {h : Host}

theorem Own.writes {cmd : NetCmd} (hc : Own c cmd) (hns : h.nsOf c.initPid = some ns) {x : Loc}
    (hw : cmd.Writes h x) : InRegion c ns x := by
  cases hc <;> simp only [NetCmd.Writes, NetCmd.target, hns, Option.map_some, Option.some.injEq,
    or_false, reduceCtorEq, or_self] at hw
  case master => exact Or.inl hw.symm
  case up => exact Or.inl hw.symm
  case nsAddr => exact Or.inr (hw ▸ rfl)
  case nsUp => exact Or.inr (hw ▸ rfl)

/-- Two hosts that agree on a call's part. -/
structure AgreeOn (c : Container) (ns : NetNs) (s u : Host) : Prop where
  links : ∀ x, InRegion c ns x → s.links.lookup x = u.links.lookup x
  route : s.route ns = u.route ns
  nsOf : s.nsOf = u.nsOf
  lives : u.nsOf c.initPid = some ns

theorem Own.sameReads {cmd : NetCmd} (hc : Own c cmd) {s u : Host} (ha : AgreeOn c ns s u)
    (hb : s.links.kindAt ⟨.host, c.network.bridgeName⟩
      = u.links.kindAt ⟨.host, c.network.bridgeName⟩) : cmd.SameReads s u := by
  have hpid : s.nsOf c.initPid = u.nsOf c.initPid := by rw [ha.nsOf]
  have hhere : ∀ {dev : CStr} {n : NetNs}, u.nsOf c.initPid = some n →
      s.links.lookup ⟨n, dev⟩ = u.links.lookup ⟨n, dev⟩ := by
    intro dev n hn
    obtain rfl : ns = n := Option.some.inj (ha.lives.symm.trans hn)
    exact ha.links _ (Or.inr rfl)
  have hend : s.link (vethHost c.id) = u.link (vethHost c.id) := ha.links _ (Or.inl rfl)
  cases hc with
  | master => exact ⟨hend, hb⟩
  | up => exact hend
  | nsAddr addr dev => exact ⟨hpid, fun n hn => hhere hn⟩
  | nsUp dev => exact ⟨hpid, fun n hn => hhere hn⟩
  | nsRoute gateway =>
      refine ⟨hpid, fun n hn => ?_⟩
      obtain rfl : ns = n := Option.some.inj (ha.lives.symm.trans hn)
      exact ⟨ha.route, hhere hn⟩
  | rule r => exact trivial

theorem Own.route {cmd : NetCmd} (hc : Own c cmd) (hns : h.nsOf c.initPid = some ns) {n : NetNs}
    (hn : n ≠ ns) (pid : Int) (gateway : CStr) (heq : cmd = .nsRouteAdd pid gateway) :
    h.nsOf pid ≠ some n := by
  subst heq
  cases hc
  rw [hns]
  intro heq
  exact hn (Option.some.inj heq).symm

theorem Own.not_downs {cmd : NetCmd} (hc : Own c cmd) (x : Loc) : ¬cmd.Downs h x := by
  cases hc <;> exact id

/-- What a call leaves alone while its peer is not the host's `eth0`: everything outside its
part. -/
structure FrameOut (c : Container) (ns : NetNs) (s s' : Host) : Prop where
  links : ∀ x, ¬InRegion c ns x → x ≠ hostEth0 → s'.links.lookup x = s.links.lookup x
  route : ∀ n, n ≠ ns → s'.route n = s.route n
  ipForward : s'.ipForward = s.ipForward
  nsOf : s'.nsOf = s.nsOf

theorem FrameOut.refl (s : Host) : FrameOut c ns s s :=
  ⟨fun _ _ _ => rfl, fun _ _ => rfl, rfl, rfl⟩

theorem FrameOut.trans {s s' s'' : Host} (h₁ : FrameOut c ns s s') (h₂ : FrameOut c ns s' s'') :
    FrameOut c ns s s'' :=
  ⟨fun x hx hx' => (h₂.links x hx hx').trans (h₁.links x hx hx'),
    fun n hn => (h₂.route n hn).trans (h₁.route n hn), h₂.ipForward.trans h₁.ipForward,
    h₂.nsOf.trans h₁.nsOf⟩

theorem Own.frame {x : Item NetCmd} (hc : Own c x.cmd) {s s' : Host}
    (hns : s.nsOf c.initPid = some ns) (hx : x.exec NetCmd.effect s = some s') :
    FrameOut c ns s s' :=
  ⟨fun _ hy _ => exec_links_frame hx fun hw => hy (hc.writes hns hw),
    fun _ hn => exec_route_frame hx (hc.route hns hn) fun _ _ => hc.not_downs _,
    exec_ipForward_frame hx (by intro heq; rw [heq] at hc; cases hc), exec_nsOf hx⟩

theorem hostEth0_not_inRegion (hhost : ns ≠ .host) : ¬InRegion c ns hostEth0 := by
  rintro (heq | heq)
  · injection heq with _ heq
    exact vethHost_ne_vethContainer c.id heq.symm
  · exact hhost heq.symm

theorem Own.hostEth0 {x : Item NetCmd} (hc : Own c x.cmd) (hhost : ns ≠ .host) {s s' : Host}
    (hns : s.nsOf c.initPid = some ns) (hx : x.exec NetCmd.effect s = some s') :
    s'.links.lookup hostEth0 = s.links.lookup hostEth0 :=
  exec_links_frame hx fun hw => hostEth0_not_inRegion hhost (hc.writes hns hw)

/-- Agreement survives a command that both hosts run. -/
theorem AgreeOn.step {s u s' u' : Host} (ha : AgreeOn c ns s u) (hm : Mirrors s u s' u')
    (hs : s'.nsOf = s.nsOf) (hu : u'.nsOf = u.nsOf) : AgreeOn c ns s' u' :=
  ⟨fun x hx => hm.links x (ha.links x hx),
    hm.route ns ha.route fun _ _ => ha.links _ (Or.inr rfl), (hs.trans ha.nsOf).trans hu.symm,
    by rw [hu]; exact ha.lives⟩

/-- Agreement survives a change elsewhere on one of the hosts. -/
theorem AgreeOn.frame {s u s' : Host} (ha : AgreeOn c ns s u)
    (hlinks : ∀ x, InRegion c ns x → s'.links.lookup x = s.links.lookup x)
    (hroute : s'.route ns = s.route ns) (hs : s'.nsOf = s.nsOf) : AgreeOn c ns s' u :=
  ⟨fun x hx => (hlinks x hx).trans (ha.links x hx), hroute.trans ha.route, hs.trans ha.nsOf,
    ha.lives⟩

end

/-! ### How far a setup has come -/

/-- Before the pair, with the pair on the host and `m` still to do there, or with its peer
moved and `l` still to do. -/
inductive AttachStage where
  | before
  | window (m : List (Item NetCmd))
  | inside (l : List (Item NetCmd))

namespace AttachStage

/-- The commands a setup has still to run. -/
def items (c : Container) : AttachStage → List (Item NetCmd)
  | .before => attachItems c
  | .window m => m ++ moveItem c :: insideItems c
  | .inside l => l

/-- The peer of the call's pair is the host's `eth0`. -/
def inWindow : AttachStage → Bool
  | .window _ => true
  | _ => false

/-- What a call owns in a stage. -/
def Holds (c : Container) (s : Host) : AttachStage → Prop
  | .before => True
  | .window m => s.links.lookup hostEth0 = some ⟨.veth ⟨.host, vethHost c.id⟩, .fresh⟩ ∧
      ∀ x ∈ m, x ∈ hostItems c
  | .inside l => ∀ x ∈ l, x ∈ insideItems c

/-- The stage after the next command. -/
def next (c : Container) : AttachStage → AttachStage
  | .before => .window (hostItems c)
  | .window [] => .inside (insideItems c)
  | .window (_ :: m) => .window m
  | .inside [] => .inside []
  | .inside (_ :: l) => .inside l

theorem items_next {c : Container} {st : AttachStage} {x : Item NetCmd}
    {rest : List (Item NetCmd)} (h : st.items c = x :: rest) : (st.next c).items c = rest := by
  match st with
  | .before => exact (List.cons.inj h).2
  | .window [] => exact (List.cons.inj h).2
  | .window (_ :: _) => exact (List.cons.inj h).2
  | .inside [] => simp [items] at h
  | .inside (_ :: _) => exact (List.cons.inj h).2

section

variable {c : Container} {ns : NetNs} {st : AttachStage} {x : Item NetCmd}
  {rest : List (Item NetCmd)} {s s' : Host}

/-- The move of the peer: it leaves the host, and writes to the call's own part. -/
theorem move_frame (hhost : ns ≠ .host) (hns : s.nsOf c.initPid = some ns)
    (hmine : s.links.lookup hostEth0 = some ⟨.veth ⟨.host, vethHost c.id⟩, .fresh⟩)
    (hx : (moveItem c).exec NetCmd.effect s = some s') :
    FrameOut c ns s s' ∧ s'.links.lookup hostEth0 = none := by
  constructor
  · refine ⟨fun y hy hy' => exec_links_frame hx ?_, fun n hn => exec_route_frame hx ?_ ?_,
      exec_ipForward_frame hx (by simp [moveItem]), exec_nsOf hx⟩
    · rintro (hw | hw | ⟨n, hn, rfl⟩ | hw)
      · simp [moveItem, NetCmd.target] at hw
      · exact hy' hw
      · obtain rfl : ns = n := Option.some.inj (hns.symm.trans hn)
        exact hy (Or.inr rfl)
      · have heq : (⟨.host, vethHost c.id⟩ : Loc) = y := by
          have hkind := (LinkTable.kindAt_eq_some.mpr ⟨_, hmine, rfl⟩).symm.trans hw
          simpa using hkind
        exact hy (Or.inl heq.symm)
    · simp [moveItem]
    · -- a route goes through a link that is up, which the peer is not
      intro r hr heq
      obtain ⟨l, hl, hup⟩ := LinkTable.isUp_iff.mp (s.routed hr)
      rw [show (⟨n, r.dev⟩ : Loc) = hostEth0 from heq, hmine] at hl
      obtain rfl := Option.some.inj hl
      cases hup
  · have heff : NetCmd.effect (.linkSetNetns vethContainer c.initPid) s = some s' := hx
    simp only [NetCmd.effect, Host.enter, hns, Option.bind_some, if_neg hhost] at heff
    obtain ⟨t, ht, rfl⟩ := Option.map_eq_some_iff.mp heff
    obtain ⟨l, -, -, hall⟩ := LinkTable.move_eq_some ht
    have hne : hostEth0 ≠ ⟨ns, vethContainer⟩ := by
      intro heq
      injection heq with heq
      exact hhost heq.symm
    rw [Host.setLinks_links, hall, if_neg hne]
    exact if_pos rfl

/-- **One command of a setup**: the call owns what its next stage asks for and leaves the rest
of the host alone, and once its peer has moved the host has no `eth0`. -/
theorem step (hhost : ns ≠ .host) (hns : s.nsOf c.initPid = some ns) (hst : st.Holds c s)
    (hitems : st.items c = x :: rest) (hx : x.exec NetCmd.effect s = some s') :
    (st.next c).Holds c s' ∧ FrameOut c ns s s' ∧
      ((st.next c).inWindow = false →
        s'.links.lookup hostEth0 = if st.inWindow then none else s.links.lookup hostEth0) := by
  match st with
  | .before =>
      obtain ⟨rfl, -⟩ := List.cons.inj hitems
      obtain ⟨t, ht, rfl⟩ := Option.map_eq_some_iff.mp hx
      refine ⟨⟨?_, fun _ hz => hz⟩, ⟨fun y hy hy' => exec_links_frame hx ?_,
        fun n _ => exec_route_frame hx (by simp [addItem]) fun _ _ => id, rfl, rfl⟩,
        by simp [next, inWindow]⟩
      · rw [Host.setLinks_links, (LinkTable.addPair_eq_some ht).2.2.2]
        have hne : hostEth0 ≠ ⟨.host, vethHost c.id⟩ := by
          intro heq
          injection heq with _ heq
          exact vethHost_ne_vethContainer c.id heq.symm
        rw [if_neg hne]
        exact if_pos rfl
      · rintro (hw | hw | hw)
        · simp [addItem, NetCmd.target] at hw
        · exact hy (Or.inl hw)
        · exact hy' hw
  | .window [] =>
      obtain ⟨rfl, -⟩ := List.cons.inj hitems
      obtain ⟨hframe, hnone⟩ := move_frame hhost hns hst.1 hx
      exact ⟨fun _ hz => hz, hframe, fun _ => hnone⟩
  | .window (y :: m) =>
      obtain ⟨rfl, -⟩ := List.cons.inj hitems
      have hown := hostItems_own c y (hst.2 y (by simp))
      refine ⟨⟨?_, fun z hz => hst.2 z (by simp [hz])⟩, hown.frame hns hx, by simp [next, inWindow]⟩
      rw [hown.hostEth0 hhost hns hx]
      exact hst.1
  | .inside [] => simp [items] at hitems
  | .inside (y :: l) =>
      obtain ⟨rfl, -⟩ := List.cons.inj hitems
      have hown := insideItems_own c y (hst y (by simp))
      exact ⟨fun z hz => hst z (by simp [hz]), hown.frame hns hx,
        fun _ => hown.hostEth0 hhost hns hx⟩

/-- What the next command of a setup reads is the same in two hosts that agree on the call's
part and, unless its peer has moved, on the host's `eth0`. -/
theorem sameReads {u : Host} (hst : st.Holds c s) (ha : AgreeOn c ns s u)
    (hb : s.links.kindAt ⟨.host, c.network.bridgeName⟩
      = u.links.kindAt ⟨.host, c.network.bridgeName⟩)
    (heth : (∀ l, st ≠ .inside l) → s.links.lookup hostEth0 = u.links.lookup hostEth0)
    (hitems : st.items c = x :: rest) : x.cmd.SameReads s u := by
  match st with
  | .before =>
      obtain ⟨rfl, -⟩ := List.cons.inj hitems
      exact ⟨ha.links _ (Or.inl rfl), heth (by simp)⟩
  | .window [] =>
      obtain ⟨rfl, -⟩ := List.cons.inj hitems
      refine ⟨by rw [ha.nsOf], heth (by simp), fun n hn => ?_⟩
      obtain rfl : ns = n := Option.some.inj (ha.lives.symm.trans hn)
      exact ha.links _ (Or.inr rfl)
  | .window (y :: m) =>
      obtain ⟨rfl, -⟩ := List.cons.inj hitems
      exact (hostItems_own c y (hst.2 y (by simp))).sameReads ha hb
  | .inside [] => simp [items] at hitems
  | .inside (y :: l) =>
      obtain ⟨rfl, -⟩ := List.cons.inj hitems
      exact (insideItems_own c y (hst y (by simp))).sameReads ha hb

end

/-- **A whole setup on its own** writes to its part only, and leaves no `eth0` on the host. -/
theorem run_frame {c : Container} {ns : NetNs} (hhost : ns ≠ .host) (l : List (Item NetCmd)) :
    ∀ (st : AttachStage) {s s' : Host}, st.items c = l → s.nsOf c.initPid = some ns →
      st.Holds c s → (st.inWindow = false → s.links.lookup hostEth0 = none) →
      execAll NetCmd.effect l s = some s' →
      FrameOut c ns s s' ∧ s'.links.lookup hostEth0 = none := by
  induction l with
  | nil =>
      intro st s s' hitems hns hst heth hrun
      obtain rfl : s = s' := Option.some.inj hrun
      refine ⟨.refl s, heth ?_⟩
      match st with
      | .before => rfl
      | .window m => simp [items] at hitems
      | .inside l => rfl
  | cons x rest ih =>
      intro st s s' hitems hns hst heth hrun
      obtain ⟨t, hx, hrest⟩ := (Script.execAll_cons _).mp hrun
      obtain ⟨hnext, hframe, hnone⟩ := step hhost hns hst hitems hx
      obtain ⟨hframe', hend⟩ := ih _ (items_next hitems) (by rw [hframe.nsOf]; exact hns) hnext
        (fun hout => by
          rw [hnone hout]
          by_cases hin : st.inWindow = true
          · rw [if_pos hin]
          · rw [if_neg hin]
            exact heth (by simpa using hin)) hrest
      exact ⟨hframe.trans hframe', hend⟩

end AttachStage

/-- What a setup that succeeds found: its names were free, and its bridge is a bridge. -/
theorem attach_needs {c : Container} {s s' : Host}
    (h : execAll NetCmd.effect (attachItems c) s = some s') :
    s.links.lookup hostEth0 = none ∧
      (⟨.host, c.network.bridgeName⟩ : Loc) ≠ ⟨.host, vethHost c.id⟩ ∧
      (⟨.host, c.network.bridgeName⟩ : Loc) ≠ hostEth0 ∧
      s.links.kindAt ⟨.host, c.network.bridgeName⟩ = some .bridge := by
  obtain ⟨s₁, hadd, hrest⟩ := (Script.execAll_cons _).mp h
  obtain ⟨s₂, hmaster, -⟩ := (Script.execAll_cons _).mp hrest
  obtain ⟨t, ht, rfl⟩ := Option.map_eq_some_iff.mp hadd
  obtain ⟨-, -, hfree, -⟩ := LinkTable.addPair_eq_some ht
  obtain ⟨hkind, -⟩ := Option.ite_none_right_eq_some.mp hmaster
  rw [Host.setLinks_links, addPair_kindAt ht] at hkind
  split_ifs at hkind with hend heth
  · simp at hkind
  · simp at hkind
  · exact ⟨hfree, hend, heth, hkind⟩

theorem Own.keepsKinds {c : Container} {cmd : NetCmd} (hc : Own c cmd) : cmd.KeepsKinds := by
  cases hc <;> exact trivial

/-- The commands of a call's own part create and remove no link. -/
theorem own_kinds {c : Container} {l : List (Item NetCmd)} (hl : ∀ x ∈ l, Own c x.cmd) (y : Loc) :
    ∀ {s s' : Host}, execAll NetCmd.effect l s = some s' → s'.links.kindAt y = s.links.kindAt y := by
  induction l with
  | nil =>
      intro s s' h
      obtain rfl : s = s' := Option.some.inj h
      rfl
  | cons x rest ih =>
      intro s s' h
      obtain ⟨t, hx, hrest⟩ := (Script.execAll_cons _).mp h
      rw [ih (fun z hz => hl z (by simp [hz])) hrest]
      rcases exec_cases hx with hs | ⟨-, rfl⟩
      · exact effect_keepsKinds hs (hl x (by simp)).keepsKinds y
      · rfl

/-- A setup that succeeds puts an `eth0` where there was none: its container's process runs in
a namespace, and in a namespace other than the host's the name was free. -/
theorem attach_enters {c : Container} {s s' : Host}
    (h : execAll NetCmd.effect (attachItems c) s = some s') :
    ∃ ns, s.nsOf c.initPid = some ns ∧ (ns ≠ .host →
      s.links.kindAt ⟨ns, vethContainer⟩ = none ∧ s'.links.kindAt ⟨ns, vethContainer⟩ ≠ none) := by
  obtain ⟨s₁, hadd, hrest⟩ := (Script.execAll_cons _).mp h
  obtain ⟨s₂, hhost, hrest⟩ := (Script.execAll_append _).mp hrest
  obtain ⟨s₃, hmove, hinside⟩ := (Script.execAll_cons _).mp hrest
  have hmove' : NetCmd.effect (.linkSetNetns vethContainer c.initPid) s₂ = some s₃ := hmove
  obtain ⟨ns, hns, hgo⟩ := Option.bind_eq_some_iff.mp hmove'
  have hsame : s₂.nsOf = s.nsOf := by
    obtain ⟨s₂', hmaster, hlast⟩ := (Script.execAll_cons _).mp hhost
    obtain ⟨s₂'', hup, hnil⟩ := (Script.execAll_cons _).mp hlast
    obtain rfl : s₂'' = s₂ := Option.some.inj hnil
    rw [exec_nsOf hup, exec_nsOf hmaster, exec_nsOf hadd]
  refine ⟨ns, by rw [← hsame]; exact hns, fun hne => ?_⟩
  rw [if_neg hne] at hgo
  obtain ⟨t, ht, rfl⟩ := Option.map_eq_some_iff.mp hgo
  obtain ⟨t₁, ht₁, rfl⟩ := Option.map_eq_some_iff.mp hadd
  obtain ⟨lk, -, hfree, hall⟩ := LinkTable.move_eq_some ht
  have hhere : ∀ name, (⟨ns, vethContainer⟩ : Loc) ≠ ⟨.host, name⟩ := by
    intro name heq
    injection heq with heq
    exact hne heq
  constructor
  · have hkind := LinkTable.kindAt_none.mpr hfree
    rw [own_kinds (hostItems_own c) _ hhost, Host.setLinks_links, addPair_kindAt ht₁,
      if_neg (hhere _), if_neg (hhere _)] at hkind
    exact hkind
  · rw [own_kinds (insideItems_own c) _ hinside, Host.setLinks_links, ne_eq, LinkTable.kindAt_none,
      hall, if_pos rfl]
    simp

end Cruntime
