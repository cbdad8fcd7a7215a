/-
What one setup leaves on the host, and what one cleanup takes away again.

A setup leaves the host as it was up to the bridge, or it leaves a veth pair on it (`PairOn`): one
end under the container's name, the other called `eth0`, on the host or inside the container,
and behind the rules that were there some of those of the mappings.  This is so wherever the setup
stops.  A cleanup that nothing refuses deletes the link of the container's name, with it the
other end, the default route that went through it, and one copy of every rule of the mappings.
-/
import Cruntime.Net.Cleanup
import Cruntime.Net.Local

namespace Cruntime

open Script (run)

/-! ### A pair on the host -/

/-- The loopback link of the namespace that a process runs in. -/
def IsLoopback (h : Host) (pid : Int) (x : Loc) : Prop :=
  ∃ ns, h.nsOf pid = some ns ∧ x = ⟨ns, "lo".toList⟩

/-- The host `h'` is `h` with a veth pair, whose ends are the host's `vh` and `p`, and perhaps
with a default route through `p`. -/
structure PairOn (vh : CStr) (pid : Int) (p : Loc) (h h' : Host) : Prop where
  kind : h'.links.kindAt ⟨.host, vh⟩ = some (.veth p)
  peerName : p.name = vethContainer
  hostFree : h.link vh = none
  peerFree : h.links.lookup p = none
  others : ∀ x, x ≠ ⟨.host, vh⟩ → x ≠ p → ¬IsLoopback h pid x →
    h'.links.lookup x = h.links.lookup x
  kinds : ∀ x k, h.links.kindAt x = some k → h'.links.kindAt x = some k
  nsOf : h'.nsOf = h.nsOf
  route : ∀ ns, h'.route ns = h.route ns ∨
    h.route ns = none ∧ p.ns = ns ∧ ∃ gateway, h'.route ns = some ⟨gateway, p.name⟩

variable {vh : CStr} {pid : Int} {p : Loc} {h h₁ h₂ : Host}

theorem pairOn_add (hs : NetCmd.effect (.linkAddVeth vh vethContainer) h = some h₁) :
    PairOn vh pid ⟨.host, vethContainer⟩ h h₁ := by
  have hroute : ∀ ns, h₁.route ns = h.route ns :=
    fun ns => effect_route hs (by simp) fun _ _ => id
  obtain ⟨t, ht, rfl⟩ := Option.map_eq_some_iff.mp hs
  obtain ⟨-, hhost, hpeer, hall⟩ := LinkTable.addPair_eq_some ht
  refine ⟨?_, rfl, hhost, hpeer, ?_, ?_, rfl, fun ns => Or.inl (hroute ns)⟩
  · exact LinkTable.kindAt_eq_some.mpr ⟨_, by rw [Host.setLinks_links, hall, if_pos rfl], rfl⟩
  · intro x hx hxp _
    rw [Host.setLinks_links, hall, if_neg hx, if_neg hxp]
  · intro x k hk
    obtain ⟨l, hl, rfl⟩ := LinkTable.kindAt_eq_some.mp hk
    exact LinkTable.kindAt_eq_some.mpr ⟨l, (addPair_keeps ht (by simp [hl])).trans hl, rfl⟩

/-- A change to one of the ends, or to the loopback link, that takes none of them down. -/
theorem PairOn.setDev (hpair : PairOn vh pid p h h₁) {a : Loc} {f : Dev → Dev} {t : LinkTable}
    (ha : a = ⟨.host, vh⟩ ∨ a = p ∨ IsLoopback h pid a)
    (ht : h₁.links.setDev a f = some t) (hf : ∀ d : Dev, d.up = true → (f d).up = true) :
    PairOn vh pid p h (h₁.setLinks t) := by
  refine { hpair with kind := ?_, others := ?_, kinds := ?_, route := ?_ }
  · rw [Host.setLinks_links, LinkTable.setDev_kindAt ht]
    exact hpair.kind
  · intro x hx hxp hlo
    have hxa : x ≠ a := by
      rintro rfl
      obtain ha | ha | ha := ha
      · exact hx ha
      · exact hxp ha
      · exact hlo ha
    rw [Host.setLinks_links, setDev_keeps ht hxa]
    exact hpair.others x hx hxp hlo
  · intro x k hk
    rw [Host.setLinks_links, LinkTable.setDev_kindAt ht]
    exact hpair.kinds x k hk
  · rw [Host.setLinks_route_of_up fun x => LinkTable.setDev_keeps_up ht hf]
    exact hpair.route

/-- The container end goes to the container. -/
theorem PairOn.move (hpair : PairOn vh pid ⟨.host, vethContainer⟩ h h₁)
    (hvh : vh ≠ vethContainer) (hroute : h₁.route = h.route)
    (hs : NetCmd.effect (.linkSetNetns vethContainer pid) h₁ = some h₂) :
    ∃ ns, h.nsOf pid = some ns ∧ PairOn vh pid ⟨ns, vethContainer⟩ h h₂ := by
  -- no route goes through the peer, as it was not there
  have hkept : ∀ n, h₂.route n = h.route n := by
    intro n
    rw [← hroute]
    refine effect_route hs (by simp) fun r hr heq => ?_
    rw [hroute] at hr
    obtain ⟨l, hl, -⟩ := LinkTable.isUp_iff.mp (h.routed hr)
    rw [show (⟨n, r.dev⟩ : Loc) = _ from heq, hpair.peerFree] at hl
    cases hl
  obtain ⟨ns, hns, hgo⟩ := Option.bind_eq_some_iff.mp hs
  have hin : h.nsOf pid = some ns := by rw [← hpair.nsOf]; exact hns
  refine ⟨ns, hin, ?_⟩
  by_cases hhost : ns = .host
  · subst hhost
    rw [if_pos rfl] at hgo
    obtain ⟨-, hstay⟩ := Option.ite_none_right_eq_some.mp hgo
    rw [← Option.some.inj hstay]
    exact hpair
  · rw [if_neg hhost] at hgo
    obtain ⟨t, ht, rfl⟩ := Option.map_eq_some_iff.mp hgo
    obtain ⟨la, hla, hfree, hall⟩ := LinkTable.move_eq_some ht
    have hkind : la.kind = .veth ⟨.host, vh⟩ := by
      have hback := (LinkTable.kindAt_peer hpair.kind).2
      obtain ⟨l, hl, hk⟩ := LinkTable.kindAt_eq_some.mp hback
      rw [hla] at hl
      rw [Option.some.inj hl, hk]
    have hinside : ∀ name, (⟨.host, name⟩ : Loc) ≠ ⟨ns, vethContainer⟩ := by
      intro name heq
      exact hhost (Loc.mk.inj heq).1.symm
    have hends : (⟨.host, vh⟩ : Loc) ≠ ⟨.host, vethContainer⟩ := by
      intro heq
      exact hvh (Loc.mk.inj heq).2
    refine ⟨?_, rfl, hpair.hostFree, ?_, ?_, ?_, hpair.nsOf, fun n => Or.inl (hkept n)⟩
    · obtain ⟨l, hl, -⟩ := LinkTable.kindAt_eq_some.mp hpair.kind
      refine LinkTable.kindAt_eq_some.mpr ⟨⟨.veth ⟨ns, vethContainer⟩, l.dev⟩, ?_, rfl⟩
      rw [Host.setLinks_links, hall, if_neg (hinside vh), if_neg hends, if_pos hkind, hl]
      rfl
    · rw [← hpair.others _ (hinside vh).symm (hinside vethContainer).symm]
      · exact hfree
      · rintro ⟨ns', -, heq⟩
        exact absurd (Loc.mk.inj heq).2 (by decide)
    · intro x hx hxp hlo
      rw [Host.setLinks_links, hall, if_neg hxp]
      by_cases hxa : x = ⟨.host, vethContainer⟩
      · rw [if_pos hxa, hxa, hpair.peerFree]
      · rw [if_neg hxa, if_neg]
        · exact hpair.others x hx hxa hlo
        · intro hk
          rw [hkind] at hk
          exact hx (LinkKind.veth.inj hk).symm
    · intro x k hk
      obtain ⟨l, hl, -⟩ := LinkTable.kindAt_eq_some.mp hk
      have hx₁ := hpair.kinds x k hk
      have hxa : x ≠ ⟨.host, vethContainer⟩ := by
        rintro rfl
        rw [hpair.peerFree] at hl
        cases hl
      have hxb : x ≠ ⟨ns, vethContainer⟩ := by
        rintro rfl
        rw [LinkTable.kindAt_none.mpr hfree] at hx₁
        cases hx₁
      have hpeer : la.kind ≠ .veth x := by
        rw [hkind]
        rintro heq
        obtain rfl := LinkKind.veth.inj heq
        rw [show h.links.lookup ⟨.host, vh⟩ = none from hpair.hostFree] at hl
        cases hl
      obtain ⟨l₁, hl₁, hk₁⟩ := LinkTable.kindAt_eq_some.mp hx₁
      refine LinkTable.kindAt_eq_some.mpr ⟨l₁, ?_, hk₁⟩
      rw [Host.setLinks_links, hall, if_neg hxb, if_neg hxa, if_neg hpeer, hl₁]

/-- The commands that are run inside the container. -/
inductive InsideCmd (pid : Int) : NetCmd → Prop
  | addrAdd (addr : CStr) : InsideCmd pid (.nsAddrAdd pid addr vethContainer)
  | linkUp : InsideCmd pid (.nsLinkUp pid vethContainer)
  | loopbackUp : InsideCmd pid (.nsLinkUp pid "lo".toList)
  | routeAdd (gateway : CStr) : InsideCmd pid (.nsRouteAdd pid gateway)

theorem PairOn.inside {ns : NetNs} (hns : h.nsOf pid = some ns) {c : NetCmd}
    (hc : InsideCmd pid c) (hs : c.effect h₁ = some h₂)
    (hpair : PairOn vh pid ⟨ns, vethContainer⟩ h h₁) :
    PairOn vh pid ⟨ns, vethContainer⟩ h h₂ := by
  have hns₁ : h₁.nsOf pid = some ns := by rw [hpair.nsOf]; exact hns
  cases hc with
  | addrAdd addr =>
      obtain ⟨ns', hns', hadd⟩ := Option.bind_eq_some_iff.mp hs
      obtain rfl := Option.some.inj (hns₁.symm.trans hns')
      obtain ⟨-, -, t, -, -, -, ht, rfl⟩ := Host.addAddr_eq_some hadd
      exact hpair.setDev (Or.inr (Or.inl rfl)) ht fun d hd => (d.withAddr_up addr).trans hd
  | linkUp =>
      obtain ⟨ns', hns', hset⟩ := Option.bind_eq_some_iff.mp hs
      obtain rfl := Option.some.inj (hns₁.symm.trans hns')
      obtain ⟨t, ht, rfl⟩ := Option.map_eq_some_iff.mp hset
      exact hpair.setDev (Or.inr (Or.inl rfl)) ht fun _ _ => rfl
  | loopbackUp =>
      obtain ⟨ns', hns', hset⟩ := Option.bind_eq_some_iff.mp hs
      obtain rfl := Option.some.inj (hns₁.symm.trans hns')
      obtain ⟨t, ht, rfl⟩ := Option.map_eq_some_iff.mp hset
      exact hpair.setDev (Or.inr (Or.inr ⟨ns, hns, rfl⟩)) ht fun _ _ => rfl
  | routeAdd gateway =>
      obtain ⟨ns', hns', hset⟩ := Option.bind_eq_some_iff.mp hs
      obtain rfl := Option.some.inj (hns₁.symm.trans hns')
      obtain ⟨hnone, -, hup, rfl⟩ := Host.addRoute_eq_some hset
      refine { hpair with route := fun ns' => ?_ }
      by_cases hsame : ns' = ns
      · subst hsame
        refine Or.inr ⟨?_, rfl, gateway, Function.update_self _ _ _⟩
        obtain hroute | ⟨hroute, -⟩ := hpair.route ns'
        · rw [← hroute, hnone]
        · exact hroute
      · rw [Host.setRoute_route, Function.update_of_ne hsame]
        exact hpair.route ns'

/-- Rules are not links. -/
theorem PairOn.setRules (hpair : PairOn vh pid p h h₁) (ch : Chain) (rules : List Rule) :
    PairOn vh pid p h (h₁.setRules ch rules) :=
  { hpair with }

/-! ### One setup -/

/-- **A veth setup leaves nothing or a pair**, wherever it stops. -/
theorem setupVeth_leaves (id b ip gateway : CStr) (pid : Int) (w : World Host) :
    (run NetCmd.effect (networkSetupVeth id b ip gateway pid) w).1 ≠ .ok ∧
        (run NetCmd.effect (networkSetupVeth id b ip gateway pid) w).2.state = w.state ∨
      ∃ p, PairOn (vethHost id) pid p w.state
        (run NetCmd.effect (networkSetupVeth id b ip gateway pid) w).2.state := by
  refine Script.wp_run NetCmd.effect (Q := fun code h' => code ≠ CrCode.ok ∧ h' = w.state ∨
    ∃ p, PairOn (vethHost id) pid p w.state h') w ?_
  have hvh := vethHost_ne_vethContainer id
  rw [networkSetupVeth_eq]
  refine ⟨fun h₁ hs₁ => ?_, Or.inl ⟨by decide, rfl⟩⟩
  have hpair₁ : PairOn (vethHost id) pid ⟨.host, vethContainer⟩ w.state h₁ := pairOn_add hs₁
  refine ⟨fun h₂ hs₂ => ?_, Or.inr ⟨_, hpair₁⟩⟩
  obtain ⟨t₂, ht₂, rfl⟩ := Option.map_eq_some_iff.mp (Option.ite_none_right_eq_some.mp hs₂).2
  have hpair₂ := hpair₁.setDev (Or.inl rfl) ht₂ fun _ hd => hd
  refine ⟨fun h₃ hs₃ => ?_, Or.inr ⟨_, hpair₂⟩⟩
  obtain ⟨t₃, ht₃, rfl⟩ := Option.map_eq_some_iff.mp hs₃
  have hpair₃ := hpair₂.setDev (Or.inl rfl) ht₃ fun _ _ => rfl
  refine ⟨fun h₄ hs₄ => ?_, Or.inr ⟨_, hpair₃⟩⟩
  have hroute₃ : ((h₁.setLinks t₂).setLinks t₃).route = w.state.route := by
    rw [Host.setLinks_route_of_up fun x => LinkTable.setDev_keeps_up ht₃ fun _ _ => rfl,
      Host.setLinks_route_of_up fun x => LinkTable.setDev_keeps_up ht₂ fun _ hd => hd]
    exact funext fun n => effect_route hs₁ (by simp) fun _ _ hdown => hdown
  obtain ⟨ns, hns, hpair₄⟩ := hpair₃.move hvh hroute₃ hs₄
  -- what follows is run inside the container
  show Script.wp NetCmd.effect (Script.checkAll [.nsAddrAdd pid ip vethContainer,
    .nsLinkUp pid vethContainer, .nsRouteAdd pid gateway] .error (vethTail pid)) _ h₄
  have huses : (Script.checkAll [.nsAddrAdd pid ip vethContainer, .nsLinkUp pid vethContainer,
      .nsRouteAdd pid gateway] CrCode.error (vethTail pid)).Uses (InsideCmd pid) := by
    refine Script.uses_checkAll ?_ ⟨.loopbackUp, fun _ => trivial⟩
    intro c hc
    simp only [List.mem_cons, List.not_mem_nil, or_false] at hc
    obtain rfl | rfl | rfl := hc
    · exact .addrAdd ip
    · exact .linkUp
    · exact .routeAdd gateway
  refine Script.wp_mono NetCmd.effect (fun _ h' hpair => Or.inr ⟨_, hpair⟩) h₄
    (Script.wp_of_uses NetCmd.effect ?_ huses h₄ hpair₄)
  intro c hc h₁ h₂ hs hpair
  exact hpair.inside hns hc hs

/-- The veth setup leaves the rules alone. -/
theorem setupVeth_rules (id b ip gateway : CStr) (pid : Int) (w : World Host) :
    (run NetCmd.effect (networkSetupVeth id b ip gateway pid) w).2.state.rules =
      w.state.rules := by
  have huses : (networkSetupVeth id b ip gateway pid).Uses
      (fun c => c.appended = [] ∧ ∀ r, c ≠ .deleteRule r) := by
    rw [networkSetupVeth_eq]
    refine Script.uses_checkAll ?_ ⟨⟨rfl, by simp⟩, fun _ => trivial⟩
    intro c hc
    simp only [vethCommands, List.mem_cons, List.not_mem_nil, or_false] at hc
    obtain rfl | rfl | rfl | rfl | rfl | rfl | rfl := hc
    all_goals exact ⟨rfl, by simp⟩
  refine Script.run_keeps NetCmd.effect (I := fun h' => h'.rules = w.state.rules) ?_ huses w rfl
  rintro c ⟨hnone, hdelete⟩ h₁ h₂ hs hI
  funext ch
  rw [effect_rules hs hdelete, hnone, hI]
  exact List.append_nil _

/-- The rules of a container's mappings. -/
def Container.forwarding (c : Container) : List Rule :=
  forwardingRules (containerIpOf c.network.ipAddress) c.network.ports

/-- After the bridge and the address, too, nothing or a pair is left, and some of the rules of the
mappings with the pair. -/
theorem networkAttach_leaves (c : Container) (w : World Host) :
    (run NetCmd.effect (networkAttach c) w).2.state = w.state ∨
      (∃ p, PairOn (vethHost c.id) c.initPid p w.state
        (run NetCmd.effect (networkAttach c) w).2.state) ∧
      ∀ ch, ∃ added, added.Sublist (onChain ch c.forwarding) ∧
        (run NetCmd.effect (networkAttach c) w).2.state.rules ch = w.state.rules ch ++ added := by
  have hveth := setupVeth_leaves c.id c.network.bridgeName c.network.ipAddress c.network.gateway
    c.initPid w
  have hrules := setupVeth_rules c.id c.network.bridgeName c.network.ipAddress c.network.gateway
    c.initPid w
  set v := run NetCmd.effect (networkSetupVeth c.id c.network.bridgeName c.network.ipAddress
    c.network.gateway c.initPid) w with hv
  have hnone : ∀ ch, ∃ added, added.Sublist (onChain ch c.forwarding) ∧
      v.2.state.rules ch = w.state.rules ch ++ added :=
    fun ch => ⟨[], List.nil_sublist _, by rw [hrules, List.append_nil]⟩
  by_cases hok : v.1 = .ok
  · obtain ⟨hbad, -⟩ | ⟨p, hpair⟩ := hveth
    · exact absurd hok hbad
    · refine Or.inr ?_
      unfold networkAttach
      rw [Script.run_bind, ← hv, hok, if_neg (by simp)]
      split
      · rw [Script.run_bind]
        refine ⟨⟨p, ?_⟩, fun ch => ⟨onChain ch (addedRules
          (containerIpOf c.network.ipAddress) c.network.ports v.2.faults), ?_, ?_⟩⟩
        · refine Script.run_keeps NetCmd.effect (I := PairOn (vethHost c.id) c.initPid p w.state)
            ?_ (setupPortForwarding_uses _ _) v.2 hpair
          rintro _ ⟨r, rfl⟩ h₁ h₂ hs hI
          obtain rfl := Option.some.inj hs
          exact hI.setRules _ _
        · exact (addedRules_sublist _ _ _).filter _
        · rw [← hrules]
          exact setupPortForwarding_rules _ _ ch v.2
      · exact ⟨⟨p, hpair⟩, hnone⟩
  · rw [networkAttach_error hok, ← hv]
    obtain ⟨-, hsame⟩ | hpair := hveth
    · exact Or.inl hsame
    · exact Or.inr ⟨hpair, hnone⟩

/-- What a setup leaves of the host, `c` being the container as it leaves it. -/
inductive SetupLeaves (c : Container) (h h' : Host) : Prop
  | nothing (hsame : SameApartFromBridge c.network.bridgeName c.network.subnet h h')
      (hkept : ∀ name l, h.link name = some l → h'.link name = some l)
  | pair {v : Host} {p : Loc} (haddress : c.network.ipAddress ≠ [])
      (hbridge : SameApartFromBridge c.network.bridgeName c.network.subnet h v)
      (hkept : ∀ name l, h.link name = some l → v.link name = some l)
      (hpair : PairOn (vethHost c.id) c.initPid p v h')
      (hrules : ∀ ch, ∃ added, added.Sublist (onChain ch c.forwarding) ∧
        h'.rules ch = v.rules ch ++ added)

/-- What a setup keeps of the container's record. -/
structure SameSettings (c c' : Container) : Prop where
  id : c'.id = c.id
  bridgeName : c'.network.bridgeName = c.network.bridgeName
  subnet : c'.network.subnet = c.network.subnet
  initPid : c'.initPid = c.initPid
  ports : c'.network.ports = c.network.ports
  ipAddress : c.network.ipAddress ≠ [] → c'.network.ipAddress = c.network.ipAddress

theorem SameSettings.refl (c : Container) : SameSettings c c :=
  ⟨rfl, rfl, rfl, rfl, rfl, fun _ => rfl⟩

theorem SameSettings.trans {c c' c'' : Container} (h : SameSettings c c')
    (h' : SameSettings c' c'') : SameSettings c c'' where
  id := h'.id.trans h.id
  bridgeName := h'.bridgeName.trans h.bridgeName
  subnet := h'.subnet.trans h.subnet
  initPid := h'.initPid.trans h.initPid
  ports := h'.ports.trans h.ports
  ipAddress := by
    intro hne
    have hfirst := h.ipAddress hne
    rw [h'.ipAddress (by rw [hfirst]; exact hne), hfirst]

theorem networkAllocateIp_ne_nil {subnet ip : CStr} {len : Nat} {stack : Addr} {rand : Nat}
    (h : networkAllocateIp subnet len stack rand = some ip) : ip ≠ [] := by
  unfold networkAllocateIp at h
  split at h
  · cases h
  · obtain rfl := Option.some.inj h
    intro hnil
    exact inetNtop_ne_nil _ (List.append_eq_nil_iff.mp (List.append_eq_nil_iff.mp hnil).1).1

theorem withAddress_settings {env : Entropy} {c c' : Container} (h : withAddress env c = some c') :
    SameSettings c c' ∧ c'.network.ipAddress ≠ [] := by
  obtain ⟨ip, hip, rfl⟩ := Option.map_eq_some_iff.mp h
  by_cases hgiven : c.network.ipAddress = []
  · rw [if_pos hgiven] at hip
    exact ⟨⟨rfl, rfl, rfl, rfl, rfl, fun hne => absurd hgiven hne⟩, networkAllocateIp_ne_nil hip⟩
  · rw [if_neg hgiven] at hip
    obtain rfl := Option.some.inj hip
    exact ⟨⟨rfl, rfl, rfl, rfl, rfl, fun _ => rfl⟩, hgiven⟩

/-- **A setup leaves nothing but the bridge and its rules, or a pair on top of that**, wherever it
fails. -/
theorem setup_leaves (env : Entropy) (c : Container) (w : World Host) :
    SameSettings c (run NetCmd.effect (networkSetupContainer env c) w).1.2 ∧
      SetupLeaves (run NetCmd.effect (networkSetupContainer env c) w).1.2 w.state
        (run NetCmd.effect (networkSetupContainer env c) w).2.state := by
  have hbridge := createBridge_same c.network.bridgeName c.network.subnet env.bridgeStack w
  have hkept : ∀ name l, w.state.link name = some l → (run NetCmd.effect (networkCreateBridge
      c.network.bridgeName c.network.subnet env.bridgeStack) w).2.state.link name = some l :=
    fun _ _ hl => createBridge_keeps _ _ _ hl
  by_cases hb : (run NetCmd.effect
      (networkCreateBridge c.network.bridgeName c.network.subnet env.bridgeStack) w).1 = .ok
  · cases hc' : withAddress env c with
    | none =>
        rw [setupContainer_stop (Or.inr hc')]
        exact ⟨.refl c, .nothing hbridge hkept⟩
    | some c' =>
        obtain ⟨hsettings, haddress⟩ := withAddress_settings hc'
        rw [setupContainer_attach hb hc']
        refine ⟨hsettings, ?_⟩
        dsimp only
        rw [← hsettings.bridgeName, ← hsettings.subnet] at hbridge hkept ⊢
        obtain hsame | ⟨⟨p, hpair⟩, hrules⟩ := networkAttach_leaves c' (run NetCmd.effect
          (networkCreateBridge c'.network.bridgeName c'.network.subnet env.bridgeStack) w).2
        · rw [hsame]
          exact .nothing hbridge hkept
        · exact .pair haddress hbridge hkept hpair hrules
  · rw [setupContainer_stop (Or.inl hb)]
    exact ⟨.refl c, .nothing hbridge hkept⟩

/-! ### One cleanup -/

/-- Deleting a veth link deletes its peer, and deleting nothing deletes nothing. -/
theorem lookup_deleted {t : LinkTable} {a : Loc}
    (ha : t.lookup a = none ∨ ∃ p, t.kindAt a = some (.veth p)) (x : Loc) :
    ((t.delete a).getD t).lookup x =
      if x = a ∨ t.kindAt x = some (.veth a) then none else t.lookup x := by
  obtain hnone | ⟨p, hkind⟩ := ha
  · rw [LinkTable.delete_eq_none.mpr hnone, Option.getD_none]
    split_ifs with hx
    · obtain rfl | hx := hx
      · exact hnone
      · exact absurd hnone (LinkTable.lookup_ne_none (LinkTable.kindAt_peer hx).2)
    · rfl
  · have hdelete : t.delete a = some (t.erase a) := by
      unfold LinkTable.delete
      rw [hkind]
    have hpeer : t.peerOf a = some x ↔ t.kindAt x = some (.veth a) := by
      rw [LinkTable.peerOf_eq_some]
      exact ⟨fun hx => (LinkTable.kindAt_peer hx).2, fun hx => (LinkTable.kindAt_peer hx).2⟩
    rw [hdelete, Option.getD_some, LinkTable.erase_lookup]
    simp only [hpeer]

/-- What a cleanup does to the host when nothing is refused. -/
structure CleanupTakes (c : Container) (h h' : Host) : Prop where
  links : h'.links = (h.links.delete ⟨.host, vethHost c.id⟩).getD h.links
  rules : ∀ ch, h'.rules ch = (h.rules ch).diff (onChain ch c.forwarding)
  nsOf : h'.nsOf = h.nsOf
  route : ∀ ns, h'.route ns = (h.route ns).filter fun r => h'.links.isUp ⟨ns, r.dev⟩

theorem removePortForwarding_same (ip : CStr) (ports : List PortMapping) (w : World Host) :
    (run NetCmd.effect (networkRemovePortForwarding ip ports) w).2.state.links = w.state.links ∧
      (run NetCmd.effect (networkRemovePortForwarding ip ports) w).2.state.nsOf = w.state.nsOf ∧
      (run NetCmd.effect (networkRemovePortForwarding ip ports) w).2.state.route =
        w.state.route := by
  refine Script.run_keeps NetCmd.effect (I := fun h => h.links = w.state.links ∧
    h.nsOf = w.state.nsOf ∧ h.route = w.state.route) ?_ (removePortForwarding_uses ip ports) w
    ⟨rfl, rfl, rfl⟩
  rintro _ ⟨r, rfl⟩ h₁ h₂ hs hI
  obtain ⟨-, hset⟩ := Option.ite_none_right_eq_some.mp hs
  obtain rfl := Option.some.inj hset
  exact hI

theorem attempt_linkDelete (dev : CStr) (h : Host) :
    (Script.attempt NetCmd.effect false (.linkDelete dev) h).2 =
      h.setLinks ((h.links.delete ⟨.host, dev⟩).getD h.links) := by
  cases hdelete : h.links.delete ⟨.host, dev⟩ with
  | none =>
      rw [Script.attempt_none NetCmd.effect (by simp [NetCmd.effect, hdelete])]
      exact h.setLinks_self.symm
  | some t =>
      rw [@Script.attempt_some _ _ NetCmd.effect (.linkDelete dev) h (h.setLinks t)
        (by simp [NetCmd.effect, hdelete])]
      rfl

theorem cleanup_calm (c : Container) (h : Host) :
    CleanupTakes c h (run NetCmd.effect (networkCleanupContainer c) (.calm h)).2.state := by
  have hlast : ∀ h₁ : Host, (run NetCmd.effect
      (.exec (.linkDelete (vethHost c.id)) fun _ => .ret CrCode.ok) (.calm h₁)).2.state =
        h₁.setLinks ((h₁.links.delete ⟨.host, vethHost c.id⟩).getD h₁.links) := by
    intro h₁
    rw [Script.run_exec_calm, attempt_linkDelete]
    rfl
  unfold networkCleanupContainer
  by_cases hports : c.network.ports = []
  · have hnone : c.forwarding = [] := by
      unfold Container.forwarding forwardingRules
      rw [hports]
      rfl
    simp only [hports, ne_eq, not_true_eq_false, if_false]
    rw [Script.issue_bind, show (run NetCmd.effect (.exec (.linkDelete (vethHost c.id)) fun _ =>
      pure CrCode.ok) (.calm h)).2.state = _ from hlast h]
    refine ⟨rfl, fun ch => ?_, rfl, fun _ => rfl⟩
    rw [hnone]
    rfl
  · simp only [ne_eq, hports, not_false_eq_true, if_true, Script.run_bind]
    obtain ⟨hlinks, hnsOf, hroute⟩ := removePortForwarding_same
      (containerIpOf c.network.ipAddress) c.network.ports (.calm h)
    have hrules := fun ch => removePortForwarding_rules (containerIpOf c.network.ipAddress)
      c.network.ports ch h
    rw [Script.run_calm]
    set h₁ := (run NetCmd.effect (networkRemovePortForwarding (containerIpOf c.network.ipAddress)
      c.network.ports) (.calm h)).2.state
    rw [show (run NetCmd.effect (pure CrCode.ok) (run NetCmd.effect
      (Script.issue (.linkDelete (vethHost c.id))) (.calm h₁)).2).2.state = _ from hlast h₁]
    refine ⟨?_, hrules, hnsOf, fun ns => ?_⟩
    · rw [Host.setLinks_links, hlinks]
      rfl
    · rw [Host.setLinks_route, hroute]
      rfl

/-- A cleanup whose commands are not made to fail. -/
theorem cleanup_takes {c : Container} {w : World Host}
    (hcalm : ∀ n < (networkCleanupContainer c).depth, w.faults n = false) :
    CleanupTakes c w.state (run NetCmd.effect (networkCleanupContainer c) w).2.state := by
  obtain ⟨-, hstate⟩ := @Script.run_congr_faults _ _ _ NetCmd.effect (networkCleanupContainer c) w
    (.calm w.state) rfl hcalm
  rw [hstate]
  exact cleanup_calm c w.state

end Cruntime
