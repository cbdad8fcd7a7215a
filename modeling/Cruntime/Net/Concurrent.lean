/-
What two setups at the same time leave behind.

`TwoSetups.Going` holds when both calls start, and when both have returned it pins the
host down: the links, routes and addresses are those of the sequence, and the rules are
as well, up to the order in which the two calls appended theirs.  Together with what a
clash costs, both calls return `CR_OK` exactly in the runs whose commands are all clear,
and the host is then the one of the sequence.
-/
import Cruntime.Net.Clash

namespace Cruntime

open Script (Item Follows execAll run)

/-- Two hosts that differ in the order of their rules only. -/
structure SameUpToRuleOrder (s u : Host) : Prop where
  links : s.links = u.links
  route : s.route = u.route
  ipForward : s.ipForward = u.ipForward
  nsOf : s.nsOf = u.nsOf
  rules : ∀ ch, (s.rules ch).Perm (u.rules ch)

namespace TwoSetups

variable {T : TwoSetups} {p : SetupPool} {stage : Bool → Stage} {l : List (Item NetCmd)}

/-! ### The start of a run -/

theorem create_keepsRules {x : Item NetCmd} (hx : x ∈ T.create) (r : Rule) :
    x.cmd ≠ .deleteRule r := by
  intro heq
  have hc := T.create_cmds hx
  rw [heq] at hc
  cases hc

theorem attachItems_keepsRules {c : Container} {x : Item NetCmd} (hx : x ∈ attachItems c)
    (r : Rule) : x.cmd ≠ .deleteRule r := by
  intro heq
  simp only [attachItems, List.mem_cons, List.mem_append] at hx
  rcases hx with rfl | hx | rfl | hx
  · simp [addItem] at heq
  · have hc := hostItems_own c x hx
    rw [heq] at hc
    cases hc
  · simp [moveItem] at heq
  · have hc := insideItems_own c x hx
    rw [heq] at hc
    cases hc

/-- The rules after the sequence of the two calls. -/
theorem finish_rules (ch : Chain) : (T.finish true).rules ch = T.host.rules ch ++
    (pending ch T.create ++
      (pending ch (attachItems (T.call false)) ++ pending ch (attachItems (T.call true)))) := by
  have hattach : ∀ i, (T.finish i).rules ch
      = (T.start i).rules ch ++ pending ch (attachItems (T.call i)) :=
    fun i => execAll_rules (fun _ hx => attachItems_keepsRules hx) ch (T.attaches i)
  rw [hattach true, T.second, hattach false,
    execAll_rules (fun _ hx => create_keepsRules hx) ch T.creates]
  simp only [List.append_assoc]

/-- The host has no `eth0` before the calls, or the first of the sequence would fail. -/
theorem host_eth0 : T.host.links.lookup hostEth0 = none := by
  rw [← T.created.links _ T.bridge_ne_hostEth0.symm]
  exact (attach_needs (T.attaches false)).1

/-- **Where the run starts** the invariant holds. -/
theorem going_start (hstate : p.state = T.host)
    (hthreads : ∀ i, T.ThreadIn i (p.threads i) .start) :
    T.Going p (fun _ => .start) T.create := by
  obtain ⟨s, threads⟩ := p
  obtain rfl : s = T.host := hstate
  refine ⟨hthreads, fun i => ⟨T.start i, T.attaches i, trivial, trivial, ?_, T.start_bridge i, ?_⟩,
    fun i j hi => ?_, fun _ => ?_, ?_, fun _ _ _ _ => rfl, fun _ _ => rfl, rfl, fun ch => ?_⟩
  · exact T.start_agree i
  · intro hin
    simp [Stage.attach, AttachStage.inWindow] at hin
  · simp [Stage.attach, AttachStage.inWindow] at hi
  · exact host_eth0
  · refine ⟨fun _ => ⟨rfl, fun _ => Or.inl rfl⟩, fun hpresent => ?_, fun i l' hl' => ?_,
      ⟨T.host, T.creates, rfl, rfl⟩, fun _ hx => hx⟩
    · have hnil := T.present.mpr hpresent
      have hsame : T.host = T.start false := by
        have := T.creates
        rw [hnil] at this
        exact Option.some.inj this
      exact ⟨hsame ▸ T.start_bridge false, Or.inl hnil⟩
    · simp at hl'
  · rw [finish_rules ch]
    exact List.Perm.refl _

/-- **A run of clear commands** keeps it. -/
theorem going_after {sched : List Bool} (hstate : p.state = T.host)
    (hthreads : ∀ i, T.ThreadIn i (p.threads i) .start)
    (hclear : Runs.Along turn (fun q i => Clear T.ids q i = true) p sched) :
    ∃ stage l, T.Going (Runs.after turn p sched) stage l :=
  Runs.keeps turn (I := fun q => ∃ stage l, T.Going q stage l)
    (fun _ _ hc hI => by
      obtain ⟨stage, l, hI⟩ := hI
      exact hI.step hc)
    sched p hclear ⟨_, _, going_start hstate hthreads⟩

/-! ### The end of a run -/

/-- A call that has returned has returned `CR_OK`, at the end of its commands. -/
theorem Going.returned (hI : T.Going p stage l) {i : Bool} {r : CrCode × Container}
    (hr : p.threads i = .ret r) : stage i = .attaching (.inside []) ∧ r = (.ok, T.call i) := by
  have hthread := hI.threads i
  rw [hr] at hthread
  cases hstage : stage i with
  | start =>
      rw [hstage] at hthread
      obtain ⟨k, hk, -⟩ := hthread
      simp at hk
  | creating l' =>
      rw [hstage] at hthread
      obtain ⟨hnil, -⟩ := Pool.nil_of_follows_ret hthread
      simp [attachItems] at hnil
  | attaching st =>
      rw [hstage] at hthread
      obtain ⟨hnil, rfl⟩ := Pool.nil_of_follows_ret hthread
      match st with
      | .before => simp [AttachStage.items, attachItems] at hnil
      | .window m => simp [AttachStage.items] at hnil
      | .inside l' =>
          obtain rfl : l' = [] := hnil
          exact ⟨rfl, rfl⟩

/-- What the second call of the sequence leaves as the first one left it. -/
theorem second_frame : FrameOut (T.call true) (T.ns true) (T.finish false) (T.finish true) := by
  rw [← T.second]
  exact (T.attach_frame true (T.start_nsOf true)).1

theorem first_frame : FrameOut (T.call false) (T.ns false) (T.start false) (T.finish false) :=
  (T.attach_frame false (T.start_nsOf false)).1

/-- **The host after both calls** is the one of the sequence. -/
theorem Going.finished (hI : T.Going p stage l)
    (hstage : ∀ i, stage i = .attaching (.inside [])) :
    SameUpToRuleOrder p.state (T.finish true) := by
  have hagree : ∀ i, AgreeOn (T.call i) (T.ns i) p.state (T.finish i) := by
    intro i
    obtain ⟨u, hu⟩ := hI.alongside i
    rw [hstage i] at hu
    obtain rfl : u = T.finish i := Option.some.inj hu.rest
    exact hu.agree
  have hnil : l = [] := by
    have hthere : p.state.link T.bridge ≠ none :=
      LinkTable.lookup_ne_none (hI.bridge_there (hstage true))
    refine (hI.bridge.present hthere).2.resolve_right ?_
    rintro ⟨i, hi⟩
    rw [hstage i] at hi
    simp at hi
  subst hnil
  obtain ⟨v, hv, hlink, hforward⟩ := hI.bridge.rest
  obtain rfl : v = T.start false := Option.some.inj hv
  refine ⟨LinkTable.ext fun x => ?_, funext fun n => ?_, ?_, ?_, fun ch => ?_⟩
  · by_cases htrue : InRegion (T.call true) (T.ns true) x
    · exact (hagree true).links x htrue
    by_cases heth : x = hostEth0
    · subst heth
      rw [(T.attach_frame true (T.start_nsOf true)).2]
      refine hI.eth0 fun i => ?_
      rw [hstage i]
      rfl
    rw [second_frame.links x htrue heth]
    by_cases hfalse : InRegion (T.call false) (T.ns false) x
    · exact (hagree false).links x hfalse
    rw [first_frame.links x hfalse heth]
    by_cases hb : x = T.bridgeLoc
    · subst hb
      exact hlink
    · rw [T.created.links x hb]
      refine hI.links x (fun i => ?_) heth hb
      cases i <;> assumption
  · by_cases htrue : n = T.ns true
    · subst htrue
      exact (hagree true).route
    rw [second_frame.route n htrue]
    by_cases hfalse : n = T.ns false
    · subst hfalse
      exact (hagree false).route
    rw [first_frame.route n hfalse, T.created.route]
    refine hI.route n fun i => ?_
    cases i <;> assumption
  · rw [second_frame.ipForward, first_frame.ipForward]
    exact hforward
  · exact (hagree true).nsOf
  · have hrules := hI.rules ch
    unfold todo at hrules
    rw [hstage false, hstage true] at hrules
    simpa [Stage.attach, AttachStage.items, pending, onChain] using hrules

end TwoSetups

/-! ### Two calls that succeed one after the other -/

/-- The two calls at their start. -/
def setupPool (env : Bool → Entropy) (c : Bool → Container) (h : Host) : SetupPool :=
  ⟨h, fun i => networkSetupContainer (env i) (c i)⟩

/-- The first call of the sequence. -/
def firstCall (env : Bool → Entropy) (c : Bool → Container) (h : Host) :
    (CrCode × Container) × World Host :=
  run NetCmd.effect (networkSetupContainer (env false) (c false)) (.calm h)

/-- The second call, after the first. -/
def secondCall (env : Bool → Entropy) (c : Bool → Container) (h : Host) :
    (CrCode × Container) × World Host :=
  run NetCmd.effect (networkSetupContainer (env true) (c true)) (firstCall env c h).2

/-- `inet_pton` reads the network of the subnet, if there is a slash to cut it off at. -/
def SubnetReadable (subnet : CStr) : Prop :=
  ∀ cut, strchr (strncpy subnet 64) '/' = some cut → inetPton cut.1 ≠ none

/-- The commands that make the bridge do not depend on what is on the stack. -/
theorem creationItems_congr {env env' : Entropy} {c c' : Container}
    (hb : c.network.bridgeName = c'.network.bridgeName)
    (hsubnet : c.network.subnet = c'.network.subnet) (hread : SubnetReadable c.network.subnet) :
    creationItems env c = creationItems env' c' := by
  unfold creationItems
  rw [← hb, ← hsubnet]
  cases hcut : strchr (strncpy c.network.subnet 64) '/' with
  | none => rfl
  | some cut =>
      obtain ⟨a, ha⟩ := Option.ne_none_iff_exists'.mp (hread cut hcut)
      simp [ha]

/-- **A call that succeeds on its own**, as lists of commands. -/
theorem setup_alone {env : Entropy} {c : Container} {s : Host}
    (hok : (run NetCmd.effect (networkSetupContainer env c) (.calm s)).1.1 = .ok) :
    ∃ c' create s₁ s₂, withAddress env c = some c' ∧
      (s.link c.network.bridgeName = none → creationItems env c = some create) ∧
      (s.link c.network.bridgeName ≠ none → create = []) ∧
      execAll NetCmd.effect create s = some s₁ ∧
      execAll NetCmd.effect (attachItems c') s₁ = some s₂ ∧
      run NetCmd.effect (networkSetupContainer env c) (.calm s) = ((.ok, c'), .calm s₂) := by
  cases hc' : withAddress env c with
  | none =>
      rw [setupContainer_stop (Or.inr hc')] at hok
      simp at hok
  | some c' =>
      obtain ⟨k, hk, htrue, hfalse⟩ := setupContainer_start hc'
      by_cases hb : s.link c.network.bridgeName = none
      · have hrun : run NetCmd.effect (networkSetupContainer env c) (.calm s)
            = run NetCmd.effect (k false) (.calm s) := by
          rw [hk, Script.run_exec_calm, Script.attempt_none _ (by simp [NetCmd.effect, hb])]
        rw [hrun] at hok ⊢
        cases hitems : creationItems env c with
        | none =>
            rw [hitems] at hfalse
            exact absurd hok (hfalse _)
        | some create =>
            rw [hitems] at hfalse
            obtain ⟨s₂, hall, hret⟩ := Follows.run hfalse s (by simpa [Failed] using hok)
            obtain ⟨s₁, hcreate, hattach⟩ := (Script.execAll_append _).mp hall
            exact ⟨c', create, s₁, s₂, rfl, fun _ => rfl, fun h => absurd hb h, hcreate, hattach,
              hret⟩
      · have hshow : NetCmd.effect (.linkShow c.network.bridgeName) s = some s := by
          simp [NetCmd.effect, Option.isSome_iff_ne_none, hb]
        have hrun : run NetCmd.effect (networkSetupContainer env c) (.calm s)
            = run NetCmd.effect (k true) (.calm s) := by
          rw [hk, Script.run_exec_calm, Script.attempt_some _ hshow]
        rw [hrun] at hok ⊢
        obtain ⟨s₂, hattach, hret⟩ := Follows.run htrue s (by simpa [Failed] using hok)
        exact ⟨c', [], s, s₂, rfl, fun h => absurd h hb, fun _ => rfl, rfl, hattach, hret⟩

/-- No command of a setup removes a link other than `eth0`. -/
theorem setupContainer_spares (env : Entropy) (c : Container) {name : CStr}
    (hname : name ≠ vethContainer) :
    (networkSetupContainer env c).Uses (NetCmd.Spares name) := by
  have hrules : ∀ ip ports, (networkSetupPortForwarding ip ports).Uses (NetCmd.Spares name) := by
    intro ip ports
    induction ports with
    | nil => exact trivial
    | cons pm rest ih =>
        refine ⟨trivial, fun ok => ?_⟩
        cases ok with
        | true => exact ⟨trivial, fun _ => ih⟩
        | false => exact ih
  have hveth : ∀ c' : Container, (networkSetupVeth c'.id c'.network.bridgeName
      c'.network.ipAddress c'.network.gateway c'.initPid).Uses (NetCmd.Spares name) := by
    intro c'
    rw [networkSetupVeth_eq]
    refine Script.uses_checkAll (fun cmd hcmd => ?_) ⟨trivial, fun _ => trivial⟩
    simp only [vethCommands, List.mem_cons, List.not_mem_nil, or_false] at hcmd
    rcases hcmd with rfl | rfl | rfl | rfl | rfl | rfl | rfl
    all_goals first
      | exact trivial
      | exact hname.symm
  have hattach : ∀ c' : Container, (networkAttach c').Uses (NetCmd.Spares name) := by
    intro c'
    refine Script.uses_bind (hveth c') fun code => ?_
    split
    · exact trivial
    · split
      · exact Script.uses_bind (hrules _ _) fun _ => trivial
      · exact trivial
  refine Script.uses_bind (Script.uses_mono (fun _ hc => hc.spares)
    (createBridge_uses c.network.bridgeName c.network.subnet env.bridgeStack)) fun code => ?_
  split
  · exact trivial
  · split
    · exact trivial
    · exact Script.uses_bind (hattach _) fun _ => trivial

theorem createItems_of_creationItems {env : Entropy} {c : Container} {l : List (Item NetCmd)}
    (h : creationItems env c = some l) :
    ∃ gateway pfx, l = createItems c.network.bridgeName c.network.subnet gateway pfx := by
  obtain ⟨cut, -, rfl⟩ := Option.map_eq_some_iff.mp h
  exact ⟨_, _, rfl⟩

/-- Attaching a container leaves its bridge and the namespaces of the processes. -/
theorem bridge_after_attach {c : Container} {n : NetNs} {s s' : Host}
    (hn : s.nsOf c.initPid = some n) (hhost : n ≠ .host)
    (hattach : execAll NetCmd.effect (attachItems c) s = some s') :
    s'.link c.network.bridgeName ≠ none ∧ s'.nsOf = s.nsOf := by
  obtain ⟨hveth, hname, heth0, hkind⟩ := attach_needs hattach
  have hframe := (AttachStage.run_frame hhost (attachItems c) .before rfl hn trivial
    (fun _ => hveth) hattach).1
  have hsame : s'.link c.network.bridgeName = s.link c.network.bridgeName := by
    refine hframe.links _ ?_ heth0
    rintro (heq | heq)
    · exact hname heq
    · exact hhost heq.symm
  rw [hsame]
  exact ⟨LinkTable.lookup_ne_none hkind, hframe.nsOf⟩

/-- **The calls of a sequence that succeeds**: what the invariant needs of them, and the
programs they start as. -/
theorem exists_twoSetups {env : Bool → Entropy} {c : Bool → Container} {h : Host}
    (hveth : vethHost (c false).id ≠ vethHost (c true).id)
    (hbridge : (c false).network.bridgeName = (c true).network.bridgeName)
    (hsubnet : (c false).network.subnet = (c true).network.subnet)
    (hread : SubnetReadable (c false).network.subnet)
    (hns : ∀ i, h.nsOf (c i).initPid ≠ some .host)
    (hfirst : (firstCall env c h).1.1 = .ok) (hsecond : (secondCall env c h).1.1 = .ok) :
    ∃ T : TwoSetups, T.host = h ∧ T.ids = (fun i => (c i).id) ∧
      firstCall env c h = ((.ok, T.call false), .calm (T.finish false)) ∧
      secondCall env c h = ((.ok, T.call true), .calm (T.finish true)) ∧
      ∀ i, T.ThreadIn i (networkSetupContainer (env i) (c i)) .start := by
  obtain ⟨c₁, create, s₁, s₂, hc₁, habsent, hpresent, hcreate, hattach₁, hrun₁⟩ :=
    setup_alone hfirst
  have hfirst' : firstCall env c h = ((.ok, c₁), .calm s₂) := hrun₁
  rw [secondCall, hfirst'] at hsecond
  obtain ⟨c₂, create₂, t₁, t₂, hc₂, -, hpresent₂, hcreate₂, hattach₂, hrun₂⟩ := setup_alone hsecond
  obtain ⟨hid₁, hname₁, hpid₁, -⟩ := withAddress_eq hc₁
  obtain ⟨hid₂, hname₂, hpid₂, -⟩ := withAddress_eq hc₂
  have hitems : create ≠ [] → creationItems (env false) (c false) = some create :=
    fun hne => habsent (by by_contra hb; exact hne (hpresent hb))
  have hcmds : ∀ x ∈ create,
      BridgeCmd (c false).network.bridgeName (c false).network.subnet x.cmd := by
    intro x hx
    obtain ⟨gateway, pfx, rfl⟩ := createItems_of_creationItems (hitems (List.ne_nil_of_mem hx))
    exact createItems_bridgeCmd gateway pfx x hx
  have honly := bridgeOnly_run hcmds hcreate
  -- the first call's namespace, and the bridge it leaves
  obtain ⟨n₁, hn₁, heth₁⟩ := attach_enters hattach₁
  have hlives : h.nsOf (c false).initPid = some n₁ := by
    rw [← hpid₁, ← honly.nsOf]
    exact hn₁
  have hhost₁ : n₁ ≠ .host := fun heq => hns false (heq ▸ hlives)
  obtain ⟨hthere, hnsOf⟩ := bridge_after_attach hn₁ hhost₁ hattach₁
  rw [hname₁, hbridge] at hthere
  obtain rfl := hpresent₂ hthere
  obtain rfl : s₂ = t₁ := Option.some.inj hcreate₂
  -- the second call's namespace is another one: its `eth0` was free
  obtain ⟨n₂, hn₂, heth₂⟩ := attach_enters hattach₂
  rw [hnsOf, honly.nsOf, hpid₂] at hn₂
  have hhost₂ : n₂ ≠ .host := fun heq => hns true (heq ▸ hn₂)
  have hne : n₁ ≠ n₂ := by
    rintro rfl
    exact (heth₁ hhost₁).2 (heth₂ hhost₂).1
  refine ⟨{ host := h
            call := fun i => if i then c₂ else c₁
            ns := fun i => if i then n₂ else n₁
            bridge := (c false).network.bridgeName
            subnet := (c false).network.subnet
            create := create
            start := fun i => if i then s₂ else s₁
            finish := fun i => if i then t₂ else s₂
            lives := ?_, ns_ne_host := ?_, ns_ne := hne, veth_ne := ?_, bridgeName := ?_,
            present := ?_, create_eq := ?_, creates := hcreate, attaches := ?_, second := rfl },
    rfl, ?_, hfirst', ?_, ?_⟩
  · intro i
    cases i
    · simpa [hpid₁] using hlives
    · simpa [hpid₂] using hn₂
  · intro i
    cases i
    · exact hhost₁
    · exact hhost₂
  · simpa [hid₁, hid₂] using hveth
  · intro i
    cases i
    · exact hname₁
    · exact hname₂.trans hbridge.symm
  · constructor
    · intro hnil hnone
      have hsome := habsent hnone
      rw [hnil] at hsome
      obtain ⟨gateway, pfx, heq⟩ := createItems_of_creationItems hsome
      simp [createItems] at heq
    · exact hpresent
  · exact fun hne => createItems_of_creationItems (hitems hne)
  · intro i
    cases i
    · exact hattach₁
    · exact hattach₂
  · funext i
    cases i
    · exact hid₁
    · exact hid₂
  · rw [secondCall, hfirst']
    exact hrun₂
  · intro i
    cases i with
    | false =>
        obtain ⟨k, hk, htrue, hfalse⟩ := setupContainer_start hc₁
        refine ⟨k, hk, htrue, fun hne => ?_⟩
        rw [hitems hne] at hfalse
        exact hfalse
    | true =>
        obtain ⟨k, hk, htrue, hfalse⟩ := setupContainer_start hc₂
        rw [← hbridge] at hk
        refine ⟨k, hk, htrue, fun hne => ?_⟩
        rw [← creationItems_congr hbridge hsubnet hread, hitems hne] at hfalse
        exact hfalse

/--
**Two setups at the same time return `CR_OK` exactly when no command clashes, and then the
host is the one of the sequence**, rules up to order.
-/
theorem concurrent_setups_iff (env : Bool → Entropy) (c : Bool → Container) (h : Host)
    (hveth : vethHost (c false).id ≠ vethHost (c true).id)
    (hbridge : (c false).network.bridgeName = (c true).network.bridgeName)
    (hsubnet : (c false).network.subnet = (c true).network.subnet)
    (hread : SubnetReadable (c false).network.subnet)
    (hns : ∀ i, h.nsOf (c i).initPid ≠ some .host)
    (hfirst : (firstCall env c h).1.1 = .ok) (hsecond : (secondCall env c h).1.1 = .ok)
    (sched : List Bool) :
    (∀ i, (networkSetupContainer (env i) (c i)).depth ≤ sched.count i →
      ∃ r, (Runs.after turn (setupPool env c h) sched).threads i = .ret r) ∧
    ∀ r : Bool → CrCode × Container,
      (∀ i, (Runs.after turn (setupPool env c h) sched).threads i = .ret (r i)) →
      ((∀ i, (r i).1 = .ok) ↔
        Runs.Along turn (fun p i => Clear (fun j => (c j).id) p i = true) (setupPool env c h)
          sched) ∧
      ((∀ i, (r i).1 = .ok) → r false = (firstCall env c h).1 ∧ r true = (secondCall env c h).1 ∧
        SameUpToRuleOrder (Runs.after turn (setupPool env c h) sched).state
          (secondCall env c h).2.state) := by
  refine ⟨fun i hi => Pool.returned_of_turns NetCmd.effect sched _ hi, fun r hret => ?_⟩
  obtain ⟨T, hhost, hids, hfirst', hsecond', hthreads⟩ :=
    exists_twoSetups hveth hbridge hsubnet hread hns hfirst hsecond
  rw [hfirst', hsecond', ← hids]
  have hstart : ∃ stage l, T.Going (setupPool env c h) stage l :=
    ⟨_, _, TwoSetups.going_start hhost.symm hthreads⟩
  have huses : T.SparesBridge (setupPool env c h) := by
    intro i
    refine setupContainer_spares (env i) (c i) ?_
    intro heq
    exact T.bridge_ne_hostEth0 (congrArg (Loc.mk .host) heq)
  have hdone : Runs.Along turn (fun p i => Clear T.ids p i = true) (setupPool env c h) sched →
      ∃ stage l, T.Going (Runs.after turn (setupPool env c h) sched) stage l :=
    TwoSetups.going_after hhost.symm hthreads
  have hclear : (∀ i, (r i).1 = .ok) →
      Runs.Along turn (fun p i => Clear T.ids p i = true) (setupPool env c h) sched :=
    fun hok => TwoSetups.clear_of_ok hok hstart huses hret
  refine ⟨⟨hclear, fun hall i => ?_⟩, fun hok => ?_⟩
  · obtain ⟨stage, l, hI⟩ := hdone hall
    rw [(hI.returned (hret i)).2]
  · obtain ⟨stage, l, hI⟩ := hdone (hclear hok)
    exact ⟨(hI.returned (hret false)).2, (hI.returned (hret true)).2,
      hI.finished fun i => (hI.returned (hret i)).1⟩

/-- Two containers on the default bridge and subnet. -/
def samplePair (i : Bool) : Container :=
  if i then .sample "1123456789".toList "172.17.0.3/16".toList 8
  else .sample "0123456789".toList "172.17.0.2/16".toList 7

/-- Nothing from outside the program's data. -/
def noEntropy (_ : Bool) : Entropy := ⟨0, 0, 0, 0⟩

theorem samplePair_readable (i : Bool) : SubnetReadable (samplePair i).network.subnet := by
  intro cut hcut
  obtain rfl : ("172.17.0.0".toList, "16".toList) = cut := by
    refine Option.some.inj (Eq.trans ?_ hcut)
    cases i <;> decide
  decide

/-- One call makes the bridge, then the other makes its pair while the first moves its own
into its container. -/
theorem concurrent_setups_of_clear :
    SameUpToRuleOrder
      (Runs.after turn (setupPool noEntropy samplePair .bare)
        (List.replicate 8 false ++ [true, false, false, false, false, true, false, true, false,
          true, false, true, false, true, true, true, true])).state
      (secondCall noEntropy samplePair .bare).2.state := by
  obtain ⟨-, hall⟩ := concurrent_setups_iff noEntropy samplePair .bare (by decide) (by decide)
    (by decide) (samplePair_readable false) (by decide) (by decide) (by decide)
    (List.replicate 8 false ++ [true, false, false, false, false, true, false, true, false,
      true, false, true, false, true, true, true, true])
  obtain ⟨hiff, hsame⟩ := hall
    (fun i => (.ok, { samplePair i with
      network := { (samplePair i).network with gateway := "172.17.0.1".toList } }))
    (fun i => by cases i <;> rfl)
  exact (hsame (hiff.mpr (by decide))).2.2

/-- The second call makes its pair while the peer of the first is the host's `eth0`. -/
theorem concurrent_setups_clash :
    ¬∀ (env : Bool → Entropy) (c : Bool → Container) (h : Host) (sched : List Bool)
        (r : Bool → CrCode × Container),
      vethHost (c false).id ≠ vethHost (c true).id →
      (c false).network.ipAddress ≠ (c true).network.ipAddress →
      (c false).network.bridgeName = (c true).network.bridgeName →
      (c false).network.subnet = (c true).network.subnet →
      (∀ i, h.nsOf (c i).initPid ≠ some .host) →
      (firstCall env c h).1.1 = .ok → (secondCall env c h).1.1 = .ok →
      (∀ i, (Runs.after turn (setupPool env c h) sched).threads i = .ret (r i)) →
      (∀ i, (r i).1 = .ok) ∧
        SameUpToRuleOrder (Runs.after turn (setupPool env c h) sched).state
          (secondCall env c h).2.state := by
  intro hall
  have hok := (hall noEntropy samplePair .bare
    (List.replicate 9 false ++ true :: true :: List.replicate 7 false)
    (fun i => (if i then .error else .ok, { samplePair i with
      network := { (samplePair i).network with gateway := "172.17.0.1".toList } }))
    (by decide) (by decide) (by decide) (by decide) (by decide) (by decide) (by decide)
    (fun i => by cases i <;> rfl)).1 true
  exact absurd hok (by decide)

end Cruntime
