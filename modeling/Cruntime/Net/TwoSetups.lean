/-
Two setups at the same time.

No lock keeps two calls of `network_setup_container` apart.  They clash in two
places only.  A call that finds no bridge makes one, and fails when the other has made
it in between; and the peer of a new pair is the host's `eth0` for three commands, and
the other call cannot make its own pair meanwhile.  `Clear` says of one command that
it runs into neither.

In a run whose commands are all clear, each call does on its part of the host what it
does in the sequence of the two calls: next to the host there is for each call the
host of the sequence at the point where the call has come to, and the two agree on the
call's part.  The bridge is followed in the same way, whichever call makes it.
-/
import Cruntime.Net.Attach

namespace Cruntime

open Script (Item Follows execAll run)

/-! ### The commands that make the bridge -/

section

variable {b subnet : CStr}

theorem createItems_bridgeCmd (gateway pfx : CStr) :
    ∀ x ∈ createItems b subnet gateway pfx, BridgeCmd b subnet x.cmd := by
  intro x hx
  simp only [createItems, List.mem_cons, List.not_mem_nil, or_false] at hx
  rcases hx with rfl | rfl | rfl | rfl | rfl | rfl | rfl
  · exact .linkAddBridge
  · exact .addrAdd _ _
  · exact .linkUp
  · exact .sysctlForward
  · exact .appendRule (Or.inl rfl)
  · exact .appendRule (Or.inr (Or.inl rfl))
  · exact .appendRule (Or.inr (Or.inr rfl))

theorem BridgeCmd.writes {cmd : NetCmd} (hc : BridgeCmd b subnet cmd) {h : Host} {x : Loc}
    (hw : cmd.Writes h x) : x = ⟨.host, b⟩ := by
  cases hc <;> simp only [NetCmd.Writes, NetCmd.target, Option.some.injEq, or_false, reduceCtorEq,
    or_self, false_or] at hw
  case linkAddBridge => exact hw
  case addrAdd => exact hw.symm
  case linkUp => exact hw.symm

theorem BridgeCmd.not_downs {cmd : NetCmd} (hc : BridgeCmd b subnet cmd) {h : Host} (x : Loc) :
    ¬cmd.Downs h x := by
  cases hc <;> exact id

theorem BridgeCmd.sameReads {cmd : NetCmd} (hc : BridgeCmd b subnet cmd) {s u : Host}
    (hb : s.link b = u.link b) : cmd.SameReads s u := by
  cases hc <;> first | exact hb | exact trivial

/-- Apart from the bridge, the rules and the forwarding switch, nothing changes. -/
structure BridgeOnly (b : CStr) (s s' : Host) : Prop where
  links : ∀ x, x ≠ ⟨.host, b⟩ → s'.links.lookup x = s.links.lookup x
  route : s'.route = s.route
  nsOf : s'.nsOf = s.nsOf

theorem BridgeCmd.only {x : Item NetCmd} (hc : BridgeCmd b subnet x.cmd) {s s' : Host}
    (hx : x.exec NetCmd.effect s = some s') : BridgeOnly b s s' := by
  refine ⟨fun y hy => exec_links_frame hx fun hw => hy (hc.writes hw), funext fun n => ?_,
    exec_nsOf hx⟩
  refine exec_route_frame hx (fun pid gateway heq => ?_) fun _ _ => hc.not_downs _
  rw [heq] at hc
  cases hc

theorem bridgeOnly_run {l : List (Item NetCmd)} (hl : ∀ x ∈ l, BridgeCmd b subnet x.cmd) :
    ∀ {s s' : Host}, execAll NetCmd.effect l s = some s' → BridgeOnly b s s' := by
  induction l with
  | nil =>
      intro s s' h
      obtain rfl : s = s' := Option.some.inj h
      exact ⟨fun _ _ => rfl, rfl, rfl⟩
  | cons x rest ih =>
      intro s s' h
      obtain ⟨t, hx, hrest⟩ := (Script.execAll_cons _).mp h
      have h₁ := (hl x (by simp)).only hx
      have h₂ := ih (fun y hy => hl y (by simp [hy])) hrest
      exact ⟨fun y hy => (h₂.links y hy).trans (h₁.links y hy), h₂.route.trans h₁.route,
        h₂.nsOf.trans h₁.nsOf⟩

end

/-! ### Commands that clash -/

/-- The program is about to issue a command of a kind. -/
def issues {α : Type} (kind : NetCmd → Bool) (t : NetScript α) : Bool := t.head?.any kind

def NetCmd.looksForBridge : NetCmd → Bool
  | .linkShow _ => true
  | _ => false

def NetCmd.addsBridge : NetCmd → Bool
  | .linkAddBridge _ => true
  | _ => false

def NetCmd.addsPair : NetCmd → Bool
  | .linkAddVeth _ _ => true
  | _ => false

/-- The commands of a container's setup between the creation of its pair and the move of the
peer, the move included. -/
def NetCmd.holdsEth0 (containerId : CStr) : NetCmd → Bool
  | .linkSetMaster _ _ => true
  | .linkUp dev => dev == vethHost containerId
  | .linkSetNetns _ _ => true
  | _ => false

/-- Two calls on one host. -/
abbrev SetupPool := Pool Bool NetCmd (CrCode × Container) Host

/-- The next command of call `i` does not run into the other call: it does not look for the
bridge while the other has found none and not added it yet, and it does not add a pair while
the other is between its own pair and the move of the peer. -/
def Clear (ids : Bool → CStr) (p : SetupPool) (i : Bool) : Bool :=
  !(issues NetCmd.looksForBridge (p.threads i) && issues NetCmd.addsBridge (p.threads !i)) &&
    !(issues NetCmd.addsPair (p.threads i) &&
      issues (NetCmd.holdsEth0 (ids !i)) (p.threads !i))

/-- Call `i` issues its next command, and nothing refuses it. -/
abbrev turn : SetupPool → Bool → SetupPool := Pool.turn NetCmd.effect

/-! ### The sequence of the two calls -/

/-- Two calls that succeed one after the other: `false` and then `true`.  `create` are the
commands that make the bridge, none when it is there; `start i` is the host at which the
first call, or the second, has its bridge, and `finish i` the one it leaves. -/
structure TwoSetups where
  host : Host
  call : Bool → Container
  ns : Bool → NetNs
  bridge : CStr
  subnet : CStr
  create : List (Item NetCmd)
  start : Bool → Host
  finish : Bool → Host
  lives : ∀ i, host.nsOf (call i).initPid = some (ns i)
  ns_ne_host : ∀ i, ns i ≠ .host
  ns_ne : ns false ≠ ns true
  veth_ne : vethHost (call false).id ≠ vethHost (call true).id
  bridgeName : ∀ i, (call i).network.bridgeName = bridge
  present : create = [] ↔ host.link bridge ≠ none
  create_eq : create ≠ [] → ∃ gateway pfx, create = createItems bridge subnet gateway pfx
  creates : execAll NetCmd.effect create host = some (start false)
  attaches : ∀ i, execAll NetCmd.effect (attachItems (call i)) (start i) = some (finish i)
  second : start true = finish false

namespace TwoSetups

variable (T : TwoSetups)

theorem create_head (h : T.create ≠ []) :
    ∃ rest, T.create = ⟨.linkAddBridge T.bridge, true⟩ :: rest := by
  obtain ⟨gateway, pfx, heq⟩ := T.create_eq h
  exact ⟨_, heq⟩

theorem create_cmds {x : Item NetCmd} (hx : x ∈ T.create) : BridgeCmd T.bridge T.subnet x.cmd := by
  obtain ⟨gateway, pfx, heq⟩ := T.create_eq (List.ne_nil_of_mem hx)
  rw [heq] at hx
  exact createItems_bridgeCmd gateway pfx x hx

/-- The ids of the two containers. -/
def ids (i : Bool) : CStr := (T.call i).id

/-- The bridge as a location. -/
def bridgeLoc : Loc := ⟨.host, T.bridge⟩

theorem ns_ne' {i j : Bool} (h : i ≠ j) : T.ns i ≠ T.ns j := by
  cases i <;> cases j <;> first | exact absurd rfl h | exact T.ns_ne | exact T.ns_ne.symm

theorem veth_ne' {i j : Bool} (h : i ≠ j) : vethHost (T.call i).id ≠ vethHost (T.call j).id := by
  cases i <;> cases j <;> first | exact absurd rfl h | exact T.veth_ne | exact T.veth_ne.symm

/-- The parts of the two calls are disjoint. -/
theorem inRegion_ne {i j : Bool} (h : i ≠ j) {x : Loc} (hx : InRegion (T.call i) (T.ns i) x) :
    ¬InRegion (T.call j) (T.ns j) x := by
  rcases hx with rfl | hx
  · rintro (heq | heq)
    · injection heq with _ heq
      exact T.veth_ne' h heq
    · exact T.ns_ne_host j heq.symm
  · rintro (rfl | heq)
    · exact T.ns_ne_host i hx.symm
    · exact T.ns_ne' h (hx.symm.trans heq)

theorem inRegion_ne_hostEth0 {i : Bool} {x : Loc} (hx : InRegion (T.call i) (T.ns i) x) :
    x ≠ hostEth0 := by
  rintro rfl
  exact hostEth0_not_inRegion (T.ns_ne_host i) hx

theorem bridge_not_inRegion (i : Bool) : ¬InRegion (T.call i) (T.ns i) T.bridgeLoc := by
  obtain ⟨-, hne, -, -⟩ := attach_needs (T.attaches i)
  rw [T.bridgeName i] at hne
  rintro (heq | heq)
  · exact hne heq
  · exact T.ns_ne_host i heq.symm

theorem bridge_ne_hostEth0 : T.bridgeLoc ≠ hostEth0 := by
  obtain ⟨-, -, hne, -⟩ := attach_needs (T.attaches false)
  rwa [T.bridgeName false] at hne

theorem start_bridge (i : Bool) : (T.start i).links.kindAt T.bridgeLoc = some .bridge := by
  obtain ⟨-, -, -, hkind⟩ := attach_needs (T.attaches i)
  rwa [T.bridgeName i] at hkind

theorem created : BridgeOnly T.bridge T.host (T.start false) := 
  bridgeOnly_run (fun _ => T.create_cmds) T.creates

/-- What one call of the sequence does to the host. -/
theorem attach_frame (i : Bool) (hns : (T.start i).nsOf = T.host.nsOf) :
    FrameOut (T.call i) (T.ns i) (T.start i) (T.finish i) ∧
      (T.finish i).links.lookup hostEth0 = none :=
  AttachStage.run_frame (T.ns_ne_host i) (attachItems (T.call i)) .before rfl
    (by rw [hns]; exact T.lives i) trivial (fun _ => (attach_needs (T.attaches i)).1) (T.attaches i)

theorem start_nsOf (i : Bool) : (T.start i).nsOf = T.host.nsOf := by
  cases i with
  | false => exact T.created.nsOf
  | true => rw [T.second, (T.attach_frame false T.created.nsOf).1.nsOf, T.created.nsOf]

/-- The host agrees with the one of the sequence at which a call has its bridge, on the
call's part. -/
theorem start_agree (i : Bool) : AgreeOn (T.call i) (T.ns i) T.host (T.start i) := by
  have hfirst : ∀ j, AgreeOn (T.call j) (T.ns j) T.host (T.start false) := by
    intro j
    refine ⟨fun x hx => (T.created.links x ?_).symm, by rw [T.created.route],
      T.created.nsOf.symm, by rw [T.created.nsOf]; exact T.lives j⟩
    rintro rfl
    exact T.bridge_not_inRegion j hx
  cases i with
  | false => exact hfirst false
  | true =>
      have hframe := (T.attach_frame false T.created.nsOf).1
      have ha := hfirst true
      refine ⟨fun x hx => ?_, ?_, (T.start_nsOf true).symm, by rw [T.start_nsOf]; exact T.lives true⟩
      · rw [T.second, hframe.links x (T.inRegion_ne (by simp) hx) (T.inRegion_ne_hostEth0 hx)]
        exact ha.links x hx
      · rw [T.second, hframe.route _ (T.ns_ne' (by simp))]
        exact ha.route

/-! ### The invariant -/

/-- How far a call has come: at its first command, with `l` still to do to make the bridge, or
past the bridge. -/
inductive Stage where
  | start
  | creating (l : List (Item NetCmd))
  | attaching (st : AttachStage)

/-- The stage of the call's own part. -/
def Stage.attach : Stage → AttachStage
  | .attaching st => st
  | _ => .before

/-- The program of call `i` in a stage. -/
def ThreadIn (i : Bool) (t : NetScript (CrCode × Container)) : Stage → Prop
  | .start => ∃ k, t = .exec (.linkShow T.bridge) k ∧
      Follows NetCmd.effect (fun r => Failed r.1) (.ok, T.call i) (k true)
        (attachItems (T.call i)) ∧
      (T.create ≠ [] → Follows NetCmd.effect (fun r => Failed r.1) (.ok, T.call i) (k false)
        (T.create ++ attachItems (T.call i)))
  | .creating l =>
      Follows NetCmd.effect (fun r => Failed r.1) (.ok, T.call i) t (l ++ attachItems (T.call i))
  | .attaching st =>
      Follows NetCmd.effect (fun r => Failed r.1) (.ok, T.call i) t (st.items (T.call i))

/-- The host `s` agrees with a host `u` of the sequence on the part of call `i`, in stage `st`
of it. -/
structure Alongside (i : Bool) (st : AttachStage) (s u : Host) : Prop where
  rest : execAll NetCmd.effect (st.items (T.call i)) u = some (T.finish i)
  holds : st.Holds (T.call i) s
  holds' : st.Holds (T.call i) u
  agree : AgreeOn (T.call i) (T.ns i) s u
  bridge : u.links.kindAt T.bridgeLoc = some .bridge
  eth0 : st.inWindow = true → s.links.lookup hostEth0 = u.links.lookup hostEth0

/-- How far the making of the bridge has come, with `l` still to do. -/
structure BridgeStage (s : Host) (stage : Bool → Stage) (l : List (Item NetCmd)) : Prop where
  /-- No call gets past a bridge that is not there. -/
  absent : s.link T.bridge = none → l = T.create ∧
    ∀ i, stage i = .start ∨ stage i = .creating l
  present : s.link T.bridge ≠ none → s.links.kindAt T.bridgeLoc = some .bridge ∧
    (l = [] ∨ ∃ i, stage i = .creating l)
  creating : ∀ i l', stage i = .creating l' → l' = l ∧ l ≠ [] ∧
    ∀ j l'', stage j = .creating l'' → j = i
  rest : ∃ v, execAll NetCmd.effect l v = some (T.start false) ∧
    s.link T.bridge = v.link T.bridge ∧ s.ipForward = v.ipForward
  cmds : ∀ x ∈ l, x ∈ T.create

/-- The commands of call `i` that are still to come once the bridge is there. -/
def todo (stage : Bool → Stage) (i : Bool) : List (Item NetCmd) :=
  (stage i).attach.items (T.call i)

/-- **The invariant** of a run of clear commands. -/
structure Going (p : SetupPool) (stage : Bool → Stage) (l : List (Item NetCmd)) : Prop where
  threads : ∀ i, T.ThreadIn i (p.threads i) (stage i)
  alongside : ∀ i, ∃ u, T.Alongside i (stage i).attach p.state u
  alone : ∀ i j, (stage i).attach.inWindow = true → (stage j).attach.inWindow = true → i = j
  eth0 : (∀ i, (stage i).attach.inWindow = false) → p.state.links.lookup hostEth0 = none
  bridge : T.BridgeStage p.state stage l
  links : ∀ x, (∀ i, ¬InRegion (T.call i) (T.ns i) x) → x ≠ hostEth0 → x ≠ T.bridgeLoc →
    p.state.links.lookup x = T.host.links.lookup x
  route : ∀ n, (∀ i, n ≠ T.ns i) → p.state.route n = T.host.route n
  nsOf : p.state.nsOf = T.host.nsOf
  rules : ∀ ch, (p.state.rules ch ++ (pending ch l ++
    (pending ch (T.todo stage false) ++ pending ch (T.todo stage true)))).Perm
      ((T.finish true).rules ch)

/-! ### What the threads are about to issue -/

theorem issues_of_follows {kind : NetCmd → Bool} {a : CrCode × Container}
    {t : NetScript (CrCode × Container)} {x : Item NetCmd} {rest : List (Item NetCmd)}
    (h : Follows NetCmd.effect (fun r => Failed r.1) a t (x :: rest)) (hx : kind x.cmd = true) :
    issues kind t = true := by
  unfold issues
  rw [h.head?_eq]
  exact hx

/-- A call in the window is about to issue one of the commands that hold `eth0`. -/
theorem issues_holdsEth0 {i : Bool} {st : AttachStage} {s : Host}
    {t : NetScript (CrCode × Container)} (hst : st.Holds (T.call i) s)
    (hin : st.inWindow = true)
    (h : Follows NetCmd.effect (fun r => Failed r.1) (.ok, T.call i) t (st.items (T.call i))) :
    issues (NetCmd.holdsEth0 (T.ids i)) t = true := by
  match st with
  | .before => simp [AttachStage.inWindow] at hin
  | .inside _ => simp [AttachStage.inWindow] at hin
  | .window [] => exact issues_of_follows h rfl
  | .window (x :: m) =>
      refine issues_of_follows h ?_
      have hx := hst.2 x (by simp)
      simp only [hostItems, List.mem_cons, List.not_mem_nil, or_false] at hx
      rcases hx with rfl | rfl
      · rfl
      · simp [NetCmd.holdsEth0, ids]

variable {T} {p : SetupPool} {stage : Bool → Stage} {l : List (Item NetCmd)}

/-- The threads after a turn: the one that had it, and the other. -/
theorem threadIn_update {threads : Bool → NetScript (CrCode × Container)}
    {t : NetScript (CrCode × Container)} {i : Bool} {next : Stage} (ht : T.ThreadIn i t next)
    (hthreads : ∀ j, T.ThreadIn j (threads j) (stage j)) (j : Bool) :
    T.ThreadIn j (Function.update threads i t j) (Function.update stage i next j) := by
  by_cases hji : j = i
  · subst hji
    rw [Function.update_self, Function.update_self]
    exact ht
  · rw [Function.update_of_ne hji, Function.update_of_ne hji]
    exact hthreads j

/-- A call that goes on and is no further in its own part. -/
theorem attach_update {i : Bool} {next : Stage} (hnext : next.attach = (stage i).attach)
    (j : Bool) : (Function.update stage i next j).attach = (stage j).attach := by
  by_cases hji : j = i
  · subst hji
    rw [Function.update_self]
    exact hnext
  · rw [Function.update_of_ne hji]

/-- While a call adds its pair, the other is not in the window. -/
theorem Going.not_inWindow (hI : T.Going p stage l) {i j : Bool} (hji : j ≠ i)
    (hclear : Clear T.ids p i = true) (hadds : issues NetCmd.addsPair (p.threads i) = true) :
    (stage j).attach.inWindow = false := by
  obtain rfl : j = !i := by cases i <;> cases j <;> simp_all
  by_contra hin
  rw [Bool.not_eq_false] at hin
  obtain ⟨u, hu⟩ := hI.alongside (!i)
  have hthread := hI.threads (!i)
  cases hstage : stage (!i) with
  | start => rw [hstage] at hin; simp [Stage.attach, AttachStage.inWindow] at hin
  | creating l' => rw [hstage] at hin; simp [Stage.attach, AttachStage.inWindow] at hin
  | attaching st =>
      rw [hstage] at hin hthread hu
      have hissues := T.issues_holdsEth0 hu.holds hin hthread
      simp [Clear, hadds, hissues] at hclear

/-- A call past the bridge has found one. -/
theorem Going.bridge_there (hI : T.Going p stage l) {i : Bool} {st : AttachStage}
    (hstage : stage i = .attaching st) : p.state.links.kindAt T.bridgeLoc = some .bridge := by
  refine (hI.bridge.present fun habsent => ?_).1
  rcases (hI.bridge.absent habsent).2 i with h | h
  · rw [hstage] at h
    simp at h
  · rw [hstage] at h
    simp at h

/-! ### A command of a call's own part -/

/-- What the other call holds is not touched by a change that leaves the host's `eth0` alone. -/
theorem holds_congr {c : Container} {st : AttachStage} {s s' : Host}
    (heth : st.inWindow = true → s'.links.lookup hostEth0 = s.links.lookup hostEth0)
    (h : st.Holds c s) : st.Holds c s' := by
  match st with
  | .before => trivial
  | .window m => exact ⟨(heth rfl).trans h.1, h.2⟩
  | .inside l => exact h

/-- A call that is past the bridge has no part in making it. -/
theorem BridgeStage.frame {s s' : Host} (hB : T.BridgeStage s stage l) {i : Bool}
    {st st' : AttachStage} (hstage : stage i = .attaching st)
    (hlink : s'.links.lookup T.bridgeLoc = s.links.lookup T.bridgeLoc)
    (hforward : s'.ipForward = s.ipForward) :
    T.BridgeStage s' (Function.update stage i (.attaching st')) l := by
  have hsame : s'.link T.bridge = s.link T.bridge := hlink
  have hcreating : ∀ k l', Function.update stage i (.attaching st') k = .creating l' →
      stage k = .creating l' := by
    intro k l' h
    by_cases hk : k = i
    · subst hk
      simp at h
    · rwa [Function.update_of_ne hk] at h
  refine ⟨fun habsent => ?_, fun hpresent => ?_, fun k l' hk => ?_, ?_, hB.cmds⟩
  · rcases (hB.absent (hsame ▸ habsent)).2 i with h | h
    · rw [hstage] at h
      simp at h
    · rw [hstage] at h
      simp at h
  · obtain ⟨hkind, hmade⟩ := hB.present (hsame ▸ hpresent)
    refine ⟨(LinkTable.kindAt_congr hlink).trans hkind, hmade.imp_right fun ⟨k, hk⟩ => ⟨k, ?_⟩⟩
    rw [Function.update_of_ne]
    · exact hk
    · rintro rfl
      rw [hstage] at hk
      simp at hk
  · obtain ⟨hl, hne, hone⟩ := hB.creating k l' (hcreating k l' hk)
    exact ⟨hl, hne, fun j l'' hj => hone j l'' (hcreating j l'' hj)⟩
  · obtain ⟨v, hv, hlinkv, hforwardv⟩ := hB.rest
    exact ⟨v, hv, hsame.trans hlinkv, hforward.trans hforwardv⟩

/-- The rules that are still to come, after call `i` has appended those of a command. -/
theorem Going.rules_step (hI : T.Going p stage l) {i : Bool} {x : Item NetCmd}
    {rest : List (Item NetCmd)} (hitems : T.todo stage i = x :: rest) {next : Stage}
    (hnext : next.attach.items (T.call i) = rest) {s' : Host} {ch : Chain}
    (hs : s'.rules ch = p.state.rules ch ++ onChain ch x.cmd.appended) :
    (s'.rules ch ++ (pending ch l ++ (pending ch (T.todo (Function.update stage i next) false) ++
      pending ch (T.todo (Function.update stage i next) true)))).Perm ((T.finish true).rules ch) := by
  have hmine : T.todo (Function.update stage i next) i = rest := by
    unfold todo
    rw [Function.update_self]
    exact hnext
  have hother : T.todo (Function.update stage i next) (!i) = T.todo stage (!i) := by
    unfold todo
    rw [Function.update_of_ne (by simp)]
  refine List.Perm.trans (List.perm_iff_count.mpr fun r => ?_) (hI.rules ch)
  cases i with
  | false =>
      rw [hs, hmine, show T.todo (Function.update stage false next) true = _ from hother, hitems,
        pending_cons]
      simp only [List.count_append, Bool.not_false]
      omega
  | true =>
      rw [hs, hmine, show T.todo (Function.update stage true next) false = _ from hother, hitems,
        pending_cons]
      simp only [List.count_append, Bool.not_true]
      omega

/-- Past the window a call does not get back into it. -/
theorem AttachStage.next_inside_out (c : Container) (l' : List (Item NetCmd)) :
    (AttachStage.next c (.inside l')).inWindow = false := by
  cases l' with
  | nil => rfl
  | cons _ _ => rfl

/-- The other call is in the window only while this one is past its own. -/
theorem Going.inside_of_other (hI : T.Going p stage l) {i : Bool} {st : AttachStage}
    (hstage : stage i = .attaching st) (hclear : Clear T.ids p i = true) {x : Item NetCmd}
    {rest : List (Item NetCmd)} (hitems : st.items (T.call i) = x :: rest) {j : Bool} (hji : j ≠ i)
    (hj : (stage j).attach.inWindow = true) : ∃ l', st = .inside l' := by
  cases st with
  | before =>
      have hthread := hI.threads i
      rw [hstage] at hthread
      change Follows _ _ _ _ (AttachStage.before.items (T.call i)) at hthread
      have hadds : issues NetCmd.addsPair (p.threads i) = true := by
        rw [hitems] at hthread
        obtain ⟨rfl, -⟩ := List.cons.inj hitems
        exact issues_of_follows hthread rfl
      rw [hI.not_inWindow hji hclear hadds] at hj
      simp at hj
  | window m => exact absurd (hI.alone j i hj (by rw [hstage]; rfl)) hji
  | inside l' => exact ⟨l', rfl⟩

/-- Up to the end of its window a call finds `eth0` on the host as in its sequence. -/
theorem Going.eth0_alike (hI : T.Going p stage l) {i : Bool} {st : AttachStage} {u : Host}
    (hstage : stage i = .attaching st) (hu : T.Alongside i st p.state u)
    (hother : ∀ j, j ≠ i → (stage j).attach.inWindow = true → ∃ l', st = .inside l')
    (hnot : ∀ l', st ≠ .inside l') :
    p.state.links.lookup hostEth0 = u.links.lookup hostEth0 := by
  by_cases hin : st.inWindow = true
  · exact hu.eth0 hin
  · have hbefore : st = .before := by
      cases st with
      | before => rfl
      | window m => simp [AttachStage.inWindow] at hin
      | inside l' => exact absurd rfl (hnot l')
    subst hbefore
    rw [(attach_needs hu.rest).1]
    refine hI.eth0 fun j => ?_
    by_cases hji : j = i
    · subst hji
      rw [hstage]
      rfl
    · by_contra hj
      obtain ⟨l', hl'⟩ := hother j hji (by simpa using hj)
      simp at hl'

/-- A call that comes into its window, or stays in it, finds the other one out of its own. -/
theorem Going.alone_step (hI : T.Going p stage l) {i : Bool} {st st' : AttachStage}
    (hother : ∀ j, j ≠ i → (stage j).attach.inWindow = true → ∃ l', st = .inside l')
    (hnextIn : st'.inWindow = true → ∀ l', st ≠ .inside l') {j k : Bool}
    (hj : (Function.update stage i (.attaching st') j).attach.inWindow = true)
    (hk : (Function.update stage i (.attaching st') k).attach.inWindow = true) : j = k := by
  by_cases hji : j = i
  · subst hji
    by_cases hkj : k = j
    · exact hkj.symm
    · rw [Function.update_self] at hj
      rw [Function.update_of_ne hkj] at hk
      obtain ⟨l', hl'⟩ := hother k hkj hk
      exact absurd hl' (hnextIn hj l')
  · rw [Function.update_of_ne hji] at hj
    by_cases hki : k = i
    · subst hki
      rw [Function.update_self] at hk
      obtain ⟨l', hl'⟩ := hother j hji hj
      exact absurd hl' (hnextIn hk l')
    · rw [Function.update_of_ne hki] at hk
      exact hI.alone j k hj hk

/-- **A command of a call's own part** keeps the invariant. -/
theorem Going.attach_step (hI : T.Going p stage l) {i : Bool} {st : AttachStage}
    (hstage : stage i = .attaching st) (hclear : Clear T.ids p i = true) {x : Item NetCmd}
    {rest : List (Item NetCmd)} (hitems : st.items (T.call i) = x :: rest) :
    T.Going (turn p i) (Function.update stage i (.attaching (st.next (T.call i)))) l := by
  have hthread : Follows NetCmd.effect (fun r => Failed r.1) (.ok, T.call i) (p.threads i)
      (st.items (T.call i)) := by
    have := hI.threads i
    rwa [hstage] at this
  rw [hitems] at hthread
  obtain ⟨u, hu⟩ := hI.alongside i
  rw [hstage] at hu
  replace hu : T.Alongside i st p.state u := hu
  have hlives : p.state.nsOf (T.call i).initPid = some (T.ns i) := by
    rw [hu.agree.nsOf]; exact hu.agree.lives
  have hother : ∀ j, j ≠ i → (stage j).attach.inWindow = true → ∃ l', st = .inside l' :=
    fun j hji hj => hI.inside_of_other hstage hclear hitems hji hj
  have heth : (∀ l', st ≠ .inside l') →
      p.state.links.lookup hostEth0 = u.links.lookup hostEth0 := hI.eth0_alike hstage hu hother
  obtain ⟨u', hxu, hrestu⟩ := (Script.execAll_cons _).mp (hitems ▸ hu.rest)
  have hreads := AttachStage.sameReads hu.holds hu.agree
    (by rw [T.bridgeName i]; exact (hI.bridge_there hstage).trans hu.bridge.symm) heth hitems
  obtain ⟨s', hxs, hm⟩ := exec_mirrors hreads hxu
  obtain ⟨t, ht, hturn⟩ := Pool.step_follows hthread hxs
  obtain ⟨hnext, hframe, hnone⟩ := AttachStage.step (T.ns_ne_host i) hlives hu.holds hitems hxs
  obtain ⟨hnext', hframe', -⟩ := AttachStage.step (T.ns_ne_host i) hu.agree.lives hu.holds' hitems hxu
  -- the host's `eth0` is another call's only when this command leaves it alone
  have hquiet : ∀ j, j ≠ i → (stage j).attach.inWindow = true →
      s'.links.lookup hostEth0 = p.state.links.lookup hostEth0 := by
    intro j hji hj
    obtain ⟨l', rfl⟩ := hother j hji hj
    exact hnone (AttachStage.next_inside_out (T.call i) l')
  have hnextIn : (st.next (T.call i)).inWindow = true → ∀ l', st ≠ .inside l' := by
    intro hin l' heq
    subst heq
    rw [AttachStage.next_inside_out] at hin
    simp at hin
  rw [show turn p i = _ from hturn]
  have hbr : s'.links.lookup T.bridgeLoc = p.state.links.lookup T.bridgeLoc :=
    hframe.links _ (T.bridge_not_inRegion i) T.bridge_ne_hostEth0
  refine ⟨fun j => ?_, fun j => ?_, fun j k hj hk => ?_, fun hall => ?_,
    hI.bridge.frame hstage hbr hframe.ipForward, fun y hy hy' hyb => ?_, fun n hn => ?_,
    hframe.nsOf.trans hI.nsOf, fun ch => ?_⟩
  · refine threadIn_update ?_ hI.threads j
    show Follows _ _ _ t ((st.next (T.call i)).items (T.call i))
    rwa [AttachStage.items_next hitems]
  · by_cases hji : j = i
    · subst hji
      rw [Function.update_self]
      refine ⟨u', ?_, hnext, hnext', hu.agree.step hm hframe.nsOf hframe'.nsOf, ?_, fun hin => ?_⟩
      · show execAll NetCmd.effect ((st.next (T.call j)).items (T.call j)) u' = _
        rwa [AttachStage.items_next hitems]
      · rw [LinkTable.kindAt_congr
          (hframe'.links _ (T.bridge_not_inRegion j) T.bridge_ne_hostEth0)]
        exact hu.bridge
      · exact hm.links _ (heth (hnextIn hin))
    · rw [Function.update_of_ne hji]
      obtain ⟨v, hv⟩ := hI.alongside j
      refine ⟨v, hv.rest, holds_congr (hquiet j hji) hv.holds, hv.holds', hv.agree.frame ?_ ?_ ?_,
        hv.bridge, fun hin => (hquiet j hji hin).trans (hv.eth0 hin)⟩
      · intro y hy
        exact hframe.links y (T.inRegion_ne hji hy) (T.inRegion_ne_hostEth0 hy)
      · exact hframe.route _ (T.ns_ne' hji)
      · exact hframe.nsOf
  · exact hI.alone_step hother hnextIn hj hk
  · have hout := hall i
    rw [Function.update_self] at hout
    rw [hnone hout]
    by_cases hin : st.inWindow = true
    · rw [if_pos hin]
    · rw [if_neg hin]
      refine hI.eth0 fun j => ?_
      by_cases hji : j = i
      · subst hji
        rw [hstage]
        exact Bool.not_eq_true _ ▸ hin
      · have := hall j
        rwa [Function.update_of_ne hji] at this
  · exact (hframe.links y (hy i) hy').trans (hI.links y hy hy' hyb)
  · exact (hframe.route n (hn i)).trans (hI.route n hn)
  · refine hI.rules_step ?_ (AttachStage.items_next hitems) (exec_rules hxs ?_ ch)
    · unfold todo
      rw [hstage]
      exact hitems
    · intro r heq
      rw [heq] at hreads
      exact hreads

/-! ### A command that makes the bridge -/

/-- The stage of a call with `l` still to do on the bridge. -/
def afterCreating : List (Item NetCmd) → Stage
  | [] => .attaching .before
  | l => .creating l

theorem afterCreating_attach (l : List (Item NetCmd)) : (afterCreating l).attach = .before := by
  cases l <;> rfl

/-- Whatever it does, a command that makes the bridge leaves a bridge behind. -/
theorem BridgeStage.kind_step {s s' : Host} {x : Item NetCmd} {rest : List (Item NetCmd)}
    (hB : T.BridgeStage s stage (x :: rest)) (hx : x.exec NetCmd.effect s = some s') :
    s'.links.kindAt T.bridgeLoc = some .bridge := by
  by_cases habsent : s.link T.bridge = none
  · -- the first of the commands adds it
    obtain ⟨hl, -⟩ := hB.absent habsent
    obtain ⟨rest', hhead⟩ := T.create_head (by rw [← hl]; simp)
    obtain ⟨rfl, -⟩ := List.cons.inj (hl.trans hhead)
    obtain ⟨t, ht, rfl⟩ := Option.map_eq_some_iff.mp hx
    refine LinkTable.kindAt_eq_some.mpr ⟨⟨.bridge, .fresh⟩, ?_, rfl⟩
    rw [Host.setLinks_links, (LinkTable.addBridge_eq_some ht).2]
    exact if_pos rfl
  · have hkind := (hB.present habsent).1
    have hcmd := T.create_cmds (hB.cmds x (by simp))
    rcases exec_cases hx with hs | ⟨-, rfl⟩
    · have hkeeps : x.cmd.KeepsKinds := by
        cases hc : x.cmd <;> rw [hc] at hcmd hs <;> cases hcmd
        case linkAddBridge =>
            obtain ⟨t, ht, -⟩ := Option.map_eq_some_iff.mp hs
            exact absurd (LinkTable.addBridge_eq_some ht).1 habsent
        all_goals exact trivial
      rw [effect_keepsKinds hs hkeeps]
      exact hkind
    · exact hkind

/-- **A command that makes the bridge** keeps the invariant. -/
theorem Going.create_step {x : Item NetCmd} {rest : List (Item NetCmd)}
    (hI : T.Going p stage (x :: rest)) {i : Bool} (hstage : stage i = .creating (x :: rest)) :
    T.Going (turn p i) (Function.update stage i (afterCreating rest)) rest := by
  have hthread : Follows NetCmd.effect (fun r => Failed r.1) (.ok, T.call i) (p.threads i)
      (x :: (rest ++ attachItems (T.call i))) := by
    have := hI.threads i
    rwa [hstage] at this
  have hcmd := T.create_cmds (hI.bridge.cmds x (by simp))
  obtain ⟨v, hv, hlink, hforward⟩ := hI.bridge.rest
  obtain ⟨v', hxv, hrestv⟩ := (Script.execAll_cons _).mp hv
  have hreads := hcmd.sameReads hlink
  obtain ⟨s', hxs, hm⟩ := exec_mirrors hreads hxv
  obtain ⟨t, ht, hturn⟩ := Pool.step_follows hthread hxs
  have honly := hcmd.only hxs
  have hkind := hI.bridge.kind_step hxs
  have hthere : s'.link T.bridge ≠ none := LinkTable.lookup_ne_none hkind
  have heth : s'.links.lookup hostEth0 = p.state.links.lookup hostEth0 :=
    honly.links _ T.bridge_ne_hostEth0.symm
  -- the call is before its own part, and stays there
  have hattach := @attach_update stage i (afterCreating rest)
    (by rw [afterCreating_attach, hstage]; rfl)
  have hcreating : ∀ k l', Function.update stage i (afterCreating rest) k = .creating l' →
      k = i ∧ l' = rest ∧ rest ≠ [] := by
    intro k l' hk
    by_cases hki : k = i
    · subst hki
      rw [Function.update_self] at hk
      cases rest with
      | nil => simp [afterCreating] at hk
      | cons y rest' => exact ⟨rfl, (Stage.creating.inj hk).symm, by simp⟩
    · rw [Function.update_of_ne hki] at hk
      exact absurd ((hI.bridge.creating i _ hstage).2.2 k l' hk) hki
  rw [show turn p i = _ from hturn]
  refine ⟨fun j => ?_, fun j => ?_, fun j k => ?_, fun hall => ?_,
    ⟨fun habsent => absurd habsent hthere, fun _ => ⟨hkind, ?_⟩, fun k l' hk => ?_,
      ⟨v', hrestv, hm.links _ hlink, hm.ipForward hforward⟩,
      fun y hy => hI.bridge.cmds y (by simp [hy])⟩,
    fun y hy hy' hyb => ?_, fun n hn => ?_, honly.nsOf.trans hI.nsOf, fun ch => ?_⟩
  · refine threadIn_update ?_ hI.threads j
    cases rest with
    | nil => exact ht
    | cons y rest' => exact ht
  · rw [hattach]
    obtain ⟨u, hu⟩ := hI.alongside j
    refine ⟨u, hu.rest, holds_congr (fun _ => heth) hu.holds, hu.holds',
      hu.agree.frame (fun y hy => honly.links y ?_) (by rw [honly.route]) honly.nsOf, hu.bridge,
      fun hin => heth.trans (hu.eth0 hin)⟩
    rintro rfl
    exact T.bridge_not_inRegion j hy
  · rw [hattach, hattach]
    exact hI.alone j k
  · refine heth.trans (hI.eth0 fun j => ?_)
    rw [← hattach]
    exact hall j
  · cases rest with
    | nil => exact Or.inl rfl
    | cons y rest' => exact Or.inr ⟨i, by rw [Function.update_self]; rfl⟩
  · obtain ⟨rfl, rfl, hne⟩ := hcreating k l' hk
    exact ⟨rfl, hne, fun j l'' hj => (hcreating j l'' hj).1⟩
  · exact (honly.links y hyb).trans (hI.links y hy hy' hyb)
  · rw [honly.route]
    exact hI.route n hn
  · have htodo : ∀ j, T.todo (Function.update stage i (afterCreating rest)) j = T.todo stage j := by
      intro j
      unfold todo
      rw [hattach]
    have hadds : ∀ r, x.cmd ≠ .deleteRule r := by
      intro r heq
      rw [heq] at hreads
      exact hreads
    have hrules := exec_rules hxs hadds ch
    refine List.Perm.trans (List.perm_iff_count.mpr fun r => ?_) (hI.rules ch)
    rw [htodo, htodo, pending_cons, hrules]
    simp only [List.count_append]
    omega

/-! ### The look for the bridge -/

/-- A call that goes on without having touched the host. -/
theorem Going.move_on (hI : T.Going p stage l) {i : Bool} {next : Stage}
    {t : NetScript (CrCode × Container)} (hstage : stage i = .start)
    (hnext : next.attach = .before) (ht : T.ThreadIn i t next)
    (hB : T.BridgeStage p.state (Function.update stage i next) l) :
    T.Going ⟨p.state, Function.update p.threads i t⟩ (Function.update stage i next) l := by
  have hattach := @attach_update stage i next (by rw [hnext, hstage]; rfl)
  refine ⟨fun j => ?_, fun j => hattach j ▸ hI.alongside j, fun j k => ?_, fun hall => ?_, hB,
    hI.links, hI.route, hI.nsOf, fun ch => ?_⟩
  · exact threadIn_update ht hI.threads j
  · rw [hattach, hattach]
    exact hI.alone j k
  · exact hI.eth0 fun j => hattach j ▸ hall j
  · unfold todo
    rw [hattach, hattach]
    exact hI.rules ch

/-- **The look for the bridge** keeps the invariant. -/
theorem Going.start_step (hI : T.Going p stage l) {i : Bool} (hstage : stage i = .start)
    (hclear : Clear T.ids p i = true) :
    ∃ stage', T.Going (turn p i) stage' l := by
  obtain ⟨k, hk, htrue, hfalse⟩ : T.ThreadIn i (p.threads i) .start := by
    rw [← hstage]
    exact hI.threads i
  have hturn := Pool.step_exec NetCmd.effect hk false
  by_cases habsent : p.state.link T.bridge = none
  · -- no bridge: the call goes on to make one
    obtain ⟨rfl, hstages⟩ := hI.bridge.absent habsent
    rw [Script.attempt_none _ (by simp [NetCmd.effect, habsent])] at hturn
    have hne : T.create ≠ [] := by
      intro hnil
      obtain ⟨v, hv, hlink, -⟩ := hI.bridge.rest
      rw [hnil] at hv
      obtain rfl : v = T.start false := Option.some.inj hv
      exact LinkTable.lookup_ne_none (T.start_bridge false) (hlink.symm.trans habsent)
    have hother : ∀ j, j ≠ i → ∀ l', stage j ≠ .creating l' := by
      intro j hji l' hj
      obtain rfl : j = !i := by cases i <;> cases j <;> simp_all
      obtain ⟨rest, hhead⟩ := T.create_head hne
      obtain ⟨rfl, -⟩ := hI.bridge.creating _ l' hj
      have hthread := hI.threads (!i)
      rw [hj] at hthread
      have hadds : issues NetCmd.addsBridge (p.threads (!i)) = true := by
        unfold ThreadIn at hthread
        simp only [hhead, List.cons_append] at hthread
        exact issues_of_follows hthread rfl
      have hlooks : issues NetCmd.looksForBridge (p.threads i) = true := by
        rw [hk]
        rfl
      simp [Clear, hadds, hlooks] at hclear
    refine ⟨Function.update stage i (.creating T.create),
      (show turn p i = _ from hturn) ▸ hI.move_on hstage rfl (hfalse hne) ?_⟩
    refine ⟨fun _ => ⟨rfl, fun j => ?_⟩, fun hpresent => absurd habsent hpresent,
      fun j l' hj => ?_, hI.bridge.rest, hI.bridge.cmds⟩
    · by_cases hji : j = i
      · subst hji
        exact Or.inr (Function.update_self _ _ _)
      · rw [Function.update_of_ne hji]
        exact hstages j
    · have hmine : ∀ m l'', Function.update stage i (.creating T.create) m = .creating l'' → m = i := by
        intro m l'' hm
        by_contra hmi
        rw [Function.update_of_ne hmi] at hm
        exact hother m hmi l'' hm
      obtain rfl := hmine j l' hj
      rw [Function.update_self] at hj
      exact ⟨(Stage.creating.inj hj).symm, hne, hmine⟩
  · -- the bridge is there: the call goes on to its own part
    have hsome : NetCmd.effect (.linkShow T.bridge) p.state = some p.state := by
      simp [NetCmd.effect, Option.isSome_iff_ne_none, habsent]
    rw [Script.attempt_some _ hsome] at hturn
    refine ⟨Function.update stage i (.attaching .before),
      (show turn p i = _ from hturn) ▸ hI.move_on hstage rfl htrue ?_⟩
    have hcreating : ∀ j l', Function.update stage i (.attaching .before) j = .creating l' ↔
        stage j = .creating l' := by
      intro j l'
      by_cases hji : j = i
      · subst hji
        simp [hstage]
      · rw [Function.update_of_ne hji]
    refine ⟨fun hnone => absurd hnone habsent, fun hpresent => ?_, fun j l' hj => ?_,
      hI.bridge.rest, hI.bridge.cmds⟩
    · obtain ⟨hkind, hmade⟩ := hI.bridge.present hpresent
      refine ⟨hkind, hmade.imp_right fun hmaking => ?_⟩
      obtain ⟨j, hj⟩ := hmaking
      exact ⟨j, (hcreating j l).mpr hj⟩
    · obtain ⟨hl, hne, hone⟩ := hI.bridge.creating j l' ((hcreating j l').mp hj)
      exact ⟨hl, hne, fun m l'' hm => hone m l'' ((hcreating m l'').mp hm)⟩

/-- **One clear command of either call** keeps the invariant. -/
theorem Going.step (hI : T.Going p stage l) {i : Bool} (hclear : Clear T.ids p i = true) :
    ∃ stage' l', T.Going (turn p i) stage' l' := by
  cases hstage : stage i with
  | start =>
      obtain ⟨stage', h⟩ := hI.start_step hstage hclear
      exact ⟨stage', l, h⟩
  | creating l' =>
      obtain ⟨rfl, hne, -⟩ := hI.bridge.creating i l' hstage
      cases l' with
      | nil => exact absurd rfl hne
      | cons x rest => exact ⟨_, rest, hI.create_step hstage⟩
  | attaching st =>
      cases hitems : st.items (T.call i) with
      | cons x rest => exact ⟨_, l, hI.attach_step hstage hclear hitems⟩
      | nil =>
          have hthread := hI.threads i
          rw [hstage] at hthread
          unfold ThreadIn at hthread
          simp only [hitems] at hthread
          have hidle : turn p i = p :=
            Pool.step_ret NetCmd.effect (Pool.ret_of_follows_nil hthread) false
          rw [hidle]
          exact ⟨stage, l, hI⟩

end TwoSetups

end Cruntime
