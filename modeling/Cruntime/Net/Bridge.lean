/-
What a bridge is when `network_create_bridge` says that it is there.

A call that finds the bridge returns `CR_OK` without looking at it, so a successful
call promises no more than the calls before it left behind.  A call that stops
between `ip link add` and `ip link set up`, and a deletion that takes the bridge
down and then fails to delete it, leave a bridge that a later call takes as it is;
so does a later call with another subnet.

The condition `BridgeRun.Meets` on every call of a run rules out exactly those steps.
It speaks of the calls, of the commands made to fail and of the subnet the bridge was
last created with, which a run carries along.  It also asks for names and subnets that reach
`ip` as they are meant: a name the shell does not read as anything else, a prefix length
`ip` takes, and a gateway other than `0.0.0.0`, which it takes and does not add.
`Standing` is the invariant it buys: the bridge is absent, or it is up with the gateway of
that subnet.
-/
import Cruntime.Lib.Runs
import Cruntime.Lib.ShellFields
import Cruntime.Net.Network

namespace Cruntime

open Script (run)

/-! ### What a configured bridge is -/

/-- The address a bridge should carry: the first one of the subnet, with its prefix. -/
def gatewayCidr (subnet : CStr) : Option CStr :=
  match strchr subnet '/' with
  | some (network, pfx) => (inetPton network).map fun a => inetNtop (a + 1) ++ '/' :: pfx
  | none => none

/-- A subnet as it should be written, `A/P`. -/
def subnetCidr (subnet : CStr) : Option Cidr :=
  if '/' ∈ subnet then readCidr subnet else none

/-- A subnet whose first address is one that a device can be given. -/
def HasGateway (subnet : CStr) : Prop := ∃ c, subnetCidr subnet = some c ∧ c.addr + 1 ≠ 0

instance (subnet : CStr) : Decidable (HasGateway subnet) :=
  match h : subnetCidr subnet with
  | none => isFalse fun ⟨c, hc, _⟩ => by simp [h] at hc
  | some c => decidable_of_iff (c.addr + 1 ≠ 0)
      ⟨fun hc => ⟨c, h, hc⟩, fun ⟨d, hd, hd'⟩ => by
        obtain rfl := Option.some.inj (h.symm.trans hd); exact hd'⟩

/-- Bridge `b` exists, is up and carries the gateway of `subnet` with its prefix. -/
def Configured (b subnet : CStr) (h : Host) : Prop :=
  ∃ l addr, h.link b = some l ∧ l.kind = .bridge ∧ l.dev.up = true ∧
    gatewayCidr subnet = some addr ∧ addr ∈ l.dev.addrs

/-! ### Runs of creations and deletions -/

inductive BridgeCall where
  | create (subnet : CStr) (stack : Addr)
  | delete

namespace BridgeCall

def script (b : CStr) : BridgeCall → NetScript CrCode
  | .create subnet stack => networkCreateBridge b subnet stack
  | .delete => networkDeleteBridge b

end BridgeCall

/-- A world, and the subnet the bridge was created with, if there is one. -/
structure BridgeRun where
  world : World Host
  cur : Option CStr

namespace BridgeRun

/-- The bridge is created, or deleted, when the link is absent, or present, and the
second command of the call is not made to fail. -/
def step (b : CStr) (s : BridgeRun) (call : BridgeCall) : BridgeRun where
  world := (run NetCmd.effect (call.script b) s.world).2
  cur := match call with
    | .create subnet _ =>
        if s.world.state.link b = none ∧ s.world.faults 1 = false then some subnet else s.cur
    | .delete => if s.world.state.link b ≠ none ∧ s.world.faults 1 = false then none else s.cur

/-- What a call must not run into.  `faults 0` is the check of a creation and the
`down` of a deletion, `faults 1` its `link add` and `link delete`, `faults 2` and
`faults 3` are the `addr add` and the `up`. -/
def Meets (b : CStr) (s : BridgeRun) : BridgeCall → Prop
  | .create subnet _ =>
      Shell.Literal b ∧
      (s.world.state.link b ≠ none → s.world.faults 0 = false → s.cur = some subnet) ∧
      (s.world.state.link b = none → s.world.faults 1 = false →
        subnet.length < 64 ∧ HasGateway subnet ∧
          s.world.faults 2 = false ∧ s.world.faults 3 = false)
  | .delete =>
      s.world.state.link b ≠ none → s.world.faults 0 = false → s.world.faults 1 = false

instance (b : CStr) (s : BridgeRun) : (call : BridgeCall) → Decidable (s.Meets b call)
  | .create subnet _ => inferInstanceAs (Decidable
      (Shell.Literal b ∧
        (s.world.state.link b ≠ none → s.world.faults 0 = false → s.cur = some subnet) ∧
        (s.world.state.link b = none → s.world.faults 1 = false →
          subnet.length < 64 ∧ HasGateway subnet ∧
            s.world.faults 2 = false ∧ s.world.faults 3 = false)))
  | .delete => inferInstanceAs (Decidable
      (s.world.state.link b ≠ none → s.world.faults 0 = false → s.world.faults 1 = false))

end BridgeRun

/-- The invariant: no bridge, or one configured for the subnet it was created with. -/
def Standing (b : CStr) (cur : Option CStr) (h : Host) : Prop :=
  match cur with
  | none => h.link b = none
  | some subnet => Configured b subnet h

/-! ### One creation -/

theorem subnetCidr_eq_some {subnet : CStr} {c : Cidr} (h : subnetCidr subnet = some c) :
    ∃ network pfx, strchr subnet '/' = some (network, pfx) ∧ inetPton network = some c.addr ∧
      readPrefix pfx = some c.len := by
  unfold subnetCidr at h
  split_ifs at h with hslash
  unfold readCidr at h
  split at h
  · rename_i hcut
    exact absurd hslash (strchr_eq_none.mp hcut)
  · rename_i network pfx hcut
    obtain ⟨a, ha, h⟩ := Option.bind_eq_some_iff.mp h
    obtain ⟨p, hp, rfl⟩ := Option.map_eq_some_iff.mp h
    exact ⟨network, pfx, hcut, ha, hp⟩

/-- The end of `network_create_bridge`: the forwarding switch and the rules. -/
def bridgeTail (b subnet : CStr) : NetScript CrCode := do
  let _ ← Script.issue .sysctlForward
  let _ ← Script.issue (.appendRule (.masquerade subnet b))
  let _ ← Script.issue (.appendRule (.acceptBridge b))
  let _ ← Script.issue (.appendRule (.acceptReplies b))
  return .ok

/-- The forwarding switch and the rules are written last, and leave the links alone. -/
theorem bridgeTail_links (b subnet : CStr) (s : Host) :
    Script.wp NetCmd.effect (bridgeTail b subnet) (fun _ s' => s'.links = s.links) s := by
  refine Script.wp_of_uses (p := fun c => c = .sysctlForward ∨ ∃ r, c = .appendRule r)
    NetCmd.effect (I := fun h => h.links = s.links) ?_ ?_ s rfl
  · rintro c (rfl | ⟨r, rfl⟩) t t' ht hI
    · obtain rfl : { t with ipForward := true } = t' := by simpa [NetCmd.effect] using ht
      exact hI
    · obtain rfl : t.setRules r.chain (t.rules r.chain ++ [r]) = t' := by
        simpa [NetCmd.effect] using ht
      exact hI
  · simp [bridgeTail, Script.issue_bind]

theorem createBridge_tail (b subnet : CStr) (w : World Host) :
    (run NetCmd.effect (bridgeTail b subnet) w).2.state.links = w.state.links :=
  Script.wp_run NetCmd.effect w (bridgeTail_links b subnet w.state)

/-- The rules a creation appends to a list. -/
def bridgeRules (b subnet : CStr) : Chain → List Rule
  | .prerouting => []
  | .postrouting => [.masquerade subnet b]
  | .forward => [.acceptBridge b, .acceptReplies b]

/-- The end of a creation when nothing is refused. -/
theorem bridgeTail_calm (b subnet : CStr) (h : Host) :
    ∃ h', run NetCmd.effect (bridgeTail b subnet) (.calm h) = (.ok, .calm h') ∧
      h'.links = h.links ∧ ∀ ch, h'.rules ch = h.rules ch ++ bridgeRules b subnet ch := by
  refine ⟨_, rfl, rfl, fun ch => ?_⟩
  cases ch with
  | prerouting => exact (List.append_nil _).symm
  | postrouting => rfl
  | forward => exact List.append_assoc _ [_] [_]

/-- A creation that finds the bridge returns `CR_OK` at once and changes nothing. -/
theorem createBridge_found {b : CStr} {w : World Host} (subnet : CStr) (stack : Addr)
    (hb : w.state.link b ≠ none) (hf : w.faults 0 = false) :
    run NetCmd.effect (networkCreateBridge b subnet stack) w = (.ok, w.next w.state) := by
  have hshow : NetCmd.effect (.linkShow b) w.state = some w.state := by
    simp [NetCmd.effect, Option.isSome_iff_ne_none, hb]
  unfold networkCreateBridge
  simp only [Script.issue_bind]
  rw [Script.run_exec_of_some _ hf hshow]
  rfl

/-- A creation on a host that has the bridge finds it, or fails and changes nothing. -/
theorem createBridge_present {b : CStr} {w : World Host} (subnet : CStr) (stack : Addr)
    (hb : w.state.link b ≠ none) :
    (w.faults 0 = false ∧ run NetCmd.effect (networkCreateBridge b subnet stack) w
        = (.ok, w.next w.state)) ∨
      ((run NetCmd.effect (networkCreateBridge b subnet stack) w).1 = .error ∧
        (run NetCmd.effect (networkCreateBridge b subnet stack) w).2.state = w.state) := by
  have hadd : NetCmd.effect (.linkAddBridge b) w.state = none := by
    simp [NetCmd.effect, LinkTable.addBridge_eq_none.mpr hb]
  cases hf : w.faults 0 with
  | false => exact Or.inl ⟨rfl, createBridge_found subnet stack hb hf⟩
  | true =>
      right
      unfold networkCreateBridge
      simp only [Script.issue_bind]
      rw [Script.run_exec_of_fault _ hf]
      simp only [if_neg, Bool.false_eq_true, not_false_eq_true]
      rw [Script.run_exec_of_none (w := w.next w.state) _ hadd]
      exact ⟨rfl, rfl⟩

/-- A creation whose `link add` fails changes nothing. -/
theorem createBridge_refused {b : CStr} {w : World Host} (subnet : CStr) (stack : Addr)
    (hb : w.state.link b = none) (hf : w.faults 1 = true) :
    (run NetCmd.effect (networkCreateBridge b subnet stack) w).1 = .error ∧
      (run NetCmd.effect (networkCreateBridge b subnet stack) w).2.state = w.state := by
  have hshow : NetCmd.effect (.linkShow b) w.state = none := by
    simp [NetCmd.effect, hb]
  unfold networkCreateBridge
  simp only [Script.issue_bind]
  rw [Script.run_exec_of_none _ hshow]
  simp only [if_neg, Bool.false_eq_true, not_false_eq_true]
  rw [Script.run_exec_of_fault (w := w.next w.state) _ hf]
  exact ⟨rfl, rfl⟩

/-- A creation that gets through comes to its end with the bridge up and given the address. -/
theorem createBridge_run {b subnet : CStr} {c : Cidr} {stack : Addr} {w : World Host}
    (hb : w.state.link b = none) (h1 : w.faults 1 = false) (hlen : subnet.length < 64)
    (hc : subnetCidr subnet = some c) (h2 : w.faults 2 = false) (h3 : w.faults 3 = false) :
    ∃ addr t, gatewayCidr subnet = some addr ∧ readCidr addr = some ⟨c.addr + 1, c.len⟩ ∧
      (∀ x, t.lookup x =
        if x = ⟨.host, b⟩ then some ⟨.bridge, { Dev.fresh.withAddr addr with up := true }⟩
        else w.state.links.lookup x) ∧
      run NetCmd.effect (networkCreateBridge b subnet stack) w =
        run NetCmd.effect (bridgeTail b subnet)
          ⟨w.state.setLinks t, fun n => w.faults (n + 4)⟩ := by
  obtain ⟨network, pfx, hcut, ha, hp⟩ := subnetCidr_eq_some hc
  have hread : readCidr (inetNtop (c.addr + 1) ++ '/' :: pfx) = some ⟨c.addr + 1, c.len⟩ :=
    readCidr_inetNtop _ hp
  have hgateway : gatewayCidr subnet = some (inetNtop (c.addr + 1) ++ '/' :: pfx) := by
    simp [gatewayCidr, hcut, ha]
  generalize haddr : inetNtop (c.addr + 1) ++ '/' :: pfx = addr at hread hgateway
  have hshow : NetCmd.effect (.linkShow b) w.state = none := by
    simp [NetCmd.effect, hb]
  -- the bridge is added, addressed and brought up, one state after the other
  obtain ⟨t₁, ht₁⟩ : ∃ t₁, w.state.links.addBridge ⟨.host, b⟩ = some t₁ := by
    rw [← Option.ne_none_iff_exists']
    exact fun hc => LinkTable.addBridge_eq_none.mp hc hb
  have hall₁ := (LinkTable.addBridge_eq_some ht₁).2
  have hl₁ : t₁.lookup ⟨.host, b⟩ = some ⟨.bridge, .fresh⟩ := by
    simp [hall₁]
  obtain ⟨t₂, ht₂⟩ := t₁.setDev_isSome (fun d => d.withAddr addr) hl₁
  obtain ⟨l₁, hl₁', hall₂⟩ := LinkTable.setDev_eq_some ht₂
  obtain rfl := Option.some.inj (hl₁.symm.trans hl₁')
  have hl₂ : t₂.lookup ⟨.host, b⟩ = some ⟨.bridge, Dev.fresh.withAddr addr⟩ := by
    simp [hall₂]
  obtain ⟨t₃, ht₃⟩ := t₂.setDev_isSome (fun d => { d with up := true }) hl₂
  obtain ⟨l₂, hl₂', hall₃⟩ := LinkTable.setDev_eq_some ht₃
  obtain rfl := Option.some.inj (hl₂.symm.trans hl₂')
  have hadd : NetCmd.effect (.linkAddBridge b) w.state = some (w.state.setLinks t₁) := by
    simp [NetCmd.effect, ht₁]
  have haddr' : NetCmd.effect (.addrAdd (inetNtop (c.addr + 1)) pfx b) (w.state.setLinks t₁)
      = some (w.state.setLinks t₂) := by
    simp only [NetCmd.effect, haddr, Host.addAddr, hread, Host.setLinks_links, hl₁]
    rw [if_neg (by simp [Dev.cidrs, Dev.fresh]), ht₂, Option.map_some, Host.setLinks_setLinks]
    exact fun x => LinkTable.addBridge_keeps_up ht₁
  have hup : NetCmd.effect (.linkUp b) (w.state.setLinks t₂) = some (w.state.setLinks t₃) := by
    simp only [NetCmd.effect, Host.setLinks_links, ht₃, Option.map_some]
    rw [Host.setLinks_setLinks]
    intro x hx
    refine LinkTable.setDev_keeps_up ht₂ (fun d hd => ?_) (LinkTable.addBridge_keeps_up ht₁ hx)
    rw [Dev.withAddr_up, hd]
  refine ⟨addr, t₃, hgateway, hread, fun x => ?_, ?_⟩
  · rw [hall₃, hall₂, hall₁]
    by_cases hx : x = ⟨.host, b⟩
    · simp [hx]
    · simp [hx]
  · unfold networkCreateBridge
    simp only [Script.issue_bind, strncpy_eq_self (Nat.le_of_lt hlen), hcut, ha, Option.getD_some]
    rw [Script.run_exec_of_none _ hshow]
    simp only [if_neg, Bool.false_eq_true, not_false_eq_true]
    rw [Script.run_exec_of_some (w := w.next w.state) _ h1 hadd]
    simp only [if_pos]
    rw [Script.run_exec_of_some (w := (w.next w.state).next (w.state.setLinks t₁)) _ h2 haddr']
    simp only [if_pos]
    rw [Script.run_exec_of_some
      (w := ((w.next w.state).next (w.state.setLinks t₁)).next (w.state.setLinks t₂)) _ h3 hup]
    simp only [if_pos]
    rfl

/-- A creation that gets through leaves the bridge configured. -/
theorem createBridge_fresh {b subnet : CStr} {stack : Addr} {w : World Host}
    (hb : w.state.link b = none) (h1 : w.faults 1 = false) (hlen : subnet.length < 64)
    (hwf : HasGateway subnet) (h2 : w.faults 2 = false) (h3 : w.faults 3 = false) :
    Configured b subnet (run NetCmd.effect (networkCreateBridge b subnet stack) w).2.state := by
  obtain ⟨c, hc, hne⟩ := hwf
  obtain ⟨addr, t, hgateway, hread, ht, hrun⟩ :=
    @createBridge_run b subnet c stack w hb h1 hlen hc h2 h3
  refine ⟨⟨.bridge, { Dev.fresh.withAddr addr with up := true }⟩, addr, ?_, rfl, rfl, hgateway, ?_⟩
  · rw [hrun, Host.link, createBridge_tail, Host.setLinks_links, ht, if_pos rfl]
  · simp [Dev.withAddr_eq _ hread hne]

/-! ### One deletion -/

/-- Deleting a bridge that is not there changes nothing. -/
theorem deleteBridge_absent {b : CStr} {w : World Host} (hb : w.state.link b = none) :
    (run NetCmd.effect (networkDeleteBridge b) w).2.state = w.state := by
  have hdown : NetCmd.effect (.linkDown b) w.state = none := by
    simp only [NetCmd.effect, Option.map_eq_none_iff]
    exact LinkTable.setDev_eq_none.mpr hb
  have hdel : NetCmd.effect (.linkDeleteBridge b) w.state = none := by
    have hk : w.state.links.kindAt ⟨.host, b⟩ = none := LinkTable.kindAt_none.mpr hb
    simp [NetCmd.effect, hk]
  unfold networkDeleteBridge
  simp only [Script.issue_bind]
  rw [Script.run_exec_of_none _ hdown, Script.run_exec_of_none (w := w.next w.state) _ hdel]
  rfl

/-- A deletion whose commands are both refused changes nothing. -/
theorem deleteBridge_refused {b : CStr} {w : World Host} (h0 : w.faults 0 = true)
    (h1 : w.faults 1 = true) : (run NetCmd.effect (networkDeleteBridge b) w).2.state = w.state := by
  unfold networkDeleteBridge
  simp only [Script.issue_bind]
  rw [Script.run_exec_of_fault _ h0, Script.run_exec_of_fault (w := w.next w.state) _ h1]
  rfl

/-- When `ip link delete` is not refused the bridge is gone, whatever `down` did. -/
theorem deleteBridge_gone {b : CStr} {w : World Host}
    (hb : w.state.links.kindAt ⟨.host, b⟩ = some .bridge) (h1 : w.faults 1 = false) :
    (run NetCmd.effect (networkDeleteBridge b) w).2.state.link b = none := by
  have hdown : ∃ h₁ : Host, (Script.attempt NetCmd.effect (w.faults 0) (.linkDown b) w.state).2 = h₁
      ∧ h₁.links.kindAt ⟨.host, b⟩ = some .bridge := by
    rcases Script.attempt_cases NetCmd.effect (w.faults 0) (.linkDown b) w.state with
      ⟨-, h₁, hs, ha⟩ | ha
    · obtain ⟨t, ht, rfl⟩ := Option.map_eq_some_iff.mp hs
      exact ⟨_, by rw [ha], by rw [Host.setLinks_links, LinkTable.setDev_kindAt ht, hb]⟩
    · exact ⟨_, by rw [ha], hb⟩
  obtain ⟨h₁, hstate, hk⟩ := hdown
  obtain ⟨t, ht⟩ : ∃ t, h₁.links.delete ⟨.host, b⟩ = some t := by
    rw [← Option.ne_none_iff_exists']
    intro hnone
    exact LinkTable.lookup_ne_none hk (LinkTable.delete_eq_none.mp hnone)
  have hdel : NetCmd.effect (.linkDeleteBridge b) h₁ = some (h₁.setLinks t) := by
    simp [NetCmd.effect, hk, ht]
  unfold networkDeleteBridge
  simp only [Script.issue_bind]
  rw [Script.run_exec, hstate, Script.run_exec_of_some (w := w.next h₁) _ h1 hdel]
  exact LinkTable.delete_self ht

/-! ### Runs -/

theorem Standing.present {b : CStr} {cur : Option CStr} {h : Host} (hI : Standing b cur h)
    (hb : h.link b ≠ none) : ∃ subnet, cur = some subnet ∧ Configured b subnet h := by
  cases cur with
  | none => exact absurd hI hb
  | some subnet => exact ⟨subnet, rfl, hI⟩

/-- **One call keeps the invariant.** -/
theorem standing_step {b : CStr} {s : BridgeRun} {call : BridgeCall} (hm : s.Meets b call)
    (hI : Standing b s.cur s.world.state) :
    Standing b (s.step b call).cur (s.step b call).world.state := by
  obtain ⟨w, cur⟩ := s
  cases call with
  | create subnet stack =>
      simp only [BridgeRun.step, BridgeCall.script]
      by_cases hb : w.state.link b = none
      · cases h1 : w.faults 1 with
        | false =>
            obtain ⟨hlen, hwf, h2, h3⟩ := hm.2.2 hb h1
            rw [if_pos ⟨hb, rfl⟩]
            exact createBridge_fresh hb h1 hlen hwf h2 h3
        | true =>
            rw [(createBridge_refused subnet stack hb h1).2, if_neg (by simp)]
            exact hI
      · rw [if_neg fun hc => hb hc.1]
        rcases createBridge_present subnet stack hb with ⟨-, hrun⟩ | ⟨-, hst⟩
        · rw [hrun]; exact hI
        · rw [hst]; exact hI
  | delete =>
      simp only [BridgeRun.step, BridgeCall.script]
      by_cases hb : w.state.link b = none
      · rw [deleteBridge_absent hb, if_neg fun hc => hc.1 hb]
        exact hI
      · cases h1 : w.faults 1 with
        | false =>
            obtain ⟨subnet, -, l, -, hl, hk, -⟩ := hI.present hb
            rw [if_pos ⟨hb, rfl⟩]
            exact deleteBridge_gone (LinkTable.kindAt_eq_some.mpr ⟨l, hl, hk⟩) h1
        | true =>
            have h0 : w.faults 0 = true := by
              by_contra hc
              have := hm hb (by simpa using hc)
              rw [h1] at this
              simp at this
            rw [deleteBridge_refused h0 h1, if_neg (by simp)]
            exact hI

/--
**A successful creation leaves a configured bridge**, in every run whose calls meet
their condition, from any host on which the name is free.
-/
theorem configured_of_createBridge_ok {b : CStr} {w : World Host} {calls : List BridgeCall}
    {subnet : CStr} {stack : Addr} (hfree : w.state.link b = none)
    (hrun : Runs.Along (BridgeRun.step b) (BridgeRun.Meets b) ⟨w, none⟩
      (calls ++ [.create subnet stack]))
    (hok : (run NetCmd.effect (networkCreateBridge b subnet stack)
      (Runs.after (BridgeRun.step b) ⟨w, none⟩ calls).world).1 = .ok) :
    Configured b subnet (run NetCmd.effect (networkCreateBridge b subnet stack)
      (Runs.after (BridgeRun.step b) ⟨w, none⟩ calls).world).2.state := by
  obtain ⟨hI, hm⟩ := Runs.keeps_last (BridgeRun.step b)
    (I := fun s => Standing b s.cur s.world.state) (fun _ _ hm hI => standing_step hm hI) hrun hfree
  set s := Runs.after (BridgeRun.step b) ⟨w, none⟩ calls with hs
  by_cases hb : s.world.state.link b = none
  · cases h1 : s.world.faults 1 with
    | false =>
        obtain ⟨hlen, hwf, h2, h3⟩ := hm.2.2 hb h1
        exact createBridge_fresh hb h1 hlen hwf h2 h3
    | true =>
        rw [(createBridge_refused subnet stack hb h1).1] at hok
        simp at hok
  · rcases createBridge_present subnet stack hb with ⟨h0, hres⟩ | ⟨hres, -⟩
    · -- the fast path: what the bridge is like was settled by the call that made it
      rw [hres]
      obtain ⟨subnet', hcur, hconf⟩ := hI.present hb
      obtain rfl : subnet' = subnet := by simpa [hcur] using hm.2.1 hb h0
      exact hconf
    · rw [hres] at hok
      simp at hok

/-- A creation, a deletion and a creation for another subnet. -/
theorem configured_after_recreation :
    Configured "cr0".toList "10.0.0.0/8".toList
      (run NetCmd.effect (networkCreateBridge "cr0".toList "10.0.0.0/8".toList 0)
        (Runs.after (BridgeRun.step "cr0".toList) ⟨.calm .bare, none⟩
          [.create "172.17.0.0/16".toList 0, .delete]).world).2.state :=
  configured_of_createBridge_ok (by decide) (by decide) (by decide)

/--
A failed `ip addr add` leaves a bridge without an address that is down, and the next
call takes it for a created one.
-/
theorem createBridge_ok_of_half_made_bridge :
    ¬ ∀ (b : CStr) (w : World Host) (calls : List BridgeCall) (subnet : CStr) (stack : Addr),
      w.state.links.kindAt ⟨.host, b⟩ ≠ some .bridge →
      (run NetCmd.effect (networkCreateBridge b subnet stack)
        (Runs.after (BridgeRun.step b) ⟨w, none⟩ calls).world).1 = .ok →
      Configured b subnet (run NetCmd.effect (networkCreateBridge b subnet stack)
        (Runs.after (BridgeRun.step b) ⟨w, none⟩ calls).world).2.state := by
  intro hall
  obtain ⟨l, addr, hl, -, hup, -⟩ := hall "cr0".toList ⟨.bare, fun n => n == 2⟩
    [.create "172.17.0.0/16".toList 0] "172.17.0.0/16".toList 0 (by decide) (by decide)
  have hdown : ((run NetCmd.effect (networkCreateBridge "cr0".toList "172.17.0.0/16".toList 0)
      (Runs.after (BridgeRun.step "cr0".toList) ⟨⟨.bare, fun n => n == 2⟩, none⟩
        [.create "172.17.0.0/16".toList 0]).world).2.state.link "cr0".toList).map (·.dev.up)
      = some false := by
    decide
  rw [hl, Option.map_some, hup] at hdown
  simp at hdown

end Cruntime
