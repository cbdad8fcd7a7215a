/-
What a command reads and what it writes.

Two hosts that agree on what a command reads let it succeed alike, and afterwards
they agree wherever they did before; what a command does not write stays.  These are
the two facts an interleaving needs about single commands: the first lets a call run
among others as it would run on its own, the second keeps the others out of its way.
The deletions are left out, since a setup issues none.
-/
import Cruntime.Lib.Straight
import Cruntime.Net.Frame
import Cruntime.Net.Ports

namespace Cruntime

open Script (Item execAll)

/-! ### The same operation on two tables -/

namespace LinkTable

variable {t u u' : LinkTable}

/-- Two tables after the same operation: they agree wherever they did before. -/
def Mirrors (t u t' u' : LinkTable) : Prop :=
  ∀ x, t.lookup x = u.lookup x → t'.lookup x = u'.lookup x

theorem addBridge_mirrors {a : Loc} (ha : t.lookup a = u.lookup a)
    (hu : u.addBridge a = some u') : ∃ t', t.addBridge a = some t' ∧ Mirrors t u t' u' := by
  obtain ⟨hfree, hall⟩ := addBridge_eq_some hu
  cases ht : t.addBridge a with
  | none => exact absurd (ha.trans hfree) (addBridge_eq_none.mp ht)
  | some t' =>
      refine ⟨t', rfl, fun x hx => ?_⟩
      rw [hall, (addBridge_eq_some ht).2, hx]

theorem addPair_mirrors {a b : Loc} (ha : t.lookup a = u.lookup a)
    (hb : t.lookup b = u.lookup b) (hu : u.addPair a b = some u') :
    ∃ t', t.addPair a b = some t' ∧ Mirrors t u t' u' := by
  obtain ⟨hab, hfreea, hfreeb, hall⟩ := addPair_eq_some hu
  obtain ⟨t', ht⟩ := addPair_isSome hab (ha.trans hfreea) (hb.trans hfreeb)
  obtain ⟨-, -, -, hall'⟩ := addPair_eq_some ht
  refine ⟨t', ht, fun x hx => ?_⟩
  rw [hall, hall', hx]

theorem setDev_mirrors {a : Loc} {f : Dev → Dev} (ha : t.lookup a = u.lookup a)
    (hu : u.setDev a f = some u') : ∃ t', t.setDev a f = some t' ∧ Mirrors t u t' u' := by
  obtain ⟨l, hl, hall⟩ := setDev_eq_some hu
  obtain ⟨t', ht⟩ := setDev_isSome f (ha.trans hl)
  obtain ⟨l', hl', hall'⟩ := setDev_eq_some ht
  obtain rfl : l' = l := Option.some.inj (hl'.symm.trans (ha.trans hl))
  refine ⟨t', ht, fun x hx => ?_⟩
  rw [hall, hall', hx]

theorem kindAt_congr {a : Loc} (ha : t.lookup a = u.lookup a) : t.kindAt a = u.kindAt a := by
  unfold kindAt
  rw [ha]

theorem move_mirrors {a b : Loc} (ha : t.lookup a = u.lookup a) (hb : t.lookup b = u.lookup b)
    (hu : u.move a b = some u') : ∃ t', t.move a b = some t' ∧ Mirrors t u t' u' := by
  obtain ⟨l, hl, hfree, hall⟩ := move_eq_some hu
  have hsome : ∃ t', t.move a b = some t' := by
    unfold move at hu ⊢
    rw [kindAt_congr ha]
    split at hu
    · simp at hu
    · simp at hu
    · simp [hb.trans hfree]
  obtain ⟨t', ht⟩ := hsome
  obtain ⟨l', hl', -, hall'⟩ := move_eq_some ht
  obtain rfl : l' = l := Option.some.inj (hl'.symm.trans (ha.trans hl))
  refine ⟨t', ht, fun x hx => ?_⟩
  rw [hall, hall', hx]

end LinkTable

/-! ### The same command on two hosts -/

/-- What the command reads is the same in `s` and in `u`. -/
def NetCmd.SameReads (s u : Host) : NetCmd → Prop
  | .linkShow dev => s.link dev = u.link dev
  | .linkAddBridge name => s.link name = u.link name
  | .addrAdd _ _ dev => s.link dev = u.link dev
  | .linkUp dev => s.link dev = u.link dev
  | .linkDown dev => s.link dev = u.link dev
  | .sysctlForward => True
  | .appendRule _ => True
  | .linkAddVeth name peer => s.link name = u.link name ∧ s.link peer = u.link peer
  | .linkSetMaster dev master => s.link dev = u.link dev ∧
      s.links.kindAt ⟨.host, master⟩ = u.links.kindAt ⟨.host, master⟩
  | .linkSetNetns dev pid => s.nsOf pid = u.nsOf pid ∧ s.link dev = u.link dev ∧
      ∀ ns, u.nsOf pid = some ns → s.links.lookup ⟨ns, dev⟩ = u.links.lookup ⟨ns, dev⟩
  | .nsAddrAdd pid _ dev => s.nsOf pid = u.nsOf pid ∧
      ∀ ns, u.nsOf pid = some ns → s.links.lookup ⟨ns, dev⟩ = u.links.lookup ⟨ns, dev⟩
  | .nsLinkUp pid dev => s.nsOf pid = u.nsOf pid ∧
      ∀ ns, u.nsOf pid = some ns → s.links.lookup ⟨ns, dev⟩ = u.links.lookup ⟨ns, dev⟩
  | .nsRouteAdd pid _ => s.nsOf pid = u.nsOf pid ∧
      ∀ ns, u.nsOf pid = some ns → s.route ns = u.route ns ∧
        s.links.lookup ⟨ns, vethContainer⟩ = u.links.lookup ⟨ns, vethContainer⟩
  | .deleteRule _ | .linkDeleteBridge _ | .linkDelete _ => False

theorem NetCmd.SameReads.symm {s u : Host} {c : NetCmd} (h : c.SameReads s u) :
    c.SameReads u s := by
  cases c <;> simp only [SameReads] at h ⊢
  case linkAddVeth => exact ⟨h.1.symm, h.2.symm⟩
  case linkSetMaster => exact ⟨h.1.symm, h.2.symm⟩
  case linkSetNetns =>
      exact ⟨h.1.symm, h.2.1.symm, fun ns hns => (h.2.2 ns (h.1.symm.trans hns)).symm⟩
  case nsAddrAdd => exact ⟨h.1.symm, fun ns hns => (h.2 ns (h.1.symm.trans hns)).symm⟩
  case nsLinkUp => exact ⟨h.1.symm, fun ns hns => (h.2 ns (h.1.symm.trans hns)).symm⟩
  case nsRouteAdd =>
      exact ⟨h.1.symm, fun ns hns =>
        ⟨(h.2 ns (h.1.symm.trans hns)).1.symm, (h.2 ns (h.1.symm.trans hns)).2.symm⟩⟩
  all_goals exact h.symm

/-- The hosts after a command agree wherever the hosts before it did; a route also needs them to
have agreed on the device it goes through. -/
structure Mirrors (s u s' u' : Host) : Prop where
  links : ∀ x, s.links.lookup x = u.links.lookup x → s'.links.lookup x = u'.links.lookup x
  route : ∀ n, s.route n = u.route n →
    (∀ r, u.route n = some r → s.links.lookup ⟨n, r.dev⟩ = u.links.lookup ⟨n, r.dev⟩) →
    s'.route n = u'.route n
  ipForward : s.ipForward = u.ipForward → s'.ipForward = u'.ipForward

theorem Mirrors.refl (s u : Host) : Mirrors s u s u := ⟨fun _ h => h, fun _ h _ => h, id⟩

theorem Mirrors.setLinks {s u : Host} {t t' : LinkTable}
    (h : LinkTable.Mirrors s.links u.links t t') : Mirrors s u (s.setLinks t) (u.setLinks t') := by
  refine ⟨h, fun n hn hdev => ?_, id⟩
  rw [Host.setLinks_route, Host.setLinks_route, hn]
  cases hr : u.route n with
  | none => rfl
  | some r => simp only [Option.filter, LinkTable.isUp_congr (h _ (hdev r hr))]

theorem addAddr_mirrors {s u u' : Host} {a : Loc} {addr : CStr}
    (ha : s.links.lookup a = u.links.lookup a) (hu : u.addAddr a addr = some u') :
    ∃ s', s.addAddr a addr = some s' ∧ Mirrors s u s' u' := by
  obtain ⟨c, l, t, hc, hl, hnew, ht, rfl⟩ := Host.addAddr_eq_some hu
  obtain ⟨t', ht', hm⟩ := LinkTable.setDev_mirrors ha ht
  refine ⟨s.setLinks t', ?_, .setLinks hm⟩
  unfold Host.addAddr
  rw [ha, hl, hc]
  simp [hnew, ht']

theorem addRoute_mirrors {s u u' : Host} {ns : NetNs} {gateway : CStr}
    (hroute : s.route ns = u.route ns)
    (hdev : s.links.lookup ⟨ns, vethContainer⟩ = u.links.lookup ⟨ns, vethContainer⟩)
    (hu : u.addRoute ns gateway = some u') :
    ∃ s', s.addRoute ns gateway = some s' ∧ Mirrors s u s' u' := by
  obtain ⟨hfree, hreach, hup, rfl⟩ := Host.addRoute_eq_some hu
  have hup' : s.links.isUp ⟨ns, vethContainer⟩ = true := by
    rw [LinkTable.isUp_congr hdev]
    exact hup
  have hreach' : s.reaches ⟨ns, vethContainer⟩ gateway = true := by
    unfold Host.reaches at hreach ⊢
    rw [hdev]
    exact hreach
  refine ⟨s.setRoute ns ⟨gateway, vethContainer⟩ hup', ?_, fun _ h => h, fun n hn _ => ?_, id⟩
  · unfold Host.addRoute
    rw [dif_pos ⟨hroute.trans hfree, hup', hreach'⟩]
  · rw [Host.setRoute_route, Host.setRoute_route, Function.update_apply, Function.update_apply, hn]

/-- **A command depends on what it reads only.** -/
theorem effect_mirrors {c : NetCmd} {s u u' : Host} (hreads : c.SameReads s u)
    (hu : c.effect u = some u') : ∃ s', c.effect s = some s' ∧ Mirrors s u s' u' := by
  have hset : ∀ {a : Loc} {f : Dev → Dev}, s.links.lookup a = u.links.lookup a →
      (u.links.setDev a f).map u.setLinks = some u' →
      ∃ s', (s.links.setDev a f).map s.setLinks = some s' ∧ Mirrors s u s' u' := by
    intro a f ha hu
    obtain ⟨t, ht, rfl⟩ := Option.map_eq_some_iff.mp hu
    obtain ⟨t', ht', hm⟩ := LinkTable.setDev_mirrors ha ht
    exact ⟨_, by rw [ht']; rfl, .setLinks hm⟩
  have henter : ∀ {pid : Int} {f g : NetNs → Option Host}, s.nsOf pid = u.nsOf pid →
      u.enter pid f = some u' →
      (∀ ns, u.nsOf pid = some ns → f ns = some u' → ∃ s', g ns = some s' ∧ Mirrors s u s' u') →
      ∃ s', s.enter pid g = some s' ∧ Mirrors s u s' u' := by
    intro pid f g hns hu hgo
    obtain ⟨ns, hsome, hf⟩ := Option.bind_eq_some_iff.mp hu
    obtain ⟨s', hg, hm⟩ := hgo ns hsome hf
    exact ⟨s', by unfold Host.enter; rw [hns, hsome]; exact hg, hm⟩
  cases c with
  | linkShow dev =>
      obtain ⟨hsome, hu⟩ := Option.ite_none_right_eq_some.mp hu
      obtain rfl := Option.some.inj hu
      rw [← hreads] at hsome
      exact ⟨s, if_pos hsome, .refl s u⟩
  | linkAddBridge name =>
      obtain ⟨t, ht, rfl⟩ := Option.map_eq_some_iff.mp hu
      obtain ⟨t', ht', hm⟩ := LinkTable.addBridge_mirrors hreads ht
      exact ⟨s.setLinks t', Option.map_eq_some_iff.mpr ⟨t', ht', rfl⟩, .setLinks hm⟩
  | addrAdd addr pfx dev => exact addAddr_mirrors hreads hu
  | linkUp dev => exact hset hreads hu
  | linkDown dev => exact hset hreads hu
  | sysctlForward =>
      obtain rfl := Option.some.inj hu
      exact ⟨_, rfl, fun _ h => h, fun _ h _ => h, fun _ => rfl⟩
  | appendRule r =>
      obtain rfl := Option.some.inj hu
      exact ⟨_, rfl, fun _ h => h, fun _ h _ => h, id⟩
  | linkAddVeth name peer =>
      obtain ⟨t, ht, rfl⟩ := Option.map_eq_some_iff.mp hu
      obtain ⟨t', ht', hm⟩ := LinkTable.addPair_mirrors hreads.1 hreads.2 ht
      exact ⟨s.setLinks t', Option.map_eq_some_iff.mpr ⟨t', ht', rfl⟩, .setLinks hm⟩
  | linkSetMaster dev master =>
      obtain ⟨hkind, hu⟩ := Option.ite_none_right_eq_some.mp hu
      obtain ⟨s', hs', hm⟩ := hset hreads.1 hu
      rw [← hreads.2] at hkind
      exact ⟨s', Option.ite_none_right_eq_some.mpr ⟨hkind, hs'⟩, hm⟩
  | linkSetNetns dev pid =>
      refine henter hreads.1 hu fun ns hns hf => ?_
      by_cases hhost : ns = .host
      · rw [if_pos hhost] at hf ⊢
        obtain ⟨hsome, hf⟩ := Option.ite_none_right_eq_some.mp hf
        obtain rfl := Option.some.inj hf
        exact ⟨s, by rw [hreads.2.1, if_pos hsome], .refl s u⟩
      · rw [if_neg hhost] at hf ⊢
        obtain ⟨t, ht, rfl⟩ := Option.map_eq_some_iff.mp hf
        obtain ⟨t', ht', hm⟩ := LinkTable.move_mirrors hreads.2.1 (hreads.2.2 ns hns) ht
        exact ⟨_, by rw [ht']; rfl, .setLinks hm⟩
  | nsAddrAdd pid addr dev =>
      exact henter hreads.1 hu fun ns hns hf => addAddr_mirrors (hreads.2 ns hns) hf
  | nsLinkUp pid dev => exact henter hreads.1 hu fun ns hns hf => hset (hreads.2 ns hns) hf
  | nsRouteAdd pid gateway =>
      exact henter hreads.1 hu fun ns hns hf =>
        addRoute_mirrors (hreads.2 ns hns).1 (hreads.2 ns hns).2 hf
  | deleteRule r => exact absurd hreads id
  | linkDeleteBridge name => exact absurd hreads id
  | linkDelete dev => exact absurd hreads id

/-- A command of a list, whether or not it has to succeed. -/
theorem exec_mirrors {x : Item NetCmd} {s u u' : Host} (hreads : x.cmd.SameReads s u)
    (hu : x.exec NetCmd.effect u = some u') :
    ∃ s', x.exec NetCmd.effect s = some s' ∧ Mirrors s u s' u' := by
  obtain ⟨c, must⟩ := x
  cases must with
  | true => exact effect_mirrors hreads hu
  | false =>
      obtain rfl : (c.effect u).getD u = u' := Option.some.inj hu
      refine ⟨(c.effect s).getD s, rfl, ?_⟩
      cases hc : c.effect u with
      | some v =>
          obtain ⟨s', hs', hm⟩ := effect_mirrors hreads hc
          rw [hs']
          exact hm
      | none =>
          cases hs : c.effect s with
          | none => exact .refl s u
          | some s' =>
              obtain ⟨v, hv, -⟩ := effect_mirrors hreads.symm hs
              rw [hc] at hv
              simp at hv

/-! ### What a command leaves alone -/

/-- The locations a command can write to. -/
def NetCmd.Writes (h : Host) (x : Loc) (c : NetCmd) : Prop :=
  c.target h = some x ∨
    match c with
    | .linkAddBridge name => x = ⟨.host, name⟩
    | .linkAddVeth name peer => x = ⟨.host, name⟩ ∨ x = ⟨.host, peer⟩
    | .linkSetNetns dev pid => x = ⟨.host, dev⟩ ∨ (∃ ns, h.nsOf pid = some ns ∧ x = ⟨ns, dev⟩) ∨
        h.links.kindAt ⟨.host, dev⟩ = some (.veth x)
    | .linkDelete _ | .linkDeleteBridge _ => True
    | _ => False

/-- A location that a command does not write to stays as it is. -/
theorem effect_links_frame {c : NetCmd} {h h' : Host} (hs : c.effect h = some h') {x : Loc}
    (hx : ¬c.Writes h x) : h'.links.lookup x = h.links.lookup x := by
  cases effect_step hs with
  | idle => rfl
  | setDev ha ht =>
      refine setDev_keeps ht ?_
      rintro rfl
      exact hx (Or.inl ha)
  | addBridge ht =>
      have hne : x ≠ _ := fun heq => hx (Or.inr heq)
      exact ((LinkTable.addBridge_eq_some ht).2 x).trans (if_neg hne)
  | addPair ht =>
      have hne := not_or.mp fun heq => hx (Or.inr heq)
      obtain ⟨-, -, -, hall⟩ := LinkTable.addPair_eq_some ht
      exact (hall x).trans ((if_neg hne.1).trans (if_neg hne.2))
  | @move dev pid ns t hns _ ht =>
      obtain ⟨l, hl, -, hall⟩ := LinkTable.move_eq_some ht
      have hne := not_or.mp fun heq => hx (Or.inr heq)
      have hne' := not_or.mp hne.2
      have hto : x ≠ ⟨ns, dev⟩ := fun heq => hne'.1 ⟨ns, hns, heq⟩
      have hpeer : l.kind ≠ .veth x := fun heq =>
        hne'.2 (LinkTable.kindAt_eq_some.mpr ⟨l, hl, heq⟩)
      rw [Host.setLinks_links, hall, if_neg hto, if_neg hne.1, if_neg hpeer]
  | delete => exact absurd (Or.inr trivial) hx
  | deleteBridge => exact absurd (Or.inr trivial) hx
  | rules => rfl
  | route => rfl
  | forward => rfl

theorem effect_ipForward_frame {c : NetCmd} {h h' : Host} (hs : c.effect h = some h')
    (hc : c ≠ .sysctlForward) : h'.ipForward = h.ipForward := by
  cases effect_step hs with
  | forward => exact absurd rfl hc
  | _ => rfl

/-- The rule a command appends. -/
def NetCmd.appended : NetCmd → List Rule
  | .appendRule r => [r]
  | _ => []

theorem effect_rules {c : NetCmd} {h h' : Host} (hs : c.effect h = some h')
    (hc : ∀ r, c ≠ .deleteRule r) (ch : Chain) :
    h'.rules ch = h.rules ch ++ onChain ch c.appended := by
  have hnone : c.appended = [] → h'.rules = h.rules →
      h'.rules ch = h.rules ch ++ onChain ch c.appended := by
    intro happ hsame
    rw [happ, hsame]
    simp [onChain]
  cases hc' : c with
  | appendRule r =>
      subst hc'
      obtain rfl := Option.some.inj hs
      by_cases hch : ch = r.chain
      · subst hch
        simp [NetCmd.appended, onChain]
      · simp [NetCmd.appended, onChain, hch, Ne.symm hch]
  | deleteRule r => exact absurd hc' (hc r)
  | _ =>
      subst hc'
      refine hnone rfl ?_
      cases effect_step hs <;> first | rfl | simp_all

/-- What a command of a list did: it succeeded, or it failed and changed nothing. -/
theorem exec_cases {x : Item NetCmd} {s s' : Host} (h : x.exec NetCmd.effect s = some s') :
    x.cmd.effect s = some s' ∨ x.cmd.effect s = none ∧ s' = s := by
  obtain ⟨c, must⟩ := x
  cases must with
  | true => exact Or.inl h
  | false =>
      obtain rfl : (c.effect s).getD s = s' := Option.some.inj h
      cases hc : c.effect s with
      | some t => exact Or.inl rfl
      | none => exact Or.inr ⟨rfl, rfl⟩

theorem exec_links_frame {x : Item NetCmd} {s s' : Host}
    (h : x.exec NetCmd.effect s = some s') {y : Loc} (hy : ¬x.cmd.Writes s y) :
    s'.links.lookup y = s.links.lookup y := by
  rcases exec_cases h with hs | ⟨-, rfl⟩
  · exact effect_links_frame hs hy
  · rfl

theorem exec_route_frame {x : Item NetCmd} {s s' : Host}
    (h : x.exec NetCmd.effect s = some s') {n : NetNs}
    (hn : ∀ pid gateway, x.cmd = .nsRouteAdd pid gateway → s.nsOf pid ≠ some n)
    (hdown : ∀ r, s.route n = some r → ¬x.cmd.Downs s ⟨n, r.dev⟩) : s'.route n = s.route n := by
  rcases exec_cases h with hs | ⟨-, rfl⟩
  · exact effect_route hs hn hdown
  · rfl

theorem exec_ipForward_frame {x : Item NetCmd} {s s' : Host}
    (h : x.exec NetCmd.effect s = some s') (hc : x.cmd ≠ .sysctlForward) :
    s'.ipForward = s.ipForward := by
  rcases exec_cases h with hs | ⟨-, rfl⟩
  · exact effect_ipForward_frame hs hc
  · rfl

theorem exec_nsOf {x : Item NetCmd} {s s' : Host} (h : x.exec NetCmd.effect s = some s') :
    s'.nsOf = s.nsOf := by
  rcases exec_cases h with hs | ⟨-, rfl⟩
  · exact effect_nsOf hs
  · rfl

/-- The rules on one list that a list of commands appends. -/
def pending (ch : Chain) (l : List (Item NetCmd)) : List Rule :=
  onChain ch (l.flatMap fun x => x.cmd.appended)

theorem pending_cons (ch : Chain) (x : Item NetCmd) (l : List (Item NetCmd)) :
    pending ch (x :: l) = onChain ch x.cmd.appended ++ pending ch l :=
  onChain_append ch _ _

theorem exec_rules {x : Item NetCmd} {s s' : Host} (h : x.exec NetCmd.effect s = some s')
    (hc : ∀ r, x.cmd ≠ .deleteRule r) (ch : Chain) :
    s'.rules ch = s.rules ch ++ onChain ch x.cmd.appended := by
  rcases exec_cases h with hs | ⟨hs, rfl⟩
  · exact effect_rules hs hc ch
  · cases hx : x.cmd with
    | appendRule r =>
        rw [hx] at hs
        simp [NetCmd.effect] at hs
    | _ => simp [NetCmd.appended, onChain]

/-- What a list of commands appends, when it deletes no rule. -/
theorem execAll_rules {l : List (Item NetCmd)} (hl : ∀ x ∈ l, ∀ r, x.cmd ≠ .deleteRule r)
    (ch : Chain) : ∀ {s s' : Host}, execAll NetCmd.effect l s = some s' →
      s'.rules ch = s.rules ch ++ pending ch l := by
  induction l with
  | nil =>
      intro s s' h
      obtain rfl : s = s' := Option.some.inj h
      simp [pending, onChain]
  | cons x rest ih =>
      intro s s' h
      obtain ⟨t, hx, hrest⟩ := (Script.execAll_cons _).mp h
      rw [ih (fun y hy => hl y (by simp [hy])) hrest, exec_rules hx (hl x (by simp)), pending_cons,
        List.append_assoc]

end Cruntime
