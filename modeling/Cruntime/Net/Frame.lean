/-
What the commands leave alone.

Three facts about single commands that every result about whole functions uses: no
command moves a process to another namespace, a link goes away only by a command
that names it for deletion or for a move, and the commands that build the bridge
touch nothing but the bridge and its rules.  Each is lifted to programs by the
invariant rule of `Lib/Script.lean`.
-/
import Cruntime.Net.Network

namespace Cruntime

open Script (run)

/-! ### What one command does -/

/-- The device a command writes to. -/
def NetCmd.target (h : Host) : NetCmd → Option Loc
  | .addrAdd _ _ dev => some ⟨.host, dev⟩
  | .linkUp dev => some ⟨.host, dev⟩
  | .linkDown dev => some ⟨.host, dev⟩
  | .linkSetMaster dev _ => some ⟨.host, dev⟩
  | .nsAddrAdd pid _ dev => (h.nsOf pid).map fun ns => ⟨ns, dev⟩
  | .nsLinkUp pid dev => (h.nsOf pid).map fun ns => ⟨ns, dev⟩
  | _ => none

/-- The hosts a command can leave when it succeeds. -/
inductive NetStep (h : Host) : NetCmd → Host → Prop
  | idle {c : NetCmd} (hc : ∀ name peer, c ≠ .linkAddVeth name peer) : NetStep h c h
  | setDev {c : NetCmd} {a : Loc} {f : Dev → Dev} {t : LinkTable} (ha : c.target h = some a)
      (ht : h.links.setDev a f = some t)
      (hf : (∀ dev, c ≠ .linkDown dev) → ∀ d : Dev, d.up = true → (f d).up = true) :
      NetStep h c (h.setLinks t)
  | addBridge {name : CStr} {t : LinkTable} (ht : h.links.addBridge ⟨.host, name⟩ = some t) :
      NetStep h (.linkAddBridge name) (h.setLinks t)
  | addPair {name peer : CStr} {t : LinkTable}
      (ht : h.links.addPair ⟨.host, name⟩ ⟨.host, peer⟩ = some t) :
      NetStep h (.linkAddVeth name peer) (h.setLinks t)
  | move {dev : CStr} {pid : Int} {ns : NetNs} {t : LinkTable} (hns : h.nsOf pid = some ns)
      (hne : ns ≠ .host) (ht : h.links.move ⟨.host, dev⟩ ⟨ns, dev⟩ = some t) :
      NetStep h (.linkSetNetns dev pid) (h.setLinks t)
  | delete {name : CStr} {t : LinkTable} (ht : h.links.delete ⟨.host, name⟩ = some t) :
      NetStep h (.linkDelete name) (h.setLinks t)
  | deleteBridge {name : CStr} {t : LinkTable} (ht : h.links.delete ⟨.host, name⟩ = some t) :
      NetStep h (.linkDeleteBridge name) (h.setLinks t)
  | rules {c : NetCmd} {r : Rule} {l : List Rule} (hc : c = .appendRule r ∨ c = .deleteRule r) :
      NetStep h c (h.setRules r.chain l)
  | route {pid : Int} {gateway : CStr} {ns : NetNs} (hns : h.nsOf pid = some ns)
      (hup : h.links.isUp ⟨ns, vethContainer⟩ = true) :
      NetStep h (.nsRouteAdd pid gateway) (h.setRoute ns ⟨gateway, vethContainer⟩ hup)
  | forward : NetStep h .sysctlForward { h with ipForward := true }

/-- **A successful command is one of these steps.** -/
theorem effect_step {c : NetCmd} {h h' : Host} (hs : c.effect h = some h') : NetStep h c h' := by
  have haddr : ∀ {a : Loc} {addr : CStr}, c.target h = some a → h.addAddr a addr = some h' →
      NetStep h c h' := by
    intro a addr hc ha
    obtain ⟨-, -, t, -, -, -, ht, rfl⟩ := Host.addAddr_eq_some ha
    exact .setDev hc ht fun _ d hd => (d.withAddr_up addr).trans hd
  have hset : ∀ {a : Loc} {f : Dev → Dev}, c.target h = some a →
      ((∀ dev, c ≠ .linkDown dev) → ∀ d : Dev, d.up = true → (f d).up = true) →
      (h.links.setDev a f).map h.setLinks = some h' → NetStep h c h' := by
    intro a f hc hf ha
    obtain ⟨t, ht, rfl⟩ := Option.map_eq_some_iff.mp ha
    exact .setDev hc ht hf
  cases c <;> simp only [NetCmd.effect, Host.enter, Option.bind_eq_some_iff,
    Option.ite_none_right_eq_some, Option.some.injEq] at hs
  case linkShow dev =>
      obtain ⟨-, rfl⟩ := hs
      exact .idle (by simp)
  case linkAddBridge name =>
      obtain ⟨t, ht, rfl⟩ := Option.map_eq_some_iff.mp hs
      exact .addBridge ht
  case addrAdd addr pfx dev => exact haddr rfl hs
  case linkUp dev => exact hset rfl (fun _ _ _ => rfl) hs
  case linkDown dev => exact hset rfl (fun hno => absurd rfl (hno dev)) hs
  case sysctlForward => exact hs ▸ .forward
  case appendRule r => exact hs ▸ .rules (Or.inl rfl)
  case deleteRule r => exact hs.2 ▸ .rules (Or.inr rfl)
  case linkDeleteBridge name =>
      obtain ⟨t, ht, rfl⟩ := Option.map_eq_some_iff.mp hs.2
      exact .deleteBridge ht
  case linkAddVeth name peer =>
      obtain ⟨t, ht, rfl⟩ := Option.map_eq_some_iff.mp hs
      exact .addPair ht
  case linkSetMaster dev master =>
      exact hset (f := fun d => { d with master := some master }) rfl (fun _ _ hd => hd) hs.2
  case linkSetNetns dev pid =>
      obtain ⟨ns, hns, hs⟩ := hs
      by_cases hhost : ns = .host
      · simp only [if_pos hhost, Option.ite_none_right_eq_some, Option.some.injEq] at hs
        obtain ⟨-, rfl⟩ := hs
        exact .idle (by simp)
      · rw [if_neg hhost] at hs
        obtain ⟨t, ht, rfl⟩ := Option.map_eq_some_iff.mp hs
        exact .move hns hhost ht
  case nsAddrAdd pid addr dev =>
      obtain ⟨ns, hns, hs⟩ := hs
      exact haddr (by simp [NetCmd.target, hns]) hs
  case nsLinkUp pid dev =>
      obtain ⟨ns, hns, hs⟩ := hs
      exact hset (by simp [NetCmd.target, hns]) (fun _ _ _ => rfl) hs
  case nsRouteAdd pid gateway =>
      obtain ⟨ns, hns, hs⟩ := hs
      obtain ⟨-, -, hup, rfl⟩ := Host.addRoute_eq_some hs
      exact .route hns hup
  case linkDelete dev =>
      obtain ⟨t, ht, rfl⟩ := Option.map_eq_some_iff.mp hs
      exact .delete ht

/-- No command moves a process to another namespace. -/
theorem effect_nsOf {c : NetCmd} {h h' : Host} (hs : c.effect h = some h') : h'.nsOf = h.nsOf := by
  cases effect_step hs <;> rfl

/-! ### Links that stay -/

/-- The command neither deletes the host link `name` nor moves it away. -/
def NetCmd.Spares (name : CStr) : NetCmd → Prop
  | .linkDelete _ => False
  | .linkDeleteBridge _ => False
  | .linkSetNetns dev _ => dev ≠ name
  | _ => True

theorem addBridge_keeps {t t' : LinkTable} {a x : Loc} (ht : t.addBridge a = some t')
    (hx : t.lookup x ≠ none) : t'.lookup x = t.lookup x := by
  obtain ⟨hfree, hall⟩ := LinkTable.addBridge_eq_some ht
  rw [hall, if_neg]
  rintro rfl
  exact hx hfree

theorem addPair_keeps {t t' : LinkTable} {a b x : Loc} (ht : t.addPair a b = some t')
    (hx : t.lookup x ≠ none) : t'.lookup x = t.lookup x := by
  obtain ⟨-, ha, hb, hall⟩ := LinkTable.addPair_eq_some ht
  rw [hall, if_neg, if_neg]
  · rintro rfl
    exact hx hb
  · rintro rfl
    exact hx ha

theorem setDev_keeps {t t' : LinkTable} {a x : Loc} {f : Dev → Dev} (ht : t.setDev a f = some t')
    (hx : x ≠ a) : t'.lookup x = t.lookup x := by
  obtain ⟨l, -, hall⟩ := LinkTable.setDev_eq_some ht
  rw [hall, if_neg hx]

theorem setDev_ne_none {t t' : LinkTable} {a x : Loc} {f : Dev → Dev}
    (ht : t.setDev a f = some t') : t'.lookup x ≠ none ↔ t.lookup x ≠ none := by
  rw [not_iff_not, ← LinkTable.kindAt_none, ← LinkTable.kindAt_none, LinkTable.setDev_kindAt ht]

theorem move_ne_none {t t' : LinkTable} {a b x : Loc} (ht : t.move a b = some t') (hxa : x ≠ a)
    (hx : t.lookup x ≠ none) : t'.lookup x ≠ none := by
  obtain ⟨l, -, -, hall⟩ := LinkTable.move_eq_some ht
  rw [hall]
  split_ifs <;> simp_all

/-- The command takes the link at `x` down, or away. -/
def NetCmd.Downs (h : Host) (x : Loc) : NetCmd → Prop
  | .linkDown dev => x = ⟨.host, dev⟩
  | .linkSetNetns dev _ => x = ⟨.host, dev⟩
  | .linkDelete name => x = ⟨.host, name⟩ ∨ h.links.kindAt ⟨.host, name⟩ = some (.veth x)
  | .linkDeleteBridge name => x = ⟨.host, name⟩ ∨ h.links.kindAt ⟨.host, name⟩ = some (.veth x)
  | _ => False

/-- A link that is up stays so under a command that does not take it down. -/
theorem effect_up {c : NetCmd} {h h' : Host} {x : Loc} (hs : c.effect h = some h')
    (hc : ¬c.Downs h x) (hup : h.links.isUp x = true) : h'.links.isUp x = true := by
  have hkept : ∀ t : LinkTable, (h.links.lookup x ≠ none → t.lookup x = h.links.lookup x) →
      t.isUp x = true := by
    intro t ht
    obtain ⟨l, hl, -⟩ := LinkTable.isUp_iff.mp hup
    rw [LinkTable.isUp_congr (ht (by simp [hl]))]
    exact hup
  cases effect_step hs with
  | idle => exact hup
  | @setDev _ a f t ha ht hf =>
      by_cases hdown : ∃ dev, c = .linkDown dev
      · obtain ⟨dev, rfl⟩ := hdown
        obtain rfl := Option.some.inj ha
        exact hkept t fun _ => setDev_keeps ht hc
      · exact LinkTable.setDev_keeps_up ht (hf fun dev heq => hdown ⟨dev, heq⟩) hup
  | addBridge ht => exact hkept _ (addBridge_keeps ht)
  | addPair ht => exact hkept _ (addPair_keeps ht)
  | move _ _ ht => exact LinkTable.move_keeps_up ht hc hup
  | delete ht =>
      exact LinkTable.delete_keeps_up ht (fun hx => hc (Or.inl hx)) (fun hk => hc (Or.inr hk)) hup
  | deleteBridge ht =>
      exact LinkTable.delete_keeps_up ht (fun hx => hc (Or.inl hx)) (fun hk => hc (Or.inr hk)) hup
  | rules => exact hup
  | route => exact hup
  | forward => exact hup

/-- A default route stays under a command that gives the namespace none and does not take its
link down. -/
theorem effect_route {c : NetCmd} {h h' : Host} {n : NetNs} (hs : c.effect h = some h')
    (hn : ∀ pid gateway, c = .nsRouteAdd pid gateway → h.nsOf pid ≠ some n)
    (hdown : ∀ r, h.route n = some r → ¬c.Downs h ⟨n, r.dev⟩) : h'.route n = h.route n := by
  have hlinks : ∀ t : LinkTable, c.effect h = some (h.setLinks t) →
      (h.setLinks t).route n = h.route n :=
    fun t ht => Host.setLinks_route_eq fun r hr hup => effect_up ht (hdown r hr) hup
  cases effect_step hs with
  | @route pid gateway ns hns hup =>
      rw [Host.setRoute_route, Function.update_of_ne]
      rintro rfl
      exact hn pid gateway rfl hns
  | idle => rfl
  | rules => rfl
  | forward => rfl
  | _ => exact hlinks _ hs

/-- A link that a command does not name for removal is still there after it. -/
theorem effect_spares {c : NetCmd} {h h' : Host} {name : CStr} (hs : c.effect h = some h')
    (hc : c.Spares name) (hl : h.link name ≠ none) : h'.link name ≠ none := by
  cases effect_step hs with
  | idle => exact hl
  | setDev _ ht => exact (setDev_ne_none ht).mpr hl
  | addBridge ht => exact (addBridge_keeps ht hl).trans_ne hl
  | addPair ht => exact (addPair_keeps ht hl).trans_ne hl
  | move _ _ ht => exact move_ne_none ht (fun heq => hc (by simpa using heq.symm)) hl
  | delete => exact absurd hc id
  | deleteBridge => exact absurd hc id
  | rules => exact hl
  | route => exact hl
  | forward => exact hl

/-- The command does not touch the host link `l` at `name`: it writes to no device of
that name, and deletes or moves neither the link nor its peer nor its bridge. -/
def NetCmd.Avoids (name : CStr) (l : Link) : NetCmd → Prop
  | .addrAdd _ _ dev => dev ≠ name
  | .linkUp dev => dev ≠ name
  | .linkDown dev => dev ≠ name
  | .linkSetMaster dev _ => dev ≠ name
  | .nsAddrAdd _ _ dev => dev ≠ name
  | .nsLinkUp _ dev => dev ≠ name
  | .linkSetNetns dev _ => dev ≠ name ∧ l.kind ≠ .veth ⟨.host, dev⟩
  | .linkDelete dev => dev ≠ name ∧ l.kind ≠ .veth ⟨.host, dev⟩ ∧ l.dev.master ≠ some dev
  | .linkDeleteBridge dev => dev ≠ name ∧ l.kind ≠ .veth ⟨.host, dev⟩ ∧ l.dev.master ≠ some dev
  | _ => True

theorem NetCmd.Avoids.target_ne {c : NetCmd} {h : Host} {name : CStr} {l : Link} {a : Loc}
    (hc : c.Avoids name l) (ha : c.target h = some a) : (⟨.host, name⟩ : Loc) ≠ a := by
  have hname : a.name ≠ name := by
    cases c <;> simp only [NetCmd.target, Option.map_eq_some_iff, Option.some.injEq,
      reduceCtorEq] at ha
    case nsAddrAdd => obtain ⟨ns, -, rfl⟩ := ha; exact hc
    case nsLinkUp => obtain ⟨ns, -, rfl⟩ := ha; exact hc
    all_goals exact ha ▸ hc
  rintro rfl
  exact hname rfl

/-- A host link stays exactly as it is under a command that does not touch it. -/
theorem effect_avoids {c : NetCmd} {h h' : Host} {name : CStr} {l : Link}
    (hs : c.effect h = some h') (hc : c.Avoids name l) (hl : h.link name = some l) :
    h'.link name = some l := by
  have hsome : h.links.lookup ⟨.host, name⟩ ≠ none := by
    rw [← Host.link, hl]
    simp
  have hdelete : ∀ {dev : CStr} {t : LinkTable}, dev ≠ name ∧ l.kind ≠ .veth ⟨.host, dev⟩ ∧
      l.dev.master ≠ some dev → h.links.delete ⟨.host, dev⟩ = some t →
      t.lookup ⟨.host, name⟩ = some l := by
    intro dev t ⟨hne, hkind, hmaster⟩ ht
    refine LinkTable.delete_lookup ht (by simpa using hne.symm) ?_ hl fun _ => hmaster
    intro hk
    obtain ⟨l', hl', hk'⟩ := LinkTable.kindAt_eq_some.mp hk
    rw [Host.link, hl', Option.some.injEq] at hl
    exact hkind (hl ▸ hk')
  cases effect_step hs with
  | idle => exact hl
  | setDev ha ht => exact (setDev_keeps ht (hc.target_ne ha)).trans hl
  | addBridge ht => exact (addBridge_keeps ht hsome).trans hl
  | addPair ht => exact (addPair_keeps ht hsome).trans hl
  | @move dev pid ns t _ hns ht =>
      obtain ⟨la, hla, -, hall⟩ := LinkTable.move_eq_some ht
      have hkind : la.kind ≠ .veth ⟨.host, name⟩ := by
        intro hk
        have hback := (LinkTable.kindAt_peer (LinkTable.kindAt_eq_some.mpr ⟨la, hla, hk⟩)).2
        obtain ⟨l', hl', hk'⟩ := LinkTable.kindAt_eq_some.mp hback
        rw [Host.link, hl', Option.some.injEq] at hl
        exact hc.2 (hl ▸ hk')
      show t.lookup ⟨.host, name⟩ = some l
      rw [hall, if_neg (by simpa using fun heq => absurd heq.symm hns),
        if_neg (by simpa using hc.1.symm), if_neg hkind]
      exact hl
  | delete ht => exact hdelete hc ht
  | deleteBridge ht => exact hdelete hc ht
  | rules => exact hl
  | route => exact hl
  | forward => exact hl

/-! ### The commands that build a bridge -/

/-- The rules of bridge `b`. -/
def IsBridgeRule (b subnet : CStr) (r : Rule) : Prop :=
  r = .masquerade subnet b ∨ r = .acceptBridge b ∨ r = .acceptReplies b

/-- A command that writes at most the bridge `b` and its rules. -/
inductive BridgeCmd (b subnet : CStr) : NetCmd → Prop
  | linkShow : BridgeCmd b subnet (.linkShow b)
  | linkAddBridge : BridgeCmd b subnet (.linkAddBridge b)
  | addrAdd (addr pfx : CStr) : BridgeCmd b subnet (.addrAdd addr pfx b)
  | linkUp : BridgeCmd b subnet (.linkUp b)
  | sysctlForward : BridgeCmd b subnet .sysctlForward
  | appendRule {r : Rule} (hr : IsBridgeRule b subnet r) : BridgeCmd b subnet (.appendRule r)

theorem createBridge_uses (b subnet : CStr) (stack : Addr) :
    (networkCreateBridge b subnet stack).Uses (BridgeCmd b subnet) := by
  unfold networkCreateBridge
  simp only [Script.issue_bind]
  refine ⟨.linkShow, fun ok => ?_⟩
  cases ok with
  | true => exact trivial
  | false =>
      refine ⟨.linkAddBridge, fun ok => ?_⟩
      cases ok with
      | false => exact trivial
      | true =>
          simp only [if_pos]
          split
          · exact trivial
          · refine ⟨.addrAdd _ _, fun ok => ?_⟩
            cases ok with
            | false => exact trivial
            | true =>
                refine ⟨.linkUp, fun ok => ?_⟩
                cases ok with
                | false => exact trivial
                | true =>
                    exact ⟨.sysctlForward, fun _ => ⟨.appendRule (Or.inl rfl), fun _ =>
                      ⟨.appendRule (Or.inr (Or.inl rfl)), fun _ =>
                        ⟨.appendRule (Or.inr (Or.inr rfl)), fun _ => trivial⟩⟩⟩⟩

/-- Apart from bridge `b` and its rules the host `h'` is the host `h`. -/
structure SameApartFromBridge (b subnet : CStr) (h h' : Host) : Prop where
  links : ∀ x : Loc, x ≠ ⟨.host, b⟩ → h'.links.lookup x = h.links.lookup x
  rules : ∀ c, ∃ own, (∀ r ∈ own, IsBridgeRule b subnet r ∧ r.chain = c) ∧
    h'.rules c = h.rules c ++ own
  route : h'.route = h.route
  nsOf : h'.nsOf = h.nsOf

theorem SameApartFromBridge.refl (b subnet : CStr) (h : Host) : SameApartFromBridge b subnet h h :=
  ⟨fun _ _ => rfl, fun _ => ⟨[], by simp, by simp⟩, rfl, rfl⟩

theorem SameApartFromBridge.step {b subnet : CStr} {h s s' : Host} {c : NetCmd}
    (hc : BridgeCmd b subnet c) (hs : c.effect s = some s') (hI : SameApartFromBridge b subnet h s) :
    SameApartFromBridge b subnet h s' := by
  have hroute : s'.route = h.route := by
    rw [← hI.route]
    funext n
    refine effect_route hs ?_ fun r _ => ?_
    · rintro pid gateway rfl
      cases hc
    · cases hc <;> exact id
  have hlinks : ∀ t : LinkTable, (∀ x : Loc, x ≠ ⟨.host, b⟩ → t.lookup x = s.links.lookup x) →
      (s.setLinks t).route = h.route → SameApartFromBridge b subnet h (s.setLinks t) :=
    fun t ht hroute =>
      ⟨fun x hx => by rw [Host.setLinks_links, ht x hx, hI.links x hx], hI.rules, hroute, hI.nsOf⟩
  cases hc with
  | linkShow =>
      simp only [NetCmd.effect, Option.ite_none_right_eq_some, Option.some.injEq] at hs
      obtain ⟨-, rfl⟩ := hs
      exact hI
  | linkAddBridge =>
      obtain ⟨t, ht, rfl⟩ := Option.map_eq_some_iff.mp hs
      exact hlinks t (fun x hx => by rw [(LinkTable.addBridge_eq_some ht).2, if_neg hx]) hroute
  | addrAdd addr pfx =>
      obtain ⟨-, -, t, -, -, -, ht, rfl⟩ := Host.addAddr_eq_some hs
      exact hlinks t (fun x hx => setDev_keeps ht hx) hroute
  | linkUp =>
      obtain ⟨t, ht, rfl⟩ := Option.map_eq_some_iff.mp hs
      exact hlinks t (fun x hx => setDev_keeps ht hx) hroute
  | sysctlForward =>
      obtain rfl : { s with ipForward := true } = s' := by simpa [NetCmd.effect] using hs
      exact ⟨hI.links, hI.rules, hI.route, hI.nsOf⟩
  | @appendRule r hr =>
      obtain rfl : s.setRules r.chain (s.rules r.chain ++ [r]) = s' := by
        simpa [NetCmd.effect] using hs
      refine ⟨hI.links, fun c => ?_, hI.route, hI.nsOf⟩
      obtain ⟨own, hown, hrules⟩ := hI.rules c
      by_cases hc : c = r.chain
      · subst hc
        refine ⟨own ++ [r], ?_, by simp [hrules]⟩
        intro r' hr'
        rcases List.mem_append.mp hr' with hr' | hr'
        · exact hown r' hr'
        · obtain rfl : r' = r := by simpa using hr'
          exact ⟨hr, rfl⟩
      · exact ⟨own, hown, by simp [hc, hrules]⟩

/-- `network_create_bridge` writes nothing but the bridge and its rules. -/
theorem createBridge_same (b subnet : CStr) (stack : Addr) (w : World Host) :
    SameApartFromBridge b subnet w.state
      (run NetCmd.effect (networkCreateBridge b subnet stack) w).2.state :=
  Script.run_keeps NetCmd.effect (I := SameApartFromBridge b subnet w.state)
    (fun _ hc _ _ hs hI => hI.step hc hs) (createBridge_uses b subnet stack) w
    (.refl b subnet w.state)

theorem BridgeCmd.spares {b subnet name : CStr} {c : NetCmd} (hc : BridgeCmd b subnet c) :
    c.Spares name := by
  cases hc <;> exact trivial

/-- After a successful `network_create_bridge` there is a link of that name. -/
theorem createBridge_ok_link (b subnet : CStr) (stack : Addr) (w : World Host)
    (hok : (run NetCmd.effect (networkCreateBridge b subnet stack) w).1 = .ok) :
    (run NetCmd.effect (networkCreateBridge b subnet stack) w).2.state.link b ≠ none := by
  have hkeep : ∀ (s : NetScript CrCode), s.Uses (BridgeCmd b subnet) → ∀ h : Host,
      h.link b ≠ none → Script.wp NetCmd.effect s (fun _ h' => h'.link b ≠ none) h :=
    fun s hs => Script.wp_of_uses NetCmd.effect
      (fun c hc h h' hstep hl => effect_spares hstep hc.spares hl) hs
  have hwp : Script.wp NetCmd.effect (networkCreateBridge b subnet stack)
      (fun code h' => code = .ok → h'.link b ≠ none) w.state := by
    have huses := createBridge_uses b subnet stack
    unfold networkCreateBridge at huses ⊢
    simp only [Script.issue_bind, Script.wp_exec, Script.uses_exec] at huses ⊢
    refine ⟨fun s' hs => ?_, ⟨fun s' hs => ?_, ?_⟩⟩
    · -- the check succeeded: the link was there
      simp only [NetCmd.effect, Option.ite_none_right_eq_some, Option.some.injEq] at hs
      obtain ⟨hsome, rfl⟩ := hs
      intro _
      exact Option.isSome_iff_ne_none.mp hsome
    · -- the link was added, and what follows keeps it
      obtain ⟨t, ht, rfl⟩ := Option.map_eq_some_iff.mp hs
      have hl : (w.state.setLinks t).link b ≠ none := by
        rw [Host.link, Host.setLinks_links, (LinkTable.addBridge_eq_some ht).2, if_pos rfl]
        simp
      exact Script.wp_mono NetCmd.effect (fun code _ hl' (_ : code = CrCode.ok) => hl') _
        (hkeep _ ((huses.2 false).2 true) _ hl)
    · intro hc
      simp at hc
  exact Script.wp_run NetCmd.effect w hwp hok

end Cruntime
