/-
Containers set up and cleaned up again, in any order.

`Tended` is a fleet with the containers that are in hand: a setup was begun, with success or
not, and no cleanup since.  `Ledger` accounts for the whole host in terms of them.  A link that was
not there at the start is the host end of a container in hand or the other end of its pair; a
rule that was not there is one of a bridge, or stands for a mapping of a container in hand, no more
often than the mappings name it; and a default route that was not there goes through the end of
such a pair.  So a setup may fail wherever it likes: the cleanup that follows finds what is left,
and the container can be set up again.  What stays behind for good are the bridges, their rules,
and the loopback link of a container, which is up.
-/
import Cruntime.Net.Leavings

namespace Cruntime

open Script (run)

variable {ι : Type}

/-! ### What is on the host -/

/-- The containers differ in the names of their host ends, which are not names of their bridges and
which nothing has on the host. -/
structure Fleet.Distinct (start : Fleet ι) : Prop where
  veth : ∀ i j, start.veth i = start.veth j → i = j
  bridge : ∀ i j, (start.containers i).network.bridgeName ≠ start.veth j
  free : ∀ i, start.world.state.link (start.veth i) = none

/-- A bridge of the containers, or the loopback link of one. -/
def Fleet.Shared (start : Fleet ι) (x : Loc) : Prop :=
  (∃ i, x = ⟨.host, (start.containers i).network.bridgeName⟩) ∨
    ∃ i, IsLoopback start.world.state (start.containers i).initPid x

/-- The host end `vh`, or the other end of its pair. -/
def EndOf (vh : CStr) (h : Host) (x : Loc) : Prop :=
  x = ⟨.host, vh⟩ ∨ h.links.kindAt x = some (.veth ⟨.host, vh⟩)

/-- What is on the host `h` is accounted for. -/
structure Ledger (start : Fleet ι) (containers : ι → Container) (inHand : ι → Bool) (h : Host) :
    Prop where
  settings : ∀ i, SameSettings (start.containers i) (containers i)
  nsOf : h.nsOf = start.world.state.nsOf
  free : ∀ i, inHand i = false → h.link (start.veth i) = none
  pair : ∀ i, h.link (start.veth i) ≠ none → (containers i).network.ipAddress ≠ [] ∧
    ∃ p : Loc, p.name = vethContainer ∧ h.links.kindAt ⟨.host, start.veth i⟩ = some (.veth p)
  links : ∀ x, ¬start.Shared x →
    h.links.lookup x = start.world.state.links.lookup x ∨
      start.world.state.links.lookup x = none ∧ ∃ i, EndOf (start.veth i) h x
  rules : ∀ ch, ∃ tail, h.rules ch = start.world.state.rules ch ++ tail ∧ ∀ r ∈ tail,
    (∃ i, IsBridgeRule (start.containers i).network.bridgeName
      (start.containers i).network.subnet r) ∨
    ∃ i, h.link (start.veth i) ≠ none ∧ r ∈ onChain ch (containers i).forwarding ∧
      tail.count r ≤ (onChain ch (containers i).forwarding).count r
  kinds : ∀ x k, start.world.state.links.kindAt x = some k → h.links.kindAt x = some k
  route : ∀ ns, h.route ns = start.world.state.route ns ∨
    start.world.state.route ns = none ∧
      ∃ r, h.route ns = some r ∧ ∃ i, EndOf (start.veth i) h ⟨ns, r.dev⟩

variable {start : Fleet ι} {containers : ι → Container} {inHand : ι → Bool} {h h' v : Host}

theorem ledger_idle (hd : start.Distinct) :
    Ledger start start.containers (fun _ => false) start.world.state where
  settings _ := .refl _
  nsOf := rfl
  free i _ := hd.free i
  pair i hi := absurd (hd.free i) hi
  links _ _ := Or.inl rfl
  rules _ := ⟨[], (List.append_nil _).symm, fun _ hr => absurd hr List.not_mem_nil⟩
  kinds _ _ hk := hk
  route _ := Or.inl rfl

/-! ### Names and rules that differ -/

theorem Fleet.Distinct.not_shared (hd : start.Distinct) (i : ι) :
    ¬start.Shared ⟨.host, start.veth i⟩ := by
  rintro (⟨j, hj⟩ | ⟨j, ns, -, hlo⟩)
  · exact hd.bridge j i (Loc.mk.inj hj).2.symm
  · exact (unwritten_vethHost (start.containers i).id).2 (Loc.mk.inj hlo).2

theorem not_bridgeRule_of_mem {c : Container} {r : Rule} (hr : r ∈ c.forwarding) (b subnet : CStr) :
    ¬IsBridgeRule b subnet r := by
  unfold Container.forwarding forwardingRules at hr
  obtain ⟨pm, -, hr⟩ := List.mem_flatMap.mp hr
  simp only [List.mem_cons, List.not_mem_nil, or_false] at hr
  obtain rfl | rfl := hr
  · rintro (h | h | h) <;> cases h
  · rintro (h | h | h) <;> cases h

theorem mem_of_mem_onChain {ch : Chain} {rules : List Rule} {r : Rule} (hr : r ∈ onChain ch rules) :
    r ∈ rules := List.mem_of_mem_filter hr

theorem kindAt_congr {t t' : LinkTable} {x : Loc} (hsame : t'.lookup x = t.lookup x) :
    t'.kindAt x = t.kindAt x := by
  unfold LinkTable.kindAt
  rw [hsame]

/-- The mappings of a container with a link keep their rules. -/
theorem SameSettings.forwarding {c c' : Container} (hset : SameSettings c c')
    (haddress : c.network.ipAddress ≠ []) : c'.forwarding = c.forwarding := by
  unfold Container.forwarding
  rw [hset.ipAddress haddress, hset.ports]

/-- Where the kinds of links are kept, so are the ends of pairs. -/
theorem EndOf.kept {vh : CStr} {x : Loc} (hend : EndOf vh h x)
    (hkinds : ∀ k, h.links.kindAt x = some k → h'.links.kindAt x = some k) : EndOf vh h' x :=
  hend.imp_right (hkinds _)

/-! ### What a setup adds -/

variable [DecidableEq ι]

/-- The bridge, and an address for container `i`. -/
theorem Ledger.bridge (hd : start.Distinct) (hl : Ledger start containers inHand h) {i : ι}
    {c' : Container} (hset : SameSettings (containers i) c')
    (hv : SameApartFromBridge c'.network.bridgeName c'.network.subnet h v)
    (hkept : ∀ name l, h.link name = some l → v.link name = some l) :
    Ledger start (Function.update containers i c') (Function.update inHand i true) v := by
  have hsettings : ∀ j, SameSettings (start.containers j) (Function.update containers i c' j) := by
    intro j
    by_cases hj : j = i
    · subst hj
      rw [Function.update_self]
      exact (hl.settings j).trans hset
    · rw [Function.update_of_ne hj]
      exact hl.settings j
  have hown := hsettings i
  rw [Function.update_self] at hown
  have hlook : ∀ x, ¬start.Shared x → v.links.lookup x = h.links.lookup x := by
    intro x hx
    refine hv.links x ?_
    rintro rfl
    exact hx (Or.inl ⟨i, by rw [hown.bridgeName]⟩)
  have hlink : ∀ j, v.link (start.veth j) = h.link (start.veth j) :=
    fun j => hlook _ (hd.not_shared j)
  have hkinds : ∀ x k, h.links.kindAt x = some k → v.links.kindAt x = some k := by
    intro x k hk
    obtain ⟨l, hl, rfl⟩ := LinkTable.kindAt_eq_some.mp hk
    refine LinkTable.kindAt_eq_some.mpr ⟨l, ?_, rfl⟩
    by_cases hx : x = ⟨.host, c'.network.bridgeName⟩
    · subst hx
      exact hkept _ l hl
    · rw [hv.links x hx, hl]
  -- a container that has a link has its address, and keeps its rules
  have hkeep : ∀ j, h.link (start.veth j) ≠ none →
      (Function.update containers i c' j).network.ipAddress = (containers j).network.ipAddress ∧
        (Function.update containers i c' j).forwarding = (containers j).forwarding := by
    intro j hj
    by_cases hji : j = i
    · subst hji
      rw [Function.update_self]
      exact ⟨hset.ipAddress (hl.pair j hj).1, hset.forwarding (hl.pair j hj).1⟩
    · rw [Function.update_of_ne hji]
      exact ⟨rfl, rfl⟩
  refine ⟨hsettings, hv.nsOf.trans hl.nsOf, ?_, ?_, ?_, ?_,
    fun x k hk => hkinds x k (hl.kinds x k hk), ?_⟩
  · intro j hj
    rw [hlink]
    refine hl.free j ?_
    by_cases hji : j = i
    · rw [hji, Function.update_self] at hj
      cases hj
    · rwa [Function.update_of_ne hji] at hj
  · intro j hj
    rw [hlink] at hj
    obtain ⟨haddress, p, hname, hkind⟩ := hl.pair j hj
    refine ⟨by rw [(hkeep j hj).1]; exact haddress, p, hname, ?_⟩
    rw [kindAt_congr (hlook _ (hd.not_shared j))]
    exact hkind
  · intro x hx
    rw [hlook x hx]
    refine (hl.links x hx).imp_right ?_
    rintro ⟨hnone, j, hend⟩
    exact ⟨hnone, j, hend.kept (hkinds x)⟩
  · intro ch
    obtain ⟨tail, hrules, htail⟩ := hl.rules ch
    obtain ⟨own, hbridge, happend⟩ := hv.rules ch
    refine ⟨tail ++ own, by rw [happend, hrules, List.append_assoc], ?_⟩
    intro r hr
    by_cases hrown : r ∈ own
    · refine Or.inl ⟨i, ?_⟩
      rw [← hown.bridgeName, ← hown.subnet]
      exact (hbridge r hrown).1
    · refine (htail r ((List.mem_append.mp hr).resolve_right hrown)).imp_right ?_
      rintro ⟨j, hj, hmem, hcount⟩
      refine ⟨j, by rw [hlink]; exact hj, ?_⟩
      rw [(hkeep j hj).2, List.count_append, List.count_eq_zero.mpr hrown, Nat.add_zero]
      exact ⟨hmem, hcount⟩
  · intro ns
    rw [hv.route]
    refine (hl.route ns).imp_right ?_
    rintro ⟨hnone, r, hr, j, hend⟩
    exact ⟨hnone, r, hr, j, hend.kept (hkinds _)⟩

/-- The pair of container `i`, and rules of its mappings. -/
theorem Ledger.addPair (hd : start.Distinct) (hl : Ledger start containers inHand h) {i : ι}
    {p : Loc} (haddress : (containers i).network.ipAddress ≠ []) (hin : inHand i = true)
    (hpair : PairOn (start.veth i) (start.containers i).initPid p h h')
    (hrules : ∀ ch, ∃ added, added.Sublist (onChain ch (containers i).forwarding) ∧
      h'.rules ch = h.rules ch ++ added)
    (hothers : ∀ j, j ≠ i → inHand j = true →
      ∀ r ∈ (containers i).forwarding, r ∉ (containers j).forwarding) :
    Ledger start containers inHand h' := by
  have hlook : ∀ x, x ≠ ⟨.host, start.veth i⟩ → x ≠ p → ¬start.Shared x →
      h'.links.lookup x = h.links.lookup x := by
    intro x hx hxp hshared
    refine hpair.others x hx hxp ?_
    rintro ⟨ns, hns, hlo⟩
    exact hshared (Or.inr ⟨i, ns, by rw [← hl.nsOf]; exact hns, hlo⟩)
  have hveth : ∀ j, j ≠ i → h'.links.lookup ⟨.host, start.veth j⟩ =
      h.links.lookup ⟨.host, start.veth j⟩ := by
    intro j hj
    refine hlook _ ?_ ?_ (hd.not_shared j)
    · intro heq
      exact hj (hd.veth j i (Loc.mk.inj heq).2)
    · rintro rfl
      exact vethHost_ne_vethContainer _ hpair.peerName
  have hthere : h'.link (start.veth i) ≠ none := LinkTable.lookup_ne_none hpair.kind
  have hbase : ∀ x, ¬start.Shared x → h.links.lookup x = none →
      start.world.state.links.lookup x = none := by
    intro x hx hnone
    obtain hsame | ⟨hfree, -⟩ := hl.links x hx
    · rw [← hsame, hnone]
    · exact hfree
  -- whose link a container in hand has
  have hinHand : ∀ j, h.link (start.veth j) ≠ none → inHand j = true := by
    intro j hj
    cases hhand : inHand j with
    | true => rfl
    | false => exact absurd (hl.free j hhand) hj
  refine ⟨hl.settings, hpair.nsOf.trans hl.nsOf, ?_, ?_, ?_, ?_,
    fun x k hk => hpair.kinds x k (hl.kinds x k hk), ?_⟩
  · intro j hj
    have hji : j ≠ i := by
      rintro rfl
      rw [hin] at hj
      cases hj
    exact (hveth j hji).trans (hl.free j hj)
  · intro j hj
    by_cases hji : j = i
    · subst hji
      exact ⟨haddress, p, hpair.peerName, hpair.kind⟩
    · obtain ⟨haddress', p', hname, hkind⟩ := hl.pair j (by rwa [Host.link, hveth j hji] at hj)
      exact ⟨haddress', p', hname, (kindAt_congr (hveth j hji)).trans hkind⟩
  · intro x hx
    by_cases hxi : x = ⟨.host, start.veth i⟩
    · exact Or.inr ⟨hbase x hx (by rw [hxi]; exact hpair.hostFree), i, Or.inl hxi⟩
    · by_cases hxp : x = p
      · refine Or.inr ⟨hbase x hx (by rw [hxp]; exact hpair.peerFree), i, Or.inr ?_⟩
        rw [hxp]
        exact (LinkTable.kindAt_peer hpair.kind).2
      · rw [hlook x hxi hxp hx]
        refine (hl.links x hx).imp_right ?_
        rintro ⟨hnone, j, hend⟩
        exact ⟨hnone, j, hend.kept (hpair.kinds x)⟩
  · intro ch
    obtain ⟨tail, htailrules, htail⟩ := hl.rules ch
    obtain ⟨added, hsub, happend⟩ := hrules ch
    refine ⟨tail ++ added, by rw [happend, htailrules, List.append_assoc], ?_⟩
    intro r hr
    by_cases hadded : r ∈ added
    · have hown := hsub.subset hadded
      have hnew : r ∉ tail := by
        intro hold
        obtain ⟨j, hj⟩ | ⟨j, hj, hmem, -⟩ := htail r hold
        · exact not_bridgeRule_of_mem (mem_of_mem_onChain hown) _ _ hj
        · have hji : j ≠ i := by
            rintro rfl
            exact hj hpair.hostFree
          exact hothers j hji (hinHand j hj) r (mem_of_mem_onChain hown)
            (mem_of_mem_onChain hmem)
      refine Or.inr ⟨i, hthere, hown, ?_⟩
      rw [List.count_append, List.count_eq_zero.mpr hnew, Nat.zero_add]
      exact hsub.count_le r
    · refine (htail r ((List.mem_append.mp hr).resolve_right hadded)).imp_right ?_
      rintro ⟨j, hj, hmem, hcount⟩
      have hji : j ≠ i := by
        rintro rfl
        exact hj hpair.hostFree
      refine ⟨j, by rw [Host.link, hveth j hji]; exact hj, hmem, ?_⟩
      rw [List.count_append, List.count_eq_zero.mpr hadded, Nat.add_zero]
      exact hcount
  · intro ns
    obtain hsame | ⟨hnone, rfl, gateway, hnew⟩ := hpair.route ns
    · rw [hsame]
      refine (hl.route ns).imp_right ?_
      rintro ⟨hnone, r, hr, j, hend⟩
      exact ⟨hnone, r, hr, j, hend.kept (hpair.kinds _)⟩
    · -- the new route goes through the peer
      have hbefore : start.world.state.route p.ns = none := by
        obtain hsame | ⟨hstart, -⟩ := hl.route p.ns
        · rw [← hsame, hnone]
        · exact hstart
      exact Or.inr ⟨hbefore, _, hnew, i, Or.inr (LinkTable.kindAt_peer hpair.kind).2⟩

/-! ### What a cleanup takes away -/

/-- A cleanup of container `i` that nothing refuses. -/
theorem Ledger.cleanup (hd : start.Distinct) (hl : Ledger start containers inHand h) {i : ι}
    (htakes : CleanupTakes (containers i) h h')
    (hhost : ∀ r ∈ (containers i).forwarding, ∀ ch, r ∉ start.world.state.rules ch)
    (hothers : ∀ j, j ≠ i → inHand j = true →
      ∀ r ∈ (containers i).forwarding, r ∉ (containers j).forwarding) :
    Ledger start containers (Function.update inHand i false) h' := by
  set a : Loc := ⟨.host, start.veth i⟩ with ha
  have hname : vethHost (containers i).id = start.veth i := by
    unfold Fleet.veth
    rw [(hl.settings i).id]
  have hlook : ∀ x, h'.links.lookup x =
      if x = a ∨ h.links.kindAt x = some (.veth a) then none else h.links.lookup x := by
    intro x
    rw [htakes.links, hname]
    refine lookup_deleted ?_ x
    by_cases hthere : h.link (start.veth i) = none
    · exact Or.inl hthere
    · obtain ⟨-, p, -, hkind⟩ := hl.pair i hthere
      exact Or.inr ⟨p, hkind⟩
  have hsame : ∀ x, h'.links.lookup x ≠ none → h'.links.lookup x = h.links.lookup x := by
    intro x hx
    rw [hlook] at hx ⊢
    split_ifs at hx ⊢
    · exact absurd rfl hx
    · rfl
  -- the other containers keep their links
  have hkeep : ∀ j, j ≠ i → h'.links.lookup ⟨.host, start.veth j⟩ =
      h.links.lookup ⟨.host, start.veth j⟩ := by
    intro j hj
    rw [hlook]
    split_ifs with hx
    · obtain hx | hx := hx
      · exact absurd (hd.veth j i (Loc.mk.inj hx).2) hj
      · obtain ⟨-, p, hpname, hkind⟩ := hl.pair j (LinkTable.lookup_ne_none hx)
        rw [hx] at hkind
        obtain rfl := LinkKind.veth.inj (Option.some.inj hkind)
        exact absurd hpname (vethHost_ne_vethContainer _)
    · rfl
  -- what was there at the start is neither end of the pair
  have hstay : ∀ x k, start.world.state.links.kindAt x = some k →
      ¬(x = a ∨ h.links.kindAt x = some (.veth a)) := by
    rintro x k hk (rfl | hpeer)
    · exact LinkTable.lookup_ne_none hk (hd.free i)
    · obtain rfl := Option.some.inj ((hl.kinds x k hk).symm.trans hpeer)
      exact LinkTable.lookup_ne_none (LinkTable.kindAt_peer hk).2 (hd.free i)
  refine ⟨hl.settings, htakes.nsOf.trans hl.nsOf, ?_, ?_, ?_, ?_, ?_, ?_⟩
  · intro j hj
    by_cases hji : j = i
    · subst hji
      show h'.links.lookup a = none
      rw [hlook, if_pos (Or.inl rfl)]
    · rw [Function.update_of_ne hji] at hj
      exact (hkeep j hji).trans (hl.free j hj)
  · intro j hj
    have hold := hsame _ hj
    obtain ⟨haddress, p, hpname, hkind⟩ := hl.pair j (by rw [Host.link, ← hold]; exact hj)
    exact ⟨haddress, p, hpname, (kindAt_congr hold).trans hkind⟩
  · intro x hx
    by_cases hgone : x = a ∨ h.links.kindAt x = some (.veth a)
    · -- it was not there at the start
      refine Or.inl ?_
      rw [hlook, if_pos hgone]
      obtain rfl | hkind := hgone
      · exact (hd.free i).symm
      · obtain hstart | ⟨hnone, -⟩ := hl.links x hx
        · have hpeer := (LinkTable.kindAt_peer ((kindAt_congr hstart).symm.trans hkind)).2
          exact absurd (hd.free i) (LinkTable.lookup_ne_none hpeer)
        · exact hnone.symm
    · have hstays : h'.links.lookup x = h.links.lookup x := by rw [hlook, if_neg hgone]
      rw [hstays]
      refine (hl.links x hx).imp_right ?_
      rintro ⟨hnone, j, hend⟩
      refine ⟨hnone, j, hend.imp_right ?_⟩
      intro hkind
      exact (kindAt_congr hstays).trans hkind
  · intro ch
    obtain ⟨tail, hrules, htail⟩ := hl.rules ch
    refine ⟨tail.diff (onChain ch (containers i).forwarding), ?_, ?_⟩
    · rw [htakes.rules, hrules]
      refine RuleChain.append_diff_of_disjoint _ _ _ ?_
      intro r hr
      exact hhost r (mem_of_mem_onChain hr) ch
    · intro r hr
      have hcount := List.count_diff r tail (onChain ch (containers i).forwarding)
      have hpos : 0 < (tail.diff (onChain ch (containers i).forwarding)).count r :=
        List.count_pos_iff.mpr hr
      refine (htail r ((List.diff_sublist _ _).subset hr)).imp_right ?_
      rintro ⟨j, hj, hmem, hle⟩
      have hji : j ≠ i := by
        rintro rfl
        omega
      exact ⟨j, by rw [Host.link, hkeep j hji]; exact hj, hmem, by omega⟩
  · intro x k hk
    rw [kindAt_congr ((hlook x).trans (if_neg (hstay x k hk)))]
    exact hl.kinds x k hk
  · intro ns
    obtain hsame | ⟨hnone, r, hr, j, hend⟩ := hl.route ns
    · refine Or.inl ?_
      rw [htakes.route, hsame]
      cases hr : start.world.state.route ns with
      | none => rfl
      | some r =>
          obtain ⟨l, hl', -⟩ := LinkTable.isUp_iff.mp (start.world.state.routed hr)
          refine Option.filter_some_pos ?_
          rw [LinkTable.isUp_congr ((hlook _).trans
            (if_neg (hstay _ _ (LinkTable.kindAt_eq_some.mpr ⟨l, hl', rfl⟩))))]
          exact h.routed (hsame.trans hr)
    · rw [htakes.route, hr]
      by_cases hgone : (⟨ns, r.dev⟩ : Loc) = a ∨ h.links.kindAt ⟨ns, r.dev⟩ = some (.veth a)
      · -- the route went with its link
        refine Or.inl ?_
        rw [hnone]
        refine Option.filter_some_neg ?_
        unfold LinkTable.isUp
        rw [hlook, if_pos hgone]
        simp
      · have hthere := (hlook ⟨ns, r.dev⟩).trans (if_neg hgone)
        refine Or.inr ⟨hnone, r, Option.filter_some_pos ?_, j,
          hend.imp_right fun hk => (kindAt_congr hthere).trans hk⟩
        rw [LinkTable.isUp_congr hthere]
        exact h.routed hr

/-! ### Runs -/

def FleetCall.begins : FleetCall ι → Bool
  | .setup _ _ => true
  | .cleanup _ => false

/-- A fleet, and the containers in hand: a setup was begun, and no cleanup has been made since. -/
structure Tended (ι : Type) where
  fleet : Fleet ι
  inHand : ι → Bool

def Tended.step (t : Tended ι) (call : FleetCall ι) : Tended ι :=
  ⟨t.fleet.step call, Function.update t.inHand call.who call.begins⟩

/-- Nothing was begun. -/
def Tended.idle (start : Fleet ι) : Tended ι := ⟨start, fun _ => false⟩

/-- A call does not meet rules that are not its own: those of its container's mappings were not on
the host before and are not those of another container in hand, and no command of a cleanup is
refused. -/
structure Apart (start : Fleet ι) (t : Tended ι) (call : FleetCall ι) : Prop where
  host : ∀ r ∈ ((t.fleet.step call).containers call.who).forwarding, ∀ ch,
    r ∉ start.world.state.rules ch
  others : ∀ j, j ≠ call.who → t.inHand j = true →
    ∀ r ∈ ((t.fleet.step call).containers call.who).forwarding,
      r ∉ (t.fleet.containers j).forwarding
  calm : ∀ i, call = .cleanup i →
    ∀ n < (networkCleanupContainer (t.fleet.containers i)).depth, t.fleet.world.faults n = false

/-- The account of a fleet. -/
def Tended.Accounted (start : Fleet ι) (t : Tended ι) : Prop :=
  Ledger start t.fleet.containers t.inHand t.fleet.world.state

/-- **One call keeps the account.** -/
theorem Tended.accounted_step (hd : start.Distinct) (t : Tended ι) (call : FleetCall ι)
    (hapart : Apart start t call) (hl : t.Accounted start) : (t.step call).Accounted start := by
  cases call with
  | setup i env =>
      obtain ⟨hset, hleaves⟩ := setup_leaves env (t.fleet.containers i) t.fleet.world
      have hothers := hapart.others
      have hcontainers : ((t.fleet.step (.setup i env)).containers i) =
          (t.fleet.attempt i env).1.2 := by
        rw [Fleet.step_setup_containers, if_pos rfl]
      dsimp only [FleetCall.who] at hothers
      rw [hcontainers] at hothers
      show Ledger start (Function.update t.fleet.containers i (t.fleet.attempt i env).1.2)
        (Function.update t.inHand i true) (t.fleet.attempt i env).2.state
      change SameSettings _ (t.fleet.attempt i env).1.2 at hset
      change SetupLeaves (t.fleet.attempt i env).1.2 _ (t.fleet.attempt i env).2.state at hleaves
      cases hleaves with
      | nothing hsame hkept => exact hl.bridge hd hset hsame hkept
      | @pair v p haddress hbridge hkept hpair hrules =>
          have hown := (hl.settings i).trans hset
          have hname : vethHost (t.fleet.attempt i env).1.2.id = start.veth i := by
            unfold Fleet.veth
            rw [hown.id]
          refine (hl.bridge hd hset hbridge hkept).addPair hd (i := i) (p := p) ?_ ?_ ?_ ?_ ?_
          · rw [Function.update_self]
            exact haddress
          · exact Function.update_self _ _ _
          · rw [← hname, ← hown.initPid]
            exact hpair
          · rw [Function.update_self]
            exact hrules
          · intro j hj hin r hr
            rw [Function.update_of_ne hj] at hin ⊢
            rw [Function.update_self] at hr
            exact hothers j hj hin r hr
  | cleanup i =>
      exact hl.cleanup hd (cleanup_takes (hapart.calm i rfl)) hapart.host hapart.others

/-- What is on the host, and whose it is. -/
structure Explained (start : Fleet ι) (t : Tended ι) : Prop where
  links : ∀ x, ¬start.Shared x →
    t.fleet.world.state.links.lookup x = start.world.state.links.lookup x ∨
      start.world.state.links.lookup x = none ∧
        ∃ i, t.inHand i = true ∧ EndOf (start.veth i) t.fleet.world.state x
  rules : ∀ ch, ∃ tail,
    t.fleet.world.state.rules ch = start.world.state.rules ch ++ tail ∧ ∀ r ∈ tail,
      (∃ i, IsBridgeRule (start.containers i).network.bridgeName
        (start.containers i).network.subnet r) ∨
      ∃ i, t.inHand i = true ∧
        tail.count r ≤ (onChain ch (t.fleet.containers i).forwarding).count r
  kinds : ∀ x k, start.world.state.links.kindAt x = some k →
    t.fleet.world.state.links.kindAt x = some k
  route : ∀ ns, t.fleet.world.state.route ns = start.world.state.route ns ∨
    start.world.state.route ns = none ∧ ∃ r, t.fleet.world.state.route ns = some r ∧
      ∃ i, t.inHand i = true ∧ EndOf (start.veth i) t.fleet.world.state ⟨ns, r.dev⟩

omit [DecidableEq ι] in
theorem Tended.Accounted.explained (hd : start.Distinct) {t : Tended ι}
    (hl : t.Accounted start) : Explained start t := by
  have hinHand : ∀ i, t.fleet.world.state.link (start.veth i) ≠ none → t.inHand i = true := by
    intro i hi
    cases hhand : t.inHand i with
    | true => rfl
    | false => exact absurd (hl.free i hhand) hi
  have hthere : ∀ i x, EndOf (start.veth i) t.fleet.world.state x →
      t.fleet.world.state.links.lookup x ≠ none → t.inHand i = true := by
    rintro i x (rfl | hkind) hx
    · exact hinHand i hx
    · exact hinHand i (LinkTable.lookup_ne_none (LinkTable.kindAt_peer hkind).2)
  refine ⟨?_, ?_, hl.kinds, ?_⟩
  · intro x hx
    obtain hsame | ⟨hnone, i, hend⟩ := hl.links x hx
    · exact Or.inl hsame
    · by_cases hthere : t.fleet.world.state.link (start.veth i) = none
      · obtain rfl | hkind := hend
        · exact Or.inl (hthere.trans (hd.free i).symm)
        · exact absurd hthere (LinkTable.lookup_ne_none (LinkTable.kindAt_peer hkind).2)
      · exact Or.inr ⟨hnone, i, hinHand i hthere, hend⟩
  · intro ch
    obtain ⟨tail, hrules, htail⟩ := hl.rules ch
    refine ⟨tail, hrules, ?_⟩
    intro r hr
    refine (htail r hr).imp_right ?_
    rintro ⟨i, hi, -, hcount⟩
    exact ⟨i, hinHand i hi, hcount⟩
  · intro ns
    refine (hl.route ns).imp_right ?_
    rintro ⟨hnone, r, hr, i, hend⟩
    obtain ⟨l, hl', -⟩ := LinkTable.isUp_iff.mp (t.fleet.world.state.routed hr)
    exact ⟨hnone, r, hr, i, hthere i _ hend (by simp [hl']), hend⟩

/-- When every container has been cleaned up, the bridges and their rules are what is left. -/
theorem nothing_left_of_cleaned (hd : start.Distinct) (calls : List (FleetCall ι))
    (hcalls : Runs.Along Tended.step (Apart start) (.idle start) calls)
    (hcleaned : ∀ i, (Runs.after Tended.step (.idle start) calls).inHand i = false) :
    (∀ x, ¬start.Shared x →
      (Runs.after Tended.step (.idle start) calls).fleet.world.state.links.lookup x =
        start.world.state.links.lookup x) ∧
      (∀ ch, ∃ own, (∀ r ∈ own, ∃ i, IsBridgeRule (start.containers i).network.bridgeName
          (start.containers i).network.subnet r) ∧
        (Runs.after Tended.step (.idle start) calls).fleet.world.state.rules ch =
          start.world.state.rules ch ++ own) ∧
      (Runs.after Tended.step (.idle start) calls).fleet.world.state.route =
        start.world.state.route := by
  have hexplained := Tended.Accounted.explained hd (Runs.keeps Tended.step
    (I := Tended.Accounted start) (Tended.accounted_step hd) calls (.idle start) hcalls
    (ledger_idle hd))
  have hnobody : ∀ i, (Runs.after Tended.step (.idle start) calls).inHand i ≠ true := by
    intro i
    rw [hcleaned i]
    exact Bool.false_ne_true
  refine ⟨fun x hx => ?_, fun ch => ?_, funext fun ns => ?_⟩
  · obtain hsame | ⟨-, i, hi, -⟩ := hexplained.links x hx
    · exact hsame
    · exact absurd hi (hnobody i)
  · obtain ⟨tail, hrules, htail⟩ := hexplained.rules ch
    refine ⟨tail, fun r hr => ?_, hrules⟩
    obtain hbridge | ⟨i, hi, -⟩ := htail r hr
    · exact hbridge
    · exact absurd hi (hnobody i)
  · obtain hsame | ⟨-, r, -, i, hi, -⟩ := hexplained.route ns
    · exact hsame
    · exact absurd hi (hnobody i)

end Cruntime
