/-
What a clash of two setups costs.

A command that is not clear makes one of the two calls return an error, whatever comes
after it.  Where the pair cannot be added because the other call's peer is the host's
`eth0`, the call returns at once.  Where both calls are about to add the bridge, or one
is and the bridge is there, the later one will return: no command of either call removes
the bridge.  So both calls return `CR_OK` only in runs whose commands are all clear.
-/
import Cruntime.Net.TwoSetups

namespace Cruntime

open Script (Item Follows execAll run)

namespace TwoSetups

variable {T : TwoSetups} {p : SetupPool} {stage : Bool → Stage} {l : List (Item NetCmd)}

/-! ### What a call is about to issue -/

/-- The next command of call `i` in a stage. -/
def nextItem (T : TwoSetups) (i : Bool) : Stage → Option (Item NetCmd)
  | .start => some ⟨.linkShow T.bridge, true⟩
  | .creating l => (l ++ attachItems (T.call i)).head?
  | .attaching st => (st.items (T.call i)).head?

theorem Going.issues_eq (hI : T.Going p stage l) (kind : NetCmd → Bool) (i : Bool) :
    issues kind (p.threads i) = (T.nextItem i (stage i)).any fun x => kind x.cmd := by
  have hthread := hI.threads i
  unfold issues
  cases hstage : stage i with
  | start =>
      rw [hstage] at hthread
      obtain ⟨k, hk, -⟩ := hthread
      rw [hk]
      rfl
  | creating l' =>
      rw [hstage] at hthread
      rw [Follows.head?_eq hthread, Option.any_map]
      rfl
  | attaching st =>
      rw [hstage] at hthread
      rw [Follows.head?_eq hthread, Option.any_map]
      rfl

/-- The kinds of the commands that make the bridge. -/
theorem create_kinds {x : Item NetCmd} (hx : x ∈ T.create) (i : Bool) :
    x.cmd.looksForBridge = false ∧ x.cmd.addsPair = false ∧
      x.cmd.holdsEth0 (T.ids i) = false ∧
      (x.cmd.addsBridge = true → x = ⟨.linkAddBridge T.bridge, true⟩) := by
  have hne : T.bridge ≠ vethHost (T.ids i) := by
    intro heq
    exact T.bridge_not_inRegion i (Or.inl (congrArg (Loc.mk .host) heq))
  obtain ⟨gateway, pfx, heq⟩ := T.create_eq (List.ne_nil_of_mem hx)
  rw [heq] at hx
  simp only [createItems, List.mem_cons, List.not_mem_nil, or_false] at hx
  rcases hx with rfl | rfl | rfl | rfl | rfl | rfl | rfl <;>
    simp [NetCmd.looksForBridge, NetCmd.addsPair, NetCmd.holdsEth0, NetCmd.addsBridge, hne]

/-- The kinds of the commands of a call's own part. -/
theorem attach_kinds {c : Container} {st : AttachStage} {s : Host} (hst : st.Holds c s)
    {x : Item NetCmd} (hx : (st.items c).head? = some x) :
    x.cmd.looksForBridge = false ∧ x.cmd.addsBridge = false ∧
      (x.cmd.addsPair = true → x = addItem c) ∧
      (x.cmd.holdsEth0 c.id = true → st.inWindow = true) := by
  match st with
  | .before =>
      obtain rfl : addItem c = x := Option.some.inj hx
      exact ⟨rfl, rfl, fun _ => rfl, fun h => by simp [addItem, NetCmd.holdsEth0] at h⟩
  | .window [] =>
      obtain rfl : moveItem c = x := Option.some.inj hx
      exact ⟨rfl, rfl, fun h => by simp [moveItem, NetCmd.addsPair] at h, fun _ => rfl⟩
  | .window (y :: m) =>
      obtain rfl : y = x := Option.some.inj hx
      have hy := hst.2 y (by simp)
      simp only [hostItems, List.mem_cons, List.not_mem_nil, or_false] at hy
      rcases hy with rfl | rfl <;>
        simp [NetCmd.looksForBridge, NetCmd.addsBridge, NetCmd.addsPair, AttachStage.inWindow]
  | .inside [] => simp [AttachStage.items] at hx
  | .inside (y :: m) =>
      obtain rfl : y = x := Option.some.inj hx
      have hy := hst y (by simp)
      simp only [insideItems, List.mem_cons, List.mem_map] at hy
      rcases hy with rfl | rfl | rfl | rfl | ⟨r, -, rfl⟩ <;>
        simp [NetCmd.looksForBridge, NetCmd.addsBridge, NetCmd.addsPair, NetCmd.holdsEth0]

/-- Where a call stands that has a command of one of the four kinds next. -/
theorem Going.next_cases (hI : T.Going p stage l) {kind : NetCmd → Bool} {i : Bool}
    (hkind : issues kind (p.threads i) = true) :
    (stage i = .start ∧ kind (.linkShow T.bridge) = true) ∨
      (∃ x rest, stage i = .creating (x :: rest) ∧ x ∈ T.create ∧ kind x.cmd = true) ∨
      (∃ st x, stage i = .attaching st ∧ st.Holds (T.call i) p.state ∧
        (st.items (T.call i)).head? = some x ∧ kind x.cmd = true) := by
  rw [hI.issues_eq] at hkind
  cases hstage : stage i with
  | start =>
      rw [hstage] at hkind
      exact Or.inl ⟨rfl, hkind⟩
  | creating l' =>
      obtain ⟨rfl, hne, -⟩ := hI.bridge.creating i l' hstage
      obtain ⟨x, rest, rfl⟩ := List.exists_cons_of_ne_nil hne
      rw [hstage] at hkind
      exact Or.inr (Or.inl ⟨x, rest, rfl, hI.bridge.cmds x (by simp), hkind⟩)
  | attaching st =>
      obtain ⟨u, hu⟩ := hI.alongside i
      rw [hstage] at hkind hu
      obtain ⟨x, hx, hkind⟩ := (Option.any_eq_true _ _).mp hkind
      exact Or.inr (Or.inr ⟨st, x, rfl, hu.holds, hx, hkind⟩)

/-! ### A command that is not clear -/

/-- The next command is `c`, and the program returns an error where it fails. -/
def FailsAt (c : NetCmd) (t : NetScript (CrCode × Container)) : Prop :=
  ∃ k r, t = .exec c k ∧ k false = .ret r ∧ Failed r.1

theorem failsAt_of_follows {c : NetCmd} {a : CrCode × Container}
    {t : NetScript (CrCode × Container)} {rest : List (Item NetCmd)}
    (h : Follows NetCmd.effect (fun r => Failed r.1) a t (⟨c, true⟩ :: rest))
    (hc : ∃ s, c.effect s = none) : FailsAt c t := by
  cases h with
  | must hok hno =>
      rcases hno with hnever | ⟨r, hr, hk⟩
      · obtain ⟨s, hs⟩ := hc
        exact absurd hs (hnever s)
      · exact ⟨_, r, rfl, hk, hr⟩

/-- A turn of a call whose next command fails. -/
theorem turn_fails {c : NetCmd} {i : Bool} (h : FailsAt c (p.threads i))
    (hc : c.effect p.state = none) :
    ∃ r, (turn p i).threads i = .ret r ∧ Failed r.1 := by
  obtain ⟨k, r, hk, hfalse, hr⟩ := h
  refine ⟨r, ?_, hr⟩
  rw [turn, Pool.turn, Pool.step_exec NetCmd.effect hk, Script.attempt_none NetCmd.effect hc]
  simpa using hfalse

/-- A bridge that is there cannot be added. -/
theorem addBridge_fails {s : Host} (h : s.link T.bridge ≠ none) :
    NetCmd.effect (.linkAddBridge T.bridge) s = none := by
  simp only [NetCmd.effect, Option.map_eq_none_iff]
  exact LinkTable.addBridge_eq_none.mpr h

theorem start_link : (T.start false).link T.bridge ≠ none :=
  LinkTable.lookup_ne_none (T.start_bridge false)

/-- One of the two calls does not return `CR_OK` any more: it has returned an error, or it is
about to add the bridge and the bridge is there, or the other is about to add it as well. -/
inductive Lost (T : TwoSetups) (p : SetupPool) : Prop
  | returned {i : Bool} {r : CrCode × Container} (h : p.threads i = .ret r) (hr : Failed r.1)
  | late {i : Bool} (h : FailsAt (.linkAddBridge T.bridge) (p.threads i))
      (hb : p.state.link T.bridge ≠ none)
  | both (h : ∀ i, FailsAt (.linkAddBridge T.bridge) (p.threads i))

/-- No command of either call removes the bridge. -/
def SparesBridge (T : TwoSetups) (p : SetupPool) : Prop :=
  ∀ i, (p.threads i).Uses (NetCmd.Spares T.bridge)

/-- The bridge stays once it is there. -/
theorem turn_link (huses : T.SparesBridge p) (hb : p.state.link T.bridge ≠ none) (i : Bool) :
    (turn p i).state.link T.bridge ≠ none := by
  cases hp : p.threads i with
  | ret a => rwa [turn, Pool.turn, Pool.step_ret NetCmd.effect hp]
  | exec c k =>
      have hc := huses i
      rw [hp] at hc
      rcases Pool.step_exec_cases NetCmd.effect hp false with ⟨-, s', hs', hturn⟩ | hturn
      · rw [show turn p i = _ from hturn]
        exact effect_spares hs' hc.1 hb
      · rw [show turn p i = _ from hturn]
        exact hb

/-- **A lost result** stays lost. -/
theorem Lost.step (hlost : T.Lost p) (huses : T.SparesBridge p) (j : Bool) :
    T.Lost (turn p j) := by
  have hkeep : ∀ {i}, i ≠ j → (turn p j).threads i = p.threads i :=
    fun hij => Pool.step_threads_ne NetCmd.effect hij false
  cases hlost with
  | @returned i r h hr => exact .returned (Pool.after_turns_ret NetCmd.effect [j] p h) hr
  | @late i h hb =>
      by_cases hij : i = j
      · subst hij
        obtain ⟨r, hret, hr⟩ := turn_fails h (addBridge_fails hb)
        exact .returned hret hr
      · exact .late (by rw [hkeep hij]; exact h) (turn_link huses hb j)
  | both h =>
      by_cases hb : p.state.link T.bridge = none
      · -- this call adds the bridge, and the other one comes late
        obtain ⟨k, r, hk, -, -⟩ := h j
        obtain ⟨t, ht⟩ : ∃ t, p.state.links.addBridge T.bridgeLoc = some t :=
          Option.ne_none_iff_exists'.mp fun hnone => LinkTable.addBridge_eq_none.mp hnone hb
        have hstate : (turn p j).state = p.state.setLinks t := by
          have hadd : NetCmd.effect (.linkAddBridge T.bridge) p.state = some (p.state.setLinks t) :=
            Option.map_eq_some_iff.mpr ⟨t, ht, rfl⟩
          rw [turn, Pool.turn, Pool.step_exec NetCmd.effect hk,
            Script.attempt_some NetCmd.effect hadd]
        refine .late (i := !j) (by rw [hkeep (by simp)]; exact h _) ?_
        rw [hstate]
        show t.lookup T.bridgeLoc ≠ none
        rw [(LinkTable.addBridge_eq_some ht).2, if_pos rfl]
        simp
      · obtain ⟨r, hret, hr⟩ := turn_fails (h j) (addBridge_fails hb)
        exact .returned hret hr

theorem Lost.after {sched : List Bool} (hlost : T.Lost p) (huses : T.SparesBridge p) :
    T.Lost (Runs.after turn p sched) :=
  (Runs.keeps' turn (I := fun q => T.Lost q ∧ T.SparesBridge q)
    (fun _ i h => ⟨h.1.step h.2 i, Pool.step_uses NetCmd.effect h.2 i false⟩) sched p
    ⟨hlost, huses⟩).1

/-- A call that looks for the bridge is at its first command. -/
theorem Going.looks (hI : T.Going p stage l) {i : Bool}
    (h : issues NetCmd.looksForBridge (p.threads i) = true) : stage i = .start := by
  rcases hI.next_cases h with ⟨hstage, -⟩ | ⟨x, -, -, hx, hkind⟩ | ⟨st, x, -, hst, hx, hkind⟩
  · exact hstage
  · rw [(create_kinds hx i).1] at hkind
    simp at hkind
  · rw [(attach_kinds hst hx).1] at hkind
    simp at hkind

/-- A call that adds the bridge returns an error if it cannot. -/
theorem Going.adds_bridge (hI : T.Going p stage l) {i : Bool}
    (h : issues NetCmd.addsBridge (p.threads i) = true) :
    T.create ≠ [] ∧ FailsAt (.linkAddBridge T.bridge) (p.threads i) := by
  rcases hI.next_cases h with
    ⟨-, hkind⟩ | ⟨x, rest, hstage, hx, hkind⟩ | ⟨st, x, -, hst, hx, hkind⟩
  · simp [NetCmd.addsBridge] at hkind
  · obtain rfl := (create_kinds hx i).2.2.2 hkind
    have hthread := hI.threads i
    rw [hstage] at hthread
    exact ⟨List.ne_nil_of_mem hx,
      failsAt_of_follows hthread ⟨T.start false, addBridge_fails start_link⟩⟩
  · rw [(attach_kinds hst hx).2.1] at hkind
    simp at hkind

/-- While a call holds `eth0`, no pair can be added. -/
theorem Going.holds_eth0 (hI : T.Going p stage l) {i : Bool}
    (h : issues (NetCmd.holdsEth0 (T.ids i)) (p.threads i) = true) (name : CStr) :
    NetCmd.effect (.linkAddVeth name vethContainer) p.state = none := by
  have htaken : p.state.links.lookup hostEth0 ≠ none := by
    rcases hI.next_cases h with ⟨-, hkind⟩ | ⟨x, rest, -, hx, hkind⟩ | ⟨st, x, -, hst, hx, hkind⟩
    · simp [NetCmd.holdsEth0] at hkind
    · rw [(create_kinds hx i).2.2.1] at hkind
      simp at hkind
    · have hin := (attach_kinds hst hx).2.2.2 hkind
      cases st with
      | before => simp [AttachStage.inWindow] at hin
      | inside _ => simp [AttachStage.inWindow] at hin
      | window m =>
          simp [hst.1]
  simp only [NetCmd.effect, Option.map_eq_none_iff]
  by_contra hsome
  obtain ⟨t, ht⟩ := Option.ne_none_iff_exists'.mp hsome
  obtain ⟨-, -, hfree, -⟩ := LinkTable.addPair_eq_some ht
  exact htaken hfree

/-- A call that adds a pair returns an error if it cannot. -/
theorem Going.adds_pair (hI : T.Going p stage l) {i : Bool}
    (h : issues NetCmd.addsPair (p.threads i) = true)
    (hfails : ∃ s, NetCmd.effect (addItem (T.call i)).cmd s = none) :
    FailsAt (addItem (T.call i)).cmd (p.threads i) := by
  rcases hI.next_cases h with ⟨-, hkind⟩ | ⟨x, rest, -, hx, hkind⟩ | ⟨st, x, hstage, hst, hx, hkind⟩
  · simp [NetCmd.addsPair] at hkind
  · rw [(create_kinds hx i).2.1] at hkind
    simp at hkind
  · obtain rfl := (attach_kinds hst hx).2.2.1 hkind
    obtain ⟨rest, hitems⟩ := List.head?_eq_some_iff.mp hx
    have hthread := hI.threads i
    rw [hstage] at hthread
    unfold ThreadIn at hthread
    simp only [hitems] at hthread
    exact failsAt_of_follows hthread hfails

/-- **A command that is not clear** costs one of the calls its result. -/
theorem Going.lost (hI : T.Going p stage l) {i : Bool} (hclear : Clear T.ids p i ≠ true) :
    T.Lost (turn p i) := by
  have hclash : (issues NetCmd.looksForBridge (p.threads i) = true ∧
        issues NetCmd.addsBridge (p.threads !i) = true) ∨
      (issues NetCmd.addsPair (p.threads i) = true ∧
        issues (NetCmd.holdsEth0 (T.ids !i)) (p.threads !i) = true) := by
    simp only [Clear, ne_eq, Bool.and_eq_true, Bool.not_eq_true', Bool.and_eq_false_iff] at hclear
    by_contra hno
    simp only [not_or, not_and, Bool.not_eq_true] at hno
    refine hclear ⟨?_, ?_⟩
    · cases hl : issues NetCmd.looksForBridge (p.threads i) with
      | false => exact Or.inl rfl
      | true => exact Or.inr (hno.1 hl)
    · cases hl : issues NetCmd.addsPair (p.threads i) with
      | false => exact Or.inl rfl
      | true => exact Or.inr (hno.2 hl)
  rcases hclash with ⟨hlooks, hadds⟩ | ⟨hadds, hholds⟩
  · -- the other call has found no bridge and is about to add it
    obtain ⟨hne, hother⟩ := hI.adds_bridge hadds
    obtain ⟨k, hk, -, hfalse⟩ : T.ThreadIn i (p.threads i) .start := by
      rw [← hI.looks hlooks]
      exact hI.threads i
    have hkeep : (turn p i).threads (!i) = p.threads (!i) :=
      Pool.step_threads_ne NetCmd.effect (by simp) false
    by_cases hb : p.state.link T.bridge = none
    · refine .both fun j => ?_
      by_cases hji : j = i
      · subst hji
        obtain ⟨rest, hhead⟩ := T.create_head hne
        have hthread := hfalse hne
        rw [hhead] at hthread
        rw [turn, Pool.turn, Pool.step_exec NetCmd.effect hk,
          Script.attempt_none _ (by simp [NetCmd.effect, hb])]
        simp only [Function.update_self]
        exact failsAt_of_follows hthread ⟨T.start false, addBridge_fails start_link⟩
      · obtain rfl : j = !i := by cases i <;> cases j <;> simp_all
        rw [hkeep]
        exact hother
    · have hshow : NetCmd.effect (.linkShow T.bridge) p.state = some p.state := by
        simp [NetCmd.effect, Option.isSome_iff_ne_none, hb]
      refine .late (i := !i) (by rw [hkeep]; exact hother) ?_
      rw [turn, Pool.turn, Pool.step_exec NetCmd.effect hk, Script.attempt_some _ hshow]
      exact hb
  · -- the host's `eth0` is the peer of the other call's pair
    have hnone := hI.holds_eth0 hholds (vethHost (T.call i).id)
    obtain ⟨r, hret, hr⟩ := turn_fails (hI.adds_pair hadds ⟨p.state, hnone⟩) hnone
    exact .returned hret hr

/-- **Where both calls return `CR_OK`** every command was clear. -/
theorem clear_of_ok {sched : List Bool} {r : Bool → CrCode × Container}
    (hok : ∀ i, (r i).1 = .ok) : ∀ {p : SetupPool}, (∃ stage l, T.Going p stage l) →
      T.SparesBridge p → (∀ i, (Runs.after turn p sched).threads i = .ret (r i)) →
      Runs.Along turn (fun q i => Clear T.ids q i = true) p sched := by
  induction sched with
  | nil => intro p _ _ _; exact trivial
  | cons i rest ih =>
      intro p hI huses hret
      obtain ⟨stage, l, hI⟩ := hI
      by_cases hclear : Clear T.ids p i = true
      · exact ⟨hclear, ih (hI.step hclear) (Pool.step_uses NetCmd.effect huses i false) hret⟩
      · have hlost : T.Lost (Runs.after turn (turn p i) rest) :=
          (hI.lost hclear).after (Pool.step_uses NetCmd.effect huses i false)
        cases hlost with
        | @returned j r' h hr =>
            obtain rfl : r' = r j := Script.ret.inj (h.symm.trans (hret j))
            exact absurd (hok j) hr
        | @late j h _ =>
            obtain ⟨k, -, hk, -⟩ := h
            have heq := hk.symm.trans (hret j)
            simp at heq
        | both h =>
            obtain ⟨k, -, hk, -⟩ := h i
            have heq := hk.symm.trans (hret i)
            simp at heq

end TwoSetups

end Cruntime
