/-
Creating a bridge and deleting it again, many times.

`network_delete_bridge` takes away the link, and with the link its address.  The three
rules that `network_create_bridge` appended stay: a cycle on a host without the bridge
leaves the links as they were, and three more rules.
-/
import Cruntime.Net.Bridge

namespace Cruntime

open Script (run)

/-- A creation and a deletion; `stack` is the uninitialised address of the creation. -/
def bridgeCycle (b subnet : CStr) (w : World Host) (stack : Addr) : World Host :=
  (run NetCmd.effect (networkDeleteBridge b)
    (run NetCmd.effect (networkCreateBridge b subnet stack) w).2).2

/-- No link of the host's namespace is a port of a bridge `b`. -/
def NoPorts (b : CStr) (t : LinkTable) : Prop :=
  ∀ x l, t.lookup x = some l → x.ns = .host → l.dev.master ≠ some b

/-! ### One cycle -/

/-- A deletion when nothing is refused. -/
theorem deleteBridge_calm {b : CStr} {h : Host} {dev : Dev}
    (hb : h.link b = some ⟨.bridge, dev⟩) :
    ∃ h', run NetCmd.effect (networkDeleteBridge b) (.calm h) = (.ok, .calm h') ∧
      h'.link b = none ∧ h'.rules = h.rules ∧
      ∀ x, x ≠ ⟨.host, b⟩ → (∀ l, h.links.lookup x = some l → x.ns = .host → l.dev.master ≠ some b) →
        h'.links.lookup x = h.links.lookup x := by
  obtain ⟨t₁, ht₁⟩ := h.links.setDev_isSome (fun d => { d with up := false }) hb
  obtain ⟨l₁, hl₁, hall₁⟩ := LinkTable.setDev_eq_some ht₁
  obtain rfl := Option.some.inj (hb.symm.trans hl₁)
  have hkind : t₁.kindAt ⟨.host, b⟩ = some .bridge :=
    LinkTable.kindAt_eq_some.mpr ⟨_, by rw [hall₁, if_pos rfl], rfl⟩
  obtain ⟨t₂, ht₂⟩ : ∃ t₂, t₁.delete ⟨.host, b⟩ = some t₂ := by
    rw [← Option.ne_none_iff_exists']
    intro hnone
    exact LinkTable.lookup_ne_none hkind (LinkTable.delete_eq_none.mp hnone)
  have hdown : NetCmd.effect (.linkDown b) h = some (h.setLinks t₁) := by
    simp [NetCmd.effect, ht₁]
  have hdel : NetCmd.effect (.linkDeleteBridge b) (h.setLinks t₁)
      = some ((h.setLinks t₁).setLinks t₂) := by
    simp [NetCmd.effect, hkind, ht₂]
  refine ⟨(h.setLinks t₁).setLinks t₂, ?_, LinkTable.delete_self ht₂, rfl, fun x hx hport => ?_⟩
  · unfold networkDeleteBridge
    simp only [Script.issue_bind]
    rw [Script.run_exec_calm, Script.attempt_some _ hdown, Script.run_exec_calm,
      Script.attempt_some _ hdel]
    rfl
  · show t₂.lookup x = _
    have hsame : t₁.lookup x = h.links.lookup x := by rw [hall₁, if_neg hx]
    cases hl : h.links.lookup x with
    | none => exact LinkTable.delete_lookup_none ht₂ (hsame.trans hl)
    | some l =>
        refine LinkTable.delete_lookup ht₂ hx ?_ (hsame.trans hl) (hport l hl)
        intro hpeer
        rw [(LinkTable.kindAt_peer hpeer).2] at hkind
        simp at hkind

/-- **One cycle on a host without the bridge**: the links are as they were, and the rules of the
creation are left. -/
theorem bridgeCycle_calm {b subnet : CStr} {h : Host} (stack : Addr) (hb : h.link b = none)
    (hlen : subnet.length < 64) (hwf : (subnetCidr subnet).isSome) :
    ∃ h', bridgeCycle b subnet (.calm h) stack = .calm h' ∧ h'.link b = none ∧
      (NoPorts b h.links → h'.links = h.links) ∧
      ∀ ch, h'.rules ch = h.rules ch ++ bridgeRules b subnet ch := by
  obtain ⟨c, hc⟩ := Option.isSome_iff_exists.mp hwf
  obtain ⟨addr, t, -, -, ht, hcreate⟩ :=
    @createBridge_run b subnet c stack (.calm h) hb rfl hlen hc rfl rfl
  obtain ⟨h₁, htail, hlinks₁, hrules₁⟩ := bridgeTail_calm b subnet (h.setLinks t)
  have hthere : h₁.link b = some ⟨.bridge, { Dev.fresh.withAddr addr with up := true }⟩ := by
    rw [Host.link, hlinks₁, Host.setLinks_links, ht, if_pos rfl]
  obtain ⟨h₂, hdelete, hgone, hrules₂, hothers⟩ := deleteBridge_calm hthere
  refine ⟨h₂, ?_, hgone, fun hports => LinkTable.ext fun x => ?_, fun ch => ?_⟩
  · unfold bridgeCycle
    rw [hcreate]
    change (run NetCmd.effect _ (run NetCmd.effect (bridgeTail b subnet)
      (.calm (h.setLinks t))).2).2 = _
    rw [htail, hdelete]
  · by_cases hx : x = ⟨.host, b⟩
    · subst hx
      exact hgone.trans hb.symm
    · have hsame : h₁.links.lookup x = h.links.lookup x := by
        rw [hlinks₁, Host.setLinks_links, ht, if_neg hx]
        rfl
      rw [hothers x hx fun l hl => hports x l (hsame.symm.trans hl), hsame]
  · rw [hrules₂, hrules₁]
    rfl

/-! ### Many cycles -/

/-- **After n cycles** every list of rules is longer by n times the rules of a creation, and
nothing else has changed. -/
theorem after_cycles {b subnet : CStr} (hlen : subnet.length < 64)
    (hwf : (subnetCidr subnet).isSome) (stackValues : List Addr) :
    ∀ h : Host, h.link b = none →
      ∃ h', Runs.after (bridgeCycle b subnet) (.calm h) stackValues = .calm h' ∧ h'.link b = none ∧
        (NoPorts b h.links → h'.links = h.links) ∧
        ∀ ch, h'.rules ch =
          h.rules ch ++ (List.replicate stackValues.length (bridgeRules b subnet ch)).flatten := by
  induction stackValues with
  | nil => intro h hb; exact ⟨h, rfl, hb, fun _ => rfl, fun ch => by simp⟩
  | cons stack rest ih =>
      intro h hb
      obtain ⟨h₁, hcycle, hb₁, hlinks₁, hrules₁⟩ := bridgeCycle_calm stack hb hlen hwf
      obtain ⟨h₂, hrest, hb₂, hlinks₂, hrules₂⟩ := ih h₁ hb₁
      refine ⟨h₂, ?_, hb₂, fun hports => ?_, fun ch => ?_⟩
      · rw [Runs.after_cons, hcycle, hrest]
      · have hsame := hlinks₁ hports
        rw [← hsame]
        exact hlinks₂ (by rw [hsame]; exact hports)
      · rw [hrules₂, hrules₁, List.length_cons, List.replicate_succ, List.flatten_cons,
          List.append_assoc]

/-- The links, and the two lists the functions write to, are as they were. -/
def SameNetwork (h h' : Host) : Prop :=
  h'.links = h.links ∧ h'.rules .postrouting = h.rules .postrouting ∧
    h'.rules .forward = h.rules .forward

/-- **Deleting a bridge undoes creating it only where there was no cycle.** -/
theorem sameNetwork_after_cycles_iff {b subnet : CStr} {h : Host} (hb : h.link b = none)
    (hlen : subnet.length < 64) (hwf : (subnetCidr subnet).isSome) (stackValues : List Addr) :
    SameNetwork h (Runs.after (bridgeCycle b subnet) (.calm h) stackValues).state ↔
      stackValues.length = 0 := by
  constructor
  · rintro ⟨-, hrules, -⟩
    obtain ⟨h', hafter, -, -, hrules'⟩ := after_cycles hlen hwf stackValues h hb
    rw [hafter] at hrules
    change h'.rules .postrouting = _ at hrules
    have hsame := (hrules' .postrouting).symm.trans hrules
    by_contra hsome
    obtain ⟨k, hk⟩ := Nat.exists_eq_succ_of_ne_zero hsome
    rw [hk, List.replicate_succ, List.flatten_cons] at hsame
    have hlength := congrArg List.length hsame
    simp only [bridgeRules, List.length_append, List.length_cons, List.length_nil] at hlength
    omega
  · intro hnone
    obtain rfl := List.length_eq_zero_iff.mp hnone
    exact ⟨rfl, rfl, rfl⟩

/-- No cycle leaves the host as it was, one cycle does not. -/
theorem sameNetwork_without_cycle :
    SameNetwork .bare (Runs.after (bridgeCycle "cr0".toList "172.17.0.0/16".toList)
        (.calm .bare) []).state ∧
      (SameNetwork .bare (Runs.after (bridgeCycle "cr0".toList "172.17.0.0/16".toList)
        (.calm .bare) [0]).state ↔ 1 = 0) :=
  ⟨(sameNetwork_after_cycles_iff (by decide) (by decide) (by decide) []).mpr rfl,
    sameNetwork_after_cycles_iff (by decide) (by decide) (by decide) [0]⟩

/-- One cycle leaves the masquerading rule behind. -/
theorem rule_left_after_cycle :
    ¬SameNetwork .bare (Runs.after (bridgeCycle "cr0".toList "172.17.0.0/16".toList)
      (.calm .bare) [0]).state := by
  rintro ⟨-, hrules, -⟩
  exact absurd hrules (by decide)

end Cruntime
