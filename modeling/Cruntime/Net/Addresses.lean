/-
Which containers of a subnet share an address.

`network_allocate_ip` draws one of 253 addresses of the subnet and looks at nothing
else: neither at the addresses it gave out before nor at those a user chose.  What a
container then holds is decided by its first draw alone, because the address is
written into its configuration and later setups find it there.  So two containers
share an address exactly when their draws agree modulo 253, when the address one drew
is the one the other was given, or when both were given the same.

How `ip addr add` reads the text of an address is not the program's business; it is a
parameter here, and all that is asked of it is that it reads back a dotted address
with the subnet's prefix length.
-/
import Cruntime.Net.Fleet

namespace Cruntime

open Script (run)

/-! ### The pool of a subnet -/

/-- The subnet is an address and a prefix length of one or two digits. -/
structure IsSubnet (subnet : CStr) (base : Addr) (pfx : CStr) : Prop where
  cut : ∃ network, strchr subnet '/' = some (network, pfx) ∧ inetPton network = some base
  fits : subnet.length < 64
  short : pfx.length ≤ 2

/-- The address `network_allocate_ip` makes of a value of `rand()`. -/
def poolAddr (base : Addr) (rand : Nat) : Addr := base + BitVec.ofNat 32 (rand % 253 + 2)

theorem poolAddr_eq_iff (base : Addr) (r r' : Nat) :
    poolAddr base r = poolAddr base r' ↔ r % 253 = r' % 253 := by
  refine ⟨fun h => ?_, fun h => by rw [poolAddr, poolAddr, h]⟩
  have hoff : BitVec.ofNat 32 (r % 253 + 2) = BitVec.ofNat 32 (r' % 253 + 2) := by
    unfold poolAddr at h
    exact (BitVec.add_right_inj base).mp h
  have hnat := congrArg BitVec.toNat hoff
  rw [BitVec.toNat_ofNat, BitVec.toNat_ofNat] at hnat
  have hr : r % 253 < 253 := Nat.mod_lt r (by omega)
  have hr' : r' % 253 < 253 := Nat.mod_lt r' (by omega)
  omega

/-- The text `network_allocate_ip` writes. -/
def poolText (base : Addr) (pfx : CStr) (rand : Nat) : CStr :=
  inetNtop (poolAddr base rand) ++ '/' :: pfx

theorem poolText_ne_nil (base : Addr) (pfx : CStr) (rand : Nat) : poolText base pfx rand ≠ [] := by
  simp [poolText]

theorem networkAllocateIp_eq {subnet : CStr} {base : Addr} {pfx : CStr}
    (h : IsSubnet subnet base pfx) (stack : Addr) (rand : Nat) :
    networkAllocateIp subnet 64 stack rand = some (poolText base pfx rand) := by
  obtain ⟨network, hcut, hbase⟩ := h.cut
  have hlen := inetNtop_length_le (poolAddr base rand)
  have hshort := h.short
  have hslash : "/".toList.take (64 - (inetNtop (poolAddr base rand)).length - 1) = ['/'] :=
    List.take_of_length_le (by simp; omega)
  unfold networkAllocateIp
  rw [strncpy_eq_self (Nat.le_of_lt h.fits), hcut]
  show some ((inetNtop ((inetPton network).getD stack + _) ++ _) ++ pfx.take _) = _
  rw [hbase, Option.getD_some, ← poolAddr, hslash, List.take_of_length_le]
  · simp [poolText]
  · simp only [List.length_append, List.length_singleton]
    omega

/-! ### What a setup writes into the configuration -/

/-- A setup leaves the container's record as it was, or with the address and the
gateway it settled on; the latter when it succeeds. -/
theorem setupContainer_record (env : Entropy) (c : Container) (w : World Host) :
    ((run NetCmd.effect (networkSetupContainer env c) w).1.2 = c ∧
        (run NetCmd.effect (networkSetupContainer env c) w).1.1 ≠ .ok) ∨
      withAddress env c = some (run NetCmd.effect (networkSetupContainer env c) w).1.2 := by
  by_cases hb : (run NetCmd.effect
      (networkCreateBridge c.network.bridgeName c.network.subnet env.bridgeStack) w).1 = .ok
  · cases hc' : withAddress env c with
    | none => rw [setupContainer_stop (Or.inr hc')]; exact Or.inl ⟨rfl, by simp⟩
    | some c' => rw [setupContainer_attach hb hc']; exact Or.inr rfl
  · rw [setupContainer_stop (Or.inl hb)]
    exact Or.inl ⟨rfl, by simp⟩

/-- The address a container has after `withAddress`. -/
theorem withAddress_ip {env : Entropy} {c c' : Container} {base : Addr} {pfx : CStr}
    (h : IsSubnet c.network.subnet base pfx) (hc' : withAddress env c = some c') :
    c'.network.subnet = c.network.subnet ∧
      c'.network.ipAddress = if c.network.ipAddress = [] then poolText base pfx env.rand
        else c.network.ipAddress := by
  obtain ⟨ip, hip, rfl⟩ := Option.map_eq_some_iff.mp hc'
  refine ⟨rfl, ?_⟩
  rw [networkAllocateIp_eq h] at hip
  show ip = _
  split at hip <;> simp_all

/-- A container has the address it was given or the one it drew, and a live one has
an address. -/
structure Recorded (given subnet : CStr) (base : Addr) (pfx : CStr) (c : Container)
    (drawn : Option Nat) (live : Bool) : Prop where
  subnet_eq : c.network.subnet = subnet
  ip_given : drawn = none → c.network.ipAddress = given
  ip_drawn : ∀ r, drawn = some r → given = [] ∧ c.network.ipAddress = poolText base pfx r
  ip_live : live = true → c.network.ipAddress ≠ []

/-- A setup keeps the record of its container straight. -/
theorem Recorded.setup {given subnet : CStr} {base : Addr} {pfx : CStr} {c : Container}
    {drawn : Option Nat} {live : Bool} (hsub : IsSubnet subnet base pfx)
    (hI : Recorded given subnet base pfx c drawn live) (env : Entropy) (w : World Host) :
    Recorded given subnet base pfx (run NetCmd.effect (networkSetupContainer env c) w).1.2
      (if c.network.ipAddress = [] ∧
          (run NetCmd.effect (networkSetupContainer env c) w).1.2.network.ipAddress ≠ []
        then some env.rand else drawn)
      (if (run NetCmd.effect (networkSetupContainer env c) w).1.1 = .ok then true else live) := by
  have hsubc : IsSubnet c.network.subnet base pfx := hI.subnet_eq.symm ▸ hsub
  have hlive : (if (run NetCmd.effect (networkSetupContainer env c) w).1.1 = .ok then true
      else live) = true → (run NetCmd.effect (networkSetupContainer env c) w).1.1 = .ok ∨
        live = true := by
    intro h
    split at h
    · rename_i hok
      exact Or.inl hok
    · exact Or.inr h
  rcases setupContainer_record env c w with ⟨hrec, herr⟩ | hrec
  · rw [hrec, if_neg fun hc => hc.2 hc.1]
    refine ⟨hI.subnet_eq, hI.ip_given, hI.ip_drawn, fun h => ?_⟩
    exact hI.ip_live ((hlive h).resolve_left herr)
  · obtain ⟨hsubnet, hip⟩ := withAddress_ip hsubc hrec
    by_cases hnil : c.network.ipAddress = []
    · -- the address is drawn now, so it was not drawn before
      rw [if_pos hnil] at hip
      have hnew : drawn = none := by
        by_contra hne
        obtain ⟨r, hr⟩ := Option.ne_none_iff_exists'.mp hne
        have hold := (hI.ip_drawn r hr).2
        rw [hnil] at hold
        exact poolText_ne_nil base pfx r hold.symm
      rw [if_pos ⟨hnil, by rw [hip]; exact poolText_ne_nil base pfx env.rand⟩]
      refine ⟨hsubnet.trans hI.subnet_eq, by simp, fun r hr => ?_, fun _ => ?_⟩
      · obtain rfl : env.rand = r := by simpa using hr
        exact ⟨(hI.ip_given hnew).symm.trans hnil, hip⟩
      · rw [hip]
        exact poolText_ne_nil base pfx env.rand
    · rw [if_neg hnil] at hip
      rw [if_neg fun hc => hnil hc.1]
      refine ⟨hsubnet.trans hI.subnet_eq, fun h => hip.trans (hI.ip_given h), fun r hr => ?_,
        fun _ => hip.symm ▸ hnil⟩
      obtain ⟨hg, hold⟩ := hI.ip_drawn r hr
      exact ⟨hg, hip.trans hold⟩

section

variable {ι : Type} [DecidableEq ι]

/-- **One call keeps every record straight.** -/
theorem recorded_step {given : ι → CStr} {subnet : CStr} {base : Addr} {pfx : CStr}
    (hsub : IsSubnet subnet base pfx) (t : Fleet ι) (call : FleetCall ι)
    (hI : ∀ i, Recorded (given i) subnet base pfx (t.containers i) (t.drawn i) (t.live i)) :
    ∀ i, Recorded (given i) subnet base pfx ((t.step call).containers i) ((t.step call).drawn i)
      ((t.step call).live i) := by
  intro j
  cases call with
  | cleanup i =>
      obtain ⟨hsubnet, hgiven, hdrawn, hlive⟩ := hI j
      refine ⟨hsubnet, hgiven, hdrawn, fun h => hlive ?_⟩
      rw [Fleet.step_cleanup_live] at h
      split at h
      · simp at h
      · exact h
  | setup i env =>
      rw [Fleet.step_setup_containers, Fleet.step_setup_drawn, Fleet.step_setup_live]
      by_cases hj : j = i
      · subst hj
        simp only [true_and, if_true]
        exact (hI j).setup hsub env t.world
      · simp only [hj, false_and, if_false]
        exact hI j

/-! ### Shared addresses -/

/-- Two containers hold the same address, as `ip addr add` reads what they hold. -/
def SameAddress (addrOf : CStr → Option Addr) (c c' : Container) : Prop :=
  ∃ a, addrOf c.network.ipAddress = some a ∧ addrOf c'.network.ipAddress = some a

/-- How two containers come to share an address: two explicit addresses, two draws, or
one of each. -/
inductive Clash (addrOf : CStr → Option Addr) (base : Addr) (given given' : CStr) :
    Option Nat → Option Nat → Prop
  | explicit {a : Addr} (h : addrOf given = some a) (h' : addrOf given' = some a) :
      Clash addrOf base given given' none none
  | drawn {r r' : Nat} (h : r % 253 = r' % 253) :
      Clash addrOf base given given' (some r) (some r')
  | drawnExplicit {r : Nat} (h : addrOf given' = some (poolAddr base r)) :
      Clash addrOf base given given' (some r) none
  | explicitDrawn {r : Nat} (h : addrOf given = some (poolAddr base r)) :
      Clash addrOf base given given' none (some r)

theorem sameAddress_iff_clash {addrOf : CStr → Option Addr} {base : Addr} {pfx : CStr}
    (hread : ∀ a, addrOf (inetNtop a ++ '/' :: pfx) = some a) {given given' subnet : CStr}
    {c c' : Container} {d d' : Option Nat} {live live' : Bool}
    (h : Recorded given subnet base pfx c d live) (h' : Recorded given' subnet base pfx c' d' live') :
    SameAddress addrOf c c' ↔ Clash addrOf base given given' d d' := by
  have hpool : ∀ {c : Container} {r : Nat}, c.network.ipAddress = poolText base pfx r →
      ∀ a, addrOf c.network.ipAddress = some a ↔ poolAddr base r = a := by
    intro c r hip a
    rw [hip, poolText, hread, Option.some.injEq]
  unfold SameAddress
  cases d with
  | none =>
      rw [h.ip_given rfl]
      cases d' with
      | none =>
          rw [h'.ip_given rfl]
          exact ⟨fun ⟨a, ha, ha'⟩ => .explicit ha ha', fun hc => by
            cases hc with
            | explicit ha ha' => exact ⟨_, ha, ha'⟩⟩
      | some r' =>
          simp only [hpool (h'.ip_drawn r' rfl).2]
          exact ⟨fun ⟨a, ha, ha'⟩ => .explicitDrawn (ha'.symm ▸ ha), fun hc => by
            cases hc with
            | explicitDrawn ha => exact ⟨_, ha, rfl⟩⟩
  | some r =>
      simp only [hpool (h.ip_drawn r rfl).2]
      cases d' with
      | none =>
          rw [h'.ip_given rfl]
          exact ⟨fun ⟨a, ha, ha'⟩ => .drawnExplicit (ha.symm ▸ ha'), fun hc => by
            cases hc with
            | drawnExplicit ha => exact ⟨_, rfl, ha⟩⟩
      | some r' =>
          simp only [hpool (h'.ip_drawn r' rfl).2]
          refine ⟨fun ⟨a, ha, ha'⟩ => .drawn ?_, fun hc => ?_⟩
          · exact (poolAddr_eq_iff base r r').mp (ha.trans ha'.symm)
          · cases hc with
            | drawn hmod => exact ⟨_, rfl, ((poolAddr_eq_iff base r r').mpr hmod).symm⟩

/-- An address is drawn for the live containers that were given none. -/
theorem Recorded.drawn_none_iff {given subnet : CStr} {base : Addr} {pfx : CStr} {c : Container}
    {d : Option Nat} {live : Bool} (h : Recorded given subnet base pfx c d live)
    (hlive : live = true) : d = none ↔ given ≠ [] := by
  refine ⟨fun hd => ?_, fun hg => ?_⟩
  · rw [← h.ip_given hd]
    exact h.ip_live hlive
  · by_contra hd
    obtain ⟨r, hr⟩ := Option.ne_none_iff_exists'.mp hd
    exact hg (h.ip_drawn r hr).1

/-- What a container's configuration holds: the address it was given, and without one the address
of the value of `rand()` drawn for it. -/
structure HasAddress (addrOf : CStr → Option Addr) (base : Addr) (pfx given : CStr)
    (drawn : Option Nat) (c : Container) : Prop where
  explicit : given ≠ [] → c.network.ipAddress = given
  drawn : given = [] → ∃ r, drawn = some r ∧ c.network.ipAddress = poolText base pfx r ∧
    addrOf c.network.ipAddress = some (poolAddr base r)

theorem Recorded.hasAddress {addrOf : CStr → Option Addr} {given subnet : CStr} {base : Addr}
    {pfx : CStr} {c : Container} {d : Option Nat} {live : Bool}
    (hread : ∀ a, addrOf (inetNtop a ++ '/' :: pfx) = some a)
    (h : Recorded given subnet base pfx c d live) (hlive : live = true) :
    HasAddress addrOf base pfx given d c := by
  have hnone := h.drawn_none_iff hlive
  refine ⟨fun hg => h.ip_given (hnone.mpr hg), fun hg => ?_⟩
  obtain ⟨r, hr⟩ := Option.ne_none_iff_exists'.mp fun hd => hnone.mp hd hg
  have hip := (h.ip_drawn r hr).2
  exact ⟨r, hr, hip, by rw [hip, poolText, hread]⟩

/--
**A live container has its explicit address or that of its draw, and two live containers of a
subnet hold the same address exactly when their explicit addresses or their draws clash**,
in every run of setups and cleanups, whatever the commands do.
-/
theorem sameAddress_iff {addrOf : CStr → Option Addr} {subnet : CStr} {base : Addr} {pfx : CStr}
    (hsub : IsSubnet subnet base pfx) (hread : ∀ a, addrOf (inetNtop a ++ '/' :: pfx) = some a)
    {s : Fleet ι} (hnew : ∀ i, s.live i = false ∧ s.drawn i = none)
    (hsame : ∀ i, (s.containers i).network.subnet = subnet) (calls : List (FleetCall ι)) {i j : ι}
    (hi : (Runs.after Fleet.step s calls).live i = true)
    (hj : (Runs.after Fleet.step s calls).live j = true) :
    (((Runs.after Fleet.step s calls).drawn i = none ↔ (s.containers i).network.ipAddress ≠ []) ∧
      ((Runs.after Fleet.step s calls).drawn j = none ↔ (s.containers j).network.ipAddress ≠ [])) ∧
    (∀ k, (Runs.after Fleet.step s calls).live k = true →
      HasAddress addrOf base pfx (s.containers k).network.ipAddress
        ((Runs.after Fleet.step s calls).drawn k) ((Runs.after Fleet.step s calls).containers k)) ∧
    (SameAddress addrOf ((Runs.after Fleet.step s calls).containers i)
        ((Runs.after Fleet.step s calls).containers j) ↔
      Clash addrOf base (s.containers i).network.ipAddress (s.containers j).network.ipAddress
        ((Runs.after Fleet.step s calls).drawn i) ((Runs.after Fleet.step s calls).drawn j)) := by
  have hall := Runs.keeps' Fleet.step
    (I := fun t => ∀ k, Recorded (s.containers k).network.ipAddress subnet base pfx
      (t.containers k) (t.drawn k) (t.live k))
    (fun t call hI => recorded_step hsub t call hI) calls s
    (fun k => ⟨hsame k, fun _ => rfl, fun r hr => by simp [(hnew k).2] at hr,
      fun hk => by simp [(hnew k).1] at hk⟩)
  exact ⟨⟨(hall i).drawn_none_iff hi, (hall j).drawn_none_iff hj⟩,
    fun k hk => (hall k).hasAddress hread hk,
    sameAddress_iff_clash hread (hall i) (hall j)⟩

end

/-- A reading of addresses with a prefix length. -/
def readAddr (text : CStr) : Option Addr := (strchr text '/').bind fun cut => inetPton cut.1

theorem readAddr_inetNtop (a : Addr) (pfx : CStr) : readAddr (inetNtop a ++ '/' :: pfx) = some a := by
  unfold readAddr
  rw [strchr_append (slash_notMem_inetNtop a), Option.bind_some, inetPton_inetNtop]

theorem isSubnet_default : IsSubnet "172.17.0.0/16".toList 0xac110000 "16".toList where
  cut := ⟨"172.17.0.0".toList, by decide⟩
  fits := by decide
  short := by decide

/-- Draws of 3 and 256 give two containers one address. -/
theorem sameAddress_of_draws :
    SameAddress readAddr
      ((Runs.after Fleet.step (.pair "0123456789".toList "1123456789".toList [])
        [.setup true ⟨3, 0, 0, 0⟩, .setup false ⟨256, 0, 0, 0⟩]).containers true)
      ((Runs.after Fleet.step (.pair "0123456789".toList "1123456789".toList [])
        [.setup true ⟨3, 0, 0, 0⟩, .setup false ⟨256, 0, 0, 0⟩]).containers false) := by
  refine (sameAddress_iff isSubnet_default (fun a => readAddr_inetNtop a _)
    (fun _ => ⟨rfl, rfl⟩) (by decide) _ (by decide) (by decide)).2.2.mpr ?_
  exact .drawn (r := 3) (by decide)

/-- The same value of `rand()` twice gives two running containers one address. -/
theorem running_containers_share_address :
    ¬ ∀ (addrOf : CStr → Option Addr) (s : Fleet Bool) (calls : List (FleetCall Bool)),
      (∀ a, addrOf (inetNtop a ++ "/16".toList) = some a) →
      (∀ i, s.live i = false ∧ s.drawn i = none) →
      (∀ i, (s.containers i).network.bridgeName = "cr0".toList ∧
        (s.containers i).network.subnet = "172.17.0.0/16".toList) →
      ∀ i j, i ≠ j → (Runs.after Fleet.step s calls).live i = true →
        (Runs.after Fleet.step s calls).live j = true →
        ¬SameAddress addrOf ((Runs.after Fleet.step s calls).containers i)
          ((Runs.after Fleet.step s calls).containers j) := by
  intro hall
  refine hall readAddr (.pair "0123456789".toList "1123456789".toList [])
    [.setup true ⟨3, 0, 0, 0⟩, .setup false ⟨3, 0, 0, 0⟩] (fun a => readAddr_inetNtop a _)
    (fun _ => ⟨rfl, rfl⟩) (by decide) true false (by decide) (by decide) (by decide) ?_
  exact ⟨0xac110005, by decide, by decide⟩

end Cruntime
