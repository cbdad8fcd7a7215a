/-
The shell commands of containers that `cmd_run` configures.

Nothing `cmd_run` reads is checked on its way into a command string.  What keeps a
string one simple command is only that its fields happen to be words for the shell,
and three of them are the user's: the bridge, the address and the protocols of the
mappings.  A cleanup formats the address as the configuration has it, also when no
setup ever came to fill it in, so a container with mappings needs one from the start.
-/
import Cruntime.Cli
import Cruntime.Net.Addresses
import Cruntime.Net.CommandText
import Cruntime.Utils

namespace Cruntime

open Shell (IsWord)
open Script (run)

/-- The container `cmd_run` creates, once its process runs as `pid`. -/
def runContainer (opts : List RunOption) (draws : List Nat) (pid : BitVec 32) : Container where
  id := generateId 65 draws
  network := runNetwork opts
  initPid := pid.toInt

/-- Every command of a setup, and of a cleanup after it, is the simple command its
template says. -/
def CommandsWellFormed (env : Entropy) (c : Container) : Prop :=
  (networkSetupContainer env c).Uses WellFormed ∧
    ∀ w : World Host, (networkCleanupContainer
      (run NetCmd.effect (networkSetupContainer env c) w).1.2).Uses WellFormed

/-- The user's fields are words where they are used. -/
structure FieldsAreWords (net : NetworkConfig) : Prop where
  bridgeName : IsWord net.bridgeName
  ipAddress : net.ipAddress = [] ∨ IsWord net.ipAddress
  containerIp : net.ports = [] ∨ IsWord (containerIpOf net.ipAddress)
  protocols : ∀ pm ∈ net.ports, IsWord pm.protocol

/-! ### The program's own fields -/

/-- A field that is a word and fits its buffer. -/
def Sound (f : CStr) : Prop := f.length ≤ 63 ∧ IsWord f

theorem wellFormed_of_sound {c : NetCmd} (h : ∀ f ∈ c.fields, Sound f) : WellFormed c :=
  wellFormed_of_fields h

theorem sound_of_plain {f : CStr} (hlen : f.length ≤ 63) (hne : f ≠ [])
    (h : ∀ c ∈ f, c ∈ plainChars) : Sound f :=
  ⟨hlen, isWord_of_plain hne h⟩

theorem sound_vethHost (draws : List Nat) : Sound (vethHost (generateId 65 draws)) := by
  refine sound_of_plain ?_ (by simp [vethHost]) fun c hc => ?_
  · have htake : ((generateId 65 draws).take 8).length ≤ 8 := by simp
    simp only [vethHost, List.length_append]
    have hveth : "veth".toList.length = 4 := by decide
    omega
  · rcases List.mem_append.mp hc with hc | hc
    · exact plain_of_all (by decide) hc
    · have hid : idCharset.all plainChars.contains = true := by decide
      exact plain_of_all hid (mem_generateId (List.mem_of_mem_take hc))

theorem sound_decimal {n : Nat} (hn : n < 10 ^ 63) : Sound (decimal n) :=
  ⟨decimal_length_le (by omega) hn, isWord_decimal n⟩

theorem sound_pid (pid : BitVec 32) : Sound (decimalInt pid.toInt) := by
  refine ⟨?_, isWord_decimalInt _⟩
  have hlt := BitVec.toInt_lt (x := pid)
  have hle := BitVec.le_toInt (x := pid)
  cases hp : pid.toInt with
  | ofNat n =>
      rw [Int.ofNat_eq_natCast] at hp
      have hn : n < 10 ^ 63 := by omega
      exact decimal_length_le (by omega) hn
  | negSucc n =>
      have hn : n + 1 < 10 ^ 62 := by omega
      have hlen := decimal_length_le (k := 62) (by omega) hn
      simp only [decimalInt, List.length_cons]
      omega

/-- An address with the default prefix length. -/
theorem sound_cidr (a : Addr) : Sound (inetNtop a ++ '/' :: "16".toList) := by
  have hlen := inetNtop_length_le a
  refine sound_of_plain ?_ (by simp) fun c hc => ?_
  · have hpfx : ('/' :: "16".toList).length = 3 := by decide
    rw [List.length_append, hpfx]
    omega
  · rcases List.mem_append.mp hc with hc | hc
    · exact inetNtop_plain hc
    · exact plain_of_all (by decide) hc

theorem sound_inetNtop (a : Addr) : Sound (inetNtop a) :=
  sound_of_plain (by have := inetNtop_length_le a; omega) (inetNtop_ne_nil a)
    fun _ => inetNtop_plain

/-- The default subnet, cut into its address and prefix length. -/
theorem strchr_default :
    strchr (strncpy "172.17.0.0/16".toList 64) '/' = some ("172.17.0.0".toList, "16".toList) := by
  decide

/-! ### The commands of each function -/

theorem createBridge_wellFormed {b : CStr} (hb : Sound b) (stack : Addr) :
    (networkCreateBridge b "172.17.0.0/16".toList stack).Uses WellFormed := by
  have hsubnet : Sound "172.17.0.0/16".toList := ⟨by decide, by decide⟩
  have hone : ∀ {c : NetCmd}, c.fields = [b] → WellFormed c := by
    intro c hc
    refine wellFormed_of_sound fun f hf => ?_
    rw [hc, List.mem_singleton] at hf
    exact hf ▸ hb
  have hrule : ∀ {r : Rule}, (∀ f ∈ r.fields, Sound f) → WellFormed (.appendRule r) :=
    fun h => wellFormed_of_sound h
  unfold networkCreateBridge
  rw [strchr_default]
  simp only [Script.issue_bind]
  refine ⟨hone rfl, fun ok => ?_⟩
  cases ok with
  | true => exact trivial
  | false =>
      refine ⟨hone rfl, fun ok => ?_⟩
      cases ok with
      | false => exact trivial
      | true =>
          refine ⟨wellFormed_of_sound ?_, fun ok => ?_⟩
          · exact List.forall_mem_cons.mpr ⟨sound_cidr _, by simpa using hb⟩
          cases ok with
          | false => exact trivial
          | true =>
              refine ⟨hone rfl, fun ok => ?_⟩
              cases ok with
              | false => exact trivial
              | true =>
                  refine ⟨wellFormed_of_sound (by simp [NetCmd.fields]), fun _ => ⟨hrule ?_,
                    fun _ => ⟨hrule ?_, fun _ => ⟨hrule ?_, fun _ => trivial⟩⟩⟩⟩
                  · exact List.forall_mem_cons.mpr ⟨hsubnet, by simpa using hb⟩
                  · simpa [Rule.fields] using hb
                  · simpa [Rule.fields] using hb

theorem setupVeth_wellFormed {draws : List Nat} {b ip gateway : CStr} {pid : BitVec 32}
    (hb : Sound b) (hip : Sound ip) (hgateway : Sound gateway) :
    (networkSetupVeth (generateId 65 draws) b ip gateway pid.toInt).Uses WellFormed := by
  have hveth := sound_vethHost draws
  have heth : Sound vethContainer := ⟨by decide, by decide⟩
  have hlo : Sound "lo".toList := ⟨by decide, by decide⟩
  have hpid := sound_pid pid
  rw [networkSetupVeth_eq]
  refine Script.uses_checkAll (fun c hc => wellFormed_of_sound ?_)
    ⟨wellFormed_of_sound ?_, fun _ => trivial⟩
  · simp only [vethCommands, List.mem_cons, List.not_mem_nil, or_false] at hc
    rcases hc with rfl | rfl | rfl | rfl | rfl | rfl | rfl
    all_goals
      unfold NetCmd.fields
      simp only [List.forall_mem_cons, List.not_mem_nil, false_implies, implies_true, and_true]
    · exact ⟨hveth, heth⟩
    · exact ⟨hveth, hb⟩
    · exact hveth
    · exact ⟨heth, hpid⟩
    · exact ⟨hpid, hip, heth⟩
    · exact ⟨hpid, heth⟩
    · exact ⟨hpid, hgateway⟩
  · unfold NetCmd.fields
    simp only [List.forall_mem_cons, List.not_mem_nil, false_implies, implies_true, and_true]
    exact ⟨hpid, hlo⟩

/-- The two rules of a mapping whose protocol and address are words. -/
theorem mapping_sound {ip : CStr} (hip : Sound ip) {pm : PortMapping} (hproto : Sound pm.protocol)
    (hhost : pm.hostPort < 65536) (hcontainer : pm.containerPort < 65536) :
    (∀ f ∈ (pm.dnatRule ip).fields, Sound f) ∧ ∀ f ∈ (pm.acceptRule ip).fields, Sound f := by
  have hport := sound_decimal (n := pm.hostPort) (by omega)
  have hport' := sound_decimal (n := pm.containerPort) (by omega)
  unfold PortMapping.dnatRule PortMapping.acceptRule Rule.fields
  simp only [List.forall_mem_cons, List.not_mem_nil, false_implies, implies_true, and_true]
  exact ⟨⟨hproto, hport, hip, hport'⟩, hproto, hip, hport'⟩

section

variable {ip : CStr} {ports : List PortMapping}

theorem setupPortForwarding_wellFormed (hip : Sound ip)
    (hports : ∀ pm ∈ ports, Sound pm.protocol ∧ pm.hostPort < 65536 ∧ pm.containerPort < 65536) :
    (networkSetupPortForwarding ip ports).Uses WellFormed := by
  induction ports with
  | nil => exact trivial
  | cons pm rest ih =>
      obtain ⟨hproto, hhost, hcontainer⟩ := hports pm (by simp)
      obtain ⟨hdnat, haccept⟩ := mapping_sound hip hproto hhost hcontainer
      have hrest := ih fun p hp => hports p (by simp [hp])
      refine ⟨wellFormed_of_sound hdnat, fun ok => ?_⟩
      cases ok with
      | true => exact ⟨wellFormed_of_sound haccept, fun _ => hrest⟩
      | false => exact hrest

theorem removePortForwarding_wellFormed (hip : Sound ip)
    (hports : ∀ pm ∈ ports, Sound pm.protocol ∧ pm.hostPort < 65536 ∧ pm.containerPort < 65536) :
    (networkRemovePortForwarding ip ports).Uses WellFormed := by
  induction ports with
  | nil => exact trivial
  | cons pm rest ih =>
      obtain ⟨hproto, hhost, hcontainer⟩ := hports pm (by simp)
      obtain ⟨hdnat, haccept⟩ := mapping_sound hip hproto hhost hcontainer
      exact ⟨wellFormed_of_sound hdnat, fun _ => ⟨wellFormed_of_sound haccept, fun _ =>
        ih fun p hp => hports p (by simp [hp])⟩⟩

/-- A removal formats the address and every protocol between blanks. -/
theorem isWord_of_removePortForwarding
    (h : (networkRemovePortForwarding ip ports).Uses WellFormed) :
    ∀ pm ∈ ports, IsWord ip ∧ IsWord pm.protocol := by
  induction ports with
  | nil => intro pm hpm; simp at hpm
  | cons pm rest ih =>
      obtain ⟨-, hnext⟩ := h
      obtain ⟨haccept, hrest⟩ := hnext true
      intro p hp
      rcases List.mem_cons.mp hp with rfl | hp
      · have hwords := Shell.isWord_of_parse haccept
        unfold NetCmd.words PortMapping.acceptRule Rule.words at hwords
        exact ⟨hwords ip (by simp), hwords p.protocol (by simp)⟩
      · exact ih (hrest true) p hp

end

/-! ### Whole setups and cleanups -/

theorem sound_gatewayOr {net : NetworkConfig} (h : FitsBuffers net) (stack : Addr) :
    Sound (gatewayOr net stack) := by
  unfold gatewayOr
  rw [if_pos h.gateway, h.subnet, strchr_default]
  exact sound_inetNtop _

/-- Extracting the address from a text does not make it longer. -/
theorem containerIpOf_length_le (ip : CStr) : (containerIpOf ip).length ≤ ip.length := by
  have htake : (strncpy ip 64).length ≤ ip.length := List.length_take_le' 64 ip
  unfold containerIpOf
  split
  · rename_i a b hcut
    have hlen := congrArg List.length (strchr_eq_some hcut).1
    rw [List.length_append] at hlen
    omega
  · exact htake

/-- The removal of a container's rules, when it has any, and the deletion of its link. -/
theorem cleanup_wellFormed {c : Container} {draws : List Nat} (hid : c.id = generateId 65 draws)
    (h : c.network.ports ≠ [] →
      (networkRemovePortForwarding (containerIpOf c.network.ipAddress) c.network.ports).Uses
        WellFormed) :
    (networkCleanupContainer c).Uses WellFormed := by
  have hdelete : WellFormed (.linkDelete (vethHost c.id)) := by
    refine wellFormed_of_sound ?_
    rw [hid]
    simpa [NetCmd.fields] using sound_vethHost draws
  unfold networkCleanupContainer
  by_cases hports : c.network.ports = []
  · simp only [ne_eq, hports, not_true_eq_false, if_false]
    exact ⟨hdelete, fun _ => trivial⟩
  · simp only [ne_eq, hports, not_false_eq_true, if_true]
    exact Script.uses_bind (h hports) fun _ => ⟨hdelete, fun _ => trivial⟩

/-- What a setup of a container of `cmd_run` settles on. -/
theorem withAddress_run {opts : List RunOption} {draws : List Nat} {pid : BitVec 32}
    {env : Entropy} {c' : Container} (h : withAddress env (runContainer opts draws pid) = some c') :
    c'.id = generateId 65 draws ∧ c'.initPid = pid.toInt ∧
      c'.network.bridgeName = (runNetwork opts).bridgeName ∧
      c'.network.ports = (runNetwork opts).ports ∧ Sound c'.network.gateway ∧
      c'.network.ipAddress = if (runNetwork opts).ipAddress = []
        then poolText 0xac110000 "16".toList env.rand else (runNetwork opts).ipAddress := by
  have hfits := runNetwork_fits opts
  have hsub : IsSubnet (runContainer opts draws pid).network.subnet 0xac110000 "16".toList := by
    show IsSubnet (runNetwork opts).subnet _ _
    rw [hfits.subnet]
    exact isSubnet_default
  obtain ⟨hid, hbridge, hpid, hports⟩ := withAddress_eq h
  have hgateway : c'.network.gateway = gatewayOr (runNetwork opts) env.gatewayStack := by
    obtain ⟨ip, -, rfl⟩ := Option.map_eq_some_iff.mp h
    rfl
  exact ⟨hid, hpid, hbridge, hports, hgateway ▸ sound_gatewayOr hfits env.gatewayStack,
    (withAddress_ip hsub h).2⟩

/-- What the condition says of the mappings: there is an address for them, and its text
and the protocols are sound. -/
theorem FieldsAreWords.mappings {net : NetworkConfig} (hF : FieldsAreWords net)
    (hfits : FitsBuffers net) (hne : net.ports ≠ []) :
    net.ipAddress ≠ [] ∧ Sound (containerIpOf net.ipAddress) ∧
      ∀ pm ∈ net.ports, Sound pm.protocol ∧ pm.hostPort < 65536 ∧ pm.containerPort < 65536 := by
  have hword := hF.containerIp.resolve_left hne
  refine ⟨?_, ⟨(containerIpOf_length_le _).trans hfits.ipAddress, hword⟩, fun pm hpm => ?_⟩
  · intro hnil
    rw [hnil] at hword
    exact absurd hword (by decide)
  · obtain ⟨hhost, hcontainer, hproto⟩ := hfits.ports pm hpm
    exact ⟨⟨by omega, hF.protocols pm hpm⟩, hhost, hcontainer⟩

theorem setup_wellFormed {opts : List RunOption} (hF : FieldsAreWords (runNetwork opts))
    (draws : List Nat) (pid : BitVec 32) (env : Entropy) :
    (networkSetupContainer env (runContainer opts draws pid)).Uses WellFormed := by
  have hfits := runNetwork_fits opts
  have hb : Sound (runNetwork opts).bridgeName := ⟨hfits.bridgeName, hF.bridgeName⟩
  unfold networkSetupContainer
  refine Script.uses_bind ?_ fun code => ?_
  · show (networkCreateBridge (runNetwork opts).bridgeName (runNetwork opts).subnet _).Uses _
    rw [hfits.subnet]
    exact createBridge_wellFormed hb env.bridgeStack
  split
  · exact trivial
  cases hc' : withAddress env (runContainer opts draws pid) with
  | none => exact trivial
  | some c' =>
      obtain ⟨hid, hpid, hbridge, hports, hgateway, hip⟩ := withAddress_run hc'
      have hipSound : Sound c'.network.ipAddress := by
        rw [hip]
        split
        · exact sound_cidr _
        · rename_i hne
          exact ⟨hfits.ipAddress, hF.ipAddress.resolve_left hne⟩
      refine Script.uses_bind ?_ fun _ => trivial
      unfold networkAttach
      refine Script.uses_bind ?_ fun code => ?_
      · rw [hid, hpid, hbridge]
        exact setupVeth_wellFormed hb hipSound hgateway
      split
      · exact trivial
      split
      · rename_i hne
        rw [hports] at hne
        obtain ⟨hgiven, hsound, hmappings⟩ := hF.mappings hfits hne
        rw [if_neg hgiven] at hip
        refine Script.uses_bind ?_ fun _ => trivial
        rw [hports, hip]
        exact setupPortForwarding_wellFormed hsound hmappings
      · exact trivial

/-- A setup comes to format the address between blanks. -/
theorem isWord_of_setup {opts : List RunOption} {draws : List Nat} {pid : BitVec 32} {env : Entropy}
    (h : (networkSetupContainer env (runContainer opts draws pid)).Uses WellFormed)
    (hgiven : (runNetwork opts).ipAddress ≠ []) : IsWord (runNetwork opts).ipAddress := by
  have hsome : ∃ c', withAddress env (runContainer opts draws pid) = some c' := by
    simp [withAddress, runContainer, hgiven]
  obtain ⟨c', hc'⟩ := hsome
  obtain ⟨-, -, -, -, -, hip⟩ := withAddress_run hc'
  rw [if_neg hgiven] at hip
  unfold networkSetupContainer networkCreateBridge at h
  rw [hc'] at h
  obtain ⟨-, hshow⟩ := h
  -- the bridge is there already
  have hattach : (networkAttach c').Uses WellFormed := Script.uses_of_bind (hshow true)
  have hveth := Script.uses_of_bind hattach
  rw [networkSetupVeth_eq] at hveth
  have haddr := Script.mem_of_uses_checkAll hveth
    (.nsAddrAdd c'.initPid c'.network.ipAddress vethContainer) (by simp [vethCommands])
  rw [← hip]
  exact Shell.isWord_of_parse haddr _ (by simp [NetCmd.words])

/-- A setup whose bridge is refused leaves the configuration as it was built, and the
cleanup after it removes the mappings of that. -/
theorem removal_after_refusal {opts : List RunOption} {draws : List Nat} {pid : BitVec 32}
    {env : Entropy}
    (h : (networkCleanupContainer (run NetCmd.effect (networkSetupContainer env
      (runContainer opts draws pid)) ⟨.bare, fun _ => true⟩).1.2).Uses WellFormed)
    (hne : (runNetwork opts).ports ≠ []) :
    (networkRemovePortForwarding (containerIpOf (runNetwork opts).ipAddress)
      (runNetwork opts).ports).Uses WellFormed := by
  have hrefused := (createBridge_refused (runContainer opts draws pid).network.subnet
    env.bridgeStack (b := (runContainer opts draws pid).network.bridgeName)
    (w := ⟨.bare, fun _ => true⟩) rfl rfl).1
  rw [setupContainer_stop (Or.inl (by rw [hrefused]; simp))] at h
  unfold networkCleanupContainer at h
  have hports : (runContainer opts draws pid).network.ports ≠ [] := hne
  rw [if_pos hports] at h
  exact Script.uses_of_bind h

/--
**Every command is the simple command its template says exactly when the bridge name,
the address and the protocols are words for the shell.**
-/
theorem commands_wellFormed_iff (opts : List RunOption) (draws : List Nat) (pid : BitVec 32)
    (env : Entropy) :
    CommandsWellFormed env (runContainer opts draws pid) ↔ FieldsAreWords (runNetwork opts) := by
  have hfits := runNetwork_fits opts
  constructor
  · intro ⟨hsetup, hcleanup⟩
    have hbridge := (Script.uses_of_bind hsetup).1
    have hremove := fun hne => isWord_of_removePortForwarding
      (removal_after_refusal (hcleanup ⟨.bare, fun _ => true⟩) hne)
    refine ⟨?_, ?_, ?_, ?_⟩
    · exact Shell.isWord_of_parse hbridge _ (by simp [NetCmd.words, runContainer])
    · by_cases hnil : (runNetwork opts).ipAddress = []
      · exact Or.inl hnil
      · exact Or.inr (isWord_of_setup hsetup hnil)
    · by_cases hne : (runNetwork opts).ports = []
      · exact Or.inl hne
      · obtain ⟨pm, hpm⟩ := List.exists_mem_of_ne_nil _ hne
        exact Or.inr (hremove hne pm hpm).1
    · intro pm hpm
      have hne : (runNetwork opts).ports ≠ [] := List.ne_nil_of_mem hpm
      exact (hremove hne pm hpm).2
  · intro hF
    refine ⟨setup_wellFormed hF draws pid env, fun w => ?_⟩
    have hremove := fun hne => removePortForwarding_wellFormed (hF.mappings hfits hne).2.1
      (hF.mappings hfits hne).2.2
    rcases setupContainer_record env (runContainer opts draws pid) w with ⟨hrec, -⟩ | hrec
    · rw [hrec]
      exact cleanup_wellFormed rfl hremove
    · obtain ⟨hid, -, -, hports, -, hip⟩ := withAddress_run hrec
      refine cleanup_wellFormed hid fun hne => ?_
      rw [hports] at hne ⊢
      rw [hip, if_neg (hF.mappings hfits hne).1]
      exact hremove hne

/-- A bridge name with a semicolon in it ends the first command and starts another. -/
theorem network_option_starts_command :
    ¬ ∀ (opts : List RunOption) (draws : List Nat) (pid : BitVec 32) (env : Entropy),
      CommandsWellFormed env (runContainer opts draws pid) := by
  intro hall
  have hsetup := (hall [.network "cr0;reboot".toList] [] 7 ⟨0, 0, 0, 0⟩).1
  have hshow : WellFormed (.linkShow "cr0;reboot".toList) := (Script.uses_of_bind hsetup).1
  exact absurd hshow (by decide)

end Cruntime
