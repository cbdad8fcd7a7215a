/-
The commands `network.c` runs, as text and as what they do to the host.

Every call of `system()` in the source formats one of a few templates.  `NetCmd` has
one constructor for each, with the fields the template substitutes; `NetCmd.text`
is the string `snprintf` leaves in `cmd[512]`, and `NetCmd.effect` what the command
does when the shell hands it the words of the template, one word for each field, and
`ip` takes each word for the name or the address it stands for, not for a keyword.
`Net/CommandText.lean` says when the shell does its part.

The host is what those commands read and write: the links of every namespace, the
default route of each, the three iptables lists and the forwarding switch.  A default
route goes through a link that is up, and it is lost with it, when the link is taken
down, leaves the namespace or is deleted.

An effect of `none` is a non-zero exit status forced by the arguments or by the host's
state: an address that cannot be read, a name that is taken, a link that is not there, a
gateway that no neighbour can have.  That a command may be refused for any other reason
is the failure stream of `Lib/Script.lean`.  Two things are simpler than they are: `ip`
reads some spellings of an address besides `A/P` and `A` (fewer octets, other bases, a mask
for the prefix), and refuses them here; and a namespace reaches its gateway through its
`eth0` only, the one device in a container that is given an address.
-/
import Cruntime.Lib.Inet
import Cruntime.Lib.Script
import Cruntime.Net.Links

namespace Cruntime

/-! ### The host -/

/-- The iptables lists the program writes to. -/
inductive Chain where
  | prerouting
  | postrouting
  | forward
deriving DecidableEq

/-- An iptables rule; `other` is any rule the program does not write. -/
inductive Rule where
  | masquerade (subnet bridge : CStr)
  | acceptBridge (bridge : CStr)
  | acceptReplies (bridge : CStr)
  | dnat (protocol : CStr) (hostPort : Nat) (containerIp : CStr) (containerPort : Nat)
  | acceptPort (protocol containerIp : CStr) (containerPort : Nat)
  | other (chain : Chain) (spec : CStr)
deriving DecidableEq

/-- The list a rule belongs to: `POSTROUTING` and `PREROUTING` of the nat table, and
`FORWARD` of the filter table. -/
def Rule.chain : Rule → Chain
  | .masquerade .. => .postrouting
  | .acceptBridge _ => .forward
  | .acceptReplies _ => .forward
  | .dnat .. => .prerouting
  | .acceptPort .. => .forward
  | .other c _ => c

/-- A default route: the gateway, and the device it is behind. -/
structure Route where
  gateway : CStr
  dev : CStr
deriving DecidableEq

structure Host where
  links : LinkTable
  /-- The default route of each namespace. -/
  route : NetNs → Option Route
  rules : Chain → List Rule
  ipForward : Bool
  /-- The network namespace of each process. -/
  nsOf : Int → Option NetNs
  /-- A route goes through a link that is up. -/
  routed : ∀ {ns r}, route ns = some r → links.isUp ⟨ns, r.dev⟩ = true

/-- The fixed name of the container end. -/
def vethContainer : CStr := "eth0".toList

/-- The addresses of a device. -/
def Dev.cidrs (d : Dev) : List Cidr := d.addrs.filterMap readCidr

/-- `0.0.0.0` is taken and not added. -/
def Dev.withAddr (d : Dev) (text : CStr) : Dev :=
  if (readCidr text).map Cidr.addr = some 0 then d else { d with addrs := d.addrs ++ [text] }

theorem Dev.withAddr_eq (d : Dev) {text : CStr} {c : Cidr} (hc : readCidr text = some c)
    (hne : c.addr ≠ 0) : d.withAddr text = { d with addrs := d.addrs ++ [text] } := by
  unfold withAddr
  rw [hc, Option.map_some, if_neg fun heq => hne (Option.some.inj heq)]

@[simp] theorem Dev.withAddr_up (d : Dev) (text : CStr) : (d.withAddr text).up = d.up := by
  unfold withAddr
  split_ifs <;> rfl

@[simp] theorem Dev.withAddr_master (d : Dev) (text : CStr) :
    (d.withAddr text).master = d.master := by
  unfold withAddr
  split_ifs <;> rfl

/-- An address of the device has the gateway among its neighbours. -/
def Dev.reaches (d : Dev) (gateway : CStr) : Bool :=
  (inetPton gateway).any fun g => d.cidrs.any (·.onLink g)

theorem Dev.reaches_iff {d : Dev} {gateway : CStr} :
    d.reaches gateway = true ↔
      ∃ g c, inetPton gateway = some g ∧ c ∈ d.cidrs ∧ c.onLink g = true := by
  unfold reaches
  simp only [Option.any_eq_true, List.any_eq_true]
  exact ⟨fun ⟨g, hg, c, hc, hon⟩ => ⟨g, c, hg, hc, hon⟩,
    fun ⟨g, c, hg, hc, hon⟩ => ⟨g, hg, c, hc, hon⟩⟩

namespace Host

/-- The link `name` of the host's own namespace. -/
def link (h : Host) (name : CStr) : Option Link := h.links.lookup ⟨.host, name⟩

/-- The host with other links.  The routes through links that are not up any more are lost. -/
def setLinks (h : Host) (t : LinkTable) : Host where
  links := t
  route ns := (h.route ns).filter fun r => t.isUp ⟨ns, r.dev⟩
  rules := h.rules
  ipForward := h.ipForward
  nsOf := h.nsOf
  routed hr := (Option.filter_eq_some_iff.mp hr).2

@[simp] theorem setLinks_links (h : Host) (t : LinkTable) : (h.setLinks t).links = t := rfl
@[simp] theorem setLinks_rules (h : Host) (t : LinkTable) : (h.setLinks t).rules = h.rules := rfl
@[simp] theorem setLinks_ipForward (h : Host) (t : LinkTable) :
    (h.setLinks t).ipForward = h.ipForward := rfl
theorem setLinks_route (h : Host) (t : LinkTable) (ns : NetNs) :
    (h.setLinks t).route ns = (h.route ns).filter fun r => t.isUp ⟨ns, r.dev⟩ := rfl

/-- A route stays while its link is up. -/
theorem setLinks_route_eq {h : Host} {t : LinkTable} {ns : NetNs}
    (hup : ∀ r, h.route ns = some r → h.links.isUp ⟨ns, r.dev⟩ = true →
      t.isUp ⟨ns, r.dev⟩ = true) : (h.setLinks t).route ns = h.route ns := by
  rw [setLinks_route]
  cases hr : h.route ns with
  | none => rfl
  | some r => exact Option.filter_some_pos (hup r hr (h.routed hr))

/-- No route is lost where no link goes down. -/
theorem setLinks_route_of_up {h : Host} {t : LinkTable}
    (hup : ∀ x, h.links.isUp x = true → t.isUp x = true) : (h.setLinks t).route = h.route :=
  funext fun _ => setLinks_route_eq fun _ _ => hup _

theorem setLinks_self (h : Host) : h.setLinks h.links = h := by
  have hroute : (h.setLinks h.links).route = h.route := setLinks_route_of_up fun _ => id
  unfold setLinks at hroute ⊢
  congr 1

/-- One change of links after another that has taken no link down. -/
theorem setLinks_setLinks {h : Host} {t : LinkTable} (t' : LinkTable)
    (hup : ∀ x, h.links.isUp x = true → t.isUp x = true) :
    (h.setLinks t).setLinks t' = h.setLinks t' := by
  have hroute : ((h.setLinks t).setLinks t').route = (h.setLinks t').route := by
    funext ns
    rw [setLinks_route, setLinks_route_of_up hup]
    rfl
  unfold setLinks at hroute ⊢
  congr 1

def setRules (h : Host) (c : Chain) (l : List Rule) : Host :=
  { h with rules := Function.update h.rules c l }

@[simp] theorem setRules_links (h : Host) (c : Chain) (l : List Rule) :
    (h.setRules c l).links = h.links := rfl
@[simp] theorem setRules_route (h : Host) (c : Chain) (l : List Rule) :
    (h.setRules c l).route = h.route := rfl
@[simp] theorem setRules_rules (h : Host) (c : Chain) (l : List Rule) :
    (h.setRules c l).rules = Function.update h.rules c l := rfl
@[simp] theorem setRules_ipForward (h : Host) (c : Chain) (l : List Rule) :
    (h.setRules c l).ipForward = h.ipForward := rfl
@[simp] theorem setRules_nsOf (h : Host) (c : Chain) (l : List Rule) :
    (h.setRules c l).nsOf = h.nsOf := rfl

/-- The device at `a` has the gateway among the neighbours of its addresses. -/
def reaches (h : Host) (a : Loc) (gateway : CStr) : Bool :=
  (h.links.lookup a).any fun l => l.dev.reaches gateway

/-- A host without links, routes and rules, every process in a namespace of its own. -/
def bare : Host where
  links := .empty
  route _ := none
  rules _ := []
  ipForward := false
  nsOf pid := if 0 < pid then some (.proc pid.toNat) else none
  routed hr := nomatch hr

/-- `ip addr add`: refused when the text is no address, when the link is missing, or when it has
the address already. -/
def addAddr (h : Host) (a : Loc) (text : CStr) : Option Host :=
  match readCidr text, h.links.lookup a with
  | some c, some l =>
      if c ∈ l.dev.cidrs then none
      else (h.links.setDev a fun d => d.withAddr text).map h.setLinks
  | _, _ => none

theorem addAddr_eq_some {h h' : Host} {a : Loc} {text : CStr} (hs : h.addAddr a text = some h') :
    ∃ c l t, readCidr text = some c ∧ h.links.lookup a = some l ∧ c ∉ l.dev.cidrs ∧
      h.links.setDev a (fun d => d.withAddr text) = some t ∧ h' = h.setLinks t := by
  unfold addAddr at hs
  split at hs
  · rename_i c l hc hl
    split at hs
    · cases hs
    · rename_i hnew
      obtain ⟨t, ht, rfl⟩ := Option.map_eq_some_iff.mp hs
      exact ⟨c, l, t, hc, hl, hnew, ht, rfl⟩
  · cases hs

/-- A new default route, through a link that is up. -/
def setRoute (h : Host) (ns : NetNs) (r : Route) (hup : h.links.isUp ⟨ns, r.dev⟩ = true) : Host :=
  { h with
    route := Function.update h.route ns (some r)
    routed := by
      intro ns' r' hr
      by_cases hns : ns' = ns
      · subst hns
        rw [Function.update_self] at hr
        obtain rfl := Option.some.inj hr
        exact hup
      · rw [Function.update_of_ne hns] at hr
        exact h.routed hr }

section SetRoute

variable (h : Host) {ns : NetNs} {r : Route} (hup : h.links.isUp ⟨ns, r.dev⟩ = true)

@[simp] theorem setRoute_links : (h.setRoute ns r hup).links = h.links := rfl
@[simp] theorem setRoute_route :
    (h.setRoute ns r hup).route = Function.update h.route ns (some r) := rfl
@[simp] theorem setRoute_rules : (h.setRoute ns r hup).rules = h.rules := rfl
@[simp] theorem setRoute_ipForward : (h.setRoute ns r hup).ipForward = h.ipForward := rfl
@[simp] theorem setRoute_nsOf : (h.setRoute ns r hup).nsOf = h.nsOf := rfl

end SetRoute

/-- `ip route add default via`: refused when there is a default route, and when no neighbour of
the namespace's `eth0` can have the gateway's address or the device is down. -/
def addRoute (h : Host) (ns : NetNs) (gateway : CStr) : Option Host :=
  if hok : h.route ns = none ∧ h.links.isUp ⟨ns, vethContainer⟩ = true ∧
      h.reaches ⟨ns, vethContainer⟩ gateway = true then
    some (h.setRoute ns ⟨gateway, vethContainer⟩ hok.2.1)
  else none

theorem addRoute_eq_some {h h' : Host} {ns : NetNs} {gateway : CStr}
    (hs : h.addRoute ns gateway = some h') :
    h.route ns = none ∧ h.reaches ⟨ns, vethContainer⟩ gateway = true ∧
      ∃ hup, h' = h.setRoute ns ⟨gateway, vethContainer⟩ hup := by
  unfold addRoute at hs
  split at hs
  · rename_i hok
    exact ⟨hok.1, hok.2.2, hok.2.1, (Option.some.inj hs).symm⟩
  · cases hs

/-- A command run by `nsenter` in the network namespace of a process. -/
def enter (h : Host) (pid : Int) (f : NetNs → Option Host) : Option Host := (h.nsOf pid).bind f

end Host

/-! ### The commands -/

/-- The command templates of `network.c` with the fields they substitute. -/
inductive NetCmd where
  | linkShow (dev : CStr)
  | linkAddBridge (name : CStr)
  | addrAdd (addr pfx dev : CStr)
  | linkUp (dev : CStr)
  | linkDown (dev : CStr)
  | sysctlForward
  | appendRule (r : Rule)
  | deleteRule (r : Rule)
  | linkDeleteBridge (name : CStr)
  | linkAddVeth (name peer : CStr)
  | linkSetMaster (dev master : CStr)
  | linkSetNetns (dev : CStr) (pid : Int)
  | nsAddrAdd (pid : Int) (addr dev : CStr)
  | nsLinkUp (pid : Int) (dev : CStr)
  | nsRouteAdd (pid : Int) (gateway : CStr)
  | linkDelete (dev : CStr)
deriving DecidableEq

/-- The rule specification as the templates write it after `-A CHAIN` or `-D CHAIN`. -/
def Rule.spec : Rule → CStr
  | .masquerade subnet bridge =>
      " -s ".toList ++ subnet ++ " ! -o ".toList ++ bridge ++ " -j MASQUERADE".toList
  | .acceptBridge bridge =>
      " -i ".toList ++ bridge ++ " -o ".toList ++ bridge ++ " -j ACCEPT".toList
  | .acceptReplies bridge =>
      " -o ".toList ++ bridge ++
        " -m conntrack --ctstate RELATED,ESTABLISHED -j ACCEPT".toList
  | .dnat protocol hostPort ip containerPort =>
      " -p ".toList ++ protocol ++ " --dport ".toList ++ decimal hostPort ++
        " -j DNAT --to-destination ".toList ++ ip ++ ":".toList ++ decimal containerPort
  | .acceptPort protocol ip containerPort =>
      " -p ".toList ++ protocol ++ " -d ".toList ++ ip ++ " --dport ".toList ++
        decimal containerPort ++ " -j ACCEPT".toList
  | .other _ spec => ' ' :: spec

def Chain.name : Chain → CStr
  | .prerouting => "PREROUTING".toList
  | .postrouting => "POSTROUTING".toList
  | .forward => "FORWARD".toList

/-- `-t nat` for the lists of the nat table. -/
def Chain.table : Chain → CStr
  | .forward => []
  | _ => "-t nat ".toList

/-- The text a template formats to, before it is cut to the buffer. -/
def NetCmd.format : NetCmd → CStr
  | .linkShow dev => "ip link show ".toList ++ dev ++ " >/dev/null 2>&1".toList
  | .linkAddBridge name => "ip link add name ".toList ++ name ++ " type bridge".toList
  | .addrAdd addr pfx dev =>
      "ip addr add ".toList ++ addr ++ "/".toList ++ pfx ++ " dev ".toList ++ dev
  | .linkUp dev => "ip link set ".toList ++ dev ++ " up".toList
  | .linkDown dev => "ip link set ".toList ++ dev ++ " down".toList
  | .sysctlForward => "sysctl -w net.ipv4.ip_forward=1 >/dev/null 2>&1".toList
  | .appendRule r =>
      "iptables ".toList ++ r.chain.table ++ "-A ".toList ++ r.chain.name ++ r.spec
  | .deleteRule r =>
      "iptables ".toList ++ r.chain.table ++ "-D ".toList ++ r.chain.name ++ r.spec
  | .linkDeleteBridge name => "ip link delete ".toList ++ name ++ " type bridge".toList
  | .linkAddVeth name peer =>
      "ip link add ".toList ++ name ++ " type veth peer name ".toList ++ peer
  | .linkSetMaster dev master =>
      "ip link set ".toList ++ dev ++ " master ".toList ++ master
  | .linkSetNetns dev pid => "ip link set ".toList ++ dev ++ " netns ".toList ++ decimalInt pid
  | .nsAddrAdd pid addr dev =>
      "nsenter -t ".toList ++ decimalInt pid ++ " -n ip addr add ".toList ++ addr ++
        " dev ".toList ++ dev
  | .nsLinkUp pid dev =>
      "nsenter -t ".toList ++ decimalInt pid ++ " -n ip link set ".toList ++ dev ++ " up".toList
  | .nsRouteAdd pid gateway =>
      "nsenter -t ".toList ++ decimalInt pid ++ " -n ip route add default via ".toList ++ gateway
  | .linkDelete dev => "ip link delete ".toList ++ dev ++ " 2>/dev/null".toList

/-- The command string: `snprintf` into `char cmd[512]`. -/
def NetCmd.text (c : NetCmd) : CStr := snprintf 512 c.format

/-- What a command does to the host, `none` when it exits with an error. -/
def NetCmd.effect : NetCmd → Host → Option Host
  | .linkShow dev, h => if (h.link dev).isSome then some h else none
  | .linkAddBridge name, h => (h.links.addBridge ⟨.host, name⟩).map h.setLinks
  | .addrAdd addr pfx dev, h => h.addAddr ⟨.host, dev⟩ (addr ++ '/' :: pfx)
  | .linkUp dev, h => (h.links.setDev ⟨.host, dev⟩ fun d => { d with up := true }).map h.setLinks
  | .linkDown dev, h =>
      (h.links.setDev ⟨.host, dev⟩ fun d => { d with up := false }).map h.setLinks
  | .sysctlForward, h => some { h with ipForward := true }
  | .appendRule r, h => some (h.setRules r.chain (h.rules r.chain ++ [r]))
  | .deleteRule r, h =>
      if r ∈ h.rules r.chain then some (h.setRules r.chain ((h.rules r.chain).erase r)) else none
  | .linkDeleteBridge name, h =>
      if h.links.kindAt ⟨.host, name⟩ = some .bridge then
        (h.links.delete ⟨.host, name⟩).map h.setLinks
      else none
  | .linkAddVeth name peer, h =>
      (h.links.addPair ⟨.host, name⟩ ⟨.host, peer⟩).map h.setLinks
  | .linkSetMaster dev master, h =>
      if h.links.kindAt ⟨.host, master⟩ = some .bridge then
        (h.links.setDev ⟨.host, dev⟩ fun d => { d with master := some master }).map h.setLinks
      else none
  | .linkSetNetns dev pid, h =>
      h.enter pid fun ns =>
        if ns = .host then (if (h.link dev).isSome then some h else none)
        else (h.links.move ⟨.host, dev⟩ ⟨ns, dev⟩).map h.setLinks
  | .nsAddrAdd pid addr dev, h => h.enter pid fun ns => h.addAddr ⟨ns, dev⟩ addr
  | .nsLinkUp pid dev, h =>
      h.enter pid fun ns =>
        (h.links.setDev ⟨ns, dev⟩ fun d => { d with up := true }).map h.setLinks
  | .nsRouteAdd pid gateway, h =>
      h.enter pid fun ns => h.addRoute ns gateway
  | .linkDelete dev, h => (h.links.delete ⟨.host, dev⟩).map h.setLinks

/-- Programs over these commands. -/
abbrev NetScript := Script NetCmd

end Cruntime
