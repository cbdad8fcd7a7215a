/-
How far the network of a container has come, among others.

`LinkStage` follows one container: it has no pair, or its pair is on the host, or one end of it is
inside.  `LinkStage.next` is the protocol of the container's calls.  What matters most is that
`ip link set eth0 netns` comes only where the host's `eth0` is the container's own; that it is,
nothing in the code checks, but no other call can have made it.

`Placed` says what a stage means for the host.  A successful command is one of `LinkMove`; it brings
its own container to the next stage, and what a stage of another container speaks of it does not
touch.
-/
import Cruntime.Lib.Protocol
import Cruntime.Net.Interleaved
import Cruntime.Net.Leavings

namespace Cruntime

/-! ### The protocol -/

inductive LinkStage where
  | away
  | onHost (dev : Dev)
  | inside (dev peer : Dev) (gateway : Option CStr)
  -- a pair was made that was there, or a route to a gateway that was not
  | impossible
deriving DecidableEq

/-- The command writes to bridge `b` and the rules at most. -/
def NetCmd.shared (b : CStr) : NetCmd → Bool
  | .linkShow dev => dev == b
  | .linkAddBridge name => name == b
  | .addrAdd _ _ dev => dev == b
  | .linkUp dev => dev == b
  | .sysctlForward => true
  | .appendRule _ => true
  | .deleteRule _ => true
  | _ => false

namespace LinkStage

def created : LinkStage → Bool → LinkStage
  | s, false => s
  | .away, true => .onHost .fresh
  | _, true => .impossible

def deleted : LinkStage → Bool → LinkStage
  | s, false => s
  | .impossible, true => .impossible
  | _, true => .away

/-- A change to the host end, while the pair is on the host. -/
def hostDev (f : Dev → Dev) : LinkStage → Bool → Option LinkStage
  | .onHost dev, ok => some (.onHost (if ok then f dev else dev))
  | .impossible, _ => some .impossible
  | _, _ => none

def moved : LinkStage → Bool → Option LinkStage
  | .onHost dev, ok => some (if ok then .inside dev .fresh none else .onHost dev)
  | .impossible, _ => some .impossible
  | _, _ => none

/-- A change to the container end, once it is inside. -/
def peerDev (f : Dev → Dev) : LinkStage → Bool → Option LinkStage
  | .inside dev peer g, ok => some (.inside dev (if ok then f peer else peer) g)
  | .impossible, _ => some .impossible
  | _, _ => none

def routed (gateway : CStr) : LinkStage → Bool → Option LinkStage
  | .inside dev peer g, false => some (.inside dev peer g)
  | .inside dev peer _, true =>
      some (if peer.reaches gateway then .inside dev peer (some gateway) else .impossible)
  | .impossible, _ => some .impossible
  | _, _ => none

/-- The commands of a container's calls that have to do with its own links. -/
def nextOwn (c : Container) (s : LinkStage) (cmd : NetCmd) (ok : Bool) : Option LinkStage :=
  match cmd with
  | .linkAddVeth name peer =>
      if name = vethHost c.id ∧ peer = vethContainer then some (s.created ok) else none
  | .linkSetMaster dev master =>
      if dev = vethHost c.id then s.hostDev (fun d => { d with master := some master }) ok
      else none
  | .linkUp dev =>
      if dev = vethHost c.id then s.hostDev (fun d => { d with up := true }) ok else none
  | .linkSetNetns dev pid =>
      if dev = vethContainer ∧ pid = c.initPid then s.moved ok else none
  | .nsAddrAdd pid addr dev =>
      if pid = c.initPid ∧ dev = vethContainer then
        s.peerDev (fun d => d.withAddr addr) ok
      else none
  | .nsLinkUp pid dev =>
      if pid = c.initPid ∧ dev = vethContainer then s.peerDev (fun d => { d with up := true }) ok
      else if pid = c.initPid ∧ dev = "lo".toList then s.peerDev id ok
      else none
  | .nsRouteAdd pid gateway => if pid = c.initPid then s.routed gateway ok else none
  | .linkDelete dev => if dev = vethHost c.id then some (s.deleted ok) else none
  | _ => none

def next (c : Container) (s : LinkStage) (cmd : NetCmd) (ok : Bool) : Option LinkStage :=
  if cmd.shared c.network.bridgeName then some s else s.nextOwn c cmd ok

end LinkStage

variable {c : Container} {ns : NetNs} {s s' : LinkStage} {cmd : NetCmd} {h h' : Host}

theorem loc_ne_of_name {ns ns' : NetNs} {name name' : CStr} (hne : name ≠ name') :
    (⟨ns, name⟩ : Loc) ≠ ⟨ns', name'⟩ := fun heq => hne (Loc.mk.inj heq).2

theorem hostEnd_ne_hostEth0 (id : CStr) : (⟨.host, vethHost id⟩ : Loc) ≠ hostEth0 :=
  loc_ne_of_name (vethHost_ne_vethContainer id)

end Cruntime
